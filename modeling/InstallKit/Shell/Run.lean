import InstallKit.Shell.Script
import Mathlib.Logic.Relation

/-!
# Running scripts

The surroundings of a script answer its commands one after the other.  Which replies are possible
is a parameter `A : List (C × R) → C → R → Prop`: `A l c r` says that `c` may be answered by `r`
when the commands in the log `l` (newest first) have been run.  Taking `A` to be always true gives
every assignment of outcomes to the commands; a stronger `A` ties the replies to a world.

* `Step A`, `Reach A` : one command, and any number of them.  The configurations that are reachable
  are the *command boundaries* of the script.
* `wp A I p Q s` : every boundary reachable from `s` satisfies `I`, and whenever the script ends it
  ends in `Q`; `wp_iff` says that this is exact.
* `follow` : the run in which a function answers the commands.
-/

namespace InstallKit

namespace Shell

variable {V C R α β : Type}

/-- The state of a running script: its variables, the commands run so far with their replies
(newest first), and whether `set -e` is in force. -/
structure St (V C R : Type) where
  /-- The variables that the trap handler reads. -/
  vars : V
  /-- The commands run so far, newest first. -/
  log : List (C × R)
  /-- `set -e` is in force. -/
  errexit : Bool

namespace St

/-- Record a command and its reply. -/
def push (s : St V C R) (c : C) (r : R) : St V C R := { s with log := (c, r) :: s.log }

/-- Change the variables. -/
def upd (s : St V C R) (f : V → V) : St V C R := { s with vars := f s.vars }

/-- The state in which the trap handler runs: `set +e`. -/
def noErrexit (s : St V C R) : St V C R := { s with errexit := false }

@[simp] theorem push_log (s : St V C R) (c : C) (r : R) : (s.push c r).log = (c, r) :: s.log := rfl

@[simp] theorem push_vars (s : St V C R) (c : C) (r : R) : (s.push c r).vars = s.vars := rfl

@[simp] theorem push_errexit (s : St V C R) (c : C) (r : R) :
    (s.push c r).errexit = s.errexit := rfl

@[simp] theorem upd_log (s : St V C R) (f : V → V) : (s.upd f).log = s.log := rfl

@[simp] theorem upd_vars (s : St V C R) (f : V → V) : (s.upd f).vars = f s.vars := rfl

@[simp] theorem upd_errexit (s : St V C R) (f : V → V) : (s.upd f).errexit = s.errexit := rfl

@[simp] theorem noErrexit_log (s : St V C R) : s.noErrexit.log = s.log := rfl

@[simp] theorem noErrexit_vars (s : St V C R) : s.noErrexit.vars = s.vars := rfl

@[simp] theorem noErrexit_errexit (s : St V C R) : s.noErrexit.errexit = false := rfl

end St

/-- A script in execution: what is left of it, and its state. -/
abbrev Config (V C R α : Type) := Script V C R α × St V C R

variable [ExitStatus R]

/-- A status `n` ends the script through `set -e`. -/
def stops (s : St V C R) (chk : Bool) (n : ℕ) : Bool := chk && s.errexit && n != 0

omit [ExitStatus R] in
@[simp] theorem stops_unchecked (s : St V C R) (n : ℕ) : stops s false n = false := rfl

omit [ExitStatus R] in
@[simp] theorem stops_noErrexit (s : St V C R) (chk : Bool) (n : ℕ) :
    stops s.noErrexit chk n = false := by simp [stops]

omit [ExitStatus R] in
@[simp] theorem stops_zero (s : St V C R) (chk : Bool) : stops s chk 0 = false := by simp [stops]

/-- What follows a status `n`. -/
def next (s : St V C R) (chk : Bool) (n : ℕ) (p : Script V C R α) : Config V C R α :=
  if stops s chk n then (.exit n "", s) else (p, s)

omit [ExitStatus R] in
@[simp] theorem next_state (s : St V C R) (chk : Bool) (n : ℕ) (p : Script V C R α) :
    (next s chk n p).2 = s := by
  unfold next; split <;> rfl

omit [ExitStatus R] in
theorem next_bind (s : St V C R) (chk : Bool) (n : ℕ) (p : Script V C R α)
    (f : α → Script V C R β) :
    ((next s chk n p).1 >>= f, (next s chk n p).2) = next s chk n (p >>= f) := by
  unfold next; split <;> rfl

/-- One step of a script. -/
inductive Step (A : List (C × R) → C → R → Prop) : Config V C R α → Config V C R α → Prop
  /-- A variable is assigned. -/
  | assign (f : V → V) (p : Script V C R α) (s : St V C R) :
      Step A (.assign f p, s) (p, s.upd f)
  /-- The shell yields a status. -/
  | status (n : ℕ) (chk : Bool) (p : Script V C R α) (s : St V C R) :
      Step A (.status n chk p, s) (next s chk n p)
  /-- A command is run and answered. -/
  | call (c : C) (chk : Bool) (k : R → Script V C R α) (s : St V C R) (r : R)
      (h : A s.log c r) :
      Step A (.call c chk k, s) (next (s.push c r) chk (ExitStatus.status r) (k r))

/-- The configurations reachable from a given one. -/
def Reach (A : List (C × R) → C → R → Prop) : Config V C R α → Config V C R α → Prop :=
  Relation.ReflTransGen (Step A)

variable {A : List (C × R) → C → R → Prop}

namespace Reach

theorem refl (x : Config V C R α) : Reach A x x := Relation.ReflTransGen.refl

theorem trans {x y z : Config V C R α} (h : Reach A x y) (h' : Reach A y z) : Reach A x z :=
  Relation.ReflTransGen.trans h h'

theorem head {x y z : Config V C R α} (h : Step A x y) (h' : Reach A y z) : Reach A x z :=
  Relation.ReflTransGen.head h h'

theorem assign {f : V → V} {p : Script V C R α} {s : St V C R} {x : Config V C R α}
    (h : Reach A (p, s.upd f) x) : Reach A (.assign f p, s) x :=
  head (.assign f p s) h

theorem status {n : ℕ} {chk : Bool} {p : Script V C R α} {s : St V C R} {x : Config V C R α}
    (hn : stops s chk n = false) (h : Reach A (p, s) x) : Reach A (.status n chk p, s) x := by
  refine head (.status n chk p s) ?_
  rw [next, hn]
  exact h

theorem call {c : C} {chk : Bool} {k : R → Script V C R α} {s : St V C R} {x : Config V C R α}
    (r : R) (hA : A s.log c r) (hr : stops (s.push c r) chk (ExitStatus.status r) = false)
    (h : Reach A (k r, s.push c r) x) : Reach A (.call c chk k, s) x := by
  refine head (.call c chk k s r hA) ?_
  rw [next, hr]
  exact h

/-- A script that has ended takes no further step. -/
theorem eq_of_outcome? {p : Script V C R α} {s : St V C R} {x : Config V C R α}
    {o : Script.Outcome α} (ho : p.outcome? = some o) (h : Reach A (p, s) x) : x = (p, s) := by
  cases p with
  | ret a => cases Relation.ReflTransGen.cases_head h with
    | inl h => exact h.symm
    | inr h => obtain ⟨_, hst, -⟩ := h; cases hst
  | exit n m => cases Relation.ReflTransGen.cases_head h with
    | inl h => exact h.symm
    | inr h => obtain ⟨_, hst, -⟩ := h; cases hst
  | assign f p => cases ho
  | status n chk p => cases ho
  | call c chk k => cases ho

theorem assign_cases {f : V → V} {p : Script V C R α} {s : St V C R} {x : Config V C R α}
    (h : Reach A (.assign f p, s) x) : x = (.assign f p, s) ∨ Reach A (p, s.upd f) x := by
  rcases Relation.ReflTransGen.cases_head h with h | ⟨y, hst, h⟩
  · exact Or.inl h.symm
  · cases hst; exact Or.inr h

theorem status_cases {n : ℕ} {chk : Bool} {p : Script V C R α} {s : St V C R}
    {x : Config V C R α} (h : Reach A (.status n chk p, s) x) :
    x = (.status n chk p, s) ∨ Reach A (next s chk n p) x := by
  rcases Relation.ReflTransGen.cases_head h with h | ⟨y, hst, h⟩
  · exact Or.inl h.symm
  · cases hst; exact Or.inr h

theorem call_cases {c : C} {chk : Bool} {k : R → Script V C R α} {s : St V C R}
    {x : Config V C R α} (h : Reach A (.call c chk k, s) x) :
    x = (.call c chk k, s) ∨ ∃ r, A s.log c r ∧
      Reach A (next (s.push c r) chk (ExitStatus.status r) (k r)) x := by
  rcases Relation.ReflTransGen.cases_head h with h | ⟨y, hst, h⟩
  · exact Or.inl h.symm
  · cases hst with
    | call _ _ _ _ r hA => exact Or.inr ⟨r, hA, h⟩

/-- The log only grows. -/
theorem log_suffix {x y : Config V C R α} (h : Reach A x y) : x.2.log <:+ y.2.log := by
  induction h with
  | refl => exact List.suffix_refl _
  | tail _ hst ih =>
    refine ih.trans ?_
    cases hst with
    | assign f p s => exact List.suffix_refl _
    | status n chk p s => simpa only [next_state] using List.suffix_refl _
    | call c chk k s r _ => simpa only [next_state, St.push_log] using List.suffix_cons _ _

/-- A part of a script runs inside the whole. -/
theorem bind {x y : Config V C R α} (h : Reach A x y) (f : α → Script V C R β) :
    Reach A (x.1 >>= f, x.2) (y.1 >>= f, y.2) := by
  induction h with
  | refl => exact refl _
  | tail _ hst ih =>
    refine ih.trans (Relation.ReflTransGen.single ?_)
    cases hst with
    | assign g p s => exact .assign g (p >>= f) s
    | status n chk p s =>
      have hst := Step.status (A := A) n chk (p >>= f) s
      rw [← next_bind] at hst
      exact hst
    | call c chk k s r hA =>
      have hst := Step.call (A := A) c chk (fun r => k r >>= f) s r hA
      rw [← next_bind] at hst
      exact hst

/-- Once a part has returned, the rest runs from there. -/
theorem bind_ret {p : Script V C R α} {s s' : St V C R} {a : α}
    (h : Reach A (p, s) (.ret a, s')) (f : α → Script V C R β) :
    Reach A (p >>= f, s) (f a, s') := h.bind f

end Reach

/-! ### Weakest preconditions -/

/-- Every boundary from `s` on satisfies `I`, and the script can only end in `Q`. -/
def wp (A : List (C × R) → C → R → Prop) (I : St V C R → Prop) :
    Script V C R α → (Script.Outcome α → St V C R → Prop) → St V C R → Prop
  | .ret a, Q, s => I s ∧ Q (.ret a) s
  | .exit n m, Q, s => I s ∧ Q (.exit n m) s
  | .assign f p, Q, s => I s ∧ wp A I p Q (s.upd f)
  | .status n chk p, Q, s => I s ∧ if stops s chk n then Q (.exit n "") s else wp A I p Q s
  | .call c chk k, Q, s => I s ∧ ∀ r, A s.log c r →
      I (s.push c r) ∧ if stops (s.push c r) chk (ExitStatus.status r)
        then Q (.exit (ExitStatus.status r) "") (s.push c r) else wp A I (k r) Q (s.push c r)

variable {I : St V C R → Prop} {Q : Script.Outcome α → St V C R → Prop} {s : St V C R}

@[simp] theorem wp_ret {a : α} : wp A I (.ret a) Q s ↔ I s ∧ Q (.ret a) s := Iff.rfl

@[simp] theorem wp_exit {n : ℕ} {m : String} :
    wp A I (.exit n m) Q s ↔ I s ∧ Q (.exit n m) s := Iff.rfl

@[simp] theorem wp_assign {f : V → V} {p : Script V C R α} :
    wp A I (.assign f p) Q s ↔ I s ∧ wp A I p Q (s.upd f) := Iff.rfl

theorem wp_call {c : C} {chk : Bool} {k : R → Script V C R α} :
    wp A I (.call c chk k) Q s ↔ I s ∧ ∀ r, A s.log c r →
      I (s.push c r) ∧ if stops (s.push c r) chk (ExitStatus.status r)
        then Q (.exit (ExitStatus.status r) "") (s.push c r)
        else wp A I (k r) Q (s.push c r) := Iff.rfl

theorem wp_inv {p : Script V C R α} (h : wp A I p Q s) : I s := by
  cases p <;> exact h.1

/-- A command that is not subject to `set -e`. -/
@[simp] theorem wp_attempt {c : C} {k : R → Script V C R α} :
    wp A I (.call c false k) Q s ↔ I s ∧ ∀ r, A s.log c r → wp A I (k r) Q (s.push c r) := by
  rw [wp_call]
  refine and_congr_right fun _ => forall₂_congr fun r _ => ?_
  rw [stops_unchecked]
  exact ⟨fun h => h.2, fun h => ⟨wp_inv h, h⟩⟩

theorem wp_mono {I' : St V C R → Prop} {Q' : Script.Outcome α → St V C R → Prop}
    (hI : ∀ s, I s → I' s) (hQ : ∀ o s, Q o s → Q' o s) {p : Script V C R α} {s : St V C R}
    (h : wp A I p Q s) : wp A I' p Q' s := by
  induction p generalizing s with
  | ret a => exact ⟨hI _ h.1, hQ _ _ h.2⟩
  | exit n m => exact ⟨hI _ h.1, hQ _ _ h.2⟩
  | assign f p ih => exact ⟨hI _ h.1, ih h.2⟩
  | status n chk p ih =>
    refine ⟨hI _ h.1, ?_⟩
    have hn := h.2
    split
    · rename_i hs; rw [if_pos hs] at hn; exact hQ _ _ hn
    · rename_i hs; rw [if_neg hs] at hn; exact ih hn
  | call c chk k ih =>
    refine ⟨hI _ h.1, fun r hr => ⟨hI _ (h.2 r hr).1, ?_⟩⟩
    have hn := (h.2 r hr).2
    split
    · rename_i hs; rw [if_pos hs] at hn; exact hQ _ _ hn
    · rename_i hs; rw [if_neg hs] at hn; exact ih r hn

/-- **Sequencing**: what the first part must establish for the second. -/
theorem wp_bind {p : Script V C R β} {f : β → Script V C R α} :
    wp A I (p >>= f) Q s ↔
      wp A I p (fun o s => match o with
        | .ret b => wp A I (f b) Q s
        | .exit n m => Q (.exit n m) s) s := by
  induction p generalizing s with
  | ret b => exact ⟨fun h => ⟨wp_inv h, h⟩, fun h => h.2⟩
  | exit n m => exact Iff.rfl
  | assign g p ih => exact and_congr_right fun _ => ih
  | status n chk p ih =>
    refine and_congr_right fun _ => ?_
    split
    · exact Iff.rfl
    · exact ih
  | call c chk k ih =>
    refine and_congr_right fun _ => forall₂_congr fun r _ => and_congr_right fun _ => ?_
    split
    · exact Iff.rfl
    · exact ih r

/-- What follows a status is governed by the branch that the status selects. -/
theorem reach_next {chk : Bool} {n : ℕ} {p : Script V C R α} (hI : I s)
    (hn : if stops s chk n then Q (.exit n "") s else wp A I p Q s)
    (hp : wp A I p Q s → ∀ p' s', Reach A (p, s) (p', s') →
      I s' ∧ ∀ o, p'.outcome? = some o → Q o s') :
    ∀ p' s', Reach A (next s chk n p) (p', s') →
      I s' ∧ ∀ o, p'.outcome? = some o → Q o s' := by
  intro p' s' hr
  unfold next at hr
  split at hr
  · rename_i hs
    rw [if_pos hs] at hn
    cases Reach.eq_of_outcome? rfl hr
    exact ⟨hI, fun o ho => by cases ho; exact hn⟩
  · rename_i hs
    rw [if_neg hs] at hn
    exact hp hn p' s' hr

/-- **The weakest precondition is exact**: it holds iff every reachable boundary satisfies the
invariant and every end satisfies the postcondition. -/
theorem wp_iff {p : Script V C R α} :
    wp A I p Q s ↔ ∀ p' s', Reach A (p, s) (p', s') →
      I s' ∧ ∀ o, p'.outcome? = some o → Q o s' := by
  induction p generalizing s with
  | ret a =>
    constructor
    · intro h p' s' hr
      cases Reach.eq_of_outcome? rfl hr
      exact ⟨h.1, fun o ho => by cases ho; exact h.2⟩
    · intro h
      obtain ⟨h1, h2⟩ := h _ _ (Reach.refl _)
      exact ⟨h1, h2 _ rfl⟩
  | exit n m =>
    constructor
    · intro h p' s' hr
      cases Reach.eq_of_outcome? rfl hr
      exact ⟨h.1, fun o ho => by cases ho; exact h.2⟩
    · intro h
      obtain ⟨h1, h2⟩ := h _ _ (Reach.refl _)
      exact ⟨h1, h2 _ rfl⟩
  | assign f p ih =>
    constructor
    · intro h p' s' hr
      rcases hr.assign_cases with hx | hr
      · cases hx; exact ⟨h.1, fun o ho => by cases ho⟩
      · exact ih.1 h.2 p' s' hr
    · intro h
      exact ⟨(h _ _ (Reach.refl _)).1, ih.2 fun p' s' hr => h p' s' hr.assign⟩
  | status n chk p ih =>
    constructor
    · intro h p' s' hr
      rcases hr.status_cases with hx | hr
      · cases hx; exact ⟨h.1, fun o ho => by cases ho⟩
      · exact reach_next h.1 h.2 (fun hw => ih.1 hw) p' s' hr
    · intro h
      refine ⟨(h _ _ (Reach.refl _)).1, ?_⟩
      have hst := Step.status (A := A) n chk p s
      unfold next at hst
      split
      · rename_i hs
        rw [if_pos hs] at hst
        exact (h _ _ (Relation.ReflTransGen.single hst)).2 _ rfl
      · rename_i hs
        rw [if_neg hs] at hst
        exact ih.2 fun p' s' hr => h p' s' (hr.head hst)
  | call c chk k ih =>
    constructor
    · intro h p' s' hr
      rcases hr.call_cases with hx | ⟨r, hA, hr⟩
      · cases hx; exact ⟨h.1, fun o ho => by cases ho⟩
      · exact reach_next (h.2 r hA).1 (h.2 r hA).2 (fun hw => (ih r).1 hw) p' s' hr
    · intro h
      -- the boundary before the command, and then what follows it
      refine ⟨(h _ _ (Reach.refl _)).1, fun r hA => ?_⟩
      have hst := Step.call c chk k s r hA
      unfold next at hst
      split
      · rename_i hs
        rw [if_pos hs] at hst
        obtain ⟨h1, h2⟩ := h _ _ (Relation.ReflTransGen.single hst)
        exact ⟨h1, h2 _ rfl⟩
      · rename_i hs
        rw [if_neg hs] at hst
        have hk : Reach A (.call c chk k, s) (k r, s.push c r) := Relation.ReflTransGen.single hst
        exact ⟨(h _ _ hk).1, (ih r).2 fun p' s' hr => h p' s' (hr.head hst)⟩

/-- The postcondition holds at the end. -/
theorem post_of_wp {p p' : Script V C R α} {s' : St V C R} {o : Script.Outcome α}
    (h : wp A I p Q s) (hr : Reach A (p, s) (p', s')) (ho : p'.outcome? = some o) : Q o s' :=
  (wp_iff.1 h p' s' hr).2 o ho

/-- A property of the log that every command of the script keeps holds throughout. -/
theorem wp_of_calls {P : C → Prop} {J : List (C × R) → Prop} {p : Script V C R α}
    (hp : p.Calls P) (hJ : ∀ l c r, P c → A l c r → J l → J ((c, r) :: l)) (hs : J s.log) :
    wp A (fun s => J s.log) p (fun _ s => J s.log) s := by
  induction p generalizing s with
  | ret a => exact ⟨hs, hs⟩
  | exit n m => exact ⟨hs, hs⟩
  | assign f p ih => exact ⟨hs, ih hp hs⟩
  | status n chk p ih =>
    refine ⟨hs, ?_⟩
    split
    · exact hs
    · exact ih hp hs
  | call c chk k ih =>
    refine ⟨hs, fun r hA => ?_⟩
    have hs' := hJ _ _ _ hp.1 hA hs
    refine ⟨hs', ?_⟩
    split
    · exact hs'
    · exact ih r (hp.2 r) hs'

/-! ### Executable runs -/

/-- The run in which `ρ` answers every command. -/
def follow (ρ : List (C × R) → C → R) : Script V C R α → St V C R → Config V C R α
  | .ret a, s => (.ret a, s)
  | .exit n m, s => (.exit n m, s)
  | .assign f p, s => follow ρ p (s.upd f)
  | .status n chk p, s => if stops s chk n then (.exit n "", s) else follow ρ p s
  | .call c chk k, s =>
    let r := ρ s.log c
    if stops (s.push c r) chk (ExitStatus.status r) then
      (.exit (ExitStatus.status r) "", s.push c r)
    else follow ρ (k r) (s.push c r)

/-- What is executed is a run, when all its replies are possible. -/
theorem reach_follow {ρ : List (C × R) → C → R} (hρ : ∀ l c, A l c (ρ l c))
    (p : Script V C R α) (s : St V C R) : Reach A (p, s) (follow ρ p s) := by
  induction p generalizing s with
  | ret a => exact Reach.refl _
  | exit n m => exact Reach.refl _
  | assign f p ih => exact (ih (s.upd f)).assign
  | status n chk p ih =>
    have hst := Step.status (A := A) n chk p s
    simp only [follow]
    split
    · rename_i hs
      rw [next, if_pos hs] at hst
      exact Relation.ReflTransGen.single hst
    · rename_i hs
      rw [next, if_neg hs] at hst
      exact (ih s).head hst
  | call c chk k ih =>
    have hst := Step.call (A := A) c chk k s (ρ s.log c) (hρ s.log c)
    simp only [follow]
    split
    · rename_i hs
      rw [next, if_pos hs] at hst
      exact Relation.ReflTransGen.single hst
    · rename_i hs
      rw [next, if_neg hs] at hst
      exact (ih _ _).head hst

/-- Every reply in the log was possible when it was given. -/
def Allowed (A : List (C × R) → C → R → Prop) : List (C × R) → Prop
  | [] => True
  | (c, r) :: l => A l c r ∧ Allowed A l

end Shell

end InstallKit
