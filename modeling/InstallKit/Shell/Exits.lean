import InstallKit.Shell.Returns

/-!
# How scripts refuse, and when they come through

* `Script.Exits` : the messages with which a script itself can leave;
* `Refuses` : some run leaves with a message of a given kind.  `refuses_bind` reduces the refusals
  of a sequence to those of its parts, so that a preflight can be compared with the checks made
  after it;
* `Script.Checks` : the commands at which `set -e` can end a script.  Where they always succeed,
  `set -e` makes no difference (`reach_unchecked_iff`).
* `exists_returns_of_not_refuses` : a script that never leaves has a run that comes to its end.
-/

namespace InstallKit

namespace Shell

variable {V C R α β : Type}

namespace Script

/-- Every `exit` of the script itself, whatever the replies, has a message that satisfies `M`. -/
def Exits (M : String → Prop) : Script V C R α → Prop
  | ret _ => True
  | exit _ m => M m
  | assign _ p => p.Exits M
  | status _ _ p => p.Exits M
  | call _ _ k => ∀ r, (k r).Exits M

section Exits

variable {M : String → Prop}

@[simp] theorem exits_ret {a : α} : (ret a : Script V C R α).Exits M := trivial

@[simp] theorem exits_exit {n : ℕ} {m : String} :
    (exit n m : Script V C R α).Exits M ↔ M m := Iff.rfl

@[simp] theorem exits_assign {f : V → V} {p : Script V C R α} :
    (assign f p).Exits M ↔ p.Exits M := Iff.rfl

@[simp] theorem exits_status {n : ℕ} {chk : Bool} {p : Script V C R α} :
    (status n chk p).Exits M ↔ p.Exits M := Iff.rfl

@[simp] theorem exits_call {c : C} {chk : Bool} {k : R → Script V C R α} :
    (call c chk k).Exits M ↔ ∀ r, (k r).Exits M := Iff.rfl

@[simp] theorem exits_cmd {c : C} : (cmd c : Script V C R R).Exits M := fun _ => trivial

@[simp] theorem exits_attempt {c : C} : (attempt c : Script V C R R).Exits M := fun _ => trivial

@[simp] theorem exits_setVar {f : V → V} : (setVar f : Script V C R Unit).Exits M := trivial

@[simp] theorem exits_yields {n : ℕ} : (yields n : Script V C R ℕ).Exits M := trivial

@[simp] theorem exits_bind {p : Script V C R α} {f : α → Script V C R β} :
    (p >>= f).Exits M ↔ p.Exits M ∧ ∀ a, p.Gives a → (f a).Exits M := by
  induction p with
  | ret b => simp [Gives]
  | exit n m => simp [Gives]
  | assign g p ih => simpa [Exits, Gives] using ih
  | status n chk p ih => simpa [Exits, Gives] using ih
  | call c chk k ih =>
    simp only [call_bind, Exits, Gives, ih]
    constructor
    · intro h
      exact ⟨fun r => (h r).1, fun a ha => ha.elim fun r hr => (h r).2 a hr⟩
    · rintro ⟨h, h'⟩ r
      exact ⟨h r, fun a ha => h' a ⟨r, ha⟩⟩

@[simp] theorem exits_ite {c : Prop} [Decidable c] {p q : Script V C R α} :
    (if c then p else q).Exits M ↔ if c then p.Exits M else q.Exits M := by
  split <;> rfl

theorem Exits.mono {M' : String → Prop} {p : Script V C R α} (h : p.Exits M)
    (hM : ∀ m, M m → M' m) : p.Exits M' := by
  induction p with
  | ret a => trivial
  | exit n m => exact hM m h
  | assign g p ih => exact ih h
  | status n chk p ih => exact ih h
  | call c chk k ih => exact fun r => ih r (h r)

@[simp] theorem exits_unchecked {p : Script V C R α} : p.unchecked.Exits M ↔ p.Exits M := by
  induction p with
  | ret a => exact Iff.rfl
  | exit n m => exact Iff.rfl
  | assign g p ih => exact ih
  | status n chk p ih => exact ih
  | call c chk k ih => exact forall_congr' ih

end Exits

/-- Every `exit` of the script itself, whatever the replies, has a status other than zero. -/
def Fails : Script V C R α → Prop
  | ret _ => True
  | exit n _ => n ≠ 0
  | assign _ p => p.Fails
  | status _ _ p => p.Fails
  | call _ _ k => ∀ r, (k r).Fails

section Fails

@[simp] theorem fails_ret {a : α} : (ret a : Script V C R α).Fails := trivial

@[simp] theorem fails_exit {n : ℕ} {m : String} :
    (exit n m : Script V C R α).Fails ↔ n ≠ 0 := Iff.rfl

@[simp] theorem fails_assign {f : V → V} {p : Script V C R α} :
    (assign f p).Fails ↔ p.Fails := Iff.rfl

@[simp] theorem fails_status {n : ℕ} {chk : Bool} {p : Script V C R α} :
    (status n chk p).Fails ↔ p.Fails := Iff.rfl

@[simp] theorem fails_call {c : C} {chk : Bool} {k : R → Script V C R α} :
    (call c chk k).Fails ↔ ∀ r, (k r).Fails := Iff.rfl

@[simp] theorem fails_bind {p : Script V C R α} {f : α → Script V C R β} :
    (p >>= f).Fails ↔ p.Fails ∧ ∀ a, p.Gives a → (f a).Fails := by
  induction p with
  | ret b => simp [Gives]
  | exit n m => simp [Gives]
  | assign g p ih => simpa [Fails, Gives] using ih
  | status n chk p ih => simpa [Fails, Gives] using ih
  | call c chk k ih =>
    simp only [call_bind, Fails, Gives, ih]
    constructor
    · intro h
      exact ⟨fun r => (h r).1, fun a ha => ha.elim fun r hr => (h r).2 a hr⟩
    · rintro ⟨h, h'⟩ r
      exact ⟨h r, fun a ha => h' a ⟨r, ha⟩⟩

@[simp] theorem fails_ite {c : Prop} [Decidable c] {p q : Script V C R α} :
    (if c then p else q).Fails ↔ if c then p.Fails else q.Fails := by
  split <;> rfl

@[simp] theorem fails_cmd {c : C} : (cmd c : Script V C R R).Fails := fun _ => trivial

@[simp] theorem fails_attempt {c : C} : (attempt c : Script V C R R).Fails := fun _ => trivial

@[simp] theorem fails_setVar {f : V → V} : (setVar f : Script V C R Unit).Fails := trivial

@[simp] theorem fails_yields {n : ℕ} : (yields n : Script V C R ℕ).Fails := trivial

end Fails

/-- `set -e` can end the script only at a command that satisfies `P`. -/
def Checks (P : C → Prop) : Script V C R α → Prop
  | ret _ => True
  | exit _ _ => True
  | assign _ p => p.Checks P
  | status n chk p => (chk = true → n = 0) ∧ p.Checks P
  | call c chk k => (chk = true → P c) ∧ ∀ r, (k r).Checks P

section Checks

variable {P : C → Prop}

@[simp] theorem checks_ret {a : α} : (ret a : Script V C R α).Checks P := trivial

@[simp] theorem checks_exit {n : ℕ} {m : String} : (exit n m : Script V C R α).Checks P := trivial

@[simp] theorem checks_assign {f : V → V} {p : Script V C R α} :
    (assign f p).Checks P ↔ p.Checks P := Iff.rfl

@[simp] theorem checks_status {n : ℕ} {chk : Bool} {p : Script V C R α} :
    (status n chk p).Checks P ↔ (chk = true → n = 0) ∧ p.Checks P := Iff.rfl

@[simp] theorem checks_call {c : C} {chk : Bool} {k : R → Script V C R α} :
    (call c chk k).Checks P ↔ (chk = true → P c) ∧ ∀ r, (k r).Checks P := Iff.rfl

@[simp] theorem checks_cmd {c : C} : (cmd c : Script V C R R).Checks P ↔ P c := by
  simp [cmd]

@[simp] theorem checks_attempt {c : C} : (attempt c : Script V C R R).Checks P := by
  simp [attempt]

@[simp] theorem checks_setVar {f : V → V} : (setVar f : Script V C R Unit).Checks P := trivial

@[simp] theorem checks_bind {p : Script V C R α} {f : α → Script V C R β} :
    (p >>= f).Checks P ↔ p.Checks P ∧ ∀ a, p.Gives a → (f a).Checks P := by
  induction p with
  | ret b => simp [Gives]
  | exit n m => simp [Gives]
  | assign g p ih => simpa [Checks, Gives] using ih
  | status n chk p ih => simp [Checks, Gives, ih, and_assoc]
  | call c chk k ih =>
    simp only [call_bind, Checks, Gives, ih]
    constructor
    · rintro ⟨hc, h⟩
      exact ⟨⟨hc, fun r => (h r).1⟩, fun a ha => ha.elim fun r hr => (h r).2 a hr⟩
    · rintro ⟨⟨hc, h⟩, h'⟩
      exact ⟨hc, fun r => ⟨h r, fun a ha => h' a ⟨r, ha⟩⟩⟩

@[simp] theorem checks_ite {c : Prop} [Decidable c] {p q : Script V C R α} :
    (if c then p else q).Checks P ↔ if c then p.Checks P else q.Checks P := by
  split <;> rfl

@[simp] theorem checks_unchecked {p : Script V C R α} : p.unchecked.Checks P := by
  induction p with
  | ret a => trivial
  | exit n m => trivial
  | assign g p ih => exact ih
  | status n chk p ih => exact ⟨fun h => (by cases h), ih⟩
  | call c chk k ih => exact ⟨fun h => (by cases h), ih⟩

end Checks

end Script

variable [ExitStatus R] {A : List (C × R) → C → R → Prop}

/-- Where the commands under `set -e` succeed anyway, it makes no difference that a function is
called as a condition. -/
theorem reach_unchecked_iff {P : C → Prop} {p : Script V C R α} (hp : p.Checks P)
    (hP : ∀ l c r, P c → A l c r → ExitStatus.status r = 0) {o : Script V C R α}
    {out : Script.Outcome α} (ho : o.outcome? = some out) {s t : St V C R} :
    Reach A (p.unchecked, s) (o, t) ↔ Reach A (p, s) (o, t) := by
  induction p generalizing s with
  | ret a => exact Iff.rfl
  | exit n m => exact Iff.rfl
  | assign g p ih =>
    constructor
    · intro h
      rcases h.assign_cases with hx | h
      · cases hx; cases ho
      · exact ((ih hp).1 h).assign
    · intro h
      rcases h.assign_cases with hx | h
      · cases hx; cases ho
      · exact ((ih hp).2 h).assign
  | status n chk p ih =>
    have hst : stops s chk n = false := by
      cases chk with
      | false => rfl
      | true => rw [hp.1 rfl, stops_zero]
    have hnext : next s chk n p = (p, s) := by simp [next, hst]
    constructor
    · intro h
      rcases h.status_cases with hx | h
      · cases hx; cases ho
      · exact ((ih hp.2).1 h).status hst
    · intro h
      rcases h.status_cases with hx | h
      · cases hx; cases ho
      · exact ((ih hp.2).2 (hnext ▸ h)).status rfl
  | call c chk k ih =>
    -- a checked command succeeds, so nothing stops here
    have hst : ∀ r, A s.log c r → stops (s.push c r) chk (ExitStatus.status r) = false := by
      intro r hA
      cases chk with
      | false => rfl
      | true => rw [hP _ _ _ (hp.1 rfl) hA, stops_zero]
    constructor
    · intro h
      rcases h.call_cases with hx | ⟨r, hA, h⟩
      · cases hx; cases ho
      · exact Reach.call r hA (hst r hA) ((ih r (hp.2 r)).1 h)
    · intro h
      rcases h.call_cases with hx | ⟨r, hA, h⟩
      · cases hx; cases ho
      · have hnext : next (s.push c r) chk (ExitStatus.status r) (k r) = (k r, s.push c r) := by
          simp [next, hst r hA]
        exact Reach.call r hA rfl ((ih r (hp.2 r)).2 (hnext ▸ h))

/-- `set -e` does not end a script with status zero, either. -/
theorem Script.Fails.ne_zero {p : Script V C R α} (hp : p.Fails) {s t : St V C R} {n : ℕ}
    {m : String} (h : Reach A (p, s) (.exit n m, t)) : n ≠ 0 := by
  have hnext : ∀ (chk : Bool) (n' : ℕ) (q : Script V C R α) (s' : St V C R),
      (Reach A (q, s') (.exit n m, t) → n ≠ 0) →
        Reach A (next s' chk n' q) (.exit n m, t) → n ≠ 0 := by
    intro chk n' q s' hq h
    unfold next at h
    split at h
    · next hst =>
      cases Reach.eq_of_outcome? rfl h
      simpa using (Bool.and_eq_true_iff.1 hst).2
    · exact hq h
  induction p generalizing s with
  | ret a => cases Reach.eq_of_outcome? rfl h
  | exit n' m' =>
    cases Reach.eq_of_outcome? rfl h
    exact hp
  | assign g p ih =>
    rcases h.assign_cases with hx | h
    · cases hx
    · exact ih hp h
  | status n' chk p ih =>
    rcases h.status_cases with hx | h
    · cases hx
    · exact hnext chk n' p s (ih hp) h
  | call c chk k ih =>
    rcases h.call_cases with hx | ⟨r, -, h⟩
    · cases hx
    · exact hnext chk _ (k r) (s.push c r) (ih r (hp r)) h

/-! ### Refusals -/

/-- Some run of `p` from `s` leaves with a message that satisfies `M`. -/
def Refuses (A : List (C × R) → C → R → Prop) (M : String → Prop) (p : Script V C R α)
    (s : St V C R) : Prop :=
  ∃ n m t, Reach A (p, s) (.exit n m, t) ∧ M m

section Refuses

variable {M : String → Prop} {s : St V C R}

@[simp] theorem refuses_ret {a : α} : ¬ Refuses A M (.ret a : Script V C R α) s := by
  rintro ⟨n, m, t, h, -⟩
  cases Reach.eq_of_outcome? rfl h

@[simp] theorem refuses_exit {n : ℕ} {m : String} :
    Refuses A M (.exit n m : Script V C R α) s ↔ M m := by
  constructor
  · rintro ⟨n', m', t, h, hm⟩
    cases Reach.eq_of_outcome? rfl h
    exact hm
  · intro hm
    exact ⟨n, m, s, Reach.refl _, hm⟩

/-- **Sequencing**: a sequence refuses in its first part, or in its second one after the first has
returned. -/
theorem refuses_bind {p : Script V C R β} {f : β → Script V C R α} :
    Refuses A M (p >>= f) s ↔
      Refuses A M p s ∨ ∃ b t, Returns A p s b t ∧ Refuses A M (f b) t := by
  constructor
  · rintro ⟨n, m, t, h, hm⟩
    rcases h.bind_cases with ⟨q, t', hq, hx⟩ | ⟨b, t', hb, h⟩
    · cases q with
      | ret b =>
        obtain ⟨hx, rfl⟩ := Prod.mk.inj hx
        exact Or.inr ⟨b, t, hq, n, m, t, by rw [hx]; exact Reach.refl _, hm⟩
      | exit n' m' => cases hx; exact Or.inl ⟨_, _, _, hq, hm⟩
      | assign g q => cases hx
      | status n chk q => cases hx
      | call c chk k => cases hx
    · exact Or.inr ⟨b, t', hb, n, m, t, h, hm⟩
  · rintro (⟨n, m, t, h, hm⟩ | ⟨b, t, hb, n, m, t', h, hm⟩)
    · exact ⟨n, m, t, h.bind f, hm⟩
    · exact ⟨n, m, t', (Reach.bind_ret hb f).trans h, hm⟩

/-- What a script has left to run exits with messages of the script, or with none under
`set -e`. -/
theorem Script.Exits.not_refuses {p : Script V C R α} (hp : p.Exits fun m => ¬ M m)
    (hM : ¬ M "") : ¬ Refuses A M p s := by
  -- the status nodes and the commands may stop the script without a message
  have hnext : ∀ (chk : Bool) (n : ℕ) (q : Script V C R α) (t : St V C R),
      ¬ Refuses A M q t → ∀ n' m t', Reach A (next t chk n q) (.exit n' m, t') → ¬ M m := by
    intro chk n q t hq n' m t' h hm
    unfold next at h
    split at h
    · cases Reach.eq_of_outcome? rfl h
      exact hM hm
    · exact hq ⟨n', m, t', h, hm⟩
  induction p generalizing s with
  | ret a => exact refuses_ret
  | exit n m => exact fun h => hp (refuses_exit.1 h)
  | assign g p ih =>
    rintro ⟨n, m, t, h, hm⟩
    rcases h.assign_cases with hx | h
    · cases hx
    · exact ih hp ⟨n, m, t, h, hm⟩
  | status n chk p ih =>
    rintro ⟨n', m, t, h, hm⟩
    rcases h.status_cases with hx | h
    · cases hx
    · exact hnext chk n p s (ih hp) n' m t h hm
  | call c chk k ih =>
    rintro ⟨n', m, t, h, hm⟩
    rcases h.call_cases with hx | ⟨r, -, h⟩
    · cases hx
    · exact hnext chk _ (k r) (s.push c r) (ih r (hp r)) n' m t h hm

/-- The same where `set -e` never ends the script. -/
theorem Script.Exits.not_refuses_of_checks {P : C → Prop} {p : Script V C R α}
    (hp : p.Exits fun m => ¬ M m) (hc : p.Checks P)
    (hP : ∀ l c r, P c → A l c r → ExitStatus.status r = 0) : ¬ Refuses A M p s := by
  induction p generalizing s with
  | ret a => exact refuses_ret
  | exit n m => exact fun h => hp (refuses_exit.1 h)
  | assign g p ih =>
    rintro ⟨n, m, t, h, hm⟩
    rcases h.assign_cases with hx | h
    · cases hx
    · exact ih hp hc ⟨n, m, t, h, hm⟩
  | status n chk p ih =>
    rintro ⟨n', m, t, h, hm⟩
    rcases h.status_cases with hx | h
    · cases hx
    · have hst : stops s chk n = false := by
        cases chk with
        | false => rfl
        | true => rw [hc.1 rfl, stops_zero]
      rw [next, hst] at h
      exact ih hp hc.2 ⟨n', m, t, h, hm⟩
  | call c chk k ih =>
    rintro ⟨n', m, t, h, hm⟩
    rcases h.call_cases with hx | ⟨r, hA, h⟩
    · cases hx
    · have hst : stops (s.push c r) chk (ExitStatus.status r) = false := by
        cases chk with
        | false => rfl
        | true => rw [hP _ _ _ (hc.1 rfl) hA, stops_zero]
      rw [next, hst] at h
      exact ih r (hp r) (hc.2 r) ⟨n', m, t, h, hm⟩

/-- A script that never leaves has a run that comes to its end. -/
theorem exists_returns_of_not_refuses {p : Script V C R α} (hA : ∀ l c, ∃ r, A l c r)
    (hp : ¬ Refuses A (fun _ => True) p s) : ∃ a t, Returns A p s a t := by
  induction p generalizing s with
  | ret a => exact ⟨a, s, returns_ret.2 ⟨rfl, rfl⟩⟩
  | exit n m => exact absurd (refuses_exit.2 trivial) hp
  | assign g p ih =>
    have hrest : ¬ Refuses A (fun _ => True) p (s.upd g) := by
      rintro ⟨n, m, t, h, hm⟩
      exact hp ⟨n, m, t, h.assign, hm⟩
    obtain ⟨a, t, h⟩ := ih hrest
    exact ⟨a, t, returns_assign.2 h⟩
  | status n chk p ih =>
    cases hst : stops s chk n with
    | true =>
      -- `errexit` would end the script with no message
      have hstep : Reach A (.status n chk p, s) (next s chk n p) :=
        Relation.ReflTransGen.single (.status n chk p s)
      rw [next, hst] at hstep
      exact absurd ⟨_, _, _, hstep, trivial⟩ hp
    | false =>
      have hrest : ¬ Refuses A (fun _ => True) p s := by
        rintro ⟨n, m, t, h, hm⟩
        exact hp ⟨n, m, t, h.status hst, hm⟩
      obtain ⟨a, t, h⟩ := ih hrest
      exact ⟨a, t, returns_status.2 ⟨hst, h⟩⟩
  | call c chk k ih =>
    -- some reply is there, and with a failing one it would end too
    obtain ⟨r, hr⟩ := hA s.log c
    cases hst : stops (s.push c r) chk (ExitStatus.status r) with
    | true =>
      have hstep : Reach A (.call c chk k, s)
          (next (s.push c r) chk (ExitStatus.status r) (k r)) :=
        Relation.ReflTransGen.single (.call c chk k s r hr)
      rw [next, hst] at hstep
      exact absurd ⟨_, _, _, hstep, trivial⟩ hp
    | false =>
      have hrest : ¬ Refuses A (fun _ => True) (k r) (s.push c r) := by
        rintro ⟨n, m, t, h, hm⟩
        exact hp ⟨n, m, t, Reach.call r hr hst h, hm⟩
      obtain ⟨a, t, h⟩ := ih r hrest
      exact ⟨a, t, returns_call.2 ⟨r, hr, hst, h⟩⟩

/-- A first part that neither refuses nor gets stuck hands every refusal to what follows. -/
theorem refuses_then_iff {p : Script V C R β} {f : β → Script V C R α} {Q : Prop}
    (hp : ¬ Refuses A M p s) (hex : ∃ b t, Returns A p s b t)
    (hf : ∀ b t, Returns A p s b t → (Refuses A M (f b) t ↔ Q)) :
    Refuses A M (p >>= f) s ↔ Q := by
  rw [refuses_bind]
  constructor
  · rintro (h | ⟨b, t, hb, h⟩)
    · exact absurd h hp
    · exact (hf b t hb).1 h
  · intro hq
    obtain ⟨b, t, hb⟩ := hex
    exact Or.inr ⟨b, t, hb, (hf b t hb).2 hq⟩

end Refuses

end Shell

end InstallKit
