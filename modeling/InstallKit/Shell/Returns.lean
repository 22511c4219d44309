import InstallKit.Shell.Run

/-!
# Runs that return

`Returns A p s a s'` says that some run of `p` from `s` comes to its end (neither `exit` nor
`set -e` cut it short) with the value `a` in the state `s'`.  It unfolds along the script:
`returns_bind`, `returns_call`, ...

When the replies do not depend on the history, the state is irrelevant: `May A p a` says which
values are possible and `Trace A p a l` also which commands are run on the way; `may_iff` and
`trace_iff` connect them to `Returns`.
-/

namespace InstallKit

namespace Shell

variable {V C R α β : Type} [ExitStatus R] {A : List (C × R) → C → R → Prop}

/-- Some run of `p` from `s` returns `a` in the state `s'`. -/
def Returns (A : List (C × R) → C → R → Prop) (p : Script V C R α) (s : St V C R) (a : α)
    (s' : St V C R) : Prop :=
  Reach A (p, s) (.ret a, s')

@[simp] theorem returns_ret {a b : α} {s s' : St V C R} :
    Returns A (.ret a) s b s' ↔ b = a ∧ s' = s := by
  constructor
  · intro h
    have hx := Reach.eq_of_outcome? rfl h
    simp only [Prod.mk.injEq, Script.ret.injEq] at hx
    exact hx
  · rintro ⟨rfl, rfl⟩
    exact Reach.refl _

@[simp] theorem returns_exit {n : ℕ} {m : String} {a : α} {s s' : St V C R} :
    ¬ Returns A (.exit n m) s a s' := by
  intro h
  have hx := Reach.eq_of_outcome? rfl h
  simp at hx

@[simp] theorem returns_assign {f : V → V} {p : Script V C R α} {a : α} {s s' : St V C R} :
    Returns A (.assign f p) s a s' ↔ Returns A p (s.upd f) a s' := by
  refine ⟨fun h => ?_, Reach.assign⟩
  rcases h.assign_cases with hx | h
  · simp at hx
  · exact h

/-- What follows a status returns iff the status does not stop the script. -/
theorem returns_next {chk : Bool} {n : ℕ} {p : Script V C R α} {a : α} {s s' : St V C R} :
    Reach A (next s chk n p) (.ret a, s') ↔ stops s chk n = false ∧ Returns A p s a s' := by
  unfold next
  split
  · rename_i hs
    simp only [hs, Bool.true_eq_false, false_and, iff_false]
    exact returns_exit
  · rename_i hs
    simp only [hs, true_and]
    exact Iff.rfl

@[simp] theorem returns_status {n : ℕ} {chk : Bool} {p : Script V C R α} {a : α}
    {s s' : St V C R} :
    Returns A (.status n chk p) s a s' ↔ stops s chk n = false ∧ Returns A p s a s' := by
  refine ⟨fun h => ?_, fun h => h.2.status h.1⟩
  rcases h.status_cases with hx | h
  · simp at hx
  · exact returns_next.1 h

@[simp] theorem returns_call {c : C} {chk : Bool} {k : R → Script V C R α} {a : α}
    {s s' : St V C R} :
    Returns A (.call c chk k) s a s' ↔ ∃ r, A s.log c r ∧
      stops (s.push c r) chk (ExitStatus.status r) = false ∧ Returns A (k r) (s.push c r) a s' := by
  constructor
  · intro h
    rcases h.call_cases with hx | ⟨r, hA, h⟩
    · simp at hx
    · exact ⟨r, hA, returns_next.1 h⟩
  · rintro ⟨r, hA, hr, h⟩
    exact Reach.call r hA hr h

/-- **Sequencing**: the whole returns iff its parts do, one after the other. -/
theorem returns_bind {p : Script V C R β} {f : β → Script V C R α} {a : α} {s s' : St V C R} :
    Returns A (p >>= f) s a s' ↔ ∃ b t, Returns A p s b t ∧ Returns A (f b) t a s' := by
  induction p generalizing s with
  | ret b =>
    simp only [Script.ret_bind, returns_ret]
    constructor
    · intro h; exact ⟨b, s, ⟨rfl, rfl⟩, h⟩
    · rintro ⟨_, _, ⟨rfl, rfl⟩, h⟩; exact h
  | exit n m => simp
  | assign g p ih => simp only [Script.assign_bind, returns_assign, ih]
  | status n chk p ih =>
    simp only [Script.status_bind, returns_status, ih]
    constructor
    · rintro ⟨hn, b, t, hp, hf⟩; exact ⟨b, t, ⟨hn, hp⟩, hf⟩
    · rintro ⟨b, t, ⟨hn, hp⟩, hf⟩; exact ⟨hn, b, t, hp, hf⟩
  | call c chk k ih =>
    simp only [Script.call_bind, returns_call, ih]
    constructor
    · rintro ⟨r, hA, hr, b, t, hp, hf⟩
      exact ⟨b, t, ⟨r, hA, hr, hp⟩, hf⟩
    · rintro ⟨b, t, ⟨r, hA, hr, hp⟩, hf⟩
      exact ⟨r, hA, hr, b, t, hp, hf⟩

/-- A boundary of a sequence lies in its first part, or in the second one after the first has
returned. -/
theorem Reach.bind_cases {p : Script V C R β} {f : β → Script V C R α} {s : St V C R}
    {x : Config V C R α} (h : Reach A (p >>= f, s) x) :
    (∃ q t, Reach A (p, s) (q, t) ∧ x = (q >>= f, t)) ∨
      ∃ b t, Returns A p s b t ∧ Reach A (f b, t) x := by
  induction p generalizing s with
  | ret b => exact Or.inr ⟨b, s, Reach.refl _, h⟩
  | exit n m => exact Or.inl ⟨_, _, Reach.refl _, Reach.eq_of_outcome? rfl h⟩
  | assign g p ih =>
    rcases h.assign_cases with rfl | h
    · exact Or.inl ⟨_, _, Reach.refl _, rfl⟩
    · rcases ih h with ⟨q, t, hq, rfl⟩ | ⟨b, t, hb, h⟩
      · exact Or.inl ⟨q, t, hq.assign, rfl⟩
      · exact Or.inr ⟨b, t, returns_assign.2 hb, h⟩
  | status n chk p ih =>
    rcases h.status_cases with rfl | h
    · exact Or.inl ⟨_, _, Reach.refl _, rfl⟩
    · have hst : Reach A (.status n chk p, s) (next s chk n p) :=
        Relation.ReflTransGen.single (.status n chk p s)
      -- `errexit` ends the first script, or it goes on
      unfold next at h hst
      split at h
      · rename_i hs
        rw [if_pos hs] at hst
        exact Or.inl ⟨_, _, hst, Reach.eq_of_outcome? rfl h⟩
      · rename_i hs
        rw [if_neg hs] at hst
        rcases ih h with ⟨q, t, hq, rfl⟩ | ⟨b, t, hb, h⟩
        · exact Or.inl ⟨q, t, hst.trans hq, rfl⟩
        · exact Or.inr ⟨b, t, hst.trans hb, h⟩
  | call c chk k ih =>
    rcases h.call_cases with rfl | ⟨r, hA, h⟩
    · exact Or.inl ⟨_, _, Reach.refl _, rfl⟩
    · have hst : Reach A (.call c chk k, s) (next (s.push c r) chk (ExitStatus.status r) (k r)) :=
        Relation.ReflTransGen.single (.call c chk k s r hA)
      unfold next at h hst
      split at h
      · rename_i hs
        rw [if_pos hs] at hst
        exact Or.inl ⟨_, _, hst, Reach.eq_of_outcome? rfl h⟩
      · rename_i hs
        rw [if_neg hs] at hst
        rcases ih r h with ⟨q, t, hq, rfl⟩ | ⟨b, t, hb, h⟩
        · exact Or.inl ⟨q, t, hst.trans hq, rfl⟩
        · exact Or.inr ⟨b, t, hst.trans hb, h⟩

/-- Whether `set -e` is in force does not change. -/
theorem Returns.errexit {p : Script V C R α} {a : α} {s s' : St V C R}
    (h : Returns A p s a s') : s'.errexit = s.errexit := by
  induction p generalizing s with
  | ret b => simp only [returns_ret] at h; rw [h.2]
  | exit n m => exact (returns_exit h).elim
  | assign g p ih => simpa using ih (returns_assign.1 h)
  | status n chk p ih => exact ih (returns_status.1 h).2
  | call c chk k ih =>
    obtain ⟨r, -, -, h⟩ := returns_call.1 h
    simpa using ih r h

/-- What a run returns is one of the values that the script can give. -/
theorem Returns.gives {p : Script V C R α} {a : α} {s s' : St V C R}
    (h : Returns A p s a s') : p.Gives a := by
  induction p generalizing s with
  | ret b => exact (returns_ret.1 h).1
  | exit n m => exact (returns_exit h).elim
  | assign g p ih => exact ih (returns_assign.1 h)
  | status n chk p ih => exact ih (returns_status.1 h).2
  | call c chk k ih =>
    obtain ⟨r, -, -, h⟩ := returns_call.1 h
    exact ⟨r, ih r h⟩

/-- Without `set -e`, a script that does not exit comes to its end. -/
theorem exists_returns {p : Script V C R α} {s : St V C R} (hp : p.NoExit)
    (hs : s.errexit = false) (hA : ∀ l c, ∃ r, A l c r) : ∃ a t, Returns A p s a t := by
  induction p generalizing s with
  | ret a => exact ⟨a, s, returns_ret.2 ⟨rfl, rfl⟩⟩
  | exit n m => exact hp.elim
  | assign g p ih =>
    obtain ⟨a, t, h⟩ := ih (s := s.upd g) hp hs
    exact ⟨a, t, returns_assign.2 h⟩
  | status n chk p ih =>
    obtain ⟨a, t, h⟩ := ih hp hs
    exact ⟨a, t, returns_status.2 ⟨by simp [stops, hs], h⟩⟩
  | call c chk k ih =>
    obtain ⟨r, hr⟩ := hA s.log c
    obtain ⟨a, t, h⟩ := ih r (s := s.push c r) (hp r) hs
    exact ⟨a, t, returns_call.2 ⟨r, hr, by simp [stops, hs], h⟩⟩

/-- The log only grows. -/
theorem Returns.log_suffix {p : Script V C R α} {a : α} {s s' : St V C R}
    (h : Returns A p s a s') : s.log <:+ s'.log := Reach.log_suffix h

/-- A property of the log that every command of the script keeps holds at the end. -/
theorem Returns.log {P : C → Prop} {J : List (C × R) → Prop} {p : Script V C R α} {a : α}
    {s s' : St V C R} (h : Returns A p s a s') (hp : p.Calls P)
    (hJ : ∀ l c r, P c → A l c r → J l → J ((c, r) :: l)) (hs : J s.log) : J s'.log :=
  post_of_wp (wp_of_calls hp hJ hs) h rfl

/-- An executed script that has come to its end has returned. -/
theorem returns_follow {ρ : List (C × R) → C → R} (hρ : ∀ l c, A l c (ρ l c))
    {p : Script V C R α} {s : St V C R} {a : α}
    (h : (follow ρ p s).1.outcome? = some (.ret a)) : Returns A p s a (follow ρ p s).2 := by
  rw [Returns, ← Script.eq_ret_of_outcome? h]
  exact reach_follow hρ p s

/-! ### Invariants of all boundaries -/

/-- Every boundary that the script can reach from `s` satisfies `I`. -/
def Always (A : List (C × R) → C → R → Prop) (I : St V C R → Prop) (p : Script V C R α)
    (s : St V C R) : Prop :=
  ∀ q s', Reach A (p, s) (q, s') → I s'

theorem always_iff_wp {I : St V C R → Prop} {p : Script V C R α} {s : St V C R} :
    Always A I p s ↔ wp A I p (fun _ _ => True) s := by
  rw [wp_iff]
  exact forall₃_congr fun _ _ _ => ⟨fun h => ⟨h, fun _ _ => trivial⟩, fun h => h.1⟩

theorem always_ret {I : St V C R → Prop} {a : α} {s : St V C R} (h : I s) :
    Always A I (.ret a) s := always_iff_wp.2 ⟨h, trivial⟩

theorem always_attempt {I : St V C R → Prop} {c : C} {k : R → Script V C R α} {s : St V C R}
    (h : I s) (hk : ∀ r, A s.log c r → Always A I (k r) (s.push c r)) :
    Always A I (.call c false k) s :=
  always_iff_wp.2 (wp_attempt.2 ⟨h, fun r hA => always_iff_wp.1 (hk r hA)⟩)

/-- **Sequencing**: the second part starts where the first one returned. -/
theorem Always.bind {I : St V C R → Prop} {p : Script V C R β} {f : β → Script V C R α}
    {s : St V C R} (hp : Always A I p s)
    (hf : ∀ b t, Returns A p s b t → Always A I (f b) t) : Always A I (p >>= f) s := by
  rw [always_iff_wp, wp_bind, wp_iff]
  intro q t hq
  refine ⟨hp q t hq, fun o ho => ?_⟩
  cases o with
  | exit n m => trivial
  | ret b =>
    cases q with
    | ret b' =>
      cases ho
      exact always_iff_wp.1 (hf b t hq)
    | exit n m => cases ho
    | assign g p => cases ho
    | status n chk p => cases ho
    | call c chk k => cases ho

theorem always_of_calls {P : C → Prop} {J : List (C × R) → Prop} {p : Script V C R α}
    {s : St V C R} (hp : p.Calls P) (hJ : ∀ l c r, P c → A l c r → J l → J ((c, r) :: l))
    (hs : J s.log) : Always A (fun s => J s.log) p s :=
  always_iff_wp.2 (wp_mono (fun _ h => h) (fun _ _ _ => trivial) (wp_of_calls hp hJ hs))

/-- An invariant of variables and log that every command and every assignment keeps. -/
theorem always_of_nodes {P : C → Prop} {Q : (V → V) → Prop} {J : V → List (C × R) → Prop}
    {p : Script V C R α} {s : St V C R} (hp : p.Calls P) (hq : p.Assigns Q)
    (hcall : ∀ v l c r, P c → A l c r → J v l → J v ((c, r) :: l))
    (hassign : ∀ v l f, Q f → J v l → J (f v) l) (hs : J s.vars s.log) :
    Always A (fun s => J s.vars s.log) p s := by
  rw [always_iff_wp]
  induction p generalizing s with
  | ret a => exact ⟨hs, trivial⟩
  | exit n m => exact ⟨hs, trivial⟩
  | assign f p ih => exact ⟨hs, ih hp hq.2 (hassign _ _ _ hq.1 hs)⟩
  | status n chk p ih =>
    refine ⟨hs, ?_⟩
    split
    · trivial
    · exact ih hp hq hs
  | call c chk k ih =>
    refine ⟨hs, fun r hA => ?_⟩
    have hs' := hcall _ _ _ _ hp.1 hA hs
    refine ⟨hs', ?_⟩
    split
    · trivial
    · exact ih r (hp.2 r) (hq r) hs'

/-- Where a script returns, what holds at every boundary holds. -/
theorem Always.returns {I : St V C R → Prop} {p : Script V C R α} {s t : St V C R} {a : α}
    (h : Always A I p s) (hr : Returns A p s a t) : I t := h _ _ hr

theorem Always.mono {I I' : St V C R → Prop} {p : Script V C R α} {s : St V C R}
    (h : Always A I p s) (hI : ∀ s, I s → I' s) : Always A I' p s :=
  fun q t hr => hI t (h q t hr)

/-- What holds at every boundary of the whole holds where a first part returned. -/
theorem Always.of_returns {I : St V C R → Prop} {p : Script V C R β} {f : β → Script V C R α}
    {s t : St V C R} {b : β} (h : Always A I (p >>= f) s) (hp : Returns A p s b t) :
    Always A I (f b) t :=
  fun q s' hr => h q s' ((Reach.bind_ret hp f).trans hr)

/-- `set -e` only cuts runs short. -/
theorem Always.of_unchecked {I : St V C R → Prop} {p : Script V C R α} {s : St V C R}
    (h : Always A I p.unchecked s) : Always A I p s := by
  rw [always_iff_wp] at h ⊢
  induction p generalizing s with
  | ret a => exact h
  | exit n m => exact h
  | assign g p ih => exact ⟨h.1, ih h.2⟩
  | status n chk p ih =>
    refine ⟨h.1, ?_⟩
    split
    · trivial
    · exact ih h.2
  | call c chk k ih =>
    refine ⟨h.1, fun r hA => ⟨(h.2 r hA).1, ?_⟩⟩
    split
    · trivial
    · exact ih r (h.2 r hA).2

/-- What a script has left to run are commands of the script. -/
theorem Script.Calls.reach {P : C → Prop} {p q : Script V C R α} {s t : St V C R}
    (hp : p.Calls P) (h : Reach A (p, s) (q, t)) : q.Calls P := by
  induction p generalizing s with
  | ret a => cases Reach.eq_of_outcome? rfl h; trivial
  | exit n m => cases Reach.eq_of_outcome? rfl h; trivial
  | assign g p ih =>
    rcases h.assign_cases with hx | h
    · cases hx; exact hp
    · exact ih hp h
  | status n chk p ih =>
    rcases h.status_cases with hx | h
    · cases hx; exact hp
    · unfold next at h
      split at h
      · cases Reach.eq_of_outcome? rfl h; trivial
      · exact ih hp h
  | call c chk k ih =>
    rcases h.call_cases with hx | ⟨r, -, h⟩
    · cases hx; exact hp
    · unfold next at h
      split at h
      · cases Reach.eq_of_outcome? rfl h; trivial
      · exact ih r (hp.2 r) h

/-! ### Every command that is run -/

/-- Every command that `p` runs from `s` satisfies `P` at the moment it is run. -/
def Safe (A : List (C × R) → C → R → Prop) (P : List (C × R) → C → Prop) (p : Script V C R α)
    (s : St V C R) : Prop :=
  ∀ c chk k t, Reach A (p, s) (.call c chk k, t) → P t.log c

section Safe

variable {P : List (C × R) → C → Prop} {s : St V C R}

@[simp] theorem safe_ret {a : α} : Safe A P (.ret a) s := by
  intro c chk k t h
  have hx := Reach.eq_of_outcome? rfl h
  cases hx

@[simp] theorem safe_exit {n : ℕ} {m : String} :
    Safe A P (.exit n m : Script V C R α) s := by
  intro c chk k t h
  have hx := Reach.eq_of_outcome? rfl h
  cases hx

@[simp] theorem safe_assign {f : V → V} {p : Script V C R α} :
    Safe A P (.assign f p) s ↔ Safe A P p (s.upd f) := by
  refine forall₄_congr fun c chk k t => ⟨fun h hr => h hr.assign, fun h hr => ?_⟩
  rcases hr.assign_cases with hx | hr
  · cases hx
  · exact h hr

theorem safe_attempt {c : C} {k : R → Script V C R α} :
    Safe A P (.call c false k) s ↔ P s.log c ∧ ∀ r, A s.log c r → Safe A P (k r) (s.push c r) := by
  constructor
  · intro h
    exact ⟨h _ _ _ _ (Reach.refl _), fun r hA c' chk k' t hr =>
      h c' chk k' t (Reach.call r hA rfl hr)⟩
  · rintro ⟨hc, h⟩ c' chk k' t hr
    rcases hr.call_cases with hx | ⟨r, hA, hr⟩
    · cases hx; exact hc
    · exact h r hA c' chk k' t hr

/-- Commands that are fine at any moment. -/
theorem safe_of_calls {P' : C → Prop} {p : Script V C R α} (hp : p.Calls P')
    (hP : ∀ l c, P' c → P l c) : Safe A P p s := by
  intro c chk k t h
  suffices hq : (Script.call c chk k).Calls P' from hP _ _ hq.1
  exact hp.reach h

/-- **Sequencing**: the second part starts where the first one returned. -/
theorem safe_bind {p : Script V C R β} {f : β → Script V C R α} :
    Safe A P (p >>= f) s ↔
      Safe A P p s ∧ ∀ b t, Returns A p s b t → Safe A P (f b) t := by
  constructor
  · intro h
    exact ⟨fun c chk k t hr => h c chk _ t (hr.bind f), fun b t hb c chk k t' hr =>
      h c chk k t' ((Reach.bind_ret hb f).trans hr)⟩
  · rintro ⟨hp, hf⟩ c chk k t hr
    rcases hr.bind_cases with ⟨q, t', hq, hx⟩ | ⟨b, t', hb, hr⟩
    · cases q with
      | ret b =>
        obtain ⟨hx, rfl⟩ := Prod.mk.inj hx
        exact hf b t hq c chk k t (by rw [hx]; exact Reach.refl _)
      | call c' chk' k' => cases hx; exact hp _ _ _ _ hq
      | exit n m => cases hx
      | assign g q => cases hx
      | status n chk q => cases hx
    · exact hf b t' hb c chk k t hr

end Safe

/-! ### Replies that do not depend on the history -/

/-- `p` may return `a` when `set -e` is in force and the replies are those that `A` allows. -/
def May (A : C → R → Prop) : Script V C R α → α → Prop
  | .ret b, a => a = b
  | .exit _ _, _ => False
  | .assign _ p, a => May A p a
  | .status n chk p, a => (chk && n != 0) = false ∧ May A p a
  | .call c chk k, a => ∃ r, A c r ∧ (chk && ExitStatus.status r != 0) = false ∧ May A (k r) a

/-- Where the history does not change which replies are possible to the commands of a script, it
returns what it may return. -/
theorem returns_iff_may {B : C → R → Prop} {P : C → Prop} {J : List (C × R) → Prop}
    {p : Script V C R α} {a : α} {s : St V C R} (hp : p.Calls P)
    (hA : ∀ l c r, J l → P c → (A l c r ↔ B c r)) (hJ : ∀ l c r, J l → P c → J ((c, r) :: l))
    (hs : s.errexit = true) (hl : J s.log) : (∃ s', Returns A p s a s') ↔ May B p a := by
  induction p generalizing s with
  | ret b => simp [May]
  | exit n m => simp [May]
  | assign g p ih =>
    simp only [May, returns_assign]
    exact ih (s := s.upd g) hp hs hl
  | status n chk p ih =>
    simp only [May, returns_status, stops, hs, Bool.and_true, exists_and_left]
    rw [ih hp hs hl]
  | call c chk k ih =>
    simp only [May, returns_call, stops, St.push_errexit, hs, Bool.and_true]
    rw [exists_comm]
    refine exists_congr fun r => ?_
    rw [hA _ _ _ hl hp.1, exists_and_left, exists_and_left,
      ih r (s := s.push c r) (hp.2 r) hs (hJ _ _ _ hl hp.1)]

/-- **Forgetting the state**: `May` is about the runs of the script. -/
theorem may_iff {A : C → R → Prop} {p : Script V C R α} {a : α} {s : St V C R}
    (hs : s.errexit = true) : May A p a ↔ ∃ s', Returns (fun _ => A) p s a s' := by
  refine (returns_iff_may (A := fun _ => A) (B := A) (J := fun _ => True) p.calls_true ?_ ?_ hs
    trivial).symm
  · exact fun _ _ _ _ _ => Iff.rfl
  · exact fun _ _ _ _ _ => trivial

section May

variable {A : C → R → Prop}

@[simp] theorem may_ret {a b : α} : May A (.ret b : Script V C R α) a ↔ a = b := Iff.rfl

@[simp] theorem may_exit {n : ℕ} {m : String} {a : α} :
    ¬ May A (.exit n m : Script V C R α) a := id

@[simp] theorem may_assign {f : V → V} {p : Script V C R α} {a : α} :
    May A (.assign f p) a ↔ May A p a := Iff.rfl

@[simp] theorem may_status {n : ℕ} {p : Script V C R α} {a : α} :
    May A (.status n true p) a ↔ n = 0 ∧ May A p a := by simp [May]

@[simp] theorem may_cmd {c : C} {k : R → Script V C R α} {a : α} :
    May A (.call c true k) a ↔ ∃ r, A c r ∧ ExitStatus.status r = 0 ∧ May A (k r) a := by
  simp [May]

@[simp] theorem may_attempt {c : C} {k : R → Script V C R α} {a : α} :
    May A (.call c false k) a ↔ ∃ r, A c r ∧ May A (k r) a := by simp [May]

theorem may_bind {p : Script V C R β} {f : β → Script V C R α} {a : α} :
    May A (p >>= f) a ↔ ∃ b, May A p b ∧ May A (f b) a := by
  induction p with
  | ret b => simp
  | exit n m => simp
  | assign g p ih => simp [ih]
  | status n chk p ih =>
    simp only [Script.status_bind, May, ih]
    constructor
    · rintro ⟨hn, b, hp, hf⟩; exact ⟨b, ⟨hn, hp⟩, hf⟩
    · rintro ⟨b, ⟨hn, hp⟩, hf⟩; exact ⟨hn, b, hp, hf⟩
  | call c chk k ih =>
    simp only [Script.call_bind, May, ih]
    constructor
    · rintro ⟨r, hA, hr, b, hp, hf⟩; exact ⟨b, ⟨r, hA, hr, hp⟩, hf⟩
    · rintro ⟨b, ⟨r, hA, hr, hp⟩, hf⟩; exact ⟨r, hA, hr, b, hp, hf⟩

theorem may_ite {c : Prop} [Decidable c] {p q : Script V C R α} {a : α} :
    May A (if c then p else q) a ↔ if c then May A p a else May A q a := by split <;> rfl

/-- A part that returns nothing. -/
theorem may_then {p : Script V C R Unit} {f : Unit → Script V C R α} {a : α} :
    May A (p >>= f) a ↔ May A p () ∧ May A (f ()) a := by
  rw [may_bind]
  exact ⟨fun ⟨_, h⟩ => h, fun h => ⟨(), h⟩⟩

end May

/-! ### The commands run on the way -/

/-- `p` may return `a` after the commands of `l`, newest first, under `set -e`. -/
def Trace (A : C → R → Prop) : Script V C R α → α → List (C × R) → Prop
  | .ret b, a, l => a = b ∧ l = []
  | .exit _ _, _, _ => False
  | .assign _ p, a, l => Trace A p a l
  | .status n chk p, a, l => (chk && n != 0) = false ∧ Trace A p a l
  | .call c chk k, a, l => ∃ r, A c r ∧ (chk && ExitStatus.status r != 0) = false ∧
      ∃ l', Trace A (k r) a l' ∧ l = l' ++ [(c, r)]

section Trace

variable {A : C → R → Prop} {l : List (C × R)} {a : α}

@[simp] theorem trace_ret {b : α} : Trace A (.ret b : Script V C R α) a l ↔ a = b ∧ l = [] :=
  Iff.rfl

@[simp] theorem trace_exit {n : ℕ} {m : String} :
    ¬ Trace A (.exit n m : Script V C R α) a l := id

@[simp] theorem trace_assign {f : V → V} {p : Script V C R α} :
    Trace A (.assign f p) a l ↔ Trace A p a l := Iff.rfl

@[simp] theorem trace_attempt {c : C} {k : R → Script V C R α} :
    Trace A (.call c false k) a l ↔
      ∃ r, A c r ∧ ∃ l', Trace A (k r) a l' ∧ l = l' ++ [(c, r)] := by simp [Trace]

/-- **Sequencing**: the commands of the second part come after those of the first. -/
theorem trace_bind {p : Script V C R β} {f : β → Script V C R α} :
    Trace A (p >>= f) a l ↔
      ∃ b l₁ l₂, Trace A p b l₁ ∧ Trace A (f b) a l₂ ∧ l = l₂ ++ l₁ := by
  induction p generalizing l with
  | ret b =>
    simp only [Script.ret_bind, trace_ret]
    constructor
    · intro h; exact ⟨b, [], l, ⟨rfl, rfl⟩, h, by simp⟩
    · rintro ⟨_, _, l₂, ⟨rfl, rfl⟩, h, rfl⟩; simpa using h
  | exit n m => simp
  | assign g p ih => simp [ih]
  | status n chk p ih =>
    simp only [Script.status_bind, Trace, ih]
    constructor
    · rintro ⟨hn, b, l₁, l₂, hp, hf, rfl⟩; exact ⟨b, l₁, l₂, ⟨hn, hp⟩, hf, rfl⟩
    · rintro ⟨b, l₁, l₂, ⟨hn, hp⟩, hf, rfl⟩; exact ⟨hn, b, l₁, l₂, hp, hf, rfl⟩
  | call c chk k ih =>
    simp only [Script.call_bind, Trace, ih]
    constructor
    · rintro ⟨r, hA, hr, l', ⟨b, l₁, l₂, hp, hf, rfl⟩, rfl⟩
      exact ⟨b, l₁ ++ [(c, r)], l₂, ⟨r, hA, hr, l₁, hp, rfl⟩, hf, by simp⟩
    · rintro ⟨b, _, l₂, ⟨r, hA, hr, l', hp, rfl⟩, hf, rfl⟩
      exact ⟨r, hA, hr, l₂ ++ l', ⟨b, l', l₂, hp, hf, rfl⟩, by simp⟩

/-- A trace is what a run adds to the log. -/
theorem trace_iff {p : Script V C R α} {s : St V C R} (hs : s.errexit = true) :
    (∃ t, Returns (fun _ => A) p s a t ∧ t.log = l ++ s.log) ↔ Trace A p a l := by
  induction p generalizing s l with
  | ret b =>
    simp only [returns_ret, trace_ret]
    constructor
    · rintro ⟨_, ⟨rfl, rfl⟩, hl⟩; exact ⟨rfl, by simpa using hl⟩
    · rintro ⟨rfl, rfl⟩; exact ⟨s, ⟨rfl, rfl⟩, rfl⟩
  | exit n m => simp
  | assign g p ih =>
    simp only [returns_assign, trace_assign]
    exact ih (s := s.upd g) hs
  | status n chk p ih =>
    simp only [returns_status, stops, hs, Bool.and_true, Trace, ← ih hs, and_assoc,
      exists_and_left]
  | call c chk k ih =>
    simp only [returns_call, Trace]
    constructor
    · rintro ⟨t, ⟨r, hA, hr, ht⟩, hl⟩
      obtain ⟨l', hl'⟩ := ht.log_suffix
      refine ⟨r, hA, by simpa [stops, hs] using hr, l', (ih r (s := s.push c r) hs).1
        ⟨t, ht, hl'.symm⟩, ?_⟩
      rw [hl, St.push_log] at hl'
      exact List.append_cancel_right (hl'.symm.trans (by simp))
    · rintro ⟨r, hA, hr, l', hp, rfl⟩
      obtain ⟨t, ht, hl⟩ := (ih r (s := s.push c r) hs).2 hp
      exact ⟨t, ⟨r, hA, by simpa [stops, hs] using hr, ht⟩, by simpa using hl⟩

/-- Every reply of a trace is a possible one. -/
theorem Trace.answers {p : Script V C R α} (h : Trace A p a l) {c : C} {r : R}
    (hm : (c, r) ∈ l) : A c r := by
  induction p generalizing l with
  | ret b => rw [h.2] at hm; cases hm
  | exit n m => exact h.elim
  | assign g p ih => exact ih h hm
  | status n chk p ih => exact ih h.2 hm
  | call c' chk k ih =>
    obtain ⟨r', hA, -, l', hk, rfl⟩ := h
    rcases List.mem_append.1 hm with hm | hm
    · exact ih r' hk hm
    · cases List.mem_singleton.1 hm
      exact hA

/-- Every command of a trace is one that the script can run. -/
theorem Trace.calls {P : C → Prop} {p : Script V C R α} (h : Trace A p a l) (hp : p.Calls P)
    {c : C} {r : R} (hm : (c, r) ∈ l) : P c := by
  induction p generalizing l with
  | ret b => rw [h.2] at hm; cases hm
  | exit n m => exact h.elim
  | assign g p ih => exact ih h hp hm
  | status n chk p ih => exact ih h.2 hp hm
  | call c' chk k ih =>
    obtain ⟨r', -, -, l', hk, rfl⟩ := h
    rcases List.mem_append.1 hm with hm | hm
    · exact ih r' hk (hp.2 r') hm
    · cases List.mem_singleton.1 hm
      exact hp.1

/-- What may be returned is returned after some commands. -/
theorem may_iff_trace {p : Script V C R α} : May A p a ↔ ∃ l, Trace A p a l := by
  induction p with
  | ret b => simp
  | exit n m => simp
  | assign g p ih => simp [ih]
  | status n chk p ih => simp only [May, Trace, ih, exists_and_left]
  | call c chk k ih =>
    simp only [May, Trace, ih]
    constructor
    · rintro ⟨r, hA, hr, l, hl⟩; exact ⟨_, r, hA, hr, l, hl, rfl⟩
    · rintro ⟨_, r, hA, hr, l, hl, rfl⟩; exact ⟨r, hA, hr, l, hl⟩

end Trace

end Shell

end InstallKit
