import InstallKit.Shell.Returns

/-!
# Scripts in a world

A command changes the world around the script, and not always in one way: one that fails may leave
part of its work behind.  `E l c r w w'` says that after the commands of the log `l` the command
`c`, answered by `r`, may turn the world `w` into `w'`.

* `After E w₀ l w` : the commands of `l` may have turned `w₀` into `w`.
* `Ensures E I p Q l w` : run from `w` under `set -e`, the script `p` keeps `I` at every boundary
  and returns only in `Q`.  It unfolds along the script (`ensures_bind`, `ensures_call`, ...), and
  `Ensures.sound` says what it gives for the runs of the script.
-/

namespace InstallKit

namespace Shell

variable {V C R W α β : Type} [ExitStatus R]
  {E : List (C × R) → C → R → W → W → Prop} {I : List (C × R) → W → Prop}

/-- What the commands of a log may have made of a world. -/
def After (E : List (C × R) → C → R → W → W → Prop) (w₀ : W) : List (C × R) → W → Prop
  | [], w => w = w₀
  | (c, r) :: l, w => ∃ v, After E w₀ l v ∧ E l c r v w

omit [ExitStatus R] in
@[simp] theorem after_nil {w₀ w : W} : After E w₀ [] w ↔ w = w₀ := Iff.rfl

omit [ExitStatus R] in
/-- What the commands of a log led to, an earlier part of the log led to before. -/
theorem After.of_suffix {w₀ w : W} {l l' : List (C × R)} (h : After E w₀ l' w) (hl : l <:+ l') :
    ∃ v, After E w₀ l v := by
  induction l' generalizing w with
  | nil =>
    obtain rfl := List.suffix_nil.1 hl
    exact ⟨w, h⟩
  | cons e l' ih =>
    rcases List.suffix_cons_iff.1 hl with rfl | hl
    · exact ⟨w, h⟩
    · obtain ⟨v, hv, -⟩ := h
      exact ih hv hl

/-- Every boundary from `w` on satisfies `I`, and the script returns only in `Q`. -/
def Ensures (E : List (C × R) → C → R → W → W → Prop) (I : List (C × R) → W → Prop) :
    Script V C R α → (α → List (C × R) → W → Prop) → List (C × R) → W → Prop
  | .ret a, Q, l, w => I l w ∧ Q a l w
  | .exit _ _, _, l, w => I l w
  | .assign _ p, Q, l, w => I l w ∧ Ensures E I p Q l w
  | .status n chk p, Q, l, w => I l w ∧ ((chk = true → n = 0) → Ensures E I p Q l w)
  | .call c chk k, Q, l, w => I l w ∧ ∀ r w', E l c r w w' → I ((c, r) :: l) w' ∧
      ((chk = true → ExitStatus.status r = 0) → Ensures E I (k r) Q ((c, r) :: l) w')

variable {Q : α → List (C × R) → W → Prop} {l : List (C × R)} {w : W}

@[simp] theorem ensures_ret {a : α} :
    Ensures E I (.ret a : Script V C R α) Q l w ↔ I l w ∧ Q a l w := Iff.rfl

@[simp] theorem ensures_exit {n : ℕ} {m : String} :
    Ensures E I (.exit n m : Script V C R α) Q l w ↔ I l w := Iff.rfl

@[simp] theorem ensures_assign {f : V → V} {p : Script V C R α} :
    Ensures E I (.assign f p) Q l w ↔ I l w ∧ Ensures E I p Q l w := Iff.rfl

theorem ensures_call {c : C} {chk : Bool} {k : R → Script V C R α} :
    Ensures E I (.call c chk k) Q l w ↔ I l w ∧ ∀ r w', E l c r w w' → I ((c, r) :: l) w' ∧
      ((chk = true → ExitStatus.status r = 0) → Ensures E I (k r) Q ((c, r) :: l) w') := Iff.rfl

theorem ensures_inv {p : Script V C R α} (h : Ensures E I p Q l w) : I l w := by
  cases p with
  | exit n m => exact h
  | _ => exact h.1

/-- **Sequencing.** -/
theorem ensures_bind {p : Script V C R β} {f : β → Script V C R α} :
    Ensures E I (p >>= f) Q l w ↔ Ensures E I p (fun b => Ensures E I (f b) Q) l w := by
  induction p generalizing l w with
  | ret b => exact ⟨fun h => ⟨ensures_inv h, h⟩, fun h => h.2⟩
  | exit n m => exact Iff.rfl
  | assign g p ih => exact and_congr_right fun _ => ih
  | status n chk p ih => exact and_congr_right fun _ => imp_congr_right fun _ => ih
  | call c chk k ih =>
    exact and_congr_right fun _ => forall₃_congr fun r _ _ => and_congr_right fun _ =>
      imp_congr_right fun _ => ih r

theorem Ensures.mono {I' : List (C × R) → W → Prop} {Q' : α → List (C × R) → W → Prop}
    (hI : ∀ l w, I l w → I' l w) (hQ : ∀ a l w, Q a l w → Q' a l w) {p : Script V C R α}
    (h : Ensures E I p Q l w) : Ensures E I' p Q' l w := by
  induction p generalizing l w with
  | ret a => exact ⟨hI _ _ h.1, hQ _ _ _ h.2⟩
  | exit n m => exact hI _ _ h
  | assign g p ih => exact ⟨hI _ _ h.1, ih h.2⟩
  | status n chk p ih => exact ⟨hI _ _ h.1, fun hn => ih (h.2 hn)⟩
  | call c chk k ih =>
    exact ⟨hI _ _ h.1, fun r w' hE => ⟨hI _ _ (h.2 r w' hE).1, fun hr => ih r ((h.2 r w' hE).2 hr)⟩⟩

/-- The postcondition may be weakened. -/
theorem Ensures.imp {Q' : α → List (C × R) → W → Prop} {p : Script V C R α}
    (h : Ensures E I p Q l w) (hQ : ∀ a l w, Q a l w → Q' a l w) : Ensures E I p Q' l w :=
  h.mono (fun _ _ h => h) hQ

/-- The log only grows. -/
theorem Ensures.extends {l₀ : List (C × R)} {p : Script V C R α} (h : Ensures E I p Q l w)
    (hl : l₀ <:+ l) : Ensures E I p (fun a l' w' => Q a l' w' ∧ l₀ <:+ l') l w := by
  induction p generalizing l w with
  | ret a => exact ⟨h.1, h.2, hl⟩
  | exit n m => exact h
  | assign g p ih => exact ⟨h.1, ih h.2 hl⟩
  | status n chk p ih => exact ⟨h.1, fun hn => ih (h.2 hn) hl⟩
  | call c chk k ih =>
    refine ⟨h.1, fun r w' hE => ⟨(h.2 r w' hE).1, fun hr => ?_⟩⟩
    exact ih r ((h.2 r w' hE).2 hr) (hl.trans (List.suffix_cons _ _))

/-- **What every command keeps**, the script keeps. -/
theorem ensures_of_calls {P : C → Prop} {J : List (C × R) → W → Prop} {p : Script V C R α}
    (hp : p.Calls P) (hJ : ∀ l c r w w', P c → E l c r w w' → J l w → J ((c, r) :: l) w')
    (hI : ∀ l w, J l w → I l w) (h : J l w) : Ensures E I p (fun _ => J) l w := by
  induction p generalizing l w with
  | ret a => exact ⟨hI _ _ h, h⟩
  | exit n m => exact hI _ _ h
  | assign g p ih => exact ⟨hI _ _ h, ih hp h⟩
  | status n chk p ih => exact ⟨hI _ _ h, fun _ => ih hp h⟩
  | call c chk k ih =>
    refine ⟨hI _ _ h, fun r w' hE => ?_⟩
    have h' := hJ _ _ _ _ _ hp.1 hE h
    exact ⟨hI _ _ h', fun _ => ih r (hp.2 r) h'⟩

variable {A : List (C × R) → C → R → Prop} {w₀ : W} {s : St V C R}

/-- What follows a status. -/
theorem sound_next {chk : Bool} {n : ℕ} {p : Script V C R α} (herr : s.errexit = true)
    (hI : ∀ w, After E w₀ s.log w → I s.log w)
    (hp : (chk = true → n = 0) → ∀ q t, Reach A (p, s) (q, t) → ∀ w, After E w₀ t.log w →
      I t.log w ∧ ∀ a, q = .ret a → Q a t.log w) :
    ∀ q t, Reach A (next s chk n p) (q, t) → ∀ w, After E w₀ t.log w →
      I t.log w ∧ ∀ a, q = .ret a → Q a t.log w := by
  intro q t hr w hw
  unfold next at hr
  split at hr
  · cases Reach.eq_of_outcome? rfl hr
    exact ⟨hI w hw, fun a ha => by cases ha⟩
  · rename_i hs
    refine hp (fun hc => ?_) q t hr w hw
    simpa [stops, hc, herr] using hs

/-- **Soundness**: at every boundary of a run under `set -e`, whatever the commands have made of the
world, the invariant holds, and where the script has returned the postcondition does. -/
theorem Ensures.sound {p q : Script V C R α} {t : St V C R} (herr : s.errexit = true)
    (h : ∀ w, After E w₀ s.log w → Ensures E I p Q s.log w) (hr : Reach A (p, s) (q, t))
    (hw : After E w₀ t.log w) : I t.log w ∧ ∀ a, q = .ret a → Q a t.log w := by
  induction p generalizing s q t w with
  | ret a =>
    cases Reach.eq_of_outcome? rfl hr
    exact ⟨(h w hw).1, fun b hb => by cases hb; exact (h w hw).2⟩
  | exit n m =>
    cases Reach.eq_of_outcome? rfl hr
    exact ⟨h w hw, fun b hb => by cases hb⟩
  | assign g p ih =>
    rcases hr.assign_cases with hx | hr
    · cases hx
      exact ⟨(h w hw).1, fun b hb => by cases hb⟩
    · exact ih (s := s.upd g) herr (fun w hw => (h w hw).2) hr hw
  | status n chk p ih =>
    rcases hr.status_cases with hx | hr
    · cases hx
      exact ⟨(h w hw).1, fun b hb => by cases hb⟩
    · exact sound_next herr (fun w hw => (h w hw).1)
        (fun hn q t hr w hw => ih herr (fun w hw => (h w hw).2 hn) hr hw) q t hr w hw
  | call c chk k ih =>
    -- the command itself, or what `errexit` and the rest do with its reply
    rcases hr.call_cases with hx | ⟨r, -, hr⟩
    · cases hx
      exact ⟨(h w hw).1, fun b hb => by cases hb⟩
    · -- the world before the command is one of those that the log allows
      have hpush : ∀ w', After E w₀ (s.push c r).log w' → I ((c, r) :: s.log) w' ∧
          ((chk = true → ExitStatus.status r = 0) → Ensures E I (k r) Q ((c, r) :: s.log) w') := by
        rintro w' ⟨v, hv, hE⟩
        exact (h v hv).2 r w' hE
      exact sound_next (s := s.push c r) herr (fun w' hw' => (hpush w' hw').1)
        (fun hn q t hr w hw => ih r (s := s.push c r) herr (fun w' hw' => (hpush w' hw').2 hn) hr hw)
        q t hr w hw

/-- What every command keeps holds at every boundary, with `set -e` or without it. -/
theorem always_after {P : C → Prop} {p : Script V C R α} (hp : p.Calls P)
    (hI : ∀ l c r w w', P c → E l c r w w' → I l w → I ((c, r) :: l) w')
    (hs : ∀ w, After E w₀ s.log w → I s.log w) :
    Always A (fun s => ∀ w, After E w₀ s.log w → I s.log w) p s := by
  refine always_of_calls (J := fun l => ∀ w, After E w₀ l w → I l w) hp ?_ hs
  rintro l c r hc - h w ⟨v, hv, hE⟩
  exact hI l c r v w hc hE (h v hv)

end Shell

end InstallKit
