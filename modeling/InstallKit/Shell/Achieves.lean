import InstallKit.Shell.Grants

/-!
# What a script can do

`Ensures` is about every run from a world.  `Achieves` is about one: the commands can be answered,
and can change the world, in such a way that the script returns.

* `achieves_bind`, `achieves_exec`, ... : it unfolds along the script.
* `achieves_of_may` : a part that changes nothing returns what it may return.
* `Achieves.finishes` : there is a run that returns.
-/

namespace InstallKit

namespace Shell

variable {V C R W α β : Type} [ExitStatus R]

/-- Some run from `w` returns in `Q`. -/
def Achieves (E : List (C × R) → C → R → W → W → Prop) :
    Script V C R α → (α → List (C × R) → W → Prop) → List (C × R) → W → Prop
  | .ret a, Q, l, w => Q a l w
  | .exit _ _, _, _, _ => False
  | .assign _ p, Q, l, w => Achieves E p Q l w
  | .status n chk p, Q, l, w => (chk = true → n = 0) ∧ Achieves E p Q l w
  | .call c chk k, Q, l, w => ∃ r w', E l c r w w' ∧ (chk = true → ExitStatus.status r = 0) ∧
      Achieves E (k r) Q ((c, r) :: l) w'

variable {E : List (C × R) → C → R → W → W → Prop} {Q Q' : α → List (C × R) → W → Prop}
  {l : List (C × R)} {w : W}

/-- **Sequencing.** -/
theorem achieves_bind {p : Script V C R β} {f : β → Script V C R α} :
    Achieves E (p >>= f) Q l w ↔ Achieves E p (fun b => Achieves E (f b) Q) l w := by
  induction p generalizing l w with
  | ret b => exact Iff.rfl
  | exit n m => exact Iff.rfl
  | assign g p ih => exact ih
  | status n chk p ih => exact and_congr_right fun _ => ih
  | call c chk k ih =>
    exact exists₂_congr fun r _ => and_congr_right fun _ => and_congr_right fun _ => ih r

theorem Achieves.imp {p : Script V C R α} (h : Achieves E p Q l w)
    (hQ : ∀ a l w, Q a l w → Q' a l w) : Achieves E p Q' l w := by
  induction p generalizing l w with
  | ret a => exact hQ _ _ _ h
  | exit n m => exact h
  | assign g p ih => exact ih h
  | status n chk p ih => exact ⟨h.1, ih h.2⟩
  | call c chk k ih =>
    obtain ⟨r, w', hE, hr, h⟩ := h
    exact ⟨r, w', hE, hr, ih r h⟩

/-- **A part that changes nothing** returns what it may return, when the world allows the
replies. -/
theorem achieves_of_may {B : C → R → Prop} {p : Script V C R α} {a : α} (h : May B p a)
    (hB : ∀ l c r, B c r → E l c r w w) : Achieves E p (fun b _ v => b = a ∧ v = w) l w := by
  induction p generalizing l with
  | ret b => exact ⟨Eq.symm h, rfl⟩
  | exit n m => exact h
  | assign g p ih => exact ih h
  | status n chk p ih =>
    refine ⟨fun hc => ?_, ih h.2⟩
    simpa [hc] using h.1
  | call c chk k ih =>
    obtain ⟨r, hr, hs, h⟩ := h
    refine ⟨r, w, hB l c r hr, fun hc => ?_, ih r h⟩
    simpa [hc] using hs

/-- **There is a run**, with the replies of the world. -/
theorem Achieves.reach {A : List (C × R) → C → R → Prop} (hA : ∀ l c r w w', E l c r w w' → A l c r)
    {p : Script V C R α} {s : St V C R} {u : W} (herr : s.errexit = true)
    (h : Achieves E p Q s.log w) (hw : After E u s.log w) :
    ∃ a s' w', Reach A (p, s) (.ret a, s') ∧ After E u s'.log w' ∧ Q a s'.log w' := by
  induction p generalizing s w with
  | ret a => exact ⟨a, s, w, Reach.refl _, hw, h⟩
  | exit n m => exact h.elim
  | assign g p ih =>
    obtain ⟨a, s', w', hr, hw', hQ⟩ := ih (s := s.upd g) herr h hw
    exact ⟨a, s', w', hr.assign, hw', hQ⟩
  | status n chk p ih =>
    obtain ⟨hn, h⟩ := h
    obtain ⟨a, s', w', hr, hw', hQ⟩ := ih herr h hw
    refine ⟨a, s', w', hr.status ?_, hw', hQ⟩
    cases chk with
    | false => rfl
    | true => simp [stops, hn rfl]
  | call c chk k ih =>
    obtain ⟨r, w₁, hE, hstatus, h⟩ := h
    obtain ⟨a, s', w', hr, hw', hQ⟩ := ih r (s := s.push c r) herr h ⟨w, hw, hE⟩
    refine ⟨a, s', w', hr.call r (hA _ _ _ _ _ hE) ?_, hw', hQ⟩
    cases chk with
    | false => rfl
    | true => simp [stops, hstatus rfl]

theorem Achieves.finishes {p : Script Unit C R α} (h : Achieves E p Q [] w) :
    ∃ a w', Finishes E p w a w' ∧ ∃ l, Q a l w' := by
  obtain ⟨a, s, w', hr, hw, hQ⟩ :=
    h.reach (A := fun _ _ _ => True) (fun _ _ _ _ _ _ => trivial) (s := fresh) (u := w) rfl rfl
  exact ⟨a, w', ⟨s, hr, hw⟩, s.log, hQ⟩

/-- A script whose replies do not depend on what was done before. -/
theorem reach_of_may {A : List (C × R) → C → R → Prop} {B : C → R → Prop} {p : Script Unit C R α}
    {a : α} (h : May B p a) (hA : ∀ l c r, B c r → A l c r) :
    ∃ s, Reach A (p, fresh) (.ret a, s) := by
  have hach : Achieves (fun l c r (_ _ : Unit) => A l c r) p (fun b _ v => b = a ∧ v = ()) [] () :=
    achieves_of_may h hA
  obtain ⟨b, s, _, hr, -, rfl, -⟩ :=
    Achieves.reach (s := fresh) (u := ()) (A := A) (fun _ _ _ _ _ h => h) rfl hach rfl
  exact ⟨s, hr⟩

/-- What a part may return over its own commands, it may return inside the whole. -/
theorem may_relay {C' R' : Type} [ExitStatus R'] {f : C → C'} {g : R' → R} {B : C → R → Prop}
    {B' : C' → R' → Prop} {P : C → Prop} {p : Script V C R α} {a : α} (hp : p.Calls P)
    (hg : ∀ r, ExitStatus.status (g r) = ExitStatus.status r)
    (hB : ∀ c r, P c → B c r → ∃ r', B' (f c) r' ∧ g r' = r) (h : May B p a) :
    May B' (relay f g p) a := by
  induction p with
  | ret b => exact h
  | exit n m => exact h
  | assign g p ih => exact ih hp h
  | status n chk p ih => exact ⟨h.1, ih hp h.2⟩
  | call c chk k ih =>
    obtain ⟨r, hr, hs, h⟩ := h
    obtain ⟨r', hr', rfl⟩ := hB c r hp.1 hr
    exact ⟨r', hr', by rw [← hg, hs], ih _ (hp.2 _) h⟩

/-! ### Statements -/

namespace Stmt

variable {E : List (C × Reply) → C → Reply → W → W → Prop} {l : List (C × Reply)} {w : W} {c : C}
  {msg : String}

theorem achieves_exec {Q : Unit → List (C × Reply) → W → Prop} :
    Achieves E (exec c : Script V C Reply Unit) Q l w ↔
      ∃ r w', E l c r w w' ∧ r.status = 0 ∧ Q () ((c, r) :: l) w' := by
  rw [exec, Script.cmd_bind]
  exact exists₂_congr fun r _ => and_congr_right fun _ =>
    and_congr_left fun _ => ⟨fun h => h rfl, fun h _ => h⟩

theorem achieves_holds {Q : Bool → List (C × Reply) → W → Prop} :
    Achieves E (holds c : Script V C Reply Bool) Q l w ↔
      ∃ r w', E l c r w w' ∧ Q (decide (r.status = 0)) ((c, r) :: l) w' := by
  rw [holds, Script.attempt_bind]
  exact exists₂_congr fun r _ => and_congr_right fun _ =>
    ⟨fun h => h.2, fun h => ⟨fun hc => (by cases hc), h⟩⟩

theorem achieves_capture {Q : List Char → List (C × Reply) → W → Prop} :
    Achieves E (capture c : Script V C Reply (List Char)) Q l w ↔
      ∃ r w', E l c r w w' ∧ r.status = 0 ∧ Q r.out ((c, r) :: l) w' := by
  rw [capture, Script.cmd_bind]
  exact exists₂_congr fun r _ => and_congr_right fun _ =>
    and_congr_left fun _ => ⟨fun h => h rfl, fun h _ => h⟩

theorem achieves_glance {Q : Reply → List (C × Reply) → W → Prop} :
    Achieves E (glance c : Script V C Reply Reply) Q l w ↔
      ∃ r w', E l c r w w' ∧ Q r ((c, r) :: l) w' := by
  rw [glance, Script.attempt]
  exact exists₂_congr fun r _ => and_congr_right fun _ =>
    ⟨fun h => h.2, fun h => ⟨fun hc => (by cases hc), h⟩⟩

theorem achieves_orDie {b : Bool} {Q : Unit → List (C × Reply) → W → Prop} :
    Achieves E (orDie b msg : Script V C Reply Unit) Q l w ↔ b = true ∧ Q () l w := by
  cases b with
  | false => exact ⟨False.elim, fun h => by cases h.1⟩
  | true => exact ⟨fun h => ⟨rfl, h⟩, fun h => h.2⟩

theorem achieves_given {b : Bool} {p : Script V C Reply Unit}
    {Q : Unit → List (C × Reply) → W → Prop} :
    Achieves E (given b p) Q l w ↔
      (b = true → Achieves E p Q l w) ∧ (b = false → Q () l w) := by
  cases b with
  | false => exact ⟨fun h => ⟨fun hb => (by cases hb), fun _ => h⟩, fun h => h.2 rfl⟩
  | true => exact ⟨fun h => ⟨fun _ => h, fun hb => (by cases hb)⟩, fun h => h.1 rfl⟩

theorem achieves_require {Q : Unit → List (C × Reply) → W → Prop} :
    Achieves E (require c msg : Script V C Reply Unit) Q l w ↔
      ∃ r w', E l c r w w' ∧ r.status = 0 ∧ Q () ((c, r) :: l) w' := by
  rw [require, achieves_bind, achieves_holds]
  refine exists₂_congr fun r _ => and_congr_right fun _ => ?_
  rw [achieves_orDie, decide_eq_true_iff]

end Stmt

end Shell

end InstallKit
