import InstallKit.Shell.Statements

/-!
# Commands that need a grant

A script asks first and acts then.  That it never acts without having asked is a property of its
log: every command that acts was granted by what had been run and answered before it.

* `relay` : a part of a script that is written over fewer commands, inside the whole.
* `may_of_relay` : it returns only what it may return on its own.
* `ensures_may` : what a part may return in a world.
* `Vetted` : every command of a log was granted when it was run.
* `Ensures.always` : what a script ensures about its log holds in all of its runs.
-/

namespace InstallKit

namespace Shell

variable {V C C' R R' W α β : Type}

/-! ### Parts over fewer commands -/

/-- The part in a script that has more commands; `g` is what the part sees of a reply. -/
def relay (f : C → C') (g : R' → R) : Script V C R α → Script V C' R' α
  | .ret a => .ret a
  | .exit n m => .exit n m
  | .assign h p => .assign h (relay f g p)
  | .status n chk p => .status n chk (relay f g p)
  | .call c chk k => .call (f c) chk fun r => relay f g (k (g r))

theorem calls_relay {f : C → C'} {g : R' → R} {P : C' → Prop} {p : Script V C R α}
    (h : p.Calls fun c => P (f c)) : (relay f g p).Calls P := by
  induction p with
  | ret a => trivial
  | exit n m => trivial
  | assign h' p ih => exact ih h
  | status n chk p ih => exact ih h
  | call c chk k ih => exact ⟨h.1, fun r => ih (g r) (h.2 (g r))⟩

variable [ExitStatus R] [ExitStatus R']

/-- A relayed part returns only what it may return on its own. -/
theorem may_of_relay {f : C → C'} {g : R' → R} {B : C → R → Prop} {B' : C' → R' → Prop}
    {p : Script V C R α} {a : α} (hg : ∀ r, ExitStatus.status (g r) = ExitStatus.status r)
    (hB : ∀ c r, B' (f c) r → B c (g r)) (h : May B' (relay f g p) a) : May B p a := by
  induction p with
  | ret b => exact h
  | exit n m => exact h
  | assign h' p ih => exact ih h
  | status n chk p ih => exact ⟨h.1, ih h.2⟩
  | call c chk k ih =>
    obtain ⟨r, hr, hs, h⟩ := h
    exact ⟨g r, hB c r hr, by rw [hg, hs], ih (g r) h⟩

/-- **What a part may return** when the replies in the world are those that `B` allows, for as long
as the commands of the part are run. -/
theorem ensures_may {E : List (C × R) → C → R → W → W → Prop} {I J : List (C × R) → W → Prop}
    {P : C → Prop} {B : C → R → Prop} {p : Script V C R α} {l : List (C × R)} {w : W}
    (hp : p.Calls P)
    (hJ : ∀ l c r w w', P c → E l c r w w' → J l w → J ((c, r) :: l) w' ∧ B c r)
    (hI : ∀ l w, J l w → I l w) (h : J l w) :
    Ensures E I p (fun a l w => J l w ∧ May B p a) l w := by
  induction p generalizing l w with
  | ret a => exact ⟨hI _ _ h, h, rfl⟩
  | exit n m => exact hI _ _ h
  | assign h' p ih => exact ⟨hI _ _ h, ih hp h⟩
  | status n chk p ih =>
    refine ⟨hI _ _ h, fun hn => (ih hp h).imp ?_⟩
    rintro a l w ⟨hl, hmay⟩
    refine ⟨hl, ?_, hmay⟩
    cases chk with
    | false => rfl
    | true => simp [hn rfl]
  | call c chk k ih =>
    refine ⟨hI _ _ h, fun r w' hE => ?_⟩
    obtain ⟨hl', hB⟩ := hJ _ _ _ _ _ hp.1 hE h
    refine ⟨hI _ _ hl', fun hr => (ih r (hp.2 _) hl').imp ?_⟩
    rintro a l w ⟨hl, hmay⟩
    refine ⟨hl, r, hB, ?_, hmay⟩
    cases chk with
    | false => rfl
    | true => simp [hr rfl]

/-! ### Vetted logs -/

/-- Every command of the log satisfied `P` when it was run. -/
def Vetted (P : List (C × R) → C → Prop) : List (C × R) → Prop
  | [] => True
  | (c, _) :: l => P l c ∧ Vetted P l

variable {P : List (C × R) → C → Prop} {l : List (C × R)} {c : C} {r : R}

omit [ExitStatus R] in
@[simp] theorem vetted_nil : Vetted P ([] : List (C × R)) := trivial

omit [ExitStatus R] in
@[simp] theorem vetted_cons : Vetted P ((c, r) :: l) ↔ P l c ∧ Vetted P l := Iff.rfl

/-- The log of a run is one that its replies allow. -/
theorem reach_after {A : List (C × R) → C → R → Prop} {x y : Config V C R α} (h : Reach A x y)
    (hx : After (fun l c r (_ _ : Unit) => A l c r) () x.2.log ()) :
    After (fun l c r (_ _ : Unit) => A l c r) () y.2.log () := by
  induction h with
  | refl => exact hx
  | tail _ hst ih =>
    cases hst with
    | assign f p s => exact ih
    | status n chk p s => simpa only [next_state] using ih
    | call c chk k s r hA => simpa only [next_state, St.push_log] using ⟨(), ih, hA⟩

/-- **Soundness**: what a script ensures about its log holds at every boundary of every run. -/
theorem Ensures.always {A : List (C × R) → C → R → Prop} {I : List (C × R) → Unit → Prop}
    {p : Script V C R α} {Q : α → List (C × R) → Unit → Prop} {s : St V C R}
    (h : Ensures (fun l c r _ _ => A l c r) I p Q [] ()) (herr : s.errexit = true)
    (hlog : s.log = []) : Always A (fun s => I s.log ()) p s := by
  intro q t hr
  have hstart : ∀ w, After (fun l c r (_ _ : Unit) => A l c r) () s.log w →
      Ensures (fun l c r _ _ => A l c r) I p Q s.log w := by
    intro w _
    rw [hlog]
    exact h
  exact (Ensures.sound herr hstart hr (reach_after hr (by rw [hlog]; rfl))).1

theorem Ensures.vetted {A : List (C × R) → C → R → Prop} {p q : Script Unit C R α}
    {Q : α → List (C × R) → Unit → Prop} {s : St Unit C R}
    (h : Ensures (fun l c r _ _ => A l c r) (fun l _ => Vetted P l) p Q [] ())
    (hr : Reach A (p, fresh) (q, s)) : Vetted P s.log :=
  h.always rfl rfl q s hr

end Shell

end InstallKit
