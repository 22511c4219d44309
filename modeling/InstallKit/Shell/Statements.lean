import InstallKit.Shell.Sessions

/-!
# The statements of a script

The usual ways in which a script runs a command whose reply is a status and a text: as a statement,
as a condition, in `x="$(...)"`, and with `|| die`.  Each has its lemma for what it ensures in a
world.
-/

namespace InstallKit

namespace Shell

namespace Stmt

/-- The reply to a command: its status and what it prints, without the newlines at the end. -/
structure Reply where
  status : ℕ
  out : List Char
  deriving DecidableEq

instance : ExitStatus Reply := ⟨Reply.status⟩

@[simp] theorem exitStatus_reply (r : Reply) : ExitStatus.status r = r.status := rfl

/-- Success. -/
def Reply.done : Reply := ⟨0, []⟩

/-- Failure. -/
def Reply.failed : Reply := ⟨1, []⟩

/-- Success with a text. -/
def Reply.text (t : List Char) : Reply := ⟨0, t⟩

/-- The reply of a test. -/
def Reply.test (b : Bool) : Reply := if b then .done else .failed

@[simp] theorem status_done : Reply.done.status = 0 := rfl

@[simp] theorem status_failed : Reply.failed.status = 1 := rfl

@[simp] theorem status_text (t : List Char) : (Reply.text t).status = 0 := rfl

@[simp] theorem out_text (t : List Char) : (Reply.text t).out = t := rfl

@[simp] theorem status_test (b : Bool) : (Reply.test b).status = 0 ↔ b = true := by
  cases b <;> simp [Reply.test]

variable {V C : Type} {α : Type}

/-- A command that is a statement. -/
def exec (c : C) : Script V C Reply Unit := do
  let _ ← Script.cmd c

/-- A command that is a condition. -/
def holds (c : C) : Script V C Reply Bool := do
  return (← Script.attempt c).status = 0

/-- `x="$(c)"` -/
def capture (c : C) : Script V C Reply (List Char) := do
  return (← Script.cmd c).out

/-- `c || true`, or `$(c)` among the arguments of a command: the status is ignored. -/
def glance (c : C) : Script V C Reply Reply := Script.attempt c

def die (msg : String) : Script V C Reply α := .exit 1 msg

/-- `[[ b ]] || die msg` -/
def orDie (b : Bool) (msg : String) : Script V C Reply Unit := if b then return else die msg

/-- `if b; then p; fi` -/
def given (b : Bool) (p : Script V C Reply Unit) : Script V C Reply Unit :=
  if b then p else return

/-- `c || die msg` -/
def require (c : C) (msg : String) : Script V C Reply Unit := do
  orDie (← holds c) msg

/-! ### What they ensure -/

section Ensures

variable {W : Type} {E : List (C × Reply) → C → Reply → W → W → Prop}
  {I : List (C × Reply) → W → Prop} {l : List (C × Reply)} {w : W} {c : C} {msg : String}

theorem ensures_exec {Q : Unit → List (C × Reply) → W → Prop} :
    Ensures E I (exec c : Script V C Reply Unit) Q l w ↔ I l w ∧ ∀ r w', E l c r w w' →
      I ((c, r) :: l) w' ∧ (r.status = 0 → Q () ((c, r) :: l) w') := by
  rw [exec, Script.cmd_bind, ensures_call]
  refine and_congr_right fun _ => forall₃_congr fun r w' _ => and_congr_right fun hI => ?_
  exact ⟨fun h hr => (h fun _ => hr).2, fun h hr => ⟨hI, h (hr rfl)⟩⟩

theorem ensures_holds {Q : Bool → List (C × Reply) → W → Prop} :
    Ensures E I (holds c : Script V C Reply Bool) Q l w ↔ I l w ∧ ∀ r w', E l c r w w' →
      I ((c, r) :: l) w' ∧ Q (decide (r.status = 0)) ((c, r) :: l) w' := by
  rw [holds, Script.attempt_bind, ensures_call]
  refine and_congr_right fun _ => forall₃_congr fun r w' _ => and_congr_right fun hI => ?_
  exact ⟨fun h => (h (by simp)).2, fun h _ => ⟨hI, h⟩⟩

theorem ensures_capture {Q : List Char → List (C × Reply) → W → Prop} :
    Ensures E I (capture c : Script V C Reply (List Char)) Q l w ↔ I l w ∧
      ∀ r w', E l c r w w' → I ((c, r) :: l) w' ∧ (r.status = 0 → Q r.out ((c, r) :: l) w') := by
  rw [capture, Script.cmd_bind, ensures_call]
  refine and_congr_right fun _ => forall₃_congr fun r w' _ => and_congr_right fun hI => ?_
  exact ⟨fun h hr => (h fun _ => hr).2, fun h hr => ⟨hI, h (hr rfl)⟩⟩

theorem ensures_glance {Q : Reply → List (C × Reply) → W → Prop} :
    Ensures E I (glance c : Script V C Reply Reply) Q l w ↔ I l w ∧ ∀ r w', E l c r w w' →
      I ((c, r) :: l) w' ∧ Q r ((c, r) :: l) w' := by
  rw [glance, Script.attempt, ensures_call]
  refine and_congr_right fun _ => forall₃_congr fun r w' _ => and_congr_right fun hI => ?_
  exact ⟨fun h => (h (by simp)).2, fun h _ => ⟨hI, h⟩⟩

theorem ensures_orDie {b : Bool} {Q : Unit → List (C × Reply) → W → Prop} :
    Ensures E I (orDie b msg : Script V C Reply Unit) Q l w ↔
      I l w ∧ (b = true → Q () l w) := by
  cases b with
  | false => exact ⟨fun h => ⟨h, fun hb => by cases hb⟩, fun h => h.1⟩
  | true => exact ⟨fun h => ⟨h.1, fun _ => h.2⟩, fun h => ⟨h.1, h.2 rfl⟩⟩

theorem ensures_given {b : Bool} {p : Script V C Reply Unit}
    {Q : Unit → List (C × Reply) → W → Prop} :
    Ensures E I (given b p) Q l w ↔
      (b = true → Ensures E I p Q l w) ∧ (b = false → I l w ∧ Q () l w) := by
  cases b with
  | false => exact ⟨fun h => ⟨fun hb => (by cases hb), fun _ => h⟩, fun h => h.2 rfl⟩
  | true => exact ⟨fun h => ⟨fun _ => h, fun hb => (by cases hb)⟩, fun h => h.1 rfl⟩

theorem ensures_require {Q : Unit → List (C × Reply) → W → Prop} :
    Ensures E I (require c msg : Script V C Reply Unit) Q l w ↔ I l w ∧ ∀ r w', E l c r w w' →
      I ((c, r) :: l) w' ∧ (r.status = 0 → Q () ((c, r) :: l) w') := by
  rw [require, ensures_bind, ensures_holds]
  refine and_congr_right fun _ => forall₃_congr fun r w' _ => and_congr_right fun hI => ?_
  rw [ensures_orDie, decide_eq_true_iff]
  exact and_iff_right hI

end Ensures

/-! ### What happens when they are played -/

section Play

variable {W β : Type} {f : C → W → Reply × W} {w : W} {c : C} {msg : String}

@[simp] theorem play_exec {g : Unit → Script Unit C Reply β} (h : (f c w).1.status = 0) :
    play f (exec c >>= g) w = play f (g ()) (f c w).2 := by
  rw [play_bind, exec, Script.cmd_bind, play]
  simp [h, play]

@[simp] theorem play_holds {g : Bool → Script Unit C Reply β} :
    play f (holds c >>= g) w = play f (g (decide ((f c w).1.status = 0))) (f c w).2 := by
  rw [play_bind, holds, Script.attempt_bind, play]
  simp [play]

@[simp] theorem play_capture {g : List Char → Script Unit C Reply β} (h : (f c w).1.status = 0) :
    play f (capture c >>= g) w = play f (g (f c w).1.out) (f c w).2 := by
  rw [play_bind, capture, Script.cmd_bind, play]
  simp [h, play]

@[simp] theorem play_glance {g : Reply → Script Unit C Reply β} :
    play f (glance c >>= g) w = play f (g (f c w).1) (f c w).2 := by
  rw [play_bind, glance, Script.attempt, play]
  simp [play]

@[simp] theorem play_orDie {g : Unit → Script Unit C Reply β} {b : Bool} (h : b = true) :
    play f (orDie b msg >>= g) w = play f (g ()) w := by
  subst h
  rfl

@[simp] theorem play_given {g : Unit → Script Unit C Reply β} {b : Bool}
    {p : Script Unit C Reply Unit} :
    play f (given b p >>= g) w = if b then play f (p >>= g) w else play f (g ()) w := by
  cases b <;> rfl

@[simp] theorem play_require {g : Unit → Script Unit C Reply β} (h : (f c w).1.status = 0) :
    play f (require c msg >>= g) w = play f (g ()) (f c w).2 := by
  rw [require, bind_assoc, play_holds, play_orDie (decide_eq_true h)]

@[simp] theorem play_ret (a : β) : play f (pure a : Script Unit C Reply β) w = (.ret a, w) := rfl

end Play

/-! ### What they may return -/

section May

variable {A : C → Reply → Prop} {c : C} {msg : String}

@[simp] theorem may_exec {u : Unit} :
    May A (exec c : Script V C Reply Unit) u ↔ ∃ r, A c r ∧ r.status = 0 := by
  rw [exec, Script.cmd_bind, may_cmd]
  simp

@[simp] theorem may_holds {b : Bool} :
    May A (holds c : Script V C Reply Bool) b ↔ ∃ r, A c r ∧ b = decide (r.status = 0) := by
  rw [holds, Script.attempt_bind, may_attempt]
  rfl

@[simp] theorem may_capture {t : List Char} :
    May A (capture c : Script V C Reply (List Char)) t ↔
      ∃ r, A c r ∧ r.status = 0 ∧ t = r.out := by
  rw [capture, Script.cmd_bind, may_cmd]
  rfl

@[simp] theorem may_glance {r : Reply} :
    May A (glance c : Script V C Reply Reply) r ↔ A c r := by
  rw [glance, Script.attempt, may_attempt]
  simp

@[simp] theorem may_die {a : α} : ¬ May A (die msg : Script V C Reply α) a := id

@[simp] theorem may_orDie {b : Bool} {u : Unit} :
    May A (orDie b msg : Script V C Reply Unit) u ↔ b = true := by
  cases b <;> simp [orDie]

@[simp] theorem may_given {b : Bool} {p : Script V C Reply Unit} {u : Unit} :
    May A (given b p) u ↔ (b = true → May A p u) := by
  cases b with
  | false => exact ⟨fun _ hb => (by cases hb), fun _ => rfl⟩
  | true => exact ⟨fun h _ => h, fun h => h rfl⟩

@[simp] theorem may_require {u : Unit} :
    May A (require c msg : Script V C Reply Unit) u ↔ ∃ r, A c r ∧ r.status = 0 := by
  rw [require, may_bind]
  simp

end May

/-! ### The commands they run -/

section Calls

variable {P : C → Prop} {c : C} {msg : String}

@[simp] theorem calls_exec : (exec c : Script V C Reply Unit).Calls P ↔ P c := by simp [exec]

@[simp] theorem calls_holds : (holds c : Script V C Reply Bool).Calls P ↔ P c := by simp [holds]

@[simp] theorem calls_capture : (capture c : Script V C Reply (List Char)).Calls P ↔ P c := by
  simp [capture]

@[simp] theorem calls_glance : (glance c : Script V C Reply Reply).Calls P ↔ P c := by
  simp [glance]

@[simp] theorem calls_die : (die msg : Script V C Reply α).Calls P := trivial

@[simp] theorem calls_orDie {b : Bool} : (orDie b msg : Script V C Reply Unit).Calls P := by
  cases b <;> trivial

@[simp] theorem calls_given {b : Bool} {p : Script V C Reply Unit} :
    (given b p).Calls P ↔ (b = true → p.Calls P) := by
  cases b <;> simp [given]

@[simp] theorem calls_require : (require c msg : Script V C Reply Unit).Calls P ↔ P c := by
  simp [require]

end Calls

end Stmt

end Shell

end InstallKit
