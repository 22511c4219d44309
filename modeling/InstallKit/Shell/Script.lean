import Mathlib.Data.Nat.Notation

/-!
# Shell scripts as command trees

A shell script is modelled by the commands it asks its surroundings to run: `Script V C R α` is a
tree whose nodes are commands of type `C`, answered by replies of type `R`.  What a command does
is left open, so that one script can be read over different worlds; what the *shell* does with a
reply is fixed here:

* under `set -e` a non-zero status ends the script, but only for a command that is `checked`: a
  command tested by `if`, `&&` or `||` is not, and neither is any command of a function that is
  itself called as a condition (`Script.unchecked`);
* `exit` leaves the script from any depth;
* the shell variables that a `trap` handler reads are assigned by explicit nodes, everything else
  a script computes is an ordinary value of the host language.

Commands executed so far are kept in a log, newest first.
-/

namespace InstallKit

namespace Shell

/-- Replies that carry the exit status of a command. -/
class ExitStatus (R : Type*) where
  /-- The exit status. -/
  status : R → ℕ

/-- A script over commands `C` with replies `R`, whose trap handler reads variables `V`. -/
inductive Script (V C R : Type) (α : Type) : Type
  /-- The script (or function) is finished. -/
  | ret (a : α)
  /-- `exit status`, with the message printed before it. -/
  | exit (status : ℕ) (msg : String)
  /-- An assignment to a variable that the trap handler reads. -/
  | assign (f : V → V) (next : Script V C R α)
  /-- The shell itself (`(( .. ))`, `return`, a failed `$(..)`) yields the status `n`. -/
  | status (n : ℕ) (checked : Bool) (next : Script V C R α)
  /-- Run `c`; when `checked`, a non-zero status is subject to `set -e`. -/
  | call (c : C) (checked : Bool) (next : R → Script V C R α)

namespace Script

variable {V C R α β γ : Type}

/-- Sequencing. -/
def bind : Script V C R α → (α → Script V C R β) → Script V C R β
  | ret a, f => f a
  | exit n m, _ => exit n m
  | assign g p, f => assign g (bind p f)
  | status n chk p, f => status n chk (bind p f)
  | call c chk k, f => call c chk fun r => bind (k r) f

instance : Monad (Script V C R) where
  pure := ret
  bind := bind

@[simp] theorem pure_eq (a : α) : (pure a : Script V C R α) = ret a := rfl

@[simp] theorem ret_bind (a : α) (f : α → Script V C R β) : ret a >>= f = f a := rfl

@[simp] theorem exit_bind (n : ℕ) (m : String) (f : α → Script V C R β) :
    (exit n m : Script V C R α) >>= f = exit n m := rfl

@[simp] theorem assign_bind (g : V → V) (p : Script V C R α) (f : α → Script V C R β) :
    assign g p >>= f = assign g (p >>= f) := rfl

@[simp] theorem status_bind (n : ℕ) (chk : Bool) (p : Script V C R α)
    (f : α → Script V C R β) : status n chk p >>= f = status n chk (p >>= f) := rfl

@[simp] theorem call_bind (c : C) (chk : Bool) (k : R → Script V C R α)
    (f : α → Script V C R β) : call c chk k >>= f = call c chk fun r => k r >>= f := rfl

theorem bind_ret (p : Script V C R α) : p.bind ret = p := by
  induction p with
  | ret a => rfl
  | exit n m => rfl
  | assign g p ih => simp only [bind, ih]
  | status n chk p ih => simp only [bind, ih]
  | call c chk k ih => simp only [bind, ih]

theorem bind_bind (p : Script V C R α) (f : α → Script V C R β) (g : β → Script V C R γ) :
    (p.bind f).bind g = p.bind fun a => (f a).bind g := by
  induction p with
  | ret a => rfl
  | exit n m => rfl
  | assign h p ih => simp only [bind, ih]
  | status n chk p ih => simp only [bind, ih]
  | call c chk k ih => simp only [bind, ih]

instance : LawfulMonad (Script V C R) :=
  LawfulMonad.mk' _ bind_ret (fun _ _ => rfl) bind_bind

/-- A command run as a statement of its own, subject to `set -e`. -/
def cmd (c : C) : Script V C R R := call c true ret

/-- A command whose failure the script looks at (or ignores) itself. -/
def attempt (c : C) : Script V C R R := call c false ret

/-- Assign to the variables of the trap handler. -/
def setVar (f : V → V) : Script V C R Unit := assign f (ret ())

/-- The shell itself yields the status `n`, subject to `set -e`. -/
def yields (n : ℕ) : Script V C R ℕ := status n true (ret n)

/-- `set -e` is ignored in a function that is called as a condition, at any depth. -/
def unchecked : Script V C R α → Script V C R α
  | ret a => ret a
  | exit n m => exit n m
  | assign f p => assign f p.unchecked
  | status n _ p => status n false p.unchecked
  | call c _ k => call c false fun r => (k r).unchecked

@[simp] theorem cmd_bind (c : C) (f : R → Script V C R β) :
    (cmd c : Script V C R R) >>= f = call c true f := rfl

@[simp] theorem attempt_bind (c : C) (f : R → Script V C R β) :
    (attempt c : Script V C R R) >>= f = call c false f := rfl

@[simp] theorem setVar_bind (g : V → V) (f : Unit → Script V C R β) :
    (setVar g : Script V C R Unit) >>= f = assign g (f ()) := rfl

@[simp] theorem yields_bind (n : ℕ) (f : ℕ → Script V C R β) :
    (yields n : Script V C R ℕ) >>= f = status n true (f n) := rfl

@[simp] theorem unchecked_ret (a : α) : (ret a : Script V C R α).unchecked = ret a := rfl

@[simp] theorem unchecked_exit (n : ℕ) (m : String) :
    (exit n m : Script V C R α).unchecked = exit n m := rfl

@[simp] theorem unchecked_assign (f : V → V) (p : Script V C R α) :
    (assign f p).unchecked = assign f p.unchecked := rfl

@[simp] theorem unchecked_status (n : ℕ) (chk : Bool) (p : Script V C R α) :
    (status n chk p).unchecked = status n false p.unchecked := rfl

@[simp] theorem unchecked_call (c : C) (chk : Bool) (k : R → Script V C R α) :
    (call c chk k).unchecked = call c false fun r => (k r).unchecked := rfl

@[simp] theorem unchecked_bind (p : Script V C R α) (f : α → Script V C R β) :
    (p >>= f).unchecked = p.unchecked >>= fun a => (f a).unchecked := by
  induction p with
  | ret a => rfl
  | exit n m => rfl
  | assign g p ih => simp only [assign_bind, unchecked_assign, ih]
  | status n chk p ih => simp only [status_bind, unchecked_status, ih]
  | call c chk k ih => simp only [call_bind, unchecked_call, ih]

/-- How a finished script ended. -/
inductive Outcome (α : Type)
  /-- It ran to its end. -/
  | ret (a : α)
  /-- It left with `exit` or through `set -e`. -/
  | exit (status : ℕ) (msg : String)
  deriving DecidableEq

/-- The outcome of a script that has no command left to run. -/
def outcome? : Script V C R α → Option (Outcome α)
  | ret a => some (.ret a)
  | exit n m => some (.exit n m)
  | _ => none

@[simp] theorem outcome?_ret (a : α) : (ret a : Script V C R α).outcome? = some (.ret a) := rfl

@[simp] theorem outcome?_exit (n : ℕ) (m : String) :
    (exit n m : Script V C R α).outcome? = some (.exit n m) := rfl

@[simp] theorem outcome?_assign (f : V → V) (p : Script V C R α) :
    (assign f p).outcome? = none := rfl

@[simp] theorem outcome?_status (n : ℕ) (chk : Bool) (p : Script V C R α) :
    (status n chk p).outcome? = none := rfl

@[simp] theorem outcome?_call (c : C) (chk : Bool) (k : R → Script V C R α) :
    (call c chk k).outcome? = none := rfl

theorem eq_ret_of_outcome? {p : Script V C R α} {a : α} (h : p.outcome? = some (.ret a)) :
    p = ret a := by
  cases p <;> simp_all

/-! ### The commands a script can run -/

/-- Every command that the script can run, whatever the replies, satisfies `P`. -/
def Calls (P : C → Prop) : Script V C R α → Prop
  | ret _ => True
  | exit _ _ => True
  | assign _ p => p.Calls P
  | status _ _ p => p.Calls P
  | call c _ k => P c ∧ ∀ r, (k r).Calls P

variable {P : C → Prop}

@[simp] theorem calls_ret (a : α) : (ret a : Script V C R α).Calls P := trivial

@[simp] theorem calls_exit (n : ℕ) (m : String) : (exit n m : Script V C R α).Calls P := trivial

@[simp] theorem calls_assign {f : V → V} {p : Script V C R α} :
    (assign f p).Calls P ↔ p.Calls P := Iff.rfl

@[simp] theorem calls_status {n : ℕ} {chk : Bool} {p : Script V C R α} :
    (status n chk p).Calls P ↔ p.Calls P := Iff.rfl

@[simp] theorem calls_call {c : C} {chk : Bool} {k : R → Script V C R α} :
    (call c chk k).Calls P ↔ P c ∧ ∀ r, (k r).Calls P := Iff.rfl

/-- The value `a` is one that the script can return, whatever the replies. -/
def Gives : Script V C R α → α → Prop
  | ret b, a => a = b
  | exit _ _, _ => False
  | assign _ p, a => p.Gives a
  | status _ _ p, a => p.Gives a
  | call _ _ k, a => ∃ r, (k r).Gives a

theorem gives_bind {p : Script V C R α} {f : α → Script V C R β} {b : β} :
    (p >>= f).Gives b ↔ ∃ a, p.Gives a ∧ (f a).Gives b := by
  induction p with
  | ret a => simp [Gives]
  | exit n m => simp [Gives]
  | assign g p ih => exact ih
  | status n chk p ih => exact ih
  | call c chk k ih =>
    simp only [call_bind, Gives, ih]
    constructor
    · rintro ⟨r, a, ha, hb⟩; exact ⟨a, ⟨r, ha⟩, hb⟩
    · rintro ⟨a, ⟨r, ha⟩, hb⟩; exact ⟨r, a, ha, hb⟩

@[simp] theorem calls_bind {p : Script V C R α} {f : α → Script V C R β} :
    (p >>= f).Calls P ↔ p.Calls P ∧ ∀ a, p.Gives a → (f a).Calls P := by
  induction p with
  | ret b => simp [Gives]
  | exit n m => simp [Gives]
  | assign g p ih => simp [Gives, ih]
  | status n chk p ih => simp [Gives, ih]
  | call c chk k ih =>
    simp only [call_bind, calls_call, Gives, ih]
    constructor
    · rintro ⟨hc, h⟩
      exact ⟨⟨hc, fun r => (h r).1⟩, fun a ⟨r, ha⟩ => (h r).2 a ha⟩
    · rintro ⟨⟨hc, h⟩, h'⟩
      exact ⟨hc, fun r => ⟨h r, fun a ha => h' a ⟨r, ha⟩⟩⟩

@[simp] theorem calls_ite {c : Prop} [Decidable c] {p q : Script V C R α} :
    (if c then p else q).Calls P ↔ if c then p.Calls P else q.Calls P := by
  split <;> rfl

@[simp] theorem calls_cmd {c : C} : (cmd c : Script V C R R).Calls P ↔ P c := by
  simp [cmd]

@[simp] theorem calls_attempt {c : C} : (attempt c : Script V C R R).Calls P ↔ P c := by
  simp [attempt]

@[simp] theorem calls_setVar {f : V → V} : (setVar f : Script V C R Unit).Calls P := trivial

@[simp] theorem calls_yields {n : ℕ} : (yields n : Script V C R ℕ).Calls P := trivial

theorem calls_true (p : Script V C R α) : p.Calls fun _ => True := by
  induction p with
  | ret a => trivial
  | exit n m => trivial
  | assign g p ih => exact ih
  | status n chk p ih => exact ih
  | call c chk k ih => exact ⟨trivial, ih⟩

theorem Calls.mono {P' : C → Prop} {p : Script V C R α} (h : p.Calls P)
    (hP : ∀ c, P c → P' c) : p.Calls P' := by
  induction p with
  | ret a => trivial
  | exit n m => trivial
  | assign g p ih => exact ih h
  | status n chk p ih => exact ih h
  | call c chk k ih => exact ⟨hP c h.1, fun r => ih r (h.2 r)⟩

@[simp] theorem calls_unchecked {p : Script V C R α} : p.unchecked.Calls P ↔ p.Calls P := by
  induction p with
  | ret a => exact Iff.rfl
  | exit n m => exact Iff.rfl
  | assign g p ih => exact ih
  | status n chk p ih => exact ih
  | call c chk k ih => exact and_congr_right fun _ => forall_congr' ih

/-! ### The assignments a script can make -/

/-- Every assignment that the script can make, whatever the replies, satisfies `Q`. -/
def Assigns (Q : (V → V) → Prop) : Script V C R α → Prop
  | ret _ => True
  | exit _ _ => True
  | assign f p => Q f ∧ p.Assigns Q
  | status _ _ p => p.Assigns Q
  | call _ _ k => ∀ r, (k r).Assigns Q

variable {Q : (V → V) → Prop}

@[simp] theorem assigns_ret (a : α) : (ret a : Script V C R α).Assigns Q := trivial

@[simp] theorem assigns_exit (n : ℕ) (m : String) : (exit n m : Script V C R α).Assigns Q := trivial

@[simp] theorem assigns_assign {f : V → V} {p : Script V C R α} :
    (assign f p).Assigns Q ↔ Q f ∧ p.Assigns Q := Iff.rfl

@[simp] theorem assigns_status {n : ℕ} {chk : Bool} {p : Script V C R α} :
    (status n chk p).Assigns Q ↔ p.Assigns Q := Iff.rfl

@[simp] theorem assigns_call {c : C} {chk : Bool} {k : R → Script V C R α} :
    (call c chk k).Assigns Q ↔ ∀ r, (k r).Assigns Q := Iff.rfl

@[simp] theorem assigns_bind {p : Script V C R α} {f : α → Script V C R β} :
    (p >>= f).Assigns Q ↔ p.Assigns Q ∧ ∀ a, p.Gives a → (f a).Assigns Q := by
  induction p with
  | ret b => simp [Gives]
  | exit n m => simp [Gives]
  | assign g p ih => simp [Gives, ih, and_assoc]
  | status n chk p ih => simp [Gives, ih]
  | call c chk k ih =>
    simp only [call_bind, assigns_call, Gives, ih]
    constructor
    · intro h
      exact ⟨fun r => (h r).1, fun a ⟨r, ha⟩ => (h r).2 a ha⟩
    · rintro ⟨h, h'⟩ r
      exact ⟨h r, fun a ha => h' a ⟨r, ha⟩⟩

@[simp] theorem assigns_ite {c : Prop} [Decidable c] {p q : Script V C R α} :
    (if c then p else q).Assigns Q ↔ if c then p.Assigns Q else q.Assigns Q := by
  split <;> rfl

@[simp] theorem assigns_cmd {c : C} : (cmd c : Script V C R R).Assigns Q := fun _ => trivial

@[simp] theorem assigns_attempt {c : C} : (attempt c : Script V C R R).Assigns Q :=
  fun _ => trivial

@[simp] theorem assigns_setVar {f : V → V} : (setVar f : Script V C R Unit).Assigns Q ↔ Q f := by
  simp [setVar]

@[simp] theorem assigns_yields {n : ℕ} : (yields n : Script V C R ℕ).Assigns Q := trivial

theorem Assigns.mono {Q' : (V → V) → Prop} {p : Script V C R α} (h : p.Assigns Q)
    (hQ : ∀ f, Q f → Q' f) : p.Assigns Q' := by
  induction p with
  | ret a => trivial
  | exit n m => trivial
  | assign g p ih => exact ⟨hQ g h.1, ih h.2⟩
  | status n chk p ih => exact ih h
  | call c chk k ih => exact fun r => ih r (h r)

@[simp] theorem assigns_unchecked {p : Script V C R α} :
    p.unchecked.Assigns Q ↔ p.Assigns Q := by
  induction p with
  | ret a => exact Iff.rfl
  | exit n m => exact Iff.rfl
  | assign g p ih => exact and_congr_right fun _ => ih
  | status n chk p ih => exact ih
  | call c chk k ih => exact forall_congr' ih

/-! ### Scripts that do not leave by themselves -/

/-- The script never runs `exit`. -/
def NoExit : Script V C R α → Prop
  | ret _ => True
  | exit _ _ => False
  | assign _ p => p.NoExit
  | status _ _ p => p.NoExit
  | call _ _ k => ∀ r, (k r).NoExit

theorem NoExit.bind {p : Script V C R α} {f : α → Script V C R β} (hp : p.NoExit)
    (hf : ∀ a, (f a).NoExit) : (p >>= f).NoExit := by
  induction p with
  | ret a => exact hf a
  | exit n m => exact hp.elim
  | assign g p ih => exact ih hp
  | status n chk p ih => exact ih hp
  | call c chk k ih => exact fun r => ih r (hp r)

end Script

end Shell

end InstallKit
