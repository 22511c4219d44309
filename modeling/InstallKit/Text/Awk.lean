import Mathlib.Algebra.Ring.Nat
import Mathlib.Data.Nat.Log
import Mathlib.Order.WithBot
import InstallKit.Sources.Text

/-!
# Words and numbers in `awk`

A program of `awk` sees the words of a line, and its numbers are of double precision: a whole number
is rounded to 53 binary digits (`round`), half to even, and from about `2 ^ 1024` on it is infinite.

* `round_eq_self` : up to `2 ^ 53` nothing is rounded.
* `words_captured` : the words at the beginnings of the lines are the same behind a command
  substitution, which cuts off the newlines at the end.
-/

namespace InstallKit

namespace Awk

open Sources

/-! ### Words -/

/-- What separates words. -/
def isBlank (c : Char) : Bool := c ∈ [' ', '\t', '\n']

/-- `$1` -/
def firstField (t : Text) : Text := (t.dropWhile isBlank).takeWhile fun c => !isBlank c

/-- `$(...)` -/
def captured (t : Text) : Text := t.rdropWhile (· = '\n')

/-- The words that the lines begin with. -/
def firstFields (t : Text) : List Text := ((lines t).map firstField).filter (· ≠ [])

/-! ### Numbers -/

/-- The quotient, rounded to the nearest number, half to even. -/
def roundDiv (n d : ℕ) : ℕ :=
  if 2 * (n % d) < d ∨ 2 * (n % d) = d ∧ n / d % 2 = 0 then n / d else n / d + 1

/-- The distance of the doubles around a number. -/
def ulp (n : ℕ) : ℕ := 2 ^ (Nat.log 2 n - 52)

/-- The nearest double, if the exponent had no bound. -/
def round (n : ℕ) : ℕ := roundDiv n (ulp n) * ulp n

/-- The exponent from which on a double is infinite.  It is irreducible, so that only the kernel
computes the power. -/
@[irreducible] def maxExponent : ℕ := 1024

/-- A whole number in double precision. -/
def double (n : ℕ) : WithTop ℕ := if round n < 2 ^ maxExponent then .some (round n) else ⊤

/-- The number that digits write. -/
def value (digits : Text) : ℕ := digits.foldl (fun n c => 10 * n + (c.toNat - '0'.toNat)) 0

/-- `digits + 0` -/
def number (digits : Text) : WithTop ℕ := double (value digits)

/-- **Small numbers are exact.** -/
theorem round_eq_self {n : ℕ} (h : n ≤ 2 ^ 53) : round n = n := by
  rcases h.lt_or_eq with hlt | rfl
  · have hulp : ulp n = 1 := by
      have hlog : Nat.log 2 n < 53 := Nat.log_lt_of_lt_pow' (by decide) hlt
      rw [ulp, show Nat.log 2 n - 52 = 0 by omega, pow_zero]
    rw [round, hulp, roundDiv]
    simp [Nat.mod_one]
  · rw [round, ulp, Nat.log_pow (by decide)]
    decide

theorem double_of_le {n : ℕ} (h : n ≤ 2 ^ 53) : double n = .some n := by
  have hpow : 2 ^ 53 < 2 ^ maxExponent := Nat.pow_lt_pow_of_lt Nat.one_lt_two (by decide +kernel)
  rw [double, if_pos ((round_eq_self h).trans_lt (h.trans_lt hpow)), round_eq_self h]

/-! ### Lines -/

section

variable {s t : Text}

/-- The words at the beginnings of the pieces between newlines. -/
def pieceFields (t : Text) : List Text :=
  ((t.splitOnP (· = '\n')).map firstField).filter (· ≠ [])

theorem pieceFields_append : pieceFields (s ++ '\n' :: t) = pieceFields s ++ pieceFields t := by
  rw [pieceFields, List.splitOnP_append_cons _ _ (by simp), List.map_append, List.filter_append]
  rfl

theorem pieceFields_nil : pieceFields [] = [] := by decide

/-- An empty line has no word. -/
theorem firstFields_eq (t : Text) : firstFields t = pieceFields t := by
  simp only [firstFields, pieceFields, lines, splitLines]
  split
  · rename_i hlast
    obtain ⟨init, hinit⟩ := List.getLast?_eq_some_iff.1 hlast
    rw [hinit, List.dropLast_concat, List.map_append, List.filter_append]
    have hempty : ([([] : Text)].map firstField).filter (· ≠ []) = [] := by decide
    rw [hempty, List.append_nil]
  · rfl

/-- **The newlines at the end** are of no consequence. -/
theorem words_captured (t : Text) : firstFields (captured t ++ ['\n']) = firstFields t := by
  have hcut : pieceFields (captured t) = pieceFields t := by
    induction t using List.reverseRecOn with
    | nil => rfl
    | append_singleton t c ih =>
      by_cases hc : c = '\n'
      · rw [captured, List.rdropWhile_concat_pos _ _ _ (by simpa using hc), ← captured, ih, hc,
          pieceFields_append, pieceFields_nil, List.append_nil]
      · rw [captured, List.rdropWhile_concat_neg _ _ _ (by simpa using hc)]
  rw [firstFields_eq, firstFields_eq, pieceFields_append, pieceFields_nil, List.append_nil, hcut]

end

end Awk

end InstallKit
