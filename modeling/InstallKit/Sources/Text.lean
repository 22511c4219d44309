import Mathlib.Data.List.DropRight
import Mathlib.Data.Nat.Notation

/-!
# Text files of lines

Texts are lists of characters.  `splitLines p` cuts a text at the characters that satisfy `p` and
drops what follows the last one if it is empty: this is `str.splitlines` of Python, with its own
idea of what a line break is, and the reading of lines by `sed`, `awk` and `bash`, with `'\n'`.
Both take apart what `unlines` puts together (`splitLines_unlines`).
-/

namespace InstallKit

namespace Sources

/-- A text. -/
abbrev Text := List Char

/-- A text that is spelled out in a script.  It is irreducible, so that only the kernel takes it
apart. -/
@[irreducible] def txt (s : String) : Text := s.toList

/-- Decided along the text, not by a search through all characters. -/
instance (priority := high) decidableForallChar (p : Char → Prop) [DecidablePred p] (t : Text) :
    Decidable (∀ c ∈ t, p c) := List.decidableBAll p t

/-- What membership in a list of texts is decided with. -/
instance (priority := high) lawfulBEqText : LawfulBEq Text := inferInstance

/-- The number of a character that was made out of a number. -/
theorem toNat_charOfNat {n : ℕ} (h : n.isValidChar) : (Char.ofNat n).toNat = n := by
  have hchar : Char.ofNat n = Char.ofNatAux n h := dif_pos h
  rw [hchar]
  rfl

/-- The pieces of a text between the characters that satisfy `p`, without an empty last piece. -/
def splitLines (p : Char → Bool) (t : Text) : List Text :=
  let pieces := t.splitOnP p
  if pieces.getLast? = some [] then pieces.dropLast else pieces

/-- The line breaks of `str.splitlines`. -/
def isLineBreak (c : Char) : Bool :=
  c ∈ ['\n', '\x0b', '\x0c', '\r', '\x1c', '\x1d', '\x1e', '\u0085', '\u2028', '\u2029']

/-- The white space of `str.strip`. -/
def isPySpace (c : Char) : Bool :=
  c ∈ ['\t', '\n', '\x0b', '\x0c', '\r', '\x1c', '\x1d', '\x1e', '\x1f', ' ', '\u0085', '\u00a0',
    '\u1680', '\u2000', '\u2001', '\u2002', '\u2003', '\u2004', '\u2005', '\u2006', '\u2007',
    '\u2008', '\u2009', '\u200a', '\u2028', '\u2029', '\u202f', '\u205f', '\u3000']

/-- `str.strip` of the characters that satisfy `p`. -/
def strip (p : Char → Bool) (t : Text) : Text := (t.dropWhile p).rdropWhile p

/-- `read_text().splitlines()`. -/
def pySplitlines (t : Text) : List Text := splitLines isLineBreak t

/-- The lines that `sed`, `awk` and `bash` read. -/
def lines (t : Text) : List Text := splitLines (· = '\n') t

/-- Every line with its newline. -/
def unlines (ls : List Text) : Text := (ls.map (· ++ ['\n'])).flatten

@[simp] theorem unlines_nil : unlines [] = [] := rfl

theorem unlines_cons (l : Text) (ls : List Text) : unlines (l :: ls) = l ++ '\n' :: unlines ls := by
  simp [unlines]

theorem unlines_append (ls ls' : List Text) : unlines (ls ++ ls') = unlines ls ++ unlines ls' := by
  simp [unlines]

/-- The pieces of the lines, one line after the other. -/
theorem splitOnP_unlines {p : Char → Bool} (hp : p '\n' = true) (ls : List Text) :
    (unlines ls).splitOnP p = ls.flatMap (List.splitOnP p) ++ [[]] := by
  induction ls with
  | nil => rfl
  | cons l ls ih =>
    rw [unlines_cons, List.splitOnP_append_cons _ _ hp, ih, List.flatMap_cons, List.append_assoc]

theorem splitLines_unlines_eq {p : Char → Bool} (hp : p '\n' = true) (ls : List Text) :
    splitLines p (unlines ls) = ls.flatMap (List.splitOnP p) := by
  simp [splitLines, splitOnP_unlines hp]

theorem splitOnP_of_not {p : Char → Bool} {t : Text} (h : ∀ c ∈ t, p c = false) :
    t.splitOnP p = [t] :=
  List.splitOnP_eq_singleton fun c hc => by simp [h c hc]

/-- **Round trip**: lines without a break in them are read back. -/
theorem splitLines_unlines {p : Char → Bool} (hp : p '\n' = true) {ls : List Text}
    (h : ∀ l ∈ ls, ∀ c ∈ l, p c = false) : splitLines p (unlines ls) = ls := by
  rw [splitLines_unlines_eq hp]
  induction ls with
  | nil => rfl
  | cons l ls ih =>
    rw [List.flatMap_cons, splitOnP_of_not (h l List.mem_cons_self),
      ih fun l' hl' => h l' (List.mem_cons_of_mem _ hl')]
    rfl

/-- A text without a break goes to the first piece. -/
theorem splitOnP_append_of_not {p : Char → Bool} {a : Text} (b : Text)
    (ha : ∀ c ∈ a, p c = false) : (a ++ b).splitOnP p = (b.splitOnP p).modifyHead (a ++ ·) := by
  induction a with
  | nil => cases h : b.splitOnP p <;> simp [h]
  | cons c a ih =>
    rw [List.forall_mem_cons] at ha
    rw [List.cons_append, List.splitOnP_cons_eq_if_modifyHead, if_neg (by simp [ha.1]), ih ha.2]
    cases b.splitOnP p <;> rfl

/-- No break is left in the pieces. -/
theorem eq_false_of_mem_splitOnP {p : Char → Bool} {t l : Text} (hl : l ∈ t.splitOnP p) :
    ∀ c ∈ l, p c = false := by
  induction t generalizing l with
  | nil =>
    obtain rfl : l = [] := by simpa using hl
    simp
  | cons c t ih =>
    rw [List.splitOnP_cons_eq_if_modifyHead] at hl
    split at hl
    · rcases List.mem_cons.1 hl with rfl | hl
      · simp
      · exact ih hl
    · rename_i hc
      cases hs : t.splitOnP p with
      | nil =>
        rw [hs] at hl
        cases hl
      | cons m ms =>
        rw [hs, List.modifyHead_cons] at hl
        rcases List.mem_cons.1 hl with rfl | hl
        · refine List.forall_mem_cons.2 ⟨by simpa using hc, ih ?_⟩
          rw [hs]
          exact List.mem_cons_self
        · refine ih ?_
          rw [hs]
          exact List.mem_cons_of_mem _ hl

/-- No break is left in the lines. -/
theorem eq_false_of_mem_splitLines {p : Char → Bool} {t l : Text} (hl : l ∈ splitLines p t) :
    ∀ c ∈ l, p c = false := by
  simp only [splitLines] at hl
  split at hl
  · exact eq_false_of_mem_splitOnP (((List.dropLast_sublist _).subset hl))
  · exact eq_false_of_mem_splitOnP hl

/-- `'\n'.join(ls) + '\n'`. -/
def joinLines (ls : List Text) : Text := ['\n'].intercalate ls ++ ['\n']

theorem joinLines_eq {ls : List Text} (h : ls ≠ []) : joinLines ls = unlines ls := by
  induction ls with
  | nil => exact absurd rfl h
  | cons l ls ih =>
    cases ls with
    | nil => simp [joinLines, unlines]
    | cons l' ls =>
      have := ih (List.cons_ne_nil _ _)
      rw [unlines_cons, ← this]
      simp [joinLines, List.intercalate]

end Sources

end InstallKit
