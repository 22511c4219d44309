import InstallKit.Sources.Text

/-!
# Reading texts in Python

The methods of `str` with which `generic_pc_profile.py` takes reports apart, the splitting at empty
lines, and `int`.
-/

namespace InstallKit

namespace Sources

/-- `t.split()` -/
def pyWords (t : Text) : List Text := (t.splitOnP isPySpace).filter (· ≠ [])

/-- `" ".join(ws)` -/
def joinWords (ws : List Text) : Text := [' '].intercalate ws

/-- `line.split(":", 1)` of a line with a colon. -/
def keyValue? (line : Text) : Option (Text × Text) :=
  if ':' ∈ line then some (line.takeWhile (· ≠ ':'), (line.dropWhile (· ≠ ':')).tail) else none

/-- The white space at the start, up to its last newline. -/
def emptyLines (t : Text) : Text := (t.takeWhile isPySpace).rdropWhile (· ≠ '\n')

/-- `re.split(r"\n\s*\n", t)`: a newline begins a separator when only white space stands between it
and a later one.  What is left of a separator is skipped, and the piece so far is reversed. -/
def splitParagraphsFrom : ℕ → Text → Text → List Text
  | _, piece, [] => [piece.reverse]
  | skip + 1, piece, _ :: t => splitParagraphsFrom skip piece t
  | 0, piece, c :: t =>
    if c = '\n' ∧ emptyLines t ≠ [] then
      piece.reverse :: splitParagraphsFrom (emptyLines t).length [] t
    else splitParagraphsFrom 0 (c :: piece) t

def splitParagraphs (t : Text) : List Text := splitParagraphsFrom 0 [] t

example : splitParagraphs (txt "a\nb\n \n\n c\n") = [txt "a\nb", txt " c\n"] := by decide +kernel

/-- The zeros of the decimal digits of Unicode; the other digits follow them. -/
def decimalZeros : List ℕ :=
  [0x30, 0x660, 0x6f0, 0x7c0, 0x966, 0x9e6, 0xa66, 0xae6, 0xb66, 0xbe6, 0xc66, 0xce6, 0xd66,
    0xde6, 0xe50, 0xed0, 0xf20, 0x1040, 0x1090, 0x17e0, 0x1810, 0x1946, 0x19d0, 0x1a80, 0x1a90,
    0x1b50, 0x1bb0, 0x1c40, 0x1c50, 0xa620, 0xa8d0, 0xa900, 0xa9d0, 0xa9f0, 0xaa50, 0xabf0,
    0xff10, 0x104a0, 0x10d30, 0x11066, 0x110f0, 0x11136, 0x111d0, 0x112f0, 0x11450, 0x114d0,
    0x11650, 0x116c0, 0x11730, 0x118e0, 0x11950, 0x11c50, 0x11d50, 0x11da0, 0x16a60, 0x16ac0,
    0x16b50, 0x1d7ce, 0x1d7d8, 0x1d7e2, 0x1d7ec, 0x1d7f6, 0x1e140, 0x1e2f0, 0x1e950, 0x1fbf0]

def digit? (c : Char) : Option ℕ :=
  (decimalZeros.find? fun z => z ≤ c.toNat && c.toNat < z + 10).map (c.toNat - ·)

/-- The digits of a number, which may have single underscores between them. -/
def digits? (t : Text) : Option (List ℕ) :=
  let pieces := t.splitOn '_'
  if [] ∈ pieces then none else pieces.flatten.mapM digit?

/-- The most digits that `int` converts. -/
def maxDigits : ℕ := 4300

/-- A number without a sign. -/
def pyNat (t : Text) : Option ℕ := do
  let digits ← digits? t
  if maxDigits < digits.length then none else some (digits.foldl (fun n d => 10 * n + d) 0)

/-- `int(t)`; `none` is a `ValueError`. -/
def pyInt (t : Text) : Option ℤ :=
  match strip isPySpace t with
  | '-' :: t => (pyNat t).map fun n => -(n : ℤ)
  | '+' :: t => (pyNat t).map fun n => (n : ℤ)
  | t => (pyNat t).map fun n => (n : ℤ)

example : pyInt (txt " -1_2\n") = some (-12) := by decide +kernel

end Sources

end InstallKit
