import InstallKit.Sources.Text

/-!
# Strings from outside in Python

Arguments and variables of the environment are decoded with `surrogateescape`: a byte that does not
belong to a character becomes a lone surrogate.  A `Text` has no surrogates, and an encoder that is
strict takes nothing else.
-/

namespace InstallKit

namespace Sources

/-- A character of a string, or the surrogate of a byte from 128 on. -/
inductive PyChar
  | char (c : Char)
  | surrogate (byte : Fin 128)
  deriving DecidableEq

/-- A string. -/
abbrev PyText := List PyChar

namespace PyText

/-- A text as a string. -/
def ofText (t : Text) : PyText := t.map .char

/-- The text of a string without surrogates. -/
def text? : PyText → Option Text
  | [] => some []
  | .char c :: s => (text? s).map (c :: ·)
  | .surrogate _ :: _ => none

@[simp] theorem text?_ofText (t : Text) : text? (ofText t) = some t := by
  induction t with
  | nil => rfl
  | cons c t ih => rw [ofText, List.map_cons, text?, ← ofText, ih, Option.map_some]

theorem ofText_injective : Function.Injective ofText :=
  List.map_injective_iff.2 fun _ _ h => PyChar.char.inj h

theorem ofText_append (s t : Text) : ofText (s ++ t) = ofText s ++ ofText t := List.map_append

theorem text?_eq_some {s : PyText} {t : Text} : text? s = some t ↔ s = ofText t := by
  constructor
  · intro h
    induction s generalizing t with
    | nil =>
      obtain rfl := Option.some.inj h
      rfl
    | cons c s ih =>
      cases c with
      | char c =>
        rw [text?] at h
        obtain ⟨t', ht, rfl⟩ := Option.map_eq_some_iff.1 h
        rw [ih ht]
        rfl
      | surrogate byte => cases h
  · rintro rfl
    exact text?_ofText t

/-- A string as a text, with the replacement character for every surrogate.  Neither of the two
has a lower case, is white space or an ASCII character. -/
def plain (s : PyText) : Text :=
  s.map fun
    | .char c => c
    | .surrogate _ => '\ufffd'

@[simp] theorem plain_ofText (t : Text) : plain (ofText t) = t := by
  rw [plain, ofText, List.map_map]
  exact List.map_id t

/-- A string as a text that keeps the surrogates: each becomes `U+0000`, which no argument and no
variable of the environment has, and a character that tells it from the others.  Neither of the two
is white space, part of a path's syntax or an ASCII digit or letter. -/
def escaped (s : PyText) : Text :=
  s.flatMap fun
    | .char c => [c]
    | .surrogate byte => ['\x00', Char.ofNat (0x2800 + byte)]

theorem escaped_char (c : Char) (s : PyText) : escaped (.char c :: s) = c :: escaped s := rfl

@[simp] theorem escaped_ofText (t : Text) : escaped (ofText t) = t := by
  induction t with
  | nil => rfl
  | cons c t ih => rw [ofText, List.map_cons, escaped_char, ← ofText, ih]

/-- The second character of a surrogate tells them apart. -/
theorem ofNat_surrogate_injective :
    Function.Injective fun byte : Fin 128 => Char.ofNat (0x2800 + byte) := by
  have hvalid : ∀ byte : Fin 128, (0x2800 + (byte : ℕ)).isValidChar := fun byte =>
    Or.inl (lt_of_lt_of_le (Nat.add_lt_add_left byte.isLt _) (by decide))
  intro b b' h
  have htoNat : (Char.ofNat (0x2800 + b)).toNat = (Char.ofNat (0x2800 + b')).toNat :=
    congrArg Char.toNat h
  rw [toNat_charOfNat (hvalid b), toNat_charOfNat (hvalid b')] at htoNat
  exact Fin.ext (Nat.add_left_cancel htoNat)

/-- **Nothing is lost** of a string without `U+0000`. -/
theorem escaped_injective {s s' : PyText} (hs : .char '\x00' ∉ s) (hs' : .char '\x00' ∉ s')
    (h : escaped s = escaped s') : s = s' := by
  induction s generalizing s' with
  | nil =>
    rcases s' with _ | ⟨_ | _, s'⟩
    · rfl
    · cases h
    · cases h
  | cons x s ih =>
    rw [List.mem_cons, not_or] at hs
    rcases s' with _ | ⟨x', s'⟩
    · cases x <;> cases h
    -- a surrogate begins with the character that is in neither text
    rw [List.mem_cons, not_or] at hs'
    cases x with
    | char c =>
      cases x' with
      | char c' =>
        obtain ⟨rfl, hrest⟩ := List.cons.inj h
        rw [ih hs.2 hs'.2 hrest]
      | surrogate b' =>
        obtain ⟨rfl, -⟩ := List.cons.inj h
        exact absurd rfl hs.1
    | surrogate b =>
      cases x' with
      | char c' =>
        obtain ⟨rfl, -⟩ := List.cons.inj h
        exact absurd rfl hs'.1
      | surrogate b' =>
        obtain ⟨-, htail⟩ := List.cons.inj h
        obtain ⟨hbyte, hrest⟩ := List.cons.inj htail
        rw [ofNat_surrogate_injective hbyte, ih hs.2 hs'.2 hrest]

end PyText

end Sources

end InstallKit
