import Mathlib.Data.Char
import Mathlib.Data.List.Lex

/-!
# UTF-8 keeps the order

Texts are ordered by their characters and byte strings by their bytes, both from the left.  The
encoding of a greater character is greater at a place where both encodings have a byte
(`utf8EncodeChar_append_lt`), and so the encoding of texts keeps their order (`utf8_lt_iff`): a
program that compares bytes sorts texts by their characters.
-/

namespace InstallKit

/-- A text in UTF-8. -/
def utf8 (t : List Char) : List UInt8 := t.flatMap String.utf8EncodeChar

theorem ofNat_lt_ofNat {a b : ℕ} (ha : a < 256) (hb : b < 256) :
    UInt8.ofNat a < UInt8.ofNat b ↔ a < b := by
  rw [UInt8.lt_iff_toNat_lt, UInt8.toNat_ofNat', UInt8.toNat_ofNat', Nat.mod_eq_of_lt ha,
    Nat.mod_eq_of_lt hb]

theorem ofNat_eq_ofNat {a b : ℕ} (ha : a < 256) (hb : b < 256) :
    UInt8.ofNat a = UInt8.ofNat b ↔ a = b := by
  rw [← UInt8.toNat_inj, UInt8.toNat_ofNat', UInt8.toNat_ofNat', Nat.mod_eq_of_lt ha,
    Nat.mod_eq_of_lt hb]

/-- **Two characters**: whatever follows them, their bytes decide. -/
theorem utf8EncodeChar_append_lt {c d : Char} (h : c < d) (s t : List UInt8) :
    String.utf8EncodeChar c ++ s < String.utf8EncodeChar d ++ t := by
  have hlt : c.val.toNat < d.val.toNat := h
  have hd : d.val.toNat < 0x110000 := by
    rcases d.valid with hv | hv
    · exact lt_trans hv (by decide)
    · exact hv.2
  simp only [String.utf8EncodeChar]
  generalize c.val.toNat = v at *
  generalize d.val.toNat = w at *
  have h12 : ∀ n : ℕ, n / 4096 = n / 64 / 64 := fun n => by omega
  have h18 : ∀ n : ℕ, n / 262144 = n / 64 / 64 / 64 := fun n => by omega
  simp only [h12, h18]
  -- the first bytes of encodings of different lengths are in different ranges
  split_ifs <;> simp only [List.cons_append, List.nil_append, List.cons_lt_cons_iff] <;>
    simp (disch := omega) only [ofNat_lt_ofNat, ofNat_eq_ofNat] <;> omega

theorem utf8_lt {s t : List Char} (h : s < t) : utf8 s < utf8 t := by
  induction s generalizing t with
  | nil =>
    cases t with
    | nil => exact absurd h (List.not_lt_nil _)
    | cons d t =>
      obtain ⟨b, bs, hb⟩ := List.exists_cons_of_ne_nil (String.utf8EncodeChar_ne_nil (c := d))
      rw [utf8, utf8, List.flatMap_nil, List.flatMap_cons, hb, List.cons_append]
      exact List.nil_lt_cons _ _
  | cons c s ih =>
    cases t with
    | nil => exact absurd h (List.not_lt_nil _)
    | cons d t =>
      rw [utf8, utf8, List.flatMap_cons, List.flatMap_cons]
      rcases List.cons_lt_cons_iff.1 h with hcd | ⟨rfl, hst⟩
      · exact utf8EncodeChar_append_lt hcd _ _
      · exact List.append_left_lt (ih hst)

/-- **UTF-8 keeps the order.** -/
theorem utf8_lt_iff {s t : List Char} : utf8 s < utf8 t ↔ s < t := by
  refine ⟨fun h => ?_, utf8_lt⟩
  rcases lt_trichotomy s t with hlt | rfl | hgt
  · exact hlt
  · exact absurd h (List.lt_irrefl _)
  · exact absurd h (List.lt_asymm (utf8_lt hgt))

end InstallKit
