import InstallKit.Config.Validate

/-!
# Values of a property list in Python

What `==`, `is`, `in`, a loop and `str.split` make of a value that may be of any type.  `splitWords`
undoes a line of words joined by blanks (`splitWords_unwords`).
-/

namespace InstallKit

namespace Config

open Sources

/-- `value is b` -/
def isBool (b : Bool) : Option Plist → Bool
  | some (.bool b') => b' = b
  | _ => false

/-- `value == t` -/
def isText (t : Text) : Option Plist → Bool
  | some (.str s) => s = t
  | _ => false

/-- `value == b` -/
def isBytes (b : Bytes) : Option Plist → Bool
  | some (.data b') => b' = b
  | _ => false

/-- A key as an item.  What is no string has nothing that a program could look into, so it does not
matter which of these values it is. -/
def keyItem : Key → Plist
  | .str k => .str k.toList
  | .other id => .uid id

/-- What a loop over a value runs through. -/
def iterate : Plist → Option (List Plist)
  | .array xs => some xs
  | .dict kvs => some (kvs.map fun kv => keyItem kv.1)
  | .str s => some (s.map fun c => .str [c])
  | .data b => some (b.map fun x => .int x.toNat)
  | _ => none

/-- Whether a value can be in a set. -/
def hashable : Plist → Bool
  | .array _ | .dict _ => false
  | _ => true

/-- `t in values` -/
def mentions (t : Text) (values : List Plist) : Bool := values.any fun v => isText t (some v)

/-! ### Words -/

/-- `" ".join(words)` -/
def unwords (words : List Text) : Text := [' '].intercalate words

/-- A word of a text. -/
def IsWord (w : Text) : Prop := w ≠ [] ∧ ∀ c ∈ w, isSpace c = false

theorem isWord_of_mem_splitWords {t w : Text} (h : w ∈ splitWords t) : IsWord w := by
  obtain ⟨hmem, hne⟩ := List.mem_filter.1 h
  exact ⟨of_decide_eq_true hne, eq_false_of_mem_splitOnP hmem⟩

/-- **Joined words are split again.** -/
theorem splitWords_unwords {words : List Text} (h : ∀ w ∈ words, IsWord w) :
    splitWords (unwords words) = words := by
  induction words with
  | nil => rfl
  | cons w words ih =>
    obtain ⟨⟨hne, hw⟩, hwords⟩ := List.forall_mem_cons.1 h
    cases words with
    | nil =>
      have hsingle : unwords [w] = w := by simp [unwords]
      rw [hsingle, splitWords, List.splitOnP_eq_singleton hw]
      simp [hne]
    | cons w' words =>
      have hcons : unwords (w :: w' :: words) = w ++ ' ' :: unwords (w' :: words) := by
        simp [unwords, List.intercalate]
      have hspace : isSpace ' ' = true := by decide
      rw [hcons, splitWords, List.splitOnP_append_cons_of_forall_mem hw _ hspace,
        List.filter_cons_of_pos (by simpa using hne)]
      exact congrArg (w :: ·) (ih hwords)

end Config

end InstallKit
