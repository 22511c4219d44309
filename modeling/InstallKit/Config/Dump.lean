import InstallKit.Config.Tree
import InstallKit.Config.Plist
import Mathlib.Algebra.Group.Int.Defs

/-!
# `plistlib.dump`

The property lists are written as XML, into a file that is already open.  A value that XML cannot
hold raises an exception in the middle of the file: a text with a control character, an integer of
more than 64 bits, a `UID`, or a key that is no string.  A binary property list can hold all of them.
The writer is recursive, so that values which are nested too deep use up the stack of the interpreter.

* `raised_dump` : the exception is raised just if such a value is in the tree (`writable`);
* `writableBut_of_writes`, `writable_of_writes` : whether a tree can be written after assignments
  depends on what they leave of it (`writableBut`) and on the values that were assigned.
-/

namespace InstallKit

namespace Plist

open Sources

/-! ### What can be written -/

/-- No character matches `_controlCharPat`. -/
def controlFree (t : Text) : Bool :=
  t.all fun c => 0x20 ≤ c.toNat || c = '\t' || c = '\n' || c = '\r'

@[simp] theorem controlFree_nil : controlFree [] = true := rfl

@[simp] theorem controlFree_cons (c : Char) (t : Text) : controlFree (c :: t) =
    ((0x20 ≤ c.toNat || c = '\t' || c = '\n' || c = '\r') && controlFree t) := rfl

@[simp] theorem controlFree_append (s t : Text) :
    controlFree (s ++ t) = (controlFree s && controlFree t) := List.all_append

@[simp] theorem controlFree_txt (s : String) : controlFree (txt s) = controlFree s.toList := by
  rw [txt]

/-- The elements of the file. -/
inductive Element
  | key
  | boolean
  | integer
  | real
  | date
  | string
  | data
  | array
  | dict
  deriving DecidableEq

/-- The stack of the interpreter.  An element that is as many levels deep as there is room for it
raises a `RecursionError`; the elements need different numbers of calls. -/
structure Stack where
  room : Element → ℕ
  /-- The programs themselves put values into each other less than eight levels deep. -/
  eight : ∀ e, 8 ≤ room e

namespace Stack

/-- There is room for an element at a level. -/
def fits (s : Stack) (level : ℕ) (e : Element) : Bool := level < s.room e

@[simp] theorem fits_of_lt (s : Stack) {level : ℕ} {e : Element} (h : level < 8) :
    s.fits level e = true := decide_eq_true (lt_of_lt_of_le h (s.eight e))

/-- A stack for the usual thousand calls, of which a level takes two. -/
def usual : Stack := ⟨fun _ => 480, fun _ => by decide⟩

end Stack

/-- A key can be written. -/
def keyWritable (s : Stack) (level : ℕ) : Key → Bool
  | .str k => s.fits level .key && controlFree k.toList
  | .other _ => false

mutual

/-- `write_value` raises nothing. -/
def writable (s : Stack) (level : ℕ) : Plist → Bool
  | .bool _ => s.fits level .boolean
  | .int n => s.fits level .integer && (-2 ^ 63 ≤ n && n < 2 ^ 64)
  | .real _ => s.fits level .real
  | .uid _ => false
  | .date _ => s.fits level .date
  | .str t => s.fits level .string && controlFree t
  | .data _ => s.fits level .data
  | .array xs => s.fits level .array && allWritable s (level + 1) xs
  | .dict kvs => s.fits level .dict && itemsWritable s (level + 1) kvs

def allWritable (s : Stack) (level : ℕ) : List Plist → Bool
  | [] => true
  | x :: xs => x.writable s level && allWritable s level xs

def itemsWritable (s : Stack) (level : ℕ) : List (Key × Plist) → Bool
  | [] => true
  | (k, v) :: kvs => keyWritable s level k && v.writable s level && itemsWritable s level kvs

end

/-! ### The writer -/

/-- What was written, and whether an exception ended it. -/
structure Written where
  text : Text
  raised : Bool
  deriving DecidableEq

/-- One step after the other, up to the exception. -/
def Written.andThen (a b : Written) : Written :=
  if a.raised then a else ⟨a.text ++ b.text, b.raised⟩

/-- An exception before anything is written. -/
def raise : Written := ⟨[], true⟩

/-- `writeln`, with its indent. -/
def writeln (level : ℕ) (line : Text) : Written := ⟨List.replicate level '\t' ++ line ++ ['\n'], false⟩

/-- `<element>` -/
def openTag (element : Text) : Text := '<' :: element ++ ['>']

/-- `</element>` -/
def closeTag (element : Text) : Text := '<' :: '/' :: element ++ ['>']

/-- `simple_element` without a value. -/
def emptyElement (level : ℕ) (element : Text) : Written := writeln level ('<' :: element ++ ['/', '>'])

/-- `simple_element` with a value that has nothing to escape. -/
def plainElement (level : ℕ) (element value : Text) : Written :=
  writeln level (openTag element ++ value ++ closeTag element)

/-- The replacements of `_escape`. -/
def escape : Text → Text
  | [] => []
  | '\r' :: '\n' :: t => '\n' :: escape t
  | '\r' :: t => '\n' :: escape t
  | '&' :: t => txt "&amp;" ++ escape t
  | '<' :: t => txt "&lt;" ++ escape t
  | '>' :: t => txt "&gt;" ++ escape t
  | c :: t => c :: escape t

/-- What a reader of the file finds of a text: every line ends in `\n`. -/
def readBack : Text → Text
  | [] => []
  | '\r' :: '\n' :: t => '\n' :: readBack t
  | '\r' :: t => '\n' :: readBack t
  | c :: t => c :: readBack t

/-- The entities of `_escape`. -/
def entity (c : Char) : Text :=
  if c = '&' then txt "&amp;" else if c = '<' then txt "&lt;" else if c = '>' then txt "&gt;"
  else [c]

/-- The entities stand for the characters of the text that is read back. -/
theorem escape_eq (t : Text) : escape t = (readBack t).flatMap entity := by
  induction t using escape.induct with
  | case1 => rfl
  | case2 t ih => simp [escape, readBack, entity, ih]
  | case3 t h ih => simp [escape, readBack, entity, ih]
  | case4 t ih => simp [escape, readBack, entity, ih]
  | case5 t ih => simp [escape, readBack, entity, ih]
  | case6 t ih => simp [escape, readBack, entity, ih]
  | case7 c t h₁ h₂ h₃ h₄ h₅ ih =>
    rw [escape, readBack, List.flatMap_cons, ih, entity, if_neg h₃, if_neg h₄, if_neg h₅]
    · rfl
    all_goals assumption

/-- A text without carriage returns is read back as it is. -/
theorem readBack_eq_self {t : Text} (h : '\r' ∉ t) : readBack t = t := by
  induction t with
  | nil => rfl
  | cons c t ih =>
    rw [List.mem_cons, not_or] at h
    rw [readBack, ih h.2]
    · rintro _ rfl
      exact absurd rfl h.1
    · rintro rfl
      exact absurd rfl h.1

/-- No carriage return is read back. -/
theorem return_not_mem_readBack (t : Text) : '\r' ∉ readBack t := by
  induction t using readBack.induct with
  | case1 => simp [readBack]
  | case2 t ih => simpa [readBack] using ih
  | case3 t h ih => simpa [readBack] using ih
  | case4 c t h₁ h₂ ih =>
    rw [readBack, List.mem_cons, not_or]
    · exact ⟨fun hc => h₂ hc.symm, ih⟩
    all_goals assumption

/-- A carriage return becomes a newline. -/
theorem newline_mem_readBack {t : Text} (h : '\r' ∈ t) : '\n' ∈ readBack t := by
  induction t using readBack.induct with
  | case1 => cases h
  | case2 t ih => simp [readBack]
  | case3 t h' ih => simp [readBack]
  | case4 c t h₁ h₂ ih =>
    rw [readBack, List.mem_cons]
    · exact Or.inr (ih ((List.mem_cons.1 h).resolve_left fun hc => h₂ hc.symm))
    all_goals assumption

/-- `simple_element` of a string. -/
def textElement (level : ℕ) (element value : Text) : Written :=
  if controlFree value then plainElement level element (escape value) else raise

/-- `begin_element`, what is inside, and `end_element`. -/
def enclose (level : ℕ) (element : Text) (inside : Written) : Written :=
  ((writeln level (openTag element)).andThen inside).andThen (writeln level (closeTag element))

/-- A digit of base 64. -/
def base64Digit (n : ℕ) : Char :=
  (txt "ABCDEFGHIJKLMNOPQRSTUVWXYZabcdefghijklmnopqrstuvwxyz0123456789+/").getD n '='

/-- `b2a_base64`, without the newline. -/
def base64 : List UInt8 → Text
  | [] => []
  | [a] => [base64Digit (a.toNat / 4), base64Digit (a.toNat % 4 * 16), '=', '=']
  | [a, b] => [base64Digit (a.toNat / 4), base64Digit (a.toNat % 4 * 16 + b.toNat / 16),
      base64Digit (b.toNat % 16 * 4), '=']
  | a :: b :: c :: bs => base64Digit (a.toNat / 4) ::
      base64Digit (a.toNat % 4 * 16 + b.toNat / 16) ::
      base64Digit (b.toNat % 16 * 4 + c.toNat / 64) :: base64Digit (c.toNat % 64) :: base64 bs

/-- The lines of `_encode_base64`, for the width that the indent leaves. -/
def base64Lines (level : ℕ) (data : List UInt8) : List Text :=
  let width := max 16 (76 - 8 * level) / 4 * 3
  (List.range ((data.length + width - 1) / width)).map fun i =>
    base64 ((data.drop (i * width)).take width)

/-- `write_bytes`; its lines are not indented further. -/
def writeBytes (level : ℕ) (data : List UInt8) : Written :=
  enclose level (txt "data")
    ((base64Lines level data).foldr (fun line rest => (writeln level line).andThen rest) ⟨[], false⟩)

/-- An element, if there is room for it. -/
def within (s : Stack) (level : ℕ) (e : Element) (w : Written) : Written :=
  if s.fits level e then w else raise

/-- `simple_element` of a key; one that is no string is a `TypeError`. -/
def writeKey (s : Stack) (level : ℕ) : Key → Written
  | .str k => within s level .key (textElement level (txt "key") k.toList)
  | .other _ => raise

mutual

/-- `write_value`.  The `repr` of a real number is a parameter. -/
def writeValue (repr : UInt64 → Text) (s : Stack) (level : ℕ) : Plist → Written
  | .bool b => within s level .boolean (emptyElement level (if b then txt "true" else txt "false"))
  | .int n => within s level .integer
      (if -2 ^ 63 ≤ n && n < 2 ^ 64 then plainElement level (txt "integer") (toString n).toList
      else raise)
  | .real bits => within s level .real (plainElement level (txt "real") (repr bits))
  | .uid _ => raise
  | .date t => within s level .date (plainElement level (txt "date") t)
  | .str t => within s level .string (textElement level (txt "string") t)
  | .data b => within s level .data (writeBytes level b)
  | .array xs => within s level .array
      (if xs.isEmpty then emptyElement level (txt "array")
      else enclose level (txt "array") (writeArray repr s (level + 1) xs))
  | .dict kvs => within s level .dict
      (if kvs.isEmpty then emptyElement level (txt "dict")
      else enclose level (txt "dict") (writeItems repr s (level + 1) kvs))

def writeArray (repr : UInt64 → Text) (s : Stack) (level : ℕ) : List Plist → Written
  | [] => ⟨[], false⟩
  | x :: xs => (writeValue repr s level x).andThen (writeArray repr s level xs)

def writeItems (repr : UInt64 → Text) (s : Stack) (level : ℕ) : List (Key × Plist) → Written
  | [] => ⟨[], false⟩
  | (k, v) :: kvs => (writeKey s level k).andThen
      ((writeValue repr s level v).andThen (writeItems repr s level kvs))

end

/-- `PLISTHEADER` -/
def header : Text :=
  unlines [txt "<?xml version=\"1.0\" encoding=\"UTF-8\"?>",
    txt "<!DOCTYPE plist PUBLIC \"-//Apple//DTD PLIST 1.0//EN\" " ++
      txt "\"http://www.apple.com/DTDs/PropertyList-1.0.dtd\">"]

/-- `plistlib.dump` -/
def dump (repr : UInt64 → Text) (s : Stack) (d : Plist) : Written :=
  (Written.mk header false).andThen (((writeln 0 (txt "<plist version=\"1.0\">")).andThen
    (writeValue repr s 0 d)).andThen (writeln 0 (closeTag (txt "plist"))))

/-! ### When it raises -/

@[simp] theorem raised_andThen (a b : Written) : (a.andThen b).raised = (a.raised || b.raised) := by
  unfold Written.andThen
  cases ha : a.raised <;> simp [ha]

@[simp] theorem raised_writeln (level : ℕ) (line : Text) : (writeln level line).raised = false := rfl

@[simp] theorem raised_enclose (level : ℕ) (element : Text) (inside : Written) :
    (enclose level element inside).raised = inside.raised := by
  simp [enclose]

@[simp] theorem raised_textElement (level : ℕ) (element value : Text) :
    (textElement level element value).raised = !controlFree value := by
  unfold textElement
  split
  · next h => rw [h]; rfl
  · next h => rw [Bool.not_eq_true] at h; rw [h]; rfl

@[simp] theorem raised_writeBytes (level : ℕ) (data : List UInt8) :
    (writeBytes level data).raised = false := by
  rw [writeBytes, raised_enclose]
  generalize base64Lines level data = ls
  induction ls with
  | nil => rfl
  | cons l ls ih => simpa using ih

@[simp] theorem raised_within (s : Stack) (level : ℕ) (e : Element) (w : Written) :
    (within s level e w).raised = !(s.fits level e && !w.raised) := by
  unfold within
  split
  · next h => rw [h, Bool.true_and, Bool.not_not]
  · next h => rw [Bool.not_eq_true] at h; rw [h]; rfl

@[simp] theorem raised_writeKey (s : Stack) (level : ℕ) (k : Key) :
    (writeKey s level k).raised = !keyWritable s level k := by
  cases k with
  | str k => rw [writeKey, keyWritable, raised_within, raised_textElement, Bool.not_not]
  | other id => rfl

mutual

theorem raised_writeValue (repr : UInt64 → Text) (s : Stack) (level : ℕ) (d : Plist) :
    (writeValue repr s level d).raised = !d.writable s level := by
  cases d with
  | int n =>
    rw [writeValue, writable, raised_within]
    split
    · next h => rw [h]; rfl
    · next h => rw [Bool.not_eq_true] at h; rw [h]; rfl
  | uid n => rfl
  | str t => rw [writeValue, writable, raised_within, raised_textElement, Bool.not_not]
  | data b => rw [writeValue, writable, raised_within, raised_writeBytes, Bool.not_false, Bool.and_true]
  | array xs =>
    rw [writeValue, writable, raised_within]
    split
    · next h => rw [List.isEmpty_iff.1 h]; rfl
    · rw [raised_enclose, raised_writeArray, Bool.not_not]
  | dict kvs =>
    rw [writeValue, writable, raised_within]
    split
    · next h => rw [List.isEmpty_iff.1 h]; rfl
    · rw [raised_enclose, raised_writeItems, Bool.not_not]
  | _ =>
    rw [writeValue, writable, raised_within]
    exact congrArg _ (Bool.and_true _)

theorem raised_writeArray (repr : UInt64 → Text) (s : Stack) (level : ℕ) (xs : List Plist) :
    (writeArray repr s level xs).raised = !allWritable s level xs := by
  cases xs with
  | nil => rfl
  | cons x xs =>
    rw [writeArray, allWritable, raised_andThen, raised_writeValue, raised_writeArray, Bool.not_and]

theorem raised_writeItems (repr : UInt64 → Text) (s : Stack) (level : ℕ) (kvs : List (Key × Plist)) :
    (writeItems repr s level kvs).raised = !itemsWritable s level kvs := by
  cases kvs with
  | nil => rfl
  | cons kv kvs =>
    obtain ⟨k, v⟩ := kv
    rw [writeItems, itemsWritable, raised_andThen, raised_andThen, raised_writeKey,
      raised_writeValue, raised_writeItems, Bool.not_and, Bool.not_and, Bool.or_assoc]

end

/-- **The dump raises** just if there is something that cannot be written. -/
theorem raised_dump (repr : UInt64 → Text) (s : Stack) (d : Plist) :
    (dump repr s d).raised = !d.writable s 0 := by
  simp [dump, raised_writeValue]

theorem allWritable_iff {s : Stack} {level : ℕ} {xs : List Plist} :
    allWritable s level xs = true ↔ ∀ x ∈ xs, x.writable s level = true := by
  induction xs with
  | nil => simp [allWritable]
  | cons x xs ih => rw [allWritable, Bool.and_eq_true, ih, List.forall_mem_cons]

theorem writable_array {s : Stack} {level : ℕ} {xs : List Plist} (hlevel : level < 8)
    (h : ∀ x ∈ xs, x.writable s (level + 1) = true) : (array xs).writable s level = true := by
  rw [writable, s.fits_of_lt hlevel, allWritable_iff.2 h]
  rfl

theorem forall_mem_of_writable_array {s : Stack} {level : ℕ} {xs : List Plist}
    (h : (array xs).writable s level = true) : ∀ x ∈ xs, x.writable s (level + 1) = true := by
  rw [writable, Bool.and_eq_true] at h
  exact allWritable_iff.1 h.2

/-- What the entries of a list that can be written have in common. -/
theorem forall_of_writable_map {s : Stack} {level : ℕ} {α : Type} {f : α → Plist} {P : α → Prop}
    {xs : List α} (h : (array (xs.map f)).writable s level = true)
    (hf : ∀ x, (f x).writable s (level + 1) = true → P x) : ∀ x ∈ xs, P x :=
  fun x hx => hf x (forall_mem_of_writable_array h _ (List.mem_map_of_mem hx))

/-! ### What is written is what is in the tree -/

variable {s : Stack} {level : ℕ} {d d' v x : Plist} {k : Key} {kvs : List (Key × Plist)}
  {p q : List String} {ps : List (List String)}

theorem writable_of_lookup (h : itemsWritable s level kvs = true) (hk : kvs.lookup k = some v) :
    keyWritable s level k = true ∧ v.writable s level = true := by
  induction kvs with
  | nil => cases hk
  | cons kv kvs ih =>
    obtain ⟨k', v'⟩ := kv
    rw [itemsWritable, Bool.and_eq_true, Bool.and_eq_true] at h
    by_cases he : k = k'
    · subst he
      rw [List.lookup_cons_self] at hk
      obtain rfl := Option.some.inj hk
      exact h.1
    · have hne : (k == k') = false := by simpa using he
      rw [List.lookup_cons, hne] at hk
      exact ih h.2 hk

/-- A value in place of another one that can be written as well. -/
theorem itemsWritable_dictInsert (hk : kvs.lookup k = some v)
    (hx : x.writable s level = v.writable s level) :
    itemsWritable s level (dictInsert k x kvs) = itemsWritable s level kvs := by
  induction kvs with
  | nil => cases hk
  | cons kv kvs ih =>
    obtain ⟨k', v'⟩ := kv
    by_cases he : k' = k
    · subst he
      rw [List.lookup_cons_self] at hk
      rw [dictInsert, if_pos rfl, itemsWritable, itemsWritable, hx, Option.some.inj hk]
    · have hne : (k == k') = false := by simpa using Ne.symm he
      rw [List.lookup_cons, hne] at hk
      rw [dictInsert, if_neg he, itemsWritable, itemsWritable, ih hk]

/-- The keys of a path can be written. -/
def KeysFree (p : List String) : Prop := ∀ k ∈ p, controlFree k.toList = true

instance (p : List String) : Decidable (KeysFree p) :=
  inferInstanceAs (Decidable (∀ k ∈ p, controlFree k.toList = true))

/-- The path of an assignment whose keys can be written, wherever the stack ends. -/
structure Assignable (p : List String) : Prop where
  keys : KeysFree p
  short : p.length < 8

instance (p : List String) : Decidable (Assignable p) :=
  decidable_of_iff (KeysFree p ∧ p.length < 8) ⟨fun h => ⟨h.1, h.2⟩, fun h => ⟨h.keys, h.short⟩⟩

theorem writable_get (h : d.writable s level = true) (hp : d.get p = some x) :
    KeysFree p ∧ x.writable s (level + p.length) = true := by
  induction p generalizing d level with
  | nil =>
    rw [get_nil] at hp
    obtain rfl := Option.some.inj hp
    exact ⟨List.forall_mem_nil _, h⟩
  | cons k p ih =>
    obtain ⟨kvs, y, rfl, hy, hp⟩ := get_cons_eq_some.1 hp
    rw [writable, Bool.and_eq_true] at h
    obtain ⟨hk, hv⟩ := writable_of_lookup h.2 hy
    obtain ⟨hkeys, hx⟩ := ih hv hp
    rw [keyWritable, Bool.and_eq_true] at hk
    refine ⟨List.forall_mem_cons.2 ⟨hk.2, hkeys⟩, ?_⟩
    rwa [List.length_cons, Nat.add_comm p.length, ← Nat.add_assoc]

/-! ### What assignments leave -/

/-- What follows a key in the paths that start with it. -/
def underKey (k : Key) (ps : List (List String)) : List (List String) :=
  ps.filterMap fun
    | [] => none
    | k' :: p => if .str k' = k then some p else none

/-- The paths that do not start with a key. -/
def pastKey (k : Key) (ps : List (List String)) : List (List String) :=
  ps.filter fun p => p.head?.map .str ≠ some k

theorem mem_underKey : p ∈ underKey k ps ↔ ∃ k', .str k' = k ∧ k' :: p ∈ ps := by
  rw [underKey, List.mem_filterMap]
  constructor
  · rintro ⟨q, hq, h⟩
    cases q with
    | nil => cases h
    | cons k' q =>
      split at h
      · cases h
      · next hcons =>
        obtain ⟨rfl, rfl⟩ := List.cons.inj hcons
        split at h
        · next hk =>
          obtain rfl := Option.some.inj h
          exact ⟨k', hk, hq⟩
        · cases h
  · rintro ⟨k', rfl, h⟩
    exact ⟨_, h, by simp⟩

theorem mem_underKey_str {k : String} : p ∈ underKey (.str k) ps ↔ k :: p ∈ ps := by
  rw [mem_underKey]
  constructor
  · rintro ⟨k', hk, h⟩
    rwa [← Key.str.inj hk]
  · exact fun h => ⟨k, rfl, h⟩

theorem mem_pastKey {k' : String} :
    k' :: p ∈ pastKey k ps ↔ k' :: p ∈ ps ∧ .str k' ≠ k := by
  simp [pastKey]

theorem underKey_pastKey {k' : Key} (h : k ≠ k') : underKey k (pastKey k' ps) = underKey k ps := by
  rw [pastKey, underKey, List.filterMap_filter, underKey]
  refine congrArg (List.filterMap · ps) (funext fun p => ?_)
  cases p with
  | nil => rw [ite_self]
  | cons k₁ p =>
    by_cases hk : Key.str k₁ = k'
    · have hne : Key.str k₁ ≠ k := fun he => h (he.symm.trans hk)
      simp [hne]
    · simp [hk]

mutual

/-- `write_value` raises nothing, but for what is at the paths. -/
def writableBut (s : Stack) (level : ℕ) (ps : List (List String)) : Plist → Bool
  | .dict kvs => [] ∈ ps || (s.fits level .dict && itemsWritableBut s (level + 1) ps kvs)
  | d => [] ∈ ps || d.writable s level

def itemsWritableBut (s : Stack) (level : ℕ) (ps : List (List String)) : List (Key × Plist) → Bool
  | [] => true
  | (k, v) :: kvs => keyWritable s level k && v.writableBut s level (underKey k ps) &&
      itemsWritableBut s level (pastKey k ps) kvs

end

mutual

@[simp] theorem writableBut_nil (s : Stack) (level : ℕ) (d : Plist) :
    d.writableBut s level [] = d.writable s level := by
  cases d with
  | dict kvs =>
    rw [writableBut, writable, itemsWritableBut_nil]
    rfl
  | _ => rfl

@[simp] theorem itemsWritableBut_nil (s : Stack) (level : ℕ) (kvs : List (Key × Plist)) :
    itemsWritableBut s level [] kvs = itemsWritable s level kvs := by
  cases kvs with
  | nil => rfl
  | cons kv kvs =>
    obtain ⟨k, v⟩ := kv
    have hv := writableBut_nil s level v
    have hkvs := itemsWritableBut_nil s level kvs
    rw [itemsWritable, ← hv, ← hkvs]
    rfl

end

theorem writableBut_of_nil_mem (h : [] ∈ ps) : d.writableBut s level ps = true := by
  cases d <;> simp [writableBut, h]

mutual

theorem writableBut_of_writable (level : ℕ) (ps : List (List String)) (d : Plist)
    (h : d.writable s level = true) : d.writableBut s level ps = true := by
  cases d with
  | dict kvs =>
    rw [writable, Bool.and_eq_true] at h
    rw [writableBut, h.1, itemsWritableBut_of_writable (level + 1) ps kvs h.2, Bool.and_true,
      Bool.or_true]
  | _ => simp [writableBut, h]

theorem itemsWritableBut_of_writable (level : ℕ) (ps : List (List String)) (kvs : List (Key × Plist))
    (h : itemsWritable s level kvs = true) : itemsWritableBut s level ps kvs = true := by
  cases kvs with
  | nil => rfl
  | cons kv kvs =>
    obtain ⟨k, v⟩ := kv
    rw [itemsWritable, Bool.and_eq_true, Bool.and_eq_true] at h
    rw [itemsWritableBut, h.1.1, writableBut_of_writable level _ v h.1.2,
      itemsWritableBut_of_writable level _ kvs h.2]
    rfl

end

mutual

/-- A path does not matter any more once the value at it can be written. -/
theorem writableBut_of_but (level : ℕ) (ps qs : List (List String)) (d : Plist)
    (h : d.writableBut s level ps = true)
    (hps : ∀ p ∈ ps, p ∈ qs ∨ ∀ x, d.get p = some x → x.writable s (level + p.length) = true) :
    d.writableBut s level qs = true := by
  by_cases hnil : [] ∈ ps
  · rcases hps [] hnil with hq | hx
    · exact writableBut_of_nil_mem hq
    · exact writableBut_of_writable level qs d (hx d (get_nil d))
  · cases d with
    | dict kvs =>
      rw [writableBut, Bool.or_eq_true, Bool.and_eq_true] at h
      obtain ⟨hfits, h⟩ := h.resolve_left (by simpa using hnil)
      have hkvs := itemsWritableBut_of_but (level + 1) ps qs kvs h
        fun k q hq => (hps (k :: q) hq).imp_right fun hall v hv x hx => by
          have hwritable := hall x (get_cons_eq_some.2 ⟨kvs, v, rfl, hv, hx⟩)
          rwa [List.length_cons, Nat.add_comm q.length, ← Nat.add_assoc] at hwritable
      rw [writableBut, hfits, hkvs, Bool.and_true, Bool.or_true]
    | _ =>
      refine writableBut_of_writable level qs _ ?_
      simpa [writableBut, hnil] using h

theorem itemsWritableBut_of_but (level : ℕ) (ps qs : List (List String)) (kvs : List (Key × Plist))
    (h : itemsWritableBut s level ps kvs = true) (hps : ∀ k q, k :: q ∈ ps → k :: q ∈ qs ∨
      ∀ v, kvs.lookup (.str k) = some v → ∀ x, v.get q = some x →
        x.writable s (level + q.length) = true) :
    itemsWritableBut s level qs kvs = true := by
  cases kvs with
  | nil => rfl
  | cons kv kvs =>
    obtain ⟨k, v⟩ := kv
    rw [itemsWritableBut, Bool.and_eq_true, Bool.and_eq_true] at h
    have hv : v.writableBut s level (underKey k qs) = true := by
      refine writableBut_of_but level (underKey k ps) (underKey k qs) v h.1.2 fun q hq => ?_
      obtain ⟨k', rfl, hmem⟩ := mem_underKey.1 hq
      exact (hps k' q hmem).imp mem_underKey_str.2 fun hall x hx =>
        hall v List.lookup_cons_self x hx
    have hkvs : itemsWritableBut s level (pastKey k qs) kvs = true := by
      refine itemsWritableBut_of_but level (pastKey k ps) (pastKey k qs) kvs h.2 fun k' q hq => ?_
      obtain ⟨hmem, hne⟩ := mem_pastKey.1 hq
      have hne' : (Key.str k' == k) = false := by simpa using hne
      exact (hps k' q hmem).imp (fun hq => mem_pastKey.2 ⟨hq, hne⟩) fun hall v' hv' x hx =>
        hall v' (by rw [List.lookup_cons, hne', hv']) x hx
    rw [itemsWritableBut, h.1.1, hv, hkvs]
    rfl

end

/-- An insertion below the paths leaves the rest. -/
theorem itemsWritableBut_dictInsert (hk : keyWritable s level k = true)
    (hnone : kvs.lookup k = none → x.writableBut s level (underKey k ps) = true)
    (hsome : ∀ y, kvs.lookup k = some y →
      x.writableBut s level (underKey k ps) = y.writableBut s level (underKey k ps)) :
    itemsWritableBut s level ps (dictInsert k x kvs) = itemsWritableBut s level ps kvs := by
  induction kvs generalizing ps with
  | nil => simp [dictInsert, itemsWritableBut, hk, hnone rfl]
  | cons kv kvs ih =>
    obtain ⟨k', v'⟩ := kv
    by_cases he : k' = k
    · subst he
      rw [dictInsert, if_pos rfl, itemsWritableBut, itemsWritableBut,
        hsome v' List.lookup_cons_self]
    · have hne : (k == k') = false := by simpa using Ne.symm he
      rw [List.lookup_cons, hne] at hnone hsome
      rw [dictInsert, if_neg he, itemsWritableBut, itemsWritableBut]
      rw [ih]
      · rwa [underKey_pastKey (Ne.symm he)]
      · rwa [underKey_pastKey (Ne.symm he)]

/-- An assignment at or below one of the paths leaves the rest. -/
theorem writableBut_set (h : d.set p v = some d') (hq : q ∈ ps) (hqp : q <+: p)
    (hkeys : KeysFree q) (hshort : level + q.length < 8) :
    d'.writableBut s level ps = d.writableBut s level ps := by
  induction q generalizing d d' p ps level with
  | nil => rw [writableBut_of_nil_mem hq, writableBut_of_nil_mem hq]
  | cons k q ih =>
    obtain ⟨hk, hkeys⟩ := List.forall_mem_cons.1 hkeys
    rw [List.length_cons] at hshort
    have hkey : keyWritable s (level + 1) (.str k) = true := by
      rw [keyWritable, hk, s.fits_of_lt (by omega)]
      rfl
    obtain ⟨r, rfl⟩ := hqp
    obtain ⟨kvs, x, rfl, rfl, hx⟩ := set_cons_eq_some.1 h
    -- below the key the path that is left out goes on
    have hmem : q ∈ underKey (.str k) ps := mem_underKey_str.2 hq
    rw [writableBut, writableBut, itemsWritableBut_dictInsert hkey]
    · intro hnone
      obtain ⟨hnil, -⟩ | ⟨-, y, hy, -⟩ := hx
      · rw [List.append_eq_nil_iff.1 hnil |>.1] at hmem
        exact writableBut_of_nil_mem hmem
      · rw [hnone] at hy
        cases hy
    · intro y hy
      obtain ⟨hnil, -⟩ | ⟨-, y', hy', hset⟩ := hx
      · rw [List.append_eq_nil_iff.1 hnil |>.1] at hmem
        rw [writableBut_of_nil_mem hmem, writableBut_of_nil_mem hmem]
      · obtain rfl := Option.some.inj (hy'.symm.trans hy)
        exact ih hset hmem (List.prefix_append q r) hkeys (by omega)

theorem writableBut_writes {ws : List (List String × Plist)} (h : d.writes ws = some d')
    (hws : ∀ w ∈ ws, ∃ q ∈ ps, q <+: w.1 ∧ Assignable q) :
    d'.writableBut s 0 ps = d.writableBut s 0 ps := by
  induction ws generalizing d with
  | nil =>
    obtain rfl := Option.some.inj h
    rfl
  | cons w ws ih =>
    obtain ⟨y, hy, h⟩ := writes_cons_eq_some.1 h
    obtain ⟨q, hq, hqw, hassign⟩ := hws w List.mem_cons_self
    rw [ih h fun w' hw' => hws w' (List.mem_cons_of_mem _ hw'),
      writableBut_set hy hq hqw hassign.keys (by simpa using hassign.short)]

/-- **What assignments leave** has to be written. -/
theorem writableBut_of_writes {ws : List (List String × Plist)} (h : d.writes ws = some d')
    (hws : ∀ w ∈ ws, ∃ q ∈ ps, q <+: w.1 ∧ Assignable q) (hd : d'.writable s 0 = true) :
    d.writableBut s 0 ps = true := by
  rw [← writableBut_writes h hws]
  exact writableBut_of_writable 0 ps d' hd

/-- **What is assigned** is all the rest. -/
theorem writable_of_writes {ws : List (List String × Plist)} (h : d.writes ws = some d')
    (hd : d.writableBut s 0 (ws.map Prod.fst) = true)
    (hws : ∀ w ∈ ws, Assignable w.1 ∧ w.2.writable s w.1.length = true) :
    d'.writable s 0 = true := by
  induction ws generalizing d with
  | nil =>
    obtain rfl := Option.some.inj h
    simpa using hd
  | cons w ws ih =>
    obtain ⟨y, hy, h⟩ := writes_cons_eq_some.1 h
    obtain ⟨⟨hassign, hv⟩, hws⟩ := List.forall_mem_cons.1 hws
    refine ih h ?_ hws
    rw [List.map_cons, ← writableBut_set hy List.mem_cons_self List.prefix_rfl hassign.keys
      (by simpa using hassign.short)] at hd
    refine writableBut_of_but 0 _ _ y hd fun p hp => ?_
    rcases List.mem_cons.1 hp with rfl | hp
    · refine Or.inr fun x hx => ?_
      rw [get_set_self hy] at hx
      rwa [← Option.some.inj hx, Nat.zero_add]
    · exact Or.inl hp

attribute [simp] writable allWritable itemsWritable keyWritable

end Plist

end InstallKit
