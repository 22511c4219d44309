import InstallKit.Sources.PyJson
import InstallKit.Sources.PyStrings

/-!
# `json.loads`

The decoder of Python.  A value ends where it ends, and what follows it is looked at by its caller;
a string is read as code units, of which pairs of surrogates are joined afterwards.

* `loads_dumps` : what `json.dumps` writes is read back, with the keys of every object in order.
-/

namespace InstallKit

namespace Sources

namespace PyJson

/-! ### Strings -/

/-- A digit of base 16, of either case. -/
def hexValue? (c : Char) : Option ℕ :=
  if '0' ≤ c ∧ c ≤ '9' then some (c.toNat - 48)
  else if 'a' ≤ c ∧ c ≤ 'f' then some (c.toNat - 87)
  else if 'A' ≤ c ∧ c ≤ 'F' then some (c.toNat - 55)
  else none

/-- The four digits after `\u`. -/
def unit? (a b c d : Char) : Option ℕ := do
  return 4096 * (← hexValue? a) + 256 * (← hexValue? b) + 16 * (← hexValue? c) + (← hexValue? d)

/-- What a backslash and another character stand for. -/
def unescape? (c : Char) : Option ℕ :=
  if c = '"' then some 34
  else if c = '\\' then some 92
  else if c = '/' then some 47
  else if c = 'b' then some 8
  else if c = 'f' then some 12
  else if c = 'n' then some 10
  else if c = 'r' then some 13
  else if c = 't' then some 9
  else none

/-- `scanstring`: the code units up to the closing quote, and what follows it. -/
def scanString : Text → Option (List ℕ × Text)
  | [] => none
  | c :: t =>
    if c = '"' then some ([], t)
    else if c = '\\' then
      match t with
      | [] => none
      | e :: t =>
        if e = 'u' then
          match t with
          | a :: b :: c :: d :: t => do
            let u ← unit? a b c d
            let (s, rest) ← scanString t
            return (u :: s, rest)
          | _ => none
        else do
          let u ← unescape? e
          let (s, rest) ← scanString t
          return (u :: s, rest)
    -- a control character
    else if c < ' ' then none
    else do
      let (s, rest) ← scanString t
      return (c.toNat :: s, rest)

/-- A high surrogate and a low one after it are one character. -/
def joinPairs : List ℕ → List ℕ
  | [] => []
  | [u] => [u]
  | u :: v :: s =>
    if 0xd800 ≤ u ∧ u < 0xdc00 ∧ 0xdc00 ≤ v ∧ v < 0xe000 then
      (0x10000 + 0x400 * (u - 0xd800) + (v - 0xdc00)) :: joinPairs s
    else u :: joinPairs (v :: s)

/-- A code point; of the surrogates, only those of bytes. -/
def point? (u : ℕ) : Option PyChar :=
  if h : 0xdc80 ≤ u ∧ u < 0xdd00 then some (.surrogate ⟨u - 0xdc80, by omega⟩)
  else if u.isValidChar then some (.char (Char.ofNat u))
  else none

/-- A string, and what follows its opening quote. -/
def scanStr (t : Text) : Option (PyText × Text) := do
  let (units, rest) ← scanString t
  let s ← (joinPairs units).mapM point?
  return (s, rest)

/-! ### Values -/

/-- `[ \t\n\r]` -/
def isSpace (c : Char) : Bool := c = ' ' || c = '\t' || c = '\n' || c = '\r'

def skipSpace (t : Text) : Text := t.dropWhile isSpace

/-- The number goes on with a fraction or an exponent. -/
def isFloat : Text → Bool
  | '.' :: d :: _ => d.isDigit
  | e :: s :: d :: _ =>
    (e == 'e' || e == 'E') && (s.isDigit || (s == '+' || s == '-') && d.isDigit)
  | [e, d] => (e == 'e' || e == 'E') && d.isDigit
  | _ => false

/-- An integer without a sign: a zero ends it. -/
def scanNat (t : Text) : Option (ℕ × Text) :=
  let digits := if t.head? = some '0' then ['0'] else t.takeWhile (·.isDigit)
  let rest := t.drop digits.length
  if digits = [] ∨ isFloat rest ∨ maxDigits < digits.length then none
  else some (Nat.ofDigitChars 10 digits 0, rest)

/-- `null`, `true`, `false` or an integer. -/
def scanPlain (t : Text) : Option (PyJson × Text) :=
  if ['n', 'u', 'l', 'l'] <+: t then some (.null, t.drop 4)
  else if ['t', 'r', 'u', 'e'] <+: t then some (.bool true, t.drop 4)
  else if ['f', 'a', 'l', 's', 'e'] <+: t then some (.bool false, t.drop 5)
  else if t.head? = some '-' then (scanNat t.tail).map fun (n, rest) => (.int (-n), rest)
  else (scanNat t).map fun (n, rest) => (.int n, rest)

/-- `d[key] = value` -/
def setItem (key : Text) (value : PyJson) : List (Text × PyJson) → List (Text × PyJson)
  | [] => [(key, value)]
  | (k, v) :: items =>
    if k = key then (key, value) :: items else (k, v) :: setItem key value items

mutual

/-- `scan_once`, for a text of at most so many characters. -/
def scanOnce : ℕ → Text → Option (PyJson × Text)
  | 0, _ => none
  | _ + 1, [] => none
  | n + 1, c :: t =>
    if c = '"' then (scanStr t).map fun (s, rest) => (.str s, rest)
    else if c = '\x7b' then
      match skipSpace t with
      | [] => none
      | d :: t => if d = '\x7d' then some (.dict [], t) else scanPairs n [] (d :: t)
    else if c = '[' then
      match skipSpace t with
      | [] => none
      | d :: t => if d = ']' then some (.list [], t) else scanItems n [] (d :: t)
    else scanPlain (c :: t)

/-- The items of an array, after `items`. -/
def scanItems : ℕ → List PyJson → Text → Option (PyJson × Text)
  | 0, _, _ => none
  | n + 1, items, t => do
    let (v, t) ← scanOnce n t
    match skipSpace t with
    | [] => none
    | c :: t =>
      if c = ']' then some (.list (items ++ [v]), t)
      else if c = ',' then scanItems n (items ++ [v]) (skipSpace t)
      else none

/-- The items of an object, after `items`. -/
def scanPairs : ℕ → List (Text × PyJson) → Text → Option (PyJson × Text)
  | 0, _, _ => none
  | n + 1, items, t =>
    if t.head? = some '"' then do
      let (key, t) ← scanStr t.tail
      let key ← key.text?
      match skipSpace t with
      | [] => none
      | c :: t =>
        if c = ':' then do
          let (v, t) ← scanOnce n (skipSpace t)
          match skipSpace t with
          | [] => none
          | c :: t =>
            if c = '\x7d' then some (.dict (setItem key v items), t)
            else if c = ',' then scanPairs n (setItem key v items) (skipSpace t)
            else none
        else none
    else none

end

/-- `json.loads`, for what has no number with a fraction or an exponent and no string or key with
other surrogates than `PyText` has. -/
def loads (t : Text) : Option PyJson := do
  let (v, rest) ← scanOnce t.length (skipSpace t)
  if skipSpace rest = [] then some v else none

/-! ### Strings are read back -/

theorem hexValue?_hexDigit {n : ℕ} (hn : n < 16) : hexValue? (hexDigit n) = some n := by
  have hdigits : txt "0123456789abcdef" =
      ['0', '1', '2', '3', '4', '5', '6', '7', '8', '9', 'a', 'b', 'c', 'd', 'e', 'f'] := by
    simp [txt]
  rw [hexDigit, hdigits]
  have h : ∀ m : Fin 16, hexValue? (['0', '1', '2', '3', '4', '5', '6', '7', '8', '9', 'a', 'b',
      'c', 'd', 'e', 'f'].getD m '0') = some m := by decide
  exact h ⟨n, hn⟩

theorem unit?_hexDigits {u : ℕ} (hu : u < 0x10000) :
    unit? (hexDigit (u / 4096 % 16)) (hexDigit (u / 256 % 16)) (hexDigit (u / 16 % 16))
      (hexDigit (u % 16)) = some u := by
  have hmod : ∀ n, n % 16 < 16 := fun n => Nat.mod_lt n (by decide)
  simp only [unit?, hexValue?_hexDigit (hmod _), Option.bind_eq_bind, Option.bind_some,
    Option.pure_def]
  congr 1
  omega

/-- The code units of a character. -/
def units : PyChar → List ℕ
  | .surrogate byte => [0xdc80 + byte]
  | .char c =>
    if c.toNat < 0x10000 then [c.toNat]
    else [0xd800 + (c.toNat - 0x10000) / 0x400, 0xdc00 + (c.toNat - 0x10000) % 0x400]

/-- What has been read stands before what is read next. -/
def before (s : List ℕ) (r : Option (List ℕ × Text)) : Option (List ℕ × Text) :=
  r.map fun (s', rest) => (s ++ s', rest)

theorem scanString_unicodeEscape {u : ℕ} (hu : u < 0x10000) (t : Text) :
    scanString (unicodeEscape u ++ t) = before [u] (scanString t) := by
  rw [unicodeEscape]
  show scanString ('\\' :: 'u' :: _ :: _ :: _ :: _ :: t) = _
  rw [scanString, if_neg (by decide), if_pos rfl]
  show (do let u ← unit? _ _ _ _; _) = _
  rw [unit?_hexDigits hu]
  cases scanString t <;> rfl

theorem scanString_unescape {c : Char} {u : ℕ} (hc : c ≠ 'u') (hu : unescape? c = some u)
    (t : Text) : scanString ('\\' :: c :: t) = before [u] (scanString t) := by
  conv_lhs => unfold scanString
  rw [if_neg (by decide), if_pos rfl]
  show (if c = 'u' then _ else _) = _
  rw [if_neg hc, hu]
  cases scanString t <;> rfl

theorem scanString_plain {c : Char} (hq : c ≠ '"') (hb : c ≠ '\\') (hs : ' ' ≤ c) (t : Text) :
    scanString (c :: t) = before [c.toNat] (scanString t) := by
  conv_lhs => unfold scanString
  rw [if_neg hq, if_neg hb, if_neg (not_lt.2 hs)]
  cases scanString t <;> rfl

theorem scanString_quote (t : Text) : scanString ('"' :: t) = some ([], t) := by
  conv_lhs => unfold scanString
  rfl

theorem before_before (s s' : List ℕ) (r : Option (List ℕ × Text)) :
    before s (before s' r) = before (s ++ s') r := by
  cases r with
  | none => rfl
  | some r => simp [before]

/-- **One character is read back.** -/
theorem scanString_escapeChar (x : PyChar) (t : Text) :
    scanString (escapeChar x ++ t) = before (units x) (scanString t) := by
  cases x with
  | surrogate byte => exact scanString_unicodeEscape (by have := byte.isLt; omega) t
  | char c =>
    -- a character of the first plane is one unit
    have hsmall : ∀ {d : Char} {n : ℕ}, c = d → d.toNat = n → n < 0x10000 →
        units (.char c) = [n] := by
      rintro d n rfl rfl hn
      exact if_pos hn
    rw [escapeChar]
    split_ifs with h1 h2 h3 h4 h5 h6 h7 h8 h9
    · rw [hsmall h1 rfl (by decide)]
      simpa [txt] using scanString_unescape (c := '"') (by decide) rfl t
    · rw [hsmall h2 rfl (by decide)]
      simpa [txt] using scanString_unescape (c := '\\') (by decide) rfl t
    · rw [hsmall h3 rfl (by decide)]
      simpa [txt] using scanString_unescape (c := 'n') (by decide) rfl t
    · rw [hsmall h4 rfl (by decide)]
      simpa [txt] using scanString_unescape (c := 'r') (by decide) rfl t
    · rw [hsmall h5 rfl (by decide)]
      simpa [txt] using scanString_unescape (c := 't') (by decide) rfl t
    · rw [hsmall h6 rfl (by decide)]
      simpa [txt] using scanString_unescape (c := 'f') (by decide) rfl t
    · rw [hsmall h7 rfl (by decide)]
      simpa [txt] using scanString_unescape (c := 'b') (by decide) rfl t
    · have hc : c.toNat < 0x10000 := by
        have : c.toNat ≤ '~'.toNat := h8.2
        have h126 : '~'.toNat = 126 := rfl
        omega
      rw [units, if_pos hc]
      exact scanString_plain h1 h2 h8.1 t
    · rw [units, if_pos h9]
      exact scanString_unicodeEscape h9 t
    · have hc : c.toNat < 0x110000 := c.valid.elim (fun h => by
        have : c.toNat < 0xd800 := h
        omega) fun h => h.2
      rw [units, if_neg h9, List.append_assoc, scanString_unicodeEscape (by omega),
        scanString_unicodeEscape (by omega), before_before]
      rfl

theorem scanString_escaped (s : PyText) (t : Text) :
    scanString (s.flatMap escapeChar ++ '"' :: t) = some (s.flatMap units, t) := by
  induction s with
  | nil => exact scanString_quote t
  | cons x s ih =>
    rw [List.flatMap_cons, List.append_assoc, scanString_escapeChar, ih]
    rfl

theorem joinPairs_cons {u : ℕ} (hu : ¬ (0xd800 ≤ u ∧ u < 0xdc00)) (s : List ℕ) :
    joinPairs (u :: s) = u :: joinPairs s := by
  cases s with
  | nil => rfl
  | cons v s =>
    rw [joinPairs, if_neg fun h => hu ⟨h.1, h.2.1⟩]

theorem point?_toNat (c : Char) : point? c.toNat = some (.char c) := by
  have hvalid : c.toNat.isValidChar := c.valid
  have hbyte : ¬ (0xdc80 ≤ c.toNat ∧ c.toNat < 0xdd00) := by
    rintro ⟨h1, h2⟩
    obtain h | h := hvalid
    · omega
    · omega
  rw [point?, dif_neg hbyte, if_pos hvalid, Char.ofNat_toNat]

/-- The code units of a string are those of one string only. -/
theorem points_units (s : PyText) : (joinPairs (s.flatMap units)).mapM point? = some s := by
  induction s with
  | nil => rfl
  | cons x s ih =>
    rw [List.flatMap_cons]
    cases x with
    | surrogate byte =>
      have hlt := byte.isLt
      have hpoint : point? (0xdc80 + byte) = some (.surrogate byte) := by
        rw [point?, dif_pos ⟨by omega, by omega⟩]
        refine congrArg (fun b => some (PyChar.surrogate b)) (Fin.ext ?_)
        show 0xdc80 + (byte : ℕ) - 0xdc80 = byte
        exact Nat.add_sub_cancel_left _ _
      rw [units, List.singleton_append, joinPairs_cons (by omega), List.mapM_cons, hpoint, ih]
      rfl
    | char c =>
      by_cases hc : c.toNat < 0x10000
      · have hhigh : ¬ (0xd800 ≤ c.toNat ∧ c.toNat < 0xdc00) := by
          rintro ⟨h1, h2⟩
          obtain h | h := c.valid
          · have : c.toNat < 0xd800 := h
            omega
          · have : 0xdfff < c.toNat := h.1
            omega
        rw [units, if_pos hc, List.singleton_append, joinPairs_cons hhigh, List.mapM_cons,
          point?_toNat, ih]
        rfl
      · have hlt : c.toNat < 0x110000 := c.valid.elim (fun h => by
          have : c.toNat < 0xd800 := h
          omega) fun h => h.2
        -- a pair is joined again
        have hjoin : 0x10000 + 0x400 * (0xd800 + (c.toNat - 0x10000) / 0x400 - 0xd800) +
            (0xdc00 + (c.toNat - 0x10000) % 0x400 - 0xdc00) = c.toNat := by omega
        rw [units, if_neg hc]
        show (joinPairs (_ :: _ :: s.flatMap units)).mapM point? = _
        rw [joinPairs, if_pos ⟨by omega, by omega, by omega, by omega⟩, hjoin, List.mapM_cons,
          point?_toNat, ih]
        rfl

/-- **Every string is read back.** -/
theorem scanStr_escaped (s : PyText) (t : Text) :
    scanStr (s.flatMap escapeChar ++ '"' :: t) = some (s, t) := by
  rw [scanStr, scanString_escaped]
  show (do let s' ← (joinPairs (s.flatMap units)).mapM point?; _) = _
  rw [points_units]
  rfl

/-! ### Numbers are read back -/

/-- What may follow a value. -/
def Follow (t : Text) : Prop := ∀ c, t.head? = some c → c = ',' ∨ c = '\n'

theorem digitChar_eq_zero {n : ℕ} (hn : n < 10) (h : n.digitChar = '0') : n = 0 := by
  have hdec : ∀ m : Fin 10, (m : ℕ).digitChar = '0' → (m : ℕ) = 0 := by decide
  exact hdec ⟨n, hn⟩ h

theorem head?_toDigits {n : ℕ} (h : (Nat.toDigits 10 n).head? = some '0') : n = 0 := by
  induction n using Nat.strongRecOn with
  | ind n ih =>
    by_cases hn : n < 10
    · rw [Nat.toDigits_of_lt_base hn, List.head?_cons, Option.some.injEq] at h
      exact digitChar_eq_zero hn h
    · rw [Nat.toDigits_of_base_le (by decide) (by omega), List.head?_append_of_ne_nil _
        Nat.toDigits_ne_nil] at h
      have hzero := ih (n / 10) (by omega) h
      omega

theorem Follow.not_float {t : Text} (h : Follow t) : isFloat t = false := by
  cases t with
  | nil => rfl
  | cons c t =>
    obtain rfl | rfl := h c rfl
    · cases t with
      | nil => rfl
      | cons d t => cases t <;> rfl
    · cases t with
      | nil => rfl
      | cons d t => cases t <;> rfl

theorem Follow.not_digit {t : Text} (h : Follow t) : t.takeWhile (·.isDigit) = [] := by
  cases t with
  | nil => rfl
  | cons c t =>
    obtain rfl | rfl := h c rfl
    · rfl
    · rfl

/-- **The digits of a number are read back**, if there are not too many. -/
theorem scanNat_toDigits {n : ℕ} (hn : (Nat.toDigits 10 n).length ≤ maxDigits) {t : Text}
    (h : Follow t) : scanNat (Nat.toDigits 10 n ++ t) = some (n, t) := by
  have hdigits : (if (Nat.toDigits 10 n ++ t).head? = some '0' then ['0']
      else (Nat.toDigits 10 n ++ t).takeWhile (·.isDigit)) = Nat.toDigits 10 n := by
    split
    · next hzero =>
      rw [List.head?_append_of_ne_nil _ Nat.toDigits_ne_nil] at hzero
      rw [head?_toDigits hzero]
      rfl
    · rw [List.takeWhile_append_of_pos fun c hc =>
        Nat.isDigit_of_mem_toDigits (by decide) (by decide) hc, h.not_digit, List.append_nil]
  have hrest : (Nat.toDigits 10 n ++ t).drop (Nat.toDigits 10 n).length = t := List.drop_left
  rw [scanNat]
  simp only [hdigits, hrest, h.not_float]
  rw [if_neg (by simp [Nat.toDigits_ne_nil, hn]), Nat.ofDigitChars_ten_toDigits]

/-! ### Values are read back -/

mutual

/-- The value with the keys of every object in order. -/
def sorted : PyJson → PyJson
  | list items => list (sortedList items)
  | dict items => dict ((sortedDict items).insertionSort fun a b => a.1 ≤ b.1)
  | null => null
  | bool b => bool b
  | int n => int n
  | str s => str s

def sortedList : List PyJson → List PyJson
  | [] => []
  | v :: vs => v.sorted :: sortedList vs

def sortedDict : List (Text × PyJson) → List (Text × PyJson)
  | [] => []
  | (k, v) :: kvs => (k, v.sorted) :: sortedDict kvs

end

mutual

/-- What Python makes sure of: no key is there twice, and `int` converts the digits of a number. -/
def WellFormed : PyJson → Prop
  | int n => (Nat.toDigits 10 n.natAbs).length ≤ maxDigits
  | list items => WellFormedList items
  | dict items => (items.map Prod.fst).Nodup ∧ WellFormedDict items
  | null => True
  | bool _ => True
  | str _ => True

def WellFormedList : List PyJson → Prop
  | [] => True
  | v :: vs => v.WellFormed ∧ WellFormedList vs

def WellFormedDict : List (Text × PyJson) → Prop
  | [] => True
  | (_, v) :: kvs => v.WellFormed ∧ WellFormedDict kvs

end

theorem sortedList_eq (vs : List PyJson) : sortedList vs = vs.map sorted := by
  induction vs with
  | nil => rfl
  | cons v vs ih => rw [sortedList, ih, List.map_cons]

theorem sortedDict_eq (kvs : List (Text × PyJson)) :
    sortedDict kvs = kvs.map fun kv => (kv.1, kv.2.sorted) := by
  induction kvs with
  | nil => rfl
  | cons kv kvs ih => rw [sortedDict, ih, List.map_cons]

theorem dumpsList_eq (level : ℕ) (vs : List PyJson) :
    dumpsList level vs = vs.map (dumps level) := by
  induction vs with
  | nil => rfl
  | cons v vs ih => rw [dumpsList, ih, List.map_cons]

/-- The text of an item of an object. -/
def dumpsItem (level : ℕ) (kv : Text × PyJson) : Text :=
  quoted (.ofText kv.1) ++ txt ": " ++ dumps level kv.2

theorem dumpsDict_eq (level : ℕ) (kvs : List (Text × PyJson)) :
    dumpsDict level kvs = kvs.map fun kv => (kv.1, dumpsItem level kv) := by
  induction kvs with
  | nil => rfl
  | cons kv kvs ih =>
    rw [dumpsDict, ih, List.map_cons]
    rfl

theorem wellFormedList_iff (vs : List PyJson) : WellFormedList vs ↔ ∀ v ∈ vs, v.WellFormed := by
  induction vs with
  | nil => simp [WellFormedList]
  | cons v vs ih => simp [WellFormedList, ih]

theorem wellFormedDict_iff (kvs : List (Text × PyJson)) :
    WellFormedDict kvs ↔ ∀ kv ∈ kvs, kv.2.WellFormed := by
  induction kvs with
  | nil => simp [WellFormedDict]
  | cons kv kvs ih => rw [WellFormedDict, ih, List.forall_mem_cons]

/-- The items of an object in order. -/
def byKey (kvs : List (Text × PyJson)) : List (Text × PyJson) :=
  kvs.insertionSort fun a b => a.1 ≤ b.1

theorem byKey_perm (kvs : List (Text × PyJson)) : (byKey kvs).Perm kvs :=
  List.perm_insertionSort _ kvs

theorem sorted_dict (kvs : List (Text × PyJson)) :
    sorted (.dict kvs) = .dict ((byKey kvs).map fun kv => (kv.1, kv.2.sorted)) := by
  rw [sorted, sortedDict_eq]
  exact congrArg dict (List.map_insertionSort (fun a b => a.1 ≤ b.1) (fun a b => a.1 ≤ b.1)
    (fun kv => (kv.1, kv.2.sorted)) kvs fun _ _ _ _ => Iff.rfl).symm

theorem dumps_dict (level : ℕ) (kvs : List (Text × PyJson)) : dumps level (.dict kvs) =
    bracketed level '\x7b' '\x7d' ((byKey kvs).map (dumpsItem (level + 1))) := by
  have hsort : (byKey kvs).map (fun kv => (kv.1, dumpsItem (level + 1) kv)) =
      (dumpsDict (level + 1) kvs).insertionSort fun a b => a.1 ≤ b.1 := by
    rw [dumpsDict_eq]
    exact List.map_insertionSort (fun a b => a.1 ≤ b.1) (fun a b => a.1 ≤ b.1)
      (fun kv => (kv.1, dumpsItem (level + 1) kv)) kvs fun _ _ _ _ => Iff.rfl
  rw [dumps, ← hsort, List.map_map]
  rfl

/-- Induction on a value, with all items of a list or an object at once. -/
theorem induct {P : PyJson → Prop} (null : P .null) (bool : ∀ b, P (.bool b))
    (int : ∀ n, P (.int n)) (str : ∀ s, P (.str s))
    (list : ∀ items, (∀ v ∈ items, P v) → P (.list items))
    (dict : ∀ items, (∀ kv ∈ items, P kv.2) → P (.dict items)) (v : PyJson) : P v :=
  @PyJson.rec P (fun items => ∀ v ∈ items, P v) (fun items => ∀ kv ∈ items, P kv.2)
    (fun kv => P kv.2) null bool int str list dict (fun _ h => absurd h List.not_mem_nil)
    (fun _ _ hv hvs => List.forall_mem_cons.2 ⟨hv, hvs⟩)
    (fun _ h => absurd h List.not_mem_nil)
    (fun _ _ hkv hkvs => List.forall_mem_cons.2 ⟨hkv, hkvs⟩) (fun _ _ hv => hv) v

theorem skipSpace_cons {c : Char} (hc : isSpace c = false) (t : Text) :
    skipSpace (c :: t) = c :: t := by
  rw [skipSpace, List.dropWhile_cons]
  exact if_neg fun h => Bool.false_ne_true (hc.symm.trans h)

theorem skipSpace_newline (level : ℕ) (t : Text) :
    skipSpace (newline level ++ t) = skipSpace t := by
  refine List.dropWhile_append_of_pos fun c hc => ?_
  obtain rfl | hc := List.mem_cons.1 hc
  · rfl
  · rw [List.eq_of_mem_replicate hc]
    rfl

/-- How a value begins. -/
def Begins (t : Text) : Prop :=
  ∃ c r, t = c :: r ∧ isSpace c = false ∧ c ≠ ']' ∧ c ≠ '\x7d'

theorem Begins.append {t : Text} (h : Begins t) (s : Text) : Begins (t ++ s) := by
  obtain ⟨c, r, rfl, hc⟩ := h
  exact ⟨c, r ++ s, rfl, hc⟩

theorem Begins.skipSpace {t : Text} (h : Begins t) : skipSpace t = t := by
  obtain ⟨c, r, rfl, hc, -⟩ := h
  exact skipSpace_cons hc r

/-- The text of an integer. -/
theorem toList_toString (n : ℤ) : (toString n).toList =
    if n < 0 then '-' :: Nat.toDigits 10 n.natAbs else Nat.toDigits 10 n.natAbs := by
  cases n with
  | ofNat n => exact Nat.toList_repr
  | negSucc n =>
    show ("-" ++ Nat.repr (n + 1)).toList = _
    rw [String.toList_append, Nat.toList_repr, if_pos (Int.negSucc_lt_zero n)]
    rfl

theorem digit_ne {c : Char} (h : c.isDigit = true) : isSpace c = false ∧ c ≠ ']' ∧ c ≠ '\x7d' ∧
    c ≠ '"' ∧ c ≠ '\x7b' ∧ c ≠ '[' ∧ c ≠ 'n' ∧ c ≠ 't' ∧ c ≠ 'f' ∧ c ≠ '-' := by
  refine ⟨?_, ?_, ?_, ?_, ?_, ?_, ?_, ?_, ?_, ?_⟩
  · by_contra hs
    simp only [isSpace, Bool.not_eq_false, Bool.or_eq_true, decide_eq_true_eq] at hs
    obtain ((rfl | rfl) | rfl) | rfl := hs <;> simp at h
  all_goals
    rintro rfl
    simp at h

theorem begins_int (n : ℤ) : Begins (toString n).toList := by
  rw [toList_toString]
  split
  · exact ⟨'-', _, rfl, rfl, by decide, by decide⟩
  · obtain ⟨c, r, hr⟩ := List.exists_cons_of_ne_nil (Nat.toDigits_ne_nil (n := n.natAbs) (b := 10))
    have hc := digit_ne (Nat.isDigit_of_mem_toDigits (by decide) (by decide)
      (hr ▸ List.mem_cons_self : c ∈ Nat.toDigits 10 n.natAbs))
    exact ⟨c, r, hr, hc.1, hc.2.1, hc.2.2.1⟩

theorem begins_bracketed (level : ℕ) (left right : Char) (items : List Text)
    (hl : isSpace left = false ∧ left ≠ ']' ∧ left ≠ '\x7d') :
    Begins (bracketed level left right items) := by
  rw [bracketed]
  split
  · exact ⟨left, _, rfl, hl⟩
  · exact ⟨left, _, rfl, hl⟩

theorem not_length_bracketed (level : ℕ) (left right : Char) (items : List Text) :
    ¬ (bracketed level left right items).length ≤ 0 := by
  rw [bracketed]
  split <;> simp

theorem begins_dumps (level : ℕ) (v : PyJson) : Begins (dumps level v) := by
  cases v with
  | null => exact ⟨'n', ['u', 'l', 'l'], by simp [dumps, txt], rfl, by decide, by decide⟩
  | bool b =>
    cases b with
    | false => exact ⟨'f', ['a', 'l', 's', 'e'], by simp [dumps, txt], rfl, by decide, by decide⟩
    | true => exact ⟨'t', ['r', 'u', 'e'], by simp [dumps, txt], rfl, by decide, by decide⟩
  | int n => exact begins_int n
  | str s => exact ⟨'"', _, rfl, rfl, by decide, by decide⟩
  | list items => exact begins_bracketed _ _ _ _ ⟨rfl, by decide, by decide⟩
  | dict items => exact begins_bracketed _ _ _ _ ⟨rfl, by decide, by decide⟩

theorem begins_intercalate {sep : Text} {texts : List Text} (hne : texts ≠ [])
    (h : ∀ x ∈ texts, Begins x) : Begins (sep.intercalate texts) := by
  cases texts with
  | nil => exact absurd rfl hne
  | cons x xs =>
    have hx := h x List.mem_cons_self
    cases xs with
    | nil =>
      rw [List.intercalate_singleton]
      exact hx
    | cons y ys =>
      rw [List.intercalate_cons_cons, List.append_assoc]
      exact hx.append _

theorem begins_dumpsItem (level : ℕ) (kv : Text × PyJson) : Begins (dumpsItem level kv) :=
  ⟨'"', _, rfl, rfl, by decide, by decide⟩

theorem begins_texts {α : Type} {f : α → Text} (hf : ∀ a, Begins (f a)) {as : List α}
    (hne : as ≠ []) (sep rest : Text) : Begins (sep.intercalate (as.map f) ++ rest) := by
  refine (begins_intercalate (List.map_eq_nil_iff.not.2 hne) fun x hx => ?_).append rest
  obtain ⟨a, -, rfl⟩ := List.mem_map.1 hx
  exact hf a

/-- The value is read back from what is written at any level, whatever follows. -/
def ReadBack (v : PyJson) : Prop :=
  ∀ level n t, Follow t → (dumps level v).length ≤ n →
    scanOnce n (dumps level v ++ t) = some (v.sorted, t)

theorem follow_comma (t : Text) : Follow (',' :: t) := fun _ h => Or.inl (Option.some.inj h).symm

theorem follow_newline (level : ℕ) (t : Text) : Follow (newline level ++ t) :=
  fun _ h => Or.inr (Option.some.inj h).symm

theorem scanOnce_plain {n : ℕ} {c : Char} {t : Text} (hq : c ≠ '"') (ho : c ≠ '\x7b')
    (ha : c ≠ '[') : scanOnce (n + 1) (c :: t) = scanPlain (c :: t) := by
  rw [scanOnce, if_neg hq, if_neg ho, if_neg ha]

theorem readBack_int {n : ℤ} (hn : (Nat.toDigits 10 n.natAbs).length ≤ maxDigits) :
    ReadBack (.int n) := by
  intro level fuel t ht hlen
  obtain ⟨c, r, hr⟩ := List.exists_cons_of_ne_nil
    (Nat.toDigits_ne_nil (n := n.natAbs) (b := 10))
  have hc := digit_ne (Nat.isDigit_of_mem_toDigits (by decide) (by decide)
    (hr ▸ List.mem_cons_self : c ∈ Nat.toDigits 10 n.natAbs))
  obtain ⟨-, -, -, hq, ho, ha, hnull, htrue, hfalse, hminus⟩ := hc
  rw [dumps, toList_toString] at hlen ⊢
  cases fuel with
  | zero =>
    split at hlen
    · simp at hlen
    · simp [Nat.toDigits_ne_nil] at hlen
  | succ fuel =>
    split
    · next hneg =>
      have habs : -(n.natAbs : ℤ) = n := by omega
      rw [List.cons_append, scanOnce_plain (by decide) (by decide) (by decide), scanPlain,
        if_neg (by simp), if_neg (by simp), if_neg (by simp), if_pos List.head?_cons,
        List.tail_cons, scanNat_toDigits hn ht]
      show some (int (-(n.natAbs : ℤ)), t) = some (int n, t)
      rw [habs]
    · next hpos =>
      have habs : (n.natAbs : ℤ) = n := by omega
      have hscan := scanNat_toDigits hn ht
      rw [hr, List.cons_append] at hscan ⊢
      rw [scanOnce_plain hq ho ha, scanPlain, if_neg (by simp [hnull.symm]),
        if_neg (by simp [htrue.symm]), if_neg (by simp [hfalse.symm]), if_neg (by simp [hminus]),
        hscan]
      show some (int n.natAbs, t) = some (int n, t)
      rw [habs]

theorem readBack_str (s : PyText) : ReadBack (.str s) := by
  intro level n t _ hlen
  cases n with
  | zero => simp [dumps, quoted] at hlen
  | succ n =>
    show scanOnce (n + 1) ('"' :: (s.flatMap escapeChar ++ ['"']) ++ t) = _
    rw [List.cons_append, scanOnce, if_pos rfl, List.append_assoc, List.singleton_append,
      scanStr_escaped]
    rfl

theorem readBack_plain {v : PyJson} {c : Char} {r : Text} (hd : ∀ level, dumps level v = c :: r)
    (hv : v.sorted = v) (hq : c ≠ '"') (ho : c ≠ '\x7b') (ha : c ≠ '[')
    (hs : ∀ t, scanPlain (c :: r ++ t) = some (v, t)) : ReadBack v := by
  intro level n t _ hlen
  rw [hd] at hlen ⊢
  cases n with
  | zero => simp at hlen
  | succ n =>
    have h := hs t
    rw [List.cons_append] at h ⊢
    rw [scanOnce_plain hq ho ha, h, hv]

/-- The items of an array are read back. -/
theorem scanItems_dumps {level : ℕ} {vs : List PyJson} (hne : vs ≠ [])
    (hvs : ∀ v ∈ vs, ReadBack v) (n : ℕ) (items : List PyJson) (t : Text)
    (hlen : ((',' :: newline (level + 1)).intercalate (vs.map (dumps (level + 1)))).length +
      (newline level).length + 1 ≤ n) :
    scanItems n items ((',' :: newline (level + 1)).intercalate (vs.map (dumps (level + 1))) ++
      (newline level ++ ']' :: t)) = some (.list (items ++ vs.map sorted), t) := by
  induction vs generalizing n items with
  | nil => exact absurd rfl hne
  | cons v vs ih =>
    have hv := hvs v List.mem_cons_self
    cases n with
    | zero => omega
    | succ n =>
      cases vs with
      | nil =>
        -- the last item is followed by the bracket
        rw [List.map_singleton, List.intercalate_singleton] at hlen ⊢
        rw [scanItems, hv (level + 1) n _ (follow_newline level _) (by omega)]
        simp only [Option.bind_eq_bind, Option.bind_some]
        rw [skipSpace_newline, skipSpace_cons rfl]
        rfl
      | cons w ws =>
        -- any other one by a comma
        rw [List.map_cons, List.map_cons, List.intercalate_cons_cons, ← List.map_cons] at hlen ⊢
        have hfits : ((',' :: newline (level + 1)).intercalate
            ((w :: ws).map (dumps (level + 1)))).length + (newline level).length + 1 ≤ n := by
          simp only [List.length_append, List.length_cons] at hlen ⊢
          omega
        have hrest := ih (List.cons_ne_nil w ws) (fun u hu => hvs u (List.mem_cons_of_mem v hu)) n
          (items ++ [v.sorted]) hfits
        have hbegins := begins_texts (begins_dumps (level + 1)) (List.cons_ne_nil w ws)
          (',' :: newline (level + 1)) (newline level ++ ']' :: t)
        rw [List.append_assoc, List.append_assoc, scanItems, List.cons_append, hv (level + 1) n _
          (follow_comma _) (by simp only [List.length_append] at hlen; omega)]
        simp only [Option.bind_eq_bind, Option.bind_some]
        rw [skipSpace_cons rfl]
        show scanItems n (items ++ [v.sorted]) (skipSpace (newline (level + 1) ++ _)) = _
        rw [skipSpace_newline, hbegins.skipSpace, hrest]
        simp

theorem setItem_of_notMem {key : Text} {value : PyJson} {items : List (Text × PyJson)}
    (h : key ∉ items.map Prod.fst) : setItem key value items = items ++ [(key, value)] := by
  induction items with
  | nil => rfl
  | cons kv items ih =>
    rw [List.map_cons, List.mem_cons, not_or] at h
    rw [setItem, if_neg fun he => h.1 he.symm, ih h.2, List.cons_append]

/-- One item of an object, before another one or the end. -/
theorem scanPairs_dumpsItem {level : ℕ} {kv : Text × PyJson} (hkv : ReadBack kv.2) {n : ℕ}
    (items : List (Text × PyJson)) {t : Text} (ht : Follow t)
    (hlen : (dumpsItem level kv).length ≤ n) :
    scanPairs (n + 1) items (dumpsItem level kv ++ t) =
      match skipSpace t with
      | [] => none
      | c :: t =>
        if c = '\x7d' then some (.dict (setItem kv.1 kv.2.sorted items), t)
        else if c = ',' then scanPairs n (setItem kv.1 kv.2.sorted items) (skipSpace t)
        else none := by
  have htext : dumpsItem level kv ++ t = '"' :: ((PyText.ofText kv.1).flatMap escapeChar ++
      '"' :: ':' :: ' ' :: (dumps level kv.2 ++ t)) := by
    simp [dumpsItem, quoted, txt]
  have hvalue : (dumps level kv.2).length ≤ n := by
    rw [dumpsItem, List.length_append] at hlen
    omega
  rw [htext, scanPairs, if_pos List.head?_cons, List.tail_cons, scanStr_escaped]
  simp only [Option.bind_eq_bind, Option.bind_some, PyText.text?_ofText]
  rw [skipSpace_cons rfl]
  show (scanOnce n (skipSpace (dumps level kv.2 ++ t))).bind _ = _
  rw [((begins_dumps level kv.2).append t).skipSpace, hkv level n t ht hvalue]
  rfl

/-- The items of an object are read back, after items with other keys. -/
theorem scanPairs_dumps {level : ℕ} {kvs : List (Text × PyJson)} (hne : kvs ≠ [])
    (hkvs : ∀ kv ∈ kvs, ReadBack kv.2) (n : ℕ) (items : List (Text × PyJson)) (t : Text)
    (hkeys : (items.map Prod.fst ++ kvs.map Prod.fst).Nodup)
    (hlen : ((',' :: newline (level + 1)).intercalate
      (kvs.map (dumpsItem (level + 1)))).length + (newline level).length + 1 ≤ n) :
    scanPairs n items ((',' :: newline (level + 1)).intercalate
      (kvs.map (dumpsItem (level + 1))) ++ (newline level ++ '\x7d' :: t)) =
        some (.dict (items ++ kvs.map fun kv => (kv.1, kv.2.sorted)), t) := by
  induction kvs generalizing n items with
  | nil => exact absurd rfl hne
  | cons kv kvs ih =>
    have hkv := hkvs kv List.mem_cons_self
    -- the key is a new one
    have hset : setItem kv.1 kv.2.sorted items = items ++ [(kv.1, kv.2.sorted)] := by
      refine setItem_of_notMem fun hmem => ?_
      exact (List.nodup_append.1 hkeys).2.2 _ hmem _ List.mem_cons_self rfl
    cases n with
    | zero => omega
    | succ n =>
      cases kvs with
      | nil =>
        rw [List.map_singleton, List.intercalate_singleton] at hlen ⊢
        rw [scanPairs_dumpsItem hkv items (follow_newline level _) (by omega), skipSpace_newline,
          skipSpace_cons rfl, hset]
        rfl
      | cons kv' kvs =>
        rw [List.map_cons, List.map_cons, List.intercalate_cons_cons, ← List.map_cons] at hlen ⊢
        have hkeys' : ((items ++ [(kv.1, kv.2.sorted)]).map Prod.fst ++
            (kv' :: kvs).map Prod.fst).Nodup := by
          rw [List.map_append, List.append_assoc]
          exact hkeys
        have hfits : ((',' :: newline (level + 1)).intercalate
            ((kv' :: kvs).map (dumpsItem (level + 1)))).length + (newline level).length + 1 ≤
              n := by
          simp only [List.length_append, List.length_cons] at hlen ⊢
          omega
        have hrest := ih (List.cons_ne_nil kv' kvs)
          (fun u hu => hkvs u (List.mem_cons_of_mem kv hu)) n (items ++ [(kv.1, kv.2.sorted)])
          hkeys' hfits
        have hbegins := begins_texts (begins_dumpsItem (level + 1)) (List.cons_ne_nil kv' kvs)
          (',' :: newline (level + 1)) (newline level ++ '\x7d' :: t)
        rw [List.append_assoc, List.append_assoc, List.cons_append,
          scanPairs_dumpsItem hkv items (follow_comma _)
            (by simp only [List.length_append] at hlen; omega), skipSpace_cons rfl, hset]
        show scanPairs n (items ++ [(kv.1, kv.2.sorted)]) (skipSpace (newline (level + 1) ++ _)) = _
        rw [skipSpace_newline, hbegins.skipSpace, hrest]
        simp

theorem readBack_null : ReadBack .null := by
  refine readBack_plain (c := 'n') (r := ['u', 'l', 'l']) (fun _ => by simp [dumps, txt]) rfl
    (by decide) (by decide) (by decide) fun t => ?_
  rw [scanPlain, if_pos (List.prefix_append _ _)]
  rfl

theorem readBack_bool (b : Bool) : ReadBack (.bool b) := by
  cases b with
  | false =>
    refine readBack_plain (c := 'f') (r := ['a', 'l', 's', 'e']) (fun _ => by simp [dumps, txt])
      rfl (by decide) (by decide) (by decide) fun t => ?_
    rw [scanPlain, if_neg (by simp), if_neg (by simp), if_pos (List.prefix_append _ _)]
    rfl
  | true =>
    refine readBack_plain (c := 't') (r := ['r', 'u', 'e']) (fun _ => by simp [dumps, txt]) rfl
      (by decide) (by decide) (by decide) fun t => ?_
    rw [scanPlain, if_neg (by simp), if_pos (List.prefix_append _ _)]
    rfl

theorem bracketed_map {α : Type} {f : α → Text} {as : List α} (hne : as ≠ []) (level : ℕ)
    (left right : Char) : bracketed level left right (as.map f) =
      left :: (newline (level + 1) ++ (',' :: newline (level + 1)).intercalate (as.map f) ++
        newline level ++ [right]) := if_neg (List.map_eq_nil_iff.not.2 hne)

theorem readBack_list {items : List PyJson} (h : ∀ v ∈ items, ReadBack v) :
    ReadBack (.list items) := by
  intro level n t ht hlen
  rw [dumps, dumpsList_eq] at hlen ⊢
  rw [sorted, sortedList_eq]
  cases n with
  | zero => exact absurd hlen (not_length_bracketed _ _ _ _)
  | succ n =>
    by_cases hne : items = []
    · subst hne
      rfl
    · rw [bracketed_map hne] at hlen ⊢
      have hbegins := begins_texts (begins_dumps (level + 1)) hne (',' :: newline (level + 1))
        (newline level ++ ']' :: t)
      have hfits : ((',' :: newline (level + 1)).intercalate
          (items.map (dumps (level + 1)))).length + (newline level).length + 1 ≤ n := by
        rw [List.length_cons, List.length_append, List.length_append, List.length_append,
          List.length_singleton] at hlen
        omega
      have hscan := scanItems_dumps hne h n [] t hfits
      obtain ⟨d, r, hd, -, hbracket, -⟩ := id hbegins
      have htext : '[' :: (newline (level + 1) ++ (',' :: newline (level + 1)).intercalate
          (items.map (dumps (level + 1))) ++ newline level ++ [']']) ++ t =
            '[' :: (newline (level + 1) ++ d :: r) := by
        rw [← hd]
        simp
      rw [htext, scanOnce, if_neg (by decide), if_neg (by decide), if_pos rfl, skipSpace_newline,
        ← hd, hbegins.skipSpace, hd]
      show (if d = ']' then _ else scanItems n [] (d :: r)) = _
      rw [if_neg hbracket, ← hd, hscan]
      rfl

theorem readBack_dict {items : List (Text × PyJson)} (hkeys : (items.map Prod.fst).Nodup)
    (h : ∀ kv ∈ items, ReadBack kv.2) : ReadBack (.dict items) := by
  intro level n t ht hlen
  rw [dumps_dict] at hlen ⊢
  rw [sorted_dict]
  have hperm := byKey_perm items
  have hkeys' : ((byKey items).map Prod.fst).Nodup := (hperm.map Prod.fst).nodup_iff.2 hkeys
  have h' : ∀ kv ∈ byKey items, ReadBack kv.2 := fun kv hkv => h kv (hperm.mem_iff.1 hkv)
  generalize byKey items = kvs at *
  cases n with
  | zero => exact absurd hlen (not_length_bracketed _ _ _ _)
  | succ n =>
    by_cases hne : kvs = []
    · subst hne
      rfl
    · rw [bracketed_map hne] at hlen ⊢
      have hbegins := begins_texts (begins_dumpsItem (level + 1)) hne (',' :: newline (level + 1))
        (newline level ++ '\x7d' :: t)
      have hfits : ((',' :: newline (level + 1)).intercalate
          (kvs.map (dumpsItem (level + 1)))).length + (newline level).length + 1 ≤ n := by
        rw [List.length_cons, List.length_append, List.length_append, List.length_append,
          List.length_singleton] at hlen
        omega
      have hscan := scanPairs_dumps hne h' n [] t hkeys' hfits
      obtain ⟨d, r, hd, -, -, hbrace⟩ := id hbegins
      have htext : '\x7b' :: (newline (level + 1) ++ (',' :: newline (level + 1)).intercalate
          (kvs.map (dumpsItem (level + 1))) ++ newline level ++ ['\x7d']) ++ t =
            '\x7b' :: (newline (level + 1) ++ d :: r) := by
        rw [← hd]
        simp
      rw [htext, scanOnce, if_neg (by decide), if_pos rfl, skipSpace_newline, ← hd,
        hbegins.skipSpace, hd]
      show (if d = '\x7d' then _ else scanPairs n [] (d :: r)) = _
      rw [if_neg hbrace, ← hd, hscan]
      rfl

/-- **Every value is read back**, at any level. -/
theorem readBack (v : PyJson) (hv : v.WellFormed) : ReadBack v := by
  induction v using induct with
  | null => exact readBack_null
  | bool b => exact readBack_bool b
  | int n => exact readBack_int hv
  | str s => exact readBack_str s
  | list items ih =>
    rw [WellFormed, wellFormedList_iff] at hv
    exact readBack_list fun v hmem => ih v hmem (hv v hmem)
  | dict items ih =>
    rw [WellFormed, wellFormedDict_iff] at hv
    exact readBack_dict hv.1 fun kv hmem => ih kv hmem (hv.2 kv hmem)

/-- What a program that ends its file with a newline reads back. -/
theorem loads_file {v : PyJson} (hv : v.WellFormed) :
    loads (dumps 0 v ++ ['\n']) = some v.sorted := by
  have hbegins := (begins_dumps 0 v).append ['\n']
  have hscan := readBack v hv 0 (dumps 0 v ++ ['\n']).length ['\n'] (follow_newline 0 [])
    (by rw [List.length_append]; omega)
  rw [loads, hbegins.skipSpace, hscan]
  rfl

/-! ### What is written is ASCII -/

/-- A character that every encoding of a locale has, and no reader translates. -/
def IsPlain (c : Char) : Prop := c.toNat < 128 ∧ c ≠ '\r'

instance (c : Char) : Decidable (IsPlain c) := inferInstanceAs (Decidable (_ ∧ _))

theorem isPlain_hexDigit (n : ℕ) : IsPlain (hexDigit n) := by
  have hdigits : txt "0123456789abcdef" =
      ['0', '1', '2', '3', '4', '5', '6', '7', '8', '9', 'a', 'b', 'c', 'd', 'e', 'f'] := by
    simp [txt]
  have hall : ∀ c ∈ '0' :: txt "0123456789abcdef", IsPlain c := by
    rw [hdigits]
    decide
  refine hall _ ?_
  rw [hexDigit, List.getD_eq_getElem?_getD]
  cases h : (txt "0123456789abcdef")[n]? with
  | none => exact List.mem_cons_self
  | some c => exact List.mem_cons_of_mem _ (List.mem_of_getElem? h)

theorem plain_unicodeEscape (n : ℕ) : ∀ c ∈ unicodeEscape n, IsPlain c := by
  simp only [unicodeEscape, List.forall_mem_cons]
  exact ⟨by decide, by decide, isPlain_hexDigit _, isPlain_hexDigit _, isPlain_hexDigit _,
    isPlain_hexDigit _, fun _ h => absurd h List.not_mem_nil⟩

theorem plain_escapeChar (x : PyChar) : ∀ c ∈ escapeChar x, IsPlain c := by
  cases x with
  | surrogate byte => exact plain_unicodeEscape _
  | char d =>
    rw [escapeChar]
    have hshort : ∀ e ∈ ['"', '\\', 'n', 'r', 't', 'f', 'b'], ∀ c ∈ ['\\', e], IsPlain c := by
      decide
    split_ifs with h1 h2 h3 h4 h5 h6 h7 h8 h9
    · simpa [txt] using hshort '"' (by decide)
    · simpa [txt] using hshort '\\' (by decide)
    · simpa [txt] using hshort 'n' (by decide)
    · simpa [txt] using hshort 'r' (by decide)
    · simpa [txt] using hshort 't' (by decide)
    · simpa [txt] using hshort 'f' (by decide)
    · simpa [txt] using hshort 'b' (by decide)
    · intro c hc
      obtain rfl := List.mem_singleton.1 hc
      have hle : c.toNat ≤ '~'.toNat := h8.2
      have h126 : '~'.toNat = 126 := rfl
      exact ⟨by omega, h4⟩
    · exact plain_unicodeEscape _
    · exact List.forall_mem_append.2 ⟨plain_unicodeEscape _, plain_unicodeEscape _⟩

theorem plain_quoted (s : PyText) : ∀ c ∈ quoted s, IsPlain c := by
  intro c hc
  obtain rfl | hc := List.mem_cons.1 hc
  · decide
  · obtain hc | hc := List.mem_append.1 hc
    · obtain ⟨x, -, hx⟩ := List.mem_flatMap.1 hc
      exact plain_escapeChar x c hx
    · obtain rfl := List.mem_singleton.1 hc
      decide

theorem plain_newline (level : ℕ) : ∀ c ∈ newline level, IsPlain c := by
  intro c hc
  obtain rfl | hc := List.mem_cons.1 hc
  · decide
  · rw [List.eq_of_mem_replicate hc]
    decide

theorem plain_bracketed {level : ℕ} {left right : Char} {items : List Text} (hl : IsPlain left)
    (hr : IsPlain right) (h : ∀ x ∈ items, ∀ c ∈ x, IsPlain c) :
    ∀ c ∈ bracketed level left right items, IsPlain c := by
  have hsep : ∀ c ∈ ',' :: newline (level + 1), IsPlain c :=
    List.forall_mem_cons.2 ⟨by decide, plain_newline _⟩
  have hinter : ∀ c ∈ (',' :: newline (level + 1)).intercalate items, IsPlain c := by
    induction items with
    | nil => exact fun _ h => absurd h List.not_mem_nil
    | cons x xs ih =>
      rw [List.forall_mem_cons] at h
      cases xs with
      | nil =>
        rw [List.intercalate_singleton]
        exact h.1
      | cons y ys =>
        rw [List.intercalate_cons_cons, List.forall_mem_append, List.forall_mem_append]
        exact ⟨⟨h.1, hsep⟩, ih h.2⟩
  rw [bracketed]
  split
  · simpa using ⟨hl, hr⟩
  · simp only [List.forall_mem_cons, List.forall_mem_append]
    exact ⟨hl, ⟨⟨plain_newline _, hinter⟩, plain_newline _⟩, hr,
      fun _ h => absurd h List.not_mem_nil⟩

/-- **`json.dumps` writes ASCII.** -/
theorem plain_dumps (v : PyJson) (level : ℕ) : ∀ c ∈ dumps level v, IsPlain c := by
  induction v using induct generalizing level with
  | null =>
    simp only [dumps, txt]
    decide
  | bool b =>
    cases b <;> simp only [dumps, txt] <;> decide
  | int n =>
    have hdigit : ∀ c ∈ Nat.toDigits 10 n.natAbs, IsPlain c := by
      intro c hc
      have hd := Nat.isDigit_of_mem_toDigits (by decide) (by decide) hc
      refine ⟨?_, ?_⟩
      · rw [Char.isDigit, Bool.and_eq_true, decide_eq_true_eq, decide_eq_true_eq] at hd
        have hle : c.toNat ≤ 57 := hd.2
        omega
      · rintro rfl
        simp at hd
    rw [dumps, toList_toString]
    split
    · exact List.forall_mem_cons.2 ⟨by decide, hdigit⟩
    · exact hdigit
  | str s => exact plain_quoted s
  | list items ih =>
    rw [dumps, dumpsList_eq]
    refine plain_bracketed (by decide) (by decide) fun x hx => ?_
    obtain ⟨v, hv, rfl⟩ := List.mem_map.1 hx
    exact ih v hv _
  | dict items ih =>
    rw [dumps_dict]
    refine plain_bracketed (by decide) (by decide) fun x hx => ?_
    obtain ⟨kv, hkv, rfl⟩ := List.mem_map.1 hx
    simp only [dumpsItem, List.forall_mem_append]
    refine ⟨⟨plain_quoted _, ?_⟩, ih kv ((byKey_perm items).mem_iff.1 hkv) _⟩
    simp only [txt]
    decide

/-- The order of the keys in a value does not show. -/
theorem dumps_sorted (v : PyJson) (level : ℕ) : dumps level v.sorted = dumps level v := by
  induction v using induct generalizing level with
  | null => rfl
  | bool b => rfl
  | int n => rfl
  | str s => rfl
  | list items ih =>
    rw [sorted, sortedList_eq, dumps, dumps, dumpsList_eq, dumpsList_eq, List.map_map]
    exact congrArg _ (List.map_congr_left fun v hv => ih v hv (level + 1))
  | dict items ih =>
    have hsort : byKey ((byKey items).map fun kv => (kv.1, kv.2.sorted)) =
        (byKey items).map fun kv => (kv.1, kv.2.sorted) := by
      have hmap := List.map_insertionSort (fun a b => a.1 ≤ b.1) (fun a b => a.1 ≤ b.1)
        (fun kv : Text × PyJson => (kv.1, kv.2.sorted)) (byKey items) fun _ _ _ _ => Iff.rfl
      rw [byKey, ← hmap]
      exact congrArg _ (List.pairwise_insertionSort _ items).insertionSort_eq
    rw [sorted_dict, dumps_dict, dumps_dict, hsort, List.map_map]
    refine congrArg _ (List.map_congr_left fun kv hkv => ?_)
    show quoted _ ++ _ ++ dumps (level + 1) kv.2.sorted = _
    rw [ih kv ((byKey_perm items).mem_iff.1 hkv) (level + 1)]
    rfl

/-- **`json.loads` after `json.dumps`.**  A value is read back with the keys of its objects in
order, and two values are written alike exactly when they are equal up to that order. -/
theorem loads_dumps (v w : PyJson) (hv : v.WellFormed) (hw : w.WellFormed) :
    loads (dumps 0 v ++ ['\n']) = some v.sorted ∧
      (dumps 0 v = dumps 0 w ↔ v.sorted = w.sorted) := by
  refine ⟨loads_file hv, fun h => ?_, fun h => ?_⟩
  · have hloads := loads_file hv
    rw [h, loads_file hw] at hloads
    exact (Option.some.inj hloads).symm
  · rw [← dumps_sorted v, h, dumps_sorted]

theorem loads_dumps_sample :
    let v := dict [(['b'], list [int (-10), null]), (['a'], str [.surrogate 105, .char '\x7f'])]
    let w := dict [(['a'], str [.surrogate 105, .char '\x7f']), (['b'], list [int (-10), null])]
    loads (dumps 0 v ++ ['\n']) = some v.sorted ∧
      (dumps 0 v = dumps 0 w ↔ v.sorted = w.sorted) := by
  have hten : (Nat.toDigits 10 10).length ≤ maxDigits := by decide
  exact loads_dumps _ _ (by simp [WellFormed, WellFormedDict, WellFormedList, hten])
    (by simp [WellFormed, WellFormedDict, WellFormedList, hten])

end PyJson

end Sources

end InstallKit
