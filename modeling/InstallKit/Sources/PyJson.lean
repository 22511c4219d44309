import InstallKit.Sources.PyText
import Mathlib.Data.Char
import Mathlib.Data.List.Lex
import Mathlib.Data.List.Sort

/-!
# `json.dumps`

The output of `json.dumps(value, indent=2, sort_keys=True)`: what is not printable ASCII is escaped,
also a surrogate, so the output is a text for every string.
-/

namespace InstallKit

namespace Sources

/-- A value; the keys of an object are spelled out in the program. -/
inductive PyJson
  | null
  | bool (b : Bool)
  | int (n : ℤ)
  | str (s : PyText)
  | list (items : List PyJson)
  | dict (items : List (Text × PyJson))

namespace PyJson

/-- A digit of base 16. -/
def hexDigit (n : ℕ) : Char := (txt "0123456789abcdef").getD n '0'

/-- `'\\u{0:04x}'.format(n)` -/
def unicodeEscape (n : ℕ) : Text :=
  '\\' :: 'u' :: [hexDigit (n / 4096 % 16), hexDigit (n / 256 % 16), hexDigit (n / 16 % 16),
    hexDigit (n % 16)]

/-- One character of `py_encode_basestring_ascii`; beyond the first plane it is a pair of
surrogates. -/
def escapeChar : PyChar → Text
  | .surrogate byte => unicodeEscape (0xdc80 + byte)
  | .char c =>
    if c = '"' then txt "\\\""
    else if c = '\\' then txt "\\\\"
    else if c = '\n' then txt "\\n"
    else if c = '\r' then txt "\\r"
    else if c = '\t' then txt "\\t"
    else if c = '\x0c' then txt "\\f"
    else if c = '\x08' then txt "\\b"
    else if ' ' ≤ c ∧ c ≤ '~' then [c]
    else if c.toNat < 0x10000 then unicodeEscape c.toNat
    else unicodeEscape (0xd800 + (c.toNat - 0x10000) / 0x400) ++
      unicodeEscape (0xdc00 + (c.toNat - 0x10000) % 0x400)

def quoted (s : PyText) : Text := '"' :: (s.flatMap escapeChar ++ ['"'])

/-- A new line at a level. -/
def newline (level : ℕ) : Text := '\n' :: List.replicate (2 * level) ' '

/-- What stands between two brackets, one line for each item. -/
def bracketed (level : ℕ) (left right : Char) (items : List Text) : Text :=
  if items = [] then [left, right]
  else left :: (newline (level + 1) ++ (',' :: newline (level + 1)).intercalate items ++
    newline level ++ [right])

mutual

/-- `json.dumps` at a level. -/
def dumps (level : ℕ) : PyJson → Text
  | null => txt "null"
  | bool b => if b then txt "true" else txt "false"
  | int n => (toString n).toList
  | str s => quoted s
  | list items => bracketed level '[' ']' (dumpsList (level + 1) items)
  | dict items => bracketed level '{' '}'
      (((dumpsDict (level + 1) items).insertionSort fun a b => a.1 ≤ b.1).map Prod.snd)

def dumpsList (level : ℕ) : List PyJson → List Text
  | [] => []
  | v :: vs => dumps level v :: dumpsList level vs

/-- The items with their keys. -/
def dumpsDict (level : ℕ) : List (Text × PyJson) → List (Text × Text)
  | [] => []
  | (k, v) :: kvs =>
    (k, quoted (.ofText k) ++ txt ": " ++ dumps level v) :: dumpsDict level kvs

end

example : dumps 0 (.dict [(txt "b", .list [.int (-1), .null]), (txt "a", .str [.surrogate 105])]) =
    txt "\x7b\n  \"a\": \"\\udce9\",\n  \"b\": [\n    -1,\n    null\n  ]\n\x7d" := by decide +kernel

end PyJson

end Sources

end InstallKit
