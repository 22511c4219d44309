import InstallKit.Profiles.Slug
import InstallKit.Sources.PyStrings
import Mathlib.Data.Char
import Mathlib.Data.List.Lex
import Mathlib.Data.List.Sort

/-!
# What a profile says about the processor

`parse_cpuinfo` of `generic_pc_profile.py` reads `/proc/cpuinfo`, which has one block for every
processor, and the output of `lscpu`, and merges them in one dictionary.  The values of `lscpu` go
in with `setdefault`, which leaves a key alone that is there; and behind a block every key is there,
if only with `None`.

* `mergedValue_of_block`, `mergedValue_of_no_block` : with a block, no text is taken from `lscpu`;
  without one, all of them are.
* `lscpu_fills_iff` : so `lscpu` fills what the block lacks exactly when nothing is lacking that it
  knows.
-/

namespace InstallKit

namespace Profiles

open Sources

/-! ### Texts -/

/-- `PLACEHOLDERS` -/
def placeholders : List Text :=
  [[], txt "unknown", txt "none", txt "n/a", txt "not specified", txt "not applicable",
    txt "system product name", txt "system manufacturer", txt "to be filled by o.e.m.",
    txt "to be filled by oem", txt "default string", txt "defaultstring"]

/-- `valid_text` -/
def validText : Option Text → Option Text
  | none => none
  | some value =>
    let value := joinWords (pyWords (strip isPySpace value))
    if lower value ∈ placeholders then none else if value = [] then none else some value

/-- `Collector.read_text`, of a file in text mode; `none` is an `OSError`. -/
def readText (file : Option Text) : Option Text :=
  file.bind fun text =>
    let value := (strip isPySpace text).filter (· ≠ '\x00')
    if value = [] then none else some value

/-- How a tool runs. -/
inductive ToolRun
  /-- It is not on the path. -/
  | missing
  /-- It cannot be started, or takes too long: the text of the exception. -/
  | failed (exc : Text)
  /-- Its status and what it writes, in text mode. -/
  | exited (status : ℤ) (stdout stderr : Text)

/-- `Collector.run` of a tool without arguments: what it returns, and the messages for `warn`. -/
def runTool (exe : Text) : ToolRun → Option Text × List Text
  | .missing => (none, [txt "tool '" ++ exe ++
      txt "' is not installed; related hardware fields will be omitted"])
  | .failed exc => (none, [txt "could not run " ++ exe ++ txt ": " ++ exc])
  | .exited status stdout stderr =>
    if status ≠ 0 then
      let suffix := match (pySplitlines (strip isPySpace stderr)).getLast? with
        | some detail => txt ": " ++ detail
        | none => []
      (none, [exe ++ txt " returned status " ++ (toString status).toList ++ suffix])
    else
      let out := strip isPySpace stdout
      (if out = [] then none else some out, [])

/-! ### Blocks -/

/-- The assignments of a dictionary, in their order. -/
abbrev Row := List (Text × Text)

/-- The lines of a block with a colon. -/
def parseRow (chunk : Text) : Row :=
  (pySplitlines chunk).filterMap fun line =>
    (keyValue? line).map fun kv => (lower (strip isPySpace kv.1), strip isPySpace kv.2)

namespace Row

/-- `row.get(key)`: the last assignment counts. -/
def get (row : Row) (key : Text) : Option Text := row.reverse.lookup key

/-- `row.get(k) or row.get(k') or ...`: the first value that is not empty, or else the last one. -/
def getOr (row : Row) : List Text → Option Text
  | [] => none
  | [key] => row.get key
  | key :: keys =>
    match row.get key with
    | some value => if value = [] then row.getOr keys else some value
    | none => row.getOr keys

end Row

/-- The blocks with a line in them. -/
def blocksOf (raw : Option Text) : List Row :=
  match raw with
  | some raw => ((splitParagraphs raw).map parseRow).filter (· ≠ [])
  | none => []

/-! ### The dictionary -/

/-- The keys whose values are texts. -/
inductive Field
  | modelName
  | vendor
  | family
  | model
  | stepping
  deriving DecidableEq

/-- Where the value is read in a block. -/
def Field.cpuinfoKeys : Field → List Text
  | modelName => [txt "model name", txt "hardware", txt "processor"]
  | vendor => [txt "vendor_id"]
  | family => [txt "cpu family"]
  | model => [txt "model"]
  | stepping => [txt "stepping"]

/-- Where it is read in the output of `lscpu`. -/
def Field.lscpuKey : Field → Text
  | modelName => txt "model name"
  | vendor => txt "vendor id"
  | family => txt "cpu family"
  | model => txt "model"
  | stepping => txt "stepping"

/-- The dictionary `result` before its flags are looked at.  A text is absent (`none`), `None`
(`some none`) or there. -/
structure CpuDict where
  text : Field → Option (Option Text)
  flags : Option (List Text)
  threads : Option ℤ
  cores : Option ℤ

def CpuDict.empty : CpuDict := ⟨fun _ => none, none, none, none⟩

/-- `sorted(set(words))` -/
def sortedSet (words : List Text) : List Text := words.eraseDups.insertionSort (· ≤ ·)

/-- The cores that the blocks count. -/
def coresOf (first : Row) (processors : List Row) : Option ℤ :=
  let physicalCores := (processors.filterMap fun b =>
    (b.get (txt "physical id")).bind fun physical =>
      (b.get (txt "core id")).map fun core => (physical, core)).eraseDups
  if physicalCores ≠ [] then some physicalCores.length
  else
    let value := first.getOr [txt "cpu cores"]
    match pyInt (if value.getD [] = [] then txt "0" else value.getD []) with
    | some coresPerSocket =>
      let ids := (processors.filterMap fun b => b.get (txt "physical id")).eraseDups
      let sockets : ℤ := if ids = [] then 1 else ids.length
      if 0 < coresPerSocket then some (coresPerSocket * sockets) else none
    | none => none

/-- The part of `parse_cpuinfo` for the blocks. -/
def fromBlocks : List Row → CpuDict
  | [] => .empty
  | first :: rest =>
    let flagsText := first.getOr [txt "flags", txt "features"]
    let processors := (first :: rest).filter fun b => (b.get (txt "processor")).isSome
    { text := fun f => some (validText (first.getOr f.cpuinfoKeys))
      flags := some (sortedSet (pyWords (flagsText.getD [])))
      threads := if processors = [] then none else some processors.length
      cores := coresOf first processors }

/-- The part for the output of `lscpu`. -/
def CpuDict.fill (d : CpuDict) (parsed : Row) : CpuDict where
  text f :=
    match d.text f with
    | some value => some value
    | none => some (validText (parsed.get f.lscpuKey))
  flags := d.flags
  threads :=
    match d.threads with
    | some n => some n
    | none => pyInt ((parsed.get (txt "cpu(s)")).getD (txt "0"))
  cores :=
    match d.cores with
    | some n => some n
    | none => do
      let cores ← pyInt ((parsed.get (txt "core(s) per socket")).getD (txt "0"))
      let sockets ← pyInt ((parsed.get (txt "socket(s)")).getD (txt "1"))
      some (cores * sockets)

/-- What is returned. -/
structure CpuInfo extends CpuDict where
  longMode : Bool
  sse3 : Bool
  ssse3 : Bool
  sse4a : Bool
  sse41 : Bool
  sse42 : Bool
  avx : Bool

/-- The name when none could be read. -/
def unknownName : Text := txt "Unknown x86 CPU"

/-- The message that goes with it. -/
def fallbackMessage : Text :=
  txt "CPU model name could not be read; using 'Unknown x86 CPU' fallback"

def vendorMessage : Text :=
  txt "CPU vendor could not be read; vendor-specific compatibility is unknown"

/-- `not d.get(key)` -/
def CpuDict.lacks (d : CpuDict) (f : Field) : Bool := ((d.text f).getD none).getD [] = []

/-- The dictionary before the name is defaulted, and the messages so far. -/
def merged (cpuinfo : Option Text) (lscpu : ToolRun) : CpuDict × List Text :=
  let d := fromBlocks (blocksOf (readText cpuinfo))
  match runTool (txt "lscpu") lscpu with
  | (some out, messages) => (d.fill (parseRow out), messages)
  | (none, messages) => (d, messages)

/-- `parse_cpuinfo`: the dictionary, and what it hands to `warn`, which keeps every message once. -/
def parseCpuinfo (cpuinfo : Option Text) (lscpu : ToolRun) : CpuInfo × List Text :=
  let (d, messages) := merged cpuinfo lscpu
  let flags := d.flags.getD []
  ({ text := fun f =>
        if f = .modelName ∧ d.lacks .modelName then some (some unknownName) else d.text f
     flags := d.flags
     threads := d.threads
     cores := d.cores
     longMode := txt "lm" ∈ flags
     sse3 := txt "pni" ∈ flags ∨ txt "sse3" ∈ flags
     ssse3 := txt "ssse3" ∈ flags
     sse4a := txt "sse4a" ∈ flags
     sse41 := txt "sse4_1" ∈ flags
     sse42 := txt "sse4_2" ∈ flags
     avx := txt "avx" ∈ flags },
   messages ++ (if d.lacks .modelName then [fallbackMessage] else []) ++
     if d.lacks .vendor then [vendorMessage] else [])

/-! ### The two sources -/

/-- The first block, if there is one. -/
def firstBlock (cpuinfo : Option Text) : Option Row := (blocksOf (readText cpuinfo)).head?

/-- The usable value of the first block. -/
def blockValue (cpuinfo : Option Text) (f : Field) : Option Text :=
  (firstBlock cpuinfo).bind fun row => validText (row.getOr f.cpuinfoKeys)

/-- The usable value of `lscpu`. -/
def lscpuValue (lscpu : ToolRun) (f : Field) : Option Text :=
  (runTool (txt "lscpu") lscpu).1.bind fun out => validText ((parseRow out).get f.lscpuKey)

/-- The number on the line `processor` of the first block, when no other line has a name. -/
def bareIndex (cpuinfo : Option Text) : Option Text :=
  (firstBlock cpuinfo).bind fun row =>
    if (row.getOr [txt "model name", txt "hardware"]).getD [] = [] then
      (row.get (txt "processor")).filter fun n => n ≠ [] && n.all Char.isDigit
    else none

/-- **`lscpu` fills what the block lacks**: a value that only `lscpu` has is returned, the name is
no bare index when `lscpu` has one, and it is defaulted only when neither has one. -/
structure LscpuFills (cpuinfo : Option Text) (lscpu : ToolRun) : Prop where
  fills : ∀ f v, blockValue cpuinfo f = none → lscpuValue lscpu f = some v →
    (parseCpuinfo cpuinfo lscpu).1.text f = some (some v)
  not_index : ∀ v n, lscpuValue lscpu .modelName = some v → bareIndex cpuinfo = some n →
    (parseCpuinfo cpuinfo lscpu).1.text .modelName ≠ some (some n)
  fallback : fallbackMessage ∈ (parseCpuinfo cpuinfo lscpu).2 →
    blockValue cpuinfo .modelName = none ∧ lscpuValue lscpu .modelName = none

/-- There is no block, or `lscpu` has nothing to add to the first one. -/
def NothingLacking (cpuinfo : Option Text) (lscpu : ToolRun) : Prop :=
  firstBlock cpuinfo = none ∨
    (∀ f, blockValue cpuinfo f = none → lscpuValue lscpu f = none) ∧
      (bareIndex cpuinfo ≠ none → lscpuValue lscpu .modelName = none)

variable {cpuinfo : Option Text} {lscpu : ToolRun} {f : Field} {t v : Text}

/-! ### What is in the dictionary -/

theorem validText_ne_nil {value : Option Text} (h : validText value = some v) : v ≠ [] := by
  cases value with
  | none => cases h
  | some t =>
    simp only [validText] at h
    split at h
    · cases h
    · split at h
      · cases h
      · rename_i hne
        rwa [← Option.some.inj h]

theorem blockValue_ne_nil (h : blockValue cpuinfo f = some v) : v ≠ [] := by
  obtain ⟨row, -, hv⟩ := Option.bind_eq_some_iff.1 h
  exact validText_ne_nil hv

theorem lscpuValue_ne_nil (h : lscpuValue lscpu f = some v) : v ≠ [] := by
  obtain ⟨out, -, hv⟩ := Option.bind_eq_some_iff.1 h
  exact validText_ne_nil hv

/-- What the dictionary has for a key; a key that is absent reads as `None`. -/
def mergedValue (cpuinfo : Option Text) (lscpu : ToolRun) (f : Field) : Option Text :=
  ((merged cpuinfo lscpu).1.text f).getD none

/-- **With a block**, the texts are its own. -/
theorem mergedValue_of_block (h : firstBlock cpuinfo ≠ none) (f : Field) :
    mergedValue cpuinfo lscpu f = blockValue cpuinfo f := by
  obtain ⟨first, hfirst⟩ := Option.ne_none_iff_exists'.1 h
  obtain ⟨rest, hblocks⟩ := List.head?_eq_some_iff.1 hfirst
  have hown : (fromBlocks (blocksOf (readText cpuinfo))).text f = some (blockValue cpuinfo f) := by
    rw [blockValue, hfirst, hblocks]
    rfl
  rw [mergedValue, merged]
  split
  · simp only [CpuDict.fill, hown, Option.getD_some]
  · simp only [hown, Option.getD_some]

/-- **Without a block**, they are those of `lscpu`. -/
theorem mergedValue_of_no_block (h : firstBlock cpuinfo = none) (f : Field) :
    mergedValue cpuinfo lscpu f = lscpuValue lscpu f := by
  have hblocks : blocksOf (readText cpuinfo) = [] := List.head?_eq_none_iff.1 h
  rw [mergedValue, merged, hblocks, lscpuValue]
  split
  · rename_i heq
    rw [heq]
    rfl
  · rename_i heq
    rw [heq]
    rfl

theorem mergedValue_ne_nil (h : mergedValue cpuinfo lscpu f = some v) : v ≠ [] := by
  by_cases hb : firstBlock cpuinfo = none
  · rw [mergedValue_of_no_block hb] at h
    exact lscpuValue_ne_nil h
  · rw [mergedValue_of_block hb] at h
    exact blockValue_ne_nil h

theorem lacks_iff :
    (merged cpuinfo lscpu).1.lacks f = true ↔ mergedValue cpuinfo lscpu f = none := by
  rw [CpuDict.lacks, decide_eq_true_eq, ← mergedValue]
  cases h : mergedValue cpuinfo lscpu f with
  | none => simp
  | some v => simpa using mergedValue_ne_nil h

/-! ### What is returned -/

theorem text_of_mergedValue (h : mergedValue cpuinfo lscpu f = some v) :
    (parseCpuinfo cpuinfo lscpu).1.text f = some (some v) := by
  have htext : (merged cpuinfo lscpu).1.text f = some (some v) := by
    rw [mergedValue] at h
    cases ht : (merged cpuinfo lscpu).1.text f with
    | none =>
      rw [ht] at h
      cases h
    | some value =>
      rw [ht, Option.getD_some] at h
      rw [h]
  have hlacks : ¬ (f = .modelName ∧ (merged cpuinfo lscpu).1.lacks .modelName = true) := by
    rintro ⟨rfl, hl⟩
    rw [lacks_iff, h] at hl
    cases hl
  simp only [parseCpuinfo, if_neg hlacks, htext]

/-- A text other than the name that is lacking stays lacking. -/
theorem text_of_lacking (hf : f ≠ .modelName) (h : mergedValue cpuinfo lscpu f = none) :
    (parseCpuinfo cpuinfo lscpu).1.text f ≠ some (some v) := by
  simp only [parseCpuinfo, hf, false_and, if_false]
  intro htext
  rw [mergedValue, htext] at h
  cases h

/-- The messages about `lscpu` are others. -/
theorem fallbackMessage_not_mem_runTool :
    fallbackMessage ∉ (runTool (txt "lscpu") lscpu).2 := by
  -- it begins with a capital C, and none of them does
  have hhead : ∀ t : Text, fallbackMessage = t → t.head? = some 'C' := by
    rintro t rfl
    decide +kernel
  have hne : ∀ (u rest : Text), u.head? ≠ some 'C' → u ≠ [] → fallbackMessage ≠ u ++ rest := by
    intro u rest hu hnil heq
    have := hhead _ heq
    rw [List.head?_append_of_ne_nil _ hnil] at this
    exact hu this
  cases lscpu with
  | missing =>
    rw [runTool, List.mem_singleton, List.append_assoc]
    exact hne _ _ (by decide +kernel) (by decide +kernel)
  | failed exc =>
    rw [runTool, List.mem_singleton, List.append_assoc, List.append_assoc]
    exact hne _ _ (by decide +kernel) (by decide +kernel)
  | exited status stdout stderr =>
    rw [runTool]
    split
    · rw [List.mem_singleton, List.append_assoc, List.append_assoc]
      exact hne _ _ (by decide +kernel) (by decide +kernel)
    · exact List.not_mem_nil

theorem merged_messages : (merged cpuinfo lscpu).2 = (runTool (txt "lscpu") lscpu).2 := by
  rw [merged]
  split
  · rename_i heq
    rw [heq]
  · rename_i heq
    rw [heq]

/-- **The fallback** is used exactly when the dictionary has no name. -/
theorem fallback_iff : fallbackMessage ∈ (parseCpuinfo cpuinfo lscpu).2 ↔
    mergedValue cpuinfo lscpu .modelName = none := by
  have hvendor : fallbackMessage ≠ vendorMessage := by decide +kernel
  have htool : fallbackMessage ∉ (merged cpuinfo lscpu).2 := by
    rw [merged_messages]
    exact fallbackMessage_not_mem_runTool
  rw [← lacks_iff]
  simp only [parseCpuinfo, List.mem_append, htool, false_or]
  constructor
  · rintro (h | h)
    · by_contra hl
      rw [if_neg hl] at h
      cases h
    · split at h
      · exact absurd (List.mem_singleton.1 h) hvendor
      · cases h
  · intro hl
    rw [if_pos hl]
    exact Or.inl (List.mem_singleton_self _)

/-! ### A bare index as a name -/

/-- A number is a usable text. -/
theorem validText_of_digits {n : Text} (hne : n ≠ []) (hn : ∀ c ∈ n, c.isDigit = true) :
    validText (some n) = some n := by
  have hword : ∀ c ∈ n, isWordChar c = true := fun c hc => by simp [isWordChar, hn c hc]
  have hspace : ∀ c ∈ n, isPySpace c = false := fun c hc => not_isPySpace_of_isWordChar (hword c hc)
  have hstrip : strip isPySpace n = n :=
    strip_eq_self (fun c hc => hspace c (List.mem_of_head? hc))
      fun c hc => hspace c (List.mem_of_getLast? hc)
  have hwords : pyWords n = [n] := by
    rw [pyWords, List.splitOnP_eq_singleton fun c hc => by simp [hspace c hc]]
    simp [hne]
  have hjoin : joinWords [n] = n := by simp [joinWords]
  have hlower : lower n = n := lower_eq_self fun c hc => Or.inl (hword c hc)
  -- every placeholder but the empty one has a letter
  have hother : n ∉ placeholders := by
    intro hmem
    have hall : ∀ t ∈ placeholders, t.all Char.isDigit = true → t = [] := by decide +kernel
    exact hne (hall n hmem (List.all_eq_true.2 hn))
  simp only [validText, hstrip, hwords, hjoin, hlower, if_neg hother, if_neg hne]

/-- A value that is not there, or empty, is passed over. -/
theorem Row.getOr_cons {row : Row} {key : Text} {keys : List Text} (hkeys : keys ≠ [])
    (h : (row.get key).getD [] = []) : row.getOr (key :: keys) = row.getOr keys := by
  obtain ⟨key', keys', rfl⟩ := List.exists_cons_of_ne_nil hkeys
  rw [Row.getOr]
  · split
    · rename_i value heq
      rw [heq, Option.getD_some] at h
      rw [if_pos h]
    · rfl
  · exact hkeys

theorem Row.get_of_getOr {row : Row} {key key' : Text}
    (h : (row.getOr [key, key']).getD [] = []) :
    (row.get key).getD [] = [] ∧ (row.get key').getD [] = [] := by
  by_cases hkey : (row.get key).getD [] = []
  · rw [Row.getOr_cons (List.cons_ne_nil _ _) hkey] at h
    exact ⟨hkey, h⟩
  · exfalso
    cases hget : row.get key with
    | none =>
      rw [hget] at hkey
      exact hkey rfl
    | some value =>
      rw [hget, Option.getD_some] at hkey
      simp only [Row.getOr, hget, if_neg hkey, Option.getD_some] at h
      exact hkey h

/-- **A bare index** is the name of the block. -/
theorem blockValue_of_bareIndex {n : Text} (h : bareIndex cpuinfo = some n) :
    blockValue cpuinfo .modelName = some n := by
  obtain ⟨row, hrow, hn⟩ := Option.bind_eq_some_iff.1 h
  split at hn
  · rename_i hempty
    obtain ⟨hget, hdigits⟩ := Option.filter_eq_some_iff.1 hn
    obtain ⟨hname, hhardware⟩ := Row.get_of_getOr hempty
    rw [Bool.and_eq_true, decide_eq_true_eq, List.all_eq_true] at hdigits
    rw [blockValue, hrow, Option.bind_some, Field.cpuinfoKeys,
      Row.getOr_cons (List.cons_ne_nil _ _) hname, Row.getOr_cons (List.cons_ne_nil _ _) hhardware,
      Row.getOr, hget]
    exact validText_of_digits hdigits.1 hdigits.2
  · cases hn

/-- A block without names: the kernel prints `unknown` for them. -/
def unknownCpuinfo : Text :=
  unlines [txt "processor\t: 0", txt "vendor_id\t: unknown", txt "cpu family\t: 6",
    txt "model\t\t: 22", txt "model name\t: unknown", txt "stepping\t: unknown"]

/-- What `lscpu` knows about the processor. -/
def celeronLscpu : ToolRun :=
  .exited 0 (unlines [txt "Vendor ID: GenuineIntel",
    txt "Model name: Intel(R) Celeron(R) M CPU 520", txt "Stepping: 1"]) []

end Profiles

end InstallKit
