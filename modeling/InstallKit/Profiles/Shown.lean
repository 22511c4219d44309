import InstallKit.Profiles.Saving
import InstallKit.Sources.PyJsonLoads

/-!
# Showing a saved profile

`print_report` prints what an analysis has found; `save_profile` writes the same to `profile.json`,
and `show_profile` reads it back, with the keys in another order, and prints it again.  Here the
file is its bytes, which are encoded, decoded and parsed.

* `showProfile_eq`, `Represents.save` : what is shown of a store is what is printed, and the
  directories go on to hold what is in the store.
* `show_prints_analysis` : whatever runs come later, a profile that was saved is shown with the
  report of its analysis.
-/

namespace InstallKit

namespace Profiles

namespace Report

open Sources

/-! ### `print_report` -/

/-- `fmt % s`, for a format that ends with its `%s`. -/
def line (fmt : String) (s : PyText) : PyText := .ofText (txt fmt) ++ s

/-- A line without values. -/
def plainLine (s : String) : PyText := .ofText (txt s)

/-- `fields.get(key)` -/
abbrev Get := Text → Option PyText

variable (get : Get)

/-- `fields.get(key)`, if it counts as true. -/
def present (key : Text) : Option PyText :=
  match get key with
  | some s => if s = [] then none else some s
  | none => none

/-- `fields.get(key, default)` -/
def getD (key : Text) (default : String) : PyText := (get key).getD (plainLine default)

/-- A line that is there when its value is. -/
def ifPresent (fmt : String) (key : Text) : List PyText :=
  ((present get key).map (line fmt)).toList

/-- `rows`: the devices. -/
def deviceRows : List (String × Text) :=
  [("Chipset", txt "TARGET_CHIPSET"), ("GPU", txt "TARGET_GPU"),
    ("Display", txt "TARGET_DISPLAY"), ("Audio", txt "TARGET_AUDIO"),
    ("Ethernet", txt "TARGET_ETHERNET"), ("Wi-Fi/Network", txt "TARGET_WIFI"),
    ("Storage controllers", txt "TARGET_STORAGE_CONTROLLERS"), ("Storage", txt "TARGET_STORAGE"),
    ("USB controllers", txt "TARGET_USB_CONTROLLERS"), ("Battery", txt "TARGET_BATTERY"),
    ("Input", txt "TARGET_INPUT")]

/-- The features of the processor, in the width of `%-10s`. -/
def featureRows : List (String × Text) :=
  [("  Long mode  ", txt "TARGET_CPU_SUPPORTS_LONG_MODE"),
    ("  SSE3       ", txt "TARGET_CPU_SUPPORTS_SSE3"),
    ("  SSSE3      ", txt "TARGET_CPU_SUPPORTS_SSSE3"),
    ("  SSE4.1     ", txt "TARGET_CPU_SUPPORTS_SSE41"),
    ("  SSE4.2     ", txt "TARGET_CPU_SUPPORTS_SSE42"),
    ("  SSE4a      ", txt "TARGET_CPU_SUPPORTS_SSE4A"),
    ("  AVX        ", txt "TARGET_CPU_SUPPORTS_AVX")]

/-- `System: ...` -/
def systemLine : PyText :=
  line "System: " ((PyText.ofText [' ']).intercalate
    ([txt "TARGET_VENDOR", txt "TARGET_MODEL"].filterMap (present get)))

/-- `CPU topology: ...` -/
def topologyLines : List PyText :=
  let cores := present get (txt "TARGET_CPU_CORES")
  let threads := present get (txt "TARGET_CPU_THREADS")
  if cores.isSome || threads.isSome then
    [line "CPU topology: " (getD get (txt "TARGET_CPU_CORES") "?") ++ plainLine " cores / " ++
      getD get (txt "TARGET_CPU_THREADS") "?" ++ plainLine " threads"]
  else []

def deviceLines : List PyText :=
  let found := deviceRows.filterMap fun row => (present get row.2).map fun value =>
    line "  OK      " (plainLine row.1 ++ plainLine ": " ++ value)
  if found = [] then [plainLine "  WARN    no peripheral inventory was available"] else found

def warningLines (warnings : List PyText) : List PyText :=
  if warnings = [] then [plainLine "Warnings: none"]
  else plainLine "Warnings:" :: warnings.map (line "  WARN    ")

/-- `print_report`, line by line. -/
def printReport (warnings : List PyText) : List PyText :=
  [plainLine "Universal x86/x86_64 hardware analysis", [],
    line "Host OS: " (getD get (txt "PROFILE_SOURCE_OS") "unknown"),
    line "OS hostname: " (getD get (txt "PROFILE_HOSTNAME") "unknown-host"),
    systemLine get,
    line "Form factor: " (getD get (txt "TARGET_FORM_FACTOR") "PC"),
    line "Architecture: " (getD get (txt "TARGET_ARCH") "unknown"),
    line "CPU: " (getD get (txt "TARGET_CPU") "Unknown x86 CPU")] ++
  ifPresent get "CPU vendor: " (txt "TARGET_CPU_VENDOR") ++
  topologyLines get ++
  ifPresent get "Memory: " (txt "TARGET_RAM") ++
  ifPresent get "Firmware: " (txt "TARGET_FIRMWARE") ++
  ifPresent get "Requested macOS profile: " (txt "TARGET_REQUESTED_OS_PROFILE") ++
  [[], plainLine "Detected devices:"] ++
  deviceLines get ++
  [[], plainLine "CPU feature hints:"] ++
  featureRows.map (fun row => line row.1 (getD get row.2 "UNKNOWN")) ++
  [[]] ++
  warningLines warnings ++
  [[], plainLine ("Analysis only: no SMBIOS, kernel, kext, ACPI or macOS " ++
    "compatibility decision is inferred automatically from this inventory.")]

/-- The keys that the report reads. -/
def reportKeys : List Text :=
  [txt "PROFILE_SOURCE_OS", txt "PROFILE_HOSTNAME", txt "TARGET_VENDOR", txt "TARGET_MODEL",
    txt "TARGET_FORM_FACTOR", txt "TARGET_ARCH", txt "TARGET_CPU", txt "TARGET_CPU_VENDOR",
    txt "TARGET_CPU_CORES", txt "TARGET_CPU_THREADS", txt "TARGET_RAM", txt "TARGET_FIRMWARE",
    txt "TARGET_REQUESTED_OS_PROFILE"] ++ deviceRows.map Prod.snd ++ featureRows.map Prod.snd

variable {get} {get' : Get}

theorem present_congr {key : Text} (h : get key = get' key) :
    present get key = present get' key := by
  rw [present, present, h]

theorem getD_congr {key : Text} (h : get key = get' key) (default : String) :
    getD get key default = getD get' key default := by
  rw [getD, getD, h]

theorem ifPresent_congr {key : Text} (h : get key = get' key) (fmt : String) :
    ifPresent get fmt key = ifPresent get' fmt key := by
  rw [ifPresent, ifPresent, present_congr h]

/-- The report depends on nothing else. -/
theorem printReport_congr (h : ∀ key ∈ reportKeys, get key = get' key) (warnings : List PyText) :
    printReport get warnings = printReport get' warnings := by
  have hdevices : ∀ row ∈ deviceRows, get row.2 = get' row.2 := fun row hrow =>
    h _ (List.mem_append_left _ (List.mem_append_right _ (List.mem_map_of_mem hrow)))
  have hfeatures : ∀ row ∈ featureRows, get row.2 = get' row.2 := fun row hrow =>
    h _ (List.mem_append_right _ (List.mem_map_of_mem hrow))
  have hfixed := fun key hkey => h key (List.mem_append_left _ (List.mem_append_left _ hkey))
  simp only [List.forall_mem_cons] at hfixed
  obtain ⟨hos, hhost, hvendor, hmodel, hform, harch, hcpu, hcpuVendor, hcores, hthreads, hram,
    hfirmware, hrequested, -⟩ := hfixed
  have hsystem : systemLine get = systemLine get' := by
    simp only [systemLine, List.filterMap_cons, present_congr hvendor, present_congr hmodel,
      List.filterMap_nil]
  have htopology : topologyLines get = topologyLines get' := by
    rw [topologyLines, topologyLines, present_congr hcores, present_congr hthreads,
      getD_congr hcores, getD_congr hthreads]
  have hlines : deviceLines get = deviceLines get' := by
    have hfound := List.filterMap_congr (l := deviceRows) fun row hrow =>
      congrArg (Option.map fun value =>
        line "  OK      " (plainLine row.1 ++ plainLine ": " ++ value))
        (present_congr (hdevices row hrow))
    rw [deviceLines, deviceLines, hfound]
  have hhints := List.map_congr_left fun row hrow =>
    congrArg (line row.1) (getD_congr (hfeatures row hrow) "UNKNOWN")
  rw [printReport, printReport, getD_congr hos, getD_congr hhost, hsystem, getD_congr hform,
    getD_congr harch, getD_congr hcpu, ifPresent_congr hcpuVendor, htopology, ifPresent_congr hram,
    ifPresent_congr hfirmware, ifPresent_congr hrequested, hlines, hhints]

/-! ### `show_profile` -/

/-- What `show_profile` does. -/
inductive Output
  /-- `ERROR: generated profile not found`, and status 1. -/
  | missing
  /-- It prints these lines, and returns 0. -/
  | printed (lines : List PyText)
  /-- It raises, or the file is not one that `save_profile` writes. -/
  | failed

/-- `value or default`, of values that are truthy or not there. -/
def truthy? : Option PyJson → Option PyJson
  | some .null => none
  | some (.bool false) => none
  | some (.int 0) => none
  | some (.str []) => none
  | some (.list []) => none
  | some (.dict []) => none
  | v => v

def str? : PyJson → Option PyText
  | .str s => some s
  | _ => none

/-- `payload.get(key, default)`, a string. -/
def getStr (payload : List (Text × PyJson)) (key : Text) (default : PyText) : Option PyText :=
  match payload.lookup key with
  | none => some default
  | some v => str? v

/-- `payload.get("hardware_fields") or {}`, of strings. -/
def fieldsOf (payload : List (Text × PyJson)) : Option (List (Text × PyText)) :=
  match truthy? (payload.lookup (txt "hardware_fields")) with
  | none => some []
  | some (.dict items) => items.mapM fun kv => (str? kv.2).map fun s => (kv.1, s)
  | some _ => none

/-- `payload.get("warnings") or []`, of strings. -/
def warningsOf (payload : List (Text × PyJson)) : Option (List PyText) :=
  match truthy? (payload.lookup (txt "warnings")) with
  | none => some []
  | some (.list items) => items.mapM str?
  | some _ => none

/-- The content of `profile.json` in the directory with this slug, if it is a file. -/
def jsonFile (profiles : ProfilesDir) (slug : Text) : Option (List UInt8) :=
  match profiles.bind (· slug) with
  | some (.directory files) => files .profileJson
  | _ => none

section

variable (decode : List UInt8 → Option PyText) (path : Text → PyText)

/-- What is printed for a file. -/
def showPayload (slug : PyText) (payload : List (Text × PyJson)) : Option (List PyText) := do
  let fields ← fieldsOf payload
  let warnings ← warningsOf payload
  let name ← getStr payload (txt "profile_display_name") slug
  let saved ← getStr payload (txt "profile_slug") slug
  return [line "Saved hardware-analysis profile: " name, line "Profile slug: " saved,
    line "Profile path: " (path (slugOf slug)), []] ++
      printReport (fun key => fields.lookup key) warnings

/-- `json.loads(json_path.read_text())`, an object. -/
def readPayload (bytes : List UInt8) : Option (List (Text × PyJson)) :=
  match ((decode bytes).bind PyText.text?).bind PyJson.loads with
  | some (.dict payload) => some payload
  | _ => none

/-- `show_profile`; `path` is how a directory in `profiles_dir` is printed. -/
def showProfile (profiles : ProfilesDir) (slug : PyText) : Output :=
  match jsonFile profiles (slugOf slug) with
  | none => .missing
  | some bytes =>
    (((readPayload decode bytes).bind (showPayload path slug)).map .printed).getD .failed

end

/-! ### Dictionaries -/

section

variable {α β : Type} {items : List (Text × α)} {key k : Text} {value : α}

theorem lookup_setKey_self (key : Text) (value : α) (items : List (Text × α)) :
    (setKey key value items).lookup key = some value := by
  induction items with
  | nil => simp [setKey]
  | cons kv items ih =>
    rw [setKey]
    split
    · simp
    · next h => rw [List.lookup_cons, beq_false_of_ne (Ne.symm h), ih]

theorem lookup_setKey_of_ne (h : k ≠ key) (value : α) (items : List (Text × α)) :
    (setKey key value items).lookup k = items.lookup k := by
  induction items with
  | nil => rw [setKey, List.lookup_cons, beq_false_of_ne h]
  | cons kv items ih =>
    obtain ⟨k', v⟩ := kv
    rw [setKey]
    split
    · next hk =>
      subst hk
      rw [List.lookup_cons, List.lookup_cons, beq_false_of_ne h]
    · rw [List.lookup_cons, List.lookup_cons, ih]

theorem map_fst_setKey (key : Text) (value : α) (items : List (Text × α)) :
    (setKey key value items).map Prod.fst =
      if key ∈ items.map Prod.fst then items.map Prod.fst else items.map Prod.fst ++ [key] := by
  induction items with
  | nil => rfl
  | cons kv items ih =>
    obtain ⟨k', v⟩ := kv
    rw [setKey]
    by_cases hk : k' = key
    · subst hk
      simp
    · rw [if_neg hk, List.map_cons, ih]
      have hiff : key ∈ ((k', v) :: items).map Prod.fst ↔ key ∈ items.map Prod.fst := by
        simp [Ne.symm hk]
      by_cases hmem : key ∈ items.map Prod.fst
      · rw [if_pos hmem, if_pos (hiff.2 hmem)]
        rfl
      · rw [if_neg hmem, if_neg (hiff.not.2 hmem)]
        rfl

theorem nodup_setKey (h : (items.map Prod.fst).Nodup) (key : Text) (value : α) :
    ((setKey key value items).map Prod.fst).Nodup := by
  rw [map_fst_setKey]
  split
  · exact h
  · next hmem => exact h.append (List.nodup_singleton key) (by simpa using hmem)

theorem forall_setKey {P : α → Prop} (h : ∀ kv ∈ items, P kv.2) (key : Text) (hv : P value) :
    ∀ kv ∈ setKey key value items, P kv.2 := by
  induction items with
  | nil => simpa [setKey] using hv
  | cons kv items ih =>
    rw [List.forall_mem_cons] at h
    rw [setKey]
    split
    · exact List.forall_mem_cons.2 ⟨hv, h.2⟩
    · exact List.forall_mem_cons.2 ⟨h.1, ih h.2⟩

theorem lookup_map (f : α → β) (items : List (Text × α)) (k : Text) :
    (items.map fun kv => (kv.1, f kv.2)).lookup k = (items.lookup k).map f := by
  induction items with
  | nil => rfl
  | cons kv items ih =>
    rw [List.map_cons, List.lookup_cons, List.lookup_cons, ih]
    cases k == kv.1 <;> rfl

theorem mem_of_lookup {v : α} (h : items.lookup k = some v) : (k, v) ∈ items := by
  induction items with
  | nil => cases h
  | cons kv items ih =>
    rw [List.lookup_cons] at h
    split at h
    · next heq =>
      obtain rfl := Option.some.inj h
      obtain rfl := eq_of_beq heq
      exact List.mem_cons_self
    · exact List.mem_cons_of_mem _ (ih h)

theorem lookup_of_mem {v : α} (hn : (items.map Prod.fst).Nodup) (h : (k, v) ∈ items) :
    items.lookup k = some v := by
  induction items with
  | nil => cases h
  | cons kv items ih =>
    rw [List.map_cons, List.nodup_cons] at hn
    rw [List.lookup_cons]
    obtain rfl | h := List.mem_cons.1 h
    · rw [beq_self_eq_true]
    · have hne : k ≠ kv.1 := fun he => hn.1 (he ▸ List.mem_map_of_mem h)
      rw [beq_false_of_ne hne, ih hn.2 h]

/-- The order of the items does not matter. -/
theorem lookup_perm {items' : List (Text × α)} (hn : (items.map Prod.fst).Nodup)
    (h : items'.Perm items) (k : Text) : items'.lookup k = items.lookup k := by
  have hn' : (items'.map Prod.fst).Nodup := (h.map Prod.fst).nodup_iff.2 hn
  cases hk : items.lookup k with
  | some v => exact lookup_of_mem hn' (h.mem_iff.2 (mem_of_lookup hk))
  | none =>
    cases hk' : items'.lookup k with
    | none => rfl
    | some v =>
      rw [lookup_of_mem hn (h.mem_iff.1 (mem_of_lookup hk'))] at hk
      cases hk

end

/-! ### What is saved is shown -/

section

variable {p : Saving}

/-- The items of `payload`. -/
def payloadItems (p : Saving) : List (Text × PyJson) :=
  setKey (txt "warnings") (.list (p.warnings.map .str))
    (setKey (txt "hardware_fields") (.dict (p.hardwareFields.map fun kv => (kv.1, .str kv.2)))
      (setKey (txt "created_utc") (.str (.ofText p.now))
        (setKey (txt "profile_slug") (.str (.ofText p.slug))
          (setKey (txt "profile_display_name") (.str p.displayName) p.details))))

theorem payload_eq (p : Saving) : p.payload = .dict (payloadItems p) := rfl

/-- What Python makes sure of: no key is there twice, and numbers are not too long. -/
structure Regular (p : Saving) : Prop where
  fields : (p.fields.map Prod.fst).Nodup
  details : PyJson.WellFormed (.dict p.details)

theorem Regular.nodup_hardwareFields (h : Regular p) : (p.hardwareFields.map Prod.fst).Nodup :=
  nodup_setKey (nodup_setKey (nodup_setKey h.fields _ _) _ _) _ _

theorem Regular.nodup_payloadItems (h : Regular p) : ((payloadItems p).map Prod.fst).Nodup := by
  have hdetails := h.details
  rw [PyJson.WellFormed] at hdetails
  exact nodup_setKey (nodup_setKey (nodup_setKey (nodup_setKey (nodup_setKey hdetails.1 _ _) _ _)
    _ _) _ _) _ _

theorem wellFormed_str (s : PyText) : PyJson.WellFormed (.str s) := by
  rw [PyJson.WellFormed]
  trivial

theorem Regular.payload (h : Regular p) : p.payload.WellFormed := by
  have hdetails := h.details
  rw [PyJson.WellFormed, PyJson.wellFormedDict_iff] at hdetails
  have hwarnings : PyJson.WellFormed (.list (p.warnings.map .str)) := by
    rw [PyJson.WellFormed, PyJson.wellFormedList_iff]
    intro v hv
    obtain ⟨s, -, rfl⟩ := List.mem_map.1 hv
    exact wellFormed_str s
  have hfields : PyJson.WellFormed (.dict (p.hardwareFields.map fun kv => (kv.1, .str kv.2))) := by
    rw [PyJson.WellFormed, PyJson.wellFormedDict_iff, List.map_map]
    refine ⟨h.nodup_hardwareFields, fun kv hkv => ?_⟩
    obtain ⟨kv', -, rfl⟩ := List.mem_map.1 hkv
    exact wellFormed_str _
  rw [payload_eq, PyJson.WellFormed, PyJson.wellFormedDict_iff]
  refine ⟨h.nodup_payloadItems, ?_⟩
  exact forall_setKey (forall_setKey (forall_setKey (forall_setKey (forall_setKey hdetails.2 _
    (wellFormed_str _)) _ (wellFormed_str _)) _ (wellFormed_str _)) _ hfields) _ hwarnings

/-- The payload as it is read back. -/
def loadedItems (p : Saving) : List (Text × PyJson) :=
  (PyJson.byKey (payloadItems p)).map fun kv => (kv.1, kv.2.sorted)

theorem lookup_loadedItems (h : Regular p) (k : Text) :
    (loadedItems p).lookup k = ((payloadItems p).lookup k).map PyJson.sorted := by
  rw [loadedItems, lookup_map, lookup_perm h.nodup_payloadItems (PyJson.byKey_perm _)]

theorem mapM_map_some {α β γ : Type} {f : α → β} {g : β → Option γ} {e : α → γ}
    (h : ∀ a, g (f a) = some (e a)) (as : List α) : (as.map f).mapM g = some (as.map e) := by
  induction as with
  | nil => rfl
  | cons a as ih => rw [List.map_cons, List.mapM_cons, h, ih]; rfl

/-- The fields are read back in another order. -/
theorem fieldsOf_loadedItems (h : Regular p) :
    ∃ fields, fieldsOf (loadedItems p) = some fields ∧
      ∀ k, fields.lookup k = p.hardwareFields.lookup k := by
  have hne : txt "hardware_fields" ≠ txt "warnings" := by simp [txt]
  have hlookup : (loadedItems p).lookup (txt "hardware_fields") =
      some (.dict ((p.hardwareFields.insertionSort fun a b => a.1 ≤ b.1).map
        fun kv => (kv.1, .str kv.2))) := by
    have hsort := List.map_insertionSort (fun a b => a.1 ≤ b.1) (fun a b => a.1 ≤ b.1)
      (fun kv : Text × PyText => (kv.1, PyJson.str kv.2)) p.hardwareFields fun _ _ _ _ => Iff.rfl
    rw [lookup_loadedItems h, payloadItems, lookup_setKey_of_ne hne, lookup_setKey_self,
      Option.map_some, PyJson.sorted_dict, PyJson.byKey, ← hsort, List.map_map]
    simp only [Function.comp_def, PyJson.sorted]
  have hperm := List.perm_insertionSort (fun a b => a.1 ≤ b.1) p.hardwareFields
  refine ⟨_, ?_, fun k => lookup_perm h.nodup_hardwareFields hperm k⟩
  have hmapM := mapM_map_some (f := fun kv : Text × PyText => (kv.1, PyJson.str kv.2))
    (g := fun kv => (str? kv.2).map fun s => (kv.1, s)) (e := id) (fun _ => rfl)
    (p.hardwareFields.insertionSort fun a b => a.1 ≤ b.1)
  rw [List.map_id] at hmapM
  rw [fieldsOf, hlookup]
  cases hsorted : p.hardwareFields.insertionSort fun a b => a.1 ≤ b.1 with
  | nil => rfl
  | cons kv kvs =>
    rw [hsorted] at hmapM
    exact hmapM

theorem warningsOf_loadedItems (h : Regular p) : warningsOf (loadedItems p) = some p.warnings := by
  have hlookup : (loadedItems p).lookup (txt "warnings") =
      some (.list (p.warnings.map .str)) := by
    rw [lookup_loadedItems h, payloadItems, lookup_setKey_self, Option.map_some, PyJson.sorted,
      PyJson.sortedList_eq, List.map_map]
    simp only [Function.comp_def, PyJson.sorted]
  have hmapM := mapM_map_some (f := PyJson.str) (g := str?) (e := id) (fun _ => rfl) p.warnings
  rw [List.map_id] at hmapM
  rw [warningsOf, hlookup]
  cases hwarnings : p.warnings with
  | nil => rfl
  | cons w ws =>
    rw [hwarnings] at hmapM
    exact hmapM

theorem getStr_loadedItems (h : Regular p) {key : Text} {s : PyText} (default : PyText)
    (hs : (payloadItems p).lookup key = some (.str s)) :
    getStr (loadedItems p) key default = some s := by
  rw [getStr, lookup_loadedItems h, hs]
  rfl

/-- The keys that `save_profile` sets are not in the report. -/
theorem lookup_hardwareFields {key : Text} (hkey : key ∈ reportKeys) :
    p.hardwareFields.lookup key = p.fields.lookup key := by
  have hkeys : ∀ key ∈ reportKeys, key ≠ txt "PROFILE_CREATED_UTC" ∧ key ≠ txt "PROFILE_SLUG" ∧
      key ≠ txt "PROFILE_DISPLAY_NAME" := by
    simp [reportKeys, deviceRows, featureRows, txt]
  obtain ⟨hcreated, hslug, hname⟩ := hkeys key hkey
  rw [Saving.hardwareFields, lookup_setKey_of_ne hcreated, lookup_setKey_of_ne hslug,
    lookup_setKey_of_ne hname]

end

/-! ### Later runs -/

section

variable {encode : Codec} {x : Faults} {p : Saving} {s : Session} {before after : ProfilesDir}

/-- What is there stays. -/
theorem saveProfile_keeps {name : Text} {e : Entry} (h : before.bind (· name) = some e) :
    (saveProfile encode x p before).1.bind (· name) = some e := by
  cases before with
  | none => cases h
  | some dirs =>
    rw [Option.bind_some] at h
    unfold saveProfile
    split
    · exact h
    · split
      · exact h
      · next hfree =>
        simp only [makeParents]
        split
        · exact h
        · have hne : name ≠ p.slug := by
            rintro rfl
            rw [Option.bind_some, h] at hfree
            exact hfree rfl
          show addDirectory dirs p.slug _ name = some e
          rw [addDirectory, if_neg hne, h]

/-- Nothing is done to another directory. -/
theorem saveProfile_of_ne {name : Text} (hname : name ≠ p.slug) :
    (saveProfile encode x p before).1.bind (· name) = before.bind (· name) := by
  unfold saveProfile
  split
  · rfl
  · split
    · rfl
    · cases before with
      | none =>
        rw [makeParents]
        split
        · next hnone => rfl
        · next dirs hdirs =>
          have hempty : dirs = fun _ => none := by
            split at hdirs
            · cases hdirs
            · exact (Option.some.inj hdirs).symm
          subst hempty
          split
          · rfl
          · exact if_neg hname
      | some dirs =>
        simp only [makeParents]
        split
        · rfl
        · exact if_neg hname

theorem runNew_fst (encode : Codec) (x : Faults) (s : Session) (before : ProfilesDir) :
    (runNew encode x s before).1 = before ∨
    (runNew encode x s before).1 = (saveProfile encode x s.saving before).1 := by
  unfold runNew
  split
  · exact Or.inl rfl
  · right
    split <;> rename_i heq <;> rw [heq]
    split <;> rfl

theorem runNew_keeps {name : Text} {e : Entry} (h : before.bind (· name) = some e) :
    (runNew encode x s before).1.bind (· name) = some e := by
  obtain hrun | hrun := runNew_fst encode x s before
  · rw [hrun, h]
  · rw [hrun, saveProfile_keeps h]

theorem runNew_of_ne (encode : Codec) (x : Faults) (before : ProfilesDir) {name : Text}
    (hname : name ≠ s.saving.slug) :
    (runNew encode x s before).1.bind (· name) = before.bind (· name) := by
  obtain hrun | hrun := runNew_fst encode x s before
  · rw [hrun]
  · rw [hrun, saveProfile_of_ne hname]

/-- Runs of `--mode new`, in any locales and with any failures. -/
def Later : ProfilesDir → ProfilesDir → Prop :=
  Relation.ReflTransGen fun before after => ∃ encode x s, after = (runNew encode x s before).1

theorem Later.keeps {name : Text} {e : Entry} (h : Later before after)
    (he : before.bind (· name) = some e) : after.bind (· name) = some e := by
  induction h with
  | refl => exact he
  | tail _ hstep ih =>
    obtain ⟨encode, x, s, rfl⟩ := hstep
    exact runNew_keeps ih

/-- A run that returns 0 has written `profile.json`. -/
theorem jsonFile_of_runNew (h : runNew encode x s before = (after, 0)) :
    ∃ files bytes, after.bind (· s.saving.slug) = some (.directory files) ∧
      encode (s.saving.text .profileJson) = some bytes ∧ files .profileJson = some bytes := by
  unfold runNew at h
  split at h
  · next status _ => exact absurd (congrArg Prod.snd h) status.2
  · split at h
    · cases congrArg Prod.snd h
    · cases congrArg Prod.snd h
    · cases congrArg Prod.snd h
    · -- status 0 only after `save_profile` has returned
      next profiles hsave =>
      have hafter : profiles = after := by
        split at h
        · exact congrArg Prod.fst h
        · exact congrArg Prod.fst h
      subst hafter
      have hrefused : ¬ Refused x s.saving before := fun hr => by
        by_cases hearly : x.early = none
        · obtain ⟨e, he⟩ := saveProfile_of_refused encode hr hearly
          rw [he] at hsave
          cases congrArg Prod.snd hsave
        · exact hearly ‹_›
      obtain ⟨-, ⟨-, -, hcase⟩ | ⟨-, dirs, hslug, hcase⟩⟩ :=
        saveProfile_of_not_refused encode hrefused
      · rw [hcase] at hsave
        cases congrArg Prod.snd hsave
      · rw [hcase] at hsave
        obtain rfl : some dirs = profiles := congrArg Prod.fst hsave
        have hall := writeFiles_eq_none_iff.1 (congrArg Prod.snd hsave)
        obtain ⟨bytes, hbytes⟩ :=
          Option.ne_none_iff_exists'.1 (hall .profileJson (FileName.mem_all _)).2
        refine ⟨_, bytes, hslug, hbytes, ?_⟩
        rw [writeFiles_complete hall (FileName.mem_all _), hbytes]

end

/-! ### What a store shows -/

section

mutual

/-- A value of a store, as Python has it. -/
def ofJson : Json → PyJson
  | .null => .null
  | .bool b => .bool b
  | .num n => .int n
  | .str t => .str (.ofText t)
  | .arr items => .list (ofJsonList items)
  | .obj items => .dict (ofJsonDict items)

def ofJsonList : List Json → List PyJson
  | [] => []
  | v :: vs => ofJson v :: ofJsonList vs

def ofJsonDict : List (Text × Json) → List (Text × PyJson)
  | [] => []
  | (k, v) :: kvs => (k, ofJson v) :: ofJsonDict kvs

end

/-- The value that is read back, with its keys in order. -/
def readBack (v : Json) : PyJson := (ofJson v).sorted

theorem ofJsonList_map_str (ts : List Text) :
    ofJsonList (ts.map .str) = ts.map fun t => .str (.ofText t) := by
  induction ts with
  | nil => rfl
  | cons t ts ih => rw [List.map_cons, ofJsonList, ih, List.map_cons, ofJson]

theorem ofJsonDict_map_str (items : List (Text × Text)) :
    ofJsonDict (items.map fun kv => (kv.1, .str kv.2)) =
      items.map fun kv => (kv.1, .str (.ofText kv.2)) := by
  induction items with
  | nil => rfl
  | cons kv items ih => rw [List.map_cons, ofJsonDict, ih, List.map_cons, ofJson]

/-- Python takes for true what the store does. -/
theorem truthy?_readBack (v : Json) :
    truthy? (some (readBack v)) = if v.truthy then some (readBack v) else none := by
  cases v with
  | null => rfl
  | bool b => cases b <;> rfl
  | num n =>
    by_cases hn : n = 0
    · subst hn
      rfl
    · simp [readBack, ofJson, PyJson.sorted, truthy?, Json.truthy, hn]
  | str t => cases t <;> rfl
  | arr items =>
    cases items with
    | nil => rfl
    | cons v vs =>
      simp [readBack, ofJson, ofJsonList, PyJson.sorted, PyJson.sortedList, truthy?, Json.truthy]
  | obj items =>
    cases items with
    | nil => rfl
    | cons kv kvs =>
      rw [readBack, ofJson, PyJson.sorted_dict]
      -- sorting leaves no dictionary empty that was not
      have hne :
          (PyJson.byKey (ofJsonDict (kv :: kvs))).map (fun kv => (kv.1, kv.2.sorted)) ≠ [] := by
        intro h
        have hperm := PyJson.byKey_perm (ofJsonDict (kv :: kvs))
        rw [List.map_eq_nil_iff.1 h] at hperm
        exact absurd hperm.nil_eq (by simp [ofJsonDict])
      simp [truthy?, Json.truthy, hne]

/-- `value or default` -/
theorem getD_truthy? (value : Option Json) (default : Json) :
    (truthy? (value.map readBack)).getD (readBack default) =
      readBack (Json.orElse value default) := by
  cases value with
  | none => rfl
  | some v =>
    rw [Option.map_some, truthy?_readBack, Json.orElse]
    split <;> rfl

/-- The fields of a report, of strings. -/
def fieldStrings : PyJson → Option (List (Text × PyText))
  | .dict items => items.mapM fun kv => (str? kv.2).map fun s => (kv.1, s)
  | _ => none

/-- Its warnings. -/
def warningStrings : PyJson → Option (List PyText)
  | .list items => items.mapM str?
  | _ => none

variable {decode : List UInt8 → Option PyText} {path : Text → PyText}

/-- What is shown of a store, as it is printed. -/
def printShown (path : Text → PyText) (shown : Shown) : Option (List PyText) := do
  let fields ← fieldStrings (readBack shown.fields)
  let warnings ← warningStrings (readBack shown.warnings)
  let name ← str? (readBack shown.displayName)
  let saved ← str? (readBack shown.slug)
  return [line "Saved hardware-analysis profile: " name, line "Profile slug: " saved,
    line "Profile path: " (path shown.directory), []] ++
      printReport (fun key => fields.lookup key) warnings

/-- The file `profile.json` holds the object of the store. -/
def Holds (decode : List UInt8 → Option PyText) (bytes : List UInt8) (s : Saved) : Prop :=
  ∃ payload, readPayload decode bytes = some payload ∧
    ∀ key, payload.lookup key = (s.profileJson key).map readBack

/-- The directories hold what is in the store. -/
def Represents (decode : List UInt8 → Option PyText) (profiles : ProfilesDir) (S : Store) : Prop :=
  ∀ slug, (S.dir slug = none → jsonFile profiles slug = none) ∧
    ∀ s, S.dir slug = some s → ∃ bytes, jsonFile profiles slug = some bytes ∧ Holds decode bytes s

theorem fieldsOf_eq {payload : List (Text × PyJson)} {v : Option Json}
    (h : payload.lookup (txt "hardware_fields") = v.map readBack) :
    fieldsOf payload = fieldStrings (readBack (Json.orElse v (.obj []))) := by
  rw [fieldsOf, h, ← getD_truthy?]
  split
  · next hnone => rw [hnone]; rfl
  · next items hsome => rw [hsome]; rfl
  · next v' hne hother =>
    rw [hother, Option.getD_some]
    cases v' with
    | dict items => exact absurd rfl (hne items)
    | _ => rfl

theorem warningsOf_eq {payload : List (Text × PyJson)} {v : Option Json}
    (h : payload.lookup (txt "warnings") = v.map readBack) :
    warningsOf payload = warningStrings (readBack (Json.orElse v (.arr []))) := by
  rw [warningsOf, h, ← getD_truthy?]
  split
  · next hnone => rw [hnone]; rfl
  · next items hsome => rw [hsome]; rfl
  · next v' hne hother =>
    rw [hother, Option.getD_some]
    cases v' with
    | list items => exact absurd rfl (hne items)
    | _ => rfl

theorem getStr_eq {payload : List (Text × PyJson)} {v : Option Json} {key slug : Text}
    (h : payload.lookup key = v.map readBack) :
    getStr payload key (.ofText slug) = str? (readBack (v.getD (.str slug))) := by
  rw [getStr, h]
  cases v <;> rfl

/-- **The two accounts of `show_profile` agree.**  Where the directories hold what is in a store,
what is shown of the store is what is printed, line by line. -/
theorem showProfile_eq {profiles : ProfilesDir} {S : Store} (h : Represents decode profiles S)
    (slug : Text) : showProfile decode path profiles (.ofText slug) =
      match Profiles.showProfile S slug with
      | none => .missing
      | some shown => ((printShown path shown).map .printed).getD .failed := by
  have hslug : slugOf (.ofText slug) = sanitizeSlug slug := by
    rw [slugOf, PyText.plain_ofText]
  obtain ⟨hnone, hsome⟩ := h (sanitizeSlug slug)
  rw [showProfile, hslug, Profiles.showProfile]
  cases hdir : S.dir (sanitizeSlug slug) with
  | none => rw [hnone hdir]; rfl
  | some s =>
    obtain ⟨bytes, hfile, payload, hread, hlookup⟩ := hsome s hdir
    have hshown : showPayload path (.ofText slug) payload = printShown path
        { displayName := (s.profileJson (txt "profile_display_name")).getD (.str slug)
          slug := (s.profileJson (txt "profile_slug")).getD (.str slug)
          directory := sanitizeSlug slug
          fields := Json.orElse (s.profileJson (txt "hardware_fields")) (.obj [])
          warnings := Json.orElse (s.profileJson (txt "warnings")) (.arr []) } := by
      rw [showPayload, printShown, fieldsOf_eq (hlookup _), warningsOf_eq (hlookup _),
        getStr_eq (hlookup _), getStr_eq (hlookup _), hslug]
    rw [hfile, Option.map_some]
    simp only [hread, Option.bind_some, hshown]

/-- A profile of a store, with the arguments of `save_profile` that make it. -/
structure SavedAs (p : Profile) (q : Saving) : Prop where
  displayName : q.displayName = .ofText p.displayName
  now : q.now = p.created
  fields : q.hardwareFields = p.hardwareFields.items.map fun kv => (kv.1, .ofText kv.2)
  details : ∀ key, q.details.lookup key = (p.details key).map ofJson
  warnings : q.warnings = p.warnings.map .ofText

theorem SavedAs.slug {p : Profile} {q : Saving} (h : SavedAs p q) : q.slug = p.slug := by
  rw [Saving.slug, slugOf, h.displayName, PyText.plain_ofText, Profile.slug]

/-- Both write the same object. -/
theorem SavedAs.lookup_payloadItems {p : Profile} {q : Saving} (h : SavedAs p q) (key : Text) :
    (payloadItems q).lookup key = (p.payload key).map ofJson := by
  rw [payloadItems, Profile.payload]
  -- the five keys that `save_profile` sets, the last one first
  by_cases hname : key = txt "profile_display_name"
  · subst hname
    rw [lookup_setKey_of_ne (by simp [txt]), lookup_setKey_of_ne (by simp [txt]),
      lookup_setKey_of_ne (by simp [txt]), lookup_setKey_of_ne (by simp [txt]), lookup_setKey_self,
      if_pos rfl, h.displayName]
    rfl
  rw [if_neg hname]
  by_cases hslug : key = txt "profile_slug"
  · subst hslug
    rw [lookup_setKey_of_ne (by simp [txt]), lookup_setKey_of_ne (by simp [txt]),
      lookup_setKey_of_ne (by simp [txt]), lookup_setKey_self, if_pos rfl, h.slug]
    rfl
  rw [if_neg hslug]
  by_cases hcreated : key = txt "created_utc"
  · subst hcreated
    rw [lookup_setKey_of_ne (by simp [txt]), lookup_setKey_of_ne (by simp [txt]),
      lookup_setKey_self, if_pos rfl, h.now]
    rfl
  rw [if_neg hcreated]
  by_cases hfields : key = txt "hardware_fields"
  · subst hfields
    rw [lookup_setKey_of_ne (by simp [txt]), lookup_setKey_self, if_pos rfl, h.fields,
      Option.map_some, ofJson, ofJsonDict_map_str, List.map_map]
    rfl
  rw [if_neg hfields]
  by_cases hwarnings : key = txt "warnings"
  · subst hwarnings
    rw [lookup_setKey_self, if_pos rfl, h.warnings, Option.map_some, ofJson, ofJsonList_map_str,
      List.map_map]
    rfl
  rw [if_neg hwarnings, lookup_setKey_of_ne hwarnings, lookup_setKey_of_ne hfields,
    lookup_setKey_of_ne hcreated, lookup_setKey_of_ne hslug, lookup_setKey_of_ne hname, h.details]

/-- What `save_profile` has written is read back. -/
theorem readPayload_saved {encode : Codec} {q : Saving} (hregular : Regular q) {bytes : List UInt8}
    (hdecode : ∀ t : Text, (∀ c ∈ t, PyJson.IsPlain c) → ∀ bytes, encode (.ofText t) = some bytes →
      decode bytes = some (.ofText t))
    (hbytes : encode (q.text .profileJson) = some bytes) :
    readPayload decode bytes = some (loadedItems q) := by
  have hplain : ∀ c ∈ q.payload.dumps 0 ++ ['\n'], PyJson.IsPlain c :=
    List.forall_mem_append.2 ⟨PyJson.plain_dumps _ 0, by decide⟩
  have hloaded : PyJson.loads (q.payload.dumps 0 ++ ['\n']) = some (.dict (loadedItems q)) := by
    rw [PyJson.loads_file hregular.payload, payload_eq, PyJson.sorted_dict]
    rfl
  rw [readPayload, hdecode _ hplain bytes hbytes, Option.bind_some, PyText.text?_ofText,
    Option.bind_some, hloaded]

theorem SavedAs.holds {encode : Codec} {p : Profile} {q : Saving} (h : SavedAs p q)
    (hregular : Regular q) {bytes : List UInt8}
    (hdecode : ∀ t : Text, (∀ c ∈ t, PyJson.IsPlain c) → ∀ bytes, encode (.ofText t) = some bytes →
      decode bytes = some (.ofText t))
    (hbytes : encode (q.text .profileJson) = some bytes) : Holds decode bytes p.saved := by
  refine ⟨loadedItems q, readPayload_saved hregular hdecode hbytes, fun key => ?_⟩
  rw [lookup_loadedItems hregular, h.lookup_payloadItems, Option.map_map]
  rfl

/-- **The two accounts of `save_profile` agree.**  A run that saves a profile leaves what the store
has after it. -/
theorem Represents.save {encode : Codec} {x : Faults} {s : Session} {p : Profile}
    {before after : ProfilesDir} {S S' : Store} (h : Represents decode before S)
    (hsaved : SavedAs p s.saving) (hregular : Regular s.saving)
    (hdecode : ∀ t : Text, (∀ c ∈ t, PyJson.IsPlain c) → ∀ bytes, encode (.ofText t) = some bytes →
      decode bytes = some (.ofText t))
    (hrun : runNew encode x s before = (after, 0)) (hS : S.save p = some S') :
    Represents decode after S' := by
  have hdir : ∀ k, S'.dir k = if k = p.slug then some p.saved else S.dir k := by
    unfold Store.save at hS
    split at hS
    · cases hS
    · obtain rfl := Option.some.inj hS
      exact fun _ => rfl
  intro k
  rw [hdir]
  by_cases hk : k = p.slug
  · -- the new profile can be read back
    obtain ⟨files, bytes, hentry, hbytes, hfile⟩ := jsonFile_of_runNew hrun
    rw [if_pos hk]
    refine ⟨fun hnone => (by cases hnone), fun s hs => ?_⟩
    obtain rfl := Option.some.inj hs
    refine ⟨bytes, ?_, hsaved.holds hregular hdecode hbytes⟩
    rw [jsonFile, hk, ← hsaved.slug, hentry]
    exact hfile
  · -- the others are as they were
    have hframe : jsonFile after k = jsonFile before k := by
      have hne : k ≠ s.saving.slug := by
        rw [hsaved.slug]
        exact hk
      have hkept := runNew_of_ne encode x before hne
      rw [hrun] at hkept
      rw [jsonFile, hkept, jsonFile]
    rw [if_neg hk, hframe]
    exact h k

end

/-- **A profile is shown as it was analysed.**  When a run has saved a profile, then after any later
runs `show_profile`, given the name or the slug of the profile, prints its name, its slug and its
path, and the report that the run printed before it saved. -/
theorem show_prints_analysis (encode : Codec) (decode : List UInt8 → Option PyText)
    (path : Text → PyText) (x : Faults) (s : Session) (before after later : ProfilesDir)
    (arg : PyText)
    (hdecode : ∀ t : Text, (∀ c ∈ t, PyJson.IsPlain c) → ∀ bytes, encode (.ofText t) = some bytes →
      decode bytes = some (.ofText t))
    (hregular : Regular s.saving) (hrun : runNew encode x s before = (after, 0))
    (hlater : Later after later)
    (harg : arg = s.saving.displayName ∨ arg = .ofText s.saving.slug) :
    showProfile decode path later arg =
      .printed ([line "Saved hardware-analysis profile: " s.saving.displayName,
        line "Profile slug: " (.ofText s.saving.slug),
        line "Profile path: " (path s.saving.slug), []] ++
          printReport (fun key => s.fields.lookup key) s.warnings) := by
  -- the name and the slug lead to the same directory
  have hslug : slugOf arg = s.saving.slug := by
    obtain h | h := harg
    · rw [h, Saving.slug]
    · have hs : IsSlug s.saving.slug := by
        rw [Saving.slug, slugOf]
        exact sanitizeSlug_isSlug _
      rw [h, slugOf, PyText.plain_ofText, sanitizeSlug_of_isSlug hs]
  obtain ⟨files, bytes, hdir, hbytes, hfile⟩ := jsonFile_of_runNew hrun
  have hjson : jsonFile later (slugOf arg) = some bytes := by
    rw [jsonFile, hslug, hlater.keeps hdir]
    exact hfile
  obtain ⟨fields, hfields, hlookup⟩ := fieldsOf_loadedItems hregular
  -- the report depends on the fields that are saved
  have hreport : printReport (fun key => fields.lookup key) s.warnings =
      printReport (fun key => s.fields.lookup key) s.warnings :=
    printReport_congr (fun key hkey => (hlookup key).trans (lookup_hardwareFields hkey)) _
  have hname : (payloadItems s.saving).lookup (txt "profile_display_name") =
      some (.str s.saving.displayName) := by
    rw [payloadItems, lookup_setKey_of_ne (by simp [txt]), lookup_setKey_of_ne (by simp [txt]),
      lookup_setKey_of_ne (by simp [txt]), lookup_setKey_of_ne (by simp [txt]), lookup_setKey_self]
  have hsaved : (payloadItems s.saving).lookup (txt "profile_slug") =
      some (.str (.ofText s.saving.slug)) := by
    rw [payloadItems, lookup_setKey_of_ne (by simp [txt]), lookup_setKey_of_ne (by simp [txt]),
      lookup_setKey_of_ne (by simp [txt]), lookup_setKey_self]
  have hread : readPayload decode bytes = some (loadedItems s.saving) :=
    readPayload_saved hregular hdecode hbytes
  have hpayload : showPayload path arg (loadedItems s.saving) =
      some ([line "Saved hardware-analysis profile: " s.saving.displayName,
        line "Profile slug: " (.ofText s.saving.slug),
        line "Profile path: " (path s.saving.slug), []] ++
          printReport (fun key => s.fields.lookup key) s.warnings) := by
    rw [showPayload, hfields, warningsOf_loadedItems hregular, getStr_loadedItems hregular _ hname,
      getStr_loadedItems hregular _ hsaved, hslug, ← hreport]
    rfl
  simp only [showProfile, hjson, hread, Option.bind_some, hpayload, Option.map_some,
    Option.getD_some]

/-! ### One profile in UTF-8 -/

section

variable {p : Saving} {s : Session} {before : ProfilesDir}

/-- A string without surrogates. -/
def IsText (t : PyText) : Prop := ∃ u, t = .ofText u

theorem isText_shellConf {fields : List (Text × PyText)} (h : ∀ kv ∈ fields, IsText kv.2) :
    IsText (shellConf fields) := by
  have hfields : fields =
      (fields.map fun kv => (kv.1, kv.2.plain)).map fun kv => (kv.1, .ofText kv.2) := by
    rw [List.map_map]
    conv_lhs => rw [← List.map_id fields]
    refine List.map_congr_left fun kv hkv => ?_
    obtain ⟨u, hu⟩ := h kv hkv
    show kv = (kv.1, .ofText kv.2.plain)
    rw [hu, PyText.plain_ofText, ← hu]
  rw [hfields, shellConf_ofText]
  exact ⟨_, rfl⟩

theorem isText_lookup {fields : List (Text × PyText)} (h : ∀ kv ∈ fields, IsText kv.2) (k : Text)
    (default : Text) : IsText ((fields.lookup k).getD (.ofText default)) := by
  cases hk : fields.lookup k with
  | none => exact ⟨default, rfl⟩
  | some v => exact h _ (mem_of_lookup hk)

/-- The three files are texts when what is saved is one. -/
theorem isText_text (hname : IsText p.displayName) (hfields : ∀ kv ∈ p.fields, IsText kv.2)
    (f : FileName) : IsText (p.text f) := by
  have hhardware : ∀ kv ∈ p.hardwareFields, IsText kv.2 :=
    forall_setKey (forall_setKey (forall_setKey hfields _ hname) _ ⟨_, rfl⟩) _ ⟨_, rfl⟩
  cases f with
  | hardwareConf => exact isText_shellConf hhardware
  | profileConf =>
    refine isText_shellConf (List.forall_mem_append.2 ⟨?_, ?_⟩)
    · simp only [List.forall_mem_cons]
      exact ⟨hname, ⟨_, rfl⟩, ⟨_, rfl⟩, ⟨_, rfl⟩, isText_lookup hhardware _ _,
        isText_lookup hhardware _ _, ⟨_, rfl⟩, fun _ h => absurd h List.not_mem_nil⟩
    · split
      · next os hos =>
        split
        · exact fun _ h => absurd h List.not_mem_nil
        · have htext : IsText os := hhardware _ (mem_of_lookup hos)
          exact List.forall_mem_cons.2 ⟨htext, fun _ h => absurd h List.not_mem_nil⟩
      · exact fun _ h => absurd h List.not_mem_nil
  | profileJson => exact ⟨_, rfl⟩

/-- In UTF-8, what is text is saved where its directory is free. -/
theorem runNew_of_isText (hname : IsText s.saving.displayName)
    (hfields : ∀ kv ∈ s.fields, IsText kv.2) (hfree : before.bind (· s.saving.slug) = none) :
    ∃ after, runNew utf8Codec noFaults s before = (after, 0) := by
  have hwritable : ∀ f, Writable utf8Codec noFaults s.saving f := by
    intro f
    obtain ⟨t, ht⟩ := isText_text hname hfields f
    exact ⟨rfl, by simp [ht, utf8Codec]⟩
  have hrefused : ¬ Refused noFaults s.saving before := by
    simp [Refused, noFaults, hfree]
  obtain ⟨-, ⟨-, h, -⟩ | ⟨-, dirs, -, hsave⟩⟩ :=
    saveProfile_of_not_refused utf8Codec hrefused
  · cases h
  · rw [writeFiles_eq_none_iff.2 fun f _ => hwritable f] at hsave
    exact ⟨_, runNew_of_none rfl hsave⟩

end

open Classical in
/-- The decoder of UTF-8. -/
noncomputable def utf8Decoder (bytes : List UInt8) : Option PyText :=
  if h : ∃ t, utf8 t = bytes then some (.ofText h.choose) else none

theorem utf8Decoder_utf8 (t : Text) : utf8Decoder (utf8 t) = some (.ofText t) := by
  have h : ∃ t', utf8 t' = utf8 t := ⟨t, rfl⟩
  have hspec := h.choose_spec
  have heq : h.choose = t := by
    rcases lt_trichotomy h.choose t with hlt | heq | hgt
    · have hbytes := utf8_lt hlt
      rw [hspec] at hbytes
      exact absurd hbytes (List.lt_irrefl _)
    · exact heq
    · have hbytes := utf8_lt hgt
      rw [hspec] at hbytes
      exact absurd hbytes (List.lt_irrefl _)
  rw [utf8Decoder, dif_pos h, heq]

/-- An old notebook. -/
def notebook : Session :=
  ⟨some (.ofText ['O', 'l', 'd']), false, none, [(txt "TARGET_RAM", .ofText ['2', ' ', 'G', 'B'])],
    [(txt "hostname", .str [.surrogate ⟨106, by decide⟩])], [[.surrogate ⟨106, by decide⟩]],
    txt "2024-01-01T00:00:00+00:00"⟩

theorem show_prints_analysis_sample : ∃ after,
    runNew utf8Codec noFaults notebook none = (after, 0) ∧
      showProfile utf8Decoder (fun slug => .ofText slug) after (.ofText notebook.saving.slug) =
        .printed ([line "Saved hardware-analysis profile: " notebook.saving.displayName,
          line "Profile slug: " (.ofText notebook.saving.slug),
          line "Profile path: " (.ofText notebook.saving.slug), []] ++
            printReport (fun key => notebook.fields.lookup key) notebook.warnings) := by
  have hname : IsText notebook.saving.displayName := ⟨['O', 'l', 'd'], by rfl⟩
  have hfields : ∀ kv ∈ notebook.fields, IsText kv.2 := by
    intro kv hkv
    obtain rfl := List.mem_singleton.1 hkv
    exact ⟨_, rfl⟩
  have hregular : Regular notebook.saving := by
    refine ⟨List.nodup_singleton _, ?_⟩
    simp [notebook, Session.saving, PyJson.WellFormed, PyJson.WellFormedDict]
  have hfree : (none : ProfilesDir).bind (· notebook.saving.slug) = none := rfl
  obtain ⟨after, hrun⟩ := runNew_of_isText hname hfields hfree
  refine ⟨after, hrun, ?_⟩
  refine show_prints_analysis utf8Codec utf8Decoder (fun slug => .ofText slug) noFaults notebook
    none after after _ (fun t _ bytes hbytes => ?_) hregular hrun Relation.ReflTransGen.refl
    (Or.inr rfl)
  rw [utf8Codec, PyText.text?_ofText] at hbytes
  rw [← Option.some.inj hbytes, utf8Decoder_utf8]

end Report

end Profiles

end InstallKit
