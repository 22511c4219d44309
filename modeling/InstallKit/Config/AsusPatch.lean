import InstallKit.Config.Values
import InstallKit.Text.Occurrences

/-!
# `scripts/patch_asus_1215p_oc_config.py`

The program adapts a generated configuration to another computer: one patch of the kernel comes
last, one boot argument comes last, and the comments of the drivers name the computer.
`patch_normalises` says what becomes of each part of the configuration, that the program accepts its
own output, and that a second run changes nothing.
-/

namespace InstallKit

namespace Config

namespace Asus

open Sources

/-! ### The program -/

/-- `GPU_PATH` -/
def gpuPath : String := "PciRoot(0x0)/Pci(0x2,0x0)"

/-- `CURSOR_COMMENT` -/
def cursorComment : Text := txt "GMA 3150 Cursor corruption fix"

/-- `CURSOR_IDENTIFIER` -/
def cursorIdentifier : Text := txt "com.apple.driver.AppleIntelIntegratedFramebuffer"

/-- `CURSOR_FIND` -/
def cursorFind : Bytes :=
  [0x8b, 0x55, 0x08, 0x83, 0xba, 0xb0, 0x00, 0x00, 0x00, 0x01, 0x7e, 0x36, 0x89, 0x04, 0x24, 0xe8,
    0x32, 0xbb, 0xff, 0xff]

/-- `CURSOR_REPLACE` -/
def cursorReplace : Bytes :=
  [0xb8, 0x00, 0x00, 0x00, 0x02, 0x90, 0x90, 0x90, 0x90, 0x90, 0x90, 0x90, 0x90, 0x90, 0xeb, 0x04,
    0x00, 0x00, 0x00, 0x00]

/-- `cursor_patch` -/
def cursorPatch : Plist :=
  .dict [("Arch", .str (txt "i386")), ("Base", .str []), ("Comment", .str cursorComment),
    ("Count", .int 0), ("Enabled", .bool true), ("Find", .data cursorFind),
    ("Identifier", .str cursorIdentifier), ("Limit", .int 0), ("Mask", .data []),
    ("MaxKernel", .str (txt "11.99.99")), ("MinKernel", .str (txt "8.0.0")),
    ("Replace", .data cursorReplace), ("ReplaceMask", .data []), ("Skip", .int 0)]

/-- `is_cursor_patch`; `none` where the entry has no `get`. -/
def isCursorPatch : Plist → Option Bool
  | .dict kvs => some (isText cursorComment (kvs.lookup (.str "Comment")) ||
      (isText cursorIdentifier (kvs.lookup (.str "Identifier")) &&
        isBytes cursorFind (kvs.lookup (.str "Find"))))
  | _ => none

/-- The entries that are not cursor patches. -/
def otherPatches : List Plist → Option (List Plist)
  | [] => some []
  | entry :: entries => do
    let cursor ← isCursorPatch entry
    let others ← otherPatches entries
    return if cursor then others else entry :: others

/-- The properties of the graphics card. -/
def gpuProperties : Plist :=
  .dict [("device-id", .data [0xA2, 0x27, 0, 0]), ("model", .str (txt "GMA 950")),
    ("AAPL,HasPanel", .data [1, 0, 0, 0]),
    ("AAPL01,BacklightIntensity", .data [0x3F, 0, 0, 0x08]),
    ("AAPL01,BootDisplay", .data [1, 0, 0, 0]), ("AAPL01,DataJustify", .data [1, 0, 0, 0]),
    ("AAPL01,DualLink", .data [0])]

/-- `nvram.get("boot-args", "").split()`.  Bytes can be split too, but not joined with a string, so
that only those without words pass. -/
def bootWords : Option Plist → Option (List Text)
  | none => some []
  | some (.str s) => some (splitWords s)
  | some (.data b) => if stripBytes b = [] then some [] else none
  | some _ => none

/-- `"arch=i386"` -/
def archWord : Text := txt "arch=i386"

/-- `args` -/
def archLast (words : List Text) : List Text := words.filter (· ≠ archWord) ++ [archWord]

/-- `"Aspire 4310"` -/
def oldName : Text := txt "Aspire 4310"

/-- `"ASUS Eee PC 1215P"` -/
def newName : Text := txt "ASUS Eee PC 1215P"

/-- The pass over one driver.  A list and a dictionary can contain the name as well, but cannot
replace it; a string can contain `Comment`, but has no keys. -/
def renameComment (driver : Plist) : Option Plist :=
  match driver with
  | .dict kvs =>
    match kvs.lookup (.str "Comment") with
    | none => some driver
    | some (.str s) =>
      if oldName <:+: s then
        some (.dict (dictInsert "Comment" (.str (Text.replaceAll oldName newName s)) kvs))
      else some driver
    | some (.array xs) => if mentions oldName xs then none else some driver
    | some (.dict kvs') => if kvs'.any (fun kv => kv.1 = .str (String.ofList oldName)) then none
      else some driver
    | some _ => none
  | .array xs => if mentions (txt "Comment") xs then none else some driver
  | .str s => if txt "Comment" <:+: s then none else some driver
  | _ => none

/-- The loop over the drivers, which are changed in place. -/
def renameComments : Plist → Option Plist
  | .array drivers => (drivers.mapM renameComment).map .array
  | d => do
    let _ ← (← iterate d).mapM renameComment
    return d

/-- `"#Revision"` -/
def revision : Text :=
  txt "ASUS Eee PC 1215P audited profile; Atom N570 / GMA3150; " ++
    txt "Snow Leopard i386 custom-kernel bring-up"

/-- `nvram` and its key. -/
def bootArgsPath : List String := ["NVRAM", "Add", appleNvram, "boot-args"]

/-- The assignments. -/
def assignments (others : List Plist) (words : List Text) (drivers : Plist) :
    List (List String × Plist) :=
  [(["DeviceProperties", "Add", gpuPath], gpuProperties),
    (["Kernel", "Patch"], .array (others ++ [cursorPatch])),
    (["Kernel", "Scheme", "KernelArch"], .str (txt "i386")),
    (["Kernel", "Scheme", "CustomKernel"], .bool true),
    (["Kernel", "Scheme", "FuzzyMatch"], .bool true),
    (bootArgsPath, .str (unwords (archLast words))),
    (["PlatformInfo", "Generic", "MLB"], .str (txt "W0000000000001215")),
    (["PlatformInfo", "Generic", "ROM"], .data [0x41, 0x53, 0x31, 0x32, 0x31, 0x35]),
    (["PlatformInfo", "Generic", "SystemProductName"], .str (txt "MacBook2,1")),
    (["PlatformInfo", "Generic", "SystemSerialNumber"], .str (txt "W00000001215")),
    -- `uuid.uuid5(uuid.NAMESPACE_DNS, "asus-eee-pc-1215p-legacy-macos")`
    (["PlatformInfo", "Generic", "SystemUUID"], .str (txt "FC2B5E61-1CC8-54CC-AEC6-5F6B4F96E472")),
    (["UEFI", "Drivers"], drivers),
    (["#Revision"], .str revision)]

/-- `patch`.  What it reads is apart from what it assigns before. -/
def patch (config : Plist) : Option Plist := do
  let others ← otherPatches (← iterate (← config.get ["Kernel", "Patch"]))
  let words ← bootWords (config.get bootArgsPath)
  let drivers ← renameComments (← config.get ["UEFI", "Drivers"])
  config.writes (assignments others words drivers)

/-- The patch that `validate` looks at. -/
def validatePatch (entries : List Plist) : Bool :=
  match entries.mapM isCursorPatch with
  | none => false
  | some flags =>
    match (entries.zip flags).filter Prod.snd with
    | [(entry, _)] => isText cursorIdentifier (entry.get ["Identifier"]) &&
        isBytes cursorFind (entry.get ["Find"]) && isBytes cursorReplace (entry.get ["Replace"]) &&
        isBool true (entry.get ["Enabled"])
    | _ => false

/-- `validate` -/
def validate (config : Plist) : Bool :=
  isBytes [0xA2, 0x27, 0, 0] (config.get ["DeviceProperties", "Add", gpuPath, "device-id"]) &&
  isBytes [0] (config.get ["DeviceProperties", "Add", gpuPath, "AAPL01,DualLink"]) &&
  isText (txt "i386") (config.get ["Kernel", "Scheme", "KernelArch"]) &&
  isBool true (config.get ["Kernel", "Scheme", "CustomKernel"]) &&
  (match (config.get ["Kernel", "Patch"]).bind iterate with
    | some entries => validatePatch entries
    | none => false) &&
  match config.get bootArgsPath with
  | some (.str s) => (splitWords s).count archWord = 1
  | _ => false

variable {config config' : Plist} {entries others : List Plist}

/-! ### The patches -/

/-- What is left has no cursor patch in it. -/
theorem otherPatches_eq_some : otherPatches entries = some others ↔
    (∀ entry ∈ entries, isCursorPatch entry ≠ none) ∧
      others = entries.filter fun entry => isCursorPatch entry = some false := by
  induction entries generalizing others with
  | nil => simp [otherPatches, eq_comm]
  | cons entry entries ih =>
    rw [List.forall_mem_cons]
    simp only [otherPatches, Option.bind_eq_bind, Option.bind_eq_some_iff, Option.pure_def,
      Option.some.injEq]
    constructor
    · rintro ⟨cursor, hcursor, rest, hrest, rfl⟩
      obtain ⟨hall, rfl⟩ := ih.1 hrest
      refine ⟨⟨by simp [hcursor], hall⟩, ?_⟩
      cases cursor <;> simp [hcursor]
    · rintro ⟨⟨hne, hall⟩, rfl⟩
      obtain ⟨cursor, hcursor⟩ := Option.ne_none_iff_exists'.1 hne
      refine ⟨cursor, hcursor, _, ih.2 ⟨hall, rfl⟩, ?_⟩
      cases cursor <;> simp [hcursor]

theorem isCursorPatch_cursorPatch : isCursorPatch cursorPatch = some true := by decide +kernel

theorem otherPatches_again (h : otherPatches entries = some others) :
    otherPatches (others ++ [cursorPatch]) = some others := by
  obtain ⟨-, rfl⟩ := otherPatches_eq_some.1 h
  rw [otherPatches_eq_some, List.filter_append, List.filter_filter]
  refine ⟨fun entry hentry => ?_, by simp [isCursorPatch_cursorPatch]⟩
  rcases List.mem_append.1 hentry with hentry | hentry
  · have hfalse := of_decide_eq_true (List.mem_filter.1 hentry).2
    simp [hfalse]
  · obtain rfl := List.mem_singleton.1 hentry
    simp [isCursorPatch_cursorPatch]

theorem validatePatch_cons {entry : Plist} (h : isCursorPatch entry = some false) :
    validatePatch (entry :: entries) = validatePatch entries := by
  rw [validatePatch, List.mapM_cons, h, validatePatch]
  cases entries.mapM isCursorPatch <;> rfl

/-- The only cursor patch is the canonical one. -/
theorem validatePatch_append (h : ∀ entry ∈ others, isCursorPatch entry = some false) :
    validatePatch (others ++ [cursorPatch]) = true := by
  induction others with
  | nil => decide +kernel
  | cons entry others ih =>
    rw [List.forall_mem_cons] at h
    rw [List.cons_append, validatePatch_cons h.1, ih h.2]

/-! ### The boot arguments -/

theorem isWord_of_bootWords {v : Option Plist} {words : List Text} (h : bootWords v = some words) :
    ∀ w ∈ words, IsWord w := by
  unfold bootWords at h
  split at h
  · obtain rfl := Option.some.inj h
    exact List.forall_mem_nil _
  · obtain rfl := Option.some.inj h
    exact fun w hw => isWord_of_mem_splitWords hw
  · split at h
    · obtain rfl := Option.some.inj h
      exact List.forall_mem_nil _
    · cases h
  · cases h

theorem isWord_archLast {words : List Text} (h : ∀ w ∈ words, IsWord w) :
    ∀ w ∈ archLast words, IsWord w := by
  intro w hw
  rcases List.mem_append.1 hw with hw | hw
  · exact h w (List.mem_of_mem_filter hw)
  · obtain rfl := List.mem_singleton.1 hw
    unfold IsWord
    decide +kernel

theorem archLast_archLast (words : List Text) : archLast (archLast words) = archLast words := by
  rw [archLast, archLast, List.filter_append, List.filter_filter]
  simp

theorem count_archLast (words : List Text) : (archLast words).count archWord = 1 := by
  rw [archLast, List.count_append, List.count_singleton_self, List.count_eq_zero.2]
  simp

/-! ### The comments -/

/-- A driver is another one, but for its comment. -/
def SameButComment (driver driver' : Plist) : Prop :=
  driver' = driver ∨ ∃ kvs s, driver = .dict kvs ∧ kvs.lookup (.str "Comment") = some (.str s) ∧
    driver' = .dict (dictInsert "Comment" (.str (Text.replaceAll oldName newName s)) kvs)

theorem sameButComment_of_rename {driver driver' : Plist}
    (h : renameComment driver = some driver') : SameButComment driver driver' := by
  unfold renameComment at h
  split at h
  · split at h
    · exact Or.inl (Option.some.inj h).symm
    · rename_i kvs _ s hs
      split at h
      · exact Or.inr ⟨kvs, s, rfl, hs, (Option.some.inj h).symm⟩
      · exact Or.inl (Option.some.inj h).symm
    · split at h
      · cases h
      · exact Or.inl (Option.some.inj h).symm
    · split at h
      · cases h
      · exact Or.inl (Option.some.inj h).symm
    · cases h
  · split at h
    · cases h
    · exact Or.inl (Option.some.inj h).symm
  · split at h
    · cases h
    · exact Or.inl (Option.some.inj h).symm
  · cases h

/-- The new name does not bring the old one back. -/
theorem not_oldName_replaceAll (s : Text) : ¬ oldName <:+: Text.replaceAll oldName newName s :=
  Text.not_infix_replaceAll (by decide +kernel) (by decide +kernel) (by decide +kernel)

theorem renameComment_again {driver driver' : Plist} (h : renameComment driver = some driver') :
    renameComment driver' = some driver' := by
  rcases sameButComment_of_rename h with rfl | ⟨kvs, s, rfl, -, rfl⟩
  · exact h
  · rw [renameComment, lookup_dictInsert_self]
    simp only [not_oldName_replaceAll, if_false]

theorem mapM_again {α : Type} {f : α → Option α} (hf : ∀ x y, f x = some y → f y = some y)
    {xs ys : List α} (h : xs.mapM f = some ys) : ys.mapM f = some ys := by
  induction xs generalizing ys with
  | nil =>
    obtain rfl : [] = ys := by simpa using h
    rfl
  | cons x xs ih =>
    rw [List.mapM_cons] at h
    obtain ⟨y, hy, h⟩ := Option.bind_eq_some_iff.1 h
    obtain ⟨ys', hys, h⟩ := Option.bind_eq_some_iff.1 h
    obtain rfl : y :: ys' = ys := Option.some.inj h
    rw [List.mapM_cons, hf x y hy, ih hys]
    rfl

theorem renameComments_again {drivers drivers' : Plist}
    (h : renameComments drivers = some drivers') : renameComments drivers' = some drivers' := by
  unfold renameComments at h
  split at h
  · obtain ⟨ys, hys, rfl⟩ := Option.map_eq_some_iff.1 h
    rw [renameComments, mapM_again (fun _ _ => renameComment_again) hys]
    rfl
  · rename_i hno
    obtain ⟨xs, hxs, h'⟩ := Option.bind_eq_some_iff.1 h
    obtain ⟨ys, hys, h'⟩ := Option.bind_eq_some_iff.1 h'
    obtain rfl : drivers = drivers' := Option.some.inj h'
    rw [renameComments]
    · exact h
    · exact hno

/-! ### The configuration -/

/-- The paths that are assigned. -/
def touched : List (List String) :=
  [["DeviceProperties", "Add", gpuPath], ["Kernel", "Patch"], ["Kernel", "Scheme", "KernelArch"],
    ["Kernel", "Scheme", "CustomKernel"], ["Kernel", "Scheme", "FuzzyMatch"], bootArgsPath,
    ["PlatformInfo", "Generic", "MLB"], ["PlatformInfo", "Generic", "ROM"],
    ["PlatformInfo", "Generic", "SystemProductName"],
    ["PlatformInfo", "Generic", "SystemSerialNumber"], ["PlatformInfo", "Generic", "SystemUUID"],
    ["UEFI", "Drivers"], ["#Revision"]]

theorem map_fst_assignments (others : List Plist) (words : List Text) (drivers : Plist) :
    (assignments others words drivers).map Prod.fst = touched := rfl

theorem nodup_touched : touched.Nodup := by decide

theorem eq_or_apart_touched : ∀ p ∈ touched, ∀ q ∈ touched, p = q ∨ Plist.apart p q = true := by
  decide

/-- What a successful run reads and assigns. -/
theorem patch_eq_some : patch config = some config' ↔
    ∃ patches entries others words drivers drivers',
    config.get ["Kernel", "Patch"] = some patches ∧ iterate patches = some entries ∧
    otherPatches entries = some others ∧ bootWords (config.get bootArgsPath) = some words ∧
    config.get ["UEFI", "Drivers"] = some drivers ∧ renameComments drivers = some drivers' ∧
    config.writes (assignments others words drivers') = some config' := by
  simp only [patch, Option.bind_eq_bind, Option.bind_eq_some_iff]
  constructor
  · rintro ⟨patches, hp, entries, he, others, ho, words, hw, drivers, hd, drivers', hd', h⟩
    exact ⟨patches, entries, others, words, drivers, drivers', hp, he, ho, hw, hd, hd', h⟩
  · rintro ⟨patches, entries, others, words, drivers, drivers', hp, he, ho, hw, hd, hd', h⟩
    exact ⟨patches, hp, entries, he, others, ho, words, hw, drivers, hd, drivers', hd', h⟩

/-- The dictionaries and lists that the program works on, with values that it can work with. -/
structure HasSections (config : Plist) : Prop where
  dicts : ∀ s ∈ [[], ["DeviceProperties", "Add"], ["Kernel"], ["Kernel", "Scheme"],
    ["NVRAM", "Add", appleNvram], ["PlatformInfo", "Generic"], ["UEFI"]], config.HasDict s
  patches : ∃ kvss : List (List (Key × Plist)),
    config.get ["Kernel", "Patch"] = some (.array (kvss.map .dict))
  bootArgs : config.get bootArgsPath = none ∨ ∃ s, config.get bootArgsPath = some (.str s)
  drivers : ∃ kvss : List (List (Key × Plist)),
    config.get ["UEFI", "Drivers"] = some (.array (kvss.map .dict)) ∧
      ∀ kvs ∈ kvss, kvs.lookup (.str "Comment") = none ∨
        ∃ s, kvs.lookup (.str "Comment") = some (.str s)

theorem exists_mapM {α : Type} {f : α → Option α} {xs : List α} (h : ∀ x ∈ xs, ∃ y, f x = some y) :
    ∃ ys, xs.mapM f = some ys := by
  induction xs with
  | nil => exact ⟨[], rfl⟩
  | cons x xs ih =>
    obtain ⟨⟨y, hy⟩, hxs⟩ := List.forall_mem_cons.1 h
    obtain ⟨ys, hys⟩ := ih hxs
    exact ⟨y :: ys, by rw [List.mapM_cons, hy, hys]; rfl⟩

theorem forall₂_of_mapM {α : Type} {f : α → Option α} {R : α → α → Prop}
    (hR : ∀ x y, f x = some y → R x y) {xs ys : List α} (h : xs.mapM f = some ys) :
    List.Forall₂ R xs ys := by
  induction xs generalizing ys with
  | nil =>
    obtain rfl : [] = ys := by simpa using h
    exact .nil
  | cons x xs ih =>
    rw [List.mapM_cons] at h
    obtain ⟨y, hy, h⟩ := Option.bind_eq_some_iff.1 h
    obtain ⟨ys', hys, h⟩ := Option.bind_eq_some_iff.1 h
    obtain rfl : y :: ys' = ys := Option.some.inj h
    exact .cons (hR x y hy) (ih hys)

/-- **The program runs through** where its sections are. -/
theorem exists_patch (h : HasSections config) : ∃ config', patch config = some config' := by
  obtain ⟨kvss, hpatches⟩ := h.patches
  obtain ⟨kvss', hdrivers, hcomments⟩ := h.drivers
  have hothers : otherPatches (kvss.map .dict) = some _ :=
    otherPatches_eq_some.2 ⟨by simp [isCursorPatch], rfl⟩
  obtain ⟨words, hwords⟩ : ∃ words, bootWords (config.get bootArgsPath) = some words := by
    rcases h.bootArgs with hb | ⟨s, hb⟩
    · exact ⟨[], by rw [hb]; rfl⟩
    · exact ⟨splitWords s, by rw [hb]; rfl⟩
  obtain ⟨drivers', hdrivers'⟩ : ∃ drivers', (kvss'.map Plist.dict).mapM renameComment =
      some drivers' := by
    refine exists_mapM fun driver hdriver => ?_
    obtain ⟨kvs, hkvs, rfl⟩ := List.mem_map.1 hdriver
    rcases hcomments kvs hkvs with hc | ⟨s, hc⟩
    · exact ⟨_, by rw [renameComment, hc]⟩
    · by_cases hs : oldName <:+: s
      · exact ⟨_, by rw [renameComment, hc]; exact if_pos hs⟩
      · exact ⟨_, by rw [renameComment, hc]; exact if_neg hs⟩
  -- the parents of what is assigned are dictionaries, and none of them is assigned
  have hplaces : ∀ p ∈ touched, p.dropLast ∈ [[], ["DeviceProperties", "Add"], ["Kernel"],
      ["Kernel", "Scheme"], ["NVRAM", "Add", appleNvram], ["PlatformInfo", "Generic"], ["UEFI"]] ∧
      p ≠ [] ∧ ∀ s ∈ [[], ["DeviceProperties", "Add"], ["Kernel"], ["Kernel", "Scheme"],
        ["NVRAM", "Add", appleNvram], ["PlatformInfo", "Generic"], ["UEFI"]], ¬ p <+: s := by
    decide
  obtain ⟨config', hw⟩ : ∃ config', config.writes (assignments _ words (.array drivers')) =
      some config' :=
    Plist.exists_writes h.dicts fun w hw => hplaces w.1 (List.mem_map_of_mem hw)
  exact ⟨config', patch_eq_some.2 ⟨_, _, _, words, _, _, hpatches, rfl, hothers, hwords, hdrivers,
    by rw [renameComments, hdrivers']; rfl, hw⟩⟩

/-- What is assigned is read back. -/
theorem get_patched {words : List Text} {drivers : Plist}
    (h : config.writes (assignments others words drivers) = some config') :
    ∀ w ∈ assignments others words drivers, config'.get w.1 = some w.2 :=
  Plist.get_of_mem_writes h nodup_touched eq_or_apart_touched

/-- The program accepts what it has made. -/
theorem validate_patched (h : patch config = some config') : validate config' = true := by
  obtain ⟨-, entries, others, words, -, drivers', -, -, ho, hw, -, -, hwrites⟩ := patch_eq_some.1 h
  have hnotCursor : ∀ entry ∈ others, isCursorPatch entry = some false := by
    obtain ⟨-, rfl⟩ := otherPatches_eq_some.1 ho
    exact fun entry hentry => of_decide_eq_true (List.mem_filter.1 hentry).2
  have hwords := isWord_archLast (isWord_of_bootWords hw)
  have hget := get_patched hwrites
  simp only [assignments, List.forall_mem_cons] at hget
  obtain ⟨hgpu, hpatches, harch, hcustom, -, hboot, -⟩ := hget
  have hprops : ∀ key, config'.get ["DeviceProperties", "Add", gpuPath, key] =
      gpuProperties.get [key] := by
    intro key
    have hsplit := config'.get_append ["DeviceProperties", "Add", gpuPath] [key]
    rw [hgpu, Option.bind_some] at hsplit
    exact hsplit
  rw [validate, hprops, hprops, harch, hcustom, hpatches, hboot]
  simp only [Option.bind_some, iterate, validatePatch_append hnotCursor,
    splitWords_unwords hwords, count_archLast]
  decide +kernel

/-- **Idempotent, self-validating and local.** -/
theorem patch_normalises (config : Plist) :
    (HasSections config → ∃ config', patch config = some config') ∧
    ∀ config', patch config = some config' →
      patch config' = some config' ∧ validate config' = true ∧
      (∃ patches entries, config.get ["Kernel", "Patch"] = some patches ∧
        iterate patches = some entries ∧ config'.get ["Kernel", "Patch"] =
          some (.array (entries.filter (fun e => isCursorPatch e = some false) ++ [cursorPatch]))) ∧
      (∃ words s, bootWords (config.get bootArgsPath) = some words ∧
        config'.get bootArgsPath = some (.str s) ∧
        splitWords s = words.filter (· ≠ archWord) ++ [archWord]) ∧
      (∃ drivers drivers', config.get ["UEFI", "Drivers"] = some drivers ∧
        config'.get ["UEFI", "Drivers"] = some drivers' ∧
        ((∃ xs xs', drivers = .array xs ∧ drivers' = .array xs' ∧
          List.Forall₂ SameButComment xs xs') ∨ drivers' = drivers)) ∧
      (∀ q, (∀ p ∈ touched, Plist.apart p q = true) → config'.get q = config.get q) ∧
      ∀ q, (∀ p ∈ touched, ¬ p <+: q) → (∃ p ∈ touched, q <+: p) →
        config.HasDict q ∧ config'.HasDict q := by
  refine ⟨exists_patch, fun config' h => ?_⟩
  obtain ⟨patches, entries, others, words, drivers, drivers', hp, he, ho, hw, hd, hd', hwrites⟩ :=
    patch_eq_some.1 h
  have hget := get_patched hwrites
  have hwords := isWord_archLast (isWord_of_bootWords hw)
  simp only [assignments, List.forall_mem_cons] at hget
  obtain ⟨-, hpatches, -, -, -, hboot, -, -, -, -, -, hdrivers, -⟩ := hget
  refine ⟨?_, ?_, ⟨patches, entries, hp, he, ?_⟩, ⟨words, _, hw, hboot, ?_⟩,
    ⟨drivers, drivers', hd, hdrivers, ?_⟩, fun q hq => ?_, fun q hnot hq => ?_⟩
  · -- the second run reads what the first one has assigned
    refine patch_eq_some.2 ⟨_, others ++ [cursorPatch], others, archLast words, drivers', drivers',
      hpatches, rfl, otherPatches_again ho, ?_, hdrivers, renameComments_again hd',
      Plist.writes_eq_self fun w hmem => ?_⟩
    · rw [hboot, bootWords, splitWords_unwords hwords]
    · have hsame : assignments others (archLast words) drivers' =
          assignments others words drivers' := by
        rw [assignments, archLast_archLast, assignments]
      rw [hsame] at hmem
      exact ⟨fun hnil => by
        have hmem' : w.1 ∈ touched := List.mem_map_of_mem hmem
        rw [hnil] at hmem'
        exact absurd hmem' (by decide),
        get_patched hwrites w hmem⟩
  · exact validate_patched h
  · rw [hpatches, (otherPatches_eq_some.1 ho).2]
  · rw [splitWords_unwords hwords, archLast]
  · -- a list of drivers, or anything else that `for` can go through
    unfold renameComments at hd'
    split at hd'
    · rename_i xs
      obtain ⟨xs', hxs, rfl⟩ := Option.map_eq_some_iff.1 hd'
      exact Or.inl ⟨xs, xs', rfl, rfl, forall₂_of_mapM (fun _ _ => sameButComment_of_rename) hxs⟩
    · obtain ⟨xs, hxs, hd'⟩ := Option.bind_eq_some_iff.1 hd'
      obtain ⟨ys, hys, hd'⟩ := Option.bind_eq_some_iff.1 hd'
      exact Or.inr (Option.some.inj hd').symm
  · exact Plist.get_writes_apart hwrites fun w hmem => hq w.1 (List.mem_map_of_mem hmem)
  · -- a place above an assigned one stays a dictionary
    refine Plist.hasDict_of_writes hwrites (fun w hmem => hnot w.1 (List.mem_map_of_mem hmem)) ?_
    obtain ⟨p, hmem, hpre⟩ := hq
    obtain ⟨w, hw, rfl⟩ := List.mem_map.1 ((map_fst_assignments others words drivers').symm ▸ hmem)
    exact ⟨w, hw, hpre⟩

/-- A configuration with a stale cursor patch, and the boot argument in front of another one. -/
def staleConfig : Plist :=
  .dict [("DeviceProperties", .dict [("Add", .dict [])]),
    ("Kernel", .dict [("Patch", .array [.dict [("Comment", .str cursorComment)],
        .dict [("Comment", .str (txt "Another patch"))]]), ("Scheme", .dict [])]),
    ("NVRAM", .dict [("Add", .dict [(appleNvram,
      .dict [("boot-args", .str (txt "arch=i386 -v"))])])]),
    ("PlatformInfo", .dict [("Generic", .dict [])]),
    ("UEFI", .dict [("Drivers", .array [.dict [("Comment",
      .str (txt "Aspire 4310 minimal legacy boot driver"))]])])]

theorem hasSections_staleConfig : HasSections staleConfig where
  dicts := by
    simp only [List.forall_mem_cons]
    and_intros
    all_goals first
      | exact ⟨_, rfl⟩
      | exact List.forall_mem_nil _
  patches := ⟨[[("Comment", .str cursorComment)], [("Comment", .str (txt "Another patch"))]], rfl⟩
  bootArgs := Or.inr ⟨_, rfl⟩
  drivers := ⟨[[("Comment", .str (txt "Aspire 4310 minimal legacy boot driver"))]], rfl, by simp⟩

/-- It is patched and accepted, and stays the same a second time. -/
theorem patch_normalises_stale :
    ∃ config', patch staleConfig = some config' ∧ patch config' = some config' ∧
      validate config' = true := by
  obtain ⟨hexists, hall⟩ := patch_normalises staleConfig
  obtain ⟨config', h⟩ := hexists hasSections_staleConfig
  obtain ⟨hagain, hvalid, -⟩ := hall config' h
  exact ⟨config', h, hagain, hvalid⟩

end Asus

end Config

end InstallKit
