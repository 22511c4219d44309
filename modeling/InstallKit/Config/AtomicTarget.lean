import InstallKit.Config.Atomicity
import InstallKit.Config.CorePatch

/-!
# The output of the generator for the other computers

`generate_target_oc_config.py` opens its output like the other generator.  It copies more arguments
into the configuration, and the patches of another property list (`runTarget_atomic_iff`).
-/

namespace InstallKit

namespace Config

namespace Target

open Sources Plist

/-! ### The program -/

/-- The arguments as Python has them. -/
structure RawArgs where
  os : Os
  targetName : PyText
  smbios : PyText
  romAscii : PyText
  serial : PyText
  mlb : PyText
  uuidSeed : PyText
  kernelArch : KernelArch
  kernelCache : KernelCache
  bootPreset : BootPreset
  runtimeProfile : RuntimeProfile
  customKernel : Bool
  legacyCommpage : Bool
  provideCurrentCpuInfo : Bool
  releaseUsbOwnership : Bool
  setupVirtualMap : Bool
  forceExitBootServices : Bool
  drivers : List PyText
  kexts : List PyText
  blacklistGpuPciPath : List PyText
  kernelPatchesPlist : Option PyText
  amdCoreCount : Option ℤ
  acpi : List PyText
  extraBootArgs : List PyText
  dropApicOemTableId : Option PyText
  dropApicTableLength : Option ℤ
  ocVersion : PyText

/-- The arguments with texts.  A surrogate has a character that is not ASCII, so that it stops
`encode("ascii", "strict")`. -/
def RawArgs.args (a : RawArgs) : Args :=
  { a with
    targetName := a.targetName.escaped, smbios := a.smbios.escaped,
    romAscii := a.romAscii.escaped, serial := a.serial.escaped, mlb := a.mlb.escaped,
    uuidSeed := a.uuidSeed.escaped, drivers := a.drivers.map PyText.escaped,
    kexts := a.kexts.map PyText.escaped,
    blacklistGpuPciPath := a.blacklistGpuPciPath.map PyText.escaped,
    kernelPatchesPlist := a.kernelPatchesPlist.map PyText.escaped,
    acpi := a.acpi.map PyText.escaped, extraBootArgs := a.extraBootArgs.map PyText.escaped,
    dropApicOemTableId := a.dropApicOemTableId.map PyText.escaped,
    ocVersion := a.ocVersion.escaped }

/-- `main`.  The sample is none where `plistlib.load` raises; `uuid5` encodes its seed. -/
def run (repr : UInt64 → Text) (stack : Stack) (h : Host) (a : RawArgs) (opens : Bool)
    (sample : Option Plist) (before : Option Bytes) : Outcome :=
  match (PyText.text? a.uuidSeed).bind fun _ => sample.bind (generate h a.args) with
  | none => fails before
  | some config => overwrite repr stack opens config before

/-- Nothing stops the generator before the output is open. -/
structure Reaches (h : Host) (a : Args) (opens : Bool) (sample : Plist) : Prop where
  opens : opens = true
  sections : HasSections sample
  apic : dropApic a ≠ none
  cards : ∀ path ∈ a.blacklistGpuPciPath, (txt "PciRoot(").isPrefixOf path = true
  kexts : ∀ path ∈ a.kexts, infoOf h.load h.tree h.ocRoot path ≠ none
  patches : kernelPatches h.pyStr h.readPlist a ≠ none
  rom : romBytes a.romAscii ≠ none

/-- What the generator copies can be written.  The patches come to stand on the third level. -/
structure CopiesFree (stack : Stack) (h : Host) (a : Args) (sample : Plist) : Prop where
  sample : sample.writableBut stack 0 (writtenPaths a) = true
  texts : ∀ t ∈ [a.targetName, a.mlb, a.smbios, a.serial, a.ocVersion], controlFree t = true
  acpi : ∀ path ∈ a.acpi, controlFree path = true
  /-- The length of the table is an integer of 64 bits. -/
  apic : ∀ oem length, dropApic a = some (some (oem, length)) → -2 ^ 63 ≤ length ∧ length < 2 ^ 64
  cards : ∀ path ∈ a.blacklistGpuPciPath, controlFree path = true
  kexts : KextsFree h.load h.tree h.ocRoot a.kexts
  patches : ∀ path ∈ a.kernelPatchesPlist, ∀ source ∈ h.readPlist path, ∀ items,
    source.get ["Kernel", "Patch"] = some (.array items) →
      ∀ item ∈ items, item.writable stack 3 = true
  bootArgs : ∀ arg ∈ a.extraBootArgs, controlFree (strip isPySpace arg) = true
  drivers : ∀ driver ∈ a.drivers, controlFree driver = true

/-- What the generator copies can be written, of the arguments as Python has them. -/
structure RawArgs.CopiesFree (stack : Stack) (h : Host) (a : RawArgs) (sample : Plist) : Prop where
  sample : sample.writableBut stack 0 (writtenPaths a.args) = true
  texts : ∀ t ∈ [a.targetName, a.mlb, a.smbios, a.serial, a.ocVersion], textFree t = true
  acpi : ∀ path ∈ a.acpi, textFree path = true
  /-- The length of the table is an integer of 64 bits. -/
  apic : ∀ oem length, dropApic a.args = some (some (oem, length)) →
    -2 ^ 63 ≤ length ∧ length < 2 ^ 64
  cards : ∀ path ∈ a.blacklistGpuPciPath, textFree path = true
  kexts : KextsFree h.load h.tree h.ocRoot (a.kexts.map PyText.escaped)
  patches : ∀ path ∈ a.kernelPatchesPlist, ∀ source ∈ h.readPlist path.escaped, ∀ items,
    source.get ["Kernel", "Patch"] = some (.array items) →
      ∀ item ∈ items, item.writable stack 3 = true
  bootArgs : ∀ arg ∈ a.extraBootArgs, controlFree (strip isPySpace arg.escaped) = true
  drivers : ∀ driver ∈ a.drivers, textFree driver = true

variable {repr : UInt64 → Text} {stack : Stack} {h : Host} {a : Args} {opens : Bool}
  {sample config : Plist} {rom : Bytes} {apic : Option (Bytes × ℤ)} {patches : Option (List Plist)}
  {kexts : List Plist}

theorem copiesFree_args {a : RawArgs} :
    CopiesFree stack h a.args sample ↔ a.CopiesFree stack h sample := by
  have htexts : (∀ t ∈ [a.args.targetName, a.args.mlb, a.args.smbios, a.args.serial,
      a.args.ocVersion], controlFree t = true) ↔
      ∀ t ∈ [a.targetName, a.mlb, a.smbios, a.serial, a.ocVersion], textFree t = true := by
    simp only [List.forall_mem_cons, RawArgs.args, controlFree_escaped, List.not_mem_nil,
      false_implies, implies_true]
  have hpatches : (∀ path ∈ a.args.kernelPatchesPlist, ∀ source ∈ h.readPlist path, ∀ items,
      source.get ["Kernel", "Patch"] = some (.array items) →
        ∀ item ∈ items, item.writable stack 3 = true) ↔
      ∀ path ∈ a.kernelPatchesPlist, ∀ source ∈ h.readPlist path.escaped, ∀ items,
        source.get ["Kernel", "Patch"] = some (.array items) →
          ∀ item ∈ items, item.writable stack 3 = true := by
    rw [RawArgs.args]
    cases a.kernelPatchesPlist <;> simp
  have hboot : (∀ arg ∈ a.args.extraBootArgs, controlFree (strip isPySpace arg) = true) ↔
      ∀ arg ∈ a.extraBootArgs, controlFree (strip isPySpace arg.escaped) = true :=
    List.forall_mem_map
  constructor
  · intro hc
    exact ⟨hc.sample, htexts.1 hc.texts, forall_mem_escaped.1 hc.acpi, hc.apic,
      forall_mem_escaped.1 hc.cards, hc.kexts, hpatches.1 hc.patches, hboot.1 hc.bootArgs,
      forall_mem_escaped.1 hc.drivers⟩
  · intro hc
    exact ⟨hc.sample, htexts.2 hc.texts, forall_mem_escaped.2 hc.acpi, hc.apic,
      forall_mem_escaped.2 hc.cards, hc.kexts, hpatches.2 hc.patches, hboot.2 hc.bootArgs,
      forall_mem_escaped.2 hc.drivers⟩

/-! ### The kernel patches -/

/-- The number of cores is written into bytes. -/
theorem writable_specialize {cores : UInt8} {level : ℕ} {patch patch' : List (Key × Plist)}
    (hs : specialize cores patch = some patch') :
    itemsWritable stack level patch' = itemsWritable stack level patch := by
  obtain ⟨template, hl, -, rfl⟩ := specialize_eq_some.1 hs
  exact itemsWritable_dictInsert hl rfl

theorem forall_mem_of_mapM {α : Type} {f : α → Option α} {g : α → Bool} {xs ys : List α}
    (hf : ∀ x y, f x = some y → g y = g x) (hm : xs.mapM f = some ys) :
    (∀ y ∈ ys, g y = true) ↔ ∀ x ∈ xs, g x = true := by
  induction xs generalizing ys with
  | nil =>
    obtain rfl : [] = ys := by simpa using hm
    rfl
  | cons x xs ih =>
    rw [List.mapM_cons] at hm
    obtain ⟨y, hy, hm⟩ := Option.bind_eq_some_iff.1 hm
    obtain ⟨ys', hys, hm⟩ := Option.bind_eq_some_iff.1 hm
    obtain rfl := Option.some.inj hm
    rw [List.forall_mem_cons, List.forall_mem_cons, ih hys, hf x y hy]

/-- The list of the configuration can be written just if that of the property list can. -/
theorem writable_loadKernelPatches {pyStr : Plist → Option Text} {source : Plist}
    {n : Option ℤ} {ps : List Plist} (hload : loadKernelPatches pyStr source n = some ps) :
    (∀ p ∈ ps, p.writable stack 3 = true) ↔
      ∀ items, source.get ["Kernel", "Patch"] = some (.array items) →
        ∀ item ∈ items, item.writable stack 3 = true := by
  obtain ⟨d, hget, hload⟩ := Option.bind_eq_some_iff.1 hload
  split at hload
  · next item items =>
    obtain ⟨dicts, hdicts, hload⟩ := Option.bind_eq_some_iff.1 hload
    have hitems : item :: items = dicts.map .dict := (mapM_normalize.1 hdicts).1
    have hsource : (∀ items', source.get ["Kernel", "Patch"] = some (.array items') →
        ∀ item ∈ items', item.writable stack 3 = true) ↔
        ∀ kvs ∈ dicts, (dict kvs).writable stack 3 = true := by
      rw [hget, hitems]
      constructor
      · exact fun h kvs hkvs => h _ rfl (.dict kvs) (List.mem_map_of_mem hkvs)
      · rintro h items' he
        obtain rfl := Plist.array.inj (Option.some.inj he)
        exact List.forall_mem_map.2 h
    rw [hsource]
    split at hload
    · rw [← Option.some.inj hload, List.forall_mem_map]
    · split at hload
      · -- a specialised patch has another byte, which is data as before
        obtain ⟨dicts', hd, rfl⟩ := Option.map_eq_some_iff.1 hload
        rw [List.forall_mem_map]
        refine forall_mem_of_mapM (fun patch patch' hp => ?_) hd
        split at hp
        · rw [writable, writable, writable_specialize hp]
        · rw [Option.some.inj hp]
      · cases hload
  · cases hload

theorem writable_kernelPatches (hpatches : kernelPatches h.pyStr h.readPlist a = some patches) :
    (∀ ps ∈ patches, ∀ patch ∈ ps, patch.writable stack 3 = true) ↔
      ∀ path ∈ a.kernelPatchesPlist, ∀ source ∈ h.readPlist path, ∀ items,
        source.get ["Kernel", "Patch"] = some (.array items) →
          ∀ item ∈ items, item.writable stack 3 = true := by
  unfold kernelPatches at hpatches
  split at hpatches
  · next hnone =>
    rw [hnone]
    split at hpatches
    · rw [← Option.some.inj hpatches]
      exact iff_of_true (fun _ h => by cases h) fun _ h => by cases h
    · cases hpatches
  · next path hpath =>
    obtain ⟨ps, hps, rfl⟩ := Option.map_eq_some_iff.1 hpatches
    obtain ⟨source, hsource, hload⟩ := Option.bind_eq_some_iff.1 hps
    have hiff : (∀ p ∈ ps, p.writable stack 3 = true) ↔ _ := writable_loadKernelPatches hload
    rw [hpath]
    simp only [Option.mem_def, Option.some.injEq, forall_eq', hsource]
    exact hiff

/-! ### The boot arguments -/

theorem controlFree_intercalate (ls : List Text) :
    controlFree ([' '].intercalate ls) = true ↔ ∀ l ∈ ls, controlFree l = true := by
  induction ls with
  | nil => simp [List.intercalate]
  | cons l ls ih =>
    cases ls with
    | nil => simp [List.intercalate]
    | cons l' ls =>
      have hcons : [' '].intercalate (l :: l' :: ls) = l ++ ' ' :: [' '].intercalate (l' :: ls) := by
        simp [List.intercalate]
      rw [hcons, controlFree_append, controlFree_cons, List.forall_mem_cons, ← ih]
      simp

theorem forall_mem_filter_ne_nil {ls : List Text} :
    (∀ l ∈ ls.filter (· ≠ []), controlFree l = true) ↔ ∀ l ∈ ls, controlFree l = true := by
  simp only [List.mem_filter, decide_eq_true_eq, and_imp]
  refine forall₂_congr fun l _ => ⟨fun h => ?_, fun h _ => h⟩
  by_cases hl : l = []
  · rw [hl, controlFree_nil]
  · exact h hl

theorem controlFree_bootArgsFor (a : Args) : controlFree (bootArgsFor a) = true ↔
    ∀ arg ∈ a.extraBootArgs, controlFree (strip isPySpace arg) = true := by
  have hpreset : controlFree (strip isPySpace (bootArgs a.bootPreset)) = true := by
    cases a.bootPreset <;> decide +kernel
  have harch : ∀ arg ∈ (if a.os = .snowleopard ∧ a.kernelArch = .i386 then [txt "arch=i386"] else []),
      controlFree (strip isPySpace arg) = true := by
    split
    · exact List.forall_mem_singleton.2 (by decide +kernel)
    · exact List.forall_mem_nil _
  rw [bootArgsFor, controlFree_intercalate, forall_mem_filter_ne_nil, List.forall_mem_map,
    List.forall_mem_append, List.forall_mem_cons]
  exact ⟨fun h => h.2, fun h => ⟨⟨hpreset, harch⟩, h⟩⟩

/-! ### The assignments -/

theorem writes_booterQuirks (a : Args) :
    ∀ w ∈ inSection ["Booter", "Quirks"] (booterQuirks a), Writes stack w := by
  refine writes_inSection (by decide +kernel) (by decide) ?_
  cases hp : a.runtimeProfile <;> simp [booterQuirks, hp]

theorem controlFree_kernelRange (os : Os) :
    controlFree (kernelRange os).1 = true ∧ controlFree (kernelRange os).2 = true := by
  cases os <;> decide +kernel

/-- The generator assigns only what can be written. -/
theorem writes_assignments {uuid : Text → Text} (huuid : controlFree (uuid a.uuidSeed) = true)
    (htexts : ∀ t ∈ [a.targetName, a.mlb, a.smbios, a.serial, a.ocVersion], controlFree t = true)
    (hacpi : ∀ path ∈ a.acpi, controlFree path = true)
    (hapic : ∀ oem length, apic = some (oem, length) → -2 ^ 63 ≤ length ∧ length < 2 ^ 64)
    (hcards : ∀ path ∈ a.blacklistGpuPciPath, controlFree path = true)
    (hkexts : ∀ kext ∈ kexts, kext.writable stack 3 = true)
    (hpatches : ∀ ps ∈ patches, ∀ patch ∈ ps, patch.writable stack 3 = true)
    (hboot : ∀ arg ∈ a.extraBootArgs, controlFree (strip isPySpace arg) = true)
    (hdrivers : ∀ driver ∈ a.drivers, controlFree driver = true) :
    ∀ w ∈ assignments uuid a rom apic patches kexts, Writes stack w := by
  have hos := controlFree_kernelRange a.os
  have hname : controlFree a.os.text = true := by cases a.os <;> decide +kernel
  have hcache : controlFree a.kernelCache.text = true := by cases a.kernelCache <;> decide +kernel
  have hargs := (controlFree_bootArgsFor a).2 hboot
  simp only [List.forall_mem_cons] at htexts
  obtain ⟨htarget, hmlb, hsmbios, hserial, hversion, -⟩ := htexts
  have hadd : (Plist.array (a.acpi.map (acpiEntry a.targetName))).writable stack 2 = true := by
    refine writable_array (by decide) (List.forall_mem_map.2 fun path hpath => ?_)
    simp [acpiEntry, htarget, hacpi path hpath]
  have hdelete : ∀ oem length, apic = some (oem, length) →
      (Plist.array [apicEntry a.targetName oem length]).writable stack 2 = true := by
    intro oem length happic
    simpa [apicEntry, htarget] using hapic oem length happic
  have hhidden : gpuBlacklistProperties.writable stack 3 = true := by
    simp [gpuBlacklistProperties]
  have hdevices : ∀ w ∈ inSection ["DeviceProperties", "Add"] (a.blacklistGpuPciPath.map fun path =>
      (String.ofList path, gpuBlacklistProperties)), Writes stack w := by
    refine writes_inSection (by decide +kernel) (by decide)
      (List.forall_mem_map.2 fun path hpath => ⟨?_, hhidden⟩)
    rw [String.toList_ofList]
    exact hcards path hpath
  have hpaths : (Plist.array (a.drivers.map (driverEntry a.targetName))).writable stack 2 = true := by
    refine writable_array (by decide) (List.forall_mem_map.2 fun driver hdriver => ?_)
    simp [driverEntry, htarget, hdrivers driver hdriver]
  -- in the order of the assignments
  unfold assignments
  repeat' apply forall_mem_append_of
  · exact writes_clearSamples
  · exact writes_booterQuirks a
  · exact writes_single (by decide +kernel) hadd
  · split
    · exact writes_single (by decide +kernel) (hdelete _ _ rfl)
    · exact List.forall_mem_nil _
  · exact hdevices
  · exact writes_single (by decide +kernel) (writable_array (by decide) hkexts)
  · split
    · exact writes_single (by decide +kernel) (writable_array (by decide) (hpatches _ rfl))
    · exact List.forall_mem_nil _
  all_goals first
    | exact writes_single (by decide +kernel) hpaths
    | exact writes_single (by decide +kernel) (by simp [htarget, hversion, hname, controlFree_text])
    | exact writes_inSection (by decide +kernel) (by decide)
        (by simp [appleNvram, hos, hcache, hargs, hmlb, hsmbios, hserial, huuid, controlFree_text])

/-- The arguments among what is written last. -/
theorem written_arguments (uuid : Text → Text) (a : Args) (rom : Bytes) (apic : Option (Bytes × ℤ))
    (patches : Option (List Plist)) (kexts : List Plist) :
    written (assignments uuid a rom apic patches kexts) ["ACPI", "Add"] =
      some (.array (a.acpi.map (acpiEntry a.targetName))) ∧
    written (assignments uuid a rom apic patches kexts) ["PlatformInfo", "Generic", "MLB"] =
      some (.str a.mlb) ∧
    written (assignments uuid a rom apic patches kexts)
      ["PlatformInfo", "Generic", "SystemProductName"] = some (.str a.smbios) ∧
    written (assignments uuid a rom apic patches kexts)
      ["PlatformInfo", "Generic", "SystemSerialNumber"] = some (.str a.serial) ∧
    written (assignments uuid a rom apic patches kexts) ["UEFI", "Drivers"] =
      some (.array (a.drivers.map (driverEntry a.targetName))) ∧
    written (assignments uuid a rom apic patches kexts) ["#Revision"] =
      some (.str (a.targetName ++ txt " profile generated from OpenCore " ++ a.ocVersion ++
        txt " Sample.plist; " ++ a.os.text ++ '/' :: a.kernelArch.text)) := by
  unfold assignments
  cases apic <;> cases patches <;>
    simp [written_append, written_cons, written_inSection, clearSamples]

/-- The boot arguments among them. -/
theorem written_bootArgs (uuid : Text → Text) (a : Args) (rom : Bytes) (apic : Option (Bytes × ℤ))
    (patches : Option (List Plist)) (kexts : List Plist) :
    ∃ d, written (assignments uuid a rom apic patches kexts) ["NVRAM", "Add"] = some d ∧
      d.get [appleNvram, "boot-args"] = some (.str (bootArgsFor a)) := by
  unfold assignments
  refine ⟨_, by cases apic <;> cases patches <;>
    simp [written_append, written_cons, written_inSection] <;> rfl, rfl⟩

theorem written_apic (uuid : Text → Text) (a : Args) (rom oem : Bytes) (length : ℤ)
    (patches : Option (List Plist)) (kexts : List Plist) :
    written (assignments uuid a rom (some (oem, length)) patches kexts) ["ACPI", "Delete"] =
      some (.array [apicEntry a.targetName oem length]) := by
  unfold assignments
  cases patches <;> simp [written_append, written_cons, written_inSection, clearSamples]

theorem written_patches (uuid : Text → Text) (a : Args) (rom : Bytes) (apic : Option (Bytes × ℤ))
    (patches kexts : List Plist) :
    written (assignments uuid a rom apic (some patches) kexts) ["Kernel", "Patch"] =
      some (.array patches) := by
  unfold assignments
  cases apic <;> simp [written_append, written_cons, written_inSection, clearSamples]

theorem written_uuid {uuid : Text → Text} :
    written (assignments uuid a rom apic patches kexts) ["PlatformInfo", "Generic", "SystemUUID"] =
      some (.str (uuid a.uuidSeed)) := by
  unfold assignments
  cases apic <;> cases patches <;> simp [written_append, written_cons, written_inSection, clearSamples]

/-! ### The configuration -/

/-- The arguments without their texts, and without graphics cards. -/
def Args.blank (a : Args) : Args :=
  { a with
    targetName := [], smbios := [], serial := [], mlb := [], uuidSeed := [], drivers := [],
    blacklistGpuPciPath := [], acpi := [], extraBootArgs := [], ocVersion := [] }

/-- The keys do not depend on the values, but for the graphics cards. -/
theorem mem_blank_or_card {uuid : Text → Text} : ∀ w ∈ assignments uuid a rom apic patches kexts,
    w.1 ∈ (assignments id a.blank [] (apic.map fun _ => ([], 0)) (patches.map fun _ => []) []).map
      Prod.fst ∨ ∃ path, w.1 = ["DeviceProperties", "Add"] ++ [path] := by
  intro w hw
  have hmem : w.1 ∈ (assignments uuid a rom apic patches kexts).map Prod.fst :=
    List.mem_map_of_mem hw
  by_cases hcard : ∃ path, w.1 = ["DeviceProperties", "Add"] ++ [path]
  · exact Or.inr hcard
  · have hno : w.1 ∉ (inSection ["DeviceProperties", "Add"] (a.blacklistGpuPciPath.map fun path =>
        (String.ofList path, gpuBlacklistProperties))).map Prod.fst := by
      intro hcards
      obtain ⟨w', hw', he⟩ := List.mem_map.1 hcards
      obtain ⟨kv, -, rfl⟩ := List.mem_map.1 hw'
      exact hcard ⟨kv.1, he.symm⟩
    have hquirks : booterQuirks a.blank = booterQuirks a := rfl
    left
    unfold assignments at hmem ⊢
    simp only [List.map_append, List.mem_append, hno, or_false] at hmem ⊢
    simp only [map_fst_inSection, List.map_cons, List.map_nil] at hmem ⊢
    rw [hquirks]
    cases apic <;> cases patches <;>
      simpa only [Option.map_none, Option.map_some, Args.blank, List.map_nil, List.map_cons,
        List.not_mem_nil, or_false] using hmem

/-- Every assignment is at a leaf that is assigned, or below the list of the graphics cards. -/
theorem exists_prefix_writtenPaths (hapic : dropApic a = some apic)
    (hpatches : patches.isSome = a.kernelPatchesPlist.isSome) {uuid : Text → Text} :
    ∀ w ∈ assignments uuid a rom apic patches kexts, ∃ q ∈ writtenPaths a, q <+: w.1 ∧
      Assignable q := by
  intro w hw
  -- the paths do not depend on the arguments, apart from the graphics cards
  rcases mem_blank_or_card w hw with hmem | ⟨path, hpath⟩
  · obtain ⟨w', hw', he⟩ := List.mem_map.1 hmem
    have hassign : Assignable w.1 := by
      rw [← he]
      have hwrites : ∀ w ∈ assignments id a.blank [] (apic.map fun _ => ([], 0))
          (patches.map fun _ => []) [], Writes .usual w := by
        refine writes_assignments rfl ?_ (List.forall_mem_nil _) ?_ (List.forall_mem_nil _)
          (List.forall_mem_nil _) ?_ (List.forall_mem_nil _) (List.forall_mem_nil _)
        · simp [Args.blank]
        · rintro oem length h
          obtain ⟨_, -, h⟩ := Option.map_eq_some_iff.1 h
          cases h
          decide
        · rintro ps h
          obtain ⟨_, -, rfl⟩ := Option.map_eq_some_iff.1 h
          exact List.forall_mem_nil _
      exact (hwrites w' hw').1
    refine ⟨w.1, ?_, List.prefix_rfl, hassign⟩
    rw [← map_fst_assignments hapic hpatches]
    exact List.mem_map_of_mem hw
  · refine ⟨["DeviceProperties", "Add"], foreignPaths_subset a _ (by decide), ?_, by decide +kernel⟩
    rw [hpath]
    exact List.prefix_append _ _

/-- **The configuration can be written** just if everything that is copied can. -/
theorem writable_generated (huuid : controlFree (h.uuid a.uuidSeed) = true)
    (hapic : dropApic a = some apic)
    (hkexts : a.kexts.mapM (readKext h.load h.tree h.ocRoot (kernelRange a.os).1 (kernelRange a.os).2
      (kextArchFor a.kernelArch)) = some kexts)
    (hpatches : kernelPatches h.pyStr h.readPlist a = some patches)
    (hw : sample.writes (assignments h.uuid a rom apic patches kexts) = some config) :
    config.writable stack 0 = true ↔ CopiesFree stack h a sample := by
  obtain ⟨hmin, hmax⟩ := controlFree_kernelRange a.os
  have hasked := isSome_kernelPatches hpatches
  have hkextsFree : (∀ kext ∈ kexts, kext.writable stack 3 = true) ↔
      KextsFree h.load h.tree h.ocRoot a.kexts :=
    writable_readKextsWith hkexts hmin hmax (controlFree_text _)
  have hpatchesFree : (∀ ps ∈ patches, ∀ patch ∈ ps, patch.writable stack 3 = true) ↔
      ∀ path ∈ a.kernelPatchesPlist, ∀ source ∈ h.readPlist path, ∀ items,
        source.get ["Kernel", "Patch"] = some (.array items) →
          ∀ item ∈ items, item.writable stack 3 = true :=
    writable_kernelPatches hpatches
  constructor
  · intro hwritable
    -- what is read back from the configuration
    have hvalue : ∀ {p : List String} {v : Plist}, IsLeaf p → p ≠ ["DeviceProperties", "Add"] →
        written (assignments h.uuid a rom apic patches kexts) p = some v →
        v.writable stack p.length = true := by
      intro p v hp hne hv
      rw [← Nat.zero_add p.length]
      exact (writable_get hwritable (get_generated hw hp hne hv)).2
    obtain ⟨hacpi, hmlb, hsmbios, hserial, hdrivers, hrev⟩ :=
      written_arguments h.uuid a rom apic patches kexts
    have hrev' := hvalue (by decide) (by decide) hrev
    simp at hrev'
    obtain ⟨htarget, hversion, -⟩ := hrev'
    refine ⟨writableBut_of_writes hw (exists_prefix_writtenPaths hapic hasked) hwritable, ?_, ?_, ?_,
      ?_, hkextsFree.1 (forall_mem_of_writable_array (hvalue (by decide) (by decide) written_kexts)),
      ?_, ?_, ?_⟩
    · simp only [List.forall_mem_cons]
      exact ⟨htarget, by simpa using hvalue (by decide) (by decide) hmlb,
        by simpa using hvalue (by decide) (by decide) hsmbios,
        by simpa using hvalue (by decide) (by decide) hserial, hversion, List.forall_mem_nil _⟩
    · refine forall_of_writable_map (hvalue (by decide) (by decide) hacpi) fun path hentry => ?_
      simp [acpiEntry] at hentry
      exact hentry.2
    · rintro oem length he
      obtain rfl := Option.some.inj (he.symm.trans hapic)
      have hentry := hvalue (by decide) (by decide) (written_apic h.uuid a rom oem length patches kexts)
      simp [apicEntry] at hentry
      exact hentry.2
    · intro path hpath
      have hkeys := (writable_get hwritable (get_device hw hpath)).1
      simpa [KeysFree] using hkeys
    · refine hpatchesFree.1 fun ps hps => ?_
      obtain rfl : patches = some ps := hps
      exact forall_mem_of_writable_array (hvalue (by decide) (by decide)
        (written_patches h.uuid a rom apic ps kexts))
    · obtain ⟨d, hd, hargs⟩ := written_bootArgs h.uuid a rom apic patches kexts
      have hd' := hvalue (by decide) (by decide) hd
      exact (controlFree_bootArgsFor a).1 (by simpa using (writable_get hd' hargs).2)
    · refine forall_of_writable_map (hvalue (by decide) (by decide) hdrivers) fun driver hentry => ?_
      simp [driverEntry] at hentry
      exact hentry.2
  · intro hc
    refine writable_of_writes hw ?_ (writes_assignments huuid hc.texts hc.acpi
      (fun oem length he => hc.apic oem length (he ▸ hapic)) hc.cards (hkextsFree.2 hc.kexts)
      (hpatchesFree.2 hc.patches) hc.bootArgs hc.drivers)
    rw [map_fst_assignments hapic hasked]
    exact hc.sample

/-- The identifier that is computed is among what is written. -/
theorem controlFree_uuid_of_writable
    (hw : sample.writes (assignments h.uuid a rom apic patches kexts) = some config)
    (hwritable : config.writable stack 0 = true) : controlFree (h.uuid a.uuidSeed) = true := by
  simpa using (writable_get hwritable (get_generated hw (by decide) (by decide) written_uuid)).2

/-- What a run that gets so far assigns. -/
theorem generate_eq_some_iff : generate h a sample = some config ↔ ∃ apic kexts patches rom,
    dropApic a = some apic ∧
    (∀ path ∈ a.blacklistGpuPciPath, (txt "PciRoot(").isPrefixOf path = true) ∧
    a.kexts.mapM (readKext h.load h.tree h.ocRoot (kernelRange a.os).1 (kernelRange a.os).2
      (kextArchFor a.kernelArch)) = some kexts ∧
    kernelPatches h.pyStr h.readPlist a = some patches ∧ romBytes a.romAscii = some rom ∧
    sample.writes (assignments h.uuid a rom apic patches kexts) = some config := by
  have hcards : a.blacklistGpuPciPath.any (fun path => !(txt "PciRoot(").isPrefixOf path) = true ↔
      ¬ ∀ path ∈ a.blacklistGpuPciPath, (txt "PciRoot(").isPrefixOf path = true := by
    simp only [List.any_eq_true, Bool.not_eq_true', not_forall, Bool.not_eq_true, exists_prop]
  constructor
  · intro hg
    obtain ⟨apic, kexts, patches, rom, hapic, hkexts, hpatches, hrom, hw⟩ := generate_eq_some hg
    refine ⟨apic, kexts, patches, rom, hapic, ?_, hkexts, hpatches, hrom, hw⟩
    by_contra hno
    obtain ⟨_, -, hg⟩ := Option.bind_eq_some_iff.1 hg
    rw [if_pos (hcards.2 hno)] at hg
    cases hg
  · rintro ⟨apic, kexts, patches, rom, hapic, hall, hkexts, hpatches, hrom, hw⟩
    unfold generate
    simp only [hapic, Option.bind_eq_bind, Option.bind_some, hkexts, hpatches, hrom, hw]
    exact if_neg fun hany => hcards.1 hany hall

/-- **The second generator** is atomic just if a run that opens the output copies only what can be
written. -/
theorem run_atomic_iff {a : RawArgs} {sample : Option Plist}
    (huuid : controlFree (h.uuid a.args.uuidSeed) = true) :
    (∀ before, (run repr stack h a opens sample before).Atomic before) ↔
      ∀ s ∈ sample, PyText.text? a.uuidSeed ≠ none → Reaches h a.args opens s →
        a.CopiesFree stack h s := by
  simp only [← copiesFree_args]
  constructor
  · -- where it reaches the output, a run that is atomic over no file has written all of it
    rintro hall s rfl hseed hr
    obtain ⟨seed, hseed⟩ := Option.ne_none_iff_exists'.1 hseed
    obtain ⟨apic, hapic⟩ := Option.ne_none_iff_exists'.1 hr.apic
    obtain ⟨kexts, hkexts⟩ := exists_readKextsWith_iff.2 hr.kexts
    obtain ⟨patches, hpatches⟩ := Option.ne_none_iff_exists'.1 hr.patches
    obtain ⟨rom, hrom⟩ := Option.ne_none_iff_exists'.1 hr.rom
    obtain ⟨config, hw⟩ := exists_writes_iff.2 hr.sections
    have hg : generate h a.args s = some config :=
      generate_eq_some_iff.2 ⟨apic, kexts, patches, rom, hapic, hr.cards, hkexts, hpatches, hrom, hw⟩
    have hatomic := hall none
    rw [run, hseed, Option.bind_some, Option.bind_some, hg] at hatomic
    exact (writable_generated huuid hapic hkexts hpatches hw).1
      (writable_of_atomic_overwrite hatomic hr.opens)
  · intro hall before
    unfold run
    split
    · exact atomic_fails before
    · next config hconfig =>
      refine atomic_overwrite_of_writable before fun hopens => ?_
      obtain ⟨seed, hseed, hconfig⟩ := Option.bind_eq_some_iff.1 hconfig
      obtain ⟨s, hs, hg⟩ := Option.bind_eq_some_iff.1 hconfig
      obtain ⟨apic, kexts, patches, rom, hapic, hcards, hkexts, hpatches, hrom, hw⟩ :=
        generate_eq_some_iff.1 hg
      have hseed' : PyText.text? a.uuidSeed ≠ none := by
        rw [hseed]
        exact Option.some_ne_none seed
      refine (writable_generated huuid hapic hkexts hpatches hw).2 (hall s hs hseed' ⟨hopens,
        exists_writes_iff.1 ⟨config, hw⟩, ?_, hcards, exists_readKextsWith_iff.1 ⟨kexts, hkexts⟩,
        ?_, ?_⟩)
      · rw [hapic]
        exact Option.some_ne_none apic
      · rw [hpatches]
        exact Option.some_ne_none patches
      · rw [hrom]
        exact Option.some_ne_none rom

end Target

end Config

end InstallKit
