import InstallKit.Config.AtomicTarget

/-!
# The two gates of the A8 configuration

`prepare_asrock_a8_mavericks.sh --build` generates a configuration with fixed flags and passes it
through assertions of its own (`buildAccepts`).  `linux_make_recovery_usb.sh --make-usb` reads the
same file and asserts the drivers, the scheme and three quirks of the booter again (`usbAccepts`).
The build wants the quirks of the legacy runtime profile and the writer those of the modern one, so
that the writer refuses what the build accepts (`gates_agree_iff`).
-/

namespace InstallKit

namespace Config

open Sources

namespace A8

/-! ### The configuration of the build -/

/-- The arguments of the generator in `run_build`, with the values of `hardware.conf`. -/
def buildArgs (preset : BootPreset) (kexts : List Text) (patchesPlist : Text) : Target.Args where
  os := .mavericks
  targetName := txt "ASRock FM2A58M-VG3+ R2.0 desktop"
  smbios := txt "MacPro3,1"
  romAscii := txt "A8MVRK"
  serial := txt "W88A8760MAV1"
  mlb := txt "W88A8760MAV100001"
  uuidSeed := txt "asrock-fm2a58m-vg3-a8-7600-mavericks"
  kernelArch := .x86_64
  kernelCache := .cacheless
  bootPreset := preset
  runtimeProfile := .legacy
  customKernel := true
  legacyCommpage := false
  provideCurrentCpuInfo := true
  releaseUsbOwnership := false
  setupVirtualMap := true
  forceExitBootServices := true
  drivers := [txt "OpenHfsPlus.efi", txt "OpenPartitionDxe.efi", txt "OpenRuntime.efi"]
  kexts := kexts
  blacklistGpuPciPath := [txt "PciRoot(0x0)/Pci(0x1,0x0)"]
  kernelPatchesPlist := some patchesPlist
  amdCoreCount := some 4
  acpi := []
  extraBootArgs := []
  dropApicOemTableId := none
  dropApicTableLength := none
  ocVersion := txt "UNKNOWN"

/-! ### The gate of the build -/

/-- The value of an entry that is enabled, if it is. -/
def enabledValue (key : String) : Plist → Option (List Plist)
  | .dict kvs =>
    if truthy ((kvs.lookup (.str "Enabled")).getD (.bool false)) then
      match kvs.lookup (.str key) with
      | some v => if hashable v then some [v] else none
      | none => none
    else some []
  | _ => none

/-- `\x7bd[key] for d in c[..][..] if d.get("Enabled")\x7d` -/
def enabledValues (c : Plist) (path : List String) (key : String) : Option (List Plist) := do
  let entries ← iterate (← c.get path)
  let values ← entries.mapM (enabledValue key)
  return values.flatten

/-- `"cpuid_cores_per_package" in p.get("Comment","")` -/
def mentionsCores : Plist → Option Bool
  | .dict kvs =>
    match kvs.lookup (.str "Comment") with
    | none => some false
    | some (.str s) => some (Target.corePatch <:+: s)
    | some (.array xs) => some (mentions Target.corePatch xs)
    | some (.dict kvs) => some (kvs.any fun kv => kv.1 = .str "cpuid_cores_per_package")
    | some _ => none
  | _ => none

/-- The assertions about `patches`; what is no list of dictionaries ends in an exception, or is too
short. -/
def patchesPass (cores : UInt8) (patches : List Plist) : Bool :=
  10 ≤ patches.length &&
  match patches.mapM mentionsCores with
  | none => false
  | some flags =>
    match (patches.zip flags).filter Prod.snd with
    | [(core, _)] => isBytes [0xb8, cores, 0, 0, 0, 0x0f, 0x1f, 0] (core.get ["Replace"])
    | _ => false

/-- The assertions about the drivers. -/
def buildDrivers (c : Plist) : Bool :=
  match enabledValues c ["UEFI", "Drivers"] "Path" with
  | some drivers => mentions (txt "OpenHfsPlus.efi") drivers &&
      mentions (txt "OpenPartitionDxe.efi") drivers &&
      !mentions (txt "HfsPlusLegacy.efi") drivers && mentions (txt "OpenRuntime.efi") drivers
  | none => false

/-- The kexts that have to be enabled. -/
def requiredKexts : List Text :=
  [txt "fakesmc.kext", txt "NullCPUPowerManagement.kext", txt "VoodooTSCSync.kext",
    txt "RealtekRTL8111.kext"]

/-- The assertions about the kexts. -/
def buildKexts (c : Plist) : Bool :=
  match enabledValues c ["Kernel", "Add"] "BundlePath" with
  | some bundles => requiredKexts.all fun required => mentions required bundles
  | none => false

/-- The assertions about the graphics card. -/
def buildGpu (c : Plist) : Bool :=
  let igpu (key : String) : Option Plist :=
    c.get ["DeviceProperties", "Add", "PciRoot(0x0)/Pci(0x1,0x0)", key]
  isText (txt "unused") (igpu "name") && isText (txt "#display") (igpu "IOName") &&
    isBytes [0xff, 0xff, 0xff, 0xff] (igpu "class-code") &&
    isBytes [0xff, 0xff, 0, 0] (igpu "vendor-id") && isBytes [0xff, 0xff, 0, 0] (igpu "device-id")

/-- The assertions about the patches. -/
def buildPatches (cores : UInt8) (c : Plist) : Bool :=
  match c.get ["Kernel", "Patch"] with
  | some (.array patches) => patchesPass cores patches
  | _ => false

/-- The assertions about single values. -/
def buildValues (c : Plist) : Bool :=
  isBool true (c.get ["Booter", "Quirks", "FixupAppleEfiImages"]) &&
  isBool true (c.get ["Kernel", "Quirks", "ProvideCurrentCpuInfo"]) &&
  isBool true (c.get ["Kernel", "Emulate", "DummyPowerManagement"]) &&
  isBool true (c.get ["Kernel", "Scheme", "CustomKernel"]) &&
  isText (txt "x86_64") (c.get ["Kernel", "Scheme", "KernelArch"]) &&
  isText (txt "Cacheless") (c.get ["Kernel", "Scheme", "KernelCache"]) &&
  isBool true (c.get ["Booter", "Quirks", "EnableWriteUnprotector"]) &&
  isBool false (c.get ["Booter", "Quirks", "RebuildAppleMemoryMap"]) &&
  isBool false (c.get ["Booter", "Quirks", "SyncRuntimePermissions"]) &&
  isBool true (c.get ["Booter", "Quirks", "SetupVirtualMap"]) &&
  isBool true (c.get ["Booter", "Quirks", "ForceExitBootServices"]) &&
  isBool false (c.get ["UEFI", "Quirks", "ReleaseUsbOwnership"]) &&
  isText (txt "MacPro3,1") (c.get ["PlatformInfo", "Generic", "SystemProductName"])

/-- The assertions of `run_build`. -/
def buildAccepts (cores : UInt8) (c : Plist) : Bool :=
  buildValues c && buildDrivers c && buildGpu c && buildPatches cores c && buildKexts c

/-! ### The gate of the writer -/

/-- What an entry adds to `drivers`; `None` is left out, as it is no text. -/
def usbDriver : Plist → List Plist
  | .dict kvs =>
    if truthy ((kvs.lookup (.str "Enabled")).getD (.bool true)) then (kvs.lookup (.str "Path")).toList
    else []
  | d => [d]

/-- The config preflight of `linux_make_recovery_usb.sh`. -/
def usbAccepts (c : Plist) : Bool :=
  match (c.get ["UEFI", "Drivers"]).bind iterate with
  | none => false
  | some entries =>
    let drivers := entries.flatMap usbDriver
    mentions (txt "OpenHfsPlus.efi") drivers && mentions (txt "OpenPartitionDxe.efi") drivers &&
    !mentions (txt "HfsPlusLegacy.efi") drivers && mentions (txt "OpenRuntime.efi") drivers &&
    isBool true (c.get ["Kernel", "Scheme", "CustomKernel"]) &&
    isText (txt "x86_64") (c.get ["Kernel", "Scheme", "KernelArch"]) &&
    isText (txt "Cacheless") (c.get ["Kernel", "Scheme", "KernelCache"]) &&
    isBool false (c.get ["Booter", "Quirks", "EnableWriteUnprotector"]) &&
    isBool true (c.get ["Booter", "Quirks", "RebuildAppleMemoryMap"]) &&
    isBool true (c.get ["Booter", "Quirks", "SyncRuntimePermissions"])

variable {h : Target.Host} {preset : BootPreset} {kexts : List Text} {plist : Text}
  {patches : List Plist} {entries : List Plist} {sample config : Plist}

/-! ### What the gates see -/

/-- The bytes of `A8MVRK`. -/
def rom : Bytes := [0x41, 0x38, 0x4d, 0x56, 0x52, 0x4b]

/-- What a build that succeeds assigns. -/
theorem generate_eq_some :
    Target.generate h (buildArgs preset kexts plist) sample = some config ↔
      ∃ entries source patches, kexts.mapM (readKext h.load h.tree h.ocRoot (txt "13.0.0")
          (txt "13.99.99") .x86_64) = some entries ∧
        h.readPlist plist = some source ∧
        Target.loadKernelPatches h.pyStr source (some 4) = some patches ∧
        sample.writes (Target.assignments h.uuid (buildArgs preset kexts plist) rom none
          (some patches) entries) = some config := by
  -- this target drops no table, and its bytes and paths are fixed
  have hrom : Target.romBytes (txt "A8MVRK") = some rom := by decide +kernel
  have hpath : (txt "PciRoot(").isPrefixOf (txt "PciRoot(0x0)/Pci(0x1,0x0)") = true := by
    decide +kernel
  constructor
  · intro hg
    obtain ⟨apic, entries, patches, rom', hapic, hentries, hpatches, hrom', hw⟩ :=
      Target.generate_eq_some hg
    obtain rfl : none = apic := Option.some.inj hapic
    obtain rfl : rom = rom' := Option.some.inj (hrom.symm.trans hrom')
    obtain ⟨patches, hload, rfl⟩ := Option.map_eq_some_iff.1 hpatches
    obtain ⟨source, hsource, hload⟩ := Option.bind_eq_some_iff.1 hload
    exact ⟨entries, source, patches, hentries, hsource, hload, hw⟩
  · rintro ⟨entries, source, patches, hentries, hsource, hload, hw⟩
    have hpatches : Target.kernelPatches h.pyStr h.readPlist (buildArgs preset kexts plist) =
        some (some patches) := by
      rw [Target.kernelPatches]
      simp only [buildArgs, hsource, Option.bind_some, hload, Option.map_some]
    have hapic : Target.dropApic (buildArgs preset kexts plist) = some none := rfl
    have hcards : (buildArgs preset kexts plist).blacklistGpuPciPath.any
        (fun path => !(txt "PciRoot(").isPrefixOf path) = false := by
      rw [buildArgs, List.any_cons, hpath]
      rfl
    unfold Target.generate
    rw [hapic, hpatches]
    simp only [Option.bind_eq_bind, Option.bind_some, hcards, Bool.false_eq_true, if_false]
    refine Option.bind_eq_some_iff.2 ⟨entries, hentries, ?_⟩
    refine Option.bind_eq_some_iff.2 ⟨rom, hrom, ?_⟩
    exact hw

/-- What is assigned to the keys that the gates read. -/
theorem written_keys (uuid : Text → Text) (preset : BootPreset) (kexts : List Text) (plist : Text)
    (patches entries : List Plist) :
    let ws := Target.assignments uuid (buildArgs preset kexts plist) rom none (some patches) entries
    Plist.written ws ["Booter", "Quirks", "FixupAppleEfiImages"] = some (.bool true) ∧
    Plist.written ws ["Kernel", "Quirks", "ProvideCurrentCpuInfo"] = some (.bool true) ∧
    Plist.written ws ["Kernel", "Emulate", "DummyPowerManagement"] = some (.bool true) ∧
    Plist.written ws ["Kernel", "Scheme", "CustomKernel"] = some (.bool true) ∧
    Plist.written ws ["Kernel", "Scheme", "KernelArch"] = some (.str (txt "x86_64")) ∧
    Plist.written ws ["Kernel", "Scheme", "KernelCache"] = some (.str (txt "Cacheless")) ∧
    Plist.written ws ["Booter", "Quirks", "EnableWriteUnprotector"] = some (.bool true) ∧
    Plist.written ws ["Booter", "Quirks", "RebuildAppleMemoryMap"] = some (.bool false) ∧
    Plist.written ws ["Booter", "Quirks", "SyncRuntimePermissions"] = some (.bool false) ∧
    Plist.written ws ["Booter", "Quirks", "SetupVirtualMap"] = some (.bool true) ∧
    Plist.written ws ["Booter", "Quirks", "ForceExitBootServices"] = some (.bool true) ∧
    Plist.written ws ["UEFI", "Quirks", "ReleaseUsbOwnership"] = some (.bool false) ∧
    Plist.written ws ["PlatformInfo", "Generic", "SystemProductName"] =
      some (.str (txt "MacPro3,1")) ∧
    Plist.written ws ["UEFI", "Drivers"] = some (.array ([txt "OpenHfsPlus.efi",
      txt "OpenPartitionDxe.efi", txt "OpenRuntime.efi"].map
      (Target.driverEntry (txt "ASRock FM2A58M-VG3+ R2.0 desktop")))) ∧
    Plist.written ws ["Kernel", "Patch"] = some (.array patches) ∧
    Plist.written ws ["Kernel", "Add"] = some (.array entries) := by
  intro ws
  simp only [ws]
  unfold Target.assignments
  simp [Plist.written_append, Plist.written_cons, written_inSection, clearSamples,
    Target.booterQuirks, buildArgs, KernelArch.text, Target.KernelCache.text]

/-- The values that both gates read, and the lists. -/
structure Reads (patches entries : List Plist) (config : Plist) : Prop where
  values : buildValues config = true
  drivers : buildDrivers config = true
  gpu : buildGpu config = true
  patches : config.get ["Kernel", "Patch"] = some (.array patches)
  kexts : config.get ["Kernel", "Add"] = some (.array entries)
  unprotector : config.get ["Booter", "Quirks", "EnableWriteUnprotector"] = some (.bool true)

/-- **Reading a configuration of the build.** -/
theorem reads_of_writes {uuid : Text → Text} (hw : sample.writes (Target.assignments uuid
      (buildArgs preset kexts plist) rom none (some patches) entries) = some config) :
    Reads patches entries config := by
  obtain ⟨h₁, h₂, h₃, h₄, h₅, h₆, h₇, h₈, h₉, h₁₀, h₁₁, h₁₂, h₁₃, h₁₄, h₁₅, h₁₆⟩ :=
    written_keys uuid preset kexts plist patches entries
  have hget := fun {p v} (hp : IsLeaf p) hne => Target.get_generated (p := p) (v := v) hw hp hne
  refine ⟨?_, ?_, ?_, hget (by decide) (by decide) h₁₅, hget (by decide) (by decide) h₁₆,
    hget (by decide) (by decide) h₇⟩
  · simp only [buildValues, hget (by decide) (by decide) h₁, hget (by decide) (by decide) h₂,
      hget (by decide) (by decide) h₃, hget (by decide) (by decide) h₄,
      hget (by decide) (by decide) h₅, hget (by decide) (by decide) h₆,
      hget (by decide) (by decide) h₇, hget (by decide) (by decide) h₈,
      hget (by decide) (by decide) h₉, hget (by decide) (by decide) h₁₀,
      hget (by decide) (by decide) h₁₁, hget (by decide) (by decide) h₁₂,
      hget (by decide) (by decide) h₁₃, isBool, isText, decide_true, Bool.and_true]
  · have hdrivers := hget (by decide) (by decide) h₁₄
    simp only [buildDrivers, enabledValues, hdrivers]
    decide +kernel
  · -- the graphics card is a key below one that the sample may have
    have hmem : txt "PciRoot(0x0)/Pci(0x1,0x0)" ∈
        (buildArgs preset kexts plist).blacklistGpuPciPath := List.mem_cons_self
    have hcard := Target.get_device hw hmem
    have hname : String.ofList (txt "PciRoot(0x0)/Pci(0x1,0x0)") = "PciRoot(0x0)/Pci(0x1,0x0)" := by
      decide +kernel
    rw [hname] at hcard
    have hkey : ∀ key, config.get ["DeviceProperties", "Add", "PciRoot(0x0)/Pci(0x1,0x0)", key] =
        Target.gpuBlacklistProperties.get [key] := by
      intro key
      have hsplit := config.get_append ["DeviceProperties", "Add", "PciRoot(0x0)/Pci(0x1,0x0)"] [key]
      rw [hcard, Option.bind_some] at hsplit
      exact hsplit
    simp only [buildGpu, hkey]
    decide +kernel

/-- The bundles of the kexts are enabled. -/
theorem enabledValues_kexts {load : Bytes → Option Info} {t : Tree} {ocRoot : PurePath}
    {minimum maximum : Text} {arch : KernelArch}
    (hk : kexts.mapM (readKext load t ocRoot minimum maximum arch) = some entries) :
    entries.mapM (enabledValue "BundlePath") =
      some (kexts.map fun path => [.str (PurePath.parse path).toText]) := by
  induction kexts generalizing entries with
  | nil =>
    obtain rfl : [] = entries := by simpa using hk
    rfl
  | cons path kexts ih =>
    rw [List.mapM_cons] at hk
    obtain ⟨kext, hkext, hk⟩ := Option.bind_eq_some_iff.1 hk
    obtain ⟨rest, hrest, hk⟩ := Option.bind_eq_some_iff.1 hk
    obtain rfl : kext :: rest = entries := Option.some.inj hk
    obtain ⟨info, -, rfl⟩ := Option.map_eq_some_iff.1 hkext
    rw [List.mapM_cons, ih hrest]
    rfl

/-- The required kexts are among those of the build. -/
def HasRequired (kexts : List Text) : Prop :=
  ∀ required ∈ requiredKexts, ∃ path ∈ kexts, (PurePath.parse path).toText = required

/-- What the build accepts of what it has generated. -/
theorem buildAccepts_iff {load : Bytes → Option Info} {t : Tree} {ocRoot : PurePath}
    {minimum maximum : Text} {arch : KernelArch} (hr : Reads patches entries config)
    (hk : kexts.mapM (readKext load t ocRoot minimum maximum arch) = some entries) :
    buildAccepts 4 config = true ↔ patchesPass 4 patches = true ∧ HasRequired kexts := by
  have hkexts : buildKexts config = true ↔ HasRequired kexts := by
    have hvalues : enabledValues config ["Kernel", "Add"] "BundlePath" =
        some (kexts.map fun path => [.str (PurePath.parse path).toText]).flatten := by
      simp only [enabledValues, hr.kexts, Option.bind_eq_bind, Option.bind_some, iterate,
        enabledValues_kexts hk]
      rfl
    rw [buildKexts, hvalues]
    simp [HasRequired, mentions, isText]
  rw [buildAccepts, hr.values, hr.drivers, hr.gpu, buildPatches, hr.patches, Bool.true_and,
    Bool.true_and, Bool.true_and, Bool.and_eq_true, hkexts]

/-- The writer refuses it. -/
theorem not_usbAccepts (hr : Reads patches entries config) : usbAccepts config = false := by
  rw [usbAccepts]
  split
  · rfl
  · rw [hr.unprotector]
    simp [isBool]

/-! ### When the gates agree -/

/-- The inputs from which the build makes a configuration that it accepts. -/
structure Buildable (stack : Plist.Stack) (h : Target.Host) (preset : BootPreset) (kexts : List Text)
    (plist : Text) (sample : Plist) : Prop where
  /-- The sample has all the sections. -/
  sections : HasSections sample
  /-- The kexts can be read. -/
  readable : ∀ path ∈ kexts, loadInfo h.load h.tree (((bundleOf h.ocRoot path).join
    (component "Contents")).join (component "Info.plist")) ≠ none
  /-- The patches are at least ten, with one for the number of cores, of a debug kernel. -/
  patches : ∃ source patches, h.readPlist plist = some source ∧
    Target.loadKernelPatches h.pyStr source (some 4) = some patches ∧ patchesPass 4 patches = true
  /-- The required kexts are there. -/
  required : HasRequired kexts
  /-- What is copied can be written, and so can the identifier that is computed. -/
  copies : Target.CopiesFree stack h (buildArgs preset kexts plist) sample
  uuid : Plist.controlFree (h.uuid (txt "asrock-fm2a58m-vg3-a8-7600-mavericks")) = true

/-- The configuration can be written just if what is copied can. -/
theorem writable_iff {stack : Plist.Stack}
    (hentries : kexts.mapM (readKext h.load h.tree h.ocRoot (txt "13.0.0") (txt "13.99.99") .x86_64) =
      some entries)
    {source : Plist} (hsource : h.readPlist plist = some source)
    (hload : Target.loadKernelPatches h.pyStr source (some 4) = some patches)
    (hw : sample.writes (Target.assignments h.uuid (buildArgs preset kexts plist) rom none
      (some patches) entries) = some config) :
    config.writable stack 0 = true ↔
      Target.CopiesFree stack h (buildArgs preset kexts plist) sample ∧
        Plist.controlFree (h.uuid (txt "asrock-fm2a58m-vg3-a8-7600-mavericks")) = true := by
  have hpatches : Target.kernelPatches h.pyStr h.readPlist (buildArgs preset kexts plist) =
      some (some patches) := by
    rw [Target.kernelPatches]
    simp only [buildArgs, hsource, Option.bind_some, hload, Option.map_some]
  constructor
  · intro hwritable
    have huuid := Target.controlFree_uuid_of_writable hw hwritable
    exact ⟨(Target.writable_generated huuid rfl hentries hpatches hw).1 hwritable, huuid⟩
  · rintro ⟨hcopies, huuid⟩
    exact (Target.writable_generated huuid rfl hentries hpatches hw).2 hcopies

/-- The build makes a configuration that it accepts, and that the writer refuses. -/
theorem exists_refused {stack : Plist.Stack} (preset : BootPreset)
    (hb : Buildable stack h preset kexts plist sample) :
    ∃ config, Target.generate h (buildArgs preset kexts plist) sample = some config ∧
      config.writable stack 0 = true ∧ buildAccepts 4 config = true ∧ usbAccepts config = false := by
  obtain ⟨source, patches, hsource, hload, hpass⟩ := hb.patches
  obtain ⟨entries, hentries⟩ := exists_readKexts (txt "13.0.0") (txt "13.99.99") .x86_64 hb.readable
  obtain ⟨config, hw⟩ : ∃ config, sample.writes (Target.assignments h.uuid
      (buildArgs preset kexts plist) rom none (some patches) entries) = some config :=
    Target.exists_writes_iff.2 hb.sections
  have hr := reads_of_writes hw
  exact ⟨config, generate_eq_some.2 ⟨entries, source, patches, hentries, hsource, hload, hw⟩,
    (writable_iff hentries hsource hload hw).2 ⟨hb.copies, hb.uuid⟩,
    (buildAccepts_iff hr hentries).2 ⟨hpass, hb.required⟩, not_usbAccepts hr⟩

/-- **The gates never agree**: that the writer accepts whatever the build has generated, written and
accepted holds only where there is no such configuration.  The file has newlines where the
configuration has carriage returns, which none of the texts that the gates look for contains. -/
theorem gates_agree_iff (stack : Plist.Stack) (h : Target.Host) (preset : BootPreset)
    (kexts : List Text) (plist : Text) (sample : Plist) :
    (∀ config, Target.generate h (buildArgs preset kexts plist) sample = some config →
      config.writable stack 0 = true → buildAccepts 4 config = true → usbAccepts config = true) ↔
      ¬ Buildable stack h preset kexts plist sample := by
  constructor
  · intro hagree hb
    obtain ⟨config, hg, hwritable, hbuild, husb⟩ := exists_refused preset hb
    rw [hagree config hg hwritable hbuild] at husb
    cases husb
  · intro hnot config hg hwritable hbuild
    obtain ⟨entries, source, patches, hentries, hsource, hload, hw⟩ := generate_eq_some.1 hg
    obtain ⟨hpass, hrequired⟩ := (buildAccepts_iff (reads_of_writes hw) hentries).1 hbuild
    obtain ⟨hcopies, huuid⟩ := (writable_iff hentries hsource hload hw).1 hwritable
    exact absurd ⟨Target.exists_writes_iff.1 ⟨config, hw⟩, readable_of_readKexts hentries,
      ⟨source, patches, hsource, hload, hpass⟩, hrequired, hcopies, huuid⟩ hnot

/-- Ten patches, the first one for the number of cores. -/
def debugPatches : Plist :=
  .dict [("Kernel", .dict [("Patch", .array
    (.dict [("Comment", .str (txt "cpuid_cores_per_package")),
      ("Replace", .data [0xB8, 0, 0, 0, 0, 0x0F, 0x1F, 0])] :: List.replicate 9 (.dict [])))])]

/-- A tree with the required kexts. -/
def requiredTree : Tree :=
  requiredKexts.foldl (fun t kext =>
    let contents := [txt "Kexts", kext, txt "Contents"]
    ((t.makeDirs [] contents).getD t).ensureFile contents (txt "Info.plist") []) emptyTree

/-- A computer with the kexts and the patches. -/
def buildHost : Target.Host where
  load _ := some ⟨none, none, none, []⟩
  tree := requiredTree
  ocRoot := .ofPlace []
  readPlist _ := some debugPatches
  pyStr _ := some []
  uuid _ := txt "D42A19BA-8CFC-5551-9B23-F7F9425BEB90"

theorem infoOf_buildHost {path : Text} {info : Info}
    (h : infoOf buildHost.load buildHost.tree buildHost.ocRoot path = some info) :
    info = ⟨none, none, none, []⟩ := by
  rw [infoOf, loadInfo] at h
  split at h
  · exact (Option.some.inj h).symm
  · cases h

theorem copiesFree_build : Target.CopiesFree .usual buildHost
    (buildArgs .verbose requiredKexts (txt "DEBUG.plist")) sampleSections where
  sample := by decide +kernel
  texts := by decide +kernel
  acpi := List.forall_mem_nil _
  apic oem length h := by cases h
  cards := by decide +kernel
  kexts := by
    suffices h : ∀ path ∈ requiredKexts, Plist.controlFree (PurePath.parse path).toText = true from
      fun path hpath => ⟨h path hpath, fun info hinfo => by
        obtain rfl := infoOf_buildHost hinfo
        exact ⟨nofun, nofun, nofun⟩⟩
    decide +kernel
  patches path _ source hsource items hitems := by
    obtain rfl := Option.some.inj hsource
    obtain rfl := Plist.array.inj (Option.some.inj hitems)
    decide +kernel
  bootArgs := List.forall_mem_nil _
  drivers := by decide +kernel

/-- **The writer refuses a configuration that the build has accepted.** -/
theorem accepted_and_refused :
    ∃ config, Target.generate buildHost (buildArgs .verbose requiredKexts (txt "DEBUG.plist"))
        sampleSections = some config ∧
      config.writable .usual 0 = true ∧ buildAccepts 4 config = true ∧ usbAccepts config = false := by
  obtain ⟨patches, hload, hpass⟩ : ∃ patches ∈ Target.loadKernelPatches buildHost.pyStr debugPatches
      (some 4), patchesPass 4 patches = true := by
    decide +kernel
  exact exists_refused .verbose ⟨hasSections_sample, by decide +kernel,
    ⟨debugPatches, patches, rfl, hload, hpass⟩, by unfold HasRequired; decide +kernel,
    copiesFree_build, by decide +kernel⟩

end A8

end Config

end InstallKit
