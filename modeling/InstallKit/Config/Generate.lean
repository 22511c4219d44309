import InstallKit.Config.Plist
import InstallKit.Config.Tree

/-!
# `scripts/generate_oc_config.py`

The program loads `Sample.plist`, fills it in and writes the result.  It only ever assigns to keys,
so it is the list of its assignments (`assignments`), applied in order; a missing section or a kext
without a readable `Info.plist` ends it with an exception and no output.
-/

namespace InstallKit

namespace Config

open Sources

/-! ### Arguments -/

/-- `--os`. -/
inductive Os
  | leopard
  | snowleopard
  deriving DecidableEq

/-- `--kernel`. -/
inductive Kernel
  | vanilla
  | custom
  deriving DecidableEq

/-- `--boot-preset`. -/
inductive BootPreset
  | normal
  | verbose
  | safe
  | diagnostic
  deriving DecidableEq

/-- `--runtime-profile`. -/
inductive RuntimeProfile
  | off
  | legacy
  | modern
  deriving DecidableEq

/-- `--kernel-arch`. -/
inductive KernelArch
  | i386User32
  | i386
  | x86_64
  deriving DecidableEq

def Os.text : Os → Text
  | .leopard => txt "leopard"
  | .snowleopard => txt "snowleopard"

def KernelArch.text : KernelArch → Text
  | .i386User32 => txt "i386-user32"
  | .i386 => txt "i386"
  | .x86_64 => txt "x86_64"

/-- What the argument parser accepts, with `ASPIRE4310_KERNEL_ARCH` unset. -/
structure Args where
  os : Os
  kernel : Kernel
  bootPreset : BootPreset
  runtimeProfile : RuntimeProfile
  kernelArch : Option KernelArch
  drivers : List Text
  kexts : List Text
  acpi : List Text
  dropDuplicateApic : Bool
  ocVersion : Text

/-- `KERNEL_RANGES`. -/
def kernelRange : Os → Text × Text
  | .leopard => (txt "9.0.0", txt "9.99.99")
  | .snowleopard => (txt "10.0.0", txt "10.99.99")

/-- `BOOT_ARGS`. -/
def bootArgs : BootPreset → Text
  | .normal => []
  | .verbose => txt "-v keepsyms=1"
  | .safe => txt "-v -x keepsyms=1 debug=0x100"
  | .diagnostic => txt "-v keepsyms=1 debug=0x108 io=0x20007f"

/-- `LEOPARD_BOOT_ARGS`. -/
def leopardBootArgs : Text := txt "cpus=1"

/-- `resolve_kernel_arch`; the `ValueError` ends in `parser.error`. -/
def resolveKernelArch : Os → Option KernelArch → Option KernelArch
  | .leopard, none => some .i386User32
  | .snowleopard, none => some .i386
  | .leopard, some .x86_64 => none
  | .snowleopard, some .i386User32 => some .i386
  | _, some requested => some requested

/-- `kext_arch_for`. -/
def kextArchFor : KernelArch → KernelArch
  | .i386User32 => .i386
  | arch => arch

/-- `boot_args_for`. -/
def bootArgsFor (os : Os) (preset : BootPreset) (arch : KernelArch) : Text :=
  let parts := bootArgs preset ::
    match os with
    | .leopard => [leopardBootArgs]
    | .snowleopard => if arch = .x86_64 then [txt "arch=x86_64"] else []
  [' '].intercalate (parts.filter (· ≠ []))

/-! ### Kexts -/

/-- The keys of an `Info.plist` that the programs read. -/
structure Info where
  /-- `CFBundleIdentifier`. -/
  identifier : Option Text
  /-- `CFBundleVersion`. -/
  version : Option Text
  /-- `CFBundleExecutable`. -/
  executable : Option Text
  /-- The keys of `OSBundleLibraries`. -/
  libraries : List Text

/-- A component of a path. -/
def component (name : String) : PurePath := ⟨[], [txt name]⟩

section

variable (load : Bytes → Option Info) (t : Tree)

/-- `plistlib.load` of the file at a path. -/
def loadInfo (path : PurePath) : Option Info :=
  match t.lookup path with
  | some (.file b) => load b
  | _ => none

/-- The bundle of a kext. -/
def bundleOf (ocRoot : PurePath) (bundlePath : Text) : PurePath :=
  (ocRoot.join (component "Kexts")).join (.parse bundlePath)

/-- `read_kext`. -/
def readKext (ocRoot : PurePath) (minimum maximum : Text) (arch : KernelArch) (bundlePath : Text) :
    Option Plist :=
  let infoPath := ((bundleOf ocRoot bundlePath).join (component "Contents")).join
    (component "Info.plist")
  (loadInfo load t infoPath).map fun info =>
    let executable := info.executable.getD []
    .dict [("Arch", .str arch.text),
      ("BundlePath", .str (PurePath.parse bundlePath).toText),
      ("Comment", .str (info.identifier.getD (txt "UNKNOWN") ++ ' ' ::
        info.version.getD (txt "UNKNOWN") ++ txt "; statically checked " ++ arch.text ++
        txt " candidate")),
      ("Enabled", .bool true),
      ("ExecutablePath", .str (if executable = [] then [] else txt "Contents/MacOS/" ++ executable)),
      ("MaxKernel", .str maximum),
      ("MinKernel", .str minimum),
      ("PlistPath", .str (txt "Contents/Info.plist"))]

end

/-! ### The assignments -/

/-- `clear_samples`. -/
def clearSamples : List (List String × Plist) :=
  [(["ACPI", "Add"], .array []), (["ACPI", "Delete"], .array []), (["ACPI", "Patch"], .array []),
    (["Booter", "MmioWhitelist"], .array []), (["Booter", "Patch"], .array []),
    (["DeviceProperties", "Add"], .dict []), (["DeviceProperties", "Delete"], .dict []),
    (["Kernel", "Add"], .array []), (["Kernel", "Block"], .array []),
    (["Kernel", "Force"], .array []), (["Kernel", "Patch"], .array []),
    (["Misc", "BlessOverride"], .array []), (["Misc", "Entries"], .array []),
    (["Misc", "Tools"], .array []), (["UEFI", "Drivers"], .array []),
    (["UEFI", "ReservedMemory"], .array [])]

/-- Assign to keys of one section. -/
def inSection (s : List String) (kvs : List (String × Plist)) : List (List String × Plist) :=
  kvs.map fun kv => (s ++ [kv.1], kv.2)

/-- `Booter/Quirks`; what a profile leaves out stays as in the sample. -/
def booterQuirks (profile : RuntimeProfile) : List (String × Plist) :=
  [("FixupAppleEfiImages", .bool true), ("SetupVirtualMap", .bool false)] ++
  match profile with
  | .off => [("EnableSafeModeSlide", .bool false), ("EnableWriteUnprotector", .bool false),
      ("ProvideCustomSlide", .bool false), ("RebuildAppleMemoryMap", .bool false),
      ("SyncRuntimePermissions", .bool false)]
  | .legacy => [("EnableSafeModeSlide", .bool false), ("EnableWriteUnprotector", .bool true),
      ("RebuildAppleMemoryMap", .bool false), ("SyncRuntimePermissions", .bool false)]
  | .modern => [("EnableWriteUnprotector", .bool false), ("RebuildAppleMemoryMap", .bool true),
      ("SyncRuntimePermissions", .bool true)]

/-- An entry of `ACPI/Add`. -/
def acpiEntry (path : Text) : Plist :=
  .dict [("Comment", .str (txt "User-supplied ACPI table")), ("Enabled", .bool true),
    ("Path", .str path)]

/-- The duplicate Phoenix MADT. -/
def duplicateApic : Plist :=
  .dict [("All", .bool false),
    ("Comment", .str (txt "Drop duplicate Phoenix MADT; keep INTEL CALISTGA APIC")),
    ("Enabled", .bool true), ("OemTableId", .data [0x09, 0x20, 0x41, 0x50, 0x49, 0x43, 0x20, 0x20]),
    ("TableLength", .int 90), ("TableSignature", .data [0x41, 0x50, 0x49, 0x43])]

/-- An entry of `UEFI/Drivers`. -/
def driverEntry (driver : Text) : Plist :=
  .dict [("Arguments", .str []), ("Comment", .str (txt "Aspire 4310 minimal legacy boot driver")),
    ("Enabled", .bool true), ("LoadEarly", .bool false), ("Path", .str driver)]

/-- The key of the Apple variables. -/
def appleNvram : String := "7C436110-AB2A-4BBB-A880-FE41995C9F82"

/-- Every assignment of `main`, in order. -/
def assignments (a : Args) (arch : KernelArch) (kexts : List Plist) :
    List (List String × Plist) :=
  clearSamples ++
  inSection ["Booter", "Quirks"] (booterQuirks a.runtimeProfile) ++
  [(["ACPI", "Add"], .array (a.acpi.map acpiEntry))] ++
  (if a.dropDuplicateApic then [(["ACPI", "Delete"], .array [duplicateApic])] else []) ++
  [(["Kernel", "Add"], .array kexts)] ++
  inSection ["Kernel", "Emulate"]
    [("Cpuid1Data", .data []), ("Cpuid1Mask", .data []), ("DummyPowerManagement", .bool true),
      ("MinKernel", .str (kernelRange a.os).1), ("MaxKernel", .str (kernelRange a.os).2)] ++
  inSection ["Kernel", "Quirks"]
    [("AppleCpuPmCfgLock", .bool false), ("LegacyCommpage", .bool false),
      ("ProvideCurrentCpuInfo", .bool false)] ++
  inSection ["Kernel", "Scheme"]
    [("CustomKernel", .bool (a.kernel = .custom)), ("FuzzyMatch", .bool true),
      ("KernelArch", .str arch.text), ("KernelCache", .str (txt "Auto"))] ++
  inSection ["Misc", "Boot"]
    [("HideAuxiliary", .bool false), ("PickerMode", .str (txt "Builtin")),
      ("ShowPicker", .bool true), ("TakeoffDelay", .int 10000), ("Timeout", .int 10)] ++
  inSection ["Misc", "Debug"]
    [("AppleDebug", .bool true), ("ApplePanic", .bool true), ("DisableWatchDog", .bool true),
      ("DisplayLevel", .int 0x80000042), ("SysReport", .bool (a.bootPreset = .diagnostic)),
      ("Target", .int 67)] ++
  inSection ["Misc", "Security"]
    [("AllowSetDefault", .bool true), ("DmgLoading", .str (txt "Any")), ("ScanPolicy", .int 0),
      ("SecureBootModel", .str (txt "Disabled")), ("Vault", .str (txt "Optional"))] ++
  inSection ["NVRAM"]
    [("Add", .dict
        [("4D1EDE05-38C7-4A6A-9CC6-4BCCA8B38C14",
          .dict [("DefaultBackgroundColor", .data [0, 0, 0, 0])]),
        (appleNvram, .dict
          [("boot-args", .str (bootArgsFor a.os a.bootPreset arch)),
            ("prev-lang:kbd", .data [0x65, 0x6e, 0x2d, 0x55, 0x53, 0x3a, 0x30]),
            ("run-efi-updater", .str (txt "No"))])]),
      ("Delete", .dict [(appleNvram, .array [.str (txt "boot-args")])])] ++
  inSection ["PlatformInfo"]
    [("Automatic", .bool true), ("UpdateDataHub", .bool true), ("UpdateNVRAM", .bool true),
      ("UpdateSMBIOS", .bool true), ("UpdateSMBIOSMode", .str (txt "Create"))] ++
  inSection ["PlatformInfo", "Generic"]
    [("AdviseFeatures", .bool false), ("MLB", .str (txt "W0000000000000001")),
      ("MaxBIOSVersion", .bool false), ("ProcessorType", .int 0),
      ("ROM", .data [0x41, 0x43, 0x45, 0x52, 0x34, 0x33]), ("SpoofVendor", .bool true),
      ("SystemMemoryStatus", .str (txt "Auto")), ("SystemProductName", .str (txt "MacBook2,1")),
      ("SystemSerialNumber", .str (txt "W00000000001")),
      -- `uuid.uuid5(uuid.NAMESPACE_DNS, "aspire4310-legacy-macos")`
      ("SystemUUID", .str (txt "07B56AAD-C701-5F99-B372-D14D705237BC"))] ++
  [(["UEFI", "Drivers"], .array (a.drivers.map driverEntry))] ++
  inSection ["UEFI", "Input"]
    [("KeyForgetThreshold", .int 9), ("KeySupport", .bool true),
      ("KeySupportMode", .str (txt "V1"))] ++
  inSection ["UEFI", "Output"]
    [("ProvideConsoleGop", .bool true), ("Resolution", .str (txt "Max"))] ++
  inSection ["UEFI", "Quirks"]
    [("ReleaseUsbOwnership", .bool true), ("RequestBootVarRouting", .bool false)] ++
  [(["#Revision"], .str (txt "Aspire 4310 profile generated from OpenCore " ++ a.ocVersion ++
    txt " Sample.plist; " ++ a.os.text ++ '/' :: arch.text))]

/-- `main`: the configuration that is written, or none. -/
def generate (load : Bytes → Option Info) (t : Tree) (ocRoot : PurePath) (a : Args)
    (sample : Plist) : Option Plist := do
  let arch ← resolveKernelArch a.os a.kernelArch
  let (minimum, maximum) := kernelRange a.os
  let kexts ← a.kexts.mapM (readKext load t ocRoot minimum maximum (kextArchFor arch))
  sample.writes (assignments a arch kexts)

/-! ### The sections of the sample -/

/-- The sections that `main` assigns into. -/
def sections : List (List String) :=
  [[], ["ACPI"], ["Booter"], ["Booter", "Quirks"], ["DeviceProperties"], ["Kernel"],
    ["Kernel", "Emulate"], ["Kernel", "Quirks"], ["Kernel", "Scheme"], ["Misc"], ["Misc", "Boot"],
    ["Misc", "Debug"], ["Misc", "Security"], ["NVRAM"], ["PlatformInfo"],
    ["PlatformInfo", "Generic"], ["UEFI"], ["UEFI", "Input"], ["UEFI", "Output"],
    ["UEFI", "Quirks"]]

/-- The sample has the required sections. -/
def HasSections (sample : Plist) : Prop := ∀ s ∈ sections, sample.HasDict s

/-- The keys of the sections. -/
def sectionKeys : List String :=
  ["ACPI", "Booter", "Quirks", "DeviceProperties", "Kernel", "Emulate", "Scheme", "Misc", "Boot",
    "Debug", "Security", "NVRAM", "PlatformInfo", "Generic", "UEFI", "Input", "Output"]

/-- The path of a key in a section that is not a section itself. -/
def IsLeaf (p : List String) : Prop :=
  p.dropLast ∈ sections ∧ ∃ k, p.getLast? = some k ∧ k ∉ sectionKeys

instance (p : List String) : Decidable (IsLeaf p) :=
  match h : p.getLast? with
  | none => isFalse fun hp => by simp [IsLeaf, h] at hp
  | some k => decidable_of_iff (p.dropLast ∈ sections ∧ k ∉ sectionKeys) (by simp [IsLeaf, h])

/-- No section lies at a leaf or below it. -/
theorem IsLeaf.not_above_section {p s : List String} (hp : IsLeaf p) (hs : s ∈ sections) :
    ¬ p <+: s := by
  have hkeys : ∀ s ∈ sections, ∀ k ∈ s, k ∈ sectionKeys := by decide
  obtain ⟨-, k, hk, hnot⟩ := hp
  exact fun hpre => hnot (hkeys s hs k (hpre.subset (List.mem_of_getLast? hk)))

theorem IsLeaf.ne_nil {p : List String} (hp : IsLeaf p) : p ≠ [] := by
  rintro rfl
  obtain ⟨-, k, hk, -⟩ := hp
  cases hk

/-- Different leaves are apart. -/
theorem IsLeaf.eq_or_apart {p q : List String} (hp : IsLeaf p) (hq : IsLeaf q) :
    p = q ∨ Plist.apart p q = true := by
  have hone : ∀ {p q : List String}, IsLeaf p → IsLeaf q → p ≠ q → ¬ p <+: q := by
    intro p q hp hq hne hpre
    rw [← List.dropLast_concat_getLast hq.ne_nil] at hpre hne
    exact (List.prefix_concat_iff.1 hpre).elim hne fun h => hp.not_above_section hq.1 h
  by_cases hpq : p = q
  · exact Or.inl hpq
  · have h₁ : ¬ p <+: q := hone hp hq hpq
    have h₂ : ¬ q <+: p := hone hq hp fun h => hpq h.symm
    rw [← List.isPrefixOf_iff_prefix, Bool.not_eq_true] at h₁ h₂
    exact Or.inr (by rw [Plist.apart, h₁, h₂]; rfl)

theorem written_inSection {s : List String} {kvs : List (String × Plist)} {p : List String} :
    Plist.written (inSection s kvs) p = if p.dropLast = s then
      Plist.written (kvs.map fun kv => (s ++ [kv.1], kv.2)) p else none := by
  split
  · rfl
  · rename_i h
    induction kvs with
    | nil => rfl
    | cons kv kvs ih =>
      have hne : s ++ [kv.1] ≠ p := by
        rintro rfl
        exact h List.dropLast_concat
      rw [inSection, List.map_cons, Plist.written_cons, if_neg hne, Option.or_none]
      exact ih

theorem isLeaf_inSection {s : List String} {kvs : List (String × Plist)} (hs : s ∈ sections)
    (hk : ∀ kv ∈ kvs, kv.1 ∉ sectionKeys) : ∀ w ∈ inSection s kvs, IsLeaf w.1 := by
  intro w hw
  obtain ⟨kv, hkv, rfl⟩ := List.mem_map.1 hw
  exact ⟨by rwa [List.dropLast_concat], kv.1, List.getLast?_concat, hk kv hkv⟩

theorem isLeaf_booterQuirks (profile : RuntimeProfile) :
    ∀ w ∈ inSection ["Booter", "Quirks"] (booterQuirks profile), IsLeaf w.1 := by
  refine isLeaf_inSection (by decide) ?_
  cases profile <;> simp [booterQuirks, sectionKeys]

theorem forall_mem_append_of {P : List String × Plist → Prop} {l l' : List (List String × Plist)}
    (h : ∀ w ∈ l, P w) (h' : ∀ w ∈ l', P w) : ∀ w ∈ l ++ l', P w :=
  List.forall_mem_append.2 ⟨h, h'⟩

theorem isLeaf_single {p : List String} {v : Plist} (hp : IsLeaf p) : ∀ w ∈ [(p, v)], IsLeaf w.1 := by
  intro w hw
  obtain rfl := List.mem_singleton.1 hw
  exact hp

theorem isLeaf_clearSamples : ∀ w ∈ clearSamples, IsLeaf w.1 := by
  suffices h : ∀ p ∈ clearSamples.map Prod.fst, IsLeaf p from
    fun w hw => h w.1 (List.mem_map_of_mem hw)
  decide

/-- Every assignment is to a leaf. -/
theorem isLeaf_assignments (a : Args) (arch : KernelArch) (kexts : List Plist) :
    ∀ w ∈ assignments a arch kexts, IsLeaf w.1 := by
  have hdrop : ∀ w ∈ (if a.dropDuplicateApic then [(["ACPI", "Delete"], Plist.array [duplicateApic])]
      else []), IsLeaf w.1 := by
    split
    · exact isLeaf_single (by decide)
    · exact List.forall_mem_nil _
  unfold assignments
  repeat' apply forall_mem_append_of
  · exact isLeaf_clearSamples
  · exact isLeaf_booterQuirks _
  · exact isLeaf_single (by decide)
  · exact hdrop
  · exact isLeaf_single (by decide)
  all_goals first
    | exact isLeaf_single (by decide)
    | exact isLeaf_inSection (by decide) (by simp [sectionKeys])

/-- Kexts that can be read give entries. -/
theorem exists_readKexts {load : Bytes → Option Info} {t : Tree} {ocRoot : PurePath}
    {paths : List Text} (minimum maximum : Text) (arch : KernelArch)
    (h : ∀ path ∈ paths, loadInfo load t (((bundleOf ocRoot path).join
      (component "Contents")).join (component "Info.plist")) ≠ none) :
    ∃ kexts, paths.mapM (readKext load t ocRoot minimum maximum arch) = some kexts := by
  induction paths with
  | nil => exact ⟨[], rfl⟩
  | cons path paths ih =>
    obtain ⟨kexts, hk⟩ := ih fun p hp => h p (List.mem_cons_of_mem _ hp)
    obtain ⟨info, hi⟩ := Option.ne_none_iff_exists'.1 (h path List.mem_cons_self)
    simp [List.mapM_cons, readKext, hi, hk]

/-- Only kexts that can be read do. -/
theorem readable_of_readKexts {load : Bytes → Option Info} {t : Tree} {ocRoot : PurePath}
    {paths : List Text} {minimum maximum : Text} {arch : KernelArch} {kexts : List Plist}
    (h : paths.mapM (readKext load t ocRoot minimum maximum arch) = some kexts) :
    ∀ path ∈ paths, loadInfo load t (((bundleOf ocRoot path).join
      (component "Contents")).join (component "Info.plist")) ≠ none := by
  induction paths generalizing kexts with
  | nil => exact List.forall_mem_nil _
  | cons path paths ih =>
    rw [List.mapM_cons] at h
    obtain ⟨kext, hkext, h⟩ := Option.bind_eq_some_iff.1 h
    obtain ⟨rest, hrest, -⟩ := Option.bind_eq_some_iff.1 h
    obtain ⟨info, hinfo, -⟩ := Option.map_eq_some_iff.1 hkext
    rw [List.forall_mem_cons]
    exact ⟨by rw [hinfo]; exact Option.some_ne_none _, ih hrest⟩

/-- **The generator runs through** when the sample has its sections and the kexts can be read. -/
theorem exists_generate {load : Bytes → Option Info} {t : Tree} {ocRoot : PurePath} {a : Args}
    {arch : KernelArch} {sample : Plist} (hs : HasSections sample)
    (harch : resolveKernelArch a.os a.kernelArch = some arch)
    (hkexts : ∀ path ∈ a.kexts, loadInfo load t (((bundleOf ocRoot path).join
      (component "Contents")).join (component "Info.plist")) ≠ none) :
    ∃ config, generate load t ocRoot a sample = some config := by
  obtain ⟨kexts, hk⟩ := exists_readKexts (kernelRange a.os).1 (kernelRange a.os).2
    (kextArchFor arch) hkexts
  obtain ⟨config, hc⟩ := Plist.exists_writes hs fun w hw =>
    have hleaf := isLeaf_assignments a arch kexts w hw
    ⟨hleaf.1, hleaf.ne_nil, fun _ hs => hleaf.not_above_section hs⟩
  exact ⟨config, by simp [generate, harch, hk, hc]⟩

end Config

end InstallKit
