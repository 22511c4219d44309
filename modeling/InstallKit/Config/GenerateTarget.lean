import InstallKit.Config.Generate
import Mathlib.Data.List.Infix

/-!
# `scripts/generate_target_oc_config.py`

The generator for the other computers.  Like `generate_oc_config.py` it is a list of assignments
(`assignments`), with more arguments: among others, graphics cards to hide, a property list with
kernel patches, and the number of cores that one of the patches is adapted to.
-/

namespace InstallKit

namespace Config

namespace Target

open Sources

/-! ### Arguments -/

/-- `--os`. -/
inductive Os
  | leopard
  | snowleopard
  | mavericks
  deriving DecidableEq

/-- `--kernel-cache`. -/
inductive KernelCache
  | auto
  | cacheless
  | mkext
  | prelinked
  deriving DecidableEq

def Os.text : Os → Text
  | .leopard => txt "leopard"
  | .snowleopard => txt "snowleopard"
  | .mavericks => txt "mavericks"

def KernelCache.text : KernelCache → Text
  | .auto => txt "Auto"
  | .cacheless => txt "Cacheless"
  | .mkext => txt "Mkext"
  | .prelinked => txt "Prelinked"

/-- What the argument parser accepts; the defaults from the environment are among it. -/
structure Args where
  os : Os
  targetName : Text
  smbios : Text
  romAscii : Text
  serial : Text
  mlb : Text
  uuidSeed : Text
  kernelArch : KernelArch
  kernelCache : KernelCache
  bootPreset : BootPreset
  runtimeProfile : RuntimeProfile
  customKernel : Bool
  legacyCommpage : Bool
  provideCurrentCpuInfo : Bool
  releaseUsbOwnership : Bool
  setupVirtualMap : Bool
  forceExitBootServices : Bool
  drivers : List Text
  kexts : List Text
  blacklistGpuPciPath : List Text
  kernelPatchesPlist : Option Text
  amdCoreCount : Option ℤ
  acpi : List Text
  extraBootArgs : List Text
  dropApicOemTableId : Option Text
  dropApicTableLength : Option ℤ
  ocVersion : Text

/-- `KERNEL_RANGES`. -/
def kernelRange : Os → Text × Text
  | .leopard => (txt "9.0.0", txt "9.99.99")
  | .snowleopard => (txt "10.0.0", txt "10.99.99")
  | .mavericks => (txt "13.0.0", txt "13.99.99")

/-- `text.encode("ascii", "strict")` -/
def encodeAscii (t : Text) : Option Bytes :=
  t.mapM fun c => if c.toNat < 128 then some c.toNat.toUInt8 else none

/-- `raw.ljust(n, fill)` -/
def ljust (n : ℕ) (fill : UInt8) (raw : Bytes) : Bytes := raw ++ List.replicate (n - raw.length) fill

/-- `rom_bytes` -/
def romBytes (t : Text) : Option Bytes := do
  let raw ← encodeAscii t
  if 1 ≤ raw.length ∧ raw.length ≤ 6 then some (ljust 6 0 raw) else none

/-- The table that `--drop-apic-oem-table-id` asks for, if it does: its padded identifier and its
length. -/
def dropApic (a : Args) : Option (Option (Bytes × ℤ)) :=
  match a.dropApicOemTableId with
  | none => some none
  | some id =>
    if id = [] then some none
    else do
      let length ← a.dropApicTableLength
      let oem ← encodeAscii id
      if oem.length > 8 then none else some (some (ljust 8 0x20 oem, length))

/-- `boot_args` -/
def bootArgsFor (a : Args) : Text :=
  let parts := bootArgs a.bootPreset ::
    (if a.os = .snowleopard ∧ a.kernelArch = .i386 then [txt "arch=i386"] else []) ++ a.extraBootArgs
  [' '].intercalate ((parts.map (strip isPySpace)).filter (· ≠ []))

/-! ### Kernel patches -/

/-- The patch of the number of cores. -/
def corePatch : Text := txt "cpuid_cores_per_package"

/-- `str(patch.get("Comment", ""))`; `pyStr` is `str` of what is no string, and raises an exception
for an integer with too many digits or for arrays that are nested too deep. -/
def commentText (pyStr : Plist → Option Text) (patch : List (Key × Plist)) : Option Text :=
  match patch.lookup (.str "Comment") with
  | none => some []
  | some (.str s) => some s
  | some v => pyStr v

/-- Whether the comment mentions the patch of the number of cores. -/
def isCorePatch (pyStr : Plist → Option Text) (patch : List (Key × Plist)) : Bool :=
  (commentText pyStr patch).any (corePatch <:+: ·)

/-- `patch = dict(item)` of a dictionary whose comment has a text. -/
def normalize (pyStr : Plist → Option Text) : Plist → Option (List (Key × Plist))
  | .dict kvs => if (commentText pyStr kvs).isSome then some kvs else none
  | _ => none

/-- The patch with the number of cores in it. -/
def specialize (cores : UInt8) (patch : List (Key × Plist)) : Option (List (Key × Plist)) :=
  match patch.lookup (.str "Replace") with
  | some (.data current) =>
    if current = [0xBA, 0, 0, 0, 0] then
      some (dictInsert "Replace" (.data [0xBA, cores, 0, 0, 0]) patch)
    else if current = [0xB8, 0, 0, 0, 0, 0x0F, 0x1F, 0] then
      some (dictInsert "Replace" (.data [0xB8, cores, 0, 0, 0, 0x0F, 0x1F, 0]) patch)
    else none
  | _ => none

/-- `load_kernel_patches` of a property list that could be read. -/
def loadKernelPatches (pyStr : Plist → Option Text) (source : Plist) (amdCoreCount : Option ℤ) :
    Option (List Plist) := do
  let .array (item :: items) ← source.get ["Kernel", "Patch"] | none
  let patches ← (item :: items).mapM (normalize pyStr)
  match amdCoreCount with
  | none => some (patches.map .dict)
  | some n =>
    if 1 ≤ n ∧ n ≤ 255 ∧ (patches.filter (isCorePatch pyStr)).length = 1 then
      (patches.mapM fun patch =>
        if isCorePatch pyStr patch then specialize n.toNat.toUInt8 patch
        else some patch).map (·.map .dict)
    else none

/-- The patches that `--kernel-patches-plist` asks for, if it does. -/
def kernelPatches (pyStr : Plist → Option Text) (readPlist : Text → Option Plist) (a : Args) :
    Option (Option (List Plist)) :=
  match a.kernelPatchesPlist with
  | none => if a.amdCoreCount = none then some none else none
  | some path =>
    ((readPlist path).bind fun source => loadKernelPatches pyStr source a.amdCoreCount).map some

/-! ### The assignments -/

/-- `Booter/Quirks`; what a profile leaves out stays as in the sample. -/
def booterQuirks (a : Args) : List (String × Plist) :=
  [("FixupAppleEfiImages", .bool true), ("SetupVirtualMap", .bool a.setupVirtualMap),
    ("ForceExitBootServices", .bool a.forceExitBootServices)] ++
  match a.runtimeProfile with
  | .off => [("EnableSafeModeSlide", .bool false), ("EnableWriteUnprotector", .bool false),
      ("ProvideCustomSlide", .bool false), ("RebuildAppleMemoryMap", .bool false),
      ("SyncRuntimePermissions", .bool false)]
  | .legacy => [("EnableSafeModeSlide", .bool false), ("EnableWriteUnprotector", .bool true),
      ("RebuildAppleMemoryMap", .bool false), ("SyncRuntimePermissions", .bool false)]
  | .modern => [("EnableWriteUnprotector", .bool false), ("RebuildAppleMemoryMap", .bool true),
      ("SyncRuntimePermissions", .bool true)]

/-- An entry of `ACPI/Add`. -/
def acpiEntry (targetName path : Text) : Plist :=
  .dict [("Comment", .str (targetName ++ txt " user ACPI")), ("Enabled", .bool true),
    ("Path", .str path)]

/-- The entry of `ACPI/Delete`. -/
def apicEntry (targetName : Text) (oem : Bytes) (length : ℤ) : Plist :=
  .dict [("All", .bool false),
    ("Comment", .str (txt "Drop target-specific duplicate MADT for " ++ targetName)),
    ("Enabled", .bool true), ("OemTableId", .data oem), ("TableLength", .int length),
    ("TableSignature", .data [0x41, 0x50, 0x49, 0x43])]

/-- `gpu_blacklist_properties` -/
def gpuBlacklistProperties : Plist :=
  .dict [("name", .str (txt "unused")), ("IOName", .str (txt "#display")),
    ("class-code", .data [0xff, 0xff, 0xff, 0xff]), ("vendor-id", .data [0xff, 0xff, 0, 0]),
    ("device-id", .data [0xff, 0xff, 0, 0])]

/-- An entry of `UEFI/Drivers`. -/
def driverEntry (targetName driver : Text) : Plist :=
  .dict [("Arguments", .str []), ("Comment", .str (targetName ++ txt " legacy boot driver")),
    ("Enabled", .bool true), ("LoadEarly", .bool false), ("Path", .str driver)]

/-- Every assignment of `main`, in order. -/
def assignments (uuid : Text → Text) (a : Args) (rom : Bytes) (apic : Option (Bytes × ℤ))
    (patches : Option (List Plist)) (kexts : List Plist) : List (List String × Plist) :=
  clearSamples ++
  inSection ["Booter", "Quirks"] (booterQuirks a) ++
  [(["ACPI", "Add"], .array (a.acpi.map (acpiEntry a.targetName)))] ++
  (match apic with
    | some (oem, length) => [(["ACPI", "Delete"], .array [apicEntry a.targetName oem length])]
    | none => []) ++
  inSection ["DeviceProperties", "Add"]
    (a.blacklistGpuPciPath.map fun path => (String.ofList path, gpuBlacklistProperties)) ++
  [(["Kernel", "Add"], .array kexts)] ++
  (match patches with
    | some patches => [(["Kernel", "Patch"], .array patches)]
    | none => []) ++
  inSection ["Kernel", "Emulate"]
    [("Cpuid1Data", .data []), ("Cpuid1Mask", .data []), ("DummyPowerManagement", .bool true),
      ("MinKernel", .str (kernelRange a.os).1), ("MaxKernel", .str (kernelRange a.os).2)] ++
  inSection ["Kernel", "Quirks"]
    [("AppleCpuPmCfgLock", .bool false), ("LegacyCommpage", .bool a.legacyCommpage),
      ("ProvideCurrentCpuInfo", .bool a.provideCurrentCpuInfo)] ++
  inSection ["Kernel", "Scheme"]
    [("CustomKernel", .bool a.customKernel), ("FuzzyMatch", .bool true),
      ("KernelArch", .str a.kernelArch.text), ("KernelCache", .str a.kernelCache.text)] ++
  inSection ["Misc", "Boot"]
    [("HideAuxiliary", .bool false), ("PickerMode", .str (txt "Builtin")),
      ("ShowPicker", .bool true), ("TakeoffDelay", .int 10000), ("Timeout", .int 10)] ++
  inSection ["Misc", "Debug"]
    [("AppleDebug", .bool true), ("ApplePanic", .bool true), ("DisableWatchDog", .bool true),
      ("DisplayLevel", .int 0x80000042), ("SysReport", .bool (a.bootPreset = .diagnostic)),
      ("Target", .int 67)] ++
  inSection ["Misc", "Security"]
    [("AllowSetDefault", .bool true), ("DmgLoading", .str (txt "Any")), ("ScanPolicy", .int 0),
      ("SecureBootModel", .str (txt "Disabled")), ("Vault", .str (txt "Optional"))] ++
  inSection ["NVRAM"]
    [("Add", .dict
        [("4D1EDE05-38C7-4A6A-9CC6-4BCCA8B38C14",
          .dict [("DefaultBackgroundColor", .data [0, 0, 0, 0])]),
        (appleNvram, .dict
          [("boot-args", .str (bootArgsFor a)),
            ("prev-lang:kbd", .data [0x65, 0x6e, 0x2d, 0x55, 0x53, 0x3a, 0x30]),
            ("run-efi-updater", .str (txt "No"))])]),
      ("Delete", .dict [(appleNvram, .array [.str (txt "boot-args")])])] ++
  inSection ["PlatformInfo"]
    [("Automatic", .bool true), ("UpdateDataHub", .bool true), ("UpdateNVRAM", .bool true),
      ("UpdateSMBIOS", .bool true), ("UpdateSMBIOSMode", .str (txt "Create"))] ++
  inSection ["PlatformInfo", "Generic"]
    [("AdviseFeatures", .bool false), ("MLB", .str a.mlb), ("MaxBIOSVersion", .bool false),
      ("ProcessorType", .int 0), ("ROM", .data rom), ("SpoofVendor", .bool true),
      ("SystemMemoryStatus", .str (txt "Auto")), ("SystemProductName", .str a.smbios),
      ("SystemSerialNumber", .str a.serial), ("SystemUUID", .str (uuid a.uuidSeed))] ++
  [(["UEFI", "Drivers"], .array (a.drivers.map (driverEntry a.targetName)))] ++
  inSection ["UEFI", "Input"]
    [("KeyForgetThreshold", .int 9), ("KeySupport", .bool true),
      ("KeySupportMode", .str (txt "V1"))] ++
  inSection ["UEFI", "Output"]
    [("ProvideConsoleGop", .bool true), ("Resolution", .str (txt "Max"))] ++
  inSection ["UEFI", "Quirks"]
    [("ReleaseUsbOwnership", .bool a.releaseUsbOwnership),
      ("RequestBootVarRouting", .bool false)] ++
  [(["#Revision"], .str (a.targetName ++ txt " profile generated from OpenCore " ++ a.ocVersion ++
    txt " Sample.plist; " ++ a.os.text ++ '/' :: a.kernelArch.text))]

/-- What the program takes from the computer it runs on, besides its arguments and the sample: the
`Info.plist` of a kext, the files below `--oc-root`, the property list with the patches, `str` of a
value that is no string, and `uuid5` of a seed. -/
structure Host where
  load : Bytes → Option Info
  tree : Tree
  ocRoot : PurePath
  readPlist : Text → Option Plist
  pyStr : Plist → Option Text
  uuid : Text → Text

/-- `main`: the configuration that is written, or none. -/
def generate (h : Host) (a : Args) (sample : Plist) : Option Plist := do
  let (minimum, maximum) := kernelRange a.os
  let apic ← dropApic a
  if a.blacklistGpuPciPath.any (fun path => !(txt "PciRoot(").isPrefixOf path) then none else do
  let kexts ← a.kexts.mapM (readKext h.load h.tree h.ocRoot minimum maximum (kextArchFor a.kernelArch))
  let patches ← kernelPatches h.pyStr h.readPlist a
  let rom ← romBytes a.romAscii
  sample.writes (assignments h.uuid a rom apic patches kexts)

end Target

end Config

end InstallKit
