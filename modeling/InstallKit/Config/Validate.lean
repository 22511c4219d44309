import InstallKit.Config.Generate

/-!
# `scripts/validate_oc_tree.py`

The program reads `config.plist`, compares it with the staged tree around it and restores the
metadata files of OpenCore.  `readConfig` is the part of the configuration that it reads;
`validate` is `main`, with the tree it leaves and the errors it prints, if it comes to print them.
-/

namespace InstallKit

namespace Config

open Sources

/-! ### The configuration -/

/-- The truth value of a Python object. -/
def truthy : Plist → Bool
  | .bool b => b
  | .int n => n ≠ 0
  | .real bits => bits ≠ 0 ∧ bits ≠ 0x8000000000000000
  | .uid _ => true
  | .date _ => true
  | .str s => s ≠ []
  | .data b => b ≠ []
  | .array xs => !xs.isEmpty
  | .dict kvs => !kvs.isEmpty

/-- An entry of `ACPI/Add`, `UEFI/Drivers` or `Misc/Tools`. -/
structure PathEntry where
  enabled : Bool
  path : Text

/-- An entry of `Kernel/Add`. -/
structure KextEntry where
  enabled : Bool
  bundlePath : Text
  plistPath : Text
  executablePath : Text

/-- The parts of `config.plist` that are read. -/
structure OcConfig where
  acpi : List PathEntry
  kexts : List KextEntry
  drivers : List PathEntry
  tools : List PathEntry
  keySupport : Bool
  keySupportMode : Text
  customKernel : Bool
  kernelArch : Text
  setupVirtualMap : Bool
  rebuildAppleMemoryMap : Bool
  syncRuntimePermissions : Bool
  enableWriteUnprotector : Bool
  requestBootVarRouting : Bool
  minKernel : Text
  bootArgs : Text

/-- A string at a path. -/
def getStr (d : Plist) (p : List String) : Option Text :=
  match d.get p with
  | some (.str s) => some s
  | _ => none

theorem getStr_eq_some {d : Plist} {p : List String} {x : Text} :
    getStr d p = some x ↔ d.get p = some (.str x) := by
  unfold getStr
  split
  · next y hy => rw [hy]; simp
  · next hno =>
    refine ⟨fun h => ?_, fun h => absurd h (hno x)⟩
    cases h

/-- A condition at a path. -/
def getBool (d : Plist) (p : List String) : Option Bool := (d.get p).map truthy

/-- A list at a path. -/
def getArray (d : Plist) (p : List String) : Option (List Plist) :=
  match d.get p with
  | some (.array xs) => some xs
  | _ => none

/-- What a loop over a value runs through, if every item has to be a dictionary. -/
def items : Plist → Option (List Plist)
  | .array xs => some xs
  | .dict [] | .str [] | .data [] => some []
  | _ => none

/-- A list at a path, to the loops over it. -/
def getItems (d : Plist) (p : List String) : Option (List Plist) := (d.get p).bind items

/-- A value that is read only where it is needed, and then has to be there. -/
def readIf {α : Type} (needed : Bool) (default : α) (x : Option α) : Option α :=
  if needed then x else some (x.getD default)

@[simp] theorem readIf_some {α : Type} (needed : Bool) (default x : α) :
    readIf needed default (some x) = some x := by
  cases needed <;> rfl

/-- `entry.get("Enabled")`, which asks for a dictionary. -/
def isEnabled : Plist → Option Bool
  | .dict kvs => some ((getBool (.dict kvs) ["Enabled"]).getD false)
  | _ => none

/-- What is read of an entry; the other keys of a disabled one are not. -/
def readPathEntry (d : Plist) : Option PathEntry := do
  if ← isEnabled d then
    return ⟨true, ← getStr d ["Path"]⟩
  else
    return ⟨false, []⟩

/-- `entry.get("ExecutablePath", "")`, where a value that is not empty has to be a string. -/
def readExecutablePath (d : Plist) : Option Text :=
  match d.get ["ExecutablePath"] with
  | some (.str s) => some s
  | some x => if truthy x then none else some []
  | none => some []

/-- What is read of a kext. -/
def readKextEntry (d : Plist) : Option KextEntry := do
  if ← isEnabled d then
    return ⟨true, ← getStr d ["BundlePath"], ← getStr d ["PlistPath"], ← readExecutablePath d⟩
  else
    return ⟨false, [], [], []⟩

/-- What is read of the configuration. -/
def readConfig (config : Plist) : Option OcConfig := do
  let drivers ← (← getItems config ["UEFI", "Drivers"]).mapM readPathEntry
  let ps2 := decide (txt "Ps2KeyboardDxe.efi" ∈ (drivers.filter (·.enabled)).map (·.path))
  let kernelArch ← getStr config ["Kernel", "Scheme", "KernelArch"]
  let minKernel ← getStr config ["Kernel", "Emulate", "MinKernel"]
  let leopard := decide (txt "9." <+: minKernel)
  let _ ← config.get ["Booter", "Quirks"]
  return {
    acpi := ← (← getItems config ["ACPI", "Add"]).mapM readPathEntry
    kexts := ← (← getItems config ["Kernel", "Add"]).mapM readKextEntry
    drivers := drivers
    tools := ← (← getItems config ["Misc", "Tools"]).mapM readPathEntry
    keySupport := ← readIf ps2 false (getBool config ["UEFI", "Input", "KeySupport"])
    keySupportMode := ← readIf ps2 [] (getStr config ["UEFI", "Input", "KeySupportMode"])
    customKernel := ← getBool config ["Kernel", "Scheme", "CustomKernel"]
    kernelArch := kernelArch
    setupVirtualMap := ← readIf (txt "i386" <+: kernelArch) false
      (getBool config ["Booter", "Quirks", "SetupVirtualMap"])
    rebuildAppleMemoryMap := ← readIf leopard false
      (getBool config ["Booter", "Quirks", "RebuildAppleMemoryMap"])
    syncRuntimePermissions := ← readIf leopard false
      (getBool config ["Booter", "Quirks", "SyncRuntimePermissions"])
    enableWriteUnprotector := ← readIf leopard false
      (getBool config ["Booter", "Quirks", "EnableWriteUnprotector"])
    requestBootVarRouting := ← getBool config ["UEFI", "Quirks", "RequestBootVarRouting"]
    minKernel := minKernel
    bootArgs := ← readIf leopard [] (getStr config ["NVRAM", "Add", appleNvram, "boot-args"]) }

/-! ### The checks -/

/-- A text in a message. -/
def str (t : Text) : String := String.ofList t

/-- White space to `str.split()`. -/
def isSpace (c : Char) : Bool :=
  c ∈ [' ', '\t', '\n', '\r', '\x0b', '\x0c', '\x1c', '\x1d', '\x1e', '\x1f', '\u0085', '\u00a0',
    '\u1680', '\u2000', '\u2001', '\u2002', '\u2003', '\u2004', '\u2005', '\u2006', '\u2007',
    '\u2008', '\u2009', '\u200a', '\u2028', '\u2029', '\u202f', '\u205f', '\u3000']

/-- `str.split()`. -/
def splitWords (t : Text) : List Text := (t.splitOnP isSpace).filter (· ≠ [])

/-- `bytes.strip()`. -/
def stripBytes (b : Bytes) : Bytes :=
  let isBlank : UInt8 → Bool := fun x => x ∈ [9, 10, 11, 12, 13, 32]
  ((b.dropWhile isBlank).reverse.dropWhile isBlank).reverse

/-- A literal of bytes. -/
def ascii (s : String) : Bytes := s.toList.map fun c => c.toNat.toUInt8

/-- A file of a subdirectory of the tree. -/
def subPath (ocRoot : List Text) (dir : String) (path : Text) : PurePath :=
  ((PurePath.ofPlace ocRoot).join (component dir)).join (.parse path)

/-- `oc_root.parent.parent`. -/
def espRoot (ocRoot : List Text) : List Text := ocRoot.dropLast.dropLast

section

variable (load : Bytes → Option Info) (t : Tree) (ocRoot : List Text)

/-- Enabled entries without their file. -/
def missingFiles (dir message : String) (es : List PathEntry) : List String :=
  (es.filter fun e => e.enabled && !t.isFile (subPath ocRoot dir e.path)).map
    fun e => message ++ str e.path

/-- What the pass over `Kernel/Add` collects. -/
structure KextScan where
  bundleIds : List (Text × Text)
  dependencySets : List (Text × List Text)
  errors : List String

/-- `fail`. -/
def KextScan.fail (s : KextScan) (message : String) : KextScan :=
  { s with errors := s.errors ++ [message] }

/-- The bundle of an entry. -/
def KextEntry.bundle (e : KextEntry) : PurePath := subPath ocRoot "Kexts" e.bundlePath

/-- The `Info.plist` of an entry. -/
def KextEntry.plist (e : KextEntry) : PurePath := (e.bundle ocRoot).join (.parse e.plistPath)

/-- The executable of an entry. -/
def KextEntry.executable (e : KextEntry) : PurePath :=
  (e.bundle ocRoot).join (.parse e.executablePath)

/-- The identifier is recorded for its first owner. -/
def KextScan.identify (s : KextScan) (bundlePath identifier : Text) : KextScan :=
  if identifier = [] then s.fail ("missing CFBundleIdentifier: " ++ str bundlePath)
  else
    match s.bundleIds.lookup identifier with
    | some owner => s.fail ("duplicate bundle id " ++ str identifier ++ ": " ++ str owner ++
        " and " ++ str bundlePath)
    | none => { s with bundleIds := s.bundleIds ++ [(identifier, bundlePath)] }

/-- The rest of the checks of a bundle whose `Info.plist` was read. -/
def KextScan.inspect (s : KextScan) (e : KextEntry) (info : Info) : KextScan :=
  let s := s.identify e.bundlePath (info.identifier.getD [])
  let s := { s with dependencySets := s.dependencySets ++ [(e.bundlePath, info.libraries)] }
  if e.executablePath ≠ [] ∧ !t.isFile (e.executable ocRoot) then
    s.fail ("missing kext executable: " ++ str e.bundlePath ++ "/" ++ str e.executablePath)
  else s

/-- One turn of the loop over `Kernel/Add`; an `Info.plist` that cannot be parsed raises. -/
def scanKext (s : KextScan) (e : KextEntry) : Option KextScan :=
  if !e.enabled then some s
  else if !t.isDir (e.bundle ocRoot) then
    some (s.fail ("missing Kernel/Add bundle: " ++ str e.bundlePath))
  else if !t.isFile (e.plist ocRoot) then
    some (s.fail ("missing kext plist: " ++ str e.bundlePath ++ "/" ++ str e.plistPath))
  else (loadInfo load t (e.plist ocRoot)).map fun info => s.inspect t ocRoot e info

/-- `dependency.startswith("com.apple.")`. -/
def isApple (dependency : Text) : Bool := txt "com.apple." <+: dependency

/-- The second pass: dependencies on kexts that are not there. -/
def KextScan.unsatisfied (s : KextScan) : List String :=
  s.dependencySets.flatMap fun d =>
    (d.2.filter fun dependency => !isApple dependency && dependency ∉ s.bundleIds.map Prod.fst).map
      fun dependency => "unsatisfied non-Apple dependency " ++ str dependency ++ " for " ++ str d.1

/-- One turn of the loop over `UEFI/Drivers`, with `seen_drivers`. -/
def scanDriver (s : List Text × List String) (e : PathEntry) : List Text × List String :=
  if !e.enabled then s
  else
    (s.1.insert e.path, s.2 ++
      (if e.path ∈ s.1 then ["duplicate UEFI driver: " ++ str e.path] else []) ++
      (if t.isFile (subPath ocRoot "Drivers" e.path) then []
        else ["missing UEFI/Drivers file: " ++ str e.path]))

/-- The paths of the enabled drivers. -/
def OcConfig.seenDrivers (c : OcConfig) : List Text :=
  (c.drivers.filter (·.enabled)).map (·.path)

/-- The rules for the PS/2 keyboard. -/
def ps2Errors (seen : List Text) (c : OcConfig) : List String :=
  if txt "Ps2KeyboardDxe.efi" ∈ seen then
    (if c.keySupport then [] else ["Ps2KeyboardDxe requires UEFI/Input/KeySupport"]) ++
    (if c.keySupportMode = txt "V1" then []
      else ["Aspire 4310 PS/2 input requires KeySupportMode V1"])
  else []

/-- What is wrong with a metadata file; reading a directory raises. -/
def checkMetadata (dir : List Text) (name content : String) : Option (List String) :=
  match t.node (dir ++ [txt name]) with
  | some (.file b) => some (if stripBytes b = ascii content then []
      else [str (PurePath.ofPlace (dir ++ [txt name])).toText ++ " must contain " ++ content])
  | _ => none

/-- The metadata files of one directory: the tree with them, and what is wrong with them. -/
def restoreMetadata (dir : List Text) : Tree × Option (List String) :=
  match t.makeDirs [] dir with
  | none => (t, none)
  | some t =>
    let t := (t.ensureFile dir (txt ".contentFlavour") (ascii "OpenCore")).ensureFile dir
      (txt ".contentVisibility") (ascii "Disabled")
    (t, do return (← checkMetadata t dir ".contentFlavour" "OpenCore") ++
      (← checkMetadata t dir ".contentVisibility" "Disabled"))

/-- `CustomKernel` needs a file in `Kernels`. -/
def customKernelErrors (c : OcConfig) : List String :=
  let kernels := espRoot ocRoot ++ [txt "Kernels"]
  if c.customKernel ∧ ¬ t.entries.any fun e => e.1.dropLast = kernels ∧ e.2 ≠ .dir then
    ["CustomKernel is enabled but ESP/Kernels has no artifact"]
  else []

/-- The rules for `KernelArch`, the `Booter` and Leopard. -/
def bootErrors (seen : List Text) (c : OcConfig) : List String :=
  let openRuntime := txt "OpenRuntime.efi" ∈ seen
  (if txt "i386" <+: c.kernelArch ∧ c.setupVirtualMap then
    ["SetupVirtualMap is incompatible with 32-bit kernels"] else []) ++
  (if c.requestBootVarRouting then ["OpenDuet must not enable RequestBootVarRouting"] else []) ++
  if txt "9." <+: c.minKernel then
    let bootArgs := splitWords c.bootArgs
    (if c.kernelArch ≠ txt "i386-user32" then ["Leopard must use KernelArch=i386-user32"] else []) ++
    (if txt "arch=i386" ∈ bootArgs then ["Leopard must let KernelArch supply arch=i386"] else []) ++
    (if txt "-legacy" ∈ bootArgs then ["Leopard must let KernelArch supply -legacy"] else []) ++
    (if txt "cpus=1" ∉ bootArgs then ["Leopard boot-args must contain cpus=1"] else []) ++
    (if c.rebuildAppleMemoryMap then ["Leopard cannot use the MAT-split runtime memory map"]
      else []) ++
    (if c.syncRuntimePermissions then ["Leopard cannot use MAT runtime permission syncing"]
      else []) ++
    (if openRuntime ∧ ¬ c.enableWriteUnprotector then
      ["Leopard OpenRuntime requires the legacy write-unprotect path"] else []) ++
    (if ¬ openRuntime ∧ c.enableWriteUnprotector then
      ["Runtime-free Leopard must not enable the OpenRuntime write-unprotect path"] else [])
  else []

/-- `main`: the tree it leaves, and the errors it prints unless it ends with an exception. -/
def validate (c : OcConfig) : Tree × Option (List String) :=
  match c.kexts.foldlM (scanKext load t ocRoot) ⟨[], [], []⟩ with
  | none => (t, none)
  | some scan =>
    let drivers := c.drivers.foldl (scanDriver t ocRoot) ([], [])
    let first := restoreMetadata t ocRoot
    match first.2 with
    | none => (first.1, none)
    | some metadata =>
      let second := restoreMetadata first.1 (espRoot ocRoot ++ [txt "EFI", txt "BOOT"])
      (second.1, second.2.map fun metadata' =>
        missingFiles t ocRoot "ACPI" "missing ACPI/Add file: " c.acpi ++
        scan.errors ++ scan.unsatisfied ++ drivers.2 ++ ps2Errors drivers.1 c ++
        metadata ++ metadata' ++
        missingFiles second.1 ocRoot "Tools" "missing Misc/Tools file: " c.tools ++
        customKernelErrors second.1 ocRoot c ++ bootErrors drivers.1 c)

/-- The program exits with status 0. -/
def accepts (c : OcConfig) : Prop := (validate load t ocRoot c).2 = some []

instance (c : OcConfig) : Decidable (accepts load t ocRoot c) := inferInstanceAs (Decidable (_ = _))

end

end Config

end InstallKit
