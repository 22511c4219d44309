import InstallKit.Mac.ProtectedVolumes
import InstallKit.Mac.SafeRemove
import InstallKit.Shell.Grants

/-!
# Making a USB disk on macOS

`run_make_usb` and `run_update_efi` of `prepare_aspire4310_macos.sh`, and `run_make_usb` of
`prepare_asus_1215p_snowleopard.sh`.  They build, look at the disk, ask for a phrase, and write.
The build and the guards are the scripts of `SafeRemove` and `ProtectedVolumes`, over more commands.
-/

namespace InstallKit

namespace MakeUsb

open Sources Shell Stmt
open Mac (Disk firstValue diskPartitionSlices)
open Mac.SafeRemove (OsProfile KernelMode Bootloader Stage buildRoot)

/-! ### The commands -/

inductive Cmd
  /-- A command of a build. -/
  | build (c : Mac.SafeRemove.Cmd)
  /-- `diskutil info` and `diskutil list` -/
  | look (c : Mac.Cmd)
  /-- `[[ -e path ]]` -/
  | present (path : Text)
  /-- `[[ -f path ]]` -/
  | isFile (path : Text)
  /-- `[[ -d path ]]` -/
  | isDir (path : Text)
  /-- `IFS= read -r answer` -/
  | readLine
  /-- `date '+%Y%m%d-%H%M%S'` -/
  | date
  /-- `hdiutil attach -nobrowse -readonly image` -/
  | attach (image : Text)
  /-- `diskutil info -plist slice | plutil -extract VolumeUUID raw -o - -` -/
  | volumeUuid (slice : Text)
  /-- `sudo diskutil partitionDisk disk GPT JHFS+ INSTALLER R` -/
  | partitionDisk (disk : Text)
  /-- `sudo asr restore --source source --target target --erase --noprompt` -/
  | restore (source target : Text)
  /-- `sudo asr imagescan --source image` -/
  | imagescan (image : Text)
  /-- `sudo diskutil unmount slice` -/
  | unmount (slice : Text)
  /-- `diskutil mount slice`, with `sudo` or without it -/
  | mount (slice : Text)
  /-- `sudo touch path` -/
  | touch (path : Text)
  /-- `sudo rm -f -- path` -/
  | removeFile (path : Text)
  /-- `mkdir -p dir` -/
  | mkdir (dir : Text)
  /-- `ditto source target`, for a backup -/
  | ditto (source target : Text)
  /-- `cp -p source target`, for a backup -/
  | copy (source target : Text)
  /-- `sudo rm -rf -- paths` -/
  | removeTree (paths : List Text)
  /-- `sudo ditto source target` -/
  | sudoDitto (source target : Text)
  /-- `sudo cp -p source target` -/
  | sudoCopy (source target : Text)
  /-- `chmod +x tools` -/
  | chmod (tools : List Text)
  /-- `printf '%s\n' number | tool` -/
  | bootInstall (tool number : Text)
  /-- `sync` -/
  | sync

/-- The command writes to a disk, or to the image of the installer. -/
def Cmd.Writes : Cmd → Prop
  | .look c => c.Destructive
  | .partitionDisk _ | .restore _ _ | .imagescan _ | .unmount _ | .mount _ | .touch _
  | .removeFile _ | .removeTree _ | .sudoDitto _ _ | .sudoCopy _ _ | .bootInstall _ _ => True
  | _ => False

/-- The command does not. -/
def Cmd.Spares (c : Cmd) : Prop := ¬ c.Writes

/-- The command makes no copy either. -/
def Cmd.Idle : Cmd → Prop
  | .build _ | .present _ | .isFile _ | .isDir _ | .readLine | .date | .attach _ | .volumeUuid _
  | .mkdir _ | .chmod _ | .sync => True
  | .look c => ¬ c.Destructive
  | _ => False

theorem Cmd.Idle.spares {c : Cmd} (h : c.Idle) : c.Spares := by
  cases c <;> first | exact h | exact h.elim | exact id

section Idle

variable {path : Text} {tools : List Text} {b : Mac.SafeRemove.Cmd}

@[simp] theorem idle_build : (Cmd.build b).Idle := trivial

@[simp] theorem idle_look {c : Mac.Cmd} : (Cmd.look c).Idle ↔ ¬ c.Destructive := Iff.rfl

@[simp] theorem idle_present : (Cmd.present path).Idle := trivial

@[simp] theorem idle_isFile : (Cmd.isFile path).Idle := trivial

@[simp] theorem idle_isDir : (Cmd.isDir path).Idle := trivial

@[simp] theorem idle_readLine : Cmd.readLine.Idle := trivial

@[simp] theorem idle_date : Cmd.date.Idle := trivial

@[simp] theorem idle_attach : (Cmd.attach path).Idle := trivial

@[simp] theorem idle_volumeUuid : (Cmd.volumeUuid path).Idle := trivial

@[simp] theorem idle_chmod : (Cmd.chmod tools).Idle := trivial

@[simp] theorem idle_sync : Cmd.sync.Idle := trivial

end Idle

abbrev Sh (α : Type) := Script Unit Cmd Stmt.Reply α

/-- What a guard sees of a reply. -/
def seen (r : Stmt.Reply) : Mac.Reply := ⟨r.status, lines r.out⟩

/-- A guard in these scripts. -/
def guard {α : Type} (p : Mac.Sh α) : Sh α := relay .look seen p

/-- A part of the build in these scripts. -/
def building {α : Type} (p : Mac.SafeRemove.Sh α) : Sh α := relay .build (·.status) p

/-! ### The texts -/

/-- `^/dev/disk[0-9]+$` -/
def isWholeDisk (t : Text) : Bool :=
  (txt "/dev/disk").isPrefixOf t && t.drop 9 ≠ [] && (t.drop 9).all Char.isDigit

/-- `^/dev/disk[0-9]+s[0-9]+$` -/
def isSliceName (t : Text) : Bool := (txt "/dev/").isPrefixOf t && Mac.isSlice (t.drop 5)

/-- `${DISK#/dev/disk}` -/
def diskNumber (disk : Text) : Text :=
  if (txt "/dev/disk").isPrefixOf disk then disk.drop 9 else disk

/-- `${DISK}s1` -/
def bootPart (disk : Text) : Text := disk ++ txt "s1"

/-- `${DISK}s2` -/
def installerPart (disk : Text) : Text := disk ++ txt "s2"

/-- `basename` of a path that does not end in a slash. -/
def basename (t : Text) : Text := t.rtakeWhile (· ≠ '/')

/-- Some line has `key` and, later on, `value`. -/
def grepAfter (key value : Text) (ls : List Text) : Bool :=
  ls.any fun l => l.tails.any fun t => key.isPrefixOf t && decide (value <:+: t.drop key.length)

/-- `File System Personality:.*(MS-DOS FAT32|FAT32)|Type \(Bundle\):.*msdos|EFI System Partition` -/
def isFatOrEfi (info : List Text) : Bool :=
  grepAfter (txt "File System Personality:") (txt "MS-DOS FAT32") info ||
    grepAfter (txt "File System Personality:") (txt "FAT32") info ||
    grepAfter (txt "Type (Bundle):") (txt "msdos") info ||
    info.any fun l => decide (txt "EFI System Partition" <:+: l)

/-- The mount point that the scripts read. -/
def mountPointOf (r : Stmt.Reply) : Text := firstValue (txt "Mount Point") (lines r.out)

/-- `/Volumes/?*` -/
def underVolumes (path : Text) : Bool := (txt "/Volumes/").isPrefixOf path && 9 < path.length

/-- `awk '/\/Volumes\// {print substr($0,index($0,"/Volumes/")); exit}'` -/
def attachedVolume (out : Text) : Text :=
  ((lines out).findSome? fun l => l.tails.find? fun t => (txt "/Volumes/").isPrefixOf t).getD []

/-- `*.dmg|*.iso` of the name in lower case. -/
def isImage (source : Text) : Bool :=
  (txt ".dmg").isSuffixOf (source.map Char.toLower) ||
    (txt ".iso").isSuffixOf (source.map Char.toLower)

def str (t : Text) : String := String.ofList t

/-! ### `prepare_aspire4310_macos.sh` -/

/-- `USB_LAYOUT` -/
inductive Layout
  | fresh
  | preserve
  deriving DecidableEq

/-- The options, and what the configuration sets. -/
structure Settings where
  /-- `RETAIL` -/
  retail : Text
  layout : Layout
  bootSlice : Text
  installerSlice : Text
  protectedVolumes : List Text
  allowInternal : Bool
  dryRun : Bool
  rootDir : Text
  target : Text
  os : OsProfile
  kernel : KernelMode
  loader : Bootloader
  /-- `OC_ARCH_NAME` -/
  archName : Text
  /-- `OC_CACHE_ROOT` -/
  ocCacheRoot : Text
  /-- `$$` -/
  pid : Text

/-- `validate_disk_identifier` -/
def validateDiskIdentifier (disk : Text) : Sh Unit :=
  orDie (isWholeDisk disk) "Whole-disk identifier required, e.g. /dev/disk2 (not a slice)."

/-- `validate_slice_identifier` -/
def validateSliceIdentifier (slice : Text) : Sh Unit :=
  orDie (isSliceName slice) "Partition identifier required, e.g. /dev/disk2s1."

/-- The first of the paths that exists. -/
def firstPresent : List Text → Sh Text
  | [] => pure []
  | path :: rest => do
    if ← holds (.present path) then pure path else firstPresent rest

/-- The images in `INPUT_DIR` that `auto_retail_source` looks for. -/
def retailImages : OsProfile → List Text
  | .leopard => [txt "/input/Leopard-Retail.dmg", txt "/input/Leopard-Retail.iso"]
  | .snowleopard => [txt "/input/SnowLeopard-Retail.dmg", txt "/input/SnowLeopard-Retail.iso"]

/-- `auto_retail_source` -/
def autoRetailSource (rootDir : Text) (os : OsProfile) : Sh Text :=
  firstPresent ((retailImages os).map (rootDir ++ ·))

/-- `x="$(disk_partition_slices "$DISK")"`, where `pipefail` sees a failed `diskutil` and a `grep`
that finds nothing. -/
def captureSlices (disk : Text) : Sh (List Text) := do
  let listing ← glance (.look (.list disk))
  if diskPartitionSlices (lines listing.out) = [] then .exit 1 ""
  else if listing.status ≠ 0 then .exit listing.status ""
  else pure (diskPartitionSlices (lines listing.out))

/-- `assert_preserve_layout` -/
def assertPreserveLayout (u : Settings) (disk : Text) : Sh Unit := do
  validateSliceIdentifier u.bootSlice
  validateSliceIdentifier u.installerSlice
  orDie (u.bootSlice = bootPart disk)
    ("Preserve layout requires the OpenDuet boot partition to be " ++ str (bootPart disk) ++ ".")
  orDie (u.installerSlice = installerPart disk)
    ("Preserve layout requires the replaceable installer partition to be " ++
      str (installerPart disk) ++ ".")
  orDie (u.bootSlice ≠ u.installerSlice) "Boot and installer slices must differ."
  require (.look (.info u.bootSlice)) ("Boot slice does not exist: " ++ str u.bootSlice)
  require (.look (.info u.installerSlice))
    ("Installer slice does not exist: " ++ str u.installerSlice)
  let slices ← captureSlices disk
  orDie (slices.length = 2)
    ("Preserve layout is intentionally limited to exactly two partitions; found " ++
      toString slices.length ++ " on " ++ str disk ++ ".")
  let bootInfo ← capture (.look (.info u.bootSlice))
  orDie (isFatOrEfi (lines bootInfo))
    ("The preserved first partition must be FAT32/EFI: " ++ str u.bootSlice)

/-- `assert_boot_slice` -/
def assertBootSlice (u : Settings) (disk : Text) : Sh Unit := do
  validateSliceIdentifier u.bootSlice
  orDie (u.bootSlice = bootPart disk)
    ("EFI update requires the OpenDuet boot partition to be " ++ str (bootPart disk) ++ ".")
  let bootInfo ← glance (.look (.info u.bootSlice))
  orDie (bootInfo.status = 0) ("Boot slice does not exist: " ++ str u.bootSlice)
  orDie (isFatOrEfi (lines bootInfo.out))
    ("The OpenDuet boot partition must be FAT32/EFI: " ++ str u.bootSlice)

/-- What `confirm_erase`, `confirm_preserve_replace` and `confirm_efi_update` have in common. -/
def confirm (expected : Text) (message : String) : Sh Unit := do
  let answer ← capture .readLine
  orDie (answer = expected) message

/-- What `confirm_erase` wants to read. -/
def erasePhrase (disk : Text) : Text := txt "ERASE " ++ disk

/-- What `confirm_preserve_replace` wants to read. -/
def replacePhrase (u : Settings) : Text :=
  txt "REPLACE " ++ u.installerSlice ++ txt " AND UPDATE " ++ u.bootSlice

/-- What `confirm_efi_update` wants to read. -/
def updatePhrase (u : Settings) (disk : Text) : Text :=
  txt "UPDATE " ++ u.bootSlice ++ txt " ON " ++ disk

/-- `confirm_erase` -/
def confirmErase (disk : Text) : Sh Unit :=
  confirm (erasePhrase disk) "Confirmation mismatch; nothing was erased."

/-- `confirm_preserve_replace` -/
def confirmPreserveReplace (u : Settings) : Sh Unit :=
  confirm (replacePhrase u) "Confirmation mismatch; nothing was erased."

/-- `confirm_efi_update` -/
def confirmEfiUpdate (u : Settings) (disk : Text) : Sh Unit :=
  confirm (updatePhrase u disk) "Confirmation mismatch; nothing was changed."

/-- `write_probe` -/
def writeProbe (mountPoint pid : Text) : Text :=
  mountPoint ++ txt "/.aspire4310-write-test." ++ pid

/-- `mount_boot_slice_writable` -/
def mountBootSliceWritable (slice pid : Text) : Sh Text := do
  let info ← glance (.look (.info slice))
  orDie (info.status = 0) ("Cannot inspect boot slice: " ++ str slice)
  given (mountPointOf info ≠ [] && mountPointOf info ≠ txt "Not mounted") <|
    require (.unmount slice) ("Cannot unmount boot slice before writable remount: " ++ str slice)
  require (.mount slice) ("Cannot mount boot slice read-write: " ++ str slice)
  let info ← glance (.look (.info slice))
  orDie (info.status = 0) ("Cannot rediscover mounted boot slice: " ++ str slice)
  require (.isDir (mountPointOf info)) ("Boot slice did not mount: " ++ str slice)
  orDie (!(txt "Yes").isPrefixOf (firstValue (txt "Volume Read-Only") (lines info.out)))
    ("Boot slice is still mounted read-only: " ++ str slice)
  require (.touch (writeProbe (mountPointOf info) pid))
    ("Boot slice rejected a write test after remount: " ++ str slice)
  require (.removeFile (writeProbe (mountPointOf info) pid))
    ("Cannot remove boot-slice write test: " ++ str (writeProbe (mountPointOf info) pid))
  return mountPointOf info

/-- `$efi_mount/EFI` and the like. -/
def efiDir (dir : Text) : Text := dir ++ txt "/EFI"

/-- `$efi_mount/boot` and the like. -/
def bootFile (dir : Text) : Text := dir ++ txt "/boot"

/-- `backup_dir` -/
def backupDir (rootDir stamp disk : Text) : Text :=
  rootDir ++ txt "/backup/usb-" ++ stamp ++ '-' :: basename disk

/-- The copy of the tree, which has to be there afterwards. -/
def saveEfi (efiMount backup : Text) : Sh Unit := do
  exec (.ditto (efiDir efiMount) (efiDir backup))
  require (.isDir (efiDir backup)) ("Existing EFI backup failed: " ++ str backup)

/-- The copies that `replace_boot_files` makes, and the removal after them. -/
def backUp (efiMount backup : Text) : Sh Unit := do
  exec (.mkdir backup)
  let hadEfi ← holds (.isDir (efiDir efiMount))
  given hadEfi <| saveEfi efiMount backup
  let hasBoot ← holds (.isFile (bootFile efiMount))
  given hasBoot <| exec (.copy (bootFile efiMount) (bootFile backup))
  given hadEfi <| exec (.removeTree [efiDir efiMount])

/-- `[[ -d "$efi_mount/EFI" || -f "$efi_mount/boot" ]]` -/
def hasBootFiles (efiMount : Text) : Sh Bool := do
  if ← holds (.isDir (efiDir efiMount)) then pure true else holds (.isFile (bootFile efiMount))

/-- `replace_boot_files` -/
def replaceBootFiles (rootDir disk efiMount build : Text) : Sh Unit := do
  orDie (underVolumes efiMount)
    ("Refusing EFI replacement at unexpected mount point: " ++ str efiMount)
  let stamp ← glance .date
  let found ← hasBootFiles efiMount
  given found <| backUp efiMount (backupDir rootDir stamp.out disk)
  exec (.sudoDitto (efiDir (build ++ txt "/ESP")) (efiDir efiMount))
  exec (.sudoCopy (bootFile (build ++ txt "/ESP")) (bootFile efiMount))
  require (.isFile (efiMount ++ txt "/EFI/OC/config.plist"))
    "New EFI/OpenDuet copy could not be verified."
  require (.isFile (bootFile efiMount)) "New EFI/OpenDuet copy could not be verified."

/-- `attach_retail_readonly` -/
def attachRetailReadonly (image : Text) (message : String) : Sh Text := do
  let output ← capture (.attach image)
  orDie (attachedVolume output ≠ []) message
  return attachedVolume output

/-- `restore_source` -/
def attachImage (source : Text) : Sh Text :=
  if isImage source then
    attachRetailReadonly source "Could not identify read-only mounted retail volume."
  else pure source

/-- `restore_retail` -/
def restoreRetail (source target : Text) : Sh Unit := do
  let restoreSource ← attachImage source
  let restored ← holds (.restore restoreSource target)
  given (!restored) <|
    if isImage source then do
      exec (.imagescan source)
      exec (.restore source target)
    else die ("asr restore failed for mounted source: " ++ str source)

/-- `boot_tool` -/
def bootTool (ocCacheRoot archName : Text) : Text :=
  ocCacheRoot ++ txt "/Utilities/LegacyBoot/BootInstall_" ++ archName ++ txt ".tool"

/-- The end of `run_make_usb` and of `run_update_efi`. -/
def installBootSectors (ocCacheRoot archName disk : Text) : Sh Unit := do
  exec (.chmod [bootTool ocCacheRoot archName,
    ocCacheRoot ++ txt "/Utilities/LegacyBoot/BootInstallBase.sh"])
  exec (.bootInstall (bootTool ocCacheRoot archName) (diskNumber disk))
  exec .sync

/-- `build_root` -/
def deployRoot (u : Settings) : Text :=
  buildRoot u.rootDir u.target u.os (if u.kernel = .custom then .custom else .vanilla)

/-- `[[ -f "$build_root/ESP/EFI/OC/config.plist" ]] || die ...` -/
def requireBuild (u : Settings) : Sh Unit :=
  require (.isFile (deployRoot u ++ txt "/ESP/EFI/OC/config.plist"))
    ("Expected deployment build is missing: " ++ str (deployRoot u))

/-- `[[ -n "$RETAIL" ]] || RETAIL="$(auto_retail_source || true)"` -/
def chooseRetail (u : Settings) : Sh Text :=
  if u.retail ≠ [] then pure u.retail else autoRetailSource u.rootDir u.os

/-- `run_make_usb` up to the build. -/
def prepareMakeUsb (u : Settings) (disk : Text) : Sh Text := do
  building (Mac.SafeRemove.exec "require_macos_build_host")
  validateDiskIdentifier disk
  let retail ← chooseRetail u
  orDie (retail ≠ [])
    "Retail source not found; pass --retail or place the documented image in input/."
  require (.present retail)
    "Retail source not found; pass --retail or place the documented image in input/."
  building (Mac.SafeRemove.requireOpencore u.loader
    (txt ("Automated GPT USB deployment currently supports the OpenCore backend; " ++
      "Chameleon output remains a manual fallback.")))
  building (Mac.SafeRemove.loadOsProfile u.rootDir u.target u.os)
  building (Mac.SafeRemove.exec "resolve_oc_arch")
  building (Mac.SafeRemove.exec "load_current_sources")
  building (Mac.SafeRemove.runBuild u.rootDir u.target u.os u.kernel u.loader)
  requireBuild u
  return retail

/-- What `run_make_usb` asserts about the slices. -/
def assertLayout (u : Settings) (disk : Text) : Sh Unit :=
  match u.layout with
  | .preserve => do
    orDie (u.bootSlice ≠ [] && u.installerSlice ≠ [])
      "--layout preserve requires --boot-slice and --installer-slice."
    assertPreserveLayout u disk
  | .fresh =>
    orDie (u.bootSlice = [] && u.installerSlice = [])
      "--boot-slice/--installer-slice are valid only with --layout preserve."

/-- The confirmation of `run_make_usb`, and the partition map; the slices are `esp_slice` and
`installer_slice`. -/
def openDisk (u : Settings) (disk : Text) : Sh (Text × Text) :=
  match u.layout with
  | .preserve => do
    confirmPreserveReplace u
    return (u.bootSlice, u.installerSlice)
  | .fresh => do
    confirmErase disk
    exec (.partitionDisk disk)
    return (bootPart disk, installerPart disk)

/-- What `run_make_usb` writes after that. -/
def fillDisk (u : Settings) (disk retail espSlice installerSlice : Text) : Sh Unit := do
  restoreRetail retail installerSlice
  let uuid ← glance (.volumeUuid installerSlice)
  orDie (uuid.out ≠ []) "Restore completed, but installer VolumeUUID could not be rediscovered."
  require (.look (.info uuid.out))
    ("Restored installer could not be re-identified by UUID " ++ str uuid.out ++ ".")
  let efiMount ← mountBootSliceWritable espSlice u.pid
  replaceBootFiles u.rootDir disk efiMount (deployRoot u)
  installBootSectors u.ocCacheRoot u.archName disk

/-- `run_make_usb` -/
def runMakeUsb (u : Settings) (disk : Text) : Sh Unit := do
  let retail ← prepareMakeUsb u disk
  guard (Mac.assertSafeTargetDisk u.protectedVolumes u.allowInternal disk)
  assertLayout u disk
  given (!u.dryRun) do
    let slices ← openDisk u disk
    fillDisk u disk retail slices.1 slices.2

/-- `run_update_efi` up to the build. -/
def prepareUpdateEfi (u : Settings) (disk : Text) : Sh Unit := do
  building (Mac.SafeRemove.exec "require_macos_build_host")
  validateDiskIdentifier disk
  orDie (u.bootSlice ≠ []) "--update-efi requires --boot-slice /dev/diskXs1"
  orDie (u.installerSlice = []) "--update-efi does not accept --installer-slice"
  building (Mac.SafeRemove.requireOpencore u.loader
    (txt "--update-efi currently supports only OpenCore/OpenDuet"))
  building (Mac.SafeRemove.runBuild u.rootDir u.target u.os u.kernel u.loader)
  requireBuild u

/-- What `run_update_efi` writes. -/
def updateFiles (u : Settings) (disk : Text) : Sh Unit := do
  let efiMount ← mountBootSliceWritable u.bootSlice u.pid
  replaceBootFiles u.rootDir disk efiMount (deployRoot u)
  installBootSectors u.ocCacheRoot u.archName disk

/-- `run_update_efi` -/
def runUpdateEfi (u : Settings) (disk : Text) : Sh Unit := do
  prepareUpdateEfi u disk
  guard (Mac.assertSafeTargetDisk u.protectedVolumes u.allowInternal disk)
  assertBootSlice u disk
  given (!u.dryRun) do
    confirmEfiUpdate u disk
    updateFiles u disk

/-! ### The parts that leave everything as it is -/

section Calls

variable {α : Type} {u : Settings} {disk : Text}

@[simp] theorem calls_building {p : Mac.SafeRemove.Sh α} : (building p).Calls Cmd.Idle :=
  calls_relay (p.calls_true.mono fun _ _ => idle_build)

@[simp] theorem calls_assert {g : Mac.Guard} {protectedVolumes : List Text}
    {allowInternal : Bool} :
    (guard (Mac.assertSafe g protectedVolumes allowInternal disk)).Calls Cmd.Idle :=
  calls_relay Mac.calls_assertSafe

@[simp] theorem calls_firstPresent {paths : List Text} :
    (firstPresent paths).Calls Cmd.Idle := by
  induction paths with
  | nil => trivial
  | cons path paths ih => simp [firstPresent, ih]

theorem calls_prepareMakeUsb : (prepareMakeUsb u disk).Calls Cmd.Idle := by
  simp [prepareMakeUsb, requireBuild, validateDiskIdentifier, chooseRetail, autoRetailSource]

theorem calls_prepareUpdateEfi : (prepareUpdateEfi u disk).Calls Cmd.Idle := by
  simp [prepareUpdateEfi, requireBuild, validateDiskIdentifier]

@[simp] theorem calls_confirm {expected : Text} {message : String} :
    (confirm expected message).Calls Cmd.Idle := by
  simp [confirm]

theorem calls_assertPreserveLayout : (assertPreserveLayout u disk).Calls Cmd.Idle := by
  have hslices : (captureSlices disk).Calls Cmd.Idle := by
    simp [captureSlices, Mac.Cmd.Destructive]
  simp [assertPreserveLayout, validateSliceIdentifier, hslices, Mac.Cmd.Destructive]

theorem calls_assertLayout : (assertLayout u disk).Calls Cmd.Idle := by
  unfold assertLayout
  cases u.layout with
  | fresh => simp
  | preserve => simp [calls_assertPreserveLayout]

theorem calls_assertBootSlice : (assertBootSlice u disk).Calls Cmd.Idle := by
  simp [assertBootSlice, validateSliceIdentifier, Mac.Cmd.Destructive]

theorem calls_hasBootFiles {m : Text} : (hasBootFiles m).Calls Cmd.Idle := by simp [hasBootFiles]

end Calls

/-! ### `prepare_asus_1215p_snowleopard.sh` -/

namespace Asus

/-- The options. -/
structure Settings where
  /-- `RETAIL` -/
  retail : Text
  protectedVolumes : List Text
  allowInternal : Bool
  dryRun : Bool
  rootDir : Text
  /-- `OC_CACHE_ROOT` -/
  ocCacheRoot : Text

/-- `BUILD_ROOT` -/
def builtRoot (rootDir : Text) : Text :=
  rootDir ++ txt "/output/asus-eee-pc-1215p/snowleopard/opencore-custom"

/-- `validate_disk` -/
def validateDisk (disk : Text) : Sh Unit :=
  orDie (isWholeDisk disk) "Whole disk required, e.g. /dev/disk2"

/-- `restore_retail` -/
def restoreRetail (source target : Text) : Sh Unit := do
  let volume ← attachRetailReadonly source "Could not locate mounted retail volume"
  let restored ← holds (.restore volume target)
  given (!restored) do
    exec (.imagescan source)
    exec (.restore source target)

/-- `$mountp/Kernels` and the like. -/
def kernelsDir (dir : Text) : Text := dir ++ txt "/Kernels"

/-- `backup` -/
def backupDir (rootDir stamp disk : Text) : Text :=
  rootDir ++ txt "/backup/asus1215p-usb-" ++ stamp ++ '-' :: basename disk

/-- `[[ -d dir ]] && ditto dir copy || true` -/
def tryDitto (dir copy : Text) : Sh Unit := do
  let found ← holds (.isDir dir)
  given found do
    let _ ← glance (.ditto dir copy)

/-- `[[ -f file ]] && cp -p file copy || true` -/
def tryCopy (file copy : Text) : Sh Unit := do
  let found ← holds (.isFile file)
  given found do
    let _ ← glance (.copy file copy)

/-- `[[ -d "$mountp/EFI" || -d "$mountp/Kernels" || -f "$mountp/boot" ]]` -/
def anyBootFiles (mountPoint : Text) : Sh Bool := do
  if ← holds (.isDir (efiDir mountPoint)) then pure true
  else if ← holds (.isDir (kernelsDir mountPoint)) then pure true
  else holds (.isFile (bootFile mountPoint))

/-- The copies that `install_efi` makes, and the removal after them. -/
def backUp (mountPoint backup : Text) : Sh Unit := do
  exec (.mkdir backup)
  tryDitto (efiDir mountPoint) (efiDir backup)
  tryDitto (kernelsDir mountPoint) (kernelsDir backup)
  tryCopy (bootFile mountPoint) (bootFile backup)
  exec (.removeTree [efiDir mountPoint, kernelsDir mountPoint])

/-- `mountp="$(diskutil info "$slice" | awk ...)"` -/
def captureMountPoint (slice : Text) : Sh Text := do
  let info ← capture (.look (.info slice))
  return firstValue (txt "Mount Point") (lines info)

/-- `install_efi` -/
def installEfi (u : Settings) (disk slice : Text) : Sh Unit := do
  let _ ← glance (.mount slice)
  let mountPoint ← captureMountPoint slice
  require (.isDir mountPoint) "EFI mount point not found"
  let found ← anyBootFiles mountPoint
  given found do
    let stamp ← glance .date
    backUp mountPoint (backupDir u.rootDir stamp.out disk)
  exec (.sudoDitto (efiDir (builtRoot u.rootDir ++ txt "/ESP")) (efiDir mountPoint))
  exec (.sudoDitto (kernelsDir (builtRoot u.rootDir ++ txt "/ESP")) (kernelsDir mountPoint))
  exec (.sudoCopy (bootFile (builtRoot u.rootDir ++ txt "/ESP")) (bootFile mountPoint))
  require (.isFile (mountPoint ++ txt "/EFI/OC/config.plist"))
    "EFI/custom-kernel copy verification failed"
  require (.isFile (mountPoint ++ txt "/EFI/BOOT/BOOTIA32.efi"))
    "EFI/custom-kernel copy verification failed"
  require (.isFile (mountPoint ++ txt "/Kernels/mach_kernel"))
    "EFI/custom-kernel copy verification failed"
  installBootSectors u.ocCacheRoot (txt "IA32") disk

/-- The image of the installer, named or found. -/
def chooseRetail (u : Settings) : Sh Text :=
  if u.retail ≠ [] then pure u.retail else
    firstPresent [u.rootDir ++ txt "/input/SnowLeopard-Retail.iso",
      u.rootDir ++ txt "/input/SnowLeopard-Retail.dmg"]

/-- `run_make_usb` up to the build, which is one command here. -/
def prepareMakeUsb (u : Settings) (disk : Text) : Sh Text := do
  building (Mac.SafeRemove.exec "require_macos")
  orDie (disk ≠ []) "--make-usb requires --disk"
  validateDisk disk
  let retail ← chooseRetail u
  orDie (retail ≠ []) "Pass --retail /path/to/10.6.3 retail ISO/DMG"
  require (.present retail) "Pass --retail /path/to/10.6.3 retail ISO/DMG"
  building (Mac.SafeRemove.exec "run_build")
  return retail

/-- What `run_make_usb` writes. -/
def writeDisk (u : Settings) (disk retail : Text) : Sh Unit := do
  exec (.partitionDisk disk)
  restoreRetail retail (installerPart disk)
  installEfi u disk (bootPart disk)

/-- `run_make_usb` -/
def runMakeUsb (u : Settings) (disk : Text) : Sh Unit := do
  let retail ← prepareMakeUsb u disk
  guard (Mac.assertSafeDisk u.protectedVolumes u.allowInternal disk)
  given (!u.dryRun) do
    confirm (erasePhrase disk) "Confirmation mismatch; nothing erased"
    writeDisk u disk retail

end Asus

end MakeUsb

end InstallKit
