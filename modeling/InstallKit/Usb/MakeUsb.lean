import InstallKit.Usb.Common
import Mathlib.Algebra.Group.Nat.Defs

/-!
# `linux_make_usb_legacy.sh`

The writer for legacy installer USBs: `--make-usb` partitions the disk, restores the retail
installer as a block clone or file by file, replaces its kernel and installs OpenCore;
`--update-efi` only replaces the EFI tree of an existing disk; `--verify`, `--inspect-retail` and
`--list-disks` write nothing.
-/

namespace InstallKit

namespace Usb

open Shell

namespace MakeUsb

/-- The operations. -/
inductive Mode
  | makeUsb | updateEfi | verify | inspectRetail | listDisks
  deriving DecidableEq, Repr

/-- The operation as messages name it. -/
def Mode.word : Mode → String
  | makeUsb => "make-usb"
  | updateEfi => "update-efi"
  | verify => "verify"
  | inspectRetail => "inspect-retail"
  | listDisks => "list-disks"

/-- `--restore-mode`. -/
inductive RestoreMode
  | auto | block | files
  deriving DecidableEq, Repr

/-- The command line; a missing option is the empty string. -/
structure Args where
  /-- The operation. -/
  mode : Mode
  /-- `--disk`. -/
  disk : String
  /-- `--retail`. -/
  retail : String
  /-- `--build-root`. -/
  buildRoot : String
  /-- `--amd-kernel`. -/
  amdKernel : String
  /-- `--esp-part`. -/
  espPart : String
  /-- `--installer-part`. -/
  installerPart : String
  /-- `--expected-kernel-version`. -/
  expectedKernelVersion : String
  /-- `--restore-mode`. -/
  restoreMode : RestoreMode
  /-- `--label`. -/
  installerLabel : String
  /-- `--allow-internal`. -/
  allowInternal : Bool
  /-- `--dry-run`. -/
  dryRun : Bool
  deriving DecidableEq, Repr

/-- The trap handler of `EXIT`, `INT` and `TERM`. -/
def cleanup (v : Vars) : Sh Unit := do
  releaseMount v.espMount
  releaseMount v.installerMount
  releaseDir v.sourceMount
  detachLoop v.sourceLoop
  removeTemp v.tempDir

/-- `TEMP_DIR="$(mktemp -d ...)"`, unless it is set already. -/
def makeTempDir (tempDir : Bool) : Sh Bool := do
  if tempDir then return true
  let ok := (← Script.cmd (.mktemp .tmpDir)).ok
  Script.setVar fun v => { v with tempDir := ok }
  return ok

/-- `prepare_temp`. -/
def prepareTemp (tempDir : Bool) : Sh Bool := do
  let tempDir ← makeTempDir tempDir
  Script.setVar fun v => { v with sourceMount := some (tempPath tempDir "source") }
  Script.setVar fun v => { v with installerMount := some (tempPath tempDir "installer") }
  exec (.mkdir [tempPath tempDir "source", tempPath tempDir "installer"])
  return tempDir

/-- `source_has_installer_markers`. -/
def sourceHasInstallerMarkers (root : Loc) : Sh Bool := do
  if ← holds (.test .f (.sub root "System/Library/CoreServices/boot.efi")) then return true
  holds (.test .d (.sub root "System/Installation"))

/-! ### The retail source -/

/-- What `prepare_source_image` finds out about the retail source. -/
structure Source where
  /-- `SOURCE_MOUNT`. -/
  mount : Loc
  /-- `SOURCE_FSTYPE`. -/
  fstype : String
  /-- `SOURCE_BLOCK_DEVICE`, or the empty string. -/
  blockDevice : String
  deriving DecidableEq, Repr

/-- `hfsplus|hfs`. -/
def isHfs (fstype : String) : Bool := fstype = "hfsplus" || fstype = "hfs"

/-- `iso9660|udf`. -/
def isOptical (fstype : String) : Bool := fstype = "iso9660" || fstype = "udf"

/-- `try_source_candidate`, always called as a condition. -/
def trySourceCandidate (mount : Loc) (candidate fstype : String) : Sh (Option Source) := do
  tryCmd (.umount mount true)
  if (← Script.attempt (.mount "-o ro" false candidate mount)).ok then
    if ← sourceHasInstallerMarkers mount then
      return some ⟨mount, fstype, if isHfs fstype then candidate else ""⟩
    tryCmd (.umount mount true)
    return none
  return none

/-- `read -r candidate fstype` on one line of `lsblk -rno PATH,FSTYPE`. -/
def readPair (line : String) : String × String :=
  let cs := line.toList.dropWhile (· = ' ')
  (String.ofList (cs.takeWhile (· ≠ ' ')),
    String.ofList ((cs.dropWhile (· ≠ ' ')).dropWhile (· = ' ')))

/-- One of the two loops over the candidates inside the image. -/
def findCandidate (mount : Loc) (want : String → Bool) : List String → Sh (Option Source)
  | [] => return none
  | line :: rest => do
    let (candidate, fstype) := readPair line
    if candidate = "" then findCandidate mount want rest
    else if !want fstype then findCandidate mount want rest
    else match ← trySourceCandidate mount candidate fstype with
      | some src => return some src
      | none => findCandidate mount want rest

/-- `${source##*.}` in lower case. -/
def extension (source : String) : String :=
  String.ofList ((source.toList.reverse.takeWhile (· ≠ '.')).reverse.map Char.toLower)

/-- The raw image of a compressed DMG. -/
def convertImage (source : String) (tempDir : Bool) : Sh Loc := do
  if extension source ≠ "dmg" then return .host source
  require (.haveCmd "dmg2img") "Compressed DMG support requires dmg2img"
  exec (.dmg2img source (tempPath tempDir "retail.raw"))
  return tempPath tempDir "retail.raw"

/-- `... && return 0`: what is found ends the search. -/
def orElse (found : Option Source) (next : Sh Source) : Sh Source :=
  match found with
  | some src => return src
  | none => next

/-- The two passes over the file systems inside the image. -/
def findInstallerVolume (source loop : String) (mount : Loc) : Sh Source := do
  orElse (← findCandidate mount isHfs (← ask (.lsblkFstypes loop)).out) do
    orElse (← findCandidate mount isOptical (← ask (.lsblkFstypes loop)).out)
      (die ("Could not find a mountable Snow Leopard installer volume inside " ++ source))

/-- `prepare_source_image`. -/
def prepareSourceImage (source : String) (tempDir : Bool) : Sh (Bool × Source) := do
  require (.test .e (.host source)) ("Retail source does not exist: " ++ source)
  let tempDir ← prepareTemp tempDir
  if ← holds (.test .d (.host source)) then
    let mount : Loc := .host (← askChecked (.readlink source)).text
    Script.setVar fun v => { v with sourceMount := some mount }
    orDie (← sourceHasInstallerMarkers mount)
      ("Directory does not look like a Snow Leopard installer: " ++ source)
    return (tempDir, ⟨mount, "directory", ""⟩)
  require .euid "Image inspection requires root because losetup is used"
  let image ← convertImage source tempDir
  let loop := (← Script.cmd (.losetupAttach image)).text
  Script.setVar fun v => { v with sourceLoop := if loop = "" then none else some loop }
  ifHave "udevadm" (.settle "udevadm settle")
  return (tempDir, ← findInstallerVolume source loop (tempPath tempDir "source"))

/-- `print_source_report`: it only looks. -/
def printSourceReport (src : Source) : Sh Unit := do
  if src.blockDevice ≠ "" then
    let _ ← ask (.size64 src.blockDevice)
  let _ ← holds (.test .f (.sub src.mount "System/Library/CoreServices/boot.efi"))
  let _ ← holds (.test .f (.sub src.mount "mach_kernel"))

/-! ### Guards and build root -/

/-- `--disk` must name a whole disk. -/
def requireDisk (a : Args) : Sh Unit := do
  orDie (a.disk ≠ "") "--disk is required"
  require (.test .b (.host a.disk)) ("Not a block device: " ++ a.disk)
  requireWholeDisk a.disk ("Whole disk required, not a partition: " ++ a.disk)

/-- The section up to the removable/USB test. -/
def guardSection (a : Args) : Sh Unit := do
  requireDisk a
  rootGuard a.disk ("Refusing to operate on the Linux root disk: " ++ a.disk)
  removableGuard a.disk a.allowInternal

/-- `settle_partitions`. -/
def settlePartitions (disk : String) : Sh Unit := do
  ifHave "partprobe" (.settle ("partprobe " ++ disk))
  ifHave "udevadm" (.settle "udevadm settle")
  exec (.settle "sleep 1")

/-- `BOOT_TOOL`: the IA32 tool is preferred, the X64 tool is accepted. -/
def selectBootTool (buildRoot : String) : Sh Loc := do
  if ← holds (.test .f (build buildRoot "OpenDuet/BootInstall_IA32.tool")) then
    return build buildRoot "OpenDuet/BootInstall_IA32.tool"
  if ← holds (.test .f (build buildRoot "OpenDuet/BootInstall_X64.tool")) then
    return build buildRoot "OpenDuet/BootInstall_X64.tool"
  die ("No BootInstall_IA32.tool or BootInstall_X64.tool in " ++ buildRoot ++ "/OpenDuet")

/-- `assert_build_root`: `BUILD_ROOT` and `BOOT_TOOL`. -/
def assertBuildRoot (buildRoot : String) : Sh (String × Loc) := do
  orDie (buildRoot ≠ "") "--build-root is required"
  let buildRoot := (← askChecked (.readlink buildRoot)).text
  require (.test .f (build buildRoot "ESP/EFI/OC/config.plist"))
    ("Missing OpenCore config under " ++ buildRoot ++ "/ESP")
  require (.test .d (build buildRoot "OpenDuet"))
    ("Missing OpenDuet staging directory: " ++ buildRoot ++ "/OpenDuet")
  require (.test .f (build buildRoot "OpenDuet/BootInstallBase.sh"))
    "Missing upstream BootInstallBase.sh"
  return (buildRoot, ← selectBootTool buildRoot)

/-- `confirm_exact`. -/
def confirmExact (expected : String) : Sh Unit := do
  let answer := (← askChecked .readLine).text
  orDie (answer = expected) "Confirmation mismatch; nothing was changed"

/-! ### The EFI tree -/

/-- `mount_esp`. -/
def mountEsp (part : String) (tempDir : Bool) : Sh Unit := do
  Script.setVar fun v => { v with espMount := some (tempPath tempDir "esp") }
  exec (.mkdir [tempPath tempDir "esp"])
  exec (.mount "-t vfat -o rw,noatime" true part (tempPath tempDir "esp"))

/-- The replacement of the EFI tree, `Kernels` and `/boot`. -/
def replaceEfi (buildRoot : String) (espMount : Loc) : Sh Unit := do
  exec (.rm [.sub espMount "EFI", .sub espMount "Kernels"])
  exec (.mkdir [.sub espMount "EFI"])
  exec (.cp (build buildRoot "ESP/EFI/.") (.sub espMount "EFI/"))
  if ← holds (.test .d (build buildRoot "ESP/Kernels")) then
    exec (.mkdir [.sub espMount "Kernels"])
    exec (.cp (build buildRoot "ESP/Kernels/.") (.sub espMount "Kernels/"))
  if ← holds (.test .f (build buildRoot "ESP/boot")) then
    exec (.cp (build buildRoot "ESP/boot") (.sub espMount "boot"))

/-- The tests on the copied tree. -/
def checkCopy (buildRoot : String) (espMount : Loc) : Sh Unit := do
  require (.test .f (.sub espMount "EFI/OC/config.plist"))
    "EFI copy failed: missing EFI/OC/config.plist"
  require (.test .f (.sub espMount "EFI/BOOT/BOOTIA32.efi"))
    "EFI copy failed: missing EFI/BOOT/BOOTIA32.efi"
  requireStaged (build buildRoot "ESP/Kernels/kernel") (.sub espMount "Kernels/kernel")
    "EFI copy failed: missing Kernels/kernel"

/-- `copy_efi_tree`. -/
def copyEfiTree (disk buildRoot part : String) (tempDir : Bool) : Sh Unit := do
  let espMount := tempPath tempDir "esp"
  mountEsp part tempDir
  let pwd := (← ask .pwd).text
  let date := (← ask .date).text
  backupEsp espMount (.host (pwd ++ "/backup/linux-efi-" ++ date ++ "-" ++ basename disk))
  replaceEfi buildRoot espMount
  checkCopy buildRoot espMount
  exec .sync
  exec (.umount espMount false)

/-- `install_openduet`: OpenCorePkg's own tool writes the boot sectors. -/
def installOpenduet (disk espPart buildRoot : String) (bootTool : Loc) : Sh Unit := do
  exec (.chmod [bootTool, build buildRoot "OpenDuet/BootInstallBase.sh"])
  exec (.bootTool bootTool (basename disk) (basename espPart))
  exec .sync
  umountAll (← ask (.lsblkMounts espPart)).out

/-- `kernel_version_ok`. -/
def kernelVersionOk (expected : String) (path : Loc) : Sh Bool := do
  if expected = "" then return true
  holds (.grep ("Darwin Kernel Version " ++ expected) path)

/-! ### Verification -/

/-- The part of `verify_target` about the ESP. -/
def verifyEsp (buildRoot espPart : String) (tempDir : Bool) : Sh Bool := do
  let tmp := tempPath tempDir "verify-esp"
  exec (.mkdir [tmp])
  if !(← Script.attempt (.mount "-o ro" false espPart tmp)).ok then return false
  let config ← holds (.test .f (.sub tmp "EFI/OC/config.plist"))
  let boot ← holds (.test .f (.sub tmp "boot"))
  let custom ← if buildRoot = "" then pure false
    else holds (.test .f (build buildRoot "ESP/Kernels/kernel"))
  let kernel ← holds (.test .f (.sub tmp "Kernels/kernel"))
  exec (.umount tmp false)
  return config && boot && (!custom || kernel)

/-- The part of `verify_target` about the installer volume. -/
def verifyInstaller (expected installerPart : String) (tempDir : Bool) : Sh Bool := do
  let tmp := tempPath tempDir "verify-installer"
  exec (.mkdir [tmp])
  if !(← Script.attempt (.mount "-o ro" false installerPart tmp)).ok then return false
  let bootEfi ← holds (.test .f (.sub tmp "System/Library/CoreServices/boot.efi"))
  let kernel ← holds (.test .f (.sub tmp "mach_kernel"))
  let version ← if kernel then kernelVersionOk expected (.sub tmp "mach_kernel") else pure false
  exec (.umount tmp false)
  return bootEfi && kernel && version

/-- `[[ -n "$part" && -b "$part" ]]`. -/
def partitionExists (part : String) : Sh Bool := do
  if part = "" then return false
  holds (.test .b (.host part))

/-- `verify_target`, whose status is that of `(( ok == 1 ))`. -/
def verifyTarget (a : Args) (buildRoot espPart installerPart : String) (tempDir : Bool) :
    Sh ℕ := do
  let espPart ← selectPartition a.disk espPart "1"
  let installerPart ← selectPartition a.disk installerPart "2"
  exec (.show ("lsblk " ++ a.disk))
  let tempDir ← prepareTemp tempDir
  let okEsp ← if ← partitionExists espPart then verifyEsp buildRoot espPart tempDir
    else pure true
  let okInstaller ← if ← partitionExists installerPart then
      verifyInstaller a.expectedKernelVersion installerPart tempDir
    else pure true
  Script.yields (if okEsp && okInstaller then 0 else 1)

/-! ### Restoring the installer volume -/

/-- `SELECTED_RESTORE`. -/
def selectedRestore (a : Args) (src : Source) : RestoreMode :=
  match a.restoreMode with
  | .auto => if src.blockDevice ≠ "" then .block else .files
  | mode => mode

/-- `$INSTALLER_MOUNT`. -/
def installerMount (tempDir : Bool) : Loc := tempPath tempDir "installer"

/-- `mount_hfs_rw`. -/
def mountHfsRw (part : String) (tempDir : Bool) : Sh Unit := do
  tryCmd (.umount (installerMount tempDir) true)
  if (← Script.attempt
      (.mount "-t hfsplus -o rw,force,noatime" true part (installerMount tempDir))).ok then return
  exec (.mount "-t hfsplus -o rw,noatime" true part (installerMount tempDir))

/-- The backup of the retail kernel, unless there is one. -/
def backupKernel (tempDir : Bool) : Sh Unit := do
  if ← holds (.test .f (.sub (installerMount tempDir) "mach_kernel")) then
    if !(← holds (.test .e (.sub (installerMount tempDir) "mach_kernel.original"))) then
      exec (.cp (.sub (installerMount tempDir) "mach_kernel")
        (.sub (installerMount tempDir) "mach_kernel.original"))

/-- `install_amd_kernel`. -/
def installAmdKernel (amdKernel expected : String) (tempDir : Bool) : Sh Unit := do
  backupKernel tempDir
  exec (.cp (.host amdKernel) (.sub (installerMount tempDir) "mach_kernel"))
  exec (.chmod [.sub (installerMount tempDir) "mach_kernel"])
  exec .sync
  orDie (← kernelVersionOk expected (.sub (installerMount tempDir) "mach_kernel"))
    ("Installed kernel does not match expected Darwin version " ++ expected)

/-- How `restore_block` ends. -/
inductive BlockResult
  /-- `return 2` after setting `SELECTED_RESTORE=files`. -/
  | fallback
  /-- The status of the last command. -/
  | status (n : ℕ)
  deriving DecidableEq, Repr

/-- The clone itself. -/
def cloneWrite (src : Source) (installerPart : String) : Cmd :=
  .dd (.host src.blockDevice) (.part installerPart) (16 * 2 ^ 20) none 0 0

/-- The source is released before it is cloned. -/
def releaseSource (src : Source) : Sh Unit := do
  if ← holds (.mountpoint src.mount) then exec (.umount src.mount false)

/-- The consistency check of the clone, where there is a tool for it. -/
def checkClone (installerPart : String) : Sh Unit := do
  if ← holds (.haveCmd "fsck.hfsplus") then tryCmd (.fsck installerPart)

/-- The body of `restore_block` after the size check. -/
def cloneAndPatch (a : Args) (src : Source) (installerPart : String) (tempDir : Bool) :
    Sh BlockResult := do
  releaseSource src
  exec (cloneWrite src installerPart)
  exec .sync
  checkClone installerPart
  mountHfsRw installerPart tempDir
  orDie (← sourceHasInstallerMarkers (installerMount tempDir))
    "Block-cloned volume does not expose installer markers"
  installAmdKernel a.amdKernel a.expectedKernelVersion tempDir
  return .status (← Script.cmd (.umount (installerMount tempDir) false)).status

/-- `restore_block`. -/
def restoreBlock (a : Args) (src : Source) (installerPart : String) (tempDir : Bool) :
    Sh BlockResult := do
  let sourceBytes := (← askChecked (.size64 src.blockDevice)).number
  let targetBytes := (← askChecked (.size64 installerPart)).number
  if sourceBytes > targetBytes then
    if a.restoreMode = .auto then return .fallback
    die ("HFS source (" ++ toString sourceBytes ++ " bytes) is larger than installer partition (" ++
      toString targetBytes ++ " bytes)")
  cloneAndPatch a src installerPart tempDir

/-- `restore_files`. -/
def restoreFiles (a : Args) (src : Source) (installerPart : String) (tempDir : Bool) :
    Sh Unit := do
  exec (.mkfs .hfsplus installerPart)
  mountHfsRw installerPart tempDir
  exec (.rsync src.mount (installerMount tempDir))
  orDie (← sourceHasInstallerMarkers (installerMount tempDir))
    "Copied volume does not expose installer markers"
  installAmdKernel a.amdKernel a.expectedKernelVersion tempDir
  exec (.umount (installerMount tempDir) false)

/-- What follows `if restore_block; then ... else ...`. -/
def afterBlock (a : Args) (src : Source) (installerPart : String) (tempDir : Bool) :
    BlockResult → Sh Unit
  | .status 0 => return
  | .status n => Script.exit n ""
  | .fallback => restoreFiles a src installerPart tempDir

/-- The dispatch: called as a condition, `restore_block` runs without `set -e`. -/
def restore (a : Args) (src : Source) (installerPart : String) (tempDir : Bool) : Sh Unit := do
  if selectedRestore a src = .block then
    afterBlock a src installerPart tempDir
      (← (restoreBlock a src installerPart tempDir).unchecked)
  else restoreFiles a src installerPart tempDir

/-! ### The operations -/

/-- `--dry-run` ends here, after looking whether there is a custom kernel to mention. -/
def dryRunExit (a : Args) (buildRoot : String) : Sh Unit := do
  if a.dryRun then
    let _ ← holds (.test .f (build buildRoot "ESP/Kernels/kernel"))
    Script.exit 0 "DRY RUN"

/-- `ESP_PART`, after the devices have settled. -/
def selectEsp (a : Args) : Sh String := do
  settlePartitions a.disk
  selectFatEsp a.disk a.espPart

/-- What `--update-efi` does once the ESP is known. -/
def rewriteEsp (a : Args) (buildRoot : String) (bootTool : Loc) (tempDir : Bool)
    (espPart : String) : Sh ℕ := do
  dryRunExit a buildRoot
  confirmExact ("UPDATE EFI " ++ espPart ++ " ON " ++ a.disk)
  unmountDisk a.disk
  copyEfiTree a.disk buildRoot espPart tempDir
  installOpenduet a.disk espPart buildRoot bootTool
  exec .sync
  let status ← verifyTarget a buildRoot espPart a.installerPart tempDir
  Script.exit status ""

/-- `--update-efi`. -/
def updateEfi (a : Args) (buildRoot : String) (bootTool : Loc) (tempDir : Bool) : Sh ℕ := do
  let espPart ← selectEsp a
  rewriteEsp a buildRoot bootTool tempDir espPart

/-- The refusals that go with `SELECTED_RESTORE`. -/
def requireRestore (src : Source) : RestoreMode → Sh Unit
  | .block => orDie (src.blockDevice ≠ "") ("--restore-mode block requested, but the image " ++
      "exposes no HFS/HFS+ installer block device")
  | .files => require (.haveCmd "mkfs.hfsplus")
      "File-copy restore requires mkfs.hfsplus (hfsprogs)"
  | .auto => return

/-- The arguments that must name files. -/
def requireInputs (a : Args) : Sh Unit := do
  orDie (a.retail ≠ "") "--retail must point to an existing ISO/DMG/image/directory"
  require (.test .e (.host a.retail)) "--retail must point to an existing ISO/DMG/image/directory"
  orDie (a.amdKernel ≠ "") "--amd-kernel must point to the verified Snow Leopard AMD kernel"
  require (.test .f (.host a.amdKernel))
    "--amd-kernel must point to the verified Snow Leopard AMD kernel"
  requireCommands ["lsblk", "findmnt", "losetup", "blkid", "sgdisk", "mkfs.vfat", "rsync", "fdisk",
    "uuidgen", "dd", "mount", "umount", "blockdev", "strings"]

/-- The listing of the disk and the typed confirmation; `--dry-run` ends before it. -/
def confirmErase (a : Args) : Sh Unit := do
  if a.dryRun then Script.exit 0 "DRY RUN" else
    exec (.show ("lsblk " ++ a.disk))
    confirmExact ("ERASE " ++ a.disk)

/-- The checks of `--make-usb` before the confirmation, and the confirmation. -/
def preflight (a : Args) (tempDir : Bool) : Sh (Bool × Source) := do
  requireInputs a
  let (tempDir, src) ← prepareSourceImage a.retail tempDir
  printSourceReport src
  requireRestore src (selectedRestore a src)
  confirmErase a
  return (tempDir, src)

/-- The new partition table. -/
def repartition (a : Args) : Sh Unit := do
  exec (.partition "sgdisk --zap-all" a.disk)
  exec (.partition "sgdisk -n 1:2048:+200M -t 1:EF00 -c 1:OPENCORE" a.disk)
  exec (.partition ("sgdisk -n 2:0:0 -t 2:AF00 -c 2:" ++ a.installerLabel) a.disk)
  settlePartitions a.disk

/-- `ESP_PART` and `INSTALLER_PART`: the arguments, or partitions 1 and 2. -/
def findPartitions (a : Args) : Sh (String × String) := do
  let espPart ← selectPartition a.disk a.espPart "1"
  let installerPart ← selectPartition a.disk a.installerPart "2"
  require (.test .b (.host espPart)) "Partition discovery failed after GPT creation"
  require (.test .b (.host installerPart)) "Partition discovery failed after GPT creation"
  return (espPart, installerPart)

/-- `copy_efi_tree`, the boot sectors and the final verification. -/
def finish (a : Args) (buildRoot : String) (bootTool : Loc) (espPart installerPart : String)
    (tempDir : Bool) : Sh ℕ := do
  copyEfiTree a.disk buildRoot espPart tempDir
  installOpenduet a.disk espPart buildRoot bootTool
  exec .sync
  verifyTarget a buildRoot espPart installerPart tempDir

/-- What `--make-usb` does after the confirmation. -/
def write (a : Args) (buildRoot : String) (bootTool : Loc) (tempDir : Bool) (src : Source) :
    Sh ℕ := do
  unmountDisk a.disk
  repartition a
  let (espPart, installerPart) ← findPartitions a
  exec (.mkfs .vfat espPart)
  restore a src installerPart tempDir
  finish a buildRoot bootTool espPart installerPart tempDir

/-- `--make-usb`. -/
def makeUsb (a : Args) (buildRoot : String) (bootTool : Loc) (tempDir : Bool) : Sh ℕ := do
  let (tempDir, src) ← preflight a tempDir
  write a buildRoot bootTool tempDir src

/-- `--inspect-retail`. -/
def inspectRetail (a : Args) : Sh ℕ := do
  orDie (a.retail ≠ "") "--inspect-retail requires --retail"
  let (_, src) ← prepareSourceImage a.retail false
  printSourceReport src
  Script.exit 0 ""

/-- `--verify`. -/
def verify (a : Args) : Sh ℕ := do
  require .euid "--verify requires root to mount partitions read-only"
  let tempDir ← prepareTemp false
  let status ← verifyTarget a a.buildRoot a.espPart a.installerPart tempDir
  Script.exit status ""

/-- What the two writing operations have in common. -/
def prepare (a : Args) : Sh (String × Loc × Bool) := do
  require .euid (a.mode.word ++ " requires root")
  let (buildRoot, bootTool) ← assertBuildRoot a.buildRoot
  let tempDir ← prepareTemp false
  return (buildRoot, bootTool, tempDir)

/-- `linux_make_usb_legacy.sh`. -/
def main (a : Args) : Sh ℕ := do
  requireLinux "This backend runs on Linux only"
  match a.mode with
  | .listDisks =>
    exec (.show "lsblk -d")
    Script.exit 0 ""
  | .inspectRetail => inspectRetail a
  | .verify =>
    guardSection a
    verify a
  | .updateEfi =>
    guardSection a
    let (buildRoot, bootTool, tempDir) ← prepare a
    updateEfi a buildRoot bootTool tempDir
  | .makeUsb =>
    guardSection a
    let (buildRoot, bootTool, tempDir) ← prepare a
    makeUsb a buildRoot bootTool tempDir

end MakeUsb

end Usb

end InstallKit
