import InstallKit.Usb.Common

/-!
# `linux_install_openduet.sh`

The non-interactive OpenDuet installer: it captures the MBR and the FAT boot sector, writes `boot0`
to the first 446 bytes of the disk, a boot sector derived from `boot1f32` to the ESP, and `/boot`
to the FAT file system.
-/

namespace InstallKit

namespace Usb

open Shell

namespace InstallOpenduet

/-- The command line. -/
structure Args where
  /-- `--disk`. -/
  disk : String
  /-- `--esp-part`. -/
  espPart : String
  /-- `--build-root`. -/
  buildRoot : String
  /-- `--recover-fat32-backup`. -/
  recoverFat32Backup : Bool
  deriving DecidableEq, Repr

/-- The trap handler of `EXIT`, `INT` and `TERM`. -/
def cleanup (v : Vars) : Sh Unit := do
  releaseDir v.espMount
  removeTemp v.tempDir

/-- `[[ -f x && -f y ]]`. -/
def bothFiles (x y : Loc) : Sh Bool := do
  if ← holds (.test .f x) then holds (.test .f y) else return false

/-- `BOOT_FILE`: the boot file that matches the staged `BOOT*.efi`, or whichever exists. -/
def selectBootFile (buildRoot : String) : Sh Loc := do
  if ← bothFiles (build buildRoot "OpenDuet/bootIA32")
      (build buildRoot "ESP/EFI/BOOT/BOOTIA32.efi") then return build buildRoot "OpenDuet/bootIA32"
  if ← bothFiles (build buildRoot "OpenDuet/bootX64")
      (build buildRoot "ESP/EFI/BOOT/BOOTX64.efi") then return build buildRoot "OpenDuet/bootX64"
  if ← holds (.test .f (build buildRoot "OpenDuet/bootIA32")) then
    return build buildRoot "OpenDuet/bootIA32"
  if ← holds (.test .f (build buildRoot "OpenDuet/bootX64")) then
    return build buildRoot "OpenDuet/bootX64"
  die ("No bootIA32/bootX64 file in " ++ buildRoot ++ "/OpenDuet")

/-- The check that the ESP belongs to the disk: an empty `PKNAME` passes. -/
def parentCheck (disk espPart : String) : Sh Unit := do
  let parent := (← ask (.lsblkPkname espPart)).firstLine
  if parent ≠ "" ∧ "/dev/" ++ parent ≠ disk then
    die (espPart ++ " does not belong to " ++ disk ++ " (parent=/dev/" ++ parent ++ ")")

/-- All three arguments are required. -/
def requireArgs (a : Args) : Sh Unit :=
  if a.disk ≠ "" ∧ a.espPart ≠ "" ∧ a.buildRoot ≠ "" then return else Script.exit 2 "usage"

/-- The checks on the two devices. -/
def requireTargets (a : Args) : Sh Unit := do
  requireLinux "Linux only"
  require .euid "Run as root"
  requireArgs a
  require (.test .b (.host a.disk)) ("Not a block device: " ++ a.disk)
  requireWholeDisk a.disk ("Whole disk required: " ++ a.disk)
  require (.test .b (.host a.espPart)) ("ESP partition does not exist: " ++ a.espPart)

/-- The checks on the build: `BUILD_ROOT`. -/
def requireBuild (a : Args) : Sh String := do
  let buildRoot := (← askChecked (.readlink a.buildRoot)).text
  let od := buildRoot ++ "/OpenDuet"
  require (.test .d (build buildRoot "OpenDuet")) ("Missing OpenDuet directory: " ++ od)
  require (.test .f (build buildRoot "OpenDuet/boot0")) ("Missing " ++ od ++ "/boot0")
  require (.test .f (build buildRoot "OpenDuet/boot1f32")) ("Missing " ++ od ++ "/boot1f32")
  return buildRoot

/-- Everything before the temporary directory is made: `BUILD_ROOT` and `BOOT_FILE`. -/
def preflight (a : Args) : Sh (String × Loc) := do
  requireTargets a
  let buildRoot ← requireBuild a
  let bootFile ← selectBootFile buildRoot
  parentCheck a.disk a.espPart
  return (buildRoot, bootFile)

/-- `unmount_esp`. -/
def unmountEsp (espPart : String) : Sh Unit := do
  umountAll (← ask (.findmntTargets espPart)).out

/-- One of the two loops of `wait_for_partition`. -/
def waitLoop (espPart : String) (settle : Bool) : ℕ → Sh Bool
  | 0 => return false
  | n + 1 => do
    if ← holds (.test .b (.host espPart)) then return true
    if settle then ifHave "udevadm" (.settle "udevadm settle")
    tryCmd (.settle "sleep 0.1")
    waitLoop espPart settle n

/-- `wait_for_partition || die msg`. -/
def waitForPartition (a : Args) (msg : String) : Sh Unit := do
  if ← waitLoop a.espPart true 50 then return
  ifHave "partprobe" (.settle ("partprobe " ++ a.disk))
  ifHave "udevadm" (.settle "udevadm settle")
  orDie (← waitLoop a.espPart false 50) msg

/-- `fat32_sector_valid sector`. -/
def fat32SectorValid (espPart : String) (sector : ℕ) : Sh Bool := do
  let type := (← ask (.sector espPart (sector * 512 + 82) 8 false)).text
  let sig := (← ask (.sector espPart (sector * 512 + 510) 2 true)).text
  let bps := (← ask (.sector espPart (sector * 512 + 11) 2 true)).text
  return "FAT32".toList.isPrefixOf type.toList && sig = "55aa" && bps = "0002"

/-- `probe_fstype`. -/
def probeFstype (espPart : String) : Sh String := do
  return (← ask (.blkid espPart true)).text

/-- The recovery of the primary FAT32 boot sector from sector 6. -/
def recoverSector (espPart : String) (backup : String → Loc) (backupDir : String) : Sh Unit := do
  exec (.dd (.host espPart) (.file (backup "esp-pbr-broken.bin")) 512 (some 1) 0 0)
  exec (.dd (.host espPart) (.file (backup "esp-pbr-backup-sector6.bin")) 512 (some 1) 6 0)
  exec (.dd (backup "esp-pbr-backup-sector6.bin") (.part espPart) 512 (some 1) 0 0)
  exec .sync
  ifHave "udevadm" (.settle "udevadm settle")
  let fstype ← probeFstype espPart
  orDie (isFat fstype) ("Backup boot sector was written but FAT is still not recognised; " ++
    "backups are in " ++ backupDir)

/-- The `case "$fstype"` before anything is captured. -/
def checkFat (a : Args) (backup : String → Loc) (backupDir : String) : Sh Unit := do
  let fstype ← probeFstype a.espPart
  if isFat fstype then return
  if fstype ≠ "" then die ("ESP is not FAT: " ++ a.espPart ++ " (" ++ fstype ++ ")")
  if !a.recoverFat32Backup then
    die ("ESP is not FAT: " ++ a.espPart ++ ". If this follows the known broken upstream " ++
      "BootInstallBase.sh run, retry with --recover-fat32-backup")
  if ← fat32SectorValid a.espPart 6 then recoverSector a.espPart backup backupDir
  else
    die ("ESP is not recognised as FAT and sector 6 is not a valid FAT32 backup boot sector; " ++
      "no recovery write performed")

/-- Capture both boot sectors and build the new one in the temporary directory. -/
def captureSectors (a : Args) (buildRoot : String) (backup : String → Loc) (tempDir : Bool) :
    Sh Unit := do
  exec (.dd (.host a.disk) (.file (backup "mbr-before.bin")) 512 (some 1) 0 0)
  exec (.dd (.host a.espPart) (.file (backup "esp-pbr-before.bin")) 512 (some 1) 0 0)
  exec (.cp (backup "esp-pbr-before.bin") (tempPath tempDir "origbs"))
  exec (.cp (build buildRoot "OpenDuet/boot1f32") (tempPath tempDir "newbs"))
  exec (.dd (tempPath tempDir "origbs") (.patch (tempPath tempDir "newbs")) 1 (some 87) 3 3)
  exec (.dd (.host "/dev/urandom") (.patch (tempPath tempDir "newbs")) 1 (some 14) 496 496)

/-- `boot0` goes to the first 446 bytes of the disk. -/
def boot0Write (a : Args) (buildRoot : String) : Cmd :=
  .dd (build buildRoot "OpenDuet/boot0") (.disk a.disk) 1 (some 446) 0 0

/-- The new boot sector goes to the ESP. -/
def pbrWrite (a : Args) (tempDir : Bool) : Cmd :=
  .dd (tempPath tempDir "newbs") (.part a.espPart) 512 (some 1) 0 0

/-- The tests on the mounted ESP, and its release. -/
def verifyBoot (buildRoot : String) (mountDir : Loc) : Sh ℕ := do
  require (.test .f (.sub mountDir "boot")) "Missing /boot after copy"
  requireStaged (build buildRoot "ESP/EFI/OC/config.plist") (.sub mountDir "EFI/OC/config.plist")
    "Existing EFI tree is missing EFI/OC/config.plist"
  requireStaged (build buildRoot "ESP/Kernels/kernel") (.sub mountDir "Kernels/kernel")
    "Existing ESP is missing Kernels/kernel"
  exec (.umount mountDir false)
  Script.setVar fun v => { v with espMount := none }
  return 0

/-- `sync`, settle and `wait_for_partition || die msg`, after either write. -/
def settleAndWait (a : Args) (msg : String) : Sh Unit := do
  exec .sync
  ifHave "udevadm" (.settle "udevadm settle")
  waitForPartition a msg

/-- What follows the write of `boot0`. -/
def afterBoot0 (a : Args) (buildRoot : String) (bootFile : Loc) (backupDir : String)
    (tempDir : Bool) : Sh ℕ := do
  settleAndWait a (a.espPart ++ " did not return after MBR update; backups are in " ++ backupDir)
  unmountEsp a.espPart
  exec (pbrWrite a tempDir)
  settleAndWait a (a.espPart ++ " disappeared after PBR write; backups are in " ++ backupDir)
  exec (.mount "-t vfat -o rw,noatime" true a.espPart (tempPath tempDir "esp"))
  exec (.cp bootFile (.sub (tempPath tempDir "esp") "boot"))
  exec .sync
  verifyBoot buildRoot (tempPath tempDir "esp")

/-- The temporary directory with the mount point, and the backup directory. -/
def makeDirs (a : Args) : Sh (Bool × String) := do
  let tempDir := (← Script.cmd (.mktemp .tmpDir)).ok
  Script.setVar fun v => { v with tempDir := tempDir }
  Script.setVar fun v => { v with espMount := some (tempPath tempDir "esp") }
  exec (.mkdir [tempPath tempDir "esp"])
  let pwd := (← ask .pwd).text
  let date := (← ask .date).text
  let backupDir := pwd ++ "/backup/openduet-" ++ date ++ "-" ++ basename a.disk
  exec (.mkdir [.host backupDir])
  return (tempDir, backupDir)

/-- Everything from the temporary directory on. -/
def install (a : Args) (buildRoot : String) (bootFile : Loc) : Sh ℕ := do
  let (tempDir, backupDir) ← makeDirs a
  unmountEsp a.espPart
  checkFat a (.sub (.host backupDir)) backupDir
  captureSectors a buildRoot (.sub (.host backupDir)) tempDir
  exec (boot0Write a buildRoot)
  afterBoot0 a buildRoot bootFile backupDir tempDir

/-- `linux_install_openduet.sh`. -/
def main (a : Args) : Sh ℕ := do
  let (buildRoot, bootFile) ← preflight a
  install a buildRoot bootFile

end InstallOpenduet

end Usb

end InstallKit
