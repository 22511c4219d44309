import InstallKit.Usb.Common

/-!
# `repair_openduet_esp.sh`

Reinstalls the OpenCore ESP of an existing installer USB, optionally after reformatting it, and
writes the OpenDuet boot sectors with the sequence of the OpenDuet installer.
-/

namespace InstallKit

namespace Usb

open Shell

namespace RepairEsp

/-- The command line. -/
structure Args where
  /-- `--disk`. -/
  disk : String
  /-- `--build-root`. -/
  buildRoot : String
  /-- `--esp-part`, or the empty string. -/
  espPart : String
  /-- `--reformat-esp`. -/
  reformatEsp : Bool
  deriving DecidableEq, Repr

/-- The trap handler of `EXIT`, `INT` and `TERM`. -/
def cleanup (v : Vars) : Sh Unit := do
  releaseMount v.espMount
  removeTemp v.tempDir

/-- The removable/USB test of this script has no `--allow-internal`. -/
def removableOnly (disk : String) : Sh Unit := do
  let (rmFlag, transport) ← removableFlags disk
  orDie (rmFlag = "1" ∨ transport = "usb") (disk ++ " is not clearly removable/USB")

/-- The checks on the arguments and the tools: `BUILD_ROOT`. -/
def requireInputs (a : Args) : Sh String := do
  requireLinux "Linux only"
  require .euid "Run as root"
  orDie (a.disk ≠ "") "--disk must be a block device"
  require (.test .b (.host a.disk)) "--disk must be a block device"
  requireWholeDisk a.disk "--disk must name a whole disk"
  orDie (a.buildRoot ≠ "") "--build-root is required"
  let buildRoot := (← askChecked (.readlink a.buildRoot)).text
  requireCommands ["lsblk", "findmnt", "blkid", "mkfs.vfat", "mount", "umount", "dd", "sync", "stat"]
  return buildRoot

/-- The section up to the removable/USB test: `BUILD_ROOT`. -/
def guardSection (a : Args) : Sh String := do
  let buildRoot ← requireInputs a
  rootGuard a.disk ("Refusing Linux root disk: " ++ a.disk)
  removableOnly a.disk
  return buildRoot

/-- The ESP: the argument, or what `lsblk` calls partition 1 of the disk. -/
def discoverEsp (a : Args) : Sh String := do
  if a.espPart ≠ "" then return a.espPart
  return (← askChecked (.lsblkPartn1 a.disk)).text

/-- `ESP_PART` must be a block device. -/
def selectEsp (a : Args) : Sh String := do
  let espPart ← discoverEsp a
  orDie (espPart ≠ "") "Could not identify EFI partition"
  require (.test .b (.host espPart)) "Could not identify EFI partition"
  return espPart

/-- The build artifacts that must exist. -/
def requireArtifacts (buildRoot : String) : Sh Unit :=
  each (fun rel => require (.test .f (build buildRoot rel))
      ("Missing build artifact: " ++ buildRoot ++ "/" ++ rel))
    ["ESP/EFI/OC/config.plist", "ESP/EFI/BOOT/BOOTIA32.efi", "OpenDuet/boot0", "OpenDuet/boot1f32",
      "OpenDuet/bootIA32"]

/-- `settle`. -/
def settle (disk : String) : Sh Unit := do
  ifHave "partprobe" (.settle ("partprobe " ++ disk))
  ifHave "udevadm" (.settle "udevadm settle")

/-- The loop of `wait_for_block`. -/
def waitLoop (path : String) : ℕ → Sh Bool
  | 0 => return false
  | n + 1 => do
    if ← holds (.test .b (.host path)) then return true
    ifHave "udevadm" (.settle "udevadm settle")
    tryCmd (.settle "sleep 0.1")
    waitLoop path n

/-- `wait_for_block path || die msg`. -/
def waitForBlock (path msg : String) : Sh Unit := do
  orDie (← waitLoop path 100) msg

/-- The optional reformatting of the ESP, after a typed confirmation. -/
def reformat (a : Args) (espPart : String) : Sh Unit := do
  if a.reformatEsp then
    let answer := (← askChecked .readLine).text
    orDie (answer = "REFORMAT ESP " ++ espPart ++ " ON " ++ a.disk) "Confirmation mismatch"
    exec (.mkfs .vfat espPart)
    exec .sync
    settle a.disk
    waitForBlock espPart (espPart ++ " disappeared after mkfs.vfat")

/-- `[[ "$fstype" == vfat || ... ]] || die msg`. -/
def requireFat (espPart : String) (msg : String → String) : Sh Unit := do
  let fstype := (← ask (.blkid espPart false)).text
  orDie (isFat fstype) (msg fstype)

/-- The copy of the EFI tree and of `/boot`. -/
def copyEfi (buildRoot espPart : String) (espMount : Loc) : Sh Unit := do
  exec (.mount "-t vfat -o rw,noatime" true espPart espMount)
  exec (.rm [.sub espMount "EFI"])
  exec (.mkdir [.sub espMount "EFI"])
  exec (.cp (build buildRoot "ESP/EFI/.") (.sub espMount "EFI/"))
  exec (.cp (build buildRoot "OpenDuet/bootIA32") (.sub espMount "boot"))
  exec .sync
  exec (.umount espMount false)

/-- The capture of the FAT boot sector, and the new one derived from it. -/
def captureSector (buildRoot espPart : String) (tempDir : Bool) : Sh Unit := do
  waitForBlock espPart (espPart ++ " unavailable before PBR backup")
  exec (.dd (.host espPart) (.file (tempPath tempDir "origbs")) 512 (some 1) 0 0)
  let size := (← askChecked (.statSize (tempPath tempDir "origbs"))).text
  orDie (size = "512") "Could not capture a complete 512-byte FAT PBR"
  exec (.cp (build buildRoot "OpenDuet/boot1f32") (tempPath tempDir "newbs"))
  exec (.dd (tempPath tempDir "origbs") (.patch (tempPath tempDir "newbs")) 1 (some 87) 3 3)
  exec (.dd (.host "/dev/urandom") (.patch (tempPath tempDir "newbs")) 1 (some 14) 496 496)

/-- `boot0` goes to the first 446 bytes of the disk. -/
def boot0Write (a : Args) (buildRoot : String) : Cmd :=
  .dd (build buildRoot "OpenDuet/boot0") (.disk a.disk) 1 (some 446) 0 0

/-- The new boot sector goes to the ESP. -/
def pbrWrite (espPart : String) (tempDir : Bool) : Cmd :=
  .dd (tempPath tempDir "newbs") (.part espPart) 512 (some 1) 0 0

/-- The tests on the read-only mount, and its release. -/
def verify (espMount : Loc) : Sh ℕ := do
  require (.test .f (.sub espMount "EFI/OC/config.plist"))
    "Missing EFI/OC/config.plist after repair"
  require (.test .f (.sub espMount "EFI/BOOT/BOOTIA32.efi"))
    "Missing EFI/BOOT/BOOTIA32.efi after repair"
  require (.test .f (.sub espMount "boot")) "Missing OpenDuet /boot after repair"
  exec (.umount espMount false)
  return 0

/-- What follows the write of `boot0`. -/
def afterBoot0 (a : Args) (espPart : String) (tempDir : Bool) : Sh ℕ := do
  settle a.disk
  waitForBlock espPart (espPart ++ " did not reappear after boot0 write")
  exec (pbrWrite espPart tempDir)
  exec .sync
  settle a.disk
  waitForBlock espPart (espPart ++ " did not reappear after boot1f32 write")
  requireFat espPart fun fstype =>
    "FAT filesystem is no longer readable after boot1f32 write (" ++ fstype ++ ")"
  exec (.mount "-t vfat -o ro" false espPart (tempPath tempDir "esp"))
  verify (tempPath tempDir "esp")

/-- The temporary directory with the mount point. -/
def makeDirs : Sh Bool := do
  let tempDir := (← Script.cmd (.mktemp .tmpDir)).ok
  Script.setVar fun v => { v with tempDir := tempDir }
  Script.setVar fun v => { v with espMount := some (tempPath tempDir "esp") }
  exec (.mkdir [tempPath tempDir "esp"])
  return tempDir

/-- Everything from the temporary directory on. -/
def repair (a : Args) (buildRoot espPart : String) : Sh ℕ := do
  let tempDir ← makeDirs
  unmountDisk a.disk
  settle a.disk
  waitForBlock espPart (espPart ++ " did not reappear after settling")
  reformat a espPart
  requireFat espPart fun fstype =>
    espPart ++ " is not a readable FAT filesystem (" ++ fstype ++ "); rerun with --reformat-esp"
  copyEfi buildRoot espPart (tempPath tempDir "esp")
  captureSector buildRoot espPart tempDir
  exec (boot0Write a buildRoot)
  afterBoot0 a espPart tempDir

/-- `repair_openduet_esp.sh`. -/
def main (a : Args) : Sh ℕ := do
  let buildRoot ← guardSection a
  let espPart ← selectEsp a
  requireArtifacts buildRoot
  repair a buildRoot espPart

end RepairEsp

end Usb

end InstallKit
