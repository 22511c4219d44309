import InstallKit.Usb.Common

/-!
# `linux_make_recovery_usb.sh`

Creates a fresh GPT disk with one FAT32 EFI system partition, copies the UEFI OpenCore tree and
downloads the Mavericks Recovery image onto it.
-/

namespace InstallKit

namespace Usb

open Shell

namespace Recovery

/-- The command line of `--make-usb`. -/
structure Args where
  /-- `--disk`. -/
  disk : String
  /-- `--build-root`. -/
  buildRoot : String
  /-- `--macrecovery`. -/
  macrecovery : String
  /-- `--label`, by default `MAC`. -/
  label : String := "MAC"
  /-- `--yes`. -/
  assumeYes : Bool := false
  /-- `--allow-internal`. -/
  allowInternal : Bool := false
  deriving DecidableEq, Repr

/-- The trap handler of `EXIT`, `INT` and `TERM`. -/
def cleanup (v : Vars) : Sh Unit := do
  releaseDir v.espMount
  removeDir v.espMount

/-- The values that the guard section resolves. -/
structure Resolved where
  /-- `DISK`. -/
  disk : String
  /-- `BUILD_ROOT`. -/
  buildRoot : String
  /-- `MACRECOVERY`. -/
  macrecovery : String
  deriving DecidableEq, Repr

/-- `sgdisk` or `parted` must exist. -/
def requirePartitioner : Sh Unit := do
  if ← holds (.haveCmd "sgdisk") then return
  require (.haveCmd "parted") "Need either sgdisk (gdisk package) or parted"

/-- `DISK`, `BUILD_ROOT` and `MACRECOVERY` through `readlink -f`. -/
def resolvePaths (a : Args) : Sh Resolved := do
  let disk := (← askChecked (.readlink a.disk)).text
  let buildRoot := (← askChecked (.readlink a.buildRoot)).text
  let macrecovery := (← askChecked (.readlink a.macrecovery)).text
  return ⟨disk, buildRoot, macrecovery⟩

/-- The target must be a whole disk. -/
def requireTarget (disk : String) : Sh Unit := do
  require (.test .b (.host disk)) ("Not a block device: " ++ disk)
  orDie ((← ask (.lsblkType disk)).firstLine = "disk") ("Target must be a whole disk: " ++ disk)

/-- The removable test. -/
def rmGuard (disk : String) (allowInternal : Bool) : Sh Unit := do
  let rm := trBlank (← askChecked (.lsblkRm disk)).firstLine
  orDie (rm = "1" || allowInternal) (disk ++ " is not marked removable (RM=" ++ rm ++
    "). Re-run with --allow-internal only if this is definitely the target.")

/-- The section up to the removable test.  There is no comparison with the root disk. -/
def guardSection (a : Args) : Sh Resolved := do
  requireLinux "Linux only"
  require .euid "Run this command with sudo/root"
  orDie (a.disk ≠ "") "--disk is required"
  orDie (a.buildRoot ≠ "") "--build-root is required"
  orDie (a.macrecovery ≠ "") "--macrecovery is required"
  let r ← resolvePaths a
  requireTarget r.disk
  requireCommands ["lsblk", "findmnt", "blkid", "wipefs", "mkfs.vfat", "mount", "umount",
    "mountpoint", "python3", "blockdev"]
  requirePartitioner
  rmGuard r.disk a.allowInternal
  return r

/-- The files the build must (and must not) contain, and the assertions on its `config.plist`. -/
def preflight (r : Resolved) : Sh Unit := do
  let build := build r.buildRoot
  require (.test .f (build "ESP/EFI/BOOT/BOOTX64.efi")) "Missing BOOTX64.efi in build"
  require (.test .f (build "ESP/EFI/OC/OpenCore.efi")) "Missing OpenCore.efi in build"
  require (.test .f (build "ESP/EFI/OC/config.plist")) "Missing config.plist in build"
  require (.test .f (build "ESP/EFI/OC/Drivers/OpenHfsPlus.efi"))
    "Missing OpenHfsPlus.efi in build"
  require (.test .f (build "ESP/EFI/OC/Drivers/OpenPartitionDxe.efi"))
    "Missing OpenPartitionDxe.efi in build"
  orDie (!(← holds (.test .e (build "ESP/EFI/OC/Drivers/HfsPlusLegacy.efi"))))
    "Build still contains HfsPlusLegacy.efi"
  require (.test .f (build "ESP/Kernels/mach_kernel")) "Missing ESP/Kernels/mach_kernel in build"
  require (.test .f (.host r.macrecovery)) ("macrecovery.py not found: " ++ r.macrecovery)
  let _ ← askChecked (.configPreflight (build "ESP/EFI/OC/config.plist"))

/-- The listing of the target and the typed confirmation. -/
def confirm (a : Args) (disk : String) : Sh Unit := do
  exec (.show ("lsblk " ++ disk))
  if !a.assumeYes then
    let answer := (← askChecked .readLine).text
    orDie (answer = "ERASE " ++ disk) "Cancelled"

/-- Unmount every node below the disk, and refuse one that stays mounted. -/
def unmountNodes (disk : String) : Sh Unit := do
  let unmount (node : String) : Sh Unit := do
    if node ≠ disk then
      if ← holds (.findmntTargets node) then
        orDie (← Script.attempt (.umount (.host node) false)).ok ("Failed to unmount " ++ node)
  let refuse (node : String) : Sh Unit := do
    if node ≠ disk then
      if ← holds (.findmntTargets node) then
        let mp := (← ask (.findmntTargets node)).firstLine
        die (if mp = "" then node ++ " is still mounted" else node ++ " is still mounted at " ++ mp)
  each unmount (← ask (.lsblkNames disk)).out
  each refuse (← ask (.lsblkNames disk)).out

/-- A fresh GPT with one EFI system partition. -/
def partition (a : Args) (disk : String) : Sh Unit := do
  exec (.partition "wipefs -a" disk)
  if ← holds (.haveCmd "sgdisk") then
    exec (.partition "sgdisk --zap-all" disk)
    exec (.partition ("sgdisk -n 1:2048:0 -t 1:EF00 -c 1:" ++ a.label) disk)
  else
    exec (.partition "parted -s mklabel gpt" disk)
    exec (.partition "parted -s mkpart ESP fat32 1MiB 100%" disk)
    exec (.partition "parted -s set 1 esp on" disk)
    exec (.partition ("parted -s name 1 " ++ a.label) disk)
  ifHave "partprobe" (.settle ("partprobe " ++ disk))
  ifHave "udevadm" (.settle "udevadm settle")
  exec (.settle "sleep 1")

/-- `ESP`: `p1` is appended when the name of the disk ends in a digit. -/
def espOf (disk : String) : String :=
  match disk.toList.getLast? with
  | some c => if '0' ≤ c ∧ c ≤ '9' then disk ++ "p1" else disk ++ "1"
  | none => disk ++ "1"

/-- The copy of the build and the download of the recovery image. -/
def populate (r : Resolved) (mnt : Loc) : Sh Unit := do
  let build := build r.buildRoot
  exec (.mkdir [.sub mnt "EFI", .sub mnt "Kernels"])
  exec (.cp (build "ESP/EFI/.") (.sub mnt "EFI/"))
  exec (.cp (build "ESP/Kernels/mach_kernel") (.sub mnt "Kernels/mach_kernel"))
  exec (.mkdir [.sub mnt "com.apple.recovery.boot"])
  exec (.macrecovery r.macrecovery (.sub mnt "com.apple.recovery.boot"))

/-- The tests on the written volume. -/
def verify (mnt : Loc) : Sh Unit := do
  require (.test .s (.sub mnt "com.apple.recovery.boot/RecoveryImage.dmg"))
    "RecoveryImage.dmg was not downloaded"
  require (.test .s (.sub mnt "com.apple.recovery.boot/RecoveryImage.chunklist"))
    "RecoveryImage.chunklist was not downloaded"
  require (.test .f (.sub mnt "EFI/BOOT/BOOTX64.efi")) "BOOTX64.efi missing after copy"
  require (.test .f (.sub mnt "EFI/OC/Drivers/OpenHfsPlus.efi"))
    "OpenHfsPlus.efi missing after copy"
  require (.test .f (.sub mnt "EFI/OC/Drivers/OpenPartitionDxe.efi"))
    "OpenPartitionDxe.efi missing after copy"
  require (.test .f (.sub mnt "Kernels/mach_kernel")) "mach_kernel missing after copy"

/-- Everything after the confirmation. -/
def write (a : Args) (r : Resolved) : Sh ℕ := do
  unmountNodes r.disk
  partition a r.disk
  let esp := espOf r.disk
  require (.test .b (.host esp)) ("Partition did not appear: " ++ esp)
  exec (.mkfs .vfat esp)
  let ok := (← Script.cmd (.mktemp (.tmp "recovery"))).ok
  let mnt : Loc := if ok then .tmp "recovery" else .host ""
  Script.setVar fun v => { v with espMount := if ok then some mnt else none }
  exec (.mount "-t vfat -o rw,noatime" true esp mnt)
  populate r mnt
  verify mnt
  exec .sync
  tryCmd (.settle ("blockdev --flushbufs " ++ r.disk))
  exec (.show "ls -lh")
  exec (.umount mnt false)
  exec (.rmdir mnt)
  Script.setVar fun v => { v with espMount := none }
  return 0

/-- `linux_make_recovery_usb.sh --make-usb`. -/
def main (a : Args) : Sh ℕ := do
  let r ← guardSection a
  preflight r
  confirm a r.disk
  write a r

end Recovery

end Usb

end InstallKit
