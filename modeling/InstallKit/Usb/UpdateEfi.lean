import InstallKit.Usb.Common

/-!
# `linux_update_efi.sh`

Replaces the EFI tree, `Kernels` and `/boot` on the ESP of an existing disk, runs the OpenDuet
installer, and verifies the result on a read-only mount.
-/

namespace InstallKit

namespace Usb

open Shell

namespace UpdateEfi

/-- The command line. -/
structure Args where
  /-- The directory above `scripts/`. -/
  rootDir : String
  /-- `--disk`. -/
  disk : String
  /-- `--esp-part`, or the empty string. -/
  espPart : String
  /-- `--build-root`. -/
  buildRoot : String
  /-- `--allow-internal`. -/
  allowInternal : Bool
  /-- `--dry-run`. -/
  dryRun : Bool
  deriving DecidableEq, Repr

/-- The trap handler of `EXIT`, `INT` and `TERM`. -/
def cleanup (v : Vars) : Sh Unit := do
  releaseDir v.espMount
  removeDir v.espMount

/-- The OpenDuet helper must be executable or at least a file. -/
def requireInstaller (rootDir : String) : Sh Unit := do
  if ← holds (.test .x (.sub (.host rootDir) "scripts/linux_install_openduet.sh")) then return
  require (.test .f (.sub (.host rootDir) "scripts/linux_install_openduet.sh"))
    "Missing scripts/linux_install_openduet.sh"

/-- The checks on the build: `BUILD_ROOT`. -/
def requireBuild (a : Args) : Sh String := do
  let buildRoot := (← askChecked (.readlink a.buildRoot)).text
  require (.test .f (build buildRoot "ESP/EFI/OC/config.plist"))
    ("Missing " ++ buildRoot ++ "/ESP/EFI/OC/config.plist")
  require (.test .f (build buildRoot "ESP/boot")) ("Missing " ++ buildRoot ++ "/ESP/boot")
  require (.test .d (build buildRoot "OpenDuet")) ("Missing " ++ buildRoot ++ "/OpenDuet")
  requireInstaller a.rootDir
  return buildRoot

/-- The checks on the arguments: `BUILD_ROOT`. -/
def requireInputs (a : Args) : Sh String := do
  requireLinux "Linux only"
  require .euid "Run as root"
  orDie (a.disk ≠ "") "--disk is required"
  orDie (a.buildRoot ≠ "") "--build-root is required"
  require (.test .b (.host a.disk)) ("Not a block device: " ++ a.disk)
  requireWholeDisk a.disk ("Whole disk required: " ++ a.disk)
  requireBuild a

/-- The section up to the removable/USB test: `BUILD_ROOT`. -/
def guardSection (a : Args) : Sh String := do
  let buildRoot ← requireInputs a
  rootGuard a.disk ("Refusing Linux root disk: " ++ a.disk)
  removableGuard a.disk a.allowInternal
  return buildRoot

/-- `ESP_PART`, after the devices have settled. -/
def selectEsp (a : Args) : Sh String := do
  ifHave "partprobe" (.settle ("partprobe " ++ a.disk))
  ifHave "udevadm" (.settle "udevadm settle")
  selectFatEsp a.disk a.espPart

/-- `--dry-run` ends here, after looking whether there is a custom kernel to mention. -/
def dryRunExit (a : Args) (buildRoot : String) : Sh Unit := do
  if a.dryRun then
    let _ ← holds (.test .f (build buildRoot "ESP/Kernels/kernel"))
    Script.exit 0 "DRY RUN"

/-- The typed confirmation. -/
def confirm (a : Args) (espPart : String) : Sh Unit := do
  let answer := (← askChecked .readLine).text
  orDie (answer = "UPDATE EFI " ++ espPart ++ " ON " ++ a.disk)
    "Confirmation mismatch; nothing changed"

/-- The replacement of the EFI tree, `Kernels` and `/boot`. -/
def replaceEfi (buildRoot : String) (espMount : Loc) : Sh Unit := do
  exec (.rm [.sub espMount "EFI", .sub espMount "Kernels"])
  exec (.mkdir [.sub espMount "EFI"])
  exec (.cp (build buildRoot "ESP/EFI/.") (.sub espMount "EFI/"))
  if ← holds (.test .d (build buildRoot "ESP/Kernels")) then
    exec (.mkdir [.sub espMount "Kernels"])
    exec (.cp (build buildRoot "ESP/Kernels/.") (.sub espMount "Kernels/"))
  exec (.cp (build buildRoot "ESP/boot") (.sub espMount "boot"))
  exec .sync

/-- `[[ -f .../BOOTIA32.efi || -f .../BOOTX64.efi ]] || die`. -/
def requireBootFile (espMount : Loc) : Sh Unit := do
  if !(← holds (.test .f (.sub espMount "EFI/BOOT/BOOTIA32.efi"))) then
    require (.test .f (.sub espMount "EFI/BOOT/BOOTX64.efi"))
      "EFI copy failed: BOOT*.efi missing"

/-- The tests on the copied tree. -/
def checkCopy (buildRoot : String) (espMount : Loc) : Sh Unit := do
  require (.test .f (.sub espMount "EFI/OC/config.plist"))
    "EFI copy failed: EFI/OC/config.plist missing"
  requireBootFile espMount
  requireStaged (build buildRoot "ESP/Kernels/kernel") (.sub espMount "Kernels/kernel")
    "EFI copy failed: Kernels/kernel missing"

/-- The tests on the read-only mount. -/
def verifyCopy (buildRoot : String) (espMount : Loc) : Sh Unit := do
  require (.test .f (.sub espMount "EFI/OC/config.plist"))
    "Verification failed: EFI/OC/config.plist"
  require (.test .f (.sub espMount "boot")) "Verification failed: /boot"
  if ← holds (.test .f (build buildRoot "ESP/Kernels/kernel")) then
    require (.test .f (.sub espMount "Kernels/kernel")) "Verification failed: Kernels/kernel"
    let srcHash := (← askChecked (.sha256 (build buildRoot "ESP/Kernels/kernel"))).text
    let dstHash := (← askChecked (.sha256 (.sub espMount "Kernels/kernel"))).text
    orDie (srcHash = dstHash) "Verification failed: custom-kernel SHA256 mismatch"

/-- `ESP_MOUNT="$(mktemp -d ...)"`: a failed `mktemp` leaves it empty. -/
def makeMountDir (sub : String) : Sh Loc := do
  let r ← Script.cmd (.mktemp (.tmp sub))
  if r.ok then
    Script.setVar fun v => { v with espMount := some (.tmp sub) }
    return .tmp sub
  Script.setVar fun v => { v with espMount := none }
  return .host ""

/-- `umount "$ESP_MOUNT"; rmdir "$ESP_MOUNT"; ESP_MOUNT=""`. -/
def releaseMountDir (espMount : Loc) : Sh Unit := do
  exec (.umount espMount false)
  exec (.rmdir espMount)
  Script.setVar fun v => { v with espMount := none }

/-- The read-only verification at the end. -/
def verify (buildRoot espPart : String) : Sh ℕ := do
  let espMount ← makeMountDir "verify"
  exec (.mount "-t vfat -o ro" false espPart espMount)
  verifyCopy buildRoot espMount
  releaseMountDir espMount
  return 0

/-- Everything after the confirmation. -/
def update (a : Args) (buildRoot espPart : String) : Sh ℕ := do
  unmountDisk a.disk
  let espMount ← makeMountDir "update"
  exec (.mount "-t vfat -o rw,noatime" true espPart espMount)
  let date := (← ask .date).text
  backupEsp espMount (.host (a.rootDir ++ "/backup/linux-efi-" ++ date ++ "-" ++ basename a.disk))
  replaceEfi buildRoot espMount
  checkCopy buildRoot espMount
  releaseMountDir espMount
  exec (.installOpenduet a.disk espPart buildRoot)
  verify buildRoot espPart

/-- `linux_update_efi.sh`. -/
def main (a : Args) : Sh ℕ := do
  let buildRoot ← guardSection a
  let espPart ← selectEsp a
  dryRunExit a buildRoot
  confirm a espPart
  update a buildRoot espPart

end UpdateEfi

end Usb

end InstallKit
