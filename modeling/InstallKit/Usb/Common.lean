import InstallKit.Usb.Cmd

/-!
# The fragments shared by the writers

Each of `linux_make_usb_legacy.sh`, `linux_update_efi.sh` and `repair_openduet_esp.sh` carries its
own copy of a few fragments: the comparison of `--disk` with the source of `/` and with one parent
of it, the removable/USB test, the search for a partition by its number, the backup of an EFI tree.
The copies differ in their messages and in whether `--allow-internal` exists; they are instances of
the definitions below.
-/

namespace InstallKit

namespace Usb

open Shell

/-- `root_parent`: the parent of the device that `/` is mounted from, or the empty string. -/
def rootParent (rootSource : String) : Sh String := do
  if rootSource = "" then return ""
  if !(← holds (.test .b (.host rootSource))) then return ""
  let parent := (← ask (.lsblkPkname rootSource)).firstLine
  return if parent = "" then "" else "/dev/" ++ parent

/-- `[[ "$DISK" != "$root_source" && "$DISK" != "$root_parent" ]] || die`. -/
def rootGuard (disk msg : String) : Sh Unit := do
  let rootSource := (← ask .findmntRoot).text
  let rootParent ← rootParent rootSource
  orDie (disk ≠ rootSource ∧ disk ≠ rootParent) msg

/-- `rm_flag` and `transport`, each read through `tr -d ' '`. -/
def removableFlags (disk : String) : Sh (String × String) := do
  let rmFlag := trBlank (← askChecked (.lsblkRm disk)).text
  let transport := trBlank (← askChecked (.lsblkTran disk)).text
  return (rmFlag, transport)

/-- The removable/USB test of the writers that know `--allow-internal`. -/
def removableGuard (disk : String) (allowInternal : Bool) : Sh Unit := do
  let (rmFlag, transport) ← removableFlags disk
  if !allowInternal && rmFlag ≠ "1" && transport ≠ "usb" then
    die (disk ++ " is not clearly removable/USB (RM=" ++ rmFlag ++ " TRAN=" ++
      (if transport = "" then "unknown" else transport) ++
      "); use --allow-internal only after manual verification")

/-- The body of `partition_path`: the first candidate whose sysfs partition number is `number`. -/
def findPartition (number : String) : List String → Sh (Option String)
  | [] => return none
  | candidate :: rest => do
    if candidate = "" then findPartition number rest
    else if !(← holds (.test .b (.host candidate))) then findPartition number rest
    else
      let partno := (← ask (.sysPartition candidate)).text
      if partno = number then return some candidate
      findPartition number rest

/-- `partition_path number`. -/
def partitionPath (disk number : String) : Sh (Option String) := do
  findPartition number (← ask (.lsblkParts disk)).out

/-- `x="$(partition_path ...)"`: a failed search yields a status and the empty string. -/
def orFail : Option String → Sh String
  | some candidate => return candidate
  | none => do
    let _ ← Script.yields 1
    return ""

/-- `[[ -n "$PART" ]] || PART="$(partition_path number)"`. -/
def selectPartition (disk part number : String) : Sh String := do
  if part ≠ "" then return part
  orFail (← partitionPath disk number)

/-- The file system types that count as FAT. -/
def isFat (fstype : String) : Bool := fstype = "vfat" || fstype = "fat" || fstype = "msdos"

/-- The ESP of an existing disk: the argument, or partition 1; it must be FAT. -/
def selectFatEsp (disk part : String) : Sh String := do
  let espPart ← selectPartition disk part "1"
  orDie (espPart ≠ "") "Could not identify EFI partition; pass --esp-part"
  require (.test .b (.host espPart)) "Could not identify EFI partition; pass --esp-part"
  let fstype := (← ask (.blkid espPart false)).text
  orDie (isFat fstype) ("EFI partition is not FAT: " ++ espPart ++ " (" ++ fstype ++ ")")
  return espPart

/-- A file or directory below the build root. -/
def build (buildRoot rel : String) : Loc := .sub (.host buildRoot) rel

/-- `$TEMP_DIR/sub`, where a failed `mktemp` leaves `TEMP_DIR` empty. -/
def tempPath (tempDir : Bool) (sub : String) : Loc :=
  if tempDir then .tmp sub else .host ("/" ++ sub)

/-- Unmount every mount point on the disk. -/
def unmountDisk (disk : String) : Sh Unit := do
  umountAll (← ask (.lsblkMounts disk)).out

/-- `[[ -t l ]] && cp -a l dst`. -/
def backupIf (t : FileTest) (l dst : Loc) : Sh Unit := do
  if ← holds (.test t l) then exec (.cp l dst)

/-- `[[ -d x/EFI || -d x/Kernels || -f x/boot ]]`. -/
def hasEfiFiles (m : Loc) : Sh Bool := do
  if ← holds (.test .d (.sub m "EFI")) then return true
  if ← holds (.test .d (.sub m "Kernels")) then return true
  holds (.test .f (.sub m "boot"))

/-- The backup of what is on the ESP. -/
def backupEsp (espMount backupDir : Loc) : Sh Unit := do
  if ← hasEfiFiles espMount then
    exec (.mkdir [backupDir])
    backupIf .d (.sub espMount "EFI") (.sub backupDir "EFI")
    backupIf .d (.sub espMount "Kernels") (.sub backupDir "Kernels")
    backupIf .f (.sub espMount "boot") (.sub backupDir "boot")

/-- `if [[ -f staged ]]; then [[ -f copied ]] || die msg; fi`. -/
def requireStaged (staged copied : Loc) (msg : String) : Sh Unit := do
  if ← holds (.test .f staged) then require (.test .f copied) msg

@[simp] theorem calls_requireStaged {P : Cmd → Prop} {staged copied : Loc} {msg : String}
    (hs : P (.query (.test .f staged))) (hc : P (.query (.test .f copied))) :
    (requireStaged staged copied msg).Calls P := by simp [requireStaged, hs, hc]

@[simp] theorem assigns_requireStaged {Q : (Vars → Vars) → Prop} {staged copied : Loc}
    {msg : String} : (requireStaged staged copied msg).Assigns Q := by simp [requireStaged]

/-! ### Fragments of the trap handlers -/

/-- `[[ -n "$X" ]] && mountpoint -q "$X" && umount "$X"`. -/
def releaseMount : Option Loc → Sh Unit
  | none => return
  | some dir => do
    if ← holds (.mountpoint dir) then tryCmd (.umount dir false)

/-- `[[ -n "$X" && -d "$X" ]] && mountpoint -q "$X" && umount "$X"`. -/
def releaseDir : Option Loc → Sh Unit
  | none => return
  | some dir => do
    if ← holds (.test .d dir) then releaseMount (some dir)

/-- `[[ -n "$X" && -d "$X" ]] && rmdir "$X" || true`. -/
def removeDir : Option Loc → Sh Unit
  | none => return
  | some dir => do
    if ← holds (.test .d dir) then tryCmd (.rmdir dir)

/-- `[[ -n "$X" ]] && losetup "$X" && losetup -d "$X"`. -/
def detachLoop : Option String → Sh Unit
  | none => return
  | some dev => do
    if ← holds (.losetup dev) then tryCmd (.losetupDetach dev)

/-- `[[ -n "$TEMP_DIR" && -d "$TEMP_DIR" ]] && rm -rf -- "$TEMP_DIR"`. -/
def removeTemp (tempDir : Bool) : Sh Unit := do
  if tempDir then
    if ← holds (.test .d .tmpDir) then tryCmd (.rm [.tmpDir])

/-! ### Fragments of the preflights -/

/-- `for cmd in ...; do have "$cmd" || die; done`. -/
def requireCommands (names : List String) : Sh Unit :=
  each (fun name => require (.haveCmd name) ("Missing required command: " ++ name)) names

/-- `[[ "$(lsblk -dnro TYPE "$DISK")" == disk ]] || die`. -/
def requireWholeDisk (disk msg : String) : Sh Unit := do
  orDie ((← ask (.lsblkType disk)).text = "disk") msg

/-- `[[ "$(uname -s)" == Linux ]] || die`. -/
def requireLinux (msg : String) : Sh Unit := do
  orDie ((← ask .uname).text = "Linux") msg

end Usb

end InstallKit
