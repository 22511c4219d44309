import InstallKit.Shell.Exits

/-!
# The commands of the Linux USB writers

The scripts `linux_make_usb_legacy.sh`, `linux_update_efi.sh`, `repair_openduet_esp.sh`,
`linux_install_openduet.sh` and `linux_make_recovery_usb.sh` are models over one vocabulary of
commands.  A `Query` only looks (tests, `lsblk`, `findmnt`, `blkid`, `grep`, ...); every other
`Cmd` may change a disk, a file system or the mount table.

Paths below the temporary directory of a script are kept apart from all other paths (`Loc`), since
that directory is what the trap handlers unmount and remove.
-/

namespace InstallKit

namespace Usb

open Shell

/-- A path as the scripts write it. -/
inductive Loc
  /-- A path given on the command line or fixed in the script. -/
  | host (path : String)
  /-- The temporary directory of the script. -/
  | tmpDir
  /-- An entry `sub` of the temporary directory, or a directory made by `mktemp -d` itself. -/
  | tmp (sub : String)
  /-- `rel` below another path. -/
  | sub (l : Loc) (rel : String)
  deriving DecidableEq, Repr

/-- The tests `[[ -b p ]]`, `[[ -f p ]]`, ... -/
inductive FileTest
  | b | f | d | e | x | s
  deriving DecidableEq, Repr

/-- Commands that only read. -/
inductive Query
  /-- `[[ -t l ]]`. -/
  | test (t : FileTest) (l : Loc)
  /-- `uname -s`. -/
  | uname
  /-- `[[ $EUID -eq 0 ]]`. -/
  | euid
  /-- `command -v name`. -/
  | haveCmd (name : String)
  /-- `readlink -f path`. -/
  | readlink (path : String)
  /-- `lsblk -dnro TYPE dev`. -/
  | lsblkType (dev : String)
  /-- `lsblk -dnro RM dev`. -/
  | lsblkRm (dev : String)
  /-- `lsblk -dnro TRAN dev`. -/
  | lsblkTran (dev : String)
  /-- `lsblk -no PKNAME dev`. -/
  | lsblkPkname (dev : String)
  /-- `lsblk -lnpo NAME,TYPE disk | awk '$2 == "part" {print $1}'`. -/
  | lsblkParts (disk : String)
  /-- `lsblk -lnpo NAME,PARTN disk | awk '$2 == 1 {print $1; exit}'`. -/
  | lsblkPartn1 (disk : String)
  /-- `lsblk -lnpo NAME disk`. -/
  | lsblkNames (disk : String)
  /-- `lsblk -lnpo MOUNTPOINT dev | awk 'NF'`, or with the column `MOUNTPOINTS`. -/
  | lsblkMounts (dev : String)
  /-- `lsblk -rno PATH,FSTYPE dev`. -/
  | lsblkFstypes (dev : String)
  /-- `cat /sys/class/block/$(basename dev)/partition`. -/
  | sysPartition (dev : String)
  /-- `findmnt -nro SOURCE /`. -/
  | findmntRoot
  /-- `findmnt -nr -S dev -o TARGET`. -/
  | findmntTargets (dev : String)
  /-- `blkid [-p] -s TYPE -o value dev`. -/
  | blkid (dev : String) (probe : Bool)
  /-- `read -r answer`. -/
  | readLine
  /-- `dd if=dev bs=1 skip=skip count=count`, as text, or as the digits that
  `od -An -tx1 | tr -d ' \n'` prints. -/
  | sector (dev : String) (skip count : ℕ) (od : Bool)
  /-- `blockdev --getsize64 dev`. -/
  | size64 (dev : String)
  /-- `LC_ALL=C grep -aFq pattern l`. -/
  | grep (pattern : String) (l : Loc)
  /-- `stat -c %s l`. -/
  | statSize (l : Loc)
  /-- `sha256sum l`. -/
  | sha256 (l : Loc)
  /-- `mountpoint -q l`. -/
  | mountpoint (l : Loc)
  /-- `losetup dev`. -/
  | losetup (dev : String)
  /-- `pwd -P`. -/
  | pwd
  /-- `date -u`. -/
  | date
  /-- The Python assertions on `config.plist` before a recovery USB is written. -/
  | configPreflight (l : Loc)
  deriving DecidableEq, Repr

/-- Where `dd` writes: a file that it makes anew, a file of which it keeps the rest
(`conv=notrunc`), the whole disk `of="$DISK"`, or a partition `of="$ESP_PART"`. -/
inductive Dest
  | file (l : Loc)
  | patch (l : Loc)
  | disk (dev : String)
  | part (dev : String)
  deriving DecidableEq, Repr

/-- The file systems the scripts create. -/
inductive Mkfs
  | vfat | hfsplus
  deriving DecidableEq, Repr

/-- The commands of the scripts. -/
inductive Cmd
  /-- A command that only reads. -/
  | query (q : Query)
  /-- `lsblk -o ... disk`, `ls -lh ...`: output for the operator. -/
  | show (what : String)
  /-- `partprobe`, `udevadm settle`, `sleep`, `blockdev --flushbufs`. -/
  | settle (what : String)
  /-- `sync`. -/
  | sync
  /-- `mktemp -d`. -/
  | mktemp (l : Loc)
  /-- `mkdir -p ls`. -/
  | mkdir (ls : List Loc)
  /-- `rmdir l`. -/
  | rmdir (l : Loc)
  /-- `rm -rf -- ls`. -/
  | rm (ls : List Loc)
  /-- `mount [-t fstype] -o rw|ro,... dev dir`. -/
  | mount (opts : String) (rw : Bool) (dev : String) (dir : Loc)
  /-- `umount l`, possibly with its messages thrown away. -/
  | umount (l : Loc) (quiet : Bool)
  /-- `cp` of a file or a tree. -/
  | cp (src dst : Loc)
  /-- `chmod ls`. -/
  | chmod (ls : List Loc)
  /-- `dd if=src of=dst bs=bs count=count skip=skip seek=seek`. -/
  | dd (src : Loc) (dst : Dest) (bs : ℕ) (count : Option ℕ) (skip seek : ℕ)
  /-- `mkfs.vfat`, `mkfs.hfsplus`. -/
  | mkfs (fs : Mkfs) (dev : String)
  /-- `fsck.hfsplus -fy dev`. -/
  | fsck (dev : String)
  /-- `sgdisk`, `parted`, `wipefs` on the whole disk. -/
  | partition (args : String) (disk : String)
  /-- `losetup --find --show --partscan --read-only image`. -/
  | losetupAttach (image : Loc)
  /-- `losetup -d dev`. -/
  | losetupDetach (dev : String)
  /-- `dmg2img src dst`. -/
  | dmg2img (src : String) (dst : Loc)
  /-- `rsync -aH src/ dst/`. -/
  | rsync (src dst : Loc)
  /-- OpenCorePkg's `BootInstall_*.tool`, fed with the names of the disk and the partition. -/
  | bootTool (tool : Loc) (disk part : String)
  /-- `bash scripts/linux_install_openduet.sh`, a process of its own. -/
  | installOpenduet (disk esp buildRoot : String)
  /-- `macrecovery.py download -o dst`. -/
  | macrecovery (tool : String) (dst : Loc)
  deriving DecidableEq, Repr

/-- The reply to a command: its exit status and the lines it prints. -/
structure Reply where
  /-- The exit status. -/
  status : ℕ
  /-- The lines printed on standard output. -/
  out : List String
  deriving DecidableEq, Repr

instance : ExitStatus Reply := ⟨Reply.status⟩

@[simp] theorem exitStatus_reply (r : Reply) : ExitStatus.status r = r.status := rfl

namespace Reply

/-- Success without output. -/
def done : Reply := ⟨0, []⟩

/-- Failure without output. -/
def failed : Reply := ⟨1, []⟩

/-- Success with some lines of output. -/
def lines (ls : List String) : Reply := ⟨0, ls⟩

/-- The command succeeded. -/
def ok (r : Reply) : Bool := r.status == 0

/-- `$(...)`: the output without its last newline. -/
def text (r : Reply) : String :=
  match r.out with
  | [] => ""
  | l :: ls => ls.foldl (fun t l => t ++ "\n" ++ l) l

/-- `$(... | head -n1)`. -/
def firstLine (r : Reply) : String := r.out.headD ""

/-- The decimal number that was printed, as `(( ))` reads it: an empty variable is `0`. -/
def number (r : Reply) : ℕ := r.text.toList.foldl (fun n c => 10 * n + (c.toNat - '0'.toNat)) 0

@[simp] theorem ok_done : done.ok = true := rfl

@[simp] theorem ok_failed : failed.ok = false := rfl

@[simp] theorem ok_lines (ls : List String) : (lines ls).ok = true := rfl

@[simp] theorem status_done : done.status = 0 := rfl

@[simp] theorem status_lines (ls : List String) : (lines ls).status = 0 := rfl

@[simp] theorem text_lines_singleton (l : String) : (lines [l]).text = l := rfl

@[simp] theorem firstLine_lines_cons (l : String) (ls : List String) :
    (lines (l :: ls)).firstLine = l := rfl

@[simp] theorem exists_status_zero : ∃ r : Reply, r.status = 0 := ⟨done, rfl⟩

theorem ok_iff {r : Reply} : r.ok = true ↔ r.status = 0 := by simp [ok]

end Reply

/-- The shell variables that the trap handlers read. -/
structure Vars where
  /-- `TEMP_DIR` (or `TMP`) is set. -/
  tempDir : Bool
  /-- `ESP_MOUNT` (or `MOUNT_DIR`, `MNT`), when set. -/
  espMount : Option Loc
  /-- `INSTALLER_MOUNT`, when set. -/
  installerMount : Option Loc
  /-- `SOURCE_MOUNT`, when set. -/
  sourceMount : Option Loc
  /-- `SOURCE_LOOP`, when set. -/
  sourceLoop : Option String
  deriving DecidableEq, Repr

/-- No variable is set. -/
def Vars.init : Vars := ⟨false, none, none, none, none⟩

/-- The scripts of the USB writers. -/
abbrev Sh := Script Vars Cmd Reply

/-- The commands run so far, newest first. -/
abbrev Log := List (Cmd × Reply)

/-- The state of a running USB writer. -/
abbrev State := St Vars Cmd Reply

/-- The state in which a script starts, after `set -Eeuo pipefail`. -/
def State.init : State := ⟨.init, [], true⟩

/-! ### Idioms of the scripts -/

/-- A query whose status the script tests or ignores. -/
def ask (q : Query) : Sh Reply := Script.attempt (.query q)

/-- A query whose failure ends the script, as in `x="$(...)"`. -/
def askChecked (q : Query) : Sh Reply := Script.cmd (.query q)

/-- A query used as a condition. -/
def holds (q : Query) : Sh Bool := do
  let r ← ask q
  return r.ok

/-- A command run as a statement. -/
def exec (c : Cmd) : Sh Unit := do
  let _ ← Script.cmd c

/-- `c || true`. -/
def tryCmd (c : Cmd) : Sh Unit := do
  let _ ← Script.attempt c

/-- `die msg`. -/
def die {α : Type} (msg : String) : Sh α := .exit 1 msg

/-- `[[ b ]] || die msg`. -/
def orDie (b : Bool) (msg : String) : Sh Unit := if b then return else die msg

/-- `q || die msg`. -/
def require (q : Query) (msg : String) : Sh Unit := do
  orDie (← holds q) msg

/-- `have name && c || true`. -/
def ifHave (name : String) (c : Cmd) : Sh Unit := do
  if ← holds (.haveCmd name) then tryCmd c

/-- `while read -r x; do f x; done < <(...)`. -/
def each {β : Type} (f : β → Sh Unit) : List β → Sh Unit
  | [] => return
  | x :: xs => do
    f x
    each f xs

/-- Unmount every mount point of a listing, ignoring failures. -/
def umountAll (targets : List String) : Sh Unit :=
  each (fun t => if t = "" then return else tryCmd (.umount (.host t) true)) targets

/-! ### The commands of the idioms -/

section Calls

variable {P : Cmd → Prop}

@[simp] theorem calls_ask {q : Query} : (ask q).Calls P ↔ P (.query q) := by simp [ask]

@[simp] theorem calls_askChecked {q : Query} : (askChecked q).Calls P ↔ P (.query q) := by
  simp [askChecked]

@[simp] theorem calls_holds {q : Query} : (holds q).Calls P ↔ P (.query q) := by simp [holds]

@[simp] theorem calls_exec {c : Cmd} : (exec c).Calls P ↔ P c := by simp [exec]

@[simp] theorem calls_tryCmd {c : Cmd} : (tryCmd c).Calls P ↔ P c := by simp [tryCmd]

@[simp] theorem calls_die {α : Type} {msg : String} : (die msg : Sh α).Calls P := trivial

@[simp] theorem calls_orDie {b : Bool} {msg : String} : (orDie b msg).Calls P := by
  cases b <;> trivial

@[simp] theorem calls_require {q : Query} {msg : String} :
    (require q msg).Calls P ↔ P (.query q) := by simp [require]

@[simp] theorem calls_ifHave {name : String} {c : Cmd} (hn : P (.query (.haveCmd name)))
    (hc : P c) : (ifHave name c).Calls P := by simp [ifHave, hn, hc]

@[simp] theorem calls_each {β : Type} {f : β → Sh Unit} {xs : List β}
    (hf : ∀ x, (f x).Calls P) : (each f xs).Calls P := by
  induction xs with
  | nil => trivial
  | cons x xs ih => simp [each, hf x, ih]

@[simp] theorem calls_umountAll {targets : List String}
    (h : ∀ t, P (.umount (.host t) true)) : (umountAll targets).Calls P := by
  simp [umountAll, h]

end Calls

/-! ### The idioms assign nothing -/

section Assigns

variable {Q : (Vars → Vars) → Prop}

@[simp] theorem assigns_ask {q : Query} : (ask q).Assigns Q := by simp [ask]

@[simp] theorem assigns_askChecked {q : Query} : (askChecked q).Assigns Q := by simp [askChecked]

@[simp] theorem assigns_holds {q : Query} : (holds q).Assigns Q := by simp [holds]

@[simp] theorem assigns_exec {c : Cmd} : (exec c).Assigns Q := by simp [exec]

@[simp] theorem assigns_tryCmd {c : Cmd} : (tryCmd c).Assigns Q := by simp [tryCmd]

@[simp] theorem assigns_die {α : Type} {msg : String} : (die msg : Sh α).Assigns Q := trivial

@[simp] theorem assigns_orDie {b : Bool} {msg : String} : (orDie b msg).Assigns Q := by
  cases b <;> trivial

@[simp] theorem assigns_require {q : Query} {msg : String} : (require q msg).Assigns Q := by
  simp [require]

@[simp] theorem assigns_ifHave {name : String} {c : Cmd} : (ifHave name c).Assigns Q := by
  simp [ifHave]

@[simp] theorem assigns_each {β : Type} {f : β → Sh Unit} {xs : List β}
    (hf : ∀ x, (f x).Assigns Q) : (each f xs).Assigns Q := by
  induction xs with
  | nil => trivial
  | cons x xs ih => simp [each, hf x, ih]

@[simp] theorem assigns_umountAll {targets : List String} : (umountAll targets).Assigns Q := by
  simp [umountAll]

end Assigns

/-! ### How the idioms leave -/

section Exits

variable {M : String → Prop} {P : Cmd → Prop}

@[simp] theorem exits_ask {q : Query} : (ask q).Exits M := by simp [ask]

@[simp] theorem exits_askChecked {q : Query} : (askChecked q).Exits M := by simp [askChecked]

@[simp] theorem exits_holds {q : Query} : (holds q).Exits M := by simp [holds]

@[simp] theorem exits_exec {c : Cmd} : (exec c).Exits M := by simp [exec]

@[simp] theorem exits_tryCmd {c : Cmd} : (tryCmd c).Exits M := by simp [tryCmd]

@[simp] theorem exits_die {α : Type} {msg : String} : (die msg : Sh α).Exits M ↔ M msg := Iff.rfl

@[simp] theorem exits_orDie {b : Bool} {msg : String} (h : M msg) : (orDie b msg).Exits M := by
  cases b
  · exact h
  · trivial

@[simp] theorem exits_require {q : Query} {msg : String} (h : M msg) :
    (require q msg).Exits M := by simp [require, h]

@[simp] theorem exits_ifHave {name : String} {c : Cmd} : (ifHave name c).Exits M := by
  simp [ifHave]

@[simp] theorem exits_each {β : Type} {f : β → Sh Unit} {xs : List β}
    (hf : ∀ x, (f x).Exits M) : (each f xs).Exits M := by
  induction xs with
  | nil => trivial
  | cons x xs ih => simp [each, hf x, ih]

@[simp] theorem exits_umountAll {targets : List String} : (umountAll targets).Exits M := by
  simp [umountAll]

@[simp] theorem checks_ask {q : Query} : (ask q).Checks P := by simp [ask]

@[simp] theorem checks_holds {q : Query} : (holds q).Checks P := by simp [holds]

@[simp] theorem checks_exec {c : Cmd} : (exec c).Checks P ↔ P c := by simp [exec]

@[simp] theorem checks_tryCmd {c : Cmd} : (tryCmd c).Checks P := by simp [tryCmd]

@[simp] theorem checks_orDie {b : Bool} {msg : String} : (orDie b msg).Checks P := by
  cases b <;> trivial

@[simp] theorem checks_ifHave {name : String} {c : Cmd} : (ifHave name c).Checks P := by
  simp [ifHave]

@[simp] theorem checks_each {β : Type} {f : β → Sh Unit} {xs : List β}
    (hf : ∀ x, (f x).Checks P) : (each f xs).Checks P := by
  induction xs with
  | nil => trivial
  | cons x xs ih => simp [each, hf x, ih]

@[simp] theorem checks_umountAll {targets : List String} : (umountAll targets).Checks P := by
  simp [umountAll]

end Exits

/-! ### Which values the idioms may return -/

section May

variable {A : Cmd → Reply → Prop}

@[simp] theorem may_ask {q : Query} {r : Reply} : May A (ask q) r ↔ A (.query q) r := by
  simp [ask, Script.attempt]

@[simp] theorem may_askChecked {q : Query} {r : Reply} :
    May A (askChecked q) r ↔ A (.query q) r ∧ r.status = 0 := by
  simp [askChecked, Script.cmd]

@[simp] theorem may_holds {q : Query} {b : Bool} :
    May A (holds q) b ↔ ∃ r, A (.query q) r ∧ b = r.ok := by
  simp [holds, may_bind]

@[simp] theorem may_die {α : Type} {msg : String} {a : α} : ¬ May A (die msg : Sh α) a := by
  simp [die]

@[simp] theorem may_orDie {b : Bool} {msg : String} {u : Unit} :
    May A (orDie b msg) u ↔ b = true := by
  cases b <;> simp [orDie]

@[simp] theorem may_exec {c : Cmd} {u : Unit} :
    May A (exec c) u ↔ ∃ r, A c r ∧ r.status = 0 := by
  simp [exec, Script.cmd]

/-- A tool that is not installed is not used. -/
theorem may_ifHave {name : String} {c : Cmd} (h : A (.query (.haveCmd name)) .failed) :
    May A (ifHave name c) () :=
  may_bind.2 ⟨false, may_holds.2 ⟨.failed, h, rfl⟩, rfl⟩

@[simp] theorem may_require {q : Query} {msg : String} {u : Unit} :
    May A (require q msg) u ↔ ∃ r, A (.query q) r ∧ r.ok = true := by
  simp [require, may_bind]

end May

/-- `basename path`. -/
def basename (path : String) : String :=
  String.ofList ((path.toList.reverse.dropWhile (· = '/')).takeWhile (· ≠ '/')).reverse

/-- `tr -d ' '`. -/
def trBlank (s : String) : String := String.ofList (s.toList.filter (· ≠ ' '))

end Usb

end InstallKit
