import InstallKit.Usb.Cmd
import Mathlib.Data.List.Basic

/-!
# The mount table, and what a command writes to

The mounts made by a script are read off its log: a successful `mount` adds one, a successful
`umount` of the same directory removes the newest one there.

* `mounts` : the mount table.
* `removedFrom` : the writable mounts that a recursive removal descends into.
* `Cmd.targets` : the partitions that a command formats, mounts read-write, removes files from or
  writes with `dd`.
-/

namespace InstallKit

namespace Usb

open Shell

/-- A mounted partition. -/
structure Mount where
  /-- The mount point. -/
  dir : Loc
  /-- The partition. -/
  dev : String
  /-- It is mounted read-write. -/
  rw : Bool
  deriving DecidableEq, Repr

/-- The mounts made by the commands of a log, newest first. -/
def mounts : Log → List Mount
  | [] => []
  | (.mount _ rw dev dir, r) :: l => if r.ok then ⟨dir, dev, rw⟩ :: mounts l else mounts l
  | (.umount dir _, r) :: l => if r.ok then (mounts l).eraseP (·.dir = dir) else mounts l
  | _ :: l => mounts l

/-- The directory that a path lies below, as far as the scripts distinguish them. -/
def Loc.root : Loc → Loc
  | .sub l _ => l.root
  | l => l

/-- A recursive removal of `l` enters what is mounted at `dir`: `l` lies on that mount, or `dir` is
an entry of the temporary directory and `l` is that directory. -/
def Loc.Enters (l dir : Loc) : Prop :=
  l.root = dir ∨ l = .tmpDir ∧ ∃ sub, dir = .tmp sub

instance (l dir : Loc) : Decidable (l.Enters dir) :=
  match dir with
  | .tmp sub => decidable_of_iff (l.root = .tmp sub ∨ l = .tmpDir) (by simp [Loc.Enters])
  | .host p => decidable_of_iff (l.root = .host p) (by simp [Loc.Enters])
  | .tmpDir => decidable_of_iff (l.root = .tmpDir) (by simp [Loc.Enters])
  | .sub d r => decidable_of_iff (l.root = .sub d r) (by simp [Loc.Enters])

/-- The writable mounts from which `rm -rf` of some paths removes files. -/
def removedFrom (l : Log) (paths : List Loc) : List Mount :=
  (mounts l).filter fun m => m.rw ∧ ∃ p ∈ paths, p.Enters m.dir

/-- The partitions that a command writes to directly: `mkfs`, `mount -o rw`, `dd of=`.  The OpenDuet
installer and OpenCorePkg's tool are processes of their own. -/
def Cmd.direct : Cmd → List String
  | .mkfs _ dev => [dev]
  | .mount _ true dev _ => [dev]
  | .dd _ (.part dev) _ _ _ _ => [dev]
  | _ => []

/-- The partitions from which a command removes files. -/
def Cmd.removes (l : Log) : Cmd → List String
  | .rm paths => (removedFrom l paths).map Mount.dev
  | _ => []

/-- The partitions that a command formats, mounts read-write, removes files from or writes with
`dd`, after the commands of `l`. -/
def Cmd.targets (l : Log) (c : Cmd) : List String := c.direct ++ c.removes l

/-- Every mounted partition was mounted by a command of the log. -/
theorem exists_mount_of_mem {l : Log} {m : Mount} (h : m ∈ mounts l) :
    ∃ opts r, (Cmd.mount opts m.rw m.dev m.dir, r) ∈ l := by
  induction l with
  | nil => cases h
  | cons e l ih =>
    obtain ⟨c, r⟩ := e
    have lift : (∃ opts r, (Cmd.mount opts m.rw m.dev m.dir, r) ∈ l) →
        ∃ opts r', (Cmd.mount opts m.rw m.dev m.dir, r') ∈ (c, r) :: l :=
      fun ⟨opts, r', hm⟩ => ⟨opts, r', List.mem_cons_of_mem _ hm⟩
    cases c with
    | mount opts rw dev dir =>
      simp only [mounts] at h
      split at h
      · rcases List.mem_cons.1 h with rfl | h
        · exact ⟨opts, r, List.mem_cons_self ..⟩
        · exact lift (ih h)
      · exact lift (ih h)
    | umount dir quiet =>
      simp only [mounts] at h
      split at h
      · exact lift (ih (List.mem_of_mem_eraseP h))
      · exact lift (ih h)
    | _ => exact lift (ih h)

/-- What a command removes from was mounted read-write before. -/
theorem exists_mount_of_removes {l : Log} {c : Cmd} {dev : String} (h : dev ∈ c.removes l) :
    ∃ c' r, (c', r) ∈ l ∧ dev ∈ c'.direct := by
  cases c with
  | rm paths =>
    obtain ⟨m, hm, rfl⟩ := List.mem_map.1 h
    obtain ⟨hm, hp⟩ := List.mem_filter.1 hm
    simp only [decide_eq_true_eq] at hp
    obtain ⟨opts, r, hr⟩ := exists_mount_of_mem hm
    exact ⟨_, r, hr, by simp [Cmd.direct, hp.1]⟩
  | _ => cases h

end Usb

end InstallKit
