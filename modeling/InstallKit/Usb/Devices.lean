import InstallKit.Usb.Common
import Mathlib.Data.List.Basic

/-!
# Block devices

A `Forest` lists the block devices of a machine in the order in which `lsblk` prints them: a node is
a disk, a partition of another node, or a device stacked over other nodes (LVM, LUKS, RAID, loop).
A path denotes a node by its kernel name (`/dev/NAME`) or as an alias (`/dev/disk/by-id/...`).

* `Forest.StoredOn` : a node is stored on another one, at any stacking depth.
* `Forest.Answers` : the replies of `lsblk`, `findmnt`, `readlink` and `[[ -b ]]` that tell the
  truth about a forest and the device `/` is mounted from.  Nothing is said about other queries.
-/

namespace InstallKit

namespace Usb

open Shell

/-- The `TYPE` column. -/
inductive DevType
  | disk | part | lvm | crypt | raid | loop | rom
  deriving DecidableEq, Repr

/-- The `TYPE` column as `lsblk` prints it. -/
def DevType.label : DevType → String
  | disk => "disk"
  | part => "part"
  | lvm => "lvm"
  | crypt => "crypt"
  | raid => "raid1"
  | loop => "loop"
  | rom => "rom"

@[simp] theorem DevType.label_eq_disk {t : DevType} : t.label = "disk" ↔ t = disk := by
  cases t <;> decide

/-- The `TRAN` column. -/
inductive Transport
  | usb | sata | nvme | mmc | none
  deriving DecidableEq, Repr

/-- The `TRAN` column as `lsblk` prints it. -/
def Transport.label : Transport → String
  | usb => "usb"
  | sata => "sata"
  | nvme => "nvme"
  | mmc => "mmc"
  | none => ""

@[simp] theorem Transport.label_eq_usb {t : Transport} : t.label = "usb" ↔ t = usb := by
  cases t <;> decide

/-- A block device. -/
structure Node where
  /-- The `TYPE` column. -/
  type : DevType
  /-- The nodes it lies on. -/
  parents : List String
  /-- The `PKNAME` column. -/
  pkname : Option String
  /-- The `RM` column. -/
  removable : Bool
  /-- The `TRAN` column. -/
  transport : Transport
  /-- The partition number as sysfs prints it. -/
  partno : String
  /-- `PKNAME` is the name of an immediate parent, or empty. -/
  pkname_mem : ∀ p ∈ pkname, p ∈ parents ∧ p ≠ ""
  /-- A disk lies on nothing. -/
  disk_parents : type = .disk → parents = []
  /-- A partition lies on one node, and `PKNAME` is its name. -/
  part_parent : type = .part → ∃ p, parents = [p] ∧ pkname = some p

/-- The `RM` column as `lsblk` prints it. -/
def Node.rmLabel (x : Node) : String := if x.removable then "1" else "0"

@[simp] theorem Node.rmLabel_eq_one {x : Node} : x.rmLabel = "1" ↔ x.removable = true := by
  cases h : x.removable <;> simp [rmLabel, h]

/-- Every node lies on nodes that are listed before it. -/
def Ordered : List String → List (String × Node) → Prop
  | _, [] => True
  | seen, e :: es => (∀ p ∈ e.2.parents, p ∈ seen) ∧ Ordered (e.1 :: seen) es

/-- The block devices of a machine. -/
structure Forest where
  /-- The nodes with their kernel names, in the order of `lsblk`. -/
  nodes : List (String × Node)
  /-- Other paths that denote a device. -/
  aliases : List (String × String)
  /-- Kernel names are unique. -/
  nodup : (nodes.map Prod.fst).Nodup
  /-- Kernel names are file names. -/
  names : ∀ e ∈ nodes, e.1 ≠ "" ∧ '/' ∉ e.1.toList
  /-- Parents come first, so that stacking is well-founded. -/
  ordered : Ordered [] nodes
  /-- An alias is a non-empty path of a node. -/
  aliases_nodes : ∀ e ∈ aliases, e.1 ≠ "" ∧ e.2 ∈ nodes.map Prod.fst

namespace Forest

variable (F : Forest)

/-- The node of a kernel name. -/
def node (name : String) : Option Node := F.nodes.lookup name

/-- The kernel name of the device that a path denotes. -/
def resolve (path : String) : Option String :=
  match F.nodes.find? fun e => "/dev/" ++ e.1 = path with
  | some e => some e.1
  | none => F.aliases.lookup path

/-- The device that a path denotes. -/
def device (path : String) : Option Node := (F.resolve path).bind F.node

/-- The nodes that `lsblk` prints for a node: itself and what is stacked over it. -/
def below (name : String) : List String :=
  F.nodes.foldl
    (fun acc e => if e.1 = name ∨ ∃ p ∈ e.2.parents, p ∈ acc then acc ++ [e.1] else acc) []

/-- The partitions that `lsblk` prints for a node. -/
def parts (name : String) : List String :=
  (F.below name).filter fun n => (F.node n).any fun x => x.type = .part

/-- The first partition that `lsblk` prints for a node with a given number. -/
def partition? (name number : String) : Option String :=
  (F.parts name).find? fun n => (F.node n).any fun x => x.partno = number

/-- One node lies immediately on another. -/
def LiesOn (m n : String) : Prop := ∃ x, F.node m = some x ∧ n ∈ x.parents

/-- One node is stored on another, at any depth. -/
def StoredOn : String → String → Prop := Relation.ReflTransGen F.LiesOn

/-- A path denotes a whole disk. -/
def IsDisk (path : String) : Prop := ∃ x, F.device path = some x ∧ x.type = .disk

/-- A path denotes a device with the `RM` flag. -/
def Removable (path : String) : Prop := ∃ x, F.device path = some x ∧ x.removable = true

/-- A path denotes a device that is neither marked removable nor attached by USB. -/
def Internal (path : String) : Prop :=
  ∃ x, F.device path = some x ∧ x.removable = false ∧ x.transport ≠ .usb

/-- A path denotes a partition of the disk that another path denotes. -/
def IsPartOf (path disk : String) : Prop :=
  ∃ x n, F.device path = some x ∧ x.type = .part ∧ x.parents = [n] ∧ F.resolve disk = some n

variable {F}

theorem internal_iff {path : String} {x : Node} (hx : F.device path = some x) :
    F.Internal path ↔ x.removable = false ∧ x.transport ≠ .usb := by
  simp [Internal, hx]

theorem node_of_mem {n : String} (h : n ∈ F.nodes.map Prod.fst) : ∃ x, F.node n = some x := by
  rw [node]
  cases hl : F.nodes.lookup n with
  | some x => exact ⟨x, rfl⟩
  | none =>
    obtain ⟨e, he, rfl⟩ := List.mem_map.1 h
    have := List.lookup_eq_none_iff.1 hl e he
    simp at this

theorem mem_of_resolve {path n : String} (h : F.resolve path = some n) :
    n ∈ F.nodes.map Prod.fst := by
  unfold resolve at h
  split at h
  · rename_i e he
    cases h
    exact List.mem_map_of_mem (List.mem_of_find?_eq_some he)
  · have hm : (path, n) ∈ F.aliases := by
      obtain ⟨l₁, l₂, hl, -⟩ := List.lookup_eq_some_iff.1 h
      simp [hl]
    exact (F.aliases_nodes _ hm).2

theorem device_of_resolve {path n : String} (h : F.resolve path = some n) :
    ∃ x, F.device path = some x ∧ F.node n = some x := by
  obtain ⟨x, hx⟩ := node_of_mem (mem_of_resolve h)
  exact ⟨x, by simp [device, h, hx], hx⟩

/-- The canonical path of a node denotes it. -/
theorem resolve_dev {n : String} (h : n ∈ F.nodes.map Prod.fst) :
    F.resolve ("/dev/" ++ n) = some n := by
  unfold resolve
  split
  · rename_i e he
    have := List.find?_some he
    simp only [String.append_right_inj, decide_eq_true_eq] at this
    rw [this]
  · rename_i hn
    obtain ⟨e, he, rfl⟩ := List.mem_map.1 h
    have := List.find?_eq_none.1 hn e he
    simp at this

theorem resolve_empty : F.resolve "" = none := by
  unfold resolve
  split
  · rename_i e he
    have := List.find?_some he
    simp [String.append_eq_empty_iff] at this
  · cases h : F.aliases.lookup "" with
    | none => rfl
    | some n =>
      obtain ⟨l₁, l₂, hl, -⟩ := List.lookup_eq_some_iff.1 h
      exact ((F.aliases_nodes ("", n) (by simp [hl])).1 rfl).elim

end Forest

/-- Where `/` is mounted from. -/
structure RootMount (F : Forest) where
  /-- The device string of the mount. -/
  device : String
  /-- The kernel name of the device. -/
  node : String
  /-- The subvolume that `findmnt` appends in brackets. -/
  subvolume : Option String
  /-- The device string denotes the device. -/
  resolves : F.resolve device = some node

/-- The `SOURCE` column of `findmnt`. -/
def RootMount.source {F : Forest} (root : RootMount F) : String :=
  match root.subvolume with
  | none => root.device
  | some sub => root.device ++ "[" ++ sub ++ "]"

namespace Forest

variable (F : Forest) (root : RootMount F)

/-- One line for a device, failure for any other path. -/
def Column (f : Node → String) (path : String) (r : Reply) : Prop :=
  match F.device path with
  | some x => r.status = 0 ∧ r.out = [f x]
  | none => r.status ≠ 0 ∧ r.out = []

/-- The same, where the line may be padded with blanks. -/
def PaddedColumn (f : Node → String) (path : String) (r : Reply) : Prop :=
  match F.device path with
  | some x => r.status = 0 ∧ trBlank r.text = f x ∧ trBlank r.firstLine = f x
  | none => r.status ≠ 0 ∧ r.out = []

/-- The truthful replies about the devices. -/
def Answers : Query → Reply → Prop
  | .test .b (.host path), r => r.ok = (F.resolve path).isSome
  | .lsblkType path, r => F.Column (fun x => x.type.label) path r
  | .lsblkRm path, r => F.PaddedColumn Node.rmLabel path r
  | .lsblkTran path, r => F.PaddedColumn (fun x => x.transport.label) path r
  | .lsblkPkname path, r => r.firstLine = ((F.device path).bind Node.pkname).getD ""
  | .lsblkParts path, r => r.out = ((F.resolve path).elim [] F.parts).map ("/dev/" ++ ·)
  | .lsblkPartn1 path, r => match F.resolve path with
    | some n => r.status = 0 ∧ r.out = (F.partition? n "1").toList.map ("/dev/" ++ ·)
    | none => r.status ≠ 0 ∧ r.out = []
  | .sysPartition path, r => match F.node (basename path) with
    | some x => r.out = if x.type = .part then [x.partno] else []
    | none => r.out = []
  | .readlink path, r => match F.resolve path with
    | some n => r.status = 0 ∧ F.resolve r.text = some n
    | none => True
  | .findmntRoot, r => r = .lines [root.source]
  | _, _ => True

/-- The surroundings in which all device queries are answered truthfully. -/
def Truthful : Cmd → Reply → Prop
  | .query q, r => F.Answers root q r
  | _, _ => True

@[simp] theorem truthful_query {q : Query} {r : Reply} :
    F.Truthful root (.query q) r ↔ F.Answers root q r := Iff.rfl

/-- What `rootParent` computes. -/
def rootParentOf (source : String) : String :=
  match (F.device source).bind Node.pkname with
  | some p => "/dev/" ++ p
  | none => ""

/-- `--disk` is, as a string, the source of `/` or the path of the parent that `lsblk` reports. -/
def NamesRoot (disk : String) : Prop :=
  disk = root.source ∨ ∃ x p, F.device root.source = some x ∧ x.pkname = some p ∧
    disk = "/dev/" ++ p

end Forest

end Usb

end InstallKit
