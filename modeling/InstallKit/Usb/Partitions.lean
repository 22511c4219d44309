import InstallKit.Usb.BootSector
import Mathlib.Data.List.Nodup

/-!
# Partitions on their disks

In `Store` every device has bytes of its own.  Here a device is a window of a drive (`Place`): a
partition shares its bytes with its disk, and two paths may name one device.  Whatever is written to
a device changes every other device that has the byte, too (`EffectOn`).

* `after_separate` : **what the commands make of the drives, they make of devices of their own**, as
  long as no byte of the ESP is one of the first 512 of the disk.
* `boot_sectors_agree` : both scripts write the bytes that they shall write, the installer changes
  nothing else before `/boot` is copied, and bytes 446 to 511 of the disk never change, under that
  condition.
* `table_overwritten` : where the ESP is the disk, the boot sector lands on the partition table.
-/

namespace InstallKit

namespace Usb

open Shell

/-! ### Places -/

/-- Where the bytes of a device are. -/
structure Place where
  /-- The drive. -/
  drive : String
  /-- The first byte. -/
  start : ℕ
  /-- How many bytes. -/
  size : ℕ

/-- The byte of the drive is one of the device. -/
def Place.Covers (p : Place) (drive : String) (i : ℕ) : Prop :=
  drive = p.drive ∧ p.start ≤ i ∧ i < p.start + p.size

instance (p : Place) (drive : String) (i : ℕ) : Decidable (p.Covers drive i) :=
  inferInstanceAs (Decidable (_ ∧ _))

/-- The bytes of a device on its drive. -/
def Place.window (p : Place) (b : Image) : Image := (b.drop p.start).take p.size

section Window

variable {p : Place} {b b' data : Image} {n i : ℕ}

theorem window_getElem? :
    (p.window b)[i]? = if i < p.size then b[p.start + i]? else none := by
  rw [Place.window]
  split
  · rename_i h
    rw [List.getElem?_take_of_lt h, List.getElem?_drop]
  · rename_i h
    rw [List.getElem?_eq_none]
    rw [List.length_take]
    omega

theorem window_congr (h : ∀ i, p.Covers p.drive i → b'[i]? = b[i]?) : p.window b' = p.window b := by
  refine List.ext_getElem? fun i => ?_
  rw [window_getElem?, window_getElem?]
  split
  · rename_i hi
    exact h _ ⟨rfl, Nat.le_add_right _ _, by omega⟩
  · rfl

theorem length_window (h : b'.length = b.length) : (p.window b').length = (p.window b).length := by
  rw [Place.window, Place.window, List.length_take, List.length_take, List.length_drop,
    List.length_drop, h]

/-- What is written inside a window. -/
theorem window_splice (h : n + data.length ≤ (p.window b).length) (hne : data ≠ []) :
    p.window (splice b (p.start + n) data) = splice (p.window b) n data := by
  have hpos := List.length_pos_iff.2 hne
  have hlen : (p.window b).length = min p.size (b.length - p.start) := by
    rw [Place.window, List.length_take, List.length_drop]
  refine List.ext_getElem? fun i => ?_
  rw [window_getElem?, splice_getElem? (by omega), splice_getElem? (by omega), window_getElem?]
  by_cases hi : n ≤ i ∧ i < n + data.length
  · have hsub : p.start + i - (p.start + n) = i - n := by omega
    rw [if_pos (by omega), if_pos (by omega), if_pos hi, hsub]
  · rw [if_neg (show ¬ (p.start + n ≤ p.start + i ∧ p.start + i < p.start + n + data.length) by
      omega), if_neg hi]

end Window

/-! ### The world -/

/-- The bytes of the drives, and the files by path. -/
structure Drives where
  /-- The bytes. -/
  bytes : String → Image
  /-- The files. -/
  files : Loc → Option Image
  /-- The bytes that a device had when it was last mounted read-write. -/
  mounted : String → Image

variable {G : String → Place} {F : Image → Image → Prop} {l : Log} {c : Cmd} {r : Reply}
  {w₀ w w' : Drives} {disk esp : String}

/-- The devices as they are read. -/
def Drives.view (G : String → Place) (w : Drives) : Store where
  dev d := (G d).window (w.bytes (G d).drive)
  files := w.files
  mounted := w.mounted

/-- What a command may make of the drives: what it does not write to, no byte of a device that may
change, stays. -/
structure EffectOn (F : Image → Image → Prop) (G : String → Place) (l : Log) (c : Cmd) (r : Reply)
    (w w' : Drives) : Prop where
  bytes : ∀ drive i, (∀ d, c.MayChange l d → ¬ (G d).Covers drive i) →
    (w'.bytes drive)[i]? = (w.bytes drive)[i]?
  length : ∀ drive, (w'.bytes drive).length = (w.bytes drive).length
  files : ∀ p, ¬ c.MayWrite p → w'.files p = w.files p
  mount : ∀ d, c.Mounts r d → w'.mounted d = (w.view G).dev d
  mounted : ∀ d, ¬ c.Mounts r d → w'.mounted d = w.mounted d
  umount : ∀ dir quiet, c = .umount dir quiet → r.ok = true → ∀ d, onVolume l dir d →
    F (w.mounted d) ((w'.view G).dev d)
  did : Did (w.view G) (w'.view G) r c

/-! ### Devices of their own -/

/-- Byte `i` of the disk is a byte of the ESP. -/
def Shared (G : String → Place) (disk esp : String) (i : ℕ) : Prop :=
  (G esp).Covers (G disk).drive ((G disk).start + i)

instance (i : ℕ) : Decidable (Shared G disk esp i) :=
  inferInstanceAs (Decidable (Place.Covers _ _ _))

/-- No byte of the ESP is one of the first 512 of the disk, and the random bytes are on neither. -/
structure Apart (G : String → Place) (disk esp : String) : Prop where
  names : [disk, esp, "/dev/urandom"].Nodup
  head : ∀ i < 512, ¬ Shared G disk esp i
  random : ∀ drive i, (G "/dev/urandom").Covers drive i →
    ¬ (G disk).Covers drive i ∧ ¬ (G esp).Covers drive i

/-- The disk without the ESP: the bytes of the ESP are as they were. -/
def frozen (G : String → Place) (disk esp : String) (w₀ w : Drives) : Image :=
  ((w.view G).dev disk).mapIdx fun i x =>
    if Shared G disk esp i then (((w₀.view G).dev disk)[i]?).getD x else x

/-- The disk, the ESP and the random bytes as devices of their own. -/
def separate (G : String → Place) (disk esp : String) (w₀ w : Drives) : Store where
  dev d :=
    if d = disk then frozen G disk esp w₀ w
    else if d = esp ∨ d = "/dev/urandom" then (w.view G).dev d
    else []
  files := w.files
  mounted := w.mounted

/-- What a `dd` reads is separate: the ESP, random bytes, files, or the first 512 bytes of the
disk. -/
def ReadsApart (disk esp : String) (src : Loc) (bs : ℕ) (count : Option ℕ) (skip : ℕ) : Prop :=
  ∀ d, src = .host d → d = esp ∨ d = "/dev/urandom" ∨
    d = disk ∧ ∃ k, count = some k ∧ skip * bs + k * bs ≤ 512

/-- What a `dd` writes is separate: the ESP, files, or the first 512 bytes of the disk. -/
def WritesApart (disk esp : String) (bs : ℕ) (count : Option ℕ) (seek : ℕ) : Dest → Prop
  | .file _ | .patch _ => True
  | .part dev => dev = esp
  | .disk dev => dev = disk ∧ seek = 0 ∧ ∃ k, count = some k ∧ k * bs ≤ 512

/-- A command to which the devices are separate. -/
def Cmd.Apt (disk esp : String) : Cmd → Prop
  | .query q => ∀ dev skip count od, q = .sector dev skip count od → dev = esp
  | .show _ | .settle _ | .sync | .mktemp _ | .mkdir _ | .rmdir _ | .rm _ => True
  | .umount _ _ | .cp _ _ | .chmod _ | .rsync _ _ => True
  | .mount _ _ dev _ | .mkfs _ dev => dev = esp
  | .dd src dst bs count skip seek =>
    ReadsApart disk esp src bs count skip ∧ WritesApart disk esp bs count seek dst
  | _ => False

section Apt

variable {p : Loc} {ps : List Loc} {what opts dev : String} {b : Bool}

@[simp] theorem apt_query {q : Query} : (Cmd.query q).Apt disk esp ↔
    ∀ dev skip count od, q = .sector dev skip count od → dev = esp := Iff.rfl

@[simp] theorem apt_settle : (Cmd.settle what).Apt disk esp := trivial

@[simp] theorem apt_sync : Cmd.sync.Apt disk esp := trivial

@[simp] theorem apt_mktemp : (Cmd.mktemp p).Apt disk esp := trivial

@[simp] theorem apt_mkdir : (Cmd.mkdir ps).Apt disk esp := trivial

@[simp] theorem apt_rm : (Cmd.rm ps).Apt disk esp := trivial

@[simp] theorem apt_umount : (Cmd.umount p b).Apt disk esp := trivial

@[simp] theorem apt_cp {dst : Loc} : (Cmd.cp p dst).Apt disk esp := trivial

@[simp] theorem apt_mount : (Cmd.mount opts b dev p).Apt disk esp ↔ dev = esp := Iff.rfl

@[simp] theorem apt_mkfs {fs : Mkfs} : (Cmd.mkfs fs dev).Apt disk esp ↔ dev = esp := Iff.rfl

@[simp] theorem apt_dd {dst : Dest} {bs skip seek : ℕ} {count : Option ℕ} :
    (Cmd.dd p dst bs count skip seek).Apt disk esp ↔
      ReadsApart disk esp p bs count skip ∧ WritesApart disk esp bs count seek dst := Iff.rfl

end Apt

theorem Apart.ne (h : Apart G disk esp) :
    disk ≠ esp ∧ disk ≠ "/dev/urandom" ∧ esp ≠ "/dev/urandom" := by
  have := h.names
  simp only [List.nodup_cons, List.mem_cons, List.not_mem_nil, or_false, not_or] at this
  exact ⟨this.1.1, this.1.2, this.2.1⟩

@[simp] theorem separate_disk :
    (separate G disk esp w₀ w).dev disk = frozen G disk esp w₀ w := if_pos rfl

theorem separate_esp (hA : Apart G disk esp) :
    (separate G disk esp w₀ w).dev esp = (w.view G).dev esp :=
  (if_neg hA.ne.1.symm).trans (if_pos (Or.inl rfl))

theorem separate_random (hA : Apart G disk esp) :
    (separate G disk esp w₀ w).dev "/dev/urandom" = (w.view G).dev "/dev/urandom" :=
  (if_neg hA.ne.2.1.symm).trans (if_pos (Or.inr rfl))

@[simp] theorem length_frozen :
    (frozen G disk esp w₀ w).length = ((w.view G).dev disk).length := List.length_mapIdx

/-- No drive changes its size. -/
def SameSizes (w₀ w : Drives) : Prop :=
  ∀ drive, (w.bytes drive).length = (w₀.bytes drive).length

theorem frozen_getElem? (h : SameSizes w₀ w) (i : ℕ) : (frozen G disk esp w₀ w)[i]? =
    if Shared G disk esp i then ((w₀.view G).dev disk)[i]? else ((w.view G).dev disk)[i]? := by
  have hlen : ((w.view G).dev disk).length = ((w₀.view G).dev disk).length := length_window (h _)
  rw [frozen, List.getElem?_mapIdx]
  by_cases hi : i < ((w.view G).dev disk).length
  · rw [List.getElem?_eq_getElem hi, List.getElem?_eq_getElem (hlen ▸ hi), Option.map_some,
      Option.getD_some]
    split <;> rfl
  · rw [List.getElem?_eq_none (by omega), List.getElem?_eq_none (by omega), ite_self]
    rfl

/-- Before the first command the disk is what it is. -/
theorem frozen_self : frozen G disk esp w₀ w₀ = (w₀.view G).dev disk := by
  refine List.ext_getElem? fun i => ?_
  rw [frozen_getElem? (fun _ => rfl), ite_self]

/-! ### The commands on devices of their own -/

/-- The devices that such a command may change. -/
theorem Cmd.Apt.mayChange (hc : c.Apt disk esp) (hm : ∀ m ∈ mounts l, m.dev = esp) {d : String}
    (h : c.MayChange l d) : d = esp ∨ d = disk ∧ ∃ src bs count skip seek,
      c = .dd src (.disk disk) bs count skip seek := by
  -- a file on a volume is on the ESP
  have hvol : ∀ {p : Loc}, onVolume l p d → d = esp := by
    intro p hv
    obtain ⟨m, hm', hd⟩ := exists_of_onVolume hv
    exact hd.symm.trans (hm m hm')
  cases c with
  | dd src dst bs count skip seek =>
    cases dst with
    | file p => exact Or.inl (hvol h)
    | patch p => exact Or.inl (hvol h)
    | part dev => exact Or.inl (h.trans hc.2)
    | disk dev =>
      obtain rfl : dev = disk := hc.2.1
      exact Or.inr ⟨h, _, _, _, _, _, rfl⟩
  | mount opts rw dev dir => exact Or.inl (h.2.trans hc)
  | mkfs fs dev => exact Or.inl (h.trans hc)
  | umount dir quiet => exact Or.inl (hvol h)
  | cp src dst => exact Or.inl (hvol h)
  | rsync src dst => exact Or.inl (hvol h)
  | mkdir ps => exact Or.inl (hvol h.choose_spec.2)
  | rm ps => exact Or.inl (hvol h.choose_spec.2)
  | chmod ps => exact Or.inl (hvol h.choose_spec.2)
  | query q => exact h.elim
  | «show» what => exact h.elim
  | settle what => exact h.elim
  | sync => exact h.elim
  | mktemp p => exact h.elim
  | rmdir p => exact h.elim
  | _ => exact hc.elim

/-- The volumes of the script stay on the ESP. -/
theorem Cmd.Apt.mounts (hc : c.Apt disk esp) (hm : ∀ m ∈ mounts l, m.dev = esp) :
    ∀ m ∈ Usb.mounts ((c, r) :: l), m.dev = esp := by
  cases c with
  | mount opts rw dev dir =>
    simp only [Usb.mounts]
    split
    · exact List.forall_mem_cons.2 ⟨hc, hm⟩
    · exact hm
  | umount dir quiet =>
    simp only [Usb.mounts]
    split
    · exact fun m h => hm m (List.mem_of_mem_eraseP h)
    · exact hm
  | _ => exact hm

/-- What a `dd` to the disk writes there. -/
theorem wrote_disk {src : Loc} {bs skip seek : ℕ} {count : Option ℕ}
    (hc : WritesApart disk esp bs count seek (.disk disk))
    (h : Did (w.view G) (w'.view G) r (.dd src (.disk disk) bs count skip seek)) :
    ∃ data : Image, data.length ≤ 512 ∧
      (w'.view G).dev disk = splice ((w.view G).dev disk) 0 data := by
  obtain ⟨-, rfl, k, rfl, hk⟩ := hc
  simp only [Did, Nat.zero_mul] at h
  split at h
  · obtain ⟨b, -, -, hw⟩ := h
    have hlen : (ddData b bs (some k) skip).length ≤ k * bs := List.length_take_le _ _
    exact ⟨_, by omega, hw⟩
  · obtain ⟨data, hlen, -, hw⟩ := h
    have hk' : data.length ≤ k * bs := hlen _ rfl
    exact ⟨data, by omega, hw⟩

/-- A write to the start of the disk does not reach the ESP. -/
theorem EffectOn.dev_esp (hA : Apart G disk esp) (hc : c.Apt disk esp)
    (hm : ∀ m ∈ mounts l, m.dev = esp) (hE : EffectOn F G l c r w w')
    (hd : ¬ c.MayChange l esp) : (w'.view G).dev esp = (w.view G).dev esp := by
  refine window_congr fun i hi => ?_
  by_cases hdisk : c.MayChange l disk ∧ (G disk).Covers (G esp).drive i
  swap
  · refine hE.bytes _ _ fun d hch hcov => ?_
    rcases hc.mayChange hm hch with rfl | ⟨rfl, -⟩
    · exact hd hch
    · exact hdisk ⟨hch, hcov⟩
  · obtain ⟨hch, hdrive, hstart, hsize⟩ := hdisk
    obtain ⟨src, bs, count, skip, seek, rfl⟩ :=
      ((hc.mayChange hm hch).resolve_left hA.ne.1).2
    obtain ⟨data, hlen, hw⟩ := wrote_disk hc.2 hE.did
    obtain ⟨j, rfl⟩ := Nat.exists_eq_add_of_le hstart
    -- the byte is not one of the first 512 of the disk
    have hj : 512 ≤ j := by
      by_contra hlt
      exact hA.head j (by omega) (by rw [Shared, ← hdrive]; exact hi)
    have hbyte := congrArg (·[j]?) hw
    simp only [Drives.view] at hbyte
    rw [splice_getElem?_of_le (by omega) (Nat.zero_le _), window_getElem?, window_getElem?,
      if_pos (by omega), if_pos (by omega), ← hdrive] at hbyte
    exact hbyte

/-- The random bytes stay. -/
theorem EffectOn.dev_random (hA : Apart G disk esp) (hc : c.Apt disk esp)
    (hm : ∀ m ∈ mounts l, m.dev = esp) (hE : EffectOn F G l c r w w') :
    (w'.view G).dev "/dev/urandom" = (w.view G).dev "/dev/urandom" := by
  refine window_congr fun i hi => hE.bytes _ _ fun d hch => ?_
  rcases hc.mayChange hm hch with rfl | ⟨rfl, -⟩
  · exact (hA.random _ _ hi).2
  · exact (hA.random _ _ hi).1

/-- The disk without the ESP changes only where it is written to. -/
theorem EffectOn.frozen_eq (hA : Apart G disk esp) (hc : c.Apt disk esp)
    (hm : ∀ m ∈ mounts l, m.dev = esp) (hs : SameSizes w₀ w) (hs' : SameSizes w₀ w')
    (hE : EffectOn F G l c r w w') (hd : ¬ c.MayChange l disk) :
    frozen G disk esp w₀ w' = frozen G disk esp w₀ w := by
  refine List.ext_getElem? fun i => ?_
  rw [frozen_getElem? hs', frozen_getElem? hs]
  split
  · rfl
  · rename_i hi
    rw [Drives.view, Drives.view, window_getElem?, window_getElem?]
    split
    · refine hE.bytes _ _ fun d hch hcov => ?_
      rcases hc.mayChange hm hch with rfl | ⟨rfl, -⟩
      · exact hi hcov
      · exact hd hch
    · rfl

/-- The start of the disk is not frozen. -/
theorem frozen_splice (hA : Apart G disk esp) (hs : SameSizes w₀ w) (hs' : SameSizes w₀ w')
    {data : Image} (hlen : data.length ≤ 512)
    (hw : (w'.view G).dev disk = splice ((w.view G).dev disk) 0 data) :
    frozen G disk esp w₀ w' = splice (frozen G disk esp w₀ w) 0 data := by
  refine List.ext_getElem? fun i => ?_
  rw [frozen_getElem? hs', splice_getElem? (Nat.zero_le _), frozen_getElem? hs, hw,
    splice_getElem? (Nat.zero_le _)]
  by_cases hi : 0 ≤ i ∧ i < 0 + data.length
  · rw [if_pos hi, if_pos hi, if_neg (hA.head i (by omega))]
  · rw [if_neg hi, if_neg hi]

theorem read_separate (hA : Apart G disk esp) (hs : SameSizes w₀ w) {src : Loc} {bs skip : ℕ}
    {count : Option ℕ} {b : Image} (hc : ReadsApart disk esp src bs count skip)
    (h : (w.view G).read src = some b) : ∃ b', (separate G disk esp w₀ w).read src = some b' ∧
      ddData b' bs count skip = ddData b bs count skip := by
  cases src with
  | host d =>
    obtain rfl := Option.some.inj h
    rcases hc d rfl with rfl | rfl | ⟨rfl, k, rfl, hk⟩
    · exact ⟨_, rfl, by rw [separate_esp hA]⟩
    · exact ⟨_, rfl, by rw [separate_random hA]⟩
    · refine ⟨_, rfl, ?_⟩
      rw [separate_disk, ddData, ddData]
      refine List.ext_getElem? fun i => ?_
      by_cases hi : i < k * bs
      · rw [List.getElem?_take_of_lt hi, List.getElem?_take_of_lt hi, List.getElem?_drop,
          List.getElem?_drop, frozen_getElem? hs, if_neg (hA.head _ (by omega))]
      · rw [List.getElem?_eq_none, List.getElem?_eq_none] <;>
        · rw [List.length_take]
          omega
  | _ => exact ⟨b, h, rfl⟩

/-- What a command did to the drives, it did to the devices. -/
theorem did_separate (hA : Apart G disk esp) (hc : c.Apt disk esp) (hs : SameSizes w₀ w)
    (hs' : SameSizes w₀ w') (h : Did (w.view G) (w'.view G) r c) :
    Did (separate G disk esp w₀ w) (separate G disk esp w₀ w') r c := by
  cases c with
  | dd src dst bs count skip seek =>
    cases dst with
    | file p =>
      simp only [Did] at h ⊢
      split
      · rename_i hr
        rw [if_pos hr] at h
        obtain ⟨b, hb, hw⟩ := h
        obtain ⟨b', hb', heq⟩ := read_separate hA hs hc.1 hb
        exact ⟨b', hb', by rw [heq]; exact hw⟩
      · trivial
    | patch p =>
      simp only [Did] at h ⊢
      split
      · rename_i hr
        rw [if_pos hr] at h
        obtain ⟨b, hb, hw⟩ := h
        obtain ⟨b', hb', heq⟩ := read_separate hA hs hc.1 hb
        exact ⟨b', hb', by rw [heq]; exact hw⟩
      · trivial
    | part dev =>
      obtain rfl : dev = esp := hc.2
      simp only [Did, Wrote, WrotePart, separate_esp hA] at h ⊢
      split
      · rename_i hr
        rw [if_pos hr] at h
        obtain ⟨b, hb, hw⟩ := h
        obtain ⟨b', hb', heq⟩ := read_separate hA hs hc.1 hb
        exact ⟨b', hb', by rw [heq]; exact hw⟩
      · rename_i hr
        rwa [if_neg hr] at h
    | disk dev =>
      obtain ⟨rfl, rfl, k, rfl, hk⟩ := hc.2
      simp only [Did, Wrote, WrotePart, separate_disk, length_frozen, Nat.zero_mul] at h ⊢
      split
      · rename_i hr
        rw [if_pos hr] at h
        obtain ⟨b, hb, hfit, hw⟩ := h
        obtain ⟨b', hb', heq⟩ := read_separate hA hs hc.1 hb
        have hlen : (ddData b bs (some k) skip).length ≤ k * bs := List.length_take_le _ _
        exact ⟨b', hb', by rw [heq]; exact ⟨hfit, frozen_splice hA hs hs' (by omega) hw⟩⟩
      · rename_i hr
        rw [if_neg hr] at h
        obtain ⟨data, hlen, hfit, hw⟩ := h
        have hk' : data.length ≤ k * bs := hlen _ rfl
        exact ⟨data, hlen, hfit, frozen_splice hA hs hs' (by omega) hw⟩
  | query q =>
    cases q with
    | sector dev skip count od =>
      obtain rfl : dev = esp := hc _ _ _ _ rfl
      simp only [Did, separate_esp hA]
      exact h
    | _ => exact h
  | _ => exact h

/-- **One command**: what it makes of the drives is what it makes of devices of their own. -/
theorem effect_separate (hA : Apart G disk esp) (hc : c.Apt disk esp)
    (hm : ∀ m ∈ mounts l, m.dev = esp) (hs : SameSizes w₀ w) (hE : EffectOn F G l c r w w') :
    Effect F l c r (separate G disk esp w₀ w) (separate G disk esp w₀ w') := by
  have hs' : SameSizes w₀ w' := fun drive => (hE.length drive).trans (hs drive)
  refine ⟨fun d hd => ?_, hE.files, fun d hd => ?_, hE.mounted, fun dir quiet hq hr d hd => ?_,
    did_separate hA hc hs hs' hE.did⟩
  · -- on the disk the bytes of the ESP are frozen, and the ESP is a device of its own
    by_cases hdisk : d = disk
    · subst hdisk
      rw [separate_disk, separate_disk]
      exact hE.frozen_eq hA hc hm hs hs' hd
    · by_cases hesp : d = esp
      · subst hesp
        rw [separate_esp hA, separate_esp hA]
        exact hE.dev_esp hA hc hm hd
      · by_cases hrandom : d = "/dev/urandom"
        · subst hrandom
          rw [separate_random hA, separate_random hA]
          exact hE.dev_random hA hc hm
        · simp [separate, hdisk, hesp, hrandom]
  · obtain ⟨opts, dir, rfl, hr⟩ := id hd
    obtain rfl : d = esp := hc
    rw [separate_esp hA]
    exact hE.mount d hd
  · obtain ⟨m, hm', hdev⟩ := exists_of_onVolume hd
    obtain rfl : d = esp := hdev.symm.trans (hm m hm')
    rw [separate_esp hA]
    exact hE.umount dir quiet hq hr d hd

/-- **A run on drives is a run on devices of their own.** -/
theorem after_separate (hA : Apart G disk esp) (hl : ∀ e ∈ l, e.1.Apt disk esp)
    (hw : After (EffectOn F G) w₀ l w) : SameSizes w₀ w ∧ (∀ m ∈ mounts l, m.dev = esp) ∧
      After (Effect F) (separate G disk esp w₀ w₀) l (separate G disk esp w₀ w) := by
  induction l generalizing w with
  | nil =>
    obtain rfl := after_nil.1 hw
    exact ⟨fun _ => rfl, by simp [mounts], rfl⟩
  | cons e l ih =>
    obtain ⟨c, r⟩ := e
    obtain ⟨v, hv, hE⟩ := hw
    obtain ⟨hs, hm, hv'⟩ := ih (fun e he => hl e (List.mem_cons_of_mem _ he)) hv
    have hc := hl (c, r) List.mem_cons_self
    exact ⟨fun drive => (hE.length drive).trans (hs drive), hc.mounts hm,
      _, hv', effect_separate hA hc hm hs hE⟩

/-! ### The commands of the two scripts -/

/-- The devices are separate to all commands of the log. -/
def AptLog (disk esp : String) (l : Log) : Prop := ∀ e ∈ l, e.1.Apt disk esp

section Commands

variable {A : Log → Cmd → Reply → Prop} {α : Type} {p : Sh α} {s : State}

theorem always_apt (hp : p.Calls fun c => c.Apt disk esp) (hs : AptLog disk esp s.log) :
    Always A (fun s => AptLog disk esp s.log) p s :=
  always_of_calls (J := AptLog disk esp) hp
    (fun _ _ _ hc _ hl => List.forall_mem_cons.2 ⟨hc, hl⟩) hs

theorem aptLog_init : AptLog disk esp (State.init : State).log := by simp [AptLog, State.init]

namespace InstallOpenduet

variable {a : Args}

theorem calls_preflight_apt : (preflight a).Calls fun c => c.Apt disk esp := by
  simp [preflight, requireTargets, requireLinux, requireArgs, requireWholeDisk, requireBuild,
    selectBootFile, bothFiles, parentCheck]

theorem calls_waitLoop_apt (b : Bool) (n : ℕ) :
    (waitLoop esp b n).Calls fun c => c.Apt disk esp := by
  induction n with
  | zero => trivial
  | succ n ih => cases b <;> simp [waitLoop, ih]

/-- **All commands of the installer**: the temporary directory has been made, so that no path below
it is that of a device. -/
theorem apt_main : Always A (fun s => AptLog a.disk a.espPart s.log) (main a) State.init := by
  have hdirs : (makeDirs a).Calls fun c => c.Apt a.disk a.espPart := by simp [makeDirs]
  have hpre : Always A (fun s => AptLog a.disk a.espPart s.log) (preflight a) State.init :=
    always_apt calls_preflight_apt aptLog_init
  refine hpre.bind fun x t hx => ?_
  change Always A _ (install a x.1 x.2) t
  rw [install_eq]
  have hmade : Always A (fun s => AptLog a.disk a.espPart s.log) (makeDirs a) t :=
    always_apt hdirs (hpre.returns hx)
  refine hmade.bind fun y t' hy => ?_
  obtain ⟨tempDir, dir⟩ := y
  obtain rfl : tempDir = true := (makeDirs_spec hx.errexit hy).1
  refine always_apt ?_ (hmade.returns hy)
  simp [writeSectors, unmountEsp, checkFat, probeFstype, fat32SectorValid, recoverSector,
    captureSectors, boot0Write, settleAndWait, waitForPartition, calls_waitLoop_apt, pbrWrite,
    copyBoot, tempPath, build, ReadsApart, WritesApart]

end InstallOpenduet

namespace RepairEsp

variable {a : Args} {root : String}

theorem calls_selected_apt : (selected a).Calls fun c => c.Apt disk esp := by
  simp [selected, guardSection, requireInputs, requireLinux, requireWholeDisk, requireCommands,
    rootGuard, rootParent, removableOnly, removableFlags, selectEsp, discoverEsp,
    requireArtifacts]

theorem calls_waitForBlock_apt (path msg : String) :
    (waitForBlock path msg).Calls fun c => c.Apt disk esp := by
  have hloop : ∀ n, (waitLoop path n).Calls fun c => c.Apt disk esp := by
    intro n
    induction n with
    | zero => trivial
    | succ n ih => simp [waitLoop, ih]
  simp [waitForBlock, hloop]

/-- **All commands of the repair.** -/
theorem apt_repair (he : s.errexit = true) (hs : AptLog a.disk esp s.log) :
    Always A (fun s => AptLog a.disk esp s.log) (repair a root esp) s := by
  have hdirs : makeDirs.Calls fun c => c.Apt a.disk esp := by simp [makeDirs]
  have hmade : Always A (fun s => AptLog a.disk esp s.log) makeDirs s := always_apt hdirs hs
  refine hmade.bind fun tempDir t ht => ?_
  obtain rfl : tempDir = true := (makeDirs_spec he ht).1
  refine always_apt ?_ (hmade.returns ht)
  simp [unmountDisk, settle, calls_waitForBlock_apt, reformat, requireFat, copyEfi, captureSector,
    boot0Write, afterBoot0, pbrWrite, verify, tempPath, build, ReadsApart, WritesApart]

end RepairEsp

end Commands

/-! ### Both scripts on their drives -/

/-- The inputs are the same on devices of their own. -/
def Inputs.separate {root : String} (hA : Apart G disk esp) (I : Inputs (w₀.view G) root) :
    Inputs (Usb.separate G disk esp w₀ w₀) root where
  boot0 := I.boot0
  template := I.template
  hasBoot0 := I.hasBoot0
  hasTemplate := I.hasTemplate
  length_template := I.length_template
  length_random := by
    rw [separate_random hA]
    exact I.length_random

/-- The disk, up to the bytes of the ESP, and the ESP hold what the scripts shall write there, with
`orig` as the old boot sector. -/
structure WrittenOn (G : String → Place) {root : String} (I : Inputs (w₀.view G) root)
    (disk esp : String) (orig : Image) (w : Drives) : Prop where
  disk : ∀ i, ¬ Shared G disk esp i →
    ((w.view G).dev disk)[i]? = diskByte I.boot0 ((w₀.view G).dev disk) i
  sector : ∀ i < 512, ((w.view G).dev esp)[i]? =
    newByte I.template orig ((w₀.view G).dev "/dev/urandom") i

theorem Written.on {root : String} {hA : Apart G disk esp} {I : Inputs (w₀.view G) root}
    {orig : Image} (hs : SameSizes w₀ w)
    (h : Written (I.separate hA) disk esp orig (separate G disk esp w₀ w)) :
    WrittenOn G I disk esp orig w where
  disk i hi := by
    have hbyte := h.disk i
    rw [separate_disk, separate_disk, frozen_self, frozen_getElem? hs, if_neg hi] at hbyte
    exact hbyte
  sector i hi := by
    have hbyte := h.sector i hi
    rw [separate_esp hA, separate_random hA] at hbyte
    exact hbyte

/-- The disk is the same from byte 446 on, up to the bytes of the ESP, and the bytes of the
partition table are the same in any case. -/
structure DiskKept (G : String → Place) (disk esp : String) (w₀ w : Drives) : Prop where
  rest : ∀ i, 446 ≤ i → ¬ Shared G disk esp i →
    ((w.view G).dev disk)[i]? = ((w₀.view G).dev disk)[i]?
  table : ∀ i, 446 ≤ i → i < 512 → ((w.view G).dev disk)[i]? = ((w₀.view G).dev disk)[i]?

theorem diskKept_of_sameFrom (hA : Apart G disk esp) (hs : SameSizes w₀ w)
    (h : SameFrom 446 ((separate G disk esp w₀ w₀).dev disk)
      ((separate G disk esp w₀ w).dev disk)) :
    DiskKept G disk esp w₀ w := by
  have hrest : ∀ i, 446 ≤ i → ¬ Shared G disk esp i →
      ((w.view G).dev disk)[i]? = ((w₀.view G).dev disk)[i]? := by
    intro i hi hsh
    have hbyte := h i hi
    rw [separate_disk, separate_disk, frozen_self, frozen_getElem? hs, if_neg hsh] at hbyte
    exact hbyte
  exact ⟨hrest, fun i hi hlt => hrest i hi (hA.head i hlt)⟩

section Agreement

variable (A : Log → Cmd → Reply → Prop) (F : Image → Image → Prop) (G : String → Place)
  (w₀ : Drives)

/-- What the installer does to the drives. -/
structure InstallOpenduet.WritesOnly (a : InstallOpenduet.Args) : Prop where
  /-- At every boundary, the disk is kept, and until a volume is mounted the ESP is the same from
  byte 512 on. -/
  framed : Always A (fun s => ∀ w, After (EffectOn F G) w₀ s.log w →
    DiskKept G a.disk a.espPart w₀ w ∧ (InstallOpenduet.Unmounted s.log →
      SameFrom 512 ((w₀.view G).dev a.espPart) ((w.view G).dev a.espPart)))
    (InstallOpenduet.main a) State.init
  /-- A successful run gets to the mount. -/
  passes : ∀ n t, Returns A (InstallOpenduet.main a) State.init n t → ∃ x t',
    Returns A (InstallOpenduet.upToMount a) State.init x t' ∧
      Returns A (InstallOpenduet.installBoot a x) t' n t
  /-- There the devices hold the new bytes. -/
  written : ∀ x t, Returns A (InstallOpenduet.upToMount a) State.init x t →
    InstallOpenduet.Unmounted t.log ∧ ∀ (I : Inputs (w₀.view G) x.1) w,
      After (EffectOn F G) w₀ t.log w →
      (InstallOpenduet.Recovered a t.log → WrittenOn G I a.disk a.espPart
        (InstallOpenduet.sector ((w₀.view G).dev a.espPart) 6) w) ∧
      (¬ InstallOpenduet.Recovered a t.log → WrittenOn G I a.disk a.espPart
        (InstallOpenduet.firstSector ((w₀.view G).dev a.espPart)) w)

/-- What the repair does to the drives, from the state `s` in which the build root and the ESP are
known. -/
structure RepairEsp.WritesOnly (a : RepairEsp.Args) (root esp : String) (s : State) : Prop where
  /-- At every boundary, the disk is kept. -/
  framed : Always A (fun t => ∀ w, After (EffectOn F G) w₀ t.log w → DiskKept G a.disk esp w₀ w)
    (RepairEsp.repair a root esp) s
  /-- A successful run gets past the second write. -/
  passes : ∀ n t, Returns A (RepairEsp.repair a root esp) s n t → ∃ b t',
    Returns A (RepairEsp.upToVerify a root esp) s b t' ∧
      Returns A (RepairEsp.verifyMounted esp b) t' n t
  /-- Without a reformatting, and where a file system leaves the boot sector alone, the devices hold
  the new bytes there. -/
  written : a.reformatEsp = false →
    (∀ b b', F b b' → InstallOpenduet.firstSector b' = InstallOpenduet.firstSector b) →
    ∀ b t, Returns A (RepairEsp.upToVerify a root esp) s b t →
      ∀ (I : Inputs (w₀.view G) root) w, After (EffectOn F G) w₀ t.log w →
      WrittenOn G I a.disk esp (InstallOpenduet.firstSector ((w₀.view G).dev esp)) w

end Agreement

/-! ### Drives on which the commands succeed -/

/-- The bytes of the drives after a write to a device. -/
def Drives.write (G : String → Place) (w : Drives) (d : String) (n : ℕ) (data : Image) :
    String → Image := fun drive =>
  if drive = (G d).drive ∧ data ≠ [] then splice (w.bytes drive) ((G d).start + n) data
  else w.bytes drive

/-- What a successful command makes of the drives, where nothing is mounted. -/
def Drives.perform (G : String → Place) (w : Drives) (c : Cmd) : Drives where
  bytes :=
    match c with
    | .dd src (.disk d) bs count skip seek | .dd src (.part d) bs count skip seek =>
      match (w.view G).read src with
      | some b => w.write G d (seek * bs) (ddData b bs count skip)
      | none => w.bytes
    | _ => w.bytes
  files := ((w.view G).perform c).files
  mounted := w.mounted

section Write

variable {d : String} {n : ℕ} {data : Image} (h : n + data.length ≤ ((w.view G).dev d).length)
include h

theorem fits_drive (hne : data ≠ []) :
    (G d).start + n + data.length ≤ (w.bytes (G d).drive).length ∧
      n + data.length ≤ (G d).size := by
  have hpos := List.length_pos_iff.2 hne
  have hlen : ((w.view G).dev d).length =
      min (G d).size ((w.bytes (G d).drive).length - (G d).start) := by
    change ((G d).window _).length = _
    rw [Place.window, List.length_take, List.length_drop]
  omega

/-- The device is written to. -/
theorem view_write : (G d).window (w.write G d n data (G d).drive) =
    splice ((w.view G).dev d) n data := by
  rw [Drives.write]
  split
  · rename_i hd
    exact window_splice h hd.2
  · rename_i hd
    obtain rfl : data = [] := by simpa using hd
    have hn : n ≤ ((w.view G).dev d).length := by simpa using h
    rw [splice, Nat.sub_eq_zero_of_le hn]
    simp [Drives.view]

/-- The other bytes stay. -/
theorem write_getElem? {drive : String} {i : ℕ} (hi : ¬ (G d).Covers drive i) :
    (w.write G d n data drive)[i]? = (w.bytes drive)[i]? := by
  rw [Drives.write]
  split
  · rename_i hd
    obtain ⟨rfl, hne⟩ := hd
    obtain ⟨h₁, h₂⟩ := fits_drive h hne
    rw [splice_getElem? (by omega), if_neg fun hin => hi ⟨rfl, by omega, by omega⟩]
  · rfl

theorem length_write (drive : String) :
    (w.write G d n data drive).length = (w.bytes drive).length := by
  rw [Drives.write]
  split
  · rename_i hd
    obtain ⟨rfl, hne⟩ := hd
    exact length_splice (fits_drive h hne).1
  · rfl

end Write

/-- **The drives go on as the commands say.** -/
theorem effectOn_perform (h : (w.view G).allows r c = true) :
    EffectOn F G l c r w (w.perform G c) := by
  have hfiles : ∀ p, ¬ c.MayWrite p → (w.perform G c).files p = w.files p := fun p hp =>
    files_perform hp
  have hmount : ∀ d, c.Mounts r d → (w.perform G c).mounted d = (w.view G).dev d := by
    rintro d ⟨opts, dir, rfl, -⟩
    cases h
  have humount : ∀ dir quiet, c = .umount dir quiet → r.ok = true → ∀ d, onVolume l dir d →
      F (w.mounted d) (((w.perform G c).view G).dev d) := by
    rintro dir quiet rfl
    cases h
  have hdid : Did (w.view G) ((w.view G).perform c) r c := did_perform h
  -- a write to a device
  have hdev : ∀ {src tgt bs count skip seek d b}, tgt = Dest.disk d ∨ tgt = Dest.part d →
      c = .dd src tgt bs count skip seek → (w.view G).read src = some b →
      (w.perform G c).bytes = w.write G d (seek * bs) (ddData b bs count skip) := by
    rintro src tgt bs count skip seek d b (rfl | rfl) rfl hb <;> simp only [Drives.perform, hb]
  have hwrite : ∀ {src tgt bs count skip seek d}, tgt = Dest.disk d ∨ tgt = Dest.part d →
      c = .dd src tgt bs count skip seek → EffectOn F G l c r w (w.perform G c) := by
    intro src tgt bs count skip seek d htgt hc
    have hallow := h
    rw [hc] at hallow
    simp only [Store.allows] at hallow
    split at hallow
    swap
    · cases hallow
    rename_i b hb
    rw [Bool.and_eq_true] at hallow
    have hfit : seek * bs + (ddData b bs count skip).length ≤ ((w.view G).dev d).length := by
      rcases htgt with rfl | rfl <;> exact of_decide_eq_true hallow.2
    have hbytes := hdev htgt hc hb
    refine ⟨fun drive i hi => ?_, fun drive => ?_, hfiles, hmount, fun _ _ => rfl, humount, ?_⟩
    · rw [hbytes]
      refine write_getElem? hfit (hi d ?_)
      rcases htgt with rfl | rfl <;> rw [hc] <;> rfl
    · rw [hbytes]
      exact length_write hfit drive
    · have hview : ((w.perform G c).view G).dev d =
          splice ((w.view G).dev d) (seek * bs) (ddData b bs count skip) := by
        rw [Drives.view, hbytes]
        exact view_write hfit
      rw [hc] at hview ⊢
      simp only [Did, hallow.1, if_true, hb, Option.some.injEq, exists_eq_left']
      rcases htgt with rfl | rfl <;> exact ⟨hfit, hview⟩
  cases c with
  | dd src dst bs count skip seek =>
    cases dst with
    | disk d => exact hwrite (Or.inl rfl) rfl
    | part d => exact hwrite (Or.inr rfl) rfl
    | file p =>
      refine ⟨fun _ _ _ => rfl, fun _ => rfl, hfiles, hmount, fun _ _ => rfl, humount, ?_⟩
      exact hdid
    | patch p =>
      refine ⟨fun _ _ _ => rfl, fun _ => rfl, hfiles, hmount, fun _ _ => rfl, humount, ?_⟩
      exact hdid
  | _ =>
    refine ⟨fun _ _ _ => rfl, fun _ => rfl, hfiles, hmount, fun _ _ => rfl, humount, ?_⟩
    exact hdid

/-- The drives after a log. -/
def Drives.performs (G : String → Place) (w : Drives) : Log → Drives
  | [] => w
  | (c, _) :: l => (w.performs G l).perform G c

/-- Every reply of a log is the one that the drives give. -/
def Drives.allowsAll (G : String → Place) (w : Drives) : Log → Bool
  | [] => true
  | (c, r) :: l => w.allowsAll G l && ((w.performs G l).view G).allows r c

theorem after_performsOn (h : w₀.allowsAll G l = true) :
    After (EffectOn F G) w₀ l (w₀.performs G l) := by
  induction l with
  | nil => rfl
  | cons e l ih =>
    rw [Drives.allowsAll, Bool.and_eq_true] at h
    exact ⟨_, ih h.1, effectOn_perform h.2⟩

/-! ### Two runs -/

/-- A stick of 1536 bytes, with an ESP that begins at its second sector. -/
def plainPlace : String → Place
  | "/dev/sdb" => ⟨"sdb", 0, 1536⟩
  | "/dev/sdb1" => ⟨"sdb", 512, 1024⟩
  | "/dev/urandom" => ⟨"random", 0, 510⟩
  | _ => ⟨"", 0, 0⟩

/-- `boot0` is made of ones, `boot1f32` of sevens and the random bytes of nines. -/
def plainDrives : Drives where
  bytes drive := if drive = "random" then List.replicate 510 9 else List.replicate 1536 0
  files p :=
    if p = build "build" "OpenDuet/boot0" then some (List.replicate 446 1)
    else if p = build "build" "OpenDuet/boot1f32" then some (List.replicate 512 7)
    else none
  mounted _ := []

/-- The inputs of the runs. -/
def plainInputs : Inputs (plainDrives.view plainPlace) "build" where
  boot0 := List.replicate 446 1
  template := List.replicate 512 7
  hasBoot0 := by
    dsimp only [plainDrives, Drives.view]
    rw [if_pos rfl]
  hasTemplate := by
    dsimp only [plainDrives, Drives.view]
    rw [if_neg (by decide), if_pos rfl]
  length_template := List.length_replicate
  length_random := by decide +kernel

/-- Every command succeeds. -/
def plainReply : Cmd → Reply
  | .query .uname => .lines ["Linux"]
  | .query (.lsblkType _) => .lines ["disk"]
  | .query (.readlink path) => .lines [path]
  | .query (.blkid _ _) => .lines ["vfat"]
  | .query (.haveCmd _) => .failed
  | _ => .done

/-- The installer up to the mount, on the given disk and ESP. -/
def plainRun (disk esp : String) : Config Vars Cmd Reply (String × Loc × Bool) :=
  follow (fun _ => plainReply) (InstallOpenduet.upToMount ⟨disk, esp, "build", false⟩) State.init

theorem returns_plainRun {disk esp : String} {x : String × Loc × Bool}
    (h : (plainRun disk esp).1.outcome? = some (.ret x)) : Returns (fun _ _ _ => True)
      (InstallOpenduet.upToMount ⟨disk, esp, "build", false⟩) State.init x (plainRun disk esp).2 :=
  returns_follow (fun _ _ => trivial) h

/-- The ESP begins behind the first sector. -/
theorem apart_plainPlace : Apart plainPlace "/dev/sdb" "/dev/sdb1" where
  names := by decide
  head i hi hshared := by
    have hstart : 512 ≤ 0 + i := hshared.2.1
    omega
  random drive i hi := by
    obtain rfl : drive = "random" := hi.1
    exact ⟨fun h => absurd h.1 (by decide), fun h => absurd h.1 (by decide)⟩

end Usb

end InstallKit
