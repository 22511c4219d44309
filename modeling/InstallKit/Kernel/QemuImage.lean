import InstallKit.Kernel.ByteStore

/-!
# The sparse images of a USB disk

`prepare_qemu_esp_linux.sh` and `prepare_qemu_esp_windows.ps1` copy what lies before the end of
partition 1 and the last MiB of a disk into an image of its size.  On Windows all is in bytes; on
Linux the start of the partition is a number of units of 512 bytes that the script multiplies by
the logical sector size.  With sectors of 4096 bytes the head comes out too long, and the images
agree only where the disk is zero there (`images_agree_iff`).
-/

namespace InstallKit

namespace Kernel

open ByteStore

/-- A disk and its partition 1.  The partition table counts in logical sectors, so they divide
everything. -/
structure SourceDisk where
  disk : ByteStore
  sectorSize : ℕ
  offset : ℕ
  size : ℕ
  sector : sectorSize = 512 ∨ sectorSize = 4096
  dvd_offset : sectorSize ∣ offset
  dvd_size : sectorSize ∣ size
  dvd_disk : sectorSize ∣ disk.size
  inside : offset + size ≤ disk.size
  large : 2 ^ 20 ≤ disk.size
  bounded : disk.size < 2 ^ 63

/-- A file of zeros. -/
def blank (size : ℕ) : ByteStore := ⟨size, fun _ => 0⟩

/-- The value of an arithmetic expansion. -/
def expand (n : ℤ) : ℤ := Int.bmod n (2 ^ 64)

/-- A call of `dd`, which refuses negative numbers. -/
def callDd (src : ByteStore) (bs count skip seek : ℤ) (image : ByteStore) : Option ByteStore :=
  if count < 0 ∨ skip < 0 ∨ seek < 0 then none
  else some (src.dd bs.toNat count.toNat skip.toNat seek.toNat image)

/-- The copying of `prepare_qemu_esp_linux.sh`; `blockdev --getstartsect` counts units of 512
bytes. -/
def linuxImage (d : SourceDisk) : Option ByteStore := do
  let sectorSize : ℤ := d.sectorSize
  let startSector : ℤ := (d.offset / 512 : ℕ)
  let espSize : ℤ := d.size
  let diskSize : ℤ := d.disk.size
  let headBytes := expand (expand (startSector * sectorSize) + espSize)
  let headSectors := headBytes.tdiv sectorSize
  let tailBytes : ℤ := 1048576
  let tailSectors := tailBytes.tdiv sectorSize
  let totalSectors := diskSize.tdiv sectorSize
  let tailStart := expand (totalSectors - tailSectors)
  let image := blank diskSize.toNat
  let image ← callDd d.disk sectorSize headSectors 0 0 image
  callDd d.disk sectorSize tailSectors tailStart tailStart image

/-- The copying of `prepare_qemu_esp_windows.ps1`. -/
def windowsImage (d : SourceDisk) (r : Reader d.disk) : Option ByteStore := do
  let headBytes := d.offset + d.size
  let diskBytes := d.disk.size
  let tailCandidate := diskBytes - headBytes
  let tailBytes := if tailCandidate < 1048576 then tailCandidate else 1048576
  let tailOffset := diskBytes - tailBytes
  let dst ← copyRange r (1024 * 1024) 0 headBytes (blank diskBytes)
  if tailBytes > 0 then copyRange r (1024 * 1024) tailOffset tailBytes dst else some dst

/-- An image of the size of the disk: its bytes before the end of partition 1 and on the last
MiB, or what there is of it behind the partition, and zeros between. -/
def Faithful (d : SourceDisk) (image : ByteStore) : Prop :=
  image.size = d.disk.size ∧ ∀ n < d.disk.size,
    image.byte n = if n < d.offset + d.size ∨
        d.disk.size - min (2 ^ 20) (d.disk.size - (d.offset + d.size)) ≤ n then
      d.disk.byte n else 0

variable {d : SourceDisk}

/-! ### Windows -/

theorem partial_blank (src : ByteStore) (size : ℕ) : Partial src (blank size) := fun _ => Or.inr rfl

/-- The image of two pieces of the disk. -/
def pieces (d : SourceDisk) (head tail : ℕ) : ByteStore :=
  overlay d.disk tail d.disk.size (overlay d.disk 0 head (blank d.disk.size))

theorem size_pieces {head tail : ℕ} : (pieces d head tail).size = d.disk.size := rfl

theorem byte_pieces {head tail n : ℕ} (hn : n < d.disk.size) :
    (pieces d head tail).byte n = if n < head ∨ tail ≤ n then d.disk.byte n else 0 := by
  simp only [pieces, overlay, blank]
  by_cases hh : n < head <;> by_cases ht : tail ≤ n <;> simp [hh, ht, hn]

theorem windowsImage_eq (d : SourceDisk) (r : Reader d.disk) :
    windowsImage d r = some (pieces d (d.offset + d.size)
      (d.disk.size - min (2 ^ 20) (d.disk.size - (d.offset + d.size)))) := by
  have hin := d.inside
  have hbuffer : 0 < 1024 * 1024 := by norm_num
  have hhead := copyRange_eq r hbuffer (show (blank d.disk.size).size = d.disk.size from rfl)
    (show 0 + (d.offset + d.size) ≤ d.disk.size by omega)
  have htail : (if d.disk.size - (d.offset + d.size) < 1048576 then
      d.disk.size - (d.offset + d.size) else 1048576) =
      min (2 ^ 20) (d.disk.size - (d.offset + d.size)) := by
    split <;> omega
  simp only [windowsImage, hhead, htail, Option.bind_eq_bind, Option.bind_some, Nat.zero_add]
  set tail := min (2 ^ 20) (d.disk.size - (d.offset + d.size)) with htail
  split
  · have hcopy := copyRange_eq r hbuffer (show (overlay d.disk 0 (d.offset + d.size)
      (blank d.disk.size)).size = d.disk.size from rfl)
      (show d.disk.size - tail + tail ≤ d.disk.size by omega)
    have hend : d.disk.size - tail + tail = d.disk.size := by omega
    rw [hcopy, hend, pieces]
  · -- there is nothing behind the partition
    have hnone : d.disk.size ≤ d.disk.size - tail := by omega
    rw [pieces, overlay_self hnone]

/-- The images of Windows are as they should be. -/
theorem windowsImage_faithful (d : SourceDisk) (r : Reader d.disk) :
    ∃ image, windowsImage d r = some image ∧ Faithful d image :=
  ⟨_, windowsImage_eq d r, size_pieces, fun _ hn => byte_pieces hn⟩

/-! ### Linux -/

/-- What the shell makes of `START_SECTOR * SECTOR_SIZE + ESP_SIZE`. -/
def shellHead (d : SourceDisk) : ℤ :=
  if d.sectorSize = 512 then d.offset + d.size else Int.bmod (8 * d.offset + d.size) (2 ^ 64)

theorem headBytes_eq (d : SourceDisk) :
    expand (expand (((d.offset / 512 : ℕ) : ℤ) * d.sectorSize) + d.size) = shellHead d := by
  have hin := d.inside
  have hb := d.bounded
  have hoff : 512 * (d.offset / 512) = d.offset := by
    refine Nat.mul_div_cancel' (Dvd.dvd.trans ?_ d.dvd_offset)
    rcases d.sector with h | h <;> rw [h]
    norm_num
  rw [expand, expand, Int.bmod_add_bmod, shellHead]
  rcases d.sector with h | h
  · rw [if_pos h, h]
    have : ((d.offset / 512 : ℕ) : ℤ) * (512 : ℕ) + d.size = d.offset + d.size := by omega
    rw [this]
    exact Int.bmod_eq_of_le (by omega) (by omega)
  · rw [if_neg (by omega), h]
    congr 1
    omega

theorem dvd_shellHead (d : SourceDisk) : (d.sectorSize : ℤ) ∣ shellHead d := by
  obtain ⟨k, hk⟩ := d.dvd_offset
  obtain ⟨l, hl⟩ := d.dvd_size
  rw [shellHead]
  rcases d.sector with h | h
  · rw [if_pos h]
    exact ⟨k + l, by rw [hk, hl]; push_cast; ring⟩
  · rw [if_neg (by omega)]
    have hsub : ((2 ^ 64 : ℕ) : ℤ) ∣ Int.bmod (8 * d.offset + d.size) (2 ^ 64) -
        (8 * d.offset + d.size) := Int.dvd_bmod_sub_self
    obtain ⟨m, hm⟩ := hsub
    refine ⟨m * 2 ^ 52 + 8 * k + l, ?_⟩
    rw [hk, hl, h] at hm ⊢
    push_cast at hm ⊢
    omega

theorem sectorSize_pos (d : SourceDisk) : 0 < d.sectorSize := by
  rcases d.sector with h | h <;> omega

/-- Two calls of `dd` from the start of the disk and on its last sectors. -/
theorem dd_pieces (d : SourceDisk) (head tail total : ℕ) (htotal : d.disk.size = d.sectorSize * total)
    (htail : tail ≤ total) :
    d.disk.dd d.sectorSize tail (total - tail) (total - tail)
        (d.disk.dd d.sectorSize head 0 0 (blank d.disk.size)) =
      pieces d (min (d.sectorSize * head) d.disk.size) (d.disk.size - d.sectorSize * tail) := by
  have hss := sectorSize_pos d
  have hhead := dd_eq hss (show (blank d.disk.size).size = d.disk.size from rfl)
    (partial_blank d.disk d.disk.size) head 0
  have hrest := dd_eq hss (show (overlay d.disk 0 (min (d.sectorSize * head) d.disk.size)
      (blank d.disk.size)).size = d.disk.size from rfl)
    ((partial_blank d.disk d.disk.size).overlay 0 (min (d.sectorSize * head) d.disk.size)) tail
    (total - tail)
  have hstart : (total - tail) * d.sectorSize = d.disk.size - d.sectorSize * tail := by
    rw [htotal, Nat.mul_comm, Nat.mul_sub]
  have hend : (total - tail + tail) * d.sectorSize = d.disk.size := by
    rw [Nat.sub_add_cancel htail, htotal, Nat.mul_comm]
  rw [Nat.zero_mul, Nat.zero_add, Nat.mul_comm] at hhead
  rw [hhead, hrest, hstart, hend, min_self, pieces]

/-- The copying of the head, and that of the last MiB. -/
theorem linuxImage_eq (d : SourceDisk) : linuxImage d = if shellHead d < 0 then none else
    some (pieces d (min (shellHead d).toNat d.disk.size) (d.disk.size - 2 ^ 20)) := by
  have hss := sectorSize_pos d
  have hlarge := d.large
  have hbounded := d.bounded
  obtain ⟨w, hw⟩ := dvd_shellHead d
  obtain ⟨total, htotal⟩ := d.dvd_disk
  obtain ⟨tail, htail⟩ : d.sectorSize ∣ 1048576 := by
    rcases d.sector with h | h <;> rw [h] <;> norm_num
  have hne : (d.sectorSize : ℤ) ≠ 0 := by omega
  have htailSectors : (1048576 : ℤ).tdiv d.sectorSize = tail := by
    have hcast : (1048576 : ℤ) = d.sectorSize * tail := by exact_mod_cast htail
    rw [hcast, Int.mul_tdiv_cancel_left _ hne]
  have htotalSectors : (d.disk.size : ℤ).tdiv d.sectorSize = total := by
    rw [htotal, Nat.cast_mul, Int.mul_tdiv_cancel_left _ hne]
  have hheadSectors : (shellHead d).tdiv d.sectorSize = w := by
    rw [hw, Int.mul_tdiv_cancel_left _ hne]
  have hle : tail ≤ total := by
    refine Nat.le_of_mul_le_mul_left (c := d.sectorSize) ?_ hss
    omega
  have htotal_le : total ≤ d.disk.size := by
    rw [htotal]
    exact Nat.le_mul_of_pos_left _ hss
  -- the start of the tail is far from overflowing
  have htailStart : expand ((total : ℤ) - tail) = ((total - tail : ℕ) : ℤ) := by
    rw [expand, Nat.cast_sub hle]
    exact Int.bmod_eq_of_le (by omega) (by omega)
  simp only [linuxImage, headBytes_eq, htailSectors, htotalSectors, hheadSectors, htailStart,
    Int.toNat_natCast, Option.bind_eq_bind]
  by_cases hneg : w < 0
  · have hneg' : shellHead d < 0 := by
      rw [hw]
      exact Int.mul_neg_of_pos_of_neg (by omega) hneg
    rw [if_pos hneg', callDd, if_pos (Or.inl hneg)]
    rfl
  · obtain ⟨head, rfl⟩ := Int.eq_ofNat_of_zero_le (not_lt.1 hneg)
    have hnat : (shellHead d).toNat = d.sectorSize * head := by
      rw [hw, ← Nat.cast_mul, Int.toNat_natCast]
    have hpos : ¬ shellHead d < 0 := by
      rw [hw, ← Nat.cast_mul]
      omega
    rw [if_neg hpos, callDd, if_neg (by omega), Option.bind_some, callDd, if_neg (by omega), hnat]
    have hdd := dd_pieces d head tail total htotal hle
    have hmib : d.sectorSize * tail = 2 ^ 20 := by omega
    rw [hmib] at hdd
    simpa only [Int.toNat_natCast, Int.toNat_zero] using congrArg some hdd

/-! ### The two images -/

/-- In sectors of 4096 bytes, what lies between the end of partition 1 and eight times its offset
plus its size, as 64 bits have it, is zero up to the last MiB. -/
def Clean (d : SourceDisk) : Prop :=
  d.sectorSize = 4096 →
    0 ≤ Int.bmod (8 * d.offset + d.size) (2 ^ 64) ∧
      ∀ n, n + 2 ^ 20 < d.disk.size →
        ¬ ((n : ℤ) < Int.bmod (8 * d.offset + d.size) (2 ^ 64) ↔ n < d.offset + d.size) →
        d.disk.byte n = 0

/-- On the last MiB, or what there is of it behind the partition, every head will do; before it
the bytes between two ends of the head have to be zero. -/
theorem faithful_pieces_iff (d : SourceDisk) (head : ℕ) :
    Faithful d (pieces d (min head d.disk.size) (d.disk.size - 2 ^ 20)) ↔
      ∀ n, n + 2 ^ 20 < d.disk.size → ¬ (n < head ↔ n < d.offset + d.size) →
        d.disk.byte n = 0 := by
  have hin := d.inside
  set rest := min (2 ^ 20) (d.disk.size - (d.offset + d.size)) with hrest
  constructor
  · rintro ⟨-, hbyte⟩ n hn hne
    have h := hbyte n (by omega)
    rw [byte_pieces (by omega), ← hrest] at h
    -- only one of the two images has the byte of the disk
    have htail : ¬ d.disk.size - 2 ^ 20 ≤ n := by omega
    have htail' : ¬ d.disk.size - rest ≤ n := by omega
    have hmin : n < min head d.disk.size ↔ n < head := by omega
    simp only [htail, htail', hmin, or_false] at h
    by_cases hhead : n < head
    · rw [if_pos hhead, if_neg fun hend => hne ⟨fun _ => hend, fun _ => hhead⟩] at h
      exact h
    · have hend : n < d.offset + d.size := by
        by_contra hend
        exact hne ⟨fun h => absurd h hhead, fun h => absurd h hend⟩
      rw [if_neg hhead, if_pos hend] at h
      exact h.symm
  · intro hzero
    refine ⟨size_pieces, fun n hn => ?_⟩
    rw [byte_pieces hn, ← hrest]
    by_cases htail : n + 2 ^ 20 < d.disk.size
    · by_cases hsame : n < head ↔ n < d.offset + d.size
      · refine if_congr ?_ rfl rfl
        omega
      · rw [hzero n htail hsame, ite_self, ite_self]
    · have hlast : d.disk.size - 2 ^ 20 ≤ n := by omega
      have hlast' : n < d.offset + d.size ∨ d.disk.size - rest ≤ n := by omega
      rw [if_pos (Or.inr hlast), if_pos hlast']

/-- The Linux image is as it should be just if the disk is zero where the head ends elsewhere. -/
theorem linuxImage_faithful_iff (d : SourceDisk) :
    (∃ image, linuxImage d = some image ∧ Faithful d image) ↔ Clean d := by
  rw [linuxImage_eq, Clean]
  by_cases h512 : d.sectorSize = 512
  · have hw : shellHead d = ((d.offset + d.size : ℕ) : ℤ) := by
      rw [shellHead, if_pos h512, Nat.cast_add]
    rw [hw, if_neg (by omega), Int.toNat_natCast]
    refine ⟨fun _ h => by omega, fun _ => ⟨_, rfl, (faithful_pieces_iff d _).2 ?_⟩⟩
    exact fun n _ hne => absurd Iff.rfl hne
  · have hw : shellHead d = Int.bmod (8 * d.offset + d.size) (2 ^ 64) := by
      rw [shellHead, if_neg h512]
    have h4096 : d.sectorSize = 4096 := d.sector.resolve_left h512
    rw [← hw, forall_prop_of_true h4096]
    by_cases hneg : shellHead d < 0
    · rw [if_pos hneg]
      refine ⟨fun ⟨_, h, _⟩ => ?_, fun h => absurd h.1 (not_le.2 hneg)⟩
      cases h
    · obtain ⟨w, hw'⟩ := Int.eq_ofNat_of_zero_le (not_lt.1 hneg)
      rw [if_neg hneg, hw', Int.toNat_natCast]
      simp only [Option.some.injEq, exists_eq_left', faithful_pieces_iff, Nat.cast_lt,
        Int.natCast_nonneg, true_and]

/-- **The two images agree**, byte for byte and with what is to be copied, just if the disk is
zero where the head of the Linux image ends elsewhere than partition 1. -/
theorem images_agree_iff (d : SourceDisk) (r : Reader d.disk) :
    (∃ a b, linuxImage d = some a ∧ windowsImage d r = some b ∧ a.size = b.size ∧
      (∀ n < a.size, a.byte n = b.byte n) ∧ Faithful d a ∧ Faithful d b) ↔ Clean d := by
  rw [← linuxImage_faithful_iff]
  constructor
  · rintro ⟨a, -, ha, -, -, -, hf, -⟩
    exact ⟨a, ha, hf⟩
  · rintro ⟨a, ha, hf⟩
    obtain ⟨b, hb, hf'⟩ := windowsImage_faithful d r
    refine ⟨a, b, ha, hb, hf.1.trans hf'.1.symm, fun n hn => ?_, hf, hf'⟩
    rw [hf.1] at hn
    rw [hf.2 n hn, hf'.2 n hn]

/-- A disk of 32 MiB in sectors of 4096 bytes, with partition 1 on its second MiB, and a byte of
the installer at 5 MiB. -/
def payloadDisk : SourceDisk where
  disk := ⟨32 * 2 ^ 20, fun n => if n = 5 * 2 ^ 20 then 1 else 0⟩
  sectorSize := 4096
  offset := 2 ^ 20
  size := 2 ^ 20
  sector := Or.inr rfl
  dvd_offset := by norm_num
  dvd_size := by norm_num
  dvd_disk := by norm_num
  inside := by decide
  large := by decide
  bounded := by decide

/-- **The payload leaks** into the Linux image, and only there. -/
theorem payload_leaks :
    ¬ ∃ a b, linuxImage payloadDisk = some a ∧ windowsImage payloadDisk (.full _) = some b ∧
      a.size = b.size ∧ (∀ n < a.size, a.byte n = b.byte n) ∧ Faithful payloadDisk a ∧
      Faithful payloadDisk b := by
  rintro ⟨a, -, ha, -, -, -, hf, -⟩
  obtain ⟨-, hzero⟩ := (linuxImage_faithful_iff payloadDisk).1 ⟨a, ha, hf⟩ rfl
  have h := hzero (5 * 2 ^ 20) (by decide) (by decide)
  exact absurd h (by decide)

end Kernel

end InstallKit
