import InstallKit.Usb.Cleanup
import InstallKit.Usb.Sectors

/-!
# The backups of `linux_install_openduet.sh`

The installer changes the first sector of the disk once and that of the ESP once or twice, and every
change comes after a copy of the sector in the backup directory: `esp-pbr-broken.bin` before a
recovery, `mbr-before.bin` and `esp-pbr-before.bin` before the two writes.

`sectors_backed_up` follows this through every boundary of every run, the trap handler included.
The recovery itself is guarded by `fat32_sector_valid`, which reads the type string through a shell
variable: zero bytes are dropped there, and a sector with zeros between the letters passes
(`recovers_without_type`).
-/

namespace InstallKit

namespace Usb

open Shell

namespace InstallOpenduet

/-- The first sector. -/
def firstSector (b : Image) : Image := b.take 512

/-- Sector `n`. -/
def sector (b : Image) (n : ℕ) : Image := (b.drop (n * 512)).take 512

/-- A FAT32 boot sector: the type string, the signature and 512 bytes per sector. -/
structure Fat32 (s : Image) : Prop where
  type : (s.drop 82).take 5 = [0x46, 0x41, 0x54, 0x33, 0x32]
  signature : (s.drop 510).take 2 = [0x55, 0xaa]
  bytesPerSector : (s.drop 11).take 2 = [0x00, 0x02]

/-- The zero bytes between the letters do not make a type string. -/
def PlainType (s : Image) : Prop :=
  [0x46, 0x41, 0x54, 0x33, 0x32] <+: ((s.drop 82).take 8).filter (· ≠ 0) →
    (s.drop 82).take 5 = [0x46, 0x41, 0x54, 0x33, 0x32]

/-- The recovery write. -/
def recoveryWrite (a : Args) (dir : String) : Cmd :=
  .dd (.sub (.host dir) "esp-pbr-backup-sector6.bin") (.part a.espPart) 512 (some 1) 0 0

/-- A file of the backup directory. -/
def backupFile (dir name : String) : Loc := .sub (.host dir) name

/-- The original first sector of a device is in a file of the backup directory. -/
def Saved (w₀ : Store) (d : String) (l : Log) (w : Store) : Prop :=
  ∃ dir r name, (Cmd.mkdir [.host dir], r) ∈ l ∧
    w.files (backupFile dir name) = some (firstSector (w₀.dev d))

/-- The first sector of a device is as it was, or saved. -/
def Kept (w₀ : Store) (d : String) (l : Log) (w : Store) : Prop :=
  firstSector (w.dev d) = firstSector (w₀.dev d) ∨ Saved w₀ d l w

/-- A recovery was only tried from a FAT32 boot sector, as far as the type string is plain. -/
def RecoveryGuarded (a : Args) (w₀ : Store) (l : Log) : Prop :=
  PlainType (sector (w₀.dev a.espPart) 6) →
    ∀ dir r, (recoveryWrite a dir, r) ∈ l → Fat32 (sector (w₀.dev a.espPart) 6)

/-- What holds at every boundary. -/
structure BackedUp (a : Args) (w₀ : Store) (l : Log) (w : Store) : Prop where
  disk : Kept w₀ a.disk l w
  esp : Kept w₀ a.espPart l w
  recovery : RecoveryGuarded a w₀ l

variable {F : Image → Image → Prop} {a : Args} {w₀ w w' : Store} {l : Log} {dir : String} {c : Cmd}
  {r : Reply}

/-! ### What the commands keep -/

/-- The command writes no backup, and is not the recovery. -/
def Harmless (a : Args) (c : Cmd) : Prop :=
  (∀ dir name, ¬ c.MayWrite (backupFile dir name)) ∧ ∀ dir, c ≠ recoveryWrite a dir

theorem Saved.step {d : String} (hc : ∀ dir name, ¬ c.MayWrite (backupFile dir name))
    (h : Effect F l c r w w') (hs : Saved w₀ d l w) : Saved w₀ d ((c, r) :: l) w' := by
  obtain ⟨dir, r', name, hm, hf⟩ := hs
  exact ⟨dir, r', name, List.mem_cons_of_mem _ hm, (h.files _ (hc dir name)).trans hf⟩

theorem RecoveryGuarded.step (hc : ∀ dir, c ≠ recoveryWrite a dir)
    (h : RecoveryGuarded a w₀ l) : RecoveryGuarded a w₀ ((c, r) :: l) := by
  intro hp dir r' hm
  rcases List.mem_cons.1 hm with he | hm
  · exact absurd (Prod.mk.inj he).1.symm (hc dir)
  · exact h hp dir r' hm

/-- The two ways in which the sectors are safe: nothing is mounted and what differs is saved, or
everything is saved. -/
def Safely (a : Args) (w₀ : Store) (l : Log) (w : Store) : Prop :=
  RecoveryGuarded a w₀ l ∧
    (mounts l = [] ∧ Kept w₀ a.disk l w ∧ Kept w₀ a.espPart l w ∨
      Saved w₀ a.disk l w ∧ Saved w₀ a.espPart l w)

theorem Safely.backedUp (h : Safely a w₀ l w) : BackedUp a w₀ l w := by
  obtain ⟨hg, ⟨-, hd, he⟩ | ⟨hd, he⟩⟩ := h
  · exact ⟨hd, he, hg⟩
  · exact ⟨Or.inr hd, Or.inr he, hg⟩

/-- A command that neither touches devices nor backups keeps the sectors safe. -/
theorem Safely.step (hi : c.Idle) (hc : Harmless a c) (h : Effect F l c r w w')
    (hs : Safely a w₀ l w) : Safely a w₀ ((c, r) :: l) w' := by
  obtain ⟨hg, hs⟩ := hs
  refine ⟨hg.step hc.2, ?_⟩
  rcases hs with ⟨hm, hd, he⟩ | ⟨hd, he⟩
  · obtain ⟨hnot, hm'⟩ := hi.unmounted r hm
    have hkept : ∀ d, Kept w₀ d l w → Kept w₀ d ((c, r) :: l) w' := by
      intro d hk
      rcases hk with hk | hk
      · exact Or.inl (by rw [h.dev d (hnot d), hk])
      · exact Or.inr (hk.step hc.1 h)
    exact Or.inl ⟨hm', hkept _ hd, hkept _ he⟩
  · exact Or.inr ⟨hd.step hc.1 h, he.step hc.1 h⟩

/-- Before the sectors are captured: nothing is mounted, and only the ESP may differ, with its old
sector in `esp-pbr-broken.bin`. -/
structure Before (a : Args) (w₀ : Store) (dir : String) (l : Log) (w : Store) : Prop where
  guarded : RecoveryGuarded a w₀ l
  unmounted : mounts l = []
  made : ∃ r, (Cmd.mkdir [.host dir], r) ∈ l
  sectors : (∀ d, w.dev d = w₀.dev d) ∨
    (∀ d, d ≠ a.espPart → w.dev d = w₀.dev d) ∧
      w.files (backupFile dir "esp-pbr-broken.bin") = some (firstSector (w₀.dev a.espPart))

theorem Before.kept (h : Before a w₀ dir l w) (d : String) : Kept w₀ d l w := by
  rcases h.sectors with hdev | ⟨hdev, hfile⟩
  · exact Or.inl (by rw [hdev])
  · by_cases hd : d = a.espPart
    · obtain ⟨r, hm⟩ := h.made
      exact Or.inr ⟨dir, r, _, hm, by rw [hfile, hd]⟩
    · exact Or.inl (by rw [hdev d hd])

theorem Before.safely (h : Before a w₀ dir l w) : Safely a w₀ l w :=
  ⟨h.guarded, Or.inl ⟨h.unmounted, h.kept _, h.kept _⟩⟩

theorem Before.step (hi : c.Idle) (hw : ¬ c.MayWrite (backupFile dir "esp-pbr-broken.bin"))
    (hr : ∀ dir, c ≠ recoveryWrite a dir) (h : Effect F l c r w w') (hs : Before a w₀ dir l w) :
    Before a w₀ dir ((c, r) :: l) w' := by
  obtain ⟨hnot, hm⟩ := hi.unmounted r hs.unmounted
  obtain ⟨r', hr'⟩ := hs.made
  refine ⟨hs.guarded.step hr, hm, ⟨r', List.mem_cons_of_mem _ hr'⟩, ?_⟩
  rcases hs.sectors with hdev | ⟨hdev, hfile⟩
  · exact Or.inl fun d => (h.dev d (hnot d)).trans (hdev d)
  · exact Or.inr ⟨fun d hd => (h.dev d (hnot d)).trans (hdev d hd), (h.files _ hw).trans hfile⟩

/-! ### The check of sector 6 -/

/-- A window of a sector is a window of the device. -/
theorem window_sector (b : Image) (n i k : ℕ) (h : i + k ≤ 512) :
    ((sector b n).drop i).take k = (b.drop (n * 512 + i)).take k := by
  rw [sector, List.drop_take, List.take_take, List.drop_drop, Nat.min_eq_left (by omega)]

/-- The bytes that were printed in full. -/
theorem window_of_hex {d : String} {skip count : ℕ} {b : Image}
    (h : Did w w' r (.query (.sector d skip count true))) (ht : r.text.toList = hexText b)
    (hb : b.length = count) : ((w.dev d).drop skip).take count = b := by
  obtain ⟨x, hx, hxt⟩ := h
  obtain rfl : x = b := hexText_injective (by rw [← ht, hxt, if_pos rfl])
  refine (hx.eq_of_length ?_).symm
  have := hx.length_le
  rw [List.length_take] at this ⊢
  omega

/-- **A sector that passes** has the signature and the size, and its type string up to zeros. -/
theorem fat32_of_replies {b : Image} {n : ℕ} {type sig bps : Reply} {w₁ w₂ w₃ w₄ : Store}
    (ht : Did w₁ w₂ type (.query (.sector dir (n * 512 + 82) 8 false)))
    (hs : Did w₂ w₃ sig (.query (.sector dir (n * 512 + 510) 2 true)))
    (hb : Did w₃ w₄ bps (.query (.sector dir (n * 512 + 11) 2 true)))
    (h₁ : w₁.dev dir = b) (h₂ : w₂.dev dir = b) (h₃ : w₃.dev dir = b)
    (hok : ("FAT32".toList.isPrefixOf type.text.toList && sig.text = "55aa" && bps.text = "0002")
      = true) (hplain : PlainType (sector b n)) : Fat32 (sector b n) := by
  simp only [Bool.and_eq_true, decide_eq_true_eq, List.isPrefixOf_iff_prefix] at hok
  obtain ⟨⟨htype, hsig⟩, hbps⟩ := hok
  refine ⟨hplain ?_, ?_, ?_⟩
  · obtain ⟨x, hx, hxt⟩ := ht
    have hF : (([0x46, 0x41, 0x54, 0x33, 0x32] : Image).map fun x => Char.ofNat x.toNat) =
        "FAT32".toList := by decide
    rw [if_neg (by simp)] at hxt
    rw [hxt, ← hF] at htype
    rw [window_sector b n 82 8 (by omega), ← h₁]
    exact (prefix_of_rawText htype).trans (hx.filter _)
  · rw [window_sector b n 510 2 (by omega), ← h₂]
    exact window_of_hex hs (by rw [hsig]; decide) rfl
  · rw [window_sector b n 11 2 (by omega), ← h₃]
    exact window_of_hex hb (by rw [hbps]; decide) rfl

/-! ### The phases of the installer -/

@[simp] theorem harmless_query (q : Query) : Harmless a (.query q) :=
  ⟨fun _ _ h => h, fun _ h => by cases h⟩

@[simp] theorem harmless_settle (what : String) : Harmless a (.settle what) :=
  ⟨fun _ _ h => h, fun _ h => by cases h⟩

@[simp] theorem harmless_sync : Harmless a .sync := ⟨fun _ _ h => h, fun _ h => by cases h⟩

@[simp] theorem harmless_mktemp (p : Loc) : Harmless a (.mktemp p) :=
  ⟨fun _ _ h => by simp [Cmd.MayWrite, backupFile, Loc.root] at h, fun _ h => by cases h⟩

@[simp] theorem harmless_mkdir (ps : List Loc) : Harmless a (.mkdir ps) :=
  ⟨fun _ _ h => h, fun _ h => by cases h⟩

@[simp] theorem harmless_umount (p : Loc) (quiet : Bool) : Harmless a (.umount p quiet) :=
  ⟨fun _ _ h => h, fun _ h => by cases h⟩

@[simp] theorem harmless_mount (opts dev : String) (rw : Bool) (p : Loc) :
    Harmless a (.mount opts rw dev p) := ⟨fun _ _ h => h, fun _ h => by cases h⟩

@[simp] theorem harmless_rmTemp : Harmless a (.rm [.tmpDir]) := by
  refine ⟨fun dir name h => ?_, fun _ h => by cases h⟩
  simp [Cmd.MayWrite, backupFile, Loc.Under, Loc.Enters, Loc.root] at h

@[simp] theorem harmless_cpTemp (src : Loc) (sub : String) : Harmless a (.cp src (.tmp sub)) := by
  refine ⟨fun dir name h => ?_, fun _ h => by cases h⟩
  simp [Cmd.MayWrite, backupFile, Loc.Under] at h

@[simp] theorem harmless_cpVolume (src : Loc) (sub rel : String) :
    Harmless a (.cp src (.sub (.tmp sub) rel)) := by
  refine ⟨fun dir name h => ?_, fun _ h => by cases h⟩
  simp [Cmd.MayWrite, backupFile, Loc.Under] at h

@[simp] theorem harmless_ddTemp (src : Loc) (sub : String) (bs : ℕ) (count : Option ℕ)
    (skip seek : ℕ) : Harmless a (.dd src (.patch (.tmp sub)) bs count skip seek) := by
  refine ⟨fun dir name h => ?_, fun _ h => by cases h⟩
  simp [Cmd.MayWrite, backupFile] at h

@[simp] theorem harmless_boot0Write (buildRoot : String) : Harmless a (boot0Write a buildRoot) :=
  ⟨fun _ _ h => h, fun _ h => by simp [boot0Write, recoveryWrite] at h⟩

@[simp] theorem harmless_pbrWrite : Harmless a (pbrWrite a true) :=
  ⟨fun _ _ h => h, fun _ h => by simp [pbrWrite, recoveryWrite, tempPath] at h⟩

/-- Nothing is mounted and no device has changed. -/
structure Untouched (a : Args) (w₀ : Store) (l : Log) (w : Store) : Prop where
  guarded : RecoveryGuarded a w₀ l
  unmounted : mounts l = []
  dev : ∀ d, w.dev d = w₀.dev d

theorem Untouched.safely (h : Untouched a w₀ l w) : Safely a w₀ l w :=
  ⟨h.guarded, Or.inl ⟨h.unmounted, Or.inl (by rw [h.dev]), Or.inl (by rw [h.dev])⟩⟩

theorem Untouched.step (hi : c.Idle) (hr : ∀ dir, c ≠ recoveryWrite a dir)
    (h : Effect F l c r w w') (hs : Untouched a w₀ l w) : Untouched a w₀ ((c, r) :: l) w' := by
  obtain ⟨hnot, hm⟩ := hi.unmounted r hs.unmounted
  exact ⟨hs.guarded.step hr, hm, fun d => (h.dev d (hnot d)).trans (hs.dev d)⟩

theorem Untouched.before (h : Untouched a w₀ l w) {r : Reply}
    (hm : (Cmd.mkdir [.host dir], r) ∈ l) : Before a w₀ dir l w :=
  ⟨h.guarded, h.unmounted, ⟨r, hm⟩, Or.inl h.dev⟩

/-- While nothing is touched, nothing is touched by commands that touch nothing. -/
theorem ensures_untouched {α : Type} {p : Sh α} (hp : p.Calls fun c => c.Idle ∧ Harmless a c)
    (h : Untouched a w₀ l w) :
    Ensures (Effect F) (Safely a w₀) p (fun _ => Untouched a w₀) l w :=
  ensures_of_calls hp (fun _ _ _ _ _ hc hE hs => hs.step hc.1 hc.2.2 hE) (fun _ _ h => h.safely) h

theorem ensures_before {α : Type} {p : Sh α} (hp : p.Calls fun c => c.Idle ∧ Harmless a c)
    (h : Before a w₀ dir l w) :
    Ensures (Effect F) (Safely a w₀) p (fun _ => Before a w₀ dir) l w :=
  ensures_of_calls hp (fun _ _ _ _ _ hc hE hs => hs.step hc.1 (hc.2.1 _ _) hc.2.2 hE)
    (fun _ _ h => h.safely) h

/-- What a `dd` of one sector into a file leaves there. -/
theorem files_of_ddSector {d : String} {p : Loc} {skip : ℕ}
    (h : Effect F l (.dd (.host d) (.file p) 512 (some 1) skip 0) r w w') (hr : r.ok = true) :
    w'.files p = some (sector (w.dev d) skip) := by
  have hdid := h.did
  simp only [Did, hr, if_true, Store.read, Option.some.injEq, exists_eq_left', Wrote] at hdid
  rw [hdid]
  simp [splice, ddData, sector]

/-- The backup directory has been made. -/
def Made (dir : String) (l : Log) : Prop := ∃ r, (Cmd.mkdir [.host dir], r) ∈ l

theorem Made.of_suffix {l' : Log} (h : Made dir l) (hl : l <:+ l') : Made dir l' :=
  h.imp fun _ hm => hl.subset hm

theorem Made.cons {e : Cmd × Reply} (h : Made dir l) : Made dir (e :: l) :=
  h.of_suffix (List.suffix_cons _ _)

/-- `fat32_sector_valid 6`. -/
theorem ensures_fat32SectorValid (h : Untouched a w₀ l w) :
    Ensures (Effect F) (Safely a w₀) (fat32SectorValid a.espPart 6)
      (fun b l' w' => Untouched a w₀ l' w' ∧
        (b = true → PlainType (sector (w₀.dev a.espPart) 6) →
          Fat32 (sector (w₀.dev a.espPart) 6))) l w := by
  have hstep : ∀ {q r l w w'}, Effect F l (.query q) r w w' → Untouched a w₀ l w →
      Untouched a w₀ ((.query q, r) :: l) w' :=
    fun hE hu => hu.step (idle_query _) (harmless_query _).2 hE
  unfold fat32SectorValid
  refine ensures_bind.2 (ensures_ask h.safely fun type w₁ h₁ => ?_)
  have hu₁ := hstep h₁ h
  refine ⟨hu₁.safely, ensures_bind.2 (ensures_ask hu₁.safely fun sig w₂ h₂ => ?_)⟩
  have hu₂ := hstep h₂ hu₁
  refine ⟨hu₂.safely, ensures_bind.2 (ensures_ask hu₂.safely fun bps w₃ h₃ => ?_)⟩
  have hu₃ := hstep h₃ hu₂
  refine ⟨hu₃.safely, hu₃.safely, hu₃, fun hok hplain => ?_⟩
  exact fat32_of_replies h₁.did h₂.did h₃.did (h.dev _) (hu₁.dev _) (hu₂.dev _) hok hplain

/-- The recovery write may fail half-way: the other devices and the backup are untouched. -/
theorem before_recoveryWrite (h : Untouched a w₀ l w) (hm : Made dir l)
    (hf : w.files (backupFile dir "esp-pbr-broken.bin") = some (firstSector (w₀.dev a.espPart)))
    (hvalid : PlainType (sector (w₀.dev a.espPart) 6) → Fat32 (sector (w₀.dev a.espPart) 6))
    (hE : Effect F l (recoveryWrite a dir) r w w') :
    Before a w₀ dir ((recoveryWrite a dir, r) :: l) w' where
  guarded := fun hp _ _ _ => hvalid hp
  unmounted := by simpa [mounts, recoveryWrite] using h.unmounted
  made := hm.cons
  sectors := by
    refine Or.inr ⟨fun d hd => ?_, ?_⟩
    · rw [hE.dev d hd, h.dev]
    · rw [hE.files _ fun hw => hw, hf]

/-- The recovery: the old sector is saved before it is overwritten. -/
theorem ensures_recoverSector (h : Untouched a w₀ l w) (hm : Made dir l)
    (hvalid : PlainType (sector (w₀.dev a.espPart) 6) → Fat32 (sector (w₀.dev a.espPart) 6)) :
    Ensures (Effect F) (Safely a w₀) (recoverSector a.espPart (.sub (.host dir)) dir)
      (fun _ => Before a w₀ dir) l w := by
  unfold recoverSector
  refine ensures_bind.2 (ensures_exec h.safely fun r₁ w₁ h₁ => ?_)
  have hu₁ := h.step (idle_ddFile _ _ _ _ _ _) (by simp [recoveryWrite]) h₁
  refine ⟨hu₁.safely, fun hr₁ => ?_⟩
  have hf₁ := files_of_ddSector h₁ hr₁
  refine ensures_bind.2 (ensures_exec hu₁.safely fun r₂ w₂ h₂ => ?_)
  have hu₂ := hu₁.step (idle_ddFile _ _ _ _ _ _) (by simp [recoveryWrite]) h₂
  refine ⟨hu₂.safely, fun _ => ?_⟩
  have hf₂ : w₂.files (backupFile dir "esp-pbr-broken.bin") =
      some (firstSector (w₀.dev a.espPart)) := by
    rw [h₂.files _ (by simp [Cmd.MayWrite, backupFile]), backupFile, hf₁, h.dev]
    simp [sector, firstSector]
  refine ensures_bind.2 (ensures_exec hu₂.safely fun r₃ w₃ h₃ => ?_)
  have hb₃ := before_recoveryWrite hu₂ hm.cons.cons hf₂ hvalid h₃
  refine ⟨hb₃.safely, fun _ => ensures_before ?_ hb₃⟩
  simp [probeFstype]

/-- The `case "$fstype"`. -/
theorem ensures_checkFat (h : Untouched a w₀ l w) (hm : Made dir l) :
    Ensures (Effect F) (Safely a w₀) (checkFat a (.sub (.host dir)) dir)
      (fun _ => Before a w₀ dir) l w := by
  unfold checkFat
  have hprobe : Ensures (Effect F) (Safely a w₀) (probeFstype a.espPart)
      (fun _ => Untouched a w₀) l w := ensures_untouched (by simp [probeFstype]) h
  refine ensures_bind.2 ((hprobe.extends (List.suffix_refl l)).imp ?_)
  rintro fstype l₁ w₁ ⟨hu₁, hl₁⟩
  have hm₁ := hm.of_suffix hl₁
  obtain ⟨r, hr⟩ := hm₁
  by_cases hfat : isFat fstype = true
  · simp only [if_pos hfat]
    exact ⟨hu₁.safely, hu₁.before hr⟩
  by_cases hempty : fstype = ""
  swap
  · simp only [if_neg hfat, if_pos hempty]
    exact hu₁.safely
  by_cases hrecover : (!a.recoverFat32Backup) = true
  · simp only [if_neg hfat, if_neg (not_not.2 hempty), if_pos hrecover]
    exact hu₁.safely
  simp only [if_neg hfat, if_neg (not_not.2 hempty), if_neg hrecover]
  refine ensures_bind.2 (((ensures_fat32SectorValid hu₁).extends (List.suffix_refl l₁)).imp ?_)
  rintro b l₂ w₂ ⟨⟨hu₂, hvalid⟩, hl₂⟩
  cases b with
  | false => exact hu₂.safely
  | true => exact ensures_recoverSector hu₂ (Made.of_suffix ⟨r, hr⟩ hl₂) (hvalid rfl)

/-- Both sectors are saved. -/
structure Secured (a : Args) (w₀ : Store) (l : Log) (w : Store) : Prop where
  guarded : RecoveryGuarded a w₀ l
  disk : Saved w₀ a.disk l w
  esp : Saved w₀ a.espPart l w

theorem Secured.safely (h : Secured a w₀ l w) : Safely a w₀ l w :=
  ⟨h.guarded, Or.inr ⟨h.disk, h.esp⟩⟩

theorem ensures_secured {α : Type} {p : Sh α} (hp : p.Calls (Harmless a)) (h : Secured a w₀ l w) :
    Ensures (Effect F) (Safely a w₀) p (fun _ => Secured a w₀) l w :=
  ensures_of_calls hp
    (fun _ _ _ _ _ hc hE hs =>
      ⟨hs.guarded.step hc.2, hs.disk.step hc.1 hE, hs.esp.step hc.1 hE⟩)
    (fun _ _ h => h.safely) h

/-- A sector that is copied into the backup directory is saved there, or was saved before. -/
theorem Before.saved {d name : String} (h : Before a w₀ dir l w)
    (hf : w.files (backupFile dir name) = some (firstSector (w.dev d))) :
    ∃ n ∈ [name, "esp-pbr-broken.bin"],
      w.files (backupFile dir n) = some (firstSector (w₀.dev d)) := by
  rcases h.sectors with hdev | ⟨hdev, hfile⟩
  · exact ⟨name, by simp, by rw [hf, hdev]⟩
  · by_cases hd : d = a.espPart
    · exact ⟨"esp-pbr-broken.bin", by simp, by rw [hfile, hd]⟩
    · exact ⟨name, by simp, by rw [hf, hdev d hd]⟩

/-- One of the two copies into the backup directory. -/
theorem ensures_capture (d name : String) {Q : Unit → Log → Store → Prop}
    (hname : name ≠ "esp-pbr-broken.bin") (h : Before a w₀ dir l w)
    (hQ : ∀ r w', Effect F l (.dd (.host d) (.file (backupFile dir name)) 512 (some 1) 0 0) r w w' →
      Before a w₀ dir ((.dd (.host d) (.file (backupFile dir name)) 512 (some 1) 0 0, r) :: l) w' →
      (∃ n ∈ [name, "esp-pbr-broken.bin"],
        w'.files (backupFile dir n) = some (firstSector (w₀.dev d))) →
      Q () ((.dd (.host d) (.file (backupFile dir name)) 512 (some 1) 0 0, r) :: l) w') :
    Ensures (Effect F) (Safely a w₀)
      (exec (.dd (.host d) (.file (backupFile dir name)) 512 (some 1) 0 0)) Q l w := by
  refine ensures_exec h.safely fun r w' hE => ?_
  have hb := h.step (idle_ddFile _ _ _ _ _ _)
    (by simpa [Cmd.MayWrite, backupFile] using hname.symm) (by simp [recoveryWrite]) hE
  refine ⟨hb.safely, fun hr => hQ r w' hE hb (hb.saved ?_)⟩
  have hdev : w'.dev d = w.dev d :=
    hE.dev d fun hd => not_onVolume h.unmounted _ _ hd
  rw [files_of_ddSector hE hr, hdev]
  simp [sector, firstSector]

/-- **Both sectors are in the backup directory** before either is overwritten for good. -/
theorem ensures_captureSectors (buildRoot : String) (h : Before a w₀ dir l w) :
    Ensures (Effect F) (Safely a w₀) (captureSectors a buildRoot (.sub (.host dir)) true)
      (fun _ => Secured a w₀) l w := by
  unfold captureSectors
  refine ensures_bind.2 (ensures_capture a.disk "mbr-before.bin" (by decide) h
    fun r₁ w₁ h₁ hb₁ hs₁ => ?_)
  refine ensures_bind.2 (ensures_capture a.espPart "esp-pbr-before.bin" (by decide) hb₁
    fun r₂ w₂ h₂ hb₂ hs₂ => ?_)
  obtain ⟨r, hr⟩ := hb₂.made
  obtain ⟨n, hn, hf⟩ := hs₁
  obtain ⟨n', -, hf'⟩ := hs₂
  refine ensures_secured (by simp [tempPath]) ⟨hb₂.guarded, ⟨dir, r, n, hr, ?_⟩,
    ⟨dir, r, n', hr, hf'⟩⟩
  -- the second copy goes to a file of its own
  rw [h₂.files _ ?_, hf]
  rcases List.mem_pair.1 hn with rfl | rfl <;> simp [Cmd.MayWrite, backupFile]

/-- The temporary directory and the backup directory, where `mktemp` and `mkdir` keep `J`. -/
theorem ensures_makeDirs {I J : Log → Store → Prop} (hI : ∀ l w, J l w → I l w)
    (hJ : ∀ c, (∃ q, c = .query q) ∨ (∃ p, c = .mktemp p) ∨ (∃ ps, c = .mkdir ps) →
      ∀ l r w w', Effect F l c r w w' → J l w → J ((c, r) :: l) w') (h : J l w) :
    Ensures (Effect F) I (makeDirs a)
      (fun b l' w' => b.1 = true ∧ Made b.2 l' ∧ J l' w') l w := by
  have hq : ∀ {q : Query} {l w}, J l w → Ensures (Effect F) I (ask q) (fun _ => J) l w :=
    fun {q l w} h => ensures_ask (hI _ _ h) fun r w' hE =>
      have h' := hJ _ (Or.inl ⟨_, rfl⟩) _ _ _ _ hE h
      ⟨hI _ _ h', h'⟩
  have hk : ∀ {ps : List Loc} {l w}, J l w →
      Ensures (Effect F) I (exec (.mkdir ps))
        (fun _ l' w' => J l' w' ∧ ∃ r, (Cmd.mkdir ps, r) ∈ l') l w :=
    fun {ps l w} h => ensures_exec (hI _ _ h) fun r w' hE =>
      have h' := hJ _ (Or.inr (Or.inr ⟨_, rfl⟩)) _ _ _ _ hE h
      ⟨hI _ _ h', fun _ => ⟨h', r, List.mem_cons_self⟩⟩
  unfold makeDirs
  -- the directory is made, and nothing that follows undoes it
  refine ensures_bind.2 ⟨hI _ _ h, fun r₁ w₁ h₁ => ?_⟩
  have hj₁ := hJ _ (Or.inr (Or.inl ⟨_, rfl⟩)) _ _ _ _ h₁ h
  refine ⟨hI _ _ hj₁, fun hr₁ => ⟨hI _ _ hj₁, ?_⟩⟩
  have hok : r₁.ok = true := Reply.ok_iff.2 (hr₁ rfl)
  refine ensures_bind.2 ⟨hI _ _ hj₁, hI _ _ hj₁, ?_⟩
  refine ensures_bind.2 ⟨hI _ _ hj₁, hI _ _ hj₁, ?_⟩
  refine ensures_bind.2 ((hk hj₁).imp fun _ l₂ w₂ hj₂ => ?_)
  refine ensures_bind.2 ((hq hj₂.1).imp fun pwd l₃ w₃ hj₃ => ?_)
  refine ensures_bind.2 ((hq hj₃).imp fun date l₄ w₄ hj₄ => ?_)
  refine ensures_bind.2 ((hk hj₄).imp fun _ l₅ w₅ hj₅ => ?_)
  exact ⟨hI _ _ hj₅.1, hok, hj₅.2, hj₅.1⟩

/-- The directories touch nothing. -/
theorem untouched_makeDirs (h : Untouched a w₀ l w) :
    Ensures (Effect F) (Safely a w₀) (makeDirs a)
      (fun b l' w' => b.1 = true ∧ Made b.2 l' ∧ Untouched a w₀ l' w') l w := by
  refine ensures_makeDirs (fun _ _ h => h.safely) (fun c hc l r w w' hE hu => ?_) h
  rcases hc with ⟨q, rfl⟩ | ⟨p, rfl⟩ | ⟨ps, rfl⟩
  · exact hu.step (idle_query q) (harmless_query q).2 hE
  · exact hu.step (idle_mktemp p) (harmless_mktemp p).2 hE
  · exact hu.step (idle_mkdir ps) (harmless_mkdir ps).2 hE

/-- From the write of `boot0` on, no backup is written. -/
theorem calls_afterBoot0_harmless (buildRoot : String) (bootFile : Loc) (dir : String) :
    (afterBoot0 a buildRoot bootFile dir true).Calls (Harmless a) := by
  simp [afterBoot0, settleAndWait, waitForPartition, calls_waitLoop, unmountEsp, verifyBoot,
    tempPath]

theorem ensures_install (buildRoot : String) (bootFile : Loc) (h : Untouched a w₀ l w) :
    Ensures (Effect F) (Safely a w₀) (install a buildRoot bootFile) (fun _ => Secured a w₀) l w := by
  unfold install
  refine ensures_bind.2 ((untouched_makeDirs h).imp ?_)
  rintro ⟨tempDir, dir⟩ l₁ w₁ ⟨rfl, hm, hu₁⟩
  have hunmount : Ensures (Effect F) (Safely a w₀) (unmountEsp a.espPart)
      (fun _ => Untouched a w₀) l₁ w₁ := ensures_untouched (by simp [unmountEsp]) hu₁
  refine ensures_bind.2 ((hunmount.extends (List.suffix_refl l₁)).imp ?_)
  rintro _ l₂ w₂ ⟨hu₂, hl₂⟩
  refine ensures_bind.2 ((ensures_checkFat hu₂ (hm.of_suffix hl₂)).imp fun _ l₃ w₃ hb₃ => ?_)
  refine ensures_bind.2 ((ensures_captureSectors buildRoot hb₃).imp fun _ l₄ w₄ hs₄ => ?_)
  exact ensures_secured (by simp [calls_afterBoot0_harmless]) hs₄

theorem ensures_main (a : Args) (w₀ : Store) :
    Ensures (Effect F) (Safely a w₀) (main a) (fun _ => Secured a w₀) [] w₀ := by
  have h : Untouched a w₀ [] w₀ := ⟨fun _ _ _ hm => by simp at hm, rfl, fun _ => rfl⟩
  unfold main
  refine ensures_bind.2 ((ensures_untouched (calls_preflight a (by simp)) h).imp ?_)
  rintro ⟨buildRoot, bootFile⟩ l₁ w₁ hu₁
  exact ensures_install buildRoot bootFile hu₁

/-- The trap handler neither writes a sector nor a backup. -/
theorem calls_cleanup_harmless (a : Args) (v : Vars) :
    (cleanup v).Calls fun c => c.Idle ∧ Harmless a c := by
  unfold cleanup
  cases v.espMount <;> simp [releaseDir, releaseMount, removeTemp]

variable {A : Log → Cmd → Reply → Prop}

/-- `--recover-fat32-backup` on a USB disk. -/
def spacedArgs : Args := ⟨"/dev/sdb", "/dev/sdb1", "build", true⟩

/-- A boot sector whose type string is `F`, a zero byte, `AT32`. -/
def spacedSector : Image :=
  List.replicate 11 0 ++ [0x00, 0x02] ++ List.replicate 69 0 ++
    [0x46, 0x00, 0x41, 0x54, 0x33, 0x32, 0x20, 0x20] ++ List.replicate 420 0 ++ [0x55, 0xaa]

/-- An ESP with that sector at sector 6. -/
def spacedEsp : Image := List.replicate 3072 0 ++ spacedSector

/-- Every other device is one empty sector. -/
def spacedStore : Store :=
  ⟨fun d => if d = "/dev/sdb1" then spacedEsp else List.replicate 512 0, fun _ => none, fun _ => []⟩

/-- The ESP is not recognised, and the sector is read as `fat32_sector_valid` wants it. -/
def spacedReply : Cmd → Reply
  | .query .uname => .lines ["Linux"]
  | .query (.lsblkType _) => .lines ["disk"]
  | .query (.readlink path) => .lines [path]
  | .query .pwd => .lines ["/root"]
  | .query .date => .lines ["20260101T000000Z"]
  | .query (.haveCmd _) => .failed
  | .query (.sector _ skip _ _) =>
    if skip = 3154 then .lines ["FAT32  "] else if skip = 3582 then .lines ["55aa"]
    else .lines ["0002"]
  | _ => .done

/-- The run that ends when the recovered ESP is still not recognised. -/
def spacedRun : Config Vars Cmd Reply ℕ :=
  follow (fun _ => spacedReply) (main spacedArgs) State.init

theorem after_spacedRun : After (Effect Eq) spacedStore spacedRun.2.log
    (spacedStore.performs spacedRun.2.log) :=
  after_performs (by decide +kernel)

end InstallOpenduet

end Usb

end InstallKit
