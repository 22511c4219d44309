import InstallKit.Mac.UsbScripts

/-!
# The boot files on the disk

`replace_boot_files` copies the boot files into the project before it replaces them.  Any command
may fail and leave a part of its work behind, and any run may be cut off; the next run finds what
the last one left.

* `Does` : what a command may do to the boot partition and to the project.
* `Kept`, `Stored` : the boot files are on the disk or in backups; they are in backups.
* `Careful.ensures` : `run_update_efi`, and `run_make_usb` with `--layout preserve`, keep the boot
  files at every boundary, and have stored them where they return.
-/

namespace InstallKit

namespace BootFiles

open Sources Shell Stmt MakeUsb

/-! ### The world -/

abbrev File := List UInt8

/-- A file on the boot partition, or any other one. -/
inductive Place
  | stick (path : Text)
  | host (path : Text)
  deriving DecidableEq

structure World where
  files : Place → Option File
  /-- Where the boot partition is mounted. -/
  mountedAt : Option Text

/-- The file that a path names. -/
def World.place (w : World) (path : Text) : Place :=
  match w.mountedAt with
  | none => .host path
  | some m => if (m ++ ['/']).isPrefixOf path then .stick (path.drop m.length) else .host path

/-- Neither directory is in the other. -/
def Apart (dir dir' : Text) : Prop :=
  ¬ dir ++ ['/'] <+: dir' ++ ['/'] ∧ ¬ dir' ++ ['/'] <+: dir ++ ['/']

/-- The project, the disk, and where its boot partition may be mounted; the project is not there. -/
structure Setup where
  rootDir : Text
  disk : Text
  mounts : Text → Prop
  apart : ∀ m, mounts m → Apart m rootDir

/-- The files of a directory, by their paths in it. -/
abbrev Tree := Text → Option File

/-- All files of the first tree are in the second one. -/
def Tree.Sub (t t' : Tree) : Prop := ∀ u f, t u = some f → t' u = some f

namespace Setup

variable (S : Setup)

/-- `$ROOT_DIR/backup` -/
def backupRoot : Text := S.rootDir ++ txt "/backup"

/-- The path is in the directory of the backups. -/
def InBackups (path : Text) : Prop := ∃ t, path = S.backupRoot ++ '/' :: t

/-- The backup with this time. -/
def backup (stamp : Text) : Text := backupDir S.rootDir stamp S.disk

end Setup

/-- `EFI` of the boot partition. -/
def World.efi (w : World) : Tree := fun u => w.files (.stick (txt "/EFI" ++ '/' :: u))

/-- `EFI` of a backup. -/
def World.savedEfi (S : Setup) (stamp : Text) (w : World) : Tree :=
  fun u => w.files (.host (efiDir (S.backup stamp) ++ '/' :: u))

/-- `boot` of the boot partition. -/
def World.boot (w : World) : Option File := w.files (.stick (txt "/boot"))

/-- `boot` of a backup. -/
def World.savedBoot (S : Setup) (stamp : Text) (w : World) : Option File :=
  w.files (.host (bootFile (S.backup stamp)))

/-! ### What the commands do -/

/-- Nothing changes but the places in `C`. -/
def Only (C : Place → Prop) (w w' : World) : Prop :=
  w'.mountedAt = w.mountedAt ∧ ∀ x, ¬ C x → w'.files x = w.files x

/-- The place belongs to the directory. -/
def World.Within (w : World) (dir : Text) (x : Place) : Prop := ∃ u, x = w.place (dir ++ '/' :: u)

/-- `ditto`, which leaves anything in its target when it fails. -/
def Dittoed (source target : Text) (r : Stmt.Reply) (w w' : World) : Prop :=
  Only (w.Within target) w w' ∧ (r.status = 0 → ∀ u, w'.files (w.place (target ++ '/' :: u)) =
    (w.files (w.place (source ++ '/' :: u))).or (w.files (w.place (target ++ '/' :: u))))

/-- `cp`, which leaves anything in its target when it fails. -/
def Copies (source target : Text) (r : Stmt.Reply) (w w' : World) : Prop :=
  Only (· = w.place target) w w' ∧
    (r.status = 0 → w'.files (w.place target) = w.files (w.place source))

/-- What a command may do.  The time is one without a backup, a build stays out of the backups, and
`BootInstall` leaves the boot tree alone. -/
def Does (S : Setup) (_ : List (Cmd × Stmt.Reply)) : Cmd → Stmt.Reply → World → World → Prop
  | .build _, _, w, w' => Only (fun x => ∃ p, x = .host p ∧ ¬ S.InBackups p) w w'
  | .look c, r, w, w' => w' = w ∧ ∀ m, c = .info (bootPart S.disk) → r.status = 0 →
      w.mountedAt = some m → mountPointOf r = m
  | .isFile path, r, w, w' => w' = w ∧ (r.status = 0 ↔ w.files (w.place path) ≠ none)
  | .isDir path, r, w, w' => w' = w ∧ (r.status ≠ 0 → ∀ x, w.Within path x → w.files x = none)
  | .date, r, w, w' => w' = w ∧ ∀ u, w.files (.host (S.backup r.out ++ '/' :: u)) = none
  | .partitionDisk _, _, _, _ => True
  | .restore _ target, _, w, w' => target = installerPart S.disk → w' = w
  | .imagescan image, _, w, w' => Only (· = w.place image) w w'
  | .unmount _, _, w, w' => w'.files = w.files ∧
      (w'.mountedAt = none ∨ w'.mountedAt = w.mountedAt)
  | .mount _, r, w, w' => w'.files = w.files ∧ (r.status = 0 → w'.mountedAt ≠ none) ∧
      (w'.mountedAt = w.mountedAt ∨ ∃ m, w'.mountedAt = some m ∧ S.mounts m)
  | .touch path, _, w, w' | .removeFile path, _, w, w' => Only (· = w.place path) w w'
  | .ditto source target, r, w, w' | .sudoDitto source target, r, w, w' =>
      Dittoed source target r w w'
  | .copy source target, r, w, w' | .sudoCopy source target, r, w, w' => Copies source target r w w'
  | .removeTree paths, r, w, w' => Only (fun x => ∃ p ∈ paths, x = w.place p ∨ w.Within p x) w w' ∧
      (r.status = 0 → ∀ p ∈ paths, ∀ x, w.Within p x → w'.files x = none)
  | .bootInstall _ _, _, w, w' =>
      (∀ p, w'.files (.host p) = w.files (.host p)) ∧ w'.efi = w.efi ∧
      ∀ m, w'.mountedAt = some m → S.mounts m
  | _, _, w, w' => w' = w

/-! ### What is kept -/

section Kept

variable (S : Setup) (t : Tree) (b : Option File) (w : World)

/-- The boot partition is mounted where it may be. -/
def Mounted : Prop := ∀ m, w.mountedAt = some m → S.mounts m

/-- The tree is in a backup. -/
def EfiStored : Prop := ∃ stamp, t.Sub (w.savedEfi S stamp)

/-- The file is in a backup. -/
def BootStored : Prop := ∀ f, b = some f → ∃ stamp, w.savedBoot S stamp = some f

/-- Both are in backups. -/
structure Stored : Prop where
  mounted : Mounted S w
  efi : EfiStored S t w
  boot : BootStored S b w

/-- Both are on the disk or in backups. -/
structure Kept : Prop where
  mounted : Mounted S w
  efi : t.Sub w.efi ∨ EfiStored S t w
  boot : b = w.boot ∨ BootStored S b w

end Kept

variable {S : Setup} {t : Tree} {b : Option File} {w w' : World} {m : Text} {c : Cmd}
  {r : Stmt.Reply} {l : List (Cmd × Stmt.Reply)} {C : Place → Prop}

theorem Stored.kept (h : Stored S t b w) : Kept S t b w := ⟨h.mounted, Or.inr h.efi, Or.inr h.boot⟩

/-- The backups are left alone. -/
structure Archived (S : Setup) (w w' : World) : Prop where
  mounted : Mounted S w'
  saved : ∀ p f, S.InBackups p → w.files (.host p) = some f → w'.files (.host p) = some f

/-- The backups and the boot files are left alone. -/
structure Spared (S : Setup) (w w' : World) : Prop extends Archived S w w' where
  efi : w'.efi = w.efi
  boot : w'.boot = w.boot

/-! ### Paths -/

theorem txt_backup (S : Setup) (stamp : Text) :
    S.backup stamp = S.backupRoot ++ '/' :: (txt "usb-" ++ stamp ++ '-' :: basename S.disk) := by
  simp [Setup.backup, backupDir, Setup.backupRoot, txt]

theorem inBackups_efi {stamp u : Text} : S.InBackups (efiDir (S.backup stamp) ++ '/' :: u) := by
  rw [txt_backup]
  exact ⟨_, by simp [efiDir]; rfl⟩

theorem inBackups_boot {stamp : Text} : S.InBackups (bootFile (S.backup stamp)) := by
  rw [txt_backup]
  exact ⟨_, by simp [bootFile]; rfl⟩

theorem place_stick {u : Text} (h : w.mountedAt = some m) :
    w.place (m ++ '/' :: u) = .stick ('/' :: u) := by
  have hpre : (m ++ ['/']).isPrefixOf (m ++ '/' :: u) = true :=
    List.isPrefixOf_iff_prefix.2 ⟨u, by simp⟩
  rw [World.place, h]
  simp only
  rw [if_pos hpre, List.drop_left]

theorem place_efi {u : Text} (h : w.mountedAt = some m) :
    w.place (efiDir m ++ '/' :: u) = .stick (txt "/EFI" ++ '/' :: u) := by
  have htxt : txt "/EFI" = '/' :: txt "EFI" := by simp [txt]
  rw [efiDir, List.append_assoc, htxt, List.cons_append, place_stick h]

theorem place_boot (h : w.mountedAt = some m) :
    w.place (bootFile m) = .stick (txt "/boot") := by
  have htxt : txt "/boot" = '/' :: txt "boot" := by simp [txt]
  rw [bootFile, htxt, place_stick h]

theorem place_probe {pid : Text} (h : w.mountedAt = some m) :
    w.place (writeProbe m pid) = .stick (txt "/.aspire4310-write-test." ++ pid) := by
  have htxt : txt "/.aspire4310-write-test." = '/' :: txt ".aspire4310-write-test." := by simp [txt]
  rw [writeProbe, List.append_assoc, htxt, List.cons_append, place_stick h]

/-- The files of the project are not on the boot partition. -/
theorem place_host {u : Text} (h : Mounted S w) :
    w.place (S.rootDir ++ '/' :: u) = .host (S.rootDir ++ '/' :: u) := by
  unfold World.place
  cases hm : w.mountedAt with
  | none => rfl
  | some m =>
    obtain ⟨hout, hin⟩ := S.apart m (h m hm)
    refine if_neg fun hpre => ?_
    have hroot : S.rootDir ++ ['/'] <+: S.rootDir ++ '/' :: u := ⟨u, by simp⟩
    rcases List.prefix_or_prefix_of_prefix (List.isPrefixOf_iff_prefix.1 hpre) hroot with h | h
    · exact hout h
    · exact hin h

theorem place_of_inBackups {path : Text} (hm : Mounted S w) (h : S.InBackups path) :
    w.place path = .host path := by
  obtain ⟨u, rfl⟩ := h
  have htxt : txt "/backup" = '/' :: txt "backup" := by simp [txt]
  rw [Setup.backupRoot, htxt, List.append_assoc, List.cons_append, place_host hm]

/-! ### What a command leaves alone -/

theorem Spared.of_eq (hw : w' = w) (h : Mounted S w) : Spared S w w' := by
  subst hw
  exact ⟨⟨h, fun _ _ _ hf => hf⟩, rfl, rfl⟩

theorem EfiStored.of_archived (h : EfiStored S t w) (hw : Archived S w w') : EfiStored S t w' := by
  obtain ⟨stamp, hsub⟩ := h
  exact ⟨stamp, fun u f hf => hw.saved _ _ inBackups_efi (hsub u f hf)⟩

theorem BootStored.of_archived (h : BootStored S b w) (hw : Archived S w w') :
    BootStored S b w' := by
  intro f hf
  obtain ⟨stamp, hs⟩ := h f hf
  exact ⟨stamp, hw.saved _ _ inBackups_boot hs⟩

theorem Stored.of_archived (h : Stored S t b w) (hw : Archived S w w') : Stored S t b w' :=
  ⟨hw.mounted, h.efi.of_archived hw, h.boot.of_archived hw⟩

theorem Kept.of_spared (h : Kept S t b w) (hw : Spared S w w') : Kept S t b w' := by
  refine ⟨hw.mounted, ?_, ?_⟩
  · rw [hw.efi]
    exact h.efi.imp_right fun h => h.of_archived hw.toArchived
  · rw [hw.boot]
    exact h.boot.imp_right fun h => h.of_archived hw.toArchived

/-- Changes outside of the backups. -/
theorem Only.archived (h : Only C w w') (hm : Mounted S w)
    (hsaved : ∀ p f, S.InBackups p → w.files (.host p) = some f → ¬ C (.host p)) :
    Archived S w w' := by
  refine ⟨fun m hw => hm m (h.1 ▸ hw), fun p f hp hf => ?_⟩
  rw [h.2 _ (hsaved p f hp hf), hf]

/-- Changes outside of the backups and of the boot files. -/
theorem Only.spared (h : Only C w w') (hm : Mounted S w)
    (hefi : ∀ u, ¬ C (.stick (txt "/EFI" ++ '/' :: u))) (hboot : ¬ C (.stick (txt "/boot")))
    (hsaved : ∀ p f, S.InBackups p → w.files (.host p) = some f → ¬ C (.host p)) :
    Spared S w w' :=
  ⟨h.archived hm hsaved, funext fun u => h.2 _ (hefi u), h.2 _ hboot⟩

/-- Commands that leave everything alone. -/
theorem spared_of_idle (hc : c.Idle) (hE : Does S l c r w w') (hm : Mounted S w) :
    Spared S w w' := by
  cases c with
  | build c =>
    refine Only.spared hE hm ?_ ?_ ?_
    · rintro u ⟨p, hp, -⟩
      cases hp
    · rintro ⟨p, hp, -⟩
      cases hp
    · rintro p f hp - ⟨p', hp', hout⟩
      cases hp'
      exact hout hp
  | look c => exact Spared.of_eq hE.1 hm
  | isFile path => exact Spared.of_eq hE.1 hm
  | isDir path => exact Spared.of_eq hE.1 hm
  | date => exact Spared.of_eq hE.1 hm
  | present path => exact Spared.of_eq hE hm
  | readLine => exact Spared.of_eq hE hm
  | attach image => exact Spared.of_eq hE hm
  | volumeUuid slice => exact Spared.of_eq hE hm
  | mkdir dir => exact Spared.of_eq hE hm
  | chmod tools => exact Spared.of_eq hE hm
  | sync => exact Spared.of_eq hE hm
  | _ => exact hc.elim

/-- A part that leaves everything alone returns what it may return at all. -/
theorem ensures_idle {α : Type} {p : Sh α} (hp : p.Calls Cmd.Idle) (h : Kept S t b w) :
    Ensures (Does S) (fun _ => Kept S t b) p
      (fun a _ w => Kept S t b w ∧ May (fun _ _ => True) p a) l w :=
  ensures_may (J := fun _ => Kept S t b) hp
    (fun _ _ _ _ _ hc hE h => ⟨h.of_spared (spared_of_idle hc hE h.mounted), trivial⟩)
    (fun _ _ h => h) h

/-! ### Mounting -/

/-- A command that only mounts or unmounts. -/
theorem Spared.of_files (hfiles : w'.files = w.files) (hm : Mounted S w') : Spared S w w' := by
  refine ⟨⟨hm, fun p f _ hf => by rw [hfiles, hf]⟩, ?_, ?_⟩
  · unfold World.efi
    rw [hfiles]
  · unfold World.boot
    rw [hfiles]

theorem spared_unmount {slice : Text} (hE : Does S l (.unmount slice) r w w') (hm : Mounted S w) :
    Spared S w w' := by
  refine Spared.of_files hE.1 fun m hw => ?_
  rcases hE.2 with h | h
  · rw [h] at hw
    cases hw
  · exact hm m (h ▸ hw)

theorem spared_mount {slice : Text} (hE : Does S l (.mount slice) r w w') (hm : Mounted S w) :
    Spared S w w' := by
  refine Spared.of_files hE.1 fun m hw => ?_
  rcases hE.2.2 with h | ⟨m', h, hm'⟩
  · exact hm m (h ▸ hw)
  · rw [h] at hw
    cases hw
    exact hm'

/-- The write test is not one of the boot files. -/
theorem spared_probe {pid : Text} (hw : w.mountedAt = some m) (hm : Mounted S w)
    (hE : Only (· = w.place (writeProbe m pid)) w w') : Spared S w w' := by
  rw [place_probe hw] at hE
  refine hE.spared hm ?_ ?_ ?_
  · intro u h
    simp [txt] at h
  · intro h
    simp [txt] at h
  · intro p f _ _ h
    cases h

/-- The boot partition is mounted, and its mount point is known. -/
theorem ensures_mountBootSliceWritable {pid : Text} (h : Kept S t b w) :
    Ensures (Does S) (fun _ => Kept S t b) (mountBootSliceWritable (bootPart S.disk) pid)
      (fun m _ w' => Kept S t b w' ∧ w'.mountedAt = some m) l w := by
  unfold mountBootSliceWritable
  rw [ensures_bind, ensures_glance]
  refine ⟨h, fun r₀ w hE => ?_⟩
  obtain ⟨rfl, -⟩ := hE
  refine ⟨h, ?_⟩
  rw [ensures_bind, ensures_orDie]
  refine ⟨h, fun _ => ?_⟩
  rw [ensures_bind]
  -- what is mounted is unmounted
  refine Ensures.imp (Q := fun _ _ => Kept S t b) ?_ fun _ l w h => ?_
  · rw [ensures_given, ensures_require]
    refine ⟨fun _ => ⟨h, fun r w hE => ?_⟩, fun _ => ⟨h, h⟩⟩
    have h := h.of_spared (spared_unmount hE h.mounted)
    exact ⟨h, fun _ => h⟩
  -- it is mounted again, and the mount point is asked for
  rw [ensures_bind, ensures_require]
  refine ⟨h, fun r w₁ hE => ?_⟩
  have h := h.of_spared (spared_mount hE h.mounted)
  refine ⟨h, fun hr => ?_⟩
  obtain ⟨m, hmount⟩ := Option.ne_none_iff_exists'.1 (hE.2.1 hr)
  rw [ensures_bind, ensures_glance]
  refine ⟨h, fun r w hE => ?_⟩
  obtain ⟨rfl, hinfo⟩ := hE
  refine ⟨h, ?_⟩
  rw [ensures_bind, ensures_orDie]
  refine ⟨h, fun hr => ?_⟩
  have hm : mountPointOf r = m := hinfo m rfl (of_decide_eq_true hr) hmount
  rw [hm, ensures_bind, ensures_require]
  refine ⟨h, fun r w hE => ?_⟩
  obtain ⟨rfl, -⟩ := hE
  refine ⟨h, fun _ => ?_⟩
  rw [ensures_bind, ensures_orDie]
  refine ⟨h, fun _ => ?_⟩
  rw [ensures_bind, ensures_require]
  refine ⟨h, fun r w₂ hE => ?_⟩
  have h := h.of_spared (spared_probe hmount h.mounted hE)
  have hmount : w₂.mountedAt = some m := hE.1 ▸ hmount
  refine ⟨h, fun _ => ?_⟩
  -- the write test
  rw [ensures_bind, ensures_require]
  refine ⟨h, fun r w₃ hE => ?_⟩
  have h := h.of_spared (spared_probe hmount h.mounted hE)
  exact ⟨h, fun _ => ⟨h, h, hE.1 ▸ hmount⟩⟩

/-! ### Replacing the boot files -/

/-- Nothing with this time was backed up. -/
def Fresh (S : Setup) (stamp : Text) (w : World) : Prop :=
  ∀ u, w.files (.host (S.backup stamp ++ '/' :: u)) = none

theorem Fresh.efi {stamp u : Text} (h : Fresh S stamp w) :
    w.files (.host (efiDir (S.backup stamp) ++ '/' :: u)) = none := by
  have htxt : txt "/EFI" = '/' :: txt "EFI" := by simp [txt]
  rw [efiDir, List.append_assoc, htxt, List.cons_append]
  exact h _

theorem Fresh.boot {stamp : Text} (h : Fresh S stamp w) : w.savedBoot S stamp = none := by
  have htxt : txt "/boot" = '/' :: txt "boot" := by simp [txt]
  rw [World.savedBoot, bootFile, htxt]
  exact h _

theorem bootFile_ne_efi {dir u : Text} : bootFile dir ≠ efiDir dir ++ '/' :: u := by
  rw [bootFile, efiDir, List.append_assoc]
  intro h
  have h := List.append_cancel_left h
  simp [txt] at h

/-- The two tests agree on what is there. -/
theorem ensures_hasBootFiles (h : Kept S t b w) (hmount : w.mountedAt = some m) :
    Ensures (Does S) (fun _ => Kept S t b) (hasBootFiles m)
      (fun found _ w' => w' = w ∧ (found = false → (∀ u, w.efi u = none) ∧ w.boot = none)) l w := by
  unfold hasBootFiles
  rw [ensures_bind, ensures_holds]
  refine ⟨h, fun r w hE => ?_⟩
  obtain ⟨rfl, hnone⟩ := hE
  refine ⟨h, ?_⟩
  split
  · exact ⟨h, rfl, fun hf => by cases hf⟩
  · rename_i hr
    rw [ensures_holds]
    refine ⟨h, fun r' w hE => ?_⟩
    obtain ⟨rfl, hfile⟩ := hE
    refine ⟨h, rfl, fun hr' => ⟨fun u => ?_, ?_⟩⟩
    · exact hnone (fun hr0 => hr (decide_eq_true hr0)) _ ⟨u, (place_efi hmount).symm⟩
    · rw [place_boot hmount] at hfile
      exact not_not.1 fun hb => of_decide_eq_false hr' (hfile.2 hb)

/-- The tree is copied to a place where nothing is lost. -/
theorem ensures_saveEfi {stamp : Text} (h : Kept S t b w) (hmount : w.mountedAt = some m)
    (hfresh : Fresh S stamp w) :
    Ensures (Does S) (fun _ => Kept S t b) (saveEfi m (S.backup stamp))
      (fun _ _ w' => Kept S t b w' ∧ EfiStored S t w' ∧ w'.mountedAt = some m ∧
        w'.savedBoot S stamp = none) l w := by
  unfold saveEfi
  rw [ensures_bind, ensures_exec]
  refine ⟨h, fun r w₁ hE => ?_⟩
  obtain ⟨honly, hcopy⟩ := hE
  have hplace : ∀ u, w.place (efiDir (S.backup stamp) ++ '/' :: u) =
      .host (efiDir (S.backup stamp) ++ '/' :: u) := fun u =>
    place_of_inBackups h.mounted inBackups_efi
  -- the copy lands in a backup with a fresh name
  have hspared : Spared S w w₁ := by
    refine honly.spared h.mounted ?_ ?_ ?_
    · rintro u ⟨v, hv⟩
      rw [hplace] at hv
      cases hv
    · rintro ⟨v, hv⟩
      rw [hplace] at hv
      cases hv
    · rintro p f - hf ⟨v, hv⟩
      rw [hplace] at hv
      cases hv
      rw [hfresh.efi] at hf
      cases hf
  have hk := h.of_spared hspared
  have hmount₁ : w₁.mountedAt = some m := honly.1 ▸ hmount
  refine ⟨hk, fun hr => ?_⟩
  -- the tree was still on the disk, or it is in a backup already
  have hstored : EfiStored S t w₁ := by
    rcases h.efi with hsub | hstored
    · refine ⟨stamp, fun u f hf => ?_⟩
      have hu := hcopy hr u
      have hold : w.files (.stick (txt "/EFI" ++ '/' :: u)) = some f := hsub u f hf
      rw [hplace, place_efi hmount, hold, Option.some_or] at hu
      exact hu
    · exact hstored.of_archived hspared.toArchived
  have hboot : w₁.savedBoot S stamp = none := by
    have hout : ¬ w.Within (efiDir (S.backup stamp)) (.host (bootFile (S.backup stamp))) := by
      rintro ⟨v, hv⟩
      rw [hplace] at hv
      exact bootFile_ne_efi (Place.host.inj hv)
    exact (honly.2 _ hout).trans hfresh.boot
  rw [ensures_require]
  refine ⟨hk, fun r' w hE => ?_⟩
  obtain ⟨rfl, -⟩ := hE
  exact ⟨hk, fun _ => ⟨hk, hstored, hmount₁, hboot⟩⟩

/-- So is the file. -/
theorem ensures_saveBoot {stamp : Text} (h : Kept S t b w) (hstored : EfiStored S t w)
    (hmount : w.mountedAt = some m) (hnone : w.savedBoot S stamp = none) :
    Ensures (Does S) (fun _ => Kept S t b)
      (exec (.copy (bootFile m) (bootFile (S.backup stamp))) : Sh Unit)
      (fun _ _ w' => Stored S t b w' ∧ w'.mountedAt = some m ∧ w'.efi = w.efi) l w := by
  rw [ensures_exec]
  refine ⟨h, fun r w₁ hE => ?_⟩
  obtain ⟨honly, hcopy⟩ := hE
  rw [place_of_inBackups h.mounted inBackups_boot] at honly hcopy
  -- the copy lands in a backup that has no such file yet
  have hspared : Spared S w w₁ := by
    refine honly.spared h.mounted ?_ ?_ ?_
    · rintro u hu
      cases hu
    · rintro hu
      cases hu
    · rintro p f - hf hp
      cases hp
      rw [← World.savedBoot, hnone] at hf
      cases hf
  refine ⟨h.of_spared hspared, fun hr => ⟨⟨hspared.mounted, ?_, ?_⟩, honly.1 ▸ hmount, hspared.efi⟩⟩
  · exact hstored.of_archived hspared.toArchived
  · rcases h.boot with rfl | hboot
    · rintro f hf
      have hnew := hcopy hr
      rw [place_boot hmount] at hnew
      exact ⟨stamp, hnew.trans hf⟩
    · exact hboot.of_archived hspared.toArchived

/-- What is not there needs no copy. -/
theorem Kept.stored_efi (h : Kept S t b w) (hnone : ∀ u, w.efi u = none) : EfiStored S t w := by
  rcases h.efi with hsub | hstored
  · refine ⟨[], fun u f hf => ?_⟩
    have hu := hsub u f hf
    rw [hnone u] at hu
    cases hu
  · exact hstored

theorem Kept.stored_boot (h : Kept S t b w) (hnone : w.boot = none) : BootStored S b w := by
  rcases h.boot with rfl | hstored
  · intro f hf
    rw [hnone] at hf
    cases hf
  · exact hstored

/-- The tree is removed from the boot partition, and from nowhere else. -/
theorem archived_removeTree (hm : Mounted S w) (hmount : w.mountedAt = some m)
    (hE : Does S l (.removeTree [efiDir m]) r w w') :
    Archived S w w' ∧ (r.status = 0 → ∀ u, w'.efi u = none) := by
  obtain ⟨honly, hgone⟩ := hE
  have htxt : txt "/EFI" = '/' :: txt "EFI" := by simp [txt]
  refine ⟨honly.archived hm ?_, fun hr u => ?_⟩
  · rintro p f - - ⟨q, hq, h⟩
    rw [List.mem_singleton] at hq
    subst hq
    rcases h with h | ⟨v, h⟩
    · rw [efiDir, htxt, place_stick hmount] at h
      cases h
    · rw [place_efi hmount] at h
      cases h
  · exact hgone hr _ (List.mem_singleton_self _) _ ⟨u, (place_efi hmount).symm⟩

/-- **Nothing is removed that is not in the backup.** -/
theorem ensures_backUp {stamp : Text} (h : Kept S t b w) (hmount : w.mountedAt = some m)
    (hfresh : Fresh S stamp w) :
    Ensures (Does S) (fun _ => Kept S t b) (backUp m (S.backup stamp))
      (fun _ _ w' => Stored S t b w' ∧ w'.mountedAt = some m ∧ ∀ u, w'.efi u = none) l w := by
  unfold backUp
  rw [ensures_bind, ensures_exec]
  refine ⟨h, fun r w hE => ?_⟩
  obtain rfl := hE
  refine ⟨h, fun _ => ?_⟩
  rw [ensures_bind, ensures_holds]
  refine ⟨h, fun r w hE => ?_⟩
  obtain ⟨rfl, hempty⟩ := hE
  refine ⟨h, ?_⟩
  have hempty : decide (r.status = 0) = false → ∀ u, w.efi u = none := fun hr u =>
    hempty (of_decide_eq_false hr) _ ⟨u, (place_efi hmount).symm⟩
  generalize decide (r.status = 0) = hadEfi at hempty ⊢
  -- the copy of the tree
  rw [ensures_bind]
  refine Ensures.imp (Q := fun _ _ w' => Kept S t b w' ∧ EfiStored S t w' ∧
    w'.mountedAt = some m ∧ w'.savedBoot S stamp = none ∧
    (hadEfi = false → ∀ u, w'.efi u = none)) ?_ fun _ l w ⟨h, hstored, hmount, hnone, hempty⟩ => ?_
  · rw [ensures_given]
    refine ⟨fun hr => ?_, fun hr => ?_⟩
    · refine (ensures_saveEfi h hmount hfresh).imp fun _ l w ⟨h, hstored, hmount, hnone⟩ => ?_
      exact ⟨h, hstored, hmount, hnone, fun hr' => by rw [hr] at hr'; cases hr'⟩
    · exact ⟨h, h, h.stored_efi (hempty hr), hmount, hfresh.boot, hempty⟩
  rw [ensures_bind, ensures_holds]
  refine ⟨h, fun r w hE => ?_⟩
  obtain ⟨rfl, hfile⟩ := hE
  refine ⟨h, ?_⟩
  -- the copy of the file
  rw [ensures_bind]
  refine Ensures.imp (Q := fun _ _ w' => Stored S t b w' ∧ w'.mountedAt = some m ∧
    (hadEfi = false → ∀ u, w'.efi u = none)) ?_ fun _ l w ⟨h, hmount, hempty⟩ => ?_
  · rw [ensures_given]
    refine ⟨fun _ => ?_, fun hr => ⟨h, ⟨h.mounted, hstored, h.stored_boot ?_⟩, hmount, hempty⟩⟩
    · refine (ensures_saveBoot h hstored hmount hnone).imp fun _ l w ⟨h, hmount, hefi⟩ => ?_
      exact ⟨h, hmount, fun hr => by rw [hefi]; exact hempty hr⟩
    · rw [place_boot hmount] at hfile
      exact not_not.1 fun hb => of_decide_eq_false hr (hfile.2 hb)
  -- the removal
  rw [ensures_given]
  refine ⟨fun _ => ?_, fun hr => ⟨h.kept, h, hmount, hempty hr⟩⟩
  rw [ensures_exec]
  refine ⟨h.kept, fun r w hE => ?_⟩
  obtain ⟨harchived, hgone⟩ := archived_removeTree h.mounted hmount hE
  have h := h.of_archived harchived
  exact ⟨h.kept, fun hr => ⟨h, hE.1.1 ▸ hmount, hgone hr⟩⟩

/-- The tree that was built. -/
def World.built (build : Text) (w : World) : Tree :=
  fun u => w.files (.host (efiDir (build ++ txt "/ESP") ++ '/' :: u))

/-- A command that changes the boot partition only. -/
theorem archived_stick (hE : Only C w w') (hm : Mounted S w) (hC : ∀ p, ¬ C (.host p)) :
    Archived S w w' ∧ ∀ p, w'.files (.host p) = w.files (.host p) :=
  ⟨hE.archived hm fun p _ _ _ => hC p, fun p => hE.2 _ (hC p)⟩

/-- **The boot files are replaced**, and the old ones are in backups. -/
theorem ensures_replaceBootFiles {build x : Text} (hbuild : build = S.rootDir ++ '/' :: x)
    (h : Kept S t b w) (hmount : w.mountedAt = some m) :
    Ensures (Does S) (fun _ => Kept S t b) (replaceBootFiles S.rootDir S.disk m build)
      (fun _ _ w' => Stored S t b w' ∧ w'.efi = w'.built build) l w := by
  unfold replaceBootFiles
  rw [ensures_bind, ensures_orDie]
  refine ⟨h, fun _ => ?_⟩
  rw [ensures_bind, ensures_glance]
  refine ⟨h, fun r w hE => ?_⟩
  obtain ⟨rfl, hfresh⟩ := hE
  refine ⟨h, ?_⟩
  rw [ensures_bind]
  refine (ensures_hasBootFiles h hmount).imp ?_
  rintro found l w ⟨rfl, hnone⟩
  rw [ensures_bind]
  refine Ensures.imp (Q := fun _ _ w' => Stored S t b w' ∧ w'.mountedAt = some m ∧
    ∀ u, w'.efi u = none) ?_ fun _ l w ⟨h, hmount, hempty⟩ => ?_
  · rw [ensures_given]
    refine ⟨fun _ => ensures_backUp h hmount hfresh, fun hr => ?_⟩
    obtain ⟨hefi, hboot⟩ := hnone hr
    exact ⟨h, ⟨h.mounted, h.stored_efi hefi, h.stored_boot hboot⟩, hmount, hefi⟩
  -- the new tree comes into an empty place
  rw [ensures_bind, ensures_exec]
  refine ⟨h.kept, fun r w₁ hE => ?_⟩
  obtain ⟨honly, hcopy⟩ := hE
  obtain ⟨harchived, hhost⟩ := archived_stick honly h.mounted <| by
    rintro p ⟨v, hv⟩
    rw [place_efi hmount] at hv
    cases hv
  have hnew : r.status = 0 → w₁.efi = w₁.built build := by
    intro hr
    funext u
    have hsource : w.place (efiDir (build ++ txt "/ESP") ++ '/' :: u) =
        .host (efiDir (build ++ txt "/ESP") ++ '/' :: u) := by
      rw [hbuild, efiDir]
      simp only [List.append_assoc, List.cons_append]
      exact place_host h.mounted
    have hu := hcopy hr u
    have hold : w.files (.stick (txt "/EFI" ++ '/' :: u)) = none := hempty u
    rw [place_efi hmount, hsource, hold, Option.or_none] at hu
    exact hu.trans (hhost _).symm
  have h := h.of_archived harchived
  have hmount : w₁.mountedAt = some m := honly.1 ▸ hmount
  refine ⟨h.kept, fun hr => ?_⟩
  have hnew := hnew hr
  rw [ensures_bind, ensures_exec]
  refine ⟨h.kept, fun r w₂ hE => ?_⟩
  obtain ⟨honly, -⟩ := hE
  rw [place_boot hmount] at honly
  obtain ⟨harchived, hhost⟩ := archived_stick honly h.mounted fun p hp => by cases hp
  have h := h.of_archived harchived
  have hnew : w₂.efi = w₂.built build := by
    funext u
    have hefi : w₂.efi u = w₁.efi u := honly.2 _ fun hu => by simp [txt] at hu
    exact (hefi.trans (congrFun hnew u)).trans (hhost _).symm
  refine ⟨h.kept, fun _ => ?_⟩
  rw [ensures_bind, ensures_require]
  refine ⟨h.kept, fun r w hE => ?_⟩
  obtain ⟨rfl, -⟩ := hE
  refine ⟨h.kept, fun _ => ?_⟩
  rw [ensures_require]
  refine ⟨h.kept, fun r w hE => ?_⟩
  obtain ⟨rfl, -⟩ := hE
  exact ⟨h.kept, fun _ => ⟨h, hnew⟩⟩

/-! ### Runs -/

theorem ensures_installBootSectors {build ocCacheRoot archName : Text} (h : Stored S t b w)
    (hnew : w.efi = w.built build) :
    Ensures (Does S) (fun _ => Kept S t b) (installBootSectors ocCacheRoot archName S.disk)
      (fun _ _ w' => Stored S t b w' ∧ w'.efi = w'.built build) l w := by
  unfold installBootSectors
  rw [ensures_bind, ensures_exec]
  refine ⟨h.kept, fun r w hE => ?_⟩
  obtain rfl := hE
  refine ⟨h.kept, fun _ => ?_⟩
  rw [ensures_bind, ensures_exec]
  refine ⟨h.kept, fun r w₁ hE => ?_⟩
  obtain ⟨hhost, hefi, hm⟩ := hE
  have h := h.of_archived ⟨hm, fun p f _ hf => (hhost p).trans hf⟩
  have hnew : w₁.efi = w₁.built build := by
    rw [hefi, hnew]
    funext u
    exact (hhost _).symm
  refine ⟨h.kept, fun _ => ?_⟩
  rw [ensures_exec]
  refine ⟨h.kept, fun r w hE => ?_⟩
  obtain rfl := hE
  exact ⟨h.kept, fun _ => ⟨h, hnew⟩⟩

/-- The tree that is deployed is below `output`. -/
theorem deployRoot_eq {u : Settings} (hroot : u.rootDir = S.rootDir) :
    ∃ x, deployRoot u = S.rootDir ++ '/' :: (txt "output" ++ x) := by
  unfold deployRoot Mac.SafeRemove.buildRoot Mac.SafeRemove.profileOutputDir
    Mac.SafeRemove.outputDir
  rw [hroot]
  split
  · exact ⟨_, by simp only [List.append_assoc, List.cons_append]; rfl⟩
  · exact ⟨_, by simp only [List.append_assoc, List.cons_append]; rfl⟩

/-- What both scripts do to the boot partition. -/
theorem ensures_deploy {u : Settings} (hroot : u.rootDir = S.rootDir) (h : Kept S t b w) :
    Ensures (Does S) (fun _ => Kept S t b)
      (do
        let efiMount ← mountBootSliceWritable (bootPart S.disk) u.pid
        replaceBootFiles u.rootDir S.disk efiMount (deployRoot u)
        installBootSectors u.ocCacheRoot u.archName S.disk)
      (fun _ _ w' => Stored S t b w' ∧ w'.efi = w'.built (deployRoot u)) l w := by
  obtain ⟨_, hbuild⟩ := deployRoot_eq hroot
  rw [hroot, ensures_bind]
  refine (ensures_mountBootSliceWritable h).imp fun m l w ⟨h, hmount⟩ => ?_
  rw [ensures_bind]
  refine (ensures_replaceBootFiles hbuild h hmount).imp fun _ l w ⟨h, hnew⟩ => ?_
  exact ensures_installBootSectors h hnew

theorem boot_of_assertBootSlice {u : Settings} {disk : Text}
    {A : Cmd → Stmt.Reply → Prop} (h : May A (assertBootSlice u disk) ()) :
    u.bootSlice = bootPart disk := by
  simp only [assertBootSlice, may_bind, may_orDie, decide_eq_true_eq] at h
  obtain ⟨_, -, _, hboot, -⟩ := h
  exact hboot

theorem ensures_runUpdateEfi {u : Settings} (hroot : u.rootDir = S.rootDir) (h : Kept S t b w) :
    Ensures (Does S) (fun _ => Kept S t b) (runUpdateEfi u S.disk)
      (fun _ _ w' => u.dryRun = false → Stored S t b w' ∧ w'.efi = w'.built (deployRoot u))
      l w := by
  unfold runUpdateEfi
  rw [ensures_bind]
  refine (ensures_idle calls_prepareUpdateEfi h).imp fun _ l w ⟨h, _⟩ => ?_
  rw [ensures_bind]
  refine (ensures_idle calls_assert h).imp fun _ l w ⟨h, _⟩ => ?_
  rw [ensures_bind]
  refine (ensures_idle calls_assertBootSlice h).imp fun _ l w ⟨h, hassert⟩ => ?_
  rw [ensures_given]
  refine ⟨fun _ => ?_, fun hdry => ⟨h, fun hreal => by rw [hreal] at hdry; cases hdry⟩⟩
  rw [ensures_bind]
  refine (ensures_idle calls_confirm h).imp fun _ l w ⟨h, _⟩ => ?_
  unfold updateFiles
  rw [boot_of_assertBootSlice hassert]
  exact (ensures_deploy hroot h).imp fun _ _ _ h _ => h

/-- The file is neither on the boot partition nor in the backups. -/
def Setup.Elsewhere (S : Setup) (path : Text) : Prop :=
  (∀ m, S.mounts m → ¬ m ++ ['/'] <+: path) ∧ ¬ S.InBackups path

theorem Setup.Elsewhere.place {path : Text} (h : S.Elsewhere path) (hm : Mounted S w) :
    w.place path = .host path := by
  unfold World.place
  cases hmount : w.mountedAt with
  | none => rfl
  | some m => exact if_neg fun hpre => h.1 m (hm m hmount) (List.isPrefixOf_iff_prefix.1 hpre)

theorem may_firstPresent {A : Cmd → Stmt.Reply → Prop} {paths : List Text} {path : Text}
    (h : May A (firstPresent paths) path) : path = [] ∨ path ∈ paths := by
  induction paths with
  | nil => exact Or.inl h
  | cons p paths ih =>
    rw [firstPresent, may_bind] at h
    obtain ⟨found, -, h⟩ := h
    cases found with
    | true => exact Or.inr (List.mem_cons.2 (Or.inl h))
    | false => exact (ih h).imp_right (List.mem_cons_of_mem _)

/-- The images that are looked for are those in `input`. -/
theorem elsewhere_input {path : Text} (h : txt "/input/" <+: path) :
    S.Elsewhere (S.rootDir ++ path) := by
  obtain ⟨name, rfl⟩ := h
  have htxt : txt "/input/" = '/' :: txt "input/" := by simp [txt]
  refine ⟨fun m hm hpre => ?_, ?_⟩
  · obtain ⟨hout, hin⟩ := S.apart m hm
    have hroot : S.rootDir ++ ['/'] <+: S.rootDir ++ (txt "/input/" ++ name) :=
      ⟨txt "input/" ++ name, by simp [htxt]⟩
    rcases List.prefix_or_prefix_of_prefix hpre hroot with h | h
    · exact hout h
    · exact hin h
  · rintro ⟨u, hu⟩
    rw [Setup.backupRoot, List.append_assoc] at hu
    have hu := List.append_cancel_left hu
    simp [txt] at hu

theorem elsewhere_autoRetailSource {A : Cmd → Stmt.Reply → Prop} {os : Mac.SafeRemove.OsProfile}
    {path : Text} (h : May A (autoRetailSource S.rootDir os) path) (hne : path ≠ []) :
    S.Elsewhere path := by
  have himages : ∀ image ∈ retailImages os, txt "/input/" <+: image := by
    cases os <;> simp [retailImages, txt]
  obtain ⟨image, himage, rfl⟩ := List.mem_map.1 ((may_firstPresent h).resolve_left hne)
  exact elsewhere_input (himages image himage)

/-- The image of the installer is not one of the files that are kept. -/
theorem elsewhere_prepareMakeUsb {A : Cmd → Stmt.Reply → Prop} {u : Settings} {disk retail : Text}
    (hroot : u.rootDir = S.rootDir) (hretail : u.retail ≠ [] → S.Elsewhere u.retail)
    (h : May A (prepareMakeUsb u disk) retail) : S.Elsewhere retail := by
  simp only [prepareMakeUsb, may_bind, may_orDie, decide_eq_true_eq] at h
  obtain ⟨_, -, _, -, source, hsource, _, hne, _, -, _, -, _, -, _, -, _, -, _, -, _, -, hret⟩ := h
  have hret : retail = source := hret
  subst hret
  unfold chooseRetail at hsource
  split at hsource
  · rename_i hu
    have hsource : retail = u.retail := hsource
    rw [hsource]
    exact hretail hu
  · rw [hroot] at hsource
    exact elsewhere_autoRetailSource hsource hne

/-- The installer is restored to the second slice. -/
theorem ensures_restoreRetail {source : Text} (hsource : S.Elsewhere source) (h : Kept S t b w) :
    Ensures (Does S) (fun _ => Kept S t b) (restoreRetail source (installerPart S.disk))
      (fun _ _ => Kept S t b) l w := by
  have hcalls : (restoreRetail source (installerPart S.disk)).Calls fun c =>
      c.Idle ∨ c = .imagescan source ∨ ∃ s, c = .restore s (installerPart S.disk) := by
    simp [restoreRetail, attachImage, attachRetailReadonly]
  refine ensures_of_calls (J := fun _ => Kept S t b) hcalls ?_ (fun _ _ h => h) h
  rintro l c r w w' (hc | rfl | ⟨s, rfl⟩) hE h
  · exact h.of_spared (spared_of_idle hc hE h.mounted)
  · have honly : Only (· = .host source) w w' := by
      rw [← hsource.place h.mounted]
      exact hE
    refine h.of_spared (honly.spared h.mounted (fun u hu => by cases hu) (fun hu => by cases hu) ?_)
    rintro p f hp - hsame
    cases hsame
    exact hsource.2 hp
  · exact h.of_spared (Spared.of_eq (hE rfl) h.mounted)

theorem slices_of_assertLayout {u : Settings} {disk : Text} {A : Cmd → Stmt.Reply → Prop}
    (hlayout : u.layout = .preserve) (h : May A (assertLayout u disk) ()) :
    u.bootSlice = bootPart disk ∧ u.installerSlice = installerPart disk := by
  unfold assertLayout at h
  rw [hlayout] at h
  simp only [assertPreserveLayout, may_bind, may_orDie, decide_eq_true_eq] at h
  obtain ⟨_, -, _, -, _, -, _, hboot, _, hinstaller, -⟩ := h
  exact ⟨hboot, hinstaller⟩

theorem ensures_fillDisk {u : Settings} {retail : Text} (hroot : u.rootDir = S.rootDir)
    (hsource : S.Elsewhere retail) (h : Kept S t b w) :
    Ensures (Does S) (fun _ => Kept S t b)
      (fillDisk u S.disk retail (bootPart S.disk) (installerPart S.disk))
      (fun _ _ w' => u.dryRun = false → Stored S t b w' ∧ w'.efi = w'.built (deployRoot u))
      l w := by
  unfold fillDisk
  rw [ensures_bind]
  refine (ensures_restoreRetail hsource h).imp fun _ l w h => ?_
  rw [ensures_bind, ensures_glance]
  refine ⟨h, fun r w hE => ?_⟩
  obtain rfl := hE
  refine ⟨h, ?_⟩
  rw [ensures_bind, ensures_orDie]
  refine ⟨h, fun _ => ?_⟩
  rw [ensures_bind, ensures_require]
  refine ⟨h, fun r w hE => ?_⟩
  obtain ⟨rfl, -⟩ := hE
  exact ⟨h, fun _ => (ensures_deploy hroot h).imp fun _ _ _ h _ => h⟩

/-- `run_make_usb` with `--layout preserve`. -/
theorem ensures_runMakeUsb {u : Settings} (hroot : u.rootDir = S.rootDir)
    (hlayout : u.layout = .preserve) (hretail : u.retail ≠ [] → S.Elsewhere u.retail)
    (h : Kept S t b w) :
    Ensures (Does S) (fun _ => Kept S t b) (runMakeUsb u S.disk)
      (fun _ _ w' => u.dryRun = false → Stored S t b w' ∧ w'.efi = w'.built (deployRoot u))
      l w := by
  unfold runMakeUsb
  rw [ensures_bind]
  refine (ensures_idle calls_prepareMakeUsb h).imp fun retail l w ⟨h, hprepare⟩ => ?_
  have hsource := elsewhere_prepareMakeUsb hroot hretail hprepare
  rw [ensures_bind]
  refine (ensures_idle calls_assert h).imp fun _ l w ⟨h, _⟩ => ?_
  rw [ensures_bind]
  refine (ensures_idle calls_assertLayout h).imp fun _ l w ⟨h, hassert⟩ => ?_
  obtain ⟨hboot, hinstaller⟩ := slices_of_assertLayout hlayout hassert
  rw [ensures_given]
  refine ⟨fun _ => ?_, fun hdry => ⟨h, fun hreal => by rw [hreal] at hdry; cases hdry⟩⟩
  unfold openDisk
  rw [hlayout, hboot, hinstaller, ensures_bind, ensures_bind]
  refine (ensures_idle calls_confirm h).imp fun _ l w ⟨h, _⟩ => ?_
  exact ⟨h, ensures_fillDisk hroot hsource h⟩

/-! ### Any number of runs -/

/-- The runs that keep the first slice: `--update-efi`, and `--make-usb --layout preserve` with an
installer that is not one of the files themselves. -/
inductive Careful (S : Setup) (u : Settings) : Sh Unit → Prop
  | update (hroot : u.rootDir = S.rootDir) : Careful S u (runUpdateEfi u S.disk)
  | preserve (hroot : u.rootDir = S.rootDir) (hlayout : u.layout = .preserve)
      (hretail : u.retail ≠ [] → S.Elsewhere u.retail) : Careful S u (runMakeUsb u S.disk)

theorem Careful.ensures {u : Settings} {p : Sh Unit} (hp : Careful S u p) (h : Kept S t b w) :
    Ensures (Does S) (fun _ => Kept S t b) p
      (fun _ _ w' => u.dryRun = false → Stored S t b w' ∧ w'.efi = w'.built (deployRoot u))
      l w := by
  cases hp with
  | update hroot => exact ensures_runUpdateEfi hroot h
  | preserve hroot hlayout hretail => exact ensures_runMakeUsb hroot hlayout hretail h

/-- At the start everything is on the disk. -/
theorem kept_self (h : Mounted S w) : Kept S w.efi w.boot w :=
  ⟨h, Or.inl fun _ _ hf => hf, Or.inl rfl⟩

end BootFiles

end InstallKit
