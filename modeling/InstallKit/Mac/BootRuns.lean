import InstallKit.Mac.BootFiles
import InstallKit.Mac.UsbRuns

/-!
# Runs that replace the boot files

* `boot_files_kept` : after any interrupted runs of `run_update_efi`, and of `run_make_usb` with
  `--layout preserve`, every boot tree and every `boot` that was ever there is still on the disk or
  in one of the backups.
* `update_installs` : where such a run returns, the boot tree is the one that was built, and the old
  one is in a backup.
* `update_recovers` : whatever was left behind, a run of `run_update_efi` can return.
-/

namespace InstallKit

namespace BootFiles

open Sources Shell Stmt MakeUsb
open Mac (Disk)

variable {S : Setup} {w w' : World} {m : Text} {c : Cmd} {r : Stmt.Reply}
  {l : List (Cmd × Stmt.Reply)} {u : Settings}

/-! ### Commands that succeed -/

theorem place_injective {p q : Text} (h : w.place p = w.place q) : p = q := by
  unfold World.place at h
  cases hm : w.mountedAt with
  | none =>
    rw [hm] at h
    exact Place.host.inj h
  | some m =>
    rw [hm] at h
    simp only at h
    split at h <;> split at h
    · rename_i hp hq
      obtain ⟨s, rfl⟩ := List.isPrefixOf_iff_prefix.1 hp
      obtain ⟨s', rfl⟩ := List.isPrefixOf_iff_prefix.1 hq
      simpa using h
    · cases h
    · cases h
    · exact Place.host.inj h

/-- A place that no path of the directory names is left alone; the others are taken over. -/
theorem exists_dittoed (source target : Text) (w : World) :
    ∃ w', Dittoed source target .done w w' := by
  classical
  refine ⟨⟨fun x => if h : w.Within target x then
    (w.files (w.place (source ++ '/' :: h.choose))).or (w.files x) else w.files x, w.mountedAt⟩,
    ⟨rfl, fun x hx => dif_neg hx⟩, fun _ u => ?_⟩
  have h : w.Within target (w.place (target ++ '/' :: u)) := ⟨u, rfl⟩
  have hu : h.choose = u := by
    have hspec := place_injective h.choose_spec
    simpa using hspec.symm
  simp only
  rw [dif_pos h, hu]

theorem exists_copied (source target : Text) (w : World) :
    ∃ w', Copies source target .done w w' := by
  refine ⟨⟨fun x => if x = w.place target then w.files (w.place source) else w.files x,
    w.mountedAt⟩, ⟨rfl, fun x hx => if_neg hx⟩, fun _ => if_pos rfl⟩

theorem exists_removed (dir : Text) (w : World) :
    ∃ w', Does S l (.removeTree [dir]) .done w w' := by
  classical
  refine ⟨⟨fun x => if x = w.place dir ∨ w.Within dir x then none else w.files x, w.mountedAt⟩,
    ⟨rfl, fun x hx => if_neg fun h => hx ⟨dir, List.mem_singleton_self _, h⟩⟩,
    fun _ p hp x hx => ?_⟩
  rw [List.mem_singleton] at hp
  subst hp
  exact if_pos (Or.inr hx)

/-! ### A run that returns -/

/-- What the boot partition holds changes; the project does not, apart from the backups. -/
structure Beside (S : Setup) (w w' : World) : Prop where
  mountedAt : w'.mountedAt = w.mountedAt
  files : ∀ p, ¬ S.InBackups p → w'.files (.host p) = w.files (.host p)

theorem Beside.refl : Beside S w w := ⟨rfl, fun _ _ => rfl⟩

theorem Beside.trans {w'' : World} (h : Beside S w w') (h' : Beside S w' w'') : Beside S w w'' :=
  ⟨h'.mountedAt.trans h.mountedAt, fun p hp => (h'.files p hp).trans (h.files p hp)⟩

theorem Only.beside {C : Place → Prop} (h : Only C w w')
    (hC : ∀ p, ¬ S.InBackups p → ¬ C (.host p)) : Beside S w w' :=
  ⟨h.1, fun p hp => h.2 _ (hC p hp)⟩

theorem Beside.mounted (h : Beside S w w') (hm : Mounted S w) : Mounted S w' :=
  fun m hw => hm m (h.mountedAt ▸ hw)

theorem mounted_of_eq (hmount : w.mountedAt = some m) (hm : S.mounts m) : Mounted S w := by
  intro m' hw
  rw [hmount] at hw
  cases hw
  exact hm

theorem achieves_mountBootSliceWritable {pid : Text} {q r₁ : Stmt.Reply} (hq : q.status = 0)
    (h₀ : ∀ m', w.mountedAt = some m' → mountPointOf q = m') (hm : S.mounts m)
    (hr₁ : r₁.status = 0) (h₁ : mountPointOf r₁ = m)
    (hwritable : (txt "Yes").isPrefixOf
      (Mac.firstValue (txt "Volume Read-Only") (lines r₁.out)) = false) :
    Achieves (Does S) (mountBootSliceWritable (bootPart S.disk) pid)
      (fun m' _ w' => m' = m ∧ w' = ⟨w.files, some m⟩) l w := by
  unfold mountBootSliceWritable
  rw [achieves_bind, achieves_glance]
  refine ⟨q, w, ⟨rfl, fun m' _ _ hw => h₀ m' hw⟩, ?_⟩
  rw [achieves_bind, achieves_orDie]
  refine ⟨decide_eq_true hq, ?_⟩
  rw [achieves_bind]
  -- what is mounted is unmounted
  refine Achieves.imp (Q := fun _ _ w' => w'.files = w.files) ?_ fun _ l w₁ hfiles => ?_
  · rw [achieves_given, achieves_require]
    exact ⟨fun _ => ⟨.done, ⟨w.files, none⟩, ⟨rfl, Or.inl rfl⟩, rfl, rfl⟩, fun _ => rfl⟩
  -- it is mounted again, and the mount point is asked for
  rw [achieves_bind, achieves_require]
  refine ⟨.done, ⟨w.files, some m⟩, ⟨hfiles.symm, fun _ => by simp, Or.inr ⟨m, rfl, hm⟩⟩, rfl, ?_⟩
  rw [achieves_bind, achieves_glance]
  refine ⟨r₁, _, ⟨rfl, fun m' _ _ hw => ?_⟩, ?_⟩
  · cases hw
    exact h₁
  rw [achieves_bind, achieves_orDie]
  refine ⟨decide_eq_true hr₁, ?_⟩
  rw [achieves_bind, achieves_require]
  refine ⟨.done, _, ⟨rfl, fun h => absurd rfl h⟩, rfl, ?_⟩
  rw [achieves_bind, achieves_orDie]
  refine ⟨by rw [hwritable]; rfl, ?_⟩
  rw [achieves_bind, achieves_require]
  refine ⟨.done, _, ⟨rfl, fun _ _ => rfl⟩, rfl, ?_⟩
  rw [achieves_bind, achieves_require]
  exact ⟨.done, _, ⟨rfl, fun _ _ => rfl⟩, rfl, h₁, rfl⟩

theorem achieves_backUp {stamp : Text} (hmount : w.mountedAt = some m) (hm : S.mounts m) :
    Achieves (Does S) (backUp m (S.backup stamp))
      (fun _ _ w' => Beside S w w' ∧ ∀ u, w'.efi u = none) l w := by
  have hmounted := mounted_of_eq hmount hm
  unfold backUp
  rw [achieves_bind, achieves_exec]
  refine ⟨.done, w, rfl, rfl, ?_⟩
  rw [achieves_bind, achieves_holds]
  refine ⟨.done, w, ⟨rfl, fun h => absurd rfl h⟩, ?_⟩
  rw [achieves_bind, achieves_given]
  refine ⟨fun _ => ?_, fun h => by cases h⟩
  -- the old tree
  obtain ⟨w₁, honly, hcopy⟩ := exists_dittoed (efiDir m) (efiDir (S.backup stamp)) w
  have hb₁ : Beside S w w₁ := by
    refine honly.beside ?_
    rintro p hp ⟨v, hv⟩
    rw [place_of_inBackups hmounted inBackups_efi] at hv
    cases hv
    exact hp inBackups_efi
  unfold saveEfi
  rw [achieves_bind, achieves_exec]
  refine ⟨.done, w₁, ⟨honly, hcopy⟩, rfl, ?_⟩
  rw [achieves_require]
  refine ⟨.done, w₁, ⟨rfl, fun h => absurd rfl h⟩, rfl, ?_⟩
  rw [achieves_bind, achieves_holds]
  -- the old file, if there is one
  refine ⟨.test (w₁.files (w₁.place (bootFile m))).isSome, w₁, ⟨rfl, ?_⟩, ?_⟩
  · rw [status_test, Option.isSome_iff_ne_none]
  rw [achieves_bind]
  refine Achieves.imp (Q := fun _ _ w' => Beside S w w') ?_ fun _ l w₂ hb₂ => ?_
  · rw [achieves_given, achieves_exec]
    refine ⟨fun _ => ?_, fun _ => hb₁⟩
    obtain ⟨w₂, hw₂⟩ := exists_copied (bootFile m) (bootFile (S.backup stamp)) w₁
    refine ⟨.done, w₂, hw₂, rfl, hb₁.trans (hw₂.1.beside ?_)⟩
    intro p hp hsame
    rw [place_of_inBackups (hb₁.mounted hmounted) inBackups_boot] at hsame
    cases hsame
    exact hp inBackups_boot
  rw [achieves_given, achieves_exec]
  refine ⟨fun _ => ?_, fun h => by cases h⟩
  -- only then is the tree removed
  obtain ⟨w₃, hw₃⟩ := exists_removed (S := S) (l := l) (efiDir m) w₂
  have hmount₂ : w₂.mountedAt = some m := hb₂.mountedAt.trans hmount
  have hgone : ∀ u, w₃.efi u = none := fun u =>
    hw₃.2 rfl _ (List.mem_singleton_self _) _ ⟨u, (place_efi hmount₂).symm⟩
  refine ⟨.done, w₃, hw₃, rfl, hb₂.trans (hw₃.1.beside ?_), hgone⟩
  have htxt : txt "/EFI" = '/' :: txt "EFI" := by simp [txt]
  rintro p - ⟨q, hq, h⟩
  rw [List.mem_singleton] at hq
  subst hq
  rcases h with h | ⟨v, h⟩
  · rw [efiDir, htxt, place_stick hmount₂] at h
    cases h
  · rw [place_efi hmount₂] at h
    cases h

/-- `replace_boot_files`, up to the removal of the old boot files. -/
def saveOld (rootDir disk efiMount : Text) : Sh Unit := do
  orDie (underVolumes efiMount)
    ("Refusing EFI replacement at unexpected mount point: " ++ str efiMount)
  let stamp ← glance .date
  let found ← hasBootFiles efiMount
  given found <| backUp efiMount (backupDir rootDir stamp.out disk)

/-- `replace_boot_files`, from there. -/
def copyNew (efiMount build : Text) : Sh Unit := do
  exec (.sudoDitto (efiDir (build ++ txt "/ESP")) (efiDir efiMount))
  exec (.sudoCopy (bootFile (build ++ txt "/ESP")) (bootFile efiMount))
  require (.isFile (efiMount ++ txt "/EFI/OC/config.plist"))
    "New EFI/OpenDuet copy could not be verified."
  require (.isFile (bootFile efiMount)) "New EFI/OpenDuet copy could not be verified."

theorem replaceBootFiles_eq (rootDir disk efiMount build : Text) :
    replaceBootFiles rootDir disk efiMount build =
      saveOld rootDir disk efiMount >>= fun _ => copyNew efiMount build := by
  simp only [replaceBootFiles, saveOld, copyNew, bind_assoc]

/-- The old boot files are in a backup and off the disk. -/
theorem achieves_saveOld (hv : underVolumes m = true) (hmount : w.mountedAt = some m)
    (hm : S.mounts m) (hfresh : ∃ stamp, Fresh S stamp w) :
    Achieves (Does S) (saveOld S.rootDir S.disk m)
      (fun _ _ w' => Beside S w w' ∧ ∀ u, w'.efi u = none) l w := by
  obtain ⟨stamp, hfresh⟩ := hfresh
  unfold saveOld
  rw [achieves_bind, achieves_orDie]
  refine ⟨hv, ?_⟩
  rw [achieves_bind, achieves_glance]
  refine ⟨.text stamp, w, ⟨rfl, hfresh⟩, ?_⟩
  rw [achieves_bind]
  refine Achieves.imp (Q := fun found _ w' => found = true ∧ w' = w) ?_ ?_
  · unfold hasBootFiles
    rw [achieves_bind, achieves_holds]
    exact ⟨.done, w, ⟨rfl, fun h => absurd rfl h⟩, rfl, rfl⟩
  rintro _ l w ⟨rfl, rfl⟩
  rw [achieves_given]
  exact ⟨fun _ => achieves_backUp hmount hm, fun h => by cases h⟩

/-- Where the new boot files are there, they can be copied. -/
theorem achieves_copyNew {build x : Text} (hbuild : build = S.rootDir ++ '/' :: x)
    (hconfig : w.files (.host (efiDir (build ++ txt "/ESP") ++ '/' :: txt "OC/config.plist")) ≠ none)
    (hboot : w.files (.host (bootFile (build ++ txt "/ESP"))) ≠ none)
    (hmount : w.mountedAt = some m) (hm : S.mounts m) :
    Achieves (Does S) (copyNew m build) (fun _ _ w' => Mounted S w') l w := by
  have htarget : m ++ txt "/EFI/OC/config.plist" = efiDir m ++ '/' :: txt "OC/config.plist" := by
    simp [efiDir, txt]
  have hmounted := mounted_of_eq hmount hm
  have hplace : ∀ {w' : World} {u : Text}, Mounted S w' →
      w'.place (build ++ txt "/ESP" ++ u) = .host (build ++ txt "/ESP" ++ u) := by
    intro w' u hw'
    rw [hbuild]
    simp only [List.append_assoc, List.cons_append]
    exact place_host hw'
  unfold copyNew
  -- the tree
  obtain ⟨w₁, honly₁, hcopy₁⟩ := exists_dittoed (efiDir (build ++ txt "/ESP")) (efiDir m) w
  rw [achieves_bind, achieves_exec]
  refine ⟨.done, w₁, ⟨honly₁, hcopy₁⟩, rfl, ?_⟩
  have hmount₁ : w₁.mountedAt = some m := honly₁.1.trans hmount
  have hhost₁ : ∀ p, w₁.files (.host p) = w.files (.host p) := by
    refine fun p => honly₁.2 _ ?_
    rintro ⟨v, hv⟩
    rw [place_efi hmount] at hv
    cases hv
  have hconfig₁ : w₁.files (.stick (txt "/EFI" ++ '/' :: txt "OC/config.plist")) ≠ none := by
    have hnew := hcopy₁ rfl (txt "OC/config.plist")
    rw [place_efi hmount, efiDir, List.append_assoc, hplace hmounted, ← List.append_assoc,
      ← efiDir] at hnew
    rw [hnew]
    simp [hconfig]
  -- the file
  obtain ⟨w₂, honly₂, hcopy₂⟩ := exists_copied (bootFile (build ++ txt "/ESP")) (bootFile m) w₁
  rw [achieves_bind, achieves_exec]
  refine ⟨.done, w₂, ⟨honly₂, hcopy₂⟩, rfl, ?_⟩
  have hmount₂ : w₂.mountedAt = some m := honly₂.1.trans hmount₁
  have hboot₂ : w₂.files (w₂.place (bootFile m)) ≠ none := by
    have hnew := hcopy₂ rfl
    rw [place_boot hmount₁, bootFile, hplace (mounted_of_eq hmount₁ hm), hhost₁] at hnew
    rw [place_boot hmount₂, hnew]
    exact hboot
  rw [achieves_bind, achieves_require]
  refine ⟨.done, w₂, ⟨rfl, fun _ => ?_, fun _ => rfl⟩, rfl, ?_⟩
  · have hne : ¬ Place.stick (txt "/EFI" ++ '/' :: txt "OC/config.plist") =
        w₁.place (bootFile m) := by
      rw [place_boot hmount₁]
      simp [txt]
    rw [htarget, place_efi hmount₂, honly₂.2 _ hne]
    exact hconfig₁
  rw [achieves_require]
  exact ⟨.done, w₂, ⟨rfl, fun _ => hboot₂, fun _ => rfl⟩, rfl, mounted_of_eq hmount₂ hm⟩

theorem achieves_replaceBootFiles {build x : Text} (hbuild : build = S.rootDir ++ '/' :: x)
    (hout : ∀ y, ¬ S.InBackups (build ++ '/' :: y))
    (hconfig : w.files (.host (build ++ txt "/ESP/EFI/OC/config.plist")) ≠ none)
    (hboot : w.files (.host (bootFile (build ++ txt "/ESP"))) ≠ none)
    (hv : underVolumes m = true) (hmount : w.mountedAt = some m) (hm : S.mounts m)
    (hfresh : ∃ stamp, Fresh S stamp w) :
    Achieves (Does S) (replaceBootFiles S.rootDir S.disk m build) (fun _ _ w' => Mounted S w')
      l w := by
  have hesp : txt "/ESP" = '/' :: txt "ESP" := by simp [txt]
  have hsource : build ++ txt "/ESP/EFI/OC/config.plist" =
      efiDir (build ++ txt "/ESP") ++ '/' :: txt "OC/config.plist" := by
    simp [efiDir, txt]
  -- no file of the build is in a backup
  have houtEsp : ∀ u, ¬ S.InBackups (build ++ txt "/ESP" ++ u) := by
    intro u
    rw [hesp]
    simpa using hout _
  rw [replaceBootFiles_eq, achieves_bind]
  refine (achieves_saveOld hv hmount hm hfresh).imp ?_
  rintro _ l w₁ ⟨hb, -⟩
  refine achieves_copyNew hbuild ?_ ?_ (hb.mountedAt.trans hmount) hm
  · rw [efiDir, List.append_assoc, hb.files _ (houtEsp _), ← List.append_assoc, ← efiDir, ← hsource]
    exact hconfig
  · rw [bootFile, hb.files _ (houtEsp _)]
    exact hboot

theorem achieves_installBootSectors {ocCacheRoot archName disk : Text} (hm : Mounted S w) :
    Achieves (Does S) (installBootSectors ocCacheRoot archName disk) (fun _ _ _ => True) l w := by
  unfold installBootSectors
  rw [achieves_bind, achieves_exec]
  refine ⟨.done, w, rfl, rfl, ?_⟩
  rw [achieves_bind, achieves_exec]
  refine ⟨.done, w, ⟨fun _ => rfl, rfl, hm⟩, rfl, ?_⟩
  rw [achieves_exec]
  exact ⟨.done, w, rfl, rfl, trivial⟩

/-! ### What comes before -/

/-- The replies to the commands before the first one that writes. -/
def Quietly (u : Settings) (d : Disk) : Cmd → Stmt.Reply → Prop
  | .build _, r => r = .done
  | .look c, r => r = said d c ∧ ¬ c.Destructive
  | .isFile path, r => path = deployRoot u ++ txt "/ESP/EFI/OC/config.plist" ∧ r = .done
  | .readLine, r => r = .text (updatePhrase u d.dev)
  | _, _ => False

theorem obliging_quietly (u : Settings) (d : Disk) : Obliging (Quietly u d) d :=
  ⟨fun _ => rfl, fun _ hc => ⟨rfl, hc⟩⟩

/-- The project and the disk, when `run_update_efi` can do its work: the guards let the disk
through, its first slice can be mounted, the new boot files are built, and the time is one without
a backup. -/
structure Ready (S : Setup) (u : Settings) (d : Disk) (w : World) : Prop where
  dev : d.dev = S.disk
  root : u.rootDir = S.rootDir
  real : u.dryRun = false
  whole : isWholeDisk d.dev = true
  bootSlice : u.bootSlice = bootPart d.dev
  installerSlice : u.installerSlice = []
  loader : u.loader = .opencore
  listing : ∀ e ∈ d.listing, '\n' ∉ e.line
  unprotected : ¬ d.Recognized u.protectedVolumes
  fit : ¬ d.Unfit Mac.aspire4310 u.allowInternal
  info : (d.info (bootPart d.dev)).status = 0
  fat : isFatOrEfi (d.info (bootPart d.dev)).lines = true
  shown : ∀ m, w.mountedAt = some m → mountPointOf (said d (.info (bootPart d.dev))) = m
  mountable : ∃ m r, S.mounts m ∧ underVolumes m = true ∧ r.status = 0 ∧ mountPointOf r = m ∧
    (txt "Yes").isPrefixOf (Mac.firstValue (txt "Volume Read-Only") (lines r.out)) = false
  config : w.files (.host (deployRoot u ++ txt "/ESP/EFI/OC/config.plist")) ≠ none
  boot : w.files (.host (bootFile (deployRoot u ++ txt "/ESP"))) ≠ none
  time : ∃ stamp, Fresh S stamp w

/-- What is built is not in the backups. -/
theorem not_inBackups_deployRoot (hroot : u.rootDir = S.rootDir) (y : Text) :
    ¬ S.InBackups (deployRoot u ++ y) := by
  obtain ⟨x, hx⟩ := deployRoot_eq hroot
  rintro ⟨v, hv⟩
  rw [hx, Setup.backupRoot, List.append_assoc, List.append_assoc] at hv
  have hv := List.append_cancel_left hv
  simp [txt] at hv

/-- The replies before the first command that writes are possible, and nothing changes. -/
theorem does_of_quietly {d : Disk} (h : Ready S u d w) (hw : Mounted S w) (hc : Quietly u d c r) :
    Does S l c r w w := by
  cases c with
  | build c => exact ⟨rfl, fun _ _ => rfl⟩
  | look c =>
    refine ⟨rfl, fun m hc' _ hm => ?_⟩
    rw [hc.1, hc', ← h.dev]
    exact h.shown m hm
  | isFile path =>
    obtain ⟨rfl, rfl⟩ := hc
    refine ⟨rfl, fun _ => ?_, fun _ => rfl⟩
    obtain ⟨x, hx⟩ := deployRoot_eq h.root
    have hplace : w.place (deployRoot u ++ txt "/ESP/EFI/OC/config.plist") =
        .host (deployRoot u ++ txt "/ESP/EFI/OC/config.plist") := by
      rw [hx, List.append_assoc, List.cons_append, place_host hw]
    rw [hplace]
    exact h.config
  | readLine => exact rfl
  | _ => exact hc.elim

/-- `run_update_efi`, up to the mounted slice. -/
def mountUpdate (u : Settings) (disk : Text) : Sh Text := do
  prepareUpdateEfi u disk
  guard (Mac.assertSafeTargetDisk u.protectedVolumes u.allowInternal disk)
  assertBootSlice u disk
  confirmEfiUpdate u disk
  mountBootSliceWritable u.bootSlice u.pid

theorem runUpdateEfi_eq {disk : Text} (hreal : u.dryRun = false) :
    runUpdateEfi u disk = mountUpdate u disk >>= fun efiMount =>
      replaceBootFiles u.rootDir disk efiMount (deployRoot u) >>= fun _ =>
        installBootSectors u.ocCacheRoot u.archName disk := by
  simp only [runUpdateEfi, mountUpdate, updateFiles, hreal, bind_assoc]
  rfl

/-- The guards let the disk through, and its first slice is mounted. -/
theorem achieves_mountUpdate {d : Disk} (h : Ready S u d w) (hw : Mounted S w) :
    Achieves (Does S) (mountUpdate u d.dev)
      (fun m _ w' => S.mounts m ∧ underVolumes m = true ∧ w' = ⟨w.files, some m⟩) l w := by
  have hquiet : ∀ l c r, Quietly u d c r → Does S l c r w w := fun l c r => does_of_quietly h hw
  have hboot : u.bootSlice ≠ [] := by
    rw [h.bootSlice]
    simp [bootPart, txt]
  unfold mountUpdate
  rw [achieves_bind]
  have hB := obliging_quietly u d
  -- the checks answer as they should and change nothing
  have hprepare := may_prepareUpdateEfi hB h.whole hboot h.installerSlice h.loader ⟨rfl, rfl⟩
  refine (achieves_of_may hprepare hquiet).imp ?_
  rintro _ l v ⟨-, rfl⟩
  rw [achieves_bind]
  have hguard : May (Quietly u d)
      (guard (Mac.assertSafeTargetDisk u.protectedVolumes u.allowInternal d.dev)) () :=
    may_guard_of hB rfl h.listing h.unprotected h.fit
  refine (achieves_of_may hguard hquiet).imp ?_
  rintro _ l v ⟨-, rfl⟩
  rw [achieves_bind]
  have hassert := may_assertBootSlice hB h.whole h.bootSlice h.info h.fat
  refine (achieves_of_may hassert hquiet).imp ?_
  rintro _ l v ⟨-, rfl⟩
  -- the phrase is typed in
  unfold confirmEfiUpdate confirm
  rw [achieves_bind, achieves_bind, achieves_capture]
  refine ⟨.text (updatePhrase u d.dev), v, rfl, rfl, ?_⟩
  rw [achieves_orDie]
  refine ⟨decide_eq_true rfl, ?_⟩
  obtain ⟨m, r, hm, hv, hr, hmount, hwritable⟩ := h.mountable
  rw [h.bootSlice, h.dev]
  refine (achieves_mountBootSliceWritable (q := said d (.info (bootPart d.dev))) h.info h.shown hm
    hr hmount hwritable).imp ?_
  rintro m' l w ⟨rfl, rfl⟩
  exact ⟨hm, hv, rfl⟩

theorem achieves_runUpdateEfi {d : Disk} (h : Ready S u d w) (hw : Mounted S w) :
    Achieves (Does S) (runUpdateEfi u d.dev) (fun _ _ _ => True) l w := by
  rw [runUpdateEfi_eq h.real, achieves_bind]
  refine (achieves_mountUpdate h hw).imp ?_
  rintro m l _ ⟨hm, hv, rfl⟩
  obtain ⟨_, hx⟩ := deployRoot_eq h.root
  rw [achieves_bind, h.root, h.dev]
  refine (achieves_replaceBootFiles (w := ⟨w.files, some m⟩) hx
    (fun _ => not_inBackups_deployRoot h.root _) h.config h.boot hv rfl hm h.time).imp ?_
  exact fun _ _ _ hw => achieves_installBootSectors hw

/-- A run that is cut off when the old boot tree is gone and the new one is not there. -/
theorem exists_session_gone {d : Disk} (h : Ready S u d w) (hw : Mounted S w) :
    ∃ w', Session (Does S) (runUpdateEfi u d.dev) w w' ∧ ∀ x, w'.efi x = none := by
  have hgone : Achieves (Does S)
      (mountUpdate u d.dev >>= fun m => saveOld S.rootDir S.disk m >>= fun _ => pure m)
      (fun _ _ w' => ∀ x, w'.efi x = none) [] w := by
    rw [achieves_bind]
    refine (achieves_mountUpdate h hw).imp ?_
    rintro m l _ ⟨hm, hv, rfl⟩
    rw [achieves_bind]
    exact (achieves_saveOld (w := ⟨w.files, some m⟩) hv rfl hm h.time).imp fun _ _ _ hb => hb.2
  obtain ⟨_, w', hrun, -, hefi⟩ := hgone.finishes
  refine ⟨w', ?_, hefi⟩
  have hwhole := hrun.session_bind fun m => copyNew m (deployRoot u) >>= fun _ =>
    installBootSectors u.ocCacheRoot u.archName d.dev
  simpa only [runUpdateEfi_eq h.real, replaceBootFiles_eq, bind_assoc, pure_bind, h.root, h.dev]
    using hwhole

/-! ### A project -/

/-- A project in a home directory. -/
def kit : Setup where
  rootDir := updateOptions.rootDir
  disk := stick.dev
  mounts m := m = txt "/Volumes/EFI"
  apart := by
    rintro m rfl
    simp [Apart, updateOptions, txt]

/-- Other boot files are on the disk, and new ones are built. -/
def outdated : World where
  files := fun
    | .stick path =>
      if path = txt "/EFI/OC/config.plist" then some [1]
      else if path = txt "/boot" then some [2] else none
    | .host path =>
      if path = deployRoot updateOptions ++ txt "/ESP/EFI/OC/config.plist" then some [3]
      else if path = bootFile (deployRoot updateOptions ++ txt "/ESP") then some [4] else none
  mountedAt := some (txt "/Volumes/EFI")

theorem mounted_outdated : Mounted kit outdated := fun _ hm => (Option.some.inj hm).symm

theorem fresh_outdated (stamp : Text) : Fresh kit stamp outdated := by
  intro u
  have hin : kit.InBackups (kit.backup stamp ++ '/' :: u) := by
    rw [txt_backup]
    exact ⟨_, by simp; rfl⟩
  have hout : ∀ y, kit.backup stamp ++ '/' :: u ≠ deployRoot updateOptions ++ y := fun y h =>
    not_inBackups_deployRoot rfl y (h ▸ hin)
  have hboot :
      kit.backup stamp ++ '/' :: u ≠ bootFile (deployRoot updateOptions ++ txt "/ESP") := by
    rw [bootFile, List.append_assoc]
    exact hout _
  exact (if_neg (hout _)).trans (if_neg hboot)

theorem ready_outdated : Ready kit updateOptions stick outdated where
  dev := rfl
  root := rfl
  real := rfl
  whole := isWholeDisk_stick
  bootSlice := rfl
  installerSlice := rfl
  loader := rfl
  listing := newline_not_mem_stick
  unprotected := not_recognized_stick
  fit := fit_stick (by simp [Mac.aspire4310, txt])
  info := rfl
  fat := isFatOrEfi_stick _
  shown := by
    intro m hm
    rw [mountPointOf, said, lines_info, firstValue_stick, mounted_outdated m hm]
  mountable := by
    refine ⟨txt "/Volumes/EFI", said stick (.info stick.dev), rfl, ?_, rfl, ?_, ?_⟩
    · simp [underVolumes, txt]
    · rw [mountPointOf, said, lines_info, firstValue_stick]
    · rw [said, lines_info, firstValue_stick_readOnly]
      simp [txt]
  config := by simp [outdated]
  boot := by simp [outdated, bootFile, txt]
  time := ⟨[], fresh_outdated []⟩

theorem finishes_outdated :
    ∃ w', Finishes (Does kit) (runUpdateEfi updateOptions kit.disk) outdated () w' := by
  obtain ⟨_, w', hrun, -⟩ := (achieves_runUpdateEfi ready_outdated mounted_outdated).finishes
  exact ⟨w', hrun⟩

/-! ### Every run, and any number of them -/

/-- **No boot file is lost**: after any number of interrupted runs the boot tree and `boot` that
were there before them are still there, or in a backup as a whole. -/
theorem boot_files_kept (S : Setup) {w w' : World} (hw : Mounted S w)
    (h : Sessions (Does S) (fun p => ∃ u, Careful S u p) w w') :
    (w.efi.Sub w'.efi ∨ ∃ stamp, w.efi.Sub (w'.savedEfi S stamp)) ∧
      (w.boot = w'.boot ∨ ∀ f, w.boot = some f → ∃ stamp, w'.savedBoot S stamp = some f) := by
  have hkept : Kept S w.efi w.boot w' :=
    h.inv (kept_self hw) fun p ⟨_, hp⟩ v hv => ⟨_, hp.ensures hv⟩
  exact ⟨hkept.efi, hkept.boot⟩

/-- A run is cut off when the old boot tree is gone and the new one is not there. -/
theorem boot_files_kept_sample :
    ∃ w' : World, (∀ x, w'.efi x = none) ∧
      (outdated.efi.Sub w'.efi ∨ ∃ stamp, outdated.efi.Sub (w'.savedEfi kit stamp)) ∧
      (outdated.boot = w'.boot ∨
        ∀ f, outdated.boot = some f → ∃ stamp, w'.savedBoot kit stamp = some f) := by
  obtain ⟨w', hrun, hgone⟩ := exists_session_gone ready_outdated mounted_outdated
  have hcareful : Careful kit updateOptions (runUpdateEfi updateOptions kit.disk) := .update rfl
  exact ⟨w', hgone, boot_files_kept kit mounted_outdated
    ((Sessions.refl outdated).tail ⟨_, hcareful⟩ hrun)⟩

/-- **A run that returns has replaced them**: the boot tree is the one that was built, and what was
there before is in backups. -/
theorem update_installs (S : Setup) {u : Settings} {p : Sh Unit} {w w' : World}
    (hp : Careful S u p) (hreal : u.dryRun = false) (hw : Mounted S w)
    (h : Finishes (Does S) p w () w') :
    w'.efi = w'.built (deployRoot u) ∧ (∃ stamp, w.efi.Sub (w'.savedEfi S stamp)) ∧
      ∀ f, w.boot = some f → ∃ stamp, w'.savedBoot S stamp = some f := by
  obtain ⟨_, hpost⟩ := h.post (hp.ensures (kept_self hw))
  obtain ⟨hstored, hnew⟩ := hpost hreal
  exact ⟨hnew, hstored.efi, hstored.boot⟩

theorem update_installs_sample :
    ∃ w' : World, w'.efi = w'.built (deployRoot updateOptions) ∧
      (∃ stamp, outdated.efi.Sub (w'.savedEfi kit stamp)) ∧
      ∀ f, outdated.boot = some f → ∃ stamp, w'.savedBoot kit stamp = some f := by
  obtain ⟨w', hrun⟩ := finishes_outdated
  exact ⟨w', update_installs kit (.update rfl) rfl mounted_outdated hrun⟩

/-- **Nothing stands in the way of another run**: whatever was left behind, a run of
`run_update_efi` can return, with the boot tree that was built. -/
theorem update_recovers (S : Setup) {u : Settings} {d : Disk} {w : World} (h : Ready S u d w)
    (hw : Mounted S w) :
    ∃ w', Finishes (Does S) (runUpdateEfi u S.disk) w () w' ∧ w'.efi = w'.built (deployRoot u) := by
  obtain ⟨_, w', hrun, -⟩ := (achieves_runUpdateEfi h hw).finishes
  rw [h.dev] at hrun
  obtain ⟨_, hpost⟩ := hrun.post (ensures_runUpdateEfi h.root (kept_self hw))
  exact ⟨w', hrun, (hpost h.real).2⟩

theorem update_recovers_sample :
    ∃ w', Finishes (Does kit) (runUpdateEfi updateOptions kit.disk) outdated () w' ∧
      w'.efi = w'.built (deployRoot updateOptions) :=
  update_recovers kit ready_outdated mounted_outdated

end BootFiles

end InstallKit
