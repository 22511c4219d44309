import InstallKit.Usb.LegacyWrites
import InstallKit.Usb.TempMounts

/-!
# What the trap handlers remove

`linux_make_usb_legacy.sh`, `repair_openduet_esp.sh` and `linux_install_openduet.sh` mount the ESP
and the installer volume below their temporary directory, which the trap handler removes
recursively.

* `Cleaner.tidy` : at every boundary of the three scripts, a volume that is mounted read-write is
  mounted once, at a place that the handler tries to unmount.
* `cleanup_harmless_iff` : **the handler removes nothing from a volume exactly when every volume
  that is mounted read-write below the temporary directory at that point is unmounted by the
  handler**; read-only mounts do no harm.
* `cleanup_wipes_esp` : a busy ESP is wiped.
-/

namespace InstallKit

namespace Usb

open Shell

variable {ρ : Loc → Bool} {s t : State} {A : Log → Cmd → Reply → Prop} {α : Type}
  {D : List Loc} {dir : Loc} {l₀ l : Log}

@[simp] theorem assigns_findPartition {Q : (Vars → Vars) → Prop} {number : String}
    {ns : List String} : (findPartition number ns).Assigns Q := by
  induction ns with
  | nil => trivial
  | cons n ns ih =>
    unfold findPartition
    simp [ih]

@[simp] theorem assigns_orFail {Q : (Vars → Vars) → Prop} {o : Option String} :
    (orFail o).Assigns Q := by
  cases o <;> simp [orFail]

@[simp] theorem assigns_selectPartition {Q : (Vars → Vars) → Prop} {disk part number : String} :
    (selectPartition disk part number).Assigns Q := by
  simp [selectPartition, partitionPath]

/-! ### `repair_openduet_esp.sh` -/

namespace RepairEsp

/-- What the handler tries to unmount. -/
def handled (v : Vars) : List (Option Loc) := [v.espMount]

/-- The copy without the two ends. -/
def copyBody (buildRoot : String) (espMount : Loc) : Sh Unit := do
  exec (.rm [.sub espMount "EFI"])
  exec (.mkdir [.sub espMount "EFI"])
  exec (.cp (build buildRoot "ESP/EFI/.") (.sub espMount "EFI/"))
  exec (.cp (build buildRoot "OpenDuet/bootIA32") (.sub espMount "boot"))
  exec .sync

theorem copyEfi_eq (buildRoot espPart : String) (espMount : Loc) :
    copyEfi buildRoot espPart espMount =
      exec (.mount "-t vfat -o rw,noatime" true espPart espMount) >>= fun _ =>
        copyBody buildRoot espMount >>= fun _ => exec (.umount espMount false) := by
  simp only [copyEfi, copyBody, bind_assoc]

theorem makeDirs_spec {b : Bool} (hs : s.errexit = true) (h : Returns A makeDirs s b t) :
    b = true ∧ t.vars.tempDir = true ∧ t.vars.espMount = some (.tmp "esp") := by
  simp only [makeDirs, Script.cmd_bind, Script.setVar_bind, returns_call, returns_assign] at h
  obtain ⟨r, -, hr, h⟩ := h
  have hok : r.ok = true := by simpa [stops, hs, Reply.ok] using hr
  obtain ⟨_, t₁, h₁, h⟩ := returns_bind.1 h
  obtain ⟨rfl, rfl⟩ := returns_ret.1 h
  have hvars := vars_of_returns (by simp) h₁
  rw [hvars, hok]
  exact ⟨rfl, rfl, rfl⟩

/-- What `repair` does between the temporary directory and the copy. -/
def readyEsp (a : Args) (espPart : String) : Sh Unit := do
  unmountDisk a.disk
  settle a.disk
  waitForBlock espPart (espPart ++ " did not reappear after settling")
  reformat a espPart
  requireFat espPart fun fstype =>
    espPart ++ " is not a readable FAT filesystem (" ++ fstype ++ "); rerun with --reformat-esp"

/-- What `repair` does after the copy. -/
def writeSectors (a : Args) (buildRoot espPart : String) (tempDir : Bool) : Sh ℕ := do
  captureSector buildRoot espPart tempDir
  exec (boot0Write a buildRoot)
  afterBoot0 a espPart tempDir

theorem repair_eq (a : Args) (buildRoot espPart : String) :
    repair a buildRoot espPart = (do
      let tempDir ← makeDirs
      readyEsp a espPart
      copyEfi buildRoot espPart (tempPath tempDir "esp")
      writeSectors a buildRoot espPart tempDir) := by
  simp only [repair, readyEsp, writeSectors, bind_assoc]

theorem calls_readyEsp (a : Args) (espPart : String) :
    (readyEsp a espPart).Calls fun c => c.calm D := by
  simp [readyEsp, unmountDisk, settle, waitForBlock, calls_waitLoop, reformat, requireFat,
    Cmd.calm]

theorem assigns_waitLoop {Q : (Vars → Vars) → Prop} (path : String) (n : ℕ) :
    (waitLoop path n).Assigns Q := by
  induction n with
  | zero => trivial
  | succ n ih => simp [waitLoop, ih]

theorem assigns_readyEsp {Q : (Vars → Vars) → Prop} (a : Args) (espPart : String) :
    (readyEsp a espPart).Assigns Q := by
  simp [readyEsp, unmountDisk, settle, waitForBlock, assigns_waitLoop, reformat, requireFat]

/-- After the copy, only a read-only mount is made. -/
theorem calls_writeSectors (a : Args) (buildRoot espPart : String) (tempDir : Bool) :
    (writeSectors a buildRoot espPart tempDir).Calls fun c => c.calm [] := by
  simp [writeSectors, captureSector, boot0Write, afterBoot0, waitForBlock, calls_waitLoop, settle,
    requireFat, pbrWrite, verify, Cmd.calm]

theorem tidy_repair (a : Args) (buildRoot espPart : String) (hs : s.errexit = true)
    (hfree : Free [.tmp "esp"] s.log) :
    Always A (fun s => Tidy handled s.vars s.log) (repair a buildRoot espPart) s := by
  rw [repair_eq]
  refine tidy_bind_calm (by simp [makeDirs, Cmd.calm]) hfree fun tempDir t₁ h₁ hf₁ => ?_
  obtain ⟨rfl, htemp, hesp⟩ := makeDirs_spec hs h₁
  refine tidy_bind_calm (calls_readyEsp a espPart) hf₁ fun _ t₂ h₂ hf₂ => ?_
  have hvars := vars_of_returns (assigns_readyEsp a espPart) h₂
  have herr : t₂.errexit = true := h₂.errexit.trans (h₁.errexit.trans hs)
  rw [tempPath, if_pos rfl, copyEfi_eq]
  refine tidy_use herr hf₂ (List.mem_singleton_self _) ?_ ?_ ?_ ?_
    (calls_writeSectors a buildRoot espPart true)
  · simp [copyBody, Cmd.stillBut]
  · simp [copyBody]
  · rw [hvars, htemp]
  · rw [hvars, handled, hesp]
    exact List.mem_singleton_self _

theorem tidy_main (a : Args) :
    Always A (fun s => Tidy handled s.vars s.log) (main a) State.init := by
  refine tidy_bind_calm (D := [.tmp "esp"]) (calls_guardSection calm_query) free_nil
    fun buildRoot t₁ h₁ hf₁ => ?_
  refine tidy_bind_calm (calls_selectEsp calm_query) hf₁ fun espPart t₂ h₂ hf₂ => ?_
  refine tidy_bind_calm (by simp [requireArtifacts, Cmd.calm]) hf₂ fun _ t₃ h₃ hf₃ => ?_
  exact tidy_repair a buildRoot espPart (h₃.errexit.trans (h₂.errexit.trans h₁.errexit)) hf₃

end RepairEsp

/-! ### `linux_install_openduet.sh` -/

namespace InstallOpenduet

/-- What the handler tries to unmount. -/
def handled (v : Vars) : List (Option Loc) := [v.espMount]

/-- What the installer does between the temporary directory and the mount. -/
def writeSectors (a : Args) (buildRoot backupDir : String) (tempDir : Bool) : Sh Unit := do
  unmountEsp a.espPart
  checkFat a (.sub (.host backupDir)) backupDir
  captureSectors a buildRoot (.sub (.host backupDir)) tempDir
  exec (boot0Write a buildRoot)
  settleAndWait a (a.espPart ++ " did not return after MBR update; backups are in " ++ backupDir)
  unmountEsp a.espPart
  exec (pbrWrite a tempDir)
  settleAndWait a (a.espPart ++ " disappeared after PBR write; backups are in " ++ backupDir)

/-- What is done with the mounted ESP. -/
def copyBoot (buildRoot : String) (bootFile mountDir : Loc) : Sh Unit := do
  exec (.cp bootFile (.sub mountDir "boot"))
  exec .sync
  require (.test .f (.sub mountDir "boot")) "Missing /boot after copy"
  requireStaged (build buildRoot "ESP/EFI/OC/config.plist") (.sub mountDir "EFI/OC/config.plist")
    "Existing EFI tree is missing EFI/OC/config.plist"
  requireStaged (build buildRoot "ESP/Kernels/kernel") (.sub mountDir "Kernels/kernel")
    "Existing ESP is missing Kernels/kernel"

theorem install_eq (a : Args) (buildRoot : String) (bootFile : Loc) :
    install a buildRoot bootFile = (do
      let (tempDir, backupDir) ← makeDirs a
      writeSectors a buildRoot backupDir tempDir
      (exec (.mount "-t vfat -o rw,noatime" true a.espPart (tempPath tempDir "esp")) >>= fun _ =>
        copyBoot buildRoot bootFile (tempPath tempDir "esp") >>= fun _ =>
        exec (.umount (tempPath tempDir "esp") false))
      Script.setVar fun v => { v with espMount := none }
      return 0) := by
  simp only [install, writeSectors, copyBoot, afterBoot0, verifyBoot, bind_assoc]

theorem makeDirs_spec {a : Args} {b : Bool × String} (hs : s.errexit = true)
    (h : Returns A (makeDirs a) s b t) :
    b.1 = true ∧ t.vars.tempDir = true ∧ t.vars.espMount = some (.tmp "esp") := by
  simp only [makeDirs, Script.cmd_bind, Script.setVar_bind, returns_call, returns_assign] at h
  obtain ⟨r, -, hr, h⟩ := h
  have hok : r.ok = true := by simpa [stops, hs, Reply.ok] using hr
  have hvars := vars_of_returns (by simp) h
  have hgives := h.gives
  simp only [Script.gives_bind, Script.pure_eq] at hgives
  obtain ⟨_, -, _, -, _, -, _, -, rfl⟩ := hgives
  rw [hvars, hok]
  exact ⟨rfl, rfl, rfl⟩

theorem calls_writeSectors (a : Args) (buildRoot backupDir : String) (tempDir : Bool) :
    (writeSectors a buildRoot backupDir tempDir).Calls fun c => c.calm D := by
  simp [writeSectors, unmountEsp, checkFat, probeFstype, fat32SectorValid, recoverSector,
    captureSectors, boot0Write, settleAndWait, waitForPartition, calls_waitLoop, pbrWrite, Cmd.calm]

theorem assigns_waitLoop {Q : (Vars → Vars) → Prop} (espPart : String) (settle : Bool) (n : ℕ) :
    (waitLoop espPart settle n).Assigns Q := by
  induction n with
  | zero => trivial
  | succ n ih => cases settle <;> simp [waitLoop, ih]

theorem assigns_writeSectors {Q : (Vars → Vars) → Prop} (a : Args) (buildRoot backupDir : String)
    (tempDir : Bool) : (writeSectors a buildRoot backupDir tempDir).Assigns Q := by
  simp [writeSectors, unmountEsp, checkFat, probeFstype, fat32SectorValid, recoverSector,
    captureSectors, settleAndWait, waitForPartition, assigns_waitLoop]

theorem tidy_main (a : Args) :
    Always A (fun s => Tidy handled s.vars s.log) (main a) State.init := by
  refine tidy_bind_calm (D := [.tmp "esp"]) (calls_preflight a calm_query) free_nil
    fun b t₁ h₁ hf₁ => ?_
  obtain ⟨buildRoot, bootFile⟩ := b
  simp only [install_eq]
  refine tidy_bind_calm (by simp [makeDirs, Cmd.calm]) hf₁ fun b t₂ h₂ hf₂ => ?_
  obtain ⟨tempDir, backupDir⟩ := b
  obtain ⟨rfl, htemp, hesp⟩ := makeDirs_spec h₁.errexit h₂
  refine tidy_bind_calm (calls_writeSectors a buildRoot backupDir true) hf₂ fun _ t₃ h₃ hf₃ => ?_
  have hvars := vars_of_returns (assigns_writeSectors a buildRoot backupDir true) h₃
  have herr : t₃.errexit = true := h₃.errexit.trans (h₂.errexit.trans h₁.errexit)
  rw [tempPath, if_pos rfl]
  refine tidy_use herr hf₃ (List.mem_singleton_self _) ?_ ?_ ?_ ?_ (by simp)
  · simp [copyBoot, Cmd.stillBut]
  · simp [copyBoot]
  · rw [hvars, htemp]
  · rw [hvars, handled, hesp]
    exact List.mem_singleton_self _

end InstallOpenduet

/-! ### `linux_make_usb_legacy.sh` -/

namespace MakeUsb

/-- What the handler tries to unmount. -/
def handled (v : Vars) : List (Option Loc) := [v.espMount, v.installerMount, v.sourceMount]

/-- The places where the two volumes are mounted. -/
def volumes : List Loc := [.tmp "esp", .tmp "installer"]

/-- The handler knows the temporary directory and the place of the installer volume. -/
def Good (v : Vars) : Prop := v.tempDir = true ∧ v.installerMount = some (.tmp "installer")

theorem good_of_returns {p : Sh α} {a : α} (hp : p.Assigns fun f => ∀ v, Good v → Good (f v))
    (hs : Good s.vars) (h : Returns A p s a t) : Good t.vars :=
  (always_of_nodes (A := A) (J := fun v _ => Good v) p.calls_true hp
    (fun _ _ _ _ _ _ hl => hl) (fun v _ _ hf hl => hf v hl) hs).returns h

theorem tmpMounts_umount_free {quiet : Bool} {r : Reply} (hfree : Free D l₀) (hv : dir ∈ D)
    (h : tmpMounts l = tmpMounts l₀) :
    tmpMounts ((.umount dir quiet, r) :: l) = tmpMounts l₀ := by
  rw [tmpMounts_umount, h, eraseP_of_free hfree hv, ite_self]

theorem unchecked_mountHfsRw (part : String) : (mountHfsRw part true).unchecked =
    .call (.umount (.tmp "installer") true) false fun _ =>
      .call (.mount "-t hfsplus -o rw,force,noatime" true part (.tmp "installer")) false fun r =>
        if r.ok = true then .ret ()
        else .call (.mount "-t hfsplus -o rw,noatime" true part (.tmp "installer")) false
          fun _ => .ret () := by
  simp only [mountHfsRw, tryCmd, exec, installerMount, tempPath, if_true, Script.attempt_bind,
    Script.cmd_bind, Script.call_bind, Script.pure_eq, Script.ret_bind, Script.unchecked_call]
  congr 1
  funext r
  congr 1
  funext r'
  split <;> rfl

theorem held_mountHfsRw {part : String} (hfree : Free volumes s.log) :
    Always A (fun t => t.vars = s.vars ∧ Held (.tmp "installer") s.log t.log)
      (mountHfsRw part true).unchecked s := by
  have hv : Loc.tmp "installer" ∈ volumes := by simp [volumes]
  have hbase : ∀ r, tmpMounts ((s.push (.umount (.tmp "installer") true) r).log) =
      tmpMounts s.log := fun r => tmpMounts_umount_free hfree hv rfl
  rw [unchecked_mountHfsRw]
  refine always_attempt ⟨rfl, Or.inl rfl⟩ fun r _ => ?_
  refine always_attempt ⟨rfl, Or.inl (hbase r)⟩ fun r' _ => ?_
  by_cases hr : r'.ok = true
  · rw [if_pos hr]
    exact always_ret ⟨rfl, held_mount (hbase r)⟩
  · -- the first attempt has mounted nothing, so the second one is made on the same table
    have hbase' : tmpMounts (((s.push (.umount (.tmp "installer") true) r).push
        (.mount "-t hfsplus -o rw,force,noatime" true part (.tmp "installer")) r').log) =
        tmpMounts s.log := by
      rw [St.push_log, tmpMounts_mount, if_neg fun h => hr h.1, hbase]
    rw [if_neg hr]
    exact always_attempt ⟨rfl, Or.inl hbase'⟩ fun r'' _ => always_ret ⟨rfl, held_mount hbase'⟩

/-- The installer volume is mounted and used. -/
theorem held_useInstaller (part : String) {body : Sh Unit} (hfree : Free volumes s.log)
    (hbody : body.Calls fun c => c.stillBut (.tmp "installer"))
    (hq : body.Assigns fun _ => False) :
    Always A (fun t => t.vars = s.vars ∧ Held (.tmp "installer") s.log t.log)
      (mountHfsRw part true >>= fun _ => body).unchecked s := by
  have hv : Loc.tmp "installer" ∈ volumes := by simp [volumes]
  rw [Script.unchecked_bind]
  refine (held_mountHfsRw hfree).bind fun _ t ht => ?_
  obtain ⟨hvars, hheld⟩ := (held_mountHfsRw hfree).returns ht
  refine (always_held hfree hv (by simpa using hbody) (by simpa using hq) hheld).mono fun t' h => ?_
  exact ⟨h.1.trans hvars, h.2⟩

theorem tidy_of_held (hfree : Free volumes l₀) (hg : Good s.vars) (hvars : t.vars = s.vars)
    (h : Held (.tmp "installer") l₀ t.log) : Tidy handled t.vars t.log := by
  rw [hvars]
  exact h.tidy hfree (by simp [volumes]) hg.1 (by simp [handled, hg.2])

/-- The clone itself mounts nothing. -/
def clone (src : Source) (installerPart : String) : Sh Unit := do
  releaseSource src
  exec (cloneWrite src installerPart)
  exec .sync
  checkClone installerPart

/-- What is done with the mounted clone. -/
def patchClone (a : Args) : Sh Unit := do
  orDie (← sourceHasInstallerMarkers (.tmp "installer"))
    "Block-cloned volume does not expose installer markers"
  installAmdKernel a.amdKernel a.expectedKernelVersion true

theorem cloneAndPatch_eq (a : Args) (src : Source) (installerPart : String) :
    cloneAndPatch a src installerPart true = (do
      clone src installerPart
      mountHfsRw installerPart true >>= fun _ => patchClone a
      return .status (← Script.cmd (.umount (.tmp "installer") false)).status) := by
  simp only [cloneAndPatch, clone, patchClone, installerMount, tempPath, if_true, bind_assoc]

theorem calls_patchClone (a : Args) :
    (patchClone a).Calls fun c => c.stillBut (.tmp "installer") := by
  simp [patchClone, sourceHasInstallerMarkers, installAmdKernel, backupKernel, kernelVersionOk,
    Cmd.stillBut]

theorem assigns_patchClone {Q : (Vars → Vars) → Prop} (a : Args) : (patchClone a).Assigns Q := by
  simp [patchClone, sourceHasInstallerMarkers, installAmdKernel, backupKernel, kernelVersionOk]

theorem tidy_cloneAndPatch (a : Args) (src : Source) (part : String)
    (hfree : Free volumes s.log) (hg : Good s.vars) :
    Always A (fun t => Tidy handled t.vars t.log)
      (cloneAndPatch a src part true).unchecked s := by
  rw [cloneAndPatch_eq, Script.unchecked_bind]
  have hclone : (clone src part).unchecked.Calls fun c => c.calm volumes := by
    simp [clone, releaseSource, checkClone, cloneWrite, Cmd.calm]
  refine tidy_bind_calm hclone hfree fun _ t₁ h₁ hf₁ => ?_
  have hvars₁ : t₁.vars = s.vars :=
    vars_of_returns (by simp [clone, releaseSource, checkClone]) h₁
  have hg₁ : Good t₁.vars := hvars₁ ▸ hg
  rw [Script.unchecked_bind]
  have hheld := held_useInstaller (A := A) part hf₁ (calls_patchClone a) (assigns_patchClone a)
  refine (hheld.mono fun t h => tidy_of_held hf₁ hg₁ h.1 h.2).bind fun _ t₂ h₂ => ?_
  obtain ⟨hvars₂, hheld₂⟩ := hheld.returns h₂
  refine (always_held hf₁ (by simp [volumes]) (by simp [Cmd.stillBut]) (by simp) hheld₂).mono
    fun t h => tidy_of_held hf₁ hg₁ (h.1.trans hvars₂) h.2

/-- A status of `0` is that of a successful `umount`. -/
theorem free_cloneAndPatch {a : Args} {src : Source} {part : String} (hfree : Free volumes s.log)
    (h : Returns A (cloneAndPatch a src part true).unchecked s (.status 0) t) :
    t.vars = s.vars ∧ Free volumes t.log := by
  rw [cloneAndPatch_eq, Script.unchecked_bind] at h
  obtain ⟨_, t₁, h₁, h⟩ := returns_bind.1 h
  have hf₁ : Free volumes t₁.log :=
    free_of_returns (by simp [clone, releaseSource, checkClone, cloneWrite, Cmd.calm]) hfree h₁
  have hvars₁ : t₁.vars = s.vars :=
    vars_of_returns (by simp [clone, releaseSource, checkClone]) h₁
  rw [Script.unchecked_bind] at h
  obtain ⟨_, t₂, h₂, h⟩ := returns_bind.1 h
  obtain ⟨hvars₂, hheld⟩ :=
    (held_useInstaller (A := A) part hf₁ (calls_patchClone a) (assigns_patchClone a)).returns h₂
  simp only [Script.cmd_bind, Script.pure_eq, Script.unchecked_call, Script.unchecked_ret,
    returns_call, returns_ret, BlockResult.status.injEq] at h
  obtain ⟨r, -, -, hr, rfl⟩ := h
  exact ⟨hvars₂.trans hvars₁,
    hf₁.of_eq (hheld.umount hf₁ (by simp [volumes]) (Reply.ok_iff.2 hr.symm))⟩

/-- What is done with the mounted volume when files are copied. -/
def copyFiles (a : Args) (src : Source) : Sh Unit := do
  exec (.rsync src.mount (.tmp "installer"))
  orDie (← sourceHasInstallerMarkers (.tmp "installer"))
    "Copied volume does not expose installer markers"
  installAmdKernel a.amdKernel a.expectedKernelVersion true

theorem restoreFiles_eq (a : Args) (src : Source) (installerPart : String) :
    restoreFiles a src installerPart true = (do
      exec (.mkfs .hfsplus installerPart)
      mountHfsRw installerPart true >>= fun _ => copyFiles a src
      exec (.umount (.tmp "installer") false)) := by
  simp only [restoreFiles, copyFiles, installerMount, tempPath, if_true, bind_assoc]

theorem calls_copyFiles (a : Args) (src : Source) :
    (copyFiles a src).Calls fun c => c.stillBut (.tmp "installer") := by
  simp [copyFiles, sourceHasInstallerMarkers, installAmdKernel, backupKernel, kernelVersionOk,
    Cmd.stillBut]

theorem assigns_copyFiles {Q : (Vars → Vars) → Prop} (a : Args) (src : Source) :
    (copyFiles a src).Assigns Q := by
  simp [copyFiles, sourceHasInstallerMarkers, installAmdKernel, backupKernel, kernelVersionOk]

theorem tidy_restoreFiles (a : Args) (src : Source) (part : String)
    (hfree : Free volumes s.log) (hg : Good s.vars) :
    Always A (fun t => Tidy handled t.vars t.log) (restoreFiles a src part true) s := by
  rw [restoreFiles_eq]
  refine tidy_bind_calm (by simp [Cmd.calm]) hfree fun _ t₁ h₁ hf₁ => ?_
  have hvars₁ : t₁.vars = s.vars := vars_of_returns (by simp) h₁
  have hg₁ : Good t₁.vars := hvars₁ ▸ hg
  have hheld := (held_useInstaller (A := A) part hf₁ (calls_copyFiles a src)
    (assigns_copyFiles a src)).of_unchecked
  refine (hheld.mono fun t h => tidy_of_held hf₁ hg₁ h.1 h.2).bind fun _ t₂ h₂ => ?_
  obtain ⟨hvars₂, hheld₂⟩ := hheld.returns h₂
  refine (always_held hf₁ (by simp [volumes]) (by simp [Cmd.stillBut]) (by simp) hheld₂).mono
    fun t h => tidy_of_held hf₁ hg₁ (h.1.trans hvars₂) h.2

theorem free_restoreFiles {a : Args} {src : Source} {part : String} {u : Unit}
    (hs : s.errexit = true) (hfree : Free volumes s.log)
    (h : Returns A (restoreFiles a src part true) s u t) :
    t.vars = s.vars ∧ Free volumes t.log := by
  rw [restoreFiles_eq] at h
  obtain ⟨_, t₁, h₁, h⟩ := returns_bind.1 h
  obtain ⟨_, t₂, h₂, h⟩ := returns_bind.1 h
  have hf₁ : Free volumes t₁.log := free_of_returns (by simp [Cmd.calm]) hfree h₁
  have hvars₁ : t₁.vars = s.vars := vars_of_returns (by simp) h₁
  obtain ⟨hvars₂, hheld⟩ := (held_useInstaller (A := A) part hf₁ (calls_copyFiles a src)
    (assigns_copyFiles a src)).of_unchecked.returns h₂
  obtain ⟨r, -, hr, rfl⟩ := (returns_exec (h₂.errexit.trans (h₁.errexit.trans hs))).1 h
  exact ⟨hvars₂.trans hvars₁, hf₁.of_eq (hheld.umount hf₁ (by simp [volumes]) hr)⟩

theorem tidy_restoreBlock (a : Args) (src : Source) (part : String)
    (hfree : Free volumes s.log) (hg : Good s.vars) :
    Always A (fun t => Tidy handled t.vars t.log)
      (restoreBlock a src part true).unchecked s := by
  simp only [restoreBlock, Script.unchecked_bind]
  refine tidy_bind_calm (by simp [Cmd.calm]) hfree fun r t₁ h₁ hf₁ => ?_
  refine tidy_bind_calm (by simp [Cmd.calm]) hf₁ fun r' t₂ h₂ hf₂ => ?_
  have hvars : t₂.vars = s.vars :=
    (vars_of_returns (by simp) h₂).trans (vars_of_returns (by simp) h₁)
  split
  · split
    · exact always_of_calm (by simp) hf₂
    · exact always_of_calm (by simp [die]) hf₂
  · exact tidy_cloneAndPatch a src part hf₂ (hvars ▸ hg)

/-- `restore_block` falls back before it has mounted anything, and a status of `0` means that the
volume has been unmounted. -/
theorem free_restoreBlock {a : Args} {src : Source} {part : String} {x : BlockResult}
    (hfree : Free volumes s.log) (hx : x = .fallback ∨ x = .status 0)
    (h : Returns A (restoreBlock a src part true).unchecked s x t) :
    t.vars = s.vars ∧ Free volumes t.log := by
  simp only [restoreBlock, Script.unchecked_bind] at h
  obtain ⟨r, t₁, h₁, h⟩ := returns_bind.1 h
  obtain ⟨r', t₂, h₂, h⟩ := returns_bind.1 h
  have hf₂ : Free volumes t₂.log := free_of_returns (by simp [Cmd.calm])
    (free_of_returns (by simp [Cmd.calm]) hfree h₁) h₂
  have hvars : t₂.vars = s.vars :=
    (vars_of_returns (by simp) h₂).trans (vars_of_returns (by simp) h₁)
  split at h
  · split at h
    · obtain ⟨-, rfl⟩ := returns_ret.1 h
      exact ⟨hvars, hf₂⟩
    · exact (returns_exit h).elim
  · rcases hx with rfl | rfl
    · have hgives := h.gives
      simp [cloneAndPatch_eq, Script.gives_bind, Script.Gives] at hgives
    · obtain ⟨hv, hf⟩ := free_cloneAndPatch hf₂ h
      exact ⟨hv.trans hvars, hf⟩

theorem tidy_restore (a : Args) (src : Source) (part : String) (hfree : Free volumes s.log)
    (hg : Good s.vars) :
    Always A (fun t => Tidy handled t.vars t.log) (restore a src part true) s := by
  unfold restore
  split
  · refine (tidy_restoreBlock a src part hfree hg).bind fun x t ht => ?_
    cases x with
    | fallback =>
      obtain ⟨hv, hf⟩ := free_restoreBlock hfree (Or.inl rfl) ht
      exact tidy_restoreFiles a src part hf (hv ▸ hg)
    | status n =>
      have htidy := (tidy_restoreBlock a src part hfree hg).returns ht
      cases n with
      | zero => exact always_ret htidy
      | succ n => exact always_iff_wp.2 ⟨htidy, trivial⟩
  · exact tidy_restoreFiles a src part hfree hg

theorem free_restore {a : Args} {src : Source} {part : String} {u : Unit}
    (hs : s.errexit = true) (hfree : Free volumes s.log)
    (h : Returns A (restore a src part true) s u t) :
    t.vars = s.vars ∧ Free volumes t.log := by
  unfold restore at h
  split at h
  · obtain ⟨x, t₁, h₁, h⟩ := returns_bind.1 h
    cases x with
    | fallback =>
      obtain ⟨hv, hf⟩ := free_restoreBlock hfree (Or.inl rfl) h₁
      obtain ⟨hv', hf'⟩ := free_restoreFiles (h₁.errexit.trans hs) hf h
      exact ⟨hv'.trans hv, hf'⟩
    | status n =>
      cases n with
      | zero =>
        obtain ⟨-, rfl⟩ := returns_ret.1 h
        exact free_restoreBlock hfree (Or.inr rfl) h₁
      | succ n => exact (returns_exit h).elim
  · exact free_restoreFiles hs hfree h

/-- What is done with the mounted ESP. -/
def copyBody (disk buildRoot : String) : Sh Unit := do
  let pwd := (← ask .pwd).text
  let date := (← ask .date).text
  backupEsp (.tmp "esp") (.host (pwd ++ "/backup/linux-efi-" ++ date ++ "-" ++ basename disk))
  replaceEfi buildRoot (.tmp "esp")
  checkCopy buildRoot (.tmp "esp")
  exec .sync

theorem copyEfiTree_eq (disk buildRoot part : String) :
    copyEfiTree disk buildRoot part true = (do
      Script.setVar fun v => { v with espMount := some (.tmp "esp") }
      exec (.mkdir [.tmp "esp"])
      exec (.mount "-t vfat -o rw,noatime" true part (.tmp "esp")) >>= fun _ =>
        copyBody disk buildRoot >>= fun _ => exec (.umount (.tmp "esp") false)) := by
  simp only [copyEfiTree, mountEsp, copyBody, tempPath, if_true, bind_assoc]

theorem tidy_copyEfiTree {f : Unit → Sh α} (disk buildRoot part : String) (hs : s.errexit = true)
    (hfree : Free volumes s.log) (htemp : s.vars.tempDir = true)
    (hf : (f ()).Calls fun c => c.calm []) :
    Always A (fun t => Tidy handled t.vars t.log)
      (copyEfiTree disk buildRoot part true >>= f) s := by
  rw [copyEfiTree_eq, bind_assoc]
  refine tidy_bind_calm (by simp) hfree fun _ t₁ h₁ hf₁ => ?_
  rw [bind_assoc]
  refine tidy_bind_calm (by simp [Cmd.calm]) hf₁ fun _ t₂ h₂ hf₂ => ?_
  have hvars : t₂.vars = { s.vars with espMount := some (.tmp "esp") } := by
    rw [vars_of_returns (by simp) h₂]
    simp only [Script.setVar, returns_assign, returns_ret] at h₁
    rw [h₁.2]
    rfl
  refine tidy_use (h₂.errexit.trans (h₁.errexit.trans hs)) hf₂ (by simp [volumes]) ?_ ?_ ?_ ?_ hf
  · simp [copyBody, backupEsp, hasEfiFiles, backupIf, replaceEfi, checkCopy, Cmd.stillBut]
  · simp [copyBody, backupEsp, hasEfiFiles, backupIf, replaceEfi, checkCopy]
  · rw [hvars]; exact htemp
  · rw [hvars]; simp [handled]

theorem calls_entry_calm (a : Args) : (entry a).Calls fun c => c.calm volumes := by
  simp [entry, requireLinux, calls_guardSection, prepare, assertBuildRoot, selectBootTool,
    prepareTemp, makeTempDir, Cmd.calm]

theorem good_prepareTemp {b : Bool} (hs : s.errexit = true)
    (h : Returns A (prepareTemp false) s b t) : b = true ∧ Good t.vars := by
  obtain ⟨td, t₁, h₁, h⟩ := returns_bind.1 h
  simp only [makeTempDir, Script.cmd_bind, Script.setVar_bind, Script.pure_eq, returns_call,
    returns_assign, returns_ret, Bool.false_eq_true, if_false] at h₁
  obtain ⟨r, -, hr, rfl, rfl⟩ := h₁
  have hok : r.ok = true := by simpa [stops, hs, Reply.ok] using hr
  simp only [Script.setVar_bind, returns_assign] at h
  obtain ⟨_, t₂, h₂, h⟩ := returns_bind.1 h
  obtain ⟨rfl, rfl⟩ := returns_ret.1 h
  have hvars := vars_of_returns (by simp) h₂
  rw [Good, hvars, hok]
  exact ⟨rfl, rfl, rfl⟩

theorem good_entry {a : Args} {v : String × Loc × Bool}
    (h : Returns A (entry a) State.init v t) : v.2.2 = true ∧ Good t.vars := by
  obtain ⟨_, t₁, h₁, h⟩ := returns_bind.1 h
  obtain ⟨_, t₂, h₂, h⟩ := returns_bind.1 h
  obtain ⟨_, t₃, h₃, h⟩ := returns_bind.1 h
  obtain ⟨b, t₄, h₄, h⟩ := returns_bind.1 h
  obtain ⟨td, t₅, h₅, h⟩ := returns_bind.1 h
  have herr : t₄.errexit = true :=
    h₄.errexit.trans (h₃.errexit.trans (h₂.errexit.trans h₁.errexit))
  obtain ⟨rfl, rfl⟩ := returns_ret.1 h
  exact good_prepareTemp herr h₅

theorem calls_preflight_calm (a : Args) : (preflight a true).Calls fun c => c.calm volumes := by
  have hrest : ∀ src mode, (requireRestore src mode).Calls fun c => c.calm volumes := by
    intro src mode
    cases mode <;> simp [requireRestore, Cmd.calm]
  simp only [preflight, Script.calls_bind, hrest, true_and]
  simp [requireInputs, requireCommands, prepareSourceImage, prepareTemp, makeTempDir,
    sourceHasInstallerMarkers, convertImage, calls_findInstallerVolume, printSourceReport,
    confirmErase, confirmExact, tempPath, volumes, Cmd.calm]

theorem assigns_findCandidate {Q : (Vars → Vars) → Prop} {mount : Loc} {want : String → Bool}
    {lines : List String} : (findCandidate mount want lines).Assigns Q := by
  induction lines with
  | nil => trivial
  | cons line lines ih =>
    unfold findCandidate
    dsimp only
    split
    · exact ih
    · split
      · exact ih
      · refine Script.assigns_bind.2 ⟨?_, fun o _ => ?_⟩
        · simp [trySourceCandidate, sourceHasInstallerMarkers]
        cases o with
        | none => exact ih
        | some src => trivial

theorem assigns_findInstallerVolume {Q : (Vars → Vars) → Prop} {source loop : String}
    {mount : Loc} : (findInstallerVolume source loop mount).Assigns Q := by
  have horElse : ∀ (o : Option Source) (p : Sh Source), p.Assigns Q → (orElse o p).Assigns Q := by
    intro o p hp
    cases o with
    | none => exact hp
    | some src => trivial
  simp only [findInstallerVolume, Script.assigns_bind, assigns_ask, assigns_findCandidate, true_and]
  intro r _ o _
  refine horElse _ _ ?_
  simp only [Script.assigns_bind, assigns_ask, assigns_findCandidate, true_and]
  exact fun r _ o _ => horElse _ _ trivial

theorem assigns_preflight (a : Args) :
    (preflight a true).Assigns fun f => ∀ v, Good v → Good (f v) := by
  have hrest : ∀ src mode, (requireRestore src mode).Assigns fun f => ∀ v, Good v → Good (f v) := by
    intro src mode
    cases mode <;> simp [requireRestore]
  simp only [preflight, Script.assigns_bind, hrest, true_and]
  simp +contextual [requireInputs, requireCommands, prepareSourceImage, prepareTemp, makeTempDir,
    sourceHasInstallerMarkers, convertImage, assigns_findInstallerVolume, printSourceReport,
    confirmErase, confirmExact, tempPath, Good]

theorem gives_prepareSourceImage {source : String} {x : Bool × Source}
    (h : (prepareSourceImage source true).Gives x) : x.1 = true := by
  simp only [prepareSourceImage, Script.gives_bind] at h
  obtain ⟨_, -, td, htd, _, -, h⟩ := h
  obtain rfl : td = true := by
    simp only [prepareTemp, makeTempDir, Script.gives_bind, if_true] at htd
    obtain ⟨_, rfl, _, -, _, -, _, -, rfl⟩ := htd
    rfl
  split at h
  · simp only [Script.gives_bind] at h
    obtain ⟨_, -, _, -, _, -, _, -, rfl⟩ := h
    rfl
  · simp only [Script.gives_bind] at h
    obtain ⟨_, -, _, -, _, -, _, -, _, -, _, -, rfl⟩ := h
    rfl

theorem good_preflight {a : Args} {x : Bool × Source} (hg : Good s.vars)
    (h : Returns A (preflight a true) s x t) : x.1 = true ∧ Good t.vars := by
  refine ⟨?_, good_of_returns (assigns_preflight a) hg h⟩
  have hgives := h.gives
  simp only [preflight, Script.gives_bind] at hgives
  obtain ⟨_, -, y, hy, _, -, _, -, _, -, rfl⟩ := hgives
  exact gives_prepareSourceImage hy

theorem calls_verifyTarget_calm {a : Args} {buildRoot e i : String} {tempDir : Bool} :
    (verifyTarget a buildRoot e i tempDir).Calls fun c => c.calm [] := by
  simp [verifyTarget, partitionExists, prepareTemp, makeTempDir, verifyEsp, verifyInstaller,
    kernelVersionOk, Cmd.calm]

/-- Nothing is mounted read-write, and the handler's variables are set. -/
structure Steady (s : State) : Prop where
  errexit : s.errexit = true
  free : Free volumes s.log
  good : Good s.vars

theorem tidy_bind_steady {β : Type} {p : Sh β} {f : β → Sh α}
    (hp : p.Calls fun c => c.calm volumes) (hq : p.Assigns fun f => ∀ v, Good v → Good (f v))
    (hs : Steady s)
    (hf : ∀ b t, Returns A p s b t → Steady t →
      Always A (fun t => Tidy handled t.vars t.log) (f b) t) :
    Always A (fun t => Tidy handled t.vars t.log) (p >>= f) s :=
  tidy_bind_calm hp hs.free fun b t ht hfree =>
    hf b t ht ⟨ht.errexit.trans hs.errexit, hfree, good_of_returns hq hs.good ht⟩

theorem tidy_entry {a : Args} {f : String × Loc × Bool → Sh α}
    (hf : ∀ buildRoot bootTool t, Steady t →
      Always A (fun t => Tidy handled t.vars t.log) (f (buildRoot, bootTool, true)) t) :
    Always A (fun t => Tidy handled t.vars t.log) (entry a >>= f) State.init := by
  refine tidy_bind_calm (calls_entry_calm a) free_nil fun v t ht hfree => ?_
  obtain ⟨buildRoot, bootTool, td⟩ := v
  obtain ⟨rfl, hg⟩ := good_entry ht
  exact hf buildRoot bootTool t ⟨ht.errexit, hfree, hg⟩

theorem tidy_updateEfi (a : Args) (hm : a.mode = .updateEfi) :
    Always A (fun t => Tidy handled t.vars t.log) (main a) State.init := by
  rw [main_updateEfi hm]
  refine tidy_entry fun buildRoot bootTool t₁ h₁ => ?_
  have hsel : (selectEsp a).Calls fun c => c.calm volumes := by
    simp [selectEsp, selectFatEsp, settlePartitions, Cmd.calm]
  have hsel' : (selectEsp a).Assigns fun f => ∀ v, Good v → Good (f v) := by
    simp [selectEsp, selectFatEsp, settlePartitions]
  refine tidy_bind_steady hsel hsel' h₁ fun espPart t₂ _ h₂ => ?_
  refine tidy_bind_steady (by simp [dryRunExit, Cmd.calm]) (by simp [dryRunExit]) h₂
    fun _ t₃ _ h₃ => ?_
  refine tidy_bind_steady (by simp [confirmExact, Cmd.calm]) (by simp [confirmExact]) h₃
    fun _ t₄ _ h₄ => ?_
  refine tidy_bind_steady (by simp [unmountDisk, Cmd.calm]) (by simp [unmountDisk]) h₄
    fun _ t₅ _ h₅ => ?_
  refine tidy_copyEfiTree _ _ _ h₅.errexit h₅.free h₅.good.1 ?_
  simp only [Script.calls_bind, calls_verifyTarget_calm, true_and]
  simp [installOpenduet, Cmd.calm]

theorem tidy_makeUsb (a : Args) (hm : a.mode = .makeUsb) :
    Always A (fun t => Tidy handled t.vars t.log) (main a) State.init := by
  rw [main_makeUsb hm]
  refine tidy_entry fun buildRoot bootTool t₁ h₁ => ?_
  refine tidy_bind_steady (calls_preflight_calm a) (assigns_preflight a) h₁ fun x t₂ hx h₂ => ?_
  obtain ⟨td, src⟩ := x
  obtain ⟨rfl, -⟩ := good_preflight h₁.good hx
  refine tidy_bind_steady (by simp [unmountDisk, Cmd.calm]) (by simp [unmountDisk]) h₂
    fun _ t₃ _ h₃ => ?_
  refine tidy_bind_steady (by simp [repartition, settlePartitions, Cmd.calm])
    (by simp [repartition, settlePartitions]) h₃ fun _ t₄ _ h₄ => ?_
  refine tidy_bind_steady (by simp [findPartitions, Cmd.calm]) (by simp [findPartitions]) h₄
    fun e t₅ _ h₅ => ?_
  obtain ⟨e, i⟩ := e
  refine tidy_bind_steady (by simp [Cmd.calm]) (by simp) h₅ fun _ t₆ _ h₆ => ?_
  refine (tidy_restore a src i h₆.free h₆.good).bind fun _ t₇ h₇ => ?_
  obtain ⟨hvars, hfree⟩ := free_restore h₆.errexit h₆.free h₇
  refine tidy_copyEfiTree _ _ _ (h₇.errexit.trans h₆.errexit) hfree (hvars ▸ h₆.good.1) ?_
  simp only [Script.calls_bind, calls_verifyTarget_calm]
  simp [installOpenduet, Cmd.calm]

theorem tidy_main (a : Args) :
    Always A (fun t => Tidy handled t.vars t.log) (main a) State.init := by
  cases hm : a.mode with
  | makeUsb => exact tidy_makeUsb a hm
  | updateEfi => exact tidy_updateEfi a hm
  | verify =>
    refine always_of_calm (D := []) ?_ free_nil
    simp only [main, hm, Script.calls_bind, verify, calls_verifyTarget_calm, true_and]
    simp [requireLinux, calls_guardSection, prepareTemp, makeTempDir, Cmd.calm]
  | inspectRetail =>
    refine always_of_calm (D := []) ?_ free_nil
    simp [main, hm, requireLinux, inspectRetail, prepareSourceImage, prepareTemp, makeTempDir,
      sourceHasInstallerMarkers, convertImage, calls_findInstallerVolume, printSourceReport,
      Cmd.calm]
  | listDisks =>
    refine always_of_calm (D := []) ?_ free_nil
    simp [main, hm, requireLinux, Cmd.calm]

end MakeUsb

/-! ### The result -/

/-- The scripts whose handlers remove a temporary directory. -/
inductive Cleaner
  | makeUsb (a : MakeUsb.Args)
  | repair (a : RepairEsp.Args)
  | openduet (a : InstallOpenduet.Args)

namespace Cleaner

/-- The script. -/
def main : Cleaner → Sh ℕ
  | makeUsb a => MakeUsb.main a
  | repair a => RepairEsp.main a
  | openduet a => InstallOpenduet.main a

/-- Its trap handler. -/
def cleanup : Cleaner → Vars → Sh Unit
  | makeUsb _ => MakeUsb.cleanup
  | repair _ => RepairEsp.cleanup
  | openduet _ => InstallOpenduet.cleanup

/-- What the handler tries to unmount. -/
def handled : Cleaner → Vars → List (Option Loc)
  | makeUsb _ => MakeUsb.handled
  | repair _ => RepairEsp.handled
  | openduet _ => InstallOpenduet.handled

/-- The handler before it removes the temporary directory. -/
def attempts : Cleaner → Vars → Sh Unit
  | makeUsb _, v => do
    releaseMount v.espMount
    releaseMount v.installerMount
    releaseDir v.sourceMount
    detachLoop v.sourceLoop
  | repair _, v => releaseMount v.espMount
  | openduet _, v => releaseDir v.espMount

theorem cleanup_eq (w : Cleaner) (v : Vars) :
    w.cleanup v = w.attempts v >>= fun _ => removeTemp v.tempDir := by
  cases w with
  | makeUsb a => simp only [cleanup, MakeUsb.cleanup, attempts, bind_assoc]
  | repair a => rfl
  | openduet a => rfl

theorem calls_attempts (w : Cleaner) (v : Vars) :
    (w.attempts v).Calls fun c => ∀ l, c.removes l = [] := by
  have hmount : ∀ dir, (releaseMount dir).Calls fun c => ∀ l, c.removes l = [] := by
    intro dir
    cases dir <;> simp [releaseMount, Cmd.removes]
  have hdir : ∀ dir, (releaseDir dir).Calls fun c => ∀ l, c.removes l = [] := by
    intro dir
    cases dir <;> simp [releaseDir, releaseMount, Cmd.removes]
  have hloop : ∀ dev, (detachLoop dev).Calls fun c => ∀ l, c.removes l = [] := by
    intro dev
    cases dev <;> simp [detachLoop, Cmd.removes]
  cases w <;> simp [attempts, hmount, hdir, hloop]

theorem noExit_attempts (w : Cleaner) (v : Vars) : (w.attempts v).NoExit := by
  cases w with
  | makeUsb a =>
    exact (noExit_releaseMount _).bind fun _ => (noExit_releaseMount _).bind fun _ =>
      (noExit_releaseDir _).bind fun _ => noExit_detachLoop _
  | repair a => exact noExit_releaseMount _
  | openduet a => exact noExit_releaseDir _

theorem tmpMounts_attempts {w : Cleaner} {v : Vars} {u : Unit}
    (h : Returns (HandlerTruth ρ) (w.attempts v) s u t) :
    tmpMounts t.log = releaseAll ρ (w.handled v) (tmpMounts s.log) := by
  cases w with
  | makeUsb a =>
    obtain ⟨_, t₁, h₁, h⟩ := returns_bind.1 h
    obtain ⟨_, t₂, h₂, h⟩ := returns_bind.1 h
    obtain ⟨_, t₃, h₃, h⟩ := returns_bind.1 h
    have hloop : (detachLoop v.sourceLoop).Calls fun c => c.still := by
      cases v.sourceLoop <;> simp [detachLoop, Cmd.still]
    rw [tmpMounts_of_still hloop h, tmpMounts_releaseDir h₃, tmpMounts_releaseMount h₂,
      tmpMounts_releaseMount h₁]
    rfl
  | repair a => exact tmpMounts_releaseMount h
  | openduet a => exact tmpMounts_releaseDir h

/-- At every boundary, what is mounted read-write is known to the handler. -/
theorem tidy (w : Cleaner) : Always A (fun s => Tidy w.handled s.vars s.log) w.main State.init := by
  cases w with
  | makeUsb a => exact MakeUsb.tidy_main a
  | repair a => exact RepairEsp.tidy_main a
  | openduet a => exact InstallOpenduet.tidy_main a

end Cleaner

theorem Cleaner.harmless_iff {w : Cleaner} {q : Sh ℕ}
    (hs : Reach MountTruth (w.main, State.init) (q, s)) :
    Safe (HandlerTruth ρ) (fun l c => c.removes l = []) (w.cleanup s.vars) s.noErrexit ↔
      ∀ m ∈ mounts s.log, m.rw = true → Loc.tmpDir.Enters m.dir → ρ m.dir = true := by
  have hms : ∀ t, Returns (HandlerTruth ρ) (w.attempts s.vars) s.noErrexit () t →
      tmpMounts t.log = releaseAll ρ (w.handled s.vars) (tmpMounts s.log) := by
    intro t ht
    rw [tmpMounts_attempts ht, St.noErrexit_log]
  rw [w.cleanup_eq, safe_handler_iff (w.calls_attempts s.vars) (w.noExit_attempts s.vars) hms
    (w.tidy q s hs)]
  simp only [mem_tmpMounts, and_imp]
  exact forall₂_congr fun m _ => forall_comm

/-- **What a handler removes**: at every boundary of every run, the handler removes no file from a
volume exactly when it succeeds in unmounting each volume that is mounted read-write below the
temporary directory there. -/
theorem cleanup_harmless_iff (w : Cleaner) (ρ : Loc → Bool) (q : Sh ℕ) (s : State)
    (hs : Reach MountTruth (w.main, State.init) (q, s)) :
    Safe (HandlerTruth ρ) (fun l c => c.removes l = []) (w.cleanup s.vars) s.noErrexit ↔
      ∀ m ∈ mounts s.log, m.rw = true → Loc.tmpDir.Enters m.dir → ρ m.dir = true :=
  Cleaner.harmless_iff hs

/-! ### A busy ESP -/

/-- `linux_install_openduet.sh` on a USB disk. -/
def busyArgs : InstallOpenduet.Args := ⟨"/dev/sdb", "/dev/sdb1", "build", false⟩

/-- Everything works until `/boot` does not fit on the mounted ESP. -/
def busyReply (l : Log) : Cmd → Reply
  | .query (.mountpoint dir) => if (mounts l).any (·.dir = dir) then .done else .failed
  | .query .uname => .lines ["Linux"]
  | .query (.lsblkType _) => .lines ["disk"]
  | .query (.blkid _ _) => .lines ["vfat"]
  | .query (.readlink path) => .lines [path]
  | .cp _ (.sub (.tmp "esp") "boot") => .failed
  | _ => .done

theorem mountTruth_busyReply (l : Log) (c : Cmd) : MountTruth l c (busyReply l c) := by
  unfold MountTruth
  split
  · rename_i dir
    intro _
    have hm : (mounts l).any (·.dir = dir) = true ↔ Mounted l dir := by simp [Mounted]
    rw [← hm]
    simp only [busyReply]
    split <;> simp_all
  · exact fun _ => rfl
  · trivial

/-- The run that ends with the failed copy. -/
def busyRun : Config Vars Cmd Reply ℕ :=
  follow busyReply (Cleaner.openduet busyArgs).main State.init

theorem reach_busyRun : Reach MountTruth ((Cleaner.openduet busyArgs).main, State.init)
    (busyRun.1, busyRun.2) :=
  reach_follow mountTruth_busyReply _ _

theorem mounts_busyRun : mounts busyRun.2.log = [⟨.tmp "esp", "/dev/sdb1", true⟩] := by
  decide

/-- When the ESP can be unmounted, the handler is harmless at the end of that run. -/
theorem cleanup_harmless_idle :
    Safe (HandlerTruth fun _ => true) (fun l c => c.removes l = [])
      ((Cleaner.openduet busyArgs).cleanup busyRun.2.vars) busyRun.2.noErrexit :=
  (cleanup_harmless_iff (.openduet busyArgs) (fun _ => true) busyRun.1 busyRun.2
    reach_busyRun).2 fun _ _ _ _ => rfl

/-- **A busy ESP is wiped**: the copy fails, `set -e` ends the script, the `umount` of the handler
fails, and its `rm -rf` removes the files of the ESP. -/
theorem cleanup_wipes_esp :
    Reach MountTruth ((Cleaner.openduet busyArgs).main, State.init) (busyRun.1, busyRun.2) ∧
      busyRun.1.outcome? = some (.exit 1 "") ∧
      ¬ Safe (HandlerTruth fun _ => false) (fun l c => c.removes l = [])
        ((Cleaner.openduet busyArgs).cleanup busyRun.2.vars) busyRun.2.noErrexit := by
  refine ⟨reach_busyRun, by decide, fun h => ?_⟩
  have hall := (Cleaner.harmless_iff reach_busyRun).1 h
  rw [mounts_busyRun] at hall
  exact Bool.false_ne_true (hall _ (List.mem_singleton_self _) rfl (by decide))

end Usb

end InstallKit
