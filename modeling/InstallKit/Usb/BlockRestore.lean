import InstallKit.Usb.MakeUsb

/-!
# The block restore of `--make-usb`

`restore_block` clones the HFS source onto the installer partition, replaces the kernel and unmounts
the volume.  It is called as `if restore_block`, so `set -e` is ignored in it and in everything it
calls, and its status is that of its last command.

* `restoreBlock_reaches_iff` : what lets control reach `copy_efi_tree` is the size check, the
  installer markers, the Darwin version string and the final `umount`, nothing else.
* `restoreBlock_propagates_iff` : **exactly which outcomes make the restore honest**: whenever these
  four pass, the clone, one of the two mounts, the backup that was taken and the copy of the kernel
  must have succeeded by themselves.
* `restoreBlock_ignores_dd` : a clone that failed goes unnoticed.
-/

namespace InstallKit

namespace Usb

open Shell

/-! ### Idioms whose status is ignored -/

@[simp] theorem unchecked_cmd (c : Cmd) :
    (Script.cmd c : Sh Reply).unchecked = Script.attempt c := rfl

@[simp] theorem unchecked_attempt (c : Cmd) :
    (Script.attempt c : Sh Reply).unchecked = Script.attempt c := rfl

@[simp] theorem unchecked_exec (c : Cmd) : (exec c).unchecked = tryCmd c := rfl

@[simp] theorem unchecked_tryCmd (c : Cmd) : (tryCmd c).unchecked = tryCmd c := rfl

@[simp] theorem unchecked_askChecked (q : Query) : (askChecked q).unchecked = ask q := rfl

@[simp] theorem unchecked_holds (q : Query) : (holds q).unchecked = holds q := rfl

@[simp] theorem unchecked_die {α : Type} (msg : String) :
    (die msg : Sh α).unchecked = die msg := rfl

@[simp] theorem unchecked_orDie (b : Bool) (msg : String) :
    (orDie b msg).unchecked = orDie b msg := by cases b <;> rfl

@[simp] theorem unchecked_ite {α : Type} {c : Prop} [Decidable c] (p q : Sh α) :
    (if c then p else q).unchecked = if c then p.unchecked else q.unchecked := by
  split <;> rfl

section Trace

variable {A : Cmd → Reply → Prop} {l : Log}

@[simp] theorem trace_ask {q : Query} {r : Reply} :
    Trace A (ask q) r l ↔ A (.query q) r ∧ l = [(.query q, r)] := by
  simp only [ask, Script.attempt, trace_attempt, trace_ret]
  constructor
  · rintro ⟨r', hA, _, ⟨rfl, rfl⟩, rfl⟩; exact ⟨hA, rfl⟩
  · rintro ⟨hA, rfl⟩; exact ⟨r, hA, [], ⟨rfl, rfl⟩, rfl⟩

@[simp] theorem trace_tryCmd {c : Cmd} {u : Unit} :
    Trace A (tryCmd c) u l ↔ ∃ r, A c r ∧ l = [(c, r)] := by
  simp [tryCmd]

@[simp] theorem trace_holds {q : Query} {b : Bool} :
    Trace A (holds q) b l ↔ ∃ r, A (.query q) r ∧ b = r.ok ∧ l = [(.query q, r)] := by
  simp only [holds, trace_bind, trace_ask, Script.pure_eq, trace_ret]
  constructor
  · rintro ⟨r, _, _, ⟨hA, rfl⟩, ⟨rfl, rfl⟩, rfl⟩; exact ⟨r, hA, rfl, rfl⟩
  · rintro ⟨r, hA, rfl, rfl⟩; exact ⟨r, _, [], ⟨hA, rfl⟩, ⟨rfl, rfl⟩, rfl⟩

@[simp] theorem trace_orDie {b : Bool} {msg : String} {u : Unit} :
    Trace A (orDie b msg) u l ↔ b = true ∧ l = [] := by
  cases b <;> simp [orDie, die]

@[simp] theorem may_tryCmd {c : Cmd} {u : Unit} : May A (tryCmd c) u ↔ ∃ r, A c r := by
  simp [tryCmd]

end Trace

namespace MakeUsb

/-! ### The dispatch -/

/-- What the script knows when it dispatches on the restore mode. -/
structure Dispatch where
  /-- `BUILD_ROOT`. -/
  buildRoot : String
  /-- `BOOT_TOOL`. -/
  bootTool : Loc
  /-- `TEMP_DIR` is set. -/
  tempDir : Bool
  /-- The retail source. -/
  src : Source
  /-- `ESP_PART`. -/
  espPart : String
  /-- `INSTALLER_PART`. -/
  installerPart : String
  deriving DecidableEq, Repr

/-- `--make-usb` up to the dispatch on the restore mode. -/
def upToRestore (a : Args) : Sh Dispatch := do
  requireLinux "This backend runs on Linux only"
  guardSection a
  let (buildRoot, bootTool, tempDir) ← prepare a
  let (tempDir, src) ← preflight a tempDir
  unmountDisk a.disk
  repartition a
  let (espPart, installerPart) ← findPartitions a
  exec (.mkfs .vfat espPart)
  return ⟨buildRoot, bootTool, tempDir, src, espPart, installerPart⟩

/-- The restore stands between that part and `copy_efi_tree`, the first command of `finish`. -/
theorem main_eq_restore {a : Args} (hm : a.mode = .makeUsb) :
    main a = (do
      let x ← upToRestore a
      restore a x.src x.installerPart x.tempDir
      finish a x.buildRoot x.bootTool x.espPart x.installerPart x.tempDir) := by
  simp only [main, hm, makeUsb, write, upToRestore, bind_assoc, pure_bind]

variable (a : Args) (src : Source) (installerPart : String) (tempDir : Bool)

/-! ### The commands that matter -/

/-- The first attempt of `mount_hfs_rw`. -/
def forceMount : Cmd :=
  .mount "-t hfsplus -o rw,force,noatime" true installerPart (installerMount tempDir)

/-- The second attempt of `mount_hfs_rw`. -/
def plainMount : Cmd :=
  .mount "-t hfsplus -o rw,noatime" true installerPart (installerMount tempDir)

/-- The backup of the retail kernel. -/
def kernelBackup : Cmd :=
  .cp (.sub (installerMount tempDir) "mach_kernel")
    (.sub (installerMount tempDir) "mach_kernel.original")

/-- The copy of the AMD kernel. -/
def kernelCopy : Cmd := .cp (.host a.amdKernel) (.sub (installerMount tempDir) "mach_kernel")

/-- The `umount` that ends the restore. -/
def finalUmount : Cmd := .umount (installerMount tempDir) false

/-- `c` was run and succeeded. -/
def Succeeded (l : Log) (c : Cmd) : Prop := ∃ r, (c, r) ∈ l ∧ r.ok = true

/-- The commands `l` of the restore phase did what they are for. -/
structure Restored (l : Log) : Prop where
  /-- The source was cloned. -/
  clone : Succeeded l (cloneWrite src installerPart)
  /-- The clone was mounted read-write. -/
  mount : Succeeded l (forceMount installerPart tempDir) ∨
    Succeeded l (plainMount installerPart tempDir)
  /-- A backup that was taken is there. -/
  backup : ∀ r, (kernelBackup tempDir, r) ∈ l → r.ok = true
  /-- The AMD kernel was copied. -/
  kernel : Succeeded l (kernelCopy a tempDir)
  /-- The volume was unmounted. -/
  umount : Succeeded l (finalUmount tempDir)

/-! ### Outcomes -/

/-- The outcomes `ρ` of the commands; `sync`, the only one that the restore runs twice, may be
answered differently each time. -/
def Assigned (ρ : Cmd → Reply) (c : Cmd) (r : Reply) : Prop := c = .sync ∨ r = ρ c

/-- Control reaches `copy_efi_tree` after the commands `l` of the restore phase. -/
def ReachesCopy (ρ : Cmd → Reply) (s : State) (l : Log) : Prop :=
  ∃ t, Returns (fun _ => Assigned ρ) (restore a src installerPart tempDir) s () t ∧
    t.log = l ++ s.log

variable (ρ : Cmd → Reply)

/-- The source is not larger than the partition. -/
def Fits : Prop :=
  (ρ (.query (.size64 src.blockDevice))).number ≤ (ρ (.query (.size64 installerPart))).number

/-- The restore is a block restore to its end: `auto` does not fall back to copying files. -/
def BlockMode : Prop :=
  selectedRestore a src = .block ∧ (a.restoreMode = .auto → Fits src installerPart ρ)

/-- The volume exposes the installer markers. -/
def Markers : Prop :=
  (ρ (.query (.test .f (.sub (installerMount tempDir)
    "System/Library/CoreServices/boot.efi")))).ok = true ∨
  (ρ (.query (.test .d (.sub (installerMount tempDir) "System/Installation")))).ok = true

/-- The kernel on the volume carries the expected version string, where one is expected. -/
def VersionOk : Prop :=
  a.expectedKernelVersion = "" ∨
    (ρ (.query (.grep ("Darwin Kernel Version " ++ a.expectedKernelVersion)
      (.sub (installerMount tempDir) "mach_kernel")))).ok = true

/-- There is a retail kernel and no backup of it. -/
def BackupTaken : Prop :=
  (ρ (.query (.test .f (.sub (installerMount tempDir) "mach_kernel")))).ok = true ∧
    (ρ (.query (.test .e (.sub (installerMount tempDir) "mach_kernel.original")))).ok = false

/-- Everything that the script looks at in the restore phase. -/
def GatesPass : Prop :=
  Fits src installerPart ρ ∧ Markers tempDir ρ ∧ VersionOk a tempDir ρ ∧
    (ρ (finalUmount tempDir)).ok = true

/-- The commands whose status nobody looks at succeed all the same. -/
def IgnoredSucceed : Prop :=
  (ρ (cloneWrite src installerPart)).ok = true ∧
    ((ρ (forceMount installerPart tempDir)).ok = true ∨
      (ρ (plainMount installerPart tempDir)).ok = true) ∧
    (BackupTaken tempDir ρ → (ρ (kernelBackup tempDir)).ok = true) ∧
    (ρ (kernelCopy a tempDir)).ok = true

/-! ### What stops the restore -/

variable {a src installerPart tempDir ρ}

theorem assigned_self (c : Cmd) : Assigned ρ c (ρ c) := Or.inr rfl

@[simp] theorem exists_assigned (c : Cmd) : ∃ r, Assigned ρ c r := ⟨_, assigned_self c⟩

@[simp] theorem assigned_query {q : Query} {r : Reply} :
    Assigned ρ (.query q) r ↔ r = ρ (.query q) := by simp [Assigned]

@[simp] theorem unchecked_sourceHasInstallerMarkers (root : Loc) :
    (sourceHasInstallerMarkers root).unchecked = sourceHasInstallerMarkers root := by
  simp [sourceHasInstallerMarkers]

@[simp] theorem unchecked_kernelVersionOk (expected : String) (path : Loc) :
    (kernelVersionOk expected path).unchecked = kernelVersionOk expected path := by
  simp [kernelVersionOk]

theorem may_markers :
    May (Assigned ρ) (sourceHasInstallerMarkers (installerMount tempDir)) true ↔
      Markers tempDir ρ := by
  simp only [sourceHasInstallerMarkers, may_bind, may_holds, assigned_query, may_ite]
  simp only [exists_eq_left, Script.pure_eq, may_ret, Markers]
  split
  · rename_i h; simp [h]
  · rename_i h; rw [or_iff_right h]; exact eq_comm

theorem may_kernelVersionOk :
    May (Assigned ρ) (kernelVersionOk a.expectedKernelVersion
      (.sub (installerMount tempDir) "mach_kernel")) true ↔ VersionOk a tempDir ρ := by
  simp only [kernelVersionOk, may_ite, Script.pure_eq, may_ret, may_holds, assigned_query,
    exists_eq_left, VersionOk]
  split
  · rename_i h; simp [h]
  · rename_i h; rw [or_iff_right h]; exact eq_comm

theorem may_backupKernel : May (Assigned ρ) (backupKernel tempDir).unchecked () := by
  simp only [backupKernel, Script.unchecked_bind, unchecked_holds, unchecked_ite, unchecked_exec,
    may_bind, may_holds, assigned_query, may_ite, may_tryCmd, exists_assigned]
  simp only [exists_eq_left]
  split
  · simp
  · simp

theorem may_installAmdKernel :
    May (Assigned ρ) (installAmdKernel a.amdKernel a.expectedKernelVersion tempDir).unchecked () ↔
      VersionOk a tempDir ρ := by
  rw [← may_kernelVersionOk]
  simp only [installAmdKernel, Script.unchecked_bind, may_then, may_backupKernel, unchecked_exec,
    may_tryCmd, exists_assigned, true_and, unchecked_kernelVersionOk, unchecked_orDie]
  simp [may_bind]

theorem may_mountHfsRw : May (Assigned ρ) (mountHfsRw installerPart tempDir).unchecked () := by
  simp only [mountHfsRw, Script.unchecked_bind, may_then, unchecked_tryCmd, may_tryCmd,
    exists_assigned, true_and]
  refine may_bind.2 ⟨_, may_attempt.2 ⟨_, assigned_self _, rfl⟩, ?_⟩
  rw [unchecked_ite, may_ite]
  split
  · rfl
  · simp

theorem may_releaseSource : May (Assigned ρ) (releaseSource src).unchecked () := by
  simp only [releaseSource, Script.unchecked_bind, unchecked_holds, unchecked_ite, may_bind,
    may_ite]
  refine ⟨_, may_holds.2 ⟨_, assigned_self _, rfl⟩, ?_⟩
  split <;> simp

theorem may_checkClone : May (Assigned ρ) (checkClone installerPart).unchecked () := by
  simp only [checkClone, Script.unchecked_bind, unchecked_holds, unchecked_ite, may_bind,
    may_ite]
  refine ⟨_, may_holds.2 ⟨_, assigned_self _, rfl⟩, ?_⟩
  split <;> simp

theorem may_cloneAndPatch {x : BlockResult} :
    May (Assigned ρ) (cloneAndPatch a src installerPart tempDir).unchecked x ↔
      Markers tempDir ρ ∧ VersionOk a tempDir ρ ∧
        x = .status (ρ (finalUmount tempDir)).status := by
  simp only [cloneAndPatch, Script.unchecked_bind, may_then, may_releaseSource, may_checkClone,
    unchecked_exec, may_tryCmd, exists_assigned, may_mountHfsRw, true_and,
    unchecked_sourceHasInstallerMarkers]
  rw [may_bind]
  simp only [may_then, unchecked_orDie, may_orDie, may_installAmdKernel]
  simp only [unchecked_cmd, Script.attempt_bind, may_attempt]
  constructor
  · rintro ⟨b, hb, rfl, hv, r, hr, hx⟩
    obtain rfl : r = ρ (finalUmount tempDir) := by simpa [Assigned, finalUmount] using hr
    exact ⟨may_markers.1 hb, hv, hx⟩
  · rintro ⟨hm, hv, rfl⟩
    exact ⟨true, may_markers.2 hm, rfl, hv, _, assigned_self _, rfl⟩

theorem may_restoreBlock {x : BlockResult} (hf : Fits src installerPart ρ) :
    May (Assigned ρ) (restoreBlock a src installerPart tempDir).unchecked x ↔
      May (Assigned ρ) (cloneAndPatch a src installerPart tempDir).unchecked x := by
  have hf' := Nat.not_lt.2 hf
  simp only [restoreBlock, Script.unchecked_bind, unchecked_askChecked, may_bind, may_ask,
    assigned_query, exists_eq_left, gt_iff_lt, hf', if_false]

theorem may_restoreBlock_of_not_fits {x : BlockResult} (hf : ¬ Fits src installerPart ρ)
    (ha : a.restoreMode ≠ .auto) :
    ¬ May (Assigned ρ) (restoreBlock a src installerPart tempDir).unchecked x := by
  have hf' := Nat.not_le.1 hf
  simp only [restoreBlock, Script.unchecked_bind, unchecked_askChecked, may_bind, may_ask,
    assigned_query, exists_eq_left, gt_iff_lt, hf', if_true, ha, if_false, unchecked_die]
  simp

theorem may_afterBlock_status {n : ℕ} :
    May (Assigned ρ) (afterBlock a src installerPart tempDir (.status n)) () ↔ n = 0 := by
  cases n <;> simp [afterBlock]

/-- **What stops a block restore**: the size check, the markers, the version string and the last
`umount`. -/
theorem restoreBlock_reaches_iff (hb : BlockMode a src installerPart ρ) :
    May (Assigned ρ) (restore a src installerPart tempDir) () ↔
      GatesPass a src installerPart tempDir ρ := by
  rw [restore, if_pos hb.1, may_bind]
  by_cases hf : Fits src installerPart ρ
  · simp only [may_restoreBlock hf, may_cloneAndPatch]
    constructor
    · rintro ⟨x, ⟨hm, hv, rfl⟩, hx⟩
      exact ⟨hf, hm, hv, Reply.ok_iff.2 (may_afterBlock_status.1 hx)⟩
    · rintro ⟨-, hm, hv, hu⟩
      exact ⟨_, ⟨hm, hv, rfl⟩, may_afterBlock_status.2 (Reply.ok_iff.1 hu)⟩
  · -- not enough room: `auto` would fall back, which `BlockMode` excludes, so the script dies
    have hne : a.restoreMode ≠ .auto := fun h => hf (hb.2 h)
    constructor
    · rintro ⟨x, hx, -⟩
      exact (may_restoreBlock_of_not_fits hf hne hx).elim
    · rintro ⟨h, -⟩
      exact (hf h).elim

/-! ### What has been run when it ends -/

theorem Assigned.eq {c : Cmd} {r : Reply} (h : Assigned ρ c r) (hc : c ≠ .sync) : r = ρ c :=
  h.resolve_left hc

/-- Whenever `p` comes to its end, `c` has been run, with its assigned outcome. -/
def Runs {α : Type} (ρ : Cmd → Reply) (p : Sh α) (c : Cmd) : Prop :=
  ∀ b l, Trace (Assigned ρ) p b l → (c, ρ c) ∈ l

theorem Runs.left {α β : Type} {p : Sh β} {f : β → Sh α} {c : Cmd} (h : Runs ρ p c) :
    Runs ρ (p >>= f) c := by
  intro b l hl
  obtain ⟨b', l₁, l₂, hp, -, rfl⟩ := trace_bind.1 hl
  exact List.mem_append_right _ (h b' l₁ hp)

theorem Runs.right {α β : Type} {p : Sh β} {f : β → Sh α} {c : Cmd}
    (h : ∀ b, May (Assigned ρ) p b → Runs ρ (f b) c) : Runs ρ (p >>= f) c := by
  intro b l hl
  obtain ⟨b', l₁, l₂, hp, hf, rfl⟩ := trace_bind.1 hl
  exact List.mem_append_left _ (h b' (may_iff_trace.2 ⟨l₁, hp⟩) b l₂ hf)

theorem runs_attempt {c : Cmd} (hc : c ≠ .sync) : Runs ρ (Script.attempt c) c := by
  intro b l hl
  simp only [Script.attempt, trace_attempt, trace_ret] at hl
  obtain ⟨r, hr, _, ⟨-, rfl⟩, rfl⟩ := hl
  rw [hr.eq hc]
  exact List.mem_singleton_self _

theorem runs_tryCmd {c : Cmd} (hc : c ≠ .sync) : Runs ρ (tryCmd c) c := (runs_attempt hc).left

theorem runs_forceMount :
    Runs ρ (mountHfsRw installerPart tempDir).unchecked (forceMount installerPart tempDir) := by
  simp only [mountHfsRw, Script.unchecked_bind, unchecked_attempt]
  exact .right fun _ _ => (runs_attempt (by simp)).left

theorem runs_plainMount (hf : (ρ (forceMount installerPart tempDir)).ok = false) :
    Runs ρ (mountHfsRw installerPart tempDir).unchecked (plainMount installerPart tempDir) := by
  simp only [mountHfsRw, Script.unchecked_bind, unchecked_attempt, unchecked_ite, unchecked_exec]
  refine .right fun _ _ => .right fun r hr => ?_
  simp only [Script.attempt, may_attempt, may_ret] at hr
  obtain ⟨_, hr, rfl⟩ := hr
  obtain rfl := hr.eq (by simp)
  rw [if_neg (by simpa [forceMount] using hf)]
  exact runs_tryCmd (by simp)

theorem runs_kernelBackup (ht : BackupTaken tempDir ρ) :
    Runs ρ (backupKernel tempDir).unchecked (kernelBackup tempDir) := by
  simp only [backupKernel, Script.unchecked_bind, unchecked_holds, unchecked_ite, unchecked_exec]
  refine .right fun b hb => ?_
  obtain ⟨_, hr, rfl⟩ := may_holds.1 hb
  rw [assigned_query.1 hr, if_pos ht.1]
  refine .right fun b hb => ?_
  obtain ⟨_, hr, rfl⟩ := may_holds.1 hb
  rw [assigned_query.1 hr, if_pos (by simp [ht.2])]
  exact runs_tryCmd (by simp)

theorem runs_installAmdKernel_backup (ht : BackupTaken tempDir ρ) :
    Runs ρ (installAmdKernel a.amdKernel a.expectedKernelVersion tempDir).unchecked
      (kernelBackup tempDir) := by
  simp only [installAmdKernel, Script.unchecked_bind]
  exact (runs_kernelBackup ht).left

theorem runs_installAmdKernel_copy :
    Runs ρ (installAmdKernel a.amdKernel a.expectedKernelVersion tempDir).unchecked
      (kernelCopy a tempDir) := by
  simp only [installAmdKernel, Script.unchecked_bind, unchecked_exec]
  exact .right fun _ _ => (runs_tryCmd (by simp)).left

/-- The commands of `restore_block`, other than what a failed gate cuts off. -/
structure Performs (a : Args) (src : Source) (installerPart : String) (tempDir : Bool)
    (ρ : Cmd → Reply) {α : Type} (p : Sh α) : Prop where
  clone : Runs ρ p (cloneWrite src installerPart)
  force : Runs ρ p (forceMount installerPart tempDir)
  plain : (ρ (forceMount installerPart tempDir)).ok = false →
    Runs ρ p (plainMount installerPart tempDir)
  backup : BackupTaken tempDir ρ → Runs ρ p (kernelBackup tempDir)
  kernel : Runs ρ p (kernelCopy a tempDir)
  umount : Runs ρ p (finalUmount tempDir)

theorem performs_cloneAndPatch : Performs a src installerPart tempDir ρ
    (cloneAndPatch a src installerPart tempDir).unchecked := by
  simp only [cloneAndPatch, Script.unchecked_bind, unchecked_exec, unchecked_cmd]
  constructor
  case clone => exact .right fun _ _ => (runs_tryCmd (by simp [cloneWrite])).left
  case force =>
    exact .right fun _ _ => .right fun _ _ => .right fun _ _ => .right fun _ _ =>
      runs_forceMount.left
  case plain =>
    exact fun hf => .right fun _ _ => .right fun _ _ => .right fun _ _ => .right fun _ _ =>
      (runs_plainMount hf).left
  case backup =>
    exact fun ht => .right fun _ _ => .right fun _ _ => .right fun _ _ => .right fun _ _ =>
      .right fun _ _ => .right fun _ _ => .right fun _ _ => (runs_installAmdKernel_backup ht).left
  case kernel =>
    exact .right fun _ _ => .right fun _ _ => .right fun _ _ => .right fun _ _ =>
      .right fun _ _ => .right fun _ _ => .right fun _ _ => runs_installAmdKernel_copy.left
  case umount =>
    exact .right fun _ _ => .right fun _ _ => .right fun _ _ => .right fun _ _ =>
      .right fun _ _ => .right fun _ _ => .right fun _ _ => .right fun _ _ =>
        (runs_attempt (by simp)).left

/-- Whenever `p` comes to its end, `c` has not been run. -/
def Avoids {α : Type} (ρ : Cmd → Reply) (p : Sh α) (c : Cmd) : Prop :=
  ∀ b l, Trace (Assigned ρ) p b l → ∀ r, (c, r) ∉ l

theorem Avoids.bind {α β : Type} {p : Sh β} {f : β → Sh α} {c : Cmd} (hp : Avoids ρ p c)
    (hf : ∀ b, May (Assigned ρ) p b → Avoids ρ (f b) c) : Avoids ρ (p >>= f) c := by
  intro b l hl r hm
  obtain ⟨b', l₁, l₂, h₁, h₂, rfl⟩ := trace_bind.1 hl
  rcases List.mem_append.1 hm with hm | hm
  · exact hf b' (may_iff_trace.2 ⟨l₁, h₁⟩) b l₂ h₂ r hm
  · exact hp b' l₁ h₁ r hm

theorem avoids_of_calls {α : Type} {p : Sh α} {c : Cmd} (h : p.Calls (· ≠ c)) :
    Avoids ρ p c := fun _ _ hl _ hm => (hl.calls h hm) rfl

theorem avoids_kernelBackup (ht : ¬ BackupTaken tempDir ρ) :
    Avoids ρ (backupKernel tempDir).unchecked (kernelBackup tempDir) := by
  simp only [backupKernel, Script.unchecked_bind, unchecked_holds, unchecked_ite, unchecked_exec]
  refine .bind (avoids_of_calls (by simp [kernelBackup])) fun b hb => ?_
  obtain ⟨_, hr, rfl⟩ := may_holds.1 hb
  rw [assigned_query.1 hr]
  split
  · rename_i hk
    refine .bind (avoids_of_calls (by simp [kernelBackup])) fun b hb => ?_
    obtain ⟨_, hr, rfl⟩ := may_holds.1 hb
    rw [assigned_query.1 hr, if_neg (fun h => ht ⟨hk, by simpa using h⟩)]
    exact avoids_of_calls trivial
  · exact avoids_of_calls trivial

theorem avoids_cloneAndPatch (ht : ¬ BackupTaken tempDir ρ) :
    Avoids ρ (cloneAndPatch a src installerPart tempDir).unchecked (kernelBackup tempDir) := by
  have hpatch : Avoids ρ (installAmdKernel a.amdKernel a.expectedKernelVersion tempDir).unchecked
      (kernelBackup tempDir) := by
    simp only [installAmdKernel, Script.unchecked_bind, unchecked_exec]
    refine .bind (avoids_kernelBackup ht) fun _ _ => avoids_of_calls ?_
    simp [kernelBackup, kernelVersionOk]
  simp only [cloneAndPatch, Script.unchecked_bind]
  refine .bind (avoids_of_calls (by simp [releaseSource, kernelBackup])) fun _ _ => ?_
  refine .bind (avoids_of_calls (by simp [kernelBackup, cloneWrite])) fun _ _ => ?_
  refine .bind (avoids_of_calls (by simp [kernelBackup])) fun _ _ => ?_
  refine .bind (avoids_of_calls (by simp [checkClone, kernelBackup])) fun _ _ => ?_
  refine .bind (avoids_of_calls (by simp [mountHfsRw, kernelBackup])) fun _ _ => ?_
  refine .bind (avoids_of_calls (by simp [sourceHasInstallerMarkers, kernelBackup])) fun _ _ => ?_
  refine .bind (avoids_of_calls (by simp)) fun _ _ => ?_
  exact .bind hpatch fun _ _ => avoids_of_calls (by simp [kernelBackup])

/-- A block restore that ends well is the two size queries followed by the clone and the patch. -/
theorem trace_restore {l : Log} (hb : BlockMode a src installerPart ρ)
    (hf : Fits src installerPart ρ)
    (h : Trace (Assigned ρ) (restore a src installerPart tempDir) () l) :
    ∃ x l₀, Trace (Assigned ρ) (cloneAndPatch a src installerPart tempDir).unchecked x l₀ ∧
      ∀ c r, (∀ q, c ≠ .query q) → ((c, r) ∈ l ↔ (c, r) ∈ l₀) := by
  rw [restore, if_pos hb.1] at h
  obtain ⟨x, l₁, l₂, h₁, h₂, rfl⟩ := trace_bind.1 h
  simp only [restoreBlock, Script.unchecked_bind, unchecked_askChecked] at h₁
  obtain ⟨r, _, l₃, hr, h₃, rfl⟩ := trace_bind.1 h₁
  obtain ⟨r', _, l₄, hr', h₄, rfl⟩ := trace_bind.1 h₃
  obtain ⟨hsrc, rfl⟩ := trace_ask.1 hr
  obtain ⟨hdst, rfl⟩ := trace_ask.1 hr'
  obtain rfl := assigned_query.1 hsrc
  obtain rfl := assigned_query.1 hdst
  rw [if_neg (Nat.not_lt.2 hf)] at h₄
  -- a status of `0` is the only one after which the script goes on, and it runs nothing more
  obtain ⟨-, -, rfl⟩ := may_cloneAndPatch.1 (may_iff_trace.2 ⟨l₄, h₄⟩)
  have hzero := may_afterBlock_status.1 (may_iff_trace.2 ⟨l₂, h₂⟩)
  rw [hzero] at h₂
  obtain rfl : l₂ = [] := h₂.2
  exact ⟨_, l₄, h₄, fun c r hc => by simp [hc]⟩

/-! ### The result -/

theorem succeeded_iff {α : Type} {p : Sh α} {b : α} {l : Log} {c : Cmd} (hc : c ≠ .sync)
    (hl : Trace (Assigned ρ) p b l) (hr : Runs ρ p c) : Succeeded l c ↔ (ρ c).ok = true := by
  constructor
  · rintro ⟨r, hm, hok⟩
    rwa [(hl.answers hm).eq hc] at hok
  · intro hok
    exact ⟨_, hr b l hl, hok⟩

/-- The restore has done its work iff the outcomes of its commands were successes. -/
theorem restored_cloneAndPatch_iff {l : Log} {x : BlockResult}
    (hl : Trace (Assigned ρ) (cloneAndPatch a src installerPart tempDir).unchecked x l) :
    Restored a src installerPart tempDir l ↔
      IgnoredSucceed a src installerPart tempDir ρ ∧ (ρ (finalUmount tempDir)).ok = true := by
  have hp : Performs a src installerPart tempDir ρ
    (cloneAndPatch a src installerPart tempDir).unchecked := performs_cloneAndPatch
  have hclone := succeeded_iff (by simp [cloneWrite]) hl hp.clone
  have hforce := succeeded_iff (by simp [forceMount]) hl hp.force
  have hkernel := succeeded_iff (by simp [kernelCopy]) hl hp.kernel
  have humount := succeeded_iff (by simp [finalUmount]) hl hp.umount
  have hplain := fun hno => succeeded_iff (by simp [plainMount]) hl (hp.plain hno)
  constructor
  · rintro ⟨h₁, h₂, h₃, h₄, h₅⟩
    refine ⟨⟨hclone.1 h₁, ?_, fun ht => h₃ _ (hp.backup ht _ _ hl), hkernel.1 h₄⟩, humount.1 h₅⟩
    -- the plain mount is only tried where the forced one failed
    by_cases hno : (ρ (forceMount installerPart tempDir)).ok = true
    · exact Or.inl hno
    · have hno := Bool.eq_false_iff.2 hno
      exact h₂.imp hforce.1 (hplain hno).1
  · rintro ⟨⟨h₁, h₂, h₃, h₄⟩, h₅⟩
    refine ⟨hclone.2 h₁, ?_, fun r hr => ?_, hkernel.2 h₄, humount.2 h₅⟩
    · by_cases hno : (ρ (forceMount installerPart tempDir)).ok = true
      · exact Or.inl (hforce.2 hno)
      · exact Or.inr ((hplain (Bool.eq_false_iff.2 hno)).2 (h₂.resolve_left hno))
    · rw [(hl.answers hr).eq (by simp [kernelBackup])]
      by_cases ht : BackupTaken tempDir ρ
      · exact h₃ ht
      · exact (avoids_cloneAndPatch ht _ _ hl r hr).elim

theorem restored_congr {l l₀ : Log}
    (h : ∀ c r, (∀ q, c ≠ .query q) → ((c, r) ∈ l ↔ (c, r) ∈ l₀)) :
    Restored a src installerPart tempDir l ↔ Restored a src installerPart tempDir l₀ := by
  have hs : ∀ c, (∀ q, c ≠ .query q) → (Succeeded l c ↔ Succeeded l₀ c) :=
    fun c hc => exists_congr fun r => by rw [h c r hc]
  have hclone := hs (cloneWrite src installerPart) (by simp [cloneWrite])
  have hforce := hs (forceMount installerPart tempDir) (by simp [forceMount])
  have hplain := hs (plainMount installerPart tempDir) (by simp [plainMount])
  have hkernel := hs (kernelCopy a tempDir) (by simp [kernelCopy])
  have humount := hs (finalUmount tempDir) (by simp [finalUmount])
  have hbackup := fun r => h (kernelBackup tempDir) r (by simp [kernelBackup])
  constructor
  · rintro ⟨h₁, h₂, h₃, h₄, h₅⟩
    exact ⟨hclone.1 h₁, h₂.imp hforce.1 hplain.1, fun r hr => h₃ r ((hbackup r).2 hr),
      hkernel.1 h₄, humount.1 h₅⟩
  · rintro ⟨h₁, h₂, h₃, h₄, h₅⟩
    exact ⟨hclone.2 h₁, h₂.imp hforce.2 hplain.2, fun r hr => h₃ r ((hbackup r).1 hr),
      hkernel.2 h₄, humount.2 h₅⟩

/-- **Block restore, outcome by outcome**: at every dispatch that `--make-usb` reaches, control gets
to `copy_efi_tree` only after everything has succeeded exactly when the commands whose status is
ignored succeed whenever the gates pass. -/
theorem restoreBlock_propagates_iff (A : Log → Cmd → Reply → Prop) (a : Args) (x : Dispatch)
    (s : State) (ρ : Cmd → Reply) (hs : Returns A (upToRestore a) State.init x s)
    (hb : BlockMode a x.src x.installerPart ρ) :
    (∀ l, ReachesCopy a x.src x.installerPart x.tempDir ρ s l →
      Restored a x.src x.installerPart x.tempDir l) ↔
    (GatesPass a x.src x.installerPart x.tempDir ρ →
      IgnoredSucceed a x.src x.installerPart x.tempDir ρ) := by
  have herr : s.errexit = true := hs.errexit
  have hreach : ∀ l, ReachesCopy a x.src x.installerPart x.tempDir ρ s l ↔
      Trace (Assigned ρ) (restore a x.src x.installerPart x.tempDir) () l := fun l => trace_iff herr
  simp only [hreach]
  constructor
  · intro hall hg
    obtain ⟨l, hl⟩ := may_iff_trace.1 ((restoreBlock_reaches_iff hb).2 hg)
    obtain ⟨y, l₀, h₀, hmem⟩ := trace_restore hb hg.1 hl
    exact ((restored_cloneAndPatch_iff h₀).1 ((restored_congr hmem).1 (hall l hl))).1
  · intro hall l hl
    have hg := (restoreBlock_reaches_iff hb).1 (may_iff_trace.2 ⟨l, hl⟩)
    obtain ⟨y, l₀, h₀, hmem⟩ := trace_restore hb hg.1 hl
    exact (restored_congr hmem).2 ((restored_cloneAndPatch_iff h₀).2 ⟨hall hg, hg.2.2.2⟩)

/-! ### A clone that fails -/

/-- `--make-usb --restore-mode block` on `/dev/sdb`. -/
def sampleArgs : Args where
  mode := .makeUsb
  disk := "/dev/sdb"
  retail := "retail.iso"
  buildRoot := "build"
  amdKernel := "mach_kernel"
  espPart := ""
  installerPart := ""
  expectedKernelVersion := "10.3.0"
  restoreMode := .block
  installerLabel := "Installer"
  allowInternal := false
  dryRun := false

/-- Every command succeeds, except a `dd` when `ddFails`; the image holds one HFS+ volume. -/
def sampleReply (ddFails : Bool) : Cmd → Reply
  | .query .uname => .lines ["Linux"]
  | .query (.lsblkType _) => .lines ["disk"]
  | .query (.lsblkRm _) => .lines ["1"]
  | .query (.readlink path) => .lines [path]
  | .query (.test .d (.host "retail.iso")) => .failed
  | .query (.lsblkFstypes _) => .lines ["/dev/loop0p1 hfsplus"]
  | .query .readLine => .lines ["ERASE /dev/sdb"]
  | .query (.lsblkParts _) => .lines ["/dev/sdb1", "/dev/sdb2"]
  | .query (.sysPartition "/dev/sdb1") => .lines ["1"]
  | .query (.sysPartition "/dev/sdb2") => .lines ["2"]
  | .losetupAttach _ => .lines ["/dev/loop0"]
  | .dd .. => if ddFails then .failed else .done
  | _ => .done

/-- What the script knows at the dispatch of that run. -/
def sampleDispatch : Dispatch where
  buildRoot := "build"
  bootTool := build "build" "OpenDuet/BootInstall_IA32.tool"
  tempDir := true
  src := ⟨.tmp "source", "hfsplus", "/dev/loop0p1"⟩
  espPart := "/dev/sdb1"
  installerPart := "/dev/sdb2"

/-- The state at the dispatch of that run. -/
def sampleState (ddFails : Bool) : State :=
  (follow (fun _ => sampleReply ddFails) (upToRestore sampleArgs) State.init).2

theorem sample_dispatch (ddFails : Bool) :
    Returns (fun _ => Assigned (sampleReply ddFails)) (upToRestore sampleArgs) State.init
      sampleDispatch (sampleState ddFails) :=
  returns_follow (fun _ c => assigned_self c) (by cases ddFails <;> decide)

theorem sample_blockMode (ddFails : Bool) :
    BlockMode sampleArgs sampleDispatch.src sampleDispatch.installerPart (sampleReply ddFails) :=
  ⟨rfl, fun h => by cases h⟩

theorem sample_gatesPass (ddFails : Bool) :
    GatesPass sampleArgs sampleDispatch.src sampleDispatch.installerPart sampleDispatch.tempDir
      (sampleReply ddFails) :=
  ⟨Nat.le_refl 0, Or.inl rfl, Or.inr rfl, rfl⟩

/-- With a `dd` that works the sample run is honest. -/
theorem restoreBlock_propagates_sample :
    Returns (fun _ => Assigned (sampleReply false)) (upToRestore sampleArgs) State.init
        sampleDispatch (sampleState false) ∧
      BlockMode sampleArgs sampleDispatch.src sampleDispatch.installerPart (sampleReply false) ∧
      ∀ l, ReachesCopy sampleArgs sampleDispatch.src sampleDispatch.installerPart
          sampleDispatch.tempDir (sampleReply false) (sampleState false) l →
        Restored sampleArgs sampleDispatch.src sampleDispatch.installerPart
          sampleDispatch.tempDir l :=
  ⟨sample_dispatch false, sample_blockMode false,
    (restoreBlock_propagates_iff _ sampleArgs sampleDispatch (sampleState false)
      (sampleReply false) (sample_dispatch false) (sample_blockMode false)).2
      fun _ => ⟨rfl, Or.inl rfl, fun _ => rfl, rfl⟩⟩

/-- **A failed clone is not noticed**: `dd` fails, the markers and the version string are there all
the same, and control reaches `copy_efi_tree`. -/
theorem restoreBlock_ignores_dd :
    Returns (fun _ => Assigned (sampleReply true)) (upToRestore sampleArgs) State.init
        sampleDispatch (sampleState true) ∧
      ∃ l, ReachesCopy sampleArgs sampleDispatch.src sampleDispatch.installerPart
          sampleDispatch.tempDir (sampleReply true) (sampleState true) l ∧
        ¬ Restored sampleArgs sampleDispatch.src sampleDispatch.installerPart
          sampleDispatch.tempDir l := by
  refine ⟨sample_dispatch true, ?_⟩
  obtain ⟨l, hl⟩ := may_iff_trace.1
    ((restoreBlock_reaches_iff (sample_blockMode true)).2 (sample_gatesPass true))
  refine ⟨l, (trace_iff (sample_dispatch true).errexit).2 hl, fun h => ?_⟩
  obtain ⟨r, hm, hok⟩ := h.clone
  rw [(hl.answers hm).eq (by simp [cloneWrite])] at hok
  exact Bool.false_ne_true hok

end MakeUsb

end Usb

end InstallKit
