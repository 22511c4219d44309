import InstallKit.Usb.PartitionWrites

/-!
# Which partitions `linux_make_usb_legacy.sh` touches

The two writing operations of the legacy writer, and the theorem about all operations that write to
a partition.

* `Op.Accepts` : the arguments with which an operation gets as far as a write.
* `writes_guarded_iff` : the arguments for which every partition that an operation touches is a
  checked partition of `--disk`, exactly.
-/

namespace InstallKit

namespace Usb

open Shell

namespace MakeUsb

variable {W : World} {a : Args}

/-- What both writing operations do first. -/
def entry (a : Args) : Sh (String × Loc × Bool) := do
  requireLinux "This backend runs on Linux only"
  guardSection a
  prepare a

theorem main_updateEfi (h : a.mode = .updateEfi) :
    main a = entry a >>= fun v => updateEfi a v.1 v.2.1 v.2.2 := by
  simp [main, entry, h]

theorem main_makeUsb (h : a.mode = .makeUsb) :
    main a = entry a >>= fun v => makeUsb a v.1 v.2.1 v.2.2 := by
  simp [main, entry, h]

theorem calls_guardSection {P : Cmd → Prop} (hP : ∀ q, P (.query q)) : (guardSection a).Calls P := by
  simp [guardSection, requireDisk, requireWholeDisk, rootGuard, rootParent, removableGuard,
    removableFlags, hP]

theorem calls_requireLinux {P : Cmd → Prop} {msg : String} (hP : P (.query .uname)) :
    (requireLinux msg).Calls P := by
  simp [requireLinux, hP]

theorem calls_entry :
    (entry a).Calls fun c => c.direct = [] ∧ c.isPartition = false := by
  simp [entry, requireLinux, calls_guardSection, prepare, assertBuildRoot, selectBootTool,
    prepareTemp, makeTempDir, Cmd.direct, Cmd.isPartition]

/-- A passed guard section: the guards hold, and no partition has been checked. -/
theorem entry_of_returns {v : String × Loc × Bool} {t : State}
    (h : Returns W.Answers (entry a) State.init v t) :
    Unchecked W false t ∧ W.before.IsDisk a.disk ∧
      ¬ Writer.makeUsb.Refuses W.rootBefore a.disk a.allowInternal := by
  have hcalls : (entry a).Calls fun c => c.isPartition = false :=
    calls_entry.mono fun _ hc => hc.2
  have hready : Ready false t := ⟨h.errexit, World.repartitioned_of_returns hcalls h⟩
  have htruth := pkTruth_of_returns h rfl hcalls fun _ _ hm => by cases hm
  obtain ⟨_, s₁, h₁, h⟩ := returns_bind.1 h
  obtain ⟨_, s₂, h₂, h⟩ := returns_bind.1 h
  have htab : repartitioned s₁.log = false :=
    World.repartitioned_of_returns (calls_requireLinux rfl) h₁
  have hp₁ : PkRoot W s₁.log := PkRoot.of_returns (s := State.init) (fun _ _ hm => by cases hm)
    (calls_requireLinux rfl) h₁
  obtain ⟨hd, hr, hm⟩ := Writer.may_makeUsb_guardSection.1
    ((World.returns_iff (calls_guardSection fun _ => rfl) h₁.errexit htab).1 ⟨s₂, h₂⟩)
  refine ⟨⟨hready, ?_, htruth⟩, hd, ?_⟩
  · refine PkRoot.of_returns ?_ (by simp [prepare, assertBuildRoot, selectBootTool, prepareTemp,
      makeTempDir, Cmd.asksParent]) h
    obtain ⟨_, s₃, h₃, h₂⟩ := returns_bind.1 h₂
    obtain ⟨_, s₄, h₄, h₂⟩ := returns_bind.1 h₂
    have hreq : (requireDisk a).Calls fun c => c.isPartition = false ∧ c.asksParent = false := by
      simp [requireDisk, requireWholeDisk, Cmd.isPartition, Cmd.asksParent]
    have htab₃ := (World.repartitioned_of_returns (hreq.mono fun _ hc => hc.1) h₃).trans htab
    have hp₃ := hp₁.of_returns (hreq.mono fun _ hc => hc.2) h₃
    exact (hp₃.rootGuard htab₃ h₄).of_returns
      (by simp [removableGuard, removableFlags, Cmd.asksParent]) h₂
  · rintro (h | ⟨ha, hi⟩)
    · exact hr h
    · exact hm.elim (by simp [ha]) fun hn => hn hi

section Run

variable {F : Forest} {root : RootMount F}

theorem may_prepareTemp : May (F.Truthful root) (prepareTemp false) true := by
  refine may_bind.2 ⟨true, may_bind.2 ⟨.done, by simp [Script.cmd, Forest.Truthful], rfl⟩, ?_⟩
  simp [may_then, Forest.Truthful]

theorem may_prepareTemp_again : May (F.Truthful root) (prepareTemp true) true := by
  refine may_bind.2 ⟨true, rfl, ?_⟩
  simp [may_then, Forest.Truthful]

theorem may_assertBuildRoot {buildRoot : String} (hb : buildRoot ≠ "") :
    May (F.Truthful root) (assertBuildRoot buildRoot)
      (buildRoot, build buildRoot "OpenDuet/BootInstall_IA32.tool") := by
  refine may_then.2 ⟨may_orDie.2 (by simpa using hb),
    may_bind.2 ⟨_, Writer.may_readlink buildRoot, ?_⟩⟩
  simp only [may_then, may_require, Forest.truthful_query, Forest.Answers, true_and]
  refine ⟨⟨.done, rfl⟩, ⟨.done, rfl⟩, ⟨.done, rfl⟩, may_bind.2 ⟨_, may_bind.2
    ⟨true, may_holds.2 ⟨.done, trivial, rfl⟩, rfl⟩, rfl⟩⟩

theorem may_entry (hb : a.buildRoot ≠ "") (hd : F.IsDisk a.disk)
    (hr : ¬ Writer.makeUsb.Refuses root a.disk a.allowInternal) :
    May (F.Truthful root) (entry a)
      (a.buildRoot, build a.buildRoot "OpenDuet/BootInstall_IA32.tool", true) := by
  obtain ⟨hnames, hgate⟩ := not_or.1 hr
  have hm : a.allowInternal = true ∨ ¬ F.Internal a.disk := by
    by_cases ha : a.allowInternal = true <;> simp_all
  refine may_then.2 ⟨Writer.may_requireLinux _,
    may_then.2 ⟨Writer.may_makeUsb_guardSection.2 ⟨hd, hnames, hm⟩, ?_⟩⟩
  exact may_then.2 ⟨may_require.2 ⟨.done, trivial, rfl⟩,
    may_bind.2 ⟨_, may_assertBuildRoot hb, may_bind.2 ⟨_, may_prepareTemp, rfl⟩⟩⟩

theorem may_unmountDisk (disk : String) : May (F.Truthful root) (unmountDisk disk) () :=
  may_bind.2 ⟨.done, may_ask.2 trivial, rfl⟩

theorem may_settlePartitions (disk : String) : May (F.Truthful root) (settlePartitions disk) () :=
  may_then.2 ⟨may_ifHave trivial, may_then.2 ⟨may_ifHave trivial,
    may_exec.2 ⟨.done, trivial, rfl⟩⟩⟩

theorem may_confirmExact (expected : String) : May (F.Truthful root) (confirmExact expected) () :=
  may_bind.2 ⟨.lines [expected], may_askChecked.2 ⟨trivial, rfl⟩, may_orDie.2 (by simp)⟩

end Run

/-! ### `--update-efi` -/

/-- What the update accepts: a disk that passes the guards, with an ESP. -/
def AcceptsUpdate (W : World) (disk espPart : String) (allowInternal : Bool) : Prop :=
  W.before.IsDisk disk ∧ ¬ Writer.makeUsb.Refuses W.rootBefore disk allowInternal ∧
    ∃ e, W.before.selected disk espPart "1" = some e ∧ (W.before.resolve e).isSome = true

/-- The verification touches no partition. -/
theorem calls_verifyTarget {buildRoot espPart installerPart : String} {tempDir : Bool} :
    (verifyTarget a buildRoot espPart installerPart tempDir).Calls fun c =>
      c.isPartition = false ∧ c.direct = [] := by
  simp [verifyTarget, partitionExists, prepareTemp, makeTempDir, verifyEsp, verifyInstaller,
    kernelVersionOk, Cmd.direct, Cmd.isPartition]

theorem calls_copyEfiTree (disk buildRoot part : String) (tempDir : Bool) :
    (copyEfiTree disk buildRoot part tempDir).Calls fun c =>
      c.isPartition = false ∧ ∀ dev ∈ c.direct, dev = part := by
  simp [copyEfiTree, mountEsp, backupEsp, hasEfiFiles, backupIf, replaceEfi, checkCopy, Cmd.direct,
    Cmd.isPartition]

/-- After its checks, the update touches the selected ESP and nothing else. -/
theorem calls_rewriteEsp (v : String × Loc × Bool) (e : String) :
    (rewriteEsp a v.1 v.2.1 v.2.2 e).Calls fun c =>
      c.isPartition = false ∧ ∀ dev ∈ c.direct, dev ∈ [e] := by
  have hcopy := calls_copyEfiTree a.disk v.1 e v.2.2
  have hver : (verifyTarget a v.1 e a.installerPart v.2.2).Calls fun c =>
      c.isPartition = false ∧ ∀ dev ∈ c.direct, dev = e :=
    calls_verifyTarget.mono fun c hc => ⟨hc.1, by simp [hc.2]⟩
  simp only [rewriteEsp, List.mem_singleton, Script.calls_bind, hcopy, hver, true_and]
  simp [dryRunExit, confirmExact, unmountDisk, installOpenduet, Cmd.direct, Cmd.isPartition]

theorem calls_selectEsp : (selectEsp a).Calls fun c =>
    c.isPartition = false ∧ c.asksParent = false ∧ c.direct = [] := by
  simp [selectEsp, settlePartitions, selectFatEsp, Cmd.isPartition, Cmd.asksParent, Cmd.direct]

/-- `copy_efi_tree` mounts the ESP read-write. -/
theorem touch_of_copyEfiTree {α : Type} {f : Unit → Sh α} {given : List String} {s : State}
    {b : Bool} {disk buildRoot part : String}
    (h : Always W.Answers (fun s => Guarded W given a.disk s.log)
      (copyEfiTree disk buildRoot part true >>= f) s) (hs : Unchecked W b s) :
    ∃ t, Unchecked W b t ∧ Authorized W given a.disk t.log
      (.mount "-t vfat -o rw,noatime" true part (tempPath true "esp")) := by
  rw [copyEfiTree, mountEsp, bind_assoc, bind_assoc] at h
  obtain ⟨t, ht, h⟩ := unchecked_next (v := ()) h hs (by simp) (by simp [Script.setVar])
  rw [bind_assoc] at h
  obtain ⟨t, ht, h⟩ := unchecked_next (v := ()) h ht (by simp [Cmd.isPartition, Cmd.asksParent])
    (may_exec.2 ⟨.done, trivial, rfl⟩)
  exact ⟨t, ht, authorized_of_always h (by simp)⟩

theorem update_guarded_of_listed (hm : a.mode = .updateEfi)
    (h : AcceptsUpdate W a.disk a.espPart a.allowInternal → a.espPart = "" ∧
      ∀ e, W.before.selected a.disk a.espPart "1" = some e → W.before.IsPartOf e a.disk) :
    Always W.Answers (fun s => Guarded W [a.espPart] a.disk s.log) (main a) State.init := by
  rw [main_updateEfi hm]
  refine guarded_select (calls_entry.mono fun _ hc => hc.1)
    (fun _ => calls_selectEsp.mono fun _ hc => ⟨hc.2.2, hc.1⟩) calls_rewriteEsp ?_
  intro v t e t' ht ht'
  obtain ⟨hun, hd, hr⟩ := entry_of_returns ht
  obtain ⟨_, s₁, h₁, h₂⟩ := returns_bind.1 ht'
  have hs₁ : Ready false s₁ := by
    refine ⟨h₁.errexit.trans hun.ready.errexit, ?_⟩
    exact (World.repartitioned_of_returns (by simp [settlePartitions, Cmd.isPartition]) h₁).trans
      hun.ready.table
  obtain ⟨hsel, hres, hlist⟩ := returns_selectFatEsp hs₁ h₂
  obtain ⟨hesp, hpart⟩ := h ⟨hd, hr, e, hsel, hres⟩
  exact ⟨hun.ready, hesp, hpart e hsel, hres, hlist hesp⟩

/-- **No check**: an accepted ESP that was named on the command line is mounted read-write. -/
theorem listed_of_update_guarded (hm : a.mode = .updateEfi) (hb : a.buildRoot ≠ "")
    (hdry : a.dryRun = false) (hacc : AcceptsUpdate W a.disk a.espPart a.allowInternal)
    (h : Always W.Answers (fun s => Guarded W [a.espPart] a.disk s.log) (main a) State.init) :
    a.espPart = "" ∧
      ∀ e, W.before.selected a.disk a.espPart "1" = some e → W.before.IsPartOf e a.disk := by
  obtain ⟨hd, hr, e, hsel, hres⟩ := hacc
  rw [main_updateEfi hm] at h
  obtain ⟨t, ht, -, h⟩ := always_next h ready_init (calls_entry.mono fun _ hc => hc.2)
    (may_entry hb hd hr)
  obtain ⟨t, ht, h⟩ := unchecked_next h (entry_of_returns ht).1
    (calls_selectEsp.mono fun _ hc => ⟨hc.1, hc.2.1⟩)
    (may_then.2 ⟨may_settlePartitions _, may_selectFatEsp.2 ⟨hsel, hres⟩⟩)
  obtain ⟨t, ht, h⟩ := unchecked_next (v := ()) h ht
    (by simp [dryRunExit, Cmd.isPartition, Cmd.asksParent]) (by simp [dryRunExit, hdry])
  obtain ⟨t, ht, h⟩ := unchecked_next h ht
    (by simp [confirmExact, Cmd.isPartition, Cmd.asksParent]) (may_confirmExact _)
  obtain ⟨t, ht, h⟩ := unchecked_next h ht
    (by simp [unmountDisk, Cmd.isPartition, Cmd.asksParent]) (may_unmountDisk _)
  obtain ⟨t, ht, h⟩ := touch_of_copyEfiTree h ht
  exact listed_of_authorized ht (List.mem_singleton_self _) (not_or.1 hr).1 hsel
    (by simp [Cmd.direct]) h

/-! ### `--make-usb` -/

/-- What the writer accepts: a disk that passes the guards and, once it is repartitioned, two
partitions. -/
def AcceptsMake (W : World) (disk espPart installerPart : String) (allowInternal : Bool) : Prop :=
  W.before.IsDisk disk ∧ ¬ Writer.makeUsb.Refuses W.rootBefore disk allowInternal ∧
    ∃ e i, W.after.selected disk espPart "1" = some e ∧
      W.after.selected disk installerPart "2" = some i ∧
      (W.after.resolve e).isSome = true ∧ (W.after.resolve i).isSome = true

theorem may_findPartitions {F : Forest} {root : RootMount F} {e i : String} :
    May (F.Truthful root) (findPartitions a) (e, i) ↔
      F.selected a.disk a.espPart "1" = some e ∧ F.selected a.disk a.installerPart "2" = some i ∧
        (F.resolve e).isSome = true ∧ (F.resolve i).isSome = true := by
  simp only [findPartitions, may_bind, may_selectPartition]
  constructor
  · rintro ⟨v, hv, w, hw, _, hb, _, hb', h⟩
    obtain ⟨rfl, rfl⟩ := Prod.mk.inj (may_ret.1 h)
    exact ⟨hv, hw, may_requireBlock.1 hb, may_requireBlock.1 hb'⟩
  · rintro ⟨hv, hw, hb, hb'⟩
    exact ⟨e, hv, i, hw, (), may_requireBlock.2 hb, (), may_requireBlock.2 hb', rfl⟩

theorem calls_findPartitions : (findPartitions a).Calls fun c =>
    c.isPartition = false ∧ c.asksParent = false ∧ c.direct = [] := by
  simp [findPartitions, Cmd.isPartition, Cmd.asksParent, Cmd.direct]

/-- The two partitions, and where they come from. -/
theorem returns_findPartitions {e i : String} {s t : State} (hs : Ready true s)
    (h : Returns W.Answers (findPartitions a) s (e, i) t) :
    W.after.selected a.disk a.espPart "1" = some e ∧
      W.after.selected a.disk a.installerPart "2" = some i ∧
      (W.after.resolve e).isSome = true ∧ (W.after.resolve i).isSome = true ∧
      (a.espPart = "" → Listed a.disk e t.log) ∧
      (a.installerPart = "" → Listed a.disk i t.log) := by
  obtain ⟨he, hi, hre, hri⟩ := may_findPartitions.1 ((World.returns_iff
    (calls_findPartitions.mono fun _ hc => hc.1) hs.errexit hs.table).1 ⟨t, h⟩)
  refine ⟨he, hi, hre, hri, ?_⟩
  obtain ⟨v, s₁, h₁, h⟩ := returns_bind.1 h
  obtain ⟨w, s₂, h₂, h⟩ := returns_bind.1 h
  have hs₁ : s₁.errexit = true := h₁.errexit.trans hs.errexit
  have ht₁ : repartitioned s₁.log = true :=
    (World.repartitioned_of_returns (by simp [Cmd.isPartition]) h₁).trans hs.table
  obtain ⟨hv, hlv⟩ := returns_selectPartition hs.errexit h₁
  obtain ⟨hw, hlw⟩ := returns_selectPartition hs₁ h₂
  rw [World.forest, hs.table] at hv
  rw [World.forest, ht₁] at hw
  obtain rfl : v = e := Option.some.inj (hv.symm.trans he)
  obtain rfl : w = i := Option.some.inj (hw.symm.trans hi)
  exact ⟨fun hp => (hlv hp).mono (h₂.log_suffix.trans h.log_suffix).subset,
    fun hp => (hlw hp).mono h.log_suffix.subset⟩

theorem calls_findCandidate {P : Cmd → Prop} {mount : Loc} {want : String → Bool}
    {lines : List String} (hu : P (.umount mount true)) (hq : ∀ t l, P (.query (.test t l)))
    (hm : ∀ dev, P (.mount "-o ro" false dev mount)) : (findCandidate mount want lines).Calls P := by
  induction lines with
  | nil => trivial
  | cons line lines ih =>
    unfold findCandidate
    dsimp only
    split
    · exact ih
    · split
      · exact ih
      · refine Script.calls_bind.2 ⟨?_, fun o _ => ?_⟩
        · simp [trySourceCandidate, sourceHasInstallerMarkers, hu, hq, hm]
        cases o with
        | none => exact ih
        | some src => trivial

theorem calls_findInstallerVolume {P : Cmd → Prop} {source loop : String} {mount : Loc}
    (hl : P (.query (.lsblkFstypes loop))) (hu : P (.umount mount true))
    (hq : ∀ t l, P (.query (.test t l))) (hm : ∀ dev, P (.mount "-o ro" false dev mount)) :
    (findInstallerVolume source loop mount).Calls P := by
  have horElse : ∀ (o : Option Source) (p : Sh Source), p.Calls P → (orElse o p).Calls P := by
    intro o p hp
    cases o with
    | none => exact hp
    | some src => trivial
  simp only [findInstallerVolume, Script.calls_bind, calls_ask, hl, calls_findCandidate hu hq hm,
    true_and]
  intro r _ o _
  refine horElse _ _ ?_
  simp only [Script.calls_bind, calls_ask, hl, calls_findCandidate hu hq hm, true_and]
  exact fun r _ o _ => horElse _ _ trivial

/-- Everything before the disk is repartitioned touches no partition. -/
theorem calls_preflight {tempDir : Bool} : (preflight a tempDir).Calls fun c =>
    c.isPartition = false ∧ c.asksParent = false ∧ c.direct = [] := by
  have hrest : ∀ src mode, (requireRestore src mode).Calls fun c =>
      c.isPartition = false ∧ c.asksParent = false ∧ c.direct = [] := by
    intro src mode
    cases mode <;> simp [requireRestore, Cmd.isPartition, Cmd.asksParent, Cmd.direct]
  simp only [preflight, Script.calls_bind, hrest, true_and]
  simp [requireInputs, requireCommands, prepareSourceImage, prepareTemp, makeTempDir,
    sourceHasInstallerMarkers, convertImage, calls_findInstallerVolume, printSourceReport,
    confirmErase, confirmExact, Cmd.isPartition, Cmd.asksParent, Cmd.direct]

theorem calls_restoreFiles {src : Source} {i : String} {tempDir : Bool} :
    (restoreFiles a src i tempDir).Calls fun c =>
      c.isPartition = false ∧ ∀ dev ∈ c.direct, dev = i := by
  simp [restoreFiles, mountHfsRw, sourceHasInstallerMarkers, installAmdKernel, backupKernel,
    kernelVersionOk, Cmd.direct, Cmd.isPartition]

theorem calls_restoreBlock {src : Source} {i : String} {tempDir : Bool} :
    (restoreBlock a src i tempDir).Calls fun c =>
      c.isPartition = false ∧ ∀ dev ∈ c.direct, dev = i := by
  simp [restoreBlock, cloneAndPatch, releaseSource, checkClone, cloneWrite, mountHfsRw,
    sourceHasInstallerMarkers, installAmdKernel, backupKernel, kernelVersionOk, Cmd.direct,
    Cmd.isPartition]

/-- Restoring the installer touches the installer partition and nothing else. -/
theorem calls_restore {src : Source} {i : String} {tempDir : Bool} :
    (restore a src i tempDir).Calls fun c =>
      c.isPartition = false ∧ ∀ dev ∈ c.direct, dev = i := by
  unfold restore
  split
  · refine Script.calls_bind.2 ⟨Script.calls_unchecked.2 calls_restoreBlock, fun r _ => ?_⟩
    cases r with
    | fallback => exact calls_restoreFiles
    | status n => cases n <;> trivial
  · exact calls_restoreFiles

/-- After the partitions are known, the writer touches these two and nothing else. -/
theorem calls_write (buildRoot : String) (bootTool : Loc) (tempDir : Bool) (src : Source)
    (e i : String) :
    (do
      exec (.mkfs .vfat e)
      restore a src i tempDir
      finish a buildRoot bootTool e i tempDir : Sh ℕ).Calls fun c =>
        c.isPartition = false ∧ ∀ dev ∈ c.direct, dev ∈ [e, i] := by
  have hcopy : (copyEfiTree a.disk buildRoot e tempDir).Calls
      fun c => c.isPartition = false ∧ ∀ dev ∈ c.direct, dev ∈ [e, i] :=
    (calls_copyEfiTree a.disk buildRoot e tempDir).mono
      fun c hc => ⟨hc.1, fun dev hd => by simp [hc.2 dev hd]⟩
  have hrest : (restore a src i tempDir).Calls
      fun c => c.isPartition = false ∧ ∀ dev ∈ c.direct, dev ∈ [e, i] :=
    calls_restore.mono fun c hc => ⟨hc.1, fun dev hd => by simp [hc.2 dev hd]⟩
  have hver : (verifyTarget a buildRoot e i tempDir).Calls
      fun c => c.isPartition = false ∧ ∀ dev ∈ c.direct, dev ∈ [e, i] :=
    calls_verifyTarget.mono fun c hc => ⟨hc.1, by simp [hc.2]⟩
  simp only [finish, Script.calls_bind, hcopy, hrest, hver, true_and]
  simp [installOpenduet, Cmd.direct, Cmd.isPartition]

theorem repartitioned_of_repartition {A : Log → Cmd → Reply → Prop} {s t : State} {u : Unit}
    (h : Returns A (repartition a) s u t) : repartitioned t.log = true := by
  obtain ⟨_, s₁, h₁, h⟩ := returns_bind.1 h
  simp only [exec, Script.cmd, Script.call_bind, Script.ret_bind, Script.pure_eq, returns_call,
    returns_ret] at h₁
  obtain ⟨r, -, -, -, rfl⟩ := h₁
  have hm : (Cmd.partition "sgdisk --zap-all" a.disk, r) ∈ t.log :=
    h.log_suffix.subset (List.mem_cons_self ..)
  exact List.any_eq_true.2 ⟨_, hm, rfl⟩

theorem make_guarded_of_listed (hm : a.mode = .makeUsb)
    (h : AcceptsMake W a.disk a.espPart a.installerPart a.allowInternal →
      a.espPart = "" ∧ a.installerPart = "" ∧
      (∀ e, W.after.selected a.disk a.espPart "1" = some e → W.after.IsPartOf e a.disk) ∧
      ∀ i, W.after.selected a.disk a.installerPart "2" = some i → W.after.IsPartOf i a.disk) :
    Always W.Answers (fun s => Guarded W [a.espPart, a.installerPart] a.disk s.log) (main a)
      State.init := by
  rw [main_makeUsb hm]
  have hentry : (entry a).Calls fun c => c.direct = [] := calls_entry.mono fun _ hc => hc.1
  have hpre : ∀ td, (preflight a td).Calls fun c => c.direct = [] :=
    fun td => calls_preflight.mono fun _ hc => hc.2.2
  have hun : (unmountDisk a.disk).Calls fun c => c.direct = [] := by
    simp [unmountDisk, Cmd.direct]
  have hrep : (repartition a).Calls fun c => c.direct = [] := by
    simp [repartition, settlePartitions, Cmd.direct]
  have hfind : (findPartitions a).Calls fun c => c.direct = [] :=
    calls_findPartitions.mono fun _ hc => hc.2.2
  -- nothing is written to a partition before they are found
  have inv₀ : GuardInv W [a.espPart, a.installerPart] a.disk [] State.init.log := .nil
  refine Always.bind (always_guarded_nil hentry inv₀) fun v s₁ h₁ => ?_
  have inv₁ := GuardInv.of_returns hentry inv₀ h₁
  refine Always.bind (always_guarded_nil (hpre _) inv₁) fun w s₂ h₂ => ?_
  have inv₂ := GuardInv.of_returns (hpre _) inv₁ h₂
  refine Always.bind (always_guarded_nil hun inv₂) fun _ s₃ h₃ => ?_
  have inv₃ := GuardInv.of_returns hun inv₂ h₃
  refine Always.bind (always_guarded_nil hrep inv₃) fun _ s₄ h₄ => ?_
  have inv₄ := GuardInv.of_returns hrep inv₃ h₄
  refine Always.bind (always_guarded_nil hfind inv₄) fun ei s₅ h₅ => ?_
  have inv₅ := GuardInv.of_returns hfind inv₄ h₅
  obtain ⟨e, i⟩ := ei
  -- the two that are found are new ones of the disk
  have hready : Ready true s₄ := by
    refine ⟨?_, repartitioned_of_repartition h₄⟩
    rw [h₄.errexit, h₃.errexit, h₂.errexit, h₁.errexit]
    rfl
  obtain ⟨he, hi, hre, hri, hle, hli⟩ := returns_findPartitions hready h₅
  obtain ⟨-, hd, hr⟩ := entry_of_returns h₁
  obtain ⟨hesp, hinst, hpe, hpi⟩ := h ⟨hd, hr, e, i, he, hi, hre, hri⟩
  have htab : repartitioned s₅.log = true := (World.repartitioned_of_returns
    (calls_findPartitions.mono fun _ hc => hc.1) h₅).trans hready.table
  refine always_guarded (calls_write _ _ _ _ e i) (inv₅.extend ?_)
  have hchk : ∀ dev, (W.after.resolve dev).isSome = true → Listed a.disk dev s₅.log →
      Checked [a.espPart, a.installerPart] a.disk dev s₅.log := by
    intro dev hres hl
    refine Or.inr ⟨?_, hl⟩
    rintro hmem
    have : dev = "" := by simpa [hesp, hinst] using hmem
    simp [this, Forest.resolve_empty] at hres
  intro dev hdev
  rw [World.forest, htab]
  rcases List.mem_cons.1 hdev with rfl | hdev
  · exact ⟨hpe _ he, hchk _ hre (hle hesp)⟩
  · rw [List.mem_singleton] at hdev
    subst hdev
    exact ⟨hpi _ hi, hchk _ hri (hli hinst)⟩

/-- A retail source that is a directory passes every check. -/
theorem may_preflight {F : Forest} {root : RootMount F} (hr : a.retail ≠ "")
    (hk : a.amdKernel ≠ "") (hf : a.restoreMode = .files) (hdry : a.dryRun = false) :
    May (F.Truthful root) (preflight a true) (true, ⟨.host a.retail, "directory", ""⟩) := by
  have hinputs : May (F.Truthful root) (requireInputs a) () := by
    simp only [requireInputs, may_then, may_orDie, may_require, Forest.truthful_query,
      Forest.Answers, true_and, decide_eq_true_eq]
    exact ⟨hr, ⟨.done, rfl⟩, hk, ⟨.done, rfl⟩, may_requireCommands _⟩
  have hsrc : May (F.Truthful root) (prepareSourceImage a.retail true)
      (true, ⟨.host a.retail, "directory", ""⟩) := by
    refine may_then.2 ⟨may_require.2 ⟨.done, trivial, rfl⟩, may_bind.2
      ⟨true, may_prepareTemp_again, may_bind.2 ⟨true, may_holds.2 ⟨.done, trivial, rfl⟩, ?_⟩⟩⟩
    refine may_bind.2 ⟨_, Writer.may_readlink _, may_then.2 ⟨by simp [Script.setVar], ?_⟩⟩
    refine may_bind.2 ⟨true, may_bind.2 ⟨true, may_holds.2 ⟨.done, trivial, rfl⟩, rfl⟩, ?_⟩
    exact may_then.2 ⟨may_orDie.2 rfl, rfl⟩
  refine may_then.2 ⟨hinputs, may_bind.2 ⟨_, hsrc, ?_⟩⟩
  have hreport : May (F.Truthful root)
      (printSourceReport ⟨.host a.retail, "directory", ""⟩) () := by
    simp only [printSourceReport, ne_eq, not_true_eq_false, if_false]
    exact may_bind.2 ⟨true, may_holds.2 ⟨.done, trivial, rfl⟩,
      may_bind.2 ⟨true, may_holds.2 ⟨.done, trivial, rfl⟩, rfl⟩⟩
  refine may_then.2 ⟨hreport, may_then.2 ⟨?_, may_then.2 ⟨?_, rfl⟩⟩⟩
  · simp only [selectedRestore, hf, requireRestore]
    exact may_require.2 ⟨.done, trivial, rfl⟩
  · simp only [confirmErase, hdry, Bool.false_eq_true, if_false]
    exact may_then.2 ⟨may_exec.2 ⟨.done, trivial, rfl⟩, may_confirmExact _⟩

/-- **No check**: an accepted partition that was named on the command line is formatted. -/
theorem listed_of_make_guarded (hm : a.mode = .makeUsb) (hb : a.buildRoot ≠ "")
    (hr : a.retail ≠ "") (hk : a.amdKernel ≠ "") (hf : a.restoreMode = .files)
    (hdry : a.dryRun = false)
    (hacc : AcceptsMake W a.disk a.espPart a.installerPart a.allowInternal)
    (h : Always W.Answers (fun s => Guarded W [a.espPart, a.installerPart] a.disk s.log) (main a)
      State.init) :
    a.espPart = "" ∧ a.installerPart = "" ∧
      (∀ e, W.after.selected a.disk a.espPart "1" = some e → W.after.IsPartOf e a.disk) ∧
      ∀ i, W.after.selected a.disk a.installerPart "2" = some i → W.after.IsPartOf i a.disk := by
  obtain ⟨hd, href, e, i, he, hi, hre, hri⟩ := hacc
  have hnames := (not_or.1 href).1
  -- a run that gets to the first write to the ESP
  rw [main_makeUsb hm] at h
  obtain ⟨t, ht, -, h⟩ := always_next h ready_init (calls_entry.mono fun _ hc => hc.2)
    (may_entry hb hd href)
  obtain ⟨t, ht, h⟩ := unchecked_next h (entry_of_returns ht).1
    (calls_preflight.mono fun _ hc => ⟨hc.1, hc.2.1⟩) (may_preflight hr hk hf hdry)
  obtain ⟨t, ht, h⟩ := unchecked_next h ht
    (by simp [unmountDisk, Cmd.isPartition, Cmd.asksParent]) (may_unmountDisk _)
  rw [repartition, bind_assoc] at h
  obtain ⟨t, ht, h⟩ := unchecked_partition h ht
  rw [bind_assoc] at h
  obtain ⟨t, ht, h⟩ := unchecked_partition h ht
  rw [bind_assoc] at h
  obtain ⟨t, ht, h⟩ := unchecked_partition h ht
  obtain ⟨t, ht, h⟩ := unchecked_next h ht
    (by simp [settlePartitions, Cmd.isPartition, Cmd.asksParent]) (may_settlePartitions _)
  obtain ⟨t, ht, h⟩ := unchecked_next h ht
    (calls_findPartitions.mono fun _ hc => ⟨hc.1, hc.2.1⟩)
    (may_findPartitions.2 ⟨he, hi, hre, hri⟩)
  obtain ⟨hesp, hpe⟩ := listed_of_authorized ht (by simp) hnames he (by simp [Cmd.direct])
    (authorized_of_always h (by simp))
  obtain ⟨t, ht, h⟩ := unchecked_next (v := ()) h ht (by simp [Cmd.isPartition, Cmd.asksParent])
    (may_exec.2 ⟨.done, trivial, rfl⟩)
  -- and on to the first write to the installer
  simp only [restore, selectedRestore, hf, reduceCtorEq, if_false, restoreFiles] at h
  rw [bind_assoc] at h
  obtain ⟨hinst, hpi⟩ := listed_of_authorized ht (by simp) hnames hi (by simp [Cmd.direct])
    (authorized_of_always h (by simp))
  exact ⟨hesp, hinst, hpe, hpi⟩

end MakeUsb

/-! ### All operations -/

/-- The operations that write to a partition. -/
inductive Op
  /-- `linux_install_openduet.sh`. -/
  | installOpenduet
  /-- `linux_update_efi.sh`. -/
  | updateEfi
  /-- `repair_openduet_esp.sh`. -/
  | repair
  /-- `linux_make_usb_legacy.sh --update-efi`. -/
  | legacyUpdate
  /-- `linux_make_usb_legacy.sh --make-usb`. -/
  | legacyMake
  deriving DecidableEq, Repr

namespace Op

variable (W : World) (disk espPart installerPart : String) (allowInternal : Bool)

/-- In every truthful run with these arguments, each command only touches checked partitions of
`--disk`. -/
def WritesGuarded : Op → Prop
  | installOpenduet => ∀ a : InstallOpenduet.Args, a.disk = disk → a.espPart = espPart →
      Always W.Answers (fun s => Guarded W [espPart] disk s.log) (InstallOpenduet.main a) State.init
  | updateEfi => ∀ a : UpdateEfi.Args, a.disk = disk → a.espPart = espPart →
      a.allowInternal = allowInternal →
      Always W.Answers (fun s => Guarded W [espPart] disk s.log) (UpdateEfi.main a) State.init
  | repair => ∀ a : RepairEsp.Args, a.disk = disk → a.espPart = espPart →
      Always W.Answers (fun s => Guarded W [espPart] disk s.log) (RepairEsp.main a) State.init
  | legacyUpdate => ∀ a : MakeUsb.Args, a.mode = .updateEfi → a.disk = disk →
      a.espPart = espPart → a.installerPart = installerPart → a.allowInternal = allowInternal →
      Always W.Answers (fun s => Guarded W [espPart] disk s.log) (MakeUsb.main a) State.init
  | legacyMake => ∀ a : MakeUsb.Args, a.mode = .makeUsb → a.disk = disk →
      a.espPart = espPart → a.installerPart = installerPart → a.allowInternal = allowInternal →
      Always W.Answers (fun s => Guarded W [espPart, installerPart] disk s.log) (MakeUsb.main a)
        State.init

/-- The arguments with which the operation gets as far as a write. -/
def Accepts : Op → Prop
  | installOpenduet => InstallOpenduet.Accepts W.before disk espPart
  | updateEfi => UpdateEfi.Accepts W disk espPart allowInternal
  | repair => RepairEsp.Accepts W disk espPart
  | legacyUpdate => MakeUsb.AcceptsUpdate W disk espPart allowInternal
  | legacyMake => MakeUsb.AcceptsMake W disk espPart installerPart allowInternal

/-- The installer is given a partition; the others are given no partition, and find partitions of
the disk itself. -/
def Safe : Op → Prop
  | installOpenduet => ∃ y, W.before.device espPart = some y ∧ y.type = .part
  | updateEfi | repair | legacyUpdate => espPart = "" ∧
      ∀ e, W.before.selected disk espPart "1" = some e → W.before.IsPartOf e disk
  | legacyMake => espPart = "" ∧ installerPart = "" ∧
      (∀ e, W.after.selected disk espPart "1" = some e → W.after.IsPartOf e disk) ∧
      ∀ i, W.after.selected disk installerPart "2" = some i → W.after.IsPartOf i disk

end Op

/-- **Partition membership, exactly**: an operation touches only checked partitions of `--disk` iff
it accepts no other kind of arguments than safe ones. -/
theorem writes_guarded_iff (op : Op) (W : World) (disk espPart installerPart : String)
    (allowInternal : Bool) :
    op.WritesGuarded W disk espPart installerPart allowInternal ↔
      (op.Accepts W disk espPart installerPart allowInternal →
        op.Safe W disk espPart installerPart) := by
  cases op with
  | installOpenduet =>
    constructor
    · intro h hacc
      exact InstallOpenduet.part_of_guarded (a := ⟨disk, espPart, "build", false⟩) (by simp) hacc
        (h _ rfl rfl)
    · rintro h a rfl rfl
      exact InstallOpenduet.guarded_of_part h
  | updateEfi =>
    constructor
    · intro h hacc
      exact UpdateEfi.listed_of_guarded (a := ⟨"", disk, espPart, "build", allowInternal, false⟩)
        (by simp) rfl hacc (h _ rfl rfl rfl)
    · rintro h a rfl rfl rfl
      exact UpdateEfi.guarded_of_listed h
  | repair =>
    constructor
    · intro h hacc
      exact RepairEsp.listed_of_guarded (a := ⟨disk, "build", espPart, false⟩) (by simp) rfl hacc
        (h _ rfl rfl)
    · rintro h a rfl rfl
      exact RepairEsp.guarded_of_listed h
  | legacyUpdate =>
    constructor
    · intro h hacc
      exact MakeUsb.listed_of_update_guarded (a := ⟨.updateEfi, disk, "", "build", "", espPart,
        installerPart, "", .auto, "", allowInternal, false⟩) rfl (by simp) rfl hacc
        (h _ rfl rfl rfl rfl rfl)
    · rintro h a hm rfl rfl rfl rfl
      exact MakeUsb.update_guarded_of_listed hm h
  | legacyMake =>
    constructor
    · intro h hacc
      exact MakeUsb.listed_of_make_guarded (a := ⟨.makeUsb, disk, "retail", "build", "kernel",
        espPart, installerPart, "", .files, "", allowInternal, false⟩) rfl (by simp) (by simp)
        (by simp) rfl rfl hacc (h _ rfl rfl rfl rfl rfl)
    · rintro h a hm rfl rfl rfl rfl
      exact MakeUsb.make_guarded_of_listed hm h

/-- The devices of `twoDisks`, which no operation changes. -/
def twoDisksWorld : World :=
  ⟨twoDisks, twoDisks, ⟨"/dev/sda1", "sda1", none, by decide⟩, ⟨"/dev/sda1", "sda1", none, by decide⟩⟩

/-- `linux_update_efi.sh --disk /dev/sdb --esp-part /dev/sda1` touches the partition that carries
`/`. -/
theorem updateEfi_touches_other_disk :
    ¬ Op.updateEfi.WritesGuarded twoDisksWorld "/dev/sdb" "/dev/sda1" "" false := by
  intro h
  have hacc : UpdateEfi.Accepts twoDisksWorld "/dev/sdb" "/dev/sda1" false := by
    refine ⟨⟨_, rfl, rfl⟩, ?_, "/dev/sda1", rfl, rfl⟩
    rintro ((h | ⟨x, p, hx, hp, h⟩) | ⟨-, x, hx, h, -⟩)
    · revert h; decide
    · cases hx; cases hp; revert h; decide
    · cases hx; cases h
  have hs := UpdateEfi.listed_of_guarded (a := ⟨"", "/dev/sdb", "/dev/sda1", "build", false, false⟩)
    (by simp) rfl hacc (h _ rfl rfl rfl)
  exact absurd hs.1 (by decide)

end Usb

end InstallKit
