import InstallKit.Usb.BlockRestore
import InstallKit.Usb.LegacyWrites

/-!
# What `--verify` of `linux_make_usb_legacy.sh` verifies

The verification of a volume is skipped where its partition is no block device, and a verification
that is skipped does not count against the disk.

* `Verified` : the log of a run in which both volumes were mounted read-only and passed their
  checks;
* `verify_verifies_iff` : a run that ends with status zero has verified the disk just if both
  partitions are block devices.
-/

namespace InstallKit

namespace Usb

open Shell

namespace MakeUsb

/-! ### What is to be verified -/

/-- Where the ESP is mounted. -/
def verifyEspDir : Loc := .tmp "verify-esp"

/-- Where the installer volume is mounted. -/
def verifyInstallerDir : Loc := .tmp "verify-installer"

/-- The test for a file. -/
def isFile (l : Loc) : Cmd := .query (.test .f l)

/-- The commands between the two ends of a mount, newest first. -/
def whileMounted (dev : String) (dir : Loc) (mounted unmounted : Reply) (l : Log) : Log :=
  (.umount dir false, unmounted) :: l ++ [(.mount "-o ro" false dev dir, mounted)]

/-- The test for the kernel that the build has staged, if there is a build. -/
def stagedTest (buildRoot : String) (staged : Reply) : Log :=
  if buildRoot = "" then [] else [(isFile (build buildRoot "ESP/Kernels/kernel"), staged)]

/-- A volume was mounted read-only as the ESP and passed its checks. -/
def EspVerified (buildRoot : String) (l : Log) : Prop :=
  ∃ dev mounted config boot staged kernel unmounted,
    whileMounted dev verifyEspDir mounted unmounted
      ((isFile (.sub verifyEspDir "Kernels/kernel"), kernel) :: stagedTest buildRoot staged ++
        [(isFile (.sub verifyEspDir "boot"), boot),
          (isFile (.sub verifyEspDir "EFI/OC/config.plist"), config)]) <:+: l ∧
    mounted.ok ∧ config.ok ∧ boot.ok ∧ unmounted.ok ∧
    (buildRoot ≠ "" → staged.ok → kernel.ok)

/-- The test for the expected version, if there is one. -/
def versionTest (expected : String) (version : Reply) : Log :=
  if expected = "" then []
  else [(.query (.grep ("Darwin Kernel Version " ++ expected) (.sub verifyInstallerDir "mach_kernel")),
    version)]

/-- A volume was mounted read-only as the installer and passed its checks. -/
def InstallerVerified (expected : String) (l : Log) : Prop :=
  ∃ dev mounted bootEfi kernel version unmounted,
    whileMounted dev verifyInstallerDir mounted unmounted
      (versionTest expected version ++
        [(isFile (.sub verifyInstallerDir "mach_kernel"), kernel),
          (isFile (.sub verifyInstallerDir "System/Library/CoreServices/boot.efi"), bootEfi)]) <:+: l ∧
    mounted.ok ∧ bootEfi.ok ∧ kernel.ok ∧ unmounted.ok ∧ (expected ≠ "" → version.ok)

/-- Both volumes were verified. -/
def Verified (a : Args) (l : Log) : Prop :=
  EspVerified a.buildRoot l ∧ InstallerVerified a.expectedKernelVersion l

/-- A run that ends with status zero, and the commands that it has run. -/
def ExitsZero (F : Forest) (root : RootMount F) (a : Args) (l : Log) : Prop :=
  ∃ m s, Reach (fun _ => F.Truthful root) (main a, State.init) (.exit 0 m, s) ∧ s.log = l

/-- Both partitions, given or found by their numbers, are block devices. -/
def BlockPartitions (F : Forest) (a : Args) : Prop :=
  ∃ e i, F.selected a.disk a.espPart "1" = some e ∧
    F.selected a.disk a.installerPart "2" = some i ∧
    (F.resolve e).isSome = true ∧ (F.resolve i).isSome = true

/-! ### The runs -/

variable {F : Forest} {root : RootMount F} {a : Args} {l : Log} {A : Cmd → Reply → Prop}
  {buildRoot expected : String}

/-- What `--verify` does before it looks at the partitions. -/
def verifySetup (a : Args) : Sh Bool := do
  requireLinux "This backend runs on Linux only"
  guardSection a
  require .euid "--verify requires root to mount partitions read-only"
  prepareTemp false

theorem main_verify (h : a.mode = .verify) :
    main a = (verifySetup a >>= fun tempDir =>
      verifyTarget a a.buildRoot a.espPart a.installerPart tempDir) >>=
        fun status => Script.exit status "" := by
  simp [main, verifySetup, verify, h]

theorem fails_findPartition (number : String) (ns : List String) :
    (findPartition number ns).Fails := by
  induction ns with
  | nil => trivial
  | cons n ns ih => simp [findPartition, holds, ask, ih]

@[simp] theorem fails_orDie (b : Bool) (msg : String) : (orDie b msg).Fails := by
  cases b <;> simp [orDie, die]

@[simp] theorem fails_orFail (o : Option String) : (orFail o).Fails := by
  cases o <;> simp [orFail]

@[simp] theorem fails_selectPartition (disk part number : String) :
    (selectPartition disk part number).Fails := by
  simp [selectPartition, partitionPath, ask, fails_findPartition]

/-- The verification leaves with status zero only at its end. -/
theorem fails_verification :
    (verifySetup a >>= fun tempDir =>
      verifyTarget a a.buildRoot a.espPart a.installerPart tempDir).Fails := by
  simp [verifySetup, requireLinux, guardSection, requireDisk, requireWholeDisk, rootGuard,
    rootParent, removableGuard, removableFlags, prepareTemp, makeTempDir, verifyTarget,
    partitionExists, verifyEsp, verifyInstaller, kernelVersionOk, require, holds, ask, askChecked,
    exec, die]

theorem exitsZero_iff (h : a.mode = .verify) :
    ExitsZero F root a l ↔ Trace (F.Truthful root) (verifySetup a >>= fun tempDir =>
      verifyTarget a a.buildRoot a.espPart a.installerPart tempDir) 0 l := by
  rw [ExitsZero, main_verify h, ← trace_iff (s := State.init) rfl]
  constructor
  · rintro ⟨m, s, hr, rfl⟩
    rcases hr.bind_cases with ⟨q, t, hq, hx⟩ | ⟨n, t, hn, hr⟩
    · cases q with
      | ret n =>
        cases hx
        exact ⟨_, hq, by simp [State.init]⟩
      | exit n m' =>
        cases hx
        exact absurd rfl (fails_verification.ne_zero hq)
      | assign g q => cases hx
      | status n chk q => cases hx
      | call c chk k => cases hx
    · cases Reach.eq_of_outcome? rfl hr
      exact ⟨_, hn, by simp [State.init]⟩
  · rintro ⟨t, ht, hl⟩
    exact ⟨"", t, Reach.bind_ret ht _, by simpa [State.init] using hl⟩

/-! ### The parts of a run -/

@[simp] theorem trace_exec {c : Cmd} {u : Unit} :
    Trace A (exec c) u l ↔ ∃ r, A c r ∧ r.ok = true ∧ l = [(c, r)] := by
  simp only [exec, Script.cmd_bind, Script.pure_eq, Trace, Bool.true_and, bne_eq_false_iff_eq,
    exitStatus_reply, Reply.ok_iff]
  constructor
  · rintro ⟨r, hA, hr, _, ⟨-, rfl⟩, rfl⟩
    exact ⟨r, hA, hr, rfl⟩
  · rintro ⟨r, hA, hr, rfl⟩
    exact ⟨r, hA, hr, [], ⟨trivial, rfl⟩, rfl⟩

@[simp] theorem trace_attempt_cmd {c : Cmd} {r : Reply} :
    Trace A (Script.attempt c : Sh Reply) r l ↔ A c r ∧ l = [(c, r)] := by
  simp only [Script.attempt, trace_attempt, trace_ret]
  constructor
  · rintro ⟨r', hA, _, ⟨rfl, rfl⟩, rfl⟩; exact ⟨hA, rfl⟩
  · rintro ⟨hA, rfl⟩; exact ⟨r, hA, [], ⟨rfl, rfl⟩, rfl⟩

theorem trace_prepareTemp {tempDir v : Bool} (h : Trace A (prepareTemp tempDir) v l) :
    v = true := by
  have hmk : ∀ {w : Bool} {k : Log}, Trace A (makeTempDir tempDir) w k → w = true := by
    intro w k hw
    cases tempDir with
    | true => exact hw.1
    | false =>
      obtain ⟨r, -, hr, k', hw, -⟩ := hw
      rw [hw.1, Reply.ok_iff]
      simpa using hr
  obtain ⟨w, k, k', hw, h, -⟩ := trace_bind.1 h
  simp only [Script.setVar_bind, trace_assign, trace_bind] at h
  obtain ⟨-, -, -, -, ⟨rfl, -⟩, -⟩ := h
  exact hmk hw

/-- A partition is looked at just if it is a block device. -/
theorem trace_partitionExists {part : String} {b : Bool}
    (h : Trace (F.Truthful root) (partitionExists part) b l) : b = (F.resolve part).isSome := by
  unfold partitionExists at h
  by_cases hp : part = ""
  · rw [if_pos hp] at h
    rw [hp, Forest.resolve_empty]
    exact h.1
  · rw [if_neg hp, trace_holds] at h
    obtain ⟨r, hr, rfl, -⟩ := h
    exact hr

/-- A mount that fails is remembered, and one that succeeds is followed by the checks. -/
theorem trace_mounted {dev : String} {dir : Loc} {p : Sh Bool}
    (h : Trace A (do
      exec (.mkdir [dir])
      if !(← Script.attempt (.mount "-o ro" false dev dir)).ok then return false
      p) true l) :
    ∃ made mounted k, mounted.ok = true ∧ Trace A p true k ∧
      l = k ++ [(.mount "-o ro" false dev dir, mounted), (.mkdir [dir], made)] := by
  simp only [trace_bind, trace_exec, trace_attempt_cmd] at h
  obtain ⟨_, _, _, ⟨made, -, -, rfl⟩, ⟨mounted, _, k, ⟨-, rfl⟩, h, rfl⟩, rfl⟩ := h
  cases hm : mounted.ok with
  | false => simp [hm] at h
  | true => exact ⟨made, mounted, k, hm, by simpa [hm] using h, by simp⟩

theorem espVerified_of_trace {e : String} (h : Trace A (verifyEsp buildRoot e true) true l) :
    EspVerified buildRoot l := by
  rw [verifyEsp] at h
  obtain ⟨made, mounted, k, hm, hk, rfl⟩ := trace_mounted h
  simp only [trace_bind, trace_holds] at hk
  obtain ⟨_, _, _, ⟨config, -, rfl, rfl⟩, ⟨_, _, k, ⟨boot, -, rfl, rfl⟩, hk, rfl⟩, rfl⟩ := hk
  by_cases hb : buildRoot = ""
  · simp only [hb, if_true, pure_bind, trace_bind, trace_holds, trace_exec] at hk
    obtain ⟨_, _, _, ⟨kernel, -, rfl, rfl⟩, ⟨_, _, _, ⟨unmounted, -, hu, rfl⟩, ⟨hok, rfl⟩, rfl⟩,
      rfl⟩ := hk
    simp only [Bool.not_false, Bool.true_or, Bool.and_true, Bool.true_eq, Bool.and_eq_true] at hok
    exact ⟨e, mounted, config, boot, .failed, kernel, unmounted,
      ⟨[], [(.mkdir [verifyEspDir], made)], by
        simp [whileMounted, stagedTest, hb, isFile, verifyEspDir, tempPath]⟩,
      hm, hok.1, hok.2, hu, fun h => absurd hb h⟩
  · simp only [hb, if_false, trace_bind, trace_holds, trace_exec] at hk
    obtain ⟨_, _, _, ⟨staged, -, rfl, rfl⟩, ⟨_, _, _, ⟨kernel, -, rfl, rfl⟩,
      ⟨_, _, _, ⟨unmounted, -, hu, rfl⟩, ⟨hok, rfl⟩, rfl⟩, rfl⟩, rfl⟩ := hk
    simp only [Bool.true_eq, Bool.and_eq_true, Bool.or_eq_true, Bool.not_eq_true'] at hok
    exact ⟨e, mounted, config, boot, staged, kernel, unmounted,
      ⟨[], [(.mkdir [verifyEspDir], made)], by
        simp [whileMounted, stagedTest, hb, isFile, verifyEspDir, tempPath]⟩,
      hm, hok.1.1, hok.1.2, hu, fun _ hs => hok.2.resolve_left (by simp [hs])⟩

theorem versionTest_of_trace
    (h : Trace A (kernelVersionOk expected (.sub verifyInstallerDir "mach_kernel")) true l) :
    ∃ r, l = versionTest expected r ∧ (expected ≠ "" → r.ok = true) := by
  rw [kernelVersionOk] at h
  by_cases he : expected = ""
  · rw [if_pos he] at h
    exact ⟨.failed, by simp [versionTest, he, h.2], fun hne => absurd he hne⟩
  · rw [if_neg he, trace_holds] at h
    obtain ⟨r, -, hr, rfl⟩ := h
    exact ⟨r, by simp [versionTest, he], fun _ => hr.symm⟩

theorem installerVerified_of_trace {i : String}
    (h : Trace A (verifyInstaller expected i true) true l) : InstallerVerified expected l := by
  rw [verifyInstaller] at h
  obtain ⟨made, mounted, k, hm, hk, rfl⟩ := trace_mounted h
  simp only [trace_bind, trace_holds] at hk
  obtain ⟨_, _, _, ⟨bootEfi, -, rfl, rfl⟩, ⟨_, _, k, ⟨kernel, -, rfl, rfl⟩, hk, rfl⟩, rfl⟩ := hk
  cases hf : kernel.ok with
  | false =>
    simp only [hf, Bool.false_eq_true, if_false, pure_bind, trace_bind] at hk
    obtain ⟨_, _, _, -, ⟨hok, -⟩, -⟩ := hk
    simp at hok
  | true =>
    simp only [hf, if_true, trace_bind, trace_exec] at hk
    obtain ⟨version, _, _, hv, ⟨_, _, _, ⟨unmounted, -, hu, rfl⟩, ⟨hok, rfl⟩, rfl⟩, rfl⟩ := hk
    simp only [Bool.and_true, Bool.true_eq, Bool.and_eq_true] at hok
    obtain ⟨hb, rfl⟩ := hok
    obtain ⟨r, rfl, hr⟩ := versionTest_of_trace hv
    exact ⟨i, mounted, bootEfi, kernel, r, unmounted,
      ⟨[], [(.mkdir [verifyInstallerDir], made)], by
        simp [whileMounted, isFile, verifyInstallerDir, tempPath]⟩,
      hm, hb, hf, hu, hr⟩

/-- The part of `verify_target` about one partition. -/
def checkPartition (part : String) (check : Sh Bool) : Sh Bool := do
  if ← partitionExists part then check else pure true

theorem verifyTarget_eq (a : Args) (buildRoot espPart installerPart : String) (tempDir : Bool) :
    verifyTarget a buildRoot espPart installerPart tempDir = (do
      let e ← selectPartition a.disk espPart "1"
      let i ← selectPartition a.disk installerPart "2"
      exec (.show ("lsblk " ++ a.disk))
      let tempDir ← prepareTemp tempDir
      let okEsp ← checkPartition e (verifyEsp buildRoot e tempDir)
      let okInstaller ← checkPartition i (verifyInstaller a.expectedKernelVersion i tempDir)
      Script.yields (if okEsp && okInstaller then 0 else 1)) := by
  simp only [verifyTarget, checkPartition, bind_assoc]
  refine bind_congr fun e => bind_congr fun i => bind_congr fun _ => bind_congr fun tempDir =>
    bind_congr fun existsEsp => ?_
  cases existsEsp with
  | true =>
    refine bind_congr fun okEsp => bind_congr fun existsInstaller => ?_
    cases existsInstaller <;> rfl
  | false =>
    refine bind_congr fun okEsp => bind_congr fun existsInstaller => ?_
    cases existsInstaller <;> rfl

/-! ### What a run has verified -/

/-- A volume is mounted at `dir`. -/
def MountsAt (dir : Loc) (c : Cmd) : Prop := ∃ opts b dev, c = .mount opts b dev dir

theorem not_mountsAt_query {dir : Loc} {q : Query} : ¬ MountsAt dir (.query q) := by
  simp [MountsAt]

theorem calls_checkPartition {P : Cmd → Prop} {part : String} {check : Sh Bool}
    (hP : ∀ q, P (.query q)) (hc : check.Calls P) : (checkPartition part check).Calls P := by
  simp [checkPartition, partitionExists, hP, hc]

theorem calls_verifyEsp {e : String} {tempDir : Bool} :
    (verifyEsp buildRoot e tempDir).Calls fun c => ¬ MountsAt verifyInstallerDir c := by
  cases tempDir <;>
    simp [verifyEsp, MountsAt, tempPath, verifyInstallerDir]

theorem calls_verifyInstaller {i : String} {tempDir : Bool} :
    (verifyInstaller expected i tempDir).Calls fun c => ¬ MountsAt verifyEspDir c := by
  cases tempDir <;>
    simp [verifyInstaller, kernelVersionOk, MountsAt, tempPath, verifyEspDir]

/-- What precedes the checks of the partitions. -/
def upToChecks (a : Args) : Sh (String × String) := do
  let tempDir ← verifySetup a
  let e ← selectPartition a.disk a.espPart "1"
  let i ← selectPartition a.disk a.installerPart "2"
  exec (.show ("lsblk " ++ a.disk))
  let _ ← prepareTemp tempDir
  return (e, i)

theorem calls_upToChecks {dir : Loc} : (upToChecks a).Calls fun c => ¬ MountsAt dir c := by
  simp [upToChecks, verifySetup, calls_requireLinux, calls_guardSection, prepareTemp, makeTempDir,
    MountsAt]

/-- A verification that ends with status zero, part by part. -/
theorem run_parts (h : Trace (F.Truthful root) (verifySetup a >>= fun tempDir =>
      verifyTarget a a.buildRoot a.espPart a.installerPart tempDir) 0 l) :
    ∃ e i l₀ lE lI, F.selected a.disk a.espPart "1" = some e ∧
      F.selected a.disk a.installerPart "2" = some i ∧
      Trace (F.Truthful root) (upToChecks a) (e, i) l₀ ∧
      Trace (F.Truthful root) (checkPartition e (verifyEsp a.buildRoot e true)) true lE ∧
      Trace (F.Truthful root)
        (checkPartition i (verifyInstaller a.expectedKernelVersion i true)) true lI ∧
      l = lI ++ lE ++ l₀ := by
  simp only [verifyTarget_eq] at h
  obtain ⟨tempDir, l₁, _, hsetup, h₁, rfl⟩ := trace_bind.1 h
  obtain ⟨e, l₂, _, he, h₂, rfl⟩ := trace_bind.1 h₁
  obtain ⟨i, l₃, _, hi, h₃, rfl⟩ := trace_bind.1 h₂
  obtain ⟨_, l₄, _, hshow, h₄, rfl⟩ := trace_bind.1 h₃
  obtain ⟨t, l₅, _, htemp, h₅, rfl⟩ := trace_bind.1 h₄
  obtain ⟨okEsp, lE, _, hE, h₆, rfl⟩ := trace_bind.1 h₅
  obtain ⟨okInstaller, _, _, hI, ⟨-, h₇, rfl⟩, rfl⟩ := trace_bind.1 h₆
  obtain ⟨rfl, rfl⟩ : okEsp = true ∧ okInstaller = true := by
    cases okEsp <;> cases okInstaller <;> simp at h₇ ⊢
  cases trace_prepareTemp htemp
  refine ⟨e, i, l₅ ++ l₄ ++ l₃ ++ l₂ ++ l₁, lE, _,
    may_selectPartition.1 (may_iff_trace.2 ⟨_, he⟩),
    may_selectPartition.1 (may_iff_trace.2 ⟨_, hi⟩), ?_, hE, hI, by simp⟩
  exact trace_bind.2 ⟨_, _, _, hsetup, trace_bind.2 ⟨_, _, _, he, trace_bind.2 ⟨_, _, _, hi,
    trace_bind.2 ⟨_, _, _, hshow, trace_bind.2 ⟨_, _, _, htemp, ⟨rfl, rfl⟩, rfl⟩, rfl⟩, rfl⟩, rfl⟩,
    by simp⟩

theorem EspVerified.mono {k : Log} (h : EspVerified buildRoot k) (hk : k <:+: l) :
    EspVerified buildRoot l := by
  obtain ⟨dev, mounted, config, boot, staged, kernel, unmounted, hi, h⟩ := h
  exact ⟨dev, mounted, config, boot, staged, kernel, unmounted, hi.trans hk, h⟩

theorem InstallerVerified.mono {k : Log} (h : InstallerVerified expected k) (hk : k <:+: l) :
    InstallerVerified expected l := by
  obtain ⟨dev, mounted, bootEfi, kernel, version, unmounted, hi, h⟩ := h
  exact ⟨dev, mounted, bootEfi, kernel, version, unmounted, hi.trans hk, h⟩

/-- A verified volume was mounted. -/
theorem mem_of_whileMounted {dev : String} {dir : Loc} {mounted unmounted : Reply} {k : Log}
    (h : whileMounted dev dir mounted unmounted k <:+: l) :
    ∃ c r, (c, r) ∈ l ∧ MountsAt dir c :=
  ⟨_, mounted, h.subset (by simp [whileMounted]), "-o ro", false, dev, rfl⟩

theorem EspVerified.mounts (h : EspVerified buildRoot l) : ∃ c r, (c, r) ∈ l ∧ MountsAt verifyEspDir c :=
  let ⟨_, _, _, _, _, _, _, hi, _⟩ := h
  mem_of_whileMounted hi

theorem InstallerVerified.mounts (h : InstallerVerified expected l) :
    ∃ c r, (c, r) ∈ l ∧ MountsAt verifyInstallerDir c :=
  let ⟨_, _, _, _, _, _, hi, _⟩ := h
  mem_of_whileMounted hi

/-- The check of a partition, when it succeeds. -/
theorem trace_checkPartition {part : String} {check : Sh Bool}
    (h : Trace (F.Truthful root) (checkPartition part check) true l) :
    ∃ k l₀, l = k ++ l₀ ∧ (∀ c r, (c, r) ∈ l₀ → ∃ q, c = .query q) ∧
      if (F.resolve part).isSome then Trace (F.Truthful root) check true k else k = [] := by
  obtain ⟨b, l₀, k, hb, h, rfl⟩ := trace_bind.1 h
  refine ⟨k, l₀, rfl, fun c r hm => hb.calls (P := fun c => ∃ q, c = .query q) ?_ hm, ?_⟩
  · simp [partitionExists]
  · rw [← trace_partitionExists hb]
    cases b with
    | true => exact h
    | false => exact h.2

/-- A volume that was verified was there to be mounted. -/
theorem blockPartitions_of_verified (hm : a.mode = .verify) (h : ExitsZero F root a l)
    (hv : Verified a l) : BlockPartitions F a := by
  obtain ⟨e, i, l₀, lE, lI, he, hi, h₀, hE, hI, rfl⟩ := run_parts ((exitsZero_iff hm).1 h)
  obtain ⟨kE, qE, rfl, hqE, hE'⟩ := trace_checkPartition hE
  obtain ⟨kI, qI, rfl, hqI, hI'⟩ := trace_checkPartition hI
  refine ⟨e, i, he, hi, ?_, ?_⟩
  · -- Without its check, nothing mounts a volume as the ESP.
    by_contra hb
    rw [if_neg hb] at hE'
    obtain ⟨c, r, hmem, hc⟩ := hv.1.mounts
    simp only [hE', List.nil_append, List.mem_append] at hmem
    rcases hmem with (hmem | hmem) | hmem
    · exact hI.calls (calls_checkPartition (fun _ => not_mountsAt_query) calls_verifyInstaller)
        (List.mem_append.2 hmem) hc
    · obtain ⟨q, rfl⟩ := hqE c r hmem
      exact not_mountsAt_query hc
    · exact h₀.calls calls_upToChecks hmem hc
  · by_contra hb
    rw [if_neg hb] at hI'
    obtain ⟨c, r, hmem, hc⟩ := hv.2.mounts
    simp only [hI', List.nil_append, List.mem_append] at hmem
    rcases hmem with (hmem | hmem) | hmem
    · obtain ⟨q, rfl⟩ := hqI c r hmem
      exact not_mountsAt_query hc
    · exact hE.calls (calls_checkPartition (fun _ => not_mountsAt_query) calls_verifyEsp)
        (List.mem_append.2 hmem) hc
    · exact h₀.calls calls_upToChecks hmem hc

/-- Where both partitions are there, both were checked. -/
theorem verified_of_blockPartitions (hm : a.mode = .verify) (h : ExitsZero F root a l)
    (hb : BlockPartitions F a) : Verified a l := by
  obtain ⟨e, i, l₀, lE, lI, he, hi, -, hE, hI, rfl⟩ := run_parts ((exitsZero_iff hm).1 h)
  obtain ⟨kE, qE, rfl, -, hE'⟩ := trace_checkPartition hE
  obtain ⟨kI, qI, rfl, -, hI'⟩ := trace_checkPartition hI
  obtain ⟨e', i', he', hi', hbe, hbi⟩ := hb
  cases he.symm.trans he'
  cases hi.symm.trans hi'
  rw [if_pos hbe] at hE'
  rw [if_pos hbi] at hI'
  exact ⟨(espVerified_of_trace hE').mono ⟨kI ++ qI, qE ++ l₀, by simp⟩,
    (installerVerified_of_trace hI').mono ⟨[], qI ++ (kE ++ qE) ++ l₀, by simp⟩⟩

/-! ### Runs that end with status zero -/

/-- A test that any answer may be given to. -/
theorem may_isFile {t : Loc} : May (F.Truthful root) (holds (.test .f t)) true :=
  may_holds.2 ⟨.done, trivial, rfl⟩

theorem may_exec_of_change {c : Cmd} (h : F.Truthful root c .done) :
    May (F.Truthful root) (exec c) () := may_exec.2 ⟨.done, h, rfl⟩

theorem may_verifyEsp {e : String} : May (F.Truthful root) (verifyEsp buildRoot e true) true := by
  refine may_then.2 ⟨may_exec_of_change trivial, may_bind.2 ⟨.done, may_attempt.2
    ⟨.done, trivial, rfl⟩, may_bind.2 ⟨true, may_isFile, may_bind.2 ⟨true, may_isFile, ?_⟩⟩⟩⟩
  have hend : ∀ custom, May (F.Truthful root) (do
      let kernel ← holds (.test .f (.sub (tempPath true "verify-esp") "Kernels/kernel"))
      exec (.umount (tempPath true "verify-esp") false)
      return true && true && (!custom || kernel)) true := fun custom =>
    may_bind.2 ⟨true, may_isFile, may_then.2 ⟨may_exec_of_change trivial, by simp⟩⟩
  split
  · exact hend false
  · exact may_bind.2 ⟨true, may_isFile, hend true⟩

theorem may_verifyInstaller {i : String} :
    May (F.Truthful root) (verifyInstaller expected i true) true := by
  refine may_then.2 ⟨may_exec_of_change trivial, may_bind.2 ⟨.done, may_attempt.2
    ⟨.done, trivial, rfl⟩, may_bind.2 ⟨true, may_isFile, may_bind.2 ⟨true, may_isFile,
      may_bind.2 ⟨true, ?_, may_then.2 ⟨may_exec_of_change trivial, rfl⟩⟩⟩⟩⟩⟩
  unfold kernelVersionOk
  split
  · rfl
  · exact may_holds.2 ⟨.done, trivial, rfl⟩

/-- The check of a partition may succeed if it may succeed on a device. -/
theorem may_checkPartition {part : String} {check : Sh Bool}
    (h : May (F.Truthful root) check true) :
    May (F.Truthful root) (checkPartition part check) true := by
  have hb : May (F.Truthful root) (partitionExists part) (F.resolve part).isSome := by
    unfold partitionExists
    split
    · rename_i hp
      rw [hp, Forest.resolve_empty]
      rfl
    · cases hr : (F.resolve part).isSome with
      | true => exact may_holds.2 ⟨.done, by simp [Forest.Answers, hr], rfl⟩
      | false => exact may_holds.2 ⟨.failed, by simp [Forest.Answers, hr], rfl⟩
  refine may_bind.2 ⟨_, hb, ?_⟩
  split
  · exact h
  · rfl

/-- Whatever the partitions are, the verification may end with status zero. -/
theorem exists_exitsZero {e i : String} (hm : a.mode = .verify) (hd : F.IsDisk a.disk)
    (hr : ¬ F.NamesRoot root a.disk) (ha : a.allowInternal = true ∨ ¬ F.Internal a.disk)
    (he : F.selected a.disk a.espPart "1" = some e)
    (hi : F.selected a.disk a.installerPart "2" = some i) : ∃ l, ExitsZero F root a l := by
  have hsetup : May (F.Truthful root) (verifySetup a) true :=
    may_then.2 ⟨Writer.may_requireLinux _, may_then.2
      ⟨Writer.may_makeUsb_guardSection.2 ⟨hd, hr, ha⟩, may_then.2
        ⟨may_require.2 ⟨.done, trivial, rfl⟩, may_prepareTemp⟩⟩⟩
  have htarget : May (F.Truthful root)
      (verifyTarget a a.buildRoot a.espPart a.installerPart true) 0 := by
    rw [verifyTarget_eq]
    exact may_bind.2 ⟨e, may_selectPartition.2 he, may_bind.2 ⟨i, may_selectPartition.2 hi,
      may_then.2 ⟨may_exec_of_change trivial, may_bind.2 ⟨true, may_prepareTemp_again,
        may_bind.2 ⟨true, may_checkPartition may_verifyEsp, may_bind.2
          ⟨true, may_checkPartition may_verifyInstaller, by simp [Script.yields]⟩⟩⟩⟩⟩⟩
  obtain ⟨l, hl⟩ := may_iff_trace.1 (may_bind.2 ⟨true, hsetup, htarget⟩)
  exact ⟨l, (exitsZero_iff hm).2 hl⟩

/-! ### The verdict -/

/-- **What `--verify` verifies.**  A run that ends with status zero has mounted and checked both
volumes just if both partitions are block devices; one that is missing is passed over. -/
theorem verify_verifies_iff (hm : a.mode = .verify) (h : ExitsZero F root a l) :
    Verified a l ↔ BlockPartitions F a :=
  ⟨blockPartitions_of_verified hm h, verified_of_blockPartitions hm h⟩

/-- `--verify --disk /dev/sdb` with two partitions. -/
def verifyArgs (espPart installerPart : String) : Args :=
  ⟨.verify, "/dev/sdb", "", "", "", espPart, installerPart, "", .auto, "", false, false⟩

theorem exists_exitsZero_twoDisks {e i : String} (he : e ≠ "") (hi : i ≠ "") :
    ∃ l, ExitsZero twoDisks twoDisksWorld.rootBefore (verifyArgs e i) l := by
  refine exists_exitsZero (e := e) (i := i) rfl ⟨_, rfl, rfl⟩ ?_ (Or.inr ?_)
    (by simp [verifyArgs, Forest.selected, he]) (by simp [verifyArgs, Forest.selected, hi])
  · rintro (h | ⟨x, p, hx, hp, h⟩)
    · exact (show "/dev/sdb" ≠ twoDisksWorld.rootBefore.source by decide) h
    · cases hx
      cases hp
      exact (show "/dev/sdb" ≠ "/dev/" ++ "sda" by decide) h
  · rintro ⟨x, hx, h, -⟩
    cases hx
    cases h

/-- Two partitions that are there. -/
theorem verify_verifies_present : ∃ l,
    ExitsZero twoDisks twoDisksWorld.rootBefore (verifyArgs "/dev/sdb1" "/dev/sda1") l ∧
      Verified (verifyArgs "/dev/sdb1" "/dev/sda1") l := by
  obtain ⟨l, h⟩ := exists_exitsZero_twoDisks (e := "/dev/sdb1") (i := "/dev/sda1") (by decide)
    (by decide)
  exact ⟨l, h, (verify_verifies_iff rfl h).2 ⟨_, _, rfl, rfl, by decide, by decide⟩⟩

/-- With two partitions that do not exist, `--verify` ends with status zero, too. -/
theorem verify_passes_over_missing : ∃ l,
    ExitsZero twoDisks twoDisksWorld.rootBefore (verifyArgs "/dev/sdb7" "/dev/sdb8") l ∧
      ¬ Verified (verifyArgs "/dev/sdb7" "/dev/sdb8") l := by
  obtain ⟨l, h⟩ := exists_exitsZero_twoDisks (e := "/dev/sdb7") (i := "/dev/sdb8") (by decide)
    (by decide)
  refine ⟨l, h, fun hv => ?_⟩
  obtain ⟨e, i, he, -, hb, -⟩ := blockPartitions_of_verified rfl h hv
  cases he
  revert hb
  decide

end MakeUsb

end Usb

end InstallKit
