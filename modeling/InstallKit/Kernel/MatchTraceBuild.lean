import InstallKit.Shell.Worlds

/-!
# The build with the match trace

`build_n570_matchtrace.sh` saves `IOService.cpp`, patches it for the build, and puts it back when it
exits.  The handler takes any backup file for a complete one.

* `tracked_of_ends` : up to the handler, the source is still in one of the two files, and the
  commands of the run tell what the backup is;
* `source_kept_iff` : whatever fails in the handler, the source is kept just if the copy to the
  backup did not fail with something else left there, and no check failed while something else lay
  there already;
* `source_lost` : a backup that could not be written in full replaces the source.
-/

namespace InstallKit

namespace Kernel

namespace MatchTraceBuild

open Shell Script

/-- The commands of the script. -/
inductive Cmd
  /-- A command that changes neither `IOService.cpp` nor its backup. -/
  | run (line : String)
  /-- `cp "$IOKIT_SOURCE" "$IOKIT_BACKUP"` -/
  | saveSource
  /-- `python "$SCRIPT_DIR/apply_n570_iokit_matchtrace_patch.py"` -/
  | applyPatch
  /-- `[ -f "$IOKIT_BACKUP" ]` -/
  | hasBackup
  /-- `cp "$IOKIT_BACKUP" "$IOKIT_SOURCE"` -/
  | restoreSource
  /-- `rm -f "$IOKIT_BACKUP"` -/
  | removeBackup
  deriving DecidableEq

instance : ExitStatus ℕ := ⟨id⟩

/-- A part of the script; the variable says whether the trap is set. -/
abbrev Sh := Script Bool Cmd ℕ

/-! ### The script -/

/-- `line` -/
def exec (line : String) : Sh Unit := do
  let _ ← cmd (.run line)

/-- `if line` -/
def holds (line : String) : Sh Bool := do
  return (← attempt (.run line)) = 0

/-- `die message` -/
def die (message : String) : Sh Unit :=
  .exit 1 ("[atom-kernel-matchtrace-build] ERROR: " ++ message)

/-- `line || die message` -/
def require (line message : String) : Sh Unit := do
  if !(← holds line) then
    die message

/-- `log message` -/
def log (message : String) : Sh Unit := exec ("log " ++ message)

/-- `restore_iokit` -/
def restoreIokit : Sh Unit := do
  if (← attempt .hasBackup) = 0 then
    let _ ← cmd .restoreSource
    let _ ← cmd .removeBackup
    log "restored original local IOService.cpp"

/-- The part before the trap is set. -/
def prelude : Sh Unit := do
  exec "SCRIPT_DIR=\"$(cd \"$(dirname \"$0\")\" && pwd -P)\""
  exec "ROOT_DIR=\"$(cd \"$SCRIPT_DIR/..\" && pwd -P)\""
  exec ". \"$LOCK_FILE\""

/-- The checks of the tools and of the tree. -/
def checks : Sh Unit := do
  require "[ \"$(uname -s)\" = Darwin ]" "reference build must run on macOS"
  require "case \"$(sw_vers -productVersion 2>/dev/null || true)\" in 10.6*)"
    "expected Mac OS X 10.6.x for this historical reference build"
  require "have make" "make is required"
  require "have python" "system Python is required"
  require "[ -x /Developer/usr/bin/gcc-4.2 ]"
    "Xcode 3.2 gcc-4.2 not found at /Developer/usr/bin/gcc-4.2"
  require "[ -d \"$SDKROOT\" ]" "Snow Leopard SDK not found: $SDKROOT"
  require "[ -f \"$SRC_DIR/.xnu-source-commit\" ]" "source marker missing"
  require "[ \"$(cat \"$SRC_DIR/.xnu-source-commit\")\" = \"$XNU_COMMIT\" ]"
    "source commit marker mismatch"
  require "[ -f \"$IOKIT_SOURCE\" ]" "IOService.cpp not found"
  require "grep -q 'CPUID_MODEL_ATOM' \"$SRC_DIR/osfmk/i386/cpuid.h\""
    "Atom model constant not found; apply scripts/apply_n570_atom_debug_patch.py first"
  require "grep -q 'case CPUID_MODEL_ATOM:' \"$SRC_DIR/osfmk/i386/cpuid.c\""
    "Atom family case not found"
  require ("grep -A2 'case CPUID_MODEL_ATOM:' \"$SRC_DIR/osfmk/i386/cpuid.c\" | " ++
      "grep -q 'CPUFAMILY_INTEL_YONAH'")
    "Atom model 28 must use the historical Yonah compatibility family"
  require "grep -F -q '[N570 ATOM-KERNEL]' \"$SRC_DIR/osfmk/i386/i386_init.c\""
    "N570 Atom instrumentation markers not found"
  exec "mkdir -p \"$ROOT_DIR/work\""

/-- The helpers of the build, where they are missing. -/
def bootstrapTools : Sh Unit := do
  if ← holds ("[ ! -x relpath ] || [ ! -x decomment ] || [ ! -x setsegname ] || " ++
      "[ ! -x kextsymboltool ]") then
    log "Darwin build helpers missing; bootstrapping relpath/decomment/setsegname/kextsymboltool"
    exec "bash \"$SCRIPT_DIR/bootstrap_snowleopard_build_tools.sh\""

/-- The directories of the build. -/
def prepareTrees : Sh Unit := do
  if ← holds "[ \"${CLEAN_BUILD:-0}\" = \"1\" ]" then
    log "CLEAN_BUILD=1: removing previous N570 MATCHTRACE work tree"
    exec "rm -rf \"$WORK_DIR\""
  exec "rm -rf \"$ARTIFACT_DIR\""
  exec "mkdir -p \"$WORK_DIR/obj\" \"$WORK_DIR/sym\" \"$WORK_DIR/dst\" \"$ARTIFACT_DIR\""

/-- `JOBS` -/
def chooseJobs : Sh Unit := do
  if ← holds "[ -z \"$JOBS\" ]" then
    exec "NCPU=\"$(sysctl -n hw.ncpu 2>/dev/null || echo 1)\""
    let _ ← holds "[ \"$NCPU\" -ge 1 ] 2>/dev/null"

/-- The build. -/
def build : Sh Unit := do
  log "source: $SRC_DIR"
  log "XNU: $XNU_VERSION ($XNU_COMMIT)"
  log "configuration: RELEASE I386 + targeted IOKit match tracing"
  log "trace targets: IOResources, bios"
  log "SDK: $SDKROOT"
  log "MAKEJOBS: $JOBS"
  exec "cd \"$SRC_DIR\""
  exec "make exporthdrs all"

/-- The results of the build. -/
def collect : Sh Unit := do
  exec "KERNEL=\"$(find -type f -name mach_kernel -print 2>/dev/null | head -1)\""
  require "[ -n \"$KERNEL\" ]" "build completed but mach_kernel was not found"
  exec "cp -p \"$KERNEL\" \"$ARTIFACT_DIR/mach_kernel\""
  exec "KERNEL_SYS=\"$(find -type f -name mach_kernel.sys -print 2>/dev/null | head -1)\""
  if ← holds "[ -n \"$KERNEL_SYS\" ]" then
    exec "cp -p \"$KERNEL_SYS\" \"$ARTIFACT_DIR/mach_kernel.sys\""
    log "symbols: $ARTIFACT_DIR/mach_kernel.sys"
  exec "DSYM=\"$(find -type d -name 'mach_kernel.dSYM' -print 2>/dev/null | head -1)\""
  if ← holds "[ -n \"$DSYM\" ]" then
    exec "cp -R \"$DSYM\" \"$ARTIFACT_DIR/\""
    log "dSYM: $ARTIFACT_DIR/mach_kernel.dSYM"
  exec "printf '%s\\n' \"$XNU_COMMIT\" > \"$ARTIFACT_DIR/source-commit.txt\""
  let _ ← holds "git -C \"$ROOT_DIR/../..\" diff > \"$ARTIFACT_DIR/source.patch\" 2>/dev/null"
  exec "shasum -a 256 \"$ARTIFACT_DIR/mach_kernel\" > \"$ARTIFACT_DIR/mach_kernel.sha256\""
  log "N570 MATCHTRACE RELEASE build complete: $ARTIFACT_DIR/mach_kernel"
  exec "cat \"$ARTIFACT_DIR/mach_kernel.sha256\""
  log "IOService.cpp will now be restored by the EXIT trap"
  log "next: bash '$SCRIPT_DIR/test_n570_matchtrace.sh' '$ARTIFACT_DIR/mach_kernel'"

/-- What follows the copy. -/
def patchAndBuild : Sh Unit := do
  let _ ← cmd .applyPatch
  require "grep -F -q '[N570 ATOM-KERNEL][MATCH] F>' \"$IOKIT_SOURCE\""
    "IOKit matchtrace patch did not apply"
  require "grep -F -q '[N570 ATOM-KERNEL][MATCH] S<' \"$IOKIT_SOURCE\""
    "IOKit start trace markers are incomplete"
  bootstrapTools
  prepareTrees
  chooseJobs
  build
  collect

/-- `build_n570_matchtrace.sh` -/
def main : Sh Unit := do
  prelude
  -- `trap restore_iokit EXIT INT TERM`
  setVar fun _ => true
  checks
  let _ ← cmd .saveSource
  patchAndBuild

/-- What runs when the script exits. -/
def onExit (trapped : Bool) : Sh Unit := if trapped then restoreIokit else pure ()

/-! ### The two files -/

/-- What the source and its backup hold. -/
structure Files where
  source : Option (List UInt8)
  backup : Option (List UInt8)
  deriving DecidableEq

/-- `cp`: one that fails leaves the destination as it was, or a part of the file there. -/
def Copies (status : ℕ) (src dst dst' : Option (List UInt8)) : Prop :=
  match src with
  | none => status ≠ 0 ∧ dst' = dst
  | some b => if status = 0 then dst' = some b else dst' = dst ∨ ∃ p, p <+: b ∧ dst' = some p

/-- What a command with this status may do to the files; the patch may do anything to the source,
and `left` is what the copy of the source leaves at the path of the backup if it fails. -/
def Effect (left : Option (List UInt8)) (_ : List (Cmd × ℕ)) : Cmd → ℕ → Files → Files → Prop
  | .run _, _, w, w' => w' = w
  | .saveSource, n, w, w' =>
    Copies n w.source w.backup w'.backup ∧ w'.source = w.source ∧ (n ≠ 0 → w'.backup = left)
  | .applyPatch, _, w, w' => w'.backup = w.backup
  | .hasBackup, n, w, w' => w' = w ∧ (n = 0 ↔ w.backup ≠ none)
  | .restoreSource, n, w, w' => Copies n w.backup w.source w'.source ∧ w'.backup = w.backup
  | .removeBackup, n, w, w' => w'.source = w.source ∧ w'.backup = if n = 0 then none else w.backup

/-- The state in which a part starts, under `set -e`. -/
def init : St Bool Cmd ℕ := ⟨false, [], true⟩

/-- The part may end with the commands of `l` having turned the files `w` into `w'`, with the trap
set or not. -/
def Ends (left : Option (List UInt8)) (p : Sh Unit) (w w' : Files) (l : List (Cmd × ℕ))
    (trapped : Bool) : Prop :=
  ∃ q o, Reach (fun _ _ _ => True) (p, init) (q, ⟨trapped, l, true⟩) ∧ q.outcome? = some o ∧
    After (Effect left) w l w'

/-- The content of the source is still in one of the files. -/
def Kept (w₀ w : Files) : Prop :=
  w.source = w₀.source ∨ w.backup ≠ none ∧ w.backup = w₀.source

/-- The last command before the trap is set: `. "$LOCK_FILE"`. -/
def readLock : Cmd := .run ". \"$LOCK_FILE\""

/-- Which runs keep the source, by what was run with which status.  Without a copy, but with the
trap set, there must be no file at the path of the backup, or one with the source in it; a copy that
fails must leave none there, or the whole source. -/
def Safe (left : Option (List UInt8)) (w₀ : Files) (l : List (Cmd × ℕ)) : Prop :=
  match l.lookup .saveSource with
  | none => (readLock, 0) ∈ l → w₀.backup = none ∨ w₀.backup = w₀.source
  | some 0 => True
  | some (_ + 1) => left = none ∨ left = w₀.source

/-! ### Up to the handler -/

variable {left : Option (List UInt8)} {w₀ w w' : Files} {trapped : Bool} {n : ℕ}
  {l : List (Cmd × ℕ)}

/-- The command changes neither file. -/
def Cmd.quiet : Cmd → Prop
  | .run _ => True
  | _ => False

instance : DecidablePred Cmd.quiet := fun c => by
  cases c <;> unfold Cmd.quiet <;> infer_instance

/-- The command does not change the backup. -/
def Cmd.sparing : Cmd → Prop
  | .run _ => True
  | .applyPatch => True
  | _ => False

@[simp] theorem quiet_run {line : String} : (Cmd.run line).quiet := trivial

@[simp] theorem sparing_run {line : String} : (Cmd.run line).sparing := trivial

@[simp] theorem sparing_applyPatch : Cmd.applyPatch.sparing := trivial

section Calls

variable {P : Cmd → Prop} (hP : ∀ line, P (.run line))

include hP

theorem calls_exec (line : String) : (exec line).Calls P := by
  simp [exec, hP]

theorem calls_holds (line : String) : (holds line).Calls P := by
  simp [holds, hP]

theorem calls_require (line message : String) : (require line message).Calls P := by
  simp [require, calls_holds hP, die]

theorem calls_prelude : prelude.Calls P := by
  simp [prelude, calls_exec hP]

theorem calls_checks : checks.Calls P := by
  simp [checks, calls_exec hP, calls_require hP]

theorem calls_patchAndBuild (hpatch : P .applyPatch) : patchAndBuild.Calls P := by
  simp [patchAndBuild, bootstrapTools, prepareTrees, chooseJobs, build, collect, log, hpatch,
    calls_exec hP, calls_holds hP, calls_require hP]

end Calls

theorem eq_of_quiet {c : Cmd} (hc : c.quiet) (h : Effect left l c n w w') : w' = w := by
  cases c with
  | run line => exact h
  | _ => exact hc.elim

theorem backup_of_sparing {c : Cmd} (hc : c.sparing) (h : Effect left l c n w w') :
    w'.backup = w.backup := by
  cases c with
  | run line => rw [show w' = w from h]
  | applyPatch => exact h
  | _ => exact hc.elim

theorem sparing_of_quiet {c : Cmd} (hc : c.quiet) : c.sparing := by
  cases c with
  | run line => trivial
  | _ => exact hc.elim

/-- A command that spares the backup is not the copy. -/
theorem lookup_of_sparing {c : Cmd} (hc : c.sparing) :
    ((c, n) :: l).lookup .saveSource = l.lookup .saveSource := by
  cases c with
  | run line => rfl
  | applyPatch => rfl
  | _ => exact hc.elim

/-- A copy that succeeds is complete. -/
theorem Copies.of_zero {src dst dst' : Option (List UInt8)} (h : Copies 0 src dst dst') :
    dst' ≠ none ∧ dst' = src := by
  cases src with
  | none => exact absurd rfl h.1
  | some b =>
    obtain rfl : dst' = some b := by simpa [Copies] using h
    exact ⟨Option.some_ne_none b, rfl⟩

/-- What lies at the path of the backup after the commands of the log. -/
def backupAfter (left : Option (List UInt8)) (w₀ : Files) (l : List (Cmd × ℕ)) :
    Option (List UInt8) :=
  match l.lookup .saveSource with
  | none => w₀.backup
  | some 0 => w₀.source
  | some (_ + 1) => left

/-- The source is kept, and the log tells what the backup is. -/
structure Tracked (left : Option (List UInt8)) (w₀ : Files) (l : List (Cmd × ℕ)) (w : Files) :
    Prop where
  kept : Kept w₀ w
  backup : w.backup = backupAfter left w₀ l

/-- Before the copy nothing has changed. -/
structure Early (w₀ : Files) (l : List (Cmd × ℕ)) (w : Files) : Prop where
  log : l.lookup .saveSource = none
  files : w = w₀

theorem Early.tracked (h : Early w₀ l w) : Tracked left w₀ l w where
  kept := Or.inl (by rw [h.files])
  backup := by rw [backupAfter, h.log, h.files]

/-- After the copy the backup is the source. -/
structure Late (w₀ : Files) (l : List (Cmd × ℕ)) (w : Files) : Prop where
  log : l.lookup .saveSource = some 0
  found : w.backup ≠ none
  backup : w.backup = w₀.source

theorem Late.tracked (h : Late w₀ l w) : Tracked left w₀ l w where
  kept := Or.inr ⟨h.found, h.backup⟩
  backup := by rw [backupAfter, h.log, h.backup]

/-- Quiet commands leave the files as they were. -/
theorem ensures_quiet {p : Sh Unit} (hp : p.Calls Cmd.quiet) (h : Early w₀ l w) :
    Ensures (Effect left) (Tracked left w₀) p (fun _ => Early w₀) l w :=
  ensures_of_calls (J := Early w₀) hp
    (fun _ _ _ _ _ hc hE hw =>
      ⟨(lookup_of_sparing (sparing_of_quiet hc)).trans hw.log, (eq_of_quiet hc hE).trans hw.files⟩)
    (fun _ _ hw => hw.tracked) h

/-- **Up to the handler the source is kept**: nothing is changed before the copy, and the copy is
not changed afterwards. -/
theorem ensures_main :
    Ensures (Effect left) (Tracked left w₀) main (fun _ => Tracked left w₀) [] w₀ := by
  rw [main, ensures_bind]
  refine (ensures_quiet (calls_prelude fun _ => trivial) ⟨rfl, rfl⟩).imp ?_
  rintro _ l w hw
  rw [setVar_bind, ensures_assign, ensures_bind]
  refine ⟨hw.tracked, (ensures_quiet (calls_checks fun _ => trivial) hw).imp ?_⟩
  rintro _ l w hw
  obtain rfl := hw.files
  rw [cmd_bind, ensures_call]
  refine ⟨hw.tracked, fun n w' hE => ⟨⟨Or.inl hE.2.1, ?_⟩, fun hn => ?_⟩⟩
  · cases n with
    | zero => exact hE.1.of_zero.2
    | succ n => exact hE.2.2 n.succ_ne_zero
  · obtain rfl : n = 0 := hn rfl
    refine (ensures_of_calls (J := Late w)
      (calls_patchAndBuild (P := Cmd.sparing) (fun _ => trivial) trivial)
      (fun l' c m v v' hc hE' hv => ?_) (fun _ _ hv => hv.tracked)
      ⟨rfl, hE.1.of_zero.1, hE.1.of_zero.2⟩).imp fun _ _ _ hv => hv.tracked
    have hbackup := backup_of_sparing hc hE'
    exact ⟨(lookup_of_sparing hc).trans hv.log, hbackup ▸ hv.found, hbackup.trans hv.backup⟩

theorem Ends.of_ensures {p : Sh Unit} {I : List (Cmd × ℕ) → Files → Prop}
    {Q : Unit → List (Cmd × ℕ) → Files → Prop} (h : Ends left p w w' l trapped)
    (hp : Ensures (Effect left) I p Q [] w) : I l w' := by
  obtain ⟨q, o, hr, -, hw⟩ := h
  have hstart : ∀ v, After (Effect left) w init.log v →
      Ensures (Effect left) I p Q init.log v := by
    rintro v rfl
    exact hp
  exact (Ensures.sound rfl hstart hr hw).1

theorem tracked_of_ends (h : Ends left main w₀ w l trapped) : Tracked left w₀ l w :=
  h.of_ensures ensures_main

/-- What follows the trap assigns no variable. -/
theorem assigns_afterTrap {Q : (Bool → Bool) → Prop} :
    (checks >>= fun _ => cmd .saveSource >>= fun _ => patchAndBuild).Assigns Q := by
  have hexec : ∀ line, (exec line).Assigns Q := by simp [exec]
  have hholds : ∀ line, (holds line).Assigns Q := by simp [holds]
  have hrequire : ∀ line message, (require line message).Assigns Q := by simp [require, hholds, die]
  simp [checks, patchAndBuild, bootstrapTools, prepareTrees, chooseJobs, build, collect, log, hexec,
    hholds, hrequire]

/-- The trap is set just if the lock file has been read, and no copy is tried without it. -/
structure TrapSet (s : St Bool Cmd ℕ) : Prop where
  iff : s.vars = true ↔ (readLock, 0) ∈ s.log
  copy : s.log.lookup .saveSource ≠ none → s.vars = true

/-- One command under `set -e`. -/
theorem wp_exec {line : String} {Q : Outcome Unit → St Bool Cmd ℕ → Prop} {s : St Bool Cmd ℕ}
    (hs : s.errexit = true) (hexit : ∀ n, n ≠ 0 → Q (.exit n "") (s.push (.run line) n))
    (hret : Q (.ret ()) (s.push (.run line) 0)) :
    wp (fun _ _ _ => True) (fun _ => True) (exec line) Q s := by
  rw [exec, cmd_bind, wp_call]
  refine ⟨trivial, fun n _ => ⟨trivial, ?_⟩⟩
  split
  · rename_i h
    exact hexit n fun hn => by simp [stops, hn, ExitStatus.status] at h
  · rename_i h
    obtain rfl : n = 0 := by simpa [stops, hs, ExitStatus.status] using h
    exact ⟨trivial, hret⟩

/-- A run of the part before the trap. -/
theorem wp_prelude : wp (fun _ _ _ => True) (fun _ => True) prelude
    (fun o s => match o with
      | .ret _ => (readLock, 0) ∈ s.log
      | .exit _ _ => TrapSet s) init := by
  have hset : ∀ l, (readLock, 0) ∉ l → l.lookup Cmd.saveSource = none →
      TrapSet ⟨false, l, true⟩ := fun l hl hc =>
    ⟨iff_of_false Bool.false_ne_true hl, fun h => absurd hc h⟩
  rw [prelude, wp_bind]
  refine wp_exec rfl (fun n hn => hset _ ?_ rfl) (wp_bind.2 ?_)
  · simp [readLock, init]
  refine wp_exec rfl (fun n hn => hset _ ?_ rfl) (wp_exec rfl (fun n hn => hset _ ?_ rfl) ?_)
  · simp [readLock, init]
  · simp [readLock, init, hn.symm]
  · exact List.mem_cons_self

theorem wp_main : wp (fun _ _ _ => True) (fun _ => True) main (fun _ => TrapSet) init := by
  rw [main, wp_bind]
  refine wp_mono (fun _ h => h) (fun o s ho => ?_) wp_prelude
  cases o with
  | exit n m => exact ho
  | ret _ =>
    refine ⟨trivial, wp_iff.2 fun q t hr => ⟨trivial, fun o ht => ?_⟩⟩
    have hall : Always (fun _ _ _ => True) (fun s => s.vars = true ∧ (readLock, 0) ∈ s.log)
        (checks >>= fun _ => cmd .saveSource >>= fun _ => patchAndBuild) (s.upd fun _ => true) :=
      always_of_nodes (J := fun v l => v = true ∧ (readLock, 0) ∈ l) (P := fun _ => True)
        (Q := fun _ => False) (by simp [calls_checks, calls_patchAndBuild]) assigns_afterTrap
        (fun _ _ _ _ _ _ h => ⟨h.1, List.mem_cons_of_mem _ h.2⟩) (fun _ _ _ hf _ => hf.elim)
        ⟨rfl, ho⟩
    obtain ⟨hv, hl⟩ := hall q t hr
    exact ⟨iff_of_true hv hl, fun _ => hv⟩

theorem trapSet_of_ends (h : Ends left main w₀ w l trapped) : TrapSet ⟨trapped, l, true⟩ := by
  obtain ⟨q, o, hr, ho, -⟩ := h
  exact (wp_iff.1 wp_main q _ hr).2 o ho

/-! ### The handler -/

/-- The handler keeps a source whose backup is complete, whatever fails in it. -/
theorem ensures_restoreIokit (hk : Kept w₀ w) (hb : w.backup ≠ none → w.backup = w₀.source) :
    Ensures (Effect left) (fun _ => Kept w₀) restoreIokit (fun _ _ => Kept w₀) [] w := by
  rw [restoreIokit, attempt_bind, ensures_call]
  refine ⟨hk, ?_⟩
  rintro n w' ⟨rfl, hfound⟩
  refine ⟨hk, fun _ => ?_⟩
  split
  · next hn =>
    have hsome := hfound.1 hn
    rw [cmd_bind, ensures_call]
    refine ⟨hk, ?_⟩
    rintro m v ⟨hcopy, hbackup⟩
    -- the backup is there until the copy is complete
    have hv : Kept w₀ v := Or.inr ⟨by rwa [hbackup], by rw [hbackup, hb hsome]⟩
    refine ⟨hv, fun hm => ?_⟩
    obtain rfl : m = 0 := hm rfl
    have hsource : v.source = w₀.source := hcopy.of_zero.2.trans (hb hsome)
    rw [cmd_bind, ensures_call]
    refine ⟨hv, ?_⟩
    rintro k u ⟨hu, -⟩
    have hu' : Kept w₀ u := Or.inl (hu.trans hsource)
    refine ⟨hu', fun _ => ?_⟩
    exact ensures_of_calls (P := Cmd.quiet) (J := fun _ => Kept w₀)
      (calls_exec (fun _ => trivial) _)
      (fun l' c m v v' hc hE h => by rwa [eq_of_quiet (l := l') (c := c) (n := m) hc hE])
      (fun _ _ h => h) hu'
  · exact ⟨hk, hk⟩

/-- A handler in which nothing fails replaces the source by the backup. -/
theorem ends_restoreIokit (left : Option (List UInt8)) {b : List UInt8} (hb : w.backup = some b) :
    ∃ l, Ends left restoreIokit w ⟨some b, none⟩ l false := by
  have hr := reach_follow (A := fun _ _ _ => True) (ρ := fun _ _ => 0) (fun _ _ => trivial)
    restoreIokit init
  refine ⟨_, _, .ret (), hr, rfl, ?_⟩
  refine ⟨⟨some b, none⟩, ⟨⟨some b, some b⟩, ⟨w, ⟨w, rfl, rfl, ?_⟩, ?_⟩, rfl, rfl⟩, rfl⟩
  · simp [hb]
  · exact ⟨by simp [Copies, hb], hb.symm⟩

/-- The condition is on what the handler finds. -/
theorem safe_iff (h : Ends left main w₀ w l trapped) :
    Safe left w₀ l ↔ (trapped = true → w.backup ≠ none → w.backup = w₀.source) := by
  obtain ⟨hset, hcopy⟩ := trapSet_of_ends h
  have hor : ∀ {b b' : Option (List UInt8)}, b = none ∨ b = b' ↔ (b ≠ none → b = b') :=
    Decidable.or_iff_not_imp_left
  rw [(tracked_of_ends h).backup, Safe, backupAfter]
  cases hl : l.lookup .saveSource with
  | none => exact imp_congr hset.symm hor
  | some n =>
    obtain rfl : trapped = true := hcopy (by simp [hl])
    cases n with
    | zero => exact iff_of_true trivial fun _ _ => rfl
    | succ n => exact ⟨fun h _ => hor.1 h, fun h => hor.2 (h rfl)⟩

/-- **Exactly when the source is kept.**  The copy must not leave a part of the source, or another
file, at the path of the backup, and no run may end between the trap and the copy while another
file lies there. -/
theorem source_kept_iff (left : Option (List UInt8)) (w₀ w : Files) (l : List (Cmd × ℕ))
    (trapped : Bool) (h : Ends left main w₀ w l trapped) :
    (∀ w' l' v, Ends left (onExit trapped) w w' l' v → Kept w₀ w') ↔ Safe left w₀ l := by
  have hk := (tracked_of_ends h).kept
  rw [safe_iff h]
  cases trapped with
  | false =>
    have hnothing : Ensures (Effect left) (fun _ => Kept w₀) (onExit false) (fun _ _ => Kept w₀) []
        w := ⟨hk, hk⟩
    exact iff_of_true (fun w' l' v hv => hv.of_ensures hnothing)
      fun hf => absurd hf Bool.false_ne_true
  | true =>
    refine ⟨fun hall _ hsome => ?_,
      fun hb w' l' v hv => hv.of_ensures (ensures_restoreIokit hk (hb rfl))⟩
    obtain ⟨b, hb⟩ := Option.ne_none_iff_exists'.1 hsome
    obtain ⟨l', hends⟩ := ends_restoreIokit left hb
    rcases hall _ _ _ hends with hsource | ⟨hnone, -⟩
    · rw [hb]
      exact hsource
    · exact absurd rfl hnone

/-! ### Runs -/

/-- The statuses with which everything succeeds but one command. -/
def failsAt (failing : Cmd) (_ : List (Cmd × ℕ)) (c : Cmd) : ℕ := if c = failing then 1 else 0

/-- The run in which that command fails. -/
def failingRun (failing : Cmd) : Config Bool Cmd ℕ Unit := follow (failsAt failing) main init

theorem reach_failingRun (failing : Cmd) :
    Reach (fun _ _ _ => True) (main, init) (failingRun failing) :=
  reach_follow (fun _ _ => trivial) main init

theorem after_quiet (h : ∀ e ∈ l, e.1.quiet) : After (Effect left) w l w := by
  induction l with
  | nil => rfl
  | cons e l ih =>
    obtain ⟨he, hl⟩ := List.forall_mem_cons.1 h
    refine ⟨w, ih hl, ?_⟩
    obtain ⟨c, n⟩ := e
    cases c with
    | run line => rfl
    | _ => exact he.elim

/-- The script may end in the patch, which has written something else over the source. -/
theorem ends_patchFailed (b b' : List UInt8) :
    Ends none main ⟨some b, none⟩ ⟨some b', some b⟩ (failingRun .applyPatch).2.log true := by
  have hlog : (failingRun .applyPatch).2.log =
      (.applyPatch, 1) :: (.saveSource, 0) :: (failingRun .applyPatch).2.log.tail.tail := by
    decide +kernel
  have hquiet : ∀ e ∈ (failingRun .applyPatch).2.log.tail.tail, e.1.quiet := by decide +kernel
  refine ⟨(failingRun .applyPatch).1, .exit 1 "", reach_failingRun .applyPatch, rfl, ?_⟩
  rw [hlog]
  exact ⟨⟨some b, some b⟩, ⟨_, after_quiet hquiet, rfl, rfl, fun h => absurd rfl h⟩, rfl⟩

/-- The copy may fail after the first byte. -/
theorem ends_copyFailed (x : UInt8) (b : List UInt8) :
    Ends (some [x]) main ⟨some (x :: b), none⟩ ⟨some (x :: b), some [x]⟩
      (failingRun .saveSource).2.log true := by
  have hlog : (failingRun .saveSource).2.log =
      (.saveSource, 1) :: (failingRun .saveSource).2.log.tail := by decide +kernel
  have hquiet : ∀ e ∈ (failingRun .saveSource).2.log.tail, e.1.quiet := by decide +kernel
  refine ⟨(failingRun .saveSource).1, .exit 1 "", reach_failingRun .saveSource, rfl, ?_⟩
  rw [hlog]
  exact ⟨_, after_quiet hquiet, Or.inr ⟨[x], ⟨b, rfl⟩, rfl⟩, rfl, fun _ => rfl⟩

/-- A run in which the patch fails keeps the source in its backup, whatever happens then. -/
theorem source_kept_patchFailed :
    Ends none main ⟨some [1, 2], none⟩ ⟨some [9], some [1, 2]⟩ (failingRun .applyPatch).2.log
        true ∧
      ∀ w' l v, Ends none (onExit true) ⟨some [9], some [1, 2]⟩ w' l v →
        Kept ⟨some [1, 2], none⟩ w' := by
  have h := ends_patchFailed [1, 2] [9]
  have hlog : (failingRun .applyPatch).2.log.lookup .saveSource = some 0 := by decide +kernel
  exact ⟨h, (source_kept_iff none _ _ _ true h).2 (by rw [Safe, hlog]; trivial)⟩

/-- **The source is lost** when its copy fails halfway: the handler takes the part for a backup. -/
theorem source_lost :
    Ends (some [1]) main ⟨some [1, 2], none⟩ ⟨some [1, 2], some [1]⟩
        (failingRun .saveSource).2.log true ∧
      (∃ l, Ends (some [1]) (onExit true) ⟨some [1, 2], some [1]⟩ ⟨some [1], none⟩ l false) ∧
      ¬ Kept ⟨some [1, 2], none⟩ ⟨some [1], none⟩ := by
  refine ⟨ends_copyFailed 1 [2], ends_restoreIokit _ rfl, ?_⟩
  rintro (hsource | ⟨hnone, -⟩)
  · exact absurd hsource (by decide)
  · exact hnone rfl

end MatchTraceBuild

end Kernel

end InstallKit
