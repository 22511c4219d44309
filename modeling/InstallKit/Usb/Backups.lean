import InstallKit.Shell.Grants
import InstallKit.Usb.LegacyWrites
import InstallKit.Usb.Sectors

/-!
# What is asked and saved before an ESP is written

`linux_update_efi.sh` and `linux_make_usb_legacy.sh` replace the boot files of an ESP.  Whatever the
commands answer, they write only after the guards, the phrase and `--dry-run` have been looked at,
and they write to the ESP only after every boot file that was found there has been copied.  What
the trap on `EXIT` removes after that is another question (`Usb/Cleanup`).

* `EspWriter.Met` : what must have been asked.
* `BackedUp` : the boot files that were found have been copied since the ESP was mounted.
* `EspWriter.Aimed` : where a command may write.
* `esp_writes_granted` : in every run every command that writes was asked for and is aimed.
-/

namespace InstallKit

namespace Usb

open Shell

/-- The command writes to a disk or into a tree of files. -/
def Cmd.Writes : Cmd → Prop
  | .rm _ | .cp _ _ | .rsync _ _ | .dd _ _ _ _ _ _ | .mkfs _ _ | .fsck _ | .partition _ _
  | .bootTool _ _ _ | .installOpenduet _ _ _ | .macrecovery _ _ => True
  | .mount _ rw _ _ => rw = true
  | _ => False

/-! ### Backups -/

/-- The partition was mounted at `m`, and `s` is what has been run since then; nothing in it
unmounts `m`. -/
def Session (esp : String) (m : Loc) (l s : Log) : Prop :=
  (∀ e ∈ s, ∀ quiet, e.1 ≠ .umount m quiet) ∧
    ∃ opts r l₀, r.ok = true ∧ l = s ++ (.mount opts true esp m, r) :: l₀

/-- The file or tree was not found, or was copied. -/
def Saved (m b : Loc) (s : Log) (t : FileTest) (name : String) : Prop :=
  (∃ r, (Cmd.query (.test t (.sub m name)), r) ∈ s ∧ r.ok = false) ∨
    ∃ r, (Cmd.cp (.sub m name) (.sub b name), r) ∈ s ∧ r.ok = true

/-- What was found on the mounted partition was copied. -/
def BackedUp (esp : String) (m : Loc) (l : Log) : Prop :=
  ∃ b s, Session esp m l s ∧ Saved m (.host b) s .d "EFI" ∧ Saved m (.host b) s .d "Kernels" ∧
    Saved m (.host b) s .f "boot"

variable {esp : String} {m b : Loc} {l s : Log} {c : Cmd} {r : Reply} {t : FileTest}
  {name : String}

theorem session_mount {opts : String} (hr : r.ok = true) :
    Session esp m ((.mount opts true esp m, r) :: l) [] :=
  ⟨fun _ he => (List.not_mem_nil he).elim, opts, r, l, hr, rfl⟩

theorem Session.push (h : Session esp m l s) (hc : ∀ quiet, c ≠ .umount m quiet) :
    Session esp m ((c, r) :: l) ((c, r) :: s) := by
  obtain ⟨hs, opts, r₀, l₀, hr₀, rfl⟩ := h
  exact ⟨List.forall_mem_cons.2 ⟨hc, hs⟩, opts, r₀, l₀, hr₀, rfl⟩

theorem answered_mono {s' : Log} {P : Reply → Prop} (hs : s ⊆ s') (h : ∃ r, (c, r) ∈ s ∧ P r) :
    ∃ r, (c, r) ∈ s' ∧ P r :=
  h.imp fun _ hr => ⟨hs hr.1, hr.2⟩

theorem answered_push {e : Cmd × Reply} {P : Reply → Prop} (h : ∃ r, (c, r) ∈ l ∧ P r) :
    ∃ r, (c, r) ∈ e :: l ∧ P r :=
  answered_mono (List.subset_cons_self _ _) h

theorem Saved.mono {s' : Log} (h : Saved m b s t name) (hs : s ⊆ s') : Saved m b s' t name :=
  h.imp (answered_mono hs) (answered_mono hs)

theorem BackedUp.push (h : BackedUp esp m l) (hc : ∀ quiet, c ≠ .umount m quiet) :
    BackedUp esp m ((c, r) :: l) := by
  obtain ⟨b, s, hs, hefi, hkernels, hboot⟩ := h
  have hsub : s ⊆ (c, r) :: s := List.subset_cons_self _ _
  exact ⟨b, _, hs.push hc, hefi.mono hsub, hkernels.mono hsub, hboot.mono hsub⟩

theorem ensures_askChecked {W : Type} {E : Log → Cmd → Reply → W → W → Prop} {I : Log → W → Prop}
    {w : W} {q : Query} {Q : Reply → Log → W → Prop} (hI : I l w)
    (h : ∀ r w', E l (.query q) r w w' →
      I ((.query q, r) :: l) w' ∧ (r.ok = true → Q r ((.query q, r) :: l) w')) :
    Ensures E I (askChecked q) Q l w := by
  refine ⟨hI, fun r w' hE => ⟨(h r w' hE).1, fun hr => ?_⟩⟩
  exact ⟨(h r w' hE).1, (h r w' hE).2 (Reply.ok_iff.2 (hr rfl))⟩

theorem ensures_holds {W : Type} {E : Log → Cmd → Reply → W → W → Prop} {I : Log → W → Prop}
    {w : W} {q : Query} {Q : Bool → Log → W → Prop} (hI : I l w)
    (h : ∀ r w', E l (.query q) r w w' →
      I ((.query q, r) :: l) w' ∧ Q r.ok ((.query q, r) :: l) w') :
    Ensures E I (holds q) Q l w := by
  rw [holds, ensures_bind]
  exact ensures_ask hI fun r w' hE => ⟨(h r w' hE).1, (h r w' hE).1, (h r w' hE).2⟩

/-! ### What is asked -/

/-- The programs that replace the boot files of an ESP. -/
inductive EspWriter
  /-- `linux_update_efi.sh` -/
  | updateEfi (a : UpdateEfi.Args)
  /-- `linux_make_usb_legacy.sh` -/
  | legacy (a : MakeUsb.Args)

namespace EspWriter

/-- The program. -/
def main : EspWriter → Sh ℕ
  | updateEfi a => UpdateEfi.main a
  | legacy a => MakeUsb.main a

/-- `--disk` -/
def disk : EspWriter → String
  | updateEfi a => a.disk
  | legacy a => a.disk

/-- `--allow-internal` -/
def allowInternal : EspWriter → Bool
  | updateEfi a => a.allowInternal
  | legacy a => a.allowInternal

/-- `--dry-run` -/
def dryRun : EspWriter → Bool
  | updateEfi a => a.dryRun
  | legacy a => a.dryRun

/-- The whole disk is written. -/
def Erases : EspWriter → Prop
  | updateEfi _ => False
  | legacy a => a.mode = .makeUsb

/-- What is to be typed. -/
def phrase (esp : String) : EspWriter → String
  | updateEfi a => "UPDATE EFI " ++ esp ++ " ON " ++ a.disk
  | legacy a => if a.mode = .makeUsb then "ERASE " ++ a.disk
    else "UPDATE EFI " ++ esp ++ " ON " ++ a.disk

/-- `/` is on no block device, or on one whose parent is not the disk. -/
def NotParent (source disk : String) (l : Log) : Prop :=
  source = "" ∨ (∃ r, (Cmd.query (.test .b (.host source)), r) ∈ l ∧ r.ok = false) ∨
    ∃ r, (Cmd.query (.lsblkPkname source), r) ∈ l ∧
      (r.firstLine = "" ∨ disk ≠ "/dev/" ++ r.firstLine)

/-- The disk is neither the source of `/` nor its parent. -/
def NotRoot (disk : String) (l : Log) : Prop :=
  ∃ r, (Cmd.query .findmntRoot, r) ∈ l ∧ disk ≠ r.text ∧ NotParent r.text disk l

/-- The guards have let the disk through. -/
structure Passed (w : EspWriter) (l : Log) : Prop where
  notRoot : NotRoot w.disk l
  removable : w.allowInternal = true ∨
    (∃ r, (Cmd.query (.lsblkRm w.disk), r) ∈ l ∧ trBlank r.text = "1") ∨
    ∃ r, (Cmd.query (.lsblkTran w.disk), r) ∈ l ∧ trBlank r.text = "usb"

/-- Everything has been asked, and answered. -/
structure Met (w : EspWriter) (esp : String) (l : Log) : Prop extends w.Passed l where
  real : w.dryRun = false
  typed : ∃ r, (Cmd.query .readLine, r) ∈ l ∧ r.text = w.phrase esp

/-- The path is the mount point of the installer volume, or right below it. -/
def OnInstaller (d : Loc) : Prop :=
  ∃ t, d = MakeUsb.installerMount t ∨ ∃ name, d = .sub (MakeUsb.installerMount t) name

@[simp] theorem onInstaller_mount {t : Bool} : OnInstaller (MakeUsb.installerMount t) :=
  ⟨t, Or.inl rfl⟩

@[simp] theorem onInstaller_sub {t : Bool} :
    OnInstaller (.sub (MakeUsb.installerMount t) name) := ⟨t, Or.inr ⟨name, rfl⟩⟩

/-- Where a command that writes may be aimed. -/
def Aimed (w : EspWriter) (esp inst : String) (l : Log) : Cmd → Prop
  | .partition _ d => w.Erases ∧ d = w.disk
  | .mkfs .vfat d => w.Erases ∧ d = esp
  | .mkfs .hfsplus d | .fsck d | .dd _ (.part d) _ _ _ _ => w.Erases ∧ d = inst
  | .mount _ _ d _ => d = esp ∨ w.Erases ∧ d = inst
  | .bootTool _ d p => d = basename w.disk ∧ p = basename esp
  | .installOpenduet d p _ => d = w.disk ∧ p = esp
  | .rm ls => ∃ m, BackedUp esp m l ∧ ls = [.sub m "EFI", .sub m "Kernels"]
  | .cp src dst =>
    (∃ m b s name, Session esp m l s ∧ src = .sub m name ∧ dst = .sub (.host b) name) ∨
      (∃ m name, BackedUp esp m l ∧ dst = .sub m name) ∨
      w.Erases ∧ OnInstaller dst
  | .rsync _ d => w.Erases ∧ OnInstaller d
  | _ => False

/-- What a command that writes has to show. -/
def Granted (w : EspWriter) (esp inst : String) (l : Log) (c : Cmd) : Prop :=
  c.Writes → w.Met esp l ∧ w.Aimed esp inst l c

variable {w : EspWriter} {inst dir : String} {u : Unit} {α : Type}

theorem NotParent.push {source d : String} (h : NotParent source d l) :
    NotParent source d ((c, r) :: l) :=
  h.imp_right (Or.imp answered_push answered_push)

theorem NotRoot.push {d : String} (h : NotRoot d l) : NotRoot d ((c, r) :: l) :=
  h.imp fun _ hr => ⟨List.mem_cons_of_mem _ hr.1, hr.2.1, hr.2.2.push⟩

theorem Passed.push (h : w.Passed l) : w.Passed ((c, r) :: l) where
  notRoot := h.notRoot.push
  removable := h.removable.imp_right (Or.imp answered_push answered_push)

theorem Met.push (h : w.Met esp l) : w.Met esp ((c, r) :: l) :=
  ⟨h.toPassed.push, h.real, answered_push h.typed⟩

/-- The steps of a run: the commands answer anything. -/
def Any (_ : Log) (_ : Cmd) (_ : Reply) (_ _ : Unit) : Prop := True

/-- All that was written was granted, for some two partitions. -/
def Inv (w : EspWriter) (l : Log) (_ : Unit) : Prop :=
  ∃ esp inst, Vetted (w.Granted esp inst) l

/-! ### Before the phrase -/

/-- Nothing was written yet. -/
def Quiet (l : Log) : Prop := ∀ e ∈ l, ¬ e.1.Writes

theorem Quiet.push (h : Quiet l) (hc : ¬ c.Writes) : Quiet ((c, r) :: l) :=
  List.forall_mem_cons.2 ⟨hc, h⟩

theorem Quiet.vetted (h : Quiet l) : Vetted (w.Granted esp inst) l := by
  induction l with
  | nil => trivial
  | cons e l ih =>
    obtain ⟨hc, hl⟩ := List.forall_mem_cons.1 h
    exact ⟨fun hw => absurd hw hc, ih hl⟩

theorem Quiet.inv (h : Quiet l) : w.Inv l u := ⟨"", "", h.vetted⟩

theorem ensures_quiet {p : Sh α} (hp : p.Calls fun c => ¬ c.Writes) (h : Quiet l) :
    Ensures Any w.Inv p (fun _ l _ => Quiet l) l u :=
  ensures_of_calls (J := fun l _ => Quiet l) hp (fun _ _ _ _ _ hc _ h => h.push hc)
    (fun _ _ h => h.inv) h

/-- The guards have let the disk through, and nothing was written. -/
structure Clear (w : EspWriter) (l : Log) : Prop where
  quiet : Quiet l
  passed : w.Passed l

theorem ensures_clear {p : Sh α} (hp : p.Calls fun c => ¬ c.Writes) (h : w.Clear l) :
    Ensures Any w.Inv p (fun _ l _ => w.Clear l) l u :=
  ensures_of_calls (J := fun l _ => w.Clear l) hp
    (fun _ _ _ _ _ hc _ h => ⟨h.quiet.push hc, h.passed.push⟩) (fun _ _ h => h.quiet.inv) h

/-- The parent of the source of `/`. -/
theorem ensures_rootParent {source d : String} (h : Quiet l) :
    Ensures Any w.Inv (rootParent source) (fun parent l _ => Quiet l ∧
      (d ≠ parent → NotParent source d l)) l u := by
  rw [rootParent]
  split
  · rename_i hsource
    exact ⟨h.inv, h, fun _ => Or.inl hsource⟩
  rw [ensures_bind]
  refine ensures_holds h.inv fun block _ _ => ?_
  have h₁ : Quiet ((.query (.test .b (.host source)), block) :: l) := h.push id
  refine ⟨h₁.inv, ?_⟩
  cases hblock : block.ok with
  | false => exact ⟨h₁.inv, h₁, fun _ => Or.inr (Or.inl ⟨block, List.mem_cons_self, hblock⟩)⟩
  | true =>
    rw [if_neg (by simp), ensures_bind]
    refine ensures_ask h₁.inv fun parent _ _ => ?_
    have h₂ := h₁.push (c := .query (.lsblkPkname source)) (r := parent) id
    refine ⟨h₂.inv, h₂.inv, h₂, fun hd => Or.inr (Or.inr ⟨parent, List.mem_cons_self, ?_⟩)⟩
    by_cases hempty : parent.firstLine = ""
    · exact Or.inl hempty
    · exact Or.inr (by simpa [hempty] using hd)

/-- The comparison with the source of `/`. -/
theorem ensures_rootGuard {msg : String} (h : Quiet l) :
    Ensures Any w.Inv (rootGuard w.disk msg) (fun _ l _ => Quiet l ∧ NotRoot w.disk l) l u := by
  rw [rootGuard, ensures_bind]
  refine ensures_ask h.inv fun root _ _ => ⟨(h.push id).inv, ?_⟩
  rw [ensures_bind]
  refine ((ensures_rootParent (d := w.disk) (h.push id)).extends (List.suffix_refl _)).imp
    fun _ l₁ _ hl => ?_
  obtain ⟨⟨h₁, hparent⟩, hl₁⟩ := hl
  refine ensures_orDie h₁.inv fun hne => ⟨h₁, root, hl₁.subset List.mem_cons_self, ?_⟩
  exact (of_decide_eq_true hne).imp_right hparent

/-- The removable/USB test. -/
theorem ensures_removableGuard (h : Quiet l)
    (hroot : NotRoot w.disk l) :
    Ensures Any w.Inv (removableGuard w.disk w.allowInternal) (fun _ l _ => w.Clear l) l u := by
  rw [removableGuard, removableFlags, bind_assoc, ensures_bind]
  refine ensures_askChecked h.inv fun rm _ _ => ⟨(h.push id).inv, fun _ => ?_⟩
  rw [bind_assoc, ensures_bind]
  refine ensures_askChecked (h.push id).inv fun tran _ _ => ⟨((h.push id).push id).inv, fun _ => ?_⟩
  have hquiet := (h.push (r := rm) (c := .query (.lsblkRm w.disk)) id).push (r := tran)
    (c := .query (.lsblkTran w.disk)) id
  have hnotRoot := (hroot.push (r := rm) (c := .query (.lsblkRm w.disk))).push (r := tran)
    (c := .query (.lsblkTran w.disk))
  simp only [pure_bind]
  split
  · exact hquiet.inv
  · rename_i hflags
    refine ⟨hquiet.inv, hquiet, hnotRoot, ?_⟩
    simp only [Bool.and_eq_true, Bool.not_eq_true', decide_eq_true_eq, not_and, not_not] at hflags
    by_cases hallow : w.allowInternal = true
    · exact Or.inl hallow
    by_cases hrm : trBlank rm.text = "1"
    · exact Or.inr (Or.inl ⟨rm, List.mem_cons_of_mem _ List.mem_cons_self, hrm⟩)
    · refine Or.inr (Or.inr ⟨tran, List.mem_cons_self, ?_⟩)
      exact hflags ⟨Bool.eq_false_iff.2 hallow, hrm⟩

/-- `--dry-run` ends the program. -/
theorem ensures_dryRunExit {q : Query} (h : w.Clear l) :
    Ensures Any w.Inv (if w.dryRun then (do
        let _ ← holds q
        Script.exit 0 "DRY RUN") else pure () : Sh Unit)
      (fun _ l _ => w.dryRun = false ∧ w.Clear l) l u := by
  split
  · rw [ensures_bind]
    refine ensures_holds h.quiet.inv fun r _ _ => ?_
    have h₁ : Quiet ((.query q, r) :: l) := h.quiet.push id
    exact ⟨h₁.inv, h₁.inv⟩
  · rename_i hreal
    exact ⟨h.quiet.inv, Bool.eq_false_iff.2 hreal, h⟩

/-! ### After it -/

/-- Everything that was written was granted, and more may be. -/
structure Open (w : EspWriter) (esp inst : String) (l : Log) : Prop where
  vetted : Vetted (w.Granted esp inst) l
  met : w.Met esp l

theorem Open.inv (h : w.Open esp inst l) : w.Inv l u := ⟨esp, inst, h.vetted⟩

theorem Open.push (h : w.Open esp inst l) (hc : c.Writes → w.Aimed esp inst l c) :
    w.Open esp inst ((c, r) :: l) :=
  ⟨⟨fun hw => ⟨h.met, hc hw⟩, h.vetted⟩, h.met.push⟩

/-- The typed confirmation. -/
theorem ensures_typed {expected msg : String} (hreal : w.dryRun = false) (h : w.Clear l) :
    Ensures Any w.Inv (do
      let answer := (← askChecked .readLine).text
      orDie (answer = expected) msg : Sh Unit)
      (fun _ l _ => ∀ esp inst, w.phrase esp = expected → w.Open esp inst l) l u := by
  rw [ensures_bind]
  refine ensures_askChecked h.quiet.inv fun r _ _ => ?_
  have h₁ : Quiet ((.query .readLine, r) :: l) := h.quiet.push id
  refine ⟨h₁.inv, fun _ => ensures_orDie h₁.inv fun htext esp inst hphrase => ?_⟩
  -- Nothing was written before the phrase: the log is vetted for whatever partitions come later.
  refine ⟨h₁.vetted, h.passed.push, hreal, r, List.mem_cons_self, ?_⟩
  rw [hphrase]
  exact of_decide_eq_true htext

/-- A part whose commands are aimed at any moment. -/
theorem ensures_open {p : Sh α} (hp : p.Calls fun c => c.Writes → ∀ l, w.Aimed esp inst l c)
    (h : w.Open esp inst l) : Ensures Any w.Inv p (fun _ l _ => w.Open esp inst l) l u :=
  ensures_of_calls (J := fun l _ => w.Open esp inst l) hp
    (fun _ _ _ _ _ hc _ h => h.push fun hw => hc hw _) (fun _ _ h => h.inv) h

/-- `[[ -t m/name ]] && cp -a m/name b/name` -/
theorem ensures_backupIf (h : w.Open esp inst l) (hs : Session esp m l s) :
    Ensures Any w.Inv (backupIf t (.sub m name) (.sub (.host dir) name))
      (fun _ l' _ => w.Open esp inst l' ∧ ∃ s', Session esp m l' s' ∧ s ⊆ s' ∧
        Saved m (.host dir) s' t name) l u := by
  rw [backupIf, ensures_bind]
  refine ensures_holds h.inv fun r _ _ => ?_
  have h₁ : w.Open esp inst ((.query (.test t (.sub m name)), r) :: l) := h.push False.elim
  have hs₁ := hs.push (c := .query (.test t (.sub m name))) (r := r) fun _ => by simp
  refine ⟨h₁.inv, ?_⟩
  split
  · refine ensures_exec h₁.inv fun r' _ _ => ?_
    have h₂ := h₁.push (c := .cp (.sub m name) (.sub (.host dir) name)) (r := r') fun _ =>
      Or.inl ⟨m, dir, _, name, hs₁, rfl, rfl⟩
    refine ⟨h₂.inv, fun hr' => ⟨h₂, _, hs₁.push fun _ => by simp, ?_, ?_⟩⟩
    · exact fun _ he => List.mem_cons_of_mem _ (List.mem_cons_of_mem _ he)
    · exact Or.inr ⟨r', List.mem_cons_self, hr'⟩
  · rename_i hr
    refine ⟨h₁.inv, h₁, _, hs₁, List.subset_cons_self _ _, ?_⟩
    exact Or.inl ⟨r, List.mem_cons_self, Bool.eq_false_iff.2 hr⟩

/-- Where nothing is found, everything was looked for. -/
theorem ensures_hasEfiFiles (dir : String) (h : w.Open esp inst l) (hs : Session esp m l s) :
    Ensures Any w.Inv (hasEfiFiles m) (fun found l' _ => w.Open esp inst l' ∧
      ∃ s', Session esp m l' s' ∧ (found = false → Saved m (.host dir) s' .d "EFI" ∧
        Saved m (.host dir) s' .d "Kernels" ∧ Saved m (.host dir) s' .f "boot")) l u := by
  have step : ∀ (t name) {l s}, w.Open esp inst l → Session esp m l s → ∀ r : Reply,
      w.Open esp inst ((.query (.test t (.sub m name)), r) :: l) ∧
        Session esp m ((.query (.test t (.sub m name)), r) :: l)
          ((.query (.test t (.sub m name)), r) :: s) :=
    fun _ _ _ _ h hs r => ⟨h.push False.elim, hs.push fun _ => by simp⟩
  -- `||` stops at the first test that succeeds, so only three failures say that nothing was found.
  rw [hasEfiFiles, ensures_bind]
  refine ensures_holds h.inv fun r _ _ => ?_
  obtain ⟨h₁, hs₁⟩ := step .d "EFI" h hs r
  refine ⟨h₁.inv, ?_⟩
  split
  · exact ⟨h₁.inv, h₁, _, hs₁, fun hfalse => by cases hfalse⟩
  rename_i hefi
  rw [ensures_bind]
  refine ensures_holds h₁.inv fun r' _ _ => ?_
  obtain ⟨h₂, hs₂⟩ := step .d "Kernels" h₁ hs₁ r'
  refine ⟨h₂.inv, ?_⟩
  split
  · exact ⟨h₂.inv, h₂, _, hs₂, fun hfalse => by cases hfalse⟩
  rename_i hkernels
  refine ensures_holds h₂.inv fun r'' _ _ => ?_
  obtain ⟨h₃, hs₃⟩ := step .f "boot" h₂ hs₂ r''
  refine ⟨h₃.inv, h₃, _, hs₃, fun hboot => ⟨Or.inl ⟨r, ?_, Bool.eq_false_iff.2 hefi⟩,
    Or.inl ⟨r', ?_, Bool.eq_false_iff.2 hkernels⟩, Or.inl ⟨r'', List.mem_cons_self, hboot⟩⟩⟩
  · exact List.mem_cons_of_mem _ (List.mem_cons_of_mem _ List.mem_cons_self)
  · exact List.mem_cons_of_mem _ List.mem_cons_self

/-- **The backup**: what is found on the mounted partition is copied. -/
theorem ensures_backupEsp (h : w.Open esp inst l) (hs : Session esp m l s) :
    Ensures Any w.Inv (backupEsp m (.host dir))
      (fun _ l _ => w.Open esp inst l ∧ BackedUp esp m l) l u := by
  rw [backupEsp, ensures_bind]
  refine (ensures_hasEfiFiles dir h hs).imp fun found l u h => ?_
  obtain ⟨h, s, hs, hnone⟩ := h
  cases found with
  | false =>
    obtain ⟨hefi, hkernels, hboot⟩ := hnone rfl
    exact ⟨h.inv, h, dir, s, hs, hefi, hkernels, hboot⟩
  | true =>
    rw [if_pos rfl, ensures_bind]
    refine ensures_exec h.inv fun r _ _ => ?_
    have h₁ := h.push (c := .mkdir [.host dir]) (r := r) False.elim
    refine ⟨h₁.inv, fun _ => ?_⟩
    have hs₁ := hs.push (c := .mkdir [.host dir]) (r := r) fun _ => by simp
    rw [ensures_bind]
    refine (ensures_backupIf h₁ hs₁).imp fun _ l u h => ?_
    obtain ⟨h, s, hs, -, hefi⟩ := h
    rw [ensures_bind]
    refine (ensures_backupIf h hs).imp fun _ l u h => ?_
    obtain ⟨h, s', hs, hsub, hkernels⟩ := h
    refine (ensures_backupIf h hs).imp fun _ l u h => ?_
    obtain ⟨h, s'', hs, hsub', hboot⟩ := h
    exact ⟨h, dir, s'', hs, hefi.mono (List.Subset.trans hsub hsub'), hkernels.mono hsub', hboot⟩

/-- What may be run once the boot files are saved. -/
def Replaces (m : Loc) (c : Cmd) : Prop :=
  (∀ quiet, c ≠ .umount m quiet) ∧
    (c.Writes → c = .rm [.sub m "EFI", .sub m "Kernels"] ∨ ∃ src name, c = .cp src (.sub m name))

theorem Replaces.aimed (hc : Replaces m c) (hb : BackedUp esp m l) :
    c.Writes → w.Aimed esp inst l c := by
  intro hw
  rcases hc.2 hw with rfl | ⟨src, name, rfl⟩
  · exact ⟨m, hb, rfl⟩
  · exact Or.inr (Or.inl ⟨m, name, hb, rfl⟩)

/-- A part that replaces what has been saved. -/
theorem ensures_replaces {p : Sh α} (hp : p.Calls (Replaces m)) (h : w.Open esp inst l)
    (hb : BackedUp esp m l) : Ensures Any w.Inv p (fun _ l _ => w.Open esp inst l) l u :=
  (ensures_of_calls (J := fun l _ => w.Open esp inst l ∧ BackedUp esp m l) hp
    (fun _ _ _ _ _ hc _ h => ⟨h.1.push (hc.aimed h.2), h.2.push hc.1⟩)
    (fun _ _ h => h.1.inv) ⟨h, hb⟩).imp fun _ _ _ h => h.1

/-! ### `linux_update_efi.sh` -/

section UpdateEfi

variable {a : UpdateEfi.Args}

theorem ensures_update {root : String} (h : (updateEfi a).Open esp inst l) :
    Ensures Any (updateEfi a).Inv (UpdateEfi.update a root esp)
      (fun _ l _ => (updateEfi a).Open esp inst l) l u := by
  rw [UpdateEfi.update, ensures_bind]
  refine (ensures_open (by simp [unmountDisk, Cmd.Writes]) h).imp fun _ l u h => ?_
  rw [ensures_bind]
  refine (ensures_open (by simp [UpdateEfi.makeMountDir, Cmd.Writes]) h).imp fun m l u h => ?_
  -- the volume is mounted, and its tree goes to a backup with a new name
  rw [ensures_bind]
  refine ensures_exec h.inv fun r _ _ => ?_
  have h₁ : (updateEfi a).Open esp inst ((.mount "-t vfat -o rw,noatime" true esp m, r) :: l) :=
    h.push fun _ => Or.inl rfl
  refine ⟨h₁.inv, fun hr => ?_⟩
  have hs : Session esp m ((.mount "-t vfat -o rw,noatime" true esp m, r) :: l) [] :=
    session_mount hr
  rw [ensures_bind]
  refine ensures_ask h₁.inv fun date _ _ => ?_
  have h₂ := h₁.push (c := .query .date) (r := date) False.elim
  refine ⟨h₂.inv, ?_⟩
  rw [ensures_bind]
  refine (ensures_backupEsp h₂ (hs.push fun _ => by simp)).imp fun _ l u h => ?_
  obtain ⟨h, hb⟩ := h
  rw [ensures_bind]
  -- only then is it replaced
  refine (ensures_replaces ?_ h hb).imp fun _ l u h => ?_
  · simp [UpdateEfi.replaceEfi, Replaces, Cmd.Writes]
  refine ensures_open ?_ h
  simp [UpdateEfi.checkCopy, UpdateEfi.requireBootFile, UpdateEfi.releaseMountDir,
    UpdateEfi.verify, UpdateEfi.makeMountDir, UpdateEfi.verifyCopy, Cmd.Writes, Aimed, disk]

theorem ensures_updateEfi : Ensures Any (updateEfi a).Inv (updateEfi a).main
    (fun _ _ _ => True) [] () := by
  have hquiet : Quiet [] := fun _ he => (List.not_mem_nil he).elim
  rw [main, UpdateEfi.main, UpdateEfi.guardSection]
  simp only [bind_assoc]
  rw [ensures_bind]
  refine (ensures_quiet ?_ hquiet).imp fun root l u h => ?_
  · simp [UpdateEfi.requireInputs, requireLinux, requireWholeDisk, UpdateEfi.requireBuild,
      UpdateEfi.requireInstaller, Cmd.Writes]
  rw [ensures_bind]
  refine (ensures_rootGuard (w := updateEfi a) h).imp fun _ l u h => ?_
  obtain ⟨h, hroot⟩ := h
  rw [ensures_bind]
  refine (ensures_removableGuard (w := updateEfi a) h hroot).imp fun _ l u h => ?_
  simp only [pure_bind]
  rw [ensures_bind]
  refine (ensures_clear (UpdateEfi.calls_selectEsp (fun _ => id) fun _ => id) h).imp
    fun esp l u h => ?_
  rw [ensures_bind]
  refine (ensures_dryRunExit (w := updateEfi a) h).imp fun _ l u h => ?_
  obtain ⟨hreal, h⟩ := h
  rw [ensures_bind]
  refine (ensures_typed (w := updateEfi a) hreal h).imp fun _ l u h => ?_
  exact (ensures_update (h esp "" rfl)).imp fun _ _ _ _ => trivial

end UpdateEfi

/-! ### `linux_make_usb_legacy.sh` -/

section Legacy

variable {a : MakeUsb.Args} {root : String} {temp : Bool} {tool : Loc}

theorem ensures_copyEfiTree (h : (legacy a).Open esp inst l) :
    Ensures Any (legacy a).Inv (MakeUsb.copyEfiTree a.disk root esp temp)
      (fun _ l _ => (legacy a).Open esp inst l) l u := by
  rw [MakeUsb.copyEfiTree, MakeUsb.mountEsp]
  simp only [bind_assoc]
  rw [Script.setVar_bind, ensures_assign]
  refine ⟨h.inv, ?_⟩
  rw [ensures_bind]
  refine (ensures_open (by simp [Cmd.Writes]) h).imp fun _ l u h => ?_
  rw [ensures_bind]
  refine ensures_exec h.inv fun r _ _ => ?_
  have h₁ := h.push (c := .mount "-t vfat -o rw,noatime" true esp (tempPath temp "esp")) (r := r)
    fun _ => Or.inl rfl
  refine ⟨h₁.inv, fun hr => ?_⟩
  have hs : Session esp (tempPath temp "esp")
      ((.mount "-t vfat -o rw,noatime" true esp (tempPath temp "esp"), r) :: l) [] :=
    session_mount hr
  rw [ensures_bind]
  refine ensures_ask h₁.inv fun pwd _ _ => ?_
  have h₂ := h₁.push (c := .query .pwd) (r := pwd) False.elim
  have hs₂ := hs.push (c := .query .pwd) (r := pwd) fun _ => by simp
  refine ⟨h₂.inv, ?_⟩
  rw [ensures_bind]
  refine ensures_ask h₂.inv fun date _ _ => ?_
  have h₃ := h₂.push (c := .query .date) (r := date) False.elim
  refine ⟨h₃.inv, ?_⟩
  rw [ensures_bind]
  refine (ensures_backupEsp h₃ (hs₂.push fun _ => by simp)).imp fun _ l u h => ?_
  obtain ⟨h, hb⟩ := h
  rw [ensures_bind]
  -- only after the backup is the tree replaced
  refine (ensures_replaces ?_ h hb).imp fun _ l u h => ?_
  · simp [MakeUsb.replaceEfi, Replaces, Cmd.Writes]
  refine ensures_open ?_ h
  simp [MakeUsb.checkCopy, Cmd.Writes]

theorem calls_installOpenduet : (MakeUsb.installOpenduet a.disk esp root tool).Calls
    fun c => c.Writes → ∀ l, (legacy a).Aimed esp inst l c := by
  simp [MakeUsb.installOpenduet, Cmd.Writes, Aimed, disk]

/-- The look at the result writes nothing. -/
theorem calls_verifyTarget {e i : String} :
    (MakeUsb.verifyTarget a root e i temp).Calls fun c => ¬ c.Writes := by
  simp [MakeUsb.verifyTarget, MakeUsb.partitionExists, MakeUsb.prepareTemp, MakeUsb.makeTempDir,
    MakeUsb.verifyEsp, MakeUsb.verifyInstaller, MakeUsb.kernelVersionOk, Cmd.Writes]

/-- What both operations do with the ESP, before they look at the result. -/
theorem ensures_finish {f : Unit → Sh ℕ} (hf : (f ()).Calls fun c => ¬ c.Writes)
    (h : (legacy a).Open esp inst l) : Ensures Any (legacy a).Inv (do
      MakeUsb.copyEfiTree a.disk root esp temp
      MakeUsb.installOpenduet a.disk esp root tool
      exec .sync >>= f : Sh ℕ) (fun _ l _ => (legacy a).Open esp inst l) l u := by
  rw [ensures_bind]
  refine (ensures_copyEfiTree h).imp fun _ l u h => ?_
  rw [ensures_bind]
  refine (ensures_open calls_installOpenduet h).imp fun _ l u h => ?_
  rw [ensures_bind]
  refine (ensures_open (by simp [Cmd.Writes]) h).imp fun _ l u h => ?_
  exact ensures_open (hf.mono fun c hc hw => absurd hw hc) h

theorem ensures_rewriteEsp (hmode : a.mode ≠ .makeUsb) (h : (legacy a).Clear l) :
    Ensures Any (legacy a).Inv (MakeUsb.rewriteEsp a root tool temp esp)
      (fun _ _ _ => True) l u := by
  rw [MakeUsb.rewriteEsp, ensures_bind]
  refine (ensures_dryRunExit (w := legacy a) h).imp fun _ l u h => ?_
  obtain ⟨hreal, h⟩ := h
  rw [ensures_bind]
  refine (ensures_typed (w := legacy a) hreal h).imp fun _ l u h => ?_
  have h : (legacy a).Open esp "" l := h esp "" (if_neg hmode)
  rw [ensures_bind]
  refine (ensures_open (by simp [unmountDisk, Cmd.Writes]) h).imp fun _ l u h => ?_
  exact (ensures_finish (by simp [calls_verifyTarget]) h).imp fun _ _ _ _ => trivial

/-- A part of `--make-usb` that does not depend on the partitions. -/
theorem ensures_erases {p : Sh α}
    (hp : p.Calls fun c => c.Writes → ∀ esp inst l, w.Aimed esp inst l c)
    (h : ∀ esp inst, w.Open esp inst l) :
    Ensures Any w.Inv p (fun _ l _ => ∀ esp inst, w.Open esp inst l) l u :=
  ensures_of_calls (J := fun l _ => ∀ esp inst, w.Open esp inst l) hp
    (fun _ _ _ _ _ hc _ h esp inst => (h esp inst).push fun hw => hc hw esp inst _)
    (fun _ _ h => (h "" "").inv) h

/-- The installer volume is written on the second partition. -/
theorem calls_restore {src : MakeUsb.Source} (hmode : a.mode = .makeUsb) :
    (MakeUsb.restore a src inst temp).Calls
      fun c => c.Writes → ∀ l, (legacy a).Aimed esp inst l c := by
  have hfiles : (MakeUsb.restoreFiles a src inst temp).Calls
      fun c => c.Writes → ∀ l, (legacy a).Aimed esp inst l c := by
    simp [MakeUsb.restoreFiles, MakeUsb.mountHfsRw, MakeUsb.sourceHasInstallerMarkers,
      MakeUsb.installAmdKernel, MakeUsb.backupKernel, MakeUsb.kernelVersionOk, Cmd.Writes, Aimed,
      Erases, hmode]
  unfold MakeUsb.restore
  split
  · refine Script.calls_bind.2 ⟨Script.calls_unchecked.2 ?_, fun r _ => ?_⟩
    · simp [MakeUsb.restoreBlock, MakeUsb.cloneAndPatch, MakeUsb.releaseSource, MakeUsb.checkClone,
        MakeUsb.cloneWrite, MakeUsb.mountHfsRw, MakeUsb.sourceHasInstallerMarkers,
        MakeUsb.installAmdKernel, MakeUsb.backupKernel, MakeUsb.kernelVersionOk, Cmd.Writes, Aimed,
        Erases, hmode]
    · cases r with
      -- The copy of the blocks was given up: the files are copied instead.
      | fallback => exact hfiles
      | status n => cases n <;> trivial
  · exact hfiles

theorem ensures_write {src : MakeUsb.Source} (hmode : a.mode = .makeUsb)
    (h : ∀ esp inst, (legacy a).Open esp inst l) :
    Ensures Any (legacy a).Inv (MakeUsb.write a root tool temp src) (fun _ _ _ => True) l u := by
  rw [MakeUsb.write, ensures_bind]
  refine (ensures_erases (by simp [unmountDisk, Cmd.Writes]) h).imp fun _ l u h => ?_
  rw [ensures_bind]
  refine (ensures_erases ?_ h).imp fun _ l u h => ?_
  · simp [MakeUsb.repartition, MakeUsb.settlePartitions, Cmd.Writes, Aimed, Erases, hmode, disk]
  rw [ensures_bind]
  refine (ensures_erases (by simp [MakeUsb.findPartitions, Cmd.Writes]) h).imp
    fun parts l u h => ?_
  obtain ⟨esp, inst⟩ := parts
  have h : (legacy a).Open esp inst l := h esp inst
  rw [ensures_bind]
  refine (ensures_open (by simp [Cmd.Writes, Aimed, Erases, hmode]) h).imp fun _ l u h => ?_
  rw [ensures_bind]
  refine (ensures_open (calls_restore hmode) h).imp fun _ l u h => ?_
  rw [MakeUsb.finish]
  exact (ensures_finish calls_verifyTarget h).imp fun _ _ _ _ => trivial

theorem calls_prepareSourceImage {src : String} : (MakeUsb.prepareSourceImage src temp).Calls
    fun c => ¬ c.Writes := by
  simp [MakeUsb.prepareSourceImage, MakeUsb.prepareTemp, MakeUsb.makeTempDir,
    MakeUsb.sourceHasInstallerMarkers, MakeUsb.convertImage, MakeUsb.calls_findInstallerVolume,
    Cmd.Writes]

theorem ensures_entry : Ensures Any (legacy a).Inv (MakeUsb.entry a)
    (fun _ l _ => (legacy a).Clear l) [] () := by
  have hquiet : Quiet [] := fun _ he => (List.not_mem_nil he).elim
  rw [MakeUsb.entry, MakeUsb.guardSection]
  simp only [bind_assoc]
  rw [ensures_bind]
  refine (ensures_quiet (by simp [requireLinux, Cmd.Writes]) hquiet).imp fun _ l u h => ?_
  rw [ensures_bind]
  refine (ensures_quiet ?_ h).imp fun _ l u h => ?_
  · simp [MakeUsb.requireDisk, requireWholeDisk, Cmd.Writes]
  rw [ensures_bind]
  refine (ensures_rootGuard (w := legacy a) h).imp fun _ l u h => ?_
  obtain ⟨h, hroot⟩ := h
  rw [ensures_bind]
  refine (ensures_removableGuard (w := legacy a) h hroot).imp fun _ l u h => ?_
  refine ensures_clear ?_ h
  simp [MakeUsb.prepare, MakeUsb.assertBuildRoot, MakeUsb.selectBootTool, MakeUsb.prepareTemp,
    MakeUsb.makeTempDir, Cmd.Writes]

/-- The checks of `--make-usb`, and the phrase. -/
theorem ensures_preflight (hmode : a.mode = .makeUsb) (h : (legacy a).Clear l) :
    Ensures Any (legacy a).Inv (MakeUsb.preflight a temp)
      (fun _ l _ => ∀ esp inst, (legacy a).Open esp inst l) l u := by
  rw [MakeUsb.preflight, ensures_bind]
  refine (ensures_clear ?_ h).imp fun _ l u h => ?_
  · simp [MakeUsb.requireInputs, requireCommands, Cmd.Writes]
  rw [ensures_bind]
  refine (ensures_clear calls_prepareSourceImage h).imp fun found l u h => ?_
  obtain ⟨temp, src⟩ := found
  rw [ensures_bind]
  refine (ensures_clear (by simp [MakeUsb.printSourceReport, Cmd.Writes]) h).imp fun _ l u h => ?_
  rw [ensures_bind]
  refine (ensures_clear ?_ h).imp fun _ l u h => ?_
  · cases MakeUsb.selectedRestore a src <;> simp [MakeUsb.requireRestore, Cmd.Writes]
  rw [ensures_bind, MakeUsb.confirmErase]
  split
  · exact h.quiet.inv
  rename_i hreal
  rw [ensures_bind]
  refine (ensures_clear (by simp [Cmd.Writes]) h).imp fun _ l u h => ?_
  refine (ensures_typed (w := legacy a) (Bool.eq_false_iff.2 hreal) h).imp fun _ l u h => ?_
  exact ⟨(h "" "" (if_pos hmode)).inv, fun esp inst => h esp inst (if_pos hmode)⟩

theorem ensures_legacy : Ensures Any (legacy a).Inv (legacy a).main (fun _ _ _ => True) [] () := by
  have hquiet : Quiet [] := fun _ he => (List.not_mem_nil he).elim
  -- The modes that only look at something.
  have hothers : (legacy a).main.Calls (fun c => ¬ c.Writes) →
      Ensures Any (legacy a).Inv (legacy a).main (fun _ _ _ => True) [] () :=
    fun hp => (ensures_quiet hp hquiet).imp fun _ _ _ _ => trivial
  rw [main] at hothers ⊢
  cases hmode : a.mode with
  | updateEfi =>
    rw [MakeUsb.main_updateEfi hmode, ensures_bind]
    refine ensures_entry.imp fun v l u h => ?_
    rw [MakeUsb.updateEfi, ensures_bind]
    refine (ensures_clear ?_ h).imp fun esp l u h => ?_
    · simp [MakeUsb.selectEsp, MakeUsb.settlePartitions, selectFatEsp, Cmd.Writes]
    exact ensures_rewriteEsp (by simp [hmode]) h
  | makeUsb =>
    rw [MakeUsb.main_makeUsb hmode, ensures_bind]
    refine ensures_entry.imp fun v l u h => ?_
    rw [MakeUsb.makeUsb, ensures_bind]
    refine (ensures_preflight hmode h).imp fun found l u h => ?_
    exact ensures_write hmode h
  | verify =>
    refine hothers ?_
    simp only [MakeUsb.main, hmode, MakeUsb.verify, Script.calls_bind, calls_verifyTarget,
      MakeUsb.calls_guardSection (P := fun c => ¬ c.Writes) fun _ => id, true_and]
    simp [requireLinux, MakeUsb.prepareTemp, MakeUsb.makeTempDir, Cmd.Writes]
  | inspectRetail =>
    refine hothers ?_
    simp only [MakeUsb.main, hmode, MakeUsb.inspectRetail, Script.calls_bind,
      calls_prepareSourceImage, true_and]
    simp [requireLinux, MakeUsb.printSourceReport, Cmd.Writes]
  | listDisks =>
    refine hothers ?_
    simp [MakeUsb.main, hmode, requireLinux, Cmd.Writes]

end Legacy

/-- **What is asked and saved before an ESP is written**: whatever the commands answer, in every run
of the two programs each command that writes before the trap on `EXIT` was granted. -/
theorem esp_writes_granted (w : EspWriter) : Always (fun _ _ _ => True)
    (fun s => ∃ esp inst, Vetted (w.Granted esp inst) s.log) w.main State.init := by
  cases w with
  | updateEfi a => exact Ensures.always (A := fun _ _ _ => True) ensures_updateEfi rfl rfl
  | legacy a => exact Ensures.always (A := fun _ _ _ => True) ensures_legacy rfl rfl

end EspWriter

end Usb

end InstallKit
