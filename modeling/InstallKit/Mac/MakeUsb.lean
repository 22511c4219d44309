import InstallKit.Mac.UsbRuns

/-!
# What is asked before a disk is written

Whatever the commands answer, no run of the three scripts writes before the guard has let the disk
through, the phrase has been typed and `--dry-run` was ruled out; and what is written is aimed at
the disk that was named.

* `Demand.Met` : what must have been asked.
* `Aimed`, `Asus.Aimed` : where a command may write.
* `makeUsb_granted`, `updateEfi_granted`, `asusMakeUsb_granted` : in every run every command that
  writes was asked for and is aimed.
-/

namespace InstallKit

namespace MakeUsb

open Sources Shell Stmt
open Mac (Disk Entry firstValue diskPartitionSlices)

/-! ### Demands -/

/-- A log, newest first. -/
abbrev Log := List (Cmd × Stmt.Reply)

/-- What a run asks before it writes. -/
structure Demand where
  disk : Disk
  guard : Mac.Guard
  protectedVolumes : List Text
  allowInternal : Bool
  dryRun : Bool
  /-- What is asserted about the slices. -/
  fits : Prop
  /-- What is to be typed. -/
  phrase : Text

/-- It has been asked, and answered. -/
structure Demand.Met (D : Demand) (l : Log) : Prop where
  real : D.dryRun = false
  unprotected : ¬ D.disk.Recognized D.protectedVolumes
  fit : ¬ D.disk.Unfit D.guard D.allowInternal
  fits : D.fits
  typed : ∃ r, (Cmd.readLine, r) ∈ l ∧ r.out = D.phrase

/-- Nothing was written yet. -/
def Quiet (l : Log) : Prop := ∀ e ∈ l, e.1.Spares

/-- `diskutil` is true to the disk until something is written; the other commands answer
anything. -/
def Told (d : Disk) (l : Log) : Cmd → Stmt.Reply → Prop
  | .look c, r => Quiet l → d.Answers c (seen r)
  | _, _ => True

/-- The replies with which the scripts return are true. -/
theorem told_yes {phrase : Text} (l : Log) (c : Cmd) (r : Stmt.Reply) (h : r = yes phrase c) :
    Told stick l c r := by
  subst h
  cases c with
  | look c => exact fun _ => answers_said newline_not_mem_stick c
  | _ => trivial

/-- What a command that writes has to show. -/
def Granted (D : Demand) (aim : Log → Cmd → Prop) (l : Log) (c : Cmd) : Prop :=
  c.Writes → D.Met l ∧ aim l c

/-- The steps of a run, as those of a world without a state. -/
def Runs (d : Disk) (l : Log) (c : Cmd) (r : Stmt.Reply) (_ _ : Unit) : Prop := Told d l c r

variable {D : Demand} {aim : Log → Cmd → Prop} {d : Disk} {l l' : Log} {c : Cmd} {r : Stmt.Reply}
  {α : Type}

theorem Quiet.push (h : Quiet l) (hc : c.Spares) : Quiet ((c, r) :: l) :=
  List.forall_mem_cons.2 ⟨hc, h⟩

theorem Quiet.vetted (h : Quiet l) : Vetted (Granted D aim) l := by
  induction l with
  | nil => trivial
  | cons e l ih =>
    obtain ⟨hc, hl⟩ := List.forall_mem_cons.1 h
    exact ⟨fun hw => absurd hw hc, ih hl⟩

theorem Demand.Met.push (h : D.Met l) : D.Met ((c, r) :: l) :=
  ⟨h.real, h.unprotected, h.fit, h.fits,
    h.typed.imp fun _ hr => ⟨List.mem_cons_of_mem _ hr.1, hr.2⟩⟩

/-! ### Before the phrase -/

/-- What the commands of the first part answer. -/
def Truly (d : Disk) : Cmd → Stmt.Reply → Prop
  | .look c, r => d.Answers c (seen r)
  | _, _ => True

/-- **A part that does not write** returns what it may return when `diskutil` is true. -/
theorem ensures_quiet {p : Sh α} {w : Unit} (hp : p.Calls Cmd.Idle) (h : Quiet l) :
    Ensures (Runs d) (fun l _ => Vetted (Granted D aim) l) p
      (fun a l _ => Quiet l ∧ May (Truly d) p a) l w := by
  refine ensures_may (J := fun l _ => Quiet l) hp ?_ (fun l _ hl => hl.vetted) h
  intro l c r _ _ hc hE hl
  refine ⟨hl.push hc.spares, ?_⟩
  cases c with
  | look c => exact hE hl
  | _ => trivial

/-- Where a guard returns, the disk is recognised as safe. -/
theorem may_guard {g : Mac.Guard} {protectedVolumes : List Text} {allowInternal : Bool}
    (hg : g.slices = diskPartitionSlices)
    (h : May (Truly d) (guard (Mac.assertSafe g protectedVolumes allowInternal d.dev)) ()) :
    ¬ d.Recognized protectedVolumes ∧ ¬ d.Unfit g allowInternal :=
  (Mac.may_assertSafe hg).1
    (may_of_relay (f := Cmd.look) (g := seen) (fun _ => rfl) (fun _ _ h => h) h)

/-! ### After it -/

/-- Everything that was written was granted, and more may be. -/
structure Open (D : Demand) (aim : Log → Cmd → Prop) (l : Log) : Prop where
  vetted : Vetted (Granted D aim) l
  met : D.Met l

theorem Open.push (h : Open D aim l) (hc : c.Writes → aim l c) : Open D aim ((c, r) :: l) :=
  ⟨⟨fun hw => ⟨h.met, hc hw⟩, h.vetted⟩, h.met.push⟩

section Steps

variable {w : Unit} {msg : String} (h : Open D aim l) (hc : c.Writes → aim l c)

include h hc

theorem open_exec {Q : Unit → Log → Unit → Prop}
    (hQ : ∀ r, Open D aim ((c, r) :: l) → r.status = 0 → Q () ((c, r) :: l) ()) :
    Ensures (Runs d) (fun l _ => Vetted (Granted D aim) l) (exec c : Sh Unit) Q l w :=
  ensures_exec.2 ⟨h.vetted, fun r _ _ => ⟨(h.push hc).vetted, hQ r (h.push hc)⟩⟩

theorem open_require {Q : Unit → Log → Unit → Prop}
    (hQ : ∀ r, Open D aim ((c, r) :: l) → r.status = 0 → Q () ((c, r) :: l) ()) :
    Ensures (Runs d) (fun l _ => Vetted (Granted D aim) l) (require c msg : Sh Unit) Q l w :=
  ensures_require.2 ⟨h.vetted, fun r _ _ => ⟨(h.push hc).vetted, hQ r (h.push hc)⟩⟩

theorem open_glance {Q : Stmt.Reply → Log → Unit → Prop}
    (hQ : ∀ r, Open D aim ((c, r) :: l) → Q r ((c, r) :: l) ()) :
    Ensures (Runs d) (fun l _ => Vetted (Granted D aim) l) (glance c : Sh Stmt.Reply) Q l w :=
  ensures_glance.2 ⟨h.vetted, fun r _ _ => ⟨(h.push hc).vetted, hQ r (h.push hc)⟩⟩

theorem open_capture {Q : Text → Log → Unit → Prop}
    (hQ : ∀ r, Open D aim ((c, r) :: l) → r.status = 0 → Q r.out ((c, r) :: l) ()) :
    Ensures (Runs d) (fun l _ => Vetted (Granted D aim) l) (capture c : Sh Text) Q l w :=
  ensures_capture.2 ⟨h.vetted, fun r _ _ => ⟨(h.push hc).vetted, hQ r (h.push hc)⟩⟩

theorem open_holds {Q : Bool → Log → Unit → Prop}
    (hQ : ∀ r, Open D aim ((c, r) :: l) → Q (decide (r.status = 0)) ((c, r) :: l) ()) :
    Ensures (Runs d) (fun l _ => Vetted (Granted D aim) l) (holds c : Sh Bool) Q l w :=
  ensures_holds.2 ⟨h.vetted, fun r _ _ => ⟨(h.push hc).vetted, hQ r (h.push hc)⟩⟩

end Steps

/-- A part whose commands are aimed at any moment. -/
theorem open_of_calls {p : Sh α} {w : Unit} (hp : p.Calls fun c => ∀ l, c.Writes → aim l c)
    (h : Open D aim l) : Ensures (Runs d) (fun l _ => Vetted (Granted D aim) l) p
      (fun _ l _ => Open D aim l) l w :=
  ensures_of_calls (J := fun l _ => Open D aim l) hp (fun _ _ _ _ _ hc _ h => h.push (hc _))
    (fun _ _ h => h.vetted) h

/-! ### Where the first script writes -/

/-- What a run is meant to do. -/
inductive Scope
  /-- `--make-usb` with a new partition map -/
  | erase
  /-- `--make-usb --layout preserve` -/
  | replace
  /-- `--update-efi` -/
  | update
  deriving DecidableEq

/-- What is to be typed. -/
def Scope.phrase (u : Settings) (disk : Text) : Scope → Text
  | erase => erasePhrase disk
  | replace => replacePhrase u
  | update => updatePhrase u disk

/-- What is asserted about the slices. -/
def Scope.Fits (u : Settings) (d : Disk) : Scope → Prop
  | erase => u.bootSlice = [] ∧ u.installerSlice = []
  | replace => u.bootSlice = bootPart d.dev ∧ u.installerSlice = installerPart d.dev ∧
      (diskPartitionSlices (d.listing.map Entry.line)).length = 2 ∧
      isFatOrEfi (d.info (bootPart d.dev)).lines = true
  | update => u.bootSlice = bootPart d.dev ∧ isFatOrEfi (d.info (bootPart d.dev)).lines = true

/-- What `run_make_usb` and `run_update_efi` ask. -/
def Settings.demand (u : Settings) (d : Disk) (scope : Scope) : Demand where
  disk := d
  guard := Mac.aspire4310
  protectedVolumes := u.protectedVolumes
  allowInternal := u.allowInternal
  dryRun := u.dryRun
  fits := scope.Fits u d
  phrase := scope.phrase u d.dev

/-- `diskutil info` of the first slice showed this mount point. -/
def Reported (disk mountPoint : Text) (l : Log) : Prop :=
  ∃ r, (Cmd.look (.info (bootPart disk)), r) ∈ l ∧ r.status = 0 ∧ mountPointOf r = mountPoint

/-- The tree was copied, and the copy was seen. -/
def Copied (dir : Text) (l : Log) : Prop :=
  ∃ backup r r', (Cmd.ditto (efiDir dir) (efiDir backup), r) ∈ l ∧ r.status = 0 ∧
    (Cmd.isDir (efiDir backup), r') ∈ l ∧ r'.status = 0

/-- The path belongs to a mount point that was reported and lies below `/Volumes`. -/
def OnVolume (disk : Text) (l : Log) (part : Text → Text) (path : Text) : Prop :=
  ∃ m, Reported disk m l ∧ underVolumes m = true ∧ path = part m

/-- Where a command that writes may be aimed. -/
def Aimed (scope : Scope) (pid disk : Text) (l : Log) : Cmd → Prop
  | .partitionDisk t => scope = .erase ∧ t = disk
  | .restore _ t => scope ≠ .update ∧ t = installerPart disk
  | .imagescan t => scope ≠ .update ∧ isImage t = true
  | .unmount t | .mount t => t = bootPart disk
  | .touch t | .removeFile t => ∃ m, Reported disk m l ∧ t = writeProbe m pid
  | .removeTree ts => ∃ m, Reported disk m l ∧ underVolumes m = true ∧ ts = [efiDir m] ∧ Copied m l
  | .sudoDitto _ t => OnVolume disk l efiDir t
  | .sudoCopy _ t => OnVolume disk l bootFile t
  | .bootInstall _ n => disk = txt "/dev/disk" ++ n ∧ n ≠ [] ∧ ∀ c ∈ n, c.isDigit = true
  | .look c => ¬ c.Destructive
  | _ => True

theorem reported_head {disk : Text} (hr : r.status = 0) :
    Reported disk (mountPointOf r) ((Cmd.look (.info (bootPart disk)), r) :: l) :=
  ⟨r, List.mem_cons_self, hr, rfl⟩

theorem Copied.push {dir : Text} (h : Copied dir l) : Copied dir ((c, r) :: l) := by
  obtain ⟨backup, r, r', hr, h, hr', h'⟩ := h
  exact ⟨backup, r, r', List.mem_cons_of_mem _ hr, h, List.mem_cons_of_mem _ hr', h'⟩

theorem Reported.push {disk m : Text} (h : Reported disk m l) : Reported disk m ((c, r) :: l) :=
  h.imp fun _ hr => ⟨List.mem_cons_of_mem _ hr.1, hr.2⟩

section Aspire

variable {scope : Scope} {pid disk m : Text} {w : Unit}

theorem aimed_unmount : Aimed scope pid disk l (.unmount (bootPart disk)) := rfl

theorem aimed_mount : Aimed scope pid disk l (.mount (bootPart disk)) := rfl

theorem aimed_partitionDisk (h : scope = .erase) :
    Aimed scope pid disk l (.partitionDisk disk) := ⟨h, rfl⟩

theorem aimed_touch (hm : Reported disk m l) : Aimed scope pid disk l (.touch (writeProbe m pid)) :=
  ⟨m, hm, rfl⟩

theorem aimed_removeFile (hm : Reported disk m l) :
    Aimed scope pid disk l (.removeFile (writeProbe m pid)) := ⟨m, hm, rfl⟩

theorem aimed_removeTree (hm : Reported disk m l) (hv : underVolumes m = true)
    (hcopied : Copied m l) : Aimed scope pid disk l (.removeTree [efiDir m]) :=
  ⟨m, hm, hv, rfl, hcopied⟩

theorem aimed_sudoDitto {source : Text} (hm : Reported disk m l) (hv : underVolumes m = true) :
    Aimed scope pid disk l (.sudoDitto source (efiDir m)) := ⟨m, hm, hv, rfl⟩

theorem aimed_sudoCopy {source : Text} (hm : Reported disk m l) (hv : underVolumes m = true) :
    Aimed scope pid disk l (.sudoCopy source (bootFile m)) := ⟨m, hm, hv, rfl⟩

theorem ensures_mountBootSliceWritable (h : Open D (Aimed scope pid disk) l) :
    Ensures (Runs d) (fun l _ => Vetted (Granted D (Aimed scope pid disk)) l)
      (mountBootSliceWritable (bootPart disk) pid)
      (fun m l _ => Open D (Aimed scope pid disk) l ∧ Reported disk m l) l w := by
  unfold mountBootSliceWritable
  rw [ensures_bind]
  refine open_glance h False.elim fun r₀ h => ?_
  rw [ensures_bind, ensures_orDie]
  refine ⟨h.vetted, fun _ => ?_⟩
  rw [ensures_bind]
  -- the unmount and the mount are aimed at the boot slice
  refine Ensures.imp (Q := fun _ l _ => Open D (Aimed scope pid disk) l) ?_ fun _ l w h => ?_
  · rw [ensures_given]
    exact ⟨fun _ => open_require h (fun _ => aimed_unmount) fun _ h _ => h,
      fun _ => ⟨h.vetted, h⟩⟩
  rw [ensures_bind]
  refine open_require h (fun _ => aimed_mount) fun _ h _ => ?_
  rw [ensures_bind]
  refine open_glance h False.elim fun r h => ?_
  rw [ensures_bind, ensures_orDie]
  refine ⟨h.vetted, fun hr => ?_⟩
  -- the write test is aimed at what the disk utility has reported
  have hr : r.status = 0 := of_decide_eq_true hr
  rw [ensures_bind]
  refine open_require h False.elim fun _ h _ => ?_
  rw [ensures_bind, ensures_orDie]
  refine ⟨h.vetted, fun _ => ?_⟩
  rw [ensures_bind]
  refine open_require h (fun _ => aimed_touch (reported_head hr).push) fun _ h _ => ?_
  rw [ensures_bind]
  refine open_require h (fun _ => aimed_removeFile (reported_head hr).push.push) fun _ h _ => ?_
  exact ⟨h.vetted, h, (reported_head hr).push.push.push⟩

/-- The copies come before the removal. -/
theorem ensures_backUp {backup : Text} (hv : underVolumes m = true)
    (h : Open D (Aimed scope pid disk) l) (hm : Reported disk m l) :
    Ensures (Runs d) (fun l _ => Vetted (Granted D (Aimed scope pid disk)) l) (backUp m backup)
      (fun _ l _ => Open D (Aimed scope pid disk) l ∧ Reported disk m l) l w := by
  unfold backUp
  rw [ensures_bind]
  refine open_exec h False.elim fun _ h _ => ?_
  rw [ensures_bind]
  refine open_holds h False.elim fun r h => ?_
  rw [ensures_bind]
  -- the old tree
  refine Ensures.imp (Q := fun _ l _ => Open D (Aimed scope pid disk) l ∧ Reported disk m l ∧
    (r.status = 0 → Copied m l)) ?_ fun _ l w ⟨h, hm, hcopied⟩ => ?_
  · rw [ensures_given, saveEfi, ensures_bind]
    refine ⟨fun _ => open_exec h False.elim fun _ h hr => ?_, fun hr => ?_⟩
    · refine open_require h False.elim fun _ h hr' => ⟨h, hm.push.push.push.push, fun _ => ?_⟩
      exact ⟨backup, _, _, List.mem_cons_of_mem _ List.mem_cons_self, hr, List.mem_cons_self, hr'⟩
    · exact ⟨h.vetted, h, hm.push.push, fun hr' => absurd hr' (of_decide_eq_false hr)⟩
  rw [ensures_bind]
  refine open_holds h False.elim fun r' h => ?_
  rw [ensures_bind]
  -- the old file
  refine Ensures.imp (Q := fun _ l _ => Open D (Aimed scope pid disk) l ∧ Reported disk m l ∧
    (r.status = 0 → Copied m l)) ?_ fun _ l w ⟨h, hm, hcopied⟩ => ?_
  · rw [ensures_given]
    exact ⟨fun _ => open_exec h False.elim fun _ h _ =>
      ⟨h, hm.push.push, fun hr => (hcopied hr).push.push⟩,
      fun _ => ⟨h.vetted, h, hm.push, fun hr => (hcopied hr).push⟩⟩
  rw [ensures_given]
  -- the tree is removed only where it was copied
  refine ⟨fun hr => open_exec h (fun _ => ?_) fun _ h _ => ⟨h, hm.push⟩, fun _ => ⟨h.vetted, h, hm⟩⟩
  exact aimed_removeTree hm hv (hcopied (of_decide_eq_true hr))

theorem ensures_hasBootFiles (h : Open D (Aimed scope pid disk) l) (hm : Reported disk m l) :
    Ensures (Runs d) (fun l _ => Vetted (Granted D (Aimed scope pid disk)) l) (hasBootFiles m)
      (fun _ l _ => Open D (Aimed scope pid disk) l ∧ Reported disk m l) l w := by
  have hcalls : (hasBootFiles m).Calls fun c => ∀ l, c.Writes → Aimed scope pid disk l c :=
    calls_hasBootFiles.mono fun _ hc _ hw => absurd hw hc.spares
  refine ((open_of_calls hcalls h).extends (List.suffix_refl _)).imp ?_
  rintro _ l' _ ⟨h, hl⟩
  exact ⟨h, hm.imp fun _ hr => ⟨hl.subset hr.1, hr.2⟩⟩

/-- Whatever is there, the boot files are replaced on the reported volume only. -/
theorem ensures_replaceBootFiles {rootDir build : Text} (h : Open D (Aimed scope pid disk) l)
    (hm : Reported disk m l) :
    Ensures (Runs d) (fun l _ => Vetted (Granted D (Aimed scope pid disk)) l)
      (replaceBootFiles rootDir disk m build) (fun _ l _ => Open D (Aimed scope pid disk) l)
      l w := by
  unfold replaceBootFiles
  rw [ensures_bind, ensures_orDie]
  refine ⟨h.vetted, fun hv => ?_⟩
  rw [ensures_bind]
  refine open_glance h False.elim fun stamp h => ?_
  rw [ensures_bind]
  refine (ensures_hasBootFiles h hm.push).imp fun found l w ⟨h, hm⟩ => ?_
  rw [ensures_bind]
  refine Ensures.imp (Q := fun _ l _ => Open D (Aimed scope pid disk) l ∧ Reported disk m l) ?_
    fun _ l w ⟨h, hm⟩ => ?_
  · rw [ensures_given]
    exact ⟨fun _ => ensures_backUp hv h hm, fun _ => ⟨h.vetted, h, hm⟩⟩
  rw [ensures_bind]
  refine open_exec h (fun _ => aimed_sudoDitto hm hv) fun _ h _ => ?_
  rw [ensures_bind]
  refine open_exec h (fun _ => aimed_sudoCopy hm.push hv) fun _ h _ => ?_
  rw [ensures_bind]
  exact open_require h False.elim fun _ h _ => open_require h False.elim fun _ h _ => h

/-- The number of a whole disk. -/
theorem diskNumber_spec (h : isWholeDisk disk = true) :
    disk = txt "/dev/disk" ++ diskNumber disk ∧ diskNumber disk ≠ [] ∧
      ∀ c ∈ diskNumber disk, c.isDigit = true := by
  simp only [isWholeDisk, Bool.and_eq_true, List.isPrefixOf_iff_prefix, decide_eq_true_eq,
    List.all_eq_true] at h
  obtain ⟨⟨⟨n, rfl⟩, hne⟩, hdigits⟩ := h
  have hdrop : (txt "/dev/disk" ++ n).drop 9 = n := by simp [txt]
  have hnumber : diskNumber (txt "/dev/disk" ++ n) = n := by simp [diskNumber, hdrop]
  rw [hdrop] at hne hdigits
  rw [hnumber]
  exact ⟨rfl, hne, hdigits⟩

theorem ensures_installBootSectors {ocCacheRoot archName : Text}
    (hboot : ∀ l tool, aim l (.bootInstall tool (diskNumber disk))) (h : Open D aim l) :
    Ensures (Runs d) (fun l _ => Vetted (Granted D aim) l)
      (installBootSectors ocCacheRoot archName disk) (fun _ l _ => Open D aim l) l w := by
  refine open_of_calls ?_ h
  simp [installBootSectors, Cmd.Writes, hboot]

theorem ensures_restoreRetail {source : Text} (hscope : scope ≠ .update)
    (h : Open D (Aimed scope pid disk) l) :
    Ensures (Runs d) (fun l _ => Vetted (Granted D (Aimed scope pid disk)) l)
      (restoreRetail source (installerPart disk))
      (fun _ l _ => Open D (Aimed scope pid disk) l) l w := by
  have hrestore : ∀ s l, Aimed scope pid disk l (.restore s (installerPart disk)) :=
    fun _ _ => ⟨hscope, rfl⟩
  have hscan : isImage source = true → ∀ l, Aimed scope pid disk l (.imagescan source) :=
    fun hs _ => ⟨hscope, hs⟩
  refine open_of_calls ?_ h
  cases hs : isImage source with
  | false => simp [restoreRetail, attachImage, hs, Cmd.Writes, hrestore]
  | true =>
    simp [restoreRetail, attachImage, attachRetailReadonly, hs, Cmd.Writes, hrestore, hscan hs]

end Aspire

/-! ### The runs of the first script -/

/-- What a run of `run_make_usb` is meant to do. -/
def Settings.scope (u : Settings) : Scope :=
  match u.layout with
  | .fresh => .erase
  | .preserve => .replace

/-- The phrase opens the disk. -/
theorem ensures_confirm {expected : Text} {message : String} {w : Unit} (hreal : D.dryRun = false)
    (hprotected : ¬ D.disk.Recognized D.protectedVolumes)
    (hfit : ¬ D.disk.Unfit D.guard D.allowInternal) (hfits : D.fits) (hphrase : expected = D.phrase)
    (h : Quiet l) : Ensures (Runs d) (fun l _ => Vetted (Granted D aim) l)
      (confirm expected message) (fun _ l _ => Open D aim l) l w := by
  unfold confirm
  rw [ensures_bind, ensures_capture]
  refine ⟨h.vetted, fun r _ _ => ?_⟩
  have hq : Quiet ((Cmd.readLine, r) :: l) := h.push idle_readLine.spares
  refine ⟨hq.vetted, fun _ => ?_⟩
  rw [ensures_orDie]
  refine ⟨hq.vetted, fun hanswer => ⟨hq.vetted, hreal, hprotected, hfit, hfits, r, ?_, ?_⟩⟩
  · exact List.mem_cons_self
  · rw [of_decide_eq_true hanswer, hphrase]

/-- The disk that is named is a whole one. -/
theorem whole_of_prepareMakeUsb {u : Settings} {disk retail : Text}
    (h : May (Truly d) (prepareMakeUsb u disk) retail) : isWholeDisk disk = true := by
  simp only [prepareMakeUsb, validateDiskIdentifier, may_bind, may_orDie] at h
  obtain ⟨_, -, _, hdisk, -⟩ := h
  exact hdisk

theorem whole_of_prepareUpdateEfi {u : Settings} {disk : Text}
    (h : May (Truly d) (prepareUpdateEfi u disk) ()) : isWholeDisk disk = true := by
  simp only [prepareUpdateEfi, validateDiskIdentifier, may_bind, may_orDie] at h
  obtain ⟨_, -, _, hdisk, -⟩ := h
  exact hdisk

/-- The slices that the assertions count are the listed ones. -/
theorem may_captureSlices {slices : List Text} (h : May (Truly d) (captureSlices d.dev) slices) :
    slices = diskPartitionSlices (d.listing.map Entry.line) := by
  simp only [captureSlices, may_bind, may_glance, may_ite, Truly] at h
  obtain ⟨r, hr, h⟩ := h
  have hlist : lines r.out = d.listing.map Entry.line := congrArg Mac.Reply.out (hr rfl)
  rw [hlist] at h
  split at h
  · exact h.elim
  · split at h
    · exact h.elim
    · exact h

theorem fits_of_assertLayout {u : Settings} (h : May (Truly d) (assertLayout u d.dev) ()) :
    u.scope.Fits u d := by
  unfold assertLayout at h
  unfold Settings.scope
  cases hl : u.layout with
  | fresh =>
    rw [hl] at h
    simpa [Scope.Fits] using h
  | preserve =>
    rw [hl] at h
    simp only [assertPreserveLayout, may_bind, may_orDie, may_require, may_capture, Truly,
      decide_eq_true_eq] at h
    obtain ⟨_, -, _, -, _, -, _, hboot, _, hinstaller, _, -, _, -, _, -, slices, hslices, _, hlen,
      _, ⟨r, hr, -, rfl⟩, hfat⟩ := h
    rw [may_captureSlices hslices] at hlen
    have hinfo : lines r.out = (d.info u.bootSlice).lines := congrArg Mac.Reply.out hr
    rw [hinfo, hboot] at hfat
    exact ⟨hboot, hinstaller, hlen, hfat⟩

theorem fits_of_assertBootSlice {u : Settings} (h : May (Truly d) (assertBootSlice u d.dev) ()) :
    Scope.update.Fits u d := by
  simp only [assertBootSlice, may_bind, may_orDie, may_glance, Truly, decide_eq_true_eq] at h
  obtain ⟨_, -, _, hboot, r, hr, _, -, hfat⟩ := h
  have hinfo : lines r.out = (d.info u.bootSlice).lines := congrArg Mac.Reply.out hr
  rw [hinfo, hboot] at hfat
  exact ⟨hboot, hfat⟩

section Runs

variable (u : Settings) (d : Disk)

/-- What every run of `run_make_usb` keeps. -/
abbrev GrantedMake (l : Log) (c : Cmd) : Prop :=
  Granted (u.demand d u.scope) (Aimed u.scope u.pid d.dev) l c

/-- What every run of `run_update_efi` keeps. -/
abbrev GrantedUpdate (l : Log) (c : Cmd) : Prop :=
  Granted (u.demand d .update) (Aimed .update u.pid d.dev) l c

end Runs

variable {u : Settings}

/-- The disk is opened, and the slices are its first two. -/
theorem ensures_openDisk {w : Unit} (hreal : u.dryRun = false)
    (hprotected : ¬ d.Recognized u.protectedVolumes)
    (hfit : ¬ d.Unfit Mac.aspire4310 u.allowInternal) (hfits : u.scope.Fits u d) (h : Quiet l) :
    Ensures (Runs d) (fun l _ => Vetted (GrantedMake u d) l) (openDisk u d.dev)
      (fun slices l _ => Open (u.demand d u.scope) (Aimed u.scope u.pid d.dev) l ∧
        slices = (bootPart d.dev, installerPart d.dev)) l w := by
  unfold openDisk
  cases hl : u.layout with
  | fresh =>
    have hscope : u.scope = .erase := by rw [Settings.scope, hl]
    rw [ensures_bind]
    refine (ensures_confirm hreal hprotected hfit hfits ?_ h).imp fun _ l w h => ?_
    · rw [Settings.demand, hscope, Scope.phrase]
    rw [ensures_bind]
    exact open_exec h (fun _ => aimed_partitionDisk hscope) fun _ h _ => ⟨h.vetted, h, rfl⟩
  | preserve =>
    have hscope : u.scope = .replace := by rw [Settings.scope, hl]
    rw [ensures_bind]
    refine (ensures_confirm hreal hprotected hfit hfits ?_ h).imp fun _ l w h => ?_
    · rw [Settings.demand, hscope, Scope.phrase]
    rw [hscope] at hfits
    exact ⟨h.vetted, h, by rw [hfits.1, hfits.2.1]⟩

theorem ensures_fillDisk {retail : Text} {w : Unit} (hdisk : isWholeDisk d.dev = true)
    (h : Open (u.demand d u.scope) (Aimed u.scope u.pid d.dev) l) :
    Ensures (Runs d) (fun l _ => Vetted (GrantedMake u d) l)
      (fillDisk u d.dev retail (bootPart d.dev) (installerPart d.dev))
      (fun _ l _ => Open (u.demand d u.scope) (Aimed u.scope u.pid d.dev) l) l w := by
  have hscope : u.scope ≠ .update := by
    unfold Settings.scope
    cases u.layout <;> simp
  unfold fillDisk
  rw [ensures_bind]
  refine (ensures_restoreRetail hscope h).imp fun _ l w h => ?_
  rw [ensures_bind]
  refine open_glance h False.elim fun uuid h => ?_
  rw [ensures_bind, ensures_orDie]
  refine ⟨h.vetted, fun _ => ?_⟩
  rw [ensures_bind]
  refine open_require h False.elim fun _ h _ => ?_
  rw [ensures_bind]
  refine (ensures_mountBootSliceWritable h).imp fun m l w ⟨h, hm⟩ => ?_
  rw [ensures_bind]
  exact (ensures_replaceBootFiles h hm).imp fun _ l w h =>
    ensures_installBootSectors (fun _ _ => diskNumber_spec hdisk) h

theorem ensures_runMakeUsb (u : Settings) (d : Disk) :
    Ensures (Runs d) (fun l _ => Vetted (GrantedMake u d) l) (runMakeUsb u d.dev)
      (fun _ _ _ => True) [] () := by
  unfold runMakeUsb
  rw [ensures_bind]
  refine (ensures_quiet calls_prepareMakeUsb (List.forall_mem_nil _)).imp fun retail l w h => ?_
  obtain ⟨hq, hprepare⟩ := h
  rw [ensures_bind]
  refine (ensures_quiet calls_assert hq).imp fun _ l w h => ?_
  obtain ⟨hq, hguard⟩ := h
  obtain ⟨hprotected, hfit⟩ := may_guard rfl hguard
  rw [ensures_bind]
  refine (ensures_quiet calls_assertLayout hq).imp fun _ l w h => ?_
  obtain ⟨hq, hlayout⟩ := h
  rw [ensures_given]
  refine ⟨fun hreal => ?_, fun _ => ⟨hq.vetted, trivial⟩⟩
  have hreal : u.dryRun = false := by simpa using hreal
  rw [ensures_bind]
  refine (ensures_openDisk hreal hprotected hfit (fits_of_assertLayout hlayout) hq).imp ?_
  rintro _ l w ⟨h, rfl⟩
  exact (ensures_fillDisk (whole_of_prepareMakeUsb hprepare) h).imp fun _ _ _ _ => trivial

theorem ensures_runUpdateEfi (u : Settings) (d : Disk) :
    Ensures (Runs d) (fun l _ => Vetted (GrantedUpdate u d) l) (runUpdateEfi u d.dev)
      (fun _ _ _ => True) [] () := by
  unfold runUpdateEfi
  rw [ensures_bind]
  -- the checks only ask
  refine (ensures_quiet calls_prepareUpdateEfi (List.forall_mem_nil _)).imp fun _ l w h => ?_
  obtain ⟨hq, hprepare⟩ := h
  have hdisk := whole_of_prepareUpdateEfi hprepare
  rw [ensures_bind]
  refine (ensures_quiet calls_assert hq).imp fun _ l w h => ?_
  obtain ⟨hq, hguard⟩ := h
  obtain ⟨hprotected, hfit⟩ := may_guard rfl hguard
  rw [ensures_bind]
  refine (ensures_quiet calls_assertBootSlice hq).imp fun _ l w h => ?_
  obtain ⟨hq, hslice⟩ := h
  have hfits := fits_of_assertBootSlice hslice
  rw [ensures_given]
  refine ⟨fun hreal => ?_, fun _ => ⟨hq.vetted, trivial⟩⟩
  have hreal : u.dryRun = false := by simpa using hreal
  rw [ensures_bind]
  -- from the confirmation on every write is granted
  refine (ensures_confirm (D := u.demand d .update) hreal hprotected hfit hfits rfl hq).imp
    fun _ l w h => ?_
  unfold updateFiles
  rw [hfits.1, ensures_bind]
  refine (ensures_mountBootSliceWritable h).imp fun m l w ⟨h, hm⟩ => ?_
  rw [ensures_bind]
  refine (ensures_replaceBootFiles h hm).imp fun _ l w h => ?_
  exact (ensures_installBootSectors (fun _ _ => diskNumber_spec hdisk) h).imp
    fun _ _ _ _ => trivial

/-- **`run_make_usb` asks first**: in every run, whatever the commands answer, a command that writes
was asked for, and it is aimed at the disk. -/
theorem makeUsb_granted (u : Settings) (d : Disk) {q : Sh Unit} {s : St Unit Cmd Stmt.Reply}
    (hr : Reach (Told d) (runMakeUsb u d.dev, fresh) (q, s)) : Vetted (GrantedMake u d) s.log :=
  (ensures_runMakeUsb u d).vetted hr

/-- A run of the whole script. -/
theorem makeUsb_granted_sample :
    ∃ s, Reach (Told stick) (runMakeUsb makeOptions stick.dev, fresh) (.ret (), s) ∧
      Vetted (GrantedMake makeOptions stick) s.log := by
  obtain ⟨s, hr⟩ := reach_of_may may_runMakeUsb_yes told_yes
  exact ⟨s, hr, makeUsb_granted makeOptions stick hr⟩

/-- **`run_update_efi` asks first**, and never touches the map or the second slice. -/
theorem updateEfi_granted (u : Settings) (d : Disk) {q : Sh Unit} {s : St Unit Cmd Stmt.Reply}
    (hr : Reach (Told d) (runUpdateEfi u d.dev, fresh) (q, s)) :
    Vetted (GrantedUpdate u d) s.log :=
  (ensures_runUpdateEfi u d).vetted hr

/-- A run of the whole script. -/
theorem updateEfi_granted_sample :
    ∃ s, Reach (Told stick) (runUpdateEfi updateOptions stick.dev, fresh) (.ret (), s) ∧
      Vetted (GrantedUpdate updateOptions stick) s.log := by
  obtain ⟨s, hr⟩ := reach_of_may may_runUpdateEfi_yes told_yes
  exact ⟨s, hr, updateEfi_granted updateOptions stick hr⟩

/-! ### The second script -/

namespace Asus

/-- What `run_make_usb` asks. -/
def Settings.demand (u : Settings) (d : Disk) : Demand where
  disk := d
  guard := Mac.asus1215p
  protectedVolumes := u.protectedVolumes
  allowInternal := u.allowInternal
  dryRun := u.dryRun
  fits := True
  phrase := erasePhrase d.dev

/-- Where a command that writes may be aimed. -/
def Aimed (disk : Text) (l : Log) : Cmd → Prop
  | .partitionDisk t => t = disk
  | .restore _ t => t = installerPart disk
  | .imagescan _ => True
  | .mount t => t = bootPart disk
  | .removeTree ts => ∃ m, Reported disk m l ∧ ts = [efiDir m, kernelsDir m]
  | .sudoDitto _ t => ∃ m, Reported disk m l ∧ (t = efiDir m ∨ t = kernelsDir m)
  | .sudoCopy _ t => ∃ m, Reported disk m l ∧ t = bootFile m
  | .bootInstall _ n => disk = txt "/dev/disk" ++ n ∧ n ≠ [] ∧ ∀ c ∈ n, c.isDigit = true
  | .unmount _ | .touch _ | .removeFile _ => False
  | .look c => ¬ c.Destructive
  | _ => True

section Asus

variable {disk m : Text} {w : Unit}

theorem aimed_mount : Aimed disk l (.mount (bootPart disk)) := rfl

theorem aimed_removeTree (hm : Reported disk m l) :
    Aimed disk l (.removeTree [efiDir m, kernelsDir m]) := ⟨m, hm, rfl⟩

theorem aimed_sudoDitto {source t : Text} (hm : Reported disk m l)
    (ht : t = efiDir m ∨ t = kernelsDir m) : Aimed disk l (.sudoDitto source t) := ⟨m, hm, ht⟩

theorem aimed_sudoCopy {source : Text} (hm : Reported disk m l) :
    Aimed disk l (.sudoCopy source (bootFile m)) := ⟨m, hm, rfl⟩

/-- A part that spares the disk, and what was reported before it. -/
theorem open_spares {p : Sh α} (hp : p.Calls Cmd.Spares) (h : Open D (Aimed disk) l)
    (hm : Reported disk m l) : Ensures (Runs d) (fun l _ => Vetted (Granted D (Aimed disk)) l) p
      (fun _ l _ => Open D (Aimed disk) l ∧ Reported disk m l) l w := by
  have hcalls : p.Calls fun c => ∀ l, c.Writes → Aimed disk l c :=
    hp.mono fun _ hc _ hw => absurd hw hc
  refine ((open_of_calls hcalls h).extends (List.suffix_refl _)).imp ?_
  rintro _ l' _ ⟨h, hl⟩
  exact ⟨h, hm.imp fun _ hr => ⟨hl.subset hr.1, hr.2⟩⟩

theorem calls_anyBootFiles : (anyBootFiles m).Calls Cmd.Spares := by
  simp [anyBootFiles, Cmd.Spares, Cmd.Writes]

theorem calls_tryDitto {dir copy : Text} : (tryDitto dir copy).Calls Cmd.Spares := by
  simp [tryDitto, Cmd.Spares, Cmd.Writes]

theorem calls_tryCopy {file copy : Text} : (tryCopy file copy).Calls Cmd.Spares := by
  simp [tryCopy, Cmd.Spares, Cmd.Writes]

theorem ensures_backUp {backup : Text} (h : Open D (Aimed disk) l) (hm : Reported disk m l) :
    Ensures (Runs d) (fun l _ => Vetted (Granted D (Aimed disk)) l) (backUp m backup)
      (fun _ l _ => Open D (Aimed disk) l ∧ Reported disk m l) l w := by
  unfold backUp
  rw [ensures_bind]
  refine open_exec h False.elim fun _ h _ => ?_
  rw [ensures_bind]
  refine (open_spares calls_tryDitto h hm.push).imp fun _ l w ⟨h, hm⟩ => ?_
  rw [ensures_bind]
  refine (open_spares calls_tryDitto h hm).imp fun _ l w ⟨h, hm⟩ => ?_
  rw [ensures_bind]
  refine (open_spares calls_tryCopy h hm).imp fun _ l w ⟨h, hm⟩ => ?_
  exact open_exec h (fun _ => aimed_removeTree hm) fun _ h _ => ⟨h, hm.push⟩

theorem ensures_captureMountPoint (h : Open D (Aimed disk) l) :
    Ensures (Runs d) (fun l _ => Vetted (Granted D (Aimed disk)) l)
      (captureMountPoint (bootPart disk))
      (fun m l _ => Open D (Aimed disk) l ∧ Reported disk m l) l w := by
  unfold captureMountPoint
  rw [ensures_bind]
  exact open_capture h False.elim fun r h hr => ⟨h.vetted, h, reported_head hr⟩

theorem ensures_installEfi {u : Settings} (hdisk : isWholeDisk disk = true)
    (h : Open D (Aimed disk) l) :
    Ensures (Runs d) (fun l _ => Vetted (Granted D (Aimed disk)) l)
      (installEfi u disk (bootPart disk)) (fun _ l _ => Open D (Aimed disk) l) l w := by
  unfold installEfi
  rw [ensures_bind]
  refine open_glance h (fun _ => aimed_mount) fun _ h => ?_
  rw [ensures_bind]
  refine (ensures_captureMountPoint h).imp fun m l w ⟨h, hm⟩ => ?_
  rw [ensures_bind]
  refine open_require h False.elim fun _ h _ => ?_
  rw [ensures_bind]
  refine (open_spares calls_anyBootFiles h hm.push).imp fun found l w ⟨h, hm⟩ => ?_
  rw [ensures_bind]
  -- an older EFI is backed up first
  refine Ensures.imp (Q := fun _ l _ => Open D (Aimed disk) l ∧ Reported disk m l) ?_
    fun _ l w ⟨h, hm⟩ => ?_
  · rw [ensures_given, ensures_bind]
    exact ⟨fun _ => open_glance h False.elim fun _ h => ensures_backUp h hm.push,
      fun _ => ⟨h.vetted, h, hm⟩⟩
  rw [ensures_bind]
  -- the new files, and the checks that they are there
  refine open_exec h (fun _ => aimed_sudoDitto hm (Or.inl rfl)) fun _ h _ => ?_
  rw [ensures_bind]
  refine open_exec h (fun _ => aimed_sudoDitto hm.push (Or.inr rfl)) fun _ h _ => ?_
  rw [ensures_bind]
  refine open_exec h (fun _ => aimed_sudoCopy hm.push.push) fun _ h _ => ?_
  rw [ensures_bind]
  refine open_require h False.elim fun _ h _ => ?_
  rw [ensures_bind]
  refine open_require h False.elim fun _ h _ => ?_
  rw [ensures_bind]
  refine open_require h False.elim fun _ h _ => ?_
  exact ensures_installBootSectors (fun _ _ => diskNumber_spec hdisk) h

theorem ensures_writeDisk {u : Settings} {retail : Text} (hdisk : isWholeDisk disk = true)
    (h : Open D (Aimed disk) l) :
    Ensures (Runs d) (fun l _ => Vetted (Granted D (Aimed disk)) l) (writeDisk u disk retail)
      (fun _ l _ => Open D (Aimed disk) l) l w := by
  have hpartition : ∀ l, Aimed disk l (.partitionDisk disk) := fun _ => rfl
  have hrestore : ∀ s l, Aimed disk l (.restore s (installerPart disk)) := fun _ _ => rfl
  have hscan : ∀ s l, Aimed disk l (.imagescan s) := fun _ _ => trivial
  have hcalls : (restoreRetail retail (installerPart disk)).Calls
      fun c => ∀ l, c.Writes → Aimed disk l c := by
    simp [restoreRetail, attachRetailReadonly, Cmd.Writes, hrestore, hscan]
  unfold writeDisk
  rw [ensures_bind]
  refine open_exec h (fun _ => hpartition _) fun _ h _ => ?_
  rw [ensures_bind]
  exact (open_of_calls hcalls h).imp fun _ l w h => ensures_installEfi hdisk h

theorem calls_prepareMakeUsb {u : Settings} : (prepareMakeUsb u disk).Calls Cmd.Idle := by
  simp [prepareMakeUsb, validateDisk, chooseRetail]

theorem whole_of_prepareMakeUsb {u : Settings} {retail : Text}
    (h : May (Truly d) (prepareMakeUsb u disk) retail) : isWholeDisk disk = true := by
  simp only [prepareMakeUsb, validateDisk, may_bind, may_orDie] at h
  obtain ⟨_, -, _, -, _, hdisk, -⟩ := h
  exact hdisk

end Asus

theorem ensures_runMakeUsb (u : Settings) (d : Disk) :
    Ensures (Runs d) (fun l _ => Vetted (Granted (u.demand d) (Aimed d.dev)) l)
      (runMakeUsb u d.dev) (fun _ _ _ => True) [] () := by
  unfold runMakeUsb
  rw [ensures_bind]
  refine (ensures_quiet calls_prepareMakeUsb (List.forall_mem_nil _)).imp fun retail l w h => ?_
  obtain ⟨hq, hprepare⟩ := h
  rw [ensures_bind]
  refine (ensures_quiet calls_assert hq).imp fun _ l w h => ?_
  obtain ⟨hq, hguard⟩ := h
  obtain ⟨hprotected, hfit⟩ := may_guard Mac.slices_asus1215p hguard
  rw [ensures_given]
  refine ⟨fun hreal => ?_, fun _ => ⟨hq.vetted, trivial⟩⟩
  have hreal : u.dryRun = false := by simpa using hreal
  rw [ensures_bind]
  refine (ensures_confirm (D := u.demand d) hreal hprotected hfit trivial rfl hq).imp
    fun _ l w h => ?_
  exact (ensures_writeDisk (whole_of_prepareMakeUsb hprepare) h).imp fun _ _ _ _ => trivial

end Asus

/-- **`run_make_usb` of the second script asks first.** -/
theorem asusMakeUsb_granted (u : Asus.Settings) (d : Disk) {q : Sh Unit}
    {s : St Unit Cmd Stmt.Reply}
    (hr : Reach (Told d) (Asus.runMakeUsb u d.dev, fresh) (q, s)) :
    Vetted (Granted (u.demand d) (Asus.Aimed d.dev)) s.log :=
  (Asus.ensures_runMakeUsb u d).vetted hr

/-- A run of the whole script. -/
theorem asusMakeUsb_granted_sample :
    ∃ s, Reach (Told stick) (Asus.runMakeUsb Asus.makeOptions stick.dev, fresh) (.ret (), s) ∧
      Vetted (Granted (Asus.makeOptions.demand stick) (Asus.Aimed stick.dev)) s.log := by
  obtain ⟨s, hr⟩ := reach_of_may Asus.may_runMakeUsb_yes told_yes
  exact ⟨s, hr, asusMakeUsb_granted Asus.makeOptions stick hr⟩

end MakeUsb

end InstallKit
