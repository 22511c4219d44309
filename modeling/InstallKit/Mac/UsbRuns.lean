import InstallKit.Mac.UsbScripts
import InstallKit.Shell.Achieves

/-!
# Runs of the USB scripts that return

What the parts before the first command that writes may return, when the commands of the build
succeed and `diskutil` says what the disk is like.

* `may_runBuild` : the build.
* `may_guard_of` : the guard lets a disk through that it should.
* `may_assertBootSlice`, `may_prepareUpdateEfi` : the rest of `run_update_efi`.
* `stick`, `yes` : a disk with one FAT partition, and replies with which all three scripts return.
-/

namespace InstallKit

namespace MakeUsb

open Sources Shell Stmt
open Mac (Disk Entry Report firstValue)

/-! ### Replies -/

/-- What `diskutil` prints about the disk. -/
def said (d : Disk) : Mac.Cmd → Stmt.Reply
  | .info dev => ⟨(d.info dev).status, unlines (d.info dev).lines⟩
  | .list _ => ⟨d.listStatus, unlines (d.listing.map Entry.line)⟩
  | .sudo _ => .failed

/-- The commands of the build may succeed, and `diskutil` may say what the disk is like. -/
structure Obliging (B : Cmd → Stmt.Reply → Prop) (d : Disk) : Prop where
  build : ∀ c, B (.build c) .done
  look : ∀ c, ¬ c.Destructive → B (.look c) (said d c)

theorem lines_info (d : Disk) (dev : Text) :
    lines (unlines (d.info dev).lines) = (d.info dev).lines := by
  refine splitLines_unlines rfl fun x hx c hc => ?_
  obtain ⟨f, -, rfl⟩ := List.mem_map.1 hx
  have hnew := f.newline_not_mem
  rw [List.mem_append, not_or] at hnew
  rw [decide_eq_false_iff_not]
  rintro rfl
  simp only [Mac.Field.line, List.mem_append, List.mem_cons] at hc
  rcases hc with hc | hc | hc | hc | hc
  · exact absurd (List.eq_of_mem_replicate hc) (by decide)
  · exact hnew.1 hc
  · exact absurd hc (by decide)
  · exact absurd (List.eq_of_mem_replicate hc) (by decide)
  · exact hnew.2 hc

theorem seen_said_info (d : Disk) (dev : Text) :
    seen (said d (.info dev)) = ⟨(d.info dev).status, (d.info dev).lines⟩ := by
  rw [said, seen, lines_info]

theorem seen_said_list {d : Disk} {dev : Text} (hlist : ∀ e ∈ d.listing, '\n' ∉ e.line) :
    seen (said d (.list dev)) = ⟨d.listStatus, d.listing.map Entry.line⟩ := by
  have hlines : lines (unlines (d.listing.map Entry.line)) = d.listing.map Entry.line := by
    refine splitLines_unlines rfl fun x hx c hc => ?_
    obtain ⟨e, he, rfl⟩ := List.mem_map.1 hx
    rw [decide_eq_false_iff_not]
    rintro rfl
    exact hlist e he hc
  rw [said, seen, hlines]

/-- What is printed is true to the disk. -/
theorem answers_said {d : Disk} (hlist : ∀ e ∈ d.listing, '\n' ∉ e.line) (c : Mac.Cmd) :
    d.Answers c (seen (said d c)) := by
  cases c with
  | info dev => exact seen_said_info d dev
  | list dev => exact fun _ => seen_said_list hlist
  | _ => trivial

/-- The commands of a guard. -/
theorem calls_assertSafe {g : Mac.Guard} {protectedVolumes : List Text} {allowInternal : Bool}
    {disk : Text} : (Mac.assertSafe g protectedVolumes allowInternal disk).Calls
      fun c => c = .list disk ∨ ∃ dev, c = .info dev := by
  have hloop : ∀ slices, (Mac.anyProtected protectedVolumes slices).Calls
      fun c => c = .list disk ∨ ∃ dev, c = .info dev := by
    intro slices
    induction slices with
    | nil => trivial
    | cons x xs ih =>
      simp only [Mac.anyProtected, Script.attempt_bind, Script.calls_call, Script.calls_ite]
      refine ⟨Or.inr ⟨x, rfl⟩, fun r => ?_⟩
      split
      · trivial
      · exact ih
  simp only [Mac.assertSafe, Script.attempt_bind, Script.cmd_bind, Script.calls_call,
    Script.calls_ite, Script.calls_bind, hloop, Script.calls_exit, Script.pure_eq, Script.calls_ret,
    ite_self, implies_true, and_true]
  refine ⟨Or.inr ⟨disk, rfl⟩, fun r => ?_⟩
  split
  · trivial
  · exact ⟨Or.inl trivial, fun _ => Or.inl trivial⟩

/-! ### The build -/

/-- A command of the build that succeeds. -/
theorem may_exec_zero (line : String) : May (fun _ n => n = 0) (Mac.SafeRemove.exec line) () :=
  ⟨0, rfl, rfl, rfl⟩

theorem may_loadOsProfile (rootDir target : Text) (os : Mac.SafeRemove.OsProfile) :
    May (fun _ n => n = 0) (Mac.SafeRemove.loadOsProfile rootDir target os) () := by
  unfold Mac.SafeRemove.loadOsProfile
  exact ⟨0, rfl, rfl, 0, rfl, rfl, rfl⟩

/-- A build whose commands all succeed. -/
theorem may_runBuild (rootDir target : Text) (os : Mac.SafeRemove.OsProfile)
    (kernel : Mac.SafeRemove.KernelMode) :
    May (fun _ n => n = 0) (Mac.SafeRemove.runBuild rootDir target os kernel .opencore) () := by
  have hholds : ∀ line, May (fun _ n => n = 0) (Mac.SafeRemove.holds line) true := fun _ =>
    ⟨0, rfl, rfl, rfl⟩
  have hremove : ∀ stage, May (fun _ n => n = 0)
      (Mac.SafeRemove.safeRemoveGenerated (Mac.SafeRemove.outputDir rootDir)
        (Mac.SafeRemove.buildRoot rootDir target os stage)) () := by
    intro stage
    unfold Mac.SafeRemove.safeRemoveGenerated
    rw [Mac.SafeRemove.passes_buildRoot]
    exact ⟨0, rfl, rfl, rfl⟩
  -- every variant is built where it may be removed
  have hvariant : ∀ stage, May (fun _ n => n = 0)
      (Mac.SafeRemove.buildOpencoreVariant rootDir target os stage) () := by
    intro stage
    unfold Mac.SafeRemove.buildOpencoreVariant
    simp only [may_then, may_exec_zero, hremove, true_and]
    refine may_bind.2 ⟨true, hholds _, ?_⟩
    rw [if_pos rfl]
    simp only [may_then, may_ite, may_exec_zero, true_and]
    split <;> exact may_bind.2 ⟨true, hholds _, by simp only [may_then, may_exec_zero, true_and]⟩
  unfold Mac.SafeRemove.runBuild
  simp only [may_then, may_exec_zero, may_loadOsProfile, true_and]
  cases kernel with
  | vanilla => exact hvariant _
  | custom => exact hvariant _
  | auto =>
    refine may_then.2 ⟨hvariant _, may_bind.2 ⟨true, hholds _, ?_⟩⟩
    rw [if_pos rfl]
    exact hvariant _

section Obliging

variable {B : Cmd → Stmt.Reply → Prop} {d : Disk} (hB : Obliging B d)

include hB

theorem may_building {p : Mac.SafeRemove.Sh Unit} (h : May (fun _ n => n = 0) p ()) :
    May B (building p) () := by
  refine may_relay p.calls_true (fun _ => rfl) ?_ h
  rintro c n - rfl
  exact ⟨.done, hB.build c, rfl⟩

/-- The parts of both preparations that build. -/
theorem may_building_all (u : Settings) (hloader : u.loader = .opencore) :
    (∀ line, May B (building (Mac.SafeRemove.exec line)) ()) ∧
      (∀ message, May B (building (Mac.SafeRemove.requireOpencore u.loader message)) ()) ∧
      May B (building (Mac.SafeRemove.loadOsProfile u.rootDir u.target u.os)) () ∧
      May B (building (Mac.SafeRemove.runBuild u.rootDir u.target u.os u.kernel u.loader)) () := by
  rw [hloader]
  have hrequire : ∀ message, May (fun _ n => n = 0)
      (Mac.SafeRemove.requireOpencore .opencore message) () := fun _ => rfl
  exact ⟨fun _ => may_building hB (may_exec_zero _), fun _ => may_building hB (hrequire _),
    may_building hB (may_loadOsProfile _ _ _), may_building hB (may_runBuild _ _ _ _)⟩

/-! ### `run_update_efi` up to the confirmation -/

theorem may_prepareUpdateEfi {u : Settings} (hwhole : isWholeDisk d.dev = true)
    (hboot : u.bootSlice ≠ []) (hinstaller : u.installerSlice = [])
    (hloader : u.loader = .opencore)
    (hconfig : B (.isFile (deployRoot u ++ txt "/ESP/EFI/OC/config.plist")) .done) :
    May B (prepareUpdateEfi u d.dev) () := by
  obtain ⟨hexec, hrequire, -, hbuild⟩ := may_building_all hB u hloader
  unfold prepareUpdateEfi validateDiskIdentifier requireBuild
  simp only [may_then, may_orDie, may_require, hexec, hrequire, hbuild, hwhole, hboot, hinstaller,
    ne_eq, not_false_eq_true, decide_true, true_and]
  exact ⟨.done, hconfig, rfl⟩

/-- The guard lets a disk through that it should. -/
theorem may_guard_of {g : Mac.Guard} {protectedVolumes : List Text} {allowInternal : Bool}
    (hg : g.slices = Mac.diskPartitionSlices) (hlist : ∀ e ∈ d.listing, '\n' ∉ e.line)
    (hprotected : ¬ d.Recognized protectedVolumes) (hfit : ¬ d.Unfit g allowInternal) :
    May B (guard (Mac.assertSafe g protectedVolumes allowInternal d.dev)) () := by
  refine may_relay (B := d.Answers) calls_assertSafe (fun _ => rfl) ?_
    ((Mac.may_assertSafe hg).2 ⟨hprotected, hfit⟩)
  rintro c r (rfl | ⟨dev, rfl⟩) hr
  · exact ⟨said d (.list d.dev), hB.look _ id, by rw [seen_said_list hlist, hr rfl]⟩
  · exact ⟨said d (.info dev), hB.look _ id, by rw [seen_said_info, show r = _ from hr]⟩

omit hB in
/-- The first slice of a whole disk is a slice. -/
theorem isSliceName_bootPart {disk : Text} (h : isWholeDisk disk = true) :
    isSliceName (bootPart disk) = true := by
  simp only [isWholeDisk, Bool.and_eq_true, List.isPrefixOf_iff_prefix, decide_eq_true_eq,
    List.all_eq_true] at h
  obtain ⟨⟨⟨n, rfl⟩, hne⟩, hdigits⟩ := h
  have hdrop : (txt "/dev/disk" ++ n).drop 9 = n := by simp [txt]
  rw [hdrop] at hne hdigits
  have hone : ∀ t ∈ [n, ['1']], t ≠ [] ∧ ∀ c ∈ t, c.isDigit = true := by
    intro t ht
    simp only [List.mem_cons, List.not_mem_nil, or_false] at ht
    rcases ht with rfl | rfl
    · exact ⟨hne, hdigits⟩
    · exact ⟨by simp, by decide⟩
  have hslice := (Mac.Ident.isSlice_text ⟨n, [['1']], hone⟩).2 rfl
  have htext : (bootPart (txt "/dev/disk" ++ n)).drop 5 =
      Mac.Ident.text ⟨n, [['1']], hone⟩ := by
    simp [bootPart, Mac.Ident.text, txt]
  rw [isSliceName, htext, hslice, Bool.and_true]
  simp [bootPart, txt]

theorem may_assertBootSlice {u : Settings} (hwhole : isWholeDisk d.dev = true)
    (hboot : u.bootSlice = bootPart d.dev) (hinfo : (d.info (bootPart d.dev)).status = 0)
    (hfat : isFatOrEfi (d.info (bootPart d.dev)).lines = true) :
    May B (assertBootSlice u d.dev) () := by
  unfold assertBootSlice validateSliceIdentifier
  rw [hboot]
  refine may_then.2 ⟨may_orDie.2 (isSliceName_bootPart hwhole), ?_⟩
  refine may_then.2 ⟨may_orDie.2 (decide_eq_true rfl), ?_⟩
  refine may_bind.2 ⟨said d (.info (bootPart d.dev)), may_glance.2 (hB.look _ id), ?_⟩
  refine may_then.2 ⟨may_orDie.2 (decide_eq_true hinfo), may_orDie.2 ?_⟩
  rw [said, lines_info]
  exact hfat

end Obliging

/-! ### A disk -/

/-- `   File System Personality:   MS-DOS FAT32` -/
def fileSystem : Mac.Field where
  indent := 3
  key := txt "File System Personality"
  pad := 3
  value := txt "MS-DOS FAT32"
  colon_not_mem := by simp [txt]
  newline_not_mem := by simp [txt]

/-- `   Mount Point:               /Volumes/EFI` -/
def mountPoint : Mac.Field where
  indent := 3
  key := txt "Mount Point"
  pad := 15
  value := txt "/Volumes/EFI"
  colon_not_mem := Mac.mountPoint.colon_not_mem
  newline_not_mem := by simp [txt]

/-- An external disk with one partition, which is mounted. -/
def stick : Disk where
  dev := txt "/dev/disk2"
  listStatus := 0
  listing := [.row Mac.partitionOne]
  info _ := ⟨0, [Mac.deviceLocation, fileSystem, mountPoint]⟩

theorem isWholeDisk_stick : isWholeDisk stick.dev = true := by
  simp [isWholeDisk, stick, txt]

theorem lines_stick (dev : Text) : (stick.info dev).lines =
    [txt "   Device Location:           External", txt "   File System Personality:   MS-DOS FAT32",
      txt "   Mount Point:               /Volumes/EFI"] := by
  simp [stick, Report.lines, Mac.Field.line, Mac.deviceLocation, fileSystem, mountPoint, txt,
    List.replicate_succ]

theorem isFatOrEfi_stick (dev : Text) : isFatOrEfi (stick.info dev).lines = true := by
  rw [lines_stick]
  simp only [isFatOrEfi, grepAfter, txt, String.reduceToList]
  decide

theorem firstValue_stick (dev : Text) :
    firstValue (txt "Mount Point") (stick.info dev).lines = txt "/Volumes/EFI" := by
  rw [lines_stick]
  simp only [txt, String.reduceToList]
  decide

theorem firstValue_stick_readOnly (dev : Text) :
    firstValue (txt "Volume Read-Only") (stick.info dev).lines = [] := by
  rw [lines_stick]
  simp only [txt, String.reduceToList]
  decide

theorem newline_not_mem_stick : ∀ e ∈ stick.listing, '\n' ∉ e.line := by
  simp [stick, Entry.line, Mac.Row.line, Mac.partitionOne, Mac.Ident.text, txt]

theorem not_recognized_stick : ¬ stick.Recognized [] := by
  rintro ⟨_, -, -, _, -, -, -, p, hp, -⟩
  cases hp

/-- No guard refuses it that does not take a disk for an internal one without a reason. -/
theorem fit_stick {g : Mac.Guard} (hg : g.isInternal [] = false) : ¬ stick.Unfit g false := by
  have hinternal : firstValue (txt "Internal:") (stick.info stick.dev).lines = [] := by
    rw [lines_stick]
    simp only [txt, String.reduceToList]
    decide
  have hexternal : Mac.clearlyExternal (stick.info stick.dev).lines = true := by
    rw [lines_stick]
    simp only [Mac.clearlyExternal, Mac.grepPair, txt, String.reduceToList]
    decide
  rintro (h | h | ⟨-, h | h⟩)
  · exact h rfl
  · exact h rfl
  · rw [hinternal, hg] at h
    cases h
  · rw [hexternal] at h
    cases h

/-- The options of `--update-efi`. -/
def updateOptions : Settings where
  retail := []
  layout := .fresh
  bootSlice := bootPart stick.dev
  installerSlice := []
  protectedVolumes := []
  allowInternal := false
  dryRun := false
  rootDir := txt "/Users/me/kit"
  target := txt "acer-aspire-4310-c2d-t7400"
  os := .leopard
  kernel := .vanilla
  loader := .opencore
  archName := txt "IA32"
  ocCacheRoot := txt "/Users/me/kit/cache/opencore"
  pid := txt "4310"

/-- The options of `--make-usb`. -/
def makeOptions : Settings :=
  { updateOptions with retail := txt "/Volumes/Mac OS X Install DVD", bootSlice := [] }

/-- Everything succeeds, and the phrase is typed. -/
def yes (phrase : Text) : Cmd → Stmt.Reply
  | .look c => said stick c
  | .readLine => .text phrase
  | .attach _ => .text (txt "/dev/disk4s3  Apple_HFS  /Volumes/Mac OS X Install DVD")
  | .volumeUuid _ => .text (txt "2A39D4D6-5F9C-3C6E-A2A9-1F5E0F1B7A31")
  | _ => .done

section Yes

variable {phrase : Text}

theorem obliging_yes : Obliging (fun c r => r = yes phrase c) stick :=
  ⟨fun _ => rfl, fun _ _ => rfl⟩

theorem mountPointOf_yes (dev : Text) :
    mountPointOf (yes phrase (.look (.info dev))) = txt "/Volumes/EFI" := by
  rw [mountPointOf, yes, said, lines_info, firstValue_stick]

theorem may_guard_yes {g : Mac.Guard} (hg : g.slices = Mac.diskPartitionSlices)
    (hinternal : g.isInternal [] = false) :
    May (fun c r => r = yes phrase c) (guard (Mac.assertSafe g [] false stick.dev)) () :=
  may_guard_of obliging_yes hg newline_not_mem_stick not_recognized_stick (fit_stick hinternal)

theorem may_mountBootSliceWritable_yes {slice pid : Text} :
    May (fun c r => r = yes phrase c) (mountBootSliceWritable slice pid) (txt "/Volumes/EFI") := by
  have hinfo : ∀ dev, (yes phrase (.look (.info dev))).status = 0 := fun _ => rfl
  have hwritable : ∀ dev, firstValue (txt "Volume Read-Only")
      (lines (yes phrase (.look (.info dev))).out) = [] := by
    intro dev
    rw [yes, said, lines_info, firstValue_stick_readOnly]
  simp only [mountBootSliceWritable, may_bind, may_glance, may_orDie, may_given, may_require,
    exists_eq_left, mountPointOf_yes, hinfo, hwritable]
  simp [yes, txt]

theorem may_replaceBootFiles_yes {rootDir disk build : Text} :
    May (fun c r => r = yes phrase c)
      (replaceBootFiles rootDir disk (txt "/Volumes/EFI") build) () := by
  simp [replaceBootFiles, may_bind, hasBootFiles, backUp, saveEfi, may_ite, underVolumes, yes, txt]

theorem may_installBootSectors_yes {ocCacheRoot archName disk : Text} :
    May (fun c r => r = yes phrase c) (installBootSectors ocCacheRoot archName disk) () := by
  simp [installBootSectors, may_bind, yes]

/-- `run_update_efi` returns. -/
theorem may_runUpdateEfi_yes :
    May (fun c r => r = yes (updatePhrase updateOptions stick.dev) c)
      (runUpdateEfi updateOptions stick.dev) () := by
  have hinternal : Mac.aspire4310.isInternal [] = false := by simp [Mac.aspire4310, txt]
  unfold runUpdateEfi
  refine may_then.2 ⟨?_, may_then.2 ⟨may_guard_yes rfl hinternal, may_then.2 ⟨?_, ?_⟩⟩⟩
  · refine may_prepareUpdateEfi obliging_yes isWholeDisk_stick ?_ rfl rfl rfl
    simp [updateOptions, bootPart, txt]
  · exact may_assertBootSlice obliging_yes isWholeDisk_stick rfl rfl (isFatOrEfi_stick _)
  rw [may_given]
  refine fun _ => may_then.2 ⟨by simp [confirmEfiUpdate, confirm, may_bind, yes], ?_⟩
  unfold updateFiles
  exact may_bind.2 ⟨_, may_mountBootSliceWritable_yes, may_then.2
    ⟨may_replaceBootFiles_yes, may_installBootSectors_yes⟩⟩

/-- `run_make_usb` returns. -/
theorem may_runMakeUsb_yes :
    May (fun c r => r = yes (erasePhrase stick.dev) c) (runMakeUsb makeOptions stick.dev) () := by
  have hinternal : Mac.aspire4310.isInternal [] = false := by simp [Mac.aspire4310, txt]
  have hretail : makeOptions.retail ≠ [] := by simp [makeOptions, txt]
  have himage : isImage makeOptions.retail = false := by
    simp only [isImage, makeOptions, txt, String.reduceToList]
    decide
  -- the image is chosen and the build is there
  have hprepare : May (fun c r => r = yes (erasePhrase stick.dev) c)
      (prepareMakeUsb makeOptions stick.dev) makeOptions.retail := by
    have hyes : Obliging (fun c r => r = yes (erasePhrase stick.dev) c) stick := obliging_yes
    obtain ⟨hexec, hrequire, hprofile, hbuild⟩ := may_building_all hyes makeOptions rfl
    unfold prepareMakeUsb validateDiskIdentifier requireBuild chooseRetail
    rw [if_pos hretail]
    refine may_then.2 ⟨hexec _, may_then.2 ⟨may_orDie.2 isWholeDisk_stick, ?_⟩⟩
    refine may_bind.2 ⟨_, rfl, may_then.2 ⟨may_orDie.2 (decide_eq_true hretail), ?_⟩⟩
    simp only [may_then, may_require, exists_eq_left, hexec, hrequire, hprofile, hbuild, true_and]
    exact ⟨rfl, rfl, rfl⟩
  -- the disk is erased with the phrase, and then filled
  unfold runMakeUsb
  refine may_bind.2 ⟨_, hprepare, may_then.2 ⟨may_guard_yes rfl hinternal, may_then.2 ⟨?_, ?_⟩⟩⟩
  · simp [assertLayout, makeOptions, updateOptions]
  rw [may_given]
  refine fun _ => may_bind.2 ⟨(bootPart stick.dev, installerPart stick.dev), ?_, ?_⟩
  · simp [openDisk, makeOptions, updateOptions, confirmErase, confirm, may_bind, yes]
  unfold fillDisk
  refine may_then.2 ⟨?_, ?_⟩
  · simp [restoreRetail, attachImage, himage, may_bind, yes]
  refine may_bind.2 ⟨_, may_glance.2 rfl, may_then.2 ⟨may_orDie.2 (by simp [yes, txt]), ?_⟩⟩
  refine may_then.2 ⟨may_require.2 ⟨_, rfl, rfl⟩, ?_⟩
  exact may_bind.2 ⟨_, may_mountBootSliceWritable_yes, may_then.2
    ⟨may_replaceBootFiles_yes, may_installBootSectors_yes⟩⟩

namespace Asus

/-- The options of `--make-usb`. -/
def makeOptions : Settings where
  retail := txt "/Users/me/SnowLeopard.iso"
  protectedVolumes := []
  allowInternal := false
  dryRun := false
  rootDir := txt "/Users/me/kit"
  ocCacheRoot := txt "/Users/me/kit/cache/opencore"

theorem may_restoreRetail_yes {source target : Text} :
    May (fun c r => r = yes phrase c) (restoreRetail source target) () := by
  have hvolume : attachedVolume (yes phrase (.attach source)).out ≠ [] := by
    simp only [yes, out_text, attachedVolume, txt, String.reduceToList]
    decide
  have hattach : May (fun c r => r = yes phrase c)
      (attachRetailReadonly source "Could not locate mounted retail volume")
      (attachedVolume (yes phrase (.attach source)).out) :=
    may_bind.2 ⟨_, may_capture.2 ⟨_, rfl, rfl, rfl⟩,
      may_then.2 ⟨may_orDie.2 (decide_eq_true hvolume), rfl⟩⟩
  unfold restoreRetail
  refine may_bind.2 ⟨_, hattach, may_bind.2 ⟨true, may_holds.2 ⟨_, rfl, rfl⟩, ?_⟩⟩
  simp

theorem may_installEfi_yes {u : Settings} {disk slice : Text} :
    May (fun c r => r = yes phrase c) (installEfi u disk slice) () := by
  have hcapture : May (fun c r => r = yes phrase c) (captureMountPoint slice)
      (txt "/Volumes/EFI") :=
    may_bind.2 ⟨_, may_capture.2 ⟨_, rfl, rfl, rfl⟩, (mountPointOf_yes slice).symm⟩
  have hfound : May (fun c r => r = yes phrase c) (anyBootFiles (txt "/Volumes/EFI")) true := by
    simp [anyBootFiles, may_bind, may_ite, yes]
  have hbackUp : ∀ backup,
      May (fun c r => r = yes phrase c) (backUp (txt "/Volumes/EFI") backup) () := by
    simp [backUp, tryDitto, tryCopy, may_bind, yes]
  unfold installEfi
  refine may_bind.2 ⟨_, may_glance.2 rfl, may_bind.2 ⟨_, hcapture, ?_⟩⟩
  refine may_then.2 ⟨may_require.2 ⟨_, rfl, rfl⟩, may_bind.2 ⟨_, hfound, may_then.2 ⟨?_, ?_⟩⟩⟩
  · exact may_given.2 fun _ => may_bind.2 ⟨_, may_glance.2 rfl, hbackUp _⟩
  simp only [may_then, may_exec, may_require, exists_eq_left, may_installBootSectors_yes, and_true]
  exact ⟨rfl, rfl, rfl, rfl, rfl, rfl⟩

/-- `run_make_usb` of the second script returns. -/
theorem may_runMakeUsb_yes :
    May (fun c r => r = yes (erasePhrase stick.dev) c) (runMakeUsb makeOptions stick.dev) () := by
  have hinternal : Mac.asus1215p.isInternal [] = false := by simp [Mac.asus1215p, txt]
  have hretail : makeOptions.retail ≠ [] := by simp [makeOptions, txt]
  have hdisk : stick.dev ≠ [] := by simp [stick, txt]
  have hexec : ∀ line, May (fun c r => r = yes (erasePhrase stick.dev) c)
      (building (Mac.SafeRemove.exec line)) () :=
    fun _ => may_building obliging_yes (may_exec_zero _)
  have hprepare : May (fun c r => r = yes (erasePhrase stick.dev) c)
      (prepareMakeUsb makeOptions stick.dev) makeOptions.retail := by
    unfold prepareMakeUsb validateDisk chooseRetail
    rw [if_pos hretail]
    refine may_then.2 ⟨hexec _, may_then.2 ⟨may_orDie.2 (decide_eq_true hdisk), ?_⟩⟩
    refine may_then.2 ⟨may_orDie.2 isWholeDisk_stick, may_bind.2 ⟨_, rfl, ?_⟩⟩
    refine may_then.2 ⟨may_orDie.2 (decide_eq_true hretail), ?_⟩
    exact may_then.2 ⟨may_require.2 ⟨_, rfl, rfl⟩, may_then.2 ⟨hexec _, rfl⟩⟩
  unfold runMakeUsb
  refine may_bind.2 ⟨_, hprepare, may_then.2 ⟨may_guard_yes Mac.slices_asus1215p hinternal, ?_⟩⟩
  rw [may_given]
  refine fun _ => may_then.2 ⟨by simp [confirm, may_bind, yes], ?_⟩
  unfold writeDisk
  exact may_then.2 ⟨may_exec.2 ⟨_, rfl, rfl⟩,
    may_then.2 ⟨may_restoreRetail_yes, may_installEfi_yes⟩⟩

end Asus

end Yes

end MakeUsb

end InstallKit
