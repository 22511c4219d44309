import InstallKit.Mac.Diskutil
import InstallKit.Shell.Returns

/-!
# The protected volumes

`assert_safe_target_disk` of `prepare_aspire4310_macos.sh` and `assert_safe_disk` of
`prepare_asus_1215p_snowleopard.sh` refuse a disk with a volume that `--protect-volume` names.
They ask `diskutil info` about every slice of the disk and take its mount point from the *first*
line with the words `Mount Point`, up to the second colon of that line.

* `may_assertSafe` : when the guards return.
* `protects_iff` : a disk with a protected volume is refused exactly where a slice is recognised
  (`Recognized`), or where the disk is refused for another reason.
* `protects_of_plain` : a slice is recognised when no field before its mount point mentions the
  words and the mount point has no colon.
* `volume_named_mount_point` : a volume called `My Mount Point` is not recognised.
-/

namespace InstallKit

namespace Mac

open Sources Shell

/-! ### The guards -/

/-- The commands of the guards, and everything that they keep away. -/
inductive Cmd
  /-- `diskutil info` -/
  | info (dev : Text)
  /-- `diskutil list` -/
  | list (disk : Text)
  /-- `sudo diskutil partitionDisk`, `sudo asr restore`, `sudo rm`, ... -/
  | sudo (argv : List Text)

/-- The command writes. -/
def Cmd.Destructive : Cmd → Prop
  | .sudo _ => True
  | _ => False

/-- A reply: its exit status and the lines that were printed. -/
structure Reply where
  status : ℕ
  out : List Text

instance : ExitStatus Reply := ⟨Reply.status⟩

/-- A part of a script. -/
abbrev Sh (α : Type) := Script Unit Cmd Reply α

open Script

/-- `${1%/}` -/
def stripSlash (t : Text) : Text := if t.getLast? = some '/' then t.dropLast else t

/-- `is_protected_volume`, the same in both scripts. -/
def isProtectedVolume (protectedVolumes : List Text) (candidate : Text) : Bool :=
  protectedVolumes.any fun p => stripSlash candidate = stripSlash p

/-- What the scripts take for a mount point that counts. -/
def holdsProtected (protectedVolumes : List Text) (details : List Text) : Bool :=
  let mountPoint := firstValue (txt "Mount Point") details
  mountPoint ≠ [] && mountPoint ≠ txt "Not mounted" &&
    isProtectedVolume protectedVolumes mountPoint

/-- The loop of `disk_contains_protected_volume` and `disk_has_protected_volume`, which are called
as conditions. -/
def anyProtected (protectedVolumes : List Text) : List Text → Sh Bool
  | [] => pure false
  | slice :: rest => do
    let details ← attempt (.info slice)
    if holdsProtected protectedVolumes details.out then pure true
    else anyProtected protectedVolumes rest

/-- Some line has `key`, blanks and `value`. -/
def grepPair (key value : Text) (lines : List Text) : Bool :=
  lines.any fun l => l.tails.any fun t =>
    key.isPrefixOf t && value.isPrefixOf ((t.drop key.length).dropWhile isSpace)

/-- `External:[[:space:]]*Yes|Device Location:[[:space:]]*External|...` -/
def clearlyExternal (info : List Text) : Bool :=
  grepPair (txt "External:") (txt "Yes") info ||
    grepPair (txt "Device Location:") (txt "External") info ||
    grepPair (txt "Removable Media:") (txt "Removable") info

/-- In what the two guards differ: how they read the slices, what they take for an internal disk,
and their messages. -/
structure Guard where
  slices : List Text → List Text
  isInternal : Text → Bool
  noInfo : String → String
  holdsVolume : String → String
  internal : String → String
  notExternal : String → String

/-- Both guards. -/
def assertSafe (g : Guard) (protectedVolumes : List Text) (allowInternal : Bool) (disk : Text) :
    Sh Unit := do
  let info ← attempt (.info disk)
  if info.status ≠ 0 then exit 1 (g.noInfo (String.ofList disk)) else do
  let _ ← cmd (.list disk)
  let listing ← attempt (.list disk)
  let found ← anyProtected protectedVolumes (g.slices listing.out)
  if found = true then exit 1 (g.holdsVolume (String.ofList disk)) else
  if g.isInternal (firstValue (txt "Internal:") info.out) = true ∧ allowInternal = false then
    exit 1 (g.internal (String.ofList disk)) else
  if clearlyExternal info.out = false ∧ allowInternal = false then
    exit 1 (g.notExternal (String.ofList disk))
  else pure ()

/-- The guard of `prepare_aspire4310_macos.sh`. -/
def aspire4310 : Guard where
  slices := diskPartitionSlices
  isInternal v := v = txt "Yes"
  noInfo disk := "diskutil info failed for " ++ disk
  holdsVolume disk := disk ++ " contains a volume protected by --protect-volume."
  internal disk := disk ++ " is Internal: Yes. Refusing without --allow-internal."
  notExternal disk := disk ++ " is not clearly external/removable."

/-- `assert_safe_target_disk` -/
def assertSafeTargetDisk : List Text → Bool → Text → Sh Unit := assertSafe aspire4310

/-- The guard of `prepare_asus_1215p_snowleopard.sh`. -/
def asus1215p : Guard where
  slices := listedSlices
  isInternal v := (txt "Yes").isPrefixOf v
  noInfo disk := "Cannot inspect " ++ disk
  holdsVolume disk := disk ++ " contains a --protect-volume mount"
  internal _ := "Refusing internal disk without --allow-internal"
  notExternal _ := "Disk is not clearly external/removable"

/-- `assert_safe_disk` -/
def assertSafeDisk : List Text → Bool → Text → Sh Unit := assertSafe asus1215p

/-! ### Disks -/

/-- What `diskutil` says about a disk and its slices. -/
structure Disk where
  dev : Text
  listStatus : ℕ
  listing : List Entry
  info : Text → Report

/-- The field has the words of the pattern. -/
def Field.MentionsMountPoint (f : Field) : Prop :=
  txt "Mount Point" <:+: f.key ∨ txt "Mount Point" <:+: f.value

instance : DecidablePred Field.MentionsMountPoint :=
  fun _ => inferInstanceAs (Decidable (_ ∨ _))

namespace Disk

variable (d : Disk) (protectedVolumes : List Text)

/-- Replies that are true to the disk; nothing is said about commands that write. -/
def Answers : Cmd → Reply → Prop
  | .info dev, r => r = ⟨(d.info dev).status, (d.info dev).lines⟩
  | .list dev, r => dev = d.dev → r = ⟨d.listStatus, d.listing.map Entry.line⟩
  | .sudo _, _ => True

/-- A listed slice reports a mount point that is protected, up to one trailing slash. -/
def HasProtected : Prop :=
  ∃ r, Entry.row r ∈ d.listing ∧ r.ident.parts ≠ [] ∧
    ∃ f ∈ (d.info r.ident.dev).fields, f.key = txt "Mount Point" ∧ f.value.head? = some '/' ∧
      ∃ p ∈ protectedVolumes, stripSlash f.value = stripSlash p

/-- A slice proper, not something below one, is listed, and the first field of its report with the
words `Mount Point` shows a protected path before its first colon. -/
def Recognized : Prop :=
  ∃ r, Entry.row r ∈ d.listing ∧ r.ident.parts.length = 1 ∧
    ∃ f, (d.info r.ident.dev).fields.find? (fun f => f.MentionsMountPoint) = some f ∧
      f.shown ≠ [] ∧ f.shown ≠ txt "Not mounted" ∧
      ∃ p ∈ protectedVolumes, stripSlash f.shown = stripSlash p

/-- The disk is refused for another reason. -/
def Unfit (g : Guard) (allowInternal : Bool) : Prop :=
  (d.info d.dev).status ≠ 0 ∨ d.listStatus ≠ 0 ∨
    allowInternal = false ∧ (g.isInternal (firstValue (txt "Internal:") (d.info d.dev).lines) = true ∨
      clearlyExternal (d.info d.dev).lines = false)

/-- Whatever comes after the guard, no run gets to a command that writes. -/
def Protects (guard : Sh Unit) : Prop :=
  ∀ (rest : Sh Unit) (s : St Unit Cmd Reply), s.errexit = true →
    Safe (fun _ => d.Answers) (fun _ c => ¬ c.Destructive) (guard >>= fun _ => rest) s

end Disk

/-! ### The guards over a disk -/

variable {d : Disk} {g : Guard} {protectedVolumes : List Text} {allowInternal : Bool}

theorem holdsProtected_lines (r : Report) :
    holdsProtected protectedVolumes r.lines = true ↔
      ∃ f, r.fields.find? (fun f => f.MentionsMountPoint) = some f ∧ f.shown ≠ [] ∧
        f.shown ≠ txt "Not mounted" ∧
        ∃ p ∈ protectedVolumes, stripSlash f.shown = stripSlash p := by
  have hc : ':' ∉ txt "Mount Point" := by decide +kernel
  have hs : (txt "Mount Point").head? ≠ some ' ' := by decide +kernel
  have hfirst : firstValue (txt "Mount Point") r.lines =
      ((r.fields.find? fun f => f.MentionsMountPoint).map Field.shown).getD [] :=
    r.firstValue_lines hc hs
  simp only [holdsProtected, hfirst, isProtectedVolume]
  cases r.fields.find? fun f => f.MentionsMountPoint with
  | none => simp
  | some f => simp [and_assoc]

/-- The slices that the guard stops at are those that it recognises. -/
theorem exists_slice_iff :
    (∃ x ∈ diskPartitionSlices (d.listing.map Entry.line),
      holdsProtected protectedVolumes (d.info x).lines = true) ↔
      d.Recognized protectedVolumes := by
  simp only [mem_diskPartitionSlices, holdsProtected_lines]
  constructor
  · rintro ⟨_, ⟨r, hr, hslice, rfl⟩, h⟩
    exact ⟨r, hr, hslice, h⟩
  · rintro ⟨r, hr, hslice, h⟩
    exact ⟨_, ⟨r, hr, hslice, rfl⟩, h⟩

/-- The loop over the slices looks for one. -/
theorem may_anyProtected {slices : List Text} {b : Bool} :
    May d.Answers (anyProtected protectedVolumes slices) b ↔
      b = slices.any fun x => holdsProtected protectedVolumes (d.info x).lines := by
  induction slices with
  | nil => exact Iff.rfl
  | cons x xs ih =>
    simp only [anyProtected, attempt_bind, may_attempt, Disk.Answers, exists_eq_left, may_ite,
      List.any_cons]
    split
    · rename_i h
      simp [h]
    · rename_i h
      simp [h, ih]

/-- **When the guards return.** -/
theorem may_assertSafe (hg : g.slices = diskPartitionSlices) :
    May d.Answers (assertSafe g protectedVolumes allowInternal d.dev) () ↔
      ¬ d.Recognized protectedVolumes ∧ ¬ d.Unfit g allowInternal := by
  simp only [assertSafe, attempt_bind, cmd_bind, may_attempt, may_cmd, may_bind, Disk.Answers,
    exists_eq_left, may_ite, may_exit, forall_const, may_anyProtected, hg, pure_eq, may_ret]
  rw [← exists_slice_iff]
  simp only [Disk.Unfit, ← List.any_eq_true, if_false_left]
  have hlist : ExitStatus.status (⟨d.listStatus, d.listing.map Entry.line⟩ : Reply) =
      d.listStatus := rfl
  rw [hlist]
  tauto

/-- The guards only look. -/
theorem calls_assertSafe {disk : Text} :
    (assertSafe g protectedVolumes allowInternal disk).Calls fun c => ¬ c.Destructive := by
  have hloop : ∀ slices, (anyProtected protectedVolumes slices).Calls fun c => ¬ c.Destructive := by
    intro slices
    induction slices with
    | nil => trivial
    | cons x xs ih =>
      simp only [anyProtected, attempt_bind, calls_call, calls_ite]
      refine ⟨id, fun r => ?_⟩
      split
      · trivial
      · exact ih
  simp only [assertSafe, attempt_bind, cmd_bind, calls_call, calls_ite, calls_bind, hloop,
    calls_exit, pure_eq, calls_ret, ite_self, implies_true, and_true]
  refine ⟨id, fun r => ?_⟩
  split
  · trivial
  · exact ⟨id, fun _ => id⟩

/-- A guard protects a disk iff it never lets it through. -/
theorem protects_assertSafe_iff :
    d.Protects (assertSafe g protectedVolumes allowInternal d.dev) ↔
      ¬ May d.Answers (assertSafe g protectedVolumes allowInternal d.dev) () := by
  constructor
  · intro h hmay
    obtain ⟨t, ht⟩ := (may_iff (s := ⟨(), [], true⟩) rfl).1 hmay
    -- what comes next may be the erasure
    have hrest := (safe_bind.1 (h (cmd (Cmd.sudo []) >>= fun _ => .ret ()) _ rfl)).2 () t ht
    exact hrest (Cmd.sudo []) true (fun _ => .ret ()) t (Reach.refl _) trivial
  · intro h rest s hs
    refine safe_bind.2 ⟨safe_of_calls calls_assertSafe fun _ _ hc => hc, fun _ t ht => ?_⟩
    exact absurd ((may_iff hs).2 ⟨t, ht⟩) h

theorem protects_iff_of_slices (hg : g.slices = diskPartitionSlices) :
    d.Protects (assertSafe g protectedVolumes allowInternal d.dev) ↔
      d.Recognized protectedVolumes ∨ d.Unfit g allowInternal := by
  rw [protects_assertSafe_iff, may_assertSafe hg, not_and_or, not_not, not_not]

theorem slices_asus1215p : asus1215p.slices = diskPartitionSlices := funext listedSlices_eq

/-! ### When a protected volume is recognised -/

theorem takeWhile_ne_colon {t : Text} (h : ':' ∉ t) : t.takeWhile (· ≠ ':') = t := by
  rw [List.takeWhile_eq_self_iff]
  intro c hc
  simpa using fun hx : c = ':' => h (hx ▸ hc)

/-- A path without a colon is shown as it is. -/
theorem Field.shown_of_path {f : Field} (hpath : f.value.head? = some '/') (hc : ':' ∉ f.value) :
    f.shown = f.value := by
  obtain ⟨t, ht⟩ : ∃ t, f.value = '/' :: t := by
    cases hv : f.value with
    | nil => rw [hv] at hpath; cases hpath
    | cons c t => rw [hv] at hpath; cases hpath; exact ⟨t, rfl⟩
  have hdrop : f.value.dropWhile (· = ' ') = f.value := by
    rw [ht, List.dropWhile_cons, if_neg (by decide)]
  rw [Field.shown, hdrop, takeWhile_ne_colon hc]

/-- **Plain names are safe**: where a listed slice reports a protected mount point without a colon
and no field before it has the words `Mount Point`, the disk is refused by both guards. -/
theorem protects_of_plain {r : Row} {fs : List Field} {f : Field} {gs : List Field}
    (hr : Entry.row r ∈ d.listing) (hslice : r.ident.parts.length = 1)
    (hfields : (d.info r.ident.dev).fields = fs ++ f :: gs)
    (hfs : ∀ f' ∈ fs, ¬ f'.MentionsMountPoint) (hkey : f.key = txt "Mount Point")
    (hpath : f.value.head? = some '/') (hc : ':' ∉ f.value)
    (hp : ∃ p ∈ protectedVolumes, stripSlash f.value = stripSlash p) :
    d.Protects (assertSafeTargetDisk protectedVolumes allowInternal d.dev) ∧
      d.Protects (assertSafeDisk protectedVolumes allowInternal d.dev) := by
  have hshown := Field.shown_of_path hpath hc
  -- the first line with the words is the mount point, up to its end
  have hfind : (d.info r.ident.dev).fields.find? (fun f => f.MentionsMountPoint) = some f := by
    rw [hfields, List.find?_append, List.find?_eq_none.2 fun f' hf' => by simpa using hfs f' hf',
      Option.none_or, List.find?_cons_of_pos]
    simp [Field.MentionsMountPoint, hkey]
  have hrec : d.Recognized protectedVolumes := by
    refine ⟨r, hr, hslice, f, hfind, ?_, ?_, ?_⟩
    · rw [hshown]
      rintro hnil
      rw [hnil] at hpath
      cases hpath
    · rw [hshown]
      intro hnot
      rw [hnot] at hpath
      exact absurd hpath (by decide +kernel)
    · rw [hshown]
      exact hp
  exact ⟨(protects_iff_of_slices rfl).2 (Or.inl hrec),
    (protects_iff_of_slices slices_asus1215p).2 (Or.inl hrec)⟩

/-- **The exact condition**: over every disk and every list of protected paths, a guard keeps the
protected volumes iff it recognises one of them or refuses the disk anyway. -/
theorem protects_iff (d : Disk) (protectedVolumes : List Text) (allowInternal : Bool) :
    ((d.HasProtected protectedVolumes →
        d.Protects (assertSafeTargetDisk protectedVolumes allowInternal d.dev)) ↔
      (d.HasProtected protectedVolumes →
        d.Recognized protectedVolumes ∨ d.Unfit aspire4310 allowInternal)) ∧
    ((d.HasProtected protectedVolumes →
        d.Protects (assertSafeDisk protectedVolumes allowInternal d.dev)) ↔
      (d.HasProtected protectedVolumes →
        d.Recognized protectedVolumes ∨ d.Unfit asus1215p allowInternal)) :=
  ⟨forall_congr' fun _ => protects_iff_of_slices rfl,
    forall_congr' fun _ => protects_iff_of_slices slices_asus1215p⟩

/-! ### A volume with the words of the pattern in its name -/

/-- `   Device Location:           External` -/
def deviceLocation : Field where
  indent := 3
  key := txt "Device Location"
  pad := 11
  value := txt "External"
  colon_not_mem := by decide +kernel
  newline_not_mem := by decide +kernel

/-- `   Volume Name:               My Mount Point` -/
def volumeName : Field where
  indent := 3
  key := txt "Volume Name"
  pad := 15
  value := txt "My Mount Point"
  colon_not_mem := by decide +kernel
  newline_not_mem := by decide +kernel

/-- `   Mount Point:               /Volumes/My Mount Point` -/
def mountPoint : Field where
  indent := 3
  key := txt "Mount Point"
  pad := 15
  value := txt "/Volumes/My Mount Point"
  colon_not_mem := by decide +kernel
  newline_not_mem := by decide +kernel

/-- `   1:             Windows_FAT_32 My Mount Point         31.0 GB    disk2s1` -/
def partitionOne : Row where
  indent := 3
  number := ['1']
  body := txt "            Windows_FAT_32 My Mount Point         31.0 GB   "
  ident := ⟨['2'], [['1']], by decide⟩
  number_ne_nil := by decide
  digits := by decide
  newline_not_mem := by decide +kernel

/-- An external disk with one volume, which is mounted. -/
def stick : Disk where
  dev := txt "/dev/disk2"
  listStatus := 0
  listing := [.row partitionOne]
  info dev := if dev = partitionOne.ident.dev then ⟨0, [volumeName, mountPoint]⟩
    else ⟨0, [deviceLocation]⟩

/-- The volume that the user names is on the disk, and both guards let the disk through. -/
theorem volume_named_mount_point :
    stick.HasProtected [txt "/Volumes/My Mount Point"] ∧
      ¬ stick.Protects
        (assertSafeTargetDisk [txt "/Volumes/My Mount Point"] false (txt "/dev/disk2")) ∧
      ¬ stick.Protects (assertSafeDisk [txt "/Volumes/My Mount Point"] false (txt "/dev/disk2")) := by
  have hinfo : stick.info partitionOne.ident.dev = ⟨0, [volumeName, mountPoint]⟩ := if_pos rfl
  have hmiss : ¬ stick.Recognized [txt "/Volumes/My Mount Point"] := by
    rw [← exists_slice_iff]
    decide +kernel
  -- nothing else speaks against the disk
  have hfit : ∀ g : Guard, g.isInternal [] = false → ¬ stick.Unfit g false := by
    intro g hg hunfit
    have hdisk : stick.info stick.dev = ⟨0, [deviceLocation]⟩ := if_neg (by decide +kernel)
    have hinternal : firstValue (txt "Internal:") (stick.info stick.dev).lines = [] := by
      decide +kernel
    have hexternal : clearlyExternal (stick.info stick.dev).lines = true := by decide +kernel
    rcases hunfit with h | h | ⟨-, h | h⟩
    · rw [hdisk] at h
      exact h rfl
    · exact h rfl
    · rw [hinternal, hg] at h
      cases h
    · rw [hexternal] at h
      cases h
  refine ⟨?_, fun h => ?_, fun h => ?_⟩
  · refine ⟨partitionOne, List.mem_singleton_self _, by decide, mountPoint, ?_, rfl,
      by decide +kernel, _, List.mem_singleton_self _, rfl⟩
    rw [hinfo]
    exact List.mem_cons_of_mem _ (List.mem_singleton_self _)
  · rcases (protects_iff_of_slices (d := stick) rfl).1 h with h | h
    · exact hmiss h
    · exact hfit _ (by decide +kernel) h
  · rcases (protects_iff_of_slices (d := stick) slices_asus1215p).1 h with h | h
    · exact hmiss h
    · exact hfit _ (by decide +kernel) h

end Mac

end InstallKit
