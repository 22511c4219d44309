import InstallKit.Config.AsusPatch
import InstallKit.Config.KernelArch
import InstallKit.Config.QemuEsp

/-!
# The files that the configuration programs leave behind

Three of the programs open their output, which empties it, and then call `plistlib.dump`; if that
raises, the old file is lost and a part of the new one is there.  The fourth one dumps into a
temporary file and puts that in place.

An argument can have surrogates, and UTF-8 cannot encode them; that raises an exception where a
control character does.  The generators get the arguments as texts in which a surrogate begins with
`U+0000` (`PyText.escaped`), which is a control character that no argument has.
-/

namespace InstallKit

namespace Config

open Sources Plist

/-! ### Outcomes -/

/-- How a program ends: whether its exit status is zero, and its output file. -/
structure Outcome where
  succeeds : Bool
  output : Option Bytes
  deriving DecidableEq

/-- A failure leaves the output as it was. -/
def Outcome.Atomic (before : Option Bytes) (o : Outcome) : Prop :=
  o.succeeds = false → o.output = before

instance (before : Option Bytes) (o : Outcome) : Decidable (o.Atomic before) :=
  inferInstanceAs (Decidable (o.succeeds = false → o.output = before))

/-- `text.encode("utf-8")` -/
def encodeUtf8 (t : Text) : Bytes := t.flatMap String.utf8EncodeChar

/-- An exception before the output is opened. -/
def fails (before : Option Bytes) : Outcome := ⟨false, before⟩

/-- `with output.open("wb") as handle: plistlib.dump(config, handle)`.  What `dump` wrote before an
exception stays in the file. -/
def overwrite (repr : UInt64 → Text) (stack : Stack) (opens : Bool) (config : Plist)
    (before : Option Bytes) : Outcome :=
  if opens then
    let written := dump repr stack config
    ⟨!written.raised, some (encodeUtf8 written.text)⟩
  else fails before

theorem atomic_fails (before : Option Bytes) : (fails before).Atomic before := fun _ => rfl

variable {repr : UInt64 → Text} {stack : Stack} {opens : Bool} {config : Plist}

theorem atomic_overwrite_of_writable (before : Option Bytes)
    (h : opens = true → config.writable stack 0 = true) :
    (overwrite repr stack opens config before).Atomic before := by
  unfold overwrite
  cases opens with
  | false => exact atomic_fails before
  | true =>
    intro hfail
    rw [if_pos rfl] at hfail
    simp [raised_dump, h rfl] at hfail

/-- A new file is left behind, even where there was none. -/
theorem writable_of_atomic_overwrite (h : (overwrite repr stack opens config none).Atomic none)
    (hopens : opens = true) : config.writable stack 0 = true := by
  by_contra hno
  rw [Bool.not_eq_true] at hno
  subst hopens
  have hout := h (by simp [overwrite, raised_dump, hno])
  cases hout

/-! ### `generate_oc_config.py` -/

/-- An assignment of something that can be written. -/
def Writes (stack : Stack) (w : List String × Plist) : Prop :=
  Assignable w.1 ∧ w.2.writable stack w.1.length = true

theorem writes_inSection {sec : List String} {kvs : List (String × Plist)} (hsec : KeysFree sec)
    (hlength : sec.length < 7)
    (h : ∀ kv ∈ kvs, controlFree kv.1.toList = true ∧
      kv.2.writable stack (sec.length + 1) = true) :
    ∀ w ∈ inSection sec kvs, Writes stack w := by
  intro w hw
  obtain ⟨kv, hkv, rfl⟩ := List.mem_map.1 hw
  have hlen : (sec ++ [kv.1]).length = sec.length + 1 := List.length_append
  refine ⟨⟨List.forall_mem_append.2 ⟨hsec, List.forall_mem_singleton.2 (h kv hkv).1⟩,
    lt_of_eq_of_lt hlen (Nat.succ_lt_succ hlength)⟩, ?_⟩
  change kv.2.writable stack (sec ++ [kv.1]).length = true
  rw [hlen]
  exact (h kv hkv).2

theorem writes_single {p : List String} {v : Plist} (hp : Assignable p)
    (hv : v.writable stack p.length = true) : ∀ w ∈ [(p, v)], Writes stack w :=
  List.forall_mem_singleton.2 ⟨hp, hv⟩

theorem writes_clearSamples : ∀ w ∈ clearSamples, Writes stack w := by
  have hpaths : ∀ w ∈ clearSamples, Assignable w.1 := by decide +kernel
  have hempty : ∀ w ∈ clearSamples, w.1.length < 8 ∧ (w.2 = .array [] ∨ w.2 = .dict []) := by
    simp [clearSamples]
  intro w hw
  obtain ⟨hlength, he | he⟩ := hempty w hw
  · exact ⟨hpaths w hw, by rw [he]; simp [hlength]⟩
  · exact ⟨hpaths w hw, by rw [he]; simp [hlength]⟩

theorem writes_booterQuirks (profile : RuntimeProfile) :
    ∀ w ∈ inSection ["Booter", "Quirks"] (booterQuirks profile), Writes stack w := by
  refine writes_inSection (by decide +kernel) (by decide) ?_
  cases profile <;> simp [booterQuirks]

theorem controlFree_kernelRange (os : Os) :
    controlFree (kernelRange os).1 = true ∧ controlFree (kernelRange os).2 = true := by
  cases os <;> decide +kernel

theorem controlFree_text (arch : KernelArch) : controlFree arch.text = true := by
  cases arch <;> decide +kernel

theorem controlFree_bootArgsFor (os : Os) (preset : BootPreset) (arch : KernelArch) :
    controlFree (bootArgsFor os preset arch) = true := by
  cases os <;> cases preset <;> cases arch <;> decide +kernel

/-- The arguments as Python has them. -/
structure RawArgs where
  os : Os
  kernel : Kernel
  bootPreset : BootPreset
  runtimeProfile : RuntimeProfile
  kernelArch : Option KernelArch
  drivers : List PyText
  kexts : List PyText
  acpi : List PyText
  dropDuplicateApic : Bool
  ocVersion : PyText

/-- The arguments with texts. -/
def RawArgs.args (a : RawArgs) : Args :=
  { a with
    drivers := a.drivers.map PyText.escaped, kexts := a.kexts.map PyText.escaped,
    acpi := a.acpi.map PyText.escaped, ocVersion := a.ocVersion.escaped }

/-- `--kernel-arch`, or the variable. -/
def RawArgs.requested (a : RawArgs) (env : Option PyText) : Option Text :=
  (requestedArch a.kernelArch env).map PyText.escaped

/-- `main`.  The sample is none where `plistlib.load` raises. -/
def runGenerate (repr : UInt64 → Text) (stack : Stack) (load : Bytes → Option Info) (t : Tree)
    (ocRoot : PurePath) (a : RawArgs) (env : Option PyText) (opens : Bool) (sample : Option Plist)
    (before : Option Bytes) : Outcome :=
  match sample.bind (generateWith load t ocRoot a.args (a.requested env)) with
  | none => fails before
  | some config => overwrite repr stack opens config before

/-- Without surrogates and control characters. -/
def textFree (t : PyText) : Bool := (PyText.text? t).any controlFree

theorem controlFree_escaped (t : PyText) : controlFree t.escaped = textFree t := by
  induction t with
  | nil => rfl
  | cons c t ih =>
    cases c with
    | char c =>
      rw [PyText.escaped_char, controlFree_cons, ih, textFree, textFree, PyText.text?]
      cases PyText.text? t with
      | none => exact Bool.and_false _
      | some t => rfl
    | surrogate byte => rfl

/-- The texts of an `Info.plist` that `read_kext` copies have no control characters. -/
structure Info.ControlFree (info : Info) : Prop where
  identifier : ∀ t ∈ info.identifier, controlFree t = true
  version : ∀ t ∈ info.version, controlFree t = true
  executable : ∀ t ∈ info.executable, controlFree t = true

/-- The `Info.plist` of a kext. -/
def infoOf (load : Bytes → Option Info) (t : Tree) (ocRoot : PurePath) (path : Text) : Option Info :=
  loadInfo load t (((bundleOf ocRoot path).join (component "Contents")).join
    (component "Info.plist"))

/-- The kexts can be copied into a property list. -/
def KextsFree (load : Bytes → Option Info) (t : Tree) (ocRoot : PurePath) (paths : List Text) :
    Prop :=
  ∀ path ∈ paths, controlFree (PurePath.parse path).toText = true ∧
    ∀ info ∈ infoOf load t ocRoot path, info.ControlFree

/-- What the generator copies can be written. -/
structure CopiesFree (stack : Stack) (load : Bytes → Option Info) (t : Tree) (ocRoot : PurePath)
    (a : Args) (requested : Option Text) (sample : Plist) : Prop where
  sample : sample.writableBut stack 0 (writtenPaths a) = true
  arch : ∀ text ∈ requested, controlFree text = true
  acpi : ∀ path ∈ a.acpi, controlFree path = true
  kexts : KextsFree load t ocRoot a.kexts
  drivers : ∀ driver ∈ a.drivers, controlFree driver = true
  ocVersion : controlFree a.ocVersion = true

/-- What the generator copies can be written, of the arguments as Python has them. -/
structure RawArgs.CopiesFree (stack : Stack) (load : Bytes → Option Info) (t : Tree)
    (ocRoot : PurePath) (a : RawArgs) (env : Option PyText) (sample : Plist) : Prop where
  sample : sample.writableBut stack 0 (writtenPaths a.args) = true
  arch : ∀ text ∈ requestedArch a.kernelArch env, textFree text = true
  acpi : ∀ path ∈ a.acpi, textFree path = true
  kexts : KextsFree load t ocRoot (a.kexts.map PyText.escaped)
  drivers : ∀ driver ∈ a.drivers, textFree driver = true
  ocVersion : textFree a.ocVersion = true

variable {load : Bytes → Option Info} {t : Tree} {ocRoot : PurePath} {a : Args}
  {requested : Option Text} {sample : Plist} {kexts : List Plist} {kernelArch : Text}

theorem forall_mem_escaped {ts : List PyText} :
    (∀ t ∈ ts.map PyText.escaped, controlFree t = true) ↔ ∀ t ∈ ts, textFree t = true := by
  simp only [List.forall_mem_map, controlFree_escaped]

theorem copiesFree_args {a : RawArgs} {env : Option PyText} :
    CopiesFree stack load t ocRoot a.args (a.requested env) sample ↔
      a.CopiesFree stack load t ocRoot env sample := by
  have harch : (∀ text ∈ a.requested env, controlFree text = true) ↔
      ∀ text ∈ requestedArch a.kernelArch env, textFree text = true := by
    rw [RawArgs.requested]
    cases requestedArch a.kernelArch env <;> simp [controlFree_escaped]
  constructor
  · intro h
    exact ⟨h.sample, harch.1 h.arch, forall_mem_escaped.1 h.acpi, h.kexts,
      forall_mem_escaped.1 h.drivers, controlFree_escaped _ ▸ h.ocVersion⟩
  · intro h
    exact ⟨h.sample, harch.2 h.arch, forall_mem_escaped.2 h.acpi, h.kexts,
      forall_mem_escaped.2 h.drivers, (controlFree_escaped _).trans h.ocVersion⟩

/-- The generator assigns only what can be written. -/
theorem writes_assignments (hacpi : ∀ path ∈ a.acpi, controlFree path = true)
    (hkexts : ∀ kext ∈ kexts, kext.writable stack 3 = true)
    (hdrivers : ∀ driver ∈ a.drivers, controlFree driver = true)
    (hversion : controlFree a.ocVersion = true) (arch : KernelArch) :
    ∀ w ∈ assignments a arch kexts, Writes stack w := by
  have hos := controlFree_kernelRange a.os
  have hname : controlFree a.os.text = true := by cases a.os <;> decide +kernel
  have hdrop : ∀ w ∈ (if a.dropDuplicateApic then [(["ACPI", "Delete"], Plist.array [duplicateApic])]
      else []), Writes stack w := by
    split
    · exact writes_single (by decide +kernel) (by simp [duplicateApic])
    · exact List.forall_mem_nil _
  have hadd : (Plist.array (a.acpi.map acpiEntry)).writable stack 2 = true := by
    refine writable_array (by decide) (List.forall_mem_map.2 fun path hpath => ?_)
    simp [acpiEntry, hacpi path hpath]
  have hpaths : (Plist.array (a.drivers.map driverEntry)).writable stack 2 = true := by
    refine writable_array (by decide) (List.forall_mem_map.2 fun driver hdriver => ?_)
    simp [driverEntry, hdrivers driver hdriver]
  -- in the order of the assignments
  unfold assignments
  repeat' apply forall_mem_append_of
  · exact writes_clearSamples
  · exact writes_booterQuirks _
  · exact writes_single (by decide +kernel) hadd
  · exact hdrop
  · exact writes_single (by decide +kernel) (writable_array (by decide) hkexts)
  all_goals first
    | exact writes_single (by decide +kernel) hpaths
    | exact writes_single (by decide +kernel) (by simp [hversion, hname, controlFree_text])
    | exact writes_inSection (by decide +kernel) (by decide)
        (by simp [appleNvram, hos, controlFree_text, controlFree_bootArgsFor])

/-- The keys do not depend on the values. -/
theorem assignable_writtenPaths (a : Args) : ∀ p ∈ writtenPaths a, Assignable p := by
  have hblank :
      writtenPaths { a with acpi := [], drivers := [], ocVersion := [] } = writtenPaths a := by
    unfold writtenPaths assignments
    simp only [inSection, List.map_append, List.map_cons, List.map_nil]
  rw [← hblank]
  intro p hp
  obtain ⟨w, hw, rfl⟩ := List.mem_map.1 hp
  have hwrites : ∀ w ∈ assignments { a with acpi := [], drivers := [], ocVersion := [] } .i386 [],
      Writes .usual w :=
    writes_assignments (List.forall_mem_nil _) (List.forall_mem_nil _) (List.forall_mem_nil _) rfl _
  exact (hwrites w hw).1

theorem controlFree_bootArgsWith (os : Os) (preset : BootPreset) (kernelArch : Text) :
    controlFree (bootArgsWith os preset kernelArch) = true := by
  suffices h : ∃ arch, bootArgsWith os preset kernelArch = bootArgsFor os preset arch by
    obtain ⟨arch, harch⟩ := h
    rw [harch]
    exact controlFree_bootArgsFor os preset arch
  cases os with
  | leopard => exact ⟨.i386, rfl⟩
  | snowleopard =>
    by_cases h : kernelArch = txt "x86_64"
    · exact ⟨.x86_64, by rw [h]; exact bootArgsWith_text .snowleopard preset .x86_64⟩
    · refine ⟨.i386, ?_⟩
      simp only [bootArgsWith, if_neg h]
      rfl

/-- What is resolved is one of the names, or what is asked for. -/
theorem controlFree_resolveArch {os : Os} (h : resolveArch os requested = some kernelArch) :
    controlFree kernelArch = true ↔ ∀ text ∈ requested, controlFree text = true := by
  cases requested with
  | none =>
    rw [← Option.some.inj h]
    refine iff_of_true ?_ fun _ h => by cases h
    cases os <;> decide +kernel
  | some text =>
    have htext : (∀ t ∈ some text, controlFree t = true) ↔ controlFree text = true := by simp
    rw [htext]
    rw [resolveArch] at h
    split at h
    · cases h
    · split at h
      · next hs =>
        rw [← Option.some.inj h, hs.2]
        decide +kernel
      · rw [← Option.some.inj h]

theorem writes_assignmentsWith (hc : CopiesFree stack load t ocRoot a requested sample)
    (hkexts : ∀ kext ∈ kexts, kext.writable stack 3 = true) (harch : controlFree kernelArch = true) :
    ∀ w ∈ assignmentsWith a kernelArch kexts, Writes stack w := by
  rw [assignmentsWith, List.forall_mem_map]
  intro w hw
  obtain ⟨hkeys, hv⟩ := writes_assignments hc.acpi hkexts hc.drivers hc.ocVersion .i386 w hw
  refine ⟨hkeys, ?_⟩
  cases hval : archValue a kernelArch w.1 with
  | none => exact hv
  | some v =>
    have hname : controlFree a.os.text = true := by cases a.os <;> decide +kernel
    have hboot := controlFree_bootArgsWith a.os a.bootPreset kernelArch
    rw [Option.getD_some]
    -- the three values that the variable replaces
    unfold archValue at hval
    split at hval
    · next hp =>
      rw [← Option.some.inj hval, hp]
      simp [harch]
    · split at hval
      · next hp =>
        rw [← Option.some.inj hval, hp]
        simp [appleNvram, hboot]
      · split at hval
        · next hp =>
          rw [← Option.some.inj hval, hp]
          simp [hname, hc.ocVersion, harch]
        · cases hval

theorem controlFree_getD {o : Option Text} {d : Text} (hd : controlFree d = true) :
    controlFree (o.getD d) = true ↔ ∀ t ∈ o, controlFree t = true := by
  cases o <;> simp [hd]

/-- The texts of a kext come from its path and its `Info.plist`. -/
theorem writable_readKextWith {minimum maximum arch path : Text} {kext : Plist}
    (h : readKextWith load t ocRoot minimum maximum arch path = some kext)
    (hmin : controlFree minimum = true) (hmax : controlFree maximum = true)
    (harch : controlFree arch = true) : kext.writable stack 3 = true ↔
      controlFree (PurePath.parse path).toText = true ∧
        ∀ info ∈ infoOf load t ocRoot path, info.ControlFree := by
  obtain ⟨info, hinfo, rfl⟩ := Option.map_eq_some_iff.1 h
  have hof : infoOf load t ocRoot path = some info := hinfo
  have hid := controlFree_getD (o := info.identifier) (d := txt "UNKNOWN") (by decide +kernel)
  have hversion := controlFree_getD (o := info.version) (d := txt "UNKNOWN") (by decide +kernel)
  have hexec := controlFree_getD (o := info.executable) controlFree_nil
  have hpath : controlFree (if info.executable.getD [] = [] then [] else
      txt "Contents/MacOS/" ++ info.executable.getD []) = controlFree (info.executable.getD []) := by
    split
    · next he => rw [he]
    · simp
  have hinfo' : (∀ info' ∈ some info, Info.ControlFree info') ↔ info.ControlFree := by simp
  rw [hof, hinfo']
  have hkext : (controlFree (PurePath.parse path).toText = true ∧
      (controlFree (info.identifier.getD (txt "UNKNOWN")) = true ∧
        controlFree (info.version.getD (txt "UNKNOWN")) = true) ∧
      controlFree (info.executable.getD []) = true) ↔
      controlFree (PurePath.parse path).toText = true ∧ info.ControlFree := by
    rw [hid, hversion, hexec]
    exact ⟨fun ⟨hp, ⟨hi, hv⟩, he⟩ => ⟨hp, hi, hv, he⟩, fun ⟨hp, hi, hv, he⟩ => ⟨hp, ⟨hi, hv⟩, he⟩⟩
  rw [← hkext]
  simp [hmin, hmax, harch, hpath]

theorem writable_readKextsWith {minimum maximum arch : Text} {paths : List Text}
    (h : paths.mapM (readKextWith load t ocRoot minimum maximum arch) = some kexts)
    (hmin : controlFree minimum = true) (hmax : controlFree maximum = true)
    (harch : controlFree arch = true) :
    (∀ kext ∈ kexts, kext.writable stack 3 = true) ↔ KextsFree load t ocRoot paths := by
  induction paths generalizing kexts with
  | nil =>
    obtain rfl : [] = kexts := by simpa using h
    exact iff_of_true (List.forall_mem_nil _) (List.forall_mem_nil _)
  | cons path paths ih =>
    rw [List.mapM_cons] at h
    obtain ⟨kext, hkext, h⟩ := Option.bind_eq_some_iff.1 h
    obtain ⟨rest, hrest, h⟩ := Option.bind_eq_some_iff.1 h
    obtain rfl := Option.some.inj h
    rw [List.forall_mem_cons, ih hrest, writable_readKextWith hkext hmin hmax harch, KextsFree,
      KextsFree, List.forall_mem_cons]

/-- Nothing stops the generator before the output is open. -/
structure Reaches (load : Bytes → Option Info) (t : Tree) (ocRoot : PurePath) (a : Args)
    (requested : Option Text) (opens : Bool) (sample : Plist) : Prop where
  opens : opens = true
  arch : resolveArch a.os requested ≠ none
  sections : HasSections sample
  kexts : ∀ path ∈ a.kexts, infoOf load t ocRoot path ≠ none

theorem isSome_mapM {α β : Type} {f : α → Option β} {l : List α} :
    (∃ l', l.mapM f = some l') ↔ ∀ x ∈ l, f x ≠ none := by
  induction l with
  | nil => exact iff_of_true ⟨[], rfl⟩ (List.forall_mem_nil _)
  | cons x l ih =>
    rw [List.forall_mem_cons, ← ih, List.mapM_cons]
    constructor
    · rintro ⟨l', h⟩
      obtain ⟨y, hy, h⟩ := Option.bind_eq_some_iff.1 h
      obtain ⟨ys, hys, -⟩ := Option.bind_eq_some_iff.1 h
      exact ⟨by rw [hy]; exact Option.some_ne_none y, ys, hys⟩
    · rintro ⟨hx, ys, hys⟩
      obtain ⟨y, hy⟩ := Option.ne_none_iff_exists'.1 hx
      exact ⟨y :: ys, by rw [hy, hys]; rfl⟩

theorem map_fst_assignmentsWith (a : Args) (kernelArch : Text) (kexts : List Plist) :
    (assignmentsWith a kernelArch kexts).map Prod.fst = writtenPaths a := by
  rw [assignmentsWith, List.map_map]
  exact map_fst_assignments a .i386 kexts

/-- Something is assigned below each of the sections. -/
theorem exists_writtenPath (sec : List String) (hsec : sec ∈ sections) :
    ∃ p ∈ writtenPaths a, sec <+: p := by
  obtain ⟨p, hp, hpre⟩ := Target.exists_below sec hsec
  refine ⟨p, ?_, hpre⟩
  unfold writtenPaths assignments
  simp only [List.map_append, map_fst_inSection, List.map_cons, List.map_nil, List.mem_append]
  simp only [List.mem_cons, List.not_mem_nil, or_false] at hp
  rcases hp with rfl | rfl | rfl | rfl | rfl | rfl | rfl | rfl | rfl | rfl | rfl | rfl | rfl | rfl
  all_goals simp [clearSamples, booterQuirks]

/-- The samples that can be filled in. -/
theorem exists_writesWith_iff : (∃ config, sample.writes (assignmentsWith a kernelArch kexts) =
    some config) ↔ HasSections sample := by
  have hleaf := isLeaf_assignmentsWith a kernelArch kexts
  constructor
  · rintro ⟨config, hw⟩ sec hsec
    obtain ⟨p, hp, hpre⟩ := exists_writtenPath (a := a) sec hsec
    rw [← map_fst_assignmentsWith a kernelArch kexts] at hp
    obtain ⟨w, hmem, rfl⟩ := List.mem_map.1 hp
    exact (hasDict_of_writes hw (fun w hw => (hleaf w hw).not_above_section hsec)
      ⟨w, hmem, hpre⟩).1
  · exact fun hs => exists_writes hs fun w hw =>
      ⟨(hleaf w hw).1, (hleaf w hw).ne_nil, fun _ hs => (hleaf w hw).not_above_section hs⟩

theorem written_revision (a : Args) (arch : KernelArch) (kexts : List Plist) :
    ∃ v, written (assignments a arch kexts) ["#Revision"] = some v := by
  unfold assignments
  exact ⟨_, by simp [written_append, written_cons, written_ite, written_inSection]; rfl⟩

/-- **The configuration can be written** just if everything that is copied can. -/
theorem writable_generated (hk : resolveArch a.os requested = some kernelArch)
    (hkexts : a.kexts.mapM (readKextWith load t ocRoot (kernelRange a.os).1 (kernelRange a.os).2
      (kextArch kernelArch)) = some kexts)
    (hw : sample.writes (assignmentsWith a kernelArch kexts) = some config) :
    config.writable stack 0 = true ↔ CopiesFree stack load t ocRoot a requested sample := by
  obtain ⟨hmin, hmax⟩ := controlFree_kernelRange a.os
  have hkext : controlFree kernelArch = true → controlFree (kextArch kernelArch) = true := by
    intro harch
    unfold kextArch
    split
    · decide +kernel
    · exact harch
  constructor
  · intro hwritable
    have hpaths : ∀ w ∈ assignmentsWith a kernelArch kexts, ∃ q ∈ writtenPaths a, q <+: w.1 ∧
        Assignable q := by
      intro w hw
      have hmem : w.1 ∈ writtenPaths a := by
        rw [← map_fst_assignmentsWith a kernelArch kexts]
        exact List.mem_map_of_mem hw
      exact ⟨w.1, hmem, List.prefix_rfl, assignable_writtenPaths a _ hmem⟩
    obtain ⟨hacpi, hadd, hdrivers, -⟩ := written_keys a .i386 kexts
    obtain ⟨v, hrev⟩ := written_revision a .i386 kexts
    have harch : controlFree kernelArch = true := by
      simpa using (writable_get hwritable (get_kernelArch hw)).2
    -- what is read back, apart from the values with the architecture
    have hvalue : ∀ {p : List String} {v : Plist}, IsLeaf p →
        written (assignments a .i386 kexts) p = some v → archValue a kernelArch p = none →
        v.writable stack p.length = true := by
      intro p v hp hv hnone
      have hget := get_generatedWith hw hp hv
      rw [hnone, Option.getD_none] at hget
      rw [← Nat.zero_add p.length]
      exact (writable_get hwritable hget).2
    have hrev' := (writable_get hwritable (get_generatedWith hw (by decide) hrev)).2
    simp [archValue] at hrev'
    refine ⟨writableBut_of_writes hw hpaths hwritable, (controlFree_resolveArch hk).1 harch,
      ?_, (writable_readKextsWith hkexts hmin hmax (hkext harch)).1
        (forall_mem_of_writable_array (hvalue (by decide) hadd rfl)), ?_, hrev'.1⟩
    · refine forall_of_writable_map (hvalue (by decide) hacpi rfl) fun path hentry => ?_
      simpa [acpiEntry] using hentry
    · refine forall_of_writable_map (hvalue (by decide) hdrivers rfl) fun driver hentry => ?_
      simpa [driverEntry] using hentry
  · intro hc
    have harch := (controlFree_resolveArch hk).2 hc.arch
    refine writable_of_writes hw ?_ (writes_assignmentsWith hc
      ((writable_readKextsWith hkexts hmin hmax (hkext harch)).2 hc.kexts) harch)
    rw [map_fst_assignmentsWith]
    exact hc.sample

/-- What a run that gets so far assigns. -/
theorem generateWith_eq_some : generateWith load t ocRoot a requested sample = some config ↔
    ∃ kernelArch kexts, resolveArch a.os requested = some kernelArch ∧
      a.kexts.mapM (readKextWith load t ocRoot (kernelRange a.os).1 (kernelRange a.os).2
        (kextArch kernelArch)) = some kexts ∧
      sample.writes (assignmentsWith a kernelArch kexts) = some config := by
  simp only [generateWith, Option.bind_eq_bind, Option.bind_eq_some_iff]
  constructor
  · rintro ⟨kernelArch, ha, kexts, hk, hw⟩
    exact ⟨kernelArch, kexts, ha, hk, hw⟩
  · rintro ⟨kernelArch, kexts, ha, hk, hw⟩
    exact ⟨kernelArch, ha, kexts, hk, hw⟩

/-- The kexts that can be read. -/
theorem exists_readKextsWith_iff {minimum maximum arch : Text} {paths : List Text} :
    (∃ kexts, paths.mapM (readKextWith load t ocRoot minimum maximum arch) = some kexts) ↔
      ∀ path ∈ paths, infoOf load t ocRoot path ≠ none := by
  rw [isSome_mapM]
  refine forall₂_congr fun path _ => not_congr ?_
  rw [readKextWith, Option.map_eq_none_iff]
  rfl

/-- **The first generator** is atomic just if a run that opens the output copies only what can be
written. -/
theorem runGenerate_atomic_iff {a : RawArgs} {env : Option PyText} {sample : Option Plist} :
    (∀ before, (runGenerate repr stack load t ocRoot a env opens sample before).Atomic before) ↔
      ∀ s ∈ sample, Reaches load t ocRoot a.args (a.requested env) opens s →
        a.CopiesFree stack load t ocRoot env s := by
  simp only [← copiesFree_args]
  constructor
  · -- where it reaches the output, a run that is atomic over no file has written all of it
    rintro h s rfl hr
    obtain ⟨kernelArch, hk⟩ := Option.ne_none_iff_exists'.1 hr.arch
    obtain ⟨kexts, hkexts⟩ := exists_readKextsWith_iff.2 hr.kexts
    obtain ⟨config, hw⟩ := exists_writesWith_iff.2 hr.sections
    have hg : generateWith load t ocRoot a.args (a.requested env) s = some config :=
      generateWith_eq_some.2 ⟨kernelArch, kexts, hk, hkexts, hw⟩
    have hatomic := h none
    rw [runGenerate, Option.bind_some, hg] at hatomic
    exact (writable_generated hk hkexts hw).1 (writable_of_atomic_overwrite hatomic hr.opens)
  · intro h before
    unfold runGenerate
    split
    · exact atomic_fails before
    · next config hconfig =>
      refine atomic_overwrite_of_writable before fun hopens => ?_
      obtain ⟨s, hs, hg⟩ := Option.bind_eq_some_iff.1 hconfig
      obtain ⟨kernelArch, kexts, hk, hkexts, hw⟩ := generateWith_eq_some.1 hg
      refine (writable_generated hk hkexts hw).2 (h s hs ⟨hopens, ?_,
        exists_writesWith_iff.1 ⟨config, hw⟩, exists_readKextsWith_iff.1 ⟨kexts, hkexts⟩⟩)
      rw [hk]
      exact Option.some_ne_none kernelArch

end Config

end InstallKit
