import InstallKit.Config.AtomicTarget

/-!
# The configuration writers

`patch_asus_1215p_oc_config.py` opens its input for writing, once the patched configuration has
passed its own checks; `configure_xnu_qemu_esp.py` dumps into a temporary file and replaces its
input.  Of the four programs only this one never leaves a damaged file: the others do when
something that they copy cannot be written (`writers_atomic_iff`).
-/

namespace InstallKit

namespace Config

open Sources Plist

namespace Asus

/-! ### `patch_asus_1215p_oc_config.py` -/

/-- `main`.  Its output is its input. -/
def run (repr : UInt64 → Text) (stack : Stack) (load : Bytes → Option Plist) (check opens : Bool)
    (before : Option Bytes) : Outcome :=
  match before.bind load with
  | none => fails before
  | some config =>
    if check then ⟨validate config, before⟩
    else
      match patch config with
      | none => fails before
      | some config =>
        if validate config then overwrite repr stack opens config before else fails before

/-- The dictionaries that are assigned into. -/
def dicts : List (List String) :=
  [[], ["DeviceProperties", "Add"], ["Kernel"], ["Kernel", "Scheme"], ["NVRAM", "Add", appleNvram],
    ["PlatformInfo", "Generic"], ["UEFI"]]

/-- Nothing stops the program before its input is open for writing. -/
structure Reaches (opens : Bool) (config : Plist) : Prop where
  opens : opens = true
  dicts : ∀ s ∈ dicts, config.HasDict s
  patches : ∃ patches entries, config.get ["Kernel", "Patch"] = some patches ∧
    iterate patches = some entries ∧ ∀ entry ∈ entries, isCursorPatch entry ≠ none
  words : bootWords (config.get bootArgsPath) ≠ none
  drivers : ∃ drivers, config.get ["UEFI", "Drivers"] = some drivers ∧ renameComments drivers ≠ none

/-- What the program keeps can be written. -/
structure KeepsFree (stack : Stack) (config : Plist) : Prop where
  kept : config.writableBut stack 0 touched = true
  patches : ∀ patches entries, config.get ["Kernel", "Patch"] = some patches →
    iterate patches = some entries → ∀ entry ∈ entries, isCursorPatch entry = some false →
      entry.writable stack 3 = true
  words : ∀ words, bootWords (config.get bootArgsPath) = some words →
    ∀ w ∈ words, controlFree w = true
  drivers : ∀ drivers, config.get ["UEFI", "Drivers"] = some drivers →
    drivers.writable stack 2 = true

variable {repr : UInt64 → Text} {stack : Stack} {load : Bytes → Option Plist} {check opens : Bool}
  {config config' : Plist} {level : ℕ}

/-- Another name in the comment changes nothing. -/
theorem writable_renameComment {driver driver' : Plist} (h : renameComment driver = some driver') :
    driver'.writable stack level = driver.writable stack level := by
  rcases sameButComment_of_rename h with rfl | ⟨kvs, s, rfl, hs, rfl⟩
  · rfl
  · have hne : oldName ≠ [] := by simp [oldName, txt]
    have hold : controlFree oldName = true := by simp [oldName]
    have hnew : controlFree newName = true := by simp [newName]
    have hs' : controlFree (Text.replaceAll oldName newName s) = controlFree s :=
      Text.all_replaceAll hne hold hnew s
    rw [writable, writable, itemsWritable_dictInsert hs (by rw [writable, writable, hs'])]

theorem writable_renameComments {drivers drivers' : Plist}
    (h : renameComments drivers = some drivers') :
    drivers'.writable stack level = true ↔ drivers.writable stack level = true := by
  unfold renameComments at h
  split at h
  · obtain ⟨ys, hys, rfl⟩ := Option.map_eq_some_iff.1 h
    rw [writable, writable, Bool.and_eq_true, Bool.and_eq_true, allWritable_iff, allWritable_iff,
      Target.forall_mem_of_mapM (fun _ _ => writable_renameComment) hys]
  · obtain ⟨xs, -, h⟩ := Option.bind_eq_some_iff.1 h
    obtain ⟨ys, -, h⟩ := Option.bind_eq_some_iff.1 h
    rw [Option.some.inj h]

theorem assignable_touched : ∀ p ∈ touched, Assignable p := by decide +kernel

theorem controlFree_archLast (words : List Text) :
    controlFree (unwords (archLast words)) = true ↔ ∀ w ∈ words, controlFree w = true := by
  have harch : controlFree archWord = true := by simp [archWord]
  rw [unwords, Target.controlFree_intercalate, archLast, List.forall_mem_append]
  constructor
  · rintro ⟨h, -⟩ w hw
    by_cases he : w = archWord
    · rw [he, harch]
    · exact h w (List.mem_filter.2 ⟨hw, by simpa using he⟩)
  · exact fun h => ⟨fun w hw => h w (List.mem_of_mem_filter hw), List.forall_mem_singleton.2 harch⟩

/-- The program assigns only what can be written. -/
theorem writes_assignments {others : List Plist} {words : List Text} {drivers : Plist}
    (hothers : ∀ entry ∈ others, entry.writable stack 3 = true)
    (hwords : ∀ w ∈ words, controlFree w = true) (hdrivers : drivers.writable stack 2 = true) :
    ∀ w ∈ assignments others words drivers, Writes stack w := by
  intro w hw
  refine ⟨assignable_touched _ (List.mem_map_of_mem hw), ?_⟩
  have hpatches : allWritable stack 3 (others ++ [cursorPatch]) = true := by
    rw [allWritable_iff, List.forall_mem_append]
    exact ⟨hothers, List.forall_mem_singleton.2 (by
      simp [cursorPatch, cursorComment, cursorIdentifier, writable])⟩
  have hargs := (controlFree_archLast words).2 hwords
  have hgpu : gpuProperties.writable stack 3 = true := by simp [gpuProperties, writable]
  have hrevision : controlFree revision = true := by simp [revision]
  revert w
  simp only [assignments, List.forall_mem_cons]
  simp [hpatches, hargs, hgpu, hrevision, hdrivers, bootArgsPath]

/-- **The patched configuration can be written** just if what is kept can. -/
theorem writable_patch (h : patch config = some config') :
    config'.writable stack 0 = true ↔ KeepsFree stack config := by
  obtain ⟨patches, entries, others, words, drivers, drivers', hp, he, ho, hw, hd, hd', hwrites⟩ :=
    patch_eq_some.1 h
  obtain ⟨-, rfl⟩ := otherPatches_eq_some.1 ho
  have hothers : ∀ entry, entry ∈ entries.filter (fun entry => isCursorPatch entry = some false) ↔
      entry ∈ entries ∧ isCursorPatch entry = some false := by
    simp
  constructor
  · intro hwritable
    -- what is read back from the configuration
    have hvalue : ∀ w ∈ assignments (entries.filter fun entry => isCursorPatch entry = some false)
        words drivers', w.2.writable stack w.1.length = true := by
      intro w hw
      rw [← Nat.zero_add w.1.length]
      exact (writable_get hwritable (get_patched hwrites w hw)).2
    simp only [assignments, List.forall_mem_cons] at hvalue
    obtain ⟨-, hpatches, -, -, -, hboot, -, -, -, -, -, hdrivers, -⟩ := hvalue
    refine ⟨writableBut_of_writes hwrites (fun w hw => ?_) hwritable, ?_, ?_, ?_⟩
    · have hmem : w.1 ∈ touched := List.mem_map_of_mem hw
      exact ⟨w.1, hmem, List.prefix_rfl, assignable_touched _ hmem⟩
    · rintro patches' entries' hp' he' entry hentry hcursor
      obtain rfl := Option.some.inj (hp'.symm.trans hp)
      obtain rfl := Option.some.inj (he'.symm.trans he)
      have hall := forall_mem_of_writable_array hpatches
      rw [List.forall_mem_append] at hall
      exact hall.1 entry ((hothers entry).2 ⟨hentry, hcursor⟩)
    · rintro words' hw'
      obtain rfl := Option.some.inj (hw'.symm.trans hw)
      exact (controlFree_archLast words').1 (by simpa [bootArgsPath] using hboot)
    · rintro drivers₁ hd₁
      obtain rfl := Option.some.inj (hd₁.symm.trans hd)
      exact (writable_renameComments hd').1 hdrivers
  · intro hk
    refine writable_of_writes hwrites hk.kept (writes_assignments (fun entry hentry => ?_)
      (hk.words words hw) ((writable_renameComments hd').2 (hk.drivers drivers hd)))
    obtain ⟨hmem, hcursor⟩ := (hothers entry).1 hentry
    exact hk.patches patches entries hp he entry hmem hcursor

/-- The configurations that can be patched. -/
theorem exists_patch_iff : (∃ config', patch config = some config') ↔ Reaches true config := by
  have hplaces : ∀ p ∈ touched, p.dropLast ∈ dicts ∧ p ≠ [] ∧ ∀ s ∈ dicts, ¬ p <+: s := by decide
  have habove : ∀ s ∈ dicts, ∃ p ∈ touched, s <+: p := by decide
  constructor
  · rintro ⟨config', h⟩
    obtain ⟨patches, entries, others, words, drivers, drivers', hp, he, ho, hw, hd, hd', hwrites⟩ :=
      patch_eq_some.1 h
    refine ⟨rfl, fun s hs => ?_, ⟨patches, entries, hp, he, (otherPatches_eq_some.1 ho).1⟩, ?_,
      ⟨drivers, hd, ?_⟩⟩
    · obtain ⟨p, hmem, hpre⟩ := habove s hs
      rw [← map_fst_assignments others words drivers'] at hmem
      obtain ⟨w, hw₁, rfl⟩ := List.mem_map.1 hmem
      exact (hasDict_of_writes hwrites
        (fun w hw => (hplaces w.1 (List.mem_map_of_mem hw)).2.2 s hs) ⟨w, hw₁, hpre⟩).1
    · rw [hw]
      exact Option.some_ne_none words
    · rw [hd']
      exact Option.some_ne_none drivers'
  · rintro ⟨-, hdicts, ⟨patches, entries, hp, he, hall⟩, hwords, drivers, hd, hdrivers⟩
    obtain ⟨words, hw⟩ := Option.ne_none_iff_exists'.1 hwords
    obtain ⟨drivers', hd'⟩ := Option.ne_none_iff_exists'.1 hdrivers
    obtain ⟨config', hwrites⟩ : ∃ config', config.writes (assignments _ words drivers') =
        some config' :=
      exists_writes hdicts fun w hw => hplaces w.1 (List.mem_map_of_mem hw)
    exact ⟨config', patch_eq_some.2 ⟨patches, entries, _, words, drivers, drivers', hp, he,
      otherPatches_eq_some.2 ⟨hall, rfl⟩, hw, hd, hd', hwrites⟩⟩

/-- **The third writer** is atomic just if a run that opens the file keeps only what can be written.
A file that was not finished cannot be loaded, so it is not the one that was there before. -/
theorem run_atomic_iff {before : Option Bytes}
    (hload : ∀ d, (dump repr stack d).raised = true →
      load (encodeUtf8 (dump repr stack d).text) = none) :
    (run repr stack load check opens before).Atomic before ↔
      ∀ config ∈ before.bind load, check = false → Reaches opens config →
        KeepsFree stack config := by
  cases hl : before.bind load with
  | none =>
    have hrun : run repr stack load check opens before = fails before := by simp [run, hl]
    rw [hrun]
    exact iff_of_true (atomic_fails before) fun _ h => by cases h
  | some config =>
    cases check with
    | true =>
      have hrun : run repr stack load true opens before = ⟨validate config, before⟩ := by simp [run, hl]
      rw [hrun]
      exact iff_of_true (fun _ => rfl) fun _ _ h => by cases h
    | false =>
      have hopen : opens = true → (Reaches opens config ↔ ∃ config', patch config = some config') := by
        rintro rfl
        exact exists_patch_iff.symm
      cases hp : patch config with
      | none =>
        have hrun : run repr stack load false opens before = fails before := by simp [run, hl, hp]
        rw [hrun]
        refine iff_of_true (atomic_fails before) ?_
        rintro config' h - hr
        obtain rfl := Option.some.inj h
        obtain ⟨config', hp'⟩ := (hopen hr.opens).1 hr
        rw [hp] at hp'
        cases hp'
      | some config' =>
        have hrun : run repr stack load false opens before =
            overwrite repr stack opens config' before := by
          simp [run, hl, hp, validate_patched hp]
        rw [hrun]
        constructor
        · rintro h config₁ h₁ - hr
          obtain rfl := Option.some.inj h₁
          refine (writable_patch hp).1 ?_
          by_contra hno
          rw [Bool.not_eq_true] at hno
          have hraised : (dump repr stack config').raised = true := by
            rw [raised_dump, hno, Bool.not_false]
          -- the file would be the unfinished one
          have hout : some (encodeUtf8 (dump repr stack config').text) = before := by
            simpa [overwrite, hr.opens, hraised, Outcome.Atomic] using h
          rw [← hout, Option.bind_some, hload config' hraised] at hl
          cases hl
        · intro h
          refine atomic_overwrite_of_writable before fun hopens => ?_
          exact (writable_patch hp).2 (h config rfl rfl ((hopen hopens).2 ⟨config', hp⟩))

end Asus

/-! ### `configure_xnu_qemu_esp.py` -/

/-- `main`.  Its output is its input; `replaces` says that the temporary file could be made and put
in place.  The message at the end goes to a standard output that takes every text. -/
def runConfigure (repr : UInt64 → Text) (stack : Stack) (load : Bytes → Option Plist)
    (replaces : Bool) (resolution : PyText) (before : Option Bytes) : Outcome :=
  match (before.bind load).bind (configure resolution.escaped) with
  | none => fails before
  | some config =>
    let written := dump repr stack config
    -- an exception in the block removes the temporary file
    if written.raised || !replaces then fails before
    else ⟨true, some (encodeUtf8 written.text)⟩

theorem runConfigure_atomic (repr : UInt64 → Text) (stack : Stack) (load : Bytes → Option Plist)
    (replaces : Bool) (resolution : PyText) (before : Option Bytes) :
    (runConfigure repr stack load replaces resolution before).Atomic before := by
  unfold runConfigure
  split
  · exact atomic_fails before
  · dsimp only
    split
    · exact atomic_fails before
    · intro hfail
      cases hfail

/-! ### The four programs -/

/-- An empty property list. -/
def emptyPlist : Text := txt "<plist version=\"1.0\"><dict/></plist>"

/-- A reader that has seen no other file. -/
def loadEmpty (b : Bytes) : Option Plist := if b = encodeUtf8 emptyPlist then some (.dict []) else none

theorem loadEmpty_unfinished (repr : UInt64 → Text) (stack : Stack) (d : Plist) :
    loadEmpty (encodeUtf8 (dump repr stack d).text) = none := by
  obtain ⟨rest, hrest⟩ : ∃ rest, (dump repr stack d).text = header ++ rest := ⟨_, rfl⟩
  refine if_neg fun he => ?_
  -- the dump begins with a declaration
  have hsecond := congrArg (·[1]?) he
  have hlength : 1 < (encodeUtf8 header).length := by decide +kernel
  have hheader : (encodeUtf8 header)[1]? = some 0x3f := by decide +kernel
  have hempty : (encodeUtf8 emptyPlist)[1]? = some 0x70 := by decide +kernel
  have happend : encodeUtf8 (header ++ rest) = encodeUtf8 header ++ encodeUtf8 rest :=
    List.flatMap_append
  simp only [hrest, happend, List.getElem?_append_left hlength, hheader, hempty] at hsecond
  cases hsecond

/-- The arguments of a build of Snow Leopard, as Python has them. -/
def rawSnowLeopard (driver : PyText) : RawArgs :=
  ⟨.snowleopard, .vanilla, .verbose, .legacy, none, [driver], [], [], false, []⟩

theorem copiesFree_snowLeopard : (rawSnowLeopard (.ofText (txt "OpenRuntime.efi"))).CopiesFree .usual
    (fun _ => none) emptyTree (.ofPlace []) none sampleSections where
  sample := by decide +kernel
  arch _ h := by cases h
  acpi := List.forall_mem_nil _
  kexts := List.forall_mem_nil _
  drivers := List.forall_mem_singleton.2 (by decide +kernel)
  ocVersion := rfl

/-- A build over an old configuration, with this driver. -/
def overOld (driver : PyText) : Outcome :=
  runGenerate (fun _ => []) .usual (fun _ => none) emptyTree (.ofPlace []) (rawSnowLeopard driver) none
    true (some sampleSections) (some (encodeUtf8 emptyPlist))

end Config

end InstallKit
