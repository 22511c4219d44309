import InstallKit.Config.Agreement
import InstallKit.Config.GenerateTarget

/-!
# What a configuration inherits from its sample

Both generators start from `Sample.plist`, so that keys they do not know keep the values of the
OpenCore release.  For one vector of arguments the same assignments go into every sample
(`generate_eq_some`, `Target.generate_eq_some`), and so two outputs are equal where something is
assigned and equal to their samples elsewhere (`samples_do_not_leak`).
-/

namespace InstallKit

namespace Config

open Sources

/-- The lists, variables and serial numbers of a sample that belong to another computer. -/
def foreignPaths : List (List String) :=
  [["ACPI", "Add"], ["ACPI", "Delete"], ["ACPI", "Patch"], ["DeviceProperties", "Add"],
    ["DeviceProperties", "Delete"], ["Kernel", "Add"], ["Kernel", "Block"], ["Kernel", "Force"],
    ["Kernel", "Patch"], ["Misc", "BlessOverride"], ["Misc", "Entries"], ["Misc", "Tools"],
    ["UEFI", "Drivers"], ["NVRAM", "Add"], ["NVRAM", "Delete"], ["PlatformInfo", "Generic", "MLB"],
    ["PlatformInfo", "Generic", "ROM"], ["PlatformInfo", "Generic", "SystemSerialNumber"],
    ["PlatformInfo", "Generic", "SystemUUID"]]

theorem map_fst_inSection (s : List String) (kvs : List (String × Plist)) :
    (inSection s kvs).map Prod.fst = (kvs.map Prod.fst).map fun k => s ++ [k] := by
  rw [inSection, List.map_map, List.map_map]
  rfl

/-- The paths that `generate_oc_config.py` assigns to. -/
def writtenPaths (a : Args) : List (List String) :=
  (assignments a .i386 []).map Prod.fst

theorem map_fst_assignments (a : Args) (arch : KernelArch) (kexts : List Plist) :
    (assignments a arch kexts).map Prod.fst = writtenPaths a := by
  unfold writtenPaths assignments
  simp only [inSection, List.map_append, List.map_cons, List.map_nil]

/-- The same assignments, to the given paths, make the outputs of the samples. -/
def SameWrites (ps : List (List String)) (s₁ s₂ o₁ o₂ : Plist) : Prop :=
  ∃ ws : List (List String × Plist), ws.map Prod.fst = ps ∧ s₁.writes ws = some o₁ ∧
    s₂.writes ws = some o₂

theorem SameWrites.inherits {ps : List (List String)} {s₁ s₂ o₁ o₂ : Plist}
    (h : SameWrites ps s₁ s₂ o₁ o₂) : Plist.Inherits ps s₁ s₂ o₁ o₂ := by
  obtain ⟨ws, rfl, h₁, h₂⟩ := h
  exact Plist.writes_inherit h₁ h₂

/-- The kexts of a configuration are those that are read below `--oc-root`. -/
def KextsRead (load : Bytes → Option Info) (t : Tree) (ocRoot : PurePath) (range : Text × Text)
    (arch : KernelArch) (paths : List Text) (config : Plist) : Prop :=
  ∃ kexts, paths.mapM (readKext load t ocRoot range.1 range.2 arch) = some kexts ∧
    config.get ["Kernel", "Add"] = some (.array kexts)

/-- What a successful run assigns. -/
theorem generate_eq_some {load : Bytes → Option Info} {t : Tree} {ocRoot : PurePath} {a : Args}
    {s o : Plist} :
    generate load t ocRoot a s = some o ↔ ∃ arch kexts,
      resolveKernelArch a.os a.kernelArch = some arch ∧
      a.kexts.mapM (readKext load t ocRoot (kernelRange a.os).1 (kernelRange a.os).2
        (kextArchFor arch)) = some kexts ∧ s.writes (assignments a arch kexts) = some o := by
  simp only [generate, Option.bind_eq_bind, Option.bind_eq_some_iff]
  constructor
  · rintro ⟨arch, ha, kexts, hk, hw⟩
    exact ⟨arch, kexts, ha, hk, hw⟩
  · rintro ⟨arch, kexts, ha, hk, hw⟩
    exact ⟨arch, ha, kexts, hk, hw⟩

namespace Target

/-- The paths that `generate_target_oc_config.py` assigns to. -/
def writtenPaths (a : Args) : List (List String) :=
  (assignments id a [] ((dropApic a).getD none) (a.kernelPatchesPlist.map fun _ => []) []).map
    Prod.fst

/-- The paths do not depend on the values. -/
theorem map_fst_assignments_eq {uuid : Text → Text} {a : Args} {rom : Bytes}
    {apic : Option (Bytes × ℤ)} {patches patches' : Option (List Plist)} {kexts : List Plist}
    (h : patches'.isSome = patches.isSome) :
    (assignments uuid a rom apic patches kexts).map Prod.fst =
      (assignments id a [] apic patches' []).map Prod.fst := by
  unfold assignments
  simp only [List.map_append, map_fst_inSection, List.map_cons, List.map_nil]
  cases patches with
  | none =>
    cases patches' with
    | none => rfl
    | some _ => cases h
  | some _ =>
    cases patches' with
    | none => cases h
    | some _ => simp only [List.map_cons, List.map_nil]
theorem map_fst_assignments {uuid : Text → Text} {a : Args} {rom : Bytes}
    {apic : Option (Bytes × ℤ)} {patches : Option (List Plist)} {kexts : List Plist}
    (hapic : dropApic a = some apic) (hpatches : patches.isSome = a.kernelPatchesPlist.isSome) :
    (assignments uuid a rom apic patches kexts).map Prod.fst = writtenPaths a := by
  have hasked : (a.kernelPatchesPlist.map fun _ => ([] : List Plist)).isSome = patches.isSome := by
    rw [Option.isSome_map, hpatches]
  rw [writtenPaths, hapic, Option.getD_some]
  exact map_fst_assignments_eq hasked

/-- There are patches when they are asked for. -/
theorem isSome_kernelPatches {pyStr : Plist → Option Text} {readPlist : Text → Option Plist}
    {a : Args} {patches : Option (List Plist)} (h : kernelPatches pyStr readPlist a = some patches) :
    patches.isSome = a.kernelPatchesPlist.isSome := by
  unfold kernelPatches at h
  split at h
  · rename_i hnone
    split at h
    · rw [← Option.some.inj h, hnone]
      rfl
    · cases h
  · rename_i path hpath
    obtain ⟨ps, -, rfl⟩ := Option.map_eq_some_iff.1 h
    rw [hpath]
    rfl

variable {h : Host} {a : Args} {s o : Plist}

/-- What a successful run assigns. -/
theorem generate_eq_some (hg : generate h a s = some o) : ∃ apic kexts patches rom,
    dropApic a = some apic ∧
    a.kexts.mapM (readKext h.load h.tree h.ocRoot (kernelRange a.os).1 (kernelRange a.os).2
      (kextArchFor a.kernelArch)) = some kexts ∧
    kernelPatches h.pyStr h.readPlist a = some patches ∧ romBytes a.romAscii = some rom ∧
    s.writes (assignments h.uuid a rom apic patches kexts) = some o := by
  simp only [generate, Option.bind_eq_bind, Option.bind_eq_some_iff] at hg
  obtain ⟨apic, hapic, hg⟩ := hg
  split at hg
  · cases hg
  · obtain ⟨kexts, hkexts, hg⟩ := Option.bind_eq_some_iff.1 hg
    obtain ⟨patches, hpatches, hg⟩ := Option.bind_eq_some_iff.1 hg
    obtain ⟨rom, hrom, hw⟩ := Option.bind_eq_some_iff.1 hg
    exact ⟨apic, kexts, patches, rom, hapic, hkexts, hpatches, hrom, hw⟩

/-- **The graphics cards** are the only assignments below another one, that of an empty
dictionary; what is assigned before and after them are leaves. -/
theorem assignments_eq (uuid : Text → Text) (a : Args) (rom : Bytes) (apic : Option (Bytes × ℤ))
    (patches : Option (List Plist)) (kexts : List Plist) : ∃ ws₁ ws₂,
    assignments uuid a rom apic patches kexts = ws₁ ++ (inSection ["DeviceProperties", "Add"]
      (a.blacklistGpuPciPath.map fun path => (String.ofList path, gpuBlacklistProperties)) ++ ws₂) ∧
    (∀ w ∈ ws₁, IsLeaf w.1) ∧
    Plist.written ws₁ ["DeviceProperties", "Add"] = some (.dict []) ∧
    (∀ w ∈ ws₂, IsLeaf w.1) ∧ ∀ w ∈ ws₂, w.1 ≠ ["DeviceProperties", "Add"] := by
  refine ⟨clearSamples ++ (inSection ["Booter", "Quirks"] (booterQuirks a) ++
    ([(["ACPI", "Add"], .array (a.acpi.map (acpiEntry a.targetName)))] ++
      apic.elim [] fun entry =>
        [(["ACPI", "Delete"], .array [apicEntry a.targetName entry.1 entry.2])])), ?_, ?_, ?_, ?_,
    ?_, ?_⟩
  rotate_left
  · unfold assignments
    simp only [List.append_assoc]
    cases apic <;> rfl
  · repeat' apply forall_mem_append_of
    · exact isLeaf_clearSamples
    · refine isLeaf_inSection (by decide) ?_
      cases hp : a.runtimeProfile <;> simp [booterQuirks, hp, sectionKeys]
    · exact isLeaf_single (by decide)
    · cases apic with
      | none => exact List.forall_mem_nil _
      | some entry => exact isLeaf_single (by decide)
  · cases apic <;>
      simp [Plist.written_append, Plist.written_cons, written_inSection, clearSamples]
  · repeat' apply forall_mem_append_of
    all_goals first
      | exact isLeaf_single (by decide)
      | exact isLeaf_inSection (by decide) (by simp [sectionKeys])
      | (split <;> first | exact isLeaf_single (by decide) | exact List.forall_mem_nil _)
  · -- a section other than the devices does not assign to them
    have hsection : ∀ {sec : List String} {kvs : List (String × Plist)}, sec ≠ ["DeviceProperties"] →
        ∀ w ∈ inSection sec kvs, w.1 ≠ ["DeviceProperties", "Add"] := by
      intro sec kvs hne w hw he
      obtain ⟨kv, -, rfl⟩ := List.mem_map.1 hw
      exact hne (List.append_inj_left' he rfl)
    repeat' apply forall_mem_append_of
    all_goals first
      | exact hsection (by decide)
      | (split <;> simp)
      | simp

/-- Every assignment is to a leaf or to a graphics card. -/
theorem isLeaf_or_device {uuid : Text → Text} {rom : Bytes} {apic : Option (Bytes × ℤ)}
    {patches : Option (List Plist)} {kexts : List Plist} :
    ∀ w ∈ assignments uuid a rom apic patches kexts,
      IsLeaf w.1 ∨ ∃ path, w.1 = ["DeviceProperties", "Add"] ++ [path] := by
  obtain ⟨ws₁, ws₂, heq, h₁, -, h₂, -⟩ := assignments_eq uuid a rom apic patches kexts
  rw [heq]
  refine forall_mem_append_of (fun w hw => Or.inl (h₁ w hw))
    (forall_mem_append_of (fun w hw => ?_) fun w hw => Or.inl (h₂ w hw))
  obtain ⟨kv, -, rfl⟩ := List.mem_map.1 hw
  exact Or.inr ⟨kv.1, rfl⟩

/-- A leaf reads as it was last written, if it is not the list of the graphics cards. -/
theorem get_generated {uuid : Text → Text} {rom : Bytes} {apic : Option (Bytes × ℤ)}
    {patches : Option (List Plist)} {kexts : List Plist} {p : List String} {v : Plist}
    (h : s.writes (assignments uuid a rom apic patches kexts) = some o) (hp : IsLeaf p)
    (hne : p ≠ ["DeviceProperties", "Add"])
    (hw : Plist.written (assignments uuid a rom apic patches kexts) p = some v) :
    o.get p = some v := by
  have hdevices : IsLeaf ["DeviceProperties", "Add"] := by decide
  refine Plist.get_of_written h (fun w hm => ?_) hw
  rcases isLeaf_or_device w hm with hleaf | ⟨path, hpath⟩
  · exact hleaf.eq_or_apart hp
  · rw [hpath]
    exact Or.inr (Plist.apart_append_left
      ((hdevices.eq_or_apart hp).resolve_left fun he => hne he.symm))

theorem written_kexts {uuid : Text → Text} {rom : Bytes} {apic : Option (Bytes × ℤ)}
    {patches : Option (List Plist)} {kexts : List Plist} :
    Plist.written (assignments uuid a rom apic patches kexts) ["Kernel", "Add"] =
      some (.array kexts) := by
  unfold assignments
  cases apic <;> cases patches <;>
    simp [Plist.written_append, Plist.written_cons, written_inSection, clearSamples]

/-! ### Samples that can be filled in -/

variable {uuid : Text → Text} {rom : Bytes} {apic : Option (Bytes × ℤ)}
  {patches : Option (List Plist)} {kexts : List Plist}

/-- A path below each of the sections. -/
theorem exists_below : ∀ sec ∈ sections, ∃ p ∈ [["ACPI", "Add"], ["DeviceProperties", "Add"],
    ["Booter", "Quirks"] ++ ["FixupAppleEfiImages"], ["Kernel", "Emulate"] ++ ["MinKernel"],
    ["Kernel", "Quirks"] ++ ["LegacyCommpage"], ["Kernel", "Scheme"] ++ ["KernelArch"],
    ["Misc", "Boot"] ++ ["Timeout"], ["Misc", "Debug"] ++ ["Target"],
    ["Misc", "Security"] ++ ["Vault"], ["NVRAM"] ++ ["Add"],
    ["PlatformInfo", "Generic"] ++ ["MLB"], ["UEFI", "Input"] ++ ["KeySupport"],
    ["UEFI", "Output"] ++ ["Resolution"], ["UEFI", "Quirks"] ++ ["ReleaseUsbOwnership"]],
    sec <+: p := by
  decide

/-- Something is assigned below each of the sections. -/
theorem exists_written_below (sec : List String) (hsec : sec ∈ sections) :
    ∃ w ∈ assignments uuid a rom apic patches kexts, sec <+: w.1 := by
  obtain ⟨p, hp, hpre⟩ := exists_below sec hsec
  suffices h : p ∈ (assignments uuid a rom apic patches kexts).map Prod.fst by
    obtain ⟨w, hw, rfl⟩ := List.mem_map.1 h
    exact ⟨w, hw, hpre⟩
  unfold assignments
  simp only [List.map_append, map_fst_inSection, List.map_cons, List.map_nil, List.mem_append]
  simp only [List.mem_cons, List.not_mem_nil, or_false] at hp
  rcases hp with rfl | rfl | rfl | rfl | rfl | rfl | rfl | rfl | rfl | rfl | rfl | rfl | rfl | rfl
  all_goals simp [clearSamples, booterQuirks]

/-- **The generator can fill in** the samples with all sections, and no others. -/
theorem exists_writes_iff :
    (∃ o, s.writes (assignments uuid a rom apic patches kexts) = some o) ↔ HasSections s := by
  have hdevices : IsLeaf ["DeviceProperties", "Add"] := by decide
  constructor
  · rintro ⟨o, ho⟩ sec hsec
    refine (Plist.hasDict_of_writes ho (fun w hw hpre => ?_) (exists_written_below sec hsec)).1
    rcases isLeaf_or_device w hw with hleaf | ⟨path, hpath⟩
    · exact hleaf.not_above_section hsec hpre
    · rw [hpath] at hpre
      exact hdevices.not_above_section hsec ((List.prefix_append _ _).trans hpre)
  · intro hs
    obtain ⟨ws₁, ws₂, heq, h₁, hempty, h₂, hne⟩ := assignments_eq uuid a rom apic patches kexts
    obtain ⟨d, hd⟩ := Plist.exists_writes hs fun w hw =>
      ⟨(h₁ w hw).1, (h₁ w hw).ne_nil, fun _ hs => (h₁ w hw).not_above_section hs⟩
    have hget : d.get ["DeviceProperties", "Add"] = some (.dict []) :=
      Plist.get_of_written hd (fun w hw => (h₁ w hw).eq_or_apart hdevices) hempty
    -- the graphics cards go into the dictionary that was just assigned
    have hdict : ∀ sec ∈ ["DeviceProperties", "Add"] :: sections, d.HasDict sec := by
      rintro sec (_ | ⟨_, hsec⟩)
      · exact ⟨[], hget⟩
      · exact (hs sec hsec).writes hd fun w hw => (h₁ w hw).not_above_section hsec
    have hrest : ∀ w ∈ inSection ["DeviceProperties", "Add"] (a.blacklistGpuPciPath.map
        fun path => (String.ofList path, gpuBlacklistProperties)) ++ ws₂,
        w.1.dropLast ∈ ["DeviceProperties", "Add"] :: sections ∧ w.1 ≠ [] ∧
          ∀ sec ∈ ["DeviceProperties", "Add"] :: sections, ¬ w.1 <+: sec := by
      refine forall_mem_append_of (fun w hw => ?_) fun w hw => ?_
      · obtain ⟨kv, -, rfl⟩ := List.mem_map.1 hw
        refine ⟨by rw [List.dropLast_concat]; exact List.mem_cons_self, by simp, ?_⟩
        rintro sec (_ | ⟨_, hsec⟩) hpre
        · exact absurd hpre.length_le (by simp)
        · exact hdevices.not_above_section hsec ((List.prefix_append _ _).trans hpre)
      · refine ⟨List.mem_cons_of_mem _ (h₂ w hw).1, (h₂ w hw).ne_nil, ?_⟩
        rintro sec (_ | ⟨_, hsec⟩) hpre
        · have hapart := ((h₂ w hw).eq_or_apart hdevices).resolve_left (hne w hw)
          exact (Plist.apart_iff.1 hapart).1 hpre
        · exact (h₂ w hw).not_above_section hsec hpre
    obtain ⟨o, ho⟩ := Plist.exists_writes hdict hrest
    exact ⟨o, by rw [heq]; exact Plist.writes_append_eq_some.2 ⟨d, hd, ho⟩⟩

/-- A graphics card that is to be hidden is. -/
theorem get_device (h : s.writes (assignments uuid a rom apic patches kexts) = some o)
    {path : Text} (hpath : path ∈ a.blacklistGpuPciPath) :
    o.get ["DeviceProperties", "Add", String.ofList path] = some gpuBlacklistProperties := by
  obtain ⟨ws₁, ws₂, heq, -, -, h₂, hne⟩ := assignments_eq uuid a rom apic patches kexts
  rw [heq] at h
  obtain ⟨d, -, h⟩ := Plist.writes_append_eq_some.1 h
  have hdevices : IsLeaf ["DeviceProperties", "Add"] := by decide
  have happart : ∀ w ∈ ws₂, Plist.apart w.1 (["DeviceProperties", "Add"] ++ [String.ofList path]) =
      true := by
    intro w hw
    have hw' := ((h₂ w hw).eq_or_apart hdevices).resolve_left (hne w hw)
    rw [Plist.apart_comm] at hw' ⊢
    exact Plist.apart_append_left hw'
  refine Plist.get_of_written h (forall_mem_append_of (fun w hw => ?_) fun w hw => ?_) ?_
  · obtain ⟨kv, -, rfl⟩ := List.mem_map.1 hw
    by_cases hkv : kv.1 = String.ofList path
    · exact Or.inl (by rw [hkv]; rfl)
    · exact Or.inr (Plist.apart_iff.2 ⟨fun hpre => hkv (by simpa using hpre),
        fun hpre => hkv (by simpa [eq_comm] using hpre)⟩)
  · exact Or.inr (happart w hw)
  · have hcards : Plist.written (inSection ["DeviceProperties", "Add"] (a.blacklistGpuPciPath.map
        fun path => (String.ofList path, gpuBlacklistProperties)))
        ["DeviceProperties", "Add", String.ofList path] = some gpuBlacklistProperties := by
      refine Plist.written_of_forall ⟨_, List.mem_map_of_mem (List.mem_map_of_mem hpath), rfl⟩ ?_
      intro w hw _
      obtain ⟨kv, hkv, rfl⟩ := List.mem_map.1 hw
      obtain ⟨path', -, rfl⟩ := List.mem_map.1 hkv
      rfl
    rw [Plist.written_append, hcards, Plist.written_eq_none fun w hw hp => ?_, Option.none_or]
    have hself := happart w hw
    rw [hp] at hself
    exact (Plist.apart_iff.1 hself).1 List.prefix_rfl

end Target

/-- What two runs with the same arguments make of two samples. -/
structure NoLeak (ps : List (List String)) (s₁ s₂ o₁ o₂ : Plist) : Prop where
  assigned : SameWrites ps s₁ s₂ o₁ o₂
  inherits : Plist.Inherits ps s₁ s₂ o₁ o₂
  /-- The lists and numbers of the other computer are assigned. -/
  foreign : ∀ p ∈ foreignPaths, p ∈ ps

/-- They are cleared, or replaced among the variables and the numbers. -/
theorem mem_foreignPaths : ∀ p ∈ foreignPaths, p ∈ clearSamples.map Prod.fst ∨
    p ∈ [["NVRAM"] ++ ["Add"], ["NVRAM"] ++ ["Delete"]] ∨
    p ∈ [["PlatformInfo", "Generic"] ++ ["MLB"], ["PlatformInfo", "Generic"] ++ ["ROM"],
      ["PlatformInfo", "Generic"] ++ ["SystemSerialNumber"],
      ["PlatformInfo", "Generic"] ++ ["SystemUUID"]] := by
  decide

theorem foreignPaths_subset (a : Args) : ∀ p ∈ foreignPaths, p ∈ writtenPaths a := by
  intro p hp
  unfold writtenPaths assignments
  simp only [List.map_append, map_fst_inSection, List.map_cons, List.map_nil, List.mem_append]
  rcases mem_foreignPaths p hp with h | h | h
  · simp only [h, true_or]
  · simp only [h, true_or, or_true]
  · simp only [List.mem_cons, List.not_mem_nil, or_false] at h
    rcases h with rfl | rfl | rfl | rfl <;> simp

theorem Target.foreignPaths_subset (a : Target.Args) :
    ∀ p ∈ foreignPaths, p ∈ Target.writtenPaths a := by
  intro p hp
  unfold Target.writtenPaths Target.assignments
  simp only [List.map_append, map_fst_inSection, List.map_cons, List.map_nil, List.mem_append]
  rcases mem_foreignPaths p hp with h | h | h
  · simp only [h, true_or]
  · simp only [h, true_or, or_true]
  · simp only [List.mem_cons, List.not_mem_nil, or_false] at h
    rcases h with rfl | rfl | rfl | rfl <;> simp

/-! ### Two runs -/

theorem generate_noLeak {load : Bytes → Option Info} {t : Tree} {ocRoot : PurePath} {a : Args}
    {s₁ s₂ o₁ o₂ : Plist} (h₁ : generate load t ocRoot a s₁ = some o₁)
    (h₂ : generate load t ocRoot a s₂ = some o₂) :
    NoLeak (writtenPaths a) s₁ s₂ o₁ o₂ ∧ ∃ arch, resolveKernelArch a.os a.kernelArch = some arch ∧
      KextsRead load t ocRoot (kernelRange a.os) (kextArchFor arch) a.kexts o₁ ∧
      KextsRead load t ocRoot (kernelRange a.os) (kextArchFor arch) a.kexts o₂ := by
  obtain ⟨arch, kexts, ha, hk, hw₁⟩ := generate_eq_some.1 h₁
  obtain ⟨arch', kexts', ha', hk', hw₂⟩ := generate_eq_some.1 h₂
  -- neither the architecture nor the kexts come from the sample
  obtain rfl : arch = arch' := Option.some.inj (ha.symm.trans ha')
  obtain rfl : kexts = kexts' := Option.some.inj (hk.symm.trans hk')
  have hsame : SameWrites (writtenPaths a) s₁ s₂ o₁ o₂ :=
    ⟨assignments a arch kexts, map_fst_assignments a arch kexts, hw₁, hw₂⟩
  have hkexts := (written_keys a arch kexts).2.1
  exact ⟨⟨hsame, hsame.inherits, foreignPaths_subset a⟩, arch, ha,
    ⟨kexts, hk, get_generated hw₁ (by decide) hkexts⟩,
    ⟨kexts, hk, get_generated hw₂ (by decide) hkexts⟩⟩

theorem Target.generate_noLeak {h : Target.Host} {a : Target.Args} {s₁ s₂ o₁ o₂ : Plist}
    (h₁ : Target.generate h a s₁ = some o₁) (h₂ : Target.generate h a s₂ = some o₂) :
    NoLeak (Target.writtenPaths a) s₁ s₂ o₁ o₂ ∧
      KextsRead h.load h.tree h.ocRoot (Target.kernelRange a.os) (kextArchFor a.kernelArch) a.kexts
        o₁ ∧
      KextsRead h.load h.tree h.ocRoot (Target.kernelRange a.os) (kextArchFor a.kernelArch) a.kexts
        o₂ := by
  obtain ⟨apic, kexts, patches, rom, ha, hk, hp, hr, hw₁⟩ := Target.generate_eq_some h₁
  obtain ⟨apic', kexts', patches', rom', ha', hk', hp', hr', hw₂⟩ := Target.generate_eq_some h₂
  obtain rfl : apic = apic' := Option.some.inj (ha.symm.trans ha')
  obtain rfl : kexts = kexts' := Option.some.inj (hk.symm.trans hk')
  obtain rfl : patches = patches' := Option.some.inj (hp.symm.trans hp')
  obtain rfl : rom = rom' := Option.some.inj (hr.symm.trans hr')
  have hsame : SameWrites (Target.writtenPaths a) s₁ s₂ o₁ o₂ :=
    ⟨Target.assignments h.uuid a rom apic patches kexts,
      Target.map_fst_assignments ha (Target.isSome_kernelPatches hp), hw₁, hw₂⟩
  exact ⟨⟨hsame, hsame.inherits, Target.foreignPaths_subset a⟩,
    ⟨kexts, hk, Target.get_generated hw₁ (by decide) (by decide) Target.written_kexts⟩,
    ⟨kexts, hk, Target.get_generated hw₂ (by decide) (by decide) Target.written_kexts⟩⟩

/-- **No leakage**: for both generators, two samples on which the same arguments succeed give
outputs that are equal at and below the assigned paths, which depend on the arguments only, and that
are their samples elsewhere.  An output is the dictionary before `plistlib.dump`, which writes `\r`
as `\n`, and it is a value: whether two keys share one object is not part of it. -/
theorem samples_do_not_leak :
    (∀ (load : Bytes → Option Info) (t : Tree) (ocRoot : PurePath) (a : Args)
      (s₁ s₂ o₁ o₂ : Plist), generate load t ocRoot a s₁ = some o₁ →
      generate load t ocRoot a s₂ = some o₂ →
      NoLeak (writtenPaths a) s₁ s₂ o₁ o₂ ∧
        ∃ arch, resolveKernelArch a.os a.kernelArch = some arch ∧
          KextsRead load t ocRoot (kernelRange a.os) (kextArchFor arch) a.kexts o₁ ∧
          KextsRead load t ocRoot (kernelRange a.os) (kextArchFor arch) a.kexts o₂) ∧
    ∀ (h : Target.Host) (a : Target.Args) (s₁ s₂ o₁ o₂ : Plist),
      Target.generate h a s₁ = some o₁ → Target.generate h a s₂ = some o₂ →
      NoLeak (Target.writtenPaths a) s₁ s₂ o₁ o₂ ∧
        KextsRead h.load h.tree h.ocRoot (Target.kernelRange a.os) (kextArchFor a.kernelArch)
          a.kexts o₁ ∧
        KextsRead h.load h.tree h.ocRoot (Target.kernelRange a.os) (kextArchFor a.kernelArch)
          a.kexts o₂ :=
  ⟨fun _ _ _ _ _ _ _ _ h₁ h₂ => generate_noLeak h₁ h₂,
    fun _ _ _ _ _ _ h₁ h₂ => Target.generate_noLeak h₁ h₂⟩

/-- A sample with a key of a later release, and with the serial number of another computer. -/
def laterSample : Plist :=
  .dict [("ACPI", .dict [("Add", .array [acpiEntry (txt "SSDT-1.aml")])]),
    ("Booter", .dict [("Quirks", .dict [])]), ("DeviceProperties", .dict []),
    ("Kernel", .dict [("Emulate", .dict []), ("Quirks", .dict []), ("Scheme", .dict [])]),
    ("Misc", .dict [("Boot", .dict []), ("Debug", .dict []), ("Security", .dict [])]),
    ("NVRAM", .dict []), ("PlatformInfo", .dict [("Generic", .dict [("MLB", .str (txt "M0"))])]),
    ("UEFI", .dict [("Input", .dict []), ("Output", .dict []), ("Quirks", .dict []),
      ("Unload", .array [])])]

theorem hasSections_laterSample : HasSections laterSample := by
  simp only [HasSections, sections, List.forall_mem_cons]
  and_intros
  all_goals first
    | exact ⟨_, rfl⟩
    | exact fun _ h => by cases h

/-- The arguments of a build of Snow Leopard. -/
def snowLeopardArgs : Args :=
  ⟨.snowleopard, .vanilla, .verbose, .legacy, none, [txt "OpenRuntime.efi"], [], [], false, []⟩

theorem exists_generate_snowLeopard {s : Plist} (hs : HasSections s) :
    ∃ o, generate (fun _ => none) emptyTree (.ofPlace []) snowLeopardArgs s = some o :=
  exists_generate hs rfl fun _ h => absurd h List.not_mem_nil

/-- The arguments of a build for another computer. -/
def Target.mavericksArgs : Target.Args where
  os := .mavericks
  targetName := txt "Target"
  smbios := txt "iMac11,2"
  romAscii := txt "TARGET"
  serial := txt "W00000000001"
  mlb := txt "W0000000000000001"
  uuidSeed := txt "aspire4310-legacy-macos"
  kernelArch := .x86_64
  kernelCache := .auto
  bootPreset := .verbose
  runtimeProfile := .legacy
  customKernel := false
  legacyCommpage := false
  provideCurrentCpuInfo := false
  releaseUsbOwnership := true
  setupVirtualMap := false
  forceExitBootServices := false
  drivers := [txt "OpenRuntime.efi"]
  kexts := []
  blacklistGpuPciPath := []
  kernelPatchesPlist := none
  amdCoreCount := none
  acpi := []
  extraBootArgs := []
  dropApicOemTableId := none
  dropApicTableLength := none
  ocVersion := []

/-- A computer without kexts and patches, where one seed is hashed. -/
def Target.seedHost : Target.Host where
  load _ := none
  tree := emptyTree
  ocRoot := .ofPlace []
  readPlist _ := none
  pyStr _ := some []
  uuid _ := txt "07B56AAD-C701-5F99-B372-D14D705237BC"

theorem Target.exists_generate_mavericks {s : Plist} (hs : HasSections s) :
    ∃ o, Target.generate seedHost mavericksArgs s = some o := by
  have hleaf : ∀ p ∈ (assignments seedHost.uuid mavericksArgs
      [0x54, 0x41, 0x52, 0x47, 0x45, 0x54] none none []).map Prod.fst, IsLeaf p := by
    decide +kernel
  have hrom : romBytes mavericksArgs.romAscii = some [0x54, 0x41, 0x52, 0x47, 0x45, 0x54] := by
    decide +kernel
  obtain ⟨o, ho⟩ := Plist.exists_writes hs fun w hw =>
    have hw' := hleaf w.1 (List.mem_map_of_mem hw)
    ⟨hw'.1, hw'.ne_nil, fun _ hs => hw'.not_above_section hs⟩
  refine ⟨o, ?_⟩
  unfold Target.generate
  rw [hrom]
  exact ho

/-- The key of the later release stays, the serial number does not. -/
theorem samples_do_not_leak_later :
    (∃ o₁ o₂, generate (fun _ => none) emptyTree (.ofPlace []) snowLeopardArgs sampleSections =
        some o₁ ∧
      generate (fun _ => none) emptyTree (.ofPlace []) snowLeopardArgs laterSample = some o₂ ∧
      o₁.get ["UEFI", "Unload"] = none ∧ o₂.get ["UEFI", "Unload"] = some (.array []) ∧
      o₁.get ["PlatformInfo", "Generic", "MLB"] = o₂.get ["PlatformInfo", "Generic", "MLB"]) ∧
    ∃ o₁ o₂, Target.generate Target.seedHost Target.mavericksArgs sampleSections = some o₁ ∧
      Target.generate Target.seedHost Target.mavericksArgs laterSample = some o₂ ∧
      o₁.get ["UEFI", "Unload"] = none ∧ o₂.get ["UEFI", "Unload"] = some (.array []) ∧
      o₁.get ["PlatformInfo", "Generic", "MLB"] = o₂.get ["PlatformInfo", "Generic", "MLB"] := by
  constructor
  · obtain ⟨o₁, h₁⟩ := exists_generate_snowLeopard hasSections_sample
    obtain ⟨o₂, h₂⟩ := exists_generate_snowLeopard hasSections_laterSample
    obtain ⟨⟨-, hinherits, hforeign⟩, -⟩ := samples_do_not_leak.1 _ _ _ _ _ _ _ _ h₁ h₂
    obtain ⟨hsame₁, hsame₂⟩ := hinherits.same ["UEFI", "Unload"] (by decide +kernel)
    exact ⟨o₁, o₂, h₁, h₂, hsame₁.trans rfl, hsame₂.trans rfl,
      hinherits.equal _ ⟨_, hforeign _ (by decide), List.prefix_rfl⟩⟩
  · obtain ⟨o₁, h₁⟩ := Target.exists_generate_mavericks hasSections_sample
    obtain ⟨o₂, h₂⟩ := Target.exists_generate_mavericks hasSections_laterSample
    obtain ⟨⟨-, hinherits, hforeign⟩, -⟩ := samples_do_not_leak.2 _ _ _ _ _ _ h₁ h₂
    obtain ⟨hsame₁, hsame₂⟩ := hinherits.same ["UEFI", "Unload"] (by decide +kernel)
    exact ⟨o₁, o₂, h₁, h₂, hsame₁.trans rfl, hsame₂.trans rfl,
      hinherits.equal _ ⟨_, hforeign _ (by decide), List.prefix_rfl⟩⟩

end Config

end InstallKit
