import InstallKit.Config.Validate

/-!
# What the validator reads in a generated configuration

`readConfig_generate` reads the keys of a generated configuration back: the validator sees what the
arguments say, whatever the sample was.  For Leopard its boot rules then accept two combinations of
`--runtime-profile` and drivers, and no other (`generated_leopard_iff`).
-/

namespace InstallKit

namespace Config

open Sources

variable {load : Bytes → Option Info} {t : Tree} {ocRoot : PurePath} {a : Args} {arch : KernelArch}
  {sample config : Plist} {kexts : List Plist}

/-! ### The values of the keys -/

theorem written_keys (a : Args) (arch : KernelArch) (kexts : List Plist) :
    Plist.written (assignments a arch kexts) ["ACPI", "Add"] =
      some (.array (a.acpi.map acpiEntry)) ∧
    Plist.written (assignments a arch kexts) ["Kernel", "Add"] = some (.array kexts) ∧
    Plist.written (assignments a arch kexts) ["UEFI", "Drivers"] =
      some (.array (a.drivers.map driverEntry)) ∧
    Plist.written (assignments a arch kexts) ["Misc", "Tools"] = some (.array []) ∧
    Plist.written (assignments a arch kexts) ["UEFI", "Input", "KeySupport"] = some (.bool true) ∧
    Plist.written (assignments a arch kexts) ["UEFI", "Input", "KeySupportMode"] =
      some (.str (txt "V1")) ∧
    Plist.written (assignments a arch kexts) ["Kernel", "Scheme", "CustomKernel"] =
      some (.bool (a.kernel = .custom)) ∧
    Plist.written (assignments a arch kexts) ["Kernel", "Scheme", "KernelArch"] =
      some (.str arch.text) ∧
    Plist.written (assignments a arch kexts) ["UEFI", "Quirks", "RequestBootVarRouting"] =
      some (.bool false) ∧
    Plist.written (assignments a arch kexts) ["Kernel", "Emulate", "MinKernel"] =
      some (.str (kernelRange a.os).1) := by
  unfold assignments
  simp [Plist.written_append, Plist.written_cons, Plist.written_ite, written_inSection,
    clearSamples]

/-- The three profiles assign these four quirks. -/
theorem written_booter (a : Args) (arch : KernelArch) (kexts : List Plist) :
    Plist.written (assignments a arch kexts) ["Booter", "Quirks", "SetupVirtualMap"] =
      some (.bool false) ∧
    Plist.written (assignments a arch kexts) ["Booter", "Quirks", "RebuildAppleMemoryMap"] =
      some (.bool (a.runtimeProfile = .modern)) ∧
    Plist.written (assignments a arch kexts) ["Booter", "Quirks", "SyncRuntimePermissions"] =
      some (.bool (a.runtimeProfile = .modern)) ∧
    Plist.written (assignments a arch kexts) ["Booter", "Quirks", "EnableWriteUnprotector"] =
      some (.bool (a.runtimeProfile = .legacy)) := by
  unfold assignments
  cases a.runtimeProfile <;>
    simp [Plist.written_append, Plist.written_cons, Plist.written_ite, written_inSection,
      booterQuirks, clearSamples]

theorem written_nvram (a : Args) (arch : KernelArch) (kexts : List Plist) :
    ∃ d, Plist.written (assignments a arch kexts) ["NVRAM", "Add"] = some d ∧
      d.get [appleNvram, "boot-args"] = some (.str (bootArgsFor a.os a.bootPreset arch)) := by
  unfold assignments
  refine ⟨_, by simp [Plist.written_append, Plist.written_cons, Plist.written_ite,
    written_inSection]; rfl, rfl⟩

/-- A leaf reads as it was last written. -/
theorem get_generated {p : List String} {v : Plist}
    (h : sample.writes (assignments a arch kexts) = some config) (hp : IsLeaf p)
    (hw : Plist.written (assignments a arch kexts) p = some v) : config.get p = some v :=
  Plist.get_of_written h (fun w hm => (isLeaf_assignments a arch kexts w hm).eq_or_apart hp) hw

/-! ### The entries -/

/-- What the validator reads of a generated kext. -/
structure ReadsAs (load : Bytes → Option Info) (t : Tree) (ocRoot : PurePath) (path : Text)
    (e : KextEntry) : Prop where
  enabled : e.enabled = true
  bundlePath : e.bundlePath = (PurePath.parse path).toText
  plistPath : e.plistPath = txt "Contents/Info.plist"
  executablePath : ∃ info, loadInfo load t (((bundleOf ocRoot path).join
      (component "Contents")).join (component "Info.plist")) = some info ∧
    e.executablePath = if info.executable.getD [] = [] then []
      else txt "Contents/MacOS/" ++ info.executable.getD []

/-- Every kext of the arguments is read back. -/
theorem readKextEntries {minimum maximum : Text} {paths : List Text} {kexts : List Plist}
    (h : paths.mapM (readKext load t ocRoot minimum maximum arch) = some kexts) :
    ∃ es, kexts.mapM readKextEntry = some es ∧ List.Forall₂ (ReadsAs load t ocRoot) paths es := by
  induction paths generalizing kexts with
  | nil =>
    obtain rfl : [] = kexts := by simpa using h
    exact ⟨[], rfl, .nil⟩
  | cons path paths ih =>
    rw [List.mapM_cons] at h
    simp only [Option.bind_eq_bind, Option.bind_eq_some_iff, Option.pure_def, Option.some.injEq] at h
    obtain ⟨kext, hk, rest, hrest, rfl⟩ := h
    obtain ⟨es, hes, hforall⟩ := ih hrest
    obtain ⟨info, hi, rfl⟩ := Option.map_eq_some_iff.1 hk
    rw [List.mapM_cons, hes]
    exact ⟨_, rfl, .cons ⟨rfl, rfl, rfl, info, hi, rfl⟩ hforall⟩

theorem mapM_readPathEntry {entry : Text → Plist} (paths : List Text)
    (h : ∀ path, readPathEntry (entry path) = some ⟨true, path⟩) :
    (paths.map entry).mapM readPathEntry = some (paths.map (⟨true, ·⟩)) := by
  induction paths with
  | nil => rfl
  | cons path paths ih => simp [List.mapM_cons, h, ih]

/-- The configuration that the arguments describe. -/
def Args.ocConfig (a : Args) (arch : KernelArch) (es : List KextEntry) : OcConfig where
  acpi := a.acpi.map (⟨true, ·⟩)
  kexts := es
  drivers := a.drivers.map (⟨true, ·⟩)
  tools := []
  keySupport := true
  keySupportMode := txt "V1"
  customKernel := a.kernel = .custom
  kernelArch := arch.text
  setupVirtualMap := false
  rebuildAppleMemoryMap := a.runtimeProfile = .modern
  syncRuntimePermissions := a.runtimeProfile = .modern
  enableWriteUnprotector := a.runtimeProfile = .legacy
  requestBootVarRouting := false
  minKernel := (kernelRange a.os).1
  bootArgs := bootArgsFor a.os a.bootPreset arch

/-- **Reading a generated configuration back.** -/
theorem readConfig_generate (h : generate load t ocRoot a sample = some config) :
    ∃ arch es, resolveKernelArch a.os a.kernelArch = some arch ∧
      List.Forall₂ (ReadsAs load t ocRoot) a.kexts es ∧
      readConfig config = some (a.ocConfig arch es) := by
  simp only [generate, Option.bind_eq_bind, Option.bind_eq_some_iff] at h
  obtain ⟨arch, harch, kexts, hkexts, hw⟩ := h
  obtain ⟨es, hes, hforall⟩ := readKextEntries hkexts
  refine ⟨arch, es, harch, hforall, ?_⟩
  obtain ⟨h₁, h₂, h₃, h₄, h₅, h₆, h₇, h₈, h₉, h₁₀⟩ := written_keys a arch kexts
  obtain ⟨h₁₁, h₁₂, h₁₃, h₁₄⟩ := written_booter a arch kexts
  obtain ⟨d, h₁₅, hd⟩ := written_nvram a arch kexts
  have hargs : config.get ["NVRAM", "Add", appleNvram, "boot-args"] =
      some (.str (bootArgsFor a.os a.bootPreset arch)) := by
    have hsplit := config.get_append ["NVRAM", "Add"] [appleNvram, "boot-args"]
    rw [get_generated hw (by decide) h₁₅, Option.bind_some, hd] at hsplit
    exact hsplit
  -- the quirks are a dictionary, as one of them is read
  obtain ⟨quirks, hquirks⟩ : ∃ q, config.get ["Booter", "Quirks"] = some q := by
    have hsplit := config.get_append ["Booter", "Quirks"] ["SetupVirtualMap"]
    rw [List.cons_append, List.cons_append, List.nil_append,
      get_generated hw (by decide) h₁₁] at hsplit
    cases hq : config.get ["Booter", "Quirks"] with
    | none => rw [hq] at hsplit; cases hsplit
    | some q => exact ⟨q, rfl⟩
  have hacpi : (a.acpi.map acpiEntry).mapM readPathEntry = some (a.acpi.map (⟨true, ·⟩)) :=
    mapM_readPathEntry _ fun _ => rfl
  have hdrivers : (a.drivers.map driverEntry).mapM readPathEntry =
      some (a.drivers.map (⟨true, ·⟩)) := mapM_readPathEntry _ fun _ => rfl
  simp [readConfig, getItems, items, getBool, getStr, hargs, hquirks, get_generated hw (by decide) h₁,
    get_generated hw (by decide) h₂, get_generated hw (by decide) h₃,
    get_generated hw (by decide) h₄, get_generated hw (by decide) h₅,
    get_generated hw (by decide) h₆, get_generated hw (by decide) h₇,
    get_generated hw (by decide) h₈, get_generated hw (by decide) h₉,
    get_generated hw (by decide) h₁₀, get_generated hw (by decide) h₁₁,
    get_generated hw (by decide) h₁₂, get_generated hw (by decide) h₁₃,
    get_generated hw (by decide) h₁₄, hacpi, hdrivers, hes, truthy, Args.ocConfig]

/-! ### Leopard -/

/-- The drivers of the validator's loop are the enabled ones. -/
theorem mem_scanDrivers {staged : Tree} {root : List Text} {es : List PathEntry}
    {s : List Text × List String} {x : Text} :
    x ∈ (es.foldl (scanDriver staged root) s).1 ↔
      x ∈ s.1 ∨ x ∈ (es.filter (·.enabled)).map (·.path) := by
  induction es generalizing s with
  | nil => simp
  | cons e es ih =>
    rw [List.foldl_cons, ih, scanDriver]
    cases he : e.enabled with
    | false => simp [he]
    | true => simp [he, List.mem_insert_iff, or_left_comm, or_assoc]

/-- Every preset has `cpus=1`, and leaves the architecture to `KernelArch`. -/
theorem words_leopard (preset : BootPreset) (arch : KernelArch) :
    txt "cpus=1" ∈ splitWords (bootArgsFor .leopard preset arch) ∧
      txt "arch=i386" ∉ splitWords (bootArgsFor .leopard preset arch) ∧
      txt "-legacy" ∉ splitWords (bootArgsFor .leopard preset arch) := by
  have harch : bootArgsFor .leopard preset arch = bootArgsFor .leopard preset .i386 := rfl
  rw [harch]
  cases preset <;> decide +kernel

/-- The boot rules of a generated Leopard configuration. -/
theorem bootErrors_leopard {seen : List Text} {es : List KextEntry} (hos : a.os = .leopard) :
    bootErrors seen (a.ocConfig arch es) = [] ↔ arch.text = txt "i386-user32" ∧
      a.runtimeProfile ≠ .modern ∧
      (txt "OpenRuntime.efi" ∈ seen ↔ a.runtimeProfile = .legacy) := by
  obtain ⟨hcpus, harch, hlegacy⟩ := words_leopard a.bootPreset arch
  have hmin : txt "9." <+: (kernelRange .leopard).1 := by simp [kernelRange, txt]
  simp only [bootErrors, Args.ocConfig, hos, hmin, hcpus, harch, hlegacy]
  cases a.runtimeProfile <;> by_cases hr : txt "OpenRuntime.efi" ∈ seen <;> simp [hr]

/-- **Generator and validator agree on Leopard**: whatever the sample and the arguments are, the
boot rules find no error exactly for `i386-user32` with `OpenRuntime.efi` under the legacy profile
or without it under `off`. -/
theorem generated_leopard_iff (load : Bytes → Option Info) (t : Tree) (ocRoot : PurePath)
    (a : Args) (arch : KernelArch) (sample : Plist) (hos : a.os = .leopard)
    (hs : HasSections sample) (harch : resolveKernelArch a.os a.kernelArch = some arch)
    (hkexts : ∀ path ∈ a.kexts, loadInfo load t (((bundleOf ocRoot path).join
      (component "Contents")).join (component "Info.plist")) ≠ none)
    (staged : Tree) (root : List Text) :
    ∃ config c, generate load t ocRoot a sample = some config ∧ readConfig config = some c ∧
      (bootErrors (c.drivers.foldl (scanDriver staged root) ([], [])).1 c = [] ↔
        arch = .i386User32 ∧
          ((a.runtimeProfile = .legacy ∧ txt "OpenRuntime.efi" ∈ a.drivers) ∨
            (a.runtimeProfile = .off ∧ txt "OpenRuntime.efi" ∉ a.drivers))) := by
  obtain ⟨config, hg⟩ := exists_generate hs harch hkexts
  obtain ⟨arch', es, harch', -, hc⟩ := readConfig_generate hg
  obtain rfl := Option.some.inj (harch.symm.trans harch')
  refine ⟨config, _, hg, hc, ?_⟩
  have harchText : arch.text = txt "i386-user32" ↔ arch = .i386User32 := by
    cases arch <;> simp [KernelArch.text, txt]
  have hseen : txt "OpenRuntime.efi" ∈
      ((a.ocConfig arch es).drivers.foldl (scanDriver staged root) ([], [])).1 ↔
      txt "OpenRuntime.efi" ∈ a.drivers := by
    rw [mem_scanDrivers]
    simp [Args.ocConfig, List.filter_map, Function.comp_def]
  rw [bootErrors_leopard hos, harchText, hseen]
  cases a.runtimeProfile <;> simp

/-- The empty sections. -/
def sampleSections : Plist :=
  .dict [("ACPI", .dict []), ("Booter", .dict [("Quirks", .dict [])]),
    ("DeviceProperties", .dict []),
    ("Kernel", .dict [("Emulate", .dict []), ("Quirks", .dict []), ("Scheme", .dict [])]),
    ("Misc", .dict [("Boot", .dict []), ("Debug", .dict []), ("Security", .dict [])]),
    ("NVRAM", .dict []), ("PlatformInfo", .dict [("Generic", .dict [])]),
    ("UEFI", .dict [("Input", .dict []), ("Output", .dict []), ("Quirks", .dict [])])]

theorem hasSections_sample : HasSections sampleSections := by
  simp only [HasSections, sections, List.forall_mem_cons]
  and_intros
  all_goals first
    | exact ⟨_, rfl⟩
    | exact fun _ h => by cases h

/-- An empty tree. -/
def emptyTree : Tree := ⟨[], by simp, by simp, by simp⟩

/-- The default of the build for Leopard passes the boot rules. -/
theorem generated_leopard_sample :
    ∃ config c, generate (fun _ => none) emptyTree (.ofPlace []) ⟨.leopard, .vanilla, .verbose,
        .legacy, none, [txt "OpenRuntime.efi"], [], [], false, []⟩ sampleSections = some config ∧
      readConfig config = some c ∧
      bootErrors (c.drivers.foldl (scanDriver emptyTree []) ([], [])).1 c = [] := by
  obtain ⟨config, c, hg, hc, hiff⟩ := generated_leopard_iff (fun _ => none) emptyTree (.ofPlace [])
    ⟨.leopard, .vanilla, .verbose, .legacy, none, [txt "OpenRuntime.efi"], [], [], false, []⟩
    .i386User32 sampleSections rfl hasSections_sample rfl (fun _ h => by cases h) emptyTree []
  exact ⟨config, c, hg, hc, hiff.2 ⟨rfl, Or.inl ⟨rfl, List.mem_singleton_self _⟩⟩⟩

end Config

end InstallKit
