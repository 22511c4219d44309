import InstallKit.Config.Dump
import InstallKit.Config.Inheritance
import InstallKit.Sources.PyText

/-!
# The kernel architecture out of the environment

`--kernel-arch` has choices, but `argparse` does not compare a default with them, and the default is
`ASPIRE4310_KERNEL_ARCH`.  The generator therefore works on any text; it copies the architecture into
three places of the configuration and into every kext.

* `generateWith_eq_generate` : for a name of an architecture this is the generator on the three
  architectures;
* `archClosed_iff` : a run that succeeds has written one of the three architectures just if it was
  given on the command line, not given at all, or spelled correctly in the environment.
-/

namespace InstallKit

namespace Config

open Sources

/-! ### The generator on any text -/

/-- The value of `--kernel-arch`, whose default is the variable. -/
def requestedArch (flag : Option KernelArch) (env : Option PyText) : Option PyText :=
  match flag with
  | some arch => some (.ofText arch.text)
  | none => env

/-- `resolve_kernel_arch`; the `ValueError` ends in `parser.error`. -/
def resolveArch (os : Os) : Option Text → Option Text
  | none => some (if os = .leopard then txt "i386-user32" else txt "i386")
  | some requested =>
    if os = .leopard ∧ requested = txt "x86_64" then none
    else if os = .snowleopard ∧ requested = txt "i386-user32" then some (txt "i386")
    else some requested

/-- `kext_arch_for` -/
def kextArch (kernelArch : Text) : Text :=
  if kernelArch = txt "i386-user32" then txt "i386" else kernelArch

/-- `boot_args_for` -/
def bootArgsWith (os : Os) (preset : BootPreset) (kernelArch : Text) : Text :=
  let parts := bootArgs preset ::
    match os with
    | .leopard => [leopardBootArgs]
    | .snowleopard => if kernelArch = txt "x86_64" then [txt "arch=x86_64"] else []
  [' '].intercalate (parts.filter (· ≠ []))

section

variable (load : Bytes → Option Info) (t : Tree)

/-- `read_kext` -/
def readKextWith (ocRoot : PurePath) (minimum maximum arch bundlePath : Text) : Option Plist :=
  let infoPath := ((bundleOf ocRoot bundlePath).join (component "Contents")).join
    (component "Info.plist")
  (loadInfo load t infoPath).map fun info =>
    let executable := info.executable.getD []
    .dict [("Arch", .str arch),
      ("BundlePath", .str (PurePath.parse bundlePath).toText),
      ("Comment", .str (info.identifier.getD (txt "UNKNOWN") ++ ' ' ::
        info.version.getD (txt "UNKNOWN") ++ txt "; statically checked " ++ arch ++
        txt " candidate")),
      ("Enabled", .bool true),
      ("ExecutablePath",
        .str (if executable = [] then [] else txt "Contents/MacOS/" ++ executable)),
      ("MaxKernel", .str maximum),
      ("MinKernel", .str minimum),
      ("PlistPath", .str (txt "Contents/Info.plist"))]

end

/-- The values that depend on the architecture. -/
def archValue (a : Args) (kernelArch : Text) (path : List String) : Option Plist :=
  if path = ["Kernel", "Scheme", "KernelArch"] then some (.str kernelArch)
  else if path = ["NVRAM", "Add"] then some (.dict
    [("4D1EDE05-38C7-4A6A-9CC6-4BCCA8B38C14",
      .dict [("DefaultBackgroundColor", .data [0, 0, 0, 0])]),
    (appleNvram, .dict
      [("boot-args", .str (bootArgsWith a.os a.bootPreset kernelArch)),
        ("prev-lang:kbd", .data [0x65, 0x6e, 0x2d, 0x55, 0x53, 0x3a, 0x30]),
        ("run-efi-updater", .str (txt "No"))])])
  else if path = ["#Revision"] then some (.str (txt "Aspire 4310 profile generated from OpenCore " ++
    a.ocVersion ++ txt " Sample.plist; " ++ a.os.text ++ '/' :: kernelArch))
  else none

/-- Every assignment of `main`: all others are as for any architecture. -/
def assignmentsWith (a : Args) (kernelArch : Text) (kexts : List Plist) :
    List (List String × Plist) :=
  (assignments a .i386 kexts).map fun w => (w.1, (archValue a kernelArch w.1).getD w.2)

/-- `main`, up to the output. -/
def generateWith (load : Bytes → Option Info) (t : Tree) (ocRoot : PurePath) (a : Args)
    (requested : Option Text) (sample : Plist) : Option Plist := do
  let kernelArch ← resolveArch a.os requested
  let (minimum, maximum) := kernelRange a.os
  let kexts ← a.kexts.mapM (readKextWith load t ocRoot minimum maximum (kextArch kernelArch))
  sample.writes (assignmentsWith a kernelArch kexts)

/-- `main`: the configuration of a run that succeeds.  A value of the variable with a surrogate, which
`resolve_kernel_arch` lets through, is part of the configuration and cannot be written. -/
def mainWith (s : Plist.Stack) (load : Bytes → Option Info) (t : Tree) (ocRoot : PurePath) (a : Args)
    (env : Option PyText) (sample : Plist) : Option Plist := do
  let requested ← (requestedArch a.kernelArch env).mapM PyText.text?
  let config ← generateWith load t ocRoot a requested sample
  if config.writable s 0 then some config else none

/-! ### The three architectures -/

variable {s : Plist.Stack} {load : Bytes → Option Info} {t : Tree} {ocRoot : PurePath} {a : Args}
  {env : Option PyText} {sample config : Plist} {kexts : List Plist} {kernelArch : Text}

theorem resolveArch_text (os : Os) (requested : Option KernelArch) :
    resolveArch os (requested.map KernelArch.text) =
      (resolveKernelArch os requested).map KernelArch.text := by
  cases os <;> rcases requested with _ | (_ | _ | _) <;> decide +kernel

theorem kextArch_text (arch : KernelArch) : kextArch arch.text = (kextArchFor arch).text := by
  cases arch <;> decide +kernel

theorem bootArgsWith_text (os : Os) (preset : BootPreset) (arch : KernelArch) :
    bootArgsWith os preset arch.text = bootArgsFor os preset arch := by
  cases os <;> cases preset <;> cases arch <;> decide +kernel

theorem map_append_eq {α β : Type} {f : α → β} {l l' : List α} {m m' : List β} (h : l.map f = m)
    (h' : l'.map f = m') : (l ++ l').map f = m ++ m' := by
  rw [List.map_append, h, h']

/-- For the three architectures the assignments are the same. -/
theorem assignmentsWith_text (a : Args) (arch : KernelArch) (kexts : List Plist) :
    assignmentsWith a arch.text kexts = assignments a arch kexts := by
  unfold assignmentsWith assignments
  rw [← bootArgsWith_text a.os a.bootPreset arch]
  repeat' apply map_append_eq
  · rfl
  · cases a.runtimeProfile <;> rfl
  · rfl
  · cases a.dropDuplicateApic <;> rfl
  all_goals rfl

/-- **The generator on text** is the generator on the three architectures. -/
theorem generateWith_eq_generate (requested : Option KernelArch) :
    generateWith load t ocRoot a (requested.map KernelArch.text) sample =
      generate load t ocRoot { a with kernelArch := requested } sample := by
  unfold generateWith generate
  rw [resolveArch_text]
  cases resolveKernelArch a.os requested with
  | none => rfl
  | some arch =>
    simp only [Option.map_some, Option.bind_eq_bind, Option.bind_some, kextArch_text,
      assignmentsWith_text]
    rfl

/-! ### What is written -/

theorem isLeaf_assignmentsWith (a : Args) (kernelArch : Text) (kexts : List Plist) :
    ∀ w ∈ assignmentsWith a kernelArch kexts, IsLeaf w.1 := by
  intro w hw
  obtain ⟨w', hw', rfl⟩ := List.mem_map.1 hw
  exact isLeaf_assignments a .i386 kexts w' hw'

/-- A leaf reads as it was last written, or as the architecture has it. -/
theorem get_generatedWith {p : List String} {v : Plist}
    (h : sample.writes (assignmentsWith a kernelArch kexts) = some config) (hp : IsLeaf p)
    (hw : Plist.written (assignments a .i386 kexts) p = some v) :
    config.get p = some ((archValue a kernelArch p).getD v) := by
  refine Plist.get_of_written h
    (fun w hm => (isLeaf_assignmentsWith a kernelArch kexts w hm).eq_or_apart hp) ?_
  exact (Plist.written_map (fun q x => (archValue a kernelArch q).getD x) _ p).trans
    (congrArg _ hw)

/-- The architecture is written as it was resolved. -/
theorem get_kernelArch (h : sample.writes (assignmentsWith a kernelArch kexts) = some config) :
    config.get ["Kernel", "Scheme", "KernelArch"] = some (.str kernelArch) := by
  obtain ⟨-, -, -, -, -, -, -, hw, -⟩ := written_keys a .i386 kexts
  exact get_generatedWith h (by decide) hw

/-- Only one of the three names, or none, is resolved to one of them. -/
theorem requested_of_resolveArch {os : Os} {requested : Option Text} {arch : KernelArch}
    (h : resolveArch os requested = some arch.text) :
    ∃ arch : Option KernelArch, requested = arch.map KernelArch.text := by
  cases requested with
  | none => exact ⟨none, rfl⟩
  | some text =>
    rw [resolveArch] at h
    split at h
    · cases h
    · split at h
      · next hs => exact ⟨some .i386User32, by rw [hs.2]; rfl⟩
      · exact ⟨some arch, by rw [Option.some.inj h]; rfl⟩

/-- The configuration names one architecture, of those that the system has. -/
structure ArchClosed (os : Os) (config : Plist) (arch : KernelArch) : Prop where
  kernelArch : config.get ["Kernel", "Scheme", "KernelArch"] = some (.str arch.text)
  not_leopard : os = .leopard → arch ≠ .x86_64
  not_snowleopard : os = .snowleopard → arch ≠ .i386User32
  kexts : ∃ kexts, config.get ["Kernel", "Add"] = some (.array kexts) ∧
    ∀ kext ∈ kexts, kext.get ["Arch"] = some (.str (kextArchFor arch).text)
  bootArgs : ∃ args, config.get ["NVRAM", "Add", appleNvram, "boot-args"] = some (.str args) ∧
    (txt "arch=x86_64" ∈ args.splitOn ' ' ↔ arch = .x86_64)

/-- What `resolve_kernel_arch` returns belongs to the system. -/
theorem resolveKernelArch_closed {os : Os} {requested : Option KernelArch} {arch : KernelArch}
    (h : resolveKernelArch os requested = some arch) :
    (os = .leopard → arch ≠ .x86_64) ∧ (os = .snowleopard → arch ≠ .i386User32) := by
  revert h
  cases os <;> rcases requested with _ | (_ | _ | _) <;> cases arch <;> decide

/-- The token is there for the 64-bit kernel, and for no other. -/
theorem mem_words_bootArgsFor {os : Os} {arch : KernelArch} (preset : BootPreset)
    (h : os = .leopard → arch ≠ .x86_64) :
    txt "arch=x86_64" ∈ (bootArgsFor os preset arch).splitOn ' ' ↔ arch = .x86_64 := by
  revert h
  cases os <;> cases preset <;> cases arch <;> decide +kernel

theorem arch_of_mem_readKexts {minimum maximum : Text} {arch : KernelArch} {paths : List Text}
    (h : paths.mapM (readKext load t ocRoot minimum maximum arch) = some kexts) :
    ∀ kext ∈ kexts, kext.get ["Arch"] = some (.str arch.text) := by
  induction paths generalizing kexts with
  | nil =>
    obtain rfl : [] = kexts := by simpa using h
    exact List.forall_mem_nil _
  | cons path paths ih =>
    rw [List.mapM_cons] at h
    obtain ⟨kext, hkext, h⟩ := Option.bind_eq_some_iff.1 h
    obtain ⟨rest, hrest, h⟩ := Option.bind_eq_some_iff.1 h
    obtain rfl := Option.some.inj h
    obtain ⟨info, -, rfl⟩ := Option.map_eq_some_iff.1 hkext
    exact List.forall_mem_cons.2 ⟨rfl, ih hrest⟩

/-- **The three architectures are closed.** -/
theorem exists_archClosed (h : generate load t ocRoot a sample = some config) :
    ∃ arch, ArchClosed a.os config arch := by
  obtain ⟨arch, harch, h⟩ := Option.bind_eq_some_iff.1 h
  obtain ⟨kexts, hkexts, hw⟩ := Option.bind_eq_some_iff.1 h
  obtain ⟨hleopard, hsnow⟩ := resolveKernelArch_closed harch
  obtain ⟨-, hadd, -, -, -, -, -, hk, -⟩ := written_keys a arch kexts
  obtain ⟨d, hd, hargs⟩ := written_nvram a arch kexts
  refine ⟨arch, get_generated hw (by decide) hk, hleopard, hsnow,
    ⟨kexts, get_generated hw (by decide) hadd, arch_of_mem_readKexts hkexts⟩,
    ⟨_, ?_, mem_words_bootArgsFor a.bootPreset hleopard⟩⟩
  have hsplit := config.get_append ["NVRAM", "Add"] [appleNvram, "boot-args"]
  rw [get_generated hw (by decide) hd] at hsplit
  exact hsplit.trans hargs

/-- The argument is checked, and so is its absence; the variable has to be spelled correctly. -/
def ArchGiven (flag : Option KernelArch) (env : Option PyText) : Prop :=
  flag.isSome = true ∨ env = none ∨ ∃ arch : KernelArch, env = some (.ofText arch.text)

theorem archGiven_iff {flag : Option KernelArch} {requested : Option Text}
    (h : (requestedArch flag env).mapM PyText.text? = some requested) :
    ArchGiven flag env ↔ ∃ arch : Option KernelArch, requested = arch.map KernelArch.text := by
  cases flag with
  | some arch =>
    rw [requestedArch, Option.mapM_some, PyText.text?_ofText] at h
    exact iff_of_true (Or.inl rfl) ⟨some arch, (Option.some.inj h).symm⟩
  | none =>
    cases env with
    | none => exact iff_of_true (Or.inr (Or.inl rfl)) ⟨none, (Option.some.inj h).symm⟩
    | some s =>
      obtain ⟨text, htext, h⟩ := Option.map_eq_some_iff.1 h
      rw [← h, PyText.text?_eq_some.1 htext]
      constructor
      · rintro (h | h | ⟨arch, h⟩)
        · cases h
        · cases h
        · exact ⟨some arch, congrArg some (PyText.ofText_injective (Option.some.inj h))⟩
      · rintro ⟨_ | arch, h⟩
        · cases h
        · exact Or.inr (Or.inr ⟨arch, by rw [Option.some.inj h]⟩)

/-- **The architecture is one of the three**, and the configuration agrees with it, just if the
variable does not bring in another text. -/
theorem archClosed_iff (h : mainWith s load t ocRoot a env sample = some config) :
    (∃ arch, ArchClosed a.os config arch) ↔ ArchGiven a.kernelArch env := by
  obtain ⟨requested, hr, h⟩ := Option.bind_eq_some_iff.1 h
  obtain ⟨config', hg, h⟩ := Option.bind_eq_some_iff.1 h
  obtain ⟨-, he⟩ := Option.ite_none_right_eq_some.1 h
  obtain rfl := Option.some.inj he
  rw [archGiven_iff hr]
  constructor
  · rintro ⟨arch, hclosed⟩
    obtain ⟨kernelArch, hk, hg⟩ := Option.bind_eq_some_iff.1 hg
    obtain ⟨kexts, -, hw⟩ := Option.bind_eq_some_iff.1 hg
    have hget := (get_kernelArch hw).symm.trans hclosed.kernelArch
    obtain rfl := Plist.str.inj (Option.some.inj hget)
    exact requested_of_resolveArch hk
  · rintro ⟨arch, rfl⟩
    rw [generateWith_eq_generate] at hg
    exact exists_archClosed (a := { a with kernelArch := arch }) hg

/-- A tree with one kext. -/
def singleTree : Tree :=
  let contents := [txt "Kexts", txt "X.kext", txt "Contents"]
  ((emptyTree.makeDirs [] contents).getD emptyTree).ensureFile contents (txt "Info.plist") []

/-- The variable names the 64-bit kernel, and there is a kext. -/
theorem archClosed_x86_64 : ∃ config, mainWith .usual (fun _ => some ⟨none, none, none, []⟩) singleTree
    (.ofPlace []) { snowLeopardArgs with kexts := [txt "X.kext"] } (some (.ofText (txt "x86_64")))
      sampleSections = some config ∧ ∃ arch, ArchClosed .snowleopard config arch := by
  obtain ⟨config, h⟩ := Option.isSome_iff_exists.1 (show (mainWith .usual
    (fun _ => some ⟨none, none, none, []⟩) singleTree (.ofPlace [])
    { snowLeopardArgs with kexts := [txt "X.kext"] } (some (.ofText (txt "x86_64")))
    sampleSections).isSome = true by decide +kernel)
  exact ⟨config, h, (archClosed_iff h).2 (Or.inr (Or.inr ⟨.x86_64, rfl⟩))⟩

/-- **Another architecture is written** when the variable names one. -/
theorem archClosed_fails : ∃ config, mainWith .usual (fun _ => none) emptyTree (.ofPlace [])
    snowLeopardArgs (some (.ofText (txt "ppc"))) sampleSections = some config ∧
      config.get ["Kernel", "Scheme", "KernelArch"] = some (.str (txt "ppc")) ∧
      ¬ ∃ arch, ArchClosed .snowleopard config arch := by
  obtain ⟨config, h, hget⟩ : ∃ config ∈ mainWith .usual (fun _ => none) emptyTree (.ofPlace [])
      snowLeopardArgs (some (.ofText (txt "ppc"))) sampleSections,
      getStr config ["Kernel", "Scheme", "KernelArch"] = some (txt "ppc") := by decide +kernel
  refine ⟨config, h, getStr_eq_some.1 hget, fun ⟨arch, hclosed⟩ => ?_⟩
  rw [getStr_eq_some, hclosed.kernelArch] at hget
  have hname := Plist.str.inj (Option.some.inj hget)
  revert hname
  cases arch <;> decide +kernel

end Config

end InstallKit
