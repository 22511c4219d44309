import InstallKit.Shell.Worlds
import InstallKit.Text.Paths

/-!
# What a build removes

`prepare_aspire4310_macos.sh` removes the result of an earlier build before it stages a new one.  The
path is put together from `ASPIRE4310_PROFILE_TARGET` and the name of the system; the guard of
`safe_remove_generated` compares texts.

* `passes_buildRoot` : the guard lets every such path through;
* `removed_below_iff` : what is removed lies below the output directory just if the target, read as a
  path, comes down again the way it went up;
* `removed_outside` : a target that climbs out and names the directory of another profile.
-/

namespace InstallKit

namespace Mac

namespace SafeRemove

open Sources Shell Script

/-! ### Paths -/

/-- `ROOT_DIR`, as `pwd -P` prints it. -/
structure RootDir where
  names : List Text
  named : ∀ c ∈ names, IsEntryName c

def RootDir.text (root : RootDir) : Text := (PurePath.ofPlace root.names).toText

def defaultTarget : Text := txt "acer-aspire-4310"

/-- `PROFILE_TARGET="${ASPIRE4310_PROFILE_TARGET:-acer-aspire-4310}"` -/
def profileTarget : Option Text → Text
  | none => defaultTarget
  | some target => if target = [] then defaultTarget else target

/-- `PROFILES_DIR` -/
def profilesDir (rootDir target : Text) : Text :=
  if target ≠ defaultTarget then rootDir ++ txt "/profiles" ++ '/' :: target
  else rootDir ++ txt "/profiles"

/-- `OUTPUT_DIR` -/
def outputDir (rootDir : Text) : Text := rootDir ++ '/' :: txt "output"

/-- `PROFILE_OUTPUT_DIR` -/
def profileOutputDir (rootDir target : Text) : Text :=
  if target ≠ defaultTarget then outputDir rootDir ++ '/' :: target else outputDir rootDir

/-- `OS_PROFILE` -/
inductive OsProfile
  | leopard
  | snowleopard
  deriving DecidableEq

def OsProfile.text : OsProfile → Text
  | leopard => txt "leopard"
  | snowleopard => txt "snowleopard"

/-- The trees that a build stages. -/
inductive Stage
  | vanilla
  | custom
  | chameleon
  deriving DecidableEq

/-- The last component of `build_root`. -/
def Stage.leaf : Stage → Text
  | vanilla => txt "opencore-vanilla"
  | custom => txt "opencore-custom"
  | chameleon => txt "chameleon"

/-- `build_root` -/
def buildRoot (rootDir target : Text) (os : OsProfile) (stage : Stage) : Text :=
  profileOutputDir rootDir target ++ '/' :: os.text ++ '/' :: stage.leaf

/-! ### The script -/

/-- The commands of the script. -/
inductive Cmd
  /-- `[[ -f path ]]` -/
  | isFile (path : Text)
  /-- `source path`; the profiles assign facts about their machine only. -/
  | source (path : Text)
  /-- A command that removes no tree below the output directory. -/
  | run (line : String)
  /-- `rm -rf -- path` -/
  | removeTree (path : Text)
  deriving DecidableEq

instance : ExitStatus ℕ := ⟨id⟩

abbrev Sh := Script Unit Cmd ℕ

def exec (line : String) : Sh Unit := do
  let _ ← cmd (.run line)

/-- `if line` -/
def holds (line : String) : Sh Bool := do
  return (← attempt (.run line)) = 0

def die (message : Text) : Sh Unit := .exit 1 ("ERROR: " ++ String.ofList message)

/-- `line || die message` -/
def require (line message : String) : Sh Unit := do
  if !(← holds line) then
    die message.toList

/-- The test of `safe_remove_generated`. -/
def passes (outputDir path : Text) : Bool :=
  path ≠ [] && path ≠ outputDir && (outputDir ++ ['/']).isPrefixOf path

/-- `safe_remove_generated` -/
def safeRemoveGenerated (outputDir path : Text) : Sh Unit := do
  if !passes outputDir path then
    die (txt "Refusing to remove non-generated path: " ++ path)
  let _ ← cmd (.removeTree path)

/-- Everything up to the arguments. -/
def startup (rootDir target : Text) : Sh Unit := do
  let _ ← cmd (.source (rootDir ++ txt "/config/aspire4310.conf"))
  if target ≠ defaultTarget then
    let hardware := profilesDir rootDir target ++ txt "/hardware.conf"
    if (← attempt (.isFile hardware)) ≠ 0 then
      .exit 1 ("Unknown Aspire 4310 profile target: " ++ String.ofList target)
    let _ ← cmd (.source hardware)
  let _ ← cmd (.source (rootDir ++ txt "/config/sources.conf"))

/-- `load_os_profile` -/
def loadOsProfile (rootDir target : Text) (os : OsProfile) : Sh Unit := do
  let profile := profilesDir rootDir target ++ '/' :: os.text ++ txt "/profile.conf"
  if (← attempt (.isFile profile)) ≠ 0 then
    die (txt "OS profile is missing: " ++ profile)
  let _ ← cmd (.source profile)

/-- `build_opencore_variant`, for `vanilla` and `custom`. -/
def buildOpencoreVariant (rootDir target : Text) (os : OsProfile) (stage : Stage) : Sh Unit := do
  safeRemoveGenerated (outputDir rootDir) (buildRoot rootDir target os stage)
  exec "mkdir -p \"$esp/EFI/BOOT\" \"$oc_root/Drivers\" \"$build_root/OpenDuet\""
  exec "cp -p \"$arch_source/EFI/BOOT/\"*.efi \"$esp/EFI/BOOT/\""
  exec "cp -p \"$arch_source/EFI/OC/OpenCore.efi\" \"$oc_root/OpenCore.efi\""
  exec "select_hfs_driver \"$oc_root/Drivers\""
  exec "cp -p \"$OC_CACHE_ROOT/Utilities/LegacyBoot/boot0\" \"$build_root/OpenDuet/\""
  exec "copy_profile_kexts \"$oc_root/Kexts\""
  if ← holds "[[ \"$ACPI_MODE\" == \"patched\" ]]" then
    exec "collect_acpi_arguments"
  if stage = .custom then
    exec "copy_custom_kernels \"$esp/Kernels\""
  exec "python3 \"$CONFIG_GENERATOR\""
  exec "python3 \"$TREE_VALIDATOR\" \"$oc_root/config.plist\""
  let _ ← holds "\"$validator\" \"$oc_root/config.plist\""
  exec "validate_plists \"$build_root\""
  exec "python3 \"$INSPECTOR\" --kext >>\"$build_root/KEXT_REPORT.tsv\""
  exec "write_build_report \"$build_root\""

/-- `build_chameleon` -/
def buildChameleon (rootDir target : Text) (os : OsProfile) : Sh Unit := do
  require "prepare_chameleon_manual_archive" ("Chameleon is lost-media fallback only. Supply " ++
    "input/chameleon/chameleon-binaries.tar.gz with i386/boot0, boot1h and boot.")
  require "[[ -f \"$i386/boot0\" && -f \"$i386/boot1h\" && -f \"$i386/boot\" ]]"
    "Incomplete Chameleon i386 directory: $i386"
  safeRemoveGenerated (outputDir rootDir) (buildRoot rootDir target os .chameleon)
  exec "mkdir -p \"$build_root/Extra/Extensions\" \"$build_root/i386\""
  exec "cp -p \"$i386/boot0\" \"$i386/boot1h\" \"$i386/boot\" \"$build_root/i386/\""
  exec "cp -p \"$i386/boot\" \"$build_root/boot\""
  exec "write_chameleon_plists \"$build_root/Extra\""
  exec "copy_profile_kexts \"$build_root/Extra/Extensions\""
  exec "validate_plists \"$build_root\" >/dev/null"

/-- `KERNEL_MODE` -/
inductive KernelMode
  | vanilla
  | custom
  | auto
  deriving DecidableEq

/-- `BOOTLOADER` -/
inductive Bootloader
  | auto
  | opencore
  | chameleon
  | other (name : Text)
  deriving DecidableEq

/-- The OpenCore trees of a build. -/
def buildOpencore (rootDir target : Text) (os : OsProfile) : KernelMode → Sh Unit
  | .vanilla => buildOpencoreVariant rootDir target os .vanilla
  | .custom => buildOpencoreVariant rootDir target os .custom
  | .auto => do
    buildOpencoreVariant rootDir target os .vanilla
    if ← holds "custom_kernel_available" then
      buildOpencoreVariant rootDir target os .custom

/-- `run_build` -/
def runBuild (rootDir target : Text) (os : OsProfile) (kernel : KernelMode) (loader : Bootloader) :
    Sh Unit := do
  loadOsProfile rootDir target os
  exec "validate_shell_sources"
  exec "resolve_oc_arch"
  exec "resolve_runtime_profile"
  exec "load_current_sources"
  match loader with
  | .auto => do
    buildOpencore rootDir target os kernel
    if ← holds "prepare_chameleon_manual_archive" then
      buildChameleon rootDir target os
  | .opencore => buildOpencore rootDir target os kernel
  | .chameleon => buildChameleon rootDir target os
  | .other name => die (txt "Invalid --bootloader: " ++ name)

/-- `[[ "$BOOTLOADER" == auto || "$BOOTLOADER" == opencore ]] || die message` -/
def requireOpencore (loader : Bootloader) (message : Text) : Sh Unit :=
  match loader with
  | .auto | .opencore => pure ()
  | _ => die message

/-- The modes that build. -/
inductive Mode
  | build
  | makeUsb
  | updateEfi
  deriving DecidableEq

/-- The arguments that a build depends on. -/
structure Args where
  mode : Mode
  os : OsProfile
  kernel : KernelMode
  loader : Bootloader

/-- The script, in a mode that builds. -/
def main (rootDir : Text) (env : Option Text) (a : Args) : Sh Unit := do
  let target := profileTarget env
  startup rootDir target
  match a.mode with
  | .build => runBuild rootDir target a.os a.kernel a.loader
  | .makeUsb => do
    exec "require_macos_build_host"
    exec "validate_disk_identifier \"$DISK\""
    require "[[ -n \"$RETAIL\" && -e \"$RETAIL\" ]]"
      "Retail source not found; pass --retail or place the documented image in input/."
    requireOpencore a.loader (txt ("Automated GPT USB deployment currently supports the " ++
      "OpenCore backend; Chameleon output remains a manual fallback."))
    loadOsProfile rootDir target a.os
    exec "resolve_oc_arch"
    exec "load_current_sources"
    runBuild rootDir target a.os a.kernel a.loader
    exec "replace_boot_files \"$efi_mount\" \"$build_root\""
  | .updateEfi => do
    exec "require_macos_build_host"
    exec "validate_disk_identifier \"$DISK\""
    require "[[ -n \"$BOOT_SLICE\" ]]" "--update-efi requires --boot-slice /dev/diskXs1"
    require "[[ -z \"$INSTALLER_SLICE\" ]]" "--update-efi does not accept --installer-slice"
    requireOpencore a.loader (txt "--update-efi currently supports only OpenCore/OpenDuet")
    runBuild rootDir target a.os a.kernel a.loader
    exec "replace_boot_files \"$efi_mount\" \"$build_root\""

/-! ### What is removed -/

/-- The state in which the script starts. -/
def initial : St Unit Cmd ℕ := ⟨(), [], true⟩

variable {rootDir target path : Text} {env : Option Text} {a : Args} {os : OsProfile} {stage : Stage}

/-- **The guard compares texts**: it lets every path through that a build puts together. -/
theorem passes_buildRoot (rootDir target : Text) (os : OsProfile) (stage : Stage) :
    passes (outputDir rootDir) (buildRoot rootDir target os stage) = true := by
  obtain ⟨rest, hrest⟩ : ∃ rest, buildRoot rootDir target os stage =
      outputDir rootDir ++ ['/'] ++ rest := by
    unfold buildRoot profileOutputDir
    split
    · exact ⟨target ++ '/' :: os.text ++ '/' :: stage.leaf, by simp⟩
    · exact ⟨os.text ++ '/' :: stage.leaf, by simp⟩
  simp [passes, hrest]

/-- A command that removes nothing but a stage. -/
def RemovesStage (rootDir target : Text) (os : OsProfile) (c : Cmd) : Prop :=
  ∀ path, c = .removeTree path → ∃ stage, path = buildRoot rootDir target os stage

theorem removesStage_of_ne {c : Cmd} (h : ∀ path, c ≠ .removeTree path) :
    RemovesStage rootDir target os c := fun path hp => absurd hp (h path)

@[simp] theorem removesStage_isFile : RemovesStage rootDir target os (.isFile path) :=
  removesStage_of_ne (by simp)

@[simp] theorem removesStage_source : RemovesStage rootDir target os (.source path) :=
  removesStage_of_ne (by simp)

@[simp] theorem removesStage_run {line : String} : RemovesStage rootDir target os (.run line) :=
  removesStage_of_ne (by simp)

@[simp] theorem removesStage_removeTree :
    RemovesStage rootDir target os (.removeTree (buildRoot rootDir target os stage)) := by
  rintro path hp
  cases hp
  exact ⟨stage, rfl⟩

section Calls

variable {P : Cmd → Prop}

@[simp] theorem calls_exec {line : String} : (exec line).Calls P ↔ P (.run line) := by simp [exec]

@[simp] theorem calls_holds {line : String} : (holds line).Calls P ↔ P (.run line) := by
  simp [holds]

@[simp] theorem calls_die {message : Text} : (die message).Calls P := trivial

@[simp] theorem calls_require {line message : String} :
    (require line message).Calls P ↔ P (.run line) := by
  simp [require]

end Calls

theorem calls_requireOpencore {P : Cmd → Prop} {loader : Bootloader} {message : Text} :
    (requireOpencore loader message).Calls P := by
  cases loader <;> trivial

theorem calls_startup : (startup rootDir target).Calls (RemovesStage rootDir target os) := by
  simp [startup]

theorem calls_loadOsProfile :
    (loadOsProfile rootDir target os).Calls (RemovesStage rootDir target os) := by
  simp [loadOsProfile]

theorem calls_safeRemoveGenerated :
    (safeRemoveGenerated (outputDir rootDir) (buildRoot rootDir target os stage)).Calls
      (RemovesStage rootDir target os) := by
  simp [safeRemoveGenerated]

theorem calls_buildOpencoreVariant :
    (buildOpencoreVariant rootDir target os stage).Calls (RemovesStage rootDir target os) := by
  simp [buildOpencoreVariant, calls_safeRemoveGenerated]

theorem calls_buildChameleon :
    (buildChameleon rootDir target os).Calls (RemovesStage rootDir target os) := by
  simp [buildChameleon, calls_safeRemoveGenerated]

theorem calls_buildOpencore (kernel : KernelMode) :
    (buildOpencore rootDir target os kernel).Calls (RemovesStage rootDir target os) := by
  cases kernel <;> simp [buildOpencore, calls_buildOpencoreVariant]

theorem calls_runBuild (kernel : KernelMode) (loader : Bootloader) :
    (runBuild rootDir target os kernel loader).Calls (RemovesStage rootDir target os) := by
  cases loader <;>
    simp [runBuild, calls_loadOsProfile, calls_buildOpencore, calls_buildChameleon]

/-- What `main` removes are the stages of its target. -/
theorem calls_main (rootDir : Text) (env : Option Text) (a : Args) :
    (main rootDir env a).Calls (RemovesStage rootDir (profileTarget env) a.os) := by
  obtain ⟨mode, os, kernel, loader⟩ := a
  cases mode with
  | build =>
    rw [main]
    simp [calls_startup, calls_runBuild]
  | makeUsb =>
    rw [main]
    simp [calls_startup, calls_requireOpencore, calls_runBuild, calls_loadOsProfile]
  | updateEfi =>
    rw [main]
    simp [calls_startup, calls_requireOpencore, calls_runBuild]

/-- Whatever the replies are, only stages are removed. -/
theorem removed_eq {A : List (Cmd × ℕ) → Cmd → ℕ → Prop} {q : Sh Unit} {s : St Unit Cmd ℕ} {n : ℕ}
    (h : Reach A (main rootDir env a, initial) (q, s)) (hm : (.removeTree path, n) ∈ s.log) :
    ∃ stage, path = buildRoot rootDir (profileTarget env) a.os stage := by
  have hlog : ∀ e ∈ s.log, RemovesStage rootDir (profileTarget env) a.os e.1 :=
    always_of_calls (J := fun l => ∀ e ∈ l, RemovesStage rootDir (profileTarget env) a.os e.1)
      (calls_main rootDir env a) (fun l c r hc _ hl => List.forall_mem_cons.2 ⟨hc, hl⟩)
      (fun e he => absurd he List.not_mem_nil) q s h
  exact hlog _ hm path rfl

/-! ### Where it lies -/

/-- The place of the output directory. -/
def outputPlace (root : RootDir) : List Text := root.names ++ [txt "output"]

theorem isEntryName_leaf (stage : Stage) : IsEntryName stage.leaf := by
  cases stage <;> decide +kernel

theorem isEntryName_os (os : OsProfile) : IsEntryName os.text := by
  cases os <;> decide +kernel

theorem isEntryName_output : IsEntryName (txt "output") := by decide +kernel

theorem output_not_mem (os : OsProfile) (stage : Stage) :
    txt "output" ∉ [os.text, stage.leaf] := by
  cases os <;> cases stage <;> decide +kernel

variable {root : RootDir}

theorem dotDot_not_mem_outputPlace (root : RootDir) : dotDot ∉ outputPlace root := by
  intro h
  rcases List.mem_append.1 h with h | h
  · exact (root.named _ h).2.2.2 rfl
  · exact absurd (List.mem_singleton.1 h) (by decide +kernel)

theorem parts_outputDir (root : RootDir) :
    (PurePath.parse (outputDir root.text)).parts = outputPlace root := by
  rw [outputDir, PurePath.parts_append_slash, RootDir.text, PurePath.parts_toText_ofPlace root.named,
    PurePath.parts_of_isEntryName isEntryName_output, outputPlace]

theorem resolve_outputDir (root : RootDir) : resolve (outputDir root.text) = outputPlace root := by
  rw [resolve, parts_outputDir, foldDots_eq_self (dotDot_not_mem_outputPlace root)]

/-- The components that the target adds. -/
def targetParts (target : Text) : List Text :=
  if target ≠ defaultTarget then (PurePath.parse target).parts else []

theorem parts_buildRoot (root : RootDir) (target : Text) (os : OsProfile) (stage : Stage) :
    (PurePath.parse (buildRoot root.text target os stage)).parts =
      outputPlace root ++ targetParts target ++ [os.text] ++ [stage.leaf] := by
  have hroot : (PurePath.parse (profileOutputDir root.text target)).parts =
      outputPlace root ++ targetParts target := by
    unfold profileOutputDir targetParts
    split
    · rw [PurePath.parts_append_slash, parts_outputDir]
    · rw [parts_outputDir, List.append_nil]
  rw [buildRoot, List.append_assoc, List.cons_append, PurePath.parts_append_slash,
    PurePath.parts_append_slash, hroot, PurePath.parts_of_isEntryName (isEntryName_os os),
    PurePath.parts_of_isEntryName (isEntryName_leaf stage)]
  simp

theorem resolve_buildRoot (root : RootDir) (target : Text) (os : OsProfile) (stage : Stage) :
    resolve (buildRoot root.text target os stage) =
      foldDots (outputPlace root ++ targetParts target) ++ [os.text, stage.leaf] := by
  rw [resolve, parts_buildRoot, foldDots_append_singleton, if_neg (isEntryName_leaf stage).2.2.2,
    foldDots_append_singleton, if_neg (isEntryName_os os).2.2.2]
  simp

/-- The target leads up as far as it likes, if it then comes down the way it went up. -/
def ComesBack (root : RootDir) (target : Text) : Prop :=
  (outputPlace root).drop ((outputPlace root).length - (climb (PurePath.parse target).parts).1) <+:
    (climb (PurePath.parse target).parts).2

instance (root : RootDir) (target : Text) : Decidable (ComesBack root target) :=
  inferInstanceAs (Decidable (_ <+: _))

/-- The default target is a name. -/
theorem climb_targetParts_eq_zero (h : target = defaultTarget) :
    (climb (PurePath.parse target).parts).1 = 0 := by
  subst h
  decide +kernel

theorem comesBack_iff (root : RootDir) (target : Text) :
    ComesBack root target ↔ (outputPlace root).drop
      ((outputPlace root).length - (climb (targetParts target)).1) <+:
        (climb (targetParts target)).2 := by
  unfold targetParts
  split
  · rfl
  · rename_i h
    rw [ComesBack, climb_targetParts_eq_zero (not_not.1 h)]
    simp [climb]

/-- **Where a stage lies.** -/
theorem strictlyBelow_buildRoot_iff (root : RootDir) (target : Text) (os : OsProfile)
    (stage : Stage) :
    StrictlyBelow (outputDir root.text) (buildRoot root.text target os stage) ↔
      ComesBack root target := by
  have hlast : ∀ n, ∀ x ∈ ((outputPlace root).drop n).getLast?, x ∉ [os.text, stage.leaf] := by
    intro n x hx
    rw [List.getLast?_drop, outputPlace, List.getLast?_concat] at hx
    split at hx
    · cases hx
    · cases hx
      exact output_not_mem os stage
  have hne : foldDots (outputPlace root ++ targetParts target) ++ [os.text, stage.leaf] ≠
      outputPlace root := by
    intro h
    have hl := congrArg List.getLast? h
    rw [outputPlace, List.getLast?_concat] at hl
    have hleaf : stage.leaf = txt "output" := by simpa using hl
    exact output_not_mem os stage (by simp [hleaf])
  rw [StrictlyBelow, resolve_outputDir, resolve_buildRoot, and_iff_left hne,
    prefix_foldDots_iff (dotDot_not_mem_outputPlace root), prefix_append_iff_of_getLast (hlast _),
    comesBack_iff]

/-- **What a build removes** lies below the output directory just if the target comes back. -/
theorem removed_below_iff (root : RootDir) (env : Option Text) (a : Args)
    {A : List (Cmd × ℕ) → Cmd → ℕ → Prop} {q : Sh Unit} {s : St Unit Cmd ℕ} {path : Text} {n : ℕ}
    (h : Reach A (main root.text env a, initial) (q, s)) (hm : (.removeTree path, n) ∈ s.log) :
    StrictlyBelow (outputDir root.text) path ↔ ComesBack root (profileTarget env) := by
  obtain ⟨stage, rfl⟩ := removed_eq h hm
  exact strictlyBelow_buildRoot_iff root _ a.os stage

/-! ### Two runs -/

/-- The answers to the tests in a file tree. -/
def Truthful (t : Tree) (c : Cmd) (n : ℕ) : Prop :=
  ∀ path, c = .isFile path → (n = 0 ↔ t.isFile (.parse path) = true)

/-- Every other command succeeds. -/
def reply (t : Tree) : Cmd → ℕ
  | .isFile path => if t.isFile (.parse path) then 0 else 1
  | _ => 0

theorem truthful_reply (t : Tree) (c : Cmd) : Truthful t c (reply t c) := by
  rintro path rfl
  unfold reply
  split <;> simp_all

/-- The repository in `/kit`. -/
def kit : RootDir := ⟨[txt "kit"], by decide +kernel⟩

/-- A profile of the repository. -/
def kitTree : Tree where
  entries := [([txt "kit"], .dir), ([txt "kit", txt "profiles"], .dir),
    ([txt "kit", txt "profiles", txt "acer-aspire-4310-c2d-t7400"], .dir),
    ([txt "kit", txt "profiles", txt "acer-aspire-4310-c2d-t7400", txt "hardware.conf"],
      .file []),
    ([txt "kit", txt "profiles", txt "acer-aspire-4310-c2d-t7400", txt "snowleopard"], .dir),
    ([txt "kit", txt "profiles", txt "acer-aspire-4310-c2d-t7400", txt "snowleopard",
      txt "profile.conf"], .file [])]
  nodup := by decide +kernel
  named := by decide +kernel
  parent := by decide +kernel

/-- `--build --os snowleopard --bootloader opencore --kernel vanilla` -/
def buildArgs : Args := ⟨.build, .snowleopard, .vanilla, .opencore⟩

/-- The build for a target. -/
def buildRun (target : Text) : Sh Unit × St Unit Cmd ℕ :=
  follow (fun _ => reply kitTree) (main kit.text (some target) buildArgs) initial

theorem reach_buildRun (target : Text) :
    Reach (fun _ => Truthful kitTree) (main kit.text (some target) buildArgs, initial)
      ((buildRun target).1, (buildRun target).2) :=
  reach_follow (fun _ c => truthful_reply kitTree c) _ _

/-- The target of a profile. -/
theorem removed_inside :
    (.removeTree (txt "/kit/output/acer-aspire-4310-c2d-t7400/snowleopard/opencore-vanilla"), 0) ∈
        (buildRun (txt "acer-aspire-4310-c2d-t7400")).2.log ∧
      StrictlyBelow (txt "/kit/output")
        (txt "/kit/output/acer-aspire-4310-c2d-t7400/snowleopard/opencore-vanilla") := by
  have hm : (.removeTree (txt "/kit/output/acer-aspire-4310-c2d-t7400/snowleopard/opencore-vanilla"),
      0) ∈ (buildRun (txt "acer-aspire-4310-c2d-t7400")).2.log := by decide +kernel
  have hdir : outputDir kit.text = txt "/kit/output" := by decide +kernel
  refine ⟨hm, ?_⟩
  rw [← hdir]
  exact (removed_below_iff kit _ buildArgs (reach_buildRun _) hm).2 (by decide +kernel)

/-- **A build removes the profile's own directory** when the target climbs out of the output
directory into the profiles. -/
theorem removed_outside :
    (.removeTree
        (txt "/kit/output/../profiles/acer-aspire-4310-c2d-t7400/snowleopard/opencore-vanilla"),
        0) ∈ (buildRun (txt "../profiles/acer-aspire-4310-c2d-t7400")).2.log ∧
      Reach (fun _ => Truthful kitTree) (main kit.text
          (some (txt "../profiles/acer-aspire-4310-c2d-t7400")) buildArgs, initial)
        (buildRun (txt "../profiles/acer-aspire-4310-c2d-t7400")) ∧
      ¬ StrictlyBelow (txt "/kit/output")
        (txt "/kit/output/../profiles/acer-aspire-4310-c2d-t7400/snowleopard/opencore-vanilla") :=
  ⟨by decide +kernel, reach_buildRun _, by decide +kernel⟩

end SafeRemove

end Mac

end InstallKit
