import InstallKit.Text.Codes

/-!
# The Atom patch of the kernel source

`apply_n570_atom_debug_patch.py` edits `cpuid.h`, `cpuid.c` and `i386_init.c` by search and
replace.  It has three parts: the repair of an old checkpoint, the migration of a tree that is
already patched, and the fresh application.  Each part writes its files as it goes along
(`run_all_or_nothing_iff`).
-/

namespace InstallKit

namespace Kernel

namespace AtomPatch

open Text

/-- A text that is spelled out in the script, with its characters at hand. -/
def text (s : String) {t : List Char} (_ : String.ofList t = s) : List Char := t

/-- What a file of the tree holds.  `undecodable` are bytes that `data.decode("utf-8")` refuses,
which only Python 3 asks for; every other content is a text, read and written without loss. -/
inductive Content
  | text (t : List Char)
  | undecodable (data : List UInt8)
  deriving DecidableEq

/-- The files that the script edits, below `src/xnu`. -/
inductive Path
  | cpuidH
  | cpuidC
  | i386InitC
  deriving DecidableEq

/-- The path as the messages have it. -/
def Path.name : Path → String
  | .cpuidH => "osfmk/i386/cpuid.h"
  | .cpuidC => "osfmk/i386/cpuid.c"
  | .i386InitC => "osfmk/i386/i386_init.c"

/-- The source tree, as far as the script touches it. -/
@[ext]
structure Tree where
  cpuidH : Option Content
  cpuidC : Option Content
  i386InitC : Option Content
  deriving DecidableEq

/-- What stands at a path. -/
def Tree.get (t : Tree) : Path → Option Content
  | .cpuidH => t.cpuidH
  | .cpuidC => t.cpuidC
  | .i386InitC => t.i386InitC

/-- The tree after a file was written. -/
def Tree.put (t : Tree) (p : Path) (c : Content) : Tree :=
  match p with
  | .cpuidH => { t with cpuidH := some c }
  | .cpuidC => { t with cpuidC := some c }
  | .i386InitC => { t with i386InitC := some c }

/-- Why a run ends with a status that is not zero. -/
inductive Failure
  | missing (p : Path)
  | undecodable (p : Path)
  | matches (label : String) (count : Nat)
  | partially
  deriving DecidableEq

/-- What is printed, apart from the `UnicodeDecodeError` of Python itself. -/
def Failure.message : Failure → String
  | .missing p => "missing source file: " ++ p.name
  | .undecodable _ => "UnicodeDecodeError"
  | .matches label count =>
    label ++ ": expected exactly one match, found " ++ toString count
  | .partially =>
    "N570 patch appears partially or differently applied; inspect git diff before continuing"

/-- A part of the script: it may end the run, and what it has written stays. -/
abbrev Script := ExceptT Failure (StateM Tree)

/-- What a part of the script does to a tree. -/
def Script.on {α : Type} (x : Script α) (t : Tree) : Except Failure α × Tree :=
  (ExceptT.run x).run t

/-- The loop over `os.path.isfile`, for one path. -/
def isfile (p : Path) : Script Unit := do
  if ((← get).get p).isNone then
    throw (.missing p)

/-- `read_text` -/
def readText (p : Path) : Script (List Char) := do
  match (← get).get p with
  | none => throw (.missing p)
  | some (.undecodable _) => throw (.undecodable p)
  | some (.text t) => pure t

/-- `write_text` -/
def writeText (p : Path) (t : List Char) : Script Unit :=
  modify (·.put p (.text t))

/-- The arguments of `replace_once` apart from the text. -/
structure Edit where
  old : List Char
  new : List Char
  label : String

/-- `replace_once` -/
def replaceOnce (t : List Char) (e : Edit) : Except Failure (List Char) :=
  if count e.old t ≠ 1 then
    .error (.matches e.label (count e.old t))
  else
    .ok (replaceFirst e.old e.new t)

/-! ### The texts of the script -/

section

-- the unifier walks along the texts
set_option maxRecDepth 10000

/-- `PREFIX` -/
def n570Prefix : List Char := text "[N570 ATOM-KERNEL]" rfl

/-- A `cpuid.h` that is patched contains this. -/
def atomConstant : List Char := text "CPUID_MODEL_ATOM" rfl

/-- `old_atom_case`: the family of the first experiment. -/
def oldAtomCase : List Char :=
  text "\t\tcase CPUID_MODEL_ATOM:\n\t\t\tcpufamily = CPUFAMILY_INTEL_6_13;\n\t\t\tbreak;" rfl

/-- `new_atom_case`: the family of the later ones. -/
def newAtomCase : List Char :=
  text "\t\tcase CPUID_MODEL_ATOM:\n\t\t\tcpufamily = CPUFAMILY_INTEL_YONAH;\n\t\t\tbreak;" rfl

/-- `old_cpu_mode_checkpoint`, whose `if` is empty in a release build. -/
def oldCpuModeCheckpoint : List Char :=
  text "\tcpu_mode_init(current_cpu_datap());\n\tif (is_boot_cpu)\n" rfl ++
  text "\t\tDBG(\"[N570 ATOM-KERNEL] vstart: cpu_mode_init complete cpu=%d\\n\", cpu);\n" rfl

/-- `new_cpu_mode_checkpoint`, which leaves the whole `if` out there. -/
def newCpuModeCheckpoint : List Char :=
  text "\tcpu_mode_init(current_cpu_datap());\n#if DEBUG\n\tif (is_boot_cpu)\n" rfl ++
  text "\t\tDBG(\"[N570 ATOM-KERNEL] vstart: cpu_mode_init complete cpu=%d\\n\", cpu);\n" rfl ++
  text "#endif\n" rfl

/-- The repair of the first instrumentation. -/
def repairCheckpoint : Edit where
  old := oldCpuModeCheckpoint
  new := newCpuModeCheckpoint
  label := "make cpu_mode checkpoint RELEASE-safe"

/-- The migration from the family of the first experiment. -/
def migrateFamily : Edit where
  old := oldAtomCase
  new := newAtomCase
  label := "migrate Atom family from 6_13 to Yonah"

/-- The constant of the Atom model in `cpuid.h`. -/
def atomModelConstant : Edit where
  old :=
    text "#define CPUID_MODEL_NEHALEM\t26\n#define CPUID_MODEL_FIELDS\t30" rfl
  new :=
    text "#define CPUID_MODEL_NEHALEM\t26\n#define CPUID_MODEL_ATOM\t28\n" rfl ++
    text "#define CPUID_MODEL_FIELDS\t30" rfl
  label := "cpuid.h Atom model constant"

/-- The case of the Atom in `cpuid.c`. -/
def atomFamilyAcceptance : Edit where
  old :=
    text "\t\tcase 23:\n\t\t\tcpufamily = CPUFAMILY_INTEL_PENRYN;\n\t\t\tbreak;\n" rfl ++
    text "\t\tcase CPUID_MODEL_NEHALEM:" rfl
  new :=
    text "\t\tcase 23:\n\t\t\tcpufamily = CPUFAMILY_INTEL_PENRYN;\n\t\t\tbreak;\n" rfl ++
    text "\t\tcase CPUID_MODEL_ATOM:\n\t\t\tcpufamily = CPUFAMILY_INTEL_YONAH;\n" rfl ++
    text "\t\t\tbreak;\n\t\tcase CPUID_MODEL_NEHALEM:" rfl
  label := "cpuid.c Atom family acceptance"

/-- A checkpoint where `vstart` is entered. -/
def vstartEntry : Edit where
  old :=
    text "#if DEBUG\n\t\tserial_init();\n#endif" rfl
  new :=
    text "#if DEBUG\n\t\tserial_init();\n" rfl ++
    text "\t\tDBG(\"[N570 ATOM-KERNEL] vstart: entered boot_args=0x%lx\\n\", (unsigned " rfl ++
    text "long)boot_args_start);\n#endif" rfl
  label := "i386_init.c vstart entry"

/-- Checkpoints around `Idle_PTs_init`. -/
def pageTableCheckpoints : Edit where
  old :=
    text "\t\tpostcode(PSTART_PAGE_TABLES);\n\n\t\tIdle_PTs_init();\n\n" rfl ++
    text "\t\tfirst_avail = (vm_offset_t)ID_MAP_VTOP(physfree);" rfl
  new :=
    text "\t\tpostcode(PSTART_PAGE_TABLES);\n\n" rfl ++
    text "\t\tDBG(\"[N570 ATOM-KERNEL] vstart: before Idle_PTs_init\\n\");\n" rfl ++
    text "\t\tIdle_PTs_init();\n" rfl ++
    text "\t\tDBG(\"[N570 ATOM-KERNEL] vstart: after Idle_PTs_init physfree=%p\\n\", " rfl ++
    text "physfree);\n\n\t\tfirst_avail = (vm_offset_t)ID_MAP_VTOP(physfree);" rfl
  label := "i386_init.c page-table checkpoints"

/-- A checkpoint after `cpu_mode_init`, as the repair leaves it. -/
def cpuModeCheckpoint : Edit where
  old :=
    text "\tcpu_mode_init(current_cpu_datap());\n\n\t/* enable NX/XD */" rfl
  new :=
    text "\tcpu_mode_init(current_cpu_datap());\n#if DEBUG\n\tif (is_boot_cpu)\n" rfl ++
    text "\t\tDBG(\"[N570 ATOM-KERNEL] vstart: cpu_mode_init complete cpu=%d\\n\", cpu);\n" rfl ++
    text "#endif\n\n\t/* enable NX/XD */" rfl
  label := "i386_init.c cpu-mode checkpoint"

/-- The variable of the CPUID diagnostics. -/
def debugInfoDeclaration : Edit where
  old :=
    text "\tunsigned int\tcpus = 0;\n\tboolean_t\tfidn;" rfl
  new :=
    text "\tunsigned int\tcpus = 0;\n\tboolean_t\tfidn;\n\ti386_cpu_info_t *n570_info;" rfl
  label := "i386_init.c debug info declaration"

/-- Checkpoints around `cpu_init`. -/
def cpuInitCheckpoints : Edit where
  old :=
    text "\tDBG(\"i386_init(0x%lx) kernelBootArgs=%p\\n\",\n" rfl ++
    text "\t\t(unsigned long)boot_args_start, kernelBootArgs);\n\n\tmaster_cpu = 0;\n" rfl ++
    text "\tcpu_init();" rfl
  new :=
    text "\tDBG(\"i386_init(0x%lx) kernelBootArgs=%p\\n\",\n" rfl ++
    text "\t\t(unsigned long)boot_args_start, kernelBootArgs);\n" rfl ++
    text "\tDBG(\"[N570 ATOM-KERNEL] i386_init: entered boot_args=0x%lx\\n\", (unsigned " rfl ++
    text "long)boot_args_start);\n\n\tmaster_cpu = 0;\n" rfl ++
    text "\tDBG(\"[N570 ATOM-KERNEL] i386_init: before cpu_init\\n\");\n\tcpu_init();\n" rfl ++
    text "\tDBG(\"[N570 ATOM-KERNEL] i386_init: after cpu_init\\n\");" rfl
  label := "i386_init.c cpu_init checkpoints"

/-- What `cpuid_info` says, printed as soon as `kprintf` works. -/
def cpuidDiagnostics : Edit where
  old :=
    text "\t/* setup debugging output if one has been chosen */\n\tPE_init_kprintf(FALSE);" rfl
  new :=
    text "\t/* setup debugging output if one has been chosen */\n" rfl ++
    text "\tPE_init_kprintf(FALSE);\n\n\tn570_info = cpuid_info();\n" rfl ++
    text "\tkprintf(\"[N570 ATOM-KERNEL] CPUID vendor=%s signature=0x%08x family=%u " rfl ++
    text "model=%u extmodel=%u stepping=%u cpufamily=0x%08x\\n\",\n" rfl ++
    text "\t\tn570_info->cpuid_vendor, n570_info->cpuid_signature,\n" rfl ++
    text "\t\tn570_info->cpuid_family, n570_info->cpuid_model,\n" rfl ++
    text "\t\tn570_info->cpuid_extmodel, n570_info->cpuid_stepping,\n" rfl ++
    text "\t\tn570_info->cpuid_cpufamily);\n" rfl ++
    text "\tkprintf(\"[N570 ATOM-KERNEL] CPUID brand=%s logical/package=%u cores/package=%u " rfl ++
    text "features=0x%llx extfeatures=0x%llx\\n\",\n" rfl ++
    text "\t\tn570_info->cpuid_brand_string, n570_info->cpuid_logical_per_package,\n" rfl ++
    text "\t\tn570_info->cpuid_cores_per_package, n570_info->cpuid_features,\n" rfl ++
    text "\t\tn570_info->cpuid_extfeatures);" rfl
  label := "i386_init.c CPUID diagnostics"

/-- Checkpoints around `i386_vm_init`. -/
def vmCheckpoints : Edit where
  old :=
    text "\ti386_vm_init(maxmemtouse, IA32e, kernelBootArgs);\n\n" rfl ++
    text "\tif ( ! PE_parse_boot_argn(\"novmx\", &noVMX, sizeof (noVMX)))" rfl
  new :=
    text "\tkprintf(\"[N570 ATOM-KERNEL] i386_init: before i386_vm_init IA32e=%d " rfl ++
    text "maxmem=0x%llx\\n\", IA32e, maxmemtouse);\n" rfl ++
    text "\ti386_vm_init(maxmemtouse, IA32e, kernelBootArgs);\n" rfl ++
    text "\tkprintf(\"[N570 ATOM-KERNEL] i386_init: after i386_vm_init\\n\");\n\n" rfl ++
    text "\tif ( ! PE_parse_boot_argn(\"novmx\", &noVMX, sizeof (noVMX)))" rfl
  label := "i386_init.c VM checkpoints"

/-- Checkpoints from `tsc_init` to `machine_startup`. -/
def lateCheckpoints : Edit where
  old :=
    text "\ttsc_init();\n\tpower_management_init();\n\n" rfl ++
    text "\tPE_init_platform(TRUE, kernelBootArgs);\n\n" rfl ++
    text "\t/* create the console for verbose or pretty mode */\n\tPE_create_console();\n\n" rfl ++
    text "\tprocessor_bootstrap();\n\tthread_bootstrap();\n\n\tmachine_startup();" rfl
  new :=
    text "\tkprintf(\"[N570 ATOM-KERNEL] i386_init: before tsc_init\\n\");\n\ttsc_init();\n" rfl ++
    text "\tkprintf(\"[N570 ATOM-KERNEL] i386_init: after tsc_init\\n\");\n" rfl ++
    text "\tkprintf(\"[N570 ATOM-KERNEL] i386_init: before power_management_init\\n\");\n" rfl ++
    text "\tpower_management_init();\n" rfl ++
    text "\tkprintf(\"[N570 ATOM-KERNEL] i386_init: after power_management_init\\n\");\n\n" rfl ++
    text "\tkprintf(\"[N570 ATOM-KERNEL] i386_init: before PE_init_platform(TRUE)\\n\");\n" rfl ++
    text "\tPE_init_platform(TRUE, kernelBootArgs);\n" rfl ++
    text "\tkprintf(\"[N570 ATOM-KERNEL] i386_init: after PE_init_platform(TRUE)\\n\");\n\n" rfl ++
    text "\t/* create the console for verbose or pretty mode */\n\tPE_create_console();\n" rfl ++
    text "\tkprintf(\"[N570 ATOM-KERNEL] i386_init: PE_create_console complete\\n\");\n\n" rfl ++
    text "\tkprintf(\"[N570 ATOM-KERNEL] i386_init: before processor_bootstrap\\n\");\n" rfl ++
    text "\tprocessor_bootstrap();\n" rfl ++
    text "\tkprintf(\"[N570 ATOM-KERNEL] i386_init: after processor_bootstrap\\n\");\n" rfl ++
    text "\tthread_bootstrap();\n" rfl ++
    text "\tkprintf(\"[N570 ATOM-KERNEL] i386_init: after thread_bootstrap; entering " rfl ++
    text "machine_startup\\n\");\n\n\tmachine_startup();" rfl
  label := "i386_init.c late checkpoints"

end

/-- The edits of `i386_init.c`, in their order. -/
def initEdits : List Edit :=
  [vstartEntry, pageTableCheckpoints, cpuModeCheckpoint, debugInfoDeclaration, cpuInitCheckpoints,
    cpuidDiagnostics, vmCheckpoints, lateCheckpoints]

/-! ### The script -/

/-- The repair, which is written at once. -/
def repair (i386InitText : List Char) : Script Unit := do
  if oldCpuModeCheckpoint <:+: i386InitText then
    let i386InitText ← MonadExcept.ofExcept (replaceOnce i386InitText repairCheckpoint)
    writeText .i386InitC i386InitText

/-- A tree that shows signs of the patch. -/
def migrate (hasAtomConstant hasMarkers : Bool) (cpuidCText : List Char) : Script Unit := do
  if hasAtomConstant ∧ hasMarkers ∧ oldAtomCase <:+: cpuidCText then
    let cpuidCText ← MonadExcept.ofExcept (replaceOnce cpuidCText migrateFamily)
    writeText .cpuidC cpuidCText
  else if hasAtomConstant ∧ hasMarkers ∧ newAtomCase <:+: cpuidCText then
    pure ()
  else
    throw .partially

/-- A file is read, edited and written. -/
def editFile (p : Path) (edits : List Edit) : Script Unit := do
  let text ← readText p
  let text ← MonadExcept.ofExcept (edits.foldlM replaceOnce text)
  writeText p text

/-- The fresh application: three files, one after the other. -/
def apply : Script Unit := do
  editFile .cpuidH [atomModelConstant]
  editFile .cpuidC [atomFamilyAcceptance]
  editFile .i386InitC initEdits

/-- The script. -/
def patch : Script Unit := do
  isfile .cpuidH
  isfile .cpuidC
  isfile .i386InitC
  let cpuidHText ← readText .cpuidH
  let cpuidCText ← readText .cpuidC
  let i386InitText ← readText .i386InitC
  let hasAtomConstant := decide (atomConstant <:+: cpuidHText)
  let hasMarkers := decide (n570Prefix <:+: i386InitText)
  repair i386InitText
  if hasAtomConstant || hasMarkers then
    migrate hasAtomConstant hasMarkers cpuidCText
  else
    apply

/-- The exit status of a run, and the tree that it leaves. -/
structure Outcome where
  status : Nat
  tree : Tree
  deriving DecidableEq

/-- A run of the script on a tree. -/
def run (t : Tree) : Outcome :=
  match Script.on patch t with
  | (.ok _, t') => ⟨0, t'⟩
  | (.error _, t') => ⟨1, t'⟩

/-! ### Runs -/

variable {α β : Type} {t t' : Tree} {p : Path} {h c i s s' : List Char} {e : Edit}
  {es : List Edit} {f : Failure} {hasAtomConstant hasMarkers : Bool}

theorem on_bind (x : Script α) (k : α → Script β) (t : Tree) :
    Script.on (x >>= k) t =
      match Script.on x t with
      | (.ok a, t') => Script.on (k a) t'
      | (.error e, t') => (.error e, t') := by
  change (match (ExceptT.run x).run t with
    | (r, t') => (ExceptT.bindCont k r).run t') = _
  change _ = (match (ExceptT.run x).run t with
      | (.ok a, t') => Script.on (k a) t'
      | (.error e, t') => (.error e, t'))
  rcases (ExceptT.run x).run t with ⟨r | a, t'⟩ <;> rfl

theorem on_bind_ok {x : Script α} {a : α} (k : α → Script β) (hx : Script.on x t = (.ok a, t')) :
    Script.on (x >>= k) t = Script.on (k a) t' := by
  rw [on_bind, hx]

theorem on_bind_error {x : Script α} (k : α → Script β) (hx : Script.on x t = (.error f, t')) :
    Script.on (x >>= k) t = (.error f, t') := by
  rw [on_bind, hx]

theorem on_readText (hp : t.get p = some (.text s)) : Script.on (readText p) t = (.ok s, t) := by
  change Script.on (match t.get p with
    | none => throw (.missing p)
    | some (.undecodable _) => throw (.undecodable p)
    | some (.text t) => pure t) t = _
  rw [hp]
  rfl

/-- A file that is missing or cannot be decoded. -/
theorem on_readText_error (hp : ∀ s, t.get p ≠ some (.text s)) :
    ∃ f, Script.on (readText p) t = (.error f, t) := by
  change ∃ f, Script.on (match t.get p with
    | none => throw (.missing p)
    | some (.undecodable _) => throw (.undecodable p)
    | some (.text t) => pure t) t = _
  split
  · exact ⟨_, rfl⟩
  · exact ⟨_, rfl⟩
  · next s hs => exact absurd hs (hp s)

/-! ### One edit, and several -/

theorem replaceOnce_of_count (h1 : count e.old s = 1) :
    replaceOnce s e = .ok (replaceFirst e.old e.new s) := by
  rw [replaceOnce, if_neg (by omega)]

theorem replaceOnce_of_ne (h1 : count e.old s ≠ 1) :
    replaceOnce s e = .error (.matches e.label (count e.old s)) := by
  rw [replaceOnce, if_pos h1]

/-- An edit that goes through replaces an occurrence. -/
theorem exists_of_count (he : e.old ≠ []) (h1 : count e.old s = 1) :
    ∃ a b, s = a ++ e.old ++ b ∧ replaceFirst e.old e.new s = a ++ e.new ++ b :=
  exists_replaceFirst _ he ((count_pos_iff he).1 (by omega))

/-- No edit makes or breaks a match of a later one. -/
def Independent (es : List Edit) : Prop :=
  (∀ e ∈ es, e.old ≠ [] ∧ Apart e.old e.old) ∧
    es.Pairwise fun f e =>
      Apart e.old f.old ∧ Apart e.old f.new ∧ occ e.old f.old = occ e.old f.new

instance : Decidable (Independent es) := inferInstanceAs (Decidable (_ ∧ _))

/-- Independent edits go through one after another just if each finds its match before the
first. -/
theorem foldlM_ok_iff (hes : Independent es) :
    (∃ s', es.foldlM replaceOnce s = .ok s') ↔ ∀ e ∈ es, count e.old s = 1 := by
  induction es generalizing s with
  | nil => simp [pure, Except.pure]
  | cons e es ih =>
    obtain ⟨hself, hpair⟩ := hes
    obtain ⟨hee, hes'⟩ := List.pairwise_cons.1 hpair
    obtain ⟨he, -⟩ := hself e List.mem_cons_self
    rw [List.foldlM_cons, List.forall_mem_cons]
    by_cases h1 : count e.old s = 1
    · obtain ⟨a, b, hs, hr⟩ := exists_of_count he h1
      -- the later matches survive the edit
      have hcount : ∀ e' ∈ es, count e'.old (a ++ e.new ++ b) = count e'.old s := by
        intro e' he'
        obtain ⟨hne, hapart⟩ := hself e' (List.mem_cons_of_mem _ he')
        obtain ⟨ho, hn, hocc⟩ := hee e' he'
        rw [count_eq_occ hapart hne, count_eq_occ hapart hne, hs, occ_replace ho hn hocc]
      have hih := ih (s := a ++ e.new ++ b)
        ⟨fun e' he' => hself e' (List.mem_cons_of_mem _ he'), hes'⟩
      rw [replaceOnce_of_count h1, hr]
      refine hih.trans ?_
      rw [and_iff_right h1]
      exact forall₂_congr fun e' he' => by rw [hcount e' he']
    · rw [replaceOnce_of_ne h1]
      simp [h1, bind, Except.bind]

theorem initEdits_independent : Independent initEdits := by
  have hself : ∀ e ∈ initEdits, e.old ≠ [] ∧ e.new ≠ [] ∧
      borderless codeBound (codes e.old) = true := by decide +kernel
  have hpair : initEdits.Pairwise fun f e =>
      foreignNumbers codeBound (codes e.old) (codes f.old) = true ∧
        foreignNumbers codeBound (codes e.old) (codes f.new) = true := by decide +kernel
  refine ⟨fun e he => ⟨(hself e he).1, apart_self_of_codes (hself e he).2.2⟩,
    hpair.imp_of_mem fun {f e} hf he h => ?_⟩
  obtain ⟨hfold, hfnew, -⟩ := hself f hf
  have hold := unrelated_of_codes h.1
  have hnew := unrelated_of_codes h.2
  refine ⟨hold.apart hfold, hnew.apart hfnew, ?_⟩
  rw [hold.occ_eq_zero (hself e he).1, hnew.occ_eq_zero (hself e he).1]

/-! ### The parts of the script -/

theorem on_repair_of_not (hi : ¬ oldCpuModeCheckpoint <:+: i) :
    Script.on (repair i) t = (.ok (), t) := by
  rw [repair, if_neg hi]
  rfl

theorem on_repair_of_count (hi : count oldCpuModeCheckpoint i = 1) :
    Script.on (repair i) t = (.ok (), t.put .i386InitC
      (.text (replaceFirst oldCpuModeCheckpoint newCpuModeCheckpoint i))) := by
  have hin : oldCpuModeCheckpoint <:+: i := (count_pos_iff (by decide)).1 (by omega)
  have hrep : replaceOnce i repairCheckpoint = .ok (replaceFirst oldCpuModeCheckpoint
      newCpuModeCheckpoint i) := replaceOnce_of_count hi
  rw [repair, if_pos hin, hrep]
  rfl

theorem on_repair_of_ne (hin : oldCpuModeCheckpoint <:+: i)
    (hi : count oldCpuModeCheckpoint i ≠ 1) :
    ∃ f, Script.on (repair i) t = (.error f, t) := by
  rw [repair, if_pos hin, replaceOnce_of_ne (e := repairCheckpoint) hi]
  exact ⟨_, rfl⟩

/-- The condition under which a tree that shows signs of the patch is accepted. -/
def Migrates (hasAtomConstant hasMarkers : Bool) (c : List Char) : Prop :=
  hasAtomConstant ∧ hasMarkers ∧
    (count oldAtomCase c = 1 ∨ ¬ oldAtomCase <:+: c ∧ newAtomCase <:+: c)

theorem on_migrate_of_count (h1 : count oldAtomCase c = 1) :
    Script.on (migrate true true c) t =
      (.ok (), t.put .cpuidC (.text (replaceFirst oldAtomCase newAtomCase c))) := by
  have hin : oldAtomCase <:+: c := (count_pos_iff (by decide)).1 (by omega)
  have hrep : replaceOnce c migrateFamily = .ok (replaceFirst oldAtomCase newAtomCase c) :=
    replaceOnce_of_count h1
  rw [migrate, if_pos ⟨rfl, rfl, hin⟩, hrep]
  rfl

theorem on_migrate_of_new (hold : ¬ oldAtomCase <:+: c) (hnew : newAtomCase <:+: c) :
    Script.on (migrate true true c) t = (.ok (), t) := by
  rw [migrate, if_neg (by simp [hold]), if_pos ⟨rfl, rfl, hnew⟩]
  rfl

theorem on_migrate (h : Migrates hasAtomConstant hasMarkers c) :
    ∃ t', Script.on (migrate hasAtomConstant hasMarkers c) t = (.ok (), t') := by
  obtain ⟨rfl, rfl, h1 | ⟨hold, hnew⟩⟩ := h
  · exact ⟨_, on_migrate_of_count h1⟩
  · exact ⟨_, on_migrate_of_new hold hnew⟩

theorem on_migrate_of_not (h : ¬ Migrates hasAtomConstant hasMarkers c) :
    ∃ f, Script.on (migrate hasAtomConstant hasMarkers c) t = (.error f, t) := by
  rw [migrate]
  split
  · next hold =>
    have h1 : count oldAtomCase c ≠ 1 := fun h1 => h ⟨hold.1, hold.2.1, .inl h1⟩
    rw [replaceOnce_of_ne (e := migrateFamily) h1]
    exact ⟨_, rfl⟩
  · next hold =>
    split
    · next hnew =>
      exact absurd ⟨hnew.1, hnew.2.1, .inr ⟨fun hc => hold ⟨hnew.1, hnew.2.1, hc⟩, hnew.2.2⟩⟩ h
    · exact ⟨_, rfl⟩

theorem on_editFile (hp : t.get p = some (.text s)) (hs : es.foldlM replaceOnce s = .ok s') :
    Script.on (editFile p es) t = (.ok (), t.put p (.text s')) := by
  rw [editFile, on_bind_ok _ (on_readText hp), hs]
  rfl

theorem on_editFile_of_error (hp : t.get p = some (.text s))
    (hs : es.foldlM replaceOnce s = .error f) :
    Script.on (editFile p es) t = (.error f, t) := by
  rw [editFile, on_bind_ok _ (on_readText hp), hs]
  rfl

theorem foldlM_single (e : Edit) (s : List Char) : [e].foldlM replaceOnce s = replaceOnce s e := by
  rw [List.foldlM_cons]
  cases replaceOnce s e <;> rfl

/-- An edit that makes a text longer changes it. -/
theorem replaceFirst_ne (he : e.old ≠ []) (h1 : count e.old s = 1)
    (hl : e.old.length < e.new.length) : replaceFirst e.old e.new s ≠ s := by
  obtain ⟨a, b, hs, hr⟩ := exists_of_count he h1
  intro heq
  have hlen := congrArg List.length (hr.symm.trans (heq.trans hs))
  simp only [List.length_append] at hlen
  omega

/-- A tree of three texts. -/
def Tree.of (h c i : List Char) : Tree := ⟨some (.text h), some (.text c), some (.text i)⟩

theorem Tree.of_inj {h' c' i' : List Char} :
    Tree.of h c i = Tree.of h' c' i' ↔ h = h' ∧ c = c' ∧ i = i' := by
  simp [Tree.of]

theorem on_apply (hh : count atomModelConstant.old h = 1)
    (hc : count atomFamilyAcceptance.old c = 1)
    (hi : initEdits.foldlM replaceOnce i = .ok s') :
    Script.on apply (Tree.of h c i) =
      (.ok (), Tree.of (replaceFirst atomModelConstant.old atomModelConstant.new h)
        (replaceFirst atomFamilyAcceptance.old atomFamilyAcceptance.new c) s') := by
  rw [apply, on_bind_ok _ (on_editFile rfl ((foldlM_single _ _).trans (replaceOnce_of_count hh))),
    on_bind_ok _ (on_editFile rfl ((foldlM_single _ _).trans (replaceOnce_of_count hc))),
    on_editFile rfl hi]
  rfl

theorem on_apply_of_ne (hh : count atomModelConstant.old h ≠ 1) :
    ∃ f, Script.on apply (Tree.of h c i) = (.error f, Tree.of h c i) :=
  ⟨_, by rw [apply, on_bind_error _
    (on_editFile_of_error rfl ((foldlM_single _ _).trans (replaceOnce_of_ne hh)))]⟩

/-- A later edit that fails leaves the edited `cpuid.h` behind. -/
theorem on_apply_half (hh : count atomModelConstant.old h = 1)
    (hci : ¬ (count atomFamilyAcceptance.old c = 1 ∧ ∀ e ∈ initEdits, count e.old i = 1)) :
    ∃ f t', Script.on apply (Tree.of h c i) = (.error f, t') ∧ t' ≠ Tree.of h c i := by
  have hne : ∀ c' i' : List Char,
      Tree.of (replaceFirst atomModelConstant.old atomModelConstant.new h) c' i' ≠
        Tree.of h c i := fun c' i' heq =>
    replaceFirst_ne (by decide) hh (by decide) (Tree.of_inj.1 heq).1
  rw [apply, on_bind_ok _ (on_editFile rfl ((foldlM_single _ _).trans (replaceOnce_of_count hh)))]
  by_cases hc : count atomFamilyAcceptance.old c = 1
  · -- `cpuid.c` is written too, and an edit of `i386_init.c` fails
    rw [on_bind_ok _ (on_editFile rfl ((foldlM_single _ _).trans (replaceOnce_of_count hc)))]
    cases hi : initEdits.foldlM replaceOnce i with
    | ok s' => exact absurd ⟨hc, (foldlM_ok_iff initEdits_independent).1 ⟨s', hi⟩⟩ hci
    | error f => exact ⟨f, _, on_editFile_of_error rfl hi, hne _ _⟩
  · have hfail := (foldlM_single atomFamilyAcceptance c).trans (replaceOnce_of_ne hc)
    rw [on_bind_error _ (on_editFile_of_error rfl hfail)]
    exact ⟨_, _, rfl, hne _ _⟩

/-! ### Whole runs -/

theorem on_patch (h c i : List Char) :
    Script.on patch (Tree.of h c i) = Script.on (do
      repair i
      if decide (atomConstant <:+: h) || decide (n570Prefix <:+: i) then
        migrate (decide (atomConstant <:+: h)) (decide (n570Prefix <:+: i)) c
      else
        apply) (Tree.of h c i) := rfl

theorem run_ok {u : Unit} (hr : Script.on patch t = (.ok u, t')) : run t = ⟨0, t'⟩ := by
  rw [run, hr]

theorem run_error (hr : Script.on patch t = (.error f, t')) : run t = ⟨1, t'⟩ := by
  rw [run, hr]

/-- A file that is missing or no text ends the run before anything is written. -/
theorem run_of_unreadable (ht : ∀ h c i, t ≠ Tree.of h c i) : run t = ⟨1, t⟩ := by
  obtain ⟨_ | (h | _), _ | (c | _), _ | (i | _)⟩ := t
  all_goals first
    | rfl
    | exact absurd rfl (ht h c i)

/-- No part of the script fails after one that has written a file: a checkpoint that is repaired
stands in a tree that is accepted, and the edits of a fresh tree go through if the first does. -/
def Tree.NoLateFailure (t : Tree) : Prop :=
  ∀ h c i, t = Tree.of h c i →
    (count oldCpuModeCheckpoint i = 1 → atomConstant <:+: h ∧
      (count oldAtomCase c = 1 ∨ ¬ oldAtomCase <:+: c ∧ newAtomCase <:+: c)) ∧
    (¬ atomConstant <:+: h → ¬ n570Prefix <:+: i → count atomModelConstant.old h = 1 →
      count atomFamilyAcceptance.old c = 1 ∧ ∀ e ∈ initEdits, count e.old i = 1)

theorem noLateFailure_of : (Tree.of h c i).NoLateFailure ↔
    (count oldCpuModeCheckpoint i = 1 → atomConstant <:+: h ∧
      (count oldAtomCase c = 1 ∨ ¬ oldAtomCase <:+: c ∧ newAtomCase <:+: c)) ∧
    (¬ atomConstant <:+: h → ¬ n570Prefix <:+: i → count atomModelConstant.old h = 1 →
      count atomFamilyAcceptance.old c = 1 ∧ ∀ e ∈ initEdits, count e.old i = 1) := by
  refine ⟨fun hl => hl h c i rfl, fun hl h' c' i' heq => ?_⟩
  obtain ⟨rfl, rfl, rfl⟩ := Tree.of_inj.1 heq
  exact hl

theorem prefix_of_checkpoint (hi : oldCpuModeCheckpoint <:+: i) : n570Prefix <:+: i :=
  List.IsInfix.trans (by decide +kernel) hi

/-- The repaired checkpoint is written before the rest of the tree is looked at. -/
theorem run_of_repair (h1 : count oldCpuModeCheckpoint i = 1) :
    ((run (Tree.of h c i)).status ≠ 0 → (run (Tree.of h c i)).tree = Tree.of h c i) ↔
      Migrates (decide (atomConstant <:+: h)) true c := by
  have hcp : oldCpuModeCheckpoint <:+: i := (count_pos_iff (by decide)).1 (by omega)
  have hM := prefix_of_checkpoint hcp
  have hon := on_patch h c i
  rw [on_bind_ok _ (on_repair_of_count h1), if_pos (by simp [hM]), decide_eq_true hM] at hon
  by_cases hm : Migrates (decide (atomConstant <:+: h)) true c
  · obtain ⟨t', ht'⟩ := on_migrate hm
    rw [run_ok (hon.trans ht')]
    exact ⟨fun _ => hm, fun _ h0 => absurd rfl h0⟩
  · obtain ⟨f, hf⟩ := on_migrate_of_not hm
    rw [run_error (hon.trans hf)]
    refine ⟨fun hr => ?_, fun hm' => absurd hm' hm⟩
    have hsame := (Tree.of_inj.1 (hr Nat.one_ne_zero)).2.2
    exact absurd hsame (replaceFirst_ne (e := repairCheckpoint) (by decide) h1 (by decide +kernel))

/-- Without a repair, a tree that shows signs of the patch is written last. -/
theorem run_of_marked (hcp : ¬ oldCpuModeCheckpoint <:+: i)
    (hm : atomConstant <:+: h ∨ n570Prefix <:+: i) (h0 : (run (Tree.of h c i)).status ≠ 0) :
    (run (Tree.of h c i)).tree = Tree.of h c i := by
  have hon := on_patch h c i
  rw [on_bind_ok _ (on_repair_of_not hcp), if_pos (by simpa using hm)] at hon
  by_cases hmig : Migrates (decide (atomConstant <:+: h)) (decide (n570Prefix <:+: i)) c
  · obtain ⟨t', ht'⟩ := on_migrate hmig
    rw [run_ok (hon.trans ht')] at h0
    exact absurd rfl h0
  · obtain ⟨f, hf⟩ := on_migrate_of_not hmig
    rw [run_error (hon.trans hf)]

theorem on_fresh (hA : ¬ atomConstant <:+: h) (hM : ¬ n570Prefix <:+: i) :
    Script.on patch (Tree.of h c i) = Script.on apply (Tree.of h c i) := by
  rw [on_patch, on_bind_ok _ (on_repair_of_not fun hcp => hM (prefix_of_checkpoint hcp)),
    if_neg (by simp [hA, hM])]

/-- A fresh tree is all or nothing just if the edits after the first go through with it. -/
theorem run_of_fresh (hA : ¬ atomConstant <:+: h) (hM : ¬ n570Prefix <:+: i) :
    ((run (Tree.of h c i)).status ≠ 0 → (run (Tree.of h c i)).tree = Tree.of h c i) ↔
      (count atomModelConstant.old h = 1 →
        count atomFamilyAcceptance.old c = 1 ∧ ∀ e ∈ initEdits, count e.old i = 1) := by
  have hon := on_fresh (c := c) hA hM
  by_cases hh : count atomModelConstant.old h = 1
  · by_cases hci : count atomFamilyAcceptance.old c = 1 ∧ ∀ e ∈ initEdits, count e.old i = 1
    · obtain ⟨s', hs'⟩ := (foldlM_ok_iff initEdits_independent).2 hci.2
      rw [run_ok (hon.trans (on_apply hh hci.1 hs'))]
      exact ⟨fun _ _ => hci, fun _ h0 => absurd rfl h0⟩
    · obtain ⟨f, t', ht', hne⟩ := on_apply_half hh hci
      rw [run_error (hon.trans ht')]
      exact ⟨fun hr => absurd (hr Nat.one_ne_zero) hne, fun hr => absurd (hr hh) hci⟩
  · obtain ⟨f, hf⟩ := on_apply_of_ne (c := c) (i := i) hh
    rw [run_error (hon.trans hf)]
    exact ⟨fun _ hh' => absurd hh' hh, fun _ _ => rfl⟩

/-- A run that ends with a status other than zero has changed nothing, just if no part of the
script fails after one that has written a file. -/
theorem run_all_or_nothing_iff (t : Tree) :
    ((run t).status ≠ 0 → (run t).tree = t) ↔ t.NoLateFailure := by
  by_cases ht : ∃ h c i, t = Tree.of h c i
  swap
  · -- a file that cannot be read ends the run before anything is written
    have ht' : ∀ h c i, t ≠ Tree.of h c i := fun h c i heq => ht ⟨h, c, i, heq⟩
    rw [run_of_unreadable ht']
    exact ⟨fun _ h c i heq => absurd heq (ht' h c i), fun _ _ => rfl⟩
  obtain ⟨h, c, i, rfl⟩ := ht
  rw [noLateFailure_of]
  by_cases hcp : oldCpuModeCheckpoint <:+: i
  · -- the old checkpoint is repaired first, and written
    have hM := prefix_of_checkpoint hcp
    by_cases h1 : count oldCpuModeCheckpoint i = 1
    · rw [run_of_repair h1, Migrates, decide_eq_true_iff]
      exact ⟨fun hm => ⟨fun _ => ⟨hm.1, hm.2.2⟩, fun _ hM' => absurd hM hM'⟩,
        fun hl => ⟨(hl.1 h1).1, rfl, (hl.1 h1).2⟩⟩
    · -- the repair itself is refused
      obtain ⟨f, hf⟩ := on_repair_of_ne (t := Tree.of h c i) hcp h1
      rw [run_error ((on_patch h c i).trans (on_bind_error _ hf))]
      exact ⟨fun _ => ⟨fun h1' => absurd h1' h1, fun _ hM' => absurd hM hM'⟩, fun _ _ => rfl⟩
  · -- without it only a fresh tree is changed
    have h0 : count oldCpuModeCheckpoint i ≠ 1 := by
      have := (count_eq_zero_iff (by decide)).2 hcp
      omega
    by_cases hm : atomConstant <:+: h ∨ n570Prefix <:+: i
    · refine ⟨fun _ => ⟨fun h1 => absurd h1 h0, fun hA hM => ?_⟩, fun _ => run_of_marked hcp hm⟩
      exact absurd hm (not_or.2 ⟨hA, hM⟩)
    · obtain ⟨hA, hM⟩ := not_or.1 hm
      rw [run_of_fresh hA hM]
      exact ⟨fun hr => ⟨fun h1 => absurd h1 h0, fun _ _ => hr⟩, fun hl => hl.2 hA hM⟩

end AtomPatch

end Kernel

end InstallKit
