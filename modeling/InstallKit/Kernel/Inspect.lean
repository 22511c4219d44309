import InstallKit.Kernel.Release

/-!
# The architecture gate

`inspect_artifact.py --require-arch` admits kernels, kexts and EFI drivers by the architectures that
`binary_arches` reads off the first 4096 bytes of a file.

* `Genuine` : the file says of itself, in its own format, that it has code for an architecture.
* `gate_sound_iff` : what passes is genuine exactly for the files whose headers agree with the
  shortcuts of `binary_arches`: it takes the architecture of a thin Mach-O file from the magic
  number alone, and reads the table of a 64-bit fat file with a stride of 24 bytes.
* `fat_header_exact` : when the table of a fat file is read as it stands there.
-/

namespace InstallKit

namespace Kernel

/-! ### `main` -/

/-- The choices of `--require-arch`. -/
inductive Required
  | i386 | x86_64
  deriving DecidableEq, Repr

/-- The name that `binary_arches` gives to it. -/
def Required.arch : Required → Arch
  | .i386 => .i386
  | .x86_64 => .x86_64

/-- Its `cputype` in a Mach-O header. -/
def Required.cputype : Required → ℕ
  | .i386 => 7
  | .x86_64 => 0x01000007

/-- Its machine field in a PE header. -/
def Required.machine : Required → ℕ
  | .i386 => 0x014C
  | .x86_64 => 0x8664

/-- `--binary` with the contents of the file, or `--kext` with the `CFBundleExecutable` of its
`Info.plist` and the contents of that executable; `none` is a file that is not there, or a property
list that cannot be read. -/
inductive Target
  | binary (file : Option Bytes)
  | kext (executableName : Option String) (executable : Option Bytes)

/-- `inspect_binary` and `inspect_kext`: the architectures and the declared executable. -/
def inspect : Target → Option (List Arch × String)
  | .binary file => file.map fun data => (binaryArches data, "")
  | .kext none _ => none
  | .kext (some "") _ => some ([], "")
  | .kext (some executableName) executable =>
    executable.map fun data => (binaryArches data, executableName)

/-- A plug-in without code has no architecture to check. -/
def plistOnlyKext : Target → String → Bool
  | .binary _, _ => false
  | .kext .., executableName => executableName = ""

/-- The exit status of `main`. -/
def main (target : Target) (requireArch : Option Required) : ℕ :=
  match inspect target with
  | none => 2
  | some (arches, executableName) =>
    match requireArch with
    | none => 0
    | some A => if A.arch ∉ arches ∧ !plistOnlyKext target executableName then 3 else 0

@[simp] theorem main_binary {file : Bytes} {A : Required} :
    main (.binary (some file)) (some A) = 0 ↔ A.arch ∈ binaryArches file := by
  simp [main, inspect, plistOnlyKext]

/-! ### What a file says of itself -/

/-- `cafebabe` and `cafebabf`. -/
def fatMagic : Bytes := [0xca, 0xfe, 0xba, 0xbe]
def fatMagic64 : Bytes := [0xca, 0xfe, 0xba, 0xbf]

/-- The big-endian word at an offset. -/
def word (file : Bytes) (start : ℕ) : ℕ := bigEndian (slice file start (start + 4))

/-- The size of an entry of a fat header: `fat_arch` and `fat_arch_64`. -/
def entrySize (magic : Bytes) : ℕ := if magic = fatMagic64 then 32 else 20

/-- The number of entries that a fat header declares. -/
def fatCount (file : Bytes) : ℕ := word file 4

/-- The `cputype` in the header of a thin Mach-O file, in the byte order of its magic number. -/
def thinCpu (file : Bytes) : Option ℕ :=
  let magic := file.take 4
  if file.length < 8 then none
  else if magic = [0xfe, 0xed, 0xfa, 0xce] ∨ magic = [0xfe, 0xed, 0xfa, 0xcf] then
    some (bigEndian (slice file 4 8))
  else if magic = [0xce, 0xfa, 0xed, 0xfe] ∨ magic = [0xcf, 0xfa, 0xed, 0xfe] then
    some (littleEndian (slice file 4 8))
  else none

/-- The machine field of a PE file. -/
def peMachine (file : Bytes) : Option ℕ :=
  let peOffset := littleEndian (slice file 0x3C 0x40)
  if file.take 2 = ascii "MZ" ∧ 0x40 ≤ file.length ∧ peOffset + 6 ≤ file.length ∧
      slice file peOffset (peOffset + 4) = ascii "PE\x00\x00" then
    some (littleEndian (slice file (peOffset + 4) (peOffset + 6)))
  else none

/-- The file has code for the architecture: a thin Mach-O file, a fat one, or a PE file. -/
inductive Genuine (file : Bytes) (A : Required) : Prop
  | thin (h : thinCpu file = some A.cputype)
  | fat (h : file.take 4 = fatMagic ∨ file.take 4 = fatMagic64) (j : ℕ) (hj : j < fatCount file)
    (hfit : 8 + j * entrySize (file.take 4) + 4 ≤ file.length)
    (hcpu : word file (8 + j * entrySize (file.take 4)) = A.cputype)
  | pe (h : peMachine file = some A.machine)

/-- PowerPC and ARM, 32 and 64 bits wide. -/
def Foreign (cpu : ℕ) : Prop := cpu ∈ [18, 0x01000012, 12, 0x0100000C, 0x0200000C]

/-- The headers say what `binary_arches` takes for granted: the `cputype` of a thin file is the one
that its magic number suggests, and what a 64-bit fat header shows in steps of 24 bytes it also shows
in steps of 32. -/
structure HeaderAgrees (file : Bytes) : Prop where
  thin : ∀ A : Required, thinArch (file.take 4) = some A.arch → thinCpu file = some A.cputype
  fat : file.take 4 = fatMagic64 → ∀ A : Required,
    (∃ i < min (fatCount file) 32, 8 + i * 24 + 4 ≤ file.length ∧
      word file (8 + i * 24) = A.cputype) →
    ∃ j < fatCount file, 8 + j * 32 + 4 ≤ file.length ∧ word file (8 + j * 32) = A.cputype

/-! ### Reading a prefix -/

variable {file data : Bytes} {A : Required} {stride n i : ℕ}

theorem slice_take {k start stop : ℕ} (h : stop ≤ k) :
    slice (file.take k) start stop = slice file start stop := by
  rw [slice, slice, List.take_take, Nat.min_eq_left h]

theorem word_take {k start : ℕ} (h : start + 4 ≤ k) : word (file.take k) start = word file start := by
  rw [word, word, slice_take h]

theorem mem_fatArches {a : Arch} : a ∈ fatArches data stride n i ↔
    ∃ j, i ≤ j ∧ j < i + n ∧ 8 + j * stride + 4 ≤ data.length ∧
      a = cpuName (word data (8 + j * stride)) := by
  induction n generalizing i with
  | zero =>
    simp only [fatArches, List.not_mem_nil, false_iff]
    rintro ⟨j, h₁, h₂, -⟩
    omega
  | succ n ih =>
    simp only [fatArches]
    split
    · -- no later entry fits either
      rename_i h
      simp only [List.not_mem_nil, false_iff]
      rintro ⟨j, h₁, -, hfit, -⟩
      have := Nat.mul_le_mul_right stride h₁
      omega
    · -- the first entry fits, and the others are those of the rest
      rename_i h
      rw [List.mem_cons, ih]
      constructor
      · rintro (rfl | ⟨j, h₁, h₂, hfit, rfl⟩)
        · exact ⟨i, le_refl i, by omega, by omega, rfl⟩
        · exact ⟨j, by omega, by omega, hfit, rfl⟩
      · rintro ⟨j, h₁, h₂, hfit, rfl⟩
        rcases Nat.eq_or_lt_of_le h₁ with rfl | hlt
        · exact Or.inl rfl
        · exact Or.inr ⟨j, hlt, by omega, hfit, rfl⟩

/-- A table that is there in full is read in full. -/
theorem fatArches_complete (hs : 4 ≤ stride) (h : 8 + (i + n) * stride ≤ data.length) :
    fatArches data stride n i =
      (List.range' i n).map fun j => cpuName (word data (8 + j * stride)) := by
  induction n generalizing i with
  | zero => rfl
  | succ n ih =>
    have hfit : 8 + i * stride + 4 ≤ data.length := by
      have := Nat.mul_le_mul_right stride (show i + 1 ≤ i + (n + 1) by omega)
      rw [Nat.add_one_mul] at this
      omega
    simp only [fatArches]
    rw [if_neg (by omega), ih (by rwa [show i + 1 + n = i + (n + 1) by omega])]
    rfl

theorem fromkeys_eq_eraseDups (l : List Arch) : fromkeys l = l.eraseDups := by
  have hfold : ∀ (l seen : List Arch),
      l.foldl (fun seen a => if a ∈ seen then seen else seen ++ [a]) seen =
        seen ++ (l.filter (· ∉ seen)).eraseDups := by
    intro l
    induction l with
    | nil => simp
    | cons a l ih =>
      intro seen
      rw [List.foldl_cons, ih]
      by_cases h : a ∈ seen
      · simp [h]
      · simp only [h, if_false, List.filter_cons, not_false_eq_true, decide_true, if_true,
          List.eraseDups_cons, List.append_assoc, List.singleton_append]
        congr 3
        rw [List.filter_filter]
        refine List.filter_congr fun b _ => ?_
        rw [beq_eq_decide]
        simp [Bool.and_comm]
  exact (hfold l []).trans (by simp)

@[simp] theorem mem_fromkeys {a : Arch} {l : List Arch} : a ∈ fromkeys l ↔ a ∈ l := by
  rw [fromkeys_eq_eraseDups]
  exact List.mem_eraseDups

theorem cpuName_eq_arch {cpu : ℕ} : cpuName cpu = A.arch ↔ cpu = A.cputype := by
  cases A <;> simp only [cpuName, Required.arch, Required.cputype] <;> grind

theorem peName_eq_arch {machine : ℕ} : peName machine = A.arch ↔ machine = A.machine := by
  cases A <;> simp only [peName, Required.arch, Required.machine] <;> grind

/-! ### Soundness -/

theorem thinArch_eq_none_of_fat {magic : Bytes} (h : magic = fatMagic ∨ magic = fatMagic64) :
    thinArch magic = none := by
  rcases h with rfl | rfl <;> decide

/-- What `binary_arches` makes of the first bytes of a file. -/
inductive Shape (file : Bytes) : List Arch → Prop
  | thin (arch : Arch) (h : thinArch (file.take 4) = some arch) : Shape file [arch]
  | fat (h : file.take 4 = fatMagic ∨ file.take 4 = fatMagic64) (hlen : 8 ≤ file.length) :
    Shape file (fromkeys (fatArches (file.take 4096) (if file.take 4 = fatMagic64 then 24 else 20)
      (min (fatCount file) 32) 0))
  | pe (h : thinArch (file.take 4) = none) (machine : ℕ)
    (hm : peMachine file = some machine) : Shape file [peName machine]
  | none : Shape file []

theorem take_four (file : Bytes) : (file.take 4096).take 4 = file.take 4 := by
  rw [List.take_take]
  rfl

/-- `binary_arches` sees one of the three formats, or nothing. -/
theorem shape_binaryArches (file : Bytes) : Shape file (binaryArches file) := by
  -- the first four kilobytes decide: thin, fat, PE
  have hlen : (file.take 4096).length = min 4096 file.length := List.length_take
  unfold binaryArches
  simp only [take_four]
  split
  · exact .none
  split
  · rename_i arch h
    exact .thin arch h
  rename_i hthin
  split
  · rename_i h
    split
    · exact .none
    · have hcount : bigEndian (slice (file.take 4096) 4 8) = fatCount file := by
        rw [slice_take (by omega)]
        rfl
      rw [hcount]
      exact .fat h (by omega)
  split
  · rename_i h
    unfold peArches
    simp only
    split
    · rename_i hpe
      have h₁ : slice (file.take 4096) 0x3C 0x40 = slice file 0x3C 0x40 := slice_take (by omega)
      rw [h₁] at hpe ⊢
      rw [slice_take (by omega)] at hpe
      rw [slice_take (by omega)]
      refine .pe hthin _ (if_pos ⟨?_, by omega, by omega, hpe.2⟩)
      rw [← h.1, List.take_take]
      rfl
    · exact .none
  · exact .none

theorem thinArch_isSome {magic : Bytes} {arch : Arch} (h : thinArch magic = some arch) :
    magic = [0xce, 0xfa, 0xed, 0xfe] ∨ magic = [0xfe, 0xed, 0xfa, 0xce] ∨
      magic = [0xcf, 0xfa, 0xed, 0xfe] ∨ magic = [0xfe, 0xed, 0xfa, 0xcf] := by
  simp only [thinArch] at h
  grind

theorem thinArch_isSome_of_thinCpu {cpu : ℕ} (h : thinCpu file = some cpu) :
    ∃ A : Required, thinArch (file.take 4) = some A.arch := by
  simp only [thinCpu] at h
  have hmagic : file.take 4 = [0xce, 0xfa, 0xed, 0xfe] ∨ file.take 4 = [0xfe, 0xed, 0xfa, 0xce] ∨
      file.take 4 = [0xcf, 0xfa, 0xed, 0xfe] ∨ file.take 4 = [0xfe, 0xed, 0xfa, 0xcf] := by
    grind
  rcases hmagic with h | h | h | h <;> rw [h]
  · exact ⟨.i386, by decide⟩
  · exact ⟨.i386, by decide⟩
  · exact ⟨.x86_64, by decide⟩
  · exact ⟨.x86_64, by decide⟩

theorem peMachine_eq_none {arch : Arch} (h : thinArch (file.take 4) = some arch) :
    peMachine file = none := by
  simp only [peMachine]
  refine if_neg fun hpe => ?_
  have hmz : (file.take 4).take 2 = ascii "MZ" := by
    rw [List.take_take]
    exact hpe.1
  rcases thinArch_isSome h with hm | hm | hm | hm <;> rw [hm] at hmz <;> revert hmz <;> decide

/-- A thin file is genuine by its `cputype` only. -/
theorem thinCpu_of_genuine (h : Genuine file A) {arch : Arch}
    (ht : thinArch (file.take 4) = some arch) : thinCpu file = some A.cputype := by
  cases h with
  | thin h => exact h
  | fat h =>
    rw [thinArch_eq_none_of_fat h] at ht
    cases ht
  | pe h =>
    rw [peMachine_eq_none ht] at h
    cases h

/-- A fat file is genuine by one of its entries only. -/
theorem entry_of_genuine (h : Genuine file A)
    (hf : file.take 4 = fatMagic ∨ file.take 4 = fatMagic64) :
    ∃ j < fatCount file, 8 + j * entrySize (file.take 4) + 4 ≤ file.length ∧
      word file (8 + j * entrySize (file.take 4)) = A.cputype := by
  cases h with
  | thin h =>
    obtain ⟨B, hB⟩ := thinArch_isSome_of_thinCpu h
    rw [thinArch_eq_none_of_fat hf] at hB
    cases hB
  | fat _ j hj hfit hcpu => exact ⟨j, hj, hfit, hcpu⟩
  | pe h =>
    exfalso
    simp only [peMachine] at h
    split at h
    · rename_i hpe
      have hmz : (file.take 4).take 2 = ascii "MZ" := by
        rw [List.take_take]
        exact hpe.1
      rcases hf with hm | hm <;> rw [hm] at hmz <;> revert hmz <;> decide
    · cases h

theorem binaryArches_of_thin {arch : Arch} (h : thinArch (file.take 4) = some arch) :
    binaryArches file = [arch] := by
  have hfour : (file.take 4).length = 4 := by
    rcases thinArch_isSome h with hm | hm | hm | hm <;> rw [hm] <;> rfl
  rw [List.length_take] at hfour
  unfold binaryArches
  simp only [take_four, h]
  rw [if_neg (by rw [List.length_take]; omega)]

theorem binaryArches_of_fat (h : file.take 4 = fatMagic ∨ file.take 4 = fatMagic64)
    (hlen : 8 ≤ file.length) : binaryArches file =
      fromkeys (fatArches (file.take 4096) (if file.take 4 = fatMagic64 then 24 else 20)
        (min (fatCount file) 32) 0) := by
  have hcount : bigEndian (slice (file.take 4096) 4 8) = fatCount file := by
    rw [slice_take (by omega)]
    rfl
  have hmin : (file.take 4096).length = min 4096 file.length := List.length_take
  unfold binaryArches
  simp only [take_four, thinArch_eq_none_of_fat h, hcount]
  rw [if_neg (by omega), if_pos (by exact h), if_neg (by omega)]
  rfl

/-- What `binary_arches` reports of a fat file, it has read from one of the first 32 entries. -/
theorem mem_of_fat {a : Arch} (h : file.take 4 = fatMagic ∨ file.take 4 = fatMagic64)
    (hlen : 8 ≤ file.length) : a ∈ binaryArches file ↔ ∃ j < min (fatCount file) 32,
      8 + j * (if file.take 4 = fatMagic64 then 24 else 20) + 4 ≤ file.length ∧
        a = cpuName (word file (8 + j * if file.take 4 = fatMagic64 then 24 else 20)) := by
  have hmin : (file.take 4096).length = min 4096 file.length := List.length_take
  rw [binaryArches_of_fat h hlen, mem_fromkeys, mem_fatArches]
  refine exists_congr fun j => ?_
  -- 32 entries of at most 24 bytes lie within the prefix
  have hsmall : j < min (fatCount file) 32 →
      8 + j * (if file.take 4 = fatMagic64 then 24 else 20) + 4 ≤ 4096 := by
    intro hj
    split <;> omega
  constructor
  · rintro ⟨-, hj, hfit, rfl⟩
    rw [Nat.zero_add] at hj
    exact ⟨hj, by omega, by rw [word_take (hsmall hj)]⟩
  · rintro ⟨hj, hfit, rfl⟩
    have := hsmall hj
    exact ⟨Nat.zero_le _, by omega, by omega, by rw [word_take (hsmall hj)]⟩

/-- Where the headers agree, what passes is genuine. -/
theorem genuine_of_mem (h : HeaderAgrees file) (hA : A.arch ∈ binaryArches file) :
    Genuine file A := by
  have hshape := shape_binaryArches file
  generalize hl : binaryArches file = arches at hshape hA
  cases hshape with
  | thin arch ht =>
    obtain rfl := List.mem_singleton.1 hA
    exact .thin (h.thin A ht)
  | fat hf hlen =>
    rw [← hl, mem_of_fat hf hlen] at hA
    obtain ⟨j, hj, hfit, hcpu⟩ := hA
    replace hcpu := cpuName_eq_arch.1 hcpu.symm
    by_cases h64 : file.take 4 = fatMagic64
    · rw [if_pos h64] at hfit hcpu
      obtain ⟨j', hj', hfit', hcpu'⟩ := h.fat h64 A ⟨j, hj, hfit, hcpu⟩
      have hsize : entrySize (file.take 4) = 32 := if_pos h64
      exact .fat hf j' hj' (by rwa [hsize]) (by rwa [hsize])
    · rw [if_neg h64] at hfit hcpu
      have hsize : entrySize (file.take 4) = 20 := if_neg h64
      exact .fat hf j (by omega) (by rwa [hsize]) (by rwa [hsize])
  | pe _ machine hm =>
    rw [peName_eq_arch.1 (List.mem_singleton.1 hA).symm] at hm
    exact .pe hm
  | none => cases hA

/-- **The gate is sound exactly on the files whose headers agree.** -/
theorem gate_sound_iff (file : Bytes) :
    ((∀ A : Required, main (.binary (some file)) (some A) = 0 → Genuine file A) ∧
      ∀ cpu, thinCpu file = some cpu → Foreign cpu → ∀ A : Required, A.arch ∉ binaryArches file) ↔
    HeaderAgrees file := by
  simp only [main_binary]
  constructor
  · rintro ⟨hsound, -⟩
    refine ⟨fun A ht => ?_, fun h64 A hA => ?_⟩
    · refine thinCpu_of_genuine (hsound A ?_) ht
      rw [binaryArches_of_thin ht]
      exact List.mem_singleton_self _
    · obtain ⟨i, hi, hfit, hcpu⟩ := hA
      have hmem : A.arch ∈ binaryArches file := by
        refine (mem_of_fat (Or.inr h64) (by omega)).2 ⟨i, hi, ?_, ?_⟩ <;> rw [if_pos h64]
        · exact hfit
        · exact (cpuName_eq_arch.2 hcpu).symm
      have hentry := entry_of_genuine (hsound A hmem) (Or.inr h64)
      rwa [show entrySize (file.take 4) = 32 from if_pos h64] at hentry
  · refine fun h => ⟨fun A hA => genuine_of_mem h hA, fun cpu hcpu hforeign A hA => ?_⟩
    obtain ⟨B, hB⟩ := thinArch_isSome_of_thinCpu hcpu
    rw [h.thin B hB] at hcpu
    obtain rfl := Option.some.inj hcpu
    revert hforeign
    cases B <;> simp [Foreign, Required.cputype]

/-- A PowerPC kernel: the magic number of a 32-bit big-endian file, and `cputype` 18. -/
def powerPcKernel : Bytes := [0xfe, 0xed, 0xfa, 0xce, 0x00, 0x00, 0x00, 0x12]

/-- **A PowerPC kernel passes as `i386`**: the magic number tells the width of a file, not its
architecture. -/
theorem powerPc_passes : main (.binary (some powerPcKernel)) (some .i386) = 0 ∧
    thinCpu powerPcKernel = some 18 ∧ ¬ Genuine powerPcKernel .i386 := by
  refine ⟨by decide, by decide, fun h => ?_⟩
  have hcpu := thinCpu_of_genuine h (show thinArch (powerPcKernel.take 4) = some .i386 by decide)
  revert hcpu
  decide

/-! ### Fat headers -/

/-- The `cputype`s that a table shows in steps of `stride`. -/
def tableCpus (file : Bytes) (stride : ℕ) : List ℕ :=
  (List.range (fatCount file)).map fun j => word file (8 + j * stride)

/-- What `binary_arches` shall report: the names of the entries in order, without duplicates. -/
def tableArches (file : Bytes) : List Arch :=
  ((tableCpus file (entrySize (file.take 4))).map cpuName).eraseDups

/-- A fat header with at most 32 entries, all of which are there. -/
structure FatHeader (file : Bytes) : Prop where
  magic : file.take 4 = fatMagic ∨ file.take 4 = fatMagic64
  count : fatCount file ≤ 32
  complete : 8 + fatCount file * entrySize (file.take 4) ≤ file.length

theorem cpuName_injective : Function.Injective cpuName := by
  intro m n h
  simp only [cpuName] at h
  grind

theorem eraseDups_map {α β : Type} [DecidableEq α] [DecidableEq β] {f : α → β}
    (hf : Function.Injective f) (l : List α) : (l.map f).eraseDups = l.eraseDups.map f := by
  induction hn : l.length using Nat.strongRecOn generalizing l with
  | _ n ih =>
    cases l with
    | nil => rfl
    | cons a l =>
      have hlt : (l.filter fun b => !b == a).length < n := by
        rw [← hn]
        exact Nat.lt_succ_of_le (List.length_filter_le _ _)
      have hfilter : (l.map f).filter (fun b => !b == f a) = (l.filter fun b => !b == a).map f := by
        rw [List.filter_map]
        congr 1
        refine List.filter_congr fun b _ => ?_
        simp [hf.eq_iff]
      rw [List.map_cons, List.eraseDups_cons, List.eraseDups_cons, List.map_cons, hfilter,
        ih _ hlt _ rfl]

/-- What `binary_arches` reports of a table that is there in full. -/
theorem binaryArches_of_header (h : FatHeader file) : binaryArches file =
    ((tableCpus file (if file.take 4 = fatMagic64 then 24 else 20)).map cpuName).eraseDups := by
  have hcount := h.count
  have hcomplete := h.complete
  have hlen : (file.take 4096).length = min 4096 file.length := List.length_take
  rw [binaryArches_of_fat h.magic (by omega), Nat.min_eq_left h.count, fromkeys_eq_eraseDups]
  have hfits : 8 + (0 + fatCount file) * (if file.take 4 = fatMagic64 then 24 else 20) ≤
      (file.take 4096).length := by
    simp only [entrySize] at hcomplete
    split <;> rename_i hm
    · rw [if_pos hm] at hcomplete
      omega
    · rw [if_neg hm] at hcomplete
      omega
  rw [fatArches_complete (by split <;> omega) hfits, tableCpus, List.map_map,
    ← List.range_eq_range']
  congr 1
  refine List.map_congr_left fun j hj => ?_
  have hj := List.mem_range.1 hj
  rw [Function.comp_apply, word_take]
  split <;> omega

/-- The same loop over the whole file. -/
theorem fatArches_of_header (h : FatHeader file) :
    fatArches file (if file.take 4 = fatMagic64 then 24 else 20) (fatCount file) 0 =
      (tableCpus file (if file.take 4 = fatMagic64 then 24 else 20)).map cpuName := by
  have hcomplete := h.complete
  have hfits : 8 + (0 + fatCount file) * (if file.take 4 = fatMagic64 then 24 else 20) ≤
      file.length := by
    simp only [entrySize] at hcomplete
    split <;> rename_i hm
    · rw [if_pos hm] at hcomplete
      omega
    · rw [if_neg hm] at hcomplete
      omega
  rw [fatArches_complete (by split <;> omega) hfits, tableCpus, List.map_map,
    ← List.range_eq_range']
  rfl

/-- **A fat header is read exactly** when its entries have 20 bytes, or when the words that lie 24
bytes apart name the same architectures as the entries, which lie 32 bytes apart.  The prefix of 4096
bytes never matters: the whole file gives the same answer. -/
theorem fat_header_exact (file : Bytes) (h : FatHeader file) :
    (binaryArches file = tableArches file ↔
      file.take 4 = fatMagic ∨ (tableCpus file 24).eraseDups = (tableCpus file 32).eraseDups) ∧
    binaryArches file = fromkeys (fatArches file (if file.take 4 = fatMagic64 then 24 else 20)
      (fatCount file) 0) := by
  refine ⟨?_, by rw [fatArches_of_header h, fromkeys_eq_eraseDups, binaryArches_of_header h]⟩
  rw [binaryArches_of_header h, tableArches, entrySize]
  by_cases h64 : file.take 4 = fatMagic64
  · have hne : file.take 4 ≠ fatMagic := by
      rw [h64]
      decide
    rw [if_pos h64, if_pos h64, or_iff_right hne, eraseDups_map cpuName_injective,
      eraseDups_map cpuName_injective]
    exact (List.map_injective_iff.2 cpuName_injective).eq_iff
  · have h32 := h.magic.resolve_right h64
    rw [if_neg h64, if_neg h64]
    exact iff_of_true rfl (Or.inl h32)

/-- A universal binary with an `i386` and an `x86_64` slice. -/
def universalBinary : Bytes :=
  [0xca, 0xfe, 0xba, 0xbe, 0, 0, 0, 2] ++
    [0, 0, 0, 7, 0, 0, 0, 3, 0, 0, 0x10, 0, 0, 0, 0x20, 0, 0, 0, 0, 12] ++
    [1, 0, 0, 7, 0, 0, 0, 3, 0, 0, 0x30, 0, 0, 0, 0x20, 0, 0, 0, 0, 12]

theorem universalBinary_exact : tableArches universalBinary = [.i386, .x86_64] ∧
    binaryArches universalBinary = tableArches universalBinary :=
  ⟨by decide +kernel, (fat_header_exact universalBinary ⟨by decide, by decide, by decide⟩).1.2
    (Or.inl (by decide))⟩

/-- A 64-bit fat header with an `i386` and an `x86_64` slice. -/
def wideBinary : Bytes :=
  [0xca, 0xfe, 0xba, 0xbf, 0, 0, 0, 2] ++
    ([0, 0, 0, 7, 0, 0, 0, 3] ++ [0, 0, 0, 0, 0, 0, 0x10, 0] ++ [0, 0, 0, 0, 0, 0, 0x20, 0] ++
      [0, 0, 0, 12, 0, 0, 0, 0]) ++
    ([1, 0, 0, 7, 0, 0, 0, 3] ++ [0, 0, 0, 0, 0, 0, 0x30, 0] ++ [0, 0, 0, 0, 0, 0, 0x20, 0] ++
      [0, 0, 0, 12, 0, 0, 0, 0])

/-- **The second slice of a 64-bit fat file is misread**: 24 bytes after the first entry stands its
alignment. -/
theorem wideBinary_misread : FatHeader wideBinary ∧
    tableArches wideBinary = [.i386, .x86_64] ∧ binaryArches wideBinary = [.i386, .cpu 12] :=
  ⟨⟨by decide, by decide, by decide⟩, by decide +kernel, by decide +kernel⟩

end Kernel

end InstallKit
