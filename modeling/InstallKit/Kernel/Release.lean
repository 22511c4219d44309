import Mathlib.Data.Nat.Notation
import Mathlib.Data.List.Infix

/-!
# Which release a kernel file is

`inspect_artifact.py` reads the architectures of a Mach-O or PE file off its first bytes;
`validate_kernel_release` of `prepare_emachines_d640_snowleopard.sh` asks it for an `i386` slice and
then looks for one of two version strings anywhere in the file.
-/

namespace InstallKit

namespace Kernel

/-- The contents of a file. -/
abbrev Bytes := List UInt8

/-- The bytes of an ASCII text. -/
def ascii (text : String) : Bytes := text.toList.map fun c => UInt8.ofNat c.toNat

/-- `LC_ALL=C grep -aFq text file`, for a text without a newline. -/
def grep (text : String) (file : Bytes) : Bool := decide (ascii text <:+: file)

/-! ### `inspect_artifact.py` -/

/-- `struct.unpack(">I", ...)` and the like: big-endian. -/
def bigEndian (data : Bytes) : ℕ := data.foldl (fun n b => 256 * n + b.toNat) 0

/-- `struct.unpack("<I", ...)` and the like: little-endian. -/
def littleEndian (data : Bytes) : ℕ := bigEndian data.reverse

/-- `data[start:stop]`. -/
def slice (data : Bytes) (start stop : ℕ) : Bytes := (data.take stop).drop start

/-- The names that `inspect_artifact.py` gives to architectures. -/
inductive Arch
  | i386 | x86_64 | ppc | ppc64
  /-- `cpu-0x...`. -/
  | cpu (type : ℕ)
  /-- `pe-0x...`. -/
  | pe (machine : ℕ)
  deriving DecidableEq, Repr

/-- `CPU_NAMES`. -/
def cpuName (type : ℕ) : Arch :=
  if type = 7 then .i386
  else if type = 0x01000007 then .x86_64
  else if type = 18 then .ppc
  else if type = 0x01000012 then .ppc64
  else .cpu type

/-- `PE_NAMES`. -/
def peName (machine : ℕ) : Arch :=
  if machine = 0x014C then .i386
  else if machine = 0x8664 then .x86_64
  else .pe machine

/-- The architecture of a thin Mach-O file, by its magic number. -/
def thinArch (magic : Bytes) : Option Arch :=
  if magic = [0xce, 0xfa, 0xed, 0xfe] ∨ magic = [0xfe, 0xed, 0xfa, 0xce] then some .i386
  else if magic = [0xcf, 0xfa, 0xed, 0xfe] ∨ magic = [0xfe, 0xed, 0xfa, 0xcf] then some .x86_64
  else none

/-- The entries of a fat header from `index` on, `fuel` of them at most. -/
def fatArches (data : Bytes) (stride : ℕ) : ℕ → ℕ → List Arch
  | 0, _ => []
  | fuel + 1, index =>
    let start := 8 + index * stride
    if start + 4 > data.length then []
    else cpuName (bigEndian (slice data start (start + 4))) :: fatArches data stride fuel (index + 1)

/-- `list(dict.fromkeys(...))`: the first occurrences, in order. -/
def fromkeys (arches : List Arch) : List Arch :=
  arches.foldl (fun seen a => if a ∈ seen then seen else seen ++ [a]) []

/-- The architecture of a PE file. -/
def peArches (data : Bytes) : List Arch :=
  let peOffset := littleEndian (slice data 0x3C 0x40)
  if peOffset + 6 ≤ data.length ∧ slice data peOffset (peOffset + 4) = ascii "PE\x00\x00" then
    [peName (littleEndian (slice data (peOffset + 4) (peOffset + 6)))]
  else []

/-- `binary_arches`. -/
def binaryArches (file : Bytes) : List Arch :=
  let data := file.take 4096
  if data.length < 4 then [] else
    let magic := data.take 4
    match thinArch magic with
    | some arch => [arch]
    | none =>
      if magic = [0xca, 0xfe, 0xba, 0xbe] ∨ magic = [0xca, 0xfe, 0xba, 0xbf] then
        if data.length < 8 then [] else
          let stride := if magic = [0xca, 0xfe, 0xba, 0xbf] then 24 else 20
          fromkeys (fatArches data stride (min (bigEndian (slice data 4 8)) 32) 0)
      else if data.take 2 = ascii "MZ" ∧ 0x40 ≤ data.length then peArches data
      else []

/-! ### `prepare_emachines_d640_snowleopard.sh` -/

/-- `validate_kernel_release`, on the contents of the file if there is one. -/
def validateKernelRelease (kernel : String) (file : Option Bytes) (darwin xnu : String) :
    Except String Unit :=
  match file with
  | none => .error ("AMD kernel not found: " ++ kernel)
  | some data =>
    if Arch.i386 ∉ binaryArches data then
      .error ("AMD kernel does not expose a confirmed i386 Mach-O slice: " ++ kernel)
    else if grep ("Darwin Kernel Version " ++ darwin) data then .ok ()
    else if grep ("xnu-" ++ xnu) data then .ok ()
    else .error ("Kernel " ++ kernel ++ " does not match Darwin " ++ darwin ++ " / xnu-" ++ xnu)

/-- `resolve_1063_kernel`: the kernel of the command line, or the cached one. -/
def resolve1063Kernel (read : String → Option Bytes) (kernel1063 cached : String) :
    Except String String := do
  let kernel := if kernel1063 = "" then cached else kernel1063
  if kernel = "" then .error ("10.6.3 AMD kernel is missing. Run --download/" ++
    "--download-kernels or pass --kernel-1063.")
  validateKernelRelease kernel (read kernel) "10.3.0" "1504.3.12"
  return kernel

end Kernel

end InstallKit
