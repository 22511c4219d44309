import InstallKit.Kernel.AtomPatch
import InstallKit.Sources.Text
import InstallKit.Text.Utf8

/-!
# The Atom patch on the bytes of the files

The script runs under Python 2 and Python 3.  A `str` of Python 2 is a string of bytes, which
`read_text` leaves as it is; Python 3 decodes UTF-8, and a file that is no UTF-8 ends the run.

* `write_read`, `read_write` : a file that is read and written back has its bytes, and what the
  script writes is read as the text that it has made;
* `patch_all_or_nothing_iff` : the bytes of the three files after a run that fails.
-/

namespace InstallKit

namespace Kernel

namespace AtomPatch

open Text

/-- The interpreter that runs the script. -/
inductive Python
  | two
  | three
  deriving DecidableEq

/-- The bytes of the files that the script edits. -/
abbrev Files := Path → Option (List UInt8)

namespace Python

/-- `read_text`.  The bytes of Python 2 are the characters below 256. -/
def read : Python → List UInt8 → Content
  | .two, data => .text (data.map fun b => Char.ofNat b.toNat)
  | .three, data =>
    match data.toByteArray.utf8Decode? with
    | some t => .text t.toList
    | none => .undecodable data

/-- `write_text`.  A file that was not decoded is never written. -/
def write : Python → Content → List UInt8
  | _, .undecodable data => data
  | .two, .text t => t.map fun c => UInt8.ofNat c.toNat
  | .three, .text t => utf8 t

variable (py : Python)

/-- The tree that the script reads. -/
def tree (files : Files) : Tree :=
  ⟨(files .cpuidH).map py.read, (files .cpuidC).map py.read, (files .i386InitC).map py.read⟩

/-- The files of a tree. -/
def files (t : Tree) : Files := fun p => (t.get p).map py.write

/-- The exit status of a run, and the files that it leaves. -/
structure Outcome where
  status : Nat
  files : Files

/-- A run of the script on the files. -/
def run (files : Files) : Outcome :=
  let o := AtomPatch.run (py.tree files)
  ⟨o.status, py.files o.tree⟩

/-! ### Reading and writing -/

variable {py} {files : Files} {t : Tree} {s : List Char} {e : Edit} {es : List Edit}

theorem get_tree (p : Path) : (py.tree files).get p = (files p).map py.read := by
  cases p <;> rfl

theorem toNat_ofNat_byte (b : UInt8) : (Char.ofNat b.toNat).toNat = b.toNat :=
  Sources.toNat_charOfNat (Or.inl (lt_trans b.toNat_lt (by decide)))

/-- What was read is written back as it was. -/
theorem write_read (data : List UInt8) : py.write (py.read data) = data := by
  cases py with
  | two =>
    rw [read, write, List.map_map]
    refine (List.map_congr_left fun b _ => ?_).trans (List.map_id _)
    rw [Function.comp, toNat_ofNat_byte, UInt8.ofNat_toNat]
    rfl
  | three =>
    rw [read]
    split
    · rename_i t ht
      have hdecode : data.toByteArray.utf8Decode?.isSome = true := by rw [ht]; rfl
      have hget : data.toByteArray.utf8Decode?.get hdecode = t := by simp [ht]
      have hbytes := ByteArray.utf8Encode_get_utf8Decode? (b := data.toByteArray) (h := hdecode)
      rw [hget] at hbytes
      have hdata := congrArg (·.data.toList) hbytes
      simpa [List.utf8Encode, write, utf8] using hdata
    · rfl

/-- The characters that the interpreter can write. -/
def Fits : Python → List Char → Prop
  | .two, s => ∀ c ∈ s, c.toNat < 256
  | .three, _ => True

/-- What was written is read as the same text. -/
theorem read_write (h : py.Fits s) : py.read (py.write (.text s)) = .text s := by
  cases py with
  | two =>
    rw [write, read, List.map_map]
    congr 1
    refine (List.map_congr_left fun c hc => ?_).trans (List.map_id _)
    rw [Function.comp, UInt8.toNat_ofNat', Nat.mod_eq_of_lt (h c hc), Char.ofNat_toNat]
    rfl
  | three =>
    have hdecode : (utf8 s).toByteArray.utf8Decode? = some s.toArray :=
      List.utf8Decode?_utf8Encode
    rw [write, read, hdecode]

/-! ### What the script writes -/

/-- Every file of the tree is what the interpreter reads. -/
def FitsTree (py : Python) (t : Tree) : Prop := ∀ p c, t.get p = some c → py.read (py.write c) = c

theorem fitsTree_tree (py : Python) (files : Files) : py.FitsTree (py.tree files) := by
  intro p c hc
  rw [get_tree, Option.map_eq_some_iff] at hc
  obtain ⟨data, -, rfl⟩ := hc
  rw [write_read]

/-- A text that was read can be written. -/
theorem FitsTree.fits {p : Path} (h : py.FitsTree t) (hp : t.get p = some (.text s)) :
    py.Fits s := by
  cases py with
  | two =>
    have hread := h p _ hp
    rw [write, read, Content.text.injEq] at hread
    intro c hc
    rw [← hread, List.map_map] at hc
    obtain ⟨c', -, rfl⟩ := List.mem_map.1 hc
    rw [Function.comp, toNat_ofNat_byte]
    exact UInt8.toNat_lt _
  | three => trivial

/-- A file that is written with such a text. -/
theorem FitsTree.put {p : Path} (h : py.FitsTree t) (hs : py.Fits s) :
    py.FitsTree (t.put p (.text s)) := by
  intro p' c hc
  by_cases hp : p' = p
  · subst hp
    have hput : (t.put p' (.text s)).get p' = some (.text s) := by cases p' <;> rfl
    obtain rfl := Option.some.inj (hput.symm.trans hc)
    exact read_write hs
  · have hput : (t.put p (.text s)).get p' = t.get p' := by
      cases p <;> cases p' <;> first | rfl | exact absurd rfl hp
    exact h p' c (hput ▸ hc)

/-- A part of the script that keeps the trees of the interpreter, with what holds of its result. -/
def Keeps {α : Type} (py : Python) (x : Script α) (Q : α → Prop) : Prop :=
  ∀ t, py.FitsTree t →
    py.FitsTree (Script.on x t).2 ∧ ∀ a, (Script.on x t).1 = .ok a → Q a

section

variable {α β : Type} {x : Script α} {Q : α → Prop} {R : β → Prop}

theorem keeps_pure {a : α} (h : Q a) : py.Keeps (pure a) Q :=
  fun _ ht => ⟨ht, fun _ ha => Except.ok.inj ha ▸ h⟩

theorem keeps_throw (f : Failure) : py.Keeps (throw f : Script α) Q :=
  fun _ ht => ⟨ht, fun _ ha => nomatch ha⟩

theorem keeps_ofExcept {r : Except Failure α} (h : ∀ a, r = .ok a → Q a) :
    py.Keeps (MonadExcept.ofExcept r) Q := by
  cases r with
  | ok a => exact keeps_pure (h a rfl)
  | error f => exact keeps_throw f

theorem Keeps.bind {k : α → Script β} (hx : py.Keeps x Q) (hk : ∀ a, Q a → py.Keeps (k a) R) :
    py.Keeps (x >>= k) R := by
  intro t ht
  obtain ⟨htree, hval⟩ := hx t ht
  rw [on_bind]
  rcases h : Script.on x t with ⟨r, t'⟩
  rw [h] at htree hval
  cases r with
  | ok a => exact hk a (hval a rfl) t' htree
  | error f => exact ⟨htree, fun _ hb => nomatch hb⟩

end

theorem keeps_isfile (p : Path) : py.Keeps (isfile p) fun _ => True := by
  intro t ht
  change py.FitsTree (Script.on (if (t.get p).isNone then throw (.missing p) else pure ()) t).2 ∧ _
  split
  · exact ⟨ht, fun _ _ => trivial⟩
  · exact ⟨ht, fun _ _ => trivial⟩

theorem keeps_readText (p : Path) : py.Keeps (readText p) py.Fits := by
  intro t ht
  by_cases hp : ∃ s, t.get p = some (.text s)
  · obtain ⟨s, hs⟩ := hp
    rw [on_readText hs]
    exact ⟨ht, fun _ ha => Except.ok.inj ha ▸ ht.fits hs⟩
  · obtain ⟨f, hf⟩ := on_readText_error (not_exists.1 hp)
    rw [hf]
    exact ⟨ht, fun _ ha => by cases ha⟩

theorem keeps_writeText {p : Path} (hs : py.Fits s) : py.Keeps (writeText p s) fun _ => True :=
  fun _ ht => ⟨ht.put hs, fun _ _ => trivial⟩

/-! ### Edits -/

theorem fits_replaceFirst {old new : List Char} (hs : py.Fits s) (hnew : py.Fits new) :
    py.Fits (replaceFirst old new s) := by
  cases py with
  | two =>
    induction s with
    | nil => exact hs
    | cons x s ih =>
      rw [replaceFirst]
      split
      · intro c hc
        rcases List.mem_append.1 hc with hc | hc
        · exact hnew c hc
        · exact hs c (List.mem_of_mem_drop hc)
      · exact List.forall_mem_cons.2 ⟨hs x List.mem_cons_self,
          ih fun c hc => hs c (List.mem_cons_of_mem _ hc)⟩
  | three => trivial

theorem fits_replaceOnce (hs : py.Fits s) (hnew : py.Fits e.new) {s' : List Char}
    (h : replaceOnce s e = .ok s') : py.Fits s' := by
  rw [replaceOnce] at h
  split at h
  · cases h
  · obtain rfl := Except.ok.inj h
    exact fits_replaceFirst hs hnew

theorem fits_foldlM (hs : py.Fits s) (hnew : ∀ e ∈ es, py.Fits e.new) {s' : List Char}
    (h : es.foldlM replaceOnce s = .ok s') : py.Fits s' := by
  induction es generalizing s with
  | nil => exact Except.ok.inj h ▸ hs
  | cons e es ih =>
    rw [List.forall_mem_cons] at hnew
    rw [List.foldlM_cons] at h
    cases hr : replaceOnce s e with
    | ok r =>
      rw [hr] at h
      exact ih (fits_replaceOnce hs hnew.1 hr) hnew.2 h
    | error f =>
      rw [hr] at h
      cases h

/-- The edits of the script put ASCII into the files. -/
theorem fits_new : ∀ e ∈ repairCheckpoint :: migrateFamily :: atomModelConstant ::
    atomFamilyAcceptance :: initEdits, py.Fits e.new := by
  cases py with
  | two =>
    have hascii : ∀ e ∈ repairCheckpoint :: migrateFamily :: atomModelConstant ::
        atomFamilyAcceptance :: initEdits, e.new.all (·.toNat < 256) = true := by decide +kernel
    exact fun e he c hc => by simpa using List.all_eq_true.1 (hascii e he) c hc
  | three => exact fun _ _ => trivial

theorem keeps_editFile {p : Path} (hnew : ∀ e ∈ es, py.Fits e.new) :
    py.Keeps (editFile p es) fun _ => True := by
  refine (keeps_readText p).bind fun s hs => ?_
  refine (keeps_ofExcept (Q := py.Fits) fun s' h => fits_foldlM hs hnew h).bind fun s' hs' => ?_
  exact keeps_writeText hs'

/-- One edit of a text that was read, and its file. -/
theorem keeps_edit {p : Path} (hs : py.Fits s) (hnew : py.Fits e.new) :
    py.Keeps (do
      let s ← MonadExcept.ofExcept (replaceOnce s e)
      writeText p s) fun _ => True :=
  (keeps_ofExcept (Q := py.Fits) fun _ h => fits_replaceOnce hs hnew h).bind
    fun _ hs' => keeps_writeText hs'

theorem keeps_repair (hs : py.Fits s) : py.Keeps (repair s) fun _ => True := by
  unfold repair
  split
  · exact keeps_edit hs (fits_new _ (by simp))
  · exact keeps_pure trivial

theorem keeps_migrate {hasAtomConstant hasMarkers : Bool} (hs : py.Fits s) :
    py.Keeps (migrate hasAtomConstant hasMarkers s) fun _ => True := by
  unfold migrate
  split
  · exact keeps_edit hs (fits_new _ (by simp))
  · split
    · exact keeps_pure trivial
    · exact keeps_throw _

theorem keeps_apply : py.Keeps apply fun _ => True := by
  refine (keeps_editFile ?_).bind fun _ _ => ?_
  · exact fun e he => fits_new e (by simp [List.mem_singleton.1 he])
  refine (keeps_editFile ?_).bind fun _ _ => ?_
  · exact fun e he => fits_new e (by simp [List.mem_singleton.1 he])
  · exact keeps_editFile fun e he => fits_new e (by simp [he])

/-- **The script writes what its interpreter reads as the same text.** -/
theorem keeps_patch : py.Keeps patch fun _ => True := by
  refine (keeps_isfile _).bind fun _ _ => (keeps_isfile _).bind fun _ _ =>
    (keeps_isfile _).bind fun _ _ => ?_
  refine (keeps_readText _).bind fun h _ => (keeps_readText _).bind fun c hc =>
    (keeps_readText _).bind fun i hi => ?_
  refine (keeps_repair hi).bind fun _ _ => ?_
  split
  · exact keeps_migrate hc
  · exact keeps_apply

theorem fitsTree_run (files : Files) : py.FitsTree (AtomPatch.run (py.tree files)).tree := by
  have hkeeps : py.Keeps patch fun _ => True := keeps_patch
  obtain ⟨h, -⟩ := hkeeps _ (fitsTree_tree py files)
  rw [AtomPatch.run]
  rcases hon : Script.on patch (py.tree files) with ⟨r, t'⟩
  rw [hon] at h
  cases r <;> exact h

theorem files_tree (files : Files) : py.files (py.tree files) = files := by
  funext p
  rw [Python.files, get_tree, Option.map_map]
  cases hp : files p with
  | none => rfl
  | some data => exact congrArg some (write_read data)

/-- The files are as before exactly when the tree is. -/
theorem files_run_iff (files : Files) : (py.run files).files = files ↔
    (AtomPatch.run (py.tree files)).tree = py.tree files := by
  constructor
  · intro h
    have hread : ∀ p, (AtomPatch.run (py.tree files)).tree.get p = (py.tree files).get p := by
      intro p
      rw [get_tree, ← congrFun h p]
      change _ = (((AtomPatch.run (py.tree files)).tree.get p).map py.write).map py.read
      cases hp : (AtomPatch.run (py.tree files)).tree.get p with
      | none => rfl
      | some c => exact congrArg some (fitsTree_run files p c hp).symm
    exact Tree.ext (hread .cpuidH) (hread .cpuidC) (hread .i386InitC)
  · intro h
    change py.files _ = files
    rw [h, files_tree]

end Python

/-- **All or nothing**: under either Python a run that ends with a status other than zero has left
the bytes of the three files as they were, just if no part of the script fails after one that has
written a file. -/
theorem patch_all_or_nothing_iff (py : Python) (files : Files) :
    ((py.run files).status ≠ 0 → (py.run files).files = files) ↔
      (py.tree files).NoLateFailure := by
  rw [← run_all_or_nothing_iff, Python.files_run_iff]
  exact Iff.rfl

/-- A `cpuid.h` that has the anchor, and two empty files. -/
def bareFiles : Files
  | .cpuidH => some (utf8 atomModelConstant.old)
  | _ => some []

/-- A `cpuid.h` with the anchor is edited although `cpuid.c` has none. -/
theorem cpuidH_edited_alone :
    ((Python.two.run bareFiles).status ≠ 0 ∧
      (Python.two.run bareFiles).files .cpuidH ≠ bareFiles .cpuidH) ∧
    (Python.three.run bareFiles).status ≠ 0 ∧
      (Python.three.run bareFiles).files .cpuidH ≠ bareFiles .cpuidH := by
  decide +kernel

end AtomPatch

end Kernel

end InstallKit
