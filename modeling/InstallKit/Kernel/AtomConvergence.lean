import InstallKit.Kernel.AtomPatch
import Mathlib.Algebra.GroupWithZero.Nat

/-!
# The Atom patch converges

A tree that was patched afresh is left alone by a second run, and if the family or the checkpoint
of the first experiment is put back into it, a run restores it to the same bytes
(`patch_converges`).  The model constant occurs once in the patched `cpuid.c`, and the text of the
checkpoint once in the patched `i386_init.c`; each is the mark of its block.
-/

namespace InstallKit

namespace Kernel

namespace AtomPatch

open Text

variable {t V : Tree} {h c i c' i' s s' k : List Char} {es : List Edit}

/-! ### Counting through the edits -/

/-- Edits that no occurrence of `k` crosses move its number by what they lose and gain. -/
theorem occ_foldlM (hes : ∀ e ∈ es, e.old ≠ [] ∧ Apart k e.old ∧ Apart k e.new)
    (hs : es.foldlM replaceOnce s = .ok s') :
    occ k s' + (es.map fun e => occ k e.old).sum = occ k s + (es.map fun e => occ k e.new).sum := by
  induction es generalizing s with
  | nil =>
    obtain rfl : s = s' := by simpa [pure, Except.pure] using hs
    rfl
  | cons e es ih =>
    obtain ⟨⟨he, ho, hn⟩, hes⟩ := List.forall_mem_cons.1 hes
    rw [List.foldlM_cons] at hs
    by_cases h1 : count e.old s = 1
    · obtain ⟨a, b, hab, hr⟩ := exists_of_count he h1
      rw [replaceOnce_of_count h1] at hs
      have hrest := ih hes hs
      rw [hr, occ_insert hn] at hrest
      rw [hab, occ_insert ho, List.map_cons, List.sum_cons, List.map_cons, List.sum_cons]
      omega
    · rw [replaceOnce_of_ne h1] at hs
      exact absurd hs (by simp [bind, Except.bind])

/-- What every checkpoint line of the boot processor mode has in it. -/
def checkpointMark : List Char := text "[N570 ATOM-KERNEL] vstart: cpu_mode_init complete" rfl

/-- The marks of a tree that is patched. -/
structure Patched (h c i : List Char) : Prop where
  constant : atomConstant <:+: h
  case_once : occ atomConstant c = 1
  newCase : newAtomCase <:+: c
  mark_once : occ checkpointMark i = 1
  newCheckpoint : newCpuModeCheckpoint <:+: i

/-- Edits bring in what they gain. -/
theorem infix_of_foldlM (hk : k ≠ []) (hes : ∀ e ∈ es, e.old ≠ [] ∧ Apart k e.old ∧ Apart k e.new)
    (hgain : (es.map fun e => occ k e.old).sum < (es.map fun e => occ k e.new).sum)
    (hs : es.foldlM replaceOnce s = .ok s') : k <:+: s' := by
  rw [← occ_pos_iff hk]
  have := occ_foldlM hes hs
  omega

/-- The edits bring in a mark once where there was none. -/
theorem occ_eq_one_of_foldlM (hk : k ≠ []) (h0 : ¬ k <:+: s)
    (hes : ∀ e ∈ es, e.old ≠ [] ∧ Apart k e.old ∧ Apart k e.new)
    (hold : (es.map fun e => occ k e.old).sum = 0) (hnew : (es.map fun e => occ k e.new).sum = 1)
    (hs : es.foldlM replaceOnce s = .ok s') : occ k s' = 1 := by
  have hs0 := (occ_eq_zero_iff hk).2 h0
  have := occ_foldlM hes hs
  omega

theorem prefix_of_mark (hi : checkpointMark <:+: i) : n570Prefix <:+: i :=
  List.IsInfix.trans (by decide +kernel) hi

/-- A fresh application leaves a patched tree. -/
theorem patched_of_edits {h' : List Char} (hc : ¬ atomConstant <:+: c) (hi : ¬ n570Prefix <:+: i)
    (eh : [atomModelConstant].foldlM replaceOnce h = .ok h')
    (ec : [atomFamilyAcceptance].foldlM replaceOnce c = .ok c')
    (ei : initEdits.foldlM replaceOnce i = .ok i') : Patched h' c' i' where
  constant := infix_of_foldlM (by decide) (by decide +kernel) (by decide +kernel) eh
  case_once := occ_eq_one_of_foldlM (by decide) hc (by decide +kernel) (by decide +kernel)
    (by decide +kernel) ec
  newCase := infix_of_foldlM (by decide) (by decide +kernel) (by decide +kernel) ec
  mark_once := occ_eq_one_of_foldlM (by decide) (fun hm => hi (prefix_of_mark hm))
    (by decide +kernel) (by decide +kernel) (by decide +kernel) ei
  newCheckpoint := infix_of_foldlM (by decide) (by decide +kernel) (by decide +kernel) ei

/-! ### Blocks that are turned back -/

/-- A `new` block of the text is turned back into the `old` one. -/
def TurnedBack (new old s v : List Char) : Prop :=
  ∃ a b, s = a ++ new ++ b ∧ v = a ++ old ++ b

/-- The constant of the case is followed by another family. -/
theorem Patched.not_oldCase (hp : Patched h c i) : ¬ oldAtomCase <:+: c :=
  not_infix_of_mark (text "\t\tcase " rfl)
    (text ":\n\t\t\tcpufamily = CPUFAMILY_INTEL_YONAH;\n\t\t\tbreak;" rfl)
    (text "\t\tcase " rfl)
    (text ":\n\t\t\tcpufamily = CPUFAMILY_INTEL_6_13;\n\t\t\tbreak;" rfl)
    (by decide) hp.case_once.le hp.newCase (by decide +kernel)

/-- The message of the checkpoint stands behind another line. -/
theorem Patched.not_oldCheckpoint (hp : Patched h c i) : ¬ oldCpuModeCheckpoint <:+: i :=
  not_infix_of_mark
    (text "\tcpu_mode_init(current_cpu_datap());\n#if DEBUG\n\tif (is_boot_cpu)\n\t\tDBG(\"" rfl)
    (text " cpu=%d\\n\", cpu);\n#endif\n" rfl)
    (text "\tcpu_mode_init(current_cpu_datap());\n\tif (is_boot_cpu)\n\t\tDBG(\"" rfl)
    (text " cpu=%d\\n\", cpu);\n" rfl)
    (by decide) hp.mark_once.le hp.newCheckpoint (by decide +kernel)

theorem Patched.undo_case (hp : Patched h c i) (hc : TurnedBack newAtomCase oldAtomCase c c') :
    count oldAtomCase c' = 1 ∧ replaceFirst oldAtomCase newAtomCase c' = c := by
  obtain ⟨a, b, rfl, rfl⟩ := hc
  exact replaceFirst_undo (by decide) (by decide +kernel) (by decide +kernel) (by decide +kernel)
    (by decide +kernel) hp.case_once

theorem Patched.undo_checkpoint (hp : Patched h c i)
    (hi : TurnedBack newCpuModeCheckpoint oldCpuModeCheckpoint i i') :
    count oldCpuModeCheckpoint i' = 1 ∧
      replaceFirst oldCpuModeCheckpoint newCpuModeCheckpoint i' = i := by
  obtain ⟨a, b, rfl, rfl⟩ := hi
  exact replaceFirst_undo (by decide) (by decide +kernel) (by decide +kernel) (by decide +kernel)
    (by decide +kernel) hp.mark_once

/-! ### Runs on a patched tree -/

/-- The repair restores the checkpoint, and does nothing where it is in order. -/
theorem Patched.on_repair (hp : Patched h c i)
    (hi : i' = i ∨ TurnedBack newCpuModeCheckpoint oldCpuModeCheckpoint i i') :
    Script.on (repair i') (Tree.of h c' i') = (.ok (), Tree.of h c' i) := by
  rcases hi with rfl | hi
  · exact on_repair_of_not hp.not_oldCheckpoint
  · obtain ⟨h1, hr⟩ := hp.undo_checkpoint hi
    rw [on_repair_of_count h1, hr]
    rfl

/-- The migration restores the family, and does nothing where it is in order. -/
theorem Patched.on_migrate (hp : Patched h c i)
    (hc : c' = c ∨ TurnedBack newAtomCase oldAtomCase c c') :
    Script.on (migrate true true c') (Tree.of h c' i) = (.ok (), Tree.of h c i) := by
  rcases hc with rfl | hc
  · exact on_migrate_of_new hp.not_oldCase hp.newCase
  · obtain ⟨h1, hr⟩ := hp.undo_case hc
    rw [on_migrate_of_count h1, hr]
    rfl

theorem Patched.marked (hp : Patched h c i)
    (hi : i' = i ∨ TurnedBack newCpuModeCheckpoint oldCpuModeCheckpoint i i') :
    n570Prefix <:+: i' := by
  rcases hi with rfl | ⟨a, b, -, rfl⟩
  · exact List.IsInfix.trans (by decide +kernel) hp.newCheckpoint
  · exact prefix_of_checkpoint ⟨a, b, rfl⟩

/-- A patched tree is restored from each of its older forms. -/
theorem Patched.run_eq (hp : Patched h c i)
    (hc : c' = c ∨ TurnedBack newAtomCase oldAtomCase c c')
    (hi : i' = i ∨ TurnedBack newCpuModeCheckpoint oldCpuModeCheckpoint i i') :
    run (Tree.of h c' i') = ⟨0, Tree.of h c i⟩ := by
  have hon := on_patch h c' i'
  rw [on_bind_ok _ (hp.on_repair hi), decide_eq_true hp.constant, decide_eq_true (hp.marked hi),
    Bool.or_self, if_pos rfl, hp.on_migrate hc] at hon
  exact run_ok hon

/-! ### Convergence -/

/-- No file of the tree has the word in it. -/
def Tree.Free (k : List Char) (t : Tree) : Prop := ∀ p s, t.get p = some (.text s) → ¬ k <:+: s

/-- The tree `R`, with the Yonah case turned back into the 6_13 case, or the guarded checkpoint
into the unguarded one, or both. -/
def Reverted (R V : Tree) : Prop :=
  ∃ h c i c' i', R = Tree.of h c i ∧ V = Tree.of h c' i' ∧
    (TurnedBack newAtomCase oldAtomCase c c' ∧ i' = i ∨
      c' = c ∧ TurnedBack newCpuModeCheckpoint oldCpuModeCheckpoint i i' ∨
      TurnedBack newAtomCase oldAtomCase c c' ∧
        TurnedBack newCpuModeCheckpoint oldCpuModeCheckpoint i i')

/-- What a run on a fresh tree leaves when it succeeds. -/
theorem patched_of_fresh (hA : t.Free atomConstant) (hM : t.Free n570Prefix)
    (h0 : (run t).status = 0) : ∃ h c i, (run t).tree = Tree.of h c i ∧ Patched h c i := by
  by_cases ht : ∃ h c i, t = Tree.of h c i
  swap
  · rw [run_of_unreadable fun h c i heq => ht ⟨h, c, i, heq⟩] at h0
    exact absurd h0 Nat.one_ne_zero
  obtain ⟨h, c, i, rfl⟩ := ht
  have hon := on_fresh (c := c) (hA .cpuidH h rfl) (hM .i386InitC i rfl)
  by_cases hh : count atomModelConstant.old h = 1
  swap
  · obtain ⟨f, hf⟩ := on_apply_of_ne (c := c) (i := i) hh
    rw [run_error (hon.trans hf)] at h0
    exact absurd h0 Nat.one_ne_zero
  by_cases hci : count atomFamilyAcceptance.old c = 1 ∧ ∀ e ∈ initEdits, count e.old i = 1
  swap
  · obtain ⟨f, t', ht', -⟩ := on_apply_half hh hci
    rw [run_error (hon.trans ht')] at h0
    exact absurd h0 Nat.one_ne_zero
  obtain ⟨s', hs'⟩ := (foldlM_ok_iff initEdits_independent).2 hci.2
  rw [run_ok (hon.trans (on_apply hh hci.1 hs'))]
  exact ⟨_, _, _, rfl, patched_of_edits (hA .cpuidC c rfl) (hM .i386InitC i rfl)
    ((foldlM_single _ _).trans (replaceOnce_of_count hh))
    ((foldlM_single _ _).trans (replaceOnce_of_count hci.1)) hs'⟩

/-- The result of a fresh application can be turned back in both places, is restored by a run from
all its older forms, and is left alone by a run on itself. -/
theorem patch_converges (t : Tree) (hA : t.Free atomConstant) (hM : t.Free n570Prefix)
    (h0 : (run t).status = 0) :
    (∃ h c i, (run t).tree = Tree.of h c i ∧ newAtomCase <:+: c ∧ newCpuModeCheckpoint <:+: i) ∧
      (∀ V, Reverted (run t).tree V → run V = ⟨0, (run t).tree⟩) ∧
      run (run t).tree = ⟨0, (run t).tree⟩ := by
  obtain ⟨h, c, i, hR, hp⟩ := patched_of_fresh hA hM h0
  rw [hR]
  refine ⟨⟨h, c, i, rfl, hp.newCase, hp.newCheckpoint⟩, ?_, hp.run_eq (.inl rfl) (.inl rfl)⟩
  rintro V ⟨h', c', i', c'', i'', heq, rfl, hV⟩
  obtain ⟨rfl, rfl, rfl⟩ := Tree.of_inj.1 heq
  rcases hV with ⟨hc, hi⟩ | ⟨hc, hi⟩ | ⟨hc, hi⟩
  · exact hp.run_eq (.inr hc) (.inl hi)
  · exact hp.run_eq (.inl hc) (.inr hi)
  · exact hp.run_eq (.inr hc) (.inr hi)

theorem free_of : Tree.Free k (Tree.of h c i) ↔ ¬ k <:+: h ∧ ¬ k <:+: c ∧ ¬ k <:+: i := by
  refine ⟨fun hf => ⟨hf .cpuidH h rfl, hf .cpuidC c rfl, hf .i386InitC i rfl⟩, ?_⟩
  rintro ⟨hh, hc, hi⟩ p s hs
  cases p with
  | cpuidH =>
    obtain rfl : h = s := by simpa [Tree.of, Tree.get] using hs
    exact hh
  | cpuidC =>
    obtain rfl : c = s := by simpa [Tree.of, Tree.get] using hs
    exact hc
  | i386InitC =>
    obtain rfl : i = s := by simpa [Tree.of, Tree.get] using hs
    exact hi

/-- A source tree of the places that are edited, and nothing else. -/
def anchors : Tree :=
  Tree.of atomModelConstant.old atomFamilyAcceptance.old (initEdits.flatMap (·.old))

theorem anchors_converge :
    (run anchors).status = 0 ∧ run (run anchors).tree = ⟨0, (run anchors).tree⟩ ∧
      ∀ V, Reverted (run anchors).tree V → run V = ⟨0, (run anchors).tree⟩ :=
  have h0 : (run anchors).status = 0 := by decide +kernel
  have hA : anchors.Free atomConstant := free_of.2 (by decide +kernel)
  have hM : anchors.Free n570Prefix := free_of.2 (by decide +kernel)
  ⟨h0, (patch_converges anchors hA hM h0).2.2, (patch_converges anchors hA hM h0).2.1⟩

end AtomPatch

end Kernel

end InstallKit
