import InstallKit.Config.Tree

/-!
# Where a path leads, by its text

A path is resolved by its components alone: empty components and `.` are dropped, `..` leads to the
parent.  What is appended to a directory leads up some way (`climb`), and then down again.

* `foldDots_append_eq` : the place that a relative path leads to from a directory;
* `prefix_foldDots_iff` : it leads into the directory just if it comes down the way it went up.
-/

namespace InstallKit

open Sources

/-! ### Components -/

namespace PurePath

theorem parts_append_slash (s t : Text) :
    (parse (s ++ '/' :: t)).parts = (parse s).parts ++ (parse t).parts := by
  simp only [parse, List.splitOn_append_cons_self, List.filter_append]

theorem parts_of_isEntryName {c : Text} (hc : IsEntryName c) : (parse c).parts = [c] := by
  simp [parse, List.splitOn_eq_singleton hc.2.1, hc.1, hc.2.2.1]

/-- The components of a path that `pathlib` has written. -/
theorem parts_toText_ofPlace {p : List Text} (hp : ∀ c ∈ p, IsEntryName c) :
    (parse (ofPlace p).toText).parts = p := by
  have htext : (ofPlace p).toText = [] ++ '/' :: ['/'].intercalate p := by
    simp [toText, ofPlace]
  rw [htext, parts_append_slash]
  by_cases hne : p = []
  · subst hne
    decide
  · have hfilter : p.filter (fun c => decide (c ≠ [] ∧ c ≠ ['.'])) = p :=
      List.filter_eq_self.2 fun c hc => by simp [(hp c hc).1, (hp c hc).2.2.1]
    have hempty : (parse []).parts = [] := by decide
    rw [hempty, List.nil_append, parse, List.splitOn_intercalate '/' (fun c hc => (hp c hc).2.1) hne,
      hfilter]

end PurePath

/-- The place that a path leads to from the root. -/
def resolve (s : Text) : List Text := foldDots (PurePath.parse s).parts

/-- A path leads strictly below another one. -/
def StrictlyBelow (dir path : Text) : Prop := resolve dir <+: resolve path ∧ resolve path ≠ resolve dir

instance (dir path : Text) : Decidable (StrictlyBelow dir path) :=
  inferInstanceAs (Decidable (_ ∧ _))

/-! ### Relative paths -/

/-- One more component of a relative path that leads up some way and then down. -/
def climbStep (s : ℕ × List Text) (c : Text) : ℕ × List Text :=
  if c = dotDot then if s.2 = [] then (s.1 + 1, []) else (s.1, s.2.dropLast) else (s.1, s.2 ++ [c])

/-- How far a relative path leads up, and the way down from there. -/
def climb (parts : List Text) : ℕ × List Text := parts.foldl climbStep (0, [])

variable {dir parts : List Text}

theorem climb_append_singleton (parts : List Text) (c : Text) :
    climb (parts ++ [c]) = climbStep (climb parts) c := by
  simp [climb]

/-- **Where a relative path leads to from a directory.** -/
theorem foldDots_append_eq (hdir : dotDot ∉ dir) :
    foldDots (dir ++ parts) = dir.take (dir.length - (climb parts).1) ++ (climb parts).2 := by
  induction parts using List.reverseRecOn with
  | nil => simp [climb, foldDots_eq_self hdir]
  | append_singleton parts c ih =>
    rw [← List.append_assoc, foldDots_append_singleton, ih, climb_append_singleton, climbStep]
    by_cases hc : c = dotDot
    · rw [if_pos hc, if_pos hc]
      by_cases hn : (climb parts).2 = []
      · rw [if_pos hn, hn, List.append_nil, List.append_nil, List.dropLast_eq_take, List.take_take,
          List.length_take]
        congr 1
        omega
      · rw [if_neg hn, List.dropLast_append_of_ne_nil hn]
    · rw [if_neg hc, if_neg hc, List.append_assoc]

/-- A relative path followed by more components leads into the directory just if it comes down the
way it went up. -/
theorem prefix_foldDots_iff (hdir : dotDot ∉ dir) (tail : List Text) :
    dir <+: foldDots (dir ++ parts) ++ tail ↔
      dir.drop (dir.length - (climb parts).1) <+: (climb parts).2 ++ tail := by
  rw [foldDots_append_eq hdir, List.append_assoc]
  conv_lhs => enter [1]; rw [← List.take_append_drop (dir.length - (climb parts).1) dir]
  exact List.prefix_append_right_inj _

/-- A list whose last element is not in the tail begins before the tail. -/
theorem prefix_append_iff_of_getLast {α : Type} {l names tail : List α}
    (h : ∀ x ∈ l.getLast?, x ∉ tail) : l <+: names ++ tail ↔ l <+: names := by
  refine ⟨fun hp => ?_, fun hp => hp.trans (List.prefix_append _ _)⟩
  obtain ⟨t, ht⟩ := hp
  rcases List.append_eq_append_iff.1 ht with ⟨m, rfl, -⟩ | ⟨m, rfl, rfl⟩
  · exact List.prefix_append _ _
  · cases m using List.reverseRecOn with
    | nil => simp
    | append_singleton m x => exact absurd (by simp) (h x (by simp))

end InstallKit
