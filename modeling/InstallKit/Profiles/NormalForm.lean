import InstallKit.Profiles.Reachable
import InstallKit.Sources.PyText

/-!
# The normal form of a slug

Every string has a slug, also one with surrogates in it: words of lower case letters and digits with
one hyphen between two of them, of 1 to 96 characters (`slug_normal_form`).  A slug is its own slug,
and so `show_profile` looks in the directory that `save_profile` has made.
-/

namespace InstallKit

namespace Profiles

open Sources

variable {t : Text}

/-- `sanitize_slug` of any string: a surrogate belongs to the runs that become hyphens. -/
def slugOf (value : PyText) : Text := sanitizeSlug value.plain

/-- A run of `[a-z0-9]`. -/
def IsRun (w : Text) : Prop := w ≠ [] ∧ ∀ c ∈ w, isWordChar c = true

/-- Runs joined by single hyphens. -/
def RunsJoined (t : Text) : Prop := ∃ ws : List Text, ws ≠ [] ∧ (∀ w ∈ ws, IsRun w) ∧
  t = ['-'].intercalate ws

theorem RunsJoined.of_run (h : IsRun t) : RunsJoined t :=
  ⟨[t], List.cons_ne_nil _ _, by simpa using h, by simp⟩

/-- One more run in front. -/
theorem RunsJoined.cons {w : Text} (hw : IsRun w) (h : RunsJoined t) :
    RunsJoined (w ++ '-' :: t) := by
  obtain ⟨ws, hne, hws, rfl⟩ := h
  refine ⟨w :: ws, List.cons_ne_nil _ _, List.forall_mem_cons.2 ⟨hw, hws⟩, ?_⟩
  obtain ⟨v, vs, rfl⟩ := List.exists_cons_of_ne_nil hne
  simp [List.intercalate]

/-- One more character in the first run. -/
theorem RunsJoined.cons_char {c : Char} (hc : isWordChar c = true) (h : RunsJoined t) :
    RunsJoined (c :: t) := by
  obtain ⟨ws, hne, hws, rfl⟩ := h
  obtain ⟨w, vs, rfl⟩ := List.exists_cons_of_ne_nil hne
  rw [List.forall_mem_cons] at hws
  refine ⟨(c :: w) :: vs, List.cons_ne_nil _ _, List.forall_mem_cons.2 ⟨⟨?_, ?_⟩, hws.2⟩, ?_⟩
  · exact List.cons_ne_nil _ _
  · exact List.forall_mem_cons.2 ⟨hc, hws.1.2⟩
  · cases vs <;> simp [List.intercalate]

/-- The end of words that does not begin with a hyphen. -/
theorem Words.of_suffix {s : Text} (h : Words t) (hs : s <:+ t) (hne : s ≠ [])
    (hhead : s.head? ≠ some '-') : Words s where
  toHyphenated := h.of_infix hs.isInfix
  ne_nil := hne
  head := hhead
  last := by
    obtain ⟨u, rfl⟩ := hs
    have := h.last
    rwa [List.getLast?_append_of_ne_nil u hne] at this

/-- **Words and single hyphens are joined runs**: by strong induction on the length, a text of this
form is a run, or a character of the first run and such a text, or a character, a hyphen and such a
text. -/
theorem Words.runsJoined (h : Words t) : RunsJoined t := by
  induction hn : t.length using Nat.strong_induction_on generalizing t with
  | _ n ih =>
    obtain ⟨c, t, rfl⟩ := List.exists_cons_of_ne_nil h.ne_nil
    have hc : isWordChar c = true :=
      (h.chars c List.mem_cons_self).resolve_right fun hx => h.head (congrArg some hx)
    have hrun : IsRun [c] := ⟨List.cons_ne_nil _ _, by simpa using hc⟩
    cases t with
    | nil => exact .of_run hrun
    | cons d t =>
      by_cases hd : d = '-'
      · -- the run ends here, and what follows its hyphen is again of this form
        subst hd
        have hne : t ≠ [] := by
          rintro rfl
          exact h.last rfl
        have hhead : t.head? ≠ some '-' := by
          intro hx
          obtain ⟨-, hchain⟩ := List.isChain_cons.1 h.single
          exact (List.isChain_cons.1 hchain).1 '-' hx rfl rfl
        have hrest : Words t := h.of_suffix ⟨[c, '-'], rfl⟩ hne hhead
        exact (ih t.length (by simp at hn; omega) hrest rfl).cons hrun
      · have hrest : Words (d :: t) :=
          h.of_suffix (List.suffix_cons c _) (List.cons_ne_nil _ _) (by simpa using hd)
        exact (ih (d :: t).length (by simp at hn ⊢; omega) hrest rfl).cons_char hc

/-- **The normal form**: every string has a slug of 1 to 96 characters, which are runs joined by
single hyphens, and the slug of the slug is the slug; and so what was saved is where the slug
leads. -/
theorem slug_normal_form :
    (∀ value : PyText, RunsJoined (slugOf value) ∧ 1 ≤ (slugOf value).length ∧
      (slugOf value).length ≤ 96 ∧ slugOf (.ofText (slugOf value)) = slugOf value) ∧
    ∀ (S S' : Store) (p : Profile), S.save p = some S' →
      p.slug = slugOf (.ofText p.displayName) ∧ S'.dir (sanitizeSlug p.slug) = some p.saved := by
  constructor
  · intro value
    have hslug : IsSlug (slugOf value) := sanitizeSlug_isSlug value.plain
    refine ⟨hslug.toWords.runsJoined, List.length_pos_iff.2 hslug.ne_nil, hslug.length_le, ?_⟩
    rw [slugOf, PyText.plain_ofText, sanitizeSlug_of_isSlug hslug]
  · intro S S' p hsave
    rw [slugOf, PyText.plain_ofText, sanitizeSlug_of_isSlug (isSlug_slug p)]
    exact ⟨rfl, dir_of_save hsave⟩

end Profiles

end InstallKit
