import Mathlib.Data.List.Chain
import Mathlib.Data.List.DropRight
import InstallKit.Sources.Text

/-!
# Slugs

`sanitize_slug` of `generic_pc_profile.py` turns a display name into the name of a directory: lower
case letters, digits and single hyphens between them, at most 96 characters.

* `sanitizeSlug_isSlug` : every result is of this form.
* `sanitizeSlug_of_isSlug` : a text of this form is its own slug.
* `sanitizeSlug_generated_iff` : `generated/slug`, as the listing prints it, has the slug `slug` for
  one slug only, that of 96 characters out of `generated-generated-...`.
-/

namespace InstallKit

namespace Profiles

open Sources

/-! ### The function -/

/-- `[a-z0-9]` -/
def isWordChar (c : Char) : Bool := c.isLower || c.isDigit

/-- `str.lower`, as far as the patterns of `sanitize_slug` can tell: of the characters outside of
ASCII only the capital I with a dot and the Kelvin sign have a lower case with ASCII letters. -/
def lowerChar (c : Char) : Text :=
  if c = '\u0130' then ['i', '\u0307']
  else if c = '\u212a' then ['k']
  else [c.toLower]

def lower (t : Text) : Text := t.flatMap lowerChar

/-- `re.sub(r"[^...]+", "-", t)`: every run of characters that are not kept becomes a hyphen.  The
flag says that the text continues a run. -/
def hyphenate (keep : Char → Bool) : Bool → Text → Text
  | _, [] => []
  | inRun, c :: t =>
    if keep c then c :: hyphenate keep false t
    else if inRun then hyphenate keep true t
    else '-' :: hyphenate keep true t

/-- `sanitize_slug` -/
def sanitizeSlug (value : Text) : Text :=
  let value := strip isPySpace (lower value)
  let value := hyphenate isWordChar false value
  let value := strip (· = '-') (hyphenate (· ≠ '-') false value)
  let value := if value = [] then txt "generic-x86-profile" else value
  (value.take 96).rdropWhile (· = '-')

/-! ### Words and single hyphens -/

/-- Two characters that are not both hyphens. -/
def Single (a b : Char) : Prop := a = '-' → b ≠ '-'

instance : DecidableRel Single := fun a b => inferInstanceAs (Decidable (a = '-' → b ≠ '-'))

/-- Word characters and single hyphens. -/
structure Hyphenated (t : Text) : Prop where
  chars : ∀ c ∈ t, isWordChar c = true ∨ c = '-'
  single : t.IsChain Single

/-- Words with a hyphen between them. -/
structure Words (t : Text) : Prop extends Hyphenated t where
  ne_nil : t ≠ []
  head : t.head? ≠ some '-'
  last : t.getLast? ≠ some '-'

/-- A slug. -/
structure IsSlug (t : Text) : Prop extends Words t where
  length_le : t.length ≤ 96

variable {keep : Char → Bool} {t : Text}

theorem Hyphenated.of_infix {s : Text} (h : Hyphenated t) (hs : s <:+: t) : Hyphenated s where
  chars c hc := h.chars c (hs.subset hc)
  single := h.single.infix hs

theorem mem_hyphenate {b : Bool} {c : Char} (h : c ∈ hyphenate keep b t) :
    keep c = true ∨ c = '-' := by
  induction t generalizing b with
  | nil => cases h
  | cons d t ih =>
    rw [hyphenate] at h
    split at h
    · rename_i hd
      rcases List.mem_cons.1 h with rfl | h
      · exact Or.inl hd
      · exact ih h
    · split at h
      · exact ih h
      · rcases List.mem_cons.1 h with rfl | h
        · exact Or.inr rfl
        · exact ih h

/-- Hyphens are written one at a time; after one, none follows. -/
theorem hyphenate_single (hk : keep '-' = false) {b : Bool} :
    (hyphenate keep b t).IsChain Single ∧
      (b = true → (hyphenate keep b t).head? ≠ some '-') := by
  induction t generalizing b with
  | nil => simp [hyphenate]
  | cons c t ih =>
    rw [hyphenate]
    split
    · rename_i hc
      have hne : c ≠ '-' := by
        rintro rfl
        rw [hk] at hc
        cases hc
      refine ⟨List.isChain_cons.2 ⟨fun d _ hx => absurd hx hne, (ih (b := false)).1⟩, ?_⟩
      simp [hne]
    · split
      · rename_i hb
        exact ⟨(ih (b := true)).1, fun _ => (ih (b := true)).2 rfl⟩
      · rename_i hb
        refine ⟨List.isChain_cons.2 ⟨fun d hd _ hx => ?_, (ih (b := true)).1⟩, fun h => absurd h hb⟩
        subst hx
        exact (ih (b := true)).2 rfl hd

/-- Single hyphens stay. -/
theorem hyphenate_eq_self (hk : keep '-' = false) (hc : ∀ c ∈ t, keep c = true ∨ c = '-')
    (hs : t.IsChain Single) {b : Bool} (hb : b = true → t.head? ≠ some '-') :
    hyphenate keep b t = t := by
  induction t generalizing b with
  | nil => rfl
  | cons c t ih =>
    obtain ⟨hhead, htail⟩ := List.isChain_cons.1 hs
    have hc' : ∀ c ∈ t, keep c = true ∨ c = '-' := fun d hd => hc d (List.mem_cons_of_mem _ hd)
    rw [hyphenate]
    rcases hc c List.mem_cons_self with hkeep | rfl
    · rw [if_pos hkeep, ih hc' htail fun h => absurd h (by decide)]
    · have hnot : b = false := by
        cases b with
        | false => rfl
        | true => exact absurd rfl (hb rfl)
      rw [hnot, if_neg (by simp [hk]), if_neg (by decide),
        ih hc' htail fun _ h => hhead '-' h rfl rfl]

/-- What the first pattern leaves. -/
theorem hyphenated_hyphenate (t : Text) : Hyphenated (hyphenate isWordChar false t) where
  chars _ hc := mem_hyphenate hc
  single := (hyphenate_single (by decide)).1

/-- The second pattern finds nothing to do. -/
theorem Hyphenated.hyphenate_eq (h : Hyphenated t) : hyphenate (· ≠ '-') false t = t :=
  hyphenate_eq_self (by decide) (fun c _ => by by_cases hc : c = '-' <;> simp [hc]) h.single
    fun hb => by cases hb

/-! ### Stripping -/

theorem strip_infix {p : Char → Bool} : strip p t <:+: t :=
  (List.rdropWhile_prefix p _).isInfix.trans (List.dropWhile_suffix p).isInfix

theorem head?_strip {p : Char → Bool} {c : Char} (h : (strip p t).head? = some c) :
    p c = false := by
  obtain ⟨s, hs⟩ := List.rdropWhile_prefix p (t.dropWhile p)
  have hhead : (t.dropWhile p).head? = some c := by
    obtain ⟨l, hl⟩ := List.head?_eq_some_iff.1 h
    rw [← hs, ← strip, hl]
    rfl
  have := List.head?_dropWhile_not p t
  rw [hhead] at this
  exact this

theorem getLast?_rdropWhile {p : Char → Bool} {c : Char}
    (h : (t.rdropWhile p).getLast? = some c) : p c = false := by
  have hne : t.rdropWhile p ≠ [] := by
    intro hnil
    rw [hnil] at h
    cases h
  have hlast := List.rdropWhile_last_not p t hne
  rw [List.getLast?_eq_some_getLast hne] at h
  rw [← Option.some.inj h]
  simpa using hlast

theorem rdropWhile_eq_self {p : Char → Bool} (h : ∀ c, t.getLast? = some c → p c = false) :
    t.rdropWhile p = t := by
  rw [List.rdropWhile_eq_self_iff]
  intro hne hp
  rw [h _ (List.getLast?_eq_some_getLast hne)] at hp
  cases hp

/-- Stripping does nothing to a text that neither begins nor ends with what is stripped. -/
theorem strip_eq_self {p : Char → Bool} (hhead : ∀ c, t.head? = some c → p c = false)
    (hlast : ∀ c, t.getLast? = some c → p c = false) : strip p t = t := by
  have hdrop : t.dropWhile p = t := by
    cases t with
    | nil => rfl
    | cons c t => rw [List.dropWhile_cons, if_neg (by simp [hhead c rfl])]
  rw [strip, hdrop, rdropWhile_eq_self hlast]

theorem hyphen_of {c : Char} (h : some c ≠ some '-') : decide (c = '-') = false := by
  simpa using fun hc : c = '-' => h (congrArg some hc)

/-- What is left of words and hyphens between them begins and ends with a word. -/
theorem Hyphenated.strip (h : Hyphenated t) (hne : strip (· = '-') t ≠ []) :
    Words (strip (· = '-') t) where
  toHyphenated := h.of_infix strip_infix
  ne_nil := hne
  head hc := by simpa using head?_strip hc
  last hc := by simpa using getLast?_rdropWhile hc

/-- Cutting words off at a length leaves words. -/
theorem Words.cut (h : Words t) {n : ℕ} (hn : 0 < n) :
    Words ((t.take n).rdropWhile (· = '-')) := by
  have hprefix : (t.take n).rdropWhile (· = '-') <+: t :=
    (List.rdropWhile_prefix _ _).trans (List.take_prefix _ _)
  obtain ⟨c, t', rfl⟩ := List.exists_cons_of_ne_nil h.ne_nil
  obtain ⟨n, rfl⟩ : ∃ m, n = m + 1 := ⟨n - 1, by omega⟩
  have hne : ((c :: t').take (n + 1)).rdropWhile (· = '-') ≠ [] := by
    rw [Ne, List.rdropWhile_eq_nil_iff]
    intro hall
    exact h.head (congrArg some (by simpa using hall c (by simp)))
  refine ⟨h.of_infix hprefix.isInfix, hne, ?_, ?_⟩
  · obtain ⟨l, hl⟩ := hprefix
    obtain ⟨d, l', hd⟩ := List.exists_cons_of_ne_nil hne
    rw [hd] at hl ⊢
    rw [List.cons_append] at hl
    rw [(List.cons.inj hl).1]
    exact h.head
  · intro hc
    simpa using getLast?_rdropWhile hc

/-- **Every result is a slug.** -/
theorem sanitizeSlug_isSlug (value : Text) : IsSlug (sanitizeSlug value) := by
  have hwords : ∀ t, Hyphenated t →
      Words (if strip (· = '-') t = [] then txt "generic-x86-profile" else strip (· = '-') t) := by
    intro t ht
    split
    · exact { chars := by decide +kernel
              single := by decide +kernel
              ne_nil := by decide +kernel
              head := by decide +kernel
              last := by decide +kernel }
    · rename_i hne
      exact ht.strip hne
  rw [sanitizeSlug, (hyphenated_hyphenate _).hyphenate_eq]
  refine ⟨(hwords _ (hyphenated_hyphenate _)).cut (by decide), ?_⟩
  refine (List.rdropWhile_prefix _ _).length_le.trans ?_
  rw [List.length_take]
  exact min_le_left _ _

/-! ### Texts that are slugs already -/

theorem not_isPySpace_of_isWordChar {c : Char} (h : isWordChar c = true) : isPySpace c = false := by
  have hspaces : ∀ d ∈ ['\t', '\n', '\x0b', '\x0c', '\r', '\x1c', '\x1d', '\x1e', '\x1f', ' ',
      '\u0085', '\u00a0', '\u1680', '\u2000', '\u2001', '\u2002', '\u2003', '\u2004', '\u2005',
      '\u2006', '\u2007', '\u2008', '\u2009', '\u200a', '\u2028', '\u2029', '\u202f', '\u205f',
      '\u3000'], isWordChar d = false := by decide
  rw [isPySpace, decide_eq_false_iff_not]
  intro hmem
  rw [hspaces c hmem] at h
  cases h

theorem toLower_of_isWordChar {c : Char} (h : isWordChar c = true) : c.toLower = c := by
  have hne : ¬ (c.val ≥ 'A'.val ∧ c.val ≤ 'Z'.val) := by
    rintro ⟨h₁, h₂⟩
    have hlower : c.isLower = (decide (c.val ≥ 'a'.val) && decide (c.val ≤ 'z'.val)) := rfl
    simp only [isWordChar, hlower, Char.isDigit, Bool.or_eq_true, Bool.and_eq_true,
      decide_eq_true_eq, ge_iff_le, UInt32.le_iff_toNat_le] at h h₁ h₂
    have hA : 'A'.val.toNat = 65 := rfl
    have hZ : 'Z'.val.toNat = 90 := rfl
    have ha : 'a'.val.toNat = 97 := rfl
    have h0 : '0'.val.toNat = 48 := rfl
    have h9 : '9'.val.toNat = 57 := rfl
    omega
  exact dif_neg hne

theorem lowerChar_of_isWordChar {c : Char} (h : isWordChar c = true) : lowerChar c = [c] := by
  have h₁ : c ≠ '\u0130' := by
    rintro rfl
    exact absurd h (by decide)
  have h₂ : c ≠ '\u212a' := by
    rintro rfl
    exact absurd h (by decide)
  rw [lowerChar, if_neg h₁, if_neg h₂, toLower_of_isWordChar h]

theorem lower_eq_self (h : ∀ c ∈ t, isWordChar c = true ∨ c = '-' ∨ c = '/') : lower t = t := by
  have hchar : ∀ c ∈ t, lowerChar c = [c] := by
    intro c hc
    rcases h c hc with hw | rfl | rfl
    · exact lowerChar_of_isWordChar hw
    · decide
    · decide
  rw [lower]
  induction t with
  | nil => rfl
  | cons c t ih =>
    rw [List.flatMap_cons, hchar c List.mem_cons_self,
      ih (fun d hd => h d (List.mem_cons_of_mem _ hd)) fun d hd => hchar d (List.mem_cons_of_mem _ hd)]
    rfl

/-- A name that the pattern turns into words. -/
theorem sanitizeSlug_of_words {value : Text}
    (hchars : ∀ c ∈ value, isWordChar c = true ∨ c = '-' ∨ c = '/')
    (ht : hyphenate isWordChar false value = t) (hw : Words t) :
    sanitizeSlug value = (t.take 96).rdropWhile (· = '-') := by
  have hspace : ∀ c ∈ value, isPySpace c = false := by
    intro c hc
    rcases hchars c hc with h | rfl | rfl
    · exact not_isPySpace_of_isWordChar h
    · decide
    · decide
  have hstrip : strip isPySpace value = value :=
    strip_eq_self (fun c hc => hspace c (List.mem_of_head? hc))
      fun c hc => hspace c (List.mem_of_getLast? hc)
  have hhyphen : strip (· = '-') t = t :=
    strip_eq_self (fun c hc => hyphen_of (hc ▸ hw.head)) fun c hc => hyphen_of (hc ▸ hw.last)
  simp only [sanitizeSlug]
  rw [lower_eq_self hchars, hstrip, ht, hw.hyphenate_eq, hhyphen, if_neg hw.ne_nil]

/-- **A slug is its own slug.** -/
theorem sanitizeSlug_of_isSlug (h : IsSlug t) : sanitizeSlug t = t := by
  have hself : hyphenate isWordChar false t = t :=
    hyphenate_eq_self (by decide) h.chars h.single fun hb => by cases hb
  rw [sanitizeSlug_of_words (fun c hc => (h.chars c hc).imp_right Or.inl) hself h.toWords,
    List.take_of_length_le h.length_le]
  exact rdropWhile_eq_self fun c hc => hyphen_of (hc ▸ h.last)

/-! ### The identifier of the listing -/

/-- The prefix of the listing. -/
def listPrefix : Text := txt "generated/"

/-- The prefix as `sanitize_slug` makes it. -/
def slugPrefix : Text := txt "generated-"

/-- The one slug that is its own prefix. -/
def fixedSlug : Text := ((List.replicate 10 slugPrefix).flatten).take 96

theorem words_slugPrefix_append (h : Words t) : Words (slugPrefix ++ t) where
  chars := by
    have hp : ∀ c ∈ slugPrefix, isWordChar c = true ∨ c = '-' := by decide +kernel
    intro c hc
    rcases List.mem_append.1 hc with hc | hc
    · exact hp c hc
    · exact h.chars c hc
  single := by
    have hp : slugPrefix.IsChain Single := by decide +kernel
    exact hp.append h.single fun c _ d hd _ hx => h.head (hx ▸ hd)
  ne_nil := by
    intro hnil
    exact h.ne_nil (List.append_eq_nil_iff.1 hnil).2
  head := by
    obtain ⟨c, l, hl⟩ := List.exists_cons_of_ne_nil (l := slugPrefix) (by decide +kernel)
    have hc : slugPrefix.head? ≠ some '-' := by decide +kernel
    rw [hl] at hc ⊢
    exact hc
  last := by
    rw [List.getLast?_append_of_ne_nil _ h.ne_nil]
    exact h.last

theorem hyphenate_listPrefix (h : Words t) :
    hyphenate isWordChar false (listPrefix ++ t) = slugPrefix ++ t := by
  -- the slash is the end of a run
  have hword : ∀ (w : Text) (b : Bool), (∀ c ∈ w, isWordChar c = true) →
      hyphenate isWordChar b (w ++ '/' :: t) = w ++ hyphenate isWordChar (b && w.isEmpty) ('/' :: t) := by
    intro w
    induction w with
    | nil => intro b _; simp
    | cons c w ih =>
      intro b hw
      rw [List.cons_append, hyphenate, if_pos (hw c List.mem_cons_self),
        ih false fun d hd => hw d (List.mem_cons_of_mem _ hd)]
      simp
  have hlist : listPrefix ++ t = txt "generated" ++ '/' :: t := by
    have : listPrefix = txt "generated" ++ ['/'] := by decide +kernel
    rw [this, List.append_assoc]
    rfl
  have hslug : slugPrefix = txt "generated" ++ ['-'] := by decide +kernel
  rw [hlist, hword _ _ (by decide +kernel), Bool.false_and, hyphenate, if_neg (by decide),
    if_neg (by decide), hyphenate_eq_self (by decide) h.chars h.single fun _ => h.head, hslug,
    List.append_assoc]
  rfl

theorem sanitizeSlug_listPrefix (h : Words t) :
    sanitizeSlug (listPrefix ++ t) = ((slugPrefix ++ t).take 96).rdropWhile (· = '-') := by
  refine sanitizeSlug_of_words ?_ (hyphenate_listPrefix h) (words_slugPrefix_append h)
  have hp : ∀ c ∈ listPrefix, isWordChar c = true ∨ c = '-' ∨ c = '/' := by decide +kernel
  intro c hc
  rcases List.mem_append.1 hc with hc | hc
  · exact hp c hc
  · exact (h.chars c hc).imp_right Or.inl

/-- A text that begins with `u` followed by itself begins with any number of `u`. -/
theorem prefix_replicate {u : Text} (h : t <+: u ++ t) (n : ℕ) :
    t <+: (List.replicate n u).flatten ++ t := by
  induction n with
  | zero => exact List.prefix_rfl
  | succ n ih =>
    refine h.trans ?_
    rw [List.replicate_succ, List.flatten_cons, List.append_assoc]
    exact (List.prefix_append_right_inj u).2 ih

theorem eq_of_prefix_slugPrefix (h : t <+: slugPrefix ++ t) (hlen : t.length ≤ 96) :
    t = fixedSlug.take t.length := by
  have hlong : (List.replicate 10 slugPrefix).flatten.length = 100 := by decide +kernel
  have htake := List.prefix_iff_eq_take.1 (prefix_replicate h 10)
  rw [List.take_append_of_le_length (by omega)] at htake
  rw [fixedSlug, List.take_take, min_eq_left hlen]
  exact htake

/-- Of single hyphens at most one is at the end. -/
theorem rdropWhile_of_single {u : Text} (h : u.IsChain Single) :
    u.rdropWhile (· = '-') = u ∨ u = u.rdropWhile (· = '-') ++ ['-'] := by
  rcases List.eq_nil_or_concat u with rfl | ⟨u, c, rfl⟩
  · exact Or.inl rfl
  by_cases hc : c = '-'
  · right
    subst hc
    have hlast : ∀ d, u.getLast? = some d → decide (d = '-') = false := by
      intro d hd
      rw [List.concat_eq_append] at h
      exact decide_eq_false fun hx =>
        h.rel_getLast_head_of_append (List.ne_nil_of_mem (List.mem_of_getLast? hd))
          (List.cons_ne_nil _ _) (by
            rw [← hx]
            exact Option.some.inj ((List.getLast?_eq_some_getLast _).symm.trans hd)) rfl
    rw [List.concat_eq_append, List.rdropWhile_concat_pos _ _ _ (by simp), rdropWhile_eq_self hlast]
  · left
    rw [List.concat_eq_append, List.rdropWhile_concat_neg _ _ _ (by simpa using hc)]

/-- **The listed identifier** of a slug has that slug for one slug only. -/
theorem sanitizeSlug_generated_iff (h : IsSlug t) :
    sanitizeSlug (listPrefix ++ t) = t ↔ t = fixedSlug := by
  have hlen : slugPrefix.length = 10 := by decide +kernel
  have hfixed : fixedSlug.length = 96 := by decide +kernel
  rw [sanitizeSlug_listPrefix h.toWords]
  constructor
  · intro hcut
    have hle := h.length_le
    have hchain : ((slugPrefix ++ t).take 96).IsChain Single :=
      (words_slugPrefix_append h.toWords).single.take 96
    have hprefix : ((slugPrefix ++ t).take 96).rdropWhile (· = '-') <+: slugPrefix ++ t :=
      (List.rdropWhile_prefix _ _).trans (List.take_prefix _ _)
    rw [hcut] at hprefix
    have heq := eq_of_prefix_slugPrefix hprefix h.length_le
    rcases rdropWhile_of_single hchain with hall | hone
    · -- nothing was cut off at the end, and so `t` has 96 characters
      rw [hcut] at hall
      have hl := congrArg List.length hall
      rw [List.length_take, List.length_append, hlen] at hl
      have h96 : t.length = 96 := by omega
      rw [heq, h96, List.take_of_length_le (by omega)]
    · -- a hyphen was, but there is none at this place
      rw [hcut] at hone
      have hl := congrArg List.length hone
      rw [List.length_take, List.length_append, List.length_append, hlen] at hl
      have h95 : t.length = 95 := by
        simp only [List.length_cons, List.length_nil] at hl
        omega
      rw [h95] at heq
      have hlast : ((slugPrefix ++ fixedSlug.take 95).take 96).getLast? ≠ some '-' := by
        decide +kernel
      rw [← heq, hone, List.getLast?_concat] at hlast
      exact absurd rfl hlast
  · rintro rfl
    decide +kernel

end Profiles

end InstallKit
