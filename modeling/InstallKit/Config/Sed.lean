import InstallKit.Sources.Text
import Mathlib.Data.List.MinMax

/-!
# Anchored basic regular expressions

The part of the basic regular expressions that has neither brackets nor escapes: a dot stands for
any character, and a star repeats what is left of it.  `strip` removes the longest match at the
start of a line, as the command `s#^RE##` of `sed` does, and leaves a line without a match alone.

* `mem_rests` : the matcher finds exactly the matches of the relation `Matches`;
* `Matches.length_eq` : without a star every match has the length of the expression;
* `not_matches_self` : with a star after a character other than a dot, no text matches itself;
* `Matches.double` : what a starred dot matches can be repeated with anything in between.
-/

namespace InstallKit

namespace Sed

open Sources

/-- A character, or the dot (`none`), possibly with a star. -/
structure Item where
  atom : Option Char
  starred : Bool
  deriving DecidableEq

/-- The atom matches the character. -/
def Item.accepts (i : Item) (c : Char) : Bool := i.atom.all (· = c)

/-- The items of an expression.  A star is an operator once something stands on its left (`after`),
and the stars that follow it change nothing. -/
def items : Bool → Text → List Item
  | _, [] => []
  | after, c :: t =>
    if after ∧ c = '*' then items true t
    else ⟨if c = '.' then none else some c, t.head? = some '*'⟩ :: items true t

/-- The texts that an expression matches. -/
inductive Matches : List Item → Text → Prop
  | nil : Matches [] []
  | one {i r c t} (hs : i.starred = false) (hc : i.accepts c = true) (h : Matches r t) :
      Matches (i :: r) (c :: t)
  | skip {i r t} (hs : i.starred = true) (h : Matches r t) : Matches (i :: r) t
  | again {i r c t} (hs : i.starred = true) (hc : i.accepts c = true) (h : Matches (i :: r) t) :
      Matches (i :: r) (c :: t)

/-! ### The matcher -/

/-- What is left of a text after any number of characters that an item accepts. -/
def runs (i : Item) : Text → List Text
  | [] => [[]]
  | c :: t => (c :: t) :: if i.accepts c then runs i t else []

/-- What is left of a text after one item. -/
def nexts (i : Item) (t : Text) : List Text :=
  if i.starred then runs i t
  else
    match t with
    | [] => []
    | c :: t => if i.accepts c then [t] else []

/-- What is left of a text after a match at its start. -/
def rests : List Item → Text → List Text
  | [], t => [t]
  | i :: r, t => (nexts i t).flatMap (rests r)

/-- A line without its longest match at the start. -/
def strip (p : List Item) (line : Text) : Text := ((rests p line).argmin List.length).getD line

variable {i : Item} {p q r : List Item} {s t u w : Text} {c : Char}

theorem mem_runs : s ∈ runs i t ↔ ∃ u, t = u ++ s ∧ ∀ c ∈ u, i.accepts c = true := by
  induction t with
  | nil =>
    constructor
    · intro h
      obtain rfl := List.mem_singleton.1 h
      exact ⟨[], rfl, by simp⟩
    · rintro ⟨u, hu, -⟩
      rw [(List.append_eq_nil_iff.1 hu.symm).2]
      exact List.mem_singleton_self _
  | cons c t ih =>
    rw [runs, List.mem_cons]
    constructor
    · rintro (rfl | h)
      · exact ⟨[], rfl, by simp⟩
      · split at h
        · rename_i hc
          obtain ⟨u, rfl, hu⟩ := ih.1 h
          exact ⟨c :: u, rfl, by simpa [hc] using hu⟩
        · cases h
    · rintro ⟨u, hu, hall⟩
      cases u with
      | nil => exact Or.inl hu.symm
      | cons d u =>
        obtain ⟨rfl, rfl⟩ := List.cons.inj hu
        rw [List.forall_mem_cons] at hall
        rw [if_pos hall.1]
        exact Or.inr (ih.2 ⟨u, rfl, hall.2⟩)

/-- A starred item matches any number of characters that it accepts. -/
theorem matches_starred (hs : i.starred = true) :
    Matches (i :: r) t ↔ ∃ u s, t = u ++ s ∧ (∀ c ∈ u, i.accepts c = true) ∧ Matches r s := by
  constructor
  · intro h
    -- the induction is on the derivation, for this one expression
    generalize hp : i :: r = p at h
    induction h with
    | nil => cases hp
    | one hs' hc h ih =>
      obtain ⟨rfl, rfl⟩ := List.cons.inj hp
      rw [hs] at hs'
      cases hs'
    | skip hs' h ih =>
      obtain ⟨rfl, rfl⟩ := List.cons.inj hp
      exact ⟨[], _, rfl, by simp, h⟩
    | again hs' hc h ih =>
      obtain ⟨u, s, rfl, hu, hr⟩ := ih hp
      obtain ⟨rfl, rfl⟩ := List.cons.inj hp
      exact ⟨_ :: u, s, rfl, List.forall_mem_cons.2 ⟨hc, hu⟩, hr⟩
  · rintro ⟨u, s, rfl, hu, hr⟩
    induction u with
    | nil => exact .skip hs hr
    | cons c u ih =>
      rw [List.forall_mem_cons] at hu
      exact .again hs hu.1 (ih hu.2)

theorem matches_unstarred (hs : i.starred = false) :
    Matches (i :: r) t ↔ ∃ c s, t = c :: s ∧ i.accepts c = true ∧ Matches r s := by
  constructor
  · intro h
    cases h with
    | one _ hc h => exact ⟨_, _, rfl, hc, h⟩
    | skip hs' _ => rw [hs] at hs'; cases hs'
    | again hs' _ _ => rw [hs] at hs'; cases hs'
  · rintro ⟨c, s, rfl, hc, h⟩
    exact .one hs hc h

/-- **The matcher is exact.** -/
theorem mem_rests : s ∈ rests p t ↔ ∃ u, t = u ++ s ∧ Matches p u := by
  induction p generalizing t with
  | nil =>
    rw [rests, List.mem_singleton]
    constructor
    · rintro rfl
      exact ⟨[], rfl, .nil⟩
    · rintro ⟨u, rfl, h⟩
      cases h
      rfl
  | cons i r ih =>
    simp only [rests, nexts, List.mem_flatMap, ih]
    cases hs : i.starred with
    | true =>
      -- a starred item takes a run of characters
      rw [if_pos rfl]
      constructor
      · rintro ⟨t', ht', v, rfl, hv⟩
        obtain ⟨u, rfl, hu⟩ := mem_runs.1 ht'
        exact ⟨u ++ v, by rw [List.append_assoc], (matches_starred hs).2 ⟨u, v, rfl, hu, hv⟩⟩
      · rintro ⟨x, rfl, hx⟩
        obtain ⟨u, v, rfl, hu, hv⟩ := (matches_starred hs).1 hx
        exact ⟨v ++ s, mem_runs.2 ⟨u, by rw [List.append_assoc], hu⟩, v, rfl, hv⟩
    | false =>
      -- any other item takes one
      rw [if_neg (by simp)]
      constructor
      · rintro ⟨t', ht', v, rfl, hv⟩
        cases t with
        | nil => cases ht'
        | cons c t =>
          obtain ⟨hc, ht⟩ := List.mem_ite_nil_right.1 ht'
          obtain rfl := List.mem_singleton.1 ht
          exact ⟨c :: v, rfl, .one hs hc hv⟩
      · rintro ⟨x, rfl, hx⟩
        obtain ⟨c, v, rfl, hc, hv⟩ := (matches_unstarred hs).1 hx
        refine ⟨v ++ s, ?_, v, rfl, hv⟩
        simp [hc]

/-- **A match is stripped** when there is no longer one. -/
theorem strip_append (h : Matches p u)
    (hlong : ∀ u' s', u ++ s = u' ++ s' → Matches p u' → u'.length ≤ u.length) :
    strip p (u ++ s) = s := by
  have hmem : s ∈ rests p (u ++ s) := mem_rests.2 ⟨u, rfl, h⟩
  cases hm : (rests p (u ++ s)).argmin List.length with
  | none =>
    rw [List.argmin_eq_none.1 hm] at hmem
    cases hmem
  | some s' =>
    obtain ⟨u', he, hu'⟩ := mem_rests.1 (List.argmin_mem hm)
    have hle : s'.length ≤ s.length := List.le_of_mem_argmin hmem hm
    have hle' := hlong u' s' he hu'
    rw [strip, hm, Option.getD_some]
    have hlen := congrArg List.length he
    rw [List.length_append, List.length_append] at hlen
    exact ((List.append_inj' he (by omega)).2).symm

/-- What is stripped is a match, the longest one. -/
theorem exists_of_strip (h : Matches p u) (he : t = u ++ s) :
    ∃ v, t = v ++ strip p t ∧ Matches p v ∧ u.length ≤ v.length := by
  have hmem : s ∈ rests p t := mem_rests.2 ⟨u, he, h⟩
  cases hm : (rests p t).argmin List.length with
  | none =>
    rw [List.argmin_eq_none.1 hm] at hmem
    cases hmem
  | some s' =>
    obtain ⟨v, hv, hmatch⟩ := mem_rests.1 (List.argmin_mem hm)
    have hle : s'.length ≤ s.length := List.le_of_mem_argmin hmem hm
    rw [strip, hm, Option.getD_some]
    refine ⟨v, hv, hmatch, ?_⟩
    have h₁ := congrArg List.length he
    have h₂ := congrArg List.length hv
    rw [List.length_append] at h₁ h₂
    omega

/-- A line loses nothing, or a match. -/
theorem strip_cases (p : List Item) (t : Text) :
    strip p t = t ∨ ∃ u, t = u ++ strip p t ∧ Matches p u := by
  rw [strip]
  cases hm : (rests p t).argmin List.length with
  | none => exact Or.inl rfl
  | some s => exact Or.inr (mem_rests.1 (List.argmin_mem hm))

/-! ### Expressions without a star -/

theorem items_cons_of_ne (after : Bool) (h : c ≠ '*') :
    items after (c :: t) =
      ⟨if c = '.' then none else some c, t.head? = some '*'⟩ :: items true t := by
  rw [items, if_neg fun hc => h hc.2]

theorem starred_items (h : '*' ∉ t) (after : Bool) : ∀ i ∈ items after t, i.starred = false := by
  induction t generalizing after with
  | nil => simp [items]
  | cons c t ih =>
    rw [List.mem_cons, not_or] at h
    rw [items_cons_of_ne after fun hc => h.1 hc.symm, List.forall_mem_cons]
    refine ⟨decide_eq_false fun hhead => h.2 (List.mem_of_mem_head? hhead), ih h.2 true⟩

/-- **Without a star a match has the length of the expression.** -/
theorem Matches.length_eq (h : Matches p u) (hp : ∀ i ∈ p, i.starred = false) :
    u.length = p.length := by
  induction h with
  | nil => rfl
  | one hs hc h ih =>
    rw [List.length_cons, List.length_cons, ih fun i hi => hp i (List.mem_cons_of_mem _ hi)]
  | skip hs h ih => rw [hp _ List.mem_cons_self] at hs; cases hs
  | again hs hc h ih => rw [hp _ List.mem_cons_self] at hs; cases hs

theorem accepts_self (c : Char) (b : Bool) :
    Item.accepts ⟨if c = '.' then none else some c, b⟩ c = true := by
  unfold Item.accepts
  split <;> simp

/-- A text without a star matches itself. -/
theorem matches_self (h : '*' ∉ t) (after : Bool) : Matches (items after t) t := by
  have hs := starred_items h after
  induction t generalizing after with
  | nil => exact .nil
  | cons c t ih =>
    rw [List.mem_cons, not_or] at h
    rw [items_cons_of_ne after fun hc => h.1 hc.symm] at hs ⊢
    rw [List.forall_mem_cons] at hs
    exact .one hs.1 (accepts_self c _) (ih h.2 true (starred_items h.2 true))

/-! ### Expressions with a star -/

/-- The characters that only a dot matches. -/
def isWild (c : Char) : Bool := c = '.' ∨ c = '*'

/-- The dots of an expression. -/
def dots (p : List Item) : ℕ := p.countP (·.atom = none)

theorem dots_items (t : Text) : dots (items true t) = t.countP (· = '.') := by
  induction t with
  | nil => rfl
  | cons c t ih =>
    by_cases hc : c = '*'
    · rw [items, if_pos ⟨rfl, hc⟩, ih, hc]
      rfl
    · rw [items_cons_of_ne true hc, dots, List.countP_cons, List.countP_cons]
      rw [dots] at ih
      by_cases hd : c = '.' <;> simp [ih, hd]

theorem atom_items : ∀ i ∈ items true t, ∀ c, i.atom = some c → isWild c = false := by
  induction t with
  | nil => simp [items]
  | cons c t ih =>
    by_cases hc : c = '*'
    · rw [items, if_pos ⟨rfl, hc⟩]
      exact ih
    · rw [items_cons_of_ne true hc, List.forall_mem_cons]
      refine ⟨fun d hd => ?_, ih⟩
      by_cases hdot : c = '.'
      · simp [hdot] at hd
      · obtain rfl : c = d := by simpa [hdot] using hd
        simp [isWild, hdot, hc]

/-- Every wild character of a match takes a dot, unless a dot is starred. -/
theorem Matches.countP_le (h : Matches p u)
    (hatom : ∀ i ∈ p, ∀ c, i.atom = some c → isWild c = false)
    (hstar : ∀ i ∈ p, i.starred = true → i.atom ≠ none) : u.countP isWild ≤ dots p := by
  -- a character that is accepted by an atom other than the dot is not wild
  have hnot : ∀ {i : Item} {c : Char}, (∀ c, i.atom = some c → isWild c = false) →
      i.accepts c = true → i.atom ≠ none → isWild c = false := by
    intro i c hi hc hne
    obtain ⟨d, hd⟩ := Option.ne_none_iff_exists'.1 hne
    obtain rfl : d = c := by simpa [Item.accepts, hd] using hc
    exact hi d hd
  induction h with
  | nil => exact le_rfl
  | @one i r c t hs hc h ih =>
    rw [List.forall_mem_cons] at hatom hstar
    have := ih hatom.2 hstar.2
    rw [dots, List.countP_cons, List.countP_cons]
    rw [dots] at this
    by_cases hne : i.atom = none
    · simp only [hne, decide_true, if_true]
      split <;> omega
    · rw [hnot hatom.1 hc hne]
      simp only [hne, decide_false]
      omega
  | @skip i r t hs h ih =>
    rw [List.forall_mem_cons] at hatom hstar
    have := ih hatom.2 hstar.2
    rw [dots, List.countP_cons]
    rw [dots] at this
    omega
  | @again i r c t hs hc h ih =>
    have := ih hatom hstar
    rw [List.forall_mem_cons] at hatom hstar
    rw [List.countP_cons, hnot hatom.1 hc (hstar.1 hs)]
    simpa using this

theorem countP_isWild (t : Text) :
    t.countP isWild = t.countP (· = '.') + t.countP (· = '*') := by
  induction t with
  | nil => rfl
  | cons c t ih =>
    rw [List.countP_cons, List.countP_cons, List.countP_cons, ih]
    by_cases hd : c = '.'
    · simp [isWild, hd]
      omega
    · by_cases hs : c = '*' <;> simp [isWild, hd, hs]
      omega

/-- **A text with a star does not match itself**, unless a dot is starred: nothing but a dot
matches the star, and the dots are taken by the dots. -/
theorem not_matches_self (h : '*' ∈ t)
    (hstar : ∀ i ∈ items true t, i.starred = true → i.atom ≠ none) :
    ¬ Matches (items true t) t := by
  intro hm
  have hle := hm.countP_le atom_items hstar
  rw [dots_items, countP_isWild] at hle
  have hpos : 0 < t.countP (· = '*') := List.countP_pos_iff.2 ⟨_, h, by simp⟩
  omega

theorem matches_append : Matches (p ++ q) t ↔ ∃ u v, t = u ++ v ∧ Matches p u ∧ Matches q v := by
  induction p generalizing t with
  | nil =>
    constructor
    · intro h
      exact ⟨[], t, rfl, .nil, h⟩
    · rintro ⟨u, v, rfl, hu, hv⟩
      cases hu
      exact hv
  | cons i p ih =>
    rw [List.cons_append]
    cases hs : i.starred with
    | true =>
      rw [matches_starred hs]
      constructor
      · rintro ⟨x, y, rfl, hx, hy⟩
        obtain ⟨u, v, rfl, hu, hv⟩ := ih.1 hy
        exact ⟨x ++ u, v, by simp, (matches_starred hs).2 ⟨x, u, rfl, hx, hu⟩, hv⟩
      · rintro ⟨u, v, rfl, hu, hv⟩
        obtain ⟨x, y, rfl, hx, hy⟩ := (matches_starred hs).1 hu
        exact ⟨x, y ++ v, by simp, hx, ih.2 ⟨y, v, rfl, hy, hv⟩⟩
    | false =>
      rw [matches_unstarred hs]
      constructor
      · rintro ⟨c, y, rfl, hc, hy⟩
        obtain ⟨u, v, rfl, hu, hv⟩ := ih.1 hy
        exact ⟨c :: u, v, rfl, .one hs hc hu, hv⟩
      · rintro ⟨u, v, rfl, hu, hv⟩
        obtain ⟨c, y, rfl, hc, hy⟩ := (matches_unstarred hs).1 hu
        exact ⟨c, y ++ v, rfl, hc, ih.2 ⟨y, v, rfl, hy, hv⟩⟩

/-- **A starred dot also matches what it matched twice**, with anything in between. -/
theorem Matches.double (h : Matches p w) (hi : i ∈ p) (hs : i.starred = true)
    (hany : i.atom = none) (x : Text) : Matches p (w ++ x ++ w) := by
  obtain ⟨p₁, p₂, rfl⟩ := List.append_of_mem hi
  obtain ⟨u, v, rfl, hu, hv⟩ := matches_append.1 h
  obtain ⟨y, z, rfl, -, hz⟩ := (matches_starred hs).1 hv
  have hall : ∀ c ∈ y ++ z ++ x ++ u ++ y, i.accepts c = true := by
    simp [Item.accepts, hany]
  exact matches_append.2 ⟨u, y ++ z ++ x ++ u ++ y ++ z, by simp, hu,
    (matches_starred hs).2 ⟨_, z, rfl, hall, hz⟩⟩

/-- The last item of an expression that ends in an ordinary character. -/
theorem items_concat (after : Bool) (hc : c ≠ '*') (hne : t ≠ []) :
    items after (t ++ [c]) = items after t ++ [⟨if c = '.' then none else some c, false⟩] := by
  induction t generalizing after with
  | nil => exact absurd rfl hne
  | cons d t ih =>
    cases t with
    | nil =>
      by_cases hd : after = true ∧ d = '*'
      · simp [items, hd, hc]
      · simp [items, hd, hc]
    | cons e t =>
      have := ih true (by simp)
      by_cases hd : after = true ∧ d = '*'
      · rw [List.cons_append, items, items, if_pos hd, if_pos hd, this]
      · rw [List.cons_append, items, items, if_neg hd, if_neg hd, this]
        rfl

/-- A match of such an expression ends in that character. -/
theorem Matches.getLast?_eq (h : Matches (items after (t ++ ['/'])) u) (hne : t ≠ []) :
    ∃ v, u = v ++ ['/'] := by
  rw [items_concat after (by decide) hne] at h
  obtain ⟨v, w, rfl, -, hw⟩ := matches_append.1 h
  obtain ⟨c, s, rfl, hc, hs⟩ := (matches_unstarred rfl).1 hw
  cases hs
  obtain rfl : '/' = c := by simpa [Item.accepts] using hc
  exact ⟨v, rfl⟩

end Sed

end InstallKit
