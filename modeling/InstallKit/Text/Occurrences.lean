import Mathlib.Data.List.Infix

/-!
# Occurrences of a word in a text

Edits of a text by search and replace, over any alphabet.

* `count`, `replaceFirst` and `replaceAll` are `str.count`, `str.replace(old, new, 1)` and
  `str.replace(old, new)` of Python for a word `old` that is not empty: matches are taken from the
  left and do not overlap.
* `occ k t` counts all places of `t` where `k` begins, overlapping or not.  It is what adds up when
  a text is put together from pieces.
* `Apart u v` : no occurrence of `u` crosses an end of an inserted `v`, so that
  `occ u (a ++ v ++ b)` is the sum over the three pieces (`occ_insert`).

From these come `replaceFirst_undo`, for a block that holds a mark which occurs only once, and
`not_infix_of_mark`, by which two different surroundings of the mark exclude each other.
-/

namespace InstallKit

namespace Text

variable {α : Type*} [DecidableEq α]

/-- The number of places of a text at which the word `k` begins. -/
def occ (k : List α) : List α → Nat
  | [] => 0
  | x :: t => (if k <+: x :: t then 1 else 0) + occ k t

/-- The number of matches of `k`, when the next `n` characters still belong to the last match. -/
def countFrom (k : List α) : Nat → List α → Nat
  | _, [] => 0
  | n + 1, _ :: t => countFrom k n t
  | 0, x :: t => if k <+: x :: t then countFrom k (k.length - 1) t + 1 else countFrom k 0 t

/-- The number of matches of `k` that do not overlap, from the left. -/
def count (k t : List α) : Nat := countFrom k 0 t

/-- The text with the first match of `old` replaced. -/
def replaceFirst (old new : List α) : List α → List α
  | [] => []
  | x :: t =>
    if old <+: x :: t then new ++ (x :: t).drop old.length else x :: replaceFirst old new t

/-- The text with the matches of `old` replaced, when the next `n` characters still belong to the
last match. -/
def replaceFrom (old new : List α) : Nat → List α → List α
  | _, [] => []
  | n + 1, _ :: t => replaceFrom old new n t
  | 0, x :: t =>
    if old <+: x :: t then new ++ replaceFrom old new (old.length - 1) t
    else x :: replaceFrom old new 0 t

/-- The text with every match of `old` replaced. -/
def replaceAll (old new t : List α) : List α := replaceFrom old new 0 t

/-- No occurrence of `u` crosses an end of a `v` in a longer text: no proper suffix of `u` begins
`v`, no suffix of `v` properly begins `u`, and `v` is not inside `u`. -/
def Apart (u v : List α) : Prop :=
  (∀ s ∈ u.tails, s <+: v → s = [] ∨ s = u) ∧ (∀ s ∈ v.tails, s <+: u → s = [] ∨ s = u) ∧
    (v <:+: u → v = u)

instance (u v : List α) : Decidable (Apart u v) :=
  inferInstanceAs (Decidable (_ ∧ _ ∧ _))

variable {k u v w t a b a' b' old new : List α}

/-! ### Occurrences -/

@[simp] theorem occ_nil : occ k [] = 0 := rfl

theorem occ_cons {x : α} : occ k (x :: t) = (if k <+: x :: t then 1 else 0) + occ k t := rfl

theorem occ_pos_iff (hk : k ≠ []) : 0 < occ k t ↔ k <:+: t := by
  induction t with
  | nil => simp [hk]
  | cons x t ih =>
    rw [occ_cons, List.infix_cons_iff, ← ih]
    split
    · next h => simp only [h, true_or, iff_true]; omega
    · next h => simp only [h, false_or, Nat.zero_add]

theorem occ_eq_zero_iff (hk : k ≠ []) : occ k t = 0 ↔ ¬ k <:+: t := by
  rw [← occ_pos_iff hk]
  omega

/-- Occurrences add up where no occurrence crosses the seam. -/
theorem occ_append
    (h : ∀ p s, u = p ++ s → p ≠ [] → s ≠ [] → p <:+ a → ¬ s <+: b) :
    occ u (a ++ b) = occ u a + occ u b := by
  induction a with
  | nil => simp
  | cons x a ih =>
    have hx : u <+: x :: a ++ b ↔ u <+: x :: a := by
      refine ⟨fun hu => ?_, fun hu => hu.trans (List.prefix_append _ _)⟩
      -- a match that is no prefix of the left part goes on into the right one
      rcases List.prefix_or_prefix_of_prefix hu (List.prefix_append (x :: a) b) with hu' | ⟨s, rfl⟩
      · exact hu'
      · rcases eq_or_ne s [] with rfl | hs
        · simp
        · exact absurd ((List.prefix_append_right_inj _).1 hu)
            (h _ _ rfl (by simp) hs List.suffix_rfl)
    have ih' := ih fun p s hu hp hs hpa =>
      h p s hu hp hs (hpa.trans (List.suffix_cons x a))
    rw [List.cons_append, occ_cons, occ_cons, ih', ← List.cons_append, if_congr hx rfl rfl]
    omega

omit [DecidableEq α] in
theorem Apart.left (h : Apart u v) {p s : List α} (hu : u = p ++ s) (hp : p ≠ []) (hs : s ≠ []) :
    ¬ s <+: v ++ b := by
  intro hsv
  rcases List.prefix_or_prefix_of_prefix hsv (List.prefix_append v b) with hs' | ⟨r, rfl⟩
  · rcases h.1 s ((List.mem_tails _ _).2 ⟨p, hu.symm⟩) hs' with h0 | h0
    · exact hs h0
    · exact hp (List.append_left_eq_self.1 (hu.symm.trans h0.symm))
  · -- the whole of `v` is inside `u`
    have huv := h.2.2 ⟨p, r, by rw [hu, List.append_assoc]⟩
    have hl := congrArg List.length (huv.trans hu)
    have := List.length_pos_of_ne_nil hp
    simp only [List.length_append] at hl
    omega

omit [DecidableEq α] in
theorem Apart.right (h : Apart u v) {p s : List α} (hu : u = p ++ s) (hp : p ≠ []) (hs : s ≠ []) :
    ¬ p <:+ v := by
  intro hpv
  rcases h.2.1 p ((List.mem_tails _ _).2 hpv) ⟨s, hu.symm⟩ with h0 | h0
  · exact hp h0
  · exact hs (List.append_right_eq_self.1 (hu.symm.trans h0.symm))

/-- The occurrences of `u` around and inside an inserted `v`. -/
theorem occ_insert (h : Apart u v) : occ u (a ++ v ++ b) = occ u a + occ u v + occ u b := by
  have hv : occ u (v ++ b) = occ u v + occ u b :=
    occ_append fun p s hu hp hs hpv => absurd hpv (h.right hu hp hs)
  rw [List.append_assoc, occ_append fun p s hu hp hs _ => h.left hu hp hs, hv, Nat.add_assoc]

/-- A replacement that gains and loses no occurrence. -/
theorem occ_replace (ho : Apart u old) (hn : Apart u new) (he : occ u old = occ u new) :
    occ u (a ++ old ++ b) = occ u (a ++ new ++ b) := by
  rw [occ_insert ho, occ_insert hn, he]

/-- Where `x :: k` begins, `k` begins one place later. -/
theorem occ_cons_le {x : α} (hk : k ≠ []) : occ (x :: k) t ≤ occ k t.tail := by
  induction t with
  | nil => simp
  | cons y t ih =>
    have ht : occ k t = (if k <+: t then 1 else 0) + occ k t.tail := by
      cases t with
      | nil => simp [hk]
      | cons z t => rfl
    rw [occ_cons, List.tail_cons, ht]
    refine Nat.add_le_add ?_ ih
    split
    · next h => rw [if_pos (List.cons_prefix_cons.1 h).2]
    · exact Nat.zero_le _

theorem occ_tail_le : occ k t.tail ≤ occ k t := by
  cases t with
  | nil => simp
  | cons x t => rw [List.tail_cons, occ_cons]; omega

theorem occ_le_of_append_left (hk : k ≠ []) : occ (a ++ k) t ≤ occ k t := by
  induction a with
  | nil => simp
  | cons x a ih => exact ((occ_cons_le (by simp [hk])).trans occ_tail_le).trans ih

theorem occ_le_of_append_right : occ (k ++ b) t ≤ occ k t := by
  induction t with
  | nil => simp
  | cons x t ih =>
    rw [occ_cons, occ_cons]
    refine Nat.add_le_add ?_ ih
    split
    · next h => rw [if_pos ((List.prefix_append k b).trans h)]
    · exact Nat.zero_le _

/-- A word occurs at most as often as a part of it. -/
theorem occ_le_of_infix (hk : k ≠ []) (h : k <:+: w) : occ w t ≤ occ k t := by
  obtain ⟨a, b, rfl⟩ := h
  exact occ_le_of_append_right.trans (occ_le_of_append_left hk)

theorem occ_append_self (hk : k ≠ []) : occ k (k ++ b) = occ k (k ++ b).tail + 1 := by
  cases k with
  | nil => exact absurd rfl hk
  | cons x k =>
    rw [List.cons_append, occ_cons, ← List.cons_append, if_pos (List.prefix_append _ _),
      List.cons_append, List.tail_cons]
    omega

/-- Two occurrences of a word that occurs only once are the same. -/
theorem eq_of_occ_le_one (hk : k ≠ []) (h1 : occ k (a ++ k ++ b) ≤ 1)
    (h : a ++ k ++ b = a' ++ k ++ b') : a = a' ∧ b = b' := by
  induction a generalizing a' with
  | nil =>
    cases a' with
    | nil => exact ⟨rfl, by simpa using h⟩
    | cons x a' =>
      -- a second occurrence, behind the first character
      have h2 : occ k (k ++ b).tail ≠ 0 := by
        rw [Ne, occ_eq_zero_iff hk, not_not]
        rw [List.nil_append] at h
        exact ⟨a', b', by rw [h]; simp⟩
      rw [List.nil_append, occ_append_self hk] at h1
      omega
  | cons x a ih =>
    cases a' with
    | nil =>
      have h2 : occ k (k ++ b').tail ≠ 0 := by
        rw [Ne, occ_eq_zero_iff hk, not_not]
        rw [List.nil_append] at h
        exact ⟨a, b, by rw [← h]; simp⟩
      rw [h, List.nil_append, occ_append_self hk] at h1
      omega
    | cons y a' =>
      simp only [List.cons_append, List.cons.injEq] at h
      obtain ⟨rfl, h⟩ := h
      have h1' : occ k (a ++ k ++ b) ≤ 1 := by
        refine le_trans ?_ h1
        rw [List.cons_append, List.cons_append, occ_cons]
        omega
      obtain ⟨rfl, rfl⟩ := ih h1' h
      exact ⟨rfl, rfl⟩

omit [DecidableEq α] in
/-- A word does not go across a character that is not in it. -/
theorem infix_append_cons_iff {c : α} (hc : c ∉ k) :
    k <:+: a ++ c :: b ↔ k <:+: a ∨ k <:+: b := by
  constructor
  · rintro ⟨x, y, h⟩
    have hk := List.append_eq_append_iff.1 ((List.append_assoc x k y).symm.trans h)
    rcases hk with ⟨u, ha, hku⟩ | ⟨u, hx, hu⟩
    · -- it begins before the character, so it ends there, too
      rcases List.append_eq_append_iff.1 hku with ⟨v, hu, -⟩ | ⟨v, hkv, hv⟩
      · exact Or.inl ⟨x, v, by rw [ha, hu, List.append_assoc]⟩
      · cases v with
        | nil => exact Or.inl ⟨x, [], by rw [ha, hkv]; simp⟩
        | cons d v =>
          rw [List.cons_append, List.cons.injEq] at hv
          exact absurd (by rw [hkv, hv.1]; simp) hc
    · -- it begins at the character or behind it
      cases u with
      | nil =>
        cases k with
        | nil => exact Or.inl (List.nil_infix)
        | cons d k =>
          rw [List.nil_append, List.cons_append, List.cons.injEq] at hu
          exact absurd (by rw [hu.1]; simp) hc
      | cons d u =>
        rw [List.cons_append, List.cons.injEq] at hu
        exact Or.inr ⟨u, y, by rw [hu.2, List.append_assoc]⟩
  · rintro (h | h)
    · exact h.trans (List.prefix_append _ _).isInfix
    · exact h.trans ((List.suffix_cons c b).trans (List.suffix_append a _)).isInfix

omit [DecidableEq α] in
/-- A word that does not begin with a character lies behind its repetitions. -/
theorem infix_replicate_append_iff {c : α} {n : Nat} (hc : k.head? ≠ some c) :
    k <:+: List.replicate n c ++ b ↔ k <:+: b := by
  induction n with
  | zero => simp
  | succ n ih =>
    rw [List.replicate_succ, List.cons_append, List.infix_cons_iff, ih]
    refine or_iff_right_of_imp fun hp => ?_
    cases k with
    | nil => exact List.nil_infix
    | cons d k =>
      obtain ⟨rfl, -⟩ := List.cons_prefix_cons.1 hp
      exact absurd rfl hc

/-! ### Matches from the left -/

theorem countFrom_eq (n : Nat) : countFrom k n t = count k (t.drop n) := by
  induction n generalizing t with
  | zero => rw [List.drop_zero, count]
  | succ n ih =>
    cases t with
    | nil => simp [count, countFrom]
    | cons x t => rw [countFrom, ih, List.drop_succ_cons]

theorem countFrom_le_occ (n : Nat) : countFrom k n t ≤ occ k t := by
  induction t generalizing n with
  | nil => cases n <;> simp [countFrom]
  | cons x t ih =>
    cases n with
    | zero =>
      rw [countFrom, occ_cons]
      split
      · have := ih (k.length - 1)
        omega
      · simpa using ih 0
    | succ n =>
      rw [countFrom, occ_cons]
      have := ih n
      omega

theorem count_le_occ : count k t ≤ occ k t := countFrom_le_occ 0

theorem count_cons_of_not {x : α} (h : ¬ k <+: x :: t) : count k (x :: t) = count k t := by
  rw [count, countFrom, if_neg h, count]

theorem count_pos_iff (hk : k ≠ []) : 0 < count k t ↔ k <:+: t := by
  refine ⟨fun h => (occ_pos_iff hk).1 (h.trans_le count_le_occ), fun h => ?_⟩
  induction t with
  | nil => exact absurd (List.infix_nil.1 h) hk
  | cons x t ih =>
    rw [count, countFrom]
    split
    · omega
    · next hx => exact ih ((List.infix_cons_iff.1 h).resolve_left hx)

theorem count_eq_zero_iff (hk : k ≠ []) : count k t = 0 ↔ ¬ k <:+: t := by
  rw [← count_pos_iff hk]
  omega

theorem count_eq_one_of_occ (hk : k ≠ []) (h : occ k t = 1) : count k t = 1 := by
  have h0 := (count_pos_iff (t := t) hk).2 ((occ_pos_iff hk).1 (by omega))
  have h1 := count_le_occ (k := k) (t := t)
  omega

/-- A word that does not overlap itself is found at all its places. -/
theorem count_eq_occ (h : Apart k k) (hk : k ≠ []) : count k t = occ k t := by
  induction hn : t.length using Nat.strong_induction_on generalizing t with
  | h n ih =>
    subst hn
    cases t with
    | nil => rfl
    | cons x t =>
      by_cases hx : k <+: x :: t
      · -- the next match starts behind this one, and so does the next occurrence
        obtain ⟨r, hr⟩ := hx
        obtain ⟨y, k', rfl⟩ := List.exists_cons_of_ne_nil hk
        obtain ⟨rfl, rfl⟩ : y = x ∧ k' ++ r = t := by simpa using hr
        have hin : occ (y :: k') k' = 0 := by
          rw [occ_eq_zero_iff hk]
          intro hin
          have := hin.length_le
          simp only [List.length_cons] at this
          omega
        have hocc : occ (y :: k') (k' ++ r) = occ (y :: k') r := by
          rw [occ_append, hin, Nat.zero_add]
          intro p s hu hp hs hpa
          exact absurd (hpa.trans (List.suffix_cons y k')) (h.right hu hp hs)
        rw [count, countFrom, if_pos ⟨r, rfl⟩, countFrom_eq, occ_cons, if_pos ⟨r, rfl⟩, hocc]
        simp only [List.length_cons, Nat.add_sub_cancel, List.drop_left]
        have hshort : r.length < (y :: (k' ++ r)).length := by
          rw [List.length_cons, List.length_append]
          omega
        rw [ih r.length hshort rfl, Nat.add_comm]
      · rw [count_cons_of_not hx, occ_cons, if_neg hx, Nat.zero_add]
        exact ih t.length (by simp) rfl

/-- The first match of a word that occurs is replaced. -/
theorem exists_replaceFirst (new : List α) (hk : old ≠ []) (h : old <:+: t) :
    ∃ a b, t = a ++ old ++ b ∧ replaceFirst old new t = a ++ new ++ b := by
  induction t with
  | nil => exact absurd (List.infix_nil.1 h) hk
  | cons x t ih =>
    rw [replaceFirst]
    split
    · next hx =>
      obtain ⟨b, hb⟩ := hx
      exact ⟨[], b, by simpa using hb.symm, by rw [← hb, List.drop_left, List.nil_append]⟩
    · next hx =>
      obtain ⟨a, b, rfl, hr⟩ := ih ((List.infix_cons_iff.1 h).resolve_left hx)
      exact ⟨x :: a, b, by simp, by rw [hr]; simp⟩

/-- The only occurrence of a word is replaced. -/
theorem replaceFirst_of_occ (hk : old ≠ []) (h : occ old (a ++ old ++ b) ≤ 1) :
    replaceFirst old new (a ++ old ++ b) = a ++ new ++ b := by
  obtain ⟨a', b', ht, hr⟩ := exists_replaceFirst new hk ⟨a, b, rfl⟩
  obtain ⟨rfl, rfl⟩ := eq_of_occ_le_one hk h ht
  exact hr

/-! ### All matches -/

theorem replaceFrom_eq (n : Nat) : replaceFrom old new n t = replaceAll old new (t.drop n) := by
  induction t generalizing n with
  | nil => cases n <;> rfl
  | cons x t ih =>
    cases n with
    | zero => rfl
    | succ n => exact ih n

theorem replaceAll_of_prefix (hk : old ≠ []) :
    replaceAll old new (old ++ b) = new ++ replaceAll old new b := by
  obtain ⟨x, k, rfl⟩ := List.exists_cons_of_ne_nil hk
  rw [replaceAll, List.cons_append, replaceFrom, if_pos ⟨b, rfl⟩, replaceFrom_eq,
    List.length_cons, Nat.add_sub_cancel, List.drop_left]

theorem replaceAll_cons_of_not {x : α} (h : ¬ old <+: x :: t) :
    replaceAll old new (x :: t) = x :: replaceAll old new t := by
  rw [replaceAll, replaceFrom, if_neg h]
  rfl

theorem replaceAll_of_absent (h : ¬ old <:+: t) : replaceAll old new t = t := by
  induction t with
  | nil => rfl
  | cons x t ih =>
    rw [List.infix_cons_iff, not_or] at h
    rw [replaceAll_cons_of_not h.1, ih h.2]

/-- The first match is replaced, and then those in the rest. -/
theorem exists_replaceAll (new : List α) (hk : old ≠ []) (h : old <:+: t) :
    ∃ a b, t = a ++ old ++ b ∧ ¬ old <:+: a ∧
      replaceAll old new t = a ++ new ++ replaceAll old new b := by
  induction t with
  | nil => exact absurd (List.infix_nil.1 h) hk
  | cons x t ih =>
    by_cases hx : old <+: x :: t
    · obtain ⟨b, hb⟩ := hx
      refine ⟨[], b, by simpa using hb.symm, fun hnil => hk (List.infix_nil.1 hnil), ?_⟩
      rw [← hb, replaceAll_of_prefix hk, List.nil_append]
    · obtain ⟨a, b, rfl, ha, hr⟩ := ih ((List.infix_cons_iff.1 h).resolve_left hx)
      refine ⟨x :: a, b, by simp, fun hxa => ?_, by rw [replaceAll_cons_of_not hx, hr]; simp⟩
      rcases List.infix_cons_iff.1 hxa with hpre | hin
      · exact hx (hpre.trans ⟨old ++ b, by simp⟩)
      · exact ha hin

/-- **No match is left**, where the new text makes none with its surroundings. -/
theorem not_infix_replaceAll (hk : old ≠ []) (hn : Apart old new) (h0 : ¬ old <:+: new) :
    ¬ old <:+: replaceAll old new t := by
  induction hlen : t.length using Nat.strong_induction_on generalizing t with
  | _ n ih =>
    by_cases h : old <:+: t
    · obtain ⟨a, b, rfl, ha, hr⟩ := exists_replaceAll new hk h
      have hpos : 0 < old.length := List.length_pos_iff.2 hk
      have hb := ih b.length (by simp only [List.length_append] at hlen; omega) rfl
      rw [← occ_eq_zero_iff hk] at ha h0 hb ⊢
      rw [hr, occ_insert hn, ha, h0, hb]
    · rwa [replaceAll_of_absent h]

/-- A property of all characters, which both texts have, is neither gained nor lost. -/
theorem all_replaceAll {p : α → Bool} (hk : old ≠ []) (ho : old.all p = true)
    (hn : new.all p = true) (t : List α) : (replaceAll old new t).all p = t.all p := by
  induction hlen : t.length using Nat.strong_induction_on generalizing t with
  | _ n ih =>
    by_cases h : old <:+: t
    · obtain ⟨a, b, rfl, -, hr⟩ := exists_replaceAll new hk h
      have hpos : 0 < old.length := List.length_pos_iff.2 hk
      have hb := ih b.length (by simp only [List.length_append] at hlen; omega) b rfl
      rw [hr, List.all_append, List.all_append, List.all_append, List.all_append, hb, ho, hn]
    · rw [replaceAll_of_absent h]

/-! ### Blocks with a mark -/

/-- A block that holds a mark which occurs once is found once and replaced there, after another
block with the same mark has been put in its place. -/
theorem replaceFirst_undo (hk : k ≠ []) (ho : Apart k old) (hn : Apart k new)
    (ho1 : occ k old = 1) (hn1 : occ k new = 1) (h : occ k (a ++ new ++ b) = 1) :
    count old (a ++ old ++ b) = 1 ∧ replaceFirst old new (a ++ old ++ b) = a ++ new ++ b := by
  have hkold : k <:+: old := (occ_pos_iff hk).1 (by omega)
  have hold : old ≠ [] := by
    rintro rfl
    exact hk (List.infix_nil.1 hkold)
  have hone : occ old (a ++ old ++ b) ≤ 1 :=
    calc occ old (a ++ old ++ b) ≤ occ k (a ++ old ++ b) := occ_le_of_infix hk hkold
      _ = occ k (a ++ new ++ b) := occ_replace ho hn (by rw [ho1, hn1])
      _ = 1 := h
      _ ≤ 1 := le_rfl
  have hpos := (occ_pos_iff hold).2 (⟨a, b, rfl⟩ : old <:+: a ++ old ++ b)
  exact ⟨count_eq_one_of_occ hold (by omega), replaceFirst_of_occ hold hone⟩

/-- A mark that occurs once has only one surrounding. -/
theorem not_infix_of_mark (p s p' s' : List α) (hk : k ≠ []) (h1 : occ k t ≤ 1)
    (h : p ++ k ++ s <:+: t)
    (hd : ¬ ((p <:+ p' ∨ p' <:+ p) ∧ (s <+: s' ∨ s' <+: s))) : ¬ p' ++ k ++ s' <:+: t := by
  rintro ⟨a', b', ht'⟩
  obtain ⟨a, b, rfl⟩ := h
  have ht : (a ++ p) ++ k ++ (s ++ b) = (a' ++ p') ++ k ++ (s' ++ b') := by
    simpa only [List.append_assoc] using ht'.symm
  have h1' : occ k ((a ++ p) ++ k ++ (s ++ b)) ≤ 1 := by
    simpa only [List.append_assoc] using h1
  obtain ⟨hp, hs⟩ := eq_of_occ_le_one hk h1' ht
  refine hd ⟨?_, ?_⟩
  · exact List.suffix_or_suffix_of_suffix (List.suffix_append a p) ⟨a', hp.symm⟩
  · exact List.prefix_or_prefix_of_prefix (List.prefix_append s b) ⟨b', hs.symm⟩

end Text

end InstallKit
