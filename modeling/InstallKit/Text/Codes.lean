import InstallKit.Text.Occurrences
import Mathlib.Algebra.Order.Group.Nat
import Mathlib.Algebra.Ring.Nat
import Mathlib.Tactic.Ring

/-!
# Words that are unrelated to each other

Two words are unrelated to each other when they can stand in a text only at places that are apart:
at no offset do they agree where they overlap (`Unrelated`).  Then no occurrence of one crosses an end
of the other (`Unrelated.apart`), and neither occurs in the other.

For long words this is decided on numbers: a word is the number whose digits are the codes of its
characters (`number`), the beginning of a word is a remainder, and leaving out a character is a
division (`meets`).
-/

namespace InstallKit

namespace Text

section

variable {α : Type*} {u v : List α}

/-- The word agrees with an end of the other one, as far as they overlap. -/
def Meets (u v : List α) : Prop := ∃ s, s ≠ [] ∧ s <:+ v ∧ (u <+: s ∨ s <+: u)

/-- The words agree nowhere where they overlap. -/
def Unrelated (u v : List α) : Prop := ¬ Meets u v ∧ ¬ Meets v u

theorem Unrelated.symm (h : Unrelated u v) : Unrelated v u := ⟨h.2, h.1⟩

theorem Unrelated.apart (h : Unrelated u v) (hv : v ≠ []) : Apart u v := by
  refine ⟨fun s hs hp => ?_, fun s hs hp => ?_, fun hin => ?_⟩
  · by_cases hnil : s = []
    · exact Or.inl hnil
    · exact absurd ⟨s, hnil, (List.mem_tails s u).1 hs, Or.inr hp⟩ h.2
  · by_cases hnil : s = []
    · exact Or.inl hnil
    · exact absurd ⟨s, hnil, (List.mem_tails s v).1 hs, Or.inr hp⟩ h.1
  · obtain ⟨s, hpre, hsuf⟩ := List.infix_iff_prefix_suffix.1 hin
    have hnil : s ≠ [] := by
      rintro rfl
      exact hv (List.prefix_nil.1 hpre)
    exact absurd ⟨s, hnil, hsuf, Or.inl hpre⟩ h.2

theorem Unrelated.occ_eq_zero [DecidableEq α] (h : Unrelated u v) (hu : u ≠ []) : occ u v = 0 := by
  rw [occ_eq_zero_iff hu]
  intro hin
  obtain ⟨s, hpre, hsuf⟩ := List.infix_iff_prefix_suffix.1 hin
  have hnil : s ≠ [] := by
    rintro rfl
    exact hu (List.prefix_nil.1 hpre)
  exact h.1 ⟨s, hnil, hsuf, Or.inl hpre⟩

/-- A word that agrees with no end of itself but the whole does not overlap itself. -/
theorem apart_self (h : ¬ Meets u u.tail) : Apart u u := by
  have hends : ∀ s ∈ u.tails, s <+: u → s = [] ∨ s = u := by
    intro s hs hpre
    cases u with
    | nil => exact Or.inl (List.prefix_nil.1 hpre)
    | cons x u =>
      rcases List.suffix_cons_iff.1 ((List.mem_tails s _).1 hs) with heq | hsuf
      · exact Or.inr heq
      · by_cases hnil : s = []
        · exact Or.inl hnil
        · exact absurd ⟨s, hnil, hsuf, Or.inr hpre⟩ h
  exact ⟨hends, hends, fun _ => rfl⟩

/-- Replacing a word by one that is unrelated to another neither makes nor breaks an occurrence of
the other. -/
theorem occ_replace_of_unrelated [DecidableEq α] {a b old new : List α} (hu : u ≠ [])
    (hold : old ≠ []) (hnew : new ≠ []) (ho : Unrelated u old) (hn : Unrelated u new) :
    occ u (a ++ old ++ b) = occ u (a ++ new ++ b) :=
  occ_replace (ho.apart hold) (hn.apart hnew) ((ho.occ_eq_zero hu).trans (hn.occ_eq_zero hu).symm)

/-- Two replacements of words that are unrelated to each other's texts commute. -/
theorem replaceFirst_comm [DecidableEq α] {t old old' new new' : List α} (hold : old ≠ [])
    (hold' : old' ≠ []) (hnew : new ≠ []) (hnew' : new' ≠ []) (hoo : Unrelated old old')
    (hon : Unrelated old new') (hno : Unrelated old' new) (h : occ old t = 1) (h' : occ old' t = 1) :
    replaceFirst old' new' (replaceFirst old new t) =
      replaceFirst old new (replaceFirst old' new' t) := by
  -- where the word `k` stands before the word `l`
  have key : ∀ {k l m n a b c : List α}, k ≠ [] → l ≠ [] → m ≠ [] → n ≠ [] → Unrelated k l →
      Unrelated k n → Unrelated l m → occ k (a ++ k ++ b ++ l ++ c) = 1 →
      occ l (a ++ k ++ b ++ l ++ c) = 1 →
      replaceFirst l n (replaceFirst k m (a ++ k ++ b ++ l ++ c)) = a ++ m ++ b ++ n ++ c ∧
        replaceFirst k m (replaceFirst l n (a ++ k ++ b ++ l ++ c)) = a ++ m ++ b ++ n ++ c := by
    intro k l m n a b c hk hl hm hn hkl hkn hlm h1 h2
    have hfirst : ∀ new l' : List α, a ++ new ++ b ++ l' ++ c = a ++ new ++ (b ++ l' ++ c) := by
      intro new l'
      simp only [List.append_assoc]
    have hk' : occ k (a ++ k ++ b ++ n ++ c) = 1 := by
      rw [← h1]
      exact (occ_replace_of_unrelated hk hl hn hkl hkn).symm
    have hl' : occ l (a ++ m ++ b ++ l ++ c) = 1 := by
      rw [← h2, hfirst m l, hfirst k l]
      exact (occ_replace_of_unrelated hl hk hm hkl.symm hlm).symm
    constructor
    · rw [hfirst k l, replaceFirst_of_occ hk (by rw [← hfirst, h1]), ← hfirst,
        replaceFirst_of_occ hl hl'.le]
    · rw [replaceFirst_of_occ hl h2.le, hfirst k n, replaceFirst_of_occ hk (by rw [← hfirst, hk']),
        ← hfirst]
  obtain ⟨a, b, rfl⟩ := (occ_pos_iff hold).1 (by omega : 0 < occ old t)
  have hsum := occ_insert (a := a) (b := b) (hoo.symm.apart hold)
  rw [h', hoo.symm.occ_eq_zero hold'] at hsum
  rcases Nat.eq_zero_or_pos (occ old' a) with ha | ha
  · obtain ⟨x, y, rfl⟩ := (occ_pos_iff hold').1 (by omega : 0 < occ old' b)
    have hassoc : a ++ old ++ (x ++ old' ++ y) = a ++ old ++ x ++ old' ++ y := by
      simp only [List.append_assoc]
    rw [hassoc] at h h' ⊢
    obtain ⟨h1, h2⟩ := key hold hold' hnew hnew' hoo hon hno h h'
    rw [h1, h2]
  · obtain ⟨x, y, rfl⟩ := (occ_pos_iff hold').1 ha
    obtain ⟨h1, h2⟩ := key hold' hold hnew' hnew hoo.symm hno hon h' h
    rw [h1, h2]

theorem meets_cons {x : α} :
    Meets u (x :: v) ↔ (u <+: x :: v ∨ x :: v <+: u) ∨ Meets u v := by
  constructor
  · rintro ⟨s, hs, hsuf, h⟩
    rcases List.suffix_cons_iff.1 hsuf with rfl | hsuf
    · exact Or.inl h
    · exact Or.inr ⟨s, hs, hsuf, h⟩
  · rintro (h | ⟨s, hs, hsuf, h⟩)
    · exact ⟨x :: v, List.cons_ne_nil _ _, List.suffix_rfl, h⟩
    · exact ⟨s, hs, hsuf.trans (List.suffix_cons x v), h⟩

theorem not_meets_nil : ¬ Meets u [] := by
  rintro ⟨s, hs, hsuf, -⟩
  exact hs (List.suffix_nil.1 hsuf)

end

/-! ### Words as numbers -/

variable {b : ℕ} {u v : List ℕ}

/-- The number with these digits, the lowest first. -/
def number (b : ℕ) : List ℕ → ℕ
  | [] => 0
  | x :: xs => x + b * number b xs

theorem number_lt (hu : ∀ x ∈ u, x < b) : number b u < b ^ u.length := by
  induction u with
  | nil => exact Nat.one_pos
  | cons x u ih =>
    rw [List.forall_mem_cons] at hu
    have hn := ih hu.2
    calc number b (x :: u) < b + b * number b u := Nat.add_lt_add_right hu.1 _
      _ = b * (number b u + 1) := by ring
      _ ≤ b * b ^ u.length := Nat.mul_le_mul_left b hn
      _ = b ^ (x :: u).length := by rw [List.length_cons, pow_succ, Nat.mul_comm]

theorem number_append : number b (u ++ v) = number b u + b ^ u.length * number b v := by
  induction u with
  | nil => simp [number]
  | cons x u ih =>
    rw [List.cons_append, number, ih, number, List.length_cons, pow_succ]
    ring

theorem number_inj (hu : ∀ x ∈ u, x < b) (hv : ∀ x ∈ v, x < b) (hlen : u.length = v.length)
    (h : number b u = number b v) : u = v := by
  induction u generalizing v with
  | nil => exact (List.length_eq_zero_iff.1 hlen.symm).symm
  | cons x u ih =>
    cases v with
    | nil => cases hlen
    | cons y v =>
      rw [List.forall_mem_cons] at hu hv
      have hx : x = y := by
        have := congrArg (· % b) h
        simpa [number, Nat.mod_eq_of_lt hu.1, Nat.mod_eq_of_lt hv.1] using this
      subst hx
      have hb : 0 < b := Nat.zero_lt_of_lt hu.1
      have hrest : number b u = number b v := Nat.eq_of_mul_eq_mul_left hb (Nat.add_left_cancel h)
      rw [ih hu.2 hv.2 (Nat.succ.inj hlen) hrest]

/-- The beginning of a word is a remainder. -/
theorem prefix_iff_number (hu : ∀ x ∈ u, x < b) (hv : ∀ x ∈ v, x < b) (hlen : u.length ≤ v.length) :
    u <+: v ↔ number b v % b ^ u.length = number b u := by
  have hsplit : number b v % b ^ u.length = number b (v.take u.length) := by
    conv_lhs => rw [← List.take_append_drop u.length v, number_append,
      List.length_take_of_le hlen, Nat.add_mul_mod_self_left]
    refine Nat.mod_eq_of_lt ?_
    have hlt := number_lt fun x hx => hv x (List.mem_of_mem_take (i := u.length) hx)
    rwa [List.length_take_of_le hlen] at hlt
  rw [hsplit, List.prefix_iff_eq_take]
  constructor
  · intro h
    rw [← h]
  · intro h
    exact (number_inj (fun x hx => hv x (List.mem_of_mem_take hx)) hu
      (List.length_take_of_le hlen) h).symm

/-- Whether a word of length `m` with number `n` meets the last `k` characters of another word,
which have the number `r`. -/
def meets (b m n : ℕ) : ℕ → ℕ → ℕ → Bool
  | 0, _, _ => false
  | k + 1, r, w =>
    -- `w` is `b ^ (k + 1)`
    bif (bif Nat.ble m (k + 1) then Nat.beq (r % b ^ m) n else Nat.beq (n % w) r) then true
    else meets b m n k (r / b) (w / b)

theorem meets_eq_true (hu : ∀ x ∈ u, x < b) (hv : ∀ x ∈ v, x < b) :
    meets b u.length (number b u) v.length (number b v) (b ^ v.length) = true ↔ Meets u v := by
  induction v with
  | nil => simpa [meets] using not_meets_nil
  | cons x v ih =>
    obtain ⟨hx, hv'⟩ := List.forall_mem_cons.1 hv
    have hb : 0 < b := Nat.zero_lt_of_lt hx
    have hdiv : number b (x :: v) / b = number b v := by
      rw [number, Nat.add_mul_div_left _ _ hb, Nat.div_eq_of_lt hx, Nat.zero_add]
    have hpow : b ^ (v.length + 1) / b = b ^ v.length := by
      rw [pow_succ, Nat.mul_div_cancel _ hb]
    -- the two words agree here just if the shorter one begins the longer one
    have hhere : (bif Nat.ble u.length (v.length + 1)
        then Nat.beq (number b (x :: v) % b ^ u.length) (number b u)
        else Nat.beq (number b u % b ^ (v.length + 1)) (number b (x :: v))) = true ↔
        u <+: x :: v ∨ x :: v <+: u := by
      by_cases hlen : u.length ≤ (x :: v).length
      · have hble : Nat.ble u.length (v.length + 1) = true := Nat.ble_eq_true_of_le hlen
        rw [hble, cond_true, Nat.beq_eq, ← prefix_iff_number hu hv hlen]
        refine ⟨Or.inl, fun h => h.elim id fun hpre => ?_⟩
        rw [hpre.eq_of_length (Nat.le_antisymm hpre.length_le hlen)]
      · have hble : Nat.ble u.length (v.length + 1) = false := by
          rw [← Bool.not_eq_true, Nat.ble_eq]
          exact hlen
        have hlen' : (x :: v).length ≤ u.length := Nat.le_of_not_le hlen
        rw [hble, cond_false, Nat.beq_eq, ← List.length_cons (a := x),
          ← prefix_iff_number hv hu hlen']
        exact ⟨Or.inr, fun h => h.elim (fun hpre => absurd hpre.length_le hlen) id⟩
    rw [List.length_cons, meets, hdiv, hpow, meets_cons, ← hhere, ← ih hv']
    cases (bif Nat.ble u.length (v.length + 1)
      then Nat.beq (number b (x :: v) % b ^ u.length) (number b u)
      else Nat.beq (number b u % b ^ (v.length + 1)) (number b (x :: v))) <;> simp

/-- Whether two words are unrelated, by their numbers. -/
def foreignNumbers (b : ℕ) (u v : List ℕ) : Bool :=
  !meets b u.length (number b u) v.length (number b v) (b ^ v.length) &&
    !meets b v.length (number b v) u.length (number b u) (b ^ u.length)

theorem unrelated_of_numbers (hu : ∀ x ∈ u, x < b) (hv : ∀ x ∈ v, x < b)
    (h : foreignNumbers b u v = true) : Unrelated u v := by
  rw [foreignNumbers, Bool.and_eq_true, Bool.not_eq_true', Bool.not_eq_true', ← Bool.not_eq_true,
    ← Bool.not_eq_true, meets_eq_true hu hv, meets_eq_true hv hu] at h
  exact h

/-- Whether a word agrees with no end of itself but the whole, by its numbers. -/
def borderless (b : ℕ) (u : List ℕ) : Bool :=
  !meets b u.length (number b u) u.tail.length (number b u.tail) (b ^ u.tail.length)

theorem not_meets_of_borderless (hu : ∀ x ∈ u, x < b) (h : borderless b u = true) :
    ¬ Meets u u.tail := by
  rw [borderless, Bool.not_eq_true', ← Bool.not_eq_true,
    meets_eq_true hu fun x hx => hu x (List.mem_of_mem_tail hx)] at h
  exact h

theorem Meets.map {α β : Type*} {u v : List α} (f : α → β) (h : Meets u v) :
    Meets (u.map f) (v.map f) := by
  obtain ⟨s, hs, hsuf, h⟩ := h
  exact ⟨s.map f, by simpa using hs, hsuf.map f, h.imp (fun hp => hp.map f) fun hp => hp.map f⟩

/-- The codes of a text. -/
def codes (t : List Char) : List ℕ := t.map Char.toNat

/-- A number above all codes. -/
def codeBound : ℕ := 0x110000

theorem codes_lt (t : List Char) : ∀ x ∈ codes t, x < codeBound := by
  intro x hx
  obtain ⟨c, -, rfl⟩ := List.mem_map.1 hx
  have hc := c.valid
  rcases hc with h | h
  · exact lt_trans h (by decide)
  · exact h.2

/-- **Unrelated texts.** -/
theorem unrelated_of_codes {u v : List Char}
    (h : foreignNumbers codeBound (codes u) (codes v) = true) : Unrelated u v := by
  have hcodes := unrelated_of_numbers (codes_lt u) (codes_lt v) h
  exact ⟨fun hm => hcodes.1 (hm.map _), fun hm => hcodes.2 (hm.map _)⟩

/-- **Texts that do not overlap themselves.** -/
theorem apart_self_of_codes {u : List Char} (h : borderless codeBound (codes u) = true) :
    Apart u u := by
  refine apart_self fun hm => not_meets_of_borderless (codes_lt u) h ?_
  rw [codes, ← List.map_tail]
  exact hm.map _

end Text

end InstallKit
