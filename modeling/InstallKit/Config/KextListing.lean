import InstallKit.Config.Kexts
import InstallKit.Text.Utf8

/-!
# The order in which the kexts are listed

What `collect_kext_arguments` does with the paths that `sed` leaves: they are sorted by their bytes,
and with `KEXT_ORDER_SMC_FIRST=YES` a key in front of every path, which is cut off again after the
sorting, puts `fakesmc.kext` first.

* `keyOf_lt_of_inside` : a path is smaller than the paths below it, with a key and without.
* `kext_listing_order` : so every bundle stands before the bundles inside it, and the keys move
  nothing but `fakesmc.kext`.
-/

namespace InstallKit

namespace Config

namespace Build

open Sources

variable {b : Build} {l l' : Text} {ls : List Text}

/-- The two pipelines of `collect_kext_arguments` behind `sed`. -/
def listing (smcFirst : Bool) (input : Text) : Text :=
  if smcFirst then cut (sort (unlines (((lines input).filter (· ≠ [])).map smcKey)))
  else sort input

theorem collectKextArguments_eq (b : Build) (other : Text → Text → Text) (t : Tree) :
    b.collectKextArguments other t = listing b.smcFirst (b.sed other (b.find t)) := rfl

/-- The bundle at the top that is to come first. -/
def fakesmc : Text := txt "fakesmc.kext"

/-- The path leads to something below the other one. -/
def Inside (inner outer : Text) : Prop := ∃ s, s ≠ [] ∧ inner = outer ++ '/' :: s

/-- The key of a path in the two modes. -/
def keyOf (smcFirst : Bool) (l : Text) : Text := if smcFirst then smcKey l else l

/-! ### Keys -/

theorem smcKey_fakesmc : smcKey fakesmc = '0' :: '\t' :: fakesmc := by
  rw [smcKey, fakesmc, if_pos rfl]
  rfl

theorem smcKey_of_ne (h : l ≠ fakesmc) : smcKey l = '1' :: '\t' :: l := by
  rw [smcKey, if_neg (by rwa [← fakesmc])]
  rfl

/-- Keys order the other paths as they are. -/
theorem smcKey_le_iff (h : l ≠ fakesmc) (h' : l' ≠ fakesmc) : smcKey l ≤ smcKey l' ↔ l ≤ l' := by
  rw [smcKey_of_ne h, smcKey_of_ne h', ← not_lt, ← not_lt, List.cons_lt_cons_iff,
    List.cons_lt_cons_iff]
  simp

theorem smcKey_fakesmc_lt (h : l ≠ fakesmc) : smcKey fakesmc < smcKey l := by
  rw [smcKey_fakesmc, smcKey_of_ne h, List.cons_lt_cons_iff]
  exact Or.inl (by decide)

/-- Nothing that lies below another bundle is at the top. -/
theorem Inside.ne_fakesmc (h : Inside l l') : l ≠ fakesmc := by
  obtain ⟨s, -, rfl⟩ := h
  have hslash : '/' ∉ fakesmc := by decide +kernel
  rintro heq
  exact hslash (heq ▸ by simp)

/-- **A path is smaller than what lies below it**, whatever the bytes of its siblings are. -/
theorem Inside.lt (h : Inside l l') : l' < l := by
  obtain ⟨s, -, rfl⟩ := h
  induction l' with
  | nil => exact List.nil_lt_cons _ _
  | cons c l' ih => exact List.cons_lt_cons_iff.2 (Or.inr ⟨rfl, ih⟩)

theorem keyOf_lt_of_inside (smcFirst : Bool) (h : Inside l l') :
    keyOf smcFirst l' < keyOf smcFirst l := by
  cases smcFirst with
  | false => exact h.lt
  | true =>
    by_cases hsmc : l' = fakesmc
    · -- a bundle inside `fakesmc.kext` is not at the top itself, so its key is the greater one
      rw [hsmc]
      exact smcKey_fakesmc_lt h.ne_fakesmc
    · rw [keyOf, keyOf, if_pos rfl, if_pos rfl, smcKey_of_ne hsmc, smcKey_of_ne h.ne_fakesmc,
        List.cons_lt_cons_iff, List.cons_lt_cons_iff]
      exact Or.inr ⟨rfl, Or.inr ⟨rfl, h.lt⟩⟩

/-! ### Both pipelines sort by the keys -/

theorem lines_listing (smcFirst : Bool) (h : ∀ l ∈ ls, l ≠ [] ∧ '\n' ∉ l) :
    lines (listing smcFirst (unlines ls)) =
      ls.insertionSort fun l l' => keyOf smcFirst l ≤ keyOf smcFirst l' := by
  have hnl : ∀ l ∈ ls, '\n' ∉ l := fun l hl => (h l hl).2
  cases smcFirst with
  | false => exact lines_sort ls hnl
  | true =>
    have hfilter : ls.filter (· ≠ []) = ls :=
      List.filter_eq_self.2 fun l hl => by simpa using (h l hl).1
    rw [listing, if_pos rfl, lines_unlines hnl, hfilter, lines_cut_sort hnl]
    rfl

theorem listing_perm (smcFirst : Bool) (h : ∀ l ∈ ls, l ≠ [] ∧ '\n' ∉ l) :
    (lines (listing smcFirst (unlines ls))).Perm ls := by
  rw [lines_listing smcFirst h]
  exact List.perm_insertionSort _ ls

theorem listing_pairwise (smcFirst : Bool) (h : ∀ l ∈ ls, l ≠ [] ∧ '\n' ∉ l) :
    (lines (listing smcFirst (unlines ls))).Pairwise
      fun l l' => keyOf smcFirst l ≤ keyOf smcFirst l' := by
  rw [lines_listing smcFirst h]
  have : Std.Total fun l l' => keyOf smcFirst l ≤ keyOf smcFirst l' := ⟨fun _ _ => le_total _ _⟩
  have : IsTrans Text fun l l' => keyOf smcFirst l ≤ keyOf smcFirst l' := ⟨fun _ _ _ => le_trans⟩
  exact List.pairwise_insertionSort _ ls

/-- Without `fakesmc.kext`, both pipelines print the same. -/
theorem listing_filter (h : ∀ l ∈ ls, l ≠ [] ∧ '\n' ∉ l) :
    (lines (listing true (unlines ls))).filter (· ≠ fakesmc) =
      (lines (listing false (unlines ls))).filter (· ≠ fakesmc) := by
  have hperm : (lines (listing true (unlines ls))).Perm (lines (listing false (unlines ls))) :=
    (listing_perm true h).trans (listing_perm false h).symm
  -- a text has one sorted permutation
  have hsorted : ((lines (listing true (unlines ls))).filter (· ≠ fakesmc)).Pairwise (· ≤ ·) := by
    refine ((listing_pairwise true h).filter _).imp_of_mem fun hl hl' hle => ?_
    refine (smcKey_le_iff ?_ ?_).1 hle
    · simpa using List.of_mem_filter hl
    · simpa using List.of_mem_filter hl'
  refine List.Perm.eq_of_pairwise (fun _ _ _ _ => le_antisymm) hsorted ?_ (hperm.filter _)
  exact (listing_pairwise false h).filter _

/-- The smallest key is that of `fakesmc.kext`. -/
theorem listing_head (h : ∀ l ∈ ls, l ≠ [] ∧ '\n' ∉ l) (hsmc : fakesmc ∈ ls) :
    (lines (listing true (unlines ls))).head? = some fakesmc := by
  have hmem := (listing_perm true h).mem_iff.2 hsmc
  have hsorted := listing_pairwise true h
  cases hout : lines (listing true (unlines ls)) with
  | nil =>
    rw [hout] at hmem
    cases hmem
  | cons l out =>
    rw [hout] at hmem hsorted
    rcases List.mem_cons.1 hmem with rfl | hmem
    · rfl
    · by_contra hne
      have hle : smcKey l ≤ smcKey fakesmc := List.rel_of_pairwise_cons hsorted hmem
      exact absurd hle (not_le_of_gt (smcKey_fakesmc_lt fun heq => hne (by rw [heq]; rfl)))

/-- The order of the stock pipeline is that of the bytes. -/
theorem listing_bytes (h : ∀ l ∈ ls, l ≠ [] ∧ '\n' ∉ l) :
    (lines (listing false (unlines ls))).Pairwise fun l l' => ¬ utf8 l' < utf8 l :=
  (listing_pairwise false h).imp fun hle hlt => absurd hle (not_le_of_gt (utf8_lt_iff.1 hlt))

/-- **The order of the listing**: `collect_kext_arguments` sends what `sed` leaves through one of
two pipelines.  Both print a permutation of the paths with every bundle before those inside it; the
stock one prints them in the order of their bytes, and the one for `KEXT_ORDER_SMC_FIRST=YES` prints
`fakesmc.kext` first, if it is there, and the others as the stock one. -/
theorem kext_listing_order (ls : List Text) (h : ∀ l ∈ ls, l ≠ [] ∧ '\n' ∉ l) :
    (∀ (b : Build) (other : Text → Text → Text) (t : Tree),
      b.collectKextArguments other t = listing b.smcFirst (b.sed other (b.find t))) ∧
    (∀ smcFirst, (lines (listing smcFirst (unlines ls))).Perm ls ∧
      (lines (listing smcFirst (unlines ls))).Pairwise fun l l' => ¬ Inside l l') ∧
    ((lines (listing false (unlines ls))).Pairwise fun l l' => ¬ utf8 l' < utf8 l) ∧
    (fakesmc ∈ ls → (lines (listing true (unlines ls))).head? = some fakesmc) ∧
    (lines (listing true (unlines ls))).filter (· ≠ fakesmc) =
      (lines (listing false (unlines ls))).filter (· ≠ fakesmc) := by
  refine ⟨collectKextArguments_eq, fun smcFirst => ⟨listing_perm smcFirst h, ?_⟩, listing_bytes h,
    listing_head h, listing_filter h⟩
  exact (listing_pairwise smcFirst h).imp fun hle hin =>
    absurd hle (not_le_of_gt (keyOf_lt_of_inside smcFirst hin))

/-- Bundles with a plug-in, and a sibling with a byte below the slash. -/
def plugInPaths : List Text :=
  [txt "fakesmc.kext/Contents/PlugIns/CPUi.kext", txt "fakesmc.kext", txt "fakesmc.kext-1.kext",
    txt "AppleACPIPlatform.kext"]

theorem kext_listing_order_plugIns :
    (∀ smcFirst, (lines (listing smcFirst (unlines plugInPaths))).Perm plugInPaths ∧
      (lines (listing smcFirst (unlines plugInPaths))).Pairwise fun l l' => ¬ Inside l l') ∧
    (lines (listing true (unlines plugInPaths))).head? = some fakesmc := by
  have horder := kext_listing_order plugInPaths (by decide +kernel)
  exact ⟨horder.2.1, horder.2.2.2.1 (by decide +kernel)⟩

end Build

end Config

end InstallKit
