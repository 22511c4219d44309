import InstallKit.Sources.Text

/-!
# The manifest of the downloads

`manifest.tsv` has one line for each verified download, written by `printf` at the end of the file
and read by `awk -F '\t'`.  A write that is cut off leaves a line without its end, and the next one
is glued to it.

* `confirms_iff` : what `manifest_confirms` asks of the file.
* `entry?_append` : no line that was cut off, and none that was glued to such a line, counts as an
  entry that was not written in full.
* `entries_append` : so a write adds its own entry at most, and an entry is lost at most.
* `entries_record` : a write that is not cut off, behind a line that is complete, adds its entry.
-/

namespace InstallKit

namespace Cache

open Sources

/-! ### Fields -/

/-- What follows the first `n` tabs. -/
def afterTabs : ℕ → Text → Option Text
  | 0, t => some t
  | _ + 1, [] => none
  | n + 1, c :: t => if c = '\t' then afterTabs n t else afterTabs (n + 1) t

/-- `$n`; a field that is missing is empty. -/
def field (n : ℕ) (line : Text) : Text :=
  ((afterTabs (n - 1) line).getD []).takeWhile (· ≠ '\t')

/-- The values with tabs between them. -/
def tabbed : List Text → Text
  | [] => []
  | [f] => f
  | f :: g :: fs => f ++ '\t' :: tabbed (g :: fs)

/-- What a line of the manifest says: these bytes came from this address. -/
structure Entry where
  url : Text
  filename : Text
  sha256 : Text
  deriving DecidableEq

/-- `$7 == "VERIFIED"` -/
def verified : Text := ['V', 'E', 'R', 'I', 'F', 'I', 'E', 'D']

/-- The entry of a line that counts. -/
def entry? (line : Text) : Option Entry :=
  if field 7 line = verified then some ⟨field 4 line, field 5 line, field 6 line⟩ else none

/-- The entries of the manifest, whose first line is a header. -/
def entries (manifest : Text) : List Entry := (lines manifest).tail.filterMap entry?

/-- The fields of a line that is written. -/
def rowFields (stamp source version : Text) (e : Entry) : List Text :=
  [stamp, source, version, e.url, e.filename, e.sha256, verified]

/-- `printf '%s\t%s\t%s\t%s\t%s\t%s\tVERIFIED\n'` -/
def row (stamp source version : Text) (e : Entry) : Text :=
  tabbed (rowFields stamp source version e) ++ ['\n']

/-- A value that is one field for `printf` and for `awk`, which expands backslashes in a variable,
and is not taken for a status. -/
structure IsField (t : Text) : Prop where
  tab : '\t' ∉ t
  newline : '\n' ∉ t
  backslash : '\\' ∉ t
  status : ¬ verified <+: t

/-- A time, or nothing. -/
structure IsStamp (t : Text) : Prop where
  tab : '\t' ∉ t
  newline : '\n' ∉ t
  digit : ∀ c t', t = c :: t' → c.isDigit

/-! ### `awk` -/

section Awk

variable {N : Type} [DecidableEq N] (number : Text → Option N)

/-- `==` between a field and a variable: two texts that look like numbers are compared as
numbers. -/
def same (s t : Text) : Bool :=
  match number s, number t with
  | some m, some n => m = n
  | _, _ => s = t

/-- `awk -F '\t' 'NR > 1 && $4 == u && $5 == f && $6 == h && $7 == "VERIFIED"'` -/
def confirms (manifest : Text) (e : Entry) : Bool :=
  (lines manifest).tail.any fun line =>
    same number (field 4 line) e.url && same number (field 5 line) e.filename &&
      same number (field 6 line) e.sha256 && field 7 line = verified

/-- The entries that `awk` does not tell apart. -/
def Entry.like (e e' : Entry) : Prop :=
  same number e.url e'.url ∧ same number e.filename e'.filename ∧ same number e.sha256 e'.sha256

theorem same_self (t : Text) : same number t t = true := by
  unfold same
  cases number t <;> simp

/-- Texts that do not both look like numbers are compared as texts. -/
theorem same_iff {s t : Text} (h : number s = none ∨ number t = none) :
    same number s t = true ↔ s = t := by
  unfold same
  rcases h with h | h
  · simp [h]
  · cases number s <;> simp [h]

theorem confirms_iff (manifest : Text) (e : Entry) :
    confirms number manifest e = true ↔ ∃ e' ∈ entries manifest, e'.like number e := by
  simp only [confirms, entries, List.any_eq_true, List.mem_filterMap, entry?, Entry.like,
    Bool.and_eq_true, decide_eq_true_eq]
  constructor
  · rintro ⟨line, hline, ⟨⟨hu, hf⟩, hs⟩, hv⟩
    exact ⟨_, ⟨line, hline, if_pos hv⟩, hu, hf, hs⟩
  · rintro ⟨e', ⟨line, hline, he⟩, hu, hf, hs⟩
    split at he
    · rename_i hv
      obtain rfl := Option.some.inj he
      exact ⟨line, hline, ⟨⟨hu, hf⟩, hs⟩, hv⟩
    · cases he

/-- What is in the manifest is confirmed. -/
theorem confirms_of_mem {manifest : Text} {e : Entry} (h : e ∈ entries manifest) :
    confirms number manifest e = true :=
  (confirms_iff number manifest e).2
    ⟨e, h, same_self number _, same_self number _, same_self number _⟩

end Awk

/-! ### The fields of a line that is cut off -/

section Fields

variable {s t f : Text} {fs : List Text} {n : ℕ}

@[simp] theorem afterTabs_zero (t : Text) : afterTabs 0 t = some t := by cases t <;> rfl

/-- Behind a text with fewer tabs. -/
theorem afterTabs_append_of_lt (h : s.count '\t' < n) :
    afterTabs n (s ++ t) = afterTabs (n - s.count '\t') t := by
  induction s generalizing n with
  | nil => simp
  | cons c s ih =>
    obtain ⟨n, rfl⟩ : ∃ m, n = m + 1 := ⟨n - 1, by omega⟩
    rw [List.cons_append, afterTabs]
    by_cases hc : c = '\t'
    · subst hc
      rw [List.count_cons_self] at h
      rw [if_pos rfl, ih (by omega), List.count_cons_self]
      congr 1
      omega
    · rw [List.count_cons_of_ne hc] at h ⊢
      rw [if_neg hc, ih h]

/-- Within a text that has these tabs. -/
theorem afterTabs_append_of_le (h : n ≤ s.count '\t') :
    ∃ s', afterTabs n s = some s' ∧ afterTabs n (s ++ t) = some (s' ++ t) ∧
      s'.count '\t' = s.count '\t' - n := by
  induction s generalizing n with
  | nil =>
    obtain rfl : n = 0 := by simpa using h
    exact ⟨[], by simp⟩
  | cons c s ih =>
    cases n with
    | zero => exact ⟨c :: s, by simp⟩
    | succ n =>
      by_cases hc : c = '\t'
      · subst hc
        rw [List.count_cons_self] at h ⊢
        obtain ⟨s', h1, h2, h3⟩ := ih (n := n) (by omega)
        exact ⟨s', by rw [afterTabs, if_pos rfl, h1],
          by rw [List.cons_append, afterTabs, if_pos rfl, h2], by omega⟩
      · rw [List.count_cons_of_ne hc] at h ⊢
        obtain ⟨s', h1, h2, h3⟩ := ih h
        exact ⟨s', by rw [afterTabs, if_neg hc, h1],
          by rw [List.cons_append, afterTabs, if_neg hc, h2], h3⟩

/-- A field that ends in front of a tab is not changed by what is glued to the line. -/
theorem field_append_of_lt (hn : 0 < n) (h : n ≤ s.count '\t') : field n (s ++ t) = field n s := by
  obtain ⟨s', h1, h2, h3⟩ := afterTabs_append_of_le (t := t) (show n - 1 ≤ s.count '\t' by omega)
  have htab : '\t' ∈ s' := List.count_pos_iff.1 (by omega)
  obtain ⟨u, v, rfl⟩ := List.mem_iff_append.1 htab
  simp only [field, h1, h2, Option.getD_some, List.append_assoc, List.cons_append]
  simp [List.takeWhile_append]

/-- The field at which the line ends goes on. -/
theorem field_append_of_eq (hn : 0 < n) (h : n = s.count '\t' + 1) :
    field n (s ++ t) = field n s ++ field 1 t := by
  obtain ⟨s', h1, h2, h3⟩ := afterTabs_append_of_le (t := t) (show n - 1 ≤ s.count '\t' by omega)
  have htab : '\t' ∉ s' := List.count_eq_zero.1 (by omega)
  have hall : ∀ c ∈ s', decide (c ≠ '\t') = true := by
    intro c hc
    exact decide_eq_true fun h => htab (h ▸ hc)
  simp only [field, h1, h2, Option.getD_some, Nat.sub_self, afterTabs_zero]
  rw [List.takeWhile_append_of_pos hall, List.takeWhile_eq_self_iff.2 hall]

/-- The fields behind it are those of what is glued to the line. -/
theorem field_append_of_gt (h : s.count '\t' + 1 < n) :
    field n (s ++ t) = field (n - s.count '\t') t := by
  rw [field, field, afterTabs_append_of_lt (by omega), Nat.sub_right_comm]

theorem field_one_of_not_mem (h : '\t' ∉ f) : field 1 f = f := by
  rw [field, Nat.sub_self, afterTabs_zero, Option.getD_some, List.takeWhile_eq_self_iff]
  intro c hc
  exact decide_eq_true fun hct => h (hct ▸ hc)

theorem field_of_not_mem (h : '\t' ∉ f) : field (n + 2) f = [] := by
  have happ := field_append_of_gt (t := []) (show f.count '\t' + 1 < n + 2 by
    rw [List.count_eq_zero.2 h]; omega)
  rw [List.append_nil] at happ
  rw [happ, field]
  cases n + 2 - f.count '\t' - 1 <;> rfl

theorem field_one_behind (h : '\t' ∉ f) : field 1 (f ++ '\t' :: t) = f := by
  rw [field_append_of_eq Nat.one_pos (by rw [List.count_eq_zero.2 h]), field_one_of_not_mem h]
  simp [field]

theorem field_behind (h : '\t' ∉ f) : field (n + 2) (f ++ '\t' :: t) = field (n + 1) t := by
  rw [field_append_of_gt (by rw [List.count_eq_zero.2 h]; omega), List.count_eq_zero.2 h]
  simp [field, afterTabs]

/-- A line that is cut off ends in its first field or behind it. -/
theorem prefix_behind {p : Text} (h : p <+: f ++ '\t' :: t) :
    p <+: f ∨ ∃ q, p = f ++ '\t' :: q ∧ q <+: t := by
  rcases List.prefix_or_prefix_of_prefix h (List.prefix_append f _) with hp | ⟨q, rfl⟩
  · exact Or.inl hp
  · rw [List.prefix_append_right_inj] at h
    cases q with
    | nil => exact Or.inl (by simp)
    | cons c q =>
      obtain ⟨rfl, hq⟩ := List.cons_prefix_cons.1 h
      exact Or.inr ⟨q, rfl, hq⟩

theorem not_mem_of_initial {c : Char} {p : Text} (h : p <+: f) (hf : c ∉ f) : c ∉ p :=
  fun hc => hf (h.subset hc)

/-- Every field of a line that is cut off begins the field that was to be written. -/
theorem field_prefix {p : Text} (hfs : ∀ f ∈ fs, '\t' ∉ f) (h : p <+: tabbed fs) :
    field (n + 1) p <+: fs.getD n [] := by
  induction fs generalizing n p with
  | nil =>
    obtain rfl := List.prefix_nil.1 h
    cases n with
    | zero => exact List.prefix_refl _
    | succ n => rw [field_of_not_mem List.not_mem_nil]; exact List.nil_prefix
  | cons f fs ih =>
    have hf := hfs f List.mem_cons_self
    -- the line ends in the first field
    have hcut : p <+: f → field (n + 1) p <+: (f :: fs).getD n [] := by
      intro hp
      have htab := not_mem_of_initial hp hf
      cases n with
      | zero => rwa [field_one_of_not_mem htab, List.getD_cons_zero]
      | succ n => rw [field_of_not_mem htab]; exact List.nil_prefix
    cases fs with
    | nil => exact hcut h
    | cons g fs =>
      rcases prefix_behind h with hp | ⟨q, rfl, hq⟩
      · exact hcut hp
      · cases n with
        | zero =>
          rw [field_one_behind hf]
          exact List.prefix_refl _
        | succ n =>
          rw [field_behind hf, List.getD_cons_succ]
          exact ih (fun f hf => hfs f (List.mem_cons_of_mem _ hf)) hq

/-- A line whose last field is there is not cut off. -/
theorem eq_of_last_field {p : Text} (hfs : ∀ f ∈ fs, '\t' ∉ f) (h : p <+: tabbed fs) (hf : f ≠ [])
    (hlast : fs.getLast? = some f) (hp : field fs.length p = f) : p = tabbed fs := by
  induction fs generalizing p with
  | nil => cases hlast
  | cons g fs ih =>
    have hg := hfs g List.mem_cons_self
    cases fs with
    | nil =>
      obtain rfl : g = f := by simpa using hlast
      rwa [List.length_singleton, field_one_of_not_mem (not_mem_of_initial h hg)] at hp
    | cons g' fs =>
      rw [List.length_cons, List.length_cons] at hp
      rcases prefix_behind h with hpre | ⟨q, rfl, hq⟩
      · rw [field_of_not_mem (not_mem_of_initial hpre hg)] at hp
        exact absurd hp.symm hf
      · rw [field_behind hg] at hp
        rw [tabbed, ← ih (fun f hf => hfs f (List.mem_cons_of_mem _ hf)) hq
          (by rwa [List.getLast?_cons_cons] at hlast) hp]

/-- **Round trip**: the fields of a line are read back. -/
theorem field_tabbed (hfs : ∀ f ∈ fs, '\t' ∉ f) : field (n + 1) (tabbed fs) = fs.getD n [] := by
  induction fs generalizing n with
  | nil =>
    cases n with
    | zero => rfl
    | succ n => exact field_of_not_mem List.not_mem_nil
  | cons f fs ih =>
    have hf := hfs f List.mem_cons_self
    cases fs with
    | nil =>
      cases n with
      | zero => exact field_one_of_not_mem hf
      | succ n => exact field_of_not_mem hf
    | cons g fs =>
      cases n with
      | zero => exact field_one_behind hf
      | succ n =>
        rw [tabbed, field_behind hf, ih fun f hf => hfs f (List.mem_cons_of_mem _ hf),
          List.getD_cons_succ]

end Fields

/-! ### The entries after a write -/

/-- The values of a line that is written. -/
structure IsRecord (stamp source version : Text) (e : Entry) : Prop where
  stamp : IsStamp stamp
  source : IsField source
  version : IsField version
  url : IsField e.url
  filename : IsField e.filename
  sha256 : IsField e.sha256

section Entries

variable {stamp source version : Text} {e e' : Entry} {line p manifest : Text} {ls : List Text}

theorem IsRecord.tab (h : IsRecord stamp source version e) :
    ∀ f ∈ rowFields stamp source version e, '\t' ∉ f := by
  have hv : '\t' ∉ verified := by decide
  simp only [rowFields, List.forall_mem_cons, List.not_mem_nil, false_imp_iff, implies_true]
  exact ⟨h.stamp.tab, h.source.tab, h.version.tab, h.url.tab, h.filename.tab, h.sha256.tab, hv,
    trivial⟩

theorem IsRecord.newline (h : IsRecord stamp source version e) :
    '\n' ∉ tabbed (rowFields stamp source version e) := by
  have hv : '\n' ∉ verified := by decide
  simp only [rowFields, tabbed, List.mem_append, List.mem_cons, not_or]
  have hne : '\n' ≠ '\t' := by decide
  exact ⟨h.stamp.newline, hne, h.source.newline, hne, h.version.newline, hne, h.url.newline, hne,
    h.filename.newline, hne, h.sha256.newline, hne, hv⟩

theorem entry?_eq_some : entry? line = some e ↔
    field 7 line = verified ∧ field 4 line = e.url ∧ field 5 line = e.filename ∧
      field 6 line = e.sha256 := by
  unfold entry?
  split
  · next hv =>
    simp only [hv, true_and, Option.some.injEq]
    exact ⟨by rintro rfl; exact ⟨rfl, rfl, rfl⟩, by rintro ⟨hu, hf, hs⟩; cases e; simp_all⟩
  · next hv => simp [hv]

/-- **The entry of a line that is glued to another one** was there before, or it is the one that was
written in full, in a line of its own or behind a first field. -/
theorem entry?_append (h : IsRecord stamp source version e)
    (hp : p <+: tabbed (rowFields stamp source version e)) (he : entry? (line ++ p) = some e') :
    entry? line = some e' ∨
      line.count '\t' = 0 ∧ p = tabbed (rowFields stamp source version e) ∧ e' = e := by
  obtain ⟨hv, hu, hf, hs⟩ := entry?_eq_some.1 he
  have hpre : ∀ n, field (n + 1) p <+: (rowFields stamp source version e).getD n [] :=
    fun n => field_prefix h.tab hp
  have hkeep : 6 ≤ line.count '\t' → field 7 line = verified → entry? line = some e' := by
    intro hk hv
    rw [field_append_of_lt (by omega) (by omega)] at hu hf hs
    exact entry?_eq_some.2 ⟨hv, hu, hf, hs⟩
  by_cases h7 : 7 ≤ line.count '\t'
  · -- the status is in front of what is glued
    rw [field_append_of_lt (by omega) h7] at hv
    exact Or.inl (hkeep (by omega) hv)
  by_cases h6 : line.count '\t' = 6
  · -- the status goes on with the time, which has a digit in front
    rw [field_append_of_eq (by omega) (by omega)] at hv
    have hstamp : field 1 p <+: stamp := hpre 0
    cases hone : field 1 p with
    | nil =>
      rw [hone, List.append_nil] at hv
      exact Or.inl (hkeep (by omega) hv)
    | cons c t =>
      rw [hone] at hstamp hv
      obtain ⟨t', rfl⟩ := hstamp
      have hdigit := h.stamp.digit c (t ++ t') rfl
      have hc : c ∈ verified := hv ▸ List.mem_append_right _ List.mem_cons_self
      have hall : ∀ c ∈ verified, ¬ c.isDigit := by decide
      exact absurd hdigit (hall c hc)
  by_cases h0 : line.count '\t' = 0
  · -- all fields but the first are those of what is glued
    rw [field_append_of_gt (by omega), h0] at hv hu hf hs
    obtain rfl := eq_of_last_field (f := verified) h.tab hp (by decide) rfl hv
    refine Or.inr ⟨h0, rfl, ?_⟩
    rw [show (4 : ℕ) - 0 = 3 + 1 from rfl, field_tabbed h.tab] at hu
    rw [show (5 : ℕ) - 0 = 4 + 1 from rfl, field_tabbed h.tab] at hf
    rw [show (6 : ℕ) - 0 = 5 + 1 from rfl, field_tabbed h.tab] at hs
    cases e
    cases e'
    cases hu
    cases hf
    cases hs
    rfl
  · -- the status is one of the other values
    rw [field_append_of_gt (by omega)] at hv
    have hplain : ∀ n, 1 ≤ n → n ≤ 5 →
        ¬ verified <+: (rowFields stamp source version e).getD n [] := by
      intro n h1 h5
      obtain rfl | rfl | rfl | rfl | rfl : n = 1 ∨ n = 2 ∨ n = 3 ∨ n = 4 ∨ n = 5 := by omega
      exacts [h.source.status, h.version.status, h.url.status, h.filename.status, h.sha256.status]
    have hfield := hpre (6 - line.count '\t')
    rw [show 6 - line.count '\t' + 1 = 7 - line.count '\t' by omega, hv] at hfield
    exact absurd hfield (hplain _ (by omega) (by omega))

/-- A file is complete lines and one that is not. -/
theorem exists_open (manifest : Text) : ∃ ls line, manifest = unlines ls ++ line ∧
    (∀ l ∈ ls, '\n' ∉ l) ∧ '\n' ∉ line := by
  induction manifest with
  | nil => exact ⟨[], [], rfl, by simp, by simp⟩
  | cons c t ih =>
    obtain ⟨ls, line, rfl, hls, hline⟩ := ih
    by_cases hc : c = '\n'
    · subst hc
      refine ⟨[] :: ls, line, by rw [unlines_cons]; rfl, ?_, hline⟩
      rintro l (_ | ⟨_, hl⟩)
      exacts [List.not_mem_nil, hls l hl]
    · cases ls with
      | nil =>
        refine ⟨[], c :: line, rfl, by simp, ?_⟩
        rw [List.mem_cons, not_or]
        exact ⟨fun h => hc h.symm, hline⟩
      | cons l ls =>
        refine ⟨(c :: l) :: ls, line, by rw [unlines_cons, unlines_cons]; rfl, ?_, hline⟩
        rintro l' (_ | ⟨_, hl⟩)
        · rw [List.mem_cons, not_or]
          exact ⟨fun h => hc h.symm, hls l List.mem_cons_self⟩
        · exact hls l' (List.mem_cons_of_mem _ hl)

/-- The lines that `awk` sees; an empty line at the end has no entry. -/
theorem entries_open (hls : ∀ l ∈ ls, '\n' ∉ l) (hline : '\n' ∉ line) :
    entries (unlines ls ++ line) = (ls ++ [line]).tail.filterMap entry? := by
  have hne : ∀ l : Text, '\n' ∉ l → ∀ c ∈ l, decide (c = '\n') = false := by
    intro l hl c hc
    exact decide_eq_false fun h => hl (h ▸ hc)
  have hsplit : (unlines ls ++ line).splitOnP (· = '\n') = ls ++ [line] := by
    induction ls with
    | nil => exact List.splitOnP_eq_singleton (hne line hline)
    | cons l ls ih =>
      rw [unlines_cons, List.append_assoc, List.cons_append,
        List.splitOnP_append_cons _ _ (by simp),
        List.splitOnP_eq_singleton (hne l (hls l List.mem_cons_self)),
        ih fun l hl => hls l (List.mem_cons_of_mem _ hl)]
      rfl
  have hempty : entry? [] = none := by decide
  rw [entries, lines, splitLines, hsplit]
  cases ls with
  | nil =>
    simp only [List.nil_append, List.tail_cons, List.filterMap_nil]
    split <;> rfl
  | cons l ls =>
    rw [List.cons_append, ← List.cons_append, List.getLast?_concat, List.dropLast_concat]
    split
    · next h =>
      obtain rfl := Option.some.inj h
      simp [List.filterMap_append, hempty]
    · rfl

/-- What a write leaves behind: the line, or its beginning. -/
theorem prefix_row (hp : p <+: row stamp source version e) :
    p <+: tabbed (rowFields stamp source version e) ∨ p = row stamp source version e := by
  rcases List.prefix_concat_iff.1 hp with rfl | hp
  exacts [Or.inr rfl, Or.inl hp]

/-- **A write adds its own entry at most**, and one entry is lost at most. -/
theorem entries_append (h : IsRecord stamp source version e)
    (hp : p <+: row stamp source version e) :
    (entries (manifest ++ p)).Sublist (entries manifest) ∨
      entries (manifest ++ p) = entries manifest ++ [e] := by
  obtain ⟨ls, line, rfl, hls, hline⟩ := exists_open manifest
  -- a newline at the end of the line makes no difference
  obtain ⟨q, hq, heq⟩ : ∃ q, q <+: tabbed (rowFields stamp source version e) ∧
      entries (unlines ls ++ line ++ p) = (ls ++ [line ++ q]).tail.filterMap entry? := by
    have hnew : ∀ q, q <+: tabbed (rowFields stamp source version e) → '\n' ∉ line ++ q := by
      intro q hq
      rw [List.mem_append, not_or]
      exact ⟨hline, not_mem_of_initial hq h.newline⟩
    rcases prefix_row hp with hp | rfl
    · exact ⟨p, hp, by rw [List.append_assoc, entries_open hls (hnew p hp)]⟩
    · refine ⟨_, List.prefix_refl _, ?_⟩
      have hrow : unlines ls ++ line ++ row stamp source version e =
          unlines (ls ++ [line ++ tabbed (rowFields stamp source version e)]) ++ [] := by
        simp [row, unlines]
      have hempty : entry? [] = none := by decide
      rw [hrow, entries_open]
      · cases ls with
        | nil => rfl
        | cons l ls =>
          cases hx : entry? (line ++ tabbed (rowFields stamp source version e)) <;>
            simp [List.filterMap_append, hempty, hx]
      · intro l hl
        obtain hl | hl := List.mem_append.1 hl
        · exact hls l hl
        · obtain rfl := List.mem_singleton.1 hl
          exact hnew _ (List.prefix_refl _)
      · exact List.not_mem_nil
  rw [heq, entries_open hls hline]
  cases ls with
  | nil => exact Or.inl (List.Sublist.refl _)
  | cons l ls =>
    simp only [List.cons_append, List.tail_cons, List.filterMap_append]
    cases hglued : entry? (line ++ q) with
    | none => exact Or.inl (by simp [hglued])
    | some e' =>
      rcases entry?_append h hq hglued with hkept | ⟨hcount, -, rfl⟩
      · exact Or.inl (by simp [hglued, hkept])
      · -- a line without a tab has no entry
        have hnone : entry? line = none := by
          have htab : '\t' ∉ line := List.count_eq_zero.1 hcount
          rw [ entry?, show field 7 line = [] from field_of_not_mem htab]
          rfl
        exact Or.inr (by simp [hglued, hnone])

/-- A write that is not cut off adds its entry, when the line in front of it is complete. -/
theorem entries_record (h : IsRecord stamp source version e) (hls : ∀ l ∈ ls, '\n' ∉ l)
    (hne : ls ≠ []) :
    entries (unlines ls ++ row stamp source version e) = entries (unlines ls) ++ [e] := by
  have hrow : unlines ls ++ row stamp source version e =
      unlines (ls ++ [tabbed (rowFields stamp source version e)]) ++ [] := by
    simp [row, unlines]
  have hnew : ∀ l ∈ ls ++ [tabbed (rowFields stamp source version e)], '\n' ∉ l := by
    intro l hl
    obtain hl | hl := List.mem_append.1 hl
    · exact hls l hl
    · obtain rfl := List.mem_singleton.1 hl
      exact h.newline
  have hopen : '\n' ∉ ([] : Text) := List.not_mem_nil
  have hold := entries_open hls hopen
  have hfield : ∀ n, field (n + 1) (tabbed (rowFields stamp source version e)) =
      (rowFields stamp source version e).getD n [] := fun n => field_tabbed h.tab
  have hentry : entry? (tabbed (rowFields stamp source version e)) = some e :=
    entry?_eq_some.2 ⟨hfield 6, hfield 3, hfield 4, hfield 5⟩
  have hempty : entry? [] = none := by decide
  rw [List.append_nil] at hold
  rw [hrow, entries_open hnew List.not_mem_nil, hold]
  cases ls with
  | nil => exact absurd rfl hne
  | cons l ls => simp [List.filterMap_append, hentry, hempty]

end Entries

end Cache

end InstallKit
