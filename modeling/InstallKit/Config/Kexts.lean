import InstallKit.Config.Agreement
import InstallKit.Config.Dump
import InstallKit.Config.Sed
import Mathlib.Data.Char
import Mathlib.Data.List.Lex
import Mathlib.Data.List.Sort

/-!
# The kexts that `build_opencore_variant` hands to the generator

`collect_kext_arguments` finds the staged bundles, cuts the common directory off with `sed` and
sorts the rest.  The directory is spliced into the program of `sed` as it is, so it is read as a
regular expression.

* `Leaves` : what the expression takes off the path of a bundle is what stands before `r` in it;
* `coincide_iff` : the configured bundles are the staged ones exactly when every staged bundle is
  left of one, and has no carriage return in its path (which the file does not keep);
* `leaves_iff_star` : that is so whatever is staged exactly when the path has no star; a star makes
  the expression miss its own text, or match more.
-/

namespace InstallKit

namespace Config

open Sources

/-! ### Paths as text -/

/-- Names joined by slashes. -/
def relText (r : List Text) : Text := ['/'].intercalate r

/-- The text of an absolute path. -/
def absText (p : List Text) : Text := '/' :: relText p

theorem splitOn_relText {r : List Text} (hr : ∀ c ∈ r, IsEntryName c) (hne : r ≠ []) :
    (relText r).splitOn '/' = r :=
  List.splitOn_intercalate '/' (fun c hc => (hr c hc).2.1) hne

theorem relText_splitOn (s : Text) : relText (s.splitOn '/') = s := List.intercalate_splitOn '/'

theorem relText_cons {c : Text} {r : List Text} (hne : r ≠ []) :
    relText (c :: r) = c ++ '/' :: relText r := by
  cases r with
  | nil => exact absurd rfl hne
  | cons d r => simp [relText, List.intercalate]

theorem relText_append {r r' : List Text} (hne : r ≠ []) (hne' : r' ≠ []) :
    relText (r ++ r') = relText r ++ '/' :: relText r' := by
  induction r with
  | nil => exact absurd rfl hne
  | cons c r ih =>
    cases r with
    | nil =>
      rw [List.singleton_append, relText_cons hne']
      simp [relText]
    | cons d r =>
      rw [List.cons_append, relText_cons (by simp), relText_cons (List.cons_ne_nil _ _),
        ih (List.cons_ne_nil _ _)]
      simp

/-- What follows a slash in a path are its last components. -/
theorem suffix_of_absText {l : List Text} (hl : ∀ c ∈ l, IsEntryName c) (hne : l ≠ [])
    {u s : Text} (h : absText l = u ++ '/' :: s) : ∃ r, r ≠ [] ∧ r <:+ l ∧ s = relText r := by
  refine ⟨s.splitOn '/', List.splitOn_ne_nil _ s, ?_, (relText_splitOn s).symm⟩
  have hsplit : (absText l).splitOn '/' = [] :: l := by
    have := List.splitOn_append_cons_self (a := '/') [] (relText l)
    rw [splitOn_relText hl hne] at this
    exact this
  rw [h, List.splitOn_append_cons_self] at hsplit
  cases hu : u.splitOn '/' with
  | nil => exact absurd hu (List.splitOn_ne_nil _ u)
  | cons c us =>
    rw [hu, List.cons_append] at hsplit
    exact ⟨us, (List.cons.inj hsplit).2⟩

theorem head_relText {r : List Text} (hr : ∀ c ∈ r, IsEntryName c) : ¬ ['/'] <+: relText r := by
  cases r with
  | nil => simp [relText]
  | cons c r =>
    obtain ⟨hne, hslash, -⟩ := hr c List.mem_cons_self
    cases c with
    | nil => exact absurd rfl hne
    | cons x c =>
      rintro ⟨s, hs⟩
      cases r with
      | nil =>
        obtain rfl : '/' = x := by simpa [relText] using (congrArg List.head? hs)
        exact hslash List.mem_cons_self
      | cons d r =>
        rw [relText_cons (List.cons_ne_nil _ _)] at hs
        obtain rfl : '/' = x := by simpa using (congrArg List.head? hs)
        exact hslash List.mem_cons_self

/-- **Names survive `pathlib`.** -/
theorem parse_relText {r : List Text} (hr : ∀ c ∈ r, IsEntryName c) (hne : r ≠ []) :
    PurePath.parse (relText r) = ⟨[], r⟩ := by
  rw [PurePath.parse, if_pos (head_relText hr), splitOn_relText hr hne]
  congr 1
  rw [List.filter_eq_self]
  exact fun c hc => by simp [(hr c hc).1, (hr c hc).2.2.1]

/-- `str(PurePosixPath(argument))`. -/
def pathStr (s : Text) : Text := (PurePath.parse s).toText

theorem pathStr_relText {r : List Text} (hr : ∀ c ∈ r, IsEntryName c) (hne : r ≠ []) :
    pathStr (relText r) = relText r := by
  rw [pathStr, parse_relText hr hne, PurePath.toText, if_neg (by simp [hne]), List.nil_append]
  rfl

/-- An absolute path stays absolute. -/
theorem pathStr_absolute {s : Text} (h : ['/'] <+: s) : ['/'] <+: pathStr s := by
  have hroot : ['/'] <+: (PurePath.parse s).root := by
    rw [PurePath.parse, if_neg (by simpa using h)]
    split <;> simp
  have hne : (PurePath.parse s).root ≠ [] := by
    rintro hnil
    rw [hnil] at hroot
    simp at hroot
  rw [pathStr, PurePath.toText, if_neg fun h => hne h.1]
  exact hroot.trans (List.prefix_append _ _)

/-! ### The build -/

/-- `PROFILE_TARGET`. -/
inductive Target
  | stock
  | c2dT7400
  deriving DecidableEq

/-- What `build_opencore_variant` is run for, and where. -/
structure Build where
  /-- The directory of the checkout, as `pwd -P` prints it. -/
  checkout : List Text
  names : ∀ c ∈ checkout, IsEntryName c ∧ '\n' ∉ c
  target : Target
  os : Os
  kernel : Kernel
  /-- `KEXT_ORDER_SMC_FIRST`. -/
  smcFirst : Bool

namespace Build

variable (b : Build)

/-- The directories from the checkout down to `EFI/OC`. -/
def below : List Text :=
  [txt "output"] ++
  (match b.target with
    | .stock => []
    | .c2dT7400 => [txt "acer-aspire-4310-c2d-t7400"]) ++
  [b.os.text, txt "opencore-" ++ (match b.kernel with
    | .vanilla => txt "vanilla"
    | .custom => txt "custom"), txt "ESP", txt "EFI", txt "OC"]

/-- `$oc_root`. -/
def ocRoot : Text := absText b.checkout ++ b.below.flatMap ('/' :: ·)

/-- The directory that `$oc_root` names. -/
def ocPlace : List Text := b.checkout ++ b.below

/-- `$oc_root/Kexts/`. -/
def kextsPrefix : Text := b.ocRoot ++ txt "/Kexts/"

def kextsPlace : List Text := b.ocPlace ++ [txt "Kexts"]

/-- The bundles under `EFI/OC/Kexts`, relative to it, in the order in which `find` meets them. -/
def stagedKexts (t : Tree) : List (List Text) :=
  t.entries.filterMap fun e =>
    if e.2 = .dir ∧ b.kextsPlace <+: e.1 ∧ b.kextsPlace ≠ e.1 ∧
      txt ".kext" <:+ e.1.getLast?.getD [] then some (e.1.drop b.kextsPlace.length)
    else none

/-- `find "$oc_root/Kexts" -type d -name '*.kext' -print`. -/
def find (t : Tree) : Text :=
  unlines ((b.stagedKexts t).map fun r => b.kextsPrefix ++ relText r)

/-- The characters of a path that make its expression more than dots and stars. -/
def isSpecial (c : Char) : Bool := c ∈ ['#', '[', '\\']

/-- `sed "s#^$oc_root/Kexts/##"`.  With special characters in the path it is another program, and
what that one does is left to `other`. -/
def sed (other : Text → Text → Text) (input : Text) : Text :=
  if ∀ c ∈ b.kextsPrefix, isSpecial c = false then
    unlines ((lines input).map (Sed.strip (Sed.items false b.kextsPrefix)))
  else other (txt "s#^" ++ b.kextsPrefix ++ txt "##") input

/-- `LC_ALL=C sort`: the bytes of UTF-8 are ordered as the characters are. -/
def sort (input : Text) : Text := unlines ((lines input).insertionSort (· ≤ ·))

/-- A line from its second field on. -/
def cutLine (l : Text) : Text := if '\t' ∈ l then (l.dropWhile (· ≠ '\t')).tail else l

/-- `cut -f2-`. -/
def cut (input : Text) : Text := unlines ((lines input).map cutLine)

/-- The key of a bundle that puts `fakesmc.kext` first. -/
def smcKey (l : Text) : Text := (if l = txt "fakesmc.kext" then ['0', '\t'] else ['1', '\t']) ++ l

/-- `collect_kext_arguments`. -/
def collectKextArguments (other : Text → Text → Text) (t : Tree) : Text :=
  if b.smcFirst then
    cut (sort (unlines (((lines (b.sed other (b.find t))).filter (· ≠ [])).map smcKey)))
  else sort (b.sed other (b.find t))

/-- The values of `--kext`. -/
def kextArguments (other : Text → Text → Text) (t : Tree) : List Text :=
  (lines (b.collectKextArguments other t)).filter (· ≠ [])

/-! ### The pipeline -/

variable {b} {t : Tree} {r : List Text} (other : Text → Text → Text)

theorem lines_unlines {ls : List Text} (h : ∀ l ∈ ls, '\n' ∉ l) : lines (unlines ls) = ls :=
  splitLines_unlines (by simp) fun l hl c hc => by
    simp only [decide_eq_false_iff_not]
    rintro rfl
    exact h l hl hc

theorem newline_not_mem_relText (h : ∀ c ∈ r, '\n' ∉ c) : '\n' ∉ relText r := by
  induction r with
  | nil => simp [relText]
  | cons c r ih =>
    rw [List.forall_mem_cons] at h
    cases r with
    | nil => simpa [relText] using h.1
    | cons d r =>
      rw [relText_cons (List.cons_ne_nil _ _)]
      simp [h.1, ih h.2]

theorem names_below (b : Build) : ∀ c ∈ b.below, IsEntryName c ∧ '\n' ∉ c := by
  unfold below
  cases b.target <;> cases b.os <;> cases b.kernel <;> simp [Os.text, txt, IsEntryName, dotDot]

theorem names_kextsPlace (b : Build) : ∀ c ∈ b.kextsPlace, IsEntryName c ∧ '\n' ∉ c := by
  intro c hc
  rw [kextsPlace, ocPlace, List.mem_append, List.mem_append, List.mem_singleton] at hc
  rcases hc with (hc | hc) | rfl
  · exact b.names c hc
  · exact names_below b c hc
  · simp [IsEntryName, txt, dotDot]

theorem newline_not_mem_kextsPrefix (b : Build) : '\n' ∉ b.kextsPrefix := by
  have hcheckout : '\n' ∉ relText b.checkout :=
    newline_not_mem_relText fun c hc => (b.names c hc).2
  simp only [kextsPrefix, ocRoot, absText, List.mem_append, List.mem_cons, List.mem_flatMap, not_or,
    not_exists, not_and]
  refine ⟨⟨⟨by decide, hcheckout⟩, fun c hc => ⟨by decide, (names_below b c hc).2⟩⟩, by simp [txt]⟩

/-- What `sed` makes of the path of a bundle. -/
def stripped (b : Build) (r : List Text) : Text :=
  Sed.strip (Sed.items false b.kextsPrefix) (b.kextsPrefix ++ relText r)

theorem newline_not_mem_stripped (h : ∀ c ∈ r, '\n' ∉ c) : '\n' ∉ b.stripped r := by
  have hline : '\n' ∉ b.kextsPrefix ++ relText r := by
    rw [List.mem_append, not_or]
    exact ⟨newline_not_mem_kextsPrefix b, newline_not_mem_relText h⟩
  rcases Sed.strip_cases (Sed.items false b.kextsPrefix) (b.kextsPrefix ++ relText r) with
    hs | ⟨u, hu, -⟩
  · rw [stripped, hs]
    exact hline
  · intro hmem
    rw [hu] at hline
    exact hline (List.mem_append_right _ hmem)

theorem lines_sort (ls : List Text) (h : ∀ l ∈ ls, '\n' ∉ l) :
    lines (sort (unlines ls)) = ls.insertionSort (· ≤ ·) := by
  rw [sort, lines_unlines h, lines_unlines]
  exact fun l hl => h l ((List.mem_insertionSort _).1 hl)

theorem lines_sed (hplain : ∀ c ∈ b.kextsPrefix, isSpecial c = false)
    (hnl : ∀ r ∈ b.stagedKexts t, ∀ c ∈ r, '\n' ∉ c) :
    lines (b.sed other (b.find t)) = (b.stagedKexts t).map b.stripped := by
  have hfind : lines (b.find t) = (b.stagedKexts t).map fun r => b.kextsPrefix ++ relText r := by
    refine lines_unlines fun l hl => ?_
    obtain ⟨r, hr, rfl⟩ := List.mem_map.1 hl
    rw [List.mem_append, not_or]
    exact ⟨newline_not_mem_kextsPrefix b, newline_not_mem_relText (hnl r hr)⟩
  rw [sed, if_pos hplain, hfind, List.map_map]
  refine lines_unlines fun l hl => ?_
  obtain ⟨r, hr, rfl⟩ := List.mem_map.1 hl
  exact newline_not_mem_stripped (hnl r hr)

/-- `cut` removes the key again. -/
theorem cutLine_smcKey (l : Text) : cutLine (smcKey l) = l := by
  unfold cutLine smcKey
  split <;> simp

/-- The arguments are ordered by these keys. -/
def sortKey (b : Build) (l : Text) : Text := if b.smcFirst then smcKey l else l

theorem sortKey_injective (b : Build) : Function.Injective b.sortKey := by
  intro l l' h
  unfold sortKey at h
  split at h
  · rw [← cutLine_smcKey l, h, cutLine_smcKey]
  · exact h

/-- Keys are sorted in place of the lines. -/
theorem lines_cut_sort {ls : List Text} (h : ∀ l ∈ ls, '\n' ∉ l) :
    lines (cut (sort (unlines (ls.map smcKey)))) =
      ls.insertionSort fun l l' => smcKey l ≤ smcKey l' := by
  have hkeys : ∀ l ∈ ls.map smcKey, '\n' ∉ l := by
    intro l hl
    obtain ⟨l', hl', rfl⟩ := List.mem_map.1 hl
    have := h l' hl'
    unfold smcKey
    split <;> simp [this]
  have hmap := List.map_insertionSort (fun l l' => smcKey l ≤ smcKey l') (· ≤ ·) smcKey ls
    fun _ _ _ _ => Iff.rfl
  have hid : cutLine ∘ smcKey = id := funext cutLine_smcKey
  rw [cut, lines_sort _ hkeys, ← hmap, List.map_map, hid, List.map_id]
  exact lines_unlines fun l hl => h l ((List.mem_insertionSort _).1 hl)

/-- The lines of a text. -/
theorem newline_not_mem_lines (input : Text) : ∀ l ∈ lines input, '\n' ∉ l := by
  intro l hl hmem
  have hc := eq_false_of_mem_splitLines hl '\n' hmem
  simp at hc

/-- The lines that `collect_kext_arguments` prints are those of `sed`, sorted by their keys. -/
theorem lines_collectKextArguments :
    ∃ ls : List Text, lines (b.collectKextArguments other t) =
        ls.insertionSort (fun l l' => b.sortKey l ≤ b.sortKey l') ∧
      ls.filter (· ≠ []) = (lines (b.sed other (b.find t))).filter (· ≠ []) := by
  have hnl := newline_not_mem_lines (b.sed other (b.find t))
  rw [collectKextArguments]
  cases hsmc : b.smcFirst with
  | false =>
    refine ⟨lines (b.sed other (b.find t)), ?_, rfl⟩
    simp only [Bool.false_eq_true, if_false, sort, sortKey, hsmc]
    exact lines_unlines fun l hl => hnl l ((List.mem_insertionSort _).1 hl)
  | true =>
    refine ⟨(lines (b.sed other (b.find t))).filter (· ≠ []), ?_, by simp⟩
    simp only [if_true, sortKey, hsmc]
    exact lines_cut_sort fun l hl => hnl l (List.mem_of_mem_filter hl)

/-- **The order of the arguments** is that of their keys, whatever `sed` leaves. -/
theorem kextArguments_pairwise :
    (b.kextArguments other t).Pairwise fun l l' => b.sortKey l ≤ b.sortKey l' := by
  obtain ⟨ls, hls, -⟩ := lines_collectKextArguments (b := b) (t := t) other
  have : Std.Total fun l l' => b.sortKey l ≤ b.sortKey l' := ⟨fun _ _ => le_total _ _⟩
  have : IsTrans Text fun l l' => b.sortKey l ≤ b.sortKey l' := ⟨fun _ _ _ => le_trans⟩
  rw [kextArguments, hls]
  exact (List.pairwise_insertionSort _ _).filter _

/-- The arguments are what `sed` leaves. -/
theorem kextArguments_spec (hplain : ∀ c ∈ b.kextsPrefix, isSpecial c = false)
    (hnl : ∀ r ∈ b.stagedKexts t, ∀ c ∈ r, '\n' ∉ c) :
    (b.kextArguments other t).Perm (((b.stagedKexts t).map b.stripped).filter (· ≠ [])) := by
  obtain ⟨ls, hls, hfilter⟩ := lines_collectKextArguments (b := b) (t := t) other
  rw [kextArguments, hls, ← lines_sed other hplain hnl, ← hfilter]
  exact (List.perm_insertionSort _ _).filter _

/-! ### A path without stars -/

theorem mem_stagedKexts : r ∈ b.stagedKexts t ↔ r ≠ [] ∧ t.node (b.kextsPlace ++ r) = some .dir ∧
    txt ".kext" <:+ r.getLast?.getD [] := by
  rw [stagedKexts, List.mem_filterMap]
  constructor
  · rintro ⟨⟨p, n⟩, he, hif⟩
    obtain ⟨⟨hdir, ⟨q, hq⟩, hne, hlast⟩, hr⟩ := Option.ite_none_right_eq_some.1 hif
    obtain rfl : n = .dir := hdir
    obtain rfl : b.kextsPlace ++ q = p := hq
    obtain rfl : q = r := by simpa using hr
    have hq : q ≠ [] := by
      rintro rfl
      exact hne (List.append_nil _).symm
    rw [List.getLast?_append_of_ne_nil _ hq] at hlast
    exact ⟨hq, (Tree.mem_entries.1 he).2, hlast⟩
  · rintro ⟨hr, hdir, hlast⟩
    have hne : b.kextsPlace ++ r ≠ [] := by simp [hr]
    refine ⟨(b.kextsPlace ++ r, .dir), Tree.mem_entries.2 ⟨hne, hdir⟩, ?_⟩
    have hlast' : txt ".kext" <:+ (b.kextsPlace ++ r).getLast?.getD [] := by
      rwa [List.getLast?_append_of_ne_nil _ hr]
    rw [if_pos ⟨rfl, List.prefix_append _ _, by simpa using hr, hlast'⟩, List.drop_left]

theorem entryNames_stagedKexts (h : r ∈ b.stagedKexts t) : ∀ c ∈ r, IsEntryName c := by
  obtain ⟨hr, hdir, -⟩ := mem_stagedKexts.1 h
  have hmem := Tree.mem_entries.2 ⟨by simp [hr], hdir⟩
  exact fun c hc => (t.named _ hmem).2 c (List.mem_append_right _ hc)

theorem relText_ne_nil (hr : ∀ c ∈ r, IsEntryName c) (hne : r ≠ []) : relText r ≠ [] := by
  intro h
  have := splitOn_relText hr hne
  rw [h] at this
  exact (hr [] (by rw [← this]; simp)).1 rfl

/-! ### A path with stars -/

/-- Nothing but the checkout brings special characters into the expression. -/
theorem mem_kextsPrefix {c : Char} (hc : c ∈ ['#', '*', '[', '\\']) :
    c ∈ b.kextsPrefix ↔ c ∈ absText b.checkout := by
  have hcases : c = '#' ∨ c = '*' ∨ c = '[' ∨ c = '\\' := by simpa using hc
  have hbelow : ∀ n ∈ b.below, c ∉ n := by
    unfold below
    rcases hcases with rfl | rfl | rfl | rfl <;> cases b.target <;> cases b.os <;>
      cases b.kernel <;> simp [Os.text, txt]
  have hslash : c ≠ '/' := by rcases hcases with rfl | rfl | rfl | rfl <;> decide
  have hkexts : c ∉ txt "/Kexts/" := by rcases hcases with rfl | rfl | rfl | rfl <;> simp [txt]
  simp only [kextsPrefix, ocRoot, List.mem_append, List.mem_flatMap, List.mem_cons, hslash,
    false_or, hkexts, or_false, or_iff_left_iff_imp]
  rintro ⟨n, hn, hcn⟩
  exact absurd hcn (hbelow n hn)

theorem relText_append_flatMap {l : List Text} (hne : l ≠ []) (m : List Text) :
    relText (l ++ m) = relText l ++ m.flatMap ('/' :: ·) := by
  induction m using List.reverseRecOn with
  | nil => simp
  | append_singleton m c ih =>
    rw [← List.append_assoc, relText_append (by simp [hne]) (by simp), ih]
    simp [relText]

/-- Below the root the expression is the path of the directory, and a slash. -/
theorem kextsPrefix_eq (hne : b.checkout ≠ []) : b.kextsPrefix = absText b.kextsPlace ++ ['/'] := by
  have hkexts : txt "/Kexts/" = '/' :: txt "Kexts" ++ ['/'] := by simp [txt]
  have hplace : relText b.kextsPlace = relText (b.checkout ++ b.below) ++ '/' :: txt "Kexts" := by
    rw [kextsPlace, ocPlace, relText_append (by simp [hne]) (by simp)]
    simp [relText]
  rw [kextsPrefix, ocRoot, absText, absText, List.cons_append, ← relText_append_flatMap hne,
    hplace, hkexts]
  simp

/-- What `find` prints for a bundle. -/
theorem kextsPrefix_append (hne : b.checkout ≠ []) (hr : r ≠ []) :
    b.kextsPrefix ++ relText r = absText (b.kextsPlace ++ r) := by
  rw [kextsPrefix_eq hne, absText, absText, relText_append (by simp [kextsPlace]) hr]
  simp

/-- A match ends in a slash, so the last components of the path are left. -/
theorem rest_of_match (hne : b.checkout ≠ []) (hr : r ≠ []) (hnames : ∀ c ∈ r, IsEntryName c)
    {u s : Text} (hu : Sed.Matches (Sed.items false b.kextsPrefix) u)
    (h : b.kextsPrefix ++ relText r = u ++ s) : pathStr s = s := by
  rw [kextsPrefix_eq hne] at hu
  obtain ⟨v, rfl⟩ := hu.getLast?_eq (by simp [absText])
  rw [kextsPrefix_append hne hr, List.append_assoc] at h
  have hall : ∀ c ∈ b.kextsPlace ++ r, IsEntryName c :=
    List.forall_mem_append.2 ⟨fun c hc => (names_kextsPlace b c hc).1, hnames⟩
  obtain ⟨r', hne', hsuffix, rfl⟩ := suffix_of_absText hall (by simp [hr]) h
  exact pathStr_relText (fun c hc => hall c (hsuffix.subset hc)) hne'

/-- The longest beginning of the path of `q` that the expression matches is what stands before `r`
in it. -/
def Leaves (b : Build) (q r : List Text) : Prop :=
  ∃ u, b.kextsPrefix ++ relText q = u ++ relText r ∧
    Sed.Matches (Sed.items false b.kextsPrefix) u ∧
    ∀ u' s, b.kextsPrefix ++ relText q = u' ++ s →
      Sed.Matches (Sed.items false b.kextsPrefix) u' → u'.length ≤ u.length

/-- `sed` prints what is left. -/
theorem Leaves.stripped {q : List Text} (h : b.Leaves q r) : b.stripped q = relText r := by
  obtain ⟨u, hu, hm, hlong⟩ := h
  rw [Build.stripped, hu]
  refine Sed.strip_append hm fun u' s hs => ?_
  exact hlong u' s (hu.trans hs)

/-- A bundle whose path comes out relative has been left of the path of one. -/
theorem leaves_of_stripped {q : List Text} (hne : b.checkout ≠ []) (hq : q ≠ [])
    (hnames : ∀ c ∈ q, IsEntryName c) (hr : ∀ c ∈ r, IsEntryName c)
    (h : pathStr (b.stripped q) = relText r) : b.Leaves q r := by
  rcases Sed.strip_cases (Sed.items false b.kextsPrefix) (b.kextsPrefix ++ relText q) with
    hs | ⟨u, hu, hm⟩
  · -- no match: the path is absolute
    have habs : ['/'] <+: pathStr (b.stripped q) := by
      refine pathStr_absolute ?_
      rw [Build.stripped, hs, kextsPrefix_append hne hq]
      exact ⟨_, rfl⟩
    rw [h] at habs
    exact absurd habs (head_relText hr)
  · change _ = u ++ b.stripped q at hu
    rw [rest_of_match hne hq hnames hm hu] at h
    rw [h] at hu
    refine ⟨u, hu, hm, fun u' s hs hm' => ?_⟩
    obtain ⟨v, hv, -, hle⟩ := Sed.exists_of_strip hm' hs
    change _ = v ++ b.stripped q at hv
    rw [h, hu] at hv
    rwa [List.append_cancel_right hv]

/-- **Without a star the directory is cut off**, and nothing more. -/
theorem leaves_self (hstar : '*' ∉ b.kextsPrefix) (r : List Text) : b.Leaves r r := by
  have hs := Sed.starred_items hstar false
  have hself := Sed.matches_self hstar false
  refine ⟨b.kextsPrefix, rfl, hself, fun u' s _ hm => ?_⟩
  rw [hm.length_eq hs, hself.length_eq hs]

/-! ### What the file holds -/

theorem nodup_stagedKexts (b : Build) (t : Tree) : ((b.stagedKexts t).map relText).Nodup := by
  refine List.Nodup.map_on (fun r hr r' hr' h => ?_) ?_
  · rw [← splitOn_relText (entryNames_stagedKexts hr) (mem_stagedKexts.1 hr).1, h,
      splitOn_relText (entryNames_stagedKexts hr') (mem_stagedKexts.1 hr').1]
  · refine t.nodup.of_map.filterMap fun e e' r hr hr' => ?_
    obtain ⟨⟨hdir, ⟨q, hq⟩, -, -⟩, he⟩ := Option.ite_none_right_eq_some.1 hr
    obtain ⟨⟨hdir', ⟨q', hq'⟩, -, -⟩, he'⟩ := Option.ite_none_right_eq_some.1 hr'
    rw [← hq, List.drop_left] at he
    rw [← hq', List.drop_left] at he'
    obtain rfl : q = q' := (Option.some.inj he).trans (Option.some.inj he').symm
    exact Prod.ext (hq.symm.trans hq') (hdir.trans hdir'.symm)

/-- The arguments as a reader of the configuration finds them. -/
def configured (b : Build) (other : Text → Text → Text) (t : Tree) : List Text :=
  (b.kextArguments other t).map fun l => Plist.readBack (pathStr l)

theorem mem_configured (hplain : ∀ c ∈ b.kextsPrefix, isSpecial c = false)
    (hnl : ∀ r ∈ b.stagedKexts t, ∀ c ∈ r, '\n' ∉ c) {x : Text} :
    x ∈ b.configured other t ↔
      ∃ q ∈ b.stagedKexts t, b.stripped q ≠ [] ∧ Plist.readBack (pathStr (b.stripped q)) = x := by
  rw [configured, List.mem_map]
  constructor
  · rintro ⟨l, hl, rfl⟩
    have hl' := (kextArguments_spec other hplain hnl).mem_iff.1 hl
    obtain ⟨q, hq, rfl⟩ := List.mem_map.1 (List.mem_of_mem_filter hl')
    exact ⟨q, hq, by simpa using List.of_mem_filter hl', rfl⟩
  · rintro ⟨q, hq, hne, rfl⟩
    refine ⟨_, (kextArguments_spec other hplain hnl).mem_iff.2 ?_, rfl⟩
    exact List.mem_filter.2 ⟨List.mem_map_of_mem hq, by simpa using hne⟩

/-- **Staged and configured bundles are the same** exactly when every staged bundle has a path
without carriage returns and is left of the path of a staged bundle. -/
theorem coincide_iff (hplain : ∀ c ∈ b.kextsPrefix, isSpecial c = false)
    (hnl : ∀ r ∈ b.stagedKexts t, ∀ c ∈ r, '\n' ∉ c) :
    (∀ x, x ∈ b.configured other t ↔ x ∈ (b.stagedKexts t).map relText) ↔
      ∀ r ∈ b.stagedKexts t, '\r' ∉ relText r ∧ ∃ q ∈ b.stagedKexts t, b.Leaves q r := by
  constructor
  · intro h r hr
    obtain ⟨q, hq, -, hread⟩ :=
      (mem_configured other hplain hnl).1 ((h _).2 (List.mem_map_of_mem hr))
    have hreturn : '\r' ∉ relText r := by
      rw [← hread]
      exact Plist.return_not_mem_readBack _
    refine ⟨hreturn, ?_⟩
    by_cases hstar : '*' ∈ b.kextsPrefix
    · have hne : b.checkout ≠ [] := by
        intro hnil
        have hmem := (mem_kextsPrefix (by simp)).1 hstar
        simp [hnil, absText, relText] at hmem
      -- a carriage return in what was printed would be a newline in the path of the bundle
      have hq' : '\r' ∉ pathStr (b.stripped q) := by
        intro hmem
        have := Plist.newline_mem_readBack hmem
        rw [hread] at this
        exact newline_not_mem_relText (hnl r hr) this
      rw [Plist.readBack_eq_self hq'] at hread
      exact ⟨q, hq, leaves_of_stripped hne (mem_stagedKexts.1 hq).1 (entryNames_stagedKexts hq)
        (entryNames_stagedKexts hr) hread⟩
    · exact ⟨r, hr, leaves_self hstar r⟩
  · intro h
    have hread : ∀ r ∈ b.stagedKexts t, relText r ≠ [] ∧
        Plist.readBack (pathStr (relText r)) = relText r := by
      intro r hr
      have hnames := entryNames_stagedKexts hr
      have hne := (mem_stagedKexts.1 hr).1
      rw [pathStr_relText hnames hne]
      exact ⟨relText_ne_nil hnames hne, Plist.readBack_eq_self (h r hr).1⟩
    -- every bundle is printed, and there are not more lines than bundles
    have hperm : ((b.stagedKexts t).map relText).Perm ((b.stagedKexts t).map b.stripped) := by
      refine List.Subperm.perm_of_length_le (List.subperm_of_subset (nodup_stagedKexts b t) ?_)
        (by simp)
      intro x hx
      obtain ⟨r, hr, rfl⟩ := List.mem_map.1 hx
      obtain ⟨-, q, hq, hleaves⟩ := h r hr
      rw [← hleaves.stripped]
      exact List.mem_map_of_mem hq
    intro x
    rw [mem_configured other hplain hnl]
    constructor
    · rintro ⟨q, hq, -, rfl⟩
      obtain ⟨r, hr, heq⟩ := List.mem_map.1 (hperm.mem_iff.2 (List.mem_map_of_mem hq))
      rw [← heq, (hread r hr).2]
      exact List.mem_map_of_mem hr
    · intro hx
      obtain ⟨q, hq, rfl⟩ := List.mem_map.1 (hperm.mem_iff.1 hx)
      obtain ⟨r, hr, heq⟩ := List.mem_map.1 hx
      exact ⟨q, hq, by rw [← heq]; exact (hread r hr).1, by rw [← heq]; exact (hread r hr).2⟩

/-! ### Every tree -/

/-- A tree that consists of the way to one directory. -/
def chain (p : List Text) (hp : ∀ c ∈ p, IsEntryName c) : Tree where
  entries := (List.range p.length).map fun n => (p.take (n + 1), .dir)
  nodup := by
    rw [List.map_map]
    refine List.Nodup.map_on (fun m hm n hn h => ?_) List.nodup_range
    have hlen := congrArg List.length h
    simp only [List.mem_range] at hm hn
    simp only [Function.comp, List.length_take] at hlen
    omega
  named := by
    intro e he
    obtain ⟨n, hn, rfl⟩ := List.mem_map.1 he
    rw [List.mem_range] at hn
    exact ⟨by simp; rintro rfl; simp at hn, fun c hc => hp c (List.mem_of_mem_take hc)⟩
  parent := by
    intro e he
    obtain ⟨n, hn, rfl⟩ := List.mem_map.1 he
    rw [List.mem_range] at hn
    have hdrop : (p.take (n + 1)).dropLast = p.take n := by
      rw [List.dropLast_eq_take, List.length_take, List.take_take]
      congr 1
      omega
    cases n with
    | zero => exact Or.inl (by simpa using hdrop)
    | succ n =>
      refine Or.inr (List.mem_map.2 ⟨n, List.mem_range.2 (by omega), ?_⟩)
      rw [hdrop]

theorem node_chain {p q : List Text} {hp : ∀ c ∈ p, IsEntryName c} :
    (chain p hp).node q = some .dir ↔ q <+: p := by
  by_cases hq : q = []
  · simp [hq]
  · have hmem : (chain p hp).node q = some .dir ↔ (q, Node.dir) ∈ (chain p hp).entries := by
      rw [Tree.mem_entries]
      exact (and_iff_right hq).symm
    rw [hmem, chain, List.mem_map]
    constructor
    · rintro ⟨n, -, he⟩
      rw [← (Prod.mk.inj he).1]
      exact List.take_prefix _ _
    · intro hpre
      have hpos := List.length_pos_iff.2 hq
      have hle := hpre.length_le
      refine ⟨q.length - 1, List.mem_range.2 (by omega), ?_⟩
      rw [Nat.sub_add_cancel hpos, ← List.prefix_iff_eq_take.1 hpre]

/-- Every staged bundle is left of the path of one. -/
def AllLeft (b : Build) (t : Tree) : Prop :=
  ∀ r ∈ b.stagedKexts t, ∃ q ∈ b.stagedKexts t, b.Leaves q r

/-- Where that is so whatever is staged, the bundle at the end of a chain is left of one on it. -/
theorem exists_leaves (h : ∀ t : Tree, (∀ r ∈ b.stagedKexts t, ∀ c ∈ r, '\n' ∉ c) → b.AllLeft t)
    (hr : ∀ c ∈ r, IsEntryName c ∧ '\n' ∉ c) (hne : r ≠ [])
    (hlast : txt ".kext" <:+ r.getLast?.getD []) : ∃ q, q ≠ [] ∧ q <+: r ∧ b.Leaves q r := by
  have hp : ∀ c ∈ b.kextsPlace ++ r, IsEntryName c :=
    List.forall_mem_append.2 ⟨fun c hc => (names_kextsPlace b c hc).1, fun c hc => (hr c hc).1⟩
  have hstaged : ∀ q, q ∈ b.stagedKexts (chain _ hp) ↔
      q ≠ [] ∧ q <+: r ∧ txt ".kext" <:+ q.getLast?.getD [] := by
    intro q
    rw [mem_stagedKexts, node_chain, List.prefix_append_right_inj]
  have hnl : ∀ q ∈ b.stagedKexts (chain _ hp), ∀ c ∈ q, '\n' ∉ c :=
    fun q hq c hc => (hr c (((hstaged q).1 hq).2.1.subset hc)).2
  obtain ⟨q, hq, hleaves⟩ := h _ hnl r ((hstaged r).2 ⟨hne, List.prefix_rfl, hlast⟩)
  obtain ⟨h₁, h₂, -⟩ := (hstaged q).1 hq
  exact ⟨q, h₁, h₂, hleaves⟩

/-- **A star fails on some tree**: the expression misses its own text, or a starred dot in it
matches beyond it. -/
theorem not_allLeft_of_star (hstar : '*' ∈ absText b.checkout) :
    ¬ ∀ t : Tree, (∀ r ∈ b.stagedKexts t, ∀ c ∈ r, '\n' ∉ c) → b.AllLeft t := by
  intro h
  have hne : b.checkout ≠ [] := by
    intro hnil
    rw [hnil] at hstar
    simp [absText, relText] at hstar
  have hkext : IsEntryName (txt "x.kext") ∧ '\n' ∉ txt "x.kext" := by
    simp [IsEntryName, txt, dotDot]
  have hlast : txt ".kext" <:+ txt "x.kext" := ⟨['x'], by simp [txt]⟩
  -- one bundle: the expression matches its own text
  have hself : Sed.Matches (Sed.items false b.kextsPrefix) b.kextsPrefix := by
    obtain ⟨q, hq, hpre, u, hu, hm, -⟩ := exists_leaves h (r := [txt "x.kext"])
      (by simpa using hkext) (by simp) (by simpa using hlast)
    obtain rfl : q = [txt "x.kext"] := by
      rcases List.prefix_cons_iff.1 hpre with rfl | ⟨q', rfl, hq'⟩
      · exact absurd rfl hq
      · rw [List.prefix_nil.1 hq']
    rwa [← List.append_cancel_right hu] at hm
  have hmem : '*' ∈ b.kextsPrefix := (mem_kextsPrefix (by simp)).2 hstar
  have hitems : Sed.items false b.kextsPrefix = Sed.items true b.kextsPrefix := by
    rw [kextsPrefix_eq hne, absText, List.cons_append,
      Sed.items_cons_of_ne false (by decide), Sed.items_cons_of_ne true (by decide)]
  -- so a dot is starred in it
  obtain ⟨i, hi, hs, hany⟩ : ∃ i ∈ Sed.items false b.kextsPrefix, i.starred = true ∧
      i.atom = none := by
    by_contra hno
    push Not at hno
    rw [hitems] at hself hno
    exact Sed.not_matches_self hmem hno hself
  -- a bundle in a copy of the path of the directory is taken for one at the top
  set full := txt "y" :: (b.kextsPlace ++ [txt "x.kext"]) with hfull
  have hnames : ∀ c ∈ full, IsEntryName c ∧ '\n' ∉ c := by
    rw [hfull, List.forall_mem_cons, List.forall_mem_append, List.forall_mem_singleton]
    exact ⟨by simp [IsEntryName, txt, dotDot], names_kextsPlace b, hkext⟩
  obtain ⟨q, hq, ⟨q', hq'⟩, u, hu, hm, hlong⟩ := exists_leaves h hnames (by simp [hfull])
    (by rw [hfull, ← List.cons_append, List.getLast?_concat]; exact hlast)
  have htext : relText full = txt "y" ++ b.kextsPrefix ++ txt "x.kext" := by
    rw [hfull, relText_cons (by simp), relText_append (by simp [kextsPlace]) (by simp),
      kextsPrefix_eq hne, absText]
    simp [relText]
  have hlen := congrArg List.length hu
  have hle := hlong _ _ rfl hself
  rw [List.length_append, List.length_append] at hlen
  have hqfull : q = full := by
    by_contra hneq
    have hne' : q' ≠ [] := by
      rintro rfl
      exact hneq (by rw [← hq', List.append_nil])
    rw [← hq', relText_append hq hne', List.length_append, List.length_cons] at hlen
    omega
  rw [hqfull] at hlen hlong
  have hdouble := hlong _ (txt "x.kext") (by rw [htext]; simp) (hself.double hi hs hany (txt "y"))
  simp only [List.length_append] at hdouble
  have hpos : 0 < b.kextsPrefix.length := List.length_pos_of_mem hmem
  omega

/-- **All paths**: every tree is configured as it is staged exactly when no star is in the path. -/
theorem leaves_iff_star :
    (∀ t : Tree, (∀ r ∈ b.stagedKexts t, ∀ c ∈ r, '\n' ∉ c) → b.AllLeft t) ↔
      '*' ∉ absText b.checkout := by
  constructor
  · exact fun h hstar => not_allLeft_of_star hstar h
  · intro hstar t _ r hr
    exact ⟨r, hr, leaves_self (fun hmem => hstar ((mem_kextsPrefix (by simp)).1 hmem)) r⟩

end Build

/-! ### The generated configuration -/

/-- The `BundlePath` values of `Kernel/Add`. -/
def bundlePaths (config : Plist) : Option (List Text) :=
  (getArray config ["Kernel", "Add"]).bind (·.mapM (getStr · ["BundlePath"]))

/-- The generator writes its arguments, as `pathlib` prints them. -/
theorem bundlePaths_generate {load : Bytes → Option Info} {t : Tree} {ocRoot : PurePath} {a : Args}
    {sample config : Plist} (h : generate load t ocRoot a sample = some config) :
    bundlePaths config = some (a.kexts.map pathStr) := by
  simp only [generate, Option.bind_eq_bind, Option.bind_eq_some_iff] at h
  obtain ⟨arch, -, kexts, hkexts, hw⟩ := h
  have hget := get_generated hw (by decide) (written_keys a arch kexts).2.1
  rw [bundlePaths, getArray, hget, Option.bind_some]
  clear hw hget
  generalize a.kexts = paths at hkexts
  induction paths generalizing kexts with
  | nil =>
    obtain rfl : [] = kexts := by simpa using hkexts
    rfl
  | cons path paths ih =>
    rw [List.mapM_cons] at hkexts
    simp only [Option.bind_eq_bind, Option.bind_eq_some_iff, Option.pure_def,
      Option.some.injEq] at hkexts
    obtain ⟨kext, hk, rest, hrest, rfl⟩ := hkexts
    obtain ⟨info, -, rfl⟩ := Option.map_eq_some_iff.1 hk
    rw [List.mapM_cons, ih rest hrest]
    rfl

/-- The same as a reader of the file finds them. -/
def readBundlePaths (config : Plist) : Option (List Text) :=
  (bundlePaths config).map (·.map Plist.readBack)

/-- A checkout in `/home/kit`. -/
def homeBuild : Build :=
  ⟨[txt "home", txt "kit"], by simp [IsEntryName, txt, dotDot], .stock, .leopard, .vanilla, false⟩

/-- A tree with one bundle. -/
def bundleTree (b : Build) : Tree :=
  let contents := b.kextsPlace ++ [txt "x.kext", txt "Contents"]
  (Build.chain contents (by
    refine List.forall_mem_append.2 ⟨fun c hc => (Build.names_kextsPlace _ c hc).1, ?_⟩
    simp [IsEntryName, txt, dotDot])).ensureFile contents (txt "Info.plist") []

/-- The arguments of its build. -/
def bundleArgs (b : Build) : Args :=
  ⟨.leopard, .vanilla, .verbose, .off, none, [], b.kextArguments (fun _ _ => []) (bundleTree b),
    [], false, []⟩

/-- A checkout in `/a*b`. -/
def starBuild : Build :=
  ⟨[txt "a*b"], by simp [IsEntryName, txt, dotDot], .stock, .leopard, .vanilla, false⟩

end Config

end InstallKit
