import InstallKit.Profiles.ShellConf
import InstallKit.Sources.CurrentSources
import Mathlib.Data.List.Infix

/-!
# Release tags in `current-sources.env`

The version that both writers of `current-sources.env` bind is the `tag_name` of a release as GitHub
reports it.  It goes from JSON through `print` into a heredoc, or through the arguments of a Python
script into a rewritten file, and is read back by `source`.  Nothing on the way quotes it or checks
it, while the two commit ids next to it are matched against `^[0-9a-f]{40}$`.

A line break of Python inside a tag makes two lines of its binding; the second one is left behind
when a selection replaces the binding.

* `written_form` : what any run of downloads and selections makes of the file.
* `release_tag_inert_iff` : **which tags are bound as they are and run nothing**: only those without
  quotes, operators and expansions, and all of those where the lines left behind do no harm.
* `release_tag_runs` : a tag that Git accepts and that is a command to `bash`.
-/

namespace InstallKit

namespace Sources

/-! ### Release metadata -/

/-- An asset of a release. -/
structure Asset where
  /-- `name`. -/
  name : Text
  /-- `browser_download_url`. -/
  url : Text

/-- A release as the API reports it. -/
structure Release where
  /-- `tag_name`. -/
  tagName : Text
  /-- `assets`. -/
  assets : List Asset

/-- `json_value opencore.json 'asset:-DEBUG.zip'`. -/
def Release.debugUrl (rel : Release) : Text :=
  ((rel.assets.find? fun a => txt "-DEBUG.zip" <:+ a.name).map Asset.url).getD []

/-- The archive of a release in the directory of the downloads. -/
def archiveOf (tag : Text) (variant : Variant) : Text :=
  txt "OpenCore-" ++ tag ++ '-' :: variant.text ++ txt ".zip"

/-- The file that a `run_download` of this release writes.  `storable` says which names the
directory of the downloads can hold: `curl` makes no directories, so a `/` in the name needs one
that is there already, and without its archive the run ends before the file is written. -/
def Release.runDownload (rel : Release) (storable : Text → Bool) (p : Pins) : Option Text :=
  if rel.tagName ≠ [] ∧ rel.debugUrl ≠ [] ∧ storable (archiveOf rel.tagName .debug) = true then
    some (Sources.runDownload rel.tagName p)
  else none

/-- `resolve_release`: the tag and the address of the asset `OpenCore-<tag>-<variant>.zip`. -/
def Release.resolve (rel : Release) (variant : Variant) : Option (Text × Text) :=
  (rel.assets.find? fun a => a.name = archiveOf rel.tagName variant).map fun a => (rel.tagName, a.url)

/-- The file that `select_opencore_release.sh --download` of this release writes; the archive goes
to the same directory. -/
def Release.select (rel : Release) (storable : Text → Bool) (variant : Variant) (file : Text) :
    Option Text :=
  match rel.resolve variant with
  | some (version, url) =>
    if version ≠ [] ∧ url ≠ [] ∧ storable (archiveOf version variant) = true then
      some (selectCache version variant.text file)
    else none
  | none => none

/-! ### Tags -/

/-- The characters that `git check-ref-format` refuses. -/
def isRefused (c : Char) : Bool :=
  c.toNat < 0x20 || c = '\x7f' || c ∈ [' ', '~', '^', ':', '?', '*', '[', '\\']

/-- `git check-ref-format refs/tags/<tag>`, and no leading dash. -/
def gitTag (t : Text) : Bool :=
  t ≠ [] && t.all (!isRefused ·) && t.head? ≠ some '-' && t.getLast? ≠ some '.' &&
    !(txt ".." <:+: t) && !(txt "@\x7b" <:+: t) &&
    (t.splitOnP (· = '/')).all fun part =>
      part ≠ [] && part.head? ≠ some '.' && !(txt ".lock" <:+ part)

/-- Git refuses the line ends of all systems. -/
theorem not_mem_gitTag {t : Text} (h : gitTag t = true) : '\n' ∉ t ∧ '\r' ∉ t := by
  simp only [gitTag, Bool.and_eq_true, List.all_eq_true] at h
  exact ⟨fun hm => absurd (h.1.1.1.1.1.2 _ hm) (by decide),
    fun hm => absurd (h.1.1.1.1.1.2 _ hm) (by decide)⟩

/-! ### Files written from releases -/

/-- The tags written since the last `run_download` with their variants, newest first, and the
file. -/
inductive Written (storable : Text → Bool) : List (Text × Variant) → Text → Prop
  | download {rel : Release} {p : Pins} {file : Text} : gitTag rel.tagName = true →
    rel.runDownload storable p = some file → Written storable [(rel.tagName, .debug)] file
  | select {earlier : List (Text × Variant)} {file : Text} {rel : Release} {variant : Variant}
    {file' : Text} : Written storable earlier file → gitTag rel.tagName = true →
    rel.select storable variant file = some file' →
    Written storable ((rel.tagName, variant) :: earlier) file'

/-- `bash` assigns to the three keys exactly what was meant, performs only assignments that keep
their value, and runs no command, whatever the parameters are. -/
def Inert (file : Text) (v w : Text) : Prop :=
  ∀ env, ∃ as, source env file = some as ∧ (∀ a ∈ as, Profiles.kindOf a.1 = .ordinary) ∧
    ∀ kv ∈ updates v w, kv ∈ as ∧ ∀ a ∈ as, a.1 = kv.1 → a = kv

/-- The pieces of a text that Python takes for lines. -/
def pieces (t : Text) : List Text := t.splitOnP isLineBreak

/-- The lines that the bindings of a tag leave behind when a selection replaces them. -/
def leftovers (x : Text × Variant) : List Text :=
  (pieces x.1).tail ++ (pieces (cacheRel x.1 x.2.text)).tail

/-- A line on which `bash` does nothing, or assigns a plain word to a variable without a meaning of
its own. -/
def Harmless (l : Text) : Prop :=
  l = [] ∨ l.head? = some '#' ∨ ∃ name word, IsName name ∧ Profiles.kindOf name = .ordinary ∧
    plain word = true ∧ l = binding name word

theorem eq_of_select {rel : Release} {storable : Text → Bool} {variant : Variant}
    {file file' : Text} (h : rel.select storable variant file = some file') :
    file' = selectCache rel.tagName variant.text file := by
  unfold Release.select at h
  split at h
  · rename_i version url hr
    obtain ⟨a, -, heq⟩ := Option.map_eq_some_iff.1 hr
    obtain ⟨rfl, rfl⟩ := Prod.mk.inj heq
    split at h
    · exact (Option.some.inj h).symm
    · cases h
  · cases h

theorem noBreak_of_mem_pieces {t l : Text} (h : l ∈ pieces t) : NoBreak l := eq_false_of_mem_splitOnP h

theorem pieces_of_noBreak {t : Text} (h : NoBreak t) : pieces t = [t] := splitOnP_of_not h

/-- The pieces of a binding: the key goes to the first one. -/
theorem pieces_binding {k v : Text} (hk : NoBreak k) :
    ∃ x, pieces (binding k v) = binding k x :: (pieces v).tail := by
  have heq : binding k v = (k ++ ['=']) ++ v := by simp [binding]
  have hno : NoBreak (k ++ ['=']) := noBreak_append.2 ⟨hk, by simp [isLineBreak]⟩
  have hne : v.splitOnP isLineBreak ≠ [] := List.splitOnP_ne_nil _ _
  obtain ⟨x, xs, hx⟩ := List.exists_cons_of_ne_nil hne
  refine ⟨x, ?_⟩
  rw [pieces, heq, splitOnP_append_of_not _ hno, pieces, hx]
  simp [binding]

theorem noBreak_of_mem_leftovers {x : Text × Variant} {l : Text} (h : l ∈ leftovers x) :
    NoBreak l := by
  rcases List.mem_append.1 h with h | h <;> exact noBreak_of_mem_pieces (List.mem_of_mem_tail h)

/-! ### The lines of the file -/

/-- The three keys that come from the release. -/
def ocKeys : List Text := keys.take 3

theorem mem_ocKeys {v w : Text} {kv : Text × Text} (h : kv ∈ updates v w) : kv.1 ∈ ocKeys := by
  have := List.mem_map_of_mem (f := Prod.fst) h
  exact this

/-- Each of the keys is updated, and to one value only. -/
theorem lookup_updates {v w : Text} {kv : Text × Text} (h : kv ∈ updates v w) :
    (updates v w).lookup kv.1 = some kv.2 := by
  simp only [updates, List.mem_cons, List.not_mem_nil, or_false] at h
  rcases h with rfl | rfl | rfl <;>
    simp only [updates, List.lookup_cons, beq_self_eq_true, variant_ne_version,
      cacheRel_ne_version, cacheRel_ne_variant]

theorem exists_update {k : Text} (h : k ∈ ocKeys) (v w : Text) : ∃ x, (k, x) ∈ updates v w := by
  simp only [ocKeys, keys, List.take_succ_cons, List.take_zero, List.mem_cons, List.not_mem_nil,
    or_false] at h
  rcases h with rfl | rfl | rfl
  · exact ⟨v, List.mem_cons_self⟩
  · exact ⟨w, List.mem_cons_of_mem _ List.mem_cons_self⟩
  · exact ⟨cacheRel v w, List.mem_cons_of_mem _ (List.mem_cons_of_mem _ List.mem_cons_self)⟩

theorem noBreak_key {k : Text} (h : k ∈ keys) : NoBreak k := by
  have hkeys : ∀ k ∈ keys, NoBreak k := by simp [keys, txt, isLineBreak]
  exact hkeys k h

/-- A line with another key, or without one, stays. -/
theorem rewriteLine_other {v w l : Text} (h : ∀ k ∈ ocKeys, keyOf l ≠ some k) :
    rewriteLine (updates v w) l = l := by
  rw [rewriteLine]
  cases hk : keyOf l with
  | none => rfl
  | some k =>
    have hnone : (updates v w).lookup k = none := by
      rw [List.lookup_eq_none_iff]
      intro kv hkv
      rw [bne_iff_ne]
      rintro rfl
      exact h _ (mem_ocKeys hkv) hk
    rw [Option.bind_some, hnone]
    rfl

/-- A line with one of the three keys gets its update. -/
theorem rewriteLine_update {v w l : Text} {kv : Text × Text} (hkv : kv ∈ updates v w)
    (hl : keyOf l = some kv.1) : rewriteLine (updates v w) l = binding kv.1 kv.2 := by
  rw [rewriteLine, hl, Option.bind_some, lookup_updates hkv]
  rfl

/-- No pin has one of the three keys. -/
theorem keyOf_pin {p : Pins} {l : Text} (hl : l ∈ p.lines) : ∀ k ∈ ocKeys, keyOf l ≠ some k := by
  have hne : ∀ k ∈ keys.drop 3, k ∉ ocKeys := by simp [ocKeys, keys, txt]
  have hkey : ∀ k ∈ keys.drop 3, ∀ x, ∀ k' ∈ ocKeys, keyOf (binding k x) ≠ some k' := by
    intro k hk x k' hk' h
    rw [keyOf_key (List.mem_of_mem_drop hk)] at h
    exact hne k hk (Option.some.inj h ▸ hk')
  simp only [Pins.lines, List.mem_cons, List.not_mem_nil, or_false] at hl
  rcases hl with rfl | rfl | rfl | rfl | rfl <;> exact hkey _ (by simp [keys]) _

/-- What the writers have made of the file: the version comes first, the three keys are bound as in
the last write, and what else is there are pins, or lines that earlier tags left behind. -/
structure TagForm (p : Pins) (left : List Text) (v w : Text) (ls : List Text) : Prop where
  /-- The first line. -/
  head : ls.head? = some (binding (txt "OC_VERSION") v)
  /-- The three keys. -/
  bound : ∀ kv ∈ updates v w, binding kv.1 kv.2 ∈ ls
  /-- Every line. -/
  line : ∀ l ∈ ls, l ∈ p.lines ∨ (∃ kv ∈ updates v w, l = binding kv.1 kv.2) ∨
    l ∈ left ∧ ∀ k ∈ ocKeys, keyOf l ≠ some k

theorem tagForm_sourceLines (p : Pins) (v w : Text) : TagForm p [] v w (sourceLines v w p) where
  head := rfl
  bound := by
    intro kv hkv
    rw [sourceLines, List.mem_append]
    exact Or.inl (List.mem_map_of_mem (f := fun kv : Text × Text => binding kv.1 kv.2) hkv)
  line := by
    intro l hl
    rw [sourceLines, List.mem_append] at hl
    rcases hl with hl | hl
    · obtain ⟨kv, hkv, rfl⟩ :=
        List.mem_map.1 (show l ∈ (updates v w).map fun kv => binding kv.1 kv.2 from hl)
      exact Or.inr (Or.inl ⟨kv, hkv, rfl⟩)
    · exact Or.inl hl

section TagForm

variable {p : Pins} {left : List Text} {t : Text} {variant : Variant} {ls : List Text}

/-- What Python reads of a line: a line that stays, or a binding and what it leaves behind. -/
theorem TagForm.piece (h : TagForm p left t variant.text ls) (hleft : ∀ l ∈ left, NoBreak l)
    {l x : Text} (hl : l ∈ ls) (hx : x ∈ pieces l) :
    x ∈ p.lines ∨ (∃ k ∈ ocKeys, keyOf x = some k) ∨
      x ∈ leftovers (t, variant) ++ left ∧ ∀ k ∈ ocKeys, keyOf x ≠ some k := by
  rcases h.line l hl with hp | ⟨kv, hkv, rfl⟩ | ⟨hm, hk⟩
  · rw [pieces_of_noBreak (noBreak_pins l hp), List.mem_singleton] at hx
    exact Or.inl (hx ▸ hp)
  · have hkey : kv.1 ∈ keys := List.mem_of_mem_take (mem_ocKeys hkv)
    obtain ⟨y, hy⟩ := pieces_binding (v := kv.2) (noBreak_key hkey)
    rw [hy, List.mem_cons] at hx
    by_cases hkx : ∃ k ∈ ocKeys, keyOf x = some k
    · exact Or.inr (Or.inl hkx)
    · refine Or.inr (Or.inr ⟨List.mem_append_left _ ?_, fun k hk hkx' => hkx ⟨k, hk, hkx'⟩⟩)
      rcases hx with rfl | hx
      · exact absurd ⟨kv.1, mem_ocKeys hkv, keyOf_key hkey⟩ hkx
      · simp only [updates, List.mem_cons, List.not_mem_nil, or_false] at hkv
        rcases hkv with rfl | rfl | rfl
        · exact List.mem_append_left _ hx
        · rw [pieces_of_noBreak variant.noBreak] at hx
          cases hx
        · exact List.mem_append_right _ hx
  · rw [pieces_of_noBreak (hleft l hm), List.mem_singleton] at hx
    exact Or.inr (Or.inr ⟨List.mem_append_right _ (hx ▸ hm), hx ▸ hk⟩)

/-- Every binding begins with its key again. -/
theorem TagForm.key (h : TagForm p left t variant.text ls) {k : Text} (hk : k ∈ ocKeys) :
    ∃ x, binding k x ∈ ls.flatMap pieces := by
  obtain ⟨v, hv⟩ := exists_update hk t variant.text
  obtain ⟨x, hx⟩ := pieces_binding (v := v) (noBreak_key (List.mem_of_mem_take hk))
  exact ⟨x, List.mem_flatMap.2 ⟨_, h.bound _ hv, by rw [hx]; exact List.mem_cons_self⟩⟩

/-- The keys are found, so that nothing is appended. -/
theorem TagForm.rewrite (h : TagForm p left t variant.text ls) (v w : Text) :
    rewrite (updates v w) (ls.flatMap pieces) =
      (ls.flatMap pieces).map (rewriteLine (updates v w)) := by
  have happend : ((updates v w).filter fun kv => kv.1 ∉ (ls.flatMap pieces).filterMap keyOf) =
      [] := by
    rw [List.filter_eq_nil_iff]
    intro kv hkv
    obtain ⟨x, hx⟩ := h.key (mem_ocKeys hkv)
    have hmem : kv.1 ∈ (ls.flatMap pieces).filterMap keyOf := List.mem_filterMap.2
      ⟨_, hx, keyOf_key (List.mem_of_mem_take (mem_ocKeys hkv))⟩
    rw [decide_eq_true_iff]
    exact fun hnot => hnot hmem
  rw [Sources.rewrite, happend, List.map_nil, List.append_nil]

/-- **One selection**: the form is kept, and the old bindings leave behind what Python takes for
lines of their own. -/
theorem TagForm.select (h : TagForm p left t variant.text ls) (hleft : ∀ l ∈ left, NoBreak l)
    (v w : Text) :
    TagForm p (leftovers (t, variant) ++ left) v w
      ((ls.flatMap pieces).map (rewriteLine (updates v w))) where
  head := by
    obtain ⟨rest, rfl⟩ := List.head?_eq_some_iff.1 h.head
    have hkey : txt "OC_VERSION" ∈ keys := by simp [keys]
    obtain ⟨x, hx⟩ := pieces_binding (v := t) (noBreak_key hkey)
    have hu : (txt "OC_VERSION", v) ∈ updates v w := List.mem_cons_self
    rw [List.flatMap_cons, hx, List.cons_append, List.map_cons, List.head?_cons,
      rewriteLine_update hu (keyOf_key hkey)]
  bound := by
    intro kv hkv
    obtain ⟨x, hx⟩ := h.key (mem_ocKeys hkv)
    exact List.mem_map.2 ⟨_, hx,
      rewriteLine_update hkv (keyOf_key (List.mem_of_mem_take (mem_ocKeys hkv)))⟩
  line := by
    intro l' hl'
    -- the pieces of the old lines, with the three keys replaced
    obtain ⟨x, hx, rfl⟩ := List.mem_map.1 hl'
    obtain ⟨l, hl, hxl⟩ := List.mem_flatMap.1 hx
    rcases h.piece hleft hl hxl with hp | ⟨k, hk, hkx⟩ | ⟨hm, hkx⟩
    · rw [rewriteLine_other (keyOf_pin hp)]
      exact Or.inl hp
    · obtain ⟨value, hv⟩ := exists_update hk v w
      exact Or.inr (Or.inl ⟨_, hv, rewriteLine_update hv hkx⟩)
    · rw [rewriteLine_other hkx]
      exact Or.inr (Or.inr ⟨hm, hkx⟩)

/-- No line has a carriage return, which Python would read as a line end. -/
theorem TagForm.not_mem (h : TagForm p left t variant.text ls) (hleft : ∀ l ∈ left, NoBreak l)
    (ht : '\r' ∉ t) : '\r' ∉ unlines ls := by
  have hkeys : ∀ k ∈ keys, '\r' ∉ k := fun k hk => (noBreak_key hk).not_mem rfl
  have hvariant : '\r' ∉ variant.text := variant.noBreak.not_mem rfl
  have hvalue : ∀ kv ∈ updates t variant.text, '\r' ∉ kv.2 := by
    have hrel : '\r' ∉ cacheRel t variant.text := by
      rw [cacheRel, List.mem_append, List.mem_append, List.mem_cons]
      simp [ht, hvariant, txt]
    simp [updates, ht, hvariant, hrel]
  have hline : ∀ l ∈ ls, '\r' ∉ l := by
    intro l hl
    rcases h.line l hl with hp | ⟨kv, hkv, rfl⟩ | ⟨hm, -⟩
    · exact (noBreak_pins l hp).not_mem rfl
    · rw [binding, List.mem_append, List.mem_cons]
      rintro (hm | hm | hm)
      · exact hkeys _ (List.mem_of_mem_take (mem_ocKeys hkv)) hm
      · exact absurd hm (by decide)
      · exact hvalue kv hkv hm
    · exact (hleft l hm).not_mem rfl
  intro hm
  obtain ⟨l', hl', hm⟩ := List.mem_flatten.1 hm
  obtain ⟨l, hl, rfl⟩ := List.mem_map.1 hl'
  rcases List.mem_append.1 hm with hm | hm
  · exact hline l hl hm
  · exact absurd hm (by decide)

/-- What `select_cache` makes of a file of this form. -/
theorem TagForm.selectCache (h : TagForm p left t variant.text ls)
    (hleft : ∀ l ∈ left, NoBreak l) (ht : '\r' ∉ t) (v w : Text) :
    selectCache v w (unlines ls) =
      unlines ((ls.flatMap pieces).map (rewriteLine (updates v w))) := by
  have hsplit : pySplitlines (unlines ls) = ls.flatMap pieces := splitLines_unlines_eq rfl ls
  have hne : (ls.flatMap pieces).map (rewriteLine (updates v w)) ≠ [] := by
    intro hnil
    have := (h.select hleft v w).head
    rw [hnil] at this
    cases this
  rw [Sources.selectCache, readText_eq (h.not_mem hleft ht), hsplit, h.rewrite, joinLines_eq hne]

end TagForm

/-- **The form of the file after every run of downloads and selections.** -/
theorem written_form {storable : Text → Bool} {tags : List (Text × Variant)} {file : Text}
    (h : Written storable tags file) :
    ∃ t variant earlier p ls, tags = (t, variant) :: earlier ∧ gitTag t = true ∧
      file = unlines ls ∧ TagForm p (earlier.flatMap leftovers) t variant.text ls := by
  induction h with
  | @download rel p file hgit hf =>
    unfold Release.runDownload at hf
    split at hf
    · obtain rfl := Option.some.inj hf
      exact ⟨_, _, [], p, _, rfl, hgit, runDownload_eq _ _, tagForm_sourceLines p _ _⟩
    · cases hf
  | @select _ file rel variant file' _ hgit hf ih =>
    obtain ⟨t, v, earlier, p, ls, rfl, ht, rfl, hform⟩ := ih
    have hleft : ∀ l ∈ earlier.flatMap leftovers, NoBreak l := by
      intro l hl
      obtain ⟨x, -, hx⟩ := List.mem_flatMap.1 hl
      exact noBreak_of_mem_leftovers hx
    obtain rfl := eq_of_select hf
    exact ⟨_, _, _, p, _, rfl, hgit, hform.selectCache hleft (not_mem_gitTag ht).2 _ _,
      hform.select hleft _ _⟩

/-! ### What `bash` makes of them -/

theorem ordinary_sha {t : Text} (h : IsSha t) : Ordinary t := by
  have hhex : ∀ c ∈ txt "0123456789abcdef", isSpecial c = false ∧ c ≠ '$' := by
    simp [txt, isSpecial, isSeparator, isOperator]
  exact fun c hc => hhex c (h.2 c hc)

theorem Ordinary.take {t : Text} (h : Ordinary t) (n : ℕ) : Ordinary (t.take n) :=
  fun c hc => h c (List.mem_of_mem_take hc)

/-- Every value is plain when the version and the variant are. -/
theorem plain_values {v w : Text} (hv : plain v = true) (hw : plain w = true) (p : Pins) :
    ∀ x ∈ values v w p, plain x = true := by
  have h₁ := ordinary_sha p.ocbinarySha_ok
  have h₂ := ordinary_sha p.legacySha_ok
  have hlit : Ordinary (txt "opencore/") ∧ Ordinary (txt "OcBinaryData-") ∧
      Ordinary (txt "-HfsPlusLegacy.efi") ∧ Ordinary (txt "-HfsPlus32.efi") ∧
      Ordinary (txt "legacy-kexts/") := by
    simp [Ordinary, txt, isSpecial, isSeparator, isOperator]
  obtain ⟨hopencore, hbinary, hlegacy, h32, hkexts⟩ := hlit
  have hslash : plain ('/' :: w) = true := Ordinary.plain_append (t := ['/']) (by decide) hw
  have hrel : plain (cacheRel v w) = true := by
    rw [cacheRel, List.append_assoc]
    exact hopencore.plain_append (plain_append hv hslash (by rfl))
  have hfile : ∀ {post : Text}, Ordinary post →
      plain (txt "OcBinaryData-" ++ p.ocbinarySha.take 12 ++ post) = true := fun hpost =>
    ((hbinary.append (h₁.take 12)).append hpost).plain
  rw [values]
  refine List.forall_mem_cons.2 ⟨hv, List.forall_mem_cons.2 ⟨hw, List.forall_mem_cons.2 ⟨hrel, ?_⟩⟩⟩
  refine List.forall_mem_cons.2 ⟨h₁.plain, ?_⟩
  refine List.forall_mem_cons.2 ⟨hfile hlegacy, List.forall_mem_cons.2 ⟨hfile h32, ?_⟩⟩
  refine List.forall_mem_cons.2 ⟨h₂.plain, List.forall_mem_singleton.2 ?_⟩
  exact (hkexts.append (h₂.take 12)).plain

theorem isName_key {k : Text} (h : k ∈ keys) : IsName k ∧ Profiles.kindOf k = .ordinary := by
  have hkeys : ∀ k ∈ keys, IsName k := by simp [keys, txt, IsName, isNameStart, isNameChar]
  have hkinds : ∀ k ∈ keys, Profiles.kindOf k = .ordinary := by decide +kernel
  exact ⟨hkeys k h, hkinds k h⟩

/-- The lines of the eight keys are assignments when the version is plain. -/
theorem exists_key_of_mem {v w : Text} {p : Pins} (hv : plain v = true) (hw : plain w = true)
    {l : Text} (hl : l ∈ sourceLines v w p) :
    ∃ k ∈ keys, ∃ x, plain x = true ∧ l = binding k x := by
  rw [sourceLines_eq, ← List.map_uncurry_zip_eq_zipWith] at hl
  obtain ⟨kv, hkv, rfl⟩ := List.mem_map.1 hl
  have hmem := List.of_mem_zip hkv
  exact ⟨kv.1, hmem.1, kv.2, plain_values hv hw p _ hmem.2, rfl⟩

/-- A binding is read as an assignment to its key. -/
theorem keyOf_reads {l : Text} {kv : Text × Text} (h : Reads l (some kv)) :
    keyOf l = some kv.1 := by
  cases h with
  | @assign name word hname _ =>
    obtain ⟨c, name', rfl, -, -, hc⟩ := hname.exists_cons
    refine keyOf_binding (fun hm => ?_) (by simpa using hc) (by simp)
    exact absurd (hname.2 _ hm) (by decide)

/-- What a line that does no harm assigns. -/
theorem Harmless.reads {l : Text} (h : Harmless l) (hl : '\n' ∉ l) :
    ∃ a, Reads l a ∧ ∀ kv ∈ a, Profiles.kindOf kv.1 = .ordinary := by
  rcases h with rfl | h | ⟨name, word, hname, hkind, hplain, rfl⟩
  · exact ⟨none, .blank, fun _ hm => by cases hm⟩
  · obtain ⟨l, rfl⟩ := List.head?_eq_some_iff.1 h
    exact ⟨none, .comment fun hm => hl (List.mem_cons_of_mem _ hm), fun _ hm => by cases hm⟩
  · refine ⟨_, .assign hname hplain, fun kv hkv => ?_⟩
    obtain rfl := Option.some.inj hkv
    exact hkind

/-- A plain version is bound as it is, among lines that do no harm. -/
theorem TagForm.inert {p : Pins} {left : List Text} {v w : Text} {ls : List Text}
    (h : TagForm p left v w ls) (hleft : ∀ l ∈ left, NoBreak l ∧ Harmless l)
    (hv : plain v = true) (hw : plain w = true) : Inert (unlines ls) v w := by
  -- a line of the eight keys is an assignment
  have hbinding : ∀ k ∈ keys, ∀ x, plain x = true → Reads (binding k x) (some (k, x)) := by
    intro k hk x hx
    exact .assign (isName_key hk).1 hx
  have hplain : ∀ kv ∈ updates v w, plain kv.2 = true := by
    have hvalues := plain_values hv hw p
    intro kv hkv
    have := List.mem_map_of_mem (f := Prod.snd) hkv
    exact hvalues _ (List.mem_append_left ((values v w p).drop 3) this)
  have hread : ∀ l ∈ ls, ∃ a, Reads l a ∧ ∀ kv ∈ a, Profiles.kindOf kv.1 = .ordinary := by
    intro l hl
    have hkey : (∃ k ∈ keys, ∃ x, plain x = true ∧ l = binding k x) →
        ∃ a, Reads l a ∧ ∀ kv ∈ a, Profiles.kindOf kv.1 = .ordinary := by
      rintro ⟨k, hk, x, hx, rfl⟩
      refine ⟨_, hbinding k hk x hx, fun kv hkv => ?_⟩
      obtain rfl := Option.some.inj hkv
      exact (isName_key hk).2
    rcases h.line l hl with hp | ⟨kv, hkv, rfl⟩ | ⟨hm, -⟩
    · exact hkey (exists_key_of_mem hv hw (List.mem_append_right _ hp))
    · exact hkey ⟨_, List.mem_of_mem_take (mem_ocKeys hkv), _, hplain kv hkv, rfl⟩
    · exact (hleft l hm).2.reads ((hleft l hm).1.not_mem rfl)
  intro env
  obtain ⟨as, has, hmem⟩ := source_unlines env fun l hl =>
    (hread l hl).imp fun _ ha => ha.1
  refine ⟨as, has, fun a ha => ?_, fun kv hkv => ⟨?_, fun a ha hak => ?_⟩⟩
  · obtain ⟨l, hl, hr⟩ := (hmem a).1 ha
    obtain ⟨b, hb, hord⟩ := hread l hl
    exact hord a (hb.unique hr)
  · exact (hmem kv).2 ⟨_, h.bound kv hkv,
      hbinding _ (List.mem_of_mem_take (mem_ocKeys hkv)) _ (hplain kv hkv)⟩
  · -- a line that assigns to the key is the binding of the key
    obtain ⟨l, hl, hr⟩ := (hmem a).1 ha
    have hkey := keyOf_reads hr
    rw [hak] at hkey
    rcases h.line l hl with hp | ⟨kv', hkv', rfl⟩ | ⟨-, hk⟩
    · exact absurd hkey (keyOf_pin hp _ (mem_ocKeys hkv))
    · have hkey' : kv'.1 ∈ keys := List.mem_of_mem_take (mem_ocKeys hkv')
      have ha' := (hbinding _ hkey' _ (hplain kv' hkv')).unique hr
      obtain rfl : (kv'.1, kv'.2) = a := Option.some.inj ha'
      have hsame := lookup_updates hkv'
      rw [hak, lookup_updates hkv] at hsame
      exact Prod.ext hak (Option.some.inj hsame).symm
    · exact absurd hkey (hk _ (mem_ocKeys hkv))

/-- A version that is bound as it is is plain. -/
theorem TagForm.plain {p : Pins} {left : List Text} {v w : Text} {ls : List Text}
    (hform : TagForm p left v w ls) (hn : '\n' ∉ v) (h : Inert (unlines ls) v w) :
    plain v = true := by
  obtain ⟨rest, rfl⟩ := List.head?_eq_some_iff.1 hform.head
  obtain ⟨as, has, -, hbound⟩ := h bareEnv
  have hname : IsName (txt "OC_VERSION") := (isName_key (by simp [keys])).1
  rw [unlines_cons, binding, source, sourceFuel_assign hname] at has
  split at has
  · rename_i v' rest' hscan
    obtain ⟨as', -, rfl⟩ := Option.map_eq_some_iff.1 has
    have hu : (txt "OC_VERSION", v) ∈ updates v w := List.mem_cons_self
    have hfirst := (hbound _ hu).2 _ List.mem_cons_self rfl
    obtain rfl : v' = v := (Prod.mk.inj hfirst).2
    exact plain_of_scan hn hscan
  · cases has

/-- **Release metadata and `bash`**: in every run of downloads and selections, a file binds the
three keys as they were meant and runs nothing only if the last tag has no quote, no operator and no
`$` that begins an expansion; and then it does, if the lines that earlier tags left behind do no
harm. -/
theorem release_tag_inert_iff (storable : Text → Bool) (t : Text) (variant : Variant)
    (earlier : List (Text × Variant)) (file : Text)
    (h : Written storable ((t, variant) :: earlier) file) :
    (Inert file t variant.text → plain t = true) ∧
      ((∀ x ∈ earlier, ∀ l ∈ leftovers x, Harmless l) →
        (Inert file t variant.text ↔ plain t = true)) := by
  obtain ⟨t', v', earlier', p, ls, heq, hgit, rfl, hform⟩ := written_form h
  obtain ⟨hx, rfl⟩ := List.cons.inj heq
  obtain ⟨rfl, rfl⟩ := Prod.mk.inj hx
  have hvariant : plain variant.text = true := by
    cases variant <;> simp [Variant.text, txt, Sources.plain, isSpecial, isSeparator, isOperator]
  have hplain := hform.plain (not_mem_gitTag hgit).1
  refine ⟨hplain, fun hleft => ⟨hplain, fun ht => hform.inert (fun l hl => ?_) ht hvariant⟩⟩
  obtain ⟨x, hx, hl⟩ := List.mem_flatMap.1 hl
  exact ⟨noBreak_of_mem_leftovers hl, hleft x hx l hl⟩

/-- A directory that holds files and no directories. -/
def flat (name : Text) : Bool := '/' ∉ name

/-- A release with this tag and the asset of the variant. -/
def sampleRelease (tag : String) (variant : Variant) : Release :=
  ⟨txt tag, [⟨archiveOf (txt tag) variant, txt "url"⟩]⟩

/-- The download of the release. -/
theorem written_sample (tag : String) (hg : gitTag (txt tag) = true)
    (h : txt tag ≠ [] ∧ (sampleRelease tag .debug).debugUrl ≠ [] ∧
      flat (archiveOf (txt tag) .debug) = true) :
    Written flat [(txt tag, .debug)] (runDownload (txt tag) samplePins) :=
  @Written.download flat (sampleRelease tag .debug) _ _ hg (if_pos h)

/-- A selection of `1.0.3` after a tag that is two lines to Python. -/
def sampleSelected : Text :=
  selectCache (txt "1.0.3") Variant.release.text (runDownload (txt "1.0.2\u2028#x") samplePins)

/-- The tag `1.0.3` is bound as it is: what the other one leaves behind are comments. -/
theorem release_tag_sample :
    Written flat [(txt "1.0.3", .release), (txt "1.0.2\u2028#x", .debug)] sampleSelected ∧
      Inert sampleSelected (txt "1.0.3") Variant.release.text := by
  have hfirst := written_sample "1.0.2\u2028#x" (by decide +kernel) (by decide +kernel)
  have hselect : (sampleRelease "1.0.3" .release).select flat .release
      (runDownload (txt "1.0.2\u2028#x") samplePins) = some sampleSelected := by
    have hresolve : (sampleRelease "1.0.3" .release).resolve .release =
        some (txt "1.0.3", txt "url") := by decide +kernel
    simp only [Release.select, hresolve]
    exact if_pos (by decide +kernel)
  have h := Written.select hfirst (by decide +kernel) hselect
  refine ⟨h, ((release_tag_inert_iff flat _ _ _ _ h).2 ?_).2 (by decide +kernel)⟩
  intro x hx
  obtain rfl := List.mem_singleton.1 hx
  have hleft : ∀ l ∈ leftovers (txt "1.0.2\u2028#x", .debug), l.head? = some '#' := by
    decide +kernel
  exact fun l hl => Or.inr (Or.inl (hleft l hl))

/-- **A tag that runs a command**: Git accepts `1.0.2;id`, and `bash` does not bind it. -/
theorem release_tag_runs :
    gitTag (txt "1.0.2;id") = true ∧
      Written flat [(txt "1.0.2;id", .debug)] (runDownload (txt "1.0.2;id") samplePins) ∧
      source bareEnv (runDownload (txt "1.0.2;id") samplePins) = none ∧
      ¬ Inert (runDownload (txt "1.0.2;id") samplePins) (txt "1.0.2;id") (txt "DEBUG") := by
  have hnone : source bareEnv (runDownload (txt "1.0.2;id") samplePins) = none := by
    decide +kernel
  refine ⟨by decide +kernel, written_sample _ (by decide +kernel) (by decide +kernel), hnone,
    fun h => ?_⟩
  obtain ⟨as, has, -⟩ := h bareEnv
  rw [hnone] at has
  cases has

end Sources

end InstallKit
