import InstallKit.Sources.Text

/-!
# `cache/current-sources.env`

The file is written by two programs.  The tail of `run_download` regenerates it with a heredoc of
eight bindings; `select_cache` of `select_opencore_release.sh` rewrites it line by line, replacing
the three `OC_*` bindings in place and appending those it does not find, and resolves `latest` by
reading the last binding of `OC_VERSION` back.

* `completed_form` : after any sequence of completed operations the file consists of the eight
  bindings, with the version and the variant of the last operation and the pins of the last
  `run_download`.
* `current_sources_invariant` : **the run invariant**, in terms of the bindings that are read back.
-/

namespace InstallKit

namespace Sources

/-! ### Bindings -/

/-- `KEY=value`. -/
def binding (key value : Text) : Text := key ++ '=' :: value

/-- `sed -n "s/^KEY=//p"`: the values bound to a key, in order. -/
def bindings (key : Text) (file : Text) : List Text :=
  (lines file).filterMap fun l =>
    if key ++ ['='] <+: l then some (l.drop (key.length + 1)) else none

/-- `current_value`: the last of them. -/
def currentValue (key : Text) (file : Text) : Text := ((bindings key file).getLast?).getD []

/-- The release assets that are published. -/
inductive Variant
  | debug | release
  deriving DecidableEq, Repr

/-- The name of the variant. -/
def Variant.text : Variant → Text
  | debug => txt "DEBUG"
  | release => txt "RELEASE"

/-- `opencore/<version>/<variant>`. -/
def cacheRel (version variant : Text) : Text :=
  txt "opencore/" ++ version ++ '/' :: variant

/-! ### `run_download` -/

/-- `^[0-9a-f]{40}$`. -/
def IsSha (t : Text) : Prop := t.length = 40 ∧ ∀ c ∈ t, c ∈ txt "0123456789abcdef"

instance (t : Text) : Decidable (IsSha t) := inferInstanceAs (Decidable (_ ∧ _))

/-- The commits that `run_download` pins. -/
structure Pins where
  /-- `ocbinary_sha`. -/
  ocbinarySha : Text
  /-- `legacy_sha`. -/
  legacySha : Text
  /-- `[[ "$ocbinary_sha" =~ ^[0-9a-f]{40}$ ]]`. -/
  ocbinarySha_ok : IsSha ocbinarySha
  /-- `[[ "$legacy_sha" =~ ^[0-9a-f]{40}$ ]]`. -/
  legacySha_ok : IsSha legacySha

/-- The five bindings that have nothing to do with OpenCore. -/
def Pins.lines (p : Pins) : List Text :=
  [binding (txt "OCBINARYDATA_SHA") p.ocbinarySha,
    binding (txt "HFS_LEGACY_FILE")
      (txt "OcBinaryData-" ++ p.ocbinarySha.take 12 ++ txt "-HfsPlusLegacy.efi"),
    binding (txt "HFS_32_FILE")
      (txt "OcBinaryData-" ++ p.ocbinarySha.take 12 ++ txt "-HfsPlus32.efi"),
    binding (txt "LEGACY_KEXTS_SHA") p.legacySha,
    binding (txt "LEGACY_KEXTS_CACHE_REL") (txt "legacy-kexts/" ++ p.legacySha.take 12)]

/-- The heredoc of `run_download`. -/
def runDownload (version : Text) (p : Pins) : Text :=
  unlines ([binding (txt "OC_VERSION") version,
    binding (txt "OC_VARIANT") (txt "DEBUG"),
    binding (txt "OC_CACHE_REL") (txt "opencore/" ++ version ++ txt "/DEBUG")] ++ p.lines)

/-! ### `select_cache` -/

/-- `read_text` translates the line ends of other systems. -/
def readText : Text → Text
  | '\r' :: '\n' :: cs => '\n' :: readText cs
  | '\r' :: cs => '\n' :: readText cs
  | c :: cs => c :: readText cs
  | [] => []

/-- The key of a line that is not a comment: what stands before the first `=`. -/
def keyOf (line : Text) : Option Text :=
  if '=' ∈ line ∧ line.head? ≠ some '#' then some (line.takeWhile (· ≠ '=')) else none

/-- `updates`. -/
def updates (version variant : Text) : List (Text × Text) :=
  [(txt "OC_VERSION", version), (txt "OC_VARIANT", variant),
    (txt "OC_CACHE_REL", cacheRel version variant)]

/-- One pass of the loop over the lines. -/
def rewriteLine (u : List (Text × Text)) (line : Text) : Text :=
  match (keyOf line).bind fun key => (u.lookup key).map (binding key) with
  | some line' => line'
  | none => line

/-- The lines that are written: the old ones with their updates, then the keys not seen. -/
def rewrite (u : List (Text × Text)) (ls : List Text) : List Text :=
  ls.map (rewriteLine u) ++
    (u.filter fun kv => kv.1 ∉ ls.filterMap keyOf).map fun kv => binding kv.1 kv.2

/-- What `select_cache` makes of the file. -/
def selectCache (version variant : Text) (file : Text) : Text :=
  joinLines (rewrite (updates version variant) (pySplitlines (readText file)))

/-! ### Operations -/

/-- `[0-9A-Za-z._-]`. -/
def isVersionChar (c : Char) : Bool :=
  c.isAlphanum || c = '.' || c = '_' || c = '-'

/-- A version over `[0-9A-Za-z._-]+`. -/
structure Version where
  /-- The version. -/
  text : Text
  /-- It is not empty. -/
  ne_nil : text ≠ []
  /-- Its characters. -/
  ok : ∀ c ∈ text, isVersionChar c = true

/-- The operations on the file. -/
inductive Op
  /-- A `run_download` that resolved this version and these commits. -/
  | runDownload (version : Version) (pins : Pins)
  /-- `select_opencore_release.sh`, by `--download` or `--select-only`, with this version. -/
  | select (version : Version) (variant : Variant)
  /-- `select_opencore_release.sh --select-only --version latest`. -/
  | selectLatest (variant : Variant)

/-- The operation is a selection. -/
def Op.IsSelection : Op → Prop
  | runDownload .. => False
  | select .. => True
  | selectLatest .. => True

/-- The file after the operation, if it completes. -/
def Op.complete : Op → Option Text → Option Text
  | runDownload version pins, _ => some (Sources.runDownload version.text pins)
  | select version variant, file => file.map (selectCache version.text variant.text)
  | selectLatest variant, file => file.bind fun file =>
    let version := currentValue (txt "OC_VERSION") file
    if version = [] then none else some (selectCache version variant.text file)

/-- The file after a sequence of completed operations, newest first. -/
inductive Completed : List Op → Option Text → Prop
  | nil : Completed [] none
  | cons {ops : List Op} {file : Option Text} {op : Op} {file' : Text} :
    Completed ops file → op.complete file = some file' → Completed (op :: ops) (some file')

/-- The version of the last operation; `latest` is the one that was current. -/
def lastVersion : List Op → Option Text
  | [] => none
  | .runDownload version _ :: _ => some version.text
  | .select version _ :: _ => some version.text
  | .selectLatest _ :: ops => lastVersion ops

/-- The variant of the last operation. -/
def lastVariant : List Op → Option Variant
  | [] => none
  | .runDownload _ _ :: _ => some .debug
  | .select _ variant :: _ => some variant
  | .selectLatest variant :: _ => some variant

/-- What the last `run_download` wrote. -/
def lastDownload : List Op → Option (Version × Pins)
  | [] => none
  | .runDownload version pins :: _ => some (version, pins)
  | .select .. :: ops => lastDownload ops
  | .selectLatest _ :: ops => lastDownload ops

/-! ### Texts without a line break -/

/-- No character of the text is a line break. -/
def NoBreak (t : Text) : Prop := ∀ c ∈ t, isLineBreak c = false

instance (t : Text) : Decidable (NoBreak t) := inferInstanceAs (Decidable (∀ c ∈ t, _))

@[simp] theorem noBreak_nil : NoBreak [] := fun _ hc => by cases hc

@[simp] theorem noBreak_append {t u : Text} : NoBreak (t ++ u) ↔ NoBreak t ∧ NoBreak u := by
  simp only [NoBreak, List.mem_append, or_imp, forall_and]

@[simp] theorem noBreak_cons {c : Char} {t : Text} :
    NoBreak (c :: t) ↔ isLineBreak c = false ∧ NoBreak t := by
  simp [NoBreak]

theorem NoBreak.take {t : Text} (h : NoBreak t) (n : ℕ) : NoBreak (t.take n) :=
  fun c hc => h c (List.mem_of_mem_take hc)

theorem NoBreak.not_mem {t : Text} (h : NoBreak t) {c : Char} (hc : isLineBreak c = true) :
    c ∉ t := by
  intro hm
  simp [h c hm] at hc

theorem IsSha.noBreak {t : Text} (h : IsSha t) : NoBreak t := by
  have hhex : ∀ c ∈ txt "0123456789abcdef", isLineBreak c = false := by simp [txt, isLineBreak]
  exact fun c hc => hhex c (h.2 c hc)

theorem Version.noBreak (v : Version) : NoBreak v.text := by
  have hbreaks : ∀ c ∈ ['\n', '\x0b', '\x0c', '\r', '\x1c', '\x1d', '\x1e', '\u0085', '\u2028',
      '\u2029'], isVersionChar c = false := by decide
  intro c hc
  cases hb : isLineBreak c with
  | false => rfl
  | true =>
    have := hbreaks c (by simpa [isLineBreak] using hb)
    simp [v.ok c hc] at this

theorem Variant.noBreak (v : Variant) : NoBreak v.text := by
  cases v <;> simp [Variant.text, txt, isLineBreak]

theorem noBreak_pins {p : Pins} : ∀ l ∈ p.lines, NoBreak l := by
  have h₁ := p.ocbinarySha_ok.noBreak
  have h₂ := p.legacySha_ok.noBreak
  simp [Pins.lines, binding, txt, isLineBreak, h₁, h₂, h₁.take, h₂.take]

/-! ### The form of the file -/

/-- The eight bindings. -/
def sourceLines (version variant : Text) (p : Pins) : List Text :=
  [binding (txt "OC_VERSION") version, binding (txt "OC_VARIANT") variant,
    binding (txt "OC_CACHE_REL") (cacheRel version variant)] ++ p.lines

theorem noBreak_sourceLines {version variant : Text} {p : Pins} (hv : NoBreak version)
    (hw : NoBreak variant) : ∀ l ∈ sourceLines version variant p, NoBreak l := by
  rw [sourceLines]
  refine List.forall_mem_append.2 ⟨?_, noBreak_pins⟩
  simp [binding, cacheRel, txt, isLineBreak, hv, hw]

/-- `run_download` writes the eight bindings. -/
theorem runDownload_eq (version : Text) (p : Pins) :
    runDownload version p = unlines (sourceLines version (txt "DEBUG") p) := by
  have hslash : txt "/DEBUG" = '/' :: txt "DEBUG" := by simp [txt]
  rw [runDownload, hslash]
  rfl

/-- The key of a binding. -/
theorem keyOf_binding {key value : Text} (h : '=' ∉ key) (hc : key.head? ≠ some '#')
    (hne : key ≠ []) : keyOf (binding key value) = some key := by
  have hhead : (key ++ '=' :: value).head? = key.head? := by
    cases key with
    | nil => exact absurd rfl hne
    | cons c cs => rfl
  have htake : (key ++ '=' :: value).takeWhile (· ≠ '=') = key := by
    have hpos : ∀ c ∈ key, decide (c ≠ '=') = true := by
      intro c hm
      simp only [ne_eq, decide_eq_true_eq]
      rintro rfl
      exact h hm
    rw [List.takeWhile_append_of_pos hpos]
    simp
  rw [keyOf, if_pos ⟨by simp [binding], by rw [binding, hhead]; exact hc⟩, binding, htake]

theorem readText_eq {t : Text} (h : '\r' ∉ t) : readText t = t := by
  fun_induction readText t with
  | case1 cs ih => exact absurd List.mem_cons_self h
  | case2 cs hcs ih => exact absurd List.mem_cons_self h
  | case3 c cs h₁ h₂ ih => rw [ih fun hm => h (List.mem_cons_of_mem _ hm)]
  | case4 => rfl

theorem not_mem_unlines {c : Char} (hc : isLineBreak c = true) (hn : c ≠ '\n') {ls : List Text}
    (h : ∀ l ∈ ls, NoBreak l) : c ∉ unlines ls := by
  induction ls with
  | nil => simp
  | cons l ls ih =>
    rw [unlines_cons, List.mem_append, List.mem_cons]
    rintro (hm | rfl | hm)
    · exact (h l List.mem_cons_self).not_mem hc hm
    · exact hn rfl
    · exact ih (fun l' hl' => h l' (List.mem_cons_of_mem _ hl')) hm

/-- The keys of the file, in their order. -/
def keys : List Text :=
  [txt "OC_VERSION", txt "OC_VARIANT", txt "OC_CACHE_REL", txt "OCBINARYDATA_SHA",
    txt "HFS_LEGACY_FILE", txt "HFS_32_FILE", txt "LEGACY_KEXTS_SHA",
    txt "LEGACY_KEXTS_CACHE_REL"]

theorem keyOf_key {key value : Text} (h : key ∈ keys) : keyOf (binding key value) = some key := by
  have hkeys : ∀ k ∈ keys, '=' ∉ k ∧ k.head? ≠ some '#' ∧ k ≠ [] := by simp [keys, txt]
  obtain ⟨h₁, h₂, h₃⟩ := hkeys key h
  exact keyOf_binding h₁ h₂ h₃

/-- One line of the loop. -/
theorem rewriteLine_key {u : List (Text × Text)} {key value : Text} (h : key ∈ keys) :
    rewriteLine u (binding key value) =
      binding key ((u.lookup key).getD value) := by
  rw [rewriteLine, keyOf_key h, Option.bind_some]
  cases u.lookup key <;> rfl

/-- The values of the eight bindings. -/
def values (version variant : Text) (p : Pins) : List Text :=
  [version, variant, cacheRel version variant, p.ocbinarySha,
    txt "OcBinaryData-" ++ p.ocbinarySha.take 12 ++ txt "-HfsPlusLegacy.efi",
    txt "OcBinaryData-" ++ p.ocbinarySha.take 12 ++ txt "-HfsPlus32.efi",
    p.legacySha, txt "legacy-kexts/" ++ p.legacySha.take 12]

theorem sourceLines_eq (version variant : Text) (p : Pins) :
    sourceLines version variant p = keys.zipWith binding (values version variant p) := rfl

theorem map_keyOf_zipWith {ks vs : List Text} (hk : ∀ k ∈ ks, k ∈ keys)
    (hlen : ks.length = vs.length) : (ks.zipWith binding vs).map keyOf = ks.map some := by
  induction ks generalizing vs with
  | nil => simp
  | cons k ks ih =>
    cases vs with
    | nil => cases hlen
    | cons v vs =>
      rw [List.zipWith_cons_cons, List.map_cons, List.map_cons, keyOf_key (hk k List.mem_cons_self),
        ih (fun k' h => hk k' (List.mem_cons_of_mem _ h)) (Nat.succ.inj hlen)]

/-- The lines of the file are the bindings of the eight keys, in order. -/
theorem map_keyOf_sourceLines (version variant : Text) (p : Pins) :
    (sourceLines version variant p).map keyOf = keys.map some := by
  rw [sourceLines_eq]
  exact map_keyOf_zipWith (fun _ h => h) rfl

theorem variant_ne_version : (txt "OC_VARIANT" == txt "OC_VERSION") = false := by simp [txt]

theorem cacheRel_ne_version : (txt "OC_CACHE_REL" == txt "OC_VERSION") = false := by
  simp [txt]

theorem cacheRel_ne_variant : (txt "OC_CACHE_REL" == txt "OC_VARIANT") = false := by
  simp [txt]

/-- The rewriting of the lines: nothing is appended. -/
theorem rewrite_sourceLines (version variant version' variant' : Text) (p : Pins) :
    rewrite (updates version' variant') (sourceLines version variant p) =
      sourceLines version' variant' p := by
  -- all eight keys are there, so nothing is appended
  have hkeys : (sourceLines version variant p).filterMap keyOf = keys := by
    have h := congrArg (List.filterMap id) (map_keyOf_sourceLines version variant p)
    rwa [List.filterMap_map, List.filterMap_map, Function.id_comp, Function.id_comp,
      List.filterMap_some] at h
  have happend : ((updates version' variant').filter fun kv => kv.1 ∉ keys) = [] := by
    have hsub : ∀ k ∈ (updates version' variant').map Prod.fst, k ∈ keys := by
      change ∀ k ∈ [txt "OC_VERSION", txt "OC_VARIANT", txt "OC_CACHE_REL"], k ∈ keys
      simp [keys]
    rw [List.filter_eq_nil_iff]
    intro kv hkv
    simpa using hsub kv.1 (List.mem_map_of_mem hkv)
  have hmap : (sourceLines version variant p).map (rewriteLine (updates version' variant')) =
      sourceLines version' variant' p := by
    -- the pinned commits are none of the three updates
    have hpins : p.lines.map (rewriteLine (updates version' variant')) = p.lines := by
      have hne : ∀ k ∈ keys.drop 3, ∀ k' ∈ keys.take 3, (k == k') = false := by simp [keys, txt]
      have hsame : ∀ k ∈ keys.drop 3, ∀ v, rewriteLine (updates version' variant') (binding k v) =
          binding k v := by
        intro k hk v
        have hnone : (updates version' variant').lookup k = none := by
          simp only [updates, List.lookup_cons, hne k hk _ List.mem_cons_self,
            hne k hk (txt "OC_VARIANT") (by simp [keys]),
            hne k hk (txt "OC_CACHE_REL") (by simp [keys]),
            List.lookup_nil]
        rw [rewriteLine_key (List.mem_of_mem_drop hk), hnone, Option.getD_none]
      rw [Pins.lines, List.map_cons, List.map_cons, List.map_cons, List.map_cons, List.map_cons,
        hsame _ (by simp [keys]), hsame _ (by simp [keys]), hsame _ (by simp [keys]),
        hsame _ (by simp [keys]),
        hsame _ (by simp [keys]), List.map_nil]
    rw [sourceLines, sourceLines, List.map_append, hpins, List.map_cons, List.map_cons,
      List.map_cons, rewriteLine_key (by simp [keys]), rewriteLine_key (by simp [keys]),
      rewriteLine_key (by simp [keys])]
    simp only [updates, List.lookup_cons, beq_self_eq_true, variant_ne_version,
      cacheRel_ne_version, cacheRel_ne_variant, Option.getD_some, List.map_nil]
  rw [rewrite, hkeys, happend, hmap, List.map_nil, List.append_nil]

/-- `sed` finds a key only on the line that binds it. -/
theorem prefix_binding_iff {key key' value : Text} (h : '=' ∉ key) (h' : '=' ∉ key') :
    key ++ ['='] <+: binding key' value ↔ key = key' := by
  rw [binding]
  induction key generalizing key' with
  | nil =>
    cases key' with
    | nil => simp
    | cons c cs =>
      simp only [List.nil_append, List.cons_append, List.cons_prefix_cons]
      exact ⟨fun hc => absurd (hc.1 ▸ List.mem_cons_self) h', fun hc => by cases hc⟩
  | cons c cs ih =>
    cases key' with
    | nil =>
      simp only [List.nil_append, List.cons_append, List.cons_prefix_cons]
      exact ⟨fun hc => absurd (hc.1 ▸ List.mem_cons_self) h, fun hc => by cases hc⟩
    | cons c' cs' =>
      simp only [List.cons_append, List.cons_prefix_cons, List.cons.injEq]
      rw [ih (fun hm => h (List.mem_cons_of_mem _ hm)) fun hm => h' (List.mem_cons_of_mem _ hm)]

/-- The values that `sed` reads from the bindings of distinct keys. -/
theorem filterMap_zipWith_binding {key : Text} (hkey : '=' ∉ key) {ks vs : List Text}
    (hks : ∀ k ∈ ks, '=' ∉ k) (hnd : ks.Nodup) (hlen : ks.length = vs.length) :
    ((ks.zipWith binding vs).filterMap fun l =>
      if key ++ ['='] <+: l then some (l.drop (key.length + 1)) else none) =
      ((ks.zip vs).lookup key).toList := by
  induction ks generalizing vs with
  | nil => simp
  | cons k ks ih =>
    cases vs with
    | nil => cases hlen
    | cons v vs =>
      have hrest := ih (fun k' h => hks k' (List.mem_cons_of_mem _ h)) hnd.of_cons
        (Nat.succ.inj hlen)
      rw [List.zipWith_cons_cons, List.zip_cons_cons, List.filterMap_cons, List.lookup_cons]
      by_cases hk : key = k
      · subst hk
        have hnone : (ks.zip vs).lookup key = none := by
          rw [List.lookup_eq_none_iff]
          rintro ⟨k, v⟩ hm
          have hmem : k ∈ ks := (List.of_mem_zip hm).1
          rw [bne_iff_ne]
          rintro rfl
          exact (List.nodup_cons.1 hnd).1 hmem
        have hdrop : (binding key v).drop (key.length + 1) = v := by
          simp [binding, List.drop_append]
        rw [if_pos ((prefix_binding_iff hkey hkey).2 rfl), hrest, hnone, hdrop]
        simp
      · have hp : ¬ key ++ ['='] <+: binding k v := fun hp =>
          hk ((prefix_binding_iff hkey (hks k List.mem_cons_self)).1 hp)
        have hbeq : (key == k) = false := by simpa using hk
        rw [if_neg hp, hbeq]
        exact hrest

/-- **One selection**: the three bindings are replaced in place, nothing is appended, the others
stay as they are. -/
theorem selectCache_unlines {version variant version' variant' : Text} {p : Pins}
    (hv : NoBreak version) (hw : NoBreak variant) :
    selectCache version' variant' (unlines (sourceLines version variant p)) =
      unlines (sourceLines version' variant' p) := by
  have hno := noBreak_sourceLines (p := p) hv hw
  have hcr : '\r' ∉ unlines (sourceLines version variant p) :=
    not_mem_unlines rfl (by decide) hno
  have hsplit : pySplitlines (unlines (sourceLines version variant p)) =
      sourceLines version variant p := splitLines_unlines rfl hno
  rw [selectCache, readText_eq hcr, hsplit, rewrite_sourceLines,
    joinLines_eq (by simp [sourceLines])]

theorem exists_lookup_zip {key : Text} {ks vs : List Text} (hlen : ks.length = vs.length)
    (hk : key ∈ ks) : ∃ v, (ks.zip vs).lookup key = some v := by
  induction ks generalizing vs with
  | nil => cases hk
  | cons k ks ih =>
    cases vs with
    | nil => cases hlen
    | cons v vs =>
      rw [List.zip_cons_cons, List.lookup_cons]
      by_cases hkk : key = k
      · exact ⟨v, by simp [hkk]⟩
      · obtain ⟨v', hv'⟩ := ih (Nat.succ.inj hlen) ((List.mem_cons.1 hk).resolve_left hkk)
        have hbeq : (key == k) = false := by simpa using hkk
        exact ⟨v', by rw [hbeq, hv']⟩

/-- The value that the eight bindings give to a key. -/
def valueOf (version variant : Text) (p : Pins) (key : Text) : Text :=
  ((keys.zip (values version variant p)).lookup key).getD []

@[simp] theorem valueOf_version (v w : Text) (p : Pins) : valueOf v w p (txt "OC_VERSION") = v := by
  simp only [valueOf, keys, values, List.zip_cons_cons, List.lookup_cons, beq_self_eq_true,
    Option.getD_some]

@[simp] theorem valueOf_variant (v w : Text) (p : Pins) : valueOf v w p (txt "OC_VARIANT") = w := by
  simp only [valueOf, keys, values, List.zip_cons_cons, List.lookup_cons, beq_self_eq_true,
    variant_ne_version, Option.getD_some]

@[simp] theorem valueOf_cacheRel (v w : Text) (p : Pins) :
    valueOf v w p (txt "OC_CACHE_REL") = cacheRel v w := by
  simp only [valueOf, keys, values, List.zip_cons_cons, List.lookup_cons, beq_self_eq_true,
    cacheRel_ne_version, cacheRel_ne_variant, Option.getD_some]

/-- The values of the five other keys come from the pins alone. -/
theorem valueOf_pins {v w v' w' key : Text} {p : Pins} (hk : key ∈ keys.drop 3) :
    valueOf v w p key = valueOf v' w' p key := by
  have hne : ∀ k ∈ keys.drop 3, ∀ k' ∈ keys.take 3, (k == k') = false := by simp [keys, txt]
  simp only [valueOf, keys, values, List.zip_cons_cons, List.lookup_cons,
    hne key hk _ List.mem_cons_self, hne key hk (txt "OC_VARIANT") (by simp [keys]),
    hne key hk (txt "OC_CACHE_REL") (by simp [keys])]

theorem newline_free {v w : Text} {p : Pins} (hv : NoBreak v) (hw : NoBreak w) :
    ∀ l ∈ sourceLines v w p, ∀ c ∈ l, decide (c = '\n') = false := by
  intro l hl c hc
  simp only [decide_eq_false_iff_not]
  rintro rfl
  exact (noBreak_sourceLines hv hw l hl).not_mem rfl hc

/-- Every key is bound exactly once. -/
theorem bindings_sourceLines {version variant key : Text} {p : Pins} (hv : NoBreak version)
    (hw : NoBreak variant) (hk : key ∈ keys) :
    bindings key (unlines (sourceLines version variant p)) = [valueOf version variant p key] := by
  have heq : ∀ k ∈ keys, '=' ∉ k := by simp [keys, txt]
  obtain ⟨v, hlookup⟩ : ∃ v, (keys.zip (values version variant p)).lookup key = some v :=
    exists_lookup_zip rfl hk
  have hlen : keys.length = (values version variant p).length := rfl
  rw [bindings, lines, splitLines_unlines rfl (newline_free hv hw), sourceLines_eq,
    filterMap_zipWith_binding (heq key hk) heq (by simp [keys, txt]) hlen, valueOf, hlookup]
  rfl

theorem currentValue_sourceLines {version variant key : Text} {p : Pins} (hv : NoBreak version)
    (hw : NoBreak variant) (hk : key ∈ keys) :
    currentValue key (unlines (sourceLines version variant p)) = valueOf version variant p key := by
  rw [currentValue, bindings_sourceLines hv hw hk]
  rfl

/-! ### Runs -/

/-- What the operations so far have left behind. -/
structure Form (ops : List Op) (file : Text) (v : Text) (w : Variant) (d : Version × Pins) :
    Prop where
  /-- The version of the last operation. -/
  version : lastVersion ops = some v
  /-- The variant of the last operation. -/
  variant : lastVariant ops = some w
  /-- The last `run_download`. -/
  download : lastDownload ops = some d
  /-- The version is a single line. -/
  noBreak : NoBreak v
  /-- The version is not empty. -/
  ne_nil : v ≠ []
  /-- The file. -/
  file : file = unlines (sourceLines v w.text d.2)

section Form

variable {ops : List Op} {file : Text} {v : Text} {w : Variant} {d : Version × Pins}

/-- A selection of any version keeps the form of the file. -/
theorem Form.select (h : Form ops file v w d) (v' w' : Text) :
    selectCache v' w' file = unlines (sourceLines v' w' d.2) := by
  rw [h.file, selectCache_unlines h.noBreak w.noBreak]

theorem Form.currentValue (h : Form ops file v w d) {key : Text} (hk : key ∈ keys) :
    currentValue key file = valueOf v w.text d.2 key := by
  rw [h.file, currentValue_sourceLines h.noBreak w.noBreak hk]

/-- `latest` is read back. -/
theorem Form.latest (h : Form ops file v w d) : Sources.currentValue (txt "OC_VERSION") file = v := by
  rw [h.currentValue (by simp [keys]), valueOf_version]

/-- **A selection**: the file has its form again, and repeating the selection changes nothing. -/
theorem Form.step (h : Form ops file v w d) (op : Op) (hop : op.IsSelection) {file' : Text}
    (h' : op.complete (some file) = some file') :
    (∃ v' w', Form (op :: ops) file' v' w' d) ∧ op.complete (some file') = some file' := by
  cases op with
  | runDownload v' p => exact hop.elim
  | select v' w' =>
    obtain rfl := Option.some.inj h'
    have hform : Form (.select v' w' :: ops) (selectCache v'.text w'.text file) v'.text w' d :=
      ⟨rfl, rfl, h.download, v'.noBreak, v'.ne_nil, h.select _ _⟩
    refine ⟨⟨_, _, hform⟩, ?_⟩
    rw [Op.complete, Option.map_some, hform.select, ← hform.file]
  | selectLatest w' =>
    have hf : (if v = [] then none else some (selectCache v w'.text file)) = some file' := by
      rw [← h']
      simp only [Op.complete, Option.bind_some, h.latest]
    rw [if_neg h.ne_nil] at hf
    obtain rfl := Option.some.inj hf
    have hform : Form (.selectLatest w' :: ops) (selectCache v w'.text file) v w' d :=
      ⟨h.version, rfl, h.download, h.noBreak, h.ne_nil, h.select _ _⟩
    refine ⟨⟨_, _, hform⟩, ?_⟩
    simp only [Op.complete, Option.bind_some, hform.latest]
    rw [if_neg h.ne_nil, hform.select, ← hform.file]

end Form

/-- **The form of the file after any sequence of completed operations.** -/
theorem completed_form {ops : List Op} {file : Option Text} (h : Completed ops file) :
    ∀ f, file = some f → ∃ v w d, Form ops f v w d := by
  induction h with
  | nil => intro f hf; cases hf
  | @cons ops file op file' _ hop ih =>
    rintro f ⟨⟩
    cases op with
    | runDownload v p =>
      obtain rfl : runDownload v.text p = file' := Option.some.inj hop
      exact ⟨v.text, .debug, (v, p), rfl, rfl, rfl, v.noBreak, v.ne_nil, runDownload_eq _ _⟩
    | select v' w' =>
      obtain ⟨f, rfl, -⟩ := Option.map_eq_some_iff.1 hop
      obtain ⟨v, w, d, hf⟩ := ih f rfl
      obtain ⟨⟨v'', w'', hform⟩, -⟩ := hf.step (.select v' w') trivial hop
      exact ⟨v'', w'', d, hform⟩
    | selectLatest w' =>
      obtain ⟨f, rfl, -⟩ := Option.bind_eq_some_iff.1 hop
      obtain ⟨v, w, d, hf⟩ := ih f rfl
      obtain ⟨⟨v'', w'', hform⟩, -⟩ := hf.step (.selectLatest w') trivial hop
      exact ⟨v'', w'', d, hform⟩

/-- **The run invariant of `current-sources.env`**: after every sequence of completed operations
the file binds each of its eight keys exactly once, `OC_CACHE_REL` goes with `OC_VERSION` and
`OC_VARIANT`, these are those of the last operation, the five other keys are bound as the last
`run_download` bound them, and a selection that is repeated changes nothing. -/
theorem current_sources_invariant (ops : List Op) (file : Text) (h : Completed ops (some file)) :
    ((lines file).map keyOf = keys.map some ∧ ∀ k ∈ keys, ∃ v, bindings k file = [v]) ∧
    currentValue (txt "OC_CACHE_REL") file = txt "opencore/" ++
      currentValue (txt "OC_VERSION") file ++ '/' :: currentValue (txt "OC_VARIANT") file ∧
    lastVersion ops = some (currentValue (txt "OC_VERSION") file) ∧
    (lastVariant ops).map Variant.text = some (currentValue (txt "OC_VARIANT") file) ∧
    (∃ d, lastDownload ops = some d ∧
      ∀ k ∈ keys.drop 3, bindings k file = bindings k (runDownload d.1.text d.2)) ∧
    ∀ (op : Op) (file' : Text), op.IsSelection → op.complete (some file) = some file' →
      op.complete (some file') = some file' := by
  obtain ⟨v, w, d, hf⟩ := completed_form h file rfl
  have hlines : lines file = sourceLines v w.text d.2 := by
    rw [hf.file, lines, splitLines_unlines rfl (newline_free hf.noBreak w.noBreak)]
  refine ⟨⟨?_, fun k hk => ?_⟩, ?_, ?_, ?_, ⟨d, hf.download, fun k hk => ?_⟩, ?_⟩
  · rw [hlines, map_keyOf_sourceLines]
  · exact ⟨_, by rw [hf.file, bindings_sourceLines hf.noBreak w.noBreak hk]⟩
  · rw [hf.currentValue (by simp [keys]), hf.latest, hf.currentValue (by simp [keys]),
      valueOf_cacheRel, valueOf_variant, cacheRel]
  · rw [hf.latest, hf.version]
  · rw [hf.currentValue (by simp [keys]), hf.variant, valueOf_variant, Option.map_some]
  · -- the five values do not depend on the version and the variant
    have hk' := List.mem_of_mem_drop hk
    rw [hf.file, runDownload_eq, bindings_sourceLines hf.noBreak w.noBreak hk',
      bindings_sourceLines d.1.noBreak (by simp [txt, isLineBreak]) hk', valueOf_pins hk]
  · exact fun op file' hop h' => (hf.step op hop h').2

/-- Two commits. -/
def samplePins : Pins where
  ocbinarySha := List.replicate 40 'a'
  legacySha := List.replicate 40 'b'
  ocbinarySha_ok := by simp [IsSha, txt]
  legacySha_ok := by simp [IsSha, txt]

/-- The version `1.0.2`. -/
def sampleVersion : Version := ⟨txt "1.0.2", by simp [txt], by simp [txt, isVersionChar]⟩

/-- After `--download` and `--select-only --version latest --variant RELEASE`. -/
theorem current_sources_sample :
    ∃ file, Completed [.selectLatest .release, .runDownload sampleVersion samplePins] (some file) ∧
      lastVersion [.selectLatest .release, .runDownload sampleVersion samplePins] =
        some (currentValue (txt "OC_VERSION") file) := by
  have hfirst : Completed [.runDownload sampleVersion samplePins]
      (some (runDownload sampleVersion.text samplePins)) := .cons .nil rfl
  have hlatest : currentValue (txt "OC_VERSION") (runDownload sampleVersion.text samplePins) =
      sampleVersion.text := by
    rw [runDownload_eq, currentValue_sourceLines sampleVersion.noBreak (by simp [txt, isLineBreak])
      (by simp [keys]), valueOf_version]
  have hsecond : Completed [.selectLatest .release, .runDownload sampleVersion samplePins] (some
      (selectCache sampleVersion.text (txt "RELEASE")
        (runDownload sampleVersion.text samplePins))) := by
    refine .cons hfirst ?_
    simp only [Op.complete, Option.bind_some, hlatest, Variant.text]
    exact if_neg (by simp [sampleVersion, txt])
  exact ⟨_, hsecond, (current_sources_invariant _ _ hsecond).2.2.1⟩

end Sources

end InstallKit
