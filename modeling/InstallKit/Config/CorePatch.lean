import InstallKit.Config.GenerateTarget
import InstallKit.Sources.PyStrings
import Mathlib.Algebra.Group.Nat.Defs

/-!
# The number of cores in a kernel patch

`load_kernel_patches` of `generate_target_oc_config.py` looks for the one patch whose comment
mentions `cpuid_cores_per_package` and writes the number of cores into its replacement.
`loadPatches` is the function with the exceptions that it raises; `generate` asks only whether it
raises one (`toOption_loadPatches`).  The result differs from the list in one byte of one patch
(`specializes_one_byte`).  Each comment goes through `str` first, which ends the program where an
integer has too many digits, also when there is nothing to adapt (`long_comment_raises`).
-/

namespace InstallKit

namespace Config

namespace Target

open Sources

/-! ### The function -/

/-- The exceptions. -/
inductive PatchError
  /-- The file does not contain a non-empty `Kernel/Patch` array. -/
  | noPatches
  /-- `Kernel/Patch[index]` is not a dictionary. -/
  | notDictionary (index : ℕ)
  /-- What `str` of the comment of `Kernel/Patch[index]` raises. -/
  | comment (index : ℕ)
  /-- `--amd-core-count must be in range 1..255`. -/
  | coreCount
  /-- Expected exactly one `cpuid_cores_per_package` patch. -/
  | notUnique (found : ℕ)
  /-- Unexpected `Replace` value. -/
  | template (current : Option Plist)
  /-- What `repr` of the replacement raises, while that message is put together. -/
  | current

/-- The exception is a `ValueError` of `load_kernel_patches` itself. -/
def PatchError.IsValueError : PatchError → Prop
  | .comment _ => False
  | .current => False
  | _ => True

/-- `release_template` -/
def releaseTemplate : Bytes := [0xBA, 0, 0, 0, 0]

/-- `debug_template` -/
def debugTemplate : Bytes := [0xB8, 0, 0, 0, 0, 0x0F, 0x1F, 0]

/-- `normalized`: the dictionaries from an index on. -/
def normalizeAll (pyStr : Plist → Option Text) (index : ℕ) :
    List Plist → Except PatchError (List (List (Key × Plist)))
  | [] => .ok []
  | .dict kvs :: items =>
    if (commentText pyStr kvs).isSome then
      (normalizeAll pyStr (index + 1) items).map (kvs :: ·)
    else .error (.comment index)
  | _ :: _ => .error (.notDictionary index)

/-- `current!r`, of a replacement that may be missing. -/
def currentRepr (pyRepr : Plist → Option Text) : Option Plist → Option Text
  | none => some (txt "None")
  | some v => pyRepr v

/-- Write the number of cores into the patch at an index, `core_patch_indexes[0]`. -/
def specializeAt (pyRepr : Plist → Option Text) (cores : UInt8)
    (patches : List (List (Key × Plist))) (index : ℕ) :
    Except PatchError (List (List (Key × Plist))) :=
  let patch := patches.getD index []
  match specialize cores patch with
  | some patch => .ok (patches.set index patch)
  | none =>
    if (currentRepr pyRepr (patch.lookup (.str "Replace"))).isSome then
      .error (.template (patch.lookup (.str "Replace")))
    else .error .current

/-- The patches for a number of cores. -/
def withCores (pyStr pyRepr : Plist → Option Text) (n : ℤ)
    (patches : List (List (Key × Plist))) : Except PatchError (List (List (Key × Plist))) :=
  if 1 ≤ n ∧ n ≤ 255 then
    -- `core_patch_indexes`
    match patches.findIdxs (isCorePatch pyStr) with
    | [index] => specializeAt pyRepr n.toNat.toUInt8 patches index
    | indexes => .error (.notUnique indexes.length)
  else .error .coreCount

/-- `load_kernel_patches`, of a property list whose `Kernel`, if there, is a dictionary. -/
def loadPatches (pyStr pyRepr : Plist → Option Text) (source : Plist) (amdCoreCount : Option ℤ) :
    Except PatchError (List Plist) :=
  match source.get ["Kernel", "Patch"] with
  | some (.array (item :: items)) =>
    match normalizeAll pyStr 0 (item :: items), amdCoreCount with
    | .error e, _ => .error e
    | .ok patches, none => .ok (patches.map .dict)
    | .ok patches, some n => (withCores pyStr pyRepr n patches).map (·.map .dict)
  | _ => .error .noPatches

variable {pyStr pyRepr : Plist → Option Text} {source : Plist}
  {patches : List (List (Key × Plist))}

/-! ### The two readings -/

/-- Every comment has a text. -/
def Texts (pyStr : Plist → Option Text) (patches : List (List (Key × Plist))) : Prop :=
  ∀ patch ∈ patches, (commentText pyStr patch).isSome

theorem normalizeAll_map (h : Texts pyStr patches) (index : ℕ) :
    normalizeAll pyStr index (patches.map .dict) = .ok patches := by
  induction patches generalizing index with
  | nil => rfl
  | cons patch patches ih =>
    obtain ⟨hpatch, hrest⟩ := List.forall_mem_cons.1 h
    rw [List.map_cons, normalizeAll, if_pos hpatch, ih hrest]
    rfl

/-- The first comment without a text ends the pass. -/
theorem normalizeAll_map_error (h : ¬ Texts pyStr patches) (index : ℕ) :
    ∃ j, normalizeAll pyStr index (patches.map .dict) = .error (.comment j) := by
  induction patches generalizing index with
  | nil => exact absurd (List.forall_mem_nil _) h
  | cons patch patches ih =>
    rw [List.map_cons, normalizeAll]
    split
    · next hpatch =>
      obtain ⟨j, hj⟩ := ih (fun hrest => h (List.forall_mem_cons.2 ⟨hpatch, hrest⟩)) (index + 1)
      exact ⟨j, by rw [hj]; rfl⟩
    · exact ⟨index, rfl⟩

theorem toOption_normalizeAll (items : List Plist) (index : ℕ) :
    (normalizeAll pyStr index items).toOption = items.mapM (normalize pyStr) := by
  induction items generalizing index with
  | nil => rfl
  | cons item items ih =>
    cases item with
    | dict kvs =>
      rw [List.mapM_cons, ← ih (index + 1), normalizeAll, normalize]
      split
      · cases normalizeAll pyStr (index + 1) items <;> rfl
      · rfl
    | _ => rfl

theorem mapM_normalize {items : List Plist} : items.mapM (normalize pyStr) = some patches ↔
    items = patches.map .dict ∧ Texts pyStr patches := by
  induction items generalizing patches with
  | nil => cases patches <;> simp [Texts]
  | cons item items ih =>
    rw [List.mapM_cons]
    constructor
    · intro h
      obtain ⟨kvs, hkvs, h⟩ := Option.bind_eq_some_iff.1 h
      obtain ⟨patches', hpatches, h⟩ := Option.bind_eq_some_iff.1 h
      obtain rfl := Option.some.inj h
      obtain ⟨hitems, htexts⟩ := ih.1 hpatches
      -- only a dictionary whose comment has a text goes through
      cases item with
      | dict kvs' =>
        rw [normalize] at hkvs
        split at hkvs
        · next htext =>
          obtain rfl := Option.some.inj hkvs
          exact ⟨by rw [List.map_cons, ← hitems], List.forall_mem_cons.2 ⟨htext, htexts⟩⟩
        · cases hkvs
      | _ => cases hkvs
    · rintro ⟨hitems, htexts⟩
      cases patches with
      | nil => cases hitems
      | cons patch patches =>
        obtain ⟨rfl, rfl⟩ := List.cons.inj hitems
        obtain ⟨htext, hrest⟩ := List.forall_mem_cons.1 htexts
        rw [normalize, if_pos htext, ih.2 ⟨rfl, hrest⟩]
        rfl

theorem mapM_of_unmarked {α : Type} {p : α → Bool} {f : α → Option α} {l : List α}
    (h : ∀ x ∈ l, p x = false) : (l.mapM fun x => if p x then f x else some x) = some l := by
  induction l with
  | nil => rfl
  | cons x xs ih =>
    rw [List.forall_mem_cons] at h
    rw [List.mapM_cons, ih h.2, h.1]
    rfl

/-- The pass over all patches that changes the only marked one. -/
theorem mapM_eq_set {α : Type} {p : α → Bool} {f : α → Option α} {d : α} {l : List α} {i : ℕ}
    (h : l.findIdxs p = [i]) :
    (l.mapM fun x => if p x then f x else some x) = (f (l.getD i d)).map fun x => l.set i x := by
  induction l generalizing i with
  | nil => cases h
  | cons x xs ih =>
    rw [List.findIdxs_cons] at h
    rw [List.mapM_cons]
    split at h
    · rename_i hp
      obtain ⟨rfl, hnil⟩ := List.cons.inj h
      rw [if_pos hp, mapM_of_unmarked (List.findIdxs_eq_nil_iff.1 hnil), List.getD_cons_zero]
      cases f x <;> rfl
    · rename_i hp
      rw [List.findIdxs_start] at h
      obtain ⟨i, hi, rfl⟩ := List.map_eq_singleton_iff.1 h
      rw [if_neg hp, ih hi, List.getD_cons_succ]
      cases f (xs.getD i d) <;> rfl

theorem toOption_withCores (n : ℤ) : (withCores pyStr pyRepr n patches).toOption =
    if 1 ≤ n ∧ n ≤ 255 ∧ (patches.filter (isCorePatch pyStr)).length = 1 then
      patches.mapM fun patch =>
        if isCorePatch pyStr patch then specialize n.toNat.toUInt8 patch else some patch
    else none := by
  have hlength : (patches.findIdxs (isCorePatch pyStr)).length =
      (patches.filter (isCorePatch pyStr)).length := by
    rw [List.length_findIdxs, List.countP_eq_length_filter]
  unfold withCores
  by_cases hn : 1 ≤ n ∧ n ≤ 255
  · rw [if_pos hn, ← hlength]
    split
    · rename_i index hi
      rw [hi, if_pos ⟨hn.1, hn.2, rfl⟩, mapM_eq_set hi, specializeAt]
      cases hs : specialize n.toNat.toUInt8 (patches.getD index []) with
      | some patch => rfl
      | none =>
        simp only
        split <;> rfl
    · rename_i hno
      rw [if_neg fun h => ?_]
      · rfl
      · obtain ⟨index, hi⟩ := List.length_eq_one_iff.1 h.2.2
        exact hno index hi
  · rw [if_neg hn, if_neg fun h => hn ⟨h.1, h.2.1⟩]
    rfl

/-- **`generate` asks for the same list**, and ends where an exception is raised. -/
theorem toOption_loadPatches (pyStr pyRepr : Plist → Option Text) (source : Plist)
    (amdCoreCount : Option ℤ) :
    (loadPatches pyStr pyRepr source amdCoreCount).toOption =
      loadKernelPatches pyStr source amdCoreCount := by
  unfold loadPatches loadKernelPatches
  split
  · rename_i item items hget
    rw [hget]
    change _ = (List.mapM (normalize pyStr) (item :: items)).bind _
    rw [← toOption_normalizeAll _ 0]
    cases normalizeAll pyStr 0 (item :: items) with
    | error e => rfl
    | ok patches =>
      cases amdCoreCount with
      | none => rfl
      | some n =>
        have hmap : ∀ x : Except PatchError (List (List (Key × Plist))),
            (x.map (·.map Plist.dict)).toOption = x.toOption.map (·.map .dict) := by
          rintro (_ | _) <;> rfl
        change (Except.map _ (withCores pyStr pyRepr n patches)).toOption = ite _ _ _
        rw [hmap, toOption_withCores]
        split <;> rfl
  · -- no list, or an empty one
    rename_i hno
    cases hget : source.get ["Kernel", "Patch"] with
    | none => rfl
    | some patches =>
      cases patches with
      | array items =>
        cases items with
        | nil => rfl
        | cons item items => exact absurd hget (hno item items)
      | _ => rfl

/-! ### The only byte -/

/-- The patch at an index is the only one for the number of cores, with one of the templates. -/
structure IsCoreEntry (pyStr : Plist → Option Text) (patches : List (List (Key × Plist)))
    (index : ℕ) (template : Bytes) : Prop where
  lt : index < patches.length
  only : ∀ j patch, patches[j]? = some patch → (isCorePatch pyStr patch = true ↔ j = index)
  replace : (patches.getD index []).lookup (.str "Replace") = some (.data template)
  known : template = releaseTemplate ∨ template = debugTemplate

/-- A list is another one, but for byte 1 of the replacement of one patch. -/
structure OneByte (patches : List (List (Key × Plist))) (index : ℕ) (template : Bytes) (n : ℤ)
    (result : List Plist) : Prop where
  length : result.length = patches.length
  others : ∀ j, j ≠ index → result[j]? = patches[j]?.map .dict
  special : ∃ patch patch' replace, patches[index]? = some patch ∧
    result[index]? = some (.dict patch') ∧ patch'.map Prod.fst = patch.map Prod.fst ∧
    (∀ key, key ≠ .str "Replace" → patch'.lookup key = patch.lookup key) ∧
    patch'.lookup (.str "Replace") = some (.data replace) ∧ replace.length = template.length ∧
    (∀ j, j ≠ 1 → replace[j]? = template[j]?) ∧
    ∃ byte : UInt8, replace[1]? = some byte ∧ (byte.toNat : ℤ) = n

theorem specialize_eq_some {cores : UInt8} {patch patch' : List (Key × Plist)} :
    specialize cores patch = some patch' ↔
      ∃ template, patch.lookup (.str "Replace") = some (.data template) ∧
      (template = releaseTemplate ∨ template = debugTemplate) ∧
      patch' = dictInsert "Replace" (.data (template.set 1 cores)) patch := by
  unfold specialize
  constructor
  · intro h
    split at h
    · rename_i current hc
      split at h
      · rename_i hr
        exact ⟨current, hc, Or.inl hr, by rw [hr]; exact (Option.some.inj h).symm⟩
      · split at h
        · rename_i hd
          exact ⟨current, hc, Or.inr hd, by rw [hd]; exact (Option.some.inj h).symm⟩
        · cases h
    · cases h
  · rintro ⟨template, hl, rfl | rfl, rfl⟩
    · rw [hl]
      rfl
    · rw [hl]
      rfl

/-- An assignment to a key that is there keeps the keys. -/
theorem map_fst_dictInsert {k : Key} {v x : Plist} {kvs : List (Key × Plist)}
    (h : kvs.lookup k = some x) : (dictInsert k v kvs).map Prod.fst = kvs.map Prod.fst := by
  induction kvs with
  | nil => cases h
  | cons kv kvs ih =>
    obtain ⟨k', v'⟩ := kv
    by_cases hk : k' = k
    · rw [dictInsert, if_pos hk, List.map_cons, List.map_cons, hk]
    · have hne : (k == k') = false := by simpa using Ne.symm hk
      rw [List.lookup_cons, hne] at h
      rw [dictInsert, if_neg hk, List.map_cons, List.map_cons, ih h]

theorem findIdxs_eq_singleton_iff {α : Type} {p : α → Bool} {l : List α} {i : ℕ} :
    l.findIdxs p = [i] ↔ i < l.length ∧ ∀ j x, l[j]? = some x → (p x = true ↔ j = i) := by
  have hmem : ∀ j, j ∈ l.findIdxs p ↔ ∃ x, l[j]? = some x ∧ p x = true := by
    intro j
    rw [List.mem_findIdxs_iff_exists_getElem_pos]
    exact ⟨fun ⟨hj, hp⟩ => ⟨l[j], List.getElem?_eq_getElem hj, hp⟩, fun ⟨x, hx, hp⟩ => by
      obtain ⟨hj, rfl⟩ := List.getElem?_eq_some_iff.1 hx
      exact ⟨hj, hp⟩⟩
  constructor
  · intro h
    rw [h] at hmem
    obtain ⟨x, hx, hp⟩ := (hmem i).1 (List.mem_singleton_self i)
    refine ⟨(List.getElem?_eq_some_iff.1 hx).1, fun j y hy => ?_⟩
    rw [← List.mem_singleton (a := j), hmem j]
    exact ⟨fun hpy => ⟨y, hy, hpy⟩, fun ⟨z, hz, hpz⟩ => Option.some.inj (hz.symm.trans hy) ▸ hpz⟩
  · rintro ⟨hi, honly⟩
    refine List.perm_singleton.1 ((List.perm_ext_iff_of_nodup List.nodup_findIdxs
      (List.pairwise_singleton _ i)).2 fun j => ?_)
    rw [hmem, List.mem_singleton]
    constructor
    · rintro ⟨x, hx, hp⟩
      exact (honly j x hx).1 hp
    · rintro rfl
      exact ⟨l[j], List.getElem?_eq_getElem hi, (honly j _ (List.getElem?_eq_getElem hi)).2 rfl⟩

/-- When the number of cores can be written, and where. -/
theorem withCores_eq_ok {n : ℤ} {result : List (List (Key × Plist))} :
    withCores pyStr pyRepr n patches = .ok result ↔ (1 ≤ n ∧ n ≤ 255) ∧ ∃ index template,
      IsCoreEntry pyStr patches index template ∧ result = patches.set index
        (dictInsert "Replace" (.data (template.set 1 n.toNat.toUInt8)) (patches.getD index [])) := by
  unfold withCores
  constructor
  · -- every other branch raises
    intro h
    split at h
    · rename_i hn
      split at h
      · rename_i index hi
        simp only [specializeAt] at h
        split at h
        · rename_i patch' hs
          obtain ⟨template, hl, hknown, rfl⟩ := specialize_eq_some.1 hs
          obtain ⟨hlt, honly⟩ := findIdxs_eq_singleton_iff.1 hi
          exact ⟨hn, index, template, ⟨hlt, honly, hl, hknown⟩, (Except.ok.inj h).symm⟩
        · split at h <;> cases h
      · cases h
    · cases h
  · rintro ⟨hn, index, template, ⟨hlt, honly, hl, hknown⟩, rfl⟩
    have hi := findIdxs_eq_singleton_iff.2 ⟨hlt, honly⟩
    have hs : specialize n.toNat.toUInt8 (patches.getD index []) =
        some (dictInsert "Replace" (.data (template.set 1 n.toNat.toUInt8))
          (patches.getD index [])) :=
      specialize_eq_some.2 ⟨template, hl, hknown, rfl⟩
    rw [if_pos hn, hi]
    simp only [specializeAt, hs]

/-- The list with the number of cores differs in one byte. -/
theorem oneByte_set {index : ℕ} {template : Bytes} {n : ℤ}
    (h : IsCoreEntry pyStr patches index template)
    (h₁ : 1 ≤ n) (h₂ : n ≤ 255) : OneByte patches index template n ((patches.set index
      (dictInsert "Replace" (.data (template.set 1 n.toNat.toUInt8))
        (patches.getD index []))).map .dict) := by
  have hget : patches[index]? = some (patches.getD index []) := by
    rw [List.getD_eq_getElem?_getD, List.getElem?_eq_getElem h.lt, Option.getD_some]
  have hlen : 1 < template.length := by
    rcases h.known with rfl | rfl <;> decide
  refine ⟨by rw [List.length_map, List.length_set], fun j hj => ?_, patches.getD index [], _,
    template.set 1 n.toNat.toUInt8, hget, ?_, map_fst_dictInsert h.replace, fun key hkey => ?_,
    lookup_dictInsert_self _ _ _, List.length_set, fun j hj => ?_, n.toNat.toUInt8, ?_, ?_⟩
  · rw [List.getElem?_map, List.getElem?_set_ne (Ne.symm hj)]
  · rw [List.getElem?_map, List.getElem?_set_self h.lt, Option.map_some]
  · exact lookup_dictInsert_ne hkey _ _
  · exact List.getElem?_set_ne (Ne.symm hj)
  · exact List.getElem?_set_self hlen
  · rw [UInt8.toNat_ofNat', Nat.mod_eq_of_lt (by omega)]
    omega

/-- The exceptions of `withCores` are its own, where the replacements can be printed. -/
theorem isValueError_of_withCores {n : ℤ} {e : PatchError}
    (hrepr : ∀ patch ∈ patches, (currentRepr pyRepr (patch.lookup (.str "Replace"))).isSome)
    (h : withCores pyStr pyRepr n patches = .error e) : e.IsValueError := by
  unfold withCores at h
  split at h
  · split at h
    · next index hi =>
      have hlt : index < patches.length := (findIdxs_eq_singleton_iff.1 hi).1
      have hmem : patches.getD index [] ∈ patches := by
        rw [List.getD_eq_getElem?_getD, List.getElem?_eq_getElem hlt]
        exact List.getElem_mem hlt
      simp only [specializeAt] at h
      split at h
      · cases h
      · rw [if_pos (hrepr _ hmem)] at h
        obtain rfl := Except.error.inj h
        trivial
    · obtain rfl := Except.error.inj h
      trivial
  · obtain rfl := Except.error.inj h
    trivial

/-- The number of cores is written after the comments have been read. -/
theorem loadPatches_of_texts (pyRepr : Plist → Option Text) (hne : patches ≠ [])
    (htexts : Texts pyStr patches)
    (hsource : source.get ["Kernel", "Patch"] = some (.array (patches.map .dict))) :
    loadPatches pyStr pyRepr source none = .ok (patches.map .dict) ∧
    ∀ n, loadPatches pyStr pyRepr source (some n) =
      (withCores pyStr pyRepr n patches).map (·.map .dict) := by
  obtain ⟨patch, rest, rfl⟩ := List.exists_cons_of_ne_nil hne
  constructor
  · rw [loadPatches, hsource, List.map_cons]
    simp only [← List.map_cons, normalizeAll_map htexts]
  · intro n
    rw [loadPatches, hsource, List.map_cons]
    simp only [← List.map_cons, normalizeAll_map htexts]

/-- A comment without a text ends the program. -/
theorem loadPatches_of_not_texts (pyRepr : Plist → Option Text) (hne : patches ≠ [])
    (htexts : ¬ Texts pyStr patches)
    (hsource : source.get ["Kernel", "Patch"] = some (.array (patches.map .dict)))
    (n : Option ℤ) : ∃ j, loadPatches pyStr pyRepr source n = .error (.comment j) := by
  obtain ⟨patch, rest, rfl⟩ := List.exists_cons_of_ne_nil hne
  obtain ⟨j, hj⟩ := normalizeAll_map_error htexts 0
  refine ⟨j, ?_⟩
  rw [loadPatches, hsource, List.map_cons]
  simp only [← List.map_cons, hj]

/-- **The number of cores is one byte**: without a number the patches stay as they are, if every
comment has a text; with one the list is made just if the number is a byte other than zero as well
and there is one patch for it with a known template, and then nothing else changes.  Where the
texts are there and the replacements can be printed, the exception is a `ValueError`. -/
theorem specializes_one_byte (pyStr pyRepr : Plist → Option Text) (source : Plist)
    (patches : List (List (Key × Plist))) (hne : patches ≠ [])
    (hsource : source.get ["Kernel", "Patch"] = some (.array (patches.map .dict))) :
    (∀ result, loadPatches pyStr pyRepr source none = .ok result ↔
      Texts pyStr patches ∧ result = patches.map .dict) ∧
    ∀ n : ℤ,
      ((∃ result, loadPatches pyStr pyRepr source (some n) = .ok result) ↔ Texts pyStr patches ∧
        (1 ≤ n ∧ n ≤ 255) ∧ ∃ index template, IsCoreEntry pyStr patches index template) ∧
      (∀ result index template, loadPatches pyStr pyRepr source (some n) = .ok result →
        IsCoreEntry pyStr patches index template → OneByte patches index template n result) ∧
      (Texts pyStr patches →
        (∀ patch ∈ patches, (currentRepr pyRepr (patch.lookup (.str "Replace"))).isSome) →
        ∀ e, loadPatches pyStr pyRepr source (some n) = .error e → e.IsValueError) := by
  by_cases htexts : Texts pyStr patches
  · obtain ⟨hnone, hsome⟩ := loadPatches_of_texts pyRepr hne htexts hsource
    refine ⟨fun result => ?_, fun n => ?_⟩
    · rw [hnone]
      exact ⟨fun h => ⟨htexts, (Except.ok.inj h).symm⟩, fun h => by rw [h.2]⟩
    rw [hsome n]
    cases hw : withCores pyStr pyRepr n patches with
    | error e =>
      have herror : ∀ result, (Except.error e : Except PatchError (List (List (Key × Plist)))).map
          (·.map Plist.dict) ≠ .ok result := fun _ h => by cases h
      refine ⟨⟨fun ⟨r, h⟩ => absurd h (herror r), fun ⟨_, hn, index, template, hentry⟩ => ?_⟩,
        fun r _ _ h => absurd h (herror r), fun _ hrepr e' h => ?_⟩
      · have hok : withCores pyStr pyRepr n patches = .ok _ :=
          withCores_eq_ok.2 ⟨hn, index, template, hentry, rfl⟩
        rw [hw] at hok
        cases hok
      · obtain rfl : e = e' := Except.error.inj h
        exact isValueError_of_withCores hrepr hw
    | ok result =>
      obtain ⟨hn, index, template, hentry, rfl⟩ := withCores_eq_ok.1 hw
      refine ⟨⟨fun _ => ⟨htexts, hn, index, template, hentry⟩, fun _ => ⟨_, rfl⟩⟩,
        fun _ i t h hentry' => ?_, fun _ _ e h => by cases h⟩
      obtain rfl := Except.ok.inj h
      -- the index and the template are determined by the list
      obtain rfl : i = index :=
        (hentry.only i _ (List.getElem?_eq_getElem hentry'.lt)).1
          ((hentry'.only i _ (List.getElem?_eq_getElem hentry'.lt)).2 rfl)
      obtain rfl : t = template := by
        have := hentry'.replace.symm.trans hentry.replace
        simpa using this
      exact oneByte_set hentry hn.1 hn.2
  · have hraise : ∀ n result, loadPatches pyStr pyRepr source n ≠ .ok result := by
      intro n result h
      obtain ⟨j, hj⟩ := loadPatches_of_not_texts pyRepr hne htexts hsource n
      rw [hj] at h
      cases h
    exact ⟨fun result => ⟨fun h => absurd h (hraise _ _), fun h => absurd h.1 htexts⟩, fun n =>
      ⟨⟨fun ⟨r, h⟩ => absurd h (hraise _ r), fun h => absurd h.1 htexts⟩,
        fun r _ _ h => absurd h (hraise _ r), fun h => absurd h htexts⟩⟩

/-- `str` and `repr` as far as integers go: a number with too many digits has no text. -/
def intText : Plist → Option Text
  | .int n => if n.natAbs < 10 ^ maxDigits then some (toString n).toList else none
  | _ => some []

/-- Two patches, the second one for the number of cores. -/
def twoPatches : List (List (Key × Plist)) :=
  [[("Comment", .str (txt "Remove a check"))],
    [("Comment", .str (txt "Force cpuid_cores_per_package")), ("Replace", .data debugTemplate)]]

theorem isCoreEntry_twoPatches : IsCoreEntry intText twoPatches 1 debugTemplate := by
  have hi : twoPatches.findIdxs (isCorePatch intText) = [1] := by decide +kernel
  obtain ⟨hlt, honly⟩ := findIdxs_eq_singleton_iff.1 hi
  exact ⟨hlt, honly, rfl, Or.inr rfl⟩

theorem texts_twoPatches : Texts intText twoPatches := by
  simp [Texts, twoPatches, commentText]

/-- Four cores, and no cores. -/
theorem specializes_one_byte_four :
    (∃ result, loadPatches intText intText (.dict [("Kernel", .dict [("Patch",
        .array (twoPatches.map .dict))])]) (some 4) = .ok result ∧
      OneByte twoPatches 1 debugTemplate 4 result) ∧
    ∀ e, loadPatches intText intText (.dict [("Kernel", .dict [("Patch",
      .array (twoPatches.map .dict))])]) (some 0) = .error e → e.IsValueError := by
  obtain ⟨-, h⟩ := specializes_one_byte intText intText (.dict [("Kernel", .dict [("Patch",
    .array (twoPatches.map .dict))])]) twoPatches (List.cons_ne_nil _ _) rfl
  obtain ⟨hiff, hone, -⟩ := h 4
  obtain ⟨result, hresult⟩ :=
    hiff.2 ⟨texts_twoPatches, by decide, 1, debugTemplate, isCoreEntry_twoPatches⟩
  refine ⟨⟨result, hresult, hone result 1 debugTemplate hresult isCoreEntry_twoPatches⟩,
    (h 0).2.2 texts_twoPatches ?_⟩
  exact List.forall_mem_cons.2 ⟨rfl, List.forall_mem_cons.2 ⟨rfl, List.forall_mem_nil _⟩⟩

/-- One patch, whose comment is a number. -/
def numberComment (n : ℕ) : List (List (Key × Plist)) := [[("Comment", .int n)]]

theorem not_texts_numberComment {n : ℕ} (h : 10 ^ maxDigits ≤ n) :
    ¬ Texts intText (numberComment n) := by
  have htext : intText (.int n) = none := by
    rw [intText, Int.natAbs_natCast, if_neg (not_lt.2 h)]
  have hcomment : commentText intText [("Comment", .int n)] = intText (.int n) := rfl
  intro htexts
  have hsome := htexts _ (List.mem_singleton_self _)
  rw [hcomment, htext] at hsome
  cases hsome

/-- A number of 4301 digits: there is no list, also without a number of cores. -/
theorem long_comment_raises : ¬ ∃ result, loadPatches intText intText (.dict [("Kernel",
    .dict [("Patch", .array ((numberComment (10 ^ maxDigits)).map .dict))])]) none = .ok result := by
  have hsource : (Plist.dict [("Kernel", .dict [("Patch",
      .array ((numberComment (10 ^ maxDigits)).map .dict))])]).get ["Kernel", "Patch"] =
    some (.array ((numberComment (10 ^ maxDigits)).map .dict)) := rfl
  obtain ⟨j, hj⟩ := loadPatches_of_not_texts intText (List.cons_ne_nil _ _)
    (not_texts_numberComment le_rfl) hsource none
  rintro ⟨result, hresult⟩
  rw [hj] at hresult
  cases hresult

end Target

end Config

end InstallKit
