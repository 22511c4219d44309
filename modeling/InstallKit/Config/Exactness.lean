import InstallKit.Config.Agreement
import Mathlib.Data.List.Dedup

/-!
# What the validator accepts

`Valid` says without loops what a staged tree and its configuration have to be, and
`accepts_iff` that the program accepts exactly these.  The order of the lists plays no part in
`Valid`, so it plays none in the verdict (`accepts_perm`).

The program restores metadata files between its checks, and a path with `..` in it can name one of
them.  Such a path is missing in the first run and found in the second (`verdict_changes`); all
other verdicts stay, and no second run changes the tree (`validate_exact`).
-/

namespace InstallKit

namespace Config

open Sources

variable {load : Bytes → Option Info} {t t' : Tree} {ocRoot : List Text} {c : OcConfig}

/-! ### What is asked of kexts -/

/-- `CFBundleIdentifier` of an entry, or nothing. -/
def KextEntry.identifier (load : Bytes → Option Info) (t : Tree) (ocRoot : List Text)
    (e : KextEntry) : Text :=
  ((loadInfo load t (e.plist ocRoot)).bind Info.identifier).getD []

/-- The dependencies of an entry. -/
def KextEntry.libraries (load : Bytes → Option Info) (t : Tree) (ocRoot : List Text)
    (e : KextEntry) : List Text :=
  ((loadInfo load t (e.plist ocRoot)).map Info.libraries).getD []

/-- The files and the identifier of a kext. -/
structure KextOk (load : Bytes → Option Info) (t : Tree) (ocRoot : List Text) (e : KextEntry) :
    Prop where
  bundle : t.isDir (e.bundle ocRoot) = true
  plist : t.isFile (e.plist ocRoot) = true
  executable : e.executablePath ≠ [] → t.isFile (e.executable ocRoot) = true
  identified : e.identifier load t ocRoot ≠ []

/-- What is asked of the enabled kexts. -/
structure KextsValid (load : Bytes → Option Info) (t : Tree) (ocRoot : List Text)
    (es : List KextEntry) : Prop where
  ok : ∀ e ∈ es, KextOk load t ocRoot e
  distinct : (es.map (·.identifier load t ocRoot)).Nodup
  satisfied : ∀ e ∈ es, ∀ d ∈ e.libraries load t ocRoot, isApple d = false →
    ∃ e' ∈ es, e'.identifier load t ocRoot = d

/-- The scan after a kext that has what is asked of it. -/
def KextScan.record (load : Bytes → Option Info) (t : Tree) (ocRoot : List Text) (s : KextScan)
    (e : KextEntry) : KextScan where
  bundleIds := s.bundleIds ++ [(e.identifier load t ocRoot, e.bundlePath)]
  dependencySets := s.dependencySets ++ [(e.bundlePath, e.libraries load t ocRoot)]
  errors := s.errors

theorem KextScan.fail_errors_ne (s : KextScan) (m : String) : (s.fail m).errors ≠ [] := by
  simp [fail]

theorem lookup_eq_none_iff_not_mem {l : List (Text × Text)} {k : Text} :
    l.lookup k = none ↔ k ∉ l.map Prod.fst := by
  rw [List.lookup_eq_none_iff]
  constructor
  · rintro h hm
    obtain ⟨p, hp, rfl⟩ := List.mem_map.1 hm
    exact bne_iff_ne.1 (h p hp) rfl
  · exact fun h p hp => bne_iff_ne.2 fun he => h (he ▸ List.mem_map_of_mem hp)

/-- **One turn of the loop**: no error is added exactly when the kext has what is asked of it and
its identifier is new. -/
theorem scanKext_errors {s s' : KextScan} {e : KextEntry} (he : e.enabled = true)
    (h : scanKext load t ocRoot s e = some s') (hs : s'.errors = []) :
    s.errors = [] ∧ KextOk load t ocRoot e ∧
      e.identifier load t ocRoot ∉ s.bundleIds.map Prod.fst ∧ s' = s.record load t ocRoot e := by
  rw [scanKext, he] at h
  rw [if_neg (by simp)] at h
  split at h
  · obtain rfl := Option.some.inj h
    exact absurd hs (s.fail_errors_ne _)
  split at h
  · obtain rfl := Option.some.inj h
    exact absurd hs (s.fail_errors_ne _)
  rename_i hdir hplist
  obtain ⟨info, hinfo, rfl⟩ := Option.map_eq_some_iff.1 h
  have hid : e.identifier load t ocRoot = info.identifier.getD [] := by
    simp [KextEntry.identifier, hinfo]
  have hlib : e.libraries load t ocRoot = info.libraries := by
    simp [KextEntry.libraries, hinfo]
  rw [KextScan.inspect] at hs ⊢
  split at hs
  · exact absurd hs (KextScan.fail_errors_ne _ _)
  rename_i hexec
  rw [if_neg hexec]
  -- neither branch of `identify` that fails was taken
  rw [← hid, KextScan.identify] at hs ⊢
  split at hs
  · exact absurd hs (KextScan.fail_errors_ne _ _)
  rename_i hne
  split at hs
  · exact absurd hs (KextScan.fail_errors_ne _ _)
  rename_i hnew
  refine ⟨hs, ⟨by simpa using hdir, by simpa using hplist, fun hx => ?_, hne⟩,
    lookup_eq_none_iff_not_mem.1 hnew, ?_⟩
  · by_contra hno
    exact hexec ⟨hx, by simpa using hno⟩
  · rw [if_neg hne, KextScan.record, hlib]

theorem scanKext_ok {s : KextScan} {e : KextEntry} (he : e.enabled = true)
    (hok : KextOk load t ocRoot e)
    (hnew : e.identifier load t ocRoot ∉ s.bundleIds.map Prod.fst) :
    scanKext load t ocRoot s e = some (s.record load t ocRoot e) := by
  obtain ⟨info, hinfo⟩ : ∃ info, loadInfo load t (e.plist ocRoot) = some info := by
    cases hl : loadInfo load t (e.plist ocRoot) with
    | none => exact absurd (by simp [KextEntry.identifier, hl]) hok.identified
    | some info => exact ⟨info, rfl⟩
  have hid : info.identifier.getD [] = e.identifier load t ocRoot := by
    simp [KextEntry.identifier, hinfo]
  have hlib : info.libraries = e.libraries load t ocRoot := by
    simp [KextEntry.libraries, hinfo]
  have hexec : ¬ (e.executablePath ≠ [] ∧ (!t.isFile (e.executable ocRoot)) = true) := by
    rintro ⟨hx, hno⟩
    simp [hok.executable hx] at hno
  have hidentify : s.identify e.bundlePath (e.identifier load t ocRoot) =
      { s with bundleIds := s.bundleIds ++ [(e.identifier load t ocRoot, e.bundlePath)] } := by
    rw [KextScan.identify, if_neg hok.identified, lookup_eq_none_iff_not_mem.2 hnew]
  rw [scanKext, he, hok.bundle, hok.plist, hinfo, if_neg (by simp), if_neg (by simp),
    if_neg (by simp), Option.map_some, KextScan.inspect, if_neg hexec, hid, hidentify, hlib]
  rfl

/-- **The whole loop.** -/
theorem scanKexts_errors {es : List KextEntry} {s s' : KextScan}
    (h : es.foldlM (scanKext load t ocRoot) s = some s') (hs : s'.errors = []) :
    s.errors = [] ∧ (∀ e ∈ es.filter (·.enabled), KextOk load t ocRoot e) ∧
      (s.bundleIds.map Prod.fst).Disjoint
        ((es.filter (·.enabled)).map (·.identifier load t ocRoot)) ∧
      ((es.filter (·.enabled)).map (·.identifier load t ocRoot)).Nodup ∧
      s' = (es.filter (·.enabled)).foldl (KextScan.record load t ocRoot) s := by
  induction es generalizing s with
  | nil =>
    obtain rfl := Option.some.inj h
    exact ⟨hs, by simp, List.disjoint_nil_right _, by simp, rfl⟩
  | cons e es ih =>
    rw [List.foldlM_cons] at h
    obtain ⟨s₁, h₁, h⟩ := Option.bind_eq_some_iff.1 h
    obtain ⟨hs₁, hok, hdis, hnd, heq⟩ := ih h
    cases he : e.enabled with
    | false =>
      have hskip : s₁ = s := by
        rw [scanKext, he] at h₁
        exact (Option.some.inj h₁).symm
      subst hskip
      rw [List.filter_cons_of_neg (by simp [he])]
      exact ⟨hs₁, hok, hdis, hnd, heq⟩
    | true =>
      obtain ⟨hs, hok₁, hnew, rfl⟩ := scanKext_errors he h₁ hs₁
      rw [List.filter_cons_of_pos he]
      have hdis' : e.identifier load t ocRoot ∉
          (es.filter (·.enabled)).map (·.identifier load t ocRoot) := by
        intro hm
        exact hdis (by simp [KextScan.record]) hm
      -- its identifier is none of the earlier ones, and later ones are not it
      refine ⟨hs, List.forall_mem_cons.2 ⟨hok₁, hok⟩, ?_, ?_, heq⟩
      · intro x hx hm
        rcases List.mem_cons.1 hm with rfl | hm
        · exact hnew hx
        · refine hdis ?_ hm
          simp only [KextScan.record, List.map_append, List.mem_append]
          exact Or.inl hx
      · exact List.nodup_cons.2 ⟨hdis', hnd⟩

/-- Without an error the loop records every enabled kext. -/
theorem scanKexts_ok {es : List KextEntry} {s : KextScan}
    (hok : ∀ e ∈ es.filter (·.enabled), KextOk load t ocRoot e)
    (hdis : (s.bundleIds.map Prod.fst).Disjoint
      ((es.filter (·.enabled)).map (·.identifier load t ocRoot)))
    (hnd : ((es.filter (·.enabled)).map (·.identifier load t ocRoot)).Nodup) :
    es.foldlM (scanKext load t ocRoot) s =
      some ((es.filter (·.enabled)).foldl (KextScan.record load t ocRoot) s) := by
  induction es generalizing s with
  | nil => rfl
  | cons e es ih =>
    rw [List.foldlM_cons]
    cases he : e.enabled with
    | false =>
      rw [List.filter_cons_of_neg (by simp [he])] at hok hdis hnd ⊢
      have hskip : scanKext load t ocRoot s e = some s := by simp [scanKext, he]
      rw [hskip]
      exact ih hok hdis hnd
    | true =>
      rw [List.filter_cons_of_pos he] at hok hdis hnd ⊢
      rw [List.map_cons, List.nodup_cons] at hnd
      have hnew : e.identifier load t ocRoot ∉ s.bundleIds.map Prod.fst := fun hm =>
        hdis hm List.mem_cons_self
      rw [scanKext_ok he (hok e List.mem_cons_self) hnew]
      refine ih (fun e' he' => hok e' (List.mem_cons_of_mem _ he')) ?_ hnd.2
      intro x hx hm
      rw [KextScan.record, List.map_append, List.mem_append] at hx
      rcases hx with hx | hx
      · exact hdis hx (List.mem_cons_of_mem _ hm)
      · obtain rfl : x = e.identifier load t ocRoot := by simpa using hx
        exact hnd.1 hm

theorem bundleIds_record (es : List KextEntry) (s : KextScan) :
    (es.foldl (KextScan.record load t ocRoot) s).bundleIds.map Prod.fst =
      s.bundleIds.map Prod.fst ++ es.map (·.identifier load t ocRoot) := by
  induction es generalizing s with
  | nil => simp
  | cons e es ih => simp [ih, KextScan.record]

theorem dependencySets_record (es : List KextEntry) (s : KextScan) :
    (es.foldl (KextScan.record load t ocRoot) s).dependencySets =
      s.dependencySets ++ es.map fun e => (e.bundlePath, e.libraries load t ocRoot) := by
  induction es generalizing s with
  | nil => simp
  | cons e es ih => simp [ih, KextScan.record]

theorem errors_record (es : List KextEntry) (s : KextScan) :
    (es.foldl (KextScan.record load t ocRoot) s).errors = s.errors := by
  induction es generalizing s with
  | nil => rfl
  | cons e es ih => rw [List.foldl_cons, ih, KextScan.record]

/-- The second pass, after a first one without errors. -/
theorem unsatisfied_record (es : List KextEntry) :
    (es.foldl (KextScan.record load t ocRoot) ⟨[], [], []⟩).unsatisfied = [] ↔
      ∀ e ∈ es, ∀ d ∈ e.libraries load t ocRoot, isApple d = false →
        ∃ e' ∈ es, e'.identifier load t ocRoot = d := by
  simp only [KextScan.unsatisfied, bundleIds_record, dependencySets_record, List.map_nil,
    List.nil_append, List.flatMap_eq_nil_iff, List.map_eq_nil_iff, List.filter_eq_nil_iff,
    List.forall_mem_map]
  refine forall₂_congr fun e _ => forall₂_congr fun d _ => ?_
  cases isApple d <;> simp

/-- **The checks of `Kernel/Add`.** -/
theorem scanKexts_iff {es : List KextEntry} :
    (∃ s, es.foldlM (scanKext load t ocRoot) ⟨[], [], []⟩ = some s ∧ s.errors = [] ∧
      s.unsatisfied = []) ↔ KextsValid load t ocRoot (es.filter (·.enabled)) := by
  constructor
  · rintro ⟨s, h, hs, hu⟩
    obtain ⟨-, hok, -, hnd, rfl⟩ := scanKexts_errors h hs
    exact ⟨hok, hnd, (unsatisfied_record _).1 hu⟩
  · rintro ⟨hok, hnd, hsat⟩
    exact ⟨_, scanKexts_ok hok (fun _ h => by cases h) hnd, errors_record _ _,
      (unsatisfied_record _).2 hsat⟩

/-! ### The other checks -/

theorem missingFiles_eq_nil {dir message : String} {es : List PathEntry} :
    missingFiles t ocRoot dir message es = [] ↔
      ∀ e ∈ es, e.enabled = true → t.isFile (subPath ocRoot dir e.path) = true := by
  simp [missingFiles]

/-- The loop over `UEFI/Drivers`. -/
theorem scanDrivers_errors {es : List PathEntry} {s : List Text × List String} :
    (es.foldl (scanDriver t ocRoot) s).2 = [] ↔ s.2 = [] ∧
      (∀ e ∈ es, e.enabled = true → t.isFile (subPath ocRoot "Drivers" e.path) = true) ∧
      s.1.Disjoint ((es.filter (·.enabled)).map (·.path)) ∧
      ((es.filter (·.enabled)).map (·.path)).Nodup := by
  induction es generalizing s with
  | nil => simp
  | cons e es ih =>
    rw [List.foldl_cons, ih, scanDriver]
    cases he : e.enabled with
    | false => simp [he]
    | true =>
      -- the two errors that a driver can give
      have herr : ∀ (b : Bool), (s.2 ++ (if e.path ∈ s.1 then ["duplicate UEFI driver: " ++
          str e.path] else []) ++ (if b then [] else ["missing UEFI/Drivers file: " ++
          str e.path])) = [] ↔ s.2 = [] ∧ e.path ∉ s.1 ∧ b = true := by
        intro b
        cases b <;> simp
      have hdis : ∀ l : List Text, (s.1.insert e.path).Disjoint l ↔ s.1.Disjoint l ∧ e.path ∉ l := by
        intro l
        simp only [List.Disjoint, List.mem_insert_iff]
        exact ⟨fun h => ⟨fun a ha hl => h (Or.inr ha) hl, fun hl => h (Or.inl rfl) hl⟩,
          fun h a ha hl => ha.elim (fun he => h.2 (he ▸ hl)) fun ha => h.1 ha hl⟩
      simp only [Bool.not_true, Bool.false_eq_true, if_false]
      rw [herr, hdis, List.filter_cons_of_pos he, List.map_cons, List.nodup_cons,
        List.disjoint_cons_right]
      simp only [List.forall_mem_cons, he, forall_const]
      tauto

/-! ### The metadata files -/

/-- A metadata file is absent or has its content. -/
def MetadataFile (t : Tree) (p : List Text) (content : String) : Prop :=
  t.node p = none ∨ ∃ b, t.node p = some (.file b) ∧ stripBytes b = ascii content

theorem checkMetadata_iff {dir : List Text} {name content : String} :
    checkMetadata t dir name content = some [] ↔
      ∃ b, t.node (dir ++ [txt name]) = some (.file b) ∧ stripBytes b = ascii content := by
  unfold checkMetadata
  split
  · rename_i b hb
    simp [hb]
  · rename_i hno
    simp only [reduceCtorEq, false_iff]
    rintro ⟨b, hb, -⟩
    exact hno b hb

theorem entryName_flavour : IsEntryName (txt ".contentFlavour") := by
  simp [IsEntryName, txt, dotDot]

theorem entryName_visibility : IsEntryName (txt ".contentVisibility") := by
  simp [IsEntryName, txt, dotDot]

theorem flavour_ne_visibility : txt ".contentFlavour" ≠ txt ".contentVisibility" := by
  simp [txt]

/-- The tree with the two files in a directory. -/
def withMetadata (t : Tree) (dir : List Text) : Tree :=
  (t.ensureFile dir (txt ".contentFlavour") (ascii "OpenCore")).ensureFile dir
    (txt ".contentVisibility") (ascii "Disabled")

theorem restoreMetadata_eq {dir : List Text} {t₁ : Tree} (h : t.makeDirs [] dir = some t₁) :
    restoreMetadata t dir = (withMetadata t₁ dir, do
      return (← checkMetadata (withMetadata t₁ dir) dir ".contentFlavour" "OpenCore") ++
        (← checkMetadata (withMetadata t₁ dir) dir ".contentVisibility" "Disabled")) := by
  rw [restoreMetadata, h]
  rfl

theorem restoreMetadata_of_none {dir : List Text} (h : t.makeDirs [] dir = none) :
    restoreMetadata t dir = (t, none) := by
  rw [restoreMetadata, h]

theorem extends_withMetadata (t : Tree) (dir : List Text) : t.Extends (withMetadata t dir) :=
  (t.extends_ensureFile _ _ _).trans (Tree.extends_ensureFile _ _ _ _)

theorem extends_restoreMetadata (t : Tree) (dir : List Text) :
    t.Extends (restoreMetadata t dir).1 := by
  cases h : t.makeDirs [] dir with
  | none =>
    rw [restoreMetadata_of_none h]
    exact .refl t
  | some t₁ =>
    rw [restoreMetadata_eq h]
    exact (Tree.extends_makeDirs h).trans (extends_withMetadata _ _)

theorem node_withMetadata {dir : List Text} (hdir : t.node dir = some .dir) :
    (withMetadata t dir).node (dir ++ [txt ".contentFlavour"]) =
        some ((t.node (dir ++ [txt ".contentFlavour"])).getD (.file (ascii "OpenCore"))) ∧
      (withMetadata t dir).node (dir ++ [txt ".contentVisibility"]) =
        some ((t.node (dir ++ [txt ".contentVisibility"])).getD (.file (ascii "Disabled"))) := by
  have hne : dir ++ [txt ".contentFlavour"] ≠ dir ++ [txt ".contentVisibility"] := by
    simpa using flavour_ne_visibility
  have hdir' := t.extends_ensureFile dir (txt ".contentFlavour") (ascii "OpenCore") dir _ hdir
  constructor
  · rw [withMetadata, Tree.node_ensureFile_ne hne, Tree.node_ensureFile hdir entryName_flavour]
  · rw [withMetadata, Tree.node_ensureFile hdir' entryName_visibility,
      Tree.node_ensureFile_ne hne.symm]

theorem node_withMetadata_ne {dir q : List Text} (h₁ : q ≠ dir ++ [txt ".contentFlavour"])
    (h₂ : q ≠ dir ++ [txt ".contentVisibility"]) : (withMetadata t dir).node q = t.node q := by
  rw [withMetadata, Tree.node_ensureFile_ne h₂, Tree.node_ensureFile_ne h₁]

theorem metadataFile_iff {p : List Text} {content : String}
    (h : stripBytes (ascii content) = ascii content) :
    MetadataFile t p content ↔
      ∃ b, (t.node p).getD (.file (ascii content)) = .file b ∧ stripBytes b = ascii content := by
  unfold MetadataFile
  cases t.node p with
  | none => simp [h]
  | some n => simp

/-- The files of one directory are in order exactly when they were absent or in order. -/
theorem restoreMetadata_iff {dir : List Text} {t₁ : Tree} (h : t.makeDirs [] dir = some t₁) :
    (restoreMetadata t dir).2 = some [] ↔
      MetadataFile t (dir ++ [txt ".contentFlavour"]) "OpenCore" ∧
        MetadataFile t (dir ++ [txt ".contentVisibility"]) "Disabled" := by
  have hdir : t₁.node dir = some .dir := Tree.node_makeDirs t.node_nil h
  have hsame : ∀ x : Text, t₁.node (dir ++ [x]) = t.node (dir ++ [x]) := fun x =>
    Tree.node_makeDirs_ne h fun hp => by
      have hlen := hp.length_le
      simp only [List.length_append, List.length_cons, List.length_nil] at hlen
      omega
  obtain ⟨h₁, h₂⟩ := node_withMetadata hdir
  have hboth : ∀ a b : Option (List String), (do return (← a) ++ (← b)) = some ([] : List String) ↔
      a = some [] ∧ b = some [] := by
    intro a b
    cases a <;> cases b <;> simp
  rw [restoreMetadata_eq h, hboth, checkMetadata_iff, checkMetadata_iff, h₁, h₂, hsame, hsame,
    metadataFile_iff (by decide), metadataFile_iff (by decide)]
  simp only [Option.some.injEq]

/-- Restoring again changes nothing and says the same. -/
theorem restoreMetadata_again {dir : List Text} {t₁ : Tree} (h : t.makeDirs [] dir = some t₁)
    (hext : (restoreMetadata t dir).1.Extends t') :
    restoreMetadata t' dir = (t', (restoreMetadata t dir).2) := by
  have hdir : t₁.node dir = some .dir := Tree.node_makeDirs t.node_nil h
  rw [restoreMetadata_eq h] at hext ⊢
  obtain ⟨h₁, h₂⟩ := node_withMetadata hdir
  have hdir' : t'.node dir = some .dir := hext _ _ (extends_withMetadata _ _ _ _ hdir)
  have h₁' := hext _ _ h₁
  have h₂' := hext _ _ h₂
  have hself : withMetadata t' dir = t' := by
    rw [withMetadata, Tree.ensureFile_eq_self, Tree.ensureFile_eq_self]
    · rw [h₁']; simp
    · rw [Tree.ensureFile_eq_self (by rw [h₁']; simp), h₂']; simp
  rw [restoreMetadata_eq (Tree.makeDirs_eq_self (p := []) hdir'), hself]
  simp only [checkMetadata, h₁, h₂, h₁', h₂']

/-! ### The staged tree -/

/-- `EFI/OC`, `EFI/BOOT` and `Kernels` of a staged tree. -/
def ocDir (esp : List Text) : List Text := esp ++ [txt "EFI", txt "OC"]

def bootDir (esp : List Text) : List Text := esp ++ [txt "EFI", txt "BOOT"]

def kernelsDir (esp : List Text) : List Text := esp ++ [txt "Kernels"]

@[simp] theorem espRoot_ocDir (esp : List Text) : espRoot (ocDir esp) = esp := by
  simp [espRoot, ocDir]

/-- The tree after the metadata files have been restored. -/
def restored (t : Tree) (esp : List Text) : Tree :=
  (restoreMetadata (restoreMetadata t (ocDir esp)).1 (bootDir esp)).1

variable {esp : List Text}

theorem extends_restored (t : Tree) (esp : List Text) : t.Extends (restored t esp) :=
  (extends_restoreMetadata _ _).trans (extends_restoreMetadata _ _)

theorem makeDirs_ocDir (hoc : t.node (ocDir esp) = some .dir) :
    t.makeDirs [] (ocDir esp) = some t := Tree.makeDirs_eq_self hoc

/-- The only obstacle to `EFI/BOOT` is a file of this name. -/
theorem makeDirs_bootDir (hoc : t.node (ocDir esp) = some .dir) :
    (∃ t₁, t.makeDirs [] (bootDir esp) = some t₁) ↔ ∀ b, t.node (bootDir esp) ≠ some (.file b) := by
  have hefi : t.node ([] ++ (esp ++ [txt "EFI"])) = some .dir := by
    have hsplit : ocDir esp = (esp ++ [txt "EFI"]) ++ [txt "OC"] := by simp [ocDir]
    rw [hsplit] at hoc
    exact Tree.node_above hoc
  have hboot : bootDir esp = esp ++ [txt "EFI"] ++ [txt "BOOT"] := by simp [bootDir]
  rw [hboot, Tree.makeDirs_append hefi, List.nil_append]
  constructor
  · rintro ⟨t₁, h₁⟩ b hb
    rw [Tree.makeDirs_eq_none_of_file hb] at h₁
    cases h₁
  · intro hno
    unfold Tree.makeDirs
    split
    · exact ⟨t, rfl⟩
    · exact absurd ‹_› (hno _)
    · rw [dif_pos ⟨hefi, by simp [IsEntryName, txt, dotDot]⟩]
      exact ⟨_, rfl⟩

/-- What is asked of the metadata files. -/
structure MetadataValid (t : Tree) (esp : List Text) : Prop where
  bootDir : ∀ b, t.node (bootDir esp) ≠ some (.file b)
  files : ∀ dir ∈ [ocDir esp, Config.bootDir esp],
    MetadataFile t (dir ++ [txt ".contentFlavour"]) "OpenCore" ∧
      MetadataFile t (dir ++ [txt ".contentVisibility"]) "Disabled"

/-- The places of `EFI/BOOT` do not change when the files of `EFI/OC` are restored. -/
theorem node_restore_ocDir (hoc : t.node (ocDir esp) = some .dir) {q : List Text}
    (hq : ¬ ocDir esp <+: q) : (restoreMetadata t (ocDir esp)).1.node q = t.node q := by
  rw [restoreMetadata_eq (makeDirs_ocDir hoc)]
  refine node_withMetadata_ne ?_ ?_ <;>
  · rintro rfl
    exact hq (List.prefix_append _ _)

theorem not_prefix_bootDir (esp q : List Text) : ¬ ocDir esp <+: bootDir esp ++ q := by
  intro h
  have h' : [txt "EFI", txt "OC"] <+: [txt "EFI", txt "BOOT"] ++ q := by
    rw [ocDir, bootDir, List.append_assoc] at h
    exact (List.prefix_append_right_inj _).1 h
  simp [txt] at h'

theorem restore_iff (hoc : t.node (ocDir esp) = some .dir) :
    ((restoreMetadata t (ocDir esp)).2 = some [] ∧
      (restoreMetadata (restoreMetadata t (ocDir esp)).1 (bootDir esp)).2 = some []) ↔
    MetadataValid t esp := by
  -- the files of `OC` are no files of `BOOT`
  have hsame : ∀ q, (restoreMetadata t (ocDir esp)).1.node (bootDir esp ++ q) =
      t.node (bootDir esp ++ q) := fun q => node_restore_ocDir hoc (not_prefix_bootDir esp q)
  have hfile : ∀ q content, MetadataFile (restoreMetadata t (ocDir esp)).1 (bootDir esp ++ q)
      content ↔ MetadataFile t (bootDir esp ++ q) content := by
    intro q content
    rw [MetadataFile, MetadataFile, hsame]
  have hboot : (restoreMetadata t (ocDir esp)).1.node (bootDir esp) = t.node (bootDir esp) := by
    simpa using hsame []
  have hoc₁ := extends_restoreMetadata t (ocDir esp) _ _ hoc
  have hmk := makeDirs_bootDir hoc₁
  rw [hboot] at hmk
  rw [restoreMetadata_iff (makeDirs_ocDir hoc)]
  constructor
  · rintro ⟨hfiles, h₂⟩
    cases hm : (restoreMetadata t (ocDir esp)).1.makeDirs [] (bootDir esp) with
    | none =>
      rw [restoreMetadata_of_none hm] at h₂
      cases h₂
    | some t₁ =>
      rw [restoreMetadata_iff hm, hfile, hfile] at h₂
      exact ⟨hmk.1 ⟨t₁, hm⟩, by simpa using ⟨hfiles, h₂⟩⟩
  · rintro ⟨hno, hfiles⟩
    obtain ⟨t₁, hm⟩ := hmk.2 hno
    rw [restoreMetadata_iff hm, hfile, hfile]
    exact ⟨hfiles _ List.mem_cons_self, hfiles _ (List.mem_cons_of_mem _ List.mem_cons_self)⟩

/-- Nothing is created in `Kernels`. -/
theorem node_restored_kernels (hoc : t.node (ocDir esp) = some .dir) (name : Text) :
    (restored t esp).node (kernelsDir esp ++ [name]) = t.node (kernelsDir esp ++ [name]) := by
  have hne : txt "EFI" ≠ txt "Kernels" := by simp [txt]
  have hout : ∀ x, ¬ esp ++ [txt "EFI", x] <+: kernelsDir esp ++ [name] := by
    intro x h
    rw [kernelsDir, List.append_assoc] at h
    exact hne (List.cons_prefix_cons.1 ((List.prefix_append_right_inj _).1 h)).1
  have hno : ∀ x y, kernelsDir esp ++ [name] ≠ esp ++ [txt "EFI", x] ++ [y] := fun x y h =>
    hout x (h ▸ List.prefix_append _ _)
  rw [restored]
  cases hm : (restoreMetadata t (ocDir esp)).1.makeDirs [] (bootDir esp) with
  | none =>
    rw [restoreMetadata_of_none hm]
    exact node_restore_ocDir hoc (hout _)
  | some t₁ =>
    have hmk : t₁.node (kernelsDir esp ++ [name]) =
        (restoreMetadata t (ocDir esp)).1.node (kernelsDir esp ++ [name]) := by
      refine Tree.node_makeDirs_ne hm fun h => ?_
      rw [List.nil_append, kernelsDir, bootDir, List.append_assoc] at h
      exact hne (List.cons_prefix_cons.1 ((List.prefix_append_right_inj _).1 h)).1.symm
    rw [restoreMetadata_eq hm]
    refine (node_withMetadata_ne (hno _ _) (hno _ _)).trans ?_
    rw [hmk]
    exact node_restore_ocDir hoc (hout _)

/-- `any(path.is_file() for path in kernels.iterdir())`. -/
theorem any_kernel_iff :
    (t.entries.any fun e => e.1.dropLast = kernelsDir esp ∧ e.2 ≠ .dir) = true ↔
      ∃ name b, t.node (kernelsDir esp ++ [name]) = some (.file b) := by
  rw [List.any_eq_true]
  constructor
  · rintro ⟨⟨p, n⟩, hm, h⟩
    obtain ⟨hp, hn⟩ := of_decide_eq_true h
    obtain ⟨hne, hnode⟩ := Tree.mem_entries.1 hm
    cases n with
    | dir => exact absurd rfl hn
    | file b =>
      refine ⟨p.getLast hne, b, ?_⟩
      have hp' : p.dropLast = kernelsDir esp := hp
      rw [← hp', List.dropLast_concat_getLast, hnode]
  · rintro ⟨name, b, h⟩
    exact ⟨_, Tree.mem_entries.2 ⟨by simp, h⟩, by simp⟩

/-! ### The verdict -/

/-- The rules for Leopard. -/
structure LeopardRules (c : OcConfig) : Prop where
  kernelArch : c.kernelArch = txt "i386-user32"
  noArch : txt "arch=i386" ∉ splitWords c.bootArgs
  noLegacy : txt "-legacy" ∉ splitWords c.bootArgs
  cpus : txt "cpus=1" ∈ splitWords c.bootArgs
  noMemoryMap : c.rebuildAppleMemoryMap = false
  noSync : c.syncRuntimePermissions = false
  unprotector : txt "OpenRuntime.efi" ∈ c.seenDrivers ↔ c.enableWriteUnprotector = true

/-- What is asked of a staged tree and its configuration; `r` is the tree in which the tools are
looked for. -/
structure Valid (load : Bytes → Option Info) (t r : Tree) (esp : List Text) (c : OcConfig) :
    Prop where
  acpi : ∀ e ∈ c.acpi, e.enabled = true → t.isFile (subPath (ocDir esp) "ACPI" e.path) = true
  kexts : KextsValid load t (ocDir esp) (c.kexts.filter (·.enabled))
  drivers : ∀ e ∈ c.drivers, e.enabled = true →
    t.isFile (subPath (ocDir esp) "Drivers" e.path) = true
  driversDistinct : c.seenDrivers.Nodup
  ps2 : txt "Ps2KeyboardDxe.efi" ∈ c.seenDrivers →
    c.keySupport = true ∧ c.keySupportMode = txt "V1"
  metadata : MetadataValid t esp
  tools : ∀ e ∈ c.tools, e.enabled = true → r.isFile (subPath (ocDir esp) "Tools" e.path) = true
  customKernel : c.customKernel = true →
    ∃ name b, t.node (kernelsDir esp ++ [name]) = some (.file b)
  virtualMap : txt "i386" <+: c.kernelArch → c.setupVirtualMap = false
  routing : c.requestBootVarRouting = false
  leopard : txt "9." <+: c.minKernel → LeopardRules c

theorem bootErrors_iff {seen : List Text}
    (hseen : txt "OpenRuntime.efi" ∈ seen ↔ txt "OpenRuntime.efi" ∈ c.seenDrivers) :
    bootErrors seen c = [] ↔ (txt "i386" <+: c.kernelArch → c.setupVirtualMap = false) ∧
      c.requestBootVarRouting = false ∧ (txt "9." <+: c.minKernel → LeopardRules c) := by
  have hleopard : LeopardRules c ↔ c.kernelArch = txt "i386-user32" ∧
      txt "arch=i386" ∉ splitWords c.bootArgs ∧ txt "-legacy" ∉ splitWords c.bootArgs ∧
      txt "cpus=1" ∈ splitWords c.bootArgs ∧ c.rebuildAppleMemoryMap = false ∧
      c.syncRuntimePermissions = false ∧
      (txt "OpenRuntime.efi" ∈ c.seenDrivers ↔ c.enableWriteUnprotector = true) :=
    ⟨fun ⟨h₁, h₂, h₃, h₄, h₅, h₆, h₇⟩ => ⟨h₁, h₂, h₃, h₄, h₅, h₆, h₇⟩,
      fun ⟨h₁, h₂, h₃, h₄, h₅, h₆, h₇⟩ => ⟨h₁, h₂, h₃, h₄, h₅, h₆, h₇⟩⟩
  rw [hleopard, ← hseen]
  by_cases hmin : txt "9." <+: c.minKernel
  · by_cases hr : txt "OpenRuntime.efi" ∈ seen <;> cases hu : c.enableWriteUnprotector <;>
      simp [bootErrors, hmin, hr, hu]
  · simp [bootErrors, hmin]

theorem ps2Errors_iff {seen : List Text} : ps2Errors seen c = [] ↔
    (txt "Ps2KeyboardDxe.efi" ∈ seen → c.keySupport = true ∧ c.keySupportMode = txt "V1") := by
  by_cases h : txt "Ps2KeyboardDxe.efi" ∈ seen <;> simp [ps2Errors, h]

theorem customKernelErrors_iff : customKernelErrors t (ocDir esp) c = [] ↔
    (c.customKernel = true → ∃ name b, t.node (kernelsDir esp ++ [name]) = some (.file b)) := by
  have hkernels : espRoot (ocDir esp) ++ [txt "Kernels"] = kernelsDir esp := by
    rw [espRoot_ocDir]
    rfl
  rw [← any_kernel_iff, customKernelErrors, hkernels]
  cases c.customKernel <;>
    cases t.entries.any fun e => decide (e.1.dropLast = kernelsDir esp ∧ e.2 ≠ .dir) <;> simp

/-- The errors of a run that prints them, stage by stage. -/
theorem accepts_iff_stages : accepts load t (ocDir esp) c ↔
    (∃ s, c.kexts.foldlM (scanKext load t (ocDir esp)) ⟨[], [], []⟩ = some s ∧ s.errors = [] ∧
      s.unsatisfied = []) ∧
    ((restoreMetadata t (ocDir esp)).2 = some [] ∧
      (restoreMetadata (restoreMetadata t (ocDir esp)).1 (bootDir esp)).2 = some []) ∧
    missingFiles t (ocDir esp) "ACPI" "missing ACPI/Add file: " c.acpi = [] ∧
    (c.drivers.foldl (scanDriver t (ocDir esp)) ([], [])).2 = [] ∧
    ps2Errors (c.drivers.foldl (scanDriver t (ocDir esp)) ([], [])).1 c = [] ∧
    missingFiles (restored t esp) (ocDir esp) "Tools" "missing Misc/Tools file: " c.tools = [] ∧
    customKernelErrors (restored t esp) (ocDir esp) c = [] ∧
    bootErrors (c.drivers.foldl (scanDriver t (ocDir esp)) ([], [])).1 c = [] := by
  unfold restored bootDir
  rw [accepts, validate, espRoot_ocDir]
  cases hscan : c.kexts.foldlM (scanKext load t (ocDir esp)) ⟨[], [], []⟩ with
  | none => simp
  | some s =>
    cases hfirst : (restoreMetadata t (ocDir esp)).2 with
    | none => simp [hfirst]
    | some m =>
      simp only [hfirst, Option.map_eq_some_iff, List.append_eq_nil_iff, Option.some.injEq]
      constructor
      · rintro ⟨m', hm', h⟩
        obtain ⟨⟨⟨⟨⟨⟨⟨⟨⟨h₁, h₂⟩, h₃⟩, h₄⟩, h₅⟩, h₆⟩, rfl⟩, h₈⟩, h₉⟩, h₁₀⟩ := h
        exact ⟨⟨s, rfl, h₂, h₃⟩, ⟨h₆, hm'⟩, h₁, h₄, h₅, h₈, h₉, h₁₀⟩
      · rintro ⟨⟨s', rfl, h₂, h₃⟩, ⟨h₆, hm'⟩, h₁, h₄, h₅, h₈, h₉, h₁₀⟩
        exact ⟨[], hm', ⟨⟨⟨⟨⟨⟨⟨⟨⟨h₁, h₂⟩, h₃⟩, h₄⟩, h₅⟩, h₆⟩, rfl⟩, h₈⟩, h₉⟩, h₁₀⟩⟩

/-- **Exactness**: the program accepts exactly the valid trees, the tools being looked for after
the metadata files were restored. -/
theorem accepts_iff (hoc : t.node (ocDir esp) = some .dir) :
    accepts load t (ocDir esp) c ↔ Valid load t (restored t esp) esp c := by
  have hseen : ∀ x, x ∈ (c.drivers.foldl (scanDriver t (ocDir esp)) ([], [])).1 ↔
      x ∈ c.seenDrivers := by
    intro x
    rw [mem_scanDrivers]
    simp [OcConfig.seenDrivers]
  have hdrivers : (c.drivers.foldl (scanDriver t (ocDir esp)) ([], [])).2 = [] ↔
      (∀ e ∈ c.drivers, e.enabled = true →
        t.isFile (subPath (ocDir esp) "Drivers" e.path) = true) ∧ c.seenDrivers.Nodup := by
    rw [scanDrivers_errors]
    simp [OcConfig.seenDrivers]
  rw [accepts_iff_stages, scanKexts_iff, restore_iff hoc, missingFiles_eq_nil, hdrivers,
    ps2Errors_iff, hseen, missingFiles_eq_nil, customKernelErrors_iff, bootErrors_iff (hseen _)]
  simp only [node_restored_kernels hoc]
  exact ⟨fun ⟨hk, hm, ha, ⟨hd, hd'⟩, hp, ht, hc, hv, hr, hl⟩ =>
      ⟨ha, hk, hd, hd', hp, hm, ht, hc, hv, hr, hl⟩,
    fun ⟨ha, hk, hd, hd', hp, hm, ht, hc, hv, hr, hl⟩ =>
      ⟨hk, hm, ha, ⟨hd, hd'⟩, hp, ht, hc, hv, hr, hl⟩⟩

/-! ### The order of the entries -/

/-- The same configuration with its lists in another order. -/
structure Rearranged (c c' : OcConfig) : Prop where
  acpi : c.acpi.Perm c'.acpi
  kexts : c.kexts.Perm c'.kexts
  drivers : c.drivers.Perm c'.drivers
  tools : c.tools.Perm c'.tools
  rest : c' = { c with acpi := c'.acpi, kexts := c'.kexts, drivers := c'.drivers, tools := c'.tools }

theorem KextsValid.perm {es es' : List KextEntry} (h : KextsValid load t ocRoot es)
    (hp : es.Perm es') : KextsValid load t ocRoot es' where
  ok e he := h.ok e (hp.mem_iff.2 he)
  distinct := (hp.map _).nodup_iff.1 h.distinct
  satisfied e he d hd ha :=
    have ⟨e', he', hid⟩ := h.satisfied e (hp.mem_iff.2 he) d hd ha
    ⟨e', hp.mem_iff.1 he', hid⟩

theorem Rearranged.valid {c c' : OcConfig} {r : Tree} (hc : Rearranged c c')
    (h : Valid load t r esp c) : Valid load t r esp c' := by
  obtain ⟨ha, hk, hd, hu, hrest⟩ := hc
  have hseen : c.seenDrivers.Perm c'.seenDrivers := (hd.filter _).map _
  have hmem : ∀ x, x ∈ c'.seenDrivers ↔ x ∈ c.seenDrivers := fun x => hseen.mem_iff.symm
  have hrules : LeopardRules c → LeopardRules c' := by
    rintro ⟨h₁, h₂, h₃, h₄, h₅, h₆, h₇⟩
    rw [hrest] at hmem ⊢
    exact ⟨h₁, h₂, h₃, h₄, h₅, h₆, by rw [hmem]; exact h₇⟩
  have hkexts := h.kexts.perm (hk.filter _)
  have hps2 : txt "Ps2KeyboardDxe.efi" ∈ c'.seenDrivers →
      c.keySupport = true ∧ c.keySupportMode = txt "V1" := fun hm => h.ps2 ((hmem _).1 hm)
  have hnd := hseen.nodup_iff.1 h.driversDistinct
  rw [hrest] at hrules hps2 hnd ⊢
  exact ⟨fun e he => h.acpi e (ha.mem_iff.2 he), hkexts, fun e he => h.drivers e (hd.mem_iff.2 he),
    hnd, hps2, h.metadata, fun e he => h.tools e (hu.mem_iff.2 he), h.customKernel, h.virtualMap,
    h.routing, fun hm => hrules (h.leopard hm)⟩

theorem Rearranged.symm {c c' : OcConfig} (h : Rearranged c c') : Rearranged c' c :=
  ⟨h.acpi.symm, h.kexts.symm, h.drivers.symm, h.tools.symm, by rw [h.rest]⟩

/-- **The order of the lists does not matter.** -/
theorem accepts_perm (hoc : t.node (ocDir esp) = some .dir) {c c' : OcConfig}
    (h : Rearranged c c') : accepts load t (ocDir esp) c' ↔ accepts load t (ocDir esp) c := by
  rw [accepts_iff hoc, accepts_iff hoc]
  exact ⟨h.symm.valid, h.valid⟩

/-! ### The second run -/

theorem again_ocDir (hoc : t.node (ocDir esp) = some .dir)
    (hext : (restoreMetadata t (ocDir esp)).1.Extends t') :
    restoreMetadata t' (ocDir esp) = (t', (restoreMetadata t (ocDir esp)).2) :=
  restoreMetadata_again (makeDirs_ocDir hoc) hext

theorem again_bootDir (t : Tree) (esp : List Text) :
    restoreMetadata (restored t esp) (bootDir esp) = (restored t esp,
      (restoreMetadata (restoreMetadata t (ocDir esp)).1 (bootDir esp)).2) := by
  cases hm : (restoreMetadata t (ocDir esp)).1.makeDirs [] (bootDir esp) with
  | none =>
    have hnone := restoreMetadata_of_none hm
    rw [restored, hnone]
    exact hnone
  | some t₁ => exact restoreMetadata_again hm (.refl _)

theorem restored_restored (hoc : t.node (ocDir esp) = some .dir) :
    restored (restored t esp) esp = restored t esp := by
  have hagain := again_ocDir hoc (extends_restoreMetadata _ (bootDir esp))
  have hfirst : (restoreMetadata (restored t esp) (ocDir esp)).1 = restored t esp := by
    rw [restored, hagain]
  rw [restored, hfirst, again_bootDir]

/-- How a run ends. -/
theorem validate_cases (load : Bytes → Option Info) (t : Tree) (esp : List Text) (c : OcConfig) :
    validate load t (ocDir esp) c = (t, none) ∨
      ((restoreMetadata t (ocDir esp)).2 = none ∧
        validate load t (ocDir esp) c = ((restoreMetadata t (ocDir esp)).1, none)) ∨
      ((restoreMetadata t (ocDir esp)).2 ≠ none ∧
        (validate load t (ocDir esp) c).1 = restored t esp) := by
  unfold restored bootDir
  rw [validate, espRoot_ocDir]
  cases c.kexts.foldlM (scanKext load t (ocDir esp)) ⟨[], [], []⟩ with
  | none => exact Or.inl rfl
  | some s =>
    refine Or.inr ?_
    cases hfirst : (restoreMetadata t (ocDir esp)).2 with
    | none => exact Or.inl ⟨rfl, by simp only [hfirst]⟩
    | some m => exact Or.inr ⟨by simp, by simp only [hfirst]⟩

theorem tree_of_accepts (h : accepts load t (ocDir esp) c) :
    (validate load t (ocDir esp) c).1 = restored t esp := by
  rcases validate_cases load t esp c with h' | ⟨-, h'⟩ | ⟨-, h'⟩
  · rw [accepts, h'] at h
    cases h
  · rw [accepts, h'] at h
    cases h
  · exact h'

/-- A tree whose metadata files are there stays as it is. -/
theorem validate_tree_eq (h₁ : (restoreMetadata t (ocDir esp)).1 = t)
    (h₂ : (restoreMetadata t (ocDir esp)).2 ≠ none → (restoreMetadata t (bootDir esp)).1 = t) :
    (validate load t (ocDir esp) c).1 = t := by
  rcases validate_cases load t esp c with h | ⟨-, h⟩ | ⟨hf, h⟩
  · rw [h]
  · rw [h, h₁]
  · rw [h, restored, h₁, h₂ hf]

/-- **A second run changes nothing.** -/
theorem validate_again (hoc : t.node (ocDir esp) = some .dir) :
    (validate load (validate load t (ocDir esp) c).1 (ocDir esp) c).1 =
      (validate load t (ocDir esp) c).1 := by
  rcases validate_cases load t esp c with h | ⟨hf, h⟩ | ⟨-, h⟩
  · rw [h, h]
  · have hagain := again_ocDir hoc (.refl _)
    rw [h]
    refine validate_tree_eq (by rw [hagain]) fun hne => ?_
    rw [hagain] at hne
    exact absurd hf hne
  · have hagain := again_ocDir hoc (extends_restoreMetadata _ (bootDir esp))
    rw [h]
    exact validate_tree_eq (by rw [restored, hagain]) fun _ => by rw [again_bootDir]

/-! ### The second verdict -/

/-- The paths that are looked for. -/
def OcConfig.paths (esp : List Text) (c : OcConfig) : List PurePath :=
  (c.acpi.filter (·.enabled)).map (fun e => subPath (ocDir esp) "ACPI" e.path) ++
  (c.drivers.filter (·.enabled)).map (fun e => subPath (ocDir esp) "Drivers" e.path) ++
  (c.tools.filter (·.enabled)).map (fun e => subPath (ocDir esp) "Tools" e.path) ++
  (c.kexts.filter (·.enabled)).flatMap fun e =>
    [e.bundle (ocDir esp), e.plist (ocDir esp), e.executable (ocDir esp)]

/-- What a path leads to in the first tree it leads to in the second. -/
def Finds (t t' : Tree) (path : PurePath) : Prop :=
  ∀ n, t.lookup path = some n → t'.lookup path = some n

theorem Finds.isFile {path : PurePath} (h : Finds t t' path) (hf : t.isFile path = true) :
    t'.isFile path = true := by
  obtain ⟨b, hb⟩ := Tree.isFile_iff.1 hf
  exact Tree.isFile_iff.2 ⟨b, h _ hb⟩

theorem Finds.loadInfo {path : PurePath} (h : Finds t t' path) (hf : t.isFile path = true) :
    loadInfo load t' path = loadInfo load t path := by
  obtain ⟨b, hb⟩ := Tree.isFile_iff.1 hf
  rw [Config.loadInfo, Config.loadInfo, hb, h _ hb]

theorem KextsValid.mono {es : List KextEntry} (h : KextsValid load t ocRoot es)
    (hP : ∀ e ∈ es, Finds t t' (e.bundle ocRoot) ∧ Finds t t' (e.plist ocRoot) ∧
      Finds t t' (e.executable ocRoot)) : KextsValid load t' ocRoot es := by
  have hload : ∀ e ∈ es, loadInfo load t' (e.plist ocRoot) = loadInfo load t (e.plist ocRoot) :=
    fun e he => (hP e he).2.1.loadInfo (h.ok e he).plist
  have hid : ∀ e ∈ es, e.identifier load t' ocRoot = e.identifier load t ocRoot := fun e he => by
    rw [KextEntry.identifier, KextEntry.identifier, hload e he]
  have hlib : ∀ e ∈ es, e.libraries load t' ocRoot = e.libraries load t ocRoot := fun e he => by
    rw [KextEntry.libraries, KextEntry.libraries, hload e he]
  refine ⟨fun e he => ⟨?_, ?_, fun hx => ?_, ?_⟩, ?_, fun e he d hd ha => ?_⟩
  · exact Tree.isDir_iff.2 ((hP e he).1 _ (Tree.isDir_iff.1 (h.ok e he).bundle))
  · exact (hP e he).2.1.isFile (h.ok e he).plist
  · exact (hP e he).2.2.isFile ((h.ok e he).executable hx)
  · rw [hid e he]
    exact (h.ok e he).identified
  · rw [List.map_congr_left hid]
    exact h.distinct
  · rw [hlib e he] at hd
    obtain ⟨e', he', hd'⟩ := h.satisfied e he d hd ha
    exact ⟨e', he', by rw [hid e' he', hd']⟩

/-- Validity carries over to a tree in which everything is found again. -/
theorem Valid.mono {r r' : Tree} (h : Valid load t r esp c)
    (hP : ∀ path ∈ c.paths esp, Finds t t' path) (hR : ∀ path ∈ c.paths esp, Finds r r' path)
    (hm : MetadataValid t' esp)
    (hk : ∀ name b, t.node (kernelsDir esp ++ [name]) = some (.file b) →
      t'.node (kernelsDir esp ++ [name]) = some (.file b)) :
    Valid load t' r' esp c := by
  simp only [OcConfig.paths, List.mem_append, List.mem_map, List.mem_flatMap, List.mem_filter]
    at hP hR
  refine ⟨fun e he hen => ?_, ?_, fun e he hen => ?_, h.driversDistinct, h.ps2, hm,
    fun e he hen => ?_, fun hc => ?_, h.virtualMap, h.routing, h.leopard⟩
  · exact (hP _ (Or.inl (Or.inl (Or.inl ⟨e, ⟨he, hen⟩, rfl⟩)))).isFile (h.acpi e he hen)
  · refine h.kexts.mono fun e he => ?_
    have hkext : ∀ path ∈ [e.bundle (ocDir esp), e.plist (ocDir esp), e.executable (ocDir esp)],
        Finds t t' path := fun path hp => hP path (Or.inr ⟨e, List.mem_filter.1 he, hp⟩)
    simpa using hkext
  · exact (hP _ (Or.inl (Or.inl (Or.inr ⟨e, ⟨he, hen⟩, rfl⟩)))).isFile (h.drivers e he hen)
  · exact (hR _ (Or.inl (Or.inr ⟨e, ⟨he, hen⟩, rfl⟩))).isFile (h.tools e he hen)
  · obtain ⟨name, b, hb⟩ := h.customKernel hc
    exact ⟨name, b, hk name b hb⟩

/-- The metadata files are in order after they were restored exactly when they were before. -/
theorem metadataValid_restored (hoc : t.node (ocDir esp) = some .dir) :
    MetadataValid (restored t esp) esp ↔ MetadataValid t esp := by
  have hoc' := extends_restored t esp _ _ hoc
  have hagain : restoreMetadata (restored t esp) (ocDir esp) =
      (restored t esp, (restoreMetadata t (ocDir esp)).2) :=
    again_ocDir hoc (extends_restoreMetadata _ (bootDir esp))
  rw [← restore_iff hoc, ← restore_iff hoc', hagain, again_bootDir]

/-- **An accepted tree is accepted again.** -/
theorem accepts_again (hoc : t.node (ocDir esp) = some .dir)
    (h : accepts load t (ocDir esp) c) :
    accepts load (validate load t (ocDir esp) c).1 (ocDir esp) c := by
  have hvalid := (accepts_iff hoc).1 h
  rw [tree_of_accepts h, accepts_iff (extends_restored t esp _ _ hoc), restored_restored hoc]
  exact hvalid.mono (fun path _ n => Tree.lookup_mono (extends_restored t esp))
    (fun _ _ _ hn => hn) ((metadataValid_restored hoc).2 hvalid.metadata)
    fun name b => extends_restored t esp _ _

/-- The four metadata files. -/
def metadataPlaces (esp : List Text) : List (List Text) :=
  [ocDir esp ++ [txt ".contentFlavour"], ocDir esp ++ [txt ".contentVisibility"],
    bootDir esp ++ [txt ".contentFlavour"], bootDir esp ++ [txt ".contentVisibility"]]

/-- `EFI/BOOT` is there, and no enabled path is one of the metadata files. -/
structure AwayFromMetadata (t : Tree) (esp : List Text) (c : OcConfig) : Prop where
  bootDir : t.node (bootDir esp) = some .dir
  paths : ∀ path ∈ c.paths esp, foldDots path.parts ∉ metadataPlaces esp

/-- Every other path leads to the same in the restored tree. -/
theorem lookup_restored (hoc : t.node (ocDir esp) = some .dir)
    (hboot : t.node (bootDir esp) = some .dir) {path : PurePath}
    (hpath : foldDots path.parts ∉ metadataPlaces esp) :
    (restored t esp).lookup path = t.lookup path := by
  have hboot' : (withMetadata t (ocDir esp)).node (bootDir esp) = some .dir :=
    extends_withMetadata _ _ _ _ hboot
  have hres : restored t esp = withMetadata (withMetadata t (ocDir esp)) (bootDir esp) := by
    rw [restored, restoreMetadata_eq (makeDirs_ocDir hoc)]
    exact congrArg Prod.fst (restoreMetadata_eq (Tree.makeDirs_eq_self (p := []) hboot'))
  have hdir : ∀ p, (restored t esp).node p = some .dir ↔ t.node p = some .dir := by
    intro p
    simp only [hres, withMetadata, Tree.node_ensureFile_dir]
  rw [Tree.lookup, Tree.lookup, Tree.walk_congr hdir]
  cases hw : t.walk [] path.parts with
  | none => rfl
  | some q =>
    obtain rfl := Tree.walk_foldDots hw
    simp only [metadataPlaces, List.mem_cons, List.not_mem_nil, or_false, not_or] at hpath
    rw [Option.bind_some, Option.bind_some, hres, node_withMetadata_ne hpath.2.2.1 hpath.2.2.2,
      node_withMetadata_ne hpath.1 hpath.2.1]

/-- The verdict of the second run is that of the first, away from the metadata files. -/
theorem accepts_again_iff (hoc : t.node (ocDir esp) = some .dir) (haway : AwayFromMetadata t esp c) :
    accepts load (validate load t (ocDir esp) c).1 (ocDir esp) c ↔
      accepts load t (ocDir esp) c := by
  refine ⟨fun h => ?_, accepts_again hoc⟩
  rcases validate_cases load t esp c with h' | ⟨hf, h'⟩ | ⟨-, h'⟩
  · rwa [h'] at h
  · -- the second run cannot read the metadata file either
    rw [h'] at h
    obtain ⟨-, ⟨h₁, -⟩, -⟩ := accepts_iff_stages.1 h
    rw [again_ocDir hoc (.refl _), hf] at h₁
    cases h₁
  · rw [h', accepts_iff (extends_restored t esp _ _ hoc), restored_restored hoc] at h
    rw [accepts_iff hoc]
    refine h.mono (fun path hp n hn => ?_) (fun _ _ _ hn => hn)
      ((metadataValid_restored hoc).1 h.metadata) fun name b hb => ?_
    · rwa [← lookup_restored hoc haway.bootDir (haway.paths path hp)]
    · rwa [← node_restored_kernels hoc]

/-- An empty staged tree. -/
def sampleTree : Tree where
  entries := [([txt "EFI"], .dir), ([txt "EFI", txt "OC"], .dir),
    ([txt "EFI", txt "OC", txt "ACPI"], .dir), ([txt "EFI", txt "OC", txt "Tools"], .dir),
    ([txt "EFI", txt "BOOT"], .dir)]
  nodup := by simp [txt]
  named := by simp [IsEntryName, txt, dotDot]
  parent := by simp

/-- A configuration with these tables and tools. -/
def sampleConfig (acpi tools : List PathEntry) : OcConfig :=
  ⟨acpi, [], [], tools, true, txt "V1", false, txt "i386", false, false, false, false, false,
    txt "10.0.0", []⟩

/-- **The validator**: it accepts exactly the valid trees, the tools being looked for among the
restored metadata files; the order of the lists does not matter; a second run changes nothing and
accepts what the first accepted.  Where no enabled path is a metadata file, the tools too are
looked for in the tree as it was, and the second verdict is the first. -/
theorem validate_exact (load : Bytes → Option Info) (t : Tree) (esp : List Text) (c : OcConfig)
    (hoc : t.node (ocDir esp) = some .dir) :
    (accepts load t (ocDir esp) c ↔ Valid load t (restored t esp) esp c) ∧
    (∀ c', Rearranged c c' →
      (accepts load t (ocDir esp) c' ↔ accepts load t (ocDir esp) c)) ∧
    (validate load (validate load t (ocDir esp) c).1 (ocDir esp) c).1 =
      (validate load t (ocDir esp) c).1 ∧
    (accepts load t (ocDir esp) c →
      accepts load (validate load t (ocDir esp) c).1 (ocDir esp) c) ∧
    (AwayFromMetadata t esp c →
      (accepts load t (ocDir esp) c ↔ Valid load t t esp c) ∧
      (accepts load (validate load t (ocDir esp) c).1 (ocDir esp) c ↔
        accepts load t (ocDir esp) c)) := by
  refine ⟨accepts_iff hoc, fun c' h => accepts_perm hoc h, validate_again hoc, accepts_again hoc,
    fun haway => ⟨?_, accepts_again_iff hoc haway⟩⟩
  rw [accepts_iff hoc]
  have hsame : ∀ path ∈ c.paths esp, (restored t esp).lookup path = t.lookup path :=
    fun path hp => lookup_restored hoc haway.bootDir (haway.paths path hp)
  constructor
  · exact fun h => h.mono (fun _ _ _ hn => hn) (fun path hp n hn => hsame path hp ▸ hn) h.metadata
      fun _ _ hb => hb
  · exact fun h => h.mono (fun _ _ _ hn => hn) (fun path hp n hn => (hsame path hp).symm ▸ hn)
      h.metadata fun _ _ hb => hb

/-- A path below `EFI/OC`. -/
def stagedAt (path : List String) : List Text := [txt "EFI", txt "OC"] ++ path.map txt

/-- A staged tree with a table, a driver, a tool and two kexts; the second kext has no
executable. -/
def stagedTree : Tree where
  entries := [([txt "EFI"], .dir), ([txt "EFI", txt "BOOT"], .dir), (stagedAt [], .dir),
    (stagedAt ["ACPI"], .dir), (stagedAt ["ACPI", "SSDT.aml"], .file []),
    (stagedAt ["Drivers"], .dir), (stagedAt ["Drivers", "OpenRuntime.efi"], .file []),
    (stagedAt ["Tools"], .dir), (stagedAt ["Tools", "OpenShell.efi"], .file []),
    (stagedAt ["Kexts"], .dir), (stagedAt ["Kexts", "a.kext"], .dir),
    (stagedAt ["Kexts", "a.kext", "Contents"], .dir),
    (stagedAt ["Kexts", "a.kext", "Contents", "Info.plist"], .file [1]),
    (stagedAt ["Kexts", "a.kext", "Contents", "MacOS"], .dir),
    (stagedAt ["Kexts", "a.kext", "Contents", "MacOS", "a"], .file []),
    (stagedAt ["Kexts", "b.kext"], .dir), (stagedAt ["Kexts", "b.kext", "Contents"], .dir),
    (stagedAt ["Kexts", "b.kext", "Contents", "Info.plist"], .file [2])]
  nodup := by simp [stagedAt, txt]
  named := by simp [IsEntryName, stagedAt, txt, dotDot]
  parent := by simp [stagedAt]

/-- The kext of file `1`, and one that depends on it. -/
def stagedInfo (b : Bytes) : Option Info :=
  if b = [1] then some ⟨some (txt "org.a"), none, some (txt "a"), [txt "com.apple.kpi.bsd"]⟩
  else if b = [2] then some ⟨some (txt "org.b"), none, none, [txt "org.a"]⟩
  else none

/-- The configuration of the staged tree. -/
def stagedConfig : OcConfig where
  acpi := [⟨true, txt "SSDT.aml"⟩]
  kexts := [⟨true, txt "a.kext", txt "Contents/Info.plist", txt "Contents/MacOS/a"⟩,
    ⟨true, txt "b.kext", txt "Contents/Info.plist", []⟩]
  drivers := [⟨true, txt "OpenRuntime.efi"⟩]
  tools := [⟨true, txt "OpenShell.efi"⟩]
  __ := sampleConfig [] []

/-- A tree and a configuration with an entry of each kind. -/
theorem validate_exact_sample :
    accepts stagedInfo stagedTree (ocDir []) stagedConfig ∧
      Valid stagedInfo stagedTree (restored stagedTree []) [] stagedConfig := by
  have h : accepts stagedInfo stagedTree (ocDir []) stagedConfig := by decide +kernel
  exact ⟨h, (validate_exact _ _ _ _ (by decide +kernel)).1.1 h⟩

/-- **A path that names a metadata file**: as a table it is missing in the first run and found in
the second, as a tool it is accepted although the staged tree does not have it. -/
theorem verdict_changes :
    (¬ accepts (fun _ => none) sampleTree (ocDir [])
        (sampleConfig [⟨true, txt "../.contentFlavour"⟩] []) ∧
      accepts (fun _ => none) (validate (fun _ => none) sampleTree (ocDir [])
        (sampleConfig [⟨true, txt "../.contentFlavour"⟩] [])).1 (ocDir [])
        (sampleConfig [⟨true, txt "../.contentFlavour"⟩] [])) ∧
    accepts (fun _ => none) sampleTree (ocDir [])
        (sampleConfig [] [⟨true, txt "../.contentFlavour"⟩]) ∧
      sampleTree.isFile (subPath (ocDir []) "Tools" (txt "../.contentFlavour")) = false := by
  decide +kernel

end Config

end InstallKit
