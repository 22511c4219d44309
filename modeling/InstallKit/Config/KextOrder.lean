import InstallKit.Config.Exactness
import InstallKit.Config.Kexts
import Mathlib.Logic.Relation

/-!
# The order of `Kernel/Add`

The bundles are listed in the byte order of their paths, and the validator asks that every
dependency is there, not where.  So a kext comes after what it depends on exactly when the paths
happen to be in that order (`kext_order`), and an accepted configuration may list them the other way
round (`dependent_before_dependency`).
-/

namespace InstallKit

namespace Config

open Sources

variable {load : Bytes → Option Info} {t : Tree} {ocRoot : List Text} {es : List KextEntry}

/-- No kext stands before one that it lists in `OSBundleLibraries`. -/
def DependencyOrdered (load : Bytes → Option Info) (t : Tree) (ocRoot : List Text)
    (es : List KextEntry) : Prop :=
  es.Pairwise fun e e' => e'.identifier load t ocRoot ∉ e.libraries load t ocRoot

/-- The kext lists the other one, which is not Apple's. -/
def DependsOn (load : Bytes → Option Info) (t : Tree) (ocRoot : List Text) (es : List KextEntry)
    (e e' : KextEntry) : Prop :=
  e ∈ es ∧ e' ∈ es ∧ e'.identifier load t ocRoot ∈ e.libraries load t ocRoot ∧
    isApple (e'.identifier load t ocRoot) = false

/-- No kext depends on itself, directly or through others. -/
def Acyclic (load : Bytes → Option Info) (t : Tree) (ocRoot : List Text) (es : List KextEntry) :
    Prop :=
  ∀ e, ¬ Relation.TransGen (DependsOn load t ocRoot es) e e

/-- In a list with ascending keys, what is related never stands behind exactly when it has the
smaller key. -/
theorem pairwise_not_iff_key {α : Type*} {key : α → Text} {l : List α} {R : α → α → Prop}
    (hkey : l.Pairwise fun x y => key x < key y) :
    l.Pairwise (fun x y => ¬ R x y) ↔ ∀ x ∈ l, ∀ y ∈ l, x ≠ y → R x y → key y < key x := by
  rw [List.pairwise_iff_getElem] at hkey ⊢
  constructor
  · intro h x hx y hy hne hR
    obtain ⟨i, hi, rfl⟩ := List.getElem_of_mem hx
    obtain ⟨j, hj, rfl⟩ := List.getElem_of_mem hy
    rcases lt_trichotomy i j with hij | rfl | hji
    · exact absurd hR (h i j hi hj hij)
    · exact absurd rfl hne
    · exact hkey j i hj hi hji
  · intro h i j hi hj hij hR
    have hlt := hkey i j hi hj hij
    have hne : l[i] ≠ l[j] := fun heq => by
      rw [heq] at hlt
      exact lt_irrefl _ hlt
    exact lt_asymm hlt (h _ (List.getElem_mem hi) _ (List.getElem_mem hj) hne hR)

/-- The identifier that the validator reads for an argument. -/
def argIdentifier (load : Bytes → Option Info) (t : Tree) (ocRoot : List Text) (l : Text) : Text :=
  KextEntry.identifier load t ocRoot ⟨true, pathStr l, txt "Contents/Info.plist", []⟩

theorem identifiers_eq {p : PurePath} {ls : List Text}
    (h : List.Forall₂ (ReadsAs load t p) ls es) :
    es.map (·.identifier load t ocRoot) = ls.map (argIdentifier load t ocRoot) := by
  induction h with
  | nil => rfl
  | @cons l e ls es he _ ih =>
    have hid : e.identifier load t ocRoot = argIdentifier load t ocRoot l := by
      simp only [argIdentifier, KextEntry.identifier, KextEntry.plist, KextEntry.bundle,
        he.bundlePath, he.plistPath, pathStr]
    rw [List.map_cons, List.map_cons, hid, ih]

theorem enabled_of_readsAs {p : PurePath} {ls : List Text}
    (h : List.Forall₂ (ReadsAs load t p) ls es) : es.filter (·.enabled) = es := by
  induction h with
  | nil => rfl
  | cons he _ ih => rw [List.filter_cons_of_pos he.enabled, ih]

theorem bundlePaths_of_readsAs {p : PurePath} {ls : List Text}
    (h : List.Forall₂ (ReadsAs load t p) ls es) : es.map (·.bundlePath) = ls.map pathStr := by
  induction h with
  | nil => rfl
  | cons he _ ih => rw [List.map_cons, List.map_cons, he.bundlePath, ih, pathStr]

/-- The kexts of an accepted configuration. -/
theorem kextsValid_of_accepts {esp : List Text} {c : OcConfig}
    (h : accepts load t (ocDir esp) c) :
    KextsValid load t (ocDir esp) (c.kexts.filter (·.enabled)) :=
  scanKexts_iff.1 (accepts_iff_stages.1 h).1

/-- `EFI/OC` stands in the ESP. -/
theorem Build.ocPlace_eq (b : Build) : b.ocPlace = ocDir b.ocPlace.dropLast.dropLast := by
  have hsplit : b.below = b.below.dropLast.dropLast ++ [txt "EFI", txt "OC"] := by
    cases ht : b.target <;> simp [Build.below, ht]
  rw [Build.ocPlace, ocDir, hsplit]
  simp [List.dropLast_append_of_ne_nil]

/-- **The order of the kexts**: an accepted configuration lists them in the order of their sort
keys, with every dependency among them, and it respects the dependencies exactly when these have
the smaller keys. -/
theorem kext_order (b : Build) (other : Text → Text → Text) (load : Bytes → Option Info) (t : Tree)
    (a : Args) (sample config : Plist) (c : OcConfig) (hk : a.kexts = b.kextArguments other t)
    (hg : generate load t (.parse b.ocRoot) a sample = some config)
    (hc : readConfig config = some c) (hacc : accepts load t b.ocPlace c) :
    c.kexts.map (·.bundlePath) = a.kexts.map pathStr ∧
    a.kexts.Pairwise (fun l l' => b.sortKey l < b.sortKey l') ∧
    (∀ e ∈ c.kexts, ∀ d ∈ e.libraries load t b.ocPlace, isApple d = false →
      ∃ e' ∈ c.kexts, e'.identifier load t b.ocPlace = d) ∧
    (DependencyOrdered load t b.ocPlace c.kexts ↔
      ∀ p ∈ a.kexts.zip c.kexts, ∀ p' ∈ a.kexts.zip c.kexts, p ≠ p' →
        p'.2.identifier load t b.ocPlace ∈ p.2.libraries load t b.ocPlace →
          b.sortKey p'.1 < b.sortKey p.1) := by
  obtain ⟨arch, es, -, hreads, hc'⟩ := readConfig_generate hg
  obtain rfl := Option.some.inj (hc.symm.trans hc')
  change List.Forall₂ _ a.kexts (a.ocConfig arch es).kexts at hreads
  set kexts := (a.ocConfig arch es).kexts
  have hvalid : KextsValid load t b.ocPlace kexts := by
    rw [b.ocPlace_eq] at hacc ⊢
    have := kextsValid_of_accepts hacc
    rwa [enabled_of_readsAs hreads] at this
  -- entries with different identifiers have different arguments
  have hnodup : a.kexts.Nodup := by
    have := hvalid.distinct
    rw [identifiers_eq hreads] at this
    exact this.of_map
  have hsorted : a.kexts.Pairwise fun l l' => b.sortKey l < b.sortKey l' := by
    have hle : a.kexts.Pairwise fun l l' => b.sortKey l ≤ b.sortKey l' := by
      rw [hk]
      exact b.kextArguments_pairwise other
    exact hle.imp₂ (fun l l' hle hne => lt_of_le_of_ne hle fun h => hne (b.sortKey_injective h)) hnodup
  refine ⟨bundlePaths_of_readsAs hreads, hsorted, hvalid.satisfied, ?_⟩
  have hlen : a.kexts.length = kexts.length := hreads.length_eq
  have hfst : (a.kexts.zip kexts).map Prod.fst = a.kexts := List.map_fst_zip hlen.le
  have hsnd : (a.kexts.zip kexts).map Prod.snd = kexts := List.map_snd_zip hlen.ge
  have hkey : (a.kexts.zip kexts).Pairwise fun p p' => b.sortKey p.1 < b.sortKey p'.1 := by
    rw [← hfst, List.pairwise_map] at hsorted
    exact hsorted
  rw [← pairwise_not_iff_key hkey, DependencyOrdered]
  conv_lhs => rw [← hsnd, List.pairwise_map]

/-- Two bundles, the first of which depends on the second. -/
def pairTree : Tree :=
  let contents (name : String) := [txt name, txt "Contents"]
  let t := Build.chain (homeBuild.kextsPlace ++ contents "A.kext") (by
    refine List.forall_mem_append.2 ⟨fun c hc => (Build.names_kextsPlace _ c hc).1, ?_⟩
    simp [contents, IsEntryName, txt, dotDot])
  let t := (t.makeDirs homeBuild.kextsPlace (contents "B.kext")).getD t
  (t.ensureFile (homeBuild.kextsPlace ++ contents "A.kext") (txt "Info.plist") [0]).ensureFile
    (homeBuild.kextsPlace ++ contents "B.kext") (txt "Info.plist") [1]

/-- Their `Info.plist` files. -/
def pairInfo : Bytes → Option Info
  | [0] => some ⟨some (txt "org.A"), none, none, [txt "org.B"]⟩
  | [1] => some ⟨some (txt "org.B"), none, none, []⟩
  | _ => none

/-- The arguments of their build. -/
def pairArgs : Args :=
  ⟨.leopard, .vanilla, .verbose, .off, none, [], homeBuild.kextArguments (fun _ _ => []) pairTree,
    [], false, []⟩

/-- The entries of their configuration. -/
def pairEntries : List KextEntry :=
  [⟨true, txt "A.kext", txt "Contents/Info.plist", []⟩,
    ⟨true, txt "B.kext", txt "Contents/Info.plist", []⟩]

theorem pairArgs_kexts : pairArgs.kexts = [txt "A.kext", txt "B.kext"] := by decide +kernel

/-- A configuration with these entries is generated. -/
theorem exists_pairConfig : ∃ config,
    generate pairInfo pairTree (.parse homeBuild.ocRoot) pairArgs sampleSections = some config ∧
      readConfig config = some (pairArgs.ocConfig .i386User32 pairEntries) := by
  have hinfo : ∀ path ∈ pairArgs.kexts,
      (loadInfo pairInfo pairTree (((bundleOf (.parse homeBuild.ocRoot) path).join
        (component "Contents")).join (component "Info.plist"))).map Info.executable = some none ∧
      pathStr path = path := by
    rw [pairArgs_kexts]
    decide +kernel
  obtain ⟨config, hg⟩ := @exists_generate pairInfo pairTree (.parse homeBuild.ocRoot) pairArgs
    .i386User32 sampleSections hasSections_sample rfl (fun path hp hnone => by
      have := (hinfo path hp).1
      rw [hnone] at this
      cases this)
  obtain ⟨arch, es, harch, hreads, hc⟩ := readConfig_generate hg
  obtain rfl : .i386User32 = arch := Option.some.inj harch
  -- an entry is determined by its argument
  have hentry : ∀ path ∈ pairArgs.kexts, ∀ e,
      ReadsAs pairInfo pairTree (.parse homeBuild.ocRoot) path e →
      e = ⟨true, path, txt "Contents/Info.plist", []⟩ := by
    rintro path hp ⟨enabled, bundlePath, plistPath, executablePath⟩ he
    obtain ⟨info, hi, hexec⟩ := he.executablePath
    obtain ⟨hnone, hpath⟩ := hinfo path hp
    obtain hnone : info.executable = none := by simpa [hi] using hnone
    have hb : bundlePath = path := he.bundlePath.trans hpath
    have hx : executablePath = [] := by simpa [hnone] using hexec
    rw [hb, hx, show enabled = true from he.enabled,
      show plistPath = txt "Contents/Info.plist" from he.plistPath]
  rw [pairArgs_kexts] at hreads hentry
  obtain ⟨e, es', he, hes', rfl⟩ := List.forall₂_cons_left_iff.1 hreads
  obtain ⟨e', es'', he', hes'', rfl⟩ := List.forall₂_cons_left_iff.1 hes'
  obtain rfl := List.forall₂_nil_left_iff.1 hes''
  rw [hentry _ (by simp) e he, hentry _ (by simp) e' he'] at hc
  exact ⟨config, hg, hc⟩

theorem accepts_pair :
    accepts pairInfo pairTree homeBuild.ocPlace (pairArgs.ocConfig .i386User32 pairEntries) := by
  decide +kernel

theorem kext_order_pair :
    pairArgs.kexts.Pairwise fun l l' => homeBuild.sortKey l < homeBuild.sortKey l' := by
  obtain ⟨config, hg, hc⟩ := exists_pairConfig
  exact (kext_order homeBuild (fun _ _ => []) pairInfo pairTree pairArgs sampleSections config _ rfl
    hg hc accepts_pair).2.1

/-- **A dependent before its dependency**: nothing is cyclic, the configuration is accepted, and
the kext stands before the one it depends on. -/
theorem dependent_before_dependency : ∃ config c,
    generate pairInfo pairTree (.parse homeBuild.ocRoot) pairArgs sampleSections = some config ∧
      readConfig config = some c ∧ accepts pairInfo pairTree homeBuild.ocPlace c ∧
      Acyclic pairInfo pairTree homeBuild.ocPlace c.kexts ∧
      ¬ DependencyOrdered pairInfo pairTree homeBuild.ocPlace c.kexts := by
  obtain ⟨config, hg, hc⟩ := exists_pairConfig
  have hread : pairEntries.map (fun e => (e.identifier pairInfo pairTree homeBuild.ocPlace,
      e.libraries pairInfo pairTree homeBuild.ocPlace)) =
        [(txt "org.A", [txt "org.B"]), (txt "org.B", [])] := by
    decide +kernel
  have hne : txt "org.A" ≠ txt "org.B" := by simp [txt]
  simp only [pairEntries, List.map_cons, List.map_nil, List.cons.injEq, Prod.mk.injEq, and_true]
    at hread
  obtain ⟨⟨hidA, hlibA⟩, hidB, hlibB⟩ := hread
  refine ⟨config, _, hg, hc, accepts_pair, fun e h => ?_, fun h => ?_⟩
  · -- the second kext depends on nothing, so no path of dependencies goes on after it
    have hstep : ∀ {x y}, DependsOn pairInfo pairTree homeBuild.ocPlace pairEntries x y →
        x.libraries pairInfo pairTree homeBuild.ocPlace = [txt "org.B"] ∧
          y.libraries pairInfo pairTree homeBuild.ocPlace = [] := by
      rintro x y ⟨hx, hy, hlib, -⟩
      simp only [pairEntries, List.mem_cons, List.not_mem_nil, or_false] at hx hy
      rcases hx with rfl | rfl
      · rcases hy with rfl | rfl
        · rw [hidA, hlibA, List.mem_singleton] at hlib
          exact absurd hlib hne
        · exact ⟨hlibA, hlibB⟩
      · rw [hlibB] at hlib
        cases hlib
    have hends : ∀ {x y},
        Relation.TransGen (DependsOn pairInfo pairTree homeBuild.ocPlace pairEntries) x y →
        x.libraries pairInfo pairTree homeBuild.ocPlace = [txt "org.B"] ∧
          y.libraries pairInfo pairTree homeBuild.ocPlace = [] := by
      intro x y hxy
      induction hxy with
      | single h => exact hstep h
      | tail _ h ih => exact ⟨ih.1, (hstep h).2⟩
    have := hends h
    rw [this.1] at this
    cases this.2
  · have hpair := List.pairwise_pair.1 h
    rw [hidB, hlibA] at hpair
    exact hpair (List.mem_singleton_self _)

end Config

end InstallKit
