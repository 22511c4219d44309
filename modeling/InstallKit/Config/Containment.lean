import InstallKit.Config.Exactness

/-!
# Where the accepted paths lie

The validator looks a path up on the build host, joined as `pathlib` joins it.  A path that is
relative and never climbs out of its subdirectory names something strictly inside it, which is what
gets copied to the ESP (`accepted_references`).  An absolute path, or one that climbs out, is only
known to exist on the host (`absolute_path_accepted`).
-/

namespace InstallKit

namespace Config

open Sources

/-! ### Climbing -/

/-- From `n` levels below a directory the components never lead above it, and end below it. -/
def stays : ℕ → List Text → Bool
  | n, [] => 0 < n
  | n, c :: r => if c = dotDot then 0 < n && stays (n - 1) r else stays (n + 1) r

/-- The fold of such components ends strictly below the directory. -/
theorem foldl_of_stays {n : ℕ} {parts : List Text} (h : stays n parts = true) (dir below : List Text)
    (hn : below.length = n) :
    ∃ below', below' ≠ [] ∧
      parts.foldl (fun p c => if c = dotDot then p.dropLast else p ++ [c]) (dir ++ below) =
        dir ++ below' := by
  induction parts generalizing n below with
  | nil =>
    refine ⟨below, fun hb => ?_, rfl⟩
    rw [hb] at hn
    simp [stays, ← hn] at h
  | cons c parts ih =>
    rw [stays] at h
    rw [List.foldl_cons]
    by_cases hc : c = dotDot
    · rw [if_pos hc, Bool.and_eq_true, decide_eq_true_eq] at h
      have hne : below ≠ [] := by
        rintro rfl
        simp at hn
        omega
      rw [if_pos hc, List.dropLast_append_of_ne_nil hne]
      exact ih h.2 below.dropLast (by rw [List.length_dropLast, hn])
    · rw [if_neg hc] at h
      rw [if_neg hc, List.append_assoc]
      exact ih h (below ++ [c]) (by rw [List.length_append, hn]; rfl)

/-- **A path that stays below a directory** is strictly inside it. -/
theorem foldDots_of_stays {dir parts : List Text} (hdir : dotDot ∉ dir) (h : stays 0 parts = true) :
    ∃ below, below ≠ [] ∧ foldDots (dir ++ parts) = dir ++ below := by
  obtain ⟨below, hne, hb⟩ := foldl_of_stays h dir [] rfl
  refine ⟨below, hne, ?_⟩
  have hself : dir.foldl (fun p c => if c = dotDot then p.dropLast else p ++ [c]) [] = dir :=
    foldDots_eq_self hdir
  rw [List.append_nil] at hb
  rw [foldDots, List.foldl_append, hself, hb]

/-! ### References -/

/-- A reference of a configuration: a subdirectory of the tree and the texts joined to it. -/
structure Reference where
  dir : String
  texts : List Text

namespace Reference

/-- The path that the validator looks up. -/
def target (esp : List Text) (r : Reference) : PurePath :=
  r.texts.foldl (fun p s => p.join (.parse s))
    ((PurePath.ofPlace (ocDir esp)).join (component r.dir))

/-- No text is absolute, and together they stay below the subdirectory. -/
def IsLocal (r : Reference) : Prop :=
  (∀ s ∈ r.texts, (PurePath.parse s).root = []) ∧
    stays 0 (r.texts.flatMap fun s => (PurePath.parse s).parts) = true

/-- After resolving `.` and `..` the path lies strictly inside its subdirectory. -/
def Inside (esp : List Text) (r : Reference) : Prop :=
  ∃ below, below ≠ [] ∧ foldDots (r.target esp).parts = ocDir esp ++ [txt r.dir] ++ below

/-- Relative texts are appended. -/
theorem parts_foldl_join {texts : List Text} (h : ∀ s ∈ texts, (PurePath.parse s).root = [])
    (p : PurePath) :
    (texts.foldl (fun p s => p.join (.parse s)) p).parts =
      p.parts ++ texts.flatMap fun s => (PurePath.parse s).parts := by
  induction texts generalizing p with
  | nil => simp
  | cons s texts ih =>
    have hs := h s List.mem_cons_self
    rw [List.foldl_cons, ih (fun s' hs' => h s' (List.mem_cons_of_mem _ hs')), PurePath.join,
      if_pos hs, List.flatMap_cons, List.append_assoc]

theorem IsLocal.inside {esp : List Text} {r : Reference} (h : r.IsLocal)
    (hesp : dotDot ∉ ocDir esp ++ [txt r.dir]) : r.Inside esp := by
  have hparts : (r.target esp).parts = ocDir esp ++ [txt r.dir] ++
      r.texts.flatMap fun s => (PurePath.parse s).parts := by
    rw [target, parts_foldl_join h.1]
    rfl
  rw [Inside, hparts]
  exact foldDots_of_stays hesp h.2

end Reference

/-- The references of the enabled entries. -/
def OcConfig.references (c : OcConfig) : List Reference :=
  (c.acpi.filter (·.enabled)).map (fun e => ⟨"ACPI", [e.path]⟩) ++
  (c.drivers.filter (·.enabled)).map (fun e => ⟨"Drivers", [e.path]⟩) ++
  (c.tools.filter (·.enabled)).map (fun e => ⟨"Tools", [e.path]⟩) ++
  (c.kexts.filter (·.enabled)).flatMap fun e =>
    [⟨"Kexts", [e.bundlePath]⟩, ⟨"Kexts", [e.bundlePath, e.plistPath]⟩] ++
      if e.executablePath = [] then [] else [⟨"Kexts", [e.bundlePath, e.executablePath]⟩]

variable {load : Bytes → Option Info} {t : Tree} {esp : List Text} {c : OcConfig}

theorem dotDot_ne_dir {r : Reference} (hr : r ∈ c.references) : dotDot ≠ txt r.dir := by
  have hdirs : ∀ dir ∈ ["ACPI", "Drivers", "Tools", "Kexts"], dotDot ≠ txt dir := by
    simp [dotDot, txt]
  refine hdirs r.dir ?_
  simp only [OcConfig.references, List.mem_append, List.mem_map, List.mem_flatMap] at hr
  rcases hr with ((⟨e, -, rfl⟩ | ⟨e, -, rfl⟩) | ⟨e, -, rfl⟩) | ⟨e, -, hr⟩
  · simp
  · simp
  · simp
  · split at hr <;> aesop

/-- Every reference of an accepted configuration is found in the tree that the validator leaves. -/
theorem lookup_reference (hoc : t.node (ocDir esp) = some .dir)
    (h : accepts load t (ocDir esp) c) {r : Reference} (hr : r ∈ c.references) :
    ∃ n, (restored t esp).lookup (r.target esp) = some n := by
  have hv := (accepts_iff hoc).1 h
  have hext := extends_restored t esp
  have hfile : ∀ {path : PurePath}, t.isFile path = true →
      ∃ n, (restored t esp).lookup path = some n := fun hf =>
    have ⟨b, hb⟩ := Tree.isFile_iff.1 (Tree.isFile_mono hext hf)
    ⟨_, hb⟩
  simp only [OcConfig.references, List.mem_append, List.mem_map, List.mem_flatMap, List.mem_filter]
    at hr
  rcases hr with ((⟨e, ⟨he, hen⟩, rfl⟩ | ⟨e, ⟨he, hen⟩, rfl⟩) | ⟨e, ⟨he, hen⟩, rfl⟩) |
    ⟨e, he, hr⟩
  · exact hfile (hv.acpi e he hen)
  · exact hfile (hv.drivers e he hen)
  · -- the tools are looked up after the metadata files were restored
    obtain ⟨b, hb⟩ := Tree.isFile_iff.1 (hv.tools e he hen)
    exact ⟨_, hb⟩
  · have hok := hv.kexts.ok e (List.mem_filter.2 he)
    rcases hr with hr | hr
    · rcases List.mem_cons.1 hr with rfl | hr
      · exact ⟨_, Tree.isDir_iff.1 (Tree.isDir_mono hext hok.bundle)⟩
      · obtain rfl := List.mem_singleton.1 hr
        exact hfile hok.plist
    · split at hr
      · cases hr
      · rename_i hne
        obtain rfl := List.mem_singleton.1 hr
        exact hfile (hok.executable hne)

/-- **Accepted references**: each exists on the host, and one that is relative and does not climb
out of its subdirectory names something that stands strictly inside it. -/
theorem accepted_references (load : Bytes → Option Info) (t : Tree) (esp : List Text)
    (c : OcConfig) (hoc : t.node (ocDir esp) = some .dir) (h : accepts load t (ocDir esp) c) :
    ∀ r ∈ c.references, ∃ n, (validate load t (ocDir esp) c).1.lookup (r.target esp) = some n ∧
      (r.IsLocal → r.Inside esp ∧
        (validate load t (ocDir esp) c).1.node (foldDots (r.target esp).parts) = some n) := by
  intro r hr
  obtain ⟨n, hn⟩ := lookup_reference hoc h hr
  rw [tree_of_accepts h]
  refine ⟨n, hn, fun hlocal => ⟨hlocal.inside ?_, ?_⟩⟩
  · rw [List.mem_append, List.mem_singleton, not_or]
    exact ⟨Tree.dotDot_not_mem (by rw [hoc]; simp), dotDot_ne_dir hr⟩
  · obtain ⟨q, hq, hqn⟩ := Option.bind_eq_some_iff.1 hn
    rwa [← Tree.walk_foldDots hq]

/-- A staged tree with one table, on a host with another file. -/
def hostTree : Tree where
  entries := [([txt "EFI"], .dir), ([txt "EFI", txt "OC"], .dir),
    ([txt "EFI", txt "OC", txt "ACPI"], .dir),
    ([txt "EFI", txt "OC", txt "ACPI", txt "dsdt.aml"], .file []),
    ([txt "EFI", txt "BOOT"], .dir), ([txt "hostname"], .file [])]
  nodup := by simp [txt]
  named := by simp [IsEntryName, txt, dotDot]
  parent := by simp

/-- The table is inside. -/
theorem accepted_references_sample :
    (⟨"ACPI", [txt "dsdt.aml"]⟩ : Reference).Inside [] := by
  have hr : (⟨"ACPI", [txt "dsdt.aml"]⟩ : Reference) ∈
      (sampleConfig [⟨true, txt "dsdt.aml"⟩] []).references := by
    simp [OcConfig.references, sampleConfig]
  obtain ⟨n, -, h⟩ := accepted_references (fun _ => none) hostTree []
    (sampleConfig [⟨true, txt "dsdt.aml"⟩] []) (by decide +kernel) (by decide +kernel) _ hr
  exact (h ⟨by decide +kernel, by decide +kernel⟩).1

/-- **An absolute path is accepted**: it names a file of the host that is not in the tree. -/
theorem absolute_path_accepted :
    accepts (fun _ => none) hostTree (ocDir []) (sampleConfig [⟨true, txt "/hostname"⟩] []) ∧
      ⟨"ACPI", [txt "/hostname"]⟩ ∈ (sampleConfig [⟨true, txt "/hostname"⟩] []).references ∧
      ¬ (⟨"ACPI", [txt "/hostname"]⟩ : Reference).Inside [] := by
  have hnormal : foldDots ((⟨"ACPI", [txt "/hostname"]⟩ : Reference).target []).parts =
      [txt "hostname"] := by
    decide +kernel
  refine ⟨by decide +kernel, by simp [OcConfig.references, sampleConfig], ?_⟩
  rintro ⟨below, -, hb⟩
  rw [hnormal] at hb
  simp [ocDir] at hb

end Config

end InstallKit
