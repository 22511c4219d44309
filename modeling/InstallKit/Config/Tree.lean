import InstallKit.Sources.Text
import Mathlib.Data.List.Induction

/-!
# File trees and the paths of `pathlib`

A `Tree` is a finite set of places with what stands there, every one of them in a directory.  A
path is looked up as the kernel does it, component by component: `..` leads to the parent, and
every component but the last has to be a directory.  There are no links.

`PurePath` is the part of `pathlib` that knows nothing of files: `/` joins, an absolute right
operand replaces the left one, and `..` is kept.

* `Tree.walk_eq` : a path that leads somewhere leads to its normal form;
* `Tree.lookup_mono` : what stood in a tree stands in every tree that extends it.
-/

namespace InstallKit

open Sources

/-! ### Pure paths -/

/-- `PurePosixPath`. -/
structure PurePath where
  root : Text
  parts : List Text
  deriving DecidableEq

/-- The component `..`. -/
def dotDot : Text := ['.', '.']

namespace PurePath

/-- Empty components and `.` are dropped; exactly two leading slashes are a root of their own. -/
def parse (s : Text) : PurePath where
  root := if ¬ ['/'] <+: s then [] else
    if ['/', '/'] <+: s ∧ ¬ ['/', '/', '/'] <+: s then ['/', '/'] else ['/']
  parts := (s.splitOn '/').filter fun c => c ≠ [] ∧ c ≠ ['.']

/-- The operator `/`. -/
def join (p q : PurePath) : PurePath := if q.root = [] then ⟨p.root, p.parts ++ q.parts⟩ else q

/-- `str(path)`. -/
def toText (p : PurePath) : Text :=
  if p.root = [] ∧ p.parts = [] then ['.'] else p.root ++ ['/'].intercalate p.parts

/-- The path of a place. -/
def ofPlace (p : List Text) : PurePath := ⟨['/'], p⟩

end PurePath

/-- The components with `..` resolved; at the root it leads nowhere. -/
def foldDots (parts : List Text) : List Text :=
  parts.foldl (fun p c => if c = dotDot then p.dropLast else p ++ [c]) []

theorem foldDots_append_singleton (parts : List Text) (c : Text) :
    foldDots (parts ++ [c]) =
      if c = dotDot then (foldDots parts).dropLast else foldDots parts ++ [c] := by
  simp [foldDots]

/-- A path without `..` is in normal form. -/
theorem foldDots_eq_self {parts : List Text} (h : dotDot ∉ parts) : foldDots parts = parts := by
  induction parts using List.reverseRecOn with
  | nil => rfl
  | append_singleton parts c ih =>
    rw [List.mem_append, not_or, List.mem_singleton] at h
    rw [foldDots_append_singleton, if_neg fun hc => h.2 hc.symm, ih h.1]

/-! ### Trees -/

/-- The contents of a file. -/
abbrev Bytes := List UInt8

/-- What stands at a place.  The trees have no symbolic links. -/
inductive Node
  | file (b : Bytes)
  | dir
  deriving DecidableEq

/-- A name that an entry of a directory can have. -/
def IsEntryName (c : Text) : Prop := c ≠ [] ∧ '/' ∉ c ∧ c ≠ ['.'] ∧ c ≠ dotDot

instance (c : Text) : Decidable (IsEntryName c) := inferInstanceAs (Decidable (_ ∧ _))

/-- A file tree: every entry has a place of its own and stands in a directory. -/
structure Tree where
  entries : List (List Text × Node)
  nodup : (entries.map Prod.fst).Nodup
  named : ∀ e ∈ entries, e.1 ≠ [] ∧ ∀ c ∈ e.1, IsEntryName c
  parent : ∀ e ∈ entries, e.1.dropLast = [] ∨ (e.1.dropLast, Node.dir) ∈ entries

namespace Tree

variable {t t' : Tree} {p q : List Text} {n x : Node} {c : Text}

/-- What stands at a place. -/
def node (t : Tree) (p : List Text) : Option Node :=
  if p = [] then some .dir else t.entries.lookup p

@[simp] theorem node_nil (t : Tree) : t.node [] = some .dir := rfl

theorem mem_entries : (p, n) ∈ t.entries ↔ p ≠ [] ∧ t.node p = some n := by
  constructor
  · intro h
    have hne := (t.named _ h).1
    refine ⟨hne, ?_⟩
    obtain ⟨l₁, l₂, hl⟩ := List.append_of_mem h
    rw [node, if_neg hne, List.lookup_eq_some_iff]
    refine ⟨l₁, l₂, hl, fun e he => bne_iff_ne.2 fun heq => ?_⟩
    have hnd := t.nodup
    rw [hl, List.map_append, List.map_cons, List.nodup_append] at hnd
    exact hnd.2.2 e.1 (List.mem_map_of_mem he) p List.mem_cons_self heq.symm
  · rintro ⟨hne, h⟩
    rw [node, if_neg hne, List.lookup_eq_some_iff] at h
    obtain ⟨l₁, l₂, hl, -⟩ := h
    rw [hl]
    exact List.mem_append_right _ List.mem_cons_self

/-- What has something in it is a directory. -/
theorem node_parent (h : t.node (p ++ [c]) ≠ none) : t.node p = some .dir := by
  obtain ⟨x, hx⟩ := Option.ne_none_iff_exists'.1 h
  have hmem := mem_entries.2 ⟨by simp, hx⟩
  rcases t.parent _ hmem with h' | h'
  · obtain rfl : p = [] := by simpa using h'
    rfl
  · rw [List.dropLast_concat] at h'
    exact (mem_entries.1 h').2

/-- Everything above an existing place exists. -/
theorem exists_above (h : t.node (p ++ q) ≠ none) : t.node p ≠ none := by
  induction q using List.reverseRecOn with
  | nil => rwa [List.append_nil] at h
  | append_singleton q c ih =>
    rw [← List.append_assoc] at h
    exact ih (by rw [node_parent h]; simp)

/-- Everything above a directory is a directory. -/
theorem node_above (h : t.node (p ++ q) = some .dir) : t.node p = some .dir := by
  cases q with
  | nil => rwa [List.append_nil] at h
  | cons c q =>
    have hsplit : p ++ c :: q = p ++ [c] ++ q := by simp
    rw [hsplit] at h
    exact node_parent (exists_above (by rw [h]; simp))

/-- The places of a tree have no `..` in them. -/
theorem dotDot_not_mem (h : t.node p ≠ none) : dotDot ∉ p := by
  intro hm
  obtain ⟨x, hx⟩ := Option.ne_none_iff_exists'.1 h
  have hne : p ≠ [] := by rintro rfl; cases hm
  exact ((t.named _ (mem_entries.2 ⟨hne, hx⟩)).2 _ hm).2.2.2 rfl

/-- The place that a path leads to, from a directory on. -/
def walk (t : Tree) : List Text → List Text → Option (List Text)
  | p, [] => some p
  | p, c :: r =>
    if t.node p = some .dir then t.walk (if c = dotDot then p.dropLast else p ++ [c]) r else none

/-- What a path leads to. -/
def lookup (t : Tree) (path : PurePath) : Option Node := (t.walk [] path.parts).bind t.node

/-- `path.is_file()`. -/
def isFile (t : Tree) (path : PurePath) : Bool :=
  match t.lookup path with
  | some (.file _) => true
  | _ => false

/-- `path.is_dir()`. -/
def isDir (t : Tree) (path : PurePath) : Bool := t.lookup path = some .dir

/-- **A path that leads somewhere leads to its normal form.** -/
theorem walk_eq {r : List Text} (h : t.walk p r = some q) :
    q = r.foldl (fun p c => if c = dotDot then p.dropLast else p ++ [c]) p := by
  induction r generalizing p with
  | nil => exact (Option.some.inj h).symm
  | cons c r ih =>
    rw [walk] at h
    split at h
    · rw [List.foldl_cons]
      exact ih h
    · cases h

theorem walk_foldDots {r : List Text} (h : t.walk [] r = some q) : q = foldDots r := walk_eq h

/-! ### Growing trees -/

/-- Put something new into a directory. -/
def create (t : Tree) (p : List Text) (c : Text) (n : Node) (hp : t.node p = some .dir)
    (hnew : t.node (p ++ [c]) = none) (hc : IsEntryName c) : Tree where
  entries := t.entries ++ [(p ++ [c], n)]
  nodup := by
    rw [List.map_append, List.nodup_append]
    refine ⟨t.nodup, by simp, fun a ha b hb hab => ?_⟩
    obtain rfl : b = p ++ [c] := by simpa using hb
    obtain ⟨⟨q, x⟩, he, rfl⟩ := List.mem_map.1 ha
    obtain rfl : q = p ++ [c] := hab
    rw [(mem_entries.1 he).2] at hnew
    cases hnew
  named := by
    intro e he
    rcases List.mem_append.1 he with he | he
    · exact t.named e he
    · obtain rfl := List.mem_singleton.1 he
      refine ⟨by simp, fun d hd => ?_⟩
      rcases List.mem_append.1 hd with hd | hd
      · have hne : p ≠ [] := by rintro rfl; cases hd
        exact (t.named _ (mem_entries.2 ⟨hne, hp⟩)).2 d hd
      · obtain rfl := List.mem_singleton.1 hd
        exact hc
  parent := by
    intro e he
    rcases List.mem_append.1 he with he | he
    · exact (t.parent e he).imp_right (List.mem_append_left _)
    · obtain rfl := List.mem_singleton.1 he
      by_cases hne : p = []
      · exact Or.inl (by simp [hne])
      · rw [List.dropLast_concat]
        exact Or.inr (List.mem_append_left _ (mem_entries.2 ⟨hne, hp⟩))

/-- `mkdir(parents=True, exist_ok=True)`, from a directory on.  A file in the way is an error, and
then nothing is created. -/
def makeDirs (t : Tree) : List Text → List Text → Option Tree
  | _, [] => some t
  | p, c :: r =>
    match h : t.node (p ++ [c]) with
    | some .dir => t.makeDirs (p ++ [c]) r
    | some (.file _) => none
    | none =>
      if hp : t.node p = some .dir ∧ IsEntryName c then
        (t.create p c .dir hp.1 h hp.2).makeDirs (p ++ [c]) r
      else none

/-- Write a file into a directory unless something of its name is there. -/
def ensureFile (t : Tree) (p : List Text) (c : Text) (b : Bytes) : Tree :=
  if h : t.node p = some .dir ∧ t.node (p ++ [c]) = none ∧ IsEntryName c then
    t.create p c (.file b) h.1 h.2.1 h.2.2
  else t

/-- Everything that stood in the first tree stands in the second. -/
def Extends (t t' : Tree) : Prop := ∀ p n, t.node p = some n → t'.node p = some n

theorem Extends.refl (t : Tree) : t.Extends t := fun _ _ h => h

theorem Extends.trans {t'' : Tree} (h : t.Extends t') (h' : t'.Extends t'') : t.Extends t'' :=
  fun p n hp => h' p n (h p n hp)

theorem node_create {hp : t.node p = some .dir} {hnew : t.node (p ++ [c]) = none}
    {hc : IsEntryName c} :
    (t.create p c n hp hnew hc).node q = if q = p ++ [c] then some n else t.node q := by
  have hnot : ∀ x, (p ++ [c], x) ∉ t.entries := by
    intro x hx
    rw [(mem_entries.1 hx).2] at hnew
    cases hnew
  by_cases hq : q = p ++ [c]
  · subst hq
    rw [if_pos rfl]
    exact (mem_entries.1 (List.mem_append_right _ (List.mem_singleton_self _))).2
  · rw [if_neg hq]
    by_cases hne : q = []
    · rw [hne]; rfl
    · rw [node, node, if_neg hne, if_neg hne, create, List.lookup_append]
      have hbeq : (q == p ++ [c]) = false := by simpa using hq
      rw [List.lookup_cons, hbeq]
      simp

theorem extends_create {hp : t.node p = some .dir} {hnew : t.node (p ++ [c]) = none}
    {hc : IsEntryName c} : t.Extends (t.create p c n hp hnew hc) := by
  intro q x hq
  rw [node_create, if_neg ?_, hq]
  rintro rfl
  rw [hnew] at hq
  cases hq

theorem extends_ensureFile (t : Tree) (p : List Text) (c : Text) (b : Bytes) :
    t.Extends (t.ensureFile p c b) := by
  unfold ensureFile
  split
  · exact extends_create
  · exact .refl t

/-- The file is there afterwards. -/
theorem node_ensureFile {b : Bytes} (hp : t.node p = some .dir) (hc : IsEntryName c) :
    (t.ensureFile p c b).node (p ++ [c]) = some ((t.node (p ++ [c])).getD (.file b)) := by
  unfold ensureFile
  split
  · rename_i h
    rw [node_create, if_pos rfl, h.2.1, Option.getD_none]
  · rename_i h
    cases hn : t.node (p ++ [c]) with
    | none => exact absurd ⟨hp, hn, hc⟩ h
    | some x => rfl

theorem ensureFile_eq_self {b : Bytes} (h : t.node (p ++ [c]) ≠ none) : t.ensureFile p c b = t :=
  dif_neg fun h' => h h'.2.1

theorem node_ensureFile_ne {b : Bytes} (h : q ≠ p ++ [c]) :
    (t.ensureFile p c b).node q = t.node q := by
  unfold ensureFile
  split
  · rw [node_create, if_neg h]
  · rfl

/-- No directory is created. -/
theorem node_ensureFile_dir {b : Bytes} :
    (t.ensureFile p c b).node q = some .dir ↔ t.node q = some .dir := by
  unfold ensureFile
  split
  · rename_i h
    rw [node_create]
    split
    · rename_i hq
      rw [hq, h.2.1]
      simp
    · rfl
  · rfl

theorem extends_makeDirs {r : List Text} (h : t.makeDirs p r = some t') : t.Extends t' := by
  induction r generalizing t p with
  | nil =>
    obtain rfl := Option.some.inj h
    exact .refl t
  | cons c r ih =>
    unfold makeDirs at h
    split at h
    · exact ih h
    · cases h
    · split at h
      · exact extends_create.trans (ih h)
      · cases h

/-- The directory is there afterwards. -/
theorem node_makeDirs {r : List Text} (hp : t.node p = some .dir) (h : t.makeDirs p r = some t') :
    t'.node (p ++ r) = some .dir := by
  induction r generalizing t p with
  | nil =>
    obtain rfl := Option.some.inj h
    rwa [List.append_nil]
  | cons c r ih =>
    have hsplit : p ++ c :: r = p ++ [c] ++ r := by simp
    unfold makeDirs at h
    rw [hsplit]
    split at h
    · rename_i hc
      exact ih hc h
    · cases h
    · split at h
      · exact ih (by rw [node_create, if_pos rfl]) h
      · cases h

/-- Only directories on the way are created. -/
theorem node_makeDirs_ne {r : List Text} (h : t.makeDirs p r = some t') (hq : ¬ q <+: p ++ r) :
    t'.node q = t.node q := by
  induction r generalizing t p with
  | nil =>
    obtain rfl := Option.some.inj h
    rfl
  | cons c r ih =>
    have hsplit : p ++ c :: r = p ++ [c] ++ r := by simp
    rw [hsplit] at hq
    unfold makeDirs at h
    split at h
    · exact ih h hq
    · cases h
    · split at h
      · rw [ih h hq, node_create, if_neg]
        rintro rfl
        exact hq (List.prefix_append _ _)
      · cases h

/-- A file in the way stays in the way. -/
theorem makeDirs_eq_none_of_file {r : List Text} {b : Bytes} (h : t.node (p ++ [c]) = some (.file b)) :
    t.makeDirs p (c :: r) = none := by
  unfold makeDirs
  split
  · rename_i hc
    rw [h] at hc
    cases hc
  · rfl
  · rename_i hc
    rw [h] at hc
    cases hc

theorem makeDirs_append {r r' : List Text} (h : t.node (p ++ r) = some .dir) :
    t.makeDirs p (r ++ r') = t.makeDirs (p ++ r) r' := by
  induction r generalizing p with
  | nil => rw [List.nil_append, List.append_nil]
  | cons c r ih =>
    have hsplit : p ++ c :: r = p ++ [c] ++ r := by simp
    rw [hsplit] at h ⊢
    rw [List.cons_append, makeDirs]
    split
    · exact ih h
    · rename_i hc
      rw [node_above h] at hc
      cases hc
    · rename_i hc
      rw [node_above h] at hc
      cases hc

theorem makeDirs_eq_self {r : List Text} (h : t.node (p ++ r) = some .dir) :
    t.makeDirs p r = some t := by
  induction r generalizing p with
  | nil => rfl
  | cons c r ih =>
    have hsplit : p ++ c :: r = p ++ [c] ++ r := by simp
    rw [hsplit] at h
    have hc : t.node (p ++ [c]) = some .dir := node_above h
    unfold makeDirs
    split
    · exact ih h
    · rename_i hf
      rw [hc] at hf
      cases hf
    · rename_i hf
      rw [hc] at hf
      cases hf

theorem walk_mono (h : t.Extends t') {r : List Text} (hw : t.walk p r = some q) :
    t'.walk p r = some q := by
  induction r generalizing p with
  | nil => exact hw
  | cons c r ih =>
    rw [walk] at hw ⊢
    split at hw
    · rename_i hdir
      rw [if_pos (h _ _ hdir)]
      exact ih hw
    · cases hw

/-- Only directories matter on the way. -/
theorem walk_congr (h : ∀ p, t.node p = some .dir ↔ t'.node p = some .dir) (p r : List Text) :
    t.walk p r = t'.walk p r := by
  induction r generalizing p with
  | nil => rfl
  | cons c r ih =>
    rw [walk, walk, ih]
    simp only [h]

/-- **A tree that grows answers as before** where it answered. -/
theorem lookup_mono (h : t.Extends t') {path : PurePath} (hl : t.lookup path = some n) :
    t'.lookup path = some n := by
  obtain ⟨q, hq, hn⟩ := Option.bind_eq_some_iff.1 hl
  exact Option.bind_eq_some_iff.2 ⟨q, walk_mono h hq, h _ _ hn⟩

theorem isFile_iff {path : PurePath} :
    t.isFile path = true ↔ ∃ b, t.lookup path = some (.file b) := by
  unfold isFile
  split
  · rename_i b hb
    simp [hb]
  · rename_i hno
    simp only [Bool.false_eq_true, false_iff]
    rintro ⟨b, hb⟩
    exact hno b hb

theorem isDir_iff {path : PurePath} : t.isDir path = true ↔ t.lookup path = some .dir := by
  simp [isDir]

theorem isFile_mono (h : t.Extends t') {path : PurePath} (hf : t.isFile path = true) :
    t'.isFile path = true := by
  obtain ⟨b, hb⟩ := isFile_iff.1 hf
  exact isFile_iff.2 ⟨b, lookup_mono h hb⟩

theorem isDir_mono (h : t.Extends t') {path : PurePath} (hf : t.isDir path = true) :
    t'.isDir path = true :=
  isDir_iff.2 (lookup_mono h (isDir_iff.1 hf))

end Tree

end InstallKit
