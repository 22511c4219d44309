import Mathlib.Data.List.TakeWhile
import InstallKit.Sources.Text
import InstallKit.Text.Occurrences

/-!
# What `diskutil` prints, and how the scripts read it

`diskutil info` prints one line for every field, `diskutil list` one for every partition and some
headings.  The scripts read both with `awk`: a field is the second piece of a line cut at `: *`, a
partition the last word of a line that holds a number and a colon.

* `Field.fieldTwo_line` : the piece is the value up to its first colon.
* `Field.infix_line` : a word is on a line when it is in the key or in the value.
* `mem_diskPartitionSlices` : the slices that are read are the listed ones, without what lies below
  a slice (`disk3s1s1`).
-/

namespace InstallKit

namespace Mac

open Sources

/-! ### The reports -/

/-- A field of `diskutil info`. -/
structure Field where
  indent : ℕ
  key : Text
  pad : ℕ
  value : Text
  colon_not_mem : ':' ∉ key
  newline_not_mem : '\n' ∉ key ++ value

/-- Its line. -/
def Field.line (f : Field) : Text :=
  List.replicate f.indent ' ' ++ (f.key ++ ':' :: (List.replicate f.pad ' ' ++ f.value))

/-- The answer of `diskutil info`. -/
structure Report where
  status : ℕ
  fields : List Field

def Report.lines (r : Report) : List Text := r.fields.map Field.line

/-- The name of a disk (`disk2`), of a slice (`disk2s1`) or of something below a slice
(`disk3s1s1`). -/
structure Ident where
  disk : Text
  parts : List Text
  digits : ∀ d ∈ disk :: parts, d ≠ [] ∧ ∀ c ∈ d, c.isDigit = true

def Ident.text (i : Ident) : Text :=
  'd' :: 'i' :: 's' :: 'k' :: (i.disk ++ i.parts.flatMap fun p => 's' :: p)

/-- The path of the device. -/
def Ident.dev (i : Ident) : Text := txt "/dev/" ++ i.text

/-- A partition in `diskutil list`; `body` holds its type, its name and its size. -/
structure Row where
  indent : ℕ
  number : Text
  body : Text
  ident : Ident
  number_ne_nil : number ≠ []
  digits : ∀ c ∈ number, c.isDigit = true
  newline_not_mem : '\n' ∉ body

def Row.line (r : Row) : Text :=
  List.replicate r.indent ' ' ++ (r.number ++ ':' :: ' ' :: (r.body ++ ' ' :: r.ident.text))

/-! ### Reading them -/

/-- `[[:space:]]` -/
def isSpace (c : Char) : Bool := c ∈ [' ', '\t', '\n', '\x0b', '\x0c', '\r']

/-- What separates the fields of `awk`. -/
def isBlank (c : Char) : Bool := c ∈ [' ', '\t', '\n']

/-- `/[0-9]+:[[:space:]]/` -/
def isRow (t : Text) : Bool :=
  t.tails.any fun
    | d :: ':' :: c :: _ => d.isDigit && isSpace c
    | _ => false

/-- `$NF` -/
def lastField (t : Text) : Text :=
  ((t.reverse.dropWhile isBlank).takeWhile fun c => !isBlank c).reverse

/-- `^disk[0-9]+s[0-9]+$` -/
def isSlice : Text → Bool
  | 'd' :: 'i' :: 's' :: 'k' :: t =>
    match t.dropWhile Char.isDigit with
    | 's' :: m => t.takeWhile Char.isDigit ≠ [] && m ≠ [] && m.all Char.isDigit
    | _ => false
  | _ => false

/-- `disk_partition_slices` of `prepare_aspire4310_macos.sh` -/
def diskPartitionSlices (listing : List Text) : List Text :=
  (((listing.filter isRow).map lastField).filter isSlice).map (txt "/dev/" ++ ·)

/-- The pipeline in `disk_has_protected_volume` of `prepare_asus_1215p_snowleopard.sh`, which puts
`/dev/` in front before it looks for the slices. -/
def listedSlices (listing : List Text) : List Text :=
  ((listing.filter isRow).map fun l => txt "/dev/" ++ lastField l).filter fun t =>
    (txt "/dev/").isPrefixOf t && isSlice (t.drop (txt "/dev/").length)

/-- `$2` of a line cut at `: *`. -/
def fieldTwo (t : Text) : Text :=
  (((t.dropWhile (· ≠ ':')).drop 1).dropWhile (· = ' ')).takeWhile (· ≠ ':')

/-- `awk -F': *' '/word/ {print $2; exit}'` -/
def firstValue (word : Text) (lines : List Text) : Text :=
  ((lines.find? fun l => word <:+: l).map fieldTwo).getD []

/-- A line of `diskutil list`: a partition, or one that `awk` does not take for a partition. -/
inductive Entry
  | row (r : Row)
  | other (t : Text) (h : isRow t = false)

def Entry.line : Entry → Text
  | row r => r.line
  | other t _ => t

/-! ### A line of `diskutil info` -/

/-- A word without a colon that does not begin with a space is on the line of a field when it is
in its key or in its value. -/
theorem Field.infix_line {w : Text} (hc : ':' ∉ w) (hs : w.head? ≠ some ' ') (f : Field) :
    w <:+: f.line ↔ w <:+: f.key ∨ w <:+: f.value := by
  unfold Field.line
  rw [InstallKit.Text.infix_replicate_append_iff hs, InstallKit.Text.infix_append_cons_iff hc,
    InstallKit.Text.infix_replicate_append_iff hs]

/-- What `awk` shows of a value. -/
def Field.shown (f : Field) : Text := (f.value.dropWhile (· = ' ')).takeWhile (· ≠ ':')

theorem dropWhile_replicate_append {n : ℕ} {t : Text} :
    (List.replicate n ' ' ++ t).dropWhile (· = ' ') = t.dropWhile (· = ' ') :=
  List.dropWhile_append_of_pos fun c hc => by simp [List.eq_of_mem_replicate hc]

theorem Field.fieldTwo_line (f : Field) : fieldTwo f.line = f.shown := by
  have hkey : ∀ c ∈ List.replicate f.indent ' ' ++ f.key, decide (c ≠ ':') = true := by
    intro c hc
    rw [decide_eq_true_eq]
    rintro rfl
    rcases List.mem_append.1 hc with hc | hc
    · exact absurd (List.eq_of_mem_replicate hc) (by decide)
    · exact f.colon_not_mem hc
  have hline : f.line = (List.replicate f.indent ' ' ++ f.key) ++
      ':' :: (List.replicate f.pad ' ' ++ f.value) := by
    rw [Field.line, List.append_assoc]
  rw [fieldTwo, hline, List.dropWhile_append_of_pos hkey, List.dropWhile_cons,
    if_neg (by simp), List.drop_one, List.tail_cons, dropWhile_replicate_append, Field.shown]

/-- The first field that mentions the word decides. -/
theorem Report.firstValue_lines {w : Text} (hc : ':' ∉ w) (hs : w.head? ≠ some ' ') (r : Report) :
    firstValue w r.lines =
      ((r.fields.find? fun f => w <:+: f.key ∨ w <:+: f.value).map Field.shown).getD [] := by
  unfold firstValue Report.lines
  induction r.fields with
  | nil => rfl
  | cons f fs ih =>
    rw [List.map_cons, List.find?_cons, List.find?_cons]
    have hf : decide (w <:+: f.line) = decide (w <:+: f.key ∨ w <:+: f.value) :=
      decide_eq_decide.2 (f.infix_line hc hs)
    rw [hf]
    cases decide (w <:+: f.key ∨ w <:+: f.value) with
    | true => rw [Option.map_some, Option.map_some, f.fieldTwo_line]
    | false => exact ih

/-! ### A line of `diskutil list` -/

theorem ne_of_isDigit {c d : Char} (hc : c.isDigit = true) (hd : d.isDigit = false) : c ≠ d := by
  rintro rfl
  rw [hc] at hd
  exact absurd hd (by decide)

/-- No blank is in the name of a device. -/
theorem Ident.not_blank (i : Ident) : ∀ c ∈ i.text, isBlank c = false := by
  have hdigit : ∀ c : Char, c.isDigit = true → isBlank c = false := by
    intro c hc
    have h₁ := ne_of_isDigit hc (d := ' ') rfl
    have h₂ := ne_of_isDigit hc (d := '\t') rfl
    have h₃ := ne_of_isDigit hc (d := '\n') rfl
    simp [isBlank, h₁, h₂, h₃]
  intro c hc
  simp only [Ident.text, List.mem_cons, List.mem_append, List.mem_flatMap] at hc
  rcases hc with rfl | rfl | rfl | rfl | hc | ⟨p, hp, rfl | hc⟩
  · rfl
  · rfl
  · rfl
  · rfl
  · exact hdigit c ((i.digits i.disk List.mem_cons_self).2 c hc)
  · rfl
  · exact hdigit c ((i.digits p (List.mem_cons_of_mem _ hp)).2 c hc)

theorem Row.lastField_line (r : Row) : lastField r.line = r.ident.text := by
  have hline : r.line.reverse = r.ident.text.reverse ++
      ' ' :: (List.replicate r.indent ' ' ++ (r.number ++ ':' :: ' ' :: r.body)).reverse := by
    simp [Row.line]
  have hblank : ∀ c ∈ r.ident.text.reverse, isBlank c = false :=
    fun c hc => r.ident.not_blank c (List.mem_reverse.1 hc)
  have hdrop : r.line.reverse.dropWhile isBlank = r.line.reverse := by
    rw [hline]
    cases hx : r.ident.text.reverse with
    | nil => exact absurd (List.reverse_eq_nil_iff.1 hx) (List.cons_ne_nil _ _)
    | cons c t =>
      have hc : isBlank c = false := hblank c (by rw [hx]; exact List.mem_cons_self)
      rw [List.cons_append, List.dropWhile_cons, if_neg (by simp [hc])]
  rw [lastField, hdrop, hline, List.takeWhile_append_of_pos fun c hc => by simp [hblank c hc],
    List.takeWhile_cons, if_neg (by decide), List.append_nil, List.reverse_reverse]

theorem Row.isRow_line (r : Row) : isRow r.line = true := by
  -- the last digit, the colon and the space after it
  obtain ⟨ds, d, hd⟩ : ∃ ds d, r.number = ds ++ [d] :=
    ⟨_, _, (List.dropLast_append_getLast r.number_ne_nil).symm⟩
  have hdigit : d.isDigit = true := r.digits d (by rw [hd]; simp)
  refine List.any_eq_true.2 ⟨d :: ':' :: ' ' :: (r.body ++ ' ' :: r.ident.text), ?_, ?_⟩
  · rw [List.mem_tails]
    exact ⟨List.replicate r.indent ' ' ++ ds, by simp [Row.line, hd]⟩
  · simp [hdigit, isSpace]

/-- The names that the regular expression takes are those of slices. -/
theorem Ident.isSlice_text (i : Ident) : isSlice i.text = true ↔ i.parts.length = 1 := by
  have hdisk := i.digits i.disk List.mem_cons_self
  have hs : ¬ Char.isDigit 's' = true := by decide
  cases hp : i.parts with
  | nil =>
    have hdrop : i.disk.dropWhile Char.isDigit = [] := List.dropWhile_eq_nil_iff.2 hdisk.2
    simp [Ident.text, hp, isSlice, hdrop]
  | cons p ps =>
    have hpart := i.digits p (by rw [hp]; simp)
    have hdrop : (i.disk ++ 's' :: (p ++ ps.flatMap fun p => 's' :: p)).dropWhile Char.isDigit =
        's' :: (p ++ ps.flatMap fun p => 's' :: p) := by
      rw [List.dropWhile_append_of_pos hdisk.2, List.dropWhile_cons, if_neg hs]
    have htake : (i.disk ++ 's' :: (p ++ ps.flatMap fun p => 's' :: p)).takeWhile Char.isDigit =
        i.disk := by
      rw [List.takeWhile_append_of_pos hdisk.2, List.takeWhile_cons, if_neg hs, List.append_nil]
    have htext : i.text = 'd' :: 'i' :: 's' :: 'k' ::
        (i.disk ++ 's' :: (p ++ ps.flatMap fun p => 's' :: p)) := by
      simp [Ident.text, hp]
    have hall : p.all Char.isDigit = true := List.all_eq_true.2 hpart.2
    rw [htext, isSlice, hdrop]
    simp only [htake]
    cases ps with
    | nil => simp [hdisk.1, hpart.1, hall]
    | cons q qs => simp [hs]

/-- **What is read are the slices**, and nothing below a slice. -/
theorem mem_diskPartitionSlices {listing : List Entry} {x : Text} :
    x ∈ diskPartitionSlices (listing.map Entry.line) ↔
      ∃ r, Entry.row r ∈ listing ∧ r.ident.parts.length = 1 ∧ x = r.ident.dev := by
  simp only [diskPartitionSlices, List.mem_map, List.mem_filter]
  constructor
  · rintro ⟨_, ⟨⟨_, ⟨⟨e, he, rfl⟩, hrow⟩, rfl⟩, hslice⟩, rfl⟩
    cases e with
    | row r =>
      rw [Entry.line, r.lastField_line] at hslice ⊢
      exact ⟨r, he, r.ident.isSlice_text.1 hslice, rfl⟩
    | other t h => rw [Entry.line, h] at hrow; cases hrow
  · rintro ⟨r, hr, hslice, rfl⟩
    refine ⟨_, ⟨⟨_, ⟨⟨_, hr, rfl⟩, r.isRow_line⟩, rfl⟩, ?_⟩, ?_⟩
    · rw [Entry.line, r.lastField_line]
      exact r.ident.isSlice_text.2 hslice
    · rw [Entry.line, r.lastField_line, Ident.dev]

/-- Both scripts read the same slices. -/
theorem listedSlices_eq (listing : List Text) :
    listedSlices listing = diskPartitionSlices listing := by
  unfold listedSlices diskPartitionSlices
  rw [List.filter_map, List.filter_map, List.map_map]
  have hfilter : ((fun t => (txt "/dev/").isPrefixOf t && isSlice (t.drop (txt "/dev/").length)) ∘
      fun l => txt "/dev/" ++ lastField l) = isSlice ∘ lastField := by
    funext l
    simp
  rw [hfilter]
  rfl

end Mac

end InstallKit
