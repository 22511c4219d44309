import InstallKit.Profiles.NormalForm
import InstallKit.Sources.PyJson
import InstallKit.Text.Utf8

/-!
# Saving a profile, operation by operation

`save_profile` makes the directory of a profile first and then writes three files into it, one after
the other, in the encoding of the locale.  Its caller catches `OSError` and `RuntimeError`; a name
that cannot be encoded raises neither.  Whatever goes wrong once the directory is there leaves it
behind, and a directory that is there is never written to again.

* `writeFiles_eq_none_iff`, `writeFiles_complete` : when the three files are written.
* `all_or_nothing_iff` : a run leaves all or nothing exactly when it ends before the directory is
  made or nothing goes wrong after it.
* `half_saved_for_good` : one name that is not saved, and cannot be saved any more.
-/

namespace InstallKit

namespace Profiles

open Sources

/-! ### Dictionaries and shell files of any strings -/

/-- `d[key] = value` -/
def setKey {α : Type} (key : Text) (value : α) : List (Text × α) → List (Text × α)
  | [] => [(key, value)]
  | (k, v) :: items => if k = key then (key, value) :: items else (k, v) :: setKey key value items

/-- `d.get(key) or default` -/
def getOrDefault (items : List (Text × PyText)) (key default : Text) : PyText :=
  match items.lookup key with
  | some value => if value = [] then .ofText default else value
  | none => .ofText default

/-- A character that `shlex.quote` leaves unquoted. -/
def isSafeChar : PyChar → Bool
  | .char c => isSafe c
  | .surrogate _ => false

/-- Every single quote is put between double quotes. -/
def escapeChar (c : PyChar) : PyText :=
  if c = .char '\'' then .ofText ['\'', '"', '\'', '"', '\''] else [c]

/-- `shlex.quote` -/
def quoteStr (s : PyText) : PyText :=
  if s = [] then .ofText ['\'', '\'']
  else if s.all isSafeChar then s
  else .char '\'' :: (s.flatMap escapeChar ++ [.char '\''])

/-- A line of `write_shell_conf`. -/
def confLine (field : Text × PyText) : PyText :=
  .ofText (field.1 ++ ['=']) ++ quoteStr field.2 ++ [.char '\n']

/-- What `write_shell_conf` writes. -/
def shellConf (fields : List (Text × PyText)) : PyText :=
  .ofText (unlines confHeader) ++ ((fields.mergeSort fun a b => a.1 ≤ b.1).map confLine).flatten

theorem flatMap_escapeChar (t : Text) :
    (PyText.ofText t).flatMap escapeChar = PyText.ofText (escapeQuotes t) := by
  induction t with
  | nil => rfl
  | cons c t ih =>
    have hcons : PyText.ofText (c :: t) = .char c :: PyText.ofText t := rfl
    rw [hcons, List.flatMap_cons, ih, escapeQuotes, escapeChar]
    by_cases hc : c = '\''
    · rw [if_pos (congrArg PyChar.char hc), if_pos hc]
      rfl
    · rw [if_neg fun h => hc (PyChar.char.inj h), if_neg hc]
      rfl

theorem quoteStr_ofText (t : Text) : quoteStr (.ofText t) = .ofText (quote t) := by
  have hsafe : (PyText.ofText t).all isSafeChar = t.all isSafe := by
    rw [PyText.ofText, List.all_map]
    rfl
  have hnil : PyText.ofText t = [] ↔ t = [] := List.map_eq_nil_iff
  simp only [quoteStr, quote, hsafe, hnil, flatMap_escapeChar]
  split
  · rfl
  · split
    · rfl
    · simp [PyText.ofText]

/-- Without surrogates it is the file of texts. -/
theorem shellConf_ofText (fields : List (Text × Text)) :
    shellConf (fields.map fun kv => (kv.1, .ofText kv.2)) = .ofText (writeShellConf fields) := by
  have hsort : (sortFields fields).map (fun kv => (kv.1, PyText.ofText kv.2)) =
      (fields.map fun kv => (kv.1, PyText.ofText kv.2)).mergeSort fun a b => a.1 ≤ b.1 :=
    List.map_mergeSort fun _ _ _ _ => rfl
  have hline : ∀ kv : Text × Text, confLine (kv.1, .ofText kv.2) =
      .ofText ((kv.1 ++ '=' :: quote kv.2) ++ ['\n']) := by
    intro kv
    rw [confLine, quoteStr_ofText]
    simp [PyText.ofText]
  have hlines : ((sortFields fields).map fun kv => confLine (kv.1, .ofText kv.2)).flatten =
      PyText.ofText (unlines ((sortFields fields).map fun kv => kv.1 ++ '=' :: quote kv.2)) := by
    rw [List.map_congr_left fun kv _ => hline kv]
    simp only [unlines, PyText.ofText, List.map_flatten, List.map_map, Function.comp_def]
  rw [shellConf, ← hsort, List.map_map, writeShellConf, unlines_append, PyText.ofText_append,
    ← hlines]
  rfl

/-! ### `save_profile` -/

/-- The files of a profile, in the order in which they are written. -/
inductive FileName
  | hardwareConf
  | profileConf
  | profileJson
  deriving DecidableEq

def FileName.all : List FileName := [hardwareConf, profileConf, profileJson]

/-- The arguments of `save_profile`, and the time. -/
structure Saving where
  displayName : PyText
  fields : List (Text × PyText)
  details : List (Text × PyJson)
  warnings : List PyText
  now : Text

namespace Saving

variable (p : Saving)

def slug : Text := slugOf p.displayName

def hardwareFields : List (Text × PyText) :=
  setKey (txt "PROFILE_CREATED_UTC") (.ofText p.now)
    (setKey (txt "PROFILE_SLUG") (.ofText p.slug)
      (setKey (txt "PROFILE_DISPLAY_NAME") p.displayName p.fields))

def profileConf : List (Text × PyText) :=
  [(txt "PROFILE_NAME", p.displayName),
    (txt "PROFILE_SLUG", .ofText p.slug),
    (txt "PROFILE_STATUS", .ofText (txt "analysis")),
    (txt "PROFILE_KIND", .ofText (txt "hardware-analysis")),
    (txt "PROFILE_ARCH", (p.hardwareFields.lookup (txt "TARGET_ARCH")).getD
      (.ofText (txt "unknown"))),
    (txt "PROFILE_FORM_FACTOR", (p.hardwareFields.lookup (txt "TARGET_FORM_FACTOR")).getD
      (.ofText (txt "PC"))),
    (txt "PROFILE_CREATED_UTC", .ofText p.now)] ++
  match p.hardwareFields.lookup (txt "TARGET_REQUESTED_OS_PROFILE") with
  | some os => if os = [] then [] else [(txt "PROFILE_REQUESTED_OS", os)]
  | none => []

def payload : PyJson :=
  .dict (setKey (txt "warnings") (.list (p.warnings.map .str))
    (setKey (txt "hardware_fields") (.dict (p.hardwareFields.map fun kv => (kv.1, .str kv.2)))
      (setKey (txt "created_utc") (.str (.ofText p.now))
        (setKey (txt "profile_slug") (.str (.ofText p.slug))
          (setKey (txt "profile_display_name") (.str p.displayName) p.details)))))

/-- What is to be in a file. -/
def text : FileName → PyText
  | .hardwareConf => shellConf p.hardwareFields
  | .profileConf => shellConf p.profileConf
  | .profileJson => .ofText (p.payload.dumps 0 ++ ['\n'])

end Saving

/-- How `write_text` fails. -/
inductive WriteFault
  /-- The file is not opened. -/
  | opening
  /-- The file is opened, and no more than so many bytes arrive. -/
  | writing (n : ℕ)

/-- The operations that fail in a run. -/
structure Faults where
  /-- The run ends with this status before anything is saved. -/
  early : Option { status : ℕ // status ≠ 0 }
  /-- `directory.exists()` -/
  exists? : Bool
  /-- Making `profiles_dir`, if it is not there. -/
  parents : Bool
  /-- Making the directory of the profile. -/
  mkdir : Bool
  write : FileName → Option WriteFault
  /-- What was saved cannot be printed, and the run ends with this status. -/
  report : Option { status : ℕ // status ≠ 0 }

/-- The exceptions. -/
inductive Exc
  | osError
  | runtimeError
  | unicodeEncodeError
  deriving DecidableEq

/-- The encoding of the locale; `none` is a `UnicodeEncodeError`. -/
abbrev Codec := PyText → Option (List UInt8)

/-- The contents of the files of a directory. -/
abbrev Files := FileName → Option (List UInt8)

/-- A file that was opened has new contents. -/
def put (files : Files) (f : FileName) (content : Option (List UInt8)) : Files :=
  fun g => if g = f then content.or (files g) else files g

/-- What stands in `profiles_dir`. -/
inductive Entry
  | directory (files : Files)
  | other

/-- `profiles_dir`, by the names in it, if it is there. -/
abbrev ProfilesDir := Option (Text → Option Entry)

/-- One more directory. -/
def addDirectory (dirs : Text → Option Entry) (name : Text) (files : Files) : Text → Option Entry :=
  fun k => if k = name then some (.directory files) else dirs k

@[simp] theorem addDirectory_self (dirs : Text → Option Entry) (name : Text) (files : Files) :
    addDirectory dirs name files name = some (.directory files) := if_pos rfl

section

variable (encode : Codec) (x : Faults) (p : Saving)

/-- `path.write_text(text)`: what is in the file afterwards, if it was opened. -/
def writeText (fault : Option WriteFault) (text : PyText) : Option (List UInt8) × Option Exc :=
  match fault, encode text with
  | some .opening, _ => (none, some .osError)
  | _, none => (some [], some .unicodeEncodeError)
  | some (.writing n), some bytes => (some (bytes.take n), some .osError)
  | none, some bytes => (some bytes, none)

/-- The files are written until one of them raises. -/
def writeFiles : List FileName → Files → Files × Option Exc
  | [], files => (files, none)
  | f :: rest, files =>
    match writeText encode (x.write f) (p.text f) with
    | (content, some e) => (put files f content, some e)
    | (content, none) => writeFiles rest (put files f content)

/-- `profiles_dir` after its own `mkdir`. -/
def makeParents (profiles : ProfilesDir) : ProfilesDir :=
  match profiles with
  | some dirs => some dirs
  | none => if x.parents then none else some fun _ => none

/-- `save_profile` -/
def saveProfile (profiles : ProfilesDir) : ProfilesDir × Option Exc :=
  if x.exists? then (profiles, some .osError)
  else if (profiles.bind (· p.slug)).isSome then (profiles, some .runtimeError)
  else
    match makeParents x profiles with
    | none => (none, some .osError)
    | some dirs =>
      if x.mkdir then (some dirs, some .osError)
      else
        let written := writeFiles encode x p FileName.all fun _ => none
        (some (addDirectory dirs p.slug written.1), written.2)

end

/-! ### `main` -/

/-- `str.strip()` -/
def stripStr (s : PyText) : PyText :=
  let isSpace : PyChar → Bool
    | .char c => isPySpace c
    | .surrogate _ => false
  (s.dropWhile isSpace).rdropWhile isSpace

/-- What a run of `--mode new` is given. -/
structure Session where
  /-- `--name` -/
  name : Option PyText
  /-- The user is asked for a name. -/
  interactive : Bool
  /-- What the user enters, if anything. -/
  line : Option PyText
  fields : List (Text × PyText)
  details : List (Text × PyJson)
  warnings : List PyText
  now : Text

namespace Session

variable (s : Session)

/-- `suggested_profile_name` -/
def suggestion : PyText :=
  getOrDefault s.fields (txt "PROFILE_HOSTNAME") (txt "unknown-host") ++ .ofText (txt " + ") ++
  getOrDefault s.fields (txt "TARGET_CPU") (txt "Unknown x86 CPU") ++ .ofText (txt " + ") ++
  getOrDefault s.fields (txt "TARGET_ARCH") (txt "AMD64") ++ .ofText (txt " + ") ++
  getOrDefault s.fields (txt "TARGET_FORM_FACTOR") (txt "PC")

/-- The name that is entered or suggested. -/
def answer : PyText :=
  if s.interactive then
    let entered := stripStr (s.line.getD [])
    if entered = [] then s.suggestion else entered
  else s.suggestion

/-- `display_name or suggestion` -/
def displayName : PyText :=
  let name := s.name.getD []
  let displayName := if name = [] then s.answer else stripStr name
  if displayName = [] then s.suggestion else displayName

def saving : Saving := ⟨s.displayName, s.fields, s.details, s.warnings, s.now⟩

end Session

/-- The rest of `main`: what is in `profiles_dir` afterwards, and the exit status. -/
def runNew (encode : Codec) (x : Faults) (s : Session) (profiles : ProfilesDir) : ProfilesDir × ℕ :=
  match x.early with
  | some status => (profiles, status)
  | none =>
    match saveProfile encode x s.saving profiles with
    | (profiles, some .osError) => (profiles, 1)
    | (profiles, some .runtimeError) => (profiles, 1)
    -- it is not caught: a traceback, and the status of the interpreter
    | (profiles, some .unicodeEncodeError) => (profiles, 1)
    | (profiles, none) =>
      match x.report with
      | some status => (profiles, status)
      | none => (profiles, 0)

/-! ### The three files -/

section

variable {encode : Codec} {x : Faults} {p : Saving} {s : Session} {fs : List FileName}
  {files : Files} {f : FileName}

/-- The file is opened and its text is encoded and written. -/
def Writable (encode : Codec) (x : Faults) (p : Saving) (f : FileName) : Prop :=
  x.write f = none ∧ encode (p.text f) ≠ none

/-- What one `write_text` does. -/
theorem writeText_spec (encode : Codec) (x : Faults) (p : Saving) (f : FileName) :
    (∃ bytes, x.write f = none ∧ encode (p.text f) = some bytes ∧
      writeText encode (x.write f) (p.text f) = (some bytes, none)) ∨
    (¬ Writable encode x p f ∧ ∃ content e,
      writeText encode (x.write f) (p.text f) = (content, some e)) := by
  unfold Writable writeText
  cases hfault : x.write f with
  | none =>
    cases hbytes : encode (p.text f) with
    | none => exact Or.inr ⟨by simp, _, _, rfl⟩
    | some bytes => exact Or.inl ⟨bytes, rfl, rfl, rfl⟩
  | some fault =>
    right
    refine ⟨by simp, ?_⟩
    cases fault with
    | opening => exact ⟨_, _, rfl⟩
    | writing n =>
      cases encode (p.text f) with
      | none => exact ⟨_, _, rfl⟩
      | some bytes => exact ⟨_, _, rfl⟩

/-- A file that is not written stays as it is. -/
theorem writeFiles_of_not_mem (hf : f ∉ fs) :
    (writeFiles encode x p fs files).1 f = files f := by
  induction fs generalizing files with
  | nil => rfl
  | cons g rest ih =>
    rw [List.mem_cons, not_or] at hf
    rw [writeFiles]
    split
    · exact if_neg hf.1
    · rw [ih hf.2]
      exact if_neg hf.1

/-- **No file raises** exactly when every file is written. -/
theorem writeFiles_eq_none_iff :
    (writeFiles encode x p fs files).2 = none ↔ ∀ f ∈ fs, Writable encode x p f := by
  induction fs generalizing files with
  | nil => simp [writeFiles]
  | cons g rest ih =>
    rw [List.forall_mem_cons, writeFiles]
    rcases writeText_spec encode x p g with
      ⟨bytes, hfault, hbytes, hwrite⟩ | ⟨hnot, content, e, hwrite⟩
    · rw [hwrite]
      have hg : Writable encode x p g := ⟨hfault, by rw [hbytes]; exact Option.some_ne_none _⟩
      simp only [hg, true_and]
      exact ih
    · -- the first file that raises ends the pass
      rw [hwrite]
      simp only [hnot, false_and, reduceCtorEq]

/-- **Every file is complete** when none raises. -/
theorem writeFiles_complete (h : ∀ f ∈ fs, Writable encode x p f) (hf : f ∈ fs) :
    (writeFiles encode x p fs files).1 f = encode (p.text f) := by
  induction fs generalizing files with
  | nil => cases hf
  | cons g rest ih =>
    rw [List.forall_mem_cons] at h
    rw [writeFiles]
    rcases writeText_spec encode x p g with ⟨bytes, -, hbytes, hwrite⟩ | ⟨hnot, -⟩
    · rw [hwrite]
      by_cases hrest : f ∈ rest
      · exact ih h.2 hrest
      · -- it is this file, and none of the later ones
        obtain rfl := (List.mem_cons.1 hf).resolve_right hrest
        simp only [writeFiles_of_not_mem hrest, put, if_true, Option.some_or, hbytes]
    · exact absurd h.1 hnot

theorem FileName.mem_all (f : FileName) : f ∈ FileName.all := by cases f <;> decide

/-! ### All or nothing -/

/-- The files hold what is to be in them. -/
def Complete (encode : Codec) (p : Saving) (files : Files) : Prop :=
  ∀ f, ∃ bytes, encode (p.text f) = some bytes ∧ files f = some bytes

/-- The run leaves the whole profile and succeeds, or leaves everything as it was and fails. -/
def AllOrNothing (encode : Codec) (p : Saving) (before : ProfilesDir) (r : ProfilesDir × ℕ) :
    Prop :=
  (r.2 = 0 ∧ ∃ dirs files, r.1 = some dirs ∧ dirs p.slug = some (.directory files) ∧
    Complete encode p files) ∨
  (r.2 ≠ 0 ∧ r.1 = before)

/-- The run ends before it has made a directory. -/
def Refused (x : Faults) (p : Saving) (before : ProfilesDir) : Prop :=
  x.early ≠ none ∨ x.exists? = true ∨ (before.bind (· p.slug)).isSome ∨
    (before = none ∧ x.parents = true) ∨ (before ≠ none ∧ x.mkdir = true)

/-- Nothing goes wrong from the directory on. -/
def Smooth (encode : Codec) (x : Faults) (p : Saving) : Prop :=
  x.mkdir = false ∧ (∀ f, Writable encode x p f) ∧ x.report = none

variable {before after : ProfilesDir}

/-- Nothing is made. -/
theorem saveProfile_of_refused (encode : Codec) (h : Refused x p before) (hearly : x.early = none) :
    ∃ e, saveProfile encode x p before = (before, some e) := by
  unfold saveProfile
  by_cases hexists : x.exists? = true
  · exact ⟨_, if_pos hexists⟩
  rw [if_neg hexists]
  by_cases htaken : (before.bind (· p.slug)).isSome = true
  · exact ⟨_, if_pos htaken⟩
  rw [if_neg htaken]
  rcases h with hx | hx | hx | ⟨rfl, hparents⟩ | ⟨hdir, hmkdir⟩
  · exact absurd hearly hx
  · exact absurd hx hexists
  · exact absurd hx htaken
  · simp only [makeParents, hparents, if_true]
    exact ⟨_, rfl⟩
  · obtain ⟨dirs, rfl⟩ := Option.ne_none_iff_exists'.1 hdir
    simp only [makeParents, hmkdir, if_true]
    exact ⟨_, rfl⟩

/-- Something is made: an empty `profiles_dir`, or the directory of the profile with what
`writeFiles` leaves in it. -/
theorem saveProfile_of_not_refused (encode : Codec) (h : ¬ Refused x p before) :
    (before.bind (· p.slug)) = none ∧
    ((before = none ∧ x.mkdir = true ∧
      saveProfile encode x p before = (some fun _ => none, some .osError)) ∨
    (x.mkdir = false ∧ ∃ dirs, dirs p.slug = some
        (.directory (writeFiles encode x p FileName.all fun _ => none).1) ∧
      saveProfile encode x p before =
        (some dirs, (writeFiles encode x p FileName.all fun _ => none).2))) := by
  simp only [Refused, not_or, not_and] at h
  obtain ⟨-, hexists, htaken, hparents, hmkdir⟩ := h
  have hfree : before.bind (· p.slug) = none := by simpa using htaken
  refine ⟨hfree, ?_⟩
  unfold saveProfile
  rw [if_neg hexists, if_neg htaken]
  cases before with
  | none =>
    simp only [makeParents, if_neg (hparents rfl)]
    by_cases hm : x.mkdir = true
    · rw [if_pos hm]
      exact Or.inl ⟨trivial, hm, rfl⟩
    · rw [if_neg hm]
      exact Or.inr ⟨by simpa using hm, _, addDirectory_self (fun _ => none) p.slug _, rfl⟩
  | some dirs =>
    have hm : ¬ x.mkdir = true := hmkdir (Option.some_ne_none _)
    simp only [makeParents, if_neg hm]
    exact Or.inr ⟨by simpa using hm, _, addDirectory_self dirs p.slug _, rfl⟩

theorem runNew_of_exc {e : Exc} (hearly : x.early = none)
    (h : saveProfile encode x s.saving before = (after, some e)) :
    runNew encode x s before = (after, 1) := by
  rw [runNew, hearly]
  simp only [h]
  cases e <;> rfl

theorem runNew_of_none (hearly : x.early = none)
    (h : saveProfile encode x s.saving before = (after, none)) :
    runNew encode x s before = (after, (x.report.map Subtype.val).getD 0) := by
  rw [runNew, hearly]
  simp only [h]
  cases x.report <;> rfl

/-- **The exact condition**: a run leaves the whole profile or nothing exactly when it ends before a
directory is made, or nothing goes wrong from then on. -/
theorem all_or_nothing_iff (encode : Codec) (x : Faults) (s : Session) (before : ProfilesDir) :
    AllOrNothing encode s.saving before (runNew encode x s before) ↔
      Refused x s.saving before ∨ Smooth encode x s.saving := by
  by_cases hrefused : Refused x s.saving before
  · simp only [hrefused, true_or, iff_true]
    -- nothing has changed, and the status is not 0
    right
    cases hearly : x.early with
    | some status =>
      have hrun : runNew encode x s before = (before, status.1) := by rw [runNew, hearly]
      rw [hrun]
      exact ⟨status.2, rfl⟩
    | none =>
      obtain ⟨e, he⟩ := saveProfile_of_refused encode hrefused hearly
      rw [runNew_of_exc hearly he]
      exact ⟨Nat.one_ne_zero, rfl⟩
  simp only [hrefused, false_or]
  have hearly : x.early = none := by
    by_contra hx
    exact hrefused (Or.inl hx)
  obtain ⟨hfree, hcases⟩ := saveProfile_of_not_refused encode hrefused
  rcases hcases with ⟨rfl, hmkdir, hsave⟩ | ⟨hmkdir, dirs, hslug, hsave⟩
  · -- `profiles_dir` is new
    rw [runNew_of_exc hearly hsave]
    constructor
    · rintro (⟨h, -⟩ | ⟨-, h⟩)
      · exact absurd h Nat.one_ne_zero
      · cases h
    · rintro ⟨h, -⟩
      rw [hmkdir] at h
      cases h
  · -- the directory is there, whatever is in it
    have hchanged : some dirs ≠ before := by
      rintro rfl
      rw [Option.bind_some, hslug] at hfree
      cases hfree
    cases hexc : (writeFiles encode x s.saving FileName.all fun _ => none).2 with
    | some e =>
      -- a file is missing or not whole
      rw [hexc] at hsave
      rw [runNew_of_exc hearly hsave]
      constructor
      · rintro (⟨h, -⟩ | ⟨-, h⟩)
        · exact absurd h Nat.one_ne_zero
        · exact absurd h hchanged
      · rintro ⟨-, hall, -⟩
        rw [writeFiles_eq_none_iff.2 fun f _ => hall f] at hexc
        cases hexc
    | none =>
      have hall : ∀ f, Writable encode x s.saving f := fun f =>
        writeFiles_eq_none_iff.1 hexc f (FileName.mem_all f)
      rw [hexc] at hsave
      rw [runNew_of_none hearly hsave]
      cases hreport : x.report with
      | some status =>
        constructor
        · rintro (⟨h, -⟩ | ⟨-, h⟩)
          · exact absurd h status.2
          · exact absurd h hchanged
        · rintro ⟨-, -, h⟩
          rw [hreport] at h
          cases h
      | none =>
        -- all three files, and status 0
        refine iff_of_true (Or.inl ⟨rfl, dirs, _, rfl, hslug, fun f => ?_⟩) ⟨hmkdir, hall, hreport⟩
        obtain ⟨bytes, hbytes⟩ := Option.ne_none_iff_exists'.1 (hall f).2
        refine ⟨bytes, hbytes, ?_⟩
        rw [writeFiles_complete (fun f _ => hall f) (FileName.mem_all f), hbytes]

/-! ### A name that cannot be encoded -/

/-- UTF-8, which has no surrogates. -/
def utf8Codec : Codec := fun s => s.text?.map utf8

theorem utf8Codec_of_surrogate {t : PyText} {byte : Fin 128} (h : .surrogate byte ∈ t) :
    utf8Codec t = none := by
  rw [utf8Codec, Option.map_eq_none_iff]
  by_contra hsome
  obtain ⟨t', ht'⟩ := Option.ne_none_iff_exists'.1 hsome
  rw [PyText.text?_eq_some.1 ht', PyText.ofText, List.mem_map] at h
  obtain ⟨c, -, hc⟩ := h
  cases hc

theorem mem_setKey {α : Type} (key : Text) (value : α) (items : List (Text × α)) :
    (key, value) ∈ setKey key value items := by
  induction items with
  | nil => exact List.mem_singleton_self _
  | cons kv items ih =>
    rw [setKey]
    split
    · exact List.mem_cons_self
    · exact List.mem_cons_of_mem _ ih

theorem mem_setKey_of_ne {α : Type} {key : Text} {value : α} {items : List (Text × α)}
    {kv : Text × α} (h : kv ∈ items) (hne : kv.1 ≠ key) : kv ∈ setKey key value items := by
  induction items with
  | nil => cases h
  | cons kv' items ih =>
    rw [setKey]
    rcases List.mem_cons.1 h with rfl | h
    · rw [if_neg hne]
      exact List.mem_cons_self
    · split
      · exact List.mem_cons_of_mem _ h
      · exact List.mem_cons_of_mem _ (ih h)

/-- A surrogate survives quoting. -/
theorem surrogate_mem_quoteStr {t : PyText} {byte : Fin 128} (h : .surrogate byte ∈ t) :
    .surrogate byte ∈ quoteStr t := by
  have hunsafe : ¬ t.all isSafeChar = true := fun hall =>
    absurd (List.all_eq_true.1 hall _ h) (by simp [isSafeChar])
  rw [quoteStr, if_neg (List.ne_nil_of_mem h), if_neg hunsafe]
  refine List.mem_cons_of_mem _ (List.mem_append_left _ (List.mem_flatMap.2 ⟨_, h, ?_⟩))
  simp [escapeChar]

/-- **A name with a surrogate** is in no file in UTF-8. -/
theorem not_encodable_of_surrogate {byte : Fin 128} (h : .surrogate byte ∈ p.displayName) :
    utf8Codec (p.text .hardwareConf) = none := by
  have hslug : txt "PROFILE_DISPLAY_NAME" ≠ txt "PROFILE_SLUG" := by decide +kernel
  have hcreated : txt "PROFILE_DISPLAY_NAME" ≠ txt "PROFILE_CREATED_UTC" := by decide +kernel
  -- the keys that are assigned after the name are others
  have hfield : (txt "PROFILE_DISPLAY_NAME", p.displayName) ∈ p.hardwareFields :=
    mem_setKey_of_ne (mem_setKey_of_ne (mem_setKey _ _ _) hslug) hcreated
  have hline : .surrogate byte ∈ confLine (txt "PROFILE_DISPLAY_NAME", p.displayName) :=
    List.mem_append_left _ (List.mem_append_right _ (surrogate_mem_quoteStr h))
  have hconf : .surrogate byte ∈ shellConf p.hardwareFields :=
    List.mem_append_right _ (List.mem_flatten.2
      ⟨_, List.mem_map_of_mem (List.mem_mergeSort.2 hfield), hline⟩)
  exact utf8Codec_of_surrogate hconf

/-- A name in Latin-1 on the command line: its last byte is no character in UTF-8. -/
def latinSession : Session :=
  ⟨some [.char 'c', .char 'a', .char 'f', .surrogate 0x69], false, none, [], [], [],
    txt "2024-01-01T00:00:00+00:00"⟩

/-- No operation fails. -/
def noFaults : Faults := ⟨none, false, false, false, fun _ => none, none⟩

/-- **Half saved, for good**: no operation fails, and the run leaves a directory that is not
complete; the next run with this name is refused and leaves it there. -/
theorem half_saved_for_good : ∃ after,
    runNew utf8Codec noFaults latinSession (some fun _ => none) = (after, 1) ∧
      ¬ AllOrNothing utf8Codec latinSession.saving (some fun _ => none) (after, 1) ∧
      runNew utf8Codec noFaults latinSession after = (after, 1) := by
  -- the name goes into the first file and cannot be encoded
  have hname : .surrogate 0x69 ∈ latinSession.saving.displayName := by decide +kernel
  have hexc : (writeFiles utf8Codec noFaults latinSession.saving FileName.all fun _ => none).2 ≠
      none := fun h =>
    (writeFiles_eq_none_iff.1 h .hardwareConf (FileName.mem_all _)).2
      (not_encodable_of_surrogate hname)
  obtain ⟨e, he⟩ := Option.ne_none_iff_exists'.1 hexc
  have hfresh : ¬ Refused noFaults latinSession.saving (some fun _ => none) := by
    simp [Refused, noFaults]
  obtain ⟨hfree, ⟨h, -⟩ | ⟨-, dirs, hslug, hsave⟩⟩ :=
    saveProfile_of_not_refused utf8Codec hfresh
  · cases h
  rw [he] at hsave
  refine ⟨some dirs, runNew_of_exc rfl hsave, ?_, ?_⟩
  · rintro (⟨h, -⟩ | ⟨-, h⟩)
    · exact absurd h Nat.one_ne_zero
    · change some dirs = _ at h
      rw [← h, Option.bind_some, hslug] at hfree
      cases hfree
  · -- the directory that was left behind is in the way
    have htaken : Refused noFaults latinSession.saving (some dirs) := by
      refine Or.inr (Or.inr (Or.inl ?_))
      rw [Option.bind_some, hslug]
      rfl
    obtain ⟨e', he'⟩ := saveProfile_of_refused utf8Codec htaken rfl
    exact runNew_of_exc rfl he'

end

end Profiles

end InstallKit
