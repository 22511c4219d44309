import Mathlib.Data.Char
import Mathlib.Data.List.Lex
import Mathlib.Data.List.Nodup
import InstallKit.Sources.Bash

/-!
# Profile files of the shell

`write_shell_conf` of `generic_pc_profile.py` writes a dictionary of fields as a file of
assignments, every value quoted by `shlex.quote`; `bash` sources it.

* `scan_quote` : a quoted text is read as the text.
* `run_writeShellConf` : the file performs the assignments of the fields and nothing else.
* `run_eq_setAll`, `setAll_of_mem`, `setAll_of_not_mem` : afterwards every key has its own value, and
  nothing else has changed.

`bash` has variables of its own: some are read-only (an error), some are computed (no effect), and
with others an assignment does more than keep the value.  A dictionary with a read-only key is not
read back (`run_of_readOnly`).
-/

namespace InstallKit

namespace Profiles

open Sources

/-! ### Writing -/

/-- A character that `shlex.quote` leaves unquoted. -/
def isSafe (c : Char) : Bool :=
  c.isAlphanum || c ∈ ['_', '@', '%', '+', '=', ':', ',', '.', '/', '-']

/-- Every single quote is put between double quotes, outside of the single ones. -/
def escapeQuotes : Text → Text
  | [] => []
  | c :: t =>
    if c = '\'' then '\'' :: '"' :: '\'' :: '"' :: '\'' :: escapeQuotes t else c :: escapeQuotes t

/-- `shlex.quote` -/
def quote (s : Text) : Text :=
  if s = [] then ['\'', '\'']
  else if s.all isSafe then s
  else '\'' :: (escapeQuotes s ++ ['\''])

/-- The first lines of a file. -/
def confHeader : List Text :=
  [txt "# Autogenerated local hardware-analysis profile.",
    txt "# Review detected values before using them for macOS work.",
    txt "# No SMBIOS/kernel/kext/ACPI choices are implied by this file.",
    []]

/-- The keys and values of a dictionary in the order of `sorted`. -/
def sortFields (fields : List (Text × Text)) : List (Text × Text) :=
  fields.mergeSort fun a b => a.1 ≤ b.1

/-- `write_shell_conf`; the values are those of `str`. -/
def writeShellConf (fields : List (Text × Text)) : Text :=
  unlines (confHeader ++ (sortFields fields).map fun kv => kv.1 ++ '=' :: quote kv.2)

/-! ### Sourcing -/

/-- The variables of a shell. -/
abbrev Vars := Text → Option Text

/-- What `bash` does with an assignment to a variable. -/
inductive Kind
  /-- It keeps the value. -/
  | ordinary
  /-- It reports an error. -/
  | readOnly
  /-- It goes on with a value of its own. -/
  | computed
  /-- It may do more: evaluate the value, or change its options or other variables. -/
  | special
  deriving DecidableEq

/-- The variables of `bash` that are read-only. -/
def readOnlyNames : List Text :=
  [txt "BASHOPTS", txt "BASH_VERSINFO", txt "EUID", txt "PPID", txt "SHELLOPTS", txt "UID"]

/-- The variables of `bash` to which an assignment has no effect or another one. -/
def computedNames : List Text :=
  [txt "_", txt "BASHPID", txt "BASH_ARGC", txt "BASH_ARGV", txt "BASH_COMMAND",
    txt "BASH_LINENO", txt "BASH_MONOSECONDS", txt "BASH_SOURCE", txt "BASH_SUBSHELL",
    txt "DIRSTACK", txt "EPOCHREALTIME", txt "EPOCHSECONDS", txt "FUNCNAME", txt "GROUPS",
    txt "HISTCMD", txt "LINENO", txt "PIPESTATUS", txt "RANDOM", txt "SECONDS", txt "SRANDOM"]

/-- The other variables that `bash` reads or sets.  `OPTIND` is a number, so its value is evaluated
(and may run a command); `BASH_ARGV0` renames the script; `POSIXLY_CORRECT` changes `SHELLOPTS`. -/
def specialNames : List Text :=
  [txt "BASH", txt "BASH_ALIASES", txt "BASH_ARGV0", txt "BASH_CMDS", txt "BASH_COMPAT",
    txt "BASH_ENV", txt "BASH_EXECUTION_STRING", txt "BASH_LOADABLES_PATH", txt "BASH_REMATCH",
    txt "BASH_TRAPSIG", txt "BASH_VERSION", txt "BASH_XTRACEFD", txt "CDPATH", txt "CHILD_MAX",
    txt "COLUMNS", txt "COMPREPLY", txt "COMP_CWORD", txt "COMP_KEY", txt "COMP_LINE",
    txt "COMP_POINT",
    txt "COMP_TYPE", txt "COMP_WORDBREAKS", txt "COMP_WORDS", txt "COPROC", txt "EMACS",
    txt "ENV", txt "EXECIGNORE", txt "FCEDIT", txt "FIGNORE", txt "FUNCNEST", txt "GLOBIGNORE",
    txt "GLOBSORT", txt "HISTCONTROL", txt "HISTFILE", txt "HISTFILESIZE", txt "HISTIGNORE",
    txt "HISTSIZE", txt "HISTTIMEFORMAT", txt "HOME", txt "HOSTFILE", txt "HOSTNAME",
    txt "HOSTTYPE", txt "IFS", txt "IGNOREEOF", txt "INPUTRC", txt "INSIDE_EMACS", txt "LANG",
    txt "LC_ALL", txt "LC_COLLATE", txt "LC_CTYPE", txt "LC_MESSAGES", txt "LC_NUMERIC",
    txt "LC_TIME", txt "LINES", txt "LOCPATH", txt "MACHTYPE", txt "MAIL", txt "MAILCHECK",
    txt "MAILPATH", txt "MAPFILE", txt "OLDPWD", txt "OPTARG", txt "OPTERR", txt "OPTIND",
    txt "OSTYPE", txt "PATH", txt "POSIXLY_CORRECT", txt "POSIX_PEDANTIC", txt "PROMPT_COMMAND",
    txt "PROMPT_DIRTRIM", txt "PS0", txt "PS1", txt "PS2", txt "PS3", txt "PS4", txt "PWD",
    txt "READLINE_ARGUMENT", txt "READLINE_LINE", txt "READLINE_MARK", txt "READLINE_POINT",
    txt "REPLY", txt "SHELL", txt "SHLVL", txt "TERM", txt "TERMCAP", txt "TERMINFO",
    txt "TEXTDOMAIN", txt "TEXTDOMAINDIR", txt "TIMEFORMAT", txt "TMOUT", txt "TMPDIR", txt "TZ",
    txt "auto_resume", txt "histchars", txt "ignoreeof"]

/-- What `bash` does with an assignment to the variable. -/
def kindOf (name : Text) : Kind :=
  if name ∈ readOnlyNames then .readOnly
  else if name ∈ computedNames then .computed
  else if name ∈ specialNames then .special
  else .ordinary

namespace Vars

variable (σ : Vars)

def set (name value : Text) : Vars := fun x => if x = name then some value else σ x

/-- The assignments, one after the other. -/
def setAll (fields : List (Text × Text)) : Vars := fields.foldl (fun σ kv => σ.set kv.1 kv.2) σ

/-- An assignment; `none` where it is an error, or not only an assignment. -/
def assign (name value : Text) : Option Vars :=
  match kindOf name with
  | .ordinary => some (σ.set name value)
  | .readOnly | .special => none
  | .computed => some σ

/-- The assignments of a file, one after the other. -/
def assignAll (σ : Vars) : List (Text × Text) → Option Vars
  | [] => some σ
  | kv :: fields => (σ.assign kv.1 kv.2).bind fun σ => σ.assignAll fields

@[simp] theorem setAll_nil : σ.setAll [] = σ := rfl

@[simp] theorem setAll_cons (kv : Text × Text) (fields : List (Text × Text)) :
    σ.setAll (kv :: fields) = (σ.set kv.1 kv.2).setAll fields := rfl

@[simp] theorem set_self (name value : Text) : σ.set name value name = some value := if_pos rfl

theorem set_of_ne {name value x : Text} (h : x ≠ name) : σ.set name value x = σ x := if_neg h

theorem assign_of_ordinary {name value : Text} (h : kindOf name = .ordinary) :
    σ.assign name value = some (σ.set name value) := by
  rw [assign, h]

theorem assign_of_readOnly {name value : Text} (h : kindOf name = .readOnly) :
    σ.assign name value = none := by
  rw [assign, h]

variable {σ}

/-- Variables that can be assigned are. -/
theorem assignAll_of_ordinary {fields : List (Text × Text)}
    (h : ∀ kv ∈ fields, kindOf kv.1 = .ordinary) : σ.assignAll fields = some (σ.setAll fields) := by
  induction fields generalizing σ with
  | nil => rfl
  | cons kv fields ih =>
    rw [assignAll, σ.assign_of_ordinary (h kv List.mem_cons_self), Option.bind_some,
      ih fun kv' hm => h kv' (List.mem_cons_of_mem _ hm), setAll_cons]

/-- A read-only variable is an error. -/
theorem assignAll_of_readOnly {fields : List (Text × Text)}
    (h : ∃ kv ∈ fields, kindOf kv.1 = .readOnly) : σ.assignAll fields = none := by
  induction fields generalizing σ with
  | nil =>
    obtain ⟨kv, hm, -⟩ := h
    cases hm
  | cons kv fields ih =>
    obtain ⟨kv', hm, hkind⟩ := h
    rcases List.mem_cons.1 hm with rfl | hm
    · rw [assignAll, σ.assign_of_readOnly hkind, Option.bind_none]
    · rw [assignAll]
      exact Option.bind_eq_none_iff.2 fun σ' _ => ih ⟨kv', hm, hkind⟩

end Vars

/-- Read a script: its assignments are performed one after the other; anything else yields
`none`. -/
def execFuel (σ : Vars) : ℕ → Text → Option Vars
  | 0, _ => none
  | _ + 1, [] => some σ
  | fuel + 1, c :: r =>
    if c = '\n' ∨ c = ' ' ∨ c = '\t' then execFuel σ fuel r
    else if c = '#' then execFuel σ fuel (r.dropWhile (· ≠ '\n'))
    else
      let name := (c :: r).takeWhile isNameChar
      if isNameStart c ∧ ((c :: r).drop name.length).head? = some '=' then
        match scan σ 0 .plain ((c :: r).drop (name.length + 1)) with
        | some (v, rest) =>
          (σ.assign name v).bind fun σ =>
            execFuel σ fuel (if rest.head? = some ';' then rest.tail else rest)
        | none => none
      else none

/-- `source file`, where the file does nothing but assign; `bash` drops NUL characters. -/
def run (σ : Vars) (file : Text) : Option Vars :=
  execFuel σ ((file.filter (· ≠ '\x00')).length + 1) (file.filter (· ≠ '\x00'))

/-! ### A quoted text is read as the text -/

theorem ordinary_of_isSafe {s : Text} (h : s.all isSafe = true) : Ordinary s := by
  have hspecial : ∀ c ∈ ['\n', ';', ' ', '\t', '&', '|', '(', ')', '<', '>', '\x60', '\\', '~',
      '\'', '"', '$'], isSafe c = false := by decide
  have hne : ∀ c, isSafe c = true → ∀ d, isSafe d = false → c ≠ d := by
    rintro c hc d hd rfl
    rw [hc] at hd
    cases hd
  intro c hc
  have hsafe := hne c (List.all_eq_true.1 h c hc)
  have hnot : ∀ d ∈ ['\n', ';', ' ', '\t', '&', '|', '(', ')', '<', '>', '\x60', '\\', '~',
      '\'', '"', '$'], c ≠ d := fun d hd => hsafe d (hspecial d hd)
  simp only [List.mem_cons, List.not_mem_nil, or_false, forall_eq_or_imp, forall_eq] at hnot
  simp [isSpecial, isSeparator, isOperator, hnot]

/-- The quoted quotes lead out of the single quotes and back. -/
theorem scan_escapeQuotes {σ : Vars} {s rest : Text} (hr : AtEnd rest) :
    scan σ 0 .single (escapeQuotes s ++ '\'' :: rest) = some (s, rest) := by
  induction s with
  | nil =>
    have hend : scan σ 0 .plain ([] ++ rest) = some ([], rest) := scan_plain rfl hr
    rw [escapeQuotes, List.nil_append, scan, if_pos rfl]
    exact hend
  | cons c s ih =>
    rw [escapeQuotes]
    split
    · rename_i hc
      subst hc
      simp [scan, isSeparator, isOperator, ih]
    · rename_i hc
      rw [List.cons_append, scan, if_neg hc, ih]
      rfl

/-- **A quoted text is read as the text**, whatever is in it. -/
theorem scan_quote {σ : Vars} {s rest : Text} (hr : AtEnd rest) :
    scan σ 0 .plain (quote s ++ rest) = some (s, rest) := by
  have hend : scan σ 0 .plain ([] ++ rest) = some ([], rest) := scan_plain rfl hr
  unfold quote
  split
  · rename_i hs
    subst hs
    simpa [scan, isSeparator, isOperator] using hend
  · split
    · rename_i hs
      exact scan_plain (ordinary_of_isSafe hs).plain hr
    · have hopen : scan σ 0 .plain ('\'' :: (escapeQuotes s ++ '\'' :: rest)) =
          scan σ 0 .single (escapeQuotes s ++ '\'' :: rest) := by
        simp [scan, isSeparator, isOperator]
      rw [List.cons_append, List.append_assoc, List.singleton_append, hopen, scan_escapeQuotes hr]

/-! ### The lines of a file -/

theorem execFuel_newline {σ : Vars} {fuel : ℕ} {more : Text} :
    execFuel σ (fuel + 1) ('\n' :: more) = execFuel σ fuel more := by
  rw [execFuel, if_pos (Or.inl rfl)]

theorem execFuel_comment {σ : Vars} {fuel : ℕ} {l more : Text} (hl : '\n' ∉ l) :
    execFuel σ (fuel + 2) ('#' :: l ++ '\n' :: more) = execFuel σ fuel more := by
  have hdrop : (l ++ '\n' :: more).dropWhile (· ≠ '\n') = '\n' :: more := by
    rw [List.dropWhile_append_of_pos fun c hc => by
      simpa using fun hx : c = '\n' => hl (hx ▸ hc), List.dropWhile_cons, if_neg (by simp)]
  rw [List.cons_append, execFuel, if_neg (by decide), if_pos rfl, hdrop, execFuel_newline]

theorem execFuel_assign {σ : Vars} {fuel : ℕ} {name value more : Text} (hn : IsName name) :
    execFuel σ (fuel + 2) (name ++ '=' :: quote value ++ '\n' :: more) =
      (σ.assign name value).bind fun σ => execFuel σ fuel more := by
  have htake := takeWhile_name hn (t := '=' :: (quote value ++ '\n' :: more))
    (List.takeWhile_cons_of_neg (by decide))
  obtain ⟨hdrop, hdrop'⟩ := drop_name name (quote value ++ '\n' :: more)
  have hscan : scan σ 0 .plain (quote value ++ '\n' :: more) = some (value, '\n' :: more) :=
    scan_quote fun c hc => by
      obtain rfl := Option.some.inj hc
      decide
  obtain ⟨c, name', rfl, hstart, hblank, hcomment⟩ := hn.exists_cons
  rw [List.append_assoc, List.cons_append, List.cons_append, execFuel, if_neg hblank,
    if_neg hcomment]
  rw [List.cons_append] at htake hdrop hdrop'
  simp only [htake, hdrop, hdrop', hstart, List.head?_cons, and_self, if_true, hscan]
  refine Option.bind_congr fun σ' _ => ?_
  exact execFuel_newline

/-- Lines of assignments. -/
theorem execFuel_fields {σ : Vars} {fields : List (Text × Text)}
    (hn : ∀ kv ∈ fields, IsName kv.1) {fuel : ℕ} (hf : 2 * fields.length < fuel) :
    execFuel σ fuel (unlines (fields.map fun kv => kv.1 ++ '=' :: quote kv.2)) =
      σ.assignAll fields := by
  induction fields generalizing σ fuel with
  | nil =>
    cases fuel with
    | zero => omega
    | succ fuel => rfl
  | cons kv fields ih =>
    obtain ⟨fuel, rfl⟩ : ∃ f, fuel = f + 2 := ⟨fuel - 2, by simp at hf; omega⟩
    rw [List.map_cons, unlines_cons, execFuel_assign (hn kv List.mem_cons_self), Vars.assignAll]
    refine Option.bind_congr fun σ' _ => ?_
    exact ih (fun kv' hm => hn kv' (List.mem_cons_of_mem _ hm)) (by simp at hf; omega)

/-! ### The file of a dictionary -/

/-- A dictionary of fields: keys that are names, and values without NUL characters. -/
structure FieldDict where
  items : List (Text × Text)
  nodup : (items.map Prod.fst).Nodup
  names : ∀ kv ∈ items, IsName kv.1
  noNul : ∀ kv ∈ items, '\x00' ∉ kv.2

namespace FieldDict

variable (d : FieldDict)

/-- The keys are variables that keep what is assigned to them. -/
def Assignable : Prop := ∀ kv ∈ d.items, kindOf kv.1 = .ordinary

instance : Decidable d.Assignable := inferInstanceAs (Decidable (∀ kv ∈ d.items, _))

end FieldDict

theorem mem_sortFields {fields : List (Text × Text)} {kv : Text × Text} :
    kv ∈ sortFields fields ↔ kv ∈ fields := (List.mergeSort_perm _ _).mem_iff

/-- Quoting adds no NUL character. -/
theorem nul_not_mem_quote {s : Text} (h : '\x00' ∉ s) : '\x00' ∉ quote s := by
  have hescape : ∀ t : Text, '\x00' ∉ t → '\x00' ∉ escapeQuotes t := by
    intro t ht
    induction t with
    | nil => exact ht
    | cons c t ih =>
      rw [List.mem_cons, not_or] at ht
      rw [escapeQuotes]
      split
      · simp [ih ht.2]
      · simp [ht.1, ih ht.2]
  unfold quote
  split
  · decide
  · split
    · exact h
    · simp [hescape s h]

/-- A file that is written has no NUL character. -/
theorem nul_not_mem_writeShellConf (d : FieldDict) : '\x00' ∉ writeShellConf d.items := by
  have hheader : ∀ l ∈ confHeader, '\x00' ∉ l := by decide +kernel
  simp only [writeShellConf, unlines, List.mem_flatten, List.mem_map, List.mem_append]
  rintro ⟨_, ⟨l, hl, rfl⟩, hnul⟩
  rcases List.mem_append.1 hnul with hnul | hnul
  · rcases hl with hl | ⟨kv, hkv, rfl⟩
    · exact hheader l hl hnul
    · have hkv := mem_sortFields.1 hkv
      rcases List.mem_append.1 hnul with hnul | hnul
      · exact absurd ((d.names kv hkv).2 _ hnul) (by decide)
      · rcases List.mem_cons.1 hnul with hnul | hnul
        · exact absurd hnul (by decide)
        · exact nul_not_mem_quote (d.noNul kv hkv) hnul
  · exact absurd (List.mem_singleton.1 hnul) (by decide)

/-- The comments in front do nothing. -/
theorem execFuel_confHeader {σ : Vars} {fuel : ℕ} {more : Text} :
    execFuel σ (fuel + 7) (unlines confHeader ++ more) = execFuel σ fuel more := by
  have hcomment : ∀ l ∈ confHeader.take 3, ∃ l', l = '#' :: l' ∧ '\n' ∉ l' := by
    have hall : ∀ l ∈ confHeader.take 3, l = '#' :: l.tail ∧ '\n' ∉ l.tail := by decide +kernel
    exact fun l hl => ⟨_, hall l hl⟩
  obtain ⟨l₁, h₁, hn₁⟩ := hcomment (txt "# Autogenerated local hardware-analysis profile.")
    (by simp [confHeader])
  obtain ⟨l₂, h₂, hn₂⟩ := hcomment
    (txt "# Review detected values before using them for macOS work.") (by simp [confHeader])
  obtain ⟨l₃, h₃, hn₃⟩ := hcomment
    (txt "# No SMBIOS/kernel/kext/ACPI choices are implied by this file.") (by simp [confHeader])
  have hlines : unlines confHeader ++ more =
      '#' :: l₁ ++ '\n' :: ('#' :: l₂ ++ '\n' :: ('#' :: l₃ ++ '\n' :: '\n' :: more)) := by
    simp [confHeader, h₁, h₂, h₃, unlines_cons]
  rw [hlines, execFuel_comment hn₁, execFuel_comment hn₂, execFuel_comment hn₃, execFuel_newline]

/-- **Sourcing what was written** performs the assignments of the dictionary. -/
theorem run_writeShellConf (d : FieldDict) (σ : Vars) :
    run σ (writeShellConf d.items) = σ.assignAll (sortFields d.items) := by
  have hfilter : (writeShellConf d.items).filter (· ≠ '\x00') = writeShellConf d.items :=
    List.filter_eq_self.2 fun c hc => by
      simpa using fun hx : c = '\x00' => nul_not_mem_writeShellConf d (hx ▸ hc)
  have hfields : ∀ kv ∈ sortFields d.items, IsName kv.1 :=
    fun kv hkv => d.names kv (mem_sortFields.1 hkv)
  -- every line has at least two characters
  have hlen : ∀ fields : List (Text × Text), 2 * fields.length ≤
      (unlines (fields.map fun kv => kv.1 ++ '=' :: quote kv.2)).length := by
    intro fields
    induction fields with
    | nil => exact Nat.le_refl _
    | cons kv fields ih =>
      simp only [List.map_cons, unlines_cons, List.length_append, List.length_cons]
      omega
  have hheader : 7 ≤ (unlines confHeader).length := by decide +kernel
  have hsplit : writeShellConf d.items = unlines confHeader ++
      unlines ((sortFields d.items).map fun kv => kv.1 ++ '=' :: quote kv.2) := by
    simp [writeShellConf, unlines]
  rw [run, hfilter, hsplit]
  have hlen' := hlen (sortFields d.items)
  obtain ⟨fuel, hfuel⟩ : ∃ fuel, (unlines confHeader ++
      unlines ((sortFields d.items).map fun kv => kv.1 ++ '=' :: quote kv.2)).length + 1 =
      fuel + 7 ∧ 2 * (sortFields d.items).length < fuel := by
    refine ⟨_ - 7, (Nat.sub_add_cancel ?_).symm, ?_⟩
    · rw [List.length_append]
      omega
    · rw [List.length_append]
      omega
  rw [hfuel.1, execFuel_confHeader, execFuel_fields hfields hfuel.2]

/-! ### The variables afterwards -/

theorem setAll_of_not_mem {σ : Vars} {fields : List (Text × Text)} {x : Text}
    (h : x ∉ fields.map Prod.fst) : σ.setAll fields x = σ x := by
  induction fields generalizing σ with
  | nil => rfl
  | cons kv fields ih =>
    rw [List.map_cons, List.mem_cons, not_or] at h
    rw [Vars.setAll_cons, ih h.2, Vars.set_of_ne _ h.1]

theorem setAll_of_mem {σ : Vars} {fields : List (Text × Text)} {x v : Text}
    (hnodup : (fields.map Prod.fst).Nodup) (h : (x, v) ∈ fields) : σ.setAll fields x = some v := by
  induction fields generalizing σ with
  | nil => cases h
  | cons kv fields ih =>
    rw [List.map_cons, List.nodup_cons] at hnodup
    rcases List.mem_cons.1 h with rfl | h
    · rw [Vars.setAll_cons, setAll_of_not_mem hnodup.1, Vars.set_self]
    · rw [Vars.setAll_cons, ih hnodup.2 h]

/-- The order of the assignments does not matter. -/
theorem setAll_sortFields {σ : Vars} {fields : List (Text × Text)}
    (hnodup : (fields.map Prod.fst).Nodup) : σ.setAll (sortFields fields) = σ.setAll fields := by
  have hperm : ((sortFields fields).map Prod.fst).Perm (fields.map Prod.fst) :=
    (List.mergeSort_perm _ _).map _
  funext x
  by_cases hx : x ∈ fields.map Prod.fst
  · obtain ⟨⟨k, v⟩, hkv, rfl⟩ := List.mem_map.1 hx
    rw [setAll_of_mem hnodup hkv,
      setAll_of_mem (hperm.nodup_iff.2 hnodup) (mem_sortFields.2 hkv)]
  · rw [setAll_of_not_mem hx, setAll_of_not_mem fun hm => hx (hperm.mem_iff.1 hm)]

/-- **Round trip** of a dictionary. -/
theorem run_eq_setAll {d : FieldDict} (hd : d.Assignable) (σ : Vars) :
    run σ (writeShellConf d.items) = some (σ.setAll d.items) := by
  rw [run_writeShellConf, Vars.assignAll_of_ordinary fun kv hkv => hd kv (mem_sortFields.1 hkv),
    setAll_sortFields d.nodup]

/-- A dictionary with a read-only key is an error. -/
theorem run_of_readOnly {d : FieldDict} (hd : ∃ kv ∈ d.items, kindOf kv.1 = .readOnly)
    (σ : Vars) : run σ (writeShellConf d.items) = none := by
  rw [run_writeShellConf]
  obtain ⟨kv, hkv, hkind⟩ := hd
  exact Vars.assignAll_of_readOnly ⟨kv, mem_sortFields.2 hkv, hkind⟩

end Profiles

end InstallKit
