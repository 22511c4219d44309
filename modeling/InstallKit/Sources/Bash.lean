import InstallKit.Sources.Text

/-!
# What `bash` makes of a file of assignments

`source env file` is the list of assignments that `bash` performs when it reads `file`, provided
that it performs nothing but assignments: a word that is not an assignment, a substitution, a
redirection, an operator or an unfinished quote yields `none`.  `env` gives the values of the
parameters; an unset one is an error under `set -u`.

The words are read as `bash` reads the value of an assignment: no splitting, no file name or brace
expansion.  Backslashes are outside this model (`none`) except between plain single quotes, where
they stand for themselves, and so are tildes that are not quoted; no tag of a Git repository has
one.

* `scan_plain` : a word without special characters is its own value;
* `plain_of_scan` : where nothing is set, only such a word is.
-/

namespace InstallKit

namespace Sources

/-- The first character of a name. -/
def isNameStart (c : Char) : Bool := c.isAlpha || c = '_'

/-- A character of a name. -/
def isNameChar (c : Char) : Bool := c.isAlphanum || c = '_'

/-- The parameters with names of their own: `$$`, `$#`, `$1`, ... -/
def isParameter (c : Char) : Bool := c.isDigit || c ∈ ['@', '#', '!', '$', '-', '*', '?']

/-- How the reader is quoting; `ansi` is `$'...'`. -/
inductive Quoting
  | plain | single | double | ansi
  deriving DecidableEq, Repr

/-- What a `$` turns out to be. -/
inductive Dollar
  /-- It stands for itself. -/
  | literal
  /-- A parameter with this value, spelled by so many characters. -/
  | value (v : Text) (n : ℕ)
  /-- `$'...'` or `$"..."`. -/
  | opens (q : Quoting)
  /-- A substitution, or an error. -/
  | other
  deriving DecidableEq, Repr

/-- The value of a parameter. -/
def parameter (env : Text → Option Text) (name : Text) (n : ℕ) : Dollar :=
  match env name with
  | some v => .value v n
  | none => .other

/-- What stands after an opening brace: a name and a closing brace, or something more complicated. -/
def braced (env : Text → Option Text) (r : Text) : Dollar :=
  if r.takeWhile isNameChar ≠ [] ∧ (r.drop (r.takeWhile isNameChar).length).head? = some '}' then
    parameter env (r.takeWhile isNameChar) ((r.takeWhile isNameChar).length + 2)
  else .other

/-- What stands after a `$`, inside double quotes or not. -/
def dollar (env : Text → Option Text) (q : Quoting) : Text → Dollar
  | [] => .literal
  | c :: r =>
    if isNameStart c then
      parameter env ((c :: r).takeWhile isNameChar) ((c :: r).takeWhile isNameChar).length
    else if isParameter c then parameter env [c] 1
    else if c = '{' then braced env r
    else if c = '(' ∨ c = '[' then .other
    else if c = '\'' ∧ q = .plain then .opens .ansi
    else if c = '"' ∧ q = .plain then .opens .double
    else .literal

/-- The characters that end a word. -/
def isSeparator (c : Char) : Bool := c ∈ ['\n', ';', ' ', '\t']

/-- The characters that lead outside of assignments. -/
def isOperator (c : Char) : Bool := c ∈ ['&', '|', '(', ')', '<', '>', '\x60', '\\', '~']

/-- Read a word: its value and what follows it.  The first argument counts characters that belong
to an expansion already dealt with. -/
def scan (env : Text → Option Text) : ℕ → Quoting → Text → Option (Text × Text)
  | 0, .plain, [] => some ([], [])
  | _, _, [] => none
  | n + 1, q, _ :: r => scan env n q r
  | 0, .plain, c :: r =>
    if isSeparator c then some ([], c :: r)
    else if isOperator c then none
    else if c = '\'' then scan env 0 .single r
    else if c = '"' then scan env 0 .double r
    else if c = '$' then
      match dollar env .plain r with
      | .literal => (scan env 0 .plain r).map fun x => (c :: x.1, x.2)
      | .value v n => (scan env n .plain r).map fun x => (v ++ x.1, x.2)
      | .opens q => scan env 1 q r
      | .other => none
    else (scan env 0 .plain r).map fun x => (c :: x.1, x.2)
  | 0, .single, c :: r =>
    if c = '\'' then scan env 0 .plain r
    else (scan env 0 .single r).map fun x => (c :: x.1, x.2)
  | 0, .double, c :: r =>
    if c = '"' then scan env 0 .plain r
    else if c = '\x60' ∨ c = '\\' then none
    else if c = '$' then
      match dollar env .double r with
      | .literal => (scan env 0 .double r).map fun x => (c :: x.1, x.2)
      | .value v n => (scan env n .double r).map fun x => (v ++ x.1, x.2)
      | .opens q => scan env 1 q r
      | .other => none
    else (scan env 0 .double r).map fun x => (c :: x.1, x.2)
  -- between the quotes of `$'..'` a backslash escapes
  | 0, .ansi, c :: r =>
    if c = '\'' then scan env 0 .plain r
    else if c = '\\' then none
    else (scan env 0 .ansi r).map fun x => (c :: x.1, x.2)

/-- The assignments of a file, statement by statement; `fuel` bounds the number of statements. -/
def sourceFuel (env : Text → Option Text) : ℕ → Text → Option (List (Text × Text))
  | 0, _ => none
  | _ + 1, [] => some []
  | fuel + 1, c :: r =>
    if c = '\n' ∨ c = ' ' ∨ c = '\t' then sourceFuel env fuel r
    else if c = '#' then sourceFuel env fuel (r.dropWhile (· ≠ '\n'))
    else
      let name := (c :: r).takeWhile isNameChar
      if isNameStart c ∧ ((c :: r).drop name.length).head? = some '=' then
        match scan env 0 .plain ((c :: r).drop (name.length + 1)) with
        | some (v, rest) =>
          let rest := if rest.head? = some ';' then rest.tail else rest
          (sourceFuel env fuel rest).map ((name, v) :: ·)
        | none => none
      else none

/-- The assignments that `bash` performs when it reads the file, if it performs nothing else. -/
def source (env : Text → Option Text) (file : Text) : Option (List (Text × Text)) :=
  sourceFuel env (file.length + 1) file

/-! ### Plain words -/

/-- What follows a `$` that stands for itself. -/
def literalDollar (r : Text) : Bool :=
  match r.head? with
  | none => true
  | some c => !(isNameStart c || isParameter c || c ∈ ['{', '(', '[', '\'', '"'])

/-- The character is special wherever it stands in a word. -/
def isSpecial (c : Char) : Bool :=
  isSeparator c || isOperator c || c = '\'' || c = '"'

/-- The word contains no special character, and no `$` that begins an expansion. -/
def plain : Text → Bool
  | [] => true
  | c :: r => !isSpecial c && (c ≠ '$' || literalDollar r) && plain r

theorem dollar_of_literal {env : Text → Option Text} {q : Quoting} {r : Text}
    (h : literalDollar r = true) : dollar env q r = .literal := by
  cases r with
  | nil => rfl
  | cons c r =>
    simp only [literalDollar, List.head?_cons, Bool.not_eq_true', Bool.or_eq_false_iff,
      decide_eq_false_iff_not, List.mem_cons, List.not_mem_nil, or_false, not_or] at h
    obtain ⟨⟨h₁, h₂⟩, h₃, h₄, h₅, h₆, h₇⟩ := h
    simp [dollar, h₁, h₂, h₃, h₄, h₅, h₆, h₇]

/-- A separator does not begin an expansion. -/
theorem literalDollar_of_separator {r : Text} (h : ∀ c, r.head? = some c → isSeparator c = true) :
    literalDollar r = true := by
  have hsep : ∀ c ∈ ['\n', ';', ' ', '\t'], literalDollar [c] = true := by decide
  cases r with
  | nil => rfl
  | cons c r => exact hsep c (by simpa [isSeparator] using h c rfl)

/-- The text is empty or begins with a separator. -/
def AtEnd (r : Text) : Prop := ∀ c, r.head? = some c → isSeparator c = true

theorem literalDollar_append {r rest : Text} (h : literalDollar r = true) (hr : AtEnd rest) :
    literalDollar (r ++ rest) = true := by
  cases r with
  | nil => exact literalDollar_of_separator hr
  | cons c r => exact h

/-- **A plain word is its own value**, whatever the parameters are. -/
theorem scan_plain {env : Text → Option Text} {word rest : Text} (hw : plain word = true)
    (hr : AtEnd rest) : scan env 0 .plain (word ++ rest) = some (word, rest) := by
  induction word with
  | nil =>
    cases rest with
    | nil => rfl
    | cons c r => rw [List.nil_append, scan, if_pos (hr c rfl)]
  | cons c word ih =>
    simp only [plain, Bool.and_eq_true, Bool.not_eq_true', Bool.or_eq_true] at hw
    obtain ⟨⟨hspecial, hdollar⟩, hword⟩ := hw
    simp only [isSpecial, Bool.or_eq_false_iff, decide_eq_false_iff_not] at hspecial
    obtain ⟨⟨⟨h₁, h₂⟩, h₃⟩, h₄⟩ := hspecial
    rw [List.cons_append, scan, if_neg (by simp [h₁]), if_neg (by simp [h₂]), if_neg h₃, if_neg h₄]
    by_cases hc : c = '$'
    · have hlit : literalDollar word = true := hdollar.resolve_left (by simp [hc])
      rw [if_pos hc, dollar_of_literal (literalDollar_append hlit hr), ih hword]
      rfl
    · rw [if_neg hc, ih hword]
      rfl

theorem plain_append {a b : Text} (ha : plain a = true) (hb : plain b = true)
    (hd : literalDollar b = true) : plain (a ++ b) = true := by
  induction a with
  | nil => exact hb
  | cons c a ih =>
    simp only [plain, Bool.and_eq_true] at ha
    have hlit : literalDollar a = true → literalDollar (a ++ b) = true := by
      intro h
      cases a with
      | nil => exact hd
      | cons c' a => exact h
    simp only [List.cons_append, plain, Bool.and_eq_true, Bool.or_eq_true]
    exact ⟨⟨ha.1.1, (Bool.or_eq_true _ _ ▸ ha.1.2).imp_right hlit⟩, ih ha.2⟩

/-- No character of the text means anything to `bash`. -/
def Ordinary (t : Text) : Prop := ∀ c ∈ t, isSpecial c = false ∧ c ≠ '$'

instance (t : Text) : Decidable (Ordinary t) := inferInstanceAs (Decidable (∀ c ∈ t, _))

theorem Ordinary.plain_append {t u : Text} (h : Ordinary t) (hu : plain u = true) :
    plain (t ++ u) = true := by
  induction t with
  | nil => exact hu
  | cons c t ih =>
    obtain ⟨hs, hd⟩ := h c List.mem_cons_self
    simp [plain, hs, hd, ih fun c' hc' => h c' (List.mem_cons_of_mem _ hc')]

theorem Ordinary.plain {t : Text} (h : Ordinary t) : plain t = true := by
  have := h.plain_append (u := []) rfl
  rwa [List.append_nil] at this

theorem Ordinary.append {t u : Text} (ht : Ordinary t) (hu : Ordinary u) : Ordinary (t ++ u) :=
  List.forall_mem_append.2 ⟨ht, hu⟩

/-! ### Files of assignments -/

/-- A name. -/
def IsName (name : Text) : Prop :=
  name.head?.map isNameStart = some true ∧ ∀ c ∈ name, isNameChar c = true

instance (name : Text) : Decidable (IsName name) := inferInstanceAs (Decidable (_ ∧ _))

/-- A name in front of a text that does not go on with it. -/
theorem takeWhile_name {name t : Text} (hn : IsName name) (ht : t.takeWhile isNameChar = []) :
    (name ++ t).takeWhile isNameChar = name := by
  rw [List.takeWhile_append_of_pos hn.2, ht, List.append_nil]

/-- What a name begins with is neither blank nor a comment. -/
theorem IsName.exists_cons {name : Text} (hn : IsName name) :
    ∃ c name', name = c :: name' ∧ isNameStart c = true ∧ ¬ (c = '\n' ∨ c = ' ' ∨ c = '\t') ∧
      c ≠ '#' := by
  obtain ⟨c, hc, hstart⟩ := Option.map_eq_some_iff.1 hn.1
  obtain ⟨name', rfl⟩ := List.head?_eq_some_iff.1 hc
  refine ⟨c, name', rfl, hstart, ?_, ?_⟩
  · rintro (rfl | rfl | rfl) <;> exact absurd hstart (by decide)
  · rintro rfl
    exact absurd hstart (by decide)

theorem drop_name (name word : Text) :
    (name ++ '=' :: word).drop name.length = '=' :: word ∧
      (name ++ '=' :: word).drop (name.length + 1) = word := by
  have hdrop : (name ++ '=' :: word).drop name.length = '=' :: word := List.drop_left
  refine ⟨hdrop, ?_⟩
  rw [← List.drop_drop, hdrop, List.drop_succ_cons, List.drop_zero]

/-- One statement `name=word`, up to the newline that ends it. -/
theorem sourceFuel_assign {env : Text → Option Text} {fuel : ℕ} {name word more : Text}
    (hn : IsName name) :
    sourceFuel env (fuel + 1) (name ++ '=' :: word ++ '\n' :: more) =
      match scan env 0 .plain (word ++ '\n' :: more) with
      | some (v, rest) =>
        (sourceFuel env fuel (if rest.head? = some ';' then rest.tail else rest)).map ((name, v) :: ·)
      | none => none := by
  have htake := takeWhile_name hn (t := '=' :: (word ++ '\n' :: more))
    (List.takeWhile_cons_of_neg (by decide))
  obtain ⟨hdrop, hdrop'⟩ := drop_name name (word ++ '\n' :: more)
  obtain ⟨c, name', rfl, hstart, hblank, hcomment⟩ := hn.exists_cons
  rw [List.append_assoc, List.cons_append, List.cons_append, sourceFuel, if_neg hblank,
    if_neg hcomment]
  rw [List.cons_append] at htake hdrop hdrop'
  simp only [htake, hdrop, hdrop', hstart, List.head?_cons, and_self, if_true]

/-- A blank line, a comment, or the assignment of a plain word, and what is assigned. -/
inductive Reads : Text → Option (Text × Text) → Prop
  | blank : Reads [] none
  | comment {l : Text} : '\n' ∉ l → Reads ('#' :: l) none
  | assign {name word : Text} : IsName name → plain word = true →
    Reads (name ++ '=' :: word) (some (name, word))

theorem Reads.unique {l : Text} {a b : Option (Text × Text)} (ha : Reads l a) (hb : Reads l b) :
    a = b := by
  have hstart : ∀ {name word l : Text}, IsName name → name ++ '=' :: word = '#' :: l → False := by
    intro name word l hn h
    obtain ⟨c, name', rfl, -, -, hc⟩ := hn.exists_cons
    exact hc (List.cons.inj h).1
  -- the name of an assignment ends at its first `=`
  have htake : ∀ {name : Text} (word : Text), IsName name →
      (name ++ '=' :: word).takeWhile isNameChar = name := fun _ hn =>
    takeWhile_name hn (List.takeWhile_cons_of_neg (by decide))
  generalize hl : l = l' at hb
  cases ha with
  | blank =>
    cases hb with
    | blank => rfl
    | comment => cases hl
    | assign => exact absurd hl.symm (by simp)
  | comment =>
    cases hb with
    | blank => cases hl
    | comment => rfl
    | assign hn => exact (hstart hn hl.symm).elim
  | @assign name word hn =>
    cases hb with
    | blank => exact absurd hl (by simp)
    | comment => exact (hstart hn hl).elim
    | @assign name' word' hn' =>
      obtain rfl : name = name' := by rw [← htake word hn, hl, htake word' hn']
      rw [(List.cons.inj (List.append_cancel_left hl)).2]

/-- One line is read, and the rest goes on with the fuel that is left. -/
theorem Reads.sourceFuel (env : Text → Option Text) {l more : Text} {a : Option (Text × Text)}
    (h : Reads l a) {fuel : ℕ} (hf : (l ++ '\n' :: more).length < fuel) :
    ∃ fuel', more.length < fuel' ∧ sourceFuel env fuel (l ++ '\n' :: more) =
      (sourceFuel env fuel' more).map (a.toList ++ ·) := by
  obtain ⟨fuel, rfl⟩ := Nat.exists_eq_add_of_lt (Nat.zero_lt_of_lt hf)
  rw [List.length_append, List.length_cons, Nat.zero_add] at hf
  rw [Nat.zero_add]
  cases h with
  | blank =>
    refine ⟨fuel, by simpa using hf, ?_⟩
    simp [Sources.sourceFuel]
  | @comment l hl =>
    rw [List.length_cons] at hf
    obtain ⟨fuel, rfl⟩ : ∃ f, fuel = f + 1 := ⟨fuel - 1, by omega⟩
    -- a comment ends before the newline
    have hdrop : (l ++ '\n' :: more).dropWhile (· ≠ '\n') = '\n' :: more := by
      have hpos : ∀ c ∈ l, decide (c ≠ '\n') = true := by
        intro c hc
        simp only [ne_eq, decide_eq_true_eq]
        rintro rfl
        exact hl hc
      rw [List.dropWhile_append_of_pos hpos]
      simp
    refine ⟨fuel, by omega, ?_⟩
    rw [List.cons_append, Sources.sourceFuel, if_neg (by decide), if_pos rfl, hdrop]
    simp [Sources.sourceFuel]
  | @assign name word hname hplain =>
    rw [List.length_append, List.length_cons] at hf
    obtain ⟨fuel, rfl⟩ : ∃ f, fuel = f + 1 := ⟨fuel - 1, by omega⟩
    have hscan : scan env 0 .plain (word ++ '\n' :: more) = some (word, '\n' :: more) :=
      scan_plain hplain fun c hc => by
        obtain rfl := Option.some.inj hc
        decide
    refine ⟨fuel, by omega, ?_⟩
    rw [sourceFuel_assign hname, hscan]
    simp [Sources.sourceFuel]

/-- **A file of such lines performs their assignments and nothing else.** -/
theorem source_unlines (env : Text → Option Text) {ls : List Text} (h : ∀ l ∈ ls, ∃ a, Reads l a) :
    ∃ as, source env (unlines ls) = some as ∧ ∀ kv, kv ∈ as ↔ ∃ l ∈ ls, Reads l (some kv) := by
  have hrun : ∀ {fuel : ℕ}, (unlines ls).length < fuel → ∃ as,
      sourceFuel env fuel (unlines ls) = some as ∧ ∀ kv, kv ∈ as ↔ ∃ l ∈ ls, Reads l (some kv) := by
    induction ls with
    | nil =>
      intro fuel hf
      obtain ⟨fuel, rfl⟩ := Nat.exists_eq_add_of_lt (Nat.zero_lt_of_lt hf)
      exact ⟨[], by rw [Nat.zero_add]; rfl, fun kv => by simp⟩
    | cons l ls ih =>
      intro fuel hf
      rw [unlines_cons] at hf ⊢
      obtain ⟨a, ha⟩ := h l List.mem_cons_self
      obtain ⟨fuel', hf', hstep⟩ := ha.sourceFuel env hf
      obtain ⟨as, has, hmem⟩ := ih (fun l' hl' => h l' (List.mem_cons_of_mem _ hl')) hf'
      have hline : ∀ kv, a = some kv ↔ Reads l (some kv) := fun kv =>
        ⟨fun h' => h' ▸ ha, ha.unique⟩
      refine ⟨a.toList ++ as, by rw [hstep, has]; rfl, fun kv => ?_⟩
      rw [List.mem_append, Option.mem_toList, hline, hmem,
        List.exists_mem_cons_iff]
  exact hrun (Nat.lt_succ_self _)

/-! ### Only plain words are their own value -/

/-- No variable is set; the special parameters are `0`. -/
def bareEnv : Text → Option Text
  | [c] => if isNameStart c then none else some ['0']
  | _ => none

theorem eq_of_bareEnv {name v : Text} (h : bareEnv name = some v) : v = ['0'] := by
  unfold bareEnv at h
  split at h
  · split at h
    · cases h
    · exact (Option.some.inj h).symm
  · cases h

theorem parameter_value {name v : Text} {n m : ℕ} (h : parameter bareEnv name n = .value v m) :
    v = ['0'] ∧ m = n ∧ bareEnv name = some v := by
  unfold parameter at h
  split at h
  · rename_i v' hv
    obtain ⟨rfl, rfl⟩ := Dollar.value.inj h
    exact ⟨eq_of_bareEnv hv, rfl, hv⟩
  · cases h

theorem not_isNameStart_of_bareEnv {c : Char} {r v : Text} (h : bareEnv (c :: r) = some v) :
    isNameStart c = false := by
  cases r with
  | nil =>
    rw [bareEnv] at h
    cases hc : isNameStart c with
    | false => rfl
    | true => simp [hc] at h
  | cons c' r => simp [bareEnv] at h

theorem braced_value {r v : Text} {n : ℕ} (h : braced bareEnv r = .value v n) :
    v = ['0'] ∧ n = (r.takeWhile isNameChar).length + 2 ∧ (r.takeWhile isNameChar).length < r.length ∧
      '\n' ∉ r.take ((r.takeWhile isNameChar).length + 1) := by
  unfold braced at h
  split at h
  · rename_i hname
    obtain ⟨rfl, rfl, -⟩ := parameter_value h
    have hnames : '\n' ∉ r.takeWhile isNameChar := fun hm =>
      absurd (List.all_eq_true.1 List.all_takeWhile _ hm) (by decide)
    have hsplit : r.takeWhile isNameChar ++ r.dropWhile isNameChar = r :=
      List.takeWhile_append_dropWhile
    have hdrop : r.drop (r.takeWhile isNameChar).length = r.dropWhile isNameChar := by
      conv => lhs; arg 2; rw [← hsplit]
      exact List.drop_left
    obtain ⟨r', hr'⟩ := List.head?_eq_some_iff.1 (hdrop ▸ hname.2)
    rw [hr'] at hsplit
    generalize r.takeWhile isNameChar = name at hnames hsplit
    subst hsplit
    refine ⟨rfl, rfl, by simp, ?_⟩
    have htake : (name ++ '}' :: r').take (name.length + 1) = name ++ ['}'] := by
      rw [List.take_length_add_append]
      rfl
    rw [htake, List.mem_append, List.mem_singleton]
    rintro (hm | hm)
    · exact hnames hm
    · exact absurd hm (by decide)
  · cases h

/-- An expansion is spelled by at least one character, and by no newline. -/
theorem dollar_value {q : Quoting} {r v : Text} {n : ℕ} (h : dollar bareEnv q r = .value v n) :
    v = ['0'] ∧ 0 < n ∧ n ≤ r.length ∧ '\n' ∉ r.take n := by
  cases r with
  | nil => cases h
  | cons c r =>
    rw [dollar] at h
    split at h
    · -- a name is not set
      rename_i hc
      have hchar : isNameChar c = true := by
        simp only [isNameStart, Bool.or_eq_true] at hc
        simp only [isNameChar, Char.isAlphanum, Bool.or_eq_true]
        exact hc.imp_left Or.inl
      rw [List.takeWhile_cons_of_pos hchar] at h
      simp [not_isNameStart_of_bareEnv (parameter_value h).2.2] at hc
    · split at h
      · -- a special parameter
        rename_i hc
        obtain ⟨rfl, rfl, -⟩ := parameter_value h
        refine ⟨rfl, Nat.one_pos, by simp, ?_⟩
        simp only [List.take_succ_cons, List.take_zero, List.mem_singleton]
        rintro rfl
        exact absurd hc (by decide)
      · split at h
        · -- a parameter between braces
          rename_i hc
          obtain ⟨rfl, rfl, hlt, hmem⟩ := braced_value h
          refine ⟨rfl, Nat.succ_pos _, Nat.succ_le_succ hlt, ?_⟩
          rw [List.take_succ_cons, List.mem_cons]
          rintro (rfl | hm)
          · exact absurd hc (by decide)
          · exact hmem hm
        · split at h
          · cases h
          · split at h
            · cases h
            · split at h <;> cases h

theorem dollar_opens {env : Text → Option Text} {q q' : Quoting} {r : Text}
    (h : dollar env q r = .opens q') : q' ≠ .plain ∧ ∃ c r', r = c :: r' ∧ c ≠ '\n' := by
  have hparam : ∀ name n, parameter env name n ≠ .opens q' := by
    intro name n hp
    unfold parameter at hp
    split at hp <;> cases hp
  cases r with
  | nil => cases h
  | cons c r =>
    rw [dollar] at h
    split at h
    · exact absurd h (hparam _ _)
    · split at h
      · exact absurd h (hparam _ _)
      · split at h
        · unfold braced at h
          split at h
          · exact absurd h (hparam _ _)
          · cases h
        · split at h
          · cases h
          · split at h
            · rename_i hc
              obtain rfl := Dollar.opens.inj h
              exact ⟨by decide, c, r, rfl, by rw [hc.1]; decide⟩
            · split at h
              · rename_i hc
                obtain rfl := Dollar.opens.inj h
                exact ⟨by decide, c, r, rfl, by rw [hc.1]; decide⟩
              · cases h

theorem literal_of_dollar {r : Text} (h : dollar bareEnv .plain r = .literal) :
    literalDollar r = true := by
  have hparam : ∀ name n, parameter bareEnv name n ≠ .literal := by
    intro name n hp
    unfold parameter at hp
    split at hp <;> cases hp
  cases r with
  | nil => rfl
  | cons c r =>
    rw [dollar] at h
    split at h
    · exact absurd h (hparam _ _)
    · split at h
      · exact absurd h (hparam _ _)
      · split at h
        · unfold braced at h
          split at h
          · exact absurd h (hparam _ _)
          · cases h
        · split at h
          · cases h
          · split at h
            · cases h
            · split at h
              · cases h
              · rename_i h₁ h₂ h₃ h₄ h₅ h₆
                simp only [not_or, and_true] at h₄ h₅ h₆
                simp [literalDollar, h₁, h₂, h₃, h₄, h₅, h₆]

/-- What a word that was read looked like: `raw`, after the characters that were skipped. -/
structure Spelled (q : Quoting) (t v rest raw : Text) : Prop where
  text : t = raw ++ rest
  atEnd : AtEnd rest
  le : v.length ≤ raw.length
  newline : '\n' ∈ raw → '\n' ∈ v
  lt : q ≠ .plain → v.length < raw.length
  plain : v.length = raw.length → plain raw = true

section Spelled

variable {q : Quoting} {t v rest raw : Text} {c : Char}

/-- A literal character. -/
theorem Spelled.literal (h : Spelled q t v rest raw)
    (hc : q = .plain → isSpecial c = false ∧ (c = '$' → literalDollar t = true)) :
    Spelled q (c :: t) (c :: v) rest (c :: raw) where
  text := by rw [h.text]; rfl
  atEnd := h.atEnd
  le := Nat.succ_le_succ h.le
  newline := by
    rw [List.mem_cons, List.mem_cons]
    exact Or.imp_right h.newline
  lt := fun hq => Nat.succ_lt_succ (h.lt hq)
  plain := by
    intro hlen
    have hlen' : v.length = raw.length := Nat.succ.inj hlen
    by_cases hq : q = .plain
    · obtain ⟨hs, hd⟩ := hc hq
      have hlit : c = '$' → literalDollar raw = true := by
        intro hcd
        have := hd hcd
        rw [h.text] at this
        cases raw with
        | nil => rfl
        | cons c' raw => exact this
      simp only [Sources.plain, hs, h.plain hlen', Bool.not_false, Bool.true_and, Bool.and_true,
        Bool.or_eq_true]
      by_cases hcd : c = '$'
      · exact Or.inr (hlit hcd)
      · exact Or.inl (by simpa using hcd)
    · exact absurd hlen' (Nat.ne_of_lt (h.lt hq))

/-- Characters that spell something shorter: a quote, or an expansion. -/
theorem Spelled.shorter (h : Spelled q t v rest raw) (q' : Quoting) {skipped v' : Text}
    (hlt : v'.length < skipped.length) (hn : '\n' ∉ skipped) :
    Spelled q' (skipped ++ t) (v' ++ v) rest (skipped ++ raw) where
  text := by rw [h.text, List.append_assoc]
  atEnd := h.atEnd
  le := by
    have := h.le
    simp only [List.length_append]
    omega
  newline := by
    rw [List.mem_append, List.mem_append]
    exact fun hm => Or.inr (h.newline (hm.resolve_left hn))
  lt := by
    intro _
    have := h.le
    simp only [List.length_append]
    omega
  plain := by
    intro hlen
    have := h.le
    simp only [List.length_append] at hlen
    omega

/-- A `$` with a parameter: its value is shorter than its name with the `$`. -/
theorem Spelled.value {r w : Text} {n : ℕ} (hd : dollar bareEnv q r = .value w n)
    (h : Spelled q (r.drop n) v rest raw) :
    Spelled q ('$' :: r) (w ++ v) rest ('$' :: r.take n ++ raw) := by
  obtain ⟨rfl, hpos, hle, hn⟩ := dollar_value hd
  have hlen : (['0'] : Text).length < ('$' :: r.take n).length := by
    simp only [List.length_cons, List.length_nil, List.length_take]
    omega
  have hshorter := h.shorter q hlen (by simpa using hn)
  rwa [List.cons_append, List.take_append_drop] at hshorter

/-- A `$` that opens a quote. -/
theorem Spelled.opens {q' : Quoting} {r : Text} (hd : dollar bareEnv q r = .opens q')
    (h : Spelled q' (r.drop 1) v rest raw) : ∃ raw, Spelled q ('$' :: r) v rest raw := by
  obtain ⟨-, c, r', rfl, hc⟩ := dollar_opens hd
  have hlen : ([] : Text).length < ['$', c].length := by simp
  exact ⟨_, h.shorter q hlen (by simp [hc.symm])⟩

/-- A quote, or a backslash. -/
theorem Spelled.quote {q' : Quoting} (h : Spelled q' (t.drop 0) v rest raw) (hc : c ≠ '\n') :
    Spelled q (c :: t) v rest (c :: raw) := by
  have hlen : ([] : Text).length < [c].length := by simp
  exact h.shorter q hlen (by simp [hc.symm])

end Spelled

/-- What was read before some text that is put in front of it. -/
theorem exists_of_map_eq {w v rest : Text} {o : Option (Text × Text)}
    (h : (o.map fun x => (w ++ x.1, x.2)) = some (v, rest)) :
    ∃ v', o = some (v', rest) ∧ v = w ++ v' := by
  obtain ⟨⟨v', rest'⟩, ho, heq⟩ := Option.map_eq_some_iff.1 h
  obtain ⟨rfl, rfl⟩ := Prod.mk.inj heq
  exact ⟨v', ho, rfl⟩

/-- **What was read**: the value is no longer than the word, it keeps its newlines, and it is as
long as the word only if the word is plain. -/
theorem spelled_of_scan {n : ℕ} {q : Quoting} {t v rest : Text}
    (h : scan bareEnv n q t = some (v, rest)) :
    n ≤ t.length ∧ ∃ raw, Spelled q (t.drop n) v rest raw := by
  fun_induction scan bareEnv n q t generalizing v with
  | case1 =>
    obtain ⟨rfl, rfl⟩ := Prod.mk.inj (Option.some.inj h)
    exact ⟨Nat.le_refl _, [], rfl, fun c hc => (by cases hc), Nat.le_refl _, id,
      fun hq => absurd rfl hq, fun _ => rfl⟩
  | case2 => cases h
  | case3 n q c r ih =>
    obtain ⟨hle, hs⟩ := ih h
    exact ⟨Nat.succ_le_succ hle, hs⟩
  -- outside quotes, from a separator on
  | case4 c r hc =>
    obtain ⟨rfl, rfl⟩ := Prod.mk.inj (Option.some.inj h)
    refine ⟨Nat.zero_le _, [], rfl, fun c' hc' => ?_, Nat.le_refl _, id, fun hq => absurd rfl hq,
      fun _ => rfl⟩
    obtain rfl := Option.some.inj hc'
    exact hc
  | case5 => cases h
  | case6 r _ _ ih =>
    obtain ⟨-, raw, hraw⟩ := ih h
    exact ⟨Nat.zero_le _, _, hraw.quote (by decide)⟩
  | case7 r _ _ _ ih =>
    obtain ⟨-, raw, hraw⟩ := ih h
    exact ⟨Nat.zero_le _, _, hraw.quote (by decide)⟩
  | case8 r hd _ _ _ _ ih =>
    obtain ⟨v', hs, rfl⟩ := exists_of_map_eq (w := ['$']) h
    obtain ⟨-, raw, hraw⟩ := ih hs
    exact ⟨Nat.zero_le _, _, hraw.literal fun _ => ⟨by decide, fun _ => literal_of_dollar hd⟩⟩
  | case9 r w n hd _ _ _ _ ih =>
    obtain ⟨v', hs, rfl⟩ := exists_of_map_eq h
    obtain ⟨-, raw, hraw⟩ := ih hs
    exact ⟨Nat.zero_le _, _, hraw.value hd⟩
  | case10 r q hd _ _ _ _ ih =>
    obtain ⟨-, raw, hraw⟩ := ih h
    exact ⟨Nat.zero_le _, hraw.opens hd⟩
  | case11 => cases h
  | case12 c r h₁ h₂ h₃ h₄ h₅ ih =>
    obtain ⟨v', hs, rfl⟩ := exists_of_map_eq (w := [c]) h
    obtain ⟨-, raw, hraw⟩ := ih hs
    refine ⟨Nat.zero_le _, _, hraw.literal fun _ => ⟨?_, fun hc => absurd hc h₅⟩⟩
    simp [isSpecial, h₁, h₂, h₃, h₄]
  -- between single quotes
  | case13 r ih =>
    obtain ⟨-, raw, hraw⟩ := ih h
    exact ⟨Nat.zero_le _, _, hraw.quote (by decide)⟩
  | case14 c r _ ih =>
    obtain ⟨v', hs, rfl⟩ := exists_of_map_eq (w := [c]) h
    obtain ⟨-, raw, hraw⟩ := ih hs
    exact ⟨Nat.zero_le _, _, hraw.literal fun hq => by cases hq⟩
  -- between double quotes
  | case15 r ih =>
    obtain ⟨-, raw, hraw⟩ := ih h
    exact ⟨Nat.zero_le _, _, hraw.quote (by decide)⟩
  | case16 => cases h
  | case17 r hd _ _ ih =>
    obtain ⟨v', hs, rfl⟩ := exists_of_map_eq (w := ['$']) h
    obtain ⟨-, raw, hraw⟩ := ih hs
    exact ⟨Nat.zero_le _, _, hraw.literal fun hq => by cases hq⟩
  | case18 r w n hd _ _ ih =>
    obtain ⟨v', hs, rfl⟩ := exists_of_map_eq h
    obtain ⟨-, raw, hraw⟩ := ih hs
    exact ⟨Nat.zero_le _, _, hraw.value hd⟩
  | case19 r q hd _ _ ih =>
    obtain ⟨-, raw, hraw⟩ := ih h
    exact ⟨Nat.zero_le _, hraw.opens hd⟩
  | case20 => cases h
  | case21 c r _ _ _ ih =>
    obtain ⟨v', hs, rfl⟩ := exists_of_map_eq (w := [c]) h
    obtain ⟨-, raw, hraw⟩ := ih hs
    exact ⟨Nat.zero_le _, _, hraw.literal fun hq => by cases hq⟩
  -- between the quotes of `$'..'`
  | case22 r ih =>
    obtain ⟨-, raw, hraw⟩ := ih h
    exact ⟨Nat.zero_le _, _, hraw.quote (by decide)⟩
  | case23 => cases h
  | case24 c r _ _ ih =>
    obtain ⟨v', hs, rfl⟩ := exists_of_map_eq (w := [c]) h
    obtain ⟨-, raw, hraw⟩ := ih hs
    exact ⟨Nat.zero_le _, _, hraw.literal fun hq => by cases hq⟩

/-- **Only a plain word is its own value**: where nothing is set, a line whose word is read as the
text that was written has a plain word. -/
theorem plain_of_scan {word more rest : Text} (hn : '\n' ∉ word)
    (h : scan bareEnv 0 .plain (word ++ '\n' :: more) = some (word, rest)) : plain word = true := by
  obtain ⟨-, raw, hs⟩ := spelled_of_scan h
  have hraw : '\n' ∉ raw := fun hm => hn (hs.newline hm)
  have hword : raw = word := by
    rcases List.append_eq_append_iff.1 hs.text with ⟨more', rfl, hmore⟩ | ⟨more', rfl, -⟩
    · -- the word that was read ends before the newline
      cases more' with
      | nil => exact List.append_nil _
      | cons c more' =>
        obtain rfl : '\n' = c := (List.cons.inj hmore).1
        exact absurd (List.mem_append_right _ List.mem_cons_self) hraw
    · -- and it is not shorter than its value
      have hle := hs.le
      rw [List.length_append] at hle
      rw [List.eq_nil_of_length_eq_zero (Nat.le_zero.1 (by omega) : more'.length = 0),
        List.append_nil]
  exact hword ▸ hs.plain (by rw [hword])

end Sources

end InstallKit
