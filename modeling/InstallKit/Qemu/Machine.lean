import InstallKit.Text.Awk
import Mathlib.Data.List.MinMax
import Mathlib.Data.Prod.Lex

/-!
# The machine that `xnu_qemu_vm.sh` starts

`select_machine` asks QEMU for its machine types and takes the one that the environment names, or
the oldest `pc-i440fx-X.Y`, or else one of two names.  The oldest is found by `awk` in one pass that
keeps the best line so far; its version numbers are numbers of `awk`.

* `foldl_step` : after any lines the pass holds the first of the smallest versions.
* `select_machine_exact` : what is printed, and when the function dies.
* `wide_version_wrong` : above `2 ^ 53` the version that is taken need not be the smallest.
-/

namespace InstallKit

namespace Qemu

open Sources Awk

/-! ### The pass of `awk` -/

/-- The beginning of the names with a version. -/
def versionPrefix : Text := txt "pc-i440fx-"

/-- `[0-9]+` -/
def isNumber (t : Text) : Bool := t ≠ [] && t.all Char.isDigit

/-- `/^pc-i440fx-[0-9]+\.[0-9]+$/` -/
def isVersioned (t : Text) : Bool :=
  versionPrefix.isPrefixOf t &&
    match (t.drop versionPrefix.length).splitOn '.' with
    | [major, minor] => isNumber major && isNumber minor
    | _ => false

/-- `sub` cuts the beginning off, and `split(version, component, ".")` cuts the rest at its dots. -/
def components (field : Text) : List Text := (field.drop versionPrefix.length).splitOn '.'

def majorOf (field : Text) : WithTop ℕ := number ((components field).getD 0 [])

def minorOf (field : Text) : WithTop ℕ := number ((components field).getD 1 [])

/-- The variables of the pass. -/
structure Best where
  found : Bool
  bestMajor : WithTop ℕ
  bestMinor : WithTop ℕ
  best : Text

/-- Variables that are not set yet are empty, and zero as numbers. -/
def Best.init : Best := ⟨false, number [], number [], []⟩

/-- One line. -/
def Best.step (b : Best) (line : Text) : Best :=
  let field := firstField line
  if isVersioned field then
    let major := majorOf field
    let minor := minorOf field
    if !b.found || major < b.bestMajor || (major = b.bestMajor && minor < b.bestMinor) then
      ⟨true, major, minor, field⟩
    else b
  else b

/-- What is printed at the end, without its newline. -/
def Best.shown (b : Best) : Text := if b.found then b.best else []

/-! ### `select_machine` -/

/-- `awk '$1 == machine { found = 1 } END { exit !found }'`, for a word that does not begin as a
number does, so that words are compared and not numbers. -/
def lists (machineHelp machine : Text) : Bool :=
  (lines (machineHelp ++ ['\n'])).any fun l => firstField l = machine

/-- `select_machine`: the name that it prints, or the message with which it dies.  QEMU may fail. -/
def selectMachine (help : Option Text) (machineOverride : Text) : Except Text Text :=
  match help with
  | none => .error (txt "Could not query QEMU machine types")
  | some out =>
    let machineHelp := captured out
    if machineOverride ≠ [] then
      if '\n' ∈ machineOverride ∨ ',' ∈ machineOverride then
        .error (txt "XNU_QEMU_MACHINE must be one machine-type name")
      else if lists machineHelp machineOverride then .ok machineOverride
      else .error (txt "Requested QEMU machine type is unavailable: " ++ machineOverride)
    else
      let candidate := ((lines (machineHelp ++ ['\n'])).foldl Best.step Best.init).shown
      if candidate ≠ [] then .ok candidate
      else
        match [txt "pc", txt "pc-i440fx"].find? (lists machineHelp) with
        | some candidate => .ok candidate
        | none => .error (txt "This QEMU build exposes no i440fx machine type")

/-! ### What is listed -/

/-- The word is the first one of a line. -/
def Listed (out machine : Text) : Prop := ∃ line ∈ lines out, firstField line = machine

instance (out machine : Text) : Decidable (Listed out machine) :=
  inferInstanceAs (Decidable (∃ line ∈ lines out, firstField line = machine))

/-- `[a-z][a-z0-9.-]*` -/
def IsMachineName (t : Text) : Prop :=
  ∃ c s, t = c :: s ∧ c.isLower = true ∧
    ∀ d ∈ s, d.isLower = true ∨ d.isDigit = true ∨ d = '.' ∨ d = '-'

/-- The machine has the version. -/
def IsVersion (machine : Text) (v : ℕ × ℕ) : Prop :=
  ∃ major minor, isNumber major = true ∧ isNumber minor = true ∧
    machine = versionPrefix ++ (major ++ '.' :: minor) ∧ v = (value major, value minor)

/-- A version in the numbers of `awk`. -/
def rounded (v : ℕ × ℕ) : WithTop ℕ ×ₗ WithTop ℕ := toLex (double v.1, double v.2)

variable {out out' machine : Text} {v v' : ℕ × ℕ} {ls : List Text}

theorem mem_firstFields (hne : machine ≠ []) : machine ∈ firstFields out ↔ Listed out machine := by
  simp [firstFields, Listed, hne]

theorem lists_captured (hne : machine ≠ []) :
    lists (captured out) machine = true ↔ Listed out machine := by
  rw [← mem_firstFields hne, ← words_captured, mem_firstFields hne]
  simp [lists, Listed]

theorem splitOn_dot {t : Text} (h : isNumber t = true) : '.' ∉ t := by
  simp only [isNumber, Bool.and_eq_true, List.all_eq_true] at h
  intro hdot
  exact absurd (h.2 _ hdot) (by decide)

/-- **The regular expression** matches the names with a version. -/
theorem isVersioned_iff : isVersioned machine = true ↔ ∃ v, IsVersion machine v := by
  constructor
  · intro h
    rw [isVersioned, Bool.and_eq_true, List.isPrefixOf_iff_prefix] at h
    obtain ⟨⟨s, rfl⟩, hmatch⟩ := h
    rw [List.drop_left] at hmatch
    split at hmatch
    · rename_i major minor hsplit
      rw [Bool.and_eq_true] at hmatch
      have hjoin : ['.'].intercalate (s.splitOn '.') = s := List.intercalate_splitOn '.'
      refine ⟨_, major, minor, hmatch.1, hmatch.2, ?_, rfl⟩
      rw [← hjoin, hsplit]
      simp [List.intercalate]
    · cases hmatch
  · rintro ⟨v, major, minor, hmajor, hminor, rfl, -⟩
    rw [isVersioned, Bool.and_eq_true, List.isPrefixOf_iff_prefix, List.drop_left,
      List.splitOn_append_cons_self, List.splitOn_eq_singleton (splitOn_dot hmajor),
      List.splitOn_eq_singleton (splitOn_dot hminor)]
    exact ⟨List.prefix_append _ _, by simp [hmajor, hminor]⟩

/-- The version of a name as `awk` compares it. -/
def versionKey (machine : Text) : WithTop ℕ ×ₗ WithTop ℕ := toLex (majorOf machine, minorOf machine)

theorem versionKey_eq (h : IsVersion machine v) : versionKey machine = rounded v := by
  obtain ⟨major, minor, hmajor, hminor, rfl, rfl⟩ := h
  rw [versionKey, majorOf, minorOf, components, List.drop_left, List.splitOn_append_cons_self,
    List.splitOn_eq_singleton (splitOn_dot hmajor), List.splitOn_eq_singleton (splitOn_dot hminor)]
  rfl

/-! ### The pass finds the smallest version -/

/-- The variables hold a machine, or none yet. -/
def Best.Holds (b : Best) : Option Text → Prop
  | none => b.found = false
  | some m => b.found = true ∧ b.best = m ∧ b.bestMajor = majorOf m ∧ b.bestMinor = minorOf m

/-- **One line** keeps the machine unless it has a smaller version. -/
theorem Best.Holds.step {b : Best} {o : Option Text} (h : b.Holds o) (line : Text) :
    (b.step line).Holds (if isVersioned (firstField line) then
      o.elim (some (firstField line)) fun m =>
        if versionKey (firstField line) < versionKey m then some (firstField line) else some m
      else o) := by
  unfold Best.step
  by_cases hv : isVersioned (firstField line) = true
  · simp only [hv, if_true]
    cases o with
    | none =>
      -- the flag guards the variables that are not set yet
      have hfound : b.found = false := h
      simp [hfound, Holds]
    | some m =>
      obtain ⟨hfound, hbest, hmajor, hminor⟩ := h
      have hlt : versionKey (firstField line) < versionKey m ↔
          majorOf (firstField line) < b.bestMajor ∨
            majorOf (firstField line) = b.bestMajor ∧ minorOf (firstField line) < b.bestMinor := by
        rw [hmajor, hminor]
        exact Prod.Lex.toLex_lt_toLex
      simp only [Option.elim_some, hlt, hfound, Bool.not_true, Bool.false_or, Bool.or_eq_true,
        Bool.and_eq_true, decide_eq_true_eq]
      split
      · exact ⟨rfl, rfl, rfl, rfl⟩
      · exact ⟨hfound, hbest, hmajor, hminor⟩
  · simp only [hv]
    exact h

/-- **Any lines**: what is held is the first of the smallest versions. -/
theorem foldl_step (ls : List Text) : (ls.foldl Best.step Best.init).Holds
    (((ls.map firstField).filter isVersioned).argmin versionKey) := by
  induction ls using List.reverseRecOn with
  | nil => rfl
  | append_singleton ls line ih =>
    have hstep := ih.step line
    rw [List.foldl_append, List.map_append, List.filter_append, List.foldl_cons, List.foldl_nil]
    by_cases hv : isVersioned (firstField line) = true
    · -- `argmin` keeps the earlier one of two equal versions, as the strict comparisons do
      rw [if_pos hv] at hstep
      have hline : ([line].map firstField).filter isVersioned = [firstField line] := by simp [hv]
      rw [hline, List.argmin_concat]
      cases ho : ((ls.map firstField).filter isVersioned).argmin versionKey with
      | none => rwa [ho] at hstep
      | some m => rwa [ho] at hstep
    · rw [if_neg hv] at hstep
      have hline : ([line].map firstField).filter isVersioned = [] := by simp [hv]
      rw [hline, List.append_nil]
      exact hstep

theorem Best.Holds.shown {b : Best} {o : Option Text} (h : b.Holds o) : b.shown = o.getD [] := by
  cases o with
  | none => rw [Best.shown, show b.found = false from h]; rfl
  | some m => rw [Best.shown, h.1, if_pos rfl, h.2.1]; rfl

/-- The oldest of the listed versions. -/
def oldest (out : Text) : Option Text := ((firstFields out).filter isVersioned).argmin versionKey

theorem isVersioned_nil : isVersioned [] = false := by decide +kernel

theorem shown_eq_oldest (out : Text) :
    ((lines (captured out ++ ['\n'])).foldl Best.step Best.init).shown = (oldest out).getD [] := by
  rw [(foldl_step _).shown, oldest, ← words_captured, firstFields, List.filter_filter]
  congr 3
  funext m
  by_cases hm : m = []
  · rw [hm, isVersioned_nil, Bool.false_and]
  · simp [hm]

theorem mem_versioned : machine ∈ (firstFields out).filter isVersioned ↔
    Listed out machine ∧ ∃ v, IsVersion machine v := by
  rw [List.mem_filter, isVersioned_iff]
  refine and_congr_left fun ⟨v, hv⟩ => mem_firstFields ?_
  obtain ⟨major, minor, -, -, rfl, -⟩ := hv
  have hprefix : versionPrefix ≠ [] := by decide +kernel
  exact fun hnil => hprefix (List.append_eq_nil_iff.1 hnil).1

/-- Without an override, the oldest version is printed, or one of the two names. -/
theorem selectMachine_nil (out : Text) : selectMachine (some out) [] =
    match oldest out with
    | some m => .ok m
    | none =>
      if Listed out (txt "pc") then .ok (txt "pc")
      else if Listed out (txt "pc-i440fx") then .ok (txt "pc-i440fx")
      else .error (txt "This QEMU build exposes no i440fx machine type") := by
  simp only [selectMachine, shown_eq_oldest]
  cases ho : oldest out with
  | some m =>
    have hne : m ≠ [] := by
      rintro rfl
      have hmem := List.of_mem_filter (List.argmin_mem ho)
      rw [isVersioned_nil] at hmem
      cases hmem
    simp [hne]
  | none =>
    have hpc : txt "pc" ≠ [] := by decide +kernel
    have hi440fx : txt "pc-i440fx" ≠ [] := by decide +kernel
    -- the two names are tried one after the other
    simp only [Option.getD_none, ne_eq, not_true_eq_false, if_false, List.find?_cons,
      List.find?_nil]
    by_cases h₁ : Listed out (txt "pc")
    · rw [(lists_captured hpc).2 h₁, if_pos h₁]
    · rw [Bool.eq_false_iff.2 (mt (lists_captured hpc).1 h₁), if_neg h₁]
      by_cases h₂ : Listed out (txt "pc-i440fx")
      · rw [(lists_captured hi440fx).2 h₂, if_pos h₂]
      · rw [Bool.eq_false_iff.2 (mt (lists_captured hi440fx).1 h₂), if_neg h₂]

/-- With an override, it is printed if it is listed. -/
theorem selectMachine_override (out : Text) {o : Text} (ho : IsMachineName o) :
    selectMachine (some out) o = if Listed out o then .ok o
      else .error (txt "Requested QEMU machine type is unavailable: " ++ o) := by
  obtain ⟨c, s, rfl, hc, hs⟩ := ho
  have hplain : ∀ d ∈ c :: s, d ≠ '\n' ∧ d ≠ ',' := by
    intro d hd
    have hchar : d.isLower = true ∨ d.isDigit = true ∨ d = '.' ∨ d = '-' := by
      rcases List.mem_cons.1 hd with rfl | hd
      · exact Or.inl hc
      · exact hs d hd
    constructor
    · rintro rfl
      revert hchar
      decide
    · rintro rfl
      revert hchar
      decide
  -- the guard against newlines and commas lets such a name through
  have hguard : ¬ ('\n' ∈ c :: s ∨ ',' ∈ c :: s) := by
    rintro (h | h)
    · exact (hplain _ h).1 rfl
    · exact (hplain _ h).2 rfl
  simp only [selectMachine, if_pos (List.cons_ne_nil c s), if_neg hguard,
    lists_captured (List.cons_ne_nil c s)]

/-! ### The numbers of `awk` and whole numbers -/

/-- A line begins with a name of this version. -/
def ListsVersion (out : Text) (v : ℕ × ℕ) : Prop := ∃ m, Listed out m ∧ IsVersion m v

/-- All the versions are small enough to be exact in double precision. -/
def Exact (out : Text) : Prop := ∀ v, ListsVersion out v → v.1 ≤ 2 ^ 53 ∧ v.2 ≤ 2 ^ 53

theorem rounded_le_iff (h : v.1 ≤ 2 ^ 53 ∧ v.2 ≤ 2 ^ 53) (h' : v'.1 ≤ 2 ^ 53 ∧ v'.2 ≤ 2 ^ 53) :
    rounded v ≤ rounded v' ↔ toLex v ≤ toLex v' := by
  rw [rounded, rounded, double_of_le h.1, double_of_le h.2, double_of_le h'.1, double_of_le h'.2,
    Prod.Lex.toLex_le_toLex, Prod.Lex.toLex_le_toLex, WithTop.coe_lt_coe, WithTop.coe_le_coe,
    WithTop.coe_inj]

theorem oldest_spec {m : Text} (h : oldest out = some m) : ∃ v, Listed out m ∧ IsVersion m v ∧
    ∀ v', ListsVersion out v' → rounded v ≤ rounded v' := by
  obtain ⟨hm, v, hv⟩ := mem_versioned.1 (List.argmin_mem h)
  refine ⟨v, hm, hv, ?_⟩
  rintro v' ⟨m', hm', hv'⟩
  rw [← versionKey_eq hv, ← versionKey_eq hv']
  exact List.le_of_mem_argmin (mem_versioned.2 ⟨hm', v', hv'⟩) h

theorem oldest_eq_none_iff : oldest out = none ↔ ¬ ∃ v, ListsVersion out v := by
  rw [oldest, List.argmin_eq_none, List.eq_nil_iff_forall_not_mem]
  simp only [mem_versioned, ListsVersion]
  constructor
  · rintro h ⟨v, m, hm, hv⟩
    exact h m ⟨hm, v, hv⟩
  · rintro h m ⟨hm, v, hv⟩
    exact h ⟨v, m, hm, hv⟩

/-! ### The order of the lines -/

/-- Both runs do the same, or take machines whose versions are related. -/
def SameUpTo (R : ℕ × ℕ → ℕ × ℕ → Prop) (r r' : Except Text Text) : Prop :=
  r = r' ∨ ∃ m m' v v', r = .ok m ∧ r' = .ok m' ∧ IsVersion m v ∧ IsVersion m' v' ∧ R v v'

theorem SameUpTo.mono {R R' : ℕ × ℕ → ℕ × ℕ → Prop} {r r' : Except Text Text}
    (h : SameUpTo R r r') (hR : ∀ v v', R v v' → R' v v') : SameUpTo R' r r' := by
  rcases h with heq | ⟨m, m', v, v', hr, hr', hv, hv', hrel⟩
  · exact Or.inl heq
  · exact Or.inr ⟨m, m', v, v', hr, hr', hv, hv', hR v v' hrel⟩

theorem listed_congr (h : (lines out).Perm (lines out')) :
    Listed out machine ↔ Listed out' machine :=
  exists_congr fun _ => and_congr_left fun _ => h.mem_iff

theorem listsVersion_congr (h : (lines out).Perm (lines out')) :
    ListsVersion out v ↔ ListsVersion out' v :=
  exists_congr fun _ => and_congr_left fun _ => listed_congr h

/-- The order of the lines only decides among versions that are equal in the numbers of `awk`. -/
theorem sameUpTo_of_perm (h : (lines out).Perm (lines out')) :
    SameUpTo (fun v v' => rounded v = rounded v' ∧ ListsVersion out v ∧ ListsVersion out v')
      (selectMachine (some out) []) (selectMachine (some out') []) := by
  rw [selectMachine_nil, selectMachine_nil]
  cases ho : oldest out with
  | none =>
    have ho' : oldest out' = none := by
      rw [oldest_eq_none_iff] at ho ⊢
      simpa only [listsVersion_congr h] using ho
    left
    simp only [ho', listed_congr h]
  | some m =>
    obtain ⟨v, hm, hv, hmin⟩ := oldest_spec ho
    cases ho' : oldest out' with
    | none => exact absurd ⟨v, (listsVersion_congr h).1 ⟨m, hm, hv⟩⟩ (oldest_eq_none_iff.1 ho')
    | some m' =>
      obtain ⟨v', hm', hv', hmin'⟩ := oldest_spec ho'
      have hlist : ListsVersion out v' := (listsVersion_congr h).2 ⟨m', hm', hv'⟩
      have heq : rounded v = rounded v' :=
        le_antisymm (hmin v' hlist) (hmin' v ((listsVersion_congr h).1 ⟨m, hm, hv⟩))
      exact Or.inr ⟨m, m', v, v', rfl, rfl, hv, hv', heq, ⟨m, hm, hv⟩, hlist⟩

/-- **The machine that is selected.**  An override is printed exactly when a line begins with it.
Without one, a listed version is printed that is the smallest in the numbers of `awk`, and so the
smallest if no number is above `2 ^ 53`; or else the first of the two names that is listed; and the
function dies only without any of them.  The order of the lines only decides among versions that are
equal, in the numbers of `awk`. -/
theorem select_machine_exact (out : Text) :
    (∀ o, IsMachineName o → selectMachine (some out) o = if Listed out o then .ok o
      else .error (txt "Requested QEMU machine type is unavailable: " ++ o)) ∧
    ((∃ v, ListsVersion out v) → ∃ best w, Listed out best ∧ IsVersion best w ∧
      selectMachine (some out) [] = .ok best ∧
      (∀ v, ListsVersion out v → rounded w ≤ rounded v) ∧
      (Exact out → ∀ v, ListsVersion out v → toLex w ≤ toLex v)) ∧
    ((¬ ∃ v, ListsVersion out v) → selectMachine (some out) [] =
      if Listed out (txt "pc") then .ok (txt "pc")
      else if Listed out (txt "pc-i440fx") then .ok (txt "pc-i440fx")
      else .error (txt "This QEMU build exposes no i440fx machine type")) ∧
    ∀ out', (lines out).Perm (lines out') →
      SameUpTo (fun v v' => rounded v = rounded v') (selectMachine (some out) [])
        (selectMachine (some out') []) ∧
      (Exact out → SameUpTo Eq (selectMachine (some out) []) (selectMachine (some out') [])) := by
  refine ⟨fun o ho => selectMachine_override out ho, fun hsome => ?_, fun hnone => ?_,
    fun out' hperm => ⟨?_, fun hexact => ?_⟩⟩
  · cases ho : oldest out with
    | none => exact absurd hsome (oldest_eq_none_iff.1 ho)
    | some best =>
      obtain ⟨w, hbest, hw, hmin⟩ := oldest_spec ho
      refine ⟨best, w, hbest, hw, by rw [selectMachine_nil, ho], hmin, fun hexact v hv => ?_⟩
      exact (rounded_le_iff (hexact w ⟨best, hbest, hw⟩) (hexact v hv)).1 (hmin v hv)
  · rw [selectMachine_nil, oldest_eq_none_iff.2 hnone]
  · exact (sameUpTo_of_perm hperm).mono fun _ _ h => h.1
  · -- below 2 ^ 53 the rounded versions have the order of the versions
    refine (sameUpTo_of_perm hperm).mono fun v v' ⟨heq, hv, hv'⟩ => toLex_inj.1 (le_antisymm ?_ ?_)
    · exact (rounded_le_iff (hexact v hv) (hexact v' hv')).1 heq.le
    · exact (rounded_le_iff (hexact v' hv') (hexact v hv)).1 heq.ge

/-- Two versions that are the same number for `awk`. -/
def wideListing : Text :=
  unlines [txt "pc-i440fx-9007199254740993.0 Standard PC",
    txt "pc-i440fx-9007199254740992.0 Standard PC"]

/-- **Not the smallest version**: of these two the first one is printed, and the second one is
smaller. -/
theorem wide_version_wrong : ∃ m m' v v', selectMachine (some wideListing) [] = .ok m ∧
    IsVersion m v ∧ Listed wideListing m' ∧ IsVersion m' v' ∧ toLex v' < toLex v := by
  refine ⟨txt "pc-i440fx-9007199254740993.0", txt "pc-i440fx-9007199254740992.0",
    (9007199254740993, 0), (9007199254740992, 0), by decide +kernel,
    ⟨txt "9007199254740993", txt "0", by decide +kernel⟩, by decide +kernel,
    ⟨txt "9007199254740992", txt "0", by decide +kernel⟩, by decide⟩

end Qemu

end InstallKit
