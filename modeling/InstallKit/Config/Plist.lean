import InstallKit.Sources.Text
import Mathlib.Data.List.Induction
import Mathlib.Data.List.Nodup

/-!
# Property lists and assignments into them

A property list is a tree of dictionaries, and `config["A"]["B"]["C"] = v` of Python is
`Plist.set config ["A", "B", "C"] v`: every dictionary on the way has to exist.  A program that
fills in a configuration is a list of such writes (`Plist.writes`).

* `Plist.get_of_written` : what is read afterwards is the last value written, if no write goes
  above or below the path;
* `Plist.exists_writes` : the writes succeed where the dictionaries they go into exist;
* `Plist.writes_inherit` : of two trees with the same writes, what is at or below a written path is
  the same afterwards, and everything else comes from the tree it was in.
-/

namespace InstallKit

open Sources

/-- A key of a dictionary. -/
inductive Key
  | str (k : String)
  /-- A key that is no string, as only a binary property list has it.  No program asks for one, so
  that it is only told from the others. -/
  | other (id : ℕ)
  deriving DecidableEq

instance : Coe String Key := ⟨.str⟩

theorem Key.str_ne {k k' : String} (h : k ≠ k') : Key.str k ≠ Key.str k' := fun he => h (str.inj he)

/-- A property list.  A real number is given by its 64 bits, a date by its text; only a binary
property list can hold a `UID`. -/
inductive Plist
  | bool (b : Bool)
  | int (n : Int)
  | real (bits : UInt64)
  | uid (n : ℕ)
  | date (s : Text)
  | str (s : Text)
  | data (b : List UInt8)
  | array (xs : List Plist)
  | dict (kvs : List (Key × Plist))

/-- What membership in a list of paths is decided with. -/
instance (priority := high) lawfulBEqPath : LawfulBEq (List String) := inferInstance

/-- `d[k] = v`: in its place, or at the end. -/
def dictInsert (k : Key) (v : Plist) : List (Key × Plist) → List (Key × Plist)
  | [] => [(k, v)]
  | (k', v') :: kvs => if k' = k then (k, v) :: kvs else (k', v') :: dictInsert k v kvs

theorem lookup_dictInsert_self (k : Key) (v : Plist) (kvs : List (Key × Plist)) :
    (dictInsert k v kvs).lookup k = some v := by
  induction kvs with
  | nil => simp [dictInsert]
  | cons kv kvs ih =>
    obtain ⟨k', v'⟩ := kv
    by_cases h : k' = k
    · simp [dictInsert, h]
    · have hne : (k == k') = false := by simpa using fun he => h he.symm
      rw [dictInsert, if_neg h, List.lookup_cons, hne]
      exact ih

theorem lookup_dictInsert_ne {k k' : Key} (h : k' ≠ k) (v : Plist)
    (kvs : List (Key × Plist)) : (dictInsert k v kvs).lookup k' = kvs.lookup k' := by
  have hne : (k' == k) = false := by simpa using h
  induction kvs with
  | nil => rw [dictInsert, List.lookup_cons, hne]
  | cons kv kvs ih =>
    obtain ⟨k₁, v₁⟩ := kv
    by_cases hk : k₁ = k
    · rw [dictInsert, if_pos hk, List.lookup_cons, List.lookup_cons, hk, hne]
    · rw [dictInsert, if_neg hk, List.lookup_cons, List.lookup_cons, ih]

namespace Plist

/-- The value at a path of keys. -/
def get : Plist → List String → Option Plist
  | d, [] => some d
  | .dict kvs, k :: p => (kvs.lookup (.str k)).bind fun d => d.get p
  | _, _ :: _ => none

/-- Assign to the last key of a path. -/
def set : Plist → List String → Plist → Option Plist
  | .dict kvs, [k], v => some (.dict (dictInsert k v kvs))
  | .dict kvs, k :: p, v =>
    (kvs.lookup (.str k)).bind fun d => (d.set p v).map fun d' => .dict (dictInsert k d' kvs)
  | _, _, _ => none

/-- There is a dictionary at the path. -/
def HasDict (d : Plist) (p : List String) : Prop := ∃ kvs, d.get p = some (.dict kvs)

/-- Neither path continues the other. -/
def apart (p q : List String) : Bool := !p.isPrefixOf q && !q.isPrefixOf p

variable {d d' v : Plist} {p q : List String}

@[simp] theorem get_nil (d : Plist) : d.get [] = some d := by cases d <;> rfl

theorem get_cons_eq_some {k : String} {x : Plist} :
    d.get (k :: p) = some x ↔ ∃ kvs d', d = .dict kvs ∧ kvs.lookup (.str k) = some d' ∧
      d'.get p = some x := by
  cases d <;> simp [get, Option.bind_eq_some_iff]

theorem get_append (d : Plist) (p q : List String) :
    d.get (p ++ q) = (d.get p).bind fun x => x.get q := by
  induction p generalizing d with
  | nil => simp
  | cons k p ih =>
    cases d with
    | dict kvs =>
      rw [List.cons_append, get, get, Option.bind_assoc]
      simp only [ih]
    | _ => rfl

/-- What an assignment does to the dictionary at the top. -/
theorem set_cons_eq_some {k : String} :
    d.set (k :: p) v = some d' ↔ ∃ kvs x, d = .dict kvs ∧ d' = .dict (dictInsert k x kvs) ∧
      ((p = [] ∧ x = v) ∨ (p ≠ [] ∧ ∃ y, kvs.lookup (.str k) = some y ∧ y.set p v = some x)) := by
  cases d with
  | dict kvs =>
    cases p with
    | nil => simp [set, eq_comm]
    | cons k' p =>
      simp only [set, Option.bind_eq_some_iff, Option.map_eq_some_iff, dict.injEq, reduceCtorEq,
        false_and, ne_eq, not_false_eq_true, true_and, false_or]
      exact ⟨fun ⟨y, hy, x, hx, he⟩ => ⟨kvs, x, rfl, he.symm, y, hy, hx⟩,
        fun ⟨_, x, hk, he, y, hy, hx⟩ => ⟨y, hk ▸ hy, x, hx, by rw [he, hk]⟩⟩
  | _ => simp [set]

/-- The value that was assigned. -/
theorem get_set_self (h : d.set p v = some d') : d'.get p = some v := by
  induction p generalizing d d' with
  | nil => cases d <;> cases h
  | cons k p ih =>
    obtain ⟨kvs, x, rfl, rfl, ⟨rfl, rfl⟩ | ⟨-, y, -, hy⟩⟩ := set_cons_eq_some.1 h
    · simp [get, lookup_dictInsert_self]
    · simp [get, lookup_dictInsert_self, ih hy]

/-- Every other value is as before. -/
theorem get_set_apart (h : d.set p v = some d') (hpq : apart p q = true) : d'.get q = d.get q := by
  induction p generalizing d d' q with
  | nil => simp [apart] at hpq
  | cons k p ih =>
    cases q with
    | nil => simp [apart] at hpq
    | cons k' q =>
      obtain ⟨kvs, x, rfl, rfl, hx⟩ := set_cons_eq_some.1 h
      by_cases hk : k' = k
      · subst hk
        have hpq' : apart p q = true := by simpa [apart, List.isPrefixOf_cons_cons] using hpq
        rcases hx with ⟨rfl, -⟩ | ⟨-, y, hy, hset⟩
        · simp [apart] at hpq'
        · simp [get, lookup_dictInsert_self, hy, ih hset hpq']
      · simp [get, lookup_dictInsert_ne (Key.str_ne hk)]

/-- An assignment succeeds in a dictionary. -/
theorem exists_set {k : String} (h : d.HasDict p) : ∃ d', d.set (p ++ [k]) v = some d' := by
  induction p generalizing d with
  | nil =>
    obtain ⟨kvs, h⟩ := h
    obtain rfl : d = .dict kvs := by simpa using h
    exact ⟨_, rfl⟩
  | cons k' p ih =>
    obtain ⟨kvs, h⟩ := h
    obtain ⟨kvs', y, rfl, hy, hget⟩ := get_cons_eq_some.1 h
    obtain ⟨x, hx⟩ := ih ⟨kvs, hget⟩
    exact ⟨_, set_cons_eq_some.2 ⟨kvs', x, rfl, rfl, Or.inr ⟨by simp, y, hy, hx⟩⟩⟩

/-- It leaves the other dictionaries dictionaries, unless it replaces one or one around it. -/
theorem HasDict.set (h : d.HasDict q) (hset : d.set p v = some d') (hp : ¬ p <+: q) :
    d'.HasDict q := by
  induction p generalizing d d' q with
  | nil => cases d <;> cases hset
  | cons k p ih =>
    obtain ⟨kvs, x, rfl, rfl, hx⟩ := set_cons_eq_some.1 hset
    cases q with
    | nil => exact ⟨_, get_nil _⟩
    | cons k' q =>
      obtain ⟨kvs', h⟩ := h
      obtain ⟨kvs'', y, hd, hy, hget⟩ := get_cons_eq_some.1 h
      obtain rfl : kvs = kvs'' := by simpa using hd
      by_cases hk : k' = k
      · subst hk
        rcases hx with ⟨rfl, -⟩ | ⟨-, y', hy', hset'⟩
        · exact absurd (List.cons_prefix_cons.2 ⟨rfl, List.nil_prefix⟩) hp
        · obtain rfl : y' = y := Option.some.inj (hy'.symm.trans hy)
          obtain ⟨kvs₁, h₁⟩ := ih ⟨kvs', hget⟩ hset'
            fun hpre => hp (List.cons_prefix_cons.2 ⟨rfl, hpre⟩)
          exact ⟨kvs₁, get_cons_eq_some.2 ⟨_, x, rfl, lookup_dictInsert_self _ _ _, h₁⟩⟩
      · exact ⟨kvs', get_cons_eq_some.2 ⟨_, y, rfl, by rw [lookup_dictInsert_ne (Key.str_ne hk), hy],
          hget⟩⟩

/-! ### Programs of writes -/

/-- Assignments, one after the other. -/
def writes (d : Plist) (ws : List (List String × Plist)) : Option Plist :=
  ws.foldlM (fun d w => d.set w.1 w.2) d

/-- The last value written to the path. -/
def written (ws : List (List String × Plist)) (p : List String) : Option Plist :=
  ws.foldl (fun v w => if w.1 = p then some w.2 else v) none

@[simp] theorem written_nil (p : List String) : written [] p = none := rfl

theorem written_append (ws ws' : List (List String × Plist)) (p : List String) :
    written (ws ++ ws') p = (written ws' p).or (written ws p) := by
  have hconcat : ∀ (ws : List (List String × Plist)) (w : List String × Plist),
      written (ws ++ [w]) p = if w.1 = p then some w.2 else written ws p := by
    intro ws w
    simp [written]
  induction ws' using List.reverseRecOn with
  | nil => simp
  | append_singleton ws' w ih =>
    rw [← List.append_assoc, hconcat, hconcat, ih]
    split <;> rfl

theorem written_cons (w : List String × Plist) (ws : List (List String × Plist)) (p : List String) :
    written (w :: ws) p = (written ws p).or (if w.1 = p then some w.2 else none) :=
  written_append [w] ws p

theorem written_ite (b : Bool) (ws : List (List String × Plist)) (p : List String) :
    written (if b then ws else []) p = if b then written ws p else none := by
  cases b <;> rfl

theorem written_eq_none {ws : List (List String × Plist)} (h : ∀ w ∈ ws, w.1 ≠ p) :
    written ws p = none := by
  induction ws with
  | nil => rfl
  | cons w ws ih =>
    rw [written_cons, ih fun w' hw' => h w' (List.mem_cons_of_mem _ hw'),
      if_neg (h w List.mem_cons_self), Option.none_or]

/-- Values that are replaced path by path. -/
theorem written_map (f : List String → Plist → Plist) (ws : List (List String × Plist))
    (p : List String) :
    written (ws.map fun w => (w.1, f w.1 w.2)) p = (written ws p).map (f p) := by
  induction ws with
  | nil => rfl
  | cons w ws ih =>
    rw [List.map_cons, written_cons, written_cons, ih]
    by_cases hp : w.1 = p
    · rw [if_pos hp, if_pos hp, hp]
      cases written ws p <;> rfl
    · rw [if_neg hp, if_neg hp, Option.or_none, Option.or_none]

/-- A value that all writes to the path have in common. -/
theorem written_of_forall {ws : List (List String × Plist)} (hp : ∃ w ∈ ws, w.1 = p)
    (hv : ∀ w ∈ ws, w.1 = p → w.2 = v) : written ws p = some v := by
  induction ws with
  | nil =>
    obtain ⟨w, hw, -⟩ := hp
    cases hw
  | cons w ws ih =>
    have hv' : ∀ w' ∈ ws, w'.1 = p → w'.2 = v := fun w' hw' => hv w' (List.mem_cons_of_mem _ hw')
    rw [written_cons]
    by_cases hlater : ∃ w' ∈ ws, w'.1 = p
    · rw [ih hlater hv', Option.some_or]
    · obtain ⟨w', hw', hp⟩ := hp
      rcases List.mem_cons.1 hw' with rfl | hw'
      · rw [written_eq_none fun w'' hw'' hp' => hlater ⟨w'', hw'', hp'⟩, Option.none_or, if_pos hp,
          hv w' List.mem_cons_self hp]
      · exact absurd ⟨w', hw', hp⟩ hlater

@[simp] theorem writes_nil (d : Plist) : d.writes [] = some d := rfl

theorem writes_cons_eq_some {w : List String × Plist} {ws : List (List String × Plist)} :
    d.writes (w :: ws) = some d' ↔ ∃ x, d.set w.1 w.2 = some x ∧ x.writes ws = some d' := by
  simp [writes, List.foldlM_cons, Option.bind_eq_some_iff]

theorem writes_append_eq_some {ws ws' : List (List String × Plist)} :
    d.writes (ws ++ ws') = some d' ↔ ∃ x, d.writes ws = some x ∧ x.writes ws' = some d' := by
  rw [writes, List.foldlM_append, Option.bind_eq_bind, Option.bind_eq_some_iff]
  rfl

/-- **Reading after writing**, where no write goes above or below the path. -/
theorem get_of_written {ws : List (List String × Plist)} (h : d.writes ws = some d')
    (hws : ∀ w ∈ ws, w.1 = p ∨ apart w.1 p = true) (hw : written ws p = some v) :
    d'.get p = some v := by
  -- the accumulator of the fold is what stands at the path, once something was written there
  suffices hacc : ∀ acc, (∀ x, acc = some x → d.get p = some x) →
      ws.foldl (fun v w => if w.1 = p then some w.2 else v) acc = some v → d'.get p = some v from
    hacc none (fun x hx => by cases hx) hw
  clear hw
  induction ws generalizing d with
  | nil =>
    intro acc hacc hv
    obtain rfl := Option.some.inj h
    exact hacc v hv
  | cons w ws ih =>
    intro acc hacc hv
    obtain ⟨y, hy, h⟩ := writes_cons_eq_some.1 h
    rw [List.foldl_cons] at hv
    refine ih h (fun w' hw' => hws w' (List.mem_cons_of_mem _ hw')) _ (fun x hx => ?_) hv
    split at hx
    · rename_i hp
      rw [← hp, get_set_self hy, hx]
    · rename_i hp
      rw [get_set_apart hy ((hws w List.mem_cons_self).resolve_left hp), hacc x hx]

/-- Writes to places that are apart from each other are all read back. -/
theorem get_of_mem_writes {ws : List (List String × Plist)} (h : d.writes ws = some d')
    (hnodup : (ws.map Prod.fst).Nodup)
    (hapart : ∀ p ∈ ws.map Prod.fst, ∀ q ∈ ws.map Prod.fst, p = q ∨ apart p q = true) :
    ∀ w ∈ ws, d'.get w.1 = some w.2 := by
  intro w hw
  refine get_of_written h (fun w' hw' => hapart _ (List.mem_map_of_mem hw') _
    (List.mem_map_of_mem hw)) (written_of_forall ⟨w, hw, rfl⟩ fun w' hw' he => ?_)
  rw [List.inj_on_of_nodup_map hnodup hw' hw he]

/-- What no write goes above or below stays as it is. -/
theorem get_writes_apart {ws : List (List String × Plist)} (h : d.writes ws = some d')
    (hws : ∀ w ∈ ws, apart w.1 q = true) : d'.get q = d.get q := by
  induction ws generalizing d with
  | nil =>
    obtain rfl := Option.some.inj h
    rfl
  | cons w ws ih =>
    obtain ⟨y, hy, h⟩ := writes_cons_eq_some.1 h
    rw [ih h fun w' hw' => hws w' (List.mem_cons_of_mem _ hw'),
      get_set_apart hy (hws w List.mem_cons_self)]

/-- **The writes succeed** if they go into dictionaries that exist and that no write replaces. -/
theorem exists_writes {sections : List (List String)} {ws : List (List String × Plist)}
    (hd : ∀ s ∈ sections, d.HasDict s)
    (hws : ∀ w ∈ ws, w.1.dropLast ∈ sections ∧ w.1 ≠ [] ∧ ∀ s ∈ sections, ¬ w.1 <+: s) :
    ∃ d', d.writes ws = some d' := by
  induction ws generalizing d with
  | nil => exact ⟨d, rfl⟩
  | cons w ws ih =>
    obtain ⟨hin, hne, hnot⟩ := hws w List.mem_cons_self
    obtain ⟨x, hx⟩ : ∃ x, d.set (w.1.dropLast ++ [w.1.getLast hne]) w.2 = some x :=
      exists_set (hd _ hin)
    rw [List.dropLast_concat_getLast] at hx
    obtain ⟨d', h⟩ := ih (fun s hs => (hd s hs).set hx (hnot s hs))
      fun w' hw' => hws w' (List.mem_cons_of_mem _ hw')
    exact ⟨d', writes_cons_eq_some.2 ⟨x, hx, h⟩⟩

/-! ### Writes that change nothing -/

theorem dictInsert_eq_self {k : Key} {kvs : List (Key × Plist)} (h : kvs.lookup k = some v) :
    dictInsert k v kvs = kvs := by
  induction kvs with
  | nil => cases h
  | cons kv kvs ih =>
    obtain ⟨k', v'⟩ := kv
    by_cases hk : k' = k
    · subst hk
      rw [List.lookup_cons_self] at h
      rw [dictInsert, if_pos rfl, Option.some.inj h]
    · have hne : (k == k') = false := by simpa using Ne.symm hk
      rw [List.lookup_cons, hne] at h
      rw [dictInsert, if_neg hk, ih h]

/-- Assigning the value that is there changes nothing. -/
theorem set_eq_self (h : d.get p = some v) (hp : p ≠ []) : d.set p v = some d := by
  induction p generalizing d with
  | nil => exact absurd rfl hp
  | cons k p ih =>
    obtain ⟨kvs, x, rfl, hx, hget⟩ := get_cons_eq_some.1 h
    cases p with
    | nil =>
      obtain rfl : x = v := by simpa using hget
      rw [set, dictInsert_eq_self hx]
    | cons k' p =>
      refine set_cons_eq_some.2 ⟨kvs, x, rfl, ?_, Or.inr ⟨List.cons_ne_nil _ _, x, hx,
        ih hget (List.cons_ne_nil _ _)⟩⟩
      rw [dictInsert_eq_self hx]

theorem writes_eq_self {ws : List (List String × Plist)}
    (h : ∀ w ∈ ws, w.1 ≠ [] ∧ d.get w.1 = some w.2) : d.writes ws = some d := by
  induction ws with
  | nil => rfl
  | cons w ws ih =>
    obtain ⟨⟨hne, hget⟩, hws⟩ := List.forall_mem_cons.1 h
    exact writes_cons_eq_some.2 ⟨d, set_eq_self hget hne, ih hws⟩

/-! ### The same writes into two trees -/

theorem apart_iff : apart p q = true ↔ ¬ p <+: q ∧ ¬ q <+: p := by
  rw [apart, Bool.and_eq_true, Bool.not_eq_true', Bool.not_eq_true', ← Bool.not_eq_true,
    ← Bool.not_eq_true, List.isPrefixOf_iff_prefix, List.isPrefixOf_iff_prefix]

theorem apart_comm : apart p q = apart q p := Bool.and_comm _ _

/-- What is apart from a path is apart from what is below it. -/
theorem apart_append_left {r : List String} (h : apart p q = true) : apart (p ++ r) q = true := by
  obtain ⟨h₁, h₂⟩ := apart_iff.1 h
  refine apart_iff.2 ⟨fun h => h₁ ((List.prefix_append p r).trans h), fun h => ?_⟩
  rcases List.prefix_or_prefix_of_prefix h (List.prefix_append p r) with h | h
  · exact h₂ h
  · exact h₁ h

/-- What a path does not reach is a proper continuation. -/
theorem ne_nil_of_not_isPrefix_self {r : List String} (h : ¬ q ++ r <+: q) : r ≠ [] := by
  rintro rfl
  rw [List.append_nil] at h
  exact h List.prefix_rfl

/-- A write below a path is a write into the dictionary at the path. -/
theorem get_set_above {r : List String} (h : d.set (q ++ r) v = some d') (hr : r ≠ []) :
    ∃ x x', d.get q = some x ∧ x.set r v = some x' ∧ d'.get q = some x' := by
  induction q generalizing d d' with
  | nil => exact ⟨d, d', get_nil d, h, get_nil d'⟩
  | cons k q ih =>
    obtain ⟨kvs, y', rfl, rfl, ⟨hnil, -⟩ | ⟨-, y, hy, hset⟩⟩ := set_cons_eq_some.1 h
    · exact absurd (List.append_eq_nil_iff.1 hnil).2 hr
    · obtain ⟨x, x', hx, hx', hget⟩ := ih hset
      exact ⟨x, x', get_cons_eq_some.2 ⟨kvs, y, rfl, hy, hx⟩, hx',
        get_cons_eq_some.2 ⟨_, y', rfl, lookup_dictInsert_self _ _ _, hget⟩⟩

/-- There is a dictionary above a path that is written. -/
theorem hasDict_of_set {r : List String} (h : d.set (q ++ r) v = some d') (hr : r ≠ []) :
    d.HasDict q := by
  obtain ⟨x, x', hx, hset, -⟩ := get_set_above h hr
  obtain ⟨k, r, rfl⟩ := List.exists_cons_of_ne_nil hr
  obtain ⟨kvs, _, rfl, -⟩ := set_cons_eq_some.1 hset
  exact ⟨kvs, hx⟩

/-- The trees are equal at the paths and below them. -/
def AgreeBelow (ps : List (List String)) (d₁ d₂ : Plist) : Prop :=
  ∀ q, (∃ p ∈ ps, p <+: q) → d₁.get q = d₂.get q

variable {ps : List (List String)} {d₁ d₂ d₁' d₂' : Plist}

/-- The same write makes them equal at one path more. -/
theorem AgreeBelow.set (h : AgreeBelow ps d₁ d₂) (h₁ : d₁.set p v = some d₁')
    (h₂ : d₂.set p v = some d₂') : AgreeBelow (p :: ps) d₁' d₂' := by
  rintro q ⟨w, hw, hwq⟩
  by_cases hpq : p <+: q
  · obtain ⟨r, rfl⟩ := hpq
    rw [get_append, get_append, get_set_self h₁, get_set_self h₂]
  · have hmem : w ∈ ps := (List.mem_cons.1 hw).resolve_left fun he => hpq (he ▸ hwq)
    by_cases hqp : q <+: p
    · -- the write goes below `q`, where the trees were equal
      obtain ⟨r, rfl⟩ := hqp
      have hr := ne_nil_of_not_isPrefix_self hpq
      obtain ⟨x₁, x₁', hx₁, hs₁, hg₁⟩ := get_set_above h₁ hr
      obtain ⟨x₂, x₂', hx₂, hs₂, hg₂⟩ := get_set_above h₂ hr
      have hx : x₁ = x₂ := by
        have := h q ⟨w, hmem, hwq⟩
        rw [hx₁, hx₂] at this
        exact Option.some.inj this
      rw [hg₁, hg₂, ← hs₁, ← hs₂, hx]
    · have hapart : apart p q = true := apart_iff.2 ⟨hpq, hqp⟩
      rw [get_set_apart h₁ hapart, get_set_apart h₂ hapart, h q ⟨w, hmem, hwq⟩]

theorem AgreeBelow.writes {ws : List (List String × Plist)} (h : AgreeBelow ps d₁ d₂)
    (h₁ : d₁.writes ws = some d₁') (h₂ : d₂.writes ws = some d₂') :
    AgreeBelow (ws.map Prod.fst ++ ps) d₁' d₂' := by
  induction ws generalizing ps d₁ d₂ with
  | nil =>
    obtain rfl := Option.some.inj h₁
    obtain rfl := Option.some.inj h₂
    exact h
  | cons w ws ih =>
    obtain ⟨x₁, hx₁, h₁⟩ := writes_cons_eq_some.1 h₁
    obtain ⟨x₂, hx₂, h₂⟩ := writes_cons_eq_some.1 h₂
    rintro q ⟨p, hp, hpq⟩
    refine ih (h.set hx₁ hx₂) h₁ h₂ q ⟨p, ?_, hpq⟩
    simp only [List.map_cons, List.cons_append, List.mem_cons, List.mem_append] at hp ⊢
    tauto

theorem HasDict.writes {ws : List (List String × Plist)} (h : d.HasDict q)
    (hws : d.writes ws = some d') (hnot : ∀ w ∈ ws, ¬ w.1 <+: q) : d'.HasDict q := by
  induction ws generalizing d with
  | nil =>
    obtain rfl := Option.some.inj hws
    exact h
  | cons w ws ih =>
    obtain ⟨x, hx, hws⟩ := writes_cons_eq_some.1 hws
    exact ih (h.set hx (hnot w List.mem_cons_self)) hws
      fun w' hw' => hnot w' (List.mem_cons_of_mem _ hw')

/-- A write does not make a dictionary out of something else. -/
theorem HasDict.of_set (h : d'.HasDict q) (hset : d.set p v = some d') (hp : ¬ p <+: q) :
    d.HasDict q := by
  by_cases hqp : q <+: p
  · obtain ⟨r, rfl⟩ := hqp
    exact hasDict_of_set hset (ne_nil_of_not_isPrefix_self hp)
  · obtain ⟨kvs, h⟩ := h
    exact ⟨kvs, by rw [← get_set_apart hset (apart_iff.2 ⟨hp, hqp⟩), h]⟩

/-- Above the paths that are written there are dictionaries, before and after. -/
theorem hasDict_of_writes {ws : List (List String × Plist)} (hws : d.writes ws = some d')
    (hnot : ∀ w ∈ ws, ¬ w.1 <+: q) (hq : ∃ w ∈ ws, q <+: w.1) : d.HasDict q ∧ d'.HasDict q := by
  induction ws generalizing d with
  | nil =>
    obtain ⟨w, hw, -⟩ := hq
    cases hw
  | cons w ws ih =>
    obtain ⟨x, hx, hws⟩ := writes_cons_eq_some.1 hws
    have hw := hnot w List.mem_cons_self
    have hnot' : ∀ w' ∈ ws, ¬ w'.1 <+: q := fun w' hw' => hnot w' (List.mem_cons_of_mem _ hw')
    by_cases hqw : q <+: w.1
    · obtain ⟨r, hr⟩ := hqw
      have hd : d.HasDict q := by
        rw [← hr] at hx hw
        exact hasDict_of_set hx (ne_nil_of_not_isPrefix_self hw)
      exact ⟨hd, (hd.set hx hw).writes hws hnot'⟩
    · obtain ⟨w', hw', hqw'⟩ := hq
      have hmem : w' ∈ ws := (List.mem_cons.1 hw').resolve_left fun he => hqw (he ▸ hqw')
      obtain ⟨hd, hd'⟩ := ih hws hnot' ⟨w', hmem, hqw'⟩
      exact ⟨hd.of_set hx hw, hd'⟩

/-- What two trees become under writes to `ps`: every path is at or below a written one, above one,
or apart from all of them. -/
structure Inherits (ps : List (List String)) (d₁ d₂ d₁' d₂' : Plist) : Prop where
  /-- What is at or below a written path does not depend on the tree. -/
  equal : AgreeBelow ps d₁' d₂'
  /-- What is apart from the written paths comes from the tree. -/
  same : ∀ q, (∀ p ∈ ps, apart p q = true) → d₁'.get q = d₁.get q ∧ d₂'.get q = d₂.get q
  /-- What is above a written path is a dictionary in all of the trees. -/
  above : ∀ q, (∀ p ∈ ps, ¬ p <+: q) → (∃ p ∈ ps, q <+: p) →
    (d₁.HasDict q ∧ d₁'.HasDict q) ∧ d₂.HasDict q ∧ d₂'.HasDict q

/-- **Inheritance**: the same writes into two trees. -/
theorem writes_inherit {ws : List (List String × Plist)} (h₁ : d₁.writes ws = some d₁')
    (h₂ : d₂.writes ws = some d₂') : Inherits (ws.map Prod.fst) d₁ d₂ d₁' d₂' where
  equal := by
    have hnone : AgreeBelow [] d₁ d₂ := by
      rintro q ⟨p, hp, -⟩
      cases hp
    simpa using hnone.writes h₁ h₂
  same q hq := by
    rw [List.forall_mem_map] at hq
    exact ⟨get_writes_apart h₁ hq, get_writes_apart h₂ hq⟩
  above q hnot hq := by
    rw [List.forall_mem_map] at hnot
    obtain ⟨p, hp, hqp⟩ := hq
    obtain ⟨w, hw, rfl⟩ := List.mem_map.1 hp
    exact ⟨hasDict_of_writes h₁ hnot ⟨w, hw, hqp⟩, hasDict_of_writes h₂ hnot ⟨w, hw, hqp⟩⟩

end Plist

end InstallKit
