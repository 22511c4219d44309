import InstallKit.Usb.Mounts
import InstallKit.Usb.RootGuard

/-!
# Partition membership

What it means for the partitions that a writer touches to be partitions of the guarded disk, and to
have been checked to be so first.

* `World` : the block devices before and after the disk is repartitioned.
* `Checked` : a partition named on the command line is checked by its `PKNAME`; one that the script
  finds itself, by the listing of the disk it was found in.
* `Guarded` : every command of a log only touches checked partitions of the disk.
* `always_guarded` : a script whose commands touch nothing but checked partitions is guarded.
* `returns_selectPartition` : the partition that the search by number comes up with.
-/

namespace InstallKit

namespace Usb

open Shell

/-- `sgdisk`, `parted`, `wipefs`. -/
def Cmd.isPartition : Cmd → Bool
  | .partition _ _ => true
  | _ => false

/-- The disk has been repartitioned. -/
def repartitioned (l : Log) : Bool := l.any fun e => e.1.isPartition

theorem repartitioned_cons {l : Log} {c : Cmd} {r : Reply} (hc : c.isPartition = false) :
    repartitioned ((c, r) :: l) = repartitioned l := by
  simp [repartitioned, hc]

/-- The block devices before and after the disk is repartitioned. -/
structure World where
  /-- The devices before. -/
  before : Forest
  /-- The devices after. -/
  after : Forest
  /-- Where `/` is mounted from, before. -/
  rootBefore : RootMount before
  /-- Where `/` is mounted from, after. -/
  rootAfter : RootMount after

namespace World

variable (W : World)

/-- The devices, before or after. -/
def devices : Bool → Forest
  | false => W.before
  | true => W.after

/-- Where `/` is mounted from, before or after. -/
def root : (b : Bool) → RootMount (W.devices b)
  | false => W.rootBefore
  | true => W.rootAfter

/-- The devices that are there after the commands of a log. -/
def forest (l : Log) : Forest := W.devices (repartitioned l)

/-- Truthful replies about these devices. -/
def Answers (l : Log) : Cmd → Reply → Prop :=
  (W.devices (repartitioned l)).Truthful (W.root (repartitioned l))

variable {W}

/-- Only repartitioning changes the devices. -/
theorem forest_cons {l : Log} {c : Cmd} {r : Reply} (hc : c.isPartition = false) :
    W.forest ((c, r) :: l) = W.forest l := by
  rw [forest, forest, repartitioned_cons hc]

/-- A script that leaves the partition table alone meets one set of devices. -/
theorem returns_iff {α : Type} {p : Sh α} {a : α} {s : State} {b : Bool}
    (hp : p.Calls fun c => c.isPartition = false) (hs : s.errexit = true)
    (hb : repartitioned s.log = b) :
    (∃ s', Returns W.Answers p s a s') ↔ May ((W.devices b).Truthful (W.root b)) p a := by
  subst hb
  refine returns_iff_may (J := fun l => repartitioned l = repartitioned s.log) hp ?_ ?_ hs rfl
  · intro l c r hl _
    rw [Answers, hl]
  · intro l c r hl hc
    rw [repartitioned_cons hc, hl]

/-- Such a script leaves the devices as they are. -/
theorem repartitioned_of_returns {α : Type} {p : Sh α} {a : α} {s s' : State}
    (hp : p.Calls fun c => c.isPartition = false) (h : Returns W.Answers p s a s') :
    repartitioned s'.log = repartitioned s.log :=
  h.log (J := fun l => repartitioned l = repartitioned s.log) hp
    (fun _ _ _ hc _ hl => by rw [repartitioned_cons hc, hl]) rfl

end World

/-! ### Checked partitions -/

/-- The listing of the disk in the log contains the partition. -/
def Listed (disk dev : String) (l : Log) : Prop :=
  ∃ q r, (Cmd.query q, r) ∈ l ∧ (q = .lsblkParts disk ∨ q = .lsblkPartn1 disk) ∧ dev ∈ r.out

/-- The membership of a partition has been checked; `given` are the partitions of the command
line. -/
def Checked (given : List String) (disk dev : String) (l : Log) : Prop :=
  (∃ r, (Cmd.query (.lsblkPkname dev), r) ∈ l ∧ r.firstLine ≠ "" ∧ "/dev/" ++ r.firstLine = disk) ∨
    dev ∉ given ∧ Listed disk dev l

theorem Listed.mono {disk dev : String} {l l' : Log} (h : Listed disk dev l)
    (hl : ∀ e ∈ l, e ∈ l') : Listed disk dev l' := by
  obtain ⟨q, r, hm, h⟩ := h
  exact ⟨q, r, hl _ hm, h⟩

theorem Checked.mono {given : List String} {disk dev : String} {l l' : Log}
    (h : Checked given disk dev l) (hl : ∀ e ∈ l, e ∈ l') : Checked given disk dev l' := by
  rcases h with ⟨r, hm, h⟩ | ⟨hg, h⟩
  · exact Or.inl ⟨r, hl _ hm, h⟩
  · exact Or.inr ⟨hg, h.mono hl⟩

/-- A command touches only checked partitions of the disk. -/
def Authorized (W : World) (given : List String) (disk : String) (l : Log) (c : Cmd) : Prop :=
  ∀ dev ∈ c.targets l, (W.forest l).IsPartOf dev disk ∧ Checked given disk dev l

/-- Every command of a log touched only checked partitions of the disk. -/
def Guarded (W : World) (given : List String) (disk : String) : Log → Prop :=
  Allowed fun l c _ => Authorized W given disk l c

/-- What is kept by a script that touches only the partitions in `D`. -/
structure GuardInv (W : World) (given : List String) (disk : String) (D : List String)
    (l : Log) : Prop where
  guarded : Guarded W given disk l
  direct : ∀ e ∈ l, ∀ dev ∈ e.1.direct, dev ∈ D
  checked : ∀ dev ∈ D, (W.forest l).IsPartOf dev disk ∧ Checked given disk dev l

section GuardInv

variable {W : World} {given : List String} {disk : String} {D : List String}

theorem GuardInv.nil : GuardInv W given disk [] [] :=
  ⟨trivial, fun _ h => by simp at h, fun _ h => by simp at h⟩

/-- The step lemma: a command that leaves the partition table alone. -/
theorem GuardInv.step {l : Log} {c : Cmd} {r : Reply}
    (hc : c.isPartition = false ∧ ∀ dev ∈ c.direct, dev ∈ D) (h : GuardInv W given disk D l) :
    GuardInv W given disk D ((c, r) :: l) := by
  have hD : ∀ dev ∈ c.targets l, dev ∈ D := by
    intro dev hdev
    rcases List.mem_append.1 hdev with hdev | hdev
    · exact hc.2 dev hdev
    · obtain ⟨c', r', hm, hd⟩ := exists_mount_of_removes hdev
      exact h.direct _ hm dev hd
  refine ⟨⟨fun dev hdev => h.checked dev (hD dev hdev), h.guarded⟩, ?_, ?_⟩
  · intro e he dev hdev
    rcases List.mem_cons.1 he with rfl | he
    · exact hc.2 dev hdev
    · exact h.direct e he dev hdev
  · intro dev hdev
    rw [World.forest_cons hc.1]
    exact ⟨(h.checked dev hdev).1, (h.checked dev hdev).2.mono fun _ => List.mem_cons_of_mem _⟩

/-- A command that touches no partition may change the partition table. -/
theorem GuardInv.step_nil {l : Log} {c : Cmd} {r : Reply} (hc : c.direct = [])
    (h : GuardInv W given disk [] l) : GuardInv W given disk [] ((c, r) :: l) := by
  have hno : ∀ dev, dev ∉ c.targets l := by
    intro dev hdev
    rcases List.mem_append.1 hdev with hdev | hdev
    · simp [hc] at hdev
    · obtain ⟨c', r', hm, hd⟩ := exists_mount_of_removes hdev
      exact List.not_mem_nil (h.direct _ hm dev hd)
  refine ⟨⟨fun dev hdev => (hno dev hdev).elim, h.guarded⟩, ?_, fun _ h => by simp at h⟩
  intro e he dev hdev
  rcases List.mem_cons.1 he with rfl | he
  · simp [hc] at hdev
  · exact h.direct e he dev hdev

/-- Partitions may be added once they have been checked. -/
theorem GuardInv.extend {l : Log} {D' : List String} (h : GuardInv W given disk [] l)
    (hD : ∀ dev ∈ D', (W.forest l).IsPartOf dev disk ∧ Checked given disk dev l) :
    GuardInv W given disk D' l :=
  ⟨h.guarded, fun e he dev hdev => (List.not_mem_nil (h.direct e he dev hdev)).elim, hD⟩

/-- **The run lemma**: a script that touches only checked partitions is guarded throughout. -/
theorem always_guarded {α : Type} {p : Sh α} {s : State}
    (hp : p.Calls fun c => c.isPartition = false ∧ ∀ dev ∈ c.direct, dev ∈ D)
    (h : GuardInv W given disk D s.log) :
    Always W.Answers (fun s => Guarded W given disk s.log) p s := by
  intro q s' hr
  exact (always_of_calls hp (fun _ _ _ hc _ hl => hl.step hc) h q s' hr).guarded

/-- A script that touches no partition is guarded, and leaves the invariant as it was. -/
theorem always_guarded_nil {α : Type} {p : Sh α} {s : State}
    (hp : p.Calls fun c => c.direct = []) (h : GuardInv W given disk [] s.log) :
    Always W.Answers (fun s => Guarded W given disk s.log) p s := by
  intro q s' hr
  exact (always_of_calls hp (fun _ _ _ hc _ hl => GuardInv.step_nil hc hl) h q s' hr).guarded

theorem GuardInv.of_returns {α : Type} {p : Sh α} {s s' : State} {a : α}
    (hp : p.Calls fun c => c.direct = []) (h : GuardInv W given disk [] s.log)
    (hr : Returns W.Answers p s a s') : GuardInv W given disk [] s'.log :=
  hr.log hp (fun _ _ _ hc _ hl => hl.step_nil hc) h

/-- The next command of a guarded script is authorized. -/
theorem authorized_of_always {α : Type} {c : Cmd} {f : Unit → Sh α} {s : State}
    (h : Always W.Answers (fun s => Guarded W given disk s.log) (exec c >>= f) s)
    (hc : ∀ q, c ≠ .query q) : Authorized W given disk s.log c := by
  have hA : W.Answers s.log c .done := by
    cases c with
    | query q => exact (hc q rfl).elim
    | _ => trivial
  exact (h _ _ (Reach.call .done hA (stops_zero _ _) (Reach.refl _))).1

end GuardInv

/-- The states in which a script is run: `set -e` is in force, and the partition table is the old
or the new one. -/
structure Ready (b : Bool) (s : State) : Prop where
  errexit : s.errexit = true
  table : repartitioned s.log = b

theorem ready_init : Ready false State.init := ⟨rfl, rfl⟩

/-- Every `PKNAME` in a log is the truth about some devices. -/
def PkTruth (F : Forest) (l : Log) : Prop :=
  ∀ e r, (Cmd.query (.lsblkPkname e), r) ∈ l →
    r.firstLine = ((F.device e).bind Node.pkname).getD ""

/-- A part that leaves the partition table alone only hears the truth about the old devices. -/
theorem pkTruth_of_returns {W : World} {α : Type} {p : Sh α} {s t : State} {v : α}
    (h : Returns W.Answers p s v t) (hs : repartitioned s.log = false)
    (hp : p.Calls fun c => c.isPartition = false) (ht : PkTruth W.before s.log) :
    PkTruth W.before t.log := by
  refine (h.log (J := fun l => repartitioned l = false ∧ PkTruth W.before l) hp ?_ ⟨hs, ht⟩).2
  rintro l c r hc hA ⟨hl, ht⟩
  refine ⟨by rw [repartitioned_cons hc, hl], fun e r' hm => ?_⟩
  rcases List.mem_cons.1 hm with heq | hm
  · cases heq
    rw [World.Answers, hl] at hA
    exact hA
  · exact ht e r' hm

/-- The command asks for a parent. -/
def Cmd.asksParent : Cmd → Bool
  | .query (.lsblkPkname _) => true
  | _ => false

/-- The only parent that a log asks for is that of the source of `/`. -/
def PkRoot (W : World) (l : Log) : Prop :=
  ∀ e r, (Cmd.query (.lsblkPkname e), r) ∈ l → e = W.rootBefore.source

theorem PkRoot.cons {W : World} {l : Log} {c : Cmd} {r : Reply} (h : PkRoot W l)
    (hc : c.asksParent = false) : PkRoot W ((c, r) :: l) := by
  intro e r' hm
  rcases List.mem_cons.1 hm with heq | hm
  · cases heq
    cases hc
  · exact h e r' hm

theorem PkRoot.of_returns {W : World} {α : Type} {A : Log → Cmd → Reply → Prop} {p : Sh α}
    {s t : State} {v : α} (hs : PkRoot W s.log) (hp : p.Calls fun c => c.asksParent = false)
    (h : Returns A p s v t) : PkRoot W t.log :=
  h.log hp (fun _ _ _ hc _ hl => hl.cons hc) hs

/-- The root guard asks for the parent of the source of `/`, and for nothing else. -/
theorem PkRoot.rootGuard {W : World} {disk msg : String} {s t : State} {u : Unit}
    (hs : PkRoot W s.log) (hl : repartitioned s.log = false)
    (h : Returns W.Answers (rootGuard disk msg) s u t) : PkRoot W t.log := by
  obtain ⟨r, s₁, hr, h⟩ := returns_bind.1 h
  simp only [ask, Script.attempt, returns_call, returns_ret] at hr
  obtain ⟨r', hA, -, rfl, rfl⟩ := hr
  rw [World.Answers, hl] at hA
  obtain rfl : r = .lines [W.rootBefore.source] := hA
  have hs₁ := hs.cons (c := .query .findmntRoot) (r := .lines [W.rootBefore.source]) rfl
  obtain ⟨parent, s₂, hp, h⟩ := returns_bind.1 h
  refine PkRoot.of_returns ?_ (by simp) h
  unfold rootParent at hp
  split at hp
  · simp only [Script.pure_eq, returns_ret] at hp
    rw [hp.2]
    exact hs₁
  · obtain ⟨b, s₃, hb, hp⟩ := returns_bind.1 hp
    have hs₃ := hs₁.of_returns (by simp [Cmd.asksParent]) hb
    split at hp
    · simp only [Script.pure_eq, returns_ret] at hp
      rw [hp.2]
      exact hs₃
    · obtain ⟨r, s₄, hr, hp⟩ := returns_bind.1 hp
      simp only [Script.pure_eq, returns_ret] at hp
      simp only [ask, Script.attempt, returns_call, returns_ret] at hr
      obtain ⟨r', -, -, rfl, rfl⟩ := hr
      rw [hp.2]
      -- the only question for a parent is that for the root
      intro e r' hm
      rcases List.mem_cons.1 hm with heq | hm
      · cases heq
        rfl
      · exact hs₃ e r' hm

/-- A partition of the command line is not checked by the root guard. -/
theorem not_checked_of_given {W : World} {given : List String} {disk dev : String} {l : Log}
    (hg : dev ∈ given) (hn : ¬ W.before.NamesRoot W.rootBefore disk) (hr : PkRoot W l)
    (ht : PkTruth W.before l) : ¬ Checked given disk dev l := by
  rintro (⟨r, hm, hne, hd⟩ | ⟨hng, -⟩)
  · obtain rfl := hr dev r hm
    have hp := ht _ r hm
    cases hx : W.before.device W.rootBefore.source with
    | none => exact hne (by simpa [hx] using hp)
    | some x =>
      cases hk : x.pkname with
      | none => exact hne (by simpa [hx, hk] using hp)
      | some p =>
        have hp' : r.firstLine = p := by simpa [hx, hk] using hp
        exact hn (Or.inr ⟨x, p, hx, hk, by rw [← hd, hp']⟩)
  · exact hng hg

/-- Go on with a part that may return. -/
theorem always_next {W : World} {I : State → Prop} {α β : Type} {p : Sh β} {f : β → Sh α}
    {s : State} {b : Bool} {v : β} (h : Always W.Answers I (p >>= f) s) (hs : Ready b s)
    (hp : p.Calls fun c => c.isPartition = false)
    (hm : May ((W.devices b).Truthful (W.root b)) p v) :
    ∃ t, Returns W.Answers p s v t ∧ Ready b t ∧ Always W.Answers I (f v) t := by
  obtain ⟨t, ht⟩ := (World.returns_iff hp hs.errexit hs.table).2 hm
  have hr : repartitioned t.log = b := (World.repartitioned_of_returns hp ht).trans hs.table
  exact ⟨t, ht, ⟨ht.errexit.trans hs.errexit, hr⟩, h.of_returns ht⟩

/-- The states of a script that has passed its guards and checked no partition: the parents in its
log are true, and are that of the source of `/`. -/
structure Unchecked (W : World) (b : Bool) (s : State) : Prop where
  ready : Ready b s
  pkRoot : PkRoot W s.log
  pkTruth : PkTruth W.before s.log

theorem PkTruth.cons {F : Forest} {l : Log} {c : Cmd} {r : Reply} (h : PkTruth F l)
    (hc : c.asksParent = false) : PkTruth F ((c, r) :: l) := by
  intro e r' hm
  rcases List.mem_cons.1 hm with heq | hm
  · cases heq
    cases hc
  · exact h e r' hm

/-- Go on with a part that may return and asks for no parent. -/
theorem unchecked_next {W : World} {I : State → Prop} {α β : Type} {p : Sh β} {f : β → Sh α}
    {s : State} {b : Bool} {v : β} (h : Always W.Answers I (p >>= f) s) (hs : Unchecked W b s)
    (hp : p.Calls fun c => c.isPartition = false ∧ c.asksParent = false)
    (hm : May ((W.devices b).Truthful (W.root b)) p v) :
    ∃ t, Unchecked W b t ∧ Always W.Answers I (f v) t := by
  obtain ⟨t, ht, hr, ha⟩ := always_next h hs.ready (hp.mono fun _ hc => hc.1) hm
  refine ⟨t, ⟨hr, hs.pkRoot.of_returns (hp.mono fun _ hc => hc.2) ht, ?_⟩, ha⟩
  exact ht.log hp (fun _ _ _ hc _ hl => hl.cons hc.2) hs.pkTruth

/-- Go on after the partition table has been changed. -/
theorem unchecked_partition {W : World} {I : State → Prop} {α : Type} {args disk : String}
    {f : Unit → Sh α} {s : State} {b : Bool}
    (h : Always W.Answers I (exec (.partition args disk) >>= f) s) (hs : Unchecked W b s) :
    ∃ t, Unchecked W true t ∧ Always W.Answers I (f ()) t := by
  have hret : Returns W.Answers (exec (.partition args disk)) s ()
      (s.push (.partition args disk) .done) :=
    Reach.call .done trivial (stops_zero _ _) (Reach.refl _)
  refine ⟨s.push (.partition args disk) .done, ⟨⟨hs.ready.errexit, rfl⟩, ?_, ?_⟩,
    h.of_returns hret⟩
  · exact hs.pkRoot.cons rfl
  · exact hs.pkTruth.cons rfl

/-- A partition of the command line that such a script touches is not authorized. -/
theorem Unchecked.not_authorized {W : World} {b : Bool} {s : State} {given : List String}
    {disk dev : String} {c : Cmd} (hs : Unchecked W b s) (hg : dev ∈ given)
    (hn : ¬ W.before.NamesRoot W.rootBefore disk) (hd : dev ∈ c.targets s.log) :
    ¬ Authorized W given disk s.log c :=
  fun h => not_checked_of_given hg hn hs.pkRoot hs.pkTruth (h dev hd).2

/-! ### The search for a partition by its number -/

namespace Forest

variable (F : Forest)

/-- The partition that the scripts use: the argument, or the one found by its number. -/
def selected (disk part number : String) : Option String :=
  if part ≠ "" then some part
  else ((F.resolve disk).bind fun n => F.partition? n number).map ("/dev/" ++ ·)

variable {F}

theorem mem_names_of_node {n : String} {x : Node} (h : F.node n = some x) :
    n ∈ F.nodes.map Prod.fst := by
  obtain ⟨l₁, l₂, hl, -⟩ := List.lookup_eq_some_iff.1 h
  simp [hl]

/-- What `parts` lists are partitions. -/
theorem node_of_mem_parts {n m : String} (h : m ∈ F.parts n) :
    ∃ x, F.node m = some x ∧ x.type = .part := by
  have := (List.mem_filter.1 h).2
  simpa [Option.any_eq_true] using this

/-- Parents are nodes. -/
theorem parent_mem {n p : String} {x : Node} (hx : F.node n = some x) (hp : p ∈ x.parents) :
    p ∈ F.nodes.map Prod.fst := by
  have key : ∀ (es : List (String × Node)) (seen : List String), Ordered seen es →
      ∀ e ∈ es, ∀ p ∈ e.2.parents, p ∈ seen ∨ p ∈ es.map Prod.fst := by
    intro es
    induction es with
    | nil => intro seen _ e he; simp at he
    | cons e' es ih =>
      intro seen ho e he p hp
      rcases List.mem_cons.1 he with rfl | he
      · exact Or.inl (ho.1 p hp)
      · rcases ih _ ho.2 e he p hp with h | h
        · rcases List.mem_cons.1 h with rfl | h
          · exact Or.inr (by simp)
          · exact Or.inl h
        · exact Or.inr (by simp [List.mem_map.1 h])
  obtain ⟨l₁, l₂, hl, -⟩ := List.lookup_eq_some_iff.1 hx
  have hm : (n, x) ∈ F.nodes := by simp [hl]
  exact (key _ _ F.ordered _ hm p hp).resolve_left (by simp)

theorem basename_dev {n : String} (h : n ∈ F.nodes.map Prod.fst) : basename ("/dev/" ++ n) = n := by
  obtain ⟨e, he, rfl⟩ := List.mem_map.1 h
  obtain ⟨hne, hs⟩ := F.names e he
  have hrev : e.1.toList.reverse ≠ [] := by simpa using hne
  have hns : ∀ c ∈ e.1.toList.reverse, c ≠ '/' := by
    intro c hc h
    exact hs (h ▸ List.mem_reverse.1 hc)
  unfold basename
  rw [String.toList_append, List.reverse_append]
  have hdrop : ∀ (l l' : List Char), l ≠ [] → (∀ c ∈ l, c ≠ '/') →
      (l ++ l').dropWhile (· = '/') = l ++ l' := by
    intro l l' hl h
    cases l with
    | nil => exact (hl rfl).elim
    | cons c l => simp [h c (by simp)]
  rw [hdrop _ _ hrev hns, List.takeWhile_append_of_pos (by simpa using hns)]
  simp

end Forest

section Select

variable {F : Forest} {root : RootMount F}

/-- The search takes the first partition with the right number. -/
theorem may_findPartition {number : String} {o : Option String} (ns : List String)
    (hns : ∀ n ∈ ns, ∃ x, F.node n = some x ∧ x.type = .part) :
    May (F.Truthful root) (findPartition number (ns.map ("/dev/" ++ ·))) o ↔
      o = (ns.find? fun n => (F.node n).any fun x => x.partno = number).map ("/dev/" ++ ·) := by
  induction ns with
  | nil => simp [findPartition]
  | cons n ns ih =>
    obtain ⟨x, hx, ht⟩ := hns n (by simp)
    have hmem := Forest.mem_names_of_node hx
    have hne : "/dev/" ++ n ≠ "" := by simp [String.append_eq_empty_iff]
    have ih := ih fun m hm => hns m (by simp [hm])
    simp only [List.map_cons, findPartition, hne, if_false, may_bind, may_holds,
      Forest.truthful_query, Forest.Answers, Forest.resolve_dev hmem, Option.isSome_some]
    -- the first with this number, or the first of the rest
    have hfind : (n :: ns).find? (fun n => (F.node n).any fun x => x.partno = number) =
        if x.partno = number then some n
        else ns.find? fun n => (F.node n).any fun x => x.partno = number := by
      simp only [List.find?_cons, hx, Option.any_some]
      split <;> simp_all
    rw [hfind]
    constructor
    · rintro ⟨b, ⟨r, hr, rfl⟩, h⟩
      simp only [hr, Bool.not_true, Bool.false_eq_true, if_false, may_bind, may_ask,
        Forest.truthful_query, Forest.Answers, Forest.basename_dev hmem, hx, ht, if_true] at h
      obtain ⟨r', hr', h⟩ := h
      have htext : r'.text = x.partno := by simp [Reply.text, hr']
      rw [htext] at h
      split at h
      · rename_i hp
        simpa [hp] using h
      · rename_i hp
        simp only [hp, if_false]
        exact ih.1 h
    · intro ho
      refine ⟨true, ⟨.done, rfl, rfl⟩, ?_⟩
      simp only [Bool.not_true, Bool.false_eq_true, if_false, may_bind, may_ask,
        Forest.truthful_query, Forest.Answers, Forest.basename_dev hmem, hx, ht, if_true]
      refine ⟨.lines [x.partno], rfl, ?_⟩
      rw [Reply.text_lines_singleton]
      split
      · rename_i hp
        simpa [hp] using ho
      · rename_i hp
        simp only [hp, if_false] at ho
        exact ih.2 ho

theorem may_partitionPath {disk number : String} {o : Option String} :
    May (F.Truthful root) (partitionPath disk number) o ↔
      o = ((F.resolve disk).bind fun n => F.partition? n number).map ("/dev/" ++ ·) := by
  simp only [partitionPath, may_bind, may_ask, Forest.truthful_query, Forest.Answers]
  have key : ∀ r : Reply, r.out = ((F.resolve disk).elim [] F.parts).map ("/dev/" ++ ·) →
      (May (F.Truthful root) (findPartition number r.out) o ↔
        o = ((F.resolve disk).bind fun n => F.partition? n number).map ("/dev/" ++ ·)) := by
    intro r hr
    rw [hr, may_findPartition]
    · cases F.resolve disk <;> simp [Forest.partition?]
    · intro n hn
      cases hd : F.resolve disk with
      | none => simp [hd] at hn
      | some m => exact Forest.node_of_mem_parts (by simpa [hd] using hn)
  constructor
  · rintro ⟨r, hr, h⟩
    exact (key r hr).1 h
  · intro h
    exact ⟨.lines _, rfl, (key (.lines _) rfl).2 h⟩

/-- The selected partition: the argument, or the one found by its number. -/
theorem may_selectPartition {disk part number v : String} :
    May (F.Truthful root) (selectPartition disk part number) v ↔
      F.selected disk part number = some v := by
  unfold selectPartition Forest.selected
  by_cases hp : part = ""
  · simp only [hp, ne_eq, not_true_eq_false, if_false, may_bind, may_partitionPath, exists_eq_left]
    cases ((F.resolve disk).bind fun n => F.partition? n number).map ("/dev/" ++ ·) with
    | none => simp [orFail]
    | some c => simp [orFail, eq_comm]
  · simp [hp, eq_comm]

theorem may_selectFatEsp {disk part e : String} :
    May (F.Truthful root) (selectFatEsp disk part) e ↔
      F.selected disk part "1" = some e ∧ (F.resolve e).isSome = true := by
  simp only [selectFatEsp, may_bind, may_selectPartition]
  constructor
  · rintro ⟨v, hv, _, -, _, hb, r, -, _, -, h⟩
    rw [may_ret.1 h]
    exact ⟨hv, may_requireBlock.1 hb⟩
  · rintro ⟨hv, hr⟩
    obtain ⟨n, hn⟩ := Option.isSome_iff_exists.1 hr
    have hne : e ≠ "" := fun h => by simp [h, Forest.resolve_empty] at hn
    exact ⟨e, hv, (), may_orDie.2 (by simpa using hne), (), may_requireBlock.2 hr,
      .lines ["vfat"], may_ask.2 trivial, (), may_orDie.2 rfl, rfl⟩

end Select

/-- What the search comes up with was in the listing. -/
theorem mem_of_findPartition {A : Log → Cmd → Reply → Prop} {number c : String} {ns : List String}
    {s s' : State} (h : Returns A (findPartition number ns) s (some c) s') : c ∈ ns := by
  induction ns generalizing s with
  | nil => simp [findPartition] at h
  | cons n ns ih =>
    unfold findPartition at h
    split at h
    · exact List.mem_cons_of_mem _ (ih h)
    · obtain ⟨b, t, -, h⟩ := returns_bind.1 h
      split at h
      · exact List.mem_cons_of_mem _ (ih h)
      · obtain ⟨r, t', -, h⟩ := returns_bind.1 h
        dsimp only at h
        split at h
        · simp only [Script.pure_eq, returns_ret, Option.some.injEq] at h
          simp [h.1]
        · exact List.mem_cons_of_mem _ (ih h)

theorem returns_orFail {A : Log → Cmd → Reply → Prop} {o : Option String} {v : String}
    {s s' : State} (hs : s.errexit = true) (h : Returns A (orFail o) s v s') :
    o = some v ∧ s' = s := by
  cases o with
  | none => simp [orFail, stops, hs] at h
  | some c =>
    simp only [orFail, Script.pure_eq, returns_ret] at h
    simp [h.1, h.2]

@[simp] theorem calls_findPartition {P : Cmd → Prop} {number : String} {ns : List String}
    (hb : ∀ p, P (.query (.test .b (.host p)))) (hp : ∀ p, P (.query (.sysPartition p))) :
    (findPartition number ns).Calls P := by
  induction ns with
  | nil => trivial
  | cons n ns ih => simp [findPartition, ih, hb, hp]

@[simp] theorem calls_orFail {P : Cmd → Prop} {o : Option String} : (orFail o).Calls P := by
  cases o <;> simp [orFail]

@[simp] theorem calls_selectPartition {P : Cmd → Prop} {disk part number : String}
    (hl : P (.query (.lsblkParts disk))) (hb : ∀ p, P (.query (.test .b (.host p))))
    (hp : ∀ p, P (.query (.sysPartition p))) : (selectPartition disk part number).Calls P := by
  simp [selectPartition, partitionPath, hl, hb, hp]

/-- **The selection**: its value, and the listing that a found partition comes from. -/
theorem returns_selectPartition {W : World} {disk part number v : String} {s s' : State}
    (hs : s.errexit = true)
    (h : Returns W.Answers (selectPartition disk part number) s v s') :
    (W.forest s.log).selected disk part number = some v ∧ (part = "" → Listed disk v s'.log) := by
  constructor
  · refine may_selectPartition.1 ((World.returns_iff (b := repartitioned s.log) ?_ hs rfl).1 ⟨s', h⟩)
    simp [Cmd.isPartition]
  · intro hp
    simp only [selectPartition, hp, ne_eq, not_true_eq_false, if_false, partitionPath] at h
    obtain ⟨o, t, ho, h⟩ := returns_bind.1 h
    obtain ⟨r, t', hr, ho⟩ := returns_bind.1 ho
    have ht : t.errexit = true := by rw [ho.errexit, hr.errexit, hs]
    obtain ⟨rfl, rfl⟩ := returns_orFail ht h
    have hc := mem_of_findPartition ho
    have hl := ho.log_suffix
    simp only [ask, Script.attempt, returns_call, returns_ret] at hr
    obtain ⟨r', -, -, rfl, rfl⟩ := hr
    exact ⟨.lsblkParts disk, r, hl.subset (by simp), Or.inl rfl, hc⟩

/-- The FAT partition of an existing disk, and where it comes from. -/
theorem returns_selectFatEsp {W : World} {disk part e : String} {s t : State} (hs : Ready false s)
    (h : Returns W.Answers (selectFatEsp disk part) s e t) :
    W.before.selected disk part "1" = some e ∧ (W.before.resolve e).isSome = true ∧
      (part = "" → Listed disk e t.log) := by
  have hcalls : (selectFatEsp disk part).Calls fun c => c.isPartition = false := by
    simp [selectFatEsp, Cmd.isPartition]
  obtain ⟨hsel, hres⟩ := may_selectFatEsp.1
    ((World.returns_iff hcalls hs.errexit hs.table).1 ⟨t, h⟩)
  refine ⟨hsel, hres, fun hp => ?_⟩
  obtain ⟨v, t', hv, h⟩ := returns_bind.1 h
  obtain ⟨hval, hlist⟩ := returns_selectPartition hs.errexit hv
  have hve : v = e := by
    rw [World.forest, hs.table] at hval
    exact Option.some.inj (hval.symm.trans hsel)
  subst hve
  exact (hlist hp).mono h.log_suffix.subset

end Usb

end InstallKit
