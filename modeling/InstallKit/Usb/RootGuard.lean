import InstallKit.Usb.Devices
import InstallKit.Usb.MakeUsb
import InstallKit.Usb.UpdateEfi
import InstallKit.Usb.RepairEsp
import InstallKit.Usb.Recovery

/-!
# The root-disk guards

Whether a writer gets past its guard section when `--disk` denotes a disk that `/` is stored on.

* `may_rootGuard`, `may_removableGuard` : when the shared fragments return.
* `Writer.passesGuard_iff` : a writer passes a whole disk iff it does not refuse it.
* `guard_refuses_rootDisk_iff` : the disks that carry `/` and are refused, exactly.  The guard
  compares strings, and looks at one parent: a root device stacked twice, an alias of the disk and
  a source with a subvolume suffix are missed.
-/

namespace InstallKit

namespace Usb

open Shell

/-! ### The shared fragments -/

section Fragments

variable {F : Forest} {root : RootMount F}

theorem trBlank_rmLabel (x : Node) : trBlank x.rmLabel = x.rmLabel := by
  unfold Node.rmLabel
  split <;> decide

theorem trBlank_transport (t : Transport) : trBlank t.label = t.label := by
  cases t <;> decide

theorem may_rootParent {source v : String} :
    May (F.Truthful root) (rootParent source) v ↔ v = F.rootParentOf source := by
  unfold rootParent Forest.rootParentOf
  by_cases hs : source = ""
  · subst hs
    simp [Forest.device, Forest.resolve_empty]
  · cases hr : F.resolve source with
    | none =>
      -- no block device, so it has no parent
      simp only [hs, if_false, may_bind, may_holds, Forest.truthful_query, Forest.Answers, hr]
      simp only [Forest.device, hr]
      constructor
      · rintro ⟨b, ⟨r, hr, rfl⟩, h⟩
        simpa [hr] using h
      · rintro rfl
        exact ⟨false, ⟨.failed, rfl, rfl⟩, rfl⟩
    | some n =>
      -- the parent, or nothing for a whole disk
      obtain ⟨x, hx, -⟩ := Forest.device_of_resolve hr
      simp only [hs, if_false, may_bind, may_holds, Forest.truthful_query, Forest.Answers, hr, hx]
      constructor
      · rintro ⟨b, ⟨r, hr, rfl⟩, h⟩
        simp only [hr, Option.isSome_some, Bool.not_true, Bool.false_eq_true, if_false, may_bind,
          may_ask, Forest.truthful_query, Forest.Answers, hx] at h
        obtain ⟨r', hr', rfl⟩ := h
        rw [hr']
        cases hp : x.pkname with
        | none => simp [hp]
        | some p => simp [hp, (x.pkname_mem p hp).2]
      · rintro rfl
        refine ⟨true, ⟨.done, rfl, rfl⟩, ?_⟩
        simp only [Bool.not_true, Bool.false_eq_true, if_false, may_bind, may_ask,
          Forest.truthful_query, Forest.Answers, hx]
        refine ⟨.lines [x.pkname.getD ""], rfl, ?_⟩
        cases hp : x.pkname with
        | none => simp [hp]
        | some p => simp [hp, (x.pkname_mem p hp).2]

/-- The comparison refuses exactly the two strings. -/
theorem may_rootGuard {disk msg : String} (hd : disk ≠ "") :
    May (F.Truthful root) (rootGuard disk msg) () ↔ ¬ F.NamesRoot root disk := by
  have hp : F.rootParentOf root.source = disk ↔
      ∃ x p, F.device root.source = some x ∧ x.pkname = some p ∧ disk = "/dev/" ++ p := by
    unfold Forest.rootParentOf
    cases hx : F.device root.source with
    | none => simp [Ne.symm hd]
    | some x =>
      cases hk : x.pkname with
      | none => simp [hk, Ne.symm hd]
      | some p => simp [hk, eq_comm]
  simp only [rootGuard, may_bind, may_ask, Forest.truthful_query, Forest.Answers, may_rootParent,
    may_orDie, decide_eq_true_eq, Forest.NamesRoot, ← hp, not_or]
  constructor
  · rintro ⟨r, rfl, v, rfl, h, h'⟩
    exact ⟨h, fun e => h' e.symm⟩
  · rintro ⟨h, h'⟩
    exact ⟨_, rfl, _, rfl, h, fun e => h' e.symm⟩

theorem may_removableFlags {disk : String} {x : Node} (hx : F.device disk = some x)
    {v : String × String} :
    May (F.Truthful root) (removableFlags disk) v ↔ v = (x.rmLabel, x.transport.label) := by
  simp only [removableFlags, may_bind, may_askChecked, Forest.truthful_query, Forest.Answers,
    Forest.PaddedColumn, hx, Script.pure_eq, may_ret]
  constructor
  · rintro ⟨r, ⟨⟨-, hr, -⟩, -⟩, r', ⟨⟨-, hr', -⟩, -⟩, rfl⟩
    rw [hr, hr']
  · rintro rfl
    refine ⟨.lines [x.rmLabel], ⟨⟨rfl, ?_, ?_⟩, rfl⟩, .lines [x.transport.label],
      ⟨⟨rfl, ?_, ?_⟩, rfl⟩, ?_⟩ <;>
    simp [trBlank_rmLabel, trBlank_transport]

/-- The removable/USB test, on a device. -/
theorem may_removableGuard {disk : String} {allowInternal : Bool} {x : Node}
    (hx : F.device disk = some x) :
    May (F.Truthful root) (removableGuard disk allowInternal) () ↔
      allowInternal = true ∨ ¬ F.Internal disk := by
  simp only [removableGuard, may_bind, may_removableFlags hx, Forest.internal_iff hx]
  cases allowInternal <;> cases hr : x.removable <;> cases ht : x.transport <;>
    simp [Node.rmLabel, Transport.label, hr]

theorem may_removableOnly {disk : String} {x : Node} (hx : F.device disk = some x) :
    May (F.Truthful root) (RepairEsp.removableOnly disk) () ↔ ¬ F.Internal disk := by
  simp only [RepairEsp.removableOnly, may_bind, may_removableFlags hx, Forest.internal_iff hx]
  cases hr : x.removable <;> cases ht : x.transport <;>
    simp [Node.rmLabel, Transport.label, hr]

theorem Forest.IsDisk.exists_device {disk : String} (h : F.IsDisk disk) :
    ∃ x, F.device disk = some x := h.imp fun _ hx => hx.1

/-- `lsblk` calls a path a disk exactly when it is one. -/
theorem may_requireWholeDisk {disk msg : String} :
    May (F.Truthful root) (requireWholeDisk disk msg) () ↔ F.IsDisk disk := by
  simp only [requireWholeDisk, may_bind, may_ask, Forest.truthful_query, Forest.Answers,
    Forest.Column, Forest.IsDisk, may_orDie, decide_eq_true_eq]
  cases hx : F.device disk with
  | none =>
    simp only [reduceCtorEq, false_and, exists_false, iff_false]
    rintro ⟨r, ⟨-, hr⟩, ht⟩
    simp [Reply.text, hr] at ht
  | some x =>
    simp only [Option.some.injEq, exists_eq_left']
    constructor
    · rintro ⟨r, ⟨-, hr⟩, ht⟩
      simpa [Reply.text, hr] using ht
    · intro h
      exact ⟨.lines [x.type.label], ⟨rfl, rfl⟩, by simp [h]⟩

theorem may_requireBlock {path msg : String} :
    May (F.Truthful root) (require (.test .b (.host path)) msg) () ↔
      (F.resolve path).isSome = true := by
  simp only [may_require, Forest.truthful_query, Forest.Answers]
  constructor
  · rintro ⟨r, hr, h⟩
    rw [← hr, h]
  · intro h
    exact ⟨.done, by simp [h], rfl⟩

/-- Commands that nothing is said about may all be there. -/
theorem may_requireCommands (names : List String) :
    May (F.Truthful root) (requireCommands names) () := by
  induction names with
  | nil => exact rfl
  | cons name names ih =>
    refine may_bind.2 ⟨(), may_require.2 ⟨.done, trivial, rfl⟩, ih⟩

end Fragments

/-! ### The writers -/

/-- The Linux writers with a guard section. -/
inductive Writer
  | makeUsb | updateEfi | repair | recovery
  deriving DecidableEq, Repr

namespace Writer

variable {F : Forest} (root : RootMount F)

/-- Some truthful run of the writer with `--disk disk` gets past its guard section. -/
def PassesGuard (disk : String) (allowInternal : Bool) : Writer → Prop
  | makeUsb => ∃ a : MakeUsb.Args, a.disk = disk ∧ a.allowInternal = allowInternal ∧
      ∃ u s', Reach (fun _ => F.Truthful root) (MakeUsb.guardSection a, State.init) (.ret u, s')
  | updateEfi => ∃ a : UpdateEfi.Args, a.disk = disk ∧ a.allowInternal = allowInternal ∧
      ∃ u s', Reach (fun _ => F.Truthful root) (UpdateEfi.guardSection a, State.init) (.ret u, s')
  | repair => ∃ a : RepairEsp.Args, a.disk = disk ∧
      ∃ u s', Reach (fun _ => F.Truthful root) (RepairEsp.guardSection a, State.init) (.ret u, s')
  | recovery => ∃ a : Recovery.Args, a.disk = disk ∧ a.allowInternal = allowInternal ∧
      ∃ u s', Reach (fun _ => F.Truthful root) (Recovery.guardSection a, State.init) (.ret u, s')

/-- The disks that a writer refuses: two strings, and what the removable/USB test stops. -/
def Refuses (disk : String) (allowInternal : Bool) : Writer → Prop
  | makeUsb | updateEfi => F.NamesRoot root disk ∨ allowInternal = false ∧ F.Internal disk
  | repair => F.NamesRoot root disk ∨ F.Internal disk
  | recovery => allowInternal = false ∧ ¬ F.Removable disk

/-! ### The guard sections -/

variable {root} {disk : String} {x : Node}

theorem ne_empty_of_device (hx : F.device disk = some x) : disk ≠ "" := by
  rintro rfl
  simp [Forest.device, Forest.resolve_empty] at hx

theorem may_blockDevice (hx : F.device disk = some x) (msg : String) :
    May (F.Truthful root) (require (.test .b (.host disk)) msg) () := by
  obtain ⟨n, hn, -⟩ := Option.bind_eq_some_iff.1 hx
  exact may_requireBlock.2 (by simp [hn])

theorem may_requireLinux (msg : String) : May (F.Truthful root) (requireLinux msg) () :=
  may_bind.2 ⟨.lines ["Linux"], may_ask.2 trivial, may_orDie.2 rfl⟩

/-- `readlink -f` may leave a path as it is. -/
theorem may_readlink (path : String) :
    May (F.Truthful root) (askChecked (.readlink path)) (.lines [path]) := by
  refine may_askChecked.2 ⟨?_, rfl⟩
  rw [Forest.truthful_query, Forest.Answers]
  split
  · rename_i n hn
    exact ⟨rfl, hn⟩
  · trivial

theorem may_makeUsb_guardSection {a : MakeUsb.Args} :
    May (F.Truthful root) (MakeUsb.guardSection a) () ↔
      F.IsDisk a.disk ∧ ¬ F.NamesRoot root a.disk ∧
        (a.allowInternal = true ∨ ¬ F.Internal a.disk) := by
  simp only [MakeUsb.guardSection, MakeUsb.requireDisk, may_then, may_requireWholeDisk, may_orDie,
    decide_eq_true_eq]
  constructor
  · rintro ⟨⟨hd, -, ht⟩, hr, hm⟩
    obtain ⟨x, hx⟩ := ht.exists_device
    exact ⟨ht, (may_rootGuard hd).1 hr, (may_removableGuard hx).1 hm⟩
  · rintro ⟨ht, hr, hm⟩
    obtain ⟨x, hx⟩ := ht.exists_device
    have hd := ne_empty_of_device hx
    exact ⟨⟨hd, may_blockDevice hx _, ht⟩, (may_rootGuard hd).2 hr, (may_removableGuard hx).2 hm⟩

/-- The build and the helper script may always be there. -/
theorem may_requireBuild (a : UpdateEfi.Args) :
    May (F.Truthful root) (UpdateEfi.requireBuild a) a.buildRoot := by
  refine may_bind.2 ⟨_, may_readlink a.buildRoot, ?_⟩
  simp only [may_then, may_require, Forest.truthful_query, Forest.Answers, true_and]
  refine ⟨⟨.done, rfl⟩, ⟨.done, rfl⟩, ⟨.done, rfl⟩, ?_, rfl⟩
  exact may_bind.2 ⟨true, may_holds.2 ⟨.done, trivial, rfl⟩, rfl⟩

theorem may_updateEfi_guardSection {a : UpdateEfi.Args} :
    (∃ b, May (F.Truthful root) (UpdateEfi.guardSection a) b) ↔
      a.buildRoot ≠ "" ∧ F.IsDisk a.disk ∧ ¬ F.NamesRoot root a.disk ∧
        (a.allowInternal = true ∨ ¬ F.Internal a.disk) := by
  constructor
  · rintro ⟨b, h⟩
    obtain ⟨v, hv, h⟩ := may_bind.1 h
    simp only [UpdateEfi.requireInputs, may_then, may_requireWholeDisk, may_orDie,
      decide_eq_true_eq] at hv
    obtain ⟨-, -, hd, hb, -, ht, -⟩ := hv
    obtain ⟨x, hx⟩ := ht.exists_device
    rw [may_then, may_then, may_rootGuard hd, may_removableGuard hx] at h
    exact ⟨hb, ht, h.1, h.2.1⟩
  · rintro ⟨hb, ht, hr, hm⟩
    obtain ⟨x, hx⟩ := ht.exists_device
    have hd := ne_empty_of_device hx
    refine ⟨a.buildRoot, may_bind.2 ⟨a.buildRoot, ?_, ?_⟩⟩
    · simp only [UpdateEfi.requireInputs, may_then, may_requireWholeDisk, may_orDie,
        decide_eq_true_eq]
      exact ⟨may_requireLinux _, may_require.2 ⟨.done, trivial, rfl⟩, hd, hb,
        may_blockDevice hx _, ht, may_requireBuild a⟩
    · rw [may_then, may_then, may_rootGuard hd, may_removableGuard hx]
      exact ⟨hr, hm, rfl⟩

theorem may_repair_guardSection {a : RepairEsp.Args} :
    (∃ b, May (F.Truthful root) (RepairEsp.guardSection a) b) ↔
      a.buildRoot ≠ "" ∧ F.IsDisk a.disk ∧ ¬ F.NamesRoot root a.disk ∧ ¬ F.Internal a.disk := by
  constructor
  · rintro ⟨b, h⟩
    obtain ⟨v, hv, h⟩ := may_bind.1 h
    simp only [RepairEsp.requireInputs, may_then, may_requireWholeDisk, may_orDie,
      decide_eq_true_eq] at hv
    obtain ⟨-, -, hd, -, ht, hb, -⟩ := hv
    obtain ⟨x, hx⟩ := ht.exists_device
    rw [may_then, may_then, may_rootGuard hd, may_removableOnly hx] at h
    exact ⟨hb, ht, h.1, h.2.1⟩
  · rintro ⟨hb, ht, hr, hm⟩
    obtain ⟨x, hx⟩ := ht.exists_device
    have hd := ne_empty_of_device hx
    refine ⟨a.buildRoot, may_bind.2 ⟨a.buildRoot, ?_, ?_⟩⟩
    · simp only [RepairEsp.requireInputs, may_then, may_requireWholeDisk, may_orDie,
        decide_eq_true_eq]
      exact ⟨may_requireLinux _, may_require.2 ⟨.done, trivial, rfl⟩, hd, may_blockDevice hx _, ht,
        hb, may_bind.2 ⟨_, may_readlink a.buildRoot,
          may_then.2 ⟨may_requireCommands _, rfl⟩⟩⟩
    · rw [may_then, may_then, may_rootGuard hd, may_removableOnly hx]
      exact ⟨hr, hm, rfl⟩

/-- `readlink -f` yields a path of the same device. -/
theorem device_of_readlink {r : Reply} (hx : F.device disk = some x)
    (h : May (F.Truthful root) (askChecked (.readlink disk)) r) : F.device r.text = some x := by
  obtain ⟨n, hn, hnx⟩ := Option.bind_eq_some_iff.1 hx
  have ha := (may_askChecked.1 h).1
  rw [Forest.truthful_query, Forest.Answers, hn] at ha
  rw [Forest.device, ha.2]
  exact hnx

theorem may_rmGuard {allowInternal : Bool} (hx : F.device disk = some x) :
    May (F.Truthful root) (Recovery.rmGuard disk allowInternal) () ↔
      allowInternal = true ∨ F.Removable disk := by
  simp only [Recovery.rmGuard, may_bind, may_askChecked, Forest.truthful_query, Forest.Answers,
    Forest.PaddedColumn, Forest.Removable, hx, may_orDie, Bool.or_eq_true, decide_eq_true_eq,
    Option.some.injEq, exists_eq_left']
  constructor
  · rintro ⟨r, ⟨⟨-, -, hr⟩, -⟩, h⟩
    rw [hr, Node.rmLabel_eq_one] at h
    exact h.symm
  · intro h
    refine ⟨.lines [x.rmLabel], ⟨⟨rfl, ?_, ?_⟩, rfl⟩, ?_⟩
    · simp [trBlank_rmLabel]
    · simp [trBlank_rmLabel]
    · simp only [Reply.firstLine_lines_cons, trBlank_rmLabel, Node.rmLabel_eq_one]
      exact h.symm

/-- The test of the resolved target. -/
theorem may_requireTarget :
    May (F.Truthful root) (Recovery.requireTarget disk) () ↔ F.IsDisk disk := by
  rw [Recovery.requireTarget, may_then, may_requireBlock]
  simp only [may_bind, may_ask, Forest.truthful_query, Forest.Answers, Forest.Column,
    Forest.IsDisk, may_orDie, decide_eq_true_eq]
  constructor
  · rintro ⟨-, r, hr, ht⟩
    cases hx : F.device disk with
    | none =>
      rw [hx] at hr
      simp [Reply.firstLine, hr.2] at ht
    | some x =>
      rw [hx] at hr
      exact ⟨x, rfl, by simpa [Reply.firstLine, hr.2] using ht⟩
  · rintro ⟨x, hx, ht⟩
    obtain ⟨n, hn, -⟩ := Option.bind_eq_some_iff.1 hx
    refine ⟨by simp [hn], .lines [x.type.label], ?_, by simp [ht]⟩
    simp [hx, Reply.lines]

theorem may_recovery_guardSection {a : Recovery.Args} (hx : F.device a.disk = some x) :
    (∃ b, May (F.Truthful root) (Recovery.guardSection a) b) ↔
      a.buildRoot ≠ "" ∧ a.macrecovery ≠ "" ∧ F.IsDisk a.disk ∧
        (a.allowInternal = true ∨ F.Removable a.disk) := by
  have hd := ne_empty_of_device hx
  simp only [Recovery.guardSection, may_then, may_orDie, decide_eq_true_eq]
  constructor
  · rintro ⟨b, -, -, -, hb, hm, h⟩
    obtain ⟨v, hv, h⟩ := may_bind.1 h
    obtain ⟨r, hr, hv⟩ := may_bind.1 hv
    obtain ⟨r₁, -, hv⟩ := may_bind.1 hv
    obtain ⟨r₂, -, hv⟩ := may_bind.1 hv
    have hvd : v.disk = r.text := by rw [may_ret.1 hv]
    -- `readlink` gives a name of the same device
    have hvx : F.device v.disk = F.device a.disk := by
      rw [hvd, device_of_readlink hx hr, hx]
    simp only [may_then, may_requireTarget, may_rmGuard (hvx.trans hx), Forest.IsDisk,
      Forest.Removable, hvx] at h
    exact ⟨hb, hm, h.1, h.2.2.2.1⟩
  · rintro ⟨hb, hm, ht, h⟩
    refine ⟨⟨a.disk, a.buildRoot, a.macrecovery⟩, may_requireLinux _,
      may_require.2 ⟨.done, trivial, rfl⟩, hd, hb, hm,
      may_bind.2 ⟨⟨a.disk, a.buildRoot, a.macrecovery⟩, ?_, ?_⟩⟩
    · exact may_bind.2 ⟨_, may_readlink _, may_bind.2 ⟨_, may_readlink _,
        may_bind.2 ⟨_, may_readlink _, rfl⟩⟩⟩
    · simp only [may_then, may_rmGuard hx, may_requireTarget]
      refine ⟨ht, may_requireCommands _, ?_, h, rfl⟩
      exact may_bind.2 ⟨true, may_holds.2 ⟨.done, trivial, rfl⟩, rfl⟩

/-- A run that returns, in terms of `May`. -/
theorem returns_init_iff {α : Type} {p : Sh α} :
    (∃ b s', Reach (fun _ => F.Truthful root) (p, State.init) (.ret b, s')) ↔
      ∃ b, May (F.Truthful root) p b :=
  exists_congr fun _ => (may_iff rfl).symm

/-- **The guards, exactly**: a writer passes a whole disk iff it does not refuse it. -/
theorem passesGuard_iff (w : Writer) {allowInternal : Bool} (ht : F.IsDisk disk) :
    w.PassesGuard root disk allowInternal ↔ ¬ w.Refuses root disk allowInternal := by
  -- any arguments with this disk
  obtain ⟨x, hx⟩ := ht.exists_device
  cases w with
  | makeUsb =>
    simp only [PassesGuard, Refuses, returns_init_iff, not_or, not_and]
    constructor
    · rintro ⟨a, rfl, rfl, ⟨⟩, h⟩
      obtain ⟨-, hr, hm⟩ := may_makeUsb_guardSection.1 h
      exact ⟨hr, fun ha => hm.resolve_left (by simp [ha])⟩
    · rintro ⟨hr, hm⟩
      refine ⟨⟨.makeUsb, disk, "", "", "", "", "", "", .auto, "", allowInternal, false⟩, rfl, rfl,
        (), may_makeUsb_guardSection.2 ⟨ht, hr, ?_⟩⟩
      cases allowInternal with
      | false => exact Or.inr (hm rfl)
      | true => exact Or.inl rfl
  | updateEfi =>
    simp only [PassesGuard, Refuses, returns_init_iff, not_or, not_and]
    constructor
    · rintro ⟨a, rfl, rfl, h⟩
      obtain ⟨-, -, hr, hm⟩ := may_updateEfi_guardSection.1 h
      exact ⟨hr, fun ha => hm.resolve_left (by simp [ha])⟩
    · rintro ⟨hr, hm⟩
      refine ⟨⟨"", disk, "", "build", allowInternal, false⟩, rfl, rfl,
        may_updateEfi_guardSection.2 ⟨by simp, ht, hr, ?_⟩⟩
      cases allowInternal with
      | false => exact Or.inr (hm rfl)
      | true => exact Or.inl rfl
  | repair =>
    simp only [PassesGuard, Refuses, returns_init_iff, not_or]
    constructor
    · rintro ⟨a, rfl, h⟩
      exact (may_repair_guardSection.1 h).2.2
    · intro h
      exact ⟨⟨disk, "build", "", false⟩, rfl, may_repair_guardSection.2 ⟨by simp, ht, h⟩⟩
  | recovery =>
    simp only [PassesGuard, Refuses, returns_init_iff, not_and, not_not]
    constructor
    · rintro ⟨a, rfl, rfl, h⟩ ha
      exact ((may_recovery_guardSection hx).1 h).2.2.2.resolve_left (by simp [ha])
    · intro h
      refine ⟨⟨disk, "build", "macrecovery.py", "MAC", false, allowInternal⟩, rfl, rfl,
        (may_recovery_guardSection hx).2 ⟨by simp, by simp, ht, ?_⟩⟩
      cases allowInternal with
      | false => exact Or.inr (h rfl)
      | true => exact Or.inl rfl

end Writer

/-! ### Disks that carry the root file system -/

/-- A path denotes a disk that `/` is stored on, at any stacking depth. -/
def Forest.CarriesRoot {F : Forest} (root : RootMount F) (disk : String) : Prop :=
  F.IsDisk disk ∧ ∃ n, F.resolve disk = some n ∧ F.StoredOn root.node n

/-- **The root-disk guard, exactly**: a disk that carries `/` is kept from every run of a writer iff
its argument is one of the two strings that are compared, or the removable/USB test stops it. -/
theorem guard_refuses_rootDisk_iff (w : Writer) (F : Forest) (root : RootMount F) (disk : String)
    (allowInternal : Bool) :
    (Forest.CarriesRoot root disk → ¬ w.PassesGuard root disk allowInternal) ↔
      (Forest.CarriesRoot root disk → w.Refuses root disk allowInternal) := by
  refine imp_congr_right fun h => ?_
  rw [w.passesGuard_iff h.1, not_not]

/-- A machine whose `/` is an LVM volume on the second partition of its SATA disk. -/
def lvmMachine : Forest where
  nodes := [
    ("sda", ⟨.disk, [], none, false, .sata, "", by simp, by simp, by simp⟩),
    ("sda2", ⟨.part, ["sda"], some "sda", false, .none, "2", by simp, by simp, by simp⟩),
    ("dm-0", ⟨.lvm, ["sda2"], some "sda2", false, .none, "", by simp, by simp, by simp⟩)]
  aliases := [("/dev/mapper/vg-root", "dm-0")]
  nodup := by decide
  names := by decide
  ordered := by simp [Ordered]
  aliases_nodes := by decide

/-- Its root mount. -/
def lvmRoot : RootMount lvmMachine := ⟨"/dev/mapper/vg-root", "dm-0", none, by decide⟩

/-- A USB disk with one partition beside the disk that carries `/`. -/
def twoDisks : Forest where
  nodes := [
    ("sda", ⟨.disk, [], none, false, .sata, "", by simp, by simp, by simp⟩),
    ("sda1", ⟨.part, ["sda"], some "sda", false, .none, "1", by simp, by simp, by simp⟩),
    ("sdb", ⟨.disk, [], none, true, .usb, "", by simp, by simp, by simp⟩),
    ("sdb1", ⟨.part, ["sdb"], some "sdb", true, .none, "1", by simp, by simp, by simp⟩)]
  aliases := []
  nodup := by decide
  names := by decide
  ordered := by simp [Ordered]
  aliases_nodes := by decide

/-- The disk below an LVM root passes the guard of `--make-usb` with `--allow-internal`. -/
theorem rootDisk_passes_guard :
    Forest.CarriesRoot lvmRoot "/dev/sda" ∧ Writer.makeUsb.PassesGuard lvmRoot "/dev/sda" true := by
  constructor
  · refine ⟨⟨_, rfl, rfl⟩, "sda", by decide, ?_⟩
    have h₁ : lvmMachine.LiesOn "dm-0" "sda2" := ⟨_, rfl, List.mem_singleton.2 rfl⟩
    have h₂ : lvmMachine.LiesOn "sda2" "sda" := ⟨_, rfl, List.mem_singleton.2 rfl⟩
    exact .head h₁ (.single h₂)
  · refine (Writer.passesGuard_iff .makeUsb ⟨_, rfl, rfl⟩).2 ?_
    rintro ((h | ⟨x, p, hx, hp, h⟩) | ⟨h, -⟩)
    · revert h; decide
    · cases hx; cases hp; revert h; decide
    · cases h

end Usb

end InstallKit
