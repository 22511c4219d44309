import InstallKit.Usb.Membership
import InstallKit.Usb.InstallOpenduet

/-!
# Which partitions the writers touch

For each operation that writes to a partition: when every partition it touches is a checked
partition of `--disk`.

-/

namespace InstallKit

namespace Usb

open Shell

/-- A partition that a script finds in the listing of the disk has been checked. -/
theorem checked_of_listed {F : Forest} {disk dev : String} {l : Log} (h : Listed disk dev l)
    (hr : (F.resolve dev).isSome = true) : Checked [""] disk dev l := by
  refine Or.inr ⟨?_, h⟩
  rw [List.mem_singleton]
  rintro rfl
  simp [Forest.resolve_empty] at hr

/-- **Scripts that select an ESP**: guarded when they are only reached by a partition of the disk
that was found in its listing. -/
theorem guarded_select {W : World} {α β : Type} {g : Sh β} {sel : β → Sh String}
    {rest : β → String → Sh α} {disk espPart : String} (hg : g.Calls fun c => c.direct = [])
    (hsel : ∀ b, (sel b).Calls fun c => c.direct = [] ∧ c.isPartition = false)
    (hrest : ∀ b e, (rest b e).Calls fun c =>
      c.isPartition = false ∧ ∀ dev ∈ c.direct, dev ∈ [e])
    (hret : ∀ b t e t', Returns W.Answers g State.init b t → Returns W.Answers (sel b) t e t' →
      Ready false t ∧ espPart = "" ∧ W.before.IsPartOf e disk ∧
        (W.before.resolve e).isSome = true ∧ Listed disk e t'.log) :
    Always W.Answers (fun s => Guarded W [espPart] disk s.log) (g >>= fun b => sel b >>= rest b)
      State.init := by
  refine Always.bind (always_guarded_nil hg .nil) fun b t ht => ?_
  have hinv : GuardInv W [espPart] disk [] t.log := GuardInv.of_returns hg .nil ht
  have hsel' : (sel b).Calls fun c => c.direct = [] := (hsel b).mono fun _ hc => hc.1
  refine Always.bind (always_guarded_nil hsel' hinv) fun e t' ht' => ?_
  obtain ⟨hready, rfl, hpart, hres, hlist⟩ := hret b t e t' ht ht'
  refine always_guarded (hrest b e) ((GuardInv.of_returns hsel' hinv ht').extend ?_)
  intro dev hdev
  rw [List.mem_singleton] at hdev
  subst hdev
  have htab : repartitioned t'.log = false :=
    (World.repartitioned_of_returns ((hsel b).mono fun _ hc => hc.2) ht').trans hready.table
  rw [World.forest, htab]
  exact ⟨hpart, checked_of_listed hlist hres⟩

/-- What is left once the selected partition of an unchecked script is touched. -/
theorem listed_of_authorized {W : World} {b : Bool} {s : State} {given : List String}
    {disk part number e : String} {c : Cmd} (hs : Unchecked W b s) (hg : part ∈ given)
    (hn : ¬ W.before.NamesRoot W.rootBefore disk)
    (hsel : (W.devices b).selected disk part number = some e) (he : e ∈ c.direct)
    (h : Authorized W given disk s.log c) :
    part = "" ∧
      ∀ e, (W.devices b).selected disk part number = some e → (W.devices b).IsPartOf e disk := by
  have hmem : e ∈ c.targets s.log := List.mem_append_left _ he
  constructor
  · by_contra hne
    have heq : part = e := by simpa [Forest.selected, hne] using hsel
    exact hs.not_authorized (heq ▸ hg) hn hmem h
  · intro e' he'
    obtain rfl : e = e' := Option.some.inj (hsel.symm.trans he')
    have hpart := (h e hmem).1
    rw [World.forest, hs.ready.table] at hpart
    exact hpart

/-! ### `linux_install_openduet.sh` -/

namespace InstallOpenduet

/-- The installer touches no partition before its parent check is over. -/
theorem calls_preflight {P : Cmd → Prop} (a : Args) (hP : ∀ q, P (.query q)) :
    (preflight a).Calls P := by
  simp [preflight, requireTargets, requireLinux, requireArgs, requireWholeDisk, requireBuild,
    selectBootFile, bothFiles, parentCheck, hP]

theorem calls_waitLoop {P : Cmd → Prop} {espPart : String} {settle : Bool} {n : ℕ}
    (hq : ∀ q, P (.query q)) (hs : ∀ w, P (.settle w)) : (waitLoop espPart settle n).Calls P := by
  induction n with
  | zero => trivial
  | succ n ih => cases settle <;> simp [waitLoop, hq, hs, ih]

/-- After its checks, the installer touches the ESP and nothing else. -/
theorem calls_install (a : Args) (buildRoot : String) (bootFile : Loc) :
    (install a buildRoot bootFile).Calls fun c =>
      c.isPartition = false ∧ ∀ dev ∈ c.direct, dev ∈ [a.espPart] := by
  simp [install, makeDirs, unmountEsp, checkFat, probeFstype, fat32SectorValid, recoverSector,
    captureSectors, boot0Write, afterBoot0, settleAndWait, waitForPartition, calls_waitLoop,
    pbrWrite, verifyBoot, Cmd.direct, Cmd.isPartition]

section Preflight

variable {F : Forest} {root : RootMount F} {a : Args}

theorem may_requireTargets :
    May (F.Truthful root) (requireTargets a) () ↔
      a.buildRoot ≠ "" ∧ F.IsDisk a.disk ∧ (F.resolve a.espPart).isSome = true := by
  have hargs : May (F.Truthful root) (requireArgs a) () ↔
      a.disk ≠ "" ∧ a.espPart ≠ "" ∧ a.buildRoot ≠ "" := by
    unfold requireArgs
    split <;> simp_all
  simp only [requireTargets, may_then, may_requireWholeDisk, may_requireBlock, hargs]
  constructor
  · rintro ⟨-, -, ⟨-, -, hb⟩, -, ht, he⟩
    exact ⟨hb, ht, he⟩
  · rintro ⟨hb, ht, he⟩
    obtain ⟨n, hn⟩ := Option.isSome_iff_exists.1 he
    have ⟨x, hx, _⟩ := ht
    obtain ⟨m, hm, -⟩ := Option.bind_eq_some_iff.1 hx
    have hne : a.espPart ≠ "" := fun h => by simp [h, Forest.resolve_empty] at hn
    exact ⟨Writer.may_requireLinux _, may_require.2 ⟨.done, trivial, rfl⟩,
      ⟨Writer.ne_empty_of_device hx, hne, hb⟩, by simp [hm], ht, he⟩

/-- The parent check refuses exactly a known parent that is another device. -/
theorem may_parentCheck {disk espPart : String} {y : Node} (hy : F.device espPart = some y) :
    May (F.Truthful root) (parentCheck disk espPart) () ↔ ∀ p ∈ y.pkname, "/dev/" ++ p = disk := by
  simp only [parentCheck, may_bind, may_ask, Forest.truthful_query, Forest.Answers, hy]
  have key : ∀ r : Reply, r.firstLine = y.pkname.getD "" →
      ((r.firstLine ≠ "" ∧ "/dev/" ++ r.firstLine ≠ disk) ↔ ¬ ∀ p ∈ y.pkname, "/dev/" ++ p = disk) := by
    intro r hr
    rw [hr]
    cases hp : y.pkname with
    | none => simp
    | some p => simp [(y.pkname_mem p hp).2]
  constructor
  · rintro ⟨r, hr, h⟩
    by_contra hn
    rw [if_pos ((key r hr).2 hn)] at h
    exact may_die h
  · intro h
    refine ⟨.lines [y.pkname.getD ""], rfl, ?_⟩
    rw [if_neg (fun hk => (key (.lines [y.pkname.getD ""]) rfl).1 hk h)]
    exact rfl

theorem may_requireBuild (a : Args) :
    May (F.Truthful root) (requireBuild a) a.buildRoot := by
  refine may_bind.2 ⟨_, Writer.may_readlink a.buildRoot, ?_⟩
  simp only [may_then, may_require, Forest.truthful_query, Forest.Answers, true_and]
  exact ⟨⟨.done, rfl⟩, ⟨.done, rfl⟩, ⟨.done, rfl⟩, rfl⟩

theorem may_selectBootFile (buildRoot : String) :
    May (F.Truthful root) (selectBootFile buildRoot) (build buildRoot "OpenDuet/bootIA32") := by
  refine may_bind.2 ⟨true, ?_, rfl⟩
  exact may_bind.2 ⟨true, may_holds.2 ⟨.done, trivial, rfl⟩, may_holds.2 ⟨.done, trivial, rfl⟩⟩

/-- What the installer accepts: a whole disk, and a device that is not known to lie elsewhere. -/
def Accepts (F : Forest) (disk espPart : String) : Prop :=
  F.IsDisk disk ∧ ∃ y, F.device espPart = some y ∧ ∀ p ∈ y.pkname, "/dev/" ++ p = disk

theorem may_preflight :
    (∃ v, May (F.Truthful root) (preflight a) v) ↔
      a.buildRoot ≠ "" ∧ Accepts F a.disk a.espPart := by
  constructor
  · rintro ⟨v, h⟩
    obtain ⟨h, hv⟩ := may_then.1 h
    obtain ⟨hb, hd, he⟩ := may_requireTargets.1 h
    obtain ⟨b, -, hv⟩ := may_bind.1 hv
    obtain ⟨f, -, hv⟩ := may_bind.1 hv
    obtain ⟨n, hn⟩ := Option.isSome_iff_exists.1 he
    obtain ⟨y, hy, -⟩ := Forest.device_of_resolve hn
    exact ⟨hb, hd, y, hy, (may_parentCheck hy).1 (may_then.1 hv).1⟩
  · rintro ⟨hb, hd, y, hy, hp⟩
    obtain ⟨n, hn, -⟩ := Option.bind_eq_some_iff.1 hy
    refine ⟨(a.buildRoot, build a.buildRoot "OpenDuet/bootIA32"),
      may_then.2 ⟨may_requireTargets.2 ⟨hb, hd, by simp [hn]⟩, may_bind.2
        ⟨_, may_requireBuild a, may_bind.2 ⟨_, may_selectBootFile _, ?_⟩⟩⟩⟩
    exact may_then.2 ⟨(may_parentCheck hy).2 hp, rfl⟩

/-- The log of a passed preflight holds the parent of the ESP. -/
theorem pkname_of_returns {A : Log → Cmd → Reply → Prop} {v : String × Loc} {s t : State}
    (h : Returns A (preflight a) s v t) :
    ∃ r, (Cmd.query (.lsblkPkname a.espPart), r) ∈ t.log := by
  obtain ⟨_, _, -, h⟩ := returns_bind.1 h
  obtain ⟨_, _, -, h⟩ := returns_bind.1 h
  obtain ⟨_, _, -, h⟩ := returns_bind.1 h
  obtain ⟨_, _, hp, h⟩ := returns_bind.1 h
  obtain ⟨r, _, hr, hp⟩ := returns_bind.1 hp
  simp only [ask, Script.attempt, returns_call, returns_ret] at hr
  obtain ⟨r', -, -, rfl, rfl⟩ := hr
  have hlog := hp.log_suffix.trans h.log_suffix
  exact ⟨r, hlog.subset (List.mem_cons_self ..)⟩

end Preflight

/-! #### The installer keeps to the ESP it has checked -/

variable {W : World} {a : Args}

/-- A partition that the preflight accepts is a checked partition of the disk. -/
theorem checked_of_preflight {given : List String} {v : String × Loc} {t : State} {y : Node}
    (h : Returns W.Answers (preflight a) State.init v t) (hy : W.before.device a.espPart = some y)
    (ht : y.type = .part) (hp : ∀ p ∈ y.pkname, "/dev/" ++ p = a.disk) :
    (W.forest t.log).IsPartOf a.espPart a.disk ∧ Checked given a.disk a.espPart t.log := by
  have hcalls : (preflight a).Calls fun c => c.isPartition = false :=
    calls_preflight a fun _ => rfl
  have hf : W.forest t.log = W.before := by
    rw [World.forest, World.repartitioned_of_returns hcalls h]
    rfl
  obtain ⟨p, hpar, hpk⟩ := y.part_parent ht
  have hdisk := hp p hpk
  obtain ⟨n, hn, hny⟩ := Option.bind_eq_some_iff.1 hy
  have hpm : p ∈ W.before.nodes.map Prod.fst := Forest.parent_mem hny (by simp [hpar])
  constructor
  · rw [hf]
    exact ⟨y, p, hy, ht, hpar, by rw [← hdisk, Forest.resolve_dev hpm]⟩
  · obtain ⟨r, hr⟩ := pkname_of_returns h
    have htr := pkTruth_of_returns h rfl hcalls (fun _ _ hm => by cases hm) _ _ hr
    simp only [hy, Option.bind_some, hpk, Option.getD_some] at htr
    exact Or.inl ⟨r, hr, by rw [htr]; exact (y.pkname_mem p hpk).2, by rw [htr, hdisk]⟩

theorem guarded_of_part
    (h : Accepts W.before a.disk a.espPart → ∃ y, W.before.device a.espPart = some y ∧ y.type = .part) :
    Always W.Answers (fun s => Guarded W [a.espPart] a.disk s.log) (main a) State.init := by
  have hq : (preflight a).Calls fun c => c.direct = [] := calls_preflight a fun _ => rfl
  refine Always.bind (always_guarded_nil hq GuardInv.nil) fun v t ht => ?_
  have hacc : Accepts W.before a.disk a.espPart :=
    (may_preflight.1 ⟨v, (World.returns_iff (calls_preflight a fun _ => rfl) rfl rfl).1 ⟨t, ht⟩⟩).2
  obtain ⟨y, hy, hty⟩ := h hacc
  obtain ⟨-, y', hy', hp⟩ := hacc
  obtain rfl : y = y' := Option.some.inj (hy.symm.trans hy')
  refine always_guarded (calls_install a v.1 v.2) ((GuardInv.of_returns hq .nil ht).extend ?_)
  simpa using checked_of_preflight ht hy hty hp

/-! #### A run up to the write of the boot sector -/

section Run

variable {F : Forest} {root : RootMount F}

theorem may_makeDirs : May (F.Truthful root) (makeDirs a) (true,
    "/backup/openduet--" ++ basename a.disk) := by
  refine may_bind.2 ⟨.done, ?_, ?_⟩
  · simp [Script.cmd, Forest.Truthful]
  · simp only [Script.setVar_bind, may_assign, may_then, may_exec, Forest.Truthful]
    refine ⟨⟨.done, trivial, rfl⟩, may_bind.2 ⟨.done, may_ask.2 trivial,
      may_bind.2 ⟨.done, may_ask.2 trivial, ?_⟩⟩⟩
    exact may_then.2 ⟨may_exec.2 ⟨.done, trivial, rfl⟩, rfl⟩

theorem may_unmountEsp (espPart : String) : May (F.Truthful root) (unmountEsp espPart) () :=
  may_bind.2 ⟨.done, may_ask.2 trivial, rfl⟩

theorem may_checkFat {backup : String → Loc} {backupDir : String} :
    May (F.Truthful root) (checkFat a backup backupDir) () :=
  may_bind.2 ⟨"vfat", may_bind.2 ⟨.lines ["vfat"], may_ask.2 trivial, rfl⟩, rfl⟩

theorem may_captureSectors {buildRoot : String} {backup : String → Loc} {tempDir : Bool} :
    May (F.Truthful root) (captureSectors a buildRoot backup tempDir) () := by
  simp [captureSectors, may_then, Forest.Truthful]

theorem may_settleAndWait {msg : String} (h : (F.resolve a.espPart).isSome = true) :
    May (F.Truthful root) (settleAndWait a msg) () := by
  have hw : May (F.Truthful root) (waitLoop a.espPart true 50) true :=
    may_bind.2 ⟨true, may_holds.2 ⟨.done, by simp [Forest.Answers, h], rfl⟩, rfl⟩
  exact may_then.2 ⟨may_exec.2 ⟨.done, trivial, rfl⟩, may_then.2 ⟨may_ifHave trivial,
    may_bind.2 ⟨true, hw, rfl⟩⟩⟩

end Run

/-- **The hole of the parent check**: an accepted ESP that is not a partition is written to. -/
theorem part_of_guarded (hb : a.buildRoot ≠ "") (hacc : Accepts W.before a.disk a.espPart)
    (h : Always W.Answers (fun s => Guarded W [a.espPart] a.disk s.log) (main a) State.init) :
    ∃ y, W.before.device a.espPart = some y ∧ y.type = .part := by
  obtain ⟨-, y, hy, -⟩ := id hacc
  obtain ⟨n, hn, -⟩ := Option.bind_eq_some_iff.1 hy
  have hsome : (W.before.resolve a.espPart).isSome = true := by simp [hn]
  obtain ⟨⟨buildRoot, bootFile⟩, hm⟩ := (@may_preflight _ W.rootBefore a).2 ⟨hb, hacc⟩
  obtain ⟨t, -, ht, h⟩ := always_next h ready_init (calls_preflight a fun _ => rfl) hm
  obtain ⟨t, -, ht, h⟩ := always_next h ht (by simp [makeDirs, Cmd.isPartition]) may_makeDirs
  obtain ⟨t, -, ht, h⟩ := always_next h ht (by simp [unmountEsp, Cmd.isPartition])
    (may_unmountEsp _)
  obtain ⟨t, -, ht, h⟩ := always_next h ht (by simp [checkFat, probeFstype, fat32SectorValid,
    recoverSector, Cmd.isPartition]) may_checkFat
  obtain ⟨t, -, ht, h⟩ := always_next h ht (by simp [captureSectors, Cmd.isPartition])
    may_captureSectors
  obtain ⟨t, -, ht, h⟩ := always_next (v := ()) h ht (by simp [boot0Write, Cmd.isPartition])
    (may_exec.2 ⟨.done, trivial, rfl⟩)
  obtain ⟨t, -, ht, h⟩ := always_next h ht (by simp [settleAndWait, waitForPartition,
    calls_waitLoop, Cmd.isPartition]) (may_settleAndWait hsome)
  obtain ⟨t, -, ht, h⟩ := always_next h ht (by simp [unmountEsp, Cmd.isPartition])
    (may_unmountEsp _)
  have hauth := authorized_of_always h (by simp [pbrWrite])
  obtain ⟨⟨y', m, hy', hty, -⟩, -⟩ := hauth a.espPart (by simp [Cmd.targets, pbrWrite, Cmd.direct])
  rw [World.forest, ht.table] at hy'
  exact ⟨y', hy', hty⟩

end InstallOpenduet

/-! ### `linux_update_efi.sh` -/

namespace UpdateEfi

variable {W : World} {a : Args}

theorem calls_guardSection {P : Cmd → Prop} (hP : ∀ q, P (.query q)) : (guardSection a).Calls P := by
  simp [guardSection, requireInputs, requireLinux, requireWholeDisk, requireBuild,
    requireInstaller, rootGuard, rootParent, removableGuard, removableFlags, hP]

theorem calls_selectEsp {P : Cmd → Prop} (hP : ∀ q, P (.query q)) (hs : ∀ w, P (.settle w)) :
    (selectEsp a).Calls P := by
  simp [selectEsp, selectFatEsp, hP, hs]

/-- After its checks, the update touches the selected ESP and nothing else. -/
theorem calls_update (buildRoot espPart : String) :
    (do dryRunExit a buildRoot; confirm a espPart; update a buildRoot espPart : Sh ℕ).Calls fun c =>
      c.isPartition = false ∧ ∀ dev ∈ c.direct, dev ∈ [espPart] := by
  simp [dryRunExit, confirm, update, unmountDisk, makeMountDir, backupEsp, hasEfiFiles, backupIf,
    replaceEfi, checkCopy, requireBootFile, releaseMountDir, verify, verifyCopy, Cmd.direct,
    Cmd.isPartition]

/-- What the update accepts: a disk that passes the guards, with an ESP. -/
def Accepts (W : World) (disk espPart : String) (allowInternal : Bool) : Prop :=
  W.before.IsDisk disk ∧ ¬ Writer.updateEfi.Refuses W.rootBefore disk allowInternal ∧
    ∃ e, W.before.selected disk espPart "1" = some e ∧ (W.before.resolve e).isSome = true

/-- A passed guard section. -/
theorem guard_of_returns {b : String} {t : State}
    (h : Returns W.Answers (guardSection a) State.init b t) :
    Ready false t ∧ W.before.IsDisk a.disk ∧
      ¬ Writer.updateEfi.Refuses W.rootBefore a.disk a.allowInternal := by
  have hcalls : (guardSection a).Calls fun c => c.isPartition = false :=
    calls_guardSection fun _ => rfl
  obtain ⟨-, hd, hr, hm⟩ := Writer.may_updateEfi_guardSection.1
    ⟨b, (World.returns_iff (b := false) hcalls rfl rfl).1 ⟨t, h⟩⟩
  refine ⟨⟨h.errexit, World.repartitioned_of_returns hcalls h⟩, hd, ?_⟩
  rintro (h | ⟨ha, hi⟩)
  · exact hr h
  · exact hm.elim (by simp [ha]) fun hn => hn hi

/-- The guard section checks no partition. -/
theorem unchecked_of_returns {b : String} {t : State}
    (h : Returns W.Answers (guardSection a) State.init b t) : Unchecked W false t := by
  have hcalls : (guardSection a).Calls fun c => c.isPartition = false :=
    calls_guardSection fun _ => rfl
  refine ⟨(guard_of_returns h).1, ?_, pkTruth_of_returns h rfl hcalls fun _ _ hm => by cases hm⟩
  obtain ⟨v, s₁, h₁, h⟩ := returns_bind.1 h
  have hin : ∀ {P : Cmd → Prop}, (∀ q, (∀ e, q ≠ .lsblkPkname e) → P (.query q)) →
      (requireInputs a).Calls P := by
    intro P hP
    simp [requireInputs, requireLinux, requireWholeDisk, requireBuild, requireInstaller, hP]
  have hp₁ : PkRoot W s₁.log := PkRoot.of_returns (s := State.init) (fun _ _ hm => by cases hm)
    (hin fun q hq => by cases q <;> first | rfl | exact (hq _ rfl).elim) h₁
  obtain ⟨_, s₂, h₂, h⟩ := returns_bind.1 h
  have htab : repartitioned s₁.log = false :=
    World.repartitioned_of_returns (hin fun _ _ => rfl) h₁
  exact (hp₁.rootGuard htab h₂).of_returns
    (by simp [removableGuard, removableFlags, Cmd.asksParent]) h

theorem returns_selectEsp {e : String} {s t : State} (hs : Ready false s)
    (h : Returns W.Answers (selectEsp a) s e t) :
    W.before.selected a.disk a.espPart "1" = some e ∧ (W.before.resolve e).isSome = true ∧
      (a.espPart = "" → Listed a.disk e t.log) := by
  obtain ⟨_, s₁, h₁, h⟩ := returns_bind.1 h
  obtain ⟨_, s₂, h₂, h⟩ := returns_bind.1 h
  have hc : ∀ name w, (ifHave name (.settle w)).Calls fun c => c.isPartition = false := by
    simp [Cmd.isPartition]
  refine returns_selectFatEsp ⟨?_, ?_⟩ h
  · rw [h₂.errexit, h₁.errexit, hs.errexit]
  · rw [World.repartitioned_of_returns (hc _ _) h₂, World.repartitioned_of_returns (hc _ _) h₁,
      hs.table]

theorem guarded_of_listed
    (h : Accepts W a.disk a.espPart a.allowInternal → a.espPart = "" ∧
      ∀ e, W.before.selected a.disk a.espPart "1" = some e → W.before.IsPartOf e a.disk) :
    Always W.Answers (fun s => Guarded W [a.espPart] a.disk s.log) (main a) State.init := by
  refine guarded_select (calls_guardSection fun _ => rfl)
    (fun _ => calls_selectEsp (fun _ => ⟨rfl, rfl⟩) fun _ => ⟨rfl, rfl⟩) calls_update ?_
  intro b t e t' ht ht'
  obtain ⟨hready, hd, hr⟩ := guard_of_returns ht
  obtain ⟨hsel, hres, hlist⟩ := returns_selectEsp hready ht'
  obtain ⟨hesp, hpart⟩ := h ⟨hd, hr, e, hsel, hres⟩
  exact ⟨hready, hesp, hpart e hsel, hres, hlist hesp⟩

/-- **No check**: an accepted ESP that was named on the command line is mounted read-write. -/
theorem listed_of_guarded (hb : a.buildRoot ≠ "") (hdry : a.dryRun = false)
    (hacc : Accepts W a.disk a.espPart a.allowInternal)
    (h : Always W.Answers (fun s => Guarded W [a.espPart] a.disk s.log) (main a) State.init) :
    a.espPart = "" ∧
      ∀ e, W.before.selected a.disk a.espPart "1" = some e → W.before.IsPartOf e a.disk := by
  obtain ⟨hd, hr, e, hsel, hres⟩ := hacc
  obtain ⟨hnames, hgate⟩ := not_or.1 hr
  obtain ⟨b, hm⟩ := (@Writer.may_updateEfi_guardSection _ W.rootBefore a).2
    ⟨hb, hd, hnames, by by_cases ha : a.allowInternal = true <;> simp_all⟩
  -- a run that gets to the mount of the ESP
  obtain ⟨t, ht, -, h⟩ := always_next h ready_init (calls_guardSection fun _ => rfl) hm
  obtain ⟨t, ht, h⟩ := unchecked_next h (unchecked_of_returns ht)
    (by simp [selectEsp, selectFatEsp, Cmd.isPartition, Cmd.asksParent])
    (may_then.2 ⟨may_ifHave trivial, may_then.2 ⟨may_ifHave trivial,
      may_selectFatEsp.2 ⟨hsel, hres⟩⟩⟩)
  obtain ⟨t, ht, h⟩ := unchecked_next (v := ()) h ht (by simp [dryRunExit, Cmd.isPartition,
    Cmd.asksParent]) (by simp [dryRunExit, hdry])
  obtain ⟨t, ht, h⟩ := unchecked_next (v := ()) h ht (by simp [confirm, Cmd.isPartition,
    Cmd.asksParent]) (may_bind.2 ⟨.lines ["UPDATE EFI " ++ e ++ " ON " ++ a.disk],
      may_askChecked.2 ⟨trivial, rfl⟩, may_orDie.2 (by simp)⟩)
  obtain ⟨t, ht, h⟩ := unchecked_next (v := ()) h ht (by simp [unmountDisk, Cmd.isPartition,
    Cmd.asksParent]) (may_bind.2 ⟨.done, may_ask.2 trivial, rfl⟩)
  obtain ⟨t, ht, h⟩ := unchecked_next (v := .tmp "update") h ht (by simp [makeMountDir,
    Cmd.isPartition, Cmd.asksParent]) (may_bind.2 ⟨.done, by simp [Script.cmd, Forest.Truthful],
      by simp⟩)
  exact listed_of_authorized ht (List.mem_singleton_self _) hnames hsel (by simp [Cmd.direct])
    (authorized_of_always h (by simp))

end UpdateEfi

/-! ### `repair_openduet_esp.sh` -/

namespace RepairEsp

variable {W : World} {a : Args}

theorem calls_guardSection {P : Cmd → Prop} (hP : ∀ q, P (.query q)) : (guardSection a).Calls P := by
  simp [guardSection, requireInputs, requireLinux, requireWholeDisk, requireCommands, rootGuard,
    rootParent, removableOnly, removableFlags, hP]

theorem calls_selectEsp {P : Cmd → Prop} (hP : ∀ q, P (.query q)) : (selectEsp a).Calls P := by
  simp [selectEsp, discoverEsp, hP]

theorem calls_waitLoop {P : Cmd → Prop} {path : String} {n : ℕ}
    (hb : P (.query (.test .b (.host path)))) (hh : ∀ name, P (.query (.haveCmd name)))
    (hs : ∀ w, P (.settle w)) : (waitLoop path n).Calls P := by
  induction n with
  | zero => trivial
  | succ n ih => simp [waitLoop, hb, hh, hs, ih]

/-- After its checks, the repair touches the selected ESP and nothing else. -/
theorem calls_repair (buildRoot espPart : String) :
    (do requireArtifacts buildRoot; repair a buildRoot espPart : Sh ℕ).Calls fun c =>
      c.isPartition = false ∧ ∀ dev ∈ c.direct, dev ∈ [espPart] := by
  simp [requireArtifacts, repair, makeDirs, unmountDisk, settle, waitForBlock, calls_waitLoop, reformat,
    requireFat, copyEfi, captureSector, boot0Write, afterBoot0, pbrWrite, verify, Cmd.direct,
    Cmd.isPartition]

/-- What the repair accepts: a disk that passes the guards, with an ESP. -/
def Accepts (W : World) (disk espPart : String) : Prop :=
  W.before.IsDisk disk ∧ ¬ Writer.repair.Refuses W.rootBefore disk false ∧
    ∃ e, W.before.selected disk espPart "1" = some e ∧ (W.before.resolve e).isSome = true

/-- A passed guard section. -/
theorem guard_of_returns {b : String} {t : State}
    (h : Returns W.Answers (guardSection a) State.init b t) :
    Ready false t ∧ W.before.IsDisk a.disk ∧
      ¬ Writer.repair.Refuses W.rootBefore a.disk false := by
  have hcalls : (guardSection a).Calls fun c => c.isPartition = false :=
    calls_guardSection fun _ => rfl
  obtain ⟨-, hd, hr, hm⟩ := Writer.may_repair_guardSection.1
    ⟨b, (World.returns_iff (b := false) hcalls rfl rfl).1 ⟨t, h⟩⟩
  exact ⟨⟨h.errexit, World.repartitioned_of_returns hcalls h⟩, hd, not_or.2 ⟨hr, hm⟩⟩

/-- The guard section checks no partition. -/
theorem unchecked_of_returns {b : String} {t : State}
    (h : Returns W.Answers (guardSection a) State.init b t) : Unchecked W false t := by
  have hcalls : (guardSection a).Calls fun c => c.isPartition = false :=
    calls_guardSection fun _ => rfl
  refine ⟨(guard_of_returns h).1, ?_, pkTruth_of_returns h rfl hcalls fun _ _ hm => by cases hm⟩
  obtain ⟨v, s₁, h₁, h⟩ := returns_bind.1 h
  have hp₁ : PkRoot W s₁.log := PkRoot.of_returns (s := State.init) (fun _ _ hm => by cases hm)
    (by simp [requireInputs, requireLinux, requireWholeDisk, requireCommands, Cmd.asksParent]) h₁
  obtain ⟨_, s₂, h₂, h⟩ := returns_bind.1 h
  have htab : repartitioned s₁.log = false := World.repartitioned_of_returns
    (by simp [requireInputs, requireLinux, requireWholeDisk, requireCommands, Cmd.isPartition]) h₁
  exact (hp₁.rootGuard htab h₂).of_returns
    (by simp [removableOnly, removableFlags, Cmd.asksParent]) h

/-- The partition that `lsblk` numbers 1. -/
theorem may_discoverEsp {F : Forest} {root : RootMount F} {e : String} (he : e ≠ "") :
    May (F.Truthful root) (discoverEsp a) e ↔ F.selected a.disk a.espPart "1" = some e := by
  unfold discoverEsp Forest.selected
  by_cases hp : a.espPart = ""
  · simp only [hp, ne_eq, not_true_eq_false, if_false, may_bind, may_askChecked,
      Forest.truthful_query, Forest.Answers, Script.pure_eq, may_ret]
    cases hd : F.resolve a.disk with
    | none =>
      simp only [Option.bind_none, Option.map_none, reduceCtorEq, iff_false]
      rintro ⟨r, ⟨⟨hs, -⟩, hs'⟩, -⟩
      exact hs hs'
    | some n =>
      simp only [Option.bind_some]
      cases hf : F.partition? n "1" with
      | none =>
        simp only [Option.toList_none, List.map_nil, Option.map_none, reduceCtorEq, iff_false]
        rintro ⟨r, ⟨⟨-, hr⟩, -⟩, rfl⟩
        simp [Reply.text, hr] at he
      | some m =>
        simp only [Option.toList_some, List.map_cons, List.map_nil, Option.map_some,
          Option.some.injEq]
        constructor
        · rintro ⟨r, ⟨⟨-, hr⟩, -⟩, rfl⟩
          simp [Reply.text, hr]
        · rintro rfl
          exact ⟨.lines ["/dev/" ++ m], ⟨⟨rfl, rfl⟩, rfl⟩, rfl⟩
  · simp [hp, eq_comm]

theorem may_selectEsp {F : Forest} {root : RootMount F} {e : String} :
    May (F.Truthful root) (selectEsp a) e ↔
      F.selected a.disk a.espPart "1" = some e ∧ (F.resolve e).isSome = true := by
  constructor
  · intro h
    obtain ⟨v, hv, h⟩ := may_bind.1 h
    rw [may_then, may_then, may_requireBlock, may_orDie] at h
    obtain ⟨hne, hb, h⟩ := h
    obtain rfl := may_ret.1 h
    exact ⟨(may_discoverEsp (by simpa using hne)).1 hv, hb⟩
  · rintro ⟨hs, hr⟩
    have hne : e ≠ "" := fun h => by simp [h, Forest.resolve_empty] at hr
    refine may_bind.2 ⟨e, (may_discoverEsp hne).2 hs, ?_⟩
    rw [may_then, may_then, may_requireBlock, may_orDie]
    exact ⟨by simpa using hne, hr, rfl⟩

theorem returns_selectEsp {e : String} {s t : State} (hs : Ready false s)
    (h : Returns W.Answers (selectEsp a) s e t) :
    W.before.selected a.disk a.espPart "1" = some e ∧ (W.before.resolve e).isSome = true ∧
      (a.espPart = "" → Listed a.disk e t.log) := by
  have hm := may_selectEsp.1
    ((World.returns_iff (calls_selectEsp fun _ => rfl) hs.errexit hs.table).1 ⟨t, h⟩)
  refine ⟨hm.1, hm.2, fun hp => ?_⟩
  have hne : e ≠ "" := fun h => by simp [h, Forest.resolve_empty] at hm
  obtain ⟨v, s₁, hv, h⟩ := returns_bind.1 h
  have hve : v = e := by
    obtain ⟨_, _, -, h⟩ := returns_bind.1 h
    obtain ⟨_, _, -, h⟩ := returns_bind.1 h
    exact (returns_ret.1 h).1.symm
  subst hve
  refine Listed.mono ?_ h.log_suffix.subset
  simp only [discoverEsp, hp, ne_eq, not_true_eq_false, if_false] at hv
  obtain ⟨r, s₂, hr, hv⟩ := returns_bind.1 hv
  simp only [askChecked, Script.cmd, returns_call, returns_ret] at hr
  obtain ⟨r', hA, -, rfl, rfl⟩ := hr
  obtain ⟨rfl, rfl⟩ := returns_ret.1 hv
  rw [World.Answers, hs.table] at hA
  refine ⟨.lsblkPartn1 a.disk, r, List.mem_cons_self .., Or.inr rfl, ?_⟩
  simp only [Forest.truthful_query, Forest.Answers] at hA
  split at hA
  · rw [hA.2]
    cases hf : (W.devices false).partition? _ "1" with
    | none => simp [Reply.text, hA.2, hf] at hne
    | some m => simp [Reply.text, hA.2, hf]
  · simp [Reply.text, hA.2] at hne

theorem guarded_of_listed
    (h : Accepts W a.disk a.espPart → a.espPart = "" ∧
      ∀ e, W.before.selected a.disk a.espPart "1" = some e → W.before.IsPartOf e a.disk) :
    Always W.Answers (fun s => Guarded W [a.espPart] a.disk s.log) (main a) State.init := by
  refine guarded_select (calls_guardSection fun _ => rfl)
    (fun _ => calls_selectEsp fun _ => ⟨rfl, rfl⟩) calls_repair ?_
  intro b t e t' ht ht'
  obtain ⟨hready, hd, hr⟩ := guard_of_returns ht
  obtain ⟨hsel, hres, hlist⟩ := returns_selectEsp hready ht'
  obtain ⟨hesp, hpart⟩ := h ⟨hd, hr, e, hsel, hres⟩
  exact ⟨hready, hesp, hpart e hsel, hres, hlist hesp⟩

section Run

variable {F : Forest} {root : RootMount F}

theorem may_makeDirs : May (F.Truthful root) makeDirs true := by
  refine may_bind.2 ⟨.done, by simp [Script.cmd, Forest.Truthful], ?_⟩
  simp [may_then, Forest.Truthful]

theorem may_requireArtifacts (buildRoot : String) :
    May (F.Truthful root) (requireArtifacts buildRoot) () := by
  simp only [requireArtifacts, each, may_then, may_require, Forest.truthful_query, Forest.Answers,
    true_and, Script.pure_eq, may_ret, and_true]
  exact ⟨⟨.done, rfl⟩, ⟨.done, rfl⟩, ⟨.done, rfl⟩, ⟨.done, rfl⟩, ⟨.done, rfl⟩⟩

theorem may_settle (disk : String) : May (F.Truthful root) (settle disk) () :=
  may_then.2 ⟨may_ifHave trivial, may_ifHave trivial⟩

theorem may_waitForBlock {path msg : String} (h : (F.resolve path).isSome = true) :
    May (F.Truthful root) (waitForBlock path msg) () := by
  have hw : May (F.Truthful root) (waitLoop path 100) true :=
    may_bind.2 ⟨true, may_holds.2 ⟨.done, by simp [Forest.Answers, h], rfl⟩, rfl⟩
  exact may_bind.2 ⟨true, hw, may_orDie.2 rfl⟩

theorem may_requireFat {espPart : String} {msg : String → String} :
    May (F.Truthful root) (requireFat espPart msg) () :=
  may_bind.2 ⟨.lines ["vfat"], may_ask.2 trivial, may_orDie.2 rfl⟩

end Run

/-- **No check**: an accepted ESP that was named on the command line is mounted read-write. -/
theorem listed_of_guarded (hb : a.buildRoot ≠ "") (hf : a.reformatEsp = false)
    (hacc : Accepts W a.disk a.espPart)
    (h : Always W.Answers (fun s => Guarded W [a.espPart] a.disk s.log) (main a) State.init) :
    a.espPart = "" ∧
      ∀ e, W.before.selected a.disk a.espPart "1" = some e → W.before.IsPartOf e a.disk := by
  obtain ⟨hd, hr, e, hsel, hres⟩ := hacc
  obtain ⟨hnames, hgate⟩ := not_or.1 hr
  obtain ⟨b, hm⟩ := (@Writer.may_repair_guardSection _ W.rootBefore a).2
    ⟨hb, hd, hnames, hgate⟩
  obtain ⟨t, ht, -, h⟩ := always_next h ready_init (calls_guardSection fun _ => rfl) hm
  obtain ⟨t, ht, h⟩ := unchecked_next h (unchecked_of_returns ht)
    (by simp [selectEsp, discoverEsp, Cmd.isPartition, Cmd.asksParent])
    (may_selectEsp.2 ⟨hsel, hres⟩)
  obtain ⟨t, ht, h⟩ := unchecked_next h ht (by simp [requireArtifacts, Cmd.isPartition,
    Cmd.asksParent]) (may_requireArtifacts b)
  obtain ⟨t, ht, h⟩ := unchecked_next h ht (by simp [makeDirs, Cmd.isPartition, Cmd.asksParent])
    may_makeDirs
  obtain ⟨t, ht, h⟩ := unchecked_next (v := ()) h ht (by simp [unmountDisk, Cmd.isPartition,
    Cmd.asksParent]) (may_bind.2 ⟨.done, may_ask.2 trivial, rfl⟩)
  obtain ⟨t, ht, h⟩ := unchecked_next h ht (by simp [settle, Cmd.isPartition, Cmd.asksParent])
    (may_settle _)
  obtain ⟨t, ht, h⟩ := unchecked_next h ht (by simp [waitForBlock, calls_waitLoop, Cmd.isPartition,
    Cmd.asksParent]) (may_waitForBlock hres)
  obtain ⟨t, ht, h⟩ := unchecked_next (v := ()) h ht (by simp [reformat, hf]) (by simp [reformat, hf])
  obtain ⟨t, ht, h⟩ := unchecked_next h ht (by simp [requireFat, Cmd.isPartition, Cmd.asksParent])
    may_requireFat
  rw [copyEfi, bind_assoc] at h
  exact listed_of_authorized ht (List.mem_singleton_self _) hnames hsel (by simp [Cmd.direct])
    (authorized_of_always h (by simp))

end RepairEsp

end Usb

end InstallKit
