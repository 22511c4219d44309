import InstallKit.Usb.Mounts
import InstallKit.Usb.Common

/-!
# Mounts below the temporary directory

The trap handlers of the scripts try to unmount what has been mounted below the temporary directory
and then remove that directory with `rm -rf`, whether the `umount` worked or not.

* `releaseAll` : what a handler leaves mounted, given which of its `umount` commands succeed.
* `Tidy` : the invariant that a script must keep for its handler: a volume that is mounted
  read-write is mounted once, at a place that the handler tries to unmount.
* `safe_handler_iff` : **a handler of a tidy script is harmless exactly when all volumes that are
  mounted read-write get unmounted.**
* `tidy_use`, `tidy_bind_calm` : how a script keeps `Tidy`: a volume is mounted, used and unmounted,
  and the commands around it mount nothing read-write.
-/

namespace InstallKit

namespace Usb

open Shell

/-! ### Mounts below the temporary directory -/

/-- The mounts below the temporary directory. -/
def tmpMounts (l : Log) : List Mount := (mounts l).filter fun m => Loc.tmpDir.Enters m.dir

/-- Something is mounted at `dir`. -/
def Mounted (l : Log) (dir : Loc) : Prop := ∃ m ∈ mounts l, m.dir = dir

/-- What `mountpoint` and `-d` say about the mounts of the script itself. -/
def MountTruth (l : Log) (c : Cmd) (r : Reply) : Prop :=
  match c with
  | .query (.mountpoint dir) => Loc.tmpDir.Enters dir → (r.ok = true ↔ Mounted l dir)
  | .query (.test .d dir) => (Mounted l dir ∨ dir = .tmpDir ∧ tmpMounts l ≠ []) → r.ok = true
  | _ => True

/-- The same in a handler whose `umount` commands succeed where `ρ` says so. -/
def HandlerTruth (ρ : Loc → Bool) (l : Log) (c : Cmd) (r : Reply) : Prop :=
  MountTruth l c r ∧ ∀ dir quiet, c = .umount dir quiet → r.ok = ρ dir

theorem removedFrom_tmpDir (l : Log) :
    removedFrom l [.tmpDir] = (tmpMounts l).filter fun m => m.rw := by
  simp only [removedFrom, tmpMounts, List.filter_filter, List.mem_singleton, exists_eq_left]
  exact List.filter_congr fun m _ => by simp

theorem mem_tmpMounts {l : Log} {m : Mount} :
    m ∈ tmpMounts l ↔ m ∈ mounts l ∧ Loc.tmpDir.Enters m.dir := by simp [tmpMounts]

theorem tmpMounts_mount {l : Log} {opts : String} {rw : Bool} {dev : String} {dir : Loc}
    {r : Reply} : tmpMounts ((.mount opts rw dev dir, r) :: l) =
      if r.ok = true ∧ Loc.tmpDir.Enters dir then ⟨dir, dev, rw⟩ :: tmpMounts l
      else tmpMounts l := by
  by_cases hr : r.ok = true <;> by_cases hd : Loc.tmpDir.Enters dir <;>
    simp [tmpMounts, mounts, hr, hd]

theorem filter_eraseP {α : Type} {p q : α → Bool} {xs : List α}
    (h : (∀ x, q x = true → p x = true) ∨ ∀ x, q x = true → p x = false) :
    (xs.eraseP q).filter p = (xs.filter p).eraseP q := by
  induction xs with
  | nil => rfl
  | cons x xs ih =>
    by_cases hq : q x = true
    · rcases h with h | h
      · simp [hq, h x hq]
      · have hnone : (xs.filter p).eraseP q = xs.filter p := by
          refine List.eraseP_of_forall_not fun y hy hqy => ?_
          have := h y hqy
          simp_all
        simp [hq, h x hq, hnone]
    · by_cases hp : p x = true <;> simp [hq, hp, ih]

theorem tmpMounts_umount {l : Log} {dir : Loc} {quiet : Bool} {r : Reply} :
    tmpMounts ((.umount dir quiet, r) :: l) =
      if r.ok = true then (tmpMounts l).eraseP (·.dir = dir) else tmpMounts l := by
  by_cases hr : r.ok = true
  · simp only [tmpMounts, mounts, hr, if_true]
    refine filter_eraseP ?_
    by_cases hd : Loc.tmpDir.Enters dir
    · exact Or.inl fun m hm => by simp_all
    · exact Or.inr fun m hm => by simp_all
  · simp [tmpMounts, mounts, hr]

/-- The command neither mounts nor unmounts anything below the temporary directory. -/
def Cmd.still (c : Cmd) : Prop :=
  (∀ opts rw dev dir, c = .mount opts rw dev dir → ¬ Loc.tmpDir.Enters dir) ∧
    ∀ dir quiet, c = .umount dir quiet → ¬ Loc.tmpDir.Enters dir

theorem tmpMounts_still {l : Log} {c : Cmd} {r : Reply} (hc : c.still) :
    tmpMounts ((c, r) :: l) = tmpMounts l := by
  cases c with
  | mount opts rw dev dir => rw [tmpMounts_mount, if_neg fun h => hc.1 _ _ _ _ rfl h.2]
  | umount dir quiet =>
    rw [tmpMounts_umount]
    split
    · refine List.eraseP_of_forall_not fun m hm hd => hc.2 _ _ rfl ?_
      rw [← of_decide_eq_true hd]
      exact (mem_tmpMounts.1 hm).2
    · rfl
  | _ => rfl

/-! ### The phases of a handler -/

/-- What an attempt to unmount `dir` leaves mounted. -/
def released (ρ : Loc → Bool) (ms : List Mount) : Option Loc → List Mount
  | none => ms
  | some dir => if ρ dir then ms.eraseP (·.dir = dir) else ms

/-- What the attempts at several places leave mounted. -/
def releaseAll (ρ : Loc → Bool) (dirs : List (Option Loc)) (ms : List Mount) : List Mount :=
  dirs.foldl (released ρ) ms

variable {ρ : Loc → Bool} {s t : State}

theorem released_of_not_mounted {dir : Loc} {ms : List Mount} (h : ∀ m ∈ ms, m.dir ≠ dir) :
    released ρ ms (some dir) = ms := by
  have he : ms.eraseP (·.dir = dir) = ms :=
    List.eraseP_of_forall_not fun m hm hd => h m hm (of_decide_eq_true hd)
  simp [released, he]

theorem tmpMounts_releaseMount {dir : Option Loc} {u : Unit}
    (h : Returns (HandlerTruth ρ) (releaseMount dir) s u t) :
    tmpMounts t.log = released ρ (tmpMounts s.log) dir := by
  cases dir with
  | none =>
    obtain ⟨-, rfl⟩ := returns_ret.1 h
    rfl
  | some dir =>
    simp only [releaseMount, holds, ask, tryCmd, Script.attempt_bind, Script.pure_eq,
      Script.ret_bind, returns_call, Script.call_bind] at h
    obtain ⟨r, ⟨hr, -⟩, -, h⟩ := h
    have hpush : tmpMounts ((Cmd.query (.mountpoint dir), r) :: s.log) = tmpMounts s.log := rfl
    split at h
    · rename_i hok
      simp only [returns_call, returns_ret] at h
      obtain ⟨r', ⟨-, hr'⟩, -, -, rfl⟩ := h
      rw [St.push_log, tmpMounts_umount, St.push_log, hpush, hr' dir false rfl]
      rfl
    · rename_i hok
      obtain ⟨-, rfl⟩ := returns_ret.1 h
      rw [St.push_log, hpush]
      -- `mountpoint` said no: nothing is mounted there, or the place is not below `$TEMP_DIR`
      refine (released_of_not_mounted fun m hm hd => ?_).symm
      obtain ⟨hm, hd'⟩ := mem_tmpMounts.1 hm
      exact hok ((hr (hd ▸ hd')).2 ⟨m, hm, hd⟩)

theorem tmpMounts_releaseDir {dir : Option Loc} {u : Unit}
    (h : Returns (HandlerTruth ρ) (releaseDir dir) s u t) :
    tmpMounts t.log = released ρ (tmpMounts s.log) dir := by
  cases dir with
  | none =>
    obtain ⟨-, rfl⟩ := returns_ret.1 h
    rfl
  | some dir =>
    obtain ⟨b, t', hb, h⟩ := returns_bind.1 h
    simp only [holds, ask, Script.attempt_bind, Script.pure_eq, returns_call, returns_ret] at hb
    obtain ⟨r, ⟨hr, -⟩, -, rfl, rfl⟩ := hb
    split at h
    · have hm := tmpMounts_releaseMount h
      exact hm
    · rename_i hok
      obtain ⟨-, rfl⟩ := returns_ret.1 h
      refine (released_of_not_mounted fun m hm hd => ?_).symm
      exact hok (hr (Or.inl ⟨m, (mem_tmpMounts.1 hm).1, hd⟩))

theorem tmpMounts_of_still {α : Type} {A : Log → Cmd → Reply → Prop} {p : Sh α} {a : α}
    (hp : p.Calls fun c => c.still) (h : Returns A p s a t) : tmpMounts t.log = tmpMounts s.log :=
  h.log (J := fun l => tmpMounts l = tmpMounts s.log) hp
    (fun _ _ _ hc _ hl => (tmpMounts_still hc).trans hl) rfl

/-- Every command can be answered truthfully. -/
theorem exists_handlerTruth (l : Log) (c : Cmd) : ∃ r, HandlerTruth ρ l c r := by
  classical
  by_cases hu : ∃ dir quiet, c = .umount dir quiet
  · obtain ⟨dir, quiet, rfl⟩ := hu
    refine ⟨if ρ dir then .done else .failed, trivial, ?_⟩
    rintro _ _ ⟨⟩
    cases ρ dir <;> rfl
  · by_cases hm : ∃ dir, c = .query (.mountpoint dir) ∧ ¬ Mounted l dir
    · obtain ⟨dir, rfl, hm⟩ := hm
      exact ⟨.failed, fun _ => by simp [hm], fun dir quiet h => (hu ⟨dir, quiet, h⟩).elim⟩
    · refine ⟨.done, ?_, fun dir quiet h => (hu ⟨dir, quiet, h⟩).elim⟩
      unfold MountTruth
      split
      · rename_i dir
        intro _
        simp only [Reply.ok_done, true_iff]
        exact not_not.1 fun h => hm ⟨dir, rfl, h⟩
      · exact fun _ => rfl
      · trivial

/-! ### What is left after all attempts -/

theorem released_sublist (ms : List Mount) (dir : Option Loc) :
    (released ρ ms dir).Sublist ms := by
  cases dir with
  | none => exact List.Sublist.refl _
  | some dir =>
    simp only [released]
    split
    · exact List.eraseP_sublist
    · exact List.Sublist.refl _

theorem releaseAll_sublist (dirs : List (Option Loc)) (ms : List Mount) :
    (releaseAll ρ dirs ms).Sublist ms := by
  induction dirs generalizing ms with
  | nil => exact List.Sublist.refl _
  | cons dir dirs ih => exact (ih _).trans (released_sublist ms dir)

/-- Where the `umount` fails, the volume stays. -/
theorem mem_releaseAll_of_busy {dirs : List (Option Loc)} {ms : List Mount} {m : Mount}
    (hm : m ∈ ms) (hbusy : ρ m.dir = false) : m ∈ releaseAll ρ dirs ms := by
  induction dirs generalizing ms with
  | nil => exact hm
  | cons dir dirs ih =>
    refine ih ?_
    cases dir with
    | none => exact hm
    | some dir =>
      simp only [released]
      split
      · rename_i hok
        refine (List.mem_eraseP_of_neg ?_).2 hm
        intro hd
        rw [of_decide_eq_true hd, hok] at hbusy
        cases hbusy
      · exact hm

/-- At most one volume is mounted at `dir`. -/
def Once (ms : List Mount) (dir : Loc) : Prop :=
  (ms.filter fun m => m.dir = dir).length ≤ 1

theorem Once.sublist {ms ms' : List Mount} {dir : Loc} (h : Once ms dir) (hs : ms'.Sublist ms) :
    Once ms' dir :=
  Nat.le_trans (hs.filter _).length_le h

theorem not_mem_released {ms : List Mount} {m : Mount} (hone : Once ms m.dir)
    (hok : ρ m.dir = true) : m ∉ released ρ ms (some m.dir) := by
  intro hm
  simp only [released, hok, if_true] at hm
  -- the erased mount and `m` would be two mounts at one place
  have hin : m ∈ ms.filter fun x => x.dir = m.dir :=
    List.mem_filter.2 ⟨List.mem_of_mem_eraseP hm, by simp⟩
  have hlen : ((ms.filter fun x => x.dir = m.dir).eraseP fun x => x.dir = m.dir).length = 0 := by
    rw [List.length_eraseP_of_mem hin (by simp)]
    exact Nat.sub_eq_zero_of_le hone
  rw [← filter_eraseP (Or.inl fun _ h => h), List.length_eq_zero_iff] at hlen
  exact List.not_mem_nil (hlen ▸ List.mem_filter.2 ⟨hm, by simp⟩)

theorem not_mem_releaseAll {dirs : List (Option Loc)} {ms : List Mount} {m : Mount}
    (hone : Once ms m.dir) (hok : ρ m.dir = true) (hd : some m.dir ∈ dirs) :
    m ∉ releaseAll ρ dirs ms := by
  induction dirs generalizing ms with
  | nil => cases hd
  | cons dir dirs ih =>
    rcases List.mem_cons.1 hd with rfl | hd
    · intro hm
      exact not_mem_released hone hok ((releaseAll_sublist dirs _).subset hm)
    · exact ih (hone.sublist (released_sublist ms dir)) hd

/-! ### The handler as a whole -/

/-- The invariant of a script whose handler tries to unmount `dirs`. -/
structure Tidy (dirs : Vars → List (Option Loc)) (v : Vars) (l : Log) : Prop where
  /-- The handler knows the temporary directory. -/
  temp : ∀ m ∈ tmpMounts l, m.rw = true → v.tempDir = true
  /-- The handler tries to unmount the volume. -/
  named : ∀ m ∈ tmpMounts l, m.rw = true → some m.dir ∈ dirs v
  /-- One `umount` is enough. -/
  once : ∀ m ∈ tmpMounts l, m.rw = true → Once (tmpMounts l) m.dir

/-- The recursive removal is harmless iff no volume is left that can be written. -/
theorem safe_removeTemp {tempDir : Bool} :
    Safe (HandlerTruth ρ) (fun l c => c.removes l = []) (removeTemp tempDir) t ↔
      (tempDir = true → ∀ m ∈ tmpMounts t.log, m.rw = false) := by
  cases tempDir with
  | false => simp [removeTemp]
  | true =>
    simp only [removeTemp, if_true, holds, ask, tryCmd, Script.attempt_bind, Script.pure_eq,
      Script.call_bind, Script.ret_bind, safe_attempt, Cmd.removes, true_and, forall_const]
    constructor
    · intro h m hm
      have hok : HandlerTruth ρ t.log (.query (.test .d .tmpDir)) .done :=
        ⟨fun _ => rfl, fun _ _ hc => by cases hc⟩
      have hrm := h .done hok
      simp only [Reply.ok_done, if_true, safe_attempt, safe_ret, implies_true, and_true,
        List.map_eq_nil_iff, removedFrom_tmpDir, List.filter_eq_nil_iff] at hrm
      simpa using hrm m hm
    · intro h r hr
      split
      · simp only [safe_attempt, safe_ret, implies_true, and_true, List.map_eq_nil_iff,
          removedFrom_tmpDir, List.filter_eq_nil_iff]
        exact fun m hm => by simp [h m hm]
      · exact safe_ret

/-- A handler that has tried to unmount `dirs` removes the temporary directory. -/
theorem safe_handler_iff {dirs : Vars → List (Option Loc)} {attempts : Sh Unit}
    (hcalls : attempts.Calls fun c => ∀ l, c.removes l = []) (hno : attempts.NoExit)
    (hms : ∀ t, Returns (HandlerTruth ρ) attempts s.noErrexit () t →
      tmpMounts t.log = releaseAll ρ (dirs s.vars) (tmpMounts s.log))
    (htidy : Tidy dirs s.vars s.log) :
    Safe (HandlerTruth ρ) (fun l c => c.removes l = [])
        (attempts >>= fun _ => removeTemp s.vars.tempDir) s.noErrexit ↔
      ∀ m ∈ tmpMounts s.log, m.rw = true → ρ m.dir = true := by
  rw [safe_bind]
  constructor
  · rintro ⟨-, hsafe⟩ m hm hrw
    obtain ⟨_, t, ht⟩ : ∃ a t, Returns (HandlerTruth ρ) attempts s.noErrexit a t :=
      exists_returns hno rfl exists_handlerTruth
    -- what stays mounted is what could not be unmounted
    have hleft := safe_removeTemp.1 (hsafe () t ht) (htidy.temp m hm hrw)
    rw [hms t ht] at hleft
    by_cases hok : ρ m.dir = true
    · exact hok
    · have hstay := hleft m (mem_releaseAll_of_busy hm (Bool.eq_false_iff.2 hok))
      rw [hrw] at hstay
      cases hstay
  · intro hall
    refine ⟨safe_of_calls hcalls fun l c h => h l, fun _ t ht => safe_removeTemp.2 fun _ m hm => ?_⟩
    rw [hms t ht] at hm
    have hin := (releaseAll_sublist _ _).subset hm
    by_cases hrw : m.rw = true
    · exact (not_mem_releaseAll (htidy.once m hin hrw) (hall m hin hrw) (htidy.named m hin hrw)
        hm).elim
    · exact Bool.eq_false_iff.2 hrw

theorem noExit_holds_then {q : Query} {p : Sh Unit} (hp : p.NoExit) :
    (do if ← holds q then p : Sh Unit).NoExit := by
  refine Script.NoExit.bind (fun _ => trivial) fun b => ?_
  split
  · exact hp
  · trivial

theorem noExit_tryCmd (c : Cmd) : (tryCmd c).NoExit := fun _ => trivial

theorem noExit_releaseMount (dir : Option Loc) : (releaseMount dir).NoExit := by
  cases dir with
  | none => trivial
  | some dir => exact noExit_holds_then (noExit_tryCmd _)

theorem noExit_releaseDir (dir : Option Loc) : (releaseDir dir).NoExit := by
  cases dir with
  | none => trivial
  | some dir => exact noExit_holds_then (noExit_releaseMount _)

theorem noExit_detachLoop (dev : Option String) : (detachLoop dev).NoExit := by
  cases dev with
  | none => trivial
  | some dev => exact noExit_holds_then (noExit_tryCmd _)

/-! ### Where nothing is mounted read-write -/

/-- The command mounts nothing read-write below the temporary directory, and nothing at all at the
places `D`. -/
def Cmd.calm (D : List Loc) (c : Cmd) : Prop :=
  ∀ opts rw dev dir, c = .mount opts rw dev dir → Loc.tmpDir.Enters dir → rw = false ∧ dir ∉ D

/-- What is mounted below the temporary directory is mounted read-only and elsewhere than at `D`. -/
def Free (D : List Loc) (l : Log) : Prop := ∀ m ∈ tmpMounts l, m.rw = false ∧ m.dir ∉ D

variable {D : List Loc}

theorem free_nil : Free D [] := fun _ h => by cases h

theorem Free.step {l : Log} {c : Cmd} {r : Reply} (hc : c.calm D) (h : Free D l) :
    Free D ((c, r) :: l) := by
  intro m hm
  cases c with
  | mount opts rw dev dir =>
    rw [tmpMounts_mount] at hm
    split at hm
    · rename_i hd
      rcases List.mem_cons.1 hm with rfl | hm
      · exact hc _ _ _ _ rfl hd.2
      · exact h m hm
    · exact h m hm
  | umount dir quiet =>
    rw [tmpMounts_umount] at hm
    split at hm
    · exact h m (List.mem_of_mem_eraseP hm)
    · exact h m hm
  | _ => exact h m hm

theorem Free.of_eq {l l' : Log} (h : Free D l) (he : tmpMounts l' = tmpMounts l) : Free D l' :=
  fun m hm => h m (he ▸ hm)

variable {A : Log → Cmd → Reply → Prop} {dirs : Vars → List (Option Loc)} {α : Type}

/-- Later only read-only mounts matter. -/
theorem Free.relax {l : Log} (h : Free D l) : Free [] l :=
  fun m hm => ⟨(h m hm).1, List.not_mem_nil⟩

theorem Free.tidy {v : Vars} {l : Log} (h : Free D l) : Tidy dirs v l := by
  have hno : ∀ m ∈ tmpMounts l, m.rw ≠ true := fun m hm => by simp [(h m hm).1]
  exact ⟨fun m hm hrw => (hno m hm hrw).elim, fun m hm hrw => (hno m hm hrw).elim,
    fun m hm hrw => (hno m hm hrw).elim⟩

theorem always_of_calm {p : Sh α} (hp : p.Calls fun c => c.calm D) (hs : Free D s.log) :
    Always A (fun s => Tidy dirs s.vars s.log) p s :=
  (always_of_calls hp (fun _ _ _ hc _ hl => hl.step hc) hs).mono fun _ h => h.tidy

theorem free_of_returns {p : Sh α} {a : α} (hp : p.Calls fun c => c.calm D) (hs : Free D s.log)
    (h : Returns A p s a t) : Free D t.log :=
  h.log hp (fun _ _ _ hc _ hl => hl.step hc) hs

/-! ### While a volume is mounted -/

/-- Nothing has changed since `l₀`, or a volume has been mounted at `dir`. -/
def Held (dir : Loc) (l₀ l : Log) : Prop :=
  tmpMounts l = tmpMounts l₀ ∨ ∃ dev, tmpMounts l = ⟨dir, dev, true⟩ :: tmpMounts l₀

/-- The command mounts nothing below the temporary directory and unmounts there only `dir`. -/
def Cmd.stillBut (dir : Loc) (c : Cmd) : Prop :=
  (∀ opts rw dev d, c = .mount opts rw dev d → ¬ Loc.tmpDir.Enters d) ∧
    ∀ d quiet, c = .umount d quiet → Loc.tmpDir.Enters d → d = dir

variable {dir : Loc} {l₀ l : Log}

theorem eraseP_of_free (hfree : Free D l₀) (hv : dir ∈ D) :
    (tmpMounts l₀).eraseP (·.dir = dir) = tmpMounts l₀ :=
  List.eraseP_of_forall_not fun m hm hd => (hfree m hm).2 (of_decide_eq_true hd ▸ hv)

/-- A successful `umount` ends it. -/
theorem Held.umount {quiet : Bool} {r : Reply} (hfree : Free D l₀) (hv : dir ∈ D)
    (h : Held dir l₀ l) (hr : r.ok = true) :
    tmpMounts ((.umount dir quiet, r) :: l) = tmpMounts l₀ := by
  rw [tmpMounts_umount, if_pos hr]
  rcases h with h | ⟨dev, h⟩
  · rw [h]; exact eraseP_of_free hfree hv
  · rw [h]; simp

theorem Held.step {c : Cmd} {r : Reply} (hfree : Free D l₀) (hv : dir ∈ D)
    (hc : c.stillBut dir) (h : Held dir l₀ l) : Held dir l₀ ((c, r) :: l) := by
  by_cases hu : ∃ quiet, c = .umount dir quiet
  · obtain ⟨quiet, rfl⟩ := hu
    by_cases hr : r.ok = true
    · exact Or.inl (h.umount hfree hv hr)
    · rwa [Held, tmpMounts_umount, if_neg hr]
  · have hstill : c.still :=
      ⟨hc.1, fun d quiet he hd => hu ⟨quiet, by rw [he, hc.2 d quiet he hd]⟩⟩
    rwa [Held, tmpMounts_still hstill]

theorem held_mount {opts dev : String} {r : Reply} (h : tmpMounts l = tmpMounts l₀) :
    Held dir l₀ ((.mount opts true dev dir, r) :: l) := by
  rw [Held, tmpMounts_mount, h]
  split
  · exact Or.inr ⟨dev, rfl⟩
  · exact Or.inl rfl

/-- While the handler knows about it, a mounted volume is tidy. -/
theorem Held.tidy {v : Vars} (hfree : Free D l₀) (hv : dir ∈ D) (htemp : v.tempDir = true)
    (hd : some dir ∈ dirs v) (h : Held dir l₀ l) : Tidy dirs v l := by
  rcases h with h | ⟨dev, h⟩
  · exact (hfree.of_eq h).tidy
  · have honly : ∀ m ∈ tmpMounts l, m.rw = true → m.dir = dir := by
      intro m hm hrw
      rw [h] at hm
      rcases List.mem_cons.1 hm with rfl | hm
      · rfl
      · rw [(hfree m hm).1] at hrw; cases hrw
    have hnone : (tmpMounts l₀).filter (fun m => m.dir = dir) = [] :=
      List.filter_eq_nil_iff.2 fun m hm hd => (hfree m hm).2 (of_decide_eq_true hd ▸ hv)
    refine ⟨fun _ _ _ => htemp, fun m hm hrw => by rw [honly m hm hrw]; exact hd, ?_⟩
    intro m hm hrw
    rw [honly m hm hrw, Once, h]
    simp [hnone]

/-- Until `p` is finished, `dir` is the only volume, and the handler's variables stay. -/
theorem always_held {p : Sh α} (hfree : Free D l₀) (hv : dir ∈ D) (hp : p.Calls fun c => c.stillBut dir)
    (hq : p.Assigns fun _ => False) (hs : Held dir l₀ s.log) :
    Always A (fun t => t.vars = s.vars ∧ Held dir l₀ t.log) p s :=
  always_of_nodes (J := fun v l => v = s.vars ∧ Held dir l₀ l) hp hq
    (fun _ _ _ _ hc _ hl => ⟨hl.1, hl.2.step hfree hv hc⟩) (fun _ _ _ hf => hf.elim) ⟨rfl, hs⟩

theorem always_mount {opts dev : String} (hs : tmpMounts s.log = tmpMounts l₀) :
    Always A (fun t => t.vars = s.vars ∧ Held dir l₀ t.log) (exec (.mount opts true dev dir)) s := by
  rw [always_iff_wp]
  refine ⟨⟨rfl, Or.inl hs⟩, fun r _ => ⟨⟨rfl, held_mount hs⟩, ?_⟩⟩
  split
  · trivial
  · exact ⟨⟨rfl, held_mount hs⟩, trivial⟩

/-- A volume is mounted, used by `body` and unmounted. -/
theorem always_use {opts dev : String} {body : Sh α} (hfree : Free D s.log) (hv : dir ∈ D)
    (hbody : body.Calls fun c => c.stillBut dir) (hq : body.Assigns fun _ => False)
    (htemp : s.vars.tempDir = true) (hd : some dir ∈ dirs s.vars) :
    Always A (fun t => Tidy dirs t.vars t.log)
      (exec (.mount opts true dev dir) >>= fun _ => body) s := by
  have hmount : Always A (fun t => t.vars = s.vars ∧ Held dir s.log t.log)
      (exec (.mount opts true dev dir)) s := always_mount rfl
  have htidy : ∀ t : State, t.vars = s.vars ∧ Held dir s.log t.log → Tidy dirs t.vars t.log := by
    rintro t ⟨hvars, hheld⟩
    rw [hvars]
    exact hheld.tidy hfree hv htemp hd
  refine (hmount.mono htidy).bind fun _ t ht => ?_
  obtain ⟨hvars, hheld⟩ := hmount.returns ht
  refine (always_held hfree hv hbody hq hheld).mono fun t' h => htidy t' ⟨h.1.trans hvars, h.2⟩

theorem returns_exec {c : Cmd} {u : Unit} (hs : s.errexit = true) :
    Returns A (exec c) s u t ↔ ∃ r, A s.log c r ∧ r.ok = true ∧ t = s.push c r := by
  simp only [exec, Script.cmd_bind, Script.pure_eq, returns_call, returns_ret, true_and, stops,
    St.push_errexit, hs, exitStatus_reply, Reply.ok]
  simp

theorem vars_of_returns {p : Sh α} {a : α} (hp : p.Assigns fun _ => False)
    (h : Returns A p s a t) : t.vars = s.vars := by
  have hall := always_of_nodes (A := A) (J := fun v _ => v = s.vars) p.calls_true hp
    (fun _ _ _ _ _ _ hl => hl) (fun _ _ _ hf => hf.elim) rfl
  exact hall.returns h

/-- The last command of `body` unmounts the volume. -/
theorem free_of_use {opts dev : String} {body : Sh Unit} {u : Unit} (hs : s.errexit = true)
    (hfree : Free D s.log) (hv : dir ∈ D) (hbody : body.Calls fun c => c.stillBut dir)
    (hq : body.Assigns fun _ => False)
    (h : Returns A (exec (.mount opts true dev dir) >>= fun _ => body >>= fun _ =>
      exec (.umount dir false)) s u t) : Free D t.log := by
  obtain ⟨_, t₁, h₁, h⟩ := returns_bind.1 h
  obtain ⟨_, t₂, h₂, h⟩ := returns_bind.1 h
  have hheld₁ := ((always_mount rfl).returns h₁).2
  have hheld₂ := ((always_held hfree hv hbody hq hheld₁).returns h₂).2
  obtain ⟨r, -, hr, rfl⟩ := (returns_exec (h₂.errexit.trans (h₁.errexit.trans hs))).1 h
  exact hfree.of_eq (hheld₂.umount hfree hv hr)

/-- A volume is mounted, used and unmounted, and nothing is mounted read-write afterwards. -/
theorem tidy_use {opts dev : String} {body : Sh Unit} {f : Unit → Sh α} (hs : s.errexit = true)
    (hfree : Free D s.log) (hv : dir ∈ D) (hbody : body.Calls fun c => c.stillBut dir)
    (hq : body.Assigns fun _ => False) (htemp : s.vars.tempDir = true)
    (hd : some dir ∈ dirs s.vars) (hf : (f ()).Calls fun c => c.calm []) :
    Always A (fun t => Tidy dirs t.vars t.log)
      ((exec (.mount opts true dev dir) >>= fun _ => body >>= fun _ =>
        exec (.umount dir false)) >>= f) s := by
  have hwhole : (body >>= fun _ => exec (.umount dir false)).Calls fun c => c.stillBut dir :=
    Script.calls_bind.2 ⟨hbody, fun _ _ => by simp [Cmd.stillBut]⟩
  refine Always.bind (always_use hfree hv hwhole (by simp [hq]) htemp hd) fun _ t ht => ?_
  exact always_of_calm hf (free_of_use hs hfree hv hbody hq ht).relax

/-- Nothing is mounted by the first part. -/
theorem tidy_bind_calm {β : Type} {p : Sh β} {f : β → Sh α} (hp : p.Calls fun c => c.calm D)
    (hs : Free D s.log)
    (hf : ∀ b t, Returns A p s b t → Free D t.log →
      Always A (fun s => Tidy dirs s.vars s.log) (f b) t) :
    Always A (fun s => Tidy dirs s.vars s.log) (p >>= f) s :=
  (always_of_calm hp hs).bind fun b t ht => hf b t ht (free_of_returns hp hs ht)

theorem calm_query (q : Query) : (Cmd.query q).calm D := by simp [Cmd.calm]

end Usb

end InstallKit
