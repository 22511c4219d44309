import InstallKit.Shell.Worlds

/-!
# Sequences of interrupted runs

Scripts that share a world are started again and again, each on what the last one left, and any of
them may be cut off at a command boundary: by `exit`, by `set -e` or by a signal that kills it.  A
command that is killed halfway is one that fails and leaves a part of its work behind.

* `Session` : one run, cut off anywhere.
* `Sessions` : any number of them.
* `Sessions.inv` : what every script keeps at every boundary, holds after any number of runs.
* `play` : the run in which a function answers the commands and changes the world; it is one of the
  runs when each of its answers is possible (`finishes_play`).
* `cut` : what that run has done when it is killed after some of its commands (`session_cut`).
-/

namespace InstallKit

namespace Shell

variable {C R W α : Type} [ExitStatus R] {E : List (C × R) → C → R → W → W → Prop}

/-- The state in which a script without a handler starts, under `set -e`. -/
def fresh : St Unit C R := ⟨(), [], true⟩

/-- A run of the script from `w` may be at `w'`, or may have been cut off there. -/
def Session (E : List (C × R) → C → R → W → W → Prop) (p : Script Unit C R α) (w w' : W) : Prop :=
  ∃ q s, Reach (fun _ _ _ => True) (p, fresh) (q, s) ∧ After E w s.log w'

/-- A run of the script from `w` may return `a` with `w'`. -/
def Finishes (E : List (C × R) → C → R → W → W → Prop) (p : Script Unit C R α) (w : W) (a : α)
    (w' : W) : Prop :=
  ∃ s, Reach (fun _ _ _ => True) (p, fresh) (.ret a, s) ∧ After E w s.log w'

/-- Any number of runs of scripts in `P`. -/
def Sessions (E : List (C × R) → C → R → W → W → Prop) (P : Script Unit C R α → Prop) :
    W → W → Prop :=
  Relation.ReflTransGen fun w w' => ∃ p, P p ∧ Session E p w w'

variable {p : Script Unit C R α} {P : Script Unit C R α → Prop} {w w' : W} {a : α}
  {I : List (C × R) → W → Prop} {Q : α → List (C × R) → W → Prop}

theorem Ensures.start (h : Ensures E I p Q [] w) :
    ∀ v, After E w (fresh : St Unit C R).log v → Ensures E I p Q fresh.log v := by
  rintro v rfl
  exact h

/-- What a script keeps at every boundary holds wherever it is cut off. -/
theorem Session.inv {J : W → Prop} (h : Session E p w w')
    (hp : Ensures E (fun _ => J) p Q [] w) : J w' := by
  obtain ⟨q, s, hr, hw⟩ := h
  exact (Ensures.sound rfl hp.start hr hw).1

/-- What a script ensures holds where it returns. -/
theorem Finishes.post (h : Finishes E p w a w') (hp : Ensures E I p Q [] w) :
    ∃ l, Q a l w' := by
  obtain ⟨s, hr, hw⟩ := h
  exact ⟨s.log, (Ensures.sound rfl hp.start hr hw).2 a rfl⟩

/-- A part that has returned is a boundary of the whole. -/
theorem Finishes.session_bind {β : Type} (h : Finishes E p w a w') (f : α → Script Unit C R β) :
    Session E (p >>= f) w w' := by
  obtain ⟨s, hr, hw⟩ := h
  exact ⟨_, s, hr.bind f, hw⟩

/-- **An invariant of every script** is one of every sequence of runs. -/
theorem Sessions.inv {J : W → Prop} (h : Sessions E P w w') (hw : J w)
    (hP : ∀ p, P p → ∀ v, J v → ∃ Q, Ensures E (fun _ => J) p Q [] v) : J w' := by
  induction h with
  | refl => exact hw
  | tail _ hstep ih =>
    obtain ⟨p, hp, hs⟩ := hstep
    obtain ⟨Q, hE⟩ := hP p hp _ ih
    exact hs.inv hE

theorem Sessions.refl (w : W) : Sessions E P w w := Relation.ReflTransGen.refl

theorem Sessions.tail {w'' : W} (h : Sessions E P w w') (hp : P p) (hs : Session E p w' w'') :
    Sessions E P w w'' := Relation.ReflTransGen.tail h ⟨p, hp, hs⟩

/-! ### Executable runs in a world -/

/-- The run in which `f` answers every command. -/
def play (f : C → W → R × W) : Script Unit C R α → W → Script.Outcome α × W
  | .ret a, w => (.ret a, w)
  | .exit n m, w => (.exit n m, w)
  | .assign _ p, w => play f p w
  | .status n chk p, w => if chk && n != 0 then (.exit n "", w) else play f p w
  | .call c chk k, w =>
    if chk && ExitStatus.status (f c w).1 != 0 then
      (.exit (ExitStatus.status (f c w).1) "", (f c w).2)
    else play f (k (f c w).1) (f c w).2

theorem play_bind {β : Type} (f : C → W → R × W) (p : Script Unit C R α) (g : α → Script Unit C R β)
    (w : W) : play f (p >>= g) w = match play f p w with
      | (.ret a, w') => play f (g a) w'
      | (.exit n m, w') => (.exit n m, w') := by
  induction p generalizing w with
  | ret a => rfl
  | exit n m => rfl
  | assign h p ih => exact ih w
  | status n chk p ih =>
    rw [Script.status_bind]
    simp only [play]
    split
    · rfl
    · exact ih w
  | call c chk k ih =>
    rw [Script.call_bind]
    simp only [play]
    split
    · rfl
    · exact ih _ _

omit [ExitStatus R] in
theorem stops_eq {s : St Unit C R} (h : s.errexit = true) {chk : Bool} {n : ℕ} :
    stops s chk n = (chk && n != 0) := by
  rw [stops, h, Bool.and_true]

/-- What is played is a run, when every answer is possible. -/
theorem reach_play {f : C → W → R × W} (hf : ∀ l c w, E l c (f c w).1 w (f c w).2) {w₀ : W}
    {s : St Unit C R} (herr : s.errexit = true) (hw : After E w₀ s.log w) :
    ∃ q s', Reach (fun _ _ _ => True) (p, s) (q, s') ∧ q.outcome? = some (play f p w).1 ∧
      After E w₀ s'.log (play f p w).2 := by
  induction p generalizing s w with
  | ret a => exact ⟨_, s, Reach.refl _, rfl, hw⟩
  | exit n m => exact ⟨_, s, Reach.refl _, rfl, hw⟩
  | assign g p ih =>
    obtain ⟨q, s', hr, ho, hw'⟩ := ih (s := s.upd g) herr hw
    exact ⟨q, s', hr.assign, ho, hw'⟩
  | status n chk p ih =>
    have hst := Step.status (A := fun _ _ _ => True) n chk p s
    -- `errexit` ends the run at a status that is checked and not 0
    rw [next, stops_eq herr] at hst
    simp only [play]
    split
    · next h =>
      rw [if_pos h] at hst
      exact ⟨_, s, Relation.ReflTransGen.single hst, rfl, hw⟩
    · next h =>
      rw [if_neg h] at hst
      obtain ⟨q, s', hr, ho, hw'⟩ := ih herr hw
      exact ⟨q, s', hr.head hst, ho, hw'⟩
  | call c chk k ih =>
    -- the reply is that of the world
    have hst := Step.call (A := fun _ _ _ => True) c chk k s (f c w).1 trivial
    rw [next, stops_eq (s := s.push c (f c w).1) herr] at hst
    have hafter : After E w₀ (s.push c (f c w).1).log (f c w).2 := ⟨w, hw, hf _ _ _⟩
    simp only [play]
    split
    · next h =>
      rw [if_pos h] at hst
      exact ⟨_, _, Relation.ReflTransGen.single hst, rfl, hafter⟩
    · next h =>
      rw [if_neg h] at hst
      obtain ⟨q, s', hr, ho, hw'⟩ := ih (f c w).1 (s := s.push c (f c w).1) herr hafter
      exact ⟨q, s', hr.head hst, ho, hw'⟩

theorem session_play {f : C → W → R × W} (hf : ∀ l c w, E l c (f c w).1 w (f c w).2)
    (p : Script Unit C R α) (w : W) : Session E p w (play f p w).2 := by
  obtain ⟨q, s, hr, -, hw⟩ := reach_play (p := p) hf (s := fresh) rfl rfl
  exact ⟨q, s, hr, hw⟩

theorem finishes_play {f : C → W → R × W} (hf : ∀ l c w, E l c (f c w).1 w (f c w).2)
    (h : (play f p w).1 = .ret a) : Finishes E p w a (play f p w).2 := by
  obtain ⟨q, s, hr, ho, hw⟩ := reach_play (p := p) (w := w) hf (s := fresh) rfl rfl
  rw [h] at ho
  rw [Script.eq_ret_of_outcome? ho] at hr
  exact ⟨s, hr, hw⟩

/-- The world that this run leaves when it is killed after its first `n` commands. -/
def cut (f : C → W → R × W) : Script Unit C R α → ℕ → W → W
  | .ret _, _, w => w
  | .exit _ _, _, w => w
  | .assign _ p, n, w => cut f p n w
  | .status m chk p, n, w => if chk && m != 0 then w else cut f p n w
  | .call _ _ _, 0, w => w
  | .call c chk k, n + 1, w =>
    if chk && ExitStatus.status (f c w).1 != 0 then (f c w).2
    else cut f (k (f c w).1) n (f c w).2

theorem reach_cut {f : C → W → R × W} (hf : ∀ l c w, E l c (f c w).1 w (f c w).2) (n : ℕ) {w₀ : W}
    {s : St Unit C R} (herr : s.errexit = true) (hw : After E w₀ s.log w) :
    ∃ q s', Reach (fun _ _ _ => True) (p, s) (q, s') ∧ After E w₀ s'.log (cut f p n w) := by
  induction p generalizing s w n with
  | ret a => exact ⟨_, s, Reach.refl _, hw⟩
  | exit m t => exact ⟨_, s, Reach.refl _, hw⟩
  | assign g p ih =>
    obtain ⟨q, s', hr, hw'⟩ := ih n (s := s.upd g) herr hw
    exact ⟨q, s', hr.assign, hw'⟩
  | status m chk p ih =>
    have hst := Step.status (A := fun _ _ _ => True) m chk p s
    rw [next, stops_eq herr] at hst
    simp only [cut]
    split
    · exact ⟨_, s, Reach.refl _, hw⟩
    · next h =>
      rw [if_neg h] at hst
      obtain ⟨q, s', hr, hw'⟩ := ih n herr hw
      exact ⟨q, s', hr.head hst, hw'⟩
  | call c chk k ih =>
    -- after `n` commands the run is left where it is
    cases n with
    | zero => exact ⟨_, s, Reach.refl _, hw⟩
    | succ n =>
      have hst := Step.call (A := fun _ _ _ => True) c chk k s (f c w).1 trivial
      rw [next, stops_eq (s := s.push c (f c w).1) herr] at hst
      have hafter : After E w₀ (s.push c (f c w).1).log (f c w).2 := ⟨w, hw, hf _ _ _⟩
      simp only [cut]
      split
      · next h =>
        rw [if_pos h] at hst
        exact ⟨_, _, Relation.ReflTransGen.single hst, hafter⟩
      · next h =>
        rw [if_neg h] at hst
        obtain ⟨q, s', hr, hw'⟩ := ih (f c w).1 n (s := s.push c (f c w).1) herr hafter
        exact ⟨q, s', hr.head hst, hw'⟩

/-- A run that is killed there is one of the runs, too. -/
theorem session_cut {f : C → W → R × W} (hf : ∀ l c w, E l c (f c w).1 w (f c w).2)
    (p : Script Unit C R α) (n : ℕ) (w : W) : Session E p w (cut f p n w) := by
  obtain ⟨q, s, hr, hw⟩ := reach_cut (p := p) (w := w) hf n (s := fresh) rfl rfl
  exact ⟨q, s, hr, hw⟩

end Shell

end InstallKit
