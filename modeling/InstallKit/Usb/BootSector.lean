import InstallKit.Usb.Rollback

/-!
# The boot sectors that the OpenDuet scripts write

`linux_install_openduet.sh` and `repair_openduet_esp.sh` carry the same sequence: the boot sector of
the ESP is captured, `boot1f32` gets its bytes 3 to 89 and 14 random bytes from 496 on, `boot0` goes
to the first 446 bytes of the disk and the new sector to the first 512 bytes of the ESP.

* `newByte`, `diskByte` : what each byte of the new sector and of the disk shall be.
* `Written` : the devices hold these bytes.
* `boot_sectors_apart` : both scripts write them, the installer changes nothing else before `/boot`
  is copied, and bytes 446 to 511 of the disk never change, where the devices have no bytes in
  common.
-/

namespace InstallKit

namespace Usb

open Shell

variable {F : Image → Image → Prop} {w₀ w w' : Store} {l : Log} {c : Cmd} {r : Reply} {α : Type}

/-! ### The bytes -/

/-- Byte `i` of the new boot sector: the BPB comes from the old one, bytes 496 to 509 are random,
and the others are those of `boot1f32`. -/
def newByte (template orig random : Image) (i : ℕ) : Option UInt8 :=
  if 3 ≤ i ∧ i ≤ 89 then orig[i]? else if 496 ≤ i ∧ i ≤ 509 then random[i]? else template[i]?

/-- Byte `i` of the disk: `boot0` over the first 446 bytes. -/
def diskByte (boot0 orig : Image) (i : ℕ) : Option UInt8 :=
  if i < 446 ∧ i < boot0.length then boot0[i]? else orig[i]?

/-- The sector as the scripts put it together. -/
def newSector (template orig random : Image) : Image :=
  splice (splice template 3 (ddData orig 1 (some 87) 3)) 496 (ddData random 1 (some 14) 496)

theorem ddData_bytes (b : Image) (count skip : ℕ) :
    ddData b 1 (some count) skip = (b.drop skip).take count := by
  simp [ddData]

theorem getElem?_ddData {b : Image} {count skip i : ℕ} (hi : skip ≤ i) (hi' : i < skip + count) :
    (ddData b 1 (some count) skip)[i - skip]? = b[i]? := by
  rw [ddData_bytes, List.getElem?_take_of_lt (by omega), List.getElem?_drop]
  congr 1
  omega

theorem length_ddData {b : Image} {count skip : ℕ} (h : skip + count ≤ b.length) :
    (ddData b 1 (some count) skip).length = count := by
  rw [ddData_bytes, List.length_take, List.length_drop]
  omega

variable {template orig random : Image}

theorem length_newSector (ht : template.length = 512) :
    (newSector template orig random).length = 512 := by
  have hle : ∀ (b : Image) (count skip : ℕ), (ddData b 1 (some count) skip).length ≤ count := by
    intro b count skip
    rw [ddData_bytes]
    exact List.length_take_le _ _
  have h₁ := hle orig 87 3
  have h₂ := hle random 14 496
  have h₃ : (splice template 3 (ddData orig 1 (some 87) 3)).length = 512 := by
    rw [length_splice (by omega), ht]
  rw [newSector, length_splice (by omega), h₃]

/-- **The windows are where they should be.** -/
theorem newSector_getElem? (ht : template.length = 512) (ho : 512 ≤ orig.length)
    (hr : 510 ≤ random.length) (i : ℕ) :
    (newSector template orig random)[i]? = newByte template orig random i := by
  have hl₁ : (ddData orig 1 (some 87) 3).length = 87 := length_ddData (by omega)
  have hl₂ : (ddData random 1 (some 14) 496).length = 14 := length_ddData (by omega)
  have hl₃ : (splice template 3 (ddData orig 1 (some 87) 3)).length = 512 := by
    rw [length_splice (by omega), ht]
  rw [newSector, splice_getElem? (by omega), splice_getElem? (by omega), hl₁, hl₂, newByte]
  by_cases h₁ : 3 ≤ i ∧ i ≤ 89
  · rw [if_neg (by omega), if_pos (by omega), if_pos h₁, getElem?_ddData h₁.1 (by omega)]
  · by_cases h₂ : 496 ≤ i ∧ i ≤ 509
    · rw [if_pos (by omega), if_neg h₁, if_pos h₂, getElem?_ddData h₂.1 (by omega)]
    · rw [if_neg (by omega), if_neg (by omega), if_neg h₁, if_neg h₂]

theorem splice_boot0_getElem? (boot0 b : Image) (i : ℕ) :
    (splice b 0 (ddData boot0 1 (some 446) 0))[i]? = diskByte boot0 b i := by
  have hlen : (ddData boot0 1 (some 446) 0).length = min 446 boot0.length := by
    simp [ddData_bytes]
  rw [splice_getElem? (Nat.zero_le _), hlen, diskByte]
  by_cases h : i < 446 ∧ i < boot0.length
  · rw [if_pos (by omega), if_pos h, getElem?_ddData (Nat.zero_le _) (by omega)]
  · rw [if_neg (by omega), if_neg h]

/-! ### What is known of a world -/

/-- Some devices and some files of a world. -/
structure Has (ds : List (String × Image)) (v : List (Loc × Image)) (w : Store) : Prop where
  dev : ∀ e ∈ ds, w.dev e.1 = e.2
  files : ∀ e ∈ v, w.files e.1 = some e.2

/-- The command mounts nothing, and does not write a file to a partition. -/
def Cmd.Plain : Cmd → Bool
  | .mount .. => false
  | .dd (.sub _ _) (.part _) .. => false
  | _ => true

/-- The command leaves the devices and some files alone. -/
def Quiet (v : List (Loc × Image)) (c : Cmd) : Prop :=
  c.Idle ∧ c.Plain = true ∧ ∀ e ∈ v, ¬ c.MayWrite e.1

variable {ds : List (String × Image)} {v : List (Loc × Image)} {L : Log → Prop}

theorem Has.step (hc : Quiet v c) (hm : mounts l = []) (h : Effect F l c r w w')
    (hw : Has ds v w) : Has ds v w' where
  dev e he := (h.dev e.1 ((hc.1.unmounted r hm).1 e.1)).trans (hw.dev e he)
  files e he := (h.files e.1 (hc.2.2 e he)).trans (hw.files e he)

theorem Has.mono {ds' : List (String × Image)} {v' : List (Loc × Image)} (h : Has ds v w)
    (hd : ds' ⊆ ds) (hv : v' ⊆ v) : Has ds' v' w :=
  ⟨fun e he => h.dev e (hd he), fun e he => h.files e (hv he)⟩

theorem Has.read_tmp {n : String} {b : Image} (h : Has ds v w) (hn : (.tmp n, b) ∈ v) :
    w.read (.tmp n) = some b := h.files _ hn

theorem Has.read_sub {p : Loc} {n : String} {b : Image} (h : Has ds v w) (hn : (.sub p n, b) ∈ v) :
    w.read (.sub p n) = some b := h.files _ hn

theorem Has.read_dev {d : String} {b : Image} (h : Has ds v w) (hd : (d, b) ∈ ds) :
    w.read (.host d) = some b := congrArg some (h.dev _ hd)

/-- A fact about a log that leaves no mount and that plain commands keep. -/
structure Steady (L : Log → Prop) : Prop where
  unmounted : ∀ l, L l → mounts l = []
  step : ∀ l c r, c.Plain = true → L l → L ((c, r) :: l)

theorem Steady.keep (hL : Steady L) (_ : Effect F l c r w w') (hc : c.Plain = true) (hl : L l) :
    L ((c, r) :: l) :=
  hL.step l c r hc hl

/-- Quiet commands change nothing that is known. -/
theorem ensures_quiet {p : Sh α} (hL : Steady L) (hp : p.Calls (Quiet v)) (hl : L l)
    (h : Has ds v w) :
    Ensures (Effect F) (fun _ _ => True) p (fun _ l' w' => L l' ∧ Has ds v w') l w :=
  ensures_of_calls (J := fun l w => L l ∧ Has ds v w) hp
    (fun _ _ _ _ _ hc hE hs =>
      ⟨hL.step _ _ _ hc.2.1 hs.1, hs.2.step hc (hL.unmounted _ hs.1) hE⟩)
    (fun _ _ _ => trivial) ⟨hl, h⟩

variable {b : Image} {src dst : Loc} {bs skip seek : ℕ} {count : Option ℕ}

/-- A copy is a new file. -/
theorem Has.cp (h : Has ds v w) (hm : mounts l = []) (hs : (src, b) ∈ v)
    (hv : ∀ e ∈ v, ¬ e.1.Under dst) (hE : Effect F l (.cp src dst) r w w') (hr : r.ok = true) :
    Has ds ((dst, b) :: v) w' where
  dev e he := (hE.dev e.1 (not_onVolume hm dst e.1)).trans (h.dev e he)
  files e he := by
    rcases List.mem_cons.1 he with rfl | he
    · exact hE.did hr b (h.files _ hs)
    · exact (hE.files e.1 (hv e he)).trans (h.files e he)

/-- The first sector of a device is a new file. -/
theorem Has.capture {d : String} (h : Has ds v w) (hm : mounts l = []) (hd : (d, b) ∈ ds)
    (hv : ∀ e ∈ v, e.1 ≠ dst)
    (hE : Effect F l (.dd (.host d) (.file dst) 512 (some 1) skip 0) r w w') (hr : r.ok = true) :
    Has ds ((dst, InstallOpenduet.sector b skip) :: v) w' where
  dev e he := (hE.dev e.1 (not_onVolume hm dst e.1)).trans (h.dev e he)
  files e he := by
    rcases List.mem_cons.1 he with rfl | he
    · rw [InstallOpenduet.files_of_ddSector hE hr, h.dev _ hd]
    · exact (hE.files e.1 (hv e he)).trans (h.files e he)

/-- A window of a file is replaced. -/
theorem Has.patch {old : Image} (h : Has ds ((dst, old) :: v) w) (hm : mounts l = [])
    (hs : w.read src = some b) (hv : ∀ e ∈ v, e.1 ≠ dst)
    (hE : Effect F l (.dd src (.patch dst) bs count skip seek) r w w') (hr : r.ok = true) :
    Has ds ((dst, splice old (seek * bs) (ddData b bs count skip)) :: v) w' where
  dev e he := (hE.dev e.1 (not_onVolume hm dst e.1)).trans (h.dev e he)
  files e he := by
    rcases List.mem_cons.1 he with rfl | he
    · have hdid := hE.did
      simp only [Did, hr, if_true, hs, Option.some.injEq, exists_eq_left', Wrote] at hdid
      rw [hdid, h.files _ List.mem_cons_self, Option.getD_some]
    · exact (hE.files e.1 (hv e he)).trans (h.files e (List.mem_cons_of_mem _ he))

/-- A window of a device is replaced. -/
theorem Has.write {d : String} {tgt : Dest} {old : Image} (htgt : tgt = .disk d ∨ tgt = .part d)
    (h : Has ((d, old) :: ds) v w) (hs : w.read src = some b) (hd : ∀ e ∈ ds, e.1 ≠ d)
    (hE : Effect F l (.dd src tgt bs count skip seek) r w w') (hr : r.ok = true) :
    seek * bs + (ddData b bs count skip).length ≤ old.length ∧
      Has ((d, splice old (seek * bs) (ddData b bs count skip)) :: ds) v w' := by
  have hold : w.dev d = old := h.dev (d, old) List.mem_cons_self
  have hdid := hE.did
  simp only [Did, hr, if_true, hs, Option.some.injEq, exists_eq_left'] at hdid
  have hwrote : seek * bs + (ddData b bs count skip).length ≤ old.length ∧
      w'.dev d = splice old (seek * bs) (ddData b bs count skip) := by
    rcases htgt with rfl | rfl <;> rw [← hold] <;> exact hdid
  refine ⟨hwrote.1, fun e he => ?_, fun e he => ?_⟩
  · rcases List.mem_cons.1 he with rfl | he
    · exact hwrote.2
    · rw [hE.dev e.1 ?_]
      · exact h.dev e (List.mem_cons_of_mem _ he)
      · rcases htgt with rfl | rfl <;> exact hd e he
  · rw [hE.files e.1 ?_]
    · exact h.files e he
    · rcases htgt with rfl | rfl <;> exact fun hw => hw

/-! ### The sequence that both scripts share -/

/-- The new boot sector in the temporary directory. -/
def buildSector (root : String) : Sh Unit := do
  exec (.cp (build root "OpenDuet/boot1f32") (.tmp "newbs"))
  exec (.dd (.tmp "origbs") (.patch (.tmp "newbs")) 1 (some 87) 3 3)
  exec (.dd (.host "/dev/urandom") (.patch (.tmp "newbs")) 1 (some 14) 496 496)

/-- The two writes, with what the scripts do between and after them. -/
def writeBoth (root disk esp : String) (between after : Sh Unit) : Sh Unit := do
  exec (.dd (build root "OpenDuet/boot0") (.disk disk) 1 (some 446) 0 0)
  between
  exec (.dd (.tmp "newbs") (.part esp) 512 (some 1) 0 0)
  after

variable {root disk esp : String} {boot0 D E R : Image}

theorem ensures_buildSector (hL : Steady L) (hl : L l)
    (h : Has [(disk, D), (esp, E), ("/dev/urandom", R)]
      [(.tmp "origbs", orig), (build root "OpenDuet/boot0", boot0),
        (build root "OpenDuet/boot1f32", template)] w) :
    Ensures (Effect F) (fun _ _ => True) (buildSector root)
      (fun _ l' w' => L l' ∧ Has [(disk, D), (esp, E), ("/dev/urandom", R)]
        [(.tmp "newbs", newSector template orig R), (.tmp "origbs", orig),
          (build root "OpenDuet/boot0", boot0), (build root "OpenDuet/boot1f32", template)] w')
      l w := by
  unfold buildSector
  refine ensures_bind.2 (ensures_exec trivial fun r₁ w₁ hE₁ => ⟨trivial, fun hr₁ => ?_⟩)
  have hl₁ := hL.keep hE₁ rfl hl
  have h₁ := h.cp (b := template) (hL.unmounted _ hl) (by simp) (by simp [build, Loc.Under]) hE₁ hr₁
  refine ensures_bind.2 (ensures_exec trivial fun r₂ w₂ hE₂ => ⟨trivial, fun hr₂ => ?_⟩)
  have hl₂ := hL.keep hE₂ rfl hl₁
  have h₂ := h₁.patch (hL.unmounted _ hl₁) (h₁.read_tmp (b := orig) (by simp))
    (by simp [build]) hE₂ hr₂
  refine ensures_exec trivial fun r₃ w₃ hE₃ => ⟨trivial, fun hr₃ => ?_⟩
  refine ⟨hL.keep hE₃ rfl hl₂, ?_⟩
  exact h₂.patch (hL.unmounted _ hl₂) (h₂.read_dev (b := R) (by simp))
    (by simp [build]) hE₃ hr₃

/-- **Both writes** happen where they should. -/
theorem ensures_writeBoth {between after : Sh Unit} (hL : Steady L)
    (hb : between.Calls (Quiet [(.tmp "newbs", newSector template orig R)]))
    (ha : after.Calls (Quiet [])) (ht : template.length = 512) (hne : disk ≠ esp) (hl : L l)
    (h : Has [(disk, D), (esp, E)]
      [(.tmp "newbs", newSector template orig R), (build root "OpenDuet/boot0", boot0)] w) :
    Ensures (Effect F) (fun _ _ => True) (writeBoth root disk esp between after)
      (fun _ l' w' => 512 ≤ E.length ∧ L l' ∧
        Has [(disk, splice D 0 (ddData boot0 1 (some 446) 0)),
          (esp, splice E 0 (newSector template orig R))] [] w') l w := by
  unfold writeBoth
  refine ensures_bind.2 (ensures_exec trivial fun r₁ w₁ hE₁ => ⟨trivial, fun hr₁ => ?_⟩)
  have hl₁ := hL.keep hE₁ rfl hl
  have h₁ := (h.write (Or.inl rfl) (h.read_sub (b := boot0) (by simp [build]))
    (by simpa using hne.symm) hE₁ hr₁).2
  have h₁' : Has [(esp, E), (disk, splice D 0 (ddData boot0 1 (some 446) 0))]
      [(.tmp "newbs", newSector template orig R)] w₁ :=
    h₁.mono (by simp) (by simp)
  refine ensures_bind.2 ((ensures_quiet hL hb hl₁ h₁').imp ?_)
  rintro _ l₂ w₂ ⟨hl₂, h₂⟩
  -- the window is the whole file, which is one sector
  have hdata : ddData (newSector template orig R) 512 (some 1) 0 = newSector template orig R := by
    simp [ddData, List.take_of_length_le (Nat.le_of_eq (length_newSector ht))]
  refine ensures_bind.2 (ensures_exec trivial fun r w₃ hE => ⟨trivial, fun hr => ?_⟩)
  obtain ⟨hfit, h₃⟩ := h₂.write (Or.inr rfl)
    (h₂.read_tmp (b := newSector template orig R) (by simp)) (by simpa using hne) hE hr
  rw [hdata, length_newSector ht] at hfit
  rw [hdata] at h₃
  refine (ensures_quiet hL ha (hL.keep hE rfl hl₂) ⟨h₃.dev, by simp⟩).imp ?_
  rintro _ l₄ w₄ ⟨hl₄, h₄⟩
  exact ⟨by omega, hl₄, h₄.mono (by simp) (by simp)⟩

/-- What the two scripts read: `boot0`, a `boot1f32` of one sector, and enough random bytes. -/
structure Inputs (w : Store) (root : String) where
  boot0 : Image
  template : Image
  hasBoot0 : w.files (build root "OpenDuet/boot0") = some boot0
  hasTemplate : w.files (build root "OpenDuet/boot1f32") = some template
  length_template : template.length = 512
  length_random : 510 ≤ (w.dev "/dev/urandom").length

/-- The disk and the ESP hold what the scripts shall write there, with `orig` as the old boot
sector. -/
structure Written (I : Inputs w₀ root) (disk esp : String) (orig : Image) (w : Store) : Prop where
  disk : ∀ i, (w.dev disk)[i]? = diskByte I.boot0 (w₀.dev disk) i
  sector : ∀ i < 512, (w.dev esp)[i]? = newByte I.template orig (w₀.dev "/dev/urandom") i

/-- The inputs among the files. -/
def Inputs.files (I : Inputs w₀ root) : List (Loc × Image) :=
  [(build root "OpenDuet/boot0", I.boot0), (build root "OpenDuet/boot1f32", I.template)]

/-- What the writes leave is what the scripts shall write. -/
theorem written_of_has {I : Inputs w₀ root}
    (hlen : 512 ≤ E.length)
    (h : Has [(disk, splice (w₀.dev disk) 0 (ddData I.boot0 1 (some 446) 0)),
      (esp, splice E 0 (newSector I.template (InstallOpenduet.firstSector E)
        (w₀.dev "/dev/urandom")))] [] w) :
    Written I disk esp (InstallOpenduet.firstSector E) w where
  disk i := by
    rw [h.dev (disk, _) List.mem_cons_self]
    exact splice_boot0_getElem? _ _ _
  sector i hi := by
    have hfirst : 512 ≤ (InstallOpenduet.firstSector E).length := by
      rw [InstallOpenduet.firstSector, List.length_take]
      omega
    have hesp := h.dev _ (List.mem_cons_of_mem _ List.mem_cons_self)
    rw [hesp, splice_getElem? (Nat.zero_le _), length_newSector I.length_template,
      if_pos (by omega), Nat.sub_zero]
    exact newSector_getElem? I.length_template hfirst I.length_random i

@[simp] theorem quiet_query (q : Query) : Quiet v (.query q) := ⟨idle_query q, rfl, fun _ _ h => h⟩

@[simp] theorem quiet_settle (what : String) : Quiet v (.settle what) :=
  ⟨idle_settle what, rfl, fun _ _ h => h⟩

@[simp] theorem quiet_sync : Quiet v .sync := ⟨idle_sync, rfl, fun _ _ h => h⟩

@[simp] theorem quiet_umount (p : Loc) (quiet : Bool) : Quiet v (.umount p quiet) :=
  ⟨idle_umount p quiet, rfl, fun _ _ h => h⟩

@[simp] theorem quiet_mkdir (ps : List Loc) : Quiet v (.mkdir ps) :=
  ⟨idle_mkdir ps, rfl, fun _ _ h => h⟩

@[simp] theorem quiet_mktemp (I : Inputs w₀ root) (p : Loc) : Quiet I.files (.mktemp p) := by
  refine ⟨idle_mktemp p, rfl, fun e he => ?_⟩
  simp only [Inputs.files, List.mem_cons, List.not_mem_nil, or_false] at he
  rcases he with rfl | rfl <;> simp [Cmd.MayWrite, build, Loc.root]

/-! ### What stays as it was -/

/-- The command is a `mount`. -/
def Cmd.isMount : Cmd → Bool
  | .mount .. => true
  | _ => false

/-- The bytes from `n` on are the same. -/
def SameFrom (n : ℕ) (b b' : Image) : Prop := ∀ i, n ≤ i → b'[i]? = b[i]?

theorem SameFrom.refl (n : ℕ) (b : Image) : SameFrom n b b := fun _ _ => rfl

theorem SameFrom.trans {n : ℕ} {b b' b'' : Image} (h : SameFrom n b b') (h' : SameFrom n b' b'') :
    SameFrom n b b'' := fun i hi => (h' i hi).trans (h i hi)

/-- A `dd` at the start of a device, successful or not, changes nothing behind its window. -/
theorem sameFrom_of_dd {d : String} {tgt : Dest} {k : ℕ} (htgt : tgt = .disk d ∨ tgt = .part d)
    (hE : Effect F l (.dd src tgt bs (some k) skip 0) r w w') :
    SameFrom (k * bs) (w.dev d) (w'.dev d) := by
  have hdid := hE.did
  have hdata : ∃ data : Image, data.length ≤ k * bs ∧ w'.dev d = splice (w.dev d) 0 data := by
    simp only [Did] at hdid
    split at hdid
    · obtain ⟨b, -, hw⟩ := hdid
      have hlen : (ddData b bs (some k) skip).length ≤ k * bs := List.length_take_le _ _
      rw [Nat.zero_mul] at hw
      rcases htgt with rfl | rfl <;> exact ⟨_, hlen, hw.2⟩
    · rw [Nat.zero_mul] at hdid
      rcases htgt with rfl | rfl
      all_goals
        obtain ⟨data, hlen, -, hw⟩ := hdid
        exact ⟨data, hlen _ rfl, hw⟩
  obtain ⟨data, hlen, hw⟩ := hdata
  intro i hi
  rw [hw, splice_getElem?_of_le (by omega) (Nat.zero_le _)]

/-- The volumes of the script are on the ESP, and the disk is the same behind its first 446
bytes. -/
structure DiskFramed (disk esp : String) (w₀ : Store) (l : Log) (w : Store) : Prop where
  volumes : ∀ m ∈ mounts l, m.dev = esp
  disk : SameFrom 446 (w₀.dev disk) (w.dev disk)

/-- The command changes the ESP, a mounted volume or the first 446 bytes of the disk. -/
def DiskTame (disk esp : String) (c : Cmd) : Prop :=
  c.Idle ∨ (∃ opts rw p, c = .mount opts rw esp p) ∨ (∃ fs, c = .mkfs fs esp) ∨
    (∃ src, c = .dd src (.disk disk) 1 (some 446) 0 0) ∨
    ∃ src, c = .dd src (.part esp) 512 (some 1) 0 0

theorem DiskFramed.step (hne : disk ≠ esp) (hc : DiskTame disk esp c) (hE : Effect F l c r w w')
    (h : DiskFramed disk esp w₀ l w) : DiskFramed disk esp w₀ ((c, r) :: l) w' := by
  have hsame : ¬ c.MayChange l disk → SameFrom 446 (w₀.dev disk) (w'.dev disk) := by
    intro hd
    rw [hE.dev disk hd]
    exact h.disk
  rcases hc with hc | ⟨opts, rw, p, rfl⟩ | ⟨fs, rfl⟩ | ⟨src, rfl⟩ | ⟨src, rfl⟩
  · obtain ⟨hd, hm⟩ := hc l r
    refine ⟨fun m hm' => h.volumes m (hm hm'), hsame fun hch => ?_⟩
    obtain ⟨m, hm, hdev⟩ := hd disk hch
    exact hne (hdev.symm.trans (h.volumes m hm))
  · refine ⟨fun m hm => ?_, hsame fun hch => hne hch.2⟩
    simp only [mounts] at hm
    split at hm
    · rcases List.mem_cons.1 hm with rfl | hm
      · rfl
      · exact h.volumes m hm
    · exact h.volumes m hm
  · exact ⟨h.volumes, hsame hne⟩
  · exact ⟨h.volumes, h.disk.trans (sameFrom_of_dd (Or.inl rfl) hE)⟩
  · exact ⟨h.volumes, hsame hne⟩

theorem diskTame_of_idle (hc : c.Idle) : DiskTame disk esp c := Or.inl hc

@[simp] theorem diskTame_mount (opts : String) (rw : Bool) (p : Loc) :
    DiskTame disk esp (.mount opts rw esp p) := Or.inr (Or.inl ⟨opts, rw, p, rfl⟩)

@[simp] theorem diskTame_mkfs (fs : Mkfs) : DiskTame disk esp (.mkfs fs esp) :=
  Or.inr (Or.inr (Or.inl ⟨fs, rfl⟩))

@[simp] theorem diskTame_boot0 (src : Loc) :
    DiskTame disk esp (.dd src (.disk disk) 1 (some 446) 0 0) :=
  Or.inr (Or.inr (Or.inr (Or.inl ⟨src, rfl⟩)))

@[simp] theorem diskTame_pbr (src : Loc) :
    DiskTame disk esp (.dd src (.part esp) 512 (some 1) 0 0) :=
  Or.inr (Or.inr (Or.inr (Or.inr ⟨src, rfl⟩)))

/-! ### `linux_install_openduet.sh` -/

namespace InstallOpenduet

variable {a : Args} {dir : String}

/-- No volume has been mounted. -/
def Unmounted (l : Log) : Prop := ∀ e ∈ l, e.1.isMount = false

theorem Unmounted.mounts_eq_nil (h : Unmounted l) : mounts l = [] := by
  refine List.eq_nil_iff_forall_not_mem.2 fun m hm => ?_
  obtain ⟨opts, r, he⟩ := exists_mount_of_mem hm
  exact Bool.noConfusion (h _ he)

/-- Before a volume is mounted, the ESP is the same behind its first sector. -/
def EspFramed (a : Args) (w₀ : Store) (l : Log) (w : Store) : Prop :=
  Unmounted l → SameFrom 512 (w₀.dev a.espPart) (w.dev a.espPart)

/-- The command changes a mounted volume, the disk or the first sector of the ESP. -/
def EspTame (a : Args) (c : Cmd) : Prop :=
  c.Idle ∨ (∃ opts rw dev p, c = .mount opts rw dev p) ∨
    (∃ src, c = .dd src (.disk a.disk) 1 (some 446) 0 0) ∨
    ∃ src, c = .dd src (.part a.espPart) 512 (some 1) 0 0

theorem EspFramed.step (hne : a.disk ≠ a.espPart) (hc : EspTame a c) (hE : Effect F l c r w w')
    (h : EspFramed a w₀ l w) : EspFramed a w₀ ((c, r) :: l) w' := by
  intro hun
  have hl : Unmounted l := fun e he => hun e (List.mem_cons_of_mem _ he)
  rcases hc with hc | ⟨opts, rw, dev, p, rfl⟩ | ⟨src, rfl⟩ | ⟨src, rfl⟩
  · rw [hE.dev _ ((hc.unmounted r hl.mounts_eq_nil).1 _)]
    exact h hl
  · exact Bool.noConfusion (hun _ List.mem_cons_self)
  · rw [hE.dev _ hne.symm]
    exact h hl
  · exact (h hl).trans (sameFrom_of_dd (Or.inr rfl) hE)

theorem espTame_of_idle (hc : c.Idle) : EspTame a c := Or.inl hc

@[simp] theorem espTame_mount (opts dev : String) (rw : Bool) (p : Loc) :
    EspTame a (.mount opts rw dev p) := Or.inr (Or.inl ⟨opts, rw, dev, p, rfl⟩)

@[simp] theorem espTame_boot0 (src : Loc) :
    EspTame a (.dd src (.disk a.disk) 1 (some 446) 0 0) := Or.inr (Or.inr (Or.inl ⟨src, rfl⟩))

@[simp] theorem espTame_pbr (src : Loc) :
    EspTame a (.dd src (.part a.espPart) 512 (some 1) 0 0) := Or.inr (Or.inr (Or.inr ⟨src, rfl⟩))

theorem calls_main_tame (a : Args) :
    (main a).Calls fun c => DiskTame a.disk a.espPart c ∧ EspTame a c := by
  have hq : (preflight a).Calls fun c => DiskTame a.disk a.espPart c ∧ EspTame a c :=
    calls_preflight a fun q => ⟨Or.inl (idle_query q), Or.inl (idle_query q)⟩
  simp [main, hq, install, makeDirs, unmountEsp, checkFat, probeFstype,
    fat32SectorValid, recoverSector, captureSectors, boot0Write, afterBoot0, settleAndWait,
    waitForPartition, calls_waitLoop, pbrWrite, verifyBoot, diskTame_of_idle, espTame_of_idle]

/-- **Only the two windows change** until the ESP is mounted, and only the first of them on the
disk. -/
theorem framed_main (hne : a.disk ≠ a.espPart) {A : Log → Cmd → Reply → Prop} :
    Always A (fun s => ∀ w, After (Effect F) w₀ s.log w →
      DiskFramed a.disk a.espPart w₀ s.log w ∧ EspFramed a w₀ s.log w) (main a) State.init := by
  refine always_after (I := fun l w => DiskFramed a.disk a.espPart w₀ l w ∧ EspFramed a w₀ l w)
    (calls_main_tame a) ?_ fun w hw => ?_
  · exact fun l c r w w' hc hE h => ⟨h.1.step hne hc.1 hE, h.2.step hne hc.2 hE⟩
  · obtain rfl := after_nil.1 hw
    exact ⟨⟨by simp [State.init, mounts], SameFrom.refl _ _⟩, fun _ => SameFrom.refl _ _⟩

/-- The recovery was made. -/
def Recovered (a : Args) (l : Log) : Prop := ∃ dir r, (recoveryWrite a dir, r) ∈ l

/-- No volume has been mounted, and the recovery was made or not. -/
def Before.Log (a : Args) (rec : Bool) (l : Log) : Prop :=
  (∀ e ∈ l, e.1.Plain = true ∨ ∃ dir, e.1 = recoveryWrite a dir) ∧ (Recovered a l ↔ rec = true)

theorem plain_ne_recoveryWrite (hc : c.Plain = true) (dir : String) : c ≠ recoveryWrite a dir := by
  rintro rfl
  cases hc

theorem mounts_of_forall (h : ∀ e ∈ l, e.1.Plain = true ∨ ∃ dir, e.1 = recoveryWrite a dir) :
    mounts l = [] := by
  induction l with
  | nil => rfl
  | cons e l ih =>
    obtain ⟨c, r⟩ := e
    have hl := ih fun e he => h e (List.mem_cons_of_mem _ he)
    rcases h (c, r) List.mem_cons_self with hc | ⟨dir, rfl⟩
    · cases c with
      | mount opts rw dev dir => cases hc
      | umount dir quiet => simp [mounts, hl]
      | _ => exact hl
    · exact hl

theorem steady_before (a : Args) (rec : Bool) : Steady (Before.Log a rec) where
  unmounted _ h := mounts_of_forall h.1
  step l c r hc h := by
    refine ⟨List.forall_mem_cons.2 ⟨Or.inl hc, h.1⟩, ?_⟩
    rw [← h.2]
    refine exists_congr fun dir => exists_congr fun r' => ?_
    simp only [List.mem_cons, Prod.mk.injEq, or_iff_right_iff_imp]
    exact fun he => absurd he.1.symm (plain_ne_recoveryWrite hc dir)

/-- What is known of the devices. -/
def devices (a : Args) (D E R : Image) : List (String × Image) :=
  [(a.espPart, E), (a.disk, D), ("/dev/urandom", R)]

/-- The recovery copies sector 6 over sector 0. -/
def recoveredImage (b : Image) : Image := splice b 0 (sector b 6)

/-- The check passes only on a partition that reaches to the end of sector 6. -/
theorem has_fat32SectorValid {I : Inputs w₀ root} (hl : Before.Log a false l)
    (h : Has (devices a D E R) I.files w) :
    Ensures (Effect F) (fun _ _ => True) (fat32SectorValid a.espPart 6)
      (fun b l' w' => (Before.Log a false l' ∧ Has (devices a D E R) I.files w') ∧
        (b = true → 3584 ≤ E.length)) l w := by
  have hL := steady_before a false
  unfold fat32SectorValid
  refine ensures_bind.2 ((ensures_quiet hL (by simp) hl h).imp fun type l₁ w₁ h₁ => ?_)
  refine ensures_bind.2 (ensures_ask trivial fun sig w₂ hE => ⟨trivial, ?_⟩)
  have hl₂ := hL.keep hE rfl h₁.1
  have h₂ := h₁.2.step (quiet_query _) (hL.unmounted _ h₁.1) hE
  refine ensures_bind.2 ((ensures_quiet hL (by simp) hl₂ h₂).imp fun bps l₃ w₃ h₃ => ?_)
  refine ⟨trivial, h₃, fun hok => ?_⟩
  simp only [Bool.and_eq_true, decide_eq_true_eq] at hok
  -- two bytes were printed from offset 3582 on
  have hwin := window_of_hex (b := [0x55, 0xaa]) hE.did (by rw [hok.1.2]; decide) rfl
  rw [h₁.2.dev (a.espPart, E) List.mem_cons_self] at hwin
  have hlen := congrArg List.length hwin
  rw [List.length_take, List.length_drop] at hlen
  simp only [List.length_cons, List.length_nil] at hlen
  omega

theorem has_recoverSector {I : Inputs w₀ root} (hne : a.disk ≠ a.espPart)
    (hr : a.espPart ≠ "/dev/urandom") (hl : Before.Log a false l)
    (h : Has (devices a D E R) I.files w) :
    Ensures (Effect F) (fun _ _ => True) (recoverSector a.espPart (.sub (.host dir)) dir)
      (fun _ l' w' => Before.Log a true l' ∧ Has (devices a D (recoveredImage E) R) I.files w')
      l w := by
  have hL := steady_before a false
  unfold recoverSector
  -- the sectors 0 and 6 are captured
  refine ensures_bind.2 (ensures_exec trivial fun r₁ w₁ hE₁ => ⟨trivial, fun hr₁ => ?_⟩)
  have hl₁ := hL.keep hE₁ rfl hl
  have h₁ := (h.capture (hL.unmounted _ hl) (b := E) List.mem_cons_self
    (by simp [Inputs.files, build]) hE₁ hr₁).mono (List.Subset.refl _) (List.subset_cons_self _ _)
  refine ensures_bind.2 (ensures_exec trivial fun r₂ w₂ hE₂ => ⟨trivial, fun hr₂ => ?_⟩)
  have hl₂ := hL.keep hE₂ rfl hl₁
  have h₂ := h₁.capture (hL.unmounted _ hl₁) (b := E) List.mem_cons_self
    (by simp [Inputs.files, build]) hE₂ hr₂
  -- sector 6 is written to sector 0
  refine ensures_bind.2 (ensures_exec trivial fun r₃ w₃ hE₃ => ⟨trivial, fun hr₃ => ?_⟩)
  have hl₃ : Before.Log a true ((recoveryWrite a dir, r₃) :: _) :=
    ⟨List.forall_mem_cons.2 ⟨Or.inr ⟨dir, rfl⟩, hl₂.1⟩,
      iff_of_true ⟨dir, r₃, List.mem_cons_self⟩ rfl⟩
  have hdata : ddData (sector E 6) 512 (some 1) 0 = sector E 6 := by
    simp [ddData, sector, List.take_take]
  have h₃ := (h₂.write (Or.inr rfl) (h₂.read_sub (b := sector E 6) List.mem_cons_self)
    (by simp [hne, hr.symm]) hE₃ hr₃).2
  rw [hdata] at h₃
  refine ensures_quiet (steady_before a true) (by simp [probeFstype]) hl₃ ?_
  exact h₃.mono (List.Subset.refl _) (List.subset_cons_self _ _)

/-- **What the capture will find**: the ESP as it was, or recovered. -/
def Found (E E' : Image) (rec : Bool) : Prop :=
  rec = false ∧ E' = E ∨ rec = true ∧ E' = recoveredImage E ∧ 3584 ≤ E.length

theorem has_checkFat {I : Inputs w₀ root} (hne : a.disk ≠ a.espPart)
    (hr : a.espPart ≠ "/dev/urandom") (hl : Before.Log a false l)
    (h : Has (devices a D E R) I.files w) :
    Ensures (Effect F) (fun _ _ => True) (checkFat a (.sub (.host dir)) dir)
      (fun _ l' w' => ∃ rec E', Found E E' rec ∧ Before.Log a rec l' ∧
        Has (devices a D E' R) I.files w') l w := by
  have hL := steady_before a false
  unfold checkFat
  refine ensures_bind.2 ((ensures_quiet hL (by simp [probeFstype]) hl h).imp fun fstype l₁ w₁ h₁ => ?_)
  by_cases hfat : isFat fstype = true
  · simp only [if_pos hfat]
    exact ⟨trivial, false, E, Or.inl ⟨rfl, rfl⟩, h₁⟩
  by_cases hempty : fstype = ""
  swap
  · simp only [if_neg hfat, if_pos hempty]
    trivial
  by_cases hrecover : (!a.recoverFat32Backup) = true
  · simp only [if_neg hfat, if_neg (not_not.2 hempty), if_pos hrecover]
    trivial
  simp only [if_neg hfat, if_neg (not_not.2 hempty), if_neg hrecover]
  -- without a file system, and with the option, sector 6 is looked at
  refine ensures_bind.2 ((has_fat32SectorValid h₁.1 h₁.2).imp ?_)
  rintro b l₂ w₂ ⟨h₂, hlen⟩
  cases b with
  | false => trivial
  | true =>
    refine (has_recoverSector hne hr h₂.1 h₂.2).imp fun _ l₃ w₃ h₃ => ?_
    exact ⟨true, _, Or.inr ⟨rfl, rfl, hlen rfl⟩, h₃⟩

theorem has_captureSectors {I : Inputs w₀ root} {rec : Bool} (hl : Before.Log a rec l)
    (h : Has (devices a D E R) I.files w) :
    Ensures (Effect F) (fun _ _ => True) (captureSectors a root (.sub (.host dir)) true)
      (fun _ l' w' => Before.Log a rec l' ∧ Has [(a.disk, D), (a.espPart, E)]
        [(.tmp "newbs", newSector I.template (firstSector E) R),
          (build root "OpenDuet/boot0", I.boot0)] w') l w := by
  have hL := steady_before a rec
  have hsector : sector E 0 = firstSector E := by simp [sector, firstSector]
  unfold captureSectors
  -- the first sector of the disk, and that of the partition
  refine ensures_bind.2 (ensures_exec trivial fun r₁ w₁ hE₁ => ⟨trivial, fun hr₁ => ?_⟩)
  have hl₁ := hL.keep hE₁ rfl hl
  have h₁ := (h.capture (hL.unmounted _ hl) (b := D) (by simp [devices])
    (by simp [Inputs.files, build]) hE₁ hr₁).mono (List.Subset.refl _) (List.subset_cons_self _ _)
  refine ensures_bind.2 (ensures_exec trivial fun r₂ w₂ hE₂ => ⟨trivial, fun hr₂ => ?_⟩)
  have hl₂ := hL.keep hE₂ rfl hl₁
  have h₂ := h₁.capture (hL.unmounted _ hl₁) (b := E) List.mem_cons_self
    (by simp [Inputs.files, build]) hE₂ hr₂
  -- the copy that the new sector is made of
  refine ensures_bind.2 (ensures_exec trivial fun r₃ w₃ hE₃ => ⟨trivial, fun hr₃ => ?_⟩)
  have hl₃ := hL.keep hE₃ rfl hl₂
  have h₃ := h₂.cp (b := sector E 0) (hL.unmounted _ hl₂) List.mem_cons_self
    (by simp [Inputs.files, build, Loc.Under, tempPath]) hE₃ hr₃
  rw [hsector] at h₃
  have h₄ : Has [(a.disk, D), (a.espPart, E), ("/dev/urandom", R)]
      [(.tmp "origbs", firstSector E), (build root "OpenDuet/boot0", I.boot0),
        (build root "OpenDuet/boot1f32", I.template)] w₃ :=
    h₃.mono (by simp [devices]) (by simp [Inputs.files, tempPath])
  refine (ensures_buildSector hL hl₃ h₄).imp ?_
  rintro _ l' w' ⟨hl', h'⟩
  exact ⟨hl', h'.mono (by simp) (by simp)⟩

theorem writeSectors_eq (a : Args) (root dir : String) :
    writeSectors a root dir true = (do
      unmountEsp a.espPart
      checkFat a (.sub (.host dir)) dir
      captureSectors a root (.sub (.host dir)) true
      writeBoth root a.disk a.espPart
        (do
          settleAndWait a (a.espPart ++ " did not return after MBR update; backups are in " ++ dir)
          unmountEsp a.espPart)
        (settleAndWait a (a.espPart ++ " disappeared after PBR write; backups are in " ++ dir))) := by
  simp only [writeSectors, writeBoth, boot0Write, pbrWrite, tempPath, if_true, bind_assoc]

theorem calls_settleAndWait_quiet (a : Args) (msg : String) :
    (settleAndWait a msg).Calls (Quiet v) := by
  simp [settleAndWait, waitForPartition, calls_waitLoop]

theorem has_writeSectors {I : Inputs w₀ root} (hne : a.disk ≠ a.espPart)
    (hr : a.espPart ≠ "/dev/urandom") (hl : Before.Log a false l)
    (h : Has (devices a D E R) I.files w) :
    Ensures (Effect F) (fun _ _ => True) (writeSectors a root dir true)
      (fun _ l' w' => ∃ rec E', Found E E' rec ∧ Before.Log a rec l' ∧ 512 ≤ E'.length ∧
        Has [(a.disk, splice D 0 (ddData I.boot0 1 (some 446) 0)),
          (a.espPart, splice E' 0 (newSector I.template (firstSector E') R))] [] w') l w := by
  rw [writeSectors_eq]
  have hunmount : (unmountEsp a.espPart).Calls (Quiet I.files) := by simp [unmountEsp]
  refine ensures_bind.2 ((ensures_quiet (steady_before a false) hunmount hl h).imp ?_)
  rintro _ l₁ w₁ ⟨hl₁, h₁⟩
  refine ensures_bind.2 ((has_checkFat hne hr hl₁ h₁).imp ?_)
  rintro _ l₂ w₂ ⟨rec, E', hfound, hl₂, h₂⟩
  refine ensures_bind.2 ((has_captureSectors hl₂ h₂).imp ?_)
  rintro _ l₃ w₃ ⟨hl₃, h₃⟩
  refine (ensures_writeBoth (steady_before a rec) ?_ (calls_settleAndWait_quiet a _)
    I.length_template hne hl₃ h₃).imp ?_
  · simp [calls_settleAndWait_quiet, unmountEsp]
  · rintro _ l₄ w₄ ⟨hlen, hl₄, h₄⟩
    exact ⟨rec, E', hfound, hl₄, hlen, h₄⟩

theorem has_makeDirs {I : Inputs w₀ root} (hl : Before.Log a false l) (h : Has ds I.files w) :
    Ensures (Effect F) (fun _ _ => True) (makeDirs a)
      (fun b l' w' => b.1 = true ∧ Made b.2 l' ∧ Before.Log a false l' ∧ Has ds I.files w') l w := by
  have hL := steady_before a false
  refine ensures_makeDirs (J := fun l w' => Before.Log a false l ∧ Has ds I.files w')
    (fun _ _ _ => trivial) (fun c hc l r w w' hE hs => ?_) ⟨hl, h⟩
  have hquiet : Quiet I.files c := by
    rcases hc with ⟨q, rfl⟩ | ⟨p, rfl⟩ | ⟨ps, rfl⟩ <;> simp
  exact ⟨hL.keep hE hquiet.2.1 hs.1, hs.2.step hquiet (hL.unmounted _ hs.1) hE⟩

theorem has_init (a : Args) (I : Inputs w root) :
    Has (devices a (w.dev a.disk) (w.dev a.espPart) (w.dev "/dev/urandom")) I.files w :=
  ⟨by simp [devices], by simp [Inputs.files, I.hasBoot0, I.hasTemplate]⟩

/-- Everything up to the mount: `BUILD_ROOT`, `BOOT_FILE` and whether `TMP` was made. -/
def upToMount (a : Args) : Sh (String × Loc × Bool) := do
  let (buildRoot, bootFile) ← preflight a
  let (tempDir, backupDir) ← makeDirs a
  writeSectors a buildRoot backupDir tempDir
  return (buildRoot, bootFile, tempDir)

/-- The mount, the copy of `/boot` and the release. -/
def installBoot (a : Args) (x : String × Loc × Bool) : Sh ℕ := do
  (exec (.mount "-t vfat -o rw,noatime" true a.espPart (tempPath x.2.2 "esp")) >>= fun _ =>
    copyBoot x.1 x.2.1 (tempPath x.2.2 "esp") >>= fun _ =>
    exec (.umount (tempPath x.2.2 "esp") false))
  Script.setVar fun v => { v with espMount := none }
  return 0

theorem main_eq (a : Args) : main a = upToMount a >>= installBoot a := by
  simp only [main, install_eq, upToMount, installBoot, bind_assoc, pure_bind]

variable {A : Log → Cmd → Reply → Prop}

/-- The old boot sector that the new one is derived from. -/
theorem firstSector_of_found {E' : Image} {rec : Bool} (h : Found E E' rec) :
    firstSector E' = if rec then sector E 6 else firstSector E := by
  rcases h with ⟨rfl, rfl⟩ | ⟨rfl, rfl, hlen⟩
  · rfl
  · have hs : (sector E 6).length = 512 := by
      rw [sector, List.length_take, List.length_drop]
      omega
    rw [if_pos rfl, recoveredImage, firstSector, splice, Nat.zero_sub]
    simp [hs]

theorem written_upToMount {x : String × Loc × Bool} {t : State} (hne : a.disk ≠ a.espPart)
    (hr : a.espPart ≠ "/dev/urandom") (h : Returns A (upToMount a) State.init x t)
    (I : Inputs w₀ x.1) (hw : After (Effect F) w₀ t.log w) :
    (Recovered a t.log → Written I a.disk a.espPart (sector (w₀.dev a.espPart) 6) w) ∧
      (¬ Recovered a t.log → Written I a.disk a.espPart (firstSector (w₀.dev a.espPart)) w) := by
  obtain ⟨⟨root, bootFile⟩, s, hs, h⟩ := returns_bind.1 h
  -- up to the first directory only questions are asked
  have hq := queries_of_returns (calls_preflight a fun q => ⟨q, rfl⟩) (by simp [State.init]) hs
  have hlog : Before.Log a false s.log := by
    refine ⟨fun e he => ?_, iff_of_false ?_ (by simp)⟩
    · obtain ⟨q, hq⟩ := hq e he
      exact Or.inl (by rw [hq]; rfl)
    · rintro ⟨dir, r, he⟩
      obtain ⟨q, hq⟩ := hq _ he
      cases hq
  have hroot : x.1 = root := by
    obtain ⟨b, t₁, -, h⟩ := returns_bind.1 h
    obtain ⟨_, t₂, -, h⟩ := returns_bind.1 h
    rw [(returns_ret.1 h).1]
  subst hroot
  have hens : ∀ w, After (Effect F) w₀ s.log w → Ensures (Effect F) (fun _ _ => True)
      (makeDirs a >>= fun b => writeSectors a x.1 b.2 b.1 >>= fun _ => pure (x.1, bootFile, b.1))
      (fun _ l' w' => ∃ rec E', Found (w₀.dev a.espPart) E' rec ∧ Before.Log a rec l' ∧
        Written I a.disk a.espPart (firstSector E') w') s.log w := by
    intro w hw
    obtain rfl := eq_of_queries hq hw
    refine ensures_bind.2 ((has_makeDirs hlog (has_init a I)).imp ?_)
    rintro ⟨tempDir, dir⟩ l₁ w₁ ⟨rfl, -, hl₁, h₁⟩
    refine ensures_bind.2 ((has_writeSectors hne hr hl₁ h₁).imp ?_)
    rintro _ l₂ w₂ ⟨rec, E', hfound, hl₂, hlen, h₂⟩
    exact ⟨trivial, rec, E', hfound, hl₂, written_of_has hlen h₂⟩
  obtain ⟨rec, E', hfound, hl, hwritten⟩ := (Ensures.sound hs.errexit hens h hw).2 x rfl
  rw [firstSector_of_found hfound] at hwritten
  refine ⟨fun hrec => ?_, fun hrec => ?_⟩
  · rwa [if_pos (hl.2.1 hrec)] at hwritten
  · rwa [if_neg fun h => hrec (hl.2.2 h)] at hwritten

end InstallOpenduet

/-! ### `repair_openduet_esp.sh` -/

namespace RepairEsp

variable {a : Args}

/-- The checks: `BUILD_ROOT` and `ESP_PART`. -/
def selected (a : Args) : Sh (String × String) := do
  let buildRoot ← guardSection a
  let espPart ← selectEsp a
  requireArtifacts buildRoot
  return (buildRoot, espPart)

/-- From the temporary directory to the second write. -/
def upToVerify (a : Args) (buildRoot espPart : String) : Sh Bool := do
  let tempDir ← makeDirs
  readyEsp a espPart
  copyEfi buildRoot espPart (tempPath tempDir "esp")
  captureSector buildRoot espPart tempDir
  exec (boot0Write a buildRoot)
  settle a.disk
  waitForBlock espPart (espPart ++ " did not reappear after boot0 write")
  exec (pbrWrite espPart tempDir)
  exec .sync
  settle a.disk
  waitForBlock espPart (espPart ++ " did not reappear after boot1f32 write")
  return tempDir

/-- The read-only look at the result. -/
def verifyMounted (espPart : String) (tempDir : Bool) : Sh ℕ := do
  requireFat espPart fun fstype =>
    "FAT filesystem is no longer readable after boot1f32 write (" ++ fstype ++ ")"
  exec (.mount "-t vfat -o ro" false espPart (tempPath tempDir "esp"))
  verify (tempPath tempDir "esp")

theorem repair_split (a : Args) (root esp : String) :
    repair a root esp = upToVerify a root esp >>= verifyMounted esp := by
  simp only [repair_eq, upToVerify, writeSectors, afterBoot0, verifyMounted, bind_assoc, pure_bind]

theorem main_eq (a : Args) : main a = selected a >>= fun x => repair a x.1 x.2 := by
  simp only [main, selected, bind_assoc, pure_bind]

theorem mounts_of_queries (hq : ∀ e ∈ l, ∃ q, e.1 = .query q) : mounts l = [] := by
  refine List.eq_nil_iff_forall_not_mem.2 fun m hm => ?_
  obtain ⟨opts, r, he⟩ := exists_mount_of_mem hm
  obtain ⟨q, hq⟩ := hq _ he
  cases hq

theorem calls_selected (a : Args) : (selected a).Calls fun c => ∃ q, c = .query q := by
  have hg : (guardSection a).Calls fun c => ∃ q, c = .query q := calls_guardSection fun q => ⟨q, rfl⟩
  have hs : (selectEsp a).Calls fun c => ∃ q, c = .query q := calls_selectEsp fun q => ⟨q, rfl⟩
  simp [selected, hg, hs, requireArtifacts]

theorem calls_repair_tame (a : Args) (root esp : String) :
    (repair a root esp).Calls (DiskTame a.disk esp) := by
  simp [repair, makeDirs, unmountDisk, settle, waitForBlock, calls_waitLoop, reformat, requireFat,
    copyEfi, captureSector, boot0Write, afterBoot0, pbrWrite, verify, diskTame_of_idle]

/-- **The partition table stays** in a repair, too. -/
theorem framed_repair {A : Log → Cmd → Reply → Prop} {s : State} (hne : a.disk ≠ esp)
    (hq : ∀ e ∈ s.log, ∃ q, e.1 = .query q) :
    Always A (fun t => ∀ w, After (Effect F) w₀ t.log w → DiskFramed a.disk esp w₀ t.log w)
      (repair a root esp) s := by
  refine always_after (I := fun l w => DiskFramed a.disk esp w₀ l w) (calls_repair_tame a root esp)
    (fun l c r w w' hc hE h => h.step hne hc hE) fun w hw => ?_
  obtain rfl := eq_of_queries hq hw
  exact ⟨by simp [mounts_of_queries hq], SameFrom.refl _ _⟩

/-- No volume is mounted. -/
theorem steady_mounts : Steady fun l => mounts l = [] where
  unmounted _ h := h
  step l c r hc h := by
    cases c with
    | mount opts rw dev dir => cases hc
    | umount dir quiet => simp [mounts, h]
    | _ => exact h

theorem has_makeDirs {I : Inputs w₀ root} (hl : mounts l = []) (h : Has ds I.files w) :
    Ensures (Effect F) (fun _ _ => True) makeDirs
      (fun b l' w' => b = true ∧ mounts l' = [] ∧ Has ds I.files w') l w := by
  unfold makeDirs
  refine ensures_bind.2 ⟨trivial, fun r₁ w₁ hE => ⟨trivial, fun hr₁ => ⟨trivial, ?_⟩⟩⟩
  have h₁ := h.step (quiet_mktemp I _) hl hE
  refine ensures_bind.2 ⟨trivial, trivial, ?_⟩
  refine ensures_bind.2 ⟨trivial, trivial, ?_⟩
  have hmkdir : (exec (.mkdir [tempPath r₁.ok "esp"])).Calls (Quiet I.files) := by simp
  have hl₁ := steady_mounts.keep hE rfl hl
  refine ensures_bind.2 ((ensures_quiet steady_mounts hmkdir hl₁ h₁).imp fun _ l₂ w₂ h₂ => ?_)
  exact ⟨trivial, Reply.ok_iff.2 (hr₁ rfl), h₂⟩

theorem calls_waitForBlock_quiet (path msg : String) : (waitForBlock path msg).Calls (Quiet v) := by
  simp [waitForBlock, calls_waitLoop]

theorem calls_settle_quiet (disk : String) : (settle disk).Calls (Quiet v) := by
  simp [settle]

theorem calls_readyEsp_quiet (hf : a.reformatEsp = false) (esp : String) :
    (readyEsp a esp).Calls (Quiet v) := by
  simp [readyEsp, unmountDisk, calls_settle_quiet, calls_waitForBlock_quiet, reformat, hf,
    requireFat]

/-- While the ESP is mounted. -/
structure Session (esp : String) (ds : List (String × Image)) (v : List (Loc × Image)) (E : Image)
    (l : Log) (w : Store) : Prop where
  mounts : mounts l = [⟨.tmp "esp", esp, true⟩]
  base : w.mounted esp = E
  has : Has ds v w

/-- The command works on the mounted ESP only. -/
def Local (v : List (Loc × Image)) (c : Cmd) : Prop :=
  (∀ l r, mounts ((c, r) :: l) = mounts l ∧ ∀ d, ¬ c.Mounts r d) ∧ c.Idle ∧
    ∀ e ∈ v, ¬ c.MayWrite e.1

theorem Session.step (hd : ∀ e ∈ ds, e.1 ≠ esp) (hc : Local v c) (hE : Effect F l c r w w')
    (h : Session esp ds v E l w) : Session esp ds v E ((c, r) :: l) w' where
  mounts := ((hc.1 l r).1).trans h.mounts
  base := (hE.mounted esp ((hc.1 l r).2 esp)).trans h.base
  has :=
    { dev := fun e he => by
        rw [hE.dev e.1 fun hch => ?_]
        · exact h.has.dev e he
        · obtain ⟨m, hm, hdev⟩ := (hc.2.1 l r).1 e.1 hch
          rw [h.mounts, List.mem_singleton] at hm
          exact hd e he (by rw [← hdev, hm])
      files := fun e he => (hE.files e.1 (hc.2.2 e he)).trans (h.has.files e he) }

/-- **The copy leaves the volume as a file system does**, and nothing else has changed. -/
theorem has_copyEfi {I : Inputs w₀ root} (hd : ∀ e ∈ ds, e.1 ≠ esp) (hl : mounts l = [])
    (h : Has ((esp, E) :: ds) I.files w) :
    Ensures (Effect F) (fun _ _ => True) (copyEfi root esp (.tmp "esp"))
      (fun _ l' w' => mounts l' = [] ∧ F E (w'.dev esp) ∧ Has ds I.files w') l w := by
  rw [copyEfi_eq]
  refine ensures_bind.2 (ensures_exec trivial fun r₁ w₁ hE₁ => ⟨trivial, fun hr₁ => ?_⟩)
  -- between the mount and the unmount the partition is a volume
  have hs₁ : Session esp ds I.files E
      ((.mount "-t vfat -o rw,noatime" true esp (.tmp "esp"), r₁) :: l) w₁ := by
    refine ⟨by simp [mounts, hr₁, hl], ?_, fun e he => ?_, fun e he => ?_⟩
    · rw [hE₁.mount esp ⟨_, _, rfl, hr₁⟩, h.dev (esp, E) List.mem_cons_self]
    · rw [hE₁.dev e.1 fun hch => hd e he hch.2]
      exact h.dev e (List.mem_cons_of_mem _ he)
    · rw [hE₁.files e.1 fun hw => hw]
      exact h.files e he
  have hbody : (copyBody root (.tmp "esp")).Calls (Local I.files) := by
    simp [copyBody, Local, mounts, Cmd.Mounts, Inputs.files, Cmd.MayWrite, build, Loc.Under,
      Loc.Enters, Loc.root]
  refine ensures_bind.2 ((ensures_of_calls (J := Session esp ds I.files E) hbody
    (fun l c r w w' hc hE hs => hs.step hd hc hE) (fun _ _ _ => trivial) hs₁).imp ?_)
  rintro _ l₂ w₂ hs₂
  refine ensures_exec trivial fun r₃ w₃ hE₃ => ⟨trivial, fun hr₃ => ⟨?_, ?_, fun e he => ?_, ?_⟩⟩
  · simp [mounts, hr₃, hs₂.mounts]
  · -- the unmount leaves what the file system makes of it
    have hvol : onVolume l₂ (.tmp "esp") esp :=
      ⟨_, by rw [hs₂.mounts]; exact List.mem_singleton_self _, rfl, Or.inl rfl, rfl⟩
    have hF := hE₃.umount _ _ rfl hr₃ esp hvol
    rwa [hs₂.base] at hF
  · rw [hE₃.dev e.1 fun hch => ?_]
    · exact hs₂.has.dev e he
    · obtain ⟨m, hm, hdev⟩ := exists_of_onVolume hch
      rw [hs₂.mounts, List.mem_singleton] at hm
      exact hd e he (by rw [← hdev, hm])
  · exact fun e he => (hE₃.files e.1 fun hw => hw).trans (hs₂.has.files e he)

theorem has_captureSector {I : Inputs w₀ root} (hl : mounts l = [])
    (h : Has [(a.disk, D), (esp, E), ("/dev/urandom", R)] I.files w) :
    Ensures (Effect F) (fun _ _ => True) (captureSector root esp true)
      (fun _ l' w' => mounts l' = [] ∧ Has [(a.disk, D), (esp, E)]
        [(.tmp "newbs", newSector I.template (InstallOpenduet.firstSector E) R),
          (build root "OpenDuet/boot0", I.boot0)] w') l w := by
  have hL := steady_mounts
  have hsector : InstallOpenduet.sector E 0 = InstallOpenduet.firstSector E := by
    simp [InstallOpenduet.sector, InstallOpenduet.firstSector]
  unfold captureSector
  refine ensures_bind.2 ((ensures_quiet hL (calls_waitForBlock_quiet _ _) hl h).imp ?_)
  rintro _ l₁ w₁ ⟨hl₁, h₁⟩
  refine ensures_bind.2 (ensures_exec trivial fun r₂ w₂ hE₂ => ⟨trivial, fun hr₂ => ?_⟩)
  have hl₂ := hL.keep hE₂ rfl hl₁
  have h₂ := h₁.capture hl₁ (b := E) (by simp) (by simp [Inputs.files, build, tempPath]) hE₂ hr₂
  rw [hsector] at h₂
  have hstat : (askChecked (.statSize (tempPath true "origbs"))).Calls
      (Quiet ((tempPath true "origbs", InstallOpenduet.firstSector E) :: I.files)) := by simp
  refine ensures_bind.2 ((ensures_quiet hL hstat hl₂ h₂).imp fun size l₃ w₃ h₃ => ?_)
  refine ensures_bind.2 (ensures_orDie trivial fun _ => ?_)
  have h₄ : Has [(a.disk, D), (esp, E), ("/dev/urandom", R)]
      [(.tmp "origbs", InstallOpenduet.firstSector E), (build root "OpenDuet/boot0", I.boot0),
        (build root "OpenDuet/boot1f32", I.template)] w₃ :=
    h₃.2.mono (by simp) (by simp [Inputs.files, tempPath])
  refine (ensures_buildSector hL h₃.1 h₄).imp ?_
  rintro _ l' w' ⟨hl', h'⟩
  exact ⟨hl', h'.mono (by simp) (by simp)⟩

theorem upToVerify_eq (a : Args) (root esp : String) :
    upToVerify a root esp = makeDirs >>= fun tempDir => do
      readyEsp a esp
      copyEfi root esp (tempPath tempDir "esp")
      captureSector root esp tempDir
      (do
        exec (boot0Write a root)
        (do
          settle a.disk
          waitForBlock esp (esp ++ " did not reappear after boot0 write"))
        exec (pbrWrite esp tempDir)
        (do
          exec .sync
          settle a.disk
          waitForBlock esp (esp ++ " did not reappear after boot1f32 write")))
      return tempDir := by
  simp only [upToVerify, bind_assoc]

/-- Without a reformatting, the new sector is derived from the one that the ESP had. -/
theorem has_upToVerify (I : Inputs w root) (hf : a.reformatEsp = false)
    (hF : ∀ b b', F b b' → InstallOpenduet.firstSector b' = InstallOpenduet.firstSector b)
    (hne : a.disk ≠ esp) (hr : esp ≠ "/dev/urandom") (hl : mounts l = []) :
    Ensures (Effect F) (fun _ _ => True) (upToVerify a root esp)
      (fun _ _ w' => Written I a.disk esp (InstallOpenduet.firstSector (w.dev esp)) w') l w := by
  have hinit : Has [(esp, w.dev esp), (a.disk, w.dev a.disk), ("/dev/urandom", w.dev "/dev/urandom")]
      I.files w := ⟨by simp, by simp [Inputs.files, I.hasBoot0, I.hasTemplate]⟩
  rw [upToVerify_eq]
  refine ensures_bind.2 ((has_makeDirs hl hinit).imp ?_)
  rintro _ l₁ w₁ ⟨rfl, hl₁, h₁⟩
  refine ensures_bind.2 ((ensures_quiet steady_mounts (calls_readyEsp_quiet hf esp) hl₁ h₁).imp ?_)
  rintro _ l₂ w₂ ⟨hl₂, h₂⟩
  refine ensures_bind.2 ((has_copyEfi (by simp [hne, hr.symm]) hl₂ h₂).imp ?_)
  rintro _ l₃ w₃ ⟨hl₃, hE, h₃⟩
  have h₃' : Has [(a.disk, w.dev a.disk), (esp, w₃.dev esp), ("/dev/urandom", w.dev "/dev/urandom")]
      I.files w₃ := by
    refine ⟨fun e he => ?_, h₃.files⟩
    simp only [List.mem_cons, List.not_mem_nil, or_false] at he
    rcases he with rfl | rfl | rfl
    · exact h₃.dev _ (by simp)
    · rfl
    · exact h₃.dev _ (by simp)
  refine ensures_bind.2 ((has_captureSector hl₃ h₃').imp ?_)
  rintro _ l₄ w₄ ⟨hl₄, h₄⟩
  have hbetween : (settle a.disk >>= fun _ => waitForBlock esp (esp ++
      " did not reappear after boot0 write")).Calls (Quiet [(.tmp "newbs",
        newSector I.template (InstallOpenduet.firstSector (w₃.dev esp)) (w.dev "/dev/urandom"))]) := by
    simp [calls_settle_quiet, calls_waitForBlock_quiet]
  have hafter : (exec .sync >>= fun _ => settle a.disk >>= fun _ => waitForBlock esp (esp ++
      " did not reappear after boot1f32 write")).Calls (Quiet []) := by
    simp [calls_settle_quiet, calls_waitForBlock_quiet]
  refine ensures_bind.2 ((ensures_writeBoth steady_mounts hbetween hafter I.length_template hne hl₄
    h₄).imp ?_)
  rintro _ l₅ w₅ ⟨hlen, -, h₅⟩
  have hwritten := written_of_has hlen h₅
  rw [hF _ _ hE] at hwritten
  exact ⟨trivial, hwritten⟩

end RepairEsp

/-! ### Both scripts -/

section Agreement

variable (A : Log → Cmd → Reply → Prop) (F : Image → Image → Prop) (w₀ : Store)

/-- What the installer does to the two devices. -/
structure InstallOpenduet.WritesExactly (a : InstallOpenduet.Args) : Prop where
  /-- At every boundary, the disk is the same from byte 446 on, and until a volume is mounted the
  ESP is the same from byte 512 on. -/
  framed : Always A (fun s => ∀ w, After (Effect F) w₀ s.log w →
    SameFrom 446 (w₀.dev a.disk) (w.dev a.disk) ∧
      (InstallOpenduet.Unmounted s.log → SameFrom 512 (w₀.dev a.espPart) (w.dev a.espPart)))
    (InstallOpenduet.main a) State.init
  /-- A successful run gets to the mount. -/
  passes : ∀ n t, Returns A (InstallOpenduet.main a) State.init n t → ∃ x t',
    Returns A (InstallOpenduet.upToMount a) State.init x t' ∧
      Returns A (InstallOpenduet.installBoot a x) t' n t
  /-- There the devices hold the new bytes. -/
  written : ∀ x t, Returns A (InstallOpenduet.upToMount a) State.init x t →
    InstallOpenduet.Unmounted t.log ∧ ∀ (I : Inputs w₀ x.1) w, After (Effect F) w₀ t.log w →
      (InstallOpenduet.Recovered a t.log →
        Written I a.disk a.espPart (InstallOpenduet.sector (w₀.dev a.espPart) 6) w) ∧
      (¬ InstallOpenduet.Recovered a t.log →
        Written I a.disk a.espPart (InstallOpenduet.firstSector (w₀.dev a.espPart)) w)

/-- What the repair does to the two devices, from the state `s` in which the build root and the ESP
are known. -/
structure RepairEsp.WritesExactly (a : RepairEsp.Args) (root esp : String) (s : State) : Prop where
  /-- At every boundary, the disk is the same from byte 446 on. -/
  framed : Always A (fun t => ∀ w, After (Effect F) w₀ t.log w →
    SameFrom 446 (w₀.dev a.disk) (w.dev a.disk)) (RepairEsp.repair a root esp) s
  /-- A successful run gets past the second write. -/
  passes : ∀ n t, Returns A (RepairEsp.repair a root esp) s n t → ∃ b t',
    Returns A (RepairEsp.upToVerify a root esp) s b t' ∧
      Returns A (RepairEsp.verifyMounted esp b) t' n t
  /-- Without a reformatting, and where a file system leaves the boot sector alone, the devices hold
  the new bytes there. -/
  written : a.reformatEsp = false →
    (∀ b b', F b b' → InstallOpenduet.firstSector b' = InstallOpenduet.firstSector b) →
    ∀ b t, Returns A (RepairEsp.upToVerify a root esp) s b t → ∀ (I : Inputs w₀ root) w,
      After (Effect F) w₀ t.log w →
      Written I a.disk esp (InstallOpenduet.firstSector (w₀.dev esp)) w

theorem InstallOpenduet.unmounted_upToMount {A : Log → Cmd → Reply → Prop}
    {a : InstallOpenduet.Args} {x : String × Loc × Bool} {t : State}
    (h : Returns A (InstallOpenduet.upToMount a) State.init x t) :
    InstallOpenduet.Unmounted t.log := by
  have hq : (InstallOpenduet.preflight a).Calls fun c => c.isMount = false :=
    InstallOpenduet.calls_preflight a fun _ => rfl
  have hcalls : (InstallOpenduet.upToMount a).Calls fun c => c.isMount = false := by
    refine Script.calls_bind.2 ⟨hq, fun b _ => ?_⟩
    simp [InstallOpenduet.makeDirs, InstallOpenduet.writeSectors, InstallOpenduet.unmountEsp,
      InstallOpenduet.checkFat, InstallOpenduet.probeFstype, InstallOpenduet.fat32SectorValid,
      InstallOpenduet.recoverSector, InstallOpenduet.captureSectors, InstallOpenduet.boot0Write,
      InstallOpenduet.settleAndWait, InstallOpenduet.waitForPartition,
      InstallOpenduet.calls_waitLoop, InstallOpenduet.pbrWrite, Cmd.isMount]
  exact (always_of_calls (A := A) (J := InstallOpenduet.Unmounted) hcalls
    (fun _ _ _ hc _ hl => List.forall_mem_cons.2 ⟨hc, hl⟩) (by simp [InstallOpenduet.Unmounted,
      State.init])).returns h

/-- **The boot sectors**: on devices of their own, both scripts write the bytes that they shall
write, the same ones from the same inputs, and no others. -/
theorem boot_sectors_apart :
    (∀ a : InstallOpenduet.Args, a.disk ≠ a.espPart → a.espPart ≠ "/dev/urandom" →
      InstallOpenduet.WritesExactly A F w₀ a) ∧
    ∀ (a : RepairEsp.Args) (root esp : String) (s : State),
      Returns A (RepairEsp.selected a) State.init (root, esp) s → a.disk ≠ esp →
        esp ≠ "/dev/urandom" → RepairEsp.WritesExactly A F w₀ a root esp s := by
  refine ⟨fun a hne hr => ⟨?_, fun n t h => ?_, fun x t h => ?_⟩, fun a root esp s hs hne hr => ?_⟩
  · exact (InstallOpenduet.framed_main hne).mono fun s h w hw => ⟨(h w hw).1.disk, (h w hw).2⟩
  · rw [InstallOpenduet.main_eq] at h
    exact returns_bind.1 h
  · exact ⟨InstallOpenduet.unmounted_upToMount h, fun I w hw =>
      InstallOpenduet.written_upToMount hne hr h I hw⟩
  · have hq := queries_of_returns (RepairEsp.calls_selected a) (by simp [State.init]) hs
    refine ⟨?_, fun n t h => ?_, fun hf hF b t h I w hw => ?_⟩
    · exact (RepairEsp.framed_repair hne hq).mono fun t h w hw => (h w hw).disk
    · rw [RepairEsp.repair_split] at h
      exact returns_bind.1 h
    · have hm : mounts s.log = [] := RepairEsp.mounts_of_queries hq
      have hens : ∀ w, After (Effect F) w₀ s.log w → Ensures (Effect F) (fun _ _ => True)
          (RepairEsp.upToVerify a root esp) (fun _ _ w' => Written I a.disk esp
            (InstallOpenduet.firstSector (w₀.dev esp)) w') s.log w := by
        intro w hw
        obtain rfl := eq_of_queries hq hw
        exact RepairEsp.has_upToVerify I hf hF hne hr hm
      exact (Ensures.sound hs.errexit hens h hw).2 b rfl

end Agreement

end Usb

end InstallKit
