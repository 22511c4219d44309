import InstallKit.Shell.Worlds
import InstallKit.Sources.Text
import InstallKit.Usb.Common
import InstallKit.Usb.Mounts

/-!
# Bytes of devices and files

The world of the boot-sector writers: the bytes of the devices, by name, and of the files, by path.
`dd` copies a window of its input over a window of its output (`ddData`, `splice`); a `dd` that
fails may have written any part of that window.

What a file system does to the bytes of the partition below it is a parameter `F`: a volume that
held the bytes `b` when it was mounted may hold any `b'` with `F b b'` once it is unmounted, and
anything in between.  Everything else that `Effect` does not mention leaves devices and files as
they were, and unmounting a volume that the script has not mounted itself writes nothing.
-/

namespace InstallKit

namespace Usb

open Shell

/-- The bytes of a file or of a device. -/
abbrev Image := List UInt8

/-! ### Windows -/

/-- `data` over the bytes from `n` on; a gap before it is filled with zeros. -/
def splice (b : Image) (n : ℕ) (data : Image) : Image :=
  b.take n ++ List.replicate (n - b.length) 0 ++ data ++ b.drop (n + data.length)

/-- The bytes that `dd` reads. -/
def ddData (b : Image) (bs : ℕ) (count : Option ℕ) (skip : ℕ) : Image :=
  match count with
  | none => b.drop (skip * bs)
  | some n => (b.drop (skip * bs)).take (n * bs)

variable {b data : Image} {n i : ℕ}

theorem splice_getElem?_of_lt (hi : i < n) (hn : n ≤ b.length) : (splice b n data)[i]? = b[i]? := by
  have h₁ : i < (b.take n).length := by rw [List.length_take]; omega
  rw [splice, List.append_assoc, List.append_assoc, List.getElem?_append_left h₁,
    List.getElem?_take_of_lt hi]

theorem splice_getElem?_mid (hi : n ≤ i) (hi' : i < n + data.length) (hn : n ≤ b.length) :
    (splice b n data)[i]? = data[i - n]? := by
  have h₁ : (b.take n ++ List.replicate (n - b.length) 0).length = n := by
    rw [List.length_append, List.length_take, List.length_replicate]
    omega
  have h₂ : i < (b.take n ++ List.replicate (n - b.length) 0 ++ data).length := by
    rw [List.length_append, h₁]
    exact hi'
  rw [splice, List.getElem?_append_left h₂, List.getElem?_append_right (by omega), h₁]

theorem splice_getElem?_of_le (hi : n + data.length ≤ i) (hn : n ≤ b.length) :
    (splice b n data)[i]? = b[i]? := by
  have h₁ : (b.take n ++ List.replicate (n - b.length) 0 ++ data).length = n + data.length := by
    rw [List.length_append, List.length_append, List.length_take, List.length_replicate]
    omega
  rw [splice, List.getElem?_append_right (by omega), h₁, List.getElem?_drop]
  congr 1
  omega

/-- **A window over an image**, byte by byte. -/
theorem splice_getElem? (hn : n ≤ b.length) :
    (splice b n data)[i]? = if n ≤ i ∧ i < n + data.length then data[i - n]? else b[i]? := by
  split
  · rename_i h
    exact splice_getElem?_mid h.1 h.2 hn
  · rename_i h
    by_cases hi : i < n
    · exact splice_getElem?_of_lt hi hn
    · exact splice_getElem?_of_le (by omega) hn

@[simp] theorem length_splice (hn : n + data.length ≤ b.length) :
    (splice b n data).length = b.length := by
  simp only [splice, List.length_append, List.length_take, List.length_replicate,
    List.length_drop]
  omega

/-! ### The world -/

/-- The devices by name, and the files by path. -/
structure Store where
  dev : String → Image
  files : Loc → Option Image
  /-- The bytes that a device had when it was last mounted read-write. -/
  mounted : String → Image

/-- What a path gives when it is read: the scripts name devices, and only devices, by a path from
the command line or `/dev/urandom`. -/
def Store.read (w : Store) : Loc → Option Image
  | .host path => some (w.dev path)
  | p => w.files p

/-- The first path is the second one, or below it. -/
def Loc.Under : Loc → Loc → Prop
  | .sub p rel, q => .sub p rel = q ∨ p.Under q
  | p, q => p = q

/-- A path leads into a volume that the script has mounted read-write from the device. -/
def onVolume (l : Log) (p : Loc) (dev : String) : Prop :=
  ∃ m ∈ mounts l, m.rw = true ∧ p.Enters m.dir ∧ m.dev = dev

/-- The bytes of the device may change. -/
def Cmd.MayChange (l : Log) : Cmd → String → Prop
  | .query _, _ | .show _, _ | .settle _, _ | .sync, _ | .mktemp _, _ | .rmdir _, _ => False
  | .dd _ (.disk dev) .., d | .dd _ (.part dev) .., d => d = dev
  | .dd _ (.file p) .., d | .dd _ (.patch p) .., d => onVolume l p d
  | .mkfs _ dev, d => d = dev
  | .mount _ rw dev _, d => rw = true ∧ d = dev
  | .umount dir _, d => onVolume l dir d
  | .cp _ dst, d | .rsync _ dst, d => onVolume l dst d
  | .mkdir ps, d | .rm ps, d | .chmod ps, d => ∃ p ∈ ps, onVolume l p d
  | _, _ => True

/-- The file may change. -/
def Cmd.MayWrite : Cmd → Loc → Prop
  | .query _, _ | .show _, _ | .settle _, _ | .sync, _ | .mkdir _, _ | .rmdir _, _ => False
  | .chmod _, _ | .mkfs .., _ | .mount .., _ | .umount .., _ => False
  | .dd _ (.disk _) .., _ | .dd _ (.part _) .., _ => False
  | .dd _ (.file q) .., p | .dd _ (.patch q) .., p => p = q
  | .cp _ q, p | .rsync _ q, p => p.Under q
  | .rm qs, p => ∃ q ∈ qs, p.Under q ∨ q.Enters p.root
  | .mktemp _, p => ∃ sub, p.root = .tmp sub
  | _, _ => True

/-- The output of a `dd` that read `data`. -/
def Wrote (w w' : Store) (data : Image) (n : ℕ) : Dest → Prop
  | .file p => w'.files p = some (splice (((w.files p).getD []).take n) n data)
  | .patch p => w'.files p = some (splice ((w.files p).getD []) n data)
  | .disk dev | .part dev =>
    n + data.length ≤ (w.dev dev).length ∧ w'.dev dev = splice (w.dev dev) n data

/-- The output of a `dd` that failed: some bytes of the window. -/
def WrotePart (w w' : Store) (size : Option ℕ) (n : ℕ) : Dest → Prop
  | .file _ | .patch _ => True
  | .disk dev | .part dev =>
    ∃ data, (∀ k, size = some k → data.length ≤ k) ∧ n + data.length ≤ (w.dev dev).length ∧
      w'.dev dev = splice (w.dev dev) n data

/-- Bytes in a variable: the shell drops the zeros, and newlines at the end. -/
def rawText (b : Image) : List Char :=
  ((((b.filter (· ≠ 0)).map fun x => Char.ofNat x.toNat).reverse).dropWhile (· = '\n')).reverse

/-- The digits that `od -An -tx1 | tr -d ' \n'` prints. -/
def hexText (b : Image) : List Char :=
  b.flatMap fun x => [Nat.digitChar (x.toNat / 16), Nat.digitChar (x.toNat % 16)]

theorem digitChar_injOn :
    ∀ m < 16, ∀ n < 16, Nat.digitChar m = Nat.digitChar n → m = n := by
  decide

theorem hexText_injective : Function.Injective hexText := by
  intro b b' h
  induction b generalizing b' with
  | nil =>
    cases b' with
    | nil => rfl
    | cons y b' => simp [hexText] at h
  | cons x b ih =>
    cases b' with
    | nil => simp [hexText] at h
    | cons y b' =>
      have hx := x.toNat_lt
      have hy := y.toNat_lt
      simp only [hexText, List.flatMap_cons, List.cons_append, List.nil_append,
        List.cons.injEq] at h
      have h₁ := digitChar_injOn _ (by omega) _ (by omega) h.1
      have h₂ := digitChar_injOn _ (by omega) _ (by omega) h.2.1
      obtain rfl : x = y := UInt8.toNat_inj.1 (by omega)
      rw [ih h.2.2]

theorem charOfByte_injective : Function.Injective fun x : UInt8 => Char.ofNat x.toNat := by
  have htoNat : ∀ x : UInt8, (Char.ofNat x.toNat).toNat = x.toNat := fun x =>
    Sources.toNat_charOfNat (Or.inl (lt_trans x.toNat_lt (by decide)))
  intro x y h
  have h' : (Char.ofNat x.toNat).toNat = (Char.ofNat y.toNat).toNat := congrArg Char.toNat h
  rw [htoNat, htoNat] at h'
  exact UInt8.toNat_inj.1 h'

/-- The start of a variable tells the bytes up to zeros. -/
theorem prefix_of_rawText {b t : Image} (h : (t.map fun x => Char.ofNat x.toNat) <+: rawText b) :
    t <+: b.filter (· ≠ 0) := by
  have hpre : rawText b <+: (b.filter (· ≠ 0)).map fun x => Char.ofNat x.toNat := by
    rw [← List.reverse_suffix, rawText, List.reverse_reverse]
    exact List.dropWhile_suffix _
  obtain ⟨s, hs⟩ := h.trans hpre
  obtain ⟨t', s', ht, ht', -⟩ := List.map_eq_append_iff.1 hs.symm
  rw [ht, List.map_injective_iff.2 charOfByte_injective ht']
  exact List.prefix_append _ _

/-- What a command did, as far as its reply tells. -/
def Did (w w' : Store) (r : Reply) : Cmd → Prop
  | .dd src dst bs count skip seek =>
    if r.ok then ∃ b, w.read src = some b ∧ Wrote w w' (ddData b bs count skip) (seek * bs) dst
    else WrotePart w w' (count.map (· * bs)) (seek * bs) dst
  | .cp src dst => r.ok = true → ∀ b, w.files src = some b → w'.files dst = some b
  | .query (.sector dev skip count od) =>
    ∃ b, b <+: ((w.dev dev).drop skip).take count ∧
      r.text.toList = if od then hexText b else rawText b
  | .query (.statSize p) => r.ok = true → ∃ b, w.files p = some b ∧ r.text = toString b.length
  | _ => True

/-- The command mounts the device read-write. -/
def Cmd.Mounts (c : Cmd) (r : Reply) (d : String) : Prop :=
  ∃ opts dir, c = .mount opts true d dir ∧ r.ok = true

/-- What a command may make of the world. -/
structure Effect (F : Image → Image → Prop) (l : Log) (c : Cmd) (r : Reply) (w w' : Store) :
    Prop where
  dev : ∀ d, ¬ c.MayChange l d → w'.dev d = w.dev d
  files : ∀ p, ¬ c.MayWrite p → w'.files p = w.files p
  mount : ∀ d, c.Mounts r d → w'.mounted d = w.dev d
  mounted : ∀ d, ¬ c.Mounts r d → w'.mounted d = w.mounted d
  umount : ∀ dir quiet, c = .umount dir quiet → r.ok = true → ∀ d, onVolume l dir d →
    F (w.mounted d) (w'.dev d)
  did : Did w w' r c

/-! ### The idioms of the scripts in a world -/

section Idioms

variable {W : Type} {E : Log → Cmd → Reply → W → W → Prop} {I : Log → W → Prop} {l : Log} {w : W}

theorem ensures_exec {c : Cmd} {Q : Unit → Log → W → Prop} (hI : I l w)
    (h : ∀ r w', E l c r w w' → I ((c, r) :: l) w' ∧ (r.ok = true → Q () ((c, r) :: l) w')) :
    Ensures E I (exec c) Q l w := by
  refine ⟨hI, fun r w' hE => ?_⟩
  obtain ⟨hI', hQ⟩ := h r w' hE
  exact ⟨hI', fun hr => ⟨hI', hQ (Reply.ok_iff.2 (hr rfl))⟩⟩

theorem ensures_ask {q : Query} {Q : Reply → Log → W → Prop} (hI : I l w)
    (h : ∀ r w', E l (.query q) r w w' →
      I ((.query q, r) :: l) w' ∧ Q r ((.query q, r) :: l) w') :
    Ensures E I (ask q) Q l w :=
  ⟨hI, fun r w' hE => ⟨(h r w' hE).1, fun _ => h r w' hE⟩⟩

theorem ensures_orDie {b : Bool} {msg : String} {Q : Unit → Log → W → Prop} (hI : I l w)
    (h : b = true → Q () l w) : Ensures E I (orDie b msg) Q l w := by
  cases b with
  | false => exact hI
  | true => exact ⟨hI, h rfl⟩

end Idioms

/-! ### Commands that leave the devices alone -/

/-- The command changes no device but those of mounted volumes, and it mounts none. -/
def Cmd.Idle (c : Cmd) : Prop :=
  ∀ l r, (∀ d, c.MayChange l d → ∃ m ∈ mounts l, m.dev = d) ∧ mounts ((c, r) :: l) ⊆ mounts l

theorem Cmd.Idle.unmounted {c : Cmd} {l : Log} (h : c.Idle) (r : Reply) (hm : mounts l = []) :
    (∀ d, ¬ c.MayChange l d) ∧ mounts ((c, r) :: l) = [] := by
  obtain ⟨hd, hl⟩ := h l r
  rw [hm] at hd hl
  exact ⟨fun d hc => by simpa using hd d hc, List.subset_nil.1 hl⟩

theorem exists_of_onVolume {l : Log} {p : Loc} {d : String} (h : onVolume l p d) :
    ∃ m ∈ mounts l, m.dev = d := by
  obtain ⟨m, hm, -, -, hd⟩ := h
  exact ⟨m, hm, hd⟩

theorem not_onVolume {l : Log} (h : mounts l = []) (p : Loc) (d : String) : ¬ onVolume l p d := by
  simp [onVolume, h]

@[simp] theorem idle_query (q : Query) : (Cmd.query q).Idle :=
  fun _ _ => ⟨fun _ hd => hd.elim, List.Subset.refl _⟩

@[simp] theorem idle_settle (what : String) : (Cmd.settle what).Idle :=
  fun _ _ => ⟨fun _ hd => hd.elim, List.Subset.refl _⟩

@[simp] theorem idle_sync : Cmd.sync.Idle :=
  fun _ _ => ⟨fun _ hd => hd.elim, List.Subset.refl _⟩

@[simp] theorem idle_mktemp (p : Loc) : (Cmd.mktemp p).Idle :=
  fun _ _ => ⟨fun _ hd => hd.elim, List.Subset.refl _⟩

@[simp] theorem idle_umount (p : Loc) (quiet : Bool) : (Cmd.umount p quiet).Idle := by
  refine fun l r => ⟨fun _ hd => exists_of_onVolume hd, ?_⟩
  simp only [mounts]
  split
  · exact List.eraseP_subset
  · exact List.Subset.refl _

@[simp] theorem idle_mkdir (ps : List Loc) : (Cmd.mkdir ps).Idle :=
  fun _ _ => ⟨fun _ ⟨_, _, hd⟩ => exists_of_onVolume hd, List.Subset.refl _⟩

@[simp] theorem idle_rm (ps : List Loc) : (Cmd.rm ps).Idle :=
  fun _ _ => ⟨fun _ ⟨_, _, hd⟩ => exists_of_onVolume hd, List.Subset.refl _⟩

@[simp] theorem idle_cp (src dst : Loc) : (Cmd.cp src dst).Idle :=
  fun _ _ => ⟨fun _ hd => exists_of_onVolume hd, List.Subset.refl _⟩

@[simp] theorem idle_ddFile (src p : Loc) (bs : ℕ) (count : Option ℕ) (skip seek : ℕ) :
    (Cmd.dd src (.file p) bs count skip seek).Idle :=
  fun _ _ => ⟨fun _ hd => exists_of_onVolume hd, List.Subset.refl _⟩

@[simp] theorem idle_ddPatch (src p : Loc) (bs : ℕ) (count : Option ℕ) (skip seek : ℕ) :
    (Cmd.dd src (.patch p) bs count skip seek).Idle :=
  fun _ _ => ⟨fun _ hd => exists_of_onVolume hd, List.Subset.refl _⟩

/-! ### Queries -/

/-- A query leaves the world as it is. -/
theorem eq_of_query {F : Image → Image → Prop} {l : Log} {q : Query} {r : Reply} {w w' : Store}
    (h : Effect F l (.query q) r w w') : w' = w := by
  have hdev : w'.dev = w.dev := funext fun d => h.dev d fun hd => hd
  have hfiles : w'.files = w.files := funext fun p => h.files p fun hp => hp
  have hmounted : w'.mounted = w.mounted :=
    funext fun d => h.mounted d fun ⟨_, _, hc, _⟩ => by cases hc
  cases w
  cases w'
  simp_all

theorem eq_of_queries {F : Image → Image → Prop} {l : Log} {w₀ w : Store}
    (hl : ∀ e ∈ l, ∃ q, e.1 = .query q) (hw : After (Effect F) w₀ l w) : w = w₀ := by
  induction l generalizing w with
  | nil => exact hw
  | cons e l ih =>
    obtain ⟨v, hv, hE⟩ := hw
    obtain ⟨q, hq⟩ := hl e List.mem_cons_self
    rw [hq] at hE
    rw [eq_of_query hE, ih (fun e he => hl e (List.mem_cons_of_mem _ he)) hv]

theorem queries_of_returns {α : Type} {A : Log → Cmd → Reply → Prop} {p : Sh α} {a : α}
    {s t : State} (hp : p.Calls fun c => ∃ q, c = .query q)
    (hs : ∀ e ∈ s.log, ∃ q, e.1 = .query q) (h : Returns A p s a t) :
    ∀ e ∈ t.log, ∃ q, e.1 = .query q :=
  (always_of_calls (A := A) (J := fun l => ∀ e ∈ l, ∃ q, e.1 = .query q) hp
    (fun _ _ _ hc _ hl => List.forall_mem_cons.2 ⟨hc, hl⟩) hs).returns h

/-! ### A world in which the commands succeed -/

/-- Replace a file. -/
def Store.setFile (w : Store) (p : Loc) (b : Image) : Store :=
  ⟨w.dev, fun q => if q = p then some b else w.files q, w.mounted⟩

/-- Replace the bytes of a device. -/
def Store.setDev (w : Store) (dev : String) (b : Image) : Store :=
  ⟨fun d => if d = dev then b else w.dev d, w.files, w.mounted⟩

/-- The output of a `dd`. -/
def Store.put (w : Store) (n : ℕ) (data : Image) : Dest → Store
  | .file p => w.setFile p (splice (((w.files p).getD []).take n) n data)
  | .patch p => w.setFile p (splice ((w.files p).getD []) n data)
  | .disk dev | .part dev => w.setDev dev (splice (w.dev dev) n data)

/-- What a successful command makes of the world, where nothing is mounted. -/
def Store.perform (w : Store) : Cmd → Store
  | .dd src dst bs count skip seek =>
    match w.read src with
    | some b => w.put (seek * bs) (ddData b bs count skip) dst
    | none => w
  | .cp src dst =>
    match w.files src with
    | some b => w.setFile dst b
    | none => w
  | _ => w

/-- The window lies inside the device. -/
def Store.fits (w : Store) (n : ℕ) (data : Image) : Dest → Bool
  | .file _ | .patch _ => true
  | .disk dev | .part dev => n + data.length ≤ (w.dev dev).length

/-- The reply is the one that the world gives, and nothing is mounted or unmounted. -/
def Store.allows (w : Store) (r : Reply) : Cmd → Bool
  | .mount .. | .umount .. => false
  | .dd src dst bs count skip seek =>
    match w.read src with
    | some b => r.ok && w.fits (seek * bs) (ddData b bs count skip) dst
    | none => false
  | .query (.sector dev skip count od) =>
    let b := ((w.dev dev).drop skip).take count
    r.text.toList = if od then hexText b else rawText b
  | .query (.statSize p) =>
    match w.files p with
    | some b => r.text = toString b.length
    | none => !r.ok
  | _ => true

theorem Loc.under_refl (p : Loc) : p.Under p := by
  cases p with
  | sub p rel => exact Or.inl rfl
  | _ => rfl

theorem wrote_put {w : Store} {dst : Dest} (h : w.fits n data dst = true) :
    Wrote w (w.put n data dst) data n dst := by
  cases dst with
  | file p => exact if_pos rfl
  | patch p => exact if_pos rfl
  | disk dev => exact ⟨of_decide_eq_true h, if_pos rfl⟩
  | part dev => exact ⟨of_decide_eq_true h, if_pos rfl⟩

variable {F : Image → Image → Prop} {w w₀ : Store} {c : Cmd} {r : Reply} {l : Log}

theorem did_perform (h : w.allows r c = true) : Did w (w.perform c) r c := by
  cases c with
  | dd src dst bs count skip seek =>
    simp only [Store.allows] at h
    split at h
    · rename_i b hb
      rw [Bool.and_eq_true] at h
      simp only [Did, h.1, if_true, hb, Option.some.injEq, exists_eq_left', Store.perform]
      exact wrote_put h.2
    · simp at h
  | cp src dst =>
    intro _ b hb
    simp [Store.perform, Store.setFile, hb]
  | query q =>
    cases q with
    | sector dev skip count od => exact ⟨_, List.prefix_refl _, of_decide_eq_true h⟩
    | statSize p =>
      intro hr
      simp only [Store.allows] at h
      split at h
      · rename_i b hb
        exact ⟨b, hb, of_decide_eq_true h⟩
      · simp [hr] at h
    | _ => trivial
  | _ => trivial

@[simp] theorem mounted_perform (w : Store) (c : Cmd) : (w.perform c).mounted = w.mounted := by
  cases c with
  | dd src dst bs count skip seek =>
    simp only [Store.perform]
    split
    · cases dst <;> rfl
    · rfl
  | cp src dst => simp only [Store.perform]; split <;> rfl
  | _ => rfl

theorem dev_perform {d : String} (hd : ¬ c.MayChange l d) : (w.perform c).dev d = w.dev d := by
  cases c with
  | dd src dst bs count skip seek =>
    simp only [Store.perform]
    split
    · cases dst with
      | file p => rfl
      | patch p => rfl
      | disk dev => exact if_neg hd
      | part dev => exact if_neg hd
    · rfl
  | cp src dst => simp only [Store.perform]; split <;> rfl
  | _ => rfl

theorem files_perform {p : Loc} (hp : ¬ c.MayWrite p) : (w.perform c).files p = w.files p := by
  cases c with
  | dd src dst bs count skip seek =>
    simp only [Store.perform]
    split
    · cases dst with
      | file q => exact if_neg hp
      | patch q => exact if_neg hp
      | disk dev => rfl
      | part dev => rfl
    · rfl
  | cp src dst =>
    have hne : p ≠ dst := fun he => hp (he ▸ Loc.under_refl p)
    simp only [Store.perform]
    split
    · exact if_neg hne
    · rfl
  | _ => rfl

/-- **The world goes on as the commands say.** -/
theorem effect_perform (h : w.allows r c = true) : Effect F l c r w (w.perform c) where
  dev _ hd := dev_perform hd
  files _ hp := files_perform hp
  mount d hd := by
    obtain ⟨opts, dir, rfl, -⟩ := hd
    cases h
  mounted d _ := congrFun (mounted_perform w c) d
  umount dir quiet hc := by
    subst hc
    cases h
  did := did_perform h

/-- The world after a log. -/
def Store.performs (w : Store) : Log → Store
  | [] => w
  | (c, _) :: l => (w.performs l).perform c

/-- Every reply of a log is the one that the world gives. -/
def Store.allowsAll (w : Store) : Log → Bool
  | [] => true
  | (c, r) :: l => w.allowsAll l && (w.performs l).allows r c

theorem after_performs (h : w₀.allowsAll l = true) :
    After (Effect F) w₀ l (w₀.performs l) := by
  induction l with
  | nil => rfl
  | cons e l ih =>
    rw [Store.allowsAll, Bool.and_eq_true] at h
    exact ⟨_, ih h.1, effect_perform h.2⟩

end Usb

end InstallKit
