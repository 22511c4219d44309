import Mathlib.Data.List.Range
import Mathlib.Tactic.Ring

/-!
# Copying between byte stores

A store is a disk or a file: so many bytes.  What two loops copy from one store to another is said
by `overlay src p q dst`, the bytes of `dst` with those of `src` on `[p, q)`.

* `dd` copies blocks until it has copied as many as were asked for or the source ends.  With
  `conv=sparse` it leaves out blocks of zeros, which makes no difference in a store that so far has
  only zeros and bytes of the source (`dd_eq`).
* `copyRange` copies chunks of a buffer, each as long as a read of the source turns out
  (`copyRange_eq`).
-/

namespace InstallKit

/-- A store of bytes; what `byte` says from `size` on is not in it. -/
structure ByteStore where
  size : ℕ
  byte : ℕ → UInt8

namespace ByteStore

/-- Up to `len` bytes from `pos` on. -/
def read (s : ByteStore) (pos len : ℕ) : List UInt8 :=
  (List.range (min len (s.size - pos))).map fun i => s.byte (pos + i)

/-- Bytes written at `pos`. -/
def write (s : ByteStore) (pos : ℕ) (data : List UInt8) : ByteStore where
  size := max s.size (pos + data.length)
  byte n := if pos ≤ n ∧ n < pos + data.length then data.getD (n - pos) 0 else s.byte n

/-- The bytes of `src` on `[p, q)`, and those of `dst` elsewhere. -/
def overlay (src : ByteStore) (p q : ℕ) (dst : ByteStore) : ByteStore where
  size := dst.size
  byte n := if p ≤ n ∧ n < q then src.byte n else dst.byte n

/-- `dd conv=notrunc,sparse` with blocks of `bs` bytes. -/
def dd (src : ByteStore) (bs : ℕ) : ℕ → ℕ → ℕ → ByteStore → ByteStore
  | 0, _, _, dst => dst
  | count + 1, skip, seek, dst =>
    match src.read (skip * bs) bs with
    | [] => dst
    | block => dd src bs count (skip + 1) (seek + 1)
        (if block.all (· = 0) then dst else dst.write (seek * bs) block)

/-- How many bytes a read of a store yields: at least one before its end. -/
structure Reader (src : ByteStore) where
  count : ℕ → ℕ → ℕ
  le_want : ∀ pos want, count pos want ≤ want
  le_rest : ∀ pos want, count pos want ≤ src.size - pos
  pos_of_lt : ∀ pos want, 0 < want → pos < src.size → 0 < count pos want

/-- Reads that yield all that is there. -/
def Reader.full (src : ByteStore) : Reader src where
  count pos want := min want (src.size - pos)
  le_want _ _ := min_le_left _ _
  le_rest _ _ := min_le_right _ _
  pos_of_lt pos want hw hp := by omega

/-- The copying of `remaining` bytes from `pos` on with a buffer; an early end is an error. -/
def copyRange {src : ByteStore} (r : Reader src) (buffer pos remaining : ℕ) (dst : ByteStore) :
    Option ByteStore :=
  if remaining = 0 then some dst
  else
    let got := r.count pos (min buffer remaining)
    if _ : got = 0 then none
    else copyRange r buffer (pos + got) (remaining - got) (dst.write pos (src.read pos got))
termination_by remaining

variable {src dst : ByteStore} {p q m n bs : ℕ}

/-! ### One piece -/

theorem length_read : (src.read p m).length = min m (src.size - p) := by
  simp [read]

theorem read_eq_nil_iff : src.read p m = [] ↔ m = 0 ∨ src.size ≤ p := by
  rw [← List.length_eq_zero_iff, length_read]
  omega

theorem getD_read (hn : n < min m (src.size - p)) : (src.read p m).getD n 0 = src.byte (p + n) := by
  rw [read, List.getD_eq_getElem?_getD, List.getElem?_map, List.getElem?_range hn]
  rfl

/-- What is read can be written over. -/
theorem write_read (h : p + min m (src.size - p) ≤ dst.size) :
    dst.write p (src.read p m) = overlay src p (p + min m (src.size - p)) dst := by
  rw [write, overlay, length_read, max_eq_left h]
  congr 1
  funext x
  split
  · next hx =>
    rw [getD_read (by omega)]
    congr 1
    omega
  · rfl

@[simp] theorem overlay_size : (overlay src p q dst).size = dst.size := rfl

theorem overlay_self (h : q ≤ p) : overlay src p q dst = dst := by
  rw [overlay]
  congr 1
  funext x
  rw [if_neg (by omega)]

/-- Two pieces that meet are one. -/
theorem overlay_overlay (hpm : p ≤ m) (hmq : m ≤ q) :
    overlay src m q (overlay src p m dst) = overlay src p q dst := by
  simp only [overlay]
  congr 1
  funext x
  split
  · rw [if_pos (by omega)]
  · next hx =>
    congr 1
    rw [eq_iff_iff]
    omega

/-- The store holds only zeros and bytes of the source. -/
def Partial (src dst : ByteStore) : Prop := ∀ n, dst.byte n = src.byte n ∨ dst.byte n = 0

theorem Partial.overlay (h : Partial src dst) (p q : ℕ) : Partial src (overlay src p q dst) := by
  intro n
  simp only [ByteStore.overlay]
  split
  · exact Or.inl rfl
  · exact h n

/-- In such a store a block of zeros need not be written. -/
theorem Partial.overlay_zeros (h : Partial src dst) (hz : ∀ n, p ≤ n → n < q → src.byte n = 0) :
    ByteStore.overlay src p q dst = dst := by
  rw [ByteStore.overlay]
  congr 1
  funext n
  split
  · next hn =>
    rcases h n with h | h
    · exact h.symm
    · rw [h, hz n hn.1 hn.2]
  · rfl

/-! ### The loops -/

/-- A block of zeros, byte by byte. -/
theorem byte_of_all_zero (h : (src.read p m).all (· = 0) = true) (hn : p ≤ n)
    (hn' : n < p + min m (src.size - p)) : src.byte n = 0 := by
  have hmem : src.byte (p + (n - p)) ∈ src.read p m :=
    List.mem_map.2 ⟨n - p, List.mem_range.2 (by omega), rfl⟩
  rw [Nat.add_sub_cancel' hn] at hmem
  exact of_decide_eq_true (List.all_eq_true.1 h _ hmem)

theorem dd_eq (hbs : 0 < bs) (hsize : dst.size = src.size) (hdst : Partial src dst)
    (count p : ℕ) : dd src bs count p p dst =
      overlay src (p * bs) (min ((p + count) * bs) src.size) dst := by
  induction count generalizing p dst with
  | zero =>
    rw [dd, overlay_self]
    exact min_le_left _ _
  | succ count ih =>
    have hlen : (p + (count + 1)) * bs = p * bs + bs + count * bs := by ring
    have hlen' : (p + 1 + count) * bs = p * bs + bs + count * bs := by ring
    have hnext : (p + 1) * bs = p * bs + bs := by ring
    rw [dd]
    split
    · next hnil =>
      -- the source has ended
      have hend := read_eq_nil_iff.1 hnil
      rw [overlay_self]
      omega
    · next hcons =>
      have hmore : p * bs < src.size := by
        by_contra hno
        exact hcons (read_eq_nil_iff.2 (Or.inr (by omega)))
      have hfits : p * bs + min bs (src.size - p * bs) ≤ dst.size := by omega
      have hwrite := write_read hfits
      have hblock : (if (src.read (p * bs) bs).all (· = 0) = true then dst
          else dst.write (p * bs) (src.read (p * bs) bs)) =
          overlay src (p * bs) (p * bs + min bs (src.size - p * bs)) dst := by
        split
        · next hz =>
          exact (hdst.overlay_zeros fun n hn hn' => byte_of_all_zero hz hn hn').symm
        · exact hwrite
      rw [hblock, ih (by rw [overlay_size, hsize]) (hdst.overlay _ _), hlen, hlen', hnext]
      -- the last block may be short
      rcases Nat.le_total bs (src.size - p * bs) with hfull | hshort
      · rw [min_eq_left hfull, overlay_overlay (by omega) (by omega)]
      · rw [min_eq_right hshort, overlay_self (by omega)]
        congr 1
        omega

theorem copyRange_eq (r : Reader src) {buffer : ℕ} (hb : 0 < buffer) (hsize : dst.size = src.size)
    (h : p + m ≤ src.size) : copyRange r buffer p m dst = some (overlay src p (p + m) dst) := by
  induction m using Nat.strong_induction_on generalizing p dst with
  | h m ih =>
    rw [copyRange]
    split
    · next hm => rw [hm, overlay_self (by omega)]
    · next hm =>
      have hwant := r.le_want p (min buffer m)
      have hrest := r.le_rest p (min buffer m)
      have hpos := r.pos_of_lt p (min buffer m) (by omega) (by omega)
      set got := r.count p (min buffer m) with hgot
      have hmin : min got (src.size - p) = got := min_eq_left hrest
      have hfits : p + min got (src.size - p) ≤ dst.size := by omega
      have hwrite := write_read hfits
      rw [dif_neg (by omega), hwrite, hmin, ih (m - got) (by omega) (by rw [overlay_size, hsize])
        (by omega), overlay_overlay (by omega) (by omega)]
      congr 2
      omega

end ByteStore

end InstallKit
