import Pure64.Codec
import Mathlib.Data.List.GetD
import Mathlib.Algebra.Group.Int

/-!
# The image file: `fseek`, `fwrite`, `fread`

`src/util/pure64.c` builds images through a `FILE *` opened `"wb+"`. The
model of such a file is its length, its bytes and the position. Writes
always complete (the file is in memory); writing past the end leaves the gap
zero-filled, as a seek past the end followed by a write does on a POSIX
file, and an empty write changes nothing; a read fails unless all its bytes are there (the code treats a short
`fread` as failure everywhere); a seek fails on a negative offset, which is
what a `uint64_t` offset of `2^63` or more becomes when it is passed to
`fseek` as a `long` (`toLong`).

`Disk.byte` is zero past the end (`zero_past`), so a write changes exactly
the bytes it covers (`byte_write`), and `region_write_of_disjoint` is the
frame rule every proof about the image builders uses.
-/

namespace Pure64

/-- An open image file: length, contents (zero past the end) and position. -/
structure Disk where
  size : Nat
  byte : Nat → UInt8
  pos : Nat
  zero_past : ∀ i, size ≤ i → byte i = 0

namespace Disk

/-- `fopen(filename, "wb+")`: an empty file. -/
def empty : Disk := ⟨0, fun _ => 0, 0, fun _ _ => rfl⟩

/-- The `n` bytes from `off`. -/
def region (d : Disk) (off n : Nat) : List UInt8 := (List.range n).map fun i => d.byte (off + i)

/-- The same file at another position. -/
def setPos (d : Disk) (p : Nat) : Disk := { d with pos := p }

/-- `fseek(file, off, SEEK_SET)`. -/
def seek (d : Disk) (off : Int) : Option Disk :=
  if 0 ≤ off then some (d.setPos off.toNat) else none

/-- `fwrite(bs, 1, bs.length, file)` at the position. -/
def write (d : Disk) (bs : List UInt8) : Disk where
  size := if bs = [] then d.size else max d.size (d.pos + bs.length)
  byte i := if d.pos ≤ i ∧ i < d.pos + bs.length then bs.getD (i - d.pos) 0 else d.byte i
  pos := d.pos + bs.length
  zero_past i h := by
    dsimp only
    split at h
    · subst bs
      simpa using d.zero_past i h
    · have := Nat.max_le.mp h
      rw [if_neg (by omega)]
      exact d.zero_past i (by omega)

/-- `fread(buf, 1, n, file)`: all `n` bytes, or a short read. -/
def read (d : Disk) (n : Nat) : Option (List UInt8 × Disk) :=
  if d.pos + n ≤ d.size then some (d.region d.pos n, d.setPos (d.pos + n)) else none

@[simp] theorem size_empty : empty.size = 0 := rfl

@[simp] theorem pos_empty : empty.pos = 0 := rfl

@[simp] theorem size_setPos (d : Disk) (p : Nat) : (d.setPos p).size = d.size := rfl

@[simp] theorem byte_setPos (d : Disk) (p : Nat) : (d.setPos p).byte = d.byte := rfl

@[simp] theorem pos_setPos (d : Disk) (p : Nat) : (d.setPos p).pos = p := rfl

@[simp] theorem region_setPos (d : Disk) (p : Nat) : (d.setPos p).region = d.region := rfl

@[simp] theorem setPos_setPos (d : Disk) (p q : Nat) : (d.setPos p).setPos q = d.setPos q := rfl

theorem size_write (d : Disk) (bs : List UInt8) :
    (d.write bs).size = if bs = [] then d.size else max d.size (d.pos + bs.length) := rfl

@[simp] theorem size_write_of_length_pos (d : Disk) {bs : List UInt8} (h : 0 < bs.length) :
    (d.write bs).size = max d.size (d.pos + bs.length) :=
  if_neg (List.ne_nil_of_length_pos h)

theorem size_le_size_write (d : Disk) (p : Nat) (bs : List UInt8) :
    d.size ≤ ((d.setPos p).write bs).size := by
  rw [size_write, size_setPos]
  split <;> omega

@[simp] theorem pos_write (d : Disk) (bs : List UInt8) :
    (d.write bs).pos = d.pos + bs.length := rfl

theorem byte_write (d : Disk) (bs : List UInt8) (i : Nat) :
    (d.write bs).byte i =
      if d.pos ≤ i ∧ i < d.pos + bs.length then bs.getD (i - d.pos) 0 else d.byte i := rfl

theorem seek_eq {d : Disk} {off : Int} (h : 0 ≤ off) : d.seek off = some (d.setPos off.toNat) :=
  if_pos h

@[simp] theorem seek_natCast (d : Disk) (off : Nat) : d.seek off = some (d.setPos off) :=
  seek_eq (Int.ofNat_zero_le off)

@[simp] theorem seek_ofNat (d : Disk) (off : Nat) :
    d.seek (no_index (OfNat.ofNat off : Int)) = some (d.setPos off) :=
  seek_natCast d off

theorem nonneg_of_seek_eq_some {d d' : Disk} {off : Int} (h : d.seek off = some d') : 0 ≤ off := by
  by_contra hn
  simp [seek, hn] at h

theorem read_eq {d : Disk} {n : Nat} (h : d.pos + n ≤ d.size) :
    d.read n = some (d.region d.pos n, d.setPos (d.pos + n)) := if_pos h

theorem read_setPos {d : Disk} {p n : Nat} (h : p + n ≤ d.size) :
    (d.setPos p).read n = some (d.region p n, d.setPos (p + n)) := read_eq h

@[simp] theorem length_region (d : Disk) (off n : Nat) : (d.region off n).length = n := by
  simp [region]

/-- Two files agreeing on a range have the same region there. -/
theorem region_congr {d d' : Disk} {off n : Nat}
    (h : ∀ i, i < n → d.byte (off + i) = d'.byte (off + i)) : d.region off n = d'.region off n :=
  List.map_congr_left fun i hi => h i (List.mem_range.mp hi)

/-- A range inside a known range. -/
theorem region_sub {d : Disk} {off m : Nat} {l : List UInt8} (h : d.region off m = l)
    {k n : Nat} (hk : k + n ≤ m) : d.region (off + k) n = (l.drop k).take n := by
  subst h
  apply List.ext_getElem (by simp; omega)
  intro i hi _
  simp only [length_region] at hi
  simp [region, Nat.add_assoc]

/-- A byte inside a known range. -/
theorem byte_of_region {d : Disk} {off n : Nat} {l : List UInt8} (h : d.region off n = l) {i : Nat}
    (hi : i < n) : d.byte (off + i) = l.getD i 0 := by
  subst h
  simp [region, hi]

/-- A write leaves every range it does not cover as it was. -/
theorem region_write_of_disjoint {d : Disk} {bs : List UInt8} {off n : Nat}
    (h : off + n ≤ d.pos ∨ d.pos + bs.length ≤ off) :
    (d.write bs).region off n = d.region off n :=
  region_congr fun i hi => by rw [byte_write, if_neg (by omega)]

/-- A write is read back where it was written. -/
theorem region_write_self (d : Disk) (bs : List UInt8) :
    (d.write bs).region d.pos bs.length = bs := by
  apply List.ext_getElem (by simp)
  intro i hi _
  simp only [region, List.getElem_map, List.getElem_range, byte_write]
  rw [if_pos (by simp at hi; omega), Nat.add_sub_cancel_left,
    List.getD_eq_getElem _ _ (by simpa using hi)]

/-- A write at `p` changes no byte outside the range it covers. -/
theorem byte_write_setPos_of_not_mem {d : Disk} {p : Nat} {bs : List UInt8} {i : Nat}
    (h : i < p ∨ p + bs.length ≤ i) : ((d.setPos p).write bs).byte i = d.byte i := by
  rw [byte_write, if_neg (by simp; omega)]
  rfl

/-- A write of zeros keeps a zero byte zero. -/
theorem byte_write_of_zero {d : Disk} {bs : List UInt8} (hbs : ∀ x ∈ bs, x = 0) {i : Nat}
    (hi : d.byte i = 0) : (d.write bs).byte i = 0 := by
  rw [byte_write]
  split_ifs with h
  · rw [List.getD_eq_getElem _ _ (by omega)]
    exact hbs _ (List.getElem_mem _)
  · exact hi

theorem byte_write_setPos_of_zero {d : Disk} {p : Nat} {bs : List UInt8} (hbs : ∀ x ∈ bs, x = 0)
    {i : Nat} (hi : d.byte i = 0) : ((d.setPos p).write bs).byte i = 0 :=
  byte_write_of_zero hbs hi

/-- A range of zero bytes. -/
theorem region_eq_replicate {d : Disk} {off n : Nat} (h : ∀ j, j < n → d.byte (off + j) = 0) :
    d.region off n = List.replicate n 0 :=
  List.ext_getElem (by simp) fun j hj _ => by
    simp only [length_region] at hj
    simp [region, h j hj]

theorem region_write_setPos_of_disjoint {d : Disk} {p : Nat} {bs : List UInt8} {off n : Nat}
    (h : off + n ≤ p ∨ p + bs.length ≤ off) : ((d.setPos p).write bs).region off n = d.region off n :=
  region_write_of_disjoint h

theorem region_write_of_pos {d : Disk} {bs : List UInt8} {p n : Nat} (hp : d.pos = p)
    (hn : bs.length = n) : (d.write bs).region p n = bs := by
  subst hp hn
  exact region_write_self d bs

/-- Adjacent ranges join. -/
theorem region_add (d : Disk) (off m n : Nat) :
    d.region off (m + n) = d.region off m ++ d.region (off + m) n := by
  simp [region, List.range_add, Nat.add_assoc]

/-- Two writes one after the other are one write of both. -/
theorem write_append (d : Disk) (a b : List UInt8) : (d.write a).write b = d.write (a ++ b) := by
  obtain ⟨size, byte, pos, hz⟩ := d
  simp only [write, List.length_append, Disk.mk.injEq, List.append_eq_nil]
  refine ⟨?_, funext fun i => ?_, by omega⟩
  · by_cases ha : a = [] <;> by_cases hb : b = [] <;> simp [ha, hb]
    omega
  by_cases hb : pos + a.length ≤ i ∧ i < pos + a.length + b.length
  · rw [if_pos hb, if_pos (by omega), List.getD_append_right _ _ _ _ (by omega)]
    congr 1
    omega
  · rw [if_neg hb]
    split
    · rw [if_pos (by omega), List.getD_append _ _ _ _ (by omega)]
    · rw [if_neg (by omega)]

end Disk

/-- `fputc` called `n` times with `0`: the loop of `zero_file_data`. -/
def zeroFileData (d : Disk) : Nat → Disk
  | 0 => d
  | n + 1 => zeroFileData (d.write [0]) n

theorem zeroFileData_eq (d : Disk) (n : Nat) : zeroFileData d n = d.write (List.replicate n 0) := by
  induction n generalizing d with
  | zero =>
    obtain ⟨size, byte, pos, hz⟩ := d
    simp only [zeroFileData, Disk.write, List.replicate, List.length_nil, Nat.add_zero,
      Disk.mk.injEq, if_true, true_and, and_true]
    exact funext fun i => by rw [if_neg (by omega)]
  | succ n ih =>
    rw [zeroFileData, ih, Disk.write_append]
    rfl

/-- A `uint64_t` passed where C expects a `long`: two's complement. -/
def toLong (v : UInt64) : Int := if v.toNat < 2 ^ 63 then v.toNat else v.toNat - 2 ^ 64

theorem toLong_of_lt {v : UInt64} (h : v.toNat < 2 ^ 63) : toLong v = v.toNat := if_pos h

theorem toLong_nonneg_iff (v : UInt64) : 0 ≤ toLong v ↔ v.toNat < 2 ^ 63 := by
  unfold toLong
  have := uint64_toNat_lt v
  split <;> omega

end Pure64
