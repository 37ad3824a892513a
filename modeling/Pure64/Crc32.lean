import Mathlib.RingTheory.AdjoinRoot
import Mathlib.Algebra.CharP.Two
import Mathlib.Tactic.ComputeDegree

/-!
# `crc32`: the reflected shift register of `src/util/pure64.c`

`crc32` starts the register at `0xFFFFFFFF`, folds each byte in with an
exclusive or, shifts eight times — dropping the low bit and, when it was
set, adding `0xEDB88320` — and returns the complement. The byte loop is
`crcByte`, the inner loop `crcShifts`.

The specification is polynomial arithmetic over GF(2): a register word is
the polynomial `wordPoly` (bit `i` the coefficient of `x^(31 - i)`), one
shift is multiplication by `x` modulo `G(x)` (`wordPoly_crcShift`), and the
computation runs in `AdjoinRoot G`, where congruence modulo `G` is equality.
The polynomial definitions are generic in the ring, so that they stay
computable; the statements take them at `(ZMod 2)[X]`.

Main result:

> `crc32_eq_crcPoly`: `crc32 m` is CRC-32/ISO-HDLC: the reflected remainder
> of `x^32 M(x) + x^(8n) (x^31 + ... + x + 1)` modulo `G(x)`, complemented.
-/

namespace Pure64

/-- One pass of the inner loop: `mask = -(crc & 1)`,
`crc = (crc >> 1) ^ (0xEDB88320 & mask)`. -/
def crcShift (crc : UInt32) : UInt32 := (crc >>> 1) ^^^ (0xEDB88320 &&& (0 - (crc &&& 1)))

/-- The inner loop, `n` passes. -/
def crcShifts : Nat → UInt32 → UInt32
  | 0, crc => crc
  | n + 1, crc => crcShifts n (crcShift crc)

/-- One pass of the outer loop: `crc = crc ^ byte`, then eight shifts. -/
def crcByte (crc : UInt32) (b : UInt8) : UInt32 := crcShifts 8 (crc ^^^ b.toUInt32)

/-- `crc32(buf, buf_size)`. -/
def crc32 (buf : List UInt8) : UInt32 := ~~~(buf.foldl crcByte 0xFFFFFFFF)

open Polynomial

section Spec
variable {R : Type} [CommSemiring R]

/-- `G(x)`, the CRC-32 generator `0x04C11DB7` with its leading term. -/
def crcGenerator (x : R) : R :=
  x ^ 32 + x ^ 26 + x ^ 23 + x ^ 22 + x ^ 16 + x ^ 12 + x ^ 11 + x ^ 10 + x ^ 8 + x ^ 7 + x ^ 5 +
    x ^ 4 + x ^ 2 + x + 1

/-- A bit as a coefficient. -/
def bitVal (b : Bool) : R := if b then 1 else 0

/-- The bits of a byte in the order the register takes them: least significant first. -/
def byteBits (b : UInt8) : List Bool := (List.range 8).map b.toNat.testBit

/-- The bits of a message, byte after byte. -/
def messageBits (m : List UInt8) : List Bool := m.flatMap byteBits

/-- The polynomial with coefficients `bits` at `x`, the first bit of highest
degree (Horner's rule). -/
def bitsPoly (x : R) (bits : List Bool) : R := bits.foldl (fun acc bit => acc * x + bitVal bit) 0

/-- `M(x)`, the message polynomial. -/
def messagePoly (x : R) (m : List UInt8) : R := bitsPoly x (messageBits m)

/-- The register as a polynomial, reflected: bit `i` is the coefficient of `x^(31 - i)`. -/
def wordPoly (x : R) (w : UInt32) : R :=
  ∑ i in Finset.range 32, bitVal (w.toBitVec.getLsbD i) * x ^ (31 - i)

@[simp] theorem bitVal_true : bitVal true = (1 : R) := rfl
@[simp] theorem bitVal_false : bitVal false = (0 : R) := rfl

theorem foldl_horner (x : R) (bits : List Bool) (acc : R) :
    bits.foldl (fun acc bit => acc * x + bitVal bit) acc = acc * x ^ bits.length + bitsPoly x bits := by
  induction bits generalizing acc with
  | nil => simp [bitsPoly]
  | cons b bits ih =>
    rw [List.foldl_cons, ih, show bitsPoly x (b :: bits) = (0 * x + bitVal b) * x ^ bits.length +
      bitsPoly x bits from ih _, List.length_cons]
    ring

theorem bitsPoly_append (x : R) (l₁ l₂ : List Bool) :
    bitsPoly x (l₁ ++ l₂) = bitsPoly x l₁ * x ^ l₂.length + bitsPoly x l₂ := by
  rw [bitsPoly, List.foldl_append, foldl_horner, ← bitsPoly]

theorem length_messageBits (m : List UInt8) : (messageBits m).length = 8 * m.length := by
  induction m with
  | nil => rfl
  | cons b m ih => simp [messageBits, byteBits] at ih ⊢; omega

theorem messagePoly_cons (x : R) (b : UInt8) (m : List UInt8) :
    messagePoly x (b :: m) = bitsPoly x (byteBits b) * x ^ (8 * m.length) + messagePoly x m := by
  rw [messagePoly, messageBits, List.flatMap_cons, bitsPoly_append, ← messageBits,
    length_messageBits, ← messagePoly]

end Spec


/-! ## The register as a polynomial over GF(2) -/

theorem and_one_eq (crc : UInt32) : crc &&& 1 = if crc.toBitVec.getLsbD 0 then 1 else 0 := by
  apply UInt32.eq_of_toBitVec_eq
  apply BitVec.eq_of_getLsbD_eq
  intro i
  have hand : (crc &&& 1).toBitVec = crc.toBitVec &&& 1 := rfl
  split <;> rename_i h <;> by_cases h0 : (i : Nat) = 0 <;> simp_all

/-- The mask `-(crc & 1)` selects the polynomial exactly when the low bit is set. -/
theorem crcShift_eq (crc : UInt32) :
    crcShift crc = (crc >>> 1) ^^^ if crc.toBitVec.getLsbD 0 then 0xEDB88320 else 0 := by
  rw [crcShift, and_one_eq]
  split <;> rfl

theorem bitVal_xor (a b : Bool) : (bitVal (a ^^ b) : (ZMod 2)[X]) = bitVal a + bitVal b := by
  cases a <;> cases b <;> simp [CharTwo.add_self_eq_zero]

theorem wordPoly_xor (a b : UInt32) :
    wordPoly (X : (ZMod 2)[X]) (a ^^^ b) = wordPoly X a + wordPoly X b := by
  simp only [wordPoly, ← Finset.sum_add_distrib, ← add_mul]
  refine Finset.sum_congr rfl fun i _ => ?_
  rw [show (a ^^^ b).toBitVec = a.toBitVec ^^^ b.toBitVec from rfl, BitVec.getLsbD_xor, bitVal_xor]

theorem wordPoly_zero : wordPoly (X : (ZMod 2)[X]) 0 = 0 := by
  simp [wordPoly]

theorem X_mul_wordPoly (c : UInt32) :
    X * wordPoly (X : (ZMod 2)[X]) c =
      wordPoly X (c >>> 1) + bitVal (c.toBitVec.getLsbD 0) * X ^ 32 := by
  have hs : (c >>> 1).toBitVec = c.toBitVec >>> 1 := rfl
  have hshift : wordPoly (X : (ZMod 2)[X]) (c >>> 1) =
      ∑ i in Finset.range 31, bitVal (c.toBitVec.getLsbD (i + 1)) * X ^ (31 - i) := by
    rw [wordPoly, Finset.sum_range_succ, hs, BitVec.getLsbD_ushiftRight,
      BitVec.getLsbD_ge _ _ (by omega), bitVal_false, zero_mul, add_zero]
    exact Finset.sum_congr rfl fun i _ => by rw [BitVec.getLsbD_ushiftRight, Nat.add_comm]
  rw [hshift, wordPoly, Finset.mul_sum, Finset.sum_range_succ']
  congr 1
  · refine Finset.sum_congr rfl fun i hi => ?_
    rw [Finset.mem_range] at hi
    rw [mul_left_comm, ← pow_succ']
    congr 2
    omega
  · ring

theorem wordPoly_poly : wordPoly (X : (ZMod 2)[X]) 0xEDB88320 + X ^ 32 = crcGenerator X := by
  simp only [wordPoly, bitVal, UInt32.toBitVec_ofNat, ite_mul, one_mul, zero_mul, Finset.sum_range_succ,
    Finset.range_one, Finset.sum_singleton, BitVec.reduceGetLsb, Bool.false_eq_true, if_true, if_false,
    add_zero, Nat.reduceSub, zero_add, pow_one, tsub_self, pow_zero, crcGenerator]
  ring

/-- One shift multiplies the register by `x` and subtracts `G` when the
dropped coefficient of `x^32` was set. -/
theorem wordPoly_crcShift (c : UInt32) :
    wordPoly (X : (ZMod 2)[X]) (crcShift c) + bitVal (c.toBitVec.getLsbD 0) * crcGenerator X =
      X * wordPoly X c := by
  rw [crcShift_eq, wordPoly_xor, X_mul_wordPoly, ← wordPoly_poly]
  cases c.toBitVec.getLsbD 0
  · simp [wordPoly_zero]
  · have h2 := CharTwo.add_self_eq_zero (wordPoly (X : (ZMod 2)[X]) 0xEDB88320)
    simp only [if_true, bitVal_true, one_mul]
    linear_combination h2

/-- A byte folded into the low bits of the register is its bits at degrees 31 down to 24. -/
theorem wordPoly_toUInt32 (b : UInt8) :
    wordPoly (X : (ZMod 2)[X]) b.toUInt32 = X ^ 24 * bitsPoly X (byteBits b) := by
  have hb : ∀ i, 8 ≤ i → b.toNat.testBit i = false := fun i hi =>
    Nat.testBit_eq_false_of_lt (lt_of_lt_of_le (UInt8.toNat_lt_size b)
      (show 2 ^ 8 ≤ 2 ^ i from Nat.pow_le_pow_right (by omega) hi))
  have hw : ∀ i, b.toUInt32.toBitVec.getLsbD i = b.toNat.testBit i := fun _ => rfl
  simp only [wordPoly, hw, Finset.sum_range_succ, Finset.range_one, Finset.sum_singleton, Nat.testBit_zero,
    tsub_zero, Nat.add_one_sub_one, Nat.reduceSub, le_refl, hb, bitVal_false, zero_mul, add_zero,
    Nat.reduceLeDiff, pow_one, tsub_self, pow_zero, mul_one, bitsPoly, byteBits, List.range_succ,
    List.range_zero, List.nil_append, List.singleton_append, List.cons_append, List.map_cons, List.map_nil,
    List.foldl_cons, zero_add, List.foldl_nil]
  ring

theorem wordPoly_allOnes : wordPoly (X : (ZMod 2)[X]) 0xFFFFFFFF = ∑ k in Finset.range 32, X ^ k := by
  rw [wordPoly, ← Finset.sum_range_reflect]
  refine Finset.sum_congr rfl fun i hi => ?_
  rw [Finset.mem_range] at hi
  have : (0xFFFFFFFF : UInt32).toBitVec.getLsbD (32 - 1 - i) = true := by
    rw [show (0xFFFFFFFF : UInt32).toBitVec = BitVec.allOnes 32 from rfl, BitVec.getLsbD_allOnes]
    simp
    omega
  rw [this, bitVal_true, one_mul]
  congr 1
  omega

theorem coeff_wordPoly (w : UInt32) (k : Nat) :
    (wordPoly (X : (ZMod 2)[X]) w).coeff k =
      if k < 32 then bitVal (w.toBitVec.getLsbD (31 - k)) else 0 := by
  have hC : ∀ b : Bool, (bitVal b : (ZMod 2)[X]) = C (bitVal b) := fun b => by cases b <;> simp
  simp only [wordPoly, finset_sum_coeff, hC, coeff_C_mul_X_pow]
  split_ifs with hk
  · rw [Finset.sum_eq_single (31 - k)]
    · rw [if_pos (by omega)]
    · intro i hi hne
      rw [Finset.mem_range] at hi
      rw [if_neg (by omega)]
    · intro h
      simp only [Finset.mem_range] at h
      omega
  · exact Finset.sum_eq_zero fun i hi => if_neg (by rw [Finset.mem_range] at hi; omega)

/-! ## Modulo the generator -/

theorem degree_crcGenerator : (crcGenerator (X : (ZMod 2)[X])).degree = 32 := by
  unfold crcGenerator
  compute_degree!

/-- Over `ZMod 2` a nonzero leading coefficient is `1`. -/
theorem crcGenerator_monic : (crcGenerator (X : (ZMod 2)[X])).Monic := by
  have hne : crcGenerator (X : (ZMod 2)[X]) ≠ 0 := fun h => by
    simpa [h] using degree_crcGenerator
  exact (show ∀ a : ZMod 2, a ≠ 0 → a = 1 by decide) _ (leadingCoeff_ne_zero.mpr hne)

theorem mk_wordPoly_crcShift (c : UInt32) :
    AdjoinRoot.mk (crcGenerator X) (wordPoly (X : (ZMod 2)[X]) (crcShift c)) =
      AdjoinRoot.root (crcGenerator X) * AdjoinRoot.mk (crcGenerator X) (wordPoly X c) := by
  have h := congrArg (AdjoinRoot.mk (crcGenerator (X : (ZMod 2)[X]))) (wordPoly_crcShift c)
  rwa [map_add, map_mul, AdjoinRoot.mk_self, mul_zero, add_zero, map_mul, AdjoinRoot.mk_X] at h

theorem mk_wordPoly_crcShifts (n : Nat) (c : UInt32) :
    AdjoinRoot.mk (crcGenerator X) (wordPoly (X : (ZMod 2)[X]) (crcShifts n c)) =
      AdjoinRoot.root (crcGenerator X) ^ n * AdjoinRoot.mk (crcGenerator X) (wordPoly X c) := by
  induction n generalizing c with
  | zero => rw [crcShifts, pow_zero, one_mul]
  | succ n ih => rw [crcShifts, ih, mk_wordPoly_crcShift, pow_succ, mul_assoc]

theorem mk_wordPoly_crcByte (c : UInt32) (b : UInt8) :
    AdjoinRoot.mk (crcGenerator X) (wordPoly (X : (ZMod 2)[X]) (crcByte c b)) =
      AdjoinRoot.root (crcGenerator X) ^ 8 * AdjoinRoot.mk (crcGenerator X) (wordPoly X c) +
        AdjoinRoot.root (crcGenerator X) ^ 32 *
          AdjoinRoot.mk (crcGenerator X) (bitsPoly X (byteBits b)) := by
  rw [crcByte, mk_wordPoly_crcShifts, wordPoly_xor, wordPoly_toUInt32, map_add, map_mul, map_pow,
    AdjoinRoot.mk_X]
  ring

/-- The byte loop: modulo `G`, the register after `m` is
`x^(8n)` times the start plus `x^32 M(x)`. -/
theorem mk_wordPoly_foldl (m : List UInt8) (c : UInt32) :
    AdjoinRoot.mk (crcGenerator X) (wordPoly (X : (ZMod 2)[X]) (m.foldl crcByte c)) =
      AdjoinRoot.root (crcGenerator X) ^ (8 * m.length) *
          AdjoinRoot.mk (crcGenerator X) (wordPoly X c) +
        AdjoinRoot.root (crcGenerator X) ^ 32 * AdjoinRoot.mk (crcGenerator X) (messagePoly X m) := by
  induction m generalizing c with
  | nil => simp [messagePoly, messageBits, bitsPoly]
  | cons b m ih =>
    rw [List.foldl_cons, ih, mk_wordPoly_crcByte, messagePoly_cons, map_add, map_mul, map_pow,
      AdjoinRoot.mk_X, List.length_cons]
    ring

/-- A register is its own remainder: its degree is below 32. -/
theorem wordPoly_modByMonic (w : UInt32) :
    wordPoly (X : (ZMod 2)[X]) w %ₘ crcGenerator X = wordPoly X w := by
  rw [modByMonic_eq_self_iff crcGenerator_monic, degree_crcGenerator,
    show (32 : WithBot ℕ) = ((32 : ℕ) : WithBot ℕ) from rfl, degree_lt_iff_coeff_zero]
  intro k hk
  rw [coeff_wordPoly, if_neg (by omega)]

/-- `crc32` is CRC-32/ISO-HDLC: bit `i` of the result is the complement of
the coefficient of `x^(31 - i)` in `(x^32 M(x) + x^(8n) (x^31 + ... + 1)) mod G(x)`. -/
theorem crc32_eq_crcPoly (m : List UInt8) (i : Fin 32) :
    (crc32 m).toBitVec.getLsbD i =
      !decide (((X ^ 32 * messagePoly X m + X ^ (8 * m.length) * ∑ k in Finset.range 32, X ^ k) %ₘ
        crcGenerator (X : (ZMod 2)[X])).coeff (31 - i) = 1) := by
  have hmk : AdjoinRoot.mk (crcGenerator X) (wordPoly (X : (ZMod 2)[X]) (m.foldl crcByte 0xFFFFFFFF)) =
      AdjoinRoot.mk (crcGenerator X)
        (X ^ 32 * messagePoly X m + X ^ (8 * m.length) * ∑ k in Finset.range 32, X ^ k) := by
    rw [mk_wordPoly_foldl, wordPoly_allOnes, map_add, map_mul, map_mul, map_pow, map_pow,
      AdjoinRoot.mk_X]
    ring
  rw [AdjoinRoot.mk_eq_mk] at hmk
  rw [← modByMonic_eq_of_dvd_sub crcGenerator_monic hmk, wordPoly_modByMonic, coeff_wordPoly,
    if_pos (by omega), Nat.sub_sub_self (by omega),
    show (crc32 m).toBitVec = ~~~(m.foldl crcByte 0xFFFFFFFF).toBitVec from rfl, BitVec.getLsbD_not]
  cases (m.foldl crcByte 0xFFFFFFFF).toBitVec.getLsbD i <;> simp [i.isLt]

set_option maxRecDepth 20000 in
example : crc32 [0x31, 0x32, 0x33, 0x34, 0x35, 0x36, 0x37, 0x38, 0x39] = 0xCBF43926 := rfl

end Pure64
