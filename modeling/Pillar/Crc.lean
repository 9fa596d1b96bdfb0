/-
Cyclic redundancy checks: the register of the shift-and-subtract loop holds the
remainder of the message, moved up by the register's width, divided by the
generator, over the field of two elements.
-/
import Mathlib

namespace Pillar.Crc

open Polynomial

/-- The polynomial whose coefficients are the low `width` bits of `n`. -/
noncomputable def poly (width n : Nat) : (ZMod 2)[X] :=
  ∑ i ∈ Finset.range width, if n.testBit i then X ^ i else 0

/-- The generator of a register of `width` bits, of which `n` has all but the first. -/
noncomputable def generator (width n : Nat) : (ZMod 2)[X] := X ^ width + poly width n

/-- The polynomial of a message, its first bit first. -/
noncomputable def messagePoly (message : List UInt8) : (ZMod 2)[X] :=
  message.foldl (fun p byte => p * X ^ 8 + poly 8 byte.toNat) 0

/-! ## Polynomials -/

theorem add_self (p : (ZMod 2)[X]) : p + p = 0 := CharTwo.add_self_eq_zero p

theorem poly_xor (width a b : Nat) : poly width (a ^^^ b) = poly width a + poly width b := by
  unfold poly
  rw [← Finset.sum_add_distrib]
  refine Finset.sum_congr rfl fun i _ => ?_
  rw [Nat.testBit_xor]
  cases a.testBit i <;> cases b.testBit i <;> simp [add_self]

theorem poly_zero (width : Nat) : poly width 0 = 0 := by
  simp [poly]

theorem degree_poly_lt (width n : Nat) : (poly width n).degree < width := by
  rw [← Polynomial.mem_degreeLT]
  refine Submodule.sum_mem _ fun i hi => ?_
  have hi := Finset.mem_range.mp hi
  split
  · rw [Polynomial.mem_degreeLT]
    exact (degree_X_pow_le i).trans_lt (by exact_mod_cast hi)
  · exact Submodule.zero_mem _

/-- A number moved up. -/
theorem poly_shiftLeft (width k n : Nat) : poly (k + width) (n <<< k) = X ^ k * poly width n := by
  unfold poly
  rw [Finset.sum_range_add, Finset.mul_sum]
  have hlow : ∑ i ∈ Finset.range k, (if (n <<< k).testBit i then (X : (ZMod 2)[X]) ^ i else 0) = 0 := by
    refine Finset.sum_eq_zero fun i hi => ?_
    have hi := Finset.mem_range.mp hi
    rw [Nat.testBit_shiftLeft, decide_eq_false (by omega), Bool.false_and]
    exact if_neg Bool.false_ne_true
  rw [hlow, zero_add]
  refine Finset.sum_congr rfl fun i _ => ?_
  rw [Nat.testBit_shiftLeft, decide_eq_true (Nat.le_add_right k i), Bool.true_and, Nat.add_sub_cancel_left, mul_ite,
    mul_zero, pow_add]

/-- A number doubled in a register, which loses its first bit. -/
theorem poly_double (width n : Nat) : poly (width + 1) (n <<< 1 % 2 ^ (width + 1)) =
    X * poly (width + 1) n + if n.testBit width then X ^ (width + 1) else 0 := by
  have hdouble : poly (width + 1) (n <<< 1 % 2 ^ (width + 1)) = X * poly width n := by
    have hshift := poly_shiftLeft width 1 n
    rw [pow_one, Nat.add_comm] at hshift
    rw [← hshift]
    refine Finset.sum_congr rfl fun i hi => ?_
    rw [Nat.testBit_mod_two_pow, decide_eq_true (Finset.mem_range.mp hi), Bool.true_and]
  have hsucc : poly (width + 1) n = poly width n + if n.testBit width then X ^ width else 0 :=
    Finset.sum_range_succ _ _
  rw [hdouble, hsucc, mul_add, add_assoc]
  split
  · rw [← pow_succ', add_self, add_zero]
  · rw [mul_zero, add_zero, add_zero]

/-! ## The register -/

/-- One step of a register of `width` bits: its bits move up, and the generator
is subtracted when a bit moves out. -/
def step (width g n : Nat) : Nat :=
  if n.testBit (width - 1) then n <<< 1 % 2 ^ width ^^^ g else n <<< 1 % 2 ^ width

/-- A byte is added at the top of the register, and eight steps are taken. -/
def byteStep (width g n : Nat) (byte : UInt8) : Nat :=
  (step width g)^[8] (n ^^^ byte.toNat <<< (width - 8))

variable {width g : Nat}

/-- A step multiplies by `X`, but for a multiple of the generator. -/
theorem poly_step (hwidth : 0 < width) (n : Nat) :
    ∃ q, poly width (step width g n) = X * poly width n + q * generator width g := by
  obtain ⟨width, rfl⟩ := Nat.exists_eq_succ_of_ne_zero hwidth.ne'
  have hdouble := poly_double width n
  unfold step
  rw [Nat.succ_sub_one]
  split
  next hbit =>
    rw [if_pos hbit] at hdouble
    refine ⟨1, ?_⟩
    rw [poly_xor, hdouble, one_mul, generator, add_assoc]
  next hbit =>
    rw [if_neg hbit, add_zero] at hdouble
    exact ⟨0, by rw [hdouble, zero_mul, add_zero]⟩

theorem poly_steps (hwidth : 0 < width) (k n : Nat) :
    ∃ q, poly width ((step width g)^[k] n) = X ^ k * poly width n + q * generator width g := by
  induction k with
  | zero => exact ⟨0, by rw [Function.iterate_zero_apply, pow_zero, one_mul, zero_mul, add_zero]⟩
  | succ k ih =>
    obtain ⟨q, hq⟩ := ih
    obtain ⟨r, hr⟩ := poly_step (g := g) hwidth ((step width g)^[k] n)
    refine ⟨X * q + r, ?_⟩
    rw [Function.iterate_succ_apply', hr, hq]
    ring

theorem poly_byteStep (hwidth : 8 ≤ width) (n : Nat) (byte : UInt8) : ∃ q, poly width (byteStep width g n byte) =
    X ^ 8 * poly width n + X ^ width * poly 8 byte.toNat + q * generator width g := by
  obtain ⟨q, hq⟩ := poly_steps (g := g) (Nat.lt_of_lt_of_le (by decide) hwidth) 8 (n ^^^ byte.toNat <<< (width - 8))
  have hshift := poly_shiftLeft 8 (width - 8) byte.toNat
  rw [Nat.sub_add_cancel hwidth] at hshift
  refine ⟨q, ?_⟩
  rw [byteStep, hq, poly_xor, hshift, mul_add, ← mul_assoc, ← pow_add, Nat.add_sub_cancel' hwidth]

/-- **The register holds the remainder** of the message moved up by its width. -/
theorem poly_foldl_byteStep (hwidth : 8 ≤ width) (message : List UInt8) :
    poly width (message.foldl (byteStep width g) 0) = (messagePoly message * X ^ width) %ₘ generator width g := by
  have hcongr : ∃ q, poly width (message.foldl (byteStep width g) 0) =
      messagePoly message * X ^ width + q * generator width g := by
    induction message using List.reverseRecOn with
    | nil => exact ⟨0, by rw [List.foldl_nil, poly_zero, messagePoly, List.foldl_nil, zero_mul, zero_mul, add_zero]⟩
    | append_singleton message byte ih =>
      obtain ⟨q, hq⟩ := ih
      obtain ⟨r, hr⟩ := poly_byteStep (g := g) hwidth (message.foldl (byteStep width g) 0) byte
      refine ⟨X ^ 8 * q + r, ?_⟩
      have hmessage : messagePoly (message ++ [byte]) = messagePoly message * X ^ 8 + poly 8 byte.toNat := by
        rw [messagePoly, List.foldl_append, List.foldl_cons, List.foldl_nil, ← messagePoly]
      rw [List.foldl_append, List.foldl_cons, List.foldl_nil, hr, hq, hmessage]
      ring
  obtain ⟨q, hq⟩ := hcongr
  have hdegree : (poly width g).degree < width := degree_poly_lt width g
  have hmonic : (generator width g).Monic := monic_X_pow_add hdegree
  have hgenerator : (generator width g).degree = width := by
    rw [generator, degree_add_eq_left_of_degree_lt (by rwa [degree_X_pow]), degree_X_pow]
  refine (div_modByMonic_unique (-q) _ hmonic ⟨?_, ?_⟩).2.symm
  · rw [hq]
    ring
  · rw [hgenerator]
    exact degree_poly_lt width _

/-- Numbers of `width` bits are told apart by their polynomials. -/
theorem poly_injective {a b : Nat} (ha : a < 2 ^ width) (hb : b < 2 ^ width) (h : poly width a = poly width b) :
    a = b := by
  have hcoeff : ∀ (n i : Nat), i < width → (poly width n).coeff i = if n.testBit i then 1 else 0 := by
    intro n i hi
    rw [poly, finsetSum_coeff, Finset.sum_eq_single_of_mem i (Finset.mem_range.mpr hi)]
    · split
      · rw [coeff_X_pow_self]
      · rw [coeff_zero]
    · intro j _ hj
      split
      · rw [coeff_X_pow, if_neg (Ne.symm hj)]
      · rw [coeff_zero]
  refine Nat.eq_of_testBit_eq fun i => ?_
  by_cases hi : i < width
  · have hbit := hcoeff a i hi
    rw [h, hcoeff b i hi] at hbit
    cases hai : a.testBit i <;> cases hbi : b.testBit i <;> rw [hai, hbi] at hbit <;> first | rfl | simp at hbit
  · have hle : 2 ^ width ≤ 2 ^ i := Nat.pow_le_pow_right Nat.two_pos (not_lt.mp hi)
    rw [Nat.testBit_lt_two_pow (ha.trans_le hle), Nat.testBit_lt_two_pow (hb.trans_le hle)]

end Pillar.Crc
