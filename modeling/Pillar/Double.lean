/-
Double-precision numbers by their values: not a number, an infinity, or a
rational. The two zeros are one here.

A rational is rounded to the nearest double, a tie to the even significand, and
to an infinity from half a unit above the largest one on.
-/
import Pillar.Json

namespace Pillar

inductive Double where
  | nan
  | inf (negative : Bool)
  | finite (q : ℚ)
  deriving DecidableEq

namespace Double

/-- The nearest integer, a tie to the even one. -/
def roundEven (q : ℚ) : ℤ :=
  if q - ⌊q⌋ < 1 / 2 then ⌊q⌋
  else if 1 / 2 < q - ⌊q⌋ then ⌊q⌋ + 1
  else if ⌊q⌋ % 2 = 0 then ⌊q⌋ else ⌊q⌋ + 1

/-- The distance of the doubles around a positive rational. -/
def unit (q : ℚ) : ℚ := (2 : ℚ) ^ max (Int.log 2 q - 52) (-1074)

/-- The double nearest to a magnitude. -/
def ofMagnitude (negative : Bool) (q : ℚ) : Double :=
  let rounded := roundEven (q / unit q) * unit q
  if (2 : ℚ) ^ 1024 ≤ rounded then .inf negative else .finite (if negative then -rounded else rounded)

/-- The double nearest to a rational. -/
def ofRat (q : ℚ) : Double :=
  if q = 0 then .finite 0 else if q < 0 then ofMagnitude true (-q) else ofMagnitude false q

def ofNat (n : Nat) : Double := ofRat n

/-- By its bits. -/
def ofBits (bits : UInt64) : Double :=
  let negative := 2 ^ 63 ≤ bits.toNat
  let exponent : Nat := bits.toNat / 2 ^ 52 % 2 ^ 11
  let fraction : Nat := bits.toNat % 2 ^ 52
  if exponent = 2047 then if fraction = 0 then .inf negative else .nan
  else
    let magnitude : ℚ :=
      if exponent = 0 then fraction * (2 : ℚ) ^ (-1074 : ℤ)
      else ((2 ^ 52 + fraction : Nat) : ℚ) * (2 : ℚ) ^ ((exponent : ℤ) - 1075)
    .finite (if negative then -magnitude else magnitude)

def sub : Double → Double → Double
  | .finite a, .finite b => ofRat (a - b)
  | .inf negative, .finite _ => .inf negative
  | .finite _, .inf negative => .inf !negative
  | .inf a, .inf b => if a = b then .nan else .inf a
  | .nan, _ => .nan
  | _, .nan => .nan

def mul : Double → Double → Double
  | .finite a, .finite b => ofRat (a * b)
  | .inf negative, .finite b => if b = 0 then .nan else .inf (negative != decide (b < 0))
  | .finite a, .inf negative => if a = 0 then .nan else .inf (negative != decide (a < 0))
  | .inf a, .inf b => .inf (a != b)
  | .nan, _ => .nan
  | _, .nan => .nan

/-- `a > b`, which nothing that is no number is part of. -/
def gt : Double → Double → Bool
  | .finite a, .finite b => b < a
  | .inf false, .finite _ => true
  | .finite _, .inf true => true
  | .inf false, .inf true => true
  | _, _ => false

/-- `is_finite() && fract() == 0.0 && >= 1.0`. -/
def isPositiveInteger : Double → Bool
  | .finite q => ⌊q⌋ = q && 1 ≤ q
  | _ => false

/-- `as u64`, of a number in range that is not negative. -/
def toNat : Double → Nat
  | .finite q => ⌊q⌋.toNat
  | _ => 0

/-! ## Small whole numbers are doubles -/

theorem roundEven_intCast (n : ℤ) : roundEven n = n := by
  simp [roundEven]

/-- A whole number of at most 53 bits is a whole number of units. -/
theorem unit_dvd {n : Nat} (hn : n < 2 ^ 53) : ∃ k : ℤ, (n : ℚ) = k * unit n := by
  have hlog : Nat.log 2 n ≤ 52 := by
    by_cases hzero : n = 0
    · simp [hzero]
    · exact Nat.lt_succ_iff.mp (Nat.log_lt_of_lt_pow hzero hn)
  have hexp : max (Int.log 2 (n : ℚ) - 52) (-1074) = -((52 - Nat.log 2 n : Nat) : ℤ) := by
    rw [Int.log_natCast]
    omega
  refine ⟨n * 2 ^ (52 - Nat.log 2 n), ?_⟩
  rw [unit, hexp, zpow_neg, zpow_natCast]
  push_cast
  field_simp

theorem unit_pos (q : ℚ) : 0 < unit q := zpow_pos (by norm_num) _

/-- Whole numbers of at most 53 bits are their own doubles. -/
theorem ofNat_eq {n : Nat} (hn : n < 2 ^ 53) : ofNat n = .finite n := by
  by_cases hzero : n = 0
  · simp [hzero, ofNat, ofRat]
  · have hpos : (0 : ℚ) < n := by exact_mod_cast Nat.pos_of_ne_zero hzero
    obtain ⟨k, hk⟩ := unit_dvd hn
    have hne := (unit_pos (n : ℚ)).ne'
    have hquot : (n : ℚ) / unit n = k := by
      rw [div_eq_iff hne]
      exact hk
    have hrounded : (roundEven ((n : ℚ) / unit n) : ℚ) * unit n = n := by
      rw [hquot, roundEven_intCast, ← hk]
    have hsmall : ¬ (2 : ℚ) ^ 1024 ≤ n := by
      have hlt : (n : ℚ) < 2 ^ 53 := by exact_mod_cast hn
      have hle : (2 : ℚ) ^ 53 ≤ 2 ^ 1024 := pow_le_pow_right₀ (by norm_num) (by norm_num)
      exact not_le.mpr (hlt.trans_le hle)
    rw [ofNat, ofRat, if_neg hpos.ne', if_neg (not_lt.mpr hpos.le), ofMagnitude, hrounded]
    simp only [if_neg hsmall, Bool.false_eq_true, if_false]

/-! ## How far rounding goes -/

theorem roundEven_le (q : ℚ) : (roundEven q : ℚ) ≤ q + 1 / 2 := by
  have hfloor : (⌊q⌋ : ℚ) ≤ q := Int.floor_le q
  unfold roundEven
  split
  · linarith
  · split
    · push_cast
      linarith
    · split
      · linarith
      · push_cast
        linarith

/-- The least normal number. -/
def leastNormal : ℚ := (2 : ℚ) ^ (-1022 : ℤ)

theorem unit_le {q : ℚ} (hq : leastNormal ≤ q) : unit q ≤ q * (2 : ℚ) ^ (-52 : ℤ) := by
  have hpos : 0 < q := (zpow_pos (by norm_num) _).trans_le hq
  have hlog : -1022 ≤ Int.log 2 q := (Int.zpow_le_iff_le_log (by norm_num) hpos).mp hq
  have hmax : max (Int.log 2 q - 52) (-1074) = Int.log 2 q + (-52) := by omega
  rw [unit, hmax, zpow_add₀ (by norm_num)]
  exact mul_le_mul_of_nonneg_right (Int.zpow_log_le_self (by norm_num) hpos) (zpow_pos (by norm_num) _).le

theorem ofRat_le {q r : ℚ} (hq : 0 ≤ q) (h : ofRat q = .finite r) : r ≤ q + unit q / 2 := by
  have hunit := unit_pos q
  rw [ofRat] at h
  split at h
  · cases h
    linarith
  · rw [if_neg (not_lt.mpr hq), ofMagnitude] at h
    split at h
    · cases h
    · cases h
      rw [if_neg (by decide)]
      calc (roundEven (q / unit q) : ℚ) * unit q ≤ (q / unit q + 1 / 2) * unit q :=
            mul_le_mul_of_nonneg_right (roundEven_le _) hunit.le
        _ = q + unit q / 2 := by field_simp

/-- Of a normal number, half a unit in the last of 53 places. -/
theorem ofRat_le_of_normal {q r : ℚ} (hq : leastNormal ≤ q) (h : ofRat q = .finite r) :
    r ≤ q * (1 + (2 : ℚ) ^ (-53 : ℤ)) := by
  have hpos : 0 < q := (zpow_pos (by norm_num) _).trans_le hq
  have hle := ofRat_le hpos.le h
  have hunit := unit_le hq
  norm_num at hunit ⊢
  linarith

/-- Nothing grows beyond twice the least normal number by rounding without having been normal. -/
theorem normal_of_ofRat {q r : ℚ} (h : ofRat q = .finite r) (hr : 2 * leastNormal ≤ r) : leastNormal ≤ q := by
  by_contra hlt
  have hsmall : q < leastNormal := not_le.mp hlt
  have hleast : (0 : ℚ) < leastNormal := zpow_pos (by norm_num) _
  by_cases hneg : q < 0
  · rw [ofRat, if_neg hneg.ne, if_pos hneg, ofMagnitude] at h
    split at h
    · cases h
    · cases h
      rw [if_pos rfl] at hr
      have hround : (0 : ℚ) ≤ roundEven (-q / unit (-q)) := by
        have hfloor : (0 : ℤ) ≤ ⌊-q / unit (-q)⌋ := Int.floor_nonneg.mpr (div_nonneg (by linarith) (unit_pos _).le)
        have hle : ⌊-q / unit (-q)⌋ ≤ roundEven (-q / unit (-q)) := by
          unfold roundEven
          split
          · exact le_rfl
          · split
            · omega
            · split <;> omega
        exact_mod_cast hfloor.trans hle
      have := mul_nonneg hround (unit_pos (-q)).le
      linarith
  · rcases (not_lt.mp hneg).eq_or_lt with hzero | hpos
    · rw [← hzero, ofRat, if_pos rfl] at h
      cases h
      linarith
    · have hle := ofRat_le hpos.le h
      have hlog : Int.log 2 q < -1022 := by
        rw [← Int.lt_zpow_iff_log_lt (by norm_num) hpos]
        exact hsmall
      have hmax : max (Int.log 2 q - 52) (-1074) = -1074 := by omega
      have hunit : unit q ≤ leastNormal := by
        rw [unit, hmax, leastNormal]
        exact zpow_le_zpow_right₀ (by norm_num) (by norm_num)
      linarith

theorem sub_eq_finite {v : Double} {a s : ℚ} (h : v.sub (.finite a) = .finite s) :
    ∃ q, v = .finite q ∧ ofRat (q - a) = .finite s := by
  cases v with
  | finite q => exact ⟨q, rfl, h⟩
  | inf negative => cases h
  | nan => cases h

theorem mul_eq_finite {v : Double} {a d : ℚ} (h : v.mul (.finite a) = .finite d) :
    ∃ s, v = .finite s ∧ ofRat (s * a) = .finite d := by
  cases v with
  | finite s => exact ⟨s, rfl, h⟩
  | inf negative =>
    simp only [mul] at h
    split at h <;> cases h
  | nan => cases h

end Double

/-- `Number::as_f64`. -/
def JsonNumber.asF64 : JsonNumber → Double
  | .posInt n => .ofNat n.toNat
  | .negInt n => .ofRat n
  | .float bits => .ofBits bits

end Pillar
