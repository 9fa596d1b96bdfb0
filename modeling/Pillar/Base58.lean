/-
Base58 text: a `1` for each zero byte in front, then the number the bytes are,
in base 58.
-/
import Pillar.Bits

namespace Pillar.Base58

def symbols : List Char := "123456789ABCDEFGHJKLMNPQRSTUVWXYZabcdefghijkmnopqrstuvwxyz".toList

def symbol (digit : Nat) : Char := symbols.getD digit '1'

/-- How many zeros the bytes start with. -/
def leadingZeros (bytes : List UInt8) : Nat := (bytes.takeWhile (· == 0)).length

/-- The digits of the number, the first first. -/
def digits (bytes : List UInt8) : List Nat := (Nat.digits 58 (Bits.ofBytes bytes)).reverse

def encode (bytes : List UInt8) : String :=
  String.ofList (List.replicate (leadingZeros bytes) '1' ++ (digits bytes).map symbol)

theorem split_leadingZeros (bytes : List UInt8) : bytes = List.replicate (leadingZeros bytes) 0 ++
    bytes.dropWhile (· == 0) := by
  have hzeros : bytes.takeWhile (· == 0) = List.replicate (leadingZeros bytes) 0 := by
    refine List.eq_replicate_iff.mpr ⟨rfl, fun b hb => ?_⟩
    have hzero : (b == 0) = true := List.mem_takeWhile_imp (p := (· == 0)) hb
    exact beq_iff_eq.mp hzero
  rw [← hzeros, List.takeWhile_append_dropWhile]

theorem leadingZeros_le (bytes : List UInt8) : leadingZeros bytes ≤ bytes.length :=
  (List.takeWhile_prefix _).length_le

/-- The number is one of the bytes after the zeros. -/
theorem ofBytes_lt (bytes : List UInt8) : Bits.ofBytes bytes < 256 ^ (bytes.length - leadingZeros bytes) := by
  have hsplit := split_leadingZeros bytes
  have hlen : (bytes.dropWhile (· == 0)).length = bytes.length - leadingZeros bytes := by
    have := congrArg List.length hsplit
    rw [List.length_append, List.length_replicate] at this
    omega
  have hvalue : Bits.ofBytes bytes = Bits.ofBytes (bytes.dropWhile (· == 0)) := by
    conv_lhs => rw [hsplit, Bits.ofBytes_zeros]
  rw [hvalue, ← hlen]
  exact Bits.ofBytes_lt _

/-- The first byte after the zeros is not zero. -/
theorem pow_le_ofBytes (bytes : List UInt8) (h : leadingZeros bytes < bytes.length) :
    256 ^ (bytes.length - leadingZeros bytes - 1) ≤ Bits.ofBytes bytes := by
  have hsplit := split_leadingZeros bytes
  have hlen := congrArg List.length hsplit
  have hvalue := congrArg Bits.ofBytes hsplit
  rw [List.length_append, List.length_replicate] at hlen
  rw [Bits.ofBytes_zeros] at hvalue
  cases hrest : bytes.dropWhile (· == 0) with
  | nil =>
    rw [hrest, List.length_nil] at hlen
    omega
  | cons b rest =>
    have hb : b ≠ 0 := by
      have hne : bytes.dropWhile (· == 0) ≠ [] := by
        rw [hrest]
        exact List.cons_ne_nil _ _
      have hnot := List.head_dropWhile_not (· == (0 : UInt8)) hne
      simpa [hrest] using hnot
    have hone : 1 ≤ b.toNat := Nat.one_le_iff_ne_zero.mpr fun hzero => hb (UInt8.toNat_inj.mp hzero)
    rw [hrest, List.length_cons] at hlen
    rw [hvalue, hrest, show bytes.length - leadingZeros bytes - 1 = rest.length by omega]
    exact (Nat.one_mul _).symm.le.trans ((Nat.mul_le_mul_right _ hone).trans (Bits.le_ofBytes b rest))

theorem lt_pow_digits (bytes : List UInt8) : Bits.ofBytes bytes < 58 ^ (digits bytes).length := by
  rw [digits, List.length_reverse]
  exact Nat.lt_base_pow_length_digits (by decide)

theorem pow_digits_le (bytes : List UInt8) (h : Bits.ofBytes bytes ≠ 0) :
    58 ^ ((digits bytes).length - 1) ≤ Bits.ofBytes bytes := by
  rw [digits, List.length_reverse]
  have hle := Nat.base_pow_length_digits_le 58 (Bits.ofBytes bytes) (by decide) h
  have hpos : 0 < (Nat.digits 58 (Bits.ofBytes bytes)).length :=
    List.length_pos_of_ne_nil (Nat.digits_ne_nil_iff_ne_zero.mpr h)
  obtain ⟨n, hn⟩ := Nat.exists_eq_succ_of_ne_zero hpos.ne'
  rw [hn, Nat.succ_sub_one]
  have hpow : 58 * 58 ^ n ≤ 58 * Bits.ofBytes bytes := by
    rw [← Nat.pow_succ', ← hn]
    exact hle
  exact Nat.le_of_mul_le_mul_left hpow (by decide)

/-- No character is a `0`. -/
theorem symbol_ne_zero : ∀ d < 58, symbol d ≠ '0' := by decide +kernel

theorem ne_zero_of_mem_encode {bytes : List UInt8} {c : Char} (h : c ∈ (encode bytes).toList) : c ≠ '0' := by
  rw [encode, String.toList_ofList] at h
  obtain h | h := List.mem_append.mp h
  · rw [List.eq_of_mem_replicate h]
    decide
  · obtain ⟨d, hd, rfl⟩ := List.mem_map.mp h
    exact symbol_ne_zero d (Nat.digits_lt_base (by decide) (List.mem_reverse.mp hd))

end Pillar.Base58
