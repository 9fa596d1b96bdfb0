/-
Base32 text, with no padding: the bits of the bytes, five to a character.
-/
import Pillar.Bits

namespace Pillar.Base32

/-- The digits of bits, five a digit; the last is filled up with zeros. -/
def digits : List Bool → List Nat
  | [] => []
  | a :: b :: c :: d :: e :: rest => Bits.toNat [a, b, c, d, e] :: digits rest
  | last => [Bits.toNat (last ++ List.replicate (5 - last.length) false)]

/-- The character of a digit: `A` to `Z`, then `2` to `7`. -/
def symbol (digit : Nat) : Char := if digit < 26 then Char.ofNat (65 + digit) else Char.ofNat (24 + digit)

def bits (bytes : List UInt8) : List Bool := bytes.flatMap fun byte => Bits.ofNat 8 byte.toNat

def encode (bytes : List UInt8) : String := String.ofList ((digits (bits bytes)).map symbol)

/-- Each digit is five bits. -/
def digitBits (digits : List Nat) : List Bool := digits.flatMap (Bits.ofNat 5)

theorem ofNat_toNat (bits : List Bool) : Bits.ofNat bits.length (Bits.toNat bits) = bits := by
  induction bits using List.reverseRecOn with
  | nil => rfl
  | append_singleton bits b ih =>
    have hhalf : (2 * Bits.toNat bits + b.toNat) / 2 = Bits.toNat bits := by
      have := Bool.toNat_lt b
      omega
    have hlast : decide ((2 * Bits.toNat bits + b.toNat) % 2 = 1) = b := by
      cases b <;> simp
    rw [List.length_append, List.length_singleton, Bits.toNat_concat, Bits.ofNat, hhalf, hlast, ih]

theorem digits_append {five : List Bool} (h : five.length = 5) (rest : List Bool) :
    digits (five ++ rest) = Bits.toNat five :: digits rest := by
  match five, h with
  | [a, b, c, d, e], _ => rfl

/-- The digits of whole digits. -/
theorem digits_digitBits : ∀ {ds : List Nat}, (∀ d ∈ ds, d < 32) → digits (digitBits ds) = ds
  | [], _ => rfl
  | d :: ds, h => by
    have hbits : digitBits (d :: ds) = Bits.ofNat 5 d ++ digitBits ds := List.flatMap_cons
    rw [hbits, digits_append (Bits.length_ofNat 5 d), Bits.toNat_ofNat (h d List.mem_cons_self),
      digits_digitBits fun d hd => h d (List.mem_cons_of_mem _ hd)]

/-- Whole digits of bits have them. -/
theorem digitBits_digits : ∀ (n : Nat) {bits : List Bool}, bits.length = 5 * n →
    digitBits (digits bits) = bits ∧ (digits bits).length = n ∧ ∀ d ∈ digits bits, d < 32
  | 0, bits, h => by
    obtain rfl := List.eq_nil_of_length_eq_zero h
    exact ⟨rfl, rfl, fun d hd => (by cases hd)⟩
  | n + 1, bits, h => by
    have hsplit := List.take_append_drop 5 bits
    have hfive : (bits.take 5).length = 5 := List.length_take_of_le (by omega)
    have hrest : (bits.drop 5).length = 5 * n := by
      rw [List.length_drop]
      omega
    obtain ⟨hbits, hlen, hlt⟩ := digitBits_digits n hrest
    have hfirst := ofNat_toNat (bits.take 5)
    have hfirstLt := Bits.toNat_lt (bits.take 5)
    rw [hfive] at hfirst hfirstLt
    rw [← hsplit, digits_append hfive]
    refine ⟨?_, by rw [List.length_cons, hlen], List.forall_mem_cons.mpr ⟨hfirstLt, hlt⟩⟩
    have hcons : digitBits (Bits.toNat (bits.take 5) :: digits (bits.drop 5)) =
        Bits.ofNat 5 (Bits.toNat (bits.take 5)) ++ digitBits (digits (bits.drop 5)) := List.flatMap_cons
    rw [hcons, hfirst, hbits]

theorem length_digitBits (ds : List Nat) : (digitBits ds).length = 5 * ds.length := by
  rw [digitBits, List.length_flatMap, List.map_congr_left fun d _ => Bits.length_ofNat 5 d, List.map_const',
    List.sum_replicate, smul_eq_mul, Nat.mul_comm]

theorem length_bits (bytes : List UInt8) : (bits bytes).length = 8 * bytes.length := by
  rw [bits, List.length_flatMap, List.map_congr_left fun byte _ => Bits.length_ofNat 8 byte.toNat, List.map_const',
    List.sum_replicate, smul_eq_mul, Nat.mul_comm]

theorem bits_concat (bytes : List UInt8) (byte : UInt8) :
    bits (bytes ++ [byte]) = bits bytes ++ Bits.ofNat 8 byte.toNat := by
  rw [bits, bits, List.flatMap_append, List.flatMap_singleton]

theorem bits_injective : ∀ {bytes bytes' : List UInt8}, bits bytes = bits bytes' → bytes = bytes'
  | [], [], _ => rfl
  | [], byte :: bytes, h => by
    have hlen := congrArg List.length h
    rw [length_bits, length_bits, List.length_cons] at hlen
    simp at hlen
  | byte :: bytes, [], h => by
    have hlen := congrArg List.length h
    rw [length_bits, length_bits, List.length_cons] at hlen
    simp at hlen
  | byte :: bytes, byte' :: bytes', h => by
    have hcons : ∀ (byte : UInt8) (bytes : List UInt8), bits (byte :: bytes) = Bits.ofNat 8 byte.toNat ++ bits bytes :=
      fun _ _ => List.flatMap_cons
    rw [hcons, hcons] at h
    obtain ⟨hfirst, hrest⟩ := List.append_inj h (by rw [Bits.length_ofNat, Bits.length_ofNat])
    have hbyte := Bits.ofNat_injective byte.toNat_lt byte'.toNat_lt hfirst
    rw [UInt8.toNat_inj.mp hbyte, bits_injective hrest]

end Pillar.Base32
