/-
Numbers as bits and bytes, most significant first.
-/
import Mathlib

namespace Pillar.Bits

/-- The low `width` bits of `value`. -/
def ofNat : Nat → Nat → List Bool
  | 0, _ => []
  | width + 1, value => ofNat width (value / 2) ++ [decide (value % 2 = 1)]

def toNat (bits : List Bool) : Nat := bits.foldl (fun n b => 2 * n + b.toNat) 0

@[simp] theorem length_ofNat : ∀ width value, (ofNat width value).length = width
  | 0, _ => rfl
  | width + 1, value => by simp [ofNat, length_ofNat width]

@[simp] theorem toNat_nil : toNat [] = 0 := rfl

theorem toNat_concat (bits : List Bool) (b : Bool) : toNat (bits ++ [b]) = 2 * toNat bits + b.toNat := by
  simp [toNat]

theorem toNat_ofNat : ∀ {width value : Nat}, value < 2 ^ width → toNat (ofNat width value) = value
  | 0, value, h => by
    simp only [Nat.pow_zero] at h
    simp only [ofNat, toNat_nil]
    omega
  | width + 1, value, h => by
    have hhalf : value / 2 < 2 ^ width := by
      rw [Nat.pow_succ] at h
      omega
    rw [ofNat, toNat_concat, toNat_ofNat hhalf]
    rcases Nat.mod_two_eq_zero_or_one value with hm | hm <;> simp [hm] <;> omega

theorem toNat_lt (bits : List Bool) : toNat bits < 2 ^ bits.length := by
  induction bits using List.reverseRecOn with
  | nil => simp
  | append_singleton bits b ih =>
    rw [toNat_concat, List.length_append, List.length_singleton, Nat.pow_succ]
    have := Bool.toNat_lt b
    omega

/-- Two numbers with the same bits, in a width that holds both. -/
theorem ofNat_injective {width value value' : Nat} (h : value < 2 ^ width) (h' : value' < 2 ^ width)
    (he : ofNat width value = ofNat width value') : value = value' := by
  rw [← toNat_ofNat h, he, toNat_ofNat h']

/-! ## Parts -/

section At

variable {α : Type} {l part : List α} {i : Nat}

/-- `part` stands in `l` from index `i` on. -/
def At (l : List α) (i : Nat) (part : List α) : Prop := part <+: l.drop i

theorem At.append (h : At l i part) (more : List α) : At (l ++ more) i part := by
  rw [At, List.drop_append]
  exact h.trans (List.prefix_append _ _)

theorem At.after (h : At l i part) (before : List α) : At (before ++ l) (before.length + i) part := by
  rw [At, List.drop_length_add_append]
  exact h

theorem at_end (l part : List α) : At (l ++ part) l.length part := by
  rw [At, List.drop_left]

/-- The later part of two that stand one after the other. -/
theorem At.right {first second : List α} (h : At l i (first ++ second)) : At l (i + first.length) second := by
  obtain ⟨rest, hrest⟩ := h
  refine ⟨rest, ?_⟩
  rw [← List.drop_drop, ← hrest, List.append_assoc, List.drop_left]

theorem At.left {first second : List α} (h : At l i (first ++ second)) : At l i first :=
  (List.prefix_append first second).trans h

/-- Two parts, the second where the first ends. -/
theorem At.concat {first second : List α} (h : At l i first) (h' : At l (i + first.length) second) :
    At l i (first ++ second) := by
  obtain ⟨rest, hrest⟩ := h
  rw [At, ← List.drop_drop, ← hrest, List.drop_left] at h'
  rw [At, ← hrest]
  exact List.prefix_append_right_inj first |>.mpr h'

/-- Parts of one length at one place are the same. -/
theorem At.unique {part' : List α} (h : At l i part) (h' : At l i part') (hlen : part.length = part'.length) :
    part = part' :=
  (List.prefix_of_prefix_length_le h h' hlen.le).eq_of_length hlen

theorem At.getElem? (h : At l i part) {k : Nat} {a : α} (hk : part[k]? = .some a) : l[i + k]? = .some a := by
  obtain ⟨rest, hrest⟩ := h
  rw [← List.getElem?_drop, ← hrest, List.getElem?_append_left (List.getElem?_eq_some_iff.mp hk).1]
  exact hk

theorem At.lt_length (h : At l i part) (hpart : part ≠ []) : i < l.length := by
  by_contra hle
  rw [At, List.drop_eq_nil_of_le (not_lt.mp hle), List.prefix_nil] at h
  exact hpart h

end At

/-! ## Bytes -/

/-- The low `width` bytes of `value`. -/
def bytesOf : Nat → Nat → List UInt8
  | 0, _ => []
  | width + 1, value => bytesOf width (value / 256) ++ [UInt8.ofNat value]

def ofBytes (bytes : List UInt8) : Nat := bytes.foldl (fun n b => 256 * n + b.toNat) 0

/-- How many bytes a number takes, one at least. -/
def byteWidth (n : Nat) : Nat := max ((Nat.size n + 7) / 8) 1

@[simp] theorem length_bytesOf : ∀ width value, (bytesOf width value).length = width
  | 0, _ => rfl
  | width + 1, value => by simp [bytesOf, length_bytesOf width]

theorem ofBytes_concat (bytes : List UInt8) (b : UInt8) : ofBytes (bytes ++ [b]) = 256 * ofBytes bytes + b.toNat := by
  simp [ofBytes]

theorem ofBytes_bytesOf : ∀ {width value : Nat}, value < 256 ^ width → ofBytes (bytesOf width value) = value
  | 0, value, h => by
    rw [Nat.pow_zero] at h
    simp only [bytesOf, ofBytes, List.foldl_nil]
    omega
  | width + 1, value, h => by
    have hhigh : value / 256 < 256 ^ width := by
      rw [Nat.pow_succ] at h
      omega
    rw [bytesOf, ofBytes_concat, ofBytes_bytesOf hhigh, UInt8.toNat_ofNat']
    omega

theorem bytesOf_ofBytes (bytes : List UInt8) : bytesOf bytes.length (ofBytes bytes) = bytes := by
  induction bytes using List.reverseRecOn with
  | nil => rfl
  | append_singleton bytes b ih =>
    have hb := b.toNat_lt
    rw [List.length_append, List.length_singleton, bytesOf, ofBytes_concat,
      show (256 * ofBytes bytes + b.toNat) / 256 = ofBytes bytes by omega, ih]
    congr 2
    rw [← UInt8.toNat_inj, UInt8.toNat_ofNat']
    omega

theorem ofBytes_lt (bytes : List UInt8) : ofBytes bytes < 256 ^ bytes.length := by
  induction bytes using List.reverseRecOn with
  | nil => exact Nat.one_pos
  | append_singleton bytes b ih =>
    rw [ofBytes_concat, List.length_append, List.length_singleton, Nat.pow_succ]
    have := b.toNat_lt
    omega

theorem le_ofBytes (b : UInt8) (bytes : List UInt8) : b.toNat * 256 ^ bytes.length ≤ ofBytes (b :: bytes) := by
  induction bytes using List.reverseRecOn with
  | nil => simp [ofBytes]
  | append_singleton bytes c ih =>
    rw [← List.cons_append, ofBytes_concat, List.length_append, List.length_singleton, Nat.pow_succ]
    calc b.toNat * (256 ^ bytes.length * 256) = 256 * (b.toNat * 256 ^ bytes.length) := by ring
      _ ≤ 256 * ofBytes (b :: bytes) := Nat.mul_le_mul_left _ ih
      _ ≤ 256 * ofBytes (b :: bytes) + c.toNat := Nat.le_add_right _ _

/-- Zeros in front change nothing. -/
theorem ofBytes_zeros (n : Nat) (bytes : List UInt8) : ofBytes (List.replicate n 0 ++ bytes) = ofBytes bytes := by
  induction n with
  | zero => rfl
  | succ n ih =>
    rw [List.replicate_succ, List.cons_append, ← ih]
    rfl

theorem byteWidth_pos (n : Nat) : 0 < byteWidth n := Nat.lt_of_lt_of_le Nat.one_pos (le_max_right _ _)

theorem byteWidth_le_iff {n k : Nat} : byteWidth n ≤ k ↔ n < 256 ^ k ∧ 1 ≤ k := by
  have hpow : 256 ^ k = 2 ^ (8 * k) := by
    rw [Nat.pow_mul]
  rw [byteWidth, max_le_iff, hpow, ← Nat.size_le]
  constructor <;> rintro ⟨h, hk⟩ <;> exact ⟨by omega, hk⟩

theorem lt_pow_byteWidth (n : Nat) : n < 256 ^ byteWidth n := (byteWidth_le_iff.mp le_rfl).1

/-- `BigUint::to_bytes_be`: no zeros in front, one byte at least. -/
def toBytesBe (n : Nat) : List UInt8 := bytesOf (byteWidth n) n

@[simp] theorem length_toBytesBe (n : Nat) : (toBytesBe n).length = byteWidth n := length_bytesOf _ _

theorem ofBytes_toBytesBe (n : Nat) : ofBytes (toBytesBe n) = n := ofBytes_bytesOf (lt_pow_byteWidth n)

/-- Bytes that do not start with a zero come back. -/
theorem toBytesBe_ofBytes {b : UInt8} (bytes : List UInt8) (hb : b ≠ 0) :
    toBytesBe (ofBytes (b :: bytes)) = b :: bytes := by
  have hwidth : byteWidth (ofBytes (b :: bytes)) = (b :: bytes).length := by
    refine le_antisymm (byteWidth_le_iff.mpr ⟨ofBytes_lt _, by simp⟩) ?_
    by_contra hlt
    have hfew : byteWidth (ofBytes (b :: bytes)) ≤ bytes.length := by
      rw [List.length_cons] at hlt
      omega
    have hone : 1 ≤ b.toNat := by
      have : b.toNat ≠ 0 := fun h0 => hb (UInt8.toNat_inj.mp (by simpa using h0))
      omega
    have hle := le_ofBytes b bytes
    have := Nat.mul_le_mul_right (256 ^ bytes.length) hone
    have hlt' := (byteWidth_le_iff.mp hfew).1
    omega
  rw [toBytesBe, hwidth, bytesOf_ofBytes]

end Pillar.Bits
