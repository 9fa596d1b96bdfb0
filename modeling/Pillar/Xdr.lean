/-
XDR, as far as Stellar's values need it: unsigned integers of four and of eight
bytes, the most significant first, and opaque data behind its length, filled up
to a multiple of four.
-/
import Pillar.Bits

namespace Pillar.Xdr

open Bits

/-- A length that does not fit is cut to its last four bytes. -/
def word (n : Nat) : List UInt8 := bytesOf 4 n

def hyper (n : Nat) : List UInt8 := bytesOf 8 n

def padding (length : Nat) : Nat := (4 - length % 4) % 4

/-- The length with its padding. -/
def padded (length : Nat) : Nat := length + padding length

def opaqueData (bytes : List UInt8) : List UInt8 :=
  word bytes.length ++ bytes ++ List.replicate (padding bytes.length) 0

@[simp] theorem length_word (n : Nat) : (word n).length = 4 := length_bytesOf 4 n

@[simp] theorem length_hyper (n : Nat) : (hyper n).length = 8 := length_bytesOf 8 n

theorem length_opaqueData (bytes : List UInt8) : (opaqueData bytes).length = 4 + padded bytes.length := by
  rw [opaqueData, List.length_append, List.length_append, length_word, List.length_replicate, padded, Nat.add_assoc]

/-- Only the last bytes of a number are written. -/
theorem bytesOf_mod (width value : Nat) : bytesOf width (value % 256 ^ width) = bytesOf width value := by
  induction width generalizing value with
  | zero => rfl
  | succ width ih =>
    have hhigh : value % 256 ^ (width + 1) / 256 = value / 256 % 256 ^ width := by
      rw [pow_succ', Nat.mod_mul_right_div_self]
    have hlow : UInt8.ofNat (value % 256 ^ (width + 1)) = UInt8.ofNat value := by
      rw [← UInt8.toNat_inj, UInt8.toNat_ofNat', UInt8.toNat_ofNat']
      exact Nat.mod_mod_of_dvd value (dvd_pow_self 256 (Nat.succ_ne_zero width))
    rw [bytesOf, bytesOf, hhigh, hlow, ih]

theorem word_mod (n : Nat) : word (n % 2 ^ 32) = word n := bytesOf_mod 4 n

/-- Words in front of a rest. -/
theorem word_append_inj {a b : Nat} {s t : List UInt8} (h : word a ++ s = word b ++ t) :
    a % 2 ^ 32 = b % 2 ^ 32 ∧ s = t := by
  obtain ⟨hword, hrest⟩ := List.append_inj h (by rw [length_word, length_word])
  have hlt : ∀ n, n % 2 ^ 32 < 256 ^ 4 := fun n => Nat.mod_lt n (by decide)
  rw [← word_mod a, ← word_mod b] at hword
  have hvalue := congrArg ofBytes hword
  rw [word, word, ofBytes_bytesOf (hlt a), ofBytes_bytesOf (hlt b)] at hvalue
  exact ⟨hvalue, hrest⟩

theorem hyper_append_inj {a b : Nat} {s t : List UInt8} (ha : a < 2 ^ 64) (hb : b < 2 ^ 64)
    (h : hyper a ++ s = hyper b ++ t) : a = b ∧ s = t := by
  obtain ⟨hhyper, hrest⟩ := List.append_inj h (by rw [length_hyper, length_hyper])
  have hvalue := congrArg ofBytes hhyper
  rw [hyper, hyper, ofBytes_bytesOf ha, ofBytes_bytesOf hb] at hvalue
  exact ⟨hvalue, hrest⟩

/-- Opaque data shows its length but for multiples of `2 ^ 32`. -/
theorem opaqueData_length_mod {a b s t : List UInt8} (h : opaqueData a ++ s = opaqueData b ++ t) :
    a.length % 2 ^ 32 = b.length % 2 ^ 32 := by
  rw [opaqueData, opaqueData, List.append_assoc, List.append_assoc, List.append_assoc, List.append_assoc] at h
  exact (word_append_inj h).1

/-- Of one length, it is read back with any rest. -/
theorem opaqueData_append_inj {a b s t : List UInt8} (hlen : a.length = b.length)
    (h : opaqueData a ++ s = opaqueData b ++ t) : a = b ∧ s = t := by
  obtain ⟨hdata, hrest⟩ := List.append_inj h (by rw [length_opaqueData, length_opaqueData, hlen])
  rw [opaqueData, opaqueData, List.append_assoc, List.append_assoc] at hdata
  exact ⟨(List.append_inj (word_append_inj hdata).2 hlen).1, hrest⟩

theorem padding_lt (length : Nat) : padding length < 4 := Nat.mod_lt _ (by decide)

/-- Lengths that are equal but for multiples of four have the same padding. -/
theorem padding_congr {m n : Nat} (h : m % 4 = n % 4) : padding m = padding n := by
  rw [padding, padding, h]

/-! ## Lengths that wrap -/

/-- Two pairs of lengths that are written alike, with the same room for both data. -/
structure Wraps (first second first' second' : Nat) : Prop where
  ne : first ≠ first'
  written : first % 2 ^ 32 = first' % 2 ^ 32
  room : padded first + padded second = padded first' + padded second'

theorem Wraps.symm {n p n' p' : Nat} (h : Wraps n p n' p') : Wraps n' p' n p where
  ne := h.ne.symm
  written := h.written.symm
  room := h.room.symm

theorem not_wraps_of_lt {n p n' p' : Nat} (h : n < 2 ^ 32) (h' : n' < 2 ^ 32) : ¬ Wraps n p n' p' := fun hwraps =>
  hwraps.ne (by rw [← Nat.mod_eq_of_lt h, hwraps.written, Nat.mod_eq_of_lt h'])

/-- Empty data too ends in four zeros. -/
theorem zeros_end (length : Nat) :
    ∃ front : List UInt8, front.length = padded length ∧
      word length ++ List.replicate (padded length) 0 = front ++ List.replicate 4 0 := by
  rcases Nat.eq_zero_or_pos length with rfl | hpos
  · exact ⟨[], by decide, by decide⟩
  · have hfour : 4 ≤ padded length := by rw [padded, padding]; omega
    refine ⟨word length ++ List.replicate (padded length - 4) 0, ?_, ?_⟩
    · rw [List.length_append, length_word, List.length_replicate, Nat.add_sub_cancel' hfour]
    · rw [List.append_assoc, List.replicate_append_replicate, Nat.sub_add_cancel hfour]

/-- **Lengths that wrap collide**: the longer first string swallows the tag, the
length and the beginning of the second. -/
theorem Wraps.collide_of_lt {n p n' p' : Nat} (h : Wraps n p n' p') (hlt : n < n') {tag : List UInt8}
    (htag : tag.length = 4) :
    ∃ a b a' b' : List UInt8, a.length = n ∧ b.length = p ∧ a'.length = n' ∧ b'.length = p' ∧
      opaqueData a ++ (tag ++ opaqueData b) = opaqueData a' ++ (tag ++ opaqueData b') := by
  obtain ⟨-, hmod, hroom⟩ := h
  obtain ⟨gap, rfl⟩ : ∃ gap, n' = n + gap := ⟨n' - n, by omega⟩
  have hgap : 2 ^ 32 ≤ gap ∧ gap % 4 = 0 := by omega
  have hpad : padding (n + gap) = padding n := padding_congr (by omega)
  have hpadlt := padding_lt n
  have hplt := padding_lt p
  obtain ⟨front, hfront, hzeros⟩ := zeros_end p'
  simp only [padded, hpad] at hroom
  have hlast : front ++ (List.replicate (4 - padding p) 0 ++ List.replicate (padding p) 0) =
      word p' ++ (List.replicate p' 0 ++ List.replicate (padding p') 0) := by
    rw [List.replicate_append_replicate, Nat.sub_add_cancel (Nat.le_of_lt hplt), ← hzeros,
      List.replicate_append_replicate, padded]
  have hgapZeros : List.replicate (gap - 8) (0 : UInt8) =
      List.replicate (gap - 8 - padding n) 0 ++ List.replicate (padding n) 0 := by
    rw [List.replicate_append_replicate, Nat.sub_add_cancel (by omega)]
  have hword : word (n + gap) = word n := by rw [← word_mod, ← hmod, word_mod]
  have hfirst : (List.replicate n 0 ++ (List.replicate (padding n) 0 ++ (tag ++ (word p ++
      List.replicate (gap - 8 - padding n) 0)))).length = n + gap := by
    simp only [List.length_append, List.length_replicate, htag, length_word]
    omega
  have hsecond : (List.replicate (gap - 8) 0 ++ (tag ++ (front ++ List.replicate (4 - padding p) 0))).length = p := by
    simp only [List.length_append, List.length_replicate, htag, hfront, padded]
    omega
  refine ⟨List.replicate n 0, _, _, List.replicate p' 0, List.length_replicate, hsecond, hfirst,
    List.length_replicate, ?_⟩
  rw [opaqueData, opaqueData, opaqueData, opaqueData, hfirst, hsecond, List.length_replicate, List.length_replicate,
    hword, hpad, hgapZeros]
  simp only [List.append_assoc, hlast]

theorem Wraps.collide {n p n' p' : Nat} (h : Wraps n p n' p') {tag : List UInt8} (htag : tag.length = 4) :
    ∃ a b a' b' : List UInt8, a.length = n ∧ b.length = p ∧ a'.length = n' ∧ b'.length = p' ∧
      opaqueData a ++ (tag ++ opaqueData b) = opaqueData a' ++ (tag ++ opaqueData b') := by
  rcases Nat.lt_or_gt_of_ne h.ne with hlt | hgt
  · exact h.collide_of_lt hlt htag
  · obtain ⟨a', b', a, b, ha', hb', ha, hb, heq⟩ := h.symm.collide_of_lt hgt htag
    exact ⟨a, b, a', b', ha, hb, ha', hb', heq.symm⟩

/-- **Lengths that do not wrap bind**: two strings in front of a rest of one length are read back. -/
theorem opaquePair_inj {a b a' b' tag s t : List UInt8} (hrest : s.length = t.length)
    (hwraps : ¬ Wraps a.length b.length a'.length b'.length)
    (h : opaqueData a ++ (tag ++ (opaqueData b ++ s)) = opaqueData a' ++ (tag ++ (opaqueData b' ++ t))) :
    a = a' ∧ b = b' ∧ s = t := by
  have hwritten := opaqueData_length_mod h
  have hlength := congrArg List.length h
  simp only [List.length_append, length_opaqueData] at hlength
  have hfirst : a.length = a'.length := by
    by_contra hne
    exact hwraps ⟨hne, hwritten, by omega⟩
  obtain ⟨rfl, htail⟩ := opaqueData_append_inj hfirst h
  have htail := List.append_cancel_left htail
  have hsecond : b.length = b'.length := by
    have hpadded : padded b.length = padded b'.length := by omega
    have hwritten := opaqueData_length_mod htail
    rw [padded, padded, padding, padding] at hpadded
    omega
  obtain ⟨rfl, hrest⟩ := opaqueData_append_inj hsecond htail
  exact ⟨rfl, rfl, hrest⟩

end Pillar.Xdr
