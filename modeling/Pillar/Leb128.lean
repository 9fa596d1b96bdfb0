/-
LEB128: a number in groups of seven bits, least significant first, every byte
but the last with its high bit set.
-/
import Mathlib

namespace Pillar.Leb128

/-- The number the groups stand for. -/
def value (bytes : List UInt8) : Nat := ∑ i ∈ Finset.range bytes.length, (bytes.getD i 0).toNat % 128 * 2 ^ (7 * i)

/-- The last byte, and only it, has its high bit clear. -/
inductive Terminated : List UInt8 → Prop where
  | last {b : UInt8} (h : b.toNat < 128) : Terminated [b]
  | more {b : UInt8} {bytes : List UInt8} (h : 128 ≤ b.toNat) (rest : Terminated bytes) : Terminated (b :: bytes)

def encode (n : Nat) : List UInt8 :=
  if n < 128 then [UInt8.ofNat n] else UInt8.ofNat (n % 128 + 128) :: encode (n / 128)
termination_by n

variable {b : UInt8} {bytes : List UInt8} {n : Nat}

@[simp] theorem value_nil : value [] = 0 := rfl

theorem value_cons (b : UInt8) (bytes : List UInt8) : value (b :: bytes) = b.toNat % 128 + 128 * value bytes := by
  rw [value, value, List.length_cons, Finset.sum_range_succ', Finset.mul_sum, Nat.add_comm]
  congr 1
  · simp
  · refine Finset.sum_congr rfl fun i _ => ?_
    rw [List.getD_cons_succ, Nat.mul_add, Nat.pow_add]
    ring

theorem Terminated.length_pos (h : Terminated bytes) : 0 < bytes.length := by
  cases h <;> simp

/-- No terminated text is the start of another. -/
theorem Terminated.eq_of_append {bytes' r r' : List UInt8} (h : Terminated bytes) (h' : Terminated bytes')
    (heq : bytes ++ r = bytes' ++ r') : bytes = bytes' := by
  induction h generalizing bytes' with
  | @last b hb =>
    cases h' with
    | last => rw [(List.cons.inj heq).1]
    | more hb' =>
      have hsame := (List.cons.inj heq).1
      subst hsame
      omega
  | @more b bytes hb _ ih =>
    cases h' with
    | last hb' =>
      have hsame := (List.cons.inj heq).1
      subst hsame
      omega
    | more hb' hrest' =>
      obtain ⟨hsame, hrest⟩ := List.cons.inj heq
      rw [hsame, ih hrest' hrest]

theorem value_lt (bytes : List UInt8) : value bytes < 2 ^ (7 * bytes.length) := by
  induction bytes with
  | nil => simp
  | cons b bytes ih =>
    rw [value_cons, List.length_cons, Nat.mul_succ, Nat.pow_add]
    omega

theorem value_append (first second : List UInt8) :
    value (first ++ second) = value first + 2 ^ (7 * first.length) * value second := by
  induction first with
  | nil => simp
  | cons b first ih =>
    rw [List.cons_append, value_cons, value_cons, ih, List.length_cons, Nat.mul_succ, Nat.pow_add]
    ring

theorem terminated_concat {start : List UInt8} {last : UInt8} (h : ∀ b ∈ start, 128 ≤ b.toNat)
    (hlast : last.toNat < 128) :
    Terminated (start ++ [last]) := by
  induction start with
  | nil => exact .last hlast
  | cons b start ih => exact .more (h b List.mem_cons_self) (ih fun b' hb' => h b' (List.mem_cons_of_mem _ hb'))

theorem Terminated.exists_concat (h : Terminated bytes) : ∃ start last, bytes = start ++ [last] ∧
    (∀ b ∈ start, 128 ≤ b.toNat) ∧ last.toNat < 128 := by
  induction h with
  | @last b hb => exact ⟨[], b, rfl, fun _ h => (by cases h), hb⟩
  | @more b bytes hb _ ih =>
    obtain ⟨start, last, rfl, hstart, hlast⟩ := ih
    refine ⟨b :: start, last, rfl, fun b' hb' => ?_, hlast⟩
    rcases List.mem_cons.mp hb' with rfl | hb'
    · exact hb
    · exact hstart b' hb'

theorem encode_small (h : n < 128) : encode n = [UInt8.ofNat n] := by
  rw [encode, if_pos h]

theorem encode_large (h : 128 ≤ n) : encode n = UInt8.ofNat (n % 128 + 128) :: encode (n / 128) := by
  rw [encode, if_neg (not_lt.mpr h)]

theorem toNat_byte (h : n < 256) : (UInt8.ofNat n).toNat = n := UInt8.toNat_ofNat_of_lt' h

theorem terminated_encode (n : Nat) : Terminated (encode n) := by
  induction n using Nat.strongRecOn with
  | ind n ih =>
    by_cases hsmall : n < 128
    · rw [encode_small hsmall]
      exact .last (by rw [toNat_byte (by omega)]; exact hsmall)
    · rw [encode_large (not_lt.mp hsmall)]
      exact .more (by rw [toNat_byte (by omega)]; omega) (ih (n / 128) (by omega))

theorem value_encode (n : Nat) : value (encode n) = n := by
  induction n using Nat.strongRecOn with
  | ind n ih =>
    by_cases hsmall : n < 128
    · rw [encode_small hsmall, value_cons, toNat_byte (by omega), value_nil]
      omega
    · rw [encode_large (not_lt.mp hsmall), value_cons, toNat_byte (by omega), ih (n / 128) (by omega)]
      omega

/-- A number is told from what follows it. -/
theorem encode_append_inj {m : Nat} {r r' : List UInt8} (h : encode n ++ r = encode m ++ r') : n = m ∧ r = r' := by
  have hbytes := (terminated_encode n).eq_of_append (terminated_encode m) h
  rw [hbytes] at h
  refine ⟨?_, List.append_cancel_left h⟩
  rw [← value_encode n, hbytes, value_encode]

/-- A number of `k` groups takes no more than `k` bytes. -/
theorem length_encode_le : ∀ {k n : Nat}, n < 128 ^ (k + 1) → (encode n).length ≤ k + 1
  | 0, n, h => by
    rw [encode_small (by simpa using h)]
    rfl
  | k + 1, n, h => by
    by_cases hsmall : n < 128
    · rw [encode_small hsmall]
      simp
    · rw [encode_large (not_lt.mp hsmall), List.length_cons]
      have hdiv : n / 128 < 128 ^ (k + 1) := by
        rw [Nat.div_lt_iff_lt_mul (by decide), ← Nat.pow_succ]
        exact h
      exact Nat.succ_le_succ (length_encode_le hdiv)

end Pillar.Leb128
