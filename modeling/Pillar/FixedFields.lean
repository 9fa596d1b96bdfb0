/-
Fields at fixed places in bytes: a slice that is there or is not, and numbers
whose least significant byte comes first.

What is written behind a prefix of known length is read back at that place, and
so is each of a run of fields of one width.
-/
import Pillar.Bits

namespace Pillar.FixedFields

open Bits (bytesOf ofBytes ofBytes_bytesOf length_bytesOf)

/-- `data.get(offset..offset + n)`. -/
def bytesAt (data : List UInt8) (offset n : Nat) : Option (List UInt8) :=
  if offset + n ≤ data.length then .some ((data.drop offset).take n) else .none

def leBytes (n value : Nat) : List UInt8 := (bytesOf n value).reverse

/-- `from_le_bytes`. -/
def leNat (bytes : List UInt8) : Nat := ofBytes bytes.reverse

@[simp] theorem length_leBytes (n value : Nat) : (leBytes n value).length = n := by
  rw [leBytes, List.length_reverse, length_bytesOf]

theorem leNat_leBytes {n value : Nat} (h : value < 256 ^ n) : leNat (leBytes n value) = value := by
  rw [leNat, leBytes, List.reverse_reverse, ofBytes_bytesOf h]

theorem length_bytesAt {data bytes : List UInt8} {offset n : Nat} (h : bytesAt data offset n = .some bytes) :
    bytes.length = n := by
  unfold bytesAt at h
  split at h
  · cases h
    rw [List.length_take, List.length_drop]
    omega
  · cases h

variable {offset n : Nat}

/-- **What is written at a place is read there.** -/
theorem bytesAt_append (before part after : List UInt8) (hoffset : before.length = offset) (hn : part.length = n) :
    bytesAt (before ++ (part ++ after)) offset n = .some part := by
  subst hoffset hn
  rw [bytesAt, if_pos (by simp only [List.length_append]; omega), List.drop_left, List.take_left]

/-- The fields of a run have one width, so each has its place. -/
theorem bytesAt_run {α : Type} {write : α → List UInt8} {width : Nat} (hwidth : ∀ a, (write a).length = width)
    {before after : List UInt8} (hoffset : before.length = offset) {items : List α} {index : Nat} {item : α}
    (h : items[index]? = .some item) :
    bytesAt (before ++ (items.flatMap write ++ after)) (offset + index * width) width = .some (write item) := by
  obtain ⟨hlt, hitem⟩ := List.getElem?_eq_some_iff.mp h
  have hsplit : items = items.take index ++ item :: items.drop (index + 1) := by
    rw [← hitem, List.getElem_cons_drop, List.take_append_drop]
  have hlength : ((items.take index).flatMap write).length = index * width := by
    rw [List.length_flatMap, List.map_congr_left fun a _ => hwidth a, List.map_const', List.sum_replicate,
      List.length_take, Nat.min_eq_left (Nat.le_of_lt hlt), smul_eq_mul]
  have hplace : (before ++ (items.take index).flatMap write).length = offset + index * width := by
    rw [List.length_append, hoffset, hlength]
  have hwhole : before ++ (items.flatMap write ++ after) = (before ++ (items.take index).flatMap write) ++
      (write item ++ ((items.drop (index + 1)).flatMap write ++ after)) := by
    conv_lhs => rw [hsplit]
    simp only [List.flatMap_append, List.flatMap_cons, List.append_assoc]
  rw [hwhole, bytesAt_append _ _ _ hplace (hwidth item)]

end Pillar.FixedFields
