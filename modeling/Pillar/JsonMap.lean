/-
What `serde_json::Map::insert` leaves in a map: the entries of `Json.insertEntry`,
whatever they were before or as long as they are in key order.
-/
import Pillar.Json

namespace Pillar.Json

variable {key : String} {value : Json} {e : String × Json}

theorem mem_insertEntry : ∀ {entries : List (String × Json)},
    e ∈ insertEntry key value entries → e = (key, value) ∨ e ∈ entries
  | [], h => .inl (List.mem_singleton.mp h)
  | (k, v) :: rest, h => by
    rw [insertEntry] at h
    split at h
    · exact (List.mem_cons.mp h).imp_right fun h => List.mem_cons_of_mem _ h
    · split at h
      · exact List.mem_cons.mp h
      · rcases List.mem_cons.mp h with rfl | h
        · exact .inr List.mem_cons_self
        · exact (mem_insertEntry h).imp_right fun h => List.mem_cons_of_mem _ h

theorem mem_insertEntry_self (key : String) (value : Json) : ∀ entries : List (String × Json),
    (key, value) ∈ insertEntry key value entries
  | [] => List.mem_cons_self
  | (k, v) :: rest => by
    rw [insertEntry]
    split
    · exact List.mem_cons_self
    · split
      · exact List.mem_cons_self
      · exact List.mem_cons_of_mem _ (mem_insertEntry_self key value rest)

theorem mem_insertEntry_of_ne (hne : e.1 ≠ key) : ∀ {entries : List (String × Json)}, e ∈ entries →
    e ∈ insertEntry key value entries
  | (k, v) :: rest, h => by
    rw [insertEntry]
    split
    next hk =>
      rcases List.mem_cons.mp h with rfl | h
      · exact absurd hk hne
      · exact List.mem_cons_of_mem _ h
    next =>
      split
      · exact List.mem_cons_of_mem _ h
      · rcases List.mem_cons.mp h with rfl | h
        · exact List.mem_cons_self
        · exact List.mem_cons_of_mem _ (mem_insertEntry_of_ne hne h)

theorem mem_keys_insertEntry {k : String} {entries : List (String × Json)} :
    k ∈ (insertEntry key value entries).map Prod.fst ↔ k = key ∨ k ∈ entries.map Prod.fst := by
  constructor
  · intro h
    obtain ⟨e, he, rfl⟩ := List.mem_map.mp h
    rcases mem_insertEntry he with rfl | he
    · exact .inl rfl
    · exact .inr (List.mem_map_of_mem he)
  · intro h
    by_cases hk : k = key
    · subst hk
      exact List.mem_map_of_mem (mem_insertEntry_self k value entries)
    · obtain ⟨e, he, rfl⟩ := List.mem_map.mp (h.resolve_left hk)
      exact List.mem_map_of_mem (mem_insertEntry_of_ne hk he)

/-- A key that was not there is one more entry. -/
theorem insertEntry_perm : ∀ {entries : List (String × Json)}, key ∉ entries.map Prod.fst →
    (insertEntry key value entries).Perm ((key, value) :: entries)
  | [], _ => .refl _
  | (k, v) :: rest, h => by
    rw [List.map_cons, List.mem_cons, not_or] at h
    rw [insertEntry, if_neg (Ne.symm h.1)]
    split
    · exact .refl _
    · exact ((insertEntry_perm h.2).cons _).trans (.swap _ _ _)

/-- The keys go up. -/
def Sorted (entries : List (String × Json)) : Prop := entries.Pairwise (·.1 < ·.1)

theorem Sorted.insertEntry : ∀ {entries : List (String × Json)}, Sorted entries → Sorted (insertEntry key value entries)
  | [], _ => List.pairwise_singleton _ _
  | (k, v) :: rest, h => by
    obtain ⟨hfirst, hrest⟩ := List.pairwise_cons.mp h
    rw [Json.insertEntry]
    split
    next hk =>
      subst hk
      exact List.pairwise_cons.mpr ⟨hfirst, hrest⟩
    next hk =>
      split
      next hlt =>
        refine List.pairwise_cons.mpr ⟨fun e he => ?_, h⟩
        rcases List.mem_cons.mp he with rfl | he
        · exact hlt
        · exact lt_trans hlt (hfirst e he)
      next hlt =>
        refine List.pairwise_cons.mpr ⟨fun e he => ?_, Sorted.insertEntry hrest⟩
        rcases mem_insertEntry he with rfl | he
        · exact lt_of_le_of_ne (not_lt.mp hlt) hk
        · exact hfirst e he

/-- In front of entries with greater keys. -/
theorem insertEntry_of_lt {entries : List (String × Json)} (h : ∀ e ∈ entries, key < e.1) :
    insertEntry key value entries = (key, value) :: entries := by
  cases entries with
  | nil => rfl
  | cons first rest =>
    have hlt := h first List.mem_cons_self
    rw [insertEntry, if_neg (ne_of_gt hlt), if_pos hlt]

end Pillar.Json
