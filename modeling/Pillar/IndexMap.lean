/-
`IndexMap`: a map that remembers the order its keys came in. Each key stands
once; equality does not look at the order.
-/
import Mathlib

namespace Pillar

structure IndexMap (β : Type) where
  entries : List (String × β)
  nodup : (entries.map Prod.fst).Nodup

namespace IndexMap

variable {β : Type} {m : IndexMap β} {p : String → Bool} {key : String}

def keys (m : IndexMap β) : List String := m.entries.map Prod.fst

def get? (m : IndexMap β) (key : String) : Option β := m.entries.lookup key

def containsKey (m : IndexMap β) (key : String) : Bool := (m.get? key).isSome

def retain (m : IndexMap β) (p : String → Bool) : IndexMap β where
  entries := m.entries.filter (p ·.1)
  nodup := m.nodup.sublist (List.filter_sublist.map Prod.fst)

/-- Each value by its key's. -/
def mapEntry (key : String) (value : β) (entry : String × β) : String × β :=
  if entry.1 = key then (key, value) else entry

theorem mapEntry_fst (key : String) (value : β) (entry : String × β) : (mapEntry key value entry).1 = entry.1 := by
  unfold mapEntry
  split
  next h => exact h.symm
  next => rfl

/-- `insert`: a key that is there keeps its place. -/
def insert (m : IndexMap β) (key : String) (value : β) : IndexMap β :=
  if h : key ∈ m.keys then
    { entries := m.entries.map (mapEntry key value)
      nodup := by
        have hkeys : (m.entries.map (mapEntry key value)).map Prod.fst = m.entries.map Prod.fst := by
          rw [List.map_map]
          exact List.map_congr_left fun entry _ => mapEntry_fst key value entry
        rw [hkeys]
        exact m.nodup }
  else
    { entries := m.entries ++ [(key, value)]
      nodup := by
        rw [List.map_append, List.nodup_append]
        refine ⟨m.nodup, List.nodup_singleton key, fun a ha b hb heq => h ?_⟩
        have hkey : b = key := List.mem_singleton.mp hb
        rwa [← hkey, ← heq] }

/-- `==`: as many entries, and each key has an equal value on the other side. -/
def same (eq : β → β → Bool) (m m' : IndexMap β) : Bool :=
  m.entries.length == m'.entries.length && m.entries.all fun (key, value) => (m'.get? key).any (eq value)

theorem lookup_isSome (l : List (String × β)) : (l.lookup key).isSome ↔ key ∈ l.map Prod.fst := by
  induction l with
  | nil => simp
  | cons entry l ih =>
    obtain ⟨k, v⟩ := entry
    rw [List.lookup_cons, List.map_cons, List.mem_cons, ← ih]
    by_cases hk : key = k
    · simp [hk]
    · simp [beq_false_of_ne hk, hk]

theorem lookup_mapEntry {value : β} (l : List (String × β)) (k : String) :
    (l.map (mapEntry k value)).lookup key = if key = k ∧ k ∈ l.map Prod.fst then .some value else l.lookup key := by
  induction l with
  | nil => simp
  | cons entry l ih =>
    obtain ⟨k', v⟩ := entry
    rw [List.map_cons, mapEntry]
    by_cases hk : k' = k
    · subst hk
      rw [if_pos rfl, List.lookup_cons, List.lookup_cons, ih]
      by_cases hkey : key = k'
      · simp [hkey]
      · simp [hkey, beq_false_of_ne hkey]
    · rw [if_neg hk, List.lookup_cons, List.lookup_cons, ih]
      by_cases hkey : key = k'
      · subst hkey
        simp [hk]
      · simp only [beq_false_of_ne hkey, List.map_cons, List.mem_cons, Ne.symm hk, false_or]

theorem lookup_filter (l : List (String × β)) :
    (l.filter (p ·.1)).lookup key = if p key then l.lookup key else .none := by
  induction l with
  | nil => simp
  | cons entry l ih =>
    obtain ⟨k, v⟩ := entry
    rw [List.filter_cons, List.lookup_cons]
    by_cases hk : key = k
    · subst hk
      by_cases hp : p key
      · simp [hp]
      · simpa [hp] using ih
    · by_cases hp : p k
      · rw [if_pos hp, List.lookup_cons, ih]
        simp [beq_false_of_ne hk]
      · rw [if_neg hp, ih]
        simp [beq_false_of_ne hk]

theorem get?_insert {k : String} {value : β} :
    (m.insert k value).get? key = if key = k then .some value else m.get? key := by
  unfold insert
  split
  next hin =>
    rw [get?, lookup_mapEntry]
    have hmem : k ∈ m.entries.map Prod.fst := hin
    simp [hmem, get?]
  next hout =>
    have hnone : m.entries.lookup k = .none := by
      rw [← Option.not_isSome_iff_eq_none, lookup_isSome]
      exact hout
    rw [get?, get?, List.lookup_append]
    by_cases hkey : key = k
    · subst hkey
      simp [hnone]
    · simp [List.lookup_cons, beq_false_of_ne hkey, hkey]

theorem mem_of_get? {value : β} (h : m.get? key = .some value) : (key, value) ∈ m.entries := by
  obtain ⟨front, back, heq, -⟩ := List.lookup_eq_some_iff.mp h
  rw [heq]
  exact List.mem_append_right front List.mem_cons_self

@[simp] theorem get?_retain : (m.retain p).get? key = if p key then m.get? key else .none :=
  lookup_filter m.entries

@[simp] theorem keys_retain : (m.retain p).keys = m.keys.filter p := by
  rw [keys, keys, retain, List.filter_map]
  rfl

theorem containsKey_retain : (m.retain p).containsKey key = (p key && m.containsKey key) := by
  rw [containsKey, get?_retain, containsKey]
  cases p key <;> rfl

end IndexMap

end Pillar
