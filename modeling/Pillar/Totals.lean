/-
Totals by key: lists of entries, each key once, that amounts are added to one
after the other.
-/
import Mathlib

namespace Pillar.Totals

variable {κ β : Type}

section

variable [BEq κ] [LawfulBEq κ]

theorem lookup_cons_of_ne {k k' : κ} (h : k ≠ k') (v : β) (l : List (κ × β)) :
    ((k', v) :: l).lookup k = l.lookup k := by
  rw [List.lookup_cons, beq_false_of_ne h]

/-- A list of entries is told by its keys and what stands at each. -/
theorem eq_map_of_lookup : ∀ {l : List (κ × β)} {f : κ → β}, (l.map Prod.fst).Nodup →
    (∀ k ∈ l.map Prod.fst, l.lookup k = .some (f k)) → l = (l.map Prod.fst).map fun k => (k, f k)
  | [], _, _, _ => rfl
  | (k, v) :: l, f, hkeys, h => by
    obtain ⟨hk, hkeys⟩ := List.nodup_cons.mp hkeys
    have hhead := h k List.mem_cons_self
    rw [List.lookup_cons_self] at hhead
    have htail := eq_map_of_lookup (f := f) hkeys fun k' hk' => by
      have hlookup := h k' (List.mem_cons_of_mem _ hk')
      have hne : k' ≠ k := fun heq => hk (heq ▸ hk')
      rwa [lookup_cons_of_ne hne] at hlookup
    rw [List.map_cons, List.map_cons, ← htail, Option.some.inj hhead]

/-- The keys, each where it comes first. -/
theorem eraseDups_concat (l : List κ) (a : κ) :
    (l ++ [a]).eraseDups = if a ∈ l then l.eraseDups else l.eraseDups ++ [a] := by
  have hsingle : [a].eraseDups = [a] := by rw [List.eraseDups_cons, List.filter_nil, List.eraseDups_nil]
  rw [List.eraseDups_append]
  by_cases h : a ∈ l
  · simp [List.removeAll, h]
  · simp [List.removeAll, h, hsingle]

theorem nodup_eraseDups (l : List κ) : l.eraseDups.Nodup := by
  induction l using List.reverseRecOn with
  | nil => exact List.nodup_nil
  | append_singleton l a ih =>
    rw [eraseDups_concat]
    split
    next => exact ih
    next h =>
      exact List.nodup_append.mpr ⟨ih, List.nodup_singleton a, fun b hb c hc => by
        rw [List.mem_singleton.mp hc]
        exact fun hba => h (List.mem_eraseDups.mp (hba ▸ hb))⟩

end

section

variable [DecidableEq κ] [AddCommMonoid β]

/-- What the items of one key add up to. -/
def total (items : List (κ × β)) (k : κ) : β := ((items.filter fun item => item.1 = k).map Prod.snd).sum

theorem total_concat (items : List (κ × β)) (item : κ × β) (k : κ) :
    total (items ++ [item]) k = total items k + if item.1 = k then item.2 else 0 := by
  rw [total, List.filter_append, List.map_append, List.sum_append, ← total]
  by_cases h : item.1 = k
  · simp [h]
  · simp [h]

theorem total_eq_zero {items : List (κ × β)} {k : κ} (h : k ∉ items.map Prod.fst) : total items k = 0 := by
  have hnone : items.filter (fun item => item.1 = k) = [] := by
    refine List.filter_eq_nil_iff.mpr fun item hitem hk => h ?_
    exact of_decide_eq_true hk ▸ List.mem_map_of_mem hitem
  rw [total, hnone, List.map_nil, List.sum_nil]

theorem total_perm {items items' : List (κ × β)} (h : items.Perm items') : total items = total items' :=
  funext fun _ => ((h.filter _).map _).sum_eq

variable [BEq κ] [LawfulBEq κ]

/-- On lists with `I`, `add` puts an amount on what stands at its key, and touches no other. -/
structure Adds (I : List (κ × β) → Prop) (add : List (κ × β) → κ → β → List (κ × β)) : Prop where
  nil : I []
  keeps : ∀ l k v, I l → I (add l k v)
  lookup : ∀ l k v k', I l →
    (add l k v).lookup k' = if k' = k then .some ((l.lookup k).getD 0 + v) else l.lookup k'

variable {I : List (κ × β) → Prop} {add : List (κ × β) → κ → β → List (κ × β)}

/-- **What is added up at a key** is the total of its items. -/
theorem Adds.foldl (h : Adds I add) (items : List (κ × β)) :
    I (items.foldl (fun l item => add l item.1 item.2) []) ∧
      ∀ k, (items.foldl (fun l item => add l item.1 item.2) []).lookup k =
        if k ∈ items.map Prod.fst then .some (total items k) else .none := by
  induction items using List.reverseRecOn with
  | nil => exact ⟨h.nil, fun k => rfl⟩
  | append_singleton items item ih =>
    obtain ⟨hI, hlookup⟩ := ih
    rw [List.foldl_append, List.foldl_cons, List.foldl_nil]
    refine ⟨h.keeps _ _ _ hI, fun k => ?_⟩
    rw [h.lookup _ _ _ _ hI, hlookup, hlookup, total_concat, List.map_append, List.map_singleton]
    by_cases hk : k = item.1
    · subst hk
      rw [if_pos rfl, if_pos rfl, if_pos (List.mem_append_right _ (List.mem_singleton_self _))]
      split
      next => rw [Option.getD_some]
      next hnew => rw [Option.getD_none, total_eq_zero hnew]
    · have hmem : k ∈ items.map Prod.fst ++ [item.1] ↔ k ∈ items.map Prod.fst := by simp [hk]
      rw [if_neg hk, if_neg (Ne.symm hk), add_zero]
      simp only [hmem]

/-- **Entries by key**: the keys in some order, each with the total of its items. -/
theorem Adds.foldl_eq (h : Adds I add) {items : List (κ × β)} {keys : List κ}
    (hkeys : (items.foldl (fun l item => add l item.1 item.2) []).map Prod.fst = keys) (hnodup : keys.Nodup)
    (hmem : ∀ k ∈ keys, k ∈ items.map Prod.fst) :
    items.foldl (fun l item => add l item.1 item.2) [] = keys.map fun k => (k, total items k) := by
  have hmap := eq_map_of_lookup (f := total items) (by rw [hkeys]; exact hnodup) fun k hk => by
    rw [(h.foldl items).2, if_pos (hmem k (hkeys ▸ hk))]
  rwa [hkeys] at hmap

end

end Pillar.Totals
