/-
Filling slots with distinct values: each slot has a kind, a kind lists the
values it accepts, and every slot takes a value of its own (a system of
distinct representatives, with repeated kinds).

`fillable_of_held`: an ownership that hands each kind as many values as it has
slots fills them. `not_fillable_of_closed`: when the values of some kinds are
all held by those kinds, they cannot get one more; this is the counting half of
Hall's theorem, and it is what a failed search for an augmenting path exhibits.
-/
import Mathlib

namespace Pillar.Slots

variable {κ ν : Type}

/-- `vs` gives each slot its own value, one its kind lists. -/
structure Fills (lists : κ → ν → Prop) (slots : List κ) (vs : List ν) : Prop where
  nodup : vs.Nodup
  fits : List.Forall₂ lists slots vs

/-- The slots can all be filled. -/
def Fillable (lists : κ → ν → Prop) (slots : List κ) : Prop := ∃ vs, Fills lists slots vs

theorem Fillable.mono {lists lists' : κ → ν → Prop} {slots : List κ} (h : Fillable lists slots)
    (hl : ∀ k v, lists k v → lists' k v) : Fillable lists' slots := by
  obtain ⟨vs, hn, hf⟩ := h
  exact ⟨vs, hn, hf.imp hl⟩

/-- Values of the slots of a filling, seen from the values. -/
theorem Fills.mem {lists : κ → ν → Prop} {slots : List κ} {vs : List ν} (h : Fills lists slots vs)
    {v : ν} (hv : v ∈ vs) : ∃ k ∈ slots, lists k v := by
  obtain ⟨-, hf⟩ := h
  induction hf with
  | nil => cases hv
  | cons hkv _ ih =>
    rcases List.mem_cons.mp hv with rfl | hv
    · exact ⟨_, List.mem_cons_self, hkv⟩
    · obtain ⟨k, hk, hl⟩ := ih hv
      exact ⟨k, List.mem_cons_of_mem _ hk, hl⟩

/-- No more slots than values to fill them with. -/
theorem Fillable.length_le {lists : κ → ν → Prop} {slots : List κ} (h : Fillable lists slots)
    {pool : List ν} (hp : ∀ k ∈ slots, ∀ v, lists k v → v ∈ pool) : slots.length ≤ pool.length := by
  obtain ⟨vs, hf⟩ := h
  have hsub : vs ⊆ pool := fun v hv => by
    obtain ⟨k, hk, hl⟩ := hf.mem hv
    exact hp k hk v hl
  calc slots.length = vs.length := hf.fits.length_eq
    _ ≤ pool.length := (List.subperm_of_subset hf.nodup hsub).length_le

/-- Fewer slots are easier to fill. -/
theorem Fillable.sublist {lists : κ → ν → Prop} {slots slots' : List κ} (hs : slots'.Sublist slots) :
    Fillable lists slots → Fillable lists slots' := by
  rintro ⟨vs, hn, hf⟩
  suffices ∃ vs', List.Sublist vs' vs ∧ List.Forall₂ lists slots' vs' by
    obtain ⟨vs', hs', hf'⟩ := this
    exact ⟨vs', hn.sublist hs', hf'⟩
  clear hn
  induction hs generalizing vs with
  | slnil => exact ⟨[], List.nil_sublist _, .nil⟩
  | cons k _ ih =>
    obtain _ | ⟨_, hf⟩ := hf
    obtain ⟨vs', hs', hf'⟩ := ih _ hf
    exact ⟨vs', hs'.cons _, hf'⟩
  | cons_cons k _ ih =>
    obtain _ | ⟨hkv, hf⟩ := hf
    obtain ⟨vs', hs', hf'⟩ := ih _ hf
    exact ⟨_ :: vs', hs'.cons_cons _, .cons hkv hf'⟩

/-- The order of the slots does not matter. -/
theorem Fillable.perm {lists : κ → ν → Prop} {slots slots' : List κ} (hp : slots.Perm slots')
    (h : Fillable lists slots) : Fillable lists slots' := by
  obtain ⟨vs, hn, hf⟩ := h
  suffices ∃ vs', List.Perm vs vs' ∧ List.Forall₂ lists slots' vs' by
    obtain ⟨vs', hp', hf'⟩ := this
    exact ⟨vs', hp'.nodup_iff.mp hn, hf'⟩
  clear hn
  induction hp generalizing vs with
  | nil => exact ⟨vs, .refl _, hf⟩
  | cons k _ ih =>
    obtain _ | ⟨hkv, hf⟩ := hf
    obtain ⟨vs', hp', hf'⟩ := ih _ hf
    exact ⟨_ :: vs', hp'.cons _, .cons hkv hf'⟩
  | swap k k' l =>
    obtain _ | ⟨hkv, _ | ⟨hkw, hf⟩⟩ := hf
    exact ⟨_, .swap _ _ _, .cons hkw (.cons hkv hf)⟩
  | trans _ _ ih₁ ih₂ =>
    obtain ⟨vs₁, hp₁, hf₁⟩ := ih₁ vs hf
    obtain ⟨vs₂, hp₂, hf₂⟩ := ih₂ vs₁ hf₁
    exact ⟨vs₂, hp₁.trans hp₂, hf₂⟩

/-! ## Ownership -/

/-- `held` lists who holds which value: no value twice, every holder listing
its value, and each kind holding as many values as it has slots. -/
structure Holds (lists : κ → ν → Prop) (slots : List κ) (held : List (ν × κ)) : Prop where
  nodup : (held.map Prod.fst).Nodup
  fits : ∀ p ∈ held, lists p.2 p.1
  slots : (held.map Prod.snd).Perm slots

/-- An ownership fills its slots. -/
theorem fillable_of_held {lists : κ → ν → Prop} {slots : List κ} {held : List (ν × κ)}
    (h : Holds lists slots held) : Fillable lists slots := by
  refine Fillable.perm h.slots ⟨held.map Prod.fst, h.nodup, ?_⟩
  rw [List.forall₂_map_left_iff, List.forall₂_map_right_iff, List.forall₂_same]
  exact h.fits

/-- **Kinds that hold every value they list cannot get one more.** `closed`
is a set of kinds whose listed values are all held, by kinds of the set. -/
theorem not_fillable_of_closed [DecidableEq κ] {lists : κ → ν → Prop} {slots rest : List κ}
    {held : List (ν × κ)} (h : Holds lists slots held) (closed : List κ) {start : κ}
    (hstart : start ∈ closed)
    (hclosed : ∀ k ∈ closed, ∀ v, lists k v → ∃ k' ∈ closed, (v, k') ∈ held) :
    ¬ Fillable lists (slots ++ start :: rest) := by
  intro hfill
  -- Only the slots of the closed kinds matter; the values they can take are the ones those kinds hold.
  let inside : List κ → List κ := List.filter (· ∈ closed)
  let pool := (held.filter (·.2 ∈ closed)).map Prod.fst
  have hsub : (inside (slots ++ [start])).Sublist (slots ++ start :: rest) := by
    refine List.filter_sublist.trans ?_
    simp
  have hle : (inside (slots ++ [start])).length ≤ pool.length := by
    refine (hfill.sublist hsub).length_le fun k hk v hv => ?_
    simp only [inside, List.mem_filter, decide_eq_true_eq] at hk
    obtain ⟨k', hk', hmem⟩ := hclosed k hk.2 v hv
    exact List.mem_map.mpr ⟨(v, k'), List.mem_filter.mpr ⟨hmem, by simpa using hk'⟩, rfl⟩
  have hpool : pool.length = (inside slots).length := by
    calc pool.length = ((held.map Prod.snd).filter (· ∈ closed)).length := by
          simp [pool, List.filter_map, Function.comp_def]
      _ = (inside slots).length := (h.slots.filter _).length_eq
  have hone : (inside (slots ++ [start])).length = (inside slots).length + 1 := by
    simp [inside, List.filter_append, hstart]
  omega

end Pillar.Slots
