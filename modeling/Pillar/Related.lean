/-
Two lists whose items are related one by one, and what each item of one says
about the other.
-/
import Mathlib

namespace Pillar.Related

variable {α β γ : Type} {R : α → β → Prop} {l : List α} {l' : List β}

/-- Each item is in its list. -/
theorem with_mem (h : List.Forall₂ R l l') : List.Forall₂ (fun a b => (a ∈ l ∧ b ∈ l') ∧ R a b) l l' := by
  induction h with
  | nil => exact .nil
  | cons hab _ ih =>
    refine .cons ⟨⟨List.mem_cons_self, List.mem_cons_self⟩, hab⟩ (ih.imp fun a b h => ⟨?_, h.2⟩)
    exact ⟨List.mem_cons_of_mem _ h.1.1, List.mem_cons_of_mem _ h.1.2⟩

theorem exists_left (h : List.Forall₂ R l l') {b : β} (hb : b ∈ l') : ∃ a ∈ l, R a b := by
  induction h with
  | nil => cases hb
  | @cons a c l l' hac _ ih =>
    rcases List.mem_cons.mp hb with rfl | hb
    · exact ⟨a, List.mem_cons_self, hac⟩
    · obtain ⟨a', ha', hr⟩ := ih hb
      exact ⟨a', List.mem_cons_of_mem _ ha', hr⟩

theorem exists_right (h : List.Forall₂ R l l') {a : α} (ha : a ∈ l) : ∃ b ∈ l', R a b := by
  have hflip : List.Forall₂ (flip R) l' l := h.flip
  exact exists_left hflip ha

/-- Functions that agree on related items agree on the lists. -/
theorem map_eq {f : β → γ} {g : α → γ} (h : List.Forall₂ R l l') (hfg : ∀ a b, R a b → f b = g a) :
    l'.map f = l.map g := by
  induction h with
  | nil => rfl
  | cons hab _ ih => rw [List.map_cons, List.map_cons, hfg _ _ hab, ih]

end Pillar.Related
