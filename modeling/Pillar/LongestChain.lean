/-
Longest chains of a relation, told by a number for each element that falls
along it and is reached by some chain.
-/
import Mathlib

namespace Pillar

variable {ι : Type} {R : ι → ι → Prop} {height : ι → Nat}

/-- The lengths of the chains of `R` that start at `v`, in steps. -/
def chainLengths (R : ι → ι → Prop) (v : ι) : Set Nat :=
  {n | ∃ path : List ι, path.length = n ∧ List.IsChain R (v :: path)}

/-- `height` is one more than the greatest height a step leads to, and zero
where no step leads on. -/
structure IsHeight (R : ι → ι → Prop) (height : ι → Nat) : Prop where
  falls : ∀ v c, R v c → height c < height v
  reached : ∀ v, height v = 0 ∨ ∃ c, R v c ∧ height v = height c + 1

theorem IsHeight.length_le (h : IsHeight R height) : ∀ {path : List ι} {v : ι},
    List.IsChain R (v :: path) → path.length ≤ height v
  | [], v, _ => Nat.zero_le _
  | c :: path, v, hchain => by
    obtain ⟨hstep, hrest⟩ := List.isChain_cons_cons.mp hchain
    have hle := h.length_le hrest
    have hlt := h.falls v c hstep
    rw [List.length_cons]
    omega

theorem IsHeight.chain (h : IsHeight R height) : ∀ {n : Nat} {v : ι}, height v = n → n ∈ chainLengths R v
  | 0, v, _ => ⟨[], rfl, List.IsChain.singleton v⟩
  | n + 1, v, hv => by
    obtain hzero | ⟨c, hstep, hc⟩ := h.reached v
    · omega
    · obtain ⟨path, hlen, hchain⟩ := h.chain (v := c) (n := n) (by omega)
      exact ⟨c :: path, by rw [List.length_cons, hlen], List.isChain_cons_cons.mpr ⟨hstep, hchain⟩⟩

/-- The height of an element is the length of its longest chain. -/
theorem IsHeight.isGreatest (h : IsHeight R height) (v : ι) : IsGreatest (chainLengths R v) (height v) := by
  refine ⟨h.chain rfl, ?_⟩
  rintro n ⟨path, rfl, hchain⟩
  exact h.length_le hchain

/-- The greatest height is the length of the longest chain there is. -/
theorem IsHeight.isGreatest_of_max (h : IsHeight R height) {s : Set ι} {d : Nat} (hd : IsGreatest (height '' s) d) :
    IsGreatest {n | ∃ v ∈ s, n ∈ chainLengths R v} d := by
  obtain ⟨⟨v, hv, rfl⟩, hmax⟩ := hd
  refine ⟨⟨v, hv, h.chain rfl⟩, ?_⟩
  rintro n ⟨w, hw, hn⟩
  exact ((h.isGreatest w).2 hn).trans (hmax ⟨w, hw, rfl⟩)

end Pillar
