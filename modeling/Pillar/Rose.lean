/-
Trees whose nodes have any number of children, and rebuilding one from a plan.

A plan lists the nodes children first, each with how many children it has; one
pass over it keeps a stack of the values built so far, and each entry takes its
children's values off the end of it. The pass computes what recursion over the
tree does (`foldlM_plan`), whatever the tree and whatever is below on the stack.
-/
import Mathlib

namespace Pillar

inductive Rose (α : Type) where
  | node (label : α) (children : List (Rose α))

namespace Rose

variable {α β : Type}

/-- Induction with a hypothesis for each child. -/
theorem inductionOn {P : Rose α → Prop} (t : Rose α) (node : ∀ a ts, (∀ t ∈ ts, P t) → P (.node a ts)) : P t :=
  @Rose.rec α P (fun ts => ∀ t ∈ ts, P t) node (by simp) (fun _ _ ht hts => List.forall_mem_cons.mpr ⟨ht, hts⟩) t

mutual
/-- The labels, a node's before those of its children. -/
def labels : Rose α → List α
  | node a ts => a :: labelsAll ts

def labelsAll : List (Rose α) → List α
  | [] => []
  | t :: ts => labels t ++ labelsAll ts
end

mutual
/-- How many nodes the longest way down passes. -/
def height : Rose α → Nat
  | node _ ts => heightAll ts + 1

def heightAll : List (Rose α) → Nat
  | [] => 0
  | t :: ts => max (height t) (heightAll ts)
end

mutual
/-- The nodes, children first, each with how many it has. -/
def plan : Rose α → List (α × Nat)
  | node a ts => planAll ts ++ [(a, ts.length)]

def planAll : List (Rose α) → List (α × Nat)
  | [] => []
  | t :: ts => plan t ++ planAll ts
end

mutual
/-- A value for the tree from the values of its children, bottom up. -/
def fold? (build : α → List β → Option β) : Rose α → Option β
  | node a ts => (foldAll? build ts).bind (build a)

def foldAll? (build : α → List β → Option β) : List (Rose α) → Option (List β)
  | [] => .some []
  | t :: ts => (fold? build t).bind fun v => (foldAll? build ts).map (v :: ·)
end

theorem height_le_heightAll {t : Rose α} : ∀ {ts : List (Rose α)}, t ∈ ts → height t ≤ heightAll ts
  | s :: ts, h => by
    rw [heightAll]
    rcases List.mem_cons.mp h with rfl | h
    · exact le_max_left _ _
    · exact (height_le_heightAll h).trans (le_max_right _ _)

theorem heightAll_le {n : Nat} : ∀ {ts : List (Rose α)}, (∀ t ∈ ts, height t ≤ n) → heightAll ts ≤ n
  | [], _ => Nat.zero_le n
  | t :: ts, h => by
    rw [heightAll]
    exact max_le (h t List.mem_cons_self) (heightAll_le fun t ht => h t (List.mem_cons_of_mem _ ht))

theorem mem_labelsAll {t : Rose α} {a : α} (ha : a ∈ labels t) : ∀ {ts : List (Rose α)}, t ∈ ts → a ∈ labelsAll ts
  | s :: ts, h => by
    rw [labelsAll]
    rcases List.mem_cons.mp h with rfl | h
    · exact List.mem_append_left _ ha
    · exact List.mem_append_right _ (mem_labelsAll ha h)

theorem length_foldAll? {build : α → List β → Option β} : ∀ {ts : List (Rose α)} {vs : List β},
    foldAll? build ts = .some vs → vs.length = ts.length
  | [], _, h => by
    cases h
    rfl
  | t :: ts, vs, h => by
    obtain ⟨v, -, h⟩ := Option.bind_eq_some_iff.mp h
    obtain ⟨rest, hrest, rfl⟩ := Option.map_eq_some_iff.mp h
    rw [List.length_cons, List.length_cons, length_foldAll? hrest]

theorem foldAll?_forall₂ {build : α → List β → Option β} : ∀ {ts : List (Rose α)} {vs : List β},
    foldAll? build ts = .some vs → List.Forall₂ (fun t v => fold? build t = .some v) ts vs
  | [], _, h => by
    cases h
    exact .nil
  | t :: ts, vs, h => by
    obtain ⟨v, hv, h⟩ := Option.bind_eq_some_iff.mp h
    obtain ⟨rest, hrest, rfl⟩ := Option.map_eq_some_iff.mp h
    exact .cons hv (foldAll?_forall₂ hrest)

theorem foldAll?_isSome {build : α → List β → Option β} : ∀ {ts : List (Rose α)},
    (∀ t ∈ ts, ∃ v, fold? build t = .some v) → ∃ vs, foldAll? build ts = .some vs
  | [], _ => ⟨[], rfl⟩
  | t :: ts, h => by
    obtain ⟨v, hv⟩ := h t List.mem_cons_self
    obtain ⟨vs, hvs⟩ := foldAll?_isSome fun t ht => h t (List.mem_cons_of_mem _ ht)
    exact ⟨v :: vs, by rw [foldAll?, hv, hvs]; rfl⟩

/-- When each label can be built on, the tree has a value, and what `build` passes on it has. -/
theorem fold?_invariant {build : α → List β → Option β} {good : α → Prop} {Q : Nat → β → Prop}
    (hbuild : ∀ a vs n, good a → (∀ v ∈ vs, ∃ m ≤ n, Q m v) → ∃ v, build a vs = .some v ∧ Q (n + 1) v) (t : Rose α) :
    (∀ a ∈ labels t, good a) → ∃ v, fold? build t = .some v ∧ Q (height t) v := by
  induction t using inductionOn with
  | node a ts ih =>
    intro h
    have hkids : ∀ t ∈ ts, ∃ v, fold? build t = .some v ∧ Q (height t) v := fun t ht =>
      ih t ht fun b hb => h b (List.mem_cons_of_mem _ (mem_labelsAll hb ht))
    obtain ⟨vs, hvs⟩ := foldAll?_isSome fun t ht => (hkids t ht).imp fun _ => And.left
    have hbelow : ∀ v ∈ vs, ∃ m ≤ heightAll ts, Q m v := by
      intro v hv
      obtain ⟨i, hi, rfl⟩ := List.getElem_of_mem hv
      have hall := foldAll?_forall₂ hvs
      have hlen := hall.length_eq
      have hi' : i < ts.length := by omega
      obtain ⟨w, hw, hQ⟩ := hkids _ (List.getElem_mem hi')
      have hfold : fold? build ts[i] = .some vs[i] := hall.get hi' hi
      rw [hw] at hfold
      cases hfold
      exact ⟨height ts[i], height_le_heightAll (List.getElem_mem hi'), hQ⟩
    obtain ⟨v, hv, hQ⟩ := hbuild a vs _ (h a List.mem_cons_self) hbelow
    exact ⟨v, by rw [fold?, hvs]; exact hv, hQ⟩

/-- One entry of a plan: its children's values come off the end of the stack. -/
def reduce (build : α → List β → Option β) (built : List β) (entry : α × Nat) : Option (List β) :=
  if entry.2 ≤ built.length then
    (build entry.1 (built.drop (built.length - entry.2))).map (built.take (built.length - entry.2) ++ [·])
  else .none

theorem reduce_append {build : α → List β → Option β} (built vs : List β) (a : α) :
    reduce build (built ++ vs) (a, vs.length) = (build a vs).map (built ++ [·]) := by
  have hstart : (built ++ vs).length - vs.length = built.length := by simp
  rw [reduce, if_pos (by simp)]
  simp only [hstart, List.drop_left, List.take_left]

mutual
/-- **The pass over a plan computes what recursion over the tree does.** -/
theorem foldlM_plan (build : α → List β → Option β) : ∀ (t : Rose α) (built : List β),
    t.plan.foldlM (reduce build) built = (fold? build t).map (built ++ [·])
  | node a ts, built => by
    rw [plan, List.foldlM_append, foldlM_planAll build ts built, fold?]
    cases hvs : foldAll? build ts with
    | none => rfl
    | some vs =>
      rw [Option.map_some, ← length_foldAll? hvs]
      simp only [Option.bind_eq_bind, Option.bind_some, List.foldlM_cons, List.foldlM_nil, reduce_append]
      cases build a vs <;> rfl

theorem foldlM_planAll (build : α → List β → Option β) : ∀ (ts : List (Rose α)) (built : List β),
    (planAll ts).foldlM (reduce build) built = (foldAll? build ts).map (built ++ ·)
  | [], built => by
    rw [planAll, foldAll?, Option.map_some, List.append_nil]
    rfl
  | t :: ts, built => by
    rw [planAll, List.foldlM_append, foldlM_plan build t built, foldAll?]
    cases fold? build t with
    | none => rfl
    | some v =>
      simp only [Option.map_some, Option.bind_eq_bind, Option.bind_some, foldlM_planAll build ts]
      cases foldAll? build ts with
      | none => rfl
      | some vs => simp
end

/-- A pass that ends never took more off the stack than there was. -/
theorem reduce_le {build : α → List β → Option β} {entries before after : List (α × Nat)} {entry : α × Nat}
    {start stop : List β} (h : entries.foldlM (reduce build) start = .some stop)
    (hsplit : entries = before ++ entry :: after) :
    ∃ built, before.foldlM (reduce build) start = .some built ∧ entry.2 ≤ built.length := by
  subst hsplit
  rw [List.foldlM_append] at h
  obtain ⟨built, hbuilt, h⟩ := Option.bind_eq_some_iff.mp h
  rw [List.foldlM_cons] at h
  obtain ⟨next, hnext, -⟩ := Option.bind_eq_some_iff.mp h
  refine ⟨built, hbuilt, ?_⟩
  rw [reduce] at hnext
  split at hnext
  next hle => exact hle
  next => cases hnext

end Rose

end Pillar
