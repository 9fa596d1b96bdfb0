/-
Depth first search with an explicit stack.

A stack entry is a vertex and how many of its children are still to come, last
child first; a vertex goes to the postorder when there are none left. On a
graph with a rank that children lower, the children of a vertex are in the
postorder before it. `todo` is the vertices the search has not met.
-/
import Mathlib

namespace Pillar.Postorder

variable {ι : Type} {children : ι → List ι}

/-- Every vertex of the list comes after its children. -/
def Closed (children : ι → List ι) (order : List ι) : Prop :=
  ∀ before v after, order = before ++ v :: after → ∀ c ∈ children v, c ∈ before

theorem closed_nil : Closed children [] := by
  intro before v after h
  cases before <;> cases h

theorem Closed.concat {order : List ι} {v : ι} (h : Closed children order) (hv : ∀ c ∈ children v, c ∈ order) :
    Closed children (order ++ [v]) := by
  intro before w after he c hc
  rcases List.eq_nil_or_concat after with rfl | ⟨front, last, rfl⟩
  · obtain ⟨rfl, hlast⟩ := List.append_inj' he rfl
    cases hlast
    exact hv c hc
  · rw [List.concat_eq_append, ← List.cons_append, ← List.append_assoc] at he
    obtain ⟨rfl, -⟩ := List.append_inj' he rfl
    exact h before w front rfl c hc

/-- Under the vertex `above`, which is being searched: the children passed are
in the postorder, or are `above` itself. -/
def Pending (children : ι → List ι) (post : List ι) : Option ι → List (ι × Nat) → Prop
  | _, [] => True
  | above, (v, remaining) :: stack =>
    remaining ≤ (children v).length ∧ (∀ c ∈ (children v).drop remaining, c ∈ post ∨ above = .some c) ∧
      (∀ c, above = .some c → c ∈ children v) ∧ Pending children post (.some v) stack

theorem Pending.mono {post post' : List ι} (hsub : ∀ c ∈ post, c ∈ post') : ∀ {above : Option ι}
    {stack : List (ι × Nat)}, Pending children post above stack → Pending children post' above stack
  | _, [], _ => trivial
  | _, (_, _) :: _, ⟨hle, hpassed, habove, hrest⟩ =>
    ⟨hle, fun c hc => (hpassed c hc).imp_left (hsub c), habove, hrest.mono hsub⟩

/-- When the vertex above is done. -/
theorem Pending.done {post : List ι} {v : ι} : ∀ {stack : List (ι × Nat)},
    Pending children post (.some v) stack → Pending children (post ++ [v]) .none stack
  | [], _ => trivial
  | (w, remaining) :: stack, ⟨hle, hpassed, _, hrest⟩ => by
    refine ⟨hle, fun c hc => .inl ?_, by simp, hrest.mono fun c hc => List.mem_append_left _ hc⟩
    rcases hpassed c hc with hpost | habove
    · exact List.mem_append_left _ hpost
    · cases habove
      exact List.mem_append_right _ List.mem_cons_self

/-- Ranks go up along the stack. -/
theorem Pending.rank_lt {rank : ι → Nat} (hrank : ∀ v, ∀ c ∈ children v, rank c < rank v) {post : List ι} {v : ι} :
    ∀ {stack : List (ι × Nat)}, Pending children post (.some v) stack → ∀ w ∈ stack.map Prod.fst, rank v < rank w
  | [], _, w, hw => by cases hw
  | (u, remaining) :: stack, ⟨_, _, habove, hrest⟩, w, hw => by
    have hu : rank v < rank u := hrank u v (habove v rfl)
    rcases List.mem_cons.mp hw with rfl | hw
    · exact hu
    · exact hu.trans (hrest.rank_lt hrank w hw)

/-- What was met is on the path of the search or in the postorder, once. -/
structure Marks (vertices todo : Finset ι) (path post : List ι) : Prop where
  met : ∀ v, v ∈ path ∨ v ∈ post ↔ v ∈ vertices ∧ v ∉ todo
  sub : todo ⊆ vertices
  nodup : (path ++ post).Nodup

/-- A search under way. -/
structure Search (children : ι → List ι) (vertices todo : Finset ι) (stack : List (ι × Nat)) (post : List ι) :
    Prop where
  marks : Marks vertices todo (stack.map Prod.fst) post
  pending : Pending children post .none stack
  closed : Closed children post

/-- The steps still to take. -/
def work (children : ι → List ι) (todo : Finset ι) (stack : List (ι × Nat)) : Nat :=
  ∑ v ∈ todo, ((children v).length + 1) + (stack.map fun e => e.2 + 1).sum

variable {vertices todo : Finset ι} {path post : List ι} {stack : List (ι × Nat)} {v c : ι} {remaining : Nat}

theorem search_nil : Search children vertices vertices [] [] :=
  ⟨⟨by simp, subset_rfl, by simp⟩, trivial, closed_nil⟩

theorem Marks.leave (h : Marks vertices todo (v :: path) post) : Marks vertices todo path (post ++ [v]) := by
  refine ⟨fun w => ?_, h.sub, ?_⟩
  · rw [← h.met w, List.mem_cons, List.mem_append, List.mem_singleton]
    tauto
  · have hperm : (path ++ (post ++ [v])).Perm (v :: path ++ post) := by
      rw [← List.append_assoc]
      exact List.perm_append_comm.trans (List.Perm.refl _)
    exact hperm.nodup_iff.mpr h.nodup

theorem Pending.passed (h : Pending children post .none ((v, remaining + 1) :: stack))
    (hc : (children v)[remaining]? = .some c) {above : Option ι} (hpassed : c ∈ post ∨ above = .some c)
    (habove : ∀ w, above = .some w → w = c) : Pending children post above ((v, remaining) :: stack) := by
  obtain ⟨hle, hrest, -, hbelow⟩ := h
  obtain ⟨hlt, hget⟩ := List.getElem?_eq_some_iff.mp hc
  refine ⟨by omega, fun w hw => ?_, fun w hw => ?_, hbelow⟩
  · rw [List.drop_eq_getElem_cons hlt, hget] at hw
    rcases List.mem_cons.mp hw with rfl | hw
    · exact hpassed
    · exact .inl ((hrest w hw).resolve_right (by simp))
  · rw [habove w hw]
    exact List.mem_of_getElem? hc

/-- A vertex with no child left is done. -/
theorem Search.pop (h : Search children vertices todo ((v, 0) :: stack) post) :
    Search children vertices todo stack (post ++ [v]) ∧
    work children todo stack < work children todo ((v, 0) :: stack) := by
  obtain ⟨-, hpassed, -, hbelow⟩ := h.pending
  refine ⟨⟨h.marks.leave, hbelow.done, h.closed.concat fun c hc => ?_⟩, ?_⟩
  · exact (hpassed c (by simpa using hc)).resolve_right (by simp)
  · simp [work]

/-- A child that was met before is in the postorder: on the stack there are
only vertices of higher rank. -/
theorem Search.skip {rank : ι → Nat} (hrank : ∀ v, ∀ c ∈ children v, rank c < rank v)
    (h : Search children vertices todo ((v, remaining + 1) :: stack) post) (hc : (children v)[remaining]? = .some c)
    (hvertex : c ∈ vertices) (hmet : c ∉ todo) :
    Search children vertices todo ((v, remaining) :: stack) post ∧
      work children todo ((v, remaining) :: stack) < work children todo ((v, remaining + 1) :: stack) := by
  have hlt : rank c < rank v := hrank v c (List.mem_of_getElem? hc)
  have hpost : c ∈ post := by
    refine ((h.marks.met c).mpr ⟨hvertex, hmet⟩).resolve_left fun hpath => ?_
    rcases List.mem_cons.mp hpath with rfl | hbelow
    · exact Nat.lt_irrefl _ hlt
    · exact Nat.lt_asymm hlt (h.pending.2.2.2.rank_lt hrank c hbelow)
  refine ⟨⟨h.marks, h.pending.passed hc (.inl hpost) (by simp), h.closed⟩, ?_⟩
  simp [work]

/-- A search that is over and left nothing out: an order of the vertices in
which each comes once and after its children. -/
theorem Search.order (h : Search children vertices ∅ [] post) :
    post.Nodup ∧ (∀ v, v ∈ post ↔ v ∈ vertices) ∧ Closed children post := by
  refine ⟨by simpa using h.marks.nodup, fun v => ?_, h.closed⟩
  simpa using h.marks.met v

/-- In reverse, children come later. -/
theorem Closed.later (h : Closed children post) {i : Nat} (hi : post.reverse[i]? = .some v) (hc : c ∈ children v) :
    ∃ j, i < j ∧ post.reverse[j]? = .some c := by
  obtain ⟨hlt, hget⟩ := List.getElem?_eq_some_iff.mp hi
  have hsplit : post.reverse = post.reverse.take i ++ v :: post.reverse.drop (i + 1) := by
    rw [← hget, List.getElem_cons_drop, List.take_append_drop]
  have hpost : post = (post.reverse.drop (i + 1)).reverse ++ v :: (post.reverse.take i).reverse := by
    conv_lhs => rw [← List.reverse_reverse post, hsplit]
    simp
  have hmem : c ∈ post.reverse.drop (i + 1) := List.mem_reverse.mp (h _ _ _ hpost c hc)
  obtain ⟨k, hk⟩ := List.mem_iff_getElem?.mp hmem
  rw [List.getElem?_drop] at hk
  exact ⟨i + 1 + k, by omega, hk⟩

/-- Nothing has the last vertex as a child. -/
theorem Closed.last (h : Closed children post) (hnodup : post.Nodup) (hv : post.reverse[0]? = .some v) :
    ∀ u ∈ post, v ∉ children u := by
  intro u hu hc
  obtain ⟨i, hi⟩ := List.mem_iff_getElem?.mp (List.mem_reverse.mpr hu)
  obtain ⟨j, hj, hvj⟩ := h.later hi hc
  obtain ⟨hlt, -⟩ := List.getElem?_eq_some_iff.mp hv
  have := (List.getElem?_inj hlt (List.nodup_reverse.mpr hnodup)).mp (hv.trans hvj.symm)
  omega

variable [DecidableEq ι]

theorem Marks.enter (h : Marks vertices todo path post) (hc : c ∈ todo) :
    Marks vertices (todo.erase c) (c :: path) post := by
  have hfresh : ¬ (c ∈ path ∨ c ∈ post) := fun hmet => ((h.met c).mp hmet).2 hc
  refine ⟨fun w => ?_, (Finset.erase_subset _ _).trans h.sub, ?_⟩
  · by_cases hwc : w = c
    · subst hwc
      simp [h.sub hc]
    · have hw := h.met w
      rw [List.mem_cons, Finset.mem_erase]
      simp only [hwc, false_or, ne_eq, not_false_eq_true, true_and]
      exact hw
  · rw [List.cons_append, List.nodup_cons]
    exact ⟨fun hmem => hfresh (List.mem_append.mp hmem), h.nodup⟩

/-- A vertex that was not met, from an empty stack. -/
theorem Search.start (h : Search children vertices todo [] post) (hv : v ∈ todo) :
    Search children vertices (todo.erase v) [(v, (children v).length)] post ∧
      work children (todo.erase v) [(v, (children v).length)] = work children todo [] := by
  refine ⟨⟨h.marks.enter hv, ⟨le_rfl, by simp, by simp, trivial⟩, h.closed⟩, ?_⟩
  have hsum := Finset.sum_erase_add todo (fun v => (children v).length + 1) hv
  simpa [work] using hsum

/-- A child that was not met goes on the stack. -/
theorem Search.push (h : Search children vertices todo ((v, remaining + 1) :: stack) post)
    (hc : (children v)[remaining]? = .some c) (hnew : c ∈ todo) :
    Search children vertices (todo.erase c) ((c, (children c).length) :: (v, remaining) :: stack) post ∧
      work children (todo.erase c) ((c, (children c).length) :: (v, remaining) :: stack) <
        work children todo ((v, remaining + 1) :: stack) := by
  refine ⟨⟨h.marks.enter hnew, ⟨le_rfl, by simp, by simp, h.pending.passed hc (.inr rfl) ?_⟩, h.closed⟩, ?_⟩
  · rintro w hw
    exact (Option.some.inj hw).symm
  · have hsum := Finset.sum_erase_add todo (fun v => (children v).length + 1) hnew
    simp only [work, List.map_cons, List.sum_cons]
    omega

end Pillar.Postorder
