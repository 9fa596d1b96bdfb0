/-
The order in which `serialize_boc` writes cells.

Breadth first, every cell under the root is collected once, if the hash tells
the cells apart. The postorder search then runs on the ids, with the depth of
a cell as its rank, and in reverse it has the root first and every reference
to a later cell.
-/
import Pillar.Boc
import Pillar.Postorder
import Pillar.Related

namespace Pillar.Ton

/-! ## Under the root -/

/-- `cell` is the root, or is reached from it by references. -/
def Under (root cell : TonCell) : Prop := Relation.ReflTransGen (fun a b => b ∈ a.refs) root cell

theorem depth_lt_of_mem {cell : TonCell} : ∀ {refs : List TonCell}, cell ∈ refs → cell.depth < refsDepth refs
  | [], h => by cases h
  | child :: refs, h => by
    rw [refsDepth]
    rcases List.mem_cons.mp h with rfl | h
    · exact Nat.lt_of_lt_of_le (Nat.lt_succ_self _) (Nat.le_max_left _ _)
    · exact Nat.lt_of_lt_of_le (depth_lt_of_mem h) (Nat.le_max_right _ _)

theorem depth_eq (cell : TonCell) : cell.depth = refsDepth cell.refs := by
  cases cell
  rw [TonCell.depth]
  rfl

theorem depth_lt {cell child : TonCell} (h : child ∈ cell.refs) : child.depth < cell.depth :=
  depth_eq cell ▸ depth_lt_of_mem h

theorem refsDepth_le {bound : Nat} : ∀ {refs : List TonCell}, (∀ cell ∈ refs, cell.depth < bound) →
    refsDepth refs ≤ bound
  | [], _ => Nat.zero_le _
  | cell :: refs, h => by
    rw [refsDepth]
    exact max_le (h cell List.mem_cons_self) (refsDepth_le fun c hc => h c (List.mem_cons_of_mem _ hc))

theorem Under.depth_le {root cell : TonCell} (h : Under root cell) : cell.depth ≤ root.depth := by
  induction h with
  | refl => exact le_rfl
  | tail _ hmem ih => exact (depth_lt hmem).le.trans ih

/-! ## Cells, breadth first -/

section Collect

variable {H : Type} {hash : TonCell → Except String H} {root : TonCell}

/-- The hash is there for the cells under the root, and tells them apart. -/
structure Hashes (hash : TonCell → Except String H) (root : TonCell) : Prop where
  total : ∀ cell, Under root cell → ∃ h, hash cell = .ok h
  injective : ∀ cell cell' h, Under root cell → Under root cell' → hash cell = .ok h → hash cell' = .ok h →
    cell = cell'

/-- While cells are collected: what is referred to has been met or is pending. -/
structure Collecting (hash : TonCell → Except String H) (root : TonCell) (s : Collected H) (pending : List TonCell) :
    Prop where
  ids : ∀ h i, (h, i) ∈ s.idByHash ↔ ∃ cell, s.cells[i]? = .some cell ∧ hash cell = .ok h
  nodup : s.cells.Nodup
  under : ∀ cell, cell ∈ s.cells ∨ cell ∈ pending → Under root cell
  closed : ∀ cell ∈ s.cells, ∀ child ∈ cell.refs, child ∈ s.cells ∨ child ∈ pending
  root : root ∈ s.cells ∨ root ∈ pending

theorem collecting_nil : Collecting hash root { cells := [], idByHash := [] } [root] := by
  refine ⟨by simp, by simp, fun cell h => ?_, by simp, by simp⟩
  rcases h with h | h
  · cases h
  · rw [List.mem_singleton.mp h]
    exact .refl

/-- A cell that was met before. -/
theorem Collecting.skip {s : Collected H} {cell : TonCell} {pending : List TonCell}
    (h : Collecting hash root s (cell :: pending)) (hmem : cell ∈ s.cells) : Collecting hash root s pending := by
  have hmoved : ∀ c, c ∈ s.cells ∨ c ∈ cell :: pending → c ∈ s.cells ∨ c ∈ pending := by
    intro c hc
    rcases hc with hc | hc
    · exact .inl hc
    · rcases List.mem_cons.mp hc with rfl | hc
      · exact .inl hmem
      · exact .inr hc
  exact ⟨h.ids, h.nodup, fun c hc => h.under c (hc.imp_right (List.mem_cons_of_mem _)),
    fun c hc child hchild => hmoved child (h.closed c hc child hchild), hmoved root h.root⟩

/-- A new cell, whose references are pending after it. -/
theorem Collecting.add {s : Collected H} {cell : TonCell} {level next : List TonCell} {hashed : H}
    (h : Collecting hash root s (cell :: level ++ next)) (hnew : cell ∉ s.cells) (hhash : hash cell = .ok hashed) :
    Collecting hash root { cells := s.cells ++ [cell], idByHash := s.idByHash ++ [(hashed, s.cells.length)] }
      (level ++ (next ++ cell.refs)) := by
  have hunder : Under root cell := h.under cell (.inr (by simp))
  refine ⟨fun h' i => ?_, ?_, fun c hc => ?_, fun c hc child hchild => ?_, ?_⟩
  · rw [List.mem_append, h.ids, List.mem_singleton, Prod.mk.injEq]
    constructor
    · rintro (⟨c, hc, hch⟩ | ⟨rfl, rfl⟩)
      · exact ⟨c, by rw [List.getElem?_append_left (List.getElem?_eq_some_iff.mp hc).1]; exact hc, hch⟩
      · exact ⟨cell, by simp, hhash⟩
    · rintro ⟨c, hc, hch⟩
      rcases lt_or_ge i s.cells.length with hi | hi
      · rw [List.getElem?_append_left hi] at hc
        exact .inl ⟨c, hc, hch⟩
      · rw [List.getElem?_append_right hi, List.getElem?_singleton] at hc
        split at hc
        next hzero =>
          cases hc
          rw [hhash] at hch
          exact .inr ⟨(Except.ok.inj hch).symm, by omega⟩
        · cases hc
  · rw [List.nodup_append]
    refine ⟨h.nodup, by simp, fun a ha b hb => ?_⟩
    rw [List.mem_singleton.mp hb]
    exact fun he => hnew (he ▸ ha)
  · rw [List.mem_append, List.mem_append, List.mem_append, List.mem_singleton] at hc
    rcases hc with (hc | rfl) | hc | hc | hc
    · exact h.under c (.inl hc)
    · exact hunder
    · exact h.under c (.inr (by simp [hc]))
    · exact h.under c (.inr (by simp [hc]))
    · exact hunder.tail hc
  · rw [List.mem_append, List.mem_singleton] at hc
    rcases hc with hc | rfl
    · have := h.closed c hc child hchild
      simp only [List.cons_append, List.mem_cons, List.mem_append] at this ⊢
      tauto
    · exact .inr (by simp [hchild])
  · have := h.root
    simp only [List.cons_append, List.mem_cons, List.mem_append] at this ⊢
    tauto

theorem Collecting.mem_iff {s : Collected H} (h : Collecting hash root s []) (cell : TonCell) :
    cell ∈ s.cells ↔ Under root cell := by
  refine ⟨fun hmem => h.under cell (.inl hmem), fun hunder => ?_⟩
  induction hunder with
  | refl => exact h.root.resolve_right (by simp)
  | tail _ hchild ih => exact (h.closed _ ih _ hchild).resolve_right (by simp)

variable [DecidableEq H]

theorem Collecting.lookup_isSome {s : Collected H} {pending : List TonCell} {cell : TonCell} {hashed : H}
    (hhash : Hashes hash root) (h : Collecting hash root s pending) (hunder : Under root cell)
    (hcell : hash cell = .ok hashed) : (s.idByHash.lookup hashed).isSome ↔ cell ∈ s.cells := by
  rw [List.lookup_isSome_iff]
  constructor
  · rintro ⟨⟨other, i⟩, hmem, heq⟩
    obtain ⟨c, hc, hch⟩ := (h.ids other i).mp hmem
    have hother : hashed = other := by simpa using heq
    have hmem' := List.mem_of_getElem? hc
    rw [hhash.injective cell c hashed hunder (h.under c (.inl hmem')) hcell (hother ▸ hch)]
    exact hmem'
  · intro hmem
    obtain ⟨i, hi⟩ := List.mem_iff_getElem?.mp hmem
    exact ⟨(hashed, i), (h.ids hashed i).mpr ⟨cell, hi, hcell⟩, by simp⟩

/-- One level: every cell of it is met, and the next one is of their references. -/
theorem collectLevel_gives (hhash : Hashes hash root) : ∀ (level : List TonCell) {s : Collected H}
    {next : List TonCell}, Collecting hash root s (level ++ next) →
    (collectLevel hash level s next).Gives fun r => Collecting hash root r.1 r.2 ∧
      ∀ c ∈ r.2, c ∈ next ∨ ∃ parent ∈ level, c ∈ parent.refs
  | [], s, next, h => Exec.gives_ok ⟨h, fun c hc => .inl hc⟩
  | cell :: level, s, next, h => by
    have hunder : Under root cell := h.under cell (.inr (by simp))
    obtain ⟨hashed, hcell⟩ := hhash.total cell hunder
    rw [collectLevel, hcell, mapErr_ok, Exec.ok_bind]
    have hiff := h.lookup_isSome hhash hunder hcell
    split
    next hmet =>
      obtain ⟨r, hr, hcollecting, hnext⟩ := collectLevel_gives hhash level (h.skip (hiff.mp hmet))
      refine ⟨r, hr, hcollecting, fun c hc => (hnext c hc).imp_right ?_⟩
      rintro ⟨parent, hparent, hmem⟩
      exact ⟨parent, List.mem_cons_of_mem _ hparent, hmem⟩
    next hnew =>
      obtain ⟨r, hr, hcollecting, hnext⟩ :=
        collectLevel_gives hhash level (h.add (fun hmem => hnew (hiff.mpr hmem)) hcell)
      refine ⟨r, hr, hcollecting, fun c hc => ?_⟩
      rcases hnext c hc with hc | ⟨parent, hparent, hmem⟩
      · rcases List.mem_append.mp hc with hc | hc
        · exact .inl hc
        · exact .inr ⟨cell, List.mem_cons_self, hc⟩
      · exact .inr ⟨parent, List.mem_cons_of_mem _ hparent, hmem⟩

/-- The levels end below the deepest cell, with every cell collected. -/
theorem collectLevels_gives (hhash : Hashes hash root) : ∀ (fuel : Nat) {level : List TonCell} {s : Collected H},
    Collecting hash root s level → 0 < fuel → (∀ c ∈ level, c.depth + 1 < fuel) →
    (collectLevels hash fuel level s).Gives fun s' => Collecting hash root s' []
  | 0, _, _, _, hfuel, _ => absurd hfuel (Nat.lt_irrefl 0)
  | fuel + 1, level, s, h, _, hdepth => by
    cases level with
    | nil => exact Exec.gives_ok h
    | cons cell level =>
      have hfuel := hdepth cell List.mem_cons_self
      rw [collectLevels, List.isEmpty_cons, if_neg Bool.false_ne_true]
      have hstart : Collecting hash root s (cell :: level ++ []) := by rwa [List.append_nil]
      refine (collectLevel_gives hhash _ hstart).bind fun ⟨s', next⟩ ⟨hs', hnext⟩ => ?_
      refine collectLevels_gives hhash fuel hs' (by omega) fun c hc => ?_
      obtain ⟨parent, hparent, hmem⟩ := (hnext c hc).resolve_left (by simp)
      have h1 := hdepth parent hparent
      have h2 := depth_lt hmem
      omega

/-- The ids of a cell's references are those of the cells they refer to. -/
def Refers (cells : List TonCell) (cell : TonCell) (ids : List Nat) : Prop :=
  List.Forall₂ (fun child id => cells[id]? = .some child) cell.refs ids

/-- No lookup is missing. -/
theorem refIds_gives (hhash : Hashes hash root) {s : Collected H} (h : Collecting hash root s []) :
    (refIds hash s).Gives (List.Forall₂ (Refers s.cells) s.cells) := by
  refine Exec.gives_mapM s.cells fun cell hcell => Exec.gives_mapM cell.refs fun child hchild => ?_
  have hmem : child ∈ s.cells := (h.closed cell hcell child hchild).resolve_right (by simp)
  have hunder : Under root child := h.under child (.inl hmem)
  obtain ⟨hashed, hhashed⟩ := hhash.total child hunder
  rw [hhashed, mapErr_ok, Exec.ok_bind]
  obtain ⟨id, hid⟩ := Option.isSome_iff_exists.mp ((h.lookup_isSome hhash hunder hhashed).mpr hmem)
  rw [hid]
  refine Exec.gives_ok ?_
  obtain ⟨before, after, hsplit, -⟩ := List.lookup_eq_some_iff.mp hid
  obtain ⟨other, hother, hsame⟩ := (h.ids hashed id).mp (by rw [hsplit]; simp)
  rw [hother, hhash.injective child other hashed hunder (h.under other (.inl (List.mem_of_getElem? hother))) hhashed
    hsame]

end Collect

/-! ## The search -/

section Walk

open Postorder

variable {refs : List (List Nat)} {rank : Nat → Nat}

/-- The graph of the ids. -/
def childrenOf (refs : List (List Nat)) (id : Nat) : List Nat := refs.getD id []

/-- The ids that are not marked. -/
def unvisited (visited : List Bool) : Finset Nat :=
  (Finset.range visited.length).filter fun id => visited[id]? = .some false

theorem mem_unvisited {visited : List Bool} {id : Nat} : id ∈ unvisited visited ↔ visited[id]? = .some false := by
  rw [unvisited, Finset.mem_filter, Finset.mem_range]
  exact ⟨fun h => h.2, fun h => ⟨(List.getElem?_eq_some_iff.mp h).1, h⟩⟩

theorem unvisited_set {visited : List Bool} {id : Nat} :
    unvisited (visited.set id true) = (unvisited visited).erase id := by
  ext j
  rw [mem_unvisited, Finset.mem_erase, mem_unvisited, List.getElem?_set]
  split
  next heq =>
    subst heq
    split <;> simp
  next hne => simp [Ne.symm hne]

/-- Edges lead to vertices of lower rank. -/
structure Ranked (refs : List (List Nat)) (rank : Nat → Nat) : Prop where
  lt : ∀ id, ∀ child ∈ childrenOf refs id, rank child < rank id
  vertex : ∀ id, ∀ child ∈ childrenOf refs id, child < refs.length

theorem refs_get {id : Nat} (h : id < refs.length) : refs[id]? = .some (childrenOf refs id) := by
  rw [childrenOf, List.getD_eq_getElem _ _ h, List.getElem?_eq_getElem h]

/-- The inner loop ends with an empty stack. -/
theorem walk_gives (hrank : Ranked refs rank) : ∀ (fuel : Nat) {visited : List Bool} {stack : List (Nat × Nat)}
    {post : List Nat}, Search (childrenOf refs) (Finset.range refs.length) (unvisited visited) stack post →
    visited.length = refs.length → work (childrenOf refs) (unvisited visited) stack < fuel →
    (walk refs fuel visited stack post).Gives fun r => r.1.length = refs.length ∧
      unvisited r.1 ⊆ unvisited visited ∧
      Search (childrenOf refs) (Finset.range refs.length) (unvisited r.1) [] r.2
  | 0, _, _, _, _, _, hwork => absurd hwork (Nat.not_lt_zero _)
  | fuel + 1, visited, [], post, h, hlen, _ => by
    rw [walk]
    exact Exec.gives_ok ⟨hlen, subset_rfl, h⟩
  | fuel + 1, visited, (id, 0) :: stack, post, h, hlen, hwork => by
    obtain ⟨hpop, hless⟩ := h.pop
    rw [walk]
    exact walk_gives hrank fuel hpop hlen (by omega)
  | fuel + 1, visited, (id, remaining + 1) :: stack, post, h, hlen, hwork => by
    have hid : id < refs.length := by
      have := ((h.marks.met id).mp (.inl List.mem_cons_self)).1
      exact Finset.mem_range.mp this
    have hremaining : remaining < (childrenOf refs id).length := h.pending.1
    have hchild : (childrenOf refs id)[remaining]? = .some (childrenOf refs id)[remaining] :=
      List.getElem?_eq_getElem hremaining
    generalize (childrenOf refs id)[remaining] = child at hchild
    have hvertex : child < refs.length := hrank.vertex id child (List.mem_of_getElem? hchild)
    obtain ⟨seen, hmark⟩ : ∃ seen, visited[child]? = .some seen := ⟨_, List.getElem?_eq_getElem (hlen ▸ hvertex)⟩
    rw [walk]
    simp only [refs_get hid, Exec.get_some, Exec.ok_bind, hchild, hmark]
    cases seen with
    | false =>
      obtain ⟨hpush, hless⟩ := h.push hchild (mem_unvisited.mpr hmark)
      rw [← unvisited_set] at hpush hless
      simp only [Bool.not_false, if_true, refs_get hvertex, Exec.get_some, Exec.ok_bind]
      obtain ⟨r, hr, hrlen, hsub, hsearch⟩ := walk_gives hrank fuel hpush (by simpa using hlen) (by omega)
      refine ⟨r, hr, hrlen, hsub.trans ?_, hsearch⟩
      rw [unvisited_set]
      exact Finset.erase_subset _ _
    | true =>
      have hmet : child ∉ unvisited visited := by
        rw [mem_unvisited, hmark]
        simp
      obtain ⟨hskip, hless⟩ := h.skip hrank.lt hchild (Finset.mem_range.mpr hvertex) hmet
      simp only [Bool.not_true, Bool.false_eq_true, if_false]
      exact walk_gives hrank fuel hskip hlen (by omega)

/-- Between searches: the starts so far have been met. -/
structure Walked (refs : List (List Nat)) (done : List Nat) (s : List Bool × List Nat) : Prop where
  length : s.1.length = refs.length
  starts : ∀ id ∈ done, id ∉ unvisited s.1
  search : Search (childrenOf refs) (Finset.range refs.length) (unvisited s.1) [] s.2

theorem work_nil_le {todo : Finset Nat} (h : todo ⊆ Finset.range refs.length) :
    work (childrenOf refs) todo [] ≤ (refs.map fun ids => ids.length + 1).sum := by
  have hall : ∑ id ∈ Finset.range refs.length, ((childrenOf refs id).length + 1) =
      (refs.map fun ids => ids.length + 1).sum := by
    rw [Finset.sum_range, ← List.sum_ofFn]
    congr 1
    apply List.ext_getElem <;> simp [childrenOf]
  rw [work, ← hall]
  simpa using Finset.sum_le_sum_of_subset h

theorem walkFrom_gives (hrank : Ranked refs rank) {done : List Nat} {s : List Bool × List Nat} {start : Nat}
    (h : Walked refs done s) (hstart : start < refs.length) :
    (walkFrom refs ((refs.map fun ids => ids.length + 1).sum + 1) s start).Gives (Walked refs (done ++ [start])) := by
  obtain ⟨seen, hmark⟩ : ∃ seen, s.1[start]? = .some seen := ⟨_, List.getElem?_eq_getElem (h.length ▸ hstart)⟩
  have hkeep : ∀ r : List Bool × List Nat, unvisited r.1 ⊆ unvisited s.1 → start ∉ unvisited r.1 →
      ∀ id ∈ done ++ [start], id ∉ unvisited r.1 := by
    intro r hsub hnot id hid
    rcases List.mem_append.mp hid with hid | hid
    · exact fun hmem => h.starts id hid (hsub hmem)
    · rw [List.mem_singleton.mp hid]
      exact hnot
  rw [walkFrom, hmark, Exec.get_some, Exec.ok_bind]
  cases seen with
  | true =>
    refine Exec.gives_ok ⟨h.length, hkeep s subset_rfl ?_, h.search⟩
    rw [mem_unvisited, hmark]
    simp
  | false =>
    have hnew := mem_unvisited.mpr hmark
    obtain ⟨hsearch, hwork⟩ := h.search.start hnew
    have hbound : work (childrenOf refs) (unvisited s.1) [] ≤ (refs.map fun ids => ids.length + 1).sum :=
      work_nil_le h.search.marks.sub
    rw [← unvisited_set] at hsearch hwork
    simp only [Bool.false_eq_true, if_false, refs_get hstart, Exec.get_some, Exec.ok_bind]
    obtain ⟨r, hr, hlen, hsub, hdone⟩ := walk_gives hrank ((refs.map fun ids => ids.length + 1).sum + 1) hsearch
      (by simpa using h.length) (by rw [hwork]; omega)
    rw [unvisited_set] at hsub
    exact ⟨r, hr, hlen, hkeep r (hsub.trans (Finset.erase_subset _ _)) (fun hmem => by simpa using hsub hmem), hdone⟩

/-- Every id once, and after its references. -/
theorem postorderOf_gives (hrank : Ranked refs rank) : (postorderOf refs).Gives fun post =>
    post.Nodup ∧ (∀ id, id ∈ post ↔ id < refs.length) ∧ Closed (childrenOf refs) post := by
  have hfresh : unvisited (List.replicate refs.length false) = Finset.range refs.length := by
    ext id
    rw [mem_unvisited, Finset.mem_range, List.getElem?_replicate]
    simp
  have hstart : Walked refs [] (List.replicate refs.length false, []) :=
    ⟨by simp, by simp, by rw [hfresh]; exact search_nil⟩
  have hstep : ∀ done start rest s, List.range refs.length = done ++ start :: rest → Walked refs done s →
      (walkFrom refs ((refs.map fun ids => ids.length + 1).sum + 1) s start).Gives (Walked refs (done ++ [start])) := by
    intro done start rest s hsplit hs
    have hmem : start ∈ List.range refs.length := hsplit ▸ by simp
    exact walkFrom_gives hrank hs (List.mem_range.mp hmem)
  rw [postorderOf]
  refine (Exec.gives_foldlM _ hstart hstep).bind fun s hs => ?_
  have hnone : unvisited s.1 = ∅ := by
    refine Finset.eq_empty_of_forall_notMem fun id hid => hs.starts id (List.mem_range.mpr ?_) hid
    exact Finset.mem_range.mp (hs.search.marks.sub hid)
  have hsearch := hs.search
  rw [hnone] at hsearch
  obtain ⟨hnodup, hmem, hclosed⟩ := hsearch.order
  exact Exec.gives_ok ⟨hnodup, fun id => (hmem id).trans Finset.mem_range, hclosed⟩

/-- A cell's position is its place in the reversed postorder. -/
theorem positions_gives {count : Nat} {post : List Nat} (hnodup : post.Nodup) (hlt : ∀ id ∈ post, id < count) :
    (positions count post).Gives fun position => ∀ id ∈ post, position[id]? = .some (post.reverse.idxOf id) := by
  let P : List (Nat × Nat) → List Nat → Prop := fun done position =>
    position.length = count ∧ ∀ place ∈ done, position[place.1]? = .some place.2
  have hfst : (post.reverse.zipIdx.map Prod.fst).Nodup := by
    rw [List.zipIdx_map_fst]
    exact List.nodup_reverse.mpr hnodup
  have hstep : ∀ done place rest position, post.reverse.zipIdx = done ++ place :: rest → P done position →
      (setPosition position place).Gives (P (done ++ [place])) := by
    rintro done ⟨id, index⟩ rest position hsplit ⟨hlen, hdone⟩
    have hid : id < position.length := by
      have hmem : (id, index) ∈ post.reverse.zipIdx := hsplit ▸ by simp
      rw [hlen]
      exact hlt id (List.mem_reverse.mp (List.mem_of_getElem? (List.mk_mem_zipIdx_iff_getElem?.mp hmem)))
    rw [setPosition, if_pos hid]
    refine Exec.gives_ok ⟨by simpa using hlen, fun place hplace => ?_⟩
    rcases List.mem_append.mp hplace with hold | hnew
    · rw [hsplit, List.map_append, List.map_cons, List.nodup_append] at hfst
      have hne : place.1 ≠ id := hfst.2.2 _ (List.mem_map_of_mem hold) _ List.mem_cons_self
      rw [List.getElem?_set_ne (Ne.symm hne)]
      exact hdone place hold
    · rw [List.mem_singleton.mp hnew, List.getElem?_set_self hid]
  obtain ⟨position, hok, -, hall⟩ :=
    Exec.gives_foldlM (P := P) post.reverse.zipIdx (b := List.replicate count 0) ⟨by simp, by simp⟩ hstep
  refine ⟨position, hok, fun id hid => hall (id, post.reverse.idxOf id) ?_⟩
  have hlt' := List.idxOf_lt_length_iff.mpr (List.mem_reverse.mpr hid)
  rw [List.mk_mem_zipIdx_iff_getElem?, List.getElem?_eq_getElem hlt', List.getElem_idxOf hlt']

end Walk

/-! ## The bag -/

/-- The cells in the order they are written, and where their references are. -/
structure Bag (root : TonCell) (order : List TonCell) (places : List (List Nat)) : Prop where
  nodup : order.Nodup
  mem : ∀ cell, cell ∈ order ↔ Under root cell
  first : order[0]? = .some root
  length : places.length = order.length
  refs : ∀ (i : Nat) (cell : TonCell) (js : List Nat), order[i]? = .some cell → places[i]? = .some js →
    List.Forall₂ (fun child j => i < j ∧ order[j]? = .some child) cell.refs js

section Bag

variable {root : TonCell} {cells : List TonCell} {refs : List (List Nat)}

def cellAt (cells : List TonCell) (id : Nat) : TonCell := cells.getD id (.mk .ordinary 0 [] [])

theorem cells_get {id : Nat} (h : id < cells.length) : cells[id]? = .some (cellAt cells id) := by
  rw [cellAt, List.getD_eq_getElem _ _ h, List.getElem?_eq_getElem h]

theorem cellAt_of_get {id : Nat} {cell : TonCell} (h : cells[id]? = .some cell) : cellAt cells id = cell := by
  rw [cellAt, List.getD_eq_getElem?_getD, h]
  rfl

theorem refers_at (hrefs : List.Forall₂ (Refers cells) cells refs) {id : Nat} (h : id < cells.length) :
    Refers cells (cellAt cells id) (childrenOf refs id) := by
  have h' : id < refs.length := hrefs.length_eq ▸ h
  have := hrefs.get h h'
  rwa [List.get_eq_getElem, List.get_eq_getElem, ← List.getD_eq_getElem _ (.mk .ordinary 0 [] []) h,
    ← List.getD_eq_getElem _ [] h'] at this

/-- Depth ranks the ids. -/
theorem ranked_depth (hrefs : List.Forall₂ (Refers cells) cells refs) :
    Ranked refs fun id => (cellAt cells id).depth := by
  have hchild : ∀ id, ∀ child ∈ childrenOf refs id, ∃ cell ∈ (cellAt cells id).refs, cells[child]? = .some cell := by
    intro id child hmem
    by_cases hid : id < cells.length
    · exact Related.exists_left (refers_at hrefs hid) hmem
    · rw [childrenOf, List.getD_eq_default _ _ (hrefs.length_eq ▸ not_lt.mp hid)] at hmem
      cases hmem
  refine ⟨fun id child hmem => ?_, fun id child hmem => ?_⟩
  · obtain ⟨cell, hcell, hget⟩ := hchild id child hmem
    rw [cellAt_of_get hget]
    exact depth_lt hcell
  · obtain ⟨cell, -, hget⟩ := hchild id child hmem
    rw [← hrefs.length_eq]
    exact (List.getElem?_eq_some_iff.mp hget).1

/-- Where the references of each cell are, in the reversed postorder. -/
def placesOf (refs : List (List Nat)) (post : List Nat) : List (List Nat) :=
  post.reverse.map fun id => (childrenOf refs id).map (post.reverse.idxOf ·)

theorem bag_of_postorder {post : List Nat} (hmem : ∀ cell, cell ∈ cells ↔ Under root cell) (hcells : cells.Nodup)
    (hrefs : List.Forall₂ (Refers cells) cells refs) (hnodup : post.Nodup) (hpost : ∀ id, id ∈ post ↔ id < refs.length)
    (hclosed : Postorder.Closed (childrenOf refs) post) :
    Bag root (post.reverse.map (cellAt cells)) (placesOf refs post) := by
  have hlen := hrefs.length_eq
  have hget : ∀ id ∈ post, cells[id]? = .some (cellAt cells id) :=
    fun id hid => cells_get (hlen ▸ (hpost id).mp hid)
  have hinj : ∀ (id id' : Nat) (cell : TonCell), cells[id]? = .some cell → cells[id']? = .some cell → id = id' := by
    intro id id' cell h h'
    exact (List.getElem?_inj (List.getElem?_eq_some_iff.mp h).1 hcells).mp (h.trans h'.symm)
  have horder : ∀ cell, cell ∈ post.reverse.map (cellAt cells) ↔ Under root cell := by
    intro cell
    rw [← hmem, List.mem_map]
    constructor
    · rintro ⟨id, hid, rfl⟩
      exact List.mem_of_getElem? (hget id (List.mem_reverse.mp hid))
    · intro hcell
      obtain ⟨id, hid⟩ := List.mem_iff_getElem?.mp hcell
      have hlt := (List.getElem?_eq_some_iff.mp hid).1
      exact ⟨id, List.mem_reverse.mpr ((hpost id).mpr (hlen ▸ hlt)), cellAt_of_get hid⟩
  refine ⟨?_, horder, ?_, by simp [placesOf], fun i cell js hi hjs => ?_⟩
  · refine (List.nodup_map_iff_inj_on (List.nodup_reverse.mpr hnodup)).mpr fun id hid id' hid' he => ?_
    have h := hget id (List.mem_reverse.mp hid)
    exact hinj id id' _ h (he ▸ hget id' (List.mem_reverse.mp hid'))
  · -- The first cell is nobody's reference, so it is the root.
    have hroot : root ∈ post.reverse.map (cellAt cells) := (horder root).mpr .refl
    have hpos : 0 < post.reverse.length := by
      have := List.length_pos_of_mem hroot
      rwa [List.length_map] at this
    have hzero : post.reverse[0]? = .some post.reverse[0] := List.getElem?_eq_getElem hpos
    generalize post.reverse[0] = id at hzero
    have hid : id ∈ post := List.mem_reverse.mp (List.mem_of_getElem? hzero)
    rw [List.getElem?_map, hzero, Option.map_some]
    have hunder : Under root (cellAt cells id) := (hmem _).mp (List.mem_of_getElem? (hget id hid))
    rcases Relation.ReflTransGen.cases_tail hunder with hsame | ⟨parent, hparent, hchild⟩
    · rw [hsame]
    · obtain ⟨above, habove⟩ := List.mem_iff_getElem?.mp ((hmem parent).mpr hparent)
      have hlt := (List.getElem?_eq_some_iff.mp habove).1
      have hrefer := refers_at hrefs hlt
      rw [cellAt_of_get habove] at hrefer
      obtain ⟨id', hid', hget'⟩ := Related.exists_right hrefer hchild
      rw [hinj id' id _ hget' (hget id hid)] at hid'
      exact absurd hid' (hclosed.last hnodup hzero above ((hpost above).mpr (hlen ▸ hlt)))
  · rw [List.getElem?_map] at hi
    obtain ⟨id, hid, rfl⟩ := Option.map_eq_some_iff.mp hi
    rw [placesOf, List.getElem?_map, hid, Option.map_some] at hjs
    obtain rfl := Option.some.inj hjs
    have hmem' : id ∈ post := List.mem_reverse.mp (List.mem_of_getElem? hid)
    rw [List.forall₂_map_right_iff]
    refine (Related.with_mem (refers_at hrefs (hlen ▸ (hpost id).mp hmem'))).imp fun child cid h => ?_
    obtain ⟨⟨-, hcid⟩, hcell⟩ := h
    obtain ⟨j, hj, hjc⟩ := hclosed.later hid hcid
    have hidx : post.reverse.idxOf cid = j := by
      obtain ⟨hjlt, rfl⟩ := List.getElem?_eq_some_iff.mp hjc
      exact (List.nodup_reverse.mpr hnodup).idxOf_getElem j hjlt
    rw [hidx, List.getElem?_map, hjc, Option.map_some, cellAt_of_get hcell]
    exact ⟨hj, rfl⟩

end Bag

end Pillar.Ton
