/-
What a dispatch plan is: every eligible provider once, the unhealthy last, and
a first wave that is just enough.

The four passes are permutations, each by its own lemma. What is enough depends
on who votes only and more voters never unmeet it, so what the elimination from
the back leaves cannot lose another one (`Minimal`), and the shortest prefix that
is enough is all of it.
-/
import Pillar.Dispatch
import Pillar.QuorumFacts
import Pillar.Related

namespace Pillar.Dispatch

open Std (TreeMap TreeSet)
open Strategy
open Provider (ProviderConfig ProviderUri providerCategories noCounts)

variable {α β ε : Type}

/-! ## Permutations -/

/-- The items by the values of a function, one value after another. -/
theorem flatMap_filter_perm {κ : Type} [DecidableEq κ] (f : α → κ) (l : List α) {keys : List κ} (hkeys : keys.Nodup) :
    List.Perm (keys.flatMap fun k => l.filter (f · = k)) (l.filter (f · ∈ keys)) := by
  induction keys with
  | nil => simp
  | cons k keys ih =>
    obtain ⟨hk, hnodup⟩ := List.nodup_cons.mp hkeys
    rw [List.flatMap_cons]
    refine ((ih hnodup).append_left _).trans ?_
    clear ih
    induction l with
    | nil => simp
    | cons a l ihl =>
      simp only [List.mem_cons] at ihl ⊢
      by_cases ha : f a = k
      · have hout : f a ∉ keys := ha ▸ hk
        simp only [List.filter_cons, ha, decide_true, if_true, true_or, hk, decide_false,
          Bool.false_eq_true, if_false, List.cons_append]
        exact ihl.cons a
      · by_cases hin : f a ∈ keys
        · simp only [List.filter_cons, ha, decide_false, Bool.false_eq_true, if_false, hin, decide_true, if_true,
            false_or]
          exact (List.perm_middle).trans (ihl.cons a)
        · simp only [List.filter_cons, ha, decide_false, Bool.false_eq_true, if_false, hin, false_or]
          exact ihl

theorem sortByKey_perm {κ : Type} (le : κ → κ → Bool) (key : α → κ) (l : List α) : (sortByKey le key l).Perm l :=
  List.perm_insertionSort _ l

theorem mem_firstSeen {l : List String} {e : String} : e ∈ firstSeen l ↔ e ∈ l := by
  suffices key : ∀ (l order : List String),
      e ∈ l.foldl (fun order e => if e ∈ order then order else order ++ [e]) order ↔ e ∈ order ∨ e ∈ l by
    simpa [firstSeen] using key l []
  intro l
  induction l with
  | nil => simp
  | cons a l ih =>
    intro order
    rw [List.foldl_cons, ih, List.mem_cons]
    split
    next hmem =>
      constructor
      · exact Or.imp_right .inr
      · intro h
        rcases h with h | rfl | h
        · exact .inl h
        · exact .inl hmem
        · exact .inr h
    next => simp [or_assoc]

theorem nodup_firstSeen (l : List String) : (firstSeen l).Nodup := by
  suffices key : ∀ (l order : List String), order.Nodup →
      (l.foldl (fun order e => if e ∈ order then order else order ++ [e]) order).Nodup from key l [] .nil
  intro l
  induction l with
  | nil => exact fun order h => h
  | cons a l ih =>
    intro order horder
    rw [List.foldl_cons]
    refine ih _ ?_
    split
    next => exact horder
    next hmem =>
      refine List.nodup_append.mpr ⟨horder, List.nodup_singleton a, fun b hb c hc heq => hmem ?_⟩
      rwa [← List.mem_singleton.mp hc, ← heq]

/-- A round takes the heads and leaves the tails. -/
theorem heads_append_tails (buckets : List (List α)) :
    (buckets.filterMap List.head? ++ (buckets.map List.tail).flatten).Perm buckets.flatten := by
  induction buckets with
  | nil => simp
  | cons bucket buckets ih =>
    cases bucket with
    | nil => simpa [List.filterMap_cons] using ih
    | cons a bucket =>
      simp only [List.filterMap_cons, List.head?_cons, List.map_cons, List.tail_cons, List.flatten_cons,
        List.cons_append]
      refine List.Perm.cons a (.trans ?_ (ih.append_left bucket))
      exact List.perm_append_comm_assoc _ _ _

/-- As many rounds as there are items are enough. -/
theorem takeTurns_perm {rounds : Nat} {buckets : List (List α)} (h : buckets.flatten.length ≤ rounds) :
    (takeTurns rounds buckets).Perm buckets.flatten := by
  induction rounds generalizing buckets with
  | zero =>
    rw [List.eq_nil_of_length_eq_zero (Nat.le_zero.mp h), takeTurns]
  | succ rounds ih =>
    have hperm := heads_append_tails buckets
    rw [takeTurns]
    split
    next hnone =>
      rw [hnone, List.nil_append] at hperm
      have hlen : buckets.flatten = [] := by
        have hheads : ∀ bucket ∈ buckets, bucket = [] := by simpa using hnone
        exact List.flatten_eq_nil_iff.mpr hheads
      rw [hlen]
    next hsome =>
      refine (List.Perm.append_left _ (ih ?_)).trans hperm
      have hlength := hperm.length_eq
      rw [List.length_append] at hlength
      have hpos : 0 < (buckets.filterMap List.head?).length := List.length_pos_of_ne_nil hsome
      omega

theorem orderCategory_perm (providers : List OrderableProvider) (category : String) :
    (orderCategory providers category).Perm (providers.filter (·.category = category)) := by
  set members := providers.filter (·.category = category) with hmembers
  have hsort := sortByKey_perm (fun a b : Int => decide (a ≤ b))
    (fun entity => (members.filter (·.entity = entity)).head?.elim 0 (·.rank)) (firstSeen (members.map (·.entity)))
  have hflat : ((sortByKey (fun a b : Int => decide (a ≤ b))
      (fun entity => (members.filter (·.entity = entity)).head?.elim 0 (·.rank))
      (firstSeen (members.map (·.entity)))).map fun entity =>
      members.filter (·.entity = entity)).flatten.Perm members := by
    rw [← List.flatMap_def]
    refine (flatMap_filter_perm (·.entity) members (hsort.nodup_iff.mpr (nodup_firstSeen _))).trans ?_
    rw [List.filter_eq_self.mpr]
    intro p hp
    rw [decide_eq_true_eq, hsort.mem_iff, mem_firstSeen]
    exact List.mem_map.mpr ⟨p, hp, rfl⟩
  exact (takeTurns_perm hflat.length_eq.le).trans hflat

/-- The interleaving loses nothing whose category is listed. -/
theorem interleave_perm {providers : List OrderableProvider} (strategy : QuorumStrategy)
    (hlisted : ∀ p ∈ providers, p.category ∈ providerCategories) : (interleave providers strategy).Perm providers := by
  have hsort := sortByKey_perm keyLe
    (categoryKey (TreeSet.ofList (strategy.allOf.flatMap (·.keys))) providers)
    (providerCategories.filter fun c => providers.any (·.category = c))
  have hnodup : (providerCategories.filter fun c => providers.any (·.category = c)).Nodup :=
    List.Nodup.filter _ (by decide)
  refine (List.Perm.flatMap_left _ fun c _ => orderCategory_perm providers c).trans ?_
  refine (flatMap_filter_perm (·.category) providers (hsort.nodup_iff.mpr hnodup)).trans ?_
  rw [List.filter_eq_self.mpr]
  intro p hp
  rw [decide_eq_true_eq, hsort.mem_iff, List.mem_filter, List.any_eq_true]
  exact ⟨hlisted p hp, p, hp, by simp⟩

theorem selectedFirst_perm {output : List α} {selected : List Bool} (hlength : selected.length = output.length) :
    (selectedFirst output selected).Perm output := by
  have hpairs : ((output.zip selected).filter (·.2) ++ (output.zip selected).filter (!·.2)).Perm
    (output.zip selected) :=
    List.filter_append_perm _ _
  refine (hpairs.map Prod.fst).trans ?_
  rw [List.map_fst_zip hlength.ge]

/-! ## What is enough -/

/-- These voters together meet the strategy. -/
def Enough (strategy : QuorumStrategy) (voters : List ProviderVoter) : Prop :=
  ∃ counts : Counts, (∀ c e, counts.Lists c e ↔ ⟨c, e⟩ ∈ voters) ∧ Declared counts strategy

variable {strategy : QuorumStrategy} {voters : List ProviderVoter}

theorem declared_iff_enough {counts : Counts} (hlists : ∀ c e, counts.Lists c e ↔ ⟨c, e⟩ ∈ voters) :
    Declared counts strategy ↔ Enough strategy voters := by
  refine ⟨fun h => ⟨counts, hlists, h⟩, fun ⟨counts', hlists', h⟩ => h.mono fun c e hl => ?_⟩
  exact (hlists c e).mpr ((hlists' c e).mp hl)

/-- Entities of no more voters than fit in memory are counted as they are. -/
theorem lists_countsOf {map : TreeMap String (TreeSet String)} (hmap : ∀ c e, Listed map c e ↔ ⟨c, e⟩ ∈ voters)
    (hfew : voters.length < usizeMax) (c e : String) : (countsOf map).Lists c e ↔ ⟨c, e⟩ ∈ voters := by
  obtain ⟨pool, hlen, hn, hmem⟩ := exists_pool map
  have hsub : pool ⊆ voters.map (·.entity) := by
    intro e he
    obtain ⟨c, hc⟩ := (hmem e).mp he
    exact List.mem_map.mpr ⟨_, (hmap c e).mp hc, rfl⟩
  have hle := (List.subperm_of_subset hn hsub).length_le
  rw [List.length_map] at hle
  have hpool : poolOf map < usizeMax := by omega
  rw [countsOf, dif_pos hpool]
  exact hmap c e

theorem satisfiable_countsOf {map : TreeMap String (TreeSet String)} (strategy : QuorumStrategy)
    (hmap : ∀ c e, Listed map c e ↔ ⟨c, e⟩ ∈ voters) (hfew : voters.length < usizeMax) :
    (isStrategySatisfiable (countsOf map) strategy : Exec ε Bool).Decides (Enough strategy voters) :=
  (isStrategySatisfiable_spec _ strategy).congr (declared_iff_enough (lists_countsOf hmap hfew))

/-- More voters never unmeet a strategy. -/
theorem Enough.mono {voters' : List ProviderVoter} (h : Enough strategy voters) (hsub : voters ⊆ voters')
    (hfew : voters'.length < usizeMax) : Enough strategy voters' := by
  obtain ⟨counts, hlists, hdeclared⟩ := h
  have hlists' := lists_countsOf (fun _ _ => @Quorum.listed_voterEntities voters' _ _) hfew
  exact ⟨_, hlists', hdeclared.mono fun c e hl => (hlists' c e).mpr (hsub ((hlists c e).mp hl))⟩

/-- Enough providers, of whom none can be spared. -/
def Minimal (strategy : QuorumStrategy) (l : List OrderableProvider) : Prop :=
  Enough strategy (l.map (·.voter)) ∧ ∀ a x b, l = a ++ x :: b → ¬ Enough strategy ((a ++ b).map (·.voter))

/-! ## The tally -/

theorem pairOrder_eq_iff {a b : String × String} : pairOrder a b = .eq ↔ a = b := by
  simp [pairOrder, compareLex, compareOn, Ordering.then_eq_eq, Prod.ext_iff]

/-- The tally of these providers, in whatever order. -/
structure Tally.Describes (t : Tally) (l : List OrderableProvider) : Prop where
  counts : ∀ c e, t.counts.getD (c, e) 0 = l.countP (·.voter = ⟨c, e⟩)
  entities : ∀ c e, Listed t.entities c e ↔ ⟨c, e⟩ ∈ l.map (·.voter)

theorem listed_insert {map : TreeMap String (TreeSet String)} {category : String} {set : TreeSet String}
    {c e : String} :
    Listed (map.insert category set) c e ↔ if c = category then e ∈ set else Listed map c e := by
  simp only [Listed, TreeMap.getElem?_insert]
  by_cases hc : c = category
  · subst hc
    simp
  · simp [hc, Ne.symm hc]

/-- One more vote is listed. -/
theorem listed_vote {map : TreeMap String (TreeSet String)} {p : OrderableProvider} {c e : String} :
    Listed (map.insert p.category ((map.getD p.category ∅).insert p.entity)) c e ↔
      (⟨c, e⟩ : ProviderVoter) = p.voter ∨ Listed map c e := by
  rw [listed_insert, OrderableProvider.voter, ProviderVoter.mk.injEq]
  by_cases hc : c = p.category
  · subst hc
    rw [if_pos rfl, TreeSet.mem_insert, Std.LawfulEqOrd.compare_eq_iff_eq, eq_comm]
    cases hg : map[p.category]? with
    | none => simp [Listed, TreeMap.getD_eq_getD_getElem?, hg]
    | some set => simp [Listed, TreeMap.getD_eq_getD_getElem?, hg]
  · simp [hc]

section Tally

variable {t : Tally} {l l' : List OrderableProvider} {p : OrderableProvider}

theorem Tally.Describes.perm (h : t.Describes l) (hperm : l.Perm l') : t.Describes l' where
  counts := fun c e => (h.counts c e).trans (hperm.countP_eq _)
  entities := fun c e => (h.entities c e).trans (hperm.map _).mem_iff

theorem counts_insert (counts : TreeMap (String × String) Nat pairOrder) (p : OrderableProvider) (n : Nat)
    (c e : String) :
    (counts.insert (p.category, p.entity) n).getD (c, e) 0 = if p.voter = ⟨c, e⟩ then n else counts.getD (c, e) 0 := by
  rw [TreeMap.getD_insert]
  refine if_congr ?_ rfl rfl
  rw [pairOrder_eq_iff, OrderableProvider.voter, Prod.mk.injEq, ProviderVoter.mk.injEq]

theorem Tally.Describes.count (h : t.Describes l) (p : OrderableProvider) : (t.count p).Describes (p :: l) where
  counts := fun c e => by
    rw [Tally.count, counts_insert, List.countP_cons, h.counts, h.counts]
    by_cases hp : p.voter = ⟨c, e⟩
    · simp only [OrderableProvider.voter, ProviderVoter.mk.injEq] at hp
      simp [OrderableProvider.voter, hp]
    · simp [hp]
  entities := fun c e => by
    rw [Tally.count, listed_vote, List.map_cons, List.mem_cons, ← h.entities]

theorem tally_of (output : List OrderableProvider) : (Tally.of output).Describes output := by
  suffices key : ∀ (output l : List OrderableProvider) (t : Tally), t.Describes l →
      (output.foldl Tally.count t).Describes (output.reverse ++ l) by
    have hempty : (⟨∅, ∅⟩ : Tally).Describes [] := ⟨fun c e => by simp, fun c e => by simp [Listed]⟩
    have h := key output [] _ hempty
    rw [List.append_nil] at h
    exact h.perm output.reverse_perm
  intro output
  induction output with
  | nil => exact fun l t h => h
  | cons p output ih =>
    intro l t h
    rw [List.foldl_cons, List.reverse_cons, List.append_assoc]
    exact ih _ _ (h.count p)

/-- The entry of a provider that is counted. -/
theorem Tally.Describes.entry (h : t.Describes l) (hl : l.Perm (p :: l')) :
    t.counts[(p.category, p.entity)]? = .some (l'.countP (·.voter = p.voter) + 1) := by
  have hcount : t.counts.getD (p.category, p.entity) 0 = l'.countP (·.voter = p.voter) + 1 := by
    rw [h.counts, hl.countP_eq, List.countP_cons]
    simp [OrderableProvider.voter]
  rw [TreeMap.getD_eq_getD_getElem?] at hcount
  cases hg : t.counts[(p.category, p.entity)]? with
  | none => simp [hg] at hcount
  | some n =>
    rw [hg] at hcount
    exact congrArg _ hcount

theorem Tally.Describes.category (h : t.Describes l) (hp : p ∈ l) :
    ∃ set, t.entities[p.category]? = .some set ∧ p.entity ∈ set :=
  (h.entities p.category p.entity).mpr (List.mem_map.mpr ⟨p, hp, rfl⟩)

/-- Dropping one of the providers counted leaves the others, and putting it back undoes it. -/
theorem Tally.Describes.drop (h : t.Describes l) (hl : l.Perm (p :: l')) : (t.drop p : Exec ε Tally).Gives fun fewer =>
    fewer.Describes l' ∧ (fewer.restore p : Exec ε Tally).Gives (·.Describes l) := by
  obtain ⟨set, hset, hmem⟩ := h.category (hl.mem_iff.mpr List.mem_cons_self)
  have hcounts : ∀ c e, (t.counts.insert (p.category, p.entity) (l'.countP (·.voter = p.voter))).getD (c, e) 0 =
      l'.countP (·.voter = ⟨c, e⟩) := by
    intro c e
    rw [counts_insert, h.counts, hl.countP_eq, List.countP_cons]
    by_cases hp : p.voter = ⟨c, e⟩ <;> simp [hp]
  have hback : ∀ c e, ((t.counts.insert (p.category, p.entity) (l'.countP (·.voter = p.voter))).insert
      (p.category, p.entity) (l'.countP (·.voter = p.voter) + 1)).getD (c, e) 0 = l.countP (·.voter = ⟨c, e⟩) := by
    intro c e
    rw [counts_insert, hcounts, hl.countP_eq, List.countP_cons]
    by_cases hp : p.voter = ⟨c, e⟩ <;> simp [hp]
  have hself : (t.counts.insert (p.category, p.entity) (l'.countP (·.voter = p.voter)))[(p.category, p.entity)]? =
      .some (l'.countP (·.voter = p.voter)) := TreeMap.getElem?_insert_self
  have hlisted : ∀ c e, Listed t.entities c e ↔ (⟨c, e⟩ : ProviderVoter) = p.voter ∨ ⟨c, e⟩ ∈ l'.map (·.voter) := by
    intro c e
    rw [h.entities, (hl.map _).mem_iff, List.map_cons, List.mem_cons]
  rw [Tally.drop, h.entry hl, Exec.get_some, Exec.ok_bind, Exec.sub_of_le (by omega), Exec.ok_bind,
    Nat.add_sub_cancel]
  split
  next hzero =>
    have hlast : p.voter ∉ l'.map (·.voter) := by
      intro hin
      obtain ⟨q, hq, heq⟩ := List.mem_map.mp hin
      exact absurd (List.countP_eq_zero.mp hzero q hq) (by simpa using heq)
    rw [hset, Exec.get_some, Exec.ok_bind, Exec.pure_eq_ok]
    refine Exec.gives_ok ⟨⟨hcounts, fun c e => ?_⟩, ?_⟩
    · rw [listed_insert]
      split
      next hc =>
        subst hc
        have hin : e ∈ set ↔ Listed t.entities p.category e := by simp [Listed, hset]
        rw [TreeSet.mem_erase, hin, hlisted, OrderableProvider.voter, ProviderVoter.mk.injEq]
        by_cases he : e = p.entity
        · subst he
          simpa [OrderableProvider.voter] using hlast
        · simp [he, Ne.symm he]
      next hc => simp [hlisted, OrderableProvider.voter, hc]
    · rw [Tally.restore, hself, Exec.get_some, Exec.ok_bind, TreeMap.getElem?_insert_self, Exec.get_some, Exec.ok_bind,
        Exec.pure_eq_ok]
      refine Exec.gives_ok ⟨hback, fun c e => ?_⟩
      rw [listed_insert, ← h.entities]
      split
      next hc =>
        subst hc
        have hin : Listed t.entities p.category e ↔ e ∈ set := by simp [Listed, hset]
        rw [hin, TreeSet.mem_insert, TreeSet.mem_erase]
        by_cases he : e = p.entity
        · subst he
          simpa using hmem
        · simp [Ne.symm he]
      next hc => simp [listed_insert, hc]
  next hpos =>
    rw [Exec.pure_eq_ok]
    have hmore : p.voter ∈ l'.map (·.voter) := by
      obtain ⟨q, hq, heq⟩ := List.countP_pos_iff.mp (Nat.pos_of_ne_zero hpos)
      exact List.mem_map.mpr ⟨q, hq, by simpa using heq⟩
    refine Exec.gives_ok ⟨⟨hcounts, fun c e => ?_⟩, ?_⟩
    · rw [hlisted]
      exact ⟨fun hor => hor.elim (fun heq => heq ▸ hmore) id, .inr⟩
    · rw [Tally.restore, hself, Exec.get_some, Exec.ok_bind, hset, Exec.get_some, Exec.ok_bind, Exec.pure_eq_ok]
      refine Exec.gives_ok ⟨hback, fun c e => ?_⟩
      rw [listed_insert, ← h.entities]
      split
      next hc =>
        subst hc
        have hin : Listed t.entities p.category e ↔ e ∈ set := by simp [Listed, hset]
        rw [hin, TreeSet.mem_insert]
        by_cases he : e = p.entity
        · subst he
          simpa using hmem
        · simp [Ne.symm he]
      next => rfl

end Tally

/-! ## The elimination -/

/-- Those selected, in their order. -/
def picked (output : List α) (selected : List Bool) : List α := ((output.zip selected).filter (·.2)).map (·.1)

theorem picked_cons (a : α) (output : List α) (b : Bool) (selected : List Bool) :
    picked (a :: output) (b :: selected) = if b then a :: picked output selected else picked output selected := by
  cases b <;> simp [picked]

theorem length_picked_le (output : List α) (selected : List Bool) :
    (picked output selected).length ≤ output.length := by
  rw [picked, List.length_map]
  refine (List.length_filter_le _ _).trans ?_
  rw [List.length_zip]
  exact min_le_left _ _

theorem length_split {l a b : List α} {x : α} (h : l = a ++ x :: b) : l.length = a.length + b.length + 1 := by
  rw [h, List.length_append, List.length_cons]
  omega

/-- The loop from the back: of the providers behind, none kept can be spared
even with all those still in front. -/
theorem eliminate_gives (candidate : QuorumStrategy) : ∀ (before behind : List OrderableProvider) (t : Tally)
    (selected : List Bool), selected.length = behind.length → before.length + behind.length < usizeMax →
    t.Describes (before ++ picked behind selected) →
    Enough candidate ((before ++ picked behind selected).map (·.voter)) →
    (∀ a x b, picked behind selected = a ++ x :: b → ¬ Enough candidate ((before ++ (a ++ b)).map (·.voter))) →
    (eliminate candidate before t selected : Exec ε (List Bool)).Gives fun result =>
      result.length = before.length + behind.length ∧ Minimal candidate (picked (before.reverse ++ behind) result)
  | [], behind, t, selected, hlength, _, _, henough, hspare =>
    Exec.gives_ok ⟨by simpa using hlength, henough, hspare⟩
  | provider :: before, behind, t, selected, hlength, hfew, ht, henough, hspare => by
    have hle := length_picked_le behind selected
    rw [List.length_cons] at hfew
    have hreverse : (provider :: before).reverse ++ behind = before.reverse ++ provider :: behind := by simp
    have hfew' : before.length + (provider :: behind).length < usizeMax := by
      rw [List.length_cons]
      omega
    have hcons : (provider :: before ++ picked behind selected).Perm (provider :: (before ++ picked behind selected)) :=
      List.Perm.refl _
    rw [eliminate]
    refine (ht.drop hcons).bind fun fewer hfewer => ?_
    obtain ⟨hdescribes, hrestore⟩ := hfewer
    obtain ⟨enough, hok, hiff⟩ := satisfiable_countsOf (ε := ε) candidate hdescribes.entities (by
      simp only [List.length_map, List.length_append]
      omega)
    rw [hok, Exec.ok_bind]
    split
    next htrue =>
      have hpicked : picked (provider :: behind) (false :: selected) = picked behind selected := by
        simp [picked_cons]
      obtain ⟨result, hresult, hlen, hminimal⟩ := eliminate_gives candidate before (provider :: behind) fewer
        (false :: selected) (by simp [hlength]) hfew' (hpicked ▸ hdescribes) (hpicked ▸ hiff.mp htrue) (by
          intro a x b hab hless
          rw [hpicked] at hab
          have hsplit := length_split hab
          refine hspare a x b hab (hless.mono (by simp) ?_)
          simp only [List.length_map, List.length_append, List.length_cons]
          omega)
      refine ⟨result, hresult, ?_, hreverse ▸ hminimal⟩
      rw [hlen, List.length_cons, List.length_cons]
      omega
    next hfalse =>
      have hpicked : picked (provider :: behind) (true :: selected) = provider :: picked behind selected := by
        simp [picked_cons]
      refine hrestore.bind fun restored hrestored => ?_
      have hmiddle : (provider :: before ++ picked behind selected).Perm
        (before ++ provider :: picked behind selected) :=
        List.perm_middle.symm
      have hall : Enough candidate ((before ++ provider :: picked behind selected).map (·.voter)) := by
        refine henough.mono (hmiddle.map _).subset ?_
        simp only [List.length_map, List.length_append, List.length_cons]
        omega
      obtain ⟨result, hresult, hlen, hminimal⟩ := eliminate_gives candidate before (provider :: behind) restored
        (true :: selected) (by simp [hlength]) hfew' (hpicked ▸ hrestored.perm hmiddle) (hpicked ▸ hall) (by
          intro a x b hab hless
          rw [hpicked] at hab
          cases a with
          | nil =>
            obtain ⟨-, rfl⟩ := List.cons.inj hab
            exact hfalse (hiff.mpr hless)
          | cons y a =>
            obtain ⟨rfl, htail⟩ := List.cons.inj hab
            have hsplit := length_split htail
            refine hspare a x b htail (hless.mono ?_ ?_)
            · exact (List.perm_middle.map _).subset
            · simp only [List.length_map, List.length_append, List.length_cons]
              omega)
      refine ⟨result, hresult, ?_, hreverse ▸ hminimal⟩
      rw [hlen, List.length_cons, List.length_cons]
      omega

theorem minimalSatisfyingSelection_gives {output : List OrderableProvider} (candidate : QuorumStrategy)
    (hfew : output.length < usizeMax) : (minimalSatisfyingSelection output candidate : Exec ε _).Gives fun r =>
      (r = .none → ¬ Enough candidate (output.map (·.voter))) ∧
      ∀ selected, r = .some selected → selected.length = output.length ∧
      Minimal candidate (picked output selected) := by
  have htally := tally_of output
  obtain ⟨enough, hok, hiff⟩ := satisfiable_countsOf (ε := ε) candidate htally.entities (by simpa using hfew)
  rw [minimalSatisfyingSelection, hok, Exec.ok_bind]
  split
  next hnot =>
    refine Exec.gives_ok ⟨fun _ henough => ?_, fun _ h => (by cases h)⟩
    simp [hiff.mpr henough] at hnot
  next hyes =>
    have hall : Enough candidate (output.map (·.voter)) := hiff.mp (by simpa using hyes)
    have hreversed : Enough candidate (output.reverse.map (·.voter)) :=
      hall.mono (output.reverse_perm.symm.map _).subset (by simpa using hfew)
    obtain ⟨result, hresult, hlen, hminimal⟩ := eliminate_gives (ε := ε) candidate output.reverse []
      (Tally.of output) []
      rfl (by simpa using hfew) (by simpa [picked] using htally.perm output.reverse_perm.symm)
      (by simpa [picked] using hreversed) (by simp [picked])
    rw [hresult, Exec.ok_bind, Exec.pure_eq_ok]
    refine Exec.gives_ok ⟨fun h => (by cases h), fun selected h => ?_⟩
    cases h
    exact ⟨by simpa using hlen, by simpa using hminimal⟩

/-! ## The order of the healthy -/

theorem selectedFirst_eq (output : List α) (selected : List Bool) : ∃ rest,
    selectedFirst output selected = picked output selected ++ rest := by
  refine ⟨((output.zip selected).filter (!·.2)).map (·.1), ?_⟩
  rw [selectedFirst, List.map_append]
  rfl

theorem considerAlternative_gives {output : List OrderableProvider} (strategy : QuorumStrategy) {best : Best}
    (alternative : CategoryRequirement) (hfew : output.length < usizeMax)
    (hbest : ∀ b, best = .some b → b.2.2.length = output.length) :
    (considerAlternative output strategy best alternative : Exec ε Best).Gives fun best =>
      ∀ b, best = .some b → b.2.2.length = output.length := by
  rw [considerAlternative]
  refine (minimalSatisfyingSelection_gives _ hfew).bind fun r hr => ?_
  cases r with
  | none => exact Exec.gives_ok hbest
  | some selected =>
    have hlength := (hr.2 selected rfl).1
    have hnew : ∀ count rank, ∀ b, (.some (count, rank, selected) : Best) = .some b → b.2.2.length = output.length := by
      intro count rank b hb
      cases hb
      exact hlength
    cases best with
    | none => exact Exec.gives_ok (hnew _ _)
    | some b =>
      dsimp only
      split
      · exact Exec.gives_ok (hnew _ _)
      · exact Exec.gives_ok hbest

theorem orderProvidersForQuorum_gives {providers : List OrderableProvider} (strategy : QuorumStrategy)
    (hlisted : ∀ p ∈ providers, p.category ∈ providerCategories) (hfew : providers.length < usizeMax) :
    (orderProvidersForQuorum providers strategy : Exec ε _).Gives (·.Perm providers) := by
  have hperm := interleave_perm strategy hlisted
  have hfew' : (interleave providers strategy).length < usizeMax := hperm.length_eq ▸ hfew
  rw [orderProvidersForQuorum]
  split
  · exact Exec.gives_ok hperm
  · refine (Exec.gives_foldlM (P := fun _ best => ∀ b, best = .some b →
      b.2.2.length = (interleave providers strategy).length) strategy.oneOf (fun _ h => (by cases h))
      fun done alternative rest best _ hbest => considerAlternative_gives strategy alternative hfew' hbest).bind
      fun best hbest => ?_
    cases best with
    | none => exact Exec.gives_ok hperm
    | some b => exact Exec.gives_ok ((selectedFirst_perm (hbest b rfl)).trans hperm)

/-- Without alternatives, providers of whom none can be spared come first. -/
theorem prioritizeMinimalQuorum_gives {ordered : List OrderableProvider} (strategy : QuorumStrategy)
    (hfew : ordered.length < usizeMax) : (prioritizeMinimalQuorum ordered strategy : Exec ε _).Gives fun l =>
      l.Perm ordered ∧ (strategy.oneOf = [] → Enough strategy (ordered.map (·.voter)) →
        ∃ wave rest, l = wave ++ rest ∧ Minimal strategy wave) := by
  rw [prioritizeMinimalQuorum]
  split
  next halternatives =>
    refine Exec.gives_ok ⟨List.Perm.refl _, fun hnone => ?_⟩
    simp [hnone] at halternatives
  next =>
    refine (minimalSatisfyingSelection_gives strategy hfew).bind fun r hr => ?_
    cases r with
    | none => exact Exec.gives_ok ⟨List.Perm.refl _, fun _ henough => absurd henough (hr.1 rfl)⟩
    | some selected =>
      obtain ⟨hlength, hminimal⟩ := hr.2 selected rfl
      obtain ⟨rest, heq⟩ := selectedFirst_eq ordered selected
      exact Exec.gives_ok ⟨selectedFirst_perm hlength, fun _ _ => ⟨_, rest, heq, hminimal⟩⟩

theorem orderProviders_gives {orderable : List OrderableProvider} (strategy : QuorumStrategy)
    (hlisted : ∀ p ∈ orderable, p.category ∈ providerCategories) (hfew : orderable.length < usizeMax)
    (hall : Enough strategy (orderable.map (·.voter))) :
    (orderProviders strategy orderable : Exec ε _).Gives fun ordered =>
      ordered.Perm orderable ∧ (strategy.oneOf = [] → ranksOnly strategy = false →
        ∃ wave rest, ordered = wave ++ rest ∧ Minimal strategy wave) := by
  rw [orderProviders]
  split
  next hranks => exact Exec.gives_ok ⟨List.Perm.refl _, fun _ hnot => by simp [hranks] at hnot⟩
  next =>
    refine (orderProvidersForQuorum_gives strategy hlisted hfew).bind fun output hperm => ?_
    have hfewOut : output.length < usizeMax := hperm.length_eq ▸ hfew
    obtain ⟨ordered, hok, hpermOrdered, hminimal⟩ := prioritizeMinimalQuorum_gives (ε := ε) strategy hfewOut
    refine ⟨ordered, hok, hpermOrdered.trans hperm, fun hnone _ => hminimal hnone ?_⟩
    exact hall.mono (hperm.symm.map _).subset (by simpa using hfewOut)

/-! ## The first wave -/

theorem minProvidersLoop_gives (strategy : QuorumStrategy) : ∀ (rest seen : List OrderableProvider)
    {votes : TreeMap String (TreeSet String)},
    (∀ c e, Listed votes c e ↔ ⟨c, e⟩ ∈ seen.map (·.voter)) → (seen ++ rest).length < usizeMax →
    (∀ k ≤ seen.length, ¬ Enough strategy (((seen ++ rest).take k).map (·.voter))) →
    Enough strategy ((seen ++ rest).map (·.voter)) →
    (minProvidersLoop strategy rest votes seen.length : Exec ε Nat).Gives fun n => n ≤ (seen ++ rest).length ∧
      Enough strategy (((seen ++ rest).take n).map (·.voter)) ∧
      ∀ k < n, ¬ Enough strategy (((seen ++ rest).take k).map (·.voter))
  | [], seen, votes, _, _, hshort, hall => by
    rw [List.append_nil] at hall hshort
    have hnot := hshort seen.length le_rfl
    rw [List.take_length] at hnot
    exact absurd hall hnot
  | provider :: rest, seen, votes, hvotes, hfew, hshort, hall => by
    have hsnoc : seen ++ provider :: rest = seen ++ [provider] ++ rest := by simp
    have htake : ((seen ++ provider :: rest).take (seen.length + 1)) = seen ++ [provider] := by
      rw [hsnoc, List.take_append_of_le_length (by simp), List.take_of_length_le (by simp)]
    have hvotes' : ∀ c e, Listed (votes.insert provider.category
      ((votes.getD provider.category ∅).insert provider.entity))
        c e ↔ ⟨c, e⟩ ∈ (seen ++ [provider]).map (·.voter) := by
      intro c e
      rw [listed_vote, List.map_append, List.mem_append, ← hvotes, List.map_singleton, List.mem_singleton, or_comm]
    obtain ⟨enough, hok, hiff⟩ := satisfiable_countsOf (ε := ε) strategy hvotes' (by
      simp only [List.length_map, List.length_append, List.length_cons, List.length_nil] at hfew ⊢
      omega)
    rw [minProvidersLoop, hok, Exec.ok_bind]
    split
    next htrue =>
      refine Exec.gives_ok ⟨?_, ?_, fun k hk => hshort k (Nat.lt_succ_iff.mp hk)⟩
      · simp
      · rw [htake]
        exact hiff.mp htrue
    next hfalse =>
      have hlength : (seen ++ [provider]).length = seen.length + 1 := by simp
      rw [hsnoc, ← hlength]
      refine minProvidersLoop_gives strategy rest (seen ++ [provider]) hvotes' (hsnoc ▸ hfew) ?_ (hsnoc ▸ hall)
      intro k hk
      rw [← hsnoc]
      rcases Nat.le_succ_iff.mp (hlength ▸ hk) with hle | heq
      · exact hshort k hle
      · rw [heq, Nat.succ_eq_add_one, htake]
        exact fun henough => hfalse (hiff.mpr henough)

theorem minProvidersForStrategy_gives {providers : List OrderableProvider} (hfew : providers.length < usizeMax)
    (hnobody : ¬ Enough strategy []) (hall : Enough strategy (providers.map (·.voter))) :
    (minProvidersForStrategy providers strategy : Exec ε Nat).Gives fun n => n ≤ providers.length ∧
      Enough strategy ((providers.take n).map (·.voter)) ∧
      ∀ k < n, ¬ Enough strategy ((providers.take k).map (·.voter)) :=
  minProvidersLoop_gives strategy providers [] (by simp [Listed]) hfew
    (by intro k hk; simpa [Nat.le_zero.mp hk] using hnobody) hall

/-- Of providers of whom none can be spared, the shortest prefix that is enough is all. -/
theorem Minimal.wave {wave rest : List OrderableProvider} {n : Nat} (h : Minimal strategy wave)
    (hfew : wave.length < usizeMax) (henough : Enough strategy (((wave ++ rest).take n).map (·.voter)))
    (hshort : ∀ k < n, ¬ Enough strategy (((wave ++ rest).take k).map (·.voter))) : (wave ++ rest).take n = wave := by
  have hle : n ≤ wave.length := by
    by_contra hlt
    exact hshort wave.length (not_le.mp hlt) (by simpa using h.1)
  rw [List.take_append_of_le_length hle] at henough ⊢
  rcases hle.eq_or_lt with heq | hlt
  · rw [heq, List.take_length]
  · have hsplit : wave = wave.take n ++ wave[n] :: wave.drop (n + 1) := by
      rw [← List.drop_eq_getElem_cons hlt, List.take_append_drop]
    refine absurd (henough.mono ?_ ?_) (h.2 _ _ _ hsplit)
    · rw [List.map_append]
      exact List.subset_append_left _ _
    · have := length_split hsplit
      rw [List.length_map, List.length_append]
      omega

/-! ## Providers and their indices -/

/-- The index a provider's id is. -/
def numberOf (provider : OrderableProvider) : Nat := (Text.parse 64 provider.id).toOption.getD 0

theorem numberOf_eq {provider : OrderableProvider} {index : Nat} (h : Text.parse 64 provider.id = .ok index) :
    numberOf provider = index := by
  rw [numberOf, h]
  rfl

/-- The provider stands for a configured one. -/
structure Stands (config : ProviderConfig) (provider : OrderableProvider) : Prop where
  parses : Text.parse 64 provider.id = .ok (numberOf provider)
  voter : config.voters[numberOf provider]? = .some provider.voter

variable {config : ProviderConfig} {l : List OrderableProvider}

theorem metBy_numbers (hl : ∀ p ∈ l, Stands config p) :
    Quorum.MetBy config.toProviderConfig (l.map numberOf) ↔ Enough config.strategy (l.map (·.voter)) := by
  have hvoters : config.toProviderConfig.votersAt (l.map numberOf) = l.map (·.voter) := by
    rw [Quorum.ProviderConfig.votersAt, List.filterMap_map, ← List.filterMap_eq_map]
    exact List.filterMap_congr fun p hp => (hl p hp).voter
  refine declared_iff_enough fun c e => ?_
  rw [Counts.Lists, Quorum.ProviderConfig.counts, Quorum.listed_voterEntities, hvoters]

theorem indices_of_stands (hl : ∀ p ∈ l, Stands config p) : (l.mapM indexOf : Exec ε _) = .ok (l.map numberOf) :=
  Exec.mapM_eq_map l fun p hp => by rw [indexOf, (hl p hp).parses]

/-- An order whose first wave is enough, with nothing to spare where that is
promised. -/
structure Ordered (config : ProviderConfig) (indices : List Nat) (wave : Nat) : Prop where
  positive : 0 < wave
  within : wave ≤ indices.length
  met : Quorum.MetBy config.toProviderConfig (indices.take wave)
  least : ∀ k < wave, ¬ Quorum.MetBy config.toProviderConfig (indices.take k)
  minimal : config.strategy.oneOf = [] → ranksOnly config.strategy = false → ∀ some ⊆ indices.take wave,
    (∃ i ∈ indices.take wave, i ∉ some) → ¬ Quorum.MetBy config.toProviderConfig some

/-- Nothing can be spared of a wave of which nobody can be. -/
theorem Minimal.spares_none {wave : List OrderableProvider} (h : Minimal config.strategy wave)
    (hstands : ∀ p ∈ wave, Stands config p) {fewer : List Nat} (hsub : fewer ⊆ wave.map numberOf)
    (hmissing : ∃ i ∈ wave.map numberOf, i ∉ fewer) : ¬ Quorum.MetBy config.toProviderConfig fewer := by
  obtain ⟨i, hi, hnot⟩ := hmissing
  obtain ⟨x, hx, rfl⟩ := List.mem_map.mp hi
  obtain ⟨before, behind, rfl⟩ := List.append_of_mem hx
  have hothers : fewer ⊆ (before ++ behind).map numberOf := by
    intro j hj
    obtain ⟨y, hy, rfl⟩ := List.mem_map.mp (hsub hj)
    have hne : y ≠ x := fun heq => hnot (heq ▸ hj)
    refine List.mem_map.mpr ⟨y, ?_, rfl⟩
    simpa [hne] using hy
  have hstandsOthers : ∀ p ∈ before ++ behind, Stands config p := by
    intro p hp
    refine hstands p ?_
    simp only [List.mem_append, List.mem_cons] at hp ⊢
    tauto
  intro hmet
  exact h.2 before x behind rfl ((metBy_numbers hstandsOthers).mp (hmet.mono hothers))

/-- What the shortest prefix that is enough makes of an order. -/
theorem ordered_of_prefix {ordered : List OrderableProvider} {n : Nat} (hnobody : ¬ Enough config.strategy [])
    (hstands : ∀ p ∈ ordered, Stands config p) (hfew : ordered.length < usizeMax) (hle : n ≤ ordered.length)
    (henough : Enough config.strategy ((ordered.take n).map (·.voter)))
    (hshort : ∀ k < n, ¬ Enough config.strategy ((ordered.take k).map (·.voter)))
    (hminimal : config.strategy.oneOf = [] → ranksOnly config.strategy = false →
      ∃ wave rest, ordered = wave ++ rest ∧ Minimal config.strategy wave) :
    Ordered config (ordered.map numberOf) (max n 1) := by
  have hpos : 0 < n := by
    by_contra hzero
    rw [Nat.eq_zero_of_not_pos hzero] at henough
    exact hnobody henough
  have hmetTake : ∀ k, Quorum.MetBy config.toProviderConfig ((ordered.map numberOf).take k) ↔
      Enough config.strategy ((ordered.take k).map (·.voter)) := by
    intro k
    rw [← List.map_take]
    exact metBy_numbers fun p hp => hstands p (List.mem_of_mem_take hp)
  rw [max_eq_left hpos]
  exact
    { positive := hpos
      within := by rwa [List.length_map]
      met := (hmetTake n).mpr henough
      least := fun k hk hmetk => hshort k hk ((hmetTake k).mp hmetk)
      minimal := fun hnone hranks fewer hsub hmissing => by
        obtain ⟨wave, rest, rfl, hwave⟩ := hminimal hnone hranks
        have hfewWave : wave.length < usizeMax := by
          rw [List.length_append] at hfew
          omega
        rw [← List.map_take, hwave.wave hfewWave henough hshort] at hsub hmissing
        exact hwave.spares_none (fun p hp => hstands p (List.mem_append_left _ hp)) hsub hmissing }

theorem toOrderable_gives {entry : Nat × ProviderRank} (hin : entry.1 < config.voters.length) :
    (toOrderable config entry : Exec ε _).Gives fun p => Stands config p ∧ numberOf p = entry.1 := by
  have hsmall : entry.1 < 2 ^ 64 := by
    have hfew : config.voters.length < 2 ^ 64 - 1 := config.voters_lt
    omega
  have hparse : Text.parse 64 (toString entry.1) = .ok entry.1 := Text.parse_repr.mpr ⟨rfl, hsmall⟩
  have hvoter : config.voters[entry.1]? = .some config.voters[entry.1] := List.getElem?_eq_getElem hin
  rw [toOrderable, hvoter, Exec.get_some, Exec.ok_bind, Exec.pure_eq_ok]
  generalize toString entry.1 = text at hparse ⊢
  refine Exec.gives_ok ⟨⟨?_, ?_⟩, numberOf_eq hparse⟩
  · rw [numberOf_eq hparse]
    exact hparse
  · rw [numberOf_eq hparse]
    exact hvoter

theorem orderHealthy_gives {healthy : List (Nat × ProviderRank)} (hvalid : config.Valid)
    (hlisted : ∀ v ∈ config.voters, v.category ∈ providerCategories)
    (hin : ∀ entry ∈ healthy, entry.1 < config.voters.length) (hfew : healthy.length < usizeMax)
    (hmet : Quorum.MetBy config.toProviderConfig (healthy.map (·.1))) :
    (orderHealthy config healthy : Exec ε _).Gives fun r => ∃ indices, (r.1.mapM indexOf : Exec ε _) = .ok indices ∧
      indices.Perm (healthy.map (·.1)) ∧ Ordered config indices r.2 := by
  have hnobody : ¬ Enough config.strategy [] := fun henough =>
    hvalid.agreement ((declared_iff_enough (by simp [noCounts, Counts.Lists, Listed])).mpr henough)
  rw [orderHealthy]
  refine (Exec.gives_mapM healthy fun entry hentry => toOrderable_gives (hin entry hentry)).bind
    fun orderable horderable => ?_
  have hstands : ∀ p ∈ orderable, Stands config p := by
    intro p hp
    obtain ⟨entry, -, hstands, -⟩ := Related.exists_left horderable hp
    exact hstands
  have hnumbers : orderable.map numberOf = healthy.map (·.1) := Related.map_eq horderable fun _ _ h => h.2
  have hlength : orderable.length < usizeMax := by
    have heq := congrArg List.length hnumbers
    rw [List.length_map, List.length_map] at heq
    omega
  have hcategories : ∀ p ∈ orderable, p.category ∈ providerCategories := fun p hp =>
    hlisted p.voter (List.mem_of_getElem? (hstands p hp).voter)
  have hall : Enough config.strategy (orderable.map (·.voter)) := by
    rwa [← metBy_numbers hstands, hnumbers]
  refine (orderProviders_gives config.strategy hcategories hlength hall).bind fun ordered hgiven => ?_
  obtain ⟨hperm, hminimal⟩ := hgiven
  have hfewOrdered : ordered.length < usizeMax := hperm.length_eq ▸ hlength
  have hallOrdered : Enough config.strategy (ordered.map (·.voter)) :=
    hall.mono (hperm.symm.map _).subset (by simpa using hfewOrdered)
  have hstandsOrdered : ∀ p ∈ ordered, Stands config p := fun p hp => hstands p (hperm.mem_iff.mp hp)
  refine (minProvidersForStrategy_gives hfewOrdered hnobody hallOrdered).bind fun n hn => ?_
  obtain ⟨hle, henough, hshort⟩ := hn
  exact Exec.gives_ok ⟨ordered.map numberOf, indices_of_stands hstandsOrdered, hnumbers ▸ hperm.map numberOf,
    ordered_of_prefix hnobody hstandsOrdered hfewOrdered hle henough hshort hminimal⟩

/-! ## Delays -/

/-- Within the first wave nobody waits. -/
theorem delayAt_wave {wave position : Nat} (cap : Option Nat) (h : position < wave) :
    delayAt wave cap position = 0 := by
  have hbehind : position + 1 - wave = 0 := by omega
  simp only [delayAt, hbehind]
  cases cap <;> simp

/-- As long as the factor fits, those further behind do not wait less. -/
theorem delayAt_mono {wave position later : Nat} (cap : Option Nat) (hle : position ≤ later)
    (hfits : later + 1 - wave < 2 ^ 32) : delayAt wave cap position ≤ delayAt wave cap later := by
  have hdelay : defaultStallTimeout * ((position + 1 - wave) % 2 ^ 32) ≤
      defaultStallTimeout * ((later + 1 - wave) % 2 ^ 32) := by
    rw [Nat.mod_eq_of_lt hfits, Nat.mod_eq_of_lt (by omega)]
    exact Nat.mul_le_mul_left _ (by omega)
  cases cap with
  | none => exact hdelay
  | some cap => exact min_le_min_right cap hdelay

/-- The last factor that fits, and the one after it. -/
theorem delayAt_wraps {wave : Nat} {cap : Option Nat} (hwave : 0 < wave) (hcap : cap ≠ .some 0) :
    delayAt wave cap (wave + 2 ^ 32 - 1) < delayAt wave cap (wave + 2 ^ 32 - 2) := by
  have hlast : wave + 2 ^ 32 - 2 + 1 - wave = 2 ^ 32 - 1 := by omega
  have hwrapped : wave + 2 ^ 32 - 1 + 1 - wave = 2 ^ 32 := by omega
  simp only [delayAt, hlast, hwrapped]
  cases cap with
  | none => decide
  | some cap =>
    have hpos : 0 < cap := Nat.pos_of_ne_zero fun hzero => hcap (hzero ▸ rfl)
    simp [defaultStallTimeout, hpos]

theorem entriesOf_gives {order : List Nat} (hin : ∀ i ∈ order, i < config.uris.length) (wave : Nat) (cap : Option Nat) :
    (entriesOf config wave cap order : Exec ε _).Gives fun plan => plan.map (·.index) = order ∧
      plan.map (·.delay) = (List.range order.length).map (delayAt wave cap) := by
  have hstep : ∀ at' ∈ order.zipIdx, (do
      let uri ← Exec.get config.uris[at'.1]?
      return { index := at'.1, uri, delay := delayAt wave cap at'.2 } : Exec ε DispatchEntry).Gives fun entry =>
        entry.index = at'.1 ∧ entry.delay = delayAt wave cap at'.2 := by
    intro at' hat
    have hlt : at'.1 < config.uris.length := hin _ (List.fst_mem_of_mem_zipIdx hat)
    have huri : config.uris[at'.1]? = .some config.uris[at'.1] := List.getElem?_eq_getElem hlt
    rw [huri, Exec.get_some, Exec.ok_bind, Exec.pure_eq_ok]
    exact Exec.gives_ok ⟨rfl, rfl⟩
  obtain ⟨plan, hok, hplan⟩ := Exec.gives_mapM order.zipIdx hstep
  refine ⟨plan, hok, ?_, ?_⟩
  · rw [Related.map_eq hplan fun _ _ h => h.1, List.zipIdx_map_fst]
  · rw [Related.map_eq (g := fun at' : Nat × Nat => delayAt wave cap at'.2) hplan fun _ _ h => h.2]
    have hsnd : order.zipIdx.map Prod.snd = List.range order.length := by
      rw [List.zipIdx_map_snd, List.range_eq_range']
    rw [← hsnd, List.map_map]
    rfl

/-! ## The plan -/

/-- What a plan has to be: the healthy providers, then the unhealthy; nobody
waits less than one before; the first wave at once, enough, and the shortest
that is, with nothing to spare where that is promised. -/
structure Planned (config : ProviderConfig) (healthy unhealthy : List Nat) (plan : List DispatchEntry) (wave : Nat) :
    Prop where
  order : ∃ front back, plan.map (·.index) = front ++ back ∧ front.Perm healthy ∧ back.Perm unhealthy
  delays : (plan.map (·.delay)).Pairwise (· ≤ ·)
  atOnce : ∀ entry ∈ plan.take wave, entry.delay = 0
  firstWave : Ordered config (plan.map (·.index)) wave

def healthyIndices (rankOf : Nat × String → ProviderRank) (keyed : List (Nat × String)) : List Nat :=
  (keyed.filter fun entry => rankOf entry ≠ .unhealthy).map (·.1)

def unhealthyIndices (rankOf : Nat × String → ProviderRank) (keyed : List (Nat × String)) : List Nat :=
  (keyed.filter fun entry => rankOf entry = .unhealthy).map (·.1)

/-- Planning errs exactly when the healthy providers are not enough, and plans
all eligible ones otherwise. -/
structure PlansWell (rankOf : Nat × String → ProviderRank) (chainName : String) (config : ProviderConfig)
    (keyed : List (Nat × String)) (cap : Option Nat) : Prop where
  errs : (∃ e, planDispatchForKeys rankOf chainName config keyed cap = Exec.err e) ↔
    ¬ Quorum.MetBy config.toProviderConfig (healthyIndices rankOf keyed)
  plans : Quorum.MetBy config.toProviderConfig (healthyIndices rankOf keyed) → ∃ plan wave,
    planDispatchForKeys rankOf chainName config keyed cap = .ok plan ∧
      (plan.map (·.index)).Perm (keyed.map (·.1)) ∧
      Planned config (healthyIndices rankOf keyed) (unhealthyIndices rankOf keyed) plan wave

section

variable (rankOf : Nat × String → ProviderRank) (chainName : String) (config : ProviderConfig)
  (keyed : List (Nat × String)) (cap : Option Nat)

/-- The healthy providers, the best rank first. -/
def healthyRanked : List (Nat × ProviderRank) := (rankedKeys rankOf keyed).filter (·.2 ≠ .unhealthy)

theorem rankedKeys_perm : (rankedKeys rankOf keyed).Perm (keyed.map fun entry => (entry.1, rankOf entry)) :=
  sortByKey_perm _ _ _

theorem healthyRanked_perm : ((healthyRanked rankOf keyed).map (·.1)).Perm (healthyIndices rankOf keyed) := by
  refine (((rankedKeys_perm rankOf keyed).filter _).map _).trans ?_
  rw [List.filter_map, List.map_map, healthyIndices]
  exact List.Perm.refl _

theorem unhealthyRanked_perm : (((rankedKeys rankOf keyed).filter (·.2 = .unhealthy)).map (·.1)).Perm
    (unhealthyIndices rankOf keyed) := by
  refine (((rankedKeys_perm rankOf keyed).filter _).map _).trans ?_
  rw [List.filter_map, List.map_map, unhealthyIndices]
  exact List.Perm.refl _

theorem healthy_unhealthy_perm :
    (healthyIndices rankOf keyed ++ unhealthyIndices rankOf keyed).Perm (keyed.map (·.1)) := by
  rw [healthyIndices, unhealthyIndices, ← List.map_append]
  refine List.Perm.map _ ?_
  have hsplit := List.filter_append_perm (fun entry => decide (rankOf entry ≠ .unhealthy)) keyed
  have hneg : (fun entry : Nat × String => !decide (rankOf entry ≠ .unhealthy)) =
      fun entry => decide (rankOf entry = .unhealthy) := by
    funext entry
    simp
  rwa [hneg] at hsplit

/-- How many the healthy providers' order fires at once. -/
def firstWave : Option Nat :=
  match (orderHealthy config (healthyRanked rankOf keyed) : Exec AppCoreError _) with
  | .ok (_, wave) => .some wave
  | .error _ => .none

variable {rankOf config keyed}

/-- What is planned, but for the delays' order. -/
theorem plan_gives (hvalid : config.Valid) (hlisted : ∀ v ∈ config.voters, v.category ∈ providerCategories)
    (hnodup : (keyed.map (·.1)).Nodup) (hin : ∀ entry ∈ keyed, entry.1 < config.uris.length)
    (hmet : Quorum.MetBy config.toProviderConfig (healthyIndices rankOf keyed)) : ∃ plan wave front back,
      planDispatchForKeys rankOf chainName config keyed cap = .ok plan ∧ firstWave rankOf config keyed = .some wave ∧
      plan.map (·.index) = front ++ back ∧ front.Perm (healthyIndices rankOf keyed) ∧
      back.Perm (unhealthyIndices rankOf keyed) ∧ Ordered config front wave ∧
      plan.map (·.delay) = (List.range keyed.length).map (delayAt wave cap) := by
  have hhealthy := healthyRanked_perm rankOf keyed
  have hunhealthy := unhealthyRanked_perm rankOf keyed
  have hall := healthy_unhealthy_perm rankOf keyed
  have hinIndex : ∀ i ∈ healthyIndices rankOf keyed ++ unhealthyIndices rankOf keyed, i < config.uris.length := by
    intro i hi
    obtain ⟨entry, hentry, rfl⟩ := List.mem_map.mp (hall.mem_iff.mp hi)
    exact hin entry hentry
  have hinVoters : ∀ entry ∈ healthyRanked rankOf keyed, entry.1 < config.voters.length := by
    intro entry hentry
    rw [hvalid.voters]
    exact hinIndex _ (List.mem_append_left _ (hhealthy.mem_iff.mp (List.mem_map.mpr ⟨entry, hentry, rfl⟩)))
  have hfew : (healthyRanked rankOf keyed).length < usizeMax := by
    have hsub : keyed.map (·.1) ⊆ List.range config.voters.length := by
      intro i hi
      rw [List.mem_range, hvalid.voters]
      exact hinIndex i (hall.mem_iff.mpr hi)
    have hle := (List.subperm_of_subset hnodup hsub).length_le
    have hpart := hall.length_eq
    have hsame := hhealthy.length_eq
    rw [List.length_map] at hsame
    rw [List.length_append] at hpart
    rw [List.length_range] at hle
    have := config.voters_lt
    omega
  have hmetRanked : Quorum.MetBy config.toProviderConfig ((healthyRanked rankOf keyed).map (·.1)) :=
    hmet.mono hhealthy.symm.subset
  obtain ⟨⟨ordered, wave⟩, horder, indices, hindices, hperm, hordered⟩ :=
    orderHealthy_gives (ε := AppCoreError) hvalid hlisted hinVoters hfew hmetRanked
  have hfront := hperm.trans hhealthy
  have hinOrder : ∀ i ∈ indices ++ ((rankedKeys rankOf keyed).filter (·.2 = .unhealthy)).map (·.1),
      i < config.uris.length := fun i hi => hinIndex i ((hfront.append hunhealthy).mem_iff.mp hi)
  obtain ⟨plan, hplan, hindex, hdelay⟩ := entriesOf_gives (ε := AppCoreError) hinOrder wave cap
  obtain ⟨met, hmetOk, hmetIff⟩ := Quorum.isMetBy_spec (ε := AppCoreError) config.toProviderConfig
    ((healthyRanked rankOf keyed).map (·.1))
  have hlength : (indices ++ ((rankedKeys rankOf keyed).filter (·.2 = .unhealthy)).map (·.1)).length =
    keyed.length := by
    rw [((hfront.append hunhealthy).trans hall).length_eq, List.length_map]
  refine ⟨plan, wave, indices, _, ?_, ?_, hindex, hfront, hunhealthy, hordered, hlength ▸ hdelay⟩
  · rw [healthyRanked] at hmetOk horder
    rw [planDispatchForKeys, hmetOk, Exec.ok_bind, hmetIff.mpr hmetRanked, horder]
    simp only [Bool.not_true, Bool.false_eq_true, if_false, Exec.ok_bind, hindices, hplan]
  · rw [firstWave, horder]

theorem plan_errs (hmet : ¬ Quorum.MetBy config.toProviderConfig (healthyIndices rankOf keyed)) :
    ∃ e, planDispatchForKeys rankOf chainName config keyed cap = Exec.err e := by
  obtain ⟨met, hmetOk, hmetIff⟩ := Quorum.isMetBy_spec (ε := AppCoreError) config.toProviderConfig
    ((healthyRanked rankOf keyed).map (·.1))
  have hnot : met = false := by
    by_contra htrue
    exact hmet ((hmetIff.mp (by simpa using htrue)).mono (healthyRanked_perm rankOf keyed).subset)
  rw [healthyRanked] at hmetOk
  refine ⟨notEnough config chainName (healthyRanked rankOf keyed).length, ?_⟩
  rw [planDispatchForKeys, hmetOk, Exec.ok_bind, hnot]
  rfl

end

theorem Ordered.append {front : List Nat} {wave : Nat} (h : Ordered config front wave) (back : List Nat) :
    Ordered config (front ++ back) wave := by
  have htake : ∀ k ≤ wave, (front ++ back).take k = front.take k := fun k hk =>
    List.take_append_of_le_length (hk.trans h.within)
  exact
    { positive := h.positive
      within := h.within.trans (by simp)
      met := (htake wave le_rfl).symm ▸ h.met
      least := fun k hk => (htake k hk.le).symm ▸ h.least k hk
      minimal := (htake wave le_rfl).symm ▸ h.minimal }

section

variable {rankOf : Nat × String → ProviderRank} {keyed : List (Nat × String)}

/-- Every delay's factor fits 32 bits, or there is no time left to wait. -/
def DelaysFit (rankOf : Nat × String → ProviderRank) (config : ProviderConfig) (keyed : List (Nat × String))
    (cap : Option Nat) : Prop :=
  ∀ wave, firstWave rankOf config keyed = .some wave → keyed.length < 2 ^ 32 + wave ∨ cap = .some 0

theorem pairwise_delayAt {wave n : Nat} {cap : Option Nat} (hfits : n < 2 ^ 32 + wave ∨ cap = .some 0) :
    ((List.range n).map (delayAt wave cap)).Pairwise (· ≤ ·) := by
  rw [List.pairwise_map]
  refine List.pairwise_lt_range.imp_of_mem fun {a b} _ hb hab => ?_
  rcases hfits with hfew | rfl
  · have hlt := List.mem_range.mp hb
    exact delayAt_mono cap hab.le (by omega)
  · simp [delayAt]

theorem plansWell_of_delaysFit (chainName : String) {cap : Option Nat} (hvalid : config.Valid)
    (hlisted : ∀ v ∈ config.voters, v.category ∈ providerCategories) (hnodup : (keyed.map (·.1)).Nodup)
    (hin : ∀ entry ∈ keyed, entry.1 < config.uris.length)
    (hfit : Quorum.MetBy config.toProviderConfig (healthyIndices rankOf keyed) → DelaysFit rankOf config keyed cap) :
    PlansWell rankOf chainName config keyed cap where
  errs := by
    refine ⟨fun herr hmet => ?_, plan_errs chainName cap⟩
    obtain ⟨e, herr⟩ := herr
    obtain ⟨plan, wave, front, back, hplan, -⟩ := plan_gives chainName cap hvalid hlisted hnodup hin hmet
    rw [hplan] at herr
    cases herr
  plans := fun hmet => by
    obtain ⟨plan, wave, front, back, hplan, hwave, hindex, hfront, hback, hordered, hdelay⟩ :=
      plan_gives chainName cap hvalid hlisted hnodup hin hmet
    refine ⟨plan, wave, hplan, ?_, ⟨front, back, hindex, hfront, hback⟩, ?_, ?_, ?_⟩
    · rw [hindex]
      exact (hfront.append hback).trans (healthy_unhealthy_perm rankOf keyed)
    · rw [hdelay]
      exact pairwise_delayAt (hfit hmet wave hwave)
    · intro entry hentry
      have hmem : entry.delay ∈ ((List.range keyed.length).map (delayAt wave cap)).take wave := by
        rw [← hdelay, ← List.map_take]
        exact List.mem_map_of_mem hentry
      rw [← List.map_take, List.take_range] at hmem
      obtain ⟨position, hposition, heq⟩ := List.mem_map.mp hmem
      rw [← heq]
      exact delayAt_wave cap ((List.mem_range.mp hposition).trans_le (min_le_left _ _))
    · rw [hindex]
      exact hordered.append back

/-- Past the 32 bits the factor wraps, and one waits less than the one before. -/
theorem not_plansWell (chainName : String) {cap : Option Nat} (hvalid : config.Valid)
    (hlisted : ∀ v ∈ config.voters, v.category ∈ providerCategories) (hnodup : (keyed.map (·.1)).Nodup)
    (hin : ∀ entry ∈ keyed, entry.1 < config.uris.length)
    (hmet : Quorum.MetBy config.toProviderConfig (healthyIndices rankOf keyed))
    (hfit : ¬ DelaysFit rankOf config keyed cap) : ¬ PlansWell rankOf chainName config keyed cap := by
  intro hwell
  obtain ⟨plan, wave, front, back, hplan, hwave, -, -, -, hordered, hdelay⟩ :=
    plan_gives chainName cap hvalid hlisted hnodup hin hmet
  obtain ⟨plan', _, hplan', -, hplanned⟩ := hwell.plans hmet
  rw [hplan] at hplan'
  cases hplan'
  refine hfit fun wave' hwave' => ?_
  rw [hwave] at hwave'
  cases hwave'
  by_contra hnot
  obtain ⟨hmany, hcap⟩ := not_or.mp hnot
  have hdelays := hplanned.delays
  rw [hdelay, List.pairwise_map] at hdelays
  have hpositive := hordered.positive
  have hle := List.pairwise_iff_getElem.mp hdelays (wave + 2 ^ 32 - 2) (wave + 2 ^ 32 - 1)
    (by rw [List.length_range]; omega) (by rw [List.length_range]; omega) (by omega)
  rw [List.getElem_range, List.getElem_range] at hle
  exact absurd (delayAt_wraps hpositive hcap) (not_lt.mpr hle)

/-- **A plan loses no provider and its first wave is enough**: for every pool
that passes `validate`, whatever the ranks, exactly when no delay's factor wraps.
-/
theorem plansWell_iff (chainName : String) (cap : Option Nat) (hvalid : config.validate = .ok ())
    (hlisted : ∀ v ∈ config.voters, v.category ∈ providerCategories) (hnodup : (keyed.map (·.1)).Nodup)
    (hin : ∀ entry ∈ keyed, entry.1 < config.uris.length) :
    PlansWell rankOf chainName config keyed cap ↔
      (Quorum.MetBy config.toProviderConfig (healthyIndices rankOf keyed) → DelaysFit rankOf config keyed cap) := by
  have hpool : config.Valid := by
    rcases config.validate_spec with hok | herr
    · exact hok.2
    · obtain ⟨⟨e, he⟩, -⟩ := herr
      rw [hvalid] at he
      cases he
  refine ⟨fun hwell hmet => ?_, plansWell_of_delaysFit chainName hpool hlisted hnodup hin⟩
  by_contra hfit
  exact not_plansWell chainName hpool hlisted hnodup hin hmet hfit hwell

end

/-! One provider, and a pool too large for the factor. -/

theorem plansWell_onePool : PlansWell (fun _ => .normal) "ethereum" Provider.onePool [(0, "https://self")] .none :=
  (plansWell_iff "ethereum" .none Provider.validate_onePool (by decide) (by decide) (by decide)).mpr
    fun _ wave _ => .inl (by rw [List.length_singleton]; omega)

theorem onePool_valid : Provider.onePool.Valid := by
  rcases Provider.onePool.validate_spec with hok | herr
  · exact hok.2
  · obtain ⟨⟨e, he⟩, -⟩ := herr
    rw [Provider.validate_onePool] at he
    cases he

/-- Any one of the crowd is enough. -/
theorem declared_crowd {counts : Counts} (h : counts.Lists "internal" "self") :
    Declared counts Provider.onePool.strategy := by
  refine onePool_valid.satisfiable.mono fun c e hl => ?_
  rw [Counts.Lists, Provider.ProviderConfig.entities, Quorum.listed_voterEntities] at hl
  cases List.mem_singleton.mp hl
  exact h

/-- So many URIs of one entity, of which one is asked for. -/
def crowd (n : Nat) (h : n < usizeMax) : ProviderConfig where
  voters := List.replicate n ⟨"internal", "self"⟩
  strategy := Provider.onePool.strategy
  voters_lt := by rwa [List.length_replicate]
  uris := List.replicate n (.uri "https://self")
  sequencer := []

def crowdKeyed (n : Nat) : List (Nat × String) := (List.range n).map fun i => (i, "https://self")

section

variable {n : Nat} {h : n < usizeMax}

theorem metBy_crowd {indices : List Nat} {i : Nat} (hi : i ∈ indices) (hlt : i < n) :
    Quorum.MetBy (crowd n h).toProviderConfig indices := by
  refine declared_crowd ?_
  rw [Counts.Lists, Quorum.ProviderConfig.counts, Quorum.listed_voterEntities, Quorum.ProviderConfig.votersAt]
  refine List.mem_filterMap.mpr ⟨i, hi, ?_⟩
  rw [crowd, List.getElem?_replicate, if_pos hlt]

theorem crowd_valid (hpos : 0 < n) : (crowd n h).Valid where
  uris := fun hnil => by
    have hlength := congrArg List.length hnil
    rw [crowd, List.length_replicate, List.length_nil] at hlength
    omega
  voters := by rw [crowd, List.length_replicate, List.length_replicate]
  resolved := onePool_valid.resolved
  agreement := onePool_valid.agreement
  satisfiable := by
    refine declared_crowd ?_
    rw [Counts.Lists, Provider.ProviderConfig.entities, Quorum.listed_voterEntities]
    exact List.mem_replicate.mpr ⟨hpos.ne', rfl⟩

/-- One of a crowd is asked at once, so its last waits too short. -/
theorem not_plansWell_of_crowd (hmany : 2 ^ 32 + 1 ≤ n) : (crowd n h).validate = .ok () ∧
    (∀ v ∈ (crowd n h).voters, v.category ∈ providerCategories) ∧ ((crowdKeyed n).map (·.1)).Nodup ∧
    (∀ entry ∈ crowdKeyed n, entry.1 < (crowd n h).uris.length) ∧
    ¬ PlansWell (fun _ => .normal) "ethereum" (crowd n h) (crowdKeyed n) .none := by
  have hfst : (crowdKeyed n).map (·.1) = List.range n := by
    rw [crowdKeyed, List.map_map]
    exact List.map_id _
  have hlisted : ∀ v ∈ (crowd n h).voters, v.category ∈ providerCategories := by
    intro v hv
    obtain ⟨-, rfl⟩ := List.mem_replicate.mp hv
    decide
  have hnodup : ((crowdKeyed n).map (·.1)).Nodup := hfst ▸ List.nodup_range
  have hin : ∀ entry ∈ crowdKeyed n, entry.1 < (crowd n h).uris.length := by
    intro entry hentry
    rw [crowd, List.length_replicate, ← List.mem_range, ← hfst]
    exact List.mem_map_of_mem hentry
  have hhealthy : healthyIndices (fun _ => .normal) (crowdKeyed n) = List.range n := by
    rw [healthyIndices, List.filter_eq_self.mpr (by simp), hfst]
  have hpos : 0 < n := by omega
  have hvalidate : (crowd n h).validate = .ok () := by
    rcases (crowd n h).validate_spec with hok | herr
    · exact hok.1
    · exact absurd (crowd_valid hpos) herr.2
  have hmet : Quorum.MetBy (crowd n h).toProviderConfig (healthyIndices (fun _ => .normal) (crowdKeyed n)) :=
    hhealthy ▸ metBy_crowd (List.mem_range.mpr hpos) hpos
  refine ⟨hvalidate, hlisted, hnodup, hin,
    not_plansWell "ethereum" (crowd_valid hpos) hlisted hnodup hin hmet fun hfit => ?_⟩
  obtain ⟨plan, wave, front, back, -, hwave, -, hfront, -, hordered, -⟩ :=
    plan_gives "ethereum" .none (crowd_valid hpos) hlisted hnodup hin hmet
  have hone : wave ≤ 1 := by
    by_contra hmore
    refine hordered.least 1 (not_le.mp hmore) ?_
    cases front with
    | nil => exact absurd (hordered.positive.trans_le hordered.within) (lt_irrefl 0)
    | cons i front =>
      have hi : i ∈ healthyIndices (fun _ => .normal) (crowdKeyed n) := hfront.subset List.mem_cons_self
      rw [hhealthy, List.mem_range] at hi
      exact metBy_crowd List.mem_cons_self hi
  have hlength : (crowdKeyed n).length = n := by rw [crowdKeyed, List.length_map, List.length_range]
  rcases hfit wave hwave with hfew | hcap
  · rw [hlength] at hfew
    omega
  · cases hcap

end

theorem not_plansWell_crowd : (crowd 4294967298 (by decide)).validate = .ok () ∧
    (∀ v ∈ (crowd 4294967298 (by decide)).voters, v.category ∈ providerCategories) ∧
    ((crowdKeyed 4294967298).map (·.1)).Nodup ∧
    (∀ entry ∈ crowdKeyed 4294967298, entry.1 < (crowd 4294967298 (by decide)).uris.length) ∧
    ¬ PlansWell (fun _ => .normal) "ethereum" (crowd 4294967298 (by decide)) (crowdKeyed 4294967298) .none :=
  not_plansWell_of_crowd (by decide)

end Pillar.Dispatch
