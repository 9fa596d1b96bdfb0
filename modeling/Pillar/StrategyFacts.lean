/-
`isStrategySatisfiable` decides the declared policy.

The matching keeps one fact about its ownership (`Slots.Holds`: each category
holds as many entities as it has had slots). A free entity adds a holding, and
handing an entity along a path moves one, so a found path serves the new slot.
A search that finds none has a set of categories whose entities they hold
themselves, and those cannot get one more (`Slots.not_fillable_of_closed`).
The prefix shortcut is no part of the argument: it only ever proposes an entity
nobody holds, and where it proposes none the search looks again.
-/
import Pillar.Strategy

namespace Pillar.Strategy

open Std (TreeMap TreeSet)
open Slots

variable {ε : Type}

/-! ## Holding and handing over -/

section Held

variable {lists : String → String → Prop} {slots : List String} {owner : Owner}

theorem holds_empty : Holds lists [] (∅ : Owner).toList := by
  have h : (∅ : Owner).toList = [] := rfl
  rw [h]
  exact ⟨List.nodup_nil, by simp, .nil⟩

theorem holds_insert {entity category : String} {rest : List (String × String)}
    (hr : (owner.insert entity category).toList.Perm ((entity, category) :: rest))
    (hf : ∀ p ∈ rest, lists p.2 p.1) (hl : lists category entity)
    (hs : (rest.map Prod.snd).Perm slots) :
    Holds lists (category :: slots) (owner.insert entity category).toList where
  nodup := by
    rw [TreeMap.map_fst_toList_eq_keys]
    exact TreeMap.nodup_keys
  fits := fun p hp => by
    rcases List.mem_cons.mp (hr.mem_iff.mp hp) with rfl | hp
    · exact hl
    · exact hf p hp
  slots := (hr.map Prod.snd).trans (hs.cons category)

/-- A free entity given out. -/
theorem holds_insert_free {entity category : String} (h : Holds lists slots owner.toList)
    (hfree : owner[entity]? = .none) (hl : lists category entity) :
    Holds lists (category :: slots) (owner.insert entity category).toList := by
  have hkeep : owner.toList.filter (¬ entity == ·.1) = owner.toList := by
    refine List.filter_eq_self.mpr fun p hp => ?_
    have hp' : owner[p.1]? = .some p.2 := TreeMap.mem_toList_iff_getElem?_eq_some.mp hp
    have : entity ≠ p.1 := fun e => by rw [← e, hfree] at hp'; cases hp'
    simpa using this
  have hperm := TreeMap.toList_insert_perm (t := owner) (k := entity) (v := category)
  rw [hkeep] at hperm
  exact holds_insert hperm h.fits hl h.slots

/-- An entity handed from its holder to another category. -/
theorem holds_hand {entity holder category : String} (h : Holds lists (holder :: slots) owner.toList)
    (hheld : owner[entity]? = .some holder) (hl : lists category entity) :
    Holds lists (category :: slots) (owner.insert entity category).toList := by
  let rest := owner.toList.filter (¬ entity == ·.1)
  have hperm := TreeMap.toList_insert_perm (t := owner) (k := entity) (v := category)
  have hsame : owner.toList.Perm ((entity, holder) :: rest) := by
    have : (owner.insert entity holder).Equiv owner := TreeMap.Equiv.of_forall_constGet?_eq fun k => by
      rw [TreeMap.getElem?_insert]
      split
      · next hk => rw [← Std.LawfulEqCmp.eq_of_compare hk, hheld]
      · rfl
    exact (TreeMap.equiv_iff_toList_perm.mp this.symm).trans TreeMap.toList_insert_perm
  have hrest : (rest.map Prod.snd).Perm slots :=
    ((hsame.map Prod.snd).symm.trans h.slots).cons_inv
  exact holds_insert hperm (fun p hp => h.fits p (List.mem_of_mem_filter hp)) hl hrest

end Held

/-! ## The search -/

/-- What a search knows, `order` being the categories seen, first to last:
each was reached from an earlier one, by an entity it holds and the earlier one
lists. -/
structure Trail (counts : Counts) (owner : Owner) (start : String) (order : List String)
    (via : TreeMap String (String × String)) (seen : TreeSet String) : Prop where
  nodup : order.Nodup
  start_mem : start ∈ order
  mem_seen : ∀ c, c ∈ seen ↔ c ∈ order
  via_size : order.length = via.size + 1
  via_mem : ∀ c ∈ via, c ∈ order
  reached : ∀ c ∈ order, c ≠ start → ∃ previous taken, via[c]? = .some (previous, taken) ∧
    owner[taken]? = .some c ∧ counts.Lists previous taken ∧
    previous ∈ order ∧ order.idxOf previous < order.idxOf c

variable {counts : Counts} {owner : Owner} {start category : String} {order slots : List String}
  {via : TreeMap String (String × String)} {seen : TreeSet String}

theorem trail_start : Trail counts owner start [start] ∅ (TreeSet.ofList [start]) where
  nodup := List.nodup_singleton start
  start_mem := List.mem_singleton_self start
  mem_seen := fun c => by simpa using eq_comm
  via_size := by simp
  via_mem := by simp
  reached := fun c hc hne => absurd (List.mem_singleton.mp hc) hne

/-- A holder not seen before joins at the end. -/
theorem Trail.extend {holder entity : String} (h : Trail counts owner start order via seen)
    (hc : category ∈ order) (hnew : holder ∉ seen) (hheld : owner[entity]? = .some holder)
    (hl : counts.Lists category entity) :
    Trail counts owner start (order ++ [holder]) (via.insert holder (category, entity))
      (seen.insert holder) := by
  have hno : holder ∉ order := fun hm => hnew ((h.mem_seen holder).mpr hm)
  have hvia : holder ∉ via := fun hm => hno (h.via_mem holder hm)
  refine ⟨?_, by simp [h.start_mem], fun c => ?_, ?_, fun c hcv => ?_, fun c hco hne => ?_⟩
  · exact List.nodup_append.mpr ⟨h.nodup, List.nodup_singleton _,
      fun a ha b hb => by rw [List.mem_singleton.mp hb]; exact fun e => hno (e ▸ ha)⟩
  · simp only [TreeSet.mem_insert, Std.LawfulEqCmp.compare_eq_iff_eq, h.mem_seen c, List.mem_append,
      List.mem_singleton]
    rw [or_comm, eq_comm]
  · simp [TreeMap.size_insert, hvia, h.via_size]
  · simp only [TreeMap.mem_insert, Std.LawfulEqCmp.compare_eq_iff_eq] at hcv
    rcases hcv with rfl | hcv
    · simp
    · simp [h.via_mem c hcv]
  · rcases List.mem_append.mp hco with hco | hco
    · obtain ⟨previous, taken, hv, ho, hl', hp, hlt⟩ := h.reached c hco hne
      have hch : holder ≠ c := fun e => hno (e ▸ hco)
      refine ⟨previous, taken, ?_, ho, hl', by simp [hp], ?_⟩
      · rw [TreeMap.getElem?_insert, if_neg (by simpa using hch), hv]
      · rwa [List.idxOf_append_of_mem hp, List.idxOf_append_of_mem hco]
    · obtain rfl := List.mem_singleton.mp hco
      refine ⟨category, entity, by simp, hheld, hl, by simp [hc], ?_⟩
      rw [List.idxOf_append_of_mem hc, List.idxOf_append_of_notMem hno]
      have := List.idxOf_lt_length_of_mem hc
      simp only [List.idxOf_cons_self]
      omega

/-- Every category seen but the first holds an entity, so there are not many. -/
theorem Trail.length_le (h : Trail counts owner start order via seen) : order.length ≤ owner.size + 1 := by
  have hsub : order ⊆ start :: owner.toList.map Prod.snd := fun c hc => by
    by_cases hne : c = start
    · simp [hne]
    · obtain ⟨_, taken, -, ho, -⟩ := h.reached c hc hne
      refine List.mem_cons_of_mem _ (List.mem_map.mpr ⟨(taken, c), ?_, rfl⟩)
      exact TreeMap.mem_toList_iff_getElem?_eq_some.mpr ho
  have := (List.subperm_of_subset h.nodup hsub).length_le
  simpa using this

/-- **Handing the entities back along the trail** moves the surplus from `here`
to `start`. The entities still to be handed over are with their first holders:
`here` is behind all those already moved. -/
theorem reassign_spec (h : Trail counts owner start order via seen) :
    ∀ (fuel : Nat) {now : Owner} {here : String}, order.idxOf here < fuel → here ∈ order →
      (∀ c ∈ order, ∀ previous taken, order.idxOf c ≤ order.idxOf here →
        via[c]? = .some (previous, taken) → owner[taken]? = .some c → now[taken]? = .some c) →
      Holds counts.Lists (here :: slots) now.toList →
      ∃ owner', (reassign via start fuel now here : Exec ε Owner) = .ok owner' ∧
        Holds counts.Lists (start :: slots) owner'.toList
  | 0, _, _, hf, _, _, _ => absurd hf (Nat.not_lt_zero _)
  | fuel + 1, now, here, hf, hh, hbehind, hheld => by
    rw [reassign]
    by_cases hstart : here = start
    · rw [if_pos hstart]
      exact ⟨now, rfl, hstart ▸ hheld⟩
    · obtain ⟨previous, taken, hv, ho, hl, hp, hlt⟩ := h.reached here hh hstart
      have hnow : now[taken]? = .some here := hbehind here hh previous taken le_rfl hv ho
      simp only [if_neg hstart, hv, Exec.get_some, Exec.ok_bind]
      refine reassign_spec h fuel (by omega) hp (fun c hc p t hle hvc hoc => ?_) (holds_hand hheld hnow hl)
      have hct : now[t]? = .some c := hbehind c hc p t (by omega) hvc hoc
      have hne : taken ≠ t := fun e => by
        rw [← e, ho] at hoc
        rw [← Option.some.inj hoc] at hle
        omega
      rw [TreeMap.getElem?_insert, if_neg (by simpa using hne), hct]

/-- The scan stops at a free entity, or has seen the holder of every one. -/
theorem scan_spec {done : List String} : ∀ {list : List String} {s : Search},
    Trail counts owner start (done ++ category :: s.queue) s.via s.seen →
    (∀ e ∈ list, counts.Lists category e) →
    ∃ s' found, scan owner category list s = (s', found) ∧
      Trail counts owner start (done ++ category :: s'.queue) s'.via s'.seen ∧ s.queue ⊆ s'.queue ∧
      (∀ e, found = .some e → e ∈ list ∧ owner[e]? = .none) ∧
      (found = .none → ∀ e ∈ list, ∃ c ∈ done ++ category :: s'.queue, owner[e]? = .some c)
  | [], s, h, _ => ⟨s, .none, rfl, h, List.Subset.refl _, by simp, by simp⟩
  | entity :: rest, s, h, hl => by
    rw [scan]
    have hrest : ∀ e ∈ rest, counts.Lists category e := fun e he => hl e (List.mem_cons_of_mem _ he)
    split
    · next hfree =>
      refine ⟨s, .some entity, rfl, h, List.Subset.refl _, fun e he => ?_, by simp⟩
      obtain rfl := Option.some.inj he
      exact ⟨List.mem_cons_self, hfree⟩
    next holder hheld =>
    split
    · next hseen =>
      obtain ⟨s', found, he, ht, hq, hsome, hnone⟩ := scan_spec h hrest
      refine ⟨s', found, he, ht, hq, fun e hf => ?_, fun hf e he => ?_⟩
      · exact ⟨List.mem_cons_of_mem _ (hsome e hf).1, (hsome e hf).2⟩
      · rcases List.mem_cons.mp he with rfl | he
        · have hmem := (h.mem_seen holder).mp hseen
          simp only [List.mem_append, List.mem_cons] at hmem ⊢
          exact ⟨holder, hmem.imp_right (·.imp_right (hq ·)), hheld⟩
        · exact hnone hf e he
    · next hnew =>
      have h' := h.extend (by simp) hnew hheld (hl entity List.mem_cons_self)
      rw [List.append_assoc, List.cons_append] at h'
      obtain ⟨s', found, he, ht, hq, hsome, hnone⟩ := scan_spec (s := ⟨_, _, _⟩) h' hrest
      refine ⟨s', found, he, ht, fun c hc => hq (List.mem_append_left _ hc), fun e hf => ?_, fun hf e he => ?_⟩
      · exact ⟨List.mem_cons_of_mem _ (hsome e hf).1, (hsome e hf).2⟩
      · rcases List.mem_cons.mp he with rfl | he
        · exact ⟨holder, by simp [hq (show holder ∈ s.queue ++ [holder] by simp)], hheld⟩
        · exact hnone hf e he

/-- The search returns: with an ownership that serves `start` too, or, having
looked at every category it saw, with proof that none exists. -/
theorem search_spec (hh : Holds counts.Lists slots owner.toList) :
    ∀ (fuel : Nat) (done : List String) (s : Search),
      Trail counts owner start (done ++ s.queue) s.via s.seen →
      (∀ c ∈ done, ∀ e, counts.Lists c e → ∃ c' ∈ done ++ s.queue, owner[e]? = .some c') →
      owner.size + 2 ≤ fuel + done.length →
      ∃ r, (search counts owner start fuel s : Exec ε (Option Owner)) = .ok r ∧
        (∀ owner', r = .some owner' → Holds counts.Lists (start :: slots) owner'.toList) ∧
        (r = .none → ∀ rest, ¬ Fillable counts.Lists (slots ++ start :: rest))
  | 0, done, s, ht, _, hfuel => by
    have := ht.length_le
    simp only [List.length_append] at this
    omega
  | fuel + 1, done, ⟨via, queue, seen⟩, ht, hclosed, hfuel => by
    rw [search]
    cases queue with
    | nil =>
      refine ⟨.none, rfl, by simp, fun _ rest => ?_⟩
      refine not_fillable_of_closed hh done (by simpa using ht.start_mem) fun c hc e he => ?_
      obtain ⟨c', hc', ho⟩ := hclosed c hc e he
      exact ⟨c', by simpa using hc', TreeMap.mem_toList_iff_getElem?_eq_some.mpr ho⟩
    | cons category queue =>
    simp only
    have hlen : owner.size + 2 ≤ fuel + (done ++ [category]).length := by
      simp only [List.length_append, List.length_singleton]; omega
    split
    · next hno =>
      refine search_spec hh fuel (done ++ [category]) _ (by simpa using ht) (fun c hc e he => ?_) hlen
      rcases List.mem_append.mp hc with hc | hc
      · simpa using hclosed c hc e he
      · obtain rfl := List.mem_singleton.mp hc
        obtain ⟨_, hs, _⟩ := he
        rw [hno] at hs
        cases hs
    next candidates hcand =>
    have hlists : ∀ e ∈ candidates.toList, counts.Lists category e := fun e he =>
      ⟨candidates, hcand, TreeSet.mem_toList.mp he⟩
    obtain ⟨s', found, hs, ht', hq, hsome, hnone⟩ := scan_spec (s := ⟨via, queue, seen⟩) ht hlists
    simp only [hs]
    cases found with
    | none =>
      refine search_spec hh fuel (done ++ [category]) _ (by simpa using ht') (fun c hc e he => ?_) hlen
      rcases List.mem_append.mp hc with hc | hc
      · obtain ⟨c', hc', ho⟩ := hclosed c hc e he
        refine ⟨c', ?_, ho⟩
        simp only [List.mem_append, List.mem_cons, List.append_assoc, List.singleton_append] at hc' ⊢
        exact hc'.imp_right (·.imp_right (hq ·))
      · obtain rfl := List.mem_singleton.mp hc
        obtain ⟨entities, hent, hmem⟩ := he
        rw [hcand] at hent
        cases hent
        simpa using hnone rfl e (TreeSet.mem_toList.mpr hmem)
    | some entity =>
      obtain ⟨hent, hfree⟩ := hsome entity rfl
      have hheld := holds_insert_free hh hfree (hlists entity hent)
      have hmem : category ∈ done ++ category :: s'.queue := by simp
      have hsize := ht'.via_size
      have hidx := List.idxOf_lt_length_of_mem hmem
      -- The entity just given out was nobody's, so it is none of those on the trail.
      have hbehind : ∀ c ∈ done ++ category :: s'.queue, ∀ previous taken,
          (done ++ category :: s'.queue).idxOf c ≤ (done ++ category :: s'.queue).idxOf category →
          s'.via[c]? = .some (previous, taken) → owner[taken]? = .some c →
          (owner.insert entity category)[taken]? = .some c := fun c _ _ taken _ _ ho => by
        have hne : entity ≠ taken := fun e => by rw [← e, hfree] at ho; cases ho
        rw [TreeMap.getElem?_insert, if_neg (by simpa using hne), ho]
      obtain ⟨owner', ho', hh'⟩ := reassign_spec ht' (ε := ε) (s'.via.size + 1)
        (by omega) hmem hbehind hheld
      refine ⟨.some owner', by simp [ho'], fun o ho => ?_, by simp⟩
      obtain rfl := Option.some.inj ho
      exact hh'

theorem augment_spec (hh : Holds counts.Lists slots owner.toList) (start : String) :
    ∃ r, (augment counts owner start : Exec ε (Option Owner)) = .ok r ∧
      (∀ owner', r = .some owner' → Holds counts.Lists (start :: slots) owner'.toList) ∧
      (r = .none → ∀ rest, ¬ Fillable counts.Lists (slots ++ start :: rest)) :=
  search_spec hh (owner.size + 2) [] _ trail_start (by simp) (by simp)

/-! ## The slots -/

/-- Where the prefix stops, the entity is free. -/
theorem ownedPrefix_free {list : List String} {n : Nat} {entity : String}
    (h : list[ownedPrefix owner list n]? = .some entity) : owner[entity]? = .none := by
  rw [ownedPrefix, ← List.getElem?_drop] at h
  have hnot : owner.contains entity = false := by
    generalize list.drop n = l at h
    induction l with
    | nil => simp at h
    | cons e l ih =>
      by_cases he : owner.contains e = true
      · rw [List.takeWhile_cons_of_pos he] at h
        exact ih (by simpa using h)
      · rw [List.takeWhile_cons_of_neg he] at h
        obtain rfl : e = entity := by simpa using h
        exact Bool.not_eq_true _ ▸ he
  rwa [TreeMap.contains_eq_isSome_getElem?, Option.isSome_eq_false_iff, Option.isNone_iff_eq_none] at hnot

/-- A slot whose category lists nothing cannot be filled. -/
theorem not_fillable_of_unlisted {lists : String → String → Prop} {rest : List String}
    (h : ∀ e, ¬ lists category e) : ¬ Fillable lists (slots ++ category :: rest) := by
  intro hf
  have hone : Fillable lists [category] := hf.sublist (by simp)
  have hle : [category].length ≤ ([] : List String).length := hone.length_le fun k hk v hv => by
    obtain rfl := List.mem_singleton.mp hk
    exact absurd hv (h v)
  simp at hle

/-- **The loop over the slots** returns whether the slots served so far and
those to come can all be filled. -/
theorem assignLoop_spec : ∀ (rest : List String) {done : List String} {owner : Owner} {prefixes : TreeMap String Nat},
    Holds counts.Lists done owner.toList →
    (assignLoop counts rest owner prefixes : Exec ε Bool).Decides (Fillable counts.Lists (done ++ rest))
  | [], done, owner, _, hh => Exec.decides_true (by simpa using fillable_of_held hh)
  | category :: rest, done, owner, prefixes, hh => by
    rw [assignLoop]
    split
    · next hno =>
      exact Exec.decides_false (not_fillable_of_unlisted fun e ⟨_, hs, _⟩ => (by rw [hno] at hs; cases hs))
    next candidates hcand =>
    -- The slot just served moves to the front of those done; the order of slots does not matter.
    have hmove : Fillable counts.Lists (category :: done ++ rest) ↔
        Fillable counts.Lists (done ++ category :: rest) :=
      ⟨.perm List.perm_middle.symm, .perm List.perm_middle⟩
    simp only
    split
    · next entity hget =>
      have hl : counts.Lists category entity :=
        ⟨candidates, hcand, TreeSet.mem_toList.mp (List.mem_of_getElem? hget)⟩
      exact (assignLoop_spec rest (holds_insert_free hh (ownedPrefix_free hget) hl)).congr hmove
    · obtain ⟨r, hr, hsome, hnone⟩ := augment_spec (ε := ε) hh category
      rw [hr, Exec.ok_bind]
      cases r with
      | none => exact Exec.decides_false (hnone rfl rest)
      | some owner' => exact (assignLoop_spec rest (hsome owner' rfl)).congr hmove

theorem assignEntities_spec (counts : Counts) (categories : List String) :
    (assignEntities counts categories : Exec ε Bool).Decides (Fillable counts.Lists categories) :=
  assignLoop_spec categories holds_empty

/-! ## The requirements -/

/-- The pool as a list: every listed entity once. -/
theorem exists_pool (map : TreeMap String (TreeSet String)) : ∃ pool : List String,
    pool.length = poolOf map ∧ pool.Nodup ∧ ∀ e, e ∈ pool ↔ ∃ c, Listed map c e := by
  let all := TreeSet.ofList (map.toList.flatMap (·.2.toList))
  refine ⟨all.toList, TreeSet.length_toList, ?_, fun e => ?_⟩
  · exact TreeSet.distinct_toList.imp fun h e => h (by simp [e])
  · simp only [all, TreeSet.mem_toList, TreeSet.mem_ofList, List.contains_eq_mem, decide_eq_true_eq,
      List.mem_flatMap, Prod.exists, Listed]
    constructor
    · rintro ⟨c, entities, hc, he⟩
      exact ⟨c, entities, TreeMap.mem_toList_iff_getElem?_eq_some.mp hc, he⟩
    · rintro ⟨c, entities, hc, he⟩
      exact ⟨c, entities, TreeMap.mem_toList_iff_getElem?_eq_some.mpr hc, he⟩

/-- Slots beyond the pool cannot be filled. -/
theorem Counts.length_le_pool (h : Fillable counts.Lists slots) : slots.length ≤ counts.pool := by
  obtain ⟨pool, hlen, -, hmem⟩ := exists_pool counts.map
  rw [Counts.pool, ← hlen]
  exact h.length_le fun c _ e he => (hmem e).mpr ⟨c, he⟩

/-- The requirements read to their end: resolved, their slots and their `any`
count added up. -/
theorem collectSlots_some {pool : Nat} : ∀ {reqs : List (String × Quorum)} {categories : List String} {n : Nat}
    {out : List String × Nat}, n ≤ usizeMax → collectSlots pool reqs categories n = .some out →
    (∀ r ∈ reqs, r.2 ≠ .max) ∧ out.1 = categories ++ reqs.flatMap slotsOf ∧
      out.2 = min (n + (reqs.map anyOf).sum) usizeMax
  | [], categories, n, out, hn, h => by
    cases h
    simp [hn]
  | (_, .max) :: _, _, _, _, _, h => by simp [collectSlots] at h
  | (category, .count k) :: rest, categories, n, out, hn, h => by
    rw [collectSlots] at h
    split at h
    · next hany =>
      obtain ⟨hres, hcat, hsum⟩ := collectSlots_some (Nat.min_le_right _ _) h
      refine ⟨by simpa using hres, by simpa [slotsOf, hany] using hcat, ?_⟩
      simp only [hsum, List.map_cons, List.sum_cons, anyOf, hany, if_true]
      omega
    next hnamed =>
    split at h
    · cases h
    · obtain ⟨hres, hcat, hsum⟩ := collectSlots_some hn h
      refine ⟨by simpa using hres, by simpa [slotsOf, hnamed] using hcat, ?_⟩
      simp only [hsum, List.map_cons, List.sum_cons, anyOf, hnamed, if_false, Nat.zero_add]

/-- An early `false`: an unresolved count, or more slots than entities. -/
theorem collectSlots_none {pool : Nat} : ∀ {reqs : List (String × Quorum)} {categories : List String} {n : Nat},
    categories.length ≤ pool → collectSlots pool reqs categories n = .none →
    (∃ r ∈ reqs, r.2 = .max) ∨ pool < categories.length + (reqs.flatMap slotsOf).length
  | [], _, _, _, h => by simp [collectSlots] at h
  | (_, .max) :: _, _, _, _, _ => .inl ⟨_, List.mem_cons_self, rfl⟩
  | (category, .count k) :: rest, categories, n, hle, h => by
    rw [collectSlots] at h
    simp only [List.flatMap_cons, List.length_append, List.exists_mem_cons_iff]
    split at h
    · next hany =>
      rcases collectSlots_none hle h with hmax | hlt
      · exact .inl (.inr hmax)
      · exact .inr (by simpa [slotsOf, hany] using hlt)
    next hnamed =>
    simp only [slotsOf, hnamed, if_false, List.length_replicate]
    split at h
    · exact .inr (by omega)
    · rcases collectSlots_none (by simp only [List.length_append, List.length_replicate]; omega) h with hmax | hlt
      · exact .inl (.inr hmax)
      · simp only [List.length_append, List.length_replicate] at hlt
        exact .inr (by omega)

theorem checkRequirementSet_spec (counts : Counts) (allOf : List CategoryRequirement)
    (oneOf : CategoryRequirement) :
    (checkRequirementSet counts allOf oneOf : Exec ε Bool).Decides (Meets counts (entries allOf oneOf)) := by
  rw [checkRequirementSet]
  split
  · next hnone =>
    refine Exec.decides_false fun hm => ?_
    rcases collectSlots_none (Nat.zero_le _) hnone with ⟨r, hr, hmax⟩ | hlt
    · exact hm.resolved r hr hmax
    · have := Counts.length_le_pool hm.named
      simp only [List.length_nil, Nat.zero_add] at hlt
      omega
  next categories anyQuorum hsome =>
  obtain ⟨hres, hcat, hsum⟩ := collectSlots_some (Nat.zero_le _) hsome
  simp only [List.nil_append, Nat.zero_add] at hcat hsum
  subst hcat hsum
  -- A saturated `any` count is beyond the pool, as the true one is.
  have hpool : counts.pool < usizeMax := counts.pool_lt
  split
  · next hle =>
    refine (assignEntities_spec counts _).congr ⟨fun hf => ⟨hres, ?_, hf⟩, fun hm => hm.named⟩
    omega
  · next hlt =>
    refine Exec.decides_false fun hm => ?_
    have h1 := Counts.length_le_pool hm.named
    have h2 := hm.any
    omega

theorem isStrategySatisfiable_spec (counts : Counts) (strategy : QuorumStrategy) :
    (isStrategySatisfiable counts strategy : Exec ε Bool).Decides (Declared counts strategy) := by
  rw [isStrategySatisfiable, Declared, QuorumStrategy.alternatives]
  split
  · exact (checkRequirementSet_spec counts strategy.allOf ∅).congr (by simp)
  · exact Exec.decides_anyM _ fun alt _ => checkRequirementSet_spec counts strategy.allOf alt

/-- **`is_strategy_satisfiable` decides the declared policy.** It returns, and
returns `true` exactly when, for some alternative, every count is resolved,
there are as many distinct entities as the `any` counts add up to, and the named
slots can be given pairwise distinct entities, each listed under its category. -/
theorem satisfiable_iff_declared_policy (counts : Counts) (strategy : QuorumStrategy) :
    ∃ b, (isStrategySatisfiable counts strategy : Exec ε Bool) = .ok b ∧
      (b = true ↔ ∃ alt ∈ strategy.alternatives,
        (∀ r ∈ entries strategy.allOf alt, ∃ n, r.2 = .count n) ∧
        ((entries strategy.allOf alt).map anyOf).sum ≤ counts.pool ∧
        ∃ es : List String, es.Nodup ∧
          List.Forall₂ counts.Lists ((entries strategy.allOf alt).flatMap slotsOf) es) := by
  refine (isStrategySatisfiable_spec counts strategy).congr ?_
  have hcount : ∀ q : Quorum, q ≠ .max ↔ ∃ n, q = .count n := by
    intro q
    cases q <;> simp
  refine exists_congr fun alt => and_congr_right fun _ => ?_
  constructor
  · rintro ⟨hres, hany, es, hn, hf⟩
    exact ⟨fun r hr => (hcount r.2).mp (hres r hr), hany, es, hn, hf⟩
  · rintro ⟨hres, hany, es, hn, hf⟩
    exact ⟨fun r hr => (hcount r.2).mpr (hres r hr), hany, es, hn, hf⟩

-- `a` and `b` share `x`: the slot of `b` takes it over from `a`, which moves on to `y`.
example : (isStrategySatisfiable
    ⟨TreeMap.ofList [("a", TreeSet.ofList ["x", "y"]), ("b", TreeSet.ofList ["x"])], by decide⟩
    ⟨[TreeMap.ofList [("a", Quorum.count 1), ("b", .count 1), ("any", .count 2)]], []⟩ : Exec Empty Bool) =
      .ok true := by decide

/-! ## More voters -/

/-- What is met stays met when more entities are listed. -/
theorem Declared.mono {counts' : Counts} {strategy : QuorumStrategy} (h : Declared counts strategy)
    (hl : ∀ c e, counts.Lists c e → counts'.Lists c e) : Declared counts' strategy := by
  obtain ⟨alt, halt, hres, hany, hnamed⟩ := h
  refine ⟨alt, halt, hres, hany.trans ?_, hnamed.mono hl⟩
  obtain ⟨pool, hlen, hn, hmem⟩ := exists_pool counts.map
  obtain ⟨pool', hlen', -, hmem'⟩ := exists_pool counts'.map
  rw [Counts.pool, Counts.pool, ← hlen, ← hlen']
  refine (List.subperm_of_subset hn fun e he => ?_).length_le
  obtain ⟨c, hc⟩ := (hmem e).mp he
  exact (hmem' e).mpr ⟨c, hl c e hc⟩

end Pillar.Strategy
