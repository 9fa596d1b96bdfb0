/-
What a `FairBudget` does, as a sequence of moves, each of which keeps the
invariant.

A move is one change of the ledger. Every operation of the source is a sequence
of them, so an invariant is checked once per kind of move and never against the
operations.
-/
import Pillar.FairBudgetInv

namespace Pillar.FairBudget

variable {sh : Shared}

/-! ## Moves -/

/-- A waiter out of its queue. -/
def Budget.leave (b : Budget sh) (i : sh.LaneIndex) (w : Waiter) : Budget sh :=
  { b with
    waiting := b.waiting - 1
    lanes := Function.update b.lanes i { b.lanes i with queue := (b.lanes i).queue.filter (·.id ≠ w.id) } }

/-- What the budget does, one change of the ledger at a time, with the
admission in hand before and after it. -/
inductive Move : Budget sh × Option (Entry sh) → Budget sh × Option (Entry sh) → Prop
  | start (b) (i) (resource) :
    Move (b, .none) (b.start i, .some ⟨i, ⟨b.fresh, resource⟩, .queued⟩)
  | count (b) (e) (o) : Move (b, .some e) (b.count e.lane o e.waiter.id, .none)
  | grantQueued (b owed i w) (next : Nat) : b.closed = false → w ∈ (b.lanes i).queue →
    b.canGrant i w.resource = true →
    (∀ w' ∈ (b.lanes i).queue, w'.id < w.id → b.canGrant i w'.resource = false) →
    Move (b, owed) ({ (b.leave i w).grant i w with next }, owed)
  | admitGranted (b i w phase) : b.closed = false → b.Quiet → b.canGrant i w.resource = true →
    Move (b, .some ⟨i, w, .queued⟩) ((b.grant i w).register i w phase, .none)
  | admitQueued (b i w) : (b.lanes i).queue.length < sh.limits.perLaneWaiting →
    (b.waiting < sh.limits.waiting ∨ (sh.limits.waiting ≠ 0 ∧ (b.lanes i).queue = [])) →
    Move (b, .some ⟨i, w, .queued⟩) ((b.enqueue i w).register i w .waiting, .none)
  | dropQueued (b r) : r ∈ b.registrations → b.waiters r.waiter.id = .queued →
    Move (b, .none) ((b.forget r.waiter.id).leave r.index r.waiter, .some ⟨r.index, r.waiter, .dropped⟩)
  | dropGranted (b r b') : r ∈ b.registrations → b.waiters r.waiter.id = .granted →
    (b.forget r.waiter.id).ungrant r.index r.waiter = .ok b' →
    Move (b, .none) (b', .some ⟨r.index, r.waiter, .dropped⟩)
  | dropDrained (b r) : r ∈ b.registrations → b.waiters r.waiter.id = .drained →
    Move (b, .none) (b.forget r.waiter.id, .none)
  | update (b id phase outcome) : Move (b, .none) (b.update id phase outcome, .none)
  | capLane (b i limit) : (∀ j, b.started j = 0) →
    Move (b, .none) ({ b with lanes := Function.update b.lanes i { b.lanes i with limit } }, .none)
  | skip (b) : Move (b, .none) ({ b with skipped := b.skipped + 1 }, .none)
  | shut (b) : Move (b, .none) ({ b with closed := true }, .none)
  | drain (b i w) : w ∈ (b.lanes i).queue →
    Move (b, .none) ((b.leave i w).drainWaiter i w, .none)


/-! ## Moves keep the invariant -/

/-- Nothing but the callers' side of the registrations, a cap, a flag or the
clock hand. -/
theorem Inv.congr {b b' : Budget sh} {owed : Option (Entry sh)} (h : Inv b owed)
    (hreg : Registered b' owed) (he : b'.entries = b.entries) (hf : b'.fresh = b.fresh)
    (hlanes : ∀ i, (b'.lanes i).queue = (b.lanes i).queue ∧ (b'.lanes i).active = (b.lanes i).active ∧
      (b'.lanes i).active ≤ (b'.lanes i).limit)
    (hw : b'.waiting = b.waiting) (ha : b'.active = b.active) (hr : b'.resourceActive = b.resourceActive)
    (hlr : b'.laneResourceActive = b.laneResourceActive) (hlog : b'.log = b.log) (hs : b'.started = b.started)
    (ho : b'.outcomes = b.outcomes) : Inv b' owed := by
  have hg : ∀ p, b'.granted p = b.granted p := fun p => by rw [Budget.granted, he, Budget.granted]
  refine ⟨hreg, h.queues.congr (fun i => (hlanes i).1) hw fun i => by rw [he], ?_, ?_, ?_⟩
  · refine ⟨?_, fun i => ?_, fun k => ?_, fun hs i k => ?_, ?_, fun i => (hlanes i).2.2, fun k => ?_,
      fun n hn i k => ?_⟩
    · rw [ha, hg]; exact h.grants.active
    · rw [(hlanes i).2.1, hg]; exact h.grants.lane i
    · rw [hr, hg]; exact h.grants.resource k
    · rw [hlr, hg]; exact h.grants.laneResource hs i k
    · rw [ha]; exact h.grants.active_le
    · rw [hr]; exact h.grants.resource_le k
    · rw [hlr]; exact h.grants.laneResource_le n hn i k
  · refine h.accounts.silent [] (by simpa using hlog) (by simp) hf hs ho ?_
    simp only [Budget.pending, he, List.Perm.refl]
  · exact h.ordered.silent (fun i r => by rw [Budget.queuedFor, hlog, Budget.queuedFor])
      (fun i r => by rw [Budget.grantedTo, hlog, Budget.grantedTo]) (fun e hm _ => he ▸ hm) hf.ge
      fun e hm _ => .inl hm

theorem Inv.start {b : Budget sh} (h : Inv b .none) (i : sh.LaneIndex) (resource : Option String) :
    Inv (b.start i) (.some ⟨i, ⟨b.fresh, resource⟩, .queued⟩) := by
  have he : (b.start i).entries = b.entries := entriesOf_update_of_below h.registered.below .queued
  refine ⟨h.registered.start i resource, h.queues.congr (fun _ => rfl) rfl fun j => by rw [he],
    h.grants.congr rfl (fun _ => ⟨rfl, rfl⟩) rfl rfl fun p => by rw [Budget.granted, he, Budget.granted],
    h.accounts.start h.registered i resource, ?_⟩
  refine h.ordered.silent (fun j r => ?_) (fun j r => ?_) (fun e hm _ => he ▸ hm) (Nat.le_succ _) fun e hm _ => ?_
  · simp [Budget.queuedFor, Budget.start, Event.queuedFor]
  · simp [Budget.grantedTo, Budget.start, Event.grantedTo]
  · obtain rfl := Option.some.inj hm
    exact .inr le_rfl

theorem Inv.count {b : Budget sh} {e : Entry sh} (h : Inv b (.some e)) (o : Outcome) :
    Inv (b.count e.lane o e.waiter.id) .none := by
  refine ⟨h.registered.congr rfl rfl rfl (by simp), h.queues.congr (fun _ => rfl) rfl fun _ => rfl,
    h.grants.congr rfl (fun _ => ⟨rfl, rfl⟩) rfl rfl fun _ => rfl, ?_, ?_⟩
  · refine h.accounts.counted rfl rfl rfl rfl ?_
    simp only [Option.toList_some, Option.toList_none, List.map_cons, List.map_nil, List.append_nil]
    exact List.perm_append_singleton _ _
  · refine h.ordered.silent (fun j r => ?_) (fun j r => ?_) (fun _ hm _ => hm) le_rfl (by simp)
    · simp [Budget.queuedFor, Budget.count, Event.queuedFor]
    · simp [Budget.grantedTo, Budget.count, Event.grantedTo]

/-- Another of the same lane and resource waits behind the one chosen: one ahead
of it would have been chosen. -/
theorem Queues.behind {b : Budget sh} (h : Queues b) {l₁ l₂ : List (Entry sh)} {i : sh.LaneIndex} {w : Waiter}
    (he : b.entries = l₁ ++ ⟨i, w, .queued⟩ :: l₂) (hne : ∀ e ∈ l₁ ++ l₂, e.waiter.id ≠ w.id)
    (hc : b.canGrant i w.resource = true)
    (hfirst : ∀ w' ∈ (b.lanes i).queue, w'.id < w.id → b.canGrant i w'.resource = false)
    {e : Entry sh} (hm : e ∈ l₁ ++ l₂) (hs : e.state = .queued) (hi : e.lane = i)
    (hr : e.waiter.resource = w.resource) : w.id < e.waiter.id := by
  have hmem : e.waiter ∈ (b.lanes i).queue := by
    rw [h.queue i, he]
    refine List.mem_map_of_mem (List.mem_filter.mpr ⟨?_, by simp [Entry.isQueued, hi, hs]⟩)
    rcases List.mem_append.mp hm with hm | hm <;> simp [hm]
  rcases Nat.lt_trichotomy e.waiter.id w.id with hlt | heq | hgt
  · have := hfirst _ hmem hlt
    rw [hr, hc] at this
    cases this
  · exact absurd heq (hne e hm)
  · exact hgt

section Leave

variable (b : Budget sh) (i j : sh.LaneIndex) (w : Waiter)

@[simp] theorem leave_laneActive : ((b.leave i w).lanes j).active = (b.lanes j).active := by
  by_cases h : j = i
  · subst h
    simp [Budget.leave]
  · simp [Budget.leave, h]

@[simp] theorem leave_limit : ((b.leave i w).lanes j).limit = (b.lanes j).limit := by
  by_cases h : j = i
  · subst h
    simp [Budget.leave]
  · simp [Budget.leave, h]

theorem leave_queue : (fun j => ((b.leave i w).lanes j).queue) =
    Function.update (fun j => (b.lanes j).queue) i ((b.lanes i).queue.filter (·.id ≠ w.id)) :=
  queue_update ..

theorem leave_canGrant (resource : Option String) : (b.leave i w).canGrant j resource = b.canGrant j resource := by
  rw [Bool.eq_iff_iff, canGrant_iff, canGrant_iff]
  simp only [leave_laneActive, leave_limit]
  rfl

theorem unqueue_leave {b : Budget sh} (h : 0 < b.waiting) :
    b.unqueue i ((b.lanes i).queue.filter (·.id ≠ w.id)) = .ok (b.leave i w) := by
  rw [Budget.unqueue, Exec.sub_of_le h]
  rfl

end Leave

/-- Out of a queue, whatever becomes of the permits. -/
theorem Grants.leave {b : Budget sh} (h : Grants b) (i : sh.LaneIndex) (w : Waiter) : Grants (b.leave i w) :=
  h.congr rfl (fun j => ⟨leave_laneActive b i j w, leave_limit b i j w⟩) rfl rfl fun _ => rfl

/-- An entry that no longer waits. -/
theorem filter_isQueued_set {l₁ l₂ : List (Entry sh)} {e : Entry sh} (he : e.state ≠ .queued) (j : sh.LaneIndex) :
    (l₁ ++ e :: l₂).filter (Entry.isQueued j) = (l₁ ++ l₂).filter (Entry.isQueued j) := by
  have : Entry.isQueued j e = false := by simp [Entry.isQueued, he]
  simp [this]

theorem Inv.grantQueued {b : Budget sh} {owed : Option (Entry sh)} (h : Inv b owed) {i : sh.LaneIndex} {w : Waiter}
    (next : Nat) (hw : w ∈ (b.lanes i).queue) (hc : b.canGrant i w.resource = true)
    (hfirst : ∀ w' ∈ (b.lanes i).queue, w'.id < w.id → b.canGrant i w'.resource = false) :
    Inv { (b.leave i w).grant i w with next } owed := by
  obtain ⟨r, hr, rfl, rfl, hs⟩ := h.queues.registration hw
  obtain ⟨l₁, l₂, he, hne, hset, -⟩ := entries_split h.registered.sorted hr
  rw [hs] at he
  have he' : ((b.leave r.index r.waiter).grant r.index r.waiter).entries =
    l₁ ++ ⟨r.index, r.waiter, .granted⟩ :: l₂ := hset .granted
  refine ⟨h.registered.set hr (by simp) rfl rfl rfl, ?_, ?_, ?_, ?_⟩
  · refine (h.queues.leave he hne (fun j => ?_) ?_ rfl).2
    · exact (congrArg _ he').trans (filter_isQueued_set (by simp) j)
    · rw [← leave_queue b r.index r.waiter]
      exact funext fun j => grant_queue _ _ _ r.waiter
  · exact ((h.grants.leave _ _).grant (by rwa [leave_canGrant]) (granted_of_set he he' (by simp))).congr rfl
      (fun _ => ⟨rfl, rfl⟩) rfl rfl fun _ => rfl
  · refine h.accounts.silent [.granted r.waiter.id r.index r.waiter.resource] rfl
      (by simp [Event.begun, Event.ended, Event.counts]) rfl rfl rfl ?_
    refine (List.Perm.of_eq ?_).append_right _
    show _ = (((b.leave r.index r.waiter).grant r.index r.waiter).entries.filter _).map _
    rw [he', Budget.pending, he]
    simp [Entry.admission]
  · refine h.ordered.grant rfl rfl (h.registered.below r hr)
      (h.ordered.ahead ⟨r.index, r.waiter, .queued⟩ (by rw [he]; simp) rfl) (fun e hm hq => ?_) fun e hm hq => ?_
    · have hm' : e ∈ l₁ ++ l₂ := by
        have : e ∈ l₁ ++ ⟨r.index, r.waiter, .granted⟩ :: l₂ := he' ▸ hm
        rw [List.mem_append, List.mem_cons] at this
        rcases this with hm | rfl | hm
        · exact List.mem_append_left _ hm
        · cases hq
        · exact List.mem_append_right _ hm
      refine ⟨?_, h.queues.behind he hne hc hfirst hm' hq⟩
      rw [he]
      rcases List.mem_append.mp hm' with hm' | hm' <;> simp [hm']
    · exact ⟨hm, (h.registered.inHand e hm hq).2.2 r hr⟩

theorem entries_register {b b' : Budget sh} {i : sh.LaneIndex} {w : Waiter} {r : Registration sh}
    (h : Registered b (.some ⟨i, w, .queued⟩)) (hr : r.waiter = w ∧ r.index = i)
    (hreg : b'.registrations = b.registrations ++ [r]) (hw : ∀ id, id ≠ w.id → b'.waiters id = b.waiters id) :
    b'.entries = b.entries ++ [⟨i, w, b'.waiters w.id⟩] := by
  obtain ⟨rfl, rfl⟩ := hr
  rw [Budget.entries, entriesOf, hreg, List.map_append, Budget.entries, entriesOf]
  congr 1
  refine List.map_congr_left fun r' hr' => ?_
  rw [hw _ ((h.inHand _ rfl rfl).2.2 r' hr').ne]

theorem Inv.admitGranted {b : Budget sh} {i : sh.LaneIndex} {w : Waiter} (h : Inv b (.some ⟨i, w, .queued⟩))
    (hquiet : b.Quiet) (hc : b.canGrant i w.resource = true) (phase : Phase) :
    Inv ((b.grant i w).register i w phase) .none := by
  obtain ⟨hfresh, hstate, hnew⟩ := h.registered.inHand _ rfl rfl
  have hother : ∀ id, id ≠ w.id → ((b.grant i w).register i w phase).waiters id = b.waiters id := fun id hid =>
    Function.update_of_ne hid ..
  have hgranted : ((b.grant i w).register i w phase).waiters w.id = .granted := Function.update_self ..
  have he' := entries_register h.registered ⟨rfl, rfl⟩
    (rfl : ((b.grant i w).register i w phase).registrations = b.registrations ++ [⟨i, w, phase, .none⟩]) hother
  have he₁ : (b.register i w phase).entries = b.entries ++ [⟨i, w, .queued⟩] := by
    rw [← hstate]
    exact entries_register h.registered ⟨rfl, rfl⟩ rfl fun _ _ => rfl
  rw [hgranted] at he'
  -- as the source's order of the two is not seen, the place is taken once registered
  have hg : Grants ((b.register i w phase).grant i w) := by
    refine Grants.grant (h.grants.congr rfl (fun _ => ⟨rfl, rfl⟩) rfl rfl fun p => ?_) hc
      (granted_of_set he₁ he' (by simp))
    simp [Budget.granted, he₁]
  refine ⟨h.registered.register (r := ⟨i, w, phase, .none⟩) rfl (by rw [hgranted]; simp) rfl hother rfl,
    h.queues.congr (fun j => grant_queue b i j w) rfl fun j => ?_, hg, ?_, ?_⟩
  · rw [he', List.filter_append]
    simp [Entry.isQueued]
  · refine h.accounts.silent [.granted w.id i w.resource] rfl
      (by simp [Event.begun, Event.ended, Event.counts]) rfl rfl rfl ?_
    rw [Budget.pending, Budget.pending, he']
    simp [Entry.admission]
  · refine h.ordered.grant rfl rfl hfresh (fun id hid => h.ordered.inHand _ rfl rfl _ _ id
      (List.mem_append_right _ hid)) (fun e hm hq => ?_) (by simp)
    rw [he', List.mem_append, List.mem_singleton] at hm
    rcases hm with hm | rfl
    · refine ⟨hm, fun hi hr => ?_⟩
      have hwait : e.waiter ∈ (b.lanes i).queue := by
        rw [h.queues.queue i]
        exact List.mem_map_of_mem (List.mem_filter.mpr ⟨hm, by simp [Entry.isQueued, hi, hq]⟩)
      have := hquiet i e.waiter hwait
      rw [hr, hc] at this
      cases this
    · cases hq

theorem Inv.admitQueued {b : Budget sh} {i : sh.LaneIndex} {w : Waiter} (h : Inv b (.some ⟨i, w, .queued⟩))
    (hroom : (b.lanes i).queue.length < sh.limits.perLaneWaiting)
    (hshare : b.waiting < sh.limits.waiting ∨ (sh.limits.waiting ≠ 0 ∧ (b.lanes i).queue = [])) :
    Inv ((b.enqueue i w).register i w .waiting) .none := by
  obtain ⟨hfresh, hstate, hnew⟩ := h.registered.inHand _ rfl rfl
  have he' : ((b.enqueue i w).register i w .waiting).entries = b.entries ++ [⟨i, w, .queued⟩] := by
    rw [← hstate]
    exact entries_register h.registered ⟨rfl, rfl⟩ rfl fun _ _ => rfl
  refine ⟨h.registered.register (r := ⟨i, w, .waiting, .none⟩) rfl (fun hd => ?_) rfl (fun _ _ => rfl) rfl,
    h.queues.join hroom hshare he' (queue_update ..) rfl, ?_, ?_, h.ordered.queue rfl rfl hfresh he'⟩
  · cases hstate.symm.trans hd
  · refine h.grants.congr rfl (fun j => ?_) rfl rfl fun p => ?_
    · by_cases hj : j = i
      · subst hj
        simp [Budget.enqueue, Budget.register]
      · simp [Budget.enqueue, Budget.register, hj]
    · simp [Budget.granted, he']
  · refine h.accounts.silent [.queued w.id i w.resource] rfl
      (by simp [Event.begun, Event.ended, Event.counts]) rfl rfl rfl ?_
    rw [Budget.pending, Budget.pending, he']
    simp [Entry.admission]

/-! A registration is dropped: it leaves the ledger, and is in hand until it is counted. -/

theorem pending_remove {l₁ l₂ : List (Entry sh)} {e : Entry sh} (he : e.state ≠ .drained) :
    (((l₁ ++ e :: l₂).filter fun e => e.state ≠ .drained).map Entry.admission).Perm
      (e.admission :: ((l₁ ++ l₂).filter fun e => e.state ≠ .drained).map Entry.admission) := by
  have hmiddle : (l₁ ++ e :: l₂).Perm (e :: (l₁ ++ l₂)) := List.perm_middle
  have := (hmiddle.filter fun e => e.state ≠ .drained).map Entry.admission
  rwa [List.filter_cons_of_pos (by simpa using he), List.map_cons] at this

theorem mem_of_mem_remove {l₁ l₂ : List (Entry sh)} {e e' : Entry sh} (h : e' ∈ l₁ ++ l₂) : e' ∈ l₁ ++ e :: l₂ := by
  rcases List.mem_append.mp h with h | h <;> simp [h]

theorem Inv.remove {b b' : Budget sh} {r : Registration sh} {l₁ l₂ : List (Entry sh)} (h : Inv b .none)
    (hs : b.waiters r.waiter.id ≠ .drained)
    (he : b.entries = l₁ ++ ⟨r.index, r.waiter, b.waiters r.waiter.id⟩ :: l₂) (he' : b'.entries = l₁ ++ l₂)
    (hreg : b'.registrations = (b.forget r.waiter.id).registrations)
    (hw : b'.waiters = (b.forget r.waiter.id).waiters) (hf : b'.fresh = b.fresh) (hlog : b'.log = b.log)
    (hst : b'.started = b.started) (ho : b'.outcomes = b.outcomes) (hq : Queues b') (hg : Grants b') :
    Inv b' (.some ⟨r.index, r.waiter, .dropped⟩) := by
  refine ⟨h.registered.forget r.waiter.id (by simp) hreg hw hf, hq, hg, ?_, ?_⟩
  · refine h.accounts.silent [] (hlog.trans (List.append_nil _).symm) (by simp) hf hst ho ?_
    rw [Budget.pending, Budget.pending, he', he]
    simp only [Option.toList_some, Option.toList_none, List.map_cons, List.map_nil, List.append_nil]
    exact (pending_remove hs).trans (List.perm_append_singleton _ _).symm
  · refine h.ordered.silent (fun i r => ?_) (fun i r => ?_) (fun e hm _ => ?_) hf.ge (by simp)
    · rw [Budget.queuedFor, hlog, Budget.queuedFor]
    · rw [Budget.grantedTo, hlog, Budget.grantedTo]
    · rw [he'] at hm
      rw [he]
      exact mem_of_mem_remove hm

theorem Inv.dropQueued {b : Budget sh} {r : Registration sh} (h : Inv b .none) (hr : r ∈ b.registrations)
    (hs : b.waiters r.waiter.id = .queued) :
    0 < b.waiting ∧ Inv ((b.forget r.waiter.id).leave r.index r.waiter) (.some ⟨r.index, r.waiter, .dropped⟩) := by
  obtain ⟨l₁, l₂, he, hne, -, hremove⟩ := entries_split h.registered.sorted hr
  have he' : ((b.forget r.waiter.id).leave r.index r.waiter).entries = l₁ ++ l₂ := hremove .dropped
  have heq := he
  rw [hs] at heq
  obtain ⟨hpos, hq⟩ := h.queues.leave heq hne (fun j => congrArg _ he') (leave_queue ..) rfl
  refine ⟨hpos, h.remove (by simp [hs]) he he' rfl rfl rfl rfl rfl rfl hq ?_⟩
  refine h.grants.congr rfl (fun j => ⟨leave_laneActive .., leave_limit ..⟩) rfl rfl fun p => ?_
  rw [Budget.granted, Budget.granted, he', heq]
  simp

theorem Inv.dropGranted {b : Budget sh} {r : Registration sh} (h : Inv b .none) (hr : r ∈ b.registrations)
    (hs : b.waiters r.waiter.id = .granted) : ∃ b', (b.forget r.waiter.id).ungrant r.index r.waiter = .ok b' ∧
      Inv b' (.some ⟨r.index, r.waiter, .dropped⟩) := by
  obtain ⟨l₁, l₂, he, hne, -, hremove⟩ := entries_split h.registered.sorted hr
  have he' : (b.forget r.waiter.id).entries = l₁ ++ l₂ := hremove .dropped
  have heq := he
  rw [hs] at heq
  obtain ⟨active, laneActive, resourceActive, pairs, hok, -, hg⟩ := h.grants.ungrant heq he' rfl rfl rfl rfl
  refine ⟨_, hok, h.remove (by simp [hs]) he he' rfl rfl rfl rfl rfl rfl ?_ hg⟩
  refine h.queues.congr (fun j => ?_) rfl fun j => ?_
  · by_cases hj : j = r.index
    · subst hj
      simp [Budget.forget]
    · simp [Budget.forget, hj]
  · refine (congrArg _ he').trans ?_
    rw [heq]
    exact (filter_isQueued_set (by simp) j).symm

theorem Inv.dropDrained {b : Budget sh} {r : Registration sh} (h : Inv b .none) (hr : r ∈ b.registrations)
    (hs : b.waiters r.waiter.id = .drained) : Inv (b.forget r.waiter.id) .none := by
  obtain ⟨l₁, l₂, he, hne, -, hremove⟩ := entries_split h.registered.sorted hr
  have he' : (b.forget r.waiter.id).entries = l₁ ++ l₂ := hremove .dropped
  rw [hs] at he
  refine ⟨h.registered.forget r.waiter.id (by simp) rfl rfl rfl, ?_, ?_, ?_, ?_⟩
  · refine h.queues.congr (fun _ => rfl) rfl fun j => ?_
    rw [he', he]
    exact (filter_isQueued_set (by simp) j).symm
  · refine h.grants.congr rfl (fun _ => ⟨rfl, rfl⟩) rfl rfl fun p => ?_
    rw [Budget.granted, Budget.granted, he', he]
    simp
  · refine h.accounts.silent [] (List.append_nil _).symm (by simp) rfl rfl rfl ?_
    rw [Budget.pending, Budget.pending, he', he]
    simp
  · refine h.ordered.silent (fun _ _ => rfl) (fun _ _ => rfl) (fun e hm _ => ?_) le_rfl (by simp)
    rw [he'] at hm
    rw [he]
    exact mem_of_mem_remove hm

/-- Before anything is started, nothing is granted and no one waits. -/
theorem Inv.unused {b : Budget sh} (h : Inv b .none) (hz : ∀ i, b.started i = 0) (i : sh.LaneIndex) :
    (b.lanes i).active = 0 ∧ (b.lanes i).queue = [] := by
  have := h.account i
  rw [hz i] at this
  exact ⟨by omega, List.eq_nil_of_length_eq_zero (by omega)⟩

theorem Inv.capLane {b : Budget sh} (h : Inv b .none) (hz : ∀ i, b.started i = 0) (i : sh.LaneIndex) (limit : Nat) :
    Inv { b with lanes := Function.update b.lanes i { b.lanes i with limit } } .none := by
  refine h.congr (h.registered.congr rfl rfl rfl (by simp)) rfl rfl (fun j => ?_) rfl rfl rfl rfl rfl rfl rfl
  by_cases hj : j = i
  · subst hj
    simp [(h.unused hz j).1]
  · simpa [hj] using h.grants.lane_le j

theorem Inv.drain {b : Budget sh} (h : Inv b .none) {i : sh.LaneIndex} {w : Waiter} (hw : w ∈ (b.lanes i).queue) :
    Inv ((b.leave i w).drainWaiter i w) .none := by
  obtain ⟨r, hr, rfl, rfl, hs⟩ := h.queues.registration hw
  obtain ⟨l₁, l₂, he, hne, hset, -⟩ := entries_split h.registered.sorted hr
  rw [hs] at he
  have he' : ((b.leave r.index r.waiter).drainWaiter r.index r.waiter).entries =
    l₁ ++ ⟨r.index, r.waiter, .drained⟩ :: l₂ := hset .drained
  refine ⟨h.registered.set hr (by simp) rfl rfl rfl, ?_, ?_, ?_, ?_⟩
  · refine (h.queues.leave he hne (fun j => ?_) ?_ rfl).2
    · exact (congrArg _ he').trans (filter_isQueued_set (by simp) j)
    · exact leave_queue b r.index r.waiter
  · refine h.grants.congr rfl (fun j => ⟨leave_laneActive .., leave_limit ..⟩) rfl rfl fun p => ?_
    rw [Budget.granted, Budget.granted, he', he]
    simp
  · refine h.accounts.counted rfl rfl rfl rfl ?_
    rw [Budget.pending, Budget.pending, he', he]
    simp only [Option.toList_none, List.map_nil, List.append_nil]
    refine (pending_remove (by simp)).trans (List.Perm.of_eq ?_)
    simp [Entry.admission]
  · refine h.ordered.silent (fun j s => ?_) (fun j s => ?_) (fun e hm hq => ?_) le_rfl (by simp)
    · simp [Budget.queuedFor, Budget.drainWaiter, Budget.count, Budget.leave, Event.queuedFor]
    · simp [Budget.grantedTo, Budget.drainWaiter, Budget.count, Budget.leave, Event.grantedTo]
    · rw [he', List.mem_append, List.mem_cons] at hm
      rw [he]
      rcases hm with hm | rfl | hm
      · simp [hm]
      · cases hq
      · simp [hm]

/-- **A move keeps the invariant.** -/
theorem Move.inv {s s' : Budget sh × Option (Entry sh)} (hm : Move s s') (h : Inv s.1 s.2) : Inv s'.1 s'.2 := by
  cases hm with
  | start b i resource => exact h.start i resource
  | count b e o => exact h.count o
  | grantQueued b owed i w next _ hw hc hfirst => exact h.grantQueued next hw hc hfirst
  | admitGranted b i w phase _ hquiet hc => exact h.admitGranted hquiet hc phase
  | admitQueued b i w hroom hshare => exact h.admitQueued hroom hshare
  | dropQueued b r hr hs => exact (h.dropQueued hr hs).2
  | dropGranted b r b' hr hs hok =>
    obtain ⟨b'', hok', hinv⟩ := h.dropGranted hr hs
    obtain rfl := Except.ok.inj (hok.symm.trans hok')
    exact hinv
  | dropDrained b r hr hs => exact h.dropDrained hr hs
  | update b id phase outcome =>
    exact h.congr (h.registered.update id phase outcome) (entries_update ..) rfl
      (fun i => ⟨rfl, rfl, h.grants.lane_le i⟩) rfl rfl rfl rfl rfl rfl rfl
  | capLane b i limit hz => exact h.capLane hz i limit
  | skip b | shut b =>
    exact h.congr (h.registered.congr rfl rfl rfl (by simp)) rfl rfl
      (fun i => ⟨rfl, rfl, h.grants.lane_le i⟩) rfl rfl rfl rfl rfl rfl rfl
  | drain b i w hw => exact h.drain hw

/-- Giving a place back is not in the history. -/
theorem ungrant_frame {b b' : Budget sh} {i : sh.LaneIndex} {w : Waiter} (h : b.ungrant i w = .ok b') :
    b'.closed = b.closed ∧ b'.log = b.log := by
  obtain ⟨_, -, h⟩ := Exec.bind_ok_iff.mp h
  obtain ⟨_, -, h⟩ := Exec.bind_ok_iff.mp h
  obtain ⟨_, -, h⟩ := Exec.bind_ok_iff.mp h
  obtain ⟨_, -, h⟩ := Exec.bind_ok_iff.mp h
  obtain rfl := Except.ok.inj h
  exact ⟨rfl, rfl⟩

/-- **Once closed, a budget stays closed and grants nothing.** -/
theorem Move.closed {s s' : Budget sh × Option (Entry sh)} (hm : Move s s') (hc : s.1.closed = true) :
    s'.1.closed = true ∧ ∀ i r, s'.1.grantedTo i r = s.1.grantedTo i r := by
  cases hm with
  | grantQueued b owed i w next hopen => exact absurd hc (Bool.eq_false_iff.mp hopen)
  | admitGranted b i w phase hopen => exact absurd hc (Bool.eq_false_iff.mp hopen)
  | start | count | admitQueued =>
    exact ⟨hc, fun i r => by simp [Budget.grantedTo, Budget.start, Budget.count, Budget.register, Budget.enqueue,
      Event.grantedTo]⟩
  | dropGranted b r b' _ _ hok =>
    obtain ⟨hclosed, hlog⟩ := ungrant_frame hok
    exact ⟨hclosed.trans hc, fun i r => by simp only [Budget.grantedTo, hlog, Budget.forget]⟩
  | drain b i w =>
    exact ⟨hc, fun i r => by simp [Budget.grantedTo, Budget.drainWaiter, Budget.count, Budget.leave, Event.grantedTo]⟩
  | dropQueued | dropDrained | update | capLane | skip => exact ⟨hc, fun _ _ => rfl⟩
  | shut => exact ⟨rfl, fun _ _ => rfl⟩

/-- The history only grows. -/
theorem Move.log {s s' : Budget sh × Option (Entry sh)} (hm : Move s s') : s.1.log <+: s'.1.log := by
  cases hm with
  | start | count | grantQueued | admitGranted | admitQueued | drain => exact List.prefix_append ..
  | dropGranted b r b' _ _ hok =>
    rw [(ungrant_frame hok).2]
    exact List.prefix_rfl
  | dropQueued | dropDrained | update | capLane | skip | shut => exact List.prefix_rfl

/-- Any number of moves. -/
abbrev Moves (s s' : Budget sh × Option (Entry sh)) : Prop := Relation.ReflTransGen Move s s'

namespace Moves

theorem inv {s s' : Budget sh × Option (Entry sh)} (hm : Moves s s') (h : Inv s.1 s.2) : Inv s'.1 s'.2 := by
  induction hm with
  | refl => exact h
  | tail _ hm ih => exact hm.inv ih

theorem closed {s s' : Budget sh × Option (Entry sh)} (hm : Moves s s') (hc : s.1.closed = true) :
    s'.1.closed = true ∧ ∀ i r, s'.1.grantedTo i r = s.1.grantedTo i r := by
  induction hm with
  | refl => exact ⟨hc, fun _ _ => rfl⟩
  | tail _ hm ih =>
    obtain ⟨hc', hsame⟩ := hm.closed ih.1
    exact ⟨hc', fun i r => (hsame i r).trans (ih.2 i r)⟩

theorem log {s s' : Budget sh × Option (Entry sh)} (hm : Moves s s') : s.1.log <+: s'.1.log := by
  induction hm with
  | refl => exact List.prefix_rfl
  | tail _ hm ih => exact ih.trans hm.log

end Moves

end Pillar.FairBudget
