/-
What holds in every state a `FairBudget` reaches.

Each operation completes (no counter is taken below zero, no lane is indexed
past the end) and is a sequence of moves, after which no one queued could be
granted unless the budget is closed. So the invariant holds along every run,
and the results about counters, bounds, order and accounts are read off it.
-/
import Pillar.FairBudgetMoves

namespace Pillar.FairBudget

variable {sh : Shared}

/-! ## Selecting -/

/-- The queue of a lane is in order of arrival. -/
theorem Inv.queue_sorted {b : Budget sh} {owed : Option (Entry sh)} (h : Inv b owed) (i : sh.LaneIndex) :
    (b.lanes i).queue.Pairwise fun w w' => w.id < w'.id := by
  have hentries : b.entries.Pairwise fun e e' => e.waiter.id < e'.waiter.id :=
    List.pairwise_map.mpr h.registered.sorted
  rw [h.queues.queue i, List.pairwise_map]
  exact hentries.sublist List.filter_sublist

/-- Taking the waiter at a place out of a queue in order. -/
theorem eraseIdx_sorted {queue : List Waiter} (hs : queue.Pairwise fun w w' => w.id < w'.id) {pos : Nat} {w : Waiter}
    (hw : queue[pos]? = .some w) : queue.eraseIdx pos = queue.filter (·.id ≠ w.id) ∧
      ∀ w' ∈ queue, w'.id < w.id → w' ∈ queue.take pos := by
  obtain ⟨hlt, hget⟩ := List.getElem?_eq_some_iff.mp hw
  have hsplit : queue = queue.take pos ++ w :: queue.drop (pos + 1) := by
    rw [← hget, List.cons_getElem_drop_succ, List.take_append_drop]
  rw [hsplit, List.pairwise_append, List.pairwise_cons] at hs
  obtain ⟨-, ⟨hafter, -⟩, hbefore⟩ := hs
  have hkeep : ∀ l : List Waiter, (∀ w' ∈ l, w'.id ≠ w.id) → l.filter (·.id ≠ w.id) = l := fun l hl =>
    List.filter_eq_self.mpr fun w' hw' => by simpa using hl w' hw'
  refine ⟨?_, fun w' hw' hid => ?_⟩
  · rw [List.eraseIdx_eq_take_drop_succ]
    conv_rhs => rw [hsplit]
    rw [List.filter_append, List.filter_cons_of_neg (by simp),
      hkeep _ fun w' hw' => (hbefore w' hw' w List.mem_cons_self).ne, hkeep _ fun w' hw' => (hafter w' hw').ne']
  · rw [hsplit, List.mem_append, List.mem_cons] at hw'
    rcases hw' with hw' | rfl | hw'
    · exact hw'
    · exact absurd hid (Nat.lt_irrefl _)
    · have := hafter w' hw'
      omega

/-- Round from anywhere, every lane is looked at. -/
theorem exists_offset (next : Nat) (i : sh.LaneIndex) :
    ∃ offset : sh.LaneIndex, (next + offset.val) % sh.names.length = i.val := by
  have hpos : 0 < sh.names.length := i.pos
  have hlt : next % sh.names.length < sh.names.length := Nat.mod_lt _ hpos
  refine ⟨⟨(i.val + (sh.names.length - next % sh.names.length)) % sh.names.length, Nat.mod_lt _ hpos⟩, ?_⟩
  have hsum : next + (i.val + (sh.names.length - next % sh.names.length)) =
      i.val + sh.names.length * (next / sh.names.length + 1) := by
    have := Nat.div_add_mod next sh.names.length
    rw [Nat.mul_add, Nat.mul_one]
    omega
  rw [Nat.add_mod_mod, hsum, Nat.add_mul_mod_self_left, Nat.mod_eq_of_lt i.isLt]

theorem select_none {b : Budget sh} (h : b.select = .none) : b.Quiet := by
  intro i w hw
  obtain ⟨offset, ho⟩ := exists_offset b.next i
  have := List.findSome?_eq_none_iff.mp h offset (List.mem_finRange offset)
  simp only [Option.map_eq_none_iff, List.findIdx?_eq_none_iff] at this
  have hi : (⟨(b.next + offset.val) % sh.names.length, Nat.mod_lt _ offset.pos⟩ : sh.LaneIndex) = i := Fin.ext ho
  rw [hi] at this
  exact this w hw

theorem select_some {b : Budget sh} {i : sh.LaneIndex} {pos : Nat} (h : b.select = .some (i, pos)) :
    ∃ w, (b.lanes i).queue[pos]? = .some w ∧ b.canGrant i w.resource = true ∧
      ∀ w' ∈ (b.lanes i).queue.take pos, b.canGrant i w'.resource = false := by
  obtain ⟨offset, -, ho⟩ := List.exists_of_findSome?_eq_some h
  obtain ⟨pos', hpos, heq⟩ := Option.map_eq_some_iff.mp ho
  obtain ⟨rfl, rfl⟩ := Prod.mk.inj heq
  obtain ⟨hlt, hcan, hfirst⟩ := List.findIdx?_eq_some_iff_getElem.mp hpos
  refine ⟨_, List.getElem?_eq_getElem hlt, hcan, fun w' hw' => ?_⟩
  obtain ⟨j, hj, rfl⟩ := List.mem_take_iff_getElem.mp hw'
  simpa using hfirst j (by omega)

/-! ## Dispatching -/

/-- The loop of `dispatch` ends, with no one left who could be granted. -/
theorem dispatchLoop_spec : ∀ (fuel : Nat) {b : Budget sh} {owed : Option (Entry sh)}, Inv b owed →
    b.closed = false → b.queued < fuel →
    ∃ b', Budget.dispatchLoop fuel b = .ok b' ∧ Moves (b, owed) (b', owed) ∧ b'.closed = false ∧ b'.Quiet
  | 0, _, _, _, _, hf => absurd hf (Nat.not_lt_zero _)
  | fuel + 1, b, owed, h, hc, hf => by
    rw [Budget.dispatchLoop]
    split
    · split
      · next hsel => exact ⟨b, rfl, .refl, hc, select_none hsel⟩
      · next i pos hsel =>
        obtain ⟨w, hget, hcan, hfirst⟩ := select_some hsel
        obtain ⟨herase, hbefore⟩ := eraseIdx_sorted (h.queue_sorted i) hget
        have hw : w ∈ (b.lanes i).queue := List.mem_of_getElem? hget
        have hm : Move (b, owed) ({ (b.leave i w).grant i w with next := (i.val + 1) % sh.names.length }, owed) :=
          .grantQueued b owed i w _ hc hw hcan fun w' hw' hlt => hfirst w' (hbefore w' hw' hlt)
        have hinv := hm.inv h
        obtain ⟨r, hr, rfl, rfl, hs⟩ := h.queues.registration hw
        obtain ⟨l₁, l₂, he, hne, -, -⟩ := entries_split h.registered.sorted hr
        rw [hs] at he
        have hpos : 0 < b.waiting := by
          have := (h.queues.without he hne).2
          have hle := Finset.single_le_sum (f := fun j => (b.lanes j).queue.length) (fun _ _ => Nat.zero_le _)
            (Finset.mem_univ r.index)
          have := h.queues.waiting
          unfold Budget.queued at this
          omega
        have hunqueue : b.unqueue r.index ((b.lanes r.index).queue.eraseIdx pos) = .ok (b.leave r.index r.waiter) := by
          rw [herase]
          exact unqueue_leave r.index r.waiter hpos
        have hless : Budget.queued { (b.leave r.index r.waiter).grant r.index r.waiter with
            next := (r.index.val + 1) % sh.names.length } < fuel := by
          rw [← hinv.queues.waiting]
          show b.waiting - 1 < fuel
          have := h.queues.waiting
          omega
        obtain ⟨b', hok, hms, hc', hq⟩ := dispatchLoop_spec fuel hinv hc hless
        refine ⟨b', ?_, .head hm hms, hc', hq⟩
        rw [hget, Exec.get_some, Exec.ok_bind, hunqueue, Exec.ok_bind]
        exact hok
    · next hfull =>
      refine ⟨b, rfl, .refl, hc, fun i w _ => ?_⟩
      rw [← Bool.not_eq_true, canGrant_iff]
      exact fun hcan => hfull hcan.1

/-- `dispatch`, unless the budget is closed, leaves no one who could be granted. -/
theorem dispatch_spec {b : Budget sh} {owed : Option (Entry sh)} (h : Inv b owed) :
    ∃ b', b.dispatch = .ok b' ∧ Moves (b, owed) (b', owed) ∧ b'.closed = b.closed ∧
      (b'.closed = false → b'.Quiet) := by
  unfold Budget.dispatch
  cases hc : b.closed with
  | true => exact ⟨b, rfl, .refl, hc, fun hf => by simp [hc] at hf⟩
  | false =>
    obtain ⟨b', hok, hm, hc', hq⟩ := dispatchLoop_spec (b.queued + 1) h hc (Nat.lt_succ_self _)
    exact ⟨b', hok, hm, hc', fun _ => hq⟩

/-- Granting never makes another grantable. -/
theorem canGrant_of_grant {b : Budget sh} {i j : sh.LaneIndex} {w : Waiter} {resource : Option String}
    (h : (b.grant i w).canGrant j resource = true) : b.canGrant j resource = true := by
  rw [canGrant_iff] at h ⊢
  obtain ⟨hact, hlane, hres⟩ := h
  rw [grant_laneActive, grant_limit] at hlane
  rw [grant_active] at hact
  refine ⟨by omega, by omega, fun k hk => ?_⟩
  obtain ⟨hr, hlr⟩ := hres k hk
  rw [grant_resourceActive] at hr
  refine ⟨by omega, fun limit hlimit => ?_⟩
  have := hlr limit hlimit
  rw [grant_laneResourceActive b i w (Option.isSome_iff_exists.mpr ⟨limit, hlimit⟩)] at this
  omega

theorem Budget.Quiet.grant {b : Budget sh} (h : b.Quiet) (i : sh.LaneIndex) (w : Waiter) (phase : Phase) :
    ((b.grant i w).register i w phase).Quiet := by
  intro j w' hw'
  have hq : w' ∈ (b.lanes j).queue := by
    rw [← grant_queue b i j w]
    exact hw'
  rw [← Bool.not_eq_true]
  intro hcan
  have hfalse := h j w' hq
  rw [canGrant_of_grant (i := i) (w := w) hcan] at hfalse
  cases hfalse

/-! ## Operations -/

/-- What every operation does: moves, with nothing left in hand, and no one left
who could be granted. -/
def Serves (b b' : Budget sh) : Prop := Moves (b, .none) (b', .none) ∧ (b'.closed = false → b'.Quiet)

/-- The ways `acquire_for` goes, up to its loop. -/
theorem acquireFor_cases {b : Budget sh} (h : Inv b .none) {lane : String} {i : sh.LaneIndex}
    (hi : sh.position lane = .some i) (resource : Option String) (past : Bool) :
    (b.closed = true ∧
      b.acquireFor lane resource past = .ok (.error .closed, (b.start i).count i .shutdown b.fresh)) ∨
    b.acquireFor lane resource past = .ok (.error .deadline, (b.start i).count i .timedOut b.fresh) ∨
    ∃ d, (b.start i).dispatch = .ok d ∧ Moves (b, .none) (d, .some ⟨i, ⟨b.fresh, resource⟩, .queued⟩) ∧
      d.closed = false ∧ d.Quiet ∧
      ((d.canGrant i resource = true ∧ b.acquireFor lane resource past =
          .ok (.ok b.fresh, (d.grant i ⟨b.fresh, resource⟩).register i ⟨b.fresh, resource⟩ .waiting)) ∨
        b.acquireFor lane resource past = .ok (.error .overloaded, d.count i .overloaded b.fresh) ∨
        ∃ b', b.acquireFor lane resource past = .ok (.ok b.fresh, b') ∧ (b'.closed = false → b'.Quiet) ∧
          Moves (b, .none) ((d.enqueue i ⟨b.fresh, resource⟩).register i ⟨b.fresh, resource⟩ .waiting, .none) ∧
          Moves ((d.enqueue i ⟨b.fresh, resource⟩).register i ⟨b.fresh, resource⟩ .waiting, .none) (b', .none)) := by
  simp only [Budget.acquireFor, hi]
  have hstart : Move (b, .none) (b.start i, .some ⟨i, ⟨b.fresh, resource⟩, .queued⟩) := .start b i resource
  split
  · next hc => exact .inl ⟨hc, rfl⟩
  · next hc =>
    split
    · exact .inr (.inl rfl)
    · obtain ⟨d, hd, hmoves, hdc, hdq⟩ := dispatch_spec (hstart.inv h)
      have hopen : d.closed = false := hdc.trans (Bool.eq_false_iff.mpr hc)
      have hmoves' := hmoves.head hstart
      refine .inr (.inr ⟨d, hd, hmoves', hopen, hdq hopen, ?_⟩)
      rw [hd, Exec.ok_bind]
      split
      · next hcan => exact .inl ⟨hcan, rfl⟩
      · split
        · exact .inr (.inl rfl)
        · next hroom =>
          simp only [ge_iff_le, Bool.or_eq_true, Bool.and_eq_true, decide_eq_true_eq, not_or, not_and,
            Bool.not_eq_true', not_le, List.isEmpty_eq_false_iff, ne_eq, not_not] at hroom
          have hshare : d.waiting < sh.limits.waiting ∨ (sh.limits.waiting ≠ 0 ∧ (d.lanes i).queue = []) := by
            rcases Nat.lt_or_ge d.waiting sh.limits.waiting with hlt | hge
            · exact .inl hlt
            · exact .inr (hroom.2 hge)
          have hqueue := hmoves'.tail (.admitQueued d i ⟨b.fresh, resource⟩ hroom.1 hshare)
          obtain ⟨b', hok, hlast, -, hq⟩ := dispatch_spec (Moves.inv hqueue h)
          exact .inr (.inr ⟨b', by rw [hok]; rfl, hq, hqueue, hlast⟩)

theorem acquireFor_spec {b : Budget sh} (h : Inv b .none) (hquiet : b.closed = false → b.Quiet) (lane : String)
    (resource : Option String) (past : Bool) :
    ∃ result b', b.acquireFor lane resource past = .ok (result, b') ∧ Serves b b' := by
  cases hi : sh.position lane with
  | none => exact ⟨.error .unknownLane, b, by simp only [Budget.acquireFor, hi], .refl, hquiet⟩
  | some i =>
    have hstart : Move (b, .none) (b.start i, .some ⟨i, ⟨b.fresh, resource⟩, .queued⟩) := .start b i resource
    obtain ⟨hc, hok⟩ | hok | ⟨d, -, hd, hopen, hdq, hrest⟩ := acquireFor_cases h hi resource past
    · exact ⟨_, _, hok, .tail (.single hstart) (.count _ _ .shutdown), fun hf => absurd hc (Bool.eq_false_iff.mp hf)⟩
    · exact ⟨_, _, hok, .tail (.single hstart) (.count _ _ .timedOut), hquiet⟩
    · obtain ⟨hcan, hok⟩ | hok | ⟨b', hok, hq, hqueue, hlast⟩ := hrest
      · exact ⟨_, _, hok, hd.tail (.admitGranted d i _ .waiting hopen hdq hcan), fun _ => hdq.grant i _ .waiting⟩
      · exact ⟨_, _, hok, hd.tail (.count d _ .overloaded), fun _ => hdq⟩
      · exact ⟨_, b', hok, hqueue.trans hlast, hq⟩

theorem tryAcquireFor_spec {b : Budget sh} (h : Inv b .none) (hquiet : b.closed = false → b.Quiet) (lane : String)
    (resource : Option String) (past : Bool) :
    ∃ result b', b.tryAcquireFor lane resource past = .ok (result, b') ∧ Serves b b' := by
  unfold Budget.tryAcquireFor
  cases sh.position lane with
  | none => exact ⟨_, b, rfl, .refl, hquiet⟩
  | some i =>
    obtain ⟨d, hd, hmoves, hdc, hdq⟩ := dispatch_spec h
    simp only [hd, Exec.ok_bind]
    split
    · exact ⟨_, _, rfl, hmoves.tail (.skip d), hdq⟩
    · next hgo =>
      simp only [Bool.or_eq_true, not_or, Bool.not_eq_true, Bool.not_eq_true', Bool.not_eq_false] at hgo
      obtain ⟨⟨hopen, hcan⟩, -⟩ := hgo
      have hq : (d.start i).Quiet := hdq hopen
      exact ⟨_, _, rfl, (hmoves.tail (.start d i resource)).tail
        (.admitGranted (d.start i) i _ .permit hopen hq hcan), fun _ => hq.grant i _ .permit⟩

theorem drop_spec {b : Budget sh} (h : Inv b .none) {r : Registration sh} (hr : r ∈ b.registrations)
    (fallback : Outcome) : ∃ b', b.drop r fallback = .ok b' ∧ Serves b b' := by
  unfold Budget.drop
  have hlast : ∀ {d : Budget sh}, Moves (b, .none) (d, .some ⟨r.index, r.waiter, .dropped⟩) →
      ∃ b', (d.count r.index (r.outcome.getD fallback) r.waiter.id).dispatch = .ok b' ∧ Serves b b' := fun {d} hm => by
    have hcount := hm.tail (.count d _ (r.outcome.getD fallback))
    obtain ⟨b', hok, hmoves, -, hq⟩ := dispatch_spec (Moves.inv hcount h)
    exact ⟨b', hok, hcount.trans hmoves, hq⟩
  cases hs : b.waiters r.waiter.id with
  | queued =>
    obtain ⟨hpos, -⟩ := h.dropQueued hr hs
    have hvacate : (b.forget r.waiter.id).vacate r.index r.waiter .queued =
        .ok ((b.forget r.waiter.id).leave r.index r.waiter) := unqueue_leave r.index r.waiter hpos
    simp only [hvacate, Exec.ok_bind, reduceCtorEq, if_false]
    exact hlast (.single (.dropQueued b r hr hs))
  | granted =>
    obtain ⟨d, hok, -⟩ := h.dropGranted hr hs
    simp only [Budget.vacate, hok, Exec.ok_bind, reduceCtorEq, if_false]
    exact hlast (.single (.dropGranted b r d hr hs hok))
  | dropped => exact absurd hs (h.registered.live r hr)
  | drained =>
    have hdrop : Move (b, .none) (b.forget r.waiter.id, .none) := .dropDrained b r hr hs
    obtain ⟨b', hok, hmoves, -, hq⟩ := dispatch_spec (hdrop.inv h)
    refine ⟨b', ?_, hmoves.head hdrop, hq⟩
    simpa only [Budget.vacate, Exec.ok_bind, if_true] using hok

/-! ## Closing -/

/-- The loop of `drain` does not look at the lanes. -/
theorem drainFold_lanes (i : sh.LaneIndex) (lanes : sh.LaneIndex → Lane) : ∀ (queue : List Waiter) (b : Budget sh),
    queue.foldl (Budget.drainWaiter i) { b with lanes } = { queue.foldl (Budget.drainWaiter i) b with lanes }
  | [], _ => rfl
  | w :: queue, b => drainFold_lanes i lanes queue (b.drainWaiter i w)

/-- Draining a lane is draining its waiters one by one; the source sets
`waiting` once, at the end of `close`. -/
theorem drain_moves (i : sh.LaneIndex) (n : Nat) : ∀ (queue : List Waiter) {b : Budget sh}, Inv b .none →
    (b.lanes i).queue = queue → ∃ d, Moves (b, .none) (d, .none) ∧
      Budget.drain { b with waiting := n } i = { d with waiting := n } ∧ (d.lanes i).queue = [] ∧
      ∀ j ≠ i, (d.lanes j).queue = (b.lanes j).queue
  | [], b, h, hq => by
    refine ⟨b, .refl, ?_, hq, fun _ _ => rfl⟩
    have hlane : { b.lanes i with queue := [] } = b.lanes i := by rw [← hq]
    simp only [Budget.drain, hq, List.foldl_nil, hlane, Function.update_eq_self]
  | w :: queue, b, h, hq => by
    have hm : Move (b, .none) _ := .drain b i w (by simp [hq])
    have hsorted := h.queue_sorted i
    rw [hq, List.pairwise_cons] at hsorted
    have hrest : (b.lanes i).queue.filter (·.id ≠ w.id) = queue := by
      rw [hq, List.filter_cons_of_neg (by simp)]
      exact List.filter_eq_self.mpr fun w' hw' => by simpa using (hsorted.1 w' hw').ne'
    have hlanes : ∀ j, ((b.leave i w).lanes j).queue = _ := fun j => congrFun (leave_queue b i w) j
    have hi : ((b.leave i w).lanes i).queue = queue := by rw [hlanes, Function.update_self, hrest]
    obtain ⟨d, hmoves, hd, hnil, hother⟩ := drain_moves i n queue (hm.inv h) hi
    refine ⟨d, hmoves.head hm, ?_, hnil, fun j hj => (hother j hj).trans ?_⟩
    · have hsame : Function.update (b.leave i w).lanes i { (b.leave i w).lanes i with queue := [] } =
          Function.update b.lanes i { b.lanes i with queue := [] } := by
        simp [Budget.leave]
      rw [← hd]
      show { (b.lanes i).queue.foldl (Budget.drainWaiter i) { b with waiting := n } with
          lanes := Function.update b.lanes i { b.lanes i with queue := [] } } =
        { ((b.leave i w).lanes i).queue.foldl (Budget.drainWaiter i)
            { Budget.drainWaiter i { b with waiting := n } w with lanes := (b.leave i w).lanes } with
          lanes := Function.update (b.leave i w).lanes i { (b.leave i w).lanes i with queue := [] } }
      rw [hq, hi, hsame, drainFold_lanes]
      rfl
    · exact (hlanes j).trans (Function.update_of_ne hj ..)

theorem drainLanes_moves (n : Nat) : ∀ (lanes : List sh.LaneIndex) {b : Budget sh}, Inv b .none →
    ∃ d, Moves (b, .none) (d, .none) ∧ lanes.foldl Budget.drain { b with waiting := n } = { d with waiting := n } ∧
      ∀ j, j ∈ lanes ∨ (b.lanes j).queue = [] → (d.lanes j).queue = []
  | [], b, _ => ⟨b, .refl, rfl, fun j hj => hj.resolve_left (by simp)⟩
  | i :: lanes, b, h => by
    obtain ⟨c, hc, hdrain, hnil, hother⟩ := drain_moves i n _ h rfl
    obtain ⟨d, hd, hfold, hall⟩ := drainLanes_moves n lanes (Moves.inv hc h)
    refine ⟨d, hc.trans hd, ?_, fun j hj => hall j ?_⟩
    · rw [List.foldl_cons, hdrain, hfold]
    · by_cases hi : j = i
      · subst hi
        exact .inr hnil
      · rw [hother j hi]
        exact hj.imp_left fun hj => (List.mem_cons.mp hj).resolve_left hi

theorem close_spec {b : Budget sh} (h : Inv b .none) : Serves b b.close := by
  have hshut : Move (b, .none) ({ b with closed := true }, .none) := .shut b
  obtain ⟨d, hmoves, hfold, hall⟩ :=
    drainLanes_moves b.waiting (List.finRange sh.names.length) (hshut.inv h)
  have hinv := Moves.inv hmoves (hshut.inv h)
  have hzero : d.waiting = 0 := by
    rw [hinv.queues.waiting, Budget.queued]
    exact Finset.sum_eq_zero fun j _ => by simp [hall j (.inl (List.mem_finRange j))]
  have hclose : b.close = d := by
    unfold Budget.close
    rw [show ({ b with closed := true } : Budget sh) = { { b with closed := true } with waiting := b.waiting } from rfl,
      hfold, ← hzero]
  rw [hclose]
  exact ⟨hmoves.head hshut, fun hopen => absurd (Moves.closed hmoves rfl).1 (Bool.eq_false_iff.mp hopen)⟩

/-! ## Runs -/

theorem find_mem {b : Budget sh} {id : Nat} {r : Registration sh} (h : b.find id = .some r) : r ∈ b.registrations :=
  List.mem_of_find?_eq_some h

theorem update_serves {b : Budget sh} (hquiet : b.closed = false → b.Quiet) (id : Nat) (phase : Phase)
    (outcome : Option Outcome) : Serves b (b.update id phase outcome) :=
  ⟨.single (.update b id phase outcome), hquiet⟩

theorem poll_serves {b : Budget sh} (hquiet : b.closed = false → b.Quiet) (r : Registration sh)
    (before past expired : Bool) : Serves b (b.poll r before past expired) := by
  unfold Budget.poll
  split
  · exact update_serves hquiet ..
  · split
    · exact update_serves hquiet ..
    · split
      · exact update_serves hquiet ..
      · exact ⟨.refl, hquiet⟩

theorem capLane_serves {b : Budget sh} (h : Inv b .none) (hquiet : b.closed = false → b.Quiet) (lane : String)
    (limit : Nat) : Serves b (b.capLane lane limit).2 := by
  unfold Budget.capLane
  cases sh.position lane with
  | none => exact ⟨.refl, hquiet⟩
  | some i =>
    simp only
    split
    · exact ⟨.refl, hquiet⟩
    · next hgo =>
      simp only [Bool.or_eq_true, decide_eq_true_eq, not_or, not_exists, not_not] at hgo
      have hm : Move (b, .none) ({ b with lanes := Function.update b.lanes i { b.lanes i with limit } }, .none) :=
        .capLane b i limit hgo.2
      refine ⟨.single hm, fun _ j w hw => ?_⟩
      -- a higher cap could free a place, but nothing is started, so no one waits
      have hnil := ((hm.inv h).unused hgo.2 j).2
      simp only at hw hnil
      rw [hnil] at hw
      cases hw

/-- **Every step completes**: it is a sequence of moves, and leaves no one
waiting for a place that is free. -/
theorem step_spec {b : Budget sh} (h : Inv b .none) (hquiet : b.closed = false → b.Quiet) (op : Op) :
    ∃ b', step b op = .ok b' ∧ Serves b b' := by
  have hsame : Serves b b := ⟨.refl, hquiet⟩
  cases op with
  | capLane lane limit => exact ⟨_, rfl, capLane_serves h hquiet lane limit⟩
  | acquireFor lane resource past =>
    obtain ⟨result, b', hok, hs⟩ := acquireFor_spec h hquiet lane resource past
    exact ⟨b', by simp only [step, hok]; rfl, hs⟩
  | tryAcquireFor lane resource past =>
    obtain ⟨result, b', hok, hs⟩ := tryAcquireFor_spec h hquiet lane resource past
    exact ⟨b', by simp only [step, hok]; rfl, hs⟩
  | poll id before past expired =>
    simp only [step]
    cases b.find id with
    | none => exact ⟨b, rfl, hsame⟩
    | some r =>
      refine ⟨_, rfl, ?_⟩
      split
      · exact poll_serves hquiet r before past expired
      · exact hsame
  | timeout id expired =>
    simp only [step]
    cases b.find id with
    | none => exact ⟨b, rfl, hsame⟩
    | some r =>
      refine ⟨_, rfl, ?_⟩
      split
      · exact update_serves hquiet ..
      · exact hsame
  | finish id outcome =>
    simp only [step]
    cases b.find id with
    | none => exact ⟨b, rfl, hsame⟩
    | some r =>
      refine ⟨_, rfl, ?_⟩
      split
      · exact update_serves hquiet ..
      · exact hsame
  | drop id panicking context =>
    simp only [step]
    cases hr : b.find id with
    | none => exact ⟨b, rfl, hsame⟩
    | some r => exact drop_spec h (find_mem hr) _
  | close => exact ⟨_, rfl, close_spec h⟩

theorem inv_init (sh : Shared) : Inv (Budget.init sh) .none := by
  refine ⟨⟨.nil, ?_, ?_, ?_⟩, ⟨?_, ?_, ?_, ?_, ?_⟩, ⟨?_, ?_, ?_, ?_, ?_, ?_, ?_, ?_⟩, ⟨rfl, .refl _, ?_, ?_⟩,
    ⟨?_, ?_, ?_, ?_, ?_, ?_⟩⟩
  all_goals simp [Budget.init, Budget.entries, entriesOf, Budget.queued, Budget.busy, Budget.granted, Budget.begun,
    Budget.queuedFor, Budget.grantedTo]

/-- The invariant, and no one waiting for a place that is free. -/
structure Good (b : Budget sh) : Prop where
  inv : Inv b .none
  quiet : b.closed = false → b.Quiet

theorem Good.step {b b' : Budget sh} (h : Good b) {op : Op} (hs : step b op = .ok b') :
    Good b' ∧ Serves b b' := by
  obtain ⟨b'', hok, hserves⟩ := step_spec h.inv h.quiet op
  obtain rfl := Except.ok.inj (hs.symm.trans hok)
  exact ⟨⟨Moves.inv hserves.1 h.inv, hserves.2⟩, hserves⟩

/-- **Along every run**: the state stays good, and the run is a sequence of moves. -/
theorem Run.good {b b' : Budget sh} (hr : Run sh b b') (h : Good b) : Good b' ∧ Moves (b, .none) (b', .none) := by
  induction hr with
  | refl => exact ⟨h, .refl⟩
  | snoc _ op hs ih =>
    obtain ⟨hgood, hserves⟩ := ih.1.step hs
    exact ⟨hgood, ih.2.trans hserves.1⟩

theorem Reachable.good {b : Budget sh} (h : Reachable b) : Good b :=
  (Run.good h ⟨inv_init sh, fun _ i w hw => by cases hw⟩).1

/-! ## Counters and limits -/

/-- Each granted entry is in one lane. -/
theorem sum_granted (l : List (Entry sh)) :
    ∑ i : sh.LaneIndex, l.countP (fun e => e.state = .granted ∧ decide (e.lane = i)) =
      l.countP fun e => e.state = .granted ∧ true := by
  induction l with
  | nil => simp
  | cons e l ih =>
    simp only [List.countP_cons, Finset.sum_add_distrib, ih]
    by_cases hs : e.state = .granted <;> simp [hs]

/-- **The counters are exact and the limits are never passed**, in every state
of every run, and no step takes a counter below zero. -/
theorem counters_exact_within_limits {b : Budget sh} (h : Reachable b) :
    (b.active = ∑ i, (b.lanes i).active ∧ b.active = b.granted (fun _ => true) ∧ b.active ≤ sh.limits.active) ∧
    (∀ i, (b.lanes i).active = b.granted (fun e => e.lane = i) ∧ (b.lanes i).active ≤ (b.lanes i).limit) ∧
    (∀ k, (b.resourceActive k).getD 0 = b.granted (fun e => e.waiter.resource = .some k) ∧
      (b.resourceActive k).getD 0 ≤ sh.resourceLimit) ∧
    (∀ limit ∈ sh.laneResourceLimit, ∀ i k,
      (b.laneResourceActive i k).getD 0 = b.granted (fun e => e.lane = i ∧ e.waiter.resource = .some k) ∧
      (b.laneResourceActive i k).getD 0 ≤ limit) ∧
    b.waiting = ∑ i, (b.lanes i).queue.length ∧
    ∀ op, ∃ b', step b op = .ok b' := by
  obtain ⟨hinv, hquiet⟩ := h.good
  have hg := hinv.grants
  refine ⟨⟨?_, hg.active, hg.active_le⟩, fun i => ⟨hg.lane i, hg.lane_le i⟩, fun k => ⟨hg.resource k, hg.resource_le k⟩,
    fun limit hl i k => ⟨hg.laneResource (Option.isSome_iff_exists.mpr ⟨limit, hl⟩) i k,
    hg.laneResource_le limit hl i k⟩,
    hinv.queues.waiting, fun op => ?_⟩
  · rw [hg.active, Finset.sum_congr rfl fun i _ => hg.lane i]
    exact (sum_granted b.entries).symm
  · obtain ⟨b', hok, -⟩ := step_spec hinv hquiet op
    exact ⟨b', hok⟩

/-- Two lanes sharing two places, one each, with one waiter each at most. -/
def twoLanes : Shared where
  names := ["a", "b"]
  limits := { active := 2, perLane := 1, waiting := 1, perLaneWaiting := 1, wait := 1 }
  resourceLimit := 1
  laneResourceLimit := .some 1
  built := by decide

theorem counters_twoLanes : ∃ b : Budget twoLanes, b.active = 1 ∧ b.waiting = 1 ∧
    b.active = ∑ i, (b.lanes i).active := by
  refine ⟨_, ?_, ?_, (counters_exact_within_limits (.snoc (.snoc (.refl _) (.acquireFor "a" (.some "k") false) rfl)
    (.acquireFor "b" (.some "k") false) rfl)).1.1⟩
  · rfl
  · rfl

/-! ## Bounded queues -/

theorem busy_le (b : Budget sh) : b.busy ≤ sh.names.length := by
  have hle := Finset.sum_le_card_nsmul Finset.univ (fun i => if (b.lanes i).queue = [] then 0 else 1) 1
    fun i _ => by split <;> omega
  simpa [Budget.busy] using hle

/-- **The queues are bounded**: each by its own limit, all together by the
shared limit and one first waiter for each other lane. -/
theorem queues_bounded {b : Budget sh} (h : Reachable b) :
    (∀ i, (b.lanes i).queue.length ≤ sh.limits.perLaneWaiting) ∧
    (sh.limits.waiting = 0 → ∑ i, (b.lanes i).queue.length = 0) ∧
    (sh.limits.waiting ≠ 0 → ∑ i, (b.lanes i).queue.length ≤ sh.limits.waiting + sh.names.length - 1) := by
  have hq := h.good.inv.queues
  refine ⟨hq.laneQueue_le, hq.queued_zero, fun _ => ?_⟩
  have hle := hq.queued_le
  have hbusy := busy_le b
  unfold Budget.queued at hle
  omega

/-- The bound is met: past the shared limit by the first waiter of lane `a`. -/
theorem queues_twoLanes : ∃ b : Budget twoLanes, ∑ i, (b.lanes i).queue.length = 2 ∧
    ∑ i, (b.lanes i).queue.length ≤ twoLanes.limits.waiting + twoLanes.names.length - 1 := by
  refine ⟨_, ?_, (queues_bounded (.snoc (.snoc (.snoc (.refl _) (.acquireFor "a" (.some "k") false) rfl)
    (.acquireFor "b" (.some "k") false) rfl) (.acquireFor "a" (.some "k") false) rfl)).2.2 (by decide)⟩
  rfl

/-! ## Order -/

/-- A strictly ordered list picks its members of another out in order. -/
theorem sublist_of_sorted {l l' : List Nat} (hl : l.Pairwise (· < ·)) (hl' : l'.Pairwise (· < ·)) (hsub : l ⊆ l') :
    l.Sublist l' :=
  List.sublist_of_subperm_of_pairwise (List.subperm_of_subset (hl.imp Nat.ne_of_lt) hsub) hl hl'

/-- What `acquire_for` grants without queueing, it grants where no one queued could be. -/
theorem acquireFor_direct {b : Budget sh} (h : Good b) {lane : String} {i : sh.LaneIndex} {resource : Option String}
    {past : Bool} {id : Nat} {b' : Budget sh} (hi : sh.position lane = .some i)
    (hok : b.acquireFor lane resource past = .ok (.ok id, b')) (hdirect : .queued id i resource ∉ b'.log) :
    ∃ d, (b.start i).dispatch = .ok d ∧ d.Quiet ∧
      b' = (d.grant i ⟨id, resource⟩).register i ⟨id, resource⟩ .waiting := by
  obtain ⟨-, hok'⟩ | hok' | ⟨d, hd, -, -, hdq, hrest⟩ := acquireFor_cases h.inv hi resource past
  · rw [hok] at hok'
    cases hok'
  · rw [hok] at hok'
    cases hok'
  · obtain ⟨-, hok'⟩ | hok' | ⟨b'', hok', -, -, hlast⟩ := hrest
    all_goals
      rw [hok] at hok'
      cases hok'
    · exact ⟨d, hd, hdq, rfl⟩
    · refine absurd (hlast.log.subset ?_) hdirect
      simp [Budget.enqueue, Budget.register]

theorem tryAcquireFor_direct {b : Budget sh} (h : Good b) {lane : String} {i : sh.LaneIndex}
    {resource : Option String} {past : Bool} {id : Nat} {b' : Budget sh} (hi : sh.position lane = .some i)
    (hok : b.tryAcquireFor lane resource past = .ok (.ok (.some id), b')) :
    ∃ d, b.dispatch = .ok d ∧ d.Quiet ∧
      b' = ((d.start i).grant i ⟨id, resource⟩).register i ⟨id, resource⟩ .permit := by
  obtain ⟨d, hd, -, -, hdq⟩ := dispatch_spec h.inv
  simp only [Budget.tryAcquireFor, hi, hd, Exec.ok_bind] at hok
  split at hok
  · cases hok
  · next hgo =>
    simp only [Bool.or_eq_true, not_or, Bool.not_eq_true] at hgo
    cases hok
    exact ⟨d, hd, hdq hgo.1.1, rfl⟩

/-- **No one waits for a place that is free, no newcomer passes one who could
be granted, and those of one lane and resource are granted in the order they
were queued.** -/
theorem work_conserving_in_order {b : Budget sh} (h : Reachable b) :
    (b.closed = false → ∀ i, ∀ w ∈ (b.lanes i).queue, b.canGrant i w.resource = false) ∧
    (∀ lane i resource past id b', sh.position lane = .some i →
      b.acquireFor lane resource past = .ok (.ok id, b') → .queued id i resource ∉ b'.log →
      ∃ d, (b.start i).dispatch = .ok d ∧ (∀ j, ∀ w ∈ (d.lanes j).queue, d.canGrant j w.resource = false) ∧
        b' = (d.grant i ⟨id, resource⟩).register i ⟨id, resource⟩ .waiting) ∧
    (∀ lane i resource past id b', sh.position lane = .some i →
      b.tryAcquireFor lane resource past = .ok (.ok (.some id), b') →
      ∃ d, b.dispatch = .ok d ∧ (∀ j, ∀ w ∈ (d.lanes j).queue, d.canGrant j w.resource = false) ∧
        b' = ((d.start i).grant i ⟨id, resource⟩).register i ⟨id, resource⟩ .permit) ∧
    ∀ i resource, ((b.grantedTo i resource).filter (· ∈ b.queuedFor i resource)).Sublist (b.queuedFor i resource) ∧
      ∀ id ∈ b.grantedTo i resource, id ∈ b.queuedFor i resource → ∀ w ∈ (b.lanes i).queue, w.resource = resource →
        [id, w.id].Sublist (b.queuedFor i resource) := by
  have hgood := h.good
  have ho := hgood.inv.ordered
  refine ⟨hgood.quiet, fun _ _ _ _ _ _ hi hok hdirect => acquireFor_direct hgood hi hok hdirect,
    fun _ _ _ _ _ _ hi hok => tryAcquireFor_direct hgood hi hok, fun i resource => ⟨?_, fun id hid hq w hw hr => ?_⟩⟩
  · refine sublist_of_sorted ((ho.granted i resource).sublist List.filter_sublist)
      (ho.queued i resource) fun id hid => ?_
    simpa using (List.mem_filter.mp hid).2
  · obtain ⟨r, hreg, rfl, rfl, hs⟩ := hgood.inv.queues.registration hw
    subst hr
    have hmem : (⟨r.index, r.waiter, .queued⟩ : Entry sh) ∈ b.entries :=
      mem_entries.mpr ⟨r, hreg, by rw [hs]⟩
    have hlt := ho.ahead _ hmem rfl id hid
    refine sublist_of_sorted (by simpa using hlt) (ho.queued ..) fun id' hid' => ?_
    rcases List.mem_pair.mp hid' with rfl | rfl
    · exact hq
    · exact ho.logged _ hmem rfl

theorem waits_twoLanes : ∃ b : Budget twoLanes, b.waiting = 1 ∧
    ∀ i, ∀ w ∈ (b.lanes i).queue, b.canGrant i w.resource = false := by
  refine ⟨_, ?_, (work_conserving_in_order (.snoc (.snoc (.refl _) (.acquireFor "a" (.some "k") false) rfl)
    (.acquireFor "b" (.some "k") false) rfl)).1 rfl⟩
  rfl

/-! ## Accounts -/

/-- The admissions started are all different. -/
theorem Inv.begun_nodup {b : Budget sh} {owed : Option (Entry sh)} (h : Inv b owed) : b.begun.Nodup := by
  refine List.Nodup.of_map Prod.fst ?_
  rw [h.accounts.ids]
  exact List.nodup_range

/-- A waiter drained by `close` is counted already. -/
theorem Inv.drained_counted {b : Budget sh} (h : Inv b .none) {e : Entry sh} (he : e ∈ b.entries)
    (hs : e.state = .drained) : e.waiter.id ∈ b.ended.map Prod.fst := by
  obtain ⟨r, hr, rfl⟩ := mem_entries.mp he
  have hbegun : r.waiter.id ∈ b.begun.map Prod.fst := by
    rw [h.accounts.ids]
    exact List.mem_range.mpr (h.registered.below r hr)
  obtain ⟨a, ha, hid⟩ := List.mem_map.mp hbegun
  have hbalance := h.accounts.balance.subset ha
  simp only [Option.toList_none, List.map_nil, List.append_nil, List.mem_append] at hbalance
  rcases hbalance with hended | hpending
  · rw [← hid]
    exact List.mem_map_of_mem hended
  · -- a pending admission has its address, so its state
    obtain ⟨e', he', rfl⟩ := List.mem_map.mp hpending
    obtain ⟨hmem, hstate⟩ := List.mem_filter.mp he'
    obtain ⟨r', -, rfl⟩ := mem_entries.mp hmem
    have hsame : r'.waiter.id = r.waiter.id := hid
    have hne : b.waiters r'.waiter.id ≠ .drained := of_decide_eq_true hstate
    rw [hsame] at hne
    exact absurd hs hne

/-- **Every admission is accounted for once**: it is active, queued or counted
under one outcome, whatever `close` did to its waiter; and a closed budget never
grants again. -/
theorem admissions_accounted_once {b : Budget sh} (h : Reachable b) :
    (∀ i, b.started i = (b.lanes i).active + (b.lanes i).queue.length + (Outcome.all.map (b.outcomes i)).sum) ∧
    (∀ i, b.started i = b.begun.countP (·.2 = i)) ∧ (∀ i o, b.outcomes i o = b.log.countP (Event.counts i o)) ∧
    b.begun.Nodup ∧ b.ended.Nodup ∧ (∀ a, a ∈ b.begun ↔ a ∈ b.ended ∨ a ∈ b.pending) ∧
    (∀ a ∈ b.ended, a ∉ b.pending) ∧
    (∀ e ∈ b.entries, e.state = .drained → e.waiter.id ∈ b.ended.map Prod.fst) ∧
    (b.closed = true → ∀ b', Run sh b b' →
      b'.closed = true ∧ ∀ i resource, b'.grantedTo i resource = b.grantedTo i resource) := by
  have hgood := h.good
  have hinv := hgood.inv
  have hbalance : b.begun.Perm (b.ended ++ b.pending) := by simpa using hinv.accounts.balance
  have hnodup := hbalance.nodup_iff.mp hinv.begun_nodup
  refine ⟨fun i => by simpa using hinv.account i, hinv.accounts.started, hinv.accounts.outcomes, hinv.begun_nodup,
    hnodup.of_append_left, fun a => by rw [hbalance.mem_iff, List.mem_append],
    fun a ha hp => (List.nodup_append.mp hnodup).2.2 a ha a hp rfl,
    fun e he hs => hinv.drained_counted he hs, fun hc b' hrun => ?_⟩
  exact Moves.closed (hrun.good hgood).2 hc

/-- Queued behind a permit, then drained by `close`: counted there, and not
again when the waiter is dropped. -/
theorem accounts_twoLanes : ∃ (b : Budget twoLanes) (i : twoLanes.LaneIndex), b.started i = 1 ∧
    b.outcomes i .shutdown = 1 ∧
    b.started i = (b.lanes i).active + (b.lanes i).queue.length + (Outcome.all.map (b.outcomes i)).sum := by
  refine ⟨_, ⟨1, by decide⟩, ?_, ?_, (admissions_accounted_once (.snoc (.snoc (.snoc (.snoc (.refl _)
    (.acquireFor "a" (.some "k") false) rfl) (.acquireFor "b" (.some "k") false) rfl) .close rfl)
    (.drop 1 false .none) rfl)).1 _⟩
  · rfl
  · rfl

end Pillar.FairBudget
