/-
Whose turn it is: every grant the loop of `dispatch` makes in a run, in order,
with the state it is made in. The cursor moves with these grants alone, so the
lanes a dispatch looks at first go round, and none that has someone to grant is
passed over for more than one round.
-/
import Pillar.FairBudgetFacts

namespace Pillar.FairBudget

variable {sh : Shared}

/-! ## Selections -/

/-- A grant of the loop of `dispatch`: the state it is made in, the lane, and
the place in its queue. -/
structure Selection (sh : Shared) where
  before : Budget sh
  lane : sh.LaneIndex
  pos : Nat

def Selection.waiter (s : Selection sh) : Option Waiter := (s.before.lanes s.lane).queue[s.pos]?

namespace Budget

/-- What the loop does once it has selected. -/
def turn (b : Budget sh) (i : sh.LaneIndex) (pos : Nat) : Exec Empty (Budget sh) := do
  let waiter ← Exec.get (b.lanes i).queue[pos]?
  let b ← b.unqueue i ((b.lanes i).queue.eraseIdx pos)
  return { b.grant i waiter with next := (i.val + 1) % sh.names.length }

/-- The selections of `dispatchLoop`. -/
def loopSelections : Nat → Budget sh → List (Selection sh)
  | 0, _ => []
  | fuel + 1, b =>
    if b.active < sh.limits.active then
      match b.select with
      | .none => []
      | .some (i, pos) =>
        ⟨b, i, pos⟩ :: match b.turn i pos with
          | .ok b => loopSelections fuel b
          | .error _ => []
    else []

def dispatchSelections (b : Budget sh) : List (Selection sh) :=
  if b.closed then [] else loopSelections (b.queued + 1) b

/-- The states `acquireFor` calls `dispatch` in. -/
def acquireForDispatches (b : Budget sh) (lane : String) (resource : Option String) (past : Bool) : List (Budget sh) :=
  match sh.position lane with
  | .none => []
  | .some i =>
    let waiter : Waiter := { id := b.fresh, resource }
    if b.closed || past then []
    else
      b.start i :: match (b.start i).dispatch with
        | .error _ => []
        | .ok b =>
          if b.canGrant i resource then []
          else if (b.lanes i).queue.length ≥ sh.limits.perLaneWaiting ||
              (b.waiting ≥ sh.limits.waiting && (sh.limits.waiting = 0 || !(b.lanes i).queue.isEmpty)) then []
          else [(b.enqueue i waiter).register i waiter .waiting]

/-- The states `drop` calls `dispatch` in. -/
def dropDispatches (b : Budget sh) (r : Registration sh) (fallback : Outcome) : List (Budget sh) :=
  let previous := b.waiters r.waiter.id
  match (b.forget r.waiter.id).vacate r.index r.waiter previous with
  | .error _ => []
  | .ok b => [if previous = .drained then b else b.count r.index (r.outcome.getD fallback) r.waiter.id]

/-- The states a step calls `dispatch` in. -/
def dispatches (b : Budget sh) : Op → List (Budget sh)
  | .acquireFor lane resource past => b.acquireForDispatches lane resource past
  | .tryAcquireFor lane _ _ => if (sh.position lane).isSome then [b] else []
  | .drop id panicking context =>
    match b.find id with
    | .some r => b.dropDispatches r (dropOutcome panicking context)
    | .none => []
  | .capLane .. | .poll .. | .timeout .. | .finish .. | .close => []

def selections (b : Budget sh) (op : Op) : List (Selection sh) := (b.dispatches op).flatMap dispatchSelections

end Budget

/-- A run, with every selection made along it. -/
inductive Selects (sh : Shared) : Budget sh → Budget sh → List (Selection sh) → Prop
  | refl (b) : Selects sh b b []
  | snoc {b b' b'' l} : Selects sh b b' l → (op : Op) → step b' op = .ok b'' →
    Selects sh b b'' (l ++ b'.selections op)

theorem Run.selects {b b' : Budget sh} (h : Run sh b b') : ∃ l, Selects sh b b' l := by
  induction h with
  | refl => exact ⟨[], .refl _⟩
  | snoc _ op hs ih =>
    obtain ⟨l, hl⟩ := ih
    exact ⟨_, hl.snoc op hs⟩

/-! ## The cursor -/

/-- From cursor `next` to cursor `next'`, moved by these selections alone. -/
def Linked : Nat → List (Selection sh) → Nat → Prop
  | next, [], next' => next' = next
  | next, s :: l, next' => s.before.next = next ∧ Linked ((s.lane.val + 1) % sh.names.length) l next'

theorem Linked.append : ∀ {next next' next'' : Nat} {l l' : List (Selection sh)}, Linked next l next' →
    Linked next' l' next'' → Linked next (l ++ l') next''
  | _, _, _, [], _, h, h' => by
    cases h
    exact h'
  | _, _, _, _ :: _, _, ⟨hs, h⟩, h' => ⟨hs, h.append h'⟩

/-- What comes after some selections starts where they left the cursor. -/
theorem Linked.of_append : ∀ {next next' : Nat} {l l' : List (Selection sh)}, Linked next (l ++ l') next' →
    ∃ mid, Linked next l mid ∧ Linked mid l' next'
  | next, _, [], _, h => ⟨next, rfl, h⟩
  | _, _, s :: l, _, ⟨hs, h⟩ => by
    obtain ⟨mid, hl, hl'⟩ := h.of_append
    exact ⟨mid, ⟨hs, hl⟩, hl'⟩

/-- A turn, taken apart. -/
theorem turn_ok {b b' : Budget sh} {i : sh.LaneIndex} {pos : Nat} (h : b.turn i pos = .ok b') :
    b'.next = (i.val + 1) % sh.names.length ∧ ∃ w, (b.lanes i).queue[pos]? = .some w ∧
      b'.log = b.log ++ [.granted w.id i w.resource] := by
  obtain ⟨w, hw, h⟩ := Exec.bind_ok_iff.mp h
  obtain ⟨d, hd, h⟩ := Exec.bind_ok_iff.mp h
  obtain ⟨waiting, -, hd⟩ := Exec.bind_ok_iff.mp hd
  cases hd
  cases h
  exact ⟨rfl, w, Exec.get_eq_ok.mp hw, rfl⟩

theorem dispatchLoop_succ (fuel : Nat) (b : Budget sh) : Budget.dispatchLoop (fuel + 1) b =
    if b.active < sh.limits.active then
      match b.select with
      | .none => .ok b
      | .some (i, pos) => do Budget.dispatchLoop fuel (← b.turn i pos)
    else .ok b := by
  rw [Budget.dispatchLoop]
  cases b.select with
  | none => rfl
  | some selected => simp only [Budget.turn, bind_assoc, Exec.pure_eq_ok, Exec.ok_bind]

/-- What a selection grants, as the history has it. -/
def Selection.event (s : Selection sh) : Option (Event sh) := s.waiter.map fun w => .granted w.id s.lane w.resource

/-- The loop's selections carry the cursor, and are its grants. -/
theorem dispatchLoop_linked : ∀ (fuel : Nat) {b b' : Budget sh}, Budget.dispatchLoop fuel b = .ok b' →
    Linked b.next (Budget.loopSelections fuel b) b'.next ∧
      b'.log = b.log ++ (Budget.loopSelections fuel b).filterMap Selection.event
  | 0, _, _, h => by cases h
  | fuel + 1, b, b', h => by
    rw [dispatchLoop_succ] at h
    rw [Budget.loopSelections]
    split at h
    · next hactive =>
      rw [if_pos hactive]
      cases hselect : b.select with
      | none =>
        rw [hselect] at h
        cases h
        exact ⟨rfl, by simp⟩
      | some selected =>
        obtain ⟨i, pos⟩ := selected
        rw [hselect] at h
        obtain ⟨d, hturn, h⟩ := Exec.bind_ok_iff.mp h
        obtain ⟨hnext, w, hw, hlog⟩ := turn_ok hturn
        obtain ⟨hlinked, hlog'⟩ := dispatchLoop_linked fuel h
        simp only [hturn]
        refine ⟨⟨rfl, hnext ▸ hlinked⟩, ?_⟩
        have hevent : (⟨b, i, pos⟩ : Selection sh).event = .some (.granted w.id i w.resource) := by
          rw [Selection.event, Selection.waiter, hw]
          rfl
        rw [List.filterMap_cons_some hevent, hlog', hlog, List.append_assoc, List.singleton_append]
    · next hfull =>
      cases h
      rw [if_neg hfull]
      exact ⟨rfl, by simp⟩

/-- The cursor was moved by these selections alone, and all of them are in the history. -/
def Turned (next : Nat) (l : List (Selection sh)) (b : Budget sh) : Prop :=
  Linked next l b.next ∧ ∀ s ∈ l, ∀ e, s.event = .some e → e ∈ b.log

theorem turned_nil (b : Budget sh) : Turned b.next [] b := ⟨rfl, fun s hs => (by cases hs)⟩

/-- Nothing but selections moves the cursor, and the history only grows. -/
theorem Turned.mono {next : Nat} {l : List (Selection sh)} {b b' : Budget sh} (h : Turned next l b)
    (hnext : b'.next = b.next) (hlog : b.log ⊆ b'.log) : Turned next l b' :=
  ⟨hnext ▸ h.1, fun s hs e he => hlog (h.2 s hs e he)⟩

theorem Turned.append {next : Nat} {l l' : List (Selection sh)} {b b' : Budget sh} (h : Turned next l b)
    (h' : Turned b.next l' b') (hlog : b.log ⊆ b'.log) : Turned next (l ++ l') b' := by
  refine ⟨h.1.append h'.1, fun s hs e he => ?_⟩
  rcases List.mem_append.mp hs with hs | hs
  · exact hlog (h.2 s hs e he)
  · exact h'.2 s hs e he

theorem dispatch_turned {b b' : Budget sh} (h : b.dispatch = .ok b') :
    Turned b.next b.dispatchSelections b' ∧ b.log ⊆ b'.log := by
  have hlinked : Linked b.next b.dispatchSelections b'.next ∧
      b'.log = b.log ++ b.dispatchSelections.filterMap Selection.event := by
    unfold Budget.dispatch at h
    unfold Budget.dispatchSelections
    split at h
    · next hclosed =>
      cases h
      rw [if_pos hclosed]
      exact ⟨rfl, by simp⟩
    · next hopen =>
      rw [if_neg hopen]
      exact dispatchLoop_linked _ h
  obtain ⟨hlinked, hlog⟩ := hlinked
  refine ⟨⟨hlinked, fun s hs e he => ?_⟩, ?_⟩
  · rw [hlog]
    exact List.mem_append_right _ (List.mem_filterMap.mpr ⟨s, hs, he⟩)
  · rw [hlog]
    exact List.subset_append_left _ _

theorem acquireFor_turned {b b' : Budget sh} {lane : String} {resource : Option String} {past : Bool}
    {answer : Except BudgetError Nat} (h : b.acquireFor lane resource past = .ok (answer, b')) :
    Turned b.next ((b.acquireForDispatches lane resource past).flatMap Budget.dispatchSelections) b' := by
  unfold Budget.acquireFor at h
  unfold Budget.acquireForDispatches
  cases hposition : sh.position lane with
  | none =>
    rw [hposition] at h
    cases h
    exact turned_nil b
  | some i =>
    rw [hposition] at h
    dsimp only at h ⊢
    split at h
    · next hclosed =>
      have hclosed : b.closed = true := hclosed
      cases h
      rw [hclosed]
      exact (turned_nil b).mono rfl (by simp [Budget.count, Budget.start])
    · next hopen =>
      have hopen : b.closed = false := Bool.eq_false_iff.mpr hopen
      split at h
      · next hpast =>
        cases h
        rw [hpast, Bool.or_true]
        exact (turned_nil b).mono rfl (by simp [Budget.count, Budget.start])
      · next hpast =>
        obtain ⟨d, hd, h⟩ := Exec.bind_ok_iff.mp h
        have hfirst := (dispatch_turned hd).1
        have hgo : ¬ (b.closed || past) = true := by simp [hopen, hpast]
        rw [if_neg hgo, hd]
        dsimp only
        split at h
        · next hcan =>
          cases h
          rw [if_pos hcan, List.flatMap_cons, List.flatMap_nil, List.append_nil]
          exact hfirst.mono rfl (List.subset_append_left _ _)
        · next hcan =>
          rw [if_neg hcan]
          split at h
          · next hfull =>
            cases h
            rw [if_pos hfull, List.flatMap_cons, List.flatMap_nil, List.append_nil]
            exact hfirst.mono rfl (List.subset_append_left _ _)
          · next hroom =>
            obtain ⟨d', hd', h⟩ := Exec.bind_ok_iff.mp h
            cases h
            obtain ⟨hsecond, hlog⟩ := dispatch_turned hd'
            rw [if_neg hroom, List.flatMap_cons, List.flatMap_cons, List.flatMap_nil, List.append_nil]
            exact hfirst.append hsecond (List.Subset.trans (List.subset_append_left d.log _) hlog)

theorem tryAcquireFor_turned {b b' : Budget sh} {lane : String} {resource : Option String} {past : Bool}
    {answer : Except BudgetError (Option Nat)} (h : b.tryAcquireFor lane resource past = .ok (answer, b')) :
    Turned b.next ((if (sh.position lane).isSome then [b] else []).flatMap Budget.dispatchSelections) b' := by
  unfold Budget.tryAcquireFor at h
  cases hposition : sh.position lane with
  | none =>
    rw [hposition] at h
    cases h
    exact turned_nil b
  | some i =>
    rw [hposition] at h
    obtain ⟨d, hd, h⟩ := Exec.bind_ok_iff.mp h
    have hfirst := (dispatch_turned hd).1
    rw [if_pos Option.isSome_some, List.flatMap_cons, List.flatMap_nil, List.append_nil]
    split at h
    · cases h
      exact hfirst.mono rfl (List.Subset.refl _)
    · cases h
      exact hfirst.mono rfl (by simp [Budget.register, Budget.grant, Budget.start])

theorem vacate_next {b b' : Budget sh} {i : sh.LaneIndex} {w : Waiter} {state : WaiterState}
    (h : b.vacate i w state = .ok b') : b'.next = b.next := by
  cases state with
  | queued =>
    obtain ⟨waiting, -, h⟩ := Exec.bind_ok_iff.mp h
    cases h
    rfl
  | granted =>
    obtain ⟨active, -, h⟩ := Exec.bind_ok_iff.mp h
    obtain ⟨laneActive, -, h⟩ := Exec.bind_ok_iff.mp h
    obtain ⟨resources, -, h⟩ := Exec.bind_ok_iff.mp h
    obtain ⟨pairs, -, h⟩ := Exec.bind_ok_iff.mp h
    cases h
    rfl
  | dropped | drained =>
    cases h
    rfl

theorem drop_turned {b b' : Budget sh} {r : Registration sh} {fallback : Outcome} (h : b.drop r fallback = .ok b') :
    Turned b.next ((b.dropDispatches r fallback).flatMap Budget.dispatchSelections) b' := by
  obtain ⟨d, hd, h⟩ := Exec.bind_ok_iff.mp h
  have hnext : d.next = (b.forget r.waiter.id).next := vacate_next hd
  change d.next = b.next at hnext
  unfold Budget.dropDispatches
  dsimp only
  rw [hd, ← hnext]
  dsimp only
  rw [List.flatMap_cons, List.flatMap_nil, List.append_nil]
  split at h
  · next hdrained =>
    rw [if_pos hdrained]
    exact (dispatch_turned h).1
  · next hlive =>
    rw [if_neg hlive]
    exact (dispatch_turned h).1

theorem drain_next (b : Budget sh) (i : sh.LaneIndex) : (b.drain i).next = b.next := by
  have hfold : ∀ (queue : List Waiter) (b : Budget sh), (queue.foldl (Budget.drainWaiter i) b).next = b.next := by
    intro queue
    induction queue with
    | nil => exact fun b => rfl
    | cons w queue ih => exact fun b => ih (b.drainWaiter i w)
  exact hfold _ b

theorem close_next (b : Budget sh) : b.close.next = b.next := by
  have hfold : ∀ (lanes : List sh.LaneIndex) (b : Budget sh), (lanes.foldl Budget.drain b).next = b.next := by
    intro lanes
    induction lanes with
    | nil => exact fun b => rfl
    | cons i lanes ih => exact fun b => (ih (b.drain i)).trans (drain_next b i)
  exact hfold _ { b with closed := true }

theorem poll_next (b : Budget sh) (r : Registration sh) (before past expired : Bool) :
    (b.poll r before past expired).next = b.next := by
  unfold Budget.poll
  split
  · rfl
  · split
    · rfl
    · split <;> rfl

theorem capLane_next (b : Budget sh) (lane : String) (limit : Nat) : (b.capLane lane limit).2.next = b.next := by
  unfold Budget.capLane
  split
  · rfl
  · split <;> rfl

/-- **The cursor moves with the selections of a step, and with nothing else.** -/
theorem step_turned {b b' : Budget sh} {op : Op} (h : step b op = .ok b') (hlog : b.log ⊆ b'.log) :
    Turned b.next (b.selections op) b' := by
  have hsame : b'.next = b.next → Turned b.next [] b' := fun hnext => (turned_nil b).mono hnext hlog
  cases op with
  | capLane lane limit =>
    cases h
    exact hsame (capLane_next b lane limit)
  | acquireFor lane resource past =>
    obtain ⟨⟨answer, d⟩, hd, h⟩ := Exec.bind_ok_iff.mp h
    cases h
    exact acquireFor_turned hd
  | poll id before past expired =>
    refine hsame ?_
    simp only [step] at h
    cases hfind : b.find id with
    | none =>
      rw [hfind] at h
      cases h
      rfl
    | some r =>
      rw [hfind] at h
      cases h
      split
      · exact poll_next b r before past expired
      · rfl
  | timeout id expired | finish id outcome =>
    refine hsame ?_
    simp only [step] at h
    cases hfind : b.find id with
    | none =>
      rw [hfind] at h
      cases h
      rfl
    | some r =>
      rw [hfind] at h
      cases h
      split <;> rfl
  | tryAcquireFor lane resource past =>
    obtain ⟨⟨answer, d⟩, hd, h⟩ := Exec.bind_ok_iff.mp h
    cases h
    exact tryAcquireFor_turned hd
  | drop id panicking context =>
    simp only [step] at h
    simp only [Budget.selections, Budget.dispatches]
    cases hfind : b.find id with
    | none =>
      rw [hfind] at h
      cases h
      exact turned_nil b
    | some r =>
      rw [hfind] at h
      exact drop_turned h
  | close =>
    cases h
    exact hsame (close_next b)

theorem Selects.run {b b' : Budget sh} {l : List (Selection sh)} (h : Selects sh b b' l) : Run sh b b' := by
  induction h with
  | refl => exact .refl _
  | snoc _ op hs ih => exact ih.snoc op hs

theorem Selects.turned {b b' : Budget sh} {l : List (Selection sh)} (h : Selects sh b b' l) (hgood : Good b) :
    Turned b.next l b' := by
  induction h with
  | refl => exact turned_nil _
  | snoc hrun op hs ih =>
    obtain ⟨-, hserves⟩ := ((Run.good hrun.run hgood).1).step hs
    have hlog := (Moves.log hserves.1).subset
    exact ih.append (step_turned hs hlog) hlog

/-! ## Round and round -/

theorem loopSelections_select : ∀ (fuel : Nat) {b : Budget sh}, ∀ s ∈ Budget.loopSelections fuel b,
    s.before.select = .some (s.lane, s.pos)
  | 0, _, s, h => by cases h
  | fuel + 1, b, s, h => by
    rw [Budget.loopSelections] at h
    split at h
    · cases hselect : b.select with
      | none =>
        rw [hselect] at h
        cases h
      | some selected =>
        rw [hselect] at h
        rcases List.mem_cons.mp h with rfl | h
        · exact hselect
        · split at h
          · exact loopSelections_select fuel s h
          · cases h
    · cases h

theorem Selects.select {b b' : Budget sh} {l : List (Selection sh)} (h : Selects sh b b' l) :
    ∀ s ∈ l, s.before.select = .some (s.lane, s.pos) := by
  induction h with
  | refl => exact fun s hs => (by cases hs)
  | snoc _ op hstep ih =>
    intro s hs
    rcases List.mem_append.mp hs with hs | hs
    · exact ih s hs
    · obtain ⟨d, -, hs⟩ := List.mem_flatMap.mp hs
      unfold Budget.dispatchSelections at hs
      split at hs
      · cases hs
      · exact loopSelections_select _ s hs

/-- How far round from the cursor a lane is. -/
def distance (next : Nat) (i : sh.LaneIndex) : Nat :=
  (i.val + (sh.names.length - next % sh.names.length)) % sh.names.length

theorem distance_lt (next : Nat) (i : sh.LaneIndex) : distance next i < sh.names.length := Nat.mod_lt _ i.pos

theorem mod_cases {a n : Nat} (h : a < 2 * n) : a % n = if a < n then a else a - n := by
  split
  · next hlt => exact Nat.mod_eq_of_lt hlt
  · next hge => rw [Nat.mod_eq_sub_mod (by omega), Nat.mod_eq_of_lt (by omega)]

theorem add_distance (next : Nat) (i : sh.LaneIndex) : (next + distance next i) % sh.names.length = i.val := by
  have hlt : next % sh.names.length < sh.names.length := Nat.mod_lt _ i.pos
  have hi := i.isLt
  rw [← Nat.mod_add_mod, distance, mod_cases (a := i.val + _) (by omega)]
  split <;> rw [mod_cases (by omega)] <;> split <;> omega

theorem distance_unique {next offset : Nat} {i : sh.LaneIndex} (hlt : offset < sh.names.length)
    (h : (next + offset) % sh.names.length = i.val) : distance next i = offset := by
  have hmod : next % sh.names.length < sh.names.length := Nat.mod_lt _ i.pos
  have hdist := distance_lt next i
  have hround := add_distance next i
  rw [← Nat.mod_add_mod, mod_cases (by omega)] at h hround
  split at h <;> split at hround <;> omega

/-- The lane selected is the first one round from the cursor that can be granted. -/
theorem select_first {b : Budget sh} {i : sh.LaneIndex} {pos : Nat} (h : b.select = .some (i, pos)) (j : sh.LaneIndex)
    (hj : distance b.next j < distance b.next i) : ∀ w ∈ (b.lanes j).queue, b.canGrant j w.resource = false := by
  obtain ⟨before, offset, after, hrange, hfound, hnone⟩ := List.findSome?_eq_some_iff.mp h
  obtain ⟨pos', -, heq⟩ := Option.map_eq_some_iff.mp hfound
  obtain ⟨hi, -⟩ := Prod.mk.inj heq
  have hoffset : distance b.next i = offset.val := distance_unique offset.isLt (congrArg Fin.val hi)
  have hmem : (⟨distance b.next j, distance_lt b.next j⟩ : sh.LaneIndex) ∈ before := by
    have hall := List.mem_finRange (⟨distance b.next j, distance_lt b.next j⟩ : sh.LaneIndex)
    have hsorted := List.pairwise_lt_finRange sh.names.length
    rw [hrange] at hall hsorted
    obtain ⟨-, hsorted, -⟩ := List.pairwise_append.mp hsorted
    rcases List.mem_append.mp hall with hbefore | hafter
    · exact hbefore
    · rcases List.mem_cons.mp hafter with heq | hafter
      · rw [← heq] at hoffset
        exact absurd hj (by rw [hoffset]; exact lt_irrefl _)
      · have hlt := (List.pairwise_cons.mp hsorted).1 _ hafter
        rw [Fin.lt_def, ← hoffset] at hlt
        exact absurd hj (Nat.not_lt.mpr hlt.le)
  have hj' : (⟨(b.next + distance b.next j) % sh.names.length, Nat.mod_lt _ j.pos⟩ : sh.LaneIndex) = j :=
    Fin.ext (add_distance b.next j)
  have hlane := hnone _ hmem
  simp only [Option.map_eq_none_iff, List.findIdx?_eq_none_iff] at hlane
  rw [hj'] at hlane
  exact hlane

/-- A lane that could have been granted and was not is nearer to the cursor than before. -/
theorem distance_decreases {b : Budget sh} {i j : sh.LaneIndex} {pos : Nat} (h : b.select = .some (i, pos))
    (hj : ∃ w ∈ (b.lanes j).queue, b.canGrant j w.resource = true) (hne : i ≠ j) :
    distance ((i.val + 1) % sh.names.length) j < distance b.next j := by
  obtain ⟨w, hw, hcan⟩ := hj
  have hle : distance b.next i ≤ distance b.next j := by
    by_contra hlt
    rw [select_first h j (not_le.mp hlt) w hw] at hcan
    cases hcan
  have hi := add_distance b.next i
  have hjr := add_distance b.next j
  have hi' := distance_lt b.next i
  have hj' := distance_lt b.next j
  have hmod : b.next % sh.names.length < sh.names.length := Nat.mod_lt _ i.pos
  have hneq : distance b.next i ≠ distance b.next j := by
    intro heq
    rw [heq] at hi
    exact hne (Fin.ext (hi.symm.trans hjr))
  have hunique : distance ((i.val + 1) % sh.names.length) j = distance b.next j - distance b.next i - 1 := by
    refine distance_unique (by omega) ?_
    rw [← hi, Nat.mod_add_mod, Nat.add_assoc, Nat.mod_add_mod]
    have hsum : b.next + distance b.next i + (1 + (distance b.next j - distance b.next i - 1)) =
        b.next + distance b.next j := by omega
    rw [hsum, hjr]
  omega

/-- While a lane has someone to grant and is not selected, its distance goes down with each selection. -/
theorem passed_over {j : sh.LaneIndex} : ∀ {next next' : Nat} {l : List (Selection sh)}, Linked next l next' →
    (∀ s ∈ l, s.before.select = .some (s.lane, s.pos)) →
    (∀ s ∈ l, ∃ w ∈ (s.before.lanes j).queue, s.before.canGrant j w.resource = true) → (∀ s ∈ l, s.lane ≠ j) →
    l ≠ [] → l.length ≤ distance next j
  | _, _, [], _, _, _, _, hne => absurd rfl hne
  | next, _, s :: l, hlinked, hselect, hready, hother, _ => by
    obtain ⟨rfl, hlinked⟩ := hlinked
    have hless := distance_decreases (hselect s List.mem_cons_self) (hready s List.mem_cons_self)
      (hother s List.mem_cons_self)
    cases l with
    | nil =>
      rw [List.length_singleton]
      omega
    | cons s' l =>
      have hrest := passed_over hlinked (fun s hs => hselect s (List.mem_cons_of_mem _ hs))
        (fun s hs => hready s (List.mem_cons_of_mem _ hs)) (fun s hs => hother s (List.mem_cons_of_mem _ hs))
        (List.cons_ne_nil _ _)
      rw [List.length_cons]
      omega

/-- **A lane that has someone to grant is passed over for less than one round.**
Among any as many consecutive grants of `dispatch` as there are lanes, one goes
to a lane that had someone to grant at each of them; and each grant goes to the
one queued first of those in its lane that can be granted. -/
theorem round_robin_bounds_bypass {b b' : Budget sh} {l : List (Selection sh)} (h : Reachable b)
    (hrun : Selects sh b b' l) :
    (∀ (i : sh.LaneIndex) (before round after : List (Selection sh)), l = before ++ round ++ after →
      round.length = sh.names.length →
      (∀ s ∈ round, ∃ w ∈ (s.before.lanes i).queue, s.before.canGrant i w.resource = true) →
      ∃ s ∈ round, s.lane = i) ∧
    ∀ s ∈ l, ∃ w, (s.before.lanes s.lane).queue[s.pos]? = .some w ∧ s.before.canGrant s.lane w.resource = true ∧
      (∀ w' ∈ (s.before.lanes s.lane).queue.take s.pos, s.before.canGrant s.lane w'.resource = false) ∧
      .granted w.id s.lane w.resource ∈ b'.log := by
  refine ⟨fun i before round after hl hlen hready => ?_, fun s hs => ?_⟩
  · by_contra hno
    rw [hl] at hrun
    obtain ⟨mid, hfirst, -⟩ := (hrun.turned h.good).1.of_append
    obtain ⟨next, -, hround⟩ := hfirst.of_append
    have hother : ∀ s ∈ round, s.lane ≠ i := fun s hs heq => hno ⟨s, hs, heq⟩
    have hne : round ≠ [] := by
      intro hnil
      rw [hnil] at hlen
      exact absurd i.pos (by rw [← hlen]; exact lt_irrefl _)
    have hle := passed_over hround (fun s hs => hrun.select s (by simp [hs])) hready hother hne
    have hlt := distance_lt next i
    omega
  · obtain ⟨w, hw, hcan, hfirst⟩ := select_some (hrun.select s hs)
    refine ⟨w, hw, hcan, hfirst, (hrun.turned h.good).2 s hs _ ?_⟩
    rw [Selection.event, Selection.waiter, hw]
    rfl

/-- One waits in each lane, and the places are given back in the order they were taken. -/
theorem bypass_twoLanes : ∃ (b' : Budget twoLanes) (l : List (Selection twoLanes)), l.map (·.lane.val) = [0, 1] ∧
    (∀ (i : twoLanes.LaneIndex) (before round after : List (Selection twoLanes)), l = before ++ round ++ after →
      round.length = twoLanes.names.length →
      (∀ s ∈ round, ∃ w ∈ (s.before.lanes i).queue, s.before.canGrant i w.resource = true) →
      ∃ s ∈ round, s.lane = i) ∧
    ∀ s ∈ l, ∃ w, (s.before.lanes s.lane).queue[s.pos]? = .some w ∧ s.before.canGrant s.lane w.resource = true ∧
      (∀ w' ∈ (s.before.lanes s.lane).queue.take s.pos, s.before.canGrant s.lane w'.resource = false) ∧
      .granted w.id s.lane w.resource ∈ b'.log := by
  refine ⟨_, _, ?_, round_robin_bounds_bypass (.refl _) (.snoc (.snoc (.snoc (.snoc (.snoc (.snoc (.refl _)
    (.acquireFor "a" .none false) rfl) (.acquireFor "b" .none false) rfl) (.acquireFor "a" .none false) rfl)
    (.acquireFor "b" .none false) rfl) (.drop 0 false .none) rfl) (.drop 1 false .none) rfl)⟩
  rfl

end Pillar.FairBudget
