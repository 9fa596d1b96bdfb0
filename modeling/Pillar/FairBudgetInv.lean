/-
The invariant of `FairBudget`: every counter is the count of the registrations
it stands for, no count is past its limit, every admission is accounted for
once, and grants follow the queue.

The live registrations, each with its lane, its waiter and the waiter's state
(`Budget.entries`), are the abstract ledger. Whatever the budget does to that
list is one of a few changes: an entry is added, changes state, or goes. Here
the counters and the history follow each of them.
-/
import Pillar.FairBudget

namespace Pillar.FairBudget

variable {sh : Shared}

/-- A live registration and the state of its waiter. -/
structure Entry (sh : Shared) where
  lane : sh.LaneIndex
  waiter : Waiter
  state : WaiterState
  deriving DecidableEq

def entriesOf (registrations : List (Registration sh)) (waiters : Nat → WaiterState) : List (Entry sh) :=
  registrations.map fun r => ⟨r.index, r.waiter, waiters r.waiter.id⟩

/-- An admission, by its waiter's address and its lane. -/
abbrev Admission (sh : Shared) := Nat × sh.LaneIndex

namespace Entry

/-- Waiting in lane `i`. -/
def isQueued (i : sh.LaneIndex) (e : Entry sh) : Bool := e.lane = i ∧ e.state = .queued

def admission (e : Entry sh) : Admission sh := (e.waiter.id, e.lane)

end Entry

namespace Event

/-- The admission an event starts. -/
def begun : Event sh → Option (Admission sh)
  | .started id i => .some (id, i)
  | .queued .. | .granted .. | .counted .. => .none

/-- The admission an event counts. -/
def ended : Event sh → Option (Admission sh)
  | .counted id i _ => .some (id, i)
  | .started .. | .queued .. | .granted .. => .none

def counts (i : sh.LaneIndex) (o : Outcome) : Event sh → Bool
  | .counted _ j o' => j = i ∧ o' = o
  | .started .. | .queued .. | .granted .. => false

def queuedFor (i : sh.LaneIndex) (resource : Option String) : Event sh → Option Nat
  | .queued id j r => if j = i ∧ r = resource then .some id else .none
  | .started .. | .granted .. | .counted .. => .none

def grantedTo (i : sh.LaneIndex) (resource : Option String) : Event sh → Option Nat
  | .granted id j r => if j = i ∧ r = resource then .some id else .none
  | .started .. | .queued .. | .counted .. => .none

end Event

namespace Budget

def entries (b : Budget sh) : List (Entry sh) := entriesOf b.registrations b.waiters

/-- The granted entries of a kind. -/
def granted (b : Budget sh) (p : Entry sh → Bool) : Nat := b.entries.countP fun e => e.state = .granted ∧ p e

/-- How many lanes have someone waiting. -/
def busy (b : Budget sh) : Nat := ∑ i, if (b.lanes i).queue = [] then 0 else 1

/-- The admissions started, counted, and neither dropped nor counted yet. -/
def begun (b : Budget sh) : List (Admission sh) := b.log.filterMap Event.begun
def ended (b : Budget sh) : List (Admission sh) := b.log.filterMap Event.ended
def pending (b : Budget sh) : List (Admission sh) :=
  (b.entries.filter fun e => e.state ≠ .drained).map Entry.admission

/-- The waiters queued in a lane for a resource, and those granted it, in the
order it happened. -/
def queuedFor (b : Budget sh) (i : sh.LaneIndex) (resource : Option String) : List Nat :=
  b.log.filterMap (Event.queuedFor i resource)
def grantedTo (b : Budget sh) (i : sh.LaneIndex) (resource : Option String) : List Nat :=
  b.log.filterMap (Event.grantedTo i resource)

/-- No one is kept waiting for a place that is free. -/
def Quiet (b : Budget sh) : Prop := ∀ i, ∀ w ∈ (b.lanes i).queue, b.canGrant i w.resource = false

end Budget

/-! ## The invariant

`owed` is the admission in hand, if any: started and not yet registered
(`queued`), or dropped and not yet counted (`dropped`). -/

/-- The registrations are in order of address, and none is dropped. -/
structure Registered (b : Budget sh) (owed : Option (Entry sh)) : Prop where
  sorted : b.registrations.Pairwise fun r r' => r.waiter.id < r'.waiter.id
  below : ∀ r ∈ b.registrations, r.waiter.id < b.fresh
  live : ∀ r ∈ b.registrations, b.waiters r.waiter.id ≠ .dropped
  inHand : ∀ e ∈ owed, e.state = .queued → e.waiter.id < b.fresh ∧ b.waiters e.waiter.id = .queued ∧
    ∀ r ∈ b.registrations, r.waiter.id < e.waiter.id

/-- The queues are the waiting entries, `waiting` counts them, and they are
within their bounds: past the shared limit, only by lanes' first waiters. -/
structure Queues (b : Budget sh) : Prop where
  queue : ∀ i, (b.lanes i).queue = (b.entries.filter (Entry.isQueued i)).map Entry.waiter
  waiting : b.waiting = b.queued
  laneQueue_le : ∀ i, (b.lanes i).queue.length ≤ sh.limits.perLaneWaiting
  queued_zero : sh.limits.waiting = 0 → b.queued = 0
  queued_le : b.queued ≤ sh.limits.waiting + b.busy - 1

/-- The counters of permits count the granted entries, within their limits. -/
structure Grants (b : Budget sh) : Prop where
  active : b.active = b.granted fun _ => true
  lane : ∀ i, (b.lanes i).active = b.granted fun e => e.lane = i
  resource : ∀ k, (b.resourceActive k).getD 0 = b.granted fun e => e.waiter.resource = .some k
  laneResource : sh.laneResourceLimit.isSome → ∀ i k,
    (b.laneResourceActive i k).getD 0 = b.granted fun e => e.lane = i ∧ e.waiter.resource = .some k
  active_le : b.active ≤ sh.limits.active
  lane_le : ∀ i, (b.lanes i).active ≤ (b.lanes i).limit
  resource_le : ∀ k, (b.resourceActive k).getD 0 ≤ sh.resourceLimit
  laneResource_le : ∀ limit ∈ sh.laneResourceLimit, ∀ i k, (b.laneResourceActive i k).getD 0 ≤ limit

/-- Every admission started is counted, pending or in hand, and only one of
these; the counters are the history's. -/
structure Accounts (b : Budget sh) (owed : Option (Entry sh)) : Prop where
  ids : b.begun.map Prod.fst = List.range b.fresh
  balance : b.begun.Perm (b.ended ++ b.pending ++ owed.toList.map Entry.admission)
  started : ∀ i, b.started i = b.begun.countP (·.2 = i)
  outcomes : ∀ i o, b.outcomes i o = b.log.countP (Event.counts i o)

/-- Grants for one lane and resource follow the order of arrival. -/
structure Ordered (b : Budget sh) (owed : Option (Entry sh)) : Prop where
  queued : ∀ i r, (b.queuedFor i r).Pairwise (· < ·)
  granted : ∀ i r, (b.grantedTo i r).Pairwise (· < ·)
  logged : ∀ e ∈ b.entries, e.state = .queued → e.waiter.id ∈ b.queuedFor e.lane e.waiter.resource
  ahead : ∀ e ∈ b.entries, e.state = .queued → ∀ id ∈ b.grantedTo e.lane e.waiter.resource, id < e.waiter.id
  below : ∀ i r, ∀ id ∈ b.queuedFor i r ++ b.grantedTo i r, id < b.fresh
  inHand : ∀ e ∈ owed, e.state = .queued → ∀ i r, ∀ id ∈ b.queuedFor i r ++ b.grantedTo i r, id < e.waiter.id

structure Inv (b : Budget sh) (owed : Option (Entry sh)) : Prop where
  registered : Registered b owed
  queues : Queues b
  grants : Grants b
  accounts : Accounts b owed
  ordered : Ordered b owed

/-! ## The ledger -/

/-- One registration among the others, the waiters of which are not its own. -/
theorem entries_split {b : Budget sh} (hs : b.registrations.Pairwise fun r r' => r.waiter.id < r'.waiter.id)
    {r : Registration sh} (hr : r ∈ b.registrations) : ∃ l₁ l₂ : List (Entry sh),
      b.entries = l₁ ++ ⟨r.index, r.waiter, b.waiters r.waiter.id⟩ :: l₂ ∧
      (∀ e ∈ l₁ ++ l₂, e.waiter.id ≠ r.waiter.id) ∧
      (∀ s, entriesOf b.registrations (Function.update b.waiters r.waiter.id s) =
        l₁ ++ ⟨r.index, r.waiter, s⟩ :: l₂) ∧
      ∀ s, entriesOf (b.registrations.filter (·.waiter.id ≠ r.waiter.id))
        (Function.update b.waiters r.waiter.id s) = l₁ ++ l₂ := by
  obtain ⟨a, c, hac⟩ := List.append_of_mem hr
  rw [hac, List.pairwise_append, List.pairwise_cons] at hs
  obtain ⟨-, ⟨hc, -⟩, hcross⟩ := hs
  have hna : ∀ r' ∈ a, r'.waiter.id ≠ r.waiter.id := fun r' hr' => (hcross r' hr' r List.mem_cons_self).ne
  have hnc : ∀ r' ∈ c, r'.waiter.id ≠ r.waiter.id := fun r' hr' => (hc r' hr').ne'
  have hkeep : ∀ l : List (Registration sh), (∀ r' ∈ l, r'.waiter.id ≠ r.waiter.id) → ∀ s,
      entriesOf l (Function.update b.waiters r.waiter.id s) = entriesOf l b.waiters := fun l hl s =>
    List.map_congr_left fun r' hr' => by rw [Function.update_of_ne (hl r' hr')]
  have hfilter : ∀ l : List (Registration sh), (∀ r' ∈ l, r'.waiter.id ≠ r.waiter.id) →
      l.filter (·.waiter.id ≠ r.waiter.id) = l := fun l hl =>
    List.filter_eq_self.mpr fun r' hr' => by simpa using hl r' hr'
  refine ⟨entriesOf a b.waiters, entriesOf c b.waiters, ?_, fun e he => ?_, fun s => ?_, fun s => ?_⟩
  · rw [Budget.entries, hac]
    simp [entriesOf]
  · rw [entriesOf, entriesOf, ← List.map_append, List.mem_map] at he
    obtain ⟨r', hr', rfl⟩ := he
    exact (List.mem_append.mp hr').elim (hna r') (hnc r')
  · rw [hac, ← hkeep a hna s, ← hkeep c hnc s]
    simp [entriesOf]
  · rw [hac, List.filter_append, List.filter_cons_of_neg (by simp), hfilter a hna, hfilter c hnc,
      ← hkeep a hna s, ← hkeep c hnc s]
    simp [entriesOf]

/-- A waiter with a new address: no entry is its own. -/
theorem entriesOf_update_of_below {registrations : List (Registration sh)} {waiters : Nat → WaiterState} {id : Nat}
    (h : ∀ r ∈ registrations, r.waiter.id < id) (s : WaiterState) :
    entriesOf registrations (Function.update waiters id s) = entriesOf registrations waiters :=
  List.map_congr_left fun r hr => by rw [Function.update_of_ne (h r hr).ne]

theorem mem_entries {b : Budget sh} {e : Entry sh} :
    e ∈ b.entries ↔ ∃ r ∈ b.registrations, e = ⟨r.index, r.waiter, b.waiters r.waiter.id⟩ := by
  simp [Budget.entries, entriesOf, eq_comm]

/-- Who waits in a lane is registered there. -/
theorem Queues.registration {b : Budget sh} (h : Queues b) {i : sh.LaneIndex} {w : Waiter}
    (hw : w ∈ (b.lanes i).queue) : ∃ r ∈ b.registrations, r.index = i ∧ r.waiter = w ∧ b.waiters w.id = .queued := by
  rw [h.queue i] at hw
  obtain ⟨e, he, rfl⟩ := List.mem_map.mp hw
  obtain ⟨hmem, hq⟩ := List.mem_filter.mp he
  obtain ⟨r, hr, rfl⟩ := mem_entries.mp hmem
  simp only [Entry.isQueued, Bool.decide_and, Bool.and_eq_true, decide_eq_true_eq] at hq
  exact ⟨r, hr, hq.1, rfl, hq.2⟩

/-- One lane changes: what a sum over the lanes becomes. -/
theorem sum_update {α : Type} (lanes : sh.LaneIndex → α) (i : sh.LaneIndex) (l : α) (f : α → Nat) :
    ∑ j, f (Function.update lanes i l j) + f (lanes i) = ∑ j, f (lanes j) + f l := by
  have h : ∀ g : sh.LaneIndex → Nat, ∑ j, g j = g i + ∑ j ∈ Finset.univ.erase i, g j := fun g =>
    (Finset.add_sum_erase _ g (Finset.mem_univ i)).symm
  have hrest : ∑ j ∈ Finset.univ.erase i, f (Function.update lanes i l j) =
      ∑ j ∈ Finset.univ.erase i, f (lanes j) :=
    Finset.sum_congr rfl fun j hj => by rw [Function.update_of_ne (Finset.ne_of_mem_erase hj)]
  rw [h fun j => f (Function.update lanes i l j), h fun j => f (lanes j), hrest, Function.update_self]
  omega

/-! ## What each change leaves alone -/

section Fields

variable (b : Budget sh) (i j : sh.LaneIndex) (w : Waiter)

@[simp] theorem grant_active : (b.grant i w).active = b.active + 1 := rfl
@[simp] theorem grant_waiting : (b.grant i w).waiting = b.waiting := rfl
@[simp] theorem grant_closed : (b.grant i w).closed = b.closed := rfl
@[simp] theorem grant_started : (b.grant i w).started = b.started := rfl
@[simp] theorem grant_outcomes : (b.grant i w).outcomes = b.outcomes := rfl
@[simp] theorem grant_fresh : (b.grant i w).fresh = b.fresh := rfl
@[simp] theorem grant_entries : (b.grant i w).entries =
    entriesOf b.registrations (Function.update b.waiters w.id .granted) := rfl

@[simp] theorem grant_laneActive :
    ((b.grant i w).lanes j).active = (b.lanes j).active + if i = j then 1 else 0 := by
  by_cases h : i = j
  · subst h
    simp [Budget.grant]
  · simp [Budget.grant, h, Function.update_of_ne (Ne.symm h)]

@[simp] theorem grant_limit : ((b.grant i w).lanes j).limit = (b.lanes j).limit := by
  by_cases h : j = i
  · subst h
    simp [Budget.grant]
  · simp [Budget.grant, Function.update_of_ne h]

@[simp] theorem grant_queue : ((b.grant i w).lanes j).queue = (b.lanes j).queue := by
  by_cases h : j = i
  · subst h
    simp [Budget.grant]
  · simp [Budget.grant, Function.update_of_ne h]

end Fields

/-! ## Counters -/

theorem bump_getD (map : String → Option Nat) (key k : String) :
    (Budget.bump map key k).getD 0 = (map k).getD 0 + if k = key then 1 else 0 := by
  unfold Budget.bump
  by_cases hk : k = key
  · subst hk
    simp
  · simp [hk]

theorem release_spec {map : String → Option Nat} {key : String} (h : 0 < (map key).getD 0) :
    ∃ map', Budget.release map key = .ok map' ∧
      ∀ k, (map' k).getD 0 + (if k = key then 1 else 0) = (map k).getD 0 := by
  cases hm : map key with
  | none => simp [hm] at h
  | some n =>
    rw [hm, Option.getD_some] at h
    refine ⟨_, by simp only [Budget.release, hm, Exec.sub_of_le h]; rfl, fun k => ?_⟩
    by_cases hk : k = key
    · subst hk
      by_cases hn : n - 1 = 0
      · simp [hn, hm]; omega
      · simp [hn, hm]; omega
    · simp [hk]

theorem canGrant_iff {b : Budget sh} {i : sh.LaneIndex} {resource : Option String} :
    b.canGrant i resource = true ↔ b.active < sh.limits.active ∧ (b.lanes i).active < (b.lanes i).limit ∧
      ∀ k ∈ resource, (b.resourceActive k).getD 0 < sh.resourceLimit ∧
        ∀ limit ∈ sh.laneResourceLimit, (b.laneResourceActive i k).getD 0 < limit := by
  cases resource <;> cases h : sh.laneResourceLimit <;>
    simp [Budget.canGrant, h, and_assoc]

/-- An entry that becomes granted is one more of its kinds. -/
theorem granted_of_set {b b' : Budget sh} {l₁ l₂ : List (Entry sh)} {e : Entry sh} (h : b.entries = l₁ ++ e :: l₂)
    (h' : b'.entries = l₁ ++ { e with state := .granted } :: l₂) (he : e.state ≠ .granted) (p : Entry sh → Bool) :
    b'.granted p = b.granted p + if p { e with state := .granted } then 1 else 0 := by
  simp only [Budget.granted, h, h', List.countP_append, List.countP_cons]
  simp [he]
  omega

/-- A granted entry that goes is one fewer. -/
theorem granted_of_remove {b b' : Budget sh} {l₁ l₂ : List (Entry sh)} {e : Entry sh} (h : b.entries = l₁ ++ e :: l₂)
    (h' : b'.entries = l₁ ++ l₂) (he : e.state = .granted) (p : Entry sh → Bool) :
    b'.granted p + (if p e then 1 else 0) = b.granted p := by
  simp only [Budget.granted, h, h', List.countP_append, List.countP_cons]
  simp [he]
  omega

theorem grant_resourceActive (b : Budget sh) (i : sh.LaneIndex) (w : Waiter) (k : String) :
    ((b.grant i w).resourceActive k).getD 0 =
      (b.resourceActive k).getD 0 + if w.resource = .some k then 1 else 0 := by
  unfold Budget.grant
  cases hw : w.resource with
  | none => simp
  | some key => simp [bump_getD, eq_comm]

theorem grant_laneResourceActive (b : Budget sh) (i : sh.LaneIndex) (w : Waiter)
    (hs : sh.laneResourceLimit.isSome) (j : sh.LaneIndex) (k : String) :
    ((b.grant i w).laneResourceActive j k).getD 0 =
      (b.laneResourceActive j k).getD 0 + if i = j ∧ w.resource = .some k then 1 else 0 := by
  obtain ⟨limit, hlimit⟩ := Option.isSome_iff_exists.mp hs
  unfold Budget.grant
  cases hw : w.resource with
  | none => simp
  | some key =>
    by_cases hj : i = j
    · subst hj
      simp [hlimit, bump_getD, eq_comm]
    · simp [hlimit, hj, Function.update_of_ne (Ne.symm hj)]

theorem Grants.grant {b : Budget sh} {i : sh.LaneIndex} {w : Waiter} (h : Grants b)
    (hc : b.canGrant i w.resource = true)
    (ht : ∀ p, (b.grant i w).granted p = b.granted p + if p ⟨i, w, .granted⟩ then 1 else 0) :
    Grants (b.grant i w) := by
  obtain ⟨hact, hlane, hres⟩ := canGrant_iff.mp hc
  have hr := grant_resourceActive b i w
  have hlr := grant_laneResourceActive b i w
  refine ⟨?_, fun j => ?_, fun k => ?_, fun hs j k => ?_, ?_, fun j => ?_, fun k => ?_, fun limit hlimit j k => ?_⟩
  · simp [ht, h.active]
  · simp [ht, h.lane]
  · simp [hr, ht, h.resource]
  · simp [hlr hs, ht, h.laneResource hs]
  · simpa using hact
  · simp only [grant_laneActive, grant_limit]
    have := h.lane_le j
    split
    · next hj => subst hj; omega
    · omega
  · rw [hr]
    have := h.resource_le k
    split
    · next hk =>
      have := (hres k hk).1
      omega
    · omega
  · have hs : sh.laneResourceLimit.isSome := Option.isSome_iff_exists.mpr ⟨limit, hlimit⟩
    rw [hlr hs]
    have := h.laneResource_le limit hlimit j k
    split
    · next hk =>
      obtain ⟨rfl, hk⟩ := hk
      have := (hres k hk).2 limit hlimit
      omega
    · omega

/-- Counters and granted entries as they were. -/
theorem Grants.congr {b b' : Budget sh} (h : Grants b) (ha : b'.active = b.active)
    (hl : ∀ i, (b'.lanes i).active = (b.lanes i).active ∧ (b'.lanes i).limit = (b.lanes i).limit)
    (hr : b'.resourceActive = b.resourceActive) (hlr : b'.laneResourceActive = b.laneResourceActive)
    (hg : ∀ p, b'.granted p = b.granted p) : Grants b' := by
  refine ⟨?_, fun i => ?_, fun k => ?_, fun hs i k => ?_, ?_, fun i => ?_, fun k => ?_, fun n hn i k => ?_⟩
  · rw [ha, hg, h.active]
  · rw [(hl i).1, hg, h.lane]
  · rw [hr, hg, h.resource]
  · rw [hlr, hg, h.laneResource hs]
  · rw [ha]; exact h.active_le
  · rw [(hl i).1, (hl i).2]; exact h.lane_le i
  · rw [hr]; exact h.resource_le k
  · rw [hlr]; exact h.laneResource_le n hn i k

theorem releaseKey_spec (map : String → Option Nat) (resource : Option String)
    (h : ∀ key ∈ resource, 0 < (map key).getD 0) :
    ∃ map', Budget.releaseKey map resource = .ok map' ∧
      ∀ k, (map' k).getD 0 + (if resource = .some k then 1 else 0) = (map k).getD 0 := by
  cases resource with
  | none => exact ⟨map, rfl, by simp⟩
  | some key =>
    obtain ⟨map', hm, hk⟩ := release_spec (h key rfl)
    exact ⟨map', hm, fun k => by simpa [eq_comm] using hk k⟩

/-- **A granted entry that goes gives its place back**, and no counter is below
what is taken from it. -/
theorem Grants.ungrant {b b₀ : Budget sh} {l₁ l₂ : List (Entry sh)} {i : sh.LaneIndex} {w : Waiter} (h : Grants b)
    (he : b.entries = l₁ ++ ⟨i, w, .granted⟩ :: l₂) (he₀ : b₀.entries = l₁ ++ l₂)
    (ha : b₀.active = b.active) (hl : b₀.lanes = b.lanes) (hr : b₀.resourceActive = b.resourceActive)
    (hlr : b₀.laneResourceActive = b.laneResourceActive) :
    ∃ active laneActive resourceActive pairs, b₀.ungrant i w = .ok { b₀ with
        active
        lanes := Function.update b₀.lanes i { b₀.lanes i with active := laneActive }
        resourceActive
        laneResourceActive := Function.update b₀.laneResourceActive i pairs } ∧
      laneActive + 1 = (b₀.lanes i).active ∧
      Grants { b₀ with
        active
        lanes := Function.update b₀.lanes i { b₀.lanes i with active := laneActive }
        resourceActive
        laneResourceActive := Function.update b₀.laneResourceActive i pairs } := by
  have ht := granted_of_remove he he₀ rfl
  have hact : 0 < b₀.active := by
    have := ht fun _ => true
    simp only [if_true] at this
    rw [ha, h.active]; omega
  have hlane : 0 < (b₀.lanes i).active := by
    have := ht fun e => e.lane = i
    simp only [decide_true, if_true] at this
    rw [hl, h.lane]; omega
  obtain ⟨resourceActive, hra, hrk⟩ := releaseKey_spec b₀.resourceActive w.resource
    fun key hk => by
      have := ht fun e => e.waiter.resource = .some key
      simp only [Option.mem_def.mp hk, decide_true, if_true] at this
      rw [hr, h.resource]; omega
  obtain ⟨pairs, hpa, hpk⟩ := releaseKey_spec (b₀.laneResourceActive i)
    (if sh.laneResourceLimit.isSome then w.resource else .none) fun key hk => by
      split at hk
      · next hs =>
        have := ht fun e => e.lane = i ∧ e.waiter.resource = .some key
        simp only [Option.mem_def.mp hk, and_self, decide_true, if_true] at this
        rw [hlr, h.laneResource hs]; omega
      · cases hk
  refine ⟨b₀.active - 1, (b₀.lanes i).active - 1, resourceActive, pairs, ?_, by omega, ?_⟩
  · simp only [Budget.ungrant, Exec.sub_of_le hact, Exec.sub_of_le hlane, hra, hpa, Exec.ok_bind, Exec.pure_eq_ok]
  have hg : ∀ p, Budget.granted { b₀ with
        active := b₀.active - 1
        lanes := Function.update b₀.lanes i { b₀.lanes i with active := (b₀.lanes i).active - 1 }
        resourceActive
        laneResourceActive := Function.update b₀.laneResourceActive i pairs } p = b₀.granted p := fun _ => rfl
  refine ⟨?_, fun j => ?_, fun k => ?_, fun hs j k => ?_, ?_, fun j => ?_, fun k => ?_, fun n hn j k => ?_⟩
  · have := ht fun _ => true
    simp only [if_true] at this
    rw [hg]
    show b₀.active - 1 = _
    rw [ha, h.active]
    omega
  · rw [hg]
    have := ht fun e => e.lane = j
    by_cases hj : j = i
    · subst hj
      simp only [decide_true, if_true] at this
      simp only [Function.update_self, hl, h.lane]
      omega
    · simp only [Ne.symm hj, decide_false, Bool.false_eq_true, if_false] at this
      simp only [Function.update_of_ne hj, hl, h.lane]
      omega
  · rw [hg]
    have := ht fun e => e.waiter.resource = .some k
    have hk := hrk k
    rw [hr, h.resource] at hk
    simp only [decide_eq_true_eq] at this
    show (resourceActive k).getD 0 = _
    omega
  · rw [hg]
    have := ht fun e => e.lane = j ∧ e.waiter.resource = .some k
    by_cases hj : j = i
    · subst hj
      have hk := hpk k
      rw [hlr, h.laneResource hs, if_pos hs] at hk
      simp only [true_and, decide_eq_true_eq] at this
      simp only [Function.update_self]
      omega
    · simp only [Ne.symm hj, false_and, decide_false, Bool.false_eq_true, if_false] at this
      simp only [Function.update_of_ne hj, hlr, h.laneResource hs]
      omega
  · have := h.active_le
    simp only
    omega
  · have := h.lane_le j
    by_cases hj : j = i
    · subst hj
      simp only [Function.update_self, hl]
      omega
    · simpa only [Function.update_of_ne hj, hl] using this
  · have := h.resource_le k
    have hk := hrk k
    rw [hr] at hk
    simp only
    omega
  · have := h.laneResource_le n hn j k
    by_cases hj : j = i
    · subst hj
      have hk := hpk k
      rw [hlr] at hk
      simp only [Function.update_self]
      omega
    · simpa only [Function.update_of_ne hj, hlr] using this

/-! ## Registrations -/

theorem Registered.set {b b' : Budget sh} {owed : Option (Entry sh)} (h : Registered b owed) {r : Registration sh}
    (hr : r ∈ b.registrations) {s : WaiterState} (hs : s ≠ .dropped) (hreg : b'.registrations = b.registrations)
    (hw : b'.waiters = Function.update b.waiters r.waiter.id s) (hf : b'.fresh = b.fresh) : Registered b' owed := by
  refine ⟨hreg ▸ h.sorted, by rw [hreg, hf]; exact h.below, fun r' hr' => ?_, fun e he hq => ?_⟩
  · rw [hreg] at hr'
    rw [hw]
    by_cases hid : r'.waiter.id = r.waiter.id
    · rwa [hid, Function.update_self]
    · rw [Function.update_of_ne hid]
      exact h.live r' hr'
  · obtain ⟨h1, h2, h3⟩ := h.inHand e he hq
    rw [hw, hf, hreg, Function.update_of_ne (h3 r hr).ne']
    exact ⟨h1, h2, h3⟩

theorem Registered.forget {b b' : Budget sh} (h : Registered b .none) (id : Nat) {owed : Option (Entry sh)}
    (ho : ∀ e ∈ owed, e.state ≠ .queued) (hreg : b'.registrations = b.registrations.filter (·.waiter.id ≠ id))
    (hw : b'.waiters = Function.update b.waiters id .dropped) (hf : b'.fresh = b.fresh) : Registered b' owed := by
  have hmem : ∀ r ∈ b'.registrations, r ∈ b.registrations ∧ r.waiter.id ≠ id := fun r hr => by
    simpa [hreg] using hr
  refine ⟨?_, fun r hr => ?_, fun r hr => ?_, fun e he hq => absurd hq (ho e he)⟩
  · rw [hreg]
    exact h.sorted.sublist List.filter_sublist
  · rw [hf]
    exact h.below r (hmem r hr).1
  · rw [hw, Function.update_of_ne (hmem r hr).2]
    exact h.live r (hmem r hr).1

/-- The admission in hand is registered, after all the others. -/
theorem Registered.register {b b' : Budget sh} {i : sh.LaneIndex} {w : Waiter} {r : Registration sh}
    (h : Registered b (.some ⟨i, w, .queued⟩)) (hr : r.waiter = w) (hlive : b'.waiters w.id ≠ .dropped)
    (hreg : b'.registrations = b.registrations ++ [r]) (hw : ∀ id, id ≠ w.id → b'.waiters id = b.waiters id)
    (hf : b'.fresh = b.fresh) : Registered b' .none := by
  obtain ⟨h1, -, h3⟩ := h.inHand _ rfl rfl
  refine ⟨?_, fun r' hr' => ?_, fun r' hr' => ?_, by simp⟩
  · rw [hreg, List.pairwise_append]
    exact ⟨h.sorted, by simp, fun r' hr' r'' hr'' => by
      rw [List.mem_singleton.mp hr'', hr]
      exact h3 r' hr'⟩
  · rw [hf]
    rw [hreg, List.mem_append, List.mem_singleton] at hr'
    rcases hr' with hr' | rfl
    · exact h.below r' hr'
    · rw [hr]
      exact h1
  · rw [hreg, List.mem_append, List.mem_singleton] at hr'
    rcases hr' with hr' | rfl
    · rw [hw _ (h3 r' hr').ne]
      exact h.live r' hr'
    · rwa [hr]

/-- Nothing of the registrations but what their callers keep. -/
theorem Registered.congr {b b' : Budget sh} {owed owed' : Option (Entry sh)} (h : Registered b owed)
    (hreg : b'.registrations = b.registrations) (hw : b'.waiters = b.waiters) (hf : b'.fresh = b.fresh)
    (ho : ∀ e ∈ owed', e ∈ owed) : Registered b' owed' := by
  refine ⟨hreg ▸ h.sorted, by rw [hreg, hf]; exact h.below, by rw [hreg, hw]; exact h.live, fun e he hq => ?_⟩
  rw [hreg, hw, hf]
  exact h.inHand e (ho e he) hq

theorem Registered.start {b : Budget sh} (h : Registered b .none) (i : sh.LaneIndex) (resource : Option String) :
    Registered (b.start i) (.some ⟨i, ⟨b.fresh, resource⟩, .queued⟩) := by
  refine ⟨h.sorted, fun r hr => Nat.lt_succ_of_lt (h.below r hr), fun r hr => ?_, fun e he _ => ?_⟩
  · show Function.update b.waiters b.fresh .queued r.waiter.id ≠ .dropped
    rw [Function.update_of_ne (h.below r hr).ne]
    exact h.live r hr
  · obtain rfl := Option.some.inj he
    exact ⟨Nat.lt_succ_self _, Function.update_self .., h.below⟩

theorem Registered.update {b : Budget sh} (h : Registered b .none) (id : Nat) (phase : Phase)
    (outcome : Option Outcome) : Registered (b.update id phase outcome) .none := by
  have hw : ∀ r : Registration sh, (if r.waiter.id = id then { r with phase, outcome } else r).waiter = r.waiter :=
    fun r => by split <;> rfl
  refine ⟨?_, fun r hr => ?_, fun r hr => ?_, by simp⟩
  · rw [Budget.update, List.pairwise_map]
    exact h.sorted.imp fun hlt => by simpa only [hw] using hlt
  all_goals
    obtain ⟨r', hr', rfl⟩ := List.mem_map.mp hr
    rw [hw]
  · exact h.below r' hr'
  · exact h.live r' hr'

theorem entries_update (b : Budget sh) (id : Nat) (phase : Phase) (outcome : Option Outcome) :
    (b.update id phase outcome).entries = b.entries := by
  rw [Budget.entries, entriesOf, Budget.update, List.map_map]
  refine List.map_congr_left fun r _ => ?_
  simp only [Function.comp]
  split <;> rfl

/-! ## Queues -/

/-- Queues and waiting entries as they were. -/
theorem Queues.congr {b b' : Budget sh} (h : Queues b) (hl : ∀ i, (b'.lanes i).queue = (b.lanes i).queue)
    (hw : b'.waiting = b.waiting)
    (he : ∀ i, b'.entries.filter (Entry.isQueued i) = b.entries.filter (Entry.isQueued i)) :
    Queues b' := by
  have hq : b'.queued = b.queued := by simp only [Budget.queued, hl]
  have hb : b'.busy = b.busy := by simp only [Budget.busy, hl]
  refine ⟨fun i => ?_, ?_, fun i => ?_, fun hz => ?_, ?_⟩
  · rw [hl, he]; exact h.queue i
  · rw [hw, hq]; exact h.waiting
  · rw [hl]; exact h.laneQueue_le i
  · rw [hq]; exact h.queued_zero hz
  · rw [hq, hb]; exact h.queued_le

/-- One lane's queue changes. -/
theorem queued_update {b b' : Budget sh} {i : sh.LaneIndex} {queue : List Waiter}
    (hl : (fun j => (b'.lanes j).queue) = Function.update (fun j => (b.lanes j).queue) i queue) :
    b'.queued + (b.lanes i).queue.length = b.queued + queue.length := by
  have := sum_update (fun j => (b.lanes j).queue) i queue List.length
  rwa [← hl] at this

theorem busy_update {b b' : Budget sh} {i : sh.LaneIndex} {queue : List Waiter}
    (hl : (fun j => (b'.lanes j).queue) = Function.update (fun j => (b.lanes j).queue) i queue) :
    b'.busy + (if (b.lanes i).queue = [] then 0 else 1) = b.busy + if queue = [] then 0 else 1 := by
  have := sum_update (fun j => (b.lanes j).queue) i queue fun q => if q = [] then 0 else 1
  rwa [← hl] at this

/-- The queues once lane `i`'s is another. -/
theorem queue_update (lanes : sh.LaneIndex → Lane) (i : sh.LaneIndex) (l : Lane) :
    (fun j => (Function.update lanes i l j).queue) = Function.update (fun j => (lanes j).queue) i l.queue := by
  funext j
  by_cases hj : j = i
  · subst hj
    simp
  · simp [hj]

theorem one_le_busy {b : Budget sh} {i : sh.LaneIndex} (h : (b.lanes i).queue ≠ []) : 1 ≤ b.busy := by
  have := Finset.single_le_sum (f := fun i => if (b.lanes i).queue = [] then 0 else 1)
    (fun _ _ => Nat.zero_le _) (Finset.mem_univ i)
  rwa [if_neg h] at this

/-- Who waits is in the queue once: without it, the queue is that of the others. -/
theorem Queues.without {b : Budget sh} (h : Queues b) {l₁ l₂ : List (Entry sh)} {i : sh.LaneIndex} {w : Waiter}
    (he : b.entries = l₁ ++ ⟨i, w, .queued⟩ :: l₂) (hne : ∀ e ∈ l₁ ++ l₂, e.waiter.id ≠ w.id) :
    (b.lanes i).queue.filter (·.id ≠ w.id) = ((l₁ ++ l₂).filter (Entry.isQueued i)).map Entry.waiter ∧
      (b.lanes i).queue.length = ((b.lanes i).queue.filter (·.id ≠ w.id)).length + 1 := by
  have hkeep : ∀ l : List (Entry sh), (∀ e ∈ l, e.waiter.id ≠ w.id) →
      ((l.filter (Entry.isQueued i)).map Entry.waiter).filter (·.id ≠ w.id) =
        (l.filter (Entry.isQueued i)).map Entry.waiter := fun l hl =>
    List.filter_eq_self.mpr fun w' hw' => by
      obtain ⟨e, hmem, rfl⟩ := List.mem_map.mp hw'
      simpa using hl e (List.mem_filter.mp hmem).1
  have hq : (b.lanes i).queue = (l₁.filter (Entry.isQueued i)).map Entry.waiter ++
      w :: (l₂.filter (Entry.isQueued i)).map Entry.waiter := by
    rw [h.queue i, he, List.filter_append, List.filter_cons_of_pos (by simp [Entry.isQueued]), List.map_append,
      List.map_cons]
  have hf : (b.lanes i).queue.filter (·.id ≠ w.id) =
      ((l₁ ++ l₂).filter (Entry.isQueued i)).map Entry.waiter := by
    rw [hq, List.filter_append, List.filter_cons_of_neg (by simp),
      hkeep l₁ fun e he => hne e (List.mem_append_left _ he),
      hkeep l₂ fun e he => hne e (List.mem_append_right _ he), List.filter_append, List.map_append]
  refine ⟨hf, ?_⟩
  rw [hf, hq]
  simp only [List.filter_append, List.map_append, List.length_append, List.length_cons]
  omega

/-- **A waiter leaves its queue**, and `waiting` is not below what is taken from it. -/
theorem Queues.leave {b b' : Budget sh} (h : Queues b) {l₁ l₂ : List (Entry sh)} {i : sh.LaneIndex} {w : Waiter}
    (he : b.entries = l₁ ++ ⟨i, w, .queued⟩ :: l₂) (hne : ∀ e ∈ l₁ ++ l₂, e.waiter.id ≠ w.id)
    (he' : ∀ j, b'.entries.filter (Entry.isQueued j) = (l₁ ++ l₂).filter (Entry.isQueued j))
    (hl : (fun j => (b'.lanes j).queue) =
      Function.update (fun j => (b.lanes j).queue) i ((b.lanes i).queue.filter (·.id ≠ w.id)))
    (hw : b'.waiting = b.waiting - 1) : 0 < b.waiting ∧ Queues b' := by
  obtain ⟨hf, hlen⟩ := h.without he hne
  have hqd := queued_update hl
  have hbusy := busy_update hl
  have hle := h.queued_le
  have hz := h.queued_zero
  have hwq := h.waiting
  have hlane : ∀ j, (b'.lanes j).queue = _ := fun j => congrFun hl j
  have hne' : (b.lanes i).queue ≠ [] := by
    intro hnil
    rw [hnil] at hlen
    simp at hlen
  rw [if_neg hne'] at hbusy
  have hb1 : b'.busy + 1 ≤ b.busy + 1 := by
    rw [hbusy]
    split <;> omega
  have hb2 : b.busy ≤ b'.busy + 1 := by
    rw [hbusy]
    exact Nat.le_add_right ..
  refine ⟨by omega, fun j => ?_, by omega, fun j => ?_, fun h0 => ?_, ?_⟩
  · rw [he' j, hlane]
    by_cases hj : j = i
    · subst hj
      rw [Function.update_self, hf]
    · rw [Function.update_of_ne hj, h.queue j, he]
      have hi : Entry.isQueued j ⟨i, w, .queued⟩ = false := by simp [Entry.isQueued, Ne.symm hj]
      simp [List.filter_append, hi]
  · rw [hlane]
    have := h.laneQueue_le
    by_cases hj : j = i
    · subst hj
      rw [Function.update_self]
      have := this j
      omega
    · rw [Function.update_of_ne hj]
      exact this j
  · have := hz h0
    omega
  · omega

/-- A waiter joins a queue with room for it. -/
theorem Queues.join {b b' : Budget sh} (h : Queues b) {i : sh.LaneIndex} {w : Waiter}
    (hroom : (b.lanes i).queue.length < sh.limits.perLaneWaiting)
    (hshare : b.waiting < sh.limits.waiting ∨ (sh.limits.waiting ≠ 0 ∧ (b.lanes i).queue = []))
    (he : b'.entries = b.entries ++ [⟨i, w, .queued⟩])
    (hl : (fun j => (b'.lanes j).queue) = Function.update (fun j => (b.lanes j).queue) i ((b.lanes i).queue ++ [w]))
    (hw : b'.waiting = b.waiting + 1) : Queues b' := by
  have hqd := queued_update hl
  have hbusy := busy_update hl
  have hle := h.queued_le
  have hz := h.queued_zero
  have hwq := h.waiting
  have hlane : ∀ j, (b'.lanes j).queue = _ := fun j => congrFun hl j
  rw [List.length_append, List.length_singleton] at hqd
  have hcons : (b.lanes i).queue ++ [w] ≠ [] := by simp
  have hone : 1 ≤ b'.busy := one_le_busy (i := i) (by rwa [hlane, Function.update_self])
  rw [if_neg hcons] at hbusy
  refine ⟨fun j => ?_, by omega, fun j => ?_, fun h0 => ?_, ?_⟩
  · rw [he, hlane, List.filter_append, List.map_append, ← h.queue j]
    by_cases hj : j = i
    · subst hj
      simp [Entry.isQueued]
    · simp [Function.update_of_ne hj, Entry.isQueued, Ne.symm hj]
  · rw [hlane]
    by_cases hj : j = i
    · subst hj
      rw [Function.update_self, List.length_append, List.length_singleton]
      exact hroom
    · rw [Function.update_of_ne hj]
      exact h.laneQueue_le j
  · rcases hshare with hlt | ⟨hne, -⟩ <;> omega
  · rcases hshare with hlt | ⟨hne, hnil⟩
    · omega
    · rw [if_pos hnil] at hbusy
      omega

/-! ## Accounts -/

/-- Nothing is started and nothing counted: what is pending or in hand stays so. -/
theorem Accounts.silent {b b' : Budget sh} {owed owed' : Option (Entry sh)} (h : Accounts b owed)
    (evs : List (Event sh)) (hlog : b'.log = b.log ++ evs)
    (hevs : ∀ ev ∈ evs, ev.begun = .none ∧ ev.ended = .none ∧ ∀ i o, ev.counts i o = false)
    (hf : b'.fresh = b.fresh) (hs : b'.started = b.started) (ho : b'.outcomes = b.outcomes)
    (hp : (b.pending ++ owed.toList.map Entry.admission).Perm (b'.pending ++ owed'.toList.map Entry.admission)) :
    Accounts b' owed' := by
  have hbegun : b'.begun = b.begun := by
    rw [Budget.begun, hlog, List.filterMap_append, List.filterMap_eq_nil_iff.mpr fun ev hev => (hevs ev hev).1,
      List.append_nil, Budget.begun]
  have hended : b'.ended = b.ended := by
    rw [Budget.ended, hlog, List.filterMap_append, List.filterMap_eq_nil_iff.mpr fun ev hev => (hevs ev hev).2.1,
      List.append_nil, Budget.ended]
  refine ⟨?_, ?_, fun i => ?_, fun i o => ?_⟩
  · rw [hbegun, hf]; exact h.ids
  · rw [hbegun, hended]
    refine h.balance.trans ?_
    rw [List.append_assoc, List.append_assoc]
    exact hp.append_left _
  · rw [hs, hbegun]; exact h.started i
  · have hnone : evs.countP (Event.counts i o) = 0 :=
      List.countP_eq_zero.mpr fun ev hev => by simp [(hevs ev hev).2.2]
    rw [ho, hlog, List.countP_append, hnone, h.outcomes, Nat.add_zero]

/-- One admission is counted, which was pending or in hand. -/
theorem Accounts.counted {b b' : Budget sh} {owed owed' : Option (Entry sh)} (h : Accounts b owed)
    {id : Nat} {i : sh.LaneIndex} {o : Outcome} (hlog : b'.log = b.log ++ [.counted id i o])
    (hf : b'.fresh = b.fresh) (hs : b'.started = b.started)
    (ho : b'.outcomes = Function.update b.outcomes i (Function.update (b.outcomes i) o (b.outcomes i o + 1)))
    (hp : (b.pending ++ owed.toList.map Entry.admission).Perm
      ((id, i) :: (b'.pending ++ owed'.toList.map Entry.admission))) : Accounts b' owed' := by
  have hbegun : b'.begun = b.begun := by simp [Budget.begun, hlog, Event.begun]
  have hended : b'.ended = b.ended ++ [(id, i)] := by simp [Budget.ended, hlog, Event.ended]
  refine ⟨?_, ?_, fun j => ?_, fun j o' => ?_⟩
  · rw [hbegun, hf]; exact h.ids
  · rw [hbegun, hended]
    refine h.balance.trans ?_
    rw [List.append_assoc, List.append_assoc, List.append_assoc]
    exact hp.append_left _
  · rw [hs, hbegun]; exact h.started j
  · rw [ho, hlog, List.countP_append, ← h.outcomes]
    by_cases hj : j = i
    · subst hj
      by_cases ho' : o' = o
      · subst ho'
        simp [Event.counts]
      · simp [Event.counts, ho', Ne.symm ho']
    · simp [Event.counts, hj, Ne.symm hj]

theorem Accounts.start {b : Budget sh} (h : Accounts b .none) (hreg : Registered b .none) (i : sh.LaneIndex)
    (resource : Option String) : Accounts (b.start i) (.some ⟨i, ⟨b.fresh, resource⟩, .queued⟩) := by
  have hbegun : (b.start i).begun = b.begun ++ [(b.fresh, i)] := by simp [Budget.begun, Budget.start, Event.begun]
  have hended : (b.start i).ended = b.ended := by simp [Budget.ended, Budget.start, Event.ended]
  have hpending : (b.start i).pending = b.pending := by
    rw [Budget.pending, Budget.pending, Budget.entries, Budget.entries, Budget.start]
    rw [entriesOf_update_of_below hreg.below]
  refine ⟨?_, ?_, fun j => ?_, fun j o => ?_⟩
  · rw [hbegun, List.map_append, h.ids]
    exact List.range_succ.symm
  · rw [hbegun, hended, hpending]
    have := h.balance
    simp only [Option.toList_none, List.map_nil, List.append_nil] at this
    exact this.append_right _
  · rw [hbegun, List.countP_append, ← h.started]
    by_cases hj : j = i
    · subst hj
      simp [Budget.start]
    · simp [Budget.start, hj, Ne.symm hj]
  · simp [Budget.start, Event.counts, h.outcomes]

/-- An event that counts is of one of the nine outcomes. -/
theorem sum_outcomes (i : sh.LaneIndex) (log : List (Event sh)) :
    (Outcome.all.map fun o => log.countP (Event.counts i o)).sum = (log.filterMap Event.ended).countP (·.2 = i) := by
  induction log with
  | nil => rfl
  | cons ev log ih =>
    have hcons : (Outcome.all.map fun o => (ev :: log).countP (Event.counts i o)).sum =
        (Outcome.all.map fun o => log.countP (Event.counts i o)).sum +
          (ev.ended.toList).countP (·.2 = i) := by
      cases ev with
      | counted id j o =>
        by_cases hj : j = i
        · cases o <;> simp [Outcome.all, List.countP_cons, Event.counts, Event.ended, hj] <;> omega
        · simp [Outcome.all, Event.counts, Event.ended, hj]
      | started | queued | granted => simp [Event.counts, Event.ended]
    rw [hcons, ih, List.filterMap_cons]
    cases ev.ended with
    | none => rfl
    | some a => simp [List.countP_cons]

/-- A live entry not drained is granted or queued. -/
theorem countP_undrained (i : sh.LaneIndex) {l : List (Entry sh)} (h : ∀ e ∈ l, e.state ≠ .dropped) :
    ((l.filter fun e => e.state ≠ .drained).map Entry.admission).countP (·.2 = i) =
      l.countP (fun e => e.state = .granted ∧ decide (e.lane = i)) + (l.filter (Entry.isQueued i)).length := by
  induction l with
  | nil => rfl
  | cons e l ih =>
    have hl := ih fun e' he' => h e' (List.mem_cons_of_mem _ he')
    have he := h e List.mem_cons_self
    obtain ⟨j, w, state⟩ := e
    cases state with
    | dropped => exact absurd rfl he
    | queued | granted | drained =>
      by_cases hi : j = i <;>
        simp [Entry.isQueued, Entry.admission, hi] at hl ⊢ <;> omega

/-- **Each lane's account**: every admission started in it is active, queued,
counted or in hand. -/
theorem Inv.account {b : Budget sh} {owed : Option (Entry sh)} (h : Inv b owed) (i : sh.LaneIndex) :
    b.started i = (b.lanes i).active + (b.lanes i).queue.length +
      (Outcome.all.map (b.outcomes i)).sum + owed.toList.countP (·.lane = i) := by
  have hlive : ∀ e ∈ b.entries, e.state ≠ .dropped := fun e he => by
    obtain ⟨r, hr, rfl⟩ := mem_entries.mp he
    exact h.registered.live r hr
  have hpending : b.pending.countP (·.2 = i) = (b.lanes i).active + (b.lanes i).queue.length := by
    rw [h.grants.lane, h.queues.queue, List.length_map]
    exact countP_undrained i hlive
  have hended : (Outcome.all.map (b.outcomes i)).sum = b.ended.countP (·.2 = i) := by
    rw [Budget.ended, ← sum_outcomes]
    exact congrArg List.sum (List.map_congr_left fun o _ => h.accounts.outcomes i o)
  have howed : (owed.toList.map Entry.admission).countP (·.2 = i) = owed.toList.countP (·.lane = i) :=
    List.countP_map
  rw [h.accounts.started, h.accounts.balance.countP_eq, List.countP_append, List.countP_append, hpending, howed,
    hended]
  omega

/-! ## Order -/

/-- No one is queued or granted. -/
theorem Ordered.silent {b b' : Budget sh} {owed owed' : Option (Entry sh)} (h : Ordered b owed)
    (hq : ∀ i r, b'.queuedFor i r = b.queuedFor i r) (hg : ∀ i r, b'.grantedTo i r = b.grantedTo i r)
    (he : ∀ e ∈ b'.entries, e.state = .queued → e ∈ b.entries) (hf : b.fresh ≤ b'.fresh)
    (ho : ∀ e ∈ owed', e.state = .queued → e ∈ owed ∨ b.fresh ≤ e.waiter.id) : Ordered b' owed' := by
  refine ⟨fun i r => ?_, fun i r => ?_, fun e hm hs => ?_, fun e hm hs => ?_, fun i r id hid => ?_,
    fun e hm hs i r id hid => ?_⟩
  · rw [hq]; exact h.queued i r
  · rw [hg]; exact h.granted i r
  · rw [hq]; exact h.logged e (he e hm hs) hs
  · rw [hg]; exact h.ahead e (he e hm hs) hs
  · rw [hq, hg] at hid
    exact (h.below i r id hid).trans_le hf
  · rw [hq, hg] at hid
    rcases ho e hm hs with hold | hnew
    · exact h.inHand e hold hs i r id hid
    · exact (h.below i r id hid).trans_le hnew

/-- The next of those for its lane and resource is granted. -/
theorem Ordered.grant {b b' : Budget sh} {owed owed' : Option (Entry sh)} (h : Ordered b owed) {i : sh.LaneIndex}
    {w : Waiter} (hlog : b'.log = b.log ++ [.granted w.id i w.resource]) (hf : b'.fresh = b.fresh)
    (hfresh : w.id < b.fresh) (hlast : ∀ id ∈ b.grantedTo i w.resource, id < w.id)
    (he : ∀ e ∈ b'.entries, e.state = .queued → e ∈ b.entries ∧
      (e.lane = i → e.waiter.resource = w.resource → w.id < e.waiter.id))
    (ho : ∀ e ∈ owed', e.state = .queued → e ∈ owed ∧ w.id < e.waiter.id) : Ordered b' owed' := by
  have hq : ∀ j r, b'.queuedFor j r = b.queuedFor j r := fun j r => by
    simp [Budget.queuedFor, hlog, Event.queuedFor]
  have hg : ∀ j r, b'.grantedTo j r = b.grantedTo j r ++ if i = j ∧ w.resource = r then [w.id] else [] :=
    fun j r => by
      rw [Budget.grantedTo, hlog, List.filterMap_append]
      split <;> simp [Budget.grantedTo, Event.grantedTo, *]
  have hmem : ∀ {j r id}, id ∈ b'.grantedTo j r → id ∈ b.grantedTo j r ∨ (id = w.id ∧ i = j ∧ w.resource = r) :=
    fun {j r id} hid => by
      rw [hg, List.mem_append] at hid
      refine hid.imp_right fun hid => ?_
      split at hid
      · next hjr => exact ⟨List.mem_singleton.mp hid, hjr⟩
      · cases hid
  refine ⟨fun j r => ?_, fun j r => ?_, fun e hm hs => ?_, fun e hm hs id hid => ?_, fun j r id hid => ?_,
    fun e hm hs j r id hid => ?_⟩
  · rw [hq]; exact h.queued j r
  · rw [hg, List.pairwise_append]
    refine ⟨h.granted j r, by split <;> simp, fun id hid id' hid' => ?_⟩
    split at hid'
    · next hjr =>
      obtain ⟨rfl, rfl⟩ := hjr
      rw [List.mem_singleton.mp hid']
      exact hlast id hid
    · cases hid'
  · rw [hq]; exact h.logged e (he e hm hs).1 hs
  · rcases hmem hid with hold | ⟨rfl, hi, hr⟩
    · exact h.ahead e (he e hm hs).1 hs id hold
    · exact (he e hm hs).2 hi.symm hr.symm
  · rw [hf]
    rw [hq, List.mem_append] at hid
    rcases hid with hid | hid
    · exact h.below j r id (List.mem_append_left _ hid)
    · rcases hmem hid with hold | ⟨rfl, -⟩
      · exact h.below j r id (List.mem_append_right _ hold)
      · exact hfresh
  · obtain ⟨hold, hlt⟩ := ho e hm hs
    rw [hq, List.mem_append] at hid
    rcases hid with hid | hid
    · exact h.inHand e hold hs j r id (List.mem_append_left _ hid)
    · rcases hmem hid with hid | ⟨rfl, -⟩
      · exact h.inHand e hold hs j r id (List.mem_append_right _ hid)
      · exact hlt

/-- The admission in hand is queued. -/
theorem Ordered.queue {b b' : Budget sh} {i : sh.LaneIndex} {w : Waiter} (h : Ordered b (.some ⟨i, w, .queued⟩))
    (hlog : b'.log = b.log ++ [.queued w.id i w.resource]) (hf : b'.fresh = b.fresh) (hfresh : w.id < b.fresh)
    (he : b'.entries = b.entries ++ [⟨i, w, .queued⟩]) : Ordered b' .none := by
  have hnew := h.inHand _ rfl rfl
  have hq : ∀ j r, b'.queuedFor j r = b.queuedFor j r ++ if i = j ∧ w.resource = r then [w.id] else [] :=
    fun j r => by
      rw [Budget.queuedFor, hlog, List.filterMap_append]
      split <;> simp [Budget.queuedFor, Event.queuedFor, *]
  have hg : ∀ j r, b'.grantedTo j r = b.grantedTo j r := fun j r => by
    simp [Budget.grantedTo, hlog, Event.grantedTo]
  refine ⟨fun j r => ?_, fun j r => ?_, fun e hm hs => ?_, fun e hm hs id hid => ?_, fun j r id hid => ?_, by simp⟩
  · rw [hq, List.pairwise_append]
    refine ⟨h.queued j r, by split <;> simp, fun id hid id' hid' => ?_⟩
    split at hid'
    · rw [List.mem_singleton.mp hid']
      exact hnew j r id (List.mem_append_left _ hid)
    · cases hid'
  · rw [hg]; exact h.granted j r
  · rw [hq]
    rw [he, List.mem_append, List.mem_singleton] at hm
    rcases hm with hm | rfl
    · exact List.mem_append_left _ (h.logged e hm hs)
    · simp
  · rw [hg] at hid
    rw [he, List.mem_append, List.mem_singleton] at hm
    rcases hm with hm | rfl
    · exact h.ahead e hm hs id hid
    · exact hnew _ _ id (List.mem_append_right _ hid)
  · rw [hf]
    rw [hq, hg] at hid
    rcases List.mem_append.mp hid with hid | hid
    · rcases List.mem_append.mp hid with hid | hid
      · exact h.below j r id (List.mem_append_left _ hid)
      · split at hid
        · rw [List.mem_singleton.mp hid]
          exact hfresh
        · cases hid
    · exact h.below j r id (List.mem_append_right _ hid)

end Pillar.FairBudget
