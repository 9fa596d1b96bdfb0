/-
`FairBudget` (`pillar-core`, `execution.rs`): permits handed out over lanes,
round robin, with a bounded queue behind each lane.

Everything the source does under its mutex is one step here, so a run is any
interleaving of those steps. The clock, the panic flag and the cause recorded
in a request's context are what the environment says at the step that reads
them. A waiter's `Arc` is its address (`Waiter.id`); the atomic in it is the
entry of `waiters` at that address.

`log` is a history the source does not keep: it says which admission each
counter was moved for. The counters `started`, `outcomes` and `skipped` are
natural numbers (the source's are 64-bit and move by one per request).
-/
import Pillar.Core

namespace Pillar.FairBudget

structure BudgetLimits where
  active : Nat
  perLane : Nat
  waiting : Nat
  perLaneWaiting : Nat
  wait : Nat
  deriving Repr, DecidableEq

inductive Outcome where
  | success
  | error
  | cancelled
  | timedOut
  | overloaded
  | waitExpired
  | shutdown
  | panic
  | unknown
  deriving Repr, DecidableEq

/-- `Outcome::ALL`. -/
def Outcome.all : List Outcome :=
  [.success, .error, .cancelled, .timedOut, .overloaded, .waitExpired, .shutdown, .panic, .unknown]

/-! ## Construction -/

/-- The checks of `FairBudget::build`. -/
def checkBuild (names : List String) (limits : BudgetLimits) (resourceLimit : Nat) : Except String Unit :=
  if names.any (·.isEmpty) || names.dedup.length ≠ names.length then
    .error "resource lanes must be unique and nonempty"
  else if names.isEmpty || limits.active = 0 || limits.perLane = 0 || limits.perLane > limits.active ||
      resourceLimit = 0 || limits.wait = 0 || (names.length > 1 && limits.perLane ≥ limits.active) then
    .error "resource limits must reserve headroom for another lane"
  else .ok ()

/-- What a budget is built with, and keeps. -/
structure Shared where
  names : List String
  limits : BudgetLimits
  resourceLimit : Nat
  laneResourceLimit : Option Nat
  built : checkBuild names limits resourceLimit = .ok ()

def build (names : List String) (limits : BudgetLimits) (resourceLimit : Nat) (laneResourceLimit : Option Nat) :
    Except String Shared :=
  match h : checkBuild names limits resourceLimit with
  | .ok () => .ok { names, limits, resourceLimit, laneResourceLimit, built := h }
  | .error e => .error e

def new (names : List String) (limits : BudgetLimits) : Except String Shared :=
  build names limits limits.perLane .none

def withResourceLimit (names : List String) (limits : BudgetLimits) (resourceLimit : Nat) : Except String Shared :=
  build names limits resourceLimit .none

def withLaneResourceLimit (names : List String) (limits : BudgetLimits) (resourceLimit laneResourceLimit : Nat) :
    Except String Shared :=
  if laneResourceLimit = 0 || laneResourceLimit > resourceLimit ||
      (resourceLimit > 1 && laneResourceLimit ≥ resourceLimit) then
    .error "lane resource limit must leave headroom within the resource limit"
  else build names limits resourceLimit (.some laneResourceLimit)

/-- A lane, by its index among the names. -/
abbrev Shared.LaneIndex (sh : Shared) := Fin sh.names.length

/-- `names.iter().position(|name| name == lane)`. -/
def Shared.position (sh : Shared) (lane : String) : Option sh.LaneIndex := sh.names.finIdxOf? lane

/-! ## State -/

/-- `Waiter::state`: 0, 1, 2 and 3. -/
inductive WaiterState where
  | queued
  | granted
  | dropped
  | drained
  deriving Repr, DecidableEq

structure Waiter where
  id : Nat
  resource : Option String
  deriving Repr, DecidableEq

structure Lane where
  active : Nat
  limit : Nat
  queue : List Waiter

/-- Where the caller of `acquire_for` is: in its loop, holding the permit, or
past an `Err`, with the registration about to be dropped. -/
inductive Phase where
  | waiting
  | permit
  | failed
  deriving Repr, DecidableEq

structure Registration (sh : Shared) where
  index : sh.LaneIndex
  waiter : Waiter
  phase : Phase
  outcome : Option Outcome

/-- What happened to which admission. -/
inductive Event (sh : Shared) where
  | started (id : Nat) (lane : sh.LaneIndex)
  | queued (id : Nat) (lane : sh.LaneIndex) (resource : Option String)
  | granted (id : Nat) (lane : sh.LaneIndex) (resource : Option String)
  | counted (id : Nat) (lane : sh.LaneIndex) (outcome : Outcome)
  deriving DecidableEq

/-- The budget's state with its counters, the waiters' atomics and the live
registrations, oldest first. `fresh` is the next waiter's address. -/
structure Budget (sh : Shared) where
  active : Nat
  waiting : Nat
  next : Nat
  closed : Bool
  lanes : sh.LaneIndex → Lane
  resourceActive : String → Option Nat
  laneResourceActive : sh.LaneIndex → String → Option Nat
  outcomes : sh.LaneIndex → Outcome → Nat
  started : sh.LaneIndex → Nat
  skipped : Nat
  waiters : Nat → WaiterState
  registrations : List (Registration sh)
  fresh : Nat
  log : List (Event sh)

variable {sh : Shared}

/-- The budget `build` returns. -/
def Budget.init (sh : Shared) : Budget sh where
  active := 0
  waiting := 0
  next := 0
  closed := false
  lanes := fun _ => { active := 0, limit := sh.limits.perLane, queue := [] }
  resourceActive := fun _ => .none
  laneResourceActive := fun _ _ => .none
  outcomes := fun _ _ => 0
  started := fun _ => 0
  skipped := 0
  waiters := fun _ => .queued
  registrations := []
  fresh := 0
  log := []

namespace Budget

/-! ## Granting -/

def count (b : Budget sh) (i : sh.LaneIndex) (outcome : Outcome) (id : Nat) : Budget sh :=
  { b with
    outcomes := Function.update b.outcomes i (Function.update (b.outcomes i) outcome (b.outcomes i outcome + 1))
    log := b.log ++ [.counted id i outcome] }

def canGrant (b : Budget sh) (i : sh.LaneIndex) (resource : Option String) : Bool :=
  b.active < sh.limits.active && (b.lanes i).active < (b.lanes i).limit &&
    resource.all fun key =>
      (b.resourceActive key).getD 0 < sh.resourceLimit &&
        sh.laneResourceLimit.all fun limit => (b.laneResourceActive i key).getD 0 < limit

/-- `*map.entry(key).or_default() += 1`. -/
def bump (map : String → Option Nat) (key : String) : String → Option Nat :=
  Function.update map key (.some ((map key).getD 0 + 1))

def grant (b : Budget sh) (i : sh.LaneIndex) (waiter : Waiter) : Budget sh :=
  { b with
    active := b.active + 1
    lanes := Function.update b.lanes i { b.lanes i with active := (b.lanes i).active + 1 }
    resourceActive := match waiter.resource with
      | .some key => bump b.resourceActive key
      | .none => b.resourceActive
    laneResourceActive := match waiter.resource, sh.laneResourceLimit with
      | .some key, .some _ => Function.update b.laneResourceActive i (bump (b.laneResourceActive i) key)
      | _, _ => b.laneResourceActive
    waiters := Function.update b.waiters waiter.id .granted
    log := b.log ++ [.granted waiter.id i waiter.resource] }

/-- The first lane, from `next` round, with a waiter that can be granted, and
the first such waiter in it. -/
def select (b : Budget sh) : Option (sh.LaneIndex × Nat) :=
  (List.finRange sh.names.length).findSome? fun (offset : sh.LaneIndex) =>
    let i : sh.LaneIndex := ⟨(b.next + offset.val) % sh.names.length, Nat.mod_lt _ offset.pos⟩
    ((b.lanes i).queue.findIdx? fun waiter => b.canGrant i waiter.resource).map (i, ·)

/-- `queue.remove(pos)` and `waiting -= 1`. -/
def unqueue (b : Budget sh) (i : sh.LaneIndex) (queue : List Waiter) : Exec Empty (Budget sh) := do
  let waiting ← Exec.sub b.waiting 1
  return { b with waiting, lanes := Function.update b.lanes i { b.lanes i with queue } }

/-- `while state.active < limits.active`. -/
def dispatchLoop : Nat → Budget sh → Exec Empty (Budget sh)
  | 0, _ => .error .fuel
  | fuel + 1, b =>
    if b.active < sh.limits.active then
      match b.select with
      | .none => .ok b
      | .some (i, pos) => do
        let waiter ← Exec.get (b.lanes i).queue[pos]?
        let b ← b.unqueue i ((b.lanes i).queue.eraseIdx pos)
        dispatchLoop fuel { b.grant i waiter with next := (i.val + 1) % sh.names.length }
    else .ok b

/-- How many are queued, over all lanes. -/
def queued (b : Budget sh) : Nat := ∑ i, (b.lanes i).queue.length

def dispatch (b : Budget sh) : Exec Empty (Budget sh) :=
  if b.closed then .ok b else dispatchLoop (b.queued + 1) b

/-! ## Operations -/

def capLane (b : Budget sh) (lane : String) (limit : Nat) : Except String Unit × Budget sh :=
  match sh.position lane with
  | .none => (.error "unconfigured resource lane", b)
  | .some i =>
    if limit = 0 || limit > sh.limits.perLane || decide (∃ j, b.started j ≠ 0) then
      (.error "lane cap must be set before resource use", b)
    else (.ok (), { b with lanes := Function.update b.lanes i { b.lanes i with limit } })

/-- A new waiter, at the next address, and `started[index].fetch_add(1)`. -/
def start (b : Budget sh) (i : sh.LaneIndex) : Budget sh :=
  { b with
    started := Function.update b.started i (b.started i + 1)
    waiters := Function.update b.waiters b.fresh .queued
    fresh := b.fresh + 1
    log := b.log ++ [.started b.fresh i] }

/-- The registration of a waiter. The source makes it once the lock is
released; nothing under the lock reads it. -/
def register (b : Budget sh) (i : sh.LaneIndex) (waiter : Waiter) (phase : Phase) : Budget sh :=
  { b with registrations := b.registrations ++ [{ index := i, waiter, phase, outcome := .none }] }

/-- `queue.push_back(waiter)` and `waiting += 1`. -/
def enqueue (b : Budget sh) (i : sh.LaneIndex) (waiter : Waiter) : Budget sh :=
  { b with
    waiting := b.waiting + 1
    lanes := Function.update b.lanes i { b.lanes i with queue := (b.lanes i).queue ++ [waiter] }
    log := b.log ++ [.queued waiter.id i waiter.resource] }

/-- `acquire_for` up to its loop: the registration's address, or the error.
`past` is `Instant::now() >= deadline`. -/
def acquireFor (b : Budget sh) (lane : String) (resource : Option String) (past : Bool) :
    Exec Empty (Except BudgetError Nat × Budget sh) :=
  match sh.position lane with
  | .none => .ok (.error .unknownLane, b)
  | .some i => do
    let waiter : Waiter := { id := b.fresh, resource }
    let b := b.start i
    if b.closed then return (.error .closed, b.count i .shutdown waiter.id)
    if past then return (.error .deadline, b.count i .timedOut waiter.id)
    let b ← b.dispatch
    if b.canGrant i resource then
      return (.ok waiter.id, (b.grant i waiter).register i waiter .waiting)
    if (b.lanes i).queue.length ≥ sh.limits.perLaneWaiting ||
        (b.waiting ≥ sh.limits.waiting && (sh.limits.waiting = 0 || !(b.lanes i).queue.isEmpty)) then
      return (.error .overloaded, b.count i .overloaded waiter.id)
    let b ← ((b.enqueue i waiter).register i waiter .waiting).dispatch
    return (.ok waiter.id, b)

/-- `past` is whether the caller's own deadline has passed. -/
def tryAcquireFor (b : Budget sh) (lane : String) (resource : Option String) (past : Bool) :
    Exec Empty (Except BudgetError (Option Nat) × Budget sh) :=
  match sh.position lane with
  | .none => .ok (.error .unknownLane, b)
  | .some i => do
    let b ← b.dispatch
    if b.closed || !b.canGrant i resource || past then
      return (.ok .none, { b with skipped := b.skipped + 1 })
    let waiter : Waiter := { id := b.fresh, resource }
    return (.ok (.some waiter.id), ((b.start i).grant i waiter).register i waiter .permit)

/-- A registration moves on in its caller's hands. -/
def update (b : Budget sh) (id : Nat) (phase : Phase) (outcome : Option Outcome) : Budget sh :=
  { b with registrations := b.registrations.map fun r =>
      if r.waiter.id = id then { r with phase, outcome } else r }

/-- What an acquisition past its deadline is counted as. -/
def expiry (expired : Bool) : Option Outcome := .some (if expired then .timedOut else .waitExpired)

/-- One turn of the loop of `acquire_for`: `before` is its first look at the
clock, `past` its second, `expired` whether the request's own deadline passed. -/
def poll (b : Budget sh) (r : Registration sh) (before past expired : Bool) : Budget sh :=
  if b.waiters r.waiter.id = .granted ∧ before then b.update r.waiter.id .permit r.outcome
  else if past then b.update r.waiter.id .failed (expiry expired)
  else if b.waiters r.waiter.id = .drained then b.update r.waiter.id .failed (.some .shutdown)
  else b

/-! ## Dropping -/

/-- A request's context as a dropped registration reads it: the cause stored in
it, and whether its deadline has passed. -/
structure Context where
  cause : Nat
  past : Bool

def droppedOutcome (panicking : Bool) (context : Context) : Outcome :=
  if panicking then .panic
  else if context.cause = 2 then .shutdown
  else if context.cause = 1 || context.past then .timedOut
  else .cancelled

/-- The outcome of a registration dropped without one: its own context decides,
or failing that the current one, if there is any. -/
def dropOutcome (panicking : Bool) : Option Context → Outcome
  | .some context => droppedOutcome panicking context
  | .none => if panicking then .panic else .cancelled

/-- `if let Some(count) = map.get_mut(key) { *count -= 1; if *count == 0 { map.remove(key) } }`. -/
def release (map : String → Option Nat) (key : String) : Exec Empty (String → Option Nat) :=
  match map key with
  | .none => .ok map
  | .some n => do
    let n ← Exec.sub n 1
    return Function.update map key (if n = 0 then .none else .some n)

/-- `if let Some(key) = &waiter.resource { .. }`. -/
def releaseKey (map : String → Option Nat) : Option String → Exec Empty (String → Option Nat)
  | .some key => release map key
  | .none => .ok map

/-- Gives a granted waiter's place back. -/
def ungrant (b : Budget sh) (i : sh.LaneIndex) (waiter : Waiter) : Exec Empty (Budget sh) := do
  let active ← Exec.sub b.active 1
  let laneActive ← Exec.sub (b.lanes i).active 1
  let resourceActive ← releaseKey b.resourceActive waiter.resource
  let pairs ← releaseKey (b.laneResourceActive i)
    (if sh.laneResourceLimit.isSome then waiter.resource else .none)
  return { b with
    active
    lanes := Function.update b.lanes i { b.lanes i with active := laneActive }
    resourceActive
    laneResourceActive := Function.update b.laneResourceActive i pairs }

/-- The registration and its waiter's atomic, once dropped. -/
def forget (b : Budget sh) (id : Nat) : Budget sh :=
  { b with
    waiters := Function.update b.waiters id .dropped
    registrations := b.registrations.filter (·.waiter.id ≠ id) }

/-- `match previous`: out of the queue, or out of the permits. -/
def vacate (b : Budget sh) (i : sh.LaneIndex) (waiter : Waiter) : WaiterState → Exec Empty (Budget sh)
  | .queued => b.unqueue i ((b.lanes i).queue.filter (·.id ≠ waiter.id))
  | .granted => b.ungrant i waiter
  | .dropped | .drained => .ok b

/-- `Drop for Registration`. -/
def drop (b : Budget sh) (r : Registration sh) (fallback : Outcome) : Exec Empty (Budget sh) := do
  let previous := b.waiters r.waiter.id
  let b ← (b.forget r.waiter.id).vacate r.index r.waiter previous
  if previous = .drained then b.dispatch
  else (b.count r.index (r.outcome.getD fallback) r.waiter.id).dispatch

/-- What `close` does with a waiter it finds queued. -/
def drainWaiter (i : sh.LaneIndex) (b : Budget sh) (waiter : Waiter) : Budget sh :=
  { b.count i .shutdown waiter.id with waiters := Function.update b.waiters waiter.id .drained }

/-- The loop of `close` over a lane's queue. -/
def drain (b : Budget sh) (i : sh.LaneIndex) : Budget sh :=
  { (b.lanes i).queue.foldl (drainWaiter i) b with
    lanes := Function.update b.lanes i { b.lanes i with queue := [] } }

def close (b : Budget sh) : Budget sh :=
  { (List.finRange sh.names.length).foldl drain { b with closed := true } with waiting := 0 }

end Budget

/-! ## Runs -/

/-- A step of some caller. `id` names a live registration; a step of one that
is not live, or not in the phase the step needs, is no step. -/
inductive Op where
  | capLane (lane : String) (limit : Nat)
  | acquireFor (lane : String) (resource : Option String) (past : Bool)
  | poll (id : Nat) (before past expired : Bool)
  | timeout (id : Nat) (expired : Bool)
  | tryAcquireFor (lane : String) (resource : Option String) (past : Bool)
  | finish (id : Nat) (outcome : Outcome)
  | drop (id : Nat) (panicking : Bool) (context : Option Budget.Context)
  | close

def Budget.find (b : Budget sh) (id : Nat) : Option (Registration sh) :=
  b.registrations.find? (·.waiter.id = id)

def step (b : Budget sh) : Op → Exec Empty (Budget sh)
  | .capLane lane limit => .ok (b.capLane lane limit).2
  | .acquireFor lane resource past => do return (← b.acquireFor lane resource past).2
  | .poll id before past expired =>
    match b.find id with
    | .some r => .ok (if r.phase = .waiting then b.poll r before past expired else b)
    | .none => .ok b
  | .timeout id expired =>
    match b.find id with
    | .some r => .ok (if r.phase = .waiting then b.update id .failed (Budget.expiry expired) else b)
    | .none => .ok b
  | .tryAcquireFor lane resource past => do return (← b.tryAcquireFor lane resource past).2
  | .finish id outcome =>
    match b.find id with
    | .some r => .ok (if r.phase = .permit then b.update id .permit (.some outcome) else b)
    | .none => .ok b
  | .drop id panicking context =>
    match b.find id with
    | .some r => b.drop r (Budget.dropOutcome panicking context)
    | .none => .ok b
  | .close => .ok b.close

/-- `b'` is reached from `b` by some interleaving of steps. -/
inductive Run (sh : Shared) : Budget sh → Budget sh → Prop
  | refl (b) : Run sh b b
  | snoc {b b' b''} : Run sh b b' → (op : Op) → step b' op = .ok b'' → Run sh b b''

/-- Every state of every run. -/
def Reachable (b : Budget sh) : Prop := Run sh (.init sh) b

end Pillar.FairBudget
