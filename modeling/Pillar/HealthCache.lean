/-
The provider health cache (`pillar-core`, `provider_health_cache.rs`) under
every interleaving of its readers, its refresh tasks, their callers' going
away and the configuration's changing.

Each event is one access to what is shared: the clock, the configuration
generation, the cached entry, the refresh lock or the source. An event that is
not possible changes nothing. A probe reads one configuration, at some instant
between its start and its end; which generation that was (`observed`) is kept
beside the value, although the code never sees it.
-/
import Pillar.Halt

namespace Pillar.HealthCache

variable {V : Type}

def providerHealthCacheTtlMs : Nat := 15000
def providerHealthCacheStaleAllowanceMs : Nat := 105000
def providerHealthCacheStaleMs : Nat := providerHealthCacheTtlMs + providerHealthCacheStaleAllowanceMs

/-- How many times a probe overtaken by a refresh is tried. -/
def probeGenerationAttempts : Nat := 3

def u64Max : Nat := 2 ^ 64 - 1

/-- Milliseconds since `earlier`; of a clock that stepped back, the most there
can be. -/
def elapsedMs (now earlier : Nat) : Nat := if earlier ≤ now then now - earlier else u64Max

structure CachedHealth (V : Type) where
  value : V
  checkedAtUnixMs : Nat
  generation : Nat
  observed : Nat

/-- A value returned, with the generation it was observed under, its stamp and
the clock reading its age was judged by. -/
structure Answer (V : Type) where
  value : V
  observed : Nat
  stamp : Nat
  reading : Nat

abbrev Outcome (V : Type) := Except String (Answer V)

def CachedHealth.answer (cached : CachedHealth V) (reading : Nat) : Answer V where
  value := cached.value
  observed := cached.observed
  stamp := cached.checkedAtUnixMs
  reading := reading

/-- When a call began: how many generations had been replaced, and the clock. -/
structure Span where
  since : Nat
  began : Nat

/-- Where `refresh_with_guard` stands; `left` attempts follow the current one. -/
inductive RefreshAt (V : Type) where
  | attempt (left : Nat)
  | tagged (left generation : Nat)
  | found (left generation : Nat) (cached : Option (CachedHealth V))
  | probing (left generation : Nat) (seen : Option Nat)
  | probed (left generation : Nat) (probe : Except String (V × Nat))
  | publishing (generation : Nat) (value : V) (observed : Nat)
  | stamped (generation : Nat) (value : V) (observed checkedAt : Nat)
  | failed (generation : Nat) (error : String)
  | fallback (generation : Nat) (error : String) (cached : Option (CachedHealth V))
  | returning (outcome : Outcome V)
  | done (outcome : Outcome V)
  | aborted (reason : String)

/-- A refresh that still runs holds the guard. -/
def RefreshAt.running : RefreshAt V → Bool
  | .done _ => false
  | .aborted _ => false
  | _ => true

/-- A spawned refresh. -/
structure Refresh (V : Type) where
  span : Span
  pc : RefreshAt V

/-- Where `read` stands. A read that has returned keeps the generations that
were current at some instant of it, and the clock when it began and ended. -/
inductive ReadAt (V : Type) where
  | idle
  | started (span : Span) (now : Nat)
  | cloned (span : Span) (now : Nat) (cached : Option (CachedHealth V))
  | stale (span : Span) (answer : Answer V)
  | waiting (span : Span)
  | awaiting (span : Span) (task : Nat)
  | returned (current : List Nat) (began ended : Nat) (outcome : Outcome V)
  | cancelled

/-- `past` are the generations replaced so far, the oldest first. -/
structure World (V : Type) where
  clock : Nat
  past : List Nat
  generation : Nat
  state : Option (CachedHealth V)
  refreshLock : Option Nat
  tasks : Nat → Option (Refresh V)
  spawned : Nat
  readers : Nat → ReadAt V

inductive Event (V : Type) where
  | tick (ms : Nat)
  | reconfigure (skipped : Nat)
  /-- The reader's next step. -/
  | read (reader : Nat)
  | cancel (reader : Nat)
  /-- The task's next step, when it is not waiting for its probe. -/
  | advance (task : Nat)
  /-- The task's probe reads the configuration. -/
  | observe (task : Nat)
  | respond (task : Nat) (result : Except String V)
  /-- The task is dropped where it stands: its owner is gone, or it panicked. -/
  | abort (task : Nat) (reason : String)

namespace World

/-- An empty cache, or one warmed with a value probed under its generation. -/
def new (clock generation : Nat) (warmed : Option (V × Nat)) : World V where
  clock := clock
  past := []
  generation := generation
  state := warmed.map fun (value, generation) => ⟨value, clock, generation, generation⟩
  refreshLock := .none
  tasks := fun _ => .none
  spawned := 0
  readers := fun _ => .idle

def span (w : World V) : Span := ⟨w.past.length, w.clock⟩

/-- The generations current at some instant since. -/
def currentSince (w : World V) (since : Nat) : List Nat := (w.past ++ [w.generation]).drop since

def setTask (w : World V) (task : Nat) (refresh : Refresh V) : World V :=
  { w with tasks := Function.update w.tasks task (.some refresh) }

def setReader (w : World V) (reader : Nat) (state : ReadAt V) : World V :=
  { w with readers := Function.update w.readers reader state }

/-- `spawn_refresh`, with the guard just taken. -/
def spawnRefresh (w : World V) : World V :=
  { w.setTask w.spawned ⟨w.span, .attempt probeGenerationAttempts⟩ with
    refreshLock := .some w.spawned
    spawned := w.spawned + 1 }

/-- The cached value, but only if it describes `generation`. -/
def freshEnoughFor (w : World V) (generation : Nat) : Option (CachedHealth V) :=
  w.state.filter (·.generation = generation)

/-! ## One step of a refresh -/

/-- What `refresh_with_guard` does next; it waits for its probe, and has
nothing to do once it returned. -/
def nextPc (w : World V) : RefreshAt V → RefreshAt V
  | .attempt 0 => .returning (.error
      ("provider health could not be observed: the provider configuration was " ++ "replaced under every probe"))
  | .attempt (left + 1) => .tagged left w.generation
  | .tagged left generation => .found left generation (w.freshEnoughFor generation)
  | .found left generation cached =>
    match cached with
    | .some cached =>
      if elapsedMs w.clock cached.checkedAtUnixMs ≤ providerHealthCacheTtlMs then
        .returning (.ok (cached.answer w.clock))
      else .probing left generation .none
    | .none => .probing left generation .none
  | .probed left generation probe =>
    -- One gate for both outcomes.
    if w.generation ≠ generation then .attempt left
    else match probe with
      | .ok (value, observed) => .publishing generation value observed
      | .error error => .failed generation error
  | .publishing generation value observed => .stamped generation value observed w.clock
  | .stamped _ value observed checkedAt => .returning (.ok ⟨value, observed, checkedAt, checkedAt⟩)
  | .failed generation error => .fallback generation error (w.freshEnoughFor generation)
  | .fallback _ error cached =>
    match cached with
    | .some cached =>
      if elapsedMs w.clock cached.checkedAtUnixMs ≤ providerHealthCacheStaleMs then
        .returning (.ok (cached.answer w.clock))
      else .returning (.error error)
    | .none => .returning (.error error)
  | .returning outcome => .done outcome
  | .probing left generation seen => .probing left generation seen
  | .done outcome => .done outcome
  | .aborted reason => .aborted reason

/-- `publish` writes the entry it stamped. -/
def published (w : World V) : RefreshAt V → Option (CachedHealth V)
  | .stamped generation value observed checkedAt => .some ⟨value, checkedAt, generation, observed⟩
  | _ => w.state

/-- The guard is dropped as the call returns. -/
def lockAfter (w : World V) : RefreshAt V → Option Nat
  | .returning _ => .none
  | _ => w.refreshLock

def advance (w : World V) (task : Nat) : World V :=
  match w.tasks task with
  | .none => w
  | .some refresh =>
    { w.setTask task { refresh with pc := w.nextPc refresh.pc } with
      state := w.published refresh.pc
      refreshLock := w.lockAfter refresh.pc }

def observe (w : World V) (task : Nat) : World V :=
  match w.tasks task with
  | .some ⟨span, .probing left generation .none⟩ =>
    w.setTask task ⟨span, .probing left generation (.some w.generation)⟩
  | _ => w

/-- A probe answers; a value it answers is of the configuration it read. -/
def respond (w : World V) (task : Nat) (result : Except String V) : World V :=
  match w.tasks task, result with
  | .some ⟨span, .probing left generation (.some observed)⟩, .ok value =>
    w.setTask task ⟨span, .probed left generation (.ok (value, observed))⟩
  | .some ⟨span, .probing left generation _⟩, .error error =>
    w.setTask task ⟨span, .probed left generation (.error error)⟩
  | _, _ => w

def abort (w : World V) (task : Nat) (reason : String) : World V :=
  match w.tasks task with
  | .none => w
  | .some refresh =>
    if refresh.pc.running then
      { w.setTask task { refresh with pc := .aborted reason } with refreshLock := .none }
    else w

/-! ## One step of a read -/

def returnRead (w : World V) (reader : Nat) (span : Span) (outcome : Outcome V) : World V :=
  w.setReader reader (.returned (w.currentSince span.since) span.began w.clock outcome)

/-- What `read` does next. It judges an entry's age by the clock it read
first. -/
def read (w : World V) (reader : Nat) : World V :=
  match w.readers reader with
  | .idle => w.setReader reader (.started w.span w.clock)
  | .started span now => w.setReader reader (.cloned span now w.state)
  | .cloned span now cached =>
    match cached.filter (·.generation = w.generation) with
    | .some cached =>
      let age := elapsedMs now cached.checkedAtUnixMs
      if age ≤ providerHealthCacheTtlMs then w.returnRead reader span (.ok (cached.answer now))
      else if age ≤ providerHealthCacheStaleMs then w.setReader reader (.stale span (cached.answer now))
      else w.setReader reader (.waiting span)
    | .none => w.setReader reader (.waiting span)
  | .stale span answer =>
    match w.refreshLock with
    | .none => w.spawnRefresh.returnRead reader span (.ok answer)
    | .some _ => w.returnRead reader span (.ok answer)
  | .waiting span =>
    match w.refreshLock with
    | .none => w.spawnRefresh.setReader reader (.awaiting span w.spawned)
    | .some _ => w
  | .awaiting span task =>
    match w.tasks task with
    | .some ⟨_, .done outcome⟩ => w.returnRead reader span outcome
    | .some ⟨_, .aborted reason⟩ =>
      w.returnRead reader span (.error ("provider health refresh task failed: " ++ reason))
    | _ => w
  | .returned .. => w
  | .cancelled => w

/-- The caller goes away; a task it started goes on. -/
def cancel (w : World V) (reader : Nat) : World V :=
  match w.readers reader with
  | .returned .. => w
  | _ => w.setReader reader .cancelled

def step (w : World V) : Event V → World V
  | .tick ms => { w with clock := w.clock + ms }
  | .reconfigure skipped =>
    { w with past := w.past ++ [w.generation], generation := w.generation + skipped + 1 }
  | .read reader => w.read reader
  | .cancel reader => w.cancel reader
  | .advance task => w.advance task
  | .observe task => w.observe task
  | .respond task result => w.respond task result
  | .abort task reason => w.abort task reason

def run (w : World V) (events : List (Event V)) : World V := events.foldl step w

/-- The task's probe is in flight. -/
def Probing (w : World V) (task : Nat) : Prop :=
  ∃ span left generation seen, w.tasks task = .some ⟨span, .probing left generation seen⟩

end World

end Pillar.HealthCache
