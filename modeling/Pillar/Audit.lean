/-
Durable evidence of signatures (`pillar-core`, `audit.rs`; `pillar-signer`,
`effects.rs`): one wallet's signing inside a validated intent, from the first
attempt it begins to the last write about it.

What signs is any future: it starts calls of `run_sign` and
`sign_owned_effect`, drops them where they stand, and returns what it likes.
The store answers each call as it likes, effects end as they like, and each
party may be cut off at any await point. An event that is not possible changes
nothing. Budget permits and their outcomes are left out; local signing begins
and records as `run_sign` does.
-/
import Pillar.Core

namespace Pillar.Audit

inductive EvidenceKind where
  | externalReturned
  | outcomeUnknown
  | walletReturned
  deriving Repr, DecidableEq

/-- A `record` call of the store. -/
structure Evidence where
  attempt : Int
  kind : EvidenceKind
  signatureHash : Option String
  deriving Repr, DecidableEq

structure Signature where
  signature : String
  address : String
  deriving Repr, DecidableEq

inductive SignerError where
  | message (text : String)
  | admission (error : BudgetError)
  | audit (message : String)
  deriving Repr, DecidableEq

/-- What the module takes from elsewhere: Keccak, in hexadecimal, and whether a
runtime is current where a future is dropped (`Handle::try_current`). -/
structure Env where
  fingerprint : List UInt8 → String
  runtime : Bool

/-- What an effect amounts to. -/
abbrev Outcome := Except SignerError (List UInt8)

/-! ## Where each party stands -/

/-- A call of `run_sign`, or of `sign_owned_effect` (`owned`). -/
inductive CallAt where
  | beginning (owned : Bool)
  | begun (attempt : Int)
  | running (attempt : Int)
  | recording (attempt : Int) (outcome : Outcome)
  | awaiting (attempt : Int)
  | returned (outcome : Outcome)
  | dropped

/-- The detached worker of `sign_owned_effect`; `lost` once it found its caller
gone. -/
inductive WorkerAt where
  | queued
  | closing
  | running (lost : Bool)
  | losing
  | recording (lost : Bool) (outcome : Outcome)
  | sending (lost : Bool) (outcome : Outcome)
  | regretting
  | sent (outcome : Outcome)
  | stopped

/-- `sign_wallet`; `rest` are the attempts its loop has still to record, the
first of them asked for. -/
inductive WalletAt where
  | running
  | recording (result : Except AppCoreError Signature) (rest : List Int)
  | returned (result : Except AppCoreError Signature)
  | dropped

/-- `attempts` is the wallet scope's list; `guard` what the task spawned by the
drop guard has still to write. Which call began and started which attempt, and
every write issued and acknowledged, are kept on the side. -/
structure World where
  attempts : List (Int × Bool)
  calls : Nat → Option CallAt
  workers : Nat → Option (Int × WorkerAt)
  wallet : WalletAt
  guard : List Int
  begun : List (Nat × Int)
  started : List (Nat × Int)
  issued : List Evidence
  acked : List Evidence

inductive Event where
  | call (c : Nat) (owned : Bool)
  /-- A check before `begin` fails: workers, admission, reservation, identity. -/
  | refuse (c : Nat) (error : SignerError)
  | beginAnswer (c : Nat) (answer : Except String Int)
  | poll (c : Nat)
  | effect (c : Nat) (result : Outcome)
  | deadline (c : Nat)
  | answer (c : Nat) (answer : Except String Unit)
  | receive (c : Nat)
  | drop (c : Nat)
  | workerStart (c : Nat)
  | workerEffect (c : Nat) (result : Outcome)
  | workerLost (c : Nat)
  | workerAnswer (c : Nat) (answer : Except String Unit)
  | workerSend (c : Nat)
  | workerAbort (c : Nat)
  | walletReturn (result : Except AppCoreError Signature)
  | walletAnswer (answer : Except String Unit)
  | dropWallet
  | guardAnswer (answer : Except String Unit)

/-! ## The scope -/

/-- `WalletScope::recorded`. -/
def markRecorded (id : Int) : List (Int × Bool) → List (Int × Bool)
  | [] => []
  | (attempt, recorded) :: rest =>
    if attempt = id then (attempt, true) :: rest else (attempt, recorded) :: markRecorded id rest

def attemptIds (attempts : List (Int × Bool)) : List Int := attempts.map Prod.fst

def openAttempts (attempts : List (Int × Bool)) : List Int := (attempts.filter fun a => !a.2).map Prod.fst

def unknown (attempt : Int) : Evidence := ⟨attempt, .outcomeUnknown, .none⟩

def Env.returned (env : Env) (attempt : Int) (signature : List UInt8) : Evidence :=
  ⟨attempt, .externalReturned, .some (env.fingerprint signature)⟩

/-- What is recorded of an effect that ended. -/
def Env.effectEvidence (env : Env) (attempt : Int) : Outcome → Evidence
  | .ok signature => env.returned attempt signature
  | .error _ => unknown attempt

def Env.walletHash (env : Env) (signature : Signature) : String :=
  env.fingerprint signature.signature.toUTF8.data.toList

/-- What `sign_wallet` records of each attempt. -/
def Env.walletEvidence (env : Env) (attempt : Int) : Except AppCoreError Signature → Evidence
  | .ok signature => ⟨attempt, .walletReturned, .some (env.walletHash signature)⟩
  | .error _ => unknown attempt

namespace World

def new : World where
  attempts := []
  calls := fun _ => .none
  workers := fun _ => .none
  wallet := .running
  guard := []
  begun := []
  started := []
  issued := []
  acked := []

def setCall (w : World) (c : Nat) (pc : CallAt) : World := { w with calls := Function.update w.calls c (.some pc) }

def setWorker (w : World) (c : Nat) (id : Int) (pc : WorkerAt) : World :=
  { w with workers := Function.update w.workers c (.some (id, pc)) }

def issue (w : World) (evidence : Evidence) : World := { w with issued := evidence :: w.issued }

/-- The store answers a write; an acknowledged one marks its attempt. -/
def answered (w : World) (evidence : Evidence) : Except String Unit → World
  | .ok () =>
    { w with acked := evidence :: w.acked, attempts := markRecorded evidence.attempt w.attempts }
  | .error _ => w

/-- The outcome of a recorded effect, which is an error where the write failed. -/
def recordedOutcome (outcome : Outcome) : Except String Unit → Outcome
  | .ok () => outcome
  | .error message => .error (.audit message)

/-! ## Calls -/

def beginAnswer (w : World) (c : Nat) (answer : Except String Int) : World :=
  match w.calls c, answer with
  | .some (.beginning owned), .ok id =>
    let w := { w with attempts := w.attempts ++ [(id, false)], begun := w.begun ++ [(c, id)] }
    if owned then (w.setCall c (.awaiting id)).setWorker c id .queued else w.setCall c (.begun id)
  | .some (.beginning _), .error error => w.setCall c (.returned (.error (.audit error)))
  | _, _ => w

def poll (w : World) (c : Nat) : World :=
  match w.calls c with
  | .some (.begun id) => { w.setCall c (.running id) with started := (c, id) :: w.started }
  | _ => w

def effect (env : Env) (w : World) (c : Nat) (result : Outcome) : World :=
  match w.calls c with
  | .some (.running id) => (w.setCall c (.recording id result)).issue (env.effectEvidence id result)
  | _ => w

/-- `within_deadline`, of the effect or of the worker's answer. -/
def deadline (w : World) (c : Nat) : World :=
  match w.calls c with
  | .some (.begun _) | .some (.running _) | .some (.awaiting _) =>
    w.setCall c (.returned (.error (.admission .deadline)))
  | _ => w

def answer (env : Env) (w : World) (c : Nat) (answer : Except String Unit) : World :=
  match w.calls c with
  | .some (.recording id outcome) =>
    (w.answered (env.effectEvidence id outcome) answer).setCall c (.returned (recordedOutcome outcome answer))
  | _ => w

def receive (w : World) (c : Nat) : World :=
  match w.calls c, w.workers c with
  | .some (.awaiting _), .some (_, .sent outcome) => w.setCall c (.returned outcome)
  | .some (.awaiting _), .some (_, .stopped) =>
    w.setCall c (.returned (.error (.audit "durable audit: completion worker stopped; outcome remains unknown")))
  | _, _ => w

/-- A call dropped where it stands has nothing left to do. -/
def dropCall : CallAt → CallAt
  | .returned outcome => .returned outcome
  | _ => .dropped

def drop (w : World) (c : Nat) : World :=
  match w.calls c with
  | .some pc => w.setCall c (dropCall pc)
  | .none => w

/-! ## Workers -/

/-- `sender.is_closed()`: nobody waits for the worker's answer. -/
def closed (w : World) (c : Nat) : Bool :=
  match w.calls c with
  | .some (.awaiting _) => false
  | _ => true

def workerStart (w : World) (c : Nat) : World :=
  match w.workers c with
  | .some (id, .queued) =>
    if w.closed c then (w.setWorker c id .closing).issue (unknown id)
    else { w.setWorker c id (.running false) with started := (c, id) :: w.started }
  | _ => w

/-- The effect ends, a timeout of it being an error. -/
def workerEffect (env : Env) (w : World) (c : Nat) (result : Outcome) : World :=
  match w.workers c, result with
  | .some (id, .running true), .error error => w.setWorker c id (.sending true (.error error))
  | .some (id, .running lost), result =>
    (w.setWorker c id (.recording lost result)).issue (env.effectEvidence id result)
  | _, _ => w

/-- The caller goes away while the effect runs, which goes on. -/
def workerLost (w : World) (c : Nat) : World :=
  match w.workers c with
  | .some (id, .running false) => if w.closed c then (w.setWorker c id .losing).issue (unknown id) else w
  | _ => w

def workerAnswer (env : Env) (w : World) (c : Nat) (answer : Except String Unit) : World :=
  match w.workers c with
  | .some (id, .closing) => (w.answered (unknown id) answer).setWorker c id .stopped
  | .some (id, .losing) => (w.answered (unknown id) answer).setWorker c id (.running true)
  | .some (id, .recording lost outcome) =>
    (w.answered (env.effectEvidence id outcome) answer).setWorker c id
      (.sending lost (recordedOutcome outcome answer))
  | .some (id, .regretting) => (w.answered (unknown id) answer).setWorker c id .stopped
  | _ => w

def workerSend (w : World) (c : Nat) : World :=
  match w.workers c with
  | .some (id, .sending lost outcome) =>
    if w.closed c then
      if lost then w.setWorker c id .stopped else (w.setWorker c id .regretting).issue (unknown id)
    else w.setWorker c id (.sent outcome)
  | _ => w

/-- A worker cut off; an answer it sent stays in the channel. -/
def workerAbort (w : World) (c : Nat) : World :=
  match w.workers c with
  | .some (_, .sent _) => w
  | .some (id, _) => w.setWorker c id .stopped
  | .none => w

/-! ## The wallet -/

/-- `sign_wallet` ends; its guard is dropped, and hands the attempts still open
to a task of their own. -/
def finish (env : Env) (w : World) (pc : WalletAt) : World :=
  { w with wallet := pc, guard := if env.runtime then openAttempts w.attempts else [] }

/-- The loop's next turn. -/
def walletNext (env : Env) (w : World) (result : Except AppCoreError Signature) : List Int → World
  | [] => w.finish env (.returned result)
  | id :: rest => { w with wallet := .recording result (id :: rest) }.issue (env.walletEvidence id result)

def dropCalls (w : World) : World := { w with calls := fun c => (w.calls c).map dropCall }

def walletReturn (env : Env) (w : World) (result : Except AppCoreError Signature) : World :=
  match w.wallet with
  | .running =>
    let w := w.dropCalls
    let attempts := attemptIds w.attempts
    if result.toBool && attempts.isEmpty then
      w.finish env
        (.returned (.error (.internal "durable audit: signer emitted no auditable wallet attempt")))
    else w.walletNext env result attempts
  | _ => w

def walletAnswer (env : Env) (w : World) (answer : Except String Unit) : World :=
  match w.wallet, answer with
  | .recording result (id :: rest), .ok () =>
    (w.answered (env.walletEvidence id result) (.ok ())).walletNext env result rest
  | .recording _ (_ :: _), .error message => w.finish env (.returned (.error (.internal message)))
  | _, _ => w

def dropWallet (env : Env) (w : World) : World :=
  match w.wallet with
  | .running | .recording .. => w.dropCalls.finish env .dropped
  | _ => w

/-- The guard's task writes one attempt after the other, whatever the store
answers. -/
def guardAnswer (w : World) (answer : Except String Unit) : World :=
  match w.guard with
  | [] => w
  | id :: rest =>
    let w := { w with guard := rest }.issue (unknown id)
    match answer with
    | .ok () => { w with acked := unknown id :: w.acked }
    | .error _ => w

def step (env : Env) (w : World) : Event → World
  | .call c owned =>
    match w.wallet, w.calls c with
    | .running, .none => w.setCall c (.beginning owned)
    | _, _ => w
  | .refuse c error =>
    match w.calls c with
    | .some (.beginning _) => w.setCall c (.returned (.error error))
    | _ => w
  | .beginAnswer c answer => w.beginAnswer c answer
  | .poll c => w.poll c
  | .effect c result => w.effect env c result
  | .deadline c => w.deadline c
  | .answer c answer => w.answer env c answer
  | .receive c => w.receive c
  | .drop c => w.drop c
  | .workerStart c => w.workerStart c
  | .workerEffect c result => w.workerEffect env c result
  | .workerLost c => w.workerLost c
  | .workerAnswer c answer => w.workerAnswer env c answer
  | .workerSend c => w.workerSend c
  | .workerAbort c => w.workerAbort c
  | .walletReturn result => w.walletReturn env result
  | .walletAnswer answer => w.walletAnswer env answer
  | .dropWallet => w.dropWallet env
  | .guardAnswer answer => w.guardAnswer answer

def run (env : Env) (w : World) (events : List Event) : World := events.foldl (step env) w

/-- `sign_wallet` has returned or been dropped. -/
def finished (w : World) : Bool :=
  match w.wallet with
  | .returned _ => true
  | .dropped => true
  | _ => false

end World

end Pillar.Audit
