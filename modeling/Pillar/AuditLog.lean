/-
The durable audit log (`pillar-runtime`, `audit.rs`): its tables, and the two
transactions processes write them by.

Transactions are serializable, so each is one step; what is not committed is
rolled back, whichever statement failed, but an identity number once drawn is
gone. A commit whose answer is lost has happened. Times of rows and the
reachability flag are left out.
-/
import Pillar.Audit

namespace Pillar.AuditLog

open Audit (EvidenceKind)

inductive Failure where
  | unavailable
  | conflict
  | quota
  | configuration
  deriving Repr, DecidableEq

def Failure.message : Failure → String
  | .unavailable => "durable audit: store unavailable"
  | .conflict => "durable audit: validated intent conflicts with previous signed input"
  | .quota => "durable audit: retained evidence capacity exhausted"
  | .configuration => "durable audit: namespace configuration mismatch"

/-! ## Tables -/

structure NamespaceRow where
  namespace_ : String
  maxAttempts : Nat
  attemptCount : Nat
  deriving Repr, DecidableEq

/-- `pillar_audit_intent`'s primary key. -/
structure IntentKey where
  namespace_ : String
  requestHash : String
  walletHash : String
  backend : String
  keyReferenceHash : String
  keyVersionHash : String
  deriving Repr, DecidableEq

/-- What two attempts of one intent must agree in. -/
structure Signed where
  publicKeyHash : String
  signedDigest : String
  algorithm : String
  keyReference : String
  keyVersion : String
  deriving Repr, DecidableEq

structure IntentRow where
  key : IntentKey
  signed : Signed
  deriving Repr, DecidableEq

structure AttemptRow where
  id : Nat
  key : IntentKey
  signed : Signed
  validationHash : String
  sourceChain : String
  destinationChain : String
  expiration : Int
  providerGeneration : Nat
  deriving Repr, DecidableEq

/-- `writer` is the namespace of the process that wrote the row, which has no
column. -/
structure EvidenceRow where
  attemptId : Nat
  kind : EvidenceKind
  signatureHash : Option String
  writer : String
  deriving Repr, DecidableEq

/-- The tables, and the next identity number. -/
structure Database where
  namespaces : List NamespaceRow
  intents : List IntentRow
  attempts : List AttemptRow
  evidence : List EvidenceRow
  sequence : Nat
  deriving Repr, DecidableEq

structure ValidatedIntent where
  requestHash : String
  validationHash : String
  sourceChain : String
  destinationChain : String
  expiration : Int
  providerGeneration : Nat

structure EffectiveKey where
  backend : String
  reference : String
  version : String
  publicKeyHash : String

structure AttemptIntent where
  validated : ValidatedIntent
  key : EffectiveKey
  walletHash : String
  signedDigest : String
  algorithm : String

/-! ## Transactions -/

def i64Max : Nat := 2 ^ 63 - 1

namespace Database

def empty : Database := ⟨[], [], [], [], 1⟩

def namespaceRow (db : Database) (name : String) : Option NamespaceRow :=
  db.namespaces.find? (·.namespace_ = name)

/-- `INSERT .. ON CONFLICT DO NOTHING`. -/
def insertNamespace (db : Database) (name : String) (maximum : Nat) : Database :=
  match db.namespaceRow name with
  | .some _ => db
  | .none => { db with namespaces := ⟨name, maximum, 0⟩ :: db.namespaces }

def intentRow (db : Database) (key : IntentKey) : Option IntentRow := db.intents.find? (·.key = key)

def insertIntent (db : Database) (row : IntentRow) : Database :=
  match db.intentRow row.key with
  | .some _ => db
  | .none => { db with intents := row :: db.intents }

def insertAttempt (db : Database) (row : AttemptRow) : Database :=
  { db with attempts := row :: db.attempts, sequence := db.sequence + 1 }

/-- `UPDATE .. SET attempt_count=attempt_count+1`. -/
def countAttempt (db : Database) (name : String) : Database :=
  { db with
    namespaces := db.namespaces.map fun row =>
      if row.namespace_ = name then { row with attemptCount := row.attemptCount + 1 } else row }

def evidenceRow (db : Database) (attempt : Nat) (kind : EvidenceKind) : Option EvidenceRow :=
  db.evidence.find? fun row => row.attemptId = attempt ∧ row.kind = kind

def insertEvidence (db : Database) (row : EvidenceRow) : Database :=
  match db.evidenceRow row.attemptId row.kind with
  | .some _ => db
  | .none => { db with evidence := row :: db.evidence }

end Database

variable (fingerprint : List UInt8 → String)

def utf8 (text : String) : List UInt8 := text.toUTF8.data.toList

def intentKey (name : String) (intent : AttemptIntent) : IntentKey where
  namespace_ := name
  requestHash := intent.validated.requestHash
  walletHash := intent.walletHash
  backend := intent.key.backend
  keyReferenceHash := fingerprint (utf8 intent.key.reference)
  keyVersionHash := fingerprint (utf8 intent.key.version)

def signedOf (intent : AttemptIntent) : Signed where
  publicKeyHash := intent.key.publicKeyHash
  signedDigest := intent.signedDigest
  algorithm := intent.algorithm
  keyReference := intent.key.reference
  keyVersion := intent.key.version

def attemptRow (key : IntentKey) (intent : AttemptIntent) (id : Nat) : AttemptRow where
  id := id
  key := key
  signed := signedOf intent
  validationHash := intent.validated.validationHash
  sourceChain := intent.validated.sourceChain
  destinationChain := intent.validated.destinationChain
  expiration := intent.validated.expiration
  providerGeneration := intent.validated.providerGeneration

/-- `initialize`, past the schema: the namespace's row. -/
def initializeNamespace (name : String) (maximum : Nat) (db : Database) : Except Failure (Unit × Database) := do
  -- `CHECK(max_attempts > 0)`.
  if maximum = 0 then .error .unavailable
  else
    let db := db.insertNamespace name maximum
    match db.namespaceRow name with
    | .none => .error .unavailable
    | .some row => if row.maxAttempts ≠ maximum then .error .configuration else .ok ((), db)

/-- `begin_inner`. The intent goes in before it is known to agree with the one
that was there. -/
def beginInner (name : String) (intent : AttemptIntent) (db : Database) : Except Failure (Nat × Database) := do
  match db.namespaceRow name with
  | .none => .error .unavailable
  | .some row =>
    if row.maxAttempts ≤ row.attemptCount then .error .quota
    else
      let key := intentKey fingerprint name intent
      let db := db.insertIntent ⟨key, signedOf intent⟩
      match db.intentRow key with
      | .none => .error .unavailable
      | .some stored =>
        if stored.signed ≠ signedOf intent then .error .conflict
        else if i64Max < intent.validated.providerGeneration then .error .unavailable
        else
          let id := db.sequence
          .ok (id, (db.insertAttempt (attemptRow key intent id)).countAttempt name)

/-- `record_inner`. -/
def recordInner (name : String) (attempt : Nat) (kind : EvidenceKind) (signatureHash : Option String) (db : Database) :
    Except Failure (Unit × Database) := do
  match db.attempts.find? fun row => row.id = attempt ∧ row.key.namespace_ = name with
  | .none => .error .conflict
  | .some _ =>
    let db := db.insertEvidence ⟨attempt, kind, signatureHash, name⟩
    match db.evidenceRow attempt kind with
    | .none => .error .unavailable
    | .some row => if row.signatureHash ≠ signatureHash then .error .conflict else .ok ((), db)

/-! ## Runs -/

/-- How a call fares: it runs to its end, a statement or the commit fails
(having drawn so many identity numbers), or its commit's answer is lost. -/
inductive Fate where
  | through
  | failed (drawn : Nat)
  | lost

/-- What a caller is told, and the database afterwards. -/
def transact {α : Type} (body : Database → Except Failure (α × Database)) (fate : Fate) (db : Database) :
    Except Failure α × Database :=
  match fate, body db with
  | .failed drawn, _ => (.error .unavailable, { db with sequence := db.sequence + drawn })
  | _, .error failure => (.error failure, db)
  | .through, .ok (value, db) => (.ok value, db)
  | .lost, .ok (_, db) => (.error .unavailable, db)

/-- A call by a process of the namespace `name`. -/
inductive Call where
  | initializeNamespace (name : String) (maximum : Nat)
  | begin (name : String) (intent : AttemptIntent)
  | record (name : String) (attempt : Nat) (kind : EvidenceKind) (signatureHash : Option String)

/-- What a call answers: an attempt's number where it began one. -/
def perform (call : Call) (fate : Fate) (db : Database) : Except Failure (Option Nat) × Database :=
  match call with
  | .initializeNamespace name maximum =>
    let (answer, db) := transact (initializeNamespace name maximum) fate db
    (answer.map fun _ => .none, db)
  | .begin name intent =>
    let (answer, db) := transact (beginInner fingerprint name intent) fate db
    (answer.map .some, db)
  | .record name attempt kind signatureHash =>
    let (answer, db) := transact (recordInner name attempt kind signatureHash) fate db
    (answer.map fun _ => .none, db)

def run (db : Database) (calls : List (Call × Fate)) : Database :=
  calls.foldl (fun db (call, fate) => (perform fingerprint call fate db).2) db

end Pillar.AuditLog
