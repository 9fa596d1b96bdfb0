/-
Responses parsed through a projection (`pillar-runtime`,
`provider_health/transport/projection.rs`, `evm_observations.rs` and
`evm_transaction_observations.rs`; `pillar-core`, `json.rs`).

The deserializer is `serde_json`'s: it hands a visitor the values of a text from
left to right, so `Seed` recurses on the text. How it decodes a string or a number is
a parameter. The limits of the reader are left out: within them it only passes the
bytes on, and the `retained` flag says which of them it counts.
-/
import Pillar.Halt
import Pillar.JsonGrammar
import Pillar.Receipt

namespace Pillar.Projection

open JsonGrammar
open Receipt (numericResponse parseI64)

/-! ## Projections -/

inductive Node where
  | all
  | object (fields : List (String × Node))
  | array (element : Node) (limit : Nat)
  | rpc (result : Node)

def evmHeader : Node :=
  .object [("number", .all), ("hash", .all), ("parentHash", .all), ("timestamp", .all), ("receiptsRoot", .all)]

def evmTransaction : Node :=
  .object [("hash", .all), ("from", .all), ("blockHash", .all), ("blockNumber", .all)]

def starknetTransaction : Node :=
  .object [("transaction_hash", .all), ("sender_address", .all), ("nonce", .all), ("version", .all), ("type", .all)]

def stellarLedger : Node := .object [("sequence", .all), ("closeTime", .all), ("ledgerCloseTime", .all)]
def stellarLedgers : Node := .object [("ledgers", .array stellarLedger 1)]

def forPost (body : Json) : Option Node := do
  let method ← body.get "method"
  let method ← method.asStr
  let result ←
    if method = "getLatestLedger" then .some stellarLedger
    else if method = "getLedgers" then .some stellarLedgers
    else if method = "eth_getBlockByNumber" ∨ method = "eth_getBlockByHash" then .some evmHeader
    else if method = "eth_getTransactionByHash" then .some evmTransaction
    else if method = "starknet_getTransactionByHash" then .some starknetTransaction
    else .none
  return .rpc result

/-! ## Parsing -/

inductive SeedError where
  | custom (message : String)
  | invalidType
  deriving Repr, DecidableEq

def rawValueToken : String := "$serde_json::private::RawValue"
def numberToken : String := "$serde_json::private::Number"

def reservedKey (key : String) : Except SeedError Unit :=
  if key = rawValueToken ∨ key = numberToken then .error (.custom s!"reserved JSON object key `{key}`") else .ok ()

/-- The projection of a member, if it is to be kept. -/
def child (node : Node) (key : String) : Except SeedError (Option Node) :=
  match node with
  | .object fields => .ok (fields.lookup key)
  | .rpc result =>
    .ok (if key = "result" then .some result
      else if key = "error" ∨ key = "id" ∨ key = "jsonrpc" then .some .all
      else .none)
  | .all | .array _ _ => .error (.custom "unexpected projected object")

section

variable (string : List Piece → String) (number : NumberToken → JsonNumber)

mutual
/-- `UntrustedValue::deserialize`. -/
def untrustedValue : Doc → Except SeedError Json
  | .null => .ok .null
  | .bool b => .ok (.bool b)
  | .number token => .ok (.number (number token))
  | .string pieces => .ok (.string (string pieces))
  | .array _ items => Json.array <$> untrustedItems items
  | .object _ members => Json.object <$> untrustedMembers [] members

def untrustedItems : Items → Except SeedError (List Json)
  | .nil => .ok []
  | .cons _ item _ rest => do
    let value ← untrustedValue item
    let values ← untrustedItems rest
    return value :: values

def untrustedMembers (values : List (String × Json)) : Members → Except SeedError (List (String × Json))
  | .nil => .ok values
  | .cons _ key _ _ value _ rest => do
    reservedKey (string key)
    let value ← untrustedValue value
    untrustedMembers (Json.insertEntry (string key) value values) rest
end

/-- `Seed::deserialize`: everything, or what the visitor makes of it. -/
def deserialize (node : Node) (all visited : Except SeedError Json) : Except SeedError Json :=
  match node with
  | .all => all
  | .object _ | .array _ _ | .rpc _ => visited

mutual
def seed (node : Node) : Doc → Except SeedError Json
  | .null => deserialize node (untrustedValue string number .null) (.ok .null)
  | .bool b => deserialize node (untrustedValue string number (.bool b)) (.error .invalidType)
  | .number token => deserialize node (untrustedValue string number (.number token)) (.error .invalidType)
  | .string pieces => deserialize node (untrustedValue string number (.string pieces)) (.error .invalidType)
  | .array blank items =>
    deserialize node (untrustedValue string number (.array blank items))
      (match node with
      | .array element limit => Json.array <$> visitSeq element limit items
      | _ => .error (.custom "unexpected projected array"))
  | .object blank members =>
    deserialize node (untrustedValue string number (.object blank members))
      (Json.object <$> visitMap node [] members)

/-- The elements up to the limit; the rest is ignored. -/
def visitSeq (element : Node) (limit : Nat) : Items → Except SeedError (List Json)
  | .nil => .ok []
  | .cons _ item _ rest =>
    match limit with
    | 0 => .ok []
    | limit + 1 => do
      let value ← seed element item
      let values ← visitSeq element limit rest
      return value :: values

/-- A member that is not kept is ignored. -/
def visitMap (node : Node) (result : List (String × Json)) : Members → Except SeedError (List (String × Json))
  | .nil => .ok result
  | .cons _ key _ _ value _ rest => do
    match ← child node (string key) with
    | .some projection =>
      if (result.lookup (string key)).isSome then .error (.custom "duplicate projected field")
      else do
        let value ← seed projection value
        visitMap node (Json.insertEntry (string key) value result) rest
    | .none => visitMap node result rest
end

end

/-! ## What is read from a response -/

structure BlockTime where
  number : Int
  hash : String
  parentHash : String
  timestamp : Int
  deriving Repr, DecidableEq

structure BlockTimeObservation where
  fingerprint : String
  block : BlockTime
  deriving Repr, DecidableEq

structure TransactionFromObservation where
  fingerprint : String
  «from» : String
  deriving Repr, DecidableEq

def millisThreshold20010101 : Int := 978307200000

def normalizeTimestampToSeconds (timestamp : Int) : Int :=
  if timestamp > millisThreshold20010101 then timestamp / 1000 else timestamp

/-- `Option::ok_or`. -/
def okOr {ε α : Type} (o : Option α) (e : ε) : Except ε α :=
  match o with
  | .some a => .ok a
  | .none => .error e

section

-- how `serde_json` prints a value
variable (display : Json → String)

def parseBlockTimestampSeconds (response : Json) : Except String Int := do
  let timestamp ← okOr ((response.get "result").bind (·.get "timestamp")) "Missing block timestamp"
  let rawTimestamp ← okOr (numericResponse timestamp) s!"Invalid block timestamp: {display timestamp}"
  let rawTimestamp ← parseI64 rawTimestamp
  return normalizeTimestampToSeconds rawTimestamp

def parseBlockNumber (response : Json) : Except String Int := do
  let result ← okOr ((response.get "result").filter (!·.isNull)) "Missing block"
  let number ← okOr (result.get "number") "Missing block number"
  let number ← okOr (numericResponse number) "Invalid block number"
  parseI64 number

/-- A hash of the block, in lower case. -/
def lowercaseField (result : Json) (key : String) (error : String) : Except AppCoreError String :=
  okOr (((result.get key).bind Json.asStr).map Text.toAsciiLowercase) (.internal error)

def parseBlockTimeObservation (response : Json) : Except AppCoreError BlockTimeObservation := do
  let result ← okOr ((response.get "result").filter (!·.isNull)) (.internal "Missing block")
  let number ← okOr (result.get "number") (AppCoreError.internal "Missing block number")
  let number ← okOr (numericResponse number) (AppCoreError.internal "Invalid block number")
  let number ← (parseI64 number).mapError .internal
  let hash ← lowercaseField result "hash" "Missing block hash"
  let parentHash ← lowercaseField result "parentHash" "Missing block parentHash"
  let timestamp ← (parseBlockTimestampSeconds display response).mapError .internal
  return {
    fingerprint := s!"{number}|{hash}|{parentHash}|{timestamp}"
    block := { number, hash, parentHash, timestamp } }

def normalizeFingerprintValue : Json → String
  | .string value => Text.toAsciiLowercase value
  | .null => ""
  | value => display value

def fingerprintFields : List String := ["hash", "from", "blockHash", "blockNumber"]

def parseTransactionFromObservation (response : Json) : Except AppCoreError TransactionFromObservation := do
  let result ← okOr ((response.get "result").filter (!·.isNull)) (.internal "Missing transaction")
  let sender ← lowercaseField result "from" "Missing transaction from"
  let fingerprint := "|".intercalate
    (fingerprintFields.map fun key => ((result.get key).map (normalizeFingerprintValue display)).getD "")
  return { fingerprint, «from» := sender }

end

end Pillar.Projection
