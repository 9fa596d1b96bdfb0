/-
An EVM receipt as providers give it (`pillar-runtime`,
`provider_health/evm_helpers.rs`, `evm_observations.rs`, `normalize.rs`): its
normal form, the fingerprint under which it is voted for, and the check that a
later receipt still holds the packet log that was resolved.
-/
import Pillar.PacketSent

namespace Pillar.Receipt

open Hex Text PacketSent

/-! ## Numbers -/

def parseNumericString (value : String) : Option String :=
  let trimmed := trim value
  if trimmed.isEmpty then .none
  else
    match (stripPrefix "0x" trimmed).or (stripPrefix "0X" trimmed) with
    | .some digits => (fromStrRadix 16 128 digits).toOption.map Nat.repr
    | .none => (parseSigned 128 trimmed).toOption.map Int.repr

def numericResponse : Json → Option String
  | .number n => (Json.number n).asI64.map Int.repr
  | .string value => parseNumericString value
  | _ => .none

/-! ## Normal form -/

def evmTransactionHashBody (value : String) : String :=
  ((stripPrefix "0x" value).or (stripPrefix "0X" value)).getD value

def evmTransactionHashMatches (observed expected : String) : Bool :=
  eqIgnoreAsciiCase (evmTransactionHashBody observed) (evmTransactionHashBody expected)

def normalizeEvmTransactionHash (value : String) : String :=
  let lower := toAsciiLowercase value
  if (stripPrefix "0x" lower).isSome then lower else "0x" ++ lower

def quantity (value field : String) : Except String String :=
  match parseNumericString value with
  | .some number => .ok number
  | .none => .error s!"invalid receipt {field}"

/-- One log, against the normal form of its receipt's placement. -/
def normalizeLog (transactionHash blockHash blockNumber : String) (log : EvmReceiptLog) :
    Except String EvmReceiptLog :=
  if log.removed then .error "receipt contains a removed log"
  else do
    let logTransactionHash := normalizeEvmTransactionHash log.transactionHash
    let logBlockHash := toAsciiLowercase log.blockHash
    let logBlockNumber ← quantity log.blockNumber "log blockNumber"
    let logIndex ← quantity log.logIndex "logIndex"
    if logTransactionHash ≠ transactionHash ∨ logBlockHash ≠ blockHash ∨ logBlockNumber ≠ blockNumber then
      .error "receipt log placement does not match its receipt"
    else
      .ok
        { address := toAsciiLowercase log.address
          topics := log.topics.map toAsciiLowercase
          data := toAsciiLowercase log.data
          transactionHash := logTransactionHash
          blockHash := logBlockHash
          blockNumber := logBlockNumber
          logIndex
          removed := log.removed }

def normalize (receipt : EvmTransactionReceipt) (expectedTxHash : String) : Except String EvmTransactionReceipt :=
  let transactionHash := normalizeEvmTransactionHash receipt.transactionHash
  if !evmTransactionHashMatches transactionHash expectedTxHash then
    .error "receipt transactionHash does not match requested transaction"
  else do
    let blockHash := toAsciiLowercase receipt.blockHash
    let blockNumber ← quantity receipt.blockNumber "blockNumber"
    let status ← quantity receipt.status "status"
    let logs ← receipt.logs.mapM (normalizeLog transactionHash blockHash blockNumber)
    if (logs.map EvmReceiptLog.logIndex).Nodup then .ok { transactionHash, blockHash, blockNumber, status, logs }
    else .error "receipt contains duplicate logIndex"

/-! ## Fingerprint -/

/-- `#[derive(Serialize)]`, entries in key order. -/
def logValue (log : EvmReceiptLog) : Json :=
  .object [("address", .string log.address), ("blockHash", .string log.blockHash),
    ("blockNumber", .string log.blockNumber), ("data", .string log.data), ("logIndex", .string log.logIndex),
    ("removed", .bool log.removed), ("topics", .array (log.topics.map .string)),
    ("transactionHash", .string log.transactionHash)]

def receiptValue (receipt : EvmTransactionReceipt) (logs : List Json) : Json :=
  .object [("blockHash", .string receipt.blockHash), ("blockNumber", .string receipt.blockNumber),
    ("logs", .array logs), ("status", .string receipt.status), ("transactionHash", .string receipt.transactionHash)]

/-- `map.remove(key)`. -/
def removeKey (key : String) : Json → Json
  | .object entries => .object (entries.filter (·.1 ≠ key))
  | value => value

/-- The key the logs are sorted by; a negative index comes last. -/
def sortKey (log : EvmReceiptLog) : Nat :=
  match parse 128 log.logIndex with
  | .ok index => index
  | .error _ => 2 ^ 128 - 1

/-- What is voted for: the logs in index order, without the indexes. -/
def votedReceipt (receipt : EvmTransactionReceipt) : Json :=
  let logs := receipt.logs.mergeSort fun a b => sortKey a ≤ sortKey b
  receiptValue receipt (logs.map fun log => removeKey "logIndex" (logValue log))

/-- `serde_json`'s compact writer and SHA-256. -/
structure Digest where
  hex : HexCrate
  toWriter : Json → List UInt8
  sha256 : List UInt8 → Abi.Bytes 32

def canonicalJsonFingerprint (digest : Digest) (value : Json) : String :=
  digest.hex.encode (digest.sha256 (digest.toWriter value)).val

def evmReceiptFingerprint (digest : Digest) (receipt : EvmTransactionReceipt) : String :=
  canonicalJsonFingerprint digest (votedReceipt receipt)

/-! ## Binding -/

/-- `ok_or_else(|| error.to_string())`. -/
def okOr {α : Type} (error : String) : Option α → Except String α
  | .some a => .ok a
  | .none => .error error

/-- `parse::<i64>().map_err(|error| error.to_string())`. -/
def parseI64 (value : String) : Except String Int :=
  match parseSigned 64 value with
  | .ok n => .ok n
  | .error error => .error error.display

/-- The receipt's own fields, against the evidence. -/
def validateReceiptHeader (result : Json) (evidence : EvmSourceEvidence) (requestedTxHash : String) :
    Except String Unit := do
  let transactionHash ← okOr "source receipt transaction hash is missing"
    ((result.get "transactionHash").bind Json.asStr)
  if !evmTransactionHashMatches transactionHash requestedTxHash ||
      !evmTransactionHashMatches transactionHash evidence.transactionHash then
    .error "source receipt transaction hash changed"
  else
    let blockHash ← okOr "source receipt block hash is missing" ((result.get "blockHash").bind Json.asStr)
    let blockHash := toAsciiLowercase blockHash
    if blockHash ≠ toAsciiLowercase evidence.blockHash then
      .error s!"source receipt block hash changed from {evidence.blockHash} to {blockHash}"
    else
      let value ← okOr "source receipt block number is missing" (result.get "blockNumber")
      let number ← okOr "source receipt block number is invalid" (numericResponse value)
      let blockNumber ← parseI64 number
      if blockNumber ≠ evidence.blockNumber then
        .error s!"source receipt block number changed from {evidence.blockNumber} to {blockNumber}"
      else
        let status ← okOr "source receipt execution status is missing" (result.get "status")
        let status ← okOr "source receipt execution status is invalid" (numericResponse status)
        if status ≠ "1" ∨ status ≠ evidence.status then
          .error s!"source receipt execution status changed: {status}"
        else .ok ()

/-- The packet log's fields, against the evidence. -/
def validatePacketLog (log : Json) (evidence : EvmSourceEvidence) : Except String Unit := do
  let logTxHash ← okOr "source PacketSent log transaction hash is missing"
    ((log.get "transactionHash").bind Json.asStr)
  let logBlockHash ← okOr "source PacketSent log block hash is missing" ((log.get "blockHash").bind Json.asStr)
  let number ← okOr "source PacketSent log block number is missing or invalid"
    ((log.get "blockNumber").bind numericResponse)
  let logBlockNumber ← parseI64 number
  if !evmTransactionHashMatches logTxHash evidence.transactionHash ||
      !eqIgnoreAsciiCase logBlockHash evidence.blockHash || logBlockNumber ≠ evidence.blockNumber then
    .error "source PacketSent log placement changed"
  else
    let logAddress ← okOr "source PacketSent log address is missing" ((log.get "address").bind Json.asStr)
    let logTopics ← okOr "source PacketSent log topics are missing" ((log.get "topics").bind Json.asArray)
    let topics ← okOr "source PacketSent log has invalid topics"
      (logTopics.mapM fun topic => topic.asStr.map toAsciiLowercase)
    let data ← okOr "source PacketSent log data is missing" ((log.get "data").bind Json.asStr)
    if !eqIgnoreAsciiCase logAddress evidence.packetLogAddress || topics ≠ evidence.packetLogTopics ||
        !eqIgnoreAsciiCase data evidence.packetLogData then
      .error "source PacketSent log contents changed"
    else .ok ()

/-- The index a log is looked up by. -/
def lookupIndex (log : Json) : Option Nat :=
  ((log.get "logIndex").bind numericResponse).bind fun index => (parse 64 index).toOption

def notRemoved (log : Json) : Bool :=
  match log.get "removed" with
  | .none | .some (.bool false) => true
  | _ => false

/-- The one log with the evidence's index, not removed. -/
def findPacketLog (logs : List Json) (evidence : EvmSourceEvidence) : Except String Json :=
  match logs.filter (fun log => lookupIndex log = .some evidence.packetLogIndex) with
  | [] => .error s!"source PacketSent log index {evidence.packetLogIndex} is no longer present"
  | _ :: _ :: _ => .error "source receipt contains duplicate PacketSent log index"
  | [log] =>
    if !notRemoved log then .error "source PacketSent log is removed or has an invalid removed state" else .ok log

def validateReceiptBinding (response : Json) (evidence : EvmSourceEvidence) (requestedTxHash : String) :
    Except String Unit := do
  let result ← okOr "source receipt disappeared" ((response.get "result").filter (!·.isNull))
  validateReceiptHeader result evidence requestedTxHash
  let logs ← okOr "source receipt logs are missing" ((result.get "logs").bind Json.asArray)
  let packetLog ← findPacketLog logs evidence
  validatePacketLog packetLog evidence

/-- A provider's answer to `eth_getTransactionReceipt`. -/
def receiptResponse (receipt : EvmTransactionReceipt) : Json :=
  .object [("result", receiptValue receipt (receipt.logs.map logValue))]

end Pillar.Receipt
