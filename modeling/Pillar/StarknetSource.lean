/-
Starknet as a source (`pillar-runtime`, `layerzero_runtime/source_events_starknet.rs`
and `packet_resolver.rs`): the receipt that providers agree on, the packets that
trusted endpoints emitted in it, and the one that a message asks for.

A vote leaves out which of the two accepted states a block is in: nothing that is
read of a receipt tells them apart.
-/
import Pillar.CairoBytes
import Pillar.Readiness
import Pillar.SerdeText
import Pillar.SourceEvents
import Pillar.StarknetPayload

namespace Pillar.StarknetSource

open Packet Text Hex SourceEvents
open Quorum (mapErr)
open PacketSent (LzSentEvent LzMessageId lzMessageIdMatches packetDoesNotMatch)
open Readiness (StarknetSourceEvidence numericHeight sameFelt)
open StarknetPayload (trimZeros)

/-! ## Felts and addresses -/

/-- `num_bigint::BigUint::parse_bytes` is asked for hexadecimal. -/
structure Crates extends PacketSent.Env where
  parseHexBytes : String → Option Nat

def normalizeStarknetAddress (address : String) : String :=
  let value := (stripPrefix "0x" (trim address)).getD (trim address)
  let value := trimZeros value
  toAsciiLowercase ("0x" ++ if value.isEmpty then "0" else value)

/-! ## Events -/

structure StarknetPacketSentEvent where
  endpointAddress : String
  sendLibrary : String
  packet : LzPacketV1
  options : String
  sourceEvidence : StarknetSourceEvidence

/-- A sent event with its evidence. -/
structure StarknetSentEvent extends LzSentEvent where
  starknetEvidence : StarknetSourceEvidence

def packetSentEventSelector : String := "0x1dce1b34b90259326b8f3d4fc4307bcd6f7daa7621d66d9d8ba984dea61cca9"

def unexpectedEnd : String := "Unexpected end of response"

/-- `ok_or_else`. -/
def okOr {ε α : Type} (error : ε) (value : Option α) : Exec ε α := value.elim (Exec.err error) .ok

/-- `u64::try_from`. -/
def toUInt64 (n : Nat) : Option UInt64 := if n < 2 ^ 64 then .some (.ofNat n) else .none

def eventsOf (receipt : Json) : List Json := ((receipt.get "events").bind Json.asArray).getD []

def fromAddress (event : Json) : Option String := (event.get "from_address").bind Json.asStr

def dataOf (event : Json) : List Json := ((event.get "data").bind Json.asArray).getD []

def blockNumberOf (receipt : Json) : Option Int64 := numericHeight (receipt.get "block_number")

section

variable (crates : Crates) (config : PacketSent.Config) (trustedEndpointAddresses : List String)

def feltDecimal (felt : String) : Option String :=
  (crates.parseHexBytes ((stripPrefix "0x" felt).getD felt)).map Nat.repr

/-- The filter: the raw selector, and the raw address of a trusted endpoint. -/
def isPacketSent (event : Json) : Bool :=
  (Solana.pointer ["keys", "0"] event).bind Json.asStr = .some packetSentEventSelector &&
    (fromAddress event).any fun address =>
      (trustedEndpointAddresses.map normalizeStarknetAddress).contains address

/-- The packet and the options in an event's data. -/
def packetAndOptionsOf (event : Json) : Exec String (List UInt8 × List UInt8) :=
  mapErr (fun _ => unexpectedEnd) (CairoBytes.packetAndOptions crates.hex (dataOf event) ⟨0, []⟩).1

def decodeStarknetPacketSentEvent (receipt : Json) (event : Json × Nat) : Exec String StarknetPacketSentEvent := do
  let endpointAddress := (fromAddress event.1).getD ""
  let sendLibrary ← okOr unexpectedEnd
    (((Solana.pointer ["keys", "1"] event.1).bind Json.asStr).bind (feltDecimal crates))
  let (encodedPacket, options) ← packetAndOptionsOf crates event.1
  let packet ← mapErr AppCoreError.display (decodeLzPacketV1 crates.hex (hexText crates.hex encodedPacket))
  let blockHash ← okOr "Missing Starknet receipt block_hash" ((receipt.get "block_hash").bind Json.asStr)
  let blockNumber ← okOr "Missing Starknet receipt block_number" (blockNumberOf receipt)
  let transactionHash ← okOr "Missing Starknet receipt transaction_hash"
    ((receipt.get "transaction_hash").bind Json.asStr)
  let eventIndex ← okOr "Starknet event index exceeds u64" (toUInt64 event.2)
  return {
    endpointAddress, sendLibrary, packet
    options := hexText crates.hex options
    sourceEvidence := { blockHash, blockNumber, transactionHash, eventIndex, event := event.1 } }

def decodeStarknetPacketSentEvents (receipt : Json) : Exec String (List StarknetPacketSentEvent) :=
  ((eventsOf receipt).zipIdx.filter fun event => isPacketSent trustedEndpointAddresses event.1).mapM
    (decodeStarknetPacketSentEvent crates receipt)

def withEvidence (evidence : StarknetSourceEvidence) :
    SourceEventConversion LzSentEvent → SourceEventConversion StarknetSentEvent
  | .converted event => .converted ⟨event, evidence⟩
  | .notOurs => .notOurs
  | .sourceFault error => .sourceFault error

def starknetPacketToLzSentEvent (srcTxHash : String) (event : StarknetPacketSentEvent) :
    Exec AppCoreError (SourceEventConversion StarknetSentEvent) := do
  let conversion ← packetToLzSentEvent crates.toEnv config srcTxHash event.packet event.options
    [("sendLibrary", .string event.sendLibrary), ("packetEmitAddress", .string event.endpointAddress)]
  return withEvidence event.sourceEvidence conversion

/-- A receipt that is succeeded and accepted, of the transaction that was asked for, and in a block. -/
def checkReceipt (srcTxHash : String) (receipt : Json) : Exec AppCoreError Unit :=
  if (receipt.get "execution_status").bind Json.asStr ≠ .some "SUCCEEDED" then
    Exec.err (.internal s!"Transaction failed for tx {srcTxHash}")
  else if !accepted ((receipt.get "finality_status").bind Json.asStr) then
    Exec.err (.internal s!"Transaction is not accepted for tx {srcTxHash}")
  else do
    let receiptTxHash ← okOr (AppCoreError.internal "Missing Starknet receipt transaction_hash")
      ((receipt.get "transaction_hash").bind Json.asStr)
    if !sameFelt receiptTxHash srcTxHash then
      Exec.err (.internal "Starknet receipt transaction hash does not match request")
    else if ((receipt.get "block_hash").bind Json.asStr).all String.isEmpty then
      Exec.err (.internal s!"Block hash not yet populated for tx {srcTxHash}")
    else if (blockNumberOf receipt).isNone then Exec.err (.internal "Missing Starknet receipt block_number")
    else .ok ()
where
  accepted (status : Option String) : Bool :=
    status = .some "ACCEPTED_ON_L2" || status = .some "ACCEPTED_ON_L1"

/-- `get_lz_sent_event` of Starknet, from a receipt on. -/
def sentEventOfReceipt (lzMessageId : LzMessageId) (srcTxHash : String) (receipt : Json) :
    Exec AppCoreError StarknetSentEvent := do
  checkReceipt srcTxHash receipt
  let events ← mapErr AppCoreError.internal (decodeStarknetPacketSentEvents crates trustedEndpointAddresses receipt)
  resolve (starknetPacketToLzSentEvent crates config srcTxHash)
    (fun sent => lzMessageIdMatches crates.toEnv lzMessageId sent.lzMessageId) (packetDoesNotMatch srcTxHash) events

end

/-! ## The vote -/

/-- `project_fields`. -/
def projectFields (keys : List String) : Json → Json
  | .object entries => .object (entries.filter fun entry => keys.contains entry.1)
  | value => value

def receiptFields : List String :=
  ["execution_status", "finality_status", "transaction_hash", "block_hash", "block_number", "events"]

def isAccepted (receipt : Json) : Bool :=
  checkReceipt.accepted ((receipt.get "finality_status").bind Json.asStr)

/-- What is voted for: of the finality, whether it is accepted, and else what it is. -/
def votedReceipt (receipt : Json) : Json :=
  let field (key : String) : Json := (receipt.get key).getD .null
  .array [field "execution_status", .bool (isAccepted receipt),
    if isAccepted receipt then .null else field "finality_status",
    field "transaction_hash", field "block_hash", field "block_number", field "events"]

/-- A response as it is parsed. -/
abbrev Parsed : Type := { response : Json // SerdeText.Numbered response }

section

variable (fingerprints : SerdeText.Fingerprints)

/-- A receipt without what no reader reads, under its vote; that there is none is voted for too. -/
def resultVote (result : Json) : String × Json :=
  if result.isNull then ("null", result)
  else
    let value := projectFields receiptFields result
    (fingerprints.fingerprint (votedReceipt value), value)

def receiptVote (answer : Except RpcError Parsed) : Quorum.Observation Json :=
  (PayloadSigned.providerResponse answer).map fun response =>
    (response.bind fun response => response.val.get "result").map (resultVote fingerprints)

variable (crates : Crates) (config : PacketSent.Config) (trustedEndpointAddresses : List String)
  (providers : PayloadSigned.Providers) (answers : Nat → Except RpcError Parsed)

/-- `get_lz_sent_event` of Starknet; `answers` is what each provider answers for the receipt. -/
def getLzSentEvent (lzMessageId : LzMessageId) (srcTxHash : String) : Exec AppCoreError StarknetSentEvent := do
  let (rule, order) ← EvmPayload.orErr (providers.dispatch "starknet")
  let receipt ← Quorum.resolveProviderQuorumForIndices
    (order.map fun i => (i, receiptVote fingerprints (answers i))) (List.range rule.voters.length) rule
    "Starknet transaction receipt"
  sentEventOfReceipt crates config trustedEndpointAddresses lzMessageId srcTxHash receipt

end

end Pillar.StarknetSource
