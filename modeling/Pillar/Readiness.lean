/-
Whether a source transaction has the confirmations that are asked for, as one
provider sees it (`pillar-runtime`, `provider_health/evm_observations.rs`;
`layerzero_runtime/validation_readiness.rs`, `source_events_move.rs`,
`source_events_sui.rs`): an observer for each source family.

An observer first places the transaction: it reads the height it is at and the
height of the head, and checks that it is still the transaction that was
resolved. Then it counts. What a provider answers to each request is a
parameter, and may be anything.
-/
import Pillar.Expiration
import Pillar.PathSegment
import Pillar.PayloadSigned
import Pillar.Receipt
import Pillar.SolanaVote

namespace Pillar.Readiness

open Text Receipt
open Expiration (i64 checkedAddI64 checkedSubI64 inI64 inI64_iff inI64_toInt i64_of_inI64)
open PacketSent (EvmSourceEvidence)
open PayloadSigned (providerResponse)

/-! ## Votes -/

inductive BlockConfirmationValidity where
  | sufficient (receiptBlockHash : String) (receiptBlockNumber : Int64)
  | insufficient (receiptBlockHash : String) (receiptBlockNumber : Int64)
  | invalidRange
  | sourceChanged (reason : String)
  | missing
  deriving DecidableEq

structure BlockConfirmationObservation where
  validity : BlockConfirmationValidity
  currentConfirmations : Option Int64
  deriving DecidableEq

abbrev Observed := Except RpcError BlockConfirmationObservation

/-- An observation without a count. -/
def uncounted (validity : BlockConfirmationValidity) : BlockConfirmationObservation := ⟨validity, .none⟩

/-- What is found before anything is counted: the height of the transaction,
under the hash it is voted with, and the height of the head. -/
inductive Placed where
  | missing
  | sourceChanged (reason : String)
  | heights (hash : String) (height current : Int64)

/-- What is voted, given the count for the heights. -/
def Placed.vote (count : String → Int64 → Int64 → BlockConfirmationObservation) : Placed → BlockConfirmationObservation
  | .missing => uncounted .missing
  | .sourceChanged reason => uncounted (.sourceChanged reason)
  | .heights hash height current => count hash height current

/-! ## Counts -/

/-- `i64::saturating_sub`. -/
def saturatingSubI64 (a b : Int64) : Int64 := .ofInt (max (-2 ^ 63) (min (2 ^ 63 - 1) (a.toInt - b.toInt)))

def decided (met : Bool) (hash : String) (height confirmations : Int64) : BlockConfirmationObservation :=
  ⟨if met then .sufficient hash height else .insufficient hash height, .some confirmations⟩

/-- Solana, Starknet and Stellar. -/
def checkedCount (required : Int64) (hash : String) (height current : Int64) : BlockConfirmationObservation :=
  match checkedSubI64 current height, checkedAddI64 height required with
  | .some confirmations, .some requiredHeight =>
    if height < 0 ∨ current < 0 ∨ required < 0 then uncounted .invalidRange
    else decided (requiredHeight ≤ current) hash height confirmations
  | _, _ => uncounted .invalidRange

/-- Move and Sui, after `required` was found not to be negative. -/
def saturatingCount (required : Int64) (hash : String) (height current : Int64) : BlockConfirmationObservation :=
  if height < 0 ∨ current < 0 then uncounted .invalidRange
  else
    let confirmations := saturatingSubI64 current height
    decided (required ≤ confirmations) hash height confirmations

/-- TON, after `required` and `height` were found not to be negative: a head
behind the transaction counts as none. -/
def clampedCount (required : Int64) (hash : String) (height current : Int64) : BlockConfirmationObservation :=
  if current < 0 then uncounted .invalidRange
  else
    match checkedSubI64 current height with
    | .none => uncounted .invalidRange
    | .some confirmations =>
      let confirmations := max confirmations 0
      decided (required ≤ confirmations) hash height confirmations

/-! ## Reading -/

/-- A provider's answers: `post_json_scoped`, by method and parameters, and
`get_json_scoped`, by URL. -/
structure Endpoint where
  post : String → Option Json → Except RpcError Json
  get : String → Except RpcError Json

/-- `Display` of a value and `Debug` of a text. -/
structure Render where
  display : Json → String
  debug : String → String

/-- `Value::as_i64`. -/
def asInt64 (value : Json) : Option Int64 := value.asI64.bind i64

/-- `parse::<i64>().ok()`. -/
def parseInt64 (value : String) : Option Int64 := (parseSigned 64 value).toOption.map Int64.ofInt

/-- An integer, or a text that is one. -/
def integerOrText (value : Option Json) : Option Int64 :=
  (value.bind asInt64).or ((value.bind Json.asStr).bind parseInt64)

/-- `and_then(numeric_response)`, parsed. -/
def numericHeight (value : Option Json) : Option Int64 := (value.bind numericResponse).bind parseInt64

/-- `map_err(RpcError::Remote)`. -/
def remote {α : Type} : Except String α → Except RpcError α := Except.mapError .remote

def okOrRemote {α : Type} (error : String) (value : Option α) : Except RpcError α := remote (okOr error value)

/-- `to_string` of a height. -/
def heightText (height : Int64) : String := height.toInt.repr

section
variable (render : Render) (endpoint : Endpoint)

/-- An answer that holds an error is one. -/
def readinessResponse (response : Except RpcError Json) : Except RpcError Json := do
  let response ← response
  match response.get "error" with
  | .some error => .error (.remote (render.display error))
  | .none => .ok response

/-! ## EVM -/

/-- A number of `numeric_response`, `parse::<i64>()`. -/
def parseHeight (error : String) (value : Json) : Except String Int64 := do
  let number ← okOr error (numericResponse value)
  Int64.ofInt <$> parseI64 number

def parseBlockNumber (response : Json) : Except String Int64 := do
  let result ← okOr "Missing block" ((response.get "result").filter (!·.isNull))
  let number ← okOr "Missing block number" (result.get "number")
  parseHeight "Invalid block number" number

def parseBlockHash (response : Json) : Except String String := do
  let hash ← okOr "Missing block hash" ((response.pointer ["result", "hash"]).bind Json.asStr)
  return toAsciiLowercase hash

def parseReceiptBlockPlacement (response : Json) : Except String (String × Int64) := do
  let result ← okOr "Missing transaction receipt" ((response.get "result").filter (!·.isNull))
  let blockHash ← okOr "Missing receipt blockHash" ((result.get "blockHash").bind Json.asStr)
  let number ← okOr "Missing receipt blockNumber" (result.get "blockNumber")
  let blockNumber ← parseHeight "Invalid receipt blockNumber" number
  return (toAsciiLowercase blockHash, blockNumber)

/-- `eth_getBlockByNumber`, its number and hash. -/
def blockByNumber (tag : String) : Except RpcError (Int64 × String) := do
  let response ← endpoint.post "eth_getBlockByNumber" (.some (.array [.string tag, .bool false]))
  let number ← remote (parseBlockNumber response)
  let hash ← remote (parseBlockHash response)
  return (number, hash)

/-- The finalized block, when it is asked for. -/
def finalizedBlock (requireFinalized : Bool) : Except RpcError (Option (Int64 × String)) :=
  if requireFinalized then some <$> blockByNumber endpoint "finalized" else .ok .none

/-- A receipt, or none of this provider. -/
def receiptValue : Except RpcError Json → Except RpcError Json
  | .ok response =>
    if (response.get "error").isNone ∧ (response.get "result").isSome then .ok response
    else .error (.remote "transaction receipt unavailable")
  | .error (.remote _) | .error .unavailable => .error (.remote "transaction receipt unavailable")
  | .error error => .error error

/-- The receipt's binding and placement, against the latest block. -/
def evmReceiptPlaced (txHash : String) (sourceEvidence : Option EvmSourceEvidence) (receipt : Json)
    (latestBlock : Option Json) : Except RpcError Placed :=
  match sourceEvidence.map fun evidence => validateReceiptBinding receipt evidence txHash with
  | .some (.error reason) => .ok (.sourceChanged reason)
  | _ =>
    match (parseReceiptBlockPlacement receipt).toOption, numericHeight (latestBlock.bind (Json.get "result")) with
    | .some (hash, height), .some current => .ok (.heights hash height current)
    | _, _ => .error (.remote "receipt or latest block unavailable")

/-- An admission or configuration error of the receipt comes before the others'. -/
def evmPlaced (txHash : String) (sourceEvidence : Option EvmSourceEvidence) (requireFinalized : Bool) :
    Except RpcError (Placed × Option (Int64 × String)) := do
  let receipt := endpoint.post "eth_getTransactionReceipt" (.some (.array [.string txHash]))
  let _ ← providerResponse receipt
  let latestBlock ← providerResponse (endpoint.post "eth_blockNumber" (.some (.array [])))
  let finalized ← finalizedBlock endpoint requireFinalized
  let receipt ← receiptValue receipt
  let placed ← evmReceiptPlaced txHash sourceEvidence receipt latestBlock
  return (placed, finalized)

/-- The canonical header at the receipt's height; a second receipt read cannot rule out a fork. -/
def canonicalHash (height : Int64) (finalized : Int64 × String) : Except RpcError String :=
  if finalized.1 = height then .ok finalized.2
  else do
    let response ← endpoint.post "eth_getBlockByNumber"
      (.some (.array [.string ("0x" ++ String.ofList (Nat.toDigits 16 height.toInt.toNat)), .bool false]))
    let number ← remote (parseBlockNumber response)
    if number ≠ height then
      .error (.remote ("canonical header number " ++ heightText number ++ " does not match receipt height " ++
        heightText height))
    else remote (parseBlockHash response)

def evmCount (requireFinalized : Bool) (finalized : Option (Int64 × String)) (required : Int64) (hash : String)
    (height current : Int64) : Observed :=
  match checkedSubI64 current height, checkedAddI64 height required with
  | .some confirmations, .some requiredBlock =>
    if height < 0 ∨ current < 0 ∨ required < 0 then .ok (uncounted .invalidRange)
    else
      let met : Bool := requiredBlock ≤ current
      match finalized with
      | .none => .ok (decided (met && !requireFinalized) hash height (max confirmations 0))
      | .some block =>
        if block.1 < height then .ok (decided (met && !requireFinalized) hash height (-1))
        else do
          let canonical ← canonicalHash endpoint height block
          if canonical ≠ hash then
            .ok (uncounted (.sourceChanged ("canonical block hash at height " ++ heightText height ++ " is " ++
              render.debug canonical ++ ", not receipt block " ++ hash)))
          else .ok (decided met hash height (max confirmations 0))
  | _, _ => .ok (uncounted .invalidRange)

def observeBlockConfirmations (txHash : String) (sourceEvidence : Option EvmSourceEvidence) (required : Int64)
    (requireFinalized : Bool) : Observed := do
  let (placed, finalized) ← evmPlaced endpoint txHash sourceEvidence requireFinalized
  match placed with
  | .heights hash height current => evmCount render endpoint requireFinalized finalized required hash height current
  | placed => .ok (placed.vote (checkedCount required))

/-! ## Move -/

/-- `aptos_ledger_version`. -/
def aptosLedgerVersion (srcTxHash : String) : Option String :=
  match (stripPrefix "0x" srcTxHash).or (stripPrefix "0X" srcTxHash) with
  | .some hex => if hex.isEmpty then .none else (fromStrRadix 16 128 hex).toOption.map Nat.repr
  | .none =>
    if !srcTxHash.isEmpty && srcTxHash.toList.all Char.isDigit then (parse 128 srcTxHash).toOption.map Nat.repr
    else .none

/-- `Map::retain`, of the key and the value. -/
def retainKeyValue : Json → Json
  | .object entries => .object (entries.filter fun entry => entry.1 = "key" ∨ entry.1 = "value")
  | value => value

/-- The entry of a key that is there, changed. -/
def modify (key : String) (f : Json → Json) : Json → Json
  | .object entries => .object (entries.map fun entry => if entry.1 = key then (entry.1, f entry.2) else entry)
  | value => value

/-- The values of an array, changed. -/
def modifyEach (f : Json → Json) : Json → Json
  | .array values => .array (values.map f)
  | value => value

/-- `unwrap_initia_tx`. -/
def unwrapInitiaTx (response : Json) : Json :=
  let outerTx := response.get "tx"
  let response := removeKey "tx" response
  let transaction := (response.get "tx_response").getD response
  let transaction :=
    match outerTx, transaction with
    | .some tx, .object entries =>
      if (entries.lookup "tx").isSome then transaction else .object (Json.insertEntry "tx" tx entries)
    | _, _ => transaction
  modify "events" (modifyEach (modify "attributes" (modifyEach retainKeyValue))) transaction

/-- `move_latest_block_url`. -/
def moveLatestBlockUrl (chainName base : String) : String :=
  if chainName = "initia" then
    LayerzeroRuntime.trimEndMatches base ++ "/cosmos/base/tendermint/v1beta1/blocks/latest"
  else LayerzeroRuntime.trimEndMatches base

/-- `fetch_move_transaction`. -/
def fetchMoveTransaction (chainName base txHash : String) : Except RpcError Json := do
  let url ← okOrRemote ("Unusable transaction hash for " ++ chainName)
    (LayerzeroRuntime.moveTxUrl chainName base txHash)
  let response ← endpoint.get url
  return if chainName = "initia" then unwrapInitiaTx response else response

/-- The version a block is asked for by. -/
def blockVersion (ledgerVersion : Option String) (transaction : Json) : String :=
  ledgerVersion.getD (((transaction.get "version").bind fun value =>
    value.asStr.or (value.asU64.map fun n => n.toNat.repr)).getD "")

/-- The transaction's own height, or that of the block of its version. -/
def moveTxHeight (chainName base : String) (ledgerVersion : Option String) (transaction : Json) :
    Except RpcError (Option Int64) :=
  if chainName = "initia" then .ok (integerOrText (transaction.get "height"))
  else if ledgerVersion.isNone ∧ (transaction.get "version").isNone then
    .error (.remote "Move transaction response is missing version")
  else do
    let url ← okOrRemote "Move provider transaction response has malformed version"
      (LayerzeroRuntime.moveBlockByVersionUrl base (blockVersion ledgerVersion transaction))
    let block ← readinessResponse render (endpoint.get url)
    let blockHeight := integerOrText (block.get "block_height")
    if ledgerVersion.isSome ∧ blockHeight.isNone ∧ !block.isNull then
      .error (.remote "Aptos block-by-version response is missing a usable block height")
    else .ok blockHeight

/-- The head's height. -/
def moveCurrentHeight (chainName base : String) : Except RpcError Int64 := do
  let latest ← readinessResponse render (endpoint.get (moveLatestBlockUrl chainName base))
  okOrRemote "Move latest-block response is missing a usable height"
    (integerOrText (if chainName = "initia" then latest.pointer ["block", "header", "height"]
      else latest.get "block_height"))

/-- On Aptos, what is no hash is the ledger version. -/
def ledgerVersionOf (chainName txHash : String) : Option String :=
  if chainName = "aptos" ∧ (stripPrefix "0x" txHash).isNone then .some ((aptosLedgerVersion txHash).getD "") else .none

def movePlaced (chainName base txHash : String) : Except RpcError Placed := do
  let ledgerVersion := ledgerVersionOf chainName txHash
  let transaction ←
    if ledgerVersion.isSome then .ok Json.null
    else readinessResponse render (fetchMoveTransaction endpoint chainName base txHash)
  if (transaction.get "type").bind Json.asStr = .some "pending_transaction" then .ok .missing
  else
    match ← moveTxHeight render endpoint chainName base ledgerVersion transaction with
    | .none =>
      if transaction.isNull then .ok .missing
      else .error (.remote "Move transaction response is missing a usable height or version")
    | .some height =>
      let current ← moveCurrentHeight render endpoint chainName base
      return .heights (heightText height) height current

def observeMoveBlockConfirmations (chainName base txHash : String) (required : Int64) : Observed :=
  if required < 0 then .ok (uncounted .invalidRange)
  else Placed.vote (saturatingCount required) <$> movePlaced render endpoint chainName base txHash

/-! ## Sui and IOTA -/

/-- `parse_checkpoint`. -/
def parseCheckpoint (value : Json) : Option Int64 :=
  (asInt64 value).or (((value.asU64.bind fun n => i64 n.toNat)).or (value.asStr.bind parseInt64))

inductive SuiBlockConfirmationValidity where
  | sufficient
  | insufficient
  | missing
  | invalidRange
  deriving DecidableEq

/-- What is voted for it. -/
def SuiBlockConfirmationValidity.toVote : SuiBlockConfirmationValidity → BlockConfirmationValidity
  | .sufficient => .sufficient "" 0
  | .insufficient => .insufficient "" 0
  | .missing => .missing
  | .invalidRange => .invalidRange

/-- `observe_sui_block_confirmations`. -/
def observeSuiAnswers (transaction latest : Json) (required : Int64) : SuiBlockConfirmationValidity × Option Int64 :=
  if required < 0 then (.invalidRange, .none)
  else
    match (transaction.get "checkpoint").bind parseCheckpoint, parseCheckpoint latest with
    | .some txCheckpoint, .some currentCheckpoint =>
      if txCheckpoint < 0 ∨ currentCheckpoint < 0 then (.invalidRange, .none)
      else
        let confirmations := saturatingSubI64 currentCheckpoint txCheckpoint
        (if required ≤ confirmations then .sufficient else .insufficient, .some confirmations)
    | _, _ => (.missing, .none)

/-- `sui_rpc_method`, of the two that are asked here. -/
def suiRpcMethod (chainName method : String) : String :=
  (if chainName = "iotal1" then "iota" else "sui") ++ "_" ++ method

/-- The transaction and the latest checkpoint. -/
def suiAnswers (chainName txHash : String) : Except RpcError (Json × Json) := do
  let response ← readinessResponse render
    (endpoint.post (suiRpcMethod chainName "getTransactionBlock") (.some (.array [.string txHash, .null])))
  let transaction ← okOrRemote "Sui transaction response has no result" (response.get "result")
  let response ← readinessResponse render
    (endpoint.post (suiRpcMethod chainName "getLatestCheckpointSequenceNumber") (.some (.array [])))
  let latest ← okOrRemote "Sui checkpoint response has no result" (response.get "result")
  return (transaction, latest)

def observeSuiBlockConfirmations (chainName txHash : String) (required : Int64) : Observed := do
  let (validity, confirmations) ←
    if required < 0 then .ok (observeSuiAnswers .null .null required)
    else (fun answers => observeSuiAnswers answers.1 answers.2 required) <$> suiAnswers render endpoint chainName txHash
  return ⟨validity.toVote, confirmations⟩

/-! ## TON -/

/-- The latest masterchain sequence number; `url` is `ton_v3_masterchain_info_url`. -/
def tonCurrent (url : String) : Except RpcError Int64 := do
  let response ← readinessResponse render (endpoint.get url)
  okOrRemote "TON masterchain info has no valid latest seqno" (integerOrText (response.pointer ["last", "seqno"]))

def observeTonBlockConfirmations (url : String) (txSeqno required : Int64) : Observed :=
  if required < 0 ∨ txSeqno < 0 then .ok (uncounted .invalidRange)
  else clampedCount required (heightText txSeqno) txSeqno <$> tonCurrent render endpoint url

/-! ## Solana -/

def parseSolanaTransactionSlot (response : Json) : Except String Int64 :=
  okOr "Missing Solana transaction slot"
    ((((response.get "result").filter (!·.isNull)).bind (Json.get "slot")).bind asInt64)

def parseSolanaCurrentSlot (response : Json) : Except String Int64 :=
  okOr "Missing Solana current slot" ((response.get "result").bind asInt64)

def solanaPlaced (txHash : String) (resolvedSlot : UInt64) : Except RpcError Placed := do
  let transaction ← readinessResponse render (endpoint.post "getTransaction" (.some (.array [.string txHash,
    .object [("commitment", .string "finalized"), ("encoding", .string "json"),
      ("maxSupportedTransactionVersion", .number (.posInt 1))]])))
  let slot ← readinessResponse render
    (endpoint.post "getSlot" (.some (.array [.object [("commitment", .string "finalized")]])))
  let result ← okOrRemote "Solana getTransaction response has no result" (transaction.get "result")
  if result.isNull then .ok .missing
  else
    let txSlot ← remote (parseSolanaTransactionSlot transaction)
    if txSlot.toInt ≠ resolvedSlot.toNat then
      .ok (.sourceChanged ("Solana transaction slot changed from " ++ toString resolvedSlot.toNat ++ " to " ++
        heightText txSlot))
    else
      let currentSlot ← remote (parseSolanaCurrentSlot slot)
      return .heights (heightText txSlot) txSlot currentSlot

def observeSolanaSlotConfirmations (txHash : String) (resolvedSlot : UInt64) (required : Int64) : Observed :=
  Placed.vote (checkedCount required) <$> solanaPlaced render endpoint txHash resolvedSlot

/-! ## Starknet -/

structure StarknetSourceEvidence where
  blockHash : String
  blockNumber : Int64
  transactionHash : String
  eventIndex : UInt64
  event : Json

/-- `normalize_starknet_felt_hash`. -/
def normalizeStarknetFeltHash (value : String) : Option String :=
  let digits := ((stripPrefix "0x" value).or (stripPrefix "0X" value)).getD value
  if digits.isEmpty ∨ digits.utf8ByteSize > 64 ∨ !digits.toList.all (fun c => (hexDigit? c).isSome) then .none
  else
    let normalized := digits.toList.dropWhile (· = '0')
    .some (toAsciiLowercase ("0x" ++ if normalized.isEmpty then "0" else String.ofList normalized))

/-- Two spellings of one hash. -/
def sameFelt (a b : String) : Bool :=
  match normalizeStarknetFeltHash a, normalizeStarknetFeltHash b with
  | .some a, .some b => a = b
  | _, _ => false

/-- `PartialEq` of a number: the two zeros of a float are equal. -/
def sameNumber : JsonNumber → JsonNumber → Bool
  | .float a, .float b => a = b ∨ (a <<< 1 = 0 ∧ b <<< 1 = 0)
  | a, b => a = b

mutual

/-- `PartialEq` of a value. -/
def sameValue : Json → Json → Bool
  | .null, .null => true
  | .bool a, .bool b => a = b
  | .number a, .number b => sameNumber a b
  | .string a, .string b => a = b
  | .array a, .array b => sameValues a b
  | .object a, .object b => sameEntries a b
  | _, _ => false

def sameValues : List Json → List Json → Bool
  | [], [] => true
  | a :: as, b :: bs => sameValue a b && sameValues as bs
  | _, _ => false

def sameEntries : List (String × Json) → List (String × Json) → Bool
  | [], [] => true
  | (a, v) :: as, (b, w) :: bs => a = b && sameValue v w && sameEntries as bs
  | _, _ => false

end

/-- A status, of those there are. -/
def statusOf (receipt : Json) (field : String) (known : List String) (error : String) : Except RpcError String :=
  okOrRemote error (((receipt.get field).bind Json.asStr).filter (· ∈ known))

/-- The canonical block at the evidence's height, against the evidence. -/
def starknetCanonical (response : Json) (evidence : StarknetSourceEvidence) : Except RpcError Bool := do
  let canonical ← okOrRemote "Missing canonical Starknet block" (response.get "result")
  let canonicalHash ← okOrRemote "Missing canonical Starknet block hash" ((canonical.get "block_hash").bind Json.asStr)
  let canonicalNumber ← okOrRemote "Malformed canonical Starknet block number"
    (numericHeight (canonical.get "block_number"))
  return canonicalNumber = evidence.blockNumber && sameFelt canonicalHash evidence.blockHash

/-- The receipt against the evidence: its hash and number, or why it is another. -/
def starknetBound (receipt : Json) (evidence : StarknetSourceEvidence) (txHash : String) :
    Except RpcError (Except String (String × Int64)) := do
  let executionStatus ← statusOf receipt "execution_status" ["SUCCEEDED", "REVERTED"]
    "Malformed Starknet execution_status"
  let finalityStatus ← statusOf receipt "finality_status" ["ACCEPTED_ON_L2", "ACCEPTED_ON_L1", "RECEIVED"]
    "Malformed Starknet finality_status"
  if executionStatus ≠ "SUCCEEDED" ∨ finalityStatus = "RECEIVED" then
    .ok (.error "Starknet receipt is reverted or not accepted")
  else if !((receipt.get "transaction_hash").bind Json.asStr).any fun hash =>
      sameFelt hash evidence.transactionHash && sameFelt hash txHash then
    .ok (.error "Starknet transaction hash changed")
  else
    let receiptHash ← okOrRemote "Missing Starknet receipt block_hash" ((receipt.get "block_hash").bind Json.asStr)
    let receiptNumber ← okOrRemote "Malformed Starknet receipt block_number"
      (numericHeight (receipt.get "block_number"))
    if !sameFelt receiptHash evidence.blockHash ∨ receiptNumber ≠ evidence.blockNumber then
      .ok (.error "Starknet receipt placement changed")
    else
      let selectedEvent := ((receipt.get "events").bind Json.asArray).bind (·[evidence.eventIndex.toNat]?)
      if !selectedEvent.any (sameValue · evidence.event) then
        .ok (.error "Starknet selected event contents or placement changed")
      -- equal to the source hash, so its canonical spelling is one vote
      else .ok (.ok ((normalizeStarknetFeltHash receiptHash).getD "", receiptNumber))

def starknetPlaced (txHash : String) (evidence : StarknetSourceEvidence) : Except RpcError Placed := do
  let response ← readinessResponse render
    (endpoint.post "starknet_getTransactionReceipt" (.some (.object [("transaction_hash", .string txHash)])))
  match (response.get "result").filter (!·.isNull) with
  | .none => .ok .missing
  | .some receipt =>
    match ← starknetBound receipt evidence txHash with
    | .error reason => .ok (.sourceChanged reason)
    | .ok (hash, height) =>
      let canonical ← readinessResponse render (endpoint.post "starknet_getBlockWithTxHashes"
        (.some (.array [.object [("block_number", Solana.ofI64 evidence.blockNumber.toInt)]])))
      if !(← starknetCanonical canonical evidence) then
        .ok (.sourceChanged "Starknet block is no longer canonical")
      else
        let current ← readinessResponse render (endpoint.post "starknet_blockNumber" (.some (.array [])))
        let currentNumber ← okOrRemote "Malformed Starknet block number" (numericHeight (current.get "result"))
        return .heights hash height currentNumber

def observeStarknetBlockConfirmations (txHash : String) (evidence : StarknetSourceEvidence) (required : Int64) :
    Observed :=
  Placed.vote (checkedCount required) <$> starknetPlaced render endpoint txHash evidence

/-! ## Stellar -/

/-- The ledger of the transaction, if it is in one. -/
def stellarLedger : Option Json → Except RpcError (Option Int64)
  | .none | .some .null => .ok .none
  | .some result =>
    match (result.get "status").bind Json.asStr with
    | .some status =>
      if status = "NOT_FOUND" ∨ status = "FAILED" then .ok .none
      else if status = "SUCCESS" then
        some <$> okOrRemote "Malformed Stellar transaction ledger" (numericHeight (result.get "ledger"))
      else .error (.remote "Malformed Stellar transaction status")
    | .none => .error (.remote "Malformed Stellar transaction status")

def stellarPlaced (txHash : String) : Except RpcError Placed := do
  let response ← readinessResponse render
    (endpoint.post "getTransaction" (.some (.object [("hash", .string txHash)])))
  let transactionLedger ← stellarLedger (response.get "result")
  let latest ← readinessResponse render (endpoint.post "getLatestLedger" .none)
  let currentLedger ← okOrRemote "Malformed Stellar ledger sequence"
    (numericHeight ((latest.get "result").bind (Json.get "sequence")))
  match transactionLedger with
  | .none => .ok .missing
  | .some ledger => return .heights (heightText ledger) ledger currentLedger

def observeStellarBlockConfirmations (txHash : String) (required : Int64) : Observed :=
  Placed.vote (checkedCount required) <$> stellarPlaced render endpoint txHash

/-! ## The families -/

/-- A transaction whose confirmations are asked for, by its source family. -/
inductive Source where
  | evm (txHash : String) (sourceEvidence : Option EvmSourceEvidence) (requireFinalized : Bool)
  | move (chainName base txHash : String)
  | sui (chainName txHash : String)
  | ton (url : String) (txSeqno : Int64)
  | solana (txHash : String) (resolvedSlot : UInt64)
  | starknet (txHash : String) (evidence : StarknetSourceEvidence)
  | stellar (txHash : String)

def Source.observe (source : Source) (required : Int64) : Observed :=
  match source with
  | .evm txHash sourceEvidence requireFinalized =>
    observeBlockConfirmations render endpoint txHash sourceEvidence required requireFinalized
  | .move chainName base txHash => observeMoveBlockConfirmations render endpoint chainName base txHash required
  | .sui chainName txHash => observeSuiBlockConfirmations render endpoint chainName txHash required
  | .ton url txSeqno => observeTonBlockConfirmations render endpoint url txSeqno required
  | .solana txHash resolvedSlot => observeSolanaSlotConfirmations render endpoint txHash resolvedSlot required
  | .starknet txHash evidence => observeStarknetBlockConfirmations render endpoint txHash evidence required
  | .stellar txHash => observeStellarBlockConfirmations render endpoint txHash required

/-- Where two checkpoints are read. -/
def suiPlaced (answers : Json × Json) : Placed :=
  match (answers.1.get "checkpoint").bind parseCheckpoint, parseCheckpoint answers.2 with
  | .some height, .some current => .heights "" height current
  | _, _ => .missing

/-- The heights that are read, once the source is found to be the one resolved. -/
def Source.placed : Source → Except RpcError Placed
  | .evm txHash sourceEvidence requireFinalized =>
    Prod.fst <$> evmPlaced endpoint txHash sourceEvidence requireFinalized
  | .move chainName base txHash => movePlaced render endpoint chainName base txHash
  | .sui chainName txHash => suiPlaced <$> suiAnswers render endpoint chainName txHash
  | .ton url txSeqno => .heights (heightText txSeqno) txSeqno <$> tonCurrent render endpoint url
  | .solana txHash resolvedSlot => solanaPlaced render endpoint txHash resolvedSlot
  | .starknet txHash evidence => starknetPlaced render endpoint txHash evidence
  | .stellar txHash => stellarPlaced render endpoint txHash

/-- Finality is asked for. -/
def Source.requiresFinalized : Source → Bool
  | .evm _ _ requireFinalized => requireFinalized
  | _ => false

/-- A head behind the transaction is taken for one without confirmations. -/
def Source.clamps : Source → Bool
  | .ton _ _ => true
  | _ => false

end

end Pillar.Readiness
