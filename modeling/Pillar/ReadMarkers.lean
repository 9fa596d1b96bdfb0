/-
The time markers of a READ command (`pillar-layerzero`, `read_v1002/command.rs`;
`pillar-runtime`, `validation_read_markers.rs` and `read_payload.rs`): the
markers a command asks to be read at, the checks of what its timestamps were
resolved to, the block pinned for each, and the pin a call is issued against.

What the providers answer is a parameter: a round is one question to the pool
of a chain, and no two rounds of a validation are about the same block. Headers
and confirmations are asked for four at a time and taken in order.
-/
import Pillar.Expiration
import Pillar.PayloadSigned
import Pillar.ReadCommand
import Pillar.Workflow

namespace Pillar.ReadMarkers

open Expiration (inI64 lift)
open PayloadSigned (providerResponse orRpc)
open Quorum (Observation resolveProviderQuorumForIndices)
open Read Text Workflow

/-! ## The markers of a command -/

structure ReadResolvedTimeMarker where
  targetEid : UInt32
  marker : ReadTimeMarker
  blockConfirmation : UInt16
  deriving Repr, DecidableEq

def requestMarker (request : EvmReadRequest) : ReadResolvedTimeMarker :=
  ⟨request.targetEid, request.marker, request.blockConfirmation⟩

def computeMarker (compute : EvmReadCompute) : ReadResolvedTimeMarker :=
  ⟨compute.targetEid, compute.marker, compute.blockConfirmation⟩

/-- The marker of every request, and of the compute if there is one. -/
def commandMarkers (command : EvmReadCommand) : List ReadResolvedTimeMarker :=
  command.requests.map requestMarker ++ (command.compute.map computeMarker).toList

def pushUniqueReadMarker (markers : List ReadResolvedTimeMarker) (marker : ReadResolvedTimeMarker) :
    List ReadResolvedTimeMarker :=
  if marker ∈ markers then markers else markers ++ [marker]

def blockNumberZero : AppCoreError := .badRequest "Malformed command: Block number cannot be zero!"

variable (hex : Hex.HexCrate)

def extractEvmReadResolvedTimeMarkers (cmd : String) : Exec AppCoreError (List ReadResolvedTimeMarker) := do
  let command ← decodeEvmReadCommand hex cmd
  let markers := (commandMarkers command).foldl pushUniqueReadMarker []
  if markers.any fun marker => marker.marker = .blockNumber 0 then Exec.err blockNumberZero else return markers

/-! ## Blocks -/

structure BlockTime where
  number : Int
  hash : String
  parentHash : String
  timestamp : Int
  deriving Repr, DecidableEq

def BlockTime.fingerprint (block : BlockTime) : String :=
  toString block.number ++ "|" ++ block.hash ++ "|" ++ block.parentHash ++ "|" ++ toString block.timestamp

/-- `+`, which is checked. -/
def addI64 {ε : Type} (a b : Int) : Exec ε Int := if inI64 (a + b) then .ok (a + b) else .error .panic

/-- `i64::checked_add`. -/
def checkedAddI64 (a b : Int) : Option Int := if inI64 (a + b) then .some (a + b) else .none

/-- The previous block has to be the parent, not just the block at the height
before: the two may have been read on different forks. -/
def blockMatchesResolvedTimestamp {ε : Type} (block : BlockTime) (previousBlock : Option BlockTime)
    (targetTimestamp : Int) : Exec ε Bool :=
  if block.number = 1 then .ok (block.timestamp = targetTimestamp)
  else if block.timestamp < targetTimestamp then .ok false
  else
    match previousBlock with
    | .none => .ok false
    | .some previous => do
      let next ← addI64 previous.number 1
      return next = block.number && previous.hash = block.parentHash && previous.timestamp < targetTimestamp

/-! ## Rounds -/

/-- The type of the chain; the pool, with its providers in the order in which
they answer; what each of them answers. -/
structure Round (α : Type) where
  chainType : Option String
  dispatch : Except AppCoreError (Provider.ProviderConfig × List Nat)
  answer : Nat → α

def Round.resolve {α T : Type} (round : Round α) (chainName : String) (vote : α → Observation T) (context : String) :
    Exec AppCoreError T :=
  if round.chainType ≠ .some "EVM" then
    Exec.err (.internal ("Unsupported chain type: " ++ round.chainType.getD "unknown" ++
      " (read time markers are EVM-only) for chain " ++ chainName))
  else do
    let (config, order) ← lift round.dispatch
    resolveProviderQuorumForIndices (order.map fun i => (i, vote (round.answer i))) (List.range config.uris.length)
      config.toProviderConfig context

/-- A provider's answer to each question of a validation: the block at a height,
and for a pinned block the head with the block then at its height. -/
structure Reads where
  blockTime : String → Int → Round (Except AppCoreError BlockTime)
  confirmation : String → BlockTime → Int → Round (Except AppCoreError BlockTime × Except AppCoreError BlockTime)

def blockTimeVote (answer : Except AppCoreError BlockTime) : Observation BlockTime :=
  (providerResponse (orRpc answer)).map fun block => block.map fun block => (block.fingerprint, block)

/-- `format!("0x{block_number:x}")`. -/
def blockTag (blockNumber : Int) : String := "0x" ++ String.ofList (Nat.toDigits 16 (blockNumber % 2 ^ 64).toNat)

def blockTimeWithQuorum (reads : Reads) (chainName : String) (blockNumber : Int) : Exec AppCoreError BlockTime :=
  (reads.blockTime chainName blockNumber).resolve chainName blockTimeVote
    ("block for chain " ++ chainName ++ " block " ++ blockTag blockNumber)

/-- The head, once the provider still has the pinned block at its height. -/
def observeConfirmation (pinnedBlock : BlockTime) (latest canonical : Except AppCoreError BlockTime) :
    Except AppCoreError BlockTime := do
  let latest ← latest
  let canonical ← canonical
  if canonical.number ≠ pinnedBlock.number ∨ !eqIgnoreAsciiCase canonical.hash pinnedBlock.hash then
    .error (.internal "READ confirmation does not extend the pinned block")
  else return latest

def confirmationVote (pinnedBlock : BlockTime) (requiredBlockNumber : Int)
    (answer : Except AppCoreError BlockTime × Except AppCoreError BlockTime) : Observation (Bool × Int) :=
  (providerResponse (orRpc (observeConfirmation pinnedBlock answer.1 answer.2))).map fun result =>
    result.map fun latest =>
      if requiredBlockNumber ≤ latest.number then ("sufficient", true, latest.number)
      else ("insufficient", false, latest.number)

def blockConfirmationSatisfiedWithQuorum (reads : Reads) (chainName : String) (pinnedBlock : BlockTime)
    (requiredBlockNumber : Int) : Exec AppCoreError (Bool × Int) :=
  (reads.confirmation chainName pinnedBlock requiredBlockNumber).resolve chainName
    (confirmationVote pinnedBlock requiredBlockNumber) ("READ block confirmation threshold for chain " ++ chainName)

/-! ## `validate_read_markers_preflight` -/

/-- `RuntimeRpcValidationChecks`. -/
structure Checks where
  evmChainNameByEid : UInt32 → Option String
  reads : Reads

def maxReadMarkers : Nat := maxReadRequests.toNat + 1

/-- What the check of the resolved markers keeps: those seen, the block of each
chain and timestamp, and the markers without repetitions. -/
structure Preflight where
  seen : List (String × Int × Int × Int)
  blockNumbersByTimestamp : List ((String × Int) × Int)
  uniqueMarkers : List ResolvedTimestampTimeMarker

def preflightMarker (s : Preflight) (marker : ResolvedTimestampTimeMarker) : Exec AppCoreError Preflight :=
  let identity := (marker.chainName, marker.timestamp, marker.blockNumber, marker.blockConfirmation)
  let key := (marker.chainName, marker.timestamp)
  if marker.isBlockNumber then
    Exec.err (.badRequest "resolvedTimestampTimeMarkers must contain timestamp markers")
  else if identity ∈ s.seen then .ok s
  else if (checkedAddI64 marker.blockNumber marker.blockConfirmation).isNone then
    Exec.err (.badRequest "block confirmation range overflow")
  else if marker.blockConfirmation < 0 then Exec.err (.badRequest "blockConfirmation cannot be negative")
  else if marker.timestamp < 0 then Exec.err (.badRequest "resolved timestamp cannot be negative")
  else if marker.blockNumber < 1 then
    Exec.err (.badRequest ("Invalid resolved time marker for chainName " ++ marker.chainName ++ ": blockNumber " ++
      toString marker.blockNumber ++ " must be >= 1"))
  else if (s.blockNumbersByTimestamp.lookup key).any (· ≠ marker.blockNumber) then
    Exec.err (.badRequest ("Conflicting resolved blocks for chainName " ++ marker.chainName ++ " timestamp " ++
      toString marker.timestamp))
  else .ok
    { seen := identity :: s.seen
      blockNumbersByTimestamp := (key, marker.blockNumber) :: s.blockNumbersByTimestamp
      uniqueMarkers := s.uniqueMarkers ++ [marker] }

def Checks.chainNameOf (checks : Checks) (marker : ReadResolvedTimeMarker) : Exec AppCoreError String :=
  match checks.evmChainNameByEid marker.targetEid with
  | .some chainName => .ok chainName
  | .none => Exec.err (.badRequest ("No chainName found for read command endpointId " ++ toString marker.targetEid))

def i64Max : Nat := 2 ^ 63 - 1

/-- A timestamp marker takes the first resolved marker that is its own and not
taken yet. -/
def matchMarker (uniqueMarkers : List ResolvedTimestampTimeMarker) (chainName : String) (timestamp : UInt64)
    (blockConfirmation : UInt16) (matched : List Bool) : Exec AppCoreError (List Bool) :=
  match (uniqueMarkers.zip matched).findIdx? fun (resolved, taken) => !taken && resolved.chainName = chainName &&
      resolved.timestamp = timestamp.toNat && resolved.blockConfirmation = blockConfirmation.toNat with
  | .some index => .ok (matched.set index true)
  | .none => Exec.err (.badRequest ("Missing resolved timestamp time marker for chainName " ++ chainName ++
      " timestamp " ++ toString timestamp ++ " and blockConfirmation " ++ toString blockConfirmation))

def Checks.preflightCommandMarker (checks : Checks) (uniqueMarkers : List ResolvedTimestampTimeMarker)
    (matched : List Bool) (marker : ReadResolvedTimeMarker) : Exec AppCoreError (List Bool) := do
  let chainName ← checks.chainNameOf marker
  match marker.marker with
  | .blockNumber blockNumber =>
    if blockNumber.toNat > i64Max ∨ (checkedAddI64 blockNumber.toNat marker.blockConfirmation.toNat).isNone then
      Exec.err (.badRequest ("Invalid read command block number for chainName " ++ chainName ++ ": " ++
        toString blockNumber))
    else return matched
  | .timestamp timestamp =>
    if timestamp.toNat > i64Max then
      Exec.err (.badRequest ("Invalid read command timestamp " ++ toString timestamp))
    else matchMarker uniqueMarkers chainName timestamp marker.blockConfirmation matched

def isRead (sentEvent : PacketSent.LzSentEvent) : Bool :=
  sentEvent.lzMessageId.ulnSendVersion.asStr = .some PacketSent.ulnVersionReadV1002

def Checks.validateReadMarkersPreflight (checks : Checks) (sentEvent : PacketSent.LzSentEvent)
    (markers : List ResolvedTimestampTimeMarker) : Exec AppCoreError Unit :=
  if markers.length > maxReadMarkers then
    Exec.err (.badRequest ("resolvedTimestampTimeMarkers count exceeds maximum " ++ toString maxReadMarkers))
  else do
    let s ← markers.foldlM preflightMarker ⟨[], [], []⟩
    if isRead sentEvent then
      let commandMarkers ← extractEvmReadResolvedTimeMarkers hex sentEvent.message
      let matched ← commandMarkers.foldlM (checks.preflightCommandMarker s.uniqueMarkers)
        (List.replicate s.uniqueMarkers.length false)
      if matched.any fun taken => !taken then
        Exec.err (.badRequest "resolvedTimestampTimeMarkers do not match ReadV1002 timestamp markers")
      else return
    else return

/-! ## `validate_read_time_markers` -/

/-- A block, by its chain and its height. -/
abbrev Key := String × Int

/-- The height its chain has to reach before a block is pinned, with the kind of
the marker that asks for it. -/
abbrev Requirements := List (Key × Int × String)

/-- `entry(key).or_insert(..)`, raised where more is required. -/
def require (requirements : Requirements) (key : Key) (required : Int) (kind : String) : Requirements :=
  match requirements.lookup key with
  | .none => requirements ++ [(key, required, kind)]
  | .some current =>
    if required > current.1 then requirements.map fun entry => if entry.1 = key then (key, required, kind) else entry
    else requirements

/-- `height.checked_add(confirmation)`. -/
def requiredHeight (height confirmation : Int) : Exec AppCoreError Int :=
  match checkedAddI64 height confirmation with
  | .some required => .ok required
  | .none => Exec.err (.badRequest "block confirmation range overflow")

def Checks.requireCommandMarker (checks : Checks) (requirements : Requirements) (marker : ReadResolvedTimeMarker) :
    Exec AppCoreError Requirements :=
  match marker.marker with
  | .timestamp _ => .ok requirements
  | .blockNumber blockNumber => do
    let chainName ← checks.chainNameOf marker
    if blockNumber.toNat > i64Max then Exec.err (.badRequest "read command block number exceeds i64")
    else
      let required ← requiredHeight blockNumber.toNat marker.blockConfirmation.toNat
      return require requirements (chainName, (blockNumber.toNat : Int)) required "read command block marker"

def requireResolvedMarker (requirements : Requirements) (marker : ResolvedTimestampTimeMarker) :
    Exec AppCoreError Requirements := do
  let required ← requiredHeight marker.blockNumber marker.blockConfirmation
  return require requirements (marker.chainName, marker.blockNumber) required "time marker"

/-- `headers.insert(key)`, of an `IndexSet`. -/
def insertHeader (headers : List Key) (key : Key) : List Key := if key ∈ headers then headers else headers ++ [key]

/-- The blocks to read: every required one, and the one before each resolved one. -/
def headersOf (requirements : Requirements) (markers : List ResolvedTimestampTimeMarker) : List Key :=
  ((markers.filter fun marker => marker.blockNumber > 1).map fun marker =>
    (marker.chainName, marker.blockNumber - 1)).foldl insertHeader (requirements.map Prod.fst)

def readHeader (reads : Reads) (key : Key) : Exec AppCoreError (Key × BlockTime) := do
  let block ← blockTimeWithQuorum reads key.1 key.2
  return (key, block)

def checkResolvedMarker (blocks : List (Key × BlockTime)) (marker : ResolvedTimestampTimeMarker) :
    Exec AppCoreError Unit := do
  let block ← Exec.get (blocks.lookup (marker.chainName, marker.blockNumber))
  let previous := if marker.blockNumber = 1 then .none else blocks.lookup (marker.chainName, marker.blockNumber - 1)
  if ← blockMatchesResolvedTimestamp block previous marker.timestamp then return
  else Exec.err (.badRequest ("Invalid resolved time marker for chainName " ++ marker.chainName ++ ": blockNumber " ++
    toString marker.blockNumber ++ " does not cover timestamp " ++ toString marker.timestamp))

/-- Two reads of a height that disagree on its hash are refused, not resolved by
picking one. -/
def pushReadBlockPin (pins : List ReadBlockPin) (chainName : String) (block : BlockTime) :
    Exec AppCoreError (List ReadBlockPin) :=
  if block.number < 0 then
    Exec.err (.internal ("Invalid block number " ++ toString block.number ++ " for chain " ++ chainName))
  else
    let blockNumber := block.number.toNat
    let blockHash := toAsciiLowercase block.hash
    match pins.find? fun pin => pin.chainName = chainName && pin.blockNumber = blockNumber with
    | .some pin =>
      if pin.blockHash = blockHash then .ok pins
      else Exec.err (.badRequest ("Block " ++ toString blockNumber ++ " on chain " ++ chainName ++
        " changed hash during read validation: " ++ pin.blockHash ++ " != " ++ blockHash))
    | .none => .ok (pins ++ [{ chainName, blockNumber, blockHash }])

def pinRequirement (reads : Reads) (blocks : List (Key × BlockTime)) (pins : List ReadBlockPin)
    (requirement : Key × Int × String) : Exec AppCoreError (List ReadBlockPin) := do
  let ((chain, height), required, kind) := requirement
  let block ← Exec.get (blocks.lookup (chain, height))
  let (sufficient, latest) ← blockConfirmationSatisfiedWithQuorum reads chain block required
  if sufficient then pushReadBlockPin pins chain block
  else Exec.err (.badRequest ("Block confirmation for chainName " ++ chain ++ " for " ++ kind ++
    " is greater than current block number: " ++ toString required ++ " > " ++ toString latest))

def Checks.validateReadTimeMarkers (checks : Checks) (sentEvent : PacketSent.LzSentEvent)
    (markers : List ResolvedTimestampTimeMarker) : Exec AppCoreError (List ReadBlockPin) := do
  checks.validateReadMarkersPreflight hex sentEvent markers
  let commandMarkers ← if isRead sentEvent then extractEvmReadResolvedTimeMarkers hex sentEvent.message else return []
  let requirements ← commandMarkers.foldlM checks.requireCommandMarker []
  let requirements ← markers.foldlM requireResolvedMarker requirements
  let blocks ← (headersOf requirements markers).mapM (readHeader checks.reads)
  markers.forM (checkResolvedMarker blocks)
  requirements.foldlM (pinRequirement checks.reads blocks) []

/-! ## Execution -/

/-- `RuntimeEvmReadPayloadResolver`, with what a call pinned to a block answers. -/
structure Resolver where
  chainNameByEid : UInt32 → Option String
  call : String → ReadBlockPin → String → String → Nat → Exec AppCoreError String

def Resolver.chainNameForEid (resolver : Resolver) (eid : UInt32) : Exec AppCoreError String :=
  match resolver.chainNameByEid eid with
  | .some chainName => .ok chainName
  | .none => Exec.err (.internal ("No chain name for endpoint id " ++ toString eid))

def blockNumberForMarker (chainName : String) (marker : ReadTimeMarker)
    (resolvedMarkers : List ResolvedTimestampTimeMarker) : Exec AppCoreError Nat :=
  match marker with
  | .blockNumber blockNumber => if blockNumber = 0 then Exec.err blockNumberZero else .ok blockNumber.toNat
  | .timestamp timestamp =>
    match resolvedMarkers.find? fun resolved => !resolved.isBlockNumber && resolved.chainName = chainName &&
        resolved.timestamp = timestamp.toInt64.toInt with
    | .none => Exec.err (.internal ("Missing resolved timestamp time marker for chainName " ++ chainName ++
        " timestamp " ++ toString timestamp))
    | .some resolved =>
      if resolved.blockNumber < 1 then
        Exec.err (.internal ("Invalid resolved time marker for chainName " ++ chainName ++ ": blockNumber " ++
          toString resolved.blockNumber ++ " must be >= 1"))
      else .ok resolved.blockNumber.toNat

def pinFor (chainName : String) (blockNumber : Nat) (pins : List ReadBlockPin) : Exec AppCoreError ReadBlockPin :=
  match pins.find? fun pin => pin.chainName = chainName && pin.blockNumber = blockNumber with
  | .some pin => .ok pin
  | .none => Exec.err (.internal ("No validated block identity for chainName " ++ chainName ++ " block " ++
      toString blockNumber ++ "; refusing an unpinned read"))

def Resolver.callEvmViewAtMarker (resolver : Resolver) (targetEid : UInt32) (marker : ReadTimeMarker)
    (toAddress callData : String) (maxResultBytes : Nat) (resolvedMarkers : List ResolvedTimestampTimeMarker)
    (pins : List ReadBlockPin) : Exec AppCoreError String := do
  let chainName ← resolver.chainNameForEid targetEid
  let blockNumber ← blockNumberForMarker chainName marker resolvedMarkers
  let pin ← pinFor chainName blockNumber pins
  resolver.call chainName pin toAddress callData maxResultBytes

end Pillar.ReadMarkers
