/-
The signing workflow (`pillar-core`, `lib.rs`): from a request through
resolution, validation and the hash builder to the wallets.

The roster, resolver, validator, builders and signer are asked, and may answer
anything at any time. The three joined checks finish in an order that is asked
for too, as is how far the buffered signing futures have been polled. Stage
timings and log lines are left out; how a JSON value reads as text is a
parameter, since only messages use it.
-/
import Pillar.Audit
import Pillar.Packet
import Pillar.PacketSent
import Pillar.Transcript

namespace Pillar.Workflow

open PacketSent (PathwayId LzMessageId)
open Audit (Signature)
open Text Hex Packet

/-! ## Requests and events -/

structure ResolvedTimestampTimeMarker where
  blockConfirmation : Int
  isBlockNumber : Bool
  chainName : String
  blockNumber : Int
  timestamp : Int

inductive SigningContext where
  | message (expiration : Int) (skipVId : Option Bool) (dvnAddress : Option String) (blockConfirmation : Int)
  | read (expiration : Int) (skipVId : Option Bool) (dvnAddress : Option String)
      (resolvedTimestampTimeMarkers : List ResolvedTimestampTimeMarker)

namespace SigningContext

def expiration : SigningContext → Int
  | .message expiration _ _ _ => expiration
  | .read expiration _ _ _ => expiration

def skipVId : SigningContext → Option Bool
  | .message _ skipVId _ _ => skipVId
  | .read _ skipVId _ _ => skipVId

def dvnAddress : SigningContext → Option String
  | .message _ _ dvnAddress _ => dvnAddress
  | .read _ _ dvnAddress _ => dvnAddress

def isRead : SigningContext → Bool
  | .message .. => false
  | .read .. => true

end SigningContext

structure PillarApiRequestV2 where
  srcTxHash : String
  lzMessageId : LzMessageId
  signingContext : SigningContext
  messageHash : String

def PillarApiRequestV2.dst (request : PillarApiRequestV2) : String := request.lzMessageId.pathwayId.dstChainName

structure ReadBlockPin where
  chainName : String
  blockNumber : Nat
  blockHash : String

/-- The event with the pins readiness agreed on. -/
structure LzSentEvent extends PacketSent.LzSentEvent where
  readBlockPins : List ReadBlockPin

structure UlnV2RefreshedEvent where
  sentEvent : LzSentEvent
  lzReceiveGas : Option String

structure HashCallDataResult where
  hashCallData : String
  details : Json

structure DebugInfo where
  dvnHashCallData : String
  details : Json

structure PillarApiResponse where
  signatures : List Signature
  payload : String
  debugInfo : Option DebugInfo

/-! ## What is asked -/

inductive JoinedCheck where
  | readiness
  | expiration
  | payloadSigned
  deriving DecidableEq

inductive Question where
  | available (chainName : String)
  | availableNames
  | ulnReceiveVersion (id : LzMessageId)
  | getLzSentEvent (srcTxHash : String) (id : LzMessageId)
  | refreshUlnV2SentEvent (event : LzSentEvent)
  | validateMessageHash (request : PillarApiRequestV2) (event : LzSentEvent)
  /-- In which order the joined checks finish. -/
  | joinOrder
  | validateReadiness (event : LzSentEvent) (context : SigningContext)
  | validateExpiration (dstChainName : String) (expiration : Int)
  | validatePayloadSigned (event : LzSentEvent) (verifier : Option String) (dstChainName : String)
      (effectiveReceiveVersion : Option String)
  | validateExtraContext (event : LzSentEvent) (context : SigningContext)
  | buildDvnHashCallData (version : String) (event : LzSentEvent) (context : SigningContext)
  | auditPrepare (request : PillarApiRequestV2) (event : LzSentEvent) (hashCallData : String)
  /-- How many of the buffered signing futures have been polled when the first of them is done. -/
  | polled
  /-- The signer is called for a wallet. -/
  | pillarSign (dstChainName walletName dataHex : String)
  /-- What `sign_wallet` made of the signer's answer. -/
  | walletSigned (walletName : String)

abbrev Answer : Question → Type
  | .available _ => Bool
  | .availableNames => List String
  | .ulnReceiveVersion _ => Except AppCoreError String
  | .getLzSentEvent .. => Except AppCoreError LzSentEvent
  | .refreshUlnV2SentEvent _ => Except AppCoreError (Option UlnV2RefreshedEvent)
  | .validateMessageHash .. => Except AppCoreError Unit
  | .joinOrder => { order : List JoinedCheck // order.Perm [.readiness, .expiration, .payloadSigned] }
  | .validateReadiness .. => Except AppCoreError (List ReadBlockPin)
  | .validateExpiration .. => Except AppCoreError Unit
  | .validatePayloadSigned .. => Except AppCoreError (Option UInt64)
  | .validateExtraContext .. => Except AppCoreError Unit
  | .buildDvnHashCallData .. => Except AppCoreError HashCallDataResult
  | .auditPrepare .. => Except AppCoreError Unit
  | .polled => Nat
  | .pillarSign .. => Unit
  | .walletSigned _ => Except AppCoreError Signature

abbrev Entry := Asked Question Answer

abbrev Run (α : Type) := Asking Question Answer AppCoreError α

/-- The parts of the app that are not asked. -/
structure App where
  oracle : Oracle Question Answer
  walletsByChainName : String → Option (List String)
  crates : Crates
  debugMode : Bool
  pathwayJson : PathwayId → String
  jsString : Json → Option String
  displayJson : Json → String

def badRequest {α : Type} (message : String) : Run α := Asking.throw (.badRequest message)
def internal {α : Type} (message : String) : Run α := Asking.throw (.internal message)

variable (app : App)

def ask (q : Question) : Run (Answer q) := Asking.ask app.oracle q

/-! ## Before resolution -/

def checkChainNameAvailability (chainName : String) : Run Unit := do
  if ← ask app (.available chainName) then return
  let names ← ask app .availableNames
  internal ("Unsupported dst chain " ++ chainName ++ ". Available chains : " ++ String.intercalate ", " names ++ " ")

def maxReadMarkers : Nat := 257

def isVersion (value : Json) (version : String) : Bool := value.asStr = .some version

/-- The checks of the request by itself. -/
def checkContext (request : PillarApiRequestV2) : Except AppCoreError Unit := do
  let requestedRead := isVersion request.lzMessageId.ulnSendVersion "ReadV1002"
  let pathway := app.pathwayJson request.lzMessageId.pathwayId
  if requestedRead ≠ request.signingContext.isRead then
    .error (.badRequest (if requestedRead then "Invalid protocol type for ReadV1002 on pathway " ++ pathway
      else "READ signing context requires ReadV1002 on pathway " ++ pathway))
  else
    match request.signingContext with
    | .read _ _ _ markers =>
      if maxReadMarkers < markers.length then
        .error (.badRequest ("resolvedTimestampTimeMarkers count exceeds maximum " ++ toString maxReadMarkers))
      else .ok ()
    | .message _ _ _ blockConfirmation =>
      if blockConfirmation < 0 then .error (.badRequest "blockConfirmation cannot be negative") else .ok ()

/-- The receive library a V2 send goes to: what was agreed, and the version it
is routed to if that is a V3 one. -/
def receiveVersion (request : PillarApiRequestV2) : Run (Option String × Option String) := do
  if isVersion request.lzMessageId.ulnSendVersion "V2" then
    let version ← Asking.lift (← ask app (.ulnReceiveVersion request.lzMessageId))
    return (.some version, if version = "V301" ∨ version = "V302" then .some version else .none)
  else return (.none, .none)

/-- The keys of `build_hash_call_data_builders`. -/
def builderVersions : List String := ["V2", "V301", "V302", "ReadV1002"]

/-- The version whose builder is used. -/
def builderVersion (request : PillarApiRequestV2) (routed : Option String) : Except AppCoreError String :=
  let version : Option String := match routed with
    | .some version => .some version
    | .none => request.lzMessageId.ulnSendVersion.asStr
  match version.filter (builderVersions.contains ·) with
  | .some version => .ok version
  | .none =>
    .error (.badRequest ("Unsupported hash call data builder version: " ++
      routed.getD ((app.jsString request.lzMessageId.ulnSendVersion).getD "undefined")))

def isAsciiAlphanumeric (c : Char) : Bool :=
  (48 ≤ c.toNat && c.toNat ≤ 57) || (65 ≤ c.toNat && c.toNat ≤ 90) || (97 ≤ c.toNat && c.toNat ≤ 122)

/-- One to 128 characters of `[0-9a-zA-Z_-]`, after an optional `0x`. A
character beyond ASCII is no such byte. -/
def isTransactionIdShaped (value : String) : Bool :=
  let body := (stripPrefix "0x" value).getD value
  !body.isEmpty && body.utf8ByteSize ≤ 128 && body.toList.all fun c => isAsciiAlphanumeric c || c = '_' || c = '-'

def srcTxHashShapeError : String :=
  "srcTxHash: expected 1-128 characters of [0-9a-zA-Z_-] with an optional 0x prefix"

def checkSrcTxHash (request : PillarApiRequestV2) : Except AppCoreError Unit :=
  if isTransactionIdShaped request.srcTxHash then .ok () else .error (.badRequest srcTxHashShapeError)

def checkSkipVId (request : PillarApiRequestV2) (routed : Option String) : Except AppCoreError Unit :=
  if request.signingContext.skipVId = .some true ∧
      (routed.isSome ∨ isVersion request.lzMessageId.ulnSendVersion "V2" = false ∨ request.dst ≠ "aptos") then
    .error (.badRequest "skipVId is not supported for v2 requests")
  else .ok ()

/-! ## Resolution -/

def packetIdentityMismatchErrorSuffix : String := "does not match the requested pathway identity"

def contains (text part : String) : Bool := text.toList.tails.any (part.toList.isPrefixOf ·)

def mapSentEventError (request : PillarApiRequestV2) (error : AppCoreError) : AppCoreError :=
  let message := error.display
  let pathway := app.pathwayJson request.lzMessageId.pathwayId
  let identityMismatch := match error with
    | .badRequest text => contains text packetIdentityMismatchErrorSuffix
    | _ => false
  if contains message "NotFoundError" || contains message "Transaction receipt not found for " ||
      contains message "Transaction not found for " then
    .badRequest ("srcTxHash " ++ request.srcTxHash ++ " not found on pathway " ++ pathway)
  else if contains message "cannot find packet event" || contains message "LZMessage not found" ||
      contains message "Packet does not match lzMessageId" || identityMismatch then
    .badRequest ("cannot find packet event for srcTxHash " ++ request.srcTxHash ++ " on pathway " ++ pathway)
  else error

def hexAddressToBytes32 (hex : HexCrate) (address : String) : Except AppCoreError (List UInt8) :=
  match hex.decode ((stripPrefix "0x" address).getD address) with
  | .error error => .error (.internal ("address " ++ address ++ ": " ++ error))
  | .ok bytes =>
    if 32 < bytes.length then .error (.internal ("address " ++ address ++ " is longer than 32 bytes"))
    else .ok (List.replicate (32 - bytes.length) 0 ++ bytes)

def calculateGuid (crates : Crates) (nonce : UInt64) (srcEid : UInt32) (sender : String) (dstEid : UInt32)
    (receiver : String) : Except AppCoreError String := do
  let sender ← hexAddressToBytes32 crates.hex sender
  let receiver ← hexAddressToBytes32 crates.hex receiver
  .ok (keccak256Hex crates ((Abi.beBytes 8 nonce.toNat).val ++ (Abi.beBytes 4 srcEid.toNat).val ++ sender ++
    (Abi.beBytes 4 dstEid.toNat).val ++ receiver))

/-- `hydrate_uln_v2_sent_event`: the V2 event as a V3 receive library sees it. -/
def hydrateUlnV2SentEvent (sentEvent : LzSentEvent) (lzReceiveGas : Option String) : Except AppCoreError LzSentEvent :=
  let pathway := sentEvent.lzMessageId.pathwayId.extra
  let eid (key : String) : Except AppCoreError UInt32 :=
    match (pathway.get key).bind Json.asU64 with
    | .some eid =>
      if eid.toNat < 2 ^ 32 then .ok eid.toUInt32
      else .error (.internal ("lzMessageId.pathwayId." ++ key ++ " is not a uint32"))
    | .none => .error (.internal ("lzMessageId.pathwayId." ++ key ++ " is not a uint32"))
  let address (key : String) : Except AppCoreError String :=
    match (pathway.get key).bind Json.asStr with
    | .some address => .ok address
    | .none => .error (.internal ("Missing lzMessageId.pathwayId." ++ key))
  if isVersion sentEvent.lzMessageId.ulnSendVersion "V2" = false then
    .error (.internal ("only a ULN V2-sent event can be rebuilt for a V3 receive library, got " ++
      app.displayJson sentEvent.lzMessageId.ulnSendVersion))
  else if (sentEvent.extra.get "guid").isSome then
    .error (.internal "a ULN V2-sent event must not already carry a guid")
  else do
    let guid ← calculateGuid app.crates sentEvent.lzMessageId.nonce (← eid "srcEid") (← address "sender")
      (← eid "dstEid") (← address "receiver")
    let payload := guid ++ (stripPrefix "0x" sentEvent.message).getD sentEvent.message
    let lzReceive := Json.object [("gas", .string (lzReceiveGas.getD "200000")), ("value", .string "0")]
    let extra := sentEvent.extra.insert "guid" (.string guid)
      |>.insert "options" (.object [("lzReceive", lzReceive), ("ordered", .bool true)])
      |>.insert "payload" (.string payload)
    .ok { sentEvent with
      extra := match sentEvent.extra.get "packetEmitAddress" with
        | .some emitter => extra.insert "sendLibrary" emitter
        | .none => extra }

/-- The resolved event is for what was asked. -/
def checkResolved (request : PillarApiRequestV2) (sentEvent : LzSentEvent) : Except AppCoreError Unit :=
  let resolved := sentEvent.lzMessageId.pathwayId.dstChainName
  let requestedVersion := request.lzMessageId.ulnSendVersion.asStr.getD ""
  let resolvedVersion := sentEvent.lzMessageId.ulnSendVersion.asStr.getD ""
  if resolved ≠ request.dst then
    .error (.internal ("resolved PacketSent destination " ++ resolved ++ " does not match requested destination " ++
      request.dst))
  else if resolvedVersion ≠ requestedVersion then
    .error (.badRequest ("resolved PacketSent ULN version " ++ resolvedVersion ++
      " does not match requested ULN version " ++ requestedVersion))
  else .ok ()

def mapError (request : PillarApiRequestV2) {α : Type} (result : Except AppCoreError α) : Except AppCoreError α :=
  result.mapError (mapSentEventError app request)

/-- The event to be signed: as it was resolved, or rebuilt for the V3 library it is routed to. -/
def sentEvent (request : PillarApiRequestV2) (routed : Option String) : Run LzSentEvent := do
  let answer ← ask app (.getLzSentEvent request.srcTxHash request.lzMessageId)
  let event ← Asking.lift (mapError app request answer)
  Asking.lift (checkResolved request event)
  if routed.isSome then
    let answer ← ask app (.refreshUlnV2SentEvent event)
    match ← Asking.lift (mapError app request answer) with
    | .none =>
      badRequest ("Could not refresh V1 sent event for srcTxHash " ++ request.srcTxHash ++ " on pathway " ++
        app.pathwayJson request.lzMessageId.pathwayId ++ " (possible reorg)")
    | .some refreshed => Asking.lift (hydrateUlnV2SentEvent app refreshed.sentEvent refreshed.lzReceiveGas)
  else return event

/-! ## Validation -/

/-- One of the joined checks, with what the earlier ones returned. -/
def joinedCheck (request : PillarApiRequestV2) (agreed : Option String) (event : LzSentEvent)
    (acc : List ReadBlockPin × Option UInt64) : JoinedCheck → Run (List ReadBlockPin × Option UInt64)
  | .readiness => do
    let pins ← Asking.lift (← ask app (.validateReadiness event request.signingContext))
    return (pins, acc.2)
  | .expiration => do
    Asking.lift (← ask app (.validateExpiration request.dst request.signingContext.expiration))
    return acc
  | .payloadSigned => do
    let verifier := request.signingContext.dvnAddress.filter (· ≠ "")
    let required ← Asking.lift (← ask app (.validatePayloadSigned event verifier request.dst agreed))
    return (acc.1, required)

/-- `try_join!`: the first to fail is the answer. -/
def joinedChecks (request : PillarApiRequestV2) (agreed : Option String) (event : LzSentEvent) :
    List JoinedCheck → List ReadBlockPin × Option UInt64 → Run (List ReadBlockPin × Option UInt64)
  | [], acc => pure acc
  | check :: order, acc => do
    let acc ← joinedCheck app request agreed event acc check
    joinedChecks request agreed event order acc

def checkConfirmations (context : SigningContext) (required : Option UInt64) : Except AppCoreError Unit :=
  match context, required with
  | .message _ _ _ blockConfirmation, .some required =>
    if blockConfirmation < required.toNat then
      .error (.badRequest ("blockConfirmation " ++ toString blockConfirmation ++ " is below the " ++
        toString required ++ " confirmations the destination receive config requires"))
    else .ok ()
  | _, _ => .ok ()

def validate (request : PillarApiRequestV2) (agreed : Option String) (event : LzSentEvent) :
    Run (List ReadBlockPin) := do
  Asking.lift (← ask app (.validateMessageHash request event))
  let order ← ask app .joinOrder
  let (pins, required) ← joinedChecks app request agreed event order.val ([], .none)
  Asking.lift (checkConfirmations request.signingContext required)
  Asking.lift (← ask app (.validateExtraContext event request.signingContext))
  return pins

/-! ## Signing -/

/-- What is signed, and by which wallets. -/
structure Prepared where
  event : LzSentEvent
  built : HashCallDataResult
  wallets : List String

/-- Everything before the first wallet. -/
def prepare (request : PillarApiRequestV2) : Run Prepared := do
  checkChainNameAvailability app request.lzMessageId.pathwayId.srcChainName
  checkChainNameAvailability app request.dst
  Asking.lift (checkContext app request)
  let (agreed, routed) ← receiveVersion app request
  let version ← Asking.lift (builderVersion app request routed)
  Asking.lift (checkSkipVId request routed)
  Asking.lift (checkSrcTxHash request)
  let event ← sentEvent app request routed
  let pins ← validate app request agreed event
  let event := { event with readBlockPins := pins }
  let built ← Asking.lift (← ask app (.buildDvnHashCallData version event request.signingContext))
  Asking.lift (← ask app (.auditPrepare request event built.hashCallData))
  match app.walletsByChainName request.dst with
  | .none => internal ("No wallets configured for chain " ++ request.dst)
  | .some wallets => return ⟨event, built, wallets⟩

def maxConcurrentWalletSigns : Nat := 8

def callSigner (dst hash : String) : List String → Run Unit
  | [] => pure ()
  | wallet :: wallets => do
    ask app (.pillarSign dst wallet hash)
    callSigner dst hash wallets

/-- `buffered(MAX_CONCURRENT_WALLET_SIGNS).try_collect()` over the wallets still
to yield, of which `started` have been polled already. A future makes its call
when it is first polled; the results come in the wallets' order. -/
def signWallets (dst hash : String) : List String → Nat → Run (List Signature)
  | [], _ => pure []
  | wallet :: wallets, started => do
    let polled ← ask app .polled
    let started' := max started (max 1 (min polled maxConcurrentWalletSigns))
    callSigner app dst hash (((wallet :: wallets).take started').drop started)
    let signature ← Asking.lift (← ask app (.walletSigned wallet))
    let signatures ← signWallets dst hash wallets (started' - 1)
    return signature :: signatures

def respond (prepared : Prepared) (signatures : List Signature) : PillarApiResponse :=
  let details := prepared.built.details
  let resolvedPayload := details.pointer ["proof", "resolvedPayload"]
  let resolved := if isVersion prepared.event.lzMessageId.ulnSendVersion "ReadV1002" then
      (resolvedPayload.bind Json.asStr).any (· ≠ "")
    else resolvedPayload.isSome
  { signatures
    payload := ((details.pointer ["proof", if resolved then "resolvedPayload" else "payload"]).bind Json.asStr).getD ""
    debugInfo := if app.debugMode then .some ⟨prepared.built.hashCallData, details⟩ else .none }

def signRequestV2Inner (request : PillarApiRequestV2) : Run PillarApiResponse := do
  let prepared ← prepare app request
  let signatures ← signWallets app request.dst prepared.built.hashCallData prepared.wallets 0
  return respond app prepared signatures

end Pillar.Workflow
