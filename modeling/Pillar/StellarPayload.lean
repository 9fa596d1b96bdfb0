/-
The payload-signed check on Stellar (`pillar-runtime`,
`layerzero_runtime/validation_payload_stellar.rs`): views of the endpoint, the
ULN and LayerZeroViews, each a simulated transaction.

A provider may answer the two views that are asked at once in any order; the
model asks them one after the other, and answers may depend on what was asked.
-/
import Pillar.Lossy
import Pillar.PayloadVote
import Pillar.StellarSimulation
import Pillar.Strkey
import Pillar.Workflow

namespace Pillar.StellarPayload

open Abi (Bytes)
open Bits (ofBytes)
open EvmPayload (trimHex orErr)
open PacketSent (LzSentEvent)
open PayloadSigned StellarSimulation Strkey Text

deriving instance DecidableEq for StellarAddress

/-- The quoting of `Debug` tells texts apart. -/
structure DebugStr where
  quote : String → String
  injective : Function.Injective quote

structure Crates extends Packet.Crates where
  base64 : Base64.Engine
  debugStr : DebugStr
  lowerCase : Lossy.LowerCase

/-! ## Addresses and values -/

def stellarStrkey (version : UInt8) (bytes : Bytes 32) : String :=
  Base32.encode (strkeyBytes version bytes ((version :: bytes.val).foldl crcByte 0))

def strkey : StellarAddress → String
  | .account bytes => stellarStrkey 0x30 bytes
  | .contract bytes => stellarStrkey 0x10 bytes

/-- A key that says `name`, as a text or as a symbol. -/
def named (name : String) : ScValue → Bool
  | .text key => key = name
  | .symbol key => key = name
  | _ => false

/-- The value under a symbol; a name under two keys is malformed. -/
def field (name : String) : ScValue → Option ScValue
  | .map entries =>
    match entries.filter fun entry => named name entry.1 with
    | [(.symbol _, value)] => .some value
    | _ => .none
  | _ => .none

section
variable (crates : Crates)

/-- Hexadecimal names a contract, and so does a strkey. -/
def stellarAddressArgument (value : String) : Exec AppCoreError StellarAddress :=
  if (stripPrefix "C" value).isSome then do
    let id ← stellarContractIdFromStrkey value
    .ok (.contract id)
  else if (stripPrefix "G" value).isSome then
    Exec.err (.internal ("Stellar account address " ++ value ++ " cannot name a contract here"))
  else
    match crates.hex.decode ((stripPrefix "0x" value).getD value) with
    | .error error => Exec.err (.internal error)
    | .ok bytes =>
      if h : bytes.length = 32 then .ok (.contract ⟨bytes, h⟩)
      else Exec.err (.internal ("Stellar address " ++ value ++ " is not 32 bytes"))

/-! ## Simulations -/

/-- A call, sent as its `invoke_contract_envelope`. -/
structure Simulation where
  contract : Bytes 32
  function : String
  args : List ScArg

abbrev Provider := Oracle Simulation fun _ => Except RpcError Json

abbrev Observe (α : Type) := Asking Simulation (fun _ => Except RpcError Json) RpcError α

inductive Simulated where
  | value (value : ScValue)
  | failed (error : String)

/-- What a response says. -/
def simulated (response : Json) : Option Simulated :=
  (response.get "result").bind fun result =>
    match (result.get "error").bind Json.asStr with
    | .some error => .some (.failed error)
    | .none =>
      ((((result.get "results").bind Json.asArray).bind List.head?).bind fun first =>
        ((first.get "xdr").bind Json.asStr).bind (decodeScValue crates.base64)).map .value

inductive StellarPayloadOutcome where
  | validity (validity : PayloadSignedValidity)
  | refused (message : String)
  deriving DecidableEq

/-- `Debug`. -/
def StellarPayloadOutcome.debug (debugStr : DebugStr) : StellarPayloadOutcome → String
  | .validity v => "Validity(" ++ v.debug ++ ")"
  | .refused message => "Refused(" ++ debugStr.quote message ++ ")"

def simulationFailed (error : String) : StellarPayloadOutcome := .refused ("Contract call simulation failed: " ++ error)

variable (provider : Provider)

def simulate (contract : Bytes 32) (function : String) (args : List ScArg) : Observe Simulated := do
  let response ← Asking.lift (← Asking.ask provider ⟨contract, function, args⟩)
  okOrUnavailable (simulated crates response)

/-- A value goes on; a simulation that failed is the outcome. -/
def onValue (simulated : Simulated) (next : ScValue → Observe StellarPayloadOutcome) : Observe StellarPayloadOutcome :=
  match simulated with
  | .value value => next value
  | .failed error => return simulationFailed error

/-! ## The observation -/

structure StellarPayloadContracts where
  endpointV2 : String
  uln302 : String
  views : String

structure StellarPayloadQuery where
  contracts : StellarPayloadContracts
  receiver : StellarAddress
  srcEid : UInt32
  verifier : StellarAddress
  packetHeader : List UInt8
  payloadHash : Bytes 32

def contractId (strkey : String) : Option (Bytes 32) := (stellarContractIdFromStrkey strkey).toOption

/-- `OAPP_CONFIG_ERROR_PATTERNS`. -/
def oappConfigErrorPatterns : List String := ["contract not found", "entry not found", "not deployed"]

/-- `to_lowercase`, and `contains`. -/
def isOappConfigError (error : String) : Bool :=
  let lowered := String.ofList (crates.lowerCase.toLowercase error.toList)
  oappConfigErrorPatterns.any (Workflow.contains lowered)

inductive Committed where
  | yes
  | no
  | failed (error : String)

def StellarPayloadQuery.pathway (query : StellarPayloadQuery) : List ScArg :=
  [.address query.receiver, .u32 query.srcEid]

/-- Done when the nonce is consumed, or this payload's hash is stored. -/
def packetIsCommitted (endpoint : Bytes 32) (query : StellarPayloadQuery) : Observe Committed := do
  if query.packetHeader.length ≠ 81 then Asking.throw .unavailable
  else
    let nonce := UInt64.ofNat (ofBytes ((query.packetHeader.drop 1).take 8))
    let channel := query.pathway ++ [.bytes ((query.packetHeader.drop 13).take 32)]
    match ← simulate crates provider endpoint "inbound_nonce" channel with
    | .failed error => return .failed error
    | .value (.u64 inboundNonce) =>
      if nonce ≤ inboundNonce then return .yes
      else
        match ← simulate crates provider endpoint "inbound_payload_hash" (channel ++ [.u64 nonce]) with
        | .failed error => return .failed error
        | .value .void => return .no
        | .value (.bytes hash) => if hash = query.payloadHash.val then return .yes else return .no
        | .value _ => Asking.throw .unavailable
    | .value _ => Asking.throw .unavailable

/-- What `uln_verifiable` says of "Verified", or the outcome it is. -/
def verifiedState : Simulated → Option (Except StellarPayloadOutcome Bool)
  | .value (.vec (.symbol name :: _)) =>
    if name = "Verified" then .some (.ok true)
    else if name ∈ ["Verifying", "Verifiable", "NotInitializable"] then .some (.ok false)
    else .some (.error (.refused ("Unknown VerificationState variant: '" ++ name ++ "'")))
  | .value (.vec []) =>
    .some (.error (.refused "Expected Soroban enum as ['VariantName'], got empty array"))
  | .value _ => .none
  | .failed error =>
    if isOappConfigError crates error then .some (.ok false) else .some (.error (simulationFailed error))

/-- A DVN's record, if it has one. -/
def recordOfValue : ScValue → Option (Option UInt64)
  | .void => .some .none
  | .u64 confirmations => .some (.some confirmations)
  | _ => .none

/-- The confirmations of a receive config. -/
def confirmationsOf (config : ScValue) : Option UInt64 :=
  match field "confirmations" config with
  | .some (.u64 required) => .some required
  | _ => .none

/-- A receive library, and whether it is the default. -/
def libraryOf (resolved : ScValue) : Option (StellarAddress × Bool) :=
  match field "lib" resolved, field "is_default" resolved with
  | .some (.address library), .some (.bool isDefault) => .some (library, isDefault)
  | _, _ => .none

def boolOf : ScValue → Option Bool
  | .bool value => .some value
  | _ => .none

def outcome (signed : Bool) (required : UInt64) : StellarPayloadOutcome :=
  .validity (if signed then .signed else .notSigned (.some required))

/-- Confirmed, or verified and committed. -/
def signedOutcome (endpoint : Bytes 32) (query : StellarPayloadQuery) (required : UInt64) (confirmed verified : Bool) :
    Observe StellarPayloadOutcome := do
  if confirmed then return outcome true required
  else if verified then
    match ← packetIsCommitted crates provider endpoint query with
    | .yes => return outcome true required
    | .no => return outcome false required
    | .failed error => return simulationFailed error
  else return outcome false required

/-- The reads of the pinned ULN302. -/
def observeUln302 (endpoint uln views : Bytes 32) (query : StellarPayloadQuery) : Observe StellarPayloadOutcome := do
  onValue (← simulate crates provider uln "effective_receive_uln_config" query.pathway) fun config => do
    let required ← okOrUnavailable (confirmationsOf config)
    let headerHash := crates.keccak256 query.packetHeader
    let confirmedAnswer ← Asking.ask provider ⟨uln, "confirmations",
      [.address query.verifier, .bytes headerHash.val, .bytes query.payloadHash.val]⟩
    let stateAnswer ← Asking.ask provider ⟨views, "uln_verifiable",
      [.bytes query.packetHeader, .bytes query.payloadHash.val]⟩
    let confirmed ← okOrUnavailable (simulated crates (← Asking.lift confirmedAnswer))
    onValue confirmed fun value => do
      let record ← okOrUnavailable (recordOfValue value)
      let state ← okOrUnavailable (simulated crates (← Asking.lift stateAnswer))
      match ← okOrUnavailable (verifiedState crates state) with
      | .error refused => return refused
      | .ok verified => signedOutcome crates provider endpoint query required (record.any (required ≤ ·)) verified

/-- The library must be the pinned one. -/
def observeLibrary (endpoint uln views : Bytes 32) (query : StellarPayloadQuery) (library : StellarAddress) :
    Observe StellarPayloadOutcome :=
  if library ≠ .contract uln then return .validity .unsupportedReceiveLibrary
  else observeUln302 crates provider endpoint uln views query

/-- A library other than the default must be valid. -/
def observeResolved (endpoint uln views : Bytes 32) (query : StellarPayloadQuery) (library : StellarAddress)
    (isDefault : Bool) : Observe StellarPayloadOutcome :=
  if isDefault then observeLibrary crates provider endpoint uln views query library
  else do
    onValue (← simulate crates provider endpoint "is_valid_receive_library" (query.pathway ++ [.address library]))
      fun value => do
        let valid ← okOrUnavailable (boolOf value)
        if valid then observeLibrary crates provider endpoint uln views query library
        else return .refused ("Invalid ULN version for lib: " ++ strkey library)

def observeStellarPayloadSigned (query : StellarPayloadQuery) : Observe StellarPayloadOutcome := do
  let endpoint ← okOrUnavailable (contractId query.contracts.endpointV2)
  let uln ← okOrUnavailable (contractId query.contracts.uln302)
  let views ← okOrUnavailable (contractId query.contracts.views)
  onValue (← simulate crates provider endpoint "get_receive_library" query.pathway) fun resolved => do
    let (library, isDefault) ← okOrUnavailable (libraryOf resolved)
    observeResolved crates provider endpoint uln views query library isDefault

def voteOn (query : StellarPayloadQuery) (provider : Provider) : Observe (String × StellarPayloadOutcome) := do
  let outcome ← observeStellarPayloadSigned crates provider query
  return (outcome.debug crates.debugStr, outcome)

end

/-! ## The check -/

section
variable (crates : Crates) (providers : Providers) (stellarPayloadContracts : Option StellarPayloadContracts)
  (provider : Nat → Provider) (messageIdJson : PacketSent.LzMessageId → String)

/-- A DVN may be an account. -/
def stellarVerifier (verifierAddress : String) : Exec AppCoreError StellarAddress :=
  if (stripPrefix "G" verifierAddress).isSome then do
    let id ← stellarAccountIdFromStrkey verifierAddress
    .ok (.account id)
  else stellarAddressArgument crates verifierAddress

def stellarPanel (sentEvent : LzSentEvent) (verifierAddress dstChainName : String) :
    Exec AppCoreError (Panel StellarPayloadQuery) := do
  let contracts ← okOrInternal stellarPayloadContracts "No Stellar payload-signed contracts configured"
  let config ← orErr (providers.providerConfig dstChainName)
  let receiverValue ← orErr (pathwayExtraStringValue sentEvent "receiver")
  let receiver ← stellarAddressArgument crates receiverValue
  let verifier ← stellarVerifier crates verifierAddress
  let srcEid ← orErr (pathwayExtraU32 sentEvent "srcEid")
  let proof ← computeLzPacketV1ProofFromEvent crates.toCrates sentEvent
  match crates.hex.decode (trimHex proof.packetHeader) with
  | .error error => Exec.err (.internal error)
  | .ok packetHeader =>
    let payloadHash ← okOrInternal
      ((crates.hex.decode (trimHex proof.payloadHash)).toOption.bind fun bytes =>
        if h : bytes.length = 32 then .some (⟨bytes, h⟩ : Bytes 32) else .none)
      "payload hash is not 32 bytes"
    orErr (providers.requiredProviderQuorum dstChainName)
    let order ← orErr (providers.planDispatch dstChainName)
    .ok ⟨{ contracts, receiver, srcEid, verifier, packetHeader, payloadHash }, config, order⟩

/-- A refusal that was agreed on is the service's error. -/
def stellarResult (sentEvent : LzSentEvent) (dstChainName : String) :
    StellarPayloadOutcome → Except AppCoreError (Option UInt64)
  | .validity validity => payloadSignedValidationResult messageIdJson validity sentEvent dstChainName
  | .refused message => .error (.internal message)

def validateStellarPayloadNotSignedWithQuorum (sentEvent : LzSentEvent) (verifierAddress dstChainName : String) :
    Exec AppCoreError (Option UInt64) :=
  validateWithQuorum (stellarPanel crates providers stellarPayloadContracts sentEvent verifierAddress dstChainName)
    (voteOn crates) provider ("payload-signed validation for chain " ++ dstChainName)
    (stellarResult messageIdJson sentEvent dstChainName)

end

end Pillar.StellarPayload
