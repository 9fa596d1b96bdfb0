/-
The payload-signed check on Sui and IOTA (`pillar-runtime`,
`layerzero_runtime/validation_payload_sui.rs`; `pillar-layerzero`, `sui_bcs.rs`):
views of the endpoint, the ULN and its views package, each a dry run of Move
calls over shared objects that are looked up first.

A request is what its body says. Sui answers a dry run over GraphQL, IOTA over
JSON-RPC.
-/
import Pillar.Base64
import Pillar.MovePayload
import Pillar.Redact
import Pillar.SuiBcs

namespace Pillar.SuiPayload

open Abi (Bytes)
open EvmPayload (trimHex orErr)
open Fields Hex Packet PayloadSigned SuiBcs Text
open MovePayload (parseU64)
open PacketSent (LzSentEvent)
open Redact (splitOnce)

structure Crates extends Packet.Crates where
  base64 : Base64.Engine

/-! ## Values -/

def decodeSuiU8 (bytes : List UInt8) : Except AppCoreError UInt8 :=
  match bytes with
  | [value] => .ok value
  | _ => .error (.internal ("expected one BCS u8, got " ++ toString bytes.length ++ " bytes"))

def decodeSuiU64 (bytes : List UInt8) : Exec AppCoreError UInt64 := do
  let (value, reader) ← u64Le ⟨bytes, 0⟩
  if reader.offset ≠ bytes.length then Exec.err (.internal "trailing bytes after BCS u64") else return value

def decodeSuiAddress (bytes : List UInt8) : Exec AppCoreError (Bytes 32) := do
  let (value, reader) ← address ⟨bytes, 0⟩
  if reader.offset ≠ bytes.length then Exec.err (.internal "trailing bytes after BCS address") else return value

def suiPureAddress (address : Bytes 32) : List UInt8 := address.val

def suiPureU32 (value : UInt32) : List UInt8 := leBytes 4 value.toNat

def suiPureBytes (bytes : List UInt8) : List UInt8 := writeLen bytes.length ++ bytes

/-- A short form such as `0x2` is filled up with zeros. -/
def suiAddressFromHex (hex : HexCrate) (value : String) : Exec AppCoreError (Bytes 32) :=
  let body := (stripPrefix "0x" value).getD value
  if body.utf8ByteSize = 0 ∨ 64 < body.utf8ByteSize then Exec.err (.internal ("invalid Sui address " ++ value))
  else
    match hex.decode (String.ofList (List.replicate (64 - body.length) '0' ++ body.toList)) with
    | .error error => Exec.err (.internal ("invalid Sui address " ++ value ++ ": " ++ error))
    | .ok bytes => if h : bytes.length = 32 then .ok ⟨bytes, h⟩ else .error .panic

/-! ## What a node answers -/

/-- A Move abort's code, and the function that raised it. -/
structure MoveAbortSite where
  code : Int
  package : Bytes 32
  module : String
  function : String
  deriving DecidableEq

def MoveAbortSite.raisedBy (site : MoveAbortSite) (package : Bytes 32) (module function : String) : Bool :=
  site.package = package && site.module = module && site.function = function

/-- Why a dry run produced no value. -/
inductive SuiViewFailure where
  | moveAbort (site : MoveAbortSite)
  | unusable
  deriving DecidableEq

section
variable (crates : Crates)

/-- An array of bytes, or base64. -/
def decodeReturnValue : Json → Option (List UInt8)
  | .array bytes => bytes.mapM fun byte => byte.asU64.bind fun n => if n.toNat < 256 then .some n.toUInt8 else .none
  | .string encoded => (crates.base64.decode encoded).toOption
  | _ => .none

/-- The place and the code in the text of an IOTA node: `.. Location:
0x<package>::<module>::<function> (function index N) at offset M, Abort Code: C ..`. -/
def iotaMoveAbortSite (error : String) : Option MoveAbortSite := do
  let rest ← stripPrefix "MoveAbort: Move Runtime Abort. Location: " error
  let (location, rest) ← splitOnce [' '] rest.toList
  let (package, names) ← splitOnce [':', ':'] location
  let (module, function) ← splitOnce [':', ':'] names
  if (splitOnce [':', ':'] function).isSome then .none
  else
    let (_, code) ← splitOnce ", Abort Code: ".toList rest
    let digits := code.takeWhile fun c => '0' ≤ c && c ≤ '9'
    let code ← (parseSigned 64 (String.ofList digits)).toOption
    let package ← (suiAddressFromHex crates.hex (String.ofList package)).toOption
    return { code, package, module := String.ofList module, function := String.ofList function }

/-- The place and the code in an execution error of Sui's. -/
def suiGraphqlAbortSite (error : Json) : Option MoveAbortSite := do
  let code ← error.get "abortCode"
  let code ← code.asI64.or (code.asStr.bind fun text => (parseSigned 64 text).toOption)
  let package ← (error.pointer ["module", "package", "address"]).bind Json.asStr
  let package ← (suiAddressFromHex crates.hex package).toOption
  let module ← (error.pointer ["module", "name"]).bind Json.asStr
  let function ← (error.pointer ["function", "name"]).bind Json.asStr
  return { code, package, module, function }

def failureOf (site : Option MoveAbortSite) : SuiViewFailure := site.elim .unusable .moveAbort

/-- The first value that the last command returned. -/
def iotaReturned (response : Json) : Option (Except SuiViewFailure (List UInt8)) :=
  (response.get "result").bind fun result =>
    match (result.get "error").bind Json.asStr with
    | .some error => .some (.error (failureOf (iotaMoveAbortSite crates error)))
    | .none =>
      (((result.get "results").bind Json.asArray).bind List.getLast?).bind fun last =>
        (((last.get "returnValues").bind Json.asArray).bind List.head?).bind fun value =>
          ((value.asArray.bind List.head?).bind (decodeReturnValue crates)).map .ok

/-- The token `0` of a pointer. -/
def firstOf : Json → Option Json
  | .array values => values.head?
  | value => value.get "0"

def suiReturned (response : Json) : Option (Except SuiViewFailure (List UInt8)) :=
  if (response.get "errors").isSome then .none
  else
    (response.pointer ["data", "simulateTransaction"]).bind fun simulation =>
      match (simulation.pointer ["effects", "executionError"]).filter (!·.isNull) with
      | .some error =>
        if (error.get "abortCode").all Json.isNull then .some (.error .unusable)
        else .some (.error (failureOf (suiGraphqlAbortSite crates error)))
      | .none =>
        if (simulation.pointer ["effects", "status"]).bind Json.asStr ≠ .some "SUCCESS" then .some (.error .unusable)
        else
          (((simulation.get "outputs").bind Json.asArray).bind List.getLast?).bind fun output =>
            (((output.get "returnValues").bind firstOf).bind (Json.pointer ["value", "bcs"])).bind fun encoded =>
              (decodeReturnValue crates encoded).map .ok

/-- What a dry run returned on a chain. -/
def returned (chainName : String) (response : Json) : Option (Except SuiViewFailure (List UInt8)) :=
  if chainName = "iotal1" then iotaReturned crates response else suiReturned crates response

/-- Which parameters of a function are not read-only references. -/
def parametersOf (response : Json) : Option (List Bool) :=
  ((response.pointer ["result", "parameters"]).bind Json.asArray).map fun parameters =>
    parameters.map fun parameter => (parameter.get "Reference").isNone

def versionOf (object : Json) : Option UInt64 :=
  (object.pointer ["data", "owner", "Shared", "initial_shared_version"]).bind fun version =>
    version.asU64.or (version.asStr.bind parseU64)

/-- The versions of as many objects as were asked for. -/
def initialVersionsOf (count : Nat) (response : Json) : Option (List.Vector UInt64 count) := do
  let objects ← (response.get "result").bind Json.asArray
  let versions ← objects.mapM versionOf
  if h : versions.length = count then .some ⟨versions, h⟩ else .none

/-! ## Requests -/

inductive SuiRequest where
  | entityPermit
  | getNormalizedMoveFunction (package : Bytes 32) (module function : String)
  | multiGetObjects (objectIds : List String)
  | devInspect (inputs : List SuiCallArg) (commands : List SuiMoveCall)
  deriving DecidableEq

abbrev Provider := Oracle SuiRequest fun _ => Except RpcError Json

abbrev Observe (α : Type) := Asking SuiRequest (fun _ => Except RpcError Json) RpcError α

variable (provider : Provider)

/-- `post_json_scoped(..).await?`, and what is read from the response. -/
def request {α : Type} (question : SuiRequest) (read : Json → Option α) : Observe α := do
  let response ← Asking.lift (← Asking.ask provider question)
  okOrUnavailable (read response)

def normalizedParameters (package : Bytes 32) (module function : String) : Observe (List Bool) :=
  request provider (.getNormalizedMoveFunction package module function) parametersOf

def sharedObjectInitialVersions (objectIds : List String) : Observe (List.Vector UInt64 objectIds.length) :=
  request provider (.multiGetObjects objectIds) (initialVersionsOf objectIds.length)

def sharedObjectInput (objectId : String) (initialSharedVersion : UInt64) (parameters : List Bool) (index : Nat) :
    Observe SuiSharedObject := do
  let objectId ← okOrUnavailable (suiAddressFromHex crates.hex objectId).toOption
  let mutable ← okOrUnavailable parameters[index]?
  return { objectId, initialSharedVersion, mutable }

def resolveSharedObject (objectId : String) (package : Bytes 32) (module function : String) (parameterIndex : Nat) :
    Observe SuiSharedObject := do
  let parameters ← normalizedParameters provider package module function
  let versions ← sharedObjectInitialVersions provider [objectId]
  sharedObjectInput crates objectId (versions.get 0) parameters parameterIndex

def devInspectReturn (chainName : String) (inputs : List SuiCallArg) (commands : List SuiMoveCall) :
    Observe (Except SuiViewFailure (List UInt8)) :=
  request provider (.devInspect inputs commands) (returned crates chainName)

/-- A dry run that must return a value of one kind. -/
def devInspectValue {α : Type} (chainName : String) (inputs : List SuiCallArg) (command : SuiMoveCall)
    (decode : List UInt8 → Option α) : Observe α := do
  let result ← devInspectReturn crates provider chainName inputs [command]
  okOrUnavailable (result.toOption.bind decode)

/-! ## The observation -/

structure SuiPayloadContracts where
  endpointV2Package : String
  endpointV2Object : String
  uln302Package : String
  uln302Object : String
  uln302VerificationObject : String
  layerzeroViewsPackage : String
  utilsPackage : String

structure SuiPayloadQuery where
  chainName : String
  contracts : SuiPayloadContracts
  receiver : Bytes 32
  srcEid : UInt32
  verifier : Bytes 32
  packetHeader : List UInt8
  headerHash : Bytes 32
  payloadHash : List UInt8

/-- `MODULE_ULN_302_VIEWS` and its like. -/
def moduleUln302Views : String := "uln_302_views"
def moduleUln302 : String := "uln_302"
def moduleEndpointV2 : String := "endpoint_v2"
def moduleBytes32 : String := "bytes32"

def suiVerificationStateVerified : UInt8 := 2

def suiClock : String := "0x0000000000000000000000000000000000000000000000000000000000000006"

/-- `E_CONFIRMATIONS_NOT_FOUND`, and where it is raised. -/
def eConfirmationsNotFound : Int := 1
def moduleReceiveUln : String := "receive_uln"
def functionGetConfirmations : String := "get_confirmations"

structure Packages where
  endpoint : Bytes 32
  uln : Bytes 32
  views : Bytes 32
  utils : Bytes 32

def packagesOf (contracts : SuiPayloadContracts) : Option Packages := do
  let endpoint ← (suiAddressFromHex crates.hex contracts.endpointV2Package).toOption
  let uln ← (suiAddressFromHex crates.hex contracts.uln302Package).toOption
  let views ← (suiAddressFromHex crates.hex contracts.layerzeroViewsPackage).toOption
  let utils ← (suiAddressFromHex crates.hex contracts.utilsPackage).toOption
  return { endpoint, uln, views, utils }

/-- The inputs of a call, in order. -/
def inputs (count : Nat) : List SuiArgument := (List.range count).map fun index => .input (.ofNat index)

/-- What the later reads need of the first ones. -/
structure Objects where
  endpointVersion : UInt64
  ulnVersion : UInt64
  verificationVersion : UInt64

section
variable (query : SuiPayloadQuery) (packages : Packages)

def messagingChannelCall : SuiMoveCall :=
  ⟨packages.endpoint, moduleEndpointV2, "get_messaging_channel", inputs 2⟩

def verifiableCall : SuiMoveCall := ⟨packages.views, moduleUln302Views, "verifiable", inputs 6⟩

/-- The two hashes, and the record under them. -/
def confirmationsCalls : List SuiMoveCall :=
  [⟨packages.utils, moduleBytes32, "from_bytes", [.input 2]⟩,
    ⟨packages.utils, moduleBytes32, "from_bytes", [.input 3]⟩,
    ⟨packages.uln, moduleUln302, "get_confirmations", [.input 0, .input 1, .result 0, .result 1]⟩]

def configCall : SuiMoveCall := ⟨packages.uln, moduleUln302, "get_effective_receive_uln_config", inputs 3⟩

def libraryCall : SuiMoveCall := ⟨packages.endpoint, moduleEndpointV2, "is_valid_receive_library", inputs 5⟩

/-- The receiver's messaging channel, and the endpoint's version. -/
def messagingChannel : Observe (UInt64 × Bytes 32) := do
  let endpointObject ← resolveSharedObject crates provider query.contracts.endpointV2Object packages.endpoint
    moduleEndpointV2 "get_messaging_channel" 0
  let channel ← devInspectValue crates provider query.chainName
    [.shared endpointObject, .pure (suiPureAddress query.receiver)] (messagingChannelCall packages)
    fun bytes => (decodeSuiAddress bytes).toOption
  return (endpointObject.initialSharedVersion, channel)

/-- What `verifiable` says of the packet. -/
def verificationState (endpointVersion : UInt64) (channel : Bytes 32) : Observe (Objects × UInt8) := do
  let parameters ← normalizedParameters provider packages.views moduleUln302Views "verifiable"
  let channelAddress := hexText crates.hex channel.val
  let versions ← sharedObjectInitialVersions provider
    [query.contracts.uln302Object, query.contracts.uln302VerificationObject, channelAddress]
  let uln ← sharedObjectInput crates query.contracts.uln302Object (versions.get 0) parameters 0
  let verification ← sharedObjectInput crates query.contracts.uln302VerificationObject (versions.get 1) parameters 1
  let endpoint ← sharedObjectInput crates query.contracts.endpointV2Object endpointVersion parameters 2
  let channelObject ← sharedObjectInput crates channelAddress (versions.get 2) parameters 3
  let state ← devInspectValue crates provider query.chainName
    [.shared uln, .shared verification, .shared endpoint, .shared channelObject,
      .pure (suiPureBytes query.packetHeader), .pure (suiPureBytes query.payloadHash)]
    (verifiableCall packages) fun bytes => (decodeSuiU8 bytes).toOption
  return (⟨endpointVersion, versions.get 0, versions.get 1⟩, state)

/-- The DVN's record: the one abort that says there is none is the ULN's own,
for `bytes32::from_bytes` aborts with the same code. -/
def recordReturned (uln : Bytes 32) : Except SuiViewFailure (List UInt8) → Option (Option UInt64)
  | .ok bytes => (decodeSuiU64 bytes).toOption.map .some
  | .error (.moveAbort site) =>
    if site.code = eConfirmationsNotFound ∧ site.raisedBy uln moduleReceiveUln functionGetConfirmations then
      .some .none
    else .none
  | .error .unusable => .none

def storedConfirmations (objects : Objects) : Observe (Option UInt64) := do
  let parameters ← normalizedParameters provider packages.uln moduleUln302 "get_confirmations"
  let verification ← sharedObjectInput crates query.contracts.uln302VerificationObject objects.verificationVersion
    parameters 0
  let result ← devInspectReturn crates provider query.chainName
    [.shared verification, .pure (suiPureAddress query.verifier), .pure (suiPureBytes query.headerHash.val),
      .pure (suiPureBytes query.payloadHash)] (confirmationsCalls packages)
  okOrUnavailable (recordReturned packages.uln result)

/-- `decode_sui_uln_config(..)?.confirmations`. -/
def requiredOf (bytes : List UInt8) : Option UInt64 := (decodeSuiUlnConfig bytes).toOption.map (·.confirmations)

def requiredConfirmations (objects : Objects) : Observe UInt64 := do
  let parameters ← normalizedParameters provider packages.uln moduleUln302 "get_effective_receive_uln_config"
  let uln ← sharedObjectInput crates query.contracts.uln302Object objects.ulnVersion parameters 0
  devInspectValue crates provider query.chainName
    [.shared uln, .pure (suiPureAddress query.receiver), .pure (suiPureU32 query.srcEid)] (configCall packages)
    requiredOf

/-- Whether the pinned ULN302 is the receiver's effective library. -/
def isValidReceiveLibrary (objects : Objects) : Observe Bool := do
  let parameters ← normalizedParameters provider packages.endpoint moduleEndpointV2 "is_valid_receive_library"
  let clock ← sharedObjectInitialVersions provider [suiClock]
  let endpoint ← sharedObjectInput crates query.contracts.endpointV2Object objects.endpointVersion parameters 0
  let clock ← sharedObjectInput crates suiClock (clock.get 0) parameters 4
  let valid ← devInspectValue crates provider query.chainName
    [.shared endpoint, .pure (suiPureAddress query.receiver), .pure (suiPureU32 query.srcEid),
      .pure (suiPureAddress packages.uln), .shared clock] (libraryCall packages)
    fun bytes => (decodeSuiU8 bytes).toOption
  if valid = 1 then return true else if valid = 0 then return false else Asking.throw .unavailable

end

/-- What a provider was seen to say, of a library that is valid. -/
structure Seen where
  state : UInt8
  confirmations : Option UInt64
  required : UInt64
  deriving DecidableEq

def Seen.validity (seen : Seen) : PayloadSignedValidity :=
  if seen.state = suiVerificationStateVerified ∨ seen.confirmations.any (seen.required ≤ ·) then .signed
  else .notSigned (.some seen.required)

def Seen.key (seen : Seen) : String :=
  joined [decimal seen.state.toUInt64, debugOption seen.confirmations, decimal seen.required]

def observeSuiPayloadSigned (query : SuiPayloadQuery) : Observe (String × PayloadSignedValidity) := do
  let packages ← okOrUnavailable (packagesOf crates query.contracts)
  let (endpointVersion, channel) ← messagingChannel crates provider query packages
  let (objects, state) ← verificationState crates provider query packages endpointVersion channel
  let confirmations ← storedConfirmations crates provider query packages objects
  let required ← requiredConfirmations crates provider query packages objects
  if ← isValidReceiveLibrary crates provider query packages objects then
    let seen : Seen := { state, confirmations, required }
    return (seen.key, seen.validity)
  else return ("unsupported-receive-library", .unsupportedReceiveLibrary)

/-- A provider's entity is admitted first. -/
def voteOn (query : SuiPayloadQuery) (provider : Provider) : Observe (String × PayloadSignedValidity) := do
  let _ ← Asking.lift (← Asking.ask provider .entityPermit)
  observeSuiPayloadSigned crates provider query

end

/-! ## The check -/

section
variable (crates : Crates) (providers : Providers) (suiPayloadContracts : String → Option SuiPayloadContracts)
  (provider : Nat → Provider) (messageIdJson : PacketSent.LzMessageId → String)

def suiPanel (sentEvent : LzSentEvent) (verifierAddress dstChainName : String) :
    Exec AppCoreError (Panel SuiPayloadQuery) := do
  let ulnVersion ← okOrInternal (ulnVersionValue sentEvent.lzMessageId) "ulnSendVersion must be a string"
  if ulnVersion ≠ "V302" then
    Exec.err (.badRequest ("Unsupported " ++ dstChainName ++ " payload-signed validation for " ++ ulnVersion))
  else
    let contracts ← okOrInternal (suiPayloadContracts dstChainName)
      ("No Sui LayerZero contracts configured for " ++ dstChainName)
    let config ← orErr (providers.providerConfig dstChainName)
    if config.voters.isEmpty then Exec.err (.internal ("No provider URI for chain " ++ dstChainName))
    else
      let receiverValue ← orErr (pathwayExtraStringValue sentEvent "receiver")
      let receiver ← suiAddressFromHex crates.hex receiverValue
      let srcEid ← orErr (pathwayExtraU32 sentEvent "srcEid")
      let verifier ← suiAddressFromHex crates.hex verifierAddress
      let proof ← computeLzPacketV1ProofFromEvent crates.toCrates sentEvent
      match crates.hex.decode (trimHex proof.packetHeader), crates.hex.decode (trimHex proof.payloadHash) with
      | .error error, _ => Exec.err (.internal ("packetHeader hex: " ++ error))
      | .ok _, .error error => Exec.err (.internal ("payloadHash hex: " ++ error))
      | .ok packetHeader, .ok payloadHash =>
        if payloadHash.length ≠ 32 then
          Exec.err (.internal ("payloadHash must be 32 bytes, got " ++ toString payloadHash.length))
        else
          let headerHash := crates.keccak256 packetHeader
          orErr (providers.requiredProviderQuorum dstChainName)
          let order ← orErr (providers.planDispatch dstChainName)
          let query : SuiPayloadQuery :=
            { chainName := dstChainName, contracts, receiver, srcEid, verifier, packetHeader, headerHash, payloadHash }
          .ok ⟨query, config, order⟩

def validateSuiPayloadNotSignedWithQuorum (sentEvent : LzSentEvent) (verifierAddress dstChainName : String) :
    Exec AppCoreError (Option UInt64) :=
  validateWithQuorum (suiPanel crates providers suiPayloadContracts sentEvent verifierAddress dstChainName)
    (voteOn crates) provider ("payload-signed validation for chain " ++ dstChainName)
    fun validity => payloadSignedValidationResult messageIdJson validity sentEvent dstChainName

end

end Pillar.SuiPayload
