/-
The payload-signed check on Move destinations (`pillar-runtime`,
`layerzero_runtime/validation_payload.rs`): ULN302 on Aptos, Movement and
Initia, and ULN301 on Aptos.

A view is its question: the contract and what it is asked. The request is left
out, and a provider may answer any values, or fail, building it included.
-/
import Pillar.PayloadVote

namespace Pillar.MovePayload

open Packet Text Hex Abi Fields PayloadSigned
open EvmPayload (trimHex orErr isChainNativePayloadSignedDestination)
open PacketSent (LzSentEvent)
open Bits (ofBytes)

/-! ## Reading -/

/-- `parse::<u64>().ok()`. -/
def parseU64 (value : String) : Option UInt64 := (parse 64 value).toOption.map UInt64.ofNat

def moveU64 (value : Json) : Option UInt64 := value.asU64.or (value.asStr.bind parseU64)

def moveU8 (value : Json) : Option UInt8 :=
  (moveU64 value).bind fun n => if n.toNat < 2 ^ 8 then .some n.toUInt8 else .none

/-- `getAddressInHex("aptos", …)`: 32 bytes, zero-padded, lower-cased. -/
def aptosAddressBytes32 (value : String) : Option String :=
  let digits := (stripPrefix "0x" value).getD value
  if digits.isEmpty ∨ digits.utf8ByteSize > 64 ∨ !digits.toList.all (fun c => (hexDigit? c).isSome) then .none
  else .some ("0x" ++ padLeft 64 (toAsciiLowercase digits))

/-- `getAddressEncodedByChain` for an EVM chain: the last 20 bytes of the value
left-padded to 32, lower-cased. -/
def evmAddressFromPaddedHex (value : String) : Option String :=
  let digits := (stripPrefix "0x" value).getD value
  if digits.utf8ByteSize > 64 ∨ !digits.toList.all (fun c => (hexDigit? c).isSome) then .none
  else .some ("0x" ++ toAsciiLowercase (String.ofList ((padLeft 64 digits).toList.drop 24)))

/-- An encoded ULN config's confirmations, in network byte order. -/
def moveUlnConfigConfirmations (hex : HexCrate) (encoded : String) : Option UInt64 := do
  let bytes ← (hex.decode (trimHex encoded)).toOption
  if bytes.length < 8 then .none
  else
    let requiredCount ← bytes[9]?
    let optionalCountAt := 10 + requiredCount.toNat * 32
    let optionalCount ← bytes[optionalCountAt]?
    let flagsAt := optionalCountAt + 1 + optionalCount.toNat * 32
    if flagsAt > bytes.length then .none
    else
      let flags := bytes.drop flagsAt
      if flags.length ≠ 3 ∨ flags.any (· > 1) then .none
      else .some (UInt64.ofNat (ofBytes (bytes.take 8)))

/-! ## Views -/

inductive MoveCall where
  | getReceiveMsglib (receiverBytes32 srcEid : String)
  | getV1Config (receiver srcEid : String)
  | getEffectiveReceiveLibrary (receiverBytes32 srcEid : String)
  | getConfig (receiver uln srcEid : String)
  | getVerificationConfirmations (headerHash payloadHash verifier : String)
  | verifiable (packetHeader payloadHash : String)
  | inboundNonce (receiver srcEid sender : String)
  deriving DecidableEq

/-- A view of a contract, or the hash that EndpointV1 keeps for a nonce; there it
is an empty text when the table has none. -/
inductive Question where
  | view (contract : String) (call : MoveCall)
  | aptosV1PayloadHash (layerzero receiver srcEid sender : String) (nonce : UInt64)

abbrev Answer : Question → Type
  | .view _ _ => Except RpcError (List Json)
  | .aptosV1PayloadHash _ _ _ _ _ => Except RpcError Json

abbrev Provider := Oracle Question Answer

abbrev Observe (α : Type) := Asking Question Answer RpcError α

section
variable (crates : Crates) (provider : Provider)

/-- `ok_or(RpcError::Unavailable)`. -/
def orUnavailable {α : Type} (value : Option α) : Observe α := Asking.lift (value.elim (.error .unavailable) .ok)

def moveViewValues (contract : String) (call : MoveCall) : Observe (List Json) := do
  Asking.lift (← Asking.ask provider (.view contract call))

/-- The first value of a view, read. -/
def moveViewValue {α : Type} (contract : String) (call : MoveCall) (read : Json → Option α) : Observe α := do
  let values ← moveViewValues provider contract call
  orUnavailable (values.head?.bind read)

/-- `Keccak256` of the header. -/
def headerHash (packetHeader : String) : Option String :=
  (crates.hex.decode (trimHex packetHeader)).toOption.map (keccak256Hex crates)

/-- The DVN's confirmations, if the view returned any. A DVN without a record has none or zero of them. -/
def verificationConfirmations (contract headerHash payloadHash verifier : String) : Observe (Option UInt64) := do
  let values ← moveViewValues provider contract (.getVerificationConfirmations headerHash payloadHash verifier)
  match values.head? with
  | .none => return .none
  | .some value => return .some (← orUnavailable (moveU64 value))

/-- Only a positive count signs. -/
def dvnConfirmed (confirmations : Option UInt64) (required : UInt64) : Bool :=
  confirmations.any fun count => count > 0 && count ≥ required

/-! ## ULN302 -/

structure MovePayloadSignedObservation where
  endpointV2 : String
  uln302 : String
  views : String
  receiver : String
  srcEid : UInt32
  verifierAddress : String
  packetHeader : String
  payloadHash : String

/-- What a provider is seen to say of the packet. -/
structure MoveRead where
  receiveLibrary : String
  state : UInt64
  confirmations : Option UInt64
  required : UInt64

def MoveRead.validity (read : MoveRead) : PayloadSignedValidity :=
  if read.state = 2 ∨ dvnConfirmed read.confirmations read.required then .signed else .notSigned (.some read.required)

def MoveRead.key (read : MoveRead) : String :=
  joined [read.receiveLibrary, decimal read.state, debugOption read.confirmations, decimal read.required]

def moveRead (query : MovePayloadSignedObservation) : Observe MoveRead := do
  let headerHash ← orUnavailable (headerHash crates query.packetHeader)
  let srcEid := query.srcEid.toNat.repr
  let receiverBytes32 ← orUnavailable (aptosAddressBytes32 query.receiver)
  let receiveLibrary ← moveViewValue provider query.endpointV2 (.getEffectiveReceiveLibrary receiverBytes32 srcEid)
    fun value => value.asStr.bind aptosAddressBytes32
  if aptosAddressBytes32 query.uln302 ≠ .some receiveLibrary then
    Asking.throw (.remote "Unsupported Move receive library")
  else
    let required ← moveViewValue provider query.endpointV2 (.getConfig query.receiver query.uln302 srcEid)
      fun value => value.asStr.bind (moveUlnConfigConfirmations crates.hex)
    let state ← moveViewValue provider query.views (.verifiable query.packetHeader query.payloadHash) moveU64
    if state > 4 then Asking.throw .unavailable
    else
      let confirmations ← verificationConfirmations provider query.uln302 headerHash query.payloadHash
        query.verifierAddress
      return ⟨receiveLibrary, state, confirmations, required⟩

def observeMovePayloadSigned (query : MovePayloadSignedObservation) : Observe (String × PayloadSignedValidity) := do
  let read ← moveRead crates provider query
  return (read.key, read.validity)

/-! ## ULN301 -/

structure AptosV301Contracts where
  uln301 : String
  layerzero : String
  view : String
  viewUln301 : String

structure AptosV301Observation where
  contracts : AptosV301Contracts
  receiver : String
  receiverBytes32 : String
  srcEid : UInt32
  sender : String
  nonce : UInt64
  verifierAddress : String
  packetHeader : String
  payloadHash : String

/-- `hex::decode_to_slice`, of 32 bytes. -/
def decodeSlice32 (value : String) : Option (List UInt8) :=
  (crates.hex.decode (trimHex value)).toOption.filter (·.length = 32)

/-- The stored hash against the packet's. -/
def hashMatches (stored payloadHash : String) : Option Bool :=
  if stored.isEmpty then .some false
  else do
    let bytes ← decodeSlice32 crates stored
    let expected ← decodeSlice32 crates payloadHash
    return bytes = expected

/-- A packet that is still verifying is done when its nonce is consumed, or its hash is stored. -/
def aptosV1Verified (query : AptosV301Observation) (srcEid : String) (state : UInt8) : Observe Bool := do
  if state = 2 then return true
  else if state ≠ 0 then return false
  else
    let inboundNonce ← moveViewValue provider query.contracts.view
      (.inboundNonce query.receiver srcEid query.sender) moveU64
    if query.nonce ≤ inboundNonce then return true
    else
      let stored ← Asking.lift (← Asking.ask provider
        (.aptosV1PayloadHash query.contracts.layerzero query.receiver srcEid query.sender query.nonce))
      let hash ← orUnavailable stored.asStr
      orUnavailable (hashMatches crates hash query.payloadHash)

/-- What a provider is seen to say of the packet on ULN301. -/
structure AptosV301Read where
  required : UInt64
  confirmations : Option UInt64
  state : UInt8
  signed : Bool

def AptosV301Read.validity (read : AptosV301Read) : PayloadSignedValidity :=
  if read.signed then .signed else .notSigned (.some read.required)

def AptosV301Read.key (read : AptosV301Read) : String :=
  joined [decimal read.required, debugOption read.confirmations, decimal read.state.toUInt64, debugBool read.signed]

def aptosV301Read (query : AptosV301Observation) : Observe AptosV301Read := do
  let srcEid := query.srcEid.toNat.repr
  let required ← moveViewValue provider query.contracts.view (.getV1Config query.receiver srcEid)
    fun value => value.asStr.bind (moveUlnConfigConfirmations crates.hex)
  let headerHash ← orUnavailable (headerHash crates query.packetHeader)
  let confirmations ← verificationConfirmations provider query.contracts.uln301 headerHash query.payloadHash
    query.verifierAddress
  let state ← moveViewValue provider query.contracts.viewUln301 (.verifiable query.packetHeader query.payloadHash)
    moveU8
  if state > 4 then
    Asking.throw (.remote ("Unknown Aptos V301 verification state: " ++ state.toNat.repr))
  else
    let verified ← aptosV1Verified crates provider query srcEid state
    return ⟨required, confirmations, state, dvnConfirmed confirmations required || verified⟩

/-- `Debug` of a version. -/
def debugVersion (version : Option UInt64 × Option UInt64) : String :=
  "(" ++ debugOption version.1 ++ ", " ++ debugOption version.2 ++ ")"

/-- Only (2, 0) is ULN301. -/
def observeAptosV301PayloadSigned (query : AptosV301Observation) : Observe (String × PayloadSignedValidity) := do
  let library ← moveViewValues provider query.contracts.view
    (.getReceiveMsglib query.receiverBytes32 query.srcEid.toNat.repr)
  let version := (library[0]?.bind moveU64, library[1]?.bind moveU64)
  if version ≠ (.some 2, .some 0) then
    return (joined ["library", debugVersion version], .unsupportedReceiveLibrary)
  else
    let read ← aptosV301Read crates provider query
    return (read.key, read.validity)

end

/-! ## The check -/

/-- The contracts of the Move chains, by chain. -/
structure MoveContracts where
  moveEndpointV2ByChainName : String → Option String
  moveUln302ByChainName : String → Option String
  moveViewsByChainName : String → Option String
  aptosV301Contracts : Option AptosV301Contracts

section
variable (crates : Crates) (contracts : MoveContracts) (providers : Providers) (provider : Nat → Provider)
  (messageIdJson : PacketSent.LzMessageId → String)

def moveUln302Panel (sentEvent : LzSentEvent) (verifierAddress dstChainName : String) :
    Exec AppCoreError (Panel MovePayloadSignedObservation) := do
  let config ← orErr (providers.providerConfig dstChainName)
  let endpointV2 ← okOrInternal (contracts.moveEndpointV2ByChainName dstChainName)
    ("No Move EndpointV2 contract configured for " ++ dstChainName)
  let uln302 ← okOrInternal (contracts.moveUln302ByChainName dstChainName)
    ("No Move ULN302 contract configured for " ++ dstChainName)
  let views ← okOrInternal (contracts.moveViewsByChainName dstChainName)
    ("No Move LayerZeroViews contract configured for " ++ dstChainName)
  let receiver ← orErr (pathwayExtraStringValue sentEvent "receiver")
  let srcEid ← orErr (pathwayExtraU32 sentEvent "srcEid")
  orErr (providers.requiredProviderQuorum dstChainName)
  let order ← orErr (providers.planDispatch dstChainName)
  let proof ← computeLzPacketV1ProofFromEvent crates sentEvent
  .ok ⟨{ endpointV2, uln302, views, receiver, srcEid, verifierAddress, packetHeader := proof.packetHeader,
         payloadHash := proof.payloadHash }, config, order⟩

/-- Only an EVM-shaped source can send V301 to Aptos. -/
def aptosV301Panel (sentEvent : LzSentEvent) (verifierAddress : String) :
    Exec AppCoreError (Panel AptosV301Observation) := do
  let contracts ← okOrInternal contracts.aptosV301Contracts "No Aptos EndpointV1 contracts configured"
  let srcChainName := sentEvent.lzMessageId.pathwayId.srcChainName
  if isChainNativePayloadSignedDestination srcChainName then
    Exec.err (.badRequest ("Unsupported aptos payload-signed validation for V301 from " ++ srcChainName))
  else
    let senderValue ← orErr (pathwayExtraStringValue sentEvent "sender")
    match evmAddressFromPaddedHex senderValue with
    | .none => Exec.err (.badRequest "V301 sender is not an EVM address")
    | .some sender =>
      let receiver ← orErr (pathwayExtraStringValue sentEvent "receiver")
      match aptosAddressBytes32 receiver with
      | .none => Exec.err (.badRequest "V301 receiver is not an Aptos address")
      | .some receiverBytes32 =>
        let srcEid ← orErr (pathwayExtraU32 sentEvent "srcEid")
        let (config, order) ← orErr (providers.dispatch "aptos")
        let proof ← computeLzPacketV1ProofFromEvent crates sentEvent
        .ok ⟨{ contracts, receiver, receiverBytes32, srcEid, sender, nonce := sentEvent.lzMessageId.nonce,
               verifierAddress, packetHeader := proof.packetHeader, payloadHash := proof.payloadHash }, config, order⟩

def validateMoveUln302PayloadNotSignedWithQuorum (sentEvent : LzSentEvent) (verifierAddress dstChainName : String) :
    Exec AppCoreError (Option UInt64) :=
  validateWithQuorum (moveUln302Panel crates contracts providers sentEvent verifierAddress dstChainName)
    (fun query provider => observeMovePayloadSigned crates provider query) provider
    ("payload-signed validation for chain " ++ dstChainName)
    fun validity => payloadSignedValidationResult messageIdJson validity sentEvent dstChainName

def validateAptosV301PayloadNotSignedWithQuorum (sentEvent : LzSentEvent) (verifierAddress : String) :
    Exec AppCoreError (Option UInt64) :=
  validateWithQuorum (aptosV301Panel crates contracts providers sentEvent verifierAddress)
    (fun query provider => observeAptosV301PayloadSigned crates provider query) provider
    "payload-signed validation for chain aptos"
    fun validity => payloadSignedValidationResult messageIdJson validity sentEvent "aptos"

/-- V301 is validated on Aptos alone: on ULN301, or on ULN302 for a pathway of the second endpoint. -/
def validateMovePayloadNotSignedWithQuorum (sentEvent : LzSentEvent) (verifierAddress dstChainName : String)
    (effectiveReceiveVersion : Option String) : Exec AppCoreError (Option UInt64) := do
  let ulnVersion ← okOrInternal (effectiveReceiveVersion.or (ulnVersionValue sentEvent.lzMessageId))
    "ulnSendVersion must be a string"
  if ulnVersion = "V301" ∧ dstChainName = "aptos" then
    let dstEid ← orErr (pathwayExtraU64 sentEvent "dstEid")
    if dstEid < 30000 then
      validateAptosV301PayloadNotSignedWithQuorum crates contracts providers provider messageIdJson sentEvent
        verifierAddress
    else
      validateMoveUln302PayloadNotSignedWithQuorum crates contracts providers provider messageIdJson sentEvent
        verifierAddress dstChainName
  else if ulnVersion ≠ "V302" then
    Exec.err (.badRequest ("Unsupported " ++ dstChainName ++ " payload-signed validation for " ++ ulnVersion))
  else
    validateMoveUln302PayloadNotSignedWithQuorum crates contracts providers provider messageIdJson sentEvent
      verifierAddress dstChainName

end

end Pillar.MovePayload
