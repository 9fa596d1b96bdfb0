/-
The payload-signed check on EVM destinations (`pillar-runtime`,
`provider_health/evm_payload_observations.rs`; `pillar-layerzero`, `evm.rs` and
`abi.rs`): what one provider observes, the vote of the providers, and the
contract the DVN calldata is built for.

A call is its question: the contract and what it is asked. The calldata is
left out, and a provider may answer anything, or fail, building it included.
-/
import Pillar.AbiFacts
import Pillar.PayloadSigned
import Pillar.QuorumFacts

namespace Pillar

/-- The result of a call that returns. -/
def Exec.result {ε α : Type} : (x : Exec ε α) → x.Returns → Except ε α
  | .ok a, _ => .ok a
  | .error (.err e), _ => .error e
  | .error .panic, h => absurd rfl h.1
  | .error .fuel, h => absurd rfl h.2

theorem Exec.result_eq_ok {ε α : Type} {x : Exec ε α} {h : x.Returns} {a : α} : x.result h = .ok a ↔ x = .ok a := by
  cases x with
  | ok b => simp [Exec.result]
  | error e =>
    cases e with
    | err e => simp [Exec.result]
    | panic => exact absurd rfl h.1
    | fuel => exact absurd rfl h.2

end Pillar

namespace Pillar.EvmPayload

open PacketSent (LzSentEvent trimHexPrefixes)
open Packet Text Hex Abi Fields PayloadSigned

/-! ## Results of a call -/

section

variable (hex : HexCrate)

def decodeHex (value : String) : Except AppCoreError (List UInt8) :=
  (decodeHexBytes hex value).result (returns_decodeHexBytes value)

def abiWord (data : List UInt8) (index : Nat) : Except AppCoreError (List UInt8) :=
  if index * 32 + 32 > data.length then .error (.internal "abi word out of range")
  else .ok ((data.drop (index * 32)).take 32)

def abiBool (data : List UInt8) (index : Nat) : Except AppCoreError Bool := do
  let word ← abiWord data index
  if (word.take 31).any (· ≠ 0) then .error (.internal "invalid abi bool")
  else
    match word.getLast? with
    | .some 0 => .ok false
    | .some 1 => .ok true
    | value => .error (.internal ("invalid abi bool value: " ++ toString (value.getD 0)))

def abiWordU64 (data : List UInt8) (index : Nat) : Except AppCoreError UInt64 := do
  let word ← abiWord data index
  if (word.take 24).any (· ≠ 0) then .error (.internal "abi uint64 overflow")
  else .ok (.ofNat (Bits.ofBytes (word.drop 24)))

def decodeEvmAddressResult (result : String) : Except AppCoreError String := do
  let bytes ← decodeHex hex result
  (abiAddress hex bytes 0 1).result (returns_abiAddress bytes 0 1)

def decodeEvmReceiveLibraryResult (result : String) : Except AppCoreError (String × Bool) := do
  let bytes ← decodeHex hex result
  let address ← (abiAddress hex bytes 0 2).result (returns_abiAddress bytes 0 2)
  let isDefault ← abiBool bytes 1
  .ok (address, isDefault)

def decodeEvmBoolResult (result : String) : Except AppCoreError Bool := do abiBool (← decodeHex hex result) 0

structure EvmHashLookupResult where
  submitted : Bool
  confirmations : UInt64

def decodeEvmHashLookupResult (result : String) : Except AppCoreError EvmHashLookupResult := do
  let bytes ← decodeHex hex result
  let submitted ← abiBool bytes 0
  let confirmations ← abiWordU64 bytes 1
  .ok ⟨submitted, confirmations⟩

def evmHashLookupIsConfirmed (inboundConfirmations : UInt64) (result : EvmHashLookupResult) : Bool :=
  result.submitted && inboundConfirmations ≤ result.confirmations

inductive EvmVerificationState where
  | verifying
  | verifiable
  | verified
  | notInitializable
  | verifiableButCapExceeded
  | reorged
  deriving Repr, DecidableEq

def EvmVerificationState.debug : EvmVerificationState → String
  | .verifying => "Verifying"
  | .verifiable => "Verifiable"
  | .verified => "Verified"
  | .notInitializable => "NotInitializable"
  | .verifiableButCapExceeded => "VerifiableButCapExceeded"
  | .reorged => "Reorged"

def decodeEvmVerificationState (ulnVersion result : String) : Except AppCoreError EvmVerificationState := do
  let bytes ← decodeHex hex result
  let state ← abiWordU64 bytes 0
  match state.toNat with
  | 0 => .ok .verifying
  | 1 => .ok .verifiable
  | 2 => .ok .verified
  | 3 => .ok .notInitializable
  | 4 => .ok (if ulnVersion = "ReadV1002" then .reorged else .verifiableButCapExceeded)
  | state => .error (.internal ("Unknown delivery state: " ++ toString state))

/-- A result of two words or more may start with the offset of a dynamic tuple. -/
def decodeEvmUlnConfigConfirmations (result : String) : Except AppCoreError UInt64 := do
  let bytes ← decodeHex hex result
  if 64 ≤ bytes.length then
    if (← abiWordU64 bytes 0) = 32 then abiWordU64 bytes 1 else abiWordU64 bytes 0
  else abiWordU64 bytes 0

/-- The pathway's receiver, as the `address` it denotes. -/
def evmAddressFromPathwayValue (value : String) : Except AppCoreError String := do
  let bytes ← decodeHex hex value
  if bytes.length = 20 then .ok (hexText hex bytes)
  else if bytes.length = 32 then
    if (bytes.take 12).any (· ≠ 0) then
      .error (.badRequest (value ++ " is not an EVM address: the leading 12 bytes are not zero"))
    else .ok (hexText hex (bytes.drop 12))
  else .error (.badRequest (value ++ " is not an EVM address: " ++ toString bytes.length ++ " bytes"))

end

/-! ## Contracts -/

structure EvmReceiveContracts where
  endpointV2 : String
  endpointV1 : Option String
  ulnV2 : String
  receiveUln301 : String
  receiveUln301View : String
  receiveUln302 : String
  receiveUln302View : String
  readLib1002 : Option String
  readLib1002View : Option String
  deriving Repr, DecidableEq

/-- `trim_start_matches("0x")`. -/
def trimHex (value : String) : String := String.ofList (trimHexPrefixes value.toList)

/-- A candidate that is configured, and names the address. -/
def addressMatches (address candidate : String) : Bool :=
  !candidate.isEmpty && eqIgnoreAsciiCase (trimHex candidate) (trimHex address)

def evmUlnVersionFromReceiveLibrary (contracts : EvmReceiveContracts) (address : String) : Option String :=
  if addressMatches address contracts.receiveUln302 then .some "V302"
  else if addressMatches address contracts.receiveUln301 then .some "V301"
  else if contracts.readLib1002.any (addressMatches address) then .some "ReadV1002"
  else .none

def evmReceiveVersionFromDstEid (dstEid : UInt64) (ulnSendVersion : String) : String :=
  if ulnSendVersion = "ReadV1002" then "ReadV1002" else if dstEid < 30000 then "V301" else "V302"

/-- The receive library of a version and its view. -/
def evmReceiveContractPair (contracts : EvmReceiveContracts) (receiveVersion : String) :
    Except AppCoreError (String × String) :=
  if receiveVersion = "V301" then
    if contracts.receiveUln301.isEmpty ∨ contracts.receiveUln301View.isEmpty then
      .error (.internal "Missing ReceiveUln301 contracts")
    else .ok (contracts.receiveUln301, contracts.receiveUln301View)
  else if receiveVersion = "V302" then .ok (contracts.receiveUln302, contracts.receiveUln302View)
  else if receiveVersion = "ReadV1002" then
    match contracts.readLib1002, contracts.readLib1002View with
    | .none, _ => .error (.internal "Missing ReadLib1002 receive contract")
    | .some _, .none => .error (.internal "Missing ReadLib1002View receive contract")
    | .some library, .some view => .ok (library, view)
  else .error (.internal ("Unsupported receive UlnVersion " ++ receiveVersion))

/-! ## One provider -/

structure EvmUlnQuery where
  contracts : EvmReceiveContracts
  oapp : String
  remoteEid : UInt32
  dstEid : UInt64
  proof : EvmUlnProof
  verifierAddress : Option String
  deriving Repr, DecidableEq

inductive EvmCall where
  | getReceiveLibraryAddress (receiver : String)
  | getReceiveLibrary (receiver : String) (srcEid : UInt32)
  | isValidReceiveLibrary (receiver : String) (srcEid : UInt32) (lib : String)
  | getReadLibConfig (oapp : String) (remoteEid : UInt32)
  | getUlnConfig (oapp : String) (remoteEid : UInt32)
  | hashLookup (proof : EvmUlnProof) (verifier : String)
  | verifiable (proof : EvmUlnProof)

/-- `eth_call`. -/
structure EthCall where
  contract : String
  call : EvmCall

abbrev Provider := Oracle EthCall fun _ => Except AppCoreError String

abbrev Observe (α : Type) := Asking EthCall (fun _ => Except AppCoreError String) AppCoreError α

variable (hex : HexCrate) (provider : Provider)

def ethCall (contract : String) (call : EvmCall) : Observe String := do
  Asking.lift (← Asking.ask provider ⟨contract, call⟩)

/-- What a provider says the receiver's receive library is; `.error` for one the endpoint rejects. -/
def resolveReceiveLibrary (query : EvmUlnQuery) : Observe (Except String String) := do
  if query.dstEid < 30000 then
    match query.contracts.endpointV1 with
    | .none => Asking.throw (.internal "No V1 Endpoint contract configured for the destination chain")
    | .some endpoint =>
      let result ← ethCall provider endpoint (.getReceiveLibraryAddress query.oapp)
      return .ok (← Asking.lift (decodeEvmAddressResult hex result))
  else
    let result ← ethCall provider query.contracts.endpointV2 (.getReceiveLibrary query.oapp query.remoteEid)
    let (address, isDefault) ← Asking.lift (decodeEvmReceiveLibraryResult hex result)
    if isDefault then return .ok address
    else
      let result ← ethCall provider query.contracts.endpointV2
        (.isValidReceiveLibrary query.oapp query.remoteEid address)
      let valid ← Asking.lift (decodeEvmBoolResult hex result)
      return if valid then .ok address else .error address

/-- What is read of the receive library of a version: the DVN's record, the
confirmations it needs, and the state of the packet. -/
structure Read where
  dvnConfirmed : Bool
  inboundConfirmations : UInt64
  verificationState : EvmVerificationState
  deriving Repr, DecidableEq

def inboundConfirmations (query : EvmUlnQuery) (receiveVersion receiveContract : String) : Observe UInt64 := do
  if receiveVersion = "ReadV1002" then
    let _ ← ethCall provider receiveContract (.getReadLibConfig query.oapp query.remoteEid)
    return 0
  else
    let result ← ethCall provider receiveContract (.getUlnConfig query.oapp query.remoteEid)
    Asking.lift (decodeEvmUlnConfigConfirmations hex result)

/-- A stale hash must not stop a replacement on ReadLib1002, and without a DVN address there is no record to look up. -/
def dvnConfirmed (query : EvmUlnQuery) (receiveVersion receiveContract : String) (inbound : UInt64) : Observe Bool := do
  match query.verifierAddress with
  | .none => return false
  | .some verifier =>
    if receiveVersion = "ReadV1002" then return false
    else
      let result ← ethCall provider receiveContract (.hashLookup query.proof verifier)
      let lookup ← Asking.lift (decodeEvmHashLookupResult hex result)
      return evmHashLookupIsConfirmed inbound lookup

def readLibrary (query : EvmUlnQuery) (receiveVersion : String) : Observe Read := do
  let (receiveContract, viewContract) ← Asking.lift (evmReceiveContractPair query.contracts receiveVersion)
  let inbound ← inboundConfirmations hex provider query receiveVersion receiveContract
  let confirmed ← dvnConfirmed hex provider query receiveVersion receiveContract inbound
  let result ← ethCall provider viewContract (.verifiable query.proof)
  let state ← Asking.lift (decodeEvmVerificationState hex receiveVersion result)
  return ⟨confirmed, inbound, state⟩

def Read.validity (read : Read) (receiveVersion : String) : PayloadSignedValidity :=
  if read.dvnConfirmed ∨ read.verificationState = .verified then .signed
  else .notSigned (if receiveVersion = "ReadV1002" then .none else .some read.inboundConfirmations)

def Read.key (read : Read) (receiveLibrary receiveVersion : String) : String :=
  joined [toAsciiLowercase receiveLibrary, receiveVersion, debugBool read.dvnConfirmed,
    decimal read.inboundConfirmations, read.verificationState.debug]

def unsupported (address : String) : String × PayloadSignedValidity :=
  (joined ["unsupported", toAsciiLowercase address], .unsupportedReceiveLibrary)

def observePayloadSigned (query : EvmUlnQuery) : Observe (String × PayloadSignedValidity) := do
  match ← resolveReceiveLibrary hex provider query with
  | .error address => return unsupported address
  | .ok receiveLibrary =>
    match evmUlnVersionFromReceiveLibrary query.contracts receiveLibrary with
    | .none => return unsupported receiveLibrary
    | .some receiveVersion =>
      let read ← readLibrary hex provider query receiveVersion
      return (read.key receiveLibrary receiveVersion, read.validity receiveVersion)

/-! ## The vote -/

/-- The chains whose check is not an EVM one. -/
def isChainNativePayloadSignedDestination (dstChainName : String) : Bool :=
  ["solana", "aptos", "initia", "movement", "starknet", "ton", "sui", "iotal1", "stellar",
  "canton"].contains dstChainName

/-- What the checks are given: the contracts of each chain, the providers of a
chain that are asked, by index and in the order in which they answer, and
`resolved_message_id_json`. The check of the other chains is `chainNative`. -/
structure Checks where
  crates : Crates
  evmReceiveContractsByChainName : String → Option EvmReceiveContracts
  dispatch : String → Except AppCoreError (Quorum.ProviderConfig × List Nat)
  provider : Nat → Provider
  messageIdJson : PacketSent.LzMessageId → String
  chainNative : LzSentEvent → String → String → Option String → Exec AppCoreError (Option UInt64)

/-- An error that is returned. -/
def orErr {α : Type} : Except AppCoreError α → Exec AppCoreError α
  | .ok a => .ok a
  | .error e => Exec.err e

def evmUlnQuery (crates : Crates) (sentEvent : LzSentEvent) (verifierAddress : Option String)
    (contracts : EvmReceiveContracts) : Exec AppCoreError EvmUlnQuery := do
  let dstEid ← orErr (pathwayExtraU64 sentEvent "dstEid")
  let remoteEid ← orErr (pathwayExtraU32 sentEvent "srcEid")
  let receiver ← orErr (pathwayExtraStringValue sentEvent "receiver")
  let oapp ← orErr (evmAddressFromPathwayValue crates.hex receiver)
  let packet ← orErr (packetFromEvent sentEvent)
  let proof ← computeLzPacketV1Proof crates packet
  .ok { contracts, oapp, remoteEid, dstEid, proof, verifierAddress }

namespace Checks

variable (checks : Checks)

/-- What provider `index` answers, as a vote. -/
def observation (query : EvmUlnQuery) (index : Nat) : Quorum.Observation PayloadSignedValidity :=
  providerResponse (orRpc (observePayloadSigned checks.crates.hex (checks.provider index) query []).1)

/-- An event without a guid has no packet to look up. -/
def validatePayloadNotSignedWithQuorum (sentEvent : LzSentEvent) (verifierAddress : Option String)
    (dstChainName : String) (effectiveReceiveVersion : Option String) : Exec AppCoreError (Option UInt64) :=
  if (sentEvent.extra.get "guid").isNone then .ok .none
  else if isChainNativePayloadSignedDestination dstChainName then
    match verifierAddress with
    | .none => .ok .none
    | .some verifier => checks.chainNative sentEvent verifier dstChainName effectiveReceiveVersion
  else do
    let (config, order) ← orErr (checks.dispatch dstChainName)
    match checks.evmReceiveContractsByChainName dstChainName with
    | .none => Exec.err (.internal ("No EVM LayerZero receive contracts for chain " ++ dstChainName))
    | .some contracts =>
      let query ← evmUlnQuery checks.crates sentEvent verifierAddress contracts
      let validity ← Quorum.resolveProviderQuorumForIndices (order.map fun i => (i, checks.observation query i))
        (List.range config.voters.length) config ("payload-signed validation for chain " ++ dstChainName)
      orErr (payloadSignedValidationResult checks.messageIdJson validity sentEvent dstChainName)

end Checks

/-! ## What is signed -/

structure HashCallDataResult where
  hashCallData : String
  details : Json

/-- `dvnCallData` of the details. -/
def dvnCallDataJson (targetContract ulnCallData : String) (expiration : UInt64) (vId : String) : Json :=
  .object [("expiration", .number (.posInt expiration)), ("targetContract", .string targetContract),
    ("ulnCallData", .string ulnCallData), ("vid", .string vId)]

def buildEvmDvnCallDataResult (crates : Crates) (targetContract ulnCallData : String) (expiration : UInt64)
    (vId : String) (details : Json) : Exec AppCoreError HashCallDataResult := do
  let dvnCallData ← packDvnCallData crates.hex targetContract ulnCallData expiration vId
  match details with
  | .object entries =>
    let packed := Json.object [("dvnCallData", .string (hexText crates.hex dvnCallData))]
    let entries := Json.insertEntry "dvnHashCallData" packed entries
    let entries := Json.insertEntry "dvnCallData" (dvnCallDataJson targetContract ulnCallData expiration vId) entries
    .ok ⟨keccak256Hex crates dvnCallData, .object entries⟩
  | _ => Exec.err (.internal "details must be an object")

def ulnSendVersionString (value : Json) : Except AppCoreError String :=
  match value.asStr with
  | .some version => .ok version
  | .none => .error (.internal "ulnSendVersion must be a string")

/-- The receive library the DVN is to call. -/
def targetContract (contracts : EvmReceiveContracts) (receiveVersion dstChainName : String) :
    Except AppCoreError String :=
  if receiveVersion = "V301" then
    if contracts.receiveUln301.isEmpty then .error (.internal ("No ReceiveUln301 contract for " ++ dstChainName))
    else .ok contracts.receiveUln301
  else if receiveVersion = "V302" then .ok contracts.receiveUln302
  else if receiveVersion = "ReadV1002" then
    match contracts.readLib1002 with
    | .some address => .ok address
    | .none => .error (.internal ("No ReadLib1002 receive contract for " ++ dstChainName))
  else .error (.internal "Unsupported UlnVersion")

structure EvmUlnPayloadBuilder where
  contractsByChainName : String → Option EvmReceiveContracts

def EvmUlnPayloadBuilder.buildDvnCallData (crates : Crates) (builder : EvmUlnPayloadBuilder) (sentEvent : LzSentEvent)
    (expiration : Int) (vId ulnCallData : String) (details : Json) : Exec AppCoreError HashCallDataResult :=
  if expiration < 0 then Exec.err (.internal "expiration must be non-negative")
  else
    let dstChainName := sentEvent.lzMessageId.pathwayId.dstChainName
    match builder.contractsByChainName dstChainName with
    | .none => Exec.err (.internal ("No EVM receive contracts for " ++ dstChainName))
    | .some contracts => do
      let dstEid ← orErr (pathwayExtraU64 sentEvent "dstEid")
      let ulnSendVersion ← orErr (ulnSendVersionString sentEvent.lzMessageId.ulnSendVersion)
      let target ← orErr (targetContract contracts (evmReceiveVersionFromDstEid dstEid ulnSendVersion) dstChainName)
      buildEvmDvnCallDataResult crates target ulnCallData (.ofNat expiration.toNat) vId details

end Pillar.EvmPayload
