/-
What a TON DVN signs (`pillar-layerzero`, `other_non_evm/ton`: `address.rs`,
`builders.rs`, `payload.rs` and the targets of `payload_signed.rs`).

The ULN's contracts have the addresses of their code and initial storage; the
DVN's message names them, the packet by its hash, and the confirmations.
-/
import Pillar.Base64
import Pillar.Boc
import Pillar.BocDepth
import Pillar.ClDeclareFacts
import Pillar.EvmPayload
import Pillar.HexCells

namespace Pillar.Ton

open EvmPayload (trimHex)
open Hex Text

/-! ## The crates -/

/-- An address of a workchain, by its account id. -/
structure TonAddress where
  workchain : Int
  hash : Vector UInt8 32

/-- What cells, addresses and numbers are to the crates: `hash` is
`TonCell::hash`, `parseBoc` what `BoC::from_bytes` makes of a bag,
`parseAddress` the account id of a `TonAddress`, `toString` its friendly form,
and `parseHexNumber` is `BigUint::parse_bytes(.., 16)`. -/
structure DvnVerifyCrates where
  T : TonCore
  writeBitsWithOffset : BitWriter T
  hex : HexCrate
  base64 : Base64.Engine
  hash : TonCell → Except String (Vector UInt8 32)
  crc32c : List UInt8 → UInt32
  parseBoc : List UInt8 → Exec AppCoreError TonCell
  parseAddress : String → Except String (Vector UInt8 32)
  toString : TonAddress → String
  parseHexNumber : String → Option Nat

variable (crates : DvnVerifyCrates)

def maxMessageCells : Nat := 2 ^ 13

def bocFromBytes (bytes : List UInt8) : Exec AppCoreError TonCell :=
  bocFromBytesWithLimits crates.parseBoc bytes maxMessageCells true

def bocFromHex (text : String) : Exec AppCoreError TonCell := do
  let bytes ← mapErr (crates.hex.decode (trimHex text))
  bocFromBytes crates bytes

def bocToHex (cell : TonCell) : Exec AppCoreError String := do
  return crates.hex.encode (← serializeBoc crates.T crates.hash crates.crc32c cell)

def bocToBase64 (cell : TonCell) : Exec AppCoreError String := do
  return crates.base64.encode (← serializeBoc crates.T crates.hash crates.crc32c cell)

def reprHashHex (cell : TonCell) : Exec AppCoreError String := do
  return crates.hex.encode (← mapErr (crates.hash cell)).toList

theorem rightAligned_size {bytes : List UInt8} (h : bytes.length ≤ 32) :
    (List.replicate (32 - bytes.length) 0 ++ bytes).toArray.size = 32 := by
  rw [List.size_toArray, List.length_append, List.length_replicate]
  omega

/-- Right-aligned in 32 bytes. -/
def rightAligned (bytes : List UInt8) : Option (Vector UInt8 32) :=
  if h : bytes.length ≤ 32 then .some ⟨(List.replicate (32 - bytes.length) 0 ++ bytes).toArray, rightAligned_size h⟩
  else .none

def hexToBe32 (text : String) : Exec AppCoreError (Vector UInt8 32) :=
  match crates.hex.decode (trimHex text) with
  | .error e => Exec.err (.internal ("TON hex32 decode " ++ text ++ ": " ++ e))
  | .ok bytes =>
    match rightAligned bytes with
    | .none => Exec.err (.internal ("value exceeds 32 bytes: " ++ text))
    | .some be => .ok be

/-! ## Addresses -/

/-- `TonContractCodeCells`. -/
structure TonContractCodeCells where
  uln : String
  ulnConnection : String

/-- The number that an address says, in hexadecimal or as an account id. -/
def addressNumber (value : String) : Exec AppCoreError Nat :=
  match stripPrefix "0x" (trim value) with
  | .some hexPart =>
    match crates.parseHexNumber hexPart with
    | .some number => .ok number
    | .none => Exec.err (.internal ("invalid hex address: " ++ value))
  | .none =>
    match crates.parseAddress (trim value) with
    | .ok hash => .ok (Bits.ofBytes hash.toList)
    | .error e => Exec.err (.internal ("invalid TON address " ++ value ++ ": " ++ e))

def addressToBe32 (value : String) : Exec AppCoreError (Vector UInt8 32) := do
  let number ← addressNumber crates value
  match rightAligned (Bits.toBytesBe number) with
  | .none => Exec.err (.internal ("address exceeds 256 bits: " ++ value))
  | .some be => .ok be

section

variable (T : TonCore)

def emptyTonCell : Exec AppCoreError TonCell := mapErr (T.build T.builder)

def uint256Be (value : Vector UInt8 32) : ClField := .num tUint256 (Bits.ofBytes value.toList)

/-- `initBaseStorage(owner)`. -/
def buildBaseStorage (owner : Vector UInt8 32) : Exec AppCoreError TonCell := do
  let initialStorage ← emptyTonCell T
  clDeclare T "baseStore" [uint256Be owner, .num 0 0, .num 0 0, .ref initialStorage]

def buildUlnReceiveConfigDefault : Exec AppCoreError TonCell := do
  let required ← emptyTonCell T
  let optional ← emptyTonCell T
  clDeclare T "UlnRecvCfg" [.num 0 1, .num tUint32 0, .num 0 1, .num tUint64 0, .num 0 1, .ref required, .num 0 1,
    .ref optional, .num 3 0]

def buildUlnSendConfigDefault : Exec AppCoreError TonCell := do
  let required ← emptyTonCell T
  let optional ← emptyTonCell T
  clDeclare T "UlnSendCfg" [.num tUint32 0, .num tUint32 0, .num 0 1, .num tUint256 0, .num 0 1, .ref required,
    .num 0 1, .ref optional, .num 0 1, .num tUint64 0]

def buildUlnData (ulnManager : Vector UInt8 32) (srcEid dstEid : UInt32) : Exec AppCoreError TonCell := do
  let baseStorage ← buildBaseStorage T ulnManager
  let receive ← buildUlnReceiveConfigDefault T
  let send ← buildUlnSendConfigDefault T
  let connectionCode ← emptyTonCell T
  let workerFeelibInfos ← emptyTonCell T
  clDeclare T "uln" [.ref baseStorage, .num tUint32 srcEid.toNat, .num tUint32 dstEid.toNat, .ref receive, .ref send,
    .ref connectionCode, .ref workerFeelibInfos, .num 4 0, .num 4 0, .num 4 0]

def buildUlnConnectionData (ulnManager : Vector UInt8 32) (srcEid : UInt32) (srcOapp : Vector UInt8 32)
    (dstEid : UInt32) (dstOapp uln : Vector UInt8 32) : Exec AppCoreError TonCell := do
  let path ← buildLzPath T srcEid srcOapp dstEid dstOapp
  let baseStorage ← buildBaseStorage T ulnManager
  let send ← buildUlnSendConfigDefault T
  let receive ← buildUlnReceiveConfigDefault T
  let hashLookups ← emptyTonCell T
  let commitPooo ← emptyTonCell T
  clDeclare T "connection" [.ref baseStorage, .ref path, .num tUint256 0, .num tUint256 0, .num tUint64 1,
    uint256Be uln, .ref send, .ref receive, .ref hashLookups, .ref commitPooo]

/-- The cell that `state_init_address` hashes. -/
def stateInit (code data : TonCell) : Exec AppCoreError TonCell := do
  let b ← mapErr (T.writeBit T.builder false)
  let b ← mapErr (T.writeBit b false)
  let b ← mapErr (T.writeBit b true)
  let b ← mapErr (T.writeRef b code)
  let b ← mapErr (T.writeBit b true)
  let b ← mapErr (T.writeRef b data)
  let b ← mapErr (T.writeBit b false)
  mapErr (T.build b)

end

/-- `state_init_address(0, ..)` of a state init. -/
def addressOf (stateInit : TonCell) : Exec AppCoreError TonAddress := do
  return ⟨0, ← mapErr (crates.hash stateInit)⟩

structure TonPathway where
  srcEid : UInt32
  dstEid : UInt32
  sender : String
  receiver : String
  ulnManagerAddress : String

/-- The derived addresses, with the state inits they are hashes of. -/
structure DerivedAddresses where
  ulnInit : TonCell
  uln : TonAddress
  ulnConnectionInit : TonCell
  ulnConnection : TonAddress

/-- The contract's own path starts at the TON endpoint. -/
def deriveUlnAddresses (pathway : TonPathway) (code : TonContractCodeCells) : Exec AppCoreError DerivedAddresses := do
  let ulnManager ← addressToBe32 crates pathway.ulnManagerAddress
  let sender ← addressToBe32 crates pathway.sender
  let receiver ← addressToBe32 crates pathway.receiver
  let ulnCode ← bocFromHex crates code.uln
  let ulnConnectionCode ← bocFromHex crates code.ulnConnection
  let ulnData ← buildUlnData crates.T ulnManager pathway.dstEid pathway.srcEid
  let ulnInit ← stateInit crates.T ulnCode ulnData
  let uln ← addressOf crates ulnInit
  let connectionData ← buildUlnConnectionData crates.T ulnManager pathway.dstEid receiver pathway.srcEid sender uln.hash
  let ulnConnectionInit ← stateInit crates.T ulnConnectionCode connectionData
  let ulnConnection ← addressOf crates ulnConnectionInit
  return { ulnInit, uln, ulnConnectionInit, ulnConnection }

/-! ## The call -/

/-- `OP_ULN_VERIFY`. -/
def opUlnVerify : Nat := 2571808590

/-- `u64::try_from`. -/
def requireNonneg (value : Int) (field : String) : Exec AppCoreError Nat :=
  if value < 0 then
    Exec.err (.internal ("TON " ++ field ++ " must be non-negative, got " ++ ToString.toString value))
  else .ok value.toNat

section

variable (T : TonCore)

def buildAttestation (hash : Vector UInt8 32) (confirmations : Int) : Exec AppCoreError TonCell := do
  let confirmations ← requireNonneg confirmations "confirmations"
  clDeclare T "Attest" [uint256Be hash, .num tUint64 confirmations]

def buildUlnVerification (nonce : UInt64) (attestation : TonCell) : Exec AppCoreError TonCell :=
  clDeclare T "UlnVerify" [.num tUint64 nonce.toNat, .ref attestation]

def buildMdAddress (md : TonCell) (address : Vector UInt8 32) : Exec AppCoreError TonCell :=
  clDeclare T "MdAddr" [.ref md, uint256Be address]

def buildUlnCallData (ulnConnection : Vector UInt8 32) (nonce : UInt64) (blockConfirmation : Int)
    (packetHash : Vector UInt8 32) : Exec AppCoreError TonCell := do
  let attestation ← buildAttestation T packetHash blockConfirmation
  let ulnVerification ← buildUlnVerification T nonce attestation
  buildMdAddress T ulnVerification ulnConnection

def buildExecuteParams (target : Vector UInt8 32) (callData : TonCell) (expiration : Int) (opcode : Nat)
    (forwardingAddress : Vector UInt8 32) : Exec AppCoreError TonCell := do
  let expiration ← requireNonneg expiration "expiration"
  clDeclare T "execParams" [uint256Be target, .ref callData, .num tUint64 expiration, .num tUint32 opcode,
    uint256Be forwardingAddress]

end

/-- The `lz::Packet` of a pathway, which is not swapped, with its message. -/
def packetCell (pathway : TonPathway) (guid : String) (nonce : UInt64) (message : String) :
    Exec AppCoreError TonCell := do
  let sender ← addressToBe32 crates pathway.sender
  let receiver ← addressToBe32 crates pathway.receiver
  let path ← buildLzPath crates.T pathway.srcEid sender pathway.dstEid receiver
  let guid ← hexToBe32 crates guid
  buildLzPacket crates.T crates.writeBitsWithOffset crates.hex path message nonce guid

structure TonDvnVerifyRequest where
  pathway : TonPathway
  guid : String
  nonce : UInt64
  message : String
  blockConfirmation : Int
  expiration : Int
  target : String
  code : TonContractCodeCells

structure TonDvnVerifyOutput where
  hashCallData : String
  dvnCallDataBoc : String
  ulnCallDataBoc : String
  targetContract : String
  packetHash : String

/-- What `build_ton_dvn_verify` holds before it returns. -/
structure TonDvnVerify where
  derived : DerivedAddresses
  packet : TonCell
  packetHash : String
  ulnCallDataBoc : String
  dvnCallData : TonCell

def assembleTonDvnVerify (req : TonDvnVerifyRequest) : Exec AppCoreError TonDvnVerify := do
  let derived ← deriveUlnAddresses crates req.pathway req.code
  let packet ← packetCell crates req.pathway req.guid req.nonce req.message
  let packetHash ← reprHashHex crates packet
  let packetHashBe ← hexToBe32 crates packetHash
  let ulnCallData ← buildUlnCallData crates.T derived.ulnConnection.hash req.nonce req.blockConfirmation packetHashBe
  let ulnCallDataBoc ← bocToHex crates ulnCallData
  let target ← addressToBe32 crates req.target
  let dvnCallData ← buildExecuteParams crates.T target ulnCallData req.expiration opUlnVerify derived.uln.hash
  return { derived, packet, packetHash, ulnCallDataBoc, dvnCallData }

def buildTonDvnVerify (req : TonDvnVerifyRequest) : Exec AppCoreError TonDvnVerifyOutput := do
  let built ← assembleTonDvnVerify crates req
  let hash ← reprHashHex crates built.dvnCallData
  let dvnCallDataBoc ← bocToHex crates built.dvnCallData
  return {
    hashCallData := "0x" ++ hash
    dvnCallDataBoc
    ulnCallDataBoc := built.ulnCallDataBoc
    targetContract := "0x" ++ crates.hex.encode built.derived.uln.hash.toList
    packetHash := built.packetHash }

/-! ## What a check looks up -/

structure TonPayloadSignedRequest where
  pathway : TonPathway
  guid : String
  nonce : UInt64
  message : String
  code : TonContractCodeCells

structure TonPayloadSignedTargets where
  ulnAddress : String
  ulnConnectionAddress : String
  packetBocBase64 : String
  packetHashBe : Vector UInt8 32

def tonPayloadSignedTargets (request : TonPayloadSignedRequest) : Exec AppCoreError TonPayloadSignedTargets := do
  let derived ← deriveUlnAddresses crates request.pathway request.code
  let packet ← packetCell crates request.pathway request.guid request.nonce request.message
  let packetBocBase64 ← bocToBase64 crates packet
  let packetHashBe ← hexToBe32 crates (← reprHashHex crates packet)
  return {
    ulnAddress := crates.toString derived.uln
    ulnConnectionAddress := crates.toString derived.ulnConnection
    packetBocBase64
    packetHashBe }

end Pillar.Ton
