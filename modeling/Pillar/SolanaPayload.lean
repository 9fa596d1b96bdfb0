/-
The payload-signed check on Solana (`pillar-layerzero`, `solana.rs`;
`pillar-runtime`, `layerzero_runtime/validation_payload_solana.rs`): seven
accounts in one answer, read at one slot.

Program addresses are hashes that are no points of the curve; `onCurve` is
whether `VerifyingKey::from_bytes` takes one.
-/
import Pillar.Base64
import Pillar.FixedFields
import Pillar.PayloadVote
import Pillar.SolanaVote

namespace Pillar.SolanaPayload

open Abi (Bytes beBytes decodeHexBytes decodeHex32 addressToBytes32)
open EvmPayload (orErr)
open FixedFields (bytesAt leNat length_bytesAt)
open PacketSent (LzSentEvent)
open PayloadSigned Text
open Solana (pointer)

structure Crates extends Packet.Crates where
  sha256 : List UInt8 → Bytes 32
  bs58Encode : List UInt8 → String
  onCurve : Bytes 32 → Bool
  base64 : Base64.Engine

/-! ## Addresses -/

section
variable (crates : Crates)

def solanaUlnProgramId : String := "7a4WjyR8VZ7yZz5XJAKm39BUGn5iT9CKcv2pmG9tdXVH"

def solanaEndpointProgramId : String := "76y77prsiCMvXMjuoZ5VRrhG5qYBrUMYTE5WgHqgjEn6"

def systemProgramId : String := "11111111111111111111111111111111"

def publicKeyBytes (value : String) : Except AppCoreError (Bytes 32) :=
  if ¬(32 ≤ value.utf8ByteSize ∧ value.utf8ByteSize ≤ 44) then
    .error (.badRequest "Invalid Solana public key length")
  else
    match crates.bs58 value with
    | .error error => .error (.badRequest ("Invalid Solana public key: " ++ error))
    | .ok bytes =>
      if bytes.length > 32 then
        .error (.badRequest ("Invalid Solana public key: " ++
          "buffer provided to decode base58 encoded string into was too small"))
      else if h : bytes.length = 32 then .ok ⟨bytes, h⟩
      else .error (.badRequest "Invalid Solana public key length")

/-- `b".."`. -/
def seed (text : String) : List UInt8 := text.toUTF8.toList

def programAddress (seeds : List (List UInt8)) (programId : Bytes 32) (bump : UInt8) : Bytes 32 :=
  crates.sha256 (seeds.flatten ++ [bump] ++ programId.val ++ seed "ProgramDerivedAddress")

/-- The address of the highest bump that is no point. -/
def findProgramAddress (seeds : List (List UInt8)) (programId : Bytes 32) : Except AppCoreError (Bytes 32) :=
  match ((List.range 256).reverse.map fun bump => programAddress crates seeds programId (.ofNat bump)).find?
    fun candidate => !crates.onCurve candidate with
  | .some address => .ok address
  | .none => .error (.internal "unable to find Solana program address")

structure SolanaPayloadSignedRequest where
  receiver : Bytes 32
  sender : Bytes 32
  srcEid : UInt32
  nonce : UInt64
  headerHash : Bytes 32
  payloadHash : Bytes 32
  dvn : Bytes 32

/-- A native address, or 32 bytes in hexadecimal. -/
def addressOrPublicKey (value : String) : Exec AppCoreError (Bytes 32) :=
  (addressToBytes32 crates.hex value).orElse (orErr (publicKeyBytes crates value))

def solanaPayloadSignedRequest (sentEvent : LzSentEvent) (dvnAddress : String) :
    Exec AppCoreError SolanaPayloadSignedRequest := do
  let receiverRaw ← orErr (pathwayExtraStringValue sentEvent "receiver")
  let receiver ← addressOrPublicKey crates receiverRaw
  let senderRaw ← orErr (pathwayExtraStringValue sentEvent "sender")
  let sender ← addressOrPublicKey crates senderRaw
  let srcEid ← orErr (pathwayExtraU64 sentEvent "srcEid")
  if srcEid.toNat ≥ 2 ^ 32 then Exec.err (.internal "srcEid exceeds u32")
  else
    let dvn ← orErr (publicKeyBytes crates dvnAddress)
    let proof ← computeLzPacketV1ProofFromEvent crates.toCrates sentEvent
    let packetHeader ← decodeHexBytes crates.hex proof.packetHeader
    let payloadHash ← decodeHex32 crates.hex proof.payloadHash
    .ok { receiver, sender, srcEid := srcEid.toUInt32, nonce := sentEvent.lzMessageId.nonce,
          headerHash := crates.keccak256 packetHeader, payloadHash, dvn }

/-- The accounts asked for, in order: both nonces, both receive configs, the
confirmations, and both library configs. -/
def solanaPayloadSignedAccounts (request : SolanaPayloadSignedRequest) : Except AppCoreError (List (Bytes 32)) := do
  let endpointProgramId ← publicKeyBytes crates solanaEndpointProgramId
  let ulnProgramId ← publicKeyBytes crates solanaUlnProgramId
  let srcEid := (beBytes 4 request.srcEid.toNat).val
  let noncePda ← findProgramAddress crates [seed "Nonce", request.receiver.val, srcEid, request.sender.val]
    endpointProgramId
  let pendingNoncePda ← findProgramAddress crates
    [seed "PendingNonce", request.receiver.val, srcEid, request.sender.val] endpointProgramId
  let receiveConfigPda ← findProgramAddress crates [seed "ReceiveConfig", srcEid, request.receiver.val] ulnProgramId
  let defaultReceiveConfigPda ← findProgramAddress crates [seed "ReceiveConfig", srcEid] ulnProgramId
  let confirmationsPda ← findProgramAddress crates
    [seed "Confirmations", request.headerHash.val, request.payloadHash.val, request.dvn.val] ulnProgramId
  let libraryConfigPda ← findProgramAddress crates [seed "ReceiveLibraryConfig", request.receiver.val, srcEid]
    endpointProgramId
  let defaultLibraryConfigPda ← findProgramAddress crates [seed "ReceiveLibraryConfig", srcEid] endpointProgramId
  .ok [noncePda, pendingNoncePda, receiveConfigPda, defaultReceiveConfigPda, confirmationsPda, libraryConfigPda,
    defaultLibraryConfigPda]

end

/-! ## Account data -/

def tooShort (field : String) : AppCoreError := .internal (field ++ ": account data too short")

def readU64Le (data : List UInt8) (offset : Nat) (field : String) : Except AppCoreError UInt64 :=
  match bytesAt data offset 8 with
  | .some bytes => .ok (.ofNat (leNat bytes))
  | .none => .error (tooShort field)

def readU32Le (data : List UInt8) (offset : Nat) (field : String) : Except AppCoreError UInt32 :=
  match bytesAt data offset 4 with
  | .some bytes => .ok (.ofNat (leNat bytes))
  | .none => .error (tooShort field)

def readPubkey (data : List UInt8) (offset : Nat) (field : String) : Except AppCoreError (Bytes 32) :=
  match h : bytesAt data offset 32 with
  | .some bytes => .ok ⟨bytes, length_bytesAt h⟩
  | .none => .error (tooShort field)

def nonceDiscriminator : List UInt8 := [143, 197, 147, 95, 106, 165, 50, 43]
def pendingInboundNonceDiscriminator : List UInt8 := [170, 176, 95, 240, 120, 231, 241, 218]
def receiveConfigDiscriminator : List UInt8 := [162, 159, 153, 188, 56, 65, 245, 58]
def confirmationsDiscriminator : List UInt8 := [206, 57, 50, 8, 124, 133, 138, 112]
def receiveLibraryConfigDiscriminator : List UInt8 := [142, 226, 251, 138, 1, 206, 91, 193]

def checkAccountDiscriminator (data expected : List UInt8) (accountName : String) : Except AppCoreError Unit :=
  match bytesAt data 0 8 with
  | .none => .error (.internal (accountName ++ " account data too short"))
  | .some actual =>
    if actual = expected then .ok () else .error (.internal (accountName ++ " account discriminator mismatch"))

/-- The inbound nonce: behind the discriminator, the bump and the outbound nonce. -/
def decodeSolanaNonceAccount (data : List UInt8) : Except AppCoreError UInt64 := do
  checkAccountDiscriminator data nonceDiscriminator "Nonce"
  readU64Le data 17 "Nonce.inboundNonce"

def decodeSolanaPendingInboundNonceAccount (data : List UInt8) : Except AppCoreError (List UInt64) := do
  checkAccountDiscriminator data pendingInboundNonceDiscriminator "PendingInboundNonce"
  let len ← readU32Le data 8 "PendingInboundNonce.nonces.len"
  (List.range len.toNat).mapM fun index => readU64Le data (12 + index * 8) "PendingInboundNonce.nonces[i]"

def decodeSolanaReceiveConfigAccount (data : List UInt8) : Except AppCoreError UInt64 := do
  checkAccountDiscriminator data receiveConfigDiscriminator "ReceiveConfig"
  readU64Le data 9 "ReceiveConfig.uln.confirmations"

def decodeSolanaConfirmationsAccount (data : List UInt8) : Except AppCoreError (Option UInt64) := do
  checkAccountDiscriminator data confirmationsDiscriminator "Confirmations"
  match (data[8]? : Option UInt8) with
  | .none => .error (.internal "Confirmations account data too short")
  | .some tag =>
    if tag = 0 then .ok .none
    else
      let value ← readU64Le data 9 "Confirmations.value"
      .ok (.some value)

structure SolanaReceiveLibraryConfig where
  messageLib : Bytes 32
  /-- The replaced library and the slot its grace period ends at. -/
  timeout : Option (Bytes 32 × UInt64)

def decodeSolanaReceiveLibraryConfig (data : List UInt8) : Except AppCoreError SolanaReceiveLibraryConfig := do
  checkAccountDiscriminator data receiveLibraryConfigDiscriminator "ReceiveLibraryConfig"
  let messageLib ← readPubkey data 8 "ReceiveLibraryConfig.message_lib"
  match (data[40]? : Option UInt8) with
  | .some 0 => .ok ⟨messageLib, .none⟩
  | .some 1 =>
    let replaced ← readPubkey data 41 "ReceiveLibraryConfig.timeout.message_lib"
    let expiry ← readU64Le data 73 "ReceiveLibraryConfig.timeout.expiry"
    .ok ⟨messageLib, .some (replaced, expiry)⟩
  | _ => .error (.internal "ReceiveLibraryConfig timeout tag is invalid")

/-! ## The verdict -/

/-- "Override to zero", where zero is "unset". -/
def nilConfirmations : UInt64 := .ofNat (2 ^ 64 - 1)

structure SolanaFetchedPayloadSignedAccounts where
  nonce : Option (List UInt8)
  pendingNonce : Option (List UInt8)
  receiveConfig : Option (List UInt8)
  defaultReceiveConfig : Option (List UInt8)
  confirmations : Option (List UInt8)

def orDefaultMissing (value : Option (List UInt8)) : Except AppCoreError (List UInt8) :=
  value.elim (.error (.internal "Default Solana ULN receive config not found")) .ok

/-- `Option::transpose` behind a `map`. -/
def decodeOptional {α : Type} (decode : List UInt8 → Except AppCoreError α) :
    Option (List UInt8) → Except AppCoreError (Option α)
  | .none => .ok .none
  | .some data => do
    let value ← decode data
    .ok (.some value)

/-- The threshold of `solana_payload_is_signed`. -/
def requiredConfirmations (default : UInt64) : Option UInt64 → UInt64
  | .none => default
  | .some custom => if custom = 0 then default else if custom = nilConfirmations then 0 else custom

def solanaPayloadIsSigned (nonce : UInt64) (accounts : SolanaFetchedPayloadSignedAccounts) :
    Except AppCoreError Bool := do
  let delivered ← decodeOptional decodeSolanaNonceAccount accounts.nonce
  if delivered.any (nonce ≤ ·) then return true
  let pending ← decodeOptional decodeSolanaPendingInboundNonceAccount accounts.pendingNonce
  if pending.any (·.contains nonce) then return true
  let defaultConfig ← orDefaultMissing accounts.defaultReceiveConfig
  let default ← decodeSolanaReceiveConfigAccount defaultConfig
  let custom ← decodeOptional decodeSolanaReceiveConfigAccount accounts.receiveConfig
  match accounts.confirmations with
  | .none => return false
  | .some data =>
    match ← decodeSolanaConfirmationsAccount data with
    | .none => return false
    | .some value => return value ≠ 0 ∧ requiredConfirmations default custom ≤ value

/-- What a "not signed" verdict shows. It reads the configs by itself, unchecked. -/
def solanaRequiredConfirmations (custom default : Option (List UInt8)) : Except AppCoreError UInt64 := do
  let confirmations := fun data : List UInt8 =>
    match bytesAt data 9 8 with
    | .some bytes => .ok (UInt64.ofNat (leNat bytes))
    | .none => .error (AppCoreError.internal "Solana receive config account data too short")
  let defaultConfig ← orDefaultMissing default
  let default ← confirmations defaultConfig
  let custom ← decodeOptional confirmations custom
  match custom with
  | .none => return default
  | .some required =>
    if required = 0 then return default
    else if required = nilConfirmations then return 0
    else return required

section
variable (crates : Crates)

/-- The endpoint's `is_valid_receive_library`, for the pinned ULN. -/
def solanaUlnIsValidReceiveLibrary (libraryConfig defaultLibraryConfig : Option (List UInt8)) (slot : UInt64) :
    Except AppCoreError Bool :=
  match libraryConfig, defaultLibraryConfig with
  | .some libraryConfig, .some defaultLibraryConfig => do
    let ulnProgramId ← publicKeyBytes crates solanaUlnProgramId
    let uln ← findProgramAddress crates [seed "MessageLib"] ulnProgramId
    let config ← decodeSolanaReceiveLibraryConfig libraryConfig
    let default ← decodeSolanaReceiveLibraryConfig defaultLibraryConfig
    let effective := if config.messageLib.val = List.replicate 32 0 then default else config
    return effective.messageLib = uln ∨ effective.timeout.any fun timeout => timeout.1 = uln ∧ slot < timeout.2
  | _, _ => .ok false

/-- `Value::as_bool`. -/
def asBool : Json → Option Bool
  | .bool b => .some b
  | _ => .none

def decodeSolanaAccountData (value : Json) (expectedOwner : String) : Except AppCoreError (Option (List UInt8)) :=
  if value.isNull then .ok .none
  else
    match (pointer ["data", "0"] value).bind Json.asStr with
    | .none => .error (.internal "Missing Solana account data")
    | .some encoded =>
      let owner := (value.get "owner").bind Json.asStr
      if (pointer ["data", "1"] value).bind Json.asStr ≠ .some "base64" ∨
          (value.get "executable").bind asBool ≠ .some false then
        .error (.internal "Invalid Solana account encoding or executable flag")
      else if encoded.isEmpty ∧ owner = .some systemProgramId then .ok .none
      else if owner ≠ .some expectedOwner then .error (.internal "Unexpected Solana account owner")
      else
        match crates.base64.decode encoded with
        | .ok data => .ok (.some data)
        | .error error => .error (.internal error)

/-- The nonces and the library configs belong to the endpoint. -/
def expectedOwner (index : Nat) : String :=
  if 2 ≤ index ∧ index < 5 then solanaUlnProgramId else solanaEndpointProgramId

/-- The seven accounts of an answer, and its slot. -/
structure Fetched where
  nonce : Option (List UInt8)
  pendingNonce : Option (List UInt8)
  receiveConfig : Option (List UInt8)
  defaultReceiveConfig : Option (List UInt8)
  confirmations : Option (List UInt8)
  libraryConfig : Option (List UInt8)
  defaultLibraryConfig : Option (List UInt8)
  slot : UInt64

def fetchedAccounts (response : Json) : Except AppCoreError Fetched :=
  match (pointer ["result", "value"] response).bind Json.asArray with
  | .none => .error (.internal "Missing getMultipleAccounts result")
  | .some values =>
    if values.length ≠ 7 then .error (.internal "Unexpected getMultipleAccounts result length")
    else
      match (pointer ["result", "context", "slot"] response).bind Json.asU64 with
      | .none => .error (.internal "Missing getMultipleAccounts context slot")
      | .some slot => do
        match ← values.zipIdx.mapM fun entry => decodeSolanaAccountData crates entry.1 (expectedOwner entry.2) with
        | [nonce, pendingNonce, receiveConfig, defaultReceiveConfig, confirmations, libraryConfig,
            defaultLibraryConfig] =>
          .ok ⟨nonce, pendingNonce, receiveConfig, defaultReceiveConfig, confirmations, libraryConfig,
            defaultLibraryConfig, slot⟩
        | _ => .error (.internal "Unexpected getMultipleAccounts result length")

def Fetched.accounts (fetched : Fetched) : SolanaFetchedPayloadSignedAccounts :=
  ⟨fetched.nonce, fetched.pendingNonce, fetched.receiveConfig, fetched.defaultReceiveConfig, fetched.confirmations⟩

def Fetched.validity (nonce : UInt64) (fetched : Fetched) : Except AppCoreError PayloadSignedValidity := do
  if ← solanaUlnIsValidReceiveLibrary crates fetched.libraryConfig fetched.defaultLibraryConfig fetched.slot then
    let required ← solanaRequiredConfirmations fetched.receiveConfig fetched.defaultReceiveConfig
    if ← solanaPayloadIsSigned nonce fetched.accounts then return .signed
    else return .notSigned (.some required)
  else return .unsupportedReceiveLibrary

/-! ## The check -/

/-- `getMultipleAccounts` of seven accounts, by their base58 addresses. -/
structure GetMultipleAccounts where
  pubkeys : List String

abbrev Provider := Oracle GetMultipleAccounts fun _ => Except RpcError Json

abbrev Observe (α : Type) := Asking GetMultipleAccounts (fun _ => Except RpcError Json) RpcError α

structure SolanaQuery where
  nonce : UInt64
  pubkeys : List String

/-- `map_err(AppCoreError::from)`, and back when the observation ends. -/
def readResponse (nonce : UInt64) (answer : Except RpcError Json) : Except AppCoreError PayloadSignedValidity := do
  let response ← answer.mapError RpcError.toAppCoreError
  let fetched ← fetchedAccounts crates response
  fetched.validity crates nonce

def observeSolanaPayloadSigned (provider : Provider) (query : SolanaQuery) :
    Observe (String × PayloadSignedValidity) := do
  let answer ← Asking.ask provider ⟨query.pubkeys⟩
  let validity ← Asking.lift (orRpc (readResponse crates query.nonce answer))
  return (validity.debug, validity)

variable (providers : Providers) (provider : Nat → Provider) (messageIdJson : PacketSent.LzMessageId → String)

def solanaPanel (sentEvent : LzSentEvent) (verifierAddress dstChainName : String) :
    Exec AppCoreError (Panel SolanaQuery) := do
  let (config, order) ← orErr (providers.dispatch dstChainName)
  let request ← solanaPayloadSignedRequest crates sentEvent verifierAddress
  let accounts ← orErr (solanaPayloadSignedAccounts crates request)
  .ok ⟨⟨request.nonce, accounts.map fun account => crates.bs58Encode account.val⟩, config, order⟩

def validateSolanaPayloadNotSignedWithQuorum (sentEvent : LzSentEvent) (verifierAddress dstChainName : String) :
    Exec AppCoreError (Option UInt64) :=
  validateWithQuorum (solanaPanel crates providers sentEvent verifierAddress dstChainName)
    (fun query provider => observeSolanaPayloadSigned crates provider query) provider
    ("payload-signed validation for chain " ++ dstChainName)
    fun validity => payloadSignedValidationResult messageIdJson validity sentEvent dstChainName

end

end Pillar.SolanaPayload
