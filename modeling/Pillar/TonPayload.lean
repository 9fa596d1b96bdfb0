/-
The payload-signed check on TON (`pillar-runtime`,
`layerzero_runtime/validation_payload_ton.rs`): the storage of two contracts and
a view of one, each from a provider.

A vote names the storage it is on by a hash, so what a vote says is known as far
as no two storages told have one hash.
-/
import Pillar.PayloadVote
import Pillar.TonAttestation
import Pillar.TonDvnVerify
import Pillar.TonStorage

namespace Pillar.TonPayload

open EvmPayload (orErr)
open Fields PayloadSigned Text Ton
open PacketSent (LzSentEvent)
open Ton.Storage (TonStorageRead tonStorageCell)

/-- Besides what a payload is built with: what a parser has left, SHA-256, and how
many of a cell's cells are kept apart from each other. -/
structure Crates extends DvnVerifyCrates where
  dataBitsLeft : T.Parser → Except String Nat
  refsLeft : T.Parser → Nat
  sha256 : List UInt8 → Vector UInt8 32
  keptApart : TonCell → Nat

/-! ## One provider -/

structure TonPayloadQuery where
  ulnAddress : String
  ulnConnectionAddress : String
  packetBocBase64 : String
  packetHashBe : Vector UInt8 32
  nonce : UInt64
  verifierBe : Vector UInt8 32

inductive TonRequest where
  | getAddressInformation (address : String)
  | committableView (address : String) (nonce : UInt64) (packet defaultReceiveConfig : String)
  deriving DecidableEq

abbrev Provider := Oracle TonRequest fun _ => Except RpcError Json

abbrev Observe (α : Type) := Asking TonRequest (fun _ => Except RpcError Json) RpcError α

/-- A read that does not panic, as its caller has it. -/
def settled {α : Type} : Exec RpcError α → Except RpcError α
  | .ok a => .ok a
  | .error (.err e) => .error e
  | .error _ => .error .unavailable

/-- `MAX_DEFAULT_RECEIVE_CONFIG_CELLS`. -/
def maxDefaultReceiveConfigCells : Nat := 2048

section
variable (crates : Crates)

def serializeDefaultReceiveConfig (config : TonCell) : Exec AppCoreError String :=
  if maxDefaultReceiveConfigCells < crates.keptApart config then
    Exec.err (.internal s!"TON default receive config exceeds {maxDefaultReceiveConfigCells} cells")
  else bocToBase64 crates.toDvnVerifyCrates config

/-- The storage of both contracts, as it was told. -/
structure Storages where
  connection : String
  connectionCell : TonCell
  uln : String
  ulnCell : TonCell

/-- The texts in the order they are hashed, the first with its length. -/
def storagePreimage (connection uln : String) : List UInt8 :=
  Bits.bytesOf 8 connection.utf8ByteSize ++ connection.toUTF8.data.toList ++ uln.toUTF8.data.toList

def storageFingerprint (connection uln : String) : String :=
  String.ofList (Hex.encodeChars (crates.sha256 (storagePreimage connection uln)).toList)

/-- What is read off the storage alone: the default config, the confirmations that
are required, and the config as the view takes it. -/
def receiveConfigs (connection uln : TonCell) : Exec AppCoreError (TonCell × UInt64 × String) := do
  let default ← ulnDefaultReceiveConfig crates.T uln
  let required ← requiredReceiveConfirmations crates.T connection default
  let boc ← serializeDefaultReceiveConfig crates default
  return (default, required, boc)

/-- The state at the end of the stack that a view returns. -/
def viewState (response : Json) : Option UInt64 := do
  let result ← response.get "result"
  if ((result.get "exit_code").bind Json.asI64).any (· ≠ 0) then .none
  let entry ← (((result.get "stack").bind Json.asArray).bind List.getLast?).bind Json.asArray
  let value ← entry[1]?.bind Json.asStr
  let number ← match stripPrefix "0x" (trim value) with
    | .some hexValue => (fromStrRadix 16 64 hexValue).toOption
    | .none => (parse 64 (trim value)).toOption
  return .ofNat number

/-- Signed by the contract's state, or by a DVN that has nothing left to attest. -/
def validityOf (state : UInt64) (attestation : DvnAttestation) (required : UInt64) : PayloadSignedValidity :=
  if committableViewIsSigned state ∨ attestation = .matches ∨ attestation = .notInReceiveConfig then .signed
  else .notSigned (.some required)

def activeKey (fingerprint : String) (state : UInt64) (attestation : DvnAttestation) : String :=
  joined ["active", fingerprint, decimal state, attestation.debug]

def undecodable (fingerprint : String) : String × PayloadSignedValidity := (joined ["undecodable", fingerprint], .missing)

def inactive : String × PayloadSignedValidity := ("0", .missing)

variable (provider : Provider)

def readStorage (address : String) : Observe TonStorageRead := do
  let response ← Asking.ask provider (.getAddressInformation address)
  Asking.lift (settled (tonStorageCell crates.base64 crates.parseBoc response))

def observeTonCommittableView (query : TonPayloadQuery) (defaultReceiveConfig : String) : Observe UInt64 := do
  let answer ← Asking.ask provider
    (.committableView query.ulnConnectionAddress query.nonce query.packetBocBase64 defaultReceiveConfig)
  let response ← Asking.lift answer
  okOrUnavailable (viewState response)

/-- Both storages, unless one of the contracts is not active. -/
def readStorages (query : TonPayloadQuery) : Observe (Option Storages) := do
  match ← readStorage crates provider query.ulnConnectionAddress with
  | .unavailable => Asking.throw .unavailable
  | .inactive => return .none
  | .cell connection connectionCell =>
    match ← readStorage crates provider query.ulnAddress with
    | .unavailable => Asking.throw .unavailable
    | .inactive => return .none
    | .cell uln ulnCell => return .some { connection, connectionCell, uln, ulnCell }

/-- A storage that is not read is voted on by its hash. -/
def observeTonPayloadSigned (query : TonPayloadQuery) (provider : Provider) : Observe (String × PayloadSignedValidity) := do
  match ← readStorages crates provider query with
  | .none => return inactive
  | .some storages =>
    let fingerprint := storageFingerprint crates storages.connection storages.uln
    match (receiveConfigs crates storages.connectionCell storages.ulnCell).toOption with
    | .none => return undecodable fingerprint
    | .some (default, required, boc) =>
      let state ← observeTonCommittableView provider query boc
      match (dvnAttestation crates.T crates.dataBitsLeft crates.refsLeft storages.connectionCell default query.nonce
          query.verifierBe query.packetHashBe).toOption with
      | .none => return undecodable fingerprint
      | .some attestation => return (activeKey fingerprint state attestation, validityOf state attestation required)

end

/-! ## The check -/

/-- `DEPRECATED_ULN_OAPPS`. -/
def deprecatedUlnOapps : List String :=
  ["0x4b2266a1a27489d16379cba37887f3c6c6c6d1bcf6a8fba4565f1d217cfec668",
    "0x170725394aa56136fbd27d0ce31d8a98e0f8ae72a4d2379b5dde83e211a2d5fa",
    "0x90d9ff1c7814705fcc74f8b7598476d65f3b9536fc132729b0606f0be82e617f",
    "0x23a676145f8dee3632f722aac50392f22cf0b4be8f624e038279a6f5005fb669",
    "0x0f87d442a6b820e642ae9ad262f2e07b9c529cb4f070b9152ef362604c69b392",
    "0x9bbbaa9b874e40b94b3005062c393379cda58711b0a9873131cebb17a4f10f6b"]

def usesDeprecatedUln (receiver : String) : Bool := deprecatedUlnOapps.contains receiver

structure RuntimeTonLayerZeroConfig where
  ulnManagerAddress : String
  code : TonContractCodeCells
  deprecatedUlnManagerAddress : String
  deprecatedCode : TonContractCodeCells

/-- The ULN that a receiver is on. -/
def RuntimeTonLayerZeroConfig.ulnOf (config : RuntimeTonLayerZeroConfig) (receiver : String) :
    String × TonContractCodeCells :=
  if usesDeprecatedUln receiver then (config.deprecatedUlnManagerAddress, config.deprecatedCode)
  else (config.ulnManagerAddress, config.code)

section
variable (crates : Crates) (providers : Providers) (tonPayloadConfig : Option RuntimeTonLayerZeroConfig)
  (provider : Nat → Provider) (messageIdJson : PacketSent.LzMessageId → String)

/-- The part of a request to TON that an event says. -/
def tonPayloadSignedRequest (config : RuntimeTonLayerZeroConfig) (sentEvent : LzSentEvent) :
    Except AppCoreError TonPayloadSignedRequest := do
  let srcEid ← pathwayExtraU32 sentEvent "srcEid"
  let dstEid ← pathwayExtraU32 sentEvent "dstEid"
  let sender ← pathwayExtraStringValue sentEvent "sender"
  let receiver ← pathwayExtraStringValue sentEvent "receiver"
  let guid ← extraString sentEvent "guid"
  let (ulnManagerAddress, code) := config.ulnOf receiver
  .ok {
    pathway := { srcEid, dstEid, sender, receiver, ulnManagerAddress }
    guid
    nonce := sentEvent.lzMessageId.nonce
    message := sentEvent.message
    code }

def tonPayloadTargets (sentEvent : LzSentEvent) (dstChainName : String) : Exec AppCoreError TonPayloadSignedTargets := do
  let config ← okOrInternal tonPayloadConfig ("No TON LayerZero contracts configured for " ++ dstChainName)
  let request ← orErr (tonPayloadSignedRequest config sentEvent)
  tonPayloadSignedTargets crates.toDvnVerifyCrates request

def tonPanel (sentEvent : LzSentEvent) (verifierAddress dstChainName : String) :
    Exec AppCoreError (Panel TonPayloadQuery) := do
  let targets ← tonPayloadTargets crates tonPayloadConfig sentEvent dstChainName
  let config ← orErr (providers.providerConfig dstChainName)
  if config.voters.isEmpty then Exec.err (.internal ("No provider URI for chain " ++ dstChainName))
  else
    let verifierBe ← addressToBe32 crates.toDvnVerifyCrates verifierAddress
    orErr (providers.requiredProviderQuorum dstChainName)
    let order ← orErr (providers.planDispatch dstChainName)
    .ok ⟨⟨targets.ulnAddress, targets.ulnConnectionAddress, targets.packetBocBase64, targets.packetHashBe,
      sentEvent.lzMessageId.nonce, verifierBe⟩, config, order⟩

def validateTonPayloadNotSignedWithQuorum (sentEvent : LzSentEvent) (verifierAddress dstChainName : String) :
    Exec AppCoreError (Option UInt64) :=
  validateWithQuorum (tonPanel crates providers tonPayloadConfig sentEvent verifierAddress dstChainName)
    (observeTonPayloadSigned crates) provider ("payload-signed validation for chain " ++ dstChainName)
    fun validity => payloadSignedValidationResult messageIdJson validity sentEvent dstChainName

end

end Pillar.TonPayload
