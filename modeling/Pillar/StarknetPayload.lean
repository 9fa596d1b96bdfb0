/-
The payload-signed check on Starknet (`pillar-runtime`,
`layerzero_runtime/validation_payload.rs`): the DVN's record read from storage,
the requirement and the packet's state from the ULN's own views.

Felts are numbers; `pedersen` and `feltFromHex` are the field's, and no property
of theirs is used.
-/
import Pillar.CairoBytes
import Pillar.PayloadVote

namespace Pillar.StarknetPayload

open Abi (Bytes)
open Bits (ofBytes)
open EvmPayload (trimHex orErr)
open Hex (HexCrate)
open PacketSent (LzSentEvent)
open PayloadSigned Text

structure Crates extends Packet.Crates where
  pedersen : Nat → Nat → Nat
  feltFromHex : String → Option Nat

/-! ## Felts -/

/-- `format!("0x{:x}")`. -/
def feltText (n : Nat) : String := "0x" ++ String.ofList (Nat.toDigits 16 n)

def starknetFeltHex (bytes : List UInt8) : String := feltText (ofBytes bytes)

/-- `trim_start_matches('0')`. -/
def trimZeros (value : String) : String := String.ofList (value.toList.dropWhile (· = '0'))

def starknetFeltU64 (value : String) : Option UInt64 := do
  let digits := trimZeros (← stripPrefix "0x" value)
  if digits.isEmpty then .some 0 else (fromStrRadix 16 64 digits).toOption.map .ofNat

def normalizeStarknetFelt (value : String) : String :=
  let normalized := trimZeros (trimHex value)
  "0x" ++ if normalized.isEmpty then "0" else normalized

/-- `as_chunks::<31>()`, of as many whole words. -/
def asChunks : Nat → List UInt8 → List (List UInt8) × List UInt8
  | 0, bytes => ([], bytes)
  | n + 1, bytes =>
    let (words, pending) := asChunks n (bytes.drop 31)
    (bytes.take 31 :: words, pending)

/-- A Cairo `ByteArray` as call data. -/
def starknetByteArrayCalldata (bytes : List UInt8) : List String :=
  let (words, pending) := asChunks (bytes.length / 31) bytes
  feltText words.length :: (words.map starknetFeltHex ++ [starknetFeltHex pending, feltText pending.length])

def decodeBytes32 (hex : HexCrate) (value : String) : Option (Bytes 32) := do
  let decoded ← (hex.decode (trimHex value)).toOption
  if h : decoded.length = 32 then .some ⟨decoded, h⟩ else .none

def decodeBytes32OrLonger (hex : HexCrate) (value : String) : Option (List UInt8) := do
  let decoded ← (hex.decode (trimHex value)).toOption
  if decoded.length < 32 then .none else .some decoded

/-! ## The record's slot -/

section
variable (crates : Crates)

/-- `sn_keccak`: the lower 250 bits. -/
def starknetSelector (name : String) : String :=
  let hash := (crates.keccak256 name.toUTF8.toList).val
  normalizeStarknetFelt (crates.hex.encode (hash.modify 0 (· &&& 0x03)))

/-- `srcEid` and the receiver of a PacketV1 header. -/
def starknetHeaderReceivePath (header : List UInt8) : Option (UInt32 × String) :=
  if header.length ≠ 81 then .none
  else
    .some (.ofNat (ofBytes ((header.drop 9).take 4)), "0x" ++ crates.hex.encode ((header.drop 49).take 32))

/-- A `Bytes32` is hashed as its `u256`, the low half first. -/
def hashU256 (state : Nat) (hash : Bytes 32) : Nat :=
  crates.pedersen (crates.pedersen state (ofBytes (hash.val.drop 16))) (ofBytes (hash.val.take 16))

/-- `hash_lookup.entry(header_hash).entry(payload_hash).entry(dvn)`, in the range of storage addresses. -/
def starknetHashLookupSlot (headerHash payloadHash : Bytes 32) (dvn : String) : Option Nat := do
  let base ← crates.feltFromHex (starknetSelector crates "hash_lookup")
  let state := hashU256 crates (hashU256 crates base headerHash) payloadHash
  let dvn ← crates.feltFromHex (normalizeStarknetFelt dvn)
  return crates.pedersen state dvn % (2 ^ 251 - 256)

def starknetSlotOffset (slot offset : Nat) : String := feltText (slot + offset)

/-! ## The observation -/

inductive Question where
  | getStorageAt (contract key : String)
  | call (contract selector : String) (calldata : List String)
  deriving DecidableEq

abbrev Answer (_ : Question) : Type := Except RpcError Json

abbrev Provider := Oracle Question Answer

abbrev Observe (α : Type) := Asking Question Answer RpcError α

structure StarknetQuery where
  ulnAddress : String
  verifierAddress : String
  packetHeader : String
  payloadHash : String

/-- What is asked about: the header, the path it is received on, the payload's
hash, and where the DVN's record is. -/
structure StarknetPacket where
  header : List UInt8
  payloadHash : Bytes 32
  srcEid : UInt32
  receiver : String
  slot : Nat

def starknetPacket (query : StarknetQuery) : Option StarknetPacket := do
  let header ← decodeBytes32OrLonger crates.hex query.packetHeader
  let payloadHash ← decodeBytes32 crates.hex query.payloadHash
  let (srcEid, receiver) ← starknetHeaderReceivePath crates header
  let slot ← starknetHashLookupSlot crates (crates.keccak256 header) payloadHash query.verifierAddress
  return { header, payloadHash, srcEid, receiver, slot }

def verifiedState : UInt64 := 2

/-- A result that is one felt. -/
def resultFelt (response : Json) : Option UInt64 := ((response.get "result").bind Json.asStr).bind starknetFeltU64

/-- `verifiable` returns its state alone. -/
def resultState (response : Json) : Option UInt64 :=
  match (response.get "result").bind Json.asArray with
  | .some [state] => (state.asStr.bind starknetFeltU64).filter (· ≤ 3)
  | _ => .none

/-- The first member of the effective receive config is its confirmations. -/
def resultConfirmations (response : Json) : Option UInt64 :=
  (((response.get "result").bind Json.asArray).bind List.head?).bind fun value => value.asStr.bind starknetFeltU64

def StarknetPacket.slotQuestion (packet : StarknetPacket) (ulnAddress : String) (offset : Nat) : Question :=
  .getStorageAt ulnAddress (starknetSlotOffset packet.slot offset)

def StarknetPacket.requiredQuestion (packet : StarknetPacket) (ulnAddress : String) : Question :=
  .call ulnAddress (starknetSelector crates "get_oapp_uln_receive_config")
    [normalizeStarknetFelt packet.receiver, feltText packet.srcEid.toNat]

def StarknetPacket.stateQuestion (packet : StarknetPacket) (ulnAddress : String) : Question :=
  .call ulnAddress (starknetSelector crates "verifiable")
    (starknetByteArrayCalldata packet.header ++
      [starknetFeltHex (packet.payloadHash.val.drop 16), starknetFeltHex (packet.payloadHash.val.take 16)])

variable (provider : Provider)

/-- `post_json_scoped(..).await?`, and what is read from the response. -/
def request {α : Type} (question : Question) (read : Json → Option α) : Observe α := do
  let response ← Asking.lift (← Asking.ask provider question)
  okOrUnavailable (read response)

/-- `stored`: the record, if one was submitted. -/
def storedRecord (packet : StarknetPacket) (ulnAddress : String) : Observe (Option UInt64) := do
  let submitted ← request provider (packet.slotQuestion ulnAddress 0) resultFelt
  if submitted = 0 then return .none
  else if submitted = 1 then
    let confirmations ← request provider (packet.slotQuestion ulnAddress 1) resultFelt
    return .some confirmations
  else Asking.throw .unavailable

def observeStarknetPayloadSigned (query : StarknetQuery) : Observe PayloadSignedValidity := do
  let packet ← okOrUnavailable (starknetPacket crates query)
  let stored ← storedRecord provider packet query.ulnAddress
  let required ← request provider (packet.requiredQuestion crates query.ulnAddress) resultConfirmations
  if stored.any (required ≤ ·) then return .signed
  else
    let state ← request provider (packet.stateQuestion crates query.ulnAddress) resultState
    if state = verifiedState then return .signed else return .notSigned (.some required)

/-! ## The check -/

/-- A provider votes the `Debug` of its verdict. -/
def voteOn (query : StarknetQuery) (provider : Provider) : Observe (String × PayloadSignedValidity) := do
  let validity ← observeStarknetPayloadSigned crates provider query
  return (validity.debug, validity)

end

section
variable (crates : Crates) (providers : Providers) (starknetUln302 : Option String) (provider : Nat → Provider)
  (messageIdJson : PacketSent.LzMessageId → String)

def starknetPanel (sentEvent : LzSentEvent) (verifierAddress dstChainName : String) :
    Exec AppCoreError (Panel StarknetQuery) := do
  let config ← orErr (providers.providerConfig dstChainName)
  if config.voters.isEmpty then Exec.err (.internal ("No provider URI for chain " ++ dstChainName))
  else
    let ulnAddress ← okOrInternal starknetUln302 "No Starknet ULN302 contract configured"
    let proof ← computeLzPacketV1ProofFromEvent crates.toCrates sentEvent
    orErr (providers.requiredProviderQuorum dstChainName)
    let order ← orErr (providers.planDispatch dstChainName)
    .ok ⟨⟨ulnAddress, verifierAddress, proof.packetHeader, proof.payloadHash⟩, config, order⟩

def validateStarknetPayloadNotSignedWithQuorum (sentEvent : LzSentEvent) (verifierAddress dstChainName : String) :
    Exec AppCoreError (Option UInt64) :=
  validateWithQuorum (starknetPanel crates providers starknetUln302 sentEvent verifierAddress dstChainName)
    (voteOn crates) provider ("payload-signed validation for chain " ++ dstChainName)
    fun validity => payloadSignedValidationResult messageIdJson validity sentEvent dstChainName

end

end Pillar.StarknetPayload
