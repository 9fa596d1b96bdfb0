/-
The LayerZero packet (`pillar-layerzero`, `packet.rs`): its encoding, its
decoding, and the header and payload hash that are signed.
-/
import Pillar.Abi

namespace Pillar.Packet

open Bits Hex Abi

structure LzPacketV1 where
  nonce : UInt64
  srcEid : UInt32
  sender : String
  dstEid : UInt32
  receiver : String
  guid : String
  message : String
  deriving Repr, DecidableEq

structure EvmUlnProof where
  packetHeader : String
  payloadHash : String
  deriving Repr, DecidableEq

/-- The crates this module calls: `hex`, `bs58` and Keccak-256. -/
structure Crates where
  hex : HexCrate
  bs58 : String → Except String (List UInt8)
  keccak256 : List UInt8 → Bytes 32

variable (crates : Crates)

/-- `format!("0x{}", hex::encode(bytes))`. -/
def hexText (hex : HexCrate) (bytes : List UInt8) : String := "0x" ++ hex.encode bytes

def keccak256Hex (data : List UInt8) : String := hexText crates.hex (crates.keccak256 data).val

def encodeLzPacketV1 (packet : LzPacketV1) : Exec AppCoreError (List UInt8) := do
  let message ← decodeHexBytes crates.hex packet.message
  let out := [1] ++ (beBytes 8 packet.nonce.toNat).val ++ (beBytes 4 packet.srcEid.toNat).val
  let sender ← nativeAddressToBytes32 crates.hex crates.bs58 packet.sender
  let out := out ++ sender.val ++ (beBytes 4 packet.dstEid.toNat).val
  let receiver ← nativeAddressToBytes32 crates.hex crates.bs58 packet.receiver
  let guid ← decodeHex32 crates.hex packet.guid
  .ok (out ++ receiver.val ++ guid.val ++ message)

/-- `uN::from_be_bytes(bytes.try_into()?)`, of `n` bytes. -/
def fromBeBytes (n : Nat) (error : String) (bytes : List UInt8) : Exec AppCoreError Nat :=
  if bytes.length = n then .ok (ofBytes bytes) else Exec.err (.internal error)

/-- The fields, where an encoding of version 1 has them. -/
def decodeFields (hex : HexCrate) (bytes : List UInt8) : Exec AppCoreError LzPacketV1 := do
  let nonce ← Exec.slice bytes 1 9 >>= fromBeBytes 8 "invalid nonce"
  let srcEid ← Exec.slice bytes 9 13 >>= fromBeBytes 4 "invalid srcEid"
  let sender ← Exec.slice bytes 13 45
  let dstEid ← Exec.slice bytes 45 49 >>= fromBeBytes 4 "invalid dstEid"
  let receiver ← Exec.slice bytes 49 81
  let guid ← Exec.slice bytes 81 113
  let message ← Exec.slice bytes 113 bytes.length
  .ok
    { nonce := .ofNat nonce
      srcEid := .ofNat srcEid
      sender := hexText hex sender
      dstEid := .ofNat dstEid
      receiver := hexText hex receiver
      guid := hexText hex guid
      message := hexText hex message }

def decodeLzPacketV1 (hex : HexCrate) (value : String) : Exec AppCoreError LzPacketV1 := do
  let bytes ← decodeHexBytes hex value
  if bytes.length < 113 then Exec.err (.internal s!"invalid packet length: {bytes.length}")
  else
    let version ← Exec.get bytes[0]?
    if version ≠ 1 then Exec.err (.internal s!"unsupported packet version: {version}")
    else decodeFields hex bytes

/-- `READ_CHANNEL_EID_RANGE`. -/
def isLzReadEndpointId (endpointId : UInt32) : Bool := 4294967286 ≤ endpointId && endpointId ≤ 4294967295

def computeLzPacketV1Proof (packet : LzPacketV1) : Exec AppCoreError EvmUlnProof := do
  let encoded ← encodeLzPacketV1 crates packet
  let header ← Exec.slice encoded 0 81
  if isLzReadEndpointId packet.srcEid then
    let message ← Exec.slice encoded 113 encoded.length
    .ok ⟨hexText crates.hex header, keccak256Hex crates message⟩
  else
    let payload ← Exec.slice encoded 81 encoded.length
    .ok ⟨hexText crates.hex header, keccak256Hex crates payload⟩

end Pillar.Packet
