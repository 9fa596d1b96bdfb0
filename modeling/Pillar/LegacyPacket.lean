/-
The packets of the first endpoint (`pillar-layerzero`, `packet.rs`), of EVM and
of Aptos, decoded and built again.

Both are the nonce, the source's chain id and address, the destination's chain
id and address, and the message. How wide the destination's address is depends
on its chain id, which stands in the bytes, so where it ends does too.
-/
import Pillar.PacketSent
import Pillar.PacketFacts

namespace Pillar.LegacyPacket

open Bits Hex Abi Packet PacketSent RelayerOptions

variable (hex : HexCrate)

/-! ## EVM -/

/-- `u16::try_from`. -/
def toUint16 (name : String) (value : UInt64) : Exec AppCoreError UInt16 :=
  if value.toNat < 2 ^ 16 then .ok value.toUInt16 else Exec.err (.internal (name ++ " exceeds uint16"))

def buildEvmLzV1PacketPayloadV2 (nonce srcEid : UInt64) (sender : String) (dstEid : UInt64)
    (receiver message : String) : Exec AppCoreError String := do
  let srcEid ← toUint16 "srcEid" srcEid
  let dstEid ← toUint16 "dstEid" dstEid
  let out := (beBytes 8 nonce.toNat).val ++ (beBytes 2 srcEid.toNat).val
  let sender ← decodeHex20 hex sender
  let out := out ++ sender.val ++ (beBytes 2 dstEid.toNat).val
  let receiver ← decodeHexBytes hex receiver
  let message ← decodeHexBytes hex message
  .ok (hexText hex (out ++ receiver ++ message))

/-- `decode_evm_legacy_packet_v2_payload`, of any `dst_address_size`. -/
def decodeEvmPayload (payload : List UInt8) (dstAddressSize : UInt32 → Nat) : Exec AppCoreError LzPacketV1 :=
  if payload.length < 32 then Exec.err (.internal s!"invalid legacy packet payload length: {payload.length}")
  else do
    let nonce ← Exec.slice payload 0 8 >>= fromBeBytes 8 "invalid legacy packet nonce"
    let srcEid ← Exec.slice payload 8 10 >>= fromBeBytes 2 "invalid legacy packet srcEid"
    let dstEid ← Exec.slice payload 30 32 >>= fromBeBytes 2 "invalid legacy packet dstEid"
    let receiverEnd ← Exec.get (checkedAdd 32 (dstAddressSize (.ofNat dstEid)))
    if payload.length < receiverEnd then
      Exec.err (.internal s!"invalid legacy packet payload length: {payload.length}")
    else
      let sender ← Exec.slice payload 10 30
      let receiver ← Exec.slice payload 32 receiverEnd
      let message ← Exec.slice payload receiverEnd payload.length
      .ok
        { nonce := .ofNat nonce
          srcEid := .ofNat srcEid
          sender := hexText hex sender
          dstEid := .ofNat dstEid
          receiver := hexText hex receiver
          guid := zeroGuid
          message := hexText hex message }

/-! ## Aptos -/

structure AptosV1Packet where
  nonce : UInt64
  srcChainId : UInt16
  srcAddress : List UInt8
  dstChainId : UInt16
  dstAddress : List UInt8
  payload : List UInt8
  deriving Repr, DecidableEq

def encodeAptosV1Packet (packet : AptosV1Packet) : List UInt8 :=
  (beBytes 8 packet.nonce.toNat).val ++ (beBytes 2 packet.srcChainId.toNat).val ++ packet.srcAddress ++
    (beBytes 2 packet.dstChainId.toNat).val ++ packet.dstAddress ++ packet.payload

def short (bytes : List UInt8) : AppCoreError := .internal s!"Aptos V1 packet too short: {bytes.length} bytes"

/-- `bytes.get(from..from + len).ok_or_else(short)`. -/
def take (bytes : List UInt8) (start len : Nat) : Exec AppCoreError (List UInt8) := do
  let stop ← Exec.get (checkedAdd start len)
  if stop ≤ bytes.length then .ok ((bytes.drop start).take len) else Exec.err (short bytes)

/-- `uN::from_be_bytes(take(start, n)?.try_into()?)`. -/
def takeBe (bytes : List UInt8) (start n : Nat) : Exec AppCoreError Nat := do
  let field ← take bytes start n
  if field.length = n then .ok (ofBytes field) else Exec.err (short bytes)

def decodeAptosV1Packet (bytes : List UInt8) (dstAddressSize : UInt16 → Nat) : Exec AppCoreError AptosV1Packet := do
  let nonce ← takeBe bytes 0 8
  let srcChainId ← takeBe bytes 8 2
  let srcAddress ← take bytes 10 32
  let dstChainId ← takeBe bytes 42 2
  let width := dstAddressSize (.ofNat dstChainId)
  let dstAddress ← take bytes 44 width
  let payload ← Exec.slice bytes (44 + width) bytes.length
  .ok
    { nonce := .ofNat nonce
      srcChainId := .ofNat srcChainId
      srcAddress
      dstChainId := .ofNat dstChainId
      dstAddress
      payload }

/-! ## One layout -/

/-- The fields as they are written, the source's address in `n` bytes. -/
structure V1Fields (n : Nat) where
  nonce : UInt64
  srcEid : UInt16
  sender : Bytes n
  dstEid : UInt16
  receiver : List UInt8
  message : List UInt8

namespace V1Fields

variable {n : Nat}

def bytes (v : V1Fields n) : List UInt8 :=
  (beBytes 8 v.nonce.toNat).val ++ ((beBytes 2 v.srcEid.toNat).val ++ (v.sender.val ++
    ((beBytes 2 v.dstEid.toNat).val ++ (v.receiver ++ v.message))))

theorem length_bytes (v : V1Fields n) : v.bytes.length = 12 + n + v.receiver.length + v.message.length := by
  simp only [bytes, List.length_append, Bytes.length_val]
  omega

/-- Where the fields stand. -/
theorem at_bytes (v : V1Fields n) : At v.bytes 0 (beBytes 8 v.nonce.toNat).val ∧
    At v.bytes 8 (beBytes 2 v.srcEid.toNat).val ∧ At v.bytes 10 v.sender.val ∧
    At v.bytes (10 + n) (beBytes 2 v.dstEid.toNat).val ∧ At v.bytes (12 + n) v.receiver ∧
    At v.bytes (12 + n + v.receiver.length) v.message := by
  have hall : At v.bytes 0 v.bytes := List.prefix_refl _
  have hsrc := hall.right
  have hsender := hsrc.right
  have hdst := hsender.right
  have hreceiver := hdst.right
  have hmessage := hreceiver.right
  simp only [Bytes.length_val, Nat.zero_add, Nat.reduceAdd] at hsrc hsender hdst hreceiver hmessage
  rw [show 10 + n + 2 = 12 + n by omega] at hreceiver hmessage
  exact ⟨hall.left, hsrc.left, hsender.left, hdst.left, hreceiver.left, hmessage⟩

/-- Long enough bytes are the fields of some packet, whatever the width of its
receiver. -/
theorem exists_bytes {n : Nat} {l : List UInt8} (h : 12 + n ≤ l.length) :
    ∃ (nonce : UInt64) (srcEid : UInt16) (sender : Bytes n) (dstEid : UInt16) (rest : List UInt8),
      ∀ k, l = bytes ⟨nonce, srcEid, sender, dstEid, rest.take k, rest.drop k⟩ := by
  obtain ⟨nonce, l, rfl⟩ := exists_bytes_append (n := 8) (by omega : 8 ≤ l.length)
  simp only [List.length_append, Bytes.length_val] at h
  obtain ⟨src, l, rfl⟩ := exists_bytes_append (n := 2) (by omega : 2 ≤ l.length)
  simp only [List.length_append, Bytes.length_val] at h
  obtain ⟨sender, l, rfl⟩ := exists_bytes_append (n := n) (by omega : n ≤ l.length)
  simp only [List.length_append, Bytes.length_val] at h
  obtain ⟨dst, rest, rfl⟩ := exists_bytes_append (n := 2) (by omega : 2 ≤ l.length)
  obtain ⟨nonce, hnonce, rfl⟩ := exists_beBytes nonce
  obtain ⟨src, hsrc, rfl⟩ := exists_beBytes src
  obtain ⟨dst, hdst, rfl⟩ := exists_beBytes dst
  refine ⟨.ofNat nonce, .ofNat src, sender, .ofNat dst, rest, fun k => ?_⟩
  simp only [bytes, List.take_append_drop, UInt64.toNat_ofNat_of_lt' hnonce, UInt16.toNat_ofNat_of_lt' hsrc,
    UInt16.toNat_ofNat_of_lt' hdst]

end V1Fields

/-! ## EVM packets are rebuilt -/

/-- What is read of the fields of an EVM packet. -/
def evmPacket (v : V1Fields 20) : LzPacketV1 where
  nonce := v.nonce
  srcEid := .ofNat v.srcEid.toNat
  sender := hexText hex v.sender.val
  dstEid := .ofNat v.dstEid.toNat
  receiver := hexText hex v.receiver
  guid := zeroGuid
  message := hexText hex v.message

variable {hex}

/-- What is accepted is some packet's bytes, and is read as that packet. -/
theorem decodeEvmPayload_ok {payload : List UInt8} {dstAddressSize : UInt32 → Nat} {p : LzPacketV1}
    (h : decodeEvmPayload hex payload dstAddressSize = .ok p) :
    ∃ v : V1Fields 20, payload = v.bytes ∧ p = evmPacket hex v := by
  by_cases hlen : payload.length < 32
  · rw [decodeEvmPayload, if_pos hlen] at h
    cases h
  · obtain ⟨nonce, srcEid, sender, dstEid, rest, hbytes⟩ := V1Fields.exists_bytes (n := 20) (not_lt.mp hlen)
    let width := dstAddressSize (.ofNat dstEid.toNat)
    let v : V1Fields 20 := ⟨nonce, srcEid, sender, dstEid, rest.take width, rest.drop width⟩
    have hpayload : payload = v.bytes := hbytes width
    refine ⟨v, hpayload, ?_⟩
    obtain ⟨hnonce, hsrc, hsender, hdst, hreceiver, hmessage⟩ := v.at_bytes
    have hv := v.length_bytes
    rw [hpayload, decodeEvmPayload, if_neg (by omega),
      slice_of_at hnonce (by omega) (by rw [Bytes.length_val]), Exec.ok_bind,
      fromBeBytes_beBytes v.nonce.toNat_lt, Exec.ok_bind,
      slice_of_at hsrc (by omega) (by rw [Bytes.length_val]), Exec.ok_bind,
      fromBeBytes_beBytes v.srcEid.toNat_lt, Exec.ok_bind,
      slice_of_at hdst (by omega) (by rw [Bytes.length_val]), Exec.ok_bind,
      fromBeBytes_beBytes v.dstEid.toNat_lt, Exec.ok_bind] at h
    obtain ⟨stop, hstop, h⟩ := Exec.bind_ok_iff.mp h
    have hwidth : stop = 32 + width := checkedAdd_eq_some (Exec.get_eq_ok.mp hstop)
    split at h
    next => cases h
    next hend =>
      -- The receiver is whole, so it ends where it is read to.
      have hall : v.receiver.length + v.message.length = rest.length := by
        rw [← List.length_append]
        exact congrArg _ (List.take_append_drop width rest)
      have hreceiverLen : v.receiver.length = width := List.length_take_of_le (by omega)
      rw [slice_of_at hsender (by omega) (by rw [Bytes.length_val]), Exec.ok_bind,
        slice_of_at hreceiver (by omega) (by omega), Exec.ok_bind, hwidth, ← hreceiverLen,
        slice_of_at hmessage (by omega) hv, Exec.ok_bind] at h
      cases h
      simp only [evmPacket, UInt64.ofNat_toNat]

theorem toUint16_toUInt64 (name : String) (value : UInt16) :
    toUint16 name (UInt32.ofNat value.toNat).toUInt64 = .ok value := by
  have hlt := value.toNat_lt
  have hwide : (UInt32.ofNat value.toNat).toUInt64.toNat = value.toNat := by
    rw [UInt32.toNat_toUInt64, UInt32.toNat_ofNat_of_lt' (Nat.lt_trans hlt (by decide))]
  rw [toUint16, if_pos (by omega)]
  congr 1
  rw [← UInt16.toNat_inj, UInt64.toNat_toUInt16, hwide]
  omega

theorem build_evmPacket (v : V1Fields 20) : buildEvmLzV1PacketPayloadV2 hex (evmPacket hex v).nonce
    (evmPacket hex v).srcEid.toUInt64 (evmPacket hex v).sender (evmPacket hex v).dstEid.toUInt64
    (evmPacket hex v).receiver (evmPacket hex v).message = .ok (hexText hex v.bytes) := by
  have hsender : decodeHex20 hex (evmPacket hex v).sender = .ok v.sender :=
    decodeHexArray_eq_ok.mpr (decodeHexBytes_prefixed _)
  have hreceiver : decodeHexBytes hex (evmPacket hex v).receiver = .ok v.receiver := decodeHexBytes_prefixed _
  have hmessage : decodeHexBytes hex (evmPacket hex v).message = .ok v.message := decodeHexBytes_prefixed _
  rw [buildEvmLzV1PacketPayloadV2, show (evmPacket hex v).srcEid = .ofNat v.srcEid.toNat from rfl, toUint16_toUInt64,
    Exec.ok_bind, show (evmPacket hex v).dstEid = .ofNat v.dstEid.toNat from rfl, toUint16_toUInt64, Exec.ok_bind,
    hsender, Exec.ok_bind, hreceiver, Exec.ok_bind, hmessage, Exec.ok_bind]
  simp only [V1Fields.bytes, evmPacket, List.append_assoc]

/-! ## Aptos packets are rebuilt -/

/-- What is read of the fields of an Aptos packet. -/
def aptosPacket (v : V1Fields 32) : AptosV1Packet where
  nonce := v.nonce
  srcChainId := v.srcEid
  srcAddress := v.sender.val
  dstChainId := v.dstEid
  dstAddress := v.receiver
  payload := v.message

theorem encode_aptosPacket (v : V1Fields 32) : encodeAptosV1Packet (aptosPacket v) = v.bytes := by
  simp only [encodeAptosV1Packet, aptosPacket, V1Fields.bytes, List.append_assoc]

theorem take_of_at {l part : List UInt8} {start len : Nat} (h : At l start part) (hlen : part.length = len)
    (hstop : start + len ≤ l.length) (hmax : start + len ≤ usizeMax) : take l start len = .ok part := by
  rw [take, checkedAdd_of_le hmax, Exec.get_some, Exec.ok_bind, if_pos hstop]
  exact congrArg _ (List.prefix_iff_eq_take.mp h ▸ hlen ▸ rfl)

theorem takeBe_of_at {l : List UInt8} {start n value : Nat} (h : At l start (beBytes n value).val)
    (hvalue : value < 256 ^ n) (hstop : start + n ≤ l.length) (hmax : start + n ≤ usizeMax) :
    takeBe l start n = .ok value := by
  rw [takeBe, take_of_at h (Bytes.length_val _) hstop hmax, Exec.ok_bind, if_pos (Bytes.length_val _)]
  exact congrArg _ (ofBytes_bytesOf hvalue)

theorem decodeAptosV1Packet_bytes {v : V1Fields 32} {dstAddressSize : UInt16 → Nat}
    (hsize : dstAddressSize v.dstEid = v.receiver.length) (hlen : v.bytes.length ≤ usizeMax) :
    decodeAptosV1Packet v.bytes dstAddressSize = .ok (aptosPacket v) := by
  obtain ⟨hnonce, hsrc, hsender, hdst, hreceiver, hmessage⟩ := v.at_bytes
  have hbytes := v.length_bytes
  simp only [Nat.reduceAdd] at hdst hreceiver hmessage
  rw [decodeAptosV1Packet, takeBe_of_at hnonce v.nonce.toNat_lt (by omega) (by omega), Exec.ok_bind,
    takeBe_of_at hsrc v.srcEid.toNat_lt (by omega) (by omega), Exec.ok_bind,
    take_of_at hsender (Bytes.length_val _) (by omega) (by omega), Exec.ok_bind,
    takeBe_of_at hdst v.dstEid.toNat_lt (by omega) (by omega), Exec.ok_bind, UInt16.ofNat_toNat, hsize]
  dsimp only
  rw [take_of_at hreceiver rfl (by omega) (by omega), Exec.ok_bind,
    slice_of_at hmessage (by omega) hbytes, Exec.ok_bind]
  simp only [aptosPacket, UInt64.ofNat_toNat, UInt16.ofNat_toNat]

theorem take_ok {bytes part : List UInt8} {start len : Nat} (h : take bytes start len = .ok part) :
    start + len ≤ bytes.length ∧ part = (bytes.drop start).take len := by
  obtain ⟨stop, hstop, h⟩ := Exec.bind_ok_iff.mp h
  have hadd := checkedAdd_eq_some (Exec.get_eq_ok.mp hstop)
  split at h
  next hle =>
    cases h
    exact ⟨by omega, rfl⟩
  next => cases h

theorem takeBe_ok {bytes : List UInt8} {start n value : Nat} (h : takeBe bytes start n = .ok value) :
    start + n ≤ bytes.length ∧ At bytes start (beBytes n value).val ∧ value < 256 ^ n := by
  obtain ⟨field, htake, h⟩ := Exec.bind_ok_iff.mp h
  obtain ⟨hle, hfield⟩ := take_ok htake
  split at h
  next hlen =>
    cases h
    refine ⟨hle, ?_, hlen ▸ ofBytes_lt field⟩
    have hbe : (beBytes n (ofBytes field)).val = field := by
      rw [← hlen]
      exact bytesOf_ofBytes field
    rw [hbe, hfield]
    exact List.take_prefix _ _
  next => cases h

/-- What is accepted is written again as it was read. -/
theorem encode_decodeAptosV1Packet {bytes : List UInt8} {dstAddressSize : UInt16 → Nat} {p : AptosV1Packet}
    (h : decodeAptosV1Packet bytes dstAddressSize = .ok p) : encodeAptosV1Packet p = bytes := by
  obtain ⟨nonce, hnonce, h⟩ := Exec.bind_ok_iff.mp h
  obtain ⟨srcChainId, hsrc, h⟩ := Exec.bind_ok_iff.mp h
  obtain ⟨srcAddress, hsender, h⟩ := Exec.bind_ok_iff.mp h
  obtain ⟨dstChainId, hdst, h⟩ := Exec.bind_ok_iff.mp h
  obtain ⟨dstAddress, hreceiver, h⟩ := Exec.bind_ok_iff.mp h
  obtain ⟨payload, hpayload, h⟩ := Exec.bind_ok_iff.mp h
  cases h
  obtain ⟨-, hnonceAt, hnonceLt⟩ := takeBe_ok hnonce
  obtain ⟨-, hsrcAt, hsrcLt⟩ := takeBe_ok hsrc
  obtain ⟨hsenderEnd, hsender⟩ := take_ok hsender
  obtain ⟨-, hdstAt, hdstLt⟩ := takeBe_ok hdst
  obtain ⟨hend, hreceiver⟩ := take_ok hreceiver
  have hpayload := Except.ok.inj ((slice_eq hend le_rfl).symm.trans hpayload)
  have hsenderLen : srcAddress.length = 32 := by
    rw [hsender, List.length_take, List.length_drop]
    omega
  have hreceiverLen : dstAddress.length = dstAddressSize (.ofNat dstChainId) := by
    rw [hreceiver, List.length_take, List.length_drop]
    omega
  have hpayloadLen : payload.length = bytes.length - (44 + dstAddress.length) := by
    rw [← hpayload, List.length_take, List.length_drop, hreceiverLen]
    omega
  have hsenderAt : At bytes 10 srcAddress := hsender ▸ List.take_prefix _ _
  have hreceiverAt : At bytes 44 dstAddress := hreceiver ▸ List.take_prefix _ _
  have hpayloadAt : At bytes (44 + dstAddress.length) payload := by
    rw [hreceiverLen, ← hpayload]
    exact List.take_prefix _ _
  -- Each field stands where the one before it ends, and the payload goes to the end.
  have hdstAll : At bytes (10 + srcAddress.length) ((beBytes 2 dstChainId).val ++ (dstAddress ++ payload)) := by
    rw [hsenderLen]
    exact hdstAt.concat (hreceiverAt.concat hpayloadAt)
  have hall := hnonceAt.concat (hsrcAt.concat (hsenderAt.concat hdstAll))
  have hwhole := hall.unique (List.prefix_refl bytes) (by
    simp only [List.length_append, Bytes.length_val]
    omega)
  rw [encodeAptosV1Packet, UInt64.toNat_ofNat_of_lt' hnonceLt, UInt16.toNat_ofNat_of_lt' hsrcLt,
    UInt16.toNat_ofNat_of_lt' hdstLt, ← hwhole]
  simp only [List.append_assoc]

/-- **Legacy payloads are rebuilt byte for byte**: what is built from an accepted
EVM payload's packet is that payload, an accepted Aptos packet is encoded as it
was, and a packet whose source address has 32 bytes and whose destination
address has its chain's width comes back from its encoding, which is no longer
than a `Vec` can be. -/
theorem legacy_payloads_rebuilt (hex : HexCrate) :
    (∀ (payload : List UInt8) (dstAddressSize : UInt32 → Nat) (p : LzPacketV1),
      decodeEvmPayload hex payload dstAddressSize = .ok p →
        ∃ text, buildEvmLzV1PacketPayloadV2 hex p.nonce p.srcEid.toUInt64 p.sender p.dstEid.toUInt64 p.receiver
            p.message = .ok text ∧ text = hexText hex payload ∧ decodeHexBytes hex text = .ok payload) ∧
    (∀ (bytes : List UInt8) (size : UInt16 → Nat) (p : AptosV1Packet),
      decodeAptosV1Packet bytes size = .ok p → encodeAptosV1Packet p = bytes) ∧
    ∀ (size : UInt16 → Nat) (p : AptosV1Packet), p.srcAddress.length = 32 →
      p.dstAddress.length = size p.dstChainId → (encodeAptosV1Packet p).length ≤ usizeMax →
        decodeAptosV1Packet (encodeAptosV1Packet p) size = .ok p := by
  refine ⟨fun payload size p h => ?_, fun bytes size p h => encode_decodeAptosV1Packet h,
    fun size p hsrc hdst hlen => ?_⟩
  · obtain ⟨v, rfl, rfl⟩ := decodeEvmPayload_ok h
    exact ⟨_, build_evmPacket v, rfl, decodeHexBytes_prefixed _⟩
  · let v : V1Fields 32 := ⟨p.nonce, p.srcChainId, ⟨p.srcAddress, hsrc⟩, p.dstChainId, p.dstAddress, p.payload⟩
    have hv : encodeAptosV1Packet p = v.bytes := encode_aptosPacket v
    rw [hv] at hlen ⊢
    exact decodeAptosV1Packet_bytes hdst.symm hlen

/-- A message of one byte to a chain with addresses of two bytes. -/
def oneByte (n : Nat) : V1Fields n where
  nonce := 7
  srcEid := 101
  sender := ⟨List.replicate n 9, List.length_replicate⟩
  dstEid := 102
  receiver := [1, 2]
  message := [3]

theorem legacy_payloads_rebuilt_oneByte :
    (∃ text, buildEvmLzV1PacketPayloadV2 .plain (evmPacket .plain (oneByte 20)).nonce
        (evmPacket .plain (oneByte 20)).srcEid.toUInt64 (evmPacket .plain (oneByte 20)).sender
        (evmPacket .plain (oneByte 20)).dstEid.toUInt64 (evmPacket .plain (oneByte 20)).receiver
        (evmPacket .plain (oneByte 20)).message = .ok text ∧ text = hexText .plain (oneByte 20).bytes ∧
          decodeHexBytes .plain text = .ok (oneByte 20).bytes) ∧
      encodeAptosV1Packet (aptosPacket (oneByte 32)) = (oneByte 32).bytes ∧
      decodeAptosV1Packet (encodeAptosV1Packet (aptosPacket (oneByte 32))) (fun _ => 2) =
        .ok (aptosPacket (oneByte 32)) :=
  ⟨(legacy_payloads_rebuilt .plain).1 _ (fun _ => 2) _ (by rfl),
    (legacy_payloads_rebuilt .plain).2.1 _ (fun _ => 2) _ (decodeAptosV1Packet_bytes rfl (by decide)),
    (legacy_payloads_rebuilt .plain).2.2 (fun _ => 2) _ rfl rfl (by decide)⟩

theorem legacyDestinationAddressSize_le (env : Env) (dstChainId : UInt32) :
    legacyDestinationAddressSize env dstChainId ≤ 32 := by
  unfold legacyDestinationAddressSize destinationAddressSize
  split
  · split <;> decide
  · decide

/-- The resolver's decoder is this one at the widths of its table. -/
theorem decodeEvmLegacyPacketV2Payload_eq (env : Env) (payload : List UInt8) :
    decodeEvmLegacyPacketV2Payload env payload =
      decodeEvmPayload env.hex payload (legacyDestinationAddressSize env) := by
  have hadd : ∀ dstChainId, checkedAdd 32 (legacyDestinationAddressSize env dstChainId) =
      .some (32 + legacyDestinationAddressSize env dstChainId) := fun dstChainId =>
    checkedAdd_of_le ((Nat.add_le_add_left (legacyDestinationAddressSize_le env dstChainId) 32).trans (by decide))
  simp only [decodeEvmLegacyPacketV2Payload, decodeEvmPayload, hadd, Exec.get_some, Exec.ok_bind]

end Pillar.LegacyPacket
