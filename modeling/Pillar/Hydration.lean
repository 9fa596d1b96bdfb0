/-
Rebuilding a ULN V2-sent event for a V3 receive library (`pillar-core`,
`lib.rs`): `hydrate_uln_v2_sent_event` and the guid it computes, beside the
packet that is encoded from the event afterwards (`pillar-layerzero`).
-/
import Pillar.PacketFacts
import Pillar.PacketSent
import Pillar.Utf8

namespace Pillar.Hydration

open Text Hex Packet
open Abi (Bytes beBytes decodeHexBytes decodeHex32 addressToBytes32 nativeAddressToBytes32 decodeHexBytes_prefixed)
open PacketSent (LzMessageId PathwayId)

/-! ## The code -/

/-- The crates, and how a JSON value is displayed. -/
structure Crates extends Packet.Crates where
  display : Json → String

/-- A sent event; what it carries of evidence and of pins is not looked at. -/
structure LzSentEvent (ε ρ : Type) where
  lzMessageId : LzMessageId
  message : String
  txHash : String
  sourceEvidence : Option ε
  readBlockPins : List ρ
  extra : Extra

variable {ε ρ : Type} (crates : Crates)

def hexAddressToBytes32 (hex : HexCrate) (address : String) : Exec AppCoreError (Bytes 32) :=
  match hex.decode ((stripPrefix "0x" address).getD address) with
  | .error error => Exec.err (.internal s!"address {address}: {error}")
  | .ok bytes =>
    if h : bytes.length > 32 then Exec.err (.internal s!"address {address} is longer than 32 bytes")
    else .ok ⟨List.replicate (32 - bytes.length) 0 ++ bytes, Bytes.length_padded h⟩

def calculateGuid (nonce : UInt64) (srcEid : UInt32) (sender : String) (dstEid : UInt32) (receiver : String) :
    Exec AppCoreError String := do
  let preimage := (beBytes 8 nonce.toNat).val ++ (beBytes 4 srcEid.toNat).val
  let sender ← hexAddressToBytes32 crates.hex sender
  let preimage := preimage ++ sender.val ++ (beBytes 4 dstEid.toNat).val
  let receiver ← hexAddressToBytes32 crates.hex receiver
  return hexText crates.hex (crates.keccak256 (preimage ++ receiver.val)).val

/-- `let eid = |key| ..`. -/
def pathwayEid (pathway : Extra) (key : String) : Exec AppCoreError UInt32 :=
  match (pathway.get key).bind Json.asU64 with
  | .some eid =>
    if eid.toNat < 2 ^ 32 then .ok (UInt32.ofNat eid.toNat)
    else Exec.err (.internal s!"lzMessageId.pathwayId.{key} is not a uint32")
  | .none => Exec.err (.internal s!"lzMessageId.pathwayId.{key} is not a uint32")

/-- `let address = |key| ..`. -/
def pathwayAddress (pathway : Extra) (key : String) : Exec AppCoreError String :=
  match (pathway.get key).bind Json.asStr with
  | .some address => .ok address
  | .none => Exec.err (.internal s!"Missing lzMessageId.pathwayId.{key}")

/-- What the event carries beyond its own fields, once it is rebuilt. -/
def hydratedExtra (extra : Extra) (guid payload : String) (lzReceiveGas : Option String) : Extra :=
  let hydrated := Extra.insert "guid" (.string guid) extra
  let hydrated := Extra.insert "options" (.object [
    ("lzReceive", .object [("gas", .string (lzReceiveGas.getD "200000")), ("value", .string "0")]),
    ("ordered", .bool true)]) hydrated
  let hydrated := Extra.insert "payload" (.string payload) hydrated
  match extra.get "packetEmitAddress" with
  | .some emitter => Extra.insert "sendLibrary" emitter hydrated
  | .none => hydrated

def hydrateUlnV2SentEvent (sentEvent : LzSentEvent ε ρ) (lzReceiveGas : Option String) :
    Exec AppCoreError (LzSentEvent ε ρ) :=
  if sentEvent.lzMessageId.ulnSendVersion.asStr ≠ .some "V2" then
    let version := crates.display sentEvent.lzMessageId.ulnSendVersion
    Exec.err (.internal s!"only a ULN V2-sent event can be rebuilt for a V3 receive library, got {version}")
  else if (sentEvent.extra.get "guid").isSome then
    Exec.err (.internal "a ULN V2-sent event must not already carry a guid")
  else do
    let pathway := sentEvent.lzMessageId.pathwayId.extra
    let srcEid ← pathwayEid pathway "srcEid"
    let sender ← pathwayAddress pathway "sender"
    let dstEid ← pathwayEid pathway "dstEid"
    let receiver ← pathwayAddress pathway "receiver"
    let guid ← calculateGuid crates sentEvent.lzMessageId.nonce srcEid sender dstEid receiver
    let payload := guid ++ (stripPrefix "0x" sentEvent.message).getD sentEvent.message
    return { sentEvent with extra := hydratedExtra sentEvent.extra guid payload lzReceiveGas }

/-! ## Fields -/

theorem Extra.get_insert (key k : String) (value : Json) : ∀ extra : Extra,
    (Extra.insert k value extra).get key = if key = k then .some value else extra.get key
  | [] => by
    rw [Extra.insert, Extra.get, Extra.get, List.lookup_cons, List.lookup_nil]
    by_cases h : key = k
    · simp [h]
    · simp [h, beq_false_of_ne h]
  | (k', v) :: rest => by
    have ih := Extra.get_insert key k value rest
    rw [Extra.get, Extra.get] at ih
    rw [Extra.insert]
    by_cases hk : k' = k
    · subst hk
      rw [if_pos rfl, Extra.get, Extra.get, List.lookup_cons, List.lookup_cons]
      by_cases h : key = k'
      · simp [h]
      · simp [h, beq_false_of_ne h]
    · rw [if_neg hk, Extra.get, Extra.get, List.lookup_cons, List.lookup_cons, ih]
      by_cases h : key = k'
      · subst h
        simp [hk]
      · simp [beq_false_of_ne h]

theorem get_hydratedExtra_guid (extra : Extra) (guid payload : String) (gas : Option String) :
    (hydratedExtra extra guid payload gas).get "guid" = .some (.string guid) := by
  unfold hydratedExtra
  split
  · simp [Extra.get_insert]
  · simp [Extra.get_insert]

theorem get_hydratedExtra_payload (extra : Extra) (guid payload : String) (gas : Option String) :
    (hydratedExtra extra guid payload gas).get "payload" = .some (.string payload) := by
  unfold hydratedExtra
  split
  · simp [Extra.get_insert]
  · simp [Extra.get_insert]

/-! ## Addresses -/

variable {crates}

/-- Digits that are read in pairs are even in number. -/
theorem utf8ByteSize_of_decode {hex : HexCrate} {digits : String} {bytes : List UInt8}
    (h : hex.decode digits = .ok bytes) : digits.utf8ByteSize = 2 * bytes.length := by
  obtain ⟨hlen, hdigits⟩ := decodeChars_eq_some (hex.decodeChars_of_decode h)
  have hascii : ∀ c ∈ digits.toList, c.toNat < 128 := fun c hc => by
    obtain ⟨n, hn⟩ := Option.isSome_iff_exists.mp (hdigits c hc)
    exact (hexDigit?_lt hn).2
  have hsize := congrArg List.length (utf8_ascii hascii)
  rw [String.ofList_toList, List.length_map, length_utf8, hlen] at hsize
  exact hsize

theorem decodeHexBytes_of_decode {hex : HexCrate} {value : String} {bytes : List UInt8}
    (h : hex.decode ((stripPrefix "0x" value).getD value) = .ok bytes) : decodeHexBytes hex value = .ok bytes := by
  have heven : ((stripPrefix "0x" value).getD value).utf8ByteSize % 2 = 0 := by
    rw [utf8ByteSize_of_decode h]
    omega
  rw [decodeHexBytes]
  simp only [if_pos heven, h, Abi.orInternal_ok]

/-- **What `hex_address_to_bytes32` accepts the packet encoder reads alike**: an
even number of digits needs no zero in front, and base58 is not tried. -/
theorem nativeAddressToBytes32_of_hexAddress {address : String} {bytes : Bytes 32}
    (h : hexAddressToBytes32 crates.hex address = .ok bytes) :
    nativeAddressToBytes32 crates.hex crates.bs58 address = .ok bytes := by
  unfold hexAddressToBytes32 at h
  split at h
  · cases h
  · next read hread =>
    split at h
    · cases h
    · cases h
      exact nativeAddressToBytes32_of_hex (decodeHexBytes_of_decode hread) rfl

/-! ## The rebuilt event -/

/-- The packet that the fields of an event are. -/
structure IsPacketOf (event : LzSentEvent ε ρ) (packet : LzPacketV1) : Prop where
  nonce : packet.nonce = event.lzMessageId.nonce
  srcEid : pathwayEid event.lzMessageId.pathwayId.extra "srcEid" = .ok packet.srcEid
  sender : pathwayAddress event.lzMessageId.pathwayId.extra "sender" = .ok packet.sender
  dstEid : pathwayEid event.lzMessageId.pathwayId.extra "dstEid" = .ok packet.dstEid
  receiver : pathwayAddress event.lzMessageId.pathwayId.extra "receiver" = .ok packet.receiver
  guid : event.extra.get "guid" = .some (.string packet.guid)
  message : packet.message = event.message

/-- What the guid is the hash of. -/
def preimage (nonce : UInt64) (srcEid : UInt32) (sender : Bytes 32) (dstEid : UInt32) (receiver : Bytes 32) :
    List UInt8 :=
  (beBytes 8 nonce.toNat).val ++ ((beBytes 4 srcEid.toNat).val ++ (sender.val ++ ((beBytes 4 dstEid.toNat).val ++
    receiver.val)))

theorem calculateGuid_eq_ok {nonce : UInt64} {srcEid dstEid : UInt32} {sender receiver guid : String}
    (h : calculateGuid crates nonce srcEid sender dstEid receiver = .ok guid) : ∃ s r : Bytes 32,
    hexAddressToBytes32 crates.hex sender = .ok s ∧ hexAddressToBytes32 crates.hex receiver = .ok r ∧
      guid = hexText crates.hex (crates.keccak256 (preimage nonce srcEid s dstEid r)).val := by
  obtain ⟨s, hs, h⟩ := Exec.bind_ok_iff.mp h
  obtain ⟨r, hr, h⟩ := Exec.bind_ok_iff.mp h
  cases h
  refine ⟨s, r, hs, hr, ?_⟩
  simp only [preimage, List.append_assoc]

/-- A packet's header is its version and the preimage. -/
theorem slice_encode (v : PacketV1) : (Exec.slice v.encode 1 81 : Exec AppCoreError (List UInt8)) =
    .ok (preimage v.nonce v.srcEid v.sender v.dstEid v.receiver) := by
  have hshape : v.encode = [1] ++ (preimage v.nonce v.srcEid v.sender v.dstEid v.receiver ++
      (v.guid.val ++ v.message)) := by
    simp only [PacketV1.encode, PacketV1.header, preimage, List.append_assoc]
    rfl
  have hat : Bits.At v.encode 1 (preimage v.nonce v.srcEid v.sender v.dstEid v.receiver) := by
    rw [hshape]
    exact List.prefix_append _ _
  refine slice_of_at hat (by rw [hshape]; simp) ?_
  simp only [preimage, List.length_append, Abi.Bytes.length_val]

/-- A message of whole bytes behind a guid. -/
theorem decodeHexBytes_payload {message : String} {bytes : List UInt8} (guid : List UInt8)
    (h : crates.hex.decode ((stripPrefix "0x" message).getD message) = .ok bytes) :
    decodeHexBytes crates.hex (hexText crates.hex guid ++ (stripPrefix "0x" message).getD message) =
      .ok (guid ++ bytes) := by
  generalize (stripPrefix "0x" message).getD message = digits at h ⊢
  have hdigits := crates.hex.decodeChars_of_decode h
  have hread : crates.hex.decode (crates.hex.encode guid ++ digits) = .ok (guid ++ bytes) := by
    refine crates.hex.decode_eq_ok ?_
    rw [String.toList_append, crates.hex.toList_encode]
    exact decodeChars_encodeChars_append hdigits guid
  have htext : hexText crates.hex guid ++ digits = "0x" ++ (crates.hex.encode guid ++ digits) := by
    rw [hexText, String.append_assoc]
  rw [htext]
  refine decodeHexBytes_of_decode ?_
  rw [stripPrefix_append, Option.getD_some, hread]

/-- **A rebuilt event carries the guid of its packet.** Both readers take its
sender and receiver for the same bytes. Where the encoder can read the message,
the guid is the hash of what it writes behind the version; where the message is
whole bytes, the payload is the guid and these bytes. The rest of the event is
what it was. -/
theorem hydrated_guid {event hydrated : LzSentEvent ε ρ} {gas : Option String}
    (h : hydrateUlnV2SentEvent crates event gas = .ok hydrated) :
    ∃ packet, IsPacketOf hydrated packet ∧
      (∀ address ∈ [packet.sender, packet.receiver], ∃ bytes, hexAddressToBytes32 crates.hex address = .ok bytes ∧
        nativeAddressToBytes32 crates.hex crates.bs58 address = .ok bytes) ∧
      (∀ message, decodeHexBytes crates.hex event.message = .ok message → ∃ out part,
        encodeLzPacketV1 crates.toCrates packet = .ok out ∧
        (Exec.slice out 1 81 : Exec AppCoreError (List UInt8)) = .ok part ∧
        packet.guid = hexText crates.hex (crates.keccak256 part).val) ∧
      (∀ message, crates.hex.decode ((stripPrefix "0x" event.message).getD event.message) = .ok message →
        decodeHexBytes crates.hex event.message = .ok message ∧ ∃ guid payload,
          decodeHex32 crates.hex packet.guid = .ok guid ∧ hydrated.extra.get "payload" = .some (.string payload) ∧
          decodeHexBytes crates.hex payload = .ok (guid.val ++ message)) ∧
      hydrated.lzMessageId = event.lzMessageId ∧ hydrated.message = event.message ∧
      hydrated.txHash = event.txHash ∧ hydrated.sourceEvidence = event.sourceEvidence := by
  unfold hydrateUlnV2SentEvent at h
  split at h
  · cases h
  split at h
  · cases h
  obtain ⟨srcEid, hsrcEid, h⟩ := Exec.bind_ok_iff.mp h
  obtain ⟨sender, hsender, h⟩ := Exec.bind_ok_iff.mp h
  obtain ⟨dstEid, hdstEid, h⟩ := Exec.bind_ok_iff.mp h
  obtain ⟨receiver, hreceiver, h⟩ := Exec.bind_ok_iff.mp h
  obtain ⟨guid, hguid, h⟩ := Exec.bind_ok_iff.mp h
  cases h
  obtain ⟨s, r, hs, hr, rfl⟩ := calculateGuid_eq_ok hguid
  have hs' := nativeAddressToBytes32_of_hexAddress hs
  have hr' := nativeAddressToBytes32_of_hexAddress hr
  generalize hpart : crates.keccak256 (preimage event.lzMessageId.nonce srcEid s dstEid r) = hash
  have hhash : decodeHex32 crates.hex (hexText crates.hex hash.val) = .ok hash :=
    Abi.decodeHexArray_eq_ok.mpr (decodeHexBytes_prefixed _)
  refine ⟨⟨event.lzMessageId.nonce, srcEid, sender, dstEid, receiver, hexText crates.hex hash.val, event.message⟩,
    ⟨rfl, hsrcEid, hsender, hdstEid, hreceiver, get_hydratedExtra_guid _ _ _ _, rfl⟩, ?_, ?_, ?_, rfl, rfl, rfl, rfl⟩
  · intro address haddress
    rcases List.mem_pair.mp haddress with rfl | rfl
    · exact ⟨s, hs, hs'⟩
    · exact ⟨r, hr, hr'⟩
  · intro message hmessage
    have hdenotes : LzPacketV1.Denotes crates.toCrates
        ⟨event.lzMessageId.nonce, srcEid, sender, dstEid, receiver, hexText crates.hex hash.val, event.message⟩
        ⟨event.lzMessageId.nonce, srcEid, s, dstEid, r, hash, message⟩ :=
      ⟨rfl, rfl, hs', rfl, hr', hhash, hmessage⟩
    exact ⟨_, _, encodeLzPacketV1_eq_ok.mpr ⟨_, hdenotes, rfl⟩, slice_encode _, by rw [hpart]⟩
  · intro message hmessage
    exact ⟨decodeHexBytes_of_decode hmessage, hash, _, hhash, get_hydratedExtra_payload _ _ _ _,
      decodeHexBytes_payload hash.val hmessage⟩

/-! ## Samples -/

def sampleCrates : Crates where
  hex := .plain
  bs58 _ := .error "unused"
  keccak256 _ := ⟨List.replicate 32 17, List.length_replicate⟩
  display _ := ""

/-- A V2 event with this message. -/
def sampleEvent (message : String) : LzSentEvent Unit Unit where
  lzMessageId :=
    { pathwayId :=
        { srcChainName := "ethereum"
          dstChainName := "bsc"
          extra := [("srcEid", .number (.posInt 101)), ("sender", .string "0x0a"), ("dstEid", .number (.posInt 102)),
            ("receiver", .string "0B")] }
      nonce := 7
      ulnSendVersion := .string "V2" }
  message := message
  txHash := "0x01"
  sourceEvidence := .none
  readBlockPins := []
  extra := [("packetEmitAddress", .string "0xcc")]

def sampleGuid : String := hexText .plain (List.replicate 32 17)

theorem sampleEvent_hydrates (message : String) :
    hydrateUlnV2SentEvent sampleCrates (sampleEvent message) .none = .ok { sampleEvent message with
      extra := hydratedExtra (sampleEvent message).extra sampleGuid
        (sampleGuid ++ (stripPrefix "0x" message).getD message) .none } := rfl

/-- Three digits are read as two bytes by the encoder, but behind a guid they
shift its digits; and what is no digit at all is rebuilt and cannot be encoded. -/
theorem halfByte_shifts_payload :
    (∃ hydrated payload, hydrateUlnV2SentEvent sampleCrates (sampleEvent "0xabc") .none = .ok hydrated ∧
      hydrated.extra.get "guid" = .some (.string sampleGuid) ∧
      hydrated.extra.get "payload" = .some (.string payload) ∧
      decodeHexBytes sampleCrates.hex "0xabc" = .ok [0x0a, 0xbc] ∧
      decodeHexBytes sampleCrates.hex sampleGuid = .ok (List.replicate 32 17) ∧
      decodeHexBytes sampleCrates.hex payload ≠ .ok (List.replicate 32 17 ++ [0x0a, 0xbc])) ∧
    ∃ hydrated, hydrateUlnV2SentEvent sampleCrates (sampleEvent "zz") .none = .ok hydrated ∧
      ∀ packet, IsPacketOf hydrated packet → (encodeLzPacketV1 sampleCrates.toCrates packet).isOk = false := by
  refine ⟨⟨_, sampleGuid ++ (stripPrefix "0x" "0xabc").getD "0xabc", sampleEvent_hydrates _,
    get_hydratedExtra_guid (sampleEvent "0xabc").extra _ _ .none,
    get_hydratedExtra_payload (sampleEvent "0xabc").extra _ _ .none, ?_, decodeHexBytes_prefixed _, ?_⟩,
    ⟨_, sampleEvent_hydrates _, fun packet hpacket => ?_⟩⟩
  · decide +kernel
  · decide +kernel
  · have hmessage : packet.message = "zz" := hpacket.message
    have hread : decodeHexBytes sampleCrates.hex "zz" = Exec.err (.internal "Invalid character at position 0") := by
      decide +kernel
    rw [encodeLzPacketV1, hmessage, hread]
    rfl

theorem wholeBytes_hydrates : ∃ hydrated guid payload,
    hydrateUlnV2SentEvent sampleCrates (sampleEvent "0x0abc") .none = .ok hydrated ∧
    hydrated.extra.get "payload" = .some (.string payload) ∧
    decodeHexBytes sampleCrates.hex payload = .ok (guid ++ [0x0a, 0xbc]) := by
  obtain ⟨packet, -, -, -, hpayload, -⟩ := hydrated_guid (sampleEvent_hydrates "0x0abc")
  have hmessage : sampleCrates.hex.decode ((stripPrefix "0x" "0x0abc").getD "0x0abc") = .ok [0x0a, 0xbc] := by
    decide +kernel
  obtain ⟨-, guid, payload, -, hget, hread⟩ := hpayload _ hmessage
  exact ⟨_, guid.val, payload, sampleEvent_hydrates _, hget, hread⟩

end Pillar.Hydration
