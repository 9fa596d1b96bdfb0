/-
The packet codec loses nothing and adds nothing: what decodes encodes back to
the same bytes, what encodes decodes to the same values in their one spelling,
and the signed header is told apart by the fields it holds.
-/
import Pillar.AbiFacts
import Pillar.Cursor
import Pillar.Packet

namespace Pillar.Packet

open Bits Hex Abi

/-! ## The values of a packet -/

/-- What a packet's fields stand for. -/
structure PacketV1 where
  nonce : UInt64
  srcEid : UInt32
  sender : Bytes 32
  dstEid : UInt32
  receiver : Bytes 32
  guid : Bytes 32
  message : List UInt8

/-- The first 81 bytes: what the header of the signed call holds. -/
def PacketV1.header (v : PacketV1) : List UInt8 :=
  (beBytes 1 1).val ++ ((beBytes 8 v.nonce.toNat).val ++ ((beBytes 4 v.srcEid.toNat).val ++ (v.sender.val ++
    ((beBytes 4 v.dstEid.toNat).val ++ v.receiver.val))))

def PacketV1.encode (v : PacketV1) : List UInt8 := v.header ++ (v.guid.val ++ v.message)

/-- The packet with every value in its one spelling. -/
def PacketV1.text (hex : HexCrate) (v : PacketV1) : LzPacketV1 where
  nonce := v.nonce
  srcEid := v.srcEid
  sender := hexText hex v.sender.val
  dstEid := v.dstEid
  receiver := hexText hex v.receiver.val
  guid := hexText hex v.guid.val
  message := hexText hex v.message

structure LzPacketV1.Denotes (crates : Crates) (p : LzPacketV1) (v : PacketV1) : Prop where
  nonce : p.nonce = v.nonce
  srcEid : p.srcEid = v.srcEid
  sender : nativeAddressToBytes32 crates.hex crates.bs58 p.sender = .ok v.sender
  dstEid : p.dstEid = v.dstEid
  receiver : nativeAddressToBytes32 crates.hex crates.bs58 p.receiver = .ok v.receiver
  guid : decodeHex32 crates.hex p.guid = .ok v.guid
  message : decodeHexBytes crates.hex p.message = .ok v.message

@[simp] theorem PacketV1.length_header (v : PacketV1) : v.header.length = 81 := by
  simp only [header, List.length_append, Bytes.length_val]

/-- Packets with one header agree in the fields it holds. -/
theorem PacketV1.header_inj {v v' : PacketV1} : v.header = v'.header ↔
    v.nonce = v'.nonce ∧ v.srcEid = v'.srcEid ∧ v.dstEid = v'.dstEid ∧ v.sender = v'.sender ∧
      v.receiver = v'.receiver := by
  constructor
  · intro h
    have h := List.append_cancel_left h
    obtain ⟨hnonce, h⟩ := Bytes.append_inj h
    obtain ⟨hsrc, h⟩ := Bytes.append_inj h
    obtain ⟨hsender, h⟩ := Bytes.append_inj h
    obtain ⟨hdst, hreceiver⟩ := Bytes.append_inj h
    refine ⟨UInt64.toNat_inj.mp ?_, UInt32.toNat_inj.mp ?_, UInt32.toNat_inj.mp ?_, hsender, Subtype.ext hreceiver⟩
    · exact beBytes_injective v.nonce.toNat_lt v'.nonce.toNat_lt (congrArg Subtype.val hnonce)
    · exact beBytes_injective v.srcEid.toNat_lt v'.srcEid.toNat_lt (congrArg Subtype.val hsrc)
    · exact beBytes_injective v.dstEid.toNat_lt v'.dstEid.toNat_lt (congrArg Subtype.val hdst)
  · rintro ⟨hnonce, hsrc, hdst, hsender, hreceiver⟩
    rw [header, header, hnonce, hsrc, hdst, hsender, hreceiver]

/-! ## Encoding -/

theorem encodeLzPacketV1_eq_ok {crates : Crates} {p : LzPacketV1} {bytes : List UInt8} :
    encodeLzPacketV1 crates p = .ok bytes ↔ ∃ v, p.Denotes crates v ∧ bytes = v.encode := by
  unfold encodeLzPacketV1
  constructor
  · intro h
    obtain ⟨message, hmessage, h⟩ := Exec.bind_ok_iff.mp h
    obtain ⟨sender, hsender, h⟩ := Exec.bind_ok_iff.mp h
    obtain ⟨receiver, hreceiver, h⟩ := Exec.bind_ok_iff.mp h
    obtain ⟨guid, hguid, h⟩ := Exec.bind_ok_iff.mp h
    cases h
    refine ⟨⟨p.nonce, p.srcEid, sender, p.dstEid, receiver, guid, message⟩,
      ⟨rfl, rfl, hsender, rfl, hreceiver, hguid, hmessage⟩, ?_⟩
    simp only [PacketV1.encode, PacketV1.header, List.append_assoc]
    rfl
  · rintro ⟨v, hv, rfl⟩
    rw [hv.message, Exec.ok_bind, hv.sender, Exec.ok_bind, hv.receiver, Exec.ok_bind, hv.guid, Exec.ok_bind,
      hv.nonce, hv.srcEid, hv.dstEid]
    simp only [PacketV1.encode, PacketV1.header, List.append_assoc]
    rfl

/-- A hexadecimal address of up to 32 bytes, with zeros in front. -/
theorem nativeAddressToBytes32_of_hex {crates : Crates} {value : String} {bytes : List UInt8} {out : Bytes 32}
    (h : decodeHexBytes crates.hex value = .ok bytes) (hout : out.val = List.replicate (32 - bytes.length) 0 ++ bytes) :
    nativeAddressToBytes32 crates.hex crates.bs58 value = .ok out := by
  have hfits : ¬ bytes.length > 32 := by
    have hlen := congrArg List.length hout
    rw [Bytes.length_val, List.length_append, List.length_replicate] at hlen
    omega
  have haddress : addressToBytes32 crates.hex value = .ok out := by
    rw [addressToBytes32, h, Exec.ok_bind, dif_neg hfits]
    exact congrArg _ (Subtype.ext hout.symm)
  rw [nativeAddressToBytes32, haddress]
  rfl

theorem nativeAddressToBytes32_text {crates : Crates} (bytes : Bytes 32) :
    nativeAddressToBytes32 crates.hex crates.bs58 (hexText crates.hex bytes.val) = .ok bytes := by
  refine nativeAddressToBytes32_of_hex (decodeHexBytes_prefixed bytes.val) ?_
  rw [bytes.length_val]
  rfl

/-- The one spelling of values stands for them. -/
theorem PacketV1.text_denotes (crates : Crates) (v : PacketV1) : (v.text crates.hex).Denotes crates v where
  nonce := rfl
  srcEid := rfl
  sender := nativeAddressToBytes32_text v.sender
  dstEid := rfl
  receiver := nativeAddressToBytes32_text v.receiver
  guid := decodeHexArray_eq_ok.mpr (decodeHexBytes_prefixed _)
  message := decodeHexBytes_prefixed _

/-! ## Decoding -/

theorem fromBeBytes_beBytes {n value : Nat} {error : String} (h : value < 256 ^ n) :
    fromBeBytes n error (beBytes n value).val = .ok value := by
  rw [fromBeBytes, if_pos (Bytes.length_val _)]
  exact congrArg _ (ofBytes_bytesOf h)

/-- Where the fields stand in the encoding. -/
theorem PacketV1.at_encode (v : PacketV1) :
    At v.encode 0 v.header ∧ At v.encode 1 (beBytes 8 v.nonce.toNat).val ∧
    At v.encode 9 (beBytes 4 v.srcEid.toNat).val ∧ At v.encode 13 v.sender.val ∧
    At v.encode 45 (beBytes 4 v.dstEid.toNat).val ∧ At v.encode 49 v.receiver.val ∧
    At v.encode 81 v.guid.val ∧ At v.encode 113 v.message ∧ At v.encode 81 (v.guid.val ++ v.message) := by
  have hall : At v.encode 0 (v.header ++ (v.guid.val ++ v.message)) := List.prefix_refl _
  have hheader : At v.encode 0 v.header := hall.left
  have htail : At v.encode 81 (v.guid.val ++ v.message) := by
    simpa only [length_header] using hall.right
  have hnonce := hheader.right
  have hsrc := hnonce.right
  have hsender := hsrc.right
  have hdst := hsender.right
  have hreceiver := hdst.right
  have hmessage := htail.right
  simp only [Bytes.length_val] at hnonce hsrc hsender hdst hreceiver hmessage
  exact ⟨hheader, hnonce.left, hsrc.left, hsender.left, hdst.left, hreceiver, htail.left, hmessage, htail⟩

theorem PacketV1.length_encode (v : PacketV1) : v.encode.length = 113 + v.message.length := by
  simp only [encode, List.length_append, length_header, Bytes.length_val]
  omega

theorem decodeFields_encode (hex : HexCrate) (v : PacketV1) : decodeFields hex v.encode = .ok (v.text hex) := by
  obtain ⟨-, hnonce, hsrc, hsender, hdst, hreceiver, hguid, hmessage, -⟩ := v.at_encode
  have hlen := v.length_encode
  unfold decodeFields
  rw [slice_of_at hnonce (by omega) (by rw [Bytes.length_val]), Exec.ok_bind,
    fromBeBytes_beBytes v.nonce.toNat_lt, Exec.ok_bind,
    slice_of_at hsrc (by omega) (by rw [Bytes.length_val]), Exec.ok_bind,
    fromBeBytes_beBytes v.srcEid.toNat_lt, Exec.ok_bind,
    slice_of_at hsender (by omega) (by rw [Bytes.length_val]), Exec.ok_bind,
    slice_of_at hdst (by omega) (by rw [Bytes.length_val]), Exec.ok_bind,
    fromBeBytes_beBytes v.dstEid.toNat_lt, Exec.ok_bind,
    slice_of_at hreceiver (by omega) (by rw [Bytes.length_val]), Exec.ok_bind,
    slice_of_at hguid (by omega) (by rw [Bytes.length_val]), Exec.ok_bind,
    slice_of_at hmessage (by omega) hlen, Exec.ok_bind]
  simp only [PacketV1.text, UInt64.ofNat_toNat, UInt32.ofNat_toNat]

theorem exists_bytes_append {n : Nat} {l : List UInt8} (h : n ≤ l.length) :
    ∃ (b : Bytes n) (rest : List UInt8), l = b.val ++ rest :=
  ⟨⟨l.take n, List.length_take_of_le h⟩, l.drop n, (List.take_append_drop n l).symm⟩

theorem exists_beBytes {n : Nat} (b : Bytes n) : ∃ value < 256 ^ n, b = beBytes n value := by
  refine ⟨ofBytes b.val, ?_, Subtype.ext ?_⟩
  · have := ofBytes_lt b.val
    rwa [b.length_val] at this
  · have := bytesOf_ofBytes b.val
    rw [b.length_val] at this
    exact this.symm

/-- Long enough bytes of version 1 are the encoding of some values. -/
theorem exists_encode {bytes : List UInt8} (hlen : 113 ≤ bytes.length) (hversion : bytes[0]? = .some 1) :
    ∃ v : PacketV1, bytes = v.encode := by
  obtain ⟨version, l, rfl⟩ := exists_bytes_append (n := 1) (by omega : 1 ≤ bytes.length)
  have hone : version = beBytes 1 1 := by
    obtain ⟨b, hb⟩ := List.length_eq_one_iff.mp version.property
    rw [hb, List.singleton_append, List.getElem?_cons_zero, Option.some.injEq] at hversion
    exact Subtype.ext (by rw [hb, hversion]; rfl)
  simp only [List.length_append, Bytes.length_val] at hlen
  obtain ⟨nonce, l, rfl⟩ := exists_bytes_append (n := 8) (by omega : 8 ≤ l.length)
  simp only [List.length_append, Bytes.length_val] at hlen
  obtain ⟨src, l, rfl⟩ := exists_bytes_append (n := 4) (by omega : 4 ≤ l.length)
  simp only [List.length_append, Bytes.length_val] at hlen
  obtain ⟨sender, l, rfl⟩ := exists_bytes_append (n := 32) (by omega : 32 ≤ l.length)
  simp only [List.length_append, Bytes.length_val] at hlen
  obtain ⟨dst, l, rfl⟩ := exists_bytes_append (n := 4) (by omega : 4 ≤ l.length)
  simp only [List.length_append, Bytes.length_val] at hlen
  obtain ⟨receiver, l, rfl⟩ := exists_bytes_append (n := 32) (by omega : 32 ≤ l.length)
  simp only [List.length_append, Bytes.length_val] at hlen
  obtain ⟨guid, message, rfl⟩ := exists_bytes_append (n := 32) (by omega : 32 ≤ l.length)
  obtain ⟨nonce, hnonce, rfl⟩ := exists_beBytes nonce
  obtain ⟨src, hsrc, rfl⟩ := exists_beBytes src
  obtain ⟨dst, hdst, rfl⟩ := exists_beBytes dst
  refine ⟨⟨.ofNat nonce, .ofNat src, sender, .ofNat dst, receiver, guid, message⟩, ?_⟩
  simp only [PacketV1.encode, PacketV1.header, List.append_assoc, hone, UInt64.toNat_ofNat_of_lt' hnonce,
    UInt32.toNat_ofNat_of_lt' hsrc, UInt32.toNat_ofNat_of_lt' hdst]

theorem PacketV1.version_encode (v : PacketV1) : v.encode[0]? = .some 1 := rfl

theorem decodeLzPacketV1_eq_ok {hex : HexCrate} {x : String} {p : LzPacketV1} :
    decodeLzPacketV1 hex x = .ok p ↔ ∃ v : PacketV1, decodeHexBytes hex x = .ok v.encode ∧ p = v.text hex := by
  unfold decodeLzPacketV1
  constructor
  · intro h
    obtain ⟨bytes, hbytes, h⟩ := Exec.bind_ok_iff.mp h
    split at h
    next => cases h
    next hlen =>
      obtain ⟨version, hversion, h⟩ := Exec.bind_ok_iff.mp h
      rw [Exec.get_eq_ok] at hversion
      split at h
      next => cases h
      next hone =>
        obtain ⟨v, rfl⟩ := exists_encode (not_lt.mp hlen) (hversion.trans (congrArg _ (not_not.mp hone)))
        rw [decodeFields_encode] at h
        cases h
        exact ⟨v, hbytes, rfl⟩
  · rintro ⟨v, hv, rfl⟩
    have hlen : ¬ v.encode.length < 113 := by
      rw [v.length_encode]
      omega
    rw [hv, Exec.ok_bind, if_neg hlen, v.version_encode, Exec.get_some, Exec.ok_bind, if_neg (not_not.mpr rfl),
      decodeFields_encode]

/-! ## Proofs -/

/-- The payload of the signed hash: the message of a read, else guid and message. -/
def PacketV1.payload (v : PacketV1) : List UInt8 :=
  if isLzReadEndpointId v.srcEid then v.message else v.guid.val ++ v.message

theorem LzPacketV1.Denotes.proof {crates : Crates} {p : LzPacketV1} {v : PacketV1} (h : p.Denotes crates v) :
    computeLzPacketV1Proof crates p =
      .ok ⟨hexText crates.hex v.header, keccak256Hex crates v.payload⟩ := by
  obtain ⟨hheader, -, -, -, -, -, -, hmessage, htail⟩ := v.at_encode
  have hlen := v.length_encode
  have htailLen : v.encode.length = 81 + (v.guid.val ++ v.message).length := by
    rw [hlen, List.length_append, Bytes.length_val]
    omega
  rw [computeLzPacketV1Proof, encodeLzPacketV1_eq_ok.mpr ⟨v, h, rfl⟩, Exec.ok_bind,
    slice_of_at hheader (Nat.zero_le _) (by rw [v.length_header]), Exec.ok_bind, h.srcEid, PacketV1.payload]
  split
  · rw [slice_of_at hmessage (by omega) hlen, Exec.ok_bind]
  · rw [slice_of_at htail (by omega) htailLen, Exec.ok_bind]

/-- A packet with a proof has values. -/
theorem denotes_of_proof {crates : Crates} {p : LzPacketV1} {proof : EvmUlnProof}
    (h : computeLzPacketV1Proof crates p = .ok proof) : ∃ v, p.Denotes crates v := by
  obtain ⟨bytes, hbytes, -⟩ := Exec.bind_ok_iff.mp h
  obtain ⟨v, hv, -⟩ := encodeLzPacketV1_eq_ok.mp hbytes
  exact ⟨v, hv⟩

/-- **The packet codec is a bijection on its image.** A text that decodes is
hex of bytes that its packet encodes to; a packet that encodes decodes, from
the hex of its encoding with or without `0x`, to the same nonce and endpoint
ids and to the lowercase hex of the values its other fields stand for; the
header of a packet's proof is the first 81 bytes; and two headers are the same
just when nonce, endpoint ids, sender and receiver are. -/
theorem lzPacketV1_codec (crates : Crates) :
    (∀ x p, decodeLzPacketV1 crates.hex x = .ok p →
      ∃ bytes, decodeHexBytes crates.hex x = .ok bytes ∧ encodeLzPacketV1 crates p = .ok bytes) ∧
    (∀ p bytes, encodeLzPacketV1 crates p = .ok bytes →
      ∃ sender receiver guid message,
        nativeAddressToBytes32 crates.hex crates.bs58 p.sender = .ok sender ∧
        nativeAddressToBytes32 crates.hex crates.bs58 p.receiver = .ok receiver ∧
        decodeHex32 crates.hex p.guid = .ok guid ∧ decodeHexBytes crates.hex p.message = .ok message ∧
        ∀ x, x = crates.hex.encode bytes ∨ x = "0x" ++ crates.hex.encode bytes →
          decodeLzPacketV1 crates.hex x = .ok
            { nonce := p.nonce, srcEid := p.srcEid, sender := "0x" ++ crates.hex.encode sender.val,
              dstEid := p.dstEid, receiver := "0x" ++ crates.hex.encode receiver.val,
              guid := "0x" ++ crates.hex.encode guid.val, message := "0x" ++ crates.hex.encode message }) ∧
    (∀ p bytes, encodeLzPacketV1 crates p = .ok bytes →
      ∃ proof, computeLzPacketV1Proof crates p = .ok proof ∧
        proof.packetHeader = "0x" ++ crates.hex.encode (bytes.take 81)) ∧
    (∀ p p' proof proof', computeLzPacketV1Proof crates p = .ok proof →
      computeLzPacketV1Proof crates p' = .ok proof' →
      (proof.packetHeader = proof'.packetHeader ↔
        p.nonce = p'.nonce ∧ p.srcEid = p'.srcEid ∧ p.dstEid = p'.dstEid ∧
        nativeAddressToBytes32 crates.hex crates.bs58 p.sender =
          nativeAddressToBytes32 crates.hex crates.bs58 p'.sender ∧
        nativeAddressToBytes32 crates.hex crates.bs58 p.receiver =
          nativeAddressToBytes32 crates.hex crates.bs58 p'.receiver)) := by
  refine ⟨?_, ?_, ?_, ?_⟩
  · intro x p h
    obtain ⟨v, hv, rfl⟩ := decodeLzPacketV1_eq_ok.mp h
    exact ⟨v.encode, hv, encodeLzPacketV1_eq_ok.mpr ⟨v, v.text_denotes crates, rfl⟩⟩
  · intro p bytes h
    obtain ⟨v, hv, rfl⟩ := encodeLzPacketV1_eq_ok.mp h
    refine ⟨v.sender, v.receiver, v.guid, v.message, hv.sender, hv.receiver, hv.guid, hv.message, fun x hx => ?_⟩
    have hbytes : decodeHexBytes crates.hex x = .ok v.encode := by
      rcases hx with rfl | rfl
      · exact decodeHexBytes_encode _
      · exact decodeHexBytes_prefixed _
    rw [decodeLzPacketV1_eq_ok.mpr ⟨v, hbytes, rfl⟩, hv.nonce, hv.srcEid, hv.dstEid]
    rfl
  · intro p bytes h
    obtain ⟨v, hv, rfl⟩ := encodeLzPacketV1_eq_ok.mp h
    refine ⟨_, hv.proof, ?_⟩
    rw [PacketV1.encode, List.take_left' v.length_header]
    rfl
  · intro p p' proof proof' h h'
    obtain ⟨v, hv⟩ := denotes_of_proof h
    obtain ⟨v', hv'⟩ := denotes_of_proof h'
    rw [hv.proof] at h
    rw [hv'.proof] at h'
    cases h
    cases h'
    have hheader : hexText crates.hex v.header = hexText crates.hex v'.header ↔ v.header = v'.header :=
      ⟨prefixed_injective, congrArg _⟩
    rw [hheader, PacketV1.header_inj, hv.nonce, hv.srcEid, hv.dstEid, hv.sender, hv.receiver, hv'.nonce, hv'.srcEid,
      hv'.dstEid, hv'.sender, hv'.receiver, Except.ok.injEq, Except.ok.injEq]

/-- Keccak-256 of no bytes. -/
def emptyKeccak : Bytes 32 :=
  ⟨[0xc5, 0xd2, 0x46, 0x01, 0x86, 0xf7, 0x23, 0x3c, 0x92, 0x7e, 0x7d, 0xb2, 0xdc, 0xc7, 0x03, 0xc0,
    0xe5, 0x00, 0xb6, 0x53, 0xca, 0x82, 0x27, 0x3b, 0x7b, 0xfa, 0xd8, 0x04, 0x5d, 0x85, 0xa4, 0x70], rfl⟩

/-- Crates for a packet with an empty payload and no base58 in it. -/
def emptyCrates : Crates := ⟨.plain, fun _ => .error "provided string was not valid base58", fun _ => emptyKeccak⟩

def emptyRead : PacketV1 where
  nonce := 7
  srcEid := 4294967295
  sender := ⟨List.replicate 12 0 ++ List.replicate 20 10, rfl⟩
  dstEid := 30101
  receiver := ⟨List.replicate 32 11, rfl⟩
  guid := ⟨List.replicate 32 12, rfl⟩
  message := []

/-- A read with its sender as the twenty bytes of an EVM address. -/
def shortSender : LzPacketV1 :=
  { emptyRead.text .plain with sender := HexCrate.plain.encode (List.replicate 20 10) }

theorem shortSender_denotes : shortSender.Denotes emptyCrates emptyRead where
  __ := emptyRead.text_denotes emptyCrates
  sender := nativeAddressToBytes32_of_hex (decodeHexBytes_encode _) rfl

/-- The short sender comes back with its zeros, and both spellings have one header. -/
theorem lzPacketV1_codec_shortSender :
    (∃ bytes, encodeLzPacketV1 emptyCrates shortSender = .ok bytes ∧
      (decodeLzPacketV1 .plain ("0x" ++ HexCrate.plain.encode bytes)).isOk = true) ∧
    ∃ proof proof', computeLzPacketV1Proof emptyCrates shortSender = .ok proof ∧
      computeLzPacketV1Proof emptyCrates (emptyRead.text .plain) = .ok proof' ∧
      proof.packetHeader = proof'.packetHeader := by
  obtain ⟨-, hdecode, -, hheader⟩ := lzPacketV1_codec emptyCrates
  have hencode := encodeLzPacketV1_eq_ok.mpr ⟨emptyRead, shortSender_denotes, rfl⟩
  have hproof := shortSender_denotes.proof
  have hproof' := (emptyRead.text_denotes emptyCrates).proof
  refine ⟨⟨_, hencode, ?_⟩, _, _, hproof, hproof', ?_⟩
  · obtain ⟨sender, receiver, guid, message, -, -, -, -, hdecode⟩ := hdecode _ _ hencode
    have hx := hdecode _ (.inr rfl)
    rw [emptyCrates] at hx
    rw [hx]
    rfl
  · refine (hheader _ _ _ _ hproof hproof').mpr ⟨rfl, rfl, rfl, ?_, rfl⟩
    exact shortSender_denotes.sender.trans (emptyRead.text_denotes emptyCrates).sender.symm

end Pillar.Packet
