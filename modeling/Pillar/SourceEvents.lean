/-
Source events (`pillar-runtime`, `layerzero_runtime/packet_resolver.rs`): what the
packets that a transaction emitted become, and which of them a message asks for.

The sent event of a packet is the packet field by field, so what is signed for it
later is the header and the payload of the bytes that were emitted
(`emitted_packetEvent`).
-/
import Pillar.PacketFacts
import Pillar.PayloadVote
import Pillar.RelayerOptions
import Pillar.Scan
import Pillar.ZeroSignal

namespace Pillar.SourceEvents

open Packet Hex Abi
open PacketSent (LzSentEvent LzMessageId lzMessageIdMatches)
open Quorum (mapErr)
open PayloadSigned (computeLzPacketV1ProofFromEvent extraString packetFromEvent pathwayExtraU32 pathwayExtraU64)

/-! ## Conversion -/

/-- What an emitted packet becomes: a sent event, nothing, or a fault of the source. -/
inductive SourceEventConversion (Sent : Type) where
  | converted (event : Sent)
  | notOurs
  | sourceFault (error : AppCoreError)

namespace SourceEventConversion

variable {Sent : Type}

def converted? : SourceEventConversion Sent → Option Sent
  | .converted event => .some event
  | _ => .none

def sourceFault? : SourceEventConversion Sent → Option AppCoreError
  | .sourceFault error => .some error
  | _ => .none

theorem converted?_eq_some {conversion : SourceEventConversion Sent} {event : Sent} :
    conversion.converted? = .some event ↔ conversion = .converted event := by
  cases conversion <;> simp [converted?]

end SourceEventConversion

section

variable {Event Sent : Type} (convert : Event → Exec AppCoreError (SourceEventConversion Sent)) (isAsked : Sent → Bool)
  (missing : AppCoreError)

/-- Every event is converted, an error ending it; then the first that is asked
for, or else the first fault, or else `missing`. -/
def resolve (events : List Event) : Exec AppCoreError Sent := do
  let conversions ← events.mapM convert
  outcome missing ((conversions.filterMap SourceEventConversion.converted?).find? isAsked)
    (conversions.findSome? SourceEventConversion.sourceFault?)

variable {convert isAsked missing}

/-- What a traversal gives, it gives for one of the elements. -/
theorem exists_of_mapM {α β ε : Type} {f : α → Except ε β} {as : List α} {bs : List β} (h : as.mapM f = .ok bs) {b : β}
    (hmem : b ∈ bs) : ∃ a ∈ as, f a = .ok b := by
  have hall := mapM_eq_ok_iff.mp h
  clear h
  induction hall with
  | nil => cases hmem
  | @cons a b' as bs hfirst _ ih =>
    rcases List.mem_cons.mp hmem with rfl | hmem
    · exact ⟨a, List.mem_cons_self, hfirst⟩
    · obtain ⟨other, hother, hgives⟩ := ih hmem
      exact ⟨other, List.mem_cons_of_mem _ hother, hgives⟩

/-- What is resolved was converted from one of the events, and is asked for. -/
theorem resolve_ok {events : List Event} {sent : Sent} (h : resolve convert isAsked missing events = .ok sent) :
    ∃ event ∈ events, convert event = .ok (.converted sent) ∧ isAsked sent = true := by
  obtain ⟨conversions, hconversions, h⟩ := Exec.bind_ok_iff.mp h
  have hfind := outcome_eq_ok.mp h
  obtain ⟨conversion, hmem, hsent⟩ := List.mem_filterMap.mp (List.mem_of_find?_eq_some hfind)
  obtain rfl := SourceEventConversion.converted?_eq_some.mp hsent
  obtain ⟨event, hevent, hconvert⟩ := exists_of_mapM hconversions hmem
  exact ⟨event, hevent, hconvert, List.find?_some hfind⟩

end

/-! ## Sent events -/

/-- The sent event of a packet between two chains. -/
def packetEvent (srcTxHash srcChainName dstChainName ulnSendVersion : String) (packet : LzPacketV1) (extra : Extra) :
    LzSentEvent where
  lzMessageId :=
    { pathwayId :=
        { srcChainName, dstChainName,
          extra := [("srcEid", .ofU32 packet.srcEid), ("dstEid", .ofU32 packet.dstEid),
            ("sender", .string packet.sender), ("receiver", .string packet.receiver)] }
      nonce := packet.nonce
      ulnSendVersion := .string ulnSendVersion }
  message := packet.message
  txHash := srcTxHash
  sourceEvidence := .none
  extra := extra

section

variable (env : PacketSent.Env) (config : PacketSent.Config)

theorem mapErr_eq_ok {ε ε' α : Type} {f : ε → ε'} {x : Exec ε α} {a : α} : mapErr f x = .ok a ↔ x = .ok a := by
  match x with
  | .ok b => simp [mapErr]
  | .error (.err e) => simp [mapErr, Exec.err]
  | .error .panic => simp [mapErr]
  | .error .fuel => simp [mapErr]

/-- A chain keeps the name it is configured with. -/
def chainNameForPacketEid (eid : UInt32) : Except AppCoreError String :=
  match (config.chainNameByEid eid).or (env.layerzeroLegacyChainName eid) with
  | .some name => .ok name
  | .none => .error (.internal s!"Invariant failed: Invalid endpointId: {eid}")

/-- `hex::decode`, and the options in the bytes. -/
def decodeMoveRelayerOptions (options dstChainName : String) : Except String Json := do
  let options ← env.hex.decode (PacketSent.stripHexPrefix options)
  RelayerOptions.decodeRelayerOptions env.hex env.bs58Encode options dstChainName false

/-- What `.._packet_to_lz_sent_event` makes of a packet, of Starknet and of Stellar;
`more` is what the event carries behind its guid and its options. -/
def packetToLzSentEvent (srcTxHash : String) (packet : LzPacketV1) (options : String) (more : Extra) :
    Exec AppCoreError (SourceEventConversion LzSentEvent) :=
  match config.chainNameByEid packet.srcEid with
  | .none => .ok (.sourceFault (.internal s!"No chain name for endpoint id {packet.srcEid}"))
  | .some srcChainName =>
    match chainNameForPacketEid env config packet.dstEid with
    | .error _ => .ok .notOurs
    | .ok dstChainName =>
      match decodeMoveRelayerOptions env options dstChainName with
      | .error error => Exec.err (.internal error)
      | .ok options =>
        .ok (.converted (packetEvent srcTxHash srcChainName dstChainName "V302" packet
          ([("guid", .string packet.guid), ("options", options)] ++ more)))

variable {env config}

theorem packetToLzSentEvent_converted {srcTxHash options : String} {packet : LzPacketV1} {more : Extra}
    {event : LzSentEvent} (h : packetToLzSentEvent env config srcTxHash packet options more = .ok (.converted event)) :
    ∃ srcChainName dstChainName options',
      event = packetEvent srcTxHash srcChainName dstChainName "V302" packet
        ([("guid", .string packet.guid), ("options", options')] ++ more) := by
  unfold packetToLzSentEvent at h
  split at h
  · cases h
  · split at h
    · cases h
    · split at h
      · cases h
      · cases h
        exact ⟨_, _, _, rfl⟩

end

/-- **What is signed for the event is what was emitted**: the values of the bytes
are the event's, and its proof is over their header and their payload. -/
structure Emitted (crates : Crates) (bytes : List UInt8) (v : PacketV1) (event : LzSentEvent) : Prop where
  encoded : bytes = v.encode
  packet : packetFromEvent event = .ok (v.text crates.hex)
  proof : computeLzPacketV1ProofFromEvent crates event =
    .ok ⟨hexText crates.hex v.header, keccak256Hex crates v.payload⟩

variable {crates : Crates}

theorem pathwayExtraU32_ofU32 {event : LzSentEvent} {key : String} {n : UInt32}
    (h : event.lzMessageId.pathwayId.extra.get key = .some (.ofU32 n)) : pathwayExtraU32 event key = .ok n := by
  rw [pathwayExtraU32, pathwayExtraU64, h, Option.bind_some, Json.asU64_ofU32]
  show (if n.toUInt64.toNat < 2 ^ 32 then _ else _) = _
  rw [UInt32.toNat_toUInt64, if_pos n.toNat_lt, UInt32.toUInt32_toUInt64]

theorem packetFromEvent_packetEvent {srcTxHash srcChainName dstChainName ulnSendVersion : String} {packet : LzPacketV1}
    {extra : Extra} (hguid : extra.get "guid" = .some (.string packet.guid)) :
    packetFromEvent (packetEvent srcTxHash srcChainName dstChainName ulnSendVersion packet extra) = .ok packet := by
  have hextra : extraString (packetEvent srcTxHash srcChainName dstChainName ulnSendVersion packet extra) "guid" =
      .ok packet.guid := by
    rw [extraString, packetEvent, hguid]
    rfl
  rw [packetFromEvent, @pathwayExtraU32_ofU32 _ "srcEid" packet.srcEid rfl,
    @pathwayExtraU32_ofU32 _ "dstEid" packet.dstEid rfl, hextra]
  rfl

theorem emitted_packetEvent {bytes : List UInt8} {srcTxHash srcChainName dstChainName ulnSendVersion : String}
    {packet : LzPacketV1} {extra : Extra}
    (hdecode : decodeLzPacketV1 crates.hex (hexText crates.hex bytes) = .ok packet) (hguid : extra.get "guid" = .some (.string packet.guid)) :
    ∃ v, Emitted crates bytes v (packetEvent srcTxHash srcChainName dstChainName ulnSendVersion packet extra) := by
  obtain ⟨v, hbytes, rfl⟩ := decodeLzPacketV1_eq_ok.mp hdecode
  have hprefixed : decodeHexBytes crates.hex (hexText crates.hex bytes) = .ok bytes := decodeHexBytes_prefixed bytes
  rw [hprefixed] at hbytes
  have hpacket := @packetFromEvent_packetEvent srcTxHash srcChainName dstChainName ulnSendVersion _ _ hguid
  refine ⟨v, Except.ok.inj hbytes, hpacket, ?_⟩
  rw [computeLzPacketV1ProofFromEvent, hpacket]
  exact (v.text_denotes crates).proof

end Pillar.SourceEvents
