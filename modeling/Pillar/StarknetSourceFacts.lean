/-
What a quorum of Starknet's providers makes of a transaction: whoever voted told a
receipt in which a trusted endpoint emitted the packet that is signed for, and the
same event is read of each of them.
-/
import Pillar.EvmPayloadFacts
import Pillar.IndexMap
import Pillar.PacketSentFacts
import Pillar.StarknetPayloadFacts
import Pillar.StarknetSource

namespace Pillar.StarknetSource

open Packet Text Hex SourceEvents
open Quorum (mapErr)
open PacketSent (LzSentEvent LzMessageId lzMessageIdMatches packetDoesNotMatch)
open Readiness (StarknetSourceEvidence numericHeight)
open SerdeText (Numbered)

/-! ## What is read of a receipt -/

/-- A field that reads nothing of `null` does not tell it from a missing one. -/
theorem bind_of_getD {α : Type} {f : Json → Option α} (hf : f .null = .none) {o o' : Option Json}
    (h : o.getD .null = o'.getD .null) : o.bind f = o'.bind f := by
  cases o <;> cases o' <;> simp_all

/-- Two receipts that differ in nothing that is read of them. -/
structure SameRead (receipt receipt' : Json) : Prop where
  accepted : isAccepted receipt = isAccepted receipt'
  field : ∀ key ∈ ["execution_status", "transaction_hash", "block_hash", "block_number", "events"],
    (receipt.get key).getD .null = (receipt'.get key).getD .null

section

variable {receipt receipt' : Json}

theorem SameRead.symm (h : SameRead receipt receipt') : SameRead receipt' receipt :=
  ⟨h.accepted.symm, fun key hkey => (h.field key hkey).symm⟩

theorem SameRead.trans {receipt'' : Json} (h : SameRead receipt receipt') (h' : SameRead receipt' receipt'') :
    SameRead receipt receipt'' :=
  ⟨h.accepted.trans h'.accepted, fun key hkey => (h.field key hkey).trans (h'.field key hkey)⟩

theorem SameRead.str (h : SameRead receipt receipt') {key : String}
    (hkey : key ∈ ["execution_status", "transaction_hash", "block_hash", "block_number", "events"]) :
    (receipt.get key).bind Json.asStr = (receipt'.get key).bind Json.asStr :=
  bind_of_getD rfl (h.field key hkey)

theorem SameRead.blockNumber (h : SameRead receipt receipt') : blockNumberOf receipt = blockNumberOf receipt' := by
  rw [blockNumberOf, blockNumberOf, numericHeight, numericHeight, bind_of_getD rfl (h.field "block_number" (by decide))]

theorem SameRead.events (h : SameRead receipt receipt') : eventsOf receipt = eventsOf receipt' := by
  rw [eventsOf, eventsOf, bind_of_getD rfl (h.field "events" (by decide))]

theorem SameRead.check (h : SameRead receipt receipt') (srcTxHash : String) :
    checkReceipt srcTxHash receipt = checkReceipt srcTxHash receipt' := by
  have haccepted := h.accepted
  unfold isAccepted at haccepted
  unfold checkReceipt
  rw [h.str (by decide : "execution_status" ∈ _), haccepted, h.str (by decide : "transaction_hash" ∈ _),
    h.str (by decide : "block_hash" ∈ _), h.blockNumber]

theorem SameRead.decode (h : SameRead receipt receipt') (crates : Crates) (event : Json × Nat) :
    decodeStarknetPacketSentEvent crates receipt event = decodeStarknetPacketSentEvent crates receipt' event := by
  unfold decodeStarknetPacketSentEvent
  rw [h.str (by decide : "block_hash" ∈ _), h.blockNumber, h.str (by decide : "transaction_hash" ∈ _)]

/-- **What is not read does not matter.** -/
theorem SameRead.sentEvent (h : SameRead receipt receipt') (crates : Crates) (config : PacketSent.Config)
    (trustedEndpointAddresses : List String) (lzMessageId : LzMessageId) (srcTxHash : String) :
    sentEventOfReceipt crates config trustedEndpointAddresses lzMessageId srcTxHash receipt =
      sentEventOfReceipt crates config trustedEndpointAddresses lzMessageId srcTxHash receipt' := by
  have hdecode : decodeStarknetPacketSentEvent crates receipt = decodeStarknetPacketSentEvent crates receipt' :=
    funext (h.decode crates)
  rw [sentEventOfReceipt, sentEventOfReceipt, decodeStarknetPacketSentEvents, decodeStarknetPacketSentEvents,
    h.check, h.events, hdecode]

theorem sameRead_of_voted (h : votedReceipt receipt = votedReceipt receipt') : SameRead receipt receipt' := by
  simp only [votedReceipt, Json.array.injEq, List.cons.injEq, Json.bool.injEq, and_true] at h
  obtain ⟨hexecution, haccepted, -, hhash, hblock, hnumber, hevents⟩ := h
  refine ⟨haccepted, fun key hkey => ?_⟩
  simp only [List.mem_cons, List.not_mem_nil, or_false] at hkey
  rcases hkey with rfl | rfl | rfl | rfl | rfl <;> assumption

theorem get_projectFields {keys : List String} {key : String} (h : key ∈ keys) (value : Json) :
    (projectFields keys value).get key = value.get key := by
  cases value with
  | object entries =>
    show (entries.filter fun entry => keys.contains entry.1).lookup key = entries.lookup key
    have hfilter := @IndexMap.lookup_filter Json (fun key => keys.contains key) key entries
    rw [hfilter, if_pos (List.contains_iff_mem.mpr h)]
  | _ => rfl

theorem sameRead_project (receipt : Json) : SameRead (projectFields receiptFields receipt) receipt := by
  have hread : ∀ key ∈ ["execution_status", "transaction_hash", "block_hash", "block_number", "events"],
      key ∈ receiptFields := by decide
  refine ⟨?_, fun key hkey => ?_⟩
  · rw [isAccepted, isAccepted, get_projectFields (by decide)]
  · rw [get_projectFields (hread key hkey)]

end

/-! ## Those who vote alike -/

section

variable {value : Json}

theorem numbered_field (h : Numbered value) (key : String) : Numbered ((value.get key).getD .null) := by
  cases h with
  | @object entries hentries =>
    show Numbered ((entries.lookup key).getD .null)
    cases hlookup : entries.lookup key with
    | none => exact .null
    | some field =>
      obtain ⟨front, back, rfl, -⟩ := List.lookup_eq_some_iff.mp hlookup
      exact hentries (key, field) (by simp)
  | _ => exact .null

theorem numbered_projectFields (h : Numbered value) (keys : List String) : Numbered (projectFields keys value) := by
  cases h with
  | object hentries => exact .object fun entry hentry => hentries entry (List.mem_filter.mp hentry).1
  | null => exact .null
  | bool b => exact .bool b
  | number hn => exact .number hn
  | string s => exact .string s
  | array hvalues => exact .array hvalues

theorem numbered_votedReceipt (h : Numbered value) : Numbered (votedReceipt value) := by
  refine .array fun field hfield => ?_
  simp only [List.mem_cons, List.not_mem_nil, or_false] at hfield
  rcases hfield with rfl | rfl | rfl | rfl | rfl | rfl | rfl
  · exact numbered_field h _
  · exact .bool _
  · split
    · exact .null
    · exact numbered_field h _
  all_goals exact numbered_field h _

variable {fingerprints : SerdeText.Fingerprints} {result result' told told' : Json} {key : String}

/-- Two receipts whose votes are one by a collision. -/
def Confused (fingerprints : SerdeText.Fingerprints) (result result' : Json) : Prop :=
  fingerprints.Collide (votedReceipt (projectFields receiptFields result))
    (votedReceipt (projectFields receiptFields result'))

theorem fingerprint_ne_null (value : Json) : fingerprints.fingerprint value ≠ "null" := by
  intro h
  have hlength : (fingerprints.fingerprint value).toList.length = 64 := SerdeText.Fingerprints.length_fingerprint value
  rw [h] at hlength
  exact absurd hlength (by decide)

theorem eq_null_of_isNull (h : value.isNull = true) : value = .null := by
  cases value <;> first | rfl | simp [Json.isNull] at h

/-- **Results voted alike are read alike**, or are confused. -/
theorem resultVote_alike (h : Numbered result) (h' : Numbered result')
    (hvote : resultVote fingerprints result = (key, told)) (hvote' : resultVote fingerprints result' = (key, told')) :
    SameRead result told' ∨ Confused fingerprints result result' := by
  unfold resultVote at hvote hvote'
  split at hvote
  · next hnull =>
    split at hvote'
    · next hnull' =>
      cases hvote
      cases hvote'
      rw [eq_null_of_isNull hnull, eq_null_of_isNull hnull']
      exact .inl ⟨rfl, fun _ _ => rfl⟩
    · cases hvote
      exact absurd (Prod.mk.inj hvote').1 (fingerprint_ne_null _)
  · split at hvote'
    · cases hvote'
      exact absurd (Prod.mk.inj hvote).1 (fingerprint_ne_null _)
    · obtain ⟨hkey, -⟩ := Prod.mk.inj hvote
      obtain ⟨hkey', rfl⟩ := Prod.mk.inj hvote'
      rcases SerdeText.Fingerprints.eq_or_collide (numbered_votedReceipt (numbered_projectFields h _))
        (numbered_votedReceipt (numbered_projectFields h' _)) (hkey.trans hkey'.symm) with heq | hcollide
      · exact .inl ((sameRead_project result).symm.trans (sameRead_of_voted heq))
      · exact .inr hcollide

end

/-! ## What is resolved -/

section

variable {fingerprints : SerdeText.Fingerprints} {crates : Crates} {config : PacketSent.Config}
  {trustedEndpointAddresses : List String} {providers : PayloadSigned.Providers}
  {answers : Nat → Except RpcError Parsed} {lzMessageId : LzMessageId} {srcTxHash : String} {sent : StarknetSentEvent}

/-- A trusted endpoint emitted, in this receipt, the packet of `sent`. -/
structure Emits (crates : Crates) (trustedEndpointAddresses : List String) (receipt : Json) (sent : StarknetSentEvent) :
    Prop where
  trusted : isPacketSent trustedEndpointAddresses sent.starknetEvidence.event = true
  position : (eventsOf receipt)[sent.starknetEvidence.eventIndex.toNat]? = .some sent.starknetEvidence.event
  emitted : ∃ bytes options v, packetAndOptionsOf crates sent.starknetEvidence.event = .ok (bytes, options) ∧
    Emitted crates.toCrates bytes v sent.toLzSentEvent

theorem okOr_eq_ok {ε α : Type} {error : ε} {value : Option α} {a : α} :
    okOr error value = .ok a ↔ value = .some a := by
  cases value <;> simp [okOr, Exec.err]

theorem toNat_of_toUInt64 {n : Nat} {index : UInt64} (h : toUInt64 n = .some index) : index.toNat = n := by
  unfold toUInt64 at h
  split at h
  · next hlt =>
    cases h
    exact UInt64.toNat_ofNat_of_lt' hlt
  · cases h

theorem withEvidence_converted {evidence : StarknetSourceEvidence} {conversion : SourceEventConversion LzSentEvent}
    (h : withEvidence evidence conversion = .converted sent) :
    ∃ event, conversion = .converted event ∧ sent = ⟨event, evidence⟩ := by
  cases conversion with
  | converted event =>
    cases h
    exact ⟨event, rfl, rfl⟩
  | notOurs => cases h
  | sourceFault error => cases h

theorem sentEventOfReceipt_ok {receipt : Json}
    (h : sentEventOfReceipt crates config trustedEndpointAddresses lzMessageId srcTxHash receipt = .ok sent) :
    lzMessageIdMatches crates.toEnv lzMessageId sent.lzMessageId = true ∧
      Emits crates trustedEndpointAddresses receipt sent := by
  obtain ⟨-, -, h⟩ := Exec.bind_ok_iff.mp h
  obtain ⟨events, hevents, h⟩ := Exec.bind_ok_iff.mp h
  obtain ⟨packetSent, hmem, hconverted, hasked⟩ := resolve_ok h
  refine ⟨hasked, ?_⟩
  obtain ⟨⟨event, index⟩, hevent, hdecode⟩ := exists_of_mapM (mapErr_eq_ok.mp hevents) hmem
  obtain ⟨hevent, htrusted⟩ := List.mem_filter.mp hevent
  -- The event is the packet that is in its data, with itself as evidence.
  obtain ⟨sendLibrary, -, hdecode⟩ := Exec.bind_ok_iff.mp hdecode
  obtain ⟨⟨bytes, options⟩, hbytes, hdecode⟩ := Exec.bind_ok_iff.mp hdecode
  obtain ⟨packet, hpacket, hdecode⟩ := Exec.bind_ok_iff.mp hdecode
  obtain ⟨blockHash, -, hdecode⟩ := Exec.bind_ok_iff.mp hdecode
  obtain ⟨blockNumber, -, hdecode⟩ := Exec.bind_ok_iff.mp hdecode
  obtain ⟨transactionHash, -, hdecode⟩ := Exec.bind_ok_iff.mp hdecode
  obtain ⟨eventIndex, hindex, hdecode⟩ := Exec.bind_ok_iff.mp hdecode
  cases hdecode
  obtain ⟨conversion, hconversion, hevidence⟩ := Exec.bind_ok_iff.mp hconverted
  obtain ⟨event', rfl, rfl⟩ := withEvidence_converted (Except.ok.inj hevidence)
  obtain ⟨srcChainName, dstChainName, options', rfl⟩ := packetToLzSentEvent_converted hconversion
  have hguid : Extra.get ([("guid", .string packet.guid), ("options", options')] ++
      [("sendLibrary", .string sendLibrary), ("packetEmitAddress", .string ((fromAddress event).getD ""))]) "guid" =
        .some (.string packet.guid) := rfl
  obtain ⟨v, hemitted⟩ := emitted_packetEvent (mapErr_eq_ok.mp hpacket) hguid
  have hposition := List.mk_mem_zipIdx_iff_getElem?.mp hevent
  have hindex : toUInt64 index = .some eventIndex := okOr_eq_ok.mp hindex
  rw [← toNat_of_toUInt64 hindex] at hposition
  exact ⟨htrusted, hposition, bytes, options, v, hbytes, hemitted⟩

/-- What provider `i` told of the transaction. -/
def Told (answers : Nat → Except RpcError Parsed) (i : Nat) (result : Json) : Prop :=
  ∃ response, answers i = .ok response ∧ response.val.get "result" = .some result

theorem Told.numbered {i : Nat} {result : Json} (h : Told answers i result) : Numbered result := by
  obtain ⟨response, -, hresult⟩ := h
  have hfield := numbered_field response.property "result"
  rwa [hresult] at hfield

theorem receiptVote_ok {i : Nat} {vote : String × Json} (h : receiptVote fingerprints (answers i) = .ok (.some vote)) :
    ∃ result, Told answers i result ∧ resultVote fingerprints result = vote := by
  unfold receiptVote at h
  cases hanswer : answers i with
  | ok response =>
    rw [hanswer] at h
    obtain ⟨result, hresult, hvote⟩ := Option.map_eq_some_iff.mp (Except.ok.inj h)
    exact ⟨result, ⟨response, hanswer, hresult⟩, hvote⟩
  | error e =>
    rw [hanswer] at h
    cases e <;> cases h

/-- A quorum whose voters each told a receipt that gives `sent`, emitted by a
trusted endpoint in it; or two of them told receipts that a collision confuses. -/
def AgreedOn (fingerprints : SerdeText.Fingerprints) (crates : Crates) (config : PacketSent.Config)
    (trustedEndpointAddresses : List String) (providers : PayloadSigned.Providers)
    (answers : Nat → Except RpcError Parsed) (lzMessageId : LzMessageId) (srcTxHash : String)
    (sent : StarknetSentEvent) : Prop :=
  ∃ quorum order voters, providers.dispatch "starknet" = .ok (quorum, order) ∧ Quorum.MetBy quorum voters ∧
    voters ≠ [] ∧ voters ⊆ order ∧
    ((∀ i ∈ voters, ∃ receipt, Told answers i receipt ∧
        sentEventOfReceipt crates config trustedEndpointAddresses lzMessageId srcTxHash receipt = .ok sent ∧
        Emits crates trustedEndpointAddresses receipt sent) ∨
      ∃ i ∈ voters, ∃ j ∈ voters, ∃ result result', Told answers i result ∧ Told answers j result' ∧
        Confused fingerprints result result')

/-- **What is resolved, every voter of a quorum told**, and it is what was asked for. -/
theorem getLzSentEvent_agreed
    (h : getLzSentEvent fingerprints crates config trustedEndpointAddresses providers answers lzMessageId srcTxHash =
      .ok sent) :
    lzMessageIdMatches crates.toEnv lzMessageId sent.lzMessageId = true ∧
      AgreedOn fingerprints crates config trustedEndpointAddresses providers answers lzMessageId srcTxHash sent := by
  obtain ⟨⟨quorum, order⟩, hdispatch, h⟩ := Exec.bind_ok_iff.mp h
  obtain ⟨receipt, hvote, h⟩ := Exec.bind_ok_iff.mp h
  obtain ⟨key, hmet, j, hj, hjvote⟩ := Quorum.resolveLoop_voted Quorum.recorded_new hvote
  rw [List.nil_append] at hmet hj
  have hvoter : j ∈ Quorum.votersFor (fun i => receiptVote fingerprints (answers i)) order key :=
    Quorum.mem_votersFor.mpr ⟨hj, receipt, Quorum.voteOf_eq_some.mpr hjvote⟩
  refine ⟨(sentEventOfReceipt_ok h).1, quorum, order, _, EvmPayload.orErr_eq_ok.mp hdispatch, hmet,
    List.ne_nil_of_mem hvoter, fun i hi => (Quorum.mem_votersFor.mp hi).1, ?_⟩
  obtain ⟨result', htold', hresult'⟩ := receiptVote_ok hjvote
  by_cases hconfused : ∃ i ∈ Quorum.votersFor (fun i => receiptVote fingerprints (answers i)) order key,
      ∃ result, Told answers i result ∧ Confused fingerprints result result'
  · obtain ⟨i, hi, result, htold, hconfused⟩ := hconfused
    exact .inr ⟨i, hi, j, hvoter, result, result', htold, htold', hconfused⟩
  · refine .inl fun i hi => ?_
    obtain ⟨-, told, hivote⟩ := Quorum.mem_votersFor.mp hi
    obtain ⟨result, htold, hresult⟩ := receiptVote_ok (Quorum.voteOf_eq_some.mp hivote)
    rcases resultVote_alike htold.numbered htold'.numbered hresult hresult' with hsame | hconfuses
    · rw [← hsame.sentEvent] at h
      exact ⟨result, htold, h, (sentEventOfReceipt_ok h).2⟩
    · exact absurd ⟨i, hi, result, htold, hconfuses⟩ hconfused

end

/-! ## One provider -/

theorem notMem_toDigits (c : Char) (h : c.isDigit = false) (n : Nat) : c ∉ Nat.toDigits 10 n := fun hmem => by
  rw [Nat.isDigit_of_mem_toDigits (by decide) (by decide) hmem] at h
  cases h

def sampleNumber : JsonNumber → String
  | .posInt n => n.toNat.repr
  | .negInt n => "-" ++ n.natAbs.repr
  | .float bits => bits.toNat.repr ++ ".0"

theorem mem_minus_sampleNumber (n : JsonNumber) : '-' ∈ (sampleNumber n).toList ↔ ∃ i, n = .negInt i := by
  cases n with
  | posInt n => simp [sampleNumber, notMem_toDigits '-' rfl]
  | negInt i => simp [sampleNumber]
  | float bits => simp [sampleNumber, notMem_toDigits '-' rfl]

theorem mem_point_sampleNumber (n : JsonNumber) : '.' ∈ (sampleNumber n).toList ↔ ∃ bits, n = .float bits := by
  cases n with
  | posInt n => simp [sampleNumber, notMem_toDigits '.' rfl]
  | negInt i => simp [sampleNumber, notMem_toDigits '.' rfl]
  | float bits => simp [sampleNumber]

theorem numberToken_sampleNumber (n : JsonNumber) : JsonText.NumberToken (sampleNumber n).toList := by
  cases n with
  | posInt n => exact Canton.numberToken_repr n.toNat
  | negInt n => exact Canton.numberToken_integerNumber (.negInt n)
  | float bits =>
    obtain ⟨⟨c, rest, heq, hc⟩, hchars⟩ := Canton.numberToken_repr bits.toNat
    rw [sampleNumber, String.toList_append]
    refine ⟨⟨c, rest ++ ['.', '0'], by rw [heq]; rfl, hc⟩, fun d hd => ?_⟩
    rcases List.mem_append.mp hd with hd | hd
    · exact hchars d hd
    · obtain rfl | rfl : d = '.' ∨ d = '0' := by simpa using hd
      all_goals rfl

/-- Numbers in decimal; a float as its bits. -/
def samplePrinter : SerdeText.NumberPrinter where
  print := sampleNumber
  token n _ := numberToken_sampleNumber n
  injective m n hm hn h := by
    have hminus := (mem_minus_sampleNumber m).symm.trans (h ▸ mem_minus_sampleNumber n)
    have hpoint := (mem_point_sampleNumber m).symm.trans (h ▸ mem_point_sampleNumber n)
    cases m with
    | posInt a =>
      cases n with
      | posInt b => rw [UInt64.toNat_inj.mp (Nat.repr_injective h)]
      | negInt b => simp at hminus
      | float b => simp at hpoint
    | negInt a =>
      cases n with
      | posInt b => simp at hminus
      | negInt b =>
        have habs := Nat.repr_injective (String.append_right_inj _ |>.mp h)
        obtain ⟨-, hneg⟩ := hm
        obtain ⟨-, hneg'⟩ := hn
        congr 1
        omega
      | float b => simp at hpoint
    | float a =>
      cases n with
      | posInt b => simp at hpoint
      | negInt b => simp at hpoint
      | float b => rw [UInt64.toNat_inj.mp (Nat.repr_injective (String.append_left_inj _ |>.mp h))]

def sampleFingerprints : SerdeText.Fingerprints := ⟨.plain, samplePrinter, fun _ => emptyKeccak⟩

def sampleChainName (eid : UInt32) : Option String :=
  if eid = 30500 then .some "starknet" else if eid = 30101 then .some "ethereum" else .none

def sampleCrates : Crates where
  toEnv := PacketSent.sampleEnv
  parseHexBytes digits := (fromStrRadix 16 256 digits).toOption

def sampleConfig : PacketSent.Config := ⟨sampleChainName, fun _ => .none⟩

def samplePacket : PacketV1 where
  nonce := 7
  srcEid := 30500
  sender := ⟨List.replicate 32 17, rfl⟩
  dstEid := 30101
  receiver := ⟨List.replicate 12 0 ++ List.replicate 20 34, rfl⟩
  guid := ⟨List.replicate 32 90, rfl⟩
  message := [1, 2, 3]

def sampleFelts (bytes : List UInt8) : List Json := (StarknetPayload.starknetByteArrayCalldata bytes).map .string

def sampleSent : Json :=
  .object [("data", .array (sampleFelts samplePacket.encode ++ sampleFelts [0, 3])), ("from_address", .string "0xe"),
    ("keys", .array [.string packetSentEventSelector, .string "0x5"])]

def sampleReceipt : Json :=
  .object [("block_hash", .string "0xb"), ("block_number", .number (.posInt 9)), ("events", .array [sampleSent]),
    ("execution_status", .string "SUCCEEDED"), ("finality_status", .string "ACCEPTED_ON_L2"),
    ("transaction_hash", .string "0x77")]

def sampleMessageId : LzMessageId where
  pathwayId :=
    { srcChainName := "starknet"
      dstChainName := "ethereum"
      extra := [("srcEid", .ofU32 30500), ("dstEid", .ofU32 30101),
        ("sender", .string (hexText .plain (List.replicate 32 17))),
        ("receiver", .string (hexText .plain (List.replicate 20 34)))] }
  nonce := 7
  ulnSendVersion := .string "V302"

theorem numbered_sampleReceipt : Numbered sampleReceipt := by
  have hdata : Numbered (.array (sampleFelts samplePacket.encode ++ sampleFelts [0, 3])) := by
    refine .array fun felt hfelt => ?_
    rw [sampleFelts, sampleFelts, ← List.map_append] at hfelt
    obtain ⟨text, -, rfl⟩ := List.mem_map.mp hfelt
    exact .string text
  have hkeys : Numbered (.array [.string packetSentEventSelector, .string "0x5"]) :=
    .array (by simp [Numbered.string])
  have hsent : Numbered sampleSent := .object (by simp [hdata, hkeys, Numbered.string])
  have hnumber : Numbered (.number (.posInt 9)) := .number trivial
  exact .object (by simp [Numbered.string, Numbered.array, hnumber, hsent])

/-- The packet and the options, as the calldata encoder serializes them. -/
theorem packetAndOptionsOf_sampleSent :
    packetAndOptionsOf sampleCrates sampleSent = .ok (samplePacket.encode, [0, 3]) := by
  have hlength : samplePacket.encode.length = 116 := samplePacket.length_encode
  have hpacket : CairoBytes.Serializes samplePacket.encode (sampleFelts samplePacket.encode) :=
    StarknetPayload.serializes_starknetByteArrayCalldata (hlength.trans_lt (by decide))
  have hoptions : CairoBytes.Serializes [0, 3] (sampleFelts [0, 3]) :=
    StarknetPayload.serializes_starknetByteArrayCalldata (by decide)
  have hfits : ([] ++ sampleFelts samplePacket.encode ++ sampleFelts [0, 3] ++ []).length ≤ usizeMax := by
    simp only [sampleFelts, List.nil_append, List.append_nil, List.length_append, List.length_map,
      StarknetPayload.length_starknetByteArrayCalldata, hlength]
    decide
  have hread := CairoBytes.packetAndOptions_apply .plain hpacket hoptions (hlength.trans_le (by decide))
    (by decide) hfits
  rw [List.nil_append, List.append_nil] at hread
  exact mapErr_eq_ok.mpr hread

def sampleEvent : StarknetPacketSentEvent where
  endpointAddress := "0xe"
  sendLibrary := "5"
  packet := samplePacket.text .plain
  options := hexText .plain [0, 3]
  sourceEvidence :=
    { blockHash := "0xb", blockNumber := 9, transactionHash := "0x77", eventIndex := 0, event := sampleSent }

theorem decode_sampleSent :
    decodeStarknetPacketSentEvent sampleCrates sampleReceipt (sampleSent, 0) = .ok sampleEvent := by
  have hlibrary : ((Solana.pointer ["keys", "1"] sampleSent).bind Json.asStr).bind (feltDecimal sampleCrates) =
      .some "5" := by decide +kernel
  have hpacket : decodeLzPacketV1 .plain (hexText .plain samplePacket.encode) = .ok (samplePacket.text .plain) :=
    decodeLzPacketV1_eq_ok.mpr ⟨samplePacket, Abi.decodeHexBytes_prefixed _, rfl⟩
  have hdecoded : mapErr AppCoreError.display (decodeLzPacketV1 sampleCrates.hex
      (hexText sampleCrates.hex samplePacket.encode)) = .ok (samplePacket.text .plain) := mapErr_eq_ok.mpr hpacket
  have hnumber : blockNumberOf sampleReceipt = .some 9 := by decide +kernel
  refine Exec.bind_ok_iff.mpr ⟨"5", okOr_eq_ok.mpr hlibrary, ?_⟩
  refine Exec.bind_ok_iff.mpr ⟨_, packetAndOptionsOf_sampleSent, ?_⟩
  refine Exec.bind_ok_iff.mpr ⟨_, hdecoded, ?_⟩
  refine Exec.bind_ok_iff.mpr ⟨"0xb", okOr_eq_ok.mpr rfl, ?_⟩
  refine Exec.bind_ok_iff.mpr ⟨9, okOr_eq_ok.mpr hnumber, ?_⟩
  refine Exec.bind_ok_iff.mpr ⟨"0x77", okOr_eq_ok.mpr rfl, ?_⟩
  exact Exec.bind_ok_iff.mpr ⟨0, okOr_eq_ok.mpr rfl, rfl⟩

def sampleResponse : Parsed :=
  ⟨.object [("jsonrpc", .string "2.0"), ("result", sampleReceipt)],
    .object (by simp [Numbered.string, numbered_sampleReceipt])⟩

def sampleProviders : PayloadSigned.Providers where
  providerConfig _ := .ok EvmPayload.oneProvider
  requiredProviderQuorum _ := .ok ()
  planDispatch _ := .ok [0]

theorem sentEventOfReceipt_sample :
    ∃ sent, sentEventOfReceipt sampleCrates sampleConfig ["0xe"] sampleMessageId "0x77" sampleReceipt = .ok sent := by
  have hcheck : checkReceipt "0x77" sampleReceipt = .ok () := rfl
  have htrusted : isPacketSent ["0xe"] sampleSent = true := by decide +kernel
  have hfilter : (eventsOf sampleReceipt).zipIdx.filter (fun event => isPacketSent ["0xe"] event.1) =
      [(sampleSent, 0)] := List.filter_cons_of_pos htrusted
  have hevents : decodeStarknetPacketSentEvents sampleCrates ["0xe"] sampleReceipt = .ok [sampleEvent] := by
    rw [decodeStarknetPacketSentEvents, hfilter, List.mapM_cons, decode_sampleSent]
    rfl
  have hoptions : (decodeMoveRelayerOptions sampleCrates.toEnv sampleEvent.options
      "ethereum").toOption.isSome = true := by decide +kernel
  have hmatches : lzMessageIdMatches sampleCrates.toEnv sampleMessageId
      (packetEvent "0x77" "starknet" "ethereum" "V302" sampleEvent.packet []).lzMessageId = true := by decide +kernel
  cases hdecoded : decodeMoveRelayerOptions sampleCrates.toEnv sampleEvent.options "ethereum" with
  | error e =>
    rw [hdecoded] at hoptions
    cases hoptions
  | ok options =>
    have hsource : sampleConfig.chainNameByEid sampleEvent.packet.srcEid = .some "starknet" := rfl
    have hdestination : chainNameForPacketEid sampleCrates.toEnv sampleConfig sampleEvent.packet.dstEid =
      .ok "ethereum" := rfl
    obtain ⟨sent, hsent, hid⟩ : ∃ sent, starknetPacketToLzSentEvent sampleCrates sampleConfig "0x77" sampleEvent =
        .ok (.converted sent) ∧ sent.lzMessageId =
          (packetEvent "0x77" "starknet" "ethereum" "V302" sampleEvent.packet []).lzMessageId := by
      simp only [starknetPacketToLzSentEvent, packetToLzSentEvent, hsource, hdestination, hdecoded, Exec.ok_bind]
      exact ⟨_, rfl, rfl⟩
    refine ⟨sent, ?_⟩
    rw [← hid] at hmatches
    refine Exec.bind_ok_iff.mpr ⟨(), hcheck, Exec.bind_ok_iff.mpr ⟨_, mapErr_eq_ok.mpr hevents, ?_⟩⟩
    refine Exec.bind_ok_iff.mpr ⟨[.converted sent], ?_, outcome_eq_ok.mpr (List.find?_cons_of_pos hmatches)⟩
    rw [List.mapM_cons, hsent]
    rfl

theorem getLzSentEvent_sample : ∃ sent, getLzSentEvent sampleFingerprints sampleCrates sampleConfig ["0xe"]
    sampleProviders (fun _ => .ok sampleResponse) sampleMessageId "0x77" = .ok sent := by
  have hvote : receiptVote sampleFingerprints (.ok sampleResponse) =
      .ok (.some (sampleFingerprints.fingerprint (votedReceipt (projectFields receiptFields sampleReceipt)),
        projectFields receiptFields sampleReceipt)) := rfl
  have hdispatch : sampleProviders.dispatch "starknet" = .ok (EvmPayload.oneProvider, [0]) := rfl
  have hresolved := EvmPayload.oneProvider_resolves
    (sampleFingerprints.fingerprint (votedReceipt (projectFields receiptFields sampleReceipt)))
    (projectFields receiptFields sampleReceipt) "Starknet transaction receipt"
  rw [← hvote] at hresolved
  obtain ⟨sent, hsent⟩ := sentEventOfReceipt_sample
  rw [← (sameRead_project sampleReceipt).sentEvent] at hsent
  exact ⟨sent, Exec.bind_ok_iff.mpr ⟨_, EvmPayload.orErr_eq_ok.mpr hdispatch,
    Exec.bind_ok_iff.mpr ⟨_, hresolved, hsent⟩⟩⟩

theorem getLzSentEvent_agreed_sample :
    ∃ sent, lzMessageIdMatches sampleCrates.toEnv sampleMessageId sent.lzMessageId = true ∧
      AgreedOn sampleFingerprints sampleCrates sampleConfig ["0xe"] sampleProviders (fun _ => .ok sampleResponse)
        sampleMessageId "0x77" sent := by
  obtain ⟨sent, hsent⟩ := getLzSentEvent_sample
  exact ⟨sent, getLzSentEvent_agreed hsent⟩

end Pillar.StarknetSource
