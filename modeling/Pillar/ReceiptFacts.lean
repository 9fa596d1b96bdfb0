/-
Two receipts with one vote. The vote keeps the logs in index order and drops
the indexes; the scan for the packet goes by the order in which the provider
lists them, and the later check by the index. Where these notions of "the same
receipt" agree, and where they do not.
-/
import Pillar.PacketSentFacts
import Pillar.Receipt

namespace Pillar.Receipt

open Hex Text Packet PacketSent

/-! ## What a log says -/

/-- What of a log is voted for, beyond its placement. -/
def contents (log : EvmReceiptLog) : String × List String × String := (log.address, log.topics, log.data)

section

variable (env : Env) (config : Config) (lzMessageId : LzMessageId)

def noEvidence : EvmSourceEvidence := ⟨"", 0, "", 0, "", "", [], ""⟩

/-- The event a log of the requested packet is converted to, less what it says
of the receipt. -/
def packetEvent (log : EvmReceiptLog) : Option LzSentEvent :=
  match decodeEvmPacketSentLog env log.topics log.data, parse 64 log.logIndex with
  | .ok packetSent, .ok _ =>
    match packetSentToLzSentEvent env config lzMessageId.pathwayId.srcChainName ""
      packetSent log.address noEvidence with
    | .ok (.converted event) => if lzMessageIdMatches env lzMessageId event.lzMessageId then .some event else .none
    | _ => .none
  | _, _ => .none

/-- The log is the requested packet's: it decodes, has a `u64` index, comes from
the contract bound to its kind, converts, and matches. -/
def isPacketLog (log : EvmReceiptLog) : Bool := (packetEvent env config lzMessageId log).isSome

/-- The endpoint id that must have a chain name for a packet to be converted. -/
def namedEid (packet : LzPacketV1) : UInt32 := if isLzReadEndpointId packet.srcEid then packet.dstEid else packet.srcEid

/-- The endpoint id without a chain name, of a log of a bound contract with a `u64` index. -/
def unmappedEid (log : EvmReceiptLog) : Option UInt32 :=
  match decodeEvmPacketSentLog env log.topics log.data, parse 64 log.logIndex,
    config.packetSentBindingsByChainName lzMessageId.pathwayId.srcChainName with
  | .ok packetSent, .ok _, .some bindings =>
    match boundEvmPacketSentVersion bindings packetSent.kind log.address with
    | .ok (_, version) =>
      let eid := namedEid (flipRead version packetSent.packet)
      if config.chainNameByEid eid = .none then .some eid else .none
    | .error _ => .none
  | _, _, _ => .none

end

variable {env : Env} {config : Config} {lzMessageId : LzMessageId} {srcTxHash : String}
  {receipt : EvmTransactionReceipt} {blockNumber : Int}

/-- An event, of a transaction and with the evidence of a receipt. -/
def stamp (srcTxHash : String) (evidence : EvmSourceEvidence) (event : LzSentEvent) : LzSentEvent :=
  { event with txHash := srcTxHash, sourceEvidence := .some evidence }

def stampConversion (srcTxHash : String) (evidence : EvmSourceEvidence) : SourceEventConversion → SourceEventConversion
  | .converted event => .converted (stamp srcTxHash evidence event)
  | conversion => conversion

/-- A conversion only carries the transaction and the evidence along. -/
theorem packetSentToLzSentEvent_stamp (srcChainName srcTxHash : String) (packetSent : EvmPacketSent)
    (logAddress : String) (evidence : EvmSourceEvidence) :
    packetSentToLzSentEvent env config srcChainName srcTxHash packetSent logAddress evidence =
      (packetSentToLzSentEvent env config srcChainName "" packetSent logAddress noEvidence).map
        (stampConversion srcTxHash evidence) := by
  unfold packetSentToLzSentEvent
  cases config.packetSentBindingsByChainName srcChainName with
  | none => rfl
  | some bindings =>
    dsimp only
    cases boundEvmPacketSentVersion bindings packetSent.kind logAddress with
    | error reason => rfl
    | ok version =>
      obtain ⟨sendLibrary, ulnSendVersion⟩ := version
      dsimp only
      cases packetEnds config (flipRead ulnSendVersion packetSent.packet) with
      | fault error => rfl
      | notOurs => rfl
      | chains src dst =>
        dsimp only
        unfold convertedEvent
        cases guidAndOptions env ulnSendVersion dst
          (flipRead ulnSendVersion packetSent.packet).guid packetSent.options with
        | error halt => rfl
        | ok extra =>
          simp only [Exec.ok_bind]
          cases renderSendLibrary env ulnSendVersion sendLibrary with
          | error halt => rfl
          | ok library =>
            simp only [Exec.ok_bind]
            cases evmChecksumAddress env logAddress <;> rfl

/-- The index a log is found by later. -/
def packetLogIndex (log : EvmReceiptLog) : Nat :=
  match parse 64 log.logIndex with
  | .ok index => index
  | .error _ => 0

theorem packetLogIndex_eq {log : EvmReceiptLog} {index : Nat} (h : parse 64 log.logIndex = .ok index) :
    packetLogIndex log = index := by
  rw [packetLogIndex, h]

/-- **The loop's hit on a log.** -/
theorem verdictOf_hit? (log : EvmReceiptLog) :
    (verdictOf env config lzMessageId srcTxHash receipt blockNumber log).hit? =
      (packetEvent env config lzMessageId log).map
        (stamp srcTxHash (evidenceOf receipt blockNumber log (packetLogIndex log))) := by
  unfold verdictOf judgeLog packetEvent
  cases decodeEvmPacketSentLog env log.topics log.data with
  | error halt => cases halt <;> rfl
  | ok packetSent =>
    dsimp only
    cases hindex : parse 64 log.logIndex with
    | error e => rfl
    | ok index =>
      dsimp only
      rw [packetSentToLzSentEvent_stamp, packetLogIndex_eq hindex]
      cases packetSentToLzSentEvent env config lzMessageId.pathwayId.srcChainName ""
        packetSent log.address noEvidence with
      | error halt => cases halt <;> rfl
      | ok conversion =>
        cases conversion with
        | notOurs => rfl
        | sourceFault error => rfl
        | converted event =>
          simp only [Except.map, stampConversion, stamp]
          cases lzMessageIdMatches env lzMessageId event.lzMessageId <;> rfl

def noChainName (eid : UInt32) : AppCoreError := .internal s!"No chain name for endpoint id {eid}"

theorem noChainName_injective : Function.Injective noChainName := by
  intro a b h
  have htext : toString a = toString b := String.append_right_inj _ |>.mp (AppCoreError.internal.inj h)
  exact UInt32.toNat_inj.mp (Nat.repr_injective htext)

/-- A packet's ends are a fault just when the endpoint id to be named has no name. -/
theorem packetEnds_eq (config : Config) (packet : LzPacketV1) :
    (config.chainNameByEid (namedEid packet) = .none ∧
    packetEnds config packet = .fault (noChainName (namedEid packet))) ∨
    (config.chainNameByEid (namedEid packet) ≠ .none ∧ ∀ error, packetEnds config packet ≠ .fault error) := by
  unfold namedEid packetEnds chainNameForEid
  split
  · cases config.chainNameByEid packet.dstEid with
    | none => exact .inl ⟨rfl, rfl⟩
    | some name => exact .inr ⟨by simp, by simp⟩
  · cases config.chainNameByEid packet.srcEid with
    | none => exact .inl ⟨rfl, rfl⟩
    | some name =>
      refine .inr ⟨by simp, fun error => ?_⟩
      cases config.chainNameByEid packet.dstEid <;> simp

theorem convertedEvent_converted {sendLibrary ulnSendVersion options logAddress srcChainName dstChainName : String}
    {packet : LzPacketV1} {evidence : EvmSourceEvidence} {conversion : SourceEventConversion}
    (h : convertedEvent env srcTxHash sendLibrary ulnSendVersion packet options logAddress evidence srcChainName
      dstChainName = .ok conversion) : ∃ event, conversion = .converted event := by
  obtain ⟨extra, -, h⟩ := Exec.bind_ok_iff.mp h
  obtain ⟨library, -, h⟩ := Exec.bind_ok_iff.mp h
  obtain ⟨emit, -, h⟩ := Exec.bind_ok_iff.mp h
  cases h
  exact ⟨_, rfl⟩

/-- **The loop's fault on a log.** -/
theorem verdictOf_fault? (log : EvmReceiptLog) :
    (verdictOf env config lzMessageId srcTxHash receipt blockNumber log).fault? =
      (unmappedEid env config lzMessageId log).map noChainName := by
  unfold verdictOf judgeLog unmappedEid
  cases decodeEvmPacketSentLog env log.topics log.data with
  | error halt => cases halt <;> rfl
  | ok packetSent =>
    dsimp only
    cases parse 64 log.logIndex with
    | error e => rfl
    | ok index =>
      dsimp only
      unfold packetSentToLzSentEvent
      cases config.packetSentBindingsByChainName lzMessageId.pathwayId.srcChainName with
      | none => rfl
      | some bindings =>
        dsimp only
        cases boundEvmPacketSentVersion bindings packetSent.kind log.address with
        | error reason => rfl
        | ok version =>
          obtain ⟨sendLibrary, ulnSendVersion⟩ := version
          dsimp only
          obtain ⟨hname, hends⟩ | ⟨hname, hends⟩ := packetEnds_eq config (flipRead ulnSendVersion packetSent.packet)
          · rw [hends, if_pos hname]
            rfl
          · rw [if_neg hname]
            cases hcase : packetEnds config (flipRead ulnSendVersion packetSent.packet) with
            | fault error => exact absurd hcase (hends error)
            | notOurs => rfl
            | chains src dst =>
              dsimp only
              cases hconvert : convertedEvent env srcTxHash sendLibrary ulnSendVersion
                (flipRead ulnSendVersion packetSent.packet) packetSent.options log.address
                (evidenceOf receipt blockNumber log index) src dst with
              | error halt => cases halt <;> rfl
              | ok conversion =>
                obtain ⟨event, rfl⟩ := convertedEvent_converted hconvert
                dsimp only
                cases lzMessageIdMatches env lzMessageId event.lzMessageId <;> rfl

/-- No log is both a hit and a fault. -/
theorem isPacketLog_of_unmappedEid {log : EvmReceiptLog} {eid : UInt32}
    (h : unmappedEid env config lzMessageId log = .some eid) : isPacketLog env config lzMessageId log = false := by
  have hfault : (verdictOf env config lzMessageId "" ⟨"", "", "", "", []⟩ 0 log).fault? = .some (noChainName eid) := by
    rw [verdictOf_fault?, h, Option.map_some]
  have hhit : (verdictOf env config lzMessageId "" ⟨"", "", "", "", []⟩ 0 log).hit?.isSome =
      isPacketLog env config lzMessageId log := by
    rw [verdictOf_hit?, Option.isSome_map, isPacketLog]
  rw [← hhit, Verdict.fault?_eq_some.mp hfault]
  rfl

/-! ## One vote, one event -/

/-- An event, but for the index of its packet log. -/
def eraseIndex (event : LzSentEvent) : LzSentEvent :=
  { event with sourceEvidence := event.sourceEvidence.map fun evidence => { evidence with packetLogIndex := 0 } }

/-- The same error, or events that differ only in the index of the packet log. -/
def SameResult (x y : Exec AppCoreError LzSentEvent) : Prop := x.map eraseIndex = y.map eraseIndex

theorem removeKey_logValue (log : EvmReceiptLog) :
    removeKey "logIndex" (logValue log) =
      .object [("address", .string log.address), ("blockHash", .string log.blockHash),
        ("blockNumber", .string log.blockNumber), ("data", .string log.data), ("removed", .bool log.removed),
        ("topics", .array (log.topics.map .string)), ("transactionHash", .string log.transactionHash)] := by
  simp [removeKey, logValue]

/-- The receipts' own fields are part of the vote. -/
theorem header_of_vote {r r' : EvmTransactionReceipt} (h : votedReceipt r = votedReceipt r') :
    r.blockHash = r'.blockHash ∧ r.blockNumber = r'.blockNumber ∧ r.status = r'.status ∧
      r.transactionHash = r'.transactionHash := by
  simp only [votedReceipt, receiptValue, Json.object.injEq, List.cons.injEq, Prod.mk.injEq, Json.string.injEq,
    true_and, and_true] at h
  exact ⟨h.1, h.2.1, h.2.2.2.1, h.2.2.2.2⟩

theorem logLoop_eq_outcome (env : Env) (config : Config) (lzMessageId : LzMessageId) (srcTxHash : String)
    (receipt : EvmTransactionReceipt) (blockNumber : Int) (logs : List EvmReceiptLog) :
    logLoop env config lzMessageId srcTxHash receipt blockNumber logs = outcome (packetDoesNotMatch srcTxHash)
      ((logs.find? (isPacketLog env config lzMessageId)).bind fun log => (packetEvent env config lzMessageId log).map
        (stamp srcTxHash (evidenceOf receipt blockNumber log (packetLogIndex log))))
      ((logs.findSome? (unmappedEid env config lzMessageId)).map noChainName) := by
  rw [logLoop_eq, List.map_findSome?, findSome?_eq_find?_bind]
  simp only [verdictOf_hit?, verdictOf_fault?, Option.isSome_map]
  rfl

/-- A log of the packet converts by its contents alone. -/
theorem packetEvent_congr {log log' : EvmReceiptLog} (h : contents log = contents log')
    (hpacket : isPacketLog env config lzMessageId log = true)
    (hpacket' : isPacketLog env config lzMessageId log' = true) :
    packetEvent env config lzMessageId log = packetEvent env config lzMessageId log' := by
  obtain ⟨haddress, htopics, hdata⟩ : log.address = log'.address ∧ log.topics = log'.topics ∧ log.data = log'.data := by
    simpa only [contents, Prod.mk.injEq] using h
  unfold isPacketLog packetEvent at hpacket hpacket'
  unfold packetEvent
  rw [haddress, htopics, hdata] at hpacket ⊢
  cases decodeEvmPacketSentLog env log'.topics log'.data with
  | error halt => rfl
  | ok packetSent =>
    cases hindex : parse 64 log.logIndex with
    | error e => simp [hindex] at hpacket
    | ok index =>
      cases hindex' : parse 64 log'.logIndex with
      | error e => simp [hindex'] at hpacket'
      | ok index' => rfl

/-- Two stamped events are the same but for the index just when their logs have one content. -/
theorem eraseIndex_stamp_iff {r r' : EvmTransactionReceipt} {log log' : EvmReceiptLog} {event event' : LzSentEvent}
    (hvote : votedReceipt r = votedReceipt r') (h : packetEvent env config lzMessageId log = .some event)
    (h' : packetEvent env config lzMessageId log' = .some event') :
    eraseIndex (stamp srcTxHash (evidenceOf r blockNumber log (packetLogIndex log)) event) =
        eraseIndex (stamp srcTxHash (evidenceOf r' blockNumber log' (packetLogIndex log')) event') ↔
      contents log = contents log' := by
  obtain ⟨hblockHash, -, hstatus, htransactionHash⟩ := header_of_vote hvote
  constructor
  · intro he
    simp only [eraseIndex, stamp, evidenceOf, LzSentEvent.mk.injEq, Option.map_some, Option.some.injEq,
      EvmSourceEvidence.mk.injEq] at he
    obtain ⟨-, -, -, ⟨-, -, -, -, -, haddress, htopics, hdata⟩, -⟩ := he
    simp only [contents, haddress, htopics, hdata]
  · intro hcontents
    have hevent := packetEvent_congr hcontents (Option.isSome_of_eq_some h) (Option.isSome_of_eq_some h')
    rw [h, h', Option.some.injEq] at hevent
    obtain ⟨haddress, htopics, hdata⟩ : log.address = log'.address ∧ log.topics = log'.topics ∧
      log.data = log'.data := by
      simpa only [contents, Prod.mk.injEq] using hcontents
    simp only [eraseIndex, stamp, evidenceOf, hevent, hblockHash, hstatus, htransactionHash, haddress, htopics, hdata,
      Option.map_some]

theorem packetEvent_of_find {logs : List EvmReceiptLog} {log : EvmReceiptLog}
    (h : logs.find? (isPacketLog env config lzMessageId) = .some log) :
    ∃ event, packetEvent env config lzMessageId log = .some event := by
  have hpacket : isPacketLog env config lzMessageId log = true := List.find?_some h
  exact Option.isSome_iff_exists.mp hpacket

/-- The error tells which endpoint id was the first without a name, and whether there was one. -/
theorem faultOr_inj {eid eid' : Option UInt32} :
    (eid.map noChainName).getD (packetDoesNotMatch srcTxHash) =
    (eid'.map noChainName).getD (packetDoesNotMatch srcTxHash) ↔
      eid = eid' := by
  cases eid with
  | none =>
    cases eid' with
    | none => exact iff_of_true rfl rfl
    | some b => exact iff_of_false (fun h => nomatch h) (fun h => nomatch h)
  | some a =>
    cases eid' with
    | none => exact iff_of_false (fun h => nomatch h) (fun h => nomatch h)
    | some b =>
      rw [Option.map_some, Option.map_some, Option.getD_some, Option.getD_some, Option.some.injEq]
      exact noChainName_injective.eq_iff

/-- **When a vote fixes the event.** Two receipts of one vote give the same event,
or the same error, just when the first log of the requested packet, in the order
each provider lists them, has the same contents in both, and, if there is none,
the first endpoint id without a name is the same in both. -/
theorem vote_fixes_event_iff (env : Env) (config : Config) (lzMessageId : LzMessageId) (srcTxHash : String)
    (blockNumber : Int) (digest : Digest) {r r' : EvmTransactionReceipt}
    (hvote : evmReceiptFingerprint digest r = evmReceiptFingerprint digest r')
    (hcollision : evmReceiptFingerprint digest r = evmReceiptFingerprint digest r' → votedReceipt r = votedReceipt r') :
    SameResult (logLoop env config lzMessageId srcTxHash r blockNumber r.logs)
        (logLoop env config lzMessageId srcTxHash r' blockNumber r'.logs) ↔
      (r.logs.find? (isPacketLog env config lzMessageId)).map contents =
          (r'.logs.find? (isPacketLog env config lzMessageId)).map contents ∧
        (r.logs.find? (isPacketLog env config lzMessageId) = .none →
          r.logs.findSome? (unmappedEid env config lzMessageId) =
            r'.logs.findSome? (unmappedEid env config lzMessageId)) := by
  rw [SameResult, logLoop_eq_outcome, logLoop_eq_outcome]
  cases hfirst : r.logs.find? (isPacketLog env config lzMessageId) with
  | none =>
    cases hfirst' : r'.logs.find? (isPacketLog env config lzMessageId) with
    | none =>
      simp only [Option.bind_none, outcome, Exec.err, Except.map, Except.error.injEq, Halt.err.injEq,
        faultOr_inj, Option.map_none, true_and, forall_const]
    | some log' =>
      obtain ⟨event', hevent'⟩ := packetEvent_of_find hfirst'
      simp only [Option.bind_none, Option.bind_some, hevent', outcome, Exec.err, Except.map, Option.map_some,
        Option.map_none, reduceCtorEq, false_and]
  | some log =>
    obtain ⟨event, hevent⟩ := packetEvent_of_find hfirst
    cases hfirst' : r'.logs.find? (isPacketLog env config lzMessageId) with
    | none =>
      simp only [Option.bind_none, Option.bind_some, hevent, outcome, Exec.err, Except.map, Option.map_some,
        Option.map_none, reduceCtorEq, false_and]
    | some log' =>
      obtain ⟨event', hevent'⟩ := packetEvent_of_find hfirst'
      simp only [Option.bind_some, hevent, hevent', Option.map_some, outcome, Except.map, Except.ok.injEq,
        Option.some.injEq, reduceCtorEq, false_implies, and_true]
      exact eraseIndex_stamp_iff (hcollision hvote) hevent hevent'

/-- The vote of the sample packet's receipt, as it is written. -/
def sampleVote : String :=
  "\x7b\"blockHash\":\"0xcd\",\"blockNumber\":\"16\",\"logs\":[\x7b\"address\":\"" ++
    (sampleLog ethereumUlnV2 101 "").address ++ "\",\"blockHash\":\"0xcd\",\"blockNumber\":\"16\",\"data\":\"" ++
    (sampleLog ethereumUlnV2 101 "").data ++ "\",\"removed\":false,\"topics\":[\"" ++ legacyUlnV2PacketTopic ++
    "\"],\"transactionHash\":\"0xab\"\x7d],\"status\":\"1\",\"transactionHash\":\"0xab\"\x7d"

def sampleDigest : Digest where
  hex := .plain
  toWriter _ := sampleVote.toUTF8.data.toList
  sha256 _ := ⟨[222, 131, 11, 151, 128, 225, 106, 160, 142, 244, 168, 2, 209, 3, 248, 143, 148, 182, 213, 245, 78, 200,
    185, 236, 76, 24, 82, 187, 175, 178, 64, 223], rfl⟩

theorem votedReceipt_sampleReceipt (logs : List EvmReceiptLog) : votedReceipt (sampleReceipt logs) =
    receiptValue (sampleReceipt []) ((logs.mergeSort fun a b => sortKey a ≤ sortKey b).map fun log =>
      removeKey "logIndex" (logValue log)) := rfl

theorem isPacketLog_sampleLog {logIndex : String} {index : Nat} (h : parse 64 logIndex = .ok index) :
    isPacketLog sampleEnv sampleConfig sampleMessageId (sampleLog ethereumUlnV2 101 logIndex) = true := by
  obtain ⟨event, hverdict, -⟩ := verdictOf_sampleLog "" (sampleReceipt []) 0 h
  have hhit : (verdictOf sampleEnv sampleConfig sampleMessageId "" (sampleReceipt []) 0
      (sampleLog ethereumUlnV2 101 logIndex)).hit?.isSome = true := by rw [hverdict]; rfl
  rwa [verdictOf_hit?, Option.isSome_map] at hhit

theorem votedReceipt_renumbered : votedReceipt (sampleReceipt [sampleLog ethereumUlnV2 101 "0"]) =
    votedReceipt (sampleReceipt [sampleLog ethereumUlnV2 101 "1"]) := by
  rw [votedReceipt_sampleReceipt, votedReceipt_sampleReceipt, List.mergeSort_singleton, List.mergeSort_singleton,
    List.map_singleton, List.map_singleton, removeKey_logValue, removeKey_logValue]
  simp only [sampleLog]

theorem vote_fixes_event_renumbered :
    evmReceiptFingerprint sampleDigest (sampleReceipt [sampleLog ethereumUlnV2 101 "0"]) =
        evmReceiptFingerprint sampleDigest (sampleReceipt [sampleLog ethereumUlnV2 101 "1"]) ∧
      SameResult
        (logLoop sampleEnv sampleConfig sampleMessageId "0xab" (sampleReceipt [sampleLog ethereumUlnV2 101 "0"]) 16
          [sampleLog ethereumUlnV2 101 "0"])
        (logLoop sampleEnv sampleConfig sampleMessageId "0xab" (sampleReceipt [sampleLog ethereumUlnV2 101 "1"]) 16
          [sampleLog ethereumUlnV2 101 "1"]) := by
  have hvote : evmReceiptFingerprint sampleDigest (sampleReceipt [sampleLog ethereumUlnV2 101 "0"]) =
      evmReceiptFingerprint sampleDigest (sampleReceipt [sampleLog ethereumUlnV2 101 "1"]) := by
    rw [evmReceiptFingerprint, evmReceiptFingerprint, votedReceipt_renumbered]
  have hzero : parse 64 "0" = .ok 0 := by decide
  have hone : parse 64 "1" = .ok 1 := by decide
  refine ⟨hvote, (vote_fixes_event_iff sampleEnv sampleConfig sampleMessageId "0xab" 16 sampleDigest hvote
    fun _ => votedReceipt_renumbered).mpr ?_⟩
  simp only [sampleReceipt]
  rw [List.find?_cons_of_pos (isPacketLog_sampleLog hzero), List.find?_cons_of_pos (isPacketLog_sampleLog hone)]
  exact ⟨rfl, fun h => nomatch h⟩

/-! ## Two listings of one vote -/

theorem toAsciiLowercase_ulnV2Topic : toAsciiLowercase legacyUlnV2PacketTopic = legacyUlnV2PacketTopic := by
  decide +kernel

theorem normalizeLog_sampleLog (emitter : List UInt8) (srcEid : UInt16) {logIndex : String}
    (h : parseNumericString logIndex = .some logIndex) :
    normalizeLog "0xab" "0xcd" "16" (sampleLog emitter srcEid logIndex) = .ok (sampleLog emitter srcEid logIndex) := by
  have htransactionHash : normalizeEvmTransactionHash "0xab" = "0xab" := by decide +kernel
  have hblockHash : toAsciiLowercase "0xcd" = "0xcd" := by decide +kernel
  have hblockNumber : parseNumericString "16" = .some "16" := by decide +kernel
  simp [normalizeLog, sampleLog, quantity, h, htransactionHash, hblockHash, hblockNumber, bind, Except.bind,
    toAsciiLowercase_ulnV2Topic]

theorem normalize_sampleReceipt {logs : List EvmReceiptLog}
    (h : ∀ log ∈ logs, normalizeLog "0xab" "0xcd" "16" log = .ok log)
    (hnodup : (logs.map EvmReceiptLog.logIndex).Nodup) :
    normalize (sampleReceipt logs) "0xab" = .ok (sampleReceipt logs) := by
  have htransactionHash : normalizeEvmTransactionHash "0xab" = "0xab" := by decide +kernel
  have hmatches : evmTransactionHashMatches "0xab" "0xab" = true := by decide +kernel
  have hblockHash : toAsciiLowercase "0xcd" = "0xcd" := by decide +kernel
  have hblockNumber : parseNumericString "16" = .some "16" := by decide +kernel
  have hstatus : parseNumericString "1" = .some "1" := by decide +kernel
  have hlogs : logs.mapM (normalizeLog "0xab" "0xcd" "16") = .ok logs :=
    mapM_eq_ok_iff.mpr (List.forall₂_same.mpr h)
  simp [normalize, sampleReceipt, quantity, htransactionHash, hmatches, hblockHash, hblockNumber, hstatus,
    hlogs, hnodup,
    bind, Except.bind]

theorem sortKey_sampleLog {emitter : List UInt8} {srcEid : UInt16} {logIndex : String} {index : Nat}
    (h : parse 128 logIndex = .ok index) : sortKey (sampleLog emitter srcEid logIndex) = index := by
  have hindex : parse 128 (sampleLog emitter srcEid logIndex).logIndex = .ok index := h
  rw [sortKey, hindex]

theorem unmappedEid_sampleLog {srcEid : UInt16} {logIndex : String} {index : Nat} (h : parse 64 logIndex = .ok index)
    (hname : sampleChainName (.ofNat srcEid.toNat) = .none) (hread : isLzReadEndpointId (.ofNat srcEid.toNat) = false) :
    unmappedEid sampleEnv sampleConfig sampleMessageId (sampleLog ethereumUlnV2 srcEid logIndex) =
      .some (.ofNat srcEid.toNat) := by
  have hindex : parse 64 (sampleLog ethereumUlnV2 srcEid logIndex).logIndex = .ok index := h
  have hb : sampleConfig.packetSentBindingsByChainName sampleMessageId.pathwayId.srcChainName =
    .some sampleBindings := rfl
  have hflip : flipRead "V2" (samplePacket srcEid) = samplePacket srcEid := if_neg (by decide)
  have heid : namedEid (samplePacket srcEid) = .ofNat srcEid.toNat := by
    rw [namedEid, samplePacket, hread]
    rfl
  unfold unmappedEid
  rw [decode_sampleLog, hindex, hb]
  dsimp only
  rw [bound_sampleLog]
  dsimp only
  rw [hflip, heid]
  exact if_pos hname

theorem logLoop_of_unmappedEid {log log' : EvmReceiptLog} {eid eid' : UInt32}
    (h : unmappedEid env config lzMessageId log = .some eid)
    (h' : unmappedEid env config lzMessageId log' = .some eid') :
    logLoop env config lzMessageId srcTxHash receipt blockNumber [log, log'] = Exec.err (noChainName eid) := by
  have hnone : [log, log'].find? (isPacketLog env config lzMessageId) = .none := by
    rw [List.find?_eq_none]
    intro l hl
    rcases List.mem_pair.mp hl with rfl | rfl
    · rw [isPacketLog_of_unmappedEid h]
      exact Bool.false_ne_true
    · rw [isPacketLog_of_unmappedEid h']
      exact Bool.false_ne_true
  rw [logLoop_eq_outcome, hnone, List.findSome?_cons, h]
  rfl

/-- Two logs of the bound contract, from endpoint ids without a chain name, listed in either order. -/
theorem vote_leaves_error_open :
    let first := sampleLog ethereumUlnV2 1 "0"
    let second := sampleLog ethereumUlnV2 2 "1"
    normalize (sampleReceipt [first, second]) "0xab" = .ok (sampleReceipt [first, second]) ∧
    normalize (sampleReceipt [second, first]) "0xab" = .ok (sampleReceipt [second, first]) ∧
    (∀ digest, evmReceiptFingerprint digest (sampleReceipt [first, second]) =
      evmReceiptFingerprint digest (sampleReceipt [second, first])) ∧
    ¬ SameResult
      (logLoop sampleEnv sampleConfig sampleMessageId "0xab" (sampleReceipt [first, second]) 16 [first, second])
      (logLoop sampleEnv sampleConfig sampleMessageId "0xab" (sampleReceipt [second, first]) 16 [second, first]) := by
  have hfirst : parse 64 "0" = .ok 0 := by decide
  have hsecond : parse 64 "1" = .ok 1 := by decide
  have hnormal : ∀ srcEid, ∀ logIndex ∈ ["0", "1"], normalizeLog "0xab" "0xcd" "16"
    (sampleLog ethereumUlnV2 srcEid logIndex) =
      .ok (sampleLog ethereumUlnV2 srcEid logIndex) := by
    intro srcEid logIndex hmem
    refine normalizeLog_sampleLog ethereumUlnV2 srcEid ?_
    revert logIndex
    decide +kernel
  intro first second
  have hkey : sortKey first = 0 := sortKey_sampleLog (by decide)
  have hkey' : sortKey second = 1 := sortKey_sampleLog (by decide)
  refine ⟨normalize_sampleReceipt ?_ (by decide +kernel), normalize_sampleReceipt ?_ (by decide +kernel),
    fun digest => ?_, ?_⟩
  · simp [first, second, hnormal]
  · simp [first, second, hnormal]
  · rw [evmReceiptFingerprint, evmReceiptFingerprint, votedReceipt_sampleReceipt, votedReceipt_sampleReceipt]
    simp [List.mergeSort, hkey, hkey']
  · have hone : unmappedEid sampleEnv sampleConfig sampleMessageId first = .some 1 :=
      unmappedEid_sampleLog hfirst (by decide) (by decide)
    have htwo : unmappedEid sampleEnv sampleConfig sampleMessageId second = .some 2 :=
      unmappedEid_sampleLog hsecond (by decide) (by decide)
    rw [SameResult, logLoop_of_unmappedEid hone htwo, logLoop_of_unmappedEid htwo hone]
    intro h
    have heid : (1 : UInt32) = 2 := noChainName_injective (Halt.err.inj (Except.error.inj h))
    exact absurd heid (by decide)


end Pillar.Receipt
