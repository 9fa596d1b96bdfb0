/-
Whether a later receipt still holds the packet log: `validate_receipt_binding`
looks the log up by the index it had in the receipt it was resolved from.
-/
import Pillar.ReceiptFacts
import Pillar.Related

namespace Pillar.Receipt

open Hex Text Packet PacketSent

/-! ## What is normal -/

/-- A decimal as `to_string` writes it. -/
def Canonical (s : String) : Prop := ∃ n : Int, s = n.repr

/-- A log and its normal form, in a receipt with this placement. -/
structure NormalLog (transactionHash blockHash blockNumber : String) (log log' : EvmReceiptLog) : Prop where
  removed : log.removed = false
  transactionHash_eq : normalizeEvmTransactionHash log.transactionHash = transactionHash
  blockHash_eq : toAsciiLowercase log.blockHash = blockHash
  blockNumber_eq : parseNumericString log.blockNumber = .some blockNumber
  logIndex_eq : parseNumericString log.logIndex = .some log'.logIndex
  address_eq : log'.address = toAsciiLowercase log.address
  topics_eq : log'.topics = log.topics.map toAsciiLowercase
  data_eq : log'.data = toAsciiLowercase log.data

/-- A receipt and its normal form. -/
structure Normal (expectedTxHash : String) (receipt receipt' : EvmTransactionReceipt) : Prop where
  transactionHash_eq : receipt'.transactionHash = normalizeEvmTransactionHash receipt.transactionHash
  matches_expected : evmTransactionHashMatches receipt'.transactionHash expectedTxHash = true
  blockHash_eq : receipt'.blockHash = toAsciiLowercase receipt.blockHash
  blockNumber_eq : parseNumericString receipt.blockNumber = .some receipt'.blockNumber
  status_eq : parseNumericString receipt.status = .some receipt'.status
  logs : List.Forall₂ (NormalLog receipt'.transactionHash receipt'.blockHash receipt'.blockNumber)
    receipt.logs receipt'.logs
  nodup : (receipt'.logs.map EvmReceiptLog.logIndex).Nodup

theorem quantity_ok {value field number : String} (h : quantity value field = .ok number) :
    parseNumericString value = .some number := by
  unfold quantity at h
  split at h
  next n hn =>
    cases h
    exact hn
  next => cases h

theorem normalLog_of_normalizeLog {transactionHash blockHash blockNumber : String} {log log' : EvmReceiptLog}
    (h : normalizeLog transactionHash blockHash blockNumber log = .ok log') :
    NormalLog transactionHash blockHash blockNumber log log' := by
  unfold normalizeLog at h
  split at h
  next => cases h
  next hremoved =>
    cases hnumber : quantity log.blockNumber "log blockNumber" with
    | error e => simp [hnumber, bind, Except.bind] at h
    | ok number =>
      cases hindex : quantity log.logIndex "logIndex" with
      | error e => simp [hnumber, hindex, bind, Except.bind] at h
      | ok index =>
        simp only [hnumber, hindex, bind, Except.bind] at h
        split at h
        next => cases h
        next hplacement =>
          cases h
          rw [not_or, not_or, not_not, not_not, not_not] at hplacement
          obtain ⟨htransactionHash, hblockHash, hblockNumber⟩ := hplacement
          exact
            { removed := Bool.not_eq_true _ ▸ hremoved
              transactionHash_eq := htransactionHash
              blockHash_eq := hblockHash
              blockNumber_eq := hblockNumber ▸ quantity_ok hnumber
              logIndex_eq := quantity_ok hindex
              address_eq := rfl
              topics_eq := rfl
              data_eq := rfl }

theorem normal_of_normalize {expectedTxHash : String} {receipt receipt' : EvmTransactionReceipt}
    (h : normalize receipt expectedTxHash = .ok receipt') : Normal expectedTxHash receipt receipt' := by
  unfold normalize at h
  dsimp only at h
  split at h
  next => cases h
  next hmatches =>
    cases hnumber : quantity receipt.blockNumber "blockNumber" with
    | error e => simp [hnumber, bind, Except.bind] at h
    | ok number =>
      cases hstatus : quantity receipt.status "status" with
      | error e => simp [hnumber, hstatus, bind, Except.bind] at h
      | ok status =>
        cases hlogs : receipt.logs.mapM (normalizeLog (normalizeEvmTransactionHash receipt.transactionHash)
            (toAsciiLowercase receipt.blockHash) number) with
        | error e => simp [hnumber, hstatus, hlogs, bind, Except.bind] at h
        | ok logs =>
          simp only [hnumber, hstatus, hlogs, bind, Except.bind] at h
          split at h
          next hnodup =>
            cases h
            exact
              { transactionHash_eq := rfl
                matches_expected := by simpa using hmatches
                blockHash_eq := rfl
                blockNumber_eq := quantity_ok hnumber
                status_eq := quantity_ok hstatus
                logs := (mapM_eq_ok_iff.mp hlogs).imp fun _ _ => normalLog_of_normalizeLog
                nodup := hnodup }
          next => cases h

/-! ## Hashes and decimals -/

theorem lowerChar_eq_zero {c : Char} (h : lowerChar c = '0') : c = '0' := by
  unfold lowerChar at h
  split at h
  next hrange =>
    have hnat := congrArg Char.toNat h
    rw [toNat_ofNat_of_le (by omega)] at hnat
    have hzero : '0'.toNat = 48 := rfl
    omega
  next => exact h

theorem lowerChar_eq_x {c : Char} (h : lowerChar c = 'x') : c = 'x' ∨ c = 'X' := by
  unfold lowerChar at h
  split at h
  next hrange =>
    have hnat := congrArg Char.toNat h
    rw [toNat_ofNat_of_le (by omega)] at hnat
    have hx : 'x'.toNat = 120 := rfl
    have hX : 'X'.toNat = 88 := rfl
    exact .inr (Char.toNat_inj.mp (by omega))
  next => exact .inl h

/-- A text that is lowered to one with `0x` in front had `0x` or `0X` there. -/
theorem prefixed_of_lower {s rest : String} (h : stripPrefix "0x" (toAsciiLowercase s) = .some rest) :
    ∃ tail, s = "0x" ++ tail ∨ s = "0X" ++ tail := by
  have hlist := congrArg String.toList (stripPrefix_eq_some h)
  rw [toList_toAsciiLowercase, String.toList_append] at hlist
  have hpre : "0x".toList = ['0', 'x'] := rfl
  rw [hpre, List.cons_append, List.cons_append, List.map_eq_cons_iff] at hlist
  obtain ⟨c, l, hs, hc, hl⟩ := hlist
  rw [List.nil_append, List.map_eq_cons_iff] at hl
  obtain ⟨d, tail, rfl, hd, -⟩ := hl
  have hs' : s = String.ofList (c :: d :: tail) := by rw [← hs, String.ofList_toList]
  refine ⟨String.ofList tail, ?_⟩
  rw [hs', lowerChar_eq_zero hc]
  rcases lowerChar_eq_x hd with rfl | rfl
  · left
    rw [← String.toList_inj, String.toList_append]
    simp
  · right
    rw [← String.toList_inj, String.toList_append]
    simp

/-- A hash and its normal form have one body, but for letter case. -/
theorem hashBody_normalize (value : String) :
    toAsciiLowercase (evmTransactionHashBody (normalizeEvmTransactionHash value)) =
      toAsciiLowercase (evmTransactionHashBody value) := by
  have hlower : toAsciiLowercase "0x" = "0x" := by decide +kernel
  have hupper : toAsciiLowercase "0X" = "0x" := by decide +kernel
  unfold normalizeEvmTransactionHash evmTransactionHashBody
  dsimp only
  cases hstrip : stripPrefix "0x" (toAsciiLowercase value) with
  | some rest =>
    obtain ⟨tail, rfl | rfl⟩ := prefixed_of_lower hstrip
    · rw [toAsciiLowercase_append, hlower, Option.isSome_some, if_pos rfl, stripPrefix_append, stripPrefix_append,
        Option.some_or, Option.some_or, Option.getD_some, Option.getD_some, toAsciiLowercase_idem]
    · have hnone : stripPrefix "0x" ("0X" ++ tail) = .none := by
        rw [stripPrefix, String.toList_append]
        rfl
      rw [toAsciiLowercase_append, hupper, Option.isSome_some, if_pos rfl, stripPrefix_append, hnone,
        stripPrefix_append,
        Option.some_or, Option.none_or, Option.getD_some, Option.getD_some, toAsciiLowercase_idem]
  | none =>
    have hnone : stripPrefix "0x" value = .none := by
      cases h : stripPrefix "0x" value with
      | none => rfl
      | some rest =>
        rw [stripPrefix_eq_some h, toAsciiLowercase_append, hlower, stripPrefix_append] at hstrip
        cases hstrip
    have hnone' : stripPrefix "0X" value = .none := by
      cases h : stripPrefix "0X" value with
      | none => rfl
      | some rest =>
        rw [stripPrefix_eq_some h, toAsciiLowercase_append, hupper, stripPrefix_append] at hstrip
        cases hstrip
    rw [Option.isSome_none, if_neg Bool.false_ne_true, stripPrefix_append, hnone, hnone', Option.some_or,
      Option.none_or,
      Option.getD_some, Option.getD_none, toAsciiLowercase_idem]

theorem matches_normalize (value expected : String) :
    evmTransactionHashMatches (normalizeEvmTransactionHash value) expected =
    evmTransactionHashMatches value expected := by
  rw [evmTransactionHashMatches, evmTransactionHashMatches, eqIgnoreAsciiCase, eqIgnoreAsciiCase, hashBody_normalize]

theorem matches_self_normalize (value : String) :
    evmTransactionHashMatches value (normalizeEvmTransactionHash value) = true :=
  eqIgnoreAsciiCase_iff.mpr (hashBody_normalize value).symm

/-- What `parse_numeric_string` gives is a decimal as it is written. -/
theorem canonical_of_parseNumericString {value number : String} (h : parseNumericString value = .some number) :
    Canonical number := by
  unfold parseNumericString at h
  dsimp only at h
  split at h
  next => cases h
  next =>
    split at h
    next =>
      obtain ⟨n, -, rfl⟩ := Option.map_eq_some_iff.mp h
      exact ⟨n, rfl⟩
    next =>
      obtain ⟨n, -, rfl⟩ := Option.map_eq_some_iff.mp h
      exact ⟨n, rfl⟩

theorem Canonical.eq_repr {s : String} {bits n : Nat} (hs : Canonical s) (h : parse bits s = .ok n) : s = n.repr := by
  obtain ⟨a, rfl⟩ := hs
  exact parse_int_repr h

/-! ## The check, on a receipt of the vote -/

section

variable {requestedTxHash : String} {receipt receipt' : EvmTransactionReceipt} {evidence : EvmSourceEvidence}

/-- The evidence is of a receipt with these fields of its own, and the transaction succeeded. -/
structure SameHeader (receipt' : EvmTransactionReceipt) (evidence : EvmSourceEvidence) : Prop where
  blockHash_eq : evidence.blockHash = receipt'.blockHash
  blockNumber_eq : parseSigned 64 receipt'.blockNumber = .ok evidence.blockNumber
  status_eq : evidence.status = receipt'.status
  status_one : receipt'.status = "1"
  transactionHash_eq : evidence.transactionHash = receipt'.transactionHash

theorem parseI64_ok {value : String} {n : Int} (h : parseSigned 64 value = .ok n) : parseI64 value = .ok n := by
  rw [parseI64, h]

theorem validateReceiptHeader_ok (h : Normal requestedTxHash receipt receipt') (he : SameHeader receipt' evidence)
    (logs : List Json) : validateReceiptHeader (receiptValue receipt logs) evidence requestedTxHash = .ok () := by
  have hrequested : evmTransactionHashMatches receipt.transactionHash requestedTxHash = true := by
    rw [← matches_normalize, ← h.transactionHash_eq]
    exact h.matches_expected
  have hevidence : evmTransactionHashMatches receipt.transactionHash evidence.transactionHash = true := by
    rw [he.transactionHash_eq, h.transactionHash_eq]
    exact matches_self_normalize _
  have hblockHash : toAsciiLowercase receipt.blockHash = toAsciiLowercase evidence.blockHash := by
    rw [he.blockHash_eq, h.blockHash_eq, toAsciiLowercase_idem]
  have hstatus : receipt'.status = evidence.status := he.status_eq.symm
  have hone : evidence.status = "1" := he.status_eq.trans he.status_one
  simp [validateReceiptHeader, receiptValue, Json.get, List.lookup, okOr, bind, Except.bind, hrequested, hevidence,
    hblockHash, numericResponse, h.blockNumber_eq, parseI64_ok he.blockNumber_eq, h.status_eq, hstatus, hone]

variable {transactionHash blockHash blockNumber : String} {log log' : EvmReceiptLog}

theorem lookupIndex_logValue (h : NormalLog transactionHash blockHash blockNumber log log') :
    lookupIndex (logValue log) = (parse 64 log'.logIndex).toOption := by
  simp [lookupIndex, logValue, Json.get, List.lookup, numericResponse, h.logIndex_eq]

theorem notRemoved_logValue (h : NormalLog transactionHash blockHash blockNumber log log') :
    notRemoved (logValue log) = true := by
  simp [notRemoved, logValue, Json.get, List.lookup, h.removed]

theorem topics_logValue (topics : List String) :
    (topics.map Json.string).mapM (fun topic => topic.asStr.map toAsciiLowercase) =
      .some (topics.map toAsciiLowercase) := by
  induction topics with
  | nil => rfl
  | cons topic topics ih =>
    rw [List.map_cons, List.mapM_cons, ih]
    rfl

/-- **A log of the receipt passes just when its contents are the evidence's.** -/
theorem validatePacketLog_iff (h : NormalLog receipt'.transactionHash receipt'.blockHash receipt'.blockNumber log log')
    (he : SameHeader receipt' evidence) {packetLog : EvmReceiptLog}
    (haddress : toAsciiLowercase packetLog.address = packetLog.address)
    (hdata : toAsciiLowercase packetLog.data = packetLog.data)
    (hcontents : (evidence.packetLogAddress, evidence.packetLogTopics, evidence.packetLogData) = contents packetLog) :
    validatePacketLog (logValue log) evidence = .ok () ↔ contents log' = contents packetLog := by
  simp only [contents, Prod.mk.injEq] at hcontents
  obtain ⟨hevidenceAddress, hevidenceTopics, hevidenceData⟩ := hcontents
  have hmatches : evmTransactionHashMatches log.transactionHash evidence.transactionHash = true := by
    rw [he.transactionHash_eq, ← h.transactionHash_eq]
    exact matches_self_normalize _
  have hblockHash : eqIgnoreAsciiCase log.blockHash evidence.blockHash = true := by
    rw [eqIgnoreAsciiCase_iff, he.blockHash_eq, ← h.blockHash_eq, toAsciiLowercase_idem]
  have hsame : eqIgnoreAsciiCase log.address evidence.packetLogAddress = true ∧
      log.topics.map toAsciiLowercase = evidence.packetLogTopics ∧
      eqIgnoreAsciiCase log.data evidence.packetLogData = true ↔ contents log' = contents packetLog := by
    rw [eqIgnoreAsciiCase_iff, eqIgnoreAsciiCase_iff, hevidenceAddress, hevidenceTopics, hevidenceData, haddress, hdata,
      ← h.address_eq, ← h.topics_eq, ← h.data_eq]
    simp only [contents, Prod.mk.injEq]
  rw [← hsame]
  simp [-List.mapM_map, validatePacketLog, logValue, Json.get, List.lookup, okOr, bind, Except.bind,
    hmatches, hblockHash,
    numericResponse, h.blockNumber_eq, parseI64_ok he.blockNumber_eq, topics_logValue, and_assoc]

/-- A receipt without duplicates has at most one log with an index. -/
theorem length_filter_index {logs : List EvmReceiptLog} (hnodup : (logs.map EvmReceiptLog.logIndex).Nodup)
    (hcanonical : ∀ log ∈ logs, Canonical log.logIndex) (index : Nat) :
    (logs.filter fun log => parse 64 log.logIndex = .ok index).length ≤ 1 := by
  have hall : (logs.filter fun log => parse 64 log.logIndex = .ok index).map EvmReceiptLog.logIndex =
      List.replicate (logs.filter fun log => parse 64 log.logIndex = .ok index).length index.repr := by
    rw [List.map_eq_replicate_iff]
    intro log hlog
    obtain ⟨hmem, hindex⟩ := List.mem_filter.mp hlog
    exact (hcanonical log hmem).eq_repr (of_decide_eq_true hindex)
  have hsub : ((logs.filter fun log => parse 64 log.logIndex = .ok index).map EvmReceiptLog.logIndex).Nodup :=
    (List.filter_sublist.map _).nodup hnodup
  rw [hall] at hsub
  exact List.nodup_replicate.mp hsub

theorem Normal.canonical (h : Normal requestedTxHash receipt receipt') {log' : EvmReceiptLog}
    (hlog' : log' ∈ receipt'.logs) :
    Canonical log'.logIndex := by
  obtain ⟨log, -, hnormal⟩ := Related.exists_left h.logs hlog'
  exact canonical_of_parseNumericString hnormal.logIndex_eq

/-- **The look-up by index.** It finds the log that the normal receipt has under the index. -/
theorem findPacketLog_eq (evidence : EvmSourceEvidence) (h : Normal requestedTxHash receipt receipt') :
    ((∃ e, findPacketLog (receipt.logs.map logValue) evidence = .error e) ∧
      ∀ log' ∈ receipt'.logs, parse 64 log'.logIndex ≠ .ok evidence.packetLogIndex) ∨
    ∃ log log', findPacketLog (receipt.logs.map logValue) evidence = .ok (logValue log) ∧ log' ∈ receipt'.logs ∧
      NormalLog receipt'.transactionHash receipt'.blockHash receipt'.blockNumber log log' ∧
      parse 64 log'.logIndex = .ok evidence.packetLogIndex := by
  have hfilter : List.Forall₂ (NormalLog receipt'.transactionHash receipt'.blockHash receipt'.blockNumber)
      (receipt.logs.filter fun log => lookupIndex (logValue log) = .some evidence.packetLogIndex)
      (receipt'.logs.filter fun log' => parse 64 log'.logIndex = .ok evidence.packetLogIndex) := by
    refine List.rel_filter ?_ h.logs
    intro log log' hlog
    simp only [decide_eq_true_iff, lookupIndex_logValue hlog]
    cases parse 64 log'.logIndex <;> simp [Except.toOption]
  have hone := length_filter_index h.nodup (fun _ => h.canonical) evidence.packetLogIndex
  have hmap : (receipt.logs.map logValue).filter (fun log => lookupIndex log = .some evidence.packetLogIndex) =
      (receipt.logs.filter fun log => lookupIndex (logValue log) = .some evidence.packetLogIndex).map logValue := by
    rw [List.filter_map, Function.comp_def]
  unfold findPacketLog
  rw [hmap]
  cases hfound : receipt'.logs.filter (fun log' => parse 64 log'.logIndex = .ok evidence.packetLogIndex) with
  | nil =>
    rw [hfound, List.forall₂_nil_right_iff] at hfilter
    rw [hfilter]
    refine .inl ⟨⟨_, rfl⟩, fun log' hlog' hindex => ?_⟩
    have hmem : log' ∈ receipt'.logs.filter (fun log' => parse 64 log'.logIndex = .ok evidence.packetLogIndex) :=
      List.mem_filter.mpr ⟨hlog', decide_eq_true hindex⟩
    rw [hfound] at hmem
    exact absurd hmem List.not_mem_nil
  | cons log' more =>
    rw [hfound, List.length_cons] at hone
    obtain rfl : more = [] := List.eq_nil_of_length_eq_zero (by omega)
    rw [hfound, List.forall₂_cons_right_iff] at hfilter
    obtain ⟨log, rest, hlog, hrest, hlogs⟩ := hfilter
    obtain rfl := List.forall₂_nil_right_iff.mp hrest
    have hmem : log' ∈ receipt'.logs.filter (fun log' => parse 64 log'.logIndex = .ok evidence.packetLogIndex) := by
      rw [hfound]
      exact List.mem_singleton_self log'
    obtain ⟨hlog', hindex⟩ := List.mem_filter.mp hmem
    rw [hlogs, List.map_singleton]
    dsimp only
    rw [notRemoved_logValue hlog]
    exact .inr ⟨log, log', rfl, hlog', hlog, of_decide_eq_true hindex⟩

/-- A log of the normal form is in lower case. -/
theorem Normal.lower (h : Normal requestedTxHash receipt receipt') {log' : EvmReceiptLog}
    (hlog' : log' ∈ receipt'.logs) :
    toAsciiLowercase log'.address = log'.address ∧ toAsciiLowercase log'.data = log'.data := by
  obtain ⟨log, -, hnormal⟩ := Related.exists_left h.logs hlog'
  rw [hnormal.address_eq, hnormal.data_eq, toAsciiLowercase_idem, toAsciiLowercase_idem]
  exact ⟨rfl, rfl⟩

/-- **What the check accepts**: a receipt with a log of the evidence's index and contents. -/
theorem validateReceiptBinding_eq (h : Normal requestedTxHash receipt receipt') (he : SameHeader receipt' evidence)
    {packetLog : EvmReceiptLog} (haddress : toAsciiLowercase packetLog.address = packetLog.address)
    (hdata : toAsciiLowercase packetLog.data = packetLog.data)
    (hcontents : (evidence.packetLogAddress, evidence.packetLogTopics, evidence.packetLogData) = contents packetLog) :
    validateReceiptBinding (receiptResponse receipt) evidence requestedTxHash = .ok () ↔
      ∃ log' ∈ receipt'.logs, parse 64 log'.logIndex = .ok evidence.packetLogIndex ∧
      contents log' = contents packetLog := by
  have hcheck : validateReceiptBinding (receiptResponse receipt) evidence requestedTxHash =
      (findPacketLog (receipt.logs.map logValue) evidence >>= fun log => validatePacketLog log evidence) := by
    unfold validateReceiptBinding receiptResponse
    have hresult : ((Json.object [("result", receiptValue receipt (receipt.logs.map logValue))]).get "result").filter
        (!·.isNull) = .some (receiptValue receipt (receipt.logs.map logValue)) := by
      rw [Json.get, List.lookup_cons_self]
      rfl
    have hlogs : (receiptValue receipt (receipt.logs.map logValue)).get "logs" =
        .some (.array (receipt.logs.map logValue)) := by simp [receiptValue, Json.get, List.lookup]
    simp [hresult, hlogs, okOr, bind, Except.bind, validateReceiptHeader_ok h he]
  rw [hcheck]
  obtain ⟨⟨e, hmissing⟩, hnone⟩ | ⟨log, log', hfound, hmem, hlog, hindex⟩ := findPacketLog_eq evidence h
  · have hbind : ((Except.error e : Except String Json) >>= fun log => validatePacketLog log evidence) = .error e := by
      simp only [bind, Except.bind]
    rw [hmissing, hbind]
    refine iff_of_false (fun hok => nomatch hok) ?_
    rintro ⟨log', hmem, hindex, -⟩
    exact hnone log' hmem hindex
  · have hbind : (Except.ok (logValue log) >>= fun log => validatePacketLog log evidence) =
        validatePacketLog (logValue log) evidence := by simp only [bind, Except.bind]
    rw [hfound, hbind, validatePacketLog_iff hlog he haddress hdata hcontents]
    refine ⟨fun hsame => ⟨log', hmem, hindex, hsame⟩, ?_⟩
    rintro ⟨other, hother, hotherIndex, hsame⟩
    have hone : log' = other := by
      refine List.inj_on_of_nodup_map h.nodup hmem hother ?_
      rw [(h.canonical hmem).eq_repr hindex, (h.canonical hother).eq_repr hotherIndex]
    rw [hone]
    exact hsame

end

theorem parse_of_packetEvent {env : Env} {config : Config} {lzMessageId : LzMessageId} {log : EvmReceiptLog}
    {event : LzSentEvent} (h : packetEvent env config lzMessageId log = .some event) :
    parse 64 log.logIndex = .ok (packetLogIndex log) := by
  cases hindex : parse 64 log.logIndex with
  | ok index => rw [packetLogIndex_eq hindex]
  | error e =>
    unfold packetEvent at h
    rw [hindex] at h
    cases hdecode : decodeEvmPacketSentLog env log.topics log.data <;> simp [hdecode] at h

/-- **When the check accepts a receipt of the same vote**: just when it has, under
the index of the packet log in the other receipt, a log with that log's contents. -/
theorem validateReceiptBinding_iff (env : Env) (config : Config) (lzMessageId : LzMessageId) (srcTxHash : String)
    (digest : Digest) {raw raw' r r' : EvmTransactionReceipt} (h : normalize raw srcTxHash = .ok r)
    (h' : normalize raw' srcTxHash = .ok r') (hstatus : r.status = "1")
    (hvote : evmReceiptFingerprint digest r = evmReceiptFingerprint digest r')
    (hcollision : evmReceiptFingerprint digest r = evmReceiptFingerprint digest r' → votedReceipt r = votedReceipt r')
    {event : LzSentEvent} (hevent : sentEventOfReceipt env config lzMessageId srcTxHash r = .ok event) :
    ∃ packetLog ∈ r.logs, ∃ evidence, event.sourceEvidence = .some evidence ∧
      (evidence.packetLogAddress, evidence.packetLogTopics, evidence.packetLogData) = contents packetLog ∧
      parse 64 packetLog.logIndex = .ok evidence.packetLogIndex ∧
      (validateReceiptBinding (receiptResponse raw') evidence srcTxHash = .ok () ↔
        ∃ log ∈ r'.logs, log.logIndex = packetLog.logIndex ∧ contents log = contents packetLog) := by
  have hnormal := normal_of_normalize h
  have hnormal' := normal_of_normalize h'
  obtain ⟨hblockHash, hblockNumber, hstatuses, htransactionHash⟩ := header_of_vote (hcollision hvote)
  unfold sentEventOfReceipt at hevent
  split at hevent
  next => cases hevent
  next blockNumber hparsed =>
    rw [logLoop_eq_outcome, outcome_eq_ok, Option.bind_eq_some_iff] at hevent
    obtain ⟨packetLog, hfirst, hevent⟩ := hevent
    obtain ⟨unstamped, hunstamped, rfl⟩ := Option.map_eq_some_iff.mp hevent
    have hmem : packetLog ∈ r.logs := List.mem_of_find?_eq_some hfirst
    have hindex := parse_of_packetEvent hunstamped
    have he : SameHeader r' (evidenceOf r blockNumber packetLog (packetLogIndex packetLog)) :=
      { blockHash_eq := hblockHash
        blockNumber_eq := hblockNumber ▸ hparsed
        status_eq := hstatuses
        status_one := hstatuses ▸ hstatus
        transactionHash_eq := htransactionHash }
    obtain ⟨haddress, hdata⟩ := hnormal.lower hmem
    refine ⟨packetLog, hmem, _, rfl, rfl, hindex, ?_⟩
    rw [validateReceiptBinding_eq hnormal' he haddress hdata rfl]
    constructor
    · rintro ⟨log, hlog, hlogIndex, hsame⟩
      refine ⟨log, hlog, ?_, hsame⟩
      rw [(hnormal'.canonical hlog).eq_repr hlogIndex, (hnormal.canonical hmem).eq_repr hindex]
      rfl
    · rintro ⟨log, hlog, hlogIndex, hsame⟩
      exact ⟨log, hlog, hlogIndex ▸ hindex, hsame⟩

theorem logLoop_singleton {env : Env} {config : Config} {lzMessageId : LzMessageId} {srcTxHash : String}
    {receipt : EvmTransactionReceipt} {blockNumber : Int} {log : EvmReceiptLog} {event : LzSentEvent}
    (h : verdictOf env config lzMessageId srcTxHash receipt blockNumber log = .hit event) :
    logLoop env config lzMessageId srcTxHash receipt blockNumber [log] = .ok event := by
  rw [logLoop_eq, outcome_eq_ok, List.findSome?_cons, h]
  rfl

/-- The sample packet's receipt, with its log under an index. -/
def renumbered (logIndex : String) : EvmTransactionReceipt := sampleReceipt [sampleLog ethereumUlnV2 101 logIndex]

theorem normalize_renumbered {logIndex : String} (h : parseNumericString logIndex = .some logIndex) :
    normalize (renumbered logIndex) "0xab" = .ok (renumbered logIndex) := by
  refine normalize_sampleReceipt ?_ (List.nodup_singleton _)
  intro log hlog
  rw [List.mem_singleton.mp hlog]
  exact normalizeLog_sampleLog ethereumUlnV2 101 h

theorem sentEvent_renumbered {logIndex : String} {index : Nat} (h : parse 64 logIndex = .ok index) :
    ∃ event, sentEventOfReceipt sampleEnv sampleConfig sampleMessageId "0xab" (renumbered logIndex) = .ok event ∧
      event.sourceEvidence =
        .some (evidenceOf (renumbered logIndex) 16 (sampleLog ethereumUlnV2 101 logIndex) index) := by
  obtain ⟨event, hverdict, hevidence⟩ := verdictOf_sampleLog "0xab" (renumbered logIndex) 16 h
  have hsixteen : parseSigned 64 "16" = .ok 16 := by decide +kernel
  have hnumber : parseSigned 64 (renumbered logIndex).blockNumber = .ok 16 := hsixteen
  refine ⟨event, ?_, hevidence⟩
  have hlogs : (renumbered logIndex).logs = [sampleLog ethereumUlnV2 101 logIndex] := rfl
  rw [sentEventOfReceipt, hnumber]
  dsimp only
  rw [hlogs]
  exact logLoop_singleton hverdict

theorem validateReceiptBinding_unchanged :
    ∃ event evidence, sentEventOfReceipt sampleEnv sampleConfig sampleMessageId "0xab" (renumbered "0") = .ok event ∧
      event.sourceEvidence = .some evidence ∧
      validateReceiptBinding (receiptResponse (renumbered "0")) evidence "0xab" = .ok () := by
  have hnumeric : parseNumericString "0" = .some "0" := by decide +kernel
  have hzero : parse 64 "0" = .ok 0 := by decide
  obtain ⟨event, hevent, -⟩ := sentEvent_renumbered hzero
  obtain ⟨packetLog, hmem, evidence, hevidence, -, -, hiff⟩ := validateReceiptBinding_iff sampleEnv sampleConfig
    sampleMessageId "0xab" sampleDigest (normalize_renumbered hnumeric) (normalize_renumbered hnumeric) rfl rfl
    (fun _ => rfl) hevent
  exact ⟨event, evidence, hevent, hevidence, hiff.mpr ⟨packetLog, hmem, rfl, rfl⟩⟩

/-- Two providers number the one log from 0 and from 1. They cast one vote, and
the second is told that the source changed. -/
theorem renumbered_receipt_refused :
    normalize (renumbered "0") "0xab" = .ok (renumbered "0") ∧
    normalize (renumbered "1") "0xab" = .ok (renumbered "1") ∧
    (renumbered "0").status = "1" ∧ (renumbered "1").status = "1" ∧
    (∀ digest, evmReceiptFingerprint digest (renumbered "0") = evmReceiptFingerprint digest (renumbered "1")) ∧
    ∃ event evidence, sentEventOfReceipt sampleEnv sampleConfig sampleMessageId "0xab" (renumbered "0") = .ok event ∧
      event.sourceEvidence = .some evidence ∧
      validateReceiptBinding (receiptResponse (renumbered "1")) evidence "0xab" ≠ .ok () := by
  have hzero : parse 64 "0" = .ok 0 := by decide
  have hone : parse 64 "1" = .ok 1 := by decide
  have hnumeric : parseNumericString "0" = .some "0" := by decide +kernel
  have hnumeric' : parseNumericString "1" = .some "1" := by decide +kernel
  have hnormal := normalize_renumbered hnumeric'
  obtain ⟨event, hevent, hevidence⟩ := sentEvent_renumbered hzero
  refine ⟨normalize_renumbered hnumeric, hnormal, rfl, rfl, fun digest => ?_, event, _, hevent, hevidence, ?_⟩
  · rw [evmReceiptFingerprint, evmReceiptFingerprint, renumbered, renumbered, votedReceipt_renumbered]
  · have he : SameHeader (renumbered "1") (evidenceOf (renumbered "0") 16 (sampleLog ethereumUlnV2 101 "0") 0) :=
      { blockHash_eq := rfl
        blockNumber_eq := by decide +kernel
        status_eq := rfl
        status_one := rfl
        transactionHash_eq := rfl }
    have hlower := (normal_of_normalize (normalize_renumbered hnumeric)).lower (List.mem_singleton_self _)
    rw [Ne, validateReceiptBinding_eq (normal_of_normalize hnormal) he hlower.1 hlower.2 rfl]
    rintro ⟨log, hlog, hindex, -⟩
    rw [List.mem_singleton.mp hlog] at hindex
    have hindex' : parse 64 "1" = .ok 0 := hindex
    rw [hone] at hindex'
    cases hindex'

end Pillar.Receipt
