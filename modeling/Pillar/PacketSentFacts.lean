/-
The scan for a sent packet always answers, and logs of contracts that are not
bound to their kind change nothing in its answer.
-/
import Pillar.PacketFacts
import Pillar.PacketSent

namespace Pillar.PacketSent

open Bits Hex Text Abi Packet RelayerOptions

variable {env : Env}

/-! ## Every step returns -/

theorem returns_decodeLzPacketV1 (hex : HexCrate) (value : String) : (decodeLzPacketV1 hex value).Returns := by
  refine (returns_decodeHexBytes value).bind fun bytes _ => ?_
  split
  next => exact Exec.returns_err _
  next hlen =>
    rw [not_lt] at hlen
    obtain ⟨version, hversion⟩ : ∃ version, bytes[0]? = .some version :=
      ⟨bytes[0], List.getElem?_eq_getElem (by omega)⟩
    rw [hversion, Exec.get_some, Exec.ok_bind]
    split
    next => exact Exec.returns_err _
    next hone =>
      obtain ⟨v, rfl⟩ := exists_encode hlen (hversion.trans (congrArg _ (not_not.mp hone)))
      rw [decodeFields_encode]
      exact Exec.returns_ok _

theorem returns_fromBeBytes (n : Nat) (error : String) (bytes : List UInt8) : (fromBeBytes n error bytes).Returns := by
  unfold fromBeBytes
  split
  · exact Exec.returns_ok _
  · exact Exec.returns_err _

/-- A number read from a slice that is there. -/
theorem returns_sliceNumber {l : List UInt8} {start stop n : Nat} {error : String} (h : start ≤ stop)
    (h' : stop ≤ l.length) : (Exec.slice l start stop >>= fromBeBytes n error).Returns :=
  (returns_slice h h').bind fun bytes _ => returns_fromBeBytes n error bytes

theorem returns_decodeEvmLegacyPacketV2Payload (payload : List UInt8) :
    (decodeEvmLegacyPacketV2Payload env payload).Returns := by
  unfold decodeEvmLegacyPacketV2Payload
  split
  next => exact Exec.returns_err _
  next hlen =>
    refine (returns_sliceNumber (by omega) (by omega)).bind fun nonce _ =>
      (returns_sliceNumber (by omega) (by omega)).bind fun srcEid _ =>
      (returns_sliceNumber (by omega) (by omega)).bind fun dstEid _ => ?_
    dsimp only
    split
    next => exact Exec.returns_err _
    next hend =>
      exact (returns_slice (by omega) (by omega)).bind fun sender _ =>
        (returns_slice (by omega) (by omega)).bind fun receiver _ =>
        (returns_slice (by omega) le_rfl).bind fun message _ => Exec.returns_ok _

theorem length_hexText (hex : HexCrate) (bytes : List UInt8) :
    (hexText hex bytes).toList.length = 2 + 2 * bytes.length := by
  rw [hexText, String.toList_append, List.length_append, hex.toList_encode, length_encodeChars]
  rfl

/-- An address read from a word has forty digits. -/
theorem abiAddress_yields (hex : HexCrate) (data : List UInt8) (index headWords : Nat)
    (hhead : headWords * 32 ≤ usizeMax := by decide) :
    (abiAddress hex data index headWords).Yields fun address => address.toList.length ≤ 64 := by
  refine ⟨returns_abiAddress data index headWords hhead, fun address h => ?_⟩
  obtain ⟨start, -, h⟩ := Exec.bind_ok_iff.mp h
  obtain ⟨word, hword, h⟩ := Exec.bind_ok_iff.mp h
  obtain ⟨digits, hdigits, h⟩ := Exec.bind_ok_iff.mp h
  cases h
  have hshort : digits.length ≤ 20 := by
    unfold Exec.slice at hword hdigits
    split at hword
    next =>
      cases hword
      split at hdigits
      next =>
        cases hdigits
        simp only [List.length_take, List.length_drop]
        omega
      next => cases hdigits
    next => cases hword
  have := length_hexText hex digits
  rw [hexText] at this
  omega

@[simp] theorem toAsciiLowercase_hexText (hex : HexCrate) (bytes : List UInt8) :
    toAsciiLowercase (hexText hex bytes) = hexText hex bytes := by
  rw [hexText, toAsciiLowercase_append, hex.toAsciiLowercase_encode]
  rfl

/-- A kind that names a send library names it by an address. -/
def EvmPacketSentKind.Short : EvmPacketSentKind → Prop
  | .endpointV2 sendLibrary => sendLibrary.toList.length ≤ 64
  | _ => True

theorem decodeEvmPacketSentLog_yields (topics : List String) (data : String) :
    (decodeEvmPacketSentLog env topics data).Yields fun packetSent => packetSent.kind.Short := by
  unfold decodeEvmPacketSentLog
  split
  next => exact Exec.yields_err _ _
  next topic _ =>
    refine (returns_decodeHexBytes data).yields_bind fun bytes _ => ?_
    split
    · exact (returns_abiDynamicBytes bytes 0 1).yields_bind fun payload _ =>
        (returns_decodeEvmLegacyPacketV2Payload payload).yields_bind fun packet _ => Exec.yields_ok trivial
    · split
      · refine (returns_abiDynamicBytes bytes 0 3).yields_bind fun payload _ =>
          (returns_abiDynamicBytes bytes 1 3).yields_bind fun options _ =>
          (abiAddress_yields env.hex bytes 2 3).bind fun sendLibrary hshort => ?_
        exact (returns_decodeLzPacketV1 env.hex _).yields_bind fun packet _ => Exec.yields_ok hshort
      · split
        · exact (returns_abiDynamicBytes bytes 0 4).yields_bind fun payload _ =>
            (returns_abiDynamicBytes bytes 1 4).yields_bind fun options _ =>
            (returns_decodeLzPacketV1 env.hex _).yields_bind fun packet _ => Exec.yields_ok trivial
        · exact Exec.yields_err _ _

theorem trimHexPrefixes_eq_self {chars : List Char} (h : 'x' ∉ chars) : trimHexPrefixes chars = chars := by
  fun_induction trimHexPrefixes chars with
  | case1 rest ih => exact absurd (by simp) h
  | case2 chars => rfl

theorem trimHexPrefixes_append (chars : List Char) : trimHexPrefixes ("0x".toList ++ chars) = trimHexPrefixes chars :=
  rfl

theorem length_trimHexPrefixes : ∀ chars, (trimHexPrefixes chars).length ≤ chars.length := by
  intro chars
  fun_induction trimHexPrefixes chars with
  | case1 rest ih =>
    simp only [List.length_cons]
    omega
  | case2 => exact le_rfl

theorem checksumChar_gives (hash : Bytes 32) {index : Nat} (character : Char) (h : index < 64) :
    (checksumChar hash.val character index).Gives fun _ => True := by
  have hindex : index / 2 < hash.val.length := by
    rw [hash.length_val]
    omega
  rw [checksumChar, List.getElem?_eq_getElem hindex, Exec.get_some, Exec.ok_bind]
  exact Exec.gives_ok trivial

theorem checksumChars_gives (hash : Bytes 32) (chars : List Char) (h : chars.length ≤ 64) :
    (chars.zipIdx.mapM fun (character, index) => checksumChar hash.val character index).Gives
      (List.Forall₂ (fun _ _ => True) chars.zipIdx) := by
  refine Exec.gives_mapM _ fun p hp => checksumChar_gives hash p.1 ?_
  have hindex := List.snd_lt_of_mem_zipIdx hp
  omega

theorem evmChecksumAddress_gives {address : String} (h : address.toList.length ≤ 64) :
    (evmChecksumAddress env address).Gives fun _ => True := by
  have hlen := length_trimHexPrefixes address.toList
  refine (checksumChars_gives _ ((trimHexPrefixes address.toList).map lowerChar) ?_).bind fun chars _ =>
    Exec.gives_ok trivial
  rw [List.length_map]
  omega

theorem returns_evmChecksumAddress {address : String} (h : address.toList.length ≤ 64) :
    (evmChecksumAddress env address).Returns := by
  obtain ⟨text, htext, -⟩ := evmChecksumAddress_gives h
  rw [htext]
  exact Exec.returns_ok _

theorem returns_orOptionsError {α : Type} (x : Except String α) : (orOptionsError x).Returns := by
  cases x with
  | ok a => exact Exec.returns_ok a
  | error e => exact Exec.returns_err _

theorem returns_guidAndOptions (ulnSendVersion dstChainName guid options : String) :
    (guidAndOptions env ulnSendVersion dstChainName guid options).Returns := by
  unfold guidAndOptions
  split
  · exact Exec.returns_ok _
  · exact (returns_orOptionsError _).bind fun bytes _ => (returns_orOptionsError _).bind fun options _ =>
      Exec.returns_ok _

theorem length_toAsciiLowercase (s : String) : (toAsciiLowercase s).toList.length = s.toList.length := by
  rw [toList_toAsciiLowercase, List.length_map]

/-- A bound emitter is as short as its contract's address, and so is its send library. -/
theorem boundEvmPacketSentVersion_short {bindings : EvmPacketSentBindings} {kind : EvmPacketSentKind}
    {emitter sendLibrary version : String} (hkind : kind.Short)
    (h : boundEvmPacketSentVersion bindings kind emitter = .ok (sendLibrary, version)) :
    emitter.toList.length ≤ 64 ∧ sendLibrary.toList.length ≤ 64 := by
  have hemitter : ∀ contract : Address, normalizeAddress emitter = contract.val → emitter.toList.length ≤ 64 := by
    intro contract he
    rw [← length_toAsciiLowercase, ← normalizeAddress, he]
    exact contract.property
  unfold boundEvmPacketSentVersion at h
  cases kind with
  | endpointV2 library =>
    dsimp only at h
    split at h
    next => cases h
    next he =>
      split at h
      next => cases h
      next =>
        cases h
        exact ⟨hemitter _ (not_not.mp he), hkind⟩
  | sendUln301 =>
    dsimp only at h
    split at h
    next => cases h
    next he =>
      cases h
      obtain ⟨contract, -, hcontract⟩ := Option.map_eq_some_iff.mp (not_not.mp he)
      exact ⟨hemitter contract hcontract.symm, hemitter contract hcontract.symm⟩
  | ultraLightNodeV2 =>
    dsimp only at h
    split at h
    next => cases h
    next he =>
      cases h
      obtain ⟨contract, -, hcontract⟩ := Option.map_eq_some_iff.mp (not_not.mp he)
      exact ⟨hemitter contract hcontract.symm, hemitter contract hcontract.symm⟩

variable {config : Config}

theorem returns_packetSentToLzSentEvent {srcChainName srcTxHash : String} {packetSent : EvmPacketSent}
    {logAddress : String} {evidence : EvmSourceEvidence} (hkind : packetSent.kind.Short) :
    (packetSentToLzSentEvent env config srcChainName srcTxHash packetSent logAddress evidence).Returns := by
  unfold packetSentToLzSentEvent
  split
  next => exact Exec.returns_err _
  next bindings _ =>
    split
    next => exact Exec.returns_err _
    next sendLibrary version hbound =>
      obtain ⟨hemitter, hlibrary⟩ := boundEvmPacketSentVersion_short hkind hbound
      dsimp only
      split
      next => exact Exec.returns_ok _
      next => exact Exec.returns_ok _
      next src dst _ =>
        refine (returns_guidAndOptions _ _ _ _).bind fun extra _ => ?_
        have hrender : (renderSendLibrary env version sendLibrary).Returns := by
          unfold renderSendLibrary
          split
          · exact Exec.returns_ok _
          · exact returns_evmChecksumAddress hlibrary
        exact hrender.bind fun library _ => (returns_evmChecksumAddress hemitter).bind fun emit _ => Exec.returns_ok _

/-! ## What a log amounts to -/

section

variable (env config) (lzMessageId : LzMessageId) (srcTxHash : String) (receipt : EvmTransactionReceipt)
  (blockNumber : Int)

/-- The loop's verdict on a log. -/
def verdictOf (log : EvmReceiptLog) : Verdict AppCoreError LzSentEvent :=
  match judgeLog env config lzMessageId srcTxHash receipt blockNumber log with
  | .ok verdict => verdict
  | .error _ => .skip

/-- What makes a log the packet's: it decodes, has a `u64` index, comes from the
contract bound to its kind, converts, and matches the message. -/
def Accepts (bindings : EvmPacketSentBindings) (log : EvmReceiptLog) (event : LzSentEvent) : Prop :=
  ∃ packetSent packetLogIndex version,
    decodeEvmPacketSentLog env log.topics log.data = .ok packetSent ∧
    parse 64 log.logIndex = .ok packetLogIndex ∧
    boundEvmPacketSentVersion bindings packetSent.kind log.address = .ok version ∧
    packetSentToLzSentEvent env config lzMessageId.pathwayId.srcChainName srcTxHash packetSent log.address
      (evidenceOf receipt blockNumber log packetLogIndex) = .ok (.converted event) ∧
    lzMessageIdMatches env lzMessageId event.lzMessageId = true

/-- The log comes from the one contract bound to its kind. -/
def isBound (bindings : EvmPacketSentBindings) (log : EvmReceiptLog) : Bool :=
  match decodeEvmPacketSentLog env log.topics log.data with
  | .ok packetSent => (boundEvmPacketSentVersion bindings packetSent.kind log.address).isOk
  | .error _ => false

end

variable {lzMessageId : LzMessageId} {srcTxHash : String} {receipt : EvmTransactionReceipt} {blockNumber : Int}
  {bindings : EvmPacketSentBindings}

theorem Returns.cases {ε α : Type} {x : Exec ε α} (h : x.Returns) : (∃ a, x = .ok a) ∨ ∃ e, x = .error (.err e) := by
  cases x with
  | ok a => exact .inl ⟨a, rfl⟩
  | error halt =>
    cases halt with
    | err e => exact .inr ⟨e, rfl⟩
    | panic => exact absurd rfl h.1
    | fuel => exact absurd rfl h.2

/-- **The loop body always answers.** -/
theorem judgeLog_eq (log : EvmReceiptLog) :
    judgeLog env config lzMessageId srcTxHash receipt blockNumber log =
      .ok (verdictOf env config lzMessageId srcTxHash receipt blockNumber log) := by
  suffices h : ∃ verdict, judgeLog env config lzMessageId srcTxHash receipt blockNumber log = .ok verdict by
    obtain ⟨verdict, h⟩ := h
    rw [verdictOf, h]
  obtain ⟨hreturns, hkind⟩ : (decodeEvmPacketSentLog env log.topics log.data).Yields _ :=
    decodeEvmPacketSentLog_yields log.topics log.data
  unfold judgeLog
  obtain ⟨packetSent, hdecode⟩ | ⟨e, hdecode⟩ := Returns.cases hreturns
  · rw [hdecode]
    cases parse 64 log.logIndex with
    | error e => exact ⟨_, rfl⟩
    | ok index =>
      dsimp only
      obtain ⟨conversion, hconvert⟩ | ⟨e, hconvert⟩ := Returns.cases (returns_packetSentToLzSentEvent
        (hkind packetSent hdecode))
      · rw [hconvert]
        cases conversion with
        | notOurs => exact ⟨_, rfl⟩
        | sourceFault error => exact ⟨_, rfl⟩
        | converted event =>
          dsimp only
          split <;> exact ⟨_, rfl⟩
      · rw [hconvert]
        exact ⟨_, rfl⟩
  · rw [hdecode]
    exact ⟨_, rfl⟩

/-- What a conversion says of the log's contract. -/
theorem bound_of_conversion {srcChainName : String} {packetSent : EvmPacketSent} {logAddress : String}
    {evidence : EvmSourceEvidence} {conversion : SourceEventConversion}
    (hb : config.packetSentBindingsByChainName srcChainName = .some bindings)
    (h : packetSentToLzSentEvent env config srcChainName srcTxHash packetSent logAddress evidence = .ok conversion) :
    ∃ version, boundEvmPacketSentVersion bindings packetSent.kind logAddress = .ok version := by
  unfold packetSentToLzSentEvent at h
  rw [hb] at h
  cases hbound : boundEvmPacketSentVersion bindings packetSent.kind logAddress with
  | ok version => exact ⟨version, rfl⟩
  | error reason =>
    simp only [hbound] at h
    cases h

theorem verdictOf_cases {log : EvmReceiptLog} {verdict : Verdict AppCoreError LzSentEvent}
    (h : verdictOf env config lzMessageId srcTxHash receipt blockNumber log = verdict) :
    verdict = .skip ∨ ∃ packetSent packetLogIndex conversion,
      decodeEvmPacketSentLog env log.topics log.data = .ok packetSent ∧ parse 64 log.logIndex = .ok packetLogIndex ∧
      packetSentToLzSentEvent env config lzMessageId.pathwayId.srcChainName srcTxHash packetSent log.address
        (evidenceOf receipt blockNumber log packetLogIndex) = .ok conversion ∧
      ((∃ error, conversion = .sourceFault error ∧ verdict = .fault error) ∨
        ∃ event, conversion = .converted event ∧ lzMessageIdMatches env lzMessageId event.lzMessageId = true ∧
          verdict = .hit event) := by
  have h := h ▸ judgeLog_eq log
  unfold judgeLog at h
  split at h
  next =>
    cases h
    exact .inl rfl
  next => cases h
  next packetSent hdecode =>
    split at h
    next =>
      cases h
      exact .inl rfl
    next index hindex =>
      split at h
      next =>
        cases h
        exact .inl rfl
      next => cases h
      next =>
        cases h
        exact .inl rfl
      next error hconvert =>
        cases h
        exact .inr ⟨packetSent, index, _, hdecode, hindex, hconvert, .inl ⟨error, rfl, rfl⟩⟩
      next event hconvert =>
        split at h
        next hmatches =>
          cases h
          exact .inr ⟨packetSent, index, _, hdecode, hindex, hconvert, .inr ⟨event, rfl, hmatches, rfl⟩⟩
        next =>
          cases h
          exact .inl rfl

theorem verdictOf_hit (hb : config.packetSentBindingsByChainName lzMessageId.pathwayId.srcChainName = .some bindings)
    {log : EvmReceiptLog} {event : LzSentEvent} :
    verdictOf env config lzMessageId srcTxHash receipt blockNumber log = .hit event ↔
      Accepts env config lzMessageId srcTxHash receipt blockNumber bindings log event := by
  constructor
  · intro h
    obtain hskip | ⟨packetSent, index, _, hdecode, hindex, hconvert,
      ⟨_, rfl, hfault⟩ | ⟨event', rfl, hmatches, hhit⟩⟩ :=
      verdictOf_cases h
    · cases hskip
    · cases hfault
    · cases hhit
      obtain ⟨version, hbound⟩ := bound_of_conversion hb hconvert
      exact ⟨packetSent, index, version, hdecode, hindex, hbound, hconvert, hmatches⟩
  · rintro ⟨packetSent, index, version, hdecode, hindex, -, hconvert, hmatches⟩
    simp only [verdictOf, judgeLog, hdecode, hindex, hconvert, hmatches, if_true]

/-- A log of another contract is passed over. -/
theorem verdictOf_foreign (hb : config.packetSentBindingsByChainName lzMessageId.pathwayId.srcChainName =
    .some bindings)
    {log : EvmReceiptLog} (h : isBound env bindings log = false) :
    verdictOf env config lzMessageId srcTxHash receipt blockNumber log = .skip := by
  obtain hskip | ⟨packetSent, index, conversion, hdecode, -, hconvert, -⟩ :=
    verdictOf_cases (rfl : verdictOf env config lzMessageId srcTxHash receipt blockNumber log = _)
  · exact hskip
  · obtain ⟨version, hbound⟩ := bound_of_conversion hb hconvert
    simp only [isBound, hdecode, hbound] at h
    cases h

theorem logLoop_eq (logs : List EvmReceiptLog) :
    logLoop env config lzMessageId srcTxHash receipt blockNumber logs = outcome (packetDoesNotMatch srcTxHash)
      (logs.findSome? fun log => (verdictOf env config lzMessageId srcTxHash receipt blockNumber log).hit?)
      (logs.findSome? fun log => (verdictOf env config lzMessageId srcTxHash receipt blockNumber log).fault?) := by
  rw [logLoop, scan_eq logs fun log _ => judgeLog_eq log, Option.none_or]

/-- **Packet selection ignores the logs of foreign contracts.** The loop returns
an event just when some log is accepted, and it is the event of the first such
log; and two lists that differ only in logs of contracts not bound to their
kind, any of them at any places, have the same event or the same error. -/
theorem logLoop_ignores_foreign (env : Env) (config : Config) (lzMessageId : LzMessageId) (srcTxHash : String)
    (receipt : EvmTransactionReceipt) (blockNumber : Int) {bindings : EvmPacketSentBindings}
    (hb : config.packetSentBindingsByChainName lzMessageId.pathwayId.srcChainName = .some bindings) :
    (∀ logs event, logLoop env config lzMessageId srcTxHash receipt blockNumber logs = .ok event ↔
      ∃ before log after, logs = before ++ log :: after ∧
        Accepts env config lzMessageId srcTxHash receipt blockNumber bindings log event ∧
        ∀ l ∈ before, ∀ e, ¬ Accepts env config lzMessageId srcTxHash receipt blockNumber bindings l e) ∧
    ∀ logs logs', logs.filter (isBound env bindings) = logs'.filter (isBound env bindings) →
      logLoop env config lzMessageId srcTxHash receipt blockNumber logs =
        logLoop env config lzMessageId srcTxHash receipt blockNumber logs' := by
  constructor
  · intro logs event
    rw [logLoop_eq, outcome_eq_ok, List.findSome?_eq_some_iff]
    constructor
    · rintro ⟨before, log, after, rfl, hhit, hbefore⟩
      refine ⟨before, log, after, rfl, (verdictOf_hit hb).mp (Verdict.hit?_eq_some.mp hhit), fun l hl e haccepts => ?_⟩
      have hnone := hbefore l hl
      rw [(verdictOf_hit hb).mpr haccepts] at hnone
      cases hnone
    · rintro ⟨before, log, after, rfl, haccepts, hbefore⟩
      refine ⟨before, log, after, rfl, Verdict.hit?_eq_some.mpr ((verdictOf_hit hb).mpr haccepts), fun l hl => ?_⟩
      rw [Option.eq_none_iff_forall_ne_some]
      exact fun e he => hbefore l hl e ((verdictOf_hit hb).mp (Verdict.hit?_eq_some.mp he))
  · intro logs logs' h
    have hfilter : ∀ l : List EvmReceiptLog,
        logLoop env config lzMessageId srcTxHash receipt blockNumber (l.filter (isBound env bindings)) =
          logLoop env config lzMessageId srcTxHash receipt blockNumber l :=
      fun l => scan_filter l (fun log _ => judgeLog_eq log) _ (fun log _ => verdictOf_foreign hb) .none
    rw [← hfilter logs, h, hfilter logs']

/-! ## A packet from Ethereum to BSC -/

/-- A chain with addresses of twenty bytes writes them as the packet does. -/
theorem addressEncodedByChain_hexText {chainName : String} {bytes : List UInt8} (hsolana : chainName ≠ "solana")
    (hwide : chainName ∉ wideChains) (hlen : bytes.length = 20) :
    addressEncodedByChain env chainName (hexText env.hex bytes) = .some (hexText env.hex bytes) := by
  have hsize : (env.hex.encode bytes).utf8ByteSize = 40 := by rw [env.hex.utf8ByteSize_encode, hlen]
  have hdigits : (env.hex.encode bytes).toList.all (fun c => (hexDigit? c).isSome) = true := by
    rw [env.hex.toList_encode, List.all_eq_true]
    intro c hc
    obtain ⟨n, hn, rfl⟩ := mem_encodeChars hc
    rw [hexDigit?_digit hn]
    rfl
  have hpadded : (padLeft 64 (env.hex.encode bytes)).toList = List.replicate 24 '0' ++ encodeChars bytes := by
    rw [padLeft, String.toList_append, String.toList_ofList, env.hex.toList_encode, length_encodeChars, hlen]
  unfold addressEncodedByChain
  rw [hexText, stripPrefix_append, Option.getD_some, env.hex.toAsciiLowercase_encode]
  dsimp only
  rw [hsize, hdigits, if_neg (by decide), if_neg hsolana, if_neg hwide, hpadded,
    List.take_left' List.length_replicate, List.drop_left' List.length_replicate, if_pos (by decide),
    ← env.hex.toList_encode, String.ofList_toList]

/-- Ethereum's UltraLightNodeV2. -/
def ethereumUlnV2 : List UInt8 :=
  [77, 115, 173, 183, 43, 195, 221, 54, 137, 102, 237, 208, 240, 178, 20, 132, 1, 161, 120, 226]

/-- Keccak-256 of its forty digits. -/
def ethereumUlnV2Hash : Bytes 32 :=
  ⟨[223, 47, 167, 131, 70, 140, 202, 45, 162, 245, 117, 233, 25, 99, 223, 132, 191, 182, 39, 253, 141, 110, 106, 140,
    110, 6, 189, 139, 104, 16, 211, 233], rfl⟩

def sampleChainName (eid : UInt32) : Option String :=
  if eid = 101 then .some "ethereum" else if eid = 102 then .some "bsc" else .none

def sampleEnv : Env where
  hex := .plain
  bs58 _ := .error "provided string contained invalid character 'x' at byte 1"
  keccak256 _ := ethereumUlnV2Hash
  bs58Encode _ := ""
  toLowercase := toAsciiLowercase
  layerzeroLegacyChainName := sampleChainName

def sampleAddress (bytes : Bytes 20) : Address :=
  ⟨hexText .plain bytes.val, by rw [length_hexText, bytes.length_val]; decide⟩

def sampleBindings : EvmPacketSentBindings where
  endpointV2 := sampleAddress ⟨List.replicate 20 26, rfl⟩
  endpointV2SendLibraryVersions _ := .none
  sendUln301 := .none
  ulnV2 := .some (sampleAddress ⟨ethereumUlnV2, rfl⟩)

def sampleConfig : Config where
  chainNameByEid := sampleChainName
  packetSentBindingsByChainName name := if name = "ethereum" then .some sampleBindings else .none

def sampleSender : String := hexText .plain (List.replicate 20 17)
def sampleReceiver : String := hexText .plain (List.replicate 20 34)

def sampleMessageId : LzMessageId where
  pathwayId :=
    { srcChainName := "ethereum"
      dstChainName := "bsc"
      extra := [("srcEid", .ofU32 101), ("dstEid", .ofU32 102), ("sender", .string sampleSender),
        ("receiver", .string sampleReceiver)] }
  nonce := 7
  ulnSendVersion := .string "V2"

def samplePayload (srcEid : UInt16) : List UInt8 :=
  bytesOf 8 7 ++ bytesOf 2 srcEid.toNat ++ List.replicate 20 17 ++ bytesOf 2 102 ++ List.replicate 20 34 ++ [1, 2, 3]

/-- A ULNv2 log, ABI encoded. -/
def sampleLog (emitter : List UInt8) (srcEid : UInt16) (logIndex : String) : EvmReceiptLog where
  address := hexText .plain emitter
  topics := [legacyUlnV2PacketTopic]
  data := hexText .plain (bytesOf 32 32 ++ bytesOf 32 55 ++ samplePayload srcEid)
  transactionHash := "0xab"
  blockHash := "0xcd"
  blockNumber := "16"
  logIndex
  removed := false

def sampleReceipt (logs : List EvmReceiptLog) : EvmTransactionReceipt where
  transactionHash := "0xab"
  blockHash := "0xcd"
  blockNumber := "16"
  status := "1"
  logs

def samplePacket (srcEid : UInt16) : LzPacketV1 where
  nonce := 7
  srcEid := .ofNat srcEid.toNat
  sender := sampleSender
  dstEid := 102
  receiver := sampleReceiver
  guid := zeroGuid
  message := hexText .plain [1, 2, 3]

theorem decode_samplePayload (srcEid : UInt16) :
    decodeEvmLegacyPacketV2Payload sampleEnv (samplePayload srcEid) = .ok (samplePacket srcEid) := by
  have hdecode : decodeEvmLegacyPacketV2Payload sampleEnv (samplePayload srcEid) =
      .ok { samplePacket srcEid with srcEid := .ofNat (ofBytes (bytesOf 2 srcEid.toNat)) } := rfl
  rw [hdecode, ofBytes_bytesOf srcEid.toNat_lt]
  rfl

theorem length_samplePayload (srcEid : UInt16) : (samplePayload srcEid).length = 55 := by
  simp only [samplePayload, List.length_append, length_bytesOf, List.length_replicate, List.length_cons,
    List.length_nil]

theorem decode_sampleLog (emitter : List UInt8) (srcEid : UInt16) (logIndex : String) :
    decodeEvmPacketSentLog sampleEnv (sampleLog emitter srcEid logIndex).topics
    (sampleLog emitter srcEid logIndex).data =
      .ok { packet := samplePacket srcEid, options := "0x", kind := .ultraLightNodeV2 } := by
  have hlower : toAsciiLowercase legacyUlnV2PacketTopic = legacyUlnV2PacketTopic := by decide +kernel
  have hdata : decodeHexBytes sampleEnv.hex (sampleLog emitter srcEid logIndex).data = _ := decodeHexBytes_prefixed _
  have hbody : abiDynamicBytes (bytesOf 32 32 ++ bytesOf 32 55 ++ samplePayload srcEid) 0 1 =
    .ok (samplePayload srcEid) := by
    refine abiDynamicBytes_single (length_bytesOf _ _) (length_bytesOf _ _) (by decide +kernel) ?_ ?_
    · rw [length_samplePayload]
      decide +kernel
    · rw [length_samplePayload]
      decide
  unfold decodeEvmPacketSentLog
  rw [hdata]
  simp only [sampleLog, List.head?_cons, Exec.ok_bind, hbody, decode_samplePayload]
  exact if_pos hlower


theorem sampleBindings_ulnV2 : sampleBindings.ulnV2.map Subtype.val = .some (hexText .plain ethereumUlnV2) := rfl

theorem bound_sampleLog (srcEid : UInt16) (logIndex : String) :
    boundEvmPacketSentVersion sampleBindings .ultraLightNodeV2 (sampleLog ethereumUlnV2 srcEid logIndex).address =
      .ok (hexText .plain ethereumUlnV2, "V2") := by
  have hemitter : sampleBindings.ulnV2.map Subtype.val =
      .some (normalizeAddress (sampleLog ethereumUlnV2 srcEid logIndex).address) := by
    rw [normalizeAddress, sampleLog, toAsciiLowercase_hexText, sampleBindings_ulnV2]
  exact if_neg (not_not.mpr hemitter)

theorem sampleMessageId_matches : lzMessageIdMatches sampleEnv sampleMessageId sampleMessageId = true := by
  have hsender : addressEncodedByChain sampleEnv "ethereum" sampleSender = .some sampleSender :=
    addressEncodedByChain_hexText (by decide) (by decide) List.length_replicate
  have hreceiver : addressEncodedByChain sampleEnv "bsc" sampleReceiver = .some sampleReceiver :=
    addressEncodedByChain_hexText (by decide) (by decide) List.length_replicate
  simp [lzMessageIdMatches, pathwayIdentityMatches, sampleMessageId, Extra.get, List.lookup, hsender, hreceiver]

theorem convert_sampleLog (srcTxHash logIndex : String) (evidence : EvmSourceEvidence) :
    ∃ event, packetSentToLzSentEvent sampleEnv sampleConfig sampleMessageId.pathwayId.srcChainName srcTxHash
        { packet := samplePacket 101, options := "0x", kind := .ultraLightNodeV2 }
        (sampleLog ethereumUlnV2 101 logIndex).address evidence = .ok (.converted event) ∧
      event.lzMessageId = sampleMessageId ∧ event.sourceEvidence = .some evidence := by
  have hbindings : sampleConfig.packetSentBindingsByChainName sampleMessageId.pathwayId.srcChainName =
      .some sampleBindings := rfl
  have hflip : flipRead "V2" (samplePacket 101) = samplePacket 101 := if_neg (by decide)
  have hends : packetEnds sampleConfig (samplePacket 101) = .chains "ethereum" "bsc" := rfl
  obtain ⟨checksum, hchecksum, -⟩ : (evmChecksumAddress sampleEnv (hexText .plain ethereumUlnV2)).Gives fun _ => True :=
    evmChecksumAddress_gives (by rw [length_hexText]; decide)
  unfold packetSentToLzSentEvent
  simp only [hbindings, bound_sampleLog, hflip, hends, convertedEvent]
  rw [guidAndOptions, if_pos (by rfl), Exec.ok_bind, renderSendLibrary, if_neg (by decide), hchecksum, Exec.ok_bind,
    sampleLog, hchecksum, Exec.ok_bind]
  simp only [samplePacket]
  exact ⟨_, rfl, rfl, rfl⟩

theorem verdictOf_sampleLog (srcTxHash : String) (receipt : EvmTransactionReceipt) (blockNumber : Int)
    {logIndex : String} {packetLogIndex : Nat} (h : parse 64 logIndex = .ok packetLogIndex) :
    ∃ event, verdictOf sampleEnv sampleConfig sampleMessageId srcTxHash receipt blockNumber
        (sampleLog ethereumUlnV2 101 logIndex) = .hit event ∧
      event.sourceEvidence =
        .some (evidenceOf receipt blockNumber (sampleLog ethereumUlnV2 101 logIndex) packetLogIndex) := by
  obtain ⟨event, hconvert, hid, hevidence⟩ := convert_sampleLog srcTxHash logIndex
    (evidenceOf receipt blockNumber (sampleLog ethereumUlnV2 101 logIndex) packetLogIndex)
  have hmatches : lzMessageIdMatches sampleEnv sampleMessageId event.lzMessageId = true := by
    rw [hid]
    exact sampleMessageId_matches
  have hindex : parse 64 (sampleLog ethereumUlnV2 101 logIndex).logIndex = .ok packetLogIndex := h
  refine ⟨event, (verdictOf_hit rfl).mpr ?_, hevidence⟩
  exact ⟨_, packetLogIndex, _, decode_sampleLog ethereumUlnV2 101 logIndex, hindex,
    bound_sampleLog 101 logIndex, hconvert,
    hmatches⟩

theorem logLoop_ignores_impostor :
    isBound sampleEnv sampleBindings (sampleLog (List.replicate 20 255) 101 "0") = false ∧
    ∃ event, logLoop sampleEnv sampleConfig sampleMessageId "0xab" (sampleReceipt []) 16
      [sampleLog (List.replicate 20 255) 101 "0", sampleLog ethereumUlnV2 101 "1"] = .ok event := by
  have hb : sampleConfig.packetSentBindingsByChainName sampleMessageId.pathwayId.srcChainName =
    .some sampleBindings := rfl
  have hemitter : sampleBindings.ulnV2.map Subtype.val ≠
      .some (normalizeAddress (sampleLog (List.replicate 20 255) 101 "0").address) := by
    rw [normalizeAddress, sampleLog, toAsciiLowercase_hexText, sampleBindings_ulnV2]
    intro h
    have hbytes : ethereumUlnV2 = List.replicate 20 255 := prefixed_injective (Option.some.inj h)
    exact absurd hbytes (by decide)
  have hunbound : boundEvmPacketSentVersion sampleBindings .ultraLightNodeV2
      (sampleLog (List.replicate 20 255) 101 "0").address = .error "ULNv2 Packet not emitted by UltraLightNodeV2" := by
    unfold boundEvmPacketSentVersion
    exact if_pos hemitter
  have hforeign : isBound sampleEnv sampleBindings (sampleLog (List.replicate 20 255) 101 "0") = false := by
    rw [isBound, decode_sampleLog]
    dsimp only
    rw [hunbound]
    rfl
  have hindex : parse 64 "1" = .ok 1 := by decide
  obtain ⟨event, hverdict, -⟩ := verdictOf_sampleLog "0xab" (sampleReceipt []) 16 hindex
  obtain ⟨hfirst, hsame⟩ := logLoop_ignores_foreign sampleEnv sampleConfig sampleMessageId "0xab"
    (sampleReceipt []) 16 hb
  refine ⟨hforeign, event, ?_⟩
  rw [hsame _ [sampleLog ethereumUlnV2 101 "1"] (List.filter_cons_of_neg (Bool.not_eq_true _ ▸ hforeign))]
  exact (hfirst _ _).mpr ⟨[], _, [], rfl, (verdictOf_hit hb).mp hverdict, fun l hl => absurd hl List.not_mem_nil⟩

end Pillar.PacketSent
