/-
What a Starknet provider's vote says, also when the ULN moves on between the
reads: `commit` takes the DVN's record away, so the packet's state is read after
it (`observeStarknetPayloadSigned_interleaved`).
-/
import Pillar.EvmPayloadFacts
import Pillar.StarknetPayload
import Pillar.UlnRun

namespace Pillar.StarknetPayload

open Abi (Bytes)
open Bits
open CairoBytes (IsFelt digitsValue Serializes word pending)
open EvmPayload (trimHex orErr)
open Hex (HexCrate hexDigit?_digit)
open PayloadSigned Text
open UlnRun (Uln Run)
open Asking (bind_ok pure_ok lift_ok ask_ok throw_ok)

variable {crates : Crates} {provider : Provider} {t t' : List (Asked Question Answer)}

/-! ## What a run read -/

theorem request_ok {α : Type} {question : Question} {read : Json → Option α} {a : α}
    (h : request provider question read t = (.ok a, t')) :
    ∃ response, provider t question = .ok response ∧ read response = .some a ∧
      t' = t ++ [⟨question, .ok response⟩] :=
  requested_ok h

/-- The record as it was read: nothing was submitted, or the confirmations behind it. -/
inductive RecordRead (provider : Provider) (packet : StarknetPacket) (uln : String) (t : List (Asked Question Answer)) :
    Option UInt64 → List (Asked Question Answer) → Prop
  | absent (response : Json) : provider t (packet.slotQuestion uln 0) = .ok response → resultFelt response = .some 0 →
      RecordRead provider packet uln t .none [⟨packet.slotQuestion uln 0, .ok response⟩]
  | present (response response' : Json) (confirmations : UInt64) :
      provider t (packet.slotQuestion uln 0) = .ok response →
      resultFelt response = .some 1 →
      provider (t ++ [⟨packet.slotQuestion uln 0, .ok response⟩]) (packet.slotQuestion uln 1) = .ok response' →
      resultFelt response' = .some confirmations →
      RecordRead provider packet uln t (.some confirmations)
        [⟨packet.slotQuestion uln 0, .ok response⟩, ⟨packet.slotQuestion uln 1, .ok response'⟩]

theorem storedRecord_ok {packet : StarknetPacket} {uln : String} {stored : Option UInt64}
    (h : storedRecord provider packet uln t = (.ok stored, t')) :
    ∃ asked, RecordRead provider packet uln t stored asked ∧ t' = t ++ asked := by
  obtain ⟨submitted, s, hsubmitted, h⟩ := bind_ok h
  obtain ⟨response, hanswer, hread, rfl⟩ := request_ok hsubmitted
  split at h
  · next hzero =>
    obtain ⟨rfl, rfl⟩ := pure_ok h
    exact ⟨_, .absent response hanswer (hzero ▸ hread), rfl⟩
  · split at h
    · next hone =>
      obtain ⟨confirmations, s, hconfirmations, h⟩ := bind_ok h
      obtain ⟨response', hanswer', hread', rfl⟩ := request_ok hconfirmations
      obtain ⟨rfl, rfl⟩ := pure_ok h
      exact ⟨_, .present response response' confirmations hanswer (hone ▸ hread) hanswer' hread',
        List.append_assoc _ _ _⟩
    · exact (throw_ok h).elim

/-- The reads of an observation, in order; the state is read where the record is short. -/
theorem observeStarknetPayloadSigned_ok {query : StarknetQuery} {v : PayloadSignedValidity}
    (h : observeStarknetPayloadSigned crates provider query t = (.ok v, t')) :
    ∃ packet stored asked response required, starknetPacket crates query = .some packet ∧
      RecordRead provider packet query.ulnAddress t stored asked ∧
      provider (t ++ asked) (packet.requiredQuestion crates query.ulnAddress) = .ok response ∧
      resultConfirmations response = .some required ∧
      ((stored.any (required ≤ ·) = true ∧ v = .signed ∧
        t' = t ++ asked ++ [⟨packet.requiredQuestion crates query.ulnAddress, .ok response⟩]) ∨
       (stored.any (required ≤ ·) = false ∧ ∃ response' state,
        provider (t ++ asked ++ [⟨packet.requiredQuestion crates query.ulnAddress, .ok response⟩])
          (packet.stateQuestion crates query.ulnAddress) = .ok response' ∧ resultState response' = .some state ∧
        v = (if state = verifiedState then .signed else .notSigned (.some required)) ∧
        t' = t ++ asked ++ [⟨packet.requiredQuestion crates query.ulnAddress, .ok response⟩] ++
          [⟨packet.stateQuestion crates query.ulnAddress, .ok response'⟩])) := by
  obtain ⟨packet, s, hlift, h⟩ := bind_ok h
  obtain ⟨hpacket, rfl⟩ := okOrUnavailable_ok hlift
  obtain ⟨stored, s, hstored, h⟩ := bind_ok h
  obtain ⟨asked, hrecord, rfl⟩ := storedRecord_ok hstored
  obtain ⟨required, s, hrequired, h⟩ := bind_ok h
  obtain ⟨response, hanswer, hread, rfl⟩ := request_ok hrequired
  refine ⟨packet, stored, asked, response, required, hpacket, hrecord, hanswer, hread, ?_⟩
  split at h
  · next hmet =>
    obtain ⟨rfl, rfl⟩ := pure_ok h
    exact .inl ⟨hmet, rfl, rfl⟩
  · next hshort =>
    obtain ⟨state, s, hstate, h⟩ := bind_ok h
    obtain ⟨response', hanswer', hread', rfl⟩ := request_ok hstate
    refine .inr ⟨Bool.eq_false_of_not_eq_true hshort, response', state, hanswer', hread', ?_⟩
    split at h
    · next hverified =>
      obtain ⟨rfl, rfl⟩ := pure_ok h
      exact ⟨(if_pos hverified).symm, rfl⟩
    · next hnot =>
      obtain ⟨rfl, rfl⟩ := pure_ok h
      exact ⟨(if_neg hnot).symm, rfl⟩

/-! ## The vote -/

theorem voteOn_ok {query : StarknetQuery} {k : String} {v : PayloadSignedValidity}
    (h : voteOn crates query provider t = (.ok (k, v), t')) :
    k = v.debug ∧ observeStarknetPayloadSigned crates provider query t = (.ok v, t') := by
  obtain ⟨validity, s, hobserve, h⟩ := bind_ok h
  obtain ⟨heq, rfl⟩ := pure_ok h
  cases heq
  exact ⟨rfl, hobserve⟩

theorem voteOn_voteDecides (crates : Crates) (query : StarknetQuery) : VoteDecides (voteOn crates query) :=
  voteDecides_of_debug PayloadSignedValidity.debug_injective fun _ _ _ _ _ h => (voteOn_ok h).1

/-- What was read of an entry. -/
def toldFelt (read : Json → Option UInt64) (entry : Asked Question Answer) : Option UInt64 :=
  entry.answer.toOption.bind read

/-- The DVN's record in what a provider told. -/
def recordOf : List (Asked Question Answer) → Option (Option UInt64)
  | [] => .none
  | first :: rest =>
    if toldFelt resultFelt first = .some 0 then .some .none
    else rest.head?.bind fun second => (toldFelt resultFelt second).map .some

/-- The requirement: of the first view that was called. -/
def requirementOf (told : List (Asked Question Answer)) : Option UInt64 :=
  told.findSome? fun entry =>
    match entry.question with
    | .call _ _ _ => toldFelt resultConfirmations entry
    | .getStorageAt _ _ => .none

theorem RecordRead.recordOf_append {packet : StarknetPacket} {uln : String} {stored : Option UInt64}
    {asked : List (Asked Question Answer)} (h : RecordRead provider packet uln [] stored asked)
    (more : List (Asked Question Answer)) : recordOf (asked ++ more) = .some stored := by
  cases h with
  | absent response _ hread => simp [recordOf, toldFelt, Except.toOption, hread]
  | present response response' confirmations _ hread _ hread' =>
    simp [recordOf, toldFelt, Except.toOption, hread, hread']

theorem RecordRead.requirementOf_append {packet : StarknetPacket} {uln : String} {stored : Option UInt64}
    {asked : List (Asked Question Answer)} (h : RecordRead provider packet uln [] stored asked) {response : Json}
    {required : UInt64} (hread : resultConfirmations response = .some required) (more : List (Asked Question Answer)) :
    requirementOf (asked ++ ⟨packet.requiredQuestion crates uln, .ok response⟩ :: more) = .some required := by
  cases h <;> simp [requirementOf, StarknetPacket.slotQuestion, StarknetPacket.requiredQuestion, toldFelt,
    Except.toOption, hread]

theorem voteOn_recognises (crates : Crates) (provider : Provider) (query : StarknetQuery) :
    Recognises validities requirementOf recordOf (voteOn crates query provider) := by
  intro k v told h
  obtain ⟨-, h⟩ := voteOn_ok h
  obtain ⟨packet, stored, asked, response, required, -, hrecord, -, hread, hcases⟩ := observeStarknetPayloadSigned_ok h
  rw [List.nil_append] at hcases
  rcases hcases with ⟨hmet, rfl, rfl⟩ | ⟨hshort, response', state, -, -, rfl, rfl⟩
  · exact ⟨fun _ _ _ _ _ _ => .inl rfl, fun _ h => (by cases h)⟩
  · rw [List.append_assoc]
    refine recognises_of (hrecord.requirementOf_append hread _) (hrecord.recordOf_append _) (fun b hb hle _ => ?_)
      fun r hnot => ?_
    · rw [hb, Option.any_some, decide_eq_false_iff_not] at hshort
      exact absurd hle hshort
    · split at hnot
      · cases hnot
      · cases hnot
        refine ⟨rfl, fun b hb => lt_max_one fun hmet => ?_⟩
        rw [hb, Option.any_some, decide_eq_false_iff_not] at hshort
        exact hshort hmet.2

theorem voteOn_required {crates : Crates} {query : StarknetQuery} {provider : Provider} {k : String}
    {required : Option UInt64} (h : (voteOn crates query provider []).1 = .ok (k, .notSigned required)) :
    required ≠ .none := by
  obtain ⟨-, h⟩ := voteOn_ok (Prod.ext h rfl)
  obtain ⟨packet, stored, asked, response, r, -, -, -, -, hcases⟩ := observeStarknetPayloadSigned_ok h
  rcases hcases with ⟨-, hv, -⟩ | ⟨-, response', state, -, -, hv, -⟩
  · cases hv
  · split at hv <;> cases hv
    exact Option.some_ne_none _

/-- **A Starknet destination is signed for on short records only.** -/
theorem validateStarknetPayloadNotSignedWithQuorum_onlyShort (crates : Crates) (providers : Providers)
    (starknetUln302 : Option String) (oracles : Nat → Provider) (messageIdJson : PacketSent.LzMessageId → String)
    (sentEvent : PacketSent.LzSentEvent) (verifierAddress dstChainName : String) :
    OnlyShort (starknetPanel crates providers starknetUln302 sentEvent verifierAddress dstChainName) (voteOn crates)
      oracles (fun _ => requirementOf) (fun _ => recordOf)
      (validateStarknetPayloadNotSignedWithQuorum crates providers starknetUln302 oracles messageIdJson sentEvent
        verifierAddress dstChainName) :=
  validateWithQuorum_onlyShort (voteOn_voteDecides crates)
    (fun query provider => voteOn_recognises crates provider query)
    (fun _ _ => payloadSignedValidationResult_ok.mp) fun _ _ _ _ => voteOn_required

/-! ## Felts -/

theorem hexDigit?_digitChar : ∀ k < 16, hexDigit? (Nat.digitChar k) = .some k := by decide

/-- The digits of a number: hexadecimal, and of that number. -/
theorem toDigits_hex (n : Nat) :
    (∀ c ∈ Nat.toDigits 16 n, (hexDigit? c).isSome = true) ∧ digitsValue (Nat.toDigits 16 n) = n := by
  induction n using Nat.strongRecOn with
  | ind n ih =>
    rcases Nat.lt_or_ge n 16 with hlt | hge
    · rw [Nat.toDigits_of_lt_base hlt]
      simp [digitsValue, hexDigit?_digitChar n hlt]
    · obtain ⟨hdigits, hvalue⟩ := ih (n / 16) (by omega)
      have hlast := hexDigit?_digitChar (n % 16) (Nat.mod_lt n (by decide))
      rw [Nat.toDigits_of_base_le (by decide) hge]
      refine ⟨fun c hc => ?_, ?_⟩
      · rcases List.mem_append.mp hc with hc | hc
        · exact hdigits c hc
        · rw [List.mem_singleton.mp hc, hlast]
          rfl
      · rw [digitsValue, List.foldl_append, ← digitsValue, hvalue]
        simp only [List.foldl_cons, List.foldl_nil, hlast, Option.getD_some]
        omega

theorem feltText_injective : Function.Injective feltText := by
  intro n m h
  have hchars := congrArg String.toList (String.append_right_inj _ |>.mp h)
  rw [String.toList_ofList, String.toList_ofList] at hchars
  rw [← (toDigits_hex n).2, hchars, (toDigits_hex m).2]

theorem isFelt_feltText {n : Nat} (h : n < 16 ^ 64) : IsFelt n (.string (feltText n)) :=
  ⟨"0x", Nat.toDigits 16 n, rfl, .inl rfl, Nat.toDigits_ne_nil,
    (Nat.length_toDigits_le_iff (by decide) (by decide)).mpr h,
    (toDigits_hex n).1, (toDigits_hex n).2⟩

theorem digitsValue_dropWhile (digits : List Char) :
    digitsValue (digits.dropWhile (· = '0')) = digitsValue digits := by
  induction digits with
  | nil => rfl
  | cons c digits ih =>
    by_cases hc : c = '0'
    · subst hc
      rw [List.dropWhile_cons_of_pos (by simp), ih]
      rfl
    · rw [List.dropWhile_cons_of_neg (by simpa using hc)]

theorem fromStrRadix_hex {digits : List Char} (hne : digits ≠ []) (hdigits : ∀ c ∈ digits, (hexDigit? c).isSome = true)
    (hlt : digitsValue digits < 2 ^ 64) : fromStrRadix 16 64 (String.ofList digits) = .ok (digitsValue digits) := by
  obtain ⟨c, rest, rfl⟩ := List.exists_cons_of_ne_nil hne
  have hplus : c ≠ '+' := by
    rintro rfl
    cases hdigits '+' List.mem_cons_self
  rw [fromStrRadix, String.toList_ofList]
  split
  next heq => cases heq
  next heq => exact absurd (List.cons.inj heq).1 hplus
  next heq => exact absurd (List.cons.inj heq).1 hplus
  next => exact CairoBytes.parseDigits_hex _ hdigits hlt

/-- A felt of 64 bits is read back. -/
theorem starknetFeltU64_feltText (n : UInt64) : starknetFeltU64 (feltText n.toNat) = .some n := by
  obtain ⟨hdigits, hvalue⟩ := toDigits_hex n.toNat
  have hlt := n.toNat_lt
  have htrim := digitsValue_dropWhile (Nat.toDigits 16 n.toNat)
  rw [hvalue] at htrim
  rw [starknetFeltU64, feltText, stripPrefix_append, Option.bind_eq_bind, Option.bind_some, trimZeros,
    String.toList_ofList]
  dsimp only
  split
  · next hempty =>
    have hnil : (Nat.toDigits 16 n.toNat).dropWhile (· = '0') = [] := by simpa using hempty
    rw [hnil] at htrim
    exact congrArg some (UInt64.toNat_inj.mp htrim)
  · next hne =>
    have hsome : (Nat.toDigits 16 n.toNat).dropWhile (· = '0') ≠ [] := by simpa using hne
    have hdigits' : ∀ c ∈ (Nat.toDigits 16 n.toNat).dropWhile (· = '0'), (hexDigit? c).isSome = true := fun c hc =>
      hdigits c ((List.dropWhile_sublist _).subset hc)
    rw [fromStrRadix_hex hsome hdigits' (by rw [htrim]; exact hlt), htrim]
    show some (UInt64.ofNat n.toNat) = _
    rw [UInt64.ofNat_toNat]

/-! ## Call data -/

theorem asChunks_eq (n : Nat) (bytes : List UInt8) :
    asChunks n bytes = ((List.range n).map (word bytes), bytes.drop (31 * n)) := by
  induction n generalizing bytes with
  | zero => rfl
  | succ n ih =>
    have hwords : (List.range n).map (word (bytes.drop 31)) = (List.range n).map fun i => word bytes (i + 1) :=
      List.map_congr_left fun i _ => by rw [word, word, List.drop_drop, Nat.mul_succ, Nat.add_comm]
    simp only [asChunks, ih, List.range_succ_eq_map, List.map_cons, List.map_map, List.drop_drop]
    rw [hwords]
    simp [word, Function.comp_def, Nat.mul_succ, Nat.add_comm]

/-- The call data is Cairo's serialization of the bytes. -/
theorem serializes_starknetByteArrayCalldata {bytes : List UInt8} (h : bytes.length < 2 ^ 64) :
    Serializes bytes ((starknetByteArrayCalldata bytes).map .string) := by
  have hfelt : ∀ part : List UInt8, part.length ≤ 32 → IsFelt (ofBytes part) (.string (starknetFeltHex part)) := by
    intro part hpart
    have hlt := (ofBytes_lt part).trans_le (Nat.pow_le_pow_right (by decide) hpart)
    exact isFelt_feltText (hlt.trans_eq (by norm_num))
  have hsmall : ∀ n ≤ bytes.length, IsFelt n (.string (feltText n)) := fun n hn => isFelt_feltText (by omega)
  have hpending := CairoBytes.length_pending bytes
  rw [Serializes, CairoBytes.serialize, starknetByteArrayCalldata, asChunks_eq]
  simp only [List.length_map, List.length_range, List.map_cons, List.map_append, List.map_map, List.map_nil,
    List.cons_append]
  refine .cons (hsmall _ (Nat.div_le_self _ _)) (List.rel_append ?_ (.cons (hfelt _ ?_) (.cons ?_ .nil)))
  · rw [List.forall₂_map_left_iff, List.forall₂_map_right_iff]
    exact List.forall₂_same.mpr fun i hi => hfelt _ (by rw [CairoBytes.length_word (List.mem_range.mp hi)]; omega)
  · show (pending bytes).length ≤ 32
    omega
  · show IsFelt (bytes.length % 31) (.string (feltText (pending bytes).length))
    rw [hpending]
    exact hsmall _ (Nat.mod_le _ _)

theorem length_starknetByteArrayCalldata (bytes : List UInt8) :
    (starknetByteArrayCalldata bytes).length = bytes.length / 31 + 3 := by
  rw [starknetByteArrayCalldata, asChunks_eq]
  simp

/-- **The decoder of source events reads the call data back**, and stops behind it. -/
theorem decodeByteArray_starknetByteArrayCalldata (hex : HexCrate) (bytes : List UInt8) (more : List Json)
    (hbytes : bytes.length ≤ usizeMax)
    (hdata : ((starknetByteArrayCalldata bytes).map Json.string ++ more).length ≤ usizeMax) :
    ∃ requested, CairoBytes.decodeByteArray hex ((starknetByteArrayCalldata bytes).map .string ++ more) ⟨0, []⟩ =
      (.ok bytes, ⟨(starknetByteArrayCalldata bytes).length, requested⟩) := by
  have hmax : usizeMax < 2 ^ 64 := by decide
  have hserialized : CairoBytes.Serializes bytes ((starknetByteArrayCalldata bytes).map .string) :=
    serializes_starknetByteArrayCalldata (by omega)
  rw [length_starknetByteArrayCalldata, ← Nat.zero_add (bytes.length / 31 + 3), ← Nat.add_assoc]
  exact ⟨_, CairoBytes.decodeByteArray_apply hex [] hserialized hdata hbytes rfl⟩

theorem decodeByteArray_starknetByteArrayCalldata_sample :
    ∃ requested, CairoBytes.decodeByteArray .plain
      ((starknetByteArrayCalldata (List.replicate 40 7)).map .string ++ [.string "0x1"]) ⟨0, []⟩ =
      (.ok (List.replicate 40 7), ⟨(starknetByteArrayCalldata (List.replicate 40 7)).length, requested⟩) :=
  decodeByteArray_starknetByteArrayCalldata .plain (List.replicate 40 7) [.string "0x1"] (by decide)
    (by rw [List.length_append, List.length_map, length_starknetByteArrayCalldata]; decide)

/-! ## A ULN that moves on -/

def submitted (uln : Uln UInt64) : UInt64 := if uln.record.isSome then 1 else 0

theorem record_of_submitted {uln : Uln UInt64} :
    (submitted uln = 0 → uln.record = .none) ∧ (submitted uln = 1 → uln.record ≠ .none) := by
  unfold submitted
  cases uln.record <;> simp

def resultOf (value : Json) : Except RpcError Json := .ok (.object [("result", value)])

/-- A provider that answers each request with what the ULN then keeps; storage
that was reclaimed is zero. -/
structure Serves (crates : Crates) (packet : StarknetPacket) (uln : String) (run : Run verifiedState)
    (provider : Provider) : Prop where
  submitted : ∀ told, provider told (packet.slotQuestion uln 0) =
    resultOf (.string (feltText (submitted (run.states told.length)).toNat))
  stored : ∀ told, provider told (packet.slotQuestion uln 1) =
    resultOf (.string (feltText ((run.states told.length).record.getD 0).toNat))
  required : ∀ told, ∃ rest, provider told (packet.requiredQuestion crates uln) =
    resultOf (.array (.string (feltText (run.states told.length).required.toNat) :: rest))
  state : ∀ told, provider told (packet.stateQuestion crates uln) =
    resultOf (.array [.string (feltText (run.states told.length).state.toNat)])

theorem resultFelt_felt (n : UInt64) : resultFelt (.object [("result", .string (feltText n.toNat))]) = .some n := by
  simp [resultFelt, Json.get, Json.asStr, starknetFeltU64_feltText]

theorem resultConfirmations_felt (n : UInt64) (rest : List Json) :
    resultConfirmations (.object [("result", .array (.string (feltText n.toNat) :: rest))]) = .some n := by
  simp [resultConfirmations, Json.get, Json.asArray, Json.asStr, starknetFeltU64_feltText]

theorem resultState_felt {n state : UInt64}
    (h : resultState (.object [("result", .array [.string (feltText n.toNat)])]) = .some state) : state = n := by
  simp [resultState, Json.get, Json.asArray, Json.asStr, starknetFeltU64_feltText, Option.filter_eq_some_iff] at h
  exact h.1.symm

/-- The record is absent at the first request, or there then and read at the second. -/
theorem RecordRead.reads {packet : StarknetPacket} {uln : String} {run : Run verifiedState} {stored : Option UInt64}
    {asked : List (Asked Question Answer)} (h : RecordRead provider packet uln [] stored asked)
    (hserves : Serves crates packet uln run provider) :
    ∃ i, i + 1 = asked.length ∧ run.Reads i stored := by
  cases h with
  | absent response hsubmitted hzero =>
    cases (hserves.submitted []).symm.trans hsubmitted
    rw [resultFelt_felt, Option.some.injEq] at hzero
    rw [← record_of_submitted.1 hzero]
    exact ⟨0, rfl, run.reads_record 0⟩
  | present response response' confirmations hsubmitted hone hstored hread' =>
    cases (hserves.submitted []).symm.trans hsubmitted
    cases (hserves.stored _).symm.trans hstored
    rw [resultFelt_felt, Option.some.injEq] at hone hread'
    simp only [List.nil_append, List.length_singleton] at hread'
    refine ⟨1, rfl, fun now hnow => ?_, fun hnone _ => ?_⟩
    · rw [hnow] at hread'
      exact congrArg some hread'.symm
    · exact (run.later (Nat.zero_le 1)).reclaimed (record_of_submitted.2 hone) hnone

/-- **No step of the ULN between the reads makes a verdict wrong**: the record was
short and the packet not committed, or else it is signed. -/
theorem observeStarknetPayloadSigned_interleaved {query : StarknetQuery} {packet : StarknetPacket}
    {run : Run verifiedState} {v : PayloadSignedValidity} (hpacket : starknetPacket crates query = .some packet)
    (hserves : Serves crates packet query.ulnAddress run provider)
    (h : observeStarknetPayloadSigned crates provider query [] = (.ok v, t')) :
    (v = .signed ∧ run.SawSigned t'.length) ∨
      ∃ required, v = .notSigned (.some required) ∧ run.SawShort t'.length required := by
  obtain ⟨packet', stored, asked, response, required, hpacket', hrecord, hanswer, hread, hcases⟩ :=
    observeStarknetPayloadSigned_ok h
  cases hpacket.symm.trans hpacket'
  rw [List.nil_append] at hanswer hcases
  obtain ⟨rest, hrequired⟩ := hserves.required asked
  cases hrequired.symm.trans hanswer
  rw [resultConfirmations_felt, Option.some.injEq] at hread
  obtain ⟨i, hi, hreads⟩ := hrecord.reads hserves
  subst hread
  rcases hcases with ⟨hmet, rfl, rfl⟩ | ⟨hshort, response', state, hanswer', hread', rfl, rfl⟩
  · refine .inl ⟨rfl, hreads.sawSigned hmet ?_ ?_⟩ <;> simp [← hi]
  · cases (hserves.state _).symm.trans hanswer'
    have hstate := resultState_felt hread'
    split
    · next hverified =>
      refine .inl ⟨rfl, Run.sawSigned_of_verified (hstate ▸ hverified) ?_⟩
      simp
    · next hnot =>
      refine .inr ⟨_, rfl, ?_⟩
      rw [List.length_append, List.length_singleton]
      refine hreads.sawShort hshort (hstate ▸ hnot) ?_ ?_ <;> rw [List.length_append, List.length_singleton] <;> omega

/-- A commit between the two reads of the record. -/
def sampleRun : Run verifiedState where
  states
    | 0 => ⟨3, .some 7, 1⟩
    | _ + 1 => ⟨3, .none, verifiedState⟩
  moves
    | 0 => .single (.commit ⟨3, .some 7, 1⟩)
    | _ + 1 => .refl

def sampleCrates : Crates where
  hex := .plain
  bs58 _ := .error "not base58"
  keccak256 _ := ⟨List.replicate 32 9, rfl⟩
  pedersen a b := a + b
  feltFromHex _ := .some 5

def sampleQuery : StarknetQuery :=
  ⟨"0x1", "0xd1", Packet.hexText .plain (List.replicate 81 1), Packet.hexText .plain (List.replicate 32 2)⟩

def samplePacket : StarknetPacket where
  header := List.replicate 81 1
  payloadHash := ⟨List.replicate 32 2, rfl⟩
  srcEid := 0x01010101
  receiver := "0x" ++ HexCrate.plain.encode (List.replicate 32 1)
  slot := 10 + ofBytes (List.replicate 16 9) + ofBytes (List.replicate 16 9) + ofBytes (List.replicate 16 2) +
    ofBytes (List.replicate 16 2)

/-- The views are told apart by their call data. -/
def sampleProvider : Provider := fun told question =>
  let uln := sampleRun.states told.length
  match question with
  | .getStorageAt _ key =>
    if key = starknetSlotOffset samplePacket.slot 0 then resultOf (.string (feltText (submitted uln).toNat))
    else resultOf (.string (feltText (uln.record.getD 0).toNat))
  | .call _ _ [_, _] => resultOf (.array [.string (feltText uln.required.toNat)])
  | .call _ _ _ => resultOf (.array [.string (feltText uln.state.toNat)])

theorem decode_hexText (hex : HexCrate) (bytes : List UInt8) :
    (hex.decode (trimHex (Packet.hexText hex bytes))).toOption = .some bytes := by
  rw [hex.toOption_decode, EvmPayload.trimHex_hexText, Hex.decodeChars_encodeChars]

theorem decodeBytes32OrLonger_hexText {hex : HexCrate} {bytes : List UInt8} (h : 32 ≤ bytes.length) :
    decodeBytes32OrLonger hex (Packet.hexText hex bytes) = .some bytes := by
  rw [decodeBytes32OrLonger, decode_hexText, Option.bind_eq_bind, Option.bind_some, if_neg (not_lt.mpr h)]

theorem decodeBytes32_hexText {hex : HexCrate} (bytes : Bytes 32) :
    decodeBytes32 hex (Packet.hexText hex bytes.val) = .some bytes := by
  rw [decodeBytes32, decode_hexText, Option.bind_eq_bind, Option.bind_some, dif_pos bytes.property]

theorem samplePacket_eq : starknetPacket sampleCrates sampleQuery = .some samplePacket := by
  have hheader : decodeBytes32OrLonger sampleCrates.hex sampleQuery.packetHeader = .some (List.replicate 81 1) :=
    decodeBytes32OrLonger_hexText (by decide)
  have hpayload : decodeBytes32 sampleCrates.hex sampleQuery.payloadHash = .some ⟨List.replicate 32 2, rfl⟩ :=
    decodeBytes32_hexText ⟨List.replicate 32 2, rfl⟩
  rw [starknetPacket, hheader, hpayload]
  rfl

theorem sampleProvider_serves : Serves sampleCrates samplePacket sampleQuery.ulnAddress sampleRun sampleProvider where
  submitted told := rfl
  stored told := by
    have hne : starknetSlotOffset samplePacket.slot 1 ≠ starknetSlotOffset samplePacket.slot 0 := fun h =>
      absurd (feltText_injective h) (by omega)
    simp only [StarknetPacket.slotQuestion, sampleProvider, if_neg hne]
  required told := ⟨[], rfl⟩
  state told := rfl

/-- What `sampleProvider` is asked, with its answers. -/
def sampleTold : List (Asked Question Answer) :=
  (observeStarknetPayloadSigned sampleCrates sampleProvider sampleQuery []).2

theorem observeStarknetPayloadSigned_sample :
    observeStarknetPayloadSigned sampleCrates sampleProvider sampleQuery [] = (.ok .signed, sampleTold) := by
  have hsigned : (observeStarknetPayloadSigned sampleCrates sampleProvider sampleQuery []).1 = .ok .signed := by
    rw [observeStarknetPayloadSigned, samplePacket_eq]
    rfl
  rw [sampleTold, ← hsigned]

theorem observeStarknetPayloadSigned_interleaved_commit :
    (PayloadSignedValidity.signed = .signed ∧ sampleRun.SawSigned sampleTold.length) ∨ ∃ required,
      PayloadSignedValidity.signed = .notSigned (.some required) ∧ sampleRun.SawShort sampleTold.length required :=
  observeStarknetPayloadSigned_interleaved samplePacket_eq sampleProvider_serves observeStarknetPayloadSigned_sample

end Pillar.StarknetPayload
