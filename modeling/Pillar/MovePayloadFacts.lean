/-
What a Move provider's vote says, and what is recorded on chain: on ULN302 the
key is all that was read, on ULN301 what the verdict is computed from.
-/
import Pillar.MovePayload

namespace Pillar.MovePayload

open Packet Text Hex Abi Fields PayloadSigned
open Asking (bind_ok pure_ok lift_ok ask_ok throw_ok)

variable {crates : Crates} {provider : Provider} {t t' : List (Asked Question Answer)}

/-! ## What a run read -/

theorem orUnavailable_ok {α : Type} {value : Option α} {a : α} (h : orUnavailable value t = (.ok a, t')) :
    value = .some a ∧ t = t' := by
  obtain ⟨hvalue, ht⟩ := lift_ok h
  cases value with
  | none => cases hvalue
  | some b => exact ⟨congrArg some (Except.ok.inj hvalue), ht⟩

theorem moveViewValues_ok {contract : String} {call : MoveCall} {values : List Json}
    (h : moveViewValues provider contract call t = (.ok values, t')) :
    t' = t ++ [⟨.view contract call, .ok values⟩] := by
  obtain ⟨answer, s, hask, h⟩ := bind_ok h
  obtain ⟨-, rfl⟩ := ask_ok hask
  obtain ⟨rfl, rfl⟩ := lift_ok h
  rfl

theorem moveViewValue_ok {α : Type} {contract : String} {call : MoveCall} {read : Json → Option α} {a : α}
    (h : moveViewValue provider contract call read t = (.ok a, t')) :
    ∃ values, values.head?.bind read = .some a ∧ t' = t ++ [⟨.view contract call, .ok values⟩] := by
  obtain ⟨values, s, hvalues, h⟩ := bind_ok h
  obtain ⟨hread, rfl⟩ := orUnavailable_ok h
  exact ⟨values, hread, moveViewValues_ok hvalues⟩

/-- The DVN's record in the values of its view. -/
def recordOf (values : List Json) : Option UInt64 := values.head?.bind moveU64

theorem verificationConfirmations_ok {contract headerHash payloadHash verifier : String} {record : Option UInt64}
    (h : verificationConfirmations provider contract headerHash payloadHash verifier t = (.ok record, t')) :
    ∃ values, record = recordOf values ∧
      t' = t ++ [⟨.view contract (.getVerificationConfirmations headerHash payloadHash verifier), .ok values⟩] := by
  obtain ⟨values, s, hvalues, h⟩ := bind_ok h
  refine ⟨values, ?_⟩
  rw [← moveViewValues_ok hvalues]
  cases hhead : values.head? with
  | none =>
    rw [hhead] at h
    obtain ⟨rfl, rfl⟩ := pure_ok h
    exact ⟨by rw [recordOf, hhead, Option.bind_none], rfl⟩
  | some value =>
    rw [hhead] at h
    obtain ⟨count, s', hcount, h⟩ := bind_ok h
    obtain ⟨rfl, rfl⟩ := pure_ok h
    obtain ⟨hread, rfl⟩ := orUnavailable_ok hcount
    exact ⟨by rw [recordOf, hhead, Option.bind_some, hread], rfl⟩

/-- The views of an observation on ULN302, in order. -/
theorem moveRead_ok {query : MovePayloadSignedObservation} {read : MoveRead}
    (h : moveRead crates provider query t = (.ok read, t')) :
    ∃ hash receiver library config state counts, headerHash crates query.packetHeader = .some hash ∧
      library.head?.bind (fun value => value.asStr.bind aptosAddressBytes32) = .some read.receiveLibrary ∧
      config.head?.bind (fun value => value.asStr.bind (moveUlnConfigConfirmations crates.hex)) = .some read.required ∧
      read.confirmations = recordOf counts ∧
      t' = t ++ [⟨.view query.endpointV2 (.getEffectiveReceiveLibrary receiver query.srcEid.toNat.repr), .ok library⟩,
        ⟨.view query.endpointV2 (.getConfig query.receiver query.uln302 query.srcEid.toNat.repr), .ok config⟩,
        ⟨.view query.views (.verifiable query.packetHeader query.payloadHash), .ok state⟩,
        ⟨.view query.uln302 (.getVerificationConfirmations hash query.payloadHash query.verifierAddress),
          .ok counts⟩] := by
  obtain ⟨hash, s, hhash, h⟩ := bind_ok h
  obtain ⟨hreadHash, rfl⟩ := orUnavailable_ok hhash
  obtain ⟨receiver, s, hreceiver, h⟩ := bind_ok h
  obtain ⟨-, rfl⟩ := orUnavailable_ok hreceiver
  obtain ⟨receiveLibrary, s, hlibrary, h⟩ := bind_ok h
  obtain ⟨library, hreadLibrary, rfl⟩ := moveViewValue_ok hlibrary
  split at h
  · exact absurd h throw_ok
  · obtain ⟨required, s, hconfig, h⟩ := bind_ok h
    obtain ⟨config, hreadConfig, rfl⟩ := moveViewValue_ok hconfig
    obtain ⟨state, s, hstate, h⟩ := bind_ok h
    obtain ⟨states, -, rfl⟩ := moveViewValue_ok hstate
    split at h
    · exact absurd h throw_ok
    · obtain ⟨confirmations, s, hcounts, h⟩ := bind_ok h
      obtain ⟨counts, hreadCounts, rfl⟩ := verificationConfirmations_ok hcounts
      obtain ⟨rfl, rfl⟩ := pure_ok h
      exact ⟨hash, receiver, library, config, states, counts, hreadHash, hreadLibrary, hreadConfig, hreadCounts,
        by simp⟩

/-! ## What a vote says -/

theorem not_colon_of_hexDigit {c : Char} (h : (hexDigit? c).isSome) : c ≠ ':' := by
  rintro rfl
  exact absurd h (by decide)

theorem lowerChar_ne_colon {c : Char} (h : c ≠ ':') : lowerChar c ≠ ':' := by
  unfold lowerChar
  split
  · next hupper =>
    intro heq
    have hto := congrArg Char.toNat heq
    rw [toNat_ofNat_of_le (by omega)] at hto
    have hcolon : ':'.toNat = 58 := rfl
    omega
  · exact h

theorem plain_aptosAddressBytes32 {value address : String} (h : aptosAddressBytes32 value = .some address) :
    Plain address := by
  unfold aptosAddressBytes32 at h
  dsimp only at h
  split at h
  · cases h
  · next hdigits =>
    obtain rfl := Option.some.inj h
    simp only [not_or, Bool.not_eq_true, Bool.not_eq_false', List.all_eq_true] at hdigits
    intro hmem
    simp only [padLeft, toAsciiLowercase, String.toList_append, String.toList_ofList, List.mem_append,
      List.mem_replicate, List.mem_map] at hmem
    rcases hmem with hprefix | ⟨-, hzero⟩ | ⟨c, hc, hlower⟩
    · exact absurd hprefix (by decide)
    · exact absurd hzero (by decide)
    · exact lowerChar_ne_colon (not_colon_of_hexDigit (hdigits.2.2 c hc)) hlower

/-- The key says all that was read. -/
theorem MoveRead.eq_of_key {read read' : MoveRead} (h : Plain read.receiveLibrary) (h' : Plain read'.receiveLibrary)
    (heq : read.key = read'.key) : read = read' := by
  have hplain : ∀ r : MoveRead, Plain r.receiveLibrary → ∀ f ∈ [r.receiveLibrary, decimal r.state,
      debugOption r.confirmations, decimal r.required], Plain f := by
    intro r hr f hf
    simp only [List.mem_cons, List.not_mem_nil, or_false] at hf
    rcases hf with rfl | rfl | rfl | rfl
    · exact hr
    · exact plain_decimal _
    · exact plain_debugOption _
    · exact plain_decimal _
  obtain ⟨hlibrary, hfields⟩ := joined_inj (hplain read h) (hplain read' h') heq
  simp only [List.cons.injEq, and_true] at hfields
  obtain ⟨hstate, hconfirmations, hrequired⟩ := hfields
  obtain ⟨library, state, confirmations, required⟩ := read
  cases hlibrary
  cases decimal_injective hstate
  cases debugOption_injective hconfirmations
  cases decimal_injective hrequired
  rfl

theorem observeMovePayloadSigned_voteDecides (crates : Crates) (query : MovePayloadSignedObservation) :
    VoteDecides fun provider => observeMovePayloadSigned crates provider query := by
  refine voteDecides_of_seen (fun read : MoveRead => Plain read.receiveLibrary) MoveRead.key MoveRead.validity
    (fun provider t k v t' h => ?_) fun read read' h h' heq => by rw [MoveRead.eq_of_key h h' heq]
  obtain ⟨read, s, hread, h⟩ := bind_ok h
  obtain ⟨heq, rfl⟩ := pure_ok h
  obtain ⟨-, -, library, -, -, -, -, hlibrary, -⟩ := moveRead_ok hread
  obtain ⟨_, -, hlibrary⟩ := Option.bind_eq_some_iff.mp hlibrary
  obtain ⟨_, -, hlibrary⟩ := Option.bind_eq_some_iff.mp hlibrary
  exact ⟨read, plain_aptosAddressBytes32 hlibrary, congrArg Prod.fst heq, congrArg Prod.snd heq⟩

/-! ## ULN301 -/

/-- What a view or the table is asked is added to what was asked. -/
theorem aptosV1Verified_ok {query : AptosV301Observation} {srcEid : String} {state : UInt8} {verified : Bool}
    (h : aptosV1Verified crates provider query srcEid state t = (.ok verified, t')) : ∃ more, t' = t ++ more := by
  unfold aptosV1Verified at h
  split at h
  · obtain ⟨-, rfl⟩ := pure_ok h
    exact ⟨[], (List.append_nil t).symm⟩
  · split at h
    · obtain ⟨-, rfl⟩ := pure_ok h
      exact ⟨[], (List.append_nil t).symm⟩
    · obtain ⟨inboundNonce, s, hnonce, h⟩ := bind_ok h
      obtain ⟨values, -, rfl⟩ := moveViewValue_ok hnonce
      split at h
      · obtain ⟨-, rfl⟩ := pure_ok h
        exact ⟨_, rfl⟩
      · obtain ⟨answer, s, hask, h⟩ := bind_ok h
        obtain ⟨-, rfl⟩ := ask_ok hask
        obtain ⟨stored, s, hstored, h⟩ := bind_ok h
        obtain ⟨-, rfl⟩ := lift_ok hstored
        obtain ⟨hash, s, hhash, h⟩ := bind_ok h
        obtain ⟨-, rfl⟩ := orUnavailable_ok hhash
        obtain ⟨-, rfl⟩ := orUnavailable_ok h
        exact ⟨_, List.append_assoc _ _ _⟩

/-- The views of an observation on ULN301, in order; what is asked of a packet still verifying comes after them. -/
theorem aptosV301Read_ok {query : AptosV301Observation} {read : AptosV301Read}
    (h : aptosV301Read crates provider query t = (.ok read, t')) :
    ∃ hash config counts more verified, headerHash crates query.packetHeader = .some hash ∧
      config.head?.bind (fun value => value.asStr.bind (moveUlnConfigConfirmations crates.hex)) = .some read.required ∧
      read.confirmations = recordOf counts ∧
      read.signed = (dvnConfirmed read.confirmations read.required || verified) ∧
      t' = t ++ ⟨.view query.contracts.view (.getV1Config query.receiver query.srcEid.toNat.repr), .ok config⟩ ::
        ⟨.view query.contracts.uln301 (.getVerificationConfirmations hash query.payloadHash query.verifierAddress),
          .ok counts⟩ :: more := by
  obtain ⟨required, s, hconfig, h⟩ := bind_ok h
  obtain ⟨config, hreadConfig, rfl⟩ := moveViewValue_ok hconfig
  obtain ⟨hash, s, hhash, h⟩ := bind_ok h
  obtain ⟨hreadHash, rfl⟩ := orUnavailable_ok hhash
  obtain ⟨confirmations, s, hcounts, h⟩ := bind_ok h
  obtain ⟨counts, hreadCounts, rfl⟩ := verificationConfirmations_ok hcounts
  obtain ⟨state, s, hstate, h⟩ := bind_ok h
  obtain ⟨states, -, rfl⟩ := moveViewValue_ok hstate
  split at h
  · exact absurd h throw_ok
  · obtain ⟨verified, s, hverified, h⟩ := bind_ok h
    obtain ⟨rfl, rfl⟩ := pure_ok h
    obtain ⟨more, rfl⟩ := aptosV1Verified_ok hverified
    exact ⟨hash, config, counts, ⟨.view query.contracts.viewUln301 (.verifiable query.packetHeader query.payloadHash),
      .ok states⟩ :: more, verified, hreadHash, hreadConfig, hreadCounts, rfl, by simp⟩

theorem decimal_ne_library {n : UInt64} : decimal n ≠ "library" := fun h => by
  have hmem : 'l' ∈ (decimal n).toList := h ▸ (by decide)
  exact absurd (isDigit_of_mem_decimal hmem) (by decide)

theorem plain_debugVersion (version : Option UInt64 × Option UInt64) : Plain (debugVersion version) := by
  intro hmem
  simp only [debugVersion, String.toList_append, List.mem_append] at hmem
  rcases hmem with (((hmem | hmem) | hmem) | hmem) | hmem
  · exact absurd hmem (by decide)
  · exact plain_debugOption _ hmem
  · exact absurd hmem (by decide)
  · exact plain_debugOption _ hmem
  · exact absurd hmem (by decide)

theorem AptosV301Read.plain (read : AptosV301Read) : ∀ f ∈ [decimal read.required, debugOption read.confirmations,
    decimal read.state.toUInt64, debugBool read.signed], Plain f := by
  intro f hf
  simp only [List.mem_cons, List.not_mem_nil, or_false] at hf
  rcases hf with rfl | rfl | rfl | rfl
  · exact plain_decimal _
  · exact plain_debugOption _
  · exact plain_decimal _
  · exact plain_debugBool _

/-- What an observation on ULN301 sees. -/
inductive AptosV301Seen where
  | library (version : Option UInt64 × Option UInt64)
  | packet (read : AptosV301Read)

def AptosV301Seen.key : AptosV301Seen → String
  | .library version => joined ["library", debugVersion version]
  | .packet read => read.key

def AptosV301Seen.validity : AptosV301Seen → PayloadSignedValidity
  | .library _ => .unsupportedReceiveLibrary
  | .packet read => read.validity

/-- The key says the verdict, and that there is none. -/
theorem AptosV301Seen.validity_of_key {seen seen' : AptosV301Seen} (heq : seen.key = seen'.key) :
    seen.validity = seen'.validity := by
  have hlibrary : ∀ version : Option UInt64 × Option UInt64, ∀ f ∈ ["library", debugVersion version], Plain f := by
    intro version f hf
    simp only [List.mem_cons, List.not_mem_nil, or_false] at hf
    rcases hf with rfl | rfl
    · decide
    · exact plain_debugVersion version
  cases seen with
  | library version =>
    cases seen' with
    | library version' => rfl
    | packet read' => exact absurd (joined_inj (hlibrary version) read'.plain heq).1.symm decimal_ne_library
  | packet read =>
    cases seen' with
    | library version' => exact absurd (joined_inj read.plain (hlibrary version') heq).1 decimal_ne_library
    | packet read' =>
      obtain ⟨hrequired, hfields⟩ := joined_inj read.plain read'.plain heq
      simp only [List.cons.injEq, and_true] at hfields
      rw [validity, validity, AptosV301Read.validity, AptosV301Read.validity, decimal_injective hrequired,
        debugBool_injective hfields.2.2]

theorem observeAptosV301PayloadSigned_ok {query : AptosV301Observation} {k : String} {v : PayloadSignedValidity}
    (h : observeAptosV301PayloadSigned crates provider query t = (.ok (k, v), t')) :
    ∃ library more, t' = t ++
        ⟨.view query.contracts.view (.getReceiveMsglib query.receiverBytes32 query.srcEid.toNat.repr), .ok library⟩ ::
          more ∧
      ∃ seen : AptosV301Seen, k = seen.key ∧ v = seen.validity ∧
        match seen with
        | .library _ => True
        | .packet read => aptosV301Read crates provider query (t ++
            [⟨.view query.contracts.view (.getReceiveMsglib query.receiverBytes32 query.srcEid.toNat.repr),
              .ok library⟩]) = (.ok read, t') := by
  obtain ⟨library, s, hlibrary, h⟩ := bind_ok h
  obtain rfl := moveViewValues_ok hlibrary
  dsimp only at h
  split at h
  · obtain ⟨heq, rfl⟩ := pure_ok h
    exact ⟨library, [], rfl, .library _, congrArg Prod.fst heq, congrArg Prod.snd heq, trivial⟩
  · obtain ⟨read, s, hread, h⟩ := bind_ok h
    obtain ⟨heq, rfl⟩ := pure_ok h
    obtain ⟨hash, config, counts, more, verified, -, -, -, -, rfl⟩ := aptosV301Read_ok hread
    exact ⟨library, _, List.append_assoc _ _ _, .packet read, congrArg Prod.fst heq, congrArg Prod.snd heq, hread⟩

theorem observeAptosV301PayloadSigned_voteDecides (crates : Crates) (query : AptosV301Observation) :
    VoteDecides fun provider => observeAptosV301PayloadSigned crates provider query := by
  refine voteDecides_of_seen (fun _ : AptosV301Seen => True) AptosV301Seen.key AptosV301Seen.validity
    (fun provider t k v t' h => ?_) fun seen seen' _ _ heq => AptosV301Seen.validity_of_key heq
  obtain ⟨-, -, -, seen, hkey, hvalidity, -⟩ := observeAptosV301PayloadSigned_ok h
  exact ⟨seen, trivial, hkey, hvalidity⟩

/-! ## What was recorded -/

/-- The values that a view gave. -/
def viewed (contract : String) (call : MoveCall) (told : List (Asked Question Answer)) : Option (List Json) :=
  told.findSome? fun asked =>
    match asked with
    | ⟨.view contract' call', answer⟩ =>
      if contract' = contract ∧ call' = call then (show Except RpcError (List Json) from answer).toOption else .none
    | ⟨.aptosV1PayloadHash _ _ _ _ _, _⟩ => .none

theorem viewed_self {contract : String} {call : MoveCall} {values : List Json} {told : List (Asked Question Answer)} :
    viewed contract call (⟨.view contract call, .ok values⟩ :: told) = .some values := by
  rw [viewed, List.findSome?_cons]
  simp only [and_self, if_true]
  rfl

theorem viewed_other {contract contract' : String} {call call' : MoveCall} {answer : Except RpcError (List Json)}
    {told : List (Asked Question Answer)} (h : call' ≠ call) :
    viewed contract call (⟨.view contract' call', answer⟩ :: told) = viewed contract call told := by
  rw [viewed, List.findSome?_cons]
  simp only [h, and_false, if_false]
  rfl

theorem dvnConfirmed_some {count required : UInt64} :
    dvnConfirmed (.some count) required = true ↔ 1 ≤ count ∧ required ≤ count := by
  simp only [dvnConfirmed, Option.any_some, Bool.and_eq_true, decide_eq_true_eq]
  simp only [gt_iff_lt, ge_iff_le, UInt64.lt_iff_toNat_lt, UInt64.le_iff_toNat_le, UInt64.toNat_zero, UInt64.toNat_one]
  omega

/-- A record that meets the requirement is the verdict, and no other is. -/
theorem recognised {required : UInt64} {record : Option UInt64} (signed : Bool) {v : PayloadSignedValidity}
    (hv : v = if dvnConfirmed record required || signed then .signed else .notSigned (.some required)) :
    (∀ b, record = .some b → required ≤ b → 1 ≤ b → v = validities.signed ∨ validities.Refused v) ∧
      ∀ r, v = validities.notSigned (.some r) → r = required ∧ ∀ b, record = .some b → b < max r 1 := by
  constructor
  · intro b hb hr hone
    left
    rw [hv, hb, dvnConfirmed_some.mpr ⟨hone, hr⟩, Bool.true_or, if_pos rfl]
    rfl
  · intro r h
    rw [hv] at h
    split at h
    · cases h
    · next hnot =>
      cases h
      refine ⟨rfl, fun b hb => lt_max_one fun hmet => hnot ?_⟩
      rw [hb, dvnConfirmed_some.mpr hmet, Bool.true_or]

/-- The requirement of the receive config that a provider gave. -/
def MovePayloadSignedObservation.requirement (crates : Crates) (query : MovePayloadSignedObservation)
    (told : List (Asked Question Answer)) : Option UInt64 :=
  (viewed query.endpointV2 (.getConfig query.receiver query.uln302 query.srcEid.toNat.repr) told).bind fun config =>
    config.head?.bind fun value => value.asStr.bind (moveUlnConfigConfirmations crates.hex)

/-- The record that a provider gave of this DVN and packet. -/
def MovePayloadSignedObservation.record (crates : Crates) (query : MovePayloadSignedObservation)
    (told : List (Asked Question Answer)) : Option (Option UInt64) :=
  (headerHash crates query.packetHeader).bind fun hash =>
    (viewed query.uln302 (.getVerificationConfirmations hash query.payloadHash query.verifierAddress) told).map recordOf

theorem observeMovePayloadSigned_recognises (crates : Crates) (provider : Provider)
    (query : MovePayloadSignedObservation) :
    Recognises validities (query.requirement crates) (query.record crates)
      (observeMovePayloadSigned crates provider query) := by
  intro k v told h
  obtain ⟨read, s, hread, h⟩ := bind_ok h
  obtain ⟨heq, rfl⟩ := pure_ok h
  obtain ⟨hash, receiver, library, config, state, counts, hhash, -, hconfig, hcounts, htold⟩ := moveRead_ok hread
  have hrequirement : query.requirement crates s = .some read.required := by
    rw [MovePayloadSignedObservation.requirement, htold, List.nil_append, viewed_other (by simp), viewed_self,
      Option.bind_some, hconfig]
  have hrecord : query.record crates s = .some read.confirmations := by
    rw [MovePayloadSignedObservation.record, hhash, Option.bind_some, htold, List.nil_append, viewed_other (by simp),
      viewed_other (by simp), viewed_other (by simp), viewed_self, Option.map_some, hcounts]
  have hv : v = if dvnConfirmed read.confirmations read.required || read.state = 2 then .signed
      else .notSigned (.some read.required) := by
    have hvalidity : v = read.validity := congrArg Prod.snd heq
    rw [hvalidity, MoveRead.validity]
    simp only [Bool.or_eq_true, decide_eq_true_eq, or_comm]
  exact recognises_of hrequirement hrecord (recognised _ hv).1 (recognised _ hv).2

/-- The requirement of the receive config that a provider gave. -/
def AptosV301Observation.requirement (crates : Crates) (query : AptosV301Observation)
    (told : List (Asked Question Answer)) : Option UInt64 :=
  (viewed query.contracts.view (.getV1Config query.receiver query.srcEid.toNat.repr) told).bind fun config =>
    config.head?.bind fun value => value.asStr.bind (moveUlnConfigConfirmations crates.hex)

/-- The record that a provider gave of this DVN and packet. -/
def AptosV301Observation.record (crates : Crates) (query : AptosV301Observation)
    (told : List (Asked Question Answer)) : Option (Option UInt64) :=
  (headerHash crates query.packetHeader).bind fun hash =>
    (viewed query.contracts.uln301 (.getVerificationConfirmations hash query.payloadHash query.verifierAddress)
      told).map recordOf

/-- A receiver on another library is refused before its config is read. -/
theorem observeAptosV301PayloadSigned_recognises (crates : Crates) (provider : Provider)
    (query : AptosV301Observation) :
    Recognises validities (query.requirement crates) (query.record crates)
      (observeAptosV301PayloadSigned crates provider query) := by
  intro k v told h
  obtain ⟨library, -, -, seen, -, hv, hseen⟩ := observeAptosV301PayloadSigned_ok h
  cases seen with
  | library version =>
    subst hv
    refine ⟨fun _ _ _ _ _ _ => .inr ⟨fun h => (by cases h), fun _ h => (by cases h)⟩, fun r h => (by cases h)⟩
  | packet read =>
    obtain ⟨hash, config, counts, more, verified, hhash, hconfig, hcounts, hsigned, htold⟩ := aptosV301Read_ok hseen
    have hrequirement : query.requirement crates told = .some read.required := by
      rw [AptosV301Observation.requirement, htold, List.nil_append, List.singleton_append, viewed_other (by simp),
        viewed_self, Option.bind_some, hconfig]
    have hrecord : query.record crates told = .some read.confirmations := by
      rw [AptosV301Observation.record, hhash, Option.bind_some, htold, List.nil_append, List.singleton_append,
        viewed_other (by simp), viewed_other (by simp), viewed_self, Option.map_some, hcounts]
    have hverdict : v = if dvnConfirmed read.confirmations read.required || verified then .signed
        else .notSigned (.some read.required) := by
      rw [hv, ← hsigned]
      rfl
    exact recognises_of hrequirement hrecord (recognised verified hverdict).1 (recognised verified hverdict).2

/-! ## What is let through -/

theorem observeMovePayloadSigned_required {query : MovePayloadSignedObservation} {provider : Provider} {k : String}
    {required : Option UInt64}
    (h : (observeMovePayloadSigned crates provider query []).1 = .ok (k, .notSigned required)) : required ≠ .none := by
  obtain ⟨read, s, -, hread⟩ := bind_ok (Prod.ext h rfl)
  obtain ⟨heq, -⟩ := pure_ok hread
  have hvalidity : PayloadSignedValidity.notSigned required = read.validity := congrArg Prod.snd heq
  rw [MoveRead.validity] at hvalidity
  split at hvalidity <;> cases hvalidity
  exact Option.some_ne_none _

theorem observeAptosV301PayloadSigned_required {query : AptosV301Observation} {provider : Provider} {k : String}
    {required : Option UInt64}
    (h : (observeAptosV301PayloadSigned crates provider query []).1 = .ok (k, .notSigned required)) :
    required ≠ .none := by
  obtain ⟨-, -, -, seen, -, hvalidity, -⟩ := observeAptosV301PayloadSigned_ok (Prod.ext h rfl)
  cases seen with
  | library version => cases hvalidity
  | packet read =>
    rw [AptosV301Seen.validity, AptosV301Read.validity] at hvalidity
    split at hvalidity <;> cases hvalidity
    exact Option.some_ne_none _

variable (contracts : MoveContracts) (providers : Providers) (oracles : Nat → Provider)
  (messageIdJson : PacketSent.LzMessageId → String)

/-- **A Move destination is signed for on short records only.** -/
theorem validateMoveUln302PayloadNotSignedWithQuorum_onlyShort (sentEvent : PacketSent.LzSentEvent)
    (verifierAddress dstChainName : String) :
    OnlyShort (moveUln302Panel crates contracts providers sentEvent verifierAddress dstChainName)
      (fun query provider => observeMovePayloadSigned crates provider query) oracles
      (fun query => query.requirement crates) (fun query => query.record crates)
      (validateMoveUln302PayloadNotSignedWithQuorum crates contracts providers oracles messageIdJson sentEvent
        verifierAddress dstChainName) :=
  validateWithQuorum_onlyShort (observeMovePayloadSigned_voteDecides crates)
    (fun query provider => observeMovePayloadSigned_recognises crates provider query)
    (fun _ _ => payloadSignedValidationResult_ok.mp)
    fun _ _ _ _ => observeMovePayloadSigned_required

end Pillar.MovePayload
