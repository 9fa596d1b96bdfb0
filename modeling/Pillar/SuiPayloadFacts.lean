/-
What a Sui provider's vote says: of the aborts of a dry run only the ULN's own
is a missing record (`storedConfirmations_ok`), and it is read in the text of an
IOTA node as in the fields of a Sui node.
-/
import Pillar.SuiBcsFacts
import Pillar.SuiPayload

namespace Pillar.SuiPayload

open Abi (Bytes)
open Fields Hex Packet PayloadSigned SuiBcs Text
open Redact (splitOnce splitOnce_append splitOnce_none)
open Asking (bind_ok bind_of_ok pure_ok lift_ok ask_ok throw_ok)

variable {crates : Crates} {provider : Provider} {t t' : List (Asked SuiRequest fun _ => Except RpcError Json)}

/-! ## What a run asks -/

/-- A dry run whose value is that of a function. -/
def asksFor (function : String) : SuiRequest → Bool
  | .devInspect _ commands => commands.getLast?.any (·.function = function)
  | _ => false

/-- Neither the record nor the requirement. -/
def Quiet (question : SuiRequest) : Prop :=
  asksFor "get_confirmations" question = false ∧ asksFor "get_effective_receive_uln_config" question = false

theorem request_ok {α : Type} {question : SuiRequest} {read : Json → Option α} {a : α}
    (h : request provider question read t = (.ok a, t')) :
    ∃ response, read response = .some a ∧ t' = t ++ [⟨question, .ok response⟩] := by
  obtain ⟨response, -, hread, rfl⟩ := requested_ok h
  exact ⟨response, hread, rfl⟩

section

variable {kind : SuiRequest → Prop}

theorem addsOnly_request {α : Type} {question : SuiRequest} (h : kind question) (read : Json → Option α) :
    AddsOnly kind (request provider question read) :=
  AddsOnly.bind (addsOnly_ask h) fun _ => AddsOnly.bind (addsOnly_lift _) fun _ => addsOnly_lift _

theorem addsOnly_normalizedParameters (package : Bytes 32) (module function : String) :
    AddsOnly Quiet (normalizedParameters provider package module function) :=
  addsOnly_request ⟨rfl, rfl⟩ _

theorem sharedObjectInput_ok {objectId : String} {version : UInt64} {parameters : List Bool} {index : Nat}
    {object : SuiSharedObject} (h : sharedObjectInput crates objectId version parameters index t = (.ok object, t')) :
    t' = t := by
  obtain ⟨id, s, hid, h⟩ := bind_ok h
  obtain ⟨-, rfl⟩ := okOrUnavailable_ok hid
  obtain ⟨mutable, s, hmutable, h⟩ := bind_ok h
  obtain ⟨-, rfl⟩ := okOrUnavailable_ok hmutable
  exact (pure_ok h).2.symm

theorem addsOnly_sharedObjectInput (objectId : String) (version : UInt64) (parameters : List Bool) (index : Nat) :
    AddsOnly kind (sharedObjectInput crates objectId version parameters index) :=
  AddsOnly.bind (addsOnly_lift _) fun _ => AddsOnly.bind (addsOnly_lift _) fun _ => addsOnly_lift _

theorem addsOnly_devInspectValue {α : Type} {chainName : String} {args : List SuiCallArg} {command : SuiMoveCall}
    (h : kind (.devInspect args [command])) (decode : List UInt8 → Option α) :
    AddsOnly kind (devInspectValue crates provider chainName args command decode) :=
  AddsOnly.bind (addsOnly_request h _) fun _ => addsOnly_lift _

end

theorem quiet_of_function {args : List SuiCallArg} {command : SuiMoveCall} (name : String)
    (hname : command.function = name) (h : name ≠ "get_confirmations" ∧ name ≠ "get_effective_receive_uln_config") :
    Quiet (.devInspect args [command]) :=
  ⟨decide_eq_false (hname ▸ h.1), decide_eq_false (hname ▸ h.2)⟩

theorem asksFor_confirmations (packages : Packages) (args : List SuiCallArg) :
    asksFor "get_confirmations" (.devInspect args (confirmationsCalls packages)) = true := by
  simp [asksFor, confirmationsCalls]

theorem asksFor_config (packages : Packages) (args : List SuiCallArg) :
    asksFor "get_effective_receive_uln_config" (.devInspect args [configCall packages]) = true := by
  simp [asksFor, configCall]

theorem addsOnly_messagingChannel (query : SuiPayloadQuery) (packages : Packages) :
    AddsOnly Quiet (messagingChannel crates provider query packages) := by
  refine AddsOnly.bind (AddsOnly.bind (addsOnly_request ⟨rfl, rfl⟩ _) fun _ =>
    AddsOnly.bind (addsOnly_request ⟨rfl, rfl⟩ _) fun _ => addsOnly_sharedObjectInput _ _ _ _) fun _ => ?_
  exact (addsOnly_devInspectValue (quiet_of_function "get_messaging_channel" rfl (by decide)) _).bind fun _ =>
    addsOnly_lift _

theorem addsOnly_verificationState (query : SuiPayloadQuery) (packages : Packages) (endpointVersion : UInt64)
    (channel : Bytes 32) :
    AddsOnly Quiet (verificationState crates provider query packages endpointVersion channel) := by
  refine (addsOnly_normalizedParameters _ _ _).bind fun _ => AddsOnly.bind (addsOnly_request ⟨rfl, rfl⟩ _) fun _ => ?_
  refine (addsOnly_sharedObjectInput _ _ _ _).bind fun _ => (addsOnly_sharedObjectInput _ _ _ _).bind fun _ => ?_
  refine (addsOnly_sharedObjectInput _ _ _ _).bind fun _ => (addsOnly_sharedObjectInput _ _ _ _).bind fun _ => ?_
  exact (addsOnly_devInspectValue (quiet_of_function "verifiable" rfl (by decide)) _).bind fun _ => addsOnly_lift _

theorem addsOnly_isValidReceiveLibrary (query : SuiPayloadQuery) (packages : Packages) (objects : Objects) :
    AddsOnly (fun _ => True) (isValidReceiveLibrary crates provider query packages objects) := by
  refine AddsOnly.bind (addsOnly_request trivial _) fun _ => AddsOnly.bind (addsOnly_request trivial _) fun _ => ?_
  refine (addsOnly_sharedObjectInput _ _ _ _).bind fun _ => (addsOnly_sharedObjectInput _ _ _ _).bind fun _ => ?_
  refine (addsOnly_devInspectValue trivial _).bind fun valid => ?_
  split_ifs <;> exact addsOnly_lift _

/-! ## What a run read -/

theorem storedConfirmations_ok {query : SuiPayloadQuery} {packages : Packages} {objects : Objects}
    {confirmations : Option UInt64}
    (h : storedConfirmations crates provider query packages objects t = (.ok confirmations, t')) :
    ∃ before args response result,
      t' = t ++ before ++ [⟨.devInspect args (confirmationsCalls packages), .ok response⟩] ∧
      (∀ entry ∈ before, Quiet entry.question) ∧ returned crates query.chainName response = .some result ∧
      recordReturned packages.uln result = .some confirmations := by
  obtain ⟨parameters, s, hparameters, h⟩ := bind_ok h
  obtain ⟨more, rfl, hmore⟩ := (addsOnly_normalizedParameters _ _ _).told hparameters
  obtain ⟨verification, s, hverification, h⟩ := bind_ok h
  obtain rfl := sharedObjectInput_ok hverification
  obtain ⟨result, s, hresult, h⟩ := bind_ok h
  obtain ⟨response, hreturned, rfl⟩ := request_ok hresult
  obtain ⟨hrecord, rfl⟩ := okOrUnavailable_ok h
  exact ⟨more, _, response, result, rfl, hmore, hreturned, hrecord⟩

theorem requiredConfirmations_ok {query : SuiPayloadQuery} {packages : Packages} {objects : Objects}
    {required : UInt64} (h : requiredConfirmations crates provider query packages objects t = (.ok required, t')) :
    ∃ before args response result, t' = t ++ before ++ [⟨.devInspect args [configCall packages], .ok response⟩] ∧
      (∀ entry ∈ before, Quiet entry.question) ∧ returned crates query.chainName response = .some result ∧
      result.toOption.bind requiredOf = .some required := by
  obtain ⟨parameters, s, hparameters, h⟩ := bind_ok h
  obtain ⟨more, rfl, hmore⟩ := (addsOnly_normalizedParameters _ _ _).told hparameters
  obtain ⟨uln, s, huln, h⟩ := bind_ok h
  obtain rfl := sharedObjectInput_ok huln
  obtain ⟨result, s, hresult, h⟩ := bind_ok h
  obtain ⟨response, hreturned, rfl⟩ := request_ok hresult
  obtain ⟨hrequired, rfl⟩ := okOrUnavailable_ok h
  exact ⟨more, _, response, result, rfl, hmore, hreturned, hrequired⟩

/-- What the first dry run for a function returned. -/
def toldOf (crates : Crates) (chainName function : String)
    (told : List (Asked SuiRequest fun _ => Except RpcError Json)) : Option (Except SuiViewFailure (List UInt8)) :=
  (told.find? fun entry => asksFor function entry.question).bind fun entry =>
    entry.answer.toOption.bind (returned crates chainName)

def requirementOf (crates : Crates) (query : SuiPayloadQuery)
    (told : List (Asked SuiRequest fun _ => Except RpcError Json)) : Option UInt64 :=
  (toldOf crates query.chainName "get_effective_receive_uln_config" told).bind fun result =>
    result.toOption.bind requiredOf

def recordOf (crates : Crates) (query : SuiPayloadQuery)
    (told : List (Asked SuiRequest fun _ => Except RpcError Json)) : Option (Option UInt64) :=
  (packagesOf crates query.contracts).bind fun packages =>
    (toldOf crates query.chainName "get_confirmations" told).bind (recordReturned packages.uln)

theorem toldOf_append {function chainName : String}
    {before after : List (Asked SuiRequest fun _ => Except RpcError Json)} {question : SuiRequest} {response : Json}
    (hbefore : ∀ entry ∈ before, asksFor function entry.question = false)
    (hquestion : asksFor function question = true) :
    toldOf crates chainName function (before ++ ⟨question, .ok response⟩ :: after) =
      returned crates chainName response := by
  have hnone : before.find? (fun entry => asksFor function entry.question) = .none :=
    List.find?_eq_none.mpr fun entry he => by simp [hbefore entry he]
  rw [toldOf, List.find?_append, hnone, Option.none_or, List.find?_cons_of_pos (by simpa using hquestion)]
  rfl

/-- What was seen is what was told, of a library that is valid. -/
theorem observeSuiPayloadSigned_ok {query : SuiPayloadQuery} {k : String} {v : PayloadSignedValidity}
    (h : observeSuiPayloadSigned crates provider query t = (.ok (k, v), t')) :
    (k = "unsupported-receive-library" ∧ v = .unsupportedReceiveLibrary) ∨ ∃ seen : Seen, k = seen.key ∧
      v = seen.validity ∧ ((∀ entry ∈ t, Quiet entry.question) →
        requirementOf crates query t' = .some seen.required ∧ recordOf crates query t' = .some seen.confirmations) := by
  obtain ⟨packages, s, hread, h⟩ := bind_ok h
  obtain ⟨hpackages, rfl⟩ := okOrUnavailable_ok hread
  obtain ⟨⟨endpointVersion, channel⟩, s, hchannel, h⟩ := bind_ok h
  obtain ⟨first, rfl, hfirst⟩ := (addsOnly_messagingChannel query packages).told hchannel
  obtain ⟨⟨objects, state⟩, s, hstate, h⟩ := bind_ok h
  obtain ⟨second, rfl, hsecond⟩ := (addsOnly_verificationState query packages _ _).told hstate
  obtain ⟨confirmations, s, hconfirmations, h⟩ := bind_ok h
  obtain ⟨third, args, response, result, rfl, hthird, hreturned, hrecord⟩ := storedConfirmations_ok hconfirmations
  obtain ⟨required, s, hrequired, h⟩ := bind_ok h
  obtain ⟨fourth, args', response', result', rfl, hfourth, hreturned', hconfig⟩ := requiredConfirmations_ok hrequired
  obtain ⟨valid, s, hvalid, h⟩ := bind_ok h
  obtain ⟨last, rfl, -⟩ := (addsOnly_isValidReceiveLibrary query packages objects).told hvalid
  cases valid with
  | false =>
    obtain ⟨heq, -⟩ := pure_ok h
    cases heq
    exact .inl ⟨rfl, rfl⟩
  | true =>
    obtain ⟨heq, rfl⟩ := pure_ok h
    cases heq
    refine .inr ⟨⟨state, confirmations, required⟩, rfl, rfl, fun hquiet => ?_⟩
    have hbefore : ∀ entry ∈ t ++ first ++ second ++ third, Quiet entry.question := by
      intro entry he
      simp only [List.mem_append] at he
      rcases he with ((he | he) | he) | he
      · exact hquiet entry he
      · exact hfirst entry he
      · exact hsecond entry he
      · exact hthird entry he
    constructor
    · have hskip : ∀ entry ∈ t ++ first ++ second ++ third ++ [⟨.devInspect args (confirmationsCalls packages),
          .ok response⟩] ++ fourth, asksFor "get_effective_receive_uln_config" entry.question = false := by
        intro entry he
        rcases List.mem_append.mp he with he | he
        · rcases List.mem_append.mp he with he | he
          · exact (hbefore entry he).2
          · rw [List.mem_singleton.mp he]
            show decide ("get_confirmations" = "get_effective_receive_uln_config") = false
            decide
        · exact (hfourth entry he).2
      rw [requirementOf, List.append_assoc _ _ last, List.singleton_append,
        toldOf_append hskip (asksFor_config packages args'), hreturned', Option.bind_some, hconfig]
    · have htold : toldOf crates query.chainName "get_confirmations" (t ++ first ++ second ++ third ++
          [⟨.devInspect args (confirmationsCalls packages), .ok response⟩] ++ fourth ++
          [⟨.devInspect args' [configCall packages], .ok response'⟩] ++ last) = .some result := by
        rw [List.append_assoc _ fourth, List.append_assoc _ (fourth ++ _) last,
          List.append_assoc _ [_] (fourth ++ _ ++ last), List.singleton_append,
          toldOf_append (fun entry he => (hbefore entry he).1) (asksFor_confirmations packages args), hreturned]
      rw [recordOf, hpackages, Option.bind_some, htold, Option.bind_some, hrecord]

/-! ## The vote -/

theorem voteOn_ok {query : SuiPayloadQuery} {k : String} {v : PayloadSignedValidity} {told}
    (h : voteOn crates query provider t = (.ok (k, v), told)) :
    (k = "unsupported-receive-library" ∧ v = .unsupportedReceiveLibrary) ∨ ∃ seen : Seen, k = seen.key ∧
      v = seen.validity ∧ ((∀ entry ∈ t, Quiet entry.question) →
        requirementOf crates query told = .some seen.required ∧
        recordOf crates query told = .some seen.confirmations) := by
  obtain ⟨answer, s, hask, h⟩ := bind_ok h
  obtain ⟨-, rfl⟩ := ask_ok hask
  obtain ⟨response, s, hlift, h⟩ := bind_ok h
  obtain ⟨-, rfl⟩ := lift_ok hlift
  rcases observeSuiPayloadSigned_ok h with hunsupported | ⟨seen, hk, hv, htold⟩
  · exact .inl hunsupported
  · refine .inr ⟨seen, hk, hv, fun hquiet => htold fun entry he => ?_⟩
    rcases List.mem_append.mp he with he | he
    · exact hquiet entry he
    · rw [List.mem_singleton.mp he]
      exact ⟨rfl, rfl⟩

theorem Seen.plain (seen : Seen) : ∀ f ∈ [decimal seen.state.toUInt64, debugOption seen.confirmations,
    decimal seen.required], Plain f := by
  simp only [List.forall_mem_cons, List.not_mem_nil, false_implies, implies_true, and_true]
  exact ⟨plain_decimal _, plain_debugOption _, plain_decimal _⟩

theorem Seen.key_injective : Function.Injective Seen.key := by
  intro seen seen' h
  obtain ⟨hstate, hrest⟩ := joined_inj seen.plain seen'.plain h
  simp only [List.cons.injEq, and_true] at hrest
  have hbyte := UInt8.toUInt64_inj.mp (decimal_injective hstate)
  have hrecord := debugOption_injective hrest.1
  have hrequired := decimal_injective hrest.2
  cases seen
  cases seen'
  cases hbyte
  cases hrecord
  cases hrequired
  rfl

theorem Seen.key_ne_unsupported (seen : Seen) : seen.key ≠ "unsupported-receive-library" := by
  intro h
  have hplain : ∀ f ∈ ["unsupported-receive-library"], Plain f := by
    intro f hf
    rw [List.mem_singleton.mp hf]
    decide
  exact absurd (joined_inj seen.plain hplain h).2 (List.cons_ne_nil _ _)

theorem voteOn_voteDecides (crates : Crates) (query : SuiPayloadQuery) : VoteDecides (voteOn crates query) := by
  refine voteDecides_of_seen (fun _ : Option Seen => True) (·.elim "unsupported-receive-library" Seen.key)
    (·.elim .unsupportedReceiveLibrary Seen.validity) (fun provider t k v t' h => ?_) fun seen seen' _ _ h => ?_
  · rcases voteOn_ok h with ⟨hk, hv⟩ | ⟨seen, hk, hv, -⟩
    · exact ⟨.none, trivial, hk, hv⟩
    · exact ⟨.some seen, trivial, hk, hv⟩
  · cases seen with
    | none =>
      cases seen' with
      | none => rfl
      | some seen' => exact absurd h.symm seen'.key_ne_unsupported
    | some seen =>
      cases seen' with
      | none => exact absurd h seen.key_ne_unsupported
      | some seen' => rw [Seen.key_injective h]

theorem Seen.validity_signed {seen : Seen} {b : UInt64} (hb : seen.confirmations = .some b) (hle : seen.required ≤ b) :
    seen.validity = .signed :=
  if_pos (.inr (by rw [hb, Option.any_some, decide_eq_true_iff]; exact hle))

theorem Seen.validity_notSigned {seen : Seen} {required : Option UInt64} (h : seen.validity = .notSigned required) :
    required = .some seen.required ∧ ∀ b, seen.confirmations = .some b → ¬ seen.required ≤ b := by
  refine ⟨?_, fun b hb hle => ?_⟩
  · unfold validity at h
    split at h <;> cases h
    rfl
  · rw [validity_signed hb hle] at h
    cases h

theorem voteOn_recognises (crates : Crates) (provider : Provider) (query : SuiPayloadQuery) :
    Recognises validities (requirementOf crates query) (recordOf crates query) (voteOn crates query provider) := by
  intro k v told h
  rcases voteOn_ok h with ⟨-, rfl⟩ | ⟨seen, -, rfl, htold⟩
  · exact ⟨fun _ _ _ _ _ _ => .inr ⟨fun h => (by cases h), fun _ h => (by cases h)⟩, fun _ h => (by cases h)⟩
  · obtain ⟨hrequirement, hrecord⟩ := htold fun entry he => (by cases he)
    have hshort : ∀ r, seen.validity = .notSigned (.some r) →
        r = seen.required ∧ ∀ b, seen.confirmations = .some b → b < max r 1 := by
      intro r hnot
      obtain ⟨hr, hrecord⟩ := Seen.validity_notSigned hnot
      cases hr
      exact ⟨rfl, fun b hb => lt_max_one fun hmet => hrecord b hb hmet.2⟩
    exact recognises_of hrequirement hrecord (fun b hb hle _ => .inl (Seen.validity_signed hb hle)) hshort

theorem voteOn_required {crates : Crates} {query : SuiPayloadQuery} {provider : Provider} {k : String}
    {required : Option UInt64} (h : (voteOn crates query provider []).1 = .ok (k, .notSigned required)) :
    required ≠ .none := by
  rcases voteOn_ok (Prod.ext h rfl) with ⟨-, hv⟩ | ⟨seen, -, hv, -⟩
  · cases hv
  · rw [(Seen.validity_notSigned hv.symm).1]
    exact Option.some_ne_none _

/-- **A Sui or IOTA destination is signed for on short records only**, and a
record is missing only where the ULN itself said so. -/
theorem validateSuiPayloadNotSignedWithQuorum_onlyShort (crates : Crates) (providers : Providers)
    (contracts : String → Option SuiPayloadContracts) (oracles : Nat → Provider)
    (messageIdJson : PacketSent.LzMessageId → String) (sentEvent : PacketSent.LzSentEvent)
    (verifierAddress dstChainName : String) :
    OnlyShort (suiPanel crates providers contracts sentEvent verifierAddress dstChainName) (voteOn crates) oracles
      (requirementOf crates) (recordOf crates)
      (validateSuiPayloadNotSignedWithQuorum crates providers contracts oracles messageIdJson sentEvent
        verifierAddress dstChainName) :=
  validateWithQuorum_onlyShort (voteOn_voteDecides crates)
    (fun query provider => voteOn_recognises crates provider query)
    (fun _ _ => payloadSignedValidationResult_ok.mp) fun _ _ _ _ => voteOn_required

/-! ## What nodes write -/

/-- `<package>::<module>::<function>`. -/
def location (hex : HexCrate) (site : MoveAbortSite) : String :=
  hexText hex site.package.val ++ ("::" ++ (site.module ++ ("::" ++ site.function)))

/-- `simulateTransaction`'s response. -/
def simulated (error status : Json) (outputs : List Json) : Json :=
  .object [("data", .object [("simulateTransaction", .object [("effects",
    .object [("executionError", error), ("status", status)]), ("outputs", .array outputs)])])]

def sampleCrates : Crates where
  hex := .plain
  bs58 _ := .error "not base58"
  keccak256 _ := ⟨List.replicate 32 0, List.length_replicate⟩
  base64 := .plain

end Pillar.SuiPayload
