/-
What a Stellar provider's vote says, and what its contracts hold: `Verified`
alone does not sign, for the view says so too of a nonce too far ahead
(`observeStellarPayloadSigned_served`).
-/
import Pillar.Express
import Pillar.StellarPayload

namespace Pillar.StellarPayload

open Abi (Bytes)
open Bits (ofBytes)
open PayloadSigned StellarSimulation Strkey Text
open Asking (bind_ok bind_of_ok pure_ok lift_ok ask_ok throw_ok)

variable {crates : Crates} {provider : Provider} {t t' : List (Asked Simulation fun _ => Except RpcError Json)}

/-! ## The vote -/

theorem StellarPayloadOutcome.debug_injective (debugStr : DebugStr) : Function.Injective (debug debugStr) := by
  intro v w h
  cases v with
  | validity v =>
    cases w with
    | validity w =>
      simp only [debug, String.append_left_inj, String.append_right_inj] at h
      exact congrArg _ (PayloadSignedValidity.debug_injective h)
    | refused m => exact absurd (congrArg (fun s => s.toList.head?) h) (by simp [debug])
  | refused m =>
    cases w with
    | validity w => exact absurd (congrArg (fun s => s.toList.head?) h) (by simp [debug])
    | refused m' =>
      simp only [debug, String.append_left_inj, String.append_right_inj] at h
      exact congrArg _ (debugStr.injective h)

theorem voteOn_ok {query : StellarPayloadQuery} {k : String} {v : StellarPayloadOutcome}
    (h : voteOn crates query provider t = (.ok (k, v), t')) :
    k = v.debug crates.debugStr ∧ observeStellarPayloadSigned crates provider query t = (.ok v, t') := by
  obtain ⟨outcome, s, hobserve, h⟩ := bind_ok h
  obtain ⟨heq, rfl⟩ := pure_ok h
  cases heq
  exact ⟨rfl, hobserve⟩

theorem voteOn_voteDecides (crates : Crates) (query : StellarPayloadQuery) : VoteDecides (voteOn crates query) :=
  voteDecides_of_debug (StellarPayloadOutcome.debug_injective crates.debugStr) fun _ _ _ _ _ h => (voteOn_ok h).1

/-! ## What a run read -/

theorem simulate_ok {contract : Bytes 32} {function : String} {args : List ScArg} {result : Simulated}
    (h : simulate crates provider contract function args t = (.ok result, t')) :
    ∃ response, simulated crates response = .some result ∧
      t' = t ++ [⟨⟨contract, function, args⟩, .ok response⟩] := by
  obtain ⟨response, -, hread, rfl⟩ := requested_ok h
  exact ⟨response, hread, rfl⟩

theorem adds_simulate (contract : Bytes 32) (function : String) (args : List ScArg) :
    AddsOnly (fun _ => True) (simulate crates provider contract function args) :=
  AddsOnly.bind (addsOnly_ask trivial) fun _ => AddsOnly.bind (addsOnly_lift _) fun _ => addsOnly_lift _

theorem adds_packetIsCommitted (endpoint : Bytes 32) (query : StellarPayloadQuery) :
    AddsOnly (fun _ => True) (packetIsCommitted crates provider endpoint query) := by
  unfold packetIsCommitted
  split
  · exact addsOnly_lift _
  · refine (adds_simulate _ _ _).bind fun result => ?_
    split
    · exact addsOnly_lift _
    · split
      · exact addsOnly_lift _
      · refine (adds_simulate _ _ _).bind fun result => ?_
        repeat' split
        all_goals exact addsOnly_lift _
    · exact addsOnly_lift _

/-- Not confirmed comes with a record that does not confirm. -/
theorem signedOutcome_ok {endpoint : Bytes 32} {query : StellarPayloadQuery} {required : UInt64}
    {confirmed verified : Bool} {o : StellarPayloadOutcome}
    (h : signedOutcome crates provider endpoint query required confirmed verified t = (.ok o, t')) :
    (∃ message, o = .refused message) ∨ o = outcome true required ∨
      (o = outcome false required ∧ confirmed = false) := by
  unfold signedOutcome at h
  split at h
  · exact .inr (.inl (pure_ok h).1)
  · next hconfirmed =>
    split at h
    · obtain ⟨committed, s, -, h⟩ := bind_ok h
      cases committed with
      | yes => exact .inr (.inl (pure_ok h).1)
      | no => exact .inr (.inr ⟨(pure_ok h).1, Bool.eq_false_of_not_eq_true hconfirmed⟩)
      | failed error => exact .inl ⟨_, (pure_ok h).1⟩
    · exact .inr (.inr ⟨(pure_ok h).1, Bool.eq_false_of_not_eq_true hconfirmed⟩)

theorem adds_signedOutcome (endpoint : Bytes 32) (query : StellarPayloadQuery) (required : UInt64)
    (confirmed verified : Bool) :
    AddsOnly (fun _ => True) (signedOutcome crates provider endpoint query required confirmed verified) := by
  unfold signedOutcome
  split
  · exact addsOnly_lift _
  · split
    · refine (adds_packetIsCommitted _ _).bind fun committed => ?_
      cases committed <;> exact addsOnly_lift _
    · exact addsOnly_lift _

/-- What an entry read, of a view. -/
def toldValue (crates : Crates) (entry : Asked Simulation fun _ => Except RpcError Json) : Option ScValue :=
  (entry.answer.toOption.bind (simulated crates)).bind fun
    | .value value => .some value
    | .failed _ => .none

/-- What was read of the first call of a function. -/
def toldOf {α : Type} (crates : Crates) (function : String) (read : ScValue → Option α)
    (told : List (Asked Simulation fun _ => Except RpcError Json)) : Option α :=
  (told.find? fun entry => entry.question.function = function).bind fun entry => (toldValue crates entry).bind read

def requirementOf (crates : Crates) (told : List (Asked Simulation fun _ => Except RpcError Json)) : Option UInt64 :=
  toldOf crates "effective_receive_uln_config" confirmationsOf told

def recordOf (crates : Crates) (told : List (Asked Simulation fun _ => Except RpcError Json)) :
    Option (Option UInt64) := toldOf crates "confirmations" recordOfValue told

def outcomes : Verdicts StellarPayloadOutcome := ⟨.validity .signed, fun required => .validity (.notSigned required)⟩

theorem refused_refused (message : String) : outcomes.Refused (.refused message) :=
  ⟨fun h => (by cases h), fun _ h => (by cases h)⟩

/-- An outcome, of what was told: refused or signed, or short of the requirement that was told. -/
def OfTold (crates : Crates) (o : StellarPayloadOutcome)
    (told : List (Asked Simulation fun _ => Except RpcError Json)) : Prop :=
  outcomes.Refused o ∨ o = .validity .signed ∨ ∃ required record, o = .validity (.notSigned (.some required)) ∧
    requirementOf crates told = .some required ∧ recordOf crates told = .some record ∧
    record.any (required ≤ ·) = false

/-- Nothing of the ULN was asked yet. -/
def Before (told : List (Asked Simulation fun _ => Except RpcError Json)) : Prop :=
  ∀ entry ∈ told, entry.question.function ≠ "effective_receive_uln_config" ∧ entry.question.function ≠ "confirmations"

theorem Before.add (h : Before t) {contract : Bytes 32} {function : String} {args : List ScArg}
    {answer : Except RpcError Json}
    (hfunction : function ≠ "effective_receive_uln_config" ∧ function ≠ "confirmations") :
    Before (t ++ [⟨⟨contract, function, args⟩, answer⟩]) := by
  intro entry hentry
  rcases List.mem_append.mp hentry with hentry | hentry
  · exact h entry hentry
  · rw [List.mem_singleton.mp hentry]
    exact hfunction

theorem toldOf_append {α : Type} {function : String} {read : ScValue → Option α}
    {entry : Asked Simulation fun _ => Except RpcError Json} (h : ∀ e ∈ t, e.question.function ≠ function)
    (hentry : entry.question.function = function) (more : List (Asked Simulation fun _ => Except RpcError Json)) :
    toldOf crates function read (t ++ entry :: more) = (toldValue crates entry).bind read := by
  have hnone : t.find? (fun e => e.question.function = function) = .none :=
    List.find?_eq_none.mpr fun e he => by simpa using h e he
  rw [toldOf, List.find?_append, hnone, Option.none_or, List.find?_cons_of_pos (by simpa using hentry),
    Option.bind_some]

theorem toldValue_ok {question : Simulation} {response : Json} {value : ScValue}
    (h : simulated crates response = .some (.value value)) :
    toldValue crates ⟨question, .ok response⟩ = .some value := by
  simp [toldValue, Except.toOption, h]

/-- A simulation that fails is refused. -/
theorem onValue_ok {result : Simulated} {next : ScValue → Observe StellarPayloadOutcome} {o : StellarPayloadOutcome}
    (h : onValue result next t = (.ok o, t')) :
    outcomes.Refused o ∨ ∃ value, result = .value value ∧ next value t = (.ok o, t') := by
  cases result with
  | value value => exact .inr ⟨value, rfl, h⟩
  | failed error =>
    obtain ⟨rfl, -⟩ := pure_ok h
    exact .inl (refused_refused _)

theorem verifiedState_error {state : Simulated} {o : StellarPayloadOutcome}
    (h : verifiedState crates state = .some (.error o)) : outcomes.Refused o := by
  unfold verifiedState at h
  split at h
  · split_ifs at h <;> cases h
    exact refused_refused _
  · cases h
    exact refused_refused _
  · cases h
  · split_ifs at h <;> cases h
    exact refused_refused _

theorem observeUln302_ok {endpoint uln views : Bytes 32} {query : StellarPayloadQuery} {o : StellarPayloadOutcome}
    (hbefore : Before t) (h : observeUln302 crates provider endpoint uln views query t = (.ok o, t')) :
    OfTold crates o t' := by
  obtain ⟨config, s, hsimulate, hrest⟩ := bind_ok h
  obtain ⟨response, hconfig, rfl⟩ := simulate_ok hsimulate
  rcases onValue_ok hrest with hrefused | ⟨value, rfl, hrun⟩
  · exact .inl hrefused
  · obtain ⟨required, s, hread, hrun⟩ := bind_ok hrun
    obtain ⟨hrequired, rfl⟩ := okOrUnavailable_ok hread
    obtain ⟨confirmedAnswer, s, hask, hrun⟩ := bind_ok hrun
    obtain ⟨-, rfl⟩ := ask_ok hask
    obtain ⟨stateAnswer, s, hask', hrun⟩ := bind_ok hrun
    obtain ⟨-, rfl⟩ := ask_ok hask'
    obtain ⟨confirmed, s, hlift, hrun⟩ := bind_ok hrun
    obtain ⟨rfl, rfl⟩ := lift_ok hlift
    obtain ⟨confirmedResult, s, hresult, hrun⟩ := bind_ok hrun
    obtain ⟨hconfirmed, rfl⟩ := okOrUnavailable_ok hresult
    rcases onValue_ok hrun with hrefused | ⟨recordValue, rfl, hsigned⟩
    · exact .inl hrefused
    · obtain ⟨record, s, hread', hsigned⟩ := bind_ok hsigned
      obtain ⟨hrecord, rfl⟩ := okOrUnavailable_ok hread'
      obtain ⟨stateResponse, s, hlift', hsigned⟩ := bind_ok hsigned
      obtain ⟨-, rfl⟩ := lift_ok hlift'
      obtain ⟨state, s, hstate, hsigned⟩ := bind_ok hsigned
      obtain ⟨-, rfl⟩ := okOrUnavailable_ok hstate
      obtain ⟨verified, s, hverified, hsigned⟩ := bind_ok hsigned
      obtain ⟨hverdict, rfl⟩ := okOrUnavailable_ok hverified
      cases verified with
      | error refused =>
        obtain ⟨rfl, -⟩ := pure_ok hsigned
        exact .inl (verifiedState_error hverdict)
      | ok verified =>
        obtain ⟨more, rfl, -⟩ := (adds_signedOutcome _ _ _ _ _).told hsigned
        rcases signedOutcome_ok hsigned with ⟨message, rfl⟩ | rfl | ⟨rfl, hshort⟩
        · exact .inl (refused_refused message)
        · exact .inr (.inl rfl)
        · refine .inr (.inr ⟨required, record, rfl, ?_, ?_, hshort⟩)
          · rw [requirementOf, List.append_assoc, List.append_assoc, List.append_assoc, List.singleton_append,
              toldOf_append (fun e he => (hbefore e he).1) rfl, toldValue_ok hconfig, Option.bind_some, hrequired]
          · have hskip : ∀ e ∈ t ++ [(⟨⟨uln, "effective_receive_uln_config", query.pathway⟩, .ok response⟩ :
                Asked Simulation fun _ => Except RpcError Json)], e.question.function ≠ "confirmations" := by
              intro e he
              rcases List.mem_append.mp he with he | he
              · exact (hbefore e he).2
              · rw [List.mem_singleton.mp he]
                show "effective_receive_uln_config" ≠ "confirmations"
                decide
            rw [recordOf, List.append_assoc, List.append_assoc, List.singleton_append, toldOf_append hskip rfl,
              toldValue_ok hconfirmed, Option.bind_some, hrecord]

theorem observeLibrary_ok {endpoint uln views : Bytes 32} {query : StellarPayloadQuery} {library : StellarAddress}
    {o : StellarPayloadOutcome} (hbefore : Before t)
    (h : observeLibrary crates provider endpoint uln views query library t = (.ok o, t')) : OfTold crates o t' := by
  unfold observeLibrary at h
  split at h
  · obtain ⟨rfl, -⟩ := pure_ok h
    exact .inl ⟨fun h => (by cases h), fun _ h => (by cases h)⟩
  · exact observeUln302_ok hbefore h

theorem observeResolved_ok {endpoint uln views : Bytes 32} {query : StellarPayloadQuery} {library : StellarAddress}
    {isDefault : Bool} {o : StellarPayloadOutcome} (hbefore : Before t)
    (h : observeResolved crates provider endpoint uln views query library isDefault t = (.ok o, t')) :
    OfTold crates o t' := by
  unfold observeResolved at h
  split at h
  · exact observeLibrary_ok hbefore h
  · obtain ⟨valid, s, hsimulate, hrest⟩ := bind_ok h
    obtain ⟨response, -, rfl⟩ := simulate_ok hsimulate
    rcases onValue_ok hrest with hrefused | ⟨value, rfl, hlibrary⟩
    · exact .inl hrefused
    · obtain ⟨valid, s, hread, hlibrary⟩ := bind_ok hlibrary
      obtain ⟨-, rfl⟩ := okOrUnavailable_ok hread
      split at hlibrary
      · exact observeLibrary_ok (hbefore.add (by decide)) hlibrary
      · obtain ⟨rfl, -⟩ := pure_ok hlibrary
        exact .inl (refused_refused _)

theorem observeStellarPayloadSigned_ok {query : StellarPayloadQuery} {o : StellarPayloadOutcome}
    (h : observeStellarPayloadSigned crates provider query [] = (.ok o, t')) : OfTold crates o t' := by
  obtain ⟨endpoint, s, hread, h⟩ := bind_ok h
  obtain ⟨-, rfl⟩ := okOrUnavailable_ok hread
  obtain ⟨uln, s, hread, h⟩ := bind_ok h
  obtain ⟨-, rfl⟩ := okOrUnavailable_ok hread
  obtain ⟨views, s, hread, h⟩ := bind_ok h
  obtain ⟨-, rfl⟩ := okOrUnavailable_ok hread
  obtain ⟨resolved, s, hsimulate, hrest⟩ := bind_ok h
  obtain ⟨response, -, rfl⟩ := simulate_ok hsimulate
  rcases onValue_ok hrest with hrefused | ⟨value, rfl, hrun⟩
  · exact .inl hrefused
  · obtain ⟨⟨library, isDefault⟩, s, hread, hrun⟩ := bind_ok hrun
    obtain ⟨-, rfl⟩ := okOrUnavailable_ok hread
    exact observeResolved_ok (Before.add (fun _ h => (by cases h)) (by decide)) hrun

theorem voteOn_recognises (crates : Crates) (provider : Provider) (query : StellarPayloadQuery) :
    Recognises outcomes (requirementOf crates) (recordOf crates) (voteOn crates query provider) := by
  intro k o told h
  obtain ⟨-, h⟩ := voteOn_ok h
  rcases observeStellarPayloadSigned_ok h with hrefused | rfl | ⟨required, record, rfl, hrequirement, hrecord, hshort⟩
  · exact ⟨fun _ _ _ _ _ _ => .inr hrefused, fun r h => absurd h (hrefused.2 _)⟩
  · exact ⟨fun _ _ _ _ _ _ => .inl rfl, fun _ h => (by cases h)⟩
  · refine recognises_of hrequirement hrecord (fun b hb hle _ => ?_) fun r h => ?_
    · rw [hb, Option.any_some, decide_eq_false_iff_not] at hshort
      exact absurd hle hshort
    · cases h
      refine ⟨rfl, fun b hb => lt_max_one fun hmet => ?_⟩
      rw [hb, Option.any_some, decide_eq_false_iff_not] at hshort
      exact hshort hmet.2

theorem voteOn_required {crates : Crates} {query : StellarPayloadQuery} {provider : Provider} {k : String}
    {required : Option UInt64} (h : (voteOn crates query provider []).1 = .ok (k, outcomes.notSigned required)) :
    required ≠ .none := by
  obtain ⟨-, h⟩ := voteOn_ok (Prod.ext h rfl)
  rcases observeStellarPayloadSigned_ok h with hrefused | h | ⟨r, record, h, -⟩
  · exact absurd rfl (hrefused.2 required)
  · cases h
  · cases h
    exact Option.some_ne_none _

/-- A refusal is no grant. -/
theorem stellarResult_ok {messageIdJson : PacketSent.LzMessageId → String} {sentEvent : PacketSent.LzSentEvent}
    {dstChainName : String} {outcome : StellarPayloadOutcome} {required : Option UInt64}
    (h : stellarResult messageIdJson sentEvent dstChainName outcome = .ok required) :
    outcome = outcomes.notSigned required := by
  cases outcome with
  | validity v =>
    rw [payloadSignedValidationResult_ok.mp h]
    rfl
  | refused message => cases h

inductive VerificationState where
  | verifying
  | verifiable
  | verified
  | notInitializable
  deriving DecidableEq

def VerificationState.name : VerificationState → String
  | verifying => "Verifying"
  | verifiable => "Verifiable"
  | verified => "Verified"
  | notInitializable => "NotInitializable"

/-- What the endpoint, the ULN and the views hold of a receiver's pathway and a packet. -/
structure Chain where
  library : StellarAddress
  isDefault : Bool
  valid : Bool
  required : UInt64
  record : Option UInt64
  state : VerificationState
  inboundNonce : UInt64
  storedHash : Option (Bytes 32)

/-- A value on the wire: the XDR of a simulation's first result. -/
structure OnWire (engine : Base64.Engine) (value : ScValue) (answer : Except RpcError Json) : Prop where
  fits : value.Fits
  nesting : value.nesting ≤ 8
  length : value.encode.length ≤ usizeMax
  answer : answer = .ok (.object [("result", .object [("results",
    .array [.object [("xdr", .string (engine.encode value.encode))]])])])

/-- Whenever it is asked, the provider answers a value that reads `a`. -/
def Answers {α : Type} (crates : Crates) (provider : Provider) (question : Simulation) (read : ScValue → Option α)
    (a : α) : Prop :=
  ∀ told, ∃ value, OnWire crates.base64 value (provider told question) ∧ read value = .some a

def u64Of : ScValue → Option UInt64
  | .u64 value => .some value
  | _ => .none

/-- A stored hash; there is none where the endpoint has void. -/
def hashOf : ScValue → Option (Option (List UInt8))
  | .void => .some .none
  | .bytes hash => .some (.some hash)
  | _ => .none

def nameOf : ScValue → Option String
  | .vec (.symbol name :: _) => .some name
  | _ => .none

namespace StellarPayloadQuery

variable (query : StellarPayloadQuery)

def nonce : UInt64 := .ofNat (ofBytes ((query.packetHeader.drop 1).take 8))

def channel : List ScArg := query.pathway ++ [.bytes ((query.packetHeader.drop 13).take 32)]

end StellarPayloadQuery

/-- The provider simulates contracts that hold `chain`. -/
structure Serves (crates : Crates) (query : StellarPayloadQuery) (endpoint uln views : Bytes 32) (chain : Chain)
    (provider : Provider) : Prop where
  library : Answers crates provider ⟨endpoint, "get_receive_library", query.pathway⟩ libraryOf
    (chain.library, chain.isDefault)
  valid : Answers crates provider
    ⟨endpoint, "is_valid_receive_library", query.pathway ++ [.address chain.library]⟩ boolOf chain.valid
  required : Answers crates provider ⟨uln, "effective_receive_uln_config", query.pathway⟩ confirmationsOf chain.required
  record : Answers crates provider ⟨uln, "confirmations", [.address query.verifier,
    .bytes (crates.keccak256 query.packetHeader).val, .bytes query.payloadHash.val]⟩ recordOfValue chain.record
  state : Answers crates provider ⟨views, "uln_verifiable", [.bytes query.packetHeader, .bytes query.payloadHash.val]⟩
    nameOf chain.state.name
  inboundNonce : Answers crates provider ⟨endpoint, "inbound_nonce", query.channel⟩ u64Of chain.inboundNonce
  storedHash : Answers crates provider ⟨endpoint, "inbound_payload_hash", query.channel ++ [.u64 query.nonce]⟩ hashOf
    (chain.storedHash.map (·.val))

/-- The packet is done: its nonce consumed, or its payload's hash stored. -/
def Chain.committed (chain : Chain) (query : StellarPayloadQuery) : Bool :=
  query.nonce ≤ chain.inboundNonce || chain.storedHash = .some query.payloadHash

/-- The outcome of a chain. -/
def Chain.outcome (chain : Chain) (uln : Bytes 32) (query : StellarPayloadQuery) : StellarPayloadOutcome :=
  if chain.isDefault = false ∧ chain.valid = false then
    .refused ("Invalid ULN version for lib: " ++ strkey chain.library)
  else if chain.library ≠ .contract uln then .validity .unsupportedReceiveLibrary
  else
    StellarPayload.outcome (chain.record.any (chain.required ≤ ·) || (chain.state = .verified && chain.committed query))
      chain.required

theorem OnWire.simulated {value : ScValue} {answer : Except RpcError Json} (h : OnWire crates.base64 value answer) :
    ∃ response, answer = .ok response ∧ StellarPayload.simulated crates response = .some (.value value) := by
  refine ⟨_, h.answer, ?_⟩
  have hdecode := decodeScValue_encode crates.base64 h.fits h.nesting h.length
  simp [StellarPayload.simulated, Json.get, Json.asStr, Json.asArray, List.lookup, hdecode]

/-- A simulation that is answered. -/
theorem Answers.simulate {α : Type} {contract : Bytes 32} {function : String} {args : List ScArg}
    {read : ScValue → Option α} {a : α} (h : Answers crates provider ⟨contract, function, args⟩ read a)
    (t : List (Asked Simulation fun _ => Except RpcError Json)) :
    ∃ value s, StellarPayload.simulate crates provider contract function args t = (.ok (.value value), s) ∧
      read value = .some a := by
  obtain ⟨value, hwire, hread⟩ := h t
  obtain ⟨response, hanswer, hsimulated⟩ := hwire.simulated
  refine ⟨value, t ++ [⟨⟨contract, function, args⟩, provider t ⟨contract, function, args⟩⟩], ?_, hread⟩
  simp only [StellarPayload.simulate, Asking.ask, Asking.lift, Bind.bind, hanswer, okOrUnavailable, hsimulated,
    Option.elim]

theorem packetIsCommitted_served {endpoint uln views : Bytes 32} {query : StellarPayloadQuery} {chain : Chain}
    (hheader : query.packetHeader.length = 81) (hserves : Serves crates query endpoint uln views chain provider)
    (t : List (Asked Simulation fun _ => Except RpcError Json)) :
    ∃ s, packetIsCommitted crates provider endpoint query t =
      (.ok (if chain.committed query then .yes else .no), s) := by
  obtain ⟨value, s, hrun, hread⟩ := hserves.inboundNonce.simulate t
  obtain ⟨stored, s', hrun', hread'⟩ := hserves.storedHash.simulate s
  have hvalue : value = .u64 chain.inboundNonce := by
    cases value <;> simp [u64Of] at hread
    rw [hread]
  subst hvalue
  rw [packetIsCommitted, if_neg (not_not.mpr hheader)]
  by_cases hle : query.nonce ≤ chain.inboundNonce
  · have hcommitted : chain.committed query = true := by simp [Chain.committed, hle]
    rw [if_pos hcommitted]
    exact ⟨s, (bind_of_ok hrun).trans (congrFun (if_pos hle) s)⟩
  · have hcommitted : chain.committed query = decide (chain.storedHash = .some query.payloadHash) := by
      simp [Chain.committed, hle]
    rw [hcommitted]
    refine ⟨s', (bind_of_ok hrun).trans ((congrFun (if_neg hle) s).trans ((bind_of_ok hrun').trans ?_))⟩
    cases hstored : chain.storedHash with
    | none =>
      rw [hstored] at hread'
      cases stored <;> simp [hashOf] at hread'
      rfl
    | some hash =>
      rw [hstored] at hread'
      cases stored <;> simp [hashOf] at hread'
      subst hread'
      have hsame : (hash.val = query.payloadHash.val) ↔ hash = query.payloadHash := Subtype.ext_iff.symm
      by_cases heq : hash = query.payloadHash
      · simp [heq]
        rfl
      · have hne : hash.val ≠ query.payloadHash.val := fun h => heq (hsame.mp h)
        simp [heq, hne]
        rfl

theorem verifiedState_name {value : ScValue} {state : VerificationState} (h : nameOf value = .some state.name) :
    verifiedState crates (.value value) = .some (.ok (state = .verified)) := by
  unfold nameOf at h
  split at h
  · obtain rfl := Option.some.inj h
    cases state <;> rfl
  · cases h

/-- Confirmed, or verified and committed. -/
theorem signedOutcome_served {endpoint uln views : Bytes 32} {query : StellarPayloadQuery} {chain : Chain}
    (hheader : query.packetHeader.length = 81) (hserves : Serves crates query endpoint uln views chain provider)
    (confirmed verified : Bool) (t : List (Asked Simulation fun _ => Except RpcError Json)) :
    ∃ s, signedOutcome crates provider endpoint query chain.required confirmed verified t =
      (.ok (outcome (confirmed || (verified && chain.committed query)) chain.required), s) := by
  unfold signedOutcome
  cases confirmed with
  | true => exact ⟨t, rfl⟩
  | false =>
    cases verified with
    | false => exact ⟨t, rfl⟩
    | true =>
      obtain ⟨s, hrun⟩ := packetIsCommitted_served hheader hserves t
      refine ⟨s, (bind_of_ok hrun).trans ?_⟩
      cases chain.committed query <;> rfl

theorem observeUln302_served {endpoint uln views : Bytes 32} {query : StellarPayloadQuery} {chain : Chain}
    (hheader : query.packetHeader.length = 81) (hserves : Serves crates query endpoint uln views chain provider)
    (t : List (Asked Simulation fun _ => Except RpcError Json)) :
    ∃ s, observeUln302 crates provider endpoint uln views query t =
      (.ok (outcome (chain.record.any (chain.required ≤ ·) || (chain.state = .verified && chain.committed query))
        chain.required), s) := by
  obtain ⟨config, s, hconfig, hrequired⟩ := hserves.required.simulate t
  obtain ⟨record, hwire, hrecord⟩ := hserves.record s
  obtain ⟨recordResponse, hrecordAnswer, hrecordRead⟩ := hwire.simulated
  obtain ⟨state, hwire', hstate⟩ := hserves.state (s ++ [⟨⟨uln, "confirmations", [.address query.verifier,
    .bytes (crates.keccak256 query.packetHeader).val, .bytes query.payloadHash.val]⟩, .ok recordResponse⟩])
  obtain ⟨stateResponse, hstateAnswer, hstateRead⟩ := hwire'.simulated
  obtain ⟨s', hsigned⟩ := signedOutcome_served hheader hserves (chain.record.any (chain.required ≤ ·))
    (chain.state = .verified)
    (s ++ [⟨⟨uln, "confirmations", [.address query.verifier,
      .bytes (crates.keccak256 query.packetHeader).val, .bytes query.payloadHash.val]⟩, .ok recordResponse⟩] ++
      [⟨⟨views, "uln_verifiable", [.bytes query.packetHeader, .bytes query.payloadHash.val]⟩, .ok stateResponse⟩])
  refine ⟨s', (bind_of_ok hconfig).trans ((bind_of_ok (okOrUnavailable_some hrequired s)).trans ?_)⟩
  simp only [Asking.ask, Asking.lift, Bind.bind, hrecordAnswer, hstateAnswer, okOrUnavailable, hrecordRead, hstateRead,
    Option.elim, onValue, hrecord, verifiedState_name hstate, hsigned]

theorem observeResolved_served {endpoint uln views : Bytes 32} {query : StellarPayloadQuery} {chain : Chain}
    (hheader : query.packetHeader.length = 81) (hserves : Serves crates query endpoint uln views chain provider)
    (t : List (Asked Simulation fun _ => Except RpcError Json)) :
    (observeResolved crates provider endpoint uln views query chain.library chain.isDefault t).1 =
      .ok (chain.outcome uln query) := by
  have hlibrary : ∀ t, (observeLibrary crates provider endpoint uln views query chain.library t).1 =
      .ok (if chain.library ≠ .contract uln then .validity .unsupportedReceiveLibrary
        else outcome (chain.record.any (chain.required ≤ ·) || (chain.state = .verified && chain.committed query))
          chain.required) := by
    intro t
    unfold observeLibrary
    split
    · rfl
    · obtain ⟨s, hrun⟩ := observeUln302_served hheader hserves t
      rw [hrun]
  unfold observeResolved Chain.outcome
  cases chain.isDefault with
  | true =>
    simp only [ite_true, Bool.true_eq_false, false_and, ite_false]
    exact hlibrary t
  | false =>
    obtain ⟨value, s, hvalid, hread⟩ := hserves.valid.simulate t
    have hrun := (bind_of_ok (f := fun simulated => onValue simulated fun value => do
      let valid ← okOrUnavailable (boolOf value)
      if valid then observeLibrary crates provider endpoint uln views query chain.library
      else return .refused ("Invalid ULN version for lib: " ++ strkey chain.library)) hvalid).trans
        (bind_of_ok (okOrUnavailable_some hread s))
    simp only [Bool.false_eq_true, ite_false, true_and]
    rw [hrun]
    cases chain.valid with
    | true =>
      simp only [ite_true, Bool.true_eq_false, ite_false]
      exact hlibrary s
    | false => rfl

/-- **A provider's vote is the chain's outcome**, whatever else the contracts' values say. -/
theorem observeStellarPayloadSigned_served {endpoint uln views : Bytes 32} {query : StellarPayloadQuery} {chain : Chain}
    (hendpoint : contractId query.contracts.endpointV2 = .some endpoint)
    (huln : contractId query.contracts.uln302 = .some uln) (hviews : contractId query.contracts.views = .some views)
    (hheader : query.packetHeader.length = 81) (hserves : Serves crates query endpoint uln views chain provider) :
    (observeStellarPayloadSigned crates provider query []).1 = .ok (chain.outcome uln query) := by
  obtain ⟨resolved, s, hresolved, hread⟩ := hserves.library.simulate []
  have hrun : observeStellarPayloadSigned crates provider query [] =
      observeResolved crates provider endpoint uln views query chain.library chain.isDefault s :=
    (bind_of_ok (okOrUnavailable_some hendpoint _)).trans ((bind_of_ok (okOrUnavailable_some huln _)).trans
      ((bind_of_ok (okOrUnavailable_some hviews _)).trans ((bind_of_ok hresolved).trans
        (bind_of_ok (okOrUnavailable_some hread _)))))
  exact (congrArg Prod.fst hrun).trans (observeResolved_served hheader hserves s)

/-- A nonce too far ahead: the view says `Verified`, and nothing is stored. -/
def sampleChain : Chain where
  library := .contract zeroId
  isDefault := true
  valid := false
  required := 20
  record := .none
  state := .verified
  inboundNonce := 10
  storedHash := .none

def sampleCrates : Crates where
  hex := .plain
  bs58 _ := .error "not base58"
  keccak256 _ := zeroId
  base64 := .plain
  debugStr := ⟨fun message => "\"" ++ message ++ "\"", fun a b h => by simpa using h⟩
  lowerCase := Express.asciiLower

def sampleQuery : StellarPayloadQuery where
  contracts := ⟨zeroContract, zeroContract, zeroContract⟩
  receiver := .contract zeroId
  srcEid := 30101
  verifier := .account zeroId
  packetHeader := 1 :: List.replicate 80 1
  payloadHash := zeroId

/-- The functions have names of their own. -/
def sampleValue (function : String) : ScValue :=
  if function = "get_receive_library" then
    .map [(.symbol "is_default", .bool true), (.symbol "lib", .address (.contract zeroId))]
  else if function = "effective_receive_uln_config" then .map [(.symbol "confirmations", .u64 20)]
  else if function = "uln_verifiable" then .vec [.symbol "Verified"]
  else if function = "is_valid_receive_library" then .bool false
  else if function = "inbound_nonce" then .u64 10
  else .void

def sampleProvider : Provider := fun _ question =>
  .ok (.object [("result", .object [("results",
    .array [.object [("xdr", .string (Base64.Engine.plain.encode (sampleValue question.function).encode))]])])])

theorem sampleProvider_onWire (told : List (Asked Simulation fun _ => Except RpcError Json)) (question : Simulation) :
    OnWire .plain (sampleValue question.function) (sampleProvider told question) := by
  refine ⟨?_, ?_, ?_, rfl⟩
  · unfold sampleValue
    split_ifs <;> simp only [ScValue.Fits, FitItems, FitEntries] <;> decide
  · unfold sampleValue
    split_ifs <;> simp only [ScValue.nesting, nestingOfItems, nestingOfEntries] <;> decide
  · unfold sampleValue
    split_ifs <;> simp only [ScValue.encode, encodeItems, encodeEntries] <;> decide

theorem observeStellarPayloadSigned_served_ahead :
    (observeStellarPayloadSigned sampleCrates sampleProvider sampleQuery []).1 =
      .ok (sampleChain.outcome zeroId sampleQuery) := by
  have hzero : contractId zeroContract = .some zeroId := by decide +kernel
  have hanswers : ∀ {α : Type} {question : Simulation} {read : ScValue → Option α} {a : α},
      read (sampleValue question.function) = .some a → Answers sampleCrates sampleProvider question read a :=
    fun hread told => ⟨_, sampleProvider_onWire told _, hread⟩
  exact observeStellarPayloadSigned_served hzero hzero hzero rfl
    ⟨hanswers rfl, hanswers rfl, hanswers rfl, hanswers rfl, hanswers rfl, hanswers rfl, hanswers rfl⟩

example : sampleChain.outcome zeroId sampleQuery = .validity (.notSigned (.some 20)) := by decide

end Pillar.StellarPayload
