/-
The vote on a packet's payload (`pillar-runtime`,
`layerzero_runtime/validation_payload.rs` and its siblings): every destination
family asks its providers the same way, each with its own observation.

What is passed was observed by enough of the providers asked. Where a vote
determines its verdict and a recorded verification is recognised, each of them
read a record short of what it read to be required (`validateWithQuorum_onlyShort`).
-/
import Pillar.EvmPayload

namespace Pillar.PayloadSigned

open EvmPayload (orErr)

/-! ## Setting up -/

/-- The providers of a snapshot: the configuration of a chain, whether it is
valid, and those its dispatch plan asks, in the order in which they answer. -/
structure Providers where
  providerConfig : String → Except AppCoreError Quorum.ProviderConfig
  requiredProviderQuorum : String → Except AppCoreError Unit
  planDispatch : String → Except AppCoreError (List Nat)

def Providers.dispatch (providers : Providers) (chainName : String) :
    Except AppCoreError (Quorum.ProviderConfig × List Nat) := do
  let config ← providers.providerConfig chainName
  providers.requiredProviderQuorum chainName
  let order ← providers.planDispatch chainName
  .ok (config, order)

/-- `ok_or_else` with an internal error. -/
def okOrInternal {α : Type} (value : Option α) (error : String) : Exec AppCoreError α :=
  value.elim (Exec.err (.internal error)) .ok

/-- `ok_or(RpcError::Unavailable)`. -/
def okOrUnavailable {Q : Type} {A : Q → Type} {α : Type} (value : Option α) : Asking Q A RpcError α :=
  Asking.lift (value.elim (.error .unavailable) .ok)

def computeLzPacketV1ProofFromEvent (crates : Packet.Crates) (sentEvent : PacketSent.LzSentEvent) :
    Exec AppCoreError Packet.EvmUlnProof := do
  let packet ← orErr (packetFromEvent sentEvent)
  Packet.computeLzPacketV1Proof crates packet

def ulnVersionValue (lzMessageId : PacketSent.LzMessageId) : Option String := lzMessageId.ulnSendVersion.asStr

theorem okOrUnavailable_ok {Q : Type} {A : Q → Type} {α : Type} {value : Option α} {a : α} {t t' : List (Asked Q A)}
    (h : okOrUnavailable value t = (.ok a, t')) : value = .some a ∧ t = t' := by
  obtain ⟨hvalue, ht⟩ := Asking.lift_ok h
  cases value with
  | none => cases hvalue
  | some b => exact ⟨congrArg some (Except.ok.inj hvalue), ht⟩

theorem okOrUnavailable_some {Q : Type} {A : Q → Type} {α : Type} {value : Option α} {a : α} (h : value = .some a)
    (t : List (Asked Q A)) : okOrUnavailable value t = (.ok a, t) := by
  rw [h]
  rfl

/-- `post_json_scoped(..).await?`, and what is read from the response. -/
theorem requested_ok {Q α : Type} {provider : Oracle Q fun _ => Except RpcError Json} {question : Q}
    {read : Json → Option α} {a : α} {t t' : List (Asked Q fun _ => Except RpcError Json)}
    (h : (Asking.ask provider question >>= fun answer =>
      Asking.lift answer >>= fun response => okOrUnavailable (read response)) t = (.ok a, t')) :
    ∃ response, provider t question = .ok response ∧ read response = .some a ∧
      t' = t ++ [⟨question, .ok response⟩] := by
  obtain ⟨answer, s, hask, h⟩ := Asking.bind_ok h
  obtain ⟨hanswer, rfl⟩ := Asking.ask_ok hask
  obtain ⟨response, s, hlift, h⟩ := Asking.bind_ok h
  obtain ⟨rfl, rfl⟩ := Asking.lift_ok hlift
  obtain ⟨hread, rfl⟩ := okOrUnavailable_ok h
  exact ⟨response, hanswer, hread, rfl⟩

/-- A program adds questions of one kind only. -/
def AddsOnly {Q : Type} {A : Q → Type} {ε α : Type} (kind : Q → Prop) (m : Asking Q A ε α) : Prop :=
  ∀ t, ∃ more, (m t).2 = t ++ more ∧ ∀ entry ∈ more, kind entry.question

section

variable {Q : Type} {A : Q → Type} {ε α β : Type} {kind : Q → Prop} {m : Asking Q A ε α} {f : α → Asking Q A ε β}

theorem addsOnly_lift (r : Except ε α) : AddsOnly kind (Asking.lift r : Asking Q A ε α) :=
  fun t => ⟨[], (List.append_nil t).symm, fun entry h => (by cases h)⟩

theorem addsOnly_ask {provider : Oracle Q A} {question : Q} (h : kind question) :
    AddsOnly kind (Asking.ask provider question : Asking Q A ε (A question)) :=
  fun t => ⟨_, rfl, fun entry he => by rwa [List.mem_singleton.mp he]⟩

theorem AddsOnly.told (h : AddsOnly kind m) {t t' : List (Asked Q A)} {r : Except ε α} (hrun : m t = (r, t')) :
    ∃ more, t' = t ++ more ∧ ∀ entry ∈ more, kind entry.question := by
  obtain ⟨more, hmore, hkind⟩ := h t
  exact ⟨more, by rw [← hmore, hrun], hkind⟩

theorem AddsOnly.bind (hm : AddsOnly kind m) (hf : ∀ a, AddsOnly kind (f a)) : AddsOnly kind (m >>= f) := by
  intro t
  obtain ⟨before, ht, hbefore⟩ := hm t
  cases hrun : m t with
  | mk result s =>
    rw [hrun] at ht
    cases result with
    | error e => exact ⟨before, by simp only [Bind.bind, hrun]; exact ht, hbefore⟩
    | ok a =>
      obtain ⟨after, ht', hafter⟩ := hf a s
      dsimp only at ht
      subst ht
      refine ⟨before ++ after, ?_, fun entry he => ?_⟩
      · rw [Asking.bind_of_ok hrun, ht', List.append_assoc]
      · rcases List.mem_append.mp he with he | he
        · exact hbefore entry he
        · exact hafter entry he

end

/-! ## The vote -/

section

variable {Query Q : Type} {A : Q → Type} {V : Type}

/-- `provider_response` of an observation. -/
def vote (observe : Asking Q A RpcError (String × V)) : Quorum.Observation V := providerResponse (observe []).1

theorem vote_eq_some {observe : Asking Q A RpcError (String × V)} {k : String} {v : V} :
    vote observe = .ok (.some (k, v)) ↔ (observe []).1 = .ok (k, v) := by
  unfold vote
  cases hobserve : (observe []).1 with
  | ok observed => simp [providerResponse]
  | error e => cases e <;> simp [providerResponse]

/-- What providers are asked, and who they are: the rule they vote by, and those
asked in the order in which they answer. -/
structure Panel (Query : Type) where
  query : Query
  config : Quorum.ProviderConfig
  order : List Nat

/-- `resolve_provider_quorum` over the providers' observations. -/
def Panel.resolve (panel : Panel Query) (observe : Query → Oracle Q A → Asking Q A RpcError (String × V))
    (provider : Nat → Oracle Q A) (context : String) : Exec AppCoreError V :=
  Quorum.resolveProviderQuorumForIndices (panel.order.map fun i => (i, vote (observe panel.query (provider i))))
    (List.range panel.config.voters.length) panel.config context

/-- `validate_.._payload_not_signed_with_quorum`, of any destination family. -/
def validateWithQuorum (panel : Exec AppCoreError (Panel Query))
    (observe : Query → Oracle Q A → Asking Q A RpcError (String × V)) (provider : Nat → Oracle Q A) (context : String)
    (result : V → Except AppCoreError (Option UInt64)) : Exec AppCoreError (Option UInt64) := do
  let verdict ← (← panel).resolve observe provider context
  orErr (result verdict)

/-! ## What was agreed on -/

/-- Enough of those asked saw it, and someone did. -/
def Panel.Agreed (panel : Panel Query) (saw : Nat → Prop) : Prop :=
  ∃ voters, Quorum.MetBy panel.config voters ∧ voters ≠ [] ∧ ∀ i ∈ voters, i ∈ panel.order ∧ saw i

theorem Panel.Agreed.mono {panel : Panel Query} {saw saw' : Nat → Prop} (h : panel.Agreed saw)
    (hsaw : ∀ i, saw i → saw' i) : panel.Agreed saw' := by
  obtain ⟨voters, hmet, hne, hvoters⟩ := h
  exact ⟨voters, hmet, hne, fun i hi => ⟨(hvoters i hi).1, hsaw i (hvoters i hi).2⟩⟩

/-- Where every quorum has one of `honest` in it, one of them saw what was agreed on. -/
theorem Panel.Agreed.exists_honest {panel : Panel Query} {saw honest : Nat → Prop} (h : panel.Agreed saw)
    (hhonest : ∀ voters, Quorum.MetBy panel.config voters → ∃ i ∈ voters, honest i) : ∃ i, honest i ∧ saw i := by
  obtain ⟨voters, hmet, -, hvoters⟩ := h
  obtain ⟨i, hi, hhi⟩ := hhonest voters hmet
  exact ⟨i, hhi, (hvoters i hi).2⟩

/-- Those asked who vote alike mean the same. -/
def Panel.Decides (panel : Panel Query) (observe : Query → Oracle Q A → Asking Q A RpcError (String × V))
    (provider : Nat → Oracle Q A) : Prop :=
  ∀ i ∈ panel.order, ∀ j ∈ panel.order, ∀ k v w, (observe panel.query (provider i) []).1 = .ok (k, v) →
    (observe panel.query (provider j) []).1 = .ok (k, w) → v = w

theorem Panel.decides {panel : Panel Query} {observe : Query → Oracle Q A → Asking Q A RpcError (String × V)}
    (h : VoteDecides (observe panel.query)) (provider : Nat → Oracle Q A) : panel.Decides observe provider :=
  fun i _ j _ k v w hi hj => h (provider i) (provider j) k v w hi hj

/-- **What the vote returns, enough providers observed**, under the same key. -/
theorem Panel.resolve_agreed {panel : Panel Query} {observe : Query → Oracle Q A → Asking Q A RpcError (String × V)}
    {provider : Nat → Oracle Q A} {context : String} {v : V} (hdecides : panel.Decides observe provider)
    (h : panel.resolve observe provider context = .ok v) :
    panel.Agreed fun i => ∃ k, (observe panel.query (provider i) []).1 = .ok (k, v) := by
  obtain ⟨k, hmet, i, hi, hiv⟩ := Quorum.resolveLoop_voted Quorum.recorded_new h
  rw [List.nil_append] at hmet hi
  refine ⟨_, hmet, List.ne_nil_of_mem (Quorum.mem_votersFor.mpr ⟨hi, _, Quorum.voteOf_eq_some.mpr hiv⟩), ?_⟩
  intro j hj
  obtain ⟨hj, w, hjw⟩ := Quorum.mem_votersFor.mp hj
  have hobserved := vote_eq_some.mp (Quorum.voteOf_eq_some.mp hjw)
  obtain rfl := hdecides j hj i hi k w v hobserved (vote_eq_some.mp hiv)
  exact ⟨hj, k, hobserved⟩

/-! ## Records that are short -/

section

variable {ε : Type}

/-- A provider's answers show that `r` confirmations are required, and no record
of the packet that has them. -/
def ReadShort (requirement : List (Asked Q A) → Option UInt64) (record : List (Asked Q A) → Option (Option UInt64))
    (r : UInt64) (observe : Asking Q A ε (String × V)) : Prop :=
  requirement (observe []).2 = .some r ∧
    ∃ recorded, record (observe []).2 = .some recorded ∧ ∀ b, recorded = .some b → b < max r 1

theorem Recognises.readShort {verdicts : Verdicts V} {requirement : List (Asked Q A) → Option UInt64}
    {record : List (Asked Q A) → Option (Option UInt64)} {observe : Asking Q A ε (String × V)} {k : String} {r : UInt64}
    (h : Recognises verdicts requirement record observe)
    (hobserve : (observe []).1 = .ok (k, verdicts.notSigned (.some r))) :
    ReadShort requirement record r observe :=
  (h k _ _ (Prod.ext hobserve rfl)).2 r rfl

end

/-- **What a check lets through is short.** Where it returns, enough of the
providers asked each read the confirmations it returns as required, and a record
short of them or none. -/
def OnlyShort (panel : Exec AppCoreError (Panel Query))
    (observe : Query → Oracle Q A → Asking Q A RpcError (String × V))
    (provider : Nat → Oracle Q A) (requirement : Query → List (Asked Q A) → Option UInt64)
    (record : Query → List (Asked Q A) → Option (Option UInt64)) (check : Exec AppCoreError (Option UInt64)) : Prop :=
  ∀ required, check = .ok required → ∃ p r, panel = .ok p ∧ required = .some r ∧
    p.Agreed fun i => ReadShort (requirement p.query) (record p.query) r (observe p.query (provider i))

/-- It is enough that those asked who vote alike mean the same, that an observation
recognises what is recorded, and that "not signed" comes with a requirement. -/
theorem onlyShort_of_decides {verdicts : Verdicts V} {panel : Exec AppCoreError (Panel Query)}
    {observe : Query → Oracle Q A → Asking Q A RpcError (String × V)} {provider : Nat → Oracle Q A} {context : String}
    {result : V → Except AppCoreError (Option UInt64)} {requirement : Query → List (Asked Q A) → Option UInt64}
    {record : Query → List (Asked Q A) → Option (Option UInt64)}
    (hdecides : ∀ p, panel = .ok p → p.Decides observe provider)
    (hrecognises : ∀ query provider, Recognises verdicts (requirement query) (record query) (observe query provider))
    (hresult : ∀ v required, result v = .ok required → v = verdicts.notSigned required)
    (hrequired : ∀ query provider k required,
      (observe query provider []).1 = .ok (k, verdicts.notSigned required) → required ≠ .none) :
    OnlyShort panel observe provider requirement record (validateWithQuorum panel observe provider context result) := by
  intro required h
  obtain ⟨p, hpanel, h⟩ := Exec.bind_ok_iff.mp h
  obtain ⟨v, hresolve, h⟩ := Exec.bind_ok_iff.mp h
  have hv : v = verdicts.notSigned required := by
    cases hr : result v with
    | error e =>
      rw [hr] at h
      cases h
    | ok granted =>
      rw [hr] at h
      cases h
      exact hresult v required hr
  subst hv
  have hagreed := p.resolve_agreed (hdecides p hpanel) hresolve
  obtain ⟨voters, -, hne, hvoters⟩ := id hagreed
  obtain ⟨i, hi⟩ := List.exists_mem_of_ne_nil voters hne
  obtain ⟨k, hobserved⟩ := (hvoters i hi).2
  obtain ⟨r, rfl⟩ := Option.ne_none_iff_exists'.mp (hrequired p.query (provider i) k required hobserved)
  exact ⟨p, r, hpanel, rfl, hagreed.mono fun j ⟨k', hj⟩ => (hrecognises p.query (provider j)).readShort hj⟩

/-- A vote that determines its verdict does so whoever casts it. -/
theorem validateWithQuorum_onlyShort {verdicts : Verdicts V} {panel : Exec AppCoreError (Panel Query)}
    {observe : Query → Oracle Q A → Asking Q A RpcError (String × V)} {provider : Nat → Oracle Q A} {context : String}
    {result : V → Except AppCoreError (Option UInt64)} {requirement : Query → List (Asked Q A) → Option UInt64}
    {record : Query → List (Asked Q A) → Option (Option UInt64)} (hvotes : ∀ query, VoteDecides (observe query))
    (hrecognises : ∀ query provider, Recognises verdicts (requirement query) (record query) (observe query provider))
    (hresult : ∀ v required, result v = .ok required → v = verdicts.notSigned required)
    (hrequired : ∀ query provider k required,
      (observe query provider []).1 = .ok (k, verdicts.notSigned required) → required ≠ .none) :
    OnlyShort panel observe provider requirement record (validateWithQuorum panel observe provider context result) :=
  onlyShort_of_decides (fun p _ => p.decides (hvotes p.query) provider) hrecognises hresult hrequired

end

/-- A vote that is the `Debug` text of its verdict determines it. -/
theorem voteDecides_of_debug {Q : Type} {A : Q → Type} {ε V : Type} {observe : Oracle Q A → Asking Q A ε (String × V)}
    {debug : V → String} (hdebug : Function.Injective debug)
    (h : ∀ provider t k v t', observe provider t = (.ok (k, v), t') → k = debug v) : VoteDecides observe :=
  voteDecides_of_seen (fun _ : V => True) debug id
    (fun provider t k v t' hrun => ⟨v, trivial, h provider t k v t' hrun, rfl⟩) fun _ _ _ _ heq => hdebug heq

/-! ## Requirements and records -/

theorem lt_max_one {count required : UInt64} (h : ¬ (1 ≤ count ∧ required ≤ count)) : count < max required 1 := by
  show count < if required ≤ 1 then 1 else required
  simp only [UInt64.le_iff_toNat_le, UInt64.toNat_one] at h ⊢
  split
  · next hle =>
    rw [UInt64.lt_iff_toNat_lt, UInt64.toNat_one]
    omega
  · next hle =>
    rw [UInt64.lt_iff_toNat_lt]
    omega

/-- What is recognised, for a requirement and a record that were read. -/
theorem recognises_of {V : Type} {verdicts : Verdicts V} {requirement : Option UInt64}
    {record : Option (Option UInt64)} {required : UInt64} {confirmations : Option UInt64} {v : V}
    (hrequirement : requirement = .some required) (hrecord : record = .some confirmations)
    (hmet : ∀ b, confirmations = .some b → required ≤ b → 1 ≤ b → v = verdicts.signed ∨ verdicts.Refused v)
    (hshort : ∀ r, v = verdicts.notSigned (.some r) → r = required ∧ ∀ b, confirmations = .some b → b < max r 1) :
    (∀ r b, requirement = .some r → record = .some (.some b) → r ≤ b → 1 ≤ b →
      v = verdicts.signed ∨ verdicts.Refused v) ∧
    ∀ r, v = verdicts.notSigned (.some r) → requirement = .some r ∧
      ∃ recorded, record = .some recorded ∧ ∀ b, recorded = .some b → b < max r 1 := by
  subst hrequirement hrecord
  constructor
  · intro r b hr hb hle hone
    cases hr
    exact hmet b (Option.some.inj hb) hle hone
  · intro r hnot
    obtain ⟨rfl, hless⟩ := hshort r hnot
    exact ⟨rfl, confirmations, rfl, hless⟩

end Pillar.PayloadSigned
