/-
Which check a packet gets (`pillar-runtime`, `layerzero_runtime/validation_payload.rs`):
`validate_payload_not_signed_with_quorum` and the destination families behind it.

Whatever the destination, what is let through without an error has no packet or
no verifier to look up, or is short of confirmations as its chain's own providers
or sequencer tell it (`validatePayloadNotSignedWithQuorum_letThrough`).
-/
import Pillar.CantonUlnFacts
import Pillar.EvmPayloadFacts
import Pillar.MovePayloadFacts
import Pillar.SolanaPayloadFacts
import Pillar.StarknetPayloadFacts
import Pillar.StellarPayloadFacts
import Pillar.SuiPayloadFacts
import Pillar.TonDvnVerifyFacts
import Pillar.TonPayloadFacts

namespace Pillar.PayloadDispatch

open PacketSent (LzSentEvent)
open PayloadSigned
open EvmPayload (isChainNativePayloadSignedDestination orErr orErr_eq_ok)

universe u

/-- What one family of destinations is checked with: the crates, the contracts
that are configured and the providers. -/
structure Family (Crates : Type u) (Contracts Provider : Type) where
  crates : Crates
  contracts : Contracts
  provider : Nat → Provider

/-- `cantonSequencer` is the configuration of a chain made into a sequencer whose
answers are checked, and `cantonStateFirst` which of its two reads fails first. -/
structure RuntimeRpcValidationChecks where
  providers : Providers
  messageIdJson : PacketSent.LzMessageId → String
  evm : Family Packet.Crates (String → Option EvmPayload.EvmReceiveContracts) EvmPayload.Provider
  solana : Family SolanaPayload.Crates Unit SolanaPayload.Provider
  move : Family Packet.Crates MovePayload.MoveContracts MovePayload.Provider
  starknet : Family StarknetPayload.Crates (Option String) StarknetPayload.Provider
  ton : Family TonPayload.Crates (Option TonPayload.RuntimeTonLayerZeroConfig) TonPayload.Provider
  sui : Family SuiPayload.Crates (String → Option SuiPayload.SuiPayloadContracts) SuiPayload.Provider
  stellar : Family StellarPayload.Crates (Option StellarPayload.StellarPayloadContracts) StellarPayload.Provider
  cantonSequencer : String → Except AppCoreError Canton.UlnEnv
  cantonStateFirst : Bool

namespace RuntimeRpcValidationChecks

variable (checks : RuntimeRpcValidationChecks)

/-- The verdict on what Canton's sequencer read. -/
def cantonVerdict : Bool × Nat → PayloadSignedValidity
  | (true, _) => .signed
  | (false, required) => .notSigned (.some (UInt64.ofNat required))

def validateCantonPayloadNotSigned (sentEvent : LzSentEvent) (verifierAddress dstChainName : String) :
    Exec AppCoreError (Option UInt64) := do
  let sequencer ← orErr (checks.cantonSequencer dstChainName)
  let read ← sequencer.cantonPayloadSigned checks.cantonStateFirst sentEvent verifierAddress
  orErr (payloadSignedValidationResult checks.messageIdJson (cantonVerdict read) sentEvent dstChainName)

/-- The last branch is `unreachable!`. -/
def validateChainNativePayloadNotSignedWithQuorum (sentEvent : LzSentEvent) (verifierAddress dstChainName : String)
    (effectiveReceiveVersion : Option String) : Exec AppCoreError (Option UInt64) :=
  if dstChainName = "solana" then
    SolanaPayload.validateSolanaPayloadNotSignedWithQuorum checks.solana.crates checks.providers checks.solana.provider
      checks.messageIdJson sentEvent verifierAddress dstChainName
  else if ["aptos", "initia", "movement"].contains dstChainName then
    MovePayload.validateMovePayloadNotSignedWithQuorum checks.move.crates checks.move.contracts checks.providers
      checks.move.provider checks.messageIdJson sentEvent verifierAddress dstChainName effectiveReceiveVersion
  else if dstChainName = "starknet" then
    StarknetPayload.validateStarknetPayloadNotSignedWithQuorum checks.starknet.crates checks.providers
      checks.starknet.contracts checks.starknet.provider checks.messageIdJson sentEvent verifierAddress dstChainName
  else if dstChainName = "ton" then
    TonPayload.validateTonPayloadNotSignedWithQuorum checks.ton.crates checks.providers checks.ton.contracts
      checks.ton.provider checks.messageIdJson sentEvent verifierAddress dstChainName
  else if ["sui", "iotal1"].contains dstChainName then
    SuiPayload.validateSuiPayloadNotSignedWithQuorum checks.sui.crates checks.providers checks.sui.contracts
      checks.sui.provider checks.messageIdJson sentEvent verifierAddress dstChainName
  else if dstChainName = "stellar" then
    StellarPayload.validateStellarPayloadNotSignedWithQuorum checks.stellar.crates checks.providers
      checks.stellar.contracts checks.stellar.provider checks.messageIdJson sentEvent verifierAddress dstChainName
  else if dstChainName = "canton" then checks.validateCantonPayloadNotSigned sentEvent verifierAddress dstChainName
  else .error .panic

def evmChecks : EvmPayload.Checks where
  crates := checks.evm.crates
  evmReceiveContractsByChainName := checks.evm.contracts
  dispatch := checks.providers.dispatch
  provider := checks.evm.provider
  messageIdJson := checks.messageIdJson
  chainNative := checks.validateChainNativePayloadNotSignedWithQuorum

def validatePayloadNotSignedWithQuorum (sentEvent : LzSentEvent) (verifierAddress : Option String)
    (dstChainName : String) (effectiveReceiveVersion : Option String) : Exec AppCoreError (Option UInt64) :=
  checks.evmChecks.validatePayloadNotSignedWithQuorum sentEvent verifierAddress dstChainName effectiveReceiveVersion

end RuntimeRpcValidationChecks

/-! ## What is let through -/

section

variable {Query Q V : Type} {A : Q → Type}

/-- Enough of a panel read that `r` confirmations are required, and a record short of them or none. -/
def ShortOf (panel : Exec AppCoreError (Panel Query))
    (observe : Query → Oracle Q A → Asking Q A RpcError (String × V)) (provider : Nat → Oracle Q A)
    (requirement : Query → List (Asked Q A) → Option UInt64)
    (record : Query → List (Asked Q A) → Option (Option UInt64)) (r : UInt64) : Prop :=
  ∃ p, panel = .ok p ∧
    p.Agreed fun i => ReadShort (requirement p.query) (record p.query) r (observe p.query (provider i))

variable {verdicts : Verdicts V} {panel : Exec AppCoreError (Panel Query)}
  {observe : Query → Oracle Q A → Asking Q A RpcError (String × V)} {provider : Nat → Oracle Q A} {context : String}
  {result : V → Except AppCoreError (Option UInt64)} {requirement : Query → List (Asked Q A) → Option UInt64}
  {record : Query → List (Asked Q A) → Option (Option UInt64)} {required : Option UInt64}

theorem shortOf_of_onlyShort {check : Exec AppCoreError (Option UInt64)}
    (honly : OnlyShort panel observe provider requirement record check) (h : check = .ok required) :
    ∃ r, required = .some r ∧ ShortOf panel observe provider requirement record r := by
  obtain ⟨p, r, hpanel, hr, hagreed⟩ := honly required h
  exact ⟨r, hr, p, hpanel, hagreed⟩

theorem shortOf_of_validateWithQuorum (hvotes : ∀ query, VoteDecides (observe query))
    (hrecognises : ∀ query provider, Recognises verdicts (requirement query) (record query) (observe query provider))
    (hresult : ∀ v required, result v = .ok required → v = verdicts.notSigned required)
    (hrequired : ∀ query provider k required,
      (observe query provider []).1 = .ok (k, verdicts.notSigned required) → required ≠ .none)
    (h : validateWithQuorum panel observe provider context result = .ok required) :
    ∃ r, required = .some r ∧ ShortOf panel observe provider requirement record r :=
  shortOf_of_onlyShort (validateWithQuorum_onlyShort hvotes hrecognises hresult hrequired) h

end

namespace RuntimeRpcValidationChecks

variable (checks : RuntimeRpcValidationChecks) (sentEvent : LzSentEvent)

/-- Why a chain-native destination is let through with the confirmations that are
returned: a vote of its family that read a record short, TON's unless two
storages have one hash, or a sequencer's config, record and state. -/
inductive NativeShort (verifierAddress dstChainName : String) : Option UInt64 → Prop
  | solana {r : UInt64} : dstChainName = "solana" →
      ShortOf (SolanaPayload.solanaPanel checks.solana.crates checks.providers sentEvent verifierAddress dstChainName)
        (fun query provider => SolanaPayload.observeSolanaPayloadSigned checks.solana.crates provider query)
        checks.solana.provider (fun _ => SolanaPayload.requirementOf checks.solana.crates)
        (fun _ => SolanaPayload.recordOf checks.solana.crates) r →
      NativeShort verifierAddress dstChainName (.some r)
  | move {r : UInt64} : dstChainName ∈ ["aptos", "initia", "movement"] →
      ShortOf (MovePayload.moveUln302Panel checks.move.crates checks.move.contracts checks.providers sentEvent
          verifierAddress dstChainName)
        (fun query provider => MovePayload.observeMovePayloadSigned checks.move.crates provider query)
        checks.move.provider (fun query => query.requirement checks.move.crates)
        (fun query => query.record checks.move.crates) r →
      NativeShort verifierAddress dstChainName (.some r)
  | aptosV301 {r dstEid : UInt64} : dstChainName = "aptos" → pathwayExtraU64 sentEvent "dstEid" = .ok dstEid →
      dstEid < 30000 →
      ShortOf (MovePayload.aptosV301Panel checks.move.crates checks.move.contracts checks.providers sentEvent
          verifierAddress)
        (fun query provider => MovePayload.observeAptosV301PayloadSigned checks.move.crates provider query)
        checks.move.provider (fun query => query.requirement checks.move.crates)
        (fun query => query.record checks.move.crates) r →
      NativeShort verifierAddress dstChainName (.some r)
  | starknet {r : UInt64} : dstChainName = "starknet" →
      ShortOf (StarknetPayload.starknetPanel checks.starknet.crates checks.providers checks.starknet.contracts sentEvent
          verifierAddress dstChainName)
        (StarknetPayload.voteOn checks.starknet.crates) checks.starknet.provider (fun _ => StarknetPayload.requirementOf)
        (fun _ => StarknetPayload.recordOf) r →
      NativeShort verifierAddress dstChainName (.some r)
  | ton {r : UInt64} : dstChainName = "ton" →
      ShortOf (TonPayload.tonPanel checks.ton.crates checks.providers checks.ton.contracts sentEvent verifierAddress
          dstChainName)
        (TonPayload.observeTonPayloadSigned checks.ton.crates) checks.ton.provider
        (fun _ => TonPayload.requirementOf checks.ton.crates) (TonPayload.recordOf checks.ton.crates) r →
      NativeShort verifierAddress dstChainName (.some r)
  | tonCollision {required : Option UInt64} {panel : Panel TonPayload.TonPayloadQuery} : dstChainName = "ton" →
      TonPayload.tonPanel checks.ton.crates checks.providers checks.ton.contracts sentEvent verifierAddress
        dstChainName = .ok panel →
      TonPayload.Collide checks.ton.crates panel checks.ton.provider → NativeShort verifierAddress dstChainName required
  | sui {r : UInt64} : dstChainName ∈ ["sui", "iotal1"] →
      ShortOf (SuiPayload.suiPanel checks.sui.crates checks.providers checks.sui.contracts sentEvent verifierAddress
          dstChainName)
        (SuiPayload.voteOn checks.sui.crates) checks.sui.provider (SuiPayload.requirementOf checks.sui.crates)
        (SuiPayload.recordOf checks.sui.crates) r →
      NativeShort verifierAddress dstChainName (.some r)
  | stellar {r : UInt64} : dstChainName = "stellar" →
      ShortOf (StellarPayload.stellarPanel checks.stellar.crates checks.providers checks.stellar.contracts sentEvent
          verifierAddress dstChainName)
        (StellarPayload.voteOn checks.stellar.crates) checks.stellar.provider
        (fun _ => StellarPayload.requirementOf checks.stellar.crates)
        (fun _ => StellarPayload.recordOf checks.stellar.crates) r →
      NativeShort verifierAddress dstChainName (.some r)
  | canton {env : Canton.UlnEnv} {config lookup state : Json} : dstChainName = "canton" →
      checks.cantonSequencer dstChainName = .ok env → env.Answers sentEvent verifierAddress config lookup state →
      Canton.DvnLists config → Canton.Unverified env.jsNumber state →
      Canton.Unconfirmed env.jsNumber env.jsNumberF64 config lookup →
      NativeShort verifierAddress dstChainName
        (.some (UInt64.ofNat (Canton.castU64 (Canton.confirmationsNumber env.jsNumber config))))

/-- Why an event is let through: there is no packet, or no DVN whose record could
be looked up, or a library or a record that is short. -/
inductive LetThrough (verifierAddress : Option String) (dstChainName : String) : Option UInt64 → Prop
  | noGuid : sentEvent.extra.get "guid" = .none → LetThrough verifierAddress dstChainName .none
  | noVerifier : isChainNativePayloadSignedDestination dstChainName = true → verifierAddress = .none →
      LetThrough verifierAddress dstChainName .none
  | native {verifier : String} {required : Option UInt64} : verifierAddress = .some verifier →
      checks.NativeShort sentEvent verifier dstChainName required → LetThrough verifierAddress dstChainName required
  | evm {library version : String} {read : EvmPayload.Read} {required : Option UInt64} :
      checks.evmChecks.AgreedOn sentEvent verifierAddress dstChainName library version read →
      read.validity version = .notSigned required → LetThrough verifierAddress dstChainName required

/-- Which of the two checks a Move destination gets. -/
theorem validateMovePayload_cases {verifierAddress dstChainName : String} {effectiveReceiveVersion : Option String}
    {required : Option UInt64}
    (h : MovePayload.validateMovePayloadNotSignedWithQuorum checks.move.crates checks.move.contracts checks.providers
      checks.move.provider checks.messageIdJson sentEvent verifierAddress dstChainName effectiveReceiveVersion =
        .ok required) :
    MovePayload.validateMoveUln302PayloadNotSignedWithQuorum checks.move.crates checks.move.contracts checks.providers
        checks.move.provider checks.messageIdJson sentEvent verifierAddress dstChainName = .ok required ∨
      (∃ dstEid, dstChainName = "aptos" ∧ pathwayExtraU64 sentEvent "dstEid" = .ok dstEid ∧ dstEid < 30000 ∧
        MovePayload.validateAptosV301PayloadNotSignedWithQuorum checks.move.crates checks.move.contracts
          checks.providers checks.move.provider checks.messageIdJson sentEvent verifierAddress = .ok required) := by
  obtain ⟨version, -, h⟩ := Exec.bind_ok_iff.mp h
  split at h
  next haptos =>
    obtain ⟨dstEid, heid, h⟩ := Exec.bind_ok_iff.mp h
    split at h
    next hlt => exact .inr ⟨dstEid, haptos.2, orErr_eq_ok.mp heid, hlt, h⟩
    next => exact .inl h
  next =>
    split at h
    next => cases h
    next => exact .inl h

theorem cantonVerdict_notSigned {read : Bool × Nat} {required : Option UInt64}
    (h : cantonVerdict read = .notSigned required) : ∃ r, read = (false, r) ∧ required = .some (UInt64.ofNat r) := by
  obtain ⟨signed, r⟩ := read
  cases signed <;> cases h
  exact ⟨r, rfl, rfl⟩

variable {checks sentEvent}

theorem validateCantonPayloadNotSigned_short {verifierAddress dstChainName : String} {required : Option UInt64}
    (hcanton : dstChainName = "canton")
    (h : checks.validateCantonPayloadNotSigned sentEvent verifierAddress dstChainName = .ok required) :
    checks.NativeShort sentEvent verifierAddress dstChainName required := by
  obtain ⟨env, henv, h⟩ := Exec.bind_ok_iff.mp h
  obtain ⟨read, hread, h⟩ := Exec.bind_ok_iff.mp h
  obtain ⟨r, rfl, rfl⟩ := cantonVerdict_notSigned (payloadSignedValidationResult_ok.mp (orErr_eq_ok.mp h))
  obtain ⟨config, lookup, state, hanswers, hlists, hunverified, hunconfirmed, rfl⟩ :=
    Canton.UlnEnv.cantonPayloadSigned_eq_false.mp hread
  exact .canton hcanton (orErr_eq_ok.mp henv) hanswers hlists hunverified hunconfirmed

/-- **A family's check lets through what is short**, family by family. -/
theorem validateChainNative_short {verifierAddress dstChainName : String} {effectiveReceiveVersion : Option String}
    {required : Option UInt64}
    (h : checks.validateChainNativePayloadNotSignedWithQuorum sentEvent verifierAddress dstChainName
      effectiveReceiveVersion = .ok required) :
    checks.NativeShort sentEvent verifierAddress dstChainName required := by
  unfold validateChainNativePayloadNotSignedWithQuorum at h
  split at h
  next hsolana =>
    obtain ⟨r, rfl, hshort⟩ := shortOf_of_validateWithQuorum
      (SolanaPayload.observeSolanaPayloadSigned_voteDecides checks.solana.crates)
      (fun query provider => SolanaPayload.observeSolanaPayloadSigned_recognises checks.solana.crates provider query)
      (fun _ _ => payloadSignedValidationResult_ok.mp)
      (fun _ _ _ _ => SolanaPayload.observeSolanaPayloadSigned_required) h
    exact .solana hsolana hshort
  next =>
  split at h
  next hmove =>
    rcases checks.validateMovePayload_cases sentEvent h with h | ⟨dstEid, haptos, heid, hlt, h⟩
    · obtain ⟨r, rfl, hshort⟩ := shortOf_of_validateWithQuorum
        (MovePayload.observeMovePayloadSigned_voteDecides checks.move.crates)
        (fun query provider => MovePayload.observeMovePayloadSigned_recognises checks.move.crates provider query)
        (fun _ _ => payloadSignedValidationResult_ok.mp)
        (fun _ _ _ _ => MovePayload.observeMovePayloadSigned_required) h
      exact .move (List.contains_iff_mem.mp hmove) hshort
    · obtain ⟨r, rfl, hshort⟩ := shortOf_of_validateWithQuorum
        (MovePayload.observeAptosV301PayloadSigned_voteDecides checks.move.crates)
        (fun query provider => MovePayload.observeAptosV301PayloadSigned_recognises checks.move.crates provider query)
        (fun _ _ => payloadSignedValidationResult_ok.mp)
        (fun _ _ _ _ => MovePayload.observeAptosV301PayloadSigned_required) h
      exact .aptosV301 haptos heid hlt hshort
  next =>
  split at h
  next hstarknet =>
    obtain ⟨r, rfl, hshort⟩ := shortOf_of_validateWithQuorum
      (StarknetPayload.voteOn_voteDecides checks.starknet.crates)
      (fun query provider => StarknetPayload.voteOn_recognises checks.starknet.crates provider query)
      (fun _ _ => payloadSignedValidationResult_ok.mp) (fun _ _ _ _ => StarknetPayload.voteOn_required) h
    exact .starknet hstarknet hshort
  next =>
  split at h
  next hton =>
    by_cases hcollide : ∃ panel, TonPayload.tonPanel checks.ton.crates checks.providers checks.ton.contracts sentEvent
        verifierAddress dstChainName = .ok panel ∧ TonPayload.Collide checks.ton.crates panel checks.ton.provider
    · obtain ⟨panel, hpanel, hcollide⟩ := hcollide
      exact .tonCollision hton hpanel hcollide
    · obtain ⟨r, rfl, hshort⟩ := shortOf_of_onlyShort (onlyShort_of_decides
        (fun panel hpanel => (TonPayload.decides_or_collide panel checks.ton.provider).resolve_right
          fun h => hcollide ⟨panel, hpanel, h⟩)
        TonPayload.recognises_observeTonPayloadSigned (fun _ _ => payloadSignedValidationResult_ok.mp)
        fun _ _ _ _ => TonPayload.observeTonPayloadSigned_required) h
      exact .ton hton hshort
  next =>
  split at h
  next hsui =>
    obtain ⟨r, rfl, hshort⟩ := shortOf_of_validateWithQuorum (SuiPayload.voteOn_voteDecides checks.sui.crates)
      (fun query provider => SuiPayload.voteOn_recognises checks.sui.crates provider query)
      (fun _ _ => payloadSignedValidationResult_ok.mp) (fun _ _ _ _ => SuiPayload.voteOn_required) h
    exact .sui (List.contains_iff_mem.mp hsui) hshort
  next =>
  split at h
  next hstellar =>
    obtain ⟨r, rfl, hshort⟩ := shortOf_of_validateWithQuorum
      (StellarPayload.voteOn_voteDecides checks.stellar.crates)
      (fun query provider => StellarPayload.voteOn_recognises checks.stellar.crates provider query)
      (fun _ _ => StellarPayload.stellarResult_ok) (fun _ _ _ _ => StellarPayload.voteOn_required) h
    exact .stellar hstellar hshort
  next =>
  split at h
  next hcanton => exact validateCantonPayloadNotSigned_short hcanton h
  next => cases h

/-- **Nothing is let through that its chain has confirmed.** Whatever the
destination, an event that passes has no packet or names no DVN, or enough of
the chain's providers, or Canton's sequencer, told that its record is short of
the confirmations that are returned. -/
theorem validatePayloadNotSignedWithQuorum_letThrough {verifierAddress : Option String} {dstChainName : String}
    {effectiveReceiveVersion : Option String} {required : Option UInt64}
    (h : checks.validatePayloadNotSignedWithQuorum sentEvent verifierAddress dstChainName effectiveReceiveVersion =
      .ok required) : checks.LetThrough sentEvent verifierAddress dstChainName required := by
  by_cases hguid : sentEvent.extra.get "guid" = .none
  · unfold validatePayloadNotSignedWithQuorum EvmPayload.Checks.validatePayloadNotSignedWithQuorum at h
    rw [if_pos (by rw [hguid]; rfl)] at h
    cases h
    exact .noGuid hguid
  · have hsome : (sentEvent.extra.get "guid").isSome = true := Option.isSome_iff_ne_none.mpr hguid
    cases hnative : isChainNativePayloadSignedDestination dstChainName with
    | false =>
      obtain ⟨library, version, read, hagreed, hshort⟩ := EvmPayload.validatePayloadNotSigned_agreed hsome hnative h
      exact .evm hagreed hshort
    | true =>
      unfold validatePayloadNotSignedWithQuorum EvmPayload.Checks.validatePayloadNotSignedWithQuorum at h
      rw [if_neg (by simpa using hguid), if_pos hnative] at h
      cases verifierAddress with
      | none =>
        cases h
        exact .noVerifier hnative rfl
      | some verifier => exact .native rfl (validateChainNative_short h)

/-- One provider of every family; Ethereum's receiver is on ReceiveUln302. -/
def sampleChecks : RuntimeRpcValidationChecks where
  providers := ⟨fun _ => .ok EvmPayload.oneProvider, fun _ => .ok (), fun _ => .ok [0]⟩
  messageIdJson _ := ""
  evm := ⟨EvmPayload.sampleCrates, fun chain => if chain = "ethereum" then .some EvmPayload.ethereumContracts else .none,
    fun _ => EvmPayload.sampleProvider EvmPayload.receiveUln302⟩
  solana := ⟨SolanaPayload.sampleCrates, (), fun _ _ _ => .error .unavailable⟩
  move := ⟨EvmPayload.sampleCrates, ⟨fun _ => .none, fun _ => .none, fun _ => .none, .none⟩,
    fun _ _ question => match question with
      | .view .. | .aptosV1PayloadHash .. => .error .unavailable⟩
  starknet := ⟨StarknetPayload.sampleCrates, .none, fun _ => StarknetPayload.sampleProvider⟩
  ton := ⟨⟨Ton.sampleCrates, fun _ => .ok 0, fun _ => 0, fun _ => Vector.replicate 32 0, fun _ => 0⟩, .none,
    fun _ _ _ => .error .unavailable⟩
  sui := ⟨⟨EvmPayload.sampleCrates, .plain⟩, fun _ => .none, fun _ _ _ => .error .unavailable⟩
  stellar := ⟨StellarPayload.sampleCrates, .none, fun _ => StellarPayload.sampleProvider⟩
  cantonSequencer _ := .ok Canton.UlnEnv.bareEnv
  cantonStateFirst := false

theorem sampleChecks_passes :
    sampleChecks.validatePayloadNotSignedWithQuorum EvmPayload.sampleEvent .none "ethereum" .none = .ok (.some 15) := by
  have hread : ∃ t, EvmPayload.ReadOf .plain (EvmPayload.sampleProvider EvmPayload.receiveUln302) EvmPayload.sampleQuery
      [] t (Packet.hexText .plain EvmPayload.receiveUln302.val) "V302" ⟨false, 15, .verifying⟩ :=
    EvmPayload.sampleProvider_readOf (by decide +kernel) (by decide +kernel) (by decide +kernel)
  have hevm : ¬ isChainNativePayloadSignedDestination "ethereum" = true := by decide
  refine Eq.trans ?_ (EvmPayload.sampleChecks_validate hread rfl)
  unfold validatePayloadNotSignedWithQuorum EvmPayload.Checks.validatePayloadNotSignedWithQuorum
  rw [if_neg hevm, if_neg hevm]
  rfl

theorem validatePayloadNotSignedWithQuorum_letThrough_ethereum :
    sampleChecks.LetThrough EvmPayload.sampleEvent .none "ethereum" (.some 15) :=
  validatePayloadNotSignedWithQuorum_letThrough sampleChecks_passes

end RuntimeRpcValidationChecks

end Pillar.PayloadDispatch
