/-
A readiness vote counts confirmations exactly, over the integers: none of the
observers wraps or saturates where it decides. The one difference between the
source families is TON's, which takes a head behind the transaction for one
without confirmations, so that a request for none is met by it.
-/
import Pillar.Readiness

namespace Pillar.Readiness

open Expiration (checkedAddI64 checkedSubI64 inI64 inI64_iff inI64_toInt i64 i64_of_inI64)
open PacketSent (EvmSourceEvidence)

/-! ## Sufficient votes -/

def BlockConfirmationObservation.isSufficient (observation : BlockConfirmationObservation) : Bool :=
  match observation.validity with
  | .sufficient _ _ => true
  | _ => false

/-- The provider votes that the transaction has the confirmations. -/
def VotesSufficient (observed : Observed) : Prop :=
  ∃ observation, observed = .ok observation ∧ observation.isSufficient

variable {required height current : Int64} {hash : String}

@[simp] theorem isSufficient_decided (met : Bool) (confirmations : Int64) :
    (decided met hash height confirmations).isSufficient = met := by
  cases met <;> rfl

theorem votesSufficient_ok {observation : BlockConfirmationObservation} :
    VotesSufficient (.ok observation) ↔ observation.isSufficient := by
  refine ⟨fun ⟨_, h, hs⟩ => ?_, fun h => ⟨_, rfl, h⟩⟩
  obtain rfl := Except.ok.inj h
  exact hs

theorem not_votesSufficient_error {error : RpcError} : ¬ VotesSufficient (.error error) :=
  fun ⟨_, h, _⟩ => by cases h

/-- What was placed without heights is no sufficient vote. -/
theorem votesSufficient_map {placed : Except RpcError Placed}
    {count : String → Int64 → Int64 → BlockConfirmationObservation} :
    VotesSufficient (Placed.vote count <$> placed) ↔
      ∃ hash height current, placed = .ok (.heights hash height current) ∧ (count hash height current).isSufficient := by
  cases placed with
  | error e => exact ⟨fun h => absurd h not_votesSufficient_error, fun ⟨_, _, _, h, _⟩ => (by cases h)⟩
  | ok placed =>
    refine votesSufficient_ok.trans ?_
    cases placed with
    | missing => exact ⟨fun h => (by cases h), fun ⟨_, _, _, h, _⟩ => (by cases h)⟩
    | sourceChanged reason => exact ⟨fun h => (by cases h), fun ⟨_, _, _, h, _⟩ => (by cases h)⟩
    | heights hash height current =>
      refine ⟨fun h => ⟨hash, height, current, rfl, h⟩, fun ⟨_, _, _, h, hs⟩ => ?_⟩
      cases h
      exact hs

/-! ## Exact counts -/

/-- The head is `required` above the transaction, as integers. -/
structure Reaches (required height current : Int64) : Prop where
  required_nonneg : 0 ≤ required.toInt
  height_nonneg : 0 ≤ height.toInt
  current_nonneg : 0 ≤ current.toInt
  reached : height.toInt + required.toInt ≤ current.toInt

theorem lt_zero_iff {a : Int64} : a < 0 ↔ a.toInt < 0 := Int64.lt_iff_toInt_lt

theorem checkedSubI64_eq {a b : Int64} (h : inI64 (a.toInt - b.toInt)) :
    ∃ c, checkedSubI64 a b = .some c ∧ c.toInt = a.toInt - b.toInt := i64_of_inI64 h

theorem checkedAddI64_eq {a b : Int64} (h : inI64 (a.toInt + b.toInt)) :
    ∃ c, checkedAddI64 a b = .some c ∧ c.toInt = a.toInt + b.toInt := i64_of_inI64 h

theorem i64_toInt {n : Int} {a : Int64} (h : i64 n = .some a) : a.toInt = n := by
  unfold i64 at h
  split at h
  · next hin =>
    obtain rfl := Option.some.inj h
    obtain ⟨hlo, hhi⟩ := inI64_iff.mp hin
    exact Int64.toInt_ofInt_of_le hlo hhi
  · cases h

/-- The two checked results are there when the count is reached. -/
theorem Reaches.checked (h : Reaches required height current) :
    ∃ confirmations requiredHeight, checkedSubI64 current height = .some confirmations ∧
      checkedAddI64 height required = .some requiredHeight ∧ requiredHeight ≤ current := by
  have hcurrent := inI64_toInt current
  have hheight := inI64_toInt height
  have hreached := h.reached
  have hrequired := h.required_nonneg
  have hcurrent' := h.current_nonneg
  have hheight' := h.height_nonneg
  obtain ⟨c, hc, -⟩ := checkedSubI64_eq (a := current) (b := height) (inI64_iff.mpr (by omega))
  obtain ⟨r, hr, heq⟩ := checkedAddI64_eq (a := height) (b := required) (inI64_iff.mpr (by omega))
  exact ⟨c, r, hc, hr, Int64.le_iff_toInt_le.mpr (by omega)⟩

/-- The signs and the comparison, as integers. -/
theorem reaches_iff {requiredHeight : Int64} (h : checkedAddI64 height required = .some requiredHeight) :
    Reaches required height current ↔ ¬ (height < 0 ∨ current < 0 ∨ required < 0) ∧ requiredHeight ≤ current := by
  have heq := i64_toInt h
  rw [lt_zero_iff, lt_zero_iff, lt_zero_iff, Int64.le_iff_toInt_le]
  refine ⟨fun hr => ?_, fun ⟨hsigns, hle⟩ => ⟨by omega, by omega, by omega, by omega⟩⟩
  have := hr.required_nonneg
  have := hr.height_nonneg
  have := hr.current_nonneg
  have := hr.reached
  omega

theorem checkedCount_isSufficient :
    (checkedCount required hash height current).isSufficient ↔ Reaches required height current := by
  unfold checkedCount
  split
  · next confirmations requiredHeight hsub hadd =>
    rw [reaches_iff hadd]
    split
    · next hsigns => exact ⟨fun h => (by cases h), fun h => absurd hsigns h.1⟩
    · next hsigns => rw [isSufficient_decided, decide_eq_true_eq, and_iff_right hsigns]
  · next hnone =>
    refine ⟨fun h => (by cases h), fun h => ?_⟩
    obtain ⟨c, r, hc, hr, -⟩ := h.checked
    exact absurd hr (hnone c r hc)

/-- Heights that are not negative are at most the largest `i64` apart. -/
theorem saturatingSubI64_toInt (hheight : 0 ≤ height.toInt) (hcurrent : 0 ≤ current.toInt) :
    (saturatingSubI64 current height).toInt = current.toInt - height.toInt := by
  have hhi := inI64_toInt height
  have hci := inI64_toInt current
  rw [saturatingSubI64, Int64.toInt_ofInt_of_le (by omega) (by omega)]
  omega

theorem saturatingCount_isSufficient (hrequired : 0 ≤ required.toInt) :
    (saturatingCount required hash height current).isSufficient ↔ Reaches required height current := by
  unfold saturatingCount
  split
  · next hsigns =>
    rw [lt_zero_iff, lt_zero_iff] at hsigns
    refine ⟨fun h => (by cases h), fun h => ?_⟩
    have := h.height_nonneg
    have := h.current_nonneg
    omega
  · next hsigns =>
    rw [lt_zero_iff, lt_zero_iff] at hsigns
    rw [isSufficient_decided, decide_eq_true_eq, Int64.le_iff_toInt_le,
      saturatingSubI64_toInt (by omega) (by omega)]
    refine ⟨fun h => ⟨hrequired, by omega, by omega, by omega⟩, fun h => ?_⟩
    have := h.reached
    omega

theorem toInt_max_zero (c : Int64) : (max c 0).toInt = max c.toInt 0 := by
  show (if c ≤ 0 then (0 : Int64) else c).toInt = max c.toInt 0
  split
  · next hle =>
    rw [Int64.le_iff_toInt_le, Int64.toInt_zero] at hle
    rw [max_eq_right hle, Int64.toInt_zero]
  · next hle =>
    rw [Int64.le_iff_toInt_le, Int64.toInt_zero] at hle
    rw [max_eq_left (by omega)]

/-- TON's count is reached for a request for none, wherever the head is. -/
theorem clampedCount_isSufficient (hrequired : 0 ≤ required.toInt) (hheight : 0 ≤ height.toInt) :
    (clampedCount required hash height current).isSufficient ↔
      0 ≤ current.toInt ∧ (height.toInt + required.toInt ≤ current.toInt ∨ required = 0) := by
  have hzero : required = 0 ↔ required.toInt = 0 := Int64.toInt_inj.symm
  unfold clampedCount
  split
  · next hsign =>
    rw [lt_zero_iff] at hsign
    exact ⟨fun h => (by cases h), fun h => absurd h.1 (by omega)⟩
  · next hsign =>
    rw [lt_zero_iff] at hsign
    have hhi := inI64_toInt height
    have hci := inI64_toInt current
    obtain ⟨c, hc, heq⟩ := checkedSubI64_eq (a := current) (b := height) (inI64_iff.mpr (by omega))
    simp only [hc]
    rw [isSufficient_decided, decide_eq_true_eq, Int64.le_iff_toInt_le, toInt_max_zero, hzero, heq]
    omega

/-! ## The observers -/

variable {render : Render} {endpoint : Endpoint}

/-- The block at the receipt's height is the receipt's, and is final. -/
def IsFinal (endpoint : Endpoint) (hash : String) (height : Int64) : Prop :=
  ∃ finalized, blockByNumber endpoint "finalized" = .ok finalized ∧ height ≤ finalized.1 ∧
    canonicalHash endpoint height finalized = .ok hash

theorem map_eq_ok {α β : Type} {f : α → β} {x : Except RpcError α} {b : β} :
    f <$> x = .ok b ↔ ∃ a, x = .ok a ∧ f a = b := by
  cases x with
  | error e => exact ⟨fun h => (by cases h), fun ⟨_, h, _⟩ => (by cases h)⟩
  | ok a => simp [Functor.map, Except.map]

/-- The finalized block is read just when it is asked for. -/
theorem finalizedBlock_eq_ok {requireFinalized : Bool} {finalized : Option (Int64 × String)} :
    finalizedBlock endpoint requireFinalized = .ok finalized ↔
      (requireFinalized = false ∧ finalized = .none) ∨
        (requireFinalized = true ∧
          ∃ block, blockByNumber endpoint "finalized" = .ok block ∧ finalized = .some block) := by
  cases requireFinalized with
  | false => simp [finalizedBlock, eq_comm]
  | true =>
    rw [finalizedBlock, if_pos rfl, map_eq_ok]
    simp [eq_comm]

/-- What was read of the finalized block goes with the placement. -/
theorem evmPlaced_eq_ok {txHash : String} {sourceEvidence : Option EvmSourceEvidence} {requireFinalized : Bool}
    {placed : Placed} {finalized : Option (Int64 × String)}
    (h : evmPlaced endpoint txHash sourceEvidence requireFinalized = .ok (placed, finalized)) :
    finalizedBlock endpoint requireFinalized = .ok finalized := by
  obtain ⟨_, -, h⟩ := bindOk_iff.mp h
  obtain ⟨_, -, h⟩ := bindOk_iff.mp h
  obtain ⟨block, hblock, h⟩ := bindOk_iff.mp h
  obtain ⟨_, -, h⟩ := bindOk_iff.mp h
  obtain ⟨_, -, h⟩ := bindOk_iff.mp h
  obtain rfl := congrArg Prod.snd (Except.ok.inj h)
  exact hblock

theorem evmCount_votes {requireFinalized : Bool} {finalized : Option (Int64 × String)}
    (hfinalized : finalizedBlock endpoint requireFinalized = .ok finalized) :
    VotesSufficient (evmCount render endpoint requireFinalized finalized required hash height current) ↔
      Reaches required height current ∧ (requireFinalized = true → IsFinal endpoint hash height) := by
  unfold evmCount
  split
  · next confirmations requiredBlock hsub hadd =>
    rw [reaches_iff hadd]
    split
    · next hsigns =>
      rw [votesSufficient_ok]
      exact ⟨fun h => (by cases h), fun h => absurd hsigns h.1.1⟩
    · next hsigns =>
      rw [and_iff_right hsigns]
      rcases finalizedBlock_eq_ok.mp hfinalized with ⟨rfl, rfl⟩ | ⟨rfl, block, hblock, rfl⟩
      · simp only [votesSufficient_ok, isSufficient_decided]
        simp
      · have hfinal : IsFinal endpoint hash height ↔
            height ≤ block.1 ∧ canonicalHash endpoint height block = .ok hash := by
          refine ⟨fun ⟨block', hblock', h⟩ => ?_, fun h => ⟨block, hblock, h⟩⟩
          obtain rfl := Except.ok.inj (hblock.symm.trans hblock')
          exact h
        have hbehind : block.1 < height ↔ ¬ height ≤ block.1 := Int64.not_le.symm
        rw [hfinal]
        simp only [hbehind]
        split
        · next hle =>
          rw [votesSufficient_ok, isSufficient_decided]
          simp [hle]
        · next hle =>
          rw [not_not] at hle
          cases hcanonical : canonicalHash endpoint height block with
          | error e =>
            refine ⟨fun h => absurd h not_votesSufficient_error, fun h => ?_⟩
            cases (h.2 trivial).2
          | ok canonical =>
            show VotesSufficient (if canonical ≠ hash then _ else _) ↔ _
            split
            · next hne =>
              rw [votesSufficient_ok]
              refine ⟨fun h => (by cases h), fun h => ?_⟩
              exact absurd (Except.ok.inj (h.2 trivial).2) hne
            · next heq =>
              rw [not_not] at heq
              rw [votesSufficient_ok, isSufficient_decided, decide_eq_true_eq, heq]
              exact ⟨fun h => ⟨h, fun _ => ⟨hle, rfl⟩⟩, And.left⟩
  · next hnone =>
    rw [votesSufficient_ok]
    refine ⟨fun h => (by cases h), fun h => ?_⟩
    obtain ⟨c, r, hc, hr, -⟩ := h.1.checked
    exact absurd hr (hnone c r hc)

theorem observeBlockConfirmations_votes {txHash : String} {sourceEvidence : Option EvmSourceEvidence}
    {requireFinalized : Bool} :
    VotesSufficient (observeBlockConfirmations render endpoint txHash sourceEvidence required requireFinalized) ↔
      ∃ hash height current,
        Prod.fst <$> evmPlaced endpoint txHash sourceEvidence requireFinalized = .ok (.heights hash height current) ∧
        Reaches required height current ∧ (requireFinalized = true → IsFinal endpoint hash height) := by
  unfold observeBlockConfirmations
  cases hplaced : evmPlaced endpoint txHash sourceEvidence requireFinalized with
  | error e => exact ⟨fun h => absurd h not_votesSufficient_error, fun ⟨_, _, _, h, _⟩ => (by cases h)⟩
  | ok found =>
    obtain ⟨placed, finalized⟩ := found
    have hfinalized := evmPlaced_eq_ok hplaced
    cases placed with
    | missing =>
      exact ⟨fun h => (by cases votesSufficient_ok.mp h), fun ⟨_, _, _, h, _⟩ => (by cases h)⟩
    | sourceChanged reason =>
      exact ⟨fun h => (by cases votesSufficient_ok.mp h), fun ⟨_, _, _, h, _⟩ => (by cases h)⟩
    | heights hash height current =>
      refine (evmCount_votes hfinalized).trans ⟨fun h => ⟨hash, height, current, rfl, h⟩, fun ⟨_, _, _, h, hs⟩ => ?_⟩
      cases h
      exact hs

theorem checkedCount_votes {placed : Except RpcError Placed} :
    VotesSufficient (Placed.vote (checkedCount required) <$> placed) ↔
      ∃ hash height current, placed = .ok (.heights hash height current) ∧ Reaches required height current := by
  simp only [votesSufficient_map, checkedCount_isSufficient]

theorem observeMoveBlockConfirmations_votes {chainName base txHash : String} :
    VotesSufficient (observeMoveBlockConfirmations render endpoint chainName base txHash required) ↔
      ∃ hash height current, movePlaced render endpoint chainName base txHash = .ok (.heights hash height current) ∧
        Reaches required height current := by
  unfold observeMoveBlockConfirmations
  split
  · next hsign =>
    rw [lt_zero_iff] at hsign
    refine ⟨fun h => (by cases votesSufficient_ok.mp h), fun ⟨_, _, _, _, h⟩ => ?_⟩
    exact absurd h.required_nonneg (by omega)
  · next hsign =>
    rw [lt_zero_iff] at hsign
    simp only [votesSufficient_map, saturatingCount_isSufficient (Int.not_lt.mp hsign)]

/-- Two checkpoints are counted as Move's heights are. -/
theorem isSufficient_observeSuiAnswers {answers : Json × Json} (hrequired : ¬ required < 0) :
    (⟨(observeSuiAnswers answers.1 answers.2 required).1.toVote, (observeSuiAnswers answers.1 answers.2 required).2⟩ :
      BlockConfirmationObservation).isSufficient =
        ((suiPlaced answers).vote (saturatingCount required)).isSufficient := by
  unfold observeSuiAnswers suiPlaced
  rw [if_neg hrequired]
  split
  · next height current _ _ =>
    show _ = (saturatingCount required "" height current).isSufficient
    unfold saturatingCount
    split
    · rfl
    · by_cases hle : required ≤ saturatingSubI64 current height
      · simp only [if_pos hle, isSufficient_decided, decide_eq_true hle]
        rfl
      · simp only [if_neg hle, isSufficient_decided, decide_eq_false hle]
        rfl
  · rfl

theorem observeSuiBlockConfirmations_votes {chainName txHash : String} :
    VotesSufficient (observeSuiBlockConfirmations render endpoint chainName txHash required) ↔
      ∃ hash height current,
        suiPlaced <$> suiAnswers render endpoint chainName txHash = .ok (.heights hash height current) ∧
        Reaches required height current := by
  unfold observeSuiBlockConfirmations
  split
  · next hsign =>
    have hnone : observeSuiAnswers .null .null required = (.invalidRange, .none) := if_pos hsign
    rw [hnone]
    rw [lt_zero_iff] at hsign
    refine ⟨fun h => (by cases votesSufficient_ok.mp h), fun ⟨_, _, _, _, h⟩ => ?_⟩
    exact absurd h.required_nonneg (by omega)
  · next hsign =>
    have hnonneg : 0 ≤ required.toInt := by
      rw [lt_zero_iff] at hsign
      omega
    have hvote := @votesSufficient_map (suiPlaced <$> suiAnswers render endpoint chainName txHash)
      (saturatingCount required)
    simp only [saturatingCount_isSufficient hnonneg] at hvote
    rw [← hvote]
    cases suiAnswers render endpoint chainName txHash with
    | error e => exact ⟨fun h => absurd h not_votesSufficient_error, fun h => absurd h not_votesSufficient_error⟩
    | ok answers =>
      refine votesSufficient_ok.trans (Iff.trans ?_ votesSufficient_ok.symm)
      exact Eq.congr_left (isSufficient_observeSuiAnswers hsign)

theorem observeTonBlockConfirmations_votes {url : String} {txSeqno : Int64} :
    VotesSufficient (observeTonBlockConfirmations render endpoint url txSeqno required) ↔
      ∃ current, tonCurrent render endpoint url = .ok current ∧ 0 ≤ required.toInt ∧ 0 ≤ txSeqno.toInt ∧
        0 ≤ current.toInt ∧ (txSeqno.toInt + required.toInt ≤ current.toInt ∨ required = 0) := by
  unfold observeTonBlockConfirmations
  split
  · next hsigns =>
    rw [lt_zero_iff, lt_zero_iff] at hsigns
    refine ⟨fun h => (by cases votesSufficient_ok.mp h), fun ⟨_, _, hrequired, hseqno, _⟩ => ?_⟩
    omega
  · next hsigns =>
    rw [lt_zero_iff, lt_zero_iff, not_or, Int.not_lt, Int.not_lt] at hsigns
    obtain ⟨hrequired, hseqno⟩ := hsigns
    cases tonCurrent render endpoint url with
    | error e => exact ⟨fun h => absurd h not_votesSufficient_error, fun ⟨_, h, _⟩ => (by cases h)⟩
    | ok current =>
      refine votesSufficient_ok.trans ((clampedCount_isSufficient hrequired hseqno).trans ?_)
      refine ⟨fun h => ⟨current, rfl, hrequired, hseqno, h⟩, fun ⟨_, h, _, _, hs⟩ => ?_⟩
      cases h
      exact hs

/-! ## The vote -/

/-- The count of a family: the head is `required` above the transaction, as
integers, or the family takes a head behind it for none of none. -/
structure Source.Counts (source : Source) (required height current : Int64) : Prop where
  required_nonneg : 0 ≤ required.toInt
  height_nonneg : 0 ≤ height.toInt
  current_nonneg : 0 ≤ current.toInt
  reached : height.toInt + required.toInt ≤ current.toInt ∨ (source.clamps = true ∧ required = 0)

theorem Source.counts_iff (source : Source) (h : source.clamps = false) :
    source.Counts required height current ↔ Reaches required height current :=
  ⟨fun c => ⟨c.required_nonneg, c.height_nonneg, c.current_nonneg, c.reached.resolve_right (by simp [h])⟩,
    fun r => ⟨r.required_nonneg, r.height_nonneg, r.current_nonneg, .inl r.reached⟩⟩

/-- **A readiness vote counts exactly, in every source family.** -/
theorem observe_votes_iff (render : Render) (endpoint : Endpoint) (source : Source) (required : Int64) :
    VotesSufficient (source.observe render endpoint required) ↔
      ∃ hash height current, source.placed render endpoint = .ok (.heights hash height current) ∧
        source.Counts required height current ∧
        (source.requiresFinalized = true → IsFinal endpoint hash height) := by
  cases source with
  | evm txHash sourceEvidence requireFinalized =>
    simp only [Source.counts_iff (.evm txHash sourceEvidence requireFinalized) rfl]
    exact observeBlockConfirmations_votes
  | move chainName base txHash =>
    simp only [Source.counts_iff (.move chainName base txHash) rfl, Source.requiresFinalized,
      Bool.false_eq_true, false_implies, and_true]
    exact observeMoveBlockConfirmations_votes
  | sui chainName txHash =>
    simp only [Source.counts_iff (.sui chainName txHash) rfl, Source.requiresFinalized,
      Bool.false_eq_true, false_implies, and_true]
    exact observeSuiBlockConfirmations_votes
  | ton url txSeqno =>
    refine observeTonBlockConfirmations_votes.trans ⟨?_, ?_⟩
    · intro ⟨current, hcurrent, hrequired, hseqno, hnonneg, hreached⟩
      refine ⟨heightText txSeqno, txSeqno, current, map_eq_ok.mpr ⟨current, hcurrent, rfl⟩, ?_, fun h => (by cases h)⟩
      exact ⟨hrequired, hseqno, hnonneg, hreached.imp_right fun h => ⟨rfl, h⟩⟩
    · intro ⟨hash, height, current, hplaced, hcounts, _⟩
      obtain ⟨current, hcurrent, heq⟩ := map_eq_ok.mp hplaced
      cases heq
      exact ⟨current, hcurrent, hcounts.required_nonneg, hcounts.height_nonneg, hcounts.current_nonneg,
        hcounts.reached.imp_right And.right⟩
  | solana txHash resolvedSlot =>
    simp only [Source.counts_iff (.solana txHash resolvedSlot) rfl, Source.requiresFinalized,
      Bool.false_eq_true, false_implies, and_true]
    exact checkedCount_votes
  | starknet txHash evidence =>
    simp only [Source.counts_iff (.starknet txHash evidence) rfl, Source.requiresFinalized,
      Bool.false_eq_true, false_implies, and_true]
    exact checkedCount_votes
  | stellar txHash =>
    simp only [Source.counts_iff (.stellar txHash) rfl, Source.requiresFinalized,
      Bool.false_eq_true, false_implies, and_true]
    exact checkedCount_votes

/-- A TON provider whose head is at five. -/
def headAtFive : Endpoint where
  post := fun _ _ => .error .unavailable
  get := fun _ => .ok (.object [("last", .object [("seqno", .number (.posInt 5))])])

/-- Texts in quotes; no other value is rendered. -/
def quoted : Render where
  display := fun value => "\"" ++ value.asStr.getD "" ++ "\""
  debug := fun text => "\"" ++ text ++ "\""

/-- A TON transaction at ten. -/
def seqnoTen : Source := .ton "https://ton.example/v3/masterchainInfo" 10

/-- No confirmations are asked for, and the head is five behind: the vote is that there are enough. -/
theorem observe_votes_behind :
    VotesSufficient (seqnoTen.observe quoted headAtFive 0) ∧
      seqnoTen.placed quoted headAtFive = .ok (.heights "10" 10 5) ∧ ¬ Reaches 0 10 5 := by
  have hcurrent : tonCurrent quoted headAtFive "https://ton.example/v3/masterchainInfo" = .ok 5 := by decide
  refine ⟨observeTonBlockConfirmations_votes.mpr ⟨5, hcurrent, by decide, by decide, by decide, .inr rfl⟩, ?_, ?_⟩
  · exact map_eq_ok.mpr ⟨5, hcurrent, by rw [show heightText 10 = "10" by decide]⟩
  · exact fun h => absurd h.reached (by decide)

end Pillar.Readiness
