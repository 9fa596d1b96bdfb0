/-
Exact-agreement quorum over dispatched providers (`pillar-runtime`,
`provider_health/quorum.rs`): the accumulator and the loop that feeds it.

Answers arrive in an order the executor picks, so the stream of completed
requests is a list. Log lines are left out.
-/
import Pillar.Core
import Pillar.StrategyFacts

namespace Pillar.Quorum

open Std (TreeMap TreeSet)
open Strategy

variable {T ε : Type}

/-- The part of a provider configuration the vote reads. A `Vec` has fewer
entries than `usize::MAX`. -/
structure ProviderConfig where
  voters : List ProviderVoter
  strategy : QuorumStrategy
  voters_lt : voters.length < usizeMax

/-! ## The rule -/

/-- Distinct entities per category among `voters`. -/
def voterEntities (voters : List ProviderVoter) : TreeMap String (TreeSet String) :=
  voters.foldl (fun out voter => out.insert voter.category ((out.getD voter.category ∅).insert voter.entity)) ∅

/-- The voters at `indices`; an index beyond the configuration has none. -/
def ProviderConfig.votersAt (config : ProviderConfig) (indices : List Nat) : List ProviderVoter :=
  indices.filterMap (config.voters[·]?)

theorem listed_foldl {category entity : String} :
    ∀ (voters : List ProviderVoter) (out : TreeMap String (TreeSet String)),
    Listed (voters.foldl (fun out voter =>
      out.insert voter.category ((out.getD voter.category ∅).insert voter.entity)) out) category entity ↔
      Listed out category entity ∨ ⟨category, entity⟩ ∈ voters
  | [], out => by simp
  | voter :: voters, out => by
    have hstep : Listed (out.insert voter.category ((out.getD voter.category ∅).insert voter.entity)) category entity ↔
        Listed out category entity ∨ voter = ⟨category, entity⟩ := by
      obtain ⟨c, e⟩ := voter
      simp only [Listed, TreeMap.getElem?_insert, ProviderVoter.mk.injEq]
      by_cases hc : c = category
      · subst hc
        cases hg : out[c]? with
        | none => simp [TreeMap.getD_eq_getD_getElem?, hg]
        | some s => simp [TreeMap.getD_eq_getD_getElem?, hg, or_comm]
      · simp [hc]
    rw [List.foldl_cons, listed_foldl voters, hstep, List.mem_cons, or_assoc, eq_comm]

theorem listed_voterEntities {voters : List ProviderVoter} {category entity : String} :
    Listed (voterEntities voters) category entity ↔ ⟨category, entity⟩ ∈ voters := by
  rw [voterEntities, listed_foldl]
  simp [Listed]

/-- Voters of one configuration have no more entities than it has voters. -/
theorem ProviderConfig.pool_lt (config : ProviderConfig) (indices : List Nat) :
    poolOf (voterEntities (config.votersAt indices)) < usizeMax := by
  obtain ⟨pool, hlen, hn, hmem⟩ := exists_pool (voterEntities (config.votersAt indices))
  have hsub : pool ⊆ config.voters.map (·.entity) := fun e he => by
    obtain ⟨c, hc⟩ := (hmem e).mp he
    obtain ⟨i, -, hi⟩ := List.mem_filterMap.mp (listed_voterEntities.mp hc)
    exact List.mem_map.mpr ⟨_, List.mem_of_getElem? hi, rfl⟩
  have hle := (List.subperm_of_subset hn hsub).length_le
  rw [List.length_map] at hle
  have := config.voters_lt
  omega

/-- What the providers at `indices` vote as. -/
def ProviderConfig.counts (config : ProviderConfig) (indices : List Nat) : Counts :=
  ⟨voterEntities (config.votersAt indices), config.pool_lt indices⟩

/-- `QuorumRule::is_met_by`; a `QuorumRule` is the configuration it borrows. -/
def ProviderConfig.isMetBy (config : ProviderConfig) (indices : List Nat) : Exec ε Bool :=
  isStrategySatisfiable (config.counts indices) config.strategy

/-! ## The accumulator -/

/-- A reservation of the JSON memory budget whose counter is `used`. -/
structure JsonMemoryLease where
  bytes : Nat
  used : Nat
  deriving Repr, DecidableEq

structure QuorumCandidate (T : Type) where
  indices : TreeSet Nat
  value : T
  lease : Option JsonMemoryLease

structure ExactQuorumAccumulator (T : Type) where
  rule : ProviderConfig
  pending : TreeSet Nat
  errorCount : Nat
  deferred : Option BudgetError
  voters : TreeMap String (QuorumCandidate T)

/-- One provider's answer: a fingerprinted value, none, or an error. -/
abbrev Observation (T : Type) := Except RpcError (Option (String × T))

namespace ExactQuorumAccumulator

def new (rule : ProviderConfig) (dispatched : List Nat) : ExactQuorumAccumulator T where
  rule := rule
  pending := TreeSet.ofList dispatched
  errorCount := 0
  deferred := .none
  voters := ∅

/-- A vote joins its fingerprint's candidate; the value kept is that of the
lowest index so far. -/
def vote (voters : TreeMap String (QuorumCandidate T)) (index : Nat) (fingerprint : String) (value : T) :
    TreeMap String (QuorumCandidate T) :=
  match voters[fingerprint]? with
  | .none => voters.insert fingerprint { indices := TreeSet.ofList [index], value, lease := .none }
  | .some candidate =>
    voters.insert fingerprint
      { candidate with
        indices := candidate.indices.insert index
        value := if candidate.indices.min?.any (index < ·) then value else candidate.value }

def record (acc : ExactQuorumAccumulator T) (index : Nat) : Option (String × T) → ExactQuorumAccumulator T
  | .some (fingerprint, value) =>
    { acc with pending := acc.pending.erase index, voters := vote acc.voters index fingerprint value }
  | .none => { acc with pending := acc.pending.erase index, errorCount := acc.errorCount + 1 }

def recordResult (acc : ExactQuorumAccumulator T) (index : Nat) :
    Observation T → Exec AppCoreError (ExactQuorumAccumulator T)
  | .ok observation => .ok (acc.record index observation)
  | .error (.admission error) =>
    .ok { acc with pending := acc.pending.erase index, deferred := acc.deferred <|> .some error }
  | .error (.remote _) | .error .unavailable => .ok (acc.record index .none)
  | .error error => Exec.err error.toAppCoreError

def canReachQuorum (acc : ExactQuorumAccumulator T) : Exec ε Bool := do
  if ← acc.rule.isMetBy acc.pending.toList then return true
  acc.voters.toList.anyM fun (_, candidate) =>
    acc.rule.isMetBy (candidate.indices.toList ++ acc.pending.toList)

def candidates (acc : ExactQuorumAccumulator T) : Exec ε (List String) := do
  let met ← acc.voters.toList.filterM fun (_, candidate) => acc.rule.isMetBy candidate.indices.toList
  return met.map Prod.fst

/-- The one candidate that meets the rule, when no answer still to come could
make another meet it. The map entry it is moved out of goes with it. -/
def unambiguousResult (acc : ExactQuorumAccumulator T) : Exec ε (Option T × ExactQuorumAccumulator T) := do
  match ← acc.candidates with
  | [candidate] =>
    if ← acc.rule.isMetBy acc.pending.toList then return (.none, acc)
    if ← acc.voters.toList.anyM (fun (fingerprint, vote) => do
        if fingerprint = candidate then return false
        acc.rule.isMetBy (vote.indices.toList ++ acc.pending.toList)) then return (.none, acc)
    return (acc.voters[candidate]?.map (·.value), { acc with voters := acc.voters.erase candidate })
  | _ => return (.none, acc)

def finish (acc : ExactQuorumAccumulator T) (context : String) : Exec AppCoreError T := do
  let incomplete := AppCoreError.internal ("No " ++ context ++
    " quorum: response set is ambiguous or incomplete; " ++ toString acc.voters.size ++
    " distinct successful responses, " ++ toString acc.errorCount ++ " errors")
  match ← acc.candidates with
  | [candidate] =>
    let chosen ← Exec.get acc.voters[candidate]?
    return chosen.value
  | candidates =>
    match candidates.isEmpty && acc.voters.size ≤ 1, acc.deferred with
    | true, .some error => Exec.err (.admission error)
    | _, _ => Exec.err incomplete

end ExactQuorumAccumulator

/-! ## Resolution -/

/-- `while let Some((index, observation)) = requests.next().await`. -/
def resolveLoop (context : String) :
    List (Nat × Observation T) → ExactQuorumAccumulator T → Exec AppCoreError T
  | [], acc => acc.finish context
  | (index, observation) :: requests, acc => do
    let acc ← acc.recordResult index observation
    match ← acc.unambiguousResult with
    | (.some result, _) => return result
    | (.none, acc) =>
      if ← acc.canReachQuorum then resolveLoop context requests acc
      else acc.finish context

def resolveProviderQuorumForIndices (requests : List (Nat × Observation T)) (indices : List Nat)
    (quorum : ProviderConfig) (context : String) : Exec AppCoreError T :=
  resolveLoop context requests (.new quorum indices)

end Pillar.Quorum
