/-
Dispatch planning: in which order a chain's providers are asked and how long
each waits (`pillar-config`, `provider_validation.rs`; `pillar-runtime`,
`provider_health/quorum.rs`).

A provider's rank is asked for as the plan is made, one after another; the
answers are a parameter. Durations are in nanoseconds.
-/
import Pillar.ProviderPool
import Pillar.Text

namespace Pillar.Dispatch

open Std (TreeMap TreeSet)
open Strategy
open Provider (ProviderConfig ProviderUri providerCategories noCounts renderStrategy)

variable {α ε : Type}

structure OrderableProvider where
  category : String
  entity : String
  id : String
  rank : Int
  deriving DecidableEq

def OrderableProvider.voter (provider : OrderableProvider) : ProviderVoter := ⟨provider.category, provider.entity⟩

/-- Entities by category, to check a strategy against. Those of a list in
memory are always few enough. -/
def countsOf (map : TreeMap String (TreeSet String)) : Counts :=
  if h : poolOf map < usizeMax then ⟨map, h⟩ else noCounts

/-! ## `order_providers_for_quorum` -/

/-- The order of a category: those a requirement names first, then by the best
rank in it, then as they are listed. -/
def categoryKey (required : TreeSet String) (providers : List OrderableProvider) (category : String) :
    Nat × Int × Nat :=
  (if required.contains providerCategoryAny || required.contains category then 0 else 1,
    ((providers.filter (·.category = category)).map (·.rank)).min?.getD 0,
    (providerCategories.findIdx? (· = category)).getD usizeMax)

def keyLe (a b : Nat × Int × Nat) : Bool :=
  a.1 < b.1 || (a.1 = b.1 && (a.2.1 < b.2.1 || (a.2.1 = b.2.1 && a.2.2 ≤ b.2.2)))

/-- `sort_by_key`, which is stable. -/
def sortByKey {κ : Type} (le : κ → κ → Bool) (key : α → κ) (l : List α) : List α :=
  l.insertionSort fun a b => le (key a) (key b)

/-- Every entry once, where it is first. -/
def firstSeen (l : List String) : List String := l.foldl (fun order e => if e ∈ order then order else order ++ [e]) []

/-- The loop over the buckets, which takes the first of each that has one until
none has; it ends within as many rounds as there are providers. -/
def takeTurns : Nat → List (List α) → List α
  | 0, _ => []
  | rounds + 1, buckets =>
    match buckets.filterMap List.head? with
    | [] => []
    | moved => moved ++ takeTurns rounds (buckets.map List.tail)

/-- One category's providers, its entities in turn. -/
def orderCategory (providers : List OrderableProvider) (category : String) : List OrderableProvider :=
  let members := providers.filter (·.category = category)
  let bucket := fun entity => members.filter (·.entity = entity)
  let order := sortByKey (fun a b : Int => decide (a ≤ b)) (fun entity => (bucket entity).head?.elim 0 (·.rank))
    (firstSeen (members.map (·.entity)))
  takeTurns members.length (order.map bucket)

/-- Category by category. -/
def interleave (providers : List OrderableProvider) (strategy : QuorumStrategy) : List OrderableProvider :=
  let required := TreeSet.ofList (strategy.allOf.flatMap (·.keys))
  let categories := providerCategories.filter fun c => providers.any (·.category = c)
  (sortByKey keyLe (categoryKey required providers) categories).flatMap (orderCategory providers)

/-! ## `minimal_satisfying_selection` -/

/-- The order of `(category, entity)`. -/
abbrev pairOrder : String × String → String × String → Ordering := compareLex (compareOn Prod.fst) (compareOn Prod.snd)

/-- How many providers each voter stands for, and the entities of each category. -/
structure Tally where
  counts : TreeMap (String × String) Nat pairOrder
  entities : TreeMap String (TreeSet String)

def Tally.count (t : Tally) (provider : OrderableProvider) : Tally where
  counts := t.counts.insert (provider.category, provider.entity)
    (t.counts.getD (provider.category, provider.entity) 0 + 1)
  entities := t.entities.insert provider.category ((t.entities.getD provider.category ∅).insert provider.entity)

def Tally.of (output : List OrderableProvider) : Tally := output.foldl Tally.count ⟨∅, ∅⟩

/-- One provider less, and the entity when it was the last that stood for it. -/
def Tally.drop (t : Tally) (provider : OrderableProvider) : Exec ε Tally := do
  let count ← Exec.get t.counts[(provider.category, provider.entity)]?
  let left ← Exec.sub count 1
  let counts := t.counts.insert (provider.category, provider.entity) left
  if left = 0 then
    let entities ← Exec.get t.entities[provider.category]?
    return ⟨counts, t.entities.insert provider.category (entities.erase provider.entity)⟩
  else return ⟨counts, t.entities⟩

/-- It is put back. -/
def Tally.restore (t : Tally) (provider : OrderableProvider) : Exec ε Tally := do
  let count ← Exec.get t.counts[(provider.category, provider.entity)]?
  let entities ← Exec.get t.entities[provider.category]?
  return ⟨t.counts.insert (provider.category, provider.entity) (count + 1),
    t.entities.insert provider.category (entities.insert provider.entity)⟩

/-- The loop from the back; `selected` is of those behind. -/
def eliminate (candidate : QuorumStrategy) : List OrderableProvider → Tally → List Bool → Exec ε (List Bool)
  | [], _, selected => .ok selected
  | provider :: before, t, selected => do
    let fewer ← t.drop provider
    if ← isStrategySatisfiable (countsOf fewer.entities) candidate then
      eliminate candidate before fewer (false :: selected)
    else eliminate candidate before (← fewer.restore provider) (true :: selected)

def minimalSatisfyingSelection (output : List OrderableProvider) (candidate : QuorumStrategy) :
    Exec ε (Option (List Bool)) := do
  if !(← isStrategySatisfiable (countsOf (Tally.of output).entities) candidate) then return .none
  else return .some (← eliminate candidate output.reverse (Tally.of output) [])

def selectedFirst (output : List α) (selected : List Bool) : List α :=
  let pairs := output.zip selected
  (pairs.filter (·.2) ++ pairs.filter (!·.2)).map (·.1)

/-! ## The order -/

/-- What the loop over the alternatives keeps: how many were selected, their
ranks together, and which. -/
abbrev Best := Option (Nat × Int × List Bool)

def i64Min : Int := -2 ^ 63
def i64Max : Int := 2 ^ 63 - 1

/-- `saturating_add`, of `i64`. -/
def saturatingAddI64 (a b : Int) : Int := max i64Min (min i64Max (a + b))

def considerAlternative (output : List OrderableProvider) (strategy : QuorumStrategy) (best : Best)
    (alternative : CategoryRequirement) : Exec ε Best := do
  match ← minimalSatisfyingSelection output { allOf := strategy.allOf, oneOf := [alternative] } with
  | .none => return best
  | .some selected =>
    let count := selected.countP id
    let rank := ((output.zip selected).filter (·.2)).foldl
      (fun sum (provider, _) => saturatingAddI64 sum provider.rank) 0
    match best with
    | .none => return .some (count, rank, selected)
    | .some (bestCount, bestRank, _) =>
      if count < bestCount ∨ (count = bestCount ∧ rank < bestRank) then return .some (count, rank, selected)
      else return best

def orderProvidersForQuorum (providers : List OrderableProvider) (strategy : QuorumStrategy) :
    Exec ε (List OrderableProvider) := do
  let output := interleave providers strategy
  if strategy.oneOf.isEmpty then return output
  else
    match ← strategy.oneOf.foldlM (considerAlternative output strategy) .none with
    | .some (_, _, selected) => return selectedFirst output selected
    | .none => return output

def prioritizeMinimalQuorum (ordered : List OrderableProvider) (strategy : QuorumStrategy) :
    Exec ε (List OrderableProvider) := do
  if !strategy.oneOf.isEmpty then return ordered
  else
    match ← minimalSatisfyingSelection ordered strategy with
    | .some selected => return selectedFirst ordered selected
    | .none => return ordered

/-- The loop over the providers; `index` of them have voted. -/
def minProvidersLoop (strategy : QuorumStrategy) :
    List OrderableProvider → TreeMap String (TreeSet String) → Nat → Exec ε Nat
  | [], _, index => .ok index
  | provider :: rest, votes, index => do
    let votes := votes.insert provider.category ((votes.getD provider.category ∅).insert provider.entity)
    if ← isStrategySatisfiable (countsOf votes) strategy then return index + 1
    else minProvidersLoop strategy rest votes (index + 1)

def minProvidersForStrategy (providers : List OrderableProvider) (strategy : QuorumStrategy) : Exec ε Nat :=
  minProvidersLoop strategy providers ∅ 0

/-! ## The plan -/

inductive ProviderRank where
  | normal
  | highLatency
  | unhealthy
  deriving DecidableEq

/-- `as i32`. -/
def ProviderRank.toInt : ProviderRank → Int
  | .normal => 0
  | .highLatency => 1
  | .unhealthy => 2

/-- `DEFAULT_STALL_TIMEOUT`. -/
def defaultStallTimeout : Nat := 2000000000

structure DispatchEntry where
  index : Nat
  uri : ProviderUri
  delay : Nat

/-- `checked_add`, of a count. -/
def addCount (sum : Nat) : Quorum → Option Nat
  | .count n => if sum + n.toNat < 2 ^ 64 then .some (sum + n.toNat) else .none
  | .max => .none

/-- Asks for one vote at most. -/
def isTrivialStrategy (strategy : QuorumStrategy) : Bool :=
  if !strategy.oneOf.isEmpty then false
  else
    ((strategy.allOf.flatMap TreeMap.values).foldlM addCount 0).any (· ≤ 1)

def ranksOnly (strategy : QuorumStrategy) : Bool :=
  isTrivialStrategy strategy && strategy.allOf.all fun requirement => requirement.keys.all (· = providerCategoryAny)

/-- `QuorumRule::describe`. -/
def describe (config : ProviderConfig) : String := renderStrategy id config.strategy

def notEnough (config : ProviderConfig) (chainName : String) (healthy : Nat) : AppCoreError :=
  .internal ("Not enough healthy providers to meet quorum " ++ describe config ++ " for chain " ++ chainName ++ " (" ++
    toString healthy ++ " healthy of " ++ toString config.uris.length ++ " configured)")

def orderProviders (strategy : QuorumStrategy) (orderable : List OrderableProvider) : Exec ε (List OrderableProvider) :=
  if ranksOnly strategy then .ok orderable
  else do prioritizeMinimalQuorum (← orderProvidersForQuorum orderable strategy) strategy

def toOrderable (config : ProviderConfig) (entry : Nat × ProviderRank) : Exec ε OrderableProvider := do
  let voter ← Exec.get config.voters[entry.1]?
  return { category := voter.category, entity := voter.entity, id := toString entry.1, rank := entry.2.toInt }

/-- The healthy providers in the order they are asked, and how many of them at once. -/
def orderHealthy (config : ProviderConfig) (healthy : List (Nat × ProviderRank)) :
    Exec ε (List OrderableProvider × Nat) := do
  let orderable ← healthy.mapM (toOrderable config)
  let ordered ← orderProviders config.strategy orderable
  return (ordered, max (← minProvidersForStrategy ordered config.strategy) 1)

/-- How long the provider at a position waits. `as u32` wraps, and a quarter of
the time left until the request's deadline is the most. -/
def delayAt (firstWave : Nat) (staggerCap : Option Nat) (position : Nat) : Nat :=
  let behind := position + 1 - firstWave
  let delay := defaultStallTimeout * (behind % 2 ^ 32)
  staggerCap.elim delay (min delay)

/-- `id.parse::<usize>().expect(..)`. -/
def indexOf (provider : OrderableProvider) : Exec ε Nat :=
  match Text.parse 64 provider.id with
  | .ok index => .ok index
  | .error _ => .error .panic

def entriesOf (config : ProviderConfig) (firstWave : Nat) (staggerCap : Option Nat) (order : List Nat) :
    Exec ε (List DispatchEntry) :=
  order.zipIdx.mapM fun (index, position) => do
    let uri ← Exec.get config.uris[index]?
    return { index, uri, delay := delayAt firstWave staggerCap position }

/-- The ranks of the providers, the best first. -/
def rankedKeys (rankOf : Nat × String → ProviderRank) (keyed : List (Nat × String)) : List (Nat × ProviderRank) :=
  sortByKey (fun a b : Int => decide (a ≤ b)) (fun entry : Nat × ProviderRank => entry.2.toInt)
    (keyed.map fun entry => (entry.1, rankOf entry))

/-- `plan_dispatch_for_keys`. -/
def planDispatchForKeys (rankOf : Nat × String → ProviderRank) (chainName : String) (config : ProviderConfig)
    (keyed : List (Nat × String)) (staggerCap : Option Nat) : Exec AppCoreError (List DispatchEntry) := do
  let ranked := rankedKeys rankOf keyed
  let healthy := ranked.filter (·.2 ≠ .unhealthy)
  let unhealthy := ranked.filter (·.2 = .unhealthy)
  if !(← config.isMetBy (healthy.map (·.1))) then Exec.err (notEnough config chainName healthy.length)
  else
    let (ordered, firstWave) ← orderHealthy config healthy
    let indices ← ordered.mapM indexOf
    entriesOf config firstWave staggerCap (indices ++ unhealthy.map (·.1))

end Pillar.Dispatch
