/-
Quorum strategies (`pillar-config`, `provider_validation.rs`): what a set of
agreeing providers must amount to, and the matching that decides it.

`BTreeMap` and `BTreeSet` are `Std.TreeMap` and `Std.TreeSet`, which iterate in
the same order. `Declared` is the policy in its own words; that
`isStrategySatisfiable` decides it is in `Pillar.StrategyFacts`.
-/
import Pillar.Halt
import Pillar.Slots

namespace Pillar.Strategy

open Std (TreeMap TreeSet)

def providerCategoryAny : String := "any"

inductive Quorum where
  | count (n : UInt64)
  | max
  deriving Repr, DecidableEq

abbrev CategoryRequirement := TreeMap String Quorum

structure QuorumStrategy where
  allOf : List CategoryRequirement
  oneOf : List CategoryRequirement

/-- The number of distinct entities over all categories. -/
def poolOf (counts : TreeMap String (TreeSet String)) : Nat :=
  (TreeSet.ofList (counts.toList.flatMap (·.2.toList))).size

/-- The entities of each category. They are in memory, so a `usize` counts
them with room to spare. -/
structure Counts where
  map : TreeMap String (TreeSet String)
  pool_lt : poolOf map < usizeMax

def Counts.pool (counts : Counts) : Nat := poolOf counts.map

/-- The `(category, entity)` one configured URI votes as. -/
structure ProviderVoter where
  category : String
  entity : String
  deriving Repr, DecidableEq

variable {ε : Type}

/-! ## Matching entities to slots -/

/-- Which category an entity has been given to. -/
abbrev Owner := TreeMap String String

/-- A breadth-first search: how each category was reached (from which one, by
which of its own entities), those still to look at, and those seen. -/
structure Search where
  via : TreeMap String (String × String)
  queue : List String
  seen : TreeSet String

/-- The loop over a category's candidates. It stops at the first free entity;
until then it notes the holders not seen before. -/
def scan (owner : Owner) (category : String) : List String → Search → Search × Option String
  | [], s => (s, .none)
  | entity :: rest, s =>
    match owner[entity]? with
    | .none => (s, .some entity)
    | .some holder =>
      if holder ∈ s.seen then scan owner category rest s
      else scan owner category rest
        { via := s.via.insert holder (category, entity)
          queue := s.queue ++ [holder]
          seen := s.seen.insert holder }

/-- `while at != start`: hands each entity on the path to the category before
its holder. -/
def reassign (via : TreeMap String (String × String)) (start : String) :
    Nat → Owner → String → Exec ε Owner
  | 0, _, _ => .error .fuel
  | fuel + 1, owner, here =>
    if here = start then .ok owner
    else do
      let (previous, taken) ← Exec.get via[here]?
      reassign via start fuel (owner.insert taken previous) previous

/-- `while let Some(category) = queue.pop_front()`. -/
def search (counts : Counts) (owner : Owner) (start : String) : Nat → Search → Exec ε (Option Owner)
  | 0, _ => .error .fuel
  | fuel + 1, s =>
    match s.queue with
    | [] => .ok .none
    | category :: queue =>
      match counts.map[category]? with
      | .none => search counts owner start fuel { s with queue }
      | .some candidates =>
        match scan owner category candidates.toList { s with queue } with
        | (s, .none) => search counts owner start fuel s
        | (s, .some entity) => do
          let owner ← reassign s.via start (s.via.size + 1) (owner.insert entity category) category
          return .some owner

/-- Gives `start` one more entity, moving entities between categories along a
shortest path when none is free; `none` when it cannot. -/
def augment (counts : Counts) (owner : Owner) (start : String) : Exec ε (Option Owner) :=
  search counts owner start (owner.size + 2)
    { via := ∅, queue := [start], seen := TreeSet.ofList [start] }

/-- `while list.get(*prefix).is_some_and(owned) { *prefix += 1 }`. -/
def ownedPrefix (owner : Owner) (list : List String) (n : Nat) : Nat :=
  n + ((list.drop n).takeWhile (owner.contains ·)).length

/-- The loop over the slots. `prefixes` is how far each category's candidates
were found owned; the source's `lists` caches `candidates.toList`. -/
def assignLoop (counts : Counts) : List String → Owner → TreeMap String Nat → Exec ε Bool
  | [], _, _ => .ok true
  | category :: rest, owner, prefixes =>
    match counts.map[category]? with
    | .none => .ok false
    | .some candidates => do
      let list := candidates.toList
      let n := ownedPrefix owner list (prefixes.getD category 0)
      match list[n]? with
      | .some entity =>
        assignLoop counts rest (owner.insert entity category) (prefixes.insert category n)
      | .none =>
        match ← augment counts owner category with
        | .none => return false
        | .some owner => assignLoop counts rest owner (prefixes.insert category n)

/-- Whether every category slot can hold its own entity. -/
def assignEntities (counts : Counts) (categories : List String) : Exec ε Bool :=
  assignLoop counts categories ∅ ∅

/-! ## Requirements -/

/-- The loop over the requirements: the slots of named categories and the
count of `any`, or `none` where the source returns `false`. -/
def collectSlots (pool : Nat) : List (String × Quorum) → List String → Nat → Option (List String × Nat)
  | [], categories, anyQuorum => .some (categories, anyQuorum)
  | (_, .max) :: _, _, _ => .none
  | (category, .count n) :: rest, categories, anyQuorum =>
    if category = providerCategoryAny then
      collectSlots pool rest categories (saturatingAdd anyQuorum n.toNat)
    -- Checked before expanding, so a mistyped count cannot exhaust memory.
    else if n.toNat > pool - categories.length then .none
    else collectSlots pool rest (categories ++ List.replicate n.toNat category) anyQuorum

/-- `all_of.iter().chain(once(one_of))`, entry by entry. -/
def entries (allOf : List CategoryRequirement) (oneOf : CategoryRequirement) : List (String × Quorum) :=
  (allOf ++ [oneOf]).flatMap (·.toList)

def checkRequirementSet (counts : Counts) (allOf : List CategoryRequirement)
    (oneOf : CategoryRequirement) : Exec ε Bool :=
  match collectSlots counts.pool (entries allOf oneOf) [] 0 with
  | .none => .ok false
  | .some (categories, anyQuorum) =>
    if max anyQuorum categories.length ≤ counts.pool then assignEntities counts categories
    else .ok false

def isStrategySatisfiable (counts : Counts) (strategy : QuorumStrategy) : Exec ε Bool :=
  if strategy.oneOf.isEmpty then checkRequirementSet counts strategy.allOf ∅
  else strategy.oneOf.anyM (checkRequirementSet counts strategy.allOf)

/-! ## The declared policy -/

/-- `map` lists `entity` under `category`. -/
def Listed (map : TreeMap String (TreeSet String)) (category entity : String) : Prop :=
  ∃ entities, map[category]? = .some entities ∧ entity ∈ entities

abbrev Counts.Lists (counts : Counts) : String → String → Prop := Listed counts.map

/-- The named-category slots of an entry: `n` of them for `category: n`. -/
def slotsOf : String × Quorum → List String
  | (category, .count n) => if category = providerCategoryAny then [] else List.replicate n.toNat category
  | (_, .max) => []

/-- The `any` count of an entry. -/
def anyOf : String × Quorum → Nat
  | (category, .count n) => if category = providerCategoryAny then n.toNat else 0
  | (_, .max) => 0

/-- `counts` meets a set of entries: every count is resolved, there are as many
distinct entities as the `any` counts ask for together, and the named slots can
be given distinct entities, each listed under its slot's category. -/
structure Meets (counts : Counts) (reqs : List (String × Quorum)) : Prop where
  resolved : ∀ r ∈ reqs, r.2 ≠ .max
  any : (reqs.map anyOf).sum ≤ counts.pool
  named : Slots.Fillable counts.Lists (reqs.flatMap slotsOf)

/-- The alternatives of a strategy: its `one_of`, or nothing more to ask. -/
def QuorumStrategy.alternatives (strategy : QuorumStrategy) : List CategoryRequirement :=
  if strategy.oneOf.isEmpty then [∅] else strategy.oneOf

/-- The declared quorum policy. -/
def Declared (counts : Counts) (strategy : QuorumStrategy) : Prop :=
  ∃ alt ∈ strategy.alternatives, Meets counts (entries strategy.allOf alt)

end Pillar.Strategy
