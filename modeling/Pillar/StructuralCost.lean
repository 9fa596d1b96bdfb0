/-
What a value costs to parse (`pillar-runtime`, `provider_health/transport.rs`):
`accumulate_paginated_structural_cost` walks the values with a stack of its own, and
what it adds up is a formula over each value.
-/
import Pillar.IotaEvents

namespace Pillar.IotaEvents

mutual

/-- Three units for an entry, one for an element, and one for a value that holds none. -/
def cost : Json → Nat
  | .array values => max values.length 1 + costOfValues values
  | .object entries => max (entries.length * 3) 1 + costOfEntries entries
  | .null | .bool _ | .number _ | .string _ => 1

def costOfValues : List Json → Nat
  | [] => 0
  | value :: rest => cost value + costOfValues rest

def costOfEntries : List (String × Json) → Nat
  | [] => 0
  | (_, value) :: rest => cost value + costOfEntries rest

end

theorem costOfValues_eq (values : List Json) : costOfValues values = (values.map cost).sum := by
  induction values with
  | nil => rw [costOfValues, List.map_nil, List.sum_nil]
  | cons value rest ih => rw [costOfValues, List.map_cons, List.sum_cons, ih]

theorem costOfEntries_eq (entries : List (String × Json)) :
    costOfEntries entries = ((entries.map Prod.snd).map cost).sum := by
  induction entries with
  | nil => rw [costOfEntries, List.map_nil, List.map_nil, List.sum_nil]
  | cons entry rest ih => rw [costOfEntries, List.map_cons, List.map_cons, List.sum_cons, ih]

/-- A value costs what it costs by itself and what it holds costs; only a value
past every limit has no cost. -/
theorem structuralCost_spec (value : Json) :
    (structuralCost value = .none ∧ maxJsonParseNodes < cost value) ∨
      ∃ units held, structuralCost value = .some (units, held) ∧ cost value = units + (held.map cost).sum := by
  cases value with
  | array values => exact .inr ⟨_, _, rfl, by rw [cost, costOfValues_eq]⟩
  | object entries =>
    by_cases hlimit : entries.length * 3 ≤ usizeMax
    · right
      refine ⟨_, _, by rw [structuralCost, checkedMul_of_le hlimit, Option.map_some], ?_⟩
      rw [cost, costOfEntries_eq]
    · left
      have hmax : maxJsonParseNodes ≤ usizeMax := by decide
      refine ⟨by rw [structuralCost, checkedMul, if_neg hlimit, Option.map_none], ?_⟩
      rw [cost]
      omega
  | null => exact .inr ⟨1, [], rfl, by rw [cost]; rfl⟩
  | bool b => exact .inr ⟨1, [], rfl, by rw [cost]; rfl⟩
  | number n => exact .inr ⟨1, [], rfl, by rw [cost]; rfl⟩
  | string s => exact .inr ⟨1, [], rfl, by rw [cost]; rfl⟩

/-- The limit is kept, or there is no total. -/
def limited (total : Nat) : Option Nat := if total ≤ maxJsonParseNodes then .some total else .none

theorem checkedAdd_filter (total units : Nat) :
    (checkedAdd total units).filter (· ≤ maxJsonParseNodes) = limited (total + units) := by
  have hmax : maxJsonParseNodes ≤ usizeMax := by decide
  by_cases hlimit : total + units ≤ maxJsonParseNodes
  · rw [limited, if_pos hlimit, checkedAdd_of_le (hlimit.trans hmax), Option.filter_some,
      if_pos (decide_eq_true hlimit)]
  · rw [limited, if_neg hlimit, checkedAdd]
    split
    · rw [Option.filter_some, if_neg (by simpa using hlimit)]
    · rfl

/-- The stack holds what is still to be added: each turn takes one value off and
puts what it holds on. -/
theorem costLoop_eq : ∀ (fuel total : Nat) (pending : List Json), total ≤ maxJsonParseNodes →
    maxJsonParseNodes < total + fuel → costLoop fuel total pending = .ok (limited (total + (pending.map cost).sum))
  | _, total, [], hle, _ => by rw [costLoop, List.map_nil, List.sum_nil, Nat.add_zero, limited, if_pos hle]
  | 0, total, _ :: _, hle, hroom => by omega
  | fuel + 1, total, value :: pending, hle, hroom => by
    rw [costLoop, List.map_cons, List.sum_cons]
    rcases structuralCost_spec value with ⟨hnone, hover⟩ | ⟨units, held, hsome, hcost⟩
    · rw [hnone, limited, if_neg (by omega)]
    · rw [hsome, hcost]
      dsimp only
      rw [checkedAdd_filter]
      by_cases hlimit : total + units ≤ maxJsonParseNodes
      · have hone := one_le_structuralCost hsome
        have hsum : ((held.reverse ++ pending).map cost).sum = (held.map cost).sum + (pending.map cost).sum := by
          rw [List.map_append, List.sum_append, List.map_reverse, List.sum_reverse]
        rw [limited, if_pos hlimit]
        dsimp only
        rw [costLoop_eq fuel (total + units) _ hlimit (by omega), hsum]
        congr 2
        omega
      · rw [limited, if_neg hlimit, limited, if_neg (by omega)]

/-- **The total is a sum**: of the costs of the items, over what was there before. -/
theorem accumulatePaginatedStructuralCost_eq {total : Nat} (h : total ≤ maxJsonParseNodes) (items : List Json) :
    accumulatePaginatedStructuralCost total items = .ok (limited (total + (items.map cost).sum)) := by
  rw [accumulatePaginatedStructuralCost, costLoop_eq _ _ _ h (by omega), List.map_reverse, List.sum_reverse]

end Pillar.IotaEvents
