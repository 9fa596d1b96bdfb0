/-
A ULN that moves on while it is read: what it keeps of a DVN and a packet, the
steps of its contract, and what reads at different moments say of it.

`commit` takes the DVN's record away and leaves the packet verified, for good.
So where the state is read last, a record that is missed shows in the state.
-/
import Mathlib

namespace Pillar.UlnRun

variable {S : Type} {verified : S}

/-- The confirmations that the receive config requires, the DVN's record, and
the packet's state. -/
structure Uln (S : Type) where
  required : UInt64
  record : Option UInt64
  state : S

/-- What can happen: the DVN verifies (again), others do or the packet can no longer
be committed, the packet is committed, the receive config is set. -/
inductive Uln.Step (verified : S) : Uln S → Uln S → Prop
  | verify (uln : Uln S) (confirmations : UInt64) : Step verified uln { uln with record := .some confirmations }
  | setState (uln : Uln S) (state : S) : uln.state ≠ verified → state ≠ verified →
      Step verified uln { uln with state }
  | commit (uln : Uln S) : Step verified uln { uln with record := .none, state := verified }
  | setConfig (uln : Uln S) (required : UInt64) : Step verified uln { uln with required }

/-- What steps keep: a committed packet stays committed, and only a commit takes the record away. -/
structure Uln.Later (verified : S) (uln later : Uln S) : Prop where
  stays : uln.state = verified → later.state = verified
  reclaimed : uln.record ≠ .none → later.record = .none → later.state = verified

theorem Uln.Later.refl (uln : Uln S) : Later verified uln uln := ⟨id, fun hrecord h => absurd h hrecord⟩

theorem Uln.Later.trans {a b c : Uln S} (h : Later verified a b) (h' : Later verified b c) : Later verified a c := by
  refine ⟨fun ha => h'.stays (h.stays ha), fun ha hc => ?_⟩
  by_cases hb : b.record = .none
  · exact h'.stays (h.reclaimed ha hb)
  · exact h'.reclaimed hb hc

theorem Uln.Step.later {uln later : Uln S} (h : Step verified uln later) : Later verified uln later := by
  cases h with
  | verify confirmations => exact ⟨id, fun _ h => (by cases h)⟩
  | setState state hstate _ => exact ⟨fun h => absurd h hstate, fun hrecord h => absurd h hrecord⟩
  | commit => exact ⟨fun _ => rfl, fun _ _ => rfl⟩
  | setConfig required => exact ⟨id, fun hrecord h => absurd h hrecord⟩

theorem Uln.later_of_steps {uln later : Uln S} (h : Relation.ReflTransGen (Step verified) uln later) :
    Later verified uln later := by
  induction h with
  | refl => exact .refl uln
  | tail _ hstep ih => exact ih.trans hstep.later

/-- The ULN at each request: any steps lie between two of them. -/
structure Run (verified : S) where
  states : Nat → Uln S
  moves : ∀ i, Relation.ReflTransGen (Uln.Step verified) (states i) (states (i + 1))

namespace Run

variable {run : Run verified} {i j k n : Nat} {stored : Option UInt64} {required : UInt64}

theorem later (run : Run verified) (h : i ≤ j) : Uln.Later verified (run.states i) (run.states j) := by
  induction j, h using Nat.le_induction with
  | base => exact .refl _
  | succ j _ ih => exact ih.trans (Uln.later_of_steps (run.moves j))

/-! ## What reads say -/

/-- The packet was committed at one of the first `n` requests, or a record then met a requirement then. -/
def SawSigned (run : Run verified) (n : Nat) : Prop :=
  ∃ i j, i < n ∧ j < n ∧ ((run.states i).state = verified ∨
    ∃ confirmations, (run.states i).record = .some confirmations ∧ (run.states j).required ≤ confirmations)

/-- A record was short of a requirement, and the packet not committed at any of the first `n` requests. -/
def SawShort (run : Run verified) (n : Nat) (required : UInt64) : Prop :=
  ∃ i j, i < n ∧ j < n ∧ (run.states j).required = required ∧
    (∀ confirmations, (run.states i).record = .some confirmations → confirmations < required) ∧
    ∀ m < n, (run.states m).state ≠ verified

/-- `stored` is the record as it was read by moment `i`; a record that was found
and is gone was committed. -/
structure Reads (run : Run verified) (i : Nat) (stored : Option UInt64) : Prop where
  found : ∀ confirmations, (run.states i).record = .some confirmations → stored = .some confirmations
  gone : (run.states i).record = .none → stored ≠ .none → (run.states i).state = verified

theorem reads_record (run : Run verified) (i : Nat) : run.Reads i (run.states i).record :=
  ⟨fun _ h => h, fun h hne => absurd h hne⟩

theorem Reads.sawSigned (h : run.Reads i stored) (hmet : stored.any ((run.states j).required ≤ ·) = true) (hi : i < n)
    (hj : j < n) : run.SawSigned n := by
  obtain ⟨confirmations, rfl, hle⟩ := (Option.any_eq_true _ _).mp hmet
  cases hnow : (run.states i).record with
  | none => exact ⟨i, j, hi, hj, .inl (h.gone hnow (Option.some_ne_none _))⟩
  | some now =>
    cases h.found now hnow
    exact ⟨i, j, hi, hj, .inr ⟨_, hnow, of_decide_eq_true hle⟩⟩

theorem sawSigned_of_verified (h : (run.states k).state = verified) (hk : k < n) : run.SawSigned n :=
  ⟨k, k, hk, hk, .inl h⟩

/-- The state is read last. -/
theorem Reads.sawShort (h : run.Reads i stored) (hshort : stored.any ((run.states j).required ≤ ·) = false)
    (hstate : (run.states k).state ≠ verified) (hi : i ≤ k) (hj : j ≤ k) :
    run.SawShort (k + 1) (run.states j).required := by
  refine ⟨i, j, by omega, by omega, rfl, fun confirmations hnow => ?_, fun m hm hverified => ?_⟩
  · rw [h.found confirmations hnow, Option.any_some, decide_eq_false_iff_not] at hshort
    exact UInt64.not_le.mp hshort
  · exact hstate ((run.later (by omega : m ≤ k)).stays hverified)

/-- A packet that is committed, or has a record that meets every requirement there was, is not seen short. -/
theorem not_sawShort (h : ∀ i < n, (run.states i).state = verified ∨ ∀ j < n,
    ∃ confirmations, (run.states i).record = .some confirmations ∧ (run.states j).required ≤ confirmations) :
    ¬ run.SawShort n required := by
  rintro ⟨i, j, hi, hj, rfl, hshort, hnot⟩
  rcases h i hi with hverified | hmet
  · exact hnot i hi hverified
  · obtain ⟨confirmations, hnow, hle⟩ := hmet j hj
    exact absurd hle (UInt64.not_le.mpr (hshort confirmations hnow))

end Run

end Pillar.UlnRun
