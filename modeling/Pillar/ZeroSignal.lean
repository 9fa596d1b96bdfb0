/-
The loop that tells "nobody answered" apart from other failures
(`pillar-runtime`, `provider_health/quorum.rs`), and exactly when that signal
is the one every arrival order gives.

The loop stops once the answers still out cannot make a quorum, so a prefix of
failures may end it before a success is read. Whether it did is a matter of the
order: `zeroSignalLoop_zero_iff` says which prefixes end a run in the signal.
-/
import Pillar.QuorumFacts

namespace Pillar.Quorum

open Std (TreeMap TreeSet)
open Strategy

variable {T ε δ : Type}

/-! ## The code -/

inductive QuorumResolutionFailure where
  | zeroSuccessfulResponses
  | other (error : AppCoreError)
  deriving Repr, DecidableEq

/-- `Result::map_err`. -/
def mapErr (f : ε → δ) {α : Type} : Exec ε α → Exec δ α
  | .ok a => .ok a
  | .error (.err e) => Exec.err (f e)
  | .error .panic => .error .panic
  | .error .fuel => .error .fuel

@[simp] theorem mapErr_ok (f : ε → δ) {α : Type} (a : α) : mapErr f (.ok a : Exec ε α) = .ok a := rfl
@[simp] theorem mapErr_err (f : ε → δ) {α : Type} (e : ε) : mapErr f (Exec.err e : Exec ε α) = Exec.err (f e) := rfl

namespace ExactQuorumAccumulator

def successfulVoterCount (acc : ExactQuorumAccumulator T) : Nat :=
  (acc.voters.toList.map fun (_, candidate) => candidate.indices.size).sum

/-- What the loop returns once it is over. -/
def conclude (acc : ExactQuorumAccumulator T) (context : String) : Exec QuorumResolutionFailure T :=
  let zeroSuccessful := acc.successfulVoterCount = 0
  mapErr (fun error => match error with
    | .admission _ => .other error
    | _ => if zeroSuccessful then .zeroSuccessfulResponses else .other error) (acc.finish context)

end ExactQuorumAccumulator

/-- `while let Some((index, observation)) = requests.next().await`. -/
def zeroSignalLoop (context : String) :
    List (Nat × Observation T) → ExactQuorumAccumulator T → Exec QuorumResolutionFailure T
  | [], acc => acc.conclude context
  | (index, observation) :: requests, acc => do
    let acc ← mapErr .other (acc.recordResult index observation)
    match ← acc.unambiguousResult with
    | (.some result, _) => return result
    | (.none, acc) =>
      if ← acc.canReachQuorum then zeroSignalLoop context requests acc
      else acc.conclude context

def resolveProviderQuorumWithZeroSignal (requests : List (Nat × Observation T)) (total : Nat)
    (quorum : ProviderConfig) (context : String) : Exec QuorumResolutionFailure T :=
  zeroSignalLoop context requests (.new quorum (List.range total))

/-! ## Quiet answers -/

/-- An answer that is counted as an error: no vote, and nothing deferred. -/
def Quiet : Observation T → Prop
  | .ok .none | .error (.remote _) | .error .unavailable => True
  | _ => False

instance : DecidablePred (Quiet (T := T))
  | .ok .none | .error (.remote _) | .error .unavailable => .isTrue trivial
  | .ok (.some _) | .error (.admission _) | .error (.configuration _) => .isFalse id

variable {config : ProviderConfig} {answers : Nat → Observation T} {dispatched seen : List Nat}
  {acc : ExactQuorumAccumulator T}

/-- Beside the votes: nobody's answer was a configuration error, and what was
deferred is an admission error of one of `seen`. -/
structure Heard (answers : Nat → Observation T) (seen : List Nat) (acc : ExactQuorumAccumulator T) : Prop where
  recoverable : ∀ i ∈ seen, Recoverable (answers i)
  deferred : acc.deferred = .none ↔ ∀ i ∈ seen, ∀ e, answers i ≠ .error (.admission e)

theorem heard_new : Heard answers [] (.new config dispatched) := ⟨by simp, by simp [ExactQuorumAccumulator.new]⟩

/-- Quiet is: recoverable, without a vote, and not an admission error. -/
theorem quiet_iff {o : Observation T} :
    Quiet o ↔ Recoverable o ∧ voteOf o = .none ∧ ∀ e, o ≠ .error (.admission e) := by
  match o with
  | .ok .none | .ok (.some _) => simp [Quiet, Recoverable, voteOf]
  | .error (.remote _) | .error .unavailable | .error (.admission _) | .error (.configuration _) =>
    simp [Quiet, Recoverable, voteOf]

theorem Heard.record {i : Nat} {acc' : ExactQuorumAccumulator T} (h : Heard answers seen acc)
    (hacc : acc.recordResult i (answers i) = .ok acc') : Heard answers (seen ++ [i]) acc' := by
  have hnext : Recoverable (answers i) ∧
      (acc'.deferred = .none ↔ acc.deferred = .none ∧ ∀ e, answers i ≠ .error (.admission e)) := by
    match ha : answers i with
    | .ok o =>
      rw [ha] at hacc
      cases hacc
      cases o <;> simp [Recoverable, ExactQuorumAccumulator.record]
    | .error (.admission e) =>
      rw [ha] at hacc
      cases hacc
      simp [Recoverable]
    | .error (.remote e) | .error .unavailable =>
      rw [ha] at hacc
      cases hacc
      simp [Recoverable, ExactQuorumAccumulator.record]
    | .error (.configuration e) =>
      rw [ha] at hacc
      cases hacc
  constructor
  · intro j hj
    rcases List.mem_append.mp hj with hj | hj
    · exact h.recoverable j hj
    · rw [List.mem_singleton.mp hj]
      exact hnext.1
  · rw [hnext.2, h.deferred]
    simp only [List.mem_append, List.mem_singleton, or_imp, forall_and, forall_eq]

/-- All that answered was quiet: nobody voted and nothing was deferred. -/
theorem Heard.quiet_iff (h : Heard answers seen acc) :
    (∀ i ∈ seen, Quiet (answers i)) ↔ (∀ i ∈ seen, voteOf (answers i) = .none) ∧ acc.deferred = .none := by
  rw [h.deferred]
  constructor
  · intro hq
    exact ⟨fun i hi => (Quorum.quiet_iff.mp (hq i hi)).2.1, fun i hi => (Quorum.quiet_iff.mp (hq i hi)).2.2⟩
  · intro ⟨hv, hd⟩ i hi
    exact Quorum.quiet_iff.mpr ⟨h.recoverable i hi, hv i hi, hd i hi⟩

/-! ## Without a vote -/

theorem votersFor_eq_nil_of_silent (hv : ∀ i ∈ seen, voteOf (answers i) = .none) (fp : String) :
    votersFor answers seen fp = [] := by
  refine List.eq_nil_iff_forall_not_mem.mpr fun i hi => ?_
  obtain ⟨hin, v, hiv⟩ := mem_votersFor.mp hi
  rw [hv i hin] at hiv
  cases hiv

theorem Recorded.not_mem_voters (h : Recorded config answers dispatched seen acc)
    (hv : ∀ i ∈ seen, voteOf (answers i) = .none) (fp : String) : fp ∉ acc.voters := fun hin => by
  obtain ⟨c, hc⟩ := Option.isSome_iff_exists.mp (TreeMap.mem_iff_isSome_getElem?.mp hin)
  obtain ⟨i, hi, hiv⟩ := h.value fp c hc
  rw [hv i hi] at hiv
  cases hiv

theorem candidates_of_silent (h : Recorded config answers dispatched seen acc)
    (hv : ∀ i ∈ seen, voteOf (answers i) = .none) : (acc.candidates : Exec ε (List String)) = .ok [] := by
  obtain ⟨cs, hcs, -, hmem⟩ := candidates_iff (ε := ε) h
  rw [hcs, List.eq_nil_iff_forall_not_mem.mpr fun fp hfp => h.not_mem_voters hv fp ((hmem fp).mp hfp).1]

theorem unambiguousResult_of_silent (h : Recorded config answers dispatched seen acc)
    (hv : ∀ i ∈ seen, voteOf (answers i) = .none) :
    (acc.unambiguousResult : Exec ε (Option T × ExactQuorumAccumulator T)) = .ok (.none, acc) := by
  simp only [ExactQuorumAccumulator.unambiguousResult, candidates_of_silent h hv, Exec.ok_bind]
  rfl

theorem unambiguousResult_keeps (h : Recorded config answers dispatched seen acc) :
    ∃ r, (acc.unambiguousResult : Exec ε (Option T × ExactQuorumAccumulator T)) = .ok r ∧
      (r.1 = .none → r.2 = acc) := by
  obtain ⟨cs, hcs, -, hmem⟩ := candidates_iff (ε := ε) h
  simp only [ExactQuorumAccumulator.unambiguousResult, hcs, Exec.ok_bind, h.rule]
  split
  · next fp =>
    obtain ⟨c, hc⟩ := Option.isSome_iff_exists.mp
      (TreeMap.mem_iff_isSome_getElem?.mp ((hmem fp).mp List.mem_cons_self).1)
    obtain ⟨b, hb, -⟩ := isMetBy_spec (ε := ε) config acc.pending.toList
    rw [hb, Exec.ok_bind]
    cases b with
    | true => exact ⟨(.none, acc), rfl, fun _ => rfl⟩
    | false =>
    obtain ⟨b, hb, -⟩ := othersReach_decides (ε := ε) h fp
    simp only [Bool.false_eq_true, if_false]
    rw [hb, Exec.ok_bind]
    cases b with
    | true => exact ⟨(.none, acc), rfl, fun _ => rfl⟩
    | false => exact ⟨_, rfl, fun hnone => by simp [hc] at hnone⟩
  · exact ⟨(.none, acc), rfl, fun _ => rfl⟩

/-- Nobody voted exactly when no successful voter is counted. -/
theorem Recorded.successfulVoterCount_eq_zero (h : Recorded config answers dispatched seen acc) :
    acc.successfulVoterCount = 0 ↔ ∀ i ∈ seen, voteOf (answers i) = .none := by
  have hsizes : acc.successfulVoterCount = 0 ↔
      ∀ (fp : String) (c : QuorumCandidate T), acc.voters[fp]? = .some c → c.indices.size = 0 := by
    simp only [ExactQuorumAccumulator.successfulVoterCount, List.sum_eq_zero_iff, List.forall_mem_map, Prod.forall,
      TreeMap.mem_toList_iff_getElem?_eq_some]
  rw [hsizes]
  constructor
  · intro hsize i hi
    match hiv : voteOf (answers i) with
    | .none => rfl
    | .some (fp, v) =>
      obtain ⟨c, hc⟩ := Option.isSome_iff_exists.mp (TreeMap.mem_iff_isSome_getElem?.mp (h.voted i hi fp v hiv))
      have hin : i ∈ c.indices := (h.indices fp c hc i).mpr (mem_votersFor.mpr ⟨hi, v, hiv⟩)
      have hempty := TreeSet.isEmpty_eq_size_eq_zero (t := c.indices)
      rw [hsize fp c hc, beq_self_eq_true, TreeSet.isEmpty_iff_forall_not_mem] at hempty
      exact absurd hin (hempty i)
  · intro hv fp c hc
    exact absurd (TreeMap.mem_iff_isSome_getElem?.mpr (by rw [hc]; rfl)) (h.not_mem_voters hv fp)

theorem finish_of_silent (h : Recorded config answers dispatched seen acc)
    (hv : ∀ i ∈ seen, voteOf (answers i) = .none) (context : String) :
    ∃ e, acc.finish context = Exec.err e ∧ ((∃ b, e = .admission b) ↔ acc.deferred ≠ .none) := by
  have hsize : acc.voters.size ≤ 1 := by
    have hempty : acc.voters.isEmpty = true :=
      TreeMap.isEmpty_iff_forall_not_mem.mpr fun fp => h.not_mem_voters hv fp
    rw [TreeMap.isEmpty_eq_size_eq_zero, beq_iff_eq] at hempty
    omega
  simp only [ExactQuorumAccumulator.finish, candidates_of_silent h hv, Exec.ok_bind, List.isEmpty_nil, hsize,
    decide_true, Bool.and_self]
  cases acc.deferred with
  | none => exact ⟨_, rfl, by simp⟩
  | some b => exact ⟨_, rfl, by simp⟩

/-- The run ends in the signal exactly when all it has read was quiet. -/
theorem conclude_zero_iff (h : Recorded config answers dispatched seen acc) (hh : Heard answers seen acc)
    (context : String) :
    acc.conclude context = Exec.err .zeroSuccessfulResponses ↔ ∀ i ∈ seen, Quiet (answers i) := by
  rw [hh.quiet_iff]
  by_cases hv : ∀ i ∈ seen, voteOf (answers i) = .none
  · obtain ⟨e, he, hadm⟩ := finish_of_silent h hv context
    simp only [ExactQuorumAccumulator.conclude, he, mapErr_err, h.successfulVoterCount_eq_zero.mpr hv, if_true,
      and_iff_right hv]
    cases e with
    | admission b => simpa [Exec.err] using hadm.mp ⟨b, rfl⟩
    | badRequest _ | unresolvableCommand _ | internal _ => simpa using hadm
  · have hcount : acc.successfulVoterCount ≠ 0 := mt h.successfulVoterCount_eq_zero.mp hv
    simp only [hv, false_and, iff_false, ExactQuorumAccumulator.conclude, hcount, if_false]
    cases acc.finish context with
    | ok v => simp [Exec.err]
    | error halt =>
      cases halt with
      | err e => cases e <;> simp [mapErr, Exec.err]
      | panic | fuel => simp [mapErr, Exec.err]

/-! ## The loop -/

/-- `dispatched` without those heard from. -/
def waiting (dispatched seen : List Nat) : List Nat := dispatched.filter (· ∉ seen)

theorem mem_waiting {i : Nat} : i ∈ waiting dispatched seen ↔ i ∈ dispatched ∧ i ∉ seen := by
  simp [waiting]

/-- With nobody having voted, a quorum is in reach while those awaited would make one. -/
theorem canReachQuorum_of_silent (h : Recorded config answers dispatched seen acc)
    (hv : ∀ i ∈ seen, voteOf (answers i) = .none) :
    (acc.canReachQuorum : Exec ε Bool).Decides (MetBy config (waiting dispatched seen)) := by
  refine (canReachQuorum_spec h).congr ?_
  have hpending : MetBy config acc.pending.toList ↔ MetBy config (waiting dispatched seen) :=
    metBy_congr fun i => by rw [TreeSet.mem_toList, h.pending, mem_waiting]
  simp only [votersFor_eq_nil_of_silent hv, List.nil_append, exists_const, hpending]

/-- `before`, read first, is all quiet and ends the run: nothing comes after
it, or those still awaited would not make a quorum. -/
def StopsQuiet (config : ProviderConfig) (answers : Nat → Observation T) (dispatched seen before after : List Nat) :
    Prop :=
  (∀ i ∈ seen ++ before, Quiet (answers i)) ∧
    (after = [] ∨ before ≠ [] ∧ ¬ MetBy config (waiting dispatched (seen ++ before)))

/-- **When a run ends in the signal**: a first part of the answers is all quiet
and ends it. -/
theorem zeroSignalLoop_zero_iff {context : String} :
    ∀ {rest seen : List Nat} {acc : ExactQuorumAccumulator T}, Recorded config answers dispatched seen acc →
      Heard answers seen acc →
      (zeroSignalLoop context (rest.map fun i => (i, answers i)) acc = Exec.err .zeroSuccessfulResponses ↔
        ∃ before after, rest = before ++ after ∧ StopsQuiet config answers dispatched seen before after)
  | [], seen, acc, h, hh => by
    rw [List.map_nil, zeroSignalLoop, conclude_zero_iff h hh]
    constructor
    · intro hq
      exact ⟨[], [], rfl, by simpa using hq, .inl rfl⟩
    · rintro ⟨before, after, hsplit, hq, -⟩ i hi
      exact hq i (List.mem_append_left _ hi)
  | i :: rest, seen, acc, h, hh => by
    -- Whatever part ends the run, its first answer is quiet.
    have hfirst : ∀ {before after : List Nat}, i :: rest = before ++ after →
        StopsQuiet config answers dispatched seen before after →
        ∃ before', before = i :: before' ∧ rest = before' ++ after := fun {before after} hsplit hstop => by
      cases before with
      | nil =>
        rcases hstop.2 with rfl | ⟨hne, -⟩
        · cases hsplit
        · exact absurd rfl hne
      | cons j before' =>
        cases hsplit
        exact ⟨before', rfl, rfl⟩
    have happend : ∀ before, seen ++ i :: before = seen ++ [i] ++ before := fun before => by simp
    by_cases hq : ∀ j ∈ seen ++ [i], Quiet (answers j)
    · -- Nothing but quiet answers: on while those awaited would make a quorum.
      have hrec := (quiet_iff.mp (hq i (by simp))).1
      obtain ⟨acc', hacc, h'⟩ := recordResult_spec h hrec
      have hh' := hh.record hacc
      have hv := (hh'.quiet_iff.mp hq).1
      obtain ⟨b, hb, hreach⟩ := canReachQuorum_of_silent (ε := QuorumResolutionFailure) h' hv
      simp only [List.map_cons, zeroSignalLoop, hacc, mapErr_ok, Exec.ok_bind, unambiguousResult_of_silent h' hv, hb]
      cases b with
      | true =>
        rw [if_pos rfl, zeroSignalLoop_zero_iff h' hh']
        constructor
        · rintro ⟨before, after, rfl, hquiet, hend⟩
          refine ⟨i :: before, after, rfl, ?_, ?_⟩
          · rwa [happend]
          · rw [happend]
            exact hend.imp_right fun hn => ⟨List.cons_ne_nil _ _, hn.2⟩
        · rintro ⟨before, after, hsplit, hstop⟩
          obtain ⟨before', rfl, hrest⟩ := hfirst hsplit hstop
          rw [StopsQuiet, happend] at hstop
          refine ⟨before', after, hrest, hstop.1, hstop.2.imp_right fun hn => ⟨?_, hn.2⟩⟩
          rintro rfl
          rw [List.append_nil] at hn
          exact hn.2 (hreach.mp rfl)
      | false =>
        rw [if_neg Bool.false_ne_true, conclude_zero_iff h' hh']
        refine iff_of_true hq ⟨[i], rest, rfl, hq, .inr ⟨List.cons_ne_nil _ _, ?_⟩⟩
        exact fun hm => Bool.noConfusion (hreach.mpr hm)
    · -- A vote or an admission error was read, and no later answer takes it back.
      have hright : ¬ ∃ before after, i :: rest = before ++ after ∧
          StopsQuiet config answers dispatched seen before after := by
        rintro ⟨before, after, hsplit, hstop⟩
        obtain ⟨before', rfl, -⟩ := hfirst hsplit hstop
        rw [StopsQuiet, happend] at hstop
        exact hq fun j hj => hstop.1 j (List.mem_append_left _ hj)
      refine iff_of_false (fun hzero => ?_) hright
      simp only [List.map_cons, zeroSignalLoop] at hzero
      cases hacc : acc.recordResult i (answers i) with
      | error halt =>
        rw [hacc] at hzero
        match halt with
        | .err e => cases hzero
        | .panic | .fuel => cases hzero
      | ok acc' =>
      have h' := recordResult_ok h hacc
      have hh' := hh.record hacc
      rw [hacc, mapErr_ok, Exec.ok_bind] at hzero
      obtain ⟨⟨r, acc''⟩, hr, hkeep⟩ := unambiguousResult_keeps (ε := QuorumResolutionFailure) h'
      rw [hr, Exec.ok_bind] at hzero
      cases r with
      | some v => cases hzero
      | none =>
      obtain rfl : acc'' = acc' := hkeep rfl
      obtain ⟨b, hb, -⟩ := canReachQuorum_spec (ε := QuorumResolutionFailure) h'
      simp only [hb, Exec.ok_bind] at hzero
      cases b with
      | true =>
        obtain ⟨before, after, -, hstop⟩ := (zeroSignalLoop_zero_iff h' hh').mp hzero
        exact hq fun j hj => hstop.1 j (List.mem_append_left _ hj)
      | false => exact hq ((conclude_zero_iff h' hh' context).mp hzero)

/-- Without a vote every run fails. -/
theorem zeroSignalLoop_fails {context : String} :
    ∀ {rest seen : List Nat} {acc : ExactQuorumAccumulator T}, Recorded config answers dispatched seen acc →
      (∀ i ∈ seen ++ rest, voteOf (answers i) = .none) →
      ∃ f, zeroSignalLoop context (rest.map fun i => (i, answers i)) acc = Exec.err f
  | [], seen, acc, h, hv => by
    obtain ⟨e, he, -⟩ := finish_of_silent h (by simpa using hv) context
    exact ⟨_, by rw [List.map_nil, zeroSignalLoop, ExactQuorumAccumulator.conclude, he, mapErr_err]⟩
  | i :: rest, seen, acc, h, hv => by
    have happend : seen ++ i :: rest = seen ++ [i] ++ rest := by simp
    rw [happend] at hv
    cases hacc : acc.recordResult i (answers i) with
    | error halt =>
      obtain ⟨e, rfl⟩ : ∃ e, halt = .err e := by
        match ha : answers i with
        | .error (.configuration e) =>
          rw [ha] at hacc
          cases hacc
          exact ⟨_, rfl⟩
        | .ok _ | .error (.admission _) | .error (.remote _) | .error .unavailable =>
          rw [ha] at hacc
          cases hacc
      exact ⟨.other e, by simp only [List.map_cons, zeroSignalLoop, hacc]; rfl⟩
    | ok acc' =>
    have h' := recordResult_ok h hacc
    have hv' : ∀ j ∈ seen ++ [i], voteOf (answers j) = .none := fun j hj => hv j (List.mem_append_left _ hj)
    obtain ⟨b, hb, -⟩ := canReachQuorum_of_silent (ε := QuorumResolutionFailure) h' hv'
    simp only [List.map_cons, zeroSignalLoop, hacc, mapErr_ok, Exec.ok_bind, unambiguousResult_of_silent h' hv', hb]
    cases b with
    | true => exact zeroSignalLoop_fails h' hv
    | false =>
      obtain ⟨e, he, -⟩ := finish_of_silent h' hv' context
      exact ⟨_, by rw [if_neg Bool.false_ne_true, ExactQuorumAccumulator.conclude, he, mapErr_err]⟩

/-! ## Every order -/

section
variable (config : ProviderConfig) (total : Nat) (context : String) (answers : Nat → Observation T)

/-- A call to which `answers` arrive in `order`. -/
def arriving (order : List Nat) : Exec QuorumResolutionFailure T :=
  resolveProviderQuorumWithZeroSignal (order.map fun i => (i, answers i)) total config context

/-- The failure of a call does not depend on the order in which `dispatched`
answer, and the signal means that none of them voted. -/
structure SignalIgnoresOrder (dispatched : List Nat) : Prop where
  sameKind : ∀ order order' : List Nat, order.Perm dispatched → order'.Perm dispatched →
    ∀ f f', arriving config total context answers order = Exec.err f →
      arriving config total context answers order' = Exec.err f' →
      (f = .zeroSuccessfulResponses ↔ f' = .zeroSuccessfulResponses)
  noVote : ∀ order : List Nat, order.Perm dispatched →
    arriving config total context answers order = Exec.err .zeroSuccessfulResponses →
    ∀ i ∈ dispatched, ∀ observed, answers i ≠ .ok (.some observed)

end

section
variable {total : Nat} {context : String} {order : List Nat}

theorem arriving_zero_iff : arriving config total context answers order = Exec.err .zeroSuccessfulResponses ↔
    ∃ before after, order = before ++ after ∧ StopsQuiet config answers (List.range total) [] before after :=
  zeroSignalLoop_zero_iff recorded_new heard_new

theorem arriving_zero_of_quiet (hq : ∀ i ∈ order, Quiet (answers i)) :
    arriving config total context answers order = Exec.err .zeroSuccessfulResponses :=
  arriving_zero_iff.mpr ⟨order, [], (List.append_nil _).symm, hq, .inl rfl⟩

/-- An order whose first answer is not quiet does not end in the signal. -/
theorem arriving_ne_zero_of_head {i : Nat} {rest : List Nat} (hi : ¬ Quiet (answers i)) :
    arriving config total context answers (i :: rest) ≠ Exec.err .zeroSuccessfulResponses := fun hzero => by
  obtain ⟨before, after, hsplit, hq, hend⟩ := arriving_zero_iff.mp hzero
  cases before with
  | nil =>
    rcases hend with rfl | ⟨hne, -⟩
    · cases hsplit
    · exact hne rfl
  | cons j before =>
    cases hsplit
    exact hi (hq _ (by simp))

/-- Enough providers are left to make a quorum without the quiet ones, so no
run is over before an answer that is not quiet. -/
theorem arriving_ne_zero_of_met {loud : Nat} (hloud : loud ∈ order) (hl : ¬ Quiet (answers loud))
    (hm : MetBy config (waiting (List.range total) (order.filter fun i => Quiet (answers i)))) :
    arriving config total context answers order ≠ Exec.err .zeroSuccessfulResponses := fun hzero => by
  obtain ⟨before, after, rfl, hq, hend⟩ := arriving_zero_iff.mp hzero
  rw [List.nil_append] at hq hend
  rcases hend with rfl | ⟨-, hn⟩
  · exact hl (hq loud (by simpa using hloud))
  · refine hn (hm.mono fun i hi => ?_)
    obtain ⟨hir, hin⟩ := mem_waiting.mp hi
    refine mem_waiting.mpr ⟨hir, fun hib => hin ?_⟩
    exact List.mem_filter.mpr ⟨List.mem_append_left _ hib, by simpa using hq i hib⟩

end

/-- **When the signal does not depend on the order.** Either every answer is
quiet, or none is, or without the quiet ones the configured providers still
make a quorum; otherwise an order that puts the quiet answers first ends in the
signal, and one that puts another first does not. -/
theorem signalIgnoresOrder_iff (config : ProviderConfig) (total : Nat) (context : String)
    (answers : Nat → Observation T) (dispatched : List Nat) :
    SignalIgnoresOrder config total context answers dispatched ↔
      (∀ i ∈ dispatched, Quiet (answers i)) ∨ (∀ i ∈ dispatched, ¬ Quiet (answers i)) ∨
        MetBy config (waiting (List.range total) (dispatched.filter fun i => Quiet (answers i))) := by
  constructor
  · intro h
    by_contra hno
    simp only [not_or, not_forall, Classical.not_not] at hno
    obtain ⟨⟨loud, hloud, hl⟩, ⟨quiet, hquiet, hq⟩, hnm⟩ := hno
    let quietFirst := dispatched.filter (fun i => Quiet (answers i)) ++
      dispatched.filter fun i => !decide (Quiet (answers i))
    have hperm : quietFirst.Perm dispatched := List.filter_append_perm _ _
    have hzero : arriving config total context answers quietFirst = Exec.err .zeroSuccessfulResponses := by
      refine arriving_zero_iff.mpr ⟨_, _, rfl, fun i hi => ?_, .inr ⟨?_, hnm⟩⟩
      · simpa using (List.mem_filter.mp hi).2
      · exact List.ne_nil_of_mem (List.mem_filter.mpr ⟨hquiet, by simpa using hq⟩)
    -- Nobody voted, so the order that starts with a deferred or fatal answer fails too.
    have hvote : ∀ i ∈ loud :: dispatched.erase loud, voteOf (answers i) = .none := fun i hi => by
      have hin : i ∈ dispatched := (List.perm_cons_erase hloud).mem_iff.mpr hi
      rw [Option.eq_none_iff_forall_ne_some]
      exact fun observed hobs => h.noVote _ hperm hzero i hin observed (voteOf_eq_some.mp hobs)
    obtain ⟨f, hf⟩ : ∃ f, arriving config total context answers (loud :: dispatched.erase loud) = Exec.err f :=
      zeroSignalLoop_fails recorded_new hvote
    have hsame := h.sameKind _ _ hperm (List.perm_cons_erase hloud).symm _ f hzero hf
    rw [hsame.mp rfl] at hf
    exact arriving_ne_zero_of_head hl hf
  · intro hcond
    -- Every run ends in the signal, or none does.
    have hall : (∀ i ∈ dispatched, Quiet (answers i)) ∨ ∀ order : List Nat, order.Perm dispatched →
        arriving config total context answers order ≠ Exec.err .zeroSuccessfulResponses := by
      by_cases hq : ∀ i ∈ dispatched, Quiet (answers i)
      · exact .inl hq
      refine .inr fun order hperm => ?_
      obtain ⟨loud, hloud, hl⟩ : ∃ i ∈ dispatched, ¬ Quiet (answers i) := by simpa using hq
      rcases hcond with hcond | hcond | hcond
      · exact absurd hcond hq
      · cases order with
        | nil => cases hperm.mem_iff.mpr hloud
        | cons i rest => exact arriving_ne_zero_of_head (hcond i (hperm.mem_iff.mp List.mem_cons_self))
      · refine arriving_ne_zero_of_met (hperm.mem_iff.mpr hloud) hl ((metBy_congr fun i => ?_).mp hcond)
        simp only [mem_waiting, List.mem_filter, hperm.mem_iff]
    rcases hall with hq | hne
    · have hzero : ∀ order : List Nat, order.Perm dispatched →
          arriving config total context answers order = Exec.err .zeroSuccessfulResponses :=
        fun order hperm => arriving_zero_of_quiet fun i hi => hq i (hperm.mem_iff.mp hi)
      constructor
      · intro order order' hperm hperm' f f' hf hf'
        rw [hzero order hperm] at hf
        rw [hzero order' hperm'] at hf'
        cases hf
        cases hf'
        rfl
      · intro order hperm _ i hi observed hobs
        have := (quiet_iff.mp (hq i hi)).2.1
        rw [hobs] at this
        cases this
    · constructor
      · intro order order' hperm hperm' f f' hf hf'
        refine iff_of_false ?_ ?_
        · rintro rfl
          exact hne order hperm hf
        · rintro rfl
          exact hne order' hperm' hf'
      · intro order hperm hzero
        exact absurd hzero (hne order hperm)

/-- Two of three providers are offline and the third finds the block. -/
def oneFound (i : Nat) : Observation Nat := if i = 2 then .ok (.some ("found", 7)) else .error (.remote "offline")

/-- The two that are offline answer first: the run ends in the signal and the
third answer is never read. Read first, the same answer makes another failure. -/
theorem oneFound_order :
    arriving twoOfThree 3 "test" oneFound [0, 1, 2] = Exec.err .zeroSuccessfulResponses ∧
    arriving twoOfThree 3 "test" oneFound [2, 0, 1] = Exec.err (.other (.internal
      ("No test quorum: response set is ambiguous or incomplete; 1 distinct successful responses, 2 errors"))) ∧
    ¬ SignalIgnoresOrder twoOfThree 3 "test" oneFound [0, 1, 2] :=
  ⟨by decide, by decide, fun h =>
    h.noVote [0, 1, 2] (List.Perm.refl _) (by decide) 2 (by decide) ("found", 7) (by decide)⟩

end Pillar.Quorum
