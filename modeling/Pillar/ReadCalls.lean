/-
The calls of one READ command phase (`pillar-runtime`, `read_payload.rs`): a
window of them in flight, each result charged against the phase's budget as it
arrives, and the results put back into command order at the end.

A call is what it ends with. Which call in flight ends next is the executor's
choice: at its n-th choice the `pick n`-th of them, counted round and round, so
every order is some `pick`.
-/
import Pillar.Core

namespace Pillar.ReadCalls

variable {R : Type}

/-! ## The budget -/

def maxReadResultBytes : Nat := 1024 * 1024

/-- The bytes a hex text stands for. -/
def hexBytes (hex : String) : Nat := hex.utf8ByteSize / 2

def tooManyBytes (phase : String) : AppCoreError :=
  .unresolvableCommand ("ReadV1002 command is unresolvable: " ++ phase ++ " exceed " ++
    toString maxReadResultBytes ++ " bytes")

/-- The counter after the charge, which stays even where the charge is refused. -/
def chargeReadResults (used : Nat) (hex phase : String) : Nat × Except AppCoreError Unit :=
  let total := used + hexBytes hex
  (total, if total > maxReadResultBytes then .error (tooManyBytes phase) else .ok ())

/-- A phase: its name in an error, and the text of a result that is charged. -/
structure Phase (R : Type) where
  name : String
  hex : R → String

def Phase.bytes (phase : Phase R) (result : R) : Nat := hexBytes (phase.hex result)

/-! ## The window -/

/-- A call with its place in the command. -/
abbrev Call (R : Type) := Nat × Except AppCoreError R

structure State (R : Type) where
  pending : List (Call R)
  running : List (Call R)
  used : Nat
  results : List (Nat × R)

def enumerate (calls : List (Except AppCoreError R)) : List (Call R) := (List.range calls.length).zip calls

def State.start (calls : List (Except AppCoreError R)) (limit : Nat) : State R where
  pending := (enumerate calls).drop limit
  running := (enumerate calls).take limit
  used := 0
  results := []

/-- `if let Some((index, call)) = pending.next() { running.push(..) }`. -/
def State.refill (s : State R) : State R :=
  match s.pending with
  | [] => s
  | call :: pending => { s with pending, running := s.running ++ [call] }

/-- The `k`-th call in flight ends: with the call's error, with the refusal of
its charge, or with its result kept and the next call started. -/
def State.complete (phase : Phase R) (s : State R) (k : Nat) : State R × Except AppCoreError Unit :=
  match s.running[k]? with
  | .none => (s, .ok ())
  | .some (index, call) =>
    let s := { s with running := s.running.eraseIdx k }
    match call with
    | .error error => (s, .error error)
    | .ok result =>
      match chargeReadResults s.used (phase.hex result) phase.name with
      | (used, .error error) => ({ s with used }, .error error)
      | (used, .ok ()) => (State.refill { s with used, results := s.results ++ [(index, result)] }, .ok ())

/-- `results.sort_unstable_by_key(|(index, _)| *index)`; no two indices are the
same, so there is one sorted order. -/
def inOrder (results : List (Nat × R)) : List R :=
  (results.mergeSort fun a b => a.1 ≤ b.1).map Prod.snd

/-- `while let Some(completion) = running.next().await`: the states gone
through, and what is returned. -/
def drive (phase : Phase R) (pick : Nat → Nat) : Nat → Nat → State R → List (State R) × Exec AppCoreError (List R)
  | 0, _, s => ([s], .error .fuel)
  | fuel + 1, n, s =>
    if s.running.isEmpty then ([s], .ok (inOrder s.results))
    else
      match s.complete phase (pick n % s.running.length) with
      | (s', .error error) => ([s, s'], Exec.err error)
      | (s', .ok ()) =>
        let (states, out) := drive phase pick fuel (n + 1) s'
        (s :: states, out)

/-- Each turn ends one call, and the last finds none in flight. -/
def inCommandOrder (phase : Phase R) (calls : List (Except AppCoreError R)) (limit : Nat) (pick : Nat → Nat) :
    List (State R) × Exec AppCoreError (List R) :=
  drive phase pick (calls.length + 1) 0 (.start calls limit)

/-! ## What is kept -/

def State.keptBytes (phase : Phase R) (s : State R) : Nat := (s.results.map fun r => phase.bytes r.2).sum

/-- A result as the call it ended. -/
def kept (r : Nat × R) : Call R := (r.1, .ok r.2)

/-- What a call adds to the total when it succeeds. -/
def weight (phase : Phase R) : Call R → Nat
  | (_, .ok result) => phase.bytes result
  | (_, .error _) => 0

/-- All calls succeed, and their results fit the budget. -/
def Succeeds (phase : Phase R) (calls : List (Except AppCoreError R)) (results : List R) : Prop :=
  calls = results.map .ok ∧ (results.map phase.bytes).sum ≤ maxReadResultBytes

variable {phase : Phase R} {calls : List (Except AppCoreError R)} {limit : Nat} {s s' : State R}

/-- Every call is in one place, what is kept is what was charged, and the window
is full as long as calls wait for it. -/
structure Inv (phase : Phase R) (calls : List (Except AppCoreError R)) (limit : Nat) (s : State R) : Prop where
  places : (s.results.map kept ++ s.running ++ s.pending).Perm (enumerate calls)
  window : s.pending ≠ [] → s.running ≠ []
  inFlight : s.running.length ≤ limit
  used : s.used = s.keptBytes phase
  bounded : s.keptBytes phase ≤ maxReadResultBytes

theorem inv_start (hlimit : 1 ≤ limit) : Inv phase calls limit (.start calls limit) where
  places := by simp [State.start]
  window := by
    intro hpending hrunning
    simp only [State.start, List.take_eq_nil_iff] at hrunning
    rcases hrunning with hzero | hnil
    · omega
    · exact hpending (by simp [State.start, hnil])
  inFlight := by
    simp only [State.start, List.length_take]
    omega
  used := rfl
  bounded := Nat.zero_le _

theorem weight_kept (results : List (Nat × R)) :
    ((results.map kept).map (weight phase)).sum = (results.map fun r => phase.bytes r.2).sum := by
  rw [List.map_map]
  rfl

theorem map_snd_enumerate (calls : List (Except AppCoreError R)) : (enumerate calls).map Prod.snd = calls :=
  List.map_snd_zip (by simp)

theorem map_fst_enumerate (calls : List (Except AppCoreError R)) :
    (enumerate calls).map Prod.fst = List.range calls.length :=
  List.map_fst_zip (by simp)

/-- The total of calls that all succeed. -/
theorem weight_enumerate {results : List R} (h : calls = results.map .ok) :
    ((enumerate calls).map (weight phase)).sum = (results.map phase.bytes).sum := by
  have hweight : ∀ call : Call R, weight phase call = (match call.2 with | .ok r => phase.bytes r | .error _ => 0) := by
    intro call
    obtain ⟨i, _ | _⟩ := call <;> rfl
  have hmap : (enumerate calls).map (weight phase) =
      ((enumerate calls).map Prod.snd).map fun call => match call with | .ok r => phase.bytes r | .error _ => 0 := by
    rw [List.map_map]
    exact List.map_congr_left fun call _ => hweight call
  rw [hmap, map_snd_enumerate, h, List.map_map]
  rfl

/-! ## One completion -/

theorem chargeReadResults_eq (used : Nat) (hex name : String) : chargeReadResults used hex name =
    (used + hexBytes hex,
    if used + hexBytes hex > maxReadResultBytes then .error (tooManyBytes name) else .ok ()) := rfl

/-- The places of all calls, with the one that ends in front. -/
theorem Inv.places_at (h : Inv phase calls limit s) {k : Nat} {call : Call R} (hk : s.running[k]? = .some call) :
    (call :: (s.results.map kept ++ s.running.eraseIdx k ++ s.pending)).Perm (enumerate calls) := by
  obtain ⟨hlt, hget⟩ := List.getElem?_eq_some_iff.mp hk
  have hrunning : (call :: s.running.eraseIdx k).Perm s.running := by
    rw [← hget]
    exact List.getElem_cons_eraseIdx_perm hlt
  have hmiddle : (call :: (s.results.map kept ++ s.running.eraseIdx k)).Perm (s.results.map kept ++ s.running) :=
    List.perm_middle.symm.trans (hrunning.append_left _)
  exact (hmiddle.append_right s.pending).trans h.places

/-- A call that failed is the end of it. -/
theorem not_succeeds_of_error (h : Inv phase calls limit s) {k index : Nat} {error : AppCoreError}
    (hk : s.running[k]? = .some (index, .error error)) (results : List R) : ¬ Succeeds phase calls results := by
  intro hs
  have hmem : (index, Except.error error) ∈ enumerate calls := (h.places_at hk).subset List.mem_cons_self
  have hcall : Except.error error ∈ (enumerate calls).map Prod.snd := List.mem_map_of_mem hmem
  rw [map_snd_enumerate, hs.1, List.mem_map] at hcall
  obtain ⟨_, -, hne⟩ := hcall
  cases hne

/-- A charge that is refused is refused in every order: it is part of the total. -/
theorem not_succeeds_of_charge (h : Inv phase calls limit s) {k index : Nat} {result : R}
    (hk : s.running[k]? = .some (index, .ok result)) (hover : s.used + phase.bytes result > maxReadResultBytes)
    (results : List R) : ¬ Succeeds phase calls results := by
  intro hs
  have htotal : ((enumerate calls).map (weight phase)).sum = (results.map phase.bytes).sum := weight_enumerate hs.1
  have hsum := ((h.places_at hk).map (weight phase)).sum_eq
  simp only [List.map_cons, List.map_append, List.sum_cons, List.sum_append, weight_kept] at hsum
  have hresult : weight phase (index, .ok result) = phase.bytes result := rfl
  have hused : s.used = (s.results.map fun r => phase.bytes r.2).sum := h.used
  have hfits := hs.2
  omega

theorem refill_inv (places : (s.results.map kept ++ s.running ++ s.pending).Perm (enumerate calls))
    (inFlight : s.running.length < limit) (used : s.used = s.keptBytes phase)
    (bounded : s.keptBytes phase ≤ maxReadResultBytes) : Inv phase calls limit s.refill := by
  unfold State.refill
  split
  next hnil =>
    exact ⟨places, fun hne => absurd hnil hne, inFlight.le, used, bounded⟩
  next call pending hcons =>
    refine ⟨?_, fun _ => by simp, ?_, used, bounded⟩
    · rw [hcons] at places
      simpa using places
    · simp only [List.length_append, List.length_singleton]
      omega

theorem refill_left (s : State R) :
    s.refill.running.length + s.refill.pending.length = s.running.length + s.pending.length := by
  unfold State.refill
  split
  next => rfl
  next call pending hcons =>
    simp only [hcons, List.length_append, List.length_cons, List.length_nil]
    omega

/-- What one completion does: it keeps the invariant with one call fewer to go,
or it fails, keeping nothing more, and then no order succeeds. -/
theorem complete_cases (h : Inv phase calls limit s) {k : Nat} (hk : k < s.running.length) :
    (∃ s', s.complete phase k = (s', .ok ()) ∧ Inv phase calls limit s' ∧
      s'.running.length + s'.pending.length + 1 = s.running.length + s.pending.length) ∨
    (∃ s' error, s.complete phase k = (s', .error error) ∧ s'.results = s.results ∧
      s'.running.length ≤ limit ∧ ∀ results, ¬ Succeeds phase calls results) := by
  obtain ⟨⟨index, call⟩, hget⟩ : ∃ call, s.running[k]? = .some call := ⟨_, List.getElem?_eq_getElem hk⟩
  have hfewer : (s.running.eraseIdx k).length + 1 = s.running.length := by
    rw [List.length_eraseIdx_of_lt hk]
    omega
  have hinFlight := h.inFlight
  cases call with
  | error error =>
    refine .inr ⟨{ s with running := s.running.eraseIdx k }, error, ?_, rfl, ?_, not_succeeds_of_error h hget⟩
    · simp only [State.complete, hget]
    · simp only
      omega
  | ok result =>
    by_cases hover : s.used + phase.bytes result > maxReadResultBytes
    · refine .inr ⟨{ s with running := s.running.eraseIdx k, used := s.used + phase.bytes result },
        tooManyBytes phase.name, ?_, rfl, ?_, not_succeeds_of_charge h hget hover⟩
      · have hover' : s.used + hexBytes (phase.hex result) > maxReadResultBytes := hover
        simp only [State.complete, hget, chargeReadResults_eq, if_pos hover']
        rfl
      · simp only
        omega
    · let charged : State R :=
        { s with
          running := s.running.eraseIdx k
          used := s.used + phase.bytes result
          results := s.results ++ [(index, result)] }
      have hkept : charged.keptBytes phase = s.keptBytes phase + phase.bytes result := by
        simp [charged, State.keptBytes]
      refine .inl ⟨charged.refill, ?_, refill_inv ?_ ?_ ?_ ?_, ?_⟩
      · have hover' : ¬ s.used + hexBytes (phase.hex result) > maxReadResultBytes := hover
        simp only [State.complete, hget, chargeReadResults_eq, if_neg hover']
        rfl
      · have hplaces := h.places_at hget
        have hmiddle : (charged.results.map kept ++ charged.running ++ charged.pending).Perm
            ((index, .ok result) :: (s.results.map kept ++ s.running.eraseIdx k ++ s.pending)) := by
          simp only [charged, List.map_append, List.map_cons, List.map_nil, List.append_assoc, List.singleton_append]
          exact List.perm_middle
        exact hmiddle.trans hplaces
      · simp only [charged]
        omega
      · rw [hkept, ← h.used]
      · rw [hkept, ← h.used]
        omega
      · rw [refill_left]
        simp only [charged]
        omega

/-! ## Whole runs -/

theorem enumerate_sorted (calls : List (Except AppCoreError R)) :
    (enumerate calls).Pairwise fun a b => a.1 < b.1 := by
  have hfst : ((enumerate calls).map Prod.fst).Pairwise (· < ·) := by
    rw [map_fst_enumerate]
    exact List.pairwise_lt_range
  exact List.pairwise_map.mp hfst

/-- Every call kept: in order they are the command's. -/
theorem inOrder_of_perm {results : List (Nat × R)} (h : (results.map kept).Perm (enumerate calls)) :
    calls = (inOrder results).map .ok := by
  let sorted := results.mergeSort fun a b => a.1 ≤ b.1
  have hperm : (sorted.map kept).Perm (enumerate calls) := ((List.mergeSort_perm results _).map kept).trans h
  have hsorted : (sorted.map kept).Pairwise fun a b => a.1 ≤ b.1 := by
    rw [List.pairwise_map]
    have htrans : ∀ a b c : Nat × R, decide (a.1 ≤ b.1) = true → decide (b.1 ≤ c.1) = true →
        decide (a.1 ≤ c.1) = true := by
      intro a b c hab hbc
      simp only [decide_eq_true_eq] at *
      omega
    have htotal : ∀ a b : Nat × R, (decide (a.1 ≤ b.1) || decide (b.1 ≤ a.1)) = true := by
      intro a b
      simp only [Bool.or_eq_true, decide_eq_true_eq]
      omega
    exact (List.pairwise_mergeSort htrans htotal results).imp fun hle => of_decide_eq_true hle
  have heq : sorted.map kept = enumerate calls := by
    have hplaces : (enumerate calls).Pairwise fun a b => a.1 ≤ b.1 :=
      (enumerate_sorted calls).imp fun hlt => Nat.le_of_lt hlt
    refine List.Perm.eq_of_pairwise ?_ hsorted hplaces hperm
    intro a b ha hb hab hba
    -- Two entries of one place are the same entry.
    have hfst : a.1 = b.1 := Nat.le_antisymm hab hba
    have hinj : Set.InjOn Prod.fst {x | x ∈ enumerate calls} := by
      have hnodup : ((enumerate calls).map Prod.fst).Nodup := by
        rw [map_fst_enumerate]
        exact List.nodup_range
      exact fun x hx y hy hxy => List.inj_on_of_nodup_map hnodup hx hy hxy
    exact hinj (hperm.subset ha) hb hfst
  have hcalls := map_snd_enumerate calls
  rw [← heq, List.map_map] at hcalls
  rw [inOrder, List.map_map]
  exact hcalls.symm

theorem inOrder_bytes (results : List (Nat × R)) :
    ((inOrder results).map phase.bytes).sum = (results.map fun r => phase.bytes r.2).sum := by
  rw [inOrder, List.map_map]
  exact ((List.mergeSort_perm results _).map _).sum_eq

/-- What a run from `s` on ends in. -/
structure Ends (phase : Phase R) (calls : List (Except AppCoreError R)) (limit : Nat)
    (run : List (State R) × Exec AppCoreError (List R)) : Prop where
  states : ∀ s ∈ run.1, s.keptBytes phase ≤ maxReadResultBytes ∧ s.running.length ≤ limit
  out : (∃ results, run.2 = .ok results ∧ Succeeds phase calls results) ∨
    (∃ error, run.2 = Exec.err error ∧ ∀ results, ¬ Succeeds phase calls results)

/-- From any state of the invariant, with a turn for each call left and one to
find none. -/
theorem drive_ends (pick : Nat → Nat) : ∀ (fuel n : Nat) {s : State R}, Inv phase calls limit s →
    s.running.length + s.pending.length < fuel → Ends phase calls limit (drive phase pick fuel n s)
  | 0, _, _, _, hfuel => by omega
  | fuel + 1, n, s, h, hfuel => by
    have hhere : s.keptBytes phase ≤ maxReadResultBytes ∧ s.running.length ≤ limit := ⟨h.bounded, h.inFlight⟩
    rw [drive]
    split
    next hempty =>
      have hrunning : s.running = [] := List.isEmpty_iff.mp hempty
      have hpending : s.pending = [] := by
        by_contra hne
        exact h.window hne hrunning
      have hplaces := h.places
      rw [hrunning, hpending, List.append_nil, List.append_nil] at hplaces
      refine ⟨by simpa using hhere, .inl ⟨inOrder s.results, rfl, inOrder_of_perm hplaces, ?_⟩⟩
      rw [inOrder_bytes]
      exact h.bounded
    next hsome =>
      have hpos : 0 < s.running.length := by
        cases hr : s.running with
        | nil => simp [hr] at hsome
        | cons call rest => simp
      rcases complete_cases h (Nat.mod_lt (pick n) hpos) with
        ⟨s', hs', hinv, hleft⟩ | ⟨s', error, hs', hresults, hinFlight, hno⟩
      · rw [hs']
        have hends := drive_ends pick fuel (n + 1) hinv (by omega)
        refine ⟨fun t ht => ?_, hends.out⟩
        rcases List.mem_cons.mp ht with rfl | ht
        · exact hhere
        · exact hends.states t ht
      · rw [hs']
        refine ⟨fun t ht => ?_, .inr ⟨error, rfl, hno⟩⟩
        simp only [List.mem_cons, List.not_mem_nil, or_false] at ht
        rcases ht with rfl | rfl
        · exact hhere
        · refine ⟨?_, hinFlight⟩
          rw [State.keptBytes, hresults]
          exact h.bounded

/-- **The order in which calls end does not show.** Whatever the calls, the
window and the order in which those in flight end, a phase returns `Ok` exactly
when every call succeeds and the results fit the budget together, and then the
results in command order; otherwise it returns `Err`. And in every state on the
way, also of a run that fails, what is kept fits the budget and no more calls
are in flight than the window has room for. -/
theorem order_of_completion_irrelevant (phase : Phase R) (calls : List (Except AppCoreError R)) (limit : Nat)
    (hlimit : 1 ≤ limit) (pick : Nat → Nat) :
    let (states, out) := inCommandOrder phase calls limit pick
    (∀ results, out = .ok results ↔
      calls = results.map .ok ∧ (results.map phase.bytes).sum ≤ maxReadResultBytes) ∧
    ((∃ results, out = .ok results) ∨ ∃ error, out = Exec.err error) ∧
    ∀ s ∈ states, s.keptBytes phase ≤ maxReadResultBytes ∧ s.running.length ≤ limit := by
  have hleft : (State.start calls limit).running.length + (State.start calls limit).pending.length = calls.length := by
    have henumerate : (enumerate calls).length = calls.length := by simp [enumerate]
    simp only [State.start, List.length_take, List.length_drop, henumerate]
    omega
  have hends : Ends phase calls limit (inCommandOrder phase calls limit pick) :=
    drive_ends pick (calls.length + 1) 0 (inv_start hlimit) (by omega)
  rcases hrun : inCommandOrder phase calls limit pick with ⟨states, out⟩
  rw [hrun] at hends
  refine ⟨fun results => ?_, ?_, hends.states⟩
  · rcases hends.out with ⟨found, hfound, hs⟩ | ⟨error, herror, hno⟩
    · simp only at hfound
      rw [hfound]
      constructor
      · intro heq
        cases heq
        exact hs
      · intro hresults
        have hsame : found.map (Except.ok (ε := AppCoreError)) = results.map .ok := hs.1.symm.trans hresults.1
        rw [List.map_injective_iff.mpr (fun a b hab => Except.ok.inj hab) hsame]
    · simp only at herror
      rw [herror]
      exact ⟨fun heq => (by cases heq), fun hresults => absurd hresults (hno results)⟩
  · rcases hends.out with ⟨found, hfound, -⟩ | ⟨error, herror, -⟩
    · exact .inl ⟨found, hfound⟩
    · exact .inr ⟨error, herror⟩

/-- Three calls, two at a time, the later ones ending first. -/
theorem order_of_completion_three :
    1 ≤ 2 ∧ (inCommandOrder (R := String) ⟨"request results", id⟩ [.ok "aa", .ok "bbbb", .ok ""] 2 fun _ => 1).2 =
      .ok ["aa", "bbbb", ""] := by
  have h := order_of_completion_irrelevant (R := String) ⟨"request results", id⟩ [.ok "aa", .ok "bbbb", .ok ""] 2
    (by decide) fun _ => 1
  exact ⟨by decide, (h.1 ["aa", "bbbb", ""]).mpr ⟨rfl, by decide⟩⟩

end Pillar.ReadCalls
