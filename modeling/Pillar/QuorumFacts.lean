/-
The order in which answers arrive does not decide a quorum, and neither do the
loop's early exits.

After any prefix of any order the accumulator holds exactly the votes of that
prefix (`Recorded`). More voters never unmeet a rule (`MetBy.mono`), so what an
early return has ruled out stays ruled out, and a quorum out of reach stays out
of reach: every exit is the answer `finish` gives once all have answered.
-/
import Pillar.Quorum

namespace Pillar.Quorum

open Std (TreeMap TreeSet)
open Strategy

variable {T ε : Type}

/-! ## The rule -/

/-- The providers at `indices` meet the configured strategy. -/
def MetBy (config : ProviderConfig) (indices : List Nat) : Prop :=
  Declared (config.counts indices) config.strategy

theorem isMetBy_spec (config : ProviderConfig) (indices : List Nat) :
    (config.isMetBy indices : Exec ε Bool).Decides (MetBy config indices) :=
  isStrategySatisfiable_spec _ _

/-- More voters never unmeet a rule. -/
theorem MetBy.mono {config : ProviderConfig} {indices indices' : List Nat} (h : MetBy config indices)
    (hs : indices ⊆ indices') : MetBy config indices' := by
  refine Declared.mono h fun c e hl => ?_
  rw [Counts.Lists, ProviderConfig.counts, listed_voterEntities, ProviderConfig.votersAt, List.mem_filterMap] at hl ⊢
  obtain ⟨i, hi, hv⟩ := hl
  exact ⟨i, hs hi, hv⟩

/-- Only who votes matters. -/
theorem metBy_congr {config : ProviderConfig} {indices indices' : List Nat}
    (h : ∀ i, i ∈ indices ↔ i ∈ indices') : MetBy config indices ↔ MetBy config indices' :=
  ⟨fun hm => hm.mono fun i => (h i).mp, fun hm => hm.mono fun i => (h i).mpr⟩

/-! ## Votes -/

/-- The vote an answer carries. -/
def voteOf : Observation T → Option (String × T)
  | .ok observation => observation
  | .error _ => .none

/-- An answer the loop goes on after: anything but a configuration error. -/
def Recoverable : Observation T → Prop
  | .error (.configuration _) => False
  | _ => True

variable {config : ProviderConfig} {answers : Nat → Observation T} {dispatched seen : List Nat}
  {acc : ExactQuorumAccumulator T} {fingerprint : String}

/-- Those of `indices` whose answer is `fingerprint`. -/
def votersFor (answers : Nat → Observation T) (indices : List Nat) (fingerprint : String) : List Nat :=
  indices.filter fun i => (voteOf (answers i)).any (·.1 = fingerprint)

theorem mem_votersFor {indices : List Nat} {i : Nat} :
    i ∈ votersFor answers indices fingerprint ↔ i ∈ indices ∧ ∃ v, voteOf (answers i) = .some (fingerprint, v) := by
  simp only [votersFor, List.mem_filter, Option.any_eq_true, decide_eq_true_eq, Prod.exists]
  constructor
  · rintro ⟨hi, _, v, hv, rfl⟩
    exact ⟨hi, v, hv⟩
  · rintro ⟨hi, v, hv⟩
    exact ⟨hi, _, v, hv, rfl⟩

/-- `acc` holds the votes of `seen`, and waits for the rest of `dispatched`. -/
structure Recorded (config : ProviderConfig) (answers : Nat → Observation T) (dispatched seen : List Nat)
    (acc : ExactQuorumAccumulator T) : Prop where
  rule : acc.rule = config
  pending : ∀ i, i ∈ acc.pending ↔ i ∈ dispatched ∧ i ∉ seen
  indices : ∀ fp c, acc.voters[fp]? = .some c → ∀ i, i ∈ c.indices ↔ i ∈ votersFor answers seen fp
  value : ∀ fp c, acc.voters[fp]? = .some c → ∃ i ∈ seen, voteOf (answers i) = .some (fp, c.value)
  voted : ∀ i ∈ seen, ∀ fp v, voteOf (answers i) = .some (fp, v) → fp ∈ acc.voters

theorem recorded_new : Recorded config answers dispatched [] (.new config dispatched) where
  rule := rfl
  pending := fun i => by simp [ExactQuorumAccumulator.new]
  indices := fun fp c h => by simp [ExactQuorumAccumulator.new] at h
  value := fun fp c h => by simp [ExactQuorumAccumulator.new] at h
  voted := by simp

/-- An answer without a vote: only `pending` moves on. -/
theorem Recorded.skip {i : Nat} (h : Recorded config answers dispatched seen acc)
    (acc' : ExactQuorumAccumulator T) (hv : voteOf (answers i) = .none)
    (hr : acc'.rule = acc.rule) (hp : acc'.pending = acc.pending.erase i) (hvo : acc'.voters = acc.voters) :
    Recorded config answers dispatched (seen ++ [i]) acc' where
  rule := hr.trans h.rule
  pending := fun j => by
    rw [hp, TreeSet.mem_erase, h.pending]
    simp only [ne_eq, Std.LawfulEqCmp.compare_eq_iff_eq, List.mem_append, List.mem_singleton, not_or]
    rw [eq_comm (a := i)]
    tauto
  indices := fun fp c hc j => by
    rw [hvo] at hc
    rw [h.indices fp c hc]
    simp only [mem_votersFor, List.mem_append, List.mem_singleton]
    refine and_congr_left fun ⟨v, hj⟩ => ⟨.inl, fun hm => hm.resolve_right ?_⟩
    rintro rfl
    rw [hv] at hj
    cases hj
  value := fun fp c hc => by
    rw [hvo] at hc
    obtain ⟨j, hj, hjv⟩ := h.value fp c hc
    exact ⟨j, List.mem_append_left _ hj, hjv⟩
  voted := fun j hj fp v hjv => by
    rw [hvo]
    rcases List.mem_append.mp hj with hj | hj
    · exact h.voted j hj fp v hjv
    · rw [List.mem_singleton.mp hj, hv] at hjv
      cases hjv

/-- The candidate a vote leaves under its own fingerprint. -/
theorem vote_self (voters : TreeMap String (QuorumCandidate T)) (i : Nat) (fp : String) (v : T) :
    ∃ c, (ExactQuorumAccumulator.vote voters i fp v)[fp]? = .some c ∧
      (∀ j, j ∈ c.indices ↔ j = i ∨ ∃ old, voters[fp]? = .some old ∧ j ∈ old.indices) ∧
      (c.value = v ∨ ∃ old, voters[fp]? = .some old ∧ c.value = old.value) := by
  unfold ExactQuorumAccumulator.vote
  cases hold : voters[fp]? with
  | none =>
    refine ⟨_, TreeMap.getElem?_insert_self, fun j => ?_, .inl rfl⟩
    simpa using eq_comm
  | some old =>
    refine ⟨_, TreeMap.getElem?_insert_self, fun j => ?_, ?_⟩
    · simp [eq_comm (a := i)]
    · simp only [Option.some.injEq, exists_eq_left']
      split
      · exact .inl rfl
      · exact .inr rfl

theorem vote_other (voters : TreeMap String (QuorumCandidate T)) (i : Nat) {fp fp' : String} (v : T)
    (hne : fp' ≠ fp) : (ExactQuorumAccumulator.vote voters i fp v)[fp']? = voters[fp']? := by
  unfold ExactQuorumAccumulator.vote
  split <;> simp [TreeMap.getElem?_insert, hne.symm]

/-- An answer with a vote. -/
theorem Recorded.vote {i : Nat} {fp : String} {v : T} (h : Recorded config answers dispatched seen acc)
    (hv : voteOf (answers i) = .some (fp, v)) :
    Recorded config answers dispatched (seen ++ [i]) (acc.record i (.some (fp, v))) := by
  obtain ⟨c, hc, hidx, hval⟩ := vote_self acc.voters i fp v
  have hin : ∀ fp' j, j ∈ votersFor answers (seen ++ [i]) fp' ↔
      j ∈ votersFor answers seen fp' ∨ (j = i ∧ fp' = fp) := fun fp' j => by
    simp only [mem_votersFor, List.mem_append, List.mem_singleton]
    constructor
    · rintro ⟨hj | rfl, w, hw⟩
      · exact .inl ⟨hj, w, hw⟩
      · rw [hv] at hw
        cases hw
        exact .inr ⟨rfl, rfl⟩
    · rintro (⟨hj, w, hw⟩ | ⟨rfl, rfl⟩)
      · exact ⟨.inl hj, w, hw⟩
      · exact ⟨.inr rfl, v, hv⟩
  refine ⟨h.rule, fun j => ?_, fun fp' c' hc' j => ?_, fun fp' c' hc' => ?_, fun j hj fp' w hw => ?_⟩
  · simp only [ExactQuorumAccumulator.record, TreeSet.mem_erase, h.pending, ne_eq,
      Std.LawfulEqCmp.compare_eq_iff_eq, List.mem_append, List.mem_singleton, not_or]
    rw [eq_comm (a := i)]
    tauto
  · rw [hin]
    simp only [ExactQuorumAccumulator.record] at hc'
    by_cases hfp : fp' = fp
    · subst hfp
      obtain rfl : c = c' := Option.some.inj (hc.symm.trans hc')
      rw [hidx, or_comm]
      refine or_congr ?_ (by simp)
      constructor
      · rintro ⟨old, hold, hj⟩
        exact (h.indices fp' old hold j).mp hj
      · intro hj
        obtain ⟨hjs, w, hw⟩ := mem_votersFor.mp hj
        obtain ⟨old, hold⟩ := Option.isSome_iff_exists.mp (TreeMap.mem_iff_isSome_getElem?.mp (h.voted j hjs fp' w hw))
        exact ⟨old, hold, (h.indices fp' old hold j).mpr hj⟩
    · rw [vote_other _ _ _ hfp] at hc'
      simp [h.indices fp' c' hc' j, hfp]
  · simp only [ExactQuorumAccumulator.record] at hc'
    by_cases hfp : fp' = fp
    · subst hfp
      obtain rfl : c = c' := Option.some.inj (hc.symm.trans hc')
      rcases hval with hval | ⟨old, hold, hval⟩
      · exact ⟨i, by simp, by rw [hval, hv]⟩
      · obtain ⟨j, hj, hjv⟩ := h.value fp' old hold
        exact ⟨j, List.mem_append_left _ hj, by rw [hval, hjv]⟩
    · rw [vote_other _ _ _ hfp] at hc'
      obtain ⟨j, hj, hjv⟩ := h.value fp' c' hc'
      exact ⟨j, List.mem_append_left _ hj, hjv⟩
  · simp only [ExactQuorumAccumulator.record, TreeMap.mem_iff_isSome_getElem?]
    by_cases hfp : fp' = fp
    · rw [hfp, hc]
      rfl
    · rw [vote_other _ _ _ hfp, ← TreeMap.mem_iff_isSome_getElem?]
      rcases List.mem_append.mp hj with hj | hj
      · exact h.voted j hj fp' w hw
      · rw [List.mem_singleton.mp hj, hv] at hw
        cases hw
        exact absurd rfl hfp

/-- Recording one recoverable answer. -/
theorem recordResult_spec {i : Nat} (h : Recorded config answers dispatched seen acc)
    (hr : Recoverable (answers i)) :
    ∃ acc', acc.recordResult i (answers i) = .ok acc' ∧ Recorded config answers dispatched (seen ++ [i]) acc' := by
  match ha : answers i with
  | .ok (.some (fp, v)) => exact ⟨_, rfl, h.vote (by rw [ha]; rfl)⟩
  | .ok .none => exact ⟨_, rfl, h.skip _ (by rw [ha]; rfl) rfl rfl rfl⟩
  | .error (.admission e) => exact ⟨_, rfl, h.skip _ (by rw [ha]; rfl) rfl rfl rfl⟩
  | .error (.remote e) => exact ⟨_, rfl, h.skip _ (by rw [ha]; rfl) rfl rfl rfl⟩
  | .error .unavailable => exact ⟨_, rfl, h.skip _ (by rw [ha]; rfl) rfl rfl rfl⟩
  | .error (.configuration e) => rw [ha] at hr; exact hr.elim

/-! ## What the accumulator concludes -/

/-- `fingerprint` is the one whose voters among `indices` meet the rule. -/
structure Wins (config : ProviderConfig) (answers : Nat → Observation T) (indices : List Nat)
    (fingerprint : String) : Prop where
  met : MetBy config (votersFor answers indices fingerprint)
  only : ∀ fp, MetBy config (votersFor answers indices fp) → fp = fingerprint

/-- A call returns a value voted for the winner, or there is no winner and it
returns `Err`. -/
def Settled (config : ProviderConfig) (answers : Nat → Observation T) (indices : List Nat)
    (x : Exec AppCoreError T) : Prop :=
  (∃ v fp, x = .ok v ∧ Wins config answers indices fp ∧ ∃ i ∈ indices, voteOf (answers i) = .some (fp, v)) ∨
    (∃ e, x = Exec.err e ∧ ∀ fp, ¬ Wins config answers indices fp)

/-- The candidate under a fingerprint votes as its voters do. -/
theorem Recorded.metBy_iff {fp : String} {c : QuorumCandidate T} (h : Recorded config answers dispatched seen acc)
    (hc : acc.voters[fp]? = .some c) (more : List Nat) :
    MetBy config (c.indices.toList ++ more) ↔ MetBy config (votersFor answers seen fp ++ more) :=
  metBy_congr fun i => by simp [h.indices fp c hc i]

/-- A fingerprint without a candidate has no voters yet. -/
theorem Recorded.votersFor_eq_nil {fp : String} (h : Recorded config answers dispatched seen acc)
    (hno : fp ∉ acc.voters) : votersFor answers seen fp = [] := by
  refine List.eq_nil_iff_forall_not_mem.mpr fun i hi => ?_
  obtain ⟨his, v, hv⟩ := mem_votersFor.mp hi
  exact hno (h.voted i his fp v hv)

/-- The candidates are the fingerprints voted for whose voters meet the rule. -/
theorem candidates_iff (h : Recorded config answers dispatched seen acc) :
    ∃ cs, (acc.candidates : Exec ε (List String)) = .ok cs ∧ cs.Nodup ∧
      ∀ fp, fp ∈ cs ↔ fp ∈ acc.voters ∧ MetBy config (votersFor answers seen fp) := by
  have hmem : ∀ p ∈ acc.voters.toList, (acc.rule.isMetBy p.2.indices.toList : Exec ε Bool).Decides
      (MetBy config (votersFor answers seen p.1)) := fun p hp => by
    rw [h.rule]
    refine (isMetBy_spec config _).congr ?_
    simpa using h.metBy_iff (TreeMap.mem_toList_iff_getElem?_eq_some.mp hp) []
  obtain ⟨met, hmet, hsub, hiff⟩ := Exec.decides_filterM acc.voters.toList hmem
  refine ⟨met.map Prod.fst, by simp [ExactQuorumAccumulator.candidates, hmet], ?_, fun fp => ?_⟩
  · refine (hsub.map Prod.fst).nodup ?_
    rw [TreeMap.map_fst_toList_eq_keys]
    exact TreeMap.nodup_keys
  · simp only [List.mem_map, hiff, Prod.exists, exists_and_right, exists_eq_right,
      TreeMap.mem_toList_iff_getElem?_eq_some]
    rw [TreeMap.mem_iff_isSome_getElem?, Option.isSome_iff_exists]

theorem candidates_spec (h : Recorded config answers dispatched seen acc) (hz : ¬ MetBy config []) :
    ∃ cs, (acc.candidates : Exec ε (List String)) = .ok cs ∧ cs.Nodup ∧
      ∀ fp, fp ∈ cs ↔ MetBy config (votersFor answers seen fp) := by
  obtain ⟨cs, hcs, hn, hmem⟩ := candidates_iff (ε := ε) h
  refine ⟨cs, hcs, hn, fun fp => (hmem fp).trans ⟨And.right, fun hm => ⟨?_, hm⟩⟩⟩
  by_contra hno
  rw [h.votersFor_eq_nil hno] at hm
  exact hz hm

/-- A sole candidate is the winner so far, and its value was voted for it. -/
theorem Recorded.winner {fp : String} (h : Recorded config answers dispatched seen acc) (hz : ¬ MetBy config [])
    (hcs : ∀ fp', fp' ∈ [fp] ↔ MetBy config (votersFor answers seen fp')) :
    Wins config answers seen fp ∧ ∃ c, acc.voters[fp]? = .some c ∧
      ∃ i ∈ seen, voteOf (answers i) = .some (fp, c.value) := by
  have hmet := (hcs fp).mp (List.mem_singleton_self fp)
  refine ⟨⟨hmet, fun fp' hm => List.mem_singleton.mp ((hcs fp').mpr hm)⟩, ?_⟩
  have hin : fp ∈ acc.voters := by
    by_contra hno
    rw [h.votersFor_eq_nil hno] at hmet
    exact hz hmet
  obtain ⟨c, hc⟩ := Option.isSome_iff_exists.mp (TreeMap.mem_iff_isSome_getElem?.mp hin)
  exact ⟨c, hc, h.value fp c hc⟩

theorem eq_singleton_of_mem_iff {l : List String} {a : String} (hn : l.Nodup) (h : ∀ b, b ∈ l ↔ b = a) :
    l = [a] :=
  List.perm_singleton.mp ((List.perm_ext_iff_of_nodup hn (List.nodup_singleton a)).mpr fun b => by simp [h b])

/-- Without exactly one candidate there is no winner. -/
theorem not_wins_of_candidates {cs : List String} (hn : cs.Nodup)
    (hcs : ∀ fp, fp ∈ cs ↔ MetBy config (votersFor answers seen fp)) (hne : ∀ fp, cs ≠ [fp]) (fp : String) :
    ¬ Wins config answers seen fp := by
  intro hw
  exact hne fp (eq_singleton_of_mem_iff hn fun a => (hcs a).trans ⟨hw.only a, fun e => e ▸ hw.met⟩)

theorem finish_settled (h : Recorded config answers dispatched seen acc) (hz : ¬ MetBy config []) (context : String) :
    Settled config answers seen (acc.finish context) := by
  obtain ⟨cs, hcs, hn, hmem⟩ := candidates_spec (ε := AppCoreError) h hz
  simp only [ExactQuorumAccumulator.finish, hcs, Exec.ok_bind]
  split
  · next fp =>
    obtain ⟨hw, c, hc, hv⟩ := h.winner hz hmem
    exact .inl ⟨c.value, fp, by simp [hc], hw, hv⟩
  · next hne =>
    have hno := not_wins_of_candidates hn hmem hne
    split
    · exact .inr ⟨_, rfl, hno⟩
    · exact .inr ⟨_, rfl, hno⟩

/-- `can_reach_quorum`: some fingerprint would meet the rule if every answer
still to come were a vote for it. -/
theorem canReachQuorum_spec (h : Recorded config answers dispatched seen acc) :
    (acc.canReachQuorum : Exec ε Bool).Decides
      (∃ fp, MetBy config (votersFor answers seen fp ++ acc.pending.toList)) := by
  obtain ⟨b, hb, hiff⟩ := isMetBy_spec (ε := ε) config acc.pending.toList
  rw [ExactQuorumAccumulator.canReachQuorum, h.rule, hb, Exec.ok_bind]
  cases b with
  | true => exact Exec.decides_true ⟨"", (hiff.mp rfl).mono (List.subset_append_right _ _)⟩
  | false =>
    have hno : ¬ MetBy config acc.pending.toList := fun hm => Bool.noConfusion (hiff.mpr hm)
    refine (Exec.decides_anyM acc.voters.toList fun p hp =>
      (isMetBy_spec config _).congr (h.metBy_iff (TreeMap.mem_toList_iff_getElem?_eq_some.mp hp) _)).congr ?_
    refine ⟨fun ⟨p, _, hm⟩ => ⟨p.1, hm⟩, fun ⟨fp, hm⟩ => ?_⟩
    by_cases hin : fp ∈ acc.voters
    · obtain ⟨c, hc⟩ := Option.isSome_iff_exists.mp (TreeMap.mem_iff_isSome_getElem?.mp hin)
      exact ⟨(fp, c), TreeMap.mem_toList_iff_getElem?_eq_some.mpr hc, hm⟩
    · rw [h.votersFor_eq_nil hin] at hm
      exact absurd hm hno

/-- Whether a vote for another fingerprint could still meet the rule. -/
theorem othersReach_decides (h : Recorded config answers dispatched seen acc) (fingerprint : String) :
    (acc.voters.toList.anyM (fun p => do
      if p.1 = fingerprint then return false
      config.isMetBy (p.2.indices.toList ++ acc.pending.toList)) : Exec ε Bool).Decides
        (∃ p ∈ acc.voters.toList, p.1 ≠ fingerprint ∧
          MetBy config (votersFor answers seen p.1 ++ acc.pending.toList)) := by
  refine Exec.decides_anyM acc.voters.toList fun p hp => ?_
  split
  · next he => exact Exec.decides_false fun hm => hm.1 he
  · next he =>
    refine (isMetBy_spec config _).congr ?_
    rw [h.metBy_iff (TreeMap.mem_toList_iff_getElem?_eq_some.mp hp)]
    exact (and_iff_right he).symm

/-- `unambiguous_result` leaves the accumulator alone, or returns a value voted
for a candidate no other fingerprint can catch up with. -/
theorem unambiguousResult_spec (h : Recorded config answers dispatched seen acc) (hz : ¬ MetBy config []) :
    ∃ r, (acc.unambiguousResult : Exec ε (Option T × ExactQuorumAccumulator T)) = .ok r ∧
      (r.1 = .none → r.2 = acc) ∧
      ∀ v, r.1 = .some v → ∃ fp, MetBy config (votersFor answers seen fp) ∧
        (∀ fp', fp' ≠ fp → ¬ MetBy config (votersFor answers seen fp' ++ acc.pending.toList)) ∧
        ∃ i ∈ seen, voteOf (answers i) = .some (fp, v) := by
  obtain ⟨cs, hcs, hn, hmem⟩ := candidates_spec (ε := ε) h hz
  simp only [ExactQuorumAccumulator.unambiguousResult, hcs, Exec.ok_bind, h.rule]
  split
  · next fp =>
    obtain ⟨hw, c, hc, hv⟩ := h.winner hz hmem
    obtain ⟨b, hb, hiff⟩ := isMetBy_spec (ε := ε) config acc.pending.toList
    rw [hb, Exec.ok_bind]
    cases b with
    | true => exact ⟨(.none, acc), rfl, by simp, by simp⟩
    | false =>
    have hno : ¬ MetBy config acc.pending.toList := fun hm => Bool.noConfusion (hiff.mpr hm)
    obtain ⟨b, hb, hany⟩ := othersReach_decides (ε := ε) h fp
    simp only [Bool.false_eq_true, if_false]
    rw [hb, Exec.ok_bind]
    cases b with
    | true => exact ⟨(.none, acc), rfl, by simp, by simp⟩
    | false =>
    refine ⟨_, rfl, by simp [hc], fun v hv' => ⟨fp, hw.met, fun fp' hne hm => ?_, ?_⟩⟩
    · by_cases hin : fp' ∈ acc.voters
      · obtain ⟨c', hc'⟩ := Option.isSome_iff_exists.mp (TreeMap.mem_iff_isSome_getElem?.mp hin)
        have hp : (fp', c') ∈ acc.voters.toList := TreeMap.mem_toList_iff_getElem?_eq_some.mpr hc'
        exact Bool.noConfusion (hany.mpr ⟨(fp', c'), hp, hne, hm⟩)
      · rw [h.votersFor_eq_nil hin] at hm
        exact hno hm
    · simp only [hc, Option.map_some, Option.some.injEq] at hv'
      exact hv' ▸ hv
  · exact ⟨(.none, acc), rfl, by simp, by simp⟩

/-! ## The loop -/

/-- All that can still vote for a fingerprint: those who did, and those pending. -/
theorem Recorded.votersFor_subset {fp : String} (h : Recorded config answers dispatched seen acc) :
    votersFor answers dispatched fp ⊆ votersFor answers seen fp ++ acc.pending.toList := fun i hi => by
  obtain ⟨hid, hv⟩ := mem_votersFor.mp hi
  rw [List.mem_append, TreeSet.mem_toList, h.pending]
  by_cases his : i ∈ seen
  · exact .inl (mem_votersFor.mpr ⟨his, hv⟩)
  · exact .inr ⟨hid, his⟩

theorem votersFor_mono {indices indices' : List Nat} (h : indices ⊆ indices') (fp : String) :
    votersFor answers indices fp ⊆ votersFor answers indices' fp := fun i hi => by
  obtain ⟨hid, hv⟩ := mem_votersFor.mp hi
  exact mem_votersFor.mpr ⟨h hid, hv⟩

/-- Nobody left to answer: what the votes so far settle is settled. -/
theorem Settled.of_seen {x : Exec AppCoreError T} (hs : seen ⊆ dispatched) (hd : dispatched ⊆ seen)
    (h : Settled config answers seen x) : Settled config answers dispatched x := by
  have hwins : ∀ fp, Wins config answers seen fp ↔ Wins config answers dispatched fp := fun fp => by
    have hmet : ∀ fp, MetBy config (votersFor answers seen fp) ↔ MetBy config (votersFor answers dispatched fp) :=
      fun fp => ⟨fun hm => hm.mono (votersFor_mono hs fp), fun hm => hm.mono (votersFor_mono hd fp)⟩
    exact ⟨fun hw => ⟨(hmet fp).mp hw.met, fun fp' hm => hw.only fp' ((hmet fp').mpr hm)⟩,
      fun hw => ⟨(hmet fp).mpr hw.met, fun fp' hm => hw.only fp' ((hmet fp').mp hm)⟩⟩
  rcases h with ⟨v, fp, hx, hw, i, hi, hv⟩ | ⟨e, hx, hno⟩
  · exact .inl ⟨v, fp, hx, (hwins fp).mp hw, i, hs hi, hv⟩
  · exact .inr ⟨e, hx, fun fp hw => hno fp ((hwins fp).mpr hw)⟩

/-- **The loop settles the vote of everyone dispatched**, from any prefix of
the answers on. -/
theorem resolveLoop_settled (hz : ¬ MetBy config []) (context : String) :
    ∀ {rest seen : List Nat} {acc : ExactQuorumAccumulator T}, Recorded config answers dispatched seen acc →
      (∀ i, i ∈ seen ++ rest ↔ i ∈ dispatched) → (∀ i ∈ rest, Recoverable (answers i)) →
      Settled config answers dispatched (resolveLoop context (rest.map fun i => (i, answers i)) acc)
  | [], seen, acc, h, hall, _ => by
    simp only [List.append_nil] at hall
    exact (finish_settled h hz context).of_seen (fun i => (hall i).mp) fun i => (hall i).mpr
  | i :: rest, seen, acc, h, hall, hrec => by
    have hsub : seen ++ [i] ⊆ dispatched := fun j hj => (hall j).mp (by simp at hj ⊢; tauto)
    obtain ⟨acc', hacc', h'⟩ := recordResult_spec h (hrec i List.mem_cons_self)
    obtain ⟨⟨r, acc''⟩, hr, hkeep, hsome⟩ := unambiguousResult_spec (ε := AppCoreError) h' hz
    simp only [List.map_cons, resolveLoop, hacc', hr, Exec.ok_bind]
    cases r with
    | some v =>
      -- The early return: whoever answers later, no other fingerprint can meet the rule.
      obtain ⟨fp, hmet, hothers, j, hj, hv⟩ := hsome v rfl
      refine .inl ⟨v, fp, rfl, ⟨hmet.mono (votersFor_mono hsub fp), fun fp' hm => ?_⟩, j, hsub hj, hv⟩
      by_contra hne
      exact hothers fp' hne (hm.mono h'.votersFor_subset)
    | none =>
    obtain rfl : acc'' = acc' := hkeep rfl
    obtain ⟨b, hb, hreach⟩ := canReachQuorum_spec (ε := AppCoreError) h'
    simp only [hb, Exec.ok_bind]
    cases b with
    | true =>
      exact resolveLoop_settled hz context h' (by simpa using hall)
        fun j hj => hrec j (List.mem_cons_of_mem _ hj)
    | false =>
      -- The early break: no fingerprint meets the rule now, and none will.
      have hno : ∀ fp, ¬ MetBy config (votersFor answers (seen ++ [i]) fp ++ acc''.pending.toList) :=
        fun fp hm => Bool.noConfusion (hreach.mpr ⟨fp, hm⟩)
      rcases finish_settled h' hz context with ⟨_, fp, _, hw, _⟩ | ⟨e, he, _⟩
      · exact absurd (hw.met.mono (List.subset_append_left _ _)) (hno fp)
      · exact .inr ⟨e, he, fun fp hw => hno fp (hw.met.mono h'.votersFor_subset)⟩

/-! ## What was voted -/

/-- Enough of `indices` voted for one fingerprint, and one of them with `v`. -/
def Voted (config : ProviderConfig) (answers : Nat → Observation T) (indices : List Nat) (v : T) : Prop :=
  ∃ fp, MetBy config (votersFor answers indices fp) ∧ ∃ i ∈ indices, answers i = .ok (.some (fp, v))

theorem Voted.mono {indices indices' : List Nat} {v : T} (hv : Voted config answers indices v)
    (h : indices ⊆ indices') : Voted config answers indices' v := by
  obtain ⟨fp, hmet, i, hi, hiv⟩ := hv
  exact ⟨fp, hmet.mono (votersFor_mono h fp), i, h hi, hiv⟩

theorem voteOf_eq_some {o : Observation T} {fp : String} {v : T} :
    voteOf o = .some (fp, v) ↔ o = .ok (.some (fp, v)) := by
  cases o <;> simp [voteOf]

theorem Recorded.voted_of_candidate {cs : List String} {fp : String} {c : QuorumCandidate T}
    (h : Recorded config answers dispatched seen acc) (hmem : ∀ fp, fp ∈ cs ↔ fp ∈ acc.voters ∧
      MetBy config (votersFor answers seen fp)) (hfp : fp ∈ cs) (hc : acc.voters[fp]? = .some c) :
    Voted config answers seen c.value := by
  obtain ⟨i, hi, hiv⟩ := h.value fp c hc
  exact ⟨fp, ((hmem fp).mp hfp).2, i, hi, voteOf_eq_some.mp hiv⟩

theorem finish_voted (h : Recorded config answers dispatched seen acc) {context : String} {v : T}
    (hv : acc.finish context = .ok v) : Voted config answers seen v := by
  obtain ⟨cs, hcs, hn, hmem⟩ := candidates_iff (ε := AppCoreError) h
  simp only [ExactQuorumAccumulator.finish, hcs, Exec.ok_bind] at hv
  split at hv
  · obtain ⟨c, hc, hret⟩ := Exec.bind_ok_iff.mp hv
    cases hret
    exact h.voted_of_candidate hmem List.mem_cons_self (Exec.get_eq_ok.mp hc)
  · split at hv <;> cases hv

theorem unambiguousResult_voted (h : Recorded config answers dispatched seen acc) {o : Option T}
    {acc' : ExactQuorumAccumulator T} (hv : (acc.unambiguousResult : Exec AppCoreError _) = .ok (o, acc')) :
    match o with
    | .some v => Voted config answers seen v
    | .none => Recorded config answers dispatched seen acc' := by
  obtain ⟨cs, hcs, hn, hmem⟩ := candidates_iff (ε := AppCoreError) h
  simp only [ExactQuorumAccumulator.unambiguousResult, hcs, Exec.ok_bind] at hv
  split at hv
  · next fp =>
    obtain ⟨b, -, hv⟩ := Exec.bind_ok_iff.mp hv
    split at hv
    · cases hv
      exact h
    · obtain ⟨b', -, hv⟩ := Exec.bind_ok_iff.mp hv
      split at hv
      · cases hv
        exact h
      · obtain ⟨c, hc⟩ := Option.isSome_iff_exists.mp
          (TreeMap.mem_iff_isSome_getElem?.mp ((hmem fp).mp List.mem_cons_self).1)
        rw [hc] at hv
        cases hv
        exact h.voted_of_candidate hmem List.mem_cons_self hc
  · cases hv
    exact h

theorem recordResult_ok {i : Nat} {acc' : ExactQuorumAccumulator T} (h : Recorded config answers dispatched seen acc)
    (hacc : acc.recordResult i (answers i) = .ok acc') : Recorded config answers dispatched (seen ++ [i]) acc' := by
  have hrec : Recoverable (answers i) := by
    match ha : answers i with
    | .error (.configuration e) =>
      rw [ha] at hacc
      cases hacc
    | .ok _ | .error (.admission _) | .error (.remote _) | .error .unavailable => trivial
  obtain ⟨acc'', hacc', h'⟩ := recordResult_spec h hrec
  rw [hacc] at hacc'
  cases hacc'
  exact h'

/-- **What a vote returns was voted**, whatever the strategy and the answers. -/
theorem resolveLoop_voted {context : String} {v : T} : ∀ {rest seen : List Nat} {acc : ExactQuorumAccumulator T},
    Recorded config answers dispatched seen acc →
    resolveLoop context (rest.map fun i => (i, answers i)) acc = .ok v → Voted config answers (seen ++ rest) v
  | [], seen, acc, h, hv => by
    rw [List.append_nil]
    exact finish_voted h hv
  | i :: rest, seen, acc, h, hv => by
    obtain ⟨acc', hacc, hv⟩ := Exec.bind_ok_iff.mp hv
    have h' := recordResult_ok h hacc
    obtain ⟨⟨o, acc''⟩, hresult, hv⟩ := Exec.bind_ok_iff.mp hv
    have hvoted := unambiguousResult_voted h' hresult
    have happend : seen ++ i :: rest = seen ++ [i] ++ rest := by simp
    rw [happend]
    cases o with
    | some w =>
      cases hv
      exact hvoted.mono (List.subset_append_left _ _)
    | none =>
      obtain ⟨b, -, hv⟩ := Exec.bind_ok_iff.mp hv
      split at hv
      · exact resolveLoop_voted hvoted hv
      · exact (finish_voted hvoted hv).mono (List.subset_append_left _ _)

/-- **A vote returns the winner's value**, whoever has been asked and however
the others failed. -/
theorem resolveLoop_wins (hz : ¬ MetBy config []) {context : String} {v : T} :
    ∀ {rest seen : List Nat} {acc : ExactQuorumAccumulator T}, Recorded config answers dispatched seen acc →
      seen ++ rest ⊆ dispatched → resolveLoop context (rest.map fun i => (i, answers i)) acc = .ok v →
      ∃ fp, Wins config answers (seen ++ rest) fp ∧ ∃ i ∈ seen ++ rest, voteOf (answers i) = .some (fp, v)
  | [], seen, acc, h, _, hv => by
    rw [List.append_nil]
    rcases finish_settled h hz context with ⟨w, fp, hx, hw, hi⟩ | ⟨e, hx, -⟩
    · simp only [List.map_nil, resolveLoop, hx] at hv
      cases hv
      exact ⟨fp, hw, hi⟩
    · simp only [List.map_nil, resolveLoop, hx] at hv
      cases hv
  | i :: rest, seen, acc, h, hsub, hv => by
    have happend : seen ++ i :: rest = seen ++ [i] ++ rest := by simp
    obtain ⟨acc', hacc, hv⟩ := Exec.bind_ok_iff.mp hv
    have h' := recordResult_ok h hacc
    obtain ⟨⟨o, acc''⟩, hr, hkeep, hsome⟩ := unambiguousResult_spec (ε := AppCoreError) h' hz
    rw [hr, Exec.ok_bind] at hv
    rw [happend] at hsub ⊢
    cases o with
    | some w =>
      cases hv
      obtain ⟨fp, hmet, hothers, j, hj, hjv⟩ := hsome _ rfl
      have hseen : seen ++ [i] ⊆ seen ++ [i] ++ rest := List.subset_append_left _ _
      refine ⟨fp, ⟨hmet.mono (votersFor_mono hseen fp), fun fp' hm => ?_⟩, j, hseen hj, hjv⟩
      by_contra hne
      exact hothers fp' hne (hm.mono (List.Subset.trans (votersFor_mono hsub fp') h'.votersFor_subset))
    | none =>
      obtain rfl : acc'' = acc' := hkeep rfl
      obtain ⟨b, hb, hreach⟩ := canReachQuorum_spec (ε := AppCoreError) h'
      simp only [hb, Exec.ok_bind] at hv
      cases b with
      | true => exact resolveLoop_wins hz h' hsub hv
      | false =>
        -- Nothing could meet the rule any more, so nothing does.
        rcases finish_settled h' hz context with ⟨_, fp, _, hw, _⟩ | ⟨e, hx, -⟩
        · exact Bool.noConfusion (hreach.mpr ⟨fp, hw.met.mono (List.subset_append_left _ _)⟩)
        · simp only [Bool.false_eq_true, if_false, hx] at hv
          cases hv

theorem Wins.perm {indices indices' : List Nat} {fp : String} (hw : Wins config answers indices fp)
    (h : indices.Perm indices') : Wins config answers indices' fp :=
  ⟨hw.met.mono (votersFor_mono h.subset fp), fun fp' hm => hw.only fp' (hm.mono (votersFor_mono h.symm.subset fp'))⟩

/-- Recording every answer and only then asking. -/
def recordAll : List (Nat × Observation T) → ExactQuorumAccumulator T → Exec AppCoreError (ExactQuorumAccumulator T)
  | [], acc => .ok acc
  | (index, observation) :: requests, acc => do recordAll requests (← acc.recordResult index observation)

theorem recordAll_spec : ∀ {rest seen : List Nat} {acc : ExactQuorumAccumulator T},
    Recorded config answers dispatched seen acc → (∀ i ∈ rest, Recoverable (answers i)) →
    ∃ acc', recordAll (rest.map fun i => (i, answers i)) acc = .ok acc' ∧
      Recorded config answers dispatched (seen ++ rest) acc'
  | [], seen, acc, h, _ => ⟨acc, rfl, by simpa using h⟩
  | i :: rest, seen, acc, h, hrec => by
    obtain ⟨acc', hacc', h'⟩ := recordResult_spec h (hrec i List.mem_cons_self)
    obtain ⟨acc'', hacc'', h''⟩ := recordAll_spec h' fun j hj => hrec j (List.mem_cons_of_mem _ hj)
    exact ⟨acc'', by simp [recordAll, hacc', hacc''], by simpa using h''⟩

theorem exists_wins_iff {indices : List Nat} : (∃ fp, Wins config answers indices fp) ↔
    ∃! fp, MetBy config (votersFor answers indices fp) :=
  ⟨fun ⟨fp, hw⟩ => ⟨fp, hw.met, hw.only⟩, fun ⟨fp, hm, ho⟩ => ⟨fp, hm, ho⟩⟩

theorem Settled.isOk_iff {indices : List Nat} {x : Exec AppCoreError T} (h : Settled config answers indices x) :
    (∃ v, x = .ok v) ↔ ∃ fp, Wins config answers indices fp := by
  rcases h with ⟨v, fp, hx, hw, _⟩ | ⟨e, hx, hno⟩
  · exact ⟨fun _ => ⟨fp, hw⟩, fun _ => ⟨v, hx⟩⟩
  · exact ⟨fun ⟨v, hv⟩ => (by rw [hx] at hv; cases hv), fun ⟨fp, hw⟩ => absurd hw (hno fp)⟩

/-- **Arrival order does not decide a quorum, and the early exits are sound.**
For a strategy that zero voters do not meet and recoverable answers from all
those dispatched, in any order: resolution returns `Ok` exactly when one
fingerprint's voters, over everyone dispatched, meet the strategy, and then a
value one of them observed; otherwise it returns `Err`. Recording every answer
and calling `finish` agrees on `Ok` or `Err`, and on the winning fingerprint. -/
theorem resolve_independent_of_order (config : ProviderConfig) (hz : ¬ MetBy config []) (context : String)
    (dispatched : List Nat) (answers : Nat → Observation T) (hrec : ∀ i ∈ dispatched, Recoverable (answers i))
    (order : List Nat) (hall : ∀ i, i ∈ order ↔ i ∈ dispatched) :
    let requests := order.map fun i => (i, answers i)
    let resolved := resolveProviderQuorumForIndices requests dispatched config context
    ((∃ v, resolved = .ok v) ↔ ∃! fp, MetBy config (votersFor answers dispatched fp)) ∧
    (∀ v, resolved = .ok v → ∃ fp, MetBy config (votersFor answers dispatched fp) ∧
      ∃ i ∈ dispatched, answers i = .ok (.some (fp, v))) ∧
    ((∃ v, resolved = .ok v) ∨ ∃ e, resolved = Exec.err e) ∧
    ∃ acc, recordAll requests (.new config dispatched) = .ok acc ∧
      ((∃ v, resolved = .ok v) ↔ ∃ v, acc.finish context = .ok v) ∧
      ∀ v, resolved = .ok v → ∃ fp, (acc.candidates : Exec AppCoreError (List String)) = .ok [fp] ∧
        ∃ i ∈ dispatched, answers i = .ok (.some (fp, v)) := by
  intro requests resolved
  have hrec' : ∀ i ∈ order, Recoverable (answers i) := fun i hi => hrec i ((hall i).mp hi)
  have hset : Settled config answers dispatched resolved :=
    resolveLoop_settled hz context recorded_new (by simpa using hall) hrec'
  have hnew : Recorded config answers dispatched [] (.new config dispatched) := recorded_new
  obtain ⟨acc, hacc, hr⟩ := recordAll_spec hnew hrec'
  simp only [List.nil_append] at hr
  have hs : order ⊆ dispatched := fun i => (hall i).mp
  have hd : dispatched ⊆ order := fun i => (hall i).mpr
  have hfin := (finish_settled hr hz context).of_seen hs hd
  have hvoted : ∀ v, resolved = .ok v → ∃ fp, Wins config answers dispatched fp ∧
      ∃ i ∈ dispatched, answers i = .ok (.some (fp, v)) := fun v hv => by
    rcases hset with ⟨w, fp, hx, hw, i, hi, hiv⟩ | ⟨e, hx, -⟩
    · rw [hx] at hv
      cases hv
      exact ⟨fp, hw, i, hi, voteOf_eq_some.mp hiv⟩
    · rw [hx] at hv
      cases hv
  refine ⟨hset.isOk_iff.trans exists_wins_iff, fun v hv => ?_, ?_, acc, hacc, ?_, fun v hv => ?_⟩
  · obtain ⟨fp, hw, hi⟩ := hvoted v hv
    exact ⟨fp, hw.met, hi⟩
  · rcases hset with ⟨v, _, hx, _⟩ | ⟨e, hx, _⟩
    · exact .inl ⟨v, hx⟩
    · exact .inr ⟨e, hx⟩
  · exact hset.isOk_iff.trans hfin.isOk_iff.symm
  · obtain ⟨fp, hw, hi⟩ := hvoted v hv
    obtain ⟨cs, hcs, hn, hmem⟩ := candidates_spec (ε := AppCoreError) hr hz
    refine ⟨fp, ?_, hi⟩
    rw [hcs, eq_singleton_of_mem_iff hn fun a => (hmem a).trans
      ⟨fun hm => hw.only a (hm.mono (votersFor_mono hs a)), fun e => e ▸ hw.met.mono (votersFor_mono hd _)⟩]

/-- Three entities of which any two must agree. -/
def twoOfThree : ProviderConfig where
  voters := [⟨"internal", "a"⟩, ⟨"internal", "b"⟩, ⟨"shared_external", "c"⟩]
  strategy := ⟨[TreeMap.ofList [("any", Quorum.count 2)]], []⟩
  voters_lt := by decide

theorem twoOfThree_not_metBy_nil : ¬ MetBy twoOfThree [] := by
  obtain ⟨b, hb, hiff⟩ := isMetBy_spec (ε := Empty) twoOfThree []
  have hfalse : (twoOfThree.isMetBy [] : Exec Empty Bool) = .ok false := by decide
  rw [hfalse] at hb
  cases hb
  exact fun hm => Bool.noConfusion (hiff.mpr hm)

/-- Two of three agree, the third is unavailable and answers in between. -/
theorem resolve_twoOfThree : ¬ MetBy twoOfThree [] ∧
    ((∃ v : Nat, resolveProviderQuorumForIndices
        [(2, .ok (.some ("f", 7))), (1, .error .unavailable), (0, .ok (.some ("f", 8)))]
        [0, 1, 2] twoOfThree "test" = .ok v) ↔
      ∃! fp, MetBy twoOfThree (votersFor
        (fun i => if i = 0 then .ok (.some ("f", 8)) else if i = 1 then .error .unavailable
          else .ok (.some ("f", 7))) [0, 1, 2] fp)) :=
  ⟨twoOfThree_not_metBy_nil,
    (resolve_independent_of_order twoOfThree twoOfThree_not_metBy_nil "test" [0, 1, 2]
      (fun i => if i = 0 then .ok (.some ("f", 8)) else if i = 1 then .error .unavailable
        else .ok (.some ("f", 7)))
      (fun i hi => by simp at hi; rcases hi with rfl | rfl | rfl <;> trivial)
      [2, 1, 0] (fun i => by simp; tauto)).1⟩

end Pillar.Quorum
