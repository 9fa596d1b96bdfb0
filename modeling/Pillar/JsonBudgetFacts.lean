/-
The JSON memory budget is exact: along every interleaving the counters are the
sums of the live leases, within their limits, and every candidate's lease
covers the value it keeps.

The invariant is on the store between any two steps, calls in flight included:
a call that has reserved holds a lease no candidate has yet. Each half of a
call moves a counter and the leases together.
-/
import Pillar.JsonBudget
import Pillar.QuorumFacts

namespace Pillar.JsonBudget

open Std (TreeMap TreeSet)
open Quorum

variable {valueSize : Nat} {limit : Nat → Nat}

/-! ## Estimating -/

theorem foldlM_capacity_ge : ∀ (entries : List (Text × Value)) {total total' : Nat},
    entries.foldlM (fun total (key, _) => checkedAdd total key.capacity) total = .some total' → total ≤ total'
  | [], total, total', h => by
    simp only [List.foldlM_nil, Option.pure_def, Option.some.injEq] at h
    exact h.le
  | (key, _) :: entries, total, total', h => by
    rw [List.foldlM_cons] at h
    obtain ⟨next, hnext, h⟩ := Option.bind_eq_some_iff.mp h
    have hle := foldlM_capacity_ge entries h
    have := checkedAdd_eq_some hnext
    omega

/-- Each turn adds at least 128. -/
theorem visit_ge {total total' : Nat} {value : Value} {pushed : List Value}
    (h : visit valueSize total value = .some (total', pushed)) : total + 128 ≤ total' := by
  unfold visit at h
  obtain ⟨start, hstart, h⟩ := Option.bind_eq_some_iff.mp h
  have hs := checkedAdd_eq_some hstart
  cases value with
  | null | bool | number =>
    simp only [Option.pure_def, Option.some.injEq, Prod.mk.injEq] at h
    omega
  | string text =>
    obtain ⟨next, hnext, h⟩ := Option.bind_eq_some_iff.mp h
    have := checkedAdd_eq_some hnext
    simp only [Option.pure_def, Option.some.injEq, Prod.mk.injEq] at h
    omega
  | array values capacity =>
    obtain ⟨room, hroom, h⟩ := Option.bind_eq_some_iff.mp h
    obtain ⟨next, hnext, h⟩ := Option.bind_eq_some_iff.mp h
    have := checkedAdd_eq_some hnext
    simp only [Option.pure_def, Option.some.injEq, Prod.mk.injEq] at h
    omega
  | object entries =>
    obtain ⟨room, hroom, h⟩ := Option.bind_eq_some_iff.mp h
    obtain ⟨next, hnext, h⟩ := Option.bind_eq_some_iff.mp h
    obtain ⟨last, hlast, h⟩ := Option.bind_eq_some_iff.mp h
    have := checkedAdd_eq_some hnext
    have := foldlM_capacity_ge entries hlast
    simp only [Option.pure_def, Option.some.injEq, Prod.mk.injEq] at h
    omega

theorem estimateLoop_returns : ∀ (fuel total : Nat) (pending : List Value),
    maxJsonRetainedValueBytes < total + 128 * fuel → (total ≤ maxJsonRetainedValueBytes ∨ 0 < fuel) →
    ∃ bytes, estimateLoop valueSize fuel total pending = .ok bytes
  | _, total, [], _, _ => ⟨.some total, by simp only [estimateLoop]⟩
  | 0, total, _ :: _, hroom, hstart => by omega
  | fuel + 1, total, value :: pending, hroom, _ => by
    rw [estimateLoop]
    cases hv : visit valueSize total value with
    | none => exact ⟨_, rfl⟩
    | some next =>
      obtain ⟨total', pushed⟩ := next
      have hge := visit_ge hv
      simp only
      split
      · exact ⟨_, rfl⟩
      · exact estimateLoop_returns fuel total' _ (by omega) (.inl (by omega))

/-- The estimate always returns. -/
theorem estimate_returns (valueSize : Nat) (value : Value) (fingerprintBytes : Nat) :
    ∃ bytes, estimateJsonRetainedBytes valueSize value fingerprintBytes = .ok bytes := by
  unfold estimateJsonRetainedBytes
  cases checkedAdd fingerprintBytes 128 with
  | none => exact ⟨.none, rfl⟩
  | some total => exact estimateLoop_returns _ total _ (by unfold maxJsonRetainedValueBytes; omega) (.inr (by omega))

/-! ## Leases -/

/-- The bytes that leases hold of the counter at `address`. -/
def leasedBytes (address : Nat) (leases : List JsonMemoryLease) : Nat :=
  ((leases.filter (·.used = address)).map (·.bytes)).sum

@[simp] theorem leasedBytes_nil (a : Nat) : leasedBytes a [] = 0 := rfl

@[simp] theorem leasedBytes_cons (a : Nat) (l : JsonMemoryLease) (ls : List JsonMemoryLease) :
    leasedBytes a (l :: ls) = (if l.used = a then l.bytes else 0) + leasedBytes a ls := by
  by_cases h : l.used = a <;> simp [leasedBytes, h]

@[simp] theorem leasedBytes_append (a : Nat) (ls ls' : List JsonMemoryLease) :
    leasedBytes a (ls ++ ls') = leasedBytes a ls + leasedBytes a ls' := by
  simp [leasedBytes]

theorem leasedBytes_perm (a : Nat) {ls ls' : List JsonMemoryLease} (h : ls.Perm ls') :
    leasedBytes a ls = leasedBytes a ls' :=
  ((h.filter _).map _).sum_eq

/-- The leases of a map of candidates. -/
def voterLeases (voters : TreeMap String (QuorumCandidate Value)) : List JsonMemoryLease :=
  voters.toList.filterMap (·.2.lease)

/-- What a map has under a key, and the rest. -/
theorem toList_perm_erase {V : Type} (m : TreeMap String V) (k : String) :
    m.toList.Perm (m[k]?.toList.map (k, ·) ++ (m.erase k).toList) := by
  cases hk : m[k]? with
  | none =>
    have hsame : TreeMap.Equiv m (m.erase k) := .of_forall_constGet?_eq fun k' => by
      rw [TreeMap.getElem?_erase]
      by_cases he : k = k'
      · subst he
        simp [hk]
      · simp [he]
    simpa using List.Perm.of_eq (TreeMap.Equiv.toList_eq hsame)
  | some v =>
    have hsame : TreeMap.Equiv m ((m.erase k).insert k v) := .of_forall_constGet?_eq fun k' => by
      rw [TreeMap.getElem?_insert, TreeMap.getElem?_erase]
      by_cases he : k = k'
      · subst he
        simp [hk]
      · simp [he]
    have hkeep : (m.erase k).toList.filter (fun p => ¬ k == p.1) = (m.erase k).toList :=
      List.filter_eq_self.mpr fun p hp => by
        have hp' := TreeMap.mem_toList_iff_getElem?_eq_some.mp (show (p.1, p.2) ∈ _ from hp)
        have hne : k ≠ p.1 := fun he => by
          rw [← he, TreeMap.getElem?_erase_self] at hp'
          cases hp'
        simpa using hne
    have hperm := TreeMap.toList_insert_perm (t := m.erase k) (k := k) (v := v)
    rw [hkeep, ← TreeMap.Equiv.toList_eq hsame] at hperm
    exact hperm

theorem leased_erase (a : Nat) (voters : TreeMap String (QuorumCandidate Value)) (fp : String) :
    leasedBytes a (voterLeases (voters.erase fp)) + leasedBytes a (voters[fp]?.bind (·.lease)).toList =
      leasedBytes a (voterLeases voters) := by
  have hperm := (toList_perm_erase voters fp).filterMap (·.2.lease)
  rw [voterLeases, voterLeases, leasedBytes_perm a hperm, List.filterMap_append, leasedBytes_append]
  cases voters[fp]? with
  | none => simp
  | some c => cases hl : c.lease <;> simp [hl]; omega

theorem leased_insert (a : Nat) (voters : TreeMap String (QuorumCandidate Value)) (fp : String)
    (c : QuorumCandidate Value) :
    leasedBytes a (voterLeases (voters.insert fp c)) + leasedBytes a (voters[fp]?.bind (·.lease)).toList =
      leasedBytes a (voterLeases voters) + leasedBytes a c.lease.toList := by
  have hnew := leased_erase a (voters.insert fp c) fp
  have hold := leased_erase a voters fp
  have hsame : voterLeases ((voters.insert fp c).erase fp) = voterLeases (voters.erase fp) := by
    have hequiv : TreeMap.Equiv ((voters.insert fp c).erase fp) (voters.erase fp) := .of_forall_constGet?_eq fun k => by
      rw [TreeMap.getElem?_erase, TreeMap.getElem?_erase, TreeMap.getElem?_insert]
      by_cases he : fp = k <;> simp [he]
    rw [voterLeases, TreeMap.Equiv.toList_eq hequiv, voterLeases]
  rw [hsame, TreeMap.getElem?_insert_self, Option.bind_some] at hnew
  omega

/-- A lease gives back what it holds, where the counter holds it. -/
theorem release_spec {used : Nat → Nat} {lease : JsonMemoryLease} (hle : lease.bytes ≤ used lease.used)
    (hmax : used lease.used ≤ usizeMax) (a : Nat) : release used lease a + leasedBytes a [lease] = used a := by
  by_cases ha : lease.used = a
  · subst ha
    simp only [release, Function.update_self, leasedBytes_cons, leasedBytes_nil, if_true]
    rw [show used lease.used + (usizeMax + 1) - lease.bytes = used lease.used - lease.bytes + (usizeMax + 1) by omega,
      Nat.add_mod_right, Nat.mod_eq_of_lt (by omega)]
    omega
  · simp [release, ha, Function.update_of_ne (Ne.symm ha)]

theorem foldl_release_spec : ∀ (leases : List JsonMemoryLease) {used : Nat → Nat},
    (∀ a, leasedBytes a leases ≤ used a) → (∀ a, used a ≤ usizeMax) →
    ∀ a, leases.foldl release used a + leasedBytes a leases = used a
  | [], _, _, _, _ => rfl
  | lease :: leases, used, hle, hmax, a => by
    have hown : lease.bytes ≤ used lease.used := by
      have := hle lease.used
      simp only [leasedBytes_cons, if_true] at this
      omega
    have hone := release_spec hown (hmax _)
    have hle' : ∀ a, leasedBytes a leases ≤ release used lease a := fun a => by
      have h1 := hle a
      have h2 := hone a
      simp only [leasedBytes_cons, leasedBytes_nil] at h1 h2
      omega
    have hmax' : ∀ a, release used lease a ≤ usizeMax := fun a => by
      have h1 := hone a
      have h2 := hmax a
      omega
    have hrest := foldl_release_spec leases hle' hmax' a
    have := hone a
    simp only [List.foldl_cons, leasedBytes_cons, leasedBytes_nil] at hrest this ⊢
    omega

/-! ## The two halves of a call -/

/-- A lease covers a value kept under a fingerprint. -/
def Covers (valueSize : Nat) (lease : JsonMemoryLease) (fingerprint : String) (value : Value) : Prop :=
  ∃ bytes, estimateJsonRetainedBytes valueSize value fingerprint.utf8ByteSize = .ok (.some bytes) ∧
    bytes ≤ lease.bytes

/-- Every candidate has votes, and a lease that covers its value. -/
def Leased (valueSize : Nat) (voters : TreeMap String (QuorumCandidate Value)) : Prop :=
  ∀ fp c, voters[fp]? = .some c →
    (∃ first, c.indices.min? = .some first) ∧ ∃ lease, c.lease = .some lease ∧ Covers valueSize lease fp c.value

/-- The lease a call holds itself. -/
def Admission.lease : Admission → Option JsonMemoryLease
  | .leased lease => .some lease
  | .tooLarge | .voted | .overloaded => .none

/-- What the second half of a call relies on. -/
def Ready (valueSize : Nat) (voters : TreeMap String (QuorumCandidate Value)) (call : Call) : Prop :=
  match call.admission with
  | .tooLarge | .overloaded => True
  | .voted => ∃ c, voters[call.fingerprint]? = .some c ∧
    ((∃ first, c.indices.min? = .some first ∧ first ≤ call.index) ∨
      ∃ lease, c.lease = .some lease ∧ Covers valueSize lease call.fingerprint call.value)
  | .leased lease => voters[call.fingerprint]? = .none ∧ Covers valueSize lease call.fingerprint call.value

theorem Covers.mono {lease lease' : JsonMemoryLease} {fp : String} {value : Value}
    (h : Covers valueSize lease fp value) (hle : lease.bytes ≤ lease'.bytes) : Covers valueSize lease' fp value := by
  obtain ⟨bytes, he, hb⟩ := h
  exact ⟨bytes, he, hb.trans hle⟩

theorem reserve_spec {cap used address bytes used' : Nat} {lease : JsonMemoryLease}
    (h : reserve cap used address bytes = .some (lease, used')) :
    lease.used = address ∧ lease.bytes = bytes ∧ used' = used + bytes ∧ used' ≤ cap ∧ used' ≤ usizeMax := by
  unfold reserve checkedAdd at h
  split at h
  · cases h
  · next next hnext =>
    split at hnext
    · obtain rfl := Option.some.inj hnext
      split at h
      · cases h
      · obtain ⟨rfl, rfl⟩ := Prod.mk.inj (Option.some.inj h)
        exact ⟨rfl, rfl, rfl, by omega, by omega⟩
    · cases hnext

theorem grow_spec {cap used address bytes used' : Nat} {lease lease' : JsonMemoryLease}
    (h : grow cap used address lease bytes = .some (lease', used')) :
    lease.used = address ∧ lease'.used = address ∧ bytes ≤ lease'.bytes ∧ lease.bytes ≤ lease'.bytes ∧
      used' + lease.bytes = used + lease'.bytes ∧ (used' = used ∨ (used' ≤ cap ∧ used' ≤ usizeMax)) := by
  unfold grow checkedAdd at h
  split at h
  · cases h
  · next haddr =>
    have haddr : address = lease.used := not_not.mp haddr
    split at h
    · next hle =>
      obtain ⟨rfl, rfl⟩ := Prod.mk.inj (Option.some.inj h)
      exact ⟨haddr.symm, haddr.symm, hle, le_rfl, rfl, .inl rfl⟩
    · split at h
      · cases h
      · next next hnext =>
        split at hnext
        · obtain rfl := Option.some.inj hnext
          split at h
          · cases h
          · obtain ⟨rfl, rfl⟩ := Prod.mk.inj (Option.some.inj h)
            exact ⟨haddr.symm, haddr.symm, le_rfl, by simp only; omega, by simp only; omega, .inr ⟨by omega, by omega⟩⟩
        · cases hnext

theorem admitValue_spec {cap used : Nat} {acc : Accumulator} (address index : Nat) (fp : String) (value : Value)
    (h : Leased valueSize acc.voters) (hcap : used ≤ cap) (hmax : used ≤ usizeMax) :
    ∃ admission acc' used', admitValue valueSize cap address acc index fp value used = .ok (admission, acc', used') ∧
      used' ≤ cap ∧ used' ≤ usizeMax ∧ Leased valueSize acc'.voters ∧
      Ready valueSize acc'.voters { index, fingerprint := fp, value, admission } ∧
      (admission.refused = true → acc' = acc ∧ used' = used) ∧
      ∀ a, leasedBytes a (voterLeases acc'.voters) + leasedBytes a admission.lease.toList +
        (if a = address then used else 0) = leasedBytes a (voterLeases acc.voters) +
        if a = address then used' else 0 := by
  have hsame : ∀ admission : Admission, admission.lease = .none → Ready valueSize acc.voters
      { index, fingerprint := fp, value, admission } →
      used ≤ cap ∧ used ≤ usizeMax ∧ Leased valueSize acc.voters ∧
      Ready valueSize acc.voters { index, fingerprint := fp, value, admission } ∧
      (admission.refused = true → acc = acc ∧ used = used) ∧
      ∀ a, leasedBytes a (voterLeases acc.voters) + leasedBytes a admission.lease.toList +
        (if a = address then used else 0) = leasedBytes a (voterLeases acc.voters) + if a = address then used else 0 :=
    fun admission hl hr => ⟨hcap, hmax, h, hr, fun _ => ⟨rfl, rfl⟩, fun a => by simp [hl]⟩
  obtain ⟨estimate, he⟩ := estimate_returns valueSize value fp.utf8ByteSize
  unfold admitValue
  rw [he, Exec.ok_bind]
  cases estimate with
  | none => exact ⟨_, _, _, rfl, hsame .tooLarge rfl trivial⟩
  | some bytes =>
    cases hc : acc.voters[fp]? with
    | none =>
      -- the candidate is new: it comes with a lease of its own, or not at all
      simp only [Option.all_none, Bool.not_true, Bool.false_eq_true, if_false]
      cases hr : reserve cap used address bytes with
      | none => exact ⟨_, _, _, rfl, hsame .overloaded rfl trivial⟩
      | some next =>
        obtain ⟨lease, used'⟩ := next
        obtain ⟨rfl, rfl, rfl, hcap', hmax'⟩ := reserve_spec hr
        refine ⟨.leased lease, acc, _, rfl, hcap', hmax', h, ⟨hc, _, he, le_rfl⟩, (fun hf => by cases hf), fun a => ?_⟩
        simp only [Admission.lease, Option.toList_some, leasedBytes_cons, leasedBytes_nil]
        by_cases ha : lease.used = a
        · simp only [ha, if_true]
          omega
        · simp [ha, Ne.symm ha]
    | some c =>
      obtain ⟨indices, kept, held⟩ := c
      obtain ⟨⟨first, hfirst⟩, lease, hlease, hcovers⟩ := h fp _ hc
      simp only at hfirst hlease hcovers
      subst hlease
      simp only [Option.all_some, hfirst]
      split
      · next hlate =>
        exact ⟨_, _, _, rfl, hsame .voted rfl ⟨_, hc, .inl ⟨first, hfirst, by simpa using hlate⟩⟩⟩
      · split
        · next hcov =>
          simp only [Bool.and_eq_true, decide_eq_true_eq] at hcov
          exact ⟨_, _, _, rfl, hsame .voted rfl ⟨_, hc, .inr ⟨lease, rfl, bytes, he, hcov.2⟩⟩⟩
        · cases hg : grow cap used address lease bytes with
          | none => exact ⟨_, _, _, rfl, hsame .overloaded rfl trivial⟩
          | some next =>
            obtain ⟨lease', used'⟩ := next
            obtain ⟨hold, hnew, hbytes, hle, hused, hwithin⟩ := grow_spec hg
            refine ⟨.voted, _, used', rfl, ?_, ?_, fun fp' c' hc' => ?_, ⟨_, TreeMap.getElem?_insert_self, .inr
              ⟨lease', rfl, bytes, he, hbytes⟩⟩, (fun hf => by cases hf), fun a => ?_⟩
            · rcases hwithin with rfl | hw
              · exact hcap
              · exact hw.1
            · rcases hwithin with rfl | hw
              · exact hmax
              · exact hw.2
            · rw [TreeMap.getElem?_insert] at hc'
              split at hc'
              · next heq =>
                obtain rfl : fp = fp' := by simpa using heq
                obtain rfl := Option.some.inj hc'
                exact ⟨⟨first, hfirst⟩, lease', rfl, hcovers.mono hle⟩
              · exact h fp' c' hc'
            · have hins := leased_insert a acc.voters fp { indices, value := kept, lease := .some lease' }
              rw [hc] at hins
              simp only [Option.bind_some, Option.toList_some, leasedBytes_cons, leasedBytes_nil, hold, hnew] at hins
              simp only [Admission.lease, Option.toList_none, leasedBytes_nil]
              by_cases ha : address = a
              · simp only [ha, if_true] at hins ⊢
                omega
              · simp only [ha, Ne.symm ha, if_false] at hins ⊢
                omega

/-- A candidate put under a fingerprint, the others as they were. -/
theorem Leased.insert {voters voters' : TreeMap String (QuorumCandidate Value)} (h : Leased valueSize voters)
    (fp : String) (c : QuorumCandidate Value) (hfirst : ∃ first, c.indices.min? = .some first)
    (hcovers : ∃ lease, c.lease = .some lease ∧ Covers valueSize lease fp c.value)
    (hself : voters'[fp]? = .some c) (hother : ∀ fp', fp' ≠ fp → voters'[fp']? = voters[fp']?) :
    Leased valueSize voters' := by
  intro fp' c' hc'
  by_cases hfp : fp' = fp
  · subst hfp
    obtain rfl := Option.some.inj (hself.symm.trans hc')
    exact ⟨hfirst, hcovers⟩
  · rw [hother fp' hfp] at hc'
    exact h fp' c' hc'

theorem settle_spec {acc : Accumulator} {call : Call} (h : Leased valueSize acc.voters)
    (hr : Ready valueSize acc.voters call) :
    ∃ acc', settle acc call.index call.fingerprint call.value call.admission =
        .ok (!call.admission.refused, acc', .none) ∧
      Leased valueSize acc'.voters ∧ (call.admission.refused = true → acc'.voters = acc.voters) ∧
      ∀ a, leasedBytes a (voterLeases acc'.voters) =
        leasedBytes a (voterLeases acc.voters) + leasedBytes a call.admission.lease.toList := by
  obtain ⟨index, fp, value, admission⟩ := call
  cases admission with
  | tooLarge => exact ⟨_, rfl, h, fun _ => rfl, fun _ => rfl⟩
  | overloaded => exact ⟨_, rfl, h, fun _ => rfl, fun _ => rfl⟩
  | voted =>
    obtain ⟨c, hc, hkeep⟩ := hr
    obtain ⟨⟨first, hfirst⟩, lease, hlease, hcovers⟩ := h fp c hc
    have hvote : (acc.record index (.some (fp, value))).voters = acc.voters.insert fp { c with
        indices := c.indices.insert index
        value := if c.indices.min?.any (index < ·) then value else c.value } := by
      simp only [ExactQuorumAccumulator.record, ExactQuorumAccumulator.vote, hc]
    refine ⟨_, rfl, ?_, (fun hf => by cases hf), fun a => ?_⟩
    · refine h.insert fp { c with
          indices := c.indices.insert index
          value := if c.indices.min?.any (index < ·) then value else c.value }
        (Option.isSome_iff_exists.mp TreeSet.isSome_min?_insert) ⟨lease, hlease, ?_⟩ ?_ fun fp' hne => ?_
      · -- the value changes only if the lease was looked at
        simp only [hfirst, Option.any_some]
        split
        · next hlt =>
          rcases hkeep with ⟨first', hfirst', hle⟩ | ⟨lease', hlease', hcovers'⟩
          · have : first' = first := Option.some.inj (hfirst'.symm.trans hfirst)
            simp only [decide_eq_true_eq] at hlt hle
            omega
          · obtain rfl := Option.some.inj (hlease.symm.trans hlease')
            exact hcovers'
        · exact hcovers
      · rw [hvote]
        exact TreeMap.getElem?_insert_self
      · rw [hvote, TreeMap.getElem?_insert]
        simp [Ne.symm hne]
    · have hins := leased_insert a acc.voters fp { c with
        indices := c.indices.insert index
        value := if c.indices.min?.any (index < ·) then value else c.value }
      rw [hc] at hins
      simp only [hvote, Admission.lease, Option.toList_none, leasedBytes_nil]
      simp only [Option.bind_some] at hins
      omega
  | leased lease =>
    obtain ⟨hc, hcovers⟩ := hr
    have hvote : (acc.record index (.some (fp, value))).voters = acc.voters.insert fp
        { indices := TreeSet.ofList [index], value, lease := .none } := by
      simp only [ExactQuorumAccumulator.record, ExactQuorumAccumulator.vote, hc]
    have hget : (acc.record index (.some (fp, value))).voters[fp]? =
        .some { indices := TreeSet.ofList [index], value, lease := .none } := by
      rw [hvote]
      exact TreeMap.getElem?_insert_self
    refine ⟨{ acc.record index (.some (fp, value)) with
        voters := (acc.record index (.some (fp, value))).voters.insert fp
          { indices := TreeSet.ofList [index], value, lease := .some lease } },
      ?_, ?_, (fun hf => by cases hf), fun a => ?_⟩
    · simp only [settle, hget, Exec.get_some, Exec.ok_bind]
      rfl
    · refine h.insert fp { indices := TreeSet.ofList [index], value, lease := .some lease }
        (Option.isSome_iff_exists.mp (by simp [TreeSet.isSome_min?_eq_not_isEmpty])) ⟨lease, rfl, hcovers⟩
        TreeMap.getElem?_insert_self fun fp' hne => ?_
      rw [TreeMap.getElem?_insert, hvote, TreeMap.getElem?_insert]
      simp [Ne.symm hne]
    · have hins := leased_insert a acc.voters fp { indices := TreeSet.ofList [index], value, lease := .none }
      have hins' := leased_insert a (acc.record index (.some (fp, value))).voters fp
        { indices := TreeSet.ofList [index], value, lease := .some lease }
      rw [hget] at hins'
      rw [hc, ← hvote] at hins
      simp only [Option.bind_some, Option.bind_none, Option.toList_none, leasedBytes_nil] at hins hins'
      simp only [Admission.lease]
      omega

/-! ## Stores -/

def Slot.leases (slot : Slot) : List JsonMemoryLease :=
  voterLeases slot.acc.voters ++ (slot.call.bind (·.admission.lease)).toList

/-- Every live lease: of a candidate, or in the hands of a call. -/
def Store.leases (s : Store) : List JsonMemoryLease := s.slots.flatMap Slot.leases

/-- The candidate under a fingerprint, in the accumulator at place `k`. -/
def Store.candidate (s : Store) (k : Nat) (fp : String) : Option (QuorumCandidate Value) :=
  s.slots[k]?.bind (·.acc.voters[fp]?)

/-- The call at place `k` will return `Ok(false)`. -/
def Store.refused (s : Store) (k : Nat) : Bool := (s.slots[k]?.bind (·.call)).any (·.admission.refused)

structure Slot.Good (valueSize : Nat) (slot : Slot) : Prop where
  leased : Leased valueSize slot.acc.voters
  ready : ∀ call ∈ slot.call, Ready valueSize slot.acc.voters call

/-- The invariant: the counters are the sums of the live leases, within their limits. -/
structure Good (valueSize : Nat) (limit : Nat → Nat) (s : Store) : Prop where
  exact : ∀ a, s.used a = leasedBytes a s.leases
  within : ∀ a, s.used a ≤ limit a
  fits : ∀ a, s.used a ≤ usizeMax
  slots : ∀ slot ∈ s.slots, slot.Good valueSize

theorem leasedBytes_set (a : Nat) : ∀ {slots : List Slot} {k : Nat} {slot : Slot}, slots[k]? = .some slot →
    ∀ slot' : Slot, leasedBytes a ((slots.set k slot').flatMap Slot.leases) + leasedBytes a slot.leases =
      leasedBytes a (slots.flatMap Slot.leases) + leasedBytes a slot'.leases
  | [], _, _, h, _ => by simp at h
  | slot₀ :: slots, 0, slot, h, slot' => by
    obtain rfl : slot₀ = slot := by simpa using h
    simp only [List.set_cons_zero, List.flatMap_cons, leasedBytes_append]
    omega
  | slot₀ :: slots, k + 1, slot, h, slot' => by
    have := leasedBytes_set a (show slots[k]? = .some slot by simpa using h) slot'
    simp only [List.set_cons_succ, List.flatMap_cons, leasedBytes_append]
    omega

theorem leasedBytes_eraseIdx (a : Nat) : ∀ {slots : List Slot} {k : Nat} {slot : Slot}, slots[k]? = .some slot →
    leasedBytes a ((slots.eraseIdx k).flatMap Slot.leases) + leasedBytes a slot.leases =
      leasedBytes a (slots.flatMap Slot.leases)
  | [], _, _, h => by simp at h
  | slot₀ :: slots, 0, slot, h => by
    obtain rfl : slot₀ = slot := by simpa using h
    simp only [List.eraseIdx_cons_zero, List.flatMap_cons, leasedBytes_append]
    omega
  | slot₀ :: slots, k + 1, slot, h => by
    have := leasedBytes_eraseIdx a (show slots[k]? = .some slot by simpa using h)
    simp only [List.eraseIdx_cons_succ, List.flatMap_cons, leasedBytes_append]
    omega

/-- One accumulator changes, and the counters with its leases. -/
theorem Good.set {s : Store} (h : Good valueSize limit s) {k : Nat} {slot slot' : Slot} {used : Nat → Nat}
    (hk : s.slots[k]? = .some slot) (hslot : slot'.Good valueSize)
    (hused : ∀ a, used a + leasedBytes a slot.leases = s.used a + leasedBytes a slot'.leases)
    (hwithin : ∀ a, used a ≤ limit a) (hfits : ∀ a, used a ≤ usizeMax) :
    Good valueSize limit { used, slots := s.slots.set k slot' } := by
  refine ⟨fun a => ?_, hwithin, hfits, fun slot'' hmem => ?_⟩
  · have hset := leasedBytes_set a hk slot'
    have hexact := h.exact a
    have hu := hused a
    simp only [Store.leases] at hexact ⊢
    omega
  · rcases List.mem_or_eq_of_mem_set hmem with hmem | rfl
    · exact h.slots slot'' hmem
    · exact hslot

theorem Good.mem {s : Store} (h : Good valueSize limit s) {k : Nat} {slot : Slot} (hk : s.slots[k]? = .some slot) :
    slot.Good valueSize := h.slots slot (List.mem_of_getElem? hk)

/-- What a slot's leases hold is in the counters. -/
theorem Good.slot_le {s : Store} (h : Good valueSize limit s) {k : Nat} {slot : Slot} (hk : s.slots[k]? = .some slot)
    (a : Nat) : leasedBytes a slot.leases ≤ s.used a := by
  have h1 := leasedBytes_eraseIdx a hk
  have h2 := h.exact a
  unfold Store.leases at h2
  omega

theorem enter_spec {s : Store} (h : Good valueSize limit s) {k : Nat} (address index : Nat) (fp : String)
    (value : Value) {acc : Accumulator} (hk : s.slots[k]? = .some { acc, call := .none }) :
    ∃ admission acc' used',
      step valueSize limit s (.enter k address index fp value) = .ok (.none, {
        used := Function.update s.used address used'
        slots := s.slots.set k { acc := acc', call := .some { index, fingerprint := fp, value, admission } } }) ∧
      (admission.refused = true → acc' = acc ∧ used' = s.used address) ∧
      Good valueSize limit {
        used := Function.update s.used address used'
        slots := s.slots.set k { acc := acc', call := .some { index, fingerprint := fp, value, admission } } } := by
  obtain ⟨admission, acc', used', hok, hcap, hmax, hleased, hready, hrefused, hbytes⟩ :=
    admitValue_spec address index fp value (h.mem hk).leased (h.within address) (h.fits address)
  refine ⟨admission, acc', used', ?_, hrefused, h.set hk ⟨hleased, fun call hc => ?_⟩ (fun a => ?_)
    (fun a => ?_) fun a => ?_⟩
  · simp only [step, hk, hok, Exec.ok_bind]
    rfl
  · obtain rfl := Option.some.inj hc
    exact hready
  · have hb := hbytes a
    by_cases ha : a = address
    · subst ha
      simp only [Slot.leases, Option.bind_some, Option.bind_none, Option.toList_none, leasedBytes_append,
        leasedBytes_nil,
        Function.update_self, if_true] at hb ⊢
      omega
    · simp only [Slot.leases, Option.bind_some, Option.bind_none, Option.toList_none, leasedBytes_append,
        leasedBytes_nil,
        Function.update_of_ne ha, if_neg ha] at hb ⊢
      omega
  · by_cases ha : a = address
    · subst ha
      rwa [Function.update_self]
    · rw [Function.update_of_ne ha]
      exact h.within a
  · by_cases ha : a = address
    · subst ha
      rwa [Function.update_self]
    · rw [Function.update_of_ne ha]
      exact h.fits a

theorem leave_spec {s : Store} (h : Good valueSize limit s) {k : Nat} {acc : Accumulator} {call : Call}
    (hk : s.slots[k]? = .some { acc, call := .some call }) :
    ∃ acc', step valueSize limit s (.leave k) = .ok (.some (!call.admission.refused),
        { s with slots := s.slots.set k { acc := acc', call := .none } }) ∧
      (call.admission.refused = true → acc'.voters = acc.voters) ∧
      Good valueSize limit { s with slots := s.slots.set k { acc := acc', call := .none } } := by
  have hslot := h.mem hk
  obtain ⟨acc', hok, hleased, hsame, hbytes⟩ := settle_spec hslot.leased (hslot.ready call rfl)
  refine ⟨acc', ?_, hsame, h.set hk ⟨hleased, by simp⟩ (fun a => ?_) h.within h.fits⟩
  · simp only [step, hk, hok, Exec.ok_bind]
    rfl
  · have hb := hbytes a
    simp only [Slot.leases, Option.bind_some, Option.bind_none, Option.toList_none, leasedBytes_append,
      leasedBytes_nil] at hb ⊢
    omega

theorem fail_spec {s : Store} (h : Good valueSize limit s) {k : Nat} (index : Nat) (error : RpcError)
    {acc : Accumulator} (hk : s.slots[k]? = .some { acc, call := .none }) :
    ∃ s', step valueSize limit s (.fail k index error) = .ok (.none, s') ∧ Good valueSize limit s' := by
  have hkeep : ∀ acc' : Accumulator, acc'.voters = acc.voters →
      Good valueSize limit { s with slots := s.slots.set k { acc := acc', call := .none } } := fun acc' hv =>
    h.set hk ⟨by rw [hv]; exact (h.mem hk).leased, by simp⟩ (fun a => by simp [Slot.leases, hv]) h.within h.fits
  simp only [step, hk]
  cases error with
  | admission error => exact ⟨_, rfl, hkeep _ rfl⟩
  | remote message => exact ⟨_, rfl, hkeep _ rfl⟩
  | unavailable => exact ⟨_, rfl, hkeep _ rfl⟩
  | configuration message => exact ⟨_, rfl, h⟩

theorem take_spec {s : Store} (h : Good valueSize limit s) {k : Nat} (fp : String) {acc : Accumulator}
    (hk : s.slots[k]? = .some { acc, call := .none }) :
    ∃ s', step valueSize limit s (.take k fp) = .ok (.none, s') ∧ Good valueSize limit s' := by
  simp only [step, hk]
  refine ⟨_, rfl, ?_⟩
  have hslot := h.slot_le hk
  have herase := fun a => leased_erase a acc.voters fp
  have hused : ∀ a, (acc.voters[fp]?.bind (·.lease)).elim s.used (release s.used) a +
      leasedBytes a (acc.voters[fp]?.bind (·.lease)).toList = s.used a := fun a => by
    cases hl : acc.voters[fp]?.bind (·.lease) with
    | none => rfl
    | some lease =>
      refine release_spec ?_ (h.fits _) a
      have h1 := hslot lease.used
      have h2 := herase lease.used
      simp only [Slot.leases, Option.bind_none, Option.toList_none, List.append_nil] at h1
      simp only [hl, Option.toList_some, leasedBytes_cons, leasedBytes_nil, if_true] at h2
      omega
  refine h.set hk ⟨fun fp' c hc => ?_, by simp⟩ (fun a => ?_) (fun a => ?_) fun a => ?_
  · simp only [TreeMap.getElem?_erase] at hc
    split at hc
    · cases hc
    · exact (h.mem hk).leased fp' c hc
  · have h1 := hused a
    have h2 := herase a
    simp only [Slot.leases, Option.bind_none, Option.toList_none, List.append_nil]
    omega
  · have h1 := hused a
    have h2 := h.within a
    omega
  · have h1 := hused a
    have h2 := h.fits a
    omega

theorem drop_spec {s : Store} (h : Good valueSize limit s) {k : Nat} {acc : Accumulator}
    (hk : s.slots[k]? = .some { acc, call := .none }) :
    ∃ s', step valueSize limit s (.drop k) = .ok (.none, s') ∧ Good valueSize limit s' := by
  simp only [step, hk]
  refine ⟨_, rfl, ?_⟩
  have hslot : ∀ a, leasedBytes a (voterLeases acc.voters) ≤ s.used a := fun a => by
    simpa [Slot.leases] using h.slot_le hk a
  have hused := foldl_release_spec (voterLeases acc.voters) hslot h.fits
  unfold voterLeases at hused hslot
  refine ⟨fun a => ?_, fun a => ?_, fun a => ?_, fun slot hmem => h.slots slot (List.mem_of_mem_eraseIdx hmem)⟩
  · have h1 := hused a
    have h2 := leasedBytes_eraseIdx a hk
    have h3 := h.exact a
    simp only [Slot.leases, Option.bind_none, Option.toList_none, List.append_nil, voterLeases, Store.leases] at h2 h3 ⊢
    omega
  · have h1 := hused a
    have h2 := h.within a
    simp only
    omega
  · have h1 := hused a
    have h2 := h.fits a
    simp only
    omega

/-- **A step of whatever kind keeps the invariant**, and none fails. -/
theorem step_good {s : Store} (h : Good valueSize limit s) (op : Op) :
    ∃ result s', step valueSize limit s op = .ok (result, s') ∧ Good valueSize limit s' := by
  cases op with
  | new rule dispatched =>
    have hnone : voterLeases (∅ : TreeMap String (QuorumCandidate Value)) = [] := by
      simp [voterLeases, List.filterMap_eq_nil_iff, TreeMap.mem_toList_iff_getElem?_eq_some]
    refine ⟨_, _, rfl, fun a => ?_, h.within, h.fits, fun slot hmem => ?_⟩
    · simp [h.exact a, Store.leases, Slot.leases, ExactQuorumAccumulator.new, hnone]
    · rcases List.mem_append.mp hmem with hmem | hmem
      · exact h.slots slot hmem
      · obtain rfl := List.mem_singleton.mp hmem
        exact ⟨fun fp c hc => by simp [ExactQuorumAccumulator.new] at hc, by simp⟩
  | enter k address index fp value =>
    rcases hk : s.slots[k]? with _ | ⟨acc, _ | call⟩
    · exact ⟨.none, s, by simp only [step, hk], h⟩
    · obtain ⟨_, _, _, hok, -, hgood⟩ := enter_spec h address index fp value hk
      exact ⟨_, _, hok, hgood⟩
    · exact ⟨.none, s, by simp only [step, hk], h⟩
  | leave k =>
    rcases hk : s.slots[k]? with _ | ⟨acc, _ | call⟩
    · exact ⟨.none, s, by simp only [step, hk], h⟩
    · exact ⟨.none, s, by simp only [step, hk], h⟩
    · obtain ⟨_, hok, -, hgood⟩ := leave_spec h hk
      exact ⟨_, _, hok, hgood⟩
  | fail k index error =>
    rcases hk : s.slots[k]? with _ | ⟨acc, _ | call⟩
    · exact ⟨.none, s, by simp only [step, hk], h⟩
    · exact ⟨.none, fail_spec h index error hk⟩
    · exact ⟨.none, s, by simp only [step, hk], h⟩
  | take k fp =>
    rcases hk : s.slots[k]? with _ | ⟨acc, _ | call⟩
    · exact ⟨.none, s, by simp only [step, hk], h⟩
    · exact ⟨.none, take_spec h fp hk⟩
    · exact ⟨.none, s, by simp only [step, hk], h⟩
  | drop k =>
    rcases hk : s.slots[k]? with _ | ⟨acc, _ | call⟩
    · exact ⟨.none, s, by simp only [step, hk], h⟩
    · exact ⟨.none, drop_spec h hk⟩
    · exact ⟨.none, s, by simp only [step, hk], h⟩

theorem Reachable.good {s : Store} (h : Reachable valueSize limit s) : Good valueSize limit s := by
  induction h with
  | init => exact ⟨fun _ => rfl, fun _ => Nat.zero_le _, fun _ => Nat.zero_le _, by simp [Store.init]⟩
  | step op result _ hs ih =>
    obtain ⟨result', s'', hok, hgood⟩ := step_good ih op
    obtain ⟨-, rfl⟩ := Prod.mk.inj (Except.ok.inj (hs.symm.trans hok))
    exact hgood

/-- The same candidates, in another accumulator. -/
theorem candidate_set {s : Store} {k : Nat} {slot slot' : Slot} (hk : s.slots[k]? = .some slot)
    (hsame : slot'.acc.voters = slot.acc.voters) (used : Nat → Nat) (j : Nat) (fp : String) :
    Store.candidate { used, slots := s.slots.set k slot' } j fp = s.candidate j fp := by
  simp only [Store.candidate, List.getElem?_set]
  split
  · next hkj =>
    subst hkj
    split
    · simp [hk, hsame]
    · next hlen => simp [List.getElem?_eq_none (not_lt.mp hlen)]
  · rfl

/-- **The budget is exact**, in every store of every interleaving: a counter is
the sum of the live leases on it and within its limit; a candidate's lease
covers its value; and a call that returns `Ok(false)` has left every candidate
and every counter as it was, at its compare-exchange and at its end. -/
theorem budget_exact {s : Store} (h : Reachable valueSize limit s) :
    (∀ a, s.used a = leasedBytes a s.leases ∧ s.used a ≤ limit a) ∧
    (∀ k fp c, s.candidate k fp = .some c → ∃ lease bytes, c.lease = .some lease ∧
      estimateJsonRetainedBytes valueSize c.value fp.utf8ByteSize = .ok (.some bytes) ∧ bytes ≤ lease.bytes) ∧
    (∀ k address index fp value result s',
      step valueSize limit s (.enter k address index fp value) = .ok (result, s') → s'.refused k = true →
      s'.used = s.used ∧ ∀ j fp', s'.candidate j fp' = s.candidate j fp') ∧
    (∀ k s', step valueSize limit s (.leave k) = .ok (.some false, s') →
      s.refused k = true ∧ s'.used = s.used ∧ ∀ j fp', s'.candidate j fp' = s.candidate j fp') := by
  have hgood := h.good
  refine ⟨fun a => ⟨hgood.exact a, hgood.within a⟩, fun k fp c hc => ?_,
    fun k address index fp value result s' hs href => ?_, fun k s' hs => ?_⟩
  · obtain ⟨slot, hk, hc⟩ := Option.bind_eq_some_iff.mp hc
    obtain ⟨-, lease, hlease, bytes, he, hle⟩ := (hgood.mem hk).leased fp c hc
    exact ⟨lease, bytes, hlease, he, hle⟩
  · rcases hk : s.slots[k]? with _ | ⟨acc, _ | call⟩
    · simp only [step, hk] at hs
      cases hs
      exact ⟨rfl, fun _ _ => rfl⟩
    · obtain ⟨admission, acc', used', hok, hsame, -⟩ := enter_spec hgood address index fp value hk
      obtain ⟨-, rfl⟩ := Prod.mk.inj (Except.ok.inj (hs.symm.trans hok))
      have hlt : k < s.slots.length := (List.getElem?_eq_some_iff.mp hk).1
      have hadm : admission.refused = true := by simpa [Store.refused, hlt] using href
      obtain ⟨rfl, rfl⟩ := hsame hadm
      exact ⟨Function.update_eq_self .., candidate_set hk (by rfl) _⟩
    · simp only [step, hk] at hs
      cases hs
      exact ⟨rfl, fun _ _ => rfl⟩
  · rcases hk : s.slots[k]? with _ | ⟨acc, _ | call⟩
    · simp only [step, hk] at hs
      cases hs
    · simp only [step, hk] at hs
      cases hs
    · obtain ⟨acc', hok, hsame, -⟩ := leave_spec hgood hk
      obtain ⟨hres, rfl⟩ := Prod.mk.inj (Except.ok.inj (hs.symm.trans hok))
      have hadm : call.admission.refused = true := by simpa using (Option.some.inj hres).symm
      exact ⟨by simp [Store.refused, hk, hadm], rfl, candidate_set hk (hsame hadm) _⟩

/-- A null under a one-byte fingerprint, recorded in a budget with room for it. -/
theorem budget_oneValue : ∃ s : Store, s.used 0 = 257 ∧ s.used 0 = leasedBytes 0 s.leases := by
  have hnew : Reachable 32 (fun _ => 300) _ := .step (.new ⟨[], ⟨[], []⟩, by decide⟩ [0]) .none .init rfl
  have hleave : Reachable 32 (fun _ => 300) _ :=
    .step (.leave 0) (.some true) (.step (.enter 0 0 0 "a" .null) .none hnew rfl) rfl
  refine ⟨_, ?_, ((budget_exact hleave).1 0).1⟩
  rfl

end Pillar.JsonBudget
