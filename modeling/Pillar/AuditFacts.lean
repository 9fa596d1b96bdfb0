/-
No signature leaves without durable evidence, and no attempt is left open:
what holds after any run of one wallet's signing, whoever is cut off where.

Writes only accumulate, so what a call, a worker or the wallet's loop knows of
them stays true; each event is then checked for the party it moves.
-/
import Pillar.Audit

namespace Pillar.Audit

variable {env : Env} {w : World}

/-! ## What each party knows -/

def CallAt.live : CallAt → Bool
  | .returned _ => false
  | .dropped => false
  | _ => true

/-- A call past `begin` has an attempt; one that returned a signature has it
recorded as returned. -/
def CallOk (env : Env) (begun : List (Nat × Int)) (acked : List Evidence) (c : Nat) : CallAt → Prop
  | .beginning _ => True
  | .begun id => (c, id) ∈ begun
  | .running id => (c, id) ∈ begun
  | .recording id _ => (c, id) ∈ begun
  | .awaiting id => (c, id) ∈ begun
  | .returned outcome => ∀ signature, outcome = .ok signature →
      ∃ id, (c, id) ∈ begun ∧ env.returned id signature ∈ acked
  | .dropped => True

/-- A worker has a signature to send only once it is recorded as returned. -/
def WorkerOk (env : Env) (acked : List Evidence) (id : Int) : WorkerAt → Prop
  | .sending _ outcome => ∀ signature, outcome = .ok signature → env.returned id signature ∈ acked
  | .sent outcome => ∀ signature, outcome = .ok signature → env.returned id signature ∈ acked
  | _ => True

/-- The wallet's loop has recorded the attempts before those it still has to. -/
def WalletOk (env : Env) (ids : List Int) (acked : List Evidence) : WalletAt → Prop
  | .running => True
  | .recording result rest => ∃ done, ids = done ++ rest ∧ rest ≠ [] ∧
      ∀ id ∈ done, env.walletEvidence id result ∈ acked
  | .returned result => ∀ signature, result = .ok signature →
      ids ≠ [] ∧ ∀ id ∈ ids, env.walletEvidence id result ∈ acked
  | .dropped => True

/-- An attempt has evidence, or its unknown outcome is written or about to be. -/
def Settled (w : World) (id : Int) : Prop :=
  (∃ evidence ∈ w.acked, evidence.attempt = id) ∨ unknown id ∈ w.issued ∨ id ∈ w.guard

structure Inv (env : Env) (w : World) : Prop where
  ids : attemptIds w.attempts = w.begun.map Prod.snd
  marked : ∀ id, (id, true) ∈ w.attempts → ∃ evidence ∈ w.acked, evidence.attempt = id
  started : ∀ p ∈ w.started, p ∈ w.begun
  live : ∀ c pc, w.calls c = .some pc → pc.live = true → w.wallet = .running
  calls : ∀ c pc, w.calls c = .some pc → CallOk env w.begun w.acked c pc
  workers : ∀ c id pc, w.workers c = .some (id, pc) → (c, id) ∈ w.begun ∧ WorkerOk env w.acked id pc
  wallet : WalletOk env (attemptIds w.attempts) w.acked w.wallet
  settled : env.runtime = true → w.finished = true → ∀ id ∈ attemptIds w.attempts, Settled w id

theorem inv_new (env : Env) : Inv env World.new where
  ids := rfl
  marked := fun id h => (by cases h)
  started := fun p h => (by cases h)
  live := fun c pc h => (by cases h)
  calls := fun c pc h => (by cases h)
  workers := fun c id pc h => (by cases h)
  wallet := trivial
  settled := fun _ h => (by cases h)

theorem CallOk.mono {begun begun' : List (Nat × Int)} {acked acked' : List Evidence} {c : Nat} {pc : CallAt}
    (h : CallOk env begun acked c pc) (hbegun : ∀ p ∈ begun, p ∈ begun') (hacked : ∀ e ∈ acked, e ∈ acked') :
    CallOk env begun' acked' c pc := by
  cases pc with
  | beginning owned => trivial
  | begun id => exact hbegun _ h
  | running id => exact hbegun _ h
  | recording id outcome => exact hbegun _ h
  | awaiting id => exact hbegun _ h
  | returned outcome =>
    intro signature ho
    obtain ⟨id, hid, hack⟩ := h signature ho
    exact ⟨id, hbegun _ hid, hacked _ hack⟩
  | dropped => trivial

theorem WorkerOk.mono {acked acked' : List Evidence} {id : Int} {pc : WorkerAt} (h : WorkerOk env acked id pc)
    (hacked : ∀ e ∈ acked, e ∈ acked') : WorkerOk env acked' id pc := by
  cases pc with
  | sending lost outcome => exact fun signature ho => hacked _ (h signature ho)
  | sent outcome => exact fun signature ho => hacked _ (h signature ho)
  | _ => trivial

theorem WalletOk.mono {ids : List Int} {acked acked' : List Evidence} {pc : WalletAt} (h : WalletOk env ids acked pc)
    (hacked : ∀ e ∈ acked, e ∈ acked') : WalletOk env ids acked' pc := by
  cases pc with
  | recording result rest =>
    obtain ⟨done, hids, hrest, hdone⟩ := h
    exact ⟨done, hids, hrest, fun id hid => hacked _ (hdone id hid)⟩
  | returned result =>
    intro signature hr
    obtain ⟨hne, hall⟩ := h signature hr
    exact ⟨hne, fun id hid => hacked _ (hall id hid)⟩
  | _ => trivial

/-! ## Marking -/

theorem attemptIds_markRecorded (id : Int) (attempts : List (Int × Bool)) :
    attemptIds (markRecorded id attempts) = attemptIds attempts := by
  induction attempts with
  | nil => rfl
  | cons a rest ih =>
    rw [markRecorded]
    split
    · rfl
    · exact congrArg (a.1 :: ·) ih

theorem mem_markRecorded {id id' : Int} {attempts : List (Int × Bool)}
    (h : (id', true) ∈ markRecorded id attempts) : id' = id ∨ (id', true) ∈ attempts := by
  induction attempts with
  | nil => cases h
  | cons a rest ih =>
    rw [markRecorded] at h
    split at h
    next ha =>
      rcases List.mem_cons.mp h with he | hm
      · cases he
        exact .inl ha
      · exact .inr (List.mem_cons_of_mem _ hm)
    next =>
      rcases List.mem_cons.mp h with he | hm
      · exact .inr (he ▸ List.mem_cons_self)
      · exact (ih hm).imp_right (List.mem_cons_of_mem _)

/-- An attempt is marked or open. -/
theorem marked_or_open {id : Int} {attempts : List (Int × Bool)} (h : id ∈ attemptIds attempts) :
    (id, true) ∈ attempts ∨ id ∈ openAttempts attempts := by
  obtain ⟨⟨id', recorded⟩, hmem, rfl⟩ := List.mem_map.mp h
  cases recorded with
  | true => exact .inl hmem
  | false => exact .inr (List.mem_map.mpr ⟨_, List.mem_filter.mpr ⟨hmem, rfl⟩, rfl⟩)

/-! ## The small steps -/

theorem Inv.setCall (h : Inv env w) (c : Nat) (pc : CallAt) (hlive : pc.live = true → w.wallet = .running)
    (hpc : CallOk env w.begun w.acked c pc) : Inv env (w.setCall c pc) := by
  refine ⟨h.ids, h.marked, h.started, ?_, ?_, h.workers, h.wallet, h.settled⟩
  · intro c' pc' hc'
    by_cases he : c' = c
    · subst he
      simp only [World.setCall, Function.update_self] at hc'
      cases hc'
      exact hlive
    · simp only [World.setCall, Function.update_of_ne he] at hc'
      exact h.live c' pc' hc'
  · intro c' pc' hc'
    by_cases he : c' = c
    · subst he
      simp only [World.setCall, Function.update_self] at hc'
      cases hc'
      exact hpc
    · simp only [World.setCall, Function.update_of_ne he] at hc'
      exact h.calls c' pc' hc'

theorem Inv.setWorker (h : Inv env w) {c : Nat} {id : Int} (pc : WorkerAt) (hid : (c, id) ∈ w.begun)
    (hpc : WorkerOk env w.acked id pc) : Inv env (w.setWorker c id pc) := by
  refine ⟨h.ids, h.marked, h.started, h.live, h.calls, ?_, h.wallet, h.settled⟩
  intro c' id' pc' hc'
  by_cases he : c' = c
  · subst he
    simp only [World.setWorker, Function.update_self] at hc'
    cases hc'
    exact ⟨hid, hpc⟩
  · simp only [World.setWorker, Function.update_of_ne he] at hc'
    exact h.workers c' id' pc' hc'

theorem Inv.issue (h : Inv env w) (evidence : Evidence) : Inv env (w.issue evidence) := by
  refine ⟨h.ids, h.marked, h.started, h.live, h.calls, h.workers, h.wallet, fun hr hf id hid => ?_⟩
  exact (h.settled hr hf id hid).imp_right (Or.imp_left (List.mem_cons_of_mem _))

/-- More is acknowledged; nobody knows less for it. -/
theorem Inv.ack (h : Inv env w) (evidence : Evidence) : Inv env { w with acked := evidence :: w.acked } := by
  have hgrow : ∀ e ∈ w.acked, e ∈ evidence :: w.acked := fun e he => List.mem_cons_of_mem _ he
  refine ⟨h.ids, ?_, h.started, h.live, fun c pc hc => (h.calls c pc hc).mono (fun _ hp => hp) hgrow, ?_,
    h.wallet.mono hgrow, ?_⟩
  · intro id hid
    obtain ⟨e, he, hattempt⟩ := h.marked id hid
    exact ⟨e, hgrow e he, hattempt⟩
  · intro c id pc hc
    obtain ⟨hid, hpc⟩ := h.workers c id pc hc
    exact ⟨hid, hpc.mono hgrow⟩
  · intro hr hf id hid
    refine (h.settled hr hf id hid).imp_left fun hev => ?_
    obtain ⟨e, he, hattempt⟩ := hev
    exact ⟨e, hgrow e he, hattempt⟩

theorem Inv.answered (h : Inv env w) (evidence : Evidence) (answer : Except String Unit) :
    Inv env (w.answered evidence answer) := by
  cases answer with
  | error message => exact h
  | ok u =>
    have hack := h.ack evidence
    have hids := attemptIds_markRecorded evidence.attempt w.attempts
    rw [World.answered]
    refine ⟨hids.trans hack.ids, ?_, hack.started, hack.live, hack.calls, hack.workers, ?_, ?_⟩
    · intro id hid
      rcases mem_markRecorded hid with rfl | hid
      · exact ⟨evidence, List.mem_cons_self, rfl⟩
      · exact hack.marked id hid
    · rw [hids]
      exact hack.wallet
    · rw [hids]
      exact hack.settled

theorem Inv.start (h : Inv env w) {c : Nat} {id : Int} (hid : (c, id) ∈ w.begun) :
    Inv env { w with started := (c, id) :: w.started } := by
  refine ⟨h.ids, h.marked, ?_, h.live, h.calls, h.workers, h.wallet, h.settled⟩
  intro p hp
  rcases List.mem_cons.mp hp with rfl | hp
  · exact hid
  · exact h.started p hp

/-- `begin` is acknowledged, which it only is while the wallet still runs. -/
theorem Inv.begin (h : Inv env w) (hrunning : w.wallet = .running) (c : Nat) (id : Int) :
    Inv env { w with attempts := w.attempts ++ [(id, false)], begun := w.begun ++ [(c, id)] } := by
  have hgrow : ∀ p ∈ w.begun, p ∈ w.begun ++ [(c, id)] := fun p hp => List.mem_append_left _ hp
  refine ⟨?_, ?_, fun p hp => hgrow p (h.started p hp), h.live, ?_, ?_, ?_, ?_⟩
  · have hids := h.ids
    simp only [attemptIds, List.map_append] at hids ⊢
    rw [hids]
    rfl
  · intro id' hid'
    rcases List.mem_append.mp hid' with hid' | hid'
    · exact h.marked id' hid'
    · cases List.mem_singleton.mp hid'
  · exact fun c' pc hc => (h.calls c' pc hc).mono hgrow fun _ he => he
  · intro c' id' pc hc
    obtain ⟨hid, hpc⟩ := h.workers c' id' pc hc
    exact ⟨hgrow _ hid, hpc⟩
  · simp only [hrunning]
    trivial
  · intro _ hf
    simp only [World.finished, hrunning] at hf
    cases hf

/-! ## Calls -/

/-- A call that ends with an error has nothing to show for it. -/
theorem Inv.returnError (h : Inv env w) (c : Nat) (error : SignerError) :
    Inv env (w.setCall c (.returned (.error error))) :=
  h.setCall c _ (fun hl => (by cases hl)) fun _ ho => (by cases ho)

theorem Inv.beginAnswer (h : Inv env w) (c : Nat) (answer : Except String Int) : Inv env (w.beginAnswer c answer) := by
  unfold World.beginAnswer
  split
  next owned id hc =>
    have hrunning := h.live c _ hc rfl
    have hbegin := h.begin hrunning c id
    have hid : (c, id) ∈ w.begun ++ [(c, id)] := List.mem_append_right _ List.mem_cons_self
    cases owned with
    | true => exact (hbegin.setCall c (.awaiting id) (fun _ => hrunning) hid).setWorker .queued hid trivial
    | false => exact hbegin.setCall c (.begun id) (fun _ => hrunning) hid
  next => exact h.returnError c _
  next => exact h

theorem Inv.poll (h : Inv env w) (c : Nat) : Inv env (w.poll c) := by
  unfold World.poll
  split
  next id hc =>
    have hid : (c, id) ∈ w.begun := h.calls c _ hc
    exact (h.setCall c (.running id) (fun _ => h.live c _ hc rfl) hid).start hid
  next => exact h

theorem Inv.effect (h : Inv env w) (c : Nat) (result : Outcome) : Inv env (w.effect env c result) := by
  unfold World.effect
  split
  next id hc =>
    have hid : (c, id) ∈ w.begun := h.calls c _ hc
    exact (h.setCall c (.recording id result) (fun _ => h.live c _ hc rfl) hid).issue _
  next => exact h

theorem Inv.deadline (h : Inv env w) (c : Nat) : Inv env (w.deadline c) := by
  unfold World.deadline
  split
  next => exact h.returnError c _
  next => exact h.returnError c _
  next => exact h.returnError c _
  next => exact h

/-- A recorded outcome is a signature only where the store acknowledged it as
returned. -/
theorem returned_of_recordedOutcome {id : Int} {outcome : Outcome} {answer : Except String Unit}
    {signature : List UInt8} (ho : World.recordedOutcome outcome answer = .ok signature) :
    env.returned id signature ∈ (w.answered (env.effectEvidence id outcome) answer).acked := by
  cases answer with
  | error message => cases ho
  | ok u =>
    have hout : outcome = .ok signature := ho
    subst hout
    exact List.mem_cons_self

theorem answered_begun (w : World) (evidence : Evidence) (answer : Except String Unit) :
    (w.answered evidence answer).begun = w.begun := by
  cases answer <;> rfl

theorem Inv.answer (h : Inv env w) (c : Nat) (answer : Except String Unit) : Inv env (w.answer env c answer) := by
  unfold World.answer
  split
  next id outcome hc =>
    refine (h.answered _ answer).setCall c _ (fun hl => (by cases hl)) fun signature ho => ⟨id, ?_, ?_⟩
    · rw [answered_begun]
      exact h.calls c _ hc
    · exact returned_of_recordedOutcome ho
  next => exact h

theorem Inv.receive (h : Inv env w) (c : Nat) : Inv env (w.receive c) := by
  unfold World.receive
  split
  next id outcome _ hw =>
    obtain ⟨hid, hsent⟩ := h.workers c _ _ hw
    exact h.setCall c _ (fun hl => (by cases hl)) fun signature ho => ⟨_, hid, hsent signature ho⟩
  next => exact h.returnError c _
  next => exact h

theorem callOk_dropCall {begun : List (Nat × Int)} {acked : List Evidence} {c : Nat} {pc : CallAt}
    (h : CallOk env begun acked c pc) : CallOk env begun acked c (World.dropCall pc) := by
  cases pc with
  | returned outcome => exact h
  | _ => trivial

theorem not_live_dropCall (pc : CallAt) : (World.dropCall pc).live = false := by
  cases pc <;> rfl

theorem Inv.drop (h : Inv env w) (c : Nat) : Inv env (w.drop c) := by
  unfold World.drop
  split
  next pc hc =>
    refine h.setCall c _ (fun hl => ?_) (callOk_dropCall (h.calls c pc hc))
    rw [not_live_dropCall] at hl
    cases hl
  next => exact h

theorem Inv.dropCalls (h : Inv env w) : Inv env w.dropCalls := by
  refine ⟨h.ids, h.marked, h.started, ?_, ?_, h.workers, h.wallet, h.settled⟩
  · intro c pc hc hl
    obtain ⟨pc', -, rfl⟩ := Option.map_eq_some_iff.mp hc
    rw [not_live_dropCall] at hl
    cases hl
  · intro c pc hc
    obtain ⟨pc', hc', rfl⟩ := Option.map_eq_some_iff.mp hc
    exact callOk_dropCall (h.calls c pc' hc')

/-! ## Workers -/

theorem Inv.workerStart (h : Inv env w) (c : Nat) : Inv env (w.workerStart c) := by
  unfold World.workerStart
  split
  next id hw =>
    have hid := (h.workers c _ _ hw).1
    split
    next => exact (h.setWorker .closing hid trivial).issue _
    next => exact (h.setWorker (.running false) hid trivial).start hid
  next => exact h

theorem Inv.workerEffect (h : Inv env w) (c : Nat) (result : Outcome) : Inv env (w.workerEffect env c result) := by
  unfold World.workerEffect
  split
  next id error hw => exact h.setWorker _ (h.workers c _ _ hw).1 fun _ ho => (by cases ho)
  next id lost hw _ => exact (h.setWorker (.recording lost _) (h.workers c _ _ hw).1 trivial).issue _
  next => exact h

theorem Inv.workerLost (h : Inv env w) (c : Nat) : Inv env (w.workerLost c) := by
  unfold World.workerLost
  split
  next id hw =>
    split
    next => exact (h.setWorker .losing (h.workers c _ _ hw).1 trivial).issue _
    next => exact h
  next => exact h

theorem Inv.workerAnswer (h : Inv env w) (c : Nat) (answer : Except String Unit) :
    Inv env (w.workerAnswer env c answer) := by
  have hbegun : ∀ id pc evidence, w.workers c = .some (id, pc) → (c, id) ∈ (w.answered evidence answer).begun := by
    intro id pc evidence hw
    rw [answered_begun]
    exact (h.workers c id pc hw).1
  unfold World.workerAnswer
  split
  next id hw => exact (h.answered _ answer).setWorker _ (hbegun id _ _ hw) trivial
  next id hw => exact (h.answered _ answer).setWorker _ (hbegun id _ _ hw) trivial
  next id lost outcome hw =>
    exact (h.answered _ answer).setWorker _ (hbegun id _ _ hw) fun _ ho => returned_of_recordedOutcome ho
  next id hw => exact (h.answered _ answer).setWorker _ (hbegun id _ _ hw) trivial
  next => exact h

theorem Inv.workerSend (h : Inv env w) (c : Nat) : Inv env (w.workerSend c) := by
  unfold World.workerSend
  split
  next id lost outcome hw =>
    obtain ⟨hid, hsending⟩ := h.workers c _ _ hw
    split
    next =>
      split
      next => exact h.setWorker .stopped hid trivial
      next => exact (h.setWorker .regretting hid trivial).issue _
    next => exact h.setWorker (.sent outcome) hid hsending
  next => exact h

theorem Inv.workerAbort (h : Inv env w) (c : Nat) : Inv env (w.workerAbort c) := by
  unfold World.workerAbort
  split
  next => exact h
  next id pc _ hw => exact h.setWorker .stopped (h.workers c _ _ hw).1 trivial
  next => exact h

/-! ## The wallet -/

/-- No call is under way. -/
def Quiet (w : World) : Prop := ∀ c pc, w.calls c = .some pc → pc.live = false

theorem quiet_dropCalls (w : World) : Quiet w.dropCalls := by
  intro c pc hc
  obtain ⟨pc', -, rfl⟩ := Option.map_eq_some_iff.mp hc
  exact not_live_dropCall pc'

theorem Inv.quiet (h : Inv env w) (hw : w.wallet ≠ .running) : Quiet w := by
  intro c pc hc
  by_contra hl
  exact hw (h.live c pc hc (Bool.not_eq_false _ ▸ hl))

/-- **The guard leaves no attempt open**: those without evidence go to its
task. -/
theorem Inv.finish (h : Inv env w) (hquiet : Quiet w) {pc : WalletAt}
    (hpc : WalletOk env (attemptIds w.attempts) w.acked pc) : Inv env (w.finish env pc) := by
  refine ⟨h.ids, h.marked, h.started, ?_, h.calls, h.workers, hpc, ?_⟩
  · intro c pc' hc hl
    rw [hquiet c pc' hc] at hl
    cases hl
  · intro hr _ id hid
    rcases marked_or_open hid with hmarked | hopen
    · exact .inl (h.marked id hmarked)
    · refine .inr (.inr ?_)
      simp only [World.finish, hr, if_true]
      exact hopen

/-- The loop goes on, with all before `rest` recorded. -/
theorem Inv.walletNext (h : Inv env w) (hquiet : Quiet w) {result : Except AppCoreError Signature}
    (done : List Int) {rest : List Int} (hids : attemptIds w.attempts = done ++ rest)
    (hdone : ∀ id ∈ done, env.walletEvidence id result ∈ w.acked)
    (hsome : ∀ signature, result = .ok signature → attemptIds w.attempts ≠ []) :
    Inv env (w.walletNext env result rest) := by
  cases rest with
  | nil =>
    refine h.finish hquiet fun signature hr => ⟨hsome signature hr, ?_⟩
    rw [hids, List.append_nil]
    exact hdone
  | cons id rest =>
    have hrecording : Inv env { w with wallet := .recording result (id :: rest) } := by
      refine ⟨h.ids, h.marked, h.started, ?_, h.calls, h.workers, ?_, ?_⟩
      · intro c pc hc hl
        rw [hquiet c pc hc] at hl
        cases hl
      · exact ⟨done, hids, List.cons_ne_nil _ _, hdone⟩
      · intro _ hf
        cases hf
    exact hrecording.issue _

theorem Inv.walletReturn (h : Inv env w) (result : Except AppCoreError Signature) :
    Inv env (w.walletReturn env result) := by
  unfold World.walletReturn
  split
  next =>
    dsimp only
    split
    next => exact h.dropCalls.finish (quiet_dropCalls w) fun _ hr => (by cases hr)
    next hne =>
      refine h.dropCalls.walletNext (quiet_dropCalls w) [] rfl (fun _ hid => (by cases hid)) ?_
      intro signature hr he
      subst hr
      exact hne (by simp [he, Except.toBool])
  next => exact h

theorem Inv.walletAnswer (h : Inv env w) (answer : Except String Unit) : Inv env (w.walletAnswer env answer) := by
  unfold World.walletAnswer
  split
  next result id rest hw =>
    have hquiet := h.quiet (by rw [hw]; exact WalletAt.noConfusion)
    have hwallet := h.wallet
    rw [hw] at hwallet
    obtain ⟨done, hids, -, hdone⟩ := hwallet
    have hsame : attemptIds (w.answered (env.walletEvidence id result) (.ok ())).attempts = attemptIds w.attempts :=
      attemptIds_markRecorded _ w.attempts
    have hquiet' : Quiet (w.answered (env.walletEvidence id result) (.ok ())) := hquiet
    refine (h.answered _ _).walletNext hquiet' (done ++ [id]) ?_ ?_ ?_
    · rw [hsame, hids]
      simp
    · intro id' hid'
      rcases List.mem_append.mp hid' with hid' | hid'
      · exact List.mem_cons_of_mem _ (hdone id' hid')
      · rw [List.mem_singleton.mp hid']
        exact List.mem_cons_self
    · intro _ _
      rw [hsame, hids]
      simp
  next hw => exact h.finish (h.quiet (by rw [hw]; exact WalletAt.noConfusion)) fun _ hr => (by cases hr)
  next => exact h

theorem Inv.dropWallet (h : Inv env w) : Inv env (w.dropWallet env) := by
  unfold World.dropWallet
  split
  next => exact h.dropCalls.finish (quiet_dropCalls w) trivial
  next => exact h.dropCalls.finish (quiet_dropCalls w) trivial
  next => exact h

theorem Inv.guardAnswer (h : Inv env w) (answer : Except String Unit) : Inv env (w.guardAnswer answer) := by
  unfold World.guardAnswer
  split
  next => exact h
  next id rest hguard =>
    have hissue : Inv env ({ w with guard := rest }.issue (unknown id)) := by
      refine ⟨h.ids, h.marked, h.started, h.live, h.calls, h.workers, h.wallet, fun hr hf id' hid' => ?_⟩
      refine (h.settled hr hf id' hid').imp_right fun hout => ?_
      rw [hguard] at hout
      rcases hout with hissued | hmem
      · exact .inl (List.mem_cons_of_mem _ hissued)
      · rcases List.mem_cons.mp hmem with rfl | hmem
        · exact .inl List.mem_cons_self
        · exact .inr hmem
    cases answer with
    | ok u => exact hissue.ack _
    | error message => exact hissue

/-! ## Runs -/

theorem Inv.step (h : Inv env w) (event : Event) : Inv env (w.step env event) := by
  cases event with
  | call c owned =>
    rw [World.step]
    split
    next hrunning _ => exact h.setCall c _ (fun _ => hrunning) trivial
    next => exact h
  | refuse c error =>
    rw [World.step]
    split
    next => exact h.returnError c error
    next => exact h
  | beginAnswer c answer => exact h.beginAnswer c answer
  | poll c => exact h.poll c
  | effect c result => exact h.effect c result
  | deadline c => exact h.deadline c
  | answer c answer => exact h.answer c answer
  | receive c => exact h.receive c
  | drop c => exact h.drop c
  | workerStart c => exact h.workerStart c
  | workerEffect c result => exact h.workerEffect c result
  | workerLost c => exact h.workerLost c
  | workerAnswer c answer => exact h.workerAnswer c answer
  | workerSend c => exact h.workerSend c
  | workerAbort c => exact h.workerAbort c
  | walletReturn result => exact h.walletReturn result
  | walletAnswer answer => exact h.walletAnswer answer
  | dropWallet => exact h.dropWallet
  | guardAnswer answer => exact h.guardAnswer answer

theorem inv_run (h : Inv env w) (events : List Event) : Inv env (w.run env events) := by
  induction events generalizing w with
  | nil => exact h
  | cons event events ih => exact ih (h.step event)

/-- The guard's task gets through its list, and keeps what was issued. -/
theorem issued_of_guard (env : Env) (w : World) (answers : List (Except String Unit))
    (hlength : answers.length = w.guard.length) {id : Int} (h : unknown id ∈ w.issued ∨ id ∈ w.guard) :
    unknown id ∈ (w.run env (answers.map .guardAnswer)).issued := by
  induction answers generalizing w with
  | nil =>
    have hguard : w.guard = [] := List.length_eq_zero_iff.mp hlength.symm
    rw [hguard] at h
    exact h.resolve_right (fun hm => (by cases hm))
  | cons answer answers ih =>
    cases hguard : w.guard with
    | nil =>
      rw [hguard] at hlength
      cases hlength
    | cons id' rest =>
      -- One write: its attempt's is issued, whatever the store answers.
      have hissued : (w.guardAnswer answer).issued = unknown id' :: w.issued := by
        unfold World.guardAnswer
        rw [hguard]
        cases answer <;> rfl
      have hrest : (w.guardAnswer answer).guard = rest := by
        unfold World.guardAnswer
        rw [hguard]
        cases answer <;> rfl
      rw [hguard] at hlength h
      refine ih (w.guardAnswer answer) (by rw [hrest]; exact Nat.succ.inj hlength) ?_
      rw [hissued, hrest]
      rcases h with hissued' | hmem
      · exact .inl (List.mem_cons_of_mem _ hissued')
      · rcases List.mem_cons.mp hmem with rfl | hmem
        · exact .inl List.mem_cons_self
        · exact .inr hmem

/-- **No signature leaves without durable evidence, and no attempt is left
open.** After any run: `sign_wallet` has returned a signature only if it began
an attempt and the store acknowledged `WalletReturned` with its fingerprint for
every one it began; a call of `run_sign` or `sign_owned_effect` has returned one
only if `ExternalReturned` with its fingerprint was acknowledged for its
attempt; an effect has started only once its attempt's `begin` was
acknowledged; and once `sign_wallet` has returned or been dropped, in a runtime,
each attempt has acknowledged evidence or an `OutcomeUnknown` write that is
issued, the guard's task being through. -/
theorem no_signature_without_evidence (env : Env) (events : List Event) :
    let w := World.new.run env events
    (∀ signature, w.wallet = .returned (.ok signature) → w.begun ≠ [] ∧ ∀ c id, (c, id) ∈ w.begun →
      ⟨id, .walletReturned, .some (env.walletHash signature)⟩ ∈ w.acked) ∧
    (∀ c signature, w.calls c = .some (.returned (.ok signature)) → ∃ id, (c, id) ∈ w.begun ∧
      ⟨id, .externalReturned, .some (env.fingerprint signature)⟩ ∈ w.acked) ∧
    (∀ c id, (c, id) ∈ w.started → (c, id) ∈ w.begun) ∧
    (env.runtime = true → w.finished = true → ∀ c id, (c, id) ∈ w.begun →
      (∃ evidence ∈ w.acked, evidence.attempt = id) ∨
        ∀ answers : List (Except String Unit), answers.length = w.guard.length →
          unknown id ∈ (w.run env (answers.map .guardAnswer)).issued) := by
  intro w
  have h : Inv env w := inv_run (inv_new env) events
  have hmem : ∀ c id, (c, id) ∈ w.begun → id ∈ attemptIds w.attempts := by
    intro c id hid
    rw [h.ids]
    exact List.mem_map.mpr ⟨_, hid, rfl⟩
  refine ⟨?_, ?_, fun c id hid => h.started _ hid, ?_⟩
  · intro signature hwallet
    have hok := h.wallet
    rw [hwallet] at hok
    obtain ⟨hne, hall⟩ := hok signature rfl
    refine ⟨fun hnil => hne ?_, fun c id hid => hall id (hmem c id hid)⟩
    rw [h.ids, hnil]
    rfl
  · intro c signature hc
    exact h.calls c _ hc signature rfl
  · intro hr hf c id hid
    refine (h.settled hr hf id (hmem c id hid)).imp_right fun hout answers hlength => ?_
    exact issued_of_guard env w answers hlength hout

end Pillar.Audit
