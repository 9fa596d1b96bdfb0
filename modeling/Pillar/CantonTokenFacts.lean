/-
What Canton's token slot does, along every run: one token request at a time,
no token beyond its lifetime or after its invalidation, and at most one retry
of a ledger call.

A call that holds the mutex is alone with the slot; what another does in the
meantime leaves all its knowledge as it was (`Keeps`). So the invariant of a
call is checked for the steps of that call only.
-/
import Pillar.CantonToken

namespace Pillar.CantonToken

/-! ## The log -/

/-- Of every entry, with those before it. -/
def Throughout (P : Entry → List Entry → Prop) : List Entry → Prop
  | [] => True
  | entry :: earlier => P entry earlier ∧ Throughout P earlier

theorem Throughout.of_append {P : Entry → List Entry → Prop} {later earlier : List Entry} {entry : Entry}
    (h : Throughout P (later ++ entry :: earlier)) : P entry earlier := by
  induction later with
  | nil => exact h.1
  | cons e later ih => exact ih h.2

/-- What the slot holds, after these. -/
def slotOf : List Entry → Option CachedToken
  | [] => .none
  | .cached _ _ token _ now ms :: _ => .some ⟨token, now + ms * nsPerMs⟩
  | .cleared _ :: _ => .none
  | _ :: earlier => slotOf earlier

/-- Invalidated, and not issued since. -/
def Stale (token : String) : List Entry → Prop
  | [] => False
  | .issued _ _ issued _ :: earlier => issued ≠ token ∧ Stale token earlier
  | .invalidated _ rejected :: earlier => rejected = token ∨ Stale token earlier
  | _ :: earlier => Stale token earlier

/-- Writes the slot. -/
def Entry.writes : Entry → Bool
  | .cached .. => true
  | .cleared _ => true
  | _ => false

/-- A ledger call or its answer, made by this call. -/
def Entry.isLedgerOf (id : Nat) : Entry → Bool
  | .ledgerCall call _ => call = id
  | .ledgerAnswer call _ => call = id
  | _ => false

/-- The ledger calls one call made, with their answers. -/
def ledgerOf (id : Nat) (log : List Entry) : List Entry := log.filter (·.isLedgerOf id)

/-- A first ledger call was refused, and a new token may help. -/
def Refused (id : Nat) (token : String) (refusal : RpcError) (story : List Entry) : Prop :=
  story = [.ledgerAnswer id (.error refusal), .ledgerCall id token] ∧ isHttpUnauthorized refusal

/-- A ledger call was made again, with a token other than the one refused. -/
def Retried (id : Nat) (token fresh : String) (story : List Entry) : Prop :=
  ∃ refusal earlier, story = .ledgerCall id fresh :: earlier ∧ Refused id token refusal earlier ∧ fresh ≠ token

/-- The ledger calls of one call: none, one, or a second after a refusal. -/
def Story (id : Nat) (story : List Entry) : Prop :=
  story = [] ∨ (∃ token, story = [.ledgerCall id token]) ∨
    (∃ token result, story = [.ledgerAnswer id result, .ledgerCall id token]) ∨
    (∃ token fresh, Retried id token fresh story) ∨
    ∃ token fresh result earlier, story = .ledgerAnswer id result :: earlier ∧ Retried id token fresh earlier

theorem slotOf_eq_some {log : List Entry} {cached : CachedToken} (h : slotOf log = .some cached) :
    ∃ recent call again expiresIn now ms older,
      log = recent ++ .cached call again cached.token expiresIn now ms :: older ∧
      cached.expiresAt = now + ms * nsPerMs ∧ ∀ entry ∈ recent, entry.writes = false := by
  induction log with
  | nil => cases h
  | cons entry log ih =>
    cases entry with
    | cached call again token expiresIn now ms =>
      cases h
      exact ⟨[], call, again, expiresIn, now, ms, log, rfl, rfl, by simp⟩
    | cleared call => cases h
    | issued | got | invalidated | ledgerCall | ledgerAnswer =>
      obtain ⟨recent, call, again, expiresIn, now, ms, older, rfl, hat, hrecent⟩ := ih h
      exact ⟨_ :: recent, call, again, expiresIn, now, ms, older, rfl, hat,
        List.forall_mem_cons.mpr ⟨rfl, hrecent⟩⟩

/-- Once invalidated a token is stale, unless it is issued anew. -/
theorem stale_or_issued {token : String} (call : Nat) (earlier middle : List Entry) :
    Stale token (middle ++ .invalidated call token :: earlier) ∨
      ∃ call again expiresIn, .issued call again token expiresIn ∈ middle := by
  induction middle with
  | nil => exact .inl (.inl rfl)
  | cons entry middle ih =>
    rcases ih with hstale | ⟨call', again, expiresIn, hmem⟩
    · cases entry with
      | issued call' again issued expiresIn =>
        by_cases htoken : issued = token
        · subst htoken
          exact .inr ⟨call', again, expiresIn, List.mem_cons_self⟩
        · exact .inl ⟨htoken, hstale⟩
      | invalidated call' rejected => exact .inl (.inr hstale)
      | cached | cleared | got | ledgerCall | ledgerAnswer => exact .inl hstale
    · exact .inr ⟨call', again, expiresIn, List.mem_cons_of_mem _ hmem⟩

namespace World

variable {w w' : World} {id other : Nat}

/-! ## What a call knows -/

/-- What the ledger calls were, by what `get_token` is called for. -/
def UseOk (id : Nat) (story : List Entry) : Use → Prop
  | .alone => story = []
  | .first => story = []
  | .again refused refusal => Refused id refused refusal story

def GetOk (w : World) (id : Nat) (use : Use) : GetAt → Prop
  | .locking => True
  | .locked => w.lock = .some id
  | .requesting => w.lock = .some id ∧ w.cached = .none
  | .parsing _ => w.lock = .some id ∧ w.cached = .none
  | .fetched token expiresIn => w.lock = .some id ∧ w.cached = .none ∧ ¬ Stale token w.log ∧
      .issued id use.isAgain token expiresIn ∈ w.log

def CallOk (w : World) (id : Nat) : Option CallAt → Prop
  | .none => ledgerOf id w.log = []
  | .some (.getting use pc) => UseOk id (ledgerOf id w.log) use ∧ w.GetOk id use pc
  | .some (.invalidating rejected refusal locked) =>
      refusal.elim (ledgerOf id w.log = []) (fun refusal => Refused id rejected refusal (ledgerOf id w.log)) ∧
        (locked = true → w.lock = .some id)
  | .some (.calling token) => ledgerOf id w.log = [.ledgerCall id token]
  | .some (.recalling token fresh) => Retried id token fresh (ledgerOf id w.log)
  | .some (.done _) => Story id (ledgerOf id w.log)
  | .some .dropped => Story id (ledgerOf id w.log)

/-- An entry that may follow these: what is kept was issued and is kept as long
as it is valid, what is returned was fetched by the call or read in time. -/
def Lawful : Entry → List Entry → Prop
  | .cached call again token expiresIn _ ms, earlier =>
      validFor expiresIn = .some ms ∧ .issued call again token expiresIn ∈ earlier
  | .got call again token now, earlier => ¬ Stale token earlier ∧
      ((∃ expiresIn, .issued call again token expiresIn ∈ earlier) ∨
        ∃ cached, slotOf earlier = .some cached ∧ cached.token = token ∧ now < cached.expiresAt)
  | _, _ => True

/-- The invariant but for one call. -/
structure InvBut (w : World) (id : Nat) : Prop where
  known : id < w.started
  unstarted : ∀ other, w.started ≤ other → w.calls other = .none
  others : ∀ other, other ≠ id → w.CallOk other (w.calls other)
  slot : w.cached = slotOf w.log
  fresh : ∀ cached, w.cached = .some cached → ¬ Stale cached.token w.log
  lawful : Throughout Lawful w.log

structure Inv (w : World) : Prop where
  unstarted : ∀ id, w.started ≤ id → w.calls id = .none
  calls : ∀ id, w.CallOk id (w.calls id)
  slot : w.cached = slotOf w.log
  fresh : ∀ cached, w.cached = .some cached → ¬ Stale cached.token w.log
  lawful : Throughout Lawful w.log

theorem Inv.but (h : Inv w) {pc : CallAt} (hpc : w.calls id = .some pc) : InvBut w id where
  known := by
    by_contra hge
    rw [h.unstarted id (not_lt.mp hge)] at hpc
    cases hpc
  unstarted := h.unstarted
  others := fun other _ => h.calls other
  slot := h.slot
  fresh := h.fresh
  lawful := h.lawful

theorem InvBut.put (h : InvBut w id) (pc : CallAt) (hpc : w.CallOk id (.some pc)) : Inv (w.put id pc) where
  unstarted := fun other hother => by
    have hne : other ≠ id := fun heq => absurd (heq ▸ hother) (not_le.mpr h.known)
    show Function.update w.calls id (.some pc) other = .none
    rw [Function.update_of_ne hne]
    exact h.unstarted other hother
  calls := fun other => by
    show w.CallOk other (Function.update w.calls id (.some pc) other)
    by_cases heq : other = id
    · subst heq
      rw [Function.update_self]
      exact hpc
    · rw [Function.update_of_ne heq]
      exact h.others other heq
  slot := h.slot
  fresh := h.fresh
  lawful := h.lawful

/-- A call's knowledge stays, where its ledger calls are the same and, while it
holds the mutex, so is the slot. -/
theorem CallOk.frame {pc : Option CallAt} (h : w.CallOk other pc)
    (hledger : ledgerOf other w'.log = ledgerOf other w.log)
    (hlock : w.lock = .some other → w'.lock = .some other ∧ w'.cached = w.cached ∧
      (∀ token, Stale token w'.log → Stale token w.log) ∧ ∀ entry ∈ w.log, entry ∈ w'.log) :
    w'.CallOk other pc := by
  cases pc with
  | none => exact hledger.trans h
  | some pc =>
    cases pc with
    | getting use pc =>
      refine ⟨by rw [hledger]; exact h.1, ?_⟩
      have hget := h.2
      cases pc with
      | locking => trivial
      | locked => exact (hlock hget).1
      | requesting =>
        obtain ⟨hl, hc, -⟩ := hlock hget.1
        exact ⟨hl, hc.trans hget.2⟩
      | parsing text =>
        obtain ⟨hl, hc, -⟩ := hlock hget.1
        exact ⟨hl, hc.trans hget.2⟩
      | fetched token expiresIn =>
        obtain ⟨hl, hc, hstale, hmem⟩ := hlock hget.1
        exact ⟨hl, hc.trans hget.2.1, fun hs => hget.2.2.1 (hstale token hs), hmem _ hget.2.2.2⟩
    | invalidating rejected refusal locked =>
      refine ⟨?_, fun hlocked => (hlock (h.2 hlocked)).1⟩
      rw [hledger]
      exact h.1
    | calling token => exact hledger.trans h
    | recalling token fresh =>
      simp only [CallOk, hledger]
      exact h
    | done outcome =>
      simp only [CallOk, hledger]
      exact h
    | dropped =>
      simp only [CallOk, hledger]
      exact h

/-! ## What a step does to the others -/

/-- No other call holds the mutex. -/
def Alone (w : World) (id : Nat) : Prop := ∀ other, other ≠ id → w.lock ≠ .some other

theorem alone_of_holder (hlock : w.lock = .some id) : w.Alone id := fun _ hother h =>
  hother (Option.some.inj (h.symm.trans hlock))

theorem alone_of_free (hlock : w.lock = .none) : w.Alone id := fun other _ h => by simp [hlock] at h

/-- The mutex changes hands, when no other has it. -/
theorem InvBut.setLock (h : InvBut w id) (halone : w.Alone id) (lock : Option Nat) :
    InvBut { w with lock := lock } id :=
  { h with others := fun other hother => (h.others other hother).frame rfl (fun hl => absurd hl (halone other hother)) }

/-- An entry of the call's own: neither about the slot nor about a token's end. -/
theorem InvBut.record (h : InvBut w id) {entry : Entry} (hlawful : Lawful entry w.log)
    (hledger : ∀ other, other ≠ id → entry.isLedgerOf other = false) (hslot : slotOf (entry :: w.log) = slotOf w.log)
    (hstale : ∀ token, Stale token (entry :: w.log) → Stale token w.log) : InvBut (w.record entry) id where
  known := h.known
  unstarted := h.unstarted
  others := fun other hother => by
    refine (h.others other hother).frame ?_ (fun hl => ⟨hl, rfl, hstale, fun e => List.mem_cons_of_mem _⟩)
    simp only [World.record, ledgerOf, List.filter_cons, hledger other hother, Bool.false_eq_true, if_false]
  slot := h.slot.trans hslot.symm
  fresh := fun cached hcached hs => h.fresh cached hcached (hstale _ hs)
  lawful := ⟨hlawful, h.lawful⟩

/-- The slot is emptied, by the call that holds the mutex. -/
theorem InvBut.clear (h : InvBut w id) (halone : w.Alone id) : InvBut (w.clear id) id where
  known := h.known
  unstarted := h.unstarted
  others := fun other hother => (h.others other hother).frame rfl (fun hl => absurd hl (halone other hother))
  slot := rfl
  fresh := fun cached hcached => by cases hcached
  lawful := ⟨trivial, h.lawful⟩

/-- A token's end is recorded, when it is not in the slot. -/
theorem InvBut.recordInvalidated (h : InvBut w id) (halone : w.Alone id) {rejected : String}
    (hslot : ∀ cached, w.cached = .some cached → cached.token ≠ rejected) :
    InvBut (w.record (.invalidated id rejected)) id where
  known := h.known
  unstarted := h.unstarted
  others := fun other hother => (h.others other hother).frame rfl (fun hl => absurd hl (halone other hother))
  slot := h.slot
  fresh := fun cached hcached hs => hs.elim (fun heq => hslot cached hcached heq.symm) (h.fresh cached hcached)
  lawful := ⟨trivial, h.lawful⟩

/-- A token fetched is put into the slot. -/
theorem InvBut.keep (h : InvBut w id) (halone : w.Alone id) {use : Use} {token : String} {expiresIn : Option Double}
    (hstale : ¬ Stale token w.log) (hissued : .issued id use.isAgain token expiresIn ∈ w.log) :
    InvBut (w.keep id use token expiresIn) id := by
  unfold World.keep
  split
  next ms hms =>
    exact
      { known := h.known
        unstarted := h.unstarted
        others := fun other hother => (h.others other hother).frame rfl (fun hl => absurd hl (halone other hother))
        slot := rfl
        fresh := fun cached hcached hs => by
          cases hcached
          exact hstale hs
        lawful := ⟨⟨hms, hissued⟩, h.lawful⟩ }
  next => exact h

theorem keep_lock (w : World) (id : Nat) (use : Use) (token : String) (expiresIn : Option Double) :
    (w.keep id use token expiresIn).lock = w.lock := by
  unfold World.keep
  split <;> rfl

theorem ledgerOf_keep (w : World) (id call : Nat) (use : Use) (token : String) (expiresIn : Option Double) :
    ledgerOf call (w.keep id use token expiresIn).log = ledgerOf call w.log := by
  unfold World.keep
  split <;> rfl

theorem stale_keep (w : World) (id : Nat) (use : Use) (token : String) (expiresIn : Option Double) (other : String) :
    Stale other (w.keep id use token expiresIn).log ↔ Stale other w.log := by
  unfold World.keep
  split <;> rfl

theorem mem_log_keep {use : Use} {token : String} {expiresIn : Option Double} {entry : Entry} (h : entry ∈ w.log) :
    entry ∈ (w.keep id use token expiresIn).log := by
  unfold World.keep
  split
  · exact List.mem_cons_of_mem _ h
  · exact h

/-! ## What a step does to the call -/

theorem UseOk.story {use : Use} {story : List Entry} (h : UseOk id story use) : Story id story := by
  cases use with
  | alone => exact .inl h
  | first => exact .inl h
  | again refused refusal => exact .inr (.inr (.inl ⟨refused, .error refusal, h.1⟩))

theorem ledgerOf_cons_ledgerCall (log : List Entry) (token : String) :
    ledgerOf id (.ledgerCall id token :: log) = .ledgerCall id token :: ledgerOf id log := by
  simp [ledgerOf, Entry.isLedgerOf]

theorem ledgerOf_cons_ledgerAnswer (log : List Entry) (result : Except RpcError Json) :
    ledgerOf id (.ledgerAnswer id result :: log) = .ledgerAnswer id result :: ledgerOf id log := by
  simp [ledgerOf, Entry.isLedgerOf]

/-- `get_token` fails. -/
theorem InvBut.fail (h : InvBut w id) (hlock : w.lock = .some id) {use : Use}
    (huse : UseOk id (ledgerOf id w.log) use) (error : AppCoreError) : Inv (w.fail id use error) := by
  have hbut : InvBut w.unlock id := h.setLock (alone_of_holder hlock) .none
  cases use with
  | alone => exact hbut.put (.done _) huse.story
  | first => exact hbut.put (.done _) huse.story
  | again refused refusal => exact hbut.put (.done _) huse.story

/-- The ledger is called. -/
theorem InvBut.callLedger (h : InvBut w id) (token : String) : InvBut (w.record (.ledgerCall id token)) id :=
  h.record trivial (fun _ hother => decide_eq_false hother.symm) rfl (fun _ hs => hs)

/-- `get_token` returns. -/
theorem InvBut.got (h : InvBut w id) (hlock : w.lock = .some id) {use : Use}
    (huse : UseOk id (ledgerOf id w.log) use) {token : String}
    (hlawful : Lawful (.got id use.isAgain token w.clock) w.log) : Inv (w.got id use token) := by
  have hbut : InvBut (w.unlock.record (.got id use.isAgain token w.clock)) id :=
    (h.setLock (alone_of_holder hlock) .none).record hlawful (fun _ _ => rfl) rfl (fun _ hs => hs)
  cases use with
  | alone => exact hbut.put (.done _) huse.story
  | first =>
    refine (hbut.callLedger token).put (.calling token) ?_
    rw [UseOk] at huse
    show ledgerOf id (.ledgerCall id token :: .got id false token w.clock :: w.log) = _
    rw [ledgerOf_cons_ledgerCall]
    exact congrArg _ huse
  | again refused refusal =>
    by_cases hfresh : token ≠ refused
    · simp only [World.got, useToken, if_pos hfresh]
      refine (hbut.callLedger token).put (.recalling refused token) ?_
      exact ⟨refusal, ledgerOf id w.log, ledgerOf_cons_ledgerCall _ _, huse, hfresh⟩
    · simp only [World.got, useToken, if_neg hfresh]
      exact hbut.put (.done _) huse.story

/-- `invalidate` returns. -/
theorem InvBut.invalidated (h : InvBut w id) (hlock : w.lock = .some id) {rejected : String}
    {refusal : Option RpcError}
    (hledger : refusal.elim (ledgerOf id w.log = []) fun refusal => Refused id rejected refusal (ledgerOf id w.log))
    (hslot : ∀ cached, w.cached = .some cached → cached.token ≠ rejected) :
    Inv (w.invalidated id rejected refusal) := by
  have hfree : InvBut w.unlock id := h.setLock (alone_of_holder hlock) .none
  have hbut := hfree.recordInvalidated (alone_of_free rfl) hslot
  cases refusal with
  | none => exact hbut.put (.done _) (.inl hledger)
  | some refusal => exact hbut.put (.getting (.again rejected refusal) .locking) ⟨hledger, trivial⟩

/-! ## Every step -/

theorem Inv.advanceGet (h : Inv w) {use : Use} {pc : GetAt} (hpc : w.calls id = .some (.getting use pc)) :
    Inv (w.advanceGet id use pc) := by
  have hbut := h.but hpc
  obtain ⟨huse, hget⟩ : w.CallOk id (.some (.getting use pc)) := hpc ▸ h.calls id
  cases pc with
  | locking =>
    simp only [World.advanceGet]
    split
    next hfree =>
      exact (hbut.setLock (alone_of_free hfree) (.some id)).put (.getting use .locked) ⟨huse, rfl⟩
    next => exact h
  | locked =>
    simp only [World.advanceGet]
    split
    next cached hcached =>
      obtain ⟨hslot, hlive⟩ := Option.filter_eq_some_iff.mp hcached
      refine hbut.got hget huse ⟨h.fresh cached hslot, .inr ⟨cached, h.slot ▸ hslot, rfl, ?_⟩⟩
      simpa using hlive
    next =>
      exact (hbut.clear (alone_of_holder hget)).put (.getting use .requesting) ⟨huse, hget, rfl⟩
  | requesting => exact h
  | parsing text => exact h
  | fetched token expiresIn =>
    obtain ⟨hlock, -, hstale, hissued⟩ := hget
    refine (hbut.keep (alone_of_holder hlock) hstale hissued).got ?_ ?_ ⟨?_, .inl ⟨expiresIn, mem_log_keep hissued⟩⟩
    · rw [keep_lock]
      exact hlock
    · rw [ledgerOf_keep]
      exact huse
    · rw [stale_keep]
      exact hstale

theorem Inv.advanceInvalidate (h : Inv w) {rejected : String} {refusal : Option RpcError} {locked : Bool}
    (hpc : w.calls id = .some (.invalidating rejected refusal locked)) :
    Inv (w.advanceInvalidate id rejected refusal locked) := by
  have hbut := h.but hpc
  obtain ⟨hledger, hlocked⟩ : w.CallOk id (.some (.invalidating rejected refusal locked)) := hpc ▸ h.calls id
  cases locked with
  | false =>
    simp only [World.advanceInvalidate]
    split
    next hfree =>
      exact (hbut.setLock (alone_of_free hfree) (.some id)).put (.invalidating rejected refusal true)
        ⟨hledger, fun _ => rfl⟩
    next => exact h
  | true =>
    have hlock := hlocked rfl
    simp only [World.advanceInvalidate]
    split
    next => exact (hbut.clear (alone_of_holder hlock)).invalidated hlock hledger (by simp [World.clear])
    next hnot =>
      refine hbut.invalidated hlock hledger fun cached hcached heq => hnot ?_
      simp [hcached, heq]

theorem Inv.advance (h : Inv w) (id : Nat) : Inv (w.advance id) := by
  unfold World.advance
  split
  next hpc => exact h.advanceGet hpc
  next hpc => exact h.advanceInvalidate hpc
  next => exact h

theorem Inv.respond (reason : Nat → String) (h : Inv w) (id : Nat) (answer : Except RpcError (Nat × String)) :
    Inv (w.respond reason id answer) := by
  unfold World.respond
  split
  next use status text hpc =>
    obtain ⟨huse, hlock, hcached⟩ : w.CallOk id (.some (.getting use .requesting)) := hpc ▸ h.calls id
    split
    · exact (h.but hpc).put (.getting use (.parsing text)) ⟨huse, hlock, hcached⟩
    · exact (h.but hpc).fail hlock huse _
  next use error hpc =>
    obtain ⟨huse, hlock, -⟩ : w.CallOk id (.some (.getting use .requesting)) := hpc ▸ h.calls id
    exact (h.but hpc).fail hlock huse _
  next => exact h

theorem Inv.parsed (h : Inv w) (id : Nat) (result : Except String Json) : Inv (w.parsed id result) := by
  unfold World.parsed
  split
  next use text response hpc =>
    obtain ⟨huse, hlock, hcached⟩ : w.CallOk id (.some (.getting use (.parsing text))) := hpc ▸ h.calls id
    split
    next token htoken =>
      have hbut : InvBut (w.record (.issued id use.isAgain token (expiresIn response))) id :=
        (h.but hpc).record trivial (fun _ _ => rfl) rfl (fun _ hs => hs.2)
      exact hbut.put (.getting use (.fetched token (expiresIn response)))
        ⟨huse, hlock, hcached, fun hs => hs.1 rfl, List.mem_cons_self⟩
    next => exact (h.but hpc).fail hlock huse _
  next use text error hpc =>
    obtain ⟨huse, hlock, -⟩ : w.CallOk id (.some (.getting use (.parsing text))) := hpc ▸ h.calls id
    exact (h.but hpc).fail hlock huse _
  next => exact h

theorem refusedToken_eq_some {token : String} {result : Except RpcError Json} {refusal : RpcError}
    (h : refusedToken token result = .some refusal) : result = .error refusal ∧ isHttpUnauthorized refusal := by
  unfold refusedToken at h
  split at h
  next error =>
    split at h
    next hrefused =>
      cases h
      exact ⟨rfl, hrefused.2⟩
    next => cases h
  next => cases h

theorem Inv.answer (h : Inv w) (id : Nat) (result : Except RpcError Json) : Inv (w.answer id result) := by
  have hrecord : ∀ {pc}, w.calls id = .some pc → InvBut (w.record (.ledgerAnswer id result)) id := fun hpc =>
    (h.but hpc).record trivial (fun _ hother => decide_eq_false hother.symm) rfl (fun _ hs => hs)
  unfold World.answer
  split
  next token hpc =>
    have hledger : ledgerOf id w.log = [.ledgerCall id token] :=
      (show w.CallOk id (.some (.calling token)) from hpc ▸ h.calls id)
    have hstory : ledgerOf id (.ledgerAnswer id result :: w.log) = [.ledgerAnswer id result, .ledgerCall id token] := by
      rw [ledgerOf_cons_ledgerAnswer, hledger]
    dsimp only
    split
    next refusal hrefused =>
      obtain ⟨rfl, hunauthorized⟩ := refusedToken_eq_some hrefused
      exact (hrecord hpc).put (.invalidating token (.some refusal) false)
        ⟨⟨hstory, hunauthorized⟩, fun hfalse => by cases hfalse⟩
    next => exact (hrecord hpc).put (.done _) (.inr (.inr (.inl ⟨token, result, hstory⟩)))
  next token fresh hpc =>
    have hretried : Retried id token fresh (ledgerOf id w.log) :=
      (show w.CallOk id (.some (.recalling token fresh)) from hpc ▸ h.calls id)
    exact (hrecord hpc).put (.done _) (.inr (.inr (.inr (.inr
      ⟨token, fresh, result, ledgerOf id w.log, ledgerOf_cons_ledgerAnswer _ _, hretried⟩))))
  next => exact h

theorem CallOk.story {pc : CallAt} (h : w.CallOk id (.some pc)) : Story id (ledgerOf id w.log) := by
  cases pc with
  | getting use pc => exact h.1.story
  | invalidating rejected refusal locked =>
    cases refusal with
    | none => exact .inl h.1
    | some refusal => exact .inr (.inr (.inl ⟨rejected, .error refusal, h.1.1⟩))
  | calling token => exact .inr (.inl ⟨token, h⟩)
  | recalling token fresh => exact .inr (.inr (.inr (.inl ⟨token, fresh, h⟩)))
  | done outcome => exact h
  | dropped => exact h

theorem Inv.drop (h : Inv w) (id : Nat) : Inv (w.drop id) := by
  unfold World.drop
  split
  next => exact h
  next => exact h
  next pc hnot hpc =>
    have hstory : Story id (ledgerOf id w.log) := (show w.CallOk id (.some pc) from hpc ▸ h.calls id).story
    by_cases hlock : w.lock = some id
    · simp only [if_pos hlock]
      exact ((h.but hpc).setLock (alone_of_holder hlock) .none).put (.dropped) hstory
    · simp only [if_neg hlock]
      exact (h.but hpc).put (.dropped) hstory

theorem Inv.start (h : Inv w) (call : Call) :
    Inv { w.put w.started call.begin with started := w.started + 1 } where
  unstarted := fun other hother => by
    have hlt : w.started < other := hother
    show Function.update w.calls w.started (.some call.begin) other = .none
    rw [Function.update_of_ne hlt.ne']
    exact h.unstarted other hlt.le
  calls := fun other => by
    show w.CallOk other (Function.update w.calls w.started (.some call.begin) other)
    by_cases heq : other = w.started
    · subst heq
      have hledger : ledgerOf w.started w.log = [] := by
        have hcall := h.calls w.started
        rwa [h.unstarted _ le_rfl] at hcall
      rw [Function.update_self]
      cases call with
      | getToken => exact ⟨hledger, trivial⟩
      | invalidate rejected => exact ⟨hledger, fun hfalse => by cases hfalse⟩
      | authorized => exact ⟨hledger, trivial⟩
    · rw [Function.update_of_ne heq]
      exact h.calls other
  slot := h.slot
  fresh := h.fresh
  lawful := h.lawful

variable (reason : Nat → String)

theorem Inv.step (h : Inv w) (event : Event) : Inv (w.step reason event) := by
  cases event with
  | tick ns =>
    exact { h with calls := fun other =>
      (h.calls other).frame rfl (fun hl => ⟨hl, rfl, fun _ hs => hs, fun _ he => he⟩) }
  | start call => exact h.start call
  | advance id => exact h.advance id
  | respond id answer => exact h.respond reason id answer
  | parsed id result => exact h.parsed id result
  | answer id result => exact h.answer id result
  | drop id => exact h.drop id

theorem inv_new (clock : Nat) : Inv (new clock) where
  unstarted := fun _ _ => rfl
  calls := fun _ => rfl
  slot := rfl
  fresh := fun cached hcached => by cases hcached
  lawful := trivial

theorem Inv.run (h : Inv w) (events : List Event) : Inv (w.run reason events) := by
  induction events generalizing w with
  | nil => exact h
  | cons event events ih => exact ih (h.step reason event)

/-! ## Who writes the slot -/

theorem cached_fail (w : World) (id : Nat) (use : Use) (error : AppCoreError) :
    (w.fail id use error).cached = w.cached := by
  cases use <;> rfl

theorem cached_got (w : World) (id : Nat) (use : Use) (token : String) : (w.got id use token).cached = w.cached := by
  cases use with
  | alone => rfl
  | first => rfl
  | again refused refusal =>
    simp only [World.got, useToken]
    split <;> rfl

theorem cached_invalidated (w : World) (id : Nat) (rejected : String) (refusal : Option RpcError) :
    (w.invalidated id rejected refusal).cached = w.cached := by
  cases refusal <;> rfl

/-- A token leaves the slot when it has expired, or by its own invalidation. -/
theorem Inv.leaves (h : Inv w) {cached : CachedToken} (hcached : w.cached = .some cached) {event : Event}
    (hgone : (w.step reason event).cached ≠ .some cached) : ∃ id, event = .advance id ∧
      ((∃ refusal, w.calls id = .some (.invalidating cached.token refusal true)) ∨
        ∃ use, w.calls id = .some (.getting use .locked) ∧ cached.expiresAt ≤ w.clock) := by
  cases event with
  | tick ns => exact absurd hcached hgone
  | start call => exact absurd hcached hgone
  | advance id =>
    refine ⟨id, rfl, ?_⟩
    simp only [World.step, World.advance] at hgone
    split at hgone
    next use pc hpc =>
      obtain ⟨-, hget⟩ : w.CallOk id (.some (.getting use pc)) := hpc ▸ h.calls id
      cases pc with
      | locking =>
        simp only [World.advanceGet] at hgone
        split at hgone <;> exact absurd hcached hgone
      | locked =>
        refine .inr ⟨use, hpc, ?_⟩
        by_contra hlive
        have hfilter : w.cached.filter (w.clock < ·.expiresAt) = .some cached := by
          rw [hcached]
          simp [Option.filter, not_le.mp hlive]
        simp only [World.advanceGet, hfilter, cached_got] at hgone
        exact hgone hcached
      | requesting => exact absurd hcached hgone
      | parsing text => exact absurd hcached hgone
      | fetched token expiresIn =>
        obtain ⟨-, hempty, -⟩ := hget
        rw [hcached] at hempty
        cases hempty
    next rejected refusal locked hpc =>
      cases locked with
      | false =>
        simp only [World.advanceInvalidate] at hgone
        split at hgone <;> exact absurd hcached hgone
      | true =>
        simp only [World.advanceInvalidate, hcached, Option.any_some, decide_eq_true_eq] at hgone
        split at hgone
        next htoken =>
          subst htoken
          exact .inl ⟨refusal, hpc⟩
        next => exact absurd ((cached_invalidated w id rejected refusal).trans hcached) hgone
    next => exact absurd hcached hgone
  | respond id answer =>
    refine absurd ?_ hgone
    simp only [World.step, World.respond]
    split
    · split
      · exact hcached
      · exact (cached_fail w ..).trans hcached
    · exact (cached_fail w ..).trans hcached
    · exact hcached
  | parsed id result =>
    refine absurd ?_ hgone
    simp only [World.step, World.parsed]
    split
    · split
      · exact hcached
      · exact (cached_fail w ..).trans hcached
    · exact (cached_fail w ..).trans hcached
    · exact hcached
  | answer id result =>
    refine absurd ?_ hgone
    simp only [World.step, World.answer]
    split
    · split <;> exact hcached
    · exact hcached
    · exact hcached
  | drop id =>
    refine absurd ?_ hgone
    simp only [World.step, World.drop]
    split <;> exact hcached

theorem Inv.holder_of_requesting (h : Inv w) (hrequesting : w.Requesting id) : w.lock = .some id := by
  obtain ⟨use, hpc⟩ := hrequesting
  obtain ⟨-, hlock, -⟩ : w.CallOk id (.some (.getting use .requesting)) := hpc ▸ h.calls id
  exact hlock

end World

/-! ## Lifetimes -/

/-- Of whole seconds, exactly what is left after the buffer. -/
theorem validFor_seconds {n : Nat} (hmin : 61 ≤ n) (hmax : n ≤ 2147543) :
    validFor (.some (.finite n)) = .some ((n - 60) * 1000) := by
  have hsub : (Double.finite n).sub tokenBufferSeconds = .finite ((n - 60 : Nat) : ℚ) := by
    show Double.ofRat ((n : ℚ) - 60) = _
    rw [← Double.ofNat_eq (by omega), Double.ofNat, Nat.cast_sub (by omega), Nat.cast_ofNat]
  have hmul : (Double.finite ((n - 60 : Nat) : ℚ)).mul (.finite 1000) = .finite (((n - 60) * 1000 : Nat) : ℚ) := by
    show Double.ofRat (((n - 60 : Nat) : ℚ) * 1000) = _
    rw [← Double.ofNat_eq (by omega), Double.ofNat, Nat.cast_mul, Nat.cast_ofNat]
  have hone : (1 : ℚ) ≤ ((n - 60) * 1000 : Nat) := by
    exact_mod_cast (by omega : 1 ≤ (n - 60) * 1000)
  have htimer : (((n - 60) * 1000 : Nat) : ℚ) ≤ maxTimerDelayMs := by
    rw [maxTimerDelayMs]
    exact_mod_cast (by omega : (n - 60) * 1000 ≤ 2147483647)
  simp only [validFor, Option.map_some, hsub, hmul, Option.filter_some, isTimerDelay, hone, htimer, decide_true,
    Bool.and_self, if_true, Double.toNat, Int.floor_natCast, Int.toNat_natCast]

theorem isTimerDelay_iff {delay : Double} :
    isTimerDelay delay = true ↔ ∃ q : ℚ, delay = .finite q ∧ 1 ≤ q ∧ q ≤ maxTimerDelayMs := by
  cases delay <;> simp [isTimerDelay]

/-- Of anything, no more than two roundings allow. -/
theorem validFor_le {seconds : Option Double} {ms : Nat} (h : validFor seconds = .some ms) :
    ∃ q : ℚ, seconds = .some (.finite q) ∧ (ms : ℚ) ≤ (q - 60) * 1000 * (1 + (2 : ℚ) ^ (-53 : ℤ)) ^ 2 := by
  obtain ⟨delay, hfilter, rfl⟩ := Option.map_eq_some_iff.mp h
  obtain ⟨hdelay, htimer⟩ := Option.filter_eq_some_iff.mp hfilter
  obtain ⟨value, rfl, hvalue⟩ := Option.map_eq_some_iff.mp hdelay
  obtain ⟨d, rfl, hone, -⟩ := isTimerDelay_iff.mp htimer
  have hleast : Double.leastNormal ≤ 1 / 8000 :=
    (zpow_le_zpow_right₀ (by norm_num) (by norm_num : (-1022 : ℤ) ≤ -13)).trans (by norm_num)
  obtain ⟨s, hs, hround⟩ := Double.mul_eq_finite hvalue
  obtain ⟨q, rfl, hq⟩ := Double.sub_eq_finite hs
  refine ⟨q, rfl, ?_⟩
  have hd := Double.ofRat_le_of_normal (Double.normal_of_ofRat hround (by linarith)) hround
  have hs2 : 2 * Double.leastNormal ≤ s := by
    norm_num at hd
    linarith
  have hsq := Double.ofRat_le_of_normal (Double.normal_of_ofRat hq hs2) hq
  have hfloor : ((Double.finite d).toNat : ℚ) ≤ d := by
    rw [Double.toNat, ← Int.cast_natCast, Int.toNat_of_nonneg (Int.floor_nonneg.mpr (by linarith))]
    exact Int.floor_le d
  calc ((Double.finite d).toNat : ℚ) ≤ d := hfloor
    _ ≤ s * 1000 * (1 + (2 : ℚ) ^ (-53 : ℤ)) := hd
    _ ≤ (q - 60) * (1 + (2 : ℚ) ^ (-53 : ℤ)) * 1000 * (1 + (2 : ℚ) ^ (-53 : ℤ)) := by gcongr
    _ = (q - 60) * 1000 * (1 + (2 : ℚ) ^ (-53 : ℤ)) ^ 2 := by ring

/-! ## The slot -/

/-- **The token slot is safe.** In every run, whatever its calls, its answers and
the calls dropped: one token request is in flight at most; what `get_token`
returns it fetched itself, or it is the last token kept, read before its lifetime
was over; an invalidated token is not returned again before it is issued anew; a
token leaves the slot by its own invalidation or when it has expired; and a call
makes one ledger call, and a second only after the first was refused for its
token and with another. A lifetime is what the token's is less a minute. -/
theorem World.slot_safe (reason : Nat → String) (clock : Nat) (events : List Event) :
    let w := (World.new clock).run reason events
    (∀ id other, w.Requesting id → w.Requesting other → id = other) ∧
    (∀ later call again token now earlier, w.log = later ++ .got call again token now :: earlier →
      (∃ expiresIn, .issued call again token expiresIn ∈ earlier) ∨
      ∃ recent call' again' expiresIn fetched ms older,
        earlier = recent ++ .cached call' again' token expiresIn fetched ms :: older ∧
        (∀ entry ∈ recent, entry.writes = false) ∧ .issued call' again' token expiresIn ∈ older ∧
        validFor expiresIn = .some ms ∧ now < fetched + ms * nsPerMs) ∧
    (∀ later call again token now middle call' earlier,
      w.log = later ++ .got call again token now :: (middle ++ .invalidated call' token :: earlier) →
      ∃ call'' again' expiresIn, .issued call'' again' token expiresIn ∈ middle) ∧
    (∀ cached event, w.cached = .some cached → (w.step reason event).cached ≠ .some cached →
      ∃ id, event = .advance id ∧
        ((∃ refusal, w.calls id = .some (.invalidating cached.token refusal true)) ∨
          ∃ use, w.calls id = .some (.getting use .locked) ∧ cached.expiresAt ≤ w.clock)) ∧
    (∀ id, Story id (ledgerOf id w.log)) ∧
    (∀ n : Nat, 61 ≤ n → n ≤ 2147543 → validFor (.some (.finite n)) = .some ((n - 60) * 1000)) ∧
    ∀ seconds ms, validFor seconds = .some ms →
      ∃ q : ℚ, seconds = .some (.finite q) ∧ (ms : ℚ) ≤ (q - 60) * 1000 * (1 + (2 : ℚ) ^ (-53 : ℤ)) ^ 2 := by
  intro w
  have hinv : Inv w := (inv_new clock).run reason events
  refine ⟨fun id other hid hother => ?_, ?_, ?_, fun cached event hcached hgone => hinv.leaves reason hcached hgone,
    fun id => ?_, fun n => validFor_seconds, fun seconds ms => validFor_le⟩
  · have hlock := hinv.holder_of_requesting hid
    rw [hinv.holder_of_requesting hother] at hlock
    exact (Option.some.inj hlock).symm
  · intro later call again token now earlier hlog
    have hlawful := hinv.lawful
    rw [hlog] at hlawful
    obtain ⟨-, hissued | ⟨cached, hslot, rfl, hlive⟩⟩ := hlawful.of_append
    · exact .inl hissued
    · obtain ⟨recent, call', again', expiresIn, fetched, ms, older, rfl, hat, hrecent⟩ := slotOf_eq_some hslot
      have hkept : Throughout Lawful ((later ++ .got call again cached.token now :: recent) ++
          .cached call' again' cached.token expiresIn fetched ms :: older) := by simpa using hlawful
      obtain ⟨hvalid, hissued⟩ := hkept.of_append
      exact .inr ⟨recent, call', again', expiresIn, fetched, ms, older, rfl, hrecent, hissued, hvalid, hat ▸ hlive⟩
  · intro later call again token now middle call' earlier hlog
    have hlawful := hinv.lawful
    rw [hlog] at hlawful
    exact (stale_or_issued call' earlier middle).resolve_left hlawful.of_append.1
  · cases hcall : w.calls id with
    | none => exact .inl (show w.CallOk id .none from hcall ▸ hinv.calls id)
    | some pc => exact (show w.CallOk id (.some pc) from hcall ▸ hinv.calls id).story

end Pillar.CantonToken
