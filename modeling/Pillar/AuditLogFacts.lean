/-
The audit log is bounded, consistent and free of conflicts, whatever calls
processes make in whatever order.

Each transaction's lemma says what it does when it commits; a call that does
not commit changes at most the next identity number.
-/
import Pillar.AuditLog

namespace Pillar.AuditLog

open Audit (EvidenceKind)

variable {fingerprint : List UInt8 → String} {db db' : Database} {name : String}

/-- How many attempts the namespace has. -/
def Database.attemptsOf (db : Database) (name : String) : Nat :=
  db.attempts.countP (·.key.namespace_ = name)

structure Inv (db : Database) : Prop where
  names : ∀ a ∈ db.namespaces, ∀ b ∈ db.namespaces, a.namespace_ = b.namespace_ → a = b
  counts : ∀ row ∈ db.namespaces,
    row.attemptCount = db.attemptsOf row.namespace_ ∧ row.attemptCount ≤ row.maxAttempts
  homes : ∀ a ∈ db.attempts, ∃ row ∈ db.namespaces, row.namespace_ = a.key.namespace_
  intents : ∀ a ∈ db.intents, ∀ b ∈ db.intents, a.key = b.key → a = b
  agreed : ∀ a ∈ db.attempts, ⟨a.key, a.signed⟩ ∈ db.intents
  drawn : ∀ a ∈ db.attempts, a.id < db.sequence
  ids : ∀ a ∈ db.attempts, ∀ b ∈ db.attempts, a.id = b.id → a = b
  evidence : ∀ e ∈ db.evidence, ∃ a ∈ db.attempts, a.id = e.attemptId ∧ a.key.namespace_ = e.writer
  kinds : ∀ e ∈ db.evidence, ∀ e' ∈ db.evidence, e.attemptId = e'.attemptId → e.kind = e'.kind → e = e'

theorem inv_empty : Inv Database.empty where
  names := fun a ha => (by cases ha)
  counts := fun row hrow => (by cases hrow)
  homes := fun a ha => (by cases ha)
  intents := fun a ha => (by cases ha)
  agreed := fun a ha => (by cases ha)
  drawn := fun a ha => (by cases ha)
  ids := fun a ha => (by cases ha)
  evidence := fun e he => (by cases he)
  kinds := fun e he => (by cases he)

/-! ## Single statements -/

theorem namespaceRow_some {row : NamespaceRow} (h : db.namespaceRow name = .some row) :
    row ∈ db.namespaces ∧ row.namespace_ = name :=
  ⟨List.mem_of_find?_eq_some h, by simpa using List.find?_some h⟩

theorem namespaceRow_none (h : db.namespaceRow name = .none) : ∀ row ∈ db.namespaces, row.namespace_ ≠ name := by
  intro row hrow he
  exact List.find?_eq_none.mp h row hrow (decide_eq_true he)

/-- Adding a row with a key nobody has keeps keys unique. -/
theorem unique_cons {α β : Type} {key : α → β} {row : α} {rows : List α}
    (h : ∀ a ∈ rows, ∀ b ∈ rows, key a = key b → a = b) (hnew : ∀ a ∈ rows, key a ≠ key row) :
    ∀ a ∈ row :: rows, ∀ b ∈ row :: rows, key a = key b → a = b := by
  intro a ha b hb hkey
  rcases List.mem_cons.mp ha with hra | ha <;> rcases List.mem_cons.mp hb with hrb | hb
  · exact hra.trans hrb.symm
  · exact absurd (hra ▸ hkey.symm) (hnew b hb)
  · exact absurd (hrb ▸ hkey) (hnew a ha)
  · exact h a ha b hb hkey

theorem Inv.insertNamespace (h : Inv db) (name : String) (maximum : Nat) : Inv (db.insertNamespace name maximum) := by
  unfold Database.insertNamespace
  split
  next => exact h
  next hnone =>
    have hnew := namespaceRow_none hnone
    refine { h with names := unique_cons h.names hnew, counts := ?_, homes := ?_ }
    · intro row hrow
      rcases List.mem_cons.mp hrow with rfl | hrow
      · -- No attempt can have come before its namespace.
        have hzero : db.attemptsOf name = 0 := by
          refine List.countP_eq_zero.mpr fun a ha hname => ?_
          obtain ⟨home, hhome, hsame⟩ := h.homes a ha
          exact hnew home hhome (hsame.trans (of_decide_eq_true hname))
        exact ⟨hzero.symm, Nat.zero_le _⟩
      · exact h.counts row hrow
    · intro a ha
      obtain ⟨home, hhome, hsame⟩ := h.homes a ha
      exact ⟨home, List.mem_cons_of_mem _ hhome, hsame⟩

theorem intentRow_some {key : IntentKey} {row : IntentRow} (h : db.intentRow key = .some row) :
    row ∈ db.intents ∧ row.key = key :=
  ⟨List.mem_of_find?_eq_some h, by simpa using List.find?_some h⟩

theorem Inv.insertIntent (h : Inv db) (row : IntentRow) : Inv (db.insertIntent row) := by
  unfold Database.insertIntent
  split
  next => exact h
  next hnone =>
    have hnew : ∀ a ∈ db.intents, a.key ≠ row.key := by
      intro a ha he
      exact List.find?_eq_none.mp hnone a ha (decide_eq_true he)
    refine { h with intents := unique_cons h.intents hnew, agreed := ?_ }
    exact fun a ha => List.mem_cons_of_mem _ (h.agreed a ha)

/-- An attempt of a recorded intent, counted in its namespace. -/
theorem Inv.insertAttempt (h : Inv db) {row : AttemptRow} {home : NamespaceRow}
    (hhome : db.namespaceRow name = .some home) (hroom : home.attemptCount < home.maxAttempts)
    (hname : row.key.namespace_ = name) (hid : row.id = db.sequence) (hagreed : ⟨row.key, row.signed⟩ ∈ db.intents) :
    Inv ((db.insertAttempt row).countAttempt name) := by
  obtain ⟨hmem, hhomeName⟩ := namespaceRow_some hhome
  have hcount : ∀ other, ((db.insertAttempt row).countAttempt name).attemptsOf other =
      db.attemptsOf other + if other = name then 1 else 0 := by
    intro other
    simp only [Database.attemptsOf, Database.countAttempt, Database.insertAttempt, List.countP_cons, hname,
      decide_eq_true_eq]
    simp only [eq_comm]
  have hrows : ∀ a ∈ ((db.insertAttempt row).countAttempt name).namespaces, ∃ old ∈ db.namespaces,
      a.namespace_ = old.namespace_ ∧ a.maxAttempts = old.maxAttempts ∧
      (a.attemptCount = old.attemptCount + if old.namespace_ = name then 1 else 0) ∧
      a = if old.namespace_ = name then { old with attemptCount := old.attemptCount + 1 } else old := by
    intro a ha
    obtain ⟨old, hold, rfl⟩ := List.mem_map.mp ha
    refine ⟨old, hold, ?_⟩
    by_cases hn : old.namespace_ = name <;> simp [hn]
  constructor
  case names =>
    intro a ha b hb hab
    obtain ⟨olda, holda, hna, -, -, ha⟩ := hrows a ha
    obtain ⟨oldb, holdb, hnb, -, -, hb⟩ := hrows b hb
    have hold := h.names olda holda oldb holdb (hna.symm.trans (hab.trans hnb))
    rw [ha, hb, hold]
  case counts =>
    intro a ha
    obtain ⟨old, hold, hn, hmax, hattempts, -⟩ := hrows a ha
    obtain ⟨heq, hle⟩ := h.counts old hold
    refine ⟨?_, ?_⟩
    · rw [hattempts, hcount, hn, heq]
    · rw [hattempts, hmax]
      by_cases hin : old.namespace_ = name
      · -- The one row of this namespace is the one that had room.
        have hsame := h.names old hold home hmem (hin.trans hhomeName.symm)
        subst hsame
        rw [if_pos hin]
        exact hroom
      · rw [if_neg hin]
        exact hle
  case homes =>
    intro a ha
    have hnamed : ∀ old ∈ db.namespaces, ∃ r ∈ ((db.insertAttempt row).countAttempt name).namespaces,
        r.namespace_ = old.namespace_ := by
      intro old hold
      refine ⟨_, List.mem_map.mpr ⟨old, hold, rfl⟩, ?_⟩
      split <;> rfl
    rcases List.mem_cons.mp ha with rfl | ha
    · obtain ⟨r, hr, hn⟩ := hnamed home hmem
      exact ⟨r, hr, hn.trans (hhomeName.trans hname.symm)⟩
    · obtain ⟨old, hold, hsame⟩ := h.homes a ha
      obtain ⟨r, hr, hn⟩ := hnamed old hold
      exact ⟨r, hr, hn.trans hsame⟩
  case intents => exact h.intents
  case agreed =>
    intro a ha
    rcases List.mem_cons.mp ha with rfl | ha
    · exact hagreed
    · exact h.agreed a ha
  case drawn =>
    intro a ha
    rcases List.mem_cons.mp ha with rfl | ha
    · exact hid ▸ Nat.lt_succ_self _
    · exact Nat.lt_succ_of_lt (h.drawn a ha)
  case ids => exact unique_cons h.ids fun a ha he => (h.drawn a ha).ne (he.trans hid)
  case evidence =>
    intro e he
    obtain ⟨a, ha, hrest⟩ := h.evidence e he
    exact ⟨a, List.mem_cons_of_mem _ ha, hrest⟩
  case kinds => exact h.kinds

theorem evidenceRow_some {attempt : Nat} {kind : EvidenceKind} {row : EvidenceRow}
    (h : db.evidenceRow attempt kind = .some row) :
    row ∈ db.evidence ∧ row.attemptId = attempt ∧ row.kind = kind :=
  ⟨List.mem_of_find?_eq_some h, by simpa using List.find?_some h⟩

/-- Evidence about an attempt of the writer's namespace. -/
theorem Inv.insertEvidence (h : Inv db) {row : EvidenceRow} {a : AttemptRow} (ha : a ∈ db.attempts)
    (hid : a.id = row.attemptId) (hname : a.key.namespace_ = row.writer) : Inv (db.insertEvidence row) := by
  unfold Database.insertEvidence
  split
  next => exact h
  next hnone =>
    have hnew : ∀ e ∈ db.evidence, ¬ (e.attemptId = row.attemptId ∧ e.kind = row.kind) := by
      intro e he hboth
      exact List.find?_eq_none.mp hnone e he (decide_eq_true hboth)
    refine { h with evidence := ?_, kinds := ?_ }
    · intro e he
      rcases List.mem_cons.mp he with rfl | he
      · exact ⟨a, ha, hid, hname⟩
      · exact h.evidence e he
    · intro e he e' he' hattempt hkind
      rcases List.mem_cons.mp he with hr | he <;> rcases List.mem_cons.mp he' with hr' | he'
      · exact hr.trans hr'.symm
      · rw [hr] at hattempt hkind
        exact absurd ⟨hattempt.symm, hkind.symm⟩ (hnew e' he')
      · rw [hr'] at hattempt hkind
        exact absurd ⟨hattempt, hkind⟩ (hnew e he)
      · exact h.kinds e he e' he' hattempt hkind

/-- Identity numbers are drawn for nothing. -/
theorem Inv.draw (h : Inv db) (drawn : Nat) : Inv { db with sequence := db.sequence + drawn } :=
  { h with drawn := fun a ha => Nat.lt_add_right drawn (h.drawn a ha) }

/-! ## Transactions -/

theorem initializeNamespace_ok {maximum : Nat} (h : initializeNamespace name maximum db = .ok ((), db')) :
    db' = db.insertNamespace name maximum := by
  unfold initializeNamespace at h
  split at h
  next => cases h
  next =>
    dsimp only at h
    split at h
    next => cases h
    next =>
      split at h
      next => cases h
      next =>
        cases h
        rfl

/-- **What `begin` does when it commits**: in a namespace with room it adds an
attempt, numbered by the sequence, of an intent that is there and agrees. -/
theorem beginInner_ok {intent : AttemptIntent} {id : Nat} (h : beginInner fingerprint name intent db = .ok (id, db')) :
    let key := intentKey fingerprint name intent
    let inserted := db.insertIntent ⟨key, signedOf intent⟩
    ∃ home, db.namespaceRow name = .some home ∧ home.attemptCount < home.maxAttempts ∧
      ⟨key, signedOf intent⟩ ∈ inserted.intents ∧ id = inserted.sequence ∧
      db' = (inserted.insertAttempt (attemptRow key intent id)).countAttempt name := by
  intro key inserted
  unfold beginInner at h
  split at h
  next => cases h
  next home hhome =>
    split at h
    next => cases h
    next hroom =>
      dsimp only at h
      split at h
      next => cases h
      next stored hstored =>
        split at h
        next => cases h
        next hsame =>
          split at h
          next => cases h
          next =>
            cases h
            obtain ⟨hmem, hkey⟩ := intentRow_some hstored
            have hsigned : stored.signed = signedOf intent := not_not.mp hsame
            refine ⟨home, hhome, Nat.lt_of_not_le hroom, ?_, rfl, rfl⟩
            have hrow : stored = ⟨key, signedOf intent⟩ := by
              rw [← hsigned, ← show stored.key = key from hkey]
            exact hrow ▸ hmem

/-- **What `record` does when it commits**: the evidence is there, about an
attempt of its own namespace. -/
theorem recordInner_ok {attempt : Nat} {kind : EvidenceKind} {hash : Option String}
    (h : recordInner name attempt kind hash db = .ok ((), db')) :
    db' = db.insertEvidence ⟨attempt, kind, hash, name⟩ ∧
      (∃ a ∈ db.attempts, a.id = attempt ∧ a.key.namespace_ = name) ∧
      ∃ row ∈ db'.evidence, row.attemptId = attempt ∧ row.kind = kind ∧ row.signatureHash = hash := by
  unfold recordInner at h
  split at h
  next => cases h
  next a ha =>
    dsimp only at h
    split at h
    next => cases h
    next row hrow =>
      split at h
      next => cases h
      next hhash =>
        cases h
        obtain ⟨hmem, hattempt, hkind⟩ := evidenceRow_some hrow
        refine ⟨rfl, ⟨a, List.mem_of_find?_eq_some ha, by simpa using List.find?_some ha⟩, row, hmem,
          hattempt, hkind, ?_⟩
        exact not_not.mp hhash

/-- What every transaction does to a consistent database: it stays so, and
loses no attempt and no evidence. -/
structure Extends (db db' : Database) : Prop where
  inv : Inv db → Inv db'
  attempts : ∀ a ∈ db.attempts, a ∈ db'.attempts
  evidence : ∀ e ∈ db.evidence, e ∈ db'.evidence

theorem extends_refl (db : Database) : Extends db db := ⟨fun h => h, fun _ ha => ha, fun _ he => he⟩

theorem Extends.trans {db'' : Database} (h : Extends db db') (h' : Extends db' db'') : Extends db db'' :=
  ⟨fun hi => h'.inv (h.inv hi), fun a ha => h'.attempts a (h.attempts a ha),
    fun e he => h'.evidence e (h.evidence e he)⟩

theorem insertEvidence_evidence (db : Database) (row : EvidenceRow) :
    ∀ e ∈ db.evidence, e ∈ (db.insertEvidence row).evidence := by
  intro e he
  unfold Database.insertEvidence
  split
  next => exact he
  next => exact List.mem_cons_of_mem _ he

theorem insertIntent_eq (db : Database) (row : IntentRow) :
    (db.insertIntent row).attempts = db.attempts ∧ (db.insertIntent row).evidence = db.evidence ∧
      (db.insertIntent row).namespaces = db.namespaces := by
  unfold Database.insertIntent
  split <;> exact ⟨rfl, rfl, rfl⟩

theorem extends_initializeNamespace {maximum : Nat} (h : initializeNamespace name maximum db = .ok ((), db')) :
    Extends db db' := by
  rw [initializeNamespace_ok h]
  refine ⟨fun hi => hi.insertNamespace name maximum, ?_, ?_⟩
  all_goals
    unfold Database.insertNamespace
    split <;> exact fun _ hx => hx

theorem extends_beginInner {intent : AttemptIntent} {id : Nat}
    (h : beginInner fingerprint name intent db = .ok (id, db')) : Extends db db' := by
  obtain ⟨home, hhome, hroom, hintent, hid, rfl⟩ := beginInner_ok h
  obtain ⟨hattempts, hevidence, hnames⟩ := insertIntent_eq db ⟨intentKey fingerprint name intent, signedOf intent⟩
  refine ⟨fun hi => ?_, fun a ha => ?_, fun e he => ?_⟩
  · refine (hi.insertIntent _).insertAttempt ?_ hroom rfl hid hintent
    rw [Database.namespaceRow, hnames]
    exact hhome
  · exact List.mem_cons_of_mem _ (hattempts ▸ ha)
  · exact hevidence ▸ he

theorem extends_recordInner {attempt : Nat} {kind : EvidenceKind} {hash : Option String}
    (h : recordInner name attempt kind hash db = .ok ((), db')) : Extends db db' := by
  obtain ⟨rfl, ⟨a, ha, hid, hname⟩, -⟩ := recordInner_ok h
  refine ⟨fun hi => hi.insertEvidence ha hid hname, fun b hb => ?_, insertEvidence_evidence db _⟩
  unfold Database.insertEvidence
  split <;> exact hb

/-! ## Calls -/

/-- A call commits what its transaction did, or leaves the tables alone; told
why it was refused, it changed nothing. -/
theorem transact_spec (db : Database) {α : Type} {body : Database → Except Failure (α × Database)}
    (hbody : ∀ a db', body db = .ok (a, db') → Extends db db') (fate : Fate) :
    Extends db (transact body fate db).2 ∧
      ∀ failure, (transact body fate db).1 = .error failure → failure ≠ .unavailable →
        (transact body fate db).2 = db := by
  unfold transact
  split
  next drawn =>
    refine ⟨⟨fun hi => hi.draw drawn, fun _ ha => ha, fun _ he => he⟩, fun failure hf hne => ?_⟩
    cases hf
    exact absurd rfl hne
  next => exact ⟨extends_refl db, fun _ _ _ => rfl⟩
  next value next hok => exact ⟨hbody value next hok, fun _ hf => (by cases hf)⟩
  next value next hok =>
    refine ⟨hbody value next hok, fun failure hf hne => ?_⟩
    cases hf
    exact absurd rfl hne

theorem perform_spec (call : Call) (fate : Fate) (db : Database) :
    Extends db (perform fingerprint call fate db).2 ∧
      ∀ failure, (perform fingerprint call fate db).1 = .error failure → failure ≠ .unavailable →
        (perform fingerprint call fate db).2 = db := by
  have hmap : ∀ {α β : Type} {answer : Except Failure α} {f : α → β} {failure : Failure},
      answer.map f = .error failure → answer = .error failure := by
    intro α β answer f failure h
    cases answer with
    | error e => exact congrArg Except.error (Except.error.inj h)
    | ok a => cases h
  cases call with
  | initializeNamespace name maximum =>
    obtain ⟨hextends, hrefused⟩ := transact_spec db (fun _ _ h => extends_initializeNamespace h) fate
    exact ⟨hextends, fun failure hf hne => hrefused failure (hmap hf) hne⟩
  | begin name intent =>
    obtain ⟨hextends, hrefused⟩ := transact_spec db (fun _ _ h => extends_beginInner h) fate
    exact ⟨hextends, fun failure hf hne => hrefused failure (hmap hf) hne⟩
  | record name attempt kind hash =>
    obtain ⟨hextends, hrefused⟩ := transact_spec db (fun _ _ h => extends_recordInner h) fate
    exact ⟨hextends, fun failure hf hne => hrefused failure (hmap hf) hne⟩

theorem extends_run (fingerprint : List UInt8 → String) (calls : List (Call × Fate)) (db : Database) :
    Extends db (run fingerprint db calls) := by
  induction calls generalizing db with
  | nil => exact extends_refl db
  | cons call calls ih => exact (perform_spec call.1 call.2 db).1.trans (ih _)

/-- Evidence that is there is found again, and nothing is added to it. -/
theorem recordInner_again (h : Inv db) {attempt : Nat} {kind : EvidenceKind} {hash : Option String} {a : AttemptRow}
    {row : EvidenceRow} (ha : a ∈ db.attempts) (hid : a.id = attempt) (hname : a.key.namespace_ = name)
    (hrow : row ∈ db.evidence) (hattempt : row.attemptId = attempt) (hkind : row.kind = kind)
    (hhash : row.signatureHash = hash) : recordInner name attempt kind hash db = .ok ((), db) := by
  have hfound : db.evidenceRow attempt kind = .some row := by
    cases hfind : db.evidenceRow attempt kind with
    | none => exact absurd (decide_eq_true ⟨hattempt, hkind⟩) (List.find?_eq_none.mp hfind row hrow)
    | some other =>
      obtain ⟨hmem, hattempt', hkind'⟩ := evidenceRow_some hfind
      rw [h.kinds other hmem row hrow (hattempt'.trans hattempt.symm) (hkind'.trans hkind.symm)]
  have hsame : db.insertEvidence ⟨attempt, kind, hash, name⟩ = db := by
    rw [Database.insertEvidence]
    simp only [hfound]
  unfold recordInner
  split
  next hnone => exact absurd (decide_eq_true ⟨hid, hname⟩) (List.find?_eq_none.mp hnone a ha)
  next =>
    simp only [hsame, hfound, hhash, ne_eq, not_true_eq_false, if_false]

/-- **The audit log is bounded, consistent and conflict free.** After any calls
of any processes, in any order and with any luck: a namespace's count is the
number of its attempts and at most its maximum; attempts with one key have one
public key, digest and algorithm; evidence is about an attempt of the namespace
it was written for, and an attempt and a kind have one signature hash; a record
that was acknowledged is acknowledged again at any later time and changes
nothing; and a call refused with `Conflict` or `Quota` changes nothing. -/
theorem log_consistent (fingerprint : List UInt8 → String) (calls : List (Call × Fate)) :
    let db := run fingerprint .empty calls
    (∀ row ∈ db.namespaces, row.attemptCount = db.attemptsOf row.namespace_ ∧ row.attemptCount ≤ row.maxAttempts) ∧
    (∀ a ∈ db.attempts, ∀ b ∈ db.attempts, a.key = b.key → a.signed.publicKeyHash = b.signed.publicKeyHash ∧
      a.signed.signedDigest = b.signed.signedDigest ∧ a.signed.algorithm = b.signed.algorithm) ∧
    (∀ e ∈ db.evidence, ∃ a ∈ db.attempts, a.id = e.attemptId ∧ a.key.namespace_ = e.writer) ∧
    (∀ e ∈ db.evidence, ∀ e' ∈ db.evidence, e.attemptId = e'.attemptId → e.kind = e'.kind →
      e.signatureHash = e'.signatureHash) ∧
    (∀ name attempt kind hash later, (transact (recordInner name attempt kind hash) .through db).1 = .ok () →
      let db' := run fingerprint (transact (recordInner name attempt kind hash) .through db).2 later
      transact (recordInner name attempt kind hash) .through db' = (.ok (), db')) ∧
    (∀ call fate failure, (perform fingerprint call fate db).1 = .error failure →
      failure = .conflict ∨ failure = .quota → (perform fingerprint call fate db).2 = db) := by
  intro db
  have h : Inv db := (extends_run fingerprint calls .empty).inv inv_empty
  refine ⟨h.counts, ?_, h.evidence, ?_, ?_, ?_⟩
  · intro a ha b hb hkey
    have hsame := h.intents _ (h.agreed a ha) _ (h.agreed b hb) hkey
    rw [IntentRow.mk.injEq] at hsame
    rw [hsame.2]
    exact ⟨rfl, rfl, rfl⟩
  · intro e he e' he' hattempt hkind
    rw [h.kinds e he e' he' hattempt hkind]
  · intro name attempt kind hash later hok
    cases hbody : recordInner name attempt kind hash db with
    | error failure =>
      simp only [transact, hbody] at hok
      cases hok
    | ok result =>
      obtain ⟨u, next⟩ := result
      obtain ⟨-, ⟨a, ha, hid, hname⟩, row, hrow, hattempt, hkind, hhash⟩ := recordInner_ok hbody
      have hnext := extends_recordInner hbody
      have hlater := extends_run fingerprint later next
      simp only [transact, hbody]
      rw [recordInner_again (hlater.inv (hnext.inv h)) (hlater.attempts a (hnext.attempts a ha)) hid hname
        (hlater.evidence row hrow) hattempt hkind hhash]
  · intro call fate failure hf hrefused
    refine (perform_spec call fate db).2 failure hf ?_
    rcases hrefused with rfl | rfl <;> exact Failure.noConfusion

end Pillar.AuditLog
