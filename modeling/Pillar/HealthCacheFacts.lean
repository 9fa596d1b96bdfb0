/-
What the health cache serves, along every run: entries tagged with the
generation their probe read, values observed under a generation that was
current during the read, and one probe at a time.

The invariant says of each refresh and each read what its local state may
hold. It only mentions the clock, the generations so far and which tasks
exist, which other parties can only add to (`Later`), so a step is checked for
the one party that takes it.
-/
import Pillar.HealthCache

namespace Pillar.HealthCache

variable {V : Type}

theorem elapsedMs_le {now earlier bound : Nat} (hbound : bound < u64Max) :
    elapsedMs now earlier ≤ bound ↔ earlier ≤ now ∧ now ≤ earlier + bound := by
  unfold elapsedMs
  split <;> omega

theorem elapsedMs_le_stale {now earlier : Nat} :
    elapsedMs now earlier ≤ providerHealthCacheStaleMs ↔
      earlier ≤ now ∧ now ≤ earlier + providerHealthCacheStaleMs := elapsedMs_le (by decide)

theorem stale_of_ttl {age : Nat} (h : age ≤ providerHealthCacheTtlMs) : age ≤ providerHealthCacheStaleMs :=
  h.trans (Nat.le_add_right _ _)

namespace World

variable {w w' : World V} {span span' : Span}

/-! ## What others may do in the meantime -/

/-- `w'` is `w` with time passed, generations replaced and tasks gone on. -/
structure Later (w w' : World V) : Prop where
  clock : w.clock ≤ w'.clock
  history : w.past ++ [w.generation] <+: w'.past ++ [w'.generation]
  generation : w.generation ≤ w'.generation
  tasks : ∀ t refresh, w.tasks t = .some refresh → ∃ pc, w'.tasks t = .some ⟨refresh.span, pc⟩

theorem Later.past_length (h : Later w w') : w.past.length ≤ w'.past.length := by
  have := h.history.length_le
  simpa using this

theorem Later.currentSince (h : Later w w') {since g : Nat} (hg : g ∈ w.currentSince since) :
    g ∈ w'.currentSince since := by
  obtain ⟨more, hmore⟩ := h.history
  rw [World.currentSince, ← hmore, List.drop_append]
  exact List.mem_append_left _ hg

theorem generation_mem_currentSince {since : Nat} (h : since ≤ w.past.length) :
    w.generation ∈ w.currentSince since := by
  rw [currentSince, List.drop_append_of_le_length h]
  exact List.mem_append_right _ List.mem_cons_self

theorem currentSince_subset {since since' g : Nat} (h : since ≤ since') (hg : g ∈ w.currentSince since') :
    g ∈ w.currentSince since := (List.drop_subset_drop_left _ h) hg

/-- The call that began at `span` has begun. -/
structure Begun (w : World V) (span : Span) : Prop where
  since : span.since ≤ w.past.length
  began : span.began ≤ w.clock

theorem Begun.mono (h : w.Begun span) (hl : Later w w') : w'.Begun span :=
  ⟨h.since.trans hl.past_length, h.began.trans hl.clock⟩

theorem begun_span (w : World V) : w.Begun w.span := ⟨le_rfl, le_rfl⟩

/-- What a call that began at `span` may return: a value observed under a
generation current since then, not too old by a clock reading taken since. -/
structure AnswerOk (w : World V) (span : Span) (answer : Answer V) : Prop where
  observed : answer.observed ∈ w.currentSince span.since
  began : span.began ≤ answer.reading
  reading : answer.reading ≤ w.clock
  stamp : answer.stamp ≤ answer.reading
  recent : answer.reading ≤ answer.stamp + providerHealthCacheStaleMs

theorem AnswerOk.mono {answer : Answer V} (h : w.AnswerOk span answer) (hl : Later w w') : w'.AnswerOk span answer :=
  { h with observed := hl.currentSince h.observed, reading := h.reading.trans hl.clock }

/-- A caller may return what the task it waits for returned. -/
theorem AnswerOk.outer {answer : Answer V} (h : w.AnswerOk span' answer) (hsince : span.since ≤ span'.since)
    (hbegan : span.began ≤ span'.began) : w.AnswerOk span answer :=
  { h with observed := currentSince_subset hsince h.observed, began := hbegan.trans h.began }

def OutcomeOk (w : World V) (span : Span) (outcome : Outcome V) : Prop :=
  ∀ answer, outcome = .ok answer → w.AnswerOk span answer

/-- An entry a refresh or a read holds: tagged by what its probe read, and
with the generation asked for. -/
def EntryOk (cached : Option (CachedHealth V)) (generation : Nat) : Prop :=
  ∀ entry, cached = .some entry → entry.observed = generation

/-- What a refresh at `pc` knows. -/
def PcOk (w : World V) (span : Span) : RefreshAt V → Prop
  | .attempt _ => True
  | .tagged _ generation => generation ∈ w.currentSince span.since
  | .found _ generation cached => generation ∈ w.currentSince span.since ∧ EntryOk cached generation
  | .probing _ generation seen => generation ∈ w.currentSince span.since ∧
      ∀ observed, seen = .some observed → generation ≤ observed ∧ observed ≤ w.generation
  | .probed _ generation probe => generation ∈ w.currentSince span.since ∧
      ∀ value observed, probe = .ok (value, observed) → generation ≤ observed ∧ observed ≤ w.generation
  | .publishing generation _ observed => generation ∈ w.currentSince span.since ∧ observed = generation
  | .stamped generation _ observed checkedAt => generation ∈ w.currentSince span.since ∧
      observed = generation ∧ span.began ≤ checkedAt ∧ checkedAt ≤ w.clock
  | .failed generation _ => generation ∈ w.currentSince span.since
  | .fallback generation _ cached => generation ∈ w.currentSince span.since ∧ EntryOk cached generation
  | .returning outcome => w.OutcomeOk span outcome
  | .done outcome => w.OutcomeOk span outcome
  | .aborted _ => True

/-- What a read knows. -/
def ReadOk (w : World V) : ReadAt V → Prop
  | .idle => True
  | .started span now => w.Begun span ∧ now = span.began
  | .cloned span now cached => w.Begun span ∧ now = span.began ∧
      ∀ entry, cached = .some entry → entry.observed = entry.generation
  | .stale span answer => w.AnswerOk span answer
  | .waiting span => w.Begun span
  | .awaiting span task => ∃ refresh, w.tasks task = .some refresh ∧
      span.since ≤ refresh.span.since ∧ span.began ≤ refresh.span.began
  | .returned current began ended outcome => ∀ answer, outcome = .ok answer →
      answer.observed ∈ current ∧ began ≤ answer.reading ∧ answer.reading ≤ ended ∧
      answer.stamp ≤ answer.reading ∧ answer.reading ≤ answer.stamp + providerHealthCacheStaleMs
  | .cancelled => True

theorem OutcomeOk.mono {outcome : Outcome V} (h : w.OutcomeOk span outcome) (hl : Later w w') :
    w'.OutcomeOk span outcome := fun answer ha => (h answer ha).mono hl

theorem PcOk.mono {pc : RefreshAt V} (h : w.PcOk span pc) (hl : Later w w') : w'.PcOk span pc := by
  cases pc with
  | attempt left => trivial
  | tagged left generation => exact hl.currentSince h
  | found left generation cached => exact ⟨hl.currentSince h.1, h.2⟩
  | probing left generation seen =>
    refine ⟨hl.currentSince h.1, fun observed hseen => ?_⟩
    exact ⟨(h.2 observed hseen).1, (h.2 observed hseen).2.trans hl.generation⟩
  | probed left generation probe =>
    refine ⟨hl.currentSince h.1, fun value observed hprobe => ?_⟩
    exact ⟨(h.2 value observed hprobe).1, (h.2 value observed hprobe).2.trans hl.generation⟩
  | publishing generation value observed => exact ⟨hl.currentSince h.1, h.2⟩
  | stamped generation value observed checkedAt =>
    obtain ⟨hg, ho, hbegan, hclock⟩ := h
    exact ⟨hl.currentSince hg, ho, hbegan, hclock.trans hl.clock⟩
  | failed generation error => exact hl.currentSince h
  | fallback generation error cached => exact ⟨hl.currentSince h.1, h.2⟩
  | returning outcome => exact OutcomeOk.mono h hl
  | done outcome => exact OutcomeOk.mono h hl
  | aborted reason => trivial

theorem ReadOk.mono {state : ReadAt V} (h : w.ReadOk state) (hl : Later w w') : w'.ReadOk state := by
  cases state with
  | idle => trivial
  | started span now => exact ⟨h.1.mono hl, h.2⟩
  | cloned span now cached => exact ⟨h.1.mono hl, h.2⟩
  | stale span answer => exact AnswerOk.mono h hl
  | waiting span => exact Begun.mono h hl
  | awaiting span task =>
    obtain ⟨refresh, htask, hspan⟩ := h
    obtain ⟨pc, htask'⟩ := hl.tasks task refresh htask
    exact ⟨_, htask', hspan⟩
  | returned current began ended outcome => exact h
  | cancelled => trivial

/-! ## The invariant -/

structure Inv (w : World V) : Prop where
  past : ∀ g ∈ w.past, g < w.generation
  tagged : ∀ entry, w.state = .some entry → entry.observed = entry.generation
  locked : ∀ t refresh, w.tasks t = .some refresh → refresh.pc.running = true → w.refreshLock = .some t
  fresh : ∀ t, w.spawned ≤ t → w.tasks t = .none
  begun : ∀ t refresh, w.tasks t = .some refresh → w.Begun refresh.span
  tasks : ∀ t refresh, w.tasks t = .some refresh → w.PcOk refresh.span refresh.pc
  readers : ∀ r, w.ReadOk (w.readers r)

theorem inv_new (clock generation : Nat) (warmed : Option (V × Nat)) : (new clock generation warmed).Inv where
  past := by simp [new]
  tagged := by
    intro entry h
    obtain ⟨v, -, hv⟩ := Option.map_eq_some_iff.mp h
    rw [← hv]
  locked := fun t refresh h => (by cases h)
  fresh := fun t _ => rfl
  begun := fun t refresh h => (by cases h)
  tasks := fun t refresh h => (by cases h)
  readers := fun r => trivial

/-- A step that touches neither the clock nor the generation. -/
theorem later_of_tasks (hclock : w'.clock = w.clock) (hpast : w'.past = w.past) (hgen : w'.generation = w.generation)
    (htasks : ∀ t refresh, w.tasks t = .some refresh → ∃ pc, w'.tasks t = .some ⟨refresh.span, pc⟩) : Later w w' :=
  ⟨hclock.ge, by rw [hpast, hgen], hgen.ge, htasks⟩

theorem later_setTask {t : Nat} {refresh : Refresh V} (ht : w.tasks t = .some refresh) (pc : RefreshAt V)
    (hclock : w'.clock = w.clock) (hpast : w'.past = w.past) (hgen : w'.generation = w.generation)
    (htasks : w'.tasks = Function.update w.tasks t (.some ⟨refresh.span, pc⟩)) : Later w w' := by
  refine later_of_tasks hclock hpast hgen fun other r hr => ?_
  rw [htasks]
  by_cases ho : other = t
  · subst ho
    cases ht.symm.trans hr
    exact ⟨pc, Function.update_self ..⟩
  · exact ⟨r.pc, (Function.update_of_ne ho ..).trans hr⟩

theorem le_generation (h : w.Inv) {since g : Nat} (hg : g ∈ w.currentSince since) : g ≤ w.generation := by
  rcases List.mem_append.mp (List.mem_of_mem_drop hg) with hp | hp
  · exact (h.past g hp).le
  · exact (List.mem_singleton.mp hp).le

/-- Time passes or the configuration changes. -/
theorem Inv.tick (h : w.Inv) (ms : Nat) : (w.step (.tick ms)).Inv := by
  have hl : Later w (w.step (.tick ms)) :=
    ⟨Nat.le_add_right _ _, List.prefix_rfl, le_rfl, fun t refresh ht => ⟨refresh.pc, ht⟩⟩
  exact ⟨h.past, h.tagged, h.locked, h.fresh, fun t refresh ht => (h.begun t refresh ht).mono hl,
    fun t refresh ht => (h.tasks t refresh ht).mono hl, fun r => (h.readers r).mono hl⟩

theorem Inv.reconfigure (h : w.Inv) (skipped : Nat) : (w.step (.reconfigure skipped)).Inv := by
  have hl : Later w (w.step (.reconfigure skipped)) := by
    refine ⟨le_rfl, List.prefix_append _ _, ?_, fun t refresh ht => ⟨refresh.pc, ht⟩⟩
    exact Nat.le_add_right_of_le (Nat.le_add_right _ _)
  refine ⟨?_, h.tagged, h.locked, h.fresh, fun t refresh ht => (h.begun t refresh ht).mono hl,
    fun t refresh ht => (h.tasks t refresh ht).mono hl, fun r => (h.readers r).mono hl⟩
  intro g hg
  have hlt : w.generation < w.generation + skipped + 1 := by omega
  rcases List.mem_append.mp hg with hp | hp
  · exact (h.past g hp).trans hlt
  · exact (List.mem_singleton.mp hp).trans_lt hlt

/-- A task moves: enough that it knows what it should where it then stands,
that it holds the guard while it runs, and that what it writes is tagged. -/
theorem Inv.setTask (h : w.Inv) {t : Nat} {refresh : Refresh V} (ht : w.tasks t = .some refresh) {pc : RefreshAt V}
    {state : Option (CachedHealth V)} {lock : Option Nat} (hpc : w.PcOk refresh.span pc)
    (hstate : ∀ entry, state = .some entry → entry.observed = entry.generation)
    (hlock : lock = w.refreshLock ∨ lock = .none ∧ pc.running = false)
    (hrun : pc.running = true → refresh.pc.running = true) (hhad : lock ≠ w.refreshLock → refresh.pc.running = true) :
    Inv { w.setTask t ⟨refresh.span, pc⟩ with state := state, refreshLock := lock } := by
  have hl : Later w { w.setTask t ⟨refresh.span, pc⟩ with state := state, refreshLock := lock } :=
    later_setTask ht pc rfl rfl rfl rfl
  have hcases : ∀ other r, Function.update w.tasks t (.some ⟨refresh.span, pc⟩) other = .some r →
      other = t ∧ r = ⟨refresh.span, pc⟩ ∨ other ≠ t ∧ w.tasks other = .some r := by
    intro other r hr
    by_cases ho : other = t
    · subst ho
      rw [Function.update_self] at hr
      exact .inl ⟨rfl, (Option.some.inj hr).symm⟩
    · rw [Function.update_of_ne ho] at hr
      exact .inr ⟨ho, hr⟩
  constructor
  case past => exact h.past
  case tagged => exact hstate
  case locked =>
    intro other r hr hrunning
    rcases hcases other r hr with ⟨rfl, rfl⟩ | ⟨hne, hr⟩
    · rcases hlock with rfl | ⟨-, hnot⟩
      · exact h.locked other refresh ht (hrun hrunning)
      · rw [hnot] at hrunning
        cases hrunning
    · -- Another running task would have held the guard this one had.
      have hother := h.locked other r hr hrunning
      by_cases hsame : lock = w.refreshLock
      · exact hsame.trans hother
      · have hmine := h.locked t refresh ht (hhad hsame)
        rw [hother] at hmine
        exact absurd (Option.some.inj hmine) hne
  case fresh =>
    intro other hother
    have hne : other ≠ t := by
      intro he
      subst he
      rw [h.fresh other hother] at ht
      cases ht
    exact (Function.update_of_ne hne ..).trans (h.fresh other hother)
  case begun =>
    intro other r hr
    rcases hcases other r hr with ⟨rfl, rfl⟩ | ⟨-, hr⟩
    · exact (h.begun other refresh ht).mono hl
    · exact (h.begun other r hr).mono hl
  case tasks =>
    intro other r hr
    rcases hcases other r hr with ⟨rfl, rfl⟩ | ⟨-, hr⟩
    · exact hpc.mono hl
    · exact (h.tasks other r hr).mono hl
  case readers => exact fun r => (h.readers r).mono hl

/-! ## Refreshes -/

theorem entryOk_freshEnoughFor (h : w.Inv) (generation : Nat) : EntryOk (w.freshEnoughFor generation) generation := by
  intro entry hentry
  obtain ⟨hstate, hgen⟩ := Option.filter_eq_some_iff.mp hentry
  exact (h.tagged entry hstate).trans (of_decide_eq_true hgen)

/-- An entry of a generation the call has seen may be returned while it is not
too old by the clock now. -/
theorem answerOk_of_entry {entry : CachedHealth V} (hbegun : w.Begun span)
    (hobserved : entry.observed ∈ w.currentSince span.since)
    (hage : elapsedMs w.clock entry.checkedAtUnixMs ≤ providerHealthCacheStaleMs) :
    w.AnswerOk span (entry.answer w.clock) := by
  obtain ⟨hstamp, hrecent⟩ := elapsedMs_le_stale.mp hage
  exact ⟨hobserved, hbegun.began, le_rfl, hstamp, hrecent⟩

theorem outcomeOk_error (w : World V) (span : Span) (error : String) : w.OutcomeOk span (.error error) :=
  fun _ h => (by cases h)

theorem outcomeOk_ok {answer : Answer V} (h : w.AnswerOk span answer) : w.OutcomeOk span (.ok answer) :=
  fun _ ha => (by cases ha; exact h)

/-- **Each step of a refresh knows what it should.** A tag is current when it is
read; a probe confirmed under its tag read the configuration of that tag,
since generations only increase. -/
theorem pcOk_nextPc (h : w.Inv) (hbegun : w.Begun span) {pc : RefreshAt V} (hpc : w.PcOk span pc) :
    w.PcOk span (w.nextPc pc) := by
  cases pc with
  | attempt left =>
    cases left with
    | zero => exact outcomeOk_error w span _
    | succ left => exact generation_mem_currentSince hbegun.since
  | tagged left generation => exact ⟨hpc, entryOk_freshEnoughFor h generation⟩
  | found left generation cached =>
    obtain ⟨hg, hentry⟩ := hpc
    have hprobe : w.PcOk span (.probing left generation .none) := ⟨hg, fun _ hs => (by cases hs)⟩
    cases cached with
    | none => exact hprobe
    | some entry =>
      simp only [nextPc]
      split
      next hage =>
        exact outcomeOk_ok (answerOk_of_entry hbegun ((hentry entry rfl).symm ▸ hg) (stale_of_ttl hage))
      next => exact hprobe
  | probing left generation seen => exact hpc
  | probed left generation probe =>
    obtain ⟨hg, hprobe⟩ := hpc
    simp only [nextPc]
    split
    next => trivial
    next hsame =>
      have hsame : w.generation = generation := not_not.mp hsame
      cases probe with
      | error e => exact hg
      | ok result =>
        obtain ⟨hle, hge⟩ := hprobe result.1 result.2 rfl
        exact ⟨hg, le_antisymm (hge.trans hsame.le) hle⟩
  | publishing generation value observed => exact ⟨hpc.1, hpc.2, hbegun.began, le_rfl⟩
  | stamped generation value observed checkedAt =>
    obtain ⟨hg, rfl, hbegan, hclock⟩ := hpc
    exact outcomeOk_ok ⟨hg, hbegan, hclock, le_rfl, Nat.le_add_right _ _⟩
  | failed generation error => exact ⟨hpc, entryOk_freshEnoughFor h generation⟩
  | fallback generation error cached =>
    obtain ⟨hg, hentry⟩ := hpc
    cases cached with
    | none => exact outcomeOk_error w span error
    | some entry =>
      simp only [nextPc]
      split
      next hage => exact outcomeOk_ok (answerOk_of_entry hbegun ((hentry entry rfl).symm ▸ hg) hage)
      next => exact outcomeOk_error w span error
  | returning outcome => exact hpc
  | done outcome => exact hpc
  | aborted reason => trivial

/-- A refresh stops running only by returning. -/
theorem running_of_nextPc {pc : RefreshAt V} (h : (w.nextPc pc).running = true) : pc.running = true := by
  cases pc <;> first | rfl | exact h

theorem Inv.advance (h : w.Inv) (t : Nat) : (w.advance t).Inv := by
  rw [World.advance]
  split
  next => exact h
  next refresh ht =>
    refine h.setTask ht (pcOk_nextPc h (h.begun t refresh ht) (h.tasks t refresh ht)) ?_ ?_ running_of_nextPc ?_
    · intro entry hentry
      have hpc := h.tasks t refresh ht
      unfold published at hentry
      split at hentry
      next hstamped =>
        cases hentry
        rw [hstamped] at hpc
        exact hpc.2.1
      next => exact h.tagged entry hentry
    · unfold lockAfter
      split
      next hreturning => exact .inr ⟨rfl, by rw [hreturning]; rfl⟩
      next => exact .inl rfl
    · unfold lockAfter
      split
      next hreturning => exact fun _ => by rw [hreturning]; rfl
      next => exact fun hne => absurd rfl hne

theorem Inv.observe (h : w.Inv) (t : Nat) : (w.observe t).Inv := by
  rw [World.observe]
  split
  next span left generation ht =>
    obtain ⟨hg, -⟩ := h.tasks t _ ht
    refine h.setTask ht ?_ h.tagged (.inl rfl) (fun _ => rfl) (fun hne => absurd rfl hne)
    refine ⟨hg, fun observed hseen => ?_⟩
    cases hseen
    exact ⟨le_generation h hg, le_rfl⟩
  next => exact h

theorem Inv.respond (h : w.Inv) (t : Nat) (result : Except String V) : (w.respond t result).Inv := by
  unfold World.respond
  split
  next span left generation observed value ht =>
    obtain ⟨hg, hseen⟩ := h.tasks t _ ht
    refine h.setTask ht ?_ h.tagged (.inl rfl) (fun _ => rfl) (fun hne => absurd rfl hne)
    refine ⟨hg, fun value' observed' hprobe => ?_⟩
    cases hprobe
    exact hseen observed rfl
  next span left generation seen error ht =>
    obtain ⟨hg, -⟩ := h.tasks t _ ht
    refine h.setTask ht ?_ h.tagged (.inl rfl) (fun _ => rfl) (fun hne => absurd rfl hne)
    exact ⟨hg, fun _ _ hprobe => (by cases hprobe)⟩
  next => exact h

theorem Inv.abort (h : w.Inv) (t : Nat) (reason : String) : (w.abort t reason).Inv := by
  rw [World.abort]
  split
  next => exact h
  next refresh ht =>
    split
    next hrunning => exact h.setTask ht trivial h.tagged (.inr ⟨rfl, rfl⟩) (fun hr => (by cases hr)) fun _ => hrunning
    next => exact h

/-! ## Reads -/

/-- A read moves: enough that it knows what it should where it then stands. -/
theorem Inv.setReader (h : w.Inv) (reader : Nat) {state : ReadAt V} (hstate : w.ReadOk state) :
    (w.setReader reader state).Inv := by
  have hl : Later w (w.setReader reader state) :=
    later_of_tasks rfl rfl rfl fun _ refresh ht => ⟨refresh.pc, ht⟩
  refine ⟨h.past, h.tagged, h.locked, h.fresh, fun t refresh ht => (h.begun t refresh ht).mono hl,
    fun t refresh ht => (h.tasks t refresh ht).mono hl, fun r => ?_⟩
  by_cases hr : r = reader
  · subst hr
    simp only [World.setReader, Function.update_self]
    exact hstate.mono hl
  · simp only [World.setReader, Function.update_of_ne hr]
    exact (h.readers r).mono hl

/-- A task is spawned while nobody holds the guard. -/
theorem Inv.spawnRefresh (h : w.Inv) (hfree : w.refreshLock = .none) : w.spawnRefresh.Inv ∧ Later w w.spawnRefresh := by
  have hne : ∀ t refresh, w.tasks t = .some refresh → t ≠ w.spawned := by
    intro t refresh ht he
    rw [he, h.fresh w.spawned le_rfl] at ht
    cases ht
  have hl : Later w w.spawnRefresh := by
    refine later_of_tasks rfl rfl rfl fun t refresh ht => ⟨refresh.pc, ?_⟩
    exact (Function.update_of_ne (hne t refresh ht) ..).trans ht
  have hcases : ∀ t refresh, w.spawnRefresh.tasks t = .some refresh →
      t = w.spawned ∧ refresh = ⟨w.span, .attempt probeGenerationAttempts⟩ ∨ w.tasks t = .some refresh := by
    intro t refresh ht
    by_cases he : t = w.spawned
    · subst he
      simp only [World.spawnRefresh, World.setTask, Function.update_self] at ht
      exact .inl ⟨rfl, (Option.some.inj ht).symm⟩
    · simp only [World.spawnRefresh, World.setTask, Function.update_of_ne he] at ht
      exact .inr ht
  refine ⟨?_, hl⟩
  constructor
  case past => exact h.past
  case tagged => exact h.tagged
  case locked =>
    intro t refresh ht hrunning
    rcases hcases t refresh ht with ⟨rfl, -⟩ | ht
    · rfl
    · have := h.locked t refresh ht hrunning
      rw [hfree] at this
      cases this
  case fresh =>
    intro t ht
    have hlt : w.spawned < t := ht
    exact (Function.update_of_ne hlt.ne' ..).trans (h.fresh t hlt.le)
  case begun =>
    intro t refresh ht
    rcases hcases t refresh ht with ⟨-, rfl⟩ | ht
    · exact (begun_span w).mono hl
    · exact (h.begun t refresh ht).mono hl
  case tasks =>
    intro t refresh ht
    rcases hcases t refresh ht with ⟨-, rfl⟩ | ht
    · trivial
    · exact (h.tasks t refresh ht).mono hl
  case readers => exact fun r => (h.readers r).mono hl

theorem Inv.returnRead (h : w.Inv) (reader : Nat) {outcome : Outcome V} (ho : w.OutcomeOk span outcome) :
    (w.returnRead reader span outcome).Inv := by
  refine h.setReader reader fun answer ha => ?_
  obtain ⟨hobserved, hbegan, hreading, hstamp, hrecent⟩ := ho answer ha
  exact ⟨hobserved, hbegan, hreading, hstamp, hrecent⟩

/-- An entry of the generation now current, not too old by the clock the read
began with. -/
theorem answerOk_of_cloned {now : Nat} {entry : CachedHealth V} (hbegun : w.Begun span) (hnow : now = span.began)
    (hentry : entry.observed = entry.generation) (hgen : entry.generation = w.generation)
    (hage : elapsedMs now entry.checkedAtUnixMs ≤ providerHealthCacheStaleMs) :
    w.AnswerOk span (entry.answer now) := by
  obtain ⟨hstamp, hrecent⟩ := elapsedMs_le_stale.mp hage
  refine ⟨?_, hnow.ge, hnow.le.trans hbegun.began, hstamp, hrecent⟩
  have hobserved : (entry.answer now).observed = w.generation := hentry.trans hgen
  rw [hobserved]
  exact generation_mem_currentSince hbegun.since

theorem Inv.read (h : w.Inv) (reader : Nat) : (w.read reader).Inv := by
  have hreader := h.readers reader
  rw [World.read]
  cases hat : w.readers reader with
  | idle => exact h.setReader reader ⟨begun_span w, rfl⟩
  | started span now =>
    rw [hat] at hreader
    exact h.setReader reader ⟨hreader.1, hreader.2, h.tagged⟩
  | cloned span now cached =>
    rw [hat] at hreader
    obtain ⟨hbegun, hnow, hentry⟩ := hreader
    dsimp only
    split
    next entry hfilter =>
      obtain ⟨hcached, hgen⟩ := Option.filter_eq_some_iff.mp hfilter
      have hok := answerOk_of_cloned hbegun hnow (hentry entry hcached) (of_decide_eq_true hgen)
      split
      next hage => exact h.returnRead reader (outcomeOk_ok (hok (stale_of_ttl hage)))
      next =>
        split
        next hage => exact h.setReader reader (hok hage)
        next => exact h.setReader reader hbegun
    next => exact h.setReader reader hbegun
  | stale span answer =>
    rw [hat] at hreader
    dsimp only
    split
    next hfree =>
      obtain ⟨hinv, hl⟩ := h.spawnRefresh hfree
      exact hinv.returnRead reader (outcomeOk_ok (AnswerOk.mono hreader hl))
    next => exact h.returnRead reader (outcomeOk_ok hreader)
  | waiting span =>
    rw [hat] at hreader
    dsimp only
    split
    next hfree =>
      obtain ⟨hinv, hl⟩ := h.spawnRefresh hfree
      refine hinv.setReader reader ⟨⟨w.span, .attempt probeGenerationAttempts⟩, Function.update_self .., ?_⟩
      exact ⟨Begun.since hreader, Begun.began hreader⟩
    next => exact h
  | awaiting span task =>
    rw [hat] at hreader
    obtain ⟨refresh, htask, hsince, hbegan⟩ := hreader
    dsimp only
    split
    next span' outcome hdone =>
      cases htask.symm.trans hdone
      have hok : w.OutcomeOk span' outcome := h.tasks task _ hdone
      exact h.returnRead reader fun answer ha => (hok answer ha).outer hsince hbegan
    next => exact h.returnRead reader (outcomeOk_error w span _)
    next => exact h
  | returned current began ended outcome => exact h
  | cancelled => exact h

theorem Inv.cancel (h : w.Inv) (reader : Nat) : (w.cancel reader).Inv := by
  rw [World.cancel]
  split
  next => exact h
  next => exact h.setReader reader trivial

/-! ## Runs -/

theorem Inv.step (h : w.Inv) (event : Event V) : (w.step event).Inv := by
  cases event with
  | tick ms => exact h.tick ms
  | reconfigure skipped => exact h.reconfigure skipped
  | read reader => exact h.read reader
  | cancel reader => exact h.cancel reader
  | advance task => exact h.advance task
  | observe task => exact h.observe task
  | respond task result => exact h.respond task result
  | abort task reason => exact h.abort task reason

theorem inv_run (h : w.Inv) (events : List (Event V)) : (w.run events).Inv := by
  induction events generalizing w with
  | nil => exact h
  | cons event events ih => exact ih (h.step event)

/-- **The cache never serves a value for the wrong configuration.** After any
run, from an empty cache or one warmed with a value probed under its
generation: a cached entry is tagged with the generation its probe read; a
value a read returned was observed under a generation current at some instant
of that read, and by a clock reading taken during it was at most
`PROVIDER_HEALTH_CACHE_STALE_MS` old; and no two probes are in flight. -/
theorem serves_what_was_current (clock generation : Nat) (warmed : Option (V × Nat)) (events : List (Event V)) :
    let w := (new clock generation warmed).run events
    (∀ entry, w.state = .some entry → entry.observed = entry.generation) ∧
    (∀ reader current began ended answer, w.readers reader = .returned current began ended (.ok answer) →
      answer.observed ∈ current ∧ began ≤ answer.reading ∧ answer.reading ≤ ended ∧
      answer.stamp ≤ answer.reading ∧ answer.reading - answer.stamp ≤ providerHealthCacheStaleMs) ∧
    (∀ t t', w.Probing t → w.Probing t' → t = t') := by
  intro w
  have h : w.Inv := inv_run (inv_new clock generation warmed) events
  refine ⟨h.tagged, ?_, ?_⟩
  · intro reader current began ended answer hreader
    have hok := h.readers reader
    rw [hreader] at hok
    obtain ⟨hobserved, hbegan, hended, hstamp, hrecent⟩ := hok answer rfl
    exact ⟨hobserved, hbegan, hended, hstamp, Nat.sub_le_iff_le_add'.mpr hrecent⟩
  · intro t t' ht ht'
    obtain ⟨span, left, g, seen, ht⟩ := ht
    obtain ⟨span', left', g', seen', ht'⟩ := ht'
    have hlock := h.locked t _ ht rfl
    have hlock' := h.locked t' _ ht' rfl
    exact Option.some.inj (hlock.symm.trans hlock')

/-- A read that takes the clock, is held up for the entry's lock and only then
chooses: at that instant its entry is older than the clock it took says. -/
theorem chosen_past_stale :
    let chosen := (new 0 0 (.some ((), 0))).run [.tick 120000, .read 0, .tick 1, .read 0, .read 0]
    let answer : Answer Unit := ⟨(), 0, 0, 120000⟩
    chosen.readers 0 = .stale ⟨0, 120000⟩ answer ∧
      chosen.clock - answer.stamp > providerHealthCacheStaleMs ∧
      (chosen.step (.read 0)).readers 0 = .returned [0] 120000 120001 (.ok answer) :=
  ⟨rfl, by decide, rfl⟩

end World

end Pillar.HealthCache
