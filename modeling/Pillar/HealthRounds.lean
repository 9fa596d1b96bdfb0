/-
Rounds of health probes (`pillar-runtime`, `provider_health/source.rs`): when a
chain is reported healthy, and what a round leaves for later ones.

Rounds of one chain overlap and finish in any order, under any configuration.
What the probes answer is any list of entries, of which the verdict reads three
flags; the probes themselves, their budget and the report kept beside the
verdicts are left out.
-/
import Pillar.HealthCacheFacts
import Pillar.ProviderPool

namespace Pillar.HealthRounds

open Provider HealthCache

structure ProviderHealthEntry where
  diagnostic : Bool
  healthy : Bool
  observed : Bool
  deriving Repr, DecidableEq

/-- The last fully observed verdict for a chain. -/
structure ChainObservation where
  generation : Nat
  atUnixMs : Nat
  healthy : Bool
  config : ProviderConfig

/-- A round under way: what it was started with. -/
structure Round where
  chainName : String
  generation : Nat
  config : ProviderConfig
  checkedAtUnixMs : Nat

/-! ## The verdict -/

/-- The entries the verdict is about. -/
def primary (providers : List ProviderHealthEntry) : List ProviderHealthEntry :=
  providers.filter fun entry => !entry.diagnostic

def observed (providers : List ProviderHealthEntry) : Bool :=
  0 < (primary providers).length && (primary providers).all (·.observed)

def measuredHealthy (providers : List ProviderHealthEntry) : Bool :=
  0 < (primary providers).length &&
    (providers.filter fun entry => !entry.diagnostic && entry.observed).all (·.healthy)

/-- An earlier verdict covers a round of the same configuration that comes
soon enough after it. -/
def ChainObservation.covers (previous : ChainObservation) (round : Round) : Bool :=
  previous.config.same round.config && previous.healthy &&
    decide (elapsedMs round.checkedAtUnixMs previous.atUnixMs ≤ providerHealthCacheStaleMs)

def healthy (previous : Option ChainObservation) (round : Round) (providers : List ProviderHealthEntry) : Bool :=
  measuredHealthy providers && (observed providers || previous.any (·.covers round))

/-- Rounds can finish out of order: the newer generation, then the later probe,
wins. -/
def wins (previous : Option ChainObservation) (round : Round) : Bool :=
  previous.all fun previous =>
    if previous.config.same round.config then decide (previous.atUnixMs ≤ round.checkedAtUnixMs)
    else decide (previous.generation < round.generation)

/-! ## Runs -/

/-- A round that finished, and whether it was recorded. -/
structure Report where
  round : Round
  providers : List ProviderHealthEntry
  healthy : Bool
  recorded : Bool

/-- `reports` are those of the rounds that finished, the latest first. -/
structure World where
  clock : Nat
  chains : String → Option ChainObservation
  running : Nat → Option Round
  reports : List Report

inductive Event where
  | tick (ms : Nat)
  | start (id : Nat) (chainName : String) (generation : Nat) (config : ProviderConfig)
  | finish (id : Nat) (providers : List ProviderHealthEntry)
  /-- The probes return an error, or the round is dropped. -/
  | fail (id : Nat)

namespace World

def new (clock : Nat) : World where
  clock := clock
  chains := fun _ => .none
  running := fun _ => .none
  reports := []

/-- What a round does once its probes have answered, under the lock. -/
def finish (w : World) (round : Round) (providers : List ProviderHealthEntry) : World :=
  let previous := w.chains round.chainName
  let verdict := HealthRounds.healthy previous round providers
  let recorded := observed providers && wins previous round
  { w with
    chains :=
      if recorded then
        Function.update w.chains round.chainName
          (.some ⟨round.generation, round.checkedAtUnixMs, verdict, round.config⟩)
      else w.chains
    reports := ⟨round, providers, verdict, recorded⟩ :: w.reports }

def step (w : World) : Event → World
  | .tick ms => { w with clock := w.clock + ms }
  | .start id chainName generation config =>
    match w.running id with
    | .some _ => w
    | .none => { w with running := Function.update w.running id (.some ⟨chainName, generation, config, w.clock⟩) }
  | .finish id providers =>
    match w.running id with
    | .some round => { w.finish round providers with running := Function.update w.running id .none }
    | .none => w
  | .fail id => { w with running := Function.update w.running id .none }

def run (w : World) (events : List Event) : World := events.foldl step w

end World

/-! ## What a verdict rests on -/

variable {providers : List ProviderHealthEntry}

theorem observed_iff :
    observed providers = true ↔ primary providers ≠ [] ∧ ∀ entry ∈ primary providers, entry.observed = true := by
  rw [observed, Bool.and_eq_true, decide_eq_true_eq, List.length_pos_iff, List.all_eq_true]

theorem measuredHealthy_iff :
    measuredHealthy providers = true ↔
      primary providers ≠ [] ∧ ∀ entry ∈ primary providers, entry.observed = true → entry.healthy = true := by
  rw [measuredHealthy, Bool.and_eq_true, decide_eq_true_eq, List.length_pos_iff, List.all_eq_true]
  refine and_congr_right fun _ => forall_congr' fun entry => ?_
  simp only [primary, List.mem_filter, Bool.and_eq_true]
  tauto

/-- The round saw every primary entry, of which there is one, healthy. -/
def SawAllHealthy (report : Report) : Prop :=
  primary report.providers ≠ [] ∧
    ∀ entry ∈ primary report.providers, entry.observed = true ∧ entry.healthy = true

/-- `earlier` is a recorded round of the same chain and configuration that saw
everything healthy and started at most the stale bound before. -/
structure Vouches (earlier report : Report) : Prop where
  recorded : earlier.recorded = true
  chain : earlier.round.chainName = report.round.chainName
  config : earlier.round.config.same report.round.config = true
  sawAll : SawAllHealthy earlier
  started : earlier.round.checkedAtUnixMs ≤ report.round.checkedAtUnixMs
  recent : report.round.checkedAtUnixMs ≤ earlier.round.checkedAtUnixMs + providerHealthCacheStaleMs

/-- A healthy verdict is measured, and where it was not measured in full an
earlier round that was vouches for it; only a round measured in full is
recorded. -/
structure Justified (earlier : List Report) (report : Report) : Prop where
  primary : report.healthy = true → primary report.providers ≠ []
  measured : report.healthy = true →
    ∀ entry ∈ HealthRounds.primary report.providers, entry.observed = true → entry.healthy = true
  vouched : report.healthy = true →
    (∀ entry ∈ HealthRounds.primary report.providers, entry.observed = true) ∨ ∃ e ∈ earlier, Vouches e report
  recorded : report.recorded = true → ∀ entry ∈ HealthRounds.primary report.providers, entry.observed = true

/-- What is stored of a chain is the verdict of a recorded round that was
measured in full, so the flag is that round's alone. -/
def Stored (reports : List Report) (chainName : String) (observation : ChainObservation) : Prop :=
  ∃ report ∈ reports, report.recorded = true ∧ report.round.chainName = chainName ∧
    report.round.config = observation.config ∧ report.round.checkedAtUnixMs = observation.atUnixMs ∧
    (observation.healthy = true → SawAllHealthy report)

structure Inv (w : World) : Prop where
  stored : ∀ chainName observation, w.chains chainName = .some observation → Stored w.reports chainName observation
  justified : ∀ report earlier, report :: earlier <:+ w.reports → Justified earlier report

theorem inv_new (clock : Nat) : Inv (World.new clock) where
  stored := fun chainName observation h => (by cases h)
  justified := fun report earlier h => (by cases List.suffix_nil.mp h)

/-- A fully observed round's verdict reads nothing stored. -/
theorem healthy_of_observed {previous : Option ChainObservation} {round : Round} (h : observed providers = true) :
    healthy previous round providers = measuredHealthy providers := by
  rw [healthy, h, Bool.true_or, Bool.and_true]

theorem sawAllHealthy_of {report : Report} (hobserved : observed report.providers = true)
    (hhealthy : measuredHealthy report.providers = true) : SawAllHealthy report := by
  obtain ⟨hne, hall⟩ := observed_iff.mp hobserved
  exact ⟨hne, fun entry he => ⟨hall entry he, (measuredHealthy_iff.mp hhealthy).2 entry he (hall entry he)⟩⟩

theorem Inv.justified_next {w : World} (h : Inv w) (round : Round) (providers : List ProviderHealthEntry) :
    Justified w.reports ⟨round, providers, healthy (w.chains round.chainName) round providers,
      observed providers && wins (w.chains round.chainName) round⟩ := by
  have hmeasured : healthy (w.chains round.chainName) round providers = true → measuredHealthy providers = true :=
    fun hh => (Bool.and_eq_true_iff.mp hh).1
  constructor
  case primary => exact fun hh => (measuredHealthy_iff.mp (hmeasured hh)).1
  case measured => exact fun hh => (measuredHealthy_iff.mp (hmeasured hh)).2
  case recorded => exact fun hr => (observed_iff.mp (Bool.and_eq_true_iff.mp hr).1).2
  case vouched =>
    intro hh
    rcases Bool.or_eq_true_iff.mp (Bool.and_eq_true_iff.mp hh).2 with hobserved | hcovered
    · exact .inl (observed_iff.mp hobserved).2
    · obtain ⟨previous, hprevious, hcovers⟩ := Option.any_eq_true _ _ |>.mp hcovered
      obtain ⟨report, hmem, hrecorded, hchain, hconfig, hat, hsaw⟩ := h.stored _ _ hprevious
      simp only [ChainObservation.covers, Bool.and_eq_true, decide_eq_true_eq] at hcovers
      obtain ⟨⟨hsame, hhealthy⟩, hage⟩ := hcovers
      obtain ⟨hstarted, hrecent⟩ := elapsedMs_le_stale.mp hage
      refine .inr ⟨report, hmem, hrecorded, hchain, ?_, hsaw hhealthy, ?_, ?_⟩
      · rw [hconfig]
        exact hsame
      · rw [hat]
        exact hstarted
      · rw [hat]
        exact hrecent

theorem Inv.finish {w : World} (h : Inv w) (round : Round) (providers : List ProviderHealthEntry) :
    Inv (w.finish round providers) := by
  have holder : ∀ chainName observation, w.chains chainName = .some observation →
      Stored (w.finish round providers).reports chainName observation := by
    intro chainName observation hchain
    obtain ⟨report, hmem, hrest⟩ := h.stored chainName observation hchain
    exact ⟨report, List.mem_cons_of_mem _ hmem, hrest⟩
  constructor
  case stored =>
    intro chainName observation hchain
    simp only [World.finish] at hchain
    split at hchain
    next hrecorded =>
      by_cases hc : chainName = round.chainName
      · subst hc
        rw [Function.update_self] at hchain
        cases hchain
        have hobserved := (Bool.and_eq_true_iff.mp hrecorded).1
        refine ⟨_, List.mem_cons_self, hrecorded, rfl, rfl, rfl, fun hh => ?_⟩
        exact sawAllHealthy_of hobserved ((healthy_of_observed hobserved).symm.trans hh)
      · rw [Function.update_of_ne hc] at hchain
        exact holder chainName observation hchain
    next => exact holder chainName observation hchain
  case justified =>
    intro report earlier hsuffix
    rcases List.suffix_cons_iff.mp hsuffix with heq | hsuffix
    · cases heq
      exact h.justified_next round providers
    · exact h.justified report earlier hsuffix

theorem Inv.step {w : World} (h : Inv w) (event : Event) : Inv (w.step event) := by
  cases event with
  | tick ms => exact ⟨h.stored, h.justified⟩
  | start id chainName generation config =>
    rw [World.step]
    split
    next => exact h
    next => exact ⟨h.stored, h.justified⟩
  | finish id providers =>
    rw [World.step]
    split
    next round _ =>
      have hf := h.finish round providers
      exact ⟨hf.stored, hf.justified⟩
    next => exact h
  | fail id => exact ⟨h.stored, h.justified⟩

theorem inv_run {w : World} (h : Inv w) (events : List Event) : Inv (w.run events) := by
  induction events generalizing w with
  | nil => exact h
  | cons event events ih => exact ih (h.step event)

/-- **Carry-over never chains.** Along any run of rounds, a report says
healthy only of a chain with a primary entry, whose observed primary entries
were all healthy in that round, and either all of them were observed or an
earlier recorded round of an equal configuration saw them all healthy and
started at most the stale bound before; and a round that did not observe them
all is never recorded. -/
theorem carry_over_never_chains (clock : Nat) (events : List Event) (report : Report) (earlier : List Report)
    (h : report :: earlier <:+ ((World.new clock).run events).reports) : Justified earlier report :=
  (inv_run (inv_new clock) events).justified report earlier h

/-- A round that saw one of two entries is vouched for by the one before, which
saw all there was. -/
theorem partial_round_vouched :
    let seen : ProviderHealthEntry := ⟨false, true, true⟩
    let missed : ProviderHealthEntry := ⟨false, false, false⟩
    let full : Report := ⟨⟨"bsc", 0, onePool, 0⟩, [seen], true, true⟩
    let part : Report := ⟨⟨"bsc", 1, onePool, 1000⟩, [seen, missed], true, false⟩
    Justified [full] part := by
  intro seen missed full part
  refine carry_over_never_chains 0
    [.start 0 "bsc" 0 onePool, .finish 0 [seen], .tick 1000, .start 1 "bsc" 1 onePool, .finish 1 [seen, missed]] part
    [full] ?_
  have hsame : onePool.same onePool = true := ProviderConfig.same_iff.mpr rfl
  have hreports : ((World.new 0).run [.start 0 "bsc" 0 onePool, .finish 0 [seen], .tick 1000, .start 1 "bsc" 1 onePool,
      .finish 1 [seen, missed]]).reports = [part, full] := by
    simp [World.run, World.step, World.new, World.finish, healthy, wins, measuredHealthy, observed, primary,
      ChainObservation.covers, hsame, seen, missed, full, part, elapsedMs, providerHealthCacheStaleMs,
      providerHealthCacheTtlMs, providerHealthCacheStaleAllowanceMs]
  rw [hreports]

end Pillar.HealthRounds
