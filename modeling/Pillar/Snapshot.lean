/-
The provider generation now serving (`pillar-runtime`, `provider_snapshot.rs`
and the refresh of `config_loader.rs`): one immutable snapshot behind a slot,
replaced whole by an admitted refresh and pinned by a request for as long as
it runs.

A refresh's outcome is any loaded configuration or any error. Log lines,
metrics and the rank tracker are left out; a generation is a natural number
where the code has a `u64`.
-/
import Pillar.ProviderPool

namespace Pillar.Snapshot

open Provider

/-! ## The handle -/

structure RuntimeProviderSnapshot where
  generation : Nat
  providerConfigs : ProviderConfigs
  availableChainNames : List String

/-- A loaded configuration already restricted to the startup chains. -/
structure ProviderCandidate where
  providerConfigs : ProviderConfigs
  availableChainNames : List String

structure ProviderSnapshotHandle where
  current : RuntimeProviderSnapshot
  startupChainNames : List String

namespace ProviderSnapshotHandle

def new (providerConfigs : ProviderConfigs) (availableChainNames : List String) : ProviderSnapshotHandle where
  current := { generation := 0, providerConfigs, availableChainNames }
  startupChainNames := availableChainNames

def candidate (handle : ProviderSnapshotHandle) (providerConfigs : ProviderConfigs) : ProviderCandidate :=
  let providerConfigs := providerConfigs.retain fun name => handle.startupChainNames.contains name
  { providerConfigs, availableChainNames := handle.startupChainNames.filter providerConfigs.containsKey }

/-- The candidate is what is already serving. -/
def serves (handle : ProviderSnapshotHandle) (candidate : ProviderCandidate) : Bool :=
  handle.current.providerConfigs.same candidate.providerConfigs &&
    handle.current.availableChainNames == candidate.availableChainNames

def publish (handle : ProviderSnapshotHandle) (candidate : ProviderCandidate) : ProviderSnapshotHandle :=
  if handle.serves candidate then handle
  else
    { handle with
      current :=
        { generation := handle.current.generation + 1
          providerConfigs := candidate.providerConfigs
          availableChainNames := candidate.availableChainNames } }

end ProviderSnapshotHandle

def acceptRefreshedSnapshot (candidate : ProviderCandidate) : Exec String Unit :=
  validateOperationalChains candidate.providerConfigs candidate.availableChainNames

/-- Publishes a refresh outcome, or keeps what is serving. -/
def applyRefreshedSnapshot (serving : ProviderSnapshotHandle) (result : Except String ProviderConfigs) :
    ProviderSnapshotHandle :=
  match result with
  | .error _ => serving
  | .ok snapshot =>
    let candidate := serving.candidate snapshot
    match acceptRefreshedSnapshot candidate with
    | .ok () => serving.publish candidate
    | .error _ => serving

/-! ## What a refresh can do -/

variable {handle handle' : ProviderSnapshotHandle} {configs : ProviderConfigs} {S : List String}

/-- A generation that may serve the startup chains `S`: it has only chains of
`S`, lists those it has in their order, lists one at least, and each it lists
passes `validate`. -/
structure Safe (S : List String) (snapshot : RuntimeProviderSnapshot) : Prop where
  chains : ∀ name ∈ snapshot.providerConfigs.keys, name ∈ S
  roster : snapshot.availableChainNames = S.filter snapshot.providerConfigs.containsKey
  nonempty : snapshot.availableChainNames ≠ []
  valid : ∀ name ∈ snapshot.availableChainNames, ∃ config,
    snapshot.providerConfigs.get? name = .some config ∧ config.validate = .ok ()

/-- What the gate admits of a candidate is safe to serve. -/
theorem safe_of_accept (h : acceptRefreshedSnapshot (handle.candidate configs) = .ok ()) (generation : Nat) :
    Safe handle.startupChainNames
      { generation
        providerConfigs := (handle.candidate configs).providerConfigs
        availableChainNames := (handle.candidate configs).availableChainNames } := by
  obtain ⟨hne, hvalid⟩ := (validateOperationalChains_spec _ _).2.mp h
  refine ⟨?_, rfl, hne, ?_⟩
  · intro name hname
    rw [ProviderSnapshotHandle.candidate, IndexMap.keys_retain] at hname
    exact List.contains_iff_mem.mp (List.mem_filter.mp hname).2
  · intro name hname
    obtain ⟨config, hconfig⟩ := Option.isSome_iff_exists.mp (List.mem_filter.mp hname).2
    exact ⟨config, hconfig, hvalid name hname config hconfig⟩

/-- **Everything a refresh can do**: nothing, when it failed, was refused or
brought what is serving; or publish what was admitted, one generation on. -/
theorem applyRefreshedSnapshot_cases (handle : ProviderSnapshotHandle) (result : Except String ProviderConfigs) :
    (applyRefreshedSnapshot handle result = handle ∧
      ∀ configs, result = .ok configs → acceptRefreshedSnapshot (handle.candidate configs) = .ok () →
        handle.serves (handle.candidate configs) = true) ∨
    ∃ configs, result = .ok configs ∧ acceptRefreshedSnapshot (handle.candidate configs) = .ok () ∧
      handle.serves (handle.candidate configs) = false ∧
      applyRefreshedSnapshot handle result =
        { handle with
          current :=
            { generation := handle.current.generation + 1
              providerConfigs := (handle.candidate configs).providerConfigs
              availableChainNames := (handle.candidate configs).availableChainNames } } := by
  cases result with
  | error e => exact .inl ⟨rfl, fun _ h => (by cases h)⟩
  | ok configs =>
    rw [applyRefreshedSnapshot]
    cases haccept : acceptRefreshedSnapshot (handle.candidate configs) with
    | error e =>
      refine .inl ⟨by simp only, fun configs' h h' => ?_⟩
      cases h
      rw [haccept] at h'
      cases h'
    | ok u =>
      simp only [ProviderSnapshotHandle.publish]
      cases hserves : handle.serves (handle.candidate configs) with
      | true =>
        refine .inl ⟨rfl, fun configs' h _ => ?_⟩
        cases h
        exact hserves
      | false => exact .inr ⟨configs, rfl, haccept, hserves, rfl⟩

theorem applyRefreshedSnapshot_startup (handle : ProviderSnapshotHandle) (result : Except String ProviderConfigs) :
    (applyRefreshedSnapshot handle result).startupChainNames = handle.startupChainNames := by
  obtain ⟨h, -⟩ | ⟨_, -, -, -, h⟩ := applyRefreshedSnapshot_cases handle result <;> rw [h]

/-! ## Runs -/

/-- A pin: the snapshot a scope reads, and which scope that is. -/
structure PinnedSnapshot where
  scope : Nat
  snapshot : RuntimeProviderSnapshot

/-- What a caller saw: the generation serving when its scope began, or what a
load returned, with the scope the load ran in. -/
inductive Observed where
  | began (scope : Nat) (snapshot : RuntimeProviderSnapshot)
  | loaded (task : Nat) (scope : Option Nat) (snapshot : RuntimeProviderSnapshot)

/-- The handle, each task's open scopes with the innermost first, how many
scopes have begun, and everything seen. -/
structure World where
  handle : ProviderSnapshotHandle
  pins : Nat → List PinnedSnapshot
  scopes : Nat
  log : List Observed

inductive Action where
  | refresh (result : Except String ProviderConfigs)
  | pinForRequest (task : Nat)
  | endRequest (task : Nat)
  /-- `child` is spawned by `task` under its pin. -/
  | carryPin (task child : Nat)
  | load (task : Nat)

namespace World

def new (configs : ProviderConfigs) (availableChainNames : List String) : World where
  handle := .new configs availableChainNames
  pins := fun _ => []
  scopes := 0
  log := []

/-- `load`: the innermost pin of the task, or what is serving. -/
def load (w : World) (task : Nat) : Observed :=
  match w.pins task with
  | [] => .loaded task .none w.handle.current
  | pin :: _ => .loaded task (.some pin.scope) pin.snapshot

def step (w : World) : Action → World
  | .refresh result => { w with handle := applyRefreshedSnapshot w.handle result }
  | .pinForRequest task =>
    { w with
      pins := Function.update w.pins task (⟨w.scopes, w.handle.current⟩ :: w.pins task)
      scopes := w.scopes + 1
      log := .began w.scopes w.handle.current :: w.log }
  | .endRequest task => { w with pins := Function.update w.pins task (w.pins task).tail }
  | .carryPin task child => { w with pins := Function.update w.pins child ((w.pins task).take 1) }
  | .load task => { w with log := w.load task :: w.log }

def run (w : World) (actions : List Action) : World := actions.foldl step w

/-- Along a run, with every generation published so far in order: the last is
serving, those after the first are safe, and whatever anybody holds or saw is
one of them; a scope begins once, and its pin and its loads are what was
serving then. -/
structure Inv (S : List String) (published : List RuntimeProviderSnapshot) (w : World) : Prop where
  startup : w.handle.startupChainNames = S
  serving : published[w.handle.current.generation]? = .some w.handle.current
  last : published.length = w.handle.current.generation + 1
  safe : ∀ snapshot ∈ published, 0 < snapshot.generation → Safe S snapshot
  pins : ∀ task, ∀ pin ∈ w.pins task, .began pin.scope pin.snapshot ∈ w.log
  began : ∀ scope snapshot, .began scope snapshot ∈ w.log →
    scope < w.scopes ∧ published[snapshot.generation]? = .some snapshot
  once : ∀ scope a b, .began scope a ∈ w.log → .began scope b ∈ w.log → a = b
  loaded : ∀ task scope snapshot, .loaded task scope snapshot ∈ w.log →
    published[snapshot.generation]? = .some snapshot ∧ ∀ k, scope = .some k → .began k snapshot ∈ w.log

theorem inv_new (configs : ProviderConfigs) (S : List String) :
    Inv S [⟨0, configs, S⟩] (new configs S) where
  startup := rfl
  serving := rfl
  last := rfl
  safe := by
    intro snapshot h hpos
    rw [List.mem_singleton.mp h] at hpos
    exact absurd hpos (Nat.lt_irrefl 0)
  pins := by simp [new]
  began := by simp [new]
  once := by simp [new]
  loaded := by simp [new]

variable {published : List RuntimeProviderSnapshot} {w : World}

theorem Inv.refresh (h : Inv S published w) (result : Except String ProviderConfigs) :
    ∃ published', Inv S published' (w.step (.refresh result)) := by
  obtain ⟨hsame, -⟩ | ⟨configs, -, haccept, -, hnext⟩ := applyRefreshedSnapshot_cases w.handle result
  · refine ⟨published, ?_⟩
    rw [step, hsame]
    exact h
  · -- The new generation's number is the place it takes in the list.
    have hkeep : ∀ snapshot : RuntimeProviderSnapshot, published[snapshot.generation]? = .some snapshot →
        ∀ next, (published ++ [next])[snapshot.generation]? = .some snapshot := by
      intro snapshot hsnapshot next
      rw [List.getElem?_append_left (List.getElem?_eq_some_iff.mp hsnapshot).1]
      exact hsnapshot
    refine ⟨published ++ [(applyRefreshedSnapshot w.handle result).current], ?_⟩
    rw [step]
    constructor
    case startup => exact (applyRefreshedSnapshot_startup w.handle result).trans h.startup
    case serving =>
      rw [hnext]
      exact List.getElem?_append_right (by simp [h.last]) |>.trans (by simp [h.last])
    case last => simp [hnext, h.last]
    case safe =>
      intro snapshot hmem hpos
      rcases List.mem_append.mp hmem with hold | hnew
      · exact h.safe snapshot hold hpos
      · rw [List.mem_singleton.mp hnew, hnext, ← h.startup]
        exact safe_of_accept haccept _
    case pins => exact h.pins
    case began =>
      intro scope snapshot hmem
      obtain ⟨hlt, hpub⟩ := h.began scope snapshot hmem
      exact ⟨hlt, hkeep snapshot hpub _⟩
    case once => exact h.once
    case loaded =>
      intro task scope snapshot hmem
      obtain ⟨hpub, hscope⟩ := h.loaded task scope snapshot hmem
      exact ⟨hkeep snapshot hpub _, hscope⟩

theorem Inv.pinForRequest (h : Inv S published w) (task : Nat) :
    Inv S published (w.step (.pinForRequest task)) := by
  rw [step]
  constructor
  case startup => exact h.startup
  case serving => exact h.serving
  case last => exact h.last
  case safe => exact h.safe
  case pins =>
    intro other pin hpin
    by_cases ho : other = task
    · subst ho
      simp only [Function.update_self] at hpin
      rcases List.mem_cons.mp hpin with hpin | hpin
      · subst hpin
        exact List.mem_cons_self
      · exact List.mem_cons_of_mem _ (h.pins other pin hpin)
    · simp only [Function.update_of_ne ho] at hpin
      exact List.mem_cons_of_mem _ (h.pins other pin hpin)
  case began =>
    intro scope snapshot hmem
    rcases List.mem_cons.mp hmem with heq | hold
    · cases heq
      exact ⟨Nat.lt_succ_self _, h.serving⟩
    · obtain ⟨hlt, hpub⟩ := h.began scope snapshot hold
      exact ⟨Nat.lt_succ_of_lt hlt, hpub⟩
  case once =>
    -- Every scope logged before this one has a smaller number.
    intro scope a b ha hb
    rcases List.mem_cons.mp ha with heqa | holda <;> rcases List.mem_cons.mp hb with heqb | holdb
    · cases heqa
      cases heqb
      rfl
    · cases heqa
      exact absurd (h.began _ _ holdb).1 (Nat.lt_irrefl _)
    · cases heqb
      exact absurd (h.began _ _ holda).1 (Nat.lt_irrefl _)
    · exact h.once scope a b holda holdb
  case loaded =>
    intro other scope snapshot hmem
    rcases List.mem_cons.mp hmem with heq | hold
    · cases heq
    · obtain ⟨hpub, hscope⟩ := h.loaded other scope snapshot hold
      exact ⟨hpub, fun k hk => List.mem_cons_of_mem _ (hscope k hk)⟩

/-- Dropping or copying pins keeps what is known of them. -/
theorem Inv.updatePins (h : Inv S published w) (task : Nat) (pins : List PinnedSnapshot)
    (hpins : ∀ pin ∈ pins, ∃ owner, pin ∈ w.pins owner) :
    Inv S published { w with pins := Function.update w.pins task pins } := by
  refine { h with pins := ?_ }
  intro other pin hpin
  by_cases ho : other = task
  · subst ho
    simp only [Function.update_self] at hpin
    obtain ⟨owner, howner⟩ := hpins pin hpin
    exact h.pins owner pin howner
  · simp only [Function.update_of_ne ho] at hpin
    exact h.pins other pin hpin

theorem Inv.load (h : Inv S published w) (task : Nat) : Inv S published (w.step (.load task)) := by
  have hnot : ∀ scope snapshot, w.load task ≠ .began scope snapshot := by
    intro scope snapshot he
    rw [World.load] at he
    split at he <;> cases he
  have hold : ∀ scope snapshot, .began scope snapshot ∈ w.load task :: w.log → .began scope snapshot ∈ w.log := by
    intro scope snapshot hmem
    exact (List.mem_cons.mp hmem).resolve_left fun he => hnot scope snapshot he.symm
  rw [step]
  constructor
  case startup => exact h.startup
  case serving => exact h.serving
  case last => exact h.last
  case safe => exact h.safe
  case pins => exact fun other pin hpin => List.mem_cons_of_mem _ (h.pins other pin hpin)
  case began => exact fun scope snapshot hmem => h.began scope snapshot (hold scope snapshot hmem)
  case once => exact fun scope a b ha hb => h.once scope a b (hold scope a ha) (hold scope b hb)
  case loaded =>
    intro other scope snapshot hmem
    rcases List.mem_cons.mp hmem with heq | hmem
    · rw [World.load] at heq
      split at heq
      next =>
        cases heq
        exact ⟨h.serving, fun k hk => (by cases hk)⟩
      next pin rest hpins =>
        cases heq
        have hbegan := h.pins task pin (by rw [hpins]; exact List.mem_cons_self)
        refine ⟨(h.began _ _ hbegan).2, fun k hk => ?_⟩
        cases hk
        exact List.mem_cons_of_mem _ hbegan
    · obtain ⟨hpub, hscope⟩ := h.loaded other scope snapshot hmem
      exact ⟨hpub, fun k hk => List.mem_cons_of_mem _ (hscope k hk)⟩

/-- One step keeps the invariant. -/
theorem Inv.step (h : Inv S published w) (action : Action) : ∃ published', Inv S published' (w.step action) := by
  cases action with
  | refresh result => exact h.refresh result
  | pinForRequest task => exact ⟨published, h.pinForRequest task⟩
  | endRequest task =>
    exact ⟨published, h.updatePins task _ fun pin hpin => ⟨task, List.mem_of_mem_tail hpin⟩⟩
  | carryPin task child =>
    exact ⟨published, h.updatePins child _ fun pin hpin => ⟨task, List.mem_of_mem_take hpin⟩⟩
  | load task => exact ⟨published, h.load task⟩

/-- A whole run keeps it. -/
theorem inv_run (h : Inv S published w) (actions : List Action) : ∃ published', Inv S published' (w.run actions) := by
  induction actions generalizing published w with
  | nil => exact ⟨published, h⟩
  | cons action actions ih =>
    obtain ⟨published', h'⟩ := h.step action
    exact ih h'

/-- **Every generation served is safe and every refresh is all or nothing.**
After any run: a refresh that failed or is refused changes nothing; an admitted
one leaves what is serving where the two are equal, and otherwise puts the
admitted configuration one generation on; what is serving, and what any load
returned, is safe unless it is the first generation; two loads of one
generation returned the same snapshot; and a load inside a scope returned what
was serving when that scope, which began once, began. -/
theorem generations_safe (configs : ProviderConfigs) (S : List String) (actions : List Action) :
    let w := (new configs S).run actions
    (∀ result, (∀ loaded, result = .ok loaded → acceptRefreshedSnapshot (w.handle.candidate loaded) ≠ .ok ()) →
      applyRefreshedSnapshot w.handle result = w.handle) ∧
    (∀ loaded, acceptRefreshedSnapshot (w.handle.candidate loaded) = .ok () →
      (w.handle.serves (w.handle.candidate loaded) = true → applyRefreshedSnapshot w.handle (.ok loaded) = w.handle) ∧
      (w.handle.serves (w.handle.candidate loaded) = false →
        (applyRefreshedSnapshot w.handle (.ok loaded)).current =
          { generation := w.handle.current.generation + 1
            providerConfigs := (w.handle.candidate loaded).providerConfigs
            availableChainNames := (w.handle.candidate loaded).availableChainNames })) ∧
    (0 < w.handle.current.generation → Safe S w.handle.current) ∧
    (∀ task scope snapshot, .loaded task scope snapshot ∈ w.log → 0 < snapshot.generation → Safe S snapshot) ∧
    (∀ task scope a task' scope' b, .loaded task scope a ∈ w.log → .loaded task' scope' b ∈ w.log →
      a.generation = b.generation → a = b) ∧
    (∀ task scope a, .loaded task (.some scope) a ∈ w.log →
      .began scope a ∈ w.log ∧ ∀ b, .began scope b ∈ w.log → a = b) := by
  intro w
  obtain ⟨published, h⟩ := inv_run (inv_new configs S) actions
  refine ⟨?_, ?_, ?_, ?_, ?_, ?_⟩
  · intro result hrefused
    obtain ⟨hsame, -⟩ | ⟨loaded, hok, haccept, -⟩ := applyRefreshedSnapshot_cases w.handle result
    · exact hsame
    · exact absurd haccept (hrefused loaded hok)
  · intro loaded haccept
    obtain ⟨hsame, hserves⟩ | ⟨loaded', hok, -, hserves, hnext⟩ :=
      applyRefreshedSnapshot_cases w.handle (.ok loaded)
    · have hserves := hserves loaded rfl haccept
      exact ⟨fun _ => hsame, fun hno => (by rw [hserves] at hno; cases hno)⟩
    · cases hok
      exact ⟨fun hyes => (by rw [hserves] at hyes; cases hyes), fun _ => by rw [hnext]⟩
  · exact h.safe _ (List.mem_of_getElem? h.serving)
  · intro task scope snapshot hmem
    exact h.safe _ (List.mem_of_getElem? (h.loaded task scope snapshot hmem).1)
  · intro task scope a task' scope' b ha hb hgeneration
    have hpa := (h.loaded task scope a ha).1
    have hpb := (h.loaded task' scope' b hb).1
    rw [hgeneration] at hpa
    exact Option.some.inj (hpa.symm.trans hpb)
  · intro task scope a hmem
    have hbegan := (h.loaded task _ a hmem).2 scope rfl
    exact ⟨hbegan, fun b hb => h.once scope a b hbegan hb⟩

end World

/-! ## The chain set -/

/-- The handle after a run of remote refreshes, each read with the operator's
list. -/
def refreshed (required : Option (List String)) (handle : ProviderSnapshotHandle)
    (parsed : List (Except String ProviderConfigs)) : ProviderSnapshotHandle :=
  parsed.foldl (fun serving file => applyRefreshedSnapshot serving (fromV2 file required)) handle

/-- The refresh that goes wrong: there is no operator's list, and the file lacks
a chain of `S` but has another, all it has of `S` being valid. -/
def Withdraws (S : List String) (required : Option (List String)) (parsed : Except String ProviderConfigs) : Prop :=
  required = .none ∧ ∃ file, parsed = .ok file ∧ (∃ name ∈ S, file.containsKey name = false) ∧
    (∃ name ∈ S, file.containsKey name = true) ∧
    ∀ name ∈ S, ∀ config, file.get? name = .some config → config.validate = .ok ()

theorem candidate_names (handle : ProviderSnapshotHandle) (configs : ProviderConfigs) :
    (handle.candidate configs).availableChainNames = handle.startupChainNames.filter configs.containsKey := by
  refine List.filter_congr fun name hname => ?_
  rw [IndexMap.containsKey_retain, List.contains_iff_mem.mpr hname, Bool.true_and]

theorem candidate_get? {name : String} (hname : name ∈ handle.startupChainNames) :
    (handle.candidate configs).providerConfigs.get? name = configs.get? name := by
  rw [ProviderSnapshotHandle.candidate, IndexMap.get?_retain, if_pos (List.contains_iff_mem.mpr hname)]

/-- What the gate asks of a candidate, in terms of the file. -/
theorem accept_iff : acceptRefreshedSnapshot (handle.candidate configs) = .ok () ↔
    (∃ name ∈ handle.startupChainNames, configs.containsKey name = true) ∧
      ∀ name ∈ handle.startupChainNames, ∀ config, configs.get? name = .some config → config.validate = .ok () := by
  rw [acceptRefreshedSnapshot, (validateOperationalChains_spec _ _).2, candidate_names]
  refine and_congr ?_ ?_
  · rw [ne_eq, List.filter_eq_nil_iff]
    simp
  · constructor
    · intro h name hname config hconfig
      refine h name (List.mem_filter.mpr ⟨hname, ?_⟩) config ((candidate_get? hname).trans hconfig)
      rw [IndexMap.containsKey, hconfig, Option.isSome_some]
    · intro h name hname config hconfig
      have hname := (List.mem_filter.mp hname).1
      exact h name hname config ((candidate_get? hname).symm.trans hconfig)

/-- After a refresh the roster is that of before or that of the candidate. -/
theorem applyRefreshedSnapshot_names (handle : ProviderSnapshotHandle) (configs : ProviderConfigs) :
    (applyRefreshedSnapshot handle (.ok configs)).current.availableChainNames =
      if acceptRefreshedSnapshot (handle.candidate configs) = .ok () then
        (handle.candidate configs).availableChainNames
      else handle.current.availableChainNames := by
  obtain ⟨hsame, hserves⟩ | ⟨configs', hok, haccept, -, hnext⟩ :=
    applyRefreshedSnapshot_cases handle (.ok configs)
  · rw [hsame]
    split
    next haccept =>
      have hserves := hserves configs rfl haccept
      rw [ProviderSnapshotHandle.serves, Bool.and_eq_true, beq_iff_eq] at hserves
      exact hserves.2
    next => rfl
  · cases hok
    rw [if_pos haccept, hnext]

/-- **One refresh keeps the roster exactly when it does not withdraw a chain.** -/
theorem names_kept_iff {required : Option (List String)} (hS : handle.startupChainNames = S)
    (hlist : ∀ names, required = .some names → ∀ name ∈ S, name ∈ names)
    (hnames : handle.current.availableChainNames = S) (parsed : Except String ProviderConfigs) :
    (applyRefreshedSnapshot handle (fromV2 parsed required)).current.availableChainNames = S ↔
      ¬ Withdraws S required parsed := by
  cases hload : fromV2 parsed required with
  | error e =>
    refine ⟨?_, fun _ => hnames⟩
    intro _ hw
    obtain ⟨rfl, file, rfl, -⟩ := hw
    cases hload
  | ok configs =>
    obtain ⟨file, rfl, hcarries, hconfigs⟩ := fromV2_eq_ok hload
    rw [applyRefreshedSnapshot_names, candidate_names, hS]
    cases required with
    | some names =>
      -- With a list the file that loads carries every chain of it.
      have hall : ∀ name ∈ S, configs.containsKey name = true := by
        intro name hname
        have hin := hlist names rfl name hname
        rw [hconfigs, IndexMap.containsKey_retain, List.contains_iff_mem.mpr hin, Bool.true_and]
        exact hcarries names rfl name hin
      have hkept : S.filter configs.containsKey = S := List.filter_eq_self.mpr hall
      rw [hkept, hnames, ite_self]
      exact ⟨fun _ hw => (by cases hw.1), fun _ => rfl⟩
    | none =>
      subst hconfigs
      constructor
      · intro h hw
        obtain ⟨-, file', hfile, ⟨name, hname, hmissing⟩, hsome, hvalid⟩ := hw
        cases hfile
        rw [if_pos (accept_iff.mpr ⟨hS ▸ hsome, hS ▸ hvalid⟩)] at h
        rw [List.filter_eq_self.mp h name hname] at hmissing
        cases hmissing
      · intro hw
        split
        next haccept =>
          obtain ⟨hsome, hvalid⟩ := accept_iff.mp haccept
          refine List.filter_eq_self.mpr fun name hname => ?_
          by_contra hmissing
          refine hw ⟨rfl, configs, rfl, ⟨name, hname, Bool.eq_false_iff.mpr hmissing⟩, ?_⟩
          exact ⟨hS ▸ hsome, hS ▸ hvalid⟩
        next => exact hnames

/-- **The chain set stays fixed exactly as long as no refresh withdraws a
chain.** For any startup configuration and operator's list, along any run of
remote refreshes, every roster served is the startup roster if and only if no
refresh of the run, read without a list, lacks one startup chain while what it
has of the others is valid. -/
theorem roster_fixed_iff (startup : ProviderConfigs) (required : Option (List String))
    (parsed : List (Except String ProviderConfigs)) :
    let S := filteredAvailableChainNames startup required
    (∀ n, (refreshed required (.new startup S) (parsed.take n)).current.availableChainNames = S) ↔
      ∀ file ∈ parsed, ¬ Withdraws S required file := by
  intro S
  have hlist : ∀ names, required = .some names → ∀ name ∈ S, name ∈ names := by
    intro names hnames name hname
    subst hnames
    simpa using (List.mem_filter.mp hname).2
  suffices key : ∀ (parsed : List (Except String ProviderConfigs)) (handle : ProviderSnapshotHandle),
      handle.startupChainNames = S → handle.current.availableChainNames = S →
      ((∀ n, (refreshed required handle (parsed.take n)).current.availableChainNames = S) ↔
        ∀ file ∈ parsed, ¬ Withdraws S required file) from key parsed _ rfl rfl
  intro parsed
  induction parsed with
  | nil =>
    intro handle _ hnames
    simp [refreshed, hnames]
  | cons file parsed ih =>
    intro handle hS hnames
    have hstep := names_kept_iff hS hlist hnames file
    have hS' := (applyRefreshedSnapshot_startup handle (fromV2 file required)).trans hS
    rw [List.forall_mem_cons]
    constructor
    · intro h
      have hnames' := h 1
      exact ⟨hstep.mp hnames', (ih _ hS' hnames').mp fun n => h (n + 1)⟩
    · intro h n
      cases n with
      | zero => exact hnames
      | succ n => exact (ih _ hS' (hstep.mpr h.1)).mpr h.2 n

/-- Without an operator's list, a valid file that no longer has `ethereum`
takes it off the roster. -/
theorem roster_loses_ethereum :
    let startup : ProviderConfigs := ⟨[("bsc", onePool), ("ethereum", onePool)], by decide⟩
    let file : ProviderConfigs := ⟨[("bsc", onePool)], by decide⟩
    let S := filteredAvailableChainNames startup .none
    S = ["bsc", "ethereum"] ∧
      (refreshed .none (.new startup S) [.ok file]).current.availableChainNames = ["bsc"] := by
  intro startup file S
  have hS : S = ["bsc", "ethereum"] := by decide
  refine ⟨hS, ?_⟩
  have haccept : acceptRefreshedSnapshot ((ProviderSnapshotHandle.new startup S).candidate file) = .ok () := by
    refine accept_iff.mpr ⟨⟨"bsc", ?_, ?_⟩, ?_⟩
    · rw [hS]
      exact List.mem_cons_self
    · decide
    · intro name _ config hconfig
      have hmem : (name, config) ∈ [("bsc", onePool)] := IndexMap.mem_of_get? hconfig
      rw [List.mem_singleton, Prod.mk.injEq] at hmem
      rw [hmem.2, validate_onePool]
  have hnames := applyRefreshedSnapshot_names (.new startup S) file
  rw [if_pos haccept, candidate_names, hS] at hnames
  exact hnames

end Pillar.Snapshot
