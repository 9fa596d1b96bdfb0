/-
Provider configuration: one chain's pool and the checks it must pass
(`pillar-config`, `lib.rs`), the restriction of a loaded file to the chains the
operator asked for, and the gate that startup and every refresh go through
(`pillar-runtime`, `server_app/mod.rs`).

Parsing the two files is a parameter: what `provider_configs_from_v2` returns
is any configuration or any error. The operator's list as it was written is
read for a log line only and is left out.
-/
import Pillar.IndexMap
import Pillar.Quorum

namespace Pillar.Provider

open Std (TreeMap TreeSet)
open Strategy Quorum

/-! ## One pool -/

inductive ProviderUri where
  | uri (uri : String)
  | uriWithHeaders (uri : String) (headers : TreeMap String String)

structure ProviderConfig extends Quorum.ProviderConfig where
  uris : List ProviderUri
  /-- The `sequencer` entries, which only Canton reads. -/
  sequencer : List ProviderUri

def ProviderUri.content : ProviderUri → String × Option (List (String × String))
  | .uri text => (text, .none)
  | .uriWithHeaders text headers => (text, .some headers.toList)

/-- What `==` compares: every field, a map by its entries. -/
def ProviderConfig.content (config : ProviderConfig) :=
  (config.uris.map ProviderUri.content, config.voters, config.strategy.allOf.map (·.toList),
    config.strategy.oneOf.map (·.toList), config.sequencer.map ProviderUri.content)

/-- `==`. -/
def ProviderConfig.same (config config' : ProviderConfig) : Bool := config.content == config'.content

theorem ProviderConfig.same_iff {config config' : ProviderConfig} :
    config.same config' = true ↔ config.content = config'.content := beq_iff_eq

/-! ## Diagnostics -/

def providerCategories : List String := ["internal", "dedicated_external", "shared_external"]

def categoryLabel (category : String) : String :=
  ((providerCategories ++ [providerCategoryAny]).find? (· = category)).getD "<unlisted category>"

def renderQuorum : Strategy.Quorum → String
  | .count n => toString n.toNat
  | .max => "\"max\""

def renderRequirement (key : String → String) (req : CategoryRequirement) : String :=
  "\x7b" ++ String.intercalate ","
    (req.toList.map fun (category, value) => "\"" ++ key category ++ "\":" ++ renderQuorum value) ++ "\x7d"

def renderStrategy (key : String → String) (strategy : QuorumStrategy) : String :=
  let object := fun reqs => "[" ++ String.intercalate "," (reqs.map (renderRequirement key)) ++ "]"
  "\x7b\"allOf\":" ++ object strategy.allOf ++ ",\"oneOf\":" ++ object strategy.oneOf ++ "\x7d"

def strategyDiagnostic (strategy : QuorumStrategy) : String := renderStrategy categoryLabel strategy

/-! ## `ProviderConfig::validate` -/

variable {ε : Type}

/-- The counts of no voters at all. -/
def noCounts : Counts where
  map := ∅
  pool_lt := by
    have hempty : poolOf ∅ = 0 := by decide
    rw [hempty]
    decide

/-- All the voters of a pool have no more entities than it has voters. -/
theorem pool_lt_voters (config : Quorum.ProviderConfig) : poolOf (voterEntities config.voters) < usizeMax := by
  obtain ⟨pool, hlen, hn, hmem⟩ := exists_pool (voterEntities config.voters)
  have hsub : pool ⊆ config.voters.map (·.entity) := by
    intro e he
    obtain ⟨c, hc⟩ := (hmem e).mp he
    exact List.mem_map.mpr ⟨_, listed_voterEntities.mp hc, rfl⟩
  have hle := (List.subperm_of_subset hn hsub).length_le
  rw [List.length_map] at hle
  have := config.voters_lt
  omega

def ProviderConfig.entities (config : ProviderConfig) : Counts where
  map := voterEntities config.voters
  pool_lt := pool_lt_voters config.toProviderConfig

def resolved (strategy : QuorumStrategy) : Bool :=
  (strategy.allOf ++ strategy.oneOf).all fun requirement => requirement.toList.all (·.2 ≠ .max)

/-- The invariants every vote relies on. -/
def ProviderConfig.validate (config : ProviderConfig) : Exec String Unit := do
  if config.uris.isEmpty then Exec.err "no provider URI"
  else if config.voters.length ≠ config.uris.length then
    Exec.err (toString config.voters.length ++ " voters for " ++ toString config.uris.length ++ " provider URIs")
  else if !resolved config.strategy then Exec.err "strategy still contains an unresolved \"max\""
  -- A strategy met by no voters at all asks for a signature without agreement.
  else if ← isStrategySatisfiable noCounts config.strategy then
    Exec.err ("strategy " ++ strategyDiagnostic config.strategy ++ " requires no provider agreement")
  else if !(← isStrategySatisfiable config.entities config.strategy) then
    Exec.err ("strategy " ++ strategyDiagnostic config.strategy ++ " is not satisfiable by the configured entities")
  else return

/-- What a pool has to be: a voter for each of at least one URI, and a strategy
with every count resolved that its voters together can meet and nobody cannot. -/
structure ProviderConfig.Valid (config : ProviderConfig) : Prop where
  uris : config.uris ≠ []
  voters : config.voters.length = config.uris.length
  resolved : resolved config.strategy = true
  agreement : ¬ Declared noCounts config.strategy
  satisfiable : Declared config.entities config.strategy

/-- **`validate` decides `Valid`.** It always returns. -/
theorem ProviderConfig.validate_spec (config : ProviderConfig) :
    (config.validate = .ok () ∧ config.Valid) ∨ ((∃ e, config.validate = Exec.err e) ∧ ¬ config.Valid) := by
  obtain ⟨none, hnone, hnoneIff⟩ := isStrategySatisfiable_spec (ε := String) noCounts config.strategy
  obtain ⟨all, hall, hallIff⟩ := isStrategySatisfiable_spec (ε := String) config.entities config.strategy
  rw [ProviderConfig.validate, hnone, hall]
  simp only [Exec.ok_bind, Exec.pure_eq_ok]
  split
  next h => exact .inr ⟨⟨_, rfl⟩, fun hv => hv.uris (List.isEmpty_iff.mp h)⟩
  next huris =>
    split
    next h => exact .inr ⟨⟨_, rfl⟩, fun hv => h hv.voters⟩
    next hvoters =>
      split
      next h => exact .inr ⟨⟨_, rfl⟩, fun hv => by simp [hv.resolved] at h⟩
      next hres =>
        split
        next h => exact .inr ⟨⟨_, rfl⟩, fun hv => hv.agreement (hnoneIff.mp h)⟩
        next hagree =>
          split
          next h => exact .inr ⟨⟨_, rfl⟩, fun hv => by simp [hallIff.mpr hv.satisfiable] at h⟩
          next hsat =>
            refine .inl ⟨rfl, ?_, not_not.mp hvoters, by simpa using hres, fun h => hagree (hnoneIff.mpr h), ?_⟩
            · intro h
              exact huris (List.isEmpty_iff.mpr h)
            · exact hallIff.mp (by simpa using hsat)

/-- `required_provider_quorum`; the rule is the pool itself. -/
def requiredProviderQuorum (config : ProviderConfig) (chainName : String) : Exec AppCoreError ProviderConfig :=
  match config.validate with
  | .ok () => .ok config
  | .error (.err error) => Exec.err (.internal ("Provider pool for chain " ++ chainName ++ ": " ++ error))
  | .error .panic => .error .panic
  | .error .fuel => .error .fuel

/-! ## The configuration of all chains -/

abbrev ProviderConfigs := IndexMap ProviderConfig

def ProviderConfigs.same (configs configs' : ProviderConfigs)  : Bool :=
  IndexMap.same ProviderConfig.same configs configs'

/-- `check_for_missing_chain_names`, with the error's text. -/
def checkForMissingChainNames (config : ProviderConfigs) (requiredChainNames : Option (List String)) :
    Except String Unit :=
  let missing := (requiredChainNames.getD []).filter fun name => !config.containsKey name
  if missing.isEmpty then .ok ()
  else .error ("missing config for required chainNames: [" ++ String.intercalate "," missing ++ "]")

/-- `StaticProviderConfig::new`. -/
def staticProviderConfig (config : ProviderConfigs) (requiredChainNames : Option (List String)) :
    Except String ProviderConfigs := do
  checkForMissingChainNames config requiredChainNames
  match requiredChainNames with
  | .none => return config
  | .some required => return config.retain fun name => required.contains name

/-- `StaticProviderConfig::from_v2`, of what the two files parse to. -/
def fromV2 (parsed : Except String ProviderConfigs) (requiredChainNames : Option (List String)) :
    Except String ProviderConfigs := do
  staticProviderConfig (← parsed) requiredChainNames

/-- What `from_v2` returns, when it does: the file, restricted to the chains
required, all of which it carries. -/
theorem fromV2_eq_ok {parsed : Except String ProviderConfigs} {required : Option (List String)}
    {configs : ProviderConfigs} (h : fromV2 parsed required = .ok configs) :
    ∃ file, parsed = .ok file ∧ (∀ names, required = .some names → ∀ name ∈ names, file.containsKey name) ∧
      configs = match required with
        | .none => file
        | .some names => file.retain fun name => names.contains name := by
  cases parsed with
  | error e => cases h
  | ok file =>
    refine ⟨file, rfl, ?_⟩
    simp only [fromV2, bind, Except.bind, staticProviderConfig, checkForMissingChainNames] at h
    split at h
    next e he => cases h
    next he =>
      split at he
      next hmissing =>
        cases required with
        | none =>
          cases h
          exact ⟨fun _ h => (by cases h), rfl⟩
        | some names =>
          cases h
          refine ⟨fun names' hnames name hname => ?_, rfl⟩
          cases hnames
          simpa using List.filter_eq_nil_iff.mp (List.isEmpty_iff.mp hmissing) name hname
      next => cases he

def filteredAvailableChainNames (config : ProviderConfigs) (requested : Option (List String)) : List String :=
  config.keys.filter fun name => requested.all fun requested => requested.contains name

/-! ## The gate -/

/-- What one chain adds to the errors, if anything. -/
def operationalError (config : Option ProviderConfig) (chainName : String) : Exec String (Option String) :=
  match config with
  | .none => .ok .none
  | .some config =>
    match requiredProviderQuorum config chainName with
    | .ok _ => .ok .none
    | .error (.err error) => .ok (.some error.display)
    | .error .panic => .error .panic
    | .error .fuel => .error .fuel

def validateOperationalChains (providerConfig : ProviderConfigs) (availableChainNames : List String) :
    Exec String Unit := do
  if availableChainNames.isEmpty then
    Exec.err ("no operational chains remain: LAYERZERO_AVAILABLE_CHAIN_NAMES selected " ++
      "nothing present in the provider configuration")
  else
    let found ← availableChainNames.mapM fun name => operationalError (providerConfig.get? name) name
    let errors := found.filterMap id
    if errors.isEmpty then return
    else Exec.err (String.intercalate "; " errors)

theorem operationalError_gives (config : Option ProviderConfig) (chainName : String) :
    (operationalError config chainName).Gives fun error =>
      error = .none ↔ ∀ c, config = .some c → c.validate = .ok () := by
  cases config with
  | none => exact Exec.gives_ok ⟨fun _ _ h => (by cases h), fun _ => rfl⟩
  | some c =>
    obtain ⟨hok, -⟩ | ⟨⟨e, herr⟩, -⟩ := c.validate_spec
    · refine ⟨.none, by rw [operationalError, requiredProviderQuorum, hok], ?_⟩
      exact ⟨fun _ c' hc => (by cases hc; exact hok), fun _ => rfl⟩
    · refine ⟨.some _, by rw [operationalError, requiredProviderQuorum, herr]; rfl, ?_⟩
      refine ⟨fun h => (by cases h), fun h => ?_⟩
      rw [h c rfl] at herr
      cases herr

/-- **What the gate admits**: a roster with a chain in it, whose configured
chains all pass `validate`. It always returns. -/
theorem validateOperationalChains_spec (configs : ProviderConfigs) (names : List String) :
    (validateOperationalChains configs names).Returns ∧
      (validateOperationalChains configs names = .ok () ↔
        names ≠ [] ∧ ∀ name ∈ names, ∀ c, configs.get? name = .some c → c.validate = .ok ()) := by
  obtain ⟨found, hfound, hall⟩ := Exec.gives_mapM names
    (f := fun name => operationalError (configs.get? name) name) fun name _ => operationalError_gives _ name
  rw [validateOperationalChains, hfound]
  simp only [Exec.ok_bind, Exec.pure_eq_ok]
  split
  next h =>
    refine ⟨Exec.returns_err _, fun he => (by cases he), fun he => ?_⟩
    exact absurd (List.isEmpty_iff.mp h) he.1
  next hne =>
    have hnil : found.filterMap id = [] ↔
        ∀ name ∈ names, ∀ c, configs.get? name = .some c → c.validate = .ok () := by
      clear hfound hne
      induction hall with
      | nil => simp
      | @cons name error names found h _ ih =>
        rw [List.forall_mem_cons, ← ih, ← h]
        cases error <;> simp
    split
    next h =>
      refine ⟨Exec.returns_ok _, fun _ => ⟨fun he => hne (List.isEmpty_iff.mpr he), ?_⟩, fun _ => rfl⟩
      exact hnil.mp (List.isEmpty_iff.mp h)
    next h =>
      refine ⟨Exec.returns_err _, fun he => (by cases he), fun he => ?_⟩
      exact absurd (List.isEmpty_iff.mpr (hnil.mpr he.2)) h

/-- A pool of one provider, of which one is asked. -/
def onePool : ProviderConfig where
  voters := [⟨"internal", "self"⟩]
  strategy := { allOf := [.ofList [("any", Strategy.Quorum.count 1)]], oneOf := [] }
  voters_lt := by decide
  uris := [.uri "https://self"]
  sequencer := []

theorem validate_onePool : onePool.validate = .ok () := by decide +kernel

end Pillar.Provider
