/-
The provider documents (`pillar-config`, `provider_validation.rs`): a
`providers-v2.json` and a `quorum-strategy.json` checked as one unit, `max`
resolved against each chain's pool, and the pools the runtime votes over.

What the two texts parse to is a parameter, with the digest of a text and the
name a message gives a chain. Warnings are left out.
-/
import Pillar.Dispatch
import Pillar.Json
import Pillar.Text

namespace Pillar.ProvidersV2

open Std (TreeMap TreeSet)
open Strategy Text
open Provider (ProviderConfig ProviderConfigs ProviderUri providerCategories categoryLabel strategyDiagnostic)
open Dispatch (countsOf)

inductive ConfigError where
  | json (message : String)
  | providerValidation (message : String)

variable {ε : Type}

/-! ## The documents -/

/-- `RawProviderEntry`, which `ProviderEntryV2` copies field by field. -/
structure ProviderEntryV2 where
  uri : String
  category : String
  entity : String
  headers : TreeMap String String

/-- A `Vec` has fewer entries than `usize::MAX`. -/
structure Entries where
  list : List ProviderEntryV2
  few : list.length < usizeMax

structure RawProvidersFile where
  entities : List String
  chains : IndexMap (IndexMap Entries)

structure ProvidersFileV2 where
  entities : List String
  chains : TreeMap String (TreeMap String Entries)

structure QuorumStrategyFileContent where
  default : Option QuorumStrategy
  chains : TreeMap String (TreeMap String QuorumStrategy)

structure RawStrategyFile where
  content : QuorumStrategyFileContent
  minimumMaxEntities : Option Nat
  /-- The top-level keys beyond those known. -/
  extra : TreeMap String Json

/-- What is read off the two texts. -/
structure Readers where
  value : String → Except String Json
  providers : String → Except String RawProvidersFile
  strategy : String → Except String RawStrategyFile
  /-- `hex::encode(Sha256::digest(..))`. -/
  sha256Hex : String → String
  chainLabel : String → String

variable (readers : Readers)

def rpcEndpointType : String := "rpc"
def sequencerEndpointType : String := "sequencer"

def endpointLabel (endpoint : String) : String :=
  ([rpcEndpointType, sequencerEndpointType].find? (· = endpoint)).getD "<unlisted endpoint type>"

def legacyProviderConfigError : String :=
  "the legacy `\x7b uris, quorum \x7d` provider configuration is no longer accepted; supply providers-v2.json " ++
    "(`entities` + `chains.<chain>.rpc[\x7buri, category, entity\x7d]`) with quorum-strategy.json"

def looksLegacy : Json → Bool
  | .object entries =>
    (entries.lookup "chains").isNone &&
      entries.any fun (_, chain) => (chain.get "uris").isSome || (chain.get "quorum").isSome
  | _ => false

/-- A text that is no JSON, or not of its shape. -/
def jsonError (file : String) {α : Type} : Except String α → Exec ConfigError α
  | .ok a => .ok a
  | .error error => Exec.err (.json (file ++ ": " ++ error))

def rejectLegacyProviderConfig (raw : String) : Exec ConfigError Unit := do
  let value ← jsonError "providers-v2.json" (readers.value raw)
  if looksLegacy value then Exec.err (.providerValidation legacyProviderConfigError) else return

def parseProvidersFile (raw : String) : Exec ConfigError RawProvidersFile := do
  rejectLegacyProviderConfig readers raw
  jsonError "providers-v2.json" (readers.providers raw)

def parseStrategyFile (raw : String) : Exec ConfigError RawStrategyFile := do
  let file ← jsonError "quorum-strategy.json" (readers.strategy raw)
  if file.extra.keys.any fun key => key.toList.head? ≠ .some '_' then
    Exec.err (.json ("quorum-strategy.json: unknown top-level field, expected `default`, `chains`, " ++
      "`restrictions` or a `_`-prefixed documentation field"))
  else return file

def providersBindingKey : String := "_providersSha256"

def isSha256 (text : String) : Bool := text.utf8ByteSize = 64 && text.toList.all fun c => (hexDigit? c).isSome

/-- A strategy that names its providers file is only valid with that file. -/
def checkProvidersBinding (providersRaw : String) : Option Json → Exec ConfigError Unit
  | .none => .ok ()
  | .some boundTo =>
    match boundTo.asStr.filter isSha256 with
    | .none => Exec.err (.providerValidation ("quorum-strategy.json: `" ++ providersBindingKey ++
        "` must be the SHA-256 of providers-v2.json as 64 hex digits"))
    | .some expected =>
      if eqIgnoreAsciiCase (readers.sha256Hex providersRaw) expected then .ok ()
      else Exec.err (.providerValidation ("quorum-strategy.json: `" ++ providersBindingKey ++
        "` does not match providers-v2.json; the two files are from different rollouts"))

/-! ## `validate_provider_config` -/

def validationResult (label : String) (errors : List String) : Exec ConfigError Unit :=
  if errors.isEmpty then .ok ()
  else Exec.err (.providerValidation (label ++ ":\n" ++ String.intercalate "\n" (errors.map ("  - " ++ ·))))

def validateProviderEntry (entry : ProviderEntryV2) (knownEntities : List String) : List String :=
  (if entry.uri = "" then ["entry is missing required \"uri\""] else []) ++
  (if entry.category = "" then ["entry is missing required \"category\""]
    else if entry.category ∉ providerCategories then
      ["has an unknown category - must be one of: " ++ String.intercalate ", " providerCategories]
    else []) ++
  if entry.entity = "" then ["entry is missing required \"entity\""]
  else if entry.entity ∉ knownEntities then
    ["has an entity which is not in the registered entities list - add it to entities[] first"]
  else []

/-- Every pool of the file, with its chain and its endpoint type. -/
def ProvidersFileV2.pools (file : ProvidersFileV2) : List (String × String × Entries) :=
  file.chains.toList.flatMap fun (chain, endpoints) =>
    endpoints.toList.map fun (endpoint, entries) => (chain, endpoint, entries)

def validateProviderConfig (file : ProvidersFileV2) (known : List String) : Exec ConfigError Unit :=
  validationResult "providers-v2.json validation failed" (file.pools.flatMap fun (chain, endpoint, entries) =>
    entries.list.zipIdx.flatMap fun (entry, index) =>
      (validateProviderEntry entry known).map fun error =>
        "chain \"" ++ readers.chainLabel chain ++ "\" " ++ endpointLabel endpoint ++ "[" ++ toString index ++
        "] " ++ error)

/-! ## `resolve_max` -/

/-- Every category, without entities. -/
def noEntities : TreeMap String (TreeSet String) := TreeMap.ofList (providerCategories.map fun c => (c, ∅))

/-- `if let Some(entities) = out.get_mut(..)`. -/
def addEntity (out : TreeMap String (TreeSet String)) (entry : ProviderEntryV2) : TreeMap String (TreeSet String) :=
  match out[entry.category]? with
  | .some entities => out.insert entry.category (entities.insert entry.entity)
  | .none => out

def entitiesPerCategory (entries : List ProviderEntryV2) : TreeMap String (TreeSet String) :=
  entries.foldl addEntity noEntities

/-- How many entities `max` stands for. -/
def maxOf (counts : TreeMap String (TreeSet String)) (category : String) : Nat :=
  if category = providerCategoryAny then poolOf counts else (counts[category]?).elim 0 (·.size)

def resolveQuorum (counts : TreeMap String (TreeSet String)) (minimum : Option Nat) (category : String) :
    Strategy.Quorum → Except String Strategy.Quorum
  | .count n => .ok (.count n)
  | .max =>
    let actual := maxOf counts category
    match minimum.filter (actual < ·) with
    | .some floor => .error ("RestrictionViolationError: category=" ++ categoryLabel category ++ ", resolved=" ++
        toString actual ++ ", minimumMaxEntities=" ++ toString floor)
    | .none => .ok (.count (UInt64.ofNat actual))

def resolveRequirement (counts : TreeMap String (TreeSet String)) (minimum : Option Nat) (req : CategoryRequirement) :
    Except String CategoryRequirement :=
  req.toList.foldlM (fun out (category, quorum) => do
    return out.insert category (← resolveQuorum counts minimum category quorum)) req

def resolveMax (strategy : QuorumStrategy) (counts : TreeMap String (TreeSet String)) (minimum : Option Nat) :
    Except String QuorumStrategy := do
  let allOf ← strategy.allOf.mapM (resolveRequirement counts minimum)
  let oneOf ← strategy.oneOf.mapM (resolveRequirement counts minimum)
  return { allOf, oneOf }

/-! ## `check_strategy_config_with_restrictions` -/

/-- A chain's own strategy, or the default one. -/
def QuorumStrategyFileContent.strategyFor (content : QuorumStrategyFileContent) (default : QuorumStrategy)
    (chain endpoint : String) : QuorumStrategy :=
  ((content.chains[chain]?).bind (·[endpoint]?)).getD default

def unlistedCategories (label : String) (strategy : QuorumStrategy) : List String :=
  (strategy.allOf ++ strategy.oneOf).flatMap fun requirement =>
    (requirement.keys.filter fun category => category ∉ providerCategories ∧ category ≠ providerCategoryAny).map
      fun category => label ++ ": unlisted category " ++ categoryLabel category

/-- What one pool adds to the errors, if anything. -/
def poolError (content : QuorumStrategyFileContent) (default : QuorumStrategy) (minimum : Option Nat)
    (pool : String × String × Entries) : Exec ε (Option String) :=
  let (chain, endpoint, entries) := pool
  let place := "Chain \"" ++ readers.chainLabel chain ++ "\" " ++ endpointLabel endpoint
  let counts := entitiesPerCategory entries.list
  match resolveMax (content.strategyFor default chain endpoint) counts minimum with
  | .error error => .ok (.some (place ++ ": " ++ error ++ "."))
  | .ok resolved => do
    if ← isStrategySatisfiable (countsOf counts) resolved then return .none
    else return .some (place ++ ": strategy not satisfiable. Strategy: " ++ strategyDiagnostic resolved ++ ".")

def checkStrategyConfigWithRestrictions (file : ProvidersFileV2) (content : QuorumStrategyFileContent)
    (minimum : Option Nat) : Exec ConfigError Unit :=
  match content.default with
  | .none => Exec.err (.providerValidation "quorum-strategy.json: missing required \"default\" strategy")
  | .some default =>
    let unlisted := unlistedCategories "default" default ++ content.chains.values.flatMap fun endpoints =>
      endpoints.values.flatMap (unlistedCategories "chain override")
    if !unlisted.isEmpty then validationResult "Strategy config validation failed" unlisted
    else do
      let found ← file.pools.mapM (poolError readers content default minimum)
      validationResult "Strategy config validation failed" (found.filterMap id)

/-! ## `provider_configs_from_v2` -/

/-- `precompute_resolved_strategy`, of one chain. -/
def resolveChain (content : QuorumStrategyFileContent) (minimum : Option Nat) (chain : String)
    (endpoints : TreeMap String Entries) : Except String (TreeMap String QuorumStrategy) :=
  endpoints.toList.foldlM
    (fun out (endpoint, entries) =>
      match (((content.chains[chain]?).bind (·[endpoint]?)).or content.default) with
      | .none => .ok out
      | .some raw =>
        match resolveMax raw (entitiesPerCategory entries.list) minimum with
        | .error error => .error (readers.chainLabel chain ++ "." ++ endpointLabel endpoint ++ ": " ++ error)
        | .ok resolved => .ok (out.insert endpoint resolved)) ∅

/-- The default it resolves against no pool at all is read by nobody; only that
resolving it fails would show, which without a minimum it does not. -/
def precomputeResolvedStrategy (file : ProvidersFileV2) (content : QuorumStrategyFileContent) (minimum : Option Nat) :
    Except String (TreeMap String (TreeMap String QuorumStrategy)) :=
  file.chains.toList.foldlM
    (fun out (chain, endpoints) => do
      return out.insert chain (← resolveChain readers content minimum chain endpoints)) ∅

def providerUri (entry : ProviderEntryV2) : ProviderUri :=
  if entry.headers.isEmpty then .uri entry.uri else .uriWithHeaders entry.uri entry.headers

def ProviderEntryV2.voter (entry : ProviderEntryV2) : ProviderVoter := ⟨entry.category, entry.entity⟩

/-- The pool of these entries under a strategy. -/
def configOf (entries : Entries) (strategy : QuorumStrategy) (sequencer : List ProviderUri) : ProviderConfig where
  voters := entries.list.map (·.voter)
  strategy := strategy
  voters_lt := by
    rw [List.length_map]
    exact entries.few
  uris := entries.list.map providerUri
  sequencer := sequencer

/-- `ProviderConfig::new`. -/
def newConfig (entries : Entries) (strategy : QuorumStrategy) : Exec String ProviderConfig := do
  let config := configOf entries strategy []
  config.validate
  return config

/-- One chain of the loop; without an `rpc` pool it is omitted. -/
def addChain (resolved : TreeMap String (TreeMap String QuorumStrategy)) (configs : ProviderConfigs)
    (chain : String × IndexMap Entries) : Exec ConfigError ProviderConfigs :=
  let (chain, endpoints) := chain
  let place := "Chain \"" ++ readers.chainLabel chain ++ "\" " ++ rpcEndpointType
  match endpoints.get? rpcEndpointType with
  | .none => .ok configs
  | .some entries =>
    match (resolved[chain]?).bind (·[rpcEndpointType]?) with
    | .none => Exec.err (.providerValidation (place ++ ": no resolved strategy"))
    | .some strategy =>
      match newConfig entries strategy with
      | .ok config =>
        let sequencer := ((endpoints.get? sequencerEndpointType).map fun entries =>
          entries.list.map providerUri).getD []
        .ok (configs.insert chain { config with sequencer })
      | .error (.err error) => Exec.err (.providerValidation (place ++ ": " ++ error))
      | .error .panic => .error .panic
      | .error .fuel => .error .fuel

/-- The file the checks read: the same pools, by name. -/
def RawProvidersFile.toFile (raw : RawProvidersFile) : ProvidersFileV2 where
  entities := raw.entities
  chains := TreeMap.ofList (raw.chains.entries.map fun (chain, endpoints) => (chain, TreeMap.ofList endpoints.entries))

def noConfigs : ProviderConfigs where
  entries := []
  nodup := .nil

def providerConfigsFromV2 (providersRaw strategyRaw : String) : Exec ConfigError ProviderConfigs := do
  let providers ← parseProvidersFile readers providersRaw
  let strategy ← parseStrategyFile readers strategyRaw
  checkProvidersBinding readers providersRaw (strategy.extra[providersBindingKey]?)
  let file := providers.toFile
  validateProviderConfig readers file file.entities
  checkStrategyConfigWithRestrictions readers file strategy.content strategy.minimumMaxEntities
  match precomputeResolvedStrategy readers file strategy.content strategy.minimumMaxEntities with
  | .error error => Exec.err (.providerValidation error)
  | .ok resolved => providers.chains.entries.foldlM (addChain readers resolved) noConfigs

end Pillar.ProvidersV2
