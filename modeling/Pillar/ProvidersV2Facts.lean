/-
A strategy that was loaded is the configured one, and its `max` is unanimity.

The checks are taken apart once (`Loaded`): a chain that was returned has an
`rpc` pool all of whose categories are listed, and the strategy its own text
resolves to against that pool. What `max` stands for is counted there as the
number of distinct entities, so a vote that meets it has all of them.
-/
import Pillar.DispatchFacts
import Pillar.ProvidersV2

namespace Pillar.ProvidersV2

open Std (TreeMap TreeSet)
open Strategy
open Provider (ProviderConfig ProviderConfigs providerCategories)

variable {ε α : Type}

/-! ## Counting entities -/

/-- The distinct entities among voters of a category; of any, for `any`. -/
def distinct (voters : List ProviderVoter) (category : String) : Finset String :=
  ((if category = providerCategoryAny then voters else voters.filter (·.category = category)).map (·.entity)).toFinset

theorem mem_distinct_any {voters : List ProviderVoter} {e : String} :
    e ∈ distinct voters providerCategoryAny ↔ ∃ c, ⟨c, e⟩ ∈ voters := by
  rw [distinct, if_pos rfl, List.mem_toFinset, List.mem_map]
  constructor
  · intro h
    obtain ⟨voter, hv, rfl⟩ := h
    exact ⟨voter.category, hv⟩
  · intro h
    obtain ⟨c, hc⟩ := h
    exact ⟨_, hc, rfl⟩

theorem mem_distinct {voters : List ProviderVoter} {c e : String} (hc : c ≠ providerCategoryAny) :
    e ∈ distinct voters c ↔ ⟨c, e⟩ ∈ voters := by
  rw [distinct, if_neg hc, List.mem_toFinset, List.mem_map]
  constructor
  · intro h
    obtain ⟨voter, hv, rfl⟩ := h
    obtain ⟨hmem, hcat⟩ := List.mem_filter.mp hv
    rw [← of_decide_eq_true hcat]
    exact hmem
  · intro h
    exact ⟨⟨c, e⟩, List.mem_filter.mpr ⟨h, decide_eq_true rfl⟩, rfl⟩

theorem card_distinct_le (voters : List ProviderVoter) (category : String) :
    (distinct voters category).card ≤ voters.length := by
  refine (List.toFinset_card_le _).trans ?_
  rw [List.length_map]
  split
  · exact le_rfl
  · exact List.length_filter_le _ _

/-- The pool of a map is what it lists. -/
theorem poolOf_eq {map : TreeMap String (TreeSet String)} {voters : List ProviderVoter}
    (hmap : ∀ c e, Listed map c e ↔ ⟨c, e⟩ ∈ voters) : poolOf map = (distinct voters providerCategoryAny).card := by
  obtain ⟨pool, hlen, hnodup, hmem⟩ := exists_pool map
  rw [← hlen, ← List.toFinset_card_of_nodup hnodup]
  congr 1
  ext e
  rw [List.mem_toFinset, hmem, mem_distinct_any]
  exact exists_congr fun c => hmap c e

theorem size_eq_card {set : TreeSet String} {s : Finset String} (h : ∀ e, e ∈ set ↔ e ∈ s) : set.size = s.card := by
  have hnodup : set.toList.Nodup := TreeSet.distinct_toList.imp fun hne heq => hne (by simp [heq])
  rw [← TreeSet.length_toList, ← List.toFinset_card_of_nodup hnodup]
  congr 1
  ext e
  rw [List.mem_toFinset, TreeSet.mem_toList, h]

theorem not_listed_noEntities (c e : String) : ¬ Listed noEntities c e := by
  intro hlisted
  obtain ⟨set, hset, hmem⟩ := hlisted
  have hall : ∀ p ∈ noEntities.toList, p.2.isEmpty = true := by decide +kernel
  have hempty := hall _ (TreeMap.mem_toList_iff_getElem?_eq_some.mpr hset)
  exact TreeSet.isEmpty_iff_forall_not_mem.mp hempty e hmem

/-- One entry more, of a category that is there. -/
theorem addEntity_listed {out : TreeMap String (TreeSet String)} {entry : ProviderEntryV2}
    (hin : (out[entry.category]?).isSome) (c e : String) :
    Listed (addEntity out entry) c e ↔ Listed out c e ∨ (⟨c, e⟩ : ProviderVoter) = entry.voter := by
  obtain ⟨set, hset⟩ := Option.isSome_iff_exists.mp hin
  rw [addEntity, hset, Dispatch.listed_insert, ProviderEntryV2.voter, ProviderVoter.mk.injEq]
  split
  next hc =>
    subst hc
    have hlists : Listed out entry.category e ↔ e ∈ set := by simp [Listed, hset]
    rw [hlists, TreeSet.mem_insert, Std.LawfulEqOrd.compare_eq_iff_eq, eq_comm (a := entry.entity)]
    simp [or_comm]
  next hc => simp [hc]

theorem addEntity_isSome {out : TreeMap String (TreeSet String)} (entry : ProviderEntryV2) {k : String}
    (h : (out[k]?).isSome) : ((addEntity out entry)[k]?).isSome := by
  rw [addEntity]
  split
  · rw [TreeMap.getElem?_insert]
    split
    · rfl
    · exact h
  · exact h

/-- What a list of entries lists, when all its categories are listed. -/
theorem listed_entitiesPerCategory {entries : List ProviderEntryV2}
    (hlisted : ∀ entry ∈ entries, entry.category ∈ providerCategories) (c e : String) :
    Listed (entitiesPerCategory entries) c e ↔ ⟨c, e⟩ ∈ entries.map (·.voter) := by
  suffices key : ∀ (entries : List ProviderEntryV2) (out : TreeMap String (TreeSet String)),
      (∀ entry ∈ entries, entry.category ∈ providerCategories) → (∀ k ∈ providerCategories, (out[k]?).isSome) →
      (Listed (entries.foldl addEntity out) c e ↔
        Listed out c e ∨ (⟨c, e⟩ : ProviderVoter) ∈ entries.map (·.voter)) by
    have hstart : ∀ k ∈ providerCategories, (noEntities[k]?).isSome := by decide +kernel
    rw [entitiesPerCategory, key entries _ hlisted hstart]
    simp [not_listed_noEntities]
  intro entries
  induction entries with
  | nil => simp
  | cons entry entries ih =>
    intro out hcategories hout
    obtain ⟨hhead, htail⟩ := List.forall_mem_cons.mp hcategories
    rw [List.foldl_cons, ih _ htail fun k hk => addEntity_isSome entry (hout k hk),
      addEntity_listed (hout _ hhead), List.map_cons, List.mem_cons, or_assoc]

/-- What `max` stands for: the distinct entities of the category in the pool. -/
theorem maxOf_eq {entries : List ProviderEntryV2}
    (hlisted : ∀ entry ∈ entries, entry.category ∈ providerCategories) (category : String) :
    maxOf (entitiesPerCategory entries) category = (distinct (entries.map (·.voter)) category).card := by
  have hmap := listed_entitiesPerCategory hlisted
  rw [maxOf]
  split
  next hany =>
    subst hany
    exact poolOf_eq hmap
  next hnamed =>
    have hset : ∀ e, e ∈ distinct (entries.map (·.voter)) category ↔ Listed (entitiesPerCategory entries) category e :=
      fun e => (mem_distinct hnamed).trans (hmap category e).symm
    cases hg : (entitiesPerCategory entries)[category]? with
    | none =>
      have hempty : distinct (entries.map (·.voter)) category = ∅ := by
        ext e
        rw [hset]
        simp [Listed, hg]
      rw [hempty]
      rfl
    | some set =>
      refine size_eq_card fun e => ?_
      rw [hset]
      simp [Listed, hg]

/-! ## Resolving -/

/-- A count stays; `max` is the number of the pool's distinct entities. -/
def resolvedTo (voters : List ProviderVoter) (category : String) : Strategy.Quorum → Strategy.Quorum
  | .count n => .count n
  | .max => .count (UInt64.ofNat (distinct voters category).card)

/-- A requirement with every `max` replaced. -/
def Resolves (voters : List ProviderVoter) (raw resolved : CategoryRequirement) : Prop :=
  ∀ category, resolved[category]? = (raw[category]?).map (resolvedTo voters category)

/-- A strategy with every `max` replaced. -/
structure ResolvesStrategy (voters : List ProviderVoter) (raw resolved : QuorumStrategy) : Prop where
  allOf : List.Forall₂ (Resolves voters) raw.allOf resolved.allOf
  oneOf : List.Forall₂ (Resolves voters) raw.oneOf resolved.oneOf

section

variable {entries : List ProviderEntryV2} {minimum : Option Nat}

theorem resolveQuorum_eq_ok (hlisted : ∀ entry ∈ entries, entry.category ∈ providerCategories) {category : String}
    {raw resolved : Strategy.Quorum} (h : resolveQuorum (entitiesPerCategory entries) minimum category raw =
    .ok resolved) :
    resolved = resolvedTo (entries.map (·.voter)) category raw := by
  cases raw with
  | count n =>
    cases h
    rfl
  | max =>
    simp only [resolveQuorum] at h
    split at h
    · cases h
    · cases h
      rw [resolvedTo, maxOf_eq hlisted]

theorem resolveRequirement_eq_ok (hlisted : ∀ entry ∈ entries, entry.category ∈ providerCategories)
    {raw resolved : CategoryRequirement}
    (h : resolveRequirement (entitiesPerCategory entries) minimum raw = .ok resolved) :
    Resolves (entries.map (·.voter)) raw resolved := by
  have hloop := foldlM_induct (P := fun done out => ∀ category, out[category]? =
    if category ∈ done.map Prod.fst then (raw[category]?).map (resolvedTo (entries.map (·.voter)) category)
    else raw[category]?) h (by simp) (by
    intro done entry out out' hentry hout hstep category
    obtain ⟨key, quorum⟩ := entry
    obtain ⟨value, hvalue, hreturn⟩ := bindOk_iff.mp hstep
    cases hreturn
    have hraw : raw[key]? = .some quorum := TreeMap.mem_toList_iff_getElem?_eq_some.mp hentry
    rw [TreeMap.getElem?_insert, resolveQuorum_eq_ok hlisted hvalue]
    by_cases hkey : key = category
    · subst hkey
      simp [hraw]
    · have hmem : category ∈ (done ++ [(key, quorum)]).map Prod.fst ↔ category ∈ done.map Prod.fst := by
        simp [Ne.symm hkey]
      rw [if_neg (by simpa using hkey), hout]
      simp only [hmem])
  intro category
  rw [hloop category]
  split
  · rfl
  next hnot =>
    cases hg : raw[category]? with
    | none => rfl
    | some quorum =>
      exact absurd (List.mem_map.mpr ⟨_, TreeMap.mem_toList_iff_getElem?_eq_some.mpr hg, rfl⟩) hnot

theorem resolveMax_eq_ok (hlisted : ∀ entry ∈ entries, entry.category ∈ providerCategories)
    {raw resolved : QuorumStrategy} (h : resolveMax raw (entitiesPerCategory entries) minimum = .ok resolved) :
    ResolvesStrategy (entries.map (·.voter)) raw resolved := by
  rw [resolveMax] at h
  obtain ⟨allOf, hall, hrest⟩ := bindOk_iff.mp h
  obtain ⟨oneOf, hone, hreturn⟩ := bindOk_iff.mp hrest
  cases hreturn
  exact ⟨(mapM_eq_ok_iff.mp hall).imp fun _ _ => resolveRequirement_eq_ok hlisted,
    (mapM_eq_ok_iff.mp hone).imp fun _ _ => resolveRequirement_eq_ok hlisted⟩

end

/-! ## Unanimity -/

section

variable {strategy : QuorumStrategy} {counts : Counts} {voters : List ProviderVoter}

/-- A vote that meets a count of a named category has as many of its entities. -/
theorem card_le_of_named (hmeets : Declared counts strategy) (hlists : ∀ c e, counts.Lists c e ↔ ⟨c, e⟩ ∈ voters)
    {requirement : CategoryRequirement} (hreq : requirement ∈ strategy.allOf) {category : String} {n : UInt64}
    (hcount : requirement[category]? = .some (.count n)) (hnamed : category ≠ providerCategoryAny) :
    n.toNat ≤ (distinct voters category).card := by
  obtain ⟨alt, -, -, -, hfill⟩ := hmeets
  have hentry : (category, Strategy.Quorum.count n) ∈ entries strategy.allOf alt :=
    List.mem_flatMap.mpr ⟨requirement, List.mem_append_left _ hreq, TreeMap.mem_toList_iff_getElem?_eq_some.mpr hcount⟩
  have hslots : slotsOf (category, .count n) = List.replicate n.toNat category := if_neg hnamed
  have hsub : (List.replicate n.toNat category).Sublist ((entries strategy.allOf alt).flatMap slotsOf) := by
    rw [← hslots]
    exact List.sublist_flatten_of_mem (List.mem_map_of_mem hentry)
  obtain ⟨filled, hfills⟩ := Slots.Fillable.sublist hsub hfill
  have hin : filled.toFinset ⊆ distinct voters category := by
    intro e he
    obtain ⟨k, hk, hlisted⟩ := hfills.mem (List.mem_toFinset.mp he)
    obtain ⟨-, rfl⟩ := List.mem_replicate.mp hk
    exact (mem_distinct hnamed).mpr ((hlists k e).mp hlisted)
  have hlength : filled.length = n.toNat := by
    rw [← hfills.fits.length_eq, List.length_replicate]
  rw [← hlength, ← List.toFinset_card_of_nodup hfills.nodup]
  exact Finset.card_le_card hin

/-- A vote that meets a count of `any` has as many distinct entities. -/
theorem card_le_of_any (hmeets : Declared counts strategy) (hlists : ∀ c e, counts.Lists c e ↔ ⟨c, e⟩ ∈ voters)
    {requirement : CategoryRequirement} (hreq : requirement ∈ strategy.allOf) {n : UInt64}
    (hcount : requirement[providerCategoryAny]? = .some (.count n)) :
    n.toNat ≤ (distinct voters providerCategoryAny).card := by
  obtain ⟨alt, -, -, hany, -⟩ := hmeets
  have hentry : (providerCategoryAny, Strategy.Quorum.count n) ∈ entries strategy.allOf alt :=
    List.mem_flatMap.mpr ⟨requirement, List.mem_append_left _ hreq, TreeMap.mem_toList_iff_getElem?_eq_some.mpr hcount⟩
  have hvalue : anyOf (providerCategoryAny, .count n) = n.toNat := by simp [anyOf]
  rw [Counts.pool, poolOf_eq hlists] at hany
  have hle : n.toNat ≤ ((entries strategy.allOf alt).map anyOf).sum := by
    rw [← hvalue]
    exact List.single_le_sum (fun _ _ => Nat.zero_le _) _ (List.mem_map_of_mem hentry)
  exact hle.trans hany

end

/-- The most that a category's count can be is all of it. -/
theorem unanimous {raw resolved : QuorumStrategy} {pool votes : List ProviderVoter} {counts : Counts}
    (hresolves : ResolvesStrategy pool raw resolved) (hfew : pool.length < usizeMax) (hsub : votes ⊆ pool)
    (hmeets : Declared counts resolved) (hlists : ∀ c e, counts.Lists c e ↔ ⟨c, e⟩ ∈ votes)
    {requirement : CategoryRequirement} (hreq : requirement ∈ raw.allOf) {category : String}
    (hmax : requirement[category]? = .some .max) :
    (category ≠ providerCategoryAny → ∀ e, ⟨category, e⟩ ∈ pool → ⟨category, e⟩ ∈ votes) ∧
      (category = providerCategoryAny → distinct votes providerCategoryAny = distinct pool providerCategoryAny) := by
  obtain ⟨requirement', hreq', hres⟩ := Related.exists_right hresolves.allOf hreq
  have hcount : requirement'[category]? = .some (.count (UInt64.ofNat (distinct pool category).card)) := by
    rw [hres category, hmax]
    rfl
  have hvalue : (UInt64.ofNat (distinct pool category).card).toNat = (distinct pool category).card := by
    have hle := card_distinct_le pool category
    rw [UInt64.toNat_ofNat']
    exact Nat.mod_eq_of_lt (by unfold usizeMax at hfew; omega)
  refine ⟨fun hnamed e he => ?_, fun hany => ?_⟩
  · have hle := card_le_of_named hmeets hlists hreq' hcount hnamed
    rw [hvalue] at hle
    have hsubset : distinct votes category ⊆ distinct pool category := fun e he =>
      (mem_distinct hnamed).mpr (hsub ((mem_distinct hnamed).mp he))
    rw [← mem_distinct hnamed, Finset.eq_of_subset_of_card_le hsubset hle]
    exact (mem_distinct hnamed).mpr he
  · subst hany
    have hle := card_le_of_any hmeets hlists hreq' hcount
    rw [hvalue] at hle
    refine Finset.eq_of_subset_of_card_le (fun e he => ?_) hle
    obtain ⟨c, hc⟩ := mem_distinct_any.mp he
    exact mem_distinct_any.mpr ⟨c, hsub hc⟩

/-! ## What was loaded -/

theorem jsonError_eq_ok {file : String} {x : Except String α} {a : α} (h : jsonError file x = .ok a) : x = .ok a := by
  cases x with
  | ok b =>
    cases h
    rfl
  | error e => cases h

theorem parseProvidersFile_eq_ok (readers : Readers) {text : String} {file : RawProvidersFile}
    (h : parseProvidersFile readers text = .ok file) : readers.providers text = .ok file := by
  obtain ⟨-, -, hread⟩ := bindOk_iff.mp h
  exact jsonError_eq_ok hread

theorem parseStrategyFile_eq_ok (readers : Readers) {text : String} {file : RawStrategyFile}
    (h : parseStrategyFile readers text = .ok file) : readers.strategy text = .ok file := by
  obtain ⟨read, hread, hrest⟩ := bindOk_iff.mp h
  split at hrest
  · cases hrest
  · cases hrest
    exact jsonError_eq_ok hread

/-- A map built of distinct keys has each. -/
theorem getElem?_ofList {l : List (String × α)} (hnodup : (l.map Prod.fst).Nodup) {key : String} {value : α}
    (h : (key, value) ∈ l) : (TreeMap.ofList l compare)[key]? = .some value := by
  refine TreeMap.getElem?_ofList_of_mem Std.ReflCmp.compare_self ?_ h
  refine (List.pairwise_map.mp hnodup).imp fun hne heq => hne ?_
  exact Std.LawfulEqOrd.eq_of_compare heq

section

variable (readers : Readers) {content : QuorumStrategyFileContent} {minimum : Option Nat}

/-- A chain's strategies were resolved each from its own text, or the default. -/
theorem resolveChain_eq_ok {chain : String} {endpoints : TreeMap String Entries} {out : TreeMap String QuorumStrategy}
    (h : resolveChain readers content minimum chain endpoints = .ok out) {endpoint : String} {strategy : QuorumStrategy}
    (hout : out[endpoint]? = .some strategy) : ∃ entries raw, endpoints[endpoint]? = .some entries ∧
      ((content.chains[chain]?).bind (·[endpoint]?)).or content.default = .some raw ∧
      resolveMax raw (entitiesPerCategory entries.list) minimum = .ok strategy := by
  have hloop := foldlM_induct (P := fun _ (out : TreeMap String QuorumStrategy) => ∀ (endpoint : String) strategy,
    out[endpoint]? = .some strategy →
    ∃ (entries : Entries) (raw : QuorumStrategy), endpoints[endpoint]? = .some entries ∧
      ((content.chains[chain]?).bind (·[endpoint]?)).or content.default = .some raw ∧
      resolveMax raw (entitiesPerCategory entries.list) minimum = .ok strategy) h
      (by intro endpoint strategy hget; simp at hget) (by
    intro done entry out out' hentry hinv hstep
    obtain ⟨key, entries⟩ := entry
    dsimp only at hstep
    split at hstep
    next =>
      cases hstep
      exact hinv
    next raw hraw =>
      split at hstep
      next => cases hstep
      next resolved hresolved =>
        cases hstep
        intro endpoint strategy hget
        rw [TreeMap.getElem?_insert] at hget
        split at hget
        next heq =>
          cases Std.LawfulEqOrd.eq_of_compare heq
          cases hget
          exact ⟨entries, raw, TreeMap.mem_toList_iff_getElem?_eq_some.mp hentry, hraw, hresolved⟩
        next => exact hinv endpoint strategy hget)
  exact hloop endpoint strategy hout

theorem precomputeResolvedStrategy_eq_ok {file : ProvidersFileV2}
    {resolved : TreeMap String (TreeMap String QuorumStrategy)}
    (h : precomputeResolvedStrategy readers file content minimum = .ok resolved) {chain : String}
    {out : TreeMap String QuorumStrategy} (hout : resolved[chain]? = .some out) :
    ∃ endpoints, file.chains[chain]? = .some endpoints ∧
    resolveChain readers content minimum chain endpoints = .ok out := by
  have hloop := foldlM_induct (P := fun _ (resolved : TreeMap String (TreeMap String QuorumStrategy)) =>
    ∀ (chain : String) out, resolved[chain]? = .some out → ∃ endpoints, file.chains[chain]? = .some endpoints ∧
    resolveChain readers content minimum chain endpoints = .ok out)
    h (by intro chain out hget; simp at hget) (by
    intro done entry resolved resolved' hentry hinv hstep
    obtain ⟨key, endpoints⟩ := entry
    obtain ⟨value, hvalue, hreturn⟩ := bindOk_iff.mp hstep
    cases hreturn
    intro chain out hget
    rw [TreeMap.getElem?_insert] at hget
    split at hget
    next heq =>
      cases Std.LawfulEqOrd.eq_of_compare heq
      cases hget
      exact ⟨endpoints, TreeMap.mem_toList_iff_getElem?_eq_some.mp hentry, hvalue⟩
    next => exact hinv chain out hget)
  exact hloop chain out hout

theorem toFile_chain {raw : RawProvidersFile} {chain : String} {endpoints : IndexMap Entries}
    (h : (chain, endpoints) ∈ raw.chains.entries) :
    raw.toFile.chains[chain]? = .some (TreeMap.ofList endpoints.entries) := by
  refine getElem?_ofList ?_ (List.mem_map.mpr ⟨_, h, rfl⟩)
  rw [List.map_map]
  exact raw.chains.nodup

/-- A pool of a file that was accepted names listed categories only. -/
theorem listed_of_validateProviderConfig {file : ProvidersFileV2} {known : List String}
    (h : validateProviderConfig readers file known = .ok ()) {chain endpoint : String}
    {endpoints : TreeMap String Entries} {entries : Entries} (hchain : file.chains[chain]? = .some endpoints)
    (hendpoint : endpoints[endpoint]? = .some entries) :
    ∀ entry ∈ entries.list, entry.category ∈ providerCategories := by
  intro entry hentry
  rw [validateProviderConfig, validationResult] at h
  split at h
  next hnone =>
    have hpool : (chain, endpoint, entries) ∈ file.pools :=
      List.mem_flatMap.mpr ⟨_, TreeMap.mem_toList_iff_getElem?_eq_some.mpr hchain,
        List.mem_map.mpr ⟨_, TreeMap.mem_toList_iff_getElem?_eq_some.mpr hendpoint, rfl⟩⟩
    obtain ⟨index, hindex⟩ := List.mem_iff_getElem?.mp hentry
    have hnil := List.flatMap_eq_nil_iff.mp (List.isEmpty_iff.mp hnone) _ hpool
    have herrors := List.flatMap_eq_nil_iff.mp hnil (entry, index) (List.mem_zipIdx_iff_getElem?.mpr hindex)
    have hclean := List.map_eq_nil_iff.mp herrors
    rw [validateProviderEntry, List.append_eq_nil_iff, List.append_eq_nil_iff] at hclean
    obtain ⟨⟨-, hcategory⟩, -⟩ := hclean
    by_contra hnot
    by_cases hempty : entry.category = ""
    · simp [hempty] at hcategory
    · simp [hempty, hnot] at hcategory
  next => cases h

end

/-- What one chain adds. -/
structure Added (raw : RawProvidersFile) (resolved : TreeMap String (TreeMap String QuorumStrategy)) (chain : String)
    (config : ProviderConfig) : Prop where
  pool : ∃ endpoints entries, (chain, endpoints) ∈ raw.chains.entries ∧ endpoints.get? rpcEndpointType = .some entries ∧
    config.uris = entries.list.map providerUri ∧ config.voters = entries.list.map (·.voter)
  strategy : (resolved[chain]?).bind (·[rpcEndpointType]?) = .some config.strategy
  validates : config.validate = .ok ()

theorem newConfig_eq_ok {entries : Entries} {strategy : QuorumStrategy} {config : ProviderConfig}
    (h : newConfig entries strategy = .ok config) :
    config = configOf entries strategy [] ∧ (configOf entries strategy []).validate = .ok () := by
  rw [newConfig] at h
  obtain ⟨⟨⟩, hvalid, hreturn⟩ := bindOk_iff.mp h
  cases hreturn
  exact ⟨rfl, hvalid⟩

theorem addChains_added (readers : Readers) {raw : RawProvidersFile}
    {resolved : TreeMap String (TreeMap String QuorumStrategy)} {configs : ProviderConfigs}
    (h : raw.chains.entries.foldlM (addChain readers resolved) noConfigs = .ok configs) {chain : String}
    {config : ProviderConfig} (hget : configs.get? chain = .some config) : Added raw resolved chain config := by
  have hloop := foldlM_induct (P := fun _ (configs : ProviderConfigs) => ∀ chain config,
    configs.get? chain = .some config → Added raw resolved chain config) h
    (fun chain config hnone => by cases hnone) (by
    intro done entry configs configs' hentry hinv hstep
    obtain ⟨key, endpoints⟩ := entry
    simp only [addChain] at hstep
    split at hstep
    next =>
      cases hstep
      exact hinv
    next entries hentries =>
      split at hstep
      next => cases hstep
      next strategy hstrategy =>
        split at hstep
        next config' hnew =>
          obtain ⟨rfl, hvalid⟩ := newConfig_eq_ok hnew
          cases hstep
          intro chain config hget
          rw [IndexMap.get?_insert] at hget
          split at hget
          next heq =>
            cases heq
            cases hget
            exact ⟨⟨endpoints, entries, hentry, hentries, rfl, rfl⟩, hstrategy, hvalid⟩
          next => exact hinv chain config hget
        next => cases hstep
        next => cases hstep
        next => cases hstep)
  exact hloop chain config hget

/-- The strategy a chain is configured with: its own, or the default one. -/
def QuorumStrategyFileContent.configured (content : QuorumStrategyFileContent) (chain : String) :
    Option QuorumStrategy :=
  ((content.chains[chain]?).bind (·[rpcEndpointType]?)).or content.default

/-- **The loaded strategy is the configured one, and `max` means unanimity.** For
every pair of texts that loads and every chain of it: the pool is that of the
file; it passes `validate`; its strategy is the chain's own or the default one,
every `max` replaced by the number of distinct entities of its category in the
pool; all of the pool meets it; and voters that meet it have, of a category of
which `allOf` asks for `max`, every entity the pool has. -/
theorem loaded_unanimous (readers : Readers) {providersRaw strategyRaw : String} {configs : ProviderConfigs}
    (h : providerConfigsFromV2 readers providersRaw strategyRaw = .ok configs) :
    ∃ providers strategies, readers.providers providersRaw = .ok providers ∧
      readers.strategy strategyRaw = .ok strategies ∧
      ∀ chain config, configs.get? chain = .some config → ∃ endpoints entries raw,
        (chain, endpoints) ∈ providers.chains.entries ∧ endpoints.get? rpcEndpointType = .some entries ∧
        config.uris = entries.list.map providerUri ∧ config.voters = entries.list.map (·.voter) ∧
        config.validate = .ok () ∧ strategies.content.configured chain = .some raw ∧
        ResolvesStrategy config.voters raw config.strategy ∧ Declared config.entities config.strategy ∧
        ∀ indices, Quorum.MetBy config.toProviderConfig indices →
          ∀ requirement ∈ raw.allOf, ∀ category : String, requirement[category]? = .some .max →
            (category ≠ providerCategoryAny → ∀ e, ⟨category, e⟩ ∈ config.voters →
              ⟨category, e⟩ ∈ config.toProviderConfig.votersAt indices) ∧
            (category = providerCategoryAny → distinct (config.toProviderConfig.votersAt indices) providerCategoryAny =
              distinct config.voters providerCategoryAny) := by
  rw [providerConfigsFromV2] at h
  obtain ⟨providers, hproviders, h⟩ := bindOk_iff.mp h
  obtain ⟨strategies, hstrategies, h⟩ := bindOk_iff.mp h
  obtain ⟨⟨⟩, -, h⟩ := bindOk_iff.mp h
  obtain ⟨⟨⟩, hprovider, h⟩ := bindOk_iff.mp h
  obtain ⟨⟨⟩, -, h⟩ := bindOk_iff.mp h
  split at h
  next => cases h
  next resolved hresolved =>
    refine ⟨providers, strategies, parseProvidersFile_eq_ok readers hproviders,
      parseStrategyFile_eq_ok readers hstrategies, ?_⟩
    intro chain config hget
    obtain ⟨⟨endpoints, entries, hchain, hentries, huris, hvoters⟩, hstrategy, hvalidates⟩ :=
      addChains_added readers h hget
    have hfile := toFile_chain hchain
    have hendpoint : (TreeMap.ofList endpoints.entries compare)[rpcEndpointType]? = .some entries :=
      getElem?_ofList endpoints.nodup (IndexMap.mem_of_get? hentries)
    have hlisted := listed_of_validateProviderConfig readers hprovider hfile hendpoint
    obtain ⟨out, hout, hrpc⟩ := Option.bind_eq_some_iff.mp hstrategy
    obtain ⟨endpoints', hendpoints', hchainOk⟩ := precomputeResolvedStrategy_eq_ok readers hresolved hout
    cases hfile.symm.trans hendpoints'
    obtain ⟨entries', raw, hentries', hraw, hmax⟩ := resolveChain_eq_ok readers hchainOk hrpc
    cases hendpoint.symm.trans hentries'
    have hresolves : ResolvesStrategy config.voters raw config.strategy := by
      rw [hvoters]
      exact resolveMax_eq_ok hlisted hmax
    have hvalid : config.Valid := by
      rcases config.validate_spec with hok | herr
      · exact hok.2
      · obtain ⟨⟨e, he⟩, -⟩ := herr
        rw [hvalidates] at he
        cases he
    refine ⟨endpoints, entries, raw, hchain, hentries, huris, hvoters, hvalidates, hraw, hresolves,
      hvalid.satisfiable, ?_⟩
    intro indices hmet requirement hreq category hmaxEntry
    refine unanimous hresolves config.voters_lt ?_ hmet (fun c e => Quorum.listed_voterEntities) hreq hmaxEntry
    intro voter hvoter
    obtain ⟨i, -, hi⟩ := List.mem_filterMap.mp hvoter
    exact List.mem_of_getElem? hi

/-- A file of one chain, whose two internal providers are all required. -/
def demoReaders : Readers where
  value := fun _ => .ok (.object [])
  providers := fun _ => .ok {
    entities := ["A", "B"]
    chains := ⟨[("ethereum", ⟨[("rpc", ⟨[⟨"http://a", "internal", "A", ∅⟩, ⟨"http://b", "internal", "B", ∅⟩],
      by decide⟩)], by decide⟩)], by decide⟩ }
  strategy := fun _ => .ok {
    content :=
      { default := .some { allOf := [TreeMap.ofList [("internal", Strategy.Quorum.max)]], oneOf := [] }
        chains := ∅ }
    minimumMaxEntities := .none
    extra := ∅ }
  sha256Hex := id
  chainLabel := id

theorem loaded_unanimous_demo : ∃ configs config,
    providerConfigsFromV2 demoReaders "\x7b\x7d" "\x7b\x7d" = .ok configs ∧
    configs.get? "ethereum" = .some config ∧
    ∃ raw, ResolvesStrategy config.voters raw config.strategy ∧ Declared config.entities config.strategy := by
  have hload : ((providerConfigsFromV2 demoReaders "\x7b\x7d" "\x7b\x7d").toOption.bind
      (·.get? "ethereum")).isSome = true := by decide +kernel
  cases h : providerConfigsFromV2 demoReaders "\x7b\x7d" "\x7b\x7d" with
  | error e =>
    rw [h] at hload
    cases hload
  | ok configs =>
    rw [h] at hload
    obtain ⟨config, hconfig⟩ := Option.isSome_iff_exists.mp hload
    obtain ⟨_, _, -, -, hall⟩ := loaded_unanimous demoReaders h
    obtain ⟨_, _, raw, -, -, -, -, -, -, hresolves, hdeclared, -⟩ := hall "ethereum" config hconfig
    exact ⟨configs, config, rfl, hconfig, raw, hresolves, hdeclared⟩

end Pillar.ProvidersV2
