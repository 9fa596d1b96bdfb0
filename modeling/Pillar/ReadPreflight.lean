/-
What the READ preflight accepts: the markers a command asks for, each endpoint id
mapped to its chain, against the resolved ones (`pillar-runtime`,
`validation_read_markers.rs`; `pillar-config`, the chains by endpoint id).

The command's markers are told apart by endpoint id and matched one to one with
resolved markers, which are told apart by chain. So a command that names one
chain by both its ids asks twice for what can be resolved only once.
-/
import Pillar.ReadMarkersFacts

namespace Pillar.ReadMarkers

open Expiration (inI64)
open Read Text Workflow

/-! ## Chains by endpoint id -/

inductive ConfigError where
  | unknownLayerZeroEnvironment (environment : String)
  | missingLayerZeroEndpointId (environment chainName : String)
  deriving Repr, DecidableEq

/-- A row of `LZ_EVM_ENDPOINT_IDS`. -/
structure EndpointRow where
  environment : String
  chainName : String
  version : String
  eid : UInt32
  deriving Repr, DecidableEq

def canonicalLzEnvironment (environment : String) : Except ConfigError String :=
  if environment = "mainnet" then .ok "mainnet"
  else if environment = "testnet" then .ok "testnet"
  else if environment = "sandbox" ∨ environment = "localnet" then .ok "sandbox"
  else .error (.unknownLayerZeroEnvironment environment)

def layerzeroEvmEndpointIdForVersion (table : List EndpointRow) (chainName environment endpointVersion : String) :
    Except ConfigError UInt32 := do
  let environment ← canonicalLzEnvironment environment
  match table.find? fun row =>
      row.environment = environment && row.chainName = chainName && row.version = endpointVersion with
  | .some row => .ok row.eid
  | .none => .error (.missingLayerZeroEndpointId environment chainName)

/-- The chain of each id, the latest insertion first. -/
def layerzeroChainNameByEvmEndpointId (table : List EndpointRow) (environment : String) (chainNames : List String) :
    Except ConfigError (List (UInt32 × String)) := do
  let environment ← canonicalLzEnvironment environment
  chainNames.foldlM (fun out chainName => do
    let endpointId ← layerzeroEvmEndpointIdForVersion table chainName environment "V2"
    match layerzeroEvmEndpointIdForVersion table chainName environment "V1" with
    | .ok older => return (older, chainName) :: (endpointId, chainName) :: out
    | .error _ => return (endpointId, chainName) :: out) []

/-! ## Triples -/

/-- A chain, a timestamp and a block confirmation. -/
abbrev Triple := String × Int × Int

def resolvedTriple (marker : ResolvedTimestampTimeMarker) : Triple :=
  (marker.chainName, marker.timestamp, marker.blockConfirmation)

/-- What a timestamp marker of a command asks for. -/
def Checks.markerTriple (checks : Checks) (marker : ReadResolvedTimeMarker) : Option Triple :=
  match marker.marker with
  | .timestamp timestamp =>
    (checks.evmChainNameByEid marker.targetEid).map fun chainName =>
      (chainName, (timestamp.toNat : Int), (marker.blockConfirmation.toNat : Int))
  | .blockNumber _ => .none

def Checks.denotedTriples (checks : Checks) (command : EvmReadCommand) : List Triple :=
  (commandMarkers command).filterMap checks.markerTriple

/-- The resolved markers are the ones the command asks for. -/
def Checks.Complete (checks : Checks) (command : EvmReadCommand) (markers : List ResolvedTimestampTimeMarker) : Prop :=
  ∀ triple, triple ∈ markers.map resolvedTriple ↔ triple ∈ checks.denotedTriples command

/-- Two endpoint ids of the command ask for the same. -/
def Checks.Aliased (checks : Checks) (command : EvmReadCommand) : Prop :=
  ∃ m ∈ commandMarkers command, ∃ m' ∈ commandMarkers command, m.targetEid ≠ m'.targetEid ∧
    ∃ triple, checks.markerTriple m = .some triple ∧ checks.markerTriple m' = .some triple

/-- The ids of the command are known, and its numbers in range. -/
structure CommandInRange (checks : Checks) (m : ReadResolvedTimeMarker) : Prop where
  known : ∃ chainName, checks.evmChainNameByEid m.targetEid = .some chainName
  blockNumber : ∀ n, m.marker = .blockNumber n →
    n ≠ 0 ∧ n.toNat ≤ i64Max ∧ inI64 ((n.toNat : Int) + m.blockConfirmation.toNat)
  timestamp : ∀ t, m.marker = .timestamp t → t.toNat ≤ i64Max

/-- The resolved markers are in range, and give one block per chain and timestamp. -/
structure ResolvedInRange (markers : List ResolvedTimestampTimeMarker) : Prop where
  count : markers.length ≤ maxReadMarkers
  kind : ∀ m ∈ markers, m.isBlockNumber = false
  height : ∀ m ∈ markers, inI64 (m.blockNumber + m.blockConfirmation)
  confirmation : ∀ m ∈ markers, 0 ≤ m.blockConfirmation
  timestamp : ∀ m ∈ markers, 0 ≤ m.timestamp
  positive : ∀ m ∈ markers, 1 ≤ m.blockNumber
  agree : ∀ m ∈ markers, ∀ m' ∈ markers, m.chainName = m'.chainName → m.timestamp = m'.timestamp →
    m.blockNumber = m'.blockNumber

variable {hex : Hex.HexCrate} {checks : Checks} {markers : List ResolvedTimestampTimeMarker}

/-! ## The resolved markers -/

/-- What the check keeps of the markers `done`: each of their triples once. -/
structure Deduped (done : List ResolvedTimestampTimeMarker) (s : Preflight) : Prop where
  seen : ∀ m ∈ done, (m.chainName, m.timestamp, m.blockNumber, m.blockConfirmation) ∈ s.seen
  block : ∀ key n, s.blockNumbersByTimestamp.lookup key = .some n →
    ∃ m ∈ done, (m.chainName, m.timestamp) = key ∧ m.blockNumber = n
  mem_seen : ∀ identity ∈ s.seen, ∃ m ∈ done, (m.chainName, m.timestamp, m.blockNumber, m.blockConfirmation) = identity
  unique : ∀ m ∈ s.uniqueMarkers, m ∈ done
  covers : ∀ m ∈ done, resolvedTriple m ∈ s.uniqueMarkers.map resolvedTriple
  nodup : (s.uniqueMarkers.map resolvedTriple).Nodup

theorem deduped_nil : Deduped [] ⟨[], [], []⟩ where
  seen := fun _ hm => by cases hm
  block := fun _ _ h => by cases h
  mem_seen := fun _ h => by cases h
  unique := fun _ hm => by cases hm
  covers := fun _ hm => by cases hm
  nodup := List.nodup_nil

/-- A marker that was seen changes nothing. -/
theorem Deduped.repeated {done : List ResolvedTimestampTimeMarker} {s : Preflight} (h : Deduped done s)
    {marker : ResolvedTimestampTimeMarker}
    (hseen : (marker.chainName, marker.timestamp, marker.blockNumber, marker.blockConfirmation) ∈ s.seen) :
    Deduped (done ++ [marker]) s where
  seen := by
    intro m hm
    rcases List.mem_append.mp hm with hm | hm
    · exact h.seen m hm
    · obtain rfl := List.mem_singleton.mp hm
      exact hseen
  block := by
    intro key n hlookup
    obtain ⟨m, hm, hrest⟩ := h.block key n hlookup
    exact ⟨m, List.mem_append_left _ hm, hrest⟩
  mem_seen := by
    intro identity hidentity
    obtain ⟨m, hm, hrest⟩ := h.mem_seen identity hidentity
    exact ⟨m, List.mem_append_left _ hm, hrest⟩
  unique := fun m hm => List.mem_append_left _ (h.unique m hm)
  covers := by
    intro m hm
    rcases List.mem_append.mp hm with hm | hm
    · exact h.covers m hm
    · obtain rfl := List.mem_singleton.mp hm
      obtain ⟨m', hm', hidentity⟩ := h.mem_seen _ hseen
      have htriple : resolvedTriple m' = resolvedTriple m := by
        simp only [Prod.mk.injEq] at hidentity
        rw [resolvedTriple, resolvedTriple, hidentity.1, hidentity.2.1, hidentity.2.2.2]
      exact htriple ▸ h.covers m' hm'
  nodup := h.nodup

/-- A marker that was not seen is kept. -/
theorem Deduped.fresh {done : List ResolvedTimestampTimeMarker} {s : Preflight} (h : Deduped done s)
    {marker : ResolvedTimestampTimeMarker}
    (hnew : (marker.chainName, marker.timestamp, marker.blockNumber, marker.blockConfirmation) ∉ s.seen)
    (hagree : ∀ m ∈ done, m.chainName = marker.chainName → m.timestamp = marker.timestamp →
      m.blockNumber = marker.blockNumber) :
    Deduped (done ++ [marker])
      { seen := (marker.chainName, marker.timestamp, marker.blockNumber, marker.blockConfirmation) :: s.seen
        blockNumbersByTimestamp := ((marker.chainName, marker.timestamp), marker.blockNumber) ::
          s.blockNumbersByTimestamp
        uniqueMarkers := s.uniqueMarkers ++ [marker] } where
  seen := by
    intro m hm
    rcases List.mem_append.mp hm with hm | hm
    · exact List.mem_cons_of_mem _ (h.seen m hm)
    · obtain rfl := List.mem_singleton.mp hm
      exact List.mem_cons_self
  block := by
    intro key n hlookup
    by_cases hkey : key = (marker.chainName, marker.timestamp)
    · subst hkey
      rw [List.lookup_cons_self] at hlookup
      exact ⟨marker, List.mem_append_right _ List.mem_cons_self, rfl, Option.some.inj hlookup⟩
    · rw [List.lookup_cons, beq_false_of_ne hkey] at hlookup
      obtain ⟨m, hm, hrest⟩ := h.block key n hlookup
      exact ⟨m, List.mem_append_left _ hm, hrest⟩
  mem_seen := by
    intro identity hidentity
    rcases List.mem_cons.mp hidentity with rfl | hidentity
    · exact ⟨marker, List.mem_append_right _ List.mem_cons_self, rfl⟩
    · obtain ⟨m, hm, hrest⟩ := h.mem_seen identity hidentity
      exact ⟨m, List.mem_append_left _ hm, hrest⟩
  unique := by
    intro m hm
    rcases List.mem_append.mp hm with hm | hm
    · exact List.mem_append_left _ (h.unique m hm)
    · exact List.mem_append_right _ hm
  covers := by
    intro m hm
    rw [List.map_append]
    rcases List.mem_append.mp hm with hm | hm
    · exact List.mem_append_left _ (h.covers m hm)
    · exact List.mem_append_right _ (List.mem_map_of_mem hm)
  nodup := by
    rw [List.map_append, List.map_singleton]
    refine List.nodup_append.mpr ⟨h.nodup, List.nodup_singleton _, ?_⟩
    rintro triple htriple _ hmarker rfl
    obtain rfl := List.mem_singleton.mp hmarker
    obtain ⟨m, hm, heq⟩ := List.mem_map.mp htriple
    simp only [resolvedTriple, Prod.mk.injEq] at heq
    -- the same triple is the same marker, block and all
    refine hnew ?_
    rw [← heq.1, ← heq.2.1, ← heq.2.2, ← hagree m (h.unique m hm) heq.1 heq.2.1]
    exact h.seen m (h.unique m hm)

/-- **Markers in range are accepted, and each triple of theirs is kept once.** -/
theorem preflightMarkers_deduped (h : ResolvedInRange markers) :
    (markers.foldlM preflightMarker ⟨[], [], []⟩).Gives (Deduped markers) := by
  refine Exec.gives_foldlM (P := Deduped) markers deduped_nil fun done marker rest s hmarkers hdone => ?_
  have hmem : marker ∈ markers := by rw [hmarkers]; simp
  have hdoneMem : ∀ m ∈ done, m ∈ markers := fun m hm => by rw [hmarkers]; exact List.mem_append_left _ hm
  have hagree : ∀ m ∈ done, m.chainName = marker.chainName → m.timestamp = marker.timestamp →
      m.blockNumber = marker.blockNumber := fun m hm => h.agree m (hdoneMem m hm) marker hmem
  have hsum : ¬(checkedAddI64 marker.blockNumber marker.blockConfirmation).isNone = true := by
    rw [checkedAddI64, if_pos (h.height marker hmem)]
    exact Bool.false_ne_true
  have hblock : ¬(s.blockNumbersByTimestamp.lookup (marker.chainName, marker.timestamp)).any
      (· ≠ marker.blockNumber) = true := by
    intro hany
    obtain ⟨n, hlookup, hne⟩ := (Option.any_eq_true _ _).mp hany
    obtain ⟨m, hm, hkey, rfl⟩ := hdone.block _ n hlookup
    exact of_decide_eq_true hne (hagree m hm (congrArg Prod.fst hkey) (congrArg Prod.snd hkey))
  unfold preflightMarker
  dsimp only
  rw [if_neg (by rw [h.kind marker hmem]; decide)]
  by_cases hseen : (marker.chainName, marker.timestamp, marker.blockNumber, marker.blockConfirmation) ∈ s.seen
  · rw [if_pos hseen]
    exact Exec.gives_ok (hdone.repeated hseen)
  · rw [if_neg hseen, if_neg hsum, if_neg (not_lt.mpr (h.confirmation marker hmem)),
      if_neg (not_lt.mpr (h.timestamp marker hmem)), if_neg (not_lt.mpr (h.positive marker hmem)), if_neg hblock]
    exact Exec.gives_ok (hdone.fresh hseen hagree)

/-! ## The matching -/

/-- The triples that are not taken yet. -/
def openTriples : List ResolvedTimestampTimeMarker → List Bool → List Triple
  | resolved :: uniqueMarkers, taken :: matched =>
    if taken then openTriples uniqueMarkers matched else resolvedTriple resolved :: openTriples uniqueMarkers matched
  | _, _ => []

theorem openTriples_replicate : ∀ uniqueMarkers : List ResolvedTimestampTimeMarker,
    openTriples uniqueMarkers (List.replicate uniqueMarkers.length false) = uniqueMarkers.map resolvedTriple
  | [] => rfl
  | resolved :: uniqueMarkers => by
    rw [List.length_cons, List.replicate_succ, openTriples, if_neg Bool.false_ne_true,
      openTriples_replicate uniqueMarkers, List.map_cons]

theorem openTriples_eq_nil : ∀ {uniqueMarkers : List ResolvedTimestampTimeMarker} {matched : List Bool},
    matched.length = uniqueMarkers.length →
      (openTriples uniqueMarkers matched = [] ↔ (matched.any fun taken => !taken) = false)
  | [], [], _ => by simp [openTriples]
  | resolved :: uniqueMarkers, taken :: matched, hlen => by
    have ih := openTriples_eq_nil (Nat.succ.inj hlen)
    cases taken with
    | true => rw [openTriples, if_pos rfl, ih, List.any_cons, Bool.not_true, Bool.false_or]
    | false => simp [openTriples]

/-- The first marker that is open takes its triple away. -/
theorem openTriples_findIdx? {p : ResolvedTimestampTimeMarker × Bool → Bool} {triple : Triple}
    (hp : ∀ resolved taken, p (resolved, taken) = true ↔ taken = false ∧ resolvedTriple resolved = triple) :
    ∀ {uniqueMarkers : List ResolvedTimestampTimeMarker} {matched : List Bool},
      matched.length = uniqueMarkers.length →
      (∀ index, (uniqueMarkers.zip matched).findIdx? p = .some index → triple ∈ openTriples uniqueMarkers matched ∧
        openTriples uniqueMarkers (matched.set index true) = (openTriples uniqueMarkers matched).erase triple) ∧
      ((uniqueMarkers.zip matched).findIdx? p = .none → triple ∉ openTriples uniqueMarkers matched)
  | [], [], _ => ⟨fun _ h => (by cases h), fun _ => List.not_mem_nil⟩
  | resolved :: uniqueMarkers, taken :: matched, hlen => by
    obtain ⟨hsome, hnone⟩ := openTriples_findIdx? hp (Nat.succ.inj hlen)
    rw [List.zip_cons_cons, List.findIdx?_cons]
    by_cases hfirst : p (resolved, taken) = true
    · obtain ⟨rfl, rfl⟩ := (hp resolved taken).mp hfirst
      rw [if_pos hfirst]
      refine ⟨fun index h => ?_, fun h => (by cases h)⟩
      obtain rfl := Option.some.inj h
      rw [List.set_cons_zero, openTriples, openTriples, if_pos rfl, if_neg Bool.false_ne_true, List.erase_cons_head]
      exact ⟨List.mem_cons_self, rfl⟩
    · rw [if_neg hfirst]
      refine ⟨fun index h => ?_, fun h => ?_⟩
      · obtain ⟨index, hindex, rfl⟩ := Option.map_eq_some_iff.mp h
        obtain ⟨hmem, hset⟩ := hsome index hindex
        rw [List.set_cons_succ, openTriples, openTriples, hset]
        cases taken with
        | true => exact ⟨hmem, rfl⟩
        | false =>
          have hne : resolvedTriple resolved ≠ triple := fun heq => hfirst ((hp resolved false).mpr ⟨rfl, heq⟩)
          rw [if_neg Bool.false_ne_true, if_neg Bool.false_ne_true, List.erase_cons_tail (by simpa using hne)]
          exact ⟨List.mem_cons_of_mem _ hmem, rfl⟩
      · have hrest := hnone (Option.map_eq_none_iff.mp h)
        rw [openTriples]
        cases taken with
        | true => exact hrest
        | false =>
          rw [if_neg Bool.false_ne_true, List.mem_cons, not_or]
          exact ⟨fun heq => hfirst ((hp resolved false).mpr ⟨rfl, heq.symm⟩), hrest⟩

theorem matchMarker_open {uniqueMarkers : List ResolvedTimestampTimeMarker} {matched : List Bool}
    (hlen : matched.length = uniqueMarkers.length) (chainName : String) (timestamp : UInt64)
    (blockConfirmation : UInt16) {triple : Triple}
    (htriple : triple = (chainName, (timestamp.toNat : Int), (blockConfirmation.toNat : Int))) :
    (triple ∈ openTriples uniqueMarkers matched ∧ ∃ matched',
      matchMarker uniqueMarkers chainName timestamp blockConfirmation matched = .ok matched' ∧
      matched'.length = uniqueMarkers.length ∧
      openTriples uniqueMarkers matched' = (openTriples uniqueMarkers matched).erase triple) ∨
    (triple ∉ openTriples uniqueMarkers matched ∧ ∃ e,
      matchMarker uniqueMarkers chainName timestamp blockConfirmation matched = Exec.err e) := by
  have hmatch : ∀ (resolved : ResolvedTimestampTimeMarker) (taken : Bool),
      (!taken && resolved.chainName = chainName && resolved.timestamp = timestamp.toNat &&
        resolved.blockConfirmation = blockConfirmation.toNat) = true ↔
      taken = false ∧ resolvedTriple resolved = triple := by
    intro resolved taken
    subst htriple
    simp [resolvedTriple, and_assoc]
  unfold matchMarker
  split
  · next index hindex =>
    obtain ⟨hmem, herase⟩ := (openTriples_findIdx? (by exact hmatch) hlen).1 index hindex
    exact .inl ⟨hmem, _, rfl, by rw [List.length_set, hlen], herase⟩
  · next hindex => exact .inr ⟨(openTriples_findIdx? (by exact hmatch) hlen).2 hindex, _, rfl⟩

/-- **The command's markers are matched one to one**: all of them are, and none of
the resolved ones is left, just when their triples are the same in some order. -/
theorem foldlM_matched {uniqueMarkers : List ResolvedTimestampTimeMarker} :
    ∀ {l : List ReadResolvedTimeMarker} {matched : List Bool}, (∀ m ∈ l, CommandInRange checks m) →
      matched.length = uniqueMarkers.length →
      ((∃ matched', l.foldlM (checks.preflightCommandMarker uniqueMarkers) matched = .ok matched' ∧
        (matched'.any fun taken => !taken) = false) ↔
        (l.filterMap checks.markerTriple).Perm (openTriples uniqueMarkers matched))
  | [], matched, _, hlen => by
    rw [List.filterMap_nil, List.nil_perm, openTriples_eq_nil hlen]
    refine ⟨fun ⟨matched', hmatched, hall⟩ => ?_, fun hall => ⟨matched, rfl, hall⟩⟩
    obtain rfl := Except.ok.inj hmatched
    exact hall
  | m :: l, matched, hrange, hlen => by
    obtain ⟨hm, hl⟩ := List.forall_mem_cons.mp hrange
    obtain ⟨chainName, hchain⟩ := hm.known
    have hname : checks.chainNameOf m = .ok chainName := by rw [Checks.chainNameOf, hchain]
    rw [List.foldlM_cons, Checks.preflightCommandMarker, hname, Exec.ok_bind]
    cases hmarker : m.marker with
    | blockNumber n =>
      obtain ⟨-, hle, hsum⟩ := hm.blockNumber n hmarker
      have hnone : checks.markerTriple m = .none := by rw [Checks.markerTriple, hmarker]
      have hadd : checkedAddI64 n.toNat m.blockConfirmation.toNat = .some _ := if_pos hsum
      rw [List.filterMap_cons_none hnone]
      dsimp only
      rw [hadd, if_neg (by rintro (h | h); exacts [absurd hle (not_le.mpr h), by cases h])]
      exact foldlM_matched hl hlen
    | timestamp t =>
      have htriple : checks.markerTriple m = .some (chainName, (t.toNat : Int), (m.blockConfirmation.toNat : Int)) := by
        rw [Checks.markerTriple, hmarker, hchain]
        rfl
      rw [List.filterMap_cons_some htriple, List.cons_perm_iff_perm_erase]
      dsimp only
      rw [if_neg (not_lt.mpr (hm.timestamp t hmarker))]
      rcases matchMarker_open hlen chainName t m.blockConfirmation rfl with
        ⟨hmem, matched', hmatched, hlen', herase⟩ | ⟨hmem, e, herr⟩
      · rw [hmatched, Exec.ok_bind, ← herase]
        rw [foldlM_matched hl hlen']
        exact ⟨fun h => ⟨hmem, h⟩, And.right⟩
      · rw [herr]
        exact ⟨fun ⟨_, h, _⟩ => (by cases h), fun h => absurd h.1 hmem⟩

/-! ## The markers of a command -/

theorem nodup_foldl_pushUniqueReadMarker : ∀ (l : List ReadResolvedTimeMarker) {acc : List ReadResolvedTimeMarker},
    acc.Nodup → (l.foldl pushUniqueReadMarker acc).Nodup
  | [], _, h => h
  | m :: l, acc, h => by
    rw [List.foldl_cons]
    refine nodup_foldl_pushUniqueReadMarker l ?_
    unfold pushUniqueReadMarker
    split
    · exact h
    · next hnew => exact h.append (List.nodup_singleton m) (List.disjoint_singleton.mpr hnew)

theorem extract_eq_foldl {cmd : String} {command : EvmReadCommand}
    (hcommand : decodeEvmReadCommand hex cmd = .ok command)
    (hrange : ∀ m ∈ commandMarkers command, CommandInRange checks m) :
    extractEvmReadResolvedTimeMarkers hex cmd = .ok ((commandMarkers command).foldl pushUniqueReadMarker []) := by
  rw [extractEvmReadResolvedTimeMarkers, hcommand, Exec.ok_bind]
  refine if_neg fun hany => ?_
  obtain ⟨m, hm, hzero⟩ := List.any_eq_true.mp hany
  have hmem : m ∈ commandMarkers command := by simpa using (mem_foldl_pushUniqueReadMarker _ _).mp hm
  exact ((hrange m hmem).blockNumber 0 (of_decide_eq_true hzero)).1 rfl

/-- Markers of one endpoint id that ask for the same are the same. -/
theorem eq_of_markerTriple {m m' : ReadResolvedTimeMarker} (heid : m.targetEid = m'.targetEid) {triple : Triple}
    (h : checks.markerTriple m = .some triple) (h' : checks.markerTriple m' = .some triple) : m = m' := by
  obtain ⟨eid, marker, confirmation⟩ := m
  obtain ⟨eid', marker', confirmation'⟩ := m'
  unfold Checks.markerTriple at h h'
  cases marker with
  | blockNumber n => cases h
  | timestamp t =>
    cases marker' with
    | blockNumber n => cases h'
    | timestamp t' =>
      obtain ⟨chainName, -, rfl⟩ := Option.map_eq_some_iff.mp h
      obtain ⟨chainName', -, heq⟩ := Option.map_eq_some_iff.mp h'
      simp only [Prod.mk.injEq, Nat.cast_inj, UInt64.toNat_inj, UInt16.toNat_inj] at heq
      obtain ⟨-, rfl, rfl⟩ := heq
      obtain rfl : eid = eid' := heid
      rfl

/-- What the command asks for is asked for once just when no two ids ask for the same. -/
theorem nodup_filterMap_iff {command : EvmReadCommand} {l : List ReadResolvedTimeMarker} (hnodup : l.Nodup)
    (hmem : ∀ m, m ∈ l ↔ m ∈ commandMarkers command) :
    (l.filterMap checks.markerTriple).Nodup ↔ ¬checks.Aliased command := by
  rw [List.Nodup, List.pairwise_filterMap]
  constructor
  · rintro hpairs ⟨m, hm, m', hm', hne, triple, htriple, htriple'⟩
    have hsymm : Std.Symm fun m m' => ∀ triple, checks.markerTriple m = .some triple →
        ∀ triple', checks.markerTriple m' = .some triple' → triple ≠ triple' :=
      ⟨fun _ _ hpair a ha b hb heq => hpair b hb a ha heq.symm⟩
    exact hpairs.forall ((hmem m).mpr hm) ((hmem m').mpr hm') (fun heq => hne (congrArg _ heq)) triple htriple
      triple htriple' rfl
  · intro halias
    refine hnodup.pairwise_of_forall_ne fun m hm m' hm' hne triple htriple triple' htriple' heq => ?_
    subst heq
    exact halias ⟨m, (hmem m).mp hm, m', (hmem m').mp hm', fun heid => hne (eq_of_markerTriple heid htriple htriple'),
      triple, htriple, htriple'⟩

/-! ## The preflight -/

/-- **What is accepted**: the complete sets, of a command that asks for nothing by two ids. -/
theorem validateReadMarkersPreflight_ok_iff {sentEvent : PacketSent.LzSentEvent} {command : EvmReadCommand}
    (hread : isRead sentEvent = true) (hcommand : decodeEvmReadCommand hex sentEvent.message = .ok command)
    (hrange : ∀ m ∈ commandMarkers command, CommandInRange checks m) (hresolved : ResolvedInRange markers) :
    checks.validateReadMarkersPreflight hex sentEvent markers = .ok () ↔
      ¬checks.Aliased command ∧ checks.Complete command markers := by
  obtain ⟨s, hs, hdeduped⟩ := preflightMarkers_deduped hresolved
  set l := (commandMarkers command).foldl pushUniqueReadMarker [] with hl
  have hmem : ∀ m, m ∈ l ↔ m ∈ commandMarkers command := fun m => by
    rw [hl, mem_foldl_pushUniqueReadMarker]
    simp
  have hnodup : l.Nodup := nodup_foldl_pushUniqueReadMarker _ List.nodup_nil
  -- what the two sides are: the resolved triples, and the command's
  have hleft : ∀ triple, triple ∈ s.uniqueMarkers.map resolvedTriple ↔ triple ∈ markers.map resolvedTriple := by
    intro triple
    constructor
    · intro h
      obtain ⟨m, hm, rfl⟩ := List.mem_map.mp h
      exact List.mem_map_of_mem (hdeduped.unique m hm)
    · intro h
      obtain ⟨m, hm, rfl⟩ := List.mem_map.mp h
      exact hdeduped.covers m hm
  have hright : ∀ triple, triple ∈ l.filterMap checks.markerTriple ↔ triple ∈ checks.denotedTriples command := by
    intro triple
    simp only [Checks.denotedTriples, List.mem_filterMap, hmem]
  have hmatched := @foldlM_matched checks s.uniqueMarkers l _ (fun m hm => hrange m ((hmem m).mp hm))
    (List.length_replicate (a := false))
  rw [openTriples_replicate] at hmatched
  have hperm : (l.filterMap checks.markerTriple).Perm (s.uniqueMarkers.map resolvedTriple) ↔
      ¬checks.Aliased command ∧ checks.Complete command markers := by
    rw [← nodup_filterMap_iff hnodup hmem]
    constructor
    · intro h
      refine ⟨h.nodup_iff.mpr hdeduped.nodup, fun triple => ?_⟩
      rw [← hleft, ← hright, h.mem_iff]
    · rintro ⟨honce, hcomplete⟩
      refine (List.perm_ext_iff_of_nodup honce hdeduped.nodup).mpr fun triple => ?_
      rw [hleft, hright, hcomplete]
  rw [← hperm, ← hmatched]
  unfold Checks.validateReadMarkersPreflight
  rw [if_neg (not_lt.mpr hresolved.count), hs, Exec.ok_bind, hread, if_pos rfl, extract_eq_foldl hcommand hrange,
    Exec.ok_bind]
  constructor
  · intro h
    obtain ⟨matched, hmatched, hall⟩ := Exec.bind_ok_iff.mp h
    refine ⟨matched, hmatched, ?_⟩
    by_contra htaken
    rw [Bool.not_eq_false] at htaken
    rw [if_pos htaken] at hall
    cases hall
  · rintro ⟨matched, hmatched, hall⟩
    rw [hmatched, Exec.ok_bind, hall, if_neg Bool.false_ne_true]
    rfl

/-- **The preflight accepts just the complete sets**, unless the command asks for
one thing by two ids of a chain: then it accepts none. -/
theorem preflight_accepts_complete_iff {sentEvent : PacketSent.LzSentEvent} {command : EvmReadCommand}
    (hread : isRead sentEvent = true) (hcommand : decodeEvmReadCommand hex sentEvent.message = .ok command)
    (hrange : ∀ m ∈ commandMarkers command, CommandInRange checks m) (hresolved : ResolvedInRange markers) :
    (checks.validateReadMarkersPreflight hex sentEvent markers = .ok () ↔ checks.Complete command markers) ↔
      (checks.Aliased command → ¬checks.Complete command markers) := by
  rw [validateReadMarkersPreflight_ok_iff hread hcommand hrange hresolved]
  constructor
  · intro h halias hcomplete
    exact (h.mpr hcomplete).1 halias
  · intro h
    exact ⟨And.right, fun hcomplete => ⟨fun halias => h halias hcomplete, hcomplete⟩⟩

/-! ### A chain with two ids -/

def ethereumRows : List EndpointRow := [⟨"mainnet", "ethereum", "V1", 101⟩, ⟨"mainnet", "ethereum", "V2", 30101⟩]

def ethereumChecks : Checks where
  evmChainNameByEid eid :=
    ((layerzeroChainNameByEvmEndpointId ethereumRows "mainnet" ["ethereum"]).toOption.getD []).lookup eid
  reads := sampleReads

theorem length_requestLabel : ([0, 1] : List UInt8).length = 2 := rfl

theorem length_commandLabel : ([0, 7] : List UInt8).length = 2 := rfl

theorem calldata_fits : 35 + ([1, 2, 3, 4] : List UInt8).length < 2 ^ 16 := by decide

/-- A request for one timestamp of endpoint `eid`. -/
def timestampRequest (eid : UInt32) : RequestSyntax :=
  ⟨⟨[0, 1], length_requestLabel⟩, ⟨eid, .timestamp 1700000000, 12, ⟨List.replicate 20 10, Abi.length_target⟩⟩,
    [1, 2, 3, 4], calldata_fits⟩

def oneId : CommandSyntax where
  label := ⟨[0, 7], length_commandLabel⟩
  requests := [timestampRequest 101]
  compute := .none
  count_pos := by decide
  count_le := by decide

def bothIds : CommandSyntax where
  label := ⟨[0, 7], length_commandLabel⟩
  requests := [timestampRequest 101, timestampRequest 30101]
  compute := .none
  count_pos := by decide
  count_le := by decide

def readEvent (s : CommandSyntax) : PacketSent.LzSentEvent :=
  { sampleReadEvent with message := Hex.HexCrate.plain.encode s.encode }

def ethereumMarkers : List ResolvedTimestampTimeMarker := [⟨12, false, "ethereum", 100, 1700000000⟩]

theorem decode_readEvent (s : CommandSyntax) :
    decodeEvmReadCommand .plain (readEvent s).message = .ok (s.decoded .plain) :=
  (decodeEvmReadCommand_grammar .plain (Abi.decodeHexBytes_encode s.encode)).2.1 s rfl

theorem ethereumMarkers_inRange : ResolvedInRange ethereumMarkers where
  count := by decide
  kind := by simp [ethereumMarkers]
  height := by simp [ethereumMarkers, inI64]
  confirmation := by simp [ethereumMarkers]
  timestamp := by simp [ethereumMarkers]
  positive := by simp [ethereumMarkers]
  agree := by simp [ethereumMarkers]

theorem timestampRequest_inRange {eid : UInt32} {chainName : String}
    (h : ethereumChecks.evmChainNameByEid eid = .some chainName) :
    CommandInRange ethereumChecks (requestMarker ((timestampRequest eid).decoded .plain)) where
  known := ⟨chainName, h⟩
  blockNumber := fun n hn => by cases hn
  timestamp := fun t ht => by
    obtain rfl := ReadTimeMarker.timestamp.inj ht
    decide

theorem chain_101 : ethereumChecks.evmChainNameByEid 101 = .some "ethereum" := by decide

theorem chain_30101 : ethereumChecks.evmChainNameByEid 30101 = .some "ethereum" := by decide

theorem denoted_bothIds : ethereumChecks.denotedTriples (bothIds.decoded .plain) =
    [("ethereum", 1700000000, 12), ("ethereum", 1700000000, 12)] := by decide

theorem preflight_accepts_complete_iff_oneId :
    ethereumChecks.validateReadMarkersPreflight .plain (readEvent oneId) ethereumMarkers = .ok () := by
  have hrange : ∀ m ∈ commandMarkers (oneId.decoded .plain), CommandInRange ethereumChecks m := by
    intro m hm
    obtain rfl := List.mem_singleton.mp hm
    exact timestampRequest_inRange chain_101
  have hdenoted : ethereumChecks.denotedTriples (oneId.decoded .plain) = [("ethereum", 1700000000, 12)] := by decide
  refine ((preflight_accepts_complete_iff rfl (decode_readEvent oneId) hrange ethereumMarkers_inRange).mpr ?_).mpr ?_
  · rintro ⟨m, hm, m', hm', hne, -⟩
    exact absurd ((congrArg _ (List.mem_singleton.mp hm)).trans (congrArg _ (List.mem_singleton.mp hm').symm)) hne
  · intro triple
    rw [hdenoted]
    simp [ethereumMarkers, resolvedTriple]

/-- One resolved marker is all that the command asks for, by two ids, and is refused. -/
theorem preflight_refuses_bothIds :
    decodeEvmReadCommand .plain (readEvent bothIds).message = .ok (bothIds.decoded .plain) ∧
    (∀ m ∈ commandMarkers (bothIds.decoded .plain), CommandInRange ethereumChecks m) ∧
    ResolvedInRange ethereumMarkers ∧
    ¬(ethereumChecks.validateReadMarkersPreflight .plain (readEvent bothIds) ethereumMarkers = .ok () ↔
      ethereumChecks.Complete (bothIds.decoded .plain) ethereumMarkers) := by
  have hrange : ∀ m ∈ commandMarkers (bothIds.decoded .plain), CommandInRange ethereumChecks m := by
    intro m hm
    rcases List.mem_pair.mp hm with rfl | rfl
    · exact timestampRequest_inRange chain_101
    · exact timestampRequest_inRange chain_30101
  have hcomplete : ethereumChecks.Complete (bothIds.decoded .plain) ethereumMarkers := by
    intro triple
    rw [denoted_bothIds]
    simp [ethereumMarkers, resolvedTriple]
  have haliased : ethereumChecks.Aliased (bothIds.decoded .plain) :=
    ⟨_, List.mem_cons_self, _, List.mem_cons_of_mem _ List.mem_cons_self, by decide,
      ("ethereum", 1700000000, 12), by decide, by decide⟩
  refine ⟨decode_readEvent bothIds, hrange, ethereumMarkers_inRange, fun h => ?_⟩
  rw [validateReadMarkersPreflight_ok_iff rfl (decode_readEvent bothIds) hrange ethereumMarkers_inRange] at h
  exact (h.mpr hcomplete).1 haliased

end Pillar.ReadMarkers
