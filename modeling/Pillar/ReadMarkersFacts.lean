/-
Facts about READ time markers: what the two checks of a validation keep, what is
required of a block, the pins, and that a call of the command finds its pin.
-/
import Pillar.ReadCommandFacts
import Pillar.ReadMarkers
import Pillar.Related

namespace Pillar.ReadMarkers

open Expiration (inI64)
open PayloadSigned (providerResponse orRpc)
open Read Text Workflow

variable {hex : Hex.HexCrate} {checks : Checks} {markers : List ResolvedTimestampTimeMarker}

/-! ## The markers of a command -/

theorem mem_pushUniqueReadMarker {l : List ReadResolvedTimeMarker} {m m' : ReadResolvedTimeMarker} :
    m' ∈ pushUniqueReadMarker l m ↔ m' ∈ l ∨ m' = m := by
  unfold pushUniqueReadMarker
  split
  next h =>
    constructor
    · exact .inl
    · intro hor
      rcases hor with hm | rfl
      · exact hm
      · exact h
  next => simp

theorem mem_foldl_pushUniqueReadMarker {m : ReadResolvedTimeMarker} : ∀ (l acc : List ReadResolvedTimeMarker),
    m ∈ l.foldl pushUniqueReadMarker acc ↔ m ∈ acc ∨ m ∈ l
  | [], acc => by simp
  | a :: l, acc => by
    rw [List.foldl_cons, mem_foldl_pushUniqueReadMarker l, mem_pushUniqueReadMarker, List.mem_cons, or_assoc]

theorem extract_eq_ok {cmd : String} {l : List ReadResolvedTimeMarker}
    (h : extractEvmReadResolvedTimeMarkers hex cmd = .ok l) : ∃ command, decodeEvmReadCommand hex cmd = .ok command ∧
      (∀ m, m ∈ l ↔ m ∈ commandMarkers command) ∧ ∀ m ∈ l, m.marker ≠ .blockNumber 0 := by
  obtain ⟨command, hcommand, h⟩ := bindOk_iff.mp h
  simp only at h
  split at h
  next => cases h
  next hzero =>
    cases h
    refine ⟨command, hcommand, fun m => ?_, fun m hm heq => hzero ?_⟩
    · rw [mem_foldl_pushUniqueReadMarker]
      simp
    · exact List.any_eq_true.mpr ⟨m, hm, decide_eq_true heq⟩

/-! ## The resolved markers -/

/-- What is known of the resolved markers once they are checked. -/
structure Preflighted (markers : List ResolvedTimestampTimeMarker) (s : Preflight) : Prop where
  seen : ∀ m ∈ markers, m.isBlockNumber = false ∧
    (m.chainName, m.timestamp, m.blockNumber, m.blockConfirmation) ∈ s.seen
  block : ∀ chainName timestamp blockNumber confirmation, (chainName, timestamp, blockNumber, confirmation) ∈ s.seen →
    1 ≤ blockNumber ∧ s.blockNumbersByTimestamp.lookup (chainName, timestamp) = .some blockNumber
  unique : ∀ m ∈ s.uniqueMarkers, m ∈ markers

theorem preflighted_nil : Preflighted [] ⟨[], [], []⟩ where
  seen := fun _ hm => by cases hm
  block := fun _ _ _ _ hm => by cases hm
  unique := fun _ hm => by cases hm

theorem Preflighted.step {done : List ResolvedTimestampTimeMarker} {s s' : Preflight}
    {marker : ResolvedTimestampTimeMarker} (h : Preflighted done s) (hstep : preflightMarker s marker = .ok s') :
    Preflighted (done ++ [marker]) s' := by
  simp only [preflightMarker] at hstep
  split at hstep
  next => cases hstep
  next hblock =>
    have hkind : marker.isBlockNumber = false := by simpa using hblock
    split at hstep
    next hseen =>
      cases hstep
      refine ⟨fun m hm => ?_, h.block, fun m hm => List.mem_append_left _ (h.unique m hm)⟩
      rcases List.mem_append.mp hm with hm | hm
      · exact h.seen m hm
      · cases List.mem_singleton.mp hm
        exact ⟨hkind, hseen⟩
    next hnew =>
      split at hstep
      next => cases hstep
      split at hstep
      next => cases hstep
      split at hstep
      next => cases hstep
      split at hstep
      next => cases hstep
      next hlow =>
        split at hstep
        next => cases hstep
        next hconflict =>
          cases hstep
          refine ⟨fun m hm => ?_, fun chainName timestamp blockNumber confirmation hm => ?_, fun m hm => ?_⟩
          · rcases List.mem_append.mp hm with hm | hm
            · exact ⟨(h.seen m hm).1, List.mem_cons_of_mem _ (h.seen m hm).2⟩
            · cases List.mem_singleton.mp hm
              exact ⟨hkind, List.mem_cons_self⟩
          · rcases List.mem_cons.mp hm with heq | hm
            · cases heq
              exact ⟨by omega, by simp⟩
            · obtain ⟨hpos, hlookup⟩ := h.block chainName timestamp blockNumber confirmation hm
              refine ⟨hpos, ?_⟩
              by_cases hkey : (chainName, timestamp) = (marker.chainName, marker.timestamp)
              · -- A second marker for this chain and timestamp: it names the same block.
                rw [← hkey, hlookup] at hconflict
                have hsame : blockNumber = marker.blockNumber := by simpa using hconflict
                rw [hkey, hsame]
                simp
              · rw [List.lookup_cons, beq_false_of_ne hkey]
                exact hlookup
          · rcases List.mem_append.mp hm with hm | hm
            · exact List.mem_append_left _ (h.unique m hm)
            · exact List.mem_append_right _ hm

theorem preflighted {s : Preflight} (h : markers.foldlM preflightMarker ⟨[], [], []⟩ = .ok s) : Preflighted markers s :=
  foldlM_induct (P := Preflighted) h preflighted_nil fun _ _ _ _ _ hdone hstep => hdone.step hstep

theorem Preflighted.pos {s : Preflight} (h : Preflighted markers s) {m : ResolvedTimestampTimeMarker}
    (hm : m ∈ markers) : 1 ≤ m.blockNumber := (h.block _ _ _ _ (h.seen m hm).2).1

/-- A chain and a timestamp name one block. -/
theorem Preflighted.agree {s : Preflight} (h : Preflighted markers s) {m m' : ResolvedTimestampTimeMarker}
    (hm : m ∈ markers) (hm' : m' ∈ markers) (hchain : m.chainName = m'.chainName) (htime : m.timestamp = m'.timestamp) :
    m.blockNumber = m'.blockNumber := by
  have hlookup := (h.block _ _ _ _ (h.seen m hm).2).2
  rw [hchain, htime, (h.block _ _ _ _ (h.seen m' hm').2).2] at hlookup
  exact (Option.some.inj hlookup).symm

/-- A marker with a timestamp is looked up as the block of any resolved marker
for it. -/
theorem Preflighted.blockNumberForMarker {s : Preflight} (h : Preflighted markers s) {m : ResolvedTimestampTimeMarker}
    (hm : m ∈ markers) {timestamp : UInt64} (htime : m.timestamp = timestamp.toInt64.toInt) :
    blockNumberForMarker m.chainName (.timestamp timestamp) markers = .ok m.blockNumber.toNat := by
  unfold ReadMarkers.blockNumberForMarker
  simp only
  split
  next hnone =>
    have hno := List.find?_eq_none.mp hnone m hm
    simp [(h.seen m hm).1, htime] at hno
  next resolved hfind =>
    have hmem := List.mem_of_find?_eq_some hfind
    have hsome := List.find?_some hfind
    simp only [Bool.and_eq_true, decide_eq_true_eq] at hsome
    rw [if_neg (by have := h.pos hmem; omega), h.agree hmem hm hsome.1.2 (hsome.2.trans htime.symm)]

/-! ## The markers of the command, against the resolved ones -/

/-- What the check of a command's marker gives. -/
structure Checked (checks : Checks) (uniqueMarkers : List ResolvedTimestampTimeMarker) (m : ReadResolvedTimeMarker)
    (chainName : String) : Prop where
  chain : checks.evmChainNameByEid m.targetEid = .some chainName
  blockNumber : ∀ n, m.marker = .blockNumber n → n.toNat ≤ i64Max
  timestamp : ∀ t, m.marker = .timestamp t → t.toNat ≤ i64Max ∧ ∃ resolved ∈ uniqueMarkers,
    resolved.chainName = chainName ∧ resolved.timestamp = t.toNat ∧
    resolved.blockConfirmation = m.blockConfirmation.toNat

theorem chainNameOf_eq_ok {m : ReadResolvedTimeMarker} {chainName : String} (h : checks.chainNameOf m = .ok chainName) :
    checks.evmChainNameByEid m.targetEid = .some chainName := by
  unfold Checks.chainNameOf at h
  split at h
  next hchain =>
    cases h
    exact hchain
  next => cases h

theorem matchMarker_eq_ok {uniqueMarkers : List ResolvedTimestampTimeMarker} {chainName : String} {t : UInt64}
    {confirmation : UInt16} {matched matched' : List Bool}
    (h : matchMarker uniqueMarkers chainName t confirmation matched = .ok matched') : ∃ resolved ∈ uniqueMarkers,
      resolved.chainName = chainName ∧ resolved.timestamp = t.toNat ∧
      resolved.blockConfirmation = confirmation.toNat := by
  unfold matchMarker at h
  split at h
  next index hfind =>
    obtain ⟨hlt, hsat, -⟩ := List.findIdx?_eq_some_iff_getElem.mp hfind
    simp only [Bool.and_eq_true, decide_eq_true_eq] at hsat
    exact ⟨_, (List.of_mem_zip (List.getElem_mem hlt)).1, hsat.1.1.2, hsat.1.2, hsat.2⟩
  next => cases h

theorem preflightCommandMarker_checked {uniqueMarkers : List ResolvedTimestampTimeMarker} {matched matched' : List Bool}
    {m : ReadResolvedTimeMarker} (h : checks.preflightCommandMarker uniqueMarkers matched m = .ok matched') :
    ∃ chainName, Checked checks uniqueMarkers m chainName := by
  obtain ⟨chainName, hchain, h⟩ := bindOk_iff.mp h
  refine ⟨chainName, chainNameOf_eq_ok hchain, fun n hn => ?_, fun t ht => ?_⟩
  · rw [hn] at h
    simp only at h
    split at h
    next => cases h
    next hle => omega
  · rw [ht] at h
    simp only at h
    split at h
    next => cases h
    next hle => exact ⟨by omega, matchMarker_eq_ok h⟩

/-- **What a passed preflight gives**: the resolved markers name real blocks, one
for each chain and timestamp, and every marker of the command has a chain and,
where it is a timestamp, a resolved marker of its own confirmations. -/
theorem validateReadMarkersPreflight_eq_ok {sentEvent : PacketSent.LzSentEvent} (hread : isRead sentEvent = true)
    (h : checks.validateReadMarkersPreflight hex sentEvent markers = .ok ()) : ∃ s l,
      Preflighted markers s ∧ extractEvmReadResolvedTimeMarkers hex sentEvent.message = .ok l ∧
      ∀ m ∈ l, ∃ chainName, Checked checks markers m chainName := by
  unfold Checks.validateReadMarkersPreflight at h
  split at h
  next => cases h
  next =>
    obtain ⟨s, hs, h⟩ := bindOk_iff.mp h
    obtain ⟨l, hl, h⟩ := bindOk_iff.mp h
    obtain ⟨matched, hmatched, -⟩ := bindOk_iff.mp h
    have hpre := preflighted hs
    have hchecked := foldlM_induct (P := fun done (_ : List Bool) => ∀ m ∈ done, ∃ chainName,
      Checked checks s.uniqueMarkers m chainName) hmatched (fun m hm => by cases hm) (by
      intro done m _ _ _ hdone hstep m' hm'
      rcases List.mem_append.mp hm' with hm' | hm'
      · exact hdone m' hm'
      · cases List.mem_singleton.mp hm'
        exact preflightCommandMarker_checked hstep)
    refine ⟨s, l, hpre, hl, fun m hm => ?_⟩
    obtain ⟨chainName, hc⟩ := hchecked m hm
    refine ⟨chainName, hc.chain, hc.blockNumber, fun t ht => ?_⟩
    obtain ⟨hle, resolved, hresolved, hrest⟩ := hc.timestamp t ht
    exact ⟨hle, resolved, hpre.unique resolved hresolved, hrest⟩

/-! ## What is required of a block -/

/-- Each block stands once, with the largest of the heights asked for. -/
structure Raised (asked : Key → Int → Prop) (requirements : Requirements) : Prop where
  nodup : (requirements.map Prod.fst).Nodup
  greatest : ∀ entry ∈ requirements, IsGreatest {required | asked entry.1 required} entry.2.1
  complete : ∀ key required, asked key required → key ∈ requirements.map Prod.fst

theorem Raised.congr {asked asked' : Key → Int → Prop} {requirements : Requirements} (h : Raised asked requirements)
    (hiff : ∀ key required, asked key required ↔ asked' key required) : Raised asked' requirements := by
  have heq : asked = asked' := funext fun key => funext fun required => propext (hiff key required)
  rwa [← heq]

theorem raised_nil : Raised (fun _ _ => False) [] where
  nodup := .nil
  greatest := fun _ hm => by cases hm
  complete := fun _ _ hf => hf.elim

/-- Asked for `required` of `key` as well. -/
def alsoAsked (asked : Key → Int → Prop) (key : Key) (required : Int) : Key → Int → Prop :=
  fun key' required' => asked key' required' ∨ (key' = key ∧ required' = required)

theorem alsoAsked_of_ne {asked : Key → Int → Prop} {key key' : Key} {required required' : Int} (h : key' ≠ key) :
    alsoAsked asked key required key' required' ↔ asked key' required' := by
  simp [alsoAsked, h]

theorem Raised.require {asked : Key → Int → Prop} {requirements : Requirements} (h : Raised asked requirements)
    (key : Key) (required : Int) (kind : String) :
    Raised (alsoAsked asked key required) (require requirements key required kind) := by
  unfold ReadMarkers.require
  cases hlookup : requirements.lookup key with
  | none =>
    have hnew : key ∉ requirements.map Prod.fst := by
      intro hin
      obtain ⟨entry, hentry, hkey⟩ := List.mem_map.mp hin
      have hno := List.lookup_eq_none_iff.mp hlookup entry hentry
      simp [hkey] at hno
    refine ⟨?_, fun entry hentry => ?_, fun key' required' hasked => ?_⟩
    · rw [List.map_append, List.nodup_append]
      refine ⟨h.nodup, List.nodup_singleton _, fun a ha b hb heq => hnew ?_⟩
      cases List.mem_singleton.mp hb
      have hkey : a = key := heq
      exact hkey ▸ ha
    · rcases List.mem_append.mp hentry with hentry | hentry
      · have hne : entry.1 ≠ key := fun heq => hnew (heq ▸ List.mem_map_of_mem hentry)
        simpa only [alsoAsked_of_ne hne] using h.greatest entry hentry
      · cases List.mem_singleton.mp hentry
        refine ⟨.inr ⟨rfl, rfl⟩, fun required' hasked => ?_⟩
        rcases hasked with hasked | ⟨-, rfl⟩
        · exact absurd (h.complete _ _ hasked) hnew
        · exact le_refl _
    · rw [List.map_append, List.mem_append]
      rcases hasked with hasked | ⟨rfl, -⟩
      · exact .inl (h.complete _ _ hasked)
      · exact .inr (by simp)
  | some current =>
    have hmem : (key, current) ∈ requirements := by
      obtain ⟨front, back, heq, -⟩ := List.lookup_eq_some_iff.mp hlookup
      rw [heq]
      exact List.mem_append_right front List.mem_cons_self
    have hgreatest := h.greatest _ hmem
    have hkeys : ∀ key' required', alsoAsked asked key required key' required' → key' ∈ requirements.map Prod.fst := by
      intro key' required' hasked
      rcases hasked with hasked | ⟨rfl, -⟩
      · exact h.complete _ _ hasked
      · exact List.mem_map_of_mem hmem
    simp only
    split
    next hraise =>
      have hfst : (requirements.map fun entry => if entry.1 = key then (key, required, kind) else entry).map Prod.fst =
          requirements.map Prod.fst := by
        rw [List.map_map]
        refine List.map_congr_left fun entry _ => ?_
        by_cases hkey : entry.1 = key
        · simp [hkey]
        · simp [hkey]
      refine ⟨hfst ▸ h.nodup, fun entry hentry => ?_, hfst ▸ hkeys⟩
      obtain ⟨old, hold, rfl⟩ := List.mem_map.mp hentry
      by_cases hkey : old.1 = key
      · rw [if_pos hkey]
        refine ⟨.inr ⟨rfl, rfl⟩, fun required' hasked => ?_⟩
        rcases hasked with hasked | ⟨-, rfl⟩
        · exact le_trans (hgreatest.2 hasked) (le_of_lt hraise)
        · exact le_refl _
      · rw [if_neg hkey]
        simpa only [alsoAsked_of_ne hkey] using h.greatest old hold
    next hkeep =>
      refine ⟨h.nodup, fun entry hentry => ?_, hkeys⟩
      by_cases hkey : entry.1 = key
      · have hsame : entry = (key, current) := List.inj_on_of_nodup_map h.nodup hentry hmem hkey
        rw [hsame]
        refine ⟨.inl hgreatest.1, fun required' hasked => ?_⟩
        rcases hasked with hasked | ⟨-, rfl⟩
        · exact hgreatest.2 hasked
        · exact not_lt.mp hkeep
      · simpa only [alsoAsked_of_ne hkey] using h.greatest entry hentry

/-- A block marker of the command asks for this height of this block. -/
def AskedByCommand (checks : Checks) (l : List ReadResolvedTimeMarker) (key : Key) (required : Int) : Prop :=
  ∃ m ∈ l, ∃ n, m.marker = .blockNumber n ∧ checks.evmChainNameByEid m.targetEid = .some key.1 ∧
    (n.toNat : Int) = key.2 ∧ required = key.2 + m.blockConfirmation.toNat

/-- A resolved marker does. -/
def AskedByResolved (l : List ResolvedTimestampTimeMarker) (key : Key) (required : Int) : Prop :=
  ∃ m ∈ l, (m.chainName, m.blockNumber) = key ∧ required = m.blockNumber + m.blockConfirmation

theorem requiredHeight_eq_ok {height confirmation required : Int}
    (h : requiredHeight height confirmation = .ok required) :
    required = height + confirmation := by
  unfold requiredHeight checkedAddI64 at h
  by_cases hin : inI64 (height + confirmation)
  · rw [if_pos hin] at h
    cases h
    rfl
  · rw [if_neg hin] at h
    cases h

theorem requireCommandMarker_raised {done : List ReadResolvedTimeMarker} {requirements requirements' : Requirements}
    {m : ReadResolvedTimeMarker} (hdone : Raised (AskedByCommand checks done) requirements)
    (hstep : checks.requireCommandMarker requirements m = .ok requirements') :
    Raised (AskedByCommand checks (done ++ [m])) requirements' := by
  unfold Checks.requireCommandMarker at hstep
  cases hm : m.marker with
  | timestamp t =>
    rw [hm] at hstep
    cases hstep
    refine hdone.congr fun key required => ?_
    simp [AskedByCommand, hm]
  | blockNumber n =>
    rw [hm] at hstep
    obtain ⟨chainName, hchain, hstep⟩ := bindOk_iff.mp hstep
    have hchain := chainNameOf_eq_ok hchain
    split at hstep
    next => cases hstep
    next =>
      obtain ⟨required, hrequired, hstep⟩ := bindOk_iff.mp hstep
      cases hstep
      have hrequired := requiredHeight_eq_ok hrequired
      refine (hdone.require (chainName, (n.toNat : Int)) required _).congr fun key required' => ?_
      constructor
      · intro hasked
        rcases hasked with ⟨m', hm', hrest⟩ | ⟨rfl, rfl⟩
        · exact ⟨m', List.mem_append_left _ hm', hrest⟩
        · exact ⟨m, by simp, n, hm, hchain, rfl, hrequired⟩
      · intro hasked
        obtain ⟨m', hm', n', hn', hchain', hheight, hreq⟩ := hasked
        rcases List.mem_append.mp hm' with hm' | hm'
        · exact .inl ⟨m', hm', n', hn', hchain', hheight, hreq⟩
        · cases List.mem_singleton.mp hm'
          cases hm.symm.trans hn'
          cases hchain.symm.trans hchain'
          refine .inr ⟨?_, ?_⟩
          · exact Prod.ext rfl hheight.symm
          · rw [hreq, hrequired, ← hheight]

theorem requireResolvedMarker_raised {asked : Key → Int → Prop} {done : List ResolvedTimestampTimeMarker}
    {requirements requirements' : Requirements} {m : ResolvedTimestampTimeMarker}
    (hdone : Raised (fun key required => asked key required ∨ AskedByResolved done key required) requirements)
    (hstep : requireResolvedMarker requirements m = .ok requirements') :
    Raised (fun key required => asked key required ∨ AskedByResolved (done ++ [m]) key required) requirements' := by
  obtain ⟨required, hrequired, hstep⟩ := bindOk_iff.mp hstep
  cases hstep
  have hrequired := requiredHeight_eq_ok hrequired
  refine (hdone.require (m.chainName, m.blockNumber) required _).congr fun key required' => ?_
  constructor
  · intro hasked
    rcases hasked with (hasked | ⟨m', hm', hrest⟩) | ⟨rfl, rfl⟩
    · exact .inl hasked
    · exact .inr ⟨m', List.mem_append_left _ hm', hrest⟩
    · exact .inr ⟨m, by simp, rfl, hrequired⟩
  · intro hasked
    rcases hasked with hasked | ⟨m', hm', hkey, hreq⟩
    · exact .inl (.inl hasked)
    · rcases List.mem_append.mp hm' with hm' | hm'
      · exact .inl (.inr ⟨m', hm', hkey, hreq⟩)
      · cases List.mem_singleton.mp hm'
        exact .inr ⟨hkey.symm, hreq.trans hrequired.symm⟩

/-- **The requirements of a validation**: the blocks its markers name, each with
the largest height that any of them asks for. -/
theorem requirements_raised {l : List ReadResolvedTimeMarker} {requirements requirements' : Requirements}
    (hcommand : l.foldlM checks.requireCommandMarker [] = .ok requirements)
    (hresolved : markers.foldlM requireResolvedMarker requirements = .ok requirements') :
    Raised (fun key required => AskedByCommand checks l key required ∨ AskedByResolved markers key required)
      requirements' := by
  have hfirst : Raised (AskedByCommand checks l) requirements :=
    foldlM_induct (P := fun done requirements => Raised (AskedByCommand checks done) requirements) hcommand
      (raised_nil.congr (by simp [AskedByCommand])) fun _ _ _ _ _ hdone hstep => requireCommandMarker_raised hdone hstep
  exact foldlM_induct (P := fun done requirements => Raised (fun key required =>
    AskedByCommand checks l key required ∨ AskedByResolved done key required) requirements) hresolved
    (hfirst.congr (by simp [AskedByResolved])) fun _ _ _ _ _ hdone hstep => requireResolvedMarker_raised hdone hstep

/-! ## Pins -/

/-- The pin's block is the one read at its height, and it passed the check of
`required`. -/
structure Pinned (reads : Reads) (key : Key) (required : Int) (pin : ReadBlockPin) (block : BlockTime) : Prop where
  chain : pin.chainName = key.1
  height : (pin.blockNumber : Int) = key.2
  read : blockTimeWithQuorum reads key.1 key.2 = .ok block
  hash : pin.blockHash = toAsciiLowercase block.hash
  confirmed : ∃ latest, blockConfirmationSatisfiedWithQuorum reads key.1 block required = .ok (true, latest)

/-- No two pins for one block. -/
def Distinct (pins : List ReadBlockPin) : Prop := (pins.map fun pin => (pin.chainName, pin.blockNumber)).Nodup

theorem pushReadBlockPin_eq_ok {pins pins' : List ReadBlockPin} {chainName : String} {block : BlockTime}
    (h : pushReadBlockPin pins chainName block = .ok pins') (hdistinct : Distinct pins) :
    Distinct pins' ∧ (∀ pin ∈ pins, pin ∈ pins') ∧ ∃ pin ∈ pins', pin.chainName = chainName ∧
      (pin.blockNumber : Int) = block.number ∧ pin.blockHash = toAsciiLowercase block.hash := by
  unfold pushReadBlockPin at h
  split at h
  next => cases h
  next hpos =>
    simp only at h
    split at h
    next pin hfind =>
      split at h
      next hhash =>
        cases h
        have hsat := List.find?_some hfind
        simp only [Bool.and_eq_true, decide_eq_true_eq] at hsat
        exact ⟨hdistinct, fun _ hp => hp, pin, List.mem_of_find?_eq_some hfind, hsat.1, by omega, hhash⟩
      next => cases h
    next hnone =>
      cases h
      refine ⟨?_, fun _ hp => List.mem_append_left _ hp, _, List.mem_append_right _ (List.mem_singleton.mpr rfl), rfl,
        by simp only; omega, rfl⟩
      rw [Distinct, List.map_append, List.nodup_append]
      refine ⟨hdistinct, List.nodup_singleton _, fun a ha b hb heq => ?_⟩
      cases List.mem_singleton.mp hb
      obtain ⟨pin, hpin, hkey⟩ := List.mem_map.mp ha
      have hno := List.find?_eq_none.mp hnone pin hpin
      rw [heq, Prod.mk.injEq] at hkey
      simp [hkey.1, hkey.2] at hno

/-- Every block the quorum is asked for comes back at the height it was asked for. -/
def ReadsAtHeight (reads : Reads) : Prop :=
  ∀ chainName height block, blockTimeWithQuorum reads chainName height = .ok block → block.number = height

theorem lookup_headers {reads : Reads} {headers : List Key} {blocks : List (Key × BlockTime)}
    (h : headers.mapM (readHeader reads) = .ok blocks) {key : Key} {block : BlockTime}
    (hlookup : blocks.lookup key = .some block) : blockTimeWithQuorum reads key.1 key.2 = .ok block := by
  obtain ⟨front, back, heq, -⟩ := List.lookup_eq_some_iff.mp hlookup
  have hmem : (key, block) ∈ blocks := by
    rw [heq]
    exact List.mem_append_right front List.mem_cons_self
  obtain ⟨key', -, hread⟩ := Related.exists_left (mapM_eq_ok_iff.mp h) hmem
  obtain ⟨block', hblock, hread⟩ := bindOk_iff.mp hread
  cases hread
  exact hblock

/-- **The pins**: one for each requirement, and no two for one block. -/
theorem pins_of_requirements {reads : Reads} (hreads : ReadsAtHeight reads) {headers : List Key}
    {blocks : List (Key × BlockTime)} (hblocks : headers.mapM (readHeader reads) = .ok blocks)
    {requirements : Requirements} {pins : List ReadBlockPin}
    (h : requirements.foldlM (pinRequirement reads blocks) [] = .ok pins) :
    Distinct pins ∧ ∀ entry ∈ requirements, ∃ pin ∈ pins, ∃ block, Pinned reads entry.1 entry.2.1 pin block := by
  refine foldlM_induct (P := fun done pins => Distinct pins ∧ ∀ entry ∈ done, ∃ pin ∈ pins, ∃ block,
    Pinned reads entry.1 entry.2.1 pin block) h ⟨.nil, fun _ hm => by cases hm⟩ ?_
  intro done entry pins pins' _ hdone hstep
  obtain ⟨⟨chain, height⟩, required, kind⟩ := entry
  obtain ⟨hdistinct, hall⟩ := hdone
  obtain ⟨block, hblock, hstep⟩ := bindOk_iff.mp hstep
  have hread := lookup_headers hblocks (Exec.get_eq_ok.mp hblock)
  obtain ⟨⟨sufficient, latest⟩, hconfirmed, hstep⟩ := bindOk_iff.mp hstep
  cases sufficient with
  | false => cases hstep
  | true =>
    obtain ⟨hdistinct', hkept, pin, hpin, hchain, hnumber, hhash⟩ := pushReadBlockPin_eq_ok hstep hdistinct
    refine ⟨hdistinct', fun entry hentry => ?_⟩
    rcases List.mem_append.mp hentry with hentry | hentry
    · obtain ⟨pin', hpin', hpinned⟩ := hall entry hentry
      exact ⟨pin', hkept pin' hpin', hpinned⟩
    · cases List.mem_singleton.mp hentry
      exact ⟨pin, hpin, block, hchain, hnumber.trans (hreads _ _ _ hread), hread, hhash, latest, hconfirmed⟩

theorem pinFor_eq_ok {pins : List ReadBlockPin} {pin : ReadBlockPin} {chainName : String} {blockNumber : Nat}
    (hdistinct : Distinct pins) (hpin : pin ∈ pins) (hchain : pin.chainName = chainName)
    (hnumber : pin.blockNumber = blockNumber) : pinFor chainName blockNumber pins = .ok pin := by
  unfold pinFor
  split
  next pin' hfind =>
    have hsat := List.find?_some hfind
    simp only [Bool.and_eq_true, decide_eq_true_eq] at hsat
    have hsame : pin' = pin := List.inj_on_of_nodup_map hdistinct (List.mem_of_find?_eq_some hfind) hpin
      (Prod.ext (hsat.1.trans hchain.symm) (hsat.2.trans hnumber.symm))
    rw [hsame]
  next hnone =>
    have hno := List.find?_eq_none.mp hnone pin hpin
    simp [hchain, hnumber] at hno

theorem filter_eq_singleton {α β : Type} {f : α → β} {l : List α} {p : α → Bool} {a : α} (hnodup : (l.map f).Nodup)
    (ha : a ∈ l) (hp : ∀ b ∈ l, p b = true ↔ f b = f a) : l.filter p = [a] := by
  induction l with
  | nil => cases ha
  | cons b l ih =>
    rw [List.map_cons, List.nodup_cons] at hnodup
    rw [List.filter_cons]
    rcases List.mem_cons.mp ha with rfl | hin
    · rw [if_pos ((hp a ha).mpr rfl), List.filter_eq_nil_iff.mpr]
      intro c hc hpc
      exact hnodup.1 ((hp c (List.mem_cons_of_mem _ hc)).mp hpc ▸ List.mem_map_of_mem hc)
    · have hb : ¬ p b = true := fun hpb =>
        hnodup.1 ((hp b List.mem_cons_self).mp hpb ▸ List.mem_map_of_mem hin)
      rw [if_neg hb]
      exact ih hnodup.2 hin fun c hc => hp c (List.mem_cons_of_mem _ hc)

/-! ## What the markers of a command ask for -/

/-- A marker asks for this many confirmations of this block: one of the command
that resolves to it, or a resolved one. -/
def Asks (checks : Checks) (command : EvmReadCommand) (markers : List ResolvedTimestampTimeMarker) (chainName : String)
    (height : Nat) (confirmation : Int) : Prop :=
  (∃ m ∈ commandMarkers command, checks.evmChainNameByEid m.targetEid = .some chainName ∧
    blockNumberForMarker chainName m.marker markers = .ok height ∧ confirmation = m.blockConfirmation.toNat) ∨
  ∃ m ∈ markers, m.chainName = chainName ∧ m.blockNumber = height ∧ confirmation = m.blockConfirmation

theorem toInt64_toInt {t : UInt64} (h : t.toNat ≤ i64Max) : t.toInt64.toInt = t.toNat := by
  have hlt : t.toNat < 2 ^ 63 := by
    unfold i64Max at h
    omega
  have hbits : t.toInt64.toInt = t.toBitVec.toInt := rfl
  rw [hbits, BitVec.toInt_eq_toNat_of_lt (by rw [UInt64.toNat_toBitVec]; omega), UInt64.toNat_toBitVec]

/-- A marker of the command that passed the preflight, as it resolves. -/
theorem Checked.resolves {s : Preflight} (hpre : Preflighted markers s) {m : ReadResolvedTimeMarker}
    {chainName : String}
    (h : Checked checks markers m chainName) (hzero : m.marker ≠ .blockNumber 0) :
    ∃ height : Nat, 1 ≤ height ∧ blockNumberForMarker chainName m.marker markers = .ok height ∧
      ((∃ n, m.marker = .blockNumber n ∧ n.toNat = height) ∨
        ∃ resolved ∈ markers, (resolved.chainName, resolved.blockNumber) = (chainName, (height : Int)) ∧
          resolved.blockConfirmation = m.blockConfirmation.toNat) := by
  cases hm : m.marker with
  | blockNumber n =>
    have hne : n ≠ 0 := fun heq => hzero (hm.trans (congrArg _ heq))
    have hpos : n.toNat ≠ 0 := fun heq => hne (UInt64.toNat_inj.mp heq)
    exact ⟨n.toNat, by omega, if_neg hne, .inl ⟨n, rfl, rfl⟩⟩
  | timestamp t =>
    obtain ⟨hle, resolved, hresolved, rfl, htime, hconfirmation⟩ := h.timestamp t hm
    have hpos := hpre.pos hresolved
    have hlookup := hpre.blockNumberForMarker hresolved (htime.trans (toInt64_toInt hle).symm)
    refine ⟨resolved.blockNumber.toNat, by omega, hlookup, .inr ⟨resolved, hresolved, ?_, hconfirmation⟩⟩
    exact Prod.ext rfl (by simp only; omega)

/-- What is asked of a block, as confirmations and as heights. -/
theorem asks_iff {s : Preflight} (hpre : Preflighted markers s) {command : EvmReadCommand}
    {l : List ReadResolvedTimeMarker} (hl : ∀ m, m ∈ l ↔ m ∈ commandMarkers command)
    (hzero : ∀ m ∈ l, m.marker ≠ .blockNumber 0) (hchecked : ∀ m ∈ l, ∃ chainName, Checked checks markers m chainName)
    {chainName : String} {height : Nat} {confirmation : Int} :
    Asks checks command markers chainName height confirmation ↔
      AskedByCommand checks l (chainName, (height : Int)) (height + confirmation) ∨
        AskedByResolved markers (chainName, (height : Int)) (height + confirmation) := by
  constructor
  · intro hasks
    rcases hasks with ⟨m, hm, hchain, hheight, hconfirmation⟩ | ⟨m, hm, rfl, hheight, hconfirmation⟩
    · have hin := (hl m).mpr hm
      obtain ⟨chainName', hc⟩ := hchecked m hin
      cases hchain.symm.trans hc.chain
      obtain ⟨height', -, hlookup, hwhich⟩ := hc.resolves hpre (hzero m hin)
      cases hheight.symm.trans hlookup
      rcases hwhich with ⟨n, hn, hnumber⟩ | ⟨resolved, hresolved, hkey, hconf⟩
      · exact .inl ⟨m, hin, n, hn, hchain, congrArg _ hnumber, by rw [hconfirmation]⟩
      · refine .inr ⟨resolved, hresolved, hkey, ?_⟩
        have hblock : resolved.blockNumber = (height : Int) := congrArg Prod.snd hkey
        rw [hconfirmation, ← hconf, hblock]
    · exact .inr ⟨m, hm, Prod.ext rfl hheight, by rw [hheight, hconfirmation]⟩
  · intro hasked
    rcases hasked with ⟨m, hm, n, hn, hchain, hnumber, hrequired⟩ | ⟨m, hm, hkey, hrequired⟩
    · have hne : n ≠ 0 := fun heq => hzero m hm (hn.trans (congrArg _ heq))
      refine .inl ⟨m, (hl m).mp hm, hchain, ?_, by simp only at hrequired; omega⟩
      have hheight : n.toNat = height := Int.ofNat.inj hnumber
      rw [hn, ← hheight]
      exact if_neg hne
    · rw [Prod.mk.injEq] at hkey
      exact .inr ⟨m, hm, hkey.1, hkey.2, by omega⟩

/-! ## Chains of blocks -/

/-- Heights go up by one, each block names the one before as its parent, and
time does not go back. -/
structure ParentLinked (blocks : List BlockTime) : Prop where
  height : ∀ block ∈ blocks, 0 ≤ block.number
  linked : blocks.IsChain fun parent block =>
    block.number = parent.number + 1 ∧ block.parentHash = parent.hash ∧ parent.timestamp ≤ block.timestamp

theorem ParentLinked.later {blocks : List BlockTime} (h : ParentLinked blocks) {block block' : BlockTime}
    (hb : block ∈ blocks) (hb' : block' ∈ blocks) (hle : block.number ≤ block'.number) :
    block = block' ∨ block.number < block'.number ∧ block.timestamp ≤ block'.timestamp := by
  have hpairwise : blocks.Pairwise fun a b => a.number < b.number ∧ a.timestamp ≤ b.timestamp := by
    have : Trans (fun a b : BlockTime => a.number < b.number ∧ a.timestamp ≤ b.timestamp)
        (fun a b : BlockTime => a.number < b.number ∧ a.timestamp ≤ b.timestamp)
        (fun a b : BlockTime => a.number < b.number ∧ a.timestamp ≤ b.timestamp) :=
      ⟨fun hab hbc => ⟨lt_trans hab.1 hbc.1, le_trans hab.2 hbc.2⟩⟩
    exact (h.linked.imp fun a b hab => ⟨by omega, hab.2.2⟩).pairwise
  obtain ⟨i, hi, rfl⟩ := List.getElem_of_mem hb
  obtain ⟨j, hj, rfl⟩ := List.getElem_of_mem hb'
  rcases Nat.lt_trichotomy i j with hij | rfl | hji
  · exact .inr (List.pairwise_iff_getElem.mp hpairwise i j hi hj hij)
  · exact .inl rfl
  · have hlt := (List.pairwise_iff_getElem.mp hpairwise j i hj hi hji).1
    omega

theorem blockMatchesResolvedTimestamp_true {block : BlockTime} {previous : Option BlockTime} {t : Int}
    (h : (blockMatchesResolvedTimestamp block previous t : Exec AppCoreError Bool) = .ok true) :
    t ≤ block.timestamp ∧ (block.number = 1 ∧ block.timestamp = t ∨
      block.number ≠ 1 ∧ ∃ parent, previous = .some parent ∧ parent.number + 1 = block.number ∧
      parent.timestamp < t) := by
  unfold blockMatchesResolvedTimestamp at h
  split at h
  next hone =>
    have htime : block.timestamp = t := by simpa using h
    exact ⟨le_of_eq htime.symm, .inl ⟨hone, htime⟩⟩
  next hone =>
    split at h
    next => cases h
    next hlate =>
      split at h
      next => cases h
      next parent =>
        obtain ⟨next, hnext, h⟩ := bindOk_iff.mp h
        have hnumber : next = parent.number + 1 := by
          unfold addI64 at hnext
          split at hnext
          · cases hnext
            rfl
          · cases hnext
        have hall : (next = block.number ∧ parent.hash = block.parentHash) ∧ parent.timestamp < t := by
          simpa using h
        exact ⟨not_lt.mp hlate, .inr ⟨hone, parent, rfl, hnumber ▸ hall.1.1, hall.2⟩⟩

/-- Two blocks of a chain that cover one time: neither is after the other. -/
theorem ParentLinked.not_covered_twice {blocks : List BlockTime} (h : ParentLinked blocks) {t : Int}
    {block block' parent : BlockTime} (hb : block ∈ blocks) (hparent : parent ∈ blocks)
    (hheight : parent.number + 1 = block'.number) (hbefore : parent.timestamp < t) (htime : t ≤ block.timestamp) :
    ¬ block.number < block'.number := by
  intro hlt
  rcases h.later hb hparent (by omega) with rfl | ⟨-, hle⟩ <;> omega

/-- **At most one block of a chain covers a time**, each block tried with a block
of the chain as its predecessor. -/
theorem ParentLinked.covered_once {blocks : List BlockTime} (h : ParentLinked blocks) {t : Int}
    {block block' : BlockTime} {previous previous' : Option BlockTime} (hb : block ∈ blocks) (hb' : block' ∈ blocks)
    (hp : ∀ parent ∈ previous, parent ∈ blocks) (hp' : ∀ parent ∈ previous', parent ∈ blocks)
    (hmatch : (blockMatchesResolvedTimestamp block previous t : Exec AppCoreError Bool) = .ok true)
    (hmatch' : (blockMatchesResolvedTimestamp block' previous' t : Exec AppCoreError Bool) = .ok true) :
    block = block' := by
  obtain ⟨htime, hwhich⟩ := blockMatchesResolvedTimestamp_true hmatch
  obtain ⟨htime', hwhich'⟩ := blockMatchesResolvedTimestamp_true hmatch'
  -- A block after the first has its parent before the time; the first is the lowest but for height 0.
  have hnot : ¬ block.number < block'.number := by
    intro hlt
    rcases hwhich' with ⟨hone, -⟩ | ⟨-, parent, rfl, hheight, hbefore⟩
    · rcases hwhich with ⟨hone', -⟩ | ⟨-, parent, rfl, hheight, -⟩
      · omega
      · have := h.height parent (hp parent rfl)
        omega
    · exact h.not_covered_twice hb (hp' parent rfl) hheight hbefore htime hlt
  have hnot' : ¬ block'.number < block.number := by
    intro hlt
    rcases hwhich with ⟨hone, -⟩ | ⟨-, parent, rfl, hheight, hbefore⟩
    · rcases hwhich' with ⟨hone', -⟩ | ⟨-, parent, rfl, hheight, -⟩
      · omega
      · have := h.height parent (hp' parent rfl)
        omega
    · exact h.not_covered_twice hb' (hp parent rfl) hheight hbefore htime' hlt
  rcases h.later hb hb' (not_lt.mp hnot') with heq | ⟨hlt, -⟩
  · exact heq
  · exact absurd hlt hnot

/-! ## What a round returns -/

open Quorum in
theorem Round.resolve_voted {α T : Type} {round : Round α} {chainName context : String}
    {vote : α → Observation T} {v : T}
    (h : round.resolve chainName vote context = .ok v) : ∃ config order, round.dispatch = .ok (config, order) ∧
      Voted config.toProviderConfig (fun i => vote (round.answer i)) order v := by
  unfold Round.resolve at h
  split at h
  next => cases h
  next =>
    obtain ⟨⟨config, order⟩, hdispatch, h⟩ := bindOk_iff.mp h
    have hdispatch : round.dispatch = .ok (config, order) := by
      cases hd : round.dispatch with
      | error e =>
        rw [hd] at hdispatch
        cases hdispatch
      | ok pool =>
        rw [hd] at hdispatch
        cases hdispatch
        rfl
    exact ⟨config, order, hdispatch, resolveLoop_voted recorded_new h⟩

theorem vote_eq_some {α T : Type} {x : Except AppCoreError α} {f : α → String × T} {vote : String × T}
    (h : (providerResponse (orRpc x)).map (fun a => a.map f) = .ok (.some vote)) : ∃ a, x = .ok a ∧ f a = vote := by
  cases x with
  | error e => cases e <;> cases h
  | ok a =>
    cases h
    exact ⟨a, rfl, rfl⟩

/-- A block that was agreed on is one that a provider answered with. -/
theorem blockTimeWithQuorum_answered {reads : Reads} {chainName : String} {height : Int} {block : BlockTime}
    (h : blockTimeWithQuorum reads chainName height = .ok block) :
    ∃ i, (reads.blockTime chainName height).answer i = .ok block := by
  obtain ⟨config, order, -, fp, -, i, -, hvote⟩ := Round.resolve_voted h
  obtain ⟨block', hanswer, heq⟩ := vote_eq_some hvote
  cases heq
  exact ⟨i, hanswer⟩

theorem observeConfirmation_eq_ok {pinned head : BlockTime} {latest canonical : Except AppCoreError BlockTime}
    (h : observeConfirmation pinned latest canonical = .ok head) : latest = .ok head ∧ ∃ block, canonical = .ok block ∧
      block.number = pinned.number ∧ eqIgnoreAsciiCase block.hash pinned.hash = true := by
  obtain ⟨head', hlatest, h⟩ := bindOk_iff.mp h
  obtain ⟨block, hcanonical, h⟩ := bindOk_iff.mp h
  split at h
  next => cases h
  next hsame =>
    cases h
    push Not at hsame
    exact ⟨hlatest, block, hcanonical, hsame.1, by simpa using hsame.2⟩

/-- **A confirmed block** was still at its height, below a head that is high
enough, for as many providers as the pool's strategy asks for. -/
theorem confirmed_by_quorum {reads : Reads} {chainName : String} {pinned : BlockTime} {required latest : Int}
    (h : blockConfirmationSatisfiedWithQuorum reads chainName pinned required = .ok (true, latest)) :
    ∃ config order voters, (reads.confirmation chainName pinned required).dispatch = .ok (config, order) ∧
      Quorum.MetBy config.toProviderConfig voters ∧ ∀ i ∈ voters, ∃ head canonical,
        (reads.confirmation chainName pinned required).answer i = (.ok head, .ok canonical) ∧
        canonical.number = pinned.number ∧ eqIgnoreAsciiCase canonical.hash pinned.hash = true ∧
        required ≤ head.number := by
  obtain ⟨config, order, hdispatch, fp, hmet, i, -, hvote⟩ := Round.resolve_voted h
  refine ⟨config, order, _, hdispatch, hmet, fun j hj => ?_⟩
  -- The value returned says the votes under its fingerprint are "sufficient".
  have hfp : fp = "sufficient" := by
    obtain ⟨head, -, hvote⟩ := vote_eq_some hvote
    split at hvote <;> simp_all
  obtain ⟨v, hv⟩ := (Quorum.mem_votersFor.mp hj).2
  obtain ⟨head, hobserved, hvoted⟩ := vote_eq_some (Quorum.voteOf_eq_some.mp hv)
  obtain ⟨hlatest, canonical, hcanonical, hnumber, hhash⟩ := observeConfirmation_eq_ok hobserved
  refine ⟨head, canonical, Prod.ext hlatest hcanonical, hnumber, hhash, ?_⟩
  split at hvoted
  next hle => exact hle
  next =>
    cases hvoted
    exact absurd hfp (by decide)

/-! ## Coverage -/

/-- **Every marker of a command is pinned exactly once.** For every READ command
and resolved markers that a validation accepts, and every marker of its requests
and its compute: it resolves to a height of at least 1; there is exactly one pin
for that block, which is the block the quorum read at that height, checked for
the most confirmations any marker asks of it; so a call at the marker is the
call of that pin. And at most one block of a chain covers a time. -/
theorem pins_cover_markers (hex : Hex.HexCrate) (checks : Checks) (resolver : Resolver)
    (hreads : ReadsAtHeight checks.reads) (hshared : resolver.chainNameByEid = checks.evmChainNameByEid)
    {sentEvent : PacketSent.LzSentEvent} (hread : isRead sentEvent = true)
    {markers : List ResolvedTimestampTimeMarker} {pins : List ReadBlockPin}
    (h : checks.validateReadTimeMarkers hex sentEvent markers = .ok pins) :
    (∃ command, decodeEvmReadCommand hex sentEvent.message = .ok command ∧
      ∀ m ∈ commandMarkers command, ∃ chainName height pin block confirmation,
        checks.evmChainNameByEid m.targetEid = .some chainName ∧
        blockNumberForMarker chainName m.marker markers = .ok height ∧ 1 ≤ height ∧
        pins.filter (fun pin => pin.chainName = chainName && pin.blockNumber = height) = [pin] ∧
        IsGreatest {c | Asks checks command markers chainName height c} confirmation ∧
        Pinned checks.reads (chainName, (height : Int)) (height + confirmation) pin block ∧
        ∀ toAddress callData maxResultBytes,
          resolver.callEvmViewAtMarker m.targetEid m.marker toAddress callData maxResultBytes markers pins =
            resolver.call chainName pin toAddress callData maxResultBytes) ∧
    ∀ (blocks : List BlockTime) (t : Int), ParentLinked blocks → ∀ block ∈ blocks, ∀ block' ∈ blocks,
      ∀ previous previous' : Option BlockTime, (∀ parent ∈ previous, parent ∈ blocks) →
      (∀ parent ∈ previous', parent ∈ blocks) →
      (blockMatchesResolvedTimestamp block previous t : Exec AppCoreError Bool) = .ok true →
      (blockMatchesResolvedTimestamp block' previous' t : Exec AppCoreError Bool) = .ok true → block = block' := by
  refine ⟨?_, fun blocks t hlinked block hb block' hb' previous previous' hp hp' hmatch hmatch' =>
    hlinked.covered_once hb hb' hp hp' hmatch hmatch'⟩
  obtain ⟨⟨⟩, hpreflight, h⟩ := bindOk_iff.mp h
  obtain ⟨s, l, hpre, hl, hchecked⟩ := validateReadMarkersPreflight_eq_ok hread hpreflight
  obtain ⟨command, hcommand, hmem, hzero⟩ := extract_eq_ok hl
  rw [if_pos hread] at h
  obtain ⟨l', hl', h⟩ := bindOk_iff.mp h
  cases hl.symm.trans hl'
  obtain ⟨requirements, hfirst, h⟩ := bindOk_iff.mp h
  obtain ⟨requirements', hsecond, h⟩ := bindOk_iff.mp h
  obtain ⟨blocks, hblocks, h⟩ := bindOk_iff.mp h
  obtain ⟨⟨⟩, -, hpins⟩ := bindOk_iff.mp h
  have hraised := requirements_raised hfirst hsecond
  obtain ⟨hdistinct, hall⟩ := pins_of_requirements hreads hblocks hpins
  refine ⟨command, hcommand, fun m hm => ?_⟩
  have hin := (hmem m).mpr hm
  obtain ⟨chainName, hc⟩ := hchecked m hin
  obtain ⟨height, hpos, hlookup, -⟩ := hc.resolves hpre (hzero m hin)
  have hasks : Asks checks command markers chainName height m.blockConfirmation.toNat :=
    .inl ⟨m, hm, hc.chain, hlookup, rfl⟩
  have hiff : ∀ c, Asks checks command markers chainName height c ↔ _ :=
    fun c => asks_iff hpre hmem hzero hchecked
  obtain ⟨⟨key, required, kind⟩, hentry, hkey⟩ := List.mem_map.mp (hraised.complete _ _ ((hiff _).mp hasks))
  cases hkey
  obtain ⟨pin, hpin, block, hpinned⟩ := hall _ hentry
  have hgreatest := hraised.greatest _ hentry
  have hnumber : pin.blockNumber = height := Int.ofNat.inj hpinned.height
  have hsum : (height : Int) + (required - height) = required := by omega
  refine ⟨chainName, height, pin, block, required - height, hc.chain, hlookup, hpos, ?_,
    ⟨?_, fun c hcAsks => ?_⟩, ?_, ?_⟩
  · refine filter_eq_singleton hdistinct hpin fun pin' _ => ?_
    rw [Prod.mk.injEq, hpinned.chain, hnumber]
    simp
  · refine (hiff _).mpr ?_
    rw [hsum]
    exact hgreatest.1
  · have hle := hgreatest.2 ((hiff c).mp hcAsks)
    simp only at hle
    omega
  · rw [hsum]
    exact hpinned
  · intro toAddress callData maxResultBytes
    have hchain : resolver.chainNameForEid m.targetEid = .ok chainName := by
      rw [Resolver.chainNameForEid, hshared, hc.chain]
    rw [Resolver.callEvmViewAtMarker, hchain, Exec.ok_bind, hlookup, Exec.ok_bind,
      pinFor_eq_ok hdistinct hpin hpinned.chain hnumber, Exec.ok_bind]

/-- One provider, which has the block at every height, far below its head. -/
def sampleReads : Reads where
  blockTime _ height := ⟨.some "EVM", .ok (Provider.onePool, [0]), fun _ => .ok ⟨height, "0xAB", "0xCD", 100⟩⟩
  confirmation _ pinned _ :=
    ⟨.some "EVM", .ok (Provider.onePool, [0]), fun _ => (.ok ⟨1000, "0xEF", "0xAB", 200⟩, .ok pinned)⟩

def sampleChecks : Checks where
  evmChainNameByEid _ := .some "ethereum"
  reads := sampleReads

def sampleResolver : Resolver where
  chainNameByEid := sampleChecks.evmChainNameByEid
  call _ pin _ _ _ := .ok pin.blockHash

/-- A READ command for block 9, without timestamps to resolve. -/
def sampleReadEvent : PacketSent.LzSentEvent where
  lzMessageId := { pathwayId := ⟨"ethereum", "ethereum", []⟩, nonce := 1, ulnSendVersion := .string "ReadV1002" }
  message := Hex.HexCrate.plain.encode oneRequest.encode
  txHash := ""
  sourceEvidence := .none
  extra := []

theorem pins_cover_markers_oneRequest : ∃ pins,
    sampleChecks.validateReadTimeMarkers .plain sampleReadEvent [] = .ok pins ∧
    ∃ command, decodeEvmReadCommand .plain sampleReadEvent.message = .ok command ∧
      ∀ m ∈ commandMarkers command, ∃ chainName height pin, 1 ≤ height ∧
        pins.filter (fun pin => pin.chainName = chainName && pin.blockNumber = height) = [pin] := by
  have hreads : ReadsAtHeight sampleReads := by
    intro chainName height block h
    obtain ⟨i, hi⟩ := blockTimeWithQuorum_answered h
    cases hi
    rfl
  have haccepted : (sampleChecks.validateReadTimeMarkers .plain sampleReadEvent []).toBool = true := by decide +kernel
  cases h : sampleChecks.validateReadTimeMarkers .plain sampleReadEvent [] with
  | error e =>
    rw [h] at haccepted
    cases haccepted
  | ok pins =>
    obtain ⟨⟨command, hcommand, hall⟩, -⟩ :=
      pins_cover_markers .plain sampleChecks sampleResolver hreads rfl (by decide) h
    refine ⟨pins, rfl, command, hcommand, fun m hm => ?_⟩
    obtain ⟨chainName, height, pin, block, confirmation, -, -, hpos, hfilter, -⟩ := hall m hm
    exact ⟨chainName, height, pin, hpos, hfilter⟩

end Pillar.ReadMarkers
