/-
Solana transactions as they are voted on (`pillar-runtime`,
`evm_transaction_observations.rs`), and the packet events the resolver reads of
what was voted (`packet_resolver.rs`).

A vote keeps of a transaction the slot, the block time, the fee payer and, group
by group, the instructions of trusted programs, cut down to two fields. The
resolver decodes what it was given back; `decode_normalized` says that it finds
there what it would have found in the transaction.
-/
import Pillar.PacketFacts
import Pillar.Base58
import Pillar.Json

namespace Pillar.Solana

open Std (TreeSet)
open Packet (Crates LzPacketV1 decodeLzPacketV1 hexText)
open Json (asStr asArray asU64 asI64 isNull)

/-! ## Values -/

/-- How `Value::pointer` reads a token that names an entry of an array. -/
def parseIndex (token : String) : Option Nat :=
  if token.toList.head? = .some '+' ∨ (token.toList.head? = .some '0' ∧ token.toList.length ≠ 1) then .none
  else (Text.parse 64 token).toOption

/-- `Value::pointer`, by the tokens of its path. -/
def pointer : List String → Json → Option Json
  | [], value => .some value
  | token :: rest, .object entries => (entries.lookup token).bind (pointer rest)
  | token :: rest, .array values => ((parseIndex token).bind (values[·]?)).bind (pointer rest)
  | _ :: _, _ => .none

/-- `Value::from` of an `i64`. -/
def ofI64 (n : Int) : Json :=
  if 0 ≤ n ∧ n < 2 ^ 63 then .number (.posInt (.ofNat n.toNat)) else .number (.negInt n)

/-- `Value::from` of an `Option<&str>`. -/
def ofStr : Option String → Json
  | .some s => .string s
  | .none => .null

@[simp] theorem asI64_ofI64 (n : Int) : asI64 (ofI64 n) = .some n := by
  unfold ofI64
  split
  · next h =>
    have hlt : n.toNat < 2 ^ 63 := by omega
    have hmod : n.toNat % 2 ^ 64 = n.toNat := Nat.mod_eq_of_lt (by omega)
    simp only [asI64, UInt64.toNat_ofNat', hmod, if_pos hlt, Option.some.injEq]
    omega
  · rfl

@[simp] theorem asStr_ofStr (s : Option String) : asStr (ofStr s) = s := by cases s <;> rfl

/-! ## The vote -/

/-- The program that runs an instruction. -/
def programId (instruction : Json) : Option String := (instruction.get "programId").bind asStr

def data (instruction : Json) : Option String := (instruction.get "data").bind asStr

def IsTrusted (trusted : TreeSet String) (instruction : Json) : Bool :=
  (programId instruction).any (· ∈ trusted)

/-- What is kept of an instruction. Missing data stays missing. -/
def normalizedInstruction (instruction : Json) : Json :=
  .object [("data", ofStr (data instruction)), ("programId", ofStr (programId instruction))]

def normalizedInstructions (trusted : Option (TreeSet String)) (instructions : List Json) : List Json :=
  (instructions.filter fun instruction => trusted.all (IsTrusted · instruction)).map normalizedInstruction

def instructionsOf (group : Json) : Option (List Json) := (group.get "instructions").bind asArray

def groupOf (instructions : List Json) : Json := .object [("instructions", .array instructions)]

/-- `normalized`: what is voted on. -/
def normalized (slot : UInt64) (blockTime : Json) (feePayer : String) (groups : List (List Json)) : Json :=
  .object
    [("blockTime", blockTime),
      ("meta", .object [("err", .null), ("innerInstructions", .array (groups.map groupOf))]),
      ("slot", .number (.posInt slot)),
      ("transaction", .object [("message", .object
        [("accountKeys", .array [.object [("pubkey", .string feePayer)]])])])]

def feePayerPath : List String := ["transaction", "message", "accountKeys", "0", "pubkey"]

def readBlockTime (result : Json) : Except AppCoreError Json :=
  match result.get "blockTime" with
  | .some .null => .ok .null
  | .some value =>
    match asI64 value with
    | .some time => .ok (ofI64 time)
    | .none => .error (.internal "Invalid Solana transaction blockTime")
  | .none => .error (.internal "Missing Solana transaction blockTime")

def readInstructions (group : Json) : Except AppCoreError (List Json) :=
  match instructionsOf group with
  | .some instructions => .ok instructions
  | .none => .error (.internal "Invalid Solana inner instructions")

def solanaTransactionProjection (result : Json) (trusted : Option (TreeSet String)) :
    Except AppCoreError (Json × String) :=
  if result.isNull then .error (.internal "Missing Solana transaction")
  else do
    let .some slot := (result.get "slot").bind asU64 | .error (.internal "Invalid Solana transaction slot")
    let blockTime ← readBlockTime result
    let .some metadata := (result.get "meta").filter fun metadata => (pointer ["err"] metadata).any isNull
      | .error (.internal "Invalid Solana transaction meta.err")
    let .some feePayer := (pointer feePayerPath result).bind asStr
      | .error (.internal "Missing Solana transaction fee payer")
    let .some groups := (metadata.get "innerInstructions").bind asArray
      | .error (.internal "Missing Solana innerInstructions")
    let instructions ← groups.mapM readInstructions
    .ok (normalized slot blockTime feePayer (instructions.map (normalizedInstructions trusted)), feePayer)

/-! ## The events -/

structure SolanaPacketSentEvent where
  endpointProgramId : String
  sendLibrary : String
  packet : LzPacketV1
  options : List UInt8
  deriving DecidableEq

def anchorEventEmitDiscriminator : List UInt8 := [0xe4, 0x45, 0xa5, 0x2e, 0x51, 0xcb, 0x9a, 0x1d]
def packetSentEventDiscriminator : List UInt8 := [0x00, 0x5c, 0xa7, 0xc9, 0x8b, 0x2e, 0xab, 0x52]

/-- `bytes.get(start..stop)`. -/
def getRange (bytes : List UInt8) (start stop : Nat) : Option (List UInt8) :=
  if start ≤ stop ∧ stop ≤ bytes.length then .some ((bytes.drop start).take (stop - start)) else .none

/-- A block with its length in front of it, and where the next one starts. -/
def takeSolanaEventBytes (decoded : List UInt8) (cursor : Nat) : Option (List UInt8 × Nat) := do
  let lengthBytes ← getRange decoded cursor (← checkedAdd cursor 4)
  let cursor ← checkedAdd cursor 4
  let stop ← checkedAdd cursor (Bits.ofBytes lengthBytes.reverse)
  let value ← getRange decoded cursor stop
  return (value, stop)

/-- `decode_lz_packet_v1` always returns, so `ok()` of it is its value. -/
def decodeSolanaPacketSentEventInstruction (crates : Crates) (instruction : Json) : Option SolanaPacketSentEvent := do
  let endpointProgramId ← programId instruction
  let encoded ← data instruction
  let decoded ← (crates.bs58 encoded).toOption
  if (← getRange decoded 0 8) ≠ anchorEventEmitDiscriminator then .none
  else if (← getRange decoded 8 16) ≠ packetSentEventDiscriminator then .none
  else
    let (packetBytes, cursor) ← takeSolanaEventBytes decoded 16
    let (options, cursor) ← takeSolanaEventBytes decoded cursor
    let sendLibraryBytes ← getRange decoded cursor (← checkedAdd cursor 32)
    let packet ← (decodeLzPacketV1 crates.hex (hexText crates.hex packetBytes)).toOption
    return { endpointProgramId, sendLibrary := Base58.encode sendLibraryBytes, packet, options }

def decodeSolanaPacketSentEvents (crates : Crates) (transaction : Json) (trusted : TreeSet String) :
    List SolanaPacketSentEvent :=
  let groups := ((pointer ["meta", "innerInstructions"] transaction).bind asArray).getD []
  let instructions := (groups.filterMap instructionsOf).flatten
  (instructions.filter (IsTrusted trusted)).filterMap (decodeSolanaPacketSentEventInstruction crates)

/-! ## What a transaction shows -/

/-- A token that is no index names a field. -/
theorem pointer_cons {token : String} (h : parseIndex token = .none) (rest : List String) (value : Json) :
    pointer (token :: rest) value = (value.get token).bind (pointer rest) := by
  cases value <;> simp [pointer, Json.get, h]

/-- All that a vote reads of a transaction: `groups` are the instructions of
each group, trusted or not. -/
structure Shows (transaction : Json) (slot : UInt64) (blockTime : Json) (feePayer : String)
    (groups : List (List Json)) : Prop where
  slot : (transaction.get "slot").bind asU64 = .some slot
  blockTime : readBlockTime transaction = .ok blockTime
  err : pointer ["meta", "err"] transaction = .some .null
  feePayer : (pointer feePayerPath transaction).bind asStr = .some feePayer
  groups : ∃ values, (pointer ["meta", "innerInstructions"] transaction).bind asArray = .some values ∧
    values.map instructionsOf = groups.map .some

section
variable {transaction : Json} {slot : UInt64} {blockTime : Json} {feePayer : String} {groups : List (List Json)}
  {trusted : TreeSet String}

theorem mapM_readInstructions {values : List Json} {groups : List (List Json)} :
    values.mapM readInstructions = .ok groups ↔ values.map instructionsOf = groups.map .some := by
  induction values generalizing groups with
  | nil => cases groups <;> simp [pure, Except.pure]
  | cons value values ih =>
    rw [List.mapM_cons, bindOk_iff, List.map_cons]
    constructor
    · rintro ⟨instructions, hread, hrest⟩
      obtain ⟨rest, htail, heq⟩ := bindOk_iff.mp hrest
      cases heq
      rw [List.map_cons, ← ih.mp htail]
      unfold readInstructions at hread
      split at hread
      · next h => cases hread; rw [h]
      · cases hread
    · intro h
      cases groups with
      | nil => cases h
      | cons instructions rest =>
        obtain ⟨hhead, htail⟩ := List.cons.inj h
        exact ⟨instructions, by rw [readInstructions, hhead], bindOk_iff.mpr ⟨rest, ih.mpr htail, rfl⟩⟩

/-- A vote is the normal form of what the transaction shows. -/
theorem projection_eq_ok {kept : Option (TreeSet String)} {value : Json} :
    solanaTransactionProjection transaction kept = .ok (value, feePayer) ↔
      ∃ slot blockTime groups, Shows transaction slot blockTime feePayer groups ∧
        value = normalized slot blockTime feePayer (groups.map (normalizedInstructions kept)) := by
  have hmeta : ∀ rest, pointer ("meta" :: rest) transaction = (transaction.get "meta").bind (pointer rest) :=
    fun rest => pointer_cons (by decide) rest transaction
  have herr : ∀ metadata : Json, pointer ["err"] metadata = metadata.get "err" := fun metadata => by
    rw [pointer_cons (by decide)]
    cases metadata.get "err" <;> rfl
  have hinner : ∀ metadata : Json, pointer ["innerInstructions"] metadata = metadata.get "innerInstructions" :=
    fun metadata => by
      rw [pointer_cons (by decide)]
      cases metadata.get "innerInstructions" <;> rfl
  constructor
  · intro h
    unfold solanaTransactionProjection at h
    split at h
    · cases h
    split at h
    case h_2 => cases h
    next slot hslot =>
    obtain ⟨blockTime, htime, h⟩ := bindOk_iff.mp h
    split at h
    case h_2 => cases h
    next metadata hmetadata =>
    obtain ⟨hget, hnull⟩ := Option.filter_eq_some_iff.mp hmetadata
    split at h
    case h_2 => cases h
    next payer hpayer =>
    split at h
    case h_2 => cases h
    next values hvalues =>
    obtain ⟨groups, hgroups, h⟩ := bindOk_iff.mp h
    cases h
    refine ⟨slot, blockTime, groups, ⟨hslot, htime, ?_, hpayer, values, ?_, mapM_readInstructions.mp hgroups⟩, rfl⟩
    · rw [hmeta, hget, Option.bind_some]
      obtain ⟨value, hvalue, hisNull⟩ := (Option.any_eq_true _ _).mp hnull
      cases value <;> first | exact hvalue | cases hisNull
    · rw [hmeta, hget, Option.bind_some, hinner, hvalues]
  · rintro ⟨slot, blockTime, groups, hshows, rfl⟩
    obtain ⟨values, hvalues, hgroups⟩ := hshows.groups
    have herror := hshows.err
    rw [hmeta] at herror hvalues
    cases hget : transaction.get "meta" with
    | none =>
      rw [hget] at herror
      cases herror
    | some metadata =>
    rw [hget, Option.bind_some] at herror hvalues
    rw [hinner] at hvalues
    have hnull : transaction.isNull = false := by
      cases transaction <;> first | rfl | cases hget
    have hfilter : (Option.some metadata).filter (fun metadata => (pointer ["err"] metadata).any isNull) =
        .some metadata := by
      rw [Option.filter_some, if_pos (by rw [herror]; rfl)]
    unfold solanaTransactionProjection
    rw [hnull, hget]
    simp only [Bool.false_eq_true, if_false, hshows.slot, hfilter, hshows.feePayer, hvalues]
    refine bindOk_iff.mpr ⟨blockTime, hshows.blockTime, bindOk_iff.mpr ⟨groups, ?_, rfl⟩⟩
    exact mapM_readInstructions.mpr hgroups

/-! ## The normal form -/

theorem programId_normalizedInstruction (instruction : Json) :
    programId (normalizedInstruction instruction) = programId instruction := asStr_ofStr _

theorem data_normalizedInstruction (instruction : Json) :
    data (normalizedInstruction instruction) = data instruction := asStr_ofStr _

theorem isTrusted_normalizedInstruction (trusted : TreeSet String) (instruction : Json) :
    IsTrusted trusted (normalizedInstruction instruction) = IsTrusted trusted instruction := by
  rw [IsTrusted, programId_normalizedInstruction, IsTrusted]

theorem normalizedInstruction_idem (instruction : Json) :
    normalizedInstruction (normalizedInstruction instruction) = normalizedInstruction instruction := by
  rw [normalizedInstruction, programId_normalizedInstruction, data_normalizedInstruction, ← normalizedInstruction]

theorem decode_normalizedInstruction (crates : Crates) (instruction : Json) :
    decodeSolanaPacketSentEventInstruction crates (normalizedInstruction instruction) =
      decodeSolanaPacketSentEventInstruction crates instruction := by
  rw [decodeSolanaPacketSentEventInstruction, programId_normalizedInstruction, data_normalizedInstruction,
    ← decodeSolanaPacketSentEventInstruction]

theorem normalizedInstructions_some (trusted : TreeSet String) (instructions : List Json) :
    normalizedInstructions (.some trusted) instructions =
      (instructions.filter (IsTrusted trusted)).map normalizedInstruction := rfl

theorem filter_normalizedInstructions (trusted : TreeSet String) (instructions : List Json) :
    (normalizedInstructions (.some trusted) instructions).filter (IsTrusted trusted) =
      normalizedInstructions (.some trusted) instructions := by
  refine List.filter_eq_self.mpr fun instruction hi => ?_
  obtain ⟨original, ho, rfl⟩ := List.mem_map.mp hi
  rw [isTrusted_normalizedInstruction]
  exact (List.mem_filter.mp ho).2

theorem normalizedInstructions_idem (trusted : TreeSet String) (instructions : List Json) :
    normalizedInstructions (.some trusted) (normalizedInstructions (.some trusted) instructions) =
      normalizedInstructions (.some trusted) instructions := by
  rw [normalizedInstructions_some trusted (normalizedInstructions _ _), filter_normalizedInstructions,
    normalizedInstructions_some, List.map_map]
  exact List.map_congr_left fun instruction _ => normalizedInstruction_idem instruction

/-- A block time that was read is one that is read again. -/
theorem readBlockTime_of_get {transaction' : Json} (h : readBlockTime transaction = .ok blockTime)
    (hget : transaction'.get "blockTime" = .some blockTime) : readBlockTime transaction' = .ok blockTime := by
  unfold readBlockTime at h
  split at h
  · cases h
    rw [readBlockTime, hget]
  · next value hnull hvalue =>
    split at h
    case h_2 => cases h
    next time htime =>
    cases h
    rw [readBlockTime, hget]
    split
    · next heq =>
      have htime' := asI64_ofI64 time
      rw [Option.some.inj heq] at htime'
      cases htime'
    · next heq => cases heq; rw [asI64_ofI64]
    · next heq => cases heq
  · cases h

/-- The normal form shows what the transaction shows, and the instructions it kept. -/
theorem Shows.normalized (h : Shows transaction slot blockTime feePayer groups) (groups' : List (List Json)) :
    Shows (normalized slot blockTime feePayer groups') slot blockTime feePayer groups' where
  slot := rfl
  blockTime := readBlockTime_of_get h.blockTime rfl
  err := rfl
  feePayer := rfl
  groups := ⟨groups'.map groupOf, rfl, by rw [List.map_map]; rfl⟩

/-- The events are those of the trusted instructions, group after group. -/
theorem Shows.decode (crates : Crates) (h : Shows transaction slot blockTime feePayer groups) :
    decodeSolanaPacketSentEvents crates transaction trusted =
      (groups.flatten.filter (IsTrusted trusted)).filterMap (decodeSolanaPacketSentEventInstruction crates) := by
  obtain ⟨values, hvalues, hgroups⟩ := h.groups
  have hkept : values.filterMap instructionsOf = groups :=
    calc values.filterMap instructionsOf = (values.map instructionsOf).filterMap id := by
          rw [List.filterMap_map]
          rfl
      _ = groups := by
          rw [hgroups, List.filterMap_map]
          exact List.filterMap_some
  simp only [decodeSolanaPacketSentEvents, hvalues, Option.getD_some, hkept]

/-- **The resolver finds in the vote the events of the transaction.** -/
theorem decode_normalized (crates : Crates) (groups : List (List Json)) :
    ((groups.map (normalizedInstructions (.some trusted))).flatten.filter (IsTrusted trusted)).filterMap
        (decodeSolanaPacketSentEventInstruction crates) =
      (groups.flatten.filter (IsTrusted trusted)).filterMap (decodeSolanaPacketSentEventInstruction crates) := by
  have hflat : (groups.map (normalizedInstructions (.some trusted))).flatten =
      normalizedInstructions (.some trusted) groups.flatten := by
    induction groups with
    | nil => rfl
    | cons instructions groups ih =>
      rw [List.map_cons, List.flatten_cons, ih, List.flatten_cons, normalizedInstructions_some,
        normalizedInstructions_some, normalizedInstructions_some, List.filter_append, List.map_append]
  rw [hflat, filter_normalizedInstructions, normalizedInstructions_some, List.filterMap_map]
  exact List.filterMap_congr fun instruction _ => decode_normalizedInstruction crates instruction

/-! ## Untrusted instructions -/

/-- The entry under `key` changed. -/
def mapKey (key : String) (f : Json → Json) : Json → Json
  | .object entries => .object (entries.map fun entry => (entry.1, if entry.1 = key then f entry.2 else entry.2))
  | value => value

/-- Each item of an array changed, by its index. -/
def mapItems (f : Nat → Json → Json) : Json → Json
  | .array values => .array (values.mapIdx f)
  | value => value

def mapArray (f : List Json → List Json) : Json → Json
  | .array values => .array (f values)
  | value => value

/-- A transaction with each group's instructions changed. -/
def editInstructions (edit : Nat → List Json → List Json) : Json → Json :=
  mapKey "meta" (mapKey "innerInstructions" (mapItems fun group => mapKey "instructions" (mapArray (edit group))))

/-- `edit` leaves the instructions of trusted programs as they are, in their order. -/
def Untouched (trusted : TreeSet String) (edit : Nat → List Json → List Json) : Prop :=
  ∀ group instructions, (edit group instructions).filter (IsTrusted trusted) = instructions.filter (IsTrusted trusted)

theorem get_mapKey (key : String) (f : Json → Json) (value : Json) (name : String) :
    (mapKey key f value).get name = if name = key then (value.get name).map f else value.get name := by
  match value with
  | .object entries =>
    simp only [mapKey, Json.get]
    induction entries with
    | nil => simp
    | cons entry entries ih =>
      obtain ⟨k, v⟩ := entry
      rw [List.map_cons, List.lookup_cons, List.lookup_cons]
      by_cases hk : name = k
      · subst hk
        simp only [beq_self_eq_true]
        split <;> rfl
      · simp only [beq_eq_false_iff_ne.mpr hk]
        exact ih
  | .null | .bool _ | .number _ | .string _ | .array _ => simp [mapKey, Json.get]

theorem get_mapKey_self (key : String) (f : Json → Json) (value : Json) :
    (mapKey key f value).get key = (value.get key).map f := by
  rw [get_mapKey, if_pos rfl]

theorem get_mapKey_other {key name : String} (h : name ≠ key) (f : Json → Json) (value : Json) :
    (mapKey key f value).get name = value.get name := by
  rw [get_mapKey, if_neg h]

theorem asArray_mapItems (f : Nat → Json → Json) (value : Json) :
    asArray (mapItems f value) = (asArray value).map (List.mapIdx f) := by
  cases value <;> rfl

theorem instructionsOf_mapKey (f : List Json → List Json) (group : Json) :
    instructionsOf (mapKey "instructions" (mapArray f) group) = (instructionsOf group).map f := by
  rw [instructionsOf, get_mapKey_self, instructionsOf]
  match group.get "instructions" with
  | .none => rfl
  | .some (.array _) => rfl
  | .some .null | .some (.bool _) | .some (.number _) | .some (.string _) | .some (.object _) => rfl

theorem readInstructions_mapKey (f : List Json → List Json) (group : Json) :
    readInstructions (mapKey "instructions" (mapArray f) group) = (readInstructions group).map f := by
  rw [readInstructions, instructionsOf_mapKey, readInstructions]
  cases instructionsOf group <;> rfl

section
variable {edit : Nat → List Json → List Json}

theorem bind_map_congr {ε α β γ : Type} {x y : Except ε α} {f : α → β} (h : x.map f = y.map f)
    (g : β → Except ε γ) : (x >>= fun a => g (f a)) = y >>= fun a => g (f a) := by
  have hmap : ∀ z : Except ε α, (z >>= fun a => g (f a)) = z.map f >>= g := fun z => by cases z <;> rfl
  rw [hmap x, h, hmap y]

/-- The groups are kept as they were, whatever came or went untrusted. -/
theorem kept_edit (h : Untouched trusted edit) (values : List Json) :
    ((values.mapIdx fun group => mapKey "instructions" (mapArray (edit group))).mapM readInstructions).map
        (List.map (normalizedInstructions (.some trusted))) =
      (values.mapM readInstructions).map (List.map (normalizedInstructions (.some trusted))) := by
  induction values generalizing edit with
  | nil => rfl
  | cons value values ih =>
    have htail := @ih (fun group => edit (group + 1)) fun group => h (group + 1)
    rw [List.mapIdx_cons, List.mapM_cons, List.mapM_cons, readInstructions_mapKey]
    cases readInstructions value with
    | error e => rfl
    | ok instructions =>
      have hhead : normalizedInstructions (.some trusted) (edit 0 instructions) =
          normalizedInstructions (.some trusted) instructions := by
        rw [normalizedInstructions_some, h, normalizedInstructions_some]
      revert htail
      generalize (values.mapIdx fun group => mapKey "instructions" (mapArray (edit (group + 1)))).mapM
        readInstructions = edited
      generalize values.mapM readInstructions = original
      intro htail
      cases edited with
      | error e =>
        cases original with
        | error e' => exact htail
        | ok rest => cases htail
      | ok rest =>
        cases original with
        | error e' => cases htail
        | ok rest' =>
          have hrest := Except.ok.inj htail
          exact congrArg Except.ok (by rw [List.map_cons, List.map_cons, hhead, hrest])

theorem filter_edit (h : Untouched trusted edit) (values : List Json) :
    (((values.mapIdx fun group => mapKey "instructions" (mapArray (edit group))).filterMap
        instructionsOf).flatten).filter (IsTrusted trusted) =
      ((values.filterMap instructionsOf).flatten).filter (IsTrusted trusted) := by
  induction values generalizing edit with
  | nil => rfl
  | cons value values ih =>
    have htail := @ih (fun group => edit (group + 1)) fun group => h (group + 1)
    rw [List.mapIdx_cons, List.filterMap_cons, List.filterMap_cons, instructionsOf_mapKey]
    cases instructionsOf value with
    | none => exact htail
    | some instructions =>
      simp only [Option.map_some, List.flatten_cons, List.filter_append, h 0 instructions]
      rw [htail]

theorem projection_edit (h : Untouched trusted edit) (transaction : Json) :
    solanaTransactionProjection (editInstructions edit transaction) (.some trusted) =
      solanaTransactionProjection transaction (.some trusted) := by
  have hnull : (editInstructions edit transaction).isNull = transaction.isNull := by cases transaction <;> rfl
  have hget : ∀ name, name ≠ "meta" → (editInstructions edit transaction).get name = transaction.get name :=
    fun name hname => get_mapKey_other hname _ _
  have htime : readBlockTime (editInstructions edit transaction) = readBlockTime transaction := by
    rw [readBlockTime, hget _ (by decide), readBlockTime]
  have hpayer : pointer feePayerPath (editInstructions edit transaction) = pointer feePayerPath transaction := by
    rw [feePayerPath, pointer_cons (by decide), pointer_cons (by decide), hget _ (by decide)]
  unfold solanaTransactionProjection
  rw [hnull, hget "slot" (by decide), htime, hpayer, editInstructions, get_mapKey_self]
  split
  · rfl
  cases (transaction.get "slot").bind asU64 with
  | none => rfl
  | some slot =>
  cases readBlockTime transaction with
  | error e => rfl
  | ok blockTime =>
  cases transaction.get "meta" with
  | none => rfl
  | some metadata =>
  have herr : pointer ["err"] (mapKey "innerInstructions" (mapItems fun group =>
      mapKey "instructions" (mapArray (edit group))) metadata) = pointer ["err"] metadata := by
    rw [pointer_cons (by decide), pointer_cons (by decide), get_mapKey_other (by decide)]
  simp only [Option.map_some, Option.filter_some, herr]
  by_cases hisNull : (pointer ["err"] metadata).any isNull = true
  case neg => rw [if_neg hisNull, if_neg hisNull]
  rw [if_pos hisNull, if_pos hisNull]
  cases (pointer feePayerPath transaction).bind asStr with
  | none => rfl
  | some feePayer =>
  simp only [get_mapKey_self]
  cases metadata.get "innerInstructions" with
  | none => rfl
  | some inner =>
  simp only [Option.map_some, Option.bind_some, asArray_mapItems]
  cases asArray inner with
  | none => rfl
  | some values =>
  exact bind_map_congr (kept_edit h values) fun groups =>
    .ok (normalized slot blockTime feePayer groups, feePayer)

theorem decode_edit (crates : Crates) (h : Untouched trusted edit) (transaction : Json) :
    decodeSolanaPacketSentEvents crates (editInstructions edit transaction) trusted =
      decodeSolanaPacketSentEvents crates transaction trusted := by
  have hmeta : ∀ value, pointer ["meta", "innerInstructions"] value =
      (value.get "meta").bind (Json.get "innerInstructions") := fun value => by
    rw [pointer_cons (by decide)]
    congr 1
    funext metadata
    rw [pointer_cons (by decide)]
    cases metadata.get "innerInstructions" <;> rfl
  simp only [decodeSolanaPacketSentEvents]
  congr 1
  rw [hmeta, hmeta, editInstructions, get_mapKey_self]
  cases transaction.get "meta" with
  | none => rfl
  | some metadata =>
  rw [Option.map_some, Option.bind_some, Option.bind_some, get_mapKey_self]
  cases metadata.get "innerInstructions" with
  | none => rfl
  | some inner =>
  rw [Option.map_some, Option.bind_some, Option.bind_some, asArray_mapItems]
  cases asArray inner with
  | none => rfl
  | some values => exact filter_edit h values

end

end

/-- **The vote loses nothing the resolver reads.** What is voted on decodes to
the events of the transaction, carries its slot, block time and fee payer, and
is its own vote; transactions with one vote have the same events; and whatever
untrusted instructions come, go or change in whatever group, vote and events
stay as they are. -/
theorem solanaTransactionProjection_faithful (crates : Crates) (trusted : TreeSet String) :
    (∀ transaction value feePayer,
      solanaTransactionProjection transaction (.some trusted) = .ok (value, feePayer) →
        decodeSolanaPacketSentEvents crates value trusted = decodeSolanaPacketSentEvents crates transaction trusted ∧
        (value.get "slot").bind asU64 = (transaction.get "slot").bind asU64 ∧
        readBlockTime value = readBlockTime transaction ∧
        (pointer feePayerPath value).bind asStr = (pointer feePayerPath transaction).bind asStr ∧
        solanaTransactionProjection value (.some trusted) = .ok (value, feePayer)) ∧
    (∀ transaction transaction' vote, solanaTransactionProjection transaction (.some trusted) = .ok vote →
      solanaTransactionProjection transaction' (.some trusted) = .ok vote →
        decodeSolanaPacketSentEvents crates transaction trusted =
          decodeSolanaPacketSentEvents crates transaction' trusted) ∧
    (∀ edit, Untouched trusted edit → ∀ transaction,
      solanaTransactionProjection (editInstructions edit transaction) (.some trusted) =
          solanaTransactionProjection transaction (.some trusted) ∧
        decodeSolanaPacketSentEvents crates (editInstructions edit transaction) trusted =
          decodeSolanaPacketSentEvents crates transaction trusted) := by
  have hevents : ∀ transaction value feePayer,
      solanaTransactionProjection transaction (.some trusted) = .ok (value, feePayer) →
        decodeSolanaPacketSentEvents crates value trusted = decodeSolanaPacketSentEvents crates transaction trusted :=
    fun transaction value feePayer h => by
      obtain ⟨slot, blockTime, groups, hshows, rfl⟩ := projection_eq_ok.mp h
      rw [(hshows.normalized _).decode, hshows.decode, decode_normalized]
  refine ⟨fun transaction value feePayer h => ?_, fun transaction transaction' vote h h' => ?_,
    fun edit h transaction => ⟨projection_edit h transaction, decode_edit crates h transaction⟩⟩
  · refine ⟨hevents _ _ _ h, ?_⟩
    obtain ⟨slot, blockTime, groups, hshows, rfl⟩ := projection_eq_ok.mp h
    have hshows' := hshows.normalized (groups.map (normalizedInstructions (.some trusted)))
    refine ⟨hshows'.slot.trans hshows.slot.symm, hshows'.blockTime.trans hshows.blockTime.symm,
      hshows'.feePayer.trans hshows.feePayer.symm, projection_eq_ok.mpr ⟨slot, blockTime, _, hshows', ?_⟩⟩
    rw [List.map_map]
    congr 1
    exact List.map_congr_left fun instructions _ => (normalizedInstructions_idem trusted instructions).symm
  · obtain ⟨value, feePayer⟩ := vote
    rw [← hevents _ _ _ h, hevents _ _ _ h']

/-- One group: an instruction of the endpoint program between two of others. -/
def sampleInstructions : List Json :=
  [.object [("data", .string "3Bxs4"), ("programId", .string "11111111111111111111111111111111")],
    .object [("accounts", .array []), ("data", .string "0"), ("programId", .string "endpoint")],
    .object [("parsed", .null)]]

def sampleTransaction : Json :=
  .object
    [("blockTime", .number (.posInt 1700000000)),
      ("meta", .object [("err", .null), ("fee", .number (.posInt 5000)),
        ("innerInstructions", .array
          [.object [("index", .number (.posInt 2)), ("instructions", .array sampleInstructions)]])]),
      ("slot", .number (.posInt 250)),
      ("transaction", .object [("message", .object
        [("accountKeys", .array [.object [("pubkey", .string "payer")]])])])]

def sampleVote : Json :=
  normalized 250 (.number (.posInt 1700000000)) "payer"
    [[.object [("data", .string "0"), ("programId", .string "endpoint")]]]

def sampleTrusted : TreeSet String := TreeSet.ofList ["endpoint"]

/-- The vote on the sample is its own vote, and decodes as the sample does. -/
theorem sampleVote_faithful :
    solanaTransactionProjection sampleVote (.some sampleTrusted) = .ok (sampleVote, "payer") ∧
    decodeSolanaPacketSentEvents Packet.emptyCrates sampleVote sampleTrusted =
      decodeSolanaPacketSentEvents Packet.emptyCrates sampleTransaction sampleTrusted := by
  have hkept : normalizedInstructions (.some sampleTrusted) sampleInstructions =
      [.object [("data", .string "0"), ("programId", .string "endpoint")]] := by
    simp [normalizedInstructions, sampleInstructions, IsTrusted, programId, data, normalizedInstruction, Json.get,
      ofStr, sampleTrusted, List.lookup, asStr]
  have hshows : Shows sampleTransaction 250 (.number (.posInt 1700000000)) "payer" [sampleInstructions] :=
    ⟨rfl, by simp [readBlockTime, sampleTransaction, Json.get, List.lookup, asI64, ofI64], rfl, rfl, _, rfl, rfl⟩
  have hvote : solanaTransactionProjection sampleTransaction (.some sampleTrusted) = .ok (sampleVote, "payer") :=
    projection_eq_ok.mpr ⟨250, _, _, hshows, by rw [List.map_singleton, hkept, sampleVote]⟩
  obtain ⟨hevents, -, -, -, hidem⟩ :=
    (solanaTransactionProjection_faithful Packet.emptyCrates sampleTrusted).1 sampleTransaction sampleVote "payer" hvote
  exact ⟨hidem, hevents⟩

end Pillar.Solana
