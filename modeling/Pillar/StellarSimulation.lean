/-
The values of Stellar simulations (`pillar-runtime`,
`layerzero_runtime/validation_payload_stellar.rs`): the envelope of a call, and
the `XdrReader` of what it returns.

Values are decoded from their encodings (`decodeScValue_encode`), any bytes are
read in bounded steps (`scValue_bounded`), and `codecHolds_iff` says which
queries an envelope tells apart.
-/
import Pillar.Base64
import Pillar.Reads
import Pillar.Xdr
import Pillar.Utf8
import Pillar.Abi

namespace Pillar.StellarSimulation

open Text Bits Xdr Tracked
open Abi (Bytes)

/-! ## The code -/

@[match_pattern] def scvBool : Nat := 0
@[match_pattern] def scvVoid : Nat := 1
@[match_pattern] def scvU32 : Nat := 3
@[match_pattern] def scvU64 : Nat := 5
@[match_pattern] def scvBytes : Nat := 13
@[match_pattern] def scvString : Nat := 14
@[match_pattern] def scvSymbol : Nat := 15
@[match_pattern] def scvVec : Nat := 16
@[match_pattern] def scvMap : Nat := 17
@[match_pattern] def scvAddress : Nat := 18

inductive StellarAddress where
  | account (bytes : Bytes 32)
  | contract (bytes : Bytes 32)

inductive ScArg where
  | address (address : StellarAddress)
  | u32 (value : UInt32)
  | u64 (value : UInt64)
  | bytes (bytes : List UInt8)

inductive ScValue where
  | bool (value : Bool)
  | void
  | u32 (value : UInt32)
  | u64 (value : UInt64)
  | bytes (value : List UInt8)
  | text (value : String)
  | symbol (value : String)
  | vec (items : List ScValue)
  | map (entries : List (ScValue × ScValue))
  | address (address : StellarAddress)

def xdrScAddress : StellarAddress → List UInt8
  | .account bytes => word 0 ++ (word 0 ++ bytes.val)
  | .contract bytes => word 1 ++ bytes.val

/-- What is written for one argument. -/
def xdrScArg : ScArg → List UInt8
  | .address address => word scvAddress ++ xdrScAddress address
  | .u32 value => word scvU32 ++ word value.toNat
  | .u64 value => word scvU64 ++ hyper value.toNat
  | .bytes bytes => word scvBytes ++ opaqueData bytes

/-- Up to the contract. -/
def envelopeHead : List UInt8 :=
  word 2 ++ (word 0 ++ (List.replicate 32 0 ++ (word 100 ++ (hyper 1 ++ (word 0 ++ (word 0 ++ (word 1 ++ (word 0 ++
    (word 24 ++ word 0)))))))))

/-- No auth entries, no extension, no signatures. -/
def envelopeTail : List UInt8 := word 0 ++ (word 0 ++ word 0)

def argumentSection (args : List ScArg) : List UInt8 := word args.length ++ (args.map xdrScArg).flatten

/-- The envelope before it is written in base64. -/
def envelopeXdr (contract : Bytes 32) (function : String) (args : List ScArg) : List UInt8 :=
  envelopeHead ++ (xdrScAddress (.contract contract) ++ (opaqueData (utf8 function) ++
    (argumentSection args ++ envelopeTail)))

def invokeContractEnvelope (engine : Base64.Engine) (contract : Bytes 32) (function : String)
    (args : List ScArg) : String :=
  engine.encode (envelopeXdr contract function args)

/-- The offset, with how often `sc_value` was called, and how many of these calls
came to a value's tag. -/
structure XdrReader where
  offset : Nat := 0
  called : Nat := 0
  read : Nat := 0

section

variable (bytes : List UInt8)

def take (len : Nat) : Tracked XdrReader Unit (List UInt8) := do
  let reader ← state
  let stop ← get? (checkedAdd reader.offset len)
  if stop > bytes.length then fail ()
  else
    update fun reader => { reader with offset := stop }
    pure ((bytes.drop reader.offset).take len)

def u32 : Tracked XdrReader Unit Nat := do
  let word ← take bytes 4
  pure (ofBytes word)

/-- No tag or kind is negative, so a word is compared as it is. -/
def i32 : Tracked XdrReader Unit Nat := u32 bytes

def u64 : Tracked XdrReader Unit Nat := do
  let word ← take bytes 8
  pure (ofBytes word)

def opaqueBytes : Tracked XdrReader Unit (List UInt8) := do
  let len ← u32 bytes
  let data ← take bytes len
  let _ ← take bytes ((4 - len % 4) % 4)
  pure data

def bytes32 : Tracked XdrReader Unit (Bytes 32) := do
  let taken ← take bytes 32
  get? (if h : taken.length = 32 then .some ⟨taken, h⟩ else .none)

def address : Tracked XdrReader Unit StellarAddress := do
  match ← i32 bytes with
  | 0 =>
    let kind ← i32 bytes
    if kind ≠ 0 then fail ()
    else
      let key ← bytes32 bytes
      pure (.account key)
  | 1 =>
    let id ← bytes32 bytes
    pure (.contract id)
  | _ => fail ()

/-- `if self.u32()? == 0 { return None; }`. -/
def present : Tracked XdrReader Unit Unit := do
  let flag ← u32 bytes
  if flag = 0 then fail () else pure ()

def pair (next : Tracked XdrReader Unit ScValue) : Tracked XdrReader Unit (ScValue × ScValue) := do
  let key ← next
  let value ← next
  pure (key, value)

/-- The arms of `sc_value`; `next` is its call one level deeper. -/
def scValueTag (next : Tracked XdrReader Unit ScValue) : Nat → Tracked XdrReader Unit ScValue
  | scvBool => do
    let flag ← u32 bytes
    pure (.bool (flag ≠ 0))
  | scvVoid => pure .void
  | scvU32 => do
    let value ← u32 bytes
    pure (.u32 (UInt32.ofNat value))
  | scvU64 => do
    let value ← u64 bytes
    pure (.u64 (UInt64.ofNat value))
  | scvBytes => do
    let data ← opaqueBytes bytes
    pure (.bytes data)
  | scvString => do
    let data ← opaqueBytes bytes
    let value ← get? (fromUtf8 data)
    pure (.text value)
  | scvSymbol => do
    let data ← opaqueBytes bytes
    let value ← get? (fromUtf8 data)
    pure (.symbol value)
  | scvVec => do
    present bytes
    let len ← u32 bytes
    let items ← times next len
    pure (.vec items)
  | scvMap => do
    present bytes
    let len ← u32 bytes
    let entries ← times (pair next) len
    pure (.map entries)
  | scvAddress => do
    let value ← address bytes
    pure (.address value)
  | _ => fail ()

def scValue (depth : Nat) : Tracked XdrReader Unit ScValue := do
  update fun reader => { reader with called := reader.called + 1 }
  if h : depth > 8 then fail ()
  else
    let tag ← i32 bytes
    update fun reader => { reader with read := reader.read + 1 }
    scValueTag bytes (scValue (depth + 1)) tag
termination_by 9 - depth
decreasing_by omega

end

def decodeScValue (engine : Base64.Engine) (encoded : String) : Option ScValue := do
  let bytes ← (engine.decode encoded).toOption
  let (result, reader) := scValue bytes 0 {}
  let value ← result.toOption
  if reader.offset = bytes.length then .some value else .none

/-! ## The encoding -/

mutual

/-- The XDR encoding of a value. -/
def ScValue.encode : ScValue → List UInt8
  | .bool value => word 0 ++ word value.toNat
  | .void => word 1
  | .u32 value => word 3 ++ word value.toNat
  | .u64 value => word 5 ++ hyper value.toNat
  | .bytes value => word 13 ++ opaqueData value
  | .text value => word 14 ++ opaqueData (utf8 value)
  | .symbol value => word 15 ++ opaqueData (utf8 value)
  | .vec items => word 16 ++ (word 1 ++ (word items.length ++ (encodeItems items).flatten))
  | .map entries => word 17 ++ (word 1 ++ (word entries.length ++ (encodeEntries entries).flatten))
  | .address address => word 18 ++ xdrScAddress address

def encodeItems : List ScValue → List (List UInt8)
  | [] => []
  | item :: rest => item.encode :: encodeItems rest

def encodeEntries : List (ScValue × ScValue) → List (List UInt8)
  | [] => []
  | (key, value) :: rest => (key.encode ++ value.encode) :: encodeEntries rest

end

mutual

/-- How deep containers nest. -/
def ScValue.nesting : ScValue → Nat
  | .vec items => nestingOfItems items + 1
  | .map entries => nestingOfEntries entries + 1
  | .bool _ | .void | .u32 _ | .u64 _ | .bytes _ | .text _ | .symbol _ | .address _ => 0

def nestingOfItems : List ScValue → Nat
  | [] => 0
  | item :: rest => max item.nesting (nestingOfItems rest)

def nestingOfEntries : List (ScValue × ScValue) → Nat
  | [] => 0
  | (key, value) :: rest => max (max key.nesting value.nesting) (nestingOfEntries rest)

end

mutual

/-- XDR has four bytes for every length and every count. -/
def ScValue.Fits : ScValue → Prop
  | .bytes value => value.length < 2 ^ 32
  | .text value | .symbol value => (utf8 value).length < 2 ^ 32
  | .vec items => items.length < 2 ^ 32 ∧ FitItems items
  | .map entries => entries.length < 2 ^ 32 ∧ FitEntries entries
  | .bool _ | .void | .u32 _ | .u64 _ | .address _ => True

def FitItems : List ScValue → Prop
  | [] => True
  | item :: rest => item.Fits ∧ FitItems rest

def FitEntries : List (ScValue × ScValue) → Prop
  | [] => True
  | (key, value) :: rest => (key.Fits ∧ value.Fits) ∧ FitEntries rest

end

/-! ## An encoding is read -/

variable {bytes : List UInt8}

theorem take_reads (hbytes : bytes.length ≤ usizeMax) (part : List UInt8) :
    Tracked.Reads bytes XdrReader.offset (take bytes part.length) part part := by
  intro reader rest hle hdrop
  have hstop := add_length_le_of_drop hle hdrop
  have htaken : (bytes.drop reader.offset).take part.length = part := by rw [hdrop, List.take_left]
  refine ⟨{ reader with offset := reader.offset + part.length }, ?_, rfl⟩
  rw [take, state_bind, checkedAdd_of_le (by omega), get?_some_bind, if_neg (by omega), update_bind, htaken]
  rfl

theorem u32_reads (hbytes : bytes.length ≤ usizeMax) {n : Nat} (h : n < 2 ^ 32) :
    Tracked.Reads bytes XdrReader.offset (u32 bytes) (word n) n := by
  have htake := take_reads hbytes (word n)
  rw [length_word] at htake
  exact htake.map (by rw [word, ofBytes_bytesOf h])

theorem u64_reads (hbytes : bytes.length ≤ usizeMax) {n : Nat} (h : n < 2 ^ 64) :
    Tracked.Reads bytes XdrReader.offset (u64 bytes) (hyper n) n := by
  have htake := take_reads hbytes (hyper n)
  rw [length_hyper] at htake
  exact htake.map (by rw [hyper, ofBytes_bytesOf h])

theorem opaqueBytes_reads (hbytes : bytes.length ≤ usizeMax) {value : List UInt8} (h : value.length < 2 ^ 32) :
    Tracked.Reads bytes XdrReader.offset (opaqueBytes bytes) (opaqueData value) value := by
  have hpadding := take_reads hbytes (List.replicate (padding value.length) 0)
  rw [List.length_replicate] at hpadding
  rw [opaqueData, List.append_assoc]
  exact (u32_reads hbytes h).bind ((take_reads hbytes value).bind (hpadding.map rfl))

theorem bytes32_reads (hbytes : bytes.length ≤ usizeMax) (part : Bytes 32) :
    Tracked.Reads bytes XdrReader.offset (bytes32 bytes) part.val part := by
  have htake := take_reads hbytes part.val
  rw [part.property] at htake
  exact htake.map (by rw [dif_pos part.property]; rfl)

theorem address_reads (hbytes : bytes.length ≤ usizeMax) (value : StellarAddress) :
    Tracked.Reads bytes XdrReader.offset (address bytes) (xdrScAddress value) value := by
  cases value with
  | account key =>
    exact (u32_reads hbytes (by decide)).bind ((u32_reads hbytes (by decide)).bind ((bytes32_reads hbytes key).map rfl))
  | contract id => exact (u32_reads hbytes (by decide)).bind ((bytes32_reads hbytes id).map rfl)

/-- The flag, the count, and what follows. -/
theorem counted_reads {α β : Type} (hbytes : bytes.length ≤ usizeMax) {next : Tracked XdrReader Unit α}
    {parts : List (List UInt8)} {values : List α} {f : List α → β} (hlen : values.length < 2 ^ 32)
    (h : List.Forall₂ (fun part a => Tracked.Reads bytes XdrReader.offset next part a) parts values) :
    Tracked.Reads bytes XdrReader.offset
      (do present bytes; let len ← u32 bytes; let items ← times next len; pure (f items))
      (word 1 ++ (word values.length ++ parts.flatten)) (f values) := by
  have hflag : Tracked.Reads bytes XdrReader.offset (present bytes) (word 1) () :=
    (u32_reads hbytes (by decide)).map rfl
  exact hflag.bind ((u32_reads hbytes hlen).bind ((Tracked.Reads.times h).map rfl))

/-- A tag, and what its arm reads. -/
theorem scValue_reads (hbytes : bytes.length ≤ usizeMax) {depth tag : Nat} {part : List UInt8} {a : ScValue}
    (hdepth : depth ≤ 8) (htag : tag < 2 ^ 32)
    (h : Tracked.Reads bytes XdrReader.offset (scValueTag bytes (scValue bytes (depth + 1)) tag) part a) :
    Tracked.Reads bytes XdrReader.offset (scValue bytes depth) (word tag ++ part) a := by
  rw [scValue]
  refine Tracked.Reads.update (fun _ => rfl) ?_
  rw [dif_neg (not_lt.mpr hdepth)]
  exact (u32_reads hbytes htag).bind (Tracked.Reads.update (fun _ => rfl) h)

theorem pair_reads {next : Tracked XdrReader Unit ScValue} {key value : List UInt8} {k v : ScValue}
    (hkey : Tracked.Reads bytes XdrReader.offset next key k)
    (hvalue : Tracked.Reads bytes XdrReader.offset next value v) :
    Tracked.Reads bytes XdrReader.offset (pair next) (key ++ value) (k, v) :=
  hkey.bind (hvalue.map rfl)

mutual

/-- **A value is read** wherever it is not too deep. -/
theorem ScValue.reads (hbytes : bytes.length ≤ usizeMax) : ∀ (v : ScValue) (depth : Nat), v.Fits →
    depth + v.nesting ≤ 8 → Tracked.Reads bytes XdrReader.offset (scValue bytes depth) v.encode v
  | .bool value, depth, _, hnest =>
    scValue_reads hbytes hnest (by decide) ((u32_reads hbytes (by cases value <;> decide)).map (by cases value <;> rfl))
  | .void, depth, _, hnest => by
    have hread : Tracked.Reads bytes XdrReader.offset (scValue bytes depth) (word 1 ++ []) .void :=
      scValue_reads hbytes hnest (by decide) Tracked.Reads.pure
    rwa [List.append_nil] at hread
  | .u32 value, depth, _, hnest =>
    scValue_reads hbytes hnest (by decide) ((u32_reads hbytes value.toNat_lt).map (by rw [UInt32.ofNat_toNat]))
  | .u64 value, depth, _, hnest =>
    scValue_reads hbytes hnest (by decide) ((u64_reads hbytes value.toNat_lt).map (by rw [UInt64.ofNat_toNat]))
  | .bytes value, depth, hfits, hnest =>
    scValue_reads hbytes hnest (by decide) ((opaqueBytes_reads hbytes hfits).map rfl)
  | .text value, depth, hfits, hnest =>
    scValue_reads hbytes hnest (by decide) ((opaqueBytes_reads hbytes hfits).map (by rw [fromUtf8_utf8]; rfl))
  | .symbol value, depth, hfits, hnest =>
    scValue_reads hbytes hnest (by decide) ((opaqueBytes_reads hbytes hfits).map (by rw [fromUtf8_utf8]; rfl))
  | .vec items, depth, hfits, hnest => by
    have hnest : depth + nestingOfItems items + 1 ≤ 8 := hnest
    have hitems := items_reads hbytes items (depth + 1) hfits.2 (by omega)
    rw [ScValue.encode]
    exact scValue_reads hbytes (by omega) (by decide) (counted_reads hbytes hfits.1 hitems)
  | .map entries, depth, hfits, hnest => by
    have hnest : depth + nestingOfEntries entries + 1 ≤ 8 := hnest
    have hentries := entries_reads hbytes entries (depth + 1) hfits.2 (by omega)
    rw [ScValue.encode]
    exact scValue_reads hbytes (by omega) (by decide) (counted_reads hbytes hfits.1 hentries)
  | .address value, depth, _, hnest =>
    scValue_reads hbytes hnest (by decide) ((address_reads hbytes value).map rfl)

theorem items_reads (hbytes : bytes.length ≤ usizeMax) : ∀ (items : List ScValue) (depth : Nat), FitItems items →
    depth + nestingOfItems items ≤ 8 →
    List.Forall₂ (fun part a => Tracked.Reads bytes XdrReader.offset (scValue bytes depth) part a) (encodeItems items)
      items
  | [], _, _, _ => .nil
  | item :: rest, depth, hfits, hnest => by
    have hnest : depth + max item.nesting (nestingOfItems rest) ≤ 8 := hnest
    exact .cons (item.reads hbytes depth hfits.1 (by omega)) (items_reads hbytes rest depth hfits.2 (by omega))

theorem entries_reads (hbytes : bytes.length ≤ usizeMax) : ∀ (entries : List (ScValue × ScValue)) (depth : Nat),
    FitEntries entries → depth + nestingOfEntries entries ≤ 8 →
    List.Forall₂ (fun part a => Tracked.Reads bytes XdrReader.offset (pair (scValue bytes depth)) part a)
      (encodeEntries entries) entries
  | [], _, _, _ => .nil
  | (key, value) :: rest, depth, hfits, hnest => by
    have hnest : depth + max (max key.nesting value.nesting) (nestingOfEntries rest) ≤ 8 := hnest
    have hkey := key.reads hbytes depth hfits.1.1 (by omega)
    have hvalue := value.reads hbytes depth hfits.1.2 (by omega)
    exact .cons (pair_reads hkey hvalue) (entries_reads hbytes rest depth hfits.2 (by omega))

end

/-! ## Any input -/

/-- What came to a tag has room in what was consumed, with `tagged` more tags;
`pending` calls of `sc_value` have not come to theirs. -/
structure Progress (bytes : List UInt8) (pending tagged : Nat) (reader : XdrReader) : Prop where
  consumed : 4 * (reader.read + tagged) ≤ reader.offset
  within : reader.offset ≤ bytes.length
  called : reader.called = reader.read + pending

/-- Between two calls. -/
abbrev Counted (bytes : List UInt8) : XdrReader → Prop := Progress bytes 0 0

/-- Where a read ends: the last call may not have come to its tag. -/
structure Stopped (bytes : List UInt8) (reader : XdrReader) : Prop where
  consumed : 4 * reader.read ≤ reader.offset
  within : reader.offset ≤ bytes.length
  called : reader.called ≤ reader.read + 1

theorem Progress.stopped {pending tagged : Nat} {reader : XdrReader} (h : Progress bytes pending tagged reader)
    (hpending : pending ≤ 1) : Stopped bytes reader where
  consumed := by have := h.consumed; omega
  within := h.within
  called := by have := h.called; omega

theorem Counted.stopped {reader : XdrReader} (h : Counted bytes reader) : Stopped bytes reader :=
  Progress.stopped h (Nat.zero_le 1)

theorem counted_new : Counted bytes {} where
  consumed := Nat.le_refl _
  within := Nat.zero_le _
  called := rfl

theorem take_spec {P Q E : XdrReader → Prop} {len : Nat} (he : ∀ reader, P reader → E reader)
    (h : ∀ reader, P reader → reader.offset + len ≤ bytes.length → Q { reader with offset := reader.offset + len }) :
    Spec P (take bytes len) (fun part reader => part.length = len ∧ Q reader) E := by
  refine Spec.state.bind fun start => (Spec.get? fun _ hs => he _ hs.2).bind fun stop => ?_
  by_cases hstop : stop > bytes.length
  · rw [if_pos hstop]
    exact Spec.fail () fun _ hs => he _ hs.2.2
  · rw [if_neg hstop]
    refine Spec.bind (Q := fun _ reader => ((bytes.drop start.offset).take len).length = len ∧ Q reader)
      (Spec.update fun _ hs => ?_) fun _ => Spec.pure fun _ hs => hs
    obtain ⟨hadd, rfl, hreader⟩ := hs
    obtain rfl := checkedAdd_eq_some hadd
    refine ⟨by rw [List.length_take, List.length_drop]; omega, h start hreader (by omega)⟩

theorem take_counted (len : Nat) :
    Spec (Counted bytes) (take bytes len) (fun part reader => part.length = len ∧ Counted bytes reader)
      (Stopped bytes) :=
  take_spec (fun _ h => h.stopped) fun _ h hle =>
    ⟨Nat.le_trans h.consumed (Nat.le_add_right _ _), hle, h.called⟩

theorem ofBytes_word_lt {part : List UInt8} (h : part.length = 4) : ofBytes part < 2 ^ 32 := by
  have hlt := ofBytes_lt part
  rwa [h] at hlt

theorem u32_counted :
    Spec (Counted bytes) (u32 bytes) (fun n reader => n < 2 ^ 32 ∧ Counted bytes reader) (Stopped bytes) :=
  (take_counted 4).bind fun _ => Spec.pure fun _ h => ⟨ofBytes_word_lt h.1, h.2⟩

theorem u64_counted : Spec (Counted bytes) (u64 bytes) (fun _ => Counted bytes) (Stopped bytes) :=
  (take_counted 8).bind fun _ => Spec.pure fun _ h => h.2

theorem opaqueBytes_counted : Spec (Counted bytes) (opaqueBytes bytes)
    (fun data reader => data.length < 2 ^ 32 ∧ Counted bytes reader) (Stopped bytes) := by
  refine u32_counted.bind fun len => Spec.of_and fun hlen => ?_
  refine (take_counted len).bind fun data => Spec.of_and fun hdata => ?_
  exact (take_counted _).bind fun _ => Spec.pure fun _ h => ⟨hdata ▸ hlen, h.2⟩

theorem bytes32_counted : Spec (Counted bytes) (bytes32 bytes) (fun _ => Counted bytes) (Stopped bytes) := by
  refine (take_counted 32).bind fun _ => Spec.of_and fun _ => ?_
  exact (Spec.get? fun _ h => h.stopped).mono (fun _ h => h) fun _ _ h => h.2

theorem address_counted : Spec (Counted bytes) (address bytes) (fun _ => Counted bytes) (Stopped bytes) := by
  refine Spec.bind u32_counted fun kind => Spec.of_and fun _ => ?_
  split
  · refine u32_counted.bind fun key => Spec.of_and fun _ => ?_
    split
    · exact Spec.fail () fun _ h => h.stopped
    · exact bytes32_counted.bind fun _ => Spec.pure fun _ h => h
  · exact bytes32_counted.bind fun _ => Spec.pure fun _ h => h
  · exact Spec.fail () fun _ h => h.stopped

/-- Its bytes have a length that can be written. -/
def ScValue.Short : ScValue → Prop
  | .bytes value => value.length < 2 ^ 32
  | _ => True

theorem present_counted : Spec (Counted bytes) (present bytes) (fun _ => Counted bytes) (Stopped bytes) := by
  refine u32_counted.bind fun flag => Spec.of_and fun _ => ?_
  split
  · exact Spec.fail () fun _ h => h.stopped
  · exact Spec.pure fun _ h => h

theorem scValueTag_counted {next : Tracked XdrReader Unit ScValue}
    (h : Spec (Counted bytes) next (fun v reader => v.Short ∧ Counted bytes reader) (Stopped bytes)) (tag : Nat) :
    Spec (Counted bytes) (scValueTag bytes next tag) (fun v reader => v.Short ∧ Counted bytes reader)
      (Stopped bytes) := by
  have htext : ∀ f : String → ScValue, (∀ value, (f value).Short) → Spec (Counted bytes)
      (do let data ← opaqueBytes bytes; let value ← get? (fromUtf8 data); pure (f value))
      (fun v reader => v.Short ∧ Counted bytes reader) (Stopped bytes) := fun f hf =>
    opaqueBytes_counted.bind fun _ => Spec.of_and fun _ => (Spec.get? fun _ h => h.stopped).bind fun value =>
      Spec.pure fun _ h => ⟨hf value, h.2⟩
  have hpair : Spec (Counted bytes) (pair next) (fun _ reader => True ∧ Counted bytes reader) (Stopped bytes) :=
    h.bind fun _ => Spec.of_and fun _ => h.bind fun _ => Spec.pure fun _ h => ⟨trivial, h.2⟩
  unfold scValueTag
  split
  · exact u32_counted.bind fun _ => Spec.pure fun _ h => ⟨trivial, h.2⟩
  · exact Spec.pure fun _ h => ⟨trivial, h⟩
  · exact u32_counted.bind fun _ => Spec.pure fun _ h => ⟨trivial, h.2⟩
  · exact u64_counted.bind fun _ => Spec.pure fun _ h => ⟨trivial, h⟩
  · exact opaqueBytes_counted.bind fun _ => Spec.pure fun _ h => h
  · exact htext .text fun _ => trivial
  · exact htext .symbol fun _ => trivial
  · refine present_counted.bind fun _ => u32_counted.bind fun len => Spec.of_and fun _ => ?_
    exact (Spec.times h len).bind fun _ => Spec.pure fun _ h => ⟨trivial, h.2⟩
  · refine present_counted.bind fun _ => u32_counted.bind fun len => Spec.of_and fun _ => ?_
    exact (Spec.times hpair len).bind fun _ => Spec.pure fun _ h => ⟨trivial, h.2⟩
  · exact address_counted.bind fun _ => Spec.pure fun _ h => ⟨trivial, h⟩
  · exact Spec.fail () fun _ h => h.stopped

/-- **A call of `sc_value` that comes to a tag consumes the four bytes of it**,
and one that does not ends the whole read. -/
theorem scValue_counted (depth : Nat) : Spec (Counted bytes) (scValue bytes depth)
    (fun v reader => v.Short ∧ Counted bytes reader) (Stopped bytes) := by
  rw [scValue]
  have hstopped : ∀ reader, Progress bytes 1 0 reader → Stopped bytes reader := fun _ h => h.stopped (Nat.le_refl 1)
  refine Spec.bind (Q := fun _ => Progress bytes 1 0) (Spec.update fun reader h => ?_) fun _ => ?_
  · exact ⟨h.consumed, h.within, congrArg (· + 1) h.called⟩
  by_cases hdeep : depth > 8
  · rw [dif_pos hdeep]
    exact Spec.fail () hstopped
  · rw [dif_neg hdeep]
    have htag : Spec (Progress bytes 1 0) (i32 bytes) (fun _ => Progress bytes 1 1) (Stopped bytes) :=
      (take_spec hstopped fun _ h hle => ⟨Nat.add_le_add_right h.consumed 4, hle, h.called⟩).bind fun _ =>
        Spec.pure fun _ h => h.2
    refine htag.bind fun tag => Spec.bind (Q := fun _ => Counted bytes) (Spec.update fun _ h => ?_) fun _ =>
      scValueTag_counted (scValue_counted (depth + 1)) tag
    exact ⟨h.consumed, h.within, h.called⟩
termination_by 9 - depth

/-! ## Queries -/

/-- What a simulation asks for. -/
structure Query where
  contract : Bytes 32
  function : String
  args : List ScArg

def ScArg.value : ScArg → ScValue
  | .address holder => .address holder
  | .u32 value => .u32 value
  | .u64 value => .u64 value
  | .bytes data => .bytes data

namespace Query

def xdr (query : Query) : List UInt8 := envelopeXdr query.contract query.function query.args

def envelope (engine : Base64.Engine) (query : Query) : String :=
  invokeContractEnvelope engine query.contract query.function query.args

/-- Four bytes hold the length of the name and of every byte string, and the
count of the arguments. -/
structure Fits (query : Query) : Prop where
  function : (utf8 query.function).length < 2 ^ 32
  args : query.args.length < 2 ^ 32
  bytes : ∀ data, ScArg.bytes data ∈ query.args → data.length < 2 ^ 32

end Query

/-- Reads an envelope's contract, the name of its function, and its arguments. -/
def readQuery (bytes : List UInt8) : Tracked XdrReader Unit (StellarAddress × List UInt8 × List ScValue) := do
  let _ ← take bytes envelopeHead.length
  let contract ← address bytes
  let function ← opaqueBytes bytes
  let len ← u32 bytes
  let args ← times (scValue bytes 0) len
  pure (contract, function, args)

/-- The reader finds the query in its envelope. -/
def Query.ReadsBack (query : Query) : Prop :=
  ∃ reader, readQuery query.xdr {} =
    (.ok (.contract query.contract, utf8 query.function, query.args.map ScArg.value), reader)

theorem ScArg.value_inj {a b : ScArg} (h : a.value = b.value) : a = b := by
  cases a <;> cases b <;> simp_all [ScArg.value]

theorem xdrScArg_eq (arg : ScArg) : xdrScArg arg = arg.value.encode := by
  cases arg <;> rfl

theorem args_read (hbytes : bytes.length ≤ usizeMax) : ∀ args : List ScArg,
    (∀ data, ScArg.bytes data ∈ args → data.length < 2 ^ 32) →
    List.Forall₂ (fun part a => Tracked.Reads bytes XdrReader.offset (scValue bytes 0) part a) (args.map xdrScArg)
      (args.map ScArg.value)
  | [], _ => .nil
  | arg :: args, h => by
    have hfits : arg.value.Fits := by
      cases arg with
      | bytes data => exact h data List.mem_cons_self
      | address | u32 | u64 => trivial
    have hnest : 0 + arg.value.nesting ≤ 8 := by cases arg <;> exact Nat.zero_le 8
    rw [List.map_cons, List.map_cons, xdrScArg_eq]
    exact .cons (arg.value.reads hbytes 0 hfits hnest)
      (args_read hbytes args fun data hdata => h data (List.mem_cons_of_mem _ hdata))

/-- **A query that fits is read back**, behind whatever it stands in front of. -/
theorem Query.Fits.readsBack {query : Query} (h : query.Fits) (hlen : query.xdr.length ≤ usizeMax) :
    query.ReadsBack := by
  have hargs := Tracked.Reads.times (args_read hlen query.args h.bytes)
  rw [List.length_map] at hargs
  have hread : Tracked.Reads query.xdr XdrReader.offset (readQuery query.xdr)
      (envelopeHead ++ (xdrScAddress (.contract query.contract) ++ (opaqueData (utf8 query.function) ++
        (word query.args.length ++ (query.args.map xdrScArg).flatten))))
      (.contract query.contract, utf8 query.function, query.args.map ScArg.value) :=
    (take_reads hlen envelopeHead).bind ((address_reads hlen _).bind ((opaqueBytes_reads hlen h.function).bind
      ((u32_reads hlen h.args).bind (hargs.map rfl))))
  have hshape : query.xdr = envelopeHead ++ (xdrScAddress (.contract query.contract) ++
      (opaqueData (utf8 query.function) ++ (word query.args.length ++ (query.args.map xdrScArg).flatten))) ++
        envelopeTail := by
    rw [Query.xdr, envelopeXdr, argumentSection]
    simp only [List.append_assoc]
  obtain ⟨reader, hrun, -⟩ := hread {} envelopeTail (Nat.zero_le _) hshape
  exact ⟨reader, hrun⟩

/-- What is read back fits. -/
theorem Query.ReadsBack.fits {query : Query} (h : query.ReadsBack) : query.Fits := by
  obtain ⟨reader, hrun⟩ := h
  have hspec : Spec (Counted query.xdr) (readQuery query.xdr)
      (fun result _ => result.2.1.length < 2 ^ 32 ∧ result.2.2.length < 2 ^ 32 ∧ ∀ v ∈ result.2.2, v.Short)
      (Stopped query.xdr) := by
    refine (take_counted _).bind fun _ => Spec.of_and fun _ => address_counted.bind fun contract => ?_
    refine opaqueBytes_counted.bind fun function => Spec.of_and fun hfunction => ?_
    refine u32_counted.bind fun len => Spec.of_and fun hlen => ?_
    refine (Spec.times (scValue_counted 0) len).bind fun args => Spec.of_and fun hargs => Spec.pure fun _ _ => ?_
    exact ⟨hfunction, hargs.1 ▸ hlen, hargs.2⟩
  obtain ⟨-, hok, -⟩ := hspec {} counted_new
  rw [hrun] at hok
  obtain ⟨hfunction, hargs, hshort⟩ := hok _ rfl
  refine ⟨hfunction, by rwa [List.length_map] at hargs, fun data hdata => ?_⟩
  exact hshort _ (List.mem_map_of_mem hdata)

/-- Queries that are read back from one envelope are one query. -/
theorem Query.ReadsBack.unique {query query' : Query} (h : query.ReadsBack) (h' : query'.ReadsBack)
    (heq : query.xdr = query'.xdr) : query = query' := by
  obtain ⟨reader, hrun⟩ := h
  obtain ⟨reader', hrun'⟩ := h'
  rw [heq, hrun'] at hrun
  have hresult := Except.ok.inj (congrArg Prod.fst hrun)
  simp only [Prod.mk.injEq, StellarAddress.contract.injEq] at hresult
  obtain ⟨hcontract, hfunction, hargs⟩ := hresult
  obtain ⟨contract, function, args⟩ := query
  obtain ⟨contract', function', args'⟩ := query'
  simp only [Query.mk.injEq]
  exact ⟨hcontract.symm, (utf8_inj hfunction).symm,
    (List.map_injective_iff.mpr (fun _ _ h => ScArg.value_inj h) hargs).symm⟩

/-! ## The codec -/

/-- **Every value that nests no deeper than eight is decoded from its encoding.** -/
theorem decodeScValue_encode (engine : Base64.Engine) {v : ScValue} (hfits : v.Fits) (hnest : v.nesting ≤ 8)
    (hlen : v.encode.length ≤ usizeMax) : decodeScValue engine (engine.encode v.encode) = .some v := by
  obtain ⟨reader, hrun, hoffset⟩ := v.reads hlen 0 hfits (by omega) {} [] (Nat.zero_le _) (by simp)
  have hall : reader.offset = v.encode.length := hoffset.trans (Nat.zero_add _)
  rw [decodeScValue, engine.toOption_decode_encode]
  simp only [Option.bind_eq_bind, Option.bind_some, hrun]
  exact if_pos hall

/-- **Of any bytes, a value's tag is read once for every four at most**, and at
most one call more is made. -/
theorem scValue_bounded (bytes : List UInt8) : (scValue bytes 0 {}).1.Returns ∧
    4 * (scValue bytes 0 {}).2.read ≤ bytes.length ∧
    (scValue bytes 0 {}).2.called ≤ (scValue bytes 0 {}).2.read + 1 := by
  have hspec : Spec (Counted bytes) (scValue bytes 0) _ (Stopped bytes) := scValue_counted 0
  obtain ⟨hreturns, hok, herr⟩ := hspec {} counted_new
  have hstopped : Stopped bytes (scValue bytes 0 {}).2 := by
    cases hrun : (scValue bytes 0 {}).1 with
    | ok v => exact Counted.stopped (hok v hrun).2
    | error halt =>
      cases halt with
      | err e => exact herr e hrun
      | panic => exact absurd hrun hreturns.1
      | fuel => exact absurd hrun hreturns.2
  exact ⟨hreturns, Nat.le_trans hstopped.consumed hstopped.within, hstopped.called⟩

/-- What the codec promises, for two queries among all values and bytes. -/
structure CodecHolds (engine : Base64.Engine) (query query' : Query) : Prop where
  roundTrip : ∀ v : ScValue, v.Fits → v.nesting ≤ 8 → v.encode.length ≤ usizeMax →
    decodeScValue engine (engine.encode v.encode) = .some v
  first : query.ReadsBack
  second : query'.ReadsBack
  distinct : query.envelope engine = query'.envelope engine → query = query'
  bounded : ∀ bytes : List UInt8, (scValue bytes 0 {}).1.Returns ∧ 4 * (scValue bytes 0 {}).2.read ≤ bytes.length ∧
    (scValue bytes 0 {}).2.called ≤ (scValue bytes 0 {}).2.read + 1

/-- **The codec holds exactly for queries whose lengths can be written.** -/
theorem codecHolds_iff (engine : Base64.Engine) {query query' : Query} (hlen : query.xdr.length ≤ usizeMax)
    (hlen' : query'.xdr.length ≤ usizeMax) : CodecHolds engine query query' ↔ query.Fits ∧ query'.Fits := by
  constructor
  · intro h
    exact ⟨h.first.fits, h.second.fits⟩
  · rintro ⟨hfits, hfits'⟩
    have hfirst := hfits.readsBack hlen
    have hsecond := hfits'.readsBack hlen'
    exact {
      roundTrip := fun _ => decodeScValue_encode engine
      first := hfirst
      second := hsecond
      distinct := fun h => hfirst.unique hsecond (engine.encode_inj h)
      bounded := scValue_bounded }

/-- Asks the views whether a packet is verifiable. -/
def verifiable (header hash : List UInt8) : Query where
  contract := ⟨List.replicate 32 0, Bytes.length_zeros⟩
  function := "uln_verifiable"
  args := [.bytes header, .bytes hash]

theorem verifiable_codecHolds : CodecHolds .plain (verifiable [1, 2, 3] []) (verifiable [1, 2] [3]) := by
  have hfits : ∀ header hash : List UInt8, header.length < 2 ^ 32 → hash.length < 2 ^ 32 →
      (verifiable header hash).Fits := fun header hash hheader hhash =>
    { function := by simp only [verifiable]; decide
      args := by simp [verifiable]
      bytes := fun data hdata => by
        simp only [verifiable, List.mem_cons, ScArg.bytes.injEq, List.not_mem_nil, or_false] at hdata
        rcases hdata with rfl | rfl
        · exact hheader
        · exact hhash }
  have hlen : (verifiable [1, 2, 3] []).xdr.length ≤ usizeMax := by decide +kernel
  have hlen' : (verifiable [1, 2] [3]).xdr.length ≤ usizeMax := by decide +kernel
  exact (codecHolds_iff .plain hlen hlen').mpr ⟨hfits _ _ (by decide) (by decide), hfits _ _ (by decide) (by decide)⟩

/-- A header of `81 + 2 ^ 32` bytes that swallows a payload hash. -/
theorem verifiable_swallows : ∃ header hash header' hash' : List UInt8,
    header.length = 81 ∧ hash.length = 2 ^ 32 + 32 ∧ header'.length = 81 + 2 ^ 32 ∧ hash'.length = 32 ∧
      verifiable header hash ≠ verifiable header' hash' ∧
      (verifiable header hash).envelope .plain = (verifiable header' hash').envelope .plain := by
  have hwraps : Wraps 81 (2 ^ 32 + 32) (81 + 2 ^ 32) 32 := ⟨by decide, by decide, by decide⟩
  obtain ⟨header, hash, header', hash', hheader, hhash, hheader', hhash', heq⟩ := hwraps.collide (length_word scvBytes)
  refine ⟨header, hash, header', hash', hheader, hhash, hheader', hhash', fun h => ?_, ?_⟩
  · simp only [verifiable, Query.mk.injEq, List.cons.injEq, ScArg.bytes.injEq] at h
    have hlength := congrArg List.length h.2.2.1
    rw [hheader, hheader'] at hlength
    exact absurd hlength (by decide)
  · have hargs : argumentSection [.bytes header, .bytes hash] = argumentSection [.bytes header', .bytes hash'] := by
      simp only [argumentSection, List.map_cons, List.map_nil, xdrScArg, List.flatten_cons, List.flatten_nil,
        List.append_nil, List.append_assoc, heq, List.length_cons, List.length_nil]
    simp only [Query.envelope, verifiable, invokeContractEnvelope, envelopeXdr, hargs]

end Pillar.StellarSimulation
