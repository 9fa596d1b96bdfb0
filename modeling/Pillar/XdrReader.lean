/-
The reader of Stellar's contract values (`pillar-runtime`,
`layerzero_runtime/source_events_stellar.rs`): `XdrReader`.
-/
import Pillar.Reads
import Pillar.Xdr
import Pillar.Utf8
import Pillar.Abi

namespace Pillar.XdrReader

open Text Bits Xdr Tracked
open Abi (Bytes)

variable {α : Type}

/-! ## The code -/

inductive ScVal where
  | bytes (value : List UInt8)
  | symbol (value : String)
  | vec
  | map (values : List (ScVal × ScVal))
  | address (contract : Bool) (bytes : Bytes 32)
  | other

/-- The offset; every offset it was moved to, the depth of every call of
`sc_val_depth` and of every one that went on to read, and every capacity that
was reserved, with the bytes that were left. -/
structure State where
  offset : Nat
  offsets : List Nat := []
  called : List Nat := []
  entered : List Nat := []
  reserved : List (Nat × Nat) := []

def new : State := { offset := 0 }

section

variable (bytes : List UInt8)

def remaining (s : State) : Nat := bytes.length - s.offset

def take (count : Nat) : Tracked State Unit (List UInt8) := do
  let s ← state
  let stop ← get? (checkedAdd s.offset count)
  if stop > bytes.length then fail ()
  else
    update fun s => { s with offset := stop, offsets := s.offsets ++ [stop] }
    pure ((bytes.drop s.offset).take count)

def u32 : Tracked State Unit Nat := do
  let word ← take bytes 4
  pure (ofBytes word)

def u64 : Tracked State Unit Nat := do
  let word ← take bytes 8
  pure (ofBytes word)

def bytesFixed (n : Nat) : Tracked State Unit (Bytes n) := do
  let taken ← take bytes n
  get? (if h : taken.length = n then .some ⟨taken, h⟩ else .none)

def opaqueBytes : Tracked State Unit (List UInt8) := do
  let length ← u32 bytes
  let taken ← take bytes length
  let _ ← take bytes ((4 - length % 4) % 4)
  pure taken

/-- `match self.u32()? { 0 => .., 1 => .., _ => return None }`. -/
def choice (zero one : Tracked State Unit α) : Tracked State Unit α := do
  match ← u32 bytes with
  | 0 => zero
  | 1 => one
  | _ => fail ()

/-- `if count > self.remaining() / size { return None; }`. -/
def guardCount (count size : Nat) : Tracked State Unit Unit := do
  let s ← state
  if count > remaining bytes s / size then fail () else pure ()

/-- `Vec::with_capacity(count)`. -/
def withCapacity (count : Nat) : Tracked State Unit Unit :=
  update fun s => { s with reserved := s.reserved ++ [(count, remaining bytes s)] }

def pair (next : Tracked State Unit ScVal) : Tracked State Unit (ScVal × ScVal) := do
  let key ← next
  let value ← next
  pure (key, value)

/-- The arms of `sc_val_depth`; `next` is its call one level deeper. -/
def scValTag (next : Tracked State Unit ScVal) : Nat → Tracked State Unit ScVal
  | 0 => do
    let _ ← u32 bytes
    pure .other
  | 1 => pure .other
  | 2 => do
    let _ ← u32 bytes
    let _ ← u32 bytes
    pure .other
  | 3 | 4 => do
    let _ ← u32 bytes
    pure .other
  | 5 | 6 | 7 | 8 => do
    let _ ← u64 bytes
    pure .other
  | 9 | 10 => do
    let _ ← take bytes 16
    pure .other
  | 11 | 12 => do
    let _ ← take bytes 32
    pure .other
  | 13 => do
    let value ← opaqueBytes bytes
    pure (.bytes value)
  | 14 => do
    let _ ← opaqueBytes bytes
    pure .other
  | 15 => do
    let value ← opaqueBytes bytes
    let symbol ← get? (fromUtf8 value)
    pure (.symbol symbol)
  | 16 => choice bytes (pure .vec) do
    let count ← u32 bytes
    guardCount bytes count 4
    let _ ← times next count
    pure .vec
  | 17 => choice bytes (pure .other) do
    let count ← u32 bytes
    guardCount bytes count 8
    withCapacity bytes count
    let values ← times (pair next) count
    pure (.map values)
  | 18 => choice bytes
    (do
      let kind ← u32 bytes
      if kind ≠ 0 then fail ()
      else
        let key ← bytesFixed bytes 32
        pure (.address false key))
    (do
      let id ← bytesFixed bytes 32
      pure (.address true id))
  | 19 => do
    choice bytes (do let _ ← take bytes 32; pure ()) (pure ())
    choice bytes (pure ()) do
      let count ← u32 bytes
      guardCount bytes count 8
      let _ ← times (pair next) count
      pure ()
    pure .other
  | 20 => pure .other
  | 21 => do
    let _ ← u64 bytes
    pure .other
  | _ => fail ()

def scValDepth (depth : Nat) : Tracked State Unit ScVal := do
  update fun s => { s with called := s.called ++ [depth] }
  if h : depth > 8 then fail ()
  else
    update fun s => { s with entered := s.entered ++ [depth] }
    let tag ← u32 bytes
    scValTag bytes (scValDepth (depth + 1)) tag
termination_by 9 - depth
decreasing_by omega

def scVal : Tracked State Unit ScVal := scValDepth bytes 0

end

/-! ## Contract values -/

/-- The values of a fixed size that the reader skips. -/
inductive Scalar where
  | bool | void | error | u32 | i32 | u64 | i64 | timepoint | duration | u128 | i128 | u256 | i256
  | ledgerKeyContractInstance | ledgerKeyNonce

def Scalar.tag : Scalar → Nat
  | bool => 0
  | void => 1
  | error => 2
  | u32 => 3
  | i32 => 4
  | u64 => 5
  | i64 => 6
  | timepoint => 7
  | duration => 8
  | u128 => 9
  | i128 => 10
  | u256 => 11
  | i256 => 12
  | ledgerKeyContractInstance => 20
  | ledgerKeyNonce => 21

/-- An error has a type and a code. -/
def Scalar.width : Scalar → Nat
  | void | ledgerKeyContractInstance => 0
  | bool | u32 | i32 => 4
  | error | u64 | i64 | timepoint | duration | ledgerKeyNonce => 8
  | u128 | i128 => 16
  | u256 | i256 => 32

/-- A contract's code: a hash of Wasm, or the built-in asset. -/
inductive Executable where
  | wasm (hash : Bytes 32)
  | stellarAsset

/-- A contract value. A vector, a map and an instance's storage are optional. -/
inductive Val where
  | scalar (kind : Scalar) (payload : Bytes kind.width)
  | bytes (value : List UInt8)
  | string (value : List UInt8)
  | symbol (value : String)
  | noVec
  | vec (items : List Val)
  | noMap
  | map (entries : List (Val × Val))
  | account (key : Bytes 32)
  | contract (id : Bytes 32)
  | bareInstance (executable : Executable)
  | instance (executable : Executable) (storage : List (Val × Val))

def Executable.encode : Executable → List UInt8
  | wasm hash => word 0 ++ hash.val
  | stellarAsset => word 1

mutual

/-- The XDR encoding. -/
def Val.encode : Val → List UInt8
  | .scalar kind payload => word kind.tag ++ payload.val
  | .bytes value => word 13 ++ opaqueData value
  | .string value => word 14 ++ opaqueData value
  | .symbol value => word 15 ++ opaqueData (utf8 value)
  | .noVec => word 16 ++ word 0
  | .vec items => word 16 ++ (word 1 ++ (word items.length ++ (encodeItems items).flatten))
  | .noMap => word 17 ++ word 0
  | .map entries => word 17 ++ (word 1 ++ (word entries.length ++ (encodeEntries entries).flatten))
  | .account key => word 18 ++ (word 0 ++ (word 0 ++ key.val))
  | .contract id => word 18 ++ (word 1 ++ id.val)
  | .bareInstance executable => word 19 ++ (executable.encode ++ word 0)
  | .instance executable storage =>
    word 19 ++ (executable.encode ++ (word 1 ++ (word storage.length ++ (encodeEntries storage).flatten)))

def encodeItems : List Val → List (List UInt8)
  | [] => []
  | item :: rest => item.encode :: encodeItems rest

def encodeEntries : List (Val × Val) → List (List UInt8)
  | [] => []
  | (key, value) :: rest => (key.encode ++ value.encode) :: encodeEntries rest

end

mutual

/-- What the reader keeps of a value. -/
def Val.project : Val → ScVal
  | .bytes value => .bytes value
  | .symbol value => .symbol value
  | .noVec | .vec _ => .vec
  | .map entries => .map (projectEntries entries)
  | .account key => .address false key
  | .contract id => .address true id
  | .scalar _ _ | .string _ | .noMap | .bareInstance _ | .instance _ _ => .other

def projectEntries : List (Val × Val) → List (ScVal × ScVal)
  | [] => []
  | (key, value) :: rest => (key.project, value.project) :: projectEntries rest

end

mutual

/-- How deep containers nest. -/
def Val.nesting : Val → Nat
  | .vec items => nestingOfItems items + 1
  | .map entries | .instance _ entries => nestingOfEntries entries + 1
  | .scalar _ _ | .bytes _ | .string _ | .symbol _ | .noVec | .noMap | .account _ | .contract _ | .bareInstance _ => 0

def nestingOfItems : List Val → Nat
  | [] => 0
  | item :: rest => max item.nesting (nestingOfItems rest)

def nestingOfEntries : List (Val × Val) → Nat
  | [] => 0
  | (key, value) :: rest => max (max key.nesting value.nesting) (nestingOfEntries rest)

end

mutual

/-- Every length and every count has four bytes to be written in. -/
def Val.Fits : Val → Prop
  | .bytes value | .string value => value.length < 2 ^ 32
  | .symbol value => (utf8 value).length < 2 ^ 32
  | .vec items => items.length < 2 ^ 32 ∧ FitItems items
  | .map entries | .instance _ entries => entries.length < 2 ^ 32 ∧ FitEntries entries
  | .scalar _ _ | .noVec | .noMap | .account _ | .contract _ | .bareInstance _ => True

def FitItems : List Val → Prop
  | [] => True
  | item :: rest => item.Fits ∧ FitItems rest

def FitEntries : List (Val × Val) → Prop
  | [] => True
  | (key, value) :: rest => (key.Fits ∧ value.Fits) ∧ FitEntries rest

end

/-! ## Any input -/

variable {bytes : List UInt8}

/-- The reader stays in its input, goes at most nine levels deep, and reserves
no more than what is left can hold. -/
structure Sane (bytes : List UInt8) (s : State) : Prop where
  offset : s.offset ≤ bytes.length
  offsets : ∀ o ∈ s.offsets, o ≤ bytes.length
  called : ∀ d ∈ s.called, d ≤ 9
  entered : ∀ d ∈ s.entered, d ≤ 8
  reserved : ∀ r ∈ s.reserved, r.1 ≤ r.2 / 8 ∧ r.2 ≤ bytes.length

theorem sane_new : Sane bytes new where
  offset := Nat.zero_le _
  offsets := by simp [new]
  called := by simp [new]
  entered := by simp [new]
  reserved := by simp [new]

theorem forall_mem_concat {P : α → Prop} {l : List α} {a : α} (h : ∀ b ∈ l, P b) (ha : P a) : ∀ b ∈ l ++ [a], P b := by
  intro b hb
  rcases List.mem_append.mp hb with hb | hb
  · exact h b hb
  · rwa [List.mem_singleton.mp hb]

theorem take_keeps (count : Nat) : Keeps (Sane bytes) (take bytes count) := by
  refine (Spec.state.bind fun s => (Spec.get? fun _ h => h.2).bind fun stop => ?_)
  by_cases hstop : stop > bytes.length
  · rw [if_pos hstop]
    exact Spec.fail () fun _ h => h.2.2
  · rw [if_neg hstop]
    refine Spec.bind (Q := fun _ => Sane bytes) (Spec.update fun t ht => ?_) fun _ => Spec.pure fun _ h => h
    obtain ⟨-, -, hsane⟩ := ht
    exact { hsane with offset := not_lt.mp hstop, offsets := forall_mem_concat hsane.offsets (not_lt.mp hstop) }

theorem u32_keeps : Keeps (Sane bytes) (u32 bytes) := (take_keeps 4).bind fun _ => Keeps.pure

theorem u64_keeps : Keeps (Sane bytes) (u64 bytes) := (take_keeps 8).bind fun _ => Keeps.pure

theorem bytesFixed_keeps (n : Nat) : Keeps (Sane bytes) (bytesFixed bytes n) :=
  (take_keeps n).bind fun _ => Keeps.get? _

theorem opaqueBytes_keeps : Keeps (Sane bytes) (opaqueBytes bytes) :=
  u32_keeps.bind fun _ => (take_keeps _).bind fun _ => (take_keeps _).bind fun _ => Keeps.pure

theorem choice_keeps {zero one : Tracked State Unit α} (hzero : Keeps (Sane bytes) zero)
    (hone : Keeps (Sane bytes) one) : Keeps (Sane bytes) (choice bytes zero one) := by
  refine u32_keeps.bind fun flag => ?_
  split
  · exact hzero
  · exact hone
  · exact Keeps.fail ()

theorem guardCount_spec (count size : Nat) : Spec (Sane bytes) (guardCount bytes count size)
    (fun _ s => count ≤ remaining bytes s / size ∧ Sane bytes s) (Sane bytes) := by
  refine Spec.state.bind fun s => ?_
  by_cases h : count > remaining bytes s / size
  · rw [if_pos h]
    exact Spec.fail () fun _ h => h.2
  · rw [if_neg h]
    refine Spec.pure fun t ht => ?_
    obtain ⟨rfl, hsane⟩ := ht
    exact ⟨not_lt.mp h, hsane⟩

theorem guardCount_keeps (count size : Nat) : Keeps (Sane bytes) (guardCount bytes count size) :=
  (guardCount_spec count size).mono (fun _ h => h) fun _ _ h => h.2

/-- What is reserved right behind the guard fits what is left. -/
theorem reserve_keeps {count : Nat} {rest : Tracked State Unit α} (h : Keeps (Sane bytes) rest) :
    Keeps (Sane bytes) (do guardCount bytes count 8; withCapacity bytes count; rest) := by
  refine (guardCount_spec count 8).bind fun _ => Spec.bind (Q := fun _ => Sane bytes) ?_ fun _ => h
  refine Spec.update fun s hs => ?_
  obtain ⟨hcount, hsane⟩ := hs
  exact { hsane with reserved := forall_mem_concat hsane.reserved ⟨hcount, Nat.sub_le _ _⟩ }

theorem pair_keeps {next : Tracked State Unit ScVal} (h : Keeps (Sane bytes) next) :
    Keeps (Sane bytes) (pair next) :=
  h.bind fun _ => h.bind fun _ => Keeps.pure

theorem scValTag_keeps {next : Tracked State Unit ScVal} (h : Keeps (Sane bytes) next) (tag : Nat) :
    Keeps (Sane bytes) (scValTag bytes next tag) := by
  have hother : ∀ {β : Type} {x : Tracked State Unit β}, Keeps (Sane bytes) x →
      Keeps (Sane bytes) (do let _ ← x; pure ScVal.other) := fun hx => hx.bind fun _ => Keeps.pure
  have htimes : ∀ {β : Type} {x : Tracked State Unit β} (count size : Nat), Keeps (Sane bytes) x →
      Keeps (Sane bytes) (do guardCount bytes count size; let _ ← times x count; pure ()) := fun count size hx =>
    (guardCount_keeps count size).bind fun _ => (hx.times count).bind fun _ => Keeps.pure
  unfold scValTag
  split
  · exact hother u32_keeps
  · exact Keeps.pure
  · exact u32_keeps.bind fun _ => hother u32_keeps
  · exact hother u32_keeps
  · exact hother u32_keeps
  · exact hother u64_keeps
  · exact hother u64_keeps
  · exact hother u64_keeps
  · exact hother u64_keeps
  · exact hother (take_keeps 16)
  · exact hother (take_keeps 16)
  · exact hother (take_keeps 32)
  · exact hother (take_keeps 32)
  · exact opaqueBytes_keeps.bind fun _ => Keeps.pure
  · exact hother opaqueBytes_keeps
  · exact opaqueBytes_keeps.bind fun _ => (Keeps.get? _).bind fun _ => Keeps.pure
  · exact choice_keeps Keeps.pure (u32_keeps.bind fun count => (guardCount_keeps count 4).bind fun _ =>
      (h.times count).bind fun _ => Keeps.pure)
  · exact choice_keeps Keeps.pure (u32_keeps.bind fun count => reserve_keeps
      (((pair_keeps h).times count).bind fun _ => Keeps.pure))
  · refine choice_keeps (u32_keeps.bind fun kind => ?_) ((bytesFixed_keeps 32).bind fun _ => Keeps.pure)
    split
    · exact Keeps.fail ()
    · exact (bytesFixed_keeps 32).bind fun _ => Keeps.pure
  · refine (choice_keeps ((take_keeps 32).bind fun _ => Keeps.pure) Keeps.pure).bind fun _ => ?_
    exact hother (choice_keeps Keeps.pure (u32_keeps.bind fun count => htimes count 8 (pair_keeps h)))
  · exact Keeps.pure
  · exact hother u64_keeps
  · exact Keeps.fail ()

theorem scValDepth_keeps (depth : Nat) (h : depth ≤ 9) : Keeps (Sane bytes) (scValDepth bytes depth) := by
  rw [scValDepth]
  refine (Keeps.update fun s hs => { hs with called := forall_mem_concat hs.called h }).bind fun _ => ?_
  by_cases hdeep : depth > 8
  · rw [dif_pos hdeep]
    exact Keeps.fail ()
  · rw [dif_neg hdeep]
    have hentered := not_lt.mp hdeep
    refine (Keeps.update fun s hs => { hs with entered := forall_mem_concat hs.entered hentered }).bind fun _ => ?_
    exact u32_keeps.bind fun tag => scValTag_keeps (scValDepth_keeps (depth + 1) (by omega)) tag
termination_by 9 - depth

/-! ## An encoding -/

theorem take_reads (hbytes : bytes.length ≤ usizeMax) (part : List UInt8) :
    Tracked.Reads bytes State.offset (take bytes part.length) part part := by
  intro s rest hle hdrop
  have hstop := add_length_le_of_drop hle hdrop
  have htaken : (bytes.drop s.offset).take part.length = part := by rw [hdrop, List.take_left]
  refine ⟨{ s with offset := s.offset + part.length, offsets := s.offsets ++ [s.offset + part.length] }, ?_, rfl⟩
  rw [take, state_bind, checkedAdd_of_le (by omega), get?_some_bind, if_neg (by omega), update_bind, htaken]
  rfl

theorem u32_reads (hbytes : bytes.length ≤ usizeMax) {n : Nat} (h : n < 2 ^ 32) :
    Tracked.Reads bytes State.offset (u32 bytes) (word n) n := by
  have htake := take_reads hbytes (word n)
  rw [length_word] at htake
  exact htake.map (by rw [word, ofBytes_bytesOf h])

theorem skip_reads (hbytes : bytes.length ≤ usizeMax) {n : Nat} (part : Bytes n) :
    Tracked.Reads bytes State.offset (take bytes n) part.val part.val := by
  have htake := take_reads hbytes part.val
  rwa [part.property] at htake

theorem bytesFixed_reads (hbytes : bytes.length ≤ usizeMax) {n : Nat} (part : Bytes n) :
    Tracked.Reads bytes State.offset (bytesFixed bytes n) part.val part :=
  (skip_reads hbytes part).map (by rw [dif_pos part.property]; rfl)

theorem opaqueBytes_reads (hbytes : bytes.length ≤ usizeMax) {value : List UInt8} (h : value.length < 2 ^ 32) :
    Tracked.Reads bytes State.offset (opaqueBytes bytes) (opaqueData value) value := by
  have hpadding := take_reads hbytes (List.replicate (padding value.length) 0)
  rw [List.length_replicate] at hpadding
  rw [opaqueData, List.append_assoc]
  exact (u32_reads hbytes h).bind ((take_reads hbytes value).bind (hpadding.map rfl))

theorem choice_zero (hbytes : bytes.length ≤ usizeMax) {zero one : Tracked State Unit α} {part : List UInt8} {a : α}
    (h : Tracked.Reads bytes State.offset zero part a) :
    Tracked.Reads bytes State.offset (choice bytes zero one) (word 0 ++ part) a :=
  (u32_reads hbytes (by decide)).bind h

theorem choice_one (hbytes : bytes.length ≤ usizeMax) {zero one : Tracked State Unit α} {part : List UInt8} {a : α}
    (h : Tracked.Reads bytes State.offset one part a) :
    Tracked.Reads bytes State.offset (choice bytes zero one) (word 1 ++ part) a :=
  (u32_reads hbytes (by decide)).bind h

/-- Nothing behind the flag. -/
theorem choice_none (hbytes : bytes.length ≤ usizeMax) {zero one : Tracked State Unit α} {a : α}
    (h : Tracked.Reads bytes State.offset zero [] a) :
    Tracked.Reads bytes State.offset (choice bytes zero one) (word 0) a := by
  have hzero : Tracked.Reads bytes State.offset (choice bytes zero one) (word 0 ++ []) a := choice_zero hbytes h
  rwa [List.append_nil] at hzero

/-- **The guard rejects no part** that has room for every item. -/
theorem guardCount_reads {count size : Nat} {rest : Tracked State Unit α} {part : List UInt8} {a : α} (hpos : 0 < size)
    (hpart : count * size ≤ part.length) (h : Tracked.Reads bytes State.offset rest part a) :
    Tracked.Reads bytes State.offset (do guardCount bytes count size; rest) part a := by
  intro s more hle hdrop
  have hstop := add_length_le_of_drop hle hdrop
  have hcount : ¬ count > remaining bytes s / size := by
    rw [not_lt, Nat.le_div_iff_mul_le hpos, remaining]
    omega
  have hguard : guardCount bytes count size s = (.ok (), s) := by
    rw [guardCount, state_bind, if_neg hcount]
    rfl
  rw [bind_of_ok hguard]
  exact h s more hle hdrop

theorem Val.four_le_encode (v : Val) : 4 ≤ v.encode.length := by
  cases v <;> simp only [Val.encode, List.length_append, length_word] <;> omega

theorem encodeItems_length : ∀ items : List Val, items.length * 4 ≤ (encodeItems items).flatten.length
  | [] => Nat.zero_le _
  | item :: rest => by
    have hrest := encodeItems_length rest
    have hitem := item.four_le_encode
    rw [encodeItems, List.flatten_cons, List.length_append, List.length_cons]
    omega

theorem encodeEntries_length : ∀ entries : List (Val × Val), entries.length * 8 ≤ (encodeEntries entries).flatten.length
  | [] => Nat.zero_le _
  | (key, value) :: rest => by
    have hrest := encodeEntries_length rest
    have hkey := key.four_le_encode
    have hvalue := value.four_le_encode
    rw [encodeEntries, List.flatten_cons, List.length_append, List.length_append, List.length_cons]
    omega

theorem projectEntries_length : ∀ entries : List (Val × Val), (projectEntries entries).length = entries.length
  | [] => rfl
  | (_, _) :: rest => by rw [projectEntries, List.length_cons, List.length_cons, projectEntries_length rest]

/-- A tag, and what its arm reads. -/
theorem scValDepth_reads (hbytes : bytes.length ≤ usizeMax) {depth tag : Nat} {part : List UInt8} {a : ScVal}
    (hdepth : depth ≤ 8) (htag : tag < 2 ^ 32)
    (h : Tracked.Reads bytes State.offset (scValTag bytes (scValDepth bytes (depth + 1)) tag) part a) :
    Tracked.Reads bytes State.offset (scValDepth bytes depth) (word tag ++ part) a := by
  rw [scValDepth]
  refine Tracked.Reads.update (fun _ => rfl) ?_
  rw [dif_neg (not_lt.mpr hdepth)]
  exact Tracked.Reads.update (fun _ => rfl) ((u32_reads hbytes htag).bind h)

/-- Every scalar is as wide as its arm skips. -/
theorem scalar_reads (hbytes : bytes.length ≤ usizeMax) {next : Tracked State Unit ScVal} (kind : Scalar)
    (payload : Bytes kind.width) :
    Tracked.Reads bytes State.offset (scValTag bytes next kind.tag) payload.val .other := by
  have hnone : ∀ part : Bytes 0, part.val = [] := fun part => List.length_eq_zero_iff.mp part.property
  have hu32 : ∀ part : Bytes 4, Tracked.Reads bytes State.offset (u32 bytes) part.val (ofBytes part.val) :=
    fun part => (skip_reads hbytes part).map rfl
  have hu64 : ∀ part : Bytes 8, Tracked.Reads bytes State.offset (u64 bytes) part.val (ofBytes part.val) :=
    fun part => (skip_reads hbytes part).map rfl
  cases kind with
  | void | ledgerKeyContractInstance => rw [hnone payload]; exact Tracked.Reads.pure
  | bool | u32 | i32 => exact (hu32 payload).map rfl
  | u64 | i64 | timepoint | duration | ledgerKeyNonce => exact (hu64 payload).map rfl
  | u128 | i128 | u256 | i256 => exact (skip_reads hbytes payload).map rfl
  | error =>
    have hlength : payload.val.length = 8 := payload.property
    rw [← List.take_append_drop 4 payload.val]
    exact (hu32 ⟨payload.val.take 4, by rw [List.length_take, hlength]; rfl⟩).bind
      ((hu32 ⟨payload.val.drop 4, by rw [List.length_drop, hlength]⟩).map rfl)

theorem Executable.reads (hbytes : bytes.length ≤ usizeMax) (executable : Executable) :
    Tracked.Reads bytes State.offset (choice bytes (do let _ ← take bytes 32; pure ()) (pure ()))
      executable.encode () := by
  cases executable with
  | wasm hash => exact choice_zero hbytes ((skip_reads hbytes hash).map rfl)
  | stellarAsset =>
    have hone : Tracked.Reads bytes State.offset (choice bytes (do let _ ← take bytes 32; pure ()) (pure ()))
        (word 1 ++ []) () := choice_one hbytes Tracked.Reads.pure
    rwa [List.append_nil] at hone

theorem pair_reads {next : Tracked State Unit ScVal} {key value : List UInt8} {k v : ScVal}
    (hkey : Tracked.Reads bytes State.offset next key k) (hvalue : Tracked.Reads bytes State.offset next value v) :
    Tracked.Reads bytes State.offset (pair next) (key ++ value) (k, v) :=
  hkey.bind (hvalue.map rfl)

mutual

/-- **A value is read** wherever it is not too deep. -/
theorem Val.reads (hbytes : bytes.length ≤ usizeMax) : ∀ (v : Val) (depth : Nat), v.Fits → depth + v.nesting ≤ 8 →
    Tracked.Reads bytes State.offset (scValDepth bytes depth) v.encode v.project
  | .scalar kind payload, depth, _, hnest => by
    rw [Val.encode, Val.project]
    exact scValDepth_reads hbytes hnest (by cases kind <;> decide) (scalar_reads hbytes kind payload)
  | .bytes value, depth, hfits, hnest =>
    scValDepth_reads hbytes hnest (by decide) ((opaqueBytes_reads hbytes hfits).map rfl)
  | .string value, depth, hfits, hnest =>
    scValDepth_reads hbytes hnest (by decide) ((opaqueBytes_reads hbytes hfits).map rfl)
  | .symbol value, depth, hfits, hnest =>
    scValDepth_reads hbytes hnest (by decide) ((opaqueBytes_reads hbytes hfits).map (by rw [fromUtf8_utf8]; rfl))
  | .noVec, depth, _, hnest => scValDepth_reads hbytes hnest (by decide) (choice_none hbytes Tracked.Reads.pure)
  | .vec items, depth, hfits, hnest => by
    obtain ⟨hcount, hfits⟩ := hfits
    have hnest : depth + nestingOfItems items + 1 ≤ 8 := hnest
    have hitems := items_reads hbytes items (depth + 1) hfits (by omega)
    rw [Val.encode, Val.project]
    refine scValDepth_reads hbytes (by omega) (by decide) (choice_one hbytes ((u32_reads hbytes hcount).bind ?_))
    refine guardCount_reads (by decide) (encodeItems_length items) ?_
    have htimes := Tracked.Reads.times hitems
    rw [List.length_map] at htimes
    exact htimes.map rfl
  | .noMap, depth, _, hnest => scValDepth_reads hbytes hnest (by decide) (choice_none hbytes Tracked.Reads.pure)
  | .map entries, depth, hfits, hnest => by
    obtain ⟨hcount, hfits⟩ := hfits
    have hnest : depth + nestingOfEntries entries + 1 ≤ 8 := hnest
    have htimes := Tracked.Reads.times (entries_reads hbytes entries (depth + 1) hfits (by omega))
    rw [projectEntries_length] at htimes
    rw [Val.encode, Val.project]
    refine scValDepth_reads hbytes (by omega) (by decide) (choice_one hbytes ((u32_reads hbytes hcount).bind ?_))
    exact guardCount_reads (by decide) (encodeEntries_length entries)
      (Tracked.Reads.update (fun _ => rfl) (htimes.map rfl))
  | .account key, depth, _, hnest => by
    exact scValDepth_reads hbytes hnest (by decide) (choice_zero hbytes ((u32_reads hbytes (by decide)).bind
      ((bytesFixed_reads hbytes key).map rfl)))
  | .contract id, depth, _, hnest =>
    scValDepth_reads hbytes hnest (by decide) (choice_one hbytes ((bytesFixed_reads hbytes id).map rfl))
  | .bareInstance executable, depth, _, hnest =>
    scValDepth_reads hbytes hnest (by decide)
      ((executable.reads hbytes).bind ((choice_none hbytes Tracked.Reads.pure).map rfl))
  | .instance executable storage, depth, hfits, hnest => by
    obtain ⟨hcount, hfits⟩ := hfits
    have hnest : depth + nestingOfEntries storage + 1 ≤ 8 := hnest
    have htimes := Tracked.Reads.times (entries_reads hbytes storage (depth + 1) hfits (by omega))
    rw [projectEntries_length] at htimes
    rw [Val.encode, Val.project]
    refine scValDepth_reads hbytes (by omega) (by decide) ((executable.reads hbytes).bind ?_)
    exact (choice_one hbytes ((u32_reads hbytes hcount).bind
      (guardCount_reads (by decide) (encodeEntries_length storage) (htimes.map (b := ()) rfl)))).map rfl

theorem items_reads (hbytes : bytes.length ≤ usizeMax) : ∀ (items : List Val) (depth : Nat), FitItems items →
    depth + nestingOfItems items ≤ 8 →
    List.Forall₂ (fun part a => Tracked.Reads bytes State.offset (scValDepth bytes depth) part a) (encodeItems items)
      (items.map Val.project)
  | [], _, _, _ => .nil
  | item :: rest, depth, hfits, hnest => by
    have hnest : depth + max item.nesting (nestingOfItems rest) ≤ 8 := hnest
    exact .cons (item.reads hbytes depth hfits.1 (by omega)) (items_reads hbytes rest depth hfits.2 (by omega))

theorem entries_reads (hbytes : bytes.length ≤ usizeMax) : ∀ (entries : List (Val × Val)) (depth : Nat),
    FitEntries entries → depth + nestingOfEntries entries ≤ 8 →
    List.Forall₂ (fun part a => Tracked.Reads bytes State.offset (pair (scValDepth bytes depth)) part a)
      (encodeEntries entries) (projectEntries entries)
  | [], _, _, _ => .nil
  | (key, value) :: rest, depth, hfits, hnest => by
    have hnest : depth + max (max key.nesting value.nesting) (nestingOfEntries rest) ≤ 8 := hnest
    have hkey := key.reads hbytes depth hfits.1.1 (by omega)
    have hvalue := value.reads hbytes depth hfits.1.2 (by omega)
    exact .cons (pair_reads hkey hvalue) (entries_reads hbytes rest depth hfits.2 (by omega))

end

/-- **The reader consumes exactly one value**, and of any bytes whatever it stays
within its input, its levels and what the bytes that are left can hold. -/
theorem scVal_consumes_one {bytes : List UInt8} (hbytes : bytes.length ≤ usizeMax) :
    (∀ (v : Val) (trailing : List UInt8), v.Fits → v.nesting ≤ 8 → bytes = v.encode ++ trailing →
      ∃ s, scVal bytes new = (.ok v.project, s) ∧ s.offset = v.encode.length) ∧
    ((scVal bytes new).1.Returns ∧ Sane bytes (scVal bytes new).2) := by
  refine ⟨?_, ?_⟩
  · intro v trailing hfits hnest hencode
    obtain ⟨s, hrun, hoffset⟩ := v.reads hbytes 0 hfits (by omega) new trailing (Nat.zero_le _) hencode
    refine ⟨s, hrun, hoffset.trans (Nat.zero_add _)⟩
  · have hnew : Sane bytes new := sane_new
    obtain ⟨hreturns, hok, herr⟩ := scValDepth_keeps 0 (Nat.zero_le _) new hnew
    refine ⟨hreturns, ?_⟩
    rw [scVal]
    cases hrun : (scValDepth bytes 0 new).1 with
    | ok v => exact hok v hrun
    | error halt =>
      cases halt with
      | err e => exact herr e hrun
      | panic => exact absurd hrun hreturns.1
      | fuel => exact absurd hrun hreturns.2

/-- A map from a symbol to a vector of bytes, with one byte behind it. -/
def sampleVal : Val := .map [(.symbol "id", .vec [.bytes [1, 2, 3]])]

theorem scVal_consumes_one_sample :
    (∃ s, scVal (sampleVal.encode ++ [7]) new = (.ok (.map [(.symbol "id", .vec)]), s) ∧ s.offset = 48) ∧
      Sane (sampleVal.encode ++ [7]) (scVal (sampleVal.encode ++ [7]) new).2 := by
  have hlength : sampleVal.encode.length = 48 := by decide +kernel
  have hbytes : (sampleVal.encode ++ [7]).length ≤ usizeMax := by
    rw [List.length_append, hlength]
    decide
  obtain ⟨hread, -, hsane⟩ := scVal_consumes_one hbytes
  have hsymbol : (Val.symbol "id").Fits := show (utf8 "id").length < 2 ^ 32 by decide
  have hitem : (Val.bytes [1, 2, 3]).Fits := show 3 < 2 ^ 32 by decide
  obtain ⟨s, hrun, hoffset⟩ := hread sampleVal [7] ⟨by decide, ⟨hsymbol, by decide, hitem, trivial⟩, trivial⟩
    (by decide) rfl
  exact ⟨⟨s, hrun, hoffset.trans hlength⟩, hsane⟩

end Pillar.XdrReader
