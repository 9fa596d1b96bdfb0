/-
The options of a sent packet (`pillar-runtime`, `layerzero_runtime/relayer_options.rs`),
decoded as the upstream extractor does.
-/
import Pillar.Bits
import Pillar.Hex
import Pillar.Json

namespace Pillar.RelayerOptions

open Bits Hex Text

/-- By worker, in the order of their first option: the options' types and parameters. -/
abbrev Options := List (Nat × List (Nat × List UInt8))

/-- `Uint8Array.prototype.slice`: bounds outside are clamped. -/
def jsSlice (bytes : List UInt8) (start stop : Int) : List UInt8 :=
  let start := (start.toNat).min bytes.length
  let stop := (stop.toNat).min bytes.length
  if stop ≤ start then [] else (bytes.drop start).take (stop - start)

def big (bytes : List UInt8) : Except String Nat :=
  if bytes.isEmpty then
    .error ("invalid BigNumber string (argument=\"value\", value=\"0x\", code=INVALID_ARGUMENT, " ++
      "version=bignumber/5.8.0)")
  else .ok (ofBytes bytes)

def number (bytes : List UInt8) : Except String Nat := do
  let n ← big bytes
  if n < 2 ^ 64 then .ok n else .error "overflow"

def addOption (options : Options) (workerId optionType : Nat) (params : List UInt8) : Options :=
  match options with
  | [] => [(workerId, [(optionType, params)])]
  | (id, list) :: rest =>
    if id = workerId then (id, list ++ [(optionType, params)]) :: rest
    else (id, list) :: addOption rest workerId optionType params

def u128Bytes (value : Nat) (name : String) : Except String (List UInt8) :=
  let bytes := toBytesBe value
  if bytes.length > 16 then .error s!"Invariant failed: {name} shouldn't be greater than MAX_UINT_128"
  else .ok (List.replicate (16 - bytes.length) 0 ++ bytes)

/-- One option of type 3: the options with it, and where the next starts. -/
def readOption (bytes : List UInt8) (cursor : Int) (options : Options) (workerId size : Nat) :
    Except String (Int × Options) :=
  if workerId = 1 then do
    let optionType ← number (jsSlice bytes cursor (cursor + 1))
    let cursor := cursor + 1
    let params := jsSlice bytes cursor (cursor + size - 1)
    .ok (cursor + (size - 1), addOption options 1 optionType params)
  else if workerId = 2 then do
    let _ ← number (jsSlice bytes cursor (cursor + 1))
    let cursor := cursor + 1
    let optionType ← number (jsSlice bytes cursor (cursor + 1))
    let cursor := cursor + 1
    let params := jsSlice bytes cursor (cursor + size - 2)
    .ok (cursor + (size - 2), addOption options 2 optionType params)
  else .ok (cursor, options)

theorem readOption_le {bytes : List UInt8} {cursor cursor' : Int} {options options' : Options} {workerId size : Nat}
    (h : readOption bytes cursor options workerId size = .ok (cursor', options')) : cursor ≤ cursor' := by
  unfold readOption at h
  split at h
  · cases hn : number (jsSlice bytes cursor (cursor + 1)) with
    | error e => rw [hn] at h; cases h
    | ok n =>
      rw [hn] at h
      cases h
      omega
  · split at h
    · cases hn : number (jsSlice bytes cursor (cursor + 1)) with
      | error e => rw [hn] at h; cases h
      | ok n =>
        cases hm : number (jsSlice bytes (cursor + 1) (cursor + 1 + 1)) with
        | error e => simp only [hn, hm] at h; cases h
        | ok m =>
          simp only [hn, hm] at h
          cases h
          omega
    · cases h
      exact le_rfl

/-- `while cursor < len`. -/
def readOptions (bytes : List UInt8) (cursor : Int) (options : Options) : Except String Options :=
  if cursor < bytes.length then
    match number (jsSlice bytes cursor (cursor + 1)) with
    | .error e => .error e
    | .ok workerId =>
      match number (jsSlice bytes (cursor + 1) (cursor + 3)) with
      | .error e => .error e
      | .ok size =>
        match _hnext : readOption bytes (cursor + 3) options workerId size with
        | .error e => .error e
        | .ok (cursor', options) => readOptions bytes cursor' options
  else .ok options
termination_by (bytes.length - cursor).toNat
decreasing_by
  have := readOption_le ‹_›
  omega

/-- `Options.fromOptions`. -/
def fromOptions (bytes : List UInt8) : Except String Options := do
  let kind ← number (jsSlice bytes 0 2)
  if kind = 3 then readOptions bytes 2 []
  else if kind = 2 then
    let gas ← big (jsSlice bytes 2 34)
    let amount ← big (jsSlice bytes 34 66)
    let receiver := jsSlice bytes 66 bytes.length
    let gas ← u128Bytes gas "gasLimit"
    let options := addOption [] 1 1 gas
    if receiver.length > 32 then .error "Invalid address"
    else
      let params ← u128Bytes amount "nativeDrop"
      .ok (addOption options 1 2 (params ++ List.replicate (32 - receiver.length) 0 ++ receiver))
  else if kind = 1 then
    let gas ← big (jsSlice bytes 2 34)
    let gas ← u128Bytes gas "gasLimit"
    .ok (addOption [] 1 1 gas)
  else .ok []

def executorOptions (options : Options) (optionType : Nat) : List (List UInt8) :=
  match options.find? (·.1 = 1) with
  | .some (_, list) => (list.filter (·.1 = optionType)).map Prod.snd
  | .none => []

/-- The chains of 32-byte addresses that are written as padded hex. -/
def wideChains : List String :=
  ["aptos", "movement", "initia", "ton", "sui", "iotal1", "starknet", "stellar", "canton"]

def nativeDropReceiver (hex : HexCrate) (bs58Encode : List UInt8 → String) (dstChainName : String)
    (receiver : List UInt8) : String :=
  if dstChainName = "solana" then bs58Encode receiver
  else
    let padded := padLeft 64 (hex.encode receiver)
    if dstChainName ∈ wideChains then "0x" ++ padded
    else "0x" ++ String.ofList (padded.toList.drop 24)

def destinationAddressSize (chainName : String) : Nat :=
  if chainName = "solana" ∨ chainName ∈ wideChains then 32 else 20

/-- The gas and value of the `lzReceive` options, if there are any. -/
def sumReceive (receive : List (List UInt8)) : Except String (Option (Nat × Nat)) :=
  if receive.isEmpty then .ok .none
  else .some <$> receive.foldlM (fun (gas, value) params => do
    let gas := gas + (← big (jsSlice params 0 16))
    if params.length ≠ 16 then .ok (gas, value + (← big (jsSlice params 16 32))) else .ok (gas, value)) (0, 0)

/-- The amounts of the native drops, by receiver in the order of first drops. -/
def addDrop (drops : List (List UInt8 × Nat)) (receiver : List UInt8) (amount : Nat) : List (List UInt8 × Nat) :=
  match drops with
  | [] => [(receiver, amount)]
  | (r, total) :: rest =>
    if r = receiver then (r, total + amount) :: rest else (r, total) :: addDrop rest receiver amount

def sumDrops (options : List (List UInt8)) : Except String (List (List UInt8 × Nat)) :=
  options.foldlM (fun drops params => do
    let amount ← big (jsSlice params 0 16)
    .ok (addDrop drops (jsSlice params 16 48) amount)) []

/-- A `BTreeMap`'s entry: the list stays in the order of its keys. -/
def addCompose (composes : List (Nat × Nat × Nat)) (index gas value : Nat) : List (Nat × Nat × Nat) :=
  match composes with
  | [] => [(index, gas, value)]
  | (i, g, v) :: rest =>
    if index < i then (index, gas, value) :: (i, g, v) :: rest
    else if i = index then (i, g + gas, v + value) :: rest
    else (i, g, v) :: addCompose rest index gas value

def sumComposes (options : List (List UInt8)) : Except String (List (Nat × Nat × Nat)) :=
  options.foldlM (fun composes params => do
    let index ← number (jsSlice params 0 2)
    let gas ← big (jsSlice params 2 18)
    let value ← if params.length = 34 then big (jsSlice params 18 34) else .ok 0
    .ok (addCompose composes index gas value)) []

/-- Gas, size and value of the read options, if there are any. -/
def sumRead (read : List (List UInt8)) : Except String (Option (Nat × Nat × Nat)) :=
  if read.isEmpty then .ok .none
  else .some <$> read.foldlM (fun (gas, size, value) params => do
    let gas := gas + (← big (jsSlice params 0 16))
    let size := size + (← big (jsSlice params 16 20))
    if params.length ≠ 20 then .ok (gas, size, value + (← big (jsSlice params 20 36))) else .ok (gas, size, value))
    (0, 0, 0)

def decimal (n : Nat) : Json := .string (toString n)

/-- The decoded options as JSON, entries in key order. -/
def render (hex : HexCrate) (bs58Encode : List UInt8 → String) (dstChainName : String)
    (lzRead : Option (Nat × Nat × Nat))
    (lzReceive : Option (Nat × Nat)) (drops : List (List UInt8 × Nat)) (composes : List (Nat × Nat × Nat))
    (ordered : Bool) : Json :=
  let compose := composes.map fun (index, gas, value) =>
    Json.object [("gas", decimal gas), ("index", .number (.posInt (.ofNat index))), ("value", decimal value)]
  let nativeDrop := drops.map fun (receiver, amount) =>
    Json.object [("amount", decimal amount),
      ("receiver", .string (nativeDropReceiver hex bs58Encode dstChainName receiver))]
  let receive := match lzRead, lzReceive with
    | .some (gas, size, value), _ =>
      [("lzReceive", Json.object [("dataSize", decimal size), ("gas", decimal gas), ("value", decimal value)])]
    | .none, .some (gas, value) => [("lzReceive", Json.object [("gas", decimal gas), ("value", decimal value)])]
    | .none, .none => []
  .object ((if composes.isEmpty then [] else [("compose", .array compose)]) ++ receive ++
    (if drops.isEmpty then [] else [("nativeDrop", .array nativeDrop)]) ++ [("ordered", .bool ordered)])

def decodeRelayerOptions (hex : HexCrate) (bs58Encode : List UInt8 → String) (options : List UInt8)
    (dstChainName : String) (withRead : Bool) : Except String Json := do
  let options ← fromOptions options
  let lzReceive ← sumReceive (executorOptions options 1)
  let drops ← sumDrops (executorOptions options 2)
  let composes ← sumComposes (executorOptions options 3)
  let ordered := !(executorOptions options 4).isEmpty
  let lzRead ← sumRead (if withRead then executorOptions options 5 else [])
  if lzRead.isSome ∧ lzReceive.isSome then
    .error "Cannot have both lzRead and lzReceive options in the same packet"
  else .ok (render hex bs58Encode dstChainName lzRead lzReceive drops composes ordered)

def decodeEvmRelayerOptions (hex : HexCrate) (bs58Encode : List UInt8 → String) (options : List UInt8)
    (dstChainName : String) : Except String Json :=
  decodeRelayerOptions hex bs58Encode options dstChainName true

end Pillar.RelayerOptions
