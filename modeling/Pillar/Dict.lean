/-
Lookup in a TON dictionary with 256-bit keys and reference values
(`pillar-layerzero`, `other_non_evm/ton/dict.rs`).
-/
import Pillar.TonCore

namespace Pillar.Ton

/-- `DICT_KEY_BITS`. -/
def dictKeyBits : Nat := 256

/-- `usize::BITS - m.leading_zeros()`. -/
def boundedUintBits (m : Nat) : Nat := Nat.size m

/-- Bit `index` of a key; a panic beyond its 32 bytes. -/
def keyBit (key : Vector UInt8 32) (index : Nat) : Exec AppCoreError Bool := do
  let byte ← Exec.get key[index / 8]?
  return (byte >>> UInt8.ofNat (7 - index % 8)) &&& 1 == 1

inductive Descent where
  | value (cell : TonCell)
  | node (cell : TonCell)
  | absent

variable (T : TonCore)

/-- `while parser.read_bit()? { len += 1 }`. -/
def readUnary : Nat → T.Parser → Nat → Exec AppCoreError (Nat × T.Parser)
  | 0, _, _ => .error .fuel
  | fuel + 1, parser, len => do
    let (bit, parser) ← mapErr (T.readBit parser)
    if bit then readUnary fuel parser (len + 1) else return (len, parser)

/-- The length of a node's label, and its bit when that is stored once. -/
def readLabel (node : TonCell) (remaining : Nat) : Exec AppCoreError (Nat × Option Bool × T.Parser) := do
  let parser := T.parser node
  let (bit, parser) ← mapErr (T.readBit parser)
  if !bit then
    let (len, parser) ← readUnary T (node.dataLenBits + 1) parser 0
    return (len, .none, parser)
  let (bit, parser) ← mapErr (T.readBit parser)
  if !bit then
    let (len, parser) ← mapErr (T.readNum parser (boundedUintBits remaining))
    return (len, .none, parser)
  let (bit, parser) ← mapErr (T.readBit parser)
  let (len, parser) ← mapErr (T.readNum parser (boundedUintBits remaining))
  return (len, .some bit, parser)

/-- The next bit of a label: `hml_same` stores the repeated bit once. -/
def labelBit (sameBit : Option Bool) (parser : T.Parser) : Exec AppCoreError (Bool × T.Parser) :=
  match sameBit with
  | .some bit => .ok (bit, parser)
  | .none => mapErr (T.readBit parser)

/-- `for offset in 0..label_len`: whether the label is the key's next bits, from
`index` on. -/
def matchLabel (key : Vector UInt8 32) (sameBit : Option Bool) :
    Nat → Nat → T.Parser → Exec AppCoreError (Bool × T.Parser)
  | 0, _, parser => .ok (true, parser)
  | len + 1, index, parser => do
    let (bit, parser) ← labelBit T sameBit parser
    if bit != (← keyBit key index) then return (false, parser)
    matchLabel key sameBit len (index + 1) parser

/-- One node: what it says of the key, and `remaining` and `consumed` after it. -/
def descend (node : TonCell) (key : Vector UInt8 32) (remaining consumed : Nat) :
    Exec AppCoreError (Descent × Nat × Nat) := do
  requireOrdinary node
  let (labelLen, sameBit, parser) ← readLabel T node remaining
  if labelLen > remaining then Exec.err (.internal "TON dictionary label is longer than the remaining key")
  let (same, parser) ← matchLabel T key sameBit labelLen consumed parser
  if !same then return (.absent, remaining, consumed)
  let consumed := consumed + labelLen
  let remaining ← Exec.sub remaining labelLen
  if remaining = 0 then
    let (value, _) ← mapErr (T.readNextRef parser)
    return (.value value, remaining, consumed)
  let branch ← keyBit key consumed
  let consumed := consumed + 1
  let remaining ← Exec.sub remaining 1
  let (left, parser) ← mapErr (T.readNextRef parser)
  let (right, _) ← mapErr (T.readNextRef parser)
  return (.node (if branch then right else left), remaining, consumed)

/-- The loop of `dict256_get_ref`; `fuel` counts descents. -/
def dictLoop (key : Vector UInt8 32) : Nat → TonCell → Nat → Nat → Exec AppCoreError (Option TonCell)
  | 0, _, _, _ => .error .fuel
  | fuel + 1, node, remaining, consumed => do
    match ← descend T node key remaining consumed with
    | (.value value, _, _) => return .some value
    | (.absent, _, _) => return .none
    | (.node next, remaining, consumed) => dictLoop key fuel next remaining consumed

/-- `dict256_get_ref`, in 257 descents at most. -/
def dict256GetRef (root : TonCell) (key : Vector UInt8 32) : Exec AppCoreError (Option TonCell) := do
  requireOrdinary root
  if root.dataLenBits = 0 then return .none
  dictLoop T key 257 root dictKeyBits 0

/-! ## TL-B `Hashmap` -/

/-- The bits of a label of a node whose keys have `m` bits left. -/
inductive HmLabel (m : Nat) : List Bool → List Bool → Prop
  | short (label : List Bool) : label.length ≤ m →
    HmLabel m label (false :: List.replicate label.length true ++ false :: label)
  | long (label : List Bool) : label.length ≤ m →
    HmLabel m label (true :: false :: Bits.ofNat (boundedUintBits m) label.length ++ label)
  | same (bit : Bool) (n : Nat) : n ≤ m →
    HmLabel m (List.replicate n bit) (true :: true :: bit :: Bits.ofNat (boundedUintBits m) n)

/-- `cell` is a `Hashmap n ^Cell` of plain cells, with the map `m` of keys of `n` bits. -/
inductive Hashmap : Nat → (List Bool → Option TonCell) → TonCell → Prop
  | leaf {n : Nat} {m : List Bool → Option TonCell} {cell : TonCell} (label : List Bool) (value : TonCell) :
    cell.Plain → HmLabel n label cell.bits → label.length = n → cell.refs = [value] →
    (∀ k, k.length = n → m k = if k = label then .some value else .none) → Hashmap n m cell
  | fork {n : Nat} {m : List Bool → Option TonCell} {cell : TonCell} (label : List Bool) (rest : Nat)
    (left right : TonCell) :
    cell.Plain → HmLabel n label cell.bits → n = label.length + 1 + rest → cell.refs = [left, right] →
    (∀ k, k.length = n → (m k).isSome → label <+: k) →
    Hashmap rest (fun k => m (label ++ false :: k)) left →
    Hashmap rest (fun k => m (label ++ true :: k)) right → Hashmap n m cell

/-- A key, bit by bit. -/
def keyBits (key : Vector UInt8 32) : List Bool := key.toList.flatMap fun byte => Bits.ofNat 8 byte.toNat

end Pillar.Ton
