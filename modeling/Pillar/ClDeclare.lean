/-
LayerZero's class encoding on TON cells (`pillar-layerzero`,
`other_non_evm/ton/cl_declare.rs`).

A class cell is 80 bits of name, 18 bits for each field that say where it is,
ones up to bit 350, and the root data cell. Numbers and references spill, each
on its own, into up to two more cells.
-/
import Pillar.TonCore

namespace Pillar.Ton

/-- `T_REF`. -/
def tRef : UInt8 := 9

def nameWidth : Nat := 80
def fieldTypeWidth : Nat := 4
def cellIdWidth : Nat := 2
def dataOffsetWidth : Nat := 10
def refOffsetWidth : Nat := 2
def fieldInfoWidth : Nat := fieldTypeWidth + cellIdWidth + dataOffsetWidth + refOffsetWidth
def maxClassFields : Nat := 15
def headerWidth : Nat := nameWidth + maxClassFields * fieldInfoWidth

inductive ClField where
  | num (typeCode : UInt8) (value : Nat)
  | ref (cell : TonCell)

def typeWidth (typeCode : UInt8) : Nat := if typeCode ≤ 8 then 2 ^ typeCode.toNat else 0

namespace ClField

/-- `field_bits`. -/
def bits : ClField → Nat
  | .num typeCode _ => typeWidth typeCode
  | .ref _ => 0

/-- `field_type`. -/
def type : ClField → UInt8
  | .num typeCode _ => typeCode
  | .ref _ => tRef

end ClField

/-- `name.as_bytes()`. -/
def nameBytes (name : String) : List UInt8 := name.toByteArray.data.toList

def asciiName (name : String) : Nat := Bits.ofBytes (nameBytes name)

variable (T : TonCore)

def writeUint (builder : T.Builder) (value bits : Nat) : Exec AppCoreError T.Builder :=
  mapErr (T.writeNum builder value bits)

/-- The variables of `cl_declare`'s loop. -/
structure Draft where
  cells : List (Option T.Builder)
  header : T.Builder
  curDataCell : Nat
  curRefCell : Nat
  curCellMaxRefs : Nat
  curDataOffset : Nat
  curRefOffset : Nat

variable {T}

namespace Draft

/-- `cells[1]` is the root data cell; index 0 is unused. -/
def start (header : T.Builder) : Draft T where
  cells := [.none, .some T.builder]
  header := header
  curDataCell := 1
  curRefCell := 1
  curCellMaxRefs := 2
  curDataOffset := headerWidth
  curRefOffset := 0

/-- The next data cell, when a number of `fieldBits` bits does not fit. -/
def spillData (d : Draft T) (fieldBits : Nat) : Draft T :=
  if d.curDataOffset + fieldBits > maxCellBits then
    { d with
      curDataCell := d.curDataCell + 1
      curDataOffset := 0
      cells := if d.curDataCell + 1 ≥ d.cells.length then d.cells ++ [.some T.builder] else d.cells }
  else d

/-- The next reference cell, when the current one is full. -/
def spillRef (d : Draft T) (fieldBits : Nat) : Draft T :=
  if fieldBits = 0 ∧ d.curRefOffset + 1 > d.curCellMaxRefs then
    { d with
      curRefCell := d.curRefCell + 1
      curRefOffset := 0
      curCellMaxRefs := maxCellRefs
      cells := if d.curRefCell + 1 ≥ d.cells.length then d.cells ++ [.some T.builder] else d.cells }
  else d

/-- `cells[index].as_mut().expect(..)`. -/
def cell (d : Draft T) (index : Nat) : Exec AppCoreError T.Builder := do Exec.get (← Exec.get d.cells[index]?)

/-- The field itself. -/
def store (d : Draft T) : ClField → Exec AppCoreError (Draft T)
  | .num typeCode value => do
    let cell ← writeUint T (← d.cell d.curDataCell) value (typeWidth typeCode)
    return { d with cells := d.cells.set d.curDataCell (.some cell) }
  | .ref cellRef => do
    let cell ← mapErr (T.writeRef (← d.cell d.curRefCell) cellRef)
    return { d with cells := d.cells.set d.curRefCell (.some cell) }

/-- The field's 18 bits of header. -/
def describe (d : Draft T) (field : ClField) : Exec AppCoreError (Draft T) := do
  let header ← writeUint T d.header field.type.toNat fieldTypeWidth
  if field.bits > 0 then
    let header ← writeUint T header (if d.curDataCell = 1 then 0 else d.curDataCell) cellIdWidth
    let header ← writeUint T header d.curDataOffset dataOffsetWidth
    let header ← writeUint T header 3 refOffsetWidth
    return { d with header, curDataOffset := d.curDataOffset + field.bits }
  else
    let header ← writeUint T header (if d.curRefCell = 1 then 0 else d.curRefCell) cellIdWidth
    let header ← writeUint T header maxCellBits dataOffsetWidth
    let header ← writeUint T header d.curRefOffset refOffsetWidth
    return { d with header, curRefOffset := d.curRefOffset + 1 }

/-- One turn of the loop. -/
def declareField (d : Draft T) (field : ClField) : Exec AppCoreError (Draft T) := do
  let d ← ((d.spillData field.bits).spillRef field.bits).store field
  d.describe field

end Draft

variable (T)

/-- `while (MAX_CELL_REFS - root.refs_left()) < 2`. -/
def reserveRefs : Nat → T.Builder → Exec AppCoreError T.Builder
  | 0, _ => .error .fuel
  | fuel + 1, root => do
    let used ← Exec.sub maxCellRefs (T.refsLeft root)
    if used < 2 then reserveRefs fuel (← mapErr (T.writeRef root T.empty)) else return root

/-- Empty references, so that the spilled cells, if there are any, come at 2 and 3. -/
def padRoot (numCells : Nat) (root : T.Builder) : Exec AppCoreError T.Builder :=
  if numCells > 1 then reserveRefs T 3 root else .ok root

/-- `cl_declare` after its loop: header, root data cell, spilled cells. -/
def Draft.assemble (draft : Draft T) : Exec AppCoreError TonCell := do
  let root ← draft.cell 1
  let numCells ← Exec.sub draft.cells.length 1
  let root ← padRoot T numCells root
  let headerBitsUsed ← Exec.sub maxCellBits (T.dataBitsLeft draft.header)
  let trailingOnes ← Exec.sub headerWidth headerBitsUsed
  let header ← (List.range trailingOnes).foldlM (fun header _ => mapErr (T.writeBit header true)) draft.header
  let rootCell ← mapErr (T.build root)
  let header ← mapErr (T.writeCell header rootCell)
  let header ← ((draft.cells.take (numCells + 1)).drop 2).foldlM (fun header extra => do
    mapErr (T.writeRef header (← mapErr (T.build (← Exec.get extra))))) header
  mapErr (T.build header)

def clDeclare (name : String) (fields : List ClField) : Exec AppCoreError TonCell := do
  if fields.length > maxClassFields then Exec.err (.internal "INVALID_CLASS")
  let header ← writeUint T T.builder (asciiName name) nameWidth
  let draft ← fields.foldlM Draft.declareField (Draft.start header)
  draft.assemble T

/-! ## Reading -/

/-- Where a field is: the cell, the bit it starts at, and the reference. -/
def fieldInfo (cell : TonCell) (fieldIndex : Nat) : Exec AppCoreError (Nat × Nat × Nat) := do
  requireOrdinary cell
  let (_, parser) ← mapErr (T.readBits (T.parser cell) (nameWidth + fieldIndex * fieldInfoWidth + fieldTypeWidth))
  let (cellIndex, parser) ← mapErr (T.readNum parser cellIdWidth)
  let (offset, parser) ← mapErr (T.readNum parser dataOffsetWidth)
  let (refIdx, _) ← mapErr (T.readNum parser refOffsetWidth)
  return (cellIndex, offset, refIdx)

/-- `for _ in 0..count { parser.read_next_ref()?; }`, and the one after. -/
def readRefAt : Nat → T.Parser → Exec AppCoreError TonCell
  | 0, parser => do
    let (cell, _) ← mapErr (T.readNextRef parser)
    return cell
  | count + 1, parser => do
    let (_, parser) ← mapErr (T.readNextRef parser)
    readRefAt count parser

/-- The number of `width` bits that starts at `offset`. -/
def readNumAt (cell : TonCell) (offset width : Nat) : Exec AppCoreError Nat := do
  let (_, parser) ← mapErr (T.readBits (T.parser cell) offset)
  let (value, _) ← mapErr (T.readNum parser width)
  return value

def clGetUintBe (cell : TonCell) (fieldIndex width : Nat) : Exec AppCoreError (List UInt8) := do
  let (cellIndex, offset, _) ← fieldInfo T cell fieldIndex
  let value ← if cellIndex = 0 then readNumAt T cell offset width else do
    let target ← readRefAt T cellIndex (T.parser cell)
    requireOrdinary target
    readNumAt T target offset width
  -- `while be.len() < byte_len { be.insert(0, 0) }`
  let be := Bits.toBytesBe value
  return List.replicate ((width + 7) / 8 - be.length) 0 ++ be

def clGetRef (cell : TonCell) (fieldIndex : Nat) : Exec AppCoreError TonCell := do
  let (cellIndex, _, refIdx) ← fieldInfo T cell fieldIndex
  if cellIndex = 0 then readRefAt T refIdx (T.parser cell) else do
    let nested ← readRefAt T cellIndex (T.parser cell)
    requireOrdinary nested
    readRefAt T refIdx (T.parser nested)

/-- `cell_name`; `utf8Error` is what `FromUtf8Error` displays. -/
def cellName (utf8Error : List UInt8 → String) (cell : TonCell) : Exec AppCoreError String := do
  requireOrdinary cell
  let (value, _) ← mapErr (T.readNum (T.parser cell) nameWidth)
  let bytes := Bits.toBytesBe value
  match String.fromUTF8? (ByteArray.mk bytes.toArray) with
  | .some name => return name
  | .none => Exec.err (.internal ("TON cell name not ASCII: " ++ utf8Error bytes))

end Pillar.Ton
