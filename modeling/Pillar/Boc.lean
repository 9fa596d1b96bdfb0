/-
Bags of cells (`pillar-layerzero`, `other_non_evm/ton/cell.rs`): `serialize_boc`,
and the checks a bag passes before it is parsed.

`hash` is `TonCell::hash`, and `crc32c` the checksum of the `crc` crate. In
what reads a bag, `None` is an error: `Exec Unit` keeps it apart from a panic.
-/
import Pillar.TonCore

namespace Pillar.Ton

mutual

/-- The longest way down the references. -/
def TonCell.depth : TonCell → Nat
  | .mk _ _ _ refs => refsDepth refs

def refsDepth : List TonCell → Nat
  | [] => 0
  | cell :: refs => max (cell.depth + 1) (refsDepth refs)

end

/-! ## Cells, breadth first -/

section Collect

variable {H : Type} [DecidableEq H] (hash : TonCell → Except String H)

/-- `cells` and `id_by_hash`. -/
structure Collected (H : Type) where
  cells : List TonCell
  idByHash : List (H × Nat)

/-- `for cell in level`. -/
def collectLevel : List TonCell → Collected H → List TonCell → Exec AppCoreError (Collected H × List TonCell)
  | [], s, next => .ok (s, next)
  | cell :: level, s, next => do
    let hash ← mapErr (hash cell)
    if (s.idByHash.lookup hash).isSome then collectLevel level s next
    else
      let s := { cells := s.cells ++ [cell], idByHash := s.idByHash ++ [(hash, s.cells.length)] }
      collectLevel level s (next ++ cell.refs)

/-- `while !level.is_empty()`. -/
def collectLevels : Nat → List TonCell → Collected H → Exec AppCoreError (Collected H)
  | 0, _, _ => .error .fuel
  | fuel + 1, level, s =>
    if level.isEmpty then .ok s else do
      let (s, next) ← collectLevel hash level s []
      collectLevels fuel next s

/-- The ids of each cell's references. -/
def refIds (s : Collected H) : Exec AppCoreError (List (List Nat)) :=
  s.cells.mapM fun cell => cell.refs.mapM fun child => do
    let hash ← mapErr (hash child)
    Exec.get (s.idByHash.lookup hash)

end Collect

/-! ## The order -/

/-- `while let Some((id, remaining)) = stack.last_mut()`; the top of the stack comes first. -/
def walk (refs : List (List Nat)) :
    Nat → List Bool → List (Nat × Nat) → List Nat → Exec AppCoreError (List Bool × List Nat)
  | 0, _, _, _ => .error .fuel
  | _ + 1, visited, [], postorder => .ok (visited, postorder)
  | fuel + 1, visited, (id, 0) :: stack, postorder => walk refs fuel visited stack (postorder ++ [id])
  | fuel + 1, visited, (id, remaining + 1) :: stack, postorder => do
    let child ← Exec.get (← Exec.get refs[id]?)[remaining]?
    if !(← Exec.get visited[child]?) then
      let count := (← Exec.get refs[child]?).length
      walk refs fuel (visited.set child true) ((child, count) :: (id, remaining) :: stack) postorder
    else walk refs fuel visited ((id, remaining) :: stack) postorder

/-- One turn of `for start in 0..cells.len()`. -/
def walkFrom (refs : List (List Nat)) (fuel : Nat) (s : List Bool × List Nat) (start : Nat) :
    Exec AppCoreError (List Bool × List Nat) := do
  if ← Exec.get s.1[start]? then return s
  let count := (← Exec.get refs[start]?).length
  walk refs fuel (s.1.set start true) [(start, count)] s.2

/-- The postorder over references last to first. No search takes more steps
than there are cells and references. -/
def postorderOf (refs : List (List Nat)) : Exec AppCoreError (List Nat) := do
  let fuel := (refs.map fun ids => ids.length + 1).sum + 1
  let (_, postorder) ← (List.range refs.length).foldlM (walkFrom refs fuel) (List.replicate refs.length false, [])
  return postorder

/-- `position[id] = index`. -/
def setPosition (position : List Nat) (place : Nat × Nat) : Exec AppCoreError (List Nat) :=
  if place.1 < position.length then .ok (position.set place.1 place.2) else .error .panic

def positions (count : Nat) (postorder : List Nat) : Exec AppCoreError (List Nat) :=
  postorder.reverse.zipIdx.foldlM setPosition (List.replicate count 0)

/-! ## Bytes -/

/-- `refs[id].len() as u8 + exotic + mask * 32`; a level mask has three bits. -/
def descriptor1 (cell : TonCell) (refCount : Nat) : UInt8 :=
  let exotic := if cell.cellType = .ordinary then 0 else 8
  UInt8.ofNat refCount + exotic + UInt8.ofNat cell.levelMask * 32

def descriptor2 (bits : Nat) : UInt8 := UInt8.ofNat (bits / 8 + (bits + 7) / 8)

/-- The completion tag: a one right after the data. -/
def complete (bits : Nat) (data : List UInt8) : Exec AppCoreError (List UInt8) := do
  if bits % 8 = 0 then return data
  let byte ← Exec.get data[bits / 8]?
  return data.set (bits / 8) (byte ||| (0x80 >>> UInt8.ofNat (bits % 8)))

variable (T : TonCore)

/-- The bytes of one cell. `push_uint` of a `usize` in `width` bytes is `Bits.bytesOf width`. -/
def emitCell (cells : List TonCell) (refs : List (List Nat)) (position : List Nat) (sizeBytes id : Nat) :
    Exec AppCoreError (List UInt8) := do
  let cell ← Exec.get cells[id]?
  let ids ← Exec.get refs[id]?
  let bits := cell.dataLenBits
  let (data, _) ← mapErr (T.readBits (T.parser cell) bits)
  let data ← complete bits data
  let places ← ids.mapM fun child => Exec.get position[child]?
  return descriptor1 cell ids.length :: descriptor2 bits :: data ++ places.flatMap (Bits.bytesOf sizeBytes)

def cellSize (cells : List TonCell) (refs : List (List Nat)) (sizeBytes id : Nat) : Exec AppCoreError Nat := do
  let cell ← Exec.get cells[id]?
  let ids ← Exec.get refs[id]?
  return 2 + (cell.dataLenBits + 7) / 8 + ids.length * sizeBytes

/-- The bytes before the cells. -/
def bocHeader (sizeBytes offsetBytes count totalCellSize : Nat) : List UInt8 :=
  [0xb5, 0xee, 0x9c, 0x72, 0x40 ||| UInt8.ofNat sizeBytes, UInt8.ofNat offsetBytes] ++
    Bits.bytesOf sizeBytes count ++ Bits.bytesOf sizeBytes 1 ++ Bits.bytesOf sizeBytes 0 ++
    Bits.bytesOf offsetBytes totalCellSize ++ Bits.bytesOf sizeBytes 0

/-- `u32::to_le_bytes`. -/
def leBytes (n : UInt32) : List UInt8 := (Bits.bytesOf 4 n.toNat).reverse

/-- `serialize_boc`. The breadth first search ends with the level below the deepest cell. -/
def serializeBoc {H : Type} [DecidableEq H] (hash : TonCell → Except String H) (crc32c : List UInt8 → UInt32)
    (root : TonCell) : Exec AppCoreError (List UInt8) := do
  let s ← collectLevels hash (root.depth + 2) [root] { cells := [], idByHash := [] }
  let refs ← refIds hash s
  let postorder ← postorderOf refs
  let position ← positions s.cells.length postorder
  let sizeBytes := Bits.byteWidth s.cells.length
  let sizes ← (List.range s.cells.length).mapM (cellSize s.cells refs sizeBytes)
  let totalCellSize := sizes.sum
  let offsetBytes := Bits.byteWidth totalCellSize
  let records ← postorder.reverse.mapM (emitCell T s.cells refs position sizeBytes)
  let out := bocHeader sizeBytes offsetBytes s.cells.length totalCellSize ++ records.flatten
  return out ++ leBytes (crc32c out)

/-! ## Reading -/

/-- `?` on an `Option`. -/
def orNone {α : Type} : Option α → Exec Unit α
  | .some a => .ok a
  | .none => Exec.err ()

/-- The number at the cursor, and the cursor after it. -/
def readBocUint (bytes : List UInt8) (cursor width : Nat) : Option (Nat × Nat) := do
  let stop ← checkedAdd cursor width
  if stop > bytes.length then .none
  let value ← ((bytes.drop cursor).take width).foldlM
    (fun n byte => do checkedAdd (← checkedMul n 256) byte.toNat) 0
  return (value, stop)

/-- The size of the index, when there is one. -/
def indexSize (flags : UInt8) (cells offsetBytes : Nat) : Option Nat :=
  if flags &&& 0x80 ≠ 0 then checkedMul cells offsetBytes else .some 0

/-- `for _ in 0..roots`: every root is one of the cells. -/
def rootsInRange (bytes : List UInt8) (sizeBytes cells : Nat) : Nat → Nat → Option Nat
  | 0, cursor => .some cursor
  | roots + 1, cursor => do
    let (root, cursor) ← readBocUint bytes cursor sizeBytes
    if root ≥ cells then .none
    rootsInRange bytes sizeBytes cells roots cursor

/-- `boc_header_is_safe`, where it does not return `false` early. -/
def checkHeader (bytes : List UInt8) (maxCells : Nat) : Exec Unit Unit := do
  if bytes.length < 10 || bytes.take 4 ≠ [0xb5, 0xee, 0x9c, 0x72] then Exec.err ()
  let flags ← Exec.get bytes[4]?
  let sizeBytes := (flags &&& 7).toNat
  let offsetBytes := (← Exec.get bytes[5]?).toNat
  if sizeBytes = 0 || sizeBytes > 4 || offsetBytes = 0 || offsetBytes > 8 then Exec.err ()
  let (cells, cursor) ← orNone (readBocUint bytes 6 sizeBytes)
  let (roots, cursor) ← orNone (readBocUint bytes cursor sizeBytes)
  let (absent, cursor) ← orNone (readBocUint bytes cursor sizeBytes)
  let (dataSize, cursor) ← orNone (readBocUint bytes cursor offsetBytes)
  if cells = 0 || cells > maxCells || cells > dataSize / 2 || roots = 0 ||
      (checkedAdd roots absent).all (· > cells) then Exec.err ()
  let cursor ← orNone (rootsInRange bytes sizeBytes cells roots cursor)
  let indexSize ← orNone (indexSize flags cells offsetBytes)
  let dataStart ← orNone (checkedAdd cursor indexSize)
  let dataEnd ← orNone (checkedAdd dataStart dataSize)
  let crcSize := if flags &&& 0x40 ≠ 0 then 4 else 0
  let stop ← orNone (checkedAdd dataEnd crcSize)
  if stop > bytes.length then Exec.err ()

/-- `boc_header_is_safe`. -/
def bocHeaderIsSafe (bytes : List UInt8) (maxCells : Nat) : Exec Unit Bool :=
  match checkHeader bytes maxCells with
  | .ok () => .ok true
  | .error (.err ()) => .ok false
  | .error halt => .error halt

/-- `for _ in 0..refs_count`: references to later cells. -/
def readRefs (bytes : List UInt8) (sizeBytes cells index : Nat) : Nat → Nat → Exec Unit (List Nat × Nat)
  | 0, cursor => .ok ([], cursor)
  | count + 1, cursor => do
    let (reference, cursor) ← orNone (readBocUint bytes cursor sizeBytes)
    if reference ≤ index || reference ≥ cells then Exec.err ()
    let (refs, cursor) ← readRefs bytes sizeBytes cells index count cursor
    return (reference :: refs, cursor)

/-- `count_ones` of the level bits. -/
def countOnes (byte : UInt8) : Nat := (Bits.ofNat 8 byte.toNat).count true

/-- The cursor after the hashes and depths a cell stores. -/
def skipHashes (d1 : UInt8) (cursor : Nat) : Exec Unit Nat := do
  if d1 &&& 0x10 = 0 then return cursor
  let hashCount ← Exec.get (checkedAdd (countOnes (d1 >>> 5)) 1)
  orNone (checkedAdd cursor (← Exec.get (checkedMul hashCount (32 + 2))))

/-- One turn of `for index in 0..cells`. -/
def readCell (bytes : List UInt8) (sizeBytes cells index cursor : Nat) : Exec Unit (List Nat × Nat) := do
  let d1 ← orNone bytes[cursor]?
  let d2 ← orNone bytes[← Exec.get (checkedAdd cursor 1)]?
  let cursor ← Exec.get (checkedAdd cursor 2)
  let cursor ← skipHashes d1 cursor
  let cursor ← orNone (checkedAdd cursor (d2 / 2 + d2 % 2).toNat)
  readRefs bytes sizeBytes cells index (d1 &&& 7).toNat cursor

/-- The references of `count` cells from `index` on. -/
def readCells (bytes : List UInt8) (sizeBytes cells : Nat) : Nat → Nat → Nat → Exec Unit (List (List Nat) × Nat)
  | 0, _, cursor => .ok ([], cursor)
  | count + 1, index, cursor => do
    let (refs, cursor) ← readCell bytes sizeBytes cells index cursor
    let (refsByCell, cursor) ← readCells bytes sizeBytes cells count (index + 1) cursor
    return (refs :: refsByCell, cursor)

/-- `boc_max_depth` up to the references of every cell. -/
def bocRefs (bytes : List UInt8) : Exec Unit (List (List Nat)) := do
  let flags ← orNone bytes[4]?
  let sizeBytes := (flags &&& 7).toNat
  let offsetBytes := (← orNone bytes[5]?).toNat
  let (cells, cursor) ← orNone (readBocUint bytes 6 sizeBytes)
  let (roots, cursor) ← orNone (readBocUint bytes cursor sizeBytes)
  let (_, cursor) ← orNone (readBocUint bytes cursor sizeBytes)
  let (dataSize, cursor) ← orNone (readBocUint bytes cursor offsetBytes)
  if roots ≠ 1 then Exec.err ()
  let (root, cursor) ← orNone (readBocUint bytes cursor sizeBytes)
  if root ≥ cells then Exec.err ()
  let indexSize ← orNone (indexSize flags cells offsetBytes)
  let cursor ← orNone (checkedAdd cursor indexSize)
  let dataEnd ← orNone (checkedAdd cursor dataSize)
  if dataEnd > bytes.length then Exec.err ()
  let (refsByCell, cursor) ← readCells bytes sizeBytes cells cells 0 cursor
  if cursor ≠ dataEnd then Exec.err ()
  return refsByCell

/-- `depths[index] = depths[index].max(depths[reference].checked_add(1)?)`. -/
def deepen (index : Nat) (depths : List Nat) (reference : Nat) : Exec Unit (List Nat) := do
  let depth ← Exec.get depths[index]?
  let below ← Exec.get depths[reference]?
  return depths.set index (max depth (← orNone (checkedAdd below 1)))

/-- `for index in (0..cells).rev()`. -/
def bocDepths (refsByCell : List (List Nat)) : Nat → List Nat → Exec Unit (List Nat)
  | 0, depths => .ok depths
  | index + 1, depths => do
    let refs ← Exec.get refsByCell[index]?
    bocDepths refsByCell index (← refs.foldlM (deepen index) depths)

def bocMaxDepth (bytes : List UInt8) : Exec Unit Nat := do
  let refsByCell ← bocRefs bytes
  let depths ← bocDepths refsByCell refsByCell.length (List.replicate refsByCell.length 0)
  orNone depths.max?

end Pillar.Ton
