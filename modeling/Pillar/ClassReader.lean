/-
Classes and snakes as the runtime reads them (`pillar-runtime`,
`layerzero_runtime/source_events_ton.rs`): `class_name`, `class_bytes`,
`class_ref` and `flatten_cell_bytes`, a second reader of what `cl_declare` and
`hex_to_cells` make.
-/
import Pillar.ClDeclareFacts
import Pillar.HexCells
import Pillar.Utf8

namespace Pillar.ClassReader

open Ton Text Bits Hex

/-! ## The code -/

/-- What this crate alone calls of `ton_core`'s parser. -/
structure ParserOps (T : TonCore) where
  seekBits : T.Parser → Int → Except String T.Parser
  dataBitsLeft : T.Parser → Except String Nat

/-- On a fresh parser `seek_bits` goes that many bits forward, and fails past the end. -/
structure ParserOps.Lawful {T : TonCore} (ops : ParserOps T) (ahead : T.Parser → Contents) : Prop where
  seekBits : ∀ (cell : TonCell) (n : Nat), n ≤ cell.bits.length →
    ∃ p, ops.seekBits (T.parser cell) n = .ok p ∧ ahead p = (cell.bits.drop n, cell.refs)
  seekBits_short : ∀ (cell : TonCell) (n : Nat), cell.bits.length < n → ∃ e, ops.seekBits (T.parser cell) n = .error e
  dataBitsLeft : ∀ p, ops.dataBitsLeft p = .ok (ahead p).1.length

/-- `map_err(ton_error)`. -/
def tonError {α : Type} : Except String α → Exec AppCoreError α
  | .ok a => .ok a
  | .error e => Exec.err (.internal ("TON cell decode error: " ++ e))

def requireOrdinary (cell : TonCell) : Exec AppCoreError Unit :=
  if cell.cellType ≠ .ordinary || cell.levelMask ≠ 0 then
    tonError (.error "consumed cell must be ordinary and level zero")
  else .ok ()

section

variable {T : TonCore} (ops : ParserOps T)

variable (T) in
/-- `utf8Error` is what `FromUtf8Error` displays. -/
def className (utf8Error : List UInt8 → String) (cell : TonCell) : Exec AppCoreError String := do
  requireOrdinary cell
  let (bytes, _) ← tonError (T.readBits (T.parser cell) 80)
  let firstNonzero := bytes.findIdx (· ≠ 0)
  match fromUtf8 (bytes.drop firstNonzero) with
  | .some name => return name
  | .none => Exec.err (.internal ("invalid TON class name: " ++ utf8Error (bytes.drop firstNonzero)))

variable (T) in
/-- The type, the cell, the bit it starts at, and the reference. -/
def fieldInfo (cell : TonCell) (index : Nat) : Exec AppCoreError (Nat × Nat × Nat × Nat) := do
  requireOrdinary cell
  let (_, parser) ← tonError (T.readBits (T.parser cell) (80 + index * 18))
  let (fieldType, parser) ← tonError (T.readNum parser 4)
  let (cellIndex, parser) ← tonError (T.readNum parser 2)
  let (offset, parser) ← tonError (T.readNum parser 10)
  let (refIndex, _) ← tonError (T.readNum parser 2)
  return (fieldType, cellIndex, offset, refIndex)

def dataCell (cell : TonCell) (cellIndex : Nat) : Exec AppCoreError TonCell :=
  match if cellIndex = 0 then .some cell else cell.refs[cellIndex]? with
  | .some target => do
    requireOrdinary target
    return target
  | .none => Exec.err (.internal "TON class data cell missing")

def classBytes (cell : TonCell) (index width : Nat) : Exec AppCoreError (List UInt8) := do
  let (fieldType, cellIndex, offset, _) ← fieldInfo T cell index
  if fieldType = 9 then Exec.err (.internal "TON class field is a reference")
  else
    let target ← dataCell cell cellIndex
    let parser ← tonError (ops.seekBits (T.parser target) offset)
    let (bytes, _) ← tonError (T.readBits parser width)
    return bytes

variable (T) in
def classRef (cell : TonCell) (index : Nat) : Exec AppCoreError TonCell := do
  let (fieldType, cellIndex, _, refIndex) ← fieldInfo T cell index
  if fieldType ≠ 9 then Exec.err (.internal "TON class field is numeric")
  else
    let target ← dataCell cell cellIndex
    match target.refs[refIndex]? with
    | .some child => .ok child
    | .none => Exec.err (.internal "TON class reference missing")

variable (T) in
/-- `for _ in 0..count { bits.push(parser.read_bit()?); }`. -/
def pushBits : Nat → T.Parser → List Bool → Exec AppCoreError (List Bool)
  | 0, _, bits => .ok bits
  | count + 1, parser, bits => do
    let (bit, parser) ← tonError (T.readBit parser)
    pushBits count parser (bits ++ [bit])

/-- From a cell to its first reference, until there is none. -/
def flattenBits : TonCell → List Bool → Exec AppCoreError (List Bool)
  | .mk cellType levelMask data refs, bits => do
    let cell := TonCell.mk cellType levelMask data refs
    requireOrdinary cell
    let count ← tonError (ops.dataBitsLeft (T.parser cell))
    let bits ← pushBits T count (T.parser cell) bits
    match refs with
    | [] => return bits
    | child :: _ => flattenBits child bits

/-- `if bit { bytes[index / 8] |= 1 << (7 - index % 8); }`. -/
def setBit (bytes : List UInt8) (bit : Bool × Nat) : Exec AppCoreError (List UInt8) := do
  if bit.1 then
    let byte ← Exec.get bytes[bit.2 / 8]?
    return bytes.set (bit.2 / 8) (byte ||| 1 <<< UInt8.ofNat (7 - bit.2 % 8))
  else return bytes

def flattenCellBytes (cell : TonCell) : Exec AppCoreError (List UInt8) := do
  let bits ← flattenBits ops cell []
  bits.zipIdx.foldlM setBit (List.replicate ((bits.length + 7) / 8) 0)

end

/-! ## Bits and bytes -/

theorem tonError_eq_ok {α : Type} {x : Except String α} {a : α} : tonError x = .ok a ↔ x = .ok a := by
  cases x <;> simp [tonError, Exec.err]

theorem requireOrdinary_ok_iff {cell : TonCell} : requireOrdinary cell = .ok () ↔ cell.Plain := by
  rw [← Ton.requireOrdinary_ok_iff, requireOrdinary, Ton.requireOrdinary]
  split
  · exact ⟨fun h => (by cases h), fun h => (by cases h)⟩
  · exact Iff.rfl

theorem packBits_append {front : List Bool} (rest : List Bool) (h : front.length = 8) :
    packBits (front ++ rest) = UInt8.ofNat (toNat front) :: packBits rest := by
  have hcount : ((front ++ rest).length + 7) / 8 = (rest.length + 7) / 8 + 1 := by
    rw [List.length_append, h]
    omega
  rw [packBits, hcount, List.range_succ_eq_map, List.map_cons, List.map_map]
  congr 1
  · rw [Nat.mul_zero, List.drop_zero, List.take_left' h, List.takeD_eq_take _ (by rw [h]),
      List.take_of_length_le (by rw [h])]
  · refine List.map_congr_left fun i _ => ?_
    have hdrop : (front ++ rest).drop (8 * (i + 1)) = rest.drop (8 * i) := by
      rw [Nat.mul_succ, Nat.add_comm, ← List.drop_drop, List.drop_left' h]
    simp only [Function.comp_apply, Nat.succ_eq_add_one, hdrop]

/-- Eight bits make a byte, so whole bytes stand for the number that the bits stand for. -/
theorem packBits_whole : ∀ (k : Nat) {bits : List Bool}, bits.length = 8 * k →
    (packBits bits).length = k ∧ ∀ n, (packBits bits).foldl (fun n b => 256 * n + b.toNat) n =
      bits.foldl (fun n b => 2 * n + b.toNat) n
  | 0, bits, h => by
    rw [List.length_eq_zero_iff.mp h]
    exact ⟨rfl, fun _ => rfl⟩
  | k + 1, bits, h => by
    obtain ⟨front, rest, rfl, hfront⟩ : ∃ front rest, bits = front ++ rest ∧ front.length = 8 :=
      ⟨bits.take 8, bits.drop 8, (List.take_append_drop 8 bits).symm, by rw [List.length_take]; omega⟩
    have hrest : rest.length = 8 * k := by rw [List.length_append] at h; omega
    obtain ⟨hlength, hvalue⟩ := packBits_whole k hrest
    rw [packBits_append rest hfront, List.length_cons, hlength]
    refine ⟨rfl, fun n => ?_⟩
    have hbyte : (UInt8.ofNat (toNat front)).toNat = toNat front :=
      UInt8.toNat_ofNat_of_lt' (by have := toNat_lt front; rwa [hfront] at this)
    have hfold : ∀ (l : List Bool) (n : Nat),
        l.foldl (fun n b => 2 * n + b.toNat) n = 2 ^ l.length * n + toNat l := by
      intro l
      induction l using List.reverseRecOn with
      | nil => intro n; simp
      | append_singleton l b ih =>
        intro n
        rw [List.foldl_append, ih, List.foldl_cons, List.foldl_nil, toNat_concat, List.length_append,
          List.length_singleton, pow_succ]
        ring
    have hpow : 2 ^ front.length = 256 := by rw [hfront]; rfl
    rw [List.foldl_cons, hvalue, List.foldl_append, hfold front, hbyte, hpow]

theorem ofBytes_packBits {bits : List Bool} {k : Nat} (h : bits.length = 8 * k) :
    ofBytes (packBits bits) = toNat bits :=
  (packBits_whole k h).2 0

/-- A number filled up to the bytes it came from. -/
theorem zeros_toBytesBe {bytes : List UInt8} (hne : bytes ≠ []) :
    List.replicate (bytes.length - (toBytesBe (ofBytes bytes)).length) 0 ++ toBytesBe (ofBytes bytes) = bytes := by
  have hpos := List.length_pos_iff.mpr hne
  have hwidth : byteWidth (ofBytes bytes) ≤ bytes.length := byteWidth_le_iff.mpr ⟨ofBytes_lt bytes, hpos⟩
  have hlength : (List.replicate (bytes.length - (toBytesBe (ofBytes bytes)).length) 0 ++
      toBytesBe (ofBytes bytes)).length = bytes.length := by
    rw [List.length_append, List.length_replicate, length_toBytesBe]
    omega
  have hback := bytesOf_ofBytes (List.replicate (bytes.length - (toBytesBe (ofBytes bytes)).length) 0 ++
    toBytesBe (ofBytes bytes))
  rw [hlength, ofBytes_zeros, ofBytes_toBytesBe, bytesOf_ofBytes] at hback
  exact hback.symm

/-! ## What the parser reads -/

variable {T : TonCore} {ops : ParserOps T} {written : T.Builder → Contents} {ahead : T.Parser → Contents}

theorem readBits_eq_ok (hT : T.Lawful written ahead) {p q : T.Parser} {n : Nat} {bytes : List UInt8}
    (h : T.readBits p n = .ok (bytes, q)) :
    n ≤ (ahead p).1.length ∧ bytes = packBits ((ahead p).1.take n) ∧ ahead q = ((ahead p).1.drop n, (ahead p).2) := by
  have hle : n ≤ (ahead p).1.length := by
    by_contra hlt
    obtain ⟨e, herr⟩ := hT.readBits_short p n (not_le.mp hlt)
    rw [herr] at h
    cases h
  obtain ⟨q', hread, hq⟩ := hT.readBits p n hle
  rw [hread] at h
  cases h
  exact ⟨hle, rfl, hq⟩

theorem readNum_eq_ok (hT : T.Lawful written ahead) {p q : T.Parser} {n v : Nat} (h : T.readNum p n = .ok (v, q)) :
    n ≤ (ahead p).1.length ∧ v = toNat ((ahead p).1.take n) ∧ ahead q = ((ahead p).1.drop n, (ahead p).2) := by
  have hle : n ≤ (ahead p).1.length := by
    by_contra hlt
    obtain ⟨e, herr⟩ := hT.readNum_short p n (not_le.mp hlt)
    rw [herr] at h
    cases h
  obtain ⟨q', hread, hq⟩ := hT.readNum p n hle
  rw [hread] at h
  cases h
  exact ⟨hle, rfl, hq⟩

theorem readRefAt_eq_ok (hT : T.Lawful written ahead) : ∀ {k : Nat} {p : T.Parser} {cell : TonCell},
    readRefAt T k p = .ok cell ↔ (ahead p).2[k]? = .some cell
  | k, p, cell => by
    refine ⟨fun h => ?_, readRefAt_spec hT k⟩
    cases hrefs : (ahead p).2 with
    | nil =>
      obtain ⟨e, herr⟩ := hT.readNextRef_nil p hrefs
      cases k <;> rw [readRefAt, herr] at h <;> cases h
    | cons first refs =>
      obtain ⟨q, hread, hq⟩ := hT.readNextRef_cons p first refs hrefs
      cases k with
      | zero =>
        rw [readRefAt, hread, mapErr_ok, Exec.ok_bind] at h
        cases h
        rfl
      | succ k =>
        rw [readRefAt, hread, mapErr_ok, Exec.ok_bind, readRefAt_eq_ok hT, hq] at h
        rwa [List.getElem?_cons_succ]

theorem readNumAt_eq_ok (hT : T.Lawful written ahead) {cell : TonCell} {offset width v : Nat} :
    readNumAt T cell offset width = .ok v ↔
      offset + width ≤ cell.bits.length ∧ v = toNat ((cell.bits.drop offset).take width) := by
  rw [readNumAt]
  constructor
  · intro h
    obtain ⟨⟨bytes, p⟩, hskip, h⟩ := Exec.bind_ok_iff.mp h
    obtain ⟨⟨value, q⟩, hnum, h⟩ := Exec.bind_ok_iff.mp h
    cases h
    obtain ⟨hle, -, hp⟩ := readBits_eq_ok hT (mapErr_eq_ok.mp hskip)
    obtain ⟨hwidth, rfl, -⟩ := readNum_eq_ok hT (mapErr_eq_ok.mp hnum)
    simp only [hT.parser] at hle hp
    rw [hp] at hwidth ⊢
    rw [List.length_drop] at hwidth
    exact ⟨by omega, rfl⟩
  · rintro ⟨hle, rfl⟩
    have hoffset : offset ≤ cell.bits.length := by omega
    obtain ⟨bytes, p, hread, hp⟩ := skip_spec hT hoffset
    obtain ⟨q, hnum, -⟩ := hT.readNum p width (by rw [hp, List.length_drop]; omega)
    simp only [hread, mapErr_ok, Exec.ok_bind, hnum, hp]
    rfl

/-! ## Fields -/

/-- The 18 bits that describe a field. -/
def infoAt (cell : TonCell) (i : Nat) : Info where
  type := toNat ((cell.bits.drop (80 + i * 18)).take 4)
  cell := toNat ((cell.bits.drop (84 + i * 18)).take 2)
  offset := toNat ((cell.bits.drop (86 + i * 18)).take 10)
  ref := toNat ((cell.bits.drop (96 + i * 18)).take 2)

/-- A number behind so many bits of a cell. -/
theorem readNum_behind (hT : T.Lawful written ahead) {cell : TonCell} {p : T.Parser} {k : Nat} (n : Nat)
    (hp : ahead p = (cell.bits.drop k, cell.refs)) (hle : k + n ≤ cell.bits.length) :
    ∃ q, T.readNum p n = .ok (toNat ((cell.bits.drop k).take n), q) ∧
      ahead q = (cell.bits.drop (k + n), cell.refs) := by
  obtain ⟨q, hread, hq⟩ := hT.readNum p n (by rw [hp]; simp only [List.length_drop]; omega)
  rw [hp] at hread hq
  exact ⟨q, hread, by rw [hq, List.drop_drop]⟩

theorem behind_of_readNum (hT : T.Lawful written ahead) {cell : TonCell} {p q : T.Parser} {k n v : Nat}
    (hp : ahead p = (cell.bits.drop k, cell.refs)) (hk : k ≤ cell.bits.length) (h : T.readNum p n = .ok (v, q)) :
    k + n ≤ cell.bits.length ∧ v = toNat ((cell.bits.drop k).take n) ∧
      ahead q = (cell.bits.drop (k + n), cell.refs) := by
  obtain ⟨hle, rfl, hq⟩ := readNum_eq_ok hT h
  rw [hp] at hle hq ⊢
  simp only [List.length_drop] at hle
  exact ⟨by omega, rfl, by rw [hq, List.drop_drop]⟩

theorem behind_of_readBits (hT : T.Lawful written ahead) {cell : TonCell} {p : T.Parser} {n : Nat} {bytes : List UInt8}
    (h : T.readBits (T.parser cell) n = .ok (bytes, p)) :
    n ≤ cell.bits.length ∧ ahead p = (cell.bits.drop n, cell.refs) := by
  obtain ⟨hle, -, hp⟩ := readBits_eq_ok hT h
  simp only [hT.parser] at hle hp
  exact ⟨hle, hp⟩

/-- This crate's description of a field. -/
theorem fieldInfo_eq_ok (hT : T.Lawful written ahead) {cell : TonCell} {i : Nat} {r : Nat × Nat × Nat × Nat} :
    fieldInfo T cell i = .ok r ↔ cell.Plain ∧ 98 + i * 18 ≤ cell.bits.length ∧
      r = ((infoAt cell i).type, (infoAt cell i).cell, (infoAt cell i).offset, (infoAt cell i).ref) := by
  have hat : ∀ a k, a + i * 18 + k = a + k + i * 18 := fun a k => Nat.add_right_comm _ _ _
  constructor
  · intro h
    obtain ⟨_, hplain, h⟩ := Exec.bind_ok_iff.mp h
    obtain ⟨⟨_, p⟩, hskip, h⟩ := Exec.bind_ok_iff.mp h
    obtain ⟨⟨t, p₁⟩, h₁, h⟩ := Exec.bind_ok_iff.mp h
    obtain ⟨⟨c, p₂⟩, h₂, h⟩ := Exec.bind_ok_iff.mp h
    obtain ⟨⟨o, p₃⟩, h₃, h⟩ := Exec.bind_ok_iff.mp h
    obtain ⟨⟨j, p₄⟩, h₄, h⟩ := Exec.bind_ok_iff.mp h
    obtain ⟨hle, hp⟩ := behind_of_readBits hT (tonError_eq_ok.mp hskip)
    obtain ⟨hle, ht, hp⟩ := behind_of_readNum hT hp hle (tonError_eq_ok.mp h₁)
    obtain ⟨hle, hc, hp⟩ := behind_of_readNum hT hp hle (tonError_eq_ok.mp h₂)
    obtain ⟨hle, ho, hp⟩ := behind_of_readNum hT hp hle (tonError_eq_ok.mp h₃)
    obtain ⟨hle, hj, -⟩ := behind_of_readNum hT hp hle (tonError_eq_ok.mp h₄)
    simp only [hat, Nat.reduceAdd] at hle ht hc ho hj
    refine ⟨requireOrdinary_ok_iff.mp hplain, hle, ?_⟩
    rw [← Except.ok.inj h, ht, hc, ho, hj]
    rfl
  · rintro ⟨hplain, hle, rfl⟩
    obtain ⟨p, hread, hp⟩ := hT.readBits (T.parser cell) (80 + i * 18) (by rw [hT.parser]; simp only; omega)
    simp only [hT.parser] at hp
    obtain ⟨p, h₁, hp⟩ := readNum_behind hT 4 hp (by omega)
    obtain ⟨p, h₂, hp⟩ := readNum_behind hT 2 hp (by omega)
    obtain ⟨p, h₃, hp⟩ := readNum_behind hT 10 hp (by omega)
    obtain ⟨p, h₄, -⟩ := readNum_behind hT 2 hp (by omega)
    simp only [fieldInfo, requireOrdinary_ok_iff.mpr hplain, Exec.ok_bind, hread, tonError, h₁, h₂, h₃, h₄, infoAt, hat,
      Nat.reduceAdd]
    rfl

/-- The other crate's description of the field. -/
theorem clFieldInfo_eq_ok (hT : T.Lawful written ahead) {cell : TonCell} {i : Nat} {r : Nat × Nat × Nat} :
    Ton.fieldInfo T cell i = .ok r ↔ cell.Plain ∧ 98 + i * 18 ≤ cell.bits.length ∧
      r = ((infoAt cell i).cell, (infoAt cell i).offset, (infoAt cell i).ref) := by
  have hstart : nameWidth + i * fieldInfoWidth + fieldTypeWidth = 84 + i * 18 := by
    simp only [nameWidth, fieldInfoWidth, fieldTypeWidth, cellIdWidth, dataOffsetWidth, refOffsetWidth]
    omega
  have hat : ∀ a k, a + i * 18 + k = a + k + i * 18 := fun a k => Nat.add_right_comm _ _ _
  rw [Ton.fieldInfo, hstart, cellIdWidth, dataOffsetWidth, refOffsetWidth]
  constructor
  · intro h
    obtain ⟨_, hplain, h⟩ := Exec.bind_ok_iff.mp h
    obtain ⟨⟨_, p⟩, hskip, h⟩ := Exec.bind_ok_iff.mp h
    obtain ⟨⟨c, p₂⟩, h₂, h⟩ := Exec.bind_ok_iff.mp h
    obtain ⟨⟨o, p₃⟩, h₃, h⟩ := Exec.bind_ok_iff.mp h
    obtain ⟨⟨j, p₄⟩, h₄, h⟩ := Exec.bind_ok_iff.mp h
    obtain ⟨hle, hp⟩ := behind_of_readBits hT (mapErr_eq_ok.mp hskip)
    obtain ⟨hle, hc, hp⟩ := behind_of_readNum hT hp hle (mapErr_eq_ok.mp h₂)
    obtain ⟨hle, ho, hp⟩ := behind_of_readNum hT hp hle (mapErr_eq_ok.mp h₃)
    obtain ⟨hle, hj, -⟩ := behind_of_readNum hT hp hle (mapErr_eq_ok.mp h₄)
    simp only [hat, Nat.reduceAdd] at hle hc ho hj
    refine ⟨Ton.requireOrdinary_ok_iff.mp hplain, hle, ?_⟩
    rw [← Except.ok.inj h, hc, ho, hj]
    rfl
  · rintro ⟨hplain, hle, rfl⟩
    obtain ⟨p, hread, hp⟩ := hT.readBits (T.parser cell) (84 + i * 18) (by rw [hT.parser]; simp only; omega)
    simp only [hT.parser] at hp
    obtain ⟨p, h₂, hp⟩ := readNum_behind hT 2 hp (by omega)
    obtain ⟨p, h₃, hp⟩ := readNum_behind hT 10 hp (by omega)
    obtain ⟨p, h₄, -⟩ := readNum_behind hT 2 hp (by omega)
    simp only [requireOrdinary_of_plain hplain, Exec.ok_bind, hread, mapErr_ok, h₂, h₃, h₄, infoAt, hat,
      Nat.reduceAdd]
    rfl

theorem dataCell_eq_ok {cell target : TonCell} {k : Nat} :
    dataCell cell k = .ok target ↔ Reaches cell k target ∧ target.Plain := by
  have hreach : Reaches cell k target ↔ (if k = 0 then .some cell else cell.refs[k]?) = .some target := by
    rw [Reaches]
    by_cases hk : k = 0
    · rw [if_pos hk, if_pos hk]
      exact ⟨fun h => h ▸ rfl, fun h => (Option.some.inj h).symm⟩
    · rw [if_neg hk, if_neg hk]
  rw [hreach, dataCell, ← requireOrdinary_ok_iff]
  split
  next found hfound =>
    rw [hfound]
    constructor
    · intro h
      obtain ⟨_, hplain, h⟩ := Exec.bind_ok_iff.mp h
      obtain rfl := Except.ok.inj h
      exact ⟨rfl, hplain⟩
    · rintro ⟨hsome, hplain⟩
      cases hsome
      rw [hplain]
      rfl
  next hnone =>
    rw [hnone]
    exact ⟨fun h => (by cases h), fun h => (by cases h.1)⟩

/-! ## Two readers -/

/-- The cell that a field is in. -/
structure FieldIn (cell : TonCell) (i : Nat) (target : TonCell) : Prop where
  plain : cell.Plain
  long : 98 + i * 18 ≤ cell.bits.length
  reaches : Reaches cell (infoAt cell i).cell target
  target : target.Plain

/-- A field's bits. -/
def FieldBits (cell : TonCell) (i width : Nat) (part : List Bool) : Prop :=
  ∃ target, FieldIn cell i target ∧ (infoAt cell i).offset + width ≤ target.bits.length ∧
    part = (target.bits.drop (infoAt cell i).offset).take width

theorem classBytes_eq_ok (hT : T.Lawful written ahead) (hops : ops.Lawful ahead) {cell : TonCell} {i width : Nat}
    {bytes : List UInt8} : classBytes ops cell i width = .ok bytes ↔
      (infoAt cell i).type ≠ 9 ∧ ∃ part, FieldBits cell i width part ∧ bytes = packBits part := by
  rw [classBytes]
  constructor
  · intro h
    obtain ⟨r, hinfo, h⟩ := Exec.bind_ok_iff.mp h
    obtain ⟨hplain, hlong, rfl⟩ := (fieldInfo_eq_ok hT).mp hinfo
    dsimp only at h
    split at h
    next => cases h
    next htype =>
      obtain ⟨target, hdata, h⟩ := Exec.bind_ok_iff.mp h
      obtain ⟨p, hseek, h⟩ := Exec.bind_ok_iff.mp h
      obtain ⟨⟨out, q⟩, hread, h⟩ := Exec.bind_ok_iff.mp h
      obtain rfl := Except.ok.inj h
      obtain ⟨hreach, htarget⟩ := dataCell_eq_ok.mp hdata
      have hseek := tonError_eq_ok.mp hseek
      have hle : (infoAt cell i).offset ≤ target.bits.length := by
        by_contra hlt
        obtain ⟨e, herr⟩ := hops.seekBits_short target _ (not_le.mp hlt)
        rw [herr] at hseek
        cases hseek
      obtain ⟨p', hok, hp⟩ := hops.seekBits target _ hle
      rw [hok] at hseek
      cases hseek
      obtain ⟨hwidth, rfl, -⟩ := readBits_eq_ok hT (tonError_eq_ok.mp hread)
      rw [hp] at hwidth ⊢
      simp only [List.length_drop] at hwidth
      exact ⟨htype, _, ⟨target, ⟨hplain, hlong, hreach, htarget⟩, by omega, rfl⟩, rfl⟩
  · rintro ⟨htype, part, ⟨target, hin, hle, rfl⟩, rfl⟩
    obtain ⟨p, hseek, hp⟩ := hops.seekBits target (infoAt cell i).offset (by omega)
    obtain ⟨q, hread, -⟩ := hT.readBits p width (by rw [hp]; simp only [List.length_drop]; omega)
    rw [hp] at hread
    rw [(fieldInfo_eq_ok hT).mpr ⟨hin.plain, hin.long, rfl⟩, Exec.ok_bind]
    dsimp only
    rw [if_neg htype, dataCell_eq_ok.mpr ⟨hin.reaches, hin.target⟩, Exec.ok_bind, hseek, tonError, Exec.ok_bind, hread]
    rfl

theorem clGetUintBe_eq_ok (hT : T.Lawful written ahead) {cell : TonCell} {i width : Nat} {bytes : List UInt8} :
    clGetUintBe T cell i width = .ok bytes ↔ ∃ part, FieldBits cell i width part ∧
      bytes = List.replicate ((width + 7) / 8 - (toBytesBe (toNat part)).length) 0 ++ toBytesBe (toNat part) := by
  rw [clGetUintBe]
  constructor
  · intro h
    obtain ⟨r, hinfo, h⟩ := Exec.bind_ok_iff.mp h
    obtain ⟨hplain, hlong, rfl⟩ := (clFieldInfo_eq_ok hT).mp hinfo
    dsimp only at h
    by_cases hzero : (infoAt cell i).cell = 0
    · rw [if_pos hzero] at h
      obtain ⟨v, hnum, h⟩ := Exec.bind_ok_iff.mp h
      obtain rfl := Except.ok.inj h
      obtain ⟨hle, rfl⟩ := (readNumAt_eq_ok hT).mp hnum
      exact ⟨_, ⟨cell, ⟨hplain, hlong, by rw [Reaches, if_pos hzero], hplain⟩, hle, rfl⟩, rfl⟩
    · rw [if_neg hzero] at h
      obtain ⟨target, href, h⟩ := Exec.bind_ok_iff.mp h
      obtain ⟨_, htarget, h⟩ := Exec.bind_ok_iff.mp h
      obtain ⟨v, hnum, h⟩ := Exec.bind_ok_iff.mp h
      obtain rfl := Except.ok.inj h
      obtain ⟨hle, rfl⟩ := (readNumAt_eq_ok hT).mp hnum
      rw [readRefAt_eq_ok hT, hT.parser] at href
      exact ⟨_, ⟨target, ⟨hplain, hlong, by rw [Reaches, if_neg hzero]; exact href,
        Ton.requireOrdinary_ok_iff.mp htarget⟩, hle, rfl⟩, rfl⟩
  · rintro ⟨part, ⟨target, hin, hle, rfl⟩, rfl⟩
    have hnum := (readNumAt_eq_ok hT).mpr ⟨hle, rfl⟩
    have hreach := hin.reaches
    rw [(clFieldInfo_eq_ok hT).mpr ⟨hin.plain, hin.long, rfl⟩, Exec.ok_bind]
    dsimp only
    rw [Reaches] at hreach
    by_cases hzero : (infoAt cell i).cell = 0
    · rw [if_pos hzero] at hreach
      subst hreach
      rw [if_pos hzero, hnum]
      rfl
    · rw [if_neg hzero] at hreach
      have href : readRefAt T (infoAt cell i).cell (T.parser cell) = .ok target :=
        (readRefAt_eq_ok hT).mpr (by rw [hT.parser]; exact hreach)
      rw [if_neg hzero, href, Exec.ok_bind, requireOrdinary_of_plain hin.target, Exec.ok_bind, hnum]
      rfl

/-- Whole bytes of a field are the same for both readers. -/
theorem FieldBits.bytes {cell : TonCell} {i width : Nat} {part : List Bool} (h : FieldBits cell i width part)
    (hpos : 0 < width) (hwidth : width % 8 = 0) :
    List.replicate ((width + 7) / 8 - (toBytesBe (toNat part)).length) 0 ++ toBytesBe (toNat part) = packBits part := by
  obtain ⟨target, -, hle, rfl⟩ := h
  have hlength : ((target.bits.drop (infoAt cell i).offset).take width).length = 8 * (width / 8) := by
    rw [List.length_take, List.length_drop]
    omega
  have hbytes := (packBits_whole _ hlength).1
  have hcount : (width + 7) / 8 = width / 8 := by omega
  have hne : packBits ((target.bits.drop (infoAt cell i).offset).take width) ≠ [] := by
    rw [← List.length_pos_iff, hbytes]
    omega
  have hback := zeros_toBytesBe hne
  rwa [ofBytes_packBits hlength, hbytes, ← hcount] at hback

/-- **A number is read here** just when it is read there and is no reference. -/
theorem classBytes_iff (hT : T.Lawful written ahead) (hops : ops.Lawful ahead) {cell : TonCell} {i width : Nat}
    {bytes : List UInt8} (hpos : 0 < width) (hwidth : width % 8 = 0) :
    classBytes ops cell i width = .ok bytes ↔
      (infoAt cell i).type ≠ 9 ∧ clGetUintBe T cell i width = .ok bytes := by
  rw [classBytes_eq_ok hT hops, clGetUintBe_eq_ok hT]
  refine and_congr_right fun _ => exists_congr fun part => and_congr_right fun hpart => ?_
  rw [hpart.bytes hpos hwidth]

/-- A field's reference. -/
def FieldRef (cell : TonCell) (i : Nat) (child : TonCell) : Prop :=
  ∃ target, FieldIn cell i target ∧ target.refs[(infoAt cell i).ref]? = .some child

theorem classRef_eq_ok (hT : T.Lawful written ahead) {cell : TonCell} {i : Nat} {child : TonCell} :
    classRef T cell i = .ok child ↔ (infoAt cell i).type = 9 ∧ FieldRef cell i child := by
  rw [classRef]
  constructor
  · intro h
    obtain ⟨r, hinfo, h⟩ := Exec.bind_ok_iff.mp h
    obtain ⟨hplain, hlong, rfl⟩ := (fieldInfo_eq_ok hT).mp hinfo
    dsimp only at h
    split at h
    next => cases h
    next htype =>
      obtain ⟨target, hdata, h⟩ := Exec.bind_ok_iff.mp h
      obtain ⟨hreach, htarget⟩ := dataCell_eq_ok.mp hdata
      refine ⟨not_not.mp htype, target, ⟨hplain, hlong, hreach, htarget⟩, ?_⟩
      split at h
      next found hfound => rw [hfound, Except.ok.inj h]
      next => cases h
  · rintro ⟨htype, target, hin, href⟩
    rw [(fieldInfo_eq_ok hT).mpr ⟨hin.plain, hin.long, rfl⟩, Exec.ok_bind]
    dsimp only
    rw [if_neg (not_not.mpr htype), dataCell_eq_ok.mpr ⟨hin.reaches, hin.target⟩, Exec.ok_bind, href]

theorem clGetRef_eq_ok (hT : T.Lawful written ahead) {cell : TonCell} {i : Nat} {child : TonCell} :
    clGetRef T cell i = .ok child ↔ FieldRef cell i child := by
  rw [clGetRef]
  constructor
  · intro h
    obtain ⟨r, hinfo, h⟩ := Exec.bind_ok_iff.mp h
    obtain ⟨hplain, hlong, rfl⟩ := (clFieldInfo_eq_ok hT).mp hinfo
    dsimp only at h
    by_cases hzero : (infoAt cell i).cell = 0
    · rw [if_pos hzero, readRefAt_eq_ok hT, hT.parser] at h
      exact ⟨cell, ⟨hplain, hlong, by rw [Reaches, if_pos hzero], hplain⟩, h⟩
    · rw [if_neg hzero] at h
      obtain ⟨target, href, h⟩ := Exec.bind_ok_iff.mp h
      obtain ⟨_, htarget, h⟩ := Exec.bind_ok_iff.mp h
      rw [readRefAt_eq_ok hT, hT.parser] at href h
      exact ⟨target, ⟨hplain, hlong, by rw [Reaches, if_neg hzero]; exact href,
        Ton.requireOrdinary_ok_iff.mp htarget⟩, h⟩
  · rintro ⟨target, hin, href⟩
    have hread : readRefAt T (infoAt cell i).ref (T.parser target) = .ok child :=
      (readRefAt_eq_ok hT).mpr (by rw [hT.parser]; exact href)
    have hreach := hin.reaches
    rw [(clFieldInfo_eq_ok hT).mpr ⟨hin.plain, hin.long, rfl⟩, Exec.ok_bind]
    dsimp only
    rw [Reaches] at hreach
    by_cases hzero : (infoAt cell i).cell = 0
    · rw [if_pos hzero] at hreach
      subst hreach
      rw [if_pos hzero, hread]
    · rw [if_neg hzero] at hreach
      have hnext : readRefAt T (infoAt cell i).cell (T.parser cell) = .ok target :=
        (readRefAt_eq_ok hT).mpr (by rw [hT.parser]; exact hreach)
      rw [if_neg hzero, hnext, Exec.ok_bind, requireOrdinary_of_plain hin.target, Exec.ok_bind, hread]

/-- **A reference is read here** just when it is read there and is one by its type. -/
theorem classRef_iff (hT : T.Lawful written ahead) {cell : TonCell} {i : Nat} {child : TonCell} :
    classRef T cell i = .ok child ↔ (infoAt cell i).type = 9 ∧ clGetRef T cell i = .ok child := by
  rw [classRef_eq_ok hT, clGetRef_eq_ok hT]

/-! ## Names -/

theorem drop_zeros (n : Nat) {first : UInt8} (rest : List UInt8) (h : first ≠ 0) :
    (List.replicate n 0 ++ first :: rest).drop ((List.replicate n 0 ++ first :: rest).findIdx (· ≠ 0)) =
      first :: rest := by
  induction n with
  | zero =>
    have hidx : (first :: rest).findIdx (· ≠ 0) = 0 := by
      rw [List.findIdx_cons, decide_eq_true h]
      rfl
    rw [List.replicate_zero, List.nil_append, hidx, List.drop_zero]
  | succ n ih =>
    have hidx : ((0 : UInt8) :: (List.replicate n 0 ++ first :: rest)).findIdx (· ≠ 0) =
        (List.replicate n 0 ++ first :: rest).findIdx (· ≠ 0) + 1 := by
      rw [List.findIdx_cons]
      rfl
    rw [List.replicate_succ, List.cons_append, hidx, List.drop_succ_cons, ih]

/-- Bytes are zeros, then nothing or one that is not. -/
theorem zeros_or_first (bytes : List UInt8) : bytes = List.replicate bytes.length 0 ∨
    ∃ n first rest, bytes = List.replicate n 0 ++ first :: rest ∧ first ≠ 0 := by
  induction bytes with
  | nil => exact .inl rfl
  | cons byte bytes ih =>
    by_cases hbyte : byte = 0
    · rcases ih with hzeros | ⟨n, first, rest, hbytes, hne⟩
      · exact .inl (by rw [List.length_cons, List.replicate_succ, ← hzeros, hbyte])
      · exact .inr ⟨n + 1, first, rest, by rw [hbyte, List.replicate_succ, List.cons_append, ← hbytes], hne⟩
    · exact .inr ⟨0, byte, bytes, rfl, hbyte⟩

theorem drop_all_zeros (n : Nat) :
    (List.replicate n (0 : UInt8)).drop ((List.replicate n (0 : UInt8)).findIdx (· ≠ 0)) = [] := by
  have hidx : (List.replicate n (0 : UInt8)).findIdx (· ≠ 0) = (List.replicate n (0 : UInt8)).length := by
    refine List.findIdx_eq_length.mpr fun byte hbyte => ?_
    rw [List.eq_of_mem_replicate hbyte]
    rfl
  rw [hidx, List.drop_length]

/-- **A name is read here** just when it is read there, unless it is empty. -/
theorem className_cellName (hT : T.Lawful written ahead) {utf8Error : List UInt8 → String} {cell : TonCell}
    {name : String} (h : className T utf8Error cell = .ok name) (hne : name ≠ "") :
    cellName T utf8Error cell = .ok name := by
  rw [className] at h
  obtain ⟨_, hplain, h⟩ := Exec.bind_ok_iff.mp h
  obtain ⟨⟨bytes, p⟩, hread, h⟩ := Exec.bind_ok_iff.mp h
  obtain ⟨hle, rfl, -⟩ := readBits_eq_ok hT (tonError_eq_ok.mp hread)
  obtain ⟨q, hnum, -⟩ := hT.readNum (T.parser cell) 80 hle
  have hlength : ((ahead (T.parser cell)).1.take 80).length = 8 * 10 := by
    rw [List.length_take]
    omega
  dsimp only at h
  split at h
  next found hfound =>
    obtain rfl := Except.ok.inj h
    have hbytes : toBytesBe (toNat ((ahead (T.parser cell)).1.take 80)) =
        (packBits ((ahead (T.parser cell)).1.take 80)).drop
          ((packBits ((ahead (T.parser cell)).1.take 80)).findIdx (· ≠ 0)) := by
      rw [← ofBytes_packBits hlength]
      rcases zeros_or_first (packBits ((ahead (T.parser cell)).1.take 80)) with
        hzeros | ⟨n, first, rest, hsplit, hfirst⟩
      · rw [hzeros, drop_all_zeros] at hfound
        exact absurd (Option.some.inj hfound).symm hne
      · rw [hsplit, drop_zeros n rest hfirst, ofBytes_zeros, toBytesBe_ofBytes rest hfirst]
    rw [cellName, requireOrdinary_of_plain (requireOrdinary_ok_iff.mp hplain), Exec.ok_bind, nameWidth, hnum, mapErr_ok,
      Exec.ok_bind]
    dsimp only
    rw [hbytes]
    rw [fromUtf8] at hfound
    rw [hfound]
    rfl
  next => cases h

/-! ## Snakes -/

theorem pushBits_eq (hT : T.Lawful written ahead) : ∀ {count : Nat} {p : T.Parser} (bits : List Bool),
    (ahead p).1.length = count → pushBits T count p bits = .ok (bits ++ (ahead p).1)
  | 0, p, bits, h => by rw [pushBits, List.length_eq_zero_iff.mp h, List.append_nil]
  | count + 1, p, bits, h => by
    cases hahead : (ahead p).1 with
    | nil => rw [hahead] at h; cases h
    | cons bit rest =>
      rw [hahead] at h
      obtain ⟨q, hread, hq⟩ := hT.readBit_cons p bit rest hahead
      have hrest := pushBits_eq hT (bits ++ [bit]) (show (ahead q).1.length = count by rw [hq]; exact Nat.succ.inj h)
      rw [pushBits, hread, tonError, Exec.ok_bind]
      dsimp only
      rw [hrest, hq, List.append_assoc, List.singleton_append]

theorem byteBits_append (a b : List UInt8) : byteBits (a ++ b) = byteBits a ++ byteBits b := List.flatMap_append

/-- The bits of a snake's cells, in order. -/
theorem flattenBits_snake (hT : T.Lawful written ahead) (hops : ops.Lawful ahead) {cell : TonCell}
    {cs : List (List UInt8)} (h : Snake cell cs) :
    ∀ bits, flattenBits ops cell bits = .ok (bits ++ byteBits cs.flatten) := by
  have hcell : ∀ (bytes : List UInt8) (refs : List TonCell) (bits : List Bool),
      requireOrdinary (.mk .ordinary 0 (byteBits bytes) refs) = .ok () ∧
      pushBits T (byteBits bytes).length (T.parser (.mk .ordinary 0 (byteBits bytes) refs)) bits =
        .ok (bits ++ byteBits bytes) := by
    intro bytes refs bits
    have hpush := pushBits_eq hT (p := T.parser (.mk .ordinary 0 (byteBits bytes) refs)) bits rfl
    rw [hT.parser] at hpush
    exact ⟨requireOrdinary_ok_iff.mpr ⟨rfl, rfl⟩, hpush⟩
  induction h with
  | last bytes =>
    intro bits
    obtain ⟨hordinary, hpush⟩ := hcell bytes [] bits
    rw [flattenBits, hordinary, Exec.ok_bind, hops.dataBitsLeft, tonError, Exec.ok_bind, hT.parser]
    simp only [TonCell.bits, hpush, Exec.ok_bind, List.flatten_singleton]
    rfl
  | @next bytes child rest h ih =>
    intro bits
    obtain ⟨hordinary, hpush⟩ := hcell bytes [child] bits
    rw [flattenBits, hordinary, Exec.ok_bind, hops.dataBitsLeft, tonError, Exec.ok_bind, hT.parser]
    simp only [TonCell.bits, hpush, Exec.ok_bind, List.flatten_cons, byteBits_append, ih, List.append_assoc]

/-- A byte with one more bit, the `j`-th from the left. -/
def orBit (bit : Bool) (j : Nat) (byte : UInt8) : UInt8 := if bit then byte ||| 1 <<< UInt8.ofNat (7 - j) else byte

theorem setBit_block {before : List UInt8} (byte : UInt8) (after : List UInt8) (bit : Bool) {j : Nat} (hj : j < 8) :
    setBit (before ++ byte :: after) (bit, 8 * before.length + j) =
      .ok (before ++ orBit bit j byte :: after) := by
  have hdiv : (8 * before.length + j) / 8 = before.length := by omega
  have hmod : (8 * before.length + j) % 8 = j := by omega
  rw [setBit]
  dsimp only
  rw [hdiv, hmod]
  cases bit with
  | false => rfl
  | true =>
    rw [if_pos rfl, List.getElem?_append_right le_rfl, Nat.sub_self, List.getElem?_cons_zero, Exec.get_some,
      Exec.ok_bind, List.set_append_right _ _ le_rfl, Nat.sub_self, List.set_cons_zero]
    rfl

/-- Eight bits are set in one byte. -/
theorem setBits_byte {before : List UInt8} (after : List UInt8) {bits : List Bool} (h : bits.length = 8) :
    (bits.zipIdx (8 * before.length)).foldlM setBit (before ++ 0 :: after) =
      .ok (before ++ UInt8.ofNat (toNat bits) :: after) := by
  obtain ⟨a, b, c, d, e, f, g, i, rfl⟩ : ∃ a b c d e f g i, bits = [a, b, c, d, e, f, g, i] := by
    match bits, h with
    | [a, b, c, d, e, f, g, i], _ => exact ⟨a, b, c, d, e, f, g, i, rfl⟩
  have hstep : ∀ (byte : UInt8) (bit : Bool) (j : Nat), j < 8 → ∀ rest : List (Bool × Nat),
      ((bit, 8 * before.length + j) :: rest).foldlM setBit (before ++ byte :: after) =
        rest.foldlM setBit (before ++ orBit bit j byte :: after) := by
    intro byte bit j hj rest
    rw [List.foldlM_cons, setBit_block byte after bit hj, Exec.ok_bind]
  simp only [List.zipIdx_cons, List.zipIdx_nil, Nat.add_assoc, Nat.reduceAdd]
  have hfirst := hstep 0 a 0 (by decide)
  rw [Nat.add_zero] at hfirst
  rw [hfirst, hstep _ b 1 (by decide), hstep _ c 2 (by decide), hstep _ d 3 (by decide), hstep _ e 4 (by decide),
    hstep _ f 5 (by decide), hstep _ g 6 (by decide), hstep _ i 7 (by decide)]
  have hbyte : ∀ a b c d e f g i : Bool, orBit i 7 (orBit g 6 (orBit f 5 (orBit e 4 (orBit d 3 (orBit c 2 (orBit b 1
      (orBit a 0 0))))))) = UInt8.ofNat (toNat [a, b, c, d, e, f, g, i]) := by
    decide
  exact congrArg (fun byte => Except.ok (before ++ byte :: after)) (hbyte a b c d e f g i)

theorem setBits_bytes : ∀ (bytes before : List UInt8),
    ((byteBits bytes).zipIdx (8 * before.length)).foldlM setBit (before ++ List.replicate bytes.length 0) =
      .ok (before ++ bytes)
  | [], before => by simp [byteBits]
  | byte :: bytes, before => by
    have hsplit : byteBits (byte :: bytes) = ofNat 8 byte.toNat ++ byteBits bytes := rfl
    have hrest := setBits_bytes bytes (before ++ [byte])
    have hlength : 8 * (before ++ [byte]).length = 8 * before.length + (ofNat 8 byte.toNat).length := by
      rw [List.length_append, List.length_singleton, length_ofNat]
      omega
    have hbyte : UInt8.ofNat (toNat (ofNat 8 byte.toNat)) = byte := by
      rw [toNat_ofNat byte.toNat_lt, UInt8.ofNat_toNat]
    rw [hlength, List.append_assoc, List.append_assoc, List.singleton_append, List.singleton_append] at hrest
    rw [hsplit, List.zipIdx_append, List.foldlM_append, List.length_cons, List.replicate_succ,
      setBits_byte _ (length_ofNat 8 _), hbyte, Exec.ok_bind, hrest]

/-- **The bytes of a snake** come back. -/
theorem flattenCellBytes_snake (hT : T.Lawful written ahead) (hops : ops.Lawful ahead) {cell : TonCell}
    {cs : List (List UInt8)} (h : Snake cell cs) : flattenCellBytes ops cell = .ok cs.flatten := by
  have hcount : ((byteBits cs.flatten).length + 7) / 8 = cs.flatten.length := by
    rw [length_byteBits]
    omega
  rw [flattenCellBytes, flattenBits_snake hT hops h, List.nil_append, Exec.ok_bind, hcount]
  exact setBits_bytes cs.flatten []

/-! ## What the other crate makes -/

/-- The first bits of each field's description are its type. -/
def HeaderTypes (name : String) (fields : List ClField) (bits : List Bool) : Prop :=
  ∃ infos, bits = ofNat nameWidth (asciiName name) ++ infos ∧ infos.length = fieldInfoWidth * fields.length ∧
    ∀ i field, fields[i]? = .some field →
      At infos (fieldInfoWidth * i) (ofNat fieldTypeWidth field.type.toNat) ∧ field.type.toNat < 2 ^ fieldTypeWidth

theorem HeaderTypes.snoc {name : String} {fields : List ClField} {field : ClField} {bits : List Bool} {info : Info}
    (h : HeaderTypes name fields bits) (hfits : info.Fits) (htype : info.type = field.type.toNat) :
    HeaderTypes name (fields ++ [field]) (bits ++ info.bits) := by
  obtain ⟨infos, hbits, hlen, hall⟩ := h
  refine ⟨infos ++ info.bits, by rw [hbits, List.append_assoc], ?_, fun i f hf => ?_⟩
  · rw [List.length_append, hlen, Info.length_bits, List.length_append, List.length_singleton, Nat.mul_succ]
  · rcases lt_or_ge i fields.length with hi | hi
    · rw [List.getElem?_append_left hi] at hf
      obtain ⟨hat, hlt⟩ := hall i f hf
      exact ⟨hat.append _, hlt⟩
    · rw [List.getElem?_append_right hi, List.getElem?_singleton] at hf
      split at hf
      next hzero =>
        obtain rfl : i = fields.length := by omega
        cases hf
        have hend := at_end infos info.bits
        have hlt := hfits.type
        rw [hlen, Info.bits, htype] at hend
        rw [htype] at hlt
        rw [Info.bits, htype]
        exact ⟨hend.left, hlt⟩
      · cases hf

/-- One turn of the loop. -/
theorem declareField_types (hT : T.Lawful written ahead) {name : String} {fields : List ClField} {d d' : Draft T}
    {field : ClField} (hd : Drafted written name fields d) (h : HeaderTypes name fields (written d.header).1)
    (hrun : d.declareField field = .ok d') : HeaderTypes name (fields ++ [field]) (written d'.header).1 := by
  obtain ⟨d₁, hstore, hdescribe⟩ := Exec.bind_ok_iff.mp hrun
  have hspill := hd.spillData hT field.bits
  obtain ⟨hspill', -⟩ := hspill.placed.spillRef hT field.bits
  obtain ⟨cells, -, hd₁⟩ := Draft.store_eq hstore
  have hheader : d₁.header = d.header := by rw [hd₁]; exact hspill'.header.trans hspill.header
  obtain ⟨hfits, header, hwritten, rfl⟩ := (describe_yields hT d₁ field).2 d' hdescribe
  have hadvance : (d₁.advance field header).header = header := by
    rw [Draft.advance]
    split <;> rfl
  have htype : (d₁.info field).type = field.type.toNat := by
    rw [Draft.info]
    split <;> rfl
  rw [hadvance, hwritten, hheader]
  exact h.snoc hfits htype

theorem clDeclare_types (hT : T.Lawful written ahead) {name : String} {fields : List ClField} {cell : TonCell}
    (htyped : ∀ field ∈ fields, field.Typed) (h : clDeclare T name fields = .ok cell) {i : Nat} {field : ClField}
    (hi : fields[i]? = .some field) : (infoAt cell i).type = field.type.toNat := by
  obtain ⟨header, d, hheader, hfold, hd, hcell⟩ := clDeclare_parts hT htyped h
  have hstart : HeaderTypes name [] (written (Draft.start header).header).1 :=
    ⟨[], by rw [List.append_nil, Draft.start, hheader], rfl, fun i field hi => by simp at hi⟩
  have hrun := Exec.yields_foldlM (f := Draft.declareField)
    (P := fun done d => Drafted written name done d ∧ HeaderTypes name done (written d.header).1) fields [] _
    (fun done field hfield d hd => by
      have hyields := hd.1.declareField hT (htyped field hfield)
      exact ⟨hyields.1, fun d' hd' => ⟨hyields.2 d' hd', declareField_types hT hd.1 hd.2 hd'⟩⟩)
    ⟨drafted_nil hT hheader, hstart⟩
  obtain ⟨infos, hinfos, -, hall⟩ := (hrun.2 d hfold).2
  obtain ⟨hat, hlt⟩ := hall i field hi
  obtain ⟨front, -, ⟨more, hmore⟩, hbits⟩ := hcell.header
  have hcellBits : cell.bits = ofNat nameWidth (asciiName name) ++ (infos ++ (more ++ (d.at written 1).1)) := by
    rw [hbits, ← hmore, hinfos]
    simp only [List.append_assoc]
  have hat := (hat.append (more ++ (d.at written 1).1)).after (ofNat nameWidth (asciiName name))
  rw [length_ofNat, ← hcellBits] at hat
  have hplace : nameWidth + fieldInfoWidth * i = 80 + i * 18 := by
    rw [Nat.mul_comm]
    rfl
  rw [hplace] at hat
  obtain ⟨rest, hrest⟩ := hat
  have htake : (cell.bits.drop (80 + i * 18)).take fieldTypeWidth = ofNat fieldTypeWidth field.type.toNat := by
    rw [← hrest, List.take_left' (length_ofNat _ _)]
  have hvalue := toNat_ofNat hlt
  rw [← htake] at hvalue
  exact hvalue

theorem Encodes.className (hT : T.Lawful written ahead) {name : String} {fields : List ClField} {cell : TonCell}
    (h : Encodes name fields cell) (hplain : cell.Plain) (hname : NameFits name) (hlt : asciiName name < 2 ^ nameWidth)
    (utf8Error : List UInt8 → String) : ClassReader.className T utf8Error cell = .ok name := by
  obtain ⟨first, tail, hbytes, hfirst, htail⟩ := hname
  obtain ⟨rest, hrest⟩ := h.name
  rw [List.drop_zero] at hrest
  have htake : cell.bits.take nameWidth = ofNat nameWidth (asciiName name) := by
    rw [← hrest, List.take_left' (length_ofNat _ _)]
  have hle : 80 ≤ cell.bits.length := by
    rw [← hrest, List.length_append, length_ofNat]
    exact Nat.le_add_right _ _
  have hlength : (cell.bits.take 80).length = 8 * 10 := by rw [List.length_take]; omega
  -- Ten bytes of the same number are the same bytes.
  have hpacked : packBits (cell.bits.take 80) = List.replicate (10 - (first :: tail).length) 0 ++ first :: tail := by
    have hpad : (List.replicate (10 - (first :: tail).length) 0 ++ first :: tail).length = 10 := by
      rw [List.length_append, List.length_replicate, List.length_cons]
      omega
    have hvalue : ofBytes (packBits (cell.bits.take 80)) =
        ofBytes (List.replicate (10 - (first :: tail).length) 0 ++ first :: tail) := by
      have hnumber : toNat (cell.bits.take nameWidth) = asciiName name := by rw [htake, toNat_ofNat hlt]
      rw [ofBytes_packBits hlength, ← nameWidth, hnumber, ofBytes_zeros, ← hbytes, asciiName]
    have hleft := bytesOf_ofBytes (packBits (cell.bits.take 80))
    have hright := bytesOf_ofBytes (List.replicate (10 - (first :: tail).length) 0 ++ first :: tail)
    rw [(packBits_whole 10 hlength).1, hvalue] at hleft
    rw [hpad] at hright
    exact hleft.symm.trans hright
  obtain ⟨p, hread, -⟩ := hT.readBits (T.parser cell) 80 (by rw [hT.parser]; exact hle)
  simp only [hT.parser] at hread
  rw [ClassReader.className, requireOrdinary_ok_iff.mpr hplain, Exec.ok_bind, hread, tonError, Exec.ok_bind]
  dsimp only
  rw [hpacked, drop_zeros _ _ hfirst, ← hbytes, fromUtf8, fromUTF8_nameBytes]
  rfl

/-- What both readers find in a class cell that is made here. -/
structure ReadAlike (ops : ParserOps T) (utf8Error : List UInt8 → String) (name : String) (fields : List ClField)
    (cell : TonCell) : Prop where
  name : ∀ n, ClassReader.className T utf8Error cell = .ok n ↔ cellName T utf8Error cell = .ok n
  num : ∀ i typeCode value, fields[i]? = .some (.num typeCode value) → 3 ≤ typeCode → ∀ bytes,
    classBytes ops cell i (2 ^ typeCode.toNat) = .ok bytes ↔ clGetUintBe T cell i (2 ^ typeCode.toNat) = .ok bytes
  ref : ∀ i child, fields[i]? = .some (.ref child) → ∀ found,
    classRef T cell i = .ok found ↔ clGetRef T cell i = .ok found

/-- What this crate reads of a class cell without levels. -/
structure ReadBack (ops : ParserOps T) (utf8Error : List UInt8 → String) (name : String) (fields : List ClField)
    (cell : TonCell) : Prop where
  name : ClassReader.className T utf8Error cell = .ok name
  num : ∀ i typeCode value, fields[i]? = .some (.num typeCode value) → 3 ≤ typeCode → ∃ bytes,
    classBytes ops cell i (2 ^ typeCode.toNat) = .ok bytes ∧ bytes.length = (2 ^ typeCode.toNat + 7) / 8 ∧
      ofBytes bytes = value
  ref : ∀ i child, fields[i]? = .some (.ref child) → classRef T cell i = .ok child

theorem clDeclare_readAlike (hT : T.Lawful written ahead) (hops : ops.Lawful ahead) (utf8Error : List UInt8 → String)
    {name : String} {fields : List ClField} {cell : TonCell} (hname : NameFits name)
    (htyped : ∀ field ∈ fields, field.Typed) (h : clDeclare T name fields = .ok cell) :
    ReadAlike ops utf8Error name fields cell ∧ (LevelZero fields → ReadBack ops utf8Error name fields cell) := by
  obtain ⟨hlt, hencodes⟩ := (clDeclare_yields hT name fields htyped).2 cell h
  have hnum : ∀ i typeCode value, fields[i]? = .some (.num typeCode value) → 3 ≤ typeCode → ∀ bytes,
      classBytes ops cell i (2 ^ typeCode.toNat) = .ok bytes ↔
        clGetUintBe T cell i (2 ^ typeCode.toNat) = .ok bytes := by
    intro i typeCode value hi hwide bytes
    have hcode : typeCode.toNat ≤ 8 := UInt8.le_iff_toNat_le.mp (htyped _ (List.mem_of_getElem? hi))
    have hthree : 3 ≤ typeCode.toNat := UInt8.le_iff_toNat_le.mp hwide
    have hwhole : 2 ^ typeCode.toNat % 8 = 0 := Nat.mod_eq_zero_of_dvd (pow_dvd_pow 2 hthree)
    have htype : (infoAt cell i).type = typeCode.toNat := clDeclare_types hT htyped h hi
    rw [classBytes_iff hT hops (Nat.two_pow_pos _) hwhole]
    exact and_iff_right (by rw [htype]; omega)
  have href : ∀ i child, fields[i]? = .some (.ref child) → ∀ found,
      classRef T cell i = .ok found ↔ clGetRef T cell i = .ok found := by
    intro i child hi found
    have htype : (infoAt cell i).type = tRef.toNat := clDeclare_types hT htyped h hi
    rw [classRef_iff hT]
    exact and_iff_right htype
  refine ⟨⟨fun n => ?_, hnum, href⟩, fun hzero => ?_⟩
  · constructor
    · intro hread
      obtain ⟨_, hplain, -⟩ := Exec.bind_ok_iff.mp hread
      have hplain := requireOrdinary_ok_iff.mp hplain
      rw [Encodes.className hT hencodes hplain hname hlt utf8Error] at hread
      rw [hencodes.cellName hT hplain hname hlt utf8Error, ← hread]
    · intro hread
      obtain ⟨_, hplain, -⟩ := Exec.bind_ok_iff.mp hread
      have hplain := Ton.requireOrdinary_ok_iff.mp hplain
      rw [hencodes.cellName hT hplain hname hlt utf8Error] at hread
      rw [Encodes.className hT hencodes hplain hname hlt utf8Error, ← hread]
  · have hplain := hencodes.plain hzero
    refine ⟨Encodes.className hT hencodes hplain hname hlt utf8Error, ?_, ?_⟩
    · intro i typeCode value hi hwide
      have hcode : typeCode ≤ 8 := htyped _ (List.mem_of_getElem? hi)
      obtain ⟨bytes, hread, hlength, hvalue⟩ := hencodes.clGetUintBe hT hzero hi hcode
      have hwidth : typeWidth typeCode = 2 ^ typeCode.toNat := if_pos hcode
      rw [hwidth] at hread hlength
      exact ⟨bytes, (hnum i typeCode value hi hwide bytes).mpr hread, hlength, hvalue⟩
    · intro i child hi
      exact (href i child hi child).mpr (hencodes.clGetRef hT hzero hi)

/-- **Two readers and two snake codecs agree**: what the runtime reads of any cell
the builders' crate reads too, a class cell that is made reads alike through
both, and a snake's bytes come back. -/
theorem classReaders_agree (hT : T.Lawful written ahead) (hops : ops.Lawful ahead)
    {writeBitsWithOffset : BitWriter T} (hS : Snakes T written writeBitsWithOffset) (hex : HexCrate)
    (utf8Error : List UInt8 → String) :
    (∀ cell i width bytes, 0 < width → width % 8 = 0 → classBytes ops cell i width = .ok bytes →
      clGetUintBe T cell i width = .ok bytes) ∧
    (∀ cell i child, classRef T cell i = .ok child → clGetRef T cell i = .ok child) ∧
    (∀ cell name, className T utf8Error cell = .ok name → name ≠ "" → cellName T utf8Error cell = .ok name) ∧
    (∀ name fields cell, NameFits name → (∀ field ∈ fields, field.Typed) → clDeclare T name fields = .ok cell →
      ReadAlike ops utf8Error name fields cell ∧ (LevelZero fields → ReadBack ops utf8Error name fields cell)) ∧
    ∀ text cell, hexToCells T writeBitsWithOffset hex text = .ok cell → ∃ bytes,
      decodeChars (messageBody text).toList = .some bytes ∧ flattenCellBytes ops cell = .ok bytes := by
  refine ⟨fun cell i width bytes hpos hwidth h => ((classBytes_iff hT hops hpos hwidth).mp h).2,
    fun cell i child h => ((classRef_iff hT).mp h).2, fun cell name h hne => className_cellName hT h hne,
    fun name fields cell hname htyped h => clDeclare_readAlike hT hops utf8Error hname htyped h, ?_⟩
  intro text cell h
  by_cases hbad : Unsnakeable (messageBody text)
  · obtain ⟨e, herr⟩ := hexToCells_refuses hex hbad
    rw [herr] at h
    cases h
  · obtain ⟨made, cs, hmade, hcarries⟩ := hexToCells_carries hT hS hex hbad
    rw [hmade] at h
    cases h
    exact ⟨cs.flatten, hcarries.bytes, flattenCellBytes_snake hT hops hcarries.snake⟩

/-- Parsers that are just what is ahead of them. -/
def plainParserOps : ParserOps .plain where
  seekBits (p : Contents) n := if p.1.length < n.toNat then .error "end of cell" else .ok (p.1.drop n.toNat, p.2)
  dataBitsLeft (p : Contents) := .ok p.1.length

theorem plainParserOps_lawful : plainParserOps.Lawful id where
  seekBits _ _ h := ⟨_, if_neg (not_lt.mpr h), rfl⟩
  seekBits_short _ _ h := ⟨_, if_pos h⟩
  dataBitsLeft _ := rfl

theorem classReaders_agree_spilling : ∃ cell bytes, clDeclare .plain "A" spilling = .ok cell ∧
    className .plain (fun _ => "") cell = .ok "A" ∧ classBytes plainParserOps cell 2 256 = .ok bytes ∧
    clGetUintBe .plain cell 2 256 = .ok bytes ∧ ofBytes bytes = 3 ∧
    classRef .plain cell 5 = .ok (.mk .ordinary 0 [false] []) := by
  have hok : (clDeclare .plain "A" spilling).isOk = true := by decide +kernel
  cases h : clDeclare .plain "A" spilling with
  | error e =>
    rw [h] at hok
    cases hok
  | ok cell =>
    have hname : NameFits "A" := ⟨65, [], by decide, by decide, by decide⟩
    have htyped : ∀ field ∈ spilling, field.Typed := by simp [spilling, ClField.Typed]
    have hzero : LevelZero spilling := by
      rintro c hc
      simp only [spilling, List.mem_cons, reduceCtorEq, ClField.ref.injEq, List.not_mem_nil, false_or, or_false] at hc
      rcases hc with rfl | rfl | rfl <;> rfl
    obtain ⟨hbytes, -, -, hbuilt, -⟩ :=
      classReaders_agree TonCore.plain_lawful plainParserOps_lawful plain_snakes .plain (fun _ => "")
    have hback := (hbuilt "A" spilling cell hname htyped h).2 hzero
    obtain ⟨bytes, hread, -, hvalue⟩ := hback.num 2 8 3 rfl (by decide)
    exact ⟨cell, bytes, rfl, hback.name, hread, hbytes cell 2 256 bytes (by decide) (by decide) hread, hvalue,
      hback.ref 5 _ rfl⟩

end Pillar.ClassReader
