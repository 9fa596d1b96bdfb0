/-
TON cells, and the crate that builds and reads them.

`ton_core` is not part of the repository, so it is a parameter: `TonCore` has
its operations as the repository calls them, and `TonCore.Lawful` says what the
repository relies on. A cell is what the crate's accessors show of it. A
builder and a parser are whatever the crate keeps; `written` and `ahead` are
their contents as the laws speak of them.

The rest is the thin layer over the crate in `pillar-layerzero`,
`other_non_evm/ton/cell.rs`.
-/
import Pillar.Bits
import Pillar.Core

namespace Pillar.Ton

inductive CellType where
  | ordinary
  | prunedBranch
  | library
  | merkleProof
  | merkleUpdate
  deriving Repr, DecidableEq

/-- `cell_type()`, `level_mask().mask()`, the data bits and `refs()`. -/
inductive TonCell where
  | mk (cellType : CellType) (levelMask : Nat) (bits : List Bool) (refs : List TonCell)

namespace TonCell

def cellType : TonCell → CellType
  | .mk t _ _ _ => t

def levelMask : TonCell → Nat
  | .mk _ m _ _ => m

def bits : TonCell → List Bool
  | .mk _ _ b _ => b

def refs : TonCell → List TonCell
  | .mk _ _ _ r => r

/-- `data_len_bits()`. -/
def dataLenBits (cell : TonCell) : Nat := cell.bits.length

/-- Ordinary, of level zero. -/
def Plain (cell : TonCell) : Prop := cell.cellType = .ordinary ∧ cell.levelMask = 0

end TonCell

def maxCellBits : Nat := 1023
def maxCellRefs : Nat := 4

/-- The operations of `ton_core` the repository calls. An error is what it displays. -/
structure TonCore where
  Builder : Type
  Parser : Type
  /-- `TonCell::builder()`. -/
  builder : Builder
  writeBit : Builder → Bool → Except String Builder
  writeNum : Builder → (value bits : Nat) → Except String Builder
  writeRef : Builder → TonCell → Except String Builder
  writeCell : Builder → TonCell → Except String Builder
  dataBitsLeft : Builder → Nat
  refsLeft : Builder → Nat
  build : Builder → Except String TonCell
  /-- `TonCell::empty()`. -/
  empty : TonCell
  parser : TonCell → Parser
  readBit : Parser → Except String (Bool × Parser)
  readBits : Parser → Nat → Except String (List UInt8 × Parser)
  readNum : Parser → Nat → Except String (Nat × Parser)
  readNextRef : Parser → Except String (TonCell × Parser)

/-- What a builder or a parser holds: bits and references. -/
abbrev Contents := List Bool × List TonCell

/-- Bits and references fit in a cell. -/
def Contents.Fits (c : Contents) : Prop := c.1.length ≤ maxCellBits ∧ c.2.length ≤ maxCellRefs

/-- Bits as bytes, the last one filled up with zeros. -/
def packBits (bits : List Bool) : List UInt8 :=
  (List.range ((bits.length + 7) / 8)).map fun i =>
    UInt8.ofNat (Bits.toNat (((bits.drop (8 * i)).take 8).takeD 8 false))

/-- A write that succeeds just when what it leaves fits. -/
def Writes {T : TonCore} (written : T.Builder → Contents) (contents : Contents) (ok : Prop) :
    Except String T.Builder → Prop
  | .ok b => ok ∧ contents.Fits ∧ written b = contents
  | .error _ => ¬ (ok ∧ contents.Fits)

/-- What the repository relies on: a builder takes what fits in a cell, `build`
makes an ordinary cell of it with the levels of its references, and a parser
reads bits and references in the order they were written. -/
structure TonCore.Lawful (T : TonCore) (written : T.Builder → Contents) (ahead : T.Parser → Contents) : Prop where
  builder : written T.builder = ([], [])
  writeBit : ∀ b bit, Writes written ((written b).1 ++ [bit], (written b).2) True (T.writeBit b bit)
  writeNum : ∀ b value bits, Writes written ((written b).1 ++ Bits.ofNat bits value, (written b).2)
    (value < 2 ^ bits) (T.writeNum b value bits)
  writeRef : ∀ b cell, Writes written ((written b).1, (written b).2 ++ [cell]) True (T.writeRef b cell)
  writeCell : ∀ b cell, Writes written ((written b).1 ++ cell.bits, (written b).2 ++ cell.refs) True
    (T.writeCell b cell)
  dataBitsLeft : ∀ b, T.dataBitsLeft b = maxCellBits - (written b).1.length
  refsLeft : ∀ b, T.refsLeft b = maxCellRefs - (written b).2.length
  build : ∀ b cell, T.build b = .ok cell → cell = .mk .ordinary
    ((written b).2.foldl (fun mask child => mask ||| child.levelMask) 0) (written b).1 (written b).2
  empty : T.empty = .mk .ordinary 0 [] []
  parser : ∀ cell, ahead (T.parser cell) = (cell.bits, cell.refs)
  readBit_nil : ∀ p, (ahead p).1 = [] → ∃ e, T.readBit p = .error e
  readBit_cons : ∀ p bit bits, (ahead p).1 = bit :: bits →
    ∃ p', T.readBit p = .ok (bit, p') ∧ ahead p' = (bits, (ahead p).2)
  readBits_short : ∀ p n, (ahead p).1.length < n → ∃ e, T.readBits p n = .error e
  readBits : ∀ p n, n ≤ (ahead p).1.length → ∃ p', T.readBits p n = .ok (packBits ((ahead p).1.take n), p') ∧
    ahead p' = ((ahead p).1.drop n, (ahead p).2)
  readNum_short : ∀ p n, (ahead p).1.length < n → ∃ e, T.readNum p n = .error e
  readNum : ∀ p n, n ≤ (ahead p).1.length → ∃ p', T.readNum p n = .ok (Bits.toNat ((ahead p).1.take n), p') ∧
    ahead p' = ((ahead p).1.drop n, (ahead p).2)
  readNextRef_nil : ∀ p, (ahead p).2 = [] → ∃ e, T.readNextRef p = .error e
  readNextRef_cons : ∀ p cell refs, (ahead p).2 = cell :: refs →
    ∃ p', T.readNextRef p = .ok (cell, p') ∧ ahead p' = ((ahead p).1, refs)

namespace TonCore.Lawful

variable {T : TonCore} {written : T.Builder → Contents} {ahead : T.Parser → Contents}

/-- A number is read back where it was written. -/
theorem readNum_append (hT : T.Lawful written ahead) {p : T.Parser} {n value : Nat} {rest : List Bool}
    (hp : (ahead p).1 = Bits.ofNat n value ++ rest) (hv : value < 2 ^ n) :
    ∃ p', T.readNum p n = .ok (value, p') ∧ ahead p' = (rest, (ahead p).2) := by
  have hlen : n ≤ (ahead p).1.length := by simp [hp]
  obtain ⟨p', hread, hp'⟩ := hT.readNum p n hlen
  refine ⟨p', ?_, ?_⟩
  · rw [hread, hp, List.take_left' (Bits.length_ofNat n value), Bits.toNat_ofNat hv]
  · rw [hp', hp, List.drop_left' (Bits.length_ofNat n value)]

/-- A bit that is read is the next one. -/
theorem readBit_ok (hT : T.Lawful written ahead) {p q : T.Parser} {bit : Bool} (h : T.readBit p = .ok (bit, q)) :
    (ahead p).1 = bit :: (ahead q).1 := by
  cases hbits : (ahead p).1 with
  | nil =>
    obtain ⟨e, herr⟩ := hT.readBit_nil p hbits
    rw [herr] at h
    cases h
  | cons b bits =>
    obtain ⟨q', hok, hq⟩ := hT.readBit_cons p b bits hbits
    rw [hok] at h
    cases h
    rw [hq]

end TonCore.Lawful

/-! ## A core that keeps the laws -/

/-- What is left in a builder, unless it is too much for a cell. -/
def Contents.fitting (c : Contents) : Except String Contents :=
  if c.1.length ≤ maxCellBits ∧ c.2.length ≤ maxCellRefs then .ok c else .error "cell overflow"

/-- Builders and parsers that are just what they hold. -/
def TonCore.plain : TonCore where
  Builder := Contents
  Parser := Contents
  builder := ([], [])
  writeBit b bit := Contents.fitting (b.1 ++ [bit], b.2)
  writeNum b value bits :=
    if value < 2 ^ bits then Contents.fitting (b.1 ++ Bits.ofNat bits value, b.2) else .error "number overflow"
  writeRef b cell := Contents.fitting (b.1, b.2 ++ [cell])
  writeCell b cell := Contents.fitting (b.1 ++ cell.bits, b.2 ++ cell.refs)
  dataBitsLeft b := maxCellBits - b.1.length
  refsLeft b := maxCellRefs - b.2.length
  build b := .ok (.mk .ordinary (b.2.foldl (fun mask child => mask ||| child.levelMask) 0) b.1 b.2)
  empty := .mk .ordinary 0 [] []
  parser cell := (cell.bits, cell.refs)
  readBit
    | ([], _) => .error "end of cell"
    | (bit :: bits, refs) => .ok (bit, bits, refs)
  readBits p n :=
    if p.1.length < n then .error "end of cell" else .ok (packBits (p.1.take n), p.1.drop n, p.2)
  readNum p n :=
    if p.1.length < n then .error "end of cell" else .ok (Bits.toNat (p.1.take n), p.1.drop n, p.2)
  readNextRef
    | (_, []) => .error "no more references"
    | (bits, cell :: refs) => .ok (cell, bits, refs)

theorem Contents.writes_fitting {p : Prop} (hp : p) (c : Contents) : Writes (T := .plain) id c p c.fitting := by
  unfold Contents.fitting
  split
  next h => exact ⟨hp, h, rfl⟩
  next h => exact fun hok => h hok.2

theorem TonCore.plain_lawful : TonCore.plain.Lawful id id where
  builder := rfl
  writeBit b bit := Contents.writes_fitting trivial _
  writeNum b value bits := by
    by_cases hv : value < 2 ^ bits
    · have hwrite : TonCore.plain.writeNum b value bits = Contents.fitting (b.1 ++ Bits.ofNat bits value, b.2) :=
        if_pos hv
      rw [hwrite]
      exact Contents.writes_fitting hv _
    · have hwrite : TonCore.plain.writeNum b value bits = .error "number overflow" := if_neg hv
      rw [hwrite]
      exact fun hok => hv hok.1
  writeRef b cell := Contents.writes_fitting trivial _
  writeCell b cell := Contents.writes_fitting trivial _
  dataBitsLeft _ := rfl
  refsLeft _ := rfl
  build b cell h := (Except.ok.inj h).symm
  empty := rfl
  parser _ := rfl
  readBit_nil := by
    rintro ⟨bits, refs⟩ rfl
    exact ⟨_, rfl⟩
  readBit_cons := by
    rintro ⟨bits, refs⟩ bit rest rfl
    exact ⟨_, rfl, rfl⟩
  readBits_short p n h := ⟨_, if_pos h⟩
  readBits p n h := ⟨_, if_neg (not_lt.mpr h), rfl⟩
  readNum_short p n h := ⟨_, if_pos h⟩
  readNum p n h := ⟨_, if_neg (not_lt.mpr h), rfl⟩
  readNextRef_nil := by
    rintro ⟨bits, refs⟩ rfl
    exact ⟨_, rfl⟩
  readNextRef_cons := by
    rintro ⟨bits, refs⟩ cell rest rfl
    exact ⟨_, rfl, rfl⟩

/-- A pruned branch of level one: its type, its mask, a hash and a depth. -/
def prunedBranch : TonCell :=
  .mk .prunedBranch 1 (Bits.ofNat 8 1 ++ Bits.ofNat 8 1 ++ List.replicate 272 false) []

/-! ## `cell.rs` -/

/-- `map_err`. -/
def mapErr {α : Type} : Except String α → Exec AppCoreError α
  | .ok a => .ok a
  | .error e => Exec.err (.internal ("TON cell error: " ++ e))

def requireOrdinary (cell : TonCell) : Exec AppCoreError Unit :=
  if cell.cellType ≠ .ordinary || cell.levelMask ≠ 0 then
    mapErr (.error "consumed TON cell must be ordinary and level zero")
  else .ok ()

@[simp] theorem mapErr_ok {α : Type} (a : α) : mapErr (.ok a) = .ok a := rfl

theorem mapErr_eq_ok {α : Type} {x : Except String α} {a : α} : mapErr x = .ok a ↔ x = .ok a := by
  cases x <;> simp [mapErr, Exec.err]

theorem requireOrdinary_of_plain {cell : TonCell} (h : cell.Plain) : requireOrdinary cell = .ok () := by
  simp [requireOrdinary, h.1, h.2]

theorem requireOrdinary_ok_iff {cell : TonCell} : requireOrdinary cell = .ok () ↔ cell.Plain := by
  refine ⟨fun h => ?_, requireOrdinary_of_plain⟩
  unfold requireOrdinary at h
  split at h
  · cases h
  next hnot => simpa [TonCell.Plain] using hnot

theorem returns_mapErr {α : Type} (x : Except String α) : (mapErr x).Returns := by
  cases x with
  | ok a => exact Exec.returns_ok a
  | error e => exact Exec.returns_err _

theorem Writes.yields {T : TonCore} {written : T.Builder → Contents} {contents : Contents} {p : Prop}
    {x : Except String T.Builder} (h : Writes written contents p x) :
    (mapErr x).Yields fun b => p ∧ written b = contents := by
  cases x with
  | ok b => exact Exec.yields_ok ⟨h.1, h.2.2⟩
  | error e => exact Exec.yields_err _ _

theorem returns_requireOrdinary (cell : TonCell) : (requireOrdinary cell).Returns := by
  unfold requireOrdinary
  split
  · exact returns_mapErr _
  · exact Exec.returns_ok ()

end Pillar.Ton
