/-
A class cell is read back exactly.

The loop keeps the two cursors at the ends of what is written, so a field is
described where it is stored; cells only grow, so it stays there. The root
cell then stands behind the header, and the spilled cells at references 2
and 3, which is where the reader goes by the numbers in the header.
-/
import Pillar.ClDeclare

namespace Pillar.Ton

variable {T : TonCore} {written : T.Builder → Contents} {ahead : T.Parser → Contents}

/-! ## Fields -/

/-- What the header says of a field. -/
structure Info where
  type : Nat
  cell : Nat
  offset : Nat
  ref : Nat

def Info.bits (info : Info) : List Bool :=
  Bits.ofNat fieldTypeWidth info.type ++ (Bits.ofNat cellIdWidth info.cell ++
    (Bits.ofNat dataOffsetWidth info.offset ++ Bits.ofNat refOffsetWidth info.ref))

structure Info.Fits (info : Info) : Prop where
  type : info.type < 2 ^ fieldTypeWidth
  cell : info.cell < 2 ^ cellIdWidth
  offset : info.offset < 2 ^ dataOffsetWidth
  ref : info.ref < 2 ^ refOffsetWidth

@[simp] theorem Info.length_bits (info : Info) : info.bits.length = fieldInfoWidth := by
  simp [Info.bits, fieldInfoWidth, Nat.add_assoc]

/-- The header's number for a cell, and where the cell's data starts. -/
def cellId (k : Nat) : Nat := if k = 1 then 0 else k
def dataStart (k : Nat) : Nat := if k = 1 then headerWidth else 0

/-- A field is in a cell where `info` says, if the cell's data starts at `start`. -/
def StoredIn (contents : Contents) (start : Nat) (info : Info) : ClField → Prop
  | .num typeCode value => value < 2 ^ typeWidth typeCode ∧
    ∃ i, info.offset = start + i ∧ Bits.At contents.1 i (Bits.ofNat (typeWidth typeCode) value)
  | .ref cell => contents.2[info.ref]? = .some cell

/-- A field is stored where `info` says. -/
def Stored (cells : Nat → Contents) (field : ClField) (info : Info) : Prop :=
  ∃ k, 1 ≤ k ∧ info.cell = cellId k ∧ StoredIn (cells k) (dataStart k) info field

/-- Cells are only written at the end. -/
def Grows (cells cells' : Nat → Contents) : Prop := ∀ k, (cells k).1 <+: (cells' k).1 ∧ (cells k).2 <+: (cells' k).2

theorem Stored.mono {cells cells' : Nat → Contents} {field : ClField} {info : Info} (h : Stored cells field info)
    (hgrows : Grows cells cells') : Stored cells' field info := by
  obtain ⟨k, hk, hcell, h⟩ := h
  obtain ⟨⟨bits, hbits⟩, refs, hrefs⟩ := hgrows k
  refine ⟨k, hk, hcell, ?_⟩
  cases field with
  | num typeCode value =>
    obtain ⟨hv, i, hoffset, hat⟩ := h
    exact ⟨hv, i, hoffset, hbits ▸ hat.append bits⟩
  | ref cell =>
    obtain ⟨hlt, -⟩ := List.getElem?_eq_some_iff.mp h
    show (cells' k).2[info.ref]? = .some cell
    rw [← hrefs, List.getElem?_append_left hlt]
    exact h

/-! ## Drafts -/

/-- The contents of a draft's cell. -/
def Draft.at (written : T.Builder → Contents) (d : Draft T) (k : Nat) : Contents :=
  (d.cells.getD k .none).elim ([], []) written

/-- The cursors stand at the ends of what is written, and nothing is beyond
them. -/
structure Placed (written : T.Builder → Contents) (d : Draft T) : Prop where
  present : ∀ k, 1 ≤ k → k < d.cells.length → ∃ b, d.cells[k]? = .some (.some b)
  dataCell : 1 ≤ d.curDataCell ∧ d.curDataCell < d.cells.length
  refCell : 1 ≤ d.curRefCell ∧ d.curRefCell < d.cells.length
  dataOffset : d.curDataOffset = dataStart d.curDataCell + (d.at written d.curDataCell).1.length
  refOffset : d.curRefOffset = (d.at written d.curRefCell).2.length
  dataAfter : ∀ k, d.curDataCell < k → (d.at written k).1 = []
  refAfter : ∀ k, d.curRefCell < k → (d.at written k).2 = []
  maxRefs : d.curRefCell = 1 → d.curCellMaxRefs = 2
  rootRefs : (d.at written 1).2.length ≤ 2

theorem Draft.at_push (hT : T.Lawful written ahead) {d d' : Draft T} (h : d'.cells = d.cells ++ [.some T.builder]) :
    d'.at written = d.at written := by
  funext k
  rw [Draft.at, Draft.at, h]
  rcases lt_trichotomy k d.cells.length with hk | hk | hk
  · rw [List.getD_eq_getElem?_getD, List.getD_eq_getElem?_getD, List.getElem?_append_left hk]
  · subst hk
    simp [List.getD_eq_getElem?_getD, hT.builder]
  · rw [List.getD_eq_default _ _ (by simp; omega), List.getD_eq_default _ _ hk.le]

theorem Draft.at_set {d d' : Draft T} {k : Nat} {b : T.Builder} (hk : k < d.cells.length)
    (h : d'.cells = d.cells.set k (.some b)) : d'.at written = Function.update (d.at written) k (written b) := by
  funext j
  rw [Draft.at, h, List.getD_eq_getElem?_getD, List.getElem?_set]
  by_cases hj : j = k
  · subst hj
    simp [hk]
  · rw [Function.update_of_ne hj, if_neg (Ne.symm hj), ← List.getD_eq_getElem?_getD]
    rfl

theorem Placed.cell {d : Draft T} (h : Placed written d) {k : Nat} (hk : 1 ≤ k) (hlt : k < d.cells.length) :
    ∃ b, d.cell k = .ok b ∧ written b = d.at written k := by
  obtain ⟨b, hb⟩ := h.present k hk hlt
  refine ⟨b, ?_, ?_⟩
  · rw [Draft.cell, hb]
    rfl
  · rw [Draft.at, List.getD_eq_getElem?_getD, hb]
    rfl

/-- Going on to cell `next` leaves the contents and makes sure the cell is there. -/
theorem Placed.opened (hT : T.Lawful written ahead) {d : Draft T} (h : Placed written d) (next : Nat) (d' : Draft T)
    (hnext : next ≤ d.cells.length)
    (hcells : d'.cells = if next ≥ d.cells.length then d.cells ++ [some T.builder] else d.cells) :
    d'.at written = d.at written ∧ next < d'.cells.length ∧ d.cells.length ≤ d'.cells.length ∧
      ∀ k, 1 ≤ k → k < d'.cells.length → ∃ b, d'.cells[k]? = .some (.some b) := by
  split at hcells
  next hge =>
    refine ⟨Draft.at_push hT hcells, by rw [hcells]; simp; omega, by rw [hcells]; simp, fun k hk hlt => ?_⟩
    rw [hcells] at hlt ⊢
    rw [List.length_append, List.length_singleton] at hlt
    by_cases hold : k < d.cells.length
    · rw [List.getElem?_append_left hold]
      exact h.present k hk hold
    · obtain rfl : k = d.cells.length := by omega
      exact ⟨T.builder, by simp⟩
  next hlt =>
    refine ⟨?_, by rw [hcells]; omega, by rw [hcells], by rw [hcells]; exact h.present⟩
    funext k
    rw [Draft.at, Draft.at, hcells]

/-- What a spill leaves as it was. -/
structure Spilled (written : T.Builder → Contents) (d d' : Draft T) : Prop where
  placed : Placed written d'
  cells : d'.at written = d.at written
  header : d'.header = d.header

theorem Placed.spillData (hT : T.Lawful written ahead) {d : Draft T} (h : Placed written d) (fieldBits : Nat) :
    Spilled written d (d.spillData fieldBits) := by
  unfold Draft.spillData
  split
  · obtain ⟨hat, hlt, hlen, hpresent⟩ := h.opened hT (d.curDataCell + 1)
      { d with
        curDataCell := d.curDataCell + 1
        curDataOffset := 0
        cells := if d.curDataCell + 1 ≥ d.cells.length then d.cells ++ [.some T.builder] else d.cells } h.dataCell.2 rfl
    refine ⟨⟨hpresent, ⟨by simp, hlt⟩, ⟨h.refCell.1, h.refCell.2.trans_le hlen⟩, ?_, ?_, ?_, ?_, h.maxRefs, ?_⟩,
      hat, rfl⟩
    · rw [hat, h.dataAfter _ (Nat.lt_succ_self _)]
      have := h.dataCell.1
      simp [dataStart]
      omega
    · rw [hat]
      exact h.refOffset
    · rw [hat]
      exact fun k hk => h.dataAfter k (Nat.lt_of_succ_lt hk)
    · rw [hat]
      exact h.refAfter
    · rw [hat]
      exact h.rootRefs
  · exact ⟨h, rfl, rfl⟩

/-- After a spill for a reference, there is room for it. -/
theorem Placed.spillRef (hT : T.Lawful written ahead) {d : Draft T} (h : Placed written d) (fieldBits : Nat) :
    Spilled written d (d.spillRef fieldBits) ∧
      (fieldBits = 0 → (d.spillRef fieldBits).curRefOffset + 1 ≤ (d.spillRef fieldBits).curCellMaxRefs) := by
  unfold Draft.spillRef
  split
  · obtain ⟨hat, hlt, hlen, hpresent⟩ := h.opened hT (d.curRefCell + 1)
      { d with
        curRefCell := d.curRefCell + 1
        curRefOffset := 0
        curCellMaxRefs := maxCellRefs
        cells := if d.curRefCell + 1 ≥ d.cells.length then d.cells ++ [.some T.builder] else d.cells } h.refCell.2 rfl
    have hpos := h.refCell.1
    refine ⟨⟨⟨hpresent, ⟨h.dataCell.1, h.dataCell.2.trans_le hlen⟩, ⟨by simp, hlt⟩, ?_, ?_, ?_, ?_, ?_, ?_⟩, hat, rfl⟩,
      fun _ => by simp [maxCellRefs]⟩
    · rw [hat]
      exact h.dataOffset
    · rw [hat, h.refAfter _ (Nat.lt_succ_self _)]
      rfl
    · rw [hat]
      exact h.dataAfter
    · rw [hat]
      exact fun k hk => h.refAfter k (Nat.lt_of_succ_lt hk)
    · intro hone
      have : d.curRefCell + 1 = 1 := hone
      omega
    · rw [hat]
      exact h.rootRefs
  next hno => exact ⟨⟨h, rfl, rfl⟩, fun h0 => not_lt.mp fun hlt => hno ⟨h0, hlt⟩⟩

/-! ## A field is written -/

/-- The field's value is stored, and nothing else changes. -/
def Stores (written : T.Builder → Contents) (d : Draft T) (field : ClField) (d' : Draft T) : Prop :=
  match field with
  | .num typeCode value => value < 2 ^ typeWidth typeCode ∧ ∃ b,
    written b = ((d.at written d.curDataCell).1 ++ Bits.ofNat (typeWidth typeCode) value,
      (d.at written d.curDataCell).2) ∧
    d' = { d with cells := d.cells.set d.curDataCell (.some b) }
  | .ref cell => ∃ b,
    written b = ((d.at written d.curRefCell).1, (d.at written d.curRefCell).2 ++ [cell]) ∧
    d' = { d with cells := d.cells.set d.curRefCell (.some b) }

theorem Placed.store (hT : T.Lawful written ahead) {d : Draft T} (h : Placed written d) (field : ClField) :
    (d.store field).Yields (Stores written d field) := by
  cases field with
  | num typeCode value =>
    obtain ⟨b, hb, hat⟩ := h.cell h.dataCell.1 h.dataCell.2
    rw [Draft.store, hb, Exec.ok_bind]
    refine (hT.writeNum b value _).yields.bind fun b' ⟨hv, hb'⟩ => Exec.yields_ok ⟨hv, b', ?_, rfl⟩
    rw [hb', hat]
  | ref cell =>
    obtain ⟨b, hb, hat⟩ := h.cell h.refCell.1 h.refCell.2
    rw [Draft.store, hb, Exec.ok_bind]
    refine (hT.writeRef b cell).yields.bind fun b' ⟨_, hb'⟩ => Exec.yields_ok ⟨b', ?_, rfl⟩
    rw [hb', hat]

/-- Storing a field changes one cell. -/
theorem Draft.store_eq {d d' : Draft T} {field : ClField} (h : d.store field = .ok d') :
    ∃ cells, cells.length = d.cells.length ∧ d' = { d with cells } := by
  cases field with
  | num typeCode value =>
    obtain ⟨cell, -, h⟩ := Exec.bind_ok_iff.mp h
    obtain ⟨cell', -, h⟩ := Exec.bind_ok_iff.mp h
    cases h
    exact ⟨_, List.length_set, rfl⟩
  | ref cellRef =>
    obtain ⟨cell, -, h⟩ := Exec.bind_ok_iff.mp h
    obtain ⟨cell', -, h⟩ := Exec.bind_ok_iff.mp h
    cases h
    exact ⟨_, List.length_set, rfl⟩

/-- What the header says of a field under the cursors. -/
def Draft.info (d : Draft T) (field : ClField) : Info :=
  if field.bits > 0 then
    { type := field.type.toNat, cell := cellId d.curDataCell, offset := d.curDataOffset, ref := 3 }
  else
    { type := field.type.toNat, cell := cellId d.curRefCell, offset := maxCellBits, ref := d.curRefOffset }

/-- The cursors after a field. -/
def Draft.advance (d : Draft T) (field : ClField) (header : T.Builder) : Draft T :=
  if field.bits > 0 then { d with header, curDataOffset := d.curDataOffset + field.bits }
  else { d with header, curRefOffset := d.curRefOffset + 1 }

/-- The field is described, and its cursor moves on. -/
def Describes (written : T.Builder → Contents) (d : Draft T) (field : ClField) (d' : Draft T) : Prop :=
  (d.info field).Fits ∧ ∃ header,
    written header = ((written d.header).1 ++ (d.info field).bits, (written d.header).2) ∧ d' = d.advance field header

theorem describe_yields (hT : T.Lawful written ahead) (d : Draft T) (field : ClField) :
    (d.describe field).Yields (Describes written d field) := by
  unfold Draft.describe
  refine (hT.writeNum ..).yields.bind fun h₁ ⟨htype, hw₁⟩ => ?_
  split
  next hpos =>
    refine (hT.writeNum ..).yields.bind fun h₂ ⟨hcell, hw₂⟩ => ?_
    refine (hT.writeNum ..).yields.bind fun h₃ ⟨hoffset, hw₃⟩ => ?_
    refine (hT.writeNum ..).yields.bind fun h₄ ⟨href, hw₄⟩ => ?_
    have hinfo : d.info field = ⟨field.type.toNat, cellId d.curDataCell, d.curDataOffset, 3⟩ := if_pos hpos
    refine Exec.yields_ok ⟨?_, h₄, ?_, (if_pos hpos).symm⟩
    · rw [hinfo]
      exact ⟨htype, hcell, hoffset, href⟩
    · rw [hw₄, hw₃, hw₂, hw₁, hinfo]
      simp [Info.bits, cellId]
  next hpos =>
    refine (hT.writeNum ..).yields.bind fun h₂ ⟨hcell, hw₂⟩ => ?_
    refine (hT.writeNum ..).yields.bind fun h₃ ⟨hoffset, hw₃⟩ => ?_
    refine (hT.writeNum ..).yields.bind fun h₄ ⟨href, hw₄⟩ => ?_
    have hinfo : d.info field = ⟨field.type.toNat, cellId d.curRefCell, maxCellBits, d.curRefOffset⟩ := if_neg hpos
    refine Exec.yields_ok ⟨?_, h₄, ?_, (if_neg hpos).symm⟩
    · rw [hinfo]
      exact ⟨htype, hcell, hoffset, href⟩
    · rw [hw₄, hw₃, hw₂, hw₁, hinfo]
      simp [Info.bits, cellId]

/-! ## The loop -/

/-- The header names the class and says where each field is stored. -/
def Headed (written : T.Builder → Contents) (name : String) (fields : List ClField) (header : T.Builder)
    (cells : Nat → Contents) : Prop :=
  ∃ infos, written header = (Bits.ofNat nameWidth (asciiName name) ++ infos, []) ∧
    infos.length = fieldInfoWidth * fields.length ∧
    ∀ i field, fields[i]? = .some field →
      ∃ info : Info, info.Fits ∧ Bits.At infos (fieldInfoWidth * i) info.bits ∧ Stored cells field info

theorem Headed.snoc {name : String} {fields : List ClField} {header header' : T.Builder} {cells cells' : Nat → Contents}
    {field : ClField} {info : Info} (h : Headed written name fields header cells) (hgrows : Grows cells cells')
    (hfits : info.Fits) (hstored : Stored cells' field info)
    (hheader : written header' = ((written header).1 ++ info.bits, (written header).2)) :
    Headed written name (fields ++ [field]) header' cells' := by
  obtain ⟨infos, hw, hlen, hall⟩ := h
  refine ⟨infos ++ info.bits, by rw [hheader, hw, List.append_assoc], ?_, fun i f hf => ?_⟩
  · rw [List.length_append, hlen, Info.length_bits, List.length_append, List.length_singleton]
    ring
  · rcases lt_or_ge i fields.length with hi | hi
    · rw [List.getElem?_append_left hi] at hf
      obtain ⟨old, hold, hat, hs⟩ := hall i f hf
      exact ⟨old, hold, hat.append _, hs.mono hgrows⟩
    · rw [List.getElem?_append_right hi, List.getElem?_singleton] at hf
      split at hf
      next hzero =>
        obtain rfl : i = fields.length := by omega
        cases hf
        exact ⟨info, hfits, hlen ▸ Bits.at_end infos info.bits, hstored⟩
      · cases hf

/-- After some fields. -/
structure Drafted (written : T.Builder → Contents) (name : String) (fields : List ClField) (d : Draft T) : Prop
    extends Placed written d where
  headed : Headed written name fields d.header (d.at written)
  refsFrom : ∀ k, ∀ cell ∈ (d.at written k).2, ClField.ref cell ∈ fields

/-- A number has one of the nine number types. -/
def ClField.Typed : ClField → Prop
  | .num typeCode _ => typeCode ≤ 8
  | .ref _ => True

theorem typeWidth_pos {typeCode : UInt8} (h : typeCode ≤ 8) : 0 < typeWidth typeCode := by
  rw [typeWidth, if_pos h]
  exact Nat.two_pow_pos _

theorem present_set {cells : List (Option T.Builder)} {j : Nat} {b : T.Builder}
    (h : ∀ k, 1 ≤ k → k < cells.length → ∃ b, cells[k]? = .some (.some b)) (k : Nat) (hk : 1 ≤ k)
    (hlt : k < (cells.set j (.some b)).length) : ∃ b', (cells.set j (.some b))[k]? = .some (.some b') := by
  rw [List.length_set] at hlt
  rw [List.getElem?_set]
  split
  · exact ⟨b, by simp_all⟩
  · exact h k hk hlt

theorem grows_update {cells : Nat → Contents} {k : Nat} {contents : Contents} (hbits : (cells k).1 <+: contents.1)
    (hrefs : (cells k).2 <+: contents.2) : Grows cells (Function.update cells k contents) := by
  intro j
  by_cases hj : j = k
  · subst hj
    rw [Function.update_self]
    exact ⟨hbits, hrefs⟩
  · rw [Function.update_of_ne hj]
    exact ⟨List.prefix_rfl, List.prefix_rfl⟩

/-- A number under the data cursor. -/
theorem Drafted.num {name : String} {fields : List ClField} {d d' d'' : Draft T} {typeCode : UInt8} {value : Nat}
    (h : Drafted written name fields d) (htyped : typeCode ≤ 8) (hs : Stores written d (.num typeCode value) d')
    (hd : Describes written d' (.num typeCode value) d'') :
    Drafted written name (fields ++ [.num typeCode value]) d'' := by
  obtain ⟨hv, b, hb, rfl⟩ := hs
  obtain ⟨hfits, header, hheader, rfl⟩ := hd
  have hpos : (ClField.num typeCode value).bits > 0 := typeWidth_pos htyped
  simp only [Draft.info, if_pos hpos] at hfits hheader
  rw [Draft.advance, if_pos hpos]
  generalize hd'' : ({ d with
    cells := d.cells.set d.curDataCell (.some b), header
    curDataOffset := d.curDataOffset + (ClField.num typeCode value).bits } : Draft T) = d''
  have hat : d''.at written = Function.update (d.at written) d.curDataCell (written b) :=
    Draft.at_set h.dataCell.2 (by rw [← hd''])
  have hrefs : ∀ k, (d''.at written k).2 = (d.at written k).2 := by
    intro k
    rw [hat, Function.update_apply]
    split
    next hk => rw [hb, hk]
    · rfl
  have hgrows : Grows (d.at written) (d''.at written) :=
    hat ▸ grows_update (by rw [hb]; exact List.prefix_append ..) (by rw [hb])
  have hself : (d''.at written d.curDataCell).1 =
      (d.at written d.curDataCell).1 ++ Bits.ofNat (typeWidth typeCode) value := by
    rw [hat, Function.update_self, hb]
  have hstored : Stored (d''.at written) (.num typeCode value)
      ⟨typeCode.toNat, cellId d.curDataCell, d.curDataOffset, 3⟩ :=
    ⟨d.curDataCell, h.dataCell.1, rfl, hv, _, h.dataOffset, hself ▸ Bits.at_end ..⟩
  have hheaded : Headed written name (fields ++ [.num typeCode value]) d''.header (d''.at written) :=
    h.headed.snoc hgrows hfits hstored (by rw [← hd'']; exact hheader)
  have hfrom : ∀ k, ∀ cell ∈ (d''.at written k).2, ClField.ref cell ∈ fields ++ [.num typeCode value] := by
    intro k cell hmem
    rw [hrefs] at hmem
    exact List.mem_append_left _ (h.refsFrom k cell hmem)
  have hafter : ∀ k, d.curDataCell < k → (d''.at written k).1 = [] := by
    intro k hk
    rw [hat, Function.update_of_ne (Nat.ne_of_gt hk)]
    exact h.dataAfter k hk
  subst hd''
  refine { headed := hheaded, refsFrom := hfrom, present := present_set h.present, dataAfter := hafter,
           maxRefs := h.maxRefs, dataCell := ?_, refCell := ?_, dataOffset := ?_, refOffset := ?_,
           refAfter := ?_, rootRefs := ?_ }
  · simpa using h.dataCell
  · simpa using h.refCell
  · rw [hself, List.length_append, Bits.length_ofNat, ← Nat.add_assoc, ← h.dataOffset]
    rfl
  · rw [hrefs]
    exact h.refOffset
  · intro k hk
    rw [hrefs]
    exact h.refAfter k hk
  · rw [hrefs]
    exact h.rootRefs

/-- A reference under the reference cursor, where there is room for it. -/
theorem Drafted.ref {name : String} {fields : List ClField} {d d' d'' : Draft T} {cell : TonCell}
    (h : Drafted written name fields d) (hroom : d.curRefOffset + 1 ≤ d.curCellMaxRefs)
    (hs : Stores written d (.ref cell) d') (hd : Describes written d' (.ref cell) d'') :
    Drafted written name (fields ++ [.ref cell]) d'' := by
  obtain ⟨b, hb, rfl⟩ := hs
  obtain ⟨hfits, header, hheader, rfl⟩ := hd
  have hzero : ¬ (ClField.ref cell).bits > 0 := Nat.lt_irrefl 0
  simp only [Draft.info, if_neg hzero] at hfits hheader
  rw [Draft.advance, if_neg hzero]
  generalize hd'' : ({ d with
    cells := d.cells.set d.curRefCell (.some b), header
    curRefOffset := d.curRefOffset + 1 } : Draft T) = d''
  have hat : d''.at written = Function.update (d.at written) d.curRefCell (written b) :=
    Draft.at_set h.refCell.2 (by rw [← hd''])
  have hbits : ∀ k, (d''.at written k).1 = (d.at written k).1 := by
    intro k
    rw [hat, Function.update_apply]
    split
    next hk => rw [hb, hk]
    · rfl
  have hgrows : Grows (d.at written) (d''.at written) :=
    hat ▸ grows_update (by rw [hb]) (by rw [hb]; exact List.prefix_append ..)
  have hself : (d''.at written d.curRefCell).2 = (d.at written d.curRefCell).2 ++ [cell] := by
    rw [hat, Function.update_self, hb]
  have hother : ∀ k, k ≠ d.curRefCell → (d''.at written k).2 = (d.at written k).2 := by
    intro k hk
    rw [hat, Function.update_of_ne hk]
  have hstored : Stored (d''.at written)
    (.ref cell) ⟨tRef.toNat, cellId d.curRefCell, maxCellBits, d.curRefOffset⟩ := by
    refine ⟨d.curRefCell, h.refCell.1, rfl, ?_⟩
    show (d''.at written d.curRefCell).2[d.curRefOffset]? = .some cell
    rw [hself, h.refOffset, List.getElem?_concat_length]
  have hheaded : Headed written name (fields ++ [.ref cell]) d''.header (d''.at written) :=
    h.headed.snoc hgrows hfits hstored (by rw [← hd'']; exact hheader)
  have hfrom : ∀ k, ∀ c ∈ (d''.at written k).2, ClField.ref c ∈ fields ++ [.ref cell] := by
    intro k c hmem
    by_cases hk : k = d.curRefCell
    · rw [hk, hself, List.mem_append, List.mem_singleton] at hmem
      rcases hmem with hmem | rfl
      · exact List.mem_append_left _ (h.refsFrom _ c hmem)
      · simp
    · rw [hother k hk] at hmem
      exact List.mem_append_left _ (h.refsFrom k c hmem)
  have hroot : (d''.at written 1).2.length ≤ 2 := by
    by_cases hone : 1 = d.curRefCell
    · rw [h.maxRefs hone.symm, h.refOffset, ← hone] at hroom
      rw [← hone] at hself
      rw [hself, List.length_append, List.length_singleton]
      exact hroom
    · rw [hother 1 hone]
      exact h.rootRefs
  have hafter : ∀ k, d.curRefCell < k → (d''.at written k).2 = [] := by
    intro k hk
    rw [hother k (Nat.ne_of_gt hk)]
    exact h.refAfter k hk
  subst hd''
  refine { headed := hheaded, refsFrom := hfrom, present := present_set h.present, rootRefs := hroot,
           refAfter := hafter, maxRefs := h.maxRefs, dataCell := ?_, refCell := ?_, dataOffset := ?_, refOffset := ?_,
           dataAfter := ?_ }
  · simpa using h.dataCell
  · simpa using h.refCell
  · rw [hbits]
    exact h.dataOffset
  · rw [hself, List.length_append, ← h.refOffset]
    rfl
  · intro k hk
    rw [hbits]
    exact h.dataAfter k hk

theorem Drafted.spilled {name : String} {fields : List ClField} {d d' : Draft T} (h : Drafted written name fields d)
    (hs : Spilled written d d') : Drafted written name fields d' :=
  { toPlaced := hs.placed
    headed := by rw [hs.cells, hs.header]; exact h.headed
    refsFrom := by rw [hs.cells]; exact h.refsFrom }

/-- One turn of the loop. -/
theorem Drafted.declareField (hT : T.Lawful written ahead) {name : String} {fields : List ClField} {d : Draft T}
    (h : Drafted written name fields d) {field : ClField} (htyped : field.Typed) :
    (d.declareField field).Yields (Drafted written name (fields ++ [field])) := by
  have h₁ := h.spilled (h.spillData hT field.bits)
  obtain ⟨hspill, hroom⟩ := h₁.spillRef hT field.bits
  have h₂ := h₁.spilled hspill
  refine (h₂.store hT field).bind fun d' hs => ?_
  refine (describe_yields hT d' field).mono fun d'' hd => ?_
  cases field with
  | num typeCode value => exact h₂.num htyped hs hd
  | ref cell => exact h₂.ref (hroom rfl) hs hd

theorem drafted_nil (hT : T.Lawful written ahead) {name : String} {header : T.Builder}
    (hheader : written header = (Bits.ofNat nameWidth (asciiName name), [])) :
    Drafted written name [] (Draft.start header) := by
  have hat : ∀ k, (Draft.start header).at written k = ([], []) := by
    intro k
    match k with
    | 0 => rfl
    | 1 => exact hT.builder
    | _ + 2 => rfl
  refine { present := ?_, dataCell := by simp [Draft.start], refCell := by simp [Draft.start],
           dataOffset := by rw [hat]; rfl,
           refOffset := by rw [hat]; rfl, dataAfter := fun k _ => by rw [hat], refAfter := fun k _ => by rw [hat],
           maxRefs := fun _ => rfl, rootRefs := by rw [hat]; simp, refsFrom := fun k cell hc => ?_,
           headed := ⟨[], by rw [List.append_nil]; exact hheader, rfl, fun i field hf => by simp at hf⟩ }
  · intro k hk hlt
    obtain rfl : k = 1 := by
      simp [Draft.start] at hlt
      omega
    exact ⟨T.builder, rfl⟩
  · rw [hat] at hc
    cases hc

/-! ## The cell -/

/-- What `build` makes of some contents. -/
def Built (contents : Contents) (cell : TonCell) : Prop :=
  cell = .mk .ordinary (contents.2.foldl (fun mask child => mask ||| child.levelMask) 0) contents.1 contents.2

theorem build_yields (hT : T.Lawful written ahead) (b : T.Builder) :
    (mapErr (T.build b)).Yields (Built (written b)) :=
  ⟨returns_mapErr _, fun cell h => hT.build b cell (mapErr_eq_ok.mp h)⟩

theorem Built.bits {contents : Contents} {cell : TonCell} (h : Built contents cell) : cell.bits = contents.1 := by
  rw [h]
  rfl

theorem Built.refs {contents : Contents} {cell : TonCell} (h : Built contents cell) : cell.refs = contents.2 := by
  rw [h]
  rfl

/-- References of level zero make a cell of level zero. -/
theorem Built.plain {contents : Contents} {cell : TonCell} (h : Built contents cell)
    (hrefs : ∀ child ∈ contents.2, child.levelMask = 0) : cell.Plain := by
  rw [h]
  refine ⟨rfl, ?_⟩
  show contents.2.foldl (fun mask child => mask ||| child.levelMask) 0 = 0
  generalize contents.2 = refs at hrefs
  induction refs with
  | nil => rfl
  | cons child refs ih =>
    rw [List.foldl_cons, hrefs child List.mem_cons_self, Nat.or_zero]
    exact ih fun c hc => hrefs c (List.mem_cons_of_mem _ hc)

def BuiltFrom (written : T.Builder → Contents) (builder : Option T.Builder) (cell : TonCell) : Prop :=
  Built (builder.elim ([], []) written) cell

/-- The padding of the root's references. -/
theorem reserveRefs_yields (hT : T.Lawful written ahead) : ∀ (fuel : Nat) (root : T.Builder),
    (written root).2.length ≤ 2 → 2 < fuel + (written root).2.length → (reserveRefs T fuel root).Yields fun root' =>
      written root' = ((written root).1,
        (written root).2 ++ List.replicate (2 - (written root).2.length) (.mk .ordinary 0 [] []))
  | 0, root, hle, hfuel => by omega
  | fuel + 1, root, hle, hfuel => by
    have hused : (Exec.sub maxCellRefs (T.refsLeft root) : Exec AppCoreError Nat) = .ok (written root).2.length := by
      rw [hT.refsLeft, Exec.sub_of_le (Nat.sub_le _ _)]
      congr 1
      simp only [maxCellRefs]
      omega
    rw [reserveRefs, hused, Exec.ok_bind]
    split
    next hlt =>
      refine (hT.writeRef root T.empty).yields.bind fun b ⟨_, hb⟩ => ?_
      have hlen : (written b).2.length = (written root).2.length + 1 := by simp [hb]
      refine (reserveRefs_yields hT fuel b (by omega) (by omega)).mono fun root' hroot' => ?_
      rw [hroot', hlen, hb, hT.empty,
        show 2 - (written root).2.length = (2 - ((written root).2.length + 1)) + 1 by omega, List.replicate_succ]
      simp
    next hge =>
      refine Exec.yields_ok ?_
      rw [show 2 - (written root).2.length = 0 by omega, List.replicate_zero, List.append_nil]

theorem ones_yields (hT : T.Lawful written ahead) (header : T.Builder) (l : List Nat) :
    (l.foldlM (fun header _ => mapErr (T.writeBit header true)) header).Yields fun header' =>
      written header' = ((written header).1 ++ List.replicate l.length true, (written header).2) := by
  let P : List Nat → T.Builder → Prop := fun done b =>
    written b = ((written header).1 ++ List.replicate done.length true, (written header).2)
  refine Exec.yields_foldlM (P := P) l [] header (fun done a _ b hb => ?_) (by simp [P])
  refine (hT.writeBit b true).yields.mono fun b' ⟨_, hb'⟩ => ?_
  show written b' = _
  rw [hb', hb, List.length_append, List.length_singleton, List.replicate_add, ← List.append_assoc]
  rfl

/-- The spilled cells become references, in order. -/
theorem extras_yields (hT : T.Lawful written ahead) (header : T.Builder) (extras : List (Option T.Builder))
    (hpresent : ∀ extra ∈ extras, ∃ b, extra = .some b) :
    (extras.foldlM (fun header extra => do
      mapErr (T.writeRef header (← mapErr (T.build (← Exec.get extra))))) header).Yields fun header' =>
      ∃ cells, written header' = ((written header).1, (written header).2 ++ cells) ∧
        List.Forall₂ (BuiltFrom written) extras cells := by
  let P : List (Option T.Builder) → T.Builder → Prop := fun done b =>
    ∃ cells, written b = ((written header).1, (written header).2 ++ cells) ∧
      List.Forall₂ (BuiltFrom written) done cells
  refine Exec.yields_foldlM (P := P) extras [] header (fun done extra he b ⟨cells, hb, hcells⟩ => ?_)
    ⟨[], by simp, .nil⟩
  obtain ⟨builder, rfl⟩ := hpresent extra he
  rw [Exec.get_some, Exec.ok_bind]
  refine (build_yields hT builder).bind fun cell hcell => ?_
  refine (hT.writeRef b cell).yields.mono fun b' ⟨_, hb'⟩ => ?_
  refine ⟨cells ++ [cell], ?_, List.rel_append hcells (.cons hcell .nil)⟩
  rw [hb', hb, List.append_assoc]

/-- The cell a header's cell number leads to. -/
def Reaches (cell : TonCell) (id : Nat) (inner : TonCell) : Prop :=
  if id = 0 then inner = cell else cell.refs[id]? = .some inner

/-- A field is in the cell where `info` says. -/
def Located (inner : TonCell) (info : Info) : ClField → Prop
  | .num typeCode value => value < 2 ^ typeWidth typeCode ∧
    Bits.At inner.bits info.offset (Bits.ofNat (typeWidth typeCode) value)
  | .ref cell => inner.refs[info.ref]? = .some cell

/-- Every reference is of level zero. -/
def LevelZero (fields : List ClField) : Prop := ∀ cell, ClField.ref cell ∈ fields → cell.levelMask = 0

/-- The cell of a class. -/
structure Encodes (name : String) (fields : List ClField) (cell : TonCell) : Prop where
  name : Bits.At cell.bits 0 (Bits.ofNat nameWidth (asciiName name))
  plain : LevelZero fields → cell.Plain
  field : ∀ i field, fields[i]? = .some field → ∃ (info : Info) (inner : TonCell), info.Fits ∧
    Bits.At cell.bits (nameWidth + fieldInfoWidth * i) info.bits ∧ Reaches cell info.cell inner ∧
    Located inner info field ∧ (LevelZero fields → inner.Plain)

/-- The parts of the cell: header, root data cell and spilled cells. -/
structure Assembled (written : T.Builder → Contents) (d : Draft T) (cell : TonCell) : Prop where
  intro ::
  headerBits : (written d.header).1.length ≤ headerWidth
  bits : cell.bits = (written d.header).1 ++ List.replicate (headerWidth - (written d.header).1.length) true ++
    (d.at written 1).1
  refs : ∃ padding extras, cell.refs = (d.at written 1).2 ++ padding ++ extras ∧
    (∀ child ∈ padding, child = .mk .ordinary 0 [] []) ∧ List.Forall₂ (BuiltFrom written) (d.cells.drop 2) extras ∧
    (2 < d.cells.length → ((d.at written 1).2 ++ padding).length = 2)
  built : Built (cell.bits, cell.refs) cell

theorem Assembled.header {d : Draft T} {cell : TonCell} (h : Assembled written d cell) :
    ∃ header, header.length = headerWidth ∧ (written d.header).1 <+: header ∧
      cell.bits = header ++ (d.at written 1).1 := by
  have hle := h.headerBits
  refine ⟨_, ?_, List.prefix_append _ _, h.bits⟩
  rw [List.length_append, List.length_replicate]
  omega

theorem Assembled.spilled {d : Draft T} {cell : TonCell} (h : Assembled written d cell) {k : Nat} (hk : 2 ≤ k)
    (hlt : k < d.cells.length) : ∃ inner, cell.refs[k]? = .some inner ∧ Built (d.at written k) inner := by
  obtain ⟨padding, extras, hrefs, -, hextras, htwo⟩ := h.refs
  have hlen := hextras.length_eq
  rw [List.length_drop] at hlen
  obtain ⟨inner, hinner⟩ : ∃ inner, extras[k - 2]? = .some inner :=
    ⟨_, List.getElem?_eq_getElem (show k - 2 < extras.length by omega)⟩
  refine ⟨inner, ?_, ?_⟩
  · rw [hrefs, List.getElem?_append_right (by rw [htwo (by omega)]; exact hk), htwo (by omega)]
    exact hinner
  · obtain ⟨hlt', rfl⟩ := List.getElem?_eq_some_iff.mp hinner
    have hbuilt := hextras.get (i := k - 2) (by rw [List.length_drop]; omega) hlt'
    have hindex : 2 + (k - 2) = k := by omega
    simp only [BuiltFrom, List.get_eq_getElem, List.getElem_drop, hindex] at hbuilt
    rw [Draft.at, List.getD_eq_getElem _ _ hlt]
    exact hbuilt

/-- A cell that holds a field has been opened. -/
theorem StoredIn.lt_length {d : Draft T} {field : ClField} {info : Info} {k start : Nat}
    (h : StoredIn (d.at written k) start info field) (htyped : field.Typed) : k < d.cells.length := by
  by_contra hge
  have hat : d.at written k = ([], []) := by
    rw [Draft.at, List.getD_eq_default _ _ (not_lt.mp hge)]
    rfl
  rw [hat] at h
  cases field with
  | num typeCode value =>
    obtain ⟨-, i, -, hpart⟩ := h
    have hpos := typeWidth_pos htyped
    have := hpart.lt_length (fun hnil => by simpa [hpos.ne'] using congrArg List.length hnil)
    exact absurd this (by simp)
  | ref cell => simp [StoredIn] at h

theorem Assembled.located {d : Draft T} {cell : TonCell} (h : Assembled written d cell) {field : ClField} {info : Info}
    {fields : List ClField} (hfrom : ∀ k, ∀ child ∈ (d.at written k).2, ClField.ref child ∈ fields)
    (hplain : LevelZero fields → cell.Plain) (htyped : field.Typed) (hs : Stored (d.at written) field info) :
    ∃ inner, Reaches cell info.cell inner ∧ Located inner info field ∧ (LevelZero fields → inner.Plain) := by
  obtain ⟨k, hk, hid, hin⟩ := hs
  by_cases hone : k = 1
  · subst hone
    -- The root data cell: behind the header, and with its references first.
    refine ⟨cell, by simp [Reaches, hid, cellId], ?_, hplain⟩
    obtain ⟨header, hlen, -, hbits⟩ := h.header
    obtain ⟨padding, extras, hrefs, -⟩ := h.refs
    cases field with
    | num typeCode value =>
      obtain ⟨hv, i, hoffset, hat⟩ := hin
      refine ⟨hv, ?_⟩
      rw [hbits, hoffset, dataStart, if_pos rfl, ← hlen]
      exact hat.after header
    | ref child =>
      obtain ⟨hlt, -⟩ := List.getElem?_eq_some_iff.mp hin
      show cell.refs[info.ref]? = .some child
      rw [hrefs, List.append_assoc, List.getElem?_append_left hlt]
      exact hin
  · obtain ⟨inner, hinner, hbuilt⟩ := h.spilled (show 2 ≤ k by omega) (hin.lt_length htyped)
    have hidk : info.cell = k := by rw [hid, cellId, if_neg hone]
    refine ⟨inner, by rw [Reaches, hidk, if_neg (by omega)]; exact hinner, ?_, fun hzero => hbuilt.plain ?_⟩
    · cases field with
      | num typeCode value =>
        obtain ⟨hv, i, hoffset, hat⟩ := hin
        refine ⟨hv, ?_⟩
        rw [hbuilt.bits, hoffset, dataStart, if_neg hone, Nat.zero_add]
        exact hat
      | ref child =>
        show inner.refs[info.ref]? = .some child
        rw [hbuilt.refs]
        exact hin
    · exact fun child hchild => hzero child (hfrom k child hchild)

/-- References of level zero make a class cell of level zero. -/
theorem Assembled.plain {d : Draft T} {cell : TonCell} (h : Assembled written d cell) {fields : List ClField}
    (hfrom : ∀ k, ∀ child ∈ (d.at written k).2, ClField.ref child ∈ fields) (hzero : LevelZero fields) :
    cell.Plain := by
  refine h.built.plain fun child hchild => ?_
  obtain ⟨padding, extras, hrefs, hpadding, hextras, htwo⟩ := h.refs
  have hmem : child ∈ (d.at written 1).2 ++ padding ++ extras := hrefs ▸ hchild
  rw [List.mem_append, List.mem_append] at hmem
  rcases hmem with (hroot | hpad) | hextra
  · exact hzero child (hfrom 1 child hroot)
  · rw [hpadding child hpad]
    rfl
  · obtain ⟨j, hj⟩ := List.mem_iff_getElem?.mp hextra
    obtain ⟨hlt, -⟩ := List.getElem?_eq_some_iff.mp hj
    have hlen := hextras.length_eq
    rw [List.length_drop] at hlen
    obtain ⟨inner, hinner, hbuilt⟩ := h.spilled (show 2 ≤ j + 2 by omega) (by omega)
    rw [hrefs, List.getElem?_append_right (by rw [htwo (by omega)]; omega), htwo (by omega), Nat.add_sub_cancel, hj]
      at hinner
    cases hinner
    exact (hbuilt.plain fun c hc => hzero c (hfrom _ c hc)).2

theorem Assembled.encodes {name : String} {fields : List ClField} {d : Draft T} {cell : TonCell}
    (h : Assembled written d cell) (hd : Drafted written name fields d) (htyped : ∀ field ∈ fields, field.Typed) :
    Encodes name fields cell := by
  have hplain := h.plain hd.refsFrom
  obtain ⟨infos, hheader, -, hinfos⟩ := hd.headed
  obtain ⟨header, -, ⟨ones, hones⟩, hbits⟩ := h.header
  rw [hheader] at hones
  have hcell : cell.bits = Bits.ofNat nameWidth (asciiName name) ++ (infos ++ (ones ++ (d.at written 1).1)) := by
    rw [hbits, ← hones]
    simp only [List.append_assoc]
  refine ⟨?_, hplain, fun i field hi => ?_⟩
  · rw [hcell]
    exact List.prefix_append _ _
  · obtain ⟨info, hfits, hat, hstored⟩ := hinfos i field hi
    obtain ⟨inner, hreach, hloc, hinner⟩ :=
      h.located hd.refsFrom hplain (htyped field (List.mem_of_getElem? hi)) hstored
    refine ⟨info, inner, hfits, ?_, hreach, hloc, hinner⟩
    have := (hat.append (ones ++ (d.at written 1).1)).after (Bits.ofNat nameWidth (asciiName name))
    rwa [Bits.length_ofNat, ← hcell] at this

/-- The root's references, filled up to two when there are spilled cells. -/
theorem padRoot_yields (hT : T.Lawful written ahead) {root : T.Builder} (hroot : (written root).2.length ≤ 2)
    (numCells : Nat) :
    (padRoot T numCells root).Yields fun root' =>
      ∃ padding, written root' = ((written root).1, (written root).2 ++ padding) ∧
        (∀ child ∈ padding, child = .mk .ordinary 0 [] []) ∧
        (1 < numCells → ((written root).2 ++ padding).length = 2) := by
  unfold padRoot
  split
  · refine (reserveRefs_yields hT 3 root hroot (by omega)).mono fun root' hroot' => ?_
    refine ⟨_, hroot', fun child hchild => List.eq_of_mem_replicate hchild, fun _ => ?_⟩
    · rw [List.length_append, List.length_replicate]
      omega
  next hfew => exact Exec.yields_ok ⟨[], by simp, by simp, fun h => absurd h hfew⟩

theorem assemble_yields (hT : T.Lawful written ahead) {name : String} {fields : List ClField} {d : Draft T}
    (hd : Drafted written name fields d) (hfew : fields.length ≤ maxClassFields) :
    (d.assemble T).Yields (Assembled written d) := by
  have hcells : 2 ≤ d.cells.length := by
    have := hd.dataCell
    omega
  obtain ⟨root, hroot, hrootAt⟩ := hd.cell le_rfl hcells
  rw [Draft.assemble, hroot, Exec.ok_bind, Exec.sub_of_le (Nat.le_of_succ_le hcells), Exec.ok_bind]
  refine (padRoot_yields hT (hrootAt ▸ hd.rootRefs) _).bind fun root' ⟨padding, hroot', hpadding, htwo⟩ => ?_
  rw [hrootAt] at hroot' htwo
  -- The header is 80 bits and 18 for each field, so at most 350.
  obtain ⟨infos, hinfos, hlen, -⟩ := hd.headed
  have hused : (written d.header).1.length ≤ headerWidth := by
    rw [hinfos, List.length_append, Bits.length_ofNat, hlen]
    have := Nat.mul_le_mul_left fieldInfoWidth hfew
    simp only [headerWidth, maxClassFields] at this ⊢
    omega
  have hwidth : headerWidth ≤ maxCellBits := by decide
  have hsub : maxCellBits - T.dataBitsLeft d.header = (written d.header).1.length := by
    rw [hT.dataBitsLeft]
    omega
  rw [Exec.sub_of_le (by rw [hT.dataBitsLeft]; exact Nat.sub_le _ _), Exec.ok_bind, hsub, Exec.sub_of_le hused,
    Exec.ok_bind]
  refine (ones_yields hT d.header _).bind fun header₁ hheader₁ => ?_
  refine (build_yields hT root').bind fun rootCell hrootCell => ?_
  refine (hT.writeCell header₁ rootCell).yields.bind fun header₂ ⟨_, hheader₂⟩ => ?_
  rw [List.take_of_length_le (by omega)]
  have hpresent : ∀ extra ∈ d.cells.drop 2, ∃ b, extra = .some b := by
    intro extra hextra
    obtain ⟨j, hj⟩ := List.mem_iff_getElem?.mp hextra
    rw [List.getElem?_drop] at hj
    obtain ⟨b, hb⟩ := hd.present (2 + j) (by omega) (List.getElem?_eq_some_iff.mp hj).1
    exact ⟨b, Option.some.inj (hj.symm.trans hb)⟩
  refine (extras_yields hT header₂ _ hpresent).bind fun header₃ ⟨extras, hheader₃, hextras⟩ => ?_
  refine (build_yields hT header₃).mono fun cell hcell => ?_
  have hcellBits := hcell.bits
  have hcellRefs := hcell.refs
  rw [hheader₃, hheader₂, hheader₁, hrootCell.bits, hroot'] at hcellBits
  rw [hheader₃, hheader₂, hheader₁, hrootCell.refs, hroot', hinfos, List.nil_append] at hcellRefs
  rw [List.length_range] at hcellBits
  refine .intro hused hcellBits ?_ ?_
  · exact ⟨padding, extras, hcellRefs, hpadding, hextras, fun h => htwo (by omega)⟩
  · rw [hcell.bits, hcell.refs]
    exact hcell

theorem declareFields_yields (hT : T.Lawful written ahead) {name : String} {fields : List ClField} {header : T.Builder}
    (hheader : written header = (Bits.ofNat nameWidth (asciiName name), [])) (htyped : ∀ field ∈ fields, field.Typed) :
    (fields.foldlM Draft.declareField (Draft.start header)).Yields (Drafted written name fields) := by
  have hstep : ∀ done : List ClField, ∀ field ∈ fields, ∀ d, Drafted written name done d →
      (d.declareField field).Yields (Drafted written name (done ++ [field])) :=
    fun done field hf d hd => hd.declareField hT (htyped field hf)
  exact Exec.yields_foldlM (P := Drafted written name) fields [] _ hstep (drafted_nil hT hheader)

/-- **`cl_declare` returns, and what it makes is the cell of the class**. -/
theorem clDeclare_yields (hT : T.Lawful written ahead) (name : String) (fields : List ClField)
    (htyped : ∀ field ∈ fields, field.Typed) :
    (clDeclare T name fields).Yields fun cell => asciiName name < 2 ^ nameWidth ∧ Encodes name fields cell := by
  rw [clDeclare]
  split
  · exact Exec.yields_err _ _
  next hfew =>
    refine (hT.writeNum ..).yields.bind fun header ⟨hname, hheader⟩ => ?_
    rw [hT.builder, List.nil_append] at hheader
    refine (declareFields_yields hT hheader htyped).bind fun d hd => ?_
    exact (assemble_yields hT hd (not_lt.mp hfew)).mono fun cell h => ⟨hname, h.encodes hd htyped⟩

/-- The header and the draft a class cell was made from. -/
theorem clDeclare_parts (hT : T.Lawful written ahead) {name : String} {fields : List ClField} {cell : TonCell}
    (htyped : ∀ field ∈ fields, field.Typed) (h : clDeclare T name fields = .ok cell) : ∃ header d,
      written header = (Bits.ofNat nameWidth (asciiName name), []) ∧
      fields.foldlM Draft.declareField (Draft.start header) = .ok d ∧ Drafted written name fields d ∧
      Assembled written d cell := by
  rw [clDeclare] at h
  split at h
  · cases h
  next hfew =>
    obtain ⟨header, hwrite, h⟩ := Exec.bind_ok_iff.mp h
    obtain ⟨d, hfold, h⟩ := Exec.bind_ok_iff.mp h
    have hheader := ((hT.writeNum ..).yields.2 header hwrite).2
    rw [hT.builder, List.nil_append] at hheader
    have hd := (declareFields_yields hT hheader htyped).2 d hfold
    exact ⟨header, d, hheader, hfold, hd, (assemble_yields hT hd (not_lt.mp hfew)).2 cell h⟩

/-! ## Reading -/

theorem readRefAt_spec (hT : T.Lawful written ahead) : ∀ (k : Nat) {p : T.Parser} {cell : TonCell},
    (ahead p).2[k]? = .some cell → readRefAt T k p = .ok cell
  | k, p, cell, h => by
    cases hrefs : (ahead p).2 with
    | nil =>
      rw [hrefs] at h
      cases h
    | cons first refs =>
      obtain ⟨q, hread, hq⟩ := hT.readNextRef_cons p first refs hrefs
      rw [hrefs] at h
      cases k with
      | zero =>
        rw [List.getElem?_cons_zero] at h
        rw [readRefAt, hread, Option.some.inj h]
        rfl
      | succ k =>
        rw [readRefAt, hread, mapErr_ok, Exec.ok_bind]
        exact readRefAt_spec hT k (by rw [hq]; simpa using h)

/-- The bits of a cell from an index on. -/
theorem skip_spec (hT : T.Lawful written ahead) {cell : TonCell} {offset : Nat} (h : offset ≤ cell.bits.length) :
    ∃ bytes p, T.readBits (T.parser cell) offset = .ok (bytes, p) ∧ (ahead p).1 = cell.bits.drop offset := by
  have hparser := hT.parser cell
  obtain ⟨p, hread, hp⟩ := hT.readBits (T.parser cell) offset (by rw [hparser]; exact h)
  exact ⟨_, p, hread, by rw [hp, hparser]⟩

theorem readNumAt_spec (hT : T.Lawful written ahead) {cell : TonCell} {offset width value : Nat}
    (h : Bits.At cell.bits offset (Bits.ofNat width value)) (hwidth : 0 < width) (hv : value < 2 ^ width) :
    readNumAt T cell offset width = .ok value := by
  have hne : Bits.ofNat width value ≠ [] := fun hnil => by simpa [hwidth.ne'] using congrArg List.length hnil
  obtain ⟨bytes, p, hread, hp⟩ := skip_spec hT (h.lt_length hne).le
  obtain ⟨rest, hrest⟩ := h
  obtain ⟨q, hnum, -⟩ := hT.readNum_append (hp.trans hrest.symm) hv
  simp only [readNumAt, hread, mapErr_ok, Exec.ok_bind, hnum]
  rfl

/-- The header is read back. -/
theorem fieldInfo_spec (hT : T.Lawful written ahead) {cell : TonCell} {i : Nat} {info : Info} (hplain : cell.Plain)
    (hfits : info.Fits) (h : Bits.At cell.bits (nameWidth + fieldInfoWidth * i) info.bits) :
    fieldInfo T cell i = .ok (info.cell, info.offset, info.ref) := by
  have hafter := Bits.At.right h
  rw [Bits.length_ofNat, Nat.mul_comm fieldInfoWidth i] at hafter
  have hne : Bits.ofNat cellIdWidth info.cell ++ (Bits.ofNat dataOffsetWidth info.offset ++
      Bits.ofNat refOffsetWidth info.ref) ≠ [] := by
    intro hnil
    have := congrArg List.length hnil
    simp [cellIdWidth] at this
  obtain ⟨bytes, p, hread, hp⟩ := skip_spec hT (hafter.lt_length hne).le
  obtain ⟨rest, hrest⟩ := hafter
  rw [← hrest, List.append_assoc, List.append_assoc] at hp
  obtain ⟨q₁, h₁, hq₁⟩ := hT.readNum_append hp hfits.cell
  obtain ⟨q₂, h₂, hq₂⟩ := hT.readNum_append (congrArg Prod.fst hq₁) hfits.offset
  obtain ⟨q₃, h₃, -⟩ := hT.readNum_append (congrArg Prod.fst hq₂) hfits.ref
  simp only [fieldInfo, requireOrdinary_of_plain hplain, Exec.ok_bind, hread, mapErr_ok, h₁, h₂, h₃]
  rfl

/-- A class name that fits: not empty, ten bytes at most, and no zero in front. -/
def NameFits (name : String) : Prop :=
  ∃ first rest, nameBytes name = first :: rest ∧ first ≠ 0 ∧ rest.length < 10

theorem fromUTF8_nameBytes (name : String) :
    String.fromUTF8? (ByteArray.mk (nameBytes name).toArray) = .some name := by
  have harray : ByteArray.mk (nameBytes name).toArray = name.toByteArray := by simp [nameBytes]
  rw [harray, String.fromUTF8?, dif_pos name.isValidUTF8]
  rfl

variable {name : String} {fields : List ClField} {cell : TonCell}

theorem Encodes.cellName (hT : T.Lawful written ahead) (h : Encodes name fields cell) (hplain : cell.Plain)
    (hname : NameFits name) (hlt : asciiName name < 2 ^ nameWidth) (utf8Error : List UInt8 → String) :
    cellName T utf8Error cell = .ok name := by
  obtain ⟨first, tail, hbytes, hfirst, -⟩ := hname
  obtain ⟨rest, hrest⟩ := h.name
  rw [List.drop_zero] at hrest
  have hparser : (ahead (T.parser cell)).1 = Bits.ofNat nameWidth (asciiName name) ++ rest := by
    rw [hT.parser, hrest]
  obtain ⟨p, hread, -⟩ := hT.readNum_append hparser hlt
  have hback : Bits.toBytesBe (asciiName name) = nameBytes name := by
    rw [asciiName, hbytes, Bits.toBytesBe_ofBytes tail hfirst]
  rw [Ton.cellName, requireOrdinary_of_plain hplain, Exec.ok_bind, hread, mapErr_ok, Exec.ok_bind]
  simp only [hback, fromUTF8_nameBytes]
  rfl

/-- A number is read from the cell its header names. -/
theorem Encodes.clGetUintBe (hT : T.Lawful written ahead) (h : Encodes name fields cell) (hzero : LevelZero fields)
    {i : Nat} {typeCode : UInt8} {value : Nat} (hi : fields[i]? = .some (.num typeCode value)) (htyped : typeCode ≤ 8) :
    ∃ be, clGetUintBe T cell i (typeWidth typeCode) = .ok be ∧ be.length = (typeWidth typeCode + 7) / 8 ∧
      Bits.ofBytes be = value := by
  have hplain := h.plain hzero
  obtain ⟨info, inner, hfits, hat, hreach, ⟨hv, hpart⟩, hinner⟩ := h.field i _ hi
  have hnum := readNumAt_spec hT hpart (typeWidth_pos htyped) hv
  refine ⟨List.replicate ((typeWidth typeCode + 7) / 8 - (Bits.toBytesBe value).length) 0 ++ Bits.toBytesBe value,
    ?_, ?_, ?_⟩
  · rw [Ton.clGetUintBe, fieldInfo_spec hT hplain hfits hat, Exec.ok_bind]
    unfold Reaches at hreach
    split at hreach
    next hcell =>
      subst hreach
      simp only [hcell, if_true, hnum, Exec.ok_bind]
      rfl
    next hcell =>
      have hnext : readRefAt T info.cell (T.parser cell) = .ok inner :=
        readRefAt_spec hT _ (by rw [hT.parser]; exact hreach)
      simp only [hcell, if_false, hnext, Exec.ok_bind, requireOrdinary_of_plain (hinner hzero), hnum]
      rfl
  · have hle : Bits.byteWidth value ≤ (typeWidth typeCode + 7) / 8 := by
      have hpos := typeWidth_pos htyped
      refine Bits.byteWidth_le_iff.mpr ⟨hv.trans_le ?_, by omega⟩
      calc 2 ^ typeWidth typeCode ≤ 2 ^ (8 * ((typeWidth typeCode + 7) / 8)) :=
            Nat.pow_le_pow_right (by omega) (by omega)
        _ = 256 ^ ((typeWidth typeCode + 7) / 8) := Nat.pow_mul 2 8 _
    simp only [List.length_append, List.length_replicate, Bits.length_toBytesBe]
    omega
  · rw [Bits.ofBytes_zeros, Bits.ofBytes_toBytesBe]

/-- A reference is read from the cell its header names. -/
theorem Encodes.clGetRef (hT : T.Lawful written ahead) (h : Encodes name fields cell) (hzero : LevelZero fields)
    {i : Nat} {child : TonCell} (hi : fields[i]? = .some (.ref child)) : clGetRef T cell i = .ok child := by
  obtain ⟨info, inner, hfits, hat, hreach, href, hinner⟩ := h.field i _ hi
  have hread : readRefAt T info.ref (T.parser inner) = .ok child :=
    readRefAt_spec hT _ (by rw [hT.parser]; exact href)
  rw [Ton.clGetRef, fieldInfo_spec hT (h.plain hzero) hfits hat, Exec.ok_bind]
  unfold Reaches at hreach
  split at hreach
  next hcell =>
    subst hreach
    simp only [hcell, if_true, hread]
  next hcell =>
    have hnext : readRefAt T info.cell (T.parser cell) = .ok inner :=
      readRefAt_spec hT _ (by rw [hT.parser]; exact hreach)
    simp only [hcell, if_false, hnext, Exec.ok_bind, requireOrdinary_of_plain (hinner hzero), hread]

/-! ## Equal cells -/

theorem Info.Fits.eq_of_bits {info info' : Info} (h : info.Fits) (h' : info'.Fits) (he : info.bits = info'.bits) :
    info = info' := by
  obtain ⟨htype, he⟩ := List.append_inj he (by simp)
  obtain ⟨hcell, he⟩ := List.append_inj he (by simp)
  obtain ⟨hoffset, href⟩ := List.append_inj he (by simp)
  cases info
  cases info'
  rw [Info.mk.injEq]
  exact ⟨Bits.ofNat_injective h.type h'.type htype, Bits.ofNat_injective h.cell h'.cell hcell,
    Bits.ofNat_injective h.offset h'.offset hoffset, Bits.ofNat_injective h.ref h'.ref href⟩

theorem Reaches.unique {id : Nat} {inner inner' : TonCell} (h : Reaches cell id inner) (h' : Reaches cell id inner') :
    inner = inner' := by
  unfold Reaches at h h'
  split at h
  next hid =>
    rw [if_pos hid] at h'
    rw [h, h']
  next hid =>
    rw [if_neg hid] at h'
    exact Option.some.inj (h.symm.trans h')

/-- The type of a field: a number's code, or a reference. -/
def ClField.kind : ClField → Option UInt8
  | .num typeCode _ => .some typeCode
  | .ref _ => .none

theorem Located.unique {inner : TonCell} {info : Info} {field field' : ClField} (h : Located inner info field)
    (h' : Located inner info field') (hkind : field.kind = field'.kind) : field = field' := by
  cases field with
  | num typeCode value =>
    cases field' with
    | num typeCode' value' =>
      cases hkind
      rw [Bits.ofNat_injective h.1 h'.1 (h.2.unique h'.2 (by simp))]
    | ref cell' => cases hkind
  | ref cell =>
    cases field' with
    | num typeCode' value' => cases hkind
    | ref cell' => rw [Option.some.inj (h.symm.trans h')]

/-- One cell is of one list of fields of its types. -/
theorem Encodes.unique {fields' : List ClField} (h : Encodes name fields cell) (h' : Encodes name fields' cell)
    (hkind : fields.map ClField.kind = fields'.map ClField.kind) : fields = fields' := by
  refine List.ext_getElem? fun i => ?_
  have hki : fields[i]?.map ClField.kind = fields'[i]?.map ClField.kind := by
    rw [← List.getElem?_map, hkind, List.getElem?_map]
  cases hf : fields[i]? with
  | none =>
    rw [hf, Option.map_none] at hki
    exact (Option.map_eq_none_iff.mp hki.symm).symm
  | some field =>
    rw [hf, Option.map_some] at hki
    obtain ⟨field', hf', hk⟩ := Option.map_eq_some_iff.mp hki.symm
    obtain ⟨info, inner, hfits, hat, hreach, hloc, -⟩ := h.field i field hf
    obtain ⟨info', inner', hfits', hat', hreach', hloc', -⟩ := h'.field i field' hf'
    obtain rfl : info = info' := hfits.eq_of_bits hfits' (hat.unique hat' (by simp))
    obtain rfl : inner = inner' := hreach.unique hreach'
    rw [hf', hloc.unique hloc' hk.symm]

/-- **A class cell is read back exactly**: its name, and where no reference has
a level, each number as the bytes of its width and each reference as it was.
Two lists of fields of the same types with the same cell are equal. -/
theorem clDeclare_read_back (hT : T.Lawful written ahead) (utf8Error : List UInt8 → String) (name : String)
    (fields : List ClField) (hname : NameFits name) (htyped : ∀ field ∈ fields, field.Typed) (cell : TonCell)
    (h : clDeclare T name fields = .ok cell) :
    (LevelZero fields → cellName T utf8Error cell = .ok name ∧
      (∀ i typeCode value, fields[i]? = .some (.num typeCode value) → ∃ be,
        clGetUintBe T cell i (2 ^ typeCode.toNat) = .ok be ∧ be.length = (2 ^ typeCode.toNat + 7) / 8 ∧
        Bits.ofBytes be = value) ∧
      ∀ i child, fields[i]? = .some (.ref child) → clGetRef T cell i = .ok child) ∧
    ∀ fields', fields'.map ClField.kind = fields.map ClField.kind → clDeclare T name fields' = .ok cell →
      fields' = fields := by
  obtain ⟨hlt, henc⟩ := (clDeclare_yields hT name fields htyped).2 cell h
  refine ⟨fun hzero => ⟨henc.cellName hT (henc.plain hzero) hname hlt utf8Error, ?_, ?_⟩, ?_⟩
  · intro i typeCode value hi
    have ht : typeCode ≤ 8 := htyped _ (List.mem_of_getElem? hi)
    have hwidth : typeWidth typeCode = 2 ^ typeCode.toNat := if_pos ht
    exact hwidth ▸ henc.clGetUintBe hT hzero hi ht
  · exact fun i child hi => henc.clGetRef hT hzero hi
  · intro fields' hkind h'
    have htyped' : ∀ field ∈ fields', field.Typed := by
      intro field hf
      have hmem : field.kind ∈ fields.map ClField.kind := hkind ▸ List.mem_map_of_mem hf
      obtain ⟨same, hsame, hk⟩ := List.mem_map.mp hmem
      have hs := htyped same hsame
      cases field with
      | ref child => trivial
      | num typeCode value =>
        cases same with
        | ref child => cases hk
        | num typeCode' value' =>
          cases hk
          exact hs
    obtain ⟨-, henc'⟩ := (clDeclare_yields hT name fields' htyped').2 cell h'
    exact henc'.unique henc hkind

/-- A class whose third number and third reference both spill. -/
def spilling : List ClField :=
  [.num 8 1, .num 8 2, .num 8 3, .ref (.mk .ordinary 0 [] []), .ref (.mk .ordinary 0 [true] []),
    .ref (.mk .ordinary 0 [false] [])]

theorem readBack_spilling : ∃ cell be, clDeclare .plain "A" spilling = .ok cell ∧
    cellName .plain (fun _ => "") cell = .ok "A" ∧ clGetUintBe .plain cell 2 256 = .ok be ∧ be.length = 32 ∧
    Bits.ofBytes be = 3 ∧ clGetRef .plain cell 5 = .ok (.mk .ordinary 0 [false] []) := by
  have hok : (clDeclare .plain "A" spilling).isOk = true := by decide +kernel
  cases h : clDeclare .plain "A" spilling with
  | error e =>
    rw [h] at hok
    cases hok
  | ok cell =>
    have hname : NameFits "A" := ⟨65, [], by decide, by decide, by decide⟩
    have htyped : ∀ field ∈ spilling, field.Typed := by simp [spilling, ClField.Typed]
    have hzero : LevelZero spilling := by
      rintro c hc
      simp only [spilling, List.mem_cons, reduceCtorEq, ClField.ref.injEq, List.not_mem_nil, false_or, or_false] at hc
      rcases hc with rfl | rfl | rfl <;> rfl
    obtain ⟨hread, -⟩ :=
      clDeclare_read_back TonCore.plain_lawful (fun _ => "") "A" spilling hname htyped cell h
    obtain ⟨hcell, hnum, href⟩ := hread hzero
    obtain ⟨be, hbe, hlen, hvalue⟩ := hnum 2 8 3 rfl
    exact ⟨cell, be, rfl, hcell, hbe, hlen, hvalue, href 5 _ rfl⟩

/-- A class over a pruned branch is of level one, and is not read at all. -/
theorem prunedBranch_not_read_back : ∃ cell, clDeclare .plain "A" [.ref prunedBranch] = .ok cell ∧
    cellName .plain (fun _ => "") cell ≠ .ok "A" ∧ clGetRef .plain cell 0 ≠ .ok prunedBranch := by
  have hok : (clDeclare .plain "A" [.ref prunedBranch]).isOk = true := by decide +kernel
  have hname : (clDeclare .plain "A" [.ref prunedBranch] >>= cellName .plain (fun _ => "")).isOk = false := by
    decide +kernel
  have href : (clDeclare .plain "A" [.ref prunedBranch] >>= fun cell => clGetRef .plain cell 0).isOk = false := by
    decide +kernel
  cases h : clDeclare .plain "A" [.ref prunedBranch] with
  | error e =>
    rw [h] at hok
    cases hok
  | ok cell =>
    rw [h, Exec.ok_bind] at hname href
    refine ⟨cell, rfl, fun he => ?_, fun he => ?_⟩
    · rw [he] at hname
      cases hname
    · rw [he] at href
      cases href

end Pillar.Ton
