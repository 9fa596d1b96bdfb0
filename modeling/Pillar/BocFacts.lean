/-
`serialize_boc` makes a well formed bag of cells, and the checks on bags accept
it.

The bytes are stated once, as a header and one record for each cell of the
order; writing them and reading them are then separate facts.
-/
import Pillar.BocOrder

namespace Pillar.Ton

variable {T : TonCore} {written : T.Builder → Contents} {ahead : T.Parser → Contents}

/-! ## The bytes of a bag -/

/-- A cell's data, with the completion tag. -/
def cellData (bits : List Bool) : List UInt8 :=
  if bits.length % 8 = 0 then packBits bits
  else (packBits bits).modify (bits.length / 8) (· ||| (0x80 >>> UInt8.ofNat (bits.length % 8)))

def record (sizeBytes : Nat) (cell : TonCell) (places : List Nat) : List UInt8 :=
  descriptor1 cell places.length :: descriptor2 cell.dataLenBits ::
    cellData cell.bits ++ places.flatMap (Bits.bytesOf sizeBytes)

/-- The records of a bag, one after the other. -/
def bagData (order : List TonCell) (places : List (List Nat)) : List UInt8 :=
  (List.zipWith (record (Bits.byteWidth order.length)) order places).flatten

/-- A bag without its checksum. -/
def bagBody (order : List TonCell) (places : List (List Nat)) : List UInt8 :=
  bocHeader (Bits.byteWidth order.length) (Bits.byteWidth (bagData order places).length) order.length
    (bagData order places).length ++ bagData order places

def bagBytes (crc32c : List UInt8 → UInt32) (order : List TonCell) (places : List (List Nat)) : List UInt8 :=
  bagBody order places ++ leBytes (crc32c (bagBody order places))

theorem length_packBits (bits : List Bool) : (packBits bits).length = (bits.length + 7) / 8 := by
  simp [packBits]

theorem length_cellData (bits : List Bool) : (cellData bits).length = (bits.length + 7) / 8 := by
  unfold cellData
  split
  · exact length_packBits bits
  · rw [List.length_modify, length_packBits]

theorem length_flatMap_bytesOf (width : Nat) (values : List Nat) :
    (values.flatMap (Bits.bytesOf width)).length = values.length * width := by
  simp [List.length_flatMap, Nat.mul_comm]

theorem length_record (sizeBytes : Nat) (cell : TonCell) (places : List Nat) :
    (record sizeBytes cell places).length = 2 + (cell.dataLenBits + 7) / 8 + places.length * sizeBytes := by
  simp only [record, List.length_append, List.length_cons, length_cellData, length_flatMap_bytesOf,
    TonCell.dataLenBits]
  omega

theorem complete_packBits (bits : List Bool) : complete bits.length (packBits bits) = .ok (cellData bits) := by
  unfold complete cellData
  split
  · rfl
  next hmod =>
    have hlt : bits.length / 8 < (packBits bits).length := by
      rw [length_packBits]
      omega
    rw [List.getElem?_eq_getElem hlt, Exec.get_some, Exec.ok_bind, List.modify_eq_set_getElem?,
      List.getElem?_eq_getElem hlt]
    rfl

/-! ## Writing -/

theorem emitCell_eq (hT : T.Lawful written ahead) {cells : List TonCell} {refs : List (List Nat)} {position : List Nat}
    {place : Nat → Nat} {id : Nat} (sizeBytes : Nat) (hcell : id < cells.length) (hrefs : id < refs.length)
    (hplaces : ∀ child ∈ childrenOf refs id, position[child]? = .some (place child)) :
    emitCell T cells refs position sizeBytes id =
      .ok (record sizeBytes (cellAt cells id) ((childrenOf refs id).map place)) := by
  have hparser := hT.parser (cellAt cells id)
  obtain ⟨q, hread, -⟩ := hT.readBits (T.parser (cellAt cells id)) (cellAt cells id).dataLenBits
    (by rw [hparser]; exact le_rfl)
  rw [hparser, TonCell.dataLenBits, List.take_length] at hread
  have hmap : (childrenOf refs id).mapM (fun child => Exec.get position[child]?) =
      (.ok ((childrenOf refs id).map place) : Exec AppCoreError (List Nat)) :=
    Exec.mapM_eq_map _ fun child hchild => by rw [hplaces child hchild, Exec.get_some]
  simp only [emitCell, cells_get hcell, refs_get hrefs, Exec.get_some, Exec.ok_bind, TonCell.dataLenBits, hread,
    mapErr_ok, complete_packBits, hmap]
  simp [record, TonCell.dataLenBits]

theorem cellSize_eq {cells : List TonCell} {refs : List (List Nat)} {id : Nat} (sizeBytes : Nat)
    (hcell : id < cells.length) (hrefs : id < refs.length) (place : Nat → Nat) :
    cellSize cells refs sizeBytes id =
      .ok (record sizeBytes (cellAt cells id) ((childrenOf refs id).map place)).length := by
  simp only [cellSize, cells_get hcell, refs_get hrefs, Exec.get_some, Exec.ok_bind, length_record, List.length_map]
  rfl

section Serialize

variable {H : Type} [DecidableEq H] {hash : TonCell → Except String H} {root : TonCell}

/-- What is written is the bytes of a bag of the cells under the root. -/
theorem serializeBoc_gives (hT : T.Lawful written ahead) (hhash : Hashes hash root)
    (crc32c : List UInt8 → UInt32) : (serializeBoc T hash crc32c root).Gives fun bytes =>
      ∃ order places, Bag root order places ∧ bytes = bagBytes crc32c order places := by
  rw [serializeBoc]
  refine (collectLevels_gives hhash _ collecting_nil (by omega) (by simp)).bind fun s hs => ?_
  refine (refIds_gives hhash hs).bind fun refs hrefs => ?_
  refine (postorderOf_gives (ranked_depth hrefs)).bind fun post ⟨hnodup, hpost, hclosed⟩ => ?_
  have hlen := hrefs.length_eq
  refine (positions_gives hnodup fun id hid => by rw [hlen]; exact (hpost id).mp hid).bind fun position hposition => ?_
  have hbag := bag_of_postorder hs.mem_iff hs.nodup hrefs hnodup hpost hclosed
  have hperm : post.reverse.Perm (List.range s.cells.length) := by
    refine (List.perm_ext_iff_of_nodup (List.nodup_reverse.mpr hnodup) List.nodup_range).mpr fun id => ?_
    rw [List.mem_reverse, hpost, List.mem_range, hlen]
  have hcount : (post.reverse.map (cellAt s.cells)).length = s.cells.length := by
    rw [List.length_map, hperm.length_eq, List.length_range]
  let bytesAt : Nat → List UInt8 := fun id => record (Bits.byteWidth s.cells.length) (cellAt s.cells id)
    ((childrenOf refs id).map (post.reverse.idxOf ·))
  have hrecords : post.reverse.mapM (emitCell T s.cells refs position (Bits.byteWidth s.cells.length)) =
      .ok (post.reverse.map bytesAt) := by
    refine Exec.mapM_eq_map _ fun id hid => ?_
    have hlt := (hpost id).mp (List.mem_reverse.mp hid)
    refine emitCell_eq hT _ (hlen ▸ hlt) hlt fun child hchild => hposition child ?_
    exact (hpost child).mpr ((ranked_depth hrefs).vertex id child hchild)
  have hsizes : (List.range s.cells.length).mapM (cellSize s.cells refs (Bits.byteWidth s.cells.length)) =
      .ok ((List.range s.cells.length).map fun id => (bytesAt id).length) := by
    refine Exec.mapM_eq_map _ fun id hid => ?_
    have hlt := List.mem_range.mp hid
    exact cellSize_eq _ hlt (hlen ▸ hlt) _
  have hdata : bagData (post.reverse.map (cellAt s.cells)) (placesOf refs post) =
    (post.reverse.map bytesAt).flatten := by
    rw [bagData, hcount, placesOf, List.zipWith_map, List.zipWith_self]
  have htotal : ((List.range s.cells.length).map fun id => (bytesAt id).length).sum =
      (bagData (post.reverse.map (cellAt s.cells)) (placesOf refs post)).length := by
    rw [hdata, List.length_flatten, List.map_map]
    exact ((hperm.map _).sum_eq).symm
  simp only [hsizes, Exec.ok_bind, hrecords, htotal]
  refine Exec.gives_ok ⟨_, _, hbag, ?_⟩
  rw [bagBytes, bagBody, hcount, hdata]

end Serialize

/-! ## Reading -/

theorem foldlM_ofBytes (bytes : List UInt8) (h : Bits.ofBytes bytes ≤ usizeMax) :
    bytes.foldlM (fun n byte => do checkedAdd (← checkedMul n 256) byte.toNat) 0 = .some (Bits.ofBytes bytes) := by
  induction bytes using List.reverseRecOn with
  | nil => rfl
  | append_singleton bytes byte ih =>
    rw [Bits.ofBytes_concat] at h ⊢
    have hmul : checkedMul (Bits.ofBytes bytes) 256 = .some (256 * Bits.ofBytes bytes) := by
      rw [checkedMul_of_le (by omega), Nat.mul_comm]
    rw [List.foldlM_append, ih (by omega)]
    simp [hmul, checkedAdd_of_le h]

theorem readBocUint_spec {bytes : List UInt8} {cursor width value : Nat}
    (h : Bits.At bytes cursor (Bits.bytesOf width value)) (hwidth : 0 < width) (hv : value < 256 ^ width)
    (hle : value ≤ usizeMax) (hlen : bytes.length ≤ usizeMax) :
    readBocUint bytes cursor width = .some (value, cursor + width) := by
  have hstop : cursor + width ≤ bytes.length := by
    have hprefix := h.length_le
    rw [Bits.length_bytesOf, List.length_drop] at hprefix
    omega
  have htake : (bytes.drop cursor).take width = Bits.bytesOf width value := by
    obtain ⟨rest, hrest⟩ := h
    rw [← hrest, List.take_left' (Bits.length_bytesOf width value)]
  have hvalue : Bits.ofBytes (Bits.bytesOf width value) = value := Bits.ofBytes_bytesOf hv
  have hfold := foldlM_ofBytes (Bits.bytesOf width value) (by rw [hvalue]; exact hle)
  rw [hvalue] at hfold
  rw [readBocUint, checkedAdd_of_le (hstop.trans hlen)]
  rw [Option.bind_eq_bind, Option.bind_some, if_neg (not_lt.mpr hstop), htake, hfold]
  rfl

/-- The flags of a bag: a checksum, no index, and the width of an index. -/
theorem flags_eq {sizeBytes : Nat} (h : sizeBytes ≤ 4) :
    ((0x40 ||| UInt8.ofNat sizeBytes) &&& 7).toNat = sizeBytes ∧ (0x40 ||| UInt8.ofNat sizeBytes) &&& 0x80 = 0 ∧
      (0x40 ||| UInt8.ofNat sizeBytes) &&& 0x40 ≠ 0 := by
  have hall : ∀ n < 5, ((0x40 ||| UInt8.ofNat n) &&& 7).toNat = n ∧ (0x40 ||| UInt8.ofNat n) &&& 0x80 = 0 ∧
      (0x40 ||| UInt8.ofNat n) &&& 0x40 ≠ 0 := by
    decide +kernel
  exact hall sizeBytes (Nat.lt_succ_of_le h)

theorem and_seven (x : UInt8) : (x &&& 7).toNat = x.toNat % 8 := by
  rw [UInt8.toNat_and]
  exact Nat.and_two_pow_sub_one_eq_mod x.toNat 3

theorem and_sixteen {x : UInt8} (h : x.toNat / 16 % 2 = 0) : x &&& 0x10 = 0 := by
  rw [← UInt8.toNat_inj, UInt8.toNat_and]
  refine (Nat.and_two_pow x.toNat 4).trans ?_
  rw [Nat.testBit_eq_decide_div_mod_eq, h]
  rfl

/-- The reader finds the counts of a cell in its descriptors. -/
theorem descriptor1_eq (cell : TonCell) {refCount : Nat} (h : refCount ≤ 4) :
    (descriptor1 cell refCount &&& 7).toNat = refCount ∧ descriptor1 cell refCount &&& 0x10 = 0 := by
  -- The third bit says exotic, the fourth that hashes are stored.
  have hvalue : ∃ k, (descriptor1 cell refCount).toNat = (refCount + 8 * k + cell.levelMask * 32) % 256 ∧ k < 2 := by
    by_cases hordinary : cell.cellType = .ordinary
    · refine ⟨0, ?_, by omega⟩
      simp only [descriptor1, if_pos hordinary, UInt8.toNat_add, UInt8.toNat_mul, UInt8.toNat_ofNat', UInt8.toNat_ofNat]
      omega
    · refine ⟨1, ?_, by omega⟩
      simp only [descriptor1, if_neg hordinary, UInt8.toNat_add, UInt8.toNat_mul, UInt8.toNat_ofNat', UInt8.toNat_ofNat]
      omega
  obtain ⟨k, hk, hlt⟩ := hvalue
  rw [and_seven, hk]
  refine ⟨by omega, and_sixteen ?_⟩
  rw [hk]
  omega

theorem descriptor2_eq {bits : Nat} (h : bits ≤ maxCellBits) :
    (descriptor2 bits / 2 + descriptor2 bits % 2).toNat = (bits + 7) / 8 := by
  rw [maxCellBits] at h
  have hbyte : (descriptor2 bits).toNat = bits / 8 + (bits + 7) / 8 := by
    rw [descriptor2, UInt8.toNat_ofNat']
    omega
  have htwo : (2 : UInt8).toNat = 2 := rfl
  rw [UInt8.toNat_add, UInt8.toNat_div, UInt8.toNat_mod, hbyte, htwo]
  omega

@[simp] theorem orNone_some {α : Type} (a : α) : orNone (.some a) = .ok a := rfl

section Read

variable {bytes : List UInt8} {sizeBytes count : Nat}

/-- References to later cells are read back. -/
theorem readRefs_spec (hsize : 0 < sizeBytes) (hcount : count < 256 ^ sizeBytes) (hmax : count ≤ usizeMax)
    (hlen : bytes.length ≤ usizeMax) (index : Nat) : ∀ (js : List Nat) {cursor : Nat},
    Bits.At bytes cursor (js.flatMap (Bits.bytesOf sizeBytes)) → (∀ j ∈ js, index < j ∧ j < count) →
    readRefs bytes sizeBytes count index js.length cursor = .ok (js, cursor + js.length * sizeBytes)
  | [], cursor, _, _ => by simp [readRefs]
  | j :: js, cursor, h, hjs => by
    rw [List.flatMap_cons] at h
    obtain ⟨hindex, hj⟩ := hjs j List.mem_cons_self
    have hread := readBocUint_spec h.left hsize (hj.trans hcount) (by omega) hlen
    have hrest := h.right
    rw [Bits.length_bytesOf] at hrest
    have ih := readRefs_spec hsize hcount hmax hlen index js hrest fun k hk => hjs k (List.mem_cons_of_mem _ hk)
    have hguard : (decide (j ≤ index) || decide (j ≥ count)) = false := by
      simp
      omega
    simp only [List.length_cons, readRefs, hread, orNone_some, Exec.ok_bind, hguard, Bool.false_eq_true, if_false, ih]
    rw [Exec.pure_eq_ok]
    congr 2
    ring

/-- A record is read back: its references, and the cursor after it. -/
theorem readCell_spec (hsize : 0 < sizeBytes) (hcount : count < 256 ^ sizeBytes) (hmax : count ≤ usizeMax)
    (hlen : bytes.length ≤ usizeMax) {index cursor : Nat} {cell : TonCell} {js : List Nat}
    (h : Bits.At bytes cursor (record sizeBytes cell js)) (hbits : cell.bits.length ≤ maxCellBits)
    (hrefs : js.length ≤ maxCellRefs) (hjs : ∀ j ∈ js, index < j ∧ j < count) :
    readCell bytes sizeBytes count index cursor = .ok (js, cursor + (record sizeBytes cell js).length) := by
  have h1 : bytes[cursor]? = .some (descriptor1 cell js.length) := h.getElem? (k := 0) rfl
  have h2 : bytes[cursor + 1]? = .some (descriptor2 cell.dataLenBits) := h.getElem? (k := 1) rfl
  obtain ⟨hcountRefs, hstored⟩ := descriptor1_eq cell hrefs
  have hdata : Bits.At bytes (cursor + 2 + (cell.bits.length + 7) / 8) (js.flatMap (Bits.bytesOf sizeBytes)) := by
    have hsplit : record sizeBytes cell js = ([descriptor1 cell js.length, descriptor2 cell.dataLenBits] ++
        cellData cell.bits) ++ js.flatMap (Bits.bytesOf sizeBytes) := by simp [record]
    rw [hsplit] at h
    have hright := h.right
    rw [List.length_append, length_cellData] at hright
    convert hright using 1
    simp
    ring
  have hprefix := h.length_le
  rw [length_record, List.length_drop] at hprefix
  have hread := readRefs_spec hsize hcount hmax hlen index js hdata hjs
  have hhashes : skipHashes (descriptor1 cell js.length) (cursor + 2) = .ok (cursor + 2) := if_pos hstored
  rw [TonCell.dataLenBits] at h2 hprefix
  rw [readCell, h1, orNone_some, Exec.ok_bind, checkedAdd_of_le (by omega), Exec.get_some, Exec.ok_bind, h2,
    orNone_some, Exec.ok_bind, checkedAdd_of_le (by omega), Exec.get_some, Exec.ok_bind, hhashes, Exec.ok_bind,
    descriptor2_eq hbits, checkedAdd_of_le (by omega), orNone_some, Exec.ok_bind, hcountRefs, hread, length_record,
    TonCell.dataLenBits]
  congr 2
  ring

end Read

/-! ## A bag is read back -/

theorem length_flatten_bounds {low high : Nat} : ∀ {l : List (List UInt8)},
    (∀ r ∈ l, low ≤ r.length ∧ r.length ≤ high) →
    low * l.length ≤ l.flatten.length ∧ l.flatten.length ≤ high * l.length
  | [], _ => by simp
  | r :: l, h => by
    have hr := h r List.mem_cons_self
    have ih := length_flatten_bounds fun r' hr' => h r' (List.mem_cons_of_mem _ hr')
    simp only [List.flatten_cons, List.length_append, List.length_cons, Nat.mul_succ]
    omega

section Bag

variable {root : TonCell} {order : List TonCell} {places : List (List Nat)}

/-- A bag that `serialize_boc` can be asked for: cells that are cells, and not too many. -/
structure Writable (root : TonCell) (order : List TonCell) (places : List (List Nat)) : Prop
    extends Bag root order places where
  fits : ∀ cell ∈ order, Contents.Fits (cell.bits, cell.refs)
  few : order.length < 2 ^ 32

/-- The records of a bag. -/
def recordsOf (order : List TonCell) (places : List (List Nat)) : List (List UInt8) :=
  List.zipWith (record (Bits.byteWidth order.length)) order places

theorem Bag.record_get (h : Bag root order places) {i : Nat} (hi : i < order.length) :
    ∃ cell js, order[i]? = .some cell ∧ places[i]? = .some js ∧
      (recordsOf order places)[i]? = .some (record (Bits.byteWidth order.length) cell js) ∧
      js.length = cell.refs.length ∧ ∀ j ∈ js, i < j ∧ j < order.length := by
  have hcell : order[i]? = .some order[i] := List.getElem?_eq_getElem hi
  have hlt : i < places.length := by
    rw [h.length]
    exact hi
  have hplace : places[i]? = .some places[i] := List.getElem?_eq_getElem hlt
  have hrefs := h.refs i _ _ hcell hplace
  refine ⟨_, _, hcell, hplace, ?_, hrefs.length_eq.symm, fun j hj => ?_⟩
  · rw [recordsOf, List.getElem?_zipWith, hcell, hplace]
  · obtain ⟨child, -, hlt, hget⟩ := Related.exists_left hrefs hj
    exact ⟨hlt, (List.getElem?_eq_some_iff.mp hget).1⟩

theorem Bag.length_recordsOf (h : Bag root order places) : (recordsOf order places).length = order.length := by
  rw [recordsOf, List.length_zipWith, h.length, min_self]

theorem Bag.length_pos (h : Bag root order places) : 0 < order.length := (List.getElem?_eq_some_iff.mp h.first).1

theorem Writable.sizeBytes_le (h : Writable root order places) : Bits.byteWidth order.length ≤ 4 :=
  Bits.byteWidth_le_iff.mpr ⟨h.few, by omega⟩

/-- The data is two bytes for each cell at least, and not much more. -/
theorem Writable.data_bounds (h : Writable root order places) :
    2 * order.length ≤ (bagData order places).length ∧ (bagData order places).length ≤ 146 * order.length := by
  have hall : ∀ r ∈ recordsOf order places, 2 ≤ r.length ∧ r.length ≤ 146 := by
    intro r hr
    obtain ⟨i, hi⟩ := List.mem_iff_getElem?.mp hr
    have hlt : i < order.length := h.length_recordsOf ▸ (List.getElem?_eq_some_iff.mp hi).1
    obtain ⟨cell, js, hcell, -, hrecord, hlen, -⟩ := h.record_get hlt
    obtain rfl := Option.some.inj (hi.symm.trans hrecord)
    obtain ⟨hbits, hrefs⟩ := h.fits cell (List.mem_of_getElem? hcell)
    have hmul := Nat.mul_le_mul (hlen.le.trans hrefs) h.sizeBytes_le
    simp only [maxCellBits, maxCellRefs] at hbits hmul
    rw [length_record, TonCell.dataLenBits]
    omega
  have hbounds := length_flatten_bounds hall
  rw [h.length_recordsOf] at hbounds
  exact hbounds

theorem Writable.offsetBytes_le (h : Writable root order places) :
    Bits.byteWidth (bagData order places).length ≤ 5 := by
  have := h.data_bounds
  have := h.few
  exact Bits.byteWidth_le_iff.mpr ⟨by omega, by omega⟩

theorem length_bagBytes (crc32c : List UInt8 → UInt32) : (bagBytes crc32c order places).length =
    10 + 4 * Bits.byteWidth order.length + Bits.byteWidth (bagData order places).length +
      (bagData order places).length := by
  simp only [bagBytes, bagBody, bocHeader, leBytes, List.length_append, List.length_cons, List.length_nil,
    List.length_reverse, Bits.length_bytesOf]
  ring

theorem Writable.length_le (h : Writable root order places) (crc32c : List UInt8 → UInt32) :
    (bagBytes crc32c order places).length ≤ 2 ^ 40 := by
  have h1 := h.data_bounds
  have h2 := h.few
  have h3 := h.sizeBytes_le
  have h4 := h.offsetBytes_le
  rw [length_bagBytes]
  omega

/-- The records are read back in order. -/
theorem Writable.readCells (h : Writable root order places) {bytes : List UInt8} (hlen : bytes.length ≤ usizeMax) :
    ∀ (count index : Nat) {cursor : Nat}, index + count = order.length →
    Bits.At bytes cursor ((recordsOf order places).drop index).flatten →
    readCells bytes (Bits.byteWidth order.length) order.length count index cursor =
      .ok (places.drop index, cursor + ((recordsOf order places).drop index).flatten.length)
  | 0, index, cursor, hsum, _ => by
    have h1 : (recordsOf order places).drop index = [] :=
      List.drop_eq_nil_of_le (by rw [h.length_recordsOf]; omega)
    have h2 : places.drop index = [] := List.drop_eq_nil_of_le (by rw [h.length]; omega)
    rw [h1, h2]
    rfl
  | count + 1, index, cursor, hsum, hat => by
    obtain ⟨cell, js, hcell, hplace, hrecord, hrefs, hjs⟩ := h.record_get (show index < order.length by omega)
    obtain ⟨hlt, hget⟩ := List.getElem?_eq_some_iff.mp hrecord
    obtain ⟨hlt', hget'⟩ := List.getElem?_eq_some_iff.mp hplace
    rw [List.drop_eq_getElem_cons hlt, hget, List.flatten_cons] at hat ⊢
    rw [List.drop_eq_getElem_cons hlt', hget']
    obtain ⟨hbits, hfew⟩ := h.fits cell (List.mem_of_getElem? hcell)
    have hmax : order.length ≤ usizeMax := by
      have := h.few
      simp only [usizeMax]
      omega
    have hread := readCell_spec (Bits.byteWidth_pos _) (Bits.lt_pow_byteWidth _) hmax hlen hat.left hbits
      (hrefs.le.trans hfew) hjs
    have ih := Writable.readCells h hlen count (index + 1) (by omega) hat.right
    simp only [Ton.readCells, hread, Exec.ok_bind, ih, List.length_append]
    rw [Exec.pure_eq_ok, Nat.add_assoc]

/-- What a reader finds before the cells: their number, one root, none absent,
the size of the data, and the root's index. -/
structure Declares (bytes : List UInt8) (sizeBytes offsetBytes count dataSize : Nat) : Prop where
  magic : bytes.take 4 = [0xb5, 0xee, 0x9c, 0x72]
  flags : bytes[4]? = .some (0x40 ||| UInt8.ofNat sizeBytes)
  offset : bytes[5]? = .some (UInt8.ofNat offsetBytes)
  cells : readBocUint bytes 6 sizeBytes = .some (count, 6 + sizeBytes)
  roots : readBocUint bytes (6 + sizeBytes) sizeBytes = .some (1, 6 + sizeBytes + sizeBytes)
  absent : readBocUint bytes (6 + sizeBytes + sizeBytes) sizeBytes =
    .some (0, 6 + sizeBytes + sizeBytes + sizeBytes)
  data : readBocUint bytes (6 + sizeBytes + sizeBytes + sizeBytes) offsetBytes =
    .some (dataSize, 6 + sizeBytes + sizeBytes + sizeBytes + offsetBytes)
  root : readBocUint bytes (6 + sizeBytes + sizeBytes + sizeBytes + offsetBytes) sizeBytes =
    .some (0, 6 + sizeBytes + sizeBytes + sizeBytes + offsetBytes + sizeBytes)

theorem Writable.declares (h : Writable root order places) (crc32c : List UInt8 → UInt32) :
    Declares (bagBytes crc32c order places) (Bits.byteWidth order.length)
      (Bits.byteWidth (bagData order places).length) order.length (bagData order places).length ∧
    Bits.At (bagBytes crc32c order places) (6 + Bits.byteWidth order.length + Bits.byteWidth order.length +
      Bits.byteWidth order.length + Bits.byteWidth (bagData order places).length + Bits.byteWidth order.length)
      (bagData order places) := by
  have hlen : (bagBytes crc32c order places).length ≤ usizeMax :=
    (h.length_le crc32c).trans (by decide)
  have hcount := h.few
  have hdata := h.data_bounds
  have hs := Bits.byteWidth_pos order.length
  have ho := Bits.byteWidth_pos (bagData order places).length
  have hcountLt := Bits.lt_pow_byteWidth order.length
  have hdataLt := Bits.lt_pow_byteWidth (bagData order places).length
  have hone : 1 < 256 ^ Bits.byteWidth order.length := Nat.one_lt_pow hs.ne' (by omega)
  have hcountMax : order.length ≤ usizeMax := by
    simp only [usizeMax]
    omega
  have hdataMax : (bagData order places).length ≤ usizeMax := by
    simp only [usizeMax]
    omega
  have hsplit : bagBytes crc32c order places = [0xb5, 0xee, 0x9c, 0x72,
      0x40 ||| UInt8.ofNat (Bits.byteWidth order.length), UInt8.ofNat (Bits.byteWidth (bagData order places).length)] ++
      (Bits.bytesOf (Bits.byteWidth order.length) order.length ++ (Bits.bytesOf (Bits.byteWidth order.length) 1 ++
      (Bits.bytesOf (Bits.byteWidth order.length) 0 ++
      (Bits.bytesOf (Bits.byteWidth (bagData order places).length) (bagData order places).length ++
      (Bits.bytesOf (Bits.byteWidth order.length) 0 ++ (bagData order places ++
        leBytes (crc32c (bagBody order places)))))))) := by
    simp only [bagBytes, bagBody, bocHeader, List.append_assoc]
  generalize bagBytes crc32c order places = bytes at hlen hsplit
  generalize Bits.byteWidth order.length = s at hs hcountLt hone hsplit ⊢
  generalize Bits.byteWidth (bagData order places).length = o at ho hdataLt hsplit ⊢
  -- Each number starts where the one before it ends.
  have h6 : Bits.At bytes 6 (Bits.bytesOf s order.length ++ (Bits.bytesOf s 1 ++ (Bits.bytesOf s 0 ++
      (Bits.bytesOf o (bagData order places).length ++ (Bits.bytesOf s 0 ++ (bagData order places ++
        leBytes (crc32c (bagBody order places)))))))) := by
    rw [hsplit]
    exact Bits.at_end _ _
  have h7 := h6.right
  rw [Bits.length_bytesOf] at h7
  have h8 := h7.right
  rw [Bits.length_bytesOf] at h8
  have h9 := h8.right
  rw [Bits.length_bytesOf] at h9
  have h10 := h9.right
  rw [Bits.length_bytesOf] at h10
  have h11 := h10.right
  rw [Bits.length_bytesOf] at h11
  refine ⟨⟨by rw [hsplit]; rfl, by rw [hsplit]; rfl, by rw [hsplit]; rfl, ?_, ?_, ?_, ?_, ?_⟩, h11.left⟩
  · exact readBocUint_spec h6.left hs hcountLt hcountMax hlen
  · exact readBocUint_spec h7.left hs hone (by decide) hlen
  · exact readBocUint_spec h8.left hs (by omega) (Nat.zero_le _) hlen
  · exact readBocUint_spec h9.left ho hdataLt hdataMax hlen
  · exact readBocUint_spec h10.left hs (by omega) (Nat.zero_le _) hlen

theorem indexSize_bag {sizeBytes : Nat} (h : sizeBytes ≤ 4) (cells offsetBytes : Nat) :
    indexSize (0x40 ||| UInt8.ofNat sizeBytes) cells offsetBytes = .some 0 :=
  if_neg (not_not.mpr (flags_eq h).2.1)

theorem toNat_ofNat_of_le {n : Nat} (h : n ≤ 8) : (UInt8.ofNat n).toNat = n := by
  rw [UInt8.toNat_ofNat']
  omega

/-- **The header of a bag is accepted**, if it has no more cells than the reader takes. -/
theorem Writable.checkHeader (h : Writable root order places) (crc32c : List UInt8 → UInt32) {maxCells : Nat}
    (hmax : order.length ≤ maxCells) : checkHeader (bagBytes crc32c order places) maxCells = .ok () := by
  obtain ⟨hd, -⟩ := h.declares crc32c
  have hlength : (bagBytes crc32c order places).length = _ := length_bagBytes crc32c
  have hsmall := h.length_le crc32c
  have hbounds := h.data_bounds
  have hpos := h.length_pos
  have hs := h.sizeBytes_le
  have hs0 := Bits.byteWidth_pos order.length
  have ho := h.offsetBytes_le
  have ho0 := Bits.byteWidth_pos (bagData order places).length
  generalize bagBytes crc32c order places = bytes at hd hlength hsmall ⊢
  generalize Bits.byteWidth order.length = s at hd hlength hs hs0
  generalize Bits.byteWidth (bagData order places).length = o at hd hlength ho ho0
  obtain ⟨hsize, -, hcrc⟩ := flags_eq hs
  have hadd : ∀ a b, a + b ≤ bytes.length → checkedAdd a b = .some (a + b) := by
    intro a b hab
    refine checkedAdd_of_le (hab.trans (hsmall.trans ?_))
    decide
  have hguard1 : (decide (bytes.length < 10) || decide (bytes.take 4 ≠ [0xb5, 0xee, 0x9c, 0x72])) = false := by
    simp [hd.magic]
    omega
  have hguard2 : (decide (s = 0) || decide (s > 4) || decide (o = 0) || decide (o > 8)) = false := by
    simp
    omega
  have hguard3 : (decide (order.length = 0) || decide (order.length > maxCells) ||
      decide (order.length > (bagData order places).length / 2) || decide (1 = 0) ||
      (checkedAdd 1 0).all (fun n => decide (n > order.length))) = false := by
    rw [checkedAdd_of_le (by decide)]
    simp only [Bool.or_eq_false_iff, decide_eq_false_iff_not, Option.all_some]
    omega
  have hroots : rootsInRange bytes s order.length 1 (6 + s + s + s + o) = .some (6 + s + s + s + o + s) := by
    simp only [rootsInRange, hd.root, Option.bind_eq_bind, Option.bind_some]
    rw [if_neg (by omega)]
  rw [Ton.checkHeader]
  simp only [hguard1, Bool.false_eq_true, if_false, hd.flags, hd.offset, Exec.get_some, Exec.ok_bind, hsize,
    toNat_ofNat_of_le (ho.trans (by omega)), hguard2, hd.cells, hd.roots, hd.absent, hd.data, orNone_some, hguard3,
    hroots, indexSize_bag hs]
  rw [hadd _ _ (by omega), orNone_some, Exec.ok_bind, hadd _ _ (by omega), orNone_some, Exec.ok_bind, if_pos hcrc,
    hadd _ _ (by omega), orNone_some, Exec.ok_bind, if_neg (by omega)]
  rfl

/-- The reader finds the references that were written. -/
theorem Writable.bocRefs (h : Writable root order places) (crc32c : List UInt8 → UInt32) :
    bocRefs (bagBytes crc32c order places) = .ok places := by
  obtain ⟨hd, hat⟩ := h.declares crc32c
  have hlength : (bagBytes crc32c order places).length = _ := length_bagBytes crc32c
  have hsmall := h.length_le crc32c
  have hpos := h.length_pos
  have hs := h.sizeBytes_le
  have ho := h.offsetBytes_le
  have hmax : (bagBytes crc32c order places).length ≤ usizeMax := hsmall.trans (by decide)
  have hcells := h.readCells hmax order.length 0 (Nat.zero_add _) hat
  rw [List.drop_zero, List.drop_zero] at hcells
  have hflat : (recordsOf order places).flatten.length = (bagData order places).length := rfl
  rw [hflat] at hcells
  generalize bagBytes crc32c order places = bytes at hd hlength hsmall hcells ⊢
  generalize Bits.byteWidth order.length = s at hd hlength hs hcells
  generalize Bits.byteWidth (bagData order places).length = o at hd hlength ho hcells
  obtain ⟨hsize, -, -⟩ := flags_eq hs
  have hadd : ∀ a b, a + b ≤ bytes.length → checkedAdd a b = .some (a + b) := by
    intro a b hab
    refine checkedAdd_of_le (hab.trans (hsmall.trans ?_))
    decide
  rw [Ton.bocRefs]
  simp only [hd.flags, hd.offset, orNone_some, Exec.ok_bind, hsize, toNat_ofNat_of_le (ho.trans (by omega)), hd.cells,
    hd.roots, hd.absent, hd.data, ne_eq, not_true_eq_false, if_false, hd.root, indexSize_bag hs]
  rw [if_neg (by omega), hadd _ _ (by omega), orNone_some, Exec.ok_bind, Nat.add_zero, hadd _ _ (by omega), orNone_some,
    Exec.ok_bind, if_neg (by omega), hcells, Exec.ok_bind, if_neg (by simp)]
  rfl

/-! ## Depth -/

/-- Every reference is to a later cell, so the depth of a cell is less than the
number of cells from it on. -/
theorem Bag.depth_add_lt (h : Bag root order places) : ∀ (k i : Nat) (cell : TonCell), order.length ≤ i + k →
    order[i]? = .some cell → cell.depth + i < order.length
  | 0, i, cell, hk, hi => by
    have := (List.getElem?_eq_some_iff.mp hi).1
    omega
  | k + 1, i, cell, hk, hi => by
    have hlt := (List.getElem?_eq_some_iff.mp hi).1
    obtain ⟨same, js, hcell, hplace, -, -, -⟩ := h.record_get hlt
    obtain rfl := Option.some.inj (hi.symm.trans hcell)
    have hrefs := h.refs i _ _ hi hplace
    have hbound : refsDepth cell.refs ≤ order.length - i - 1 := by
      refine refsDepth_le fun child hchild => ?_
      obtain ⟨j, -, hj, hget⟩ := Related.exists_right hrefs hchild
      have := Bag.depth_add_lt h k j child (by omega) hget
      omega
    rw [depth_eq]
    omega

/-- One cell's depth, from those of its references. -/
theorem foldlM_deepen {index : Nat} : ∀ {children : List TonCell} {js : List Nat} {depths : List Nat} {depth : Nat},
    List.Forall₂ (fun child j => j ≠ index ∧ depths[j]? = .some child.depth ∧ child.depth + 1 ≤ usizeMax) children js →
    depths[index]? = .some depth →
    js.foldlM (deepen index) depths = .ok (depths.set index (max depth (refsDepth children)))
  | [], [], depths, depth, .nil, hdepth => by
    obtain ⟨hlt, rfl⟩ := List.getElem?_eq_some_iff.mp hdepth
    simp [refsDepth]
  | child :: children, j :: js, depths, depth, .cons ⟨hne, hj, hmax⟩ hrest, hdepth => by
    have hlt := (List.getElem?_eq_some_iff.mp hdepth).1
    have hstep : deepen index depths j = .ok (depths.set index (max depth (child.depth + 1))) := by
      simp only [deepen, hdepth, hj, Exec.get_some, Exec.ok_bind, checkedAdd_of_le hmax, orNone_some]
      rfl
    rw [List.foldlM_cons, hstep, Exec.ok_bind]
    have hkept : List.Forall₂ (fun c k => k ≠ index ∧
        (depths.set index (max depth (child.depth + 1)))[k]? = .some c.depth ∧ c.depth + 1 ≤ usizeMax)
        children js := by
      refine hrest.imp fun c k hk => ⟨hk.1, ?_, hk.2.2⟩
      rw [List.getElem?_set_ne (Ne.symm hk.1)]
      exact hk.2.1
    rw [foldlM_deepen hkept (List.getElem?_set_self hlt), List.set_set, refsDepth, max_assoc]

/-- The depths of the cells from `index` on are known, and the others are zero. -/
structure Deepened (order : List TonCell) (index : Nat) (depths : List Nat) : Prop where
  length : depths.length = order.length
  known : ∀ (i : Nat) (cell : TonCell), order[i]? = .some cell →
    depths[i]? = .some (if index ≤ i then cell.depth else 0)

theorem Writable.bocDepths (h : Writable root order places) : ∀ (index : Nat) {depths : List Nat},
    index ≤ order.length → Deepened order index depths →
    (bocDepths places index depths).Gives (Deepened order 0)
  | 0, depths, _, hd => Exec.gives_ok hd
  | index + 1, depths, hle, hd => by
    obtain ⟨cell, js, hcell, hplace, -, -, -⟩ := h.record_get hle
    have hrefs := h.refs index cell js hcell hplace
    have hfew := h.few
    have hchildren : List.Forall₂ (fun child j => j ≠ index ∧ depths[j]? = .some child.depth ∧
        child.depth + 1 ≤ usizeMax) cell.refs js := by
      refine hrefs.imp fun child j hj => ⟨by omega, ?_, ?_⟩
      · rw [hd.known j child hj.2, if_pos (Nat.succ_le_of_lt hj.1)]
      · have := h.depth_add_lt order.length j child (by omega) hj.2
        simp only [usizeMax]
        omega
    have hzero : depths[index]? = .some 0 := by
      rw [hd.known index cell hcell, if_neg (by omega)]
    have hlt := (List.getElem?_eq_some_iff.mp hzero).1
    have hstep := foldlM_deepen hchildren hzero
    rw [Nat.zero_max, ← depth_eq] at hstep
    simp only [Ton.bocDepths, hplace, Exec.get_some, Exec.ok_bind, hstep]
    refine Writable.bocDepths h index (by omega) ⟨by simpa using hd.length, fun i other hi => ?_⟩
    by_cases hsame : i = index
    · subst hsame
      obtain rfl := Option.some.inj (hcell.symm.trans hi)
      rw [List.getElem?_set_self hlt, if_pos le_rfl]
    · rw [List.getElem?_set_ne (Ne.symm hsame), hd.known i other hi]
      congr 1
      by_cases hi' : index ≤ i
      · rw [if_pos hi', if_pos (by omega)]
      · rw [if_neg hi', if_neg (by omega)]

/-- **The greatest depth in a bag is its root's**. -/
theorem Writable.bocMaxDepth (h : Writable root order places) (crc32c : List UInt8 → UInt32) :
    bocMaxDepth (bagBytes crc32c order places) = .ok root.depth := by
  have hstart : Deepened order order.length (List.replicate places.length 0) := by
    refine ⟨by simp [h.length], fun i cell hi => ?_⟩
    have hlt := (List.getElem?_eq_some_iff.mp hi).1
    rw [if_neg (by omega), List.getElem?_replicate, if_pos (by rw [h.length]; exact hlt)]
  obtain ⟨depths, hok, hd⟩ := h.bocDepths order.length le_rfl hstart
  have hknown : ∀ (i : Nat) (cell : TonCell), order[i]? = .some cell → depths[i]? = .some cell.depth := by
    intro i cell hi
    rw [hd.known i cell hi, if_pos (Nat.zero_le i)]
  have hmax : depths.max? = .some root.depth := by
    rw [List.max?_eq_some_iff]
    refine ⟨List.mem_of_getElem? (hknown 0 root h.first), fun depth hdepth => ?_⟩
    obtain ⟨i, hi⟩ := List.mem_iff_getElem?.mp hdepth
    have hlt : i < order.length := hd.length ▸ (List.getElem?_eq_some_iff.mp hi).1
    have hcell : order[i]? = .some order[i] := List.getElem?_eq_getElem hlt
    obtain rfl := Option.some.inj (hi.symm.trans (hknown i _ hcell))
    exact ((h.mem _).mp (List.mem_of_getElem? hcell)).depth_le
  rw [h.length.symm] at hok
  simp only [Ton.bocMaxDepth, h.bocRefs crc32c, Exec.ok_bind, hok, hmax, orNone_some]

end Bag

/-! ## Serialization -/

section Main

variable {H : Type} [DecidableEq H]

/-- How many cells there are under the root. -/
noncomputable def distinctCells (root : TonCell) : Nat := {cell | Under root cell}.ncard

theorem Bag.length_eq {root : TonCell} {order : List TonCell} {places : List (List Nat)} (h : Bag root order places) :
    order.length = distinctCells root := by
  classical
  have hset : {cell | Under root cell} = (order.toFinset : Set TonCell) := by
    ext cell
    simp [h.mem]
  rw [distinctCells, hset, Set.ncard_coe_finset, List.toFinset_card_of_nodup h.nodup]

/-- **`serialize_boc` makes a well formed bag**: a header and a record for each
cell under the root, once, the root first and every reference to the later
place of its cell. The header declares the counts and sizes that follow it,
the check on headers accepts it, and the depth read from it is the root's. -/
theorem serializeBoc_well_formed (hT : T.Lawful written ahead) (hash : TonCell → Except String H)
    (crc32c : List UInt8 → UInt32) (root : TonCell) (hhash : Hashes hash root)
    (hfits : ∀ cell, Under root cell → Contents.Fits (cell.bits, cell.refs)) (hfew : distinctCells root < 2 ^ 32) :
    ∃ bytes order places, serializeBoc T hash crc32c root = .ok bytes ∧ Bag root order places ∧
      order.length = distinctCells root ∧ bytes = bagBytes crc32c order places ∧
      Declares bytes (Bits.byteWidth order.length) (Bits.byteWidth (bagData order places).length) order.length
        (bagData order places).length ∧
      (∀ maxCells, distinctCells root ≤ maxCells → bocHeaderIsSafe bytes maxCells = .ok true) ∧
      bocMaxDepth bytes = .ok root.depth := by
  obtain ⟨bytes, hok, order, places, hbag, rfl⟩ := serializeBoc_gives hT hhash crc32c
  have hw : Writable root order places :=
    { toBag := hbag
      fits := fun cell hcell => hfits cell ((hbag.mem cell).mp hcell)
      few := hbag.length_eq ▸ hfew }
  refine ⟨_, order, places, hok, hbag, hbag.length_eq, rfl, (hw.declares crc32c).1, fun maxCells hmax => ?_,
    hw.bocMaxDepth crc32c⟩
  rw [bocHeaderIsSafe, hw.checkHeader crc32c (hbag.length_eq ▸ hmax)]

/-- A cell with a reference twice, at different depths. -/
def sharedLeaf : TonCell := .mk .ordinary 0 [] []
def sharedMiddle : TonCell := .mk .ordinary 0 [false] [sharedLeaf]
def sharedRoot : TonCell := .mk .ordinary 0 [true] [sharedLeaf, sharedMiddle]

theorem under_sharedRoot {cell : TonCell} (h : Under sharedRoot cell) :
    cell = sharedRoot ∨ cell = sharedMiddle ∨ cell = sharedLeaf := by
  induction h with
  | refl => exact .inl rfl
  | tail _ hmem ih =>
    rcases ih with rfl | rfl | rfl
    · have := List.mem_cons.mp hmem
      simp only [List.mem_singleton] at this
      tauto
    · exact .inr (.inr (List.mem_singleton.mp hmem))
    · cases hmem

theorem distinctCells_sharedRoot : distinctCells sharedRoot ≤ 3 := by
  have hsub : {cell | Under sharedRoot cell} ⊆ {sharedRoot, sharedMiddle, sharedLeaf} :=
    fun cell hcell => under_sharedRoot hcell
  refine (Set.ncard_le_ncard hsub (Set.toFinite _)).trans ?_
  refine (Set.ncard_insert_le _ _).trans (Nat.succ_le_succ ?_)
  exact (Set.ncard_insert_le _ _).trans (Nat.succ_le_succ (Set.ncard_singleton _).le)

theorem serializeBoc_sharedRoot : ∃ bytes,
    serializeBoc .plain (fun cell => .ok cell.bits) (fun _ => 0) sharedRoot = .ok bytes ∧
      bocHeaderIsSafe bytes 3 = .ok true ∧ bocMaxDepth bytes = .ok 2 := by
  have hhash : Hashes (fun cell => (.ok cell.bits : Except String (List Bool))) sharedRoot := by
    refine ⟨fun cell _ => ⟨_, rfl⟩, fun cell cell' bits h h' he he' => ?_⟩
    rw [← Except.ok.inj he'] at he
    rcases under_sharedRoot h with rfl | rfl | rfl <;> rcases under_sharedRoot h' with rfl | rfl | rfl <;>
      first | rfl | cases he
  have hfits : ∀ cell, Under sharedRoot cell → Contents.Fits (cell.bits, cell.refs) := by
    intro cell h
    rcases under_sharedRoot h with rfl | rfl | rfl <;>
      simp [Contents.Fits, sharedRoot, sharedMiddle, sharedLeaf, TonCell.bits, TonCell.refs, maxCellBits, maxCellRefs]
  have hfew : distinctCells sharedRoot < 2 ^ 32 := distinctCells_sharedRoot.trans_lt (by decide)
  obtain ⟨bytes, -, -, hok, -, -, -, -, hsafe, hdepth⟩ :=
    serializeBoc_well_formed TonCore.plain_lawful _ (fun _ => 0) sharedRoot hhash hfits hfew
  exact ⟨bytes, hok, hsafe 3 distinctCells_sharedRoot, hdepth⟩

end Main

end Pillar.Ton
