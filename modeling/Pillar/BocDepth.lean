/-
What `boc_max_depth` lets through (`pillar-layerzero`,
`other_non_evm/ton/cell.rs`).

The bytes come from outside. What it accepts is one root and records that fill
the data, each with references to later records only, so that one pass from the
last record to the first finds the longest chain.
-/
import Pillar.BocFacts
import Pillar.HexCells
import Pillar.LongestChain

namespace Pillar.Ton

/-! ## The code -/

mutual

/-- `cell_type() != CellType::Ordinary || level_mask().mask() != 0`, of some
cell under this one; a cell met again is not searched again, which changes
nothing. -/
def TonCell.anyExotic : TonCell → Bool
  | .mk cellType levelMask _ refs => decide (cellType ≠ .ordinary) || levelMask ≠ 0 || refsExotic refs

def refsExotic : List TonCell → Bool
  | [] => false
  | cell :: refs => cell.anyExotic || refsExotic refs

end

/-- A call that ends in a value or in nothing, within another. -/
def optional {ε α : Type} : Exec Unit α → Exec ε (Option α)
  | .ok a => .ok (.some a)
  | .error (.err ()) => .ok .none
  | .error .panic => .error .panic
  | .error .fuel => .error .fuel

/-- `catch_unwind`. -/
def catchUnwind : Exec AppCoreError TonCell → Exec AppCoreError TonCell
  | .error .panic => mapErr (.error "BOC parser panicked")
  | result => result

/-- `parse` is the parser of the `ton_core` crate: `BoC::from_bytes`, then
`single_root`, then the root's `hash` and `depth`. It may panic. -/
def bocFromBytesWithLimits (parse : List UInt8 → Exec AppCoreError TonCell) (bytes : List UInt8) (maxCells : Nat)
    (rejectExotic : Bool) : Exec AppCoreError TonCell := do
  if (← optional (bocHeaderIsSafe bytes maxCells)) ≠ .some true then mapErr (.error "invalid BOC header")
  if (← optional (bocMaxDepth bytes)).all (· > maxCellDepth) then
    mapErr (.error "TON cell depth exceeds protocol limit")
  catchUnwind do
    let root ← parse bytes
    if rejectExotic && root.anyExotic then mapErr (.error "exotic TON cells are not supported")
    return root

/-! ## What a bag says -/

/-- The bytes a cell stores besides its data. -/
def storedHashes (d1 : UInt8) : Nat := if d1 &&& 0x10 = 0 then 0 else (countOnes (d1 >>> 5) + 1) * (32 + 2)

/-- The record of a cell with these references: two descriptors, what is stored
of its hashes, its data in whole bytes, and the references. -/
inductive CellRecord (sizeBytes : Nat) : List UInt8 → List Nat → Prop where
  | mk (d1 d2 : UInt8) (hashes data : List UInt8) (refs : List Nat) : hashes.length = storedHashes d1 →
    data.length = d2.toNat / 2 + d2.toNat % 2 → refs.length = (d1 &&& 7).toNat →
    CellRecord sizeBytes (d1 :: d2 :: (hashes ++ data ++ refs.flatMap (Bits.bytesOf sizeBytes))) refs

/-- What stands between the magic number and the cells. -/
structure BagHead where
  flags : UInt8
  offsetBytes : UInt8
  cells : Nat
  roots : Nat
  absent : Nat
  dataSize : Nat
  root : Nat

namespace BagHead

def sizeBytes (head : BagHead) : Nat := (head.flags &&& 7).toNat

def bytes (head : BagHead) : List UInt8 :=
  [head.flags, head.offsetBytes] ++ Bits.bytesOf head.sizeBytes head.cells ++ Bits.bytesOf head.sizeBytes head.roots ++
    Bits.bytesOf head.sizeBytes head.absent ++ Bits.bytesOf head.offsetBytes.toNat head.dataSize ++
    Bits.bytesOf head.sizeBytes head.root

def indexSize (head : BagHead) : Nat := if head.flags &&& 0x80 ≠ 0 then head.cells * head.offsetBytes.toNat else 0

def dataStart (head : BagHead) : Nat := 4 + head.bytes.length + head.indexSize

/-- Each number fits the bytes it has. -/
structure Fits (head : BagHead) : Prop where
  cells : head.cells < 256 ^ head.sizeBytes
  roots : head.roots < 256 ^ head.sizeBytes
  absent : head.absent < 256 ^ head.sizeBytes
  dataSize : head.dataSize < 256 ^ head.offsetBytes.toNat
  root : head.root < 256 ^ head.sizeBytes

end BagHead

/-- The bag is `head`, an index perhaps, and one record for each declared cell,
which fill the data; there is one root, and each reference is to a later cell. -/
structure DeclaresCells (bag : List UInt8) (head : BagHead) (refsByCell : List (List Nat)) : Prop where
  headAt : Bits.At bag 4 head.bytes
  fits : head.Fits
  oneRoot : head.roots = 1
  root : head.root < head.cells
  count : refsByCell.length = head.cells
  data : ∃ records, List.Forall₂ (CellRecord head.sizeBytes) records refsByCell ∧
    records.flatten.length = head.dataSize ∧ Bits.At bag head.dataStart records.flatten
  forward : ∀ i < head.cells, ∀ r ∈ childrenOf refsByCell i, i < r ∧ r < head.cells

/-- Record `i` refers to record `r`. -/
def RefersTo (refsByCell : List (List Nat)) (i r : Nat) : Prop := r ∈ childrenOf refsByCell i

/-- No chain of references in the bag is longer than `limit`. -/
def ChainsWithin (limit : Nat) (bag : List UInt8) : Prop :=
  ∃ head refsByCell, DeclaresCells bag head refsByCell ∧
    ∀ i < head.cells, ∀ n ∈ chainLengths (RefersTo refsByCell) i, n ≤ limit

/-! ## Numbers -/

theorem returns_orNone {α : Type} (o : Option α) : (orNone o).Returns := by
  cases o with
  | some a => exact Exec.returns_ok a
  | none => exact Exec.returns_err ()

theorem orNone_eq_ok {α : Type} {o : Option α} {a : α} : orNone o = .ok a ↔ o = .some a := by
  cases o <;> simp [orNone, Exec.err]

theorem foldlM_ofBytes_eq {l : List UInt8} {value : Nat}
    (h : l.foldlM (fun n byte => do checkedAdd (← checkedMul n 256) byte.toNat) 0 = .some value) :
    value = Bits.ofBytes l := by
  induction l using List.reverseRecOn generalizing value with
  | nil => exact (Option.some.inj h).symm
  | append_singleton l byte ih =>
    rw [List.foldlM_append] at h
    obtain ⟨n, hn, h⟩ := Option.bind_eq_some_iff.mp h
    obtain rfl := ih hn
    rw [List.foldlM_cons] at h
    obtain ⟨total, htotal, h⟩ := Option.bind_eq_some_iff.mp h
    obtain ⟨product, hproduct, htotal⟩ := Option.bind_eq_some_iff.mp htotal
    obtain rfl := Option.some.inj h
    rw [Bits.ofBytes_concat, checkedAdd_eq_some htotal, checkedMul_eq_some hproduct, Nat.mul_comm]

/-- A number that is read is the bytes at the cursor. -/
theorem readBocUint_ok {bytes : List UInt8} {cursor width value stop : Nat}
    (h : readBocUint bytes cursor width = .some (value, stop)) : stop = cursor + width ∧ stop ≤ bytes.length ∧
      value < 256 ^ width ∧ Bits.At bytes cursor (Bits.bytesOf width value) := by
  obtain ⟨stop', hstop, h⟩ := Option.bind_eq_some_iff.mp h
  obtain rfl := checkedAdd_eq_some hstop
  split at h
  · cases h
  next hle =>
    obtain ⟨value', hvalue, h⟩ := Option.bind_eq_some_iff.mp h
    obtain ⟨rfl, rfl⟩ := Prod.mk.inj (Option.some.inj h)
    obtain rfl := foldlM_ofBytes_eq hvalue
    have hlen : ((bytes.drop cursor).take width).length = width := by
      rw [List.length_take, List.length_drop]
      omega
    have hbytes := Bits.bytesOf_ofBytes ((bytes.drop cursor).take width)
    have hlt := Bits.ofBytes_lt ((bytes.drop cursor).take width)
    rw [hlen] at hbytes hlt
    refine ⟨rfl, not_lt.mp hle, hlt, ?_⟩
    rw [hbytes]
    exact List.take_prefix _ _

theorem orNone_readBocUint_ok {bytes : List UInt8} {cursor width : Nat} {result : Nat × Nat}
    (h : orNone (readBocUint bytes cursor width) = .ok result) : result.2 = cursor + width ∧
      result.2 ≤ bytes.length ∧ result.1 < 256 ^ width ∧ Bits.At bytes cursor (Bits.bytesOf width result.1) :=
  readBocUint_ok (orNone_eq_ok.mp h)

/-! ## Records -/

section Records

variable {bytes : List UInt8} {sizeBytes cells : Nat}

theorem readRefs_yields (index : Nat) : ∀ (count cursor : Nat),
    (readRefs bytes sizeBytes cells index count cursor).Yields fun (refs, stop) =>
      refs.length = count ∧ stop = cursor + count * sizeBytes ∧ (∀ r ∈ refs, index < r ∧ r < cells) ∧
        Bits.At bytes cursor (refs.flatMap (Bits.bytesOf sizeBytes))
  | 0, cursor => by
    refine Exec.yields_ok ⟨rfl, by rw [Nat.zero_mul, Nat.add_zero], fun r hr => ?_, List.nil_prefix⟩
    exact absurd hr List.not_mem_nil
  | count + 1, cursor => by
    refine (returns_orNone _).yields_bind fun (reference, next) hread => ?_
    obtain ⟨rfl, -, -, hat⟩ := orNone_readBocUint_ok hread
    dsimp only
    split
    · exact Exec.yields_err () _
    next hguard =>
      refine (readRefs_yields index count _).bind fun (refs, stop) ⟨hlen, hstop, hrefs, hrest⟩ => ?_
      refine Exec.yields_ok ⟨by rw [List.length_cons, hlen], ?_, ?_, ?_⟩
      · rw [hstop, Nat.succ_mul]
        omega
      · refine List.forall_mem_cons.mpr ⟨?_, hrefs⟩
        simp only [Bool.or_eq_true, decide_eq_true_eq] at hguard
        omega
      · rw [List.flatMap_cons]
        refine hat.concat ?_
        rwa [Bits.length_bytesOf]

/-- The cursor after the hashes; at most nine are stored, so counting them
does not overflow. -/
theorem skipHashes_yields (d1 : UInt8) (cursor : Nat) :
    (skipHashes d1 cursor).Yields fun stop => stop = cursor + storedHashes d1 := by
  unfold skipHashes storedHashes
  split
  · exact Exec.yields_ok (Nat.add_zero cursor).symm
  · have hones : countOnes (d1 >>> 5) ≤ 8 := by
      have hle := List.count_le_length (a := true) (l := Bits.ofNat 8 (d1 >>> 5).toNat)
      rwa [Bits.length_ofNat] at hle
    rw [checkedAdd_of_le (by simp only [usizeMax]; omega), Exec.get_some, Exec.ok_bind,
      checkedMul_of_le (by simp only [usizeMax]; omega), Exec.get_some, Exec.ok_bind]
    exact ⟨returns_orNone _, fun stop hstop => checkedAdd_eq_some (orNone_eq_ok.mp hstop)⟩

theorem dataBytes_eq (d2 : UInt8) : (d2 / 2 + d2 % 2).toNat = d2.toNat / 2 + d2.toNat % 2 := by
  have hlt := d2.toNat_lt
  rw [UInt8.toNat_add, UInt8.toNat_div, UInt8.toNat_mod]
  exact Nat.mod_eq_of_lt (by simp; omega)

/-- Some part of the bytes, cut out where it stands. -/
theorem exists_at (bytes : List UInt8) (start count : Nat) (h : start + count ≤ bytes.length) :
    ∃ part : List UInt8, part.length = count ∧ Bits.At bytes start part := by
  refine ⟨(bytes.drop start).take count, ?_, List.take_prefix _ _⟩
  rw [List.length_take, List.length_drop]
  omega

theorem at_pair {cursor : Nat} {d1 d2 : UInt8} (h1 : bytes[cursor]? = .some d1) (h2 : bytes[cursor + 1]? = .some d2) :
    Bits.At bytes cursor [d1, d2] := by
  obtain ⟨hlt1, rfl⟩ := List.getElem?_eq_some_iff.mp h1
  obtain ⟨hlt2, rfl⟩ := List.getElem?_eq_some_iff.mp h2
  rw [Bits.At, List.drop_eq_getElem_cons hlt1, List.drop_eq_getElem_cons hlt2]
  exact ⟨_, rfl⟩

/-- A turn of the loop reads one record, if it ends in the bytes. -/
theorem readCell_yields (hlen : bytes.length ≤ usizeMax) (index cursor : Nat) :
    (readCell bytes sizeBytes cells index cursor).Yields fun (refs, stop) =>
      cursor ≤ stop ∧ (∀ r ∈ refs, index < r ∧ r < cells) ∧ (stop ≤ bytes.length →
        ∃ record, CellRecord sizeBytes record refs ∧ stop = cursor + record.length ∧ Bits.At bytes cursor record) := by
  refine (returns_orNone _).yields_bind fun d1 h1 => ?_
  have h1 := orNone_eq_ok.mp h1
  have hlt1 := (List.getElem?_eq_some_iff.mp h1).1
  rw [checkedAdd_of_le (by omega), Exec.get_some, Exec.ok_bind]
  refine (returns_orNone _).yields_bind fun d2 h2 => ?_
  have h2 := orNone_eq_ok.mp h2
  have hlt2 := (List.getElem?_eq_some_iff.mp h2).1
  rw [checkedAdd_of_le (by omega), Exec.get_some, Exec.ok_bind]
  refine (skipHashes_yields d1 (cursor + 2)).bind fun afterHashes hhashes => ?_
  refine (returns_orNone _).yields_bind fun afterData hdata => ?_
  have hdata := checkedAdd_eq_some (orNone_eq_ok.mp hdata)
  rw [dataBytes_eq] at hdata
  refine (readRefs_yields index _ afterData).mono fun (refs, stop) ⟨hcount, hstop, hforward, hrefs⟩ => ?_
  have hbytes : (refs.flatMap (Bits.bytesOf sizeBytes)).length = (d1 &&& 7).toNat * sizeBytes := by
    rw [length_flatMap_bytesOf, hcount]
  dsimp only at hstop ⊢
  refine ⟨by omega, hforward, fun hend => ?_⟩
  obtain ⟨hashes, hhashesLen, hhashesAt⟩ := exists_at bytes (cursor + 2) (storedHashes d1) (by omega)
  obtain ⟨data, hdataLen, hdataAt⟩ := exists_at bytes afterHashes (d2.toNat / 2 + d2.toNat % 2) (by omega)
  refine ⟨_, .mk d1 d2 hashes data refs hhashesLen hdataLen hcount, ?_, ?_⟩
  · simp only [List.length_cons, List.length_append, hhashesLen, hdataLen, hbytes]
    omega
  · rw [hhashes] at hdataAt hdata
    rw [hdata] at hrefs
    have hbody : Bits.At bytes (cursor + 2) (hashes ++ data ++ refs.flatMap (Bits.bytesOf sizeBytes)) := by
      refine (hhashesAt.concat (by rwa [hhashesLen])).concat ?_
      rwa [List.length_append, hhashesLen, hdataLen, ← Nat.add_assoc]
    exact (at_pair h1 h2).concat hbody

/-- The loop reads the records one after another. -/
theorem readCells_yields (hlen : bytes.length ≤ usizeMax) : ∀ (count index cursor : Nat),
    (readCells bytes sizeBytes cells count index cursor).Yields fun (refsByCell, stop) =>
      cursor ≤ stop ∧ refsByCell.length = count ∧
        (∀ i < count, ∀ r ∈ childrenOf refsByCell i, index + i < r ∧ r < cells) ∧ (stop ≤ bytes.length →
          ∃ records, List.Forall₂ (CellRecord sizeBytes) records refsByCell ∧
            stop = cursor + records.flatten.length ∧ Bits.At bytes cursor records.flatten)
  | 0, index, cursor => by
    refine Exec.yields_ok ⟨le_rfl, rfl, fun i hi => absurd hi (Nat.not_lt_zero i), fun _ => ⟨[], .nil, rfl, ?_⟩⟩
    exact List.nil_prefix
  | count + 1, index, cursor => by
    refine (readCell_yields hlen index cursor).bind fun (refs, next) ⟨hle, hforward, hrecord⟩ => ?_
    refine (readCells_yields hlen count (index + 1) next).bind
      fun (refsByCell, stop) ⟨hle', hcount, hforward', hrecords⟩ => ?_
    refine Exec.yields_ok ⟨hle.trans hle', by rw [List.length_cons, hcount], fun i hi => ?_, fun hend => ?_⟩
    · cases i with
      | zero => exact hforward
      | succ i =>
        have hrest := hforward' i (by omega)
        rwa [Nat.succ_add_eq_add_succ] at hrest
    · obtain ⟨record, hmk, hnext, hat⟩ := hrecord (hle'.trans hend)
      obtain ⟨records, hall, hstop, hats⟩ := hrecords hend
      refine ⟨record :: records, .cons hmk hall, ?_, ?_⟩
      · rw [List.flatten_cons, List.length_append]
        omega
      · rw [List.flatten_cons]
        exact hat.concat (hnext ▸ hats)

end Records

theorem indexSize_eq (head : BagHead) {size : Nat}
    (h : indexSize head.flags head.cells head.offsetBytes.toNat = .some size) : size = head.indexSize := by
  unfold indexSize at h
  unfold BagHead.indexSize
  split at h
  next hflag => rw [if_pos hflag, checkedMul_eq_some h]
  next hflag =>
    rw [if_neg hflag]
    exact (Option.some.inj h).symm

/-- The bytes of a head, from where its numbers stand. -/
theorem BagHead.at_bytes (head : BagHead) {bag : List UInt8} {s o : Nat} (hs : head.sizeBytes = s)
    (ho : head.offsetBytes.toNat = o) (hfirst : Bits.At bag 4 [head.flags, head.offsetBytes])
    (hcells : Bits.At bag 6 (Bits.bytesOf s head.cells)) (hroots : Bits.At bag (6 + s) (Bits.bytesOf s head.roots))
    (habsent : Bits.At bag (6 + s + s) (Bits.bytesOf s head.absent))
    (hsize : Bits.At bag (6 + s + s + s) (Bits.bytesOf o head.dataSize))
    (hroot : Bits.At bag (6 + s + s + s + o) (Bits.bytesOf s head.root)) :
    Bits.At bag 4 head.bytes ∧ 4 + head.bytes.length = 6 + s + s + s + o + s := by
  subst hs ho
  have hcells := hfirst.concat hcells
  have hroots := hcells.concat (by
    rw [List.length_append, Bits.length_bytesOf]
    convert hroots using 1
    simp only [List.length_cons, List.length_nil]
    omega)
  have habsent := hroots.concat (by
    simp only [List.length_append, Bits.length_bytesOf]
    convert habsent using 1
    simp only [List.length_cons, List.length_nil]
    omega)
  have hsize := habsent.concat (by
    simp only [List.length_append, Bits.length_bytesOf]
    convert hsize using 1
    simp only [List.length_cons, List.length_nil]
    omega)
  have hroot := hsize.concat (by
    simp only [List.length_append, Bits.length_bytesOf]
    convert hroot using 1
    simp only [List.length_cons, List.length_nil]
    omega)
  refine ⟨hroot, ?_⟩
  simp only [BagHead.bytes, List.length_append, Bits.length_bytesOf, List.length_cons, List.length_nil]
  omega

/-- The references of a bag that is accepted. -/
theorem bocRefs_yields {bag : List UInt8} (hlen : bag.length ≤ usizeMax) :
    (bocRefs bag).Yields fun refsByCell => ∃ head, DeclaresCells bag head refsByCell := by
  refine (returns_orNone _).yields_bind fun flags hflags => ?_
  refine (returns_orNone _).yields_bind fun offsetBytes hoffset => ?_
  refine (returns_orNone _).yields_bind fun (cells, afterCells) hcells => ?_
  refine (returns_orNone _).yields_bind fun (roots, afterRoots) hroots => ?_
  refine (returns_orNone _).yields_bind fun (absent, afterAbsent) habsent => ?_
  refine (returns_orNone _).yields_bind fun (dataSize, afterSize) hsize => ?_
  have hfirst := at_pair (orNone_eq_ok.mp hflags) (orNone_eq_ok.mp hoffset)
  obtain ⟨rfl, -, hcellsLt, hcellsAt⟩ := orNone_readBocUint_ok hcells
  obtain ⟨rfl, -, hrootsLt, hrootsAt⟩ := orNone_readBocUint_ok hroots
  obtain ⟨rfl, -, habsentLt, habsentAt⟩ := orNone_readBocUint_ok habsent
  obtain ⟨rfl, -, hsizeLt, hsizeAt⟩ := orNone_readBocUint_ok hsize
  dsimp only
  split
  · exact Exec.yields_err () _
  next hone =>
    refine (returns_orNone _).yields_bind fun (root, afterRoot) hroot => ?_
    obtain ⟨rfl, -, hrootLt, hrootAt⟩ := orNone_readBocUint_ok hroot
    dsimp only
    split
    · exact Exec.yields_err () _
    next hroot =>
      refine (returns_orNone _).yields_bind fun size hindex => ?_
      refine (returns_orNone _).yields_bind fun start hstart => ?_
      refine (returns_orNone _).yields_bind fun dataEnd hend => ?_
      obtain rfl := checkedAdd_eq_some (orNone_eq_ok.mp hstart)
      obtain rfl := checkedAdd_eq_some (orNone_eq_ok.mp hend)
      split
      · exact Exec.yields_err () _
      next hfits =>
        refine (readCells_yields hlen cells 0 _).bind fun (refsByCell, stop) ⟨hle, hcount, hforward, hrecords⟩ => ?_
        dsimp only
        split
        · exact Exec.yields_err () _
        next hstop =>
          obtain ⟨records, hall, hflat, hat⟩ := hrecords (by omega)
          have hindex := indexSize_eq ⟨flags, offsetBytes, cells, roots, absent, dataSize, root⟩
            (orNone_eq_ok.mp hindex)
          obtain ⟨hhead, hlength⟩ := BagHead.at_bytes ⟨flags, offsetBytes, cells, roots, absent, dataSize, root⟩ rfl rfl
            hfirst hcellsAt hrootsAt habsentAt hsizeAt hrootAt
          have hdataStart : (⟨flags, offsetBytes, cells, roots, absent, dataSize, root⟩ : BagHead).dataStart =
              6 + (flags &&& 7).toNat + (flags &&& 7).toNat + (flags &&& 7).toNat + offsetBytes.toNat +
                (flags &&& 7).toNat + size := congrArg₂ (· + ·) hlength hindex.symm
          refine Exec.yields_ok ⟨_, hhead, ⟨hcellsLt, hrootsLt, habsentLt, hsizeLt, hrootLt⟩, not_not.mp hone,
            not_le.mp hroot, hcount, ⟨records, hall, by dsimp only; omega, hdataStart ▸ hat⟩, fun i hi r hr => ?_⟩
          have hlater := hforward i hi r hr
          rwa [Nat.zero_add] at hlater

/-! ## Depths -/

section Depths

variable {refsByCell : List (List Nat)}

/-- `depths[i]`, or zero past the end. -/
def depthAt (depths : List Nat) (i : Nat) : Nat := depths.getD i 0

/-- The depth of record `i` is what the references make it. -/
structure SettledAt (refsByCell : List (List Nat)) (depths : List Nat) (i : Nat) : Prop where
  falls : ∀ r ∈ childrenOf refsByCell i, depthAt depths r < depthAt depths i
  reached : depthAt depths i = 0 ∨ ∃ r ∈ childrenOf refsByCell i, depthAt depths i = depthAt depths r + 1

/-- The records from `index` on have their depths, and the others have none yet. -/
structure Settled (refsByCell : List (List Nat)) (index : Nat) (depths : List Nat) : Prop where
  length : depths.length = refsByCell.length
  unset : ∀ i < index, depthAt depths i = 0
  settled : ∀ i, index ≤ i → SettledAt refsByCell depths i

theorem depthAt_set_ne {depths : List Nat} {i j depth : Nat} (h : i ≠ j) :
    depthAt (depths.set i depth) j = depthAt depths j := by
  rw [depthAt, depthAt, List.getD_eq_getElem?_getD, List.getD_eq_getElem?_getD, List.getElem?_set_ne h]

theorem depthAt_set_self {depths : List Nat} {i : Nat} (depth : Nat) (h : i < depths.length) :
    depthAt (depths.set i depth) i = depth := by
  rw [depthAt, List.getD_eq_getElem?_getD, List.getElem?_set_self h, Option.getD_some]

theorem get_depthAt {depths : List Nat} {i : Nat} (h : i < depths.length) : depths[i]? = .some (depthAt depths i) := by
  rw [depthAt, List.getD_eq_getElem?_getD, List.getElem?_eq_getElem h, Option.getD_some]

/-- One record's depth, from those of later records. -/
theorem deepenAll_yields {depths refs : List Nat} {index : Nat} (hindex : index < depths.length)
    (hzero : depthAt depths index = 0) (hrefs : ∀ r ∈ refs, index < r ∧ r < depths.length) :
    (refs.foldlM (deepen index) depths).Yields fun depths' => ∃ depth, depths' = depths.set index depth ∧
      (∀ r ∈ refs, depthAt depths r < depth) ∧ (depth = 0 ∨ ∃ r ∈ refs, depth = depthAt depths r + 1) := by
  have hstart : depths = depths.set index 0 := by
    refine List.ext_getElem? fun j => ?_
    by_cases hj : index = j
    · subst hj
      rw [List.getElem?_set_self hindex, get_depthAt hindex, hzero]
    · rw [List.getElem?_set_ne hj]
  refine Exec.yields_foldlM (P := fun done depths' => ∃ depth, depths' = depths.set index depth ∧
    (∀ r ∈ done, depthAt depths r < depth) ∧ (depth = 0 ∨ ∃ r ∈ done, depth = depthAt depths r + 1))
    refs [] depths ?_ ⟨0, hstart, fun r hr => absurd hr List.not_mem_nil, .inl rfl⟩
  rintro done r hr _ ⟨depth, rfl, hfalls, hreached⟩
  obtain ⟨hlater, hlt⟩ := hrefs r hr
  rw [deepen, List.getElem?_set_self hindex, Exec.get_some, Exec.ok_bind, List.getElem?_set_ne (Nat.ne_of_lt hlater),
    get_depthAt hlt, Exec.get_some, Exec.ok_bind]
  refine (returns_orNone _).yields_bind fun below hbelow => ?_
  obtain rfl := checkedAdd_eq_some (orNone_eq_ok.mp hbelow)
  refine Exec.yields_ok ⟨max depth (depthAt depths r + 1), List.set_set .., fun r' hr' => ?_, ?_⟩
  · obtain hr' | hr' := List.mem_append.mp hr'
    · exact (hfalls r' hr').trans_le (le_max_left _ _)
    · rw [List.mem_singleton.mp hr']
      exact Nat.lt_of_lt_of_le (Nat.lt_succ_self _) (le_max_right _ _)
  · obtain hle | hle := Nat.le_total depth (depthAt depths r + 1)
    · rw [max_eq_right hle]
      exact .inr ⟨r, List.mem_append_right _ List.mem_cons_self, rfl⟩
    · rw [max_eq_left hle]
      obtain hzero | ⟨r', hr', h⟩ := hreached
      · exact .inl hzero
      · exact .inr ⟨r', List.mem_append_left _ hr', h⟩

theorem lt_of_mem_childrenOf (hforward : ∀ i < refsByCell.length, ∀ r ∈ childrenOf refsByCell i,
    i < r ∧ r < refsByCell.length) {i r : Nat} (h : r ∈ childrenOf refsByCell i) : i < r := by
  by_cases hi : i < refsByCell.length
  · exact (hforward i hi r h).1
  · rw [childrenOf, List.getD_eq_default _ _ (not_lt.mp hi)] at h
    exact absurd h List.not_mem_nil

/-- The pass from the last record to the first: references lead to records
that are settled, and settling one changes no other. -/
theorem bocDepths_yields (hforward : ∀ i < refsByCell.length, ∀ r ∈ childrenOf refsByCell i,
    i < r ∧ r < refsByCell.length) : ∀ (index : Nat) {depths : List Nat}, index ≤ refsByCell.length →
    Settled refsByCell index depths → (bocDepths refsByCell index depths).Yields (Settled refsByCell 0)
  | 0, depths, _, h => Exec.yields_ok h
  | index + 1, depths, hle, h => by
    have hlt : index < depths.length := h.length ▸ hle
    have hrefs : ∀ r ∈ childrenOf refsByCell index, index < r ∧ r < depths.length := h.length ▸ hforward index hle
    rw [bocDepths, refs_get hle, Exec.get_some, Exec.ok_bind]
    refine (deepenAll_yields hlt (h.unset index (Nat.lt_succ_self index)) hrefs).bind ?_
    rintro _ ⟨depth, rfl, hfalls, hreached⟩
    have hself := depthAt_set_self depth hlt
    have hother : ∀ {j}, index < j → depthAt (depths.set index depth) j = depthAt depths j :=
      fun hj => depthAt_set_ne (Nat.ne_of_lt hj)
    refine bocDepths_yields hforward index (Nat.le_of_succ_le hle) ⟨?_, fun i hi => ?_, fun i hi => ?_⟩
    · rw [List.length_set, h.length]
    · rw [depthAt_set_ne (Nat.ne_of_gt hi)]
      exact h.unset i (Nat.lt_succ_of_lt hi)
    · have hlater : ∀ r ∈ childrenOf refsByCell i, index < r := fun r hr =>
        hi.trans_lt (lt_of_mem_childrenOf hforward hr)
      obtain hi | rfl := Nat.lt_or_eq_of_le hi
      · obtain ⟨hfalls, hreached⟩ := h.settled i hi
        refine ⟨fun r hr => ?_, ?_⟩
        · rw [hother hi, hother (hlater r hr)]
          exact hfalls r hr
        · obtain hzero | ⟨r, hr, hr'⟩ := hreached
          · exact .inl (by rw [hother hi, hzero])
          · exact .inr ⟨r, hr, by rw [hother hi, hother (hlater r hr), hr']⟩
      · refine ⟨fun r hr => ?_, ?_⟩
        · rw [hself, hother (hlater r hr)]
          exact hfalls r hr
        · obtain hzero | ⟨r, hr, hr'⟩ := hreached
          · exact .inl (by rw [hself, hzero])
          · exact .inr ⟨r, hr, by rw [hself, hother (hlater r hr), hr']⟩

theorem Settled.isHeight {depths : List Nat} (h : Settled refsByCell 0 depths) :
    IsHeight (RefersTo refsByCell) (depthAt depths) :=
  ⟨fun i => (h.settled i (Nat.zero_le i)).falls, fun i => (h.settled i (Nat.zero_le i)).reached⟩

/-- The greatest depth is the length of the longest chain. -/
theorem Settled.isGreatest {depths : List Nat} {d : Nat} (h : Settled refsByCell 0 depths)
    (hd : depths.max? = .some d) :
    IsGreatest {n | ∃ i < refsByCell.length, n ∈ chainLengths (RefersTo refsByCell) i} d := by
  obtain ⟨hmem, hmax⟩ := List.max?_eq_some_iff.mp hd
  refine h.isHeight.isGreatest_of_max (s := {i | i < refsByCell.length}) ⟨?_, ?_⟩
  · obtain ⟨i, hi⟩ := List.mem_iff_getElem?.mp hmem
    have hlt := (List.getElem?_eq_some_iff.mp hi).1
    rw [get_depthAt hlt] at hi
    exact ⟨i, h.length ▸ hlt, Option.some.inj hi⟩
  · rintro _ ⟨i, hi, rfl⟩
    exact hmax _ (List.mem_of_getElem? (get_depthAt (h.length.symm ▸ hi)))

end Depths

theorem bocMaxDepth_yields {bag : List UInt8} (hlen : bag.length ≤ usizeMax) : (bocMaxDepth bag).Yields fun d =>
    ∃ head refsByCell, DeclaresCells bag head refsByCell ∧
      IsGreatest {n | ∃ i < head.cells, n ∈ chainLengths (RefersTo refsByCell) i} d := by
  refine (bocRefs_yields hlen).bind fun refsByCell ⟨head, hdeclares⟩ => ?_
  have hforward := hdeclares.forward
  rw [← hdeclares.count] at hforward
  have hstart : Settled refsByCell refsByCell.length (List.replicate refsByCell.length 0) := by
    have hzero : ∀ i, depthAt (List.replicate refsByCell.length 0) i = 0 := fun i => by
      rw [depthAt, List.getD_eq_getElem?_getD, List.getElem?_replicate]
      split <;> rfl
    refine ⟨List.length_replicate, fun i _ => hzero i, fun i hi => ⟨fun r hr => ?_, .inl (hzero i)⟩⟩
    rw [childrenOf, List.getD_eq_default _ _ hi] at hr
    exact absurd hr List.not_mem_nil
  refine (bocDepths_yields hforward refsByCell.length le_rfl hstart).bind fun depths hsettled => ?_
  refine ⟨returns_orNone _, fun d hd => ⟨head, refsByCell, hdeclares, ?_⟩⟩
  rw [← hdeclares.count]
  exact hsettled.isGreatest (orNone_eq_ok.mp hd)

/-! ## The checks before the parser -/

/-- The two bytes indexed are there, so the header is refused or let through. -/
theorem checkHeader_returns (bytes : List UInt8) (maxCells : Nat) : (checkHeader bytes maxCells).Returns := by
  unfold checkHeader
  split
  · exact Exec.returns_err ()
  next hmagic =>
    have hlen : 10 ≤ bytes.length := by
      simp only [Bool.or_eq_true, decide_eq_true_eq] at hmagic
      omega
    rw [List.getElem?_eq_getElem (by omega), Exec.get_some, Exec.ok_bind, List.getElem?_eq_getElem (by omega),
      Exec.get_some, Exec.ok_bind]
    dsimp only
    split
    · exact Exec.returns_err ()
    refine (returns_orNone _).bind fun (cells, _) _ => (returns_orNone _).bind fun (roots, _) _ => ?_
    refine (returns_orNone _).bind fun (absent, _) _ => (returns_orNone _).bind fun (dataSize, _) _ => ?_
    dsimp only
    split
    · exact Exec.returns_err ()
    refine (returns_orNone _).bind fun _ _ => (returns_orNone _).bind fun _ _ => ?_
    refine (returns_orNone _).bind fun _ _ => (returns_orNone _).bind fun _ _ => (returns_orNone _).bind fun _ _ => ?_
    split
    · exact Exec.returns_err ()
    · exact Exec.returns_ok ()

/-- A call that returns is told by what it returns. -/
theorem optional_gives {ε α : Type} {x : Exec Unit α} (h : x.Returns) : ∃ o, (optional x : Exec ε (Option α)) = .ok o ∧
    ∀ a, o = .some a → x = .ok a := by
  match x, h with
  | .ok a, _ => exact ⟨.some a, rfl, fun _ h => congrArg _ (Option.some.inj h)⟩
  | .error (.err ()), _ => exact ⟨.none, rfl, fun _ h => (by cases h)⟩
  | .error .panic, h => exact absurd rfl h.1
  | .error .fuel, h => exact absurd rfl h.2

theorem bocHeaderIsSafe_returns (bytes : List UInt8) (maxCells : Nat) : (bocHeaderIsSafe bytes maxCells).Returns := by
  have hcheck := checkHeader_returns bytes maxCells
  unfold bocHeaderIsSafe
  split
  · exact Exec.returns_ok true
  · exact Exec.returns_ok false
  next halt _ heq =>
    rw [heq] at hcheck
    exact ⟨fun h => hcheck.1 (by cases h; rfl), fun h => hcheck.2 (by cases h; rfl)⟩

/-- **What `boc_max_depth` accepts has its depth.** No bytes make it panic. The
depth is returned of a bag with one root whose records fill the data and refer
to later records, and is the length of the longest chain of references, from
any record. So a bag that is not one, or has a chain longer than
`MAX_CELL_DEPTH`, is refused before the parser has it. -/
theorem bocMaxDepth_longest (bag : List UInt8) (hlen : bag.length ≤ usizeMax) :
    (bocMaxDepth bag).Returns ∧
    (∀ d, bocMaxDepth bag = .ok d → ∃ head refsByCell, DeclaresCells bag head refsByCell ∧
      IsGreatest {n | ∃ i < head.cells, n ∈ chainLengths (RefersTo refsByCell) i} d) ∧
    ∀ maxCells rejectExotic, ¬ ChainsWithin maxCellDepth bag →
      ∃ e, ∀ parse, bocFromBytesWithLimits parse bag maxCells rejectExotic = Exec.err e := by
  have hdepth := bocMaxDepth_yields hlen
  refine ⟨hdepth.1, hdepth.2, fun maxCells rejectExotic hlong => ?_⟩
  obtain ⟨safe, hsafe, -⟩ := optional_gives (ε := AppCoreError) (bocHeaderIsSafe_returns bag maxCells)
  obtain ⟨depth, hok, hvalue⟩ := optional_gives (ε := AppCoreError) hdepth.1
  by_cases hheader : safe ≠ .some true
  · refine ⟨.internal ("TON cell error: " ++ "invalid BOC header"), fun parse => ?_⟩
    rw [bocFromBytesWithLimits, hsafe, Exec.ok_bind, if_pos hheader]
    rfl
  · have hdeep : depth.all (· > maxCellDepth) = true := by
      cases depth with
      | none => rfl
      | some d =>
        obtain ⟨head, refsByCell, hdeclares, hgreatest⟩ := hdepth.2 d (hvalue d rfl)
        refine decide_eq_true (not_le.mp fun hle => hlong ⟨head, refsByCell, hdeclares, fun i hi n hn => ?_⟩)
        exact (hgreatest.2 ⟨i, hi, hn⟩).trans hle
    refine ⟨.internal ("TON cell error: " ++ "TON cell depth exceeds protocol limit"), fun parse => ?_⟩
    rw [bocFromBytesWithLimits, hsafe, Exec.ok_bind, if_neg hheader, hok, Exec.ok_bind, if_pos hdeep]
    rfl

/-- A root and the leaf it refers to. -/
def twoCellBag : List UInt8 := [0xb5, 0xee, 0x9c, 0x72, 1, 1, 2, 1, 0, 5, 0, 1, 0, 1, 0, 0]

theorem bocMaxDepth_longest_twoCells : bocMaxDepth twoCellBag = .ok 1 ∧
    ∃ head refsByCell, DeclaresCells twoCellBag head refsByCell ∧
      IsGreatest {n | ∃ i < head.cells, n ∈ chainLengths (RefersTo refsByCell) i} 1 := by
  have hdepth : bocMaxDepth twoCellBag = .ok 1 := by decide +kernel
  exact ⟨hdepth, (bocMaxDepth_longest twoCellBag (by decide)).2.1 1 hdepth⟩

end Pillar.Ton
