/-
What a provider says of a contract's storage (`pillar-runtime`,
`validation_payload_ton.rs`): the cells a bag declares are counted before the
bag is read.
-/
import Pillar.BocDepth
import Pillar.Base64
import Pillar.Json

namespace Pillar.Ton.Storage

/-- `MAX_ACCOUNT_STATE_CELLS`. -/
def maxAccountStateCells : Nat := 2 ^ 16

def saturatingMul (a b : Nat) : Nat := min (a * b) usizeMax

/-- The closure `read_uint`, with the cursor it moves. -/
def readUint (bytes : List UInt8) (cursor width : Nat) : Option (Nat × Nat) := do
  let stop ← checkedAdd cursor width
  if stop > bytes.length then .none
  let value ← ((bytes.drop cursor).take width).foldlM
    (fun value byte => do checkedAdd (← checkedMul value 256) byte.toNat) 0
  return (value, stop)

/-- `ton_boc_cell_count_fits` of the decoded bytes; `Err` where it returns `false` early. -/
def declaredCountFits (bytes : List UInt8) : Exec Unit Bool := do
  if bytes.length < 6 then return true
  if (← Exec.slice bytes 0 4) ≠ [0xb5, 0xee, 0x9c, 0x72] then return true
  let sizeBytes := ((← Exec.get bytes[4]?) &&& 7).toNat
  let offsetBytes := (← Exec.get bytes[5]?).toNat
  if sizeBytes = 0 || sizeBytes > 4 || offsetBytes = 0 || offsetBytes > 8 then return false
  let (cells, cursor) ← orNone (readUint bytes 6 sizeBytes)
  let (roots, cursor) ← orNone (readUint bytes cursor sizeBytes)
  let (_, cursor) ← orNone (readUint bytes cursor sizeBytes)
  let (totalSize, cursor) ← orNone (readUint bytes cursor offsetBytes)
  let rootBytes ← orNone (checkedMul roots sizeBytes)
  let dataStart ← orNone (checkedAdd cursor rootBytes)
  let dataEnd ← orNone (checkedAdd dataStart totalSize)
  return cells ≤ maxAccountStateCells && totalSize ≥ saturatingMul cells 2 && dataEnd ≤ bytes.length

variable (base64 : Base64.Engine)

/-- `ton_boc_cell_count_fits`. -/
def tonBocCellCountFits (encoded : String) : Exec Unit Bool :=
  match base64.decode encoded with
  | .error _ => .ok false
  | .ok bytes =>
    match declaredCountFits bytes with
    | .error (.err ()) => .ok false
    | result => result

/-- `boc_from_base64_with_limits`. -/
def bocFromBase64WithLimits (parse : List UInt8 → Exec AppCoreError TonCell) (data : String) (maxCells : Nat)
    (rejectExotic : Bool) : Exec AppCoreError TonCell := do
  let bytes ← mapErr (base64.decode data)
  bocFromBytesWithLimits parse bytes maxCells rejectExotic

/-- `TonStorageRead`. -/
inductive TonStorageRead where
  | cell (data : String) (cell : TonCell)
  | inactive
  | unavailable

/-- The storage of a contract whose state is active, or not told. -/
def activeData (result : Json) : Option String :=
  let state := (result.get "state").bind Json.asStr
  if state = .some "active" || state.isNone then ((result.get "data").bind Json.asStr).filter (· ≠ "") else .none

/-- What `ton_storage_cell` makes of an answer. -/
def storageRead (parse : List UInt8 → Exec AppCoreError TonCell) (response : Json) : Exec RpcError TonStorageRead := do
  let .some result := response.get "result" | return .unavailable
  let .some data := activeData result | return .inactive
  if (← optional (tonBocCellCountFits base64 data)) ≠ .some true then return .unavailable
  match bocFromBase64WithLimits base64 parse data maxAccountStateCells false with
  | .ok cell => return .cell data cell
  | .error (.err _) => return .unavailable
  | .error .panic => .error .panic
  | .error .fuel => .error .fuel

/-- `ton_storage_cell`; `response` is what `post_json_scoped` returns. -/
def tonStorageCell (parse : List UInt8 → Exec AppCoreError TonCell) :
    (response : Except RpcError Json) → Exec RpcError TonStorageRead
  | .ok response => storageRead base64 parse response
  | .error e => Exec.err e

/-! ## A header that is safe -/

section Header

variable {bytes : List UInt8}

theorem readUint_eq (cursor width : Nat) : readUint bytes cursor width = readBocUint bytes cursor width := rfl

/-- The cursor after roots that are all in range. -/
theorem rootsInRange_cursor {sizeBytes cells : Nat} : ∀ {roots cursor stop : Nat},
    rootsInRange bytes sizeBytes cells roots cursor = .some stop → stop = cursor + roots * sizeBytes
  | 0, cursor, stop, h => by
    cases h
    rw [Nat.zero_mul, Nat.add_zero]
  | roots + 1, cursor, stop, h => by
    rw [rootsInRange] at h
    obtain ⟨⟨root, next⟩, hread, h⟩ := Option.bind_eq_some_iff.mp h
    dsimp only at h
    split at h
    · cases h
    · have hnext := (readBocUint_ok hread).1
      have hstop := rootsInRange_cursor h
      rw [hstop, hnext, Nat.succ_mul]
      omega

/-- What a safe header says. -/
structure SafeHeader (bytes : List UInt8) (maxCells : Nat) where
  flags : UInt8
  offset : UInt8
  cells : Nat
  roots : Nat
  absent : Nat
  dataSize : Nat
  cursor₁ : Nat
  cursor₂ : Nat
  cursor₃ : Nat
  cursor₄ : Nat
  length : 10 ≤ bytes.length
  magic : bytes.take 4 = [0xb5, 0xee, 0x9c, 0x72]
  flagsAt : bytes[4]? = .some flags
  offsetAt : bytes[5]? = .some offset
  widths : ¬((flags &&& 7).toNat = 0 ∨ (flags &&& 7).toNat > 4 ∨ offset.toNat = 0 ∨ offset.toNat > 8)
  cellsAt : readBocUint bytes 6 (flags &&& 7).toNat = .some (cells, cursor₁)
  rootsAt : readBocUint bytes cursor₁ (flags &&& 7).toNat = .some (roots, cursor₂)
  absentAt : readBocUint bytes cursor₂ (flags &&& 7).toNat = .some (absent, cursor₃)
  sizeAt : readBocUint bytes cursor₃ offset.toNat = .some (dataSize, cursor₄)
  cells_le : cells ≤ maxCells
  cells_size : cells ≤ dataSize / 2
  fits : cursor₄ + roots * (flags &&& 7).toNat + dataSize ≤ min bytes.length usizeMax

theorem le_of_checkedAdd {a b c : Nat} (h : checkedAdd a b = .some c) : a + b = c ∧ c ≤ usizeMax := by
  unfold checkedAdd at h
  split at h
  · next hle =>
    obtain rfl := Option.some.inj h
    exact ⟨rfl, hle⟩
  · cases h

theorem safeHeader_of_checkHeader {maxCells : Nat} (h : checkHeader bytes maxCells = .ok ()) :
    Nonempty (SafeHeader bytes maxCells) := by
  unfold checkHeader at h
  split at h
  · cases h
  next hmagic =>
  obtain ⟨flags, hflags, h⟩ := Exec.bind_ok_iff.mp h
  obtain ⟨offset, hoffset, h⟩ := Exec.bind_ok_iff.mp h
  dsimp only at h
  split at h
  · cases h
  next hwidths =>
  obtain ⟨⟨cells, cursor₁⟩, hcells, h⟩ := Exec.bind_ok_iff.mp h
  obtain ⟨⟨roots, cursor₂⟩, hroots, h⟩ := Exec.bind_ok_iff.mp h
  obtain ⟨⟨absent, cursor₃⟩, habsent, h⟩ := Exec.bind_ok_iff.mp h
  obtain ⟨⟨dataSize, cursor₄⟩, hsize, h⟩ := Exec.bind_ok_iff.mp h
  dsimp only at h
  split at h
  · cases h
  next hcounts =>
  obtain ⟨cursor₅, hrange, h⟩ := Exec.bind_ok_iff.mp h
  obtain ⟨index, -, h⟩ := Exec.bind_ok_iff.mp h
  obtain ⟨dataStart, hstart, h⟩ := Exec.bind_ok_iff.mp h
  obtain ⟨dataEnd, hend, h⟩ := Exec.bind_ok_iff.mp h
  obtain ⟨stop, hstop, h⟩ := Exec.bind_ok_iff.mp h
  split at h
  · cases h
  next hlength =>
  have hcursor := rootsInRange_cursor (orNone_eq_ok.mp hrange)
  obtain ⟨hstart, hstartMax⟩ := le_of_checkedAdd (orNone_eq_ok.mp hstart)
  obtain ⟨hend, hendMax⟩ := le_of_checkedAdd (orNone_eq_ok.mp hend)
  obtain ⟨hstop, -⟩ := le_of_checkedAdd (orNone_eq_ok.mp hstop)
  simp only [Bool.or_eq_true, decide_eq_true_eq, not_or] at hmagic hwidths hcounts
  exact ⟨{
    flags, offset, cells, roots, absent, dataSize, cursor₁, cursor₂, cursor₃, cursor₄
    length := by omega
    magic := not_not.mp hmagic.2
    flagsAt := Exec.get_eq_ok.mp hflags
    offsetAt := Exec.get_eq_ok.mp hoffset
    widths := by omega
    cellsAt := orNone_eq_ok.mp hcells
    rootsAt := orNone_eq_ok.mp hroots
    absentAt := orNone_eq_ok.mp habsent
    sizeAt := orNone_eq_ok.mp hsize
    cells_le := by omega
    cells_size := by omega
    fits := by omega }⟩

/-- **A safe header passes the count.** The count leaves out the index and the
checksum, which only move the end further. -/
theorem SafeHeader.declaredCountFits (header : SafeHeader bytes maxAccountStateCells) :
    declaredCountFits bytes = .ok true := by
  obtain ⟨flags, offset, cells, roots, absent, dataSize, cursor₁, cursor₂, cursor₃, cursor₄, hlength, hmagic, hflags,
    hoffset, hwidths, hcells, hroots, habsent, hsize, hmax, hhalf, hfits⟩ := header
  have hslice : (Exec.slice bytes 0 4 : Exec Unit (List UInt8)) = .ok (bytes.take 4) := if_pos ⟨by omega, by omega⟩
  have hguard : (decide ((flags &&& 7).toNat = 0) || decide ((flags &&& 7).toNat > 4) || decide (offset.toNat = 0) ||
      decide (offset.toNat > 8)) = false := by
    simp only [Bool.or_eq_false_iff, decide_eq_false_iff_not]
    omega
  have hdouble : saturatingMul cells 2 ≤ dataSize := by
    rw [saturatingMul]
    omega
  unfold Storage.declaredCountFits
  simp only [readUint_eq, hslice, hmagic, hflags, hoffset, Exec.get_some, Exec.ok_bind]
  rw [if_neg (by omega), if_neg (not_not.mpr rfl)]
  generalize (flags &&& 7).toNat = size at *
  have hroot : checkedMul roots size = .some (roots * size) := checkedMul_of_le (by omega)
  simp only [hguard, Bool.false_eq_true, if_false, hcells, hroots, habsent, hsize, hroot, orNone_some, Exec.ok_bind]
  rw [checkedAdd_of_le (by omega), orNone_some, Exec.ok_bind, checkedAdd_of_le (by omega), orNone_some, Exec.ok_bind,
    decide_eq_true hmax, decide_eq_true hdouble, decide_eq_true (show _ ≤ bytes.length by omega)]
  rfl

end Header

/-! ## No byte is read that is not there -/

theorem declaredCountFits_returns (bytes : List UInt8) : (declaredCountFits bytes).Returns := by
  unfold declaredCountFits
  split
  · exact Exec.returns_ok true
  next hlen =>
    have hslice : (Exec.slice bytes 0 4 : Exec Unit (List UInt8)) = .ok (bytes.take 4) := if_pos ⟨by omega, by omega⟩
    rw [hslice, Exec.ok_bind]
    split
    · exact Exec.returns_ok true
    rw [List.getElem?_eq_getElem (by omega), Exec.get_some, Exec.ok_bind, List.getElem?_eq_getElem (by omega),
      Exec.get_some, Exec.ok_bind]
    dsimp only
    split
    · exact Exec.returns_ok false
    refine (returns_orNone _).bind fun (cells, _) _ => (returns_orNone _).bind fun (roots, _) _ => ?_
    refine (returns_orNone _).bind fun (absent, _) _ => (returns_orNone _).bind fun (totalSize, _) _ => ?_
    refine (returns_orNone _).bind fun _ _ => (returns_orNone _).bind fun _ _ => (returns_orNone _).bind fun _ _ => ?_
    exact Exec.returns_ok _

theorem tonBocCellCountFits_returns (encoded : String) : ∃ fits, tonBocCellCountFits base64 encoded = .ok fits := by
  unfold tonBocCellCountFits
  cases base64.decode encoded with
  | error e => exact ⟨false, rfl⟩
  | ok bytes =>
    have hreturns := declaredCountFits_returns bytes
    match hresult : declaredCountFits bytes with
    | .ok fits => exact ⟨fits, by simp only [hresult]⟩
    | .error (.err ()) => exact ⟨false, by simp only [hresult]⟩
    | .error .panic => exact absurd hresult hreturns.1
    | .error .fuel => exact absurd hresult hreturns.2

/-! ## What votes -/

variable {base64}

theorem checkHeader_of_safe {bytes : List UInt8} {maxCells : Nat} (h : bocHeaderIsSafe bytes maxCells = .ok true) :
    checkHeader bytes maxCells = .ok () := by
  unfold bocHeaderIsSafe at h
  split at h
  · assumption
  · cases h
  · cases h

theorem tonBocCellCountFits_of_safe {encoded : String} {bytes : List UInt8}
    (hdecode : base64.decode encoded = .ok bytes) (hsafe : bocHeaderIsSafe bytes maxAccountStateCells = .ok true) :
    tonBocCellCountFits base64 encoded = .ok true := by
  obtain ⟨header⟩ := safeHeader_of_checkHeader (checkHeader_of_safe hsafe)
  simp only [tonBocCellCountFits, hdecode, header.declaredCountFits]

theorem decode_encode (bytes : List UInt8) : base64.decode (base64.encode bytes) = .ok bytes := by
  have hoption := base64.toOption_decode_encode bytes
  cases hdecode : base64.decode (base64.encode bytes) with
  | error e =>
    rw [hdecode] at hoption
    cases hoption
  | ok bytes' =>
    rw [hdecode] at hoption
    exact congrArg Except.ok (Option.some.inj hoption)

variable {parse : List UInt8 → Exec AppCoreError TonCell} {data : String} {cell : TonCell}

/-- What is read has a safe header. -/
theorem fits_of_bocFromBase64WithLimits {rejectExotic : Bool}
    (h : bocFromBase64WithLimits base64 parse data maxAccountStateCells rejectExotic = .ok cell) :
    tonBocCellCountFits base64 data = .ok true := by
  obtain ⟨bytes, hbytes, h⟩ := Exec.bind_ok_iff.mp h
  obtain ⟨safe, hsafe, h⟩ := Exec.bind_ok_iff.mp h
  split at h
  · cases h
  next htrue =>
    obtain ⟨safe', hsafe', hvalue⟩ :=
      optional_gives (ε := AppCoreError) (bocHeaderIsSafe_returns bytes maxAccountStateCells)
    rw [hsafe] at hsafe'
    cases hsafe'
    exact tonBocCellCountFits_of_safe (mapErr_eq_ok.mp hbytes) (hvalue true (not_not.mp htrue))

theorem storageRead_eq_cell {response : Json} :
    storageRead base64 parse response = .ok (.cell data cell) ↔
      ∃ result, response.get "result" = .some result ∧ activeData result = .some data ∧
        bocFromBase64WithLimits base64 parse data maxAccountStateCells false = .ok cell := by
  constructor
  · intro h
    unfold storageRead at h
    split at h
    next result hresult =>
      split at h
      next data' hdata =>
        obtain ⟨fits, -, h⟩ := Exec.bind_ok_iff.mp h
        split at h
        · cases h
        split at h
        next cell' hcell =>
          cases h
          exact ⟨result, hresult, hdata, hcell⟩
        · cases h
        · cases h
        · cases h
      · cases h
    · cases h
  · rintro ⟨result, hresult, hdata, hcell⟩
    have hfits := fits_of_bocFromBase64WithLimits hcell
    unfold storageRead
    simp only [Exec.ok_bind, hresult, hdata, hfits, optional]
    rw [if_neg (not_not.mpr rfl), hcell]
    rfl

variable (base64)

/-- **The count refuses no account that can be read.** Bytes with a safe header
pass it, so a cell votes exactly when its data are read; and no text makes the
count, no bytes make the header's check end in a panic. -/
theorem tonStorageCell_prefilter (parse : List UInt8 → Exec AppCoreError TonCell) :
    (∀ bytes, bocHeaderIsSafe bytes maxAccountStateCells = .ok true →
      tonBocCellCountFits base64 (base64.encode bytes) = .ok true ∧
      ∀ encoded, base64.decode encoded = .ok bytes → tonBocCellCountFits base64 encoded = .ok true) ∧
    (∀ response data cell, tonStorageCell base64 parse response = .ok (.cell data cell) ↔
      ∃ value result, response = .ok value ∧ value.get "result" = .some result ∧ activeData result = .some data ∧
        bocFromBase64WithLimits base64 parse data maxAccountStateCells false = .ok cell) ∧
    (∀ encoded, (tonBocCellCountFits base64 encoded).Returns) ∧
    ∀ bytes maxCells, (bocHeaderIsSafe bytes maxCells).Returns := by
  refine ⟨fun bytes hsafe => ?_, fun response data cell => ?_, fun encoded => ?_, bocHeaderIsSafe_returns⟩
  · exact ⟨tonBocCellCountFits_of_safe (decode_encode bytes) hsafe,
      fun _ hdecode => tonBocCellCountFits_of_safe hdecode hsafe⟩
  · cases response with
    | error e =>
      constructor
      · intro h
        cases h
      · rintro ⟨value, _, hvalue, _⟩
        cases hvalue
    | ok value =>
      refine storageRead_eq_cell.trans ⟨fun ⟨result, h⟩ => ⟨value, result, rfl, h⟩, ?_⟩
      rintro ⟨_, result, hvalue, h⟩
      cases hvalue
      exact ⟨result, h⟩
  · obtain ⟨fits, hfits⟩ := tonBocCellCountFits_returns base64 encoded
    rw [hfits]
    exact Exec.returns_ok fits

theorem tonStorageCell_prefilter_twoCells :
    tonBocCellCountFits Base64.Engine.plain (Base64.Engine.plain.encode twoCellBag) = .ok true ∧
    ∃ read, tonStorageCell Base64.Engine.plain (fun _ => .ok (.mk .ordinary 0 [] []))
      (.ok (.object [("result", .object [("data", .string (Base64.Engine.plain.encode twoCellBag))])])) = .ok read ∧
      read = .cell (Base64.Engine.plain.encode twoCellBag) (.mk .ordinary 0 [] []) := by
  have hprefilter := tonStorageCell_prefilter Base64.Engine.plain fun _ => .ok (.mk .ordinary 0 [] [])
  have hsafe : bocHeaderIsSafe twoCellBag maxAccountStateCells = .ok true := by decide +kernel
  have hdepth : bocMaxDepth twoCellBag = .ok 1 := by decide +kernel
  refine ⟨(hprefilter.1 twoCellBag hsafe).1, _, (hprefilter.2.1 _ _ _).mpr ⟨_, _, rfl, rfl, ?_, ?_⟩, rfl⟩
  · decide +kernel
  · rw [bocFromBase64WithLimits, decode_encode, mapErr_ok, Exec.ok_bind, bocFromBytesWithLimits, hsafe, hdepth]
    rfl

end Pillar.Ton.Storage
