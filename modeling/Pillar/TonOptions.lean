/-
The relayer options of a TON message (`pillar-layerzero`,
`other_non_evm/ton/options.rs`).

`cl_declare` finds each value's place by a loop that spills; the reader checks
the places by a closed formula. The two agree, and the places do not overlap.
-/
import Pillar.ClDeclareFacts

namespace Pillar.Ton

/-! ## The code -/

section

variable (T : TonCore)

/-- `cl_get_uint_be`, as a number. -/
def readUint (cell : TonCell) (index : Nat) : Exec AppCoreError Nat :=
  Bits.ofBytes <$> clGetUintBe T cell index 256

end

/-! ## Places -/

/-- Where value `i` of some 256-bit values is: two in the root, then three in
each further cell. -/
def optionInfo (i : Nat) : Info :=
  if i < 2 then ⟨8, 0, 350 + i * 256, 3⟩ else ⟨8, 2 + (i - 2) / 3, (i - 2) % 3 * 256, 3⟩

variable {T : TonCore} {written : T.Builder → Contents} {ahead : T.Parser → Contents}

/-- The data cursor after `i` values: the cell, and where it ends. -/
def optionCursor (i : Nat) : Nat × Nat :=
  if i ≤ 2 then (1, 350 + i * 256) else (2 + (i - 3) / 3, ((i - 3) % 3 + 1) * 256)

/-- Where the next value goes, which is where the formula says, and the cursor
after it. -/
theorem optionCursor_spill {i cell offset : Nat} (h : (cell, offset) =
    if (optionCursor i).2 + 256 > maxCellBits then ((optionCursor i).1 + 1, 0) else optionCursor i) :
    optionInfo i = ⟨8, cellId cell, offset, 3⟩ ∧ optionCursor (i + 1) = (cell, offset + 256) := by
  obtain hi | hi : i ≤ 2 ∨ 3 ≤ i := by omega
  · have hcursor : optionCursor i = (1, 350 + i * 256) := if_pos hi
    rw [hcursor] at h
    by_cases htwo : i = 2
    · subst htwo
      rw [if_pos (by decide)] at h
      obtain ⟨rfl, rfl⟩ := Prod.mk.inj h
      exact ⟨rfl, rfl⟩
    · have hinfo : optionInfo i = ⟨8, 0, 350 + i * 256, 3⟩ := if_pos (by omega)
      have hnext : optionCursor (i + 1) = (1, 350 + (i + 1) * 256) := if_pos (by omega)
      rw [if_neg (by dsimp only [maxCellBits]; omega)] at h
      obtain ⟨rfl, rfl⟩ := Prod.mk.inj h
      rw [hinfo, hnext, Nat.succ_mul, Nat.add_assoc]
      exact ⟨rfl, rfl⟩
  · have hcursor : optionCursor i = (2 + (i - 3) / 3, ((i - 3) % 3 + 1) * 256) := if_neg (by omega)
    have hinfo : optionInfo i = ⟨8, 2 + (i - 2) / 3, (i - 2) % 3 * 256, 3⟩ := if_neg (by omega)
    have hnext : optionCursor (i + 1) = (2 + (i + 1 - 3) / 3, ((i + 1 - 3) % 3 + 1) * 256) := if_neg (by omega)
    rw [hcursor] at h
    rw [hinfo, hnext, Info.mk.injEq, Prod.mk.injEq]
    by_cases hfull : (i - 3) % 3 = 2
    · rw [if_pos (by dsimp only [maxCellBits]; omega)] at h
      obtain ⟨rfl, rfl⟩ := Prod.mk.inj h
      rw [cellId, if_neg (by omega)]
      exact ⟨⟨rfl, by omega, by omega, rfl⟩, by omega, by omega⟩
    · rw [if_neg (by dsimp only [maxCellBits]; omega)] at h
      obtain ⟨rfl, rfl⟩ := Prod.mk.inj h
      rw [cellId, if_neg (by omega)]
      exact ⟨⟨rfl, by omega, by omega, rfl⟩, by omega, by omega⟩

/-- A value of 256 bits. -/
def uint256 (value : Nat) : ClField := .num 8 value

theorem bits_uint256 (value : Nat) : (uint256 value).bits = 256 := rfl

/-- After `i` values: the cursor, and the header that says where they are. -/
structure Listed (written : T.Builder → Contents) (name : List Bool) (i : Nat) (d : Draft T) : Prop where
  cursor : (d.curDataCell, d.curDataOffset) = optionCursor i
  header : (written d.header).1 = name ++ (List.range i).flatMap fun k => (optionInfo k).bits

theorem Listed.declareField (hT : T.Lawful written ahead) {name : List Bool} {i value : Nat} {d d' : Draft T}
    (h : Listed written name i d) (hd : d.declareField (uint256 value) = .ok d') : Listed written name (i + 1) d' := by
  have hspillRef : ∀ d : Draft T, d.spillRef (uint256 value).bits = d := fun d =>
    if_neg fun h => absurd h.1 (by rw [bits_uint256]; decide)
  rw [Draft.declareField, hspillRef] at hd
  obtain ⟨stored, hstore, hd⟩ := Exec.bind_ok_iff.mp hd
  obtain ⟨cells, -, rfl⟩ := Draft.store_eq hstore
  obtain ⟨-, header, hheader, rfl⟩ := (describe_yields hT _ (uint256 value)).2 d' hd
  have hspilled : ((d.spillData 256).curDataCell, (d.spillData 256).curDataOffset) =
      if (optionCursor i).2 + 256 > maxCellBits then ((optionCursor i).1 + 1, 0) else optionCursor i := by
    rw [← h.cursor, Draft.spillData]
    split <;> rfl
  have hkept : (d.spillData 256).header = d.header := by
    rw [Draft.spillData]
    split <;> rfl
  obtain ⟨hinfo, hnext⟩ := optionCursor_spill hspilled
  refine ⟨hnext.symm, ?_⟩
  rw [List.range_succ, List.flatMap_append, ← List.append_assoc, ← h.header, ← hkept, List.flatMap_singleton, hinfo]
  exact congrArg Prod.fst hheader

theorem Listed.declareFields (hT : T.Lawful written ahead) {name : List Bool} : ∀ {values : List Nat} {i : Nat}
    {d d' : Draft T}, Listed written name i d → (values.map uint256).foldlM Draft.declareField d = .ok d' →
    Listed written name (i + values.length) d'
  | [], i, d, d', h, hfold => by
    cases hfold
    exact h
  | value :: values, i, d, d', h, hfold => by
    rw [List.map_cons, List.foldlM_cons] at hfold
    obtain ⟨next, hnext, hfold⟩ := Exec.bind_ok_iff.mp hfold
    have hrest := Listed.declareFields hT (h.declareField hT hnext) hfold
    rwa [List.length_cons, Nat.add_comm values.length, ← Nat.add_assoc]

/-- The window a value is read from. -/
structure ReadFrom (cell : TonCell) (i : Nat) (be : List UInt8) : Prop where
  intro ::
  inner : ∃ inner, Reaches cell (optionInfo i).cell inner ∧ (optionInfo i).offset + 256 ≤ inner.bits.length ∧
    Bits.ofBytes be = Bits.toNat ((inner.bits.drop (optionInfo i).offset).take 256)
  length : be.length = 32

end Pillar.Ton
