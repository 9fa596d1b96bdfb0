/-
The calldata of `lzMap` and `lzReduce` (`pillar-layerzero`, `abi.rs`,
`abi/encode.rs`), and that its arguments read back.

The offsets are added up by hand: those of the arguments from their start, those
of an array's elements from the start of the array's table of offsets.
-/
import Pillar.AbiFacts

namespace Pillar.Abi

open Bits Hex Text

section

variable (hex : HexCrate)

/-- The loop that writes the offsets of the elements. -/
def writeOffsets (elements : List (List UInt8)) (out : List UInt8) (offset : Nat) :
    Exec AppCoreError (List UInt8 × Nat) :=
  elements.foldlM (fun (out, offset) element => do
    let next ← Exec.get (checkedAdd offset element.length)
    .ok (out ++ (solidityUint256 (.ofNat offset)).val, next)) (out, offset)

def solidityDynamicBytesArray (values : List String) : Exec AppCoreError (List UInt8) := do
  let elements ← values.mapM (solidityDynamicBytes hex)
  let out := (solidityUint256 (.ofNat elements.length)).val
  let offset ← Exec.get (checkedMul elements.length 32)
  let (out, _) ← writeOffsets elements out offset
  .ok (out ++ elements.flatten)

/-- The first four bytes of the signature's Keccak-256. -/
def functionSelector (keccak256 : List UInt8 → Bytes 32) (signature : String) : Bytes 4 :=
  ⟨(keccak256 signature.toUTF8.data.toList).val.take 4, by simp⟩

variable (keccak256 : List UInt8 → Bytes 32)

def buildEvmLzMapCallData (request response : String) : Exec AppCoreError String := do
  let request ← solidityDynamicBytes hex request
  let response ← solidityDynamicBytes hex response
  let out := (functionSelector keccak256 "lzMap(bytes,bytes)").val ++ (solidityUint256 64).val
  let offset ← Exec.get (checkedAdd 64 request.length)
  .ok ("0x" ++ hex.encode (out ++ (solidityUint256 (.ofNat offset)).val ++ request ++ response))

def buildEvmLzReduceCallData (cmd : String) (responses : List String) : Exec AppCoreError String := do
  let cmd ← solidityDynamicBytes hex cmd
  let responseArray ← solidityDynamicBytesArray hex responses
  let out := (functionSelector keccak256 "lzReduce(bytes,bytes[])").val ++ (solidityUint256 64).val
  let offset ← Exec.get (checkedAdd 64 cmd.length)
  .ok ("0x" ++ hex.encode (out ++ (solidityUint256 (.ofNat offset)).val ++ cmd ++ responseArray))

end

/-! ## The layout -/

/-- A number in a word. -/
def word (n : Nat) : List UInt8 := (solidityUint256 (.ofNat n)).val

@[simp] theorem length_word (n : Nat) : (word n).length = 32 := Bytes.length_val _

/-- The offsets of elements that stand one after another, the first at `offset`. -/
def offsetWords : Nat → List (List UInt8) → List UInt8
  | _, [] => []
  | offset, element :: elements => word offset ++ offsetWords (offset + element.length) elements

/-- A `bytes[]`: how many there are, where each is, and the values. -/
def dynamicBytesArray (values : List (List UInt8)) : List UInt8 :=
  word values.length ++ (offsetWords (values.length * 32) (values.map dynamicBytes) ++
    (values.map dynamicBytes).flatten)

/-- Two arguments: where each is, and their encodings, one after the other. -/
def twoArguments (first second : List UInt8) : List UInt8 :=
  word 64 ++ (word (64 + first.length) ++ (first ++ second))

/-- A `bytes[]` as a caller of the contract reads it: each element's offset
counts from the table of offsets. -/
def abiWordAt (data : List UInt8) (start : Nat) : Exec AppCoreError Nat :=
  Exec.slice data start (start + 32) >>= abiWordValue

def abiDynamicBytesArray (data : List UInt8) (index headWords : Nat) : Exec AppCoreError (List (List UInt8)) := do
  let offset ← abiWordUsize data index headWords
  let len ← abiWordAt data offset
  let table := offset + 32
  (List.range len).mapM fun i => do
    let element ← abiWordAt data (table + i * 32)
    abiBody data (table + element) (table + element + 32)

/-! ## What is written -/

variable {hex : HexCrate}

theorem length_dynamicBytes (bytes : List UInt8) :
    (dynamicBytes bytes).length = 32 + (bytes.length + padding bytes.length) := by
  simp only [dynamicBytes, List.length_append, Bytes.length_val, List.length_replicate]

theorem length_dynamicBytes_mod (bytes : List UInt8) : (dynamicBytes bytes).length % 32 = 0 := by
  have := padding_fills bytes.length
  rw [length_dynamicBytes]
  omega

@[simp] theorem length_offsetWords (offset : Nat) (elements : List (List UInt8)) :
    (offsetWords offset elements).length = elements.length * 32 := by
  induction elements generalizing offset with
  | nil => rfl
  | cons element elements ih =>
    rw [offsetWords, List.length_append, length_word, ih, List.length_cons]
    omega

theorem writeOffsets_eq (elements : List (List UInt8)) (out : List UInt8) {offset : Nat}
    (h : offset + elements.flatten.length ≤ usizeMax) : writeOffsets elements out offset =
      .ok (out ++ offsetWords offset elements, offset + elements.flatten.length) := by
  induction elements generalizing out offset with
  | nil =>
    rw [offsetWords, List.append_nil]
    rfl
  | cons element elements ih =>
    rw [List.flatten_cons, List.length_append] at h
    have hadd : checkedAdd offset element.length = .some (offset + element.length) := checkedAdd_of_le (by omega)
    have hstep : writeOffsets (element :: elements) out offset =
        writeOffsets elements (out ++ word offset) (offset + element.length) := by
      unfold writeOffsets
      rw [List.foldlM_cons]
      dsimp only
      rw [hadd, Exec.get_some, Exec.ok_bind]
      rfl
    rw [hstep, ih _ (by omega), offsetWords, List.flatten_cons, List.length_append, List.append_assoc, Nat.add_assoc]

theorem length_dynamicBytesArray (values : List (List UInt8)) : (dynamicBytesArray values).length =
    32 + (values.length * 32 + (values.map dynamicBytes).flatten.length) := by
  simp only [dynamicBytesArray, List.length_append, length_word, length_offsetWords, List.length_map]

/-- Values that decode are written as an array. -/
theorem solidityDynamicBytesArray_eq {texts : List String} {values : List (List UInt8)}
    (h : List.Forall₂ (fun text value => decodeHexBytes hex text = .ok value) texts values)
    (hlen : (dynamicBytesArray values).length ≤ usizeMax) :
    solidityDynamicBytesArray hex texts = .ok (dynamicBytesArray values) := by
  have helements : texts.mapM (solidityDynamicBytes hex) = .ok (values.map dynamicBytes) := by
    rw [mapM_eq_ok_iff, List.forall₂_map_right_iff]
    refine h.imp fun text value hvalue => ?_
    rw [solidityDynamicBytes_eq, hvalue]
    rfl
  rw [length_dynamicBytesArray] at hlen
  rw [solidityDynamicBytesArray, helements, Exec.ok_bind, List.length_map, checkedMul_of_le (by omega), Exec.get_some,
    Exec.ok_bind, writeOffsets_eq _ _ (by omega), Exec.ok_bind]
  simp only [dynamicBytesArray, word, List.append_assoc]

/-! ## What is read -/

/-- A part of a part. -/
theorem at_at {α : Type} {l part sub : List α} {i j : Nat} (h : At l i part) (h' : At part j sub) :
    At l (i + j) sub := by
  obtain ⟨rest, hrest⟩ := h
  rw [At, ← List.drop_drop, ← hrest]
  exact h'.append rest

/-- A part ends inside. -/
theorem at_end_le {α : Type} {l part : List α} {i : Nat} (h : At l i part) (hi : i ≤ l.length) :
    i + part.length ≤ l.length := by
  have hle := List.IsPrefix.length_le h
  rw [List.length_drop] at hle
  omega

theorem abiWordValue_word {n : Nat} (h : n ≤ usizeMax) : abiWordValue (word n) = .ok n := by
  have hlt : n < 2 ^ 64 := Nat.lt_of_le_of_lt h (by decide)
  have hhigh : (Exec.slice (word n) 0 16 : Exec AppCoreError (List UInt8)) = .ok (List.replicate 16 0) := rfl
  have hlow : (Exec.slice (word n) 16 32 : Exec AppCoreError (List UInt8)) =
      .ok (List.replicate 8 0 ++ bytesOf 8 (UInt64.ofNat n).toNat) := rfl
  have hzero : (List.replicate 16 (0 : UInt8)).any (· ≠ 0) = false := by decide
  rw [abiWordValue, if_neg (by rw [length_word]; decide), hhigh, Exec.ok_bind, hzero, hlow]
  simp only [Bool.false_eq_true, if_false, Exec.ok_bind]
  rw [ofBytes_zeros, UInt64.toNat_ofNat_of_lt' hlt, ofBytes_bytesOf (Nat.lt_of_lt_of_le hlt (by decide))]

section Read

variable {data : List UInt8}

theorem abiWordAt_of_at {start n : Nat} (h : At data start (word n)) (hstart : start ≤ data.length)
    (hn : n ≤ usizeMax) : abiWordAt data start = .ok n := by
  rw [abiWordAt, slice_of_at h hstart (by rw [length_word]), Exec.ok_bind, abiWordValue_word hn]

variable (hdata : data.length ≤ usizeMax)

include hdata

/-- The value behind its length. -/
theorem abiBody_of_at {offset : Nat} {bytes : List UInt8} (h : At data offset (dynamicBytes bytes))
    (hoffset : offset ≤ data.length) : abiBody data offset (offset + 32) = .ok bytes := by
  have hend := at_end_le h hoffset
  rw [length_dynamicBytes] at hend
  have hlength : At data offset (word bytes.length) := h.left
  have hbytes : At data (offset + 32) bytes := by
    have hright := h.right
    rw [Bytes.length_val] at hright
    exact hright.left
  have hstop : (checkedAdd (offset + 32) bytes.length).filter (· ≤ data.length) =
      .some (offset + 32 + bytes.length) := by
    rw [checkedAdd_of_le (by omega), Option.filter_some, if_pos (decide_eq_true (by omega))]
  rw [abiBody, slice_of_at hlength hoffset (by rw [length_word]), Exec.ok_bind,
    abiWordValue_word (by omega), Exec.ok_bind, if_neg (by omega), hstop]
  exact slice_of_at hbytes (by omega) rfl

theorem abiWordUsize_of_at {index headWords n : Nat} (hindex : index < headWords) (hhead : headWords * 32 ≤ data.length)
    (h : At data (index * 32) (word n)) (hn : n ≤ usizeMax) : abiWordUsize data index headWords = .ok n := by
  rw [abiWordUsize, abiHeadStart, if_neg (by omega), checkedMul_of_le (by omega), Exec.get_some, Exec.ok_bind,
    if_neg (by omega), Exec.ok_bind, slice_of_at h (by omega) (by rw [length_word]), Exec.ok_bind,
    abiWordValue_word hn, Exec.ok_bind, if_neg (by omega)]

theorem abiDynamicBytes_of_at {index headWords offset : Nat} {bytes : List UInt8} (hindex : index < headWords)
    (hhead : headWords * 32 ≤ data.length) (h : At data (index * 32) (word offset)) (hoffset : offset ≤ data.length)
    (hbody : At data offset (dynamicBytes bytes)) : abiDynamicBytes data index headWords = .ok bytes := by
  have hend := at_end_le hbody hoffset
  rw [length_dynamicBytes] at hend
  have hstart : (checkedAdd offset 32).filter (· ≤ data.length) = .some (offset + 32) := by
    rw [checkedAdd_of_le (by omega), Option.filter_some, if_pos (decide_eq_true (by omega))]
  rw [abiDynamicBytes, abiWordUsize_of_at hdata hindex hhead h (by omega), Exec.ok_bind, hstart]
  exact abiBody_of_at hdata hbody hoffset

/-! ## Arrays -/

omit hdata in
theorem at_offsetWords {elements : List (List UInt8)} {offset i : Nat} (h : i < elements.length) :
    At (offsetWords offset elements) (i * 32) (word (offset + (elements.take i).flatten.length)) := by
  induction elements generalizing offset i with
  | nil => exact absurd h (Nat.not_lt_zero i)
  | cons element elements ih =>
    cases i with
    | zero =>
      rw [Nat.zero_mul, List.take_zero, List.flatten_nil, List.length_nil, Nat.add_zero]
      exact List.prefix_append _ _
    | succ i =>
      have htail := @ih (offset + element.length) i (Nat.lt_of_succ_lt_succ h)
      have hrest := htail.after (word offset)
      rw [length_word] at hrest
      rw [List.take_succ_cons, List.flatten_cons, List.length_append, ← Nat.add_assoc, Nat.succ_mul,
        Nat.add_comm (i * 32)]
      exact hrest

omit hdata in
theorem at_flatten {elements : List (List UInt8)} {i : Nat} {element : List UInt8}
    (h : elements[i]? = .some element) : At elements.flatten (elements.take i).flatten.length element := by
  obtain ⟨hi, rfl⟩ := List.getElem?_eq_some_iff.mp h
  refine ⟨(elements.drop (i + 1)).flatten, ?_⟩
  have hsplit : elements.flatten = (elements.take i).flatten ++ (elements[i] ++ (elements.drop (i + 1)).flatten) := by
    rw [← List.flatten_cons, ← List.drop_eq_getElem_cons hi, ← List.flatten_append, List.take_append_drop]
  rw [hsplit, List.drop_left]

omit hdata in
theorem length_flatten_take (elements : List (List UInt8)) (i : Nat) :
    (elements.take i).flatten.length ≤ elements.flatten.length := by
  have hsplit : elements.flatten = (elements.take i).flatten ++ (elements.drop i).flatten := by
    rw [← List.flatten_append, List.take_append_drop]
  rw [hsplit, List.length_append]
  exact Nat.le_add_right _ _

/-- The elements, each behind its own offset. -/
theorem abiDynamicBytesArray_of_at {index headWords offset : Nat} {values : List (List UInt8)}
    (hindex : index < headWords) (hhead : headWords * 32 ≤ data.length) (h : At data (index * 32) (word offset))
    (hoffset : offset ≤ data.length) (hbody : At data offset (dynamicBytesArray values)) :
    abiDynamicBytesArray data index headWords = .ok values := by
  have hend := at_end_le hbody hoffset
  rw [length_dynamicBytesArray] at hend
  have htable := hbody.right
  rw [length_word] at htable
  have helements := htable.right
  rw [length_offsetWords, List.length_map] at helements
  rw [abiDynamicBytesArray, abiWordUsize_of_at hdata hindex hhead h (by omega), Exec.ok_bind,
    abiWordAt_of_at hbody.left hoffset (by omega), Exec.ok_bind]
  refine mapM_eq_ok_iff.mpr (List.forall₂_iff_get.mpr ⟨List.length_range, fun i hi hi' => ?_⟩)
  have hget : (values.map dynamicBytes)[i]? = .some (dynamicBytes values[i]) := by
    rw [List.getElem?_map, List.getElem?_eq_getElem hi']
    rfl
  have hflat := at_flatten hget
  have hflatEnd := at_end_le hflat (length_flatten_take _ i)
  have hvalue := at_at helements hflat
  have hword : At data (offset + 32 + i * 32)
      (word (values.length * 32 + ((values.map dynamicBytes).take i).flatten.length)) :=
    at_at htable.left (at_offsetWords (by rwa [List.length_map]))
  rw [length_dynamicBytes] at hflatEnd
  simp only [List.get_eq_getElem, List.getElem_range]
  rw [abiWordAt_of_at hword (by omega) (by omega), Exec.ok_bind, ← Nat.add_assoc]
  exact abiBody_of_at hdata hvalue (by omega)

end Read

/-! ## The arguments -/

section Arguments

variable {first second : List UInt8}

theorem length_twoArguments : (twoArguments first second).length = 64 + (first.length + second.length) := by
  simp only [twoArguments, List.length_append, length_word]
  omega

/-- Where the words and the encodings stand. -/
theorem at_twoArguments (first second : List UInt8) : At (twoArguments first second) 0 (word 64) ∧
    At (twoArguments first second) 32 (word (64 + first.length)) ∧ At (twoArguments first second) 64 first ∧
    At (twoArguments first second) (64 + first.length) second := by
  have hall : At (twoArguments first second) 0 (twoArguments first second) := List.prefix_refl _
  have hword := hall.right
  have hfirst := hword.right
  have hsecond := hfirst.right
  simp only [length_word, Nat.zero_add, Nat.reduceAdd] at hword hfirst hsecond
  exact ⟨hall.left, hword.left, hfirst.left, hsecond⟩

theorem abiDynamicBytes_first {bytes : List UInt8}
    (hlen : (twoArguments (dynamicBytes bytes) second).length ≤ usizeMax) :
    abiDynamicBytes (twoArguments (dynamicBytes bytes) second) 0 2 = .ok bytes := by
  obtain ⟨hword, -, hfirst, -⟩ := at_twoArguments (dynamicBytes bytes) second
  have htotal : (twoArguments (dynamicBytes bytes) second).length = _ := length_twoArguments
  exact abiDynamicBytes_of_at hlen (by decide) (by omega) hword (by omega) hfirst

theorem abiDynamicBytes_second {bytes : List UInt8}
    (hlen : (twoArguments first (dynamicBytes bytes)).length ≤ usizeMax) :
    abiDynamicBytes (twoArguments first (dynamicBytes bytes)) 1 2 = .ok bytes := by
  obtain ⟨-, hword, -, hsecond⟩ := at_twoArguments first (dynamicBytes bytes)
  have htotal : (twoArguments first (dynamicBytes bytes)).length = _ := length_twoArguments
  exact abiDynamicBytes_of_at hlen (by decide) (by omega) hword (by omega) hsecond

theorem abiDynamicBytesArray_second {values : List (List UInt8)}
    (hlen : (twoArguments first (dynamicBytesArray values)).length ≤ usizeMax) :
    abiDynamicBytesArray (twoArguments first (dynamicBytesArray values)) 1 2 = .ok values := by
  obtain ⟨-, hword, -, hsecond⟩ := at_twoArguments first (dynamicBytesArray values)
  have htotal : (twoArguments first (dynamicBytesArray values)).length = _ := length_twoArguments
  exact abiDynamicBytesArray_of_at hlen (by decide) (by omega) hword (by omega) hsecond

end Arguments

/-! ## The calls -/

/-- The arguments of `lzMap(bytes,bytes)`. -/
def mapArguments (request response : List UInt8) : List UInt8 :=
  twoArguments (dynamicBytes request) (dynamicBytes response)

/-- The arguments of `lzReduce(bytes,bytes[])`. -/
def reduceArguments (cmd : List UInt8) (responses : List (List UInt8)) : List UInt8 :=
  twoArguments (dynamicBytes cmd) (dynamicBytesArray responses)

/-- A value's length, its bytes and the zeros after them. -/
def valueRegions (bytes : List UInt8) : List (List UInt8) :=
  [word bytes.length, bytes, List.replicate (padding bytes.length) 0]

/-- The parts of the arguments, in their order. -/
def mapRegions (request response : List UInt8) : List (List UInt8) :=
  [word 64, word (64 + (dynamicBytes request).length)] ++ valueRegions request ++ valueRegions response

def reduceRegions (cmd : List UInt8) (responses : List (List UInt8)) : List (List UInt8) :=
  [word 64, word (64 + (dynamicBytes cmd).length)] ++ valueRegions cmd ++
    [word responses.length, offsetWords (responses.length * 32) (responses.map dynamicBytes)] ++
    responses.flatMap valueRegions

theorem flatten_valueRegions (bytes : List UInt8) : (valueRegions bytes).flatten = dynamicBytes bytes := by
  simp only [valueRegions, List.flatten_cons, List.flatten_nil, List.append_nil]
  rfl

theorem mapArguments_eq (request response : List UInt8) :
    mapArguments request response = (mapRegions request response).flatten := by
  simp only [mapRegions, mapArguments, twoArguments, List.flatten_append, flatten_valueRegions, List.flatten_cons,
    List.flatten_nil, List.append_nil, List.append_assoc]

theorem reduceArguments_eq (cmd : List UInt8) (responses : List (List UInt8)) :
    reduceArguments cmd responses = (reduceRegions cmd responses).flatten := by
  have hvalues : (responses.flatMap valueRegions).flatten = (responses.map dynamicBytes).flatten := by
    rw [List.flatMap_def, List.flatten_flatten, List.map_map]
    exact congrArg _ (List.map_congr_left fun value _ => flatten_valueRegions value)
  simp only [reduceRegions, reduceArguments, twoArguments, dynamicBytesArray, List.flatten_append, flatten_valueRegions,
    hvalues, List.flatten_cons, List.flatten_nil, List.append_nil, List.append_assoc]

theorem buildEvmLzMapCallData_eq {keccak256 : List UInt8 → Bytes 32} {request response : String}
    {requestBytes responseBytes : List UInt8} (hrequest : decodeHexBytes hex request = .ok requestBytes)
    (hresponse : decodeHexBytes hex response = .ok responseBytes)
    (hlen : (mapArguments requestBytes responseBytes).length ≤ usizeMax) :
    buildEvmLzMapCallData hex keccak256 request response = .ok ("0x" ++ hex.encode
      ((functionSelector keccak256 "lzMap(bytes,bytes)").val ++ mapArguments requestBytes responseBytes)) := by
  rw [mapArguments, length_twoArguments] at hlen
  rw [buildEvmLzMapCallData, solidityDynamicBytes_eq, hrequest, Except.map_ok, Exec.ok_bind, solidityDynamicBytes_eq,
    hresponse, Except.map_ok, Exec.ok_bind, checkedAdd_of_le (by omega), Exec.get_some, Exec.ok_bind]
  simp only [mapArguments, twoArguments, word, List.append_assoc]
  rfl

theorem buildEvmLzReduceCallData_eq {keccak256 : List UInt8 → Bytes 32} {cmd : String} {responses : List String}
    {cmdBytes : List UInt8} {values : List (List UInt8)} (hcmd : decodeHexBytes hex cmd = .ok cmdBytes)
    (hresponses : List.Forall₂ (fun text value => decodeHexBytes hex text = .ok value) responses values)
    (hlen : (reduceArguments cmdBytes values).length ≤ usizeMax) :
    buildEvmLzReduceCallData hex keccak256 cmd responses = .ok ("0x" ++ hex.encode
      ((functionSelector keccak256 "lzReduce(bytes,bytes[])").val ++ reduceArguments cmdBytes values)) := by
  rw [reduceArguments, length_twoArguments] at hlen
  rw [buildEvmLzReduceCallData, solidityDynamicBytes_eq, hcmd, Except.map_ok, Exec.ok_bind,
    solidityDynamicBytesArray_eq hresponses (by omega), Exec.ok_bind, checkedAdd_of_le (by omega), Exec.get_some,
    Exec.ok_bind]
  simp only [reduceArguments, twoArguments, word, List.append_assoc]
  rfl

theorem length_flatten_mod {values : List (List UInt8)} : (values.map dynamicBytes).flatten.length % 32 = 0 := by
  induction values with
  | nil => rfl
  | cons value values ih =>
    have := length_dynamicBytes_mod value
    rw [List.map_cons, List.flatten_cons, List.length_append]
    omega

/-- The words of the head are counted in bytes, without a check: the function
panics just when the index is in a head of more than a `usize` can count. -/
theorem abiDynamicBytes_returns_iff (data : List UInt8) (index headWords : Nat) :
    (abiDynamicBytes data index headWords).Returns ↔ headWords ≤ index ∨ headWords * 32 ≤ usizeMax := by
  by_cases hindex : headWords ≤ index
  · have herr : abiDynamicBytes data index headWords = Exec.err (.internal "ABI head index out of range") := by
      rw [abiDynamicBytes, abiWordUsize, abiHeadStart, if_pos hindex]
      rfl
    rw [herr]
    exact ⟨fun _ => .inl hindex, fun _ => Exec.returns_err _⟩
  · by_cases hhead : headWords * 32 ≤ usizeMax
    · exact ⟨fun _ => .inr hhead, fun _ => returns_abiDynamicBytes data index headWords hhead⟩
    · have hmul : checkedMul headWords 32 = .none := if_neg hhead
      have hpanic : abiDynamicBytes data index headWords = .error .panic := by
        rw [abiDynamicBytes, abiWordUsize, abiHeadStart, if_neg hindex, hmul]
        rfl
      rw [hpanic]
      exact ⟨fun h => absurd rfl h.1, fun h => (h.elim hindex hhead).elim⟩

/-- A head of `2 ^ 59` words. -/
theorem abiDynamicBytes_hugeHead : abiDynamicBytes [] 0 (2 ^ 59) = .error .panic := rfl

/-- **The calldata decodes to what it was built from**, for arguments that a
`Vec` can hold: each argument where its word of the head says, each element of
the array where its own word of the table says. The regions follow one another:
the words, then for each value its length, its bytes and zeros up to a whole
word. Decoding panics on no data, only for a head too long to be counted. -/
theorem calldata_reads_back (hex : HexCrate) (keccak256 : List UInt8 → Bytes 32) :
    (∀ (request response : String) (requestBytes responseBytes : List UInt8),
      decodeHexBytes hex request = .ok requestBytes → decodeHexBytes hex response = .ok responseBytes →
      (mapArguments requestBytes responseBytes).length ≤ usizeMax →
        buildEvmLzMapCallData hex keccak256 request response = .ok ("0x" ++ hex.encode
          ((functionSelector keccak256 "lzMap(bytes,bytes)").val ++ mapArguments requestBytes responseBytes)) ∧
        abiDynamicBytes (mapArguments requestBytes responseBytes) 0 2 = .ok requestBytes ∧
        abiDynamicBytes (mapArguments requestBytes responseBytes) 1 2 = .ok responseBytes ∧
        (4 + (mapArguments requestBytes responseBytes).length) % 32 = 4 ∧
        mapArguments requestBytes responseBytes = (mapRegions requestBytes responseBytes).flatten) ∧
    (∀ (cmd : String) (responses : List String) (cmdBytes : List UInt8) (values : List (List UInt8)),
      decodeHexBytes hex cmd = .ok cmdBytes →
      List.Forall₂ (fun text value => decodeHexBytes hex text = .ok value) responses values →
      (reduceArguments cmdBytes values).length ≤ usizeMax →
        buildEvmLzReduceCallData hex keccak256 cmd responses = .ok ("0x" ++ hex.encode
          ((functionSelector keccak256 "lzReduce(bytes,bytes[])").val ++ reduceArguments cmdBytes values)) ∧
        abiDynamicBytes (reduceArguments cmdBytes values) 0 2 = .ok cmdBytes ∧
        abiDynamicBytesArray (reduceArguments cmdBytes values) 1 2 = .ok values ∧
        (4 + (reduceArguments cmdBytes values).length) % 32 = 4 ∧
        reduceArguments cmdBytes values = (reduceRegions cmdBytes values).flatten) ∧
    ∀ (data : List UInt8) (index headWords : Nat),
      (abiDynamicBytes data index headWords).Returns ↔ headWords ≤ index ∨ headWords * 32 ≤ usizeMax := by
  refine ⟨fun request response requestBytes responseBytes hrequest hresponse hlen => ?_,
    fun cmd responses cmdBytes values hcmd hresponses hlen => ?_, abiDynamicBytes_returns_iff⟩
  · have hreq := length_dynamicBytes_mod requestBytes
    have hresp := length_dynamicBytes_mod responseBytes
    refine ⟨buildEvmLzMapCallData_eq hrequest hresponse hlen, abiDynamicBytes_first hlen,
      abiDynamicBytes_second hlen, ?_,
      mapArguments_eq _ _⟩
    rw [mapArguments, length_twoArguments]
    omega
  · have hc := length_dynamicBytes_mod cmdBytes
    have hvalues : (values.map dynamicBytes).flatten.length % 32 = 0 := length_flatten_mod
    refine ⟨buildEvmLzReduceCallData_eq hcmd hresponses hlen, abiDynamicBytes_first hlen,
      abiDynamicBytesArray_second hlen, ?_, reduceArguments_eq _ _⟩
    rw [reduceArguments, length_twoArguments, length_dynamicBytesArray]
    omega

/-- Values of one byte, of a whole word and of no byte. -/
def sampleResponses : List (List UInt8) := [[1], List.replicate 32 2, []]

def textOf (bytes : List UInt8) : String := "0x" ++ HexCrate.plain.encode bytes

theorem calldata_reads_back_sample :
    (∃ text, buildEvmLzMapCallData .plain (fun _ => beBytes 32 0) (textOf [1]) (textOf []) = .ok text) ∧
      abiDynamicBytesArray (reduceArguments [7] sampleResponses) 1 2 = .ok sampleResponses := by
  have hresponses : List.Forall₂ (fun text value => decodeHexBytes .plain text = .ok value)
      (sampleResponses.map textOf) sampleResponses := by
    rw [List.forall₂_map_left_iff]
    exact List.forall₂_same.mpr fun value _ => decodeHexBytes_prefixed value
  exact ⟨⟨_, ((calldata_reads_back .plain fun _ => beBytes 32 0).1 _ _ [1] [] (decodeHexBytes_prefixed _)
      (decodeHexBytes_prefixed _) (by decide +kernel)).1⟩,
    ((calldata_reads_back .plain fun _ => beBytes 32 0).2.1 _ _ [7] sampleResponses (decodeHexBytes_prefixed _)
      hresponses (by decide +kernel)).2.2.1⟩

end Pillar.Abi
