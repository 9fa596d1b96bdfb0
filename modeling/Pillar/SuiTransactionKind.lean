/-
A decoder of transaction kinds, tags and lengths read back as they are written,
and that it undoes `encode_sui_transaction_kind`.
-/
import Pillar.SuiBcsFacts

namespace Pillar.SuiBcs

open Bits Abi Leb128

/-! ## The decoder -/

def unreadable : AppCoreError := .internal "not a Sui transaction kind"

def readTag (tag : UInt64) : BcsM Unit := do
  let found ← uleb128
  if found = tag then pure () else Reader.fail unreadable

def readVec {α : Type} (item : BcsM α) : BcsM (List α) := do
  let len ← uleb128
  item.times len.toNat

def readBytes : BcsM (List UInt8) := do
  let len ← uleb128
  take len.toNat

def readString : BcsM String := do
  let bytes ← readBytes
  match String.fromUTF8? (ByteArray.mk bytes.toArray) with
  | .some text => pure text
  | .none => Reader.fail unreadable

def readBool : BcsM Bool := do
  let byte ← takeByte
  if byte = 1 then pure true else if byte = 0 then pure false else Reader.fail unreadable

def readShared : BcsM SuiSharedObject := do
  readTag 1
  let objectId ← address
  let initialSharedVersion ← u64Le
  let mutable ← readBool
  pure { objectId, initialSharedVersion, mutable }

def readCallArg : BcsM SuiCallArg := do
  let tag ← uleb128
  if tag = 0 then .pure <$> readBytes else if tag = 1 then .shared <$> readShared else Reader.fail unreadable

def readU16 : BcsM UInt16 := UInt16.ofNat <$> takeLe 2

def readArgument : BcsM SuiArgument := do
  let tag ← uleb128
  if tag = 1 then .input <$> readU16 else if tag = 2 then .result <$> readU16 else Reader.fail unreadable

def readMoveCall : BcsM SuiMoveCall := do
  readTag 0
  let package ← address
  let module ← readString
  let function ← readString
  readTag 0
  let arguments ← readVec readArgument
  pure { package, module, function, arguments }

def readTransactionKind : BcsM (List SuiCallArg × List SuiMoveCall) := do
  readTag 0
  let inputs ← readVec readCallArg
  let commands ← readVec readMoveCall
  pure (inputs, commands)

def decodeSuiTransactionKind (bytes : List UInt8) : Exec AppCoreError (List SuiCallArg × List SuiMoveCall) := do
  let (kind, reader) ← readTransactionKind ⟨bytes, 0⟩
  if reader.offset = bytes.length then return kind else Exec.err unreadable

/-! ## What is written is read -/

theorem takes_uleb128 (v : UInt64) : Takes uleb128 v (writeUleb128 v) := by
  rw [writeUleb128_eq]
  have hlt : v.toNat < 128 ^ (9 + 1) := v.toNat_lt.trans (by decide)
  refine Reads.takes reads_uleb128 ⟨terminated_encode _, length_encode_le hlt, ?_⟩
  rw [value_encode, Nat.mod_eq_of_lt v.toNat_lt]

theorem takes_len {n : Nat} (h : n ≤ usizeMax) : Takes uleb128 (UInt64.ofNat n) (writeLen n) ∧
    (UInt64.ofNat n).toNat = n :=
  ⟨takes_uleb128 _, UInt64.toNat_ofNat_of_lt' (Nat.lt_of_le_of_lt h (by decide))⟩

theorem takes_tag (tag : UInt64) : Takes (readTag tag) () (writeUleb128 tag) :=
  (takes_uleb128 tag).then (if_pos rfl)

theorem takes_bytes {bytes : List UInt8} (h : bytes.length ≤ usizeMax) :
    Takes readBytes bytes (writeLen bytes.length ++ bytes) := by
  obtain ⟨hlen, hto⟩ := takes_len h
  exact hlen.bind (Reads.takes (reads_take _) ⟨rfl, hto.symm⟩)

theorem takes_vec {α : Type} {item : BcsM α} {enc : α → List UInt8} {l : List α} (h : ∀ a ∈ l, Takes item a (enc a))
    (hl : l.length ≤ usizeMax) : Takes (readVec item) l (writeLen l.length ++ l.flatMap enc) := by
  obtain ⟨hlen, hto⟩ := takes_len hl
  refine hlen.bind ?_
  rw [hto]
  exact Takes.times h

theorem fromUTF8_utf8 (text : String) : String.fromUTF8? (ByteArray.mk (utf8 text).toArray) = .some text := by
  have harray : ByteArray.mk (utf8 text).toArray = text.toByteArray := rfl
  rw [harray, String.fromUTF8?, dif_pos text.isValidUTF8]
  rfl

theorem takes_string {text : String} (h : (utf8 text).length ≤ usizeMax) : Takes readString text (writeString text) :=
  (takes_bytes h).then (by rw [fromUTF8_utf8])

theorem takes_byte (byte : UInt8) : Takes takeByte byte [byte] := Reads.takes reads_takeByte rfl

theorem takes_bool (b : Bool) : Takes readBool b [if b then 1 else 0] :=
  (takes_byte _).then (by cases b <;> rfl)

theorem takes_address (a : Bytes 32) : Takes address a a.val := Reads.takes reads_address rfl

theorem takes_u64Le (v : UInt64) : Takes u64Le v (leBytes 8 v.toNat) := Reads.takes reads_u64Le rfl

theorem takes_u16 (v : UInt16) : Takes readU16 v (leBytes 2 v.toNat) := by
  have htake := (Reads.takes (reads_takeLe 2) (b := v.toNat) ⟨v.toNat_lt, rfl⟩).map (f := UInt16.ofNat)
  rwa [UInt16.ofNat_toNat] at htake

theorem takes_shared (object : SuiSharedObject) : Takes readShared object (writeUleb128 1 ++ (object.objectId.val ++
    (leBytes 8 object.initialSharedVersion.toNat ++ [if object.mutable then 1 else 0]))) :=
  (takes_tag 1).bind ((takes_address _).bind ((takes_u64Le _).bind ((takes_bool _).then rfl)))

theorem takes_callArg {arg : SuiCallArg} (h : (writeCallArg arg).length ≤ usizeMax) :
    Takes readCallArg arg (writeCallArg arg) := by
  cases arg with
  | pure bytes =>
    have hlen : bytes.length ≤ usizeMax := by
      simp only [writeCallArg, List.length_append] at h
      omega
    rw [writeCallArg, List.append_assoc]
    refine (takes_uleb128 0).bind ?_
    rw [if_pos rfl]
    exact (takes_bytes hlen).map
  | shared object =>
    rw [writeCallArg, List.append_assoc, List.append_assoc, List.append_assoc]
    refine (takes_uleb128 1).bind ?_
    rw [if_neg (by decide), if_pos rfl]
    exact (takes_shared object).map

theorem takes_argument (argument : SuiArgument) : Takes readArgument argument (writeArgument argument) := by
  cases argument with
  | input index =>
    refine (takes_uleb128 1).bind ?_
    rw [if_pos rfl]
    exact (takes_u16 index).map
  | result index =>
    refine (takes_uleb128 2).bind ?_
    rw [if_neg (by decide), if_pos rfl]
    exact (takes_u16 index).map

/-! ## Lists -/

theorem length_le_flatMap {α : Type} {enc : α → List UInt8} {l : List α} (h : ∀ a, 0 < (enc a).length) :
    l.length ≤ (l.flatMap enc).length := by
  induction l with
  | nil => simp
  | cons a l ih =>
    have := h a
    rw [List.flatMap_cons, List.length_cons, List.length_append]
    omega

theorem length_mem_flatMap {α : Type} {enc : α → List UInt8} {l : List α} {a : α} (h : a ∈ l) :
    (enc a).length ≤ (l.flatMap enc).length := by
  obtain ⟨before, after, rfl⟩ := List.append_of_mem h
  simp only [List.flatMap_append, List.flatMap_cons, List.length_append]
  omega

theorem length_writeUleb128 (v : UInt64) : 0 < (writeUleb128 v).length := by
  rw [writeUleb128_eq]
  exact (terminated_encode _).length_pos

theorem length_writeCallArg (arg : SuiCallArg) : 0 < (writeCallArg arg).length := by
  have h0 := length_writeUleb128 0
  have h1 := length_writeUleb128 1
  cases arg <;> simp only [writeCallArg, List.length_append] <;> omega

theorem length_writeArgument (argument : SuiArgument) : 0 < (writeArgument argument).length := by
  have h1 := length_writeUleb128 1
  have h2 := length_writeUleb128 2
  cases argument <;> simp only [writeArgument, List.length_append] <;> omega

theorem length_writeMoveCall (command : SuiMoveCall) : 0 < (writeMoveCall command).length := by
  have h0 := length_writeUleb128 0
  simp only [writeMoveCall, List.length_append]
  omega

theorem takes_moveCall {command : SuiMoveCall} (h : (writeMoveCall command).length ≤ usizeMax) :
    Takes readMoveCall command (writeMoveCall command) := by
  have harguments := length_le_flatMap (l := command.arguments) length_writeArgument
  simp only [writeMoveCall, writeString, List.length_append] at h
  simp only [writeMoveCall, List.append_assoc]
  refine (takes_tag 0).bind ((takes_address _).bind ((takes_string ?_).bind ((takes_string ?_).bind
    ((takes_tag 0).bind ((takes_vec (fun argument _ => takes_argument argument) ?_).then rfl)))))
  all_goals omega

theorem takes_transactionKind {inputs : List SuiCallArg} {commands : List SuiMoveCall}
    (h : (encodeSuiTransactionKind inputs commands).length ≤ usizeMax) :
    Takes readTransactionKind (inputs, commands) (encodeSuiTransactionKind inputs commands) := by
  have hinputs := length_le_flatMap (l := inputs) length_writeCallArg
  have hcommands := length_le_flatMap (l := commands) length_writeMoveCall
  simp only [encodeSuiTransactionKind, List.length_append] at h
  have hinput : ∀ arg ∈ inputs, Takes readCallArg arg (writeCallArg arg) := fun arg harg => takes_callArg (by
    have : (writeCallArg arg).length ≤ _ := length_mem_flatMap harg
    omega)
  have hcommand : ∀ command ∈ commands, Takes readMoveCall command (writeMoveCall command) := fun command hc =>
    takes_moveCall (by
      have : (writeMoveCall command).length ≤ _ := length_mem_flatMap hc
      omega)
  simp only [encodeSuiTransactionKind, List.append_assoc]
  refine (takes_tag 0).bind ?_
  rw [← List.append_assoc]
  exact (takes_vec hinput (by omega)).bind ((takes_vec hcommand (by omega)).then rfl)

theorem decode_encode {inputs : List SuiCallArg} {commands : List SuiMoveCall}
    (h : (encodeSuiTransactionKind inputs commands).length ≤ usizeMax) :
    decodeSuiTransactionKind (encodeSuiTransactionKind inputs commands) = .ok (inputs, commands) := by
  have hread := (takes_transactionKind h).whole [] (by rwa [List.append_nil])
  rw [List.append_nil] at hread
  rw [decodeSuiTransactionKind, hread, Exec.ok_bind]
  exact if_pos rfl

/-- **Decoding undoes encoding**, so no other inputs and commands give the same
bytes, and `uleb128` reads back what `write_uleb128` wrote and no more, whatever
follows. The byte strings are held in memory, as a `Vec<u8>` is: none is longer
than a `usize` counts. -/
theorem encodeSuiTransactionKind_unambiguous :
    (∀ (inputs : List SuiCallArg) (commands : List SuiMoveCall),
      (encodeSuiTransactionKind inputs commands).length ≤ usizeMax →
        decodeSuiTransactionKind (encodeSuiTransactionKind inputs commands) = .ok (inputs, commands) ∧
        ∀ (inputs' : List SuiCallArg) (commands' : List SuiMoveCall),
          encodeSuiTransactionKind inputs' commands' = encodeSuiTransactionKind inputs commands →
            inputs' = inputs ∧ commands' = commands) ∧
    ∀ (v : UInt64) (suffix : List UInt8), (writeUleb128 v ++ suffix).length ≤ usizeMax →
      uleb128 ⟨writeUleb128 v ++ suffix, 0⟩ = .ok (v, ⟨writeUleb128 v ++ suffix, (writeUleb128 v).length⟩) := by
  refine ⟨fun inputs commands h => ⟨decode_encode h, fun inputs' commands' heq => ?_⟩,
    fun v suffix h => (takes_uleb128 v).whole suffix h⟩
  have hlen : (encodeSuiTransactionKind inputs' commands').length ≤ usizeMax := by rwa [heq]
  have hdecode := decode_encode hlen
  rw [heq, decode_encode h] at hdecode
  cases hdecode
  exact ⟨rfl, rfl⟩

def pauseCall : SuiMoveCall :=
  { package := ⟨List.replicate 32 7, rfl⟩, module := "uln", function := "pause", arguments := [.input 0] }

theorem encodeSuiTransactionKind_unambiguous_pause :
    decodeSuiTransactionKind (encodeSuiTransactionKind [.pure [1]] [pauseCall]) = .ok ([.pure [1]], [pauseCall]) ∧
      uleb128 ⟨writeUleb128 300 ++ [9], 0⟩ = .ok (300, ⟨writeUleb128 300 ++ [9], (writeUleb128 300).length⟩) :=
  ⟨(encodeSuiTransactionKind_unambiguous.1 _ _ (by decide +kernel)).1,
    encodeSuiTransactionKind_unambiguous.2 300 [9] (by decide +kernel)⟩

end Pillar.SuiBcs
