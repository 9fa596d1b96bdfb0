/-
What an EVM call carries (`pillar-layerzero`, `abi.rs`, `abi/encode.rs`):
hexadecimal values, words of thirty-two bytes, the calldata of `verify`, and
the bytes a DVN signs.
-/
import Pillar.Core
import Pillar.Bits
import Pillar.Hex

namespace Pillar.Abi

open Bits Hex Text

/-- `[u8; N]`. -/
abbrev Bytes (n : Nat) := { bytes : List UInt8 // bytes.length = n }

@[simp] theorem Bytes.length_val {n : Nat} (b : Bytes n) : b.val.length = n := b.property

theorem Bytes.length_zeros : (List.replicate 32 (0 : UInt8)).length = 32 := rfl

theorem Bytes.length_padded {bytes : List UInt8} (h : ¬bytes.length > 32) :
    (List.replicate (32 - bytes.length) 0 ++ bytes).length = 32 := by
  rw [List.length_append, List.length_replicate]
  omega

/-- Arrays of one length, each in front of a rest. -/
theorem Bytes.append_inj {n : Nat} {a b : Bytes n} {rest rest' : List UInt8} (h : a.val ++ rest = b.val ++ rest') :
    a = b ∧ rest = rest' := by
  obtain ⟨hval, hrest⟩ := List.append_inj h (a.length_val.trans b.length_val.symm)
  exact ⟨Subtype.ext hval, hrest⟩

/-- `map_err(|error| AppCoreError::Internal(error.to_string()))`. -/
def orInternal {α : Type} : Except String α → Exec AppCoreError α
  | .ok a => .ok a
  | .error e => Exec.err (.internal e)

@[simp] theorem orInternal_ok {α : Type} (a : α) : orInternal (.ok a) = .ok a := rfl

/-- `to_be_bytes`, of a value that fits. -/
def beBytes (n value : Nat) : Bytes n := ⟨bytesOf n value, length_bytesOf n value⟩

section

variable (hex : HexCrate)

def decodeHexBytes (value : String) : Exec AppCoreError (List UInt8) :=
  let value := (stripPrefix "0x" value).getD value
  if value.utf8ByteSize % 2 = 0 then orInternal (hex.decode value) else orInternal (hex.decode ("0" ++ value))

/-- A hexadecimal value of exactly `n` bytes. -/
def decodeHexArray (n : Nat) (noun value : String) : Exec AppCoreError (Bytes n) := do
  let bytes ← decodeHexBytes hex value
  if h : bytes.length = n then .ok ⟨bytes, h⟩
  else Exec.err (.internal s!"invalid {noun} length: {bytes.length}")

def decodeHex20 (value : String) : Exec AppCoreError (Bytes 20) := decodeHexArray hex 20 "address" value

def decodeHex32 (value : String) : Exec AppCoreError (Bytes 32) := decodeHexArray hex 32 "bytes32" value

def addressToBytes32 (value : String) : Exec AppCoreError (Bytes 32) := do
  let bytes ← decodeHexBytes hex value
  if h : bytes.length > 32 then Exec.err (.internal s!"invalid address length: {bytes.length}")
  else .ok ⟨List.replicate (32 - bytes.length) 0 ++ bytes, Bytes.length_padded h⟩

/-- `bs58` is `bs58::decode(..).into_vec()`. -/
def nativeAddressToBytes32 (bs58 : String → Except String (List UInt8)) (value : String) :
    Exec AppCoreError (Bytes 32) :=
  (addressToBytes32 hex value).orElse do
    let bytes ← orInternal (bs58 value)
    if h : bytes.length = 32 then .ok ⟨bytes, h⟩
    else Exec.err (.internal s!"invalid address length: {bytes.length}")

/-! ## Words -/

def solidityUint256 (value : UInt64) : Bytes 32 := 
  ⟨List.replicate 24 0 ++ (beBytes 8 value.toNat).val, by simp [beBytes]⟩

def solidityDynamicBytes (value : String) : Exec AppCoreError (List UInt8) := do
  let bytes ← decodeHexBytes hex value
  let padding := (32 - bytes.length % 32) % 32
  .ok ((solidityUint256 (UInt64.ofNat bytes.length)).val ++ bytes ++ List.replicate padding 0)

def encodeVerifyBytesBytes32U64 (selector : Bytes 4) (bytesValue bytes32Value : String) (uint64Value : UInt64) :
    Exec AppCoreError String := do
  let out := selector.val ++ (solidityUint256 96).val
  let bytes32 ← decodeHex32 hex bytes32Value
  let out := out ++ bytes32.val ++ (solidityUint256 uint64Value).val
  let bytes ← solidityDynamicBytes hex bytesValue
  .ok ("0x" ++ hex.encode (out ++ bytes))

def encodeVerifyBytesBytes32Bytes32 (selector : Bytes 4) (bytesValue bytes32Value secondBytes32Value : String) :
    Exec AppCoreError String := do
  let out := selector.val ++ (solidityUint256 96).val
  let bytes32 ← decodeHex32 hex bytes32Value
  let second ← decodeHex32 hex secondBytes32Value
  let out := out ++ bytes32.val ++ second.val
  let bytes ← solidityDynamicBytes hex bytesValue
  .ok ("0x" ++ hex.encode (out ++ bytes))

/-- The optional verifier id in front of what a DVN signs. -/
def packVid (vId : String) : Exec AppCoreError (List UInt8) :=
  if vId.isEmpty then .ok []
  else
    match parse 32 vId with
    | .ok vid => .ok (beBytes 4 vid).val
    | .error error => Exec.err (.internal error.display)

def packDvnCallData (target callData : String) (expiration : UInt64) (vId : String) :
    Exec AppCoreError (List UInt8) := do
  let out ← packVid vId
  let target ← decodeHex20 hex target
  let callData ← decodeHexBytes hex callData
  .ok (out ++ target.val ++ (solidityUint256 expiration).val ++ callData)

/-! ## Decoding -/

def abiHeadStart (data : List UInt8) (index headWords : Nat) : Exec AppCoreError Nat :=
  if index ≥ headWords then Exec.err (.internal "ABI head index out of range")
  else do
    let minLen ← Exec.get (checkedMul headWords 32)
    if data.length < minLen then Exec.err (.internal "ABI data shorter than head") else .ok (index * 32)

def abiWordValue (word : List UInt8) : Exec AppCoreError Nat :=
  if word.length ≠ 32 then Exec.err (.internal "ABI word must be 32 bytes")
  else do
    let high ← Exec.slice word 0 16
    if high.any (· ≠ 0) then Exec.err (.internal "ABI word exceeds u128")
    else
      let low ← Exec.slice word 16 32
      .ok (ofBytes low)

def abiWordUsize (data : List UInt8) (index headWords : Nat) : Exec AppCoreError Nat := do
  let start ← abiHeadStart data index headWords
  let word ← Exec.slice data start (start + 32)
  let value ← abiWordValue word
  if value > usizeMax then Exec.err (.internal "ABI word overflows usize") else .ok value

/-- The bytes whose length stands in front of `start`. -/
def abiBody (data : List UInt8) (offset start : Nat) : Exec AppCoreError (List UInt8) := do
  let word ← Exec.slice data offset start
  let len ← abiWordValue word
  if len > usizeMax then Exec.err (.internal "dynamic bytes length overflows usize")
  else
    match (checkedAdd start len).filter (· ≤ data.length) with
    | .none => Exec.err (.internal "dynamic bytes body out of range")
    | .some stop => Exec.slice data start stop

def abiDynamicBytes (data : List UInt8) (index headWords : Nat) : Exec AppCoreError (List UInt8) := do
  let offset ← abiWordUsize data index headWords
  match (checkedAdd offset 32).filter (· ≤ data.length) with
  | .none => Exec.err (.internal "dynamic bytes offset out of range")
  | .some start => abiBody data offset start

def abiAddress (data : List UInt8) (index headWords : Nat) : Exec AppCoreError String := do
  let start ← abiHeadStart data index headWords
  let word ← Exec.slice data start (start + 32)
  let address ← Exec.slice word 12 word.length
  .ok ("0x" ++ hex.encode address)

end

end Pillar.Abi
