/-
BCS of a Sui or IOTA transaction kind, and of the receive config its views
return (`pillar-layerzero`, `sui_bcs.rs`): lengths and tags as ULEB128, integers
least significant byte first.
-/
import Pillar.Abi
import Pillar.Cursor

namespace Pillar.SuiBcs

open Bits Abi

structure SuiSharedObject where
  objectId : Bytes 32
  initialSharedVersion : UInt64
  mutable : Bool
  deriving DecidableEq

inductive SuiCallArg where
  | pure (bytes : List UInt8)
  | shared (object : SuiSharedObject)
  deriving DecidableEq

inductive SuiArgument where
  | input (index : UInt16)
  | result (index : UInt16)
  deriving DecidableEq

structure SuiMoveCall where
  package : Bytes 32
  module : String
  function : String
  arguments : List SuiArgument
  deriving DecidableEq

/-! ## Writing -/

/-- `to_le_bytes`, of a value that fits. -/
def leBytes (n value : Nat) : List UInt8 := (beBytes n value).val.reverse

/-- What is pushed. -/
def writeUleb128 (value : UInt64) : List UInt8 :=
  let byte := (value &&& 0x7f).toUInt8
  if _h : value >>> 7 = 0 then [byte] else (byte ||| 0x80) :: writeUleb128 (value >>> 7)
termination_by value.toNat
decreasing_by
  rw [UInt64.toNat_shiftRight]
  have hne : value.toNat ≠ 0 := fun hz => _h (by rw [UInt64.toNat_inj.mp (hz.trans UInt64.toNat_zero.symm)]; rfl)
  have hshift : value.toNat >>> ((7 : UInt64).toNat % 64) = value.toNat / 128 := Nat.shiftRight_eq_div_pow _ 7
  omega

/-- `write_uleb128(out, len as u64)`. -/
def writeLen (len : Nat) : List UInt8 := writeUleb128 (UInt64.ofNat len)

def utf8 (text : String) : List UInt8 := text.toUTF8.data.toList

def writeString (value : String) : List UInt8 := writeLen (utf8 value).length ++ utf8 value

def writeCallArg : SuiCallArg → List UInt8
  | .pure bytes => writeUleb128 0 ++ writeLen bytes.length ++ bytes
  | .shared object => writeUleb128 1 ++ writeUleb128 1 ++ object.objectId.val ++
      leBytes 8 object.initialSharedVersion.toNat ++ [if object.mutable then 1 else 0]

def writeArgument : SuiArgument → List UInt8
  | .input index => writeUleb128 1 ++ leBytes 2 index.toNat
  | .result index => writeUleb128 2 ++ leBytes 2 index.toNat

/-- One turn of the loop over the commands. -/
def writeMoveCall (command : SuiMoveCall) : List UInt8 :=
  writeUleb128 0 ++ command.package.val ++ writeString command.module ++ writeString command.function ++
    writeUleb128 0 ++ writeLen command.arguments.length ++ command.arguments.flatMap writeArgument

def encodeSuiTransactionKind (inputs : List SuiCallArg) (commands : List SuiMoveCall) : List UInt8 :=
  writeUleb128 0 ++ writeLen inputs.length ++ inputs.flatMap writeCallArg ++ writeLen commands.length ++
    commands.flatMap writeMoveCall

/-! ## Reading -/

structure SuiUlnConfig where
  confirmations : UInt64
  requiredDvns : List (Bytes 32)
  optionalDvns : List (Bytes 32)
  optionalDvnThreshold : UInt8
  deriving DecidableEq

abbrev BcsM (α : Type) := Reader UInt8 AppCoreError α

def overrun : AppCoreError := .internal "Sui BCS value ended early"

def take (len : Nat) : BcsM (List UInt8) := fun c =>
  match checkedAdd c.offset len with
  | .none => Exec.err overrun
  | .some stop =>
    if stop ≤ c.items.length then .ok ((c.items.drop c.offset).take len, { c with offset := stop })
    else Exec.err overrun

/-- `*self.take(1)?.first().ok_or_else(overrun)?`. -/
def takeByte : BcsM UInt8 := do
  let bytes ← take 1
  match bytes.head? with
  | .some byte => pure byte
  | .none => Reader.fail overrun

/-- The loop of `uleb128`, with the groups below `shift` in `result`. -/
def uleb128From (result : UInt64) (shift : Nat) : BcsM UInt64 := do
  let byte ← takeByte
  -- `checked_shl` refuses a shift of 64 or more, and drops the bits that a smaller one shifts out.
  if _h : 64 ≤ shift then Reader.fail (.internal "Sui BCS ULEB overflow")
  else
    let result := result ||| ((byte &&& 0x7f).toUInt64 <<< UInt64.ofNat shift)
    if byte &&& 0x80 = 0 then pure result else uleb128From result (shift + 7)
termination_by 64 - shift

def uleb128 : BcsM UInt64 := uleb128From 0 0

/-- `from_le_bytes(self.take(n)?.try_into()?)`. -/
def takeLe (n : Nat) : BcsM Nat := do
  let bytes ← take n
  if bytes.length ≠ n then Reader.fail overrun else pure (ofBytes bytes.reverse)

def u64Le : BcsM UInt64 := UInt64.ofNat <$> takeLe 8

def address : BcsM (Bytes 32) := do
  let bytes ← take 32
  if h : bytes.length = 32 then pure ⟨bytes, h⟩ else Reader.fail overrun

def addressVec : BcsM (List (Bytes 32)) := do
  let len ← uleb128
  address.times len.toNat

def ulnConfig : BcsM SuiUlnConfig := do
  let confirmations ← u64Le
  let requiredDvns ← addressVec
  let optionalDvns ← addressVec
  let optionalDvnThreshold ← takeByte
  pure { confirmations, requiredDvns, optionalDvns, optionalDvnThreshold }

def decodeSuiUlnConfig (bytes : List UInt8) : Exec AppCoreError SuiUlnConfig := do
  let (config, reader) ← ulnConfig ⟨bytes, 0⟩
  if reader.offset ≠ bytes.length then Exec.err (.internal "trailing bytes after BCS UlnConfig") else return config

end Pillar.SuiBcs
