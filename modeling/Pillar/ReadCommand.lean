/-
The read command (`pillar-layerzero`, `read_v1002/command.rs`): a cursor over
its bytes, and the decoders of its parts.
-/
import Pillar.Abi
import Pillar.Cursor

namespace Pillar.Read

open Bits Hex Abi

inductive ReadTimeMarker where
  | timestamp (timestamp : UInt64)
  | blockNumber (blockNumber : UInt64)
  deriving Repr, DecidableEq

structure EvmReadRequest where
  request : String
  targetEid : UInt32
  marker : ReadTimeMarker
  blockConfirmation : UInt16
  /-- `to`. -/
  toAddress : String
  calldata : String
  deriving Repr, DecidableEq

inductive EvmReadComputeSetting where
  | onlyMap
  | onlyReduce
  | mapReduce
  deriving Repr, DecidableEq

structure EvmReadCompute where
  targetEid : UInt32
  marker : ReadTimeMarker
  blockConfirmation : UInt16
  /-- `to`. -/
  toAddress : String
  setting : EvmReadComputeSetting
  deriving Repr, DecidableEq

structure EvmReadCommand where
  globalVersion : UInt16
  appCommandLabel : String
  requests : List EvmReadRequest
  compute : Option EvmReadCompute
  deriving Repr, DecidableEq

def maxReadRequests : UInt16 := 256
def cmdVersion : UInt16 := 1
def requestVersion : UInt8 := 1
def computeVersion : UInt8 := 1

abbrev ReadM (α : Type) := Reader UInt8 AppCoreError α

/-- `Err(malformed(message))`. -/
def malformed {α : Type} (message : String) : ReadM α := Reader.fail (.badRequest message)

/-! ## `ReadCursor` -/

def readBytes (len : Nat) : ReadM (List UInt8) := fun c =>
  match checkedAdd c.offset len with
  | .none => malformed "read cursor overflow" c
  | .some stop =>
    if stop > c.items.length then malformed "read command ended unexpectedly" c
    else do
      let out ← Exec.slice c.items c.offset stop
      .ok (out, { c with offset := stop })

def readU8 : ReadM UInt8 := do
  let bytes ← readBytes 1
  Reader.call (Exec.get bytes[0]?)

/-- `from_be_bytes(bytes.try_into()?)`, of `n` bytes. -/
def readBe (n : Nat) (error : String) : ReadM Nat := do
  let bytes ← readBytes n
  if bytes.length ≠ n then malformed error else pure (ofBytes bytes)

def readU16 : ReadM UInt16 := UInt16.ofNat <$> readBe 2 "invalid u16"
def readU32 : ReadM UInt32 := UInt32.ofNat <$> readBe 4 "invalid u32"
def readU64 : ReadM UInt64 := UInt64.ofNat <$> readBe 8 "invalid u64"

variable (hex : HexCrate)

def readHex (len : Nat) : ReadM String := hex.encode <$> readBytes len

/-! ## Decoders -/

def decodeMarker (flag : UInt8) : ReadM ReadTimeMarker :=
  if flag = 0 then .timestamp <$> readU64
  else if flag = 1 then .blockNumber <$> readU64
  else malformed s!"Unsupported timestamp block flag: {flag}"

def decodeEvmReadBase : ReadM (UInt32 × ReadTimeMarker × UInt16 × String) := do
  let targetEid ← readU32
  let flag ← readU8
  let marker ← decodeMarker flag
  let blockConfirmation ← readU16
  let toAddress ← readHex hex 20
  pure (targetEid, marker, blockConfirmation, "0x" ++ toAddress)

/-- The rest of a request whose size is `requestSize`, from its base on. -/
def decodeRequestBody (requestStart requestSize : Nat) : ReadM EvmReadRequest := do
  let bodyStart ← Reader.position
  let (targetEid, marker, blockConfirmation, toAddress) ← decodeEvmReadBase hex
  let position ← Reader.position
  let consumed ← Reader.call (Exec.sub position bodyStart)
  if requestSize < consumed then malformed "Read request size is shorter than EVM base"
  else
    let calldata ← readHex hex (requestSize - consumed)
    let raw ← Reader.since requestStart
    pure
      { request := "0x" ++ hex.encode raw
        targetEid
        marker
        blockConfirmation
        toAddress
        calldata := "0x" ++ calldata }

def decodeEvmReadRequest : ReadM EvmReadRequest := do
  let requestStart ← Reader.position
  let version ← readU8
  if version ≠ requestVersion then malformed s!"Unsupported READ request version: {version}"
  else
    let _appRequestLabel ← readHex hex 2
    let resolverType ← readU16
    if resolverType ≠ 1 then malformed s!"Unsupported resolver type: {resolverType}"
    else
      let requestSize ← readU16
      decodeRequestBody hex requestStart requestSize.toNat

def decodeSetting (value : UInt8) : ReadM EvmReadComputeSetting :=
  if value = 0 then pure .onlyMap
  else if value = 1 then pure .onlyReduce
  else if value = 2 then pure .mapReduce
  else malformed s!"Unsupported compute setting: {value}"

def decodeEvmReadCompute : ReadM EvmReadCompute := do
  let version ← readU8
  if version ≠ computeVersion then malformed s!"Unsupported READ compute version: {version}"
  else
    let computeType ← readU16
    if computeType ≠ 1 then malformed s!"Unsupported compute type: {computeType}"
    else
      let value ← readU8
      let setting ← decodeSetting value
      let (targetEid, marker, blockConfirmation, toAddress) ← decodeEvmReadBase hex
      pure { targetEid, marker, blockConfirmation, toAddress, setting }

/-- The optional compute: there is one if bytes are left. -/
def decodeCompute : ReadM (Option EvmReadCompute) := do
  let left ← Reader.remaining
  if left > 0 then .some <$> decodeEvmReadCompute hex else pure .none

def decodeCommand : ReadM EvmReadCommand := do
  let globalVersion ← readU16
  if globalVersion ≠ cmdVersion then malformed s!"Unsupported READ command version: {globalVersion}"
  else
    let appCommandLabel ← readHex hex 2
    let requestCount ← readU16
    if requestCount > maxReadRequests then
      malformed s!"read request count {requestCount} exceeds limit {maxReadRequests}"
    else if requestCount = 0 then malformed "READ command must contain at least one request"
    else
      let requests ← (decodeEvmReadRequest hex).times requestCount.toNat
      let compute ← decodeCompute hex
      let left ← Reader.remaining
      if left ≠ 0 then malformed "Trailing bytes in read command"
      else pure { globalVersion, appCommandLabel, requests, compute }

def decodeEvmReadCommand (cmd : String) : Exec AppCoreError EvmReadCommand :=
  match decodeHexBytes hex cmd with
  | .error (.err error) => Exec.err (.badRequest error.display)
  | .error halt => .error halt
  | .ok bytes => do
    let (command, _) ← decodeCommand hex ⟨bytes, 0⟩
    .ok command

end Pillar.Read
