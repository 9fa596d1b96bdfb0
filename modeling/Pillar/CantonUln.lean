/-
What Canton's message library requires and whether it has a payload
(`pillar-runtime`, `canton_sequencer.rs`): the confirmations as JavaScript reads
them, the DVN's own record, and the state of the verification.

A whole number of confirmations is read exactly only where the DVN has a record:
elsewhere the double is cast, whatever it is.
-/
import Pillar.JsBigInt
import Pillar.PayloadSigned

namespace Pillar.Canton

open Text Hex
open Packet (computeLzPacketV1Proof)
open PacketSent (LzSentEvent)
open PayloadSigned (packetFromEvent pathwayExtraStringValue)

/-! ## JavaScript's conversions -/

/-- `as u64`: not a number is zero, and what is out of range is the nearest end. -/
def castU64 : Double → Nat
  | .nan => 0
  | .inf negative => if negative then 0 else 2 ^ 64 - 1
  | .finite q => min ⌊q⌋.toNat (2 ^ 64 - 1)

section
variable (jsNumber : JsonNumber → String) (jsNumberF64 : Double → String)

mutual

/-- `String(value)`. -/
def jsValueToString : Json → String
  | .null => "null"
  | .array items => ",".intercalate (jsItemStrings items)
  | .object _ => "[object Object]"
  | .number number => jsNumber number
  | .bool flag => if flag then "true" else "false"
  | .string text => text

def jsItemStrings : List Json → List String
  | [] => []
  | item :: items => (match item with
    | .null => ""
    | item => jsValueToString item) :: jsItemStrings items

end

mutual

def jsValueToStringSize (limit : Nat) : Json → Option Nat
  | .null => .some 4
  | .bool flag => .some (if flag then 4 else 5)
  | .number number => .some (jsNumber number).utf8ByteSize
  | .string text => .some text.utf8ByteSize
  | .object _ => .some "[object Object]".utf8ByteSize
  | .array items => jsItemsSize limit items (items.length - 1)

def jsItemsSize (limit : Nat) : List Json → Nat → Option Nat
  | [], size => .some size
  | item :: items, size => do
    let size ← match item with
      | .null => .some size
      | item => (jsValueToStringSize limit item).bind (checkedAdd size)
    if size > limit then .none else jsItemsSize limit items size

end

/-- `Number(value)`. -/
def jsValueToNumber : Json → Double
  | .null => .finite 0
  | .bool flag => .finite (if flag then 1 else 0)
  | .number number => number.asF64
  | .string text => jsStringToNumber text
  | .array items => jsStringToNumber (jsValueToString jsNumber (.array items))
  | .object _ => .nan

/-- `BigInt(text)`, refused with the text. -/
def bigintOf (text : String) : Exec String JsBigInt := do
  match ← JsBigInt.parse text with
  | .some n => return n
  | .none => Exec.err ("Cannot convert " ++ text ++ " to a BigInt")

def jsF64ToBigint (float : Double) : Exec String JsBigInt :=
  match float with
  | .finite q =>
    if (⌊q⌋ : ℚ) = q then bigintOf (toString ⌊q⌋)
    else Exec.err ("The number " ++ jsNumberF64 float ++
      " cannot be converted to a BigInt because it is not an integer")
  | float => Exec.err ("The number " ++ jsNumberF64 float ++
      " cannot be converted to a BigInt because it is not an integer")

/-- `BigInt(value)`. -/
def jsValueToBigint (value : Json) : Exec String JsBigInt :=
  match value with
  | .bool flag => do Exec.get (← JsBigInt.parse (if flag then "1" else "0"))
  | .number number => jsF64ToBigint jsNumberF64 number.asF64
  | .string text =>
    if text.utf8ByteSize > maxJsBigintInputBytes then Exec.err "Cannot convert oversized value to a BigInt"
    else bigintOf text
  | .null => Exec.err "Cannot convert null to a BigInt"
  | value =>
    if (jsValueToStringSize jsNumber maxJsBigintInputBytes value).all (· > maxJsBigintInputBytes) then
      Exec.err "Cannot convert oversized value to a BigInt"
    else bigintOf (jsValueToString jsNumber value)

def isTruthy : Option Json → Bool
  | .none => false
  | .some .null => false
  | .some (.bool flag) => flag
  | .some (.number number) => number.asF64 ≠ .finite 0
  | .some (.string text) => !text.isEmpty
  | .some _ => true

def propertyOf (value : Option Json) (key : String) : Except String (Option Json) :=
  match value with
  | .none => .error ("Cannot read properties of undefined (reading '" ++ key ++ "')")
  | .some .null => .error ("Cannot read properties of null (reading '" ++ key ++ "')")
  | .some value => .ok (value.get key)

/-! ## The library's answers -/

/-- A list of DVNs, as `.map(d => d.toLowerCase())` reads it. -/
def dvnList (config : Json) (key : String) : Except String Unit :=
  match config.get key with
  | .some (.array items) =>
    match items.find? fun item => item.asStr.isNone with
    | .some .null => .error "Cannot read properties of null (reading 'toLowerCase')"
    | .some _ => .error "d.toLowerCase is not a function"
    | .none => .ok ()
  | _ => .error ("config." ++ key ++ ".map is not a function")

/-- What the confirmations are as a number; not one where there are none. -/
def confirmationsNumber (config : Json) : Double :=
  match config.get "confirmations" with
  | .none => .nan
  | .some value => jsValueToNumber jsNumber value

def ulnConfigConfirmations (config : Json) : Except String Double := do
  let _ ← propertyOf (.some config) "confirmations"
  let _ ← propertyOf (config.get "requiredDvns") "length"
  let _ ← propertyOf (config.get "optionalDvns") "length"
  dvnList config "requiredDvns"
  dvnList config "optionalDvns"
  return confirmationsNumber jsNumber config

def verificationStateIsVerified (state : Double) : Except String Bool :=
  if state = .finite 2 then .ok true
  else if state ∈ [Double.finite 0, .finite 1, .finite 3, .finite 4] then .ok false
  else .error ("Unknown delivery state: " ++ jsNumberF64 state)

/-- `SequencerAnswer<Value>`. -/
inductive SequencerAnswer where
  | ok (value : Json)
  | error

/-- An error of JavaScript's, of a call. -/
def throwInternal {α : Type} : Exec String α → Exec AppCoreError α
  | .ok a => .ok a
  | .error (.err e) => Exec.err (.internal e)
  | .error .panic => .error .panic
  | .error .fuel => .error .fuel

def ofExcept {ε α : Type} : Except ε α → Exec ε α
  | .ok a => .ok a
  | .error e => Exec.err e

/-- `hasPayloadSigned` on the DVN's own record. -/
def dvnConfirmed (requiredConfirmations : Double) (result : Json) : Exec AppCoreError Bool :=
  throwInternal do
    let submitted ← ofExcept (propertyOf (.some result) "submitted")
    if !isTruthy submitted then return false
    else
      let confirmations ← (result.get "confirmations").elim (Exec.err "Cannot convert undefined to a BigInt")
        (jsValueToBigint jsNumber jsNumberF64)
      let required ← jsF64ToBigint jsNumberF64 requiredConfirmations
      return confirmations.ge required

def verified (state : Json) : Exec AppCoreError Bool :=
  throwInternal (ofExcept (verificationStateIsVerified jsNumberF64 (jsValueToNumber jsNumber state)))

end

/-! ## `canton_payload_signed` -/

/-- `CANTON_STATIC_VE3_CONTRACTS[3]`. -/
def cantonUln : String := "0xe981afc41dfa5510e4599ab8544c0c4c240220df62eded320ac87abf471301db"

/-- How numbers and addresses are rendered, and what the sequencer answers to a
read of a contract's function. -/
structure UlnEnv where
  packet : Packet.Crates
  jsNumber : JsonNumber → String
  jsNumberF64 : Double → String
  renderedAddress : String → String → String
  sequencerRead : String → String → String → Json → Exec AppCoreError SequencerAnswer

namespace UlnEnv

variable (env : UlnEnv)

def read (function : String) (arguments : Json) : Exec AppCoreError Json := do
  match ← env.sequencerRead "Uln302" function cantonUln arguments with
  | .ok value => return value
  | .error => Exec.err (.internal ("Sequencer read Uln302." ++ function ++ " failed"))

/-- `tokio::try_join!`: both values, or the error that is there first. -/
def tryJoin {α β : Type} (secondFirst : Bool) (first : Exec AppCoreError α) (second : Exec AppCoreError β) :
    Exec AppCoreError (α × β) :=
  match first, second with
  | .ok a, .ok b => .ok (a, b)
  | .error e, .ok _ => .error e
  | .ok _, .error e => .error e
  | .error e, .error e' => .error (if secondFirst then e' else e)

/-- The argument of the first read: the receiver and the remote endpoint. -/
def configArguments (sentEvent : LzSentEvent) : Except AppCoreError Json := do
  let receiver ← pathwayExtraStringValue sentEvent "receiver"
  let oapp := env.renderedAddress "canton" receiver
  let srcEid := sentEvent.lzMessageId.pathwayId.extra.get "srcEid"
  let srcEid := (srcEid.map (jsValueToString env.jsNumber)).getD "undefined"
  return .object [("oapp", .string oapp), ("remoteEid", .string srcEid)]

def ulnConfig (sentEvent : LzSentEvent) : Exec AppCoreError Json := do
  let arguments ← ofExcept (env.configArguments sentEvent)
  env.read "getUlnConfig" arguments

/-- `trim_start_matches("0x")`. -/
def trimMarks : List Char → List Char
  | '0' :: 'x' :: rest => trimMarks rest
  | text => text

/-- The arguments of the two reads about the packet. -/
def packetArguments (sentEvent : LzSentEvent) (verifierAddress : String) : Exec AppCoreError (Json × Json) := do
  let packet ← ofExcept (packetFromEvent sentEvent)
  let proof ← computeLzPacketV1Proof env.packet packet
  let decoded := env.packet.hex.decode (String.ofList (trimMarks proof.packetHeader.toList))
  let header ← ofExcept (decoded.mapError AppCoreError.internal)
  let headerHash := Packet.keccak256Hex env.packet header
  return (.object [("dvn", .string verifierAddress), ("headerHash", .string headerHash),
      ("payloadHash", .string proof.payloadHash)],
    .object [("packetHeader", .string proof.packetHeader), ("payloadHash", .string proof.payloadHash)])

/-- `canton_payload_signed`; `stateFirst` is whether the state's read fails first where both do. -/
def cantonPayloadSigned (stateFirst : Bool) (sentEvent : LzSentEvent) (verifierAddress : String) :
    Exec AppCoreError (Bool × Nat) := do
  let config ← env.ulnConfig sentEvent
  let requiredConfirmations ← throwInternal (ofExcept (ulnConfigConfirmations env.jsNumber config))
  let (lookupArguments, stateArguments) ← env.packetArguments sentEvent verifierAddress
  let (dvnConfirmed, verified) ← tryJoin stateFirst
    (env.read "getHashLookup" lookupArguments >>= dvnConfirmed env.jsNumber env.jsNumberF64 requiredConfirmations)
    (env.read "getVerificationState" stateArguments >>= verified env.jsNumber env.jsNumberF64)
  return (verified || dvnConfirmed, castU64 requiredConfirmations)

end UlnEnv

end Pillar.Canton
