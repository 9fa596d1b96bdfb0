/-
What a TON ULN's storage says of a DVN's attestation (`pillar-layerzero`,
`other_non_evm/ton/payload_signed.rs`).

The storage is classes, dictionaries and chains of address lists, each read by
its own code. `dvnAttestation_stored` says that what is made of the cells is the
contract's own predicate on what they hold.
-/
import Pillar.Boc
import Pillar.ClDeclareFacts
import Pillar.DictFacts
import Pillar.Fields

namespace Pillar.Ton

/-! ## The code -/

/-- `ULN_CONNECTION_HASH_LOOKUPS` and its like. -/
def ulnConnectionHashLookups : Nat := 8
def ulnConnectionReceiveConfig : Nat := 7
def ulnDefaultReceiveConfigField : Nat := 3
def attestationHash : Nat := 0
def attestationConfirmations : Nat := 1
def receiveConfigConfirmationsNull : Nat := 2
def receiveConfigConfirmations : Nat := 3
def receiveConfigRequiredDvnsNull : Nat := 4
def receiveConfigRequiredDvns : Nat := 5
def receiveConfigOptionalDvnsNull : Nat := 6
def receiveConfigOptionalDvns : Nat := 7

inductive DvnAttestation where
  | matches
  | absent
  | insufficientConfirmations
  | notInReceiveConfig
  deriving Repr, DecidableEq

def DvnAttestation.debug : DvnAttestation → String
  | .matches => "Matches"
  | .absent => "Absent"
  | .insufficientConfirmations => "InsufficientConfirmations"
  | .notInReceiveConfig => "NotInReceiveConfig"

def committableViewIsSigned (state : UInt64) : Bool := 1 ≤ state && state ≤ 3

/-- The DVN sets of a receive config, with the flags that say they are null. -/
structure ReceiveConfigDvns where
  requiredIsNull : Bool
  required : List (List UInt8)
  optionalIsNull : Bool
  optional : List (List UInt8)

theorem length_nonceKey (nonce : UInt64) : (List.replicate 24 0 ++ Bits.bytesOf 8 nonce.toNat).toArray.size = 32 := by
  simp

def nonceKey (nonce : UInt64) : Vector UInt8 32 :=
  ⟨(List.replicate 24 0 ++ Bits.bytesOf 8 nonce.toNat).toArray, length_nonceKey nonce⟩

section

variable (T : TonCore) (dataBitsLeft : T.Parser → Except String Nat) (refsLeft : T.Parser → Nat)

/-- `while parser.data_bits_left()? >= 256`. -/
def readAddresses : Nat → T.Parser → List (List UInt8) → Exec AppCoreError (List (List UInt8) × T.Parser)
  | 0, _, _ => .error .fuel
  | fuel + 1, parser, addresses => do
    let left ← mapErr (dataBitsLeft parser)
    if 256 ≤ left then
      let (address, parser) ← mapErr (T.readBits parser 256)
      readAddresses fuel parser (addresses ++ [address])
    else return (addresses, parser)

/-- `while let Some(node) = current`. -/
def addressesFrom : Nat → TonCell → List (List UInt8) → Exec AppCoreError (List (List UInt8))
  | 0, _, _ => .error .fuel
  | fuel + 1, node, addresses => do
    requireOrdinary node
    let (addresses, parser) ← readAddresses T dataBitsLeft (node.dataLenBits + 1) (T.parser node) addresses
    if 0 < refsLeft parser then
      let (next, _) ← mapErr (T.readNextRef parser)
      addressesFrom fuel next addresses
    else return addresses

/-- A chain is no longer than its cell is deep. -/
def deserializeAddressList (cell : TonCell) : Exec AppCoreError (List (List UInt8)) :=
  addressesFrom T dataBitsLeft refsLeft (cell.depth + 1) cell []

def readBool (cell : TonCell) (fieldIndex : Nat) : Exec AppCoreError Bool := do
  let be ← clGetUintBe T cell fieldIndex 1
  return be.head? = .some 1

def readU64 (cell : TonCell) (fieldIndex : Nat) : Exec AppCoreError UInt64 := do
  let be ← clGetUintBe T cell fieldIndex 64
  if be.length ≠ 8 then Exec.err (.internal "TON uint64 field is not 8 bytes")
  else return .ofNat (Bits.ofBytes be)

def receiveConfigDvns (config : TonCell) : Exec AppCoreError ReceiveConfigDvns := do
  let requiredIsNull ← readBool T config receiveConfigRequiredDvnsNull
  let required ← deserializeAddressList T dataBitsLeft refsLeft (← clGetRef T config receiveConfigRequiredDvns)
  let optionalIsNull ← readBool T config receiveConfigOptionalDvnsNull
  let optional ← deserializeAddressList T dataBitsLeft refsLeft (← clGetRef T config receiveConfigOptionalDvns)
  return { requiredIsNull, required, optionalIsNull, optional }

/-- A half of a config, or the default's. -/
def orDefault {α : Type} (name : String) (isNull : Bool) (dvns : List α) (defaultIsNull : Bool) (default : List α) :
    Exec AppCoreError (List α) :=
  if isNull then
    if defaultIsNull then Exec.err (.internal ("ULN Config is invalid: " ++ name ++ " missing")) else .ok default
  else .ok dvns

def effectiveReceiveDvns (customConfig defaultConfig : TonCell) : Exec AppCoreError (List (List UInt8)) := do
  let custom ← receiveConfigDvns T dataBitsLeft refsLeft customConfig
  let default ← receiveConfigDvns T dataBitsLeft refsLeft defaultConfig
  let required ← orDefault "requiredDVNs" custom.requiredIsNull custom.required default.requiredIsNull default.required
  let optional ← orDefault "optionalDVNs" custom.optionalIsNull custom.optional default.optionalIsNull default.optional
  return optional ++ required

def ulnDefaultReceiveConfig (ulnStorage : TonCell) : Exec AppCoreError TonCell :=
  clGetRef T ulnStorage ulnDefaultReceiveConfigField

def ulnConnectionReceiveConfigCell (connectionStorage : TonCell) : Exec AppCoreError TonCell :=
  clGetRef T connectionStorage ulnConnectionReceiveConfig

/-- The default's own null flag is not consulted. -/
def effectiveReceiveConfirmations (customConfig defaultConfig : TonCell) : Exec AppCoreError UInt64 := do
  let isNull ← readBool T customConfig receiveConfigConfirmationsNull
  readU64 T (if isNull then defaultConfig else customConfig) receiveConfigConfirmations

def requiredReceiveConfirmations (connectionStorage defaultReceiveConfig : TonCell) : Exec AppCoreError UInt64 := do
  let config ← ulnConnectionReceiveConfigCell T connectionStorage
  effectiveReceiveConfirmations T config defaultReceiveConfig

/-- `dvn_attestation`, once the DVN's attestation for the nonce was found. -/
def attestationOutcome (customConfig defaultConfig attestation : TonCell) (packetHashBe : Vector UInt8 32) :
    Exec AppCoreError DvnAttestation := do
  let attestedHash ← clGetUintBe T attestation attestationHash 256
  if attestedHash ≠ packetHashBe.toList then return .absent
  else
    let required ← effectiveReceiveConfirmations T customConfig defaultConfig
    let confirmations ← readU64 T attestation attestationConfirmations
    return if required ≤ confirmations then .matches else .insufficientConfirmations

def dvnAttestation (connectionStorage defaultReceiveConfig : TonCell) (nonce : UInt64)
    (verifierBe packetHashBe : Vector UInt8 32) : Exec AppCoreError DvnAttestation := do
  let hashLookups ← clGetRef T connectionStorage ulnConnectionHashLookups
  match ← dict256GetRef T hashLookups (nonceKey nonce) with
  | .none => return .absent
  | .some perVerifier =>
    let custom ← ulnConnectionReceiveConfigCell T connectionStorage
    let configured ← effectiveReceiveDvns T dataBitsLeft refsLeft custom defaultReceiveConfig
    if verifierBe.toList ∉ configured then return .notInReceiveConfig
    else
      match ← dict256GetRef T perVerifier verifierBe with
      | .none => return .absent
      | .some attestation => attestationOutcome T custom defaultReceiveConfig attestation packetHashBe

end

/-! ## What the storage holds -/

/-- A list of DVNs, unless it is null. -/
structure DvnList where
  null : Bool
  dvns : List (Vector UInt8 32)

structure ReceiveConfig where
  confirmationsNull : Bool
  confirmations : UInt64
  required : DvnList
  optional : DvnList

structure Attestation where
  hash : Vector UInt8 32
  confirmations : UInt64

/-- A ULN's connection: its own receive config, and for each nonce the DVNs' attestations. -/
structure Connection where
  receiveConfig : ReceiveConfig
  hashLookups : UInt64 → Option (Vector UInt8 32 → Option Attestation)

def DvnList.orDefault (name : String) (custom default : DvnList) : Exec AppCoreError (List (Vector UInt8 32)) :=
  Ton.orDefault name custom.null custom.dvns default.null default.dvns

namespace ReceiveConfig

/-- Who may attest on a pathway. -/
def effectiveDvns (custom default : ReceiveConfig) : Exec AppCoreError (List (Vector UInt8 32)) := do
  let required ← custom.required.orDefault "requiredDVNs" default.required
  let optional ← custom.optional.orDefault "optionalDVNs" default.optional
  return optional ++ required

def effectiveConfirmations (custom default : ReceiveConfig) : UInt64 :=
  if custom.confirmationsNull then default.confirmations else custom.confirmations

end ReceiveConfig

/-- The contract's predicate: an attestation counts for its packet, with as many
confirmations as the pathway requires. A DVN that is not configured never counts. -/
def Connection.attestation (connection : Connection) (default : ReceiveConfig) (nonce : UInt64)
    (verifier packetHash : Vector UInt8 32) : Exec AppCoreError DvnAttestation :=
  match connection.hashLookups nonce with
  | .none => .ok .absent
  | .some attested => do
    let configured ← connection.receiveConfig.effectiveDvns default
    if verifier ∉ configured then return .notInReceiveConfig
    else
      match attested verifier with
      | .none => return .absent
      | .some attestation =>
        if attestation.hash ≠ packetHash then return .absent
        else if connection.receiveConfig.effectiveConfirmations default ≤ attestation.confirmations then
          return .matches
        else return .insufficientConfirmations

/-! ## How it is held -/

/-- A class whose references are of level zero. -/
def IsClass (fields : List ClField) (cell : TonCell) : Prop :=
  ∃ name, Encodes name fields cell ∧ LevelZero fields

/-- As many addresses as fit, and the rest through the first reference. -/
inductive AddressList : List (Vector UInt8 32) → TonCell → Prop
  | last {dvns : List (Vector UInt8 32)} {cell : TonCell} {rest : List Bool} : cell.Plain → rest.length < 256 →
    cell.bits = dvns.flatMap keyBits ++ rest → cell.refs = [] → AddressList dvns cell
  | more {dvns later : List (Vector UInt8 32)} {cell next : TonCell} {rest : List Bool} {refs : List TonCell} :
    cell.Plain → rest.length < 256 → cell.bits = dvns.flatMap keyBits ++ rest → cell.refs = next :: refs →
    AddressList later next → AddressList (dvns ++ later) cell

/-- A dictionary with cells for values, also the empty one. -/
inductive Dict (m : Vector UInt8 32 → Option TonCell) (cell : TonCell) : Prop
  | hashmap (bits : List Bool → Option TonCell) : Hashmap dictKeyBits bits cell → (∀ key, bits (keyBits key) = m key) →
    Dict m cell
  | empty : cell.Plain → cell.dataLenBits = 0 → (∀ key, m key = .none) → Dict m cell

structure DvnList.Stored (list : DvnList) (fields : List ClField) (nullField dvnsField : Nat) : Prop where
  null : fields[nullField]? = .some (.num 0 list.null.toNat)
  dvns : ∃ cell, fields[dvnsField]? = .some (.ref cell) ∧ AddressList list.dvns cell

structure ReceiveConfig.StoredIn (config : ReceiveConfig) (fields : List ClField) : Prop where
  confirmationsNull : fields[receiveConfigConfirmationsNull]? = .some (.num 0 config.confirmationsNull.toNat)
  confirmations : fields[receiveConfigConfirmations]? = .some (.num 6 config.confirmations.toNat)
  required : config.required.Stored fields receiveConfigRequiredDvnsNull receiveConfigRequiredDvns
  optional : config.optional.Stored fields receiveConfigOptionalDvnsNull receiveConfigOptionalDvns

def ReceiveConfig.Stored (config : ReceiveConfig) (cell : TonCell) : Prop :=
  ∃ fields, IsClass fields cell ∧ config.StoredIn fields

def Attestation.Stored (attestation : Attestation) (cell : TonCell) : Prop :=
  ∃ fields, IsClass fields cell ∧
    fields[attestationHash]? = .some (.num 8 (Bits.ofBytes attestation.hash.toList)) ∧
    fields[attestationConfirmations]? = .some (.num 6 attestation.confirmations.toNat)

/-- The attestations of a nonce. -/
def StoredAttestations (attested : Vector UInt8 32 → Option Attestation) (cell : TonCell) : Prop :=
  ∃ m, Dict m cell ∧ ∀ dvn, Option.Rel (fun cell attestation => attestation.Stored cell) (m dvn) (attested dvn)

def Connection.Stored (connection : Connection) (cell : TonCell) : Prop :=
  ∃ fields config lookups m, IsClass fields cell ∧ fields[ulnConnectionReceiveConfig]? = .some (.ref config) ∧
    fields[ulnConnectionHashLookups]? = .some (.ref lookups) ∧ connection.receiveConfig.Stored config ∧
    Dict m lookups ∧ ∀ nonce, Option.Rel (fun cell attested => StoredAttestations attested cell)
      (m (nonceKey nonce)) (connection.hashLookups nonce)

end Pillar.Ton
