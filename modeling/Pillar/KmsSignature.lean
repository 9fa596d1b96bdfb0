/-
Signatures of a KMS (`pillar-signer`, `kms_signature.rs`): read in either
encoding, made low, and sent on with the id that recovers the expected key.
-/
import Pillar.Abi
import Pillar.Audit

namespace Pillar.KmsSignature
open Pillar.Abi
open Pillar.Audit (SignerError)

/-! ## The code -/

/-- What `k256` does: `from_der`, `from_slice`, `normalize_s` and `to_bytes` of a
signature, and the uncompressed point of the key that `recover_from_prehash`
finds. -/
structure K256 where
  Signature : Type
  fromDer : List UInt8 → Except String Signature
  fromSlice : List UInt8 → Except String Signature
  normalizeS : Signature → Signature
  toBytes : Signature → Bytes 64
  recoverFromPrehash : List UInt8 → Signature → Fin 4 → Except String (Bytes 65)

inductive Encoding where
  | der
  | raw
  deriving Repr, DecidableEq

/-- `recovery_id_byte`. -/
def recoveryIdByte (recoveryId : UInt8) (transformRecoveryId : Bool) : Except SignerError UInt8 :=
  if transformRecoveryId && recoveryId > 1 then .error (.message "Ethereum-style recovery ID must be 0 or 1")
  else .ok (if transformRecoveryId then recoveryId + 27 else recoveryId)

/-- `raw_ecdsa_public_key`. -/
def rawEcdsaPublicKey (publicKey : List UInt8) : Except SignerError (List UInt8) :=
  if publicKey.length = 65 ∧ publicKey.head? = .some 0x04 then .ok publicKey.tail
  else if publicKey.length = 64 then .ok publicKey
  else .error (.message ("ECDSA public key must be 64 raw bytes or 65 uncompressed bytes, got " ++
    toString publicKey.length))

variable (k : K256)

/-- The loop over recovery ids. -/
def searchRecoveryId (signature : k.Signature) (digest expected : List UInt8) :
    List (Fin 4) → Except SignerError (Fin 4)
  | [] => .error (.message "Could not find recoveryId")
  | recoveryId :: rest =>
    match k.recoverFromPrehash digest signature recoveryId with
    | .error _ => searchRecoveryId signature digest expected rest
    | .ok recovered =>
      if recovered.val.tail = expected then .ok recoveryId else searchRecoveryId signature digest expected rest

/-- `recover_ecdsa_recovery_id`; `RecoveryId::try_from` takes each of `0..=3`. -/
def recoverEcdsaRecoveryId (signature : k.Signature) (digest expectedPublicKey : List UInt8) :
    Except SignerError (Fin 4) := do
  let expected ← rawEcdsaPublicKey expectedPublicKey
  searchRecoveryId k signature digest expected [0, 1, 2, 3]

def readSignature (signature : List UInt8) : Encoding → Except String k.Signature
  | .der => k.fromDer signature
  | .raw => k.fromSlice signature

/-- `kms_ecdsa_signature_to_recoverable`. -/
def toRecoverable (signature : List UInt8) (encoding : Encoding) (digest expectedPublicKey : List UInt8)
    (transformRecoveryId : Bool) : Except SignerError (List UInt8) := do
  let signature ← (readSignature k signature encoding).mapError SignerError.message
  let signature := k.normalizeS signature
  let recoveryId ← recoverEcdsaRecoveryId k signature digest expectedPublicKey
  let recoveryId ← recoveryIdByte (UInt8.ofNat recoveryId) transformRecoveryId
  return (k.toBytes signature).val ++ [recoveryId]

/-- `kms_ecdsa_signature_of_either_encoding_to_recoverable`. -/
def eitherEncodingToRecoverable (signature digest expectedPublicKey : List UInt8) (transformRecoveryId : Bool) :
    Except SignerError (List UInt8) :=
  if signature.length = 64 then
    match toRecoverable k signature .raw digest expectedPublicKey transformRecoveryId with
    | .ok recovered => .ok recovered
    | .error _ => toRecoverable k signature .der digest expectedPublicKey transformRecoveryId
  else toRecoverable k signature .der digest expectedPublicKey transformRecoveryId

/-! ## Ids -/

variable {k}

/-- The id recovers the key. -/
def Recovers (signature : k.Signature) (digest expected : List UInt8) (id : Fin 4) : Prop :=
  ∃ recovered, k.recoverFromPrehash digest signature id = .ok recovered ∧ recovered.val.tail = expected

/-- The ids that may be sent on. -/
def Admissible (transformRecoveryId : Bool) (id : Fin 4) : Prop := transformRecoveryId = true → id.val ≤ 1

/-- The byte that is sent for an id. -/
def idByte (transformRecoveryId : Bool) (id : Fin 4) : UInt8 :=
  UInt8.ofNat (id.val + if transformRecoveryId then 27 else 0)

theorem recoveryIdByte_eq_ok {transformRecoveryId : Bool} {id : Fin 4} {byte : UInt8} :
    recoveryIdByte (UInt8.ofNat id) transformRecoveryId = .ok byte ↔
      Admissible transformRecoveryId id ∧ byte = idByte transformRecoveryId id := by
  have hall : ∀ (transformRecoveryId : Bool) (id : Fin 4),
      (recoveryIdByte (UInt8.ofNat id) transformRecoveryId).toOption =
        if transformRecoveryId = true → id.val ≤ 1 then .some (idByte transformRecoveryId id) else .none := by
    decide
  have hid := hall transformRecoveryId id
  unfold Admissible
  cases hbyte : recoveryIdByte (UInt8.ofNat id) transformRecoveryId with
  | error e =>
    rw [hbyte] at hid
    split at hid
    · cases hid
    · next hno => exact ⟨fun h => (by cases h), fun h => absurd h.1 hno⟩
  | ok sent =>
    rw [hbyte] at hid
    split at hid
    · next hyes =>
      obtain rfl := Option.some.inj hid
      exact ⟨fun h => ⟨hyes, (Except.ok.inj h).symm⟩, fun h => congrArg Except.ok h.2.symm⟩
    · cases hid

section Search

variable {signature : k.Signature} {digest expected : List UInt8} {id : Fin 4}

theorem searchRecoveryId_of_recovers (h : Recovers signature digest expected id) (rest : List (Fin 4)) :
    searchRecoveryId k signature digest expected (id :: rest) = .ok id := by
  obtain ⟨recovered, hrecovered, hkey⟩ := h
  simp only [searchRecoveryId, hrecovered, hkey, if_true]

/-- An id that does not recover the key, or recovers nothing, is passed over. -/
theorem searchRecoveryId_of_not_recovers (h : ¬ Recovers signature digest expected id) (rest : List (Fin 4)) :
    searchRecoveryId k signature digest expected (id :: rest) = searchRecoveryId k signature digest expected rest := by
  cases hrecovered : k.recoverFromPrehash digest signature id with
  | error e => simp only [searchRecoveryId, hrecovered]
  | ok recovered =>
    have hkey : recovered.val.tail ≠ expected := fun hkey => h ⟨recovered, hrecovered, hkey⟩
    simp only [searchRecoveryId, hrecovered, hkey, if_false]

/-- **The search finds the least id that recovers the key.** -/
theorem searchRecoveryId_eq_ok {ids : List (Fin 4)} (hsorted : ids.Pairwise (· < ·)) :
    searchRecoveryId k signature digest expected ids = .ok id ↔
      id ∈ ids ∧ Recovers signature digest expected id ∧
        ∀ j ∈ ids, j < id → ¬ Recovers signature digest expected j := by
  induction ids with
  | nil => simp [searchRecoveryId]
  | cons first rest ih =>
    have hfirst : ∀ j ∈ rest, first < j := (List.pairwise_cons.mp hsorted).1
    have ih := ih hsorted.of_cons
    by_cases hrecovers : Recovers signature digest expected first
    · rw [searchRecoveryId_of_recovers hrecovers, Except.ok.injEq]
      constructor
      · rintro rfl
        refine ⟨List.mem_cons_self, hrecovers, fun j hj hlt => ?_⟩
        rcases List.mem_cons.mp hj with rfl | hj
        · exact absurd hlt (lt_irrefl _)
        · exact absurd (hfirst j hj) (lt_asymm hlt)
      · rintro ⟨hid, -, hleast⟩
        rcases List.mem_cons.mp hid with rfl | hid
        · rfl
        · exact absurd hrecovers (hleast first List.mem_cons_self (hfirst id hid))
    · rw [searchRecoveryId_of_not_recovers hrecovers, ih]
      constructor
      · rintro ⟨hid, hid', hleast⟩
        refine ⟨List.mem_cons_of_mem _ hid, hid', fun j hj hlt => ?_⟩
        rcases List.mem_cons.mp hj with rfl | hj
        · exact hrecovers
        · exact hleast j hj hlt
      · rintro ⟨hid, hid', hleast⟩
        refine ⟨(List.mem_cons.mp hid).resolve_left fun h => hrecovers (h ▸ hid'), hid', fun j hj hlt => ?_⟩
        exact hleast j (List.mem_cons_of_mem _ hj) hlt

end Search

/-! ## Readings -/

/-- The least id that recovers the key. -/
def LeastRecovering (signature : k.Signature) (digest expected : List UInt8) (id : Fin 4) : Prop :=
  Recovers signature digest expected id ∧ ∀ j < id, ¬ Recovers signature digest expected j

/-- The encodings a text of bytes may be in. -/
def Reads (signature : List UInt8) (encoding : Encoding) (read : k.Signature) : Prop :=
  (encoding = .raw → signature.length = 64) ∧ readSignature k signature encoding = .ok read

variable {signature digest expectedPublicKey expected : List UInt8} {transformRecoveryId : Bool} {sent : List UInt8}

theorem toRecoverable_eq_ok (hkey : rawEcdsaPublicKey expectedPublicKey = .ok expected) {encoding : Encoding} :
    toRecoverable k signature encoding digest expectedPublicKey transformRecoveryId = .ok sent ↔
      ∃ read id, readSignature k signature encoding = .ok read ∧
        LeastRecovering (k.normalizeS read) digest expected id ∧ Admissible transformRecoveryId id ∧
        sent = (k.toBytes (k.normalizeS read)).val ++ [idByte transformRecoveryId id] := by
  have hids : ∀ id : Fin 4, id ∈ ([0, 1, 2, 3] : List (Fin 4)) := by decide
  have hsearch : ∀ (read : k.Signature) (id : Fin 4),
      recoverEcdsaRecoveryId k read digest expectedPublicKey = .ok id ↔ LeastRecovering read digest expected id := by
    intro read id
    have hiff := @searchRecoveryId_eq_ok k read digest expected id [0, 1, 2, 3] (by decide)
    rw [recoverEcdsaRecoveryId, hkey]
    refine hiff.trans ⟨fun h => ⟨h.2.1, fun j hj => h.2.2 j (hids j) hj⟩,
      fun h => ⟨hids id, h.1, fun j _ hj => h.2 j hj⟩⟩
  constructor
  · intro h
    obtain ⟨read, hread, h⟩ := bindOk_iff.mp h
    obtain ⟨id, hid, h⟩ := bindOk_iff.mp h
    obtain ⟨byte, hbyte, h⟩ := bindOk_iff.mp h
    obtain ⟨hadmissible, rfl⟩ := recoveryIdByte_eq_ok.mp hbyte
    refine ⟨read, id, ?_, (hsearch _ _).mp hid, hadmissible, (Except.ok.inj h).symm⟩
    cases hok : readSignature k signature encoding with
    | error e =>
      rw [hok] at hread
      cases hread
    | ok read' =>
      rw [hok] at hread
      cases hread
      rfl
  · rintro ⟨read, id, hread, hid, hadmissible, rfl⟩
    have hbyte := recoveryIdByte_eq_ok.mpr ⟨hadmissible, rfl⟩
    rw [toRecoverable, hread]
    exact bindOk_iff.mpr ⟨read, rfl, bindOk_iff.mpr ⟨id, (hsearch _ _).mpr hid, bindOk_iff.mpr ⟨_, hbyte, rfl⟩⟩⟩

/-- A reading of the bytes, and the id to send with it. -/
def Sends (transformRecoveryId : Bool) (signature digest expected : List UInt8) (read : k.Signature) (id : Fin 4) :
    Prop :=
  (∃ encoding, Reads signature encoding read) ∧ LeastRecovering (k.normalizeS read) digest expected id ∧
    Admissible transformRecoveryId id

theorem eitherEncodingToRecoverable_ok (hkey : rawEcdsaPublicKey expectedPublicKey = .ok expected)
    (h : eitherEncodingToRecoverable k signature digest expectedPublicKey transformRecoveryId = .ok sent) :
    ∃ read id, Sends transformRecoveryId signature digest expected read id ∧
      sent = (k.toBytes (k.normalizeS read)).val ++ [idByte transformRecoveryId id] := by
  have hsends : ∀ encoding, (encoding = .raw → signature.length = 64) →
      toRecoverable k signature encoding digest expectedPublicKey transformRecoveryId = .ok sent →
      ∃ read id, Sends transformRecoveryId signature digest expected read id ∧
        sent = (k.toBytes (k.normalizeS read)).val ++ [idByte transformRecoveryId id] := by
    intro encoding hlength h
    obtain ⟨read, id, hread, hid, hadmissible, hsent⟩ := (toRecoverable_eq_ok hkey).mp h
    exact ⟨read, id, ⟨⟨encoding, hlength, hread⟩, hid, hadmissible⟩, hsent⟩
  unfold eitherEncodingToRecoverable at h
  split at h
  · next hlength =>
    split at h
    · next recovered hraw => exact hsends .raw (fun _ => hlength) (hraw.trans h)
    · exact hsends .der (fun h => by cases h) h
  · exact hsends .der (fun h => by cases h) h

theorem eitherEncodingToRecoverable_error (hkey : rawEcdsaPublicKey expectedPublicKey = .ok expected) {e : SignerError}
    (h : eitherEncodingToRecoverable k signature digest expectedPublicKey transformRecoveryId = .error e)
    (read : k.Signature) (id : Fin 4) : ¬ Sends transformRecoveryId signature digest expected read id := by
  rintro ⟨⟨encoding, hlength, hread⟩, hid, hadmissible⟩
  have hok := (toRecoverable_eq_ok hkey).mpr ⟨read, id, hread, hid, hadmissible, rfl⟩
  unfold eitherEncodingToRecoverable at h
  cases encoding with
  | der =>
    rw [hok] at h
    split at h
    · split at h
      · cases h
      · cases h
    · cases h
  | raw =>
    rw [if_pos (hlength rfl), hok] at h
    cases h

/-- **A signature leaves only with the id that recovers the expected key**, and
is kept back only where no reading has such an id. -/
theorem eitherEncodingToRecoverable_recovers (k : K256) (signature digest expectedPublicKey expected : List UInt8)
    (transformRecoveryId : Bool) (hkey : rawEcdsaPublicKey expectedPublicKey = .ok expected) :
    (∀ sent, eitherEncodingToRecoverable k signature digest expectedPublicKey transformRecoveryId = .ok sent →
      sent.length = 65 ∧ ∃ read id,
        (k.fromDer signature = .ok read ∨ signature.length = 64 ∧ k.fromSlice signature = .ok read) ∧
        Recovers (k.normalizeS read) digest expected id ∧ (transformRecoveryId = true → id.val ≤ 1) ∧
        sent = (k.toBytes (k.normalizeS read)).val ++
          [UInt8.ofNat (id.val + if transformRecoveryId then 27 else 0)]) ∧
    ∀ e, eitherEncodingToRecoverable k signature digest expectedPublicKey transformRecoveryId = .error e →
      ¬ ∃ read id,
        (k.fromDer signature = .ok read ∨ signature.length = 64 ∧ k.fromSlice signature = .ok read) ∧
        Recovers (k.normalizeS read) digest expected id ∧
        (∀ j < id, ¬ Recovers (k.normalizeS read) digest expected j) ∧ (transformRecoveryId = true → id.val ≤ 1) := by
  constructor
  · intro sent h
    obtain ⟨read, id, ⟨⟨encoding, hlength, hread⟩, hid, hadmissible⟩, rfl⟩ := eitherEncodingToRecoverable_ok hkey h
    refine ⟨by rw [List.length_append, Bytes.length_val]; rfl, read, id, ?_, hid.1, hadmissible, rfl⟩
    cases encoding with
    | der => exact .inl hread
    | raw => exact .inr ⟨hlength rfl, hread⟩
  · rintro e h ⟨read, id, hread, hrecovers, hleast, hadmissible⟩
    refine eitherEncodingToRecoverable_error hkey h read id ⟨?_, ⟨hrecovers, hleast⟩, hadmissible⟩
    rcases hread with hread | ⟨hlength, hread⟩
    · exact ⟨.der, (fun h => by cases h), hread⟩
    · exact ⟨.raw, fun _ => hlength, hread⟩

/-- A curve whose signatures are their first byte; a signature recovers the key
of that byte with id 1 only. -/
def sampleCurve : K256 where
  Signature := UInt8
  fromDer signature := if signature.length = 70 then .ok (signature.headD 0) else .error "malformed"
  fromSlice signature := if signature.length = 64 then .ok (signature.headD 0) else .error "malformed"
  normalizeS signature := signature
  toBytes signature := ⟨List.replicate 64 signature, List.length_replicate⟩
  recoverFromPrehash _ signature id :=
    if id = 1 then .ok ⟨List.replicate 65 signature, List.length_replicate⟩ else .error "signature error"

theorem eitherEncodingToRecoverable_recovers_sample :
    eitherEncodingToRecoverable sampleCurve (List.replicate 64 7) [] (List.replicate 64 7) true =
      .ok (List.replicate 64 7 ++ [28]) ∧ (List.replicate 64 7 ++ [28] : List UInt8).length = 65 := by
  have hsent : eitherEncodingToRecoverable sampleCurve (List.replicate 64 7) [] (List.replicate 64 7) true =
      .ok (List.replicate 64 7 ++ [28]) := rfl
  have hrecovers := eitherEncodingToRecoverable_recovers sampleCurve (List.replicate 64 7) [] (List.replicate 64 7)
    (List.replicate 64 7) true rfl
  exact ⟨hsent, (hrecovers.1 _ hsent).1⟩

end Pillar.KmsSignature
