/-
What a DVN signs fixes what it signs for: from the packed bytes every field of
the call can be told, though the first of them may be missing and the packet
header may have any length.
-/
import Pillar.Abi
import Pillar.Cursor

namespace Pillar.Abi

open Bits Hex Text

variable {hex : HexCrate}

theorem beBytes_injective {n value value' : Nat} (h : value < 256 ^ n) (h' : value' < 256 ^ n)
    (he : (beBytes n value).val = (beBytes n value').val) : value = value' := by
  have hof : ofBytes (bytesOf n value) = ofBytes (bytesOf n value') := congrArg ofBytes he
  rw [ofBytes_bytesOf h, ofBytes_bytesOf h'] at hof
  exact hof

/-! ## Hexadecimal values -/

@[simp] theorem decodeHexBytes_encode (bytes : List UInt8) : decodeHexBytes hex (hex.encode bytes) = .ok bytes := by
  have heven : (hex.encode bytes).utf8ByteSize % 2 = 0 := by
    rw [hex.utf8ByteSize_encode]
    omega
  simp only [decodeHexBytes, hex.stripPrefix_encode, Option.getD_none, if_pos heven, hex.decode_encode, orInternal_ok]

@[simp] theorem decodeHexBytes_prefixed (bytes : List UInt8) :
    decodeHexBytes hex ("0x" ++ hex.encode bytes) = .ok bytes := by
  have heven : (hex.encode bytes).utf8ByteSize % 2 = 0 := by
    rw [hex.utf8ByteSize_encode]
    omega
  simp only [decodeHexBytes, stripPrefix_append, Option.getD_some, if_pos heven, hex.decode_encode, orInternal_ok]

theorem prefixed_injective {bytes bytes' : List UInt8} (h : "0x" ++ hex.encode bytes = "0x" ++ hex.encode bytes') :
    bytes = bytes' := by
  have hdecode : decodeHexBytes hex ("0x" ++ hex.encode bytes) = .ok bytes := decodeHexBytes_prefixed bytes
  rw [h, decodeHexBytes_prefixed] at hdecode
  cases hdecode
  rfl

theorem decodeHexArray_eq_ok {n : Nat} {noun value : String} {bytes : Bytes n} :
    decodeHexArray hex n noun value = .ok bytes ↔ decodeHexBytes hex value = .ok bytes.val := by
  unfold decodeHexArray
  cases decodeHexBytes hex value with
  | error e => exact ⟨fun h => (by cases h), fun h => (by cases h)⟩
  | ok b =>
    rw [Exec.ok_bind]
    constructor
    · intro h
      split at h
      · cases h
        rfl
      · cases h
    · intro h
      cases h
      exact dif_pos bytes.property

/-! ## Words -/

theorem solidityUint256_injective {value value' : UInt64} (h : solidityUint256 value = solidityUint256 value') :
    value = value' := by
  have hlow := List.append_cancel_left (congrArg Subtype.val h)
  exact UInt64.toNat_inj.mp (beBytes_injective value.toNat_lt value'.toNat_lt hlow)

/-- The zeros after a value fill its last word. -/
def padding (len : Nat) : Nat := (32 - len % 32) % 32

theorem padding_fills (len : Nat) : (len + padding len) % 32 = 0 := by
  unfold padding
  omega

/-- A length word, the value, and zeros to the end of its last word. -/
def dynamicBytes (bytes : List UInt8) : List UInt8 :=
  (solidityUint256 (UInt64.ofNat bytes.length)).val ++ (bytes ++ List.replicate (padding bytes.length) 0)

theorem solidityDynamicBytes_eq (value : String) :
    solidityDynamicBytes hex value = dynamicBytes <$> decodeHexBytes hex value := by
  unfold solidityDynamicBytes dynamicBytes
  cases decodeHexBytes hex value with
  | error e => rfl
  | ok bytes => simp only [Exec.ok_bind, List.append_assoc, padding, Except.map_ok]

/-- The value is what stands before the zeros. -/
theorem dynamicBytes_injective {bytes bytes' : List UInt8} (h : dynamicBytes bytes = dynamicBytes bytes') :
    bytes = bytes' := by
  obtain ⟨hword, htail⟩ := Bytes.append_inj h
  have hmod : bytes.length % 2 ^ 64 = bytes'.length % 2 ^ 64 := by
    have := congrArg UInt64.toNat (solidityUint256_injective hword)
    rwa [UInt64.toNat_ofNat', UInt64.toNat_ofNat'] at this
  have hpadded : bytes.length + padding bytes.length = bytes'.length + padding bytes'.length := by
    have := congrArg List.length htail
    simpa only [List.length_append, List.length_replicate] using this
  -- The word holds the length up to `2 ^ 64`, the padded length holds it up to 32.
  have hlen : bytes.length = bytes'.length := by
    unfold padding at hpadded
    omega
  exact (List.append_inj htail hlen).1

/-! ## Decoding returns -/

theorem returns_decodeHexBytes (value : String) : (decodeHexBytes hex value).Returns := by
  unfold decodeHexBytes orInternal
  dsimp only
  split <;> split <;> first | exact Exec.returns_ok _ | exact Exec.returns_err _

theorem slice_eq {α : Type} {l : List α} {start stop : Nat} (h : start ≤ stop) (h' : stop ≤ l.length) :
    (Exec.slice l start stop : Exec AppCoreError (List α)) = .ok ((l.drop start).take (stop - start)) :=
  if_pos ⟨h, h'⟩

theorem returns_slice {α : Type} {l : List α} {start stop : Nat} (h : start ≤ stop) (h' : stop ≤ l.length) :
    (Exec.slice l start stop : Exec AppCoreError (List α)).Returns := by
  rw [slice_eq h h']
  exact Exec.returns_ok _

theorem returns_abiWordValue (word : List UInt8) : (abiWordValue word).Returns := by
  unfold abiWordValue
  split
  next => exact Exec.returns_err _
  next hlen =>
    rw [not_not] at hlen
    refine (returns_slice (by omega) (by omega)).bind fun high _ => ?_
    split
    · exact Exec.returns_err _
    · exact (returns_slice (by omega) (by omega)).bind fun low _ => Exec.returns_ok _

/-- A head word is inside the data. -/
theorem abiHeadStart_ok {data : List UInt8} {index headWords start : Nat}
    (h : abiHeadStart data index headWords = .ok start) :
    start = index * 32 ∧ start + 32 ≤ data.length ∧ headWords * 32 ≤ usizeMax := by
  unfold abiHeadStart at h
  split at h
  next => cases h
  next hindex =>
    obtain ⟨minLen, hmin, h⟩ := Exec.bind_ok_iff.mp h
    have hmin := Exec.get_eq_ok.mp hmin
    unfold checkedMul at hmin
    split at hmin
    next hmax =>
      cases hmin
      split at h
      next => cases h
      next hlen =>
        cases h
        exact ⟨rfl, by omega, hmax⟩
    next => cases hmin

/-- How many words a head has must fit in a `usize`, in bytes; the callers say
six at most. -/
theorem abiHeadStart_yields (data : List UInt8) (index headWords : Nat)
    (hhead : headWords * 32 ≤ usizeMax := by decide) :
    (abiHeadStart data index headWords).Yields fun start => start + 32 ≤ data.length := by
  refine ⟨?_, fun start h => (abiHeadStart_ok h).2.1⟩
  unfold abiHeadStart
  split
  next => exact Exec.returns_err _
  next =>
    rw [checkedMul_of_le hhead, Exec.get_some, Exec.ok_bind]
    split
    next => exact Exec.returns_err _
    next => exact Exec.returns_ok _

theorem returns_abiWordUsize (data : List UInt8) (index headWords : Nat)
    (hhead : headWords * 32 ≤ usizeMax := by decide) : (abiWordUsize data index headWords).Returns := by
  have hstart := abiHeadStart_yields data index headWords hhead
  refine hstart.1.bind fun start h => (returns_slice (by omega) (hstart.2 start h)).bind fun word _ =>
    (returns_abiWordValue word).bind fun value _ => ?_
  split
  · exact Exec.returns_err _
  · exact Exec.returns_ok _

theorem checkedAdd_filter {a b c n : Nat} (h : (checkedAdd a b).filter (· ≤ n) = .some c) : c = a + b ∧ c ≤ n := by
  obtain ⟨hadd, hle⟩ := Option.filter_eq_some_iff.mp h
  exact ⟨checkedAdd_eq_some hadd, by simpa using hle⟩

theorem returns_abiDynamicBytes (data : List UInt8) (index headWords : Nat)
    (hhead : headWords * 32 ≤ usizeMax := by decide) : (abiDynamicBytes data index headWords).Returns := by
  refine (returns_abiWordUsize data index headWords hhead).bind fun offset _ => ?_
  split
  next => exact Exec.returns_err _
  next start hstart =>
    obtain ⟨hstart, hle⟩ := checkedAdd_filter hstart
    refine (returns_slice (by omega) hle).bind fun word _ => (returns_abiWordValue word).bind fun len _ => ?_
    split
    next => exact Exec.returns_err _
    next =>
      split
      next => exact Exec.returns_err _
      next stop hstop =>
        obtain ⟨hstop, hle'⟩ := checkedAdd_filter hstop
        exact returns_slice (by omega) hle'

theorem returns_abiAddress (data : List UInt8) (index headWords : Nat)
    (hhead : headWords * 32 ≤ usizeMax := by decide) : (abiAddress hex data index headWords).Returns := by
  have hstart := abiHeadStart_yields data index headWords hhead
  refine hstart.1.bind fun start h => ?_
  rw [slice_eq (Nat.le_add_right _ _) (hstart.2 start h), Exec.ok_bind]
  refine (returns_slice ?_ le_rfl).bind fun address _ => Exec.returns_ok _
  have := hstart.2 start h
  rw [List.length_take, List.length_drop]
  omega

/-- The one dynamic argument of an event: its offset, its length and its bytes. -/
theorem abiDynamicBytes_single {offset size body : List UInt8} (hoffset : offset.length = 32) (hsize : size.length = 32)
    (hstart : abiWordValue offset = .ok 32) (hlen : abiWordValue size = .ok body.length)
    (h : 64 + body.length ≤ usizeMax) : abiDynamicBytes (offset ++ size ++ body) 0 1 = .ok body := by
  have hdata : (offset ++ size ++ body).length = 64 + body.length := by
    rw [List.length_append, List.length_append, hoffset, hsize]
  have hoffsetAt : At (offset ++ size ++ body) 0 offset := ⟨size ++ body, (List.append_assoc _ _ _).symm⟩
  have hsizeAt : At (offset ++ size ++ body) 32 size :=
    ⟨body, by rw [List.append_assoc, List.drop_left' hoffset]⟩
  have hbodyAt : At (offset ++ size ++ body) 64 body :=
    ⟨[], by rw [List.append_nil, List.drop_left' (by rw [List.length_append, hoffset, hsize])]⟩
  have hword : abiWordUsize (offset ++ size ++ body) 0 1 = .ok 32 := by
    rw [abiWordUsize, abiHeadStart, if_neg (by decide), checkedMul_of_le (by decide), Exec.get_some, Exec.ok_bind,
      if_neg (by omega), Exec.ok_bind, slice_of_at hoffsetAt (by omega) (by omega), Exec.ok_bind, hstart, Exec.ok_bind]
    rfl
  have hfits : (checkedAdd 32 32).filter (· ≤ (offset ++ size ++ body).length) = .some 64 := by
    rw [checkedAdd_of_le (by omega), Option.filter_some, if_pos (decide_eq_true (by omega))]
  have hstop : (checkedAdd 64 body.length).filter (· ≤ (offset ++ size ++ body).length) = .some (64 + body.length) := by
    rw [checkedAdd_of_le h, Option.filter_some, if_pos (decide_eq_true hdata.ge)]
  rw [abiDynamicBytes, hword, Exec.ok_bind]
  simp only [hfits]
  rw [abiBody, slice_of_at hsizeAt (by omega) (by omega), Exec.ok_bind, hlen, Exec.ok_bind, if_neg (by omega), hstop]
  exact slice_of_at hbodyAt (by omega) rfl

/-! ## What is signed -/

/-- The third argument of `verify`: the confirmations of a message, or the
resolved payload's hash of a read. -/
inductive VerifyArg where
  | confirmations (value : UInt64)
  | payloadHash (value : String)
  deriving Repr, DecidableEq

structure SignedCall where
  vId : String
  target : String
  expiration : UInt64
  selector : Bytes 4
  packetHeader : String
  payloadHash : String
  arg : VerifyArg

def VerifyArg.word (hex : HexCrate) : VerifyArg → Exec AppCoreError (Bytes 32)
  | .confirmations value => .ok (solidityUint256 value)
  | .payloadHash value => decodeHex32 hex value

def SignedCall.verifyCallData (hex : HexCrate) (call : SignedCall) : Exec AppCoreError String :=
  match call.arg with
  | .confirmations value => encodeVerifyBytesBytes32U64 hex call.selector call.packetHeader call.payloadHash value
  | .payloadHash value => encodeVerifyBytesBytes32Bytes32 hex call.selector call.packetHeader call.payloadHash value

/-- The bytes whose hash is signed. -/
def SignedCall.preimage (hex : HexCrate) (call : SignedCall) : Exec AppCoreError (List UInt8) := do
  let callData ← call.verifyCallData hex
  packDvnCallData hex call.target callData call.expiration call.vId

/-- The values a call's fields stand for. -/
structure SignedCall.Values where
  vid : Option UInt32
  target : Bytes 20
  header : List UInt8
  payloadHash : Bytes 32
  word : Bytes 32

/-- The text leaves the verifier id out, or spells it. -/
def IsVid (vId : String) : Option UInt32 → Prop
  | .none => vId = ""
  | .some n => parse 32 vId = .ok n.toNat

def vidBytes : Option UInt32 → List UInt8
  | .none => []
  | .some n => (beBytes 4 n.toNat).val

structure SignedCall.Denotes (hex : HexCrate) (call : SignedCall) (v : Values) : Prop where
  vid : IsVid call.vId v.vid
  target : decodeHex20 hex call.target = .ok v.target
  header : decodeHexBytes hex call.packetHeader = .ok v.header
  payloadHash : decodeHex32 hex call.payloadHash = .ok v.payloadHash
  word : call.arg.word hex = .ok v.word

/-- What is signed, of fields that stand for values. -/
def SignedCall.layout (call : SignedCall) (v : Values) : List UInt8 :=
  vidBytes v.vid ++ (v.target.val ++ ((solidityUint256 call.expiration).val ++ (call.selector.val ++
    ((solidityUint256 96).val ++ (v.payloadHash.val ++ (v.word.val ++ dynamicBytes v.header))))))

/-- The calldata of either `verify`. -/
theorem verifyCallData_eq (call : SignedCall) :
    call.verifyCallData hex = (do
      let hash ← decodeHex32 hex call.payloadHash
      let word ← call.arg.word hex
      let header ← decodeHexBytes hex call.packetHeader
      .ok ("0x" ++ hex.encode (call.selector.val ++ (solidityUint256 96).val ++ hash.val ++ word.val ++
        dynamicBytes header))) := by
  unfold SignedCall.verifyCallData encodeVerifyBytesBytes32U64 encodeVerifyBytesBytes32Bytes32
  simp only [solidityDynamicBytes_eq]
  cases decodeHexBytes hex call.packetHeader <;> cases call.arg <;> rfl

theorem packVid_eq_ok {vId : String} {out : List UInt8} :
    packVid vId = .ok out ↔ ∃ vid : Option UInt32, IsVid vId vid ∧ out = vidBytes vid := by
  unfold packVid
  split
  next hempty =>
    have hnil : vId = "" := by simpa using hempty
    subst hnil
    constructor
    · intro h
      cases h
      exact ⟨.none, rfl, rfl⟩
    · rintro ⟨vid, hvid, rfl⟩
      cases vid with
      | none => rfl
      | some n => cases hvid
  next hempty =>
    have hne : vId ≠ "" := by simpa using hempty
    constructor
    · intro h
      cases hparse : parse 32 vId with
      | error e =>
        rw [hparse] at h
        cases h
      | ok n =>
        rw [hparse] at h
        cases h
        have hn : (UInt32.ofNat n).toNat = n := UInt32.toNat_ofNat_of_lt' (fromStrRadix_lt hparse)
        exact ⟨.some (UInt32.ofNat n), by rw [IsVid, hn, hparse], by rw [vidBytes, hn]⟩
    · rintro ⟨vid, hvid, rfl⟩
      cases vid with
      | none => exact absurd hvid hne
      | some n =>
        rw [IsVid] at hvid
        rw [hvid]
        rfl

/-- **The layout of what is signed.** -/
theorem preimage_eq_ok {call : SignedCall} {bytes : List UInt8} :
    call.preimage hex = .ok bytes ↔ ∃ v, call.Denotes hex v ∧ bytes = call.layout v := by
  unfold SignedCall.preimage packDvnCallData
  rw [verifyCallData_eq]
  constructor
  · intro h
    obtain ⟨callData, hcall, h⟩ := Exec.bind_ok_iff.mp h
    obtain ⟨hash, hhash, hcall⟩ := Exec.bind_ok_iff.mp hcall
    obtain ⟨word, hword, hcall⟩ := Exec.bind_ok_iff.mp hcall
    obtain ⟨header, hheader, hcall⟩ := Exec.bind_ok_iff.mp hcall
    cases hcall
    obtain ⟨out, hout, h⟩ := Exec.bind_ok_iff.mp h
    obtain ⟨vid, hvid, rfl⟩ := packVid_eq_ok.mp hout
    obtain ⟨target, htarget, h⟩ := Exec.bind_ok_iff.mp h
    rw [decodeHexBytes_prefixed, Exec.ok_bind] at h
    cases h
    refine ⟨⟨vid, target, header, hash, word⟩, ⟨hvid, htarget, hheader, hhash, hword⟩, ?_⟩
    simp only [SignedCall.layout, List.append_assoc]
  · rintro ⟨v, hv, rfl⟩
    rw [hv.payloadHash, Exec.ok_bind, hv.word, Exec.ok_bind, hv.header, Exec.ok_bind, Exec.ok_bind,
      packVid_eq_ok.mpr ⟨v.vid, hv.vid, rfl⟩, Exec.ok_bind, hv.target, Exec.ok_bind, decodeHexBytes_prefixed,
      Exec.ok_bind]
    simp only [SignedCall.layout, List.append_assoc]

theorem vidBytes_injective {vid vid' : Option UInt32} (h : vidBytes vid = vidBytes vid') : vid = vid' := by
  unfold vidBytes at h
  cases vid with
  | none =>
    cases vid' with
    | none => rfl
    | some n => exact absurd (congrArg List.length h) (by simp)
  | some n =>
    cases vid' with
    | none => exact absurd (congrArg List.length h) (by simp)
    | some n' => exact congrArg _ (UInt32.toNat_inj.mp (beBytes_injective n.toNat_lt n'.toNat_lt h))

theorem length_vidBytes (vid : Option UInt32) : (vidBytes vid).length = 0 ∨ (vidBytes vid).length = 4 := by
  cases vid <;> simp [vidBytes]

/-- **What is signed binds every field.** Of two calls with the same preimage,
both leave the verifier id out or both name the same one; and target,
expiration, selector, header, payload hash and third argument are the same
values, the third argument as the word it takes in the calldata and, where both
calls pass confirmations, as a number. -/
theorem preimage_binds_fields (hex : HexCrate) {call call' : SignedCall} {bytes : List UInt8}
    (h : call.preimage hex = .ok bytes) (h' : call'.preimage hex = .ok bytes) :
    ((call.vId = "" ∧ call'.vId = "") ∨
      ∃ n : UInt32, parse 32 call.vId = .ok n.toNat ∧ parse 32 call'.vId = .ok n.toNat) ∧
    (∃ target, decodeHex20 hex call.target = .ok target ∧ decodeHex20 hex call'.target = .ok target) ∧
    call.expiration = call'.expiration ∧ call.selector = call'.selector ∧
    (∃ header, decodeHexBytes hex call.packetHeader = .ok header ∧
      decodeHexBytes hex call'.packetHeader = .ok header) ∧
    (∃ hash, decodeHex32 hex call.payloadHash = .ok hash ∧ decodeHex32 hex call'.payloadHash = .ok hash) ∧
    (∃ word, call.arg.word hex = .ok word ∧ call'.arg.word hex = .ok word) ∧
    ∀ n n', call.arg = .confirmations n → call'.arg = .confirmations n' → n = n' := by
  obtain ⟨v, hv, rfl⟩ := preimage_eq_ok.mp h
  obtain ⟨v', hv', he⟩ := preimage_eq_ok.mp h'
  unfold SignedCall.layout at he
  -- All that follows the verifier id fills words, up to the 24 bytes of target and selector.
  have hvidLen : (vidBytes v.vid).length = (vidBytes v'.vid).length := by
    have hlen := congrArg List.length he
    simp only [dynamicBytes, List.length_append, List.length_replicate, Bytes.length_val] at hlen
    have hfill := padding_fills v.header.length
    have hfill' := padding_fills v'.header.length
    rcases length_vidBytes v.vid with hl | hl <;> rcases length_vidBytes v'.vid with hl' | hl' <;> omega
  obtain ⟨hvid, he⟩ := List.append_inj he hvidLen
  obtain ⟨htarget, he⟩ := Bytes.append_inj he
  obtain ⟨hexpiration, he⟩ := Bytes.append_inj he
  obtain ⟨hselector, he⟩ := Bytes.append_inj he
  have he := List.append_cancel_left he
  obtain ⟨hhash, he⟩ := Bytes.append_inj he
  obtain ⟨hword, he⟩ := Bytes.append_inj he
  have hheader := dynamicBytes_injective he
  refine ⟨?_, ⟨v.target, hv.target, htarget ▸ hv'.target⟩, solidityUint256_injective hexpiration, hselector,
    ⟨v.header, hv.header, hheader ▸ hv'.header⟩, ⟨v.payloadHash, hv.payloadHash, hhash ▸ hv'.payloadHash⟩,
    ⟨v.word, hv.word, hword ▸ hv'.word⟩, ?_⟩
  · have hid := hv.vid
    have hid' := hv'.vid
    rw [← vidBytes_injective hvid] at hid'
    cases hn : v.vid with
    | none =>
      rw [hn] at hid hid'
      exact .inl ⟨hid, hid'⟩
    | some n =>
      rw [hn] at hid hid'
      exact .inr ⟨n, hid, hid'⟩
  · intro n n' harg harg'
    have hn := hv.word
    have hn' := hv'.word
    rw [harg] at hn
    rw [harg', ← hword] at hn'
    exact solidityUint256_injective (Except.ok.inj (hn.trans hn'.symm))

def namedCall : SignedCall where
  vId := "7"
  target := HexCrate.plain.encode (List.replicate 20 10)
  expiration := 9
  selector := ⟨[1, 2, 3, 4], rfl⟩
  packetHeader := HexCrate.plain.encode [1, 2]
  payloadHash := HexCrate.plain.encode (List.replicate 32 5)
  arg := .confirmations 3

/-- The same call with its fields spelled in other ways. -/
def respelledCall : SignedCall :=
  { namedCall with
    vId := "+07"
    target := "0x" ++ HexCrate.plain.encode (List.replicate 20 10)
    payloadHash := "0x" ++ HexCrate.plain.encode (List.replicate 32 5) }

theorem length_target : (List.replicate 20 (10 : UInt8)).length = 20 := rfl

def namedValues : SignedCall.Values where
  vid := .some 7
  target := ⟨List.replicate 20 10, length_target⟩
  header := [1, 2]
  payloadHash := ⟨List.replicate 32 5, rfl⟩
  word := solidityUint256 3

theorem namedCall_denotes : namedCall.Denotes .plain namedValues where
  vid := show parse 32 "7" = .ok 7 by decide
  target := decodeHexArray_eq_ok.mpr (decodeHexBytes_encode _)
  header := decodeHexBytes_encode _
  payloadHash := decodeHexArray_eq_ok.mpr (decodeHexBytes_encode _)
  word := rfl

theorem respelledCall_denotes : respelledCall.Denotes .plain namedValues where
  vid := show parse 32 "+07" = .ok 7 by decide
  target := decodeHexArray_eq_ok.mpr (decodeHexBytes_prefixed _)
  header := decodeHexBytes_encode _
  payloadHash := decodeHexArray_eq_ok.mpr (decodeHexBytes_prefixed _)
  word := rfl

/-- Two spellings of one call, bound to the same id, target and hash. -/
theorem preimage_binds_respelled :
    ∃ bytes, namedCall.preimage .plain = .ok bytes ∧ respelledCall.preimage .plain = .ok bytes ∧
    (∃ n : UInt32, parse 32 namedCall.vId = .ok n.toNat ∧ parse 32 respelledCall.vId = .ok n.toNat) ∧
    ∃ hash, decodeHex32 .plain namedCall.payloadHash = .ok hash ∧
      decodeHex32 .plain respelledCall.payloadHash = .ok hash := by
  have hnamed := preimage_eq_ok.mpr ⟨namedValues, namedCall_denotes, rfl⟩
  have hrespelled := preimage_eq_ok.mpr ⟨namedValues, respelledCall_denotes, rfl⟩
  obtain ⟨hvid, -, -, -, -, hhash, -⟩ := preimage_binds_fields .plain hnamed hrespelled
  exact ⟨_, hnamed, hrespelled, hvid.resolve_left (fun h => absurd h.1 (by decide)), hhash⟩

end Pillar.Abi
