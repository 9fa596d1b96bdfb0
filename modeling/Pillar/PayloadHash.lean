/-
The hash of a read's resolved payload (`pillar-layerzero`, `read_v1002.rs`).

The payload may be long, so it is decoded and hashed a chunk at a time; an error
still tells where in the whole text the first bad digit is.
-/
import Pillar.Abi
import Pillar.Utf8

namespace Pillar.PayloadHash

open Hex Text Abi

/-! ## The `hex` crate, over bytes -/

inductive FromHexError where
  | invalidHexCharacter (c : Char) (index : Nat)
  | oddLength
  | invalidStringLength
  deriving Repr, DecidableEq

/-- The digit a byte is; `index` is where it stands. -/
def digitOf (byte : UInt8) (index : Nat) : Except FromHexError Nat :=
  match hexDigit? (Char.ofNat byte.toNat) with
  | .some n => .ok n
  | .none => .error (.invalidHexCharacter (Char.ofNat byte.toNat) index)

/-- The bytes of pairs of digits, from the pair at `index` on. -/
def readPairs : Nat → List UInt8 → Except FromHexError (List UInt8)
  | _, [] => .ok []
  | _, [_] => .error .oddLength
  | index, high :: low :: rest => do
    let high ← digitOf high index
    let low ← digitOf low (index + 1)
    let bytes ← readPairs (index + 2) rest
    return UInt8.ofNat (16 * high + low) :: bytes

/-- `hex::decode`: an odd number of digits is told before a bad digit. -/
def readDigits (digits : List UInt8) : Except FromHexError (List UInt8) :=
  if digits.length % 2 ≠ 0 then .error .oddLength else readPairs 0 digits

/-- The crate, by the errors it documents: `display` is their text, and
`decodeToSlice digits size` what is left in a slice of `size` bytes. -/
structure HexErrors (hex : HexCrate) where
  display : FromHexError → String
  decodeToSlice : List UInt8 → (size : Nat) → Except FromHexError (List UInt8)
  decode_eq : ∀ text, hex.decode text = (readDigits (utf8 text)).mapError display
  decodeToSlice_eq : ∀ digits size, decodeToSlice digits size =
    if digits.length % 2 ≠ 0 then .error .oddLength
    else if digits.length / 2 ≠ size then .error .invalidStringLength
    else readPairs 0 digits

/-- A hasher, which hashes what it was given one part after another. -/
structure Hasher (keccak256 : List UInt8 → Bytes 32) where
  State : Type
  new : State
  update : State → List UInt8 → State
  finalize : State → Bytes 32
  finalize_eq : ∀ parts : List (List UInt8), finalize (parts.foldl update new) = keccak256 parts.flatten

/-! ## The code -/

section

variable {hex : HexCrate} (errors : HexErrors hex) {keccak256 : List UInt8 → Bytes 32} (hasher : Hasher keccak256)

/-- `map_err(|error| hex_error(error, offset))`. -/
def orHexError {α : Type} (offset : Nat) : Except FromHexError α → Exec AppCoreError α
  | .ok a => .ok a
  | .error (.invalidHexCharacter c index) => do
    let index ← Exec.get (checkedAdd index offset)
    Exec.err (.internal (errors.display (.invalidHexCharacter c index)))
  | .error error => Exec.err (.internal (errors.display error))

def bufferLen : Nat := 4096

/-- `while !rest.is_empty()`. -/
def hashChunks : Nat → hasher.State → List UInt8 → (offset : Nat) → Exec AppCoreError hasher.State
  | 0, _, _, _ => .error .fuel
  | fuel + 1, state, rest, offset => do
    if rest.isEmpty then return state
    let mid := min rest.length (bufferLen * 2)
    let chunk := rest.take mid
    let bytes ← orHexError errors offset (errors.decodeToSlice chunk (chunk.length / 2))
    let offset ← Exec.get (checkedAdd offset chunk.length)
    hashChunks fuel (hasher.update state bytes) (rest.drop mid) offset

/-- The digit an odd payload starts with, and the others. -/
def splitHead (digits : List UInt8) : Exec AppCoreError (Option UInt8 × List UInt8) := do
  if digits.length % 2 = 0 then return (.none, digits)
  return (.some (← Exec.get digits[0]?), digits.drop 1)

/-- The first digit, as if padded with `0`, and where the others stand in the
padded text. -/
def hashHead (state : hasher.State) : Option UInt8 → Exec AppCoreError (hasher.State × Nat)
  | .none => .ok (state, 0)
  | .some digit => do
    let byte ← orHexError errors 0 (errors.decodeToSlice [0x30, digit] 1)
    return (hasher.update state byte, 2)

def resolvedPayloadHash (guid resolvedPayload : String) : Exec AppCoreError String := do
  let guid ← decodeHex32 hex guid
  let state := hasher.update hasher.new guid.val
  let digits := utf8 ((stripPrefix "0x" resolvedPayload).getD resolvedPayload)
  let (head, rest) ← splitHead digits
  let (state, offset) ← hashHead errors hasher state head
  let state ← hashChunks errors hasher (rest.length + 1) state rest offset
  return "0x" ++ hex.encode (hasher.finalize state).val

end

/-! ## The hash in one go -/

/-- `keccak256` of the guid and the payload, both decoded whole. -/
def plainPayloadHash (hex : HexCrate) (keccak256 : List UInt8 → Bytes 32) (guid resolvedPayload : String) :
    Exec AppCoreError String := do
  let guid ← decodeHex32 hex guid
  let payload ← decodeHexBytes hex resolvedPayload
  return "0x" ++ hex.encode (keccak256 (guid.val ++ payload)).val

/-! ## Pairs -/

/-- The same error, `offset` further on. -/
def FromHexError.shift (offset : Nat) : FromHexError → FromHexError
  | .invalidHexCharacter c index => .invalidHexCharacter c (index + offset)
  | error => error

theorem digitOf_shift (byte : UInt8) (index offset : Nat) :
    digitOf byte (index + offset) = (digitOf byte index).mapError (.shift offset) := by
  unfold digitOf
  split <;> rfl

theorem digitOf_error {byte : UInt8} {index : Nat} {error : FromHexError} (h : digitOf byte index = .error error) :
    ∃ c, error = .invalidHexCharacter c index := by
  unfold digitOf at h
  split at h
  · cases h
  · cases h
    exact ⟨_, rfl⟩

theorem readPairs_shift (offset : Nat) : ∀ (index : Nat) (digits : List UInt8),
    readPairs (index + offset) digits = (readPairs index digits).mapError (.shift offset)
  | _, [] => rfl
  | _, [_] => rfl
  | index, high :: low :: rest => by
    have hlow := digitOf_shift low (index + 1) offset
    have hrest := readPairs_shift offset (index + 2) rest
    rw [Nat.add_right_comm] at hlow hrest
    rw [readPairs, readPairs, digitOf_shift, hlow, hrest]
    cases digitOf high index with
    | error e => rfl
    | ok n =>
      cases digitOf low (index + 1) with
      | error e => rfl
      | ok m => cases readPairs (index + 2) rest <;> rfl

/-- Pairs are read one after another. -/
theorem readPairs_append : ∀ (index : Nat) (first second : List UInt8), first.length % 2 = 0 →
    readPairs index (first ++ second) = (do
      let before ← readPairs index first
      let after ← readPairs (index + first.length) second
      return before ++ after)
  | index, [], second, _ => by
    rw [List.nil_append, List.length_nil, Nat.add_zero]
    cases readPairs index second <;> rfl
  | _, [_], _, h => absurd h Nat.one_ne_zero
  | index, high :: low :: rest, second, h => by
    rw [List.cons_append, List.cons_append, readPairs, readPairs, readPairs_append (index + 2) rest second (by
      rw [List.length_cons, List.length_cons] at h
      omega)]
    have hplace : index + (high :: low :: rest).length = index + 2 + rest.length := by
      rw [List.length_cons, List.length_cons]
      omega
    rw [hplace]
    cases digitOf high index with
    | error e => rfl
    | ok n =>
      cases digitOf low (index + 1) with
      | error e => rfl
      | ok m =>
        cases readPairs (index + 2) rest with
        | error e => rfl
        | ok before => cases readPairs (index + 2 + rest.length) second <;> rfl

/-- The error is in the digits. -/
theorem readPairs_error : ∀ {index : Nat} {digits : List UInt8} {c : Char} {at' : Nat},
    readPairs index digits = .error (.invalidHexCharacter c at') → at' < index + digits.length
  | index, [], c, at', h => by cases h
  | index, [_], c, at', h => by cases h
  | index, high :: low :: rest, c, at', h => by
    rw [List.length_cons, List.length_cons]
    rw [readPairs] at h
    cases hhigh : digitOf high index with
    | error e =>
      obtain ⟨c', rfl⟩ := digitOf_error hhigh
      rw [hhigh] at h
      cases h
      omega
    | ok n =>
      rw [hhigh] at h
      cases hlow : digitOf low (index + 1) with
      | error e =>
        obtain ⟨c', rfl⟩ := digitOf_error hlow
        rw [hlow] at h
        cases h
        omega
      | ok m =>
        rw [hlow] at h
        cases hrest : readPairs (index + 2) rest with
        | error e =>
          rw [hrest] at h
          cases h
          have := readPairs_error hrest
          omega
        | ok bytes =>
          rw [hrest] at h
          cases h

/-! ## Chunks -/

section

variable {hex : HexCrate} (errors : HexErrors hex) {keccak256 : List UInt8 → Bytes 32} (hasher : Hasher keccak256)

/-- The digits at `offset`, as the crate reads them in place. -/
def readAt (offset : Nat) (digits : List UInt8) : Exec AppCoreError (List UInt8) :=
  orInternal ((readPairs offset digits).mapError errors.display)

/-- The error of a chunk is told where it is in the whole. -/
theorem orHexError_decodeToSlice (offset : Nat) (chunk : List UInt8) (heven : chunk.length % 2 = 0)
    (hmax : offset + chunk.length ≤ usizeMax) :
    orHexError errors offset (errors.decodeToSlice chunk (chunk.length / 2)) = readAt errors offset chunk := by
  have hshift := readPairs_shift offset 0 chunk
  rw [Nat.zero_add] at hshift
  rw [errors.decodeToSlice_eq, if_neg (not_not.mpr heven), if_neg (not_not.mpr rfl), readAt, hshift]
  cases hread : readPairs 0 chunk with
  | ok bytes => rfl
  | error error =>
    cases error with
    | invalidHexCharacter c index =>
      have hindex := readPairs_error hread
      rw [orHexError, checkedAdd_of_le (by omega)]
      rfl
    | oddLength => rfl
    | invalidStringLength => rfl

theorem readAt_append (offset : Nat) (first second : List UInt8) (heven : first.length % 2 = 0) :
    readAt errors offset (first ++ second) = (do
      let before ← readAt errors offset first
      let after ← readAt errors (offset + first.length) second
      return before ++ after) := by
  unfold readAt
  rw [readPairs_append offset first second heven]
  cases readPairs offset first with
  | error e => rfl
  | ok before => cases readPairs (offset + first.length) second <;> rfl

/-- The loop hashes the digits that are left as one text. -/
theorem hashChunks_eq : ∀ (fuel : Nat) (parts : List (List UInt8)) (rest : List UInt8) (offset : Nat),
    rest.length < fuel → rest.length % 2 = 0 → offset + rest.length ≤ usizeMax →
    hasher.finalize <$> hashChunks errors hasher fuel (parts.foldl hasher.update hasher.new) rest offset =
      (fun bytes => keccak256 (parts.flatten ++ bytes)) <$> readAt errors offset rest
  | 0, _, _, _, hfuel, _, _ => absurd hfuel (Nat.not_lt_zero _)
  | fuel + 1, parts, [], offset, _, _, _ => by
    have hdigest := hasher.finalize_eq parts
    rw [← List.append_nil parts.flatten] at hdigest
    exact congrArg Except.ok hdigest
  | fuel + 1, parts, digit :: digits, offset, hfuel, heven, hmax => by
    generalize hrest : digit :: digits = rest at hfuel heven hmax ⊢
    have hne : rest.isEmpty = false := by rw [← hrest]; rfl
    have hpos : 0 < rest.length := by rw [← hrest]; exact Nat.succ_pos _
    generalize hmid : min rest.length (bufferLen * 2) = mid
    have hle : mid ≤ rest.length := hmid ▸ Nat.min_le_left _ _
    have hmidEven : mid % 2 = 0 := by
      rw [← hmid, bufferLen]
      omega
    have hmidPos : 0 < mid := by
      rw [← hmid, bufferLen]
      omega
    have hchunk : (rest.take mid).length = mid := List.length_take_of_le hle
    have htail : (rest.drop mid).length = rest.length - mid := List.length_drop
    have hread := orHexError_decodeToSlice errors offset (rest.take mid) (by rwa [hchunk]) (by omega)
    have hsplit := readAt_append errors offset (rest.take mid) (rest.drop mid) (by rwa [hchunk])
    rw [List.take_append_drop, hchunk] at hsplit
    rw [hashChunks, if_neg (by rw [hne]; decide), hmid, hsplit]
    dsimp only
    rw [hread]
    cases readAt errors offset (rest.take mid) with
    | error e => rfl
    | ok before =>
      rw [Exec.ok_bind, Exec.ok_bind, hchunk, checkedAdd_of_le (by omega), Exec.get_some, Exec.ok_bind]
      have ih := hashChunks_eq fuel (parts ++ [before]) (rest.drop mid) (offset + mid) (by omega) (by omega) (by omega)
      rw [List.foldl_append] at ih
      refine ih.trans ?_
      cases readAt errors (offset + mid) (rest.drop mid) with
      | error e => rfl
      | ok after =>
        refine congrArg (fun digest => Except.ok (keccak256 digest)) ?_
        rw [List.flatten_append, List.flatten_singleton, List.append_assoc]

/-- The digits of the payload, padded to whole bytes. -/
def paddedDigits (payload : String) : List UInt8 :=
  let digits := utf8 ((stripPrefix "0x" payload).getD payload)
  if digits.length % 2 = 0 then digits else 0x30 :: digits

theorem paddedDigits_even (payload : String) : (paddedDigits payload).length % 2 = 0 := by
  unfold paddedDigits
  dsimp only
  split
  next heven => exact heven
  next hodd =>
    rw [List.length_cons]
    omega

/-- What `decode_hex_bytes` reads is the padded digits. -/
theorem decodeHexBytes_eq (payload : String) : decodeHexBytes hex payload = readAt errors 0 (paddedDigits payload) := by
  have heven := paddedDigits_even payload
  unfold decodeHexBytes paddedDigits at *
  generalize (stripPrefix "0x" payload).getD payload = text at heven ⊢
  dsimp only at heven ⊢
  rw [← length_utf8]
  split
  next hlen => rw [errors.decode_eq, readDigits, if_neg (not_not.mpr hlen), readAt]
  next hlen =>
    have hzero : utf8 "0" = [0x30] := by decide
    rw [if_neg hlen] at heven
    rw [errors.decode_eq, utf8_append, hzero, List.singleton_append, readDigits, if_neg (not_not.mpr heven), readAt]

/-- `isize::MAX`, the most bytes a text has. -/
def isizeMax : Nat := 2 ^ 63 - 1

theorem length_digits_le (payload : String) :
    (utf8 ((stripPrefix "0x" payload).getD payload)).length ≤ payload.utf8ByteSize := by
  rw [length_utf8]
  cases hstrip : stripPrefix "0x" payload with
  | none => exact le_rfl
  | some text =>
    rw [stripPrefix_eq_some hstrip, String.utf8ByteSize_append]
    exact Nat.le_add_left _ _

/-- The digits but the first, once it is hashed. -/
theorem hashDigits_eq {digits : List UInt8} (guid : List UInt8) (hmax : digits.length + 2 ≤ usizeMax) :
    (do let (head, rest) ← splitHead digits
        let (state, offset) ← hashHead errors hasher (hasher.update hasher.new guid) head
        let state ← hashChunks errors hasher (rest.length + 1) state rest offset
        return "0x" ++ hex.encode (hasher.finalize state).val) = (do
      let payload ← readAt errors 0 (if digits.length % 2 = 0 then digits else 0x30 :: digits)
      return "0x" ++ hex.encode (keccak256 (guid ++ payload)).val) := by
  have hfinish : ∀ (parts : List (List UInt8)) (rest : List UInt8) (offset : Nat), rest.length % 2 = 0 →
      offset + rest.length ≤ usizeMax →
      (do let state ← hashChunks errors hasher (rest.length + 1) (parts.foldl hasher.update hasher.new) rest offset
          return "0x" ++ hex.encode (hasher.finalize state).val) = (do
        let payload ← readAt errors offset rest
        return "0x" ++ hex.encode (keccak256 (parts.flatten ++ payload)).val) := by
    intro parts rest offset heven hmax
    have hchunks := hashChunks_eq errors hasher (rest.length + 1) parts rest offset (Nat.lt_succ_self _) heven hmax
    have hmap := congrArg (fun digest => (fun d : Bytes 32 => "0x" ++ hex.encode d.val) <$> digest) hchunks
    generalize hashChunks errors hasher (rest.length + 1) (parts.foldl hasher.update hasher.new) rest offset = x
      at hmap ⊢
    generalize readAt errors offset rest = y at hmap ⊢
    cases x <;> cases y <;> exact hmap
  by_cases heven : digits.length % 2 = 0
  · rw [splitHead, if_pos heven, if_pos heven]
    have h := hfinish [guid] digits 0 heven (by omega)
    rw [List.flatten_singleton] at h
    exact h
  · rw [splitHead, if_neg heven, if_neg heven]
    match digits, heven, hmax with
    | [], heven, _ => exact absurd rfl heven
    | digit :: rest, heven, hmax =>
      rw [List.length_cons] at heven hmax
      have hrest : rest.length % 2 = 0 := by omega
      have hlen : ([0x30, digit] : List UInt8).length = 2 := rfl
      have hhead := orHexError_decodeToSlice errors 0 [0x30, digit] (by rw [hlen]) (by rw [hlen]; decide)
      have hsplit := readAt_append errors 0 [0x30, digit] rest (by rw [hlen])
      rw [hlen, Nat.div_self Nat.two_pos] at hhead
      rw [hlen, Nat.zero_add] at hsplit
      rw [List.cons_append, List.singleton_append] at hsplit
      rw [hsplit, List.getElem?_cons_zero, Exec.get_some, Exec.ok_bind, Exec.pure_eq_ok, Exec.ok_bind]
      dsimp only [List.drop_succ_cons, List.drop_zero]
      rw [hashHead, hhead]
      cases readAt errors 0 [0x30, digit] with
      | error e => rfl
      | ok byte =>
        have h := hfinish [guid, byte] rest 2 hrest (by omega)
        rw [Exec.ok_bind, Exec.pure_eq_ok, Exec.ok_bind]
        refine h.trans ?_
        rw [Exec.ok_bind]
        cases readAt errors 2 rest with
        | error e => rfl
        | ok payload =>
          refine congrArg (fun digest => Except.ok ("0x" ++ hex.encode (keccak256 digest).val)) ?_
          rw [List.flatten_cons, List.flatten_singleton, List.append_assoc]

/-- **The chunked hash is the hash in one go**, of any payload, and where
either does not decode it fails as that does, with the same digit at the same
place. -/
theorem resolvedPayloadHash_eq (guid resolvedPayload : String) (hlen : resolvedPayload.utf8ByteSize ≤ isizeMax) :
    resolvedPayloadHash errors hasher guid resolvedPayload = plainPayloadHash hex keccak256 guid resolvedPayload := by
  have hle := (length_digits_le resolvedPayload).trans hlen
  rw [resolvedPayloadHash, plainPayloadHash]
  cases decodeHex32 hex guid with
  | error e => rfl
  | ok guid =>
    rw [Exec.ok_bind, Exec.ok_bind, decodeHexBytes_eq errors]
    exact hashDigits_eq errors hasher guid.val (by rw [isizeMax] at hle; rw [usizeMax]; omega)

end

/-! ## A crate and a hasher -/

theorem hexDigit?_wide : ∀ n < 256, 128 ≤ n → hexDigit? (Char.ofNat n) = .none := by decide +kernel

/-- A character is a digit just when its first byte is one, and then has no other. -/
theorem digitOf_utf8 (c : Char) (index : Nat) : ∃ byte bytes, String.utf8EncodeChar c = byte :: bytes ∧
    (digitOf byte index).toOption = hexDigit? c ∧ ((hexDigit? c).isSome → bytes = []) := by
  by_cases hascii : c.toNat < 128
  · refine ⟨UInt8.ofNat c.toNat, [], utf8EncodeChar_ascii hascii, ?_, fun _ => rfl⟩
    have hsame : Char.ofNat (UInt8.ofNat c.toNat).toNat = c := by
      rw [UInt8.toNat_ofNat_of_lt' (by simp [UInt8.size]; omega), Char.ofNat_toNat]
    rw [digitOf, hsame]
    cases hexDigit? c <;> rfl
  · obtain ⟨byte, bytes, heq, hbyte⟩ := utf8EncodeChar_wide (not_lt.mp hascii)
    have hnone : hexDigit? c = .none := by
      cases hdigit : hexDigit? c with
      | none => rfl
      | some n => exact absurd (hexDigit?_lt hdigit).2 hascii
    have hbyteNone := hexDigit?_wide byte.toNat byte.toNat_lt hbyte
    refine ⟨byte, bytes, heq, ?_, fun hsome => ?_⟩
    · rw [digitOf, hbyteNone, hnone]
      rfl
    · rw [hnone] at hsome
      cases hsome

theorem readPairs_cons_none {high : UInt8} {rest : List UInt8} {index : Nat}
    (h : (digitOf high index).toOption = .none) : (readPairs index (high :: rest)).toOption = .none := by
  cases rest with
  | nil => rfl
  | cons low rest =>
    rw [readPairs]
    cases hdigit : digitOf high index with
    | error e => rfl
    | ok n =>
      rw [hdigit] at h
      cases h

theorem eq_ok_of_toOption {ε α : Type} {x : Except ε α} {a : α} (h : x.toOption = .some a) : x = .ok a := by
  cases x with
  | error e => cases h
  | ok a' =>
    cases h
    rfl

/-- Bytes are read as characters are. -/
theorem readPairs_utf8 (chars : List Char) (index : Nat) :
    (readPairs index (chars.flatMap String.utf8EncodeChar)).toOption = decodeChars chars := by
  fun_induction decodeChars chars generalizing index with
  | case1 => rfl
  | case2 c =>
    obtain ⟨byte, bytes, heq, hdigit, hone⟩ := digitOf_utf8 c index
    rw [List.flatMap_singleton, heq]
    cases hc : hexDigit? c with
    | none => exact readPairs_cons_none (hdigit.trans hc)
    | some n =>
      rw [hone (by rw [hc]; rfl)]
      rfl
  | case3 hi lo rest h l hlo hhi ih =>
    obtain ⟨high, highs, hhigh, hreadHigh, hone⟩ := digitOf_utf8 hi index
    obtain ⟨low, lows, hlow, hreadLow, hone'⟩ := digitOf_utf8 lo (index + 1)
    obtain rfl := hone (by rw [hhi]; rfl)
    obtain rfl := hone' (by rw [hlo]; rfl)
    rw [List.flatMap_cons, List.flatMap_cons, hhigh, hlow, List.singleton_append, List.singleton_append, readPairs,
      eq_ok_of_toOption (hreadHigh.trans hhi), eq_ok_of_toOption (hreadLow.trans hlo), ← ih (index + 2)]
    cases readPairs (index + 2) (rest.flatMap String.utf8EncodeChar) <;> rfl
  | case4 hi lo rest hno =>
    obtain ⟨high, highs, hhigh, hreadHigh, hone⟩ := digitOf_utf8 hi index
    obtain ⟨low, lows, hlow, hreadLow, hone'⟩ := digitOf_utf8 lo (index + 1)
    rw [List.flatMap_cons, List.flatMap_cons, hhigh, hlow]
    cases hhi : hexDigit? hi with
    | none => exact readPairs_cons_none (hreadHigh.trans hhi)
    | some h =>
      obtain rfl := hone (by rw [hhi]; rfl)
      cases hlo : hexDigit? lo with
      | some l => exact absurd hlo (hno h l hhi)
      | none =>
        rw [List.singleton_append, List.cons_append, readPairs, eq_ok_of_toOption (hreadHigh.trans hhi)]
        cases hdigit : digitOf low (index + 1) with
        | error e => rfl
        | ok l =>
          rw [hdigit, hlo] at hreadLow
          cases hreadLow

/-- An odd number of digits is refused either way. -/
theorem readPairs_odd : ∀ {index : Nat} {digits bytes : List UInt8}, readPairs index digits = .ok bytes →
    digits.length % 2 = 0
  | _, [], _, _ => rfl
  | _, [_], _, h => by cases h
  | index, high :: low :: rest, bytes, h => by
    rw [readPairs] at h
    obtain ⟨highValue, hhigh, h⟩ := bindOk_iff.mp h
    obtain ⟨lowValue, hlow, h⟩ := bindOk_iff.mp h
    obtain ⟨bytes', hrest, h⟩ := bindOk_iff.mp h
    have heven := readPairs_odd hrest
    rw [List.length_cons, List.length_cons]
    omega

theorem readDigits_utf8 (text : String) : (readDigits (utf8 text)).toOption = decodeChars text.toList := by
  have hpairs := readPairs_utf8 text.toList 0
  rw [← utf8_eq] at hpairs
  rw [← hpairs, readDigits]
  split
  next hodd =>
    cases hread : readPairs 0 (utf8 text) with
    | error e => rfl
    | ok bytes => exact absurd (readPairs_odd hread) hodd
  · rfl

def describe : FromHexError → String
  | .invalidHexCharacter c index => "Invalid character '" ++ c.toString ++ "' at position " ++ toString index
  | .oddLength => "Odd number of digits"
  | .invalidStringLength => "Invalid string length"

/-- A crate that does what is documented, with its errors. -/
def documentedCrate : HexCrate where
  encode bytes := String.ofList (encodeChars bytes)
  decode text := (readDigits (utf8 text)).mapError describe
  toList_encode := HexCrate.plain.toList_encode
  toOption_decode text := by
    rw [← readDigits_utf8]
    cases readDigits (utf8 text) <;> rfl

def documentedErrors : HexErrors documentedCrate where
  display := describe
  decodeToSlice digits size :=
    if digits.length % 2 ≠ 0 then .error .oddLength
    else if digits.length / 2 ≠ size then .error .invalidStringLength
    else readPairs 0 digits
  decode_eq _ := rfl
  decodeToSlice_eq _ _ := rfl

/-- A hasher that keeps what it is given. -/
def keepingHasher (keccak256 : List UInt8 → Bytes 32) : Hasher keccak256 where
  State := List UInt8
  new := []
  update state part := state ++ part
  finalize := keccak256
  finalize_eq parts := by
    have hfold : ∀ state : List UInt8, parts.foldl (fun state part => state ++ part) state = state ++
      parts.flatten := by
      induction parts with
      | nil => exact fun state => (List.append_nil state).symm
      | cons part parts ih =>
        intro state
        rw [List.foldl_cons, ih, List.flatten_cons, List.append_assoc]
    rw [hfold, List.nil_append]

def zeroGuid : String := String.ofList (List.replicate 64 '0')

/-- The third digit of `abg` is bad, the fourth once it is padded. -/
theorem resolvedPayloadHash_eq_badDigit :
    resolvedPayloadHash documentedErrors (keepingHasher fun _ => beBytes 32 0) zeroGuid "0xabg" =
      Exec.err (.internal "Invalid character 'g' at position 3") := by
  rw [resolvedPayloadHash_eq documentedErrors (keepingHasher fun _ => beBytes 32 0) zeroGuid "0xabg" (by decide)]
  decide +kernel

end Pillar.PayloadHash
