/-
Stellar strkeys (`pillar-layerzero`, `other_non_evm/stellar.rs`): a version byte,
32 bytes and a checksum, in base32.
-/
import Pillar.Base32
import Pillar.Crc
import Pillar.Abi
import Pillar.Related
import Pillar.Utf8

namespace Pillar.Strkey

open Text Abi

/-! ## The code -/

def strkeyLength : Nat := 56

/-- `decoded.len()`. -/
def decodedLength : Nat := 35

/-- The variables of the loop; `decoded` is what the array is filled with. -/
structure Regroup where
  decoded : List UInt8 := []
  buffer : UInt32 := 0
  bits : Nat := 0

/-- `match character`. -/
def digitOf (character : UInt8) : Option UInt8 :=
  if 0x41 ≤ character ∧ character ≤ 0x5a then .some (character - 0x41)
  else if 0x32 ≤ character ∧ character ≤ 0x37 then .some (character - 0x32 + 26)
  else .none

/-- `while bits >= 8`. -/
def drain : Nat → Regroup → Exec AppCoreError Regroup
  | 0, _ => .error .fuel
  | fuel + 1, s =>
    if s.bits < 8 then .ok s
    else if s.decoded.length ≥ decodedLength then
      Exec.err (.internal "Stellar contract strkey decoded length exceeds 35 bytes")
    else
      let bits := s.bits - 8
      drain fuel {
        decoded := s.decoded ++ [(s.buffer >>> UInt32.ofNat bits).toUInt8]
        buffer := if bits = 0 then 0 else s.buffer &&& ((1 <<< UInt32.ofNat bits) - 1)
        bits }

/-- One turn of `for character in value.bytes()`. -/
def takeCharacter (s : Regroup) (character : UInt8) : Exec AppCoreError Regroup :=
  match digitOf character with
  | .none => Exec.err (.internal s!"Stellar contract strkey contains non-base32 character: {character}")
  | .some digit =>
    drain (s.bits + 5) { s with buffer := (s.buffer <<< 5) ||| digit.toUInt32, bits := s.bits + 5 }

/-- `for _ in 0..8`. -/
def crcBit (crc : UInt16) : UInt16 := if crc &&& 0x8000 ≠ 0 then (crc <<< 1) ^^^ 0x1021 else crc <<< 1

/-- `for byte in &decoded[..33]`. -/
def crcByte (crc : UInt16) (byte : UInt8) : UInt16 := crcBit^[8] (crc ^^^ (byte.toUInt16 <<< 8))

/-- `{:02x}` and `{:04x}`. -/
def hexText (bytes : List UInt8) : String := String.ofList (Hex.encodeChars bytes)

theorem length_identity {decoded : List UInt8} (h : decoded.length = decodedLength) :
    ((decoded.drop 1).take 32).length = 32 := by
  rw [List.length_take, List.length_drop, h]
  rfl

/-- The checks on what is decoded. -/
def checkDecoded (version : UInt8) (decoded : List UInt8) : Exec AppCoreError (Bytes 32) :=
  if h : decoded.length = decodedLength then do
    let first ← Exec.get decoded[0]?
    if first ≠ version then
      Exec.err (.internal ("Stellar strkey has unsupported version byte 0x" ++ hexText [first] ++ ", expected 0x" ++
        hexText [version]))
    let crc := (decoded.take 33).foldl crcByte 0
    let low ← Exec.get decoded[33]?
    let high ← Exec.get decoded[34]?
    let expectedCrc := low.toUInt16 ||| (high.toUInt16 <<< 8)
    if crc ≠ expectedCrc then
      Exec.err (.internal ("Stellar contract strkey checksum mismatch: expected 0x" ++
        hexText (Bits.bytesOf 2 expectedCrc.toNat) ++ ", calculated 0x" ++ hexText (Bits.bytesOf 2 crc.toNat)))
    return ⟨(decoded.drop 1).take 32, length_identity h⟩
  else Exec.err (.internal s!"Stellar contract strkey decoded to {decoded.length} bytes, expected 35")

def stellarStrkeyPayload (value : String) (version : UInt8) : Exec AppCoreError (Bytes 32) := do
  if value.utf8ByteSize ≠ strkeyLength then
    Exec.err (.internal s!"Stellar contract strkey must be {strkeyLength} characters, got {value.utf8ByteSize}")
  let s ← (utf8 value).foldlM takeCharacter {}
  checkDecoded version s.decoded

def stellarContractIdFromStrkey (value : String) : Exec AppCoreError (Bytes 32) := stellarStrkeyPayload value 0x10

def stellarAccountIdFromStrkey (value : String) : Exec AppCoreError (Bytes 32) := stellarStrkeyPayload value 0x30

/-! ## What a strkey is -/

/-- CRC-16/XMODEM: the remainder by `x^16 + x^12 + x^5 + 1` of the message moved
up by sixteen bits. -/
def IsCrc16Xmodem (message : List UInt8) (crc : UInt16) : Prop :=
  Crc.poly 16 crc.toNat = (Crc.messagePoly message * Polynomial.X ^ 16) %ₘ Crc.generator 16 0x1021

/-- The strkey of `id`, with its checksum low byte first. -/
def strkeyBytes (version : UInt8) (id : Bytes 32) (crc : UInt16) : List UInt8 :=
  version :: id.val ++ [crc.toUInt8, (crc >>> 8).toUInt8]

/-! ## Characters -/

/-- The characters of the alphabet are the ones that have a digit. -/
theorem digitOf_symbol : ∀ d < 32, digitOf (UInt8.ofNat (Base32.symbol d).toNat) = .some (UInt8.ofNat d) ∧
    (Base32.symbol d).toNat < 128 := by
  decide +kernel

theorem symbol_of_digitOf {character digit : UInt8} (h : digitOf character = .some digit) :
    digit.toNat < 32 ∧ character.toNat = (Base32.symbol digit.toNat).toNat := by
  unfold digitOf at h
  split at h
  next hletter =>
    obtain rfl := Option.some.inj h
    obtain ⟨hlow, hhigh⟩ := hletter
    have hsub : (character - 0x41).toNat = character.toNat - 65 := UInt8.toNat_sub_of_le _ _ hlow
    have hlow := UInt8.le_iff_toNat_le.mp hlow
    have hhigh := UInt8.le_iff_toNat_le.mp hhigh
    simp only [UInt8.reduceToNat] at hlow hhigh
    rw [hsub, Base32.symbol, if_pos (by omega), toNat_ofNat_of_le (by omega)]
    omega
  · split at h
    next hnumber =>
      obtain rfl := Option.some.inj h
      obtain ⟨hlow, hhigh⟩ := hnumber
      have hsub : (character - 0x32).toNat = character.toNat - 50 := UInt8.toNat_sub_of_le _ _ hlow
      have hlow := UInt8.le_iff_toNat_le.mp hlow
      have hhigh := UInt8.le_iff_toNat_le.mp hhigh
      simp only [UInt8.reduceToNat] at hlow hhigh
      have hadd : (character - 0x32 + 26).toNat = character.toNat - 24 := by
        rw [UInt8.toNat_add, hsub]
        simp only [UInt8.reduceToNat]
        omega
      rw [hadd, Base32.symbol, if_neg (by omega), toNat_ofNat_of_le (by omega)]
      omega
    · cases h

/-! ## Regrouping -/

/-- The loop has seen the digits `ds`: their bits are the decoded bytes' and
then those in the buffer, which are too few for a byte. -/
structure Regrouped (ds : List Nat) (s : Regroup) : Prop where
  few : s.bits < 8
  small : s.buffer.toNat < 2 ^ s.bits
  bits : Base32.digitBits ds = Base32.bits s.decoded ++ Bits.ofNat s.bits s.buffer.toNat

theorem regrouped_nil : Regrouped [] {} := ⟨by decide, by decide, rfl⟩

theorem ofNat_add (a b : Nat) : ∀ (high low : Nat), low < 2 ^ b →
    Bits.ofNat (a + b) (high * 2 ^ b + low) = Bits.ofNat a high ++ Bits.ofNat b low := by
  induction b with
  | zero =>
    intro high low h
    obtain rfl : low = 0 := by simpa using h
    simp [Bits.ofNat]
  | succ b ih =>
    intro high low h
    have hpow : high * 2 ^ (b + 1) = 2 * (high * 2 ^ b) := by
      rw [Nat.pow_succ]
      ring
    rw [Nat.pow_succ] at h
    have hhalf : (high * 2 ^ (b + 1) + low) / 2 = high * 2 ^ b + low / 2 := by omega
    have hlast : (high * 2 ^ (b + 1) + low) % 2 = low % 2 := by omega
    rw [← Nat.add_assoc, Bits.ofNat, hhalf, hlast, ih high (low / 2) (by omega), Bits.ofNat, List.append_assoc]

/-- The buffer with one more digit. -/
theorem push_toNat {buffer : UInt32} {digit : UInt8} {bits : Nat} (hbits : bits < 8) (hbuffer : buffer.toNat < 2 ^ bits)
    (hdigit : digit.toNat < 32) :
    ((buffer <<< 5) ||| digit.toUInt32).toNat = buffer.toNat * 2 ^ 5 + digit.toNat := by
  have hlt : buffer.toNat < 2 ^ 7 := hbuffer.trans_le (Nat.pow_le_pow_right Nat.two_pos (by omega))
  have hshift : (buffer <<< 5).toNat = buffer.toNat <<< 5 := by
    rw [UInt32.toNat_shiftLeft]
    have hmod : buffer.toNat <<< 5 < 2 ^ 32 := by
      rw [Nat.shiftLeft_eq]
      omega
    exact Nat.mod_eq_of_lt hmod
  rw [UInt32.toNat_or, hshift, UInt8.toNat_toUInt32, ← Nat.shiftLeft_add_eq_or_of_lt (by omega), Nat.shiftLeft_eq]

theorem mask_toNat : ∀ b < 8, ((1 <<< UInt32.ofNat b) - 1 : UInt32).toNat = 2 ^ b - 1 := by decide +kernel

/-- What is left in the buffer when a byte is taken off it. -/
theorem mask_and_toNat (buffer : UInt32) {b : Nat} (hb : b < 8) :
    (if b = 0 then 0 else buffer &&& ((1 <<< UInt32.ofNat b) - 1) : UInt32).toNat = buffer.toNat % 2 ^ b := by
  split
  next hzero => rw [hzero, Nat.pow_zero, Nat.mod_one, UInt32.toNat_zero]
  next hzero => rw [UInt32.toNat_and, mask_toNat b hb, Nat.and_two_pow_sub_one_eq_mod]

theorem shift_toNat (buffer : UInt32) {b : Nat} (hb : b < 8) (hbuffer : buffer.toNat < 2 ^ (8 + b)) :
    (buffer >>> UInt32.ofNat b).toUInt8.toNat = buffer.toNat / 2 ^ b := by
  have hsmall : (UInt32.ofNat b).toNat % 32 = b := by
    rw [UInt32.toNat_ofNat']
    omega
  have hlt : buffer.toNat / 2 ^ b < 2 ^ 8 := by
    rw [Nat.div_lt_iff_lt_mul (Nat.two_pow_pos b), ← Nat.pow_add]
    exact hbuffer
  rw [UInt32.toNat_toUInt8, UInt32.toNat_shiftRight, hsmall, Nat.shiftRight_eq_div_pow]
  exact Nat.mod_eq_of_lt hlt

theorem drain_few {fuel : Nat} {s : Regroup} (h : s.bits < 8) : drain (fuel + 1) s = .ok s := if_pos h

/-- A byte off the buffer, and what is left in it. -/
theorem byte_bits (decoded : List UInt8) (buffer : UInt32) {bits : Nat} (h : 8 ≤ bits) (hmore : bits < 16)
    (hbuffer : buffer.toNat < 2 ^ bits) :
    Base32.bits decoded ++ Bits.ofNat bits buffer.toNat =
      Base32.bits (decoded ++ [(buffer >>> UInt32.ofNat (bits - 8)).toUInt8]) ++
        Bits.ofNat (bits - 8) (buffer.toNat % 2 ^ (bits - 8)) := by
  have hwidth : 8 + (bits - 8) = bits := Nat.add_sub_cancel' h
  have hshift := shift_toNat buffer (show bits - 8 < 8 by omega) (by rwa [hwidth])
  have hsplit := ofNat_add 8 (bits - 8) (buffer.toNat / 2 ^ (bits - 8)) (buffer.toNat % 2 ^ (bits - 8))
    (Nat.mod_lt _ (Nat.two_pow_pos _))
  rw [Nat.div_add_mod', hwidth] at hsplit
  rw [Base32.bits_concat, hshift, hsplit, List.append_assoc]

/-- A byte is taken off the buffer when it has one. -/
theorem drain_byte (fuel : Nat) (s : Regroup) (h : 8 ≤ s.bits) (hmore : s.bits < 16)
    (hroom : s.decoded.length < decodedLength) (hbuffer : s.buffer.toNat < 2 ^ s.bits) :
    ∃ s', drain (fuel + 2) s = .ok s' ∧ s'.bits < 8 ∧ s'.buffer.toNat < 2 ^ s'.bits ∧
      Base32.bits s.decoded ++ Bits.ofNat s.bits s.buffer.toNat =
        Base32.bits s'.decoded ++ Bits.ofNat s'.bits s'.buffer.toNat := by
  have hmask := mask_and_toNat s.buffer (show s.bits - 8 < 8 by omega)
  rw [drain, if_neg (not_lt.mpr h), if_neg (not_le.mpr hroom), drain_few (by dsimp only; omega)]
  refine ⟨_, rfl, by dsimp only; omega, ?_, ?_⟩
  · dsimp only
    rw [hmask]
    exact Nat.mod_lt _ (Nat.two_pow_pos _)
  · dsimp only
    rw [hmask, byte_bits s.decoded s.buffer h hmore hbuffer]

/-- The bits of one more digit go to the buffer. -/
theorem Regrouped.push {ds : List Nat} {s : Regroup} {digit : UInt8} (h : Regrouped ds s)
    (hlt : digit.toNat < 32) :
    ((s.buffer <<< 5) ||| digit.toUInt32).toNat < 2 ^ (s.bits + 5) ∧ Base32.digitBits (ds ++ [digit.toNat]) =
      Base32.bits s.decoded ++ Bits.ofNat (s.bits + 5) ((s.buffer <<< 5) ||| digit.toUInt32).toNat := by
  have hpush := push_toNat h.few h.small hlt
  have hbuffer := h.small
  have hconcat : Base32.digitBits (ds ++ [digit.toNat]) = Base32.digitBits ds ++ Bits.ofNat 5 digit.toNat := by
    rw [Base32.digitBits, Base32.digitBits, List.flatMap_append, List.flatMap_singleton]
  refine ⟨?_, by rw [hconcat, h.bits, hpush, ofNat_add s.bits 5 _ _ hlt, List.append_assoc]⟩
  rw [hpush, Nat.pow_add]
  omega

/-- One more character with a digit. -/
theorem Regrouped.takeCharacter {ds : List Nat} {s : Regroup} {character digit : UInt8} (h : Regrouped ds s)
    (hroom : ds.length < strkeyLength) (hdigit : digitOf character = .some digit) :
    ∃ s', takeCharacter s character = .ok s' ∧ Regrouped (ds ++ [digit.toNat]) s' := by
  obtain ⟨hlt, -⟩ := symbol_of_digitOf hdigit
  obtain ⟨hsmall, hbits⟩ := h.push hlt
  have hcount := congrArg List.length h.bits
  rw [Base32.length_digitBits, List.length_append, Base32.length_bits, Bits.length_ofNat] at hcount
  have hfew := h.few
  have hlength : strkeyLength = 56 := rfl
  rw [Strkey.takeCharacter, hdigit]
  dsimp only
  by_cases hbyte : s.bits + 5 < 8
  · exact ⟨_, drain_few hbyte, hbyte, hsmall, hbits⟩
  · obtain ⟨s', hok, hfew', hsmall', hbits'⟩ := drain_byte (s.bits + 3)
      { s with buffer := (s.buffer <<< 5) ||| digit.toUInt32, bits := s.bits + 5 } (not_lt.mp hbyte)
      (by dsimp only; omega) (by dsimp only [decodedLength]; omega) hsmall
    exact ⟨s', hok, hfew', hsmall', hbits.trans hbits'⟩

/-- The characters have these digits. -/
abbrev HasDigits (characters digits : List UInt8) : Prop :=
  List.Forall₂ (fun character digit => digitOf character = .some digit) characters digits

theorem Regrouped.takeCharacters : ∀ {characters digits : List UInt8} {ds : List Nat} {s : Regroup}, Regrouped ds s →
    ds.length + characters.length ≤ strkeyLength → HasDigits characters digits →
    ∃ s', characters.foldlM Strkey.takeCharacter s = .ok s' ∧ Regrouped (ds ++ digits.map UInt8.toNat) s'
  | [], [], ds, s, h, _, .nil => ⟨s, rfl, by rwa [List.map_nil, List.append_nil]⟩
  | character :: characters, digit :: digits, ds, s, h, hroom, .cons hdigit hdigits => by
    rw [List.length_cons] at hroom
    obtain ⟨next, hnext, hregrouped⟩ := h.takeCharacter (by omega) hdigit
    obtain ⟨s', hs', hall⟩ := hregrouped.takeCharacters
      (by rw [List.length_append, List.length_singleton]; omega) hdigits
    refine ⟨s', by rw [List.foldlM_cons, hnext, Exec.ok_bind, hs'], ?_⟩
    rwa [List.map_cons, List.append_cons]

theorem hasDigits_of_takeCharacters : ∀ {characters : List UInt8} {s s' : Regroup},
    characters.foldlM takeCharacter s = .ok s' → ∃ digits, HasDigits characters digits
  | [], _, _, _ => ⟨[], .nil⟩
  | character :: characters, s, s', h => by
    rw [List.foldlM_cons] at h
    obtain ⟨next, hnext, h⟩ := Exec.bind_ok_iff.mp h
    obtain ⟨digits, hdigits⟩ := hasDigits_of_takeCharacters h
    cases hdigit : digitOf character with
    | none =>
      rw [takeCharacter, hdigit] at hnext
      cases hnext
    | some digit => exact ⟨digit :: digits, .cons hdigit hdigits⟩

/-! ## Text -/

theorem utf8_symbols {ds : List Nat} (h : ∀ d ∈ ds, d < 32) :
    utf8 (String.ofList (ds.map Base32.symbol)) = ds.map fun d => UInt8.ofNat (Base32.symbol d).toNat := by
  rw [utf8_ascii, List.map_map]
  · rfl
  · intro c hc
    obtain ⟨d, hd, rfl⟩ := List.mem_map.mp hc
    exact (digitOf_symbol d (h d hd)).2

/-- The text whose characters have these digits. -/
theorem HasDigits.text {value : String} {digits : List UInt8} (h : HasDigits (utf8 value) digits) :
    value = String.ofList ((digits.map UInt8.toNat).map Base32.symbol) ∧ ∀ d ∈ digits.map UInt8.toNat, d < 32 := by
  have hlt : ∀ d ∈ digits.map UInt8.toNat, d < 32 := by
    intro d hd
    obtain ⟨digit, hdigit, rfl⟩ := List.mem_map.mp hd
    obtain ⟨character, -, hcharacter⟩ := Related.exists_left h hdigit
    exact (symbol_of_digitOf hcharacter).1
  refine ⟨utf8_inj ?_, hlt⟩
  have hsame := Related.map_eq (f := fun digit => UInt8.ofNat (Base32.symbol digit.toNat).toNat) (g := id) h
    fun character digit hdigit => by rw [← (symbol_of_digitOf hdigit).2, UInt8.ofNat_toNat, id]
  rw [utf8_symbols hlt, List.map_map, ← List.map_id (utf8 value), ← hsame]
  rfl

theorem hasDigits_symbols {ds : List Nat} (h : ∀ d ∈ ds, d < 32) :
    HasDigits (ds.map fun d => UInt8.ofNat (Base32.symbol d).toNat) (ds.map UInt8.ofNat) := by
  induction ds with
  | nil => exact .nil
  | cons d ds ih =>
    exact .cons (digitOf_symbol d (h d List.mem_cons_self)).1 (ih fun d hd => h d (List.mem_cons_of_mem _ hd))

theorem length_utf8_encode (bytes : List UInt8) (n : Nat) (h : 8 * bytes.length = 5 * n) :
    (utf8 (Base32.encode bytes)).length = n := by
  obtain ⟨-, hlen, hlt⟩ := Base32.digitBits_digits n ((Base32.length_bits bytes).trans h)
  rw [Base32.encode, utf8_symbols hlt, List.length_map, hlen]

/-- The loop decodes base32: 56 characters are decoded to 35 bytes just when
they are those bytes' encoding. -/
theorem takeCharacters_iff {value : String} (hlen : (utf8 value).length = strkeyLength) (decoded : List UInt8) :
    (∃ s, (utf8 value).foldlM takeCharacter {} = .ok s ∧ s.decoded = decoded) ↔
      decoded.length = decodedLength ∧ value = Base32.encode decoded := by
  have hrun : ∀ {digits : List UInt8}, HasDigits (utf8 value) digits → ∃ s,
      (utf8 value).foldlM takeCharacter {} = .ok s ∧ s.decoded.length = decodedLength ∧
        Base32.digitBits (digits.map UInt8.toNat) = Base32.bits s.decoded := by
    intro digits hdigits
    obtain ⟨s, hok, hs⟩ := regrouped_nil.takeCharacters (by rw [List.length_nil, Nat.zero_add, hlen]) hdigits
    rw [List.nil_append] at hs
    have hcount := congrArg List.length hs.bits
    rw [Base32.length_digitBits, List.length_map, ← hdigits.length_eq, hlen, List.length_append, Base32.length_bits,
      Bits.length_ofNat] at hcount
    have hfew := hs.few
    have hbits := hs.bits
    dsimp only [strkeyLength] at hcount
    obtain hzero : s.bits = 0 := by omega
    rw [hzero, Bits.ofNat, List.append_nil] at hbits
    exact ⟨s, hok, by dsimp only [decodedLength]; omega, hbits⟩
  constructor
  · rintro ⟨s, hok, rfl⟩
    obtain ⟨digits, hdigits⟩ := hasDigits_of_takeCharacters hok
    obtain ⟨s', hok', hlength, hbits⟩ := hrun hdigits
    obtain rfl := Except.ok.inj (hok.symm.trans hok')
    obtain ⟨htext, hlt⟩ := hdigits.text
    refine ⟨hlength, ?_⟩
    rw [Base32.encode, ← hbits, Base32.digits_digitBits hlt]
    exact htext
  · rintro ⟨hlength, rfl⟩
    have hcount : (Base32.bits decoded).length = 5 * 56 := by rw [Base32.length_bits, hlength, decodedLength]
    obtain ⟨hwhole, -, hlt⟩ := Base32.digitBits_digits 56 hcount
    have hutf8 := utf8_symbols hlt
    have hdigits := hasDigits_symbols hlt
    rw [← hutf8] at hdigits
    obtain ⟨s, hok, -, hbits⟩ := hrun hdigits
    have hsame : ∀ d ∈ Base32.digits (Base32.bits decoded), (UInt8.toNat ∘ UInt8.ofNat) d = id d := fun d hd =>
      UInt8.toNat_ofNat_of_lt' (by have := hlt d hd; simp only [UInt8.size]; omega)
    refine ⟨s, hok, Base32.bits_injective ?_⟩
    rw [← hbits, List.map_map, List.map_congr_left hsame, List.map_id, hwhole]

/-! ## The checksum -/

theorem crcBit_toNat (crc : UInt16) : (crcBit crc).toNat = Crc.step 16 0x1021 crc.toNat := by
  have hshift : (crc <<< 1).toNat = crc.toNat <<< 1 % 2 ^ 16 := UInt16.toNat_shiftLeft crc 1
  have hbit : crc &&& 0x8000 ≠ 0 ↔ crc.toNat.testBit 15 = true := by
    have hand : (crc &&& 0x8000).toNat = (crc.toNat.testBit 15).toNat * 2 ^ 15 := by
      rw [UInt16.toNat_and]
      exact Nat.and_two_pow crc.toNat 15
    rw [ne_eq, ← UInt16.toNat_inj, hand]
    cases crc.toNat.testBit 15 <;> simp
  unfold crcBit Crc.step
  by_cases h : crc &&& 0x8000 ≠ 0
  · rw [if_pos h, if_pos (hbit.mp h), UInt16.toNat_xor, hshift]
    rfl
  · rw [if_neg h, if_neg (mt hbit.mpr h), hshift]

theorem crcByte_toNat (crc : UInt16) (byte : UInt8) :
    (crcByte crc byte).toNat = Crc.byteStep 16 0x1021 crc.toNat byte := by
  have hbyte : (byte.toUInt16 <<< 8).toNat = byte.toNat <<< 8 := by
    have hlt := byte.toNat_lt
    have hmod : (byte.toUInt16 <<< 8).toNat = byte.toNat <<< 8 % 2 ^ 16 := UInt16.toNat_shiftLeft byte.toUInt16 8
    rw [hmod, Nat.shiftLeft_eq]
    exact Nat.mod_eq_of_lt (by omega)
  have hiterate : ∀ (n : Nat) (crc : UInt16), (crcBit^[n] crc).toNat = (Crc.step 16 0x1021)^[n] crc.toNat := by
    intro n
    induction n with
    | zero => exact fun crc => rfl
    | succ n ih =>
      intro crc
      rw [Function.iterate_succ_apply, Function.iterate_succ_apply, ih, crcBit_toNat]
  rw [crcByte, hiterate, UInt16.toNat_xor, hbyte]
  rfl

theorem foldl_crcByte_toNat (message : List UInt8) :
    (message.foldl crcByte 0).toNat = message.foldl (Crc.byteStep 16 0x1021) 0 := by
  induction message using List.reverseRecOn with
  | nil => rfl
  | append_singleton message byte ih =>
    rw [List.foldl_append, List.foldl_append, List.foldl_cons, List.foldl_nil, List.foldl_cons, List.foldl_nil,
      crcByte_toNat, ih]

/-- The loop computes CRC-16/XMODEM. -/
theorem isCrc16Xmodem_iff (message : List UInt8) (crc : UInt16) :
    IsCrc16Xmodem message crc ↔ message.foldl crcByte 0 = crc := by
  have hremainder := @Crc.poly_foldl_byteStep 16 0x1021 (by decide) message
  rw [← foldl_crcByte_toNat] at hremainder
  rw [IsCrc16Xmodem, ← hremainder, eq_comm, ← UInt16.toNat_inj]
  refine ⟨fun h => Crc.poly_injective (UInt16.toNat_lt _) crc.toNat_lt h, fun h => by rw [h]⟩

/-- The two bytes of a checksum, low byte first. -/
theorem checksum_iff (low high : UInt8) (crc : UInt16) :
    crc = low.toUInt16 ||| (high.toUInt16 <<< 8) ↔ low = crc.toUInt8 ∧ high = (crc >>> 8).toUInt8 := by
  have hlow := low.toNat_lt
  have hhigh := high.toNat_lt
  have hcrc := crc.toNat_lt
  have hshift : (high.toUInt16 <<< 8).toNat = high.toNat <<< 8 := by
    have hmod : (high.toUInt16 <<< 8).toNat = high.toNat <<< 8 % 2 ^ 16 := UInt16.toNat_shiftLeft high.toUInt16 8
    rw [hmod, Nat.shiftLeft_eq]
    exact Nat.mod_eq_of_lt (by omega)
  have hor : (low.toUInt16 ||| (high.toUInt16 <<< 8)).toNat = high.toNat * 256 + low.toNat := by
    rw [UInt16.toNat_or, hshift, UInt8.toNat_toUInt16, Nat.or_comm, ← Nat.shiftLeft_add_eq_or_of_lt hlow,
      Nat.shiftLeft_eq]
  have hdown : (crc >>> 8).toNat = crc.toNat / 256 := by
    have hshiftRight : (crc >>> 8).toNat = crc.toNat >>> 8 := UInt16.toNat_shiftRight crc 8
    rw [hshiftRight, Nat.shiftRight_eq_div_pow]
  rw [← UInt16.toNat_inj, ← UInt8.toNat_inj, ← UInt8.toNat_inj, hor, UInt16.toNat_toUInt8, UInt16.toNat_toUInt8, hdown]
  omega

/-! ## Strkeys -/

theorem length_strkeyBytes (version : UInt8) (id : Bytes 32) (crc : UInt16) :
    (strkeyBytes version id crc).length = decodedLength := by
  rw [strkeyBytes, List.length_append, List.length_cons, id.property]
  rfl

/-- What is decoded is a version, 32 bytes and a checksum. -/
theorem decoded_parts {decoded : List UInt8} (h : decoded.length = decodedLength) :
    ∃ version low high, ∃ id : Bytes 32, decoded = version :: id.val ++ [low, high] := by
  match decoded, h with
  | version :: rest, h =>
    rw [List.length_cons] at h
    have hlen : rest.length = 34 := Nat.succ.inj h
    have hlast : (rest.drop 32).length = 2 := by rw [List.length_drop, hlen]
    obtain ⟨low, high, hdrop⟩ := List.length_eq_two.mp hlast
    refine ⟨version, low, high, ⟨rest.take 32, List.length_take_of_le (by omega)⟩, ?_⟩
    rw [List.cons_append, ← hdrop, List.take_append_drop]

theorem checkDecoded_iff {decoded : List UInt8} (h : decoded.length = decodedLength) (version : UInt8)
    (id : Bytes 32) : checkDecoded version decoded = .ok id ↔
      ∃ crc, IsCrc16Xmodem (version :: id.val) crc ∧ decoded = strkeyBytes version id crc := by
  obtain ⟨version', low, high, id', rfl⟩ := decoded_parts h
  have hid : id'.val.length = 32 := id'.property
  have hbody : (version' :: id'.val).length = 33 := by rw [List.length_cons, hid]
  have htake : (version' :: id'.val ++ [low, high]).take 33 = version' :: id'.val := List.take_left' hbody
  have hlow : (version' :: id'.val ++ [low, high])[33]? = .some low := by
    rw [List.getElem?_append_right hbody.le, hbody]
    rfl
  have hhigh : (version' :: id'.val ++ [low, high])[34]? = .some high := by
    rw [List.getElem?_append_right (hbody.le.trans (by decide)), hbody]
    rfl
  have hwindow : ((version' :: id'.val ++ [low, high]).drop 1).take 32 = id'.val := List.take_left' hid
  have hfirst : (version' :: id'.val ++ [low, high])[0]? = .some version' := rfl
  have hparts : ∀ crc, version' :: id'.val ++ [low, high] = strkeyBytes version id crc ↔
      version' = version ∧ id' = id ∧ crc = low.toUInt16 ||| (high.toUInt16 <<< 8) := by
    intro crc
    rw [checksum_iff, strkeyBytes, List.cons_append, List.cons_append, List.cons.injEq]
    refine and_congr_right fun _ => ⟨fun heq => ?_, ?_⟩
    · obtain ⟨hsame, hrest⟩ := List.append_inj heq (hid.trans id.property.symm)
      obtain ⟨hlow, hrest⟩ := List.cons.inj hrest
      exact ⟨Subtype.ext hsame, hlow, (List.cons.inj hrest).1⟩
    · rintro ⟨rfl, rfl, rfl⟩
      rfl
  simp only [hparts, isCrc16Xmodem_iff]
  rw [checkDecoded, dif_pos h, hfirst, Exec.get_some, Exec.ok_bind, hlow, Exec.get_some, Exec.ok_bind, hhigh,
    Exec.get_some, Exec.ok_bind, htake]
  by_cases hversion : version' = version
  · subst hversion
    rw [if_neg (not_not.mpr rfl)]
    dsimp only
    by_cases hcrc : (version' :: id'.val).foldl crcByte 0 = low.toUInt16 ||| (high.toUInt16 <<< 8)
    · rw [if_neg (not_not.mpr hcrc), Exec.pure_eq_ok, Except.ok.injEq, ← Subtype.val_inj]
      dsimp only
      rw [hwindow]
      constructor
      · intro hsame
        obtain rfl := Subtype.ext hsame
        exact ⟨_, hcrc, rfl, rfl, rfl⟩
      · rintro ⟨crc, -, -, rfl, -⟩
        rfl
    · rw [if_pos hcrc]
      refine ⟨fun herr => (by cases herr), ?_⟩
      rintro ⟨crc, hfold, -, rfl, rfl⟩
      exact absurd hfold hcrc
  · rw [if_pos hversion]
    exact ⟨fun herr => (by cases herr), fun ⟨_, _, hsame, _⟩ => absurd hsame hversion⟩

/-- A text is read as `id` when it is the base32 of the version, `id` and their checksum. -/
theorem payload_eq_ok (version : UInt8) (value : String) (id : Bytes 32) : stellarStrkeyPayload value version = .ok id ↔
    ∃ crc, IsCrc16Xmodem (version :: id.val) crc ∧ value = Base32.encode (strkeyBytes version id crc) := by
  rw [stellarStrkeyPayload]
  by_cases hlen : value.utf8ByteSize = strkeyLength
  · rw [if_neg (not_not.mpr hlen)]
    dsimp only
    rw [Exec.bind_ok_iff]
    have hdecode := takeCharacters_iff ((length_utf8 value).trans hlen)
    constructor
    · rintro ⟨s, hs, hcheck⟩
      obtain ⟨hlength, hvalue⟩ := (hdecode s.decoded).mp ⟨s, hs, rfl⟩
      obtain ⟨crc, hcrc, hdecoded⟩ := (checkDecoded_iff hlength version id).mp hcheck
      exact ⟨crc, hcrc, hdecoded ▸ hvalue⟩
    · rintro ⟨crc, hcrc, hvalue⟩
      have hlength := length_strkeyBytes version id crc
      obtain ⟨s, hs, hdecoded⟩ := (hdecode _).mpr ⟨hlength, hvalue⟩
      refine ⟨s, hs, ?_⟩
      rw [hdecoded]
      exact (checkDecoded_iff hlength version id).mpr ⟨crc, hcrc, rfl⟩
  · rw [if_pos hlen]
    refine ⟨fun herr => (by cases herr), ?_⟩
    rintro ⟨crc, -, rfl⟩
    refine absurd ?_ hlen
    rw [← length_utf8]
    exact length_utf8_encode _ 56 (by rw [length_strkeyBytes, decodedLength])

/-- **Strkeys are canonical**: a text is read as `id` just when it is the base32
of the version, `id` and their checksum, so each `id` has one spelling. -/
theorem stellarStrkeyPayload_iff (version : UInt8) :
    (∀ (value : String) (id : Bytes 32), stellarStrkeyPayload value version = .ok id ↔
      ∃ crc, IsCrc16Xmodem (version :: id.val) crc ∧ value = Base32.encode (strkeyBytes version id crc)) ∧
    (∀ id : Bytes 32, ∃! value, stellarStrkeyPayload value version = .ok id) ∧
    ∀ value value' id, stellarStrkeyPayload value version = .ok id → stellarStrkeyPayload value' version = .ok id →
      value = value' := by
  have hiff := payload_eq_ok version
  have hunique : ∀ value value' id, stellarStrkeyPayload value version = .ok id →
      stellarStrkeyPayload value' version = .ok id → value = value' := by
    intro value value' id h h'
    obtain ⟨crc, hcrc, rfl⟩ := (hiff value id).mp h
    obtain ⟨crc', hcrc', rfl⟩ := (hiff value' id).mp h'
    rw [isCrc16Xmodem_iff] at hcrc hcrc'
    rw [← hcrc, ← hcrc']
  refine ⟨hiff, fun id => ?_, hunique⟩
  have hspelling := (hiff _ id).mpr ⟨_, (isCrc16Xmodem_iff _ _).mpr rfl, rfl⟩
  exact ⟨_, hspelling, fun value h => hunique _ _ id h hspelling⟩

def zeroId : Bytes 32 := ⟨List.replicate 32 0, Bytes.length_zeros⟩

def zeroContract : String := "CAAAAAAAAAAAAAAAAAAAAAAAAAAAAAAAAAAAAAAAAAAAAAAAAAAABSC4"

theorem stellarStrkeyPayload_iff_zero : stellarStrkeyPayload zeroContract 0x10 = .ok zeroId ∧
    ∀ value, stellarStrkeyPayload value 0x10 = .ok zeroId → value = zeroContract := by
  have hread : stellarStrkeyPayload zeroContract 0x10 = .ok zeroId := by decide +kernel
  exact ⟨hread, fun value h => (stellarStrkeyPayload_iff 0x10).2.2 value zeroContract zeroId h hread⟩

end Pillar.Strkey
