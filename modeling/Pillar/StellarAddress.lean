/-
Stellar addresses in source events (`pillar-runtime`,
`layerzero_runtime/source_events_stellar.rs`): strkeys are decoded a second time
here, with no check on how many characters they have.
-/
import Pillar.Strkey

namespace Pillar.StellarAddress

open Text Abi Strkey

/-! ## The code -/

/-- One turn of the loop of `base32_decode`, at most one byte of which is whole. -/
def pushDigit (s : Regroup) (digit : UInt8) : Regroup :=
  let buffer := (s.buffer <<< 5) ||| digit.toUInt32
  let bits := s.bits + 5
  if bits ≥ 8 then
    let bits := bits - 8
    { decoded := s.decoded ++ [(buffer >>> UInt32.ofNat bits).toUInt8]
      buffer := buffer &&& ((1 <<< UInt32.ofNat bits) - 1)
      bits }
  else { s with buffer, bits }

def base32Decode (value : String) : Option (List UInt8) := do
  let s ← (utf8 value).foldlM (fun s byte => (digitOf byte).map (pushDigit s)) {}
  return s.decoded

def crc16Xmodem (bytes : List UInt8) : UInt16 := bytes.foldl crcByte 0

/-- `decoded` is what `base32_decode` returns. -/
def checkStrkey (decoded : List UInt8) : Option (Bytes 32) :=
  if h : decoded.length = decodedLength then do
    let (payload, checksum) := decoded.splitAt 33
    let low ← checksum[0]?
    let high ← checksum[1]?
    let expected := low.toUInt16 ||| (high.toUInt16 <<< 8)
    if crc16Xmodem payload ≠ expected then .none
    else
      let version ← payload[0]?
      if version ≠ 0x10 ∧ version ≠ 0x30 then .none
      else .some ⟨(decoded.drop 1).take 32, length_identity h⟩
  else .none

def decodeStellarStrkey (address : String) : Option (Bytes 32) := do
  let decoded ← base32Decode address
  checkStrkey decoded

def normalizeStellarAddress (address : String) : String :=
  match stripPrefix "0x" address with
  | .some hex => "0x" ++ toAsciiLowercase hex
  | .none =>
    match decodeStellarStrkey address with
    | .some bytes => "0x" ++ hexText bytes.val
    | .none => toAsciiLowercase address

/-! ## Base32 with bits left over -/

theorem regrouped_pushDigit {ds : List Nat} {s : Regroup} {digit : UInt8} (h : Regrouped ds s)
    (hdigit : digit.toNat < 32) : Regrouped (ds ++ [digit.toNat]) (pushDigit s digit) := by
  obtain ⟨hsmall, hbits⟩ := h.push hdigit
  have hfew := h.few
  rw [pushDigit]
  by_cases hbyte : s.bits + 5 ≥ 8
  · have hleft : (((s.buffer <<< 5) ||| digit.toUInt32) &&& ((1 <<< UInt32.ofNat (s.bits + 5 - 8)) - 1)).toNat =
        ((s.buffer <<< 5) ||| digit.toUInt32).toNat % 2 ^ (s.bits + 5 - 8) := by
      rw [UInt32.toNat_and, mask_toNat _ (by omega), Nat.and_two_pow_sub_one_eq_mod]
    rw [if_pos hbyte]
    refine ⟨by dsimp only; omega, ?_, ?_⟩
    · dsimp only
      rw [hleft]
      exact Nat.mod_lt _ (Nat.two_pow_pos _)
    · dsimp only
      rw [hleft, hbits, byte_bits s.decoded _ hbyte (by omega) hsmall]
  · rw [if_neg hbyte]
    exact ⟨not_le.mp hbyte, hsmall, hbits⟩

/-- The loop runs to its end just when every character has a digit. -/
theorem foldlM_pushDigit_iff {characters : List UInt8} {s s' : Regroup} :
    characters.foldlM (fun s byte => (digitOf byte).map (pushDigit s)) s = .some s' ↔
      ∃ digits, HasDigits characters digits ∧ s' = digits.foldl pushDigit s := by
  induction characters generalizing s with
  | nil =>
    constructor
    · intro h
      exact ⟨[], .nil, (Option.some.inj h).symm⟩
    · rintro ⟨digits, hdigits, rfl⟩
      cases hdigits
      rfl
  | cons character characters ih =>
    rw [List.foldlM_cons, Option.bind_eq_bind, Option.bind_eq_some_iff]
    constructor
    · rintro ⟨next, hnext, h⟩
      obtain ⟨digit, hdigit, rfl⟩ := Option.map_eq_some_iff.mp hnext
      obtain ⟨digits, hdigits, rfl⟩ := ih.mp h
      exact ⟨digit :: digits, .cons hdigit hdigits, rfl⟩
    · rintro ⟨digits, hdigits, rfl⟩
      obtain ⟨digit, more, hdigit, hmore, rfl⟩ := List.forall₂_cons_left_iff.mp hdigits
      exact ⟨pushDigit s digit, by rw [hdigit, Option.map_some], ih.mpr ⟨more, hmore, rfl⟩⟩

theorem regrouped_pushDigits : ∀ {digits : List UInt8} {ds : List Nat} {s : Regroup}, Regrouped ds s →
    (∀ d ∈ digits.map UInt8.toNat, d < 32) → Regrouped (ds ++ digits.map UInt8.toNat) (digits.foldl pushDigit s)
  | [], ds, s, h, _ => by rwa [List.map_nil, List.append_nil]
  | digit :: digits, ds, s, h, hlt => by
    obtain ⟨hdigit, hdigits⟩ := List.forall_mem_cons.mp hlt
    have hall := regrouped_pushDigits (regrouped_pushDigit h hdigit) hdigits
    rwa [List.map_cons, List.append_cons]

/-- **What is decoded** are the bytes that the digits' bits begin with, when
fewer than eight bits are left. -/
theorem base32Decode_eq_some {value : String} {decoded : List UInt8} : base32Decode value = .some decoded ↔
    ∃ ds rest, (∀ d ∈ ds, d < 32) ∧ value = String.ofList (ds.map Base32.symbol) ∧
      Base32.digitBits ds = Base32.bits decoded ++ rest ∧ rest.length < 8 := by
  rw [base32Decode, Option.bind_eq_bind, Option.bind_eq_some_iff]
  constructor
  · rintro ⟨s, hs, hdecoded⟩
    obtain rfl := Option.some.inj hdecoded
    obtain ⟨digits, hdigits, rfl⟩ := foldlM_pushDigit_iff.mp hs
    obtain ⟨htext, hlt⟩ := hdigits.text
    have hregrouped := regrouped_pushDigits regrouped_nil hlt
    rw [List.nil_append] at hregrouped
    exact ⟨_, _, hlt, htext, hregrouped.bits, by rw [Bits.length_ofNat]; exact hregrouped.few⟩
  · rintro ⟨ds, rest, hlt, rfl, hbits, hfew⟩
    have hdigits := hasDigits_symbols hlt
    have hsame : (ds.map UInt8.ofNat).map UInt8.toNat = ds := by
      rw [List.map_map, List.map_congr_left (g := id), List.map_id]
      exact fun d hd => UInt8.toNat_ofNat_of_lt' (by have := hlt d hd; simp only [UInt8.size]; omega)
    rw [← utf8_symbols hlt] at hdigits
    refine ⟨_, foldlM_pushDigit_iff.mpr ⟨_, hdigits, rfl⟩, congrArg some ?_⟩
    have hsmall : ∀ d ∈ (ds.map UInt8.ofNat).map UInt8.toNat, d < 32 := by rwa [hsame]
    have hregrouped := regrouped_pushDigits regrouped_nil hsmall
    rw [List.nil_append, hsame] at hregrouped
    have hboth := hbits.symm.trans hregrouped.bits
    have hcount := congrArg List.length hboth
    rw [List.length_append, List.length_append, Base32.length_bits, Base32.length_bits, Bits.length_ofNat] at hcount
    have hfew' := hregrouped.few
    obtain ⟨hbytes, -⟩ := List.append_inj hboth (by rw [Base32.length_bits, Base32.length_bits]; omega)
    exact (Base32.bits_injective hbytes).symm

/-- One more character that the decoder has no bits to make a byte of. -/
def overlongText (decoded : List UInt8) (digit : Nat) : String :=
  Base32.encode decoded ++ String.singleton (Base32.symbol digit)

/-- **Thirty-five bytes have two kinds of spelling**: their base32, and their
base32 with a character more. -/
theorem base32Decode_strkey {value : String} {decoded : List UInt8} (h : decoded.length = decodedLength) :
    base32Decode value = .some decoded ↔
      value = Base32.encode decoded ∨ ∃ digit < 32, value = overlongText decoded digit := by
  have hbits : (Base32.bits decoded).length = 5 * 56 := by rw [Base32.length_bits, h, decodedLength]
  obtain ⟨hwhole, hcount, hlt⟩ := Base32.digitBits_digits 56 hbits
  have hover : ∀ digit, overlongText decoded digit =
      String.ofList ((Base32.digits (Base32.bits decoded) ++ [digit]).map Base32.symbol) := by
    intro digit
    rw [overlongText, Base32.encode, List.map_append, String.ofList_append]
    rfl
  rw [base32Decode_eq_some]
  constructor
  · rintro ⟨ds, rest, hds, rfl, hsplit, hfew⟩
    have hlen := congrArg List.length hsplit
    rw [Base32.length_digitBits, List.length_append, hbits] at hlen
    have htake : Base32.digitBits (ds.take 56) = Base32.bits decoded := by
      have hds : ds = ds.take 56 ++ ds.drop 56 := (List.take_append_drop 56 ds).symm
      rw [hds, Base32.digitBits, List.flatMap_append] at hsplit
      refine (List.append_inj hsplit ?_).1
      rw [← Base32.digitBits, Base32.length_digitBits, List.length_take, hbits]
      omega
    have hfirst : ds.take 56 = Base32.digits (Base32.bits decoded) := by
      rw [← htake, Base32.digits_digitBits fun d hd => hds d (List.mem_of_mem_take hd)]
    by_cases hexact : ds.length = 56
    · left
      rw [Base32.encode, ← hfirst, List.take_of_length_le hexact.le]
    · right
      have hone : (ds.drop 56).length = 1 := by
        rw [List.length_drop]
        omega
      obtain ⟨digit, hdigit⟩ := List.length_eq_one_iff.mp hone
      refine ⟨digit, hds digit (List.mem_of_mem_drop (hdigit ▸ List.mem_singleton_self digit)), ?_⟩
      rw [hover, ← hfirst, ← hdigit, List.take_append_drop]
  · rintro (rfl | ⟨digit, hdigit, rfl⟩)
    · exact ⟨_, [], hlt, rfl, by rw [hwhole, List.append_nil], by decide⟩
    · refine ⟨_, Bits.ofNat 5 digit, ?_, hover digit, ?_, by rw [Bits.length_ofNat]; decide⟩
      · intro d hd
        rcases List.mem_append.mp hd with hd | hd
        · exact hlt d hd
        · rwa [List.mem_singleton.mp hd]
      · rw [Base32.digitBits, List.flatMap_append, List.flatMap_singleton, ← Base32.digitBits, hwhole]

/-! ## Strkeys -/

/-- The version of a contract and the version of an account. -/
def StrkeyVersion (version : UInt8) : Prop := version = 0x10 ∨ version = 0x30

theorem checkStrkey_eq_some {decoded : List UInt8} {id : Bytes 32} : checkStrkey decoded = .some id ↔
    ∃ version crc, StrkeyVersion version ∧ IsCrc16Xmodem (version :: id.val) crc ∧
      decoded = strkeyBytes version id crc := by
  by_cases h : decoded.length = decodedLength
  · obtain ⟨version, low, high, id', rfl⟩ := decoded_parts h
    have hid : id'.val.length = 32 := id'.property
    have hbody : (version :: id'.val).length = 33 := by rw [List.length_cons, hid]
    have hsplit : (version :: id'.val ++ [low, high]).splitAt 33 = (version :: id'.val, [low, high]) := by
      rw [List.splitAt_eq, List.take_left' hbody, List.drop_left' hbody]
    have hwindow : ((version :: id'.val ++ [low, high]).drop 1).take 32 = id'.val := List.take_left' hid
    rw [checkStrkey, dif_pos h, hsplit]
    simp only [List.getElem?_cons_zero, List.getElem?_cons_succ, Option.bind_eq_bind, Option.bind_some, hwindow]
    constructor
    · intro hchecked
      split at hchecked
      · cases hchecked
      next hcrc =>
        split at hchecked
        · cases hchecked
        next hversion =>
          obtain rfl := Option.some.inj hchecked
          refine ⟨version, _, ?_, (isCrc16Xmodem_iff _ _).mpr (not_not.mp hcrc), ?_⟩
          · rcases not_and_or.mp hversion with hversion | hversion
            · exact .inl (not_not.mp hversion)
            · exact .inr (not_not.mp hversion)
          · obtain ⟨hlow, hhigh⟩ := (checksum_iff low high _).mp rfl
            rw [strkeyBytes, ← hlow, ← hhigh]
    · rintro ⟨version', crc, hversion, hcrc, hsame⟩
      rw [strkeyBytes, List.cons_append, List.cons_append, List.cons.injEq] at hsame
      obtain ⟨rfl, hsame⟩ := hsame
      obtain ⟨hids, hsums⟩ := List.append_inj hsame (hid.trans id.property.symm)
      obtain rfl := Subtype.ext hids
      obtain ⟨hlow, hsums⟩ := List.cons.inj hsums
      have hread := (checksum_iff low high crc).mpr ⟨hlow, (List.cons.inj hsums).1⟩
      have hread : crc16Xmodem (version :: id'.val) = _ := ((isCrc16Xmodem_iff _ _).mp hcrc).trans hread
      rw [if_neg (not_not.mpr hread), if_neg]
      rintro ⟨hcontract, haccount⟩
      exact hversion.elim hcontract haccount
  · rw [checkStrkey, dif_neg h]
    refine ⟨fun hnone => (by cases hnone), ?_⟩
    rintro ⟨version, crc, -, -, rfl⟩
    exact absurd (length_strkeyBytes version id crc) h

/-- A strkey of `id`, or one with a character more. -/
theorem decodeStellarStrkey_eq_some {value : String} {id : Bytes 32} : decodeStellarStrkey value = .some id ↔
    ∃ version crc, StrkeyVersion version ∧ IsCrc16Xmodem (version :: id.val) crc ∧
      (value = Base32.encode (strkeyBytes version id crc) ∨
        ∃ digit < 32, value = overlongText (strkeyBytes version id crc) digit) := by
  rw [decodeStellarStrkey, Option.bind_eq_bind, Option.bind_eq_some_iff]
  constructor
  · rintro ⟨decoded, hdecoded, hchecked⟩
    obtain ⟨version, crc, hversion, hcrc, rfl⟩ := checkStrkey_eq_some.mp hchecked
    exact ⟨version, crc, hversion, hcrc, (base32Decode_strkey (length_strkeyBytes version id crc)).mp hdecoded⟩
  · rintro ⟨version, crc, hversion, hcrc, htext⟩
    exact ⟨_, (base32Decode_strkey (length_strkeyBytes version id crc)).mpr htext,
      checkStrkey_eq_some.mpr ⟨version, crc, hversion, hcrc, rfl⟩⟩

/-- A strkey with one more base32 character at its end. -/
def Overlong (value : String) : Prop :=
  ∃ version id crc, StrkeyVersion version ∧ IsCrc16Xmodem (version :: id.val) crc ∧
    ∃ digit < 32, value = overlongText (strkeyBytes version id crc) digit

/-- Both decoders read the same address from the text. -/
def Agree (value : String) : Prop :=
  ∀ id, decodeStellarStrkey value = .some id ↔
    stellarStrkeyPayload value 0x10 = .ok id ∨ stellarStrkeyPayload value 0x30 = .ok id

/-- The text passes for a strkey of this version. -/
def PassesAs (version : UInt8) (value : String) : Prop :=
  (decodeStellarStrkey value).isSome = true ∧ (base32Decode value).bind List.head? = .some version

/-- No two spellings of one version have one normal form. -/
def Distinguished (value value' : String) : Prop :=
  ∀ version, PassesAs version value → PassesAs version value' →
    normalizeStellarAddress value = normalizeStellarAddress value' → value = value'

/-! ## Texts -/

variable {version : UInt8} {id : Bytes 32} {crc : UInt16} {value value' : String}

theorem length_encode (version : UInt8) (id : Bytes 32) (crc : UInt16) :
    (Base32.encode (strkeyBytes version id crc)).toList.length = strkeyLength := by
  have hbits : (Base32.bits (strkeyBytes version id crc)).length = 5 * 56 := by
    rw [Base32.length_bits, length_strkeyBytes, decodedLength]
  rw [Base32.encode, String.toList_ofList, List.length_map, (Base32.digitBits_digits 56 hbits).2.1, strkeyLength]

theorem toList_overlongText (decoded : List UInt8) (digit : Nat) :
    (overlongText decoded digit).toList = (Base32.encode decoded).toList ++ [Base32.symbol digit] := by
  rw [overlongText, String.toList_append, String.toList_singleton]

/-- No strkey is longer than another. -/
theorem not_overlong_encode : ¬ Overlong (Base32.encode (strkeyBytes version id crc)) := by
  rintro ⟨version', id', crc', -, -, digit, -, heq⟩
  have hlen := congrArg (fun text => text.toList.length) heq
  rw [toList_overlongText, List.length_append, length_encode, length_encode] at hlen
  simp at hlen

/-- What passes for a strkey begins with one of its version, and is normalized to its bytes. -/
theorem PassesAs.spelling (h : PassesAs version value) : ∃ id crc, IsCrc16Xmodem (version :: id.val) crc ∧
    decodeStellarStrkey value = .some id ∧
    value.toList.take strkeyLength = (Base32.encode (strkeyBytes version id crc)).toList ∧
    (value = Base32.encode (strkeyBytes version id crc) ∨
      ∃ digit < 32, value = overlongText (strkeyBytes version id crc) digit) := by
  obtain ⟨hpasses, hhead⟩ := h
  obtain ⟨id, hid⟩ := Option.isSome_iff_exists.mp hpasses
  obtain ⟨version', crc, -, hcrc, htext⟩ := decodeStellarStrkey_eq_some.mp hid
  rw [(base32Decode_strkey (length_strkeyBytes version' id crc)).mpr htext] at hhead
  obtain rfl : version' = version := Option.some.inj hhead
  refine ⟨id, crc, hcrc, hid, ?_, htext⟩
  rcases htext with rfl | ⟨digit, -, rfl⟩
  · exact List.take_of_length_le (length_encode _ _ _).le
  · rw [toList_overlongText, List.take_left' (length_encode _ _ _)]

/-- No base32 text begins with `0x`. -/
theorem stripPrefix_strkey {decoded : List UInt8} (h : base32Decode value = .some decoded) :
    stripPrefix "0x" value = .none := by
  obtain ⟨ds, rest, hlt, rfl, -⟩ := base32Decode_eq_some.mp h
  cases hstrip : stripPrefix "0x" (String.ofList (ds.map Base32.symbol)) with
  | none => rfl
  | some text =>
    have hchars := congrArg String.toList (stripPrefix_eq_some hstrip)
    rw [String.toList_ofList, String.toList_append] at hchars
    have hzero : '0' ∈ ds.map Base32.symbol := by
      rw [hchars]
      exact List.mem_append_left _ (by decide)
    obtain ⟨d, hd, hsymbol⟩ := List.mem_map.mp hzero
    have hnever : ∀ d < 32, Base32.symbol d ≠ '0' := by decide
    exact absurd hsymbol (hnever d (hlt d hd))

theorem normalizeStellarAddress_strkey (h : decodeStellarStrkey value = .some id) :
    normalizeStellarAddress value = "0x" ++ hexText id.val := by
  have hdecoded := h
  rw [decodeStellarStrkey, Option.bind_eq_bind, Option.bind_eq_some_iff] at hdecoded
  obtain ⟨decoded, hdecoded, -⟩ := hdecoded
  rw [normalizeStellarAddress, stripPrefix_strkey hdecoded, h]

theorem hexText_injective {bytes bytes' : List UInt8} (h : hexText bytes = hexText bytes') : bytes = bytes' := by
  have hchars := congrArg Hex.decodeChars (String.ofList_injective h)
  rw [Hex.decodeChars_encodeChars, Hex.decodeChars_encodeChars] at hchars
  exact Option.some.inj hchars

/-! ## The two decoders -/

/-- The second decoder reads what the first one reads, but for the texts with a character more. -/
theorem agree_iff : Agree value ↔ ¬ Overlong value := by
  have hpayload : ∀ id, (stellarStrkeyPayload value 0x10 = .ok id ∨ stellarStrkeyPayload value 0x30 = .ok id) ↔
      ∃ version crc, StrkeyVersion version ∧ IsCrc16Xmodem (version :: id.val) crc ∧
        value = Base32.encode (strkeyBytes version id crc) := by
    intro id
    rw [payload_eq_ok, payload_eq_ok]
    constructor
    · rintro (⟨crc, hcrc, hvalue⟩ | ⟨crc, hcrc, hvalue⟩)
      · exact ⟨_, crc, .inl rfl, hcrc, hvalue⟩
      · exact ⟨_, crc, .inr rfl, hcrc, hvalue⟩
    · rintro ⟨version, crc, rfl | rfl, hcrc, hvalue⟩
      · exact .inl ⟨crc, hcrc, hvalue⟩
      · exact .inr ⟨crc, hcrc, hvalue⟩
  constructor
  · rintro hagree ⟨version, id, crc, hversion, hcrc, hover⟩
    have hdecoded := decodeStellarStrkey_eq_some.mpr ⟨version, crc, hversion, hcrc, .inr hover⟩
    obtain ⟨version', crc', -, -, rfl⟩ := (hpayload id).mp ((hagree id).mp hdecoded)
    exact not_overlong_encode ⟨version, id, crc, hversion, hcrc, hover⟩
  · intro hover id
    rw [hpayload, decodeStellarStrkey_eq_some]
    constructor
    · rintro ⟨version, crc, hversion, hcrc, hvalue | hlong⟩
      · exact ⟨version, crc, hversion, hcrc, hvalue⟩
      · exact absurd ⟨version, id, crc, hversion, hcrc, hlong⟩ hover
    · rintro ⟨version, crc, hversion, hcrc, hvalue⟩
      exact ⟨version, crc, hversion, hcrc, .inl hvalue⟩

/-- One normal form means the same first 56 characters. -/
theorem normalize_eq_iff (h : PassesAs version value) (h' : PassesAs version value') :
    normalizeStellarAddress value = normalizeStellarAddress value' ↔
      value.toList.take strkeyLength = value'.toList.take strkeyLength := by
  obtain ⟨id, crc, hcrc, hdecoded, htake, -⟩ := h.spelling
  obtain ⟨id', crc', hcrc', hdecoded', htake', -⟩ := h'.spelling
  rw [normalizeStellarAddress_strkey hdecoded, normalizeStellarAddress_strkey hdecoded', htake, htake',
    String.toList_inj]
  constructor
  · intro hnormal
    have htext := congrArg String.toList hnormal
    rw [String.toList_append, String.toList_append, List.append_cancel_left_eq, String.toList_inj] at htext
    obtain rfl := Subtype.ext (hexText_injective htext)
    rw [isCrc16Xmodem_iff] at hcrc hcrc'
    rw [← hcrc, ← hcrc']
  · intro htext
    have hread := (payload_eq_ok version _ id).mpr ⟨crc, hcrc, rfl⟩
    rw [htext, (payload_eq_ok version _ id').mpr ⟨crc', hcrc', rfl⟩] at hread
    rw [Except.ok.inj hread]

/-- **The two decoders agree on every text but a strkey with a character more**,
and of one version only such a text shares its normal form with another: the
first 56 characters of both are the same. -/
theorem decodeStellarStrkey_agrees (value : String) :
    (Agree value ↔ ¬ Overlong value) ∧
    (∀ value', ¬ Overlong value → ¬ Overlong value' → Distinguished value value') ∧
    ∀ version value', PassesAs version value → PassesAs version value' →
      (normalizeStellarAddress value = normalizeStellarAddress value' ↔
        value.toList.take strkeyLength = value'.toList.take strkeyLength) := by
  refine ⟨agree_iff, fun value' hover hover' version h h' hnormal => ?_,
    fun version value' h h' => normalize_eq_iff h h'⟩
  have hfirst := (normalize_eq_iff h h').mp hnormal
  have hexact : ∀ {value}, ¬ Overlong value → PassesAs version value →
      value.toList.take strkeyLength = value.toList := by
    intro value hover h
    obtain ⟨id, crc, hcrc, hdecoded, htake, rfl | hlong⟩ := h.spelling
    · exact htake
    · obtain ⟨version', crc', hversion, hcrc', htext⟩ := decodeStellarStrkey_eq_some.mp hdecoded
      rcases htext with rfl | hlong'
      · exact List.take_of_length_le (length_encode _ _ _).le
      · exact absurd ⟨version', id, crc', hversion, hcrc', hlong'⟩ hover
  rw [hexact hover h, hexact hover' h'] at hfirst
  exact String.toList_inj.mp hfirst

theorem passesAs_zeroContract : PassesAs 0x10 zeroContract := by
  have hread : decodeStellarStrkey zeroContract = .some zeroId := by decide +kernel
  exact ⟨by rw [hread]; rfl, by decide +kernel⟩

def oneContract : String :=
  Base32.encode (strkeyBytes 0x10 ⟨1 :: List.replicate 31 0, rfl⟩ (crc16Xmodem (0x10 :: 1 :: List.replicate 31 0)))

theorem decodeStellarStrkey_agrees_zero :
    Agree zeroContract ∧ normalizeStellarAddress zeroContract ≠ normalizeStellarAddress oneContract ∧
      normalizeStellarAddress zeroContract = normalizeStellarAddress (zeroContract ++ "A") := by
  obtain ⟨hagree, hdistinguished, hnormal⟩ := decodeStellarStrkey_agrees zeroContract
  have hzero : ¬ Overlong zeroContract := by
    obtain ⟨crc, -, htext⟩ := (payload_eq_ok 0x10 zeroContract zeroId).mp (by decide +kernel)
    rw [htext]
    exact not_overlong_encode
  have hone : PassesAs 0x10 oneContract := ⟨by decide +kernel, by decide +kernel⟩
  refine ⟨hagree.mpr hzero, fun hsame => ?_, ?_⟩
  · have hequal := hdistinguished _ hzero not_overlong_encode 0x10 passesAs_zeroContract hone hsame
    exact absurd hequal (by decide +kernel)
  · exact (hnormal 0x10 _ passesAs_zeroContract ⟨by decide +kernel, by decide +kernel⟩).mpr (by decide +kernel)

/-- The zero contract with a character more is read as the zero contract, and
normalized to the same text. -/
theorem decodeStellarStrkey_overlong :
    ¬ Agree (zeroContract ++ "A") ∧ ¬ Distinguished zeroContract (zeroContract ++ "A") := by
  have hshort : decodeStellarStrkey zeroContract = .some zeroId := by decide +kernel
  have hlong : decodeStellarStrkey (zeroContract ++ "A") = .some zeroId := by decide +kernel
  refine ⟨fun hagree => ?_, fun hdistinguished => ?_⟩
  · rcases (hagree zeroId).mp hlong with hread | hread
    · exact absurd hread (by decide +kernel)
    · exact absurd hread (by decide +kernel)
  · have hsame := hdistinguished 0x10 passesAs_zeroContract ⟨by rw [hlong]; rfl, by decide +kernel⟩
      ((normalizeStellarAddress_strkey hshort).trans (normalizeStellarAddress_strkey hlong).symm)
    exact absurd hsame (by decide)

end Pillar.StellarAddress
