/-
What `native_address_to_bytes32` reads (`pillar-layerzero`, `abi/encode.rs`).

Hexadecimal text is tried before base58, and the base58 of a key may be all
hexadecimal digits: thirty-two zeros are thirty-two `1`s.
-/
import Pillar.AbiFacts
import Pillar.Base58
import Pillar.Utf8

namespace Pillar.Abi

open Bits Hex Text

/-! ## Digits -/

/-- The number hexadecimal digits are. -/
def hexValue : List Char → Nat
  | [] => 0
  | c :: chars => (hexDigit? c).getD 0 * 16 ^ chars.length + hexValue chars

/-- Each character is a hexadecimal digit. -/
def AllHex (chars : List Char) : Prop := ∀ c ∈ chars, (hexDigit? c).isSome = true

theorem hexValue_lt (chars : List Char) : hexValue chars < 16 ^ chars.length := by
  induction chars with
  | nil => exact Nat.one_pos
  | cons c chars ih =>
    have hdigit : (hexDigit? c).getD 0 ≤ 15 := by
      cases hc : hexDigit? c with
      | none => exact Nat.zero_le _
      | some n => exact Nat.le_of_lt_succ (hexDigit?_lt hc).1
    have hmul := Nat.mul_le_mul_right (16 ^ chars.length) hdigit
    rw [hexValue, List.length_cons, Nat.pow_succ]
    omega

theorem ofBytes_cons (b : UInt8) (bytes : List UInt8) :
    ofBytes (b :: bytes) = b.toNat * 256 ^ bytes.length + ofBytes bytes := by
  induction bytes using List.reverseRecOn with
  | nil => simp [ofBytes]
  | append_singleton bytes c ih =>
    rw [← List.cons_append, ofBytes_concat, ofBytes_concat, ih, List.length_append, List.length_singleton, Nat.pow_succ]
    ring

/-- An even number of digits is read as the number they are. -/
theorem decodeChars_allHex : ∀ {chars : List Char}, AllHex chars → chars.length % 2 = 0 → ∃ bytes,
    decodeChars chars = .some bytes ∧ 2 * bytes.length = chars.length ∧ ofBytes bytes = hexValue chars
  | [], _, _ => ⟨[], rfl, rfl, rfl⟩
  | [_], _, h => absurd h Nat.one_ne_zero
  | hi :: lo :: rest, hhex, heven => by
    obtain ⟨hiDigit, hhi⟩ := Option.isSome_iff_exists.mp (hhex hi List.mem_cons_self)
    obtain ⟨loDigit, hlo⟩ := Option.isSome_iff_exists.mp (hhex lo (List.mem_cons_of_mem _ List.mem_cons_self))
    have hrest : AllHex rest := fun c hc => hhex c (List.mem_cons_of_mem _ (List.mem_cons_of_mem _ hc))
    rw [List.length_cons, List.length_cons] at heven
    obtain ⟨bytes, hdecode, hlen, hvalue⟩ := decodeChars_allHex hrest (by omega)
    obtain ⟨hhiLt, -⟩ := hexDigit?_lt hhi
    obtain ⟨hloLt, -⟩ := hexDigit?_lt hlo
    refine ⟨UInt8.ofNat (16 * hiDigit + loDigit) :: bytes, ?_, ?_, ?_⟩
    · rw [decodeChars, hhi, hlo, hdecode]
      rfl
    · rw [List.length_cons, List.length_cons, List.length_cons]
      omega
    · have hbyte : (UInt8.ofNat (16 * hiDigit + loDigit)).toNat = 16 * hiDigit + loDigit :=
        UInt8.toNat_ofNat_of_lt' (by simp only [UInt8.size]; omega)
      have hpow : 256 ^ bytes.length = 16 ^ rest.length := by
        rw [← hlen, Nat.pow_mul]
      rw [ofBytes_cons, hbyte, hpow, hvalue, hexValue, hexValue, hhi, hlo, Option.getD_some, Option.getD_some,
        List.length_cons, Nat.pow_succ]
      ring

section

variable {hex : HexCrate}

/-- Digits are read as the number they are, in as few whole bytes as hold them. -/
theorem decodeHexBytes_allHex (hex : HexCrate) {value : String} {chars : List Char}
    (hbody : (stripPrefix "0x" value).getD value = String.ofList chars) (hhex : AllHex chars) : ∃ bytes,
    decodeHexBytes hex value = .ok bytes ∧ bytes.length = (chars.length + 1) / 2 ∧ ofBytes bytes = hexValue chars := by
  have hsize : (String.ofList chars).utf8ByteSize = chars.length := by
    rw [← length_utf8, utf8_ascii, List.length_map]
    intro c hc
    obtain ⟨n, hn⟩ := Option.isSome_iff_exists.mp (hhex c hc)
    exact (hexDigit?_lt hn).2
  rw [decodeHexBytes, hbody, hsize]
  by_cases heven : chars.length % 2 = 0
  · obtain ⟨bytes, hdecode, hlen, hvalue⟩ := decodeChars_allHex hhex heven
    have hread : hex.decode (String.ofList chars) = .ok bytes :=
      hex.decode_eq_ok (by rw [String.toList_ofList, hdecode])
    exact ⟨bytes, by rw [if_pos heven, hread, orInternal_ok], by omega, hvalue⟩
  · have hpadded : AllHex ('0' :: chars) := List.forall_mem_cons.mpr ⟨rfl, hhex⟩
    obtain ⟨bytes, hdecode, hlen, hvalue⟩ := decodeChars_allHex hpadded (by rw [List.length_cons]; omega)
    have hread : hex.decode ("0" ++ String.ofList chars) = .ok bytes := by
      refine hex.decode_eq_ok ?_
      have htext : (String.ofList chars).toList = chars := String.toList_ofList
      rw [String.toList_append, htext]
      exact hdecode
    have hzero : hexValue ('0' :: chars) = hexValue chars := by
      rw [hexValue, show hexDigit? '0' = .some 0 from rfl, Option.getD_some, Nat.zero_mul, Nat.zero_add]
    rw [List.length_cons] at hlen
    exact ⟨bytes, by rw [if_neg heven, hread, orInternal_ok], by omega, hvalue.trans hzero⟩

variable {bs58 : String → Except String (List UInt8)}

/-- A hexadecimal text of up to 32 bytes is taken for one. -/
theorem nativeAddressToBytes32_allHex {value : String} {chars : List Char}
    (hbody : (stripPrefix "0x" value).getD value = String.ofList chars) (hhex : AllHex chars)
    (hlen : chars.length ≤ 64) : nativeAddressToBytes32 hex bs58 value = .ok (beBytes 32 (hexValue chars)) := by
  obtain ⟨bytes, hread, hbytes, hvalue⟩ := decodeHexBytes_allHex hex hbody hhex
  have hfits : ¬ bytes.length > 32 := by omega
  have hpadded : List.replicate (32 - bytes.length) 0 ++ bytes = bytesOf 32 (hexValue chars) := by
    have hwhole := bytesOf_ofBytes (List.replicate (32 - bytes.length) 0 ++ bytes)
    have hlength : (List.replicate (32 - bytes.length) (0 : UInt8) ++ bytes).length = 32 := by
      rw [List.length_append, List.length_replicate]
      omega
    rw [hlength, ofBytes_zeros, hvalue] at hwhole
    exact hwhole.symm
  have haddress : addressToBytes32 hex value = .ok (beBytes 32 (hexValue chars)) := by
    rw [addressToBytes32, hread, Exec.ok_bind, dif_neg hfits]
    exact congrArg _ (Subtype.ext hpadded)
  rw [nativeAddressToBytes32, haddress]
  rfl

/-- A text that is no hexadecimal number is left to base58. -/
theorem nativeAddressToBytes32_base58 {value : String} {key : Bytes 32} {c : Char}
    (hbody : stripPrefix "0x" value = .none) (hc : c ∈ value.toList) (hdigit : hexDigit? c = .none)
    (hbs58 : bs58 value = .ok key.val) : nativeAddressToBytes32 hex bs58 value = .ok key := by
  have hfails : ∃ e, decodeHexBytes hex value = Exec.err e := by
    have hnone : ∀ {text : String}, c ∈ text.toList → ∃ e, orInternal (hex.decode text) = Exec.err e := by
      intro text hmem
      cases hdecode : hex.decode text with
      | error e => exact ⟨_, rfl⟩
      | ok bytes =>
        have hall := (decodeChars_eq_some (hex.decodeChars_of_decode hdecode)).2 c hmem
        rw [hdigit] at hall
        cases hall
    rw [decodeHexBytes, hbody, Option.getD_none]
    split
    · exact hnone hc
    · exact hnone (by rw [String.toList_append]; exact List.mem_append_right _ hc)
  obtain ⟨e, he⟩ := hfails
  have haddress : addressToBytes32 hex value = Exec.err e := by
    rw [addressToBytes32, he]
    rfl
  rw [nativeAddressToBytes32, haddress, hbs58]
  exact dif_pos key.property

end

/-! ## Keys -/

theorem stripPrefix_base58 (bytes : List UInt8) : stripPrefix "0x" (Base58.encode bytes) = .none := by
  cases hstrip : stripPrefix "0x" (Base58.encode bytes) with
  | none => rfl
  | some rest =>
    have hzero : '0' ∈ (Base58.encode bytes).toList := by
      rw [stripPrefix_eq_some hstrip, String.toList_append]
      exact List.mem_append_left _ (by decide)
    exact absurd rfl (Base58.ne_zero_of_mem_encode hzero)

theorem length_base58 (bytes : List UInt8) : (Base58.encode bytes).toList.length =
    Base58.leadingZeros bytes + (Base58.digits bytes).length := by
  rw [Base58.encode, String.toList_ofList, List.length_append, List.length_replicate, List.length_map]

/-- The base58 of a key is short enough for the hexadecimal reading. -/
theorem length_base58_le (key : Bytes 32) : (Base58.encode key.val).toList.length ≤ 64 := by
  have hlt := Base58.ofBytes_lt key.val
  have hzeros := Base58.leadingZeros_le key.val
  rw [key.property] at hlt hzeros
  rw [length_base58]
  by_cases hzero : ofBytes key.val = 0
  · rw [Base58.digits, hzero, Nat.digits_zero, List.reverse_nil, List.length_nil]
    omega
  · have hle := Base58.pow_digits_le key.val hzero
    have hpow : (256 : Nat) ^ (32 - Base58.leadingZeros key.val) ≤ 58 ^ (2 * (32 - Base58.leadingZeros key.val)) := by
      rw [Nat.pow_mul]
      exact Nat.pow_le_pow_left (by decide) _
    have hexp := (Nat.pow_lt_pow_iff_right (by decide : 1 < 58)).mp (hle.trans_lt (hlt.trans_le hpow))
    omega

/-- A number that starts with the digits `11`. -/
theorem hexValue_ones (z : Nat) (hz : 2 ≤ z) (chars : List Char) :
    17 * 16 ^ (z + chars.length - 2) ≤ hexValue (List.replicate z '1' ++ chars) ∧
      hexValue (List.replicate z '1' ++ chars) < 18 * 16 ^ (z + chars.length - 2) := by
  obtain ⟨z, rfl⟩ : ∃ z', z = z' + 2 := ⟨z - 2, by omega⟩
  have hone : (hexDigit? '1').getD 0 = 1 := rfl
  have hlen : (List.replicate z '1' ++ chars).length = z + chars.length := by
    rw [List.length_append, List.length_replicate]
  have hrest := hexValue_lt (List.replicate z '1' ++ chars)
  rw [hlen] at hrest
  rw [List.replicate_succ, List.replicate_succ, List.cons_append, List.cons_append, hexValue, hexValue, hone,
    List.length_cons, hlen, Nat.pow_succ, show z + 2 + chars.length - 2 = z + chars.length by omega]
  omega

/-- No number that starts with `11` in base 16 has as many digits in base 58 as
the zeros in front of it would need. -/
theorem digits_disagree : ∀ z < 22, 2 ≤ z → ∀ r ∈ [63 - 3 * z, 64 - 3 * z],
    58 ^ r ≤ 17 * 16 ^ (z + r - 2) ∨ 18 * 16 ^ (z + r - 2) ≤ 58 ^ (r - 1) := by
  decide +kernel

theorem pow_16_256 (k : Nat) : (256 : Nat) ^ k = 16 ^ (2 * k) := by rw [Nat.pow_mul]

/-- There is no number of `r` digits in base 58 that is also the hexadecimal
reading of `z` ones and those digits, and has `z` zeros in front: `3 * z + r`
would be 63 or 64. -/
theorem reading_ne {z r n : Nat} (hz : z ≤ 32) (hupper : n < 16 ^ (z + r)) (hbelow : n < 256 ^ (32 - z))
    (hfirst : z < 32 → 256 ^ (32 - z - 1) ≤ n)
    (hones : 2 ≤ z → 17 * 16 ^ (z + r - 2) ≤ n ∧ n < 18 * 16 ^ (z + r - 2)) (hdigits : n < 58 ^ r)
    (hdigitsLe : n ≠ 0 → 58 ^ (r - 1) ≤ n) : False := by
  have hlt : z < 32 := by
    by_contra hall
    obtain rfl : z = 32 := by omega
    have hpos := Nat.pow_pos (n := 32 + r - 2) (by decide : 0 < 16)
    have hone := (hones (by decide)).1
    rw [Nat.sub_self, Nat.pow_zero] at hbelow
    omega
  have hleast := hfirst hlt
  have hne : n ≠ 0 := Nat.ne_of_gt (Nat.lt_of_lt_of_le (Nat.pow_pos (by decide)) hleast)
  have hsum : 63 ≤ 3 * z + r := by
    rw [pow_16_256] at hleast
    have hexp := (Nat.pow_lt_pow_iff_right (by decide : 1 < 16)).mp (hleast.trans_lt hupper)
    omega
  by_cases htwo : 2 ≤ z
  · obtain ⟨hlow, hhigh⟩ := hones htwo
    have hsum' : 3 * z + r ≤ 64 := by
      rw [pow_16_256] at hbelow
      have hstep : 16 ^ (z + r - 1) < 17 * 16 ^ (z + r - 2) := by
        have hpos := Nat.pow_pos (n := z + r - 2) (by decide : 0 < 16)
        rw [show z + r - 1 = z + r - 2 + 1 by omega, Nat.pow_succ]
        omega
      have hexp := (Nat.pow_lt_pow_iff_right (by decide : 1 < 16)).mp ((hstep.trans_le hlow).trans hbelow)
      omega
    have hr : r ∈ [63 - 3 * z, 64 - 3 * z] := by
      simp only [List.mem_cons, List.not_mem_nil, or_false]
      omega
    obtain hmany | hfew := digits_disagree z (by omega) htwo r hr
    · exact absurd (hdigits.trans_le hmany) (not_lt.mpr hlow)
    · exact absurd (hhigh.trans_le hfew) (not_lt.mpr (hdigitsLe hne))
  · have hmany : (58 : Nat) ^ 59 ≤ 58 ^ (r - 1) := Nat.pow_le_pow_right (by decide) (by omega)
    have hfew : (256 : Nat) ^ (32 - z) ≤ 256 ^ 32 := Nat.pow_le_pow_right (by decide) (Nat.sub_le _ _)
    exact absurd ((hmany.trans (hdigitsLe hne)).trans_lt (hbelow.trans_le hfew)) (by decide)

/-- The hexadecimal reading of a key's base58 is never the key. -/
theorem hexValue_base58_ne (key : Bytes 32) : beBytes 32 (hexValue (Base58.encode key.val).toList) ≠ key := by
  intro hsame
  have hchars : (Base58.encode key.val).toList = List.replicate (Base58.leadingZeros key.val) '1' ++
      (Base58.digits key.val).map Base58.symbol := String.toList_ofList
  have hlength := length_base58_le key
  rw [length_base58] at hlength
  have hupper := hexValue_lt (Base58.encode key.val).toList
  rw [length_base58] at hupper
  have hnumber : ofBytes key.val = hexValue (Base58.encode key.val).toList := by
    have hfits : hexValue (Base58.encode key.val).toList < 256 ^ 32 := by
      have hpow : (16 : Nat) ^ (Base58.leadingZeros key.val + (Base58.digits key.val).length) ≤ 16 ^ 64 :=
        Nat.pow_le_pow_right (by decide) hlength
      exact hupper.trans_le (hpow.trans (by decide))
    have hbytes := congrArg (fun k : Bytes 32 => ofBytes k.val) hsame
    exact hbytes.symm.trans (ofBytes_bytesOf hfits)
  have hzeros := Base58.leadingZeros_le key.val
  have hbelow := Base58.ofBytes_lt key.val
  have hones := fun hz =>
    hexValue_ones (Base58.leadingZeros key.val) hz ((Base58.digits key.val).map Base58.symbol)
  have hfirst := Base58.pow_le_ofBytes key.val
  have hdigits := Base58.lt_pow_digits key.val
  have hdigitsLe := Base58.pow_digits_le key.val
  rw [key.property] at hzeros hbelow hfirst
  rw [← hchars, ← hnumber, List.length_map] at hones
  rw [← hnumber] at hupper
  exact reading_ne hzeros hupper hbelow hfirst hones hdigits hdigitsLe

/-- **A key's base58 is read as the key just when it is no hexadecimal text**,
and a hexadecimal address of up to 32 bytes is read as its number. -/
theorem nativeAddressToBytes32_iff (hex : HexCrate) (bs58 : String → Except String (List UInt8)) :
    (∀ key : Bytes 32, bs58 (Base58.encode key.val) = .ok key.val →
      (nativeAddressToBytes32 hex bs58 (Base58.encode key.val) = .ok key ↔
        ∃ c ∈ (Base58.encode key.val).toList, hexDigit? c = .none)) ∧
    ∀ chars : List Char, AllHex chars → chars.length ≤ 64 →
      nativeAddressToBytes32 hex bs58 ("0x" ++ String.ofList chars) = .ok (beBytes 32 (hexValue chars)) := by
  refine ⟨fun key hbs58 => ⟨fun h => ?_, fun ⟨c, hc, hdigit⟩ => ?_⟩, fun chars hhex hlen => ?_⟩
  · by_contra hnone
    have hhex : AllHex (Base58.encode key.val).toList := fun c hc =>
      Option.isSome_iff_ne_none.mpr fun hdigit => hnone ⟨c, hc, hdigit⟩
    have hbody : (stripPrefix "0x" (Base58.encode key.val)).getD (Base58.encode key.val) =
        String.ofList (Base58.encode key.val).toList := by
      rw [stripPrefix_base58, Option.getD_none, String.ofList_toList]
    rw [nativeAddressToBytes32_allHex hbody hhex (length_base58_le key)] at h
    exact hexValue_base58_ne key (Except.ok.inj h)
  · exact nativeAddressToBytes32_base58 (stripPrefix_base58 key.val) hc hdigit hbs58
  · refine nativeAddressToBytes32_allHex ?_ hhex hlen
    rw [stripPrefix_append, Option.getD_some]

/-- The key whose number is 20, whose base58 ends in `M`. -/
def keyTwenty : Bytes 32 := ⟨List.replicate 31 0 ++ [20], rfl⟩

theorem nativeAddressToBytes32_iff_twenty :
    nativeAddressToBytes32 .plain (fun _ => .ok keyTwenty.val) (Base58.encode keyTwenty.val) = .ok keyTwenty ∧
      nativeAddressToBytes32 .plain (fun _ => .ok keyTwenty.val) "0xa1" = .ok (beBytes 32 161) := by
  have hiff := nativeAddressToBytes32_iff .plain fun _ => .ok keyTwenty.val
  have htext : Base58.encode keyTwenty.val = String.ofList (List.replicate 31 '1' ++ ['M']) := by
    rw [Base58.encode, Base58.digits, show ofBytes keyTwenty.val = 20 from rfl]
    norm_num
    exact ⟨rfl, rfl⟩
  refine ⟨(hiff.1 keyTwenty rfl).mpr ⟨'M', ?_, rfl⟩, hiff.2 ['a', '1'] ?_ (by decide)⟩
  · rw [htext, String.toList_ofList]
    exact List.mem_append_right _ List.mem_cons_self
  · exact List.forall_mem_cons.mpr ⟨rfl, List.forall_mem_cons.mpr ⟨rfl, fun c hc => absurd hc List.not_mem_nil⟩⟩

def zeroKey : Bytes 32 := ⟨List.replicate 32 0, Bytes.length_zeros⟩

/-- Thirty-two ones are read as sixteen bytes `0x11`. -/
theorem nativeAddressToBytes32_zeroKey :
    nativeAddressToBytes32 .plain (fun _ => .ok zeroKey.val) (Base58.encode zeroKey.val) =
      .ok ⟨List.replicate 16 0 ++ List.replicate 16 0x11, rfl⟩ ∧
    nativeAddressToBytes32 .plain (fun _ => .ok zeroKey.val) (Base58.encode zeroKey.val) ≠ .ok zeroKey := by
  have htext : Base58.encode zeroKey.val = String.ofList (List.replicate 32 '1') := by
    rw [Base58.encode, Base58.digits, show ofBytes zeroKey.val = 0 from rfl, Nat.digits_zero]
    rfl
  rw [htext]
  exact ⟨by decide +kernel, by decide +kernel⟩

end Pillar.Abi
