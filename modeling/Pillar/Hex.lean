/-
Hexadecimal text, two digits a byte, and the `hex` crate by what it documents:
`encode` writes lowercase digits, `decode` reads pairs of digits of either case
and nothing else.
-/
import Pillar.Text

namespace Pillar.Hex

open Text

/-- The lowercase digit. -/
def digit (n : Nat) : Char := if n < 10 then Char.ofNat (48 + n) else Char.ofNat (87 + n)

def encodeChars (bytes : List UInt8) : List Char :=
  bytes.flatMap fun b => [digit (b.toNat / 16), digit (b.toNat % 16)]

def decodeChars : List Char → Option (List UInt8)
  | [] => .some []
  | [_] => .none
  | hi :: lo :: rest =>
    match hexDigit? hi, hexDigit? lo with
    | .some h, .some l => (decodeChars rest).map (UInt8.ofNat (16 * h + l) :: ·)
    | _, _ => .none

/-- A digit below ten reads back, as do `a` to `f`, and none is an `x`. -/
theorem digit_facts : ∀ n < 16, hexDigit? (digit n) = .some n ∧ digit n ≠ 'x' ∧ (digit n).utf8Size = 1 := by
  decide +kernel

theorem hexDigit?_digit {n : Nat} (h : n < 16) : hexDigit? (digit n) = .some n := (digit_facts n h).1

theorem lowerChar_digit : ∀ n < 16, lowerChar (digit n) = digit n := by
  decide +kernel

/-- Digits in front of others are read before them. -/
theorem decodeChars_encodeChars_append {rest : List Char} {tail : List UInt8} (h : decodeChars rest = .some tail)
    (bytes : List UInt8) : decodeChars (encodeChars bytes ++ rest) = .some (bytes ++ tail) := by
  induction bytes with
  | nil => exact h
  | cons b bytes ih =>
    have hb := b.toNat_lt
    have hhi : b.toNat / 16 < 16 := by omega
    have hlo : b.toNat % 16 < 16 := by omega
    unfold encodeChars at ih ⊢
    rw [List.flatMap_cons]
    simp only [List.cons_append, List.nil_append, decodeChars, hexDigit?_digit hhi, hexDigit?_digit hlo, ih,
      Option.map_some]
    rw [Nat.div_add_mod, UInt8.ofNat_toNat]

theorem decodeChars_encodeChars (bytes : List UInt8) : decodeChars (encodeChars bytes) = .some bytes := by
  have happend := decodeChars_encodeChars_append (show decodeChars [] = .some [] from rfl) bytes
  rwa [List.append_nil, List.append_nil] at happend

@[simp] theorem length_encodeChars (bytes : List UInt8) : (encodeChars bytes).length = 2 * bytes.length := by
  induction bytes with
  | nil => rfl
  | cons b bytes ih =>
    unfold encodeChars at ih ⊢
    rw [List.flatMap_cons, List.length_append, ih]
    simp only [List.length_cons, List.length_nil]
    omega

/-- Each digit is one of the sixteen. -/
theorem mem_encodeChars {bytes : List UInt8} {c : Char} (h : c ∈ encodeChars bytes) : ∃ n < 16, c = digit n := by
  obtain ⟨b, -, hc⟩ := List.mem_flatMap.mp h
  have hb := b.toNat_lt
  simp only [List.mem_cons, List.not_mem_nil, or_false] at hc
  rcases hc with rfl | rfl
  · exact ⟨b.toNat / 16, by omega, rfl⟩
  · exact ⟨b.toNat % 16, by omega, rfl⟩

theorem hexDigit?_lowerChar (c : Char) : hexDigit? (lowerChar c) = hexDigit? c := by
  unfold lowerChar
  split
  · next h =>
    have hnat : (Char.ofNat (c.toNat + 32)).toNat = c.toNat + 32 := toNat_ofNat_of_le (by omega)
    simp only [hexDigit?, hnat]
    split_ifs <;> first | rfl | omega
  · rfl

/-- Digits of either case are read alike. -/
theorem decodeChars_map_lowerChar (chars : List Char) : decodeChars (chars.map lowerChar) = decodeChars chars := by
  fun_induction decodeChars chars with
  | case1 => rfl
  | case2 c => rfl
  | case3 hi lo rest h l hlo hhi ih =>
    simp only [List.map_cons, decodeChars, hexDigit?_lowerChar, hhi, hlo, ih]
  | case4 hi lo rest hno =>
    simp only [List.map_cons, decodeChars, hexDigit?_lowerChar]

/-- What is read is pairs of digits. -/
theorem decodeChars_eq_some {chars : List Char} {bytes : List UInt8} (h : decodeChars chars = .some bytes) :
    chars.length = 2 * bytes.length ∧ ∀ c ∈ chars, (hexDigit? c).isSome = true := by
  fun_induction decodeChars chars generalizing bytes with
  | case1 =>
    cases h
    exact ⟨rfl, fun c hc => (by cases hc)⟩
  | case2 c => cases h
  | case3 hi lo rest n l hlo hhi ih =>
    obtain ⟨tail, htail, rfl⟩ := Option.map_eq_some_iff.mp h
    obtain ⟨hlen, hdigits⟩ := ih htail
    refine ⟨by simp only [List.length_cons, hlen]; omega, fun c hc => ?_⟩
    rcases List.mem_cons.mp hc with rfl | hc
    · rw [hhi]
      rfl
    · rcases List.mem_cons.mp hc with rfl | hc
      · rw [hlo]
        rfl
      · exact hdigits c hc
  | case4 hi lo rest hno => cases h

/-! ## The crate -/

/-- `hex::encode` and `hex::decode`, with the text of the error left open. -/
structure HexCrate where
  encode : List UInt8 → String
  decode : String → Except String (List UInt8)
  toList_encode : ∀ bytes, (encode bytes).toList = encodeChars bytes
  toOption_decode : ∀ s, (decode s).toOption = decodeChars s.toList

namespace HexCrate

variable (hex : HexCrate)

theorem decode_eq_ok {s : String} {bytes : List UInt8} (h : decodeChars s.toList = .some bytes) :
    hex.decode s = .ok bytes := by
  have hdecode := hex.toOption_decode s
  rw [h] at hdecode
  cases he : hex.decode s with
  | ok bytes' =>
    rw [he] at hdecode
    cases hdecode
    rfl
  | error e =>
    rw [he] at hdecode
    cases hdecode

theorem decodeChars_of_decode {s : String} {bytes : List UInt8} (h : hex.decode s = .ok bytes) :
    decodeChars s.toList = .some bytes := by
  rw [← hex.toOption_decode s, h]
  rfl

@[simp] theorem decode_encode (bytes : List UInt8) : hex.decode (hex.encode bytes) = .ok bytes := by
  apply decode_eq_ok
  rw [toList_encode, decodeChars_encodeChars]

theorem encode_injective : Function.Injective hex.encode := by
  intro a b h
  have hdecode := hex.decode_encode a
  rw [h, decode_encode] at hdecode
  cases hdecode
  rfl

theorem utf8ByteSize_ofList_ascii : ∀ (l : List Char), (∀ c ∈ l, c.utf8Size = 1) →
    (String.ofList l).utf8ByteSize = l.length
  | [], _ => rfl
  | c :: l, h => by
    rw [String.ofList_cons, String.utf8ByteSize_append, String.utf8ByteSize_singleton, h c List.mem_cons_self,
      utf8ByteSize_ofList_ascii l fun d hd => h d (List.mem_cons_of_mem _ hd), List.length_cons, Nat.add_comm]

theorem utf8ByteSize_encode (bytes : List UInt8) : (hex.encode bytes).utf8ByteSize = 2 * bytes.length := by
  rw [← String.ofList_toList (s := hex.encode bytes), toList_encode, utf8ByteSize_ofList_ascii,
    length_encodeChars]
  intro c hc
  obtain ⟨n, hn, rfl⟩ := mem_encodeChars hc
  exact (digit_facts n hn).2.2

/-- The digits alone are never taken for a text with `0x` in front. -/
theorem stripPrefix_encode (bytes : List UInt8) : stripPrefix "0x" (hex.encode bytes) = .none := by
  cases hstrip : stripPrefix "0x" (hex.encode bytes) with
  | none => rfl
  | some rest =>
    have hmem : 'x' ∈ encodeChars bytes := by
      rw [← hex.toList_encode, stripPrefix_eq_some hstrip, String.toList_append]
      exact List.mem_append_left _ (by decide)
    obtain ⟨n, hn, hx⟩ := mem_encodeChars hmem
    exact absurd hx.symm (digit_facts n hn).2.1

@[simp] theorem toAsciiLowercase_encode (bytes : List UInt8) :
  toAsciiLowercase (hex.encode bytes) = hex.encode bytes := by
  have hdigits : (encodeChars bytes).map lowerChar = (encodeChars bytes).map id := by
    refine List.map_congr_left fun c hc => ?_
    obtain ⟨n, hn, rfl⟩ := mem_encodeChars hc
    exact lowerChar_digit n hn
  rw [← String.toList_inj, toList_toAsciiLowercase, hex.toList_encode, hdigits, List.map_id]

/-- The crate's errors: an odd number of digits, or the first character that is none. -/
def decodeError (s : String) : String :=
  if s.toList.length % 2 = 1 then "Odd number of digits"
  else
    match s.toList.findIdx? (fun c => (hexDigit? c).isNone) with
    | .some i => s!"Invalid character at position {i}"
    | .none => ""

/-- A crate that does what is documented. -/
def plain : HexCrate where
  encode bytes := String.ofList (encodeChars bytes)
  decode s :=
    match decodeChars s.toList with
    | .some bytes => .ok bytes
    | .none => .error (decodeError s)
  toList_encode bytes := String.toList_ofList
  toOption_decode s := by
    cases decodeChars s.toList <;> rfl

end HexCrate

end Pillar.Hex
