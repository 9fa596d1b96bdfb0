/-
Base64 with the standard alphabet and canonical padding: three bytes are four
digits, and a text is read only where no bit is left over.
-/
import Mathlib

namespace Pillar.Base64

def alphabet : List Char := "ABCDEFGHIJKLMNOPQRSTUVWXYZabcdefghijklmnopqrstuvwxyz0123456789+/".toList

def digit (n : Nat) : Char := alphabet.getD n '='

def digitValue (c : Char) : Option Nat := alphabet.findIdx? (· = c)

/-- The digits of bytes; one or two that are left make a group filled up with `=`. -/
def encodeChars : List UInt8 → List Char
  | a :: b :: c :: rest =>
    let group := (a.toNat * 256 + b.toNat) * 256 + c.toNat
    digit (group / 262144) :: digit (group / 4096 % 64) :: digit (group / 64 % 64) :: digit (group % 64) ::
      encodeChars rest
  | [a, b] =>
    let group := (a.toNat * 256 + b.toNat) * 4
    [digit (group / 4096), digit (group / 64 % 64), digit (group % 64), '=']
  | [a] =>
    let group := a.toNat * 16
    [digit (group / 64), digit (group % 64), '=', '=']
  | [] => []

/-- The bytes of a last group with `=`. -/
def decodeLast (a b c : Char) : Option (List UInt8) := do
  let x ← digitValue a
  let y ← digitValue b
  if c = '=' then
    if (x * 64 + y) % 16 = 0 then .some [UInt8.ofNat ((x * 64 + y) / 16)] else .none
  else
    let z ← digitValue c
    let group := (x * 64 + y) * 64 + z
    if group % 4 = 0 then .some [UInt8.ofNat (group / 1024), UInt8.ofNat (group / 4)] else .none

def decodeChars : List Char → Option (List UInt8)
  | a :: b :: c :: d :: rest =>
    if rest = [] ∧ d = '=' then decodeLast a b c
    else do
      let x ← digitValue a
      let y ← digitValue b
      let z ← digitValue c
      let w ← digitValue d
      let group := ((x * 64 + y) * 64 + z) * 64 + w
      let bytes ← decodeChars rest
      return UInt8.ofNat (group / 65536) :: UInt8.ofNat (group / 256) :: UInt8.ofNat group :: bytes
  | [] => .some []
  | _ => .none

theorem digitValue_digit {n : Nat} (h : n < 64) : digitValue (digit n) = .some n := by
  have hall : ∀ n < 64, digitValue (digit n) = .some n := by decide +kernel
  exact hall n h

theorem digit_ne {n : Nat} (h : n < 64) : digit n ≠ '=' := by
  have hall : ∀ n < 64, digit n ≠ '=' := by decide +kernel
  exact hall n h

/-- A byte from a number that agrees with it in the last eight bits. -/
theorem ofNat_eq (b : UInt8) {n : Nat} (h : n % 256 = b.toNat) : UInt8.ofNat n = b := by
  rw [← UInt8.toNat_inj, UInt8.toNat_ofNat', ← h]

/-- **The digits of bytes are read back.** -/
theorem decodeChars_encodeChars (bytes : List UInt8) : decodeChars (encodeChars bytes) = .some bytes := by
  induction bytes using encodeChars.induct with
  | case1 a b c rest ih =>
    have ha := a.toNat_lt
    have hb := b.toNat_lt
    have hc := c.toNat_lt
    rw [encodeChars, decodeChars, if_neg fun h => digit_ne (Nat.mod_lt _ (by decide)) h.2,
      digitValue_digit (by omega), digitValue_digit (by omega), digitValue_digit (by omega),
      digitValue_digit (by omega), ih]
    simp only [Option.bind_eq_bind, Option.bind_some, Option.pure_def]
    rw [ofNat_eq a (by omega), ofNat_eq b (by omega), ofNat_eq c (by omega)]
  | case2 a b =>
    have ha := a.toNat_lt
    have hb := b.toNat_lt
    rw [encodeChars, decodeChars, if_pos ⟨rfl, rfl⟩, decodeLast, digitValue_digit (by omega),
      digitValue_digit (by omega), digitValue_digit (by omega)]
    simp only [Option.bind_eq_bind, Option.bind_some]
    rw [if_neg (digit_ne (Nat.mod_lt _ (by decide))), if_pos (by omega), ofNat_eq a (by omega),
      ofNat_eq b (by omega)]
  | case3 a =>
    have ha := a.toNat_lt
    rw [encodeChars, decodeChars, if_pos ⟨rfl, rfl⟩, decodeLast, digitValue_digit (by omega),
      digitValue_digit (by omega)]
    simp only [Option.bind_eq_bind, Option.bind_some]
    rw [if_pos trivial, if_pos (by omega), ofNat_eq a (by omega)]
  | case4 => rfl

/-- An engine of base64 for the standard alphabet, known by what it writes and reads. -/
structure Engine where
  encode : List UInt8 → String
  decode : String → Except String (List UInt8)
  toList_encode : ∀ bytes, (encode bytes).toList = encodeChars bytes
  toOption_decode : ∀ s, (decode s).toOption = decodeChars s.toList

namespace Engine

variable (engine : Engine)

theorem toOption_decode_encode (bytes : List UInt8) : (engine.decode (engine.encode bytes)).toOption = .some bytes := by
  rw [engine.toOption_decode, engine.toList_encode, decodeChars_encodeChars]

theorem encode_inj {a b : List UInt8} (h : engine.encode a = engine.encode b) : a = b := by
  have hb := engine.toOption_decode_encode b
  rw [← h, engine.toOption_decode_encode] at hb
  exact Option.some.inj hb

/-- The encoding and the decoding themselves. -/
def plain : Engine where
  encode bytes := String.ofList (encodeChars bytes)
  decode s := (decodeChars s.toList).elim (.error "Invalid byte") .ok
  toList_encode _ := String.toList_ofList
  toOption_decode s := by cases decodeChars s.toList <;> rfl

end Engine

end Pillar.Base64
