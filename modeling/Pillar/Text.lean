/-
Strings as the standard library has them: a text is its characters, a length is
in UTF-8 bytes, and a number is parsed digit by digit.
-/
import Mathlib

namespace Pillar.Text

/-! ## Prefixes -/

/-- `str::strip_prefix`. -/
def stripPrefix (pre s : String) : Option String :=
  if pre.toList.isPrefixOf s.toList then .some (String.ofList (s.toList.drop pre.toList.length)) else .none

@[simp] theorem stripPrefix_append (pre s : String) : stripPrefix pre (pre ++ s) = .some s := by
  have hpre : pre.toList.isPrefixOf (pre.toList ++ s.toList) = true :=
    List.isPrefixOf_iff_prefix.mpr (List.prefix_append _ _)
  rw [stripPrefix, String.toList_append, if_pos hpre, List.drop_left, String.ofList_toList]

theorem stripPrefix_eq_some {pre s rest : String} (h : stripPrefix pre s = .some rest) : s = pre ++ rest := by
  unfold stripPrefix at h
  split at h
  next hpre =>
    obtain ⟨tail, htail⟩ := List.isPrefixOf_iff_prefix.mp hpre
    rw [← htail, List.drop_left, Option.some.injEq] at h
    rw [← h, ← String.toList_inj, String.toList_append, String.toList_ofList, htail]
  next => cases h

/-! ## Letters and blanks -/

/-- `char::to_ascii_lowercase`. -/
def lowerChar (c : Char) : Char := if 65 ≤ c.toNat ∧ c.toNat ≤ 90 then Char.ofNat (c.toNat + 32) else c

/-- `char::to_ascii_uppercase`. -/
def upperChar (c : Char) : Char := if 97 ≤ c.toNat ∧ c.toNat ≤ 122 then Char.ofNat (c.toNat - 32) else c

/-- `str::to_ascii_lowercase`. -/
def toAsciiLowercase (s : String) : String := String.ofList (s.toList.map lowerChar)

/-- `str::eq_ignore_ascii_case`. -/
def eqIgnoreAsciiCase (a b : String) : Bool := toAsciiLowercase a = toAsciiLowercase b

/-- `char::is_whitespace`: Unicode's `White_Space`. -/
def isWhitespace (c : Char) : Bool :=
  let n := c.toNat
  (9 ≤ n && n ≤ 13) || n = 0x20 || n = 0x85 || n = 0xa0 || n = 0x1680 || (0x2000 ≤ n && n ≤ 0x200a) ||
    n = 0x2028 || n = 0x2029 || n = 0x202f || n = 0x205f || n = 0x3000

/-- `str::trim`. -/
def trim (s : String) : String :=
  String.ofList ((s.toList.dropWhile isWhitespace).reverse.dropWhile isWhitespace).reverse

/-- `format!("{s:0>width$}")`. -/
def padLeft (width : Nat) (s : String) : String := String.ofList (List.replicate (width - s.toList.length) '0') ++ s

theorem toNat_ofNat_of_le {n : Nat} (h : n ≤ 127) : (Char.ofNat n).toNat = n := by
  revert n
  decide +kernel

theorem lowerChar_idem (c : Char) : lowerChar (lowerChar c) = lowerChar c := by
  unfold lowerChar
  split
  next h =>
    have hlow : (Char.ofNat (c.toNat + 32)).toNat = c.toNat + 32 := toNat_ofNat_of_le (by omega)
    rw [hlow, if_neg (by omega)]
  next h => rfl

@[simp] theorem toList_toAsciiLowercase (s : String) : (toAsciiLowercase s).toList = s.toList.map lowerChar :=
  String.toList_ofList

@[simp] theorem toAsciiLowercase_idem (s : String) : toAsciiLowercase (toAsciiLowercase s) = toAsciiLowercase s := by
  have hidem : lowerChar ∘ lowerChar = lowerChar := funext lowerChar_idem
  rw [toAsciiLowercase, toList_toAsciiLowercase, List.map_map, hidem]
  rfl

@[simp] theorem toAsciiLowercase_append (a b : String) :
    toAsciiLowercase (a ++ b) = toAsciiLowercase a ++ toAsciiLowercase b := by
  simp only [toAsciiLowercase, String.toList_append, List.map_append, String.ofList_append]

theorem eqIgnoreAsciiCase_iff {a b : String} :
    eqIgnoreAsciiCase a b = true ↔ toAsciiLowercase a = toAsciiLowercase b := by
  rw [eqIgnoreAsciiCase, decide_eq_true_iff]

/-! ## Numbers -/

/-- `std::num::IntErrorKind`, of a parse. -/
inductive ParseIntError where
  | empty
  | invalidDigit
  | posOverflow
  | negOverflow
  deriving Repr, DecidableEq

def ParseIntError.display : ParseIntError → String
  | .empty => "cannot parse integer from empty string"
  | .invalidDigit => "invalid digit found in string"
  | .posOverflow => "number too large to fit in target type"
  | .negOverflow => "number too small to fit in target type"

/-- What a hexadecimal digit of either case stands for. -/
def hexDigit? (c : Char) : Option Nat :=
  if 48 ≤ c.toNat ∧ c.toNat ≤ 57 then .some (c.toNat - 48)
  else if 97 ≤ c.toNat ∧ c.toNat ≤ 102 then .some (c.toNat - 87)
  else if 65 ≤ c.toNat ∧ c.toNat ≤ 70 then .some (c.toNat - 55)
  else .none

/-- `char::to_digit`, for a radix up to sixteen. -/
def toDigit (radix : Nat) (c : Char) : Option Nat := (hexDigit? c).filter (· < radix)

/-- The digits after the sign, onto what is read so far, up to below `limit`. A
bad digit is told before the overflow of its own step, and after that of an
earlier one. -/
def parseDigits (radix limit : Nat) (overflow : ParseIntError) : Nat → List Char → Except ParseIntError Nat
  | n, [] => .ok n
  | n, c :: rest =>
    match toDigit radix c with
    | .none => .error .invalidDigit
    | .some d =>
      if n * radix + d < limit then parseDigits radix limit overflow (n * radix + d) rest else .error overflow

/-- `u32::from_str_radix` and its siblings: one `+` may stand in front, but not alone. -/
def fromStrRadix (radix bits : Nat) (s : String) : Except ParseIntError Nat :=
  match s.toList with
  | [] => .error .empty
  | ['+'] => .error .invalidDigit
  | '+' :: rest => parseDigits radix (2 ^ bits) .posOverflow 0 rest
  | digits => parseDigits radix (2 ^ bits) .posOverflow 0 digits

/-- `str::parse`, of an unsigned integer of `bits` bits. -/
def parse (bits : Nat) (s : String) : Except ParseIntError Nat := fromStrRadix 10 bits s

/-- `str::parse`, of a signed integer of `bits` bits. -/
def parseSigned (bits : Nat) (s : String) : Except ParseIntError Int :=
  match s.toList with
  | [] => .error .empty
  | ['+'] => .error .invalidDigit
  | ['-'] => .error .invalidDigit
  | '+' :: rest => Int.ofNat <$> parseDigits 10 (2 ^ (bits - 1)) .posOverflow 0 rest
  | '-' :: rest => (- Int.ofNat ·) <$> parseDigits 10 (2 ^ (bits - 1) + 1) .negOverflow 0 rest
  | digits => Int.ofNat <$> parseDigits 10 (2 ^ (bits - 1)) .posOverflow 0 digits

theorem parseDigits_lt {radix limit n m : Nat} {overflow : ParseIntError} {digits : List Char} (hn : n < limit)
    (h : parseDigits radix limit overflow n digits = .ok m) : m < limit := by
  induction digits generalizing n with
  | nil =>
    cases h
    exact hn
  | cons c rest ih =>
    unfold parseDigits at h
    split at h
    · cases h
    · split at h
      next hlt => exact ih hlt h
      next => cases h

/-- A parsed number fits its type. -/
theorem fromStrRadix_lt {radix bits m : Nat} {s : String} (h : fromStrRadix radix bits s = .ok m) :
    m < 2 ^ bits := by
  unfold fromStrRadix at h
  split at h
  · cases h
  · cases h
  · exact parseDigits_lt (Nat.two_pow_pos bits) h
  · exact parseDigits_lt (Nat.two_pow_pos bits) h

example : parse 32 "+42" = .ok 42 := by decide

/-! ## Decimals -/

theorem toDigit_of_isDigit {c : Char} (h : c.isDigit = true) : toDigit 10 c = .some (c.toNat - '0'.toNat) := by
  have hrange : 48 ≤ c.toNat ∧ c.toNat ≤ 57 := Char.isDigit_iff_toNat.mp h
  have hzero : '0'.toNat = 48 := rfl
  rw [toDigit, hexDigit?, if_pos hrange, hzero, Option.filter_some, if_pos (by simp; omega)]

theorem le_ofDigitChars (digits : List Char) (n : Nat) : n ≤ Nat.ofDigitChars 10 digits n := by
  rw [Nat.ofDigitChars_eq_ofDigitChars_zero]
  have := Nat.le_mul_of_pos_left n (Nat.pow_pos (n := digits.length) (show 0 < 10 by decide))
  omega

/-- Digits are read as the number they spell, if it is below the limit. -/
theorem parseDigits_of_digits {limit n m : Nat} {overflow : ParseIntError} {digits : List Char}
    (hdigits : ∀ c ∈ digits, c.isDigit = true) (hn : n < limit) :
    parseDigits 10 limit overflow n digits = .ok m ↔ m = Nat.ofDigitChars 10 digits n ∧ m < limit := by
  induction digits generalizing n with
  | nil =>
    rw [parseDigits, Nat.ofDigitChars_nil, Except.ok.injEq]
    exact ⟨fun h => ⟨h.symm, h ▸ hn⟩, fun h => h.1.symm⟩
  | cons c rest ih =>
    have hrest : ∀ d ∈ rest, d.isDigit = true := fun d hd => hdigits d (List.mem_cons_of_mem _ hd)
    rw [parseDigits, toDigit_of_isDigit (hdigits c List.mem_cons_self), Nat.ofDigitChars_cons, Nat.mul_comm 10 n]
    dsimp only
    split
    next hlt => exact ih hrest hlt
    next hge =>
      refine ⟨fun h => (by cases h), fun ⟨hm, hlt⟩ => absurd hlt ?_⟩
      have := le_ofDigitChars rest (n * 10 + (c.toNat - '0'.toNat))
      omega

/-- **A decimal parses back**, if its number fits. -/
theorem parse_repr {bits n m : Nat} : parse bits n.repr = .ok m ↔ m = n ∧ n < 2 ^ bits := by
  have hdigits : ∀ c ∈ Nat.toDigits 10 n, c.isDigit = true := fun c hc =>
    Nat.isDigit_of_mem_toDigits (by decide) (by decide) hc
  have hparse : parse bits n.repr = parseDigits 10 (2 ^ bits) .posOverflow 0 (Nat.toDigits 10 n) := by
    unfold parse fromStrRadix
    rw [Nat.toList_repr]
    cases hd : Nat.toDigits 10 n with
    | nil => exact absurd hd Nat.toDigits_ne_nil
    | cons c rest =>
      have hc : c ≠ '+' := by
        rintro rfl
        exact absurd (hdigits '+' (hd ▸ List.mem_cons_self)) (by decide)
      split
      next h => cases h
      next h => exact absurd (List.cons.inj h).1 hc
      next h => exact absurd (List.cons.inj h).1 hc
      next => rfl
  rw [hparse, parseDigits_of_digits hdigits (Nat.two_pow_pos bits), Nat.ofDigitChars_ten_toDigits]
  constructor
  · rintro ⟨rfl, hlt⟩
    exact ⟨rfl, hlt⟩
  · rintro ⟨rfl, hlt⟩
    exact ⟨rfl, hlt⟩

/-- An unsigned parse refuses a minus sign. -/
theorem parse_minus (bits : Nat) (s : String) : parse bits ("-" ++ s) = .error .invalidDigit := by
  unfold parse fromStrRadix
  rw [String.toList_append]
  have hminus : "-".toList = ['-'] := rfl
  rw [hminus, List.singleton_append]
  split
  next h => cases h
  next h => exact absurd (List.cons.inj h).1 (by decide)
  next h => exact absurd (List.cons.inj h).1 (by decide)
  next digits _ _ h =>
    rw [parseDigits]
    rfl

/-- A canonical decimal that parses is the number's own. -/
theorem parse_int_repr {bits m : Nat} {a : Int} (h : parse bits a.repr = .ok m) : a.repr = m.repr := by
  rw [Int.repr_eq_if] at h ⊢
  split
  next hpos =>
    rw [if_pos hpos] at h
    rw [(parse_repr.mp h).1]
  next hneg =>
    rw [if_neg hneg, parse_minus] at h
    cases h

end Pillar.Text
