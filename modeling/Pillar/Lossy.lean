/-
Texts read from bytes that need not be UTF-8, and their lower case.

A text whose lower case is a word of ASCII letters is that word in ASCII letters
of either case (`toLowercase_eq_word`), and so are the bytes it was read from
(`fromUtf8Lossy_ascii`).
-/
import Pillar.Text
import Mathlib

namespace Pillar.Lossy
open Pillar.Text

/-! ## Bytes -/

/-- What may stand behind a first byte: how many bytes, and the range of the first of them. -/
def follow (byte : UInt8) : Option (Nat × Nat × Nat) :=
  let n := byte.toNat
  if 0xc2 ≤ n ∧ n ≤ 0xdf then .some (1, 0x80, 0xbf)
  else if n = 0xe0 then .some (2, 0xa0, 0xbf)
  else if n = 0xed then .some (2, 0x80, 0x9f)
  else if 0xe1 ≤ n ∧ n ≤ 0xef then .some (2, 0x80, 0xbf)
  else if n = 0xf0 then .some (3, 0x90, 0xbf)
  else if 0xf1 ≤ n ∧ n ≤ 0xf3 then .some (3, 0x80, 0xbf)
  else if n = 0xf4 then .some (3, 0x80, 0x8f)
  else .none

/-- The bytes of one character that are there: the first within its range, the
others continuing. -/
def taken (count low high : Nat) : List UInt8 → List UInt8
  | [] => []
  | byte :: rest =>
    if count ≠ 0 ∧ low ≤ byte.toNat ∧ byte.toNat ≤ high then byte :: taken (count - 1) 0x80 0xbf rest else []

/-- The number that a first byte and those behind it spell. -/
def scalar (byte : UInt8) (behind : List UInt8) : Nat :=
  behind.foldl (fun n b => n * 64 + b.toNat % 64) (byte.toNat % 2 ^ (6 - behind.length))

/-- One character, and how many bytes behind the first it takes; what is not a
character is one U+FFFD as far as it could have been one. -/
def lossyChar (byte : UInt8) (rest : List UInt8) : Char × Nat :=
  if byte.toNat < 128 then (Char.ofNat byte.toNat, 0)
  else match follow byte with
    | .none => (Char.ofNat 0xfffd, 0)
    | .some (count, low, high) =>
      let behind := taken count low high rest
      (Char.ofNat (if behind.length = count then scalar byte behind else 0xfffd), behind.length)

/-- `String::from_utf8_lossy`. -/
def fromUtf8Lossy : List UInt8 → List Char
  | [] => []
  | byte :: rest => (lossyChar byte rest).1 :: fromUtf8Lossy (rest.drop (lossyChar byte rest).2)
termination_by bytes => bytes.length
decreasing_by
  rw [List.length_drop, List.length_cons]
  omega

@[simp] theorem fromUtf8Lossy_nil : fromUtf8Lossy [] = [] := by
  rw [fromUtf8Lossy.eq_def]

theorem fromUtf8Lossy_cons (byte : UInt8) (rest : List UInt8) : fromUtf8Lossy (byte :: rest) =
    (lossyChar byte rest).1 :: fromUtf8Lossy (rest.drop (lossyChar byte rest).2) := by
  rw [fromUtf8Lossy]

theorem fromUtf8Lossy_cons_ascii {byte : UInt8} (h : byte.toNat < 128) (rest : List UInt8) :
    fromUtf8Lossy (byte :: rest) = Char.ofNat byte.toNat :: fromUtf8Lossy rest := by
  rw [fromUtf8Lossy_cons, lossyChar, if_pos h, List.drop_zero]

/-- All the bytes of one character, the first of them within its range. -/
theorem taken_full {low high : Nat} : ∀ {count : Nat} {rest : List UInt8},
    (taken (count + 1) low high rest).length = count + 1 → ∃ byte tail, taken (count + 1) low high rest = byte :: tail ∧
      low ≤ byte.toNat ∧ byte.toNat ≤ high ∧ ∃ rest', tail = taken count 0x80 0xbf rest' ∧ tail.length = count
  | count, [], h => by cases h
  | count, byte :: rest, h => by
    rw [taken] at h ⊢
    split at h
    · next hrange =>
      rw [if_pos hrange]
      exact ⟨byte, _, rfl, hrange.2.1, hrange.2.2, rest, rfl, Nat.succ.inj h⟩
    · cases h

theorem toNat_ofNat {n : Nat} (h : n.isValidChar) : (Char.ofNat n).toNat = n := by
  rw [Char.toNat_ofNat, if_pos h]

theorem follow_eq_some {byte : UInt8} {count low high : Nat} (h : follow byte = .some (count, low, high)) :
    (count = 1 ∧ 0xc2 ≤ byte.toNat ∧ byte.toNat ≤ 0xdf ∧ 0x80 ≤ low ∧ high ≤ 0xbf) ∨
    (count = 2 ∧ 0xe0 ≤ byte.toNat ∧ byte.toNat ≤ 0xef ∧ 0x80 ≤ low ∧ high ≤ 0xbf ∧
      (byte.toNat = 0xe0 → 0xa0 ≤ low) ∧ (byte.toNat = 0xed → high ≤ 0x9f)) ∨
    (count = 3 ∧ 0xf0 ≤ byte.toNat ∧ byte.toNat ≤ 0xf4 ∧ 0x80 ≤ low ∧ high ≤ 0xbf ∧
      (byte.toNat = 0xf0 → 0x90 ≤ low) ∧ (byte.toNat = 0xf4 → high ≤ 0x8f)) := by
  unfold follow at h
  dsimp only at h
  split_ifs at h <;> cases h <;> omega

/-- The number of a whole character is one, and not ASCII. -/
theorem scalar_wide {byte : UInt8} {count low high : Nat} (hfollow : follow byte = .some (count, low, high))
    {rest : List UInt8} (h : (taken count low high rest).length = count) :
    128 ≤ scalar byte (taken count low high rest) ∧ (scalar byte (taken count low high rest)).isValidChar := by
  rcases follow_eq_some hfollow with ⟨rfl, hbyte⟩ | ⟨rfl, hbyte⟩ | ⟨rfl, hbyte⟩
  · obtain ⟨b, tail, htaken, hlow, hhigh, -, -, hlen⟩ := taken_full h
    obtain rfl := List.length_eq_zero_iff.mp hlen
    rw [htaken]
    simp only [scalar, List.length_cons, List.length_nil, List.foldl_cons, List.foldl_nil, Nat.isValidChar]
    omega
  · obtain ⟨b, tail, htaken, hlow, hhigh, rest', htail, hlen⟩ := taken_full h
    obtain ⟨b', tail', htaken', hlow', hhigh', -, -, hlen'⟩ := taken_full (htail ▸ hlen)
    obtain rfl := List.length_eq_zero_iff.mp hlen'
    rw [htaken, htail, htaken']
    simp only [scalar, List.length_cons, List.length_nil, List.foldl_cons, List.foldl_nil, Nat.isValidChar]
    omega
  · obtain ⟨b, tail, htaken, hlow, hhigh, rest', htail, hlen⟩ := taken_full h
    obtain ⟨b', tail', htaken', hlow', hhigh', rest'', htail', hlen'⟩ := taken_full (htail ▸ hlen)
    obtain ⟨b'', tail'', htaken'', hlow'', hhigh'', -, -, hlen''⟩ := taken_full (htail' ▸ hlen')
    obtain rfl := List.length_eq_zero_iff.mp hlen''
    rw [htaken, htail, htaken', htail', htaken'']
    simp only [scalar, List.length_cons, List.length_nil, List.foldl_cons, List.foldl_nil, Nat.isValidChar]
    omega

/-- A byte that is not ASCII makes a character that is not. -/
theorem lossyChar_wide {byte : UInt8} (h : 128 ≤ byte.toNat) (rest : List UInt8) :
    128 ≤ (lossyChar byte rest).1.toNat := by
  unfold lossyChar
  rw [if_neg (not_lt.mpr h)]
  split
  · decide
  · next count low high hfollow =>
    dsimp only
    split
    · next hfull =>
      obtain ⟨hwide, hvalid⟩ := scalar_wide hfollow hfull
      rw [toNat_ofNat hvalid]
      exact hwide
    · decide

/-- **Where a text is ASCII, so are the bytes.** -/
theorem fromUtf8Lossy_ascii {bytes : List UInt8} (h : ∀ c ∈ fromUtf8Lossy bytes, c.toNat < 128) :
    (∀ b ∈ bytes, b.toNat < 128) ∧ fromUtf8Lossy bytes = bytes.map fun b => Char.ofNat b.toNat := by
  induction bytes with
  | nil => exact ⟨fun b hb => absurd hb List.not_mem_nil, fromUtf8Lossy_nil⟩
  | cons byte rest ih =>
    by_cases hbyte : byte.toNat < 128
    · rw [fromUtf8Lossy_cons_ascii hbyte, List.forall_mem_cons] at h
      obtain ⟨hall, hmap⟩ := ih h.2
      rw [fromUtf8Lossy_cons_ascii hbyte, List.map_cons, hmap, List.forall_mem_cons]
      exact ⟨⟨hbyte, hall⟩, rfl⟩
    · rw [fromUtf8Lossy_cons, List.forall_mem_cons] at h
      exact absurd h.1 (not_lt.mpr (lossyChar_wide (not_lt.mp hbyte) rest))

/-! ## Lower case -/

/-- The letters of ASCII. -/
def isLetter (c : Char) : Bool := (65 ≤ c.toNat ∧ c.toNat ≤ 90) ∨ (97 ≤ c.toNat ∧ c.toNat ≤ 122)

def dottedI : Char := Char.ofNat 0x130

def kelvinSign : Char := Char.ofNat 0x212a

/-- Unicode's lower case, of a character between two texts: ASCII is lowered on
its own, and of the others only the dotted I and the Kelvin sign have ASCII letters in it. -/
structure LowerCase where
  lower : List Char → Char → List Char → List Char
  ascii : ∀ before c after, c.toNat < 128 → lower before c after = [lowerChar c]
  ne_nil : ∀ before c after, lower before c after ≠ []
  letters : ∀ before c after, 128 ≤ c.toNat → (∃ d ∈ lower before c after, isLetter d) → c = dottedI ∨ c = kelvinSign
  dotted : ∀ before after, lower before dottedI after = ['i', Char.ofNat 0x307]
  kelvin : ∀ before after, lower before kelvinSign after = ['k']

namespace LowerCase

variable (L : LowerCase)

def lowerFrom (before : List Char) : List Char → List Char
  | [] => []
  | c :: after => L.lower before c after ++ lowerFrom (before ++ [c]) after

/-- `str::to_lowercase`. -/
def toLowercase (text : List Char) : List Char := L.lowerFrom [] text

/-- **Only ASCII letters lower to a word of ASCII letters without a `k`.** -/
theorem lowerFrom_eq_word {word : List Char} (hletters : ∀ d ∈ word, isLetter d) (hk : 'k' ∉ word) :
    ∀ {before text : List Char}, L.lowerFrom before text <:+ word →
      (∀ c ∈ text, c.toNat < 128) ∧ L.lowerFrom before text = text.map lowerChar
  | _, [], _ => ⟨fun c hc => absurd hc List.not_mem_nil, rfl⟩
  | before, c :: text, h => by
    rw [lowerFrom] at h ⊢
    have hmem : ∀ d ∈ L.lower before c text, d ∈ word := fun d hd => h.subset (List.mem_append_left _ hd)
    have hascii : c.toNat < 128 := by
      by_contra hwide
      obtain ⟨d, hd⟩ := List.exists_mem_of_ne_nil _ (L.ne_nil before c text)
      rcases L.letters before c text (not_lt.mp hwide) ⟨d, hd, hletters d (hmem d hd)⟩ with rfl | rfl
      · rw [L.dotted] at hmem
        exact absurd (hletters _ (hmem (Char.ofNat 0x307) (by simp))) (by decide)
      · rw [L.kelvin] at hmem
        exact hk (hmem 'k' List.mem_cons_self)
    obtain ⟨hall, hmap⟩ := lowerFrom_eq_word hletters hk ((List.suffix_append _ _).trans h)
    rw [L.ascii before c text hascii, hmap, List.forall_mem_cons]
    exact ⟨⟨hascii, hall⟩, rfl⟩

theorem toLowercase_eq_word {word text : List Char} (hletters : ∀ d ∈ word, isLetter d) (hk : 'k' ∉ word)
    (h : L.toLowercase text = word) : (∀ c ∈ text, c.toNat < 128) ∧ text.map lowerChar = word := by
  have hsuffix : L.lowerFrom [] text <:+ word := by
    rw [← h]
    exact List.suffix_refl _
  obtain ⟨hascii, hmap⟩ := L.lowerFrom_eq_word hletters hk hsuffix
  exact ⟨hascii, hmap.symm.trans h⟩

end LowerCase

end Pillar.Lossy
