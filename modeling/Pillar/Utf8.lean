/-
The bytes of a text.
-/
import Pillar.Text

namespace Pillar.Text

/-- `str::as_bytes`. -/
def utf8 (text : String) : List UInt8 := text.toUTF8.data.toList

theorem utf8_eq (text : String) : utf8 text = text.toList.flatMap String.utf8EncodeChar := by
  have hlist : String.ofList text.toList = text := String.ofList_toList
  have hbytes : (String.ofList text.toList).toByteArray = text.toList.utf8Encode := String.toByteArray_ofList
  rw [hlist] at hbytes
  rw [utf8, String.toUTF8_eq_toByteArray, hbytes, List.utf8Encode]
  simp

theorem length_utf8 (text : String) : (utf8 text).length = text.utf8ByteSize := rfl

theorem utf8_append (a b : String) : utf8 (a ++ b) = utf8 a ++ utf8 b := by
  simp only [utf8_eq, String.toList_append, List.flatMap_append]

theorem utf8_inj {a b : String} (h : utf8 a = utf8 b) : a = b := by
  rw [utf8, utf8, String.toUTF8_eq_toByteArray, String.toUTF8_eq_toByteArray] at h
  exact String.toByteArray_inj.mp (ByteArray.ext (Array.toList_inj.mp h))

/-- `String::from_utf8`. -/
def fromUtf8 (bytes : List UInt8) : Option String := String.fromUTF8? ⟨bytes.toArray⟩

@[simp] theorem fromUtf8_utf8 (text : String) : fromUtf8 (utf8 text) = .some text := by
  have harray : (⟨(utf8 text).toArray⟩ : ByteArray) = text.toByteArray := by
    rw [utf8, Array.toArray_toList, String.toUTF8_eq_toByteArray]
  rw [fromUtf8, harray]
  exact (dif_pos text.isValidUTF8).trans (congrArg Option.some (String.toByteArray_inj.mp rfl))

theorem utf8EncodeChar_ascii {c : Char} (h : c.toNat < 128) : String.utf8EncodeChar c = [UInt8.ofNat c.toNat] :=
  if_pos (Nat.le_of_lt_succ h)

theorem utf8_ascii {chars : List Char} (h : ∀ c ∈ chars, c.toNat < 128) :
    utf8 (String.ofList chars) = chars.map fun c => UInt8.ofNat c.toNat := by
  rw [utf8_eq, String.toList_ofList]
  induction chars with
  | nil => rfl
  | cons c chars ih =>
    rw [List.flatMap_cons, utf8EncodeChar_ascii (h c List.mem_cons_self),
      ih fun c hc => h c (List.mem_cons_of_mem _ hc), List.map_cons, List.singleton_append]

theorem utf8EncodeChar_wide {c : Char} (h : 128 ≤ c.toNat) : ∃ b bytes, String.utf8EncodeChar c = b :: bytes ∧
    128 ≤ b.toNat := by
  unfold String.utf8EncodeChar
  rw [if_neg (by rw [Char.toNat] at h; omega)]
  split
  · exact ⟨_, _, rfl, by rw [UInt8.toNat_ofNat']; omega⟩
  · split
    · exact ⟨_, _, rfl, by rw [UInt8.toNat_ofNat']; omega⟩
    · exact ⟨_, _, rfl, by rw [UInt8.toNat_ofNat']; omega⟩

theorem le_of_mem_utf8EncodeChar {c : Char} (h : 128 ≤ c.toNat) {b : UInt8} (hb : b ∈ String.utf8EncodeChar c) :
    128 ≤ b.toNat := by
  unfold String.utf8EncodeChar at hb
  rw [if_neg (by rw [Char.toNat] at h; omega)] at hb
  split at hb
  · simp only [List.mem_cons, List.not_mem_nil, or_false] at hb
    rcases hb with rfl | rfl <;> rw [UInt8.toNat_ofNat'] <;> omega
  · split at hb
    · simp only [List.mem_cons, List.not_mem_nil, or_false] at hb
      rcases hb with rfl | rfl | rfl <;> rw [UInt8.toNat_ofNat'] <;> omega
    · simp only [List.mem_cons, List.not_mem_nil, or_false] at hb
      rcases hb with rfl | rfl | rfl | rfl <;> rw [UInt8.toNat_ofNat'] <;> omega

/-- An ASCII byte is an ASCII character. -/
theorem mem_of_mem_utf8 {text : String} {b : UInt8} (hb : b ∈ utf8 text) (h : b.toNat < 128) :
    ∃ c ∈ text.toList, c.toNat = b.toNat := by
  rw [utf8_eq, List.mem_flatMap] at hb
  obtain ⟨c, hc, hb⟩ := hb
  by_cases hascii : c.toNat < 128
  · rw [utf8EncodeChar_ascii hascii, List.mem_singleton] at hb
    refine ⟨c, hc, ?_⟩
    rw [hb, UInt8.toNat_ofNat']
    omega
  · have hwide := le_of_mem_utf8EncodeChar (Nat.le_of_not_lt hascii) hb
    omega

/-- A hexadecimal digit is ASCII. -/
theorem hexDigit?_lt {c : Char} {n : Nat} (h : hexDigit? c = .some n) : n < 16 ∧ c.toNat < 128 := by
  unfold hexDigit? at h
  split_ifs at h <;> cases h <;> omega

end Pillar.Text
