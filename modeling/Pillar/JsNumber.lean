/-
Texts that `Number(string)` reads as numbers: decimals with a sign, a fraction
and an exponent, and whole numbers with a mark of their radix.

A decimal is read as the double nearest to its value (`jsStringToNumber_decimal`),
a marked number as the double nearest to its own, or as none where it is too long
(`jsStringToNumber_radix`).
-/
import Pillar.JsBigInt

namespace Pillar.Canton

open Text
open JsBigInt (marks radixValue)

/-! ## Decimals -/

inductive Sign where
  | bare
  | plus
  | minus
  deriving DecidableEq

def Sign.text : Sign → List Char
  | .bare => []
  | .plus => ['+']
  | .minus => ['-']

def Sign.apply {α : Type} [Neg α] (a : α) : Sign → α
  | .minus => -a
  | _ => a

/-- The exponent's letter, sign and digits. -/
structure Exponent where
  letter : Char
  sign : Sign
  digits : List Char
  letter_ok : letter = 'e' ∨ letter = 'E'
  nonempty : digits ≠ []
  digits_ok : ∀ c ∈ digits, c.isDigit

def Exponent.text (e : Exponent) : List Char := e.letter :: (e.sign.text ++ e.digits)

def Exponent.power (e : Exponent) : ℤ := e.sign.apply (Nat.ofDigitChars 10 e.digits 0 : ℤ)

/-- A decimal: what stands before a point, what behind it, and an exponent. -/
structure DecimalSyntax where
  sign : Sign
  whole : List Char
  fraction : Option (List Char)
  exponent : Option Exponent
  whole_ok : ∀ c ∈ whole, c.isDigit
  fraction_ok : ∀ c ∈ fraction.getD [], c.isDigit
  nonempty : whole ≠ [] ∨ fraction.getD [] ≠ []

namespace DecimalSyntax

variable (s : DecimalSyntax)

def mantissa : List Char := s.whole ++ (s.fraction.map ('.' :: ·)).getD []

def body : List Char := s.mantissa ++ (s.exponent.map Exponent.text).getD []

def text : List Char := s.sign.text ++ s.body

def power : ℤ := (s.exponent.map Exponent.power).getD 0

def magnitude : ℚ :=
  Nat.ofDigitChars 10 (s.whole ++ s.fraction.getD []) 0 * (10 : ℚ) ^ (s.power - (s.fraction.getD []).length)

def value : ℚ := s.sign.apply s.magnitude

end DecimalSyntax

/-- What may stand in a decimal. -/
def DecimalChar (c : Char) : Prop := c.isDigit = true ∨ c ∈ ['+', '-', '.', 'e', 'E']

theorem Sign.text_chars (sign : Sign) : ∀ c ∈ sign.text, DecimalChar c := by
  intro c hc
  cases sign with
  | bare => cases hc
  | plus => exact .inr (by rw [List.mem_singleton.mp hc]; decide)
  | minus => exact .inr (by rw [List.mem_singleton.mp hc]; decide)

theorem DecimalSyntax.text_chars (s : DecimalSyntax) : ∀ c ∈ s.text, DecimalChar c := by
  intro c hc
  rcases List.mem_append.mp hc with hc | hc
  · exact s.sign.text_chars c hc
  · rcases List.mem_append.mp hc with hc | hc
    · rcases List.mem_append.mp hc with hc | hc
      · exact .inl (s.whole_ok c hc)
      · have hfraction := s.fraction_ok
        cases h : s.fraction with
        | none =>
          rw [h] at hc
          cases hc
        | some fraction =>
          rw [h] at hc hfraction
          rcases List.mem_cons.mp hc with rfl | hc
          · exact .inr (by decide)
          · exact .inl (hfraction c hc)
    · cases h : s.exponent with
      | none =>
        rw [h] at hc
        cases hc
      | some e =>
        rw [h] at hc
        rcases List.mem_cons.mp hc with rfl | hc
        · exact .inr (by rcases e.letter_ok with h | h <;> rw [h] <;> decide)
        · rcases List.mem_append.mp hc with hc | hc
          · exact e.sign.text_chars c hc
          · exact .inl (e.digits_ok c hc)

namespace DecimalSyntax

variable (s : DecimalSyntax)

theorem mantissa_chars : ∀ c ∈ s.mantissa, (c ≠ 'e' && c ≠ 'E') = true := by
  intro c hc
  have hdigit : c.isDigit = true ∨ c = '.' := by
    rcases List.mem_append.mp hc with hc | hc
    · exact .inl (s.whole_ok c hc)
    · have hfraction := s.fraction_ok
      cases h : s.fraction with
      | none =>
        rw [h] at hc
        cases hc
      | some fraction =>
        rw [h] at hc hfraction
        rcases List.mem_cons.mp hc with rfl | hc
        · exact .inr rfl
        · exact .inl (hfraction c hc)
  rw [Bool.and_eq_true, decide_eq_true_iff, decide_eq_true_iff]
  constructor
  · rintro rfl
    exact absurd hdigit (by decide)
  · rintro rfl
    exact absurd hdigit (by decide)

theorem exponent_head : ∀ c ∈ ((s.exponent.map Exponent.text).getD []).head?, (c ≠ 'e' && c ≠ 'E') = false := by
  intro c hc
  cases h : s.exponent with
  | none =>
    rw [h] at hc
    cases hc
  | some e =>
    rw [h] at hc
    obtain rfl : e.letter = c := Option.some.inj hc
    rcases e.letter_ok with h | h <;> rw [h] <;> decide

end DecimalSyntax

/-- A run and what stops it. -/
theorem takeWhile_append_stop {p : Char → Bool} {run rest : List Char} (hrun : ∀ c ∈ run, p c = true)
    (hrest : ∀ c ∈ rest.head?, p c = false) :
    (run ++ rest).takeWhile p = run ∧ (run ++ rest).dropWhile p = rest := by
  rw [List.takeWhile_append_of_pos hrun, List.dropWhile_append_of_pos hrun]
  cases rest with
  | nil => simp
  | cons c rest =>
    have hc : ¬p c = true := by
      rw [hrest c rfl]
      exact Bool.false_ne_true
    rw [List.takeWhile_cons_of_neg hc, List.dropWhile_cons_of_neg hc, List.append_nil]
    exact ⟨rfl, rfl⟩

/-! ## Reading them -/

def stripSign : List Char → List Char
  | '+' :: rest => rest
  | '-' :: rest => rest
  | text => text

/-- A decimal, taken apart. -/
def readDecimal (negative : Prop) [Decidable negative] (whole fraction : List Char)
    (exponent : Option (List Char)) : Double :=
  let exponentOk := exponent.all fun e => !(stripSign e).isEmpty && (stripSign e).all Char.isDigit
  if (whole.isEmpty && fraction.isEmpty) || !whole.all Char.isDigit || !fraction.all Char.isDigit
    || !exponentOk then .nan
  else
    let power : ℤ := exponent.elim 0 fun e =>
      let magnitude := (Nat.ofDigitChars 10 (stripSign e) 0 : ℤ)
      if e.head? = .some '-' then -magnitude else magnitude
    let magnitude : ℚ := Nat.ofDigitChars 10 (whole ++ fraction) 0 * (10 : ℚ) ^ (power - fraction.length)
    .ofRat (if negative then -magnitude else magnitude)

theorem decimalNumber_eq (trimmed : List Char) : decimalNumber trimmed =
    if stripSign trimmed = "Infinity".toList then .inf (trimmed.head? = .some '-')
    else
      let mantissa := (stripSign trimmed).takeWhile fun c => c ≠ 'e' && c ≠ 'E'
      readDecimal (trimmed.head? = .some '-') (mantissa.takeWhile (· ≠ '.')) (mantissa.dropWhile (· ≠ '.')).tail
        ((stripSign trimmed).dropWhile fun c => c ≠ 'e' && c ≠ 'E').tail? := rfl

theorem Sign.strip {c : Char} (hplus : c ≠ '+') (hminus : c ≠ '-') (rest : List Char) (sign : Sign) :
    stripSign (sign.text ++ c :: rest) = c :: rest ∧
      ((sign.text ++ c :: rest).head? = .some '-' ↔ sign = .minus) := by
  cases sign with
  | bare =>
    refine ⟨?_, iff_of_false (fun h => hminus (Option.some.inj h)) (by decide)⟩
    unfold stripSign
    split
    · next heq => exact absurd (List.cons.inj heq).1 hplus
    · next heq => exact absurd (List.cons.inj heq).1 hminus
    · rfl
  | plus => exact ⟨rfl, by simp [Sign.text]⟩
  | minus => exact ⟨rfl, by simp [Sign.text]⟩

theorem Sign.apply_eq {α : Type} [Neg α] (sign : Sign) {negative : Prop} [Decidable negative]
    (h : negative ↔ sign = .minus) (a : α) : (if negative then -a else a) = sign.apply a := by
  cases sign with
  | minus => exact if_pos (h.mpr rfl)
  | bare => exact if_neg fun hneg => by cases h.mp hneg
  | plus => exact if_neg fun hneg => by cases h.mp hneg

theorem ne_sign_of_isDigit {c : Char} (h : c.isDigit = true) : c ≠ '+' ∧ c ≠ '-' ∧ c ≠ '.' := by
  refine ⟨?_, ?_, ?_⟩
  · rintro rfl
    exact absurd h (by decide)
  · rintro rfl
    exact absurd h (by decide)
  · rintro rfl
    exact absurd h (by decide)

theorem Exponent.strip (e : Exponent) : stripSign (e.sign.text ++ e.digits) = e.digits ∧
    ((e.sign.text ++ e.digits).head? = .some '-' ↔ e.sign = .minus) := by
  obtain ⟨c, rest, hdigits⟩ := List.exists_cons_of_ne_nil e.nonempty
  have hc := ne_sign_of_isDigit (e.digits_ok c (by rw [hdigits]; exact List.mem_cons_self))
  rw [hdigits]
  exact Sign.strip hc.1 hc.2.1 rest e.sign

namespace DecimalSyntax

variable (s : DecimalSyntax)

theorem strip : stripSign s.text = s.body ∧ (s.text.head? = .some '-' ↔ s.sign = .minus) := by
  have hhead : ∃ c rest, s.body = c :: rest ∧ c ≠ '+' ∧ c ≠ '-' := by
    cases hwhole : s.whole with
    | cons c whole =>
      have hc := ne_sign_of_isDigit (s.whole_ok c (by rw [hwhole]; exact List.mem_cons_self))
      exact ⟨c, _, by rw [body, mantissa, hwhole]; rfl, hc.1, hc.2.1⟩
    | nil =>
      cases hfraction : s.fraction with
      | none =>
        have hne := s.nonempty
        rw [hwhole, hfraction] at hne
        exact absurd rfl (hne.resolve_left fun h => h rfl)
      | some fraction => exact ⟨'.', _, by rw [body, mantissa, hwhole, hfraction]; rfl, by decide, by decide⟩
  obtain ⟨c, rest, hbody, hplus, hminus⟩ := hhead
  rw [text, hbody]
  exact Sign.strip hplus hminus rest s.sign

/-- The parts of the mantissa. -/
theorem mantissa_parts : s.mantissa.takeWhile (· ≠ '.') = s.whole ∧
    (s.mantissa.dropWhile (· ≠ '.')).tail = s.fraction.getD [] := by
  have hstop := @takeWhile_append_stop (· ≠ '.') s.whole ((s.fraction.map ('.' :: ·)).getD [])
    (fun c hc => decide_eq_true (ne_sign_of_isDigit (s.whole_ok c hc)).2.2) (by
      intro c hc
      cases h : s.fraction with
      | none =>
        rw [h] at hc
        cases hc
      | some fraction =>
        rw [h] at hc
        obtain rfl : '.' = c := Option.some.inj hc
        rfl)
  rw [mantissa, hstop.1, hstop.2]
  cases s.fraction <;> exact ⟨rfl, rfl⟩

theorem readDecimal_parts {negative : Prop} [Decidable negative] (hminus : negative ↔ s.sign = .minus) :
    readDecimal negative s.whole (s.fraction.getD []) ((s.exponent.map Exponent.text).getD []).tail? =
      .ofRat s.value := by
  have hwhole : s.whole.all Char.isDigit = true := List.all_eq_true.mpr s.whole_ok
  have hfraction : (s.fraction.getD []).all Char.isDigit = true := List.all_eq_true.mpr s.fraction_ok
  have hsome : (s.whole.isEmpty && (s.fraction.getD []).isEmpty) = false := by
    rw [Bool.and_eq_false_iff]
    exact s.nonempty.imp (fun h => by simpa using h) (fun h => by simpa using h)
  have htail : ((s.exponent.map Exponent.text).getD []).tail? = s.exponent.map fun e => e.sign.text ++ e.digits := by
    cases s.exponent <;> rfl
  have hvalue : (if negative then -s.magnitude else s.magnitude) = s.value := s.sign.apply_eq hminus _
  rw [← hvalue, htail, readDecimal]
  cases hexponent : s.exponent with
  | none =>
    rw [magnitude, power, hexponent]
    simp only [hsome, hwhole, hfraction, Option.map_none, Option.all_none, Bool.not_true, Bool.or_false,
      Bool.false_eq_true, if_false, Option.elim_none, Option.getD_none]
  | some e =>
    obtain ⟨hstrip, hhead⟩ := e.strip
    have hdigits : (!e.digits.isEmpty && e.digits.all Char.isDigit) = true := by
      rw [Bool.and_eq_true, List.all_eq_true]
      exact ⟨by simpa using e.nonempty, e.digits_ok⟩
    have hpower : (if (e.sign.text ++ e.digits).head? = .some '-' then -(Nat.ofDigitChars 10 e.digits 0 : ℤ)
        else (Nat.ofDigitChars 10 e.digits 0 : ℤ)) = s.power := by
      rw [power, hexponent]
      exact e.sign.apply_eq hhead _
    rw [magnitude, ← hpower]
    simp only [hsome, hwhole, hfraction, hstrip, hdigits, Option.map_some, Option.all_some, Bool.not_true,
      Bool.or_false, Bool.false_eq_true, if_false, Option.elim_some]

/-- **A decimal is read as the double nearest to its value.** -/
theorem decimalNumber_text : decimalNumber s.text = .ofRat s.value := by
  obtain ⟨hstrip, hminus⟩ := s.strip
  have hfinite : stripSign s.text ≠ "Infinity".toList := by
    intro h
    rw [hstrip] at h
    have hmem : 'I' ∈ s.text := List.mem_append_right _ (by rw [h]; decide)
    rcases s.text_chars 'I' hmem with h | h
    · exact absurd h (by decide)
    · exact absurd h (by decide)
  obtain ⟨hmantissa, hexponent⟩ := takeWhile_append_stop s.mantissa_chars s.exponent_head
  rw [decimalNumber_eq, if_neg hfinite, hstrip]
  dsimp only
  rw [body, hmantissa, hexponent, s.mantissa_parts.1, s.mantissa_parts.2]
  exact s.readDecimal_parts hminus

end DecimalSyntax

/-! ## `Number(string)` -/

/-- Whether the digits behind a mark are few enough to be read. -/
def fits (text : String) : Prop := ∀ mark radix digits, (mark, radix) ∈ marks →
  jsTrim text.toList = '0' :: mark :: digits → (String.ofList digits).utf8ByteSize ≤ maxJsBigintInputBytes

/-- A decimal has no mark. -/
theorem DecimalSyntax.not_marked (s : DecimalSyntax) {mark : Char} {digits : List Char}
    (htext : s.text = '0' :: mark :: digits) : mark ∉ ['x', 'X', 'o', 'O', 'b', 'B'] := by
  intro hmem
  rcases s.text_chars mark (by rw [htext]; simp) with hdigit | hother
  · fin_cases hmem <;> exact absurd hdigit (by decide)
  · fin_cases hmem <;> exact absurd hother (by decide)

theorem jsStringToNumber_decimal {text : String} {s : DecimalSyntax} (h : jsTrim text.toList = s.text) :
    jsStringToNumber text = .ofRat s.value := by
  have hne : s.text ≠ [] := by
    intro hnil
    have hstrip := s.strip.1
    rw [hnil] at hstrip
    have hmantissa : s.mantissa = [] := (List.append_eq_nil_iff.mp hstrip.symm).1
    rcases s.nonempty with hwhole | hfraction
    · exact hwhole (List.append_eq_nil_iff.mp hmantissa).1
    · have hnone := (List.append_eq_nil_iff.mp hmantissa).2
      cases hf : s.fraction with
      | none => exact hfraction (by rw [hf]; rfl)
      | some fraction =>
        rw [hf] at hnone
        cases hnone
  unfold jsStringToNumber
  rw [h]
  split
  · next heq => exact absurd heq hne
  · next heq => exact absurd (by decide) (s.not_marked heq)
  · next heq => exact absurd (by decide) (s.not_marked heq)
  · next heq => exact absurd (by decide) (s.not_marked heq)
  · next heq => exact absurd (by decide) (s.not_marked heq)
  · next heq => exact absurd (by decide) (s.not_marked heq)
  · next heq => exact absurd (by decide) (s.not_marked heq)
  · exact s.decimalNumber_text

theorem jsStringToNumber_radix {text : String} {mark : Char} {radix : Nat} {digits : List Char} {values : List Nat}
    (hmark : (mark, radix) ∈ marks) (hne : digits ≠ []) (hvalues : digits.mapM (toDigit radix) = .some values)
    (h : jsTrim text.toList = '0' :: mark :: digits) : jsStringToNumber text =
      if (String.ofList digits).utf8ByteSize ≤ maxJsBigintInputBytes then .ofNat (radixValue radix values 0)
      else .nan := by
  have hread : jsStringToNumber text = radixNumber radix digits := by
    unfold jsStringToNumber
    rw [h]
    simp only [marks, List.mem_cons, Prod.mk.injEq, List.not_mem_nil, or_false] at hmark
    rcases hmark with ⟨rfl, rfl⟩ | ⟨rfl, rfl⟩ | ⟨rfl, rfl⟩ | ⟨rfl, rfl⟩ | ⟨rfl, rfl⟩ | ⟨rfl, rfl⟩ <;> rfl
  have hvalue : values.foldl (fun n d => n * radix + d) 0 = radixValue radix values 0 := by
    rw [radixValue]
    congr
    funext n d
    rw [Nat.mul_comm]
  rw [hread, radixNumber, hvalues]
  split_ifs with hsize hle hle
  · simp only [Bool.or_eq_true, List.isEmpty_iff, decide_eq_true_eq] at hsize
    exact absurd (hsize.resolve_left hne) (by omega)
  · rfl
  · exact congrArg Double.ofNat hvalue
  · simp only [Bool.or_eq_true, List.isEmpty_iff, decide_eq_true_eq, not_or] at hsize
    omega

end Pillar.Canton
