/-
Checkpoint timestamps of Sui's GraphQL (`pillar-runtime`,
`provider_health/sui_graphql.rs`): the texts that are taken for one, and the
milliseconds they are read as.

A stamp is a valid date and clock with an optional fraction of a second.
`timestampMillis_eq_some` says that the parser takes just the texts of stamps,
and reads each as its Unix time.
-/
import Pillar.Decimal
import Pillar.Gregorian
import Pillar.Redact

namespace Pillar.SuiTimestamp

open Gregorian Decimal
open Redact (splitOnce splitOnce_append splitOnce_none)

/-! ## The code -/

/-- `part.len() == width`, and all of it digits. -/
def fixed (width : Nat) (part : List Char) : Bool := part.length = width && part.all Char.isDigit

/-- `parse::<i64>().ok()`. -/
def parseI64 (part : List Char) : Option ℤ := (Text.parseSigned 64 (String.ofList part)).toOption

/-- `days_in_month`. -/
def lastDay (year month : ℤ) : ℤ :=
  let leapYear := year % 4 = 0 ∧ (year % 100 ≠ 0 ∨ year % 400 = 0)
  if month = 2 then if leapYear then 29 else 28
  else if month = 4 ∨ month = 6 ∨ month = 9 ∨ month = 11 then 30
  else 31

def readDate (date : List Char) : Option (ℤ × ℤ × ℤ) :=
  match date.splitOn '-' with
  | [yearText, monthText, dayText] =>
    if !fixed 4 yearText || !fixed 2 monthText || !fixed 2 dayText then .none
    else do
      let year ← parseI64 yearText
      let month ← parseI64 monthText
      let day ← parseI64 dayText
      if year = 0 ∨ ¬ (1 ≤ month ∧ month ≤ 12) then .none
      else if ¬ (1 ≤ day ∧ day ≤ lastDay year month) then .none
      else return (year, month, day)
  | _ => .none

def readClock (clock : List Char) : Option (ℤ × ℤ × ℤ) :=
  match clock.splitOn ':' with
  | [hourText, minuteText, secondText] =>
    if !fixed 2 hourText || !fixed 2 minuteText || !fixed 2 secondText then .none
    else do
      let hour ← parseI64 hourText
      let minute ← parseI64 minuteText
      let second ← parseI64 secondText
      if hour > 23 ∨ minute > 59 ∨ second > 59 then .none
      else return (hour, minute, second)
  | _ => .none

/-- The first three digits of a fraction. -/
def readFraction : Option (List Char) → Option ℤ
  | .none => .some 0
  | .some fraction =>
    if !fraction.isEmpty && fraction.length ≤ 9 && fraction.all Char.isDigit then
      let digits := fraction.take 3
      (parseI64 digits).map (· * 10 ^ (3 - digits.length))
    else .none

/-- `strip_suffix`. -/
def stripLast (c : Char) (text : List Char) : Option (List Char) :=
  if text.getLast? = .some c then .some text.dropLast else .none

def timestampMillis (value : String) : Option ℤ := do
  let (date, time) ← splitOnce ['T'] value.toList
  let time ← stripLast 'Z' time
  let (year, month, day) ← readDate date
  let (clock, fraction) := match splitOnce ['.'] time with
    | .some (clock, fraction) => (clock, Option.some fraction)
    | .none => (time, .none)
  let (hour, minute, second) ← readClock clock
  let millis ← readFraction fraction
  return ((civil year month day * 24 + hour) * 60 + minute) * 60 * 1000 + second * 1000 + millis

/-! ## Stamps -/

/-- A date, a clock, and the digits of a fraction of a second. -/
structure Stamp where
  date : Date
  hour : Nat
  minute : Nat
  second : Nat
  fraction : Option (List Char)

namespace Stamp

structure Valid (stamp : Stamp) : Prop where
  date : stamp.date.Valid
  year_pos : 1 ≤ stamp.date.year
  year_le : stamp.date.year ≤ 9999
  hour : stamp.hour ≤ 23
  minute : stamp.minute ≤ 59
  second : stamp.second ≤ 59
  fraction : ∀ digits, stamp.fraction = .some digits →
    digits ≠ [] ∧ digits.length ≤ 9 ∧ ∀ c ∈ digits, c.isDigit = true

def dateText (date : Date) : List Char :=
  padded 4 date.year ++ '-' :: padded 2 date.month ++ '-' :: padded 2 date.day

def clockText (stamp : Stamp) : List Char :=
  padded 2 stamp.hour ++ ':' :: padded 2 stamp.minute ++ ':' :: padded 2 stamp.second

/-- `YYYY-MM-DDThh:mm:ss`, the fraction, and `Z`. -/
def text (stamp : Stamp) : List Char :=
  dateText stamp.date ++ 'T' :: (stamp.clockText ++ (stamp.fraction.elim [] ('.' :: ·) ++ ['Z']))

/-- A fraction in nanoseconds. -/
def fractionNanos (fraction : Option (List Char)) : Nat :=
  fraction.elim 0 fun digits => Nat.ofDigitChars 10 digits 0 * 10 ^ (9 - digits.length)

/-- Nanoseconds since the first of January 1970. -/
def unixNanos (stamp : Stamp) : ℤ :=
  (((stamp.date.dayNumber * 24 + stamp.hour) * 60 + stamp.minute) * 60 + stamp.second) * 1000000000 +
    fractionNanos stamp.fraction

/-- The milliseconds that are over by then. -/
def unixMillis (stamp : Stamp) : ℤ := stamp.unixNanos / 1000000

end Stamp

/-! ## Digits -/

theorem parseI64_of_digits {digits : List Char} (hne : digits ≠ []) (hlen : digits.length ≤ 9)
    (h : ∀ c ∈ digits, c.isDigit = true) : parseI64 digits = .some (Nat.ofDigitChars 10 digits 0 : ℤ) := by
  have hlt : Nat.ofDigitChars 10 digits 0 < 2 ^ 63 :=
    lt_of_lt_of_le (lt_of_lt_of_le (ofDigitChars_lt h) (Nat.pow_le_pow_right (by decide) hlen)) (by decide)
  have hread : Text.parseDigits 10 (2 ^ 63) .posOverflow 0 digits = .ok (Nat.ofDigitChars 10 digits 0) :=
    (Text.parseDigits_of_digits h (by decide)).mpr ⟨rfl, hlt⟩
  unfold parseI64 Text.parseSigned
  rw [String.toList_ofList]
  split
  · exact absurd rfl hne
  · exact absurd (h '+' (by simp)) (by decide)
  · exact absurd (h '-' (by simp)) (by decide)
  · exact absurd (h '+' (by simp)) (by decide)
  · exact absurd (h '-' (by simp)) (by decide)
  · rw [hread]
    rfl

/-- A part of fixed width is a number in so many digits. -/
theorem fixed_iff {width : Nat} (hw : 0 < width) {part : List Char} :
    fixed width part = true ↔ ∃ n, n < 10 ^ width ∧ part = padded width n := by
  unfold fixed
  rw [Bool.and_eq_true, decide_eq_true_eq, List.all_eq_true]
  constructor
  · rintro ⟨rfl, hdigits⟩
    exact ⟨_, ofDigitChars_lt hdigits, (padded_ofDigitChars (List.length_pos_iff.mp hw) hdigits).symm⟩
  · rintro ⟨n, hn, rfl⟩
    exact ⟨length_padded hw hn, isDigit_padded⟩

theorem fixed_padded {width n : Nat} (hw : 0 < width) (h : n < 10 ^ width) : fixed width (padded width n) = true :=
  (fixed_iff hw).mpr ⟨n, h, rfl⟩

theorem parseI64_padded {width n : Nat} (hw : 0 < width) (hle : width ≤ 9) (h : n < 10 ^ width) :
    parseI64 (padded width n) = .some (n : ℤ) := by
  have hlen := length_padded hw h
  rw [parseI64_of_digits (List.ne_nil_of_length_pos (by omega)) (by omega) isDigit_padded, ofDigitChars_padded]

theorem not_mem_padded {c : Char} (hc : c.isDigit = false) (width n : Nat) : c ∉ padded width n := fun h => by
  rw [isDigit_padded c h] at hc
  cases hc

/-- Three parts between two separators. -/
theorem splitOn_three {sep : Char} {text a b c : List Char} (ha : sep ∉ a) (hb : sep ∉ b) (hc : sep ∉ c) :
    text.splitOn sep = [a, b, c] ↔ text = a ++ sep :: b ++ sep :: c := by
  have hjoin : [sep].intercalate [a, b, c] = a ++ sep :: b ++ sep :: c := by simp [List.intercalate]
  constructor
  · intro h
    rw [← hjoin, ← h, List.intercalate_splitOn]
  · rintro rfl
    rw [← hjoin]
    exact List.splitOn_intercalate sep (by simp [ha, hb, hc]) (by simp)

theorem splitOnce_eq_some {c : Char} : ∀ {text before after : List Char},
    splitOnce [c] text = .some (before, after) → text = before ++ c :: after
  | [], before, after, h => by cases h
  | d :: text, before, after, h => by
    rw [splitOnce] at h
    split at h
    · next hprefix =>
      obtain rfl : c = d := by simpa using hprefix
      cases h
      rfl
    · obtain ⟨⟨front, back⟩, hsplit, heq⟩ := Option.map_eq_some_iff.mp h
      cases heq
      rw [splitOnce_eq_some hsplit, List.cons_append]

theorem stripLast_eq_some {c : Char} {text rest : List Char} : stripLast c text = .some rest ↔ text = rest ++ [c] := by
  unfold stripLast
  split
  · next h =>
    have hsplit := List.dropLast_append_getLast? c h
    rw [Option.some.injEq]
    constructor
    · rintro rfl
      exact hsplit.symm
    · rintro rfl
      exact List.dropLast_concat
  · next h =>
    refine iff_of_false (by simp) ?_
    rintro rfl
    exact h List.getLast?_concat

/-! ## Parts -/

theorem lastDay_eq (year month : Nat) : lastDay year month = daysInMonth year month := by
  have hleap : ((year : ℤ) % 4 = 0 ∧ ((year : ℤ) % 100 ≠ 0 ∨ (year : ℤ) % 400 = 0)) ↔ IsLeap year := by
    unfold IsLeap
    omega
  unfold lastDay daysInMonth
  simp only [hleap]
  split
  · next h =>
    obtain rfl : month = 2 := by omega
    simp only
    split <;> rfl
  · next h =>
    split
    · next h' =>
      rcases h' with h' | h' | h' | h'
      · obtain rfl : month = 4 := by omega
        rfl
      · obtain rfl : month = 6 := by omega
        rfl
      · obtain rfl : month = 9 := by omega
        rfl
      · obtain rfl : month = 11 := by omega
        rfl
    · next h' =>
      split <;> omega

theorem readDate_eq_some {text : List Char} {year month day : ℤ} : readDate text = .some (year, month, day) ↔
    ∃ date : Date, date.Valid ∧ 1 ≤ date.year ∧ date.year ≤ 9999 ∧ text = Stamp.dateText date ∧
      year = date.year ∧ month = date.month ∧ day = date.day := by
  constructor
  · intro h
    unfold readDate at h
    split at h
    case h_2 => cases h
    next yearText monthText dayText hsplit =>
    split at h
    · cases h
    next hfixed =>
    simp only [Bool.or_eq_true, Bool.not_eq_true', not_or, Bool.not_eq_false] at hfixed
    obtain ⟨y, hy, rfl⟩ := (fixed_iff (by decide)).mp hfixed.1.1
    obtain ⟨m, hm, rfl⟩ := (fixed_iff (by decide)).mp hfixed.1.2
    obtain ⟨d, hd, rfl⟩ := (fixed_iff (by decide)).mp hfixed.2
    have hdash : ∀ width n, '-' ∉ padded width n := not_mem_padded rfl
    have htext := (splitOn_three (hdash 4 y) (hdash 2 m) (hdash 2 d)).mp hsplit
    simp only [parseI64_padded (by decide : 0 < 4) (by decide) hy, parseI64_padded (by decide : 0 < 2) (by decide) hm,
      parseI64_padded (by decide : 0 < 2) (by decide) hd, Option.bind_eq_bind, Option.bind_some] at h
    split at h
    · cases h
    next hmonth =>
    split at h
    · cases h
    next hday =>
    cases h
    rw [lastDay_eq] at hday
    simp only [not_or, not_not] at hmonth hday
    exact ⟨⟨y, m, d⟩, ⟨by simp only; omega, by simp only; omega, by simp only; omega, by simp only; omega⟩,
      by simp only; omega, by simp only; omega, htext, rfl, rfl, rfl⟩
  · rintro ⟨⟨y, m, d⟩, hvalid, hpos, hle, rfl, rfl, rfl, rfl⟩
    have hm := hvalid.month_le
    have hm' := hvalid.month_pos
    have hd := hvalid.day_le
    have hd' := hvalid.day_pos
    simp only at hpos hle hm hm' hd hd'
    have hmonth := daysInMonth_le y m
    have hdash : ∀ width n, '-' ∉ padded width n := not_mem_padded rfl
    have hsplit : (Stamp.dateText ⟨y, m, d⟩).splitOn '-' = [padded 4 y, padded 2 m, padded 2 d] :=
      (splitOn_three (hdash 4 y) (hdash 2 m) (hdash 2 d)).mpr rfl
    unfold readDate
    rw [hsplit]
    have hy10 : y < 10 ^ 4 := by omega
    have hm10 : m < 10 ^ 2 := by omega
    have hd10 : d < 10 ^ 2 := by omega
    simp only [fixed_padded (by decide : 0 < 4) hy10, fixed_padded (by decide : 0 < 2) hm10,
      fixed_padded (by decide : 0 < 2) hd10,
      Bool.not_true, Bool.or_false, Bool.false_eq_true, if_false, Option.bind_eq_bind, Option.bind_some,
      parseI64_padded (by decide : 0 < 4) (by decide) hy10, parseI64_padded (by decide : 0 < 2) (by decide) hm10,
      parseI64_padded (by decide : 0 < 2) (by decide) hd10, lastDay_eq]
    rw [if_neg (by omega), if_neg (by omega)]
    rfl

theorem readClock_eq_some {text : List Char} {hour minute second : ℤ} :
    readClock text = .some (hour, minute, second) ↔ ∃ h m s : Nat, h ≤ 23 ∧ m ≤ 59 ∧ s ≤ 59 ∧
      text = padded 2 h ++ ':' :: padded 2 m ++ ':' :: padded 2 s ∧ hour = h ∧ minute = m ∧ second = s := by
  have hcolon : ∀ width n, ':' ∉ padded width n := not_mem_padded rfl
  constructor
  · intro h
    unfold readClock at h
    split at h
    case h_2 => cases h
    next hourText minuteText secondText hsplit =>
    split at h
    · cases h
    next hfixed =>
    simp only [Bool.or_eq_true, Bool.not_eq_true', not_or, Bool.not_eq_false] at hfixed
    obtain ⟨hh, hhh, rfl⟩ := (fixed_iff (by decide)).mp hfixed.1.1
    obtain ⟨mm, hmm, rfl⟩ := (fixed_iff (by decide)).mp hfixed.1.2
    obtain ⟨ss, hss, rfl⟩ := (fixed_iff (by decide)).mp hfixed.2
    have htext := (splitOn_three (hcolon 2 hh) (hcolon 2 mm) (hcolon 2 ss)).mp hsplit
    simp only [parseI64_padded (by decide : 0 < 2) (by decide) hhh, parseI64_padded (by decide : 0 < 2) (by decide) hmm,
      parseI64_padded (by decide : 0 < 2) (by decide) hss, Option.bind_eq_bind, Option.bind_some] at h
    split at h
    · cases h
    next hrange =>
    cases h
    exact ⟨hh, mm, ss, by omega, by omega, by omega, htext, rfl, rfl, rfl⟩
  · rintro ⟨hh, mm, ss, hhh, hmm, hss, rfl, rfl, rfl, rfl⟩
    have hh10 : hh < 10 ^ 2 := by omega
    have hm10 : mm < 10 ^ 2 := by omega
    have hs10 : ss < 10 ^ 2 := by omega
    unfold readClock
    rw [(splitOn_three (hcolon 2 hh) (hcolon 2 mm) (hcolon 2 ss)).mpr rfl]
    simp only [fixed_padded (by decide : 0 < 2) hh10, fixed_padded (by decide : 0 < 2) hm10,
      fixed_padded (by decide : 0 < 2) hs10, Bool.not_true, Bool.or_false, Bool.false_eq_true, if_false,
      Option.bind_eq_bind, Option.bind_some, parseI64_padded (by decide : 0 < 2) (by decide) hh10,
      parseI64_padded (by decide : 0 < 2) (by decide) hm10, parseI64_padded (by decide : 0 < 2) (by decide) hs10]
    rw [if_neg (by omega)]
    rfl

/-- The first three of up to nine digits are the milliseconds. -/
theorem take_millis {digits : List Char} (hlen : digits.length ≤ 9) (h : ∀ c ∈ digits, c.isDigit = true) :
    Nat.ofDigitChars 10 (digits.take 3) 0 * 10 ^ (3 - (digits.take 3).length) =
      Nat.ofDigitChars 10 digits 0 * 10 ^ (9 - digits.length) / 1000000 := by
  rcases le_or_gt digits.length 3 with hshort | hlong
  · have hpow : 10 ^ (9 - digits.length) = 10 ^ (3 - digits.length) * 1000000 := by
      rw [show 9 - digits.length = 3 - digits.length + 6 by omega, pow_add]
      rfl
    rw [List.take_of_length_le hshort, hpow, ← Nat.mul_assoc, Nat.mul_div_cancel _ (by decide)]
  · have hdrop : Nat.ofDigitChars 10 (digits.drop 3) 0 < 10 ^ (digits.drop 3).length :=
      ofDigitChars_lt fun c hc => h c (List.mem_of_mem_drop hc)
    have hvalue := ofDigitChars_append_eq (digits.take 3) (digits.drop 3)
    rw [List.take_append_drop] at hvalue
    rw [List.length_drop] at hdrop hvalue
    have hpow : 10 ^ (digits.length - 3) * 10 ^ (9 - digits.length) = 1000000 := by
      rw [← pow_add, show digits.length - 3 + (9 - digits.length) = 6 by omega]
      rfl
    have htake : (digits.take 3).length = 3 := by
      rw [List.length_take]
      omega
    have hrest : Nat.ofDigitChars 10 (digits.drop 3) 0 * 10 ^ (9 - digits.length) < 1000000 := by
      rw [← hpow]
      exact Nat.mul_lt_mul_of_pos_right hdrop (by positivity)
    rw [htake, hvalue, Nat.add_mul, Nat.mul_assoc, hpow]
    omega

theorem readFraction_eq_some {fraction : Option (List Char)} {millis : ℤ} : readFraction fraction = .some millis ↔
    (∀ digits, fraction = .some digits → digits ≠ [] ∧ digits.length ≤ 9 ∧ ∀ c ∈ digits, c.isDigit = true) ∧
      millis = (Stamp.fractionNanos fraction / 1000000 : Nat) := by
  cases fraction with
  | none =>
    simp only [readFraction, Stamp.fractionNanos, Option.elim_none, reduceCtorEq, false_implies, implies_true, true_and,
      Option.some.injEq]
    exact eq_comm
  | some digits =>
    simp only [readFraction, Stamp.fractionNanos, Option.elim_some, Option.some.injEq, forall_eq']
    by_cases hform : digits ≠ [] ∧ digits.length ≤ 9 ∧ ∀ c ∈ digits, c.isDigit = true
    · obtain ⟨hne, hlen, hdigits⟩ := hform
      have hcheck : (!digits.isEmpty && decide (digits.length ≤ 9) && digits.all Char.isDigit) = true := by
        simpa [hne, hlen] using hdigits
      have htake : parseI64 (digits.take 3) = .some (Nat.ofDigitChars 10 (digits.take 3) 0 : ℤ) :=
        parseI64_of_digits (by simpa using hne) (by rw [List.length_take]; omega)
          fun c hc => hdigits c (List.mem_of_mem_take hc)
      rw [if_pos hcheck, htake, Option.map_some, Option.some.injEq, ← take_millis hlen hdigits, Nat.cast_mul,
        Nat.cast_pow, and_iff_right ⟨hne, hlen, hdigits⟩]
      exact eq_comm
    · have hcheck : ¬ (!digits.isEmpty && decide (digits.length ≤ 9) && digits.all Char.isDigit) = true := by
        simpa [and_assoc] using hform
      rw [if_neg hcheck]
      exact iff_of_false (by simp) fun h => hform h.1

/-! ## The parser -/

/-- No fraction's digits, or a dot and them. -/
theorem splitOnce_fraction {clock : List Char} (hclock : '.' ∉ clock) (fraction : Option (List Char)) :
    (match splitOnce ['.'] (clock ++ fraction.elim [] ('.' :: ·)) with
      | .some (clock, fraction) => (clock, Option.some fraction)
      | .none => (clock ++ fraction.elim [] ('.' :: ·), .none)) = (clock, fraction) := by
  cases fraction with
  | none => simp only [Option.elim_none, List.append_nil, splitOnce_none hclock]
  | some digits =>
    have hshape : clock ++ '.' :: digits = clock ++ ['.'] ++ digits := by simp
    rw [Option.elim_some, hshape, splitOnce_append hclock]

theorem readFraction_of_valid {stamp : Stamp} (h : stamp.Valid) :
    readFraction stamp.fraction = .some (Stamp.fractionNanos stamp.fraction / 1000000 : Nat) :=
  readFraction_eq_some.mpr ⟨h.fraction, rfl⟩

/-- The milliseconds of whole seconds, and those of the fraction. -/
theorem unixMillis_eq (stamp : Stamp) : stamp.unixMillis =
    ((stamp.date.dayNumber * 24 + stamp.hour) * 60 + stamp.minute) * 60 * 1000 + stamp.second * 1000 +
      (Stamp.fractionNanos stamp.fraction / 1000000 : Nat) := by
  rw [Stamp.unixMillis, Stamp.unixNanos]
  generalize Stamp.fractionNanos stamp.fraction = nanos
  omega

/-- **The parser takes the texts of stamps, and reads each as its Unix time.** -/
theorem timestampMillis_eq_some {value : String} {millis : ℤ} : timestampMillis value = .some millis ↔
    ∃ stamp : Stamp, stamp.Valid ∧ value.toList = stamp.text ∧ millis = stamp.unixMillis := by
  unfold timestampMillis
  constructor
  · intro h
    obtain ⟨⟨date, time⟩, hsplit, h⟩ := Option.bind_eq_some_iff.mp h
    obtain ⟨rest, hstrip, h⟩ := Option.bind_eq_some_iff.mp h
    obtain ⟨⟨year, month, day⟩, hdate, h⟩ := Option.bind_eq_some_iff.mp h
    obtain ⟨date, hvalid, hpos, hle, rfl, rfl, rfl, rfl⟩ := readDate_eq_some.mp hdate
    have htext := splitOnce_eq_some hsplit
    rw [stripLast_eq_some.mp hstrip] at htext
    -- What stands after the clock.
    obtain ⟨clock, fraction, hparts, hrest⟩ : ∃ clock fraction, (match splitOnce ['.'] rest with
        | .some (clock, fraction) => (clock, Option.some fraction)
        | .none => (rest, .none)) = (clock, fraction) ∧ rest = clock ++ fraction.elim [] ('.' :: ·) := by
      cases hdot : splitOnce ['.'] rest with
      | none => exact ⟨rest, .none, rfl, by simp⟩
      | some parts => exact ⟨parts.1, .some parts.2, rfl, splitOnce_eq_some hdot⟩
    simp only [hparts] at h
    obtain ⟨⟨hour, minute, second⟩, hclock, h⟩ := Option.bind_eq_some_iff.mp h
    obtain ⟨hh, mm, ss, hhh, hmm, hss, rfl, rfl, rfl, rfl⟩ := readClock_eq_some.mp hclock
    obtain ⟨millis', hfraction, h⟩ := Option.bind_eq_some_iff.mp h
    obtain ⟨hdigits, rfl⟩ := readFraction_eq_some.mp hfraction
    cases h
    refine ⟨⟨date, hh, mm, ss, fraction⟩, ⟨hvalid, hpos, hle, hhh, hmm, hss, hdigits⟩, ?_, ?_⟩
    · rw [htext, hrest, Stamp.text, Stamp.clockText]
      simp
    · rw [unixMillis_eq, dayNumber_eq_civil hvalid]
  · rintro ⟨stamp, hvalid, htext, rfl⟩
    have hT : 'T' ∉ Stamp.dateText stamp.date := by
      simp only [Stamp.dateText, List.mem_append, List.mem_cons, not_or]
      exact ⟨⟨not_mem_padded rfl _ _, by decide, not_mem_padded rfl _ _⟩, by decide, not_mem_padded rfl _ _⟩
    have hdot : '.' ∉ stamp.clockText := by
      simp only [Stamp.clockText, List.mem_append, List.mem_cons, not_or]
      exact ⟨⟨not_mem_padded rfl _ _, by decide, not_mem_padded rfl _ _⟩, by decide, not_mem_padded rfl _ _⟩
    have hsplit : splitOnce ['T'] value.toList = .some (Stamp.dateText stamp.date,
        stamp.clockText ++ stamp.fraction.elim [] ('.' :: ·) ++ ['Z']) := by
      have hshape : value.toList = Stamp.dateText stamp.date ++ ['T'] ++
          (stamp.clockText ++ stamp.fraction.elim [] ('.' :: ·) ++ ['Z']) := by
        rw [htext, Stamp.text]
        simp
      rw [hshape, splitOnce_append hT]
    have hdate := readDate_eq_some.mpr ⟨stamp.date, hvalid.date, hvalid.year_pos, hvalid.year_le, rfl, rfl, rfl, rfl⟩
    have hclock : readClock stamp.clockText = .some (stamp.hour, stamp.minute, stamp.second) := readClock_eq_some.mpr
      ⟨stamp.hour, stamp.minute, stamp.second, hvalid.hour, hvalid.minute, hvalid.second, rfl, rfl, rfl, rfl⟩
    have hparts := splitOnce_fraction hdot stamp.fraction
    rw [hsplit, unixMillis_eq, ← dayNumber_eq_civil hvalid.date]
    simp only [Option.bind_eq_bind, Option.bind_some, stripLast_eq_some.mpr rfl, hdate, hparts, hclock,
      readFraction_of_valid hvalid]
    rfl

/-! ## The order -/

/-- The earlier of two stamps by the calendar, the clock, and then the
milliseconds of the fraction. -/
def Stamp.Before (a b : Stamp) : Prop :=
  a.date.Before b.date ∨ (a.date = b.date ∧ (a.hour < b.hour ∨ (a.hour = b.hour ∧
    (a.minute < b.minute ∨ (a.minute = b.minute ∧ (a.second < b.second ∨ (a.second = b.second ∧
      Stamp.fractionNanos a.fraction / 1000000 < Stamp.fractionNanos b.fraction / 1000000)))))))

/-- A fraction is less than a second. -/
theorem fractionNanos_lt {stamp : Stamp} (h : stamp.Valid) : Stamp.fractionNanos stamp.fraction < 1000000000 := by
  unfold Stamp.fractionNanos
  cases hfraction : stamp.fraction with
  | none => decide
  | some digits =>
    obtain ⟨-, hlen, hdigits⟩ := h.fraction digits hfraction
    have hlt := Nat.mul_lt_mul_of_pos_right (ofDigitChars_lt hdigits)
      (Nat.pow_pos (n := 9 - digits.length) (by decide : 0 < 10))
    rw [← pow_add, show digits.length + (9 - digits.length) = 9 by omega] at hlt
    exact hlt

/-- A whole millisecond between two stamps shows in the milliseconds. -/
theorem unixMillis_lt_of_nanos {a b : Stamp} (h : a.unixNanos + 1000000 ≤ b.unixNanos) :
    a.unixMillis < b.unixMillis := by
  unfold Stamp.unixMillis
  omega

theorem unixMillis_lt_of_before {a b : Stamp} (ha : a.Valid) (hb : b.Valid) (h : a.Before b) :
    a.unixMillis < b.unixMillis := by
  have hlt := fractionNanos_lt ha
  have hhour := ha.hour
  have hminute := ha.minute
  have hsecond := ha.second
  have hminute' := hb.minute
  have hsecond' := hb.second
  rw [unixMillis_eq, unixMillis_eq]
  unfold Stamp.Before at h
  generalize Stamp.fractionNanos a.fraction = nanos at *
  generalize Stamp.fractionNanos b.fraction = nanos' at *
  rcases h with hdate | ⟨hdate, hclock⟩
  · have hday := dayNumber_lt ha.date hb.date hdate
    omega
  · rw [hdate]
    omega

/-- **Timestamps are read exactly.** The strings taken are those of stamps, each
read as its Unix time in milliseconds; and of two stamps, the one that is a
millisecond earlier, or comes before by calendar and clock, is read as less. -/
theorem timestampMillis_exact :
    (∀ (value : String) (millis : ℤ), timestampMillis value = .some millis ↔
      ∃ stamp : Stamp, stamp.Valid ∧ value.toList = stamp.text ∧ millis = stamp.unixMillis) ∧
    ∀ a b : Stamp, a.Valid → b.Valid → a.unixNanos + 1000000 ≤ b.unixNanos ∨ a.Before b →
      ∃ s t, timestampMillis (String.ofList a.text) = .some s ∧ timestampMillis (String.ofList b.text) = .some t ∧
        s < t := by
  refine ⟨fun value millis => timestampMillis_eq_some, fun a b ha hb h => ?_⟩
  refine ⟨a.unixMillis, b.unixMillis, timestampMillis_eq_some.mpr ⟨a, ha, String.toList_ofList, rfl⟩,
    timestampMillis_eq_some.mpr ⟨b, hb, String.toList_ofList, rfl⟩, ?_⟩
  rcases h with hnanos | hbefore
  · exact unixMillis_lt_of_nanos hnanos
  · exact unixMillis_lt_of_before ha hb hbefore

/-- The last millisecond of a leap day, and the day after. -/
theorem leapDay_before :
    timestampMillis "2026-10-09T00:00:00.000Z" = .some 1791504000000 ∧
    ∃ s t, timestampMillis (String.ofList "2000-02-29T23:59:59.999Z".toList) = .some s ∧
      timestampMillis (String.ofList "2000-03-01T00:00:00Z".toList) = .some t ∧ s < t := by
  have hdigits : ∀ c ∈ ['9', '9', '9'], c.isDigit = true := by simp
  have hzeros : ∀ c ∈ ['0', '0', '0'], c.isDigit = true := by simp
  constructor
  · refine (timestampMillis_exact.1 _ _).mpr ⟨⟨⟨2026, 10, 9⟩, 0, 0, 0, .some ['0', '0', '0']⟩, ?_, rfl, ?_⟩
    · exact ⟨⟨by decide, by decide, by decide, by decide⟩, by decide, by decide, by decide, by decide, by decide,
        fun digits h => by cases h; exact ⟨by decide, by decide, hzeros⟩⟩
    · rw [unixMillis_eq, ← dayNumber_eq_civil ⟨by decide, by decide, by decide, by decide⟩]
      rfl
  · refine timestampMillis_exact.2 ⟨⟨2000, 2, 29⟩, 23, 59, 59, .some ['9', '9', '9']⟩ ⟨⟨2000, 3, 1⟩, 0, 0, 0, .none⟩
      ⟨⟨by decide, by decide, by decide, by decide⟩, by decide, by decide, by decide, by decide, by decide,
        fun digits h => by cases h; exact ⟨by decide, by decide, hdigits⟩⟩
      ⟨⟨by decide, by decide, by decide, by decide⟩, by decide, by decide, by decide, by decide, by decide,
        fun digits h => by cases h⟩ (.inr (.inl (.inr ⟨rfl, .inl (by decide)⟩)))

end Pillar.SuiTimestamp
