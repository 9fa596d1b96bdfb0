/-
Block times of Initia (`pillar-runtime`, `source_events_move.rs`):
`parse_rfc3339_seconds`, with its zones and its rounding up.

A byte that is not ASCII is neither a digit nor a mark, so that places in the
text are counted in characters. Arithmetic that would not fit in 64 bits panics,
or ends in nothing where the source checks it.
-/
import Pillar.Halt
import Pillar.SuiTimestamp

namespace Pillar.InitiaTimestamp

open Gregorian Decimal SuiTimestamp
open Redact (splitOnce splitOnce_append splitOnce_none)

/-! ## The code -/

/-- `checked_add` and the like: a result that fits in an `i64`. -/
def checkedI64 (n : ℤ) : Option ℤ := if -2 ^ 63 ≤ n ∧ n < 2 ^ 63 then .some n else .none

/-- `+`, `-` and `*` of an `i64`: a panic when the result does not fit. -/
def i64 (n : ℤ) : Exec Unit ℤ := Exec.get (checkedI64 n)

/-- A text of this length with the marks at their places, and digits at all
places that are not free. -/
def shaped (length : Nat) (mark : Char) (marks free : List Nat) (text : List Char) : Bool :=
  text.length = length && marks.all (fun i => text[i]? = .some mark) &&
    text.zipIdx.all (fun (c, i) => i ∈ free || c.isDigit)

/-- `get(start..stop)`, read as a number. -/
def number (text : List Char) (start stop : Nat) : Option ℤ := parseI64 ((text.drop start).take (stop - start))

def readDate (date : List Char) : Option (ℤ × ℤ × ℤ) := do
  if !shaped 10 '-' [4, 7] [4, 7] date then .none
  let year ← number date 0 4
  let month ← number date 5 7
  let day ← number date 8 10
  if ¬ (1 ≤ month ∧ month ≤ 12) then .none
  if ¬ (1 ≤ day ∧ day ≤ lastDay year month) then .none
  return (year, month, day)

/-- A text split before the last `+` or `-`. -/
def splitSign : List Char → Option (List Char × List Char)
  | [] => .none
  | c :: text =>
    match splitSign text with
    | .some (before, after) => .some (c :: before, after)
    | .none => if c = '+' ∨ c = '-' then .some ([], c :: text) else .none

def signedSeconds (sign hours minutes : ℤ) : Exec Unit ℤ := do
  let .some hourSeconds := checkedI64 (hours * 3600) | Exec.err ()
  let .some minuteSeconds := checkedI64 (minutes * 60) | Exec.err ()
  let .some magnitude := checkedI64 (hourSeconds + minuteSeconds) | Exec.err ()
  i64 (sign * magnitude)

/-- The seconds of an offset. -/
def readOffset (offset : List Char) : Exec Unit ℤ := do
  if !shaped 6 ':' [3] [0, 3] offset then Exec.err ()
  let .some hours := number offset 1 3 | Exec.err ()
  let .some minutes := number offset 4 6 | Exec.err ()
  if hours > 23 ∨ minutes > 59 then Exec.err ()
  signedSeconds (if offset.head? = .some '+' then 1 else -1) hours minutes

/-- The time, and the seconds of its zone. -/
def readZone (timeAndZone : List Char) : Exec Unit (List Char × ℤ) := do
  if timeAndZone.getLast? = .some 'Z' ∨ timeAndZone.getLast? = .some 'z' then return (timeAndZone.dropLast, 0)
  let .some (time, offset) := splitSign timeAndZone | Exec.err ()
  return (time, ← readOffset offset)

def readClock (clock : List Char) : Option (ℤ × ℤ × ℤ) := do
  if !shaped 8 ':' [2, 5] [2, 5] clock then .none
  let hour ← number clock 0 2
  let minute ← number clock 3 5
  let second ← number clock 6 8
  if hour > 23 ∨ minute > 59 ∨ second > 59 then .none
  return (hour, minute, second)

/-- Whether a fraction is well formed; none is. -/
def fractionOk (fraction : Option (List Char)) : Bool :=
  fraction.all fun digits => !digits.isEmpty && digits.all Char.isDigit

/-- The days since 1970, in years that start in March. -/
def dayCount (year month day : ℤ) : Exec Unit ℤ := do
  let adjustedYear ← i64 (year - if month ≤ 2 then 1 else 0)
  let adjustedMonth ← i64 (month + if month ≤ 2 then 9 else -3)
  let era := adjustedYear / 400
  let eraYears ← i64 (era * 400)
  let yearOfEra ← i64 (adjustedYear - eraYears)
  let months ← i64 (153 * adjustedMonth)
  let months ← i64 (months + 2)
  let dayOfYear ← i64 (months.tdiv 5 + day)
  let dayOfYear ← i64 (dayOfYear - 1)
  let dayOfEra ← i64 (yearOfEra * 365)
  let dayOfEra ← i64 (dayOfEra + yearOfEra.tdiv 4)
  let dayOfEra ← i64 (dayOfEra - yearOfEra.tdiv 100)
  let dayOfEra ← i64 (dayOfEra + dayOfYear)
  let eraDays ← i64 (era * 146097)
  let days ← i64 (eraDays + dayOfEra)
  i64 (days - 719468)

def secondOfDay (hour minute second : ℤ) : Exec Unit ℤ := do
  let hours ← i64 (hour * 3600)
  let minutes ← i64 (minute * 60)
  let seconds ← i64 (hours + minutes)
  i64 (seconds + second)

/-- `parse_rfc3339_seconds`. -/
def parseRfc3339Seconds (timestamp : String) : Exec Unit ℤ := do
  let .some (date, timeAndZone) := splitOnce ['T'] timestamp.toList | Exec.err ()
  let .some (year, month, day) := readDate date | Exec.err ()
  let (time, offsetSeconds) ← readZone timeAndZone
  let (clock, fraction) := match splitOnce ['.'] time with
    | .some (clock, fraction) => (clock, Option.some fraction)
    | .none => (time, .none)
  let .some (hour, minute, second) := readClock clock | Exec.err ()
  if !fractionOk fraction then Exec.err ()
  let hasFraction := (fraction.getD []).any (· ≠ '0')
  let days ← dayCount year month day
  let .some daySeconds := checkedI64 (days * 86400) | Exec.err ()
  let .some localSeconds := checkedI64 (daySeconds + (← secondOfDay hour minute second)) | Exec.err ()
  let .some utcSeconds := checkedI64 (localSeconds - offsetSeconds) | Exec.err ()
  let .some seconds := checkedI64 (utcSeconds + if hasFraction then 1 else 0) | Exec.err ()
  return seconds

/-! ## Times and zones -/

inductive Zone where
  | upper
  | lower
  | offset (negative : Bool) (hours minutes : Nat)
  deriving Repr, DecidableEq

namespace Zone

/-- `Z`, `z`, or a sign and `hh:mm`. -/
def text : Zone → List Char
  | .upper => ['Z']
  | .lower => ['z']
  | .offset negative hours minutes => (if negative then '-' else '+') :: (padded 2 hours ++ ':' :: padded 2 minutes)

/-- How far the zone's clocks are ahead. -/
def seconds : Zone → ℤ
  | .offset negative hours minutes => (if negative then -1 else 1) * ((hours : ℤ) * 3600 + minutes * 60)
  | _ => 0

def Valid : Zone → Prop
  | .offset _ hours minutes => hours ≤ 23 ∧ minutes ≤ 59
  | _ => True

end Zone

/-- A date and a clock with the digits of a fraction, in a zone. -/
structure Time where
  stamp : Stamp
  zone : Zone

namespace Time

structure Valid (time : Time) : Prop where
  date : time.stamp.date.Valid
  year_le : time.stamp.date.year ≤ 9999
  hour : time.stamp.hour ≤ 23
  minute : time.stamp.minute ≤ 59
  second : time.stamp.second ≤ 59
  fraction : ∀ digits, time.stamp.fraction = .some digits → digits ≠ [] ∧ ∀ c ∈ digits, c.isDigit = true
  zone : time.zone.Valid

/-- `YYYY-MM-DDThh:mm:ss`, the fraction, and the zone. -/
def text (time : Time) : List Char :=
  Stamp.dateText time.stamp.date ++
    'T' :: (time.stamp.clockText ++ (time.stamp.fraction.elim [] ('.' :: ·) ++ time.zone.text))

/-- The seconds since 1970 that are over. -/
def wholeSeconds (time : Time) : ℤ :=
  time.stamp.date.dayNumber * 86400 + (time.stamp.hour * 3600 + time.stamp.minute * 60 + time.stamp.second) -
    time.zone.seconds

/-- The seconds since 1970, with the fraction of one. -/
def instant (time : Time) : ℚ :=
  time.wholeSeconds + time.stamp.fraction.elim 0 fun digits => (Nat.ofDigitChars 10 digits 0 : ℚ) / 10 ^ digits.length

end Time

/-! ## Parts -/

theorem shaped_date {text : List Char} : shaped 10 '-' [4, 7] [4, 7] text = true ↔
    ∃ a b c, fixed 4 a = true ∧ fixed 2 b = true ∧ fixed 2 c = true ∧ text = a ++ '-' :: b ++ '-' :: c := by
  constructor
  · intro h
    have hlen : text.length = 10 := by
      simp only [shaped, Bool.and_eq_true, decide_eq_true_eq] at h
      exact h.1.1
    match text, hlen with
    | [a, b, c, d, p, e, f, q, g, k], _ =>
      simp [shaped] at h
      obtain ⟨⟨rfl, rfl⟩, ha, hb, hc, hd, he, hf, hg, hk⟩ := h
      refine ⟨[a, b, c, d], [e, f], [g, k], ?_, ?_, ?_, rfl⟩
      · simp [fixed, ha, hb, hc, hd]
      · simp [fixed, he, hf]
      · simp [fixed, hg, hk]
  · rintro ⟨a, b, c, ha, hb, hc, rfl⟩
    simp only [fixed, Bool.and_eq_true, decide_eq_true_eq] at ha hb hc
    match a, ha, b, hb, c, hc with
    | [a, b, c, d], ha, [e, f], he, [g, k], hg =>
      simp [shaped] at *
      tauto

theorem shaped_clock {text : List Char} : shaped 8 ':' [2, 5] [2, 5] text = true ↔
    ∃ a b c, fixed 2 a = true ∧ fixed 2 b = true ∧ fixed 2 c = true ∧ text = a ++ ':' :: b ++ ':' :: c := by
  constructor
  · intro h
    have hlen : text.length = 8 := by
      simp only [shaped, Bool.and_eq_true, decide_eq_true_eq] at h
      exact h.1.1
    match text, hlen with
    | [a, b, p, c, d, q, e, f], _ =>
      simp [shaped] at h
      obtain ⟨⟨rfl, rfl⟩, ha, hb, hc, hd, he, hf⟩ := h
      refine ⟨[a, b], [c, d], [e, f], ?_, ?_, ?_, rfl⟩
      · simp [fixed, ha, hb]
      · simp [fixed, hc, hd]
      · simp [fixed, he, hf]
  · rintro ⟨a, b, c, ha, hb, hc, rfl⟩
    simp only [fixed, Bool.and_eq_true, decide_eq_true_eq] at ha hb hc
    match a, ha, b, hb, c, hc with
    | [a, b], ha, [c, d], hc, [e, f], he =>
      simp [shaped] at *
      tauto

theorem shaped_offset {text : List Char} : shaped 6 ':' [3] [0, 3] text = true ↔
    ∃ sign a b, fixed 2 a = true ∧ fixed 2 b = true ∧ text = sign :: (a ++ ':' :: b) := by
  constructor
  · intro h
    have hlen : text.length = 6 := by
      simp only [shaped, Bool.and_eq_true, decide_eq_true_eq] at h
      exact h.1.1
    match text, hlen with
    | [sign, a, b, p, c, d], _ =>
      simp [shaped] at h
      obtain ⟨rfl, ha, hb, hc, hd⟩ := h
      refine ⟨sign, [a, b], [c, d], ?_, ?_, rfl⟩
      · simp [fixed, ha, hb]
      · simp [fixed, hc, hd]
  · rintro ⟨sign, a, b, ha, hb, rfl⟩
    simp only [fixed, Bool.and_eq_true, decide_eq_true_eq] at ha hb
    match a, ha, b, hb with
    | [a, b], ha, [c, d], hc =>
      simp [shaped] at *
      tauto

/-- Digits are read where they stand. -/
theorem number_padded {text front back : List Char} {width n start stop : Nat}
    (htext : text = front ++ (padded width n ++ back)) (hstart : front.length = start) (hstop : start + width = stop)
    (hw : 0 < width) (hle : width ≤ 9) (h : n < 10 ^ width) : number text start stop = .some (n : ℤ) := by
  have hlen := length_padded hw h
  subst hstart hstop
  rw [number, htext, List.drop_left, Nat.add_sub_cancel_left, List.take_left' hlen, parseI64_padded hw hle h]

theorem readDate_dateText {y m d : Nat} (hy : y < 10 ^ 4) (hm : m < 10 ^ 2) (hd : d < 10 ^ 2) :
    readDate (Stamp.dateText ⟨y, m, d⟩) =
      if (1 ≤ m ∧ m ≤ 12) ∧ 1 ≤ d ∧ d ≤ daysInMonth y m then .some ((y : ℤ), (m : ℤ), (d : ℤ)) else .none := by
  have hshape : shaped 10 '-' [4, 7] [4, 7] (Stamp.dateText ⟨y, m, d⟩) = true := shaped_date.mpr
    ⟨_, _, _, fixed_padded (by decide) hy, fixed_padded (by decide) hm, fixed_padded (by decide) hd, rfl⟩
  have hlen := length_padded (by decide) hy
  have hlen' := length_padded (by decide) hm
  have hyear : number (Stamp.dateText ⟨y, m, d⟩) 0 4 = .some (y : ℤ) := by
    have htext : Stamp.dateText ⟨y, m, d⟩ = [] ++ (padded 4 y ++ '-' :: (padded 2 m ++ '-' :: padded 2 d)) := by
      simp [Stamp.dateText]
    exact number_padded htext rfl rfl (by decide) (by decide) hy
  have hmonth : number (Stamp.dateText ⟨y, m, d⟩) 5 7 = .some (m : ℤ) := by
    have htext : Stamp.dateText ⟨y, m, d⟩ = padded 4 y ++ ['-'] ++ (padded 2 m ++ '-' :: padded 2 d) := by
      simp [Stamp.dateText]
    exact number_padded htext (by simp [hlen]) rfl (by decide) (by decide) hm
  have hday : number (Stamp.dateText ⟨y, m, d⟩) 8 10 = .some (d : ℤ) := by
    have htext : Stamp.dateText ⟨y, m, d⟩ = padded 4 y ++ '-' :: padded 2 m ++ ['-'] ++ (padded 2 d ++ []) := by
      simp [Stamp.dateText]
    exact number_padded htext (by simp [hlen, hlen']) rfl (by decide) (by decide) hd
  unfold readDate
  simp only [hshape, hyear, hmonth, hday, Bool.not_true, Bool.false_eq_true, if_false, Option.bind_eq_bind,
    Option.bind_some, Option.bind_none, lastDay_eq]
  split_ifs <;> first | rfl | omega

theorem readDate_eq_some {text : List Char} {year month day : ℤ} : readDate text = .some (year, month, day) ↔
    ∃ date : Date, date.Valid ∧ date.year ≤ 9999 ∧ text = Stamp.dateText date ∧
      year = date.year ∧ month = date.month ∧ day = date.day := by
  constructor
  · intro h
    have hshape : shaped 10 '-' [4, 7] [4, 7] text = true := by
      by_contra hno
      simp [readDate, hno] at h
    obtain ⟨a, b, c, ha, hb, hc, rfl⟩ := shaped_date.mp hshape
    obtain ⟨y, hy, rfl⟩ := (fixed_iff (by decide)).mp ha
    obtain ⟨m, hm, rfl⟩ := (fixed_iff (by decide)).mp hb
    obtain ⟨d, hd, rfl⟩ := (fixed_iff (by decide)).mp hc
    have hread := readDate_dateText hy hm hd
    rw [Stamp.dateText] at hread
    rw [hread] at h
    split at h
    · next hrange =>
      cases h
      exact ⟨⟨y, m, d⟩, ⟨hrange.1.1, hrange.1.2, hrange.2.1, hrange.2.2⟩, Nat.le_of_lt_succ hy, rfl, rfl, rfl, rfl⟩
    · cases h
  · rintro ⟨⟨y, m, d⟩, hvalid, hle, rfl, rfl, rfl, rfl⟩
    have hm := hvalid.month_le
    have hd := hvalid.day_le
    have hmonth : daysInMonth y m ≤ 31 := daysInMonth_le y m
    simp only at hle hm hd
    rw [readDate_dateText (by omega) (by omega) (by omega),
      if_pos ⟨⟨hvalid.month_pos, hvalid.month_le⟩, hvalid.day_pos, hvalid.day_le⟩]

theorem readClock_text {h m s : Nat} (hh : h < 10 ^ 2) (hm : m < 10 ^ 2) (hs : s < 10 ^ 2) :
    readClock (padded 2 h ++ ':' :: padded 2 m ++ ':' :: padded 2 s) =
      if h ≤ 23 ∧ m ≤ 59 ∧ s ≤ 59 then .some ((h : ℤ), (m : ℤ), (s : ℤ)) else .none := by
  have hlen := length_padded (by decide) hh
  have hlen' := length_padded (by decide) hm
  have hshape : shaped 8 ':' [2, 5] [2, 5] (padded 2 h ++ ':' :: padded 2 m ++ ':' :: padded 2 s) = true :=
    shaped_clock.mpr
      ⟨_, _, _, fixed_padded (by decide) hh, fixed_padded (by decide) hm, fixed_padded (by decide) hs, rfl⟩
  have hhour : number (padded 2 h ++ ':' :: padded 2 m ++ ':' :: padded 2 s) 0 2 = .some (h : ℤ) := by
    have htext : padded 2 h ++ ':' :: padded 2 m ++ ':' :: padded 2 s =
        [] ++ (padded 2 h ++ ':' :: (padded 2 m ++ ':' :: padded 2 s)) := by simp
    exact number_padded htext rfl rfl (by decide) (by decide) hh
  have hminute : number (padded 2 h ++ ':' :: padded 2 m ++ ':' :: padded 2 s) 3 5 = .some (m : ℤ) := by
    have htext : padded 2 h ++ ':' :: padded 2 m ++ ':' :: padded 2 s =
        padded 2 h ++ [':'] ++ (padded 2 m ++ ':' :: padded 2 s) := by simp
    exact number_padded htext (by simp [hlen]) rfl (by decide) (by decide) hm
  have hsecond : number (padded 2 h ++ ':' :: padded 2 m ++ ':' :: padded 2 s) 6 8 = .some (s : ℤ) := by
    have htext : padded 2 h ++ ':' :: padded 2 m ++ ':' :: padded 2 s =
        padded 2 h ++ ':' :: padded 2 m ++ [':'] ++ (padded 2 s ++ []) := by simp
    exact number_padded htext (by simp [hlen, hlen']) rfl (by decide) (by decide) hs
  unfold readClock
  simp only [hshape, hhour, hminute, hsecond, Bool.not_true, Bool.false_eq_true, if_false, Option.bind_eq_bind,
    Option.bind_some, Option.bind_none]
  split_ifs <;> first | rfl | omega

theorem readClock_eq_some {text : List Char} {hour minute second : ℤ} :
    readClock text = .some (hour, minute, second) ↔ ∃ h m s : Nat, h ≤ 23 ∧ m ≤ 59 ∧ s ≤ 59 ∧
      text = padded 2 h ++ ':' :: padded 2 m ++ ':' :: padded 2 s ∧ hour = h ∧ minute = m ∧ second = s := by
  constructor
  · intro h
    have hshape : shaped 8 ':' [2, 5] [2, 5] text = true := by
      by_contra hno
      simp [readClock, hno] at h
    obtain ⟨a, b, c, ha, hb, hc, rfl⟩ := shaped_clock.mp hshape
    obtain ⟨hh, hhh, rfl⟩ := (fixed_iff (by decide)).mp ha
    obtain ⟨mm, hmm, rfl⟩ := (fixed_iff (by decide)).mp hb
    obtain ⟨ss, hss, rfl⟩ := (fixed_iff (by decide)).mp hc
    rw [readClock_text hhh hmm hss] at h
    split at h
    · next hrange =>
      cases h
      exact ⟨hh, mm, ss, hrange.1, hrange.2.1, hrange.2.2, rfl, rfl, rfl, rfl⟩
    · cases h
  · rintro ⟨hh, mm, ss, hhh, hmm, hss, rfl, rfl, rfl, rfl⟩
    rw [readClock_text (by omega) (by omega) (by omega), if_pos ⟨hhh, hmm, hss⟩]

/-! ## Sixty-four bits -/

theorem i64_eq {n : ℤ} (h : -2 ^ 63 ≤ n) (h' : n < 2 ^ 63) : i64 n = .ok n := by
  rw [i64, checkedI64, if_pos ⟨h, h'⟩]
  rfl

theorem checkedI64_eq {n : ℤ} (h : -2 ^ 63 ≤ n) (h' : n < 2 ^ 63) : checkedI64 n = .some n := if_pos ⟨h, h'⟩

/-- No step of the count leaves 64 bits. -/
theorem dayCount_civil {year month day : ℤ} (hy : 0 ≤ year) (hy' : year ≤ 9999) (hm : 1 ≤ month) (hm' : month ≤ 12)
    (hd : 1 ≤ day) (hd' : day ≤ 31) : dayCount year month day = .ok (civil year month day) := by
  have hmonths : (if month ≤ 2 then (9 : ℤ) else -3) = if month > 2 then -3 else 9 := by
    split_ifs <;> first | rfl | omega
  unfold dayCount civil
  rw [hmonths]
  generalize hshift : (if month > 2 then (-3 : ℤ) else 9) = shift
  generalize hearlier : (if month ≤ 2 then (1 : ℤ) else 0) = earlier
  have hbounds : 0 ≤ month + shift ∧ month + shift ≤ 11 ∧ 0 ≤ earlier ∧ earlier ≤ 1 := by
    subst hshift hearlier
    split_ifs <;> omega
  obtain ⟨hlow, hhigh, hearlier, hearlier'⟩ := hbounds
  rw [i64_eq (by omega) (by omega), Exec.ok_bind, i64_eq (by omega) (by omega), Exec.ok_bind]
  generalize month + shift = adjustedMonth at *
  generalize hyear : year - earlier = adjustedYear at *
  dsimp only
  rw [i64_eq (by omega) (by omega), Exec.ok_bind, i64_eq (by omega) (by omega), Exec.ok_bind]
  rw [i64_eq (by omega) (by omega), Exec.ok_bind, i64_eq (by omega) (by omega), Exec.ok_bind]
  have hera : 0 ≤ adjustedYear - adjustedYear / 400 * 400 ∧ adjustedYear - adjustedYear / 400 * 400 < 400 := by omega
  have hera' : -1 ≤ adjustedYear / 400 ∧ adjustedYear / 400 ≤ 24 := by omega
  generalize adjustedYear - adjustedYear / 400 * 400 = yearOfEra at *
  generalize adjustedYear / 400 = era at *
  rw [Int.tdiv_eq_ediv_of_nonneg (by omega), Int.tdiv_eq_ediv_of_nonneg hera.1, Int.tdiv_eq_ediv_of_nonneg hera.1]
  have hdays : 0 ≤ (153 * adjustedMonth + 2) / 5 ∧ (153 * adjustedMonth + 2) / 5 ≤ 400 := by omega
  have hleaps : 0 ≤ yearOfEra / 4 ∧ yearOfEra / 4 ≤ 100 ∧ 0 ≤ yearOfEra / 100 ∧ yearOfEra / 100 ≤ 4 := by omega
  generalize (153 * adjustedMonth + 2) / 5 = days at *
  generalize yearOfEra / 4 = fourths at *
  generalize yearOfEra / 100 = hundredths at *
  rw [i64_eq (by omega) (by omega), Exec.ok_bind, i64_eq (by omega) (by omega), Exec.ok_bind,
    i64_eq (by omega) (by omega), Exec.ok_bind, i64_eq (by omega) (by omega), Exec.ok_bind,
    i64_eq (by omega) (by omega), Exec.ok_bind, i64_eq (by omega) (by omega), Exec.ok_bind,
    i64_eq (by omega) (by omega), Exec.ok_bind, i64_eq (by omega) (by omega), Exec.ok_bind,
    i64_eq (by omega) (by omega)]

/-- **The days are those of the calendar.** -/
theorem dayCount_eq {date : Date} (h : date.Valid) (hyear : date.year ≤ 9999) :
    dayCount date.year date.month date.day = .ok date.dayNumber := by
  have hm := h.month_pos
  have hm' := h.month_le
  have hd := h.day_le
  have hd' := h.day_pos
  have hlast := daysInMonth_le date.year date.month
  rw [dayCount_civil (by omega) (by omega) (by omega) (by omega) (by omega) (by omega), dayNumber_eq_civil h]

theorem secondOfDay_eq {h m s : Nat} (hh : h ≤ 23) (hm : m ≤ 59) (hs : s ≤ 59) :
    secondOfDay h m s = .ok ((h : ℤ) * 3600 + m * 60 + s) := by
  unfold secondOfDay
  rw [i64_eq (by omega) (by omega), Exec.ok_bind, i64_eq (by omega) (by omega), Exec.ok_bind,
    i64_eq (by omega) (by omega), Exec.ok_bind, i64_eq (by omega) (by omega)]

theorem dayNumber_bounds {date : Date} (h : date.Valid) (hyear : date.year ≤ 9999) :
    -1000000 ≤ date.dayNumber ∧ date.dayNumber ≤ 4000000 := by
  have hm := h.month_pos
  have hm' := h.month_le
  have hd := h.day_le
  have hd' := h.day_pos
  have hlast := daysInMonth_le date.year date.month
  rw [← dayNumber_eq_civil h, civil]
  split_ifs <;> omega

theorem signedSeconds_eq {sign hours minutes : ℤ} (hsign : sign = 1 ∨ sign = -1) (hh : 0 ≤ hours ∧ hours ≤ 23)
    (hm : 0 ≤ minutes ∧ minutes ≤ 59) :
    signedSeconds sign hours minutes = .ok (sign * (hours * 3600 + minutes * 60)) := by
  unfold signedSeconds
  rw [checkedI64_eq (by omega) (by omega)]
  dsimp only
  rw [checkedI64_eq (by omega) (by omega)]
  dsimp only
  rw [checkedI64_eq (by omega) (by omega)]
  dsimp only
  rcases hsign with rfl | rfl
  · exact i64_eq (by omega) (by omega)
  · exact i64_eq (by omega) (by omega)

/-! ## Zones -/

theorem readOffset_text {sign : Char} {h m : Nat} (hh : h < 10 ^ 2) (hm : m < 10 ^ 2) :
    readOffset (sign :: (padded 2 h ++ ':' :: padded 2 m)) =
      if h ≤ 23 ∧ m ≤ 59 then .ok ((if sign = '+' then 1 else -1) * ((h : ℤ) * 3600 + m * 60)) else Exec.err () := by
  have hlen := length_padded (by decide) hh
  have hshape : shaped 6 ':' [3] [0, 3] (sign :: (padded 2 h ++ ':' :: padded 2 m)) = true :=
    shaped_offset.mpr ⟨_, _, _, fixed_padded (by decide) hh, fixed_padded (by decide) hm, rfl⟩
  have hhours : number (sign :: (padded 2 h ++ ':' :: padded 2 m)) 1 3 = .some (h : ℤ) := by
    have htext : sign :: (padded 2 h ++ ':' :: padded 2 m) = [sign] ++ (padded 2 h ++ ':' :: padded 2 m) := rfl
    exact number_padded htext rfl rfl (by decide) (by decide) hh
  have hminutes : number (sign :: (padded 2 h ++ ':' :: padded 2 m)) 4 6 = .some (m : ℤ) := by
    have htext : sign :: (padded 2 h ++ ':' :: padded 2 m) = sign :: padded 2 h ++ [':'] ++ (padded 2 m ++ []) := by
      simp
    exact number_padded htext (by simp [hlen]) rfl (by decide) (by decide) hm
  have hsign : (if (sign :: (padded 2 h ++ ':' :: padded 2 m)).head? = .some '+' then (1 : ℤ) else -1) =
      if sign = '+' then 1 else -1 := by
    rw [List.head?_cons]
    simp only [Option.some.injEq]
  unfold readOffset
  simp only [hshape, hhours, hminutes, Bool.not_true, Bool.false_eq_true, if_false]
  rw [hsign]
  by_cases hrange : h ≤ 23 ∧ m ≤ 59
  · rw [if_neg (by omega), if_pos hrange]
    exact signedSeconds_eq (by split <;> simp) (by omega) (by omega)
  · rw [if_pos (by omega), if_neg hrange]
    rfl

/-- An offset is a sign and `hh:mm`. -/
theorem readOffset_yields (offset : List Char) : (readOffset offset).Yields fun n => ∃ sign h m, h ≤ 23 ∧ m ≤ 59 ∧
    offset = sign :: (padded 2 h ++ ':' :: padded 2 m) ∧
    n = (if sign = '+' then 1 else -1) * ((h : ℤ) * 3600 + m * 60) := by
  by_cases hshape : shaped 6 ':' [3] [0, 3] offset = true
  · obtain ⟨sign, a, b, ha, hb, rfl⟩ := shaped_offset.mp hshape
    obtain ⟨h, hh, rfl⟩ := (fixed_iff (by decide)).mp ha
    obtain ⟨m, hm, rfl⟩ := (fixed_iff (by decide)).mp hb
    rw [readOffset_text hh hm]
    split
    · next hrange => exact Exec.yields_ok ⟨sign, h, m, hrange.1, hrange.2, rfl, rfl⟩
    · exact Exec.yields_err () _
  · have herr : readOffset offset = Exec.err () := by simp [readOffset, hshape, Exec.err]
    rw [herr]
    exact Exec.yields_err () _

theorem splitSign_none {text : List Char} (h : '+' ∉ text ∧ '-' ∉ text) : splitSign text = .none := by
  induction text with
  | nil => rfl
  | cons c text ih =>
    simp only [List.mem_cons, not_or] at h
    rw [splitSign, ih ⟨h.1.2, h.2.2⟩]
    exact if_neg fun hc => hc.elim (fun hc => h.1.1 hc.symm) fun hc => h.2.1 hc.symm

theorem splitSign_append {sign : Char} (hsign : sign = '+' ∨ sign = '-') {rest : List Char}
    (h : '+' ∉ rest ∧ '-' ∉ rest) :
    ∀ before, splitSign (before ++ sign :: rest) = .some (before, sign :: rest)
  | [] => by
    rw [List.nil_append, splitSign, splitSign_none h]
    exact if_pos hsign
  | c :: before => by rw [List.cons_append, splitSign, splitSign_append hsign h before]

theorem splitSign_eq_some : ∀ {text before after : List Char}, splitSign text = .some (before, after) →
    text = before ++ after ∧ ∃ sign rest, after = sign :: rest ∧ (sign = '+' ∨ sign = '-')
  | c :: text, before, after, h => by
    rw [splitSign] at h
    split at h
    · next front back hsplit =>
      cases h
      obtain ⟨htext, hsign⟩ := splitSign_eq_some hsplit
      exact ⟨by rw [htext, List.cons_append], hsign⟩
    · split at h
      · next hc =>
        cases h
        exact ⟨rfl, c, text, rfl, hc⟩
      · cases h

/-- **A zone is read off the end.** -/
theorem readZone_yields (text : List Char) : (readZone text).Yields fun (time, n) =>
    ∃ zone : Zone, zone.Valid ∧ text = time ++ zone.text ∧ n = zone.seconds := by
  unfold readZone
  split
  · next hlast =>
    rcases hlast with hlast | hlast
    · exact Exec.yields_ok ⟨.upper, trivial, (List.dropLast_append_getLast? 'Z' hlast).symm, rfl⟩
    · exact Exec.yields_ok ⟨.lower, trivial, (List.dropLast_append_getLast? 'z' hlast).symm, rfl⟩
  · split
    · next time offset hsplit =>
      obtain ⟨rfl, sign, rest, rfl, hsign⟩ := splitSign_eq_some hsplit
      refine (readOffset_yields (sign :: rest)).bind ?_
      rintro n ⟨sign', h, m, hh, hm, hoffset, rfl⟩
      obtain ⟨rfl, rfl⟩ := List.cons.inj hoffset
      refine Exec.yields_ok ⟨.offset (sign = '-') h m, ⟨hh, hm⟩, ?_, ?_⟩
      · rcases hsign with rfl | rfl
        · rfl
        · rfl
      · rcases hsign with rfl | rfl
        · rfl
        · rfl
    · exact Exec.yields_err () _

theorem readZone_text {zone : Zone} (h : zone.Valid) (time : List Char) :
    readZone (time ++ zone.text) = .ok (time, zone.seconds) := by
  cases zone with
  | upper =>
    unfold readZone
    rw [if_pos (.inl List.getLast?_concat)]
    exact congrArg (fun time => Except.ok (time, (0 : ℤ))) List.dropLast_concat
  | lower =>
    unfold readZone
    rw [if_pos (.inr List.getLast?_concat)]
    exact congrArg (fun time => Except.ok (time, (0 : ℤ))) List.dropLast_concat
  | offset negative hours minutes =>
    obtain ⟨hh, hm⟩ := h
    -- The last character is a digit, and no sign stands behind the zone's.
    have hne : padded 2 minutes ≠ [] := List.ne_nil_of_length_pos (by rw [length_padded (by decide) (by omega)]; decide)
    have hlast : (time ++ (Zone.offset negative hours minutes).text).getLast? = (padded 2 minutes).getLast? := by
      have hshape : time ++ (Zone.offset negative hours minutes).text =
          time ++ (if negative then '-' else '+') :: padded 2 hours ++ [':'] ++ padded 2 minutes := by
        simp [Zone.text]
      rw [hshape, List.getLast?_append_of_ne_nil _ hne]
    have hdigit : ∀ c, (padded 2 minutes).getLast? = .some c → c.isDigit = true := fun c hc =>
      isDigit_padded c (List.mem_of_getLast? hc)
    have hrest : ∀ c, c.isDigit = false → c ≠ ':' → c ∉ padded 2 hours ++ ':' :: padded 2 minutes := by
      intro c hc hcolon hmem
      rw [List.mem_append, List.mem_cons] at hmem
      rcases hmem with hmem | hmem | hmem
      · exact not_mem_padded hc _ _ hmem
      · exact hcolon hmem
      · exact not_mem_padded hc _ _ hmem
    have hsplit : splitSign (time ++ (Zone.offset negative hours minutes).text) =
        .some (time, (Zone.offset negative hours minutes).text) :=
      splitSign_append (by cases negative <;> simp) ⟨hrest '+' rfl (by decide), hrest '-' rfl (by decide)⟩ time
    unfold readZone
    rw [if_neg (by
      rw [hlast]
      rintro (hZ | hz)
      · exact absurd (hdigit 'Z' hZ) (by decide)
      · exact absurd (hdigit 'z' hz) (by decide)), hsplit]
    dsimp only [Zone.text]
    rw [readOffset_text (by omega) (by omega), if_pos ⟨hh, hm⟩]
    cases negative <;> rfl

/-! ## Fractions -/

theorem ofDigitChars_eq_zero_iff {digits : List Char} (h : ∀ c ∈ digits, c.isDigit = true) :
    Nat.ofDigitChars 10 digits 0 = 0 ↔ ∀ c ∈ digits, c = '0' := by
  induction digits with
  | nil => simp
  | cons c digits ih =>
    have ih := ih fun d hd => h d (List.mem_cons_of_mem _ hd)
    have hrange := isDigit_range (h c List.mem_cons_self)
    have hzero : (c.toNat - 48) * 10 ^ digits.length = 0 ↔ c = '0' := by
      rw [Nat.mul_eq_zero, or_iff_left (by positivity), ← Char.toNat_inj, toNat_zero]
      omega
    rw [ofDigitChars_cons_eq, Nat.add_eq_zero_iff, hzero, ih, List.forall_mem_cons]

/-- What a fraction adds when it is rounded up. -/
theorem ceil_fraction (whole : ℤ) {fraction : Option (List Char)}
    (h : ∀ digits, fraction = .some digits → digits ≠ [] ∧ ∀ c ∈ digits, c.isDigit = true) :
    ⌈(whole : ℚ) + fraction.elim 0 fun digits => (Nat.ofDigitChars 10 digits 0 : ℚ) / 10 ^ digits.length⌉ =
      whole + if (fraction.getD []).any (· ≠ '0') then 1 else 0 := by
  rw [Int.ceil_intCast_add]
  congr 1
  cases fraction with
  | none => simp
  | some digits =>
    obtain ⟨-, hdigits⟩ := h digits rfl
    have hlt : Nat.ofDigitChars 10 digits 0 < 10 ^ digits.length := ofDigitChars_lt hdigits
    have hpow : (0 : ℚ) < 10 ^ digits.length := by positivity
    have hany : (digits.any (· ≠ '0')) = true ↔ Nat.ofDigitChars 10 digits 0 ≠ 0 := by
      rw [Ne, ofDigitChars_eq_zero_iff hdigits]
      simp
    dsimp only [Option.elim_some, Option.getD_some]
    split
    · next hsome =>
      have hpos : 0 < Nat.ofDigitChars 10 digits 0 := Nat.pos_of_ne_zero (hany.mp hsome)
      rw [Int.ceil_eq_iff]
      constructor
      · have hnum : (0 : ℚ) < Nat.ofDigitChars 10 digits 0 := by exact_mod_cast hpos
        simpa using div_pos hnum hpow
      · rw [Int.cast_one, div_le_one hpow]
        exact_mod_cast hlt.le
    · next hnone =>
      have hzero : Nat.ofDigitChars 10 digits 0 = 0 := not_not.mp fun hne => hnone (hany.mpr hne)
      rw [hzero]
      simp

theorem fractionOk_iff {fraction : Option (List Char)} : fractionOk fraction = true ↔
    ∀ digits, fraction = .some digits → digits ≠ [] ∧ ∀ c ∈ digits, c.isDigit = true := by
  cases fraction with
  | none => simp [fractionOk]
  | some digits => simp [fractionOk]

/-! ## The parser -/

/-- The seconds of a time, rounded up. -/
theorem ceil_instant {time : Time} (h : time.Valid) :
    ⌈time.instant⌉ = time.wholeSeconds + if (time.stamp.fraction.getD []).any (· ≠ '0') then 1 else 0 :=
  ceil_fraction time.wholeSeconds h.fraction

theorem Zone.Valid.seconds_bounds {zone : Zone} (h : zone.Valid) : -86400 < zone.seconds ∧ zone.seconds < 86400 := by
  cases zone with
  | upper => decide
  | lower => decide
  | offset negative hours minutes =>
    obtain ⟨hh, hm⟩ := h
    rw [Zone.seconds]
    split <;> omega

/-- The seconds, of a time read part by part; no step of them overflows. -/
theorem seconds_eq {time : Time} (h : time.Valid) : (do
    let days ← dayCount time.stamp.date.year time.stamp.date.month time.stamp.date.day
    let .some daySeconds := checkedI64 (days * 86400) | Exec.err ()
    let .some localSeconds := checkedI64
      (daySeconds + (← secondOfDay time.stamp.hour time.stamp.minute time.stamp.second)) | Exec.err ()
    let .some utcSeconds := checkedI64 (localSeconds - time.zone.seconds) | Exec.err ()
    let .some seconds := checkedI64
      (utcSeconds + if (time.stamp.fraction.getD []).any (· ≠ '0') then 1 else 0) | Exec.err ()
    return seconds : Exec Unit ℤ) = .ok ⌈time.instant⌉ := by
  obtain ⟨hlow, hhigh⟩ := dayNumber_bounds h.date h.year_le
  obtain ⟨hzone, hzone'⟩ := h.zone.seconds_bounds
  have hhour := h.hour
  have hminute := h.minute
  have hsecond := h.second
  rw [ceil_instant h, Time.wholeSeconds, dayCount_eq h.date h.year_le, Exec.ok_bind]
  generalize hround : (if (time.stamp.fraction.getD []).any (· ≠ '0') = true then (1 : ℤ) else 0) = round
  have hbounds : 0 ≤ round ∧ round ≤ 1 := by
    subst hround
    split <;> omega
  rw [checkedI64_eq (by omega) (by omega)]
  dsimp only
  rw [secondOfDay_eq hhour hminute hsecond, Exec.ok_bind, checkedI64_eq (by omega) (by omega)]
  dsimp only
  rw [checkedI64_eq (by omega) (by omega)]
  dsimp only
  rw [checkedI64_eq (by omega) (by omega)]
  rfl

theorem parseRfc3339Seconds_yields (timestamp : String) : (parseRfc3339Seconds timestamp).Yields fun n =>
    ∃ time : Time, time.Valid ∧ timestamp.toList = time.text ∧ n = ⌈time.instant⌉ := by
  unfold parseRfc3339Seconds
  split
  next date timeAndZone hsplit =>
    split
    next year month day hdate =>
      refine (readZone_yields timeAndZone).bind ?_
      rintro ⟨rest, offsetSeconds⟩ ⟨zone, hzone, htail, rfl⟩
      -- What stands after the clock.
      obtain ⟨clock, fraction, hparts, hrest⟩ : ∃ clock fraction, (match splitOnce ['.'] rest with
          | .some (clock, fraction) => (clock, Option.some fraction)
          | .none => (rest, .none)) = (clock, fraction) ∧ rest = clock ++ fraction.elim [] ('.' :: ·) := by
        cases hdot : splitOnce ['.'] rest with
        | none => exact ⟨rest, .none, rfl, by simp⟩
        | some parts => exact ⟨parts.1, .some parts.2, rfl, splitOnce_eq_some hdot⟩
      simp only [hparts]
      split
      next hour minute second hclock =>
        split
        · exact Exec.yields_err () _
        next hfraction =>
          obtain ⟨date, hvalid, hyear, rfl, rfl, rfl, rfl⟩ := readDate_eq_some.mp hdate
          obtain ⟨h, m, s, hh, hm, hs, rfl, rfl, rfl, rfl⟩ := readClock_eq_some.mp hclock
          have hdigits := fractionOk_iff.mp (by simpa using hfraction)
          let time : Time := ⟨⟨date, h, m, s, fraction⟩, zone⟩
          have htime : time.Valid := ⟨hvalid, hyear, hh, hm, hs, hdigits, hzone⟩
          have hseconds := seconds_eq htime
          refine Eq.mpr (congrArg (Exec.Yields · _) hseconds) (Exec.yields_ok ⟨time, htime, ?_, rfl⟩)
          rw [splitOnce_eq_some hsplit, htail, hrest]
          simp [time, Time.text, Stamp.clockText]
      · exact Exec.yields_err () _
    · exact Exec.yields_err () _
  · exact Exec.yields_err () _

theorem not_mem_dateText {c : Char} (hc : c.isDigit = false) (hdash : c ≠ '-') (date : Date) :
    c ∉ Stamp.dateText date := by
  simp only [Stamp.dateText, List.mem_append, List.mem_cons, not_or]
  exact ⟨⟨not_mem_padded hc _ _, hdash, not_mem_padded hc _ _⟩, hdash, not_mem_padded hc _ _⟩

theorem not_mem_clockText {c : Char} (hc : c.isDigit = false) (hcolon : c ≠ ':') (stamp : Stamp) :
    c ∉ stamp.clockText := by
  simp only [Stamp.clockText, List.mem_append, List.mem_cons, not_or]
  exact ⟨⟨not_mem_padded hc _ _, hcolon, not_mem_padded hc _ _⟩, hcolon, not_mem_padded hc _ _⟩

theorem parseRfc3339Seconds_text {timestamp : String} {time : Time} (h : time.Valid)
    (htext : timestamp.toList = time.text) :
    parseRfc3339Seconds timestamp = .ok ⌈time.instant⌉ := by
  have hsplit : splitOnce ['T'] timestamp.toList = .some (Stamp.dateText time.stamp.date,
      time.stamp.clockText ++ time.stamp.fraction.elim [] ('.' :: ·) ++ time.zone.text) := by
    have hshape : timestamp.toList = Stamp.dateText time.stamp.date ++ ['T'] ++
        (time.stamp.clockText ++ time.stamp.fraction.elim [] ('.' :: ·) ++ time.zone.text) := by
      rw [htext, Time.text]
      simp
    rw [hshape, splitOnce_append (not_mem_dateText rfl (by decide) _)]
  have hdate := readDate_eq_some.mpr ⟨time.stamp.date, h.date, h.year_le, rfl, rfl, rfl, rfl⟩
  have hclock : readClock time.stamp.clockText = .some (time.stamp.hour, time.stamp.minute, time.stamp.second) :=
    readClock_eq_some.mpr
      ⟨time.stamp.hour, time.stamp.minute, time.stamp.second, h.hour, h.minute, h.second, rfl, rfl, rfl, rfl⟩
  have hdot : '.' ∉ time.stamp.clockText := not_mem_clockText rfl (by decide) _
  have hparts : (match splitOnce ['.'] (time.stamp.clockText ++ time.stamp.fraction.elim [] ('.' :: ·)) with
      | .some (clock, fraction) => (clock, Option.some fraction)
      | .none => (time.stamp.clockText ++ time.stamp.fraction.elim [] ('.' :: ·), .none)) =
      (time.stamp.clockText, time.stamp.fraction) := splitOnce_fraction hdot time.stamp.fraction
  have hzone := readZone_text h.zone (time.stamp.clockText ++ time.stamp.fraction.elim [] ('.' :: ·))
  have hfraction := fractionOk_iff.mpr h.fraction
  unfold parseRfc3339Seconds
  rw [hsplit]
  dsimp only
  rw [hdate]
  dsimp only
  rw [hzone, Exec.ok_bind]
  simp only [hparts, hclock, hfraction, Bool.not_true, Bool.false_eq_true, if_false]
  exact seconds_eq h

theorem parseRfc3339Seconds_eq_ok {timestamp : String} {n : ℤ} : parseRfc3339Seconds timestamp = .ok n ↔
    ∃ time : Time, time.Valid ∧ timestamp.toList = time.text ∧ n = ⌈time.instant⌉ := by
  constructor
  · exact fun h => (parseRfc3339Seconds_yields timestamp).2 n h
  · rintro ⟨time, hvalid, htext, rfl⟩
    exact parseRfc3339Seconds_text hvalid htext

/-! ## One reading -/

theorem padded_inj {width m n : Nat} (h : padded width m = padded width n) : m = n := by
  rw [← ofDigitChars_padded width m, h, ofDigitChars_padded]

theorem dateText_inj {date date' : Date} (h : date.Valid) (h' : date'.Valid) (hy : date.year ≤ 9999)
    (hy' : date'.year ≤ 9999) {rest rest' : List Char}
    (htext : Stamp.dateText date ++ rest = Stamp.dateText date' ++ rest') : date = date' ∧ rest = rest' := by
  have hm := h.month_le
  have hm' := h'.month_le
  have hyear : (padded 4 date.year).length = (padded 4 date'.year).length := by
    rw [length_padded (by decide) (by omega), length_padded (by decide) (by omega)]
  have hmonth : (padded 2 date.month).length = (padded 2 date'.month).length := by
    rw [length_padded (by decide) (by omega), length_padded (by decide) (by omega)]
  have hday : (padded 2 date.day).length = (padded 2 date'.day).length := by
    have hd := h.day_le.trans (daysInMonth_le _ _)
    have hd' := h'.day_le.trans (daysInMonth_le _ _)
    rw [length_padded (by decide) (by omega), length_padded (by decide) (by omega)]
  simp only [Stamp.dateText, List.append_assoc, List.cons_append] at htext
  obtain ⟨hfirst, htext⟩ := List.append_inj htext hyear
  obtain ⟨hsecond, htext⟩ := List.append_inj (List.cons.inj htext).2 hmonth
  obtain ⟨hthird, hrest⟩ := List.append_inj (List.cons.inj htext).2 hday
  obtain ⟨year, month, day⟩ := date
  obtain ⟨year', month', day'⟩ := date'
  exact ⟨(Date.mk.injEq ..).mpr ⟨padded_inj hfirst, padded_inj hsecond, padded_inj hthird⟩, hrest⟩

theorem clockText_inj {stamp stamp' : Stamp} (hh : stamp.hour ≤ 23) (hm : stamp.minute ≤ 59) (hs : stamp.second ≤ 59)
    (hh' : stamp'.hour ≤ 23) (hm' : stamp'.minute ≤ 59) (hs' : stamp'.second ≤ 59) {rest rest' : List Char}
    (htext : stamp.clockText ++ rest = stamp'.clockText ++ rest') :
    stamp.hour = stamp'.hour ∧ stamp.minute = stamp'.minute ∧ stamp.second = stamp'.second ∧ rest = rest' := by
  have hlength : ∀ {m n : Nat}, m ≤ 59 → n ≤ 59 → (padded 2 m).length = (padded 2 n).length := fun hm hn => by
    rw [length_padded (by decide) (by omega), length_padded (by decide) (by omega)]
  simp only [Stamp.clockText, List.append_assoc, List.cons_append] at htext
  obtain ⟨hfirst, htext⟩ := List.append_inj htext (hlength (by omega) (by omega))
  obtain ⟨hsecond, htext⟩ := List.append_inj (List.cons.inj htext).2 (hlength hm hm')
  obtain ⟨hthird, hrest⟩ := List.append_inj (List.cons.inj htext).2 (hlength hs hs')
  exact ⟨padded_inj hfirst, padded_inj hsecond, padded_inj hthird, hrest⟩

theorem Zone.text_inj {zone zone' : Zone} (h : zone.Valid) (h' : zone'.Valid) (htext : zone.text = zone'.text) :
    zone = zone' := by
  cases zone with
  | upper =>
    cases zone' with
    | upper => rfl
    | lower => cases htext
    | offset negative hours minutes => cases negative <;> simp [Zone.text] at htext
  | lower =>
    cases zone' with
    | upper => cases htext
    | lower => rfl
    | offset negative hours minutes => cases negative <;> simp [Zone.text] at htext
  | offset negative hours minutes =>
    cases zone' with
    | upper => cases negative <;> simp [Zone.text] at htext
    | lower => cases negative <;> simp [Zone.text] at htext
    | offset negative' hours' minutes' =>
      obtain ⟨hh, hm⟩ := h
      obtain ⟨hh', hm'⟩ := h'
      obtain ⟨hsign, htext⟩ := List.cons.inj htext
      have hlength : (padded 2 hours).length = (padded 2 hours').length := by
        rw [length_padded (by decide) (by omega), length_padded (by decide) (by omega)]
      obtain ⟨hfirst, htext⟩ := List.append_inj htext hlength
      rw [padded_inj hfirst, padded_inj (List.cons.inj htext).2]
      cases negative <;> cases negative' <;> first | rfl | exact absurd hsign (by decide)

theorem Zone.head_text (zone : Zone) : ∃ c rest, zone.text = c :: rest ∧ c.isDigit = false ∧ c ≠ '.' := by
  cases zone with
  | upper => exact ⟨'Z', [], rfl, rfl, by decide⟩
  | lower => exact ⟨'z', [], rfl, rfl, by decide⟩
  | offset negative hours minutes =>
    cases negative
    · exact ⟨'+', _, rfl, rfl, by decide⟩
    · exact ⟨'-', _, rfl, rfl, by decide⟩

/-- Digits are told from a zone behind them. -/
theorem digits_inj {digits digits' : List Char} (h : ∀ c ∈ digits, c.isDigit = true)
    (h' : ∀ c ∈ digits', c.isDigit = true) {zone zone' : Zone} (htext : digits ++ zone.text = digits' ++ zone'.text) :
    digits = digits' ∧ zone.text = zone'.text := by
  have htake : ∀ (digits : List Char) (zone : Zone), (∀ c ∈ digits, c.isDigit = true) →
      (digits ++ zone.text).takeWhile Char.isDigit = digits := by
    intro digits zone hdigits
    obtain ⟨c, rest, hzone, hc, -⟩ := zone.head_text
    rw [List.takeWhile_append_of_pos hdigits, hzone, List.takeWhile_cons_of_neg (by simp [hc]), List.append_nil]
  have hdigits : digits = digits' := by rw [← htake digits zone h, htext, htake digits' zone' h']
  subst hdigits
  exact ⟨rfl, List.append_cancel_left htext⟩

/-- **A text is that of one time only.** -/
theorem Time.text_inj {time time' : Time} (h : time.Valid) (h' : time'.Valid) (htext : time.text = time'.text) :
    time = time' := by
  obtain ⟨hdate, htext⟩ := dateText_inj h.date h'.date h.year_le h'.year_le htext
  obtain ⟨hhour, hminute, hsecond, htext⟩ :=
    clockText_inj h.hour h.minute h.second h'.hour h'.minute h'.second (List.cons.inj htext).2
  obtain ⟨⟨date, hour, minute, second, fraction⟩, zone⟩ := time
  obtain ⟨⟨date', hour', minute', second', fraction'⟩, zone'⟩ := time'
  have hfraction : fraction = fraction' ∧ zone.text = zone'.text := by
    obtain ⟨c, rest, hzone, -, hc⟩ := zone.head_text
    obtain ⟨c', rest', hzone', -, hc'⟩ := zone'.head_text
    cases fraction with
    | none =>
      cases fraction' with
      | none => exact ⟨rfl, htext⟩
      | some digits' =>
        simp only [Option.elim_none, Option.elim_some, List.nil_append, hzone] at htext
        exact absurd (List.cons.inj htext).1 hc
    | some digits =>
      cases fraction' with
      | none =>
        simp only [Option.elim_none, Option.elim_some, List.nil_append, hzone'] at htext
        exact absurd (List.cons.inj htext).1.symm hc'
      | some digits' =>
        obtain ⟨hdigits, hrest⟩ :=
          digits_inj (h.fraction digits rfl).2 (h'.fraction digits' rfl).2 (List.cons.inj htext).2
        exact ⟨congrArg Option.some hdigits, hrest⟩
  obtain ⟨rfl, hzone⟩ := hfraction
  obtain rfl := Zone.text_inj h.zone h'.zone hzone
  simp only at hdate hhour hminute hsecond
  rw [hdate, hhour, hminute, hsecond]

/-! ## Both parsers -/

/-- A whole second has no digits but zeros in its fraction. -/
theorem fractionNanos_eq_zero {time : Time} (h : time.Valid) {k : ℤ} (hwhole : time.instant = k) :
    time.wholeSeconds = k ∧ Stamp.fractionNanos time.stamp.fraction = 0 := by
  rw [Time.instant] at hwhole
  unfold Stamp.fractionNanos
  cases hfraction : time.stamp.fraction with
  | none =>
    rw [hfraction, Option.elim_none, add_zero] at hwhole
    exact ⟨by exact_mod_cast hwhole, rfl⟩
  | some digits =>
    rw [hfraction, Option.elim_some] at hwhole
    have hlt : Nat.ofDigitChars 10 digits 0 < 10 ^ digits.length := ofDigitChars_lt (h.fraction digits hfraction).2
    have hpow : (0 : ℚ) < 10 ^ digits.length := by positivity
    have hnonneg : (0 : ℚ) ≤ (Nat.ofDigitChars 10 digits 0 : ℚ) / 10 ^ digits.length := by positivity
    have hless : (Nat.ofDigitChars 10 digits 0 : ℚ) / 10 ^ digits.length < 1 := by
      rw [div_lt_one hpow]
      exact_mod_cast hlt
    have hlow : (time.wholeSeconds : ℚ) ≤ k := by linarith
    have hhigh : (k : ℚ) < time.wholeSeconds + 1 := by linarith
    have hk : time.wholeSeconds = k := by
      have hlow' : time.wholeSeconds ≤ k := by exact_mod_cast hlow
      have hhigh' : k < time.wholeSeconds + 1 := by exact_mod_cast hhigh
      omega
    rw [hk, add_eq_left, div_eq_zero_iff, or_iff_left hpow.ne'] at hwhole
    refine ⟨hk, ?_⟩
    have hzero : Nat.ofDigitChars 10 digits 0 = 0 := by exact_mod_cast hwhole
    rw [Option.elim_some, hzero, Nat.zero_mul]

/-- What Sui's parser takes is a time in the zone `Z`. -/
theorem Time.valid_of_stamp {stamp : Stamp} (h : stamp.Valid) : (⟨stamp, .upper⟩ : Time).Valid where
  date := h.date
  year_le := h.year_le
  hour := h.hour
  minute := h.minute
  second := h.second
  fraction digits hdigits := ⟨(h.fraction digits hdigits).1, (h.fraction digits hdigits).2.2⟩
  zone := trivial

/-- **Block times are read exactly.** No text overflows; the texts taken are
those of times, each read as its instant rounded up to a second; and a whole
second that Sui's parser takes too is read as the same one. -/
theorem parseRfc3339Seconds_exact :
    (∀ timestamp, (parseRfc3339Seconds timestamp).Returns) ∧
    (∀ timestamp n, parseRfc3339Seconds timestamp = .ok n ↔
      ∃ time : Time, time.Valid ∧ timestamp.toList = time.text ∧ n = ⌈time.instant⌉) ∧
    ∀ (timestamp : String) (time : Time) (k n millis : ℤ), time.Valid → timestamp.toList = time.text →
      time.instant = k →
      parseRfc3339Seconds timestamp = .ok n → timestampMillis timestamp = .some millis → 1000 * n = millis := by
  refine ⟨fun timestamp => (parseRfc3339Seconds_yields timestamp).1, fun _ _ => parseRfc3339Seconds_eq_ok, ?_⟩
  intro timestamp time k n millis hvalid htext hwhole hn hmillis
  obtain ⟨stamp, hstamp, hstampText, rfl⟩ := timestampMillis_eq_some.mp hmillis
  have hsame : time = ⟨stamp, .upper⟩ := Time.text_inj hvalid (Time.valid_of_stamp hstamp) (htext.symm.trans hstampText)
  have hread := parseRfc3339Seconds_text hvalid htext
  rw [hn, hwhole, Int.ceil_intCast] at hread
  obtain rfl := Except.ok.inj hread
  obtain ⟨hk, hnanos⟩ := fractionNanos_eq_zero hvalid hwhole
  subst hsame
  rw [← hk, unixMillis_eq, hnanos, Time.wholeSeconds]
  simp only [Zone.seconds]
  omega

/-- The last second of February in a leap year, with an offset over midnight. -/
theorem parseRfc3339Seconds_exact_leapDay :
    parseRfc3339Seconds "2000-02-29T23:59:59.5-00:30" = .ok 951870600 ∧
    ∃ time : Time, time.Valid ∧ "2000-02-29T23:59:59.5-00:30".toList = time.text ∧ 951870600 = ⌈time.instant⌉ := by
  have hread : parseRfc3339Seconds "2000-02-29T23:59:59.5-00:30" = .ok 951870600 := by decide +kernel
  exact ⟨hread, (parseRfc3339Seconds_exact.2.1 _ _).mp hread⟩

end Pillar.InitiaTimestamp
