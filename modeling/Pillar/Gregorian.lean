/-
The proleptic Gregorian calendar: leap years, the lengths of months, and days
counted from a date by adding up the years and months before it.

The counts have closed forms (`daysBeforeYear_eq`, `dayNumber_eq_civil`), and
later dates have greater numbers (`dayNumber_lt`).
-/
import Mathlib

namespace Pillar.Gregorian

def IsLeap (year : Nat) : Prop := year % 4 = 0 ∧ (year % 100 ≠ 0 ∨ year % 400 = 0)

instance (year : Nat) : Decidable (IsLeap year) := inferInstanceAs (Decidable (_ ∧ _))

def daysInMonth (year month : Nat) : Nat :=
  match month with
  | 2 => if IsLeap year then 29 else 28
  | 4 | 6 | 9 | 11 => 30
  | _ => 31

def yearLength (year : Nat) : Nat := if IsLeap year then 366 else 365

/-- The days of the years before `year`, from year 0 on. -/
def daysBeforeYear : Nat → Nat
  | 0 => 0
  | year + 1 => daysBeforeYear year + yearLength year

/-- The days of the months before `month`, from month 1 on. -/
def daysBeforeMonth (year : Nat) : Nat → Nat
  | 0 | 1 => 0
  | month + 2 => daysBeforeMonth year (month + 1) + daysInMonth year (month + 1)

structure Date where
  year : Nat
  month : Nat
  day : Nat
  deriving DecidableEq

/-- A date that the calendar has. -/
structure Date.Valid (date : Date) : Prop where
  month_pos : 1 ≤ date.month
  month_le : date.month ≤ 12
  day_pos : 1 ≤ date.day
  day_le : date.day ≤ daysInMonth date.year date.month

/-- Days since the first of January 1970. -/
def Date.dayNumber (date : Date) : ℤ :=
  daysBeforeYear date.year + daysBeforeMonth date.year date.month + (date.day - 1) - daysBeforeYear 1970

/-! ## Years -/

theorem daysBeforeYear_eq (year : Nat) :
    daysBeforeYear year + (year + 99) / 100 = 365 * year + (year + 3) / 4 + (year + 399) / 400 := by
  induction year with
  | zero => rfl
  | succ year ih =>
    rw [daysBeforeYear, yearLength]
    split
    · next h =>
      unfold IsLeap at h
      omega
    · next h =>
      unfold IsLeap at h
      omega

theorem daysBeforeYear_mono {y y' : Nat} (h : y ≤ y') : daysBeforeYear y ≤ daysBeforeYear y' := by
  induction y', h using Nat.le_induction with
  | base => exact Nat.le_refl _
  | succ y' _ ih =>
    rw [daysBeforeYear]
    omega

/-! ## Months -/

/-- A year is its twelve months. -/
theorem daysBeforeMonth_year (year : Nat) : daysBeforeMonth year 13 = yearLength year := by
  simp only [daysBeforeMonth, daysInMonth, yearLength]
  split <;> rfl

theorem daysInMonth_le (year month : Nat) : daysInMonth year month ≤ 31 := by
  unfold daysInMonth
  split
  · split <;> omega
  all_goals omega

theorem daysBeforeMonth_mono (year : Nat) {m m' : Nat} (hm : 1 ≤ m) (h : m ≤ m') :
    daysBeforeMonth year m ≤ daysBeforeMonth year m' := by
  induction m', h using Nat.le_induction with
  | base => exact Nat.le_refl _
  | succ m' hle ih =>
    obtain ⟨k, rfl⟩ : ∃ k, m' = k + 1 := ⟨m' - 1, by omega⟩
    rw [daysBeforeMonth]
    omega

/-- The days of a month lie between those before it and those before the next. -/
theorem Date.Valid.day_lt {date : Date} (h : date.Valid) :
    daysBeforeMonth date.year date.month + date.day ≤ daysBeforeMonth date.year (date.month + 1) := by
  obtain ⟨k, hk⟩ : ∃ k, date.month = k + 1 := ⟨date.month - 1, by have := h.month_pos; omega⟩
  have := h.day_le
  rw [hk] at this ⊢
  rw [daysBeforeMonth]
  omega

/-! ## The order -/

/-- The earlier of two dates, by year, month and day. -/
def Date.Before (a b : Date) : Prop :=
  a.year < b.year ∨ (a.year = b.year ∧ (a.month < b.month ∨ (a.month = b.month ∧ a.day < b.day)))

/-- **A later date has the greater number**, across months and years. -/
theorem dayNumber_lt {a b : Date} (ha : a.Valid) (hb : b.Valid) (h : a.Before b) : a.dayNumber < b.dayNumber := by
  have had := ha.day_pos
  have hbd := hb.day_pos
  have hday := ha.day_lt
  unfold Date.dayNumber
  rcases h with hyear | ⟨hyear, hmonth | ⟨hmonth, hday'⟩⟩
  · have hrest := daysBeforeMonth_mono a.year (m := a.month + 1) (by omega)
      (Nat.succ_le_succ ha.month_le)
    rw [daysBeforeMonth_year] at hrest
    have hnext : daysBeforeYear (a.year + 1) = daysBeforeYear a.year + yearLength a.year := rfl
    have hle : daysBeforeYear (a.year + 1) ≤ daysBeforeYear b.year := daysBeforeYear_mono hyear
    omega
  · have hle := daysBeforeMonth_mono a.year (m := a.month + 1) (by omega) hmonth
    rw [← hyear]
    omega
  · rw [← hyear, ← hmonth]
    omega

/-! ## The civil count -/

/-- The day number as it is computed with years that start in March, four
hundred to an era. -/
def civil (year month day : ℤ) : ℤ :=
  let adjustedYear := year - (if month ≤ 2 then 1 else 0)
  let era := adjustedYear / 400
  let yearOfEra := adjustedYear - era * 400
  let adjustedMonth := month + (if month > 2 then -3 else 9)
  let dayOfYear := (153 * adjustedMonth + 2) / 5 + day - 1
  let dayOfEra := yearOfEra * 365 + yearOfEra / 4 - yearOfEra / 100 + dayOfYear
  era * 146097 + dayOfEra - 719468

/-- Eras and the years in them count the days up to the end of `year`, but for
those of year 0. -/
theorem eras_eq (year : Nat) :
    (year : ℤ) / 400 * 146097 + ((year - (year : ℤ) / 400 * 400) * 365 + (year - (year : ℤ) / 400 * 400) / 4 -
      (year - (year : ℤ) / 400 * 400) / 100) + 366 = daysBeforeYear (year + 1) := by
  have hyears := daysBeforeYear_eq (year + 1)
  have hfour : (year + 1 + 3) / 4 = year / 4 + 1 := by omega
  have hcentury : (year + 1 + 99) / 100 = year / 100 + 1 := by omega
  have hera : (year + 1 + 399) / 400 = year / 400 + 1 := by omega
  rw [hfour, hcentury, hera] at hyears
  have hfour' : ((year : ℤ) - (year : ℤ) / 400 * 400) / 4 = (year / 4 : Nat) - (year : ℤ) / 400 * 100 := by omega
  have hcentury' : ((year : ℤ) - (year : ℤ) / 400 * 400) / 100 = (year / 100 : Nat) - (year : ℤ) / 400 * 4 := by omega
  have hera' : (year : ℤ) / 400 = (year / 400 : Nat) := rfl
  rw [hfour', hcentury', hera']
  generalize year / 400 = era at *
  generalize year / 100 = century at *
  generalize year / 4 = four at *
  omega

/-- The months of a year that starts in March. -/
theorem march_months (year : Nat) {month : Nat} (hm : 3 ≤ month) (hm' : month ≤ 12) :
    yearLength year + (153 * (month - 3) + 2) / 5 + 60 = 366 + daysBeforeMonth year month := by
  unfold yearLength
  split
  · next h => interval_cases month <;> simp [daysBeforeMonth, daysInMonth, h]
  · next h => interval_cases month <;> simp [daysBeforeMonth, daysInMonth, h]

/-- **The civil count is the day number.** -/
theorem dayNumber_eq_civil {date : Date} (h : date.Valid) : civil date.year date.month date.day = date.dayNumber := by
  obtain ⟨year, month, day⟩ := date
  have h1970 : daysBeforeYear 1970 = 719528 := by
    have := daysBeforeYear_eq 1970
    omega
  have hm : 1 ≤ month := h.month_pos
  have hm' : month ≤ 12 := h.month_le
  have hd : 1 ≤ day := h.day_pos
  simp only [civil, Date.dayNumber, h1970]
  by_cases hmarch : 3 ≤ month
  · have hle : ¬ (month : ℤ) ≤ 2 := by omega
    have hgt : (month : ℤ) > 2 := by omega
    have hyears := eras_eq year
    have hmonths := march_months year hmarch hm'
    have hnext : daysBeforeYear (year + 1) = daysBeforeYear year + yearLength year := rfl
    have hdays : (153 * ((month : ℤ) + -3) + 2) / 5 = ((153 * (month - 3) + 2) / 5 : Nat) := by omega
    rw [if_neg hle, if_pos hgt, Int.sub_zero, hdays]
    generalize (153 * (month - 3) + 2) / 5 = days at *
    omega
  · have hle : (month : ℤ) ≤ 2 := by omega
    have hgt : ¬ (month : ℤ) > 2 := by omega
    rw [if_pos hle, if_neg hgt]
    have hmonths : daysBeforeMonth year month + 306 = (153 * (month + 9) + 2) / 5 := by
      interval_cases month
      · rfl
      · rfl
    have hdays : (153 * ((month : ℤ) + 9) + 2) / 5 = ((153 * (month + 9) + 2) / 5 : Nat) := by omega
    rw [hdays, ← hmonths]
    cases year with
    | zero =>
      -- January and February of year 0 are in the last year of the era before.
      have hzero : daysBeforeYear 0 = 0 := rfl
      omega
    | succ last =>
      have hyears := eras_eq last
      have hlast : ((last + 1 : Nat) : ℤ) - 1 = last := by omega
      rw [hlast]
      omega

end Pillar.Gregorian
