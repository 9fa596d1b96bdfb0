/-
Decimal digits as texts: the number they spell, that a number has one spelling
without leading zeros, and that these spellings are ordered as their numbers
are, the shorter first and those of one length as texts.
-/
import Mathlib

namespace Pillar.Decimal

theorem digitChar_toNat : ∀ k < 10, (Nat.digitChar k).toNat = 48 + k := by decide

/-- A digit and its value. -/
theorem isDigit_range {c : Char} (h : c.isDigit = true) : 48 ≤ c.toNat ∧ c.toNat ≤ 57 := Char.isDigit_iff_toNat.mp h

theorem toNat_zero : '0'.toNat = 48 := rfl

theorem isDigit_toDigits {n : Nat} : ∀ c ∈ Nat.toDigits 10 n, c.isDigit = true := fun _ hc =>
  Nat.isDigit_of_mem_toDigits (by decide) (by decide) hc

theorem ofDigitChars_cons_eq (c : Char) (digits : List Char) : Nat.ofDigitChars 10 (c :: digits) 0 =
    (c.toNat - 48) * 10 ^ digits.length + Nat.ofDigitChars 10 digits 0 := by
  rw [Nat.ofDigitChars_cons, Nat.ofDigitChars_eq_ofDigitChars_zero, toNat_zero]
  ring

theorem ofDigitChars_append_eq (a b : List Char) : Nat.ofDigitChars 10 (a ++ b) 0 =
    Nat.ofDigitChars 10 a 0 * 10 ^ b.length + Nat.ofDigitChars 10 b 0 := by
  rw [Nat.ofDigitChars_append, Nat.ofDigitChars_eq_ofDigitChars_zero, Nat.mul_comm]

theorem ofDigitChars_lt {digits : List Char} (h : ∀ c ∈ digits, c.isDigit = true) :
    Nat.ofDigitChars 10 digits 0 < 10 ^ digits.length := by
  induction digits with
  | nil => simp
  | cons c digits ih =>
    have hrest := ih fun d hd => h d (List.mem_cons_of_mem _ hd)
    have hc := isDigit_range (h c List.mem_cons_self)
    rw [ofDigitChars_cons_eq, List.length_cons, pow_succ]
    have hmul : (c.toNat - 48) * 10 ^ digits.length ≤ 9 * 10 ^ digits.length := Nat.mul_le_mul_right _ (by omega)
    omega

/-! ## One spelling -/

/-- Decimal digits without a leading zero are their number's own. -/
theorem ofDigitChars_toDigits : ∀ {digits : List Char}, digits ≠ [] → (∀ c ∈ digits, c.isDigit = true) →
    (1 < digits.length → digits.head? ≠ .some '0') → Nat.toDigits 10 (Nat.ofDigitChars 10 digits 0) = digits := by
  intro digits hne hdigits hzero
  induction digits using List.reverseRecOn with
  | nil => exact absurd rfl hne
  | append_singleton init c ih =>
    have hrange := isDigit_range (hdigits c (by simp))
    have hlast : c.toNat - '0'.toNat < 10 := by
      rw [toNat_zero]
      omega
    have hdigit : Nat.toDigits 10 (c.toNat - '0'.toNat) = [c] := by
      have hsame : (Nat.digitChar (c.toNat - '0'.toNat)).toNat = c.toNat := by
        rw [digitChar_toNat _ hlast, toNat_zero]
        omega
      rw [Nat.toDigits_of_lt_base hlast, Char.toNat_inj.mp hsame]
    cases init with
    | nil => simpa [Nat.ofDigitChars_cons] using hdigit
    | cons d init =>
      have hd : d ≠ '0' := fun heq => hzero (by simp) (by simp [heq])
      have hdrange := isDigit_range (hdigits d (by simp))
      have hinit := ih (by simp) (fun e he => hdigits e (List.mem_append_left _ he)) (fun _ => by simpa using hd)
      have hpos : 0 < Nat.ofDigitChars 10 (d :: init) 0 := by
        have hdne : d.toNat ≠ 48 := fun heq => hd (Char.toNat_inj.mp heq)
        have hmul : 0 < (d.toNat - 48) * 10 ^ init.length := Nat.mul_pos (by omega) (by positivity)
        rw [ofDigitChars_cons_eq]
        omega
      rw [Nat.ofDigitChars_append, Nat.ofDigitChars_cons, Nat.ofDigitChars_nil,
        ← Nat.toDigits_append_toDigits (by decide) hpos hlast, hinit, hdigit]

/-- A number's spelling starts with a zero only when it is the number zero. -/
theorem head_toDigits {n : Nat} (h : (Nat.toDigits 10 n).head? = .some '0') : n = 0 := by
  by_contra hn
  have hlen := Nat.length_toDigits_pos (b := 10) (n := n)
  obtain ⟨c, rest, hdigits⟩ := List.exists_cons_of_ne_nil (Nat.toDigits_ne_nil (n := n) (b := 10))
  rw [hdigits] at h
  obtain rfl : c = '0' := by simpa using h
  have hall : ∀ d ∈ rest, d.isDigit = true := fun d hd => isDigit_toDigits d (hdigits ▸ List.mem_cons_of_mem _ hd)
  have hvalue : n = Nat.ofDigitChars 10 rest 0 := by
    have hten := Nat.ofDigitChars_ten_toDigits (n := n)
    rw [hdigits, ofDigitChars_cons_eq, toNat_zero] at hten
    omega
  -- The digits after the zero are too few for the number.
  have hlt : n < 10 ^ rest.length := hvalue ▸ ofDigitChars_lt hall
  rcases Nat.eq_zero_or_pos rest.length with hzero | hpos
  · rw [hzero] at hlt
    omega
  · have hle := (Nat.length_toDigits_le_iff (b := 10) (by decide) hpos).mpr hlt
    rw [hdigits, List.length_cons] at hle
    omega

/-- `n` in `width` digits at least. -/
def padded (width n : Nat) : List Char :=
  List.replicate (width - (Nat.toDigits 10 n).length) '0' ++ Nat.toDigits 10 n

theorem isDigit_padded {width n : Nat} : ∀ c ∈ padded width n, c.isDigit = true := fun c hc => by
  rcases List.mem_append.mp hc with hc | hc
  · rw [List.eq_of_mem_replicate hc]
    decide
  · exact isDigit_toDigits c hc

theorem length_padded {width n : Nat} (hw : 0 < width) (h : n < 10 ^ width) : (padded width n).length = width := by
  have hle := (Nat.length_toDigits_le_iff (b := 10) (by decide) hw).mpr h
  rw [padded, List.length_append, List.length_replicate]
  omega

theorem ofDigitChars_padded (width n : Nat) : Nat.ofDigitChars 10 (padded width n) 0 = n := by
  rw [padded, Nat.ofDigitChars_append, Nat.ofDigitChars_replicate_zero, Nat.mul_zero, Nat.ofDigitChars_ten_toDigits]

/-- Digits of one length that spell one number are the same. -/
theorem eq_of_ofDigitChars_eq : ∀ {as bs : List Char}, as.length = bs.length → (∀ c ∈ as, c.isDigit = true) →
    (∀ c ∈ bs, c.isDigit = true) → Nat.ofDigitChars 10 as 0 = Nat.ofDigitChars 10 bs 0 → as = bs
  | [], [], _, _, _, _ => rfl
  | [], _ :: _, h, _, _, _ => by cases h
  | _ :: _, [], h, _, _, _ => by cases h
  | a :: as, b :: bs, h, ha, hb, hvalue => by
    have hlen : as.length = bs.length := by simpa using h
    have ha' := fun c hc => ha c (List.mem_cons_of_mem _ hc)
    have hb' := fun c hc => hb c (List.mem_cons_of_mem _ hc)
    have hav := isDigit_range (ha a List.mem_cons_self)
    have hbv := isDigit_range (hb b List.mem_cons_self)
    have hal := ofDigitChars_lt ha'
    have hbl := ofDigitChars_lt hb'
    rw [ofDigitChars_cons_eq, ofDigitChars_cons_eq, hlen] at hvalue
    rw [hlen] at hal
    have hhead : a.toNat - 48 = b.toNat - 48 := by
      have hdiv : ∀ (d : Nat) {v : Nat}, v < 10 ^ bs.length → (d * 10 ^ bs.length + v) / 10 ^ bs.length = d :=
        fun d v hv => by rw [Nat.mul_comm, Nat.mul_add_div (by omega), Nat.div_eq_of_lt hv, Nat.add_zero]
      rw [← hdiv (a.toNat - 48) hal, hvalue, hdiv _ hbl]
    have htail := eq_of_ofDigitChars_eq hlen ha' hb' (by rw [hhead] at hvalue; omega)
    rw [htail, Char.toNat_inj.mp (by omega : a.toNat = b.toNat)]

/-- Digits are their number's, padded to their length. -/
theorem padded_ofDigitChars {digits : List Char} (hne : digits ≠ []) (h : ∀ c ∈ digits, c.isDigit = true) :
    padded digits.length (Nat.ofDigitChars 10 digits 0) = digits :=
  eq_of_ofDigitChars_eq (length_padded (List.length_pos_iff.mpr hne) (ofDigitChars_lt h)) isDigit_padded h
    (ofDigitChars_padded _ _)

/-- The spelling of a number in blocks: that of its high part, then its low part padded. -/
theorem toDigits_append_padded {high low width : Nat} (hh : 0 < high) (hw : 0 < width) (hl : low < 10 ^ width) :
    Nat.toDigits 10 high ++ padded width low = Nat.toDigits 10 (low + 10 ^ width * high) := by
  have hvalue : Nat.ofDigitChars 10 (Nat.toDigits 10 high ++ padded width low) 0 = low + 10 ^ width * high := by
    rw [ofDigitChars_append_eq, Nat.ofDigitChars_ten_toDigits, ofDigitChars_padded, length_padded hw hl]
    ring
  rw [← hvalue]
  refine (ofDigitChars_toDigits (by simp [Nat.toDigits_ne_nil]) (fun c hc => ?_) fun _ hhead => ?_).symm
  · rcases List.mem_append.mp hc with hc | hc
    · exact isDigit_toDigits c hc
    · exact isDigit_padded c hc
  · rw [List.head?_append_of_ne_nil _ Nat.toDigits_ne_nil] at hhead
    have := head_toDigits hhead
    omega

/-! ## The order -/

/-- The order of texts: that of their first characters that differ. -/
def compareText : List Char → List Char → Ordering
  | [], [] => .eq
  | [], _ :: _ => .lt
  | _ :: _, [] => .gt
  | a :: as, b :: bs => (compare a.toNat b.toNat).then (compareText as bs)

/-- Digits of one length are ordered as their numbers. -/
theorem compareText_eq : ∀ {as bs : List Char}, as.length = bs.length → (∀ c ∈ as, c.isDigit = true) →
    (∀ c ∈ bs, c.isDigit = true) →
    compareText as bs = compare (Nat.ofDigitChars 10 as 0) (Nat.ofDigitChars 10 bs 0)
  | [], [], _, _, _ => by simp [compareText]
  | [], _ :: _, h, _, _ => by cases h
  | _ :: _, [], h, _, _ => by cases h
  | a :: as, b :: bs, h, ha, hb => by
    have hlen : as.length = bs.length := by simpa using h
    have ha' := fun c hc => ha c (List.mem_cons_of_mem _ hc)
    have hb' := fun c hc => hb c (List.mem_cons_of_mem _ hc)
    have hrest := compareText_eq hlen ha' hb'
    have hav := isDigit_range (ha a List.mem_cons_self)
    have hbv := isDigit_range (hb b List.mem_cons_self)
    have hal := ofDigitChars_lt ha'
    have hbl := ofDigitChars_lt hb'
    rw [compareText, hrest, ofDigitChars_cons_eq, ofDigitChars_cons_eq, hlen]
    rw [hlen] at hal
    generalize Nat.ofDigitChars 10 as 0 = x at *
    generalize Nat.ofDigitChars 10 bs 0 = y at *
    generalize 10 ^ bs.length = p at *
    rcases lt_trichotomy a.toNat b.toNat with hab | hab | hab
    · rw [Nat.compare_eq_lt.mpr hab]
      have hstep : (a.toNat - 48 + 1) * p ≤ (b.toNat - 48) * p := Nat.mul_le_mul_right _ (by omega)
      rw [Nat.add_mul, Nat.one_mul] at hstep
      exact (Nat.compare_eq_lt.mpr (by omega)).symm
    · rw [hab, Nat.compare_eq_eq.mpr rfl, Ordering.then]
      simp only [compare, compareOfLessAndEq, Nat.add_lt_add_iff_left, Nat.add_left_cancel_iff]
    · rw [Nat.compare_eq_gt.mpr hab]
      have hstep : (b.toNat - 48 + 1) * p ≤ (a.toNat - 48) * p := Nat.mul_le_mul_right _ (by omega)
      rw [Nat.add_mul, Nat.one_mul] at hstep
      exact (Nat.compare_eq_gt.mpr (by omega)).symm

/-- **Spellings are ordered as their numbers**, by length and then as texts. -/
theorem compare_toDigits (m n : Nat) :
    (compare (Nat.toDigits 10 m).length (Nat.toDigits 10 n).length).then
      (compareText (Nat.toDigits 10 m) (Nat.toDigits 10 n)) = compare m n := by
  have hlonger : ∀ {m n : Nat}, (Nat.toDigits 10 m).length < (Nat.toDigits 10 n).length → m < n := fun {m n} h => by
    by_contra hge
    have hm : m < 10 ^ (Nat.toDigits 10 m).length :=
      (Nat.length_toDigits_le_iff (b := 10) (by decide) Nat.length_toDigits_pos).mp (Nat.le_refl _)
    have hle := (Nat.length_toDigits_le_iff (b := 10) (n := n) (by decide) Nat.length_toDigits_pos).mpr
      (lt_of_le_of_lt (Nat.le_of_not_lt hge) hm)
    omega
  rcases lt_trichotomy (Nat.toDigits 10 m).length (Nat.toDigits 10 n).length with h | h | h
  · rw [Nat.compare_eq_lt.mpr h, Nat.compare_eq_lt.mpr (hlonger h)]
    rfl
  · rw [h, Nat.compare_eq_eq.mpr rfl, Ordering.then, compareText_eq h isDigit_toDigits isDigit_toDigits,
      Nat.ofDigitChars_ten_toDigits, Nat.ofDigitChars_ten_toDigits]
  · rw [Nat.compare_eq_gt.mpr h, Nat.compare_eq_gt.mpr (hlonger h)]
    rfl

end Pillar.Decimal
