/-
JavaScript's `BigInt` as Canton's sequencer answers are read with
(`pillar-runtime`, `canton_sequencer.rs`): sign and decimal digits, a parser for
four radixes, and an order that looks at digits only.

A literal denotes an integer (`Literal`); the parser returns that integer in
its one canonical form (`JsBigInt.ofInt`), so equality and the order of forms
are those of integers. An operation on `u64` that overflows ends the call.
-/
import Pillar.CantonSequencer
import Pillar.Decimal

namespace Pillar.Canton

open Text Decimal

variable {ε : Type}

/-! ## The code -/

structure JsBigInt where
  negative : Bool
  digits : List Char
  deriving Repr, DecidableEq

namespace JsBigInt

/-- A limb holds nine decimal digits. -/
def limbBase : Nat := 1000000000

/-- `for limb in &mut limbs`. -/
def scale (radix : Nat) : Nat → List Nat → Exec ε (List Nat × Nat)
  | carry, [] => .ok ([], carry)
  | carry, limb :: limbs => do
    let value ← Exec.get (checkedAdd (← Exec.get (checkedMul limb radix)) carry)
    let (limbs, carry) ← scale radix (value / limbBase) limbs
    return (value % limbBase :: limbs, carry)

/-- `while carry > 0`. -/
def spill (carry : Nat) : List Nat :=
  if carry = 0 then [] else carry % limbBase :: spill (carry / limbBase)
termination_by carry
decreasing_by exact Nat.div_lt_self (by omega) (by decide)

/-- `for byte in digits.bytes()`; a byte beyond ASCII is no digit. -/
def limbsOf (radix : Nat) : List Char → List Nat → Exec ε (Option (List Nat))
  | [], limbs => .ok (.some limbs)
  | c :: digits, limbs =>
    match toDigit radix c with
    | .none => .ok .none
    | .some digit => do
      let (limbs, carry) ← scale radix digit limbs
      limbsOf radix digits (limbs ++ spill carry)

/-- `rendered`: the last limb as it is, the others in nine digits. -/
def render (limbs : List Nat) : List Char :=
  match limbs.reverse with
  | [] => Nat.toDigits 10 0
  | top :: rest => Nat.toDigits 10 top ++ rest.flatMap (padded 9)

def parseRadix (digits : List Char) (radix : Nat) : Exec ε (Option JsBigInt) :=
  if digits.isEmpty || maxJsBigintInputBytes < (String.ofList digits).utf8ByteSize then .ok .none
  else do
    let limbs ← limbsOf radix digits [0]
    return limbs.map fun limbs => { negative := false, digits := render limbs }

/-- A decimal without its sign. -/
def ofDecimal (negative : Bool) (digits : List Char) : Option JsBigInt :=
  if digits.isEmpty || !digits.all Char.isDigit then .none
  else
    let digits := digits.dropWhile (· = '0')
    .some { negative := negative && !digits.isEmpty, digits := if digits.isEmpty then ['0'] else digits }

/-- An optionally signed decimal. -/
def parseDecimal (trimmed : List Char) : Option JsBigInt :=
  ofDecimal (trimmed.head? = .some '-') (match trimmed with
    | '+' :: rest | '-' :: rest => rest
    | trimmed => trimmed)

/-- `JsBigInt::parse`. -/
def parse (text : String) : Exec ε (Option JsBigInt) :=
  if maxJsBigintInputBytes < text.utf8ByteSize then .ok .none
  else
    match jsTrim text.toList with
    | '0' :: 'x' :: digits | '0' :: 'X' :: digits => parseRadix digits 16
    | '0' :: 'o' :: digits | '0' :: 'O' :: digits => parseRadix digits 8
    | '0' :: 'b' :: digits | '0' :: 'B' :: digits => parseRadix digits 2
    | [] => .ok (.some { negative := false, digits := ['0'] })
    | trimmed => .ok (parseDecimal trimmed)

def isZero (n : JsBigInt) : Bool := n.digits = ['0']

def ge (a b : JsBigInt) : Bool :=
  match a.negative, b.negative with
  | false, true => true
  | true, false => false
  | negative, _ =>
    let ordering := (compare a.digits.length b.digits.length).then (compareText a.digits b.digits)
    if negative then ordering.isLE else ordering.isGE

/-! ## Integers -/

/-- The integer that sign and digits denote. -/
def toInt (n : JsBigInt) : ℤ :=
  let magnitude : ℤ := Nat.ofDigitChars 10 n.digits 0
  if n.negative then -magnitude else magnitude

/-- The canonical form of an integer. -/
def ofInt (z : ℤ) : JsBigInt where
  negative := z < 0
  digits := Nat.toDigits 10 z.natAbs

@[simp] theorem toInt_ofInt (z : ℤ) : (ofInt z).toInt = z := by
  rw [toInt, ofInt, Nat.ofDigitChars_ten_toDigits]
  by_cases h : z < 0
  · simp only [h, decide_true, if_true]
    omega
  · simp only [h, decide_false, Bool.false_eq_true, if_false]
    omega

theorem ofInt_injective {y z : ℤ} (h : ofInt y = ofInt z) : y = z := by
  rw [← toInt_ofInt y, h, toInt_ofInt]

/-- **Forms are ordered as their integers.** -/
theorem ge_ofInt (y z : ℤ) : (ofInt y).ge (ofInt z) = true ↔ z ≤ y := by
  have hcmp : (compare (Nat.toDigits 10 y.natAbs).length (Nat.toDigits 10 z.natAbs).length).then
      (compareText (Nat.toDigits 10 y.natAbs) (Nat.toDigits 10 z.natAbs)) = compare y.natAbs z.natAbs :=
    compare_toDigits _ _
  simp only [ge, ofInt]
  by_cases hy : y < 0 <;> by_cases hz : z < 0
  · simp only [hy, hz, decide_true, if_true, hcmp, Nat.isLE_compare]
    omega
  · simp only [hy, hz, decide_true, decide_false, Bool.false_eq_true, false_iff]
    omega
  · simp only [hy, hz, decide_true, decide_false, true_iff]
    omega
  · simp only [hy, hz, decide_false, Bool.false_eq_true, if_false, hcmp, Nat.isGE_compare]
    omega

/-- The first digit of a form is a zero only in the form of zero, which has no sign. -/
theorem ofInt_canonical (z : ℤ) : (ofInt z).digits ≠ [] ∧ (∀ c ∈ (ofInt z).digits, c.isDigit = true) ∧
    ((ofInt z).digits.head? = .some '0' → ofInt z = ⟨false, ['0']⟩) := by
  refine ⟨Nat.toDigits_ne_nil, isDigit_toDigits, fun h => ?_⟩
  obtain rfl : z = 0 := Int.natAbs_eq_zero.mp (head_toDigits h)
  rfl

/-! ## Limbs -/

/-- The number of limbs, the lowest first. -/
def limbsValue (limbs : List Nat) : Nat := Nat.ofDigits limbBase limbs

/-- Each below the base, and no more limbs than the number has. -/
structure Limbs (limbs : List Nat) : Prop where
  lt : ∀ limb ∈ limbs, limb < limbBase
  ne_nil : limbs ≠ []
  top : 1 < limbs.length → limbBase ^ (limbs.length - 1) ≤ limbsValue limbs

theorem limbs_zero : Limbs [0] := ⟨by simp [limbBase], by simp, by simp⟩

/-- **One digit more**: the limbs take it in, and no product or sum leaves `u64`. -/
theorem scale_spec {radix : Nat} (hradix : radix ≤ 16) : ∀ (limbs : List Nat) (carry : Nat),
    (∀ limb ∈ limbs, limb < limbBase) → carry < radix →
    ∃ out carry', (scale radix carry limbs : Exec ε (List Nat × Nat)) = .ok (out, carry') ∧
      out.length = limbs.length ∧ (∀ limb ∈ out, limb < limbBase) ∧ carry' < radix ∧
      limbsValue out + limbBase ^ limbs.length * carry' = radix * limbsValue limbs + carry
  | [], carry, _, hcarry => ⟨[], carry, rfl, rfl, by simp, hcarry, by simp [limbsValue]⟩
  | limb :: limbs, carry, hlt, hcarry => by
    have hlimb : limb < 1000000000 := hlt limb List.mem_cons_self
    have hproduct : limb * radix ≤ 999999999 * 16 := Nat.mul_le_mul (by omega) hradix
    have hmul : checkedMul limb radix = .some (limb * radix) := if_pos (by simp only [usizeMax]; omega)
    have hadd : checkedAdd (limb * radix) carry = .some (limb * radix + carry) :=
      checkedAdd_of_le (by simp only [usizeMax]; omega)
    have hnext : (limb * radix + carry) / limbBase < radix := by
      refine (Nat.div_lt_iff_lt_mul (by decide)).mpr ?_
      have hle : limb * radix + radix ≤ radix * limbBase := by
        calc limb * radix + radix = radix * (limb + 1) := by ring
          _ ≤ radix * limbBase := Nat.mul_le_mul_left _ hlimb
      omega
    obtain ⟨out, carry', hscale, hlen, hout, hcarry', hvalue⟩ := scale_spec hradix limbs _
      (fun l hl => hlt l (List.mem_cons_of_mem _ hl)) hnext
    refine ⟨(limb * radix + carry) % limbBase :: out, carry', ?_, by rw [List.length_cons, List.length_cons, hlen],
      ?_, hcarry', ?_⟩
    · simp only [scale, hmul, hadd, Exec.get_some, Exec.ok_bind, hscale, Exec.pure_eq_ok]
    · exact List.forall_mem_cons.mpr ⟨Nat.mod_lt _ (by decide), hout⟩
    · have hsplit := Nat.mod_add_div (limb * radix + carry) limbBase
      calc limbsValue ((limb * radix + carry) % limbBase :: out) + limbBase ^ (limbs.length + 1) * carry'
          = (limb * radix + carry) % limbBase + limbBase * (limbsValue out + limbBase ^ limbs.length * carry') := by
            rw [limbsValue, limbsValue, Nat.ofDigits_cons, pow_succ]
            ring
        _ = ((limb * radix + carry) % limbBase + limbBase * ((limb * radix + carry) / limbBase)) +
              radix * (limbBase * limbsValue limbs) := by
            rw [hvalue]
            ring
        _ = radix * limbsValue (limb :: limbs) + carry := by
            rw [hsplit, limbsValue, limbsValue, Nat.ofDigits_cons]
            ring

theorem spill_of_lt {carry : Nat} (h : carry < limbBase) : spill carry = if carry = 0 then [] else [carry] := by
  rw [spill]
  split
  · rfl
  · rw [Nat.mod_eq_of_lt h, Nat.div_eq_of_lt h, spill, if_pos rfl]

/-- What a digit makes of limbs, the carry on top of them. -/
theorem limbs_step {radix digit : Nat} (hradix : radix ≤ 16) (hdigit : digit < radix) {limbs : List Nat}
    (h : Limbs limbs) : ∃ out carry, (scale radix digit limbs : Exec ε (List Nat × Nat)) = .ok (out, carry) ∧
      Limbs (out ++ spill carry) ∧ limbsValue (out ++ spill carry) = radix * limbsValue limbs + digit := by
  obtain ⟨out, carry, hscale, hlen, hout, hcarry, hvalue⟩ := scale_spec (ε := ε) hradix limbs digit h.lt hdigit
  have hbase : carry < limbBase := lt_of_lt_of_le (lt_of_lt_of_le hcarry hradix) (by decide)
  have hpos : 0 < limbs.length := List.length_pos_iff.mpr h.ne_nil
  refine ⟨out, carry, hscale, ?_⟩
  rw [spill_of_lt hbase]
  split
  · next hzero =>
    have hsame : limbsValue out = radix * limbsValue limbs + digit := by simpa [hzero] using hvalue
    rw [List.append_nil]
    refine ⟨⟨hout, List.ne_nil_of_length_pos (by omega), fun htwo => ?_⟩, hsame⟩
    have hle := h.top (by omega)
    have hmul : limbsValue limbs ≤ radix * limbsValue limbs := Nat.le_mul_of_pos_left _ (by omega)
    rw [hlen]
    omega
  · next hne =>
    have happend : limbsValue (out ++ [carry]) = radix * limbsValue limbs + digit := by
      rw [limbsValue, Nat.ofDigits_append, Nat.ofDigits_singleton, hlen]
      exact hvalue
    refine ⟨⟨fun limb hl => ?_, by simp, fun _ => ?_⟩, happend⟩
    · rcases List.mem_append.mp hl with hl | hl
      · exact hout limb hl
      · rwa [List.mem_singleton.mp hl]
    · have hmul : limbBase ^ limbs.length ≤ limbBase ^ limbs.length * carry :=
        Nat.le_mul_of_pos_right _ (Nat.pos_of_ne_zero hne)
      rw [happend, List.length_append, List.length_singleton, Nat.add_sub_cancel, hlen]
      omega

/-- What the digits of a radix spell, `n` in front of them. -/
def radixValue (radix : Nat) (values : List Nat) (n : Nat) : Nat := values.foldl (fun n d => radix * n + d) n

theorem toDigit_lt {radix digit : Nat} {c : Char} (h : toDigit radix c = .some digit) : digit < radix := by
  obtain ⟨-, hlt⟩ := Option.filter_eq_some_iff.mp h
  simpa using hlt

/-- **The digits of a radix** are taken in to the last, or one of them is none. -/
theorem limbsOf_spec {radix : Nat} (hradix : radix ≤ 16) : ∀ (digits : List Char) (limbs : List Nat), Limbs limbs →
    (digits.mapM (toDigit radix) = .none ∧ (limbsOf radix digits limbs : Exec ε _) = .ok .none) ∨
    ∃ values out, digits.mapM (toDigit radix) = .some values ∧
      (limbsOf radix digits limbs : Exec ε _) = .ok (.some out) ∧ Limbs out ∧
      limbsValue out = radixValue radix values (limbsValue limbs)
  | [], limbs, h => .inr ⟨[], limbs, rfl, rfl, h, rfl⟩
  | c :: digits, limbs, h => by
    rw [List.mapM_cons, limbsOf]
    cases hc : toDigit radix c with
    | none => exact .inl ⟨rfl, rfl⟩
    | some digit =>
      obtain ⟨out, carry, hscale, hlimbs, hvalue⟩ := limbs_step (ε := ε) hradix (toDigit_lt hc) h
      simp only [hscale, Exec.ok_bind]
      rcases limbsOf_spec hradix digits _ hlimbs with ⟨hnone, hrest⟩ | ⟨values, last, hsome, hrest, hlast, hlastValue⟩
      · exact .inl ⟨by rw [hnone]; rfl, hrest⟩
      · refine .inr ⟨digit :: values, last, by rw [hsome]; rfl, hrest, hlast, ?_⟩
        rw [hlastValue, hvalue]
        rfl

theorem render_blocks : ∀ (rest : List Nat) (top : Nat), 0 < top → (∀ limb ∈ rest, limb < limbBase) →
    Nat.toDigits 10 top ++ rest.flatMap (padded 9) = Nat.toDigits 10 (limbsValue (rest.reverse ++ [top]))
  | [], top, _, _ => by simp [limbsValue]
  | limb :: rest, top, htop, hlt => by
    have hlimb : limb < 10 ^ 9 := hlt limb List.mem_cons_self
    have hnext : 0 < limb + 10 ^ 9 * top := by omega
    rw [List.flatMap_cons, ← List.append_assoc, toDigits_append_padded htop (by decide) hlimb,
      render_blocks rest _ hnext fun l hl => hlt l (List.mem_cons_of_mem _ hl)]
    congr 1
    simp only [limbsValue, limbBase, List.reverse_cons, List.append_assoc, Nat.ofDigits_append, List.singleton_append,
      Nat.ofDigits_cons, Nat.ofDigits_nil]
    push_cast
    ring

/-- **Limbs are rendered as the digits of their number.** -/
theorem render_eq {limbs : List Nat} (h : Limbs limbs) : render limbs = Nat.toDigits 10 (limbsValue limbs) := by
  rw [render]
  cases hrev : limbs.reverse with
  | nil => exact absurd (List.reverse_eq_nil_iff.mp hrev) h.ne_nil
  | cons top rest =>
    obtain rfl : limbs = rest.reverse ++ [top] := by rw [← List.reverse_reverse limbs, hrev, List.reverse_cons]
    have hrest : ∀ limb ∈ rest, limb < limbBase := fun limb hl => h.lt limb (by simp [hl])
    rcases Nat.eq_zero_or_pos top with rfl | hpos
    · -- A zero on top stands alone.
      have hnil : rest = [] := by
        by_contra hne
        have hlen : 0 < rest.length := List.length_pos_iff.mpr hne
        have hle := h.top (by simp only [List.length_append, List.length_reverse, List.length_singleton]; omega)
        have hlt : limbsValue rest.reverse < limbBase ^ rest.reverse.length :=
          Nat.ofDigits_lt_base_pow_length (by decide) fun limb hl => hrest limb (List.mem_reverse.mp hl)
        rw [limbsValue, Nat.ofDigits_append] at hle
        simp only [List.length_append, List.length_reverse, List.length_singleton, Nat.add_sub_cancel,
          Nat.ofDigits_singleton, Nat.mul_zero, Nat.add_zero] at hle hlt
        rw [limbsValue] at hlt
        omega
      subst hnil
      rfl
    · exact render_blocks rest top hpos hrest

/-! ## Literals -/

/-- An optionally signed decimal, and the integer it denotes. -/
inductive Signed : List Char → ℤ → Prop
  | bare {digits : List Char} (hne : digits ≠ []) (hdigits : ∀ c ∈ digits, c.isDigit = true) :
      Signed digits (Nat.ofDigitChars 10 digits 0)
  | plus {digits : List Char} (hne : digits ≠ []) (hdigits : ∀ c ∈ digits, c.isDigit = true) :
      Signed ('+' :: digits) (Nat.ofDigitChars 10 digits 0)
  | minus {digits : List Char} (hne : digits ≠ []) (hdigits : ∀ c ∈ digits, c.isDigit = true) :
      Signed ('-' :: digits) (-Nat.ofDigitChars 10 digits 0)

/-- What follows the zero of an unsigned literal, and its radix. -/
def marks : List (Char × Nat) := [('x', 16), ('X', 16), ('o', 8), ('O', 8), ('b', 2), ('B', 2)]

/-- `StringToBigInt`: the trimmed texts that denote an integer. -/
inductive Literal : List Char → ℤ → Prop
  | empty : Literal [] 0
  | decimal {text : List Char} {z : ℤ} (h : Signed text z) : Literal text z
  | radix {mark : Char} {radix : Nat} {digits : List Char} {values : List Nat} (hmark : (mark, radix) ∈ marks)
      (hne : digits ≠ []) (hvalues : digits.mapM (toDigit radix) = .some values) :
      Literal ('0' :: mark :: digits) (radixValue radix values 0)

theorem ofDigitChars_dropWhile (digits : List Char) :
    Nat.ofDigitChars 10 (digits.dropWhile (· = '0')) 0 = Nat.ofDigitChars 10 digits 0 := by
  induction digits with
  | nil => rfl
  | cons c digits ih =>
    by_cases hc : c = '0'
    · subst hc
      rw [List.dropWhile_cons_of_pos (by simp), ih, ofDigitChars_cons_eq, toNat_zero, Nat.sub_self, Nat.zero_mul,
        Nat.zero_add]
    · rw [List.dropWhile_cons_of_neg (by simpa using hc)]

/-- Without its leading zeros a decimal is its number's spelling. -/
theorem dropWhile_eq {digits : List Char} (hdigits : ∀ c ∈ digits, c.isDigit = true) :
    (if (digits.dropWhile (· = '0')).isEmpty then ['0'] else digits.dropWhile (· = '0')) =
      Nat.toDigits 10 (Nat.ofDigitChars 10 digits 0) ∧
    ((digits.dropWhile (· = '0')).isEmpty = true ↔ Nat.ofDigitChars 10 digits 0 = 0) := by
  rw [← ofDigitChars_dropWhile]
  cases hdrop : digits.dropWhile (· = '0') with
  | nil => simp
  | cons c rest =>
    have hc : c ≠ '0' := by
      have := List.head?_dropWhile_not (p := (· = '0')) digits
      rw [hdrop] at this
      simpa using this
    have hall : ∀ d ∈ c :: rest, d.isDigit = true := fun d hd =>
      hdigits d ((List.dropWhile_sublist _).subset (hdrop ▸ hd))
    have hspell := ofDigitChars_toDigits (List.cons_ne_nil c rest) hall fun _ hhead => hc (by simpa using hhead)
    refine ⟨by rw [hspell]; rfl, iff_of_false (by simp) fun hzero => ?_⟩
    rw [hzero] at hspell
    exact hc (List.cons.inj hspell).1.symm

theorem ofDecimal_eq_some {negative : Bool} {digits : List Char} {n : JsBigInt} :
    ofDecimal negative digits = .some n ↔ digits ≠ [] ∧ (∀ c ∈ digits, c.isDigit = true) ∧
      n = ofInt (if negative then -Nat.ofDigitChars 10 digits 0 else Nat.ofDigitChars 10 digits 0) := by
  unfold ofDecimal
  by_cases hdigits : ∀ c ∈ digits, c.isDigit = true
  · obtain ⟨hspell, hzero⟩ := dropWhile_eq hdigits
    have hform : JsBigInt.mk (negative && !(digits.dropWhile (· = '0')).isEmpty) (Nat.toDigits 10
        (Nat.ofDigitChars 10 digits 0)) = ofInt (if negative then -Nat.ofDigitChars 10 digits 0
          else Nat.ofDigitChars 10 digits 0) := by
      rw [ofInt, JsBigInt.mk.injEq]
      cases negative with
      | true =>
        refine ⟨?_, by simp⟩
        rw [Bool.true_and, Bool.eq_iff_iff, Bool.not_eq_true', ← Bool.not_eq_true, hzero]
        simp only [if_true, decide_eq_true_eq]
        omega
      | false => exact ⟨by simp, by simp⟩
    cases digits with
    | nil => simp
    | cons c digits =>
      have hall : (c :: digits).all Char.isDigit = true := List.all_eq_true.mpr hdigits
      simp only [List.isEmpty_cons, hall, Bool.not_true, Bool.or_false, Bool.false_eq_true, if_false, hspell, hform,
        Option.some.injEq, ne_eq, List.cons_ne_nil, not_false_eq_true, true_and, and_iff_right hdigits]
      exact eq_comm
  · have hall : digits.all Char.isDigit = false := by
      rw [← Bool.not_eq_true, List.all_eq_true]
      exact hdigits
    simp [hall, hdigits]

/-- An optionally signed decimal is read as its integer, and nothing else is. -/
theorem parseDecimal_eq_some {text : List Char} {n : JsBigInt} :
    parseDecimal text = .some n ↔ ∃ z, Signed text z ∧ n = ofInt z := by
  have hsign : ∀ {c : Char} {rest : List Char} {z : ℤ}, (c = '+' ∨ c = '-') → Signed (c :: rest) z →
      rest ≠ [] ∧ (∀ d ∈ rest, d.isDigit = true) ∧
        z = if c = '-' then -(Nat.ofDigitChars 10 rest 0 : ℤ) else Nat.ofDigitChars 10 rest 0 :=
    fun {c rest z} hc h => by
      cases h with
      | bare hne hdigits =>
        have := hdigits c List.mem_cons_self
        rcases hc with rfl | rfl
        · exact absurd this (by decide)
        · exact absurd this (by decide)
      | plus hne hdigits => exact ⟨hne, hdigits, rfl⟩
      | minus hne hdigits => exact ⟨hne, hdigits, rfl⟩
  unfold parseDecimal
  rw [ofDecimal_eq_some]
  split
  · next rest =>
    constructor
    · rintro ⟨hne, hdigits, rfl⟩
      exact ⟨_, .plus hne hdigits, rfl⟩
    · rintro ⟨z, hz, rfl⟩
      obtain ⟨hne, hdigits, rfl⟩ := hsign (.inl rfl) hz
      exact ⟨hne, hdigits, rfl⟩
  · next rest =>
    constructor
    · rintro ⟨hne, hdigits, rfl⟩
      exact ⟨_, .minus hne hdigits, rfl⟩
    · rintro ⟨z, hz, rfl⟩
      obtain ⟨hne, hdigits, rfl⟩ := hsign (.inr rfl) hz
      exact ⟨hne, hdigits, rfl⟩
  · next hplus hminus =>
    have hhead : text.head? ≠ .some '-' := fun hhead => by
      obtain ⟨rest, rfl⟩ := List.head?_eq_some_iff.mp hhead
      exact hminus rest rfl
    simp only [hhead, decide_false, Bool.false_eq_true, if_false]
    constructor
    · rintro ⟨hne, hdigits, rfl⟩
      exact ⟨_, .bare hne hdigits, rfl⟩
    · rintro ⟨z, hz, rfl⟩
      cases hz with
      | bare hne hdigits => exact ⟨hne, hdigits, rfl⟩
      | plus hne hdigits => exact absurd rfl (hplus _)
      | minus hne hdigits => exact absurd rfl (hminus _)

/-- A literal of a radix is read as its integer, unless it is too long. -/
theorem parseRadix_spec {digits : List Char} {radix : Nat} (hradix : radix ≤ 16)
    (hsize : (String.ofList digits).utf8ByteSize ≤ maxJsBigintInputBytes) :
    ∃ r, (parseRadix digits radix : Exec ε (Option JsBigInt)) = .ok r ∧ ∀ n, r = .some n ↔
      digits ≠ [] ∧ ∃ values, digits.mapM (toDigit radix) = .some values ∧ n = ofInt (radixValue radix values 0) := by
  unfold parseRadix
  cases digits with
  | nil => exact ⟨.none, rfl, by simp⟩
  | cons c digits =>
  have hlong : ¬ maxJsBigintInputBytes < (String.ofList (c :: digits)).utf8ByteSize := by omega
  simp only [List.isEmpty_cons, Bool.false_or, decide_eq_true_eq, if_neg hlong]
  rcases limbsOf_spec (ε := ε) hradix (c :: digits) [0] limbs_zero with
    ⟨hnone, hrun⟩ | ⟨values, out, hsome, hrun, hout, hvalue⟩
  · exact ⟨.none, by rw [hrun]; rfl, by simp [hnone]⟩
  · refine ⟨.some ⟨false, render out⟩, by rw [hrun]; rfl, fun n => ?_⟩
    have hform : (⟨false, render out⟩ : JsBigInt) = ofInt (radixValue radix values 0) := by
      rw [render_eq hout, hvalue, ofInt, JsBigInt.mk.injEq]
      exact ⟨by simp, by simp [limbsValue]⟩
    rw [hform, hsome]
    simp only [Option.some.injEq, ne_eq, List.cons_ne_nil, not_false_eq_true, exists_eq_left', true_and]
    exact eq_comm

/-! ## Parsing -/

theorem marks_le {mark : Char} {radix : Nat} (h : (mark, radix) ∈ marks) : radix ≤ 16 ∧ mark.isDigit = false := by
  simp only [marks, List.mem_cons, Prod.mk.injEq, List.not_mem_nil, or_false] at h
  rcases h with ⟨rfl, rfl⟩ | ⟨rfl, rfl⟩ | ⟨rfl, rfl⟩ | ⟨rfl, rfl⟩ | ⟨rfl, rfl⟩ | ⟨rfl, rfl⟩ <;> decide

theorem marks_unique {mark : Char} {radix radix' : Nat} (h : (mark, radix) ∈ marks) (h' : (mark, radix') ∈ marks) :
    radix = radix' := by
  simp only [marks, List.mem_cons, Prod.mk.injEq, List.not_mem_nil, or_false] at h h'
  rcases h with ⟨rfl, rfl⟩ | ⟨rfl, rfl⟩ | ⟨rfl, rfl⟩ | ⟨rfl, rfl⟩ | ⟨rfl, rfl⟩ | ⟨rfl, rfl⟩ <;> simpa [eq_comm] using h'

/-- Behind a mark, only the digits of its radix make a literal. -/
theorem literal_mark_iff {mark : Char} {radix : Nat} {digits : List Char} (hmark : (mark, radix) ∈ marks) {z : ℤ} :
    Literal ('0' :: mark :: digits) z ↔
      digits ≠ [] ∧ ∃ values, digits.mapM (toDigit radix) = .some values ∧ z = radixValue radix values 0 := by
  constructor
  · intro h
    cases h with
    | decimal h =>
      cases h with
      | bare hne hdigits =>
        have := hdigits mark (by simp)
        rw [(marks_le hmark).2] at this
        cases this
    | radix hmark' hne hvalues =>
      obtain rfl := marks_unique hmark hmark'
      exact ⟨hne, _, hvalues, rfl⟩
  · rintro ⟨hne, values, hvalues, rfl⟩
    exact .radix hmark hne hvalues

/-- Without a mark, only signed decimals and the empty text are literals. -/
theorem literal_iff_signed {text : List Char} (hne : text ≠ [])
    (hmark : ∀ mark radix digits, (mark, radix) ∈ marks → text ≠ '0' :: mark :: digits) {z : ℤ} :
    Literal text z ↔ Signed text z := by
  constructor
  · intro h
    cases h with
    | empty => exact absurd rfl hne
    | decimal h => exact h
    | radix hm _ _ => exact absurd rfl (hmark _ _ _ hm)
  · exact .decimal

/-- What is trimmed away only shortens a text. -/
theorem jsTrim_size {text : String} (front : List Char) {digits : List Char}
    (h : jsTrim text.toList = front ++ digits) : (String.ofList digits).utf8ByteSize ≤ text.utf8ByteSize := by
  have hinfix : jsTrim text.toList <:+: text.toList := by
    have hsuffix : text.toList.dropWhile jsSpace <:+ text.toList := List.dropWhile_suffix _
    have hprefix : jsTrim text.toList <+: text.toList.dropWhile jsSpace := by
      rw [jsTrim, ← List.reverse_suffix, List.reverse_reverse]
      exact List.dropWhile_suffix _
    exact hprefix.isInfix.trans hsuffix.isInfix
  obtain ⟨before, after, hsplit⟩ := hinfix
  have htext : text = String.ofList before ++ String.ofList front ++ String.ofList digits ++ String.ofList after := by
    rw [← String.toList_inj]
    simp only [String.toList_append, String.toList_ofList]
    rw [← hsplit, h]
    simp
  rw [htext]
  simp only [String.utf8ByteSize_append]
  omega

/-- **The parser returns, and the form it returns is that of the integer its
text denotes.** -/
theorem parse_spec (text : String) : ∃ r, (parse text : Exec ε (Option JsBigInt)) = .ok r ∧
    ∀ n, r = .some n ↔
      text.utf8ByteSize ≤ maxJsBigintInputBytes ∧ ∃ z, Literal (jsTrim text.toList) z ∧ n = ofInt z := by
  unfold parse
  split
  · next hlong => exact ⟨.none, rfl, fun n => iff_of_false (by simp) fun h => absurd hlong (by omega)⟩
  next hshort =>
  have hsize : text.utf8ByteSize ≤ maxJsBigintInputBytes := by omega
  generalize htrim : jsTrim text.toList = trimmed
  have hradix : ∀ {mark : Char} (radix : Nat) {digits : List Char}, (mark, radix) ∈ marks →
      jsTrim text.toList = '0' :: mark :: digits →
      ∃ r, (parseRadix digits radix : Exec ε (Option JsBigInt)) = .ok r ∧ ∀ n, r = .some n ↔
        text.utf8ByteSize ≤ maxJsBigintInputBytes ∧ ∃ z, Literal ('0' :: mark :: digits) z ∧ n = ofInt z :=
    fun {mark} radix {digits} hmark htrim => by
      have hdigits : (String.ofList digits).utf8ByteSize ≤ maxJsBigintInputBytes :=
        (jsTrim_size ['0', mark] htrim).trans hsize
      obtain ⟨r, hr, hiff⟩ := parseRadix_spec (ε := ε) (marks_le hmark).1 hdigits
      refine ⟨r, hr, fun n => (hiff n).trans ?_⟩
      simp only [literal_mark_iff hmark]
      constructor
      · rintro ⟨hne, values, hvalues, rfl⟩
        exact ⟨hsize, _, ⟨hne, values, hvalues, rfl⟩, rfl⟩
      · rintro ⟨-, z, ⟨hne, values, hvalues, rfl⟩, rfl⟩
        exact ⟨hne, values, hvalues, rfl⟩
  split
  · exact hradix 16 (by decide) htrim
  · exact hradix 16 (by decide) htrim
  · exact hradix 8 (by decide) htrim
  · exact hradix 8 (by decide) htrim
  · exact hradix 2 (by decide) htrim
  · exact hradix 2 (by decide) htrim
  · refine ⟨_, rfl, fun n => ⟨fun h => ⟨hsize, 0, .empty, ?_⟩, ?_⟩⟩
    · cases h
      rfl
    · rintro ⟨-, z, hz, rfl⟩
      cases hz with
      | empty => rfl
      | decimal h =>
        cases h with
        | bare hne _ => exact absurd rfl hne
  · next hx hX ho hO hb hB hnil =>
    refine ⟨_, rfl, fun n => parseDecimal_eq_some.trans ?_⟩
    have hmark : ∀ mark radix digits, (mark, radix) ∈ marks → trimmed ≠ '0' :: mark :: digits :=
      fun mark radix digits hm htrim => by
        simp only [marks, List.mem_cons, Prod.mk.injEq, List.not_mem_nil, or_false] at hm
        rcases hm with ⟨rfl, -⟩ | ⟨rfl, -⟩ | ⟨rfl, -⟩ | ⟨rfl, -⟩ | ⟨rfl, -⟩ | ⟨rfl, -⟩
        · exact hx _ htrim
        · exact hX _ htrim
        · exact ho _ htrim
        · exact hO _ htrim
        · exact hb _ htrim
        · exact hB _ htrim
    simp only [literal_iff_signed hnil hmark, hsize, true_and]

theorem parse_eq_some {text : String} {n : JsBigInt} : (parse text : Exec ε (Option JsBigInt)) = .ok (.some n) ↔
    text.utf8ByteSize ≤ maxJsBigintInputBytes ∧ ∃ z, Literal (jsTrim text.toList) z ∧ n = ofInt z := by
  obtain ⟨r, hr, hiff⟩ := parse_spec (ε := ε) text
  rw [hr, Except.ok.injEq, hiff]

/-- One text denotes one integer. -/
theorem Literal.unique {text : List Char} {y z : ℤ} (hy : Literal text y) (hz : Literal text z) : y = z := by
  have hsigned : ∀ {x : ℤ}, Signed text x → parseDecimal text = .some (ofInt x) := fun h =>
    parseDecimal_eq_some.mpr ⟨_, h, rfl⟩
  cases hy with
  | empty =>
    cases hz with
    | empty => rfl
    | decimal h =>
      cases h with
      | bare hne _ => exact absurd rfl hne
  | decimal hy =>
    cases hz with
    | empty =>
      cases hy with
      | bare hne _ => exact absurd rfl hne
    | decimal hz => exact ofInt_injective (Option.some.inj ((hsigned hy).symm.trans (hsigned hz)))
    | @radix mark _ _ _ hmark _ _ =>
      cases hy with
      | bare _ hdigits => exact absurd (hdigits mark (by simp)) (by simp [(marks_le hmark).2])
  | radix hmark hne hvalues =>
    obtain ⟨-, values', hvalues', rfl⟩ := (literal_mark_iff hmark).mp hz
    rw [hvalues] at hvalues'
    cases hvalues'
    rfl

/-- **`JsBigInt` is exact integer arithmetic on canonical decimals.** The parser
returns, and no product or sum of its limbs overflows; it takes just the texts
that are literals once trimmed, and what it returns denotes their integer; the
form is canonical, so one integer has one form, and forms are ordered as their
integers. -/
theorem parse_exact :
    (∀ text : String, (parse text : Exec Empty (Option JsBigInt)).Returns) ∧
    (∀ text : String, text.utf8ByteSize ≤ maxJsBigintInputBytes →
      ((∃ n, (parse text : Exec Empty (Option JsBigInt)) = .ok (.some n)) ↔ ∃ z, Literal (jsTrim text.toList) z)) ∧
    (∀ text n, (parse text : Exec Empty (Option JsBigInt)) = .ok (.some n) →
      (∀ z, Literal (jsTrim text.toList) z → n.toInt = z) ∧
      n.digits ≠ [] ∧ (∀ c ∈ n.digits, c.isDigit = true) ∧ (n.digits.head? = .some '0' → n.digits = ['0']) ∧
      (n.toInt = 0 → n.negative = false)) ∧
    (∀ a b m n, (parse a : Exec Empty (Option JsBigInt)) = .ok (.some m) →
      (parse b : Exec Empty (Option JsBigInt)) = .ok (.some n) →
      (m.toInt = n.toInt → m = n) ∧ (m.ge n = true ↔ n.toInt ≤ m.toInt)) := by
  refine ⟨fun text => ?_, fun text hsize => ?_, fun text n h => ?_, fun a b m n hm hn => ?_⟩
  · obtain ⟨r, hr, -⟩ := parse_spec (ε := Empty) text
    rw [hr]
    exact Exec.returns_ok r
  · constructor
    · rintro ⟨n, hn⟩
      obtain ⟨-, z, hz, -⟩ := parse_eq_some.mp hn
      exact ⟨z, hz⟩
    · rintro ⟨z, hz⟩
      exact ⟨ofInt z, parse_eq_some.mpr ⟨hsize, z, hz, rfl⟩⟩
  · obtain ⟨-, z, hz, rfl⟩ := parse_eq_some.mp h
    obtain ⟨hne, hdigits, hzero⟩ := ofInt_canonical z
    refine ⟨fun y hy => ?_, hne, hdigits, fun hhead => by rw [hzero hhead], fun hvalue => ?_⟩
    · rw [toInt_ofInt]
      exact hz.unique hy
    · rw [toInt_ofInt] at hvalue
      rw [hvalue]
      rfl
  · obtain ⟨-, y, -, rfl⟩ := parse_eq_some.mp hm
    obtain ⟨-, z, -, rfl⟩ := parse_eq_some.mp hn
    rw [toInt_ofInt, toInt_ofInt]
    exact ⟨fun h => by rw [h], ge_ofInt y z⟩

/-- Trimmed, marked and in hexadecimal. -/
theorem parse_hex : ∃ n, (parse " 0x1f " : Exec Empty (Option JsBigInt)) = .ok (.some n) ∧ n.toInt = 31 := by
  have htrim : jsTrim " 0x1f ".toList = ['0', 'x', '1', 'f'] := by decide
  have hliteral : Literal (jsTrim " 0x1f ".toList) 31 := by
    have hvalues : ['1', 'f'].mapM (toDigit 16) = .some [1, 15] := by decide
    rw [htrim]
    exact .radix (by decide) (by decide) hvalues
  obtain ⟨n, hn⟩ := (parse_exact.2.1 " 0x1f " (by decide)).mpr ⟨31, hliteral⟩
  exact ⟨n, hn, (parse_exact.2.2.1 _ n hn).1 31 hliteral⟩

end JsBigInt

end Pillar.Canton
