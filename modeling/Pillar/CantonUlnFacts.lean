/-
When Canton's requirement is the one that the library's config holds: the answers
that lead to "not signed yet", and the confirmations that a double keeps.
-/
import Pillar.CantonUln
import Pillar.JsNumber

namespace Pillar.Canton

open Text
open JsBigInt (marks radixValue)
open PacketSent (LzSentEvent)

/-! ## What a value denotes -/

/-- A whole number that is not negative, as a JSON number, as a decimal, or with
a mark of its radix. -/
inductive Denotes : Json → Nat → Prop
  | integer (n : UInt64) : Denotes (.number (.posInt n)) n.toNat
  | float {bits : UInt64} {n : Nat} (h : Double.ofBits bits = .finite n) : Denotes (.number (.float bits)) n
  | decimal {text : String} {s : DecimalSyntax} {n : Nat} (htext : jsTrim text.toList = s.text)
      (hvalue : s.value = n) : Denotes (.string text) n
  | radix {text : String} {mark : Char} {radix : Nat} {digits : List Char} {values : List Nat}
      (hmark : (mark, radix) ∈ marks) (hne : digits ≠ []) (hvalues : digits.mapM (toDigit radix) = .some values)
      (htext : jsTrim text.toList = '0' :: mark :: digits) : Denotes (.string text) (radixValue radix values 0)

/-- What of it is left by way of a double: nothing is lost of a number that a
double holds, and of a text that is not too long. -/
def Kept : Json → Nat → Prop
  | .number (.float _), n => n < 2 ^ 64
  | .string text, n => castU64 (.ofNat n) = n ∧ (fits text ∨ n = 0)
  | _, n => castU64 (.ofNat n) = n

theorem castU64_finite (n : Nat) : castU64 (.finite n) = min n (2 ^ 64 - 1) := by
  rw [castU64, Int.floor_natCast, Int.toNat_natCast]

/-- Numbers of at most 53 bits are kept. -/
theorem castU64_ofNat {n : Nat} (h : n < 2 ^ 53) : castU64 (.ofNat n) = n := by
  rw [Double.ofNat_eq h, castU64_finite]
  omega

theorem castU64_finite_eq {n : Nat} : castU64 (.finite n) = n ↔ n < 2 ^ 64 := by
  rw [castU64_finite]
  omega

/-- **A number is kept by the cast just when a double keeps it.** -/
theorem castU64_eq_iff {jsNumber : JsonNumber → String} {value : Json} {n : Nat} (h : Denotes value n) :
    castU64 (jsValueToNumber jsNumber value) = n ↔ Kept value n := by
  cases h with
  | integer n => rfl
  | float hbits =>
    rw [jsValueToNumber, JsonNumber.asF64, hbits]
    exact castU64_finite_eq
  | @decimal text s n htext hvalue =>
    have hfits : fits text := by
      intro mark radix digits hmark htext'
      rw [htext] at htext'
      refine absurd ?_ (s.not_marked htext')
      simp only [marks, List.mem_cons, Prod.mk.injEq, List.not_mem_nil, or_false] at hmark ⊢
      tauto
    rw [jsValueToNumber, jsStringToNumber_decimal htext, hvalue]
    exact ⟨fun hkept => ⟨hkept, .inl hfits⟩, And.left⟩
  | @radix text mark radix digits values hmark hne hvalues htext =>
    rw [jsValueToNumber, jsStringToNumber_radix hmark hne hvalues htext]
    by_cases hsize : (String.ofList digits).utf8ByteSize ≤ maxJsBigintInputBytes
    · rw [if_pos hsize]
      have hfits : fits text := by
        intro mark' radix' digits' _ htext'
        obtain ⟨-, hcons⟩ := List.cons.inj (htext.symm.trans htext')
        obtain ⟨-, rfl⟩ := List.cons.inj hcons
        exact hsize
      exact ⟨fun hkept => ⟨hkept, .inl hfits⟩, And.left⟩
    · rw [if_neg hsize]
      constructor
      · intro hzero
        rw [← hzero]
        exact ⟨castU64_ofNat (by decide), .inr rfl⟩
      · rintro ⟨-, hfits | hzero⟩
        · exact absurd (hfits mark radix digits hmark htext) hsize
        · rw [hzero]
          rfl

/-! ## What leads to "not signed yet" -/

variable {jsNumber : JsonNumber → String} {jsNumberF64 : Double → String}

theorem throwInternal_eq_ok {α : Type} {x : Exec String α} {a : α} : throwInternal x = .ok a ↔ x = .ok a := by
  rcases x with (_ | _ | _) | b
  · exact ⟨fun h => (by cases h), fun h => (by cases h)⟩
  · exact ⟨fun h => (by cases h), fun h => (by cases h)⟩
  · exact ⟨fun h => (by cases h), fun h => (by cases h)⟩
  · exact ⟨fun h => by cases h; rfl, fun h => by cases h; rfl⟩

theorem ofExcept_eq_ok {ε α : Type} {x : Except ε α} {a : α} : ofExcept x = .ok a ↔ x = .ok a := by
  cases x with
  | ok b => exact ⟨fun h => by cases h; rfl, fun h => by cases h; rfl⟩
  | error e => exact ⟨fun h => (by cases h), fun h => (by cases h)⟩

theorem tryJoin_eq_ok {α β : Type} {secondFirst : Bool} {first : Exec AppCoreError α} {second : Exec AppCoreError β}
    {a : α} {b : β} : UlnEnv.tryJoin secondFirst first second = .ok (a, b) ↔ first = .ok a ∧ second = .ok b := by
  cases first with
  | ok a' =>
    cases second with
    | ok b' => simp [UlnEnv.tryJoin]
    | error e => simp [UlnEnv.tryJoin]
  | error e => cases second <;> simp [UlnEnv.tryJoin]

/-- The two lists of DVNs are lists of texts. -/
def DvnLists (config : Json) : Prop :=
  ∀ key ∈ ["requiredDvns", "optionalDvns"], ∃ names : List String, config.get key = .some (.array (names.map .string))

theorem dvnList_eq_ok {config : Json} {key : String} : dvnList config key = .ok () ↔
    ∃ names : List String, config.get key = .some (.array (names.map .string)) := by
  unfold dvnList
  constructor
  · intro h
    split at h
    · next items hitems =>
      refine ⟨items.filterMap Json.asStr, ?_⟩
      rw [hitems, List.map_filterMap]
      split at h
      · cases h
      · cases h
      · next hfind =>
        congr 2
        have hall := List.find?_eq_none.mp hfind
        clear hfind hitems
        induction items with
        | nil => rfl
        | cons item items ih =>
          obtain ⟨hitem, hitems⟩ := List.forall_mem_cons.mp hall
          cases item with
          | string text =>
            exact congrArg (Json.string text :: ·) (ih hitems)
          | _ => exact absurd rfl hitem
    · cases h
  · rintro ⟨names, hnames⟩
    have hfind : (names.map Json.string).find? (fun item => item.asStr.isNone) = .none := by
      rw [List.find?_eq_none]
      intro item hitem
      obtain ⟨name, -, rfl⟩ := List.mem_map.mp hitem
      exact Bool.false_ne_true
    rw [hnames]
    dsimp only
    rw [hfind]

theorem ulnConfigConfirmations_eq_ok {config : Json} {v : Double} :
    ulnConfigConfirmations jsNumber config = .ok v ↔ DvnLists config ∧ v = confirmationsNumber jsNumber config := by
  constructor
  · intro h
    obtain ⟨_, -, h⟩ := bindOk_iff.mp h
    obtain ⟨_, -, h⟩ := bindOk_iff.mp h
    obtain ⟨_, -, h⟩ := bindOk_iff.mp h
    obtain ⟨⟨⟩, hrequired, h⟩ := bindOk_iff.mp h
    obtain ⟨⟨⟩, hoptional, h⟩ := bindOk_iff.mp h
    refine ⟨?_, (Except.ok.inj h).symm⟩
    intro key hkey
    rcases List.mem_pair.mp hkey with rfl | rfl
    · exact dvnList_eq_ok.mp hrequired
    · exact dvnList_eq_ok.mp hoptional
  · rintro ⟨hlists, rfl⟩
    obtain ⟨required, hrequired⟩ := hlists "requiredDvns" List.mem_cons_self
    obtain ⟨optional, hoptional⟩ := hlists "optionalDvns" (List.mem_cons_of_mem _ List.mem_cons_self)
    have hconfig : ∃ value, propertyOf (.some config) "confirmations" = .ok value := by
      cases config with
      | null => cases hrequired
      | _ => exact ⟨_, rfl⟩
    obtain ⟨value, hvalue⟩ := hconfig
    rw [ulnConfigConfirmations, hvalue, dvnList_eq_ok.mpr ⟨required, hrequired⟩,
      dvnList_eq_ok.mpr ⟨optional, hoptional⟩, hrequired, hoptional]
    rfl

/-- A state that is known, and is not "verified". -/
def Unverified (jsNumber : JsonNumber → String) (state : Json) : Prop :=
  jsValueToNumber jsNumber state ∈ [Double.finite 0, .finite 1, .finite 3, .finite 4]

theorem verified_eq_false {state : Json} :
    verified jsNumber jsNumberF64 state = .ok false ↔ Unverified jsNumber state := by
  rw [verified, throwInternal_eq_ok, ofExcept_eq_ok, verificationStateIsVerified, Unverified]
  split_ifs with htwo hother
  · rw [htwo]
    exact iff_of_false (by simp) (by decide)
  · exact iff_of_true rfl hother
  · exact iff_of_false (by simp) hother

/-- The DVN has no record, or one of fewer confirmations than are required. -/
def Unconfirmed (jsNumber : JsonNumber → String) (jsNumberF64 : Double → String) (config lookup : Json) : Prop :=
  lookup ≠ .null ∧ (isTruthy (lookup.get "submitted") = true → ∃ value confirmations required,
    lookup.get "confirmations" = .some value ∧ jsValueToBigint jsNumber jsNumberF64 value = .ok confirmations ∧
    jsF64ToBigint jsNumberF64 (confirmationsNumber jsNumber config) = .ok required ∧
    confirmations.ge required = false)

theorem dvnConfirmed_eq_false {config lookup : Json} :
    dvnConfirmed jsNumber jsNumberF64 (confirmationsNumber jsNumber config) lookup = .ok false ↔
      Unconfirmed jsNumber jsNumberF64 config lookup := by
  rw [dvnConfirmed, throwInternal_eq_ok]
  by_cases hnull : lookup = .null
  · subst hnull
    exact iff_of_false (by intro h; cases h) fun h => h.1 rfl
  · have hread : propertyOf (.some lookup) "submitted" = .ok (lookup.get "submitted") := by
      cases lookup with
      | null => exact absurd rfl hnull
      | _ => rfl
    rw [hread, ofExcept, Exec.ok_bind, Unconfirmed]
    cases hsubmitted : isTruthy (lookup.get "submitted") with
    | false => exact iff_of_true rfl ⟨hnull, fun h => by cases h⟩
    | true =>
      rw [Bool.not_true, if_neg Bool.false_ne_true]
      constructor
      · intro h
        refine ⟨hnull, fun _ => ?_⟩
        obtain ⟨confirmations, hconfirmations, h⟩ := Exec.bind_ok_iff.mp h
        obtain ⟨required, hrequired, h⟩ := Exec.bind_ok_iff.mp h
        cases hvalue : lookup.get "confirmations" with
        | none =>
          rw [hvalue] at hconfirmations
          cases hconfirmations
        | some value =>
          rw [hvalue] at hconfirmations
          exact ⟨value, confirmations, required, rfl, hconfirmations, hrequired, Except.ok.inj h⟩
      · rintro ⟨-, h⟩
        obtain ⟨value, confirmations, required, hvalue, hconfirmations, hrequired, hless⟩ := h rfl
        rw [hvalue, Option.elim_some, hconfirmations, Exec.ok_bind, hrequired, Exec.ok_bind, hless]
        rfl

/-! ## `canton_payload_signed` -/

namespace UlnEnv

variable {env : UlnEnv}

/-- What the sequencer answers to the three reads. -/
structure Answers (env : UlnEnv) (sentEvent : LzSentEvent) (verifierAddress : String) (config lookup state : Json) :
    Prop where
  config : env.ulnConfig sentEvent = .ok config
  packet : ∃ arguments, env.packetArguments sentEvent verifierAddress = .ok arguments ∧
    env.read "getHashLookup" arguments.1 = .ok lookup ∧ env.read "getVerificationState" arguments.2 = .ok state

/-- **What "not signed yet" says**: the lists are lists, the state is another one
than "verified", the DVN has not confirmed; and the requirement is the cast of
the confirmations. -/
theorem cantonPayloadSigned_eq_false {stateFirst : Bool} {sentEvent : LzSentEvent} {verifierAddress : String}
    {r : Nat} : env.cantonPayloadSigned stateFirst sentEvent verifierAddress = .ok (false, r) ↔
      ∃ config lookup state, env.Answers sentEvent verifierAddress config lookup state ∧ DvnLists config ∧
        Unverified env.jsNumber state ∧ Unconfirmed env.jsNumber env.jsNumberF64 config lookup ∧
        r = castU64 (confirmationsNumber env.jsNumber config) := by
  constructor
  · intro h
    obtain ⟨config, hconfig, h⟩ := Exec.bind_ok_iff.mp h
    obtain ⟨required, hrequired, h⟩ := Exec.bind_ok_iff.mp h
    obtain ⟨arguments, harguments, h⟩ := Exec.bind_ok_iff.mp h
    obtain ⟨⟨confirmed, state⟩, hjoin, h⟩ := Exec.bind_ok_iff.mp h
    obtain ⟨hlists, rfl⟩ := ulnConfigConfirmations_eq_ok.mp (ofExcept_eq_ok.mp (throwInternal_eq_ok.mp hrequired))
    obtain ⟨hfirst, hsecond⟩ := tryJoin_eq_ok.mp hjoin
    obtain ⟨lookup, hlookup, hfirst⟩ := Exec.bind_ok_iff.mp hfirst
    obtain ⟨stateAnswer, hstate, hsecond⟩ := Exec.bind_ok_iff.mp hsecond
    obtain ⟨hor, rfl⟩ := Prod.mk.inj (Except.ok.inj h)
    obtain ⟨rfl, rfl⟩ := Bool.or_eq_false_iff.mp hor
    exact ⟨config, lookup, stateAnswer, ⟨hconfig, arguments, harguments, hlookup, hstate⟩, hlists,
      verified_eq_false.mp hsecond, dvnConfirmed_eq_false.mp hfirst, rfl⟩
  · rintro ⟨config, lookup, state, ⟨hconfig, arguments, harguments, hlookup, hstate⟩, hlists, hunverified, hunconfirmed,
      rfl⟩
    rw [cantonPayloadSigned, hconfig, Exec.ok_bind, ulnConfigConfirmations_eq_ok.mpr ⟨hlists, rfl⟩]
    dsimp only [ofExcept, throwInternal]
    rw [Exec.ok_bind, harguments, Exec.ok_bind]
    rw [hlookup, Exec.ok_bind, dvnConfirmed_eq_false.mpr hunconfirmed, hstate, Exec.ok_bind,
      verified_eq_false.mpr hunverified]
    rfl

/-- **The requirement is the config's own just when a double keeps it**: wherever
the answers lead to "not signed yet", the confirmations are there, denote a whole
number that is not negative, and lose nothing by way of a double and a `u64`. -/
theorem requirement_kept_iff (env : UlnEnv) (stateFirst : Bool) (sentEvent : LzSentEvent) (verifierAddress : String) :
    (∀ r, env.cantonPayloadSigned stateFirst sentEvent verifierAddress = .ok (false, r) →
      ∃ config value, env.ulnConfig sentEvent = .ok config ∧ config.get "confirmations" = .some value ∧
        Denotes value r) ↔
    ∀ config lookup state, env.Answers sentEvent verifierAddress config lookup state → DvnLists config →
      Unverified env.jsNumber state → Unconfirmed env.jsNumber env.jsNumberF64 config lookup →
      ∃ value n, config.get "confirmations" = .some value ∧ Denotes value n ∧ Kept value n := by
  constructor
  · intro h config lookup state hanswers hlists hunverified hunconfirmed
    obtain ⟨config', value, hconfig', hvalue, hdenotes⟩ := h _ (cantonPayloadSigned_eq_false.mpr
      ⟨config, lookup, state, hanswers, hlists, hunverified, hunconfirmed, rfl⟩)
    obtain rfl := Except.ok.inj (hanswers.config.symm.trans hconfig')
    have hnumber : confirmationsNumber env.jsNumber config = jsValueToNumber env.jsNumber value := by
      rw [confirmationsNumber, hvalue]
    rw [hnumber] at hdenotes
    exact ⟨value, _, hvalue, hdenotes, (castU64_eq_iff hdenotes).mp rfl⟩
  · intro h r hr
    obtain ⟨config, lookup, state, hanswers, hlists, hunverified, hunconfirmed, rfl⟩ :=
      cantonPayloadSigned_eq_false.mp hr
    obtain ⟨value, n, hvalue, hdenotes, hkept⟩ := h config lookup state hanswers hlists hunverified hunconfirmed
    refine ⟨config, value, hanswers.config, hvalue, ?_⟩
    rw [confirmationsNumber, hvalue]
    dsimp only
    rw [(@castU64_eq_iff env.jsNumber value n hdenotes).mpr hkept]
    exact hdenotes

/-! ### A config without confirmations -/

/-- Renderings that do not matter, and a sequencer with one answer per function. -/
def answering (config lookup state : Json) : UlnEnv where
  packet :=
    { hex := .plain, bs58 := fun _ => .error "", keccak256 := fun _ => ⟨List.replicate 32 0, Abi.Bytes.length_zeros⟩ }
  jsNumber _ := ""
  jsNumberF64 _ := ""
  renderedAddress _ raw := raw
  sequencerRead _ function _ _ := .ok (.ok (
    if function = "getUlnConfig" then config else if function = "getHashLookup" then lookup else state))

def zeroAddress : String := "0x0000000000000000000000000000000000000000000000000000000000000000"

def cantonEvent : LzSentEvent where
  lzMessageId :=
    { pathwayId := ⟨"ethereum", "canton", [("srcEid", .number (.posInt 30101)), ("dstEid", .number (.posInt 30200)),
        ("sender", .string zeroAddress), ("receiver", .string zeroAddress)]⟩
      nonce := 1
      ulnSendVersion := .string "V302" }
  message := "0x"
  txHash := ""
  sourceEvidence := .none
  extra := [("guid", .string zeroAddress)]

def bareConfig : Json := .object [("optionalDvns", .array []), ("requiredDvns", .array [])]

def bareEnv : UlnEnv := answering bareConfig (.object [("submitted", .bool false)]) (.number (.posInt 0))

theorem packetArguments_bareEnv : ∃ arguments, bareEnv.packetArguments cantonEvent "dvn" = .ok arguments := by
  have hread : (bareEnv.packetArguments cantonEvent "dvn").toBool = true := by decide +kernel
  cases h : bareEnv.packetArguments cantonEvent "dvn" with
  | ok arguments => exact ⟨arguments, rfl⟩
  | error e =>
    rw [h] at hread
    cases hread

/-- A config without confirmations requires none. -/
theorem requirement_of_bareConfig : bareEnv.ulnConfig cantonEvent = .ok bareConfig ∧
    bareConfig.get "confirmations" = .none ∧
    bareEnv.cantonPayloadSigned false cantonEvent "dvn" = .ok (false, 0) := by
  have hconfig : bareEnv.ulnConfig cantonEvent = .ok bareConfig := rfl
  obtain ⟨arguments, harguments⟩ := packetArguments_bareEnv
  refine ⟨hconfig, rfl, cantonPayloadSigned_eq_false.mpr ⟨bareConfig, .object [("submitted", .bool false)],
    .number (.posInt 0), ⟨hconfig, arguments, harguments, rfl, rfl⟩, ?_, ?_, ?_, rfl⟩⟩
  · intro key hkey
    rcases List.mem_pair.mp hkey with rfl | rfl
    · exact ⟨[], rfl⟩
    · exact ⟨[], rfl⟩
  · have hzero : jsValueToNumber bareEnv.jsNumber (.number (.posInt 0)) = .finite 0 :=
      Double.ofNat_eq (n := 0) (by decide)
    rw [Unverified, hzero]
    exact List.mem_cons_self
  · exact ⟨fun h => (by cases h), fun h => (by cases h)⟩

end UlnEnv

end Pillar.Canton
