/-
Whether a request's expiration is in range (`pillar-core`, `lib.rs`, and
`pillar-runtime`, `validation.rs`), against the destination chain's time as its
providers agree on it (`layerzero_runtime/validation_timestamp.rs`).

Providers vote with the class of their timestamp, never with the timestamp, and
the verdict is then computed from the one timestamp the vote returns. Reading a
provider's answer is a parameter: it is any timestamp, none, or any error.
-/
import Pillar.ProviderPool
import Pillar.QuorumFacts
import Pillar.Text

namespace Pillar.Expiration

open Provider
open Quorum (Observation Wins Recoverable MetBy resolveProviderQuorumForIndices)

/-! ## `i64` -/

def inI64 (n : Int) : Bool := -2 ^ 63 ≤ n && n < 2 ^ 63

def i64 (n : Int) : Option Int64 := if inI64 n then .some (Int64.ofInt n) else .none

/-- `i64::checked_add`. -/
def checkedAddI64 (a b : Int64) : Option Int64 := i64 (a.toInt + b.toInt)

/-- `i64::checked_sub`. -/
def checkedSubI64 (a b : Int64) : Option Int64 := i64 (a.toInt - b.toInt)

theorem inI64_iff {n : Int} : inI64 n = true ↔ -2 ^ 63 ≤ n ∧ n < 2 ^ 63 := by
  simp [inI64]

theorem i64_of_inI64 {n : Int} (h : inI64 n = true) : ∃ m : Int64, i64 n = .some m ∧ m.toInt = n := by
  obtain ⟨hlo, hhi⟩ := inI64_iff.mp h
  exact ⟨Int64.ofInt n, if_pos h, Int64.toInt_ofInt_of_le hlo hhi⟩

theorem inI64_toInt (a : Int64) : -2 ^ 63 ≤ a.toInt ∧ a.toInt < 2 ^ 63 := ⟨a.le_toInt, a.toInt_lt⟩

/-! ## Classes -/

inductive TimestampValidity where
  | valid
  | tooEarly
  | tooLate
  | missing
  deriving Repr, DecidableEq

/-- `Debug`. -/
def TimestampValidity.debug : TimestampValidity → String
  | .valid => "Valid"
  | .tooEarly => "TooEarly"
  | .tooLate => "TooLate"
  | .missing => "Missing"

theorem TimestampValidity.debug_injective : Function.Injective debug := by
  intro v w h
  cases v <;> cases w <;> first | rfl | exact absurd h (by decide)

structure ExpirationValidRange where
  min : Int64
  max : Int64

def timestampValidity (timestamp : Option Int64) (validRange : ExpirationValidRange) : TimestampValidity :=
  match timestamp with
  | .none => .missing
  | .some timestamp =>
    if timestamp < validRange.min then .tooEarly
    else if validRange.max < timestamp then .tooLate
    else .valid

/-! ## Verdicts -/

def expiredTimestampErrorPrefix : String := "Expiration has already passed"
def tooFarErrorPrefix : String := "expiration is too far in the future"

def outsideRange (expiration : Int64) : AppCoreError :=
  .badRequest ("expiration is outside supported range: expiration=" ++ toString expiration.toInt)

def expired (expiration currentTimestamp : Int64) : AppCoreError :=
  .badRequest (expiredTimestampErrorPrefix ++ (": expiration=" ++ toString expiration.toInt ++
    ", currentTimestamp=" ++ toString currentTimestamp.toInt))

def tooFar (expiration maxAllowed : Int64) : AppCoreError :=
  .badRequest (tooFarErrorPrefix ++ (": expiration=" ++ toString expiration.toInt ++
    ", maxAllowed=" ++ toString maxAllowed.toInt))

def validateExpirationBounds (expiration currentTimestamp maximumExpiration gracePeriod : Int64) :
    Exec AppCoreError Unit :=
  match checkedAddI64 expiration gracePeriod with
  | .none => Exec.err (outsideRange expiration)
  | .some effectiveExpiration =>
    if effectiveExpiration < currentTimestamp then Exec.err (expired expiration currentTimestamp)
    else
      match checkedAddI64 currentTimestamp maximumExpiration with
      | .none => Exec.err (.internal "Expiration validation range overflow")
      | .some maxAllowed =>
        if maxAllowed < expiration then Exec.err (tooFar expiration maxAllowed) else return

/-- How a check of an expiration ends, told by its error's first words. -/
inductive Verdict where
  | passed
  | expired
  | tooFar
  | other
  deriving Repr, DecidableEq

def verdict : Exec AppCoreError Unit → Verdict
  | .ok () => .passed
  | .error (.err (.badRequest message)) =>
    if (Text.stripPrefix expiredTimestampErrorPrefix message).isSome then .expired
    else if (Text.stripPrefix tooFarErrorPrefix message).isSome then .tooFar
    else .other
  | _ => .other

/-! ## The chain's time -/

/-- What the call reads: the chain's pool, what its Canton sequencer entries
amount to, the local clock, the providers a TON v3 read can ask, whether the
dispatch is refused, and each provider's timestamp. -/
structure TimestampReads where
  providerConfig : Except AppCoreError ProviderConfig
  cantonSequencer : ProviderConfig → Except AppCoreError Unit
  clock : Except AppCoreError Int64
  tonDispatch : ProviderConfig → Except AppCoreError (List Nat)
  dispatch : ProviderConfig → Except AppCoreError Unit
  timestamp : Nat → Except RpcError (Option Int64)

def lift {α : Type} : Except AppCoreError α → Exec AppCoreError α
  | .ok a => .ok a
  | .error e => Exec.err e

/-- A provider's vote: the class of its timestamp, with the timestamp. -/
def timestampVote (validRange : ExpirationValidRange) (timestamp : Except RpcError (Option Int64)) :
    Observation (TimestampValidity × Option Int64) :=
  timestamp.map fun timestamp =>
    .some ((timestampValidity timestamp validRange).debug, timestampValidity timestamp validRange, timestamp)

def noQuorum (chainName : String) : AppCoreError :=
  .internal ("No block timestamp quorum for chain " ++ chainName)

def unresolvedQuorum (chainName : String) : AppCoreError :=
  if chainName = "ton" then noQuorum chainName
  else .internal ("No block timestamp quorum for chain " ++ chainName ++
    ": provider responses are ambiguous or incomplete")

/-- The pool and whom it asks. Every provider of a pool is asked, but a TON one
only when it has a v3 endpoint. -/
def dispatched (reads : TimestampReads) (dstChainName : String) : Exec AppCoreError (ProviderConfig × List Nat) := do
  let config ← lift reads.providerConfig
  let quorum ← requiredProviderQuorum config dstChainName
  if dstChainName = "ton" then
    let indices ← lift (reads.tonDispatch quorum)
    return (quorum, indices)
  else
    lift (reads.dispatch quorum)
    return (quorum, List.range quorum.uris.length)

/-- The class agreed on, with one of the timestamps of that class. `arrival` is
the order in which those asked answer. -/
def agreedTimestamp (reads : TimestampReads) (arrival : List Nat → List Nat) (dstChainName : String)
    (validRange : ExpirationValidRange) : Exec AppCoreError (TimestampValidity × Option Int64) := do
  let (quorum, indices) ← dispatched reads dstChainName
  let requests := (arrival indices).map fun i => (i, timestampVote validRange (reads.timestamp i))
  match resolveProviderQuorumForIndices requests indices quorum.toProviderConfig
      ("block timestamp for chain " ++ dstChainName) with
  | .ok agreed => return agreed
  | .error (.err (.admission error)) => Exec.err (.admission error)
  | .error (.err _) => Exec.err (unresolvedQuorum dstChainName)
  | .error halt => .error halt

def currentBlockTimestampWithQuorum (reads : TimestampReads) (arrival : List Nat → List Nat) (dstChainName : String)
    (validRange : ExpirationValidRange) : Exec AppCoreError Int64 := do
  -- Canton's answer is the local clock, once its provider is built.
  if dstChainName = "canton" then
    lift (reads.cantonSequencer (← lift reads.providerConfig))
    lift reads.clock
  else
    let (agreedValidity, timestamp) ← agreedTimestamp reads arrival dstChainName validRange
    if agreedValidity = .missing then Exec.err (noQuorum dstChainName)
    else
      match timestamp with
      | .none => Exec.err (.internal ("No block timestamp value for chain " ++ dstChainName))
      | .some timestamp => return timestamp

/-- `RuntimeAppValidator`. -/
structure Validator where
  maximumExpiration : Int64
  maximumExpirationGracePeriod : Int64

def Validator.validRange (v : Validator) (expiration : Int64) : Exec AppCoreError ExpirationValidRange :=
  match checkedSubI64 expiration v.maximumExpiration, checkedAddI64 expiration v.maximumExpirationGracePeriod with
  | .some min, .some max => return { min, max }
  | _, _ => Exec.err (outsideRange expiration)

def Validator.validateExpiration (v : Validator) (reads : TimestampReads) (arrival : List Nat → List Nat)
    (dstChainName : String) (expiration : Int64) : Exec AppCoreError Unit := do
  let validRange ← v.validRange expiration
  let currentTimestamp ← currentBlockTimestampWithQuorum reads arrival dstChainName validRange
  validateExpirationBounds expiration currentTimestamp v.maximumExpiration v.maximumExpirationGracePeriod

/-! ## What a class decides -/

/-- What is left of the verdict once the class of a timestamp is known. -/
def TimestampValidity.verdict : TimestampValidity → Verdict
  | .valid => .passed
  | .tooEarly => .tooFar
  | .tooLate => .expired
  | .missing => .other

theorem verdict_expired (expiration currentTimestamp : Int64) :
    verdict (Exec.err (expired expiration currentTimestamp)) = .expired := by
  simp [verdict, Exec.err, expired]

theorem stripPrefix_tooFar (rest : String) :
    Text.stripPrefix expiredTimestampErrorPrefix (tooFarErrorPrefix ++ rest) = .none := by
  cases hs : Text.stripPrefix expiredTimestampErrorPrefix (tooFarErrorPrefix ++ rest) with
  | none => rfl
  | some rest' =>
    have heq := congrArg (fun s => s.toList.head?) (Text.stripPrefix_eq_some hs)
    simp [expiredTimestampErrorPrefix, tooFarErrorPrefix] at heq

theorem verdict_tooFar (expiration maxAllowed : Int64) :
    verdict (Exec.err (tooFar expiration maxAllowed)) = .tooFar := by
  simp [verdict, Exec.err, tooFar, stripPrefix_tooFar]

theorem verdict_eq_passed {x : Exec AppCoreError Unit} : verdict x = .passed ↔ x = .ok () := by
  unfold verdict
  split
  next => simp
  next => split <;> (try split) <;> simp
  next hne _ => simp only [reduceCtorEq, false_iff]; exact hne

variable {v : Validator} {expiration : Int64} {validRange : ExpirationValidRange}

/-- Bounds that stay inside `i64` on the way. -/
structure Validator.Fits (v : Validator) (expiration : Int64) : Prop where
  maximum : 0 ≤ v.maximumExpiration
  grace : 0 ≤ v.maximumExpirationGracePeriod
  low : inI64 (expiration.toInt - v.maximumExpiration.toInt) = true
  high : inI64 (expiration.toInt + v.maximumExpirationGracePeriod.toInt + v.maximumExpiration.toInt) = true

/-- The range a vote is held over. -/
structure Validator.Range (v : Validator) (expiration : Int64) (validRange : ExpirationValidRange) : Prop where
  returned : v.validRange expiration = .ok validRange
  min : validRange.min.toInt = expiration.toInt - v.maximumExpiration.toInt
  max : validRange.max.toInt = expiration.toInt + v.maximumExpirationGracePeriod.toInt

theorem toInt_nonneg {a : Int64} (h : 0 ≤ a) : 0 ≤ a.toInt := Int64.le_iff_toInt_le.mp h

theorem Validator.Fits.range (h : v.Fits expiration) : ∃ validRange, v.Range expiration validRange := by
  have hm := toInt_nonneg h.maximum
  have hg := toInt_nonneg h.grace
  have hhigh := inI64_iff.mp h.high
  have hexp := inI64_toInt expiration
  obtain ⟨min, hmin, hminInt⟩ := i64_of_inI64 h.low
  obtain ⟨max, hmax, hmaxInt⟩ := i64_of_inI64 (n := expiration.toInt + v.maximumExpirationGracePeriod.toInt)
    (inI64_iff.mpr ⟨by omega, by omega⟩)
  refine ⟨⟨min, max⟩, ?_, hminInt, hmaxInt⟩
  simp only [validRange, checkedSubI64, checkedAddI64, hmin, hmax]
  rfl

/-- **The class of a timestamp decides the verdict on it.** -/
theorem bounds_verdict (h : v.Fits expiration) (hr : v.Range expiration validRange) (t : Int64) :
    verdict (validateExpirationBounds expiration t v.maximumExpiration v.maximumExpirationGracePeriod) =
      (timestampValidity (.some t) validRange).verdict := by
  have hm := toInt_nonneg h.maximum
  have hg := toInt_nonneg h.grace
  have hlow := inI64_iff.mp h.low
  have hhigh := inI64_iff.mp h.high
  have hexp := inI64_toInt expiration
  have ht := inI64_toInt t
  obtain ⟨effective, heffective, heffectiveInt⟩ := i64_of_inI64
    (n := expiration.toInt + v.maximumExpirationGracePeriod.toInt) (inI64_iff.mpr ⟨by omega, by omega⟩)
  simp only [validateExpirationBounds, checkedAddI64, heffective, timestampValidity]
  have hmin := hr.min
  have hmax := hr.max
  by_cases hlate : effective < t
  · have hlate' := Int64.lt_iff_toInt_lt.mp hlate
    have hnotEarly : ¬ t < validRange.min := by
      rw [Int64.lt_iff_toInt_lt]
      omega
    have hmaxLate : validRange.max < t := by
      rw [Int64.lt_iff_toInt_lt]
      omega
    rw [if_pos hlate, if_neg hnotEarly, if_pos hmaxLate]
    exact verdict_expired expiration t
  · have hlate' : ¬ effective.toInt < t.toInt := fun hlt => hlate (Int64.lt_iff_toInt_lt.mpr hlt)
    have hnotLate : ¬ validRange.max < t := by
      rw [Int64.lt_iff_toInt_lt]
      omega
    -- Not past the end of the range, so the sum does not overflow.
    obtain ⟨maxAllowed, hallowed, hallowedInt⟩ := i64_of_inI64 (n := t.toInt + v.maximumExpiration.toInt)
      (inI64_iff.mpr ⟨by omega, by omega⟩)
    rw [if_neg hlate, hallowed, if_neg hnotLate]
    simp only
    by_cases hearly : maxAllowed < expiration
    · have hearly' := Int64.lt_iff_toInt_lt.mp hearly
      have hminEarly : t < validRange.min := by
        rw [Int64.lt_iff_toInt_lt]
        omega
      rw [if_pos hearly, if_pos hminEarly]
      exact verdict_tooFar expiration maxAllowed
    · have hearly' : ¬ maxAllowed.toInt < expiration.toInt := fun hlt => hearly (Int64.lt_iff_toInt_lt.mpr hlt)
      have hnotEarly : ¬ t < validRange.min := by
        rw [Int64.lt_iff_toInt_lt]
        omega
      rw [if_neg hearly, if_neg hnotEarly]
      rfl

/-! ## What a vote decides -/

variable {reads : TimestampReads} {arrival arrival' : List Nat → List Nat} {dstChainName : String}

theorem noCounts_eq (config : Quorum.ProviderConfig) : config.counts [] = noCounts := rfl

theorem requiredProviderQuorum_ok {config quorum : ProviderConfig} {chainName : String}
    (h : requiredProviderQuorum config chainName = .ok quorum) : quorum = config ∧ config.Valid := by
  rw [requiredProviderQuorum] at h
  rcases config.validate_spec with ⟨hok, hvalid⟩ | ⟨⟨e, herr⟩, -⟩
  · rw [hok] at h
    cases h
    exact ⟨rfl, hvalid⟩
  · rw [herr] at h
    cases h

/-- Nobody's votes never meet the rule of a dispatched pool. -/
theorem dispatched_agreement {quorum : ProviderConfig} {indices : List Nat}
    (h : dispatched reads dstChainName = .ok (quorum, indices)) : ¬ MetBy quorum.toProviderConfig [] := by
  obtain ⟨config, -, hconfig⟩ := Exec.bind_ok_iff.mp h
  obtain ⟨quorum', hquorum, hindices⟩ := Exec.bind_ok_iff.mp hconfig
  obtain ⟨hrule, hvalid⟩ := requiredProviderQuorum_ok hquorum
  have hsame : quorum = quorum' := by
    by_cases hton : dstChainName = "ton"
    · rw [if_pos hton] at hindices
      obtain ⟨found, -, hreturn⟩ := Exec.bind_ok_iff.mp hindices
      cases hreturn
      rfl
    · rw [if_neg hton] at hindices
      obtain ⟨found, -, hreturn⟩ := Exec.bind_ok_iff.mp hindices
      cases hreturn
      rfl
  rw [hsame, hrule, MetBy, noCounts_eq]
  exact hvalid.agreement

/-- The votes of a run. -/
def votes (reads : TimestampReads) (validRange : ExpirationValidRange) (i : Nat) :
    Observation (TimestampValidity × Option Int64) := timestampVote validRange (reads.timestamp i)

theorem voteOf_votes {i : Nat} {fp : String} {c : TimestampValidity} {t : Option Int64}
    (h : Quorum.voteOf (votes reads validRange i) = .some (fp, c, t)) :
    fp = c.debug ∧ c = timestampValidity t validRange := by
  cases ht : reads.timestamp i with
  | error e => simp [votes, timestampVote, ht, Except.map, Quorum.voteOf] at h
  | ok t' =>
    simp only [votes, timestampVote, ht, Except.map, Quorum.voteOf, Option.some.injEq, Prod.mk.injEq] at h
    obtain ⟨rfl, rfl, rfl⟩ := h
    exact ⟨rfl, rfl⟩

/-- The agreed class is the winner of those asked, in whatever order they
answered, and the timestamp returned is of that class. -/
theorem agreedTimestamp_wins (harrival : ∀ l, (arrival l).Perm l) {c : TimestampValidity} {t : Option Int64}
    (h : agreedTimestamp reads arrival dstChainName validRange = .ok (c, t)) :
    c = timestampValidity t validRange ∧ ∃ quorum indices, dispatched reads dstChainName = .ok (quorum, indices) ∧
      Wins quorum.toProviderConfig (votes reads validRange) indices c.debug := by
  obtain ⟨⟨quorum, indices⟩, hdispatched, h⟩ := Exec.bind_ok_iff.mp h
  dsimp only at h
  split at h
  next agreed hresolved =>
    cases h
    have hnew : Quorum.Recorded quorum.toProviderConfig (votes reads validRange) indices [] (.new _ indices) :=
      Quorum.recorded_new
    obtain ⟨fp, hwins, i, -, hi⟩ := Quorum.resolveLoop_wins (dispatched_agreement hdispatched) hnew
      (fun i hi => (harrival indices).subset (by simpa using hi)) hresolved
    obtain ⟨rfl, hc⟩ := voteOf_votes hi
    rw [List.nil_append] at hwins
    exact ⟨hc, quorum, indices, hdispatched, hwins.perm (harrival indices)⟩
  next => cases h
  next => cases h
  next => cases h

theorem agreedTimestamp_class (harrival : ∀ l, (arrival l).Perm l) (harrival' : ∀ l, (arrival' l).Perm l)
    {c c' : TimestampValidity} {t t' : Option Int64}
    (h : agreedTimestamp reads arrival dstChainName validRange = .ok (c, t))
    (h' : agreedTimestamp reads arrival' dstChainName validRange = .ok (c', t')) : c = c' := by
  obtain ⟨-, quorum, indices, hdispatched, hwins⟩ := agreedTimestamp_wins harrival h
  obtain ⟨-, quorum', indices', hdispatched', hwins'⟩ := agreedTimestamp_wins harrival' h'
  rw [hdispatched] at hdispatched'
  cases hdispatched'
  exact TimestampValidity.debug_injective (hwins'.only _ hwins.met)

/-- Answers the vote goes on after: it returns exactly when there is a winner. -/
theorem agreedTimestamp_ok_iff (harrival : ∀ l, (arrival l).Perm l) {quorum : ProviderConfig} {indices : List Nat}
    (hdispatched : dispatched reads dstChainName = .ok (quorum, indices))
    (hrec : ∀ i ∈ indices, Recoverable (votes reads validRange i)) :
    (∃ agreed, agreedTimestamp reads arrival dstChainName validRange = .ok agreed) ↔
      ∃ fp, Wins quorum.toProviderConfig (votes reads validRange) indices fp := by
  have hnew : Quorum.Recorded quorum.toProviderConfig (votes reads validRange) indices [] (.new _ indices) :=
    Quorum.recorded_new
  have hall : ∀ i, i ∈ [] ++ arrival indices ↔ i ∈ indices := fun i => by simpa using (harrival indices).mem_iff
  have hsettled := Quorum.resolveLoop_settled (dispatched_agreement hdispatched)
    ("block timestamp for chain " ++ dstChainName) hnew hall (fun i hi => hrec i ((harrival indices).subset hi))
  rw [← hsettled.isOk_iff, agreedTimestamp, hdispatched, Exec.ok_bind]
  dsimp only
  constructor
  · intro h
    obtain ⟨agreed, h⟩ := h
    split at h
    next agreed' hresolved => exact ⟨agreed', hresolved⟩
    all_goals cases h
  · intro h
    obtain ⟨agreed, hresolved⟩ := h
    refine ⟨agreed, ?_⟩
    have hresolved' : resolveProviderQuorumForIndices
        ((arrival indices).map fun i => (i, timestampVote validRange (reads.timestamp i))) indices
        quorum.toProviderConfig ("block timestamp for chain " ++ dstChainName) = .ok agreed := hresolved
    rw [hresolved']
    rfl

/-! ## What the check decides -/

variable {c : TimestampValidity} {t : Option Int64}

/-- The check passes on what the vote fails with. -/
theorem validateExpiration_of_error (hchain : dstChainName ≠ "canton") (hr : v.Range expiration validRange)
    {halt : Halt AppCoreError} (h : agreedTimestamp reads arrival dstChainName validRange = .error halt) :
    v.validateExpiration reads arrival dstChainName expiration = .error halt := by
  rw [Validator.validateExpiration, hr.returned, Exec.ok_bind, currentBlockTimestampWithQuorum, if_neg hchain, h]
  rfl

/-- Whichever timestamp of the agreed class is returned, the verdict is the
class's. -/
theorem validateExpiration_of_agreed (h : v.Fits expiration) (hr : v.Range expiration validRange)
    (hchain : dstChainName ≠ "canton") (harrival : ∀ l, (arrival l).Perm l)
    (hagreed : agreedTimestamp reads arrival dstChainName validRange = .ok (c, t)) :
    verdict (v.validateExpiration reads arrival dstChainName expiration) = c.verdict := by
  obtain ⟨hc, -⟩ := agreedTimestamp_wins harrival hagreed
  rw [Validator.validateExpiration, hr.returned, Exec.ok_bind, currentBlockTimestampWithQuorum, if_neg hchain, hagreed,
    Exec.ok_bind]
  dsimp only
  cases t with
  | none =>
    obtain rfl : c = .missing := hc
    rfl
  | some timestamp =>
    have hpresent : c ≠ .missing := by
      rw [hc, timestampValidity]
      split
      · simp
      · split <;> simp
    rw [if_neg hpresent, hc]
    exact bounds_verdict h hr timestamp

/-- A vote that fails once its providers were asked gives no verdict. -/
theorem verdict_of_error {quorum : ProviderConfig} {indices : List Nat} {halt : Halt AppCoreError}
    (hdispatched : dispatched reads dstChainName = .ok (quorum, indices))
    (h : agreedTimestamp reads arrival dstChainName validRange = .error halt) : verdict (.error halt) = .other := by
  rw [agreedTimestamp, hdispatched, Exec.ok_bind] at h
  dsimp only at h
  split at h
  next => cases h
  next =>
    cases h
    rfl
  next =>
    cases h
    rw [unresolvedQuorum]
    split <;> rfl
  next halt' _ hne _ =>
    cases h
    cases halt with
    | err e => exact absurd rfl (hne e)
    | panic => rfl
    | fuel => rfl

/-- With answers the vote goes on after, the order they come in does not show. -/
theorem validateExpiration_order (h : v.Fits expiration) (hr : v.Range expiration validRange)
    (hchain : dstChainName ≠ "canton") (harrival : ∀ l, (arrival l).Perm l) (harrival' : ∀ l, (arrival' l).Perm l)
    (hrec : ∀ i, Recoverable (votes reads validRange i)) :
    verdict (v.validateExpiration reads arrival dstChainName expiration) =
      verdict (v.validateExpiration reads arrival' dstChainName expiration) := by
  cases hdispatched : dispatched reads dstChainName with
  | error halt =>
    have hsame : ∀ order, agreedTimestamp reads order dstChainName validRange = .error halt := by
      intro order
      rw [agreedTimestamp, hdispatched, Exec.error_bind]
    rw [validateExpiration_of_error hchain hr (hsame arrival), validateExpiration_of_error hchain hr (hsame arrival')]
  | ok found =>
    obtain ⟨quorum, indices⟩ := found
    have hrecAsked : ∀ i ∈ indices, Recoverable (votes reads validRange i) := fun i _ => hrec i
    have hiff := agreedTimestamp_ok_iff harrival hdispatched hrecAsked
    have hiff' := agreedTimestamp_ok_iff harrival' hdispatched hrecAsked
    cases hagreed : agreedTimestamp reads arrival dstChainName validRange with
    | ok agreed =>
      obtain ⟨agreed', hagreed'⟩ := hiff'.mpr (hiff.mp ⟨agreed, hagreed⟩)
      have hclass := agreedTimestamp_class harrival harrival' hagreed hagreed'
      rw [validateExpiration_of_agreed h hr hchain harrival hagreed,
        validateExpiration_of_agreed h hr hchain harrival' hagreed', hclass]
    | error halt =>
      cases hagreed' : agreedTimestamp reads arrival' dstChainName validRange with
      | ok agreed' =>
        obtain ⟨agreed, hok⟩ := hiff.mpr (hiff'.mp ⟨agreed', hagreed'⟩)
        rw [hagreed] at hok
        cases hok
      | error halt' =>
        rw [validateExpiration_of_error hchain hr hagreed, validateExpiration_of_error hchain hr hagreed',
          verdict_of_error hdispatched hagreed, verdict_of_error hdispatched hagreed']

theorem TimestampValidity.verdict_eq_passed : c.verdict = .passed ↔ c = .valid := by
  cases c <;> simp [TimestampValidity.verdict]

/-- **Agreement on the class is agreement on the verdict.** For bounds that stay
inside `i64`, two timestamps of one class have the same verdict, which is never
anything but passed, expired or too far, and passed exactly in the class `Valid`.
So, off Canton (whose time is no vote), for any answers of the providers and any
order they arrive in: the check's verdict is that of every timestamp of the
agreed class, it passes exactly when the agreed class is `Valid`, another order
that agrees at all agrees on the same class and verdict, and where no provider's
answer aborts the vote every order gives the same verdict. -/
theorem class_decides_verdict (v : Validator) (expiration : Int64) (hmaximum : 0 ≤ v.maximumExpiration)
    (hgrace : 0 ≤ v.maximumExpirationGracePeriod)
    (hlow : inI64 (expiration.toInt - v.maximumExpiration.toInt) = true)
    (hhigh : inI64 (expiration.toInt + v.maximumExpirationGracePeriod.toInt + v.maximumExpiration.toInt) = true) :
    ∃ validRange, v.validRange expiration = .ok validRange ∧
      validRange.min.toInt = expiration.toInt - v.maximumExpiration.toInt ∧
      validRange.max.toInt = expiration.toInt + v.maximumExpirationGracePeriod.toInt ∧
      let bounds := fun t => validateExpirationBounds expiration t v.maximumExpiration v.maximumExpirationGracePeriod
      (∀ t₁ t₂, timestampValidity (.some t₁) validRange = timestampValidity (.some t₂) validRange →
        verdict (bounds t₁) = verdict (bounds t₂)) ∧
      (∀ t, verdict (bounds t) ≠ .other ∧
        (bounds t = .ok () ↔ timestampValidity (.some t) validRange = .valid)) ∧
      ∀ (reads : TimestampReads) (dstChainName : String), dstChainName ≠ "canton" →
        ∀ arrival : List Nat → List Nat, (∀ l, (arrival l).Perm l) →
          let checked := fun order => v.validateExpiration reads order dstChainName expiration
          (∀ c t, agreedTimestamp reads arrival dstChainName validRange = .ok (c, t) →
            (∀ t', timestampValidity (.some t') validRange = c → verdict (checked arrival) = verdict (bounds t')) ∧
            (checked arrival = .ok () ↔ c = .valid)) ∧
          ∀ arrival' : List Nat → List Nat, (∀ l, (arrival' l).Perm l) →
            (∀ c t c' t', agreedTimestamp reads arrival dstChainName validRange = .ok (c, t) →
              agreedTimestamp reads arrival' dstChainName validRange = .ok (c', t') →
              c = c' ∧ verdict (checked arrival) = verdict (checked arrival')) ∧
            ((∀ i, Recoverable (timestampVote validRange (reads.timestamp i))) →
              verdict (checked arrival) = verdict (checked arrival')) := by
  have h : v.Fits expiration := ⟨hmaximum, hgrace, hlow, hhigh⟩
  obtain ⟨validRange, hr⟩ := h.range
  refine ⟨validRange, hr.returned, hr.min, hr.max, fun t₁ t₂ hclass => ?_, fun t => ⟨?_, ?_⟩, ?_⟩
  · rw [bounds_verdict h hr, bounds_verdict h hr, hclass]
  · rw [bounds_verdict h hr, timestampValidity]
    split
    · simp [TimestampValidity.verdict]
    · split <;> simp [TimestampValidity.verdict]
  · rw [← verdict_eq_passed, bounds_verdict h hr, TimestampValidity.verdict_eq_passed]
  · intro reads dstChainName hchain arrival harrival
    refine ⟨fun c t hagreed => ⟨fun t' ht' => ?_, ?_⟩, fun arrival' harrival' => ⟨fun c t c' t' ha ha' => ?_, ?_⟩⟩
    · rw [validateExpiration_of_agreed h hr hchain harrival hagreed, bounds_verdict h hr, ht']
    · rw [← verdict_eq_passed, validateExpiration_of_agreed h hr hchain harrival hagreed,
        TimestampValidity.verdict_eq_passed]
    · have hclass := agreedTimestamp_class harrival harrival' ha ha'
      refine ⟨hclass, ?_⟩
      rw [validateExpiration_of_agreed h hr hchain harrival ha, validateExpiration_of_agreed h hr hchain harrival' ha',
        hclass]
    · exact validateExpiration_order h hr hchain harrival harrival'

/-- A week ahead at most and half a minute late, of an expiration in 2023. -/
theorem class_decides_week :
    let v : Validator := ⟨604800, 30⟩
    (0 ≤ v.maximumExpiration ∧ 0 ≤ v.maximumExpirationGracePeriod ∧
      inI64 ((1700000000 : Int64).toInt - v.maximumExpiration.toInt) = true ∧
      inI64 ((1700000000 : Int64).toInt + v.maximumExpirationGracePeriod.toInt + v.maximumExpiration.toInt) = true) ∧
    ∃ validRange, v.validRange 1700000000 = .ok validRange ∧
      ∀ t, validateExpirationBounds 1700000000 t v.maximumExpiration v.maximumExpirationGracePeriod = .ok () ↔
        timestampValidity (.some t) validRange = .valid := by
  intro v
  have hfits : 0 ≤ v.maximumExpiration ∧ 0 ≤ v.maximumExpirationGracePeriod ∧
      inI64 ((1700000000 : Int64).toInt - v.maximumExpiration.toInt) = true ∧
      inI64 ((1700000000 : Int64).toInt + v.maximumExpirationGracePeriod.toInt + v.maximumExpiration.toInt) = true := by
    decide
  obtain ⟨validRange, hrange, -, -, -, hpassed, -⟩ :=
    class_decides_verdict v 1700000000 hfits.1 hfits.2.1 hfits.2.2.1 hfits.2.2.2
  exact ⟨hfits, validRange, hrange, fun t => (hpassed t).2⟩

end Pillar.Expiration
