/-
The events of an IOTA transaction, page by page (`pillar-runtime`,
`provider_health/transport.rs`): the `iotax_queryEvents` loop of
`post_json_scoped`.

A page that is refused for its size is asked for again at half the size, and
that counts as one of the loop's 1030 turns.
-/
import Pillar.Core
import Pillar.Json

namespace Pillar.IotaEvents

def maxJsonResponseBytes : Nat := 4 * 1024 * 1024
def maxPaginatedResponseBytes : Nat := 16 * 1024 * 1024
def maxJsonParseNodes : Nat := 128 * 1024
def maxJsonStringBytes : Nat := maxJsonResponseBytes

def isResponseSizeRefusal : RpcError → Bool
  | .remote message =>
    message = s!"Provider JSON response exceeds {maxJsonResponseBytes} byte limit" ||
      message = s!"Provider JSON exceeds {maxJsonStringBytes} string byte limit"
  | _ => false

/-! ## What pages add up to -/

section

-- `serde_json`'s compact text of a value.
variable (toText : Json → String)

def serializedJsonBytes (value : Json) : Option Nat := checkedAdd 0 (toText value).utf8ByteSize

def accumulatePaginatedResponseBytes (total : Nat) (response : Json) : Option Nat := do
  let bytes ← serializedJsonBytes toText response
  (checkedAdd total bytes).filter (· ≤ maxPaginatedResponseBytes)

end

/-- What a value costs by itself, and what it holds. -/
def structuralCost : Json → Option (Nat × List Json)
  | .array values => .some (max values.length 1, values)
  | .object entries => (checkedMul entries.length 3).map fun cost => (max cost 1, entries.map Prod.snd)
  | _ => .some (1, [])

/-- `while let Some(value) = pending.pop()`; the top of the stack comes first. -/
def costLoop : Nat → Nat → List Json → Exec RpcError (Option Nat)
  | _, total, [] => .ok (.some total)
  | 0, _, _ :: _ => .error .fuel
  | fuel + 1, total, value :: pending =>
    match structuralCost value with
    | .none => .ok .none
    | .some (cost, held) =>
      match (checkedAdd total cost).filter (· ≤ maxJsonParseNodes) with
      | .none => .ok .none
      | .some total => costLoop fuel total (held.reverse ++ pending)

/-- Each turn of the loop adds at least one, so it takes no more turns than the limit. -/
def accumulatePaginatedStructuralCost (total : Nat) (items : List Json) : Exec RpcError (Option Nat) :=
  costLoop (maxJsonParseNodes + 1) total items.reverse

/-! ## The loop -/

structure State where
  cursor : Json
  events : List Json
  responseBytes : Nat
  structuralUnits : Nat
  pageSize : Nat

/-- How a turn ends that does not return `Err`. -/
inductive Turn where
  | again (s : State)
  | complete (response : Json)

/-- `Value::pointer` of two keys. -/
def pointer (first second : String) (value : Json) : Option Json := (value.get first).bind (Json.get second)

def asBool : Json → Option Bool
  | .bool b => .some b
  | _ => .none

/-- `value[key] = v`, of an object that has the key. -/
def setKey (key : String) (v : Json) : Json → Json
  | .object entries => .object (entries.map fun entry => if entry.1 = key then (key, v) else entry)
  | value => value

/-- The last response, with the events of all pages. -/
def completeResponse (response : Json) (events : List Json) : Json :=
  let result := (response.get "result").getD .null
  setKey "result" (setKey "hasNextPage" (.bool false) (setKey "data" (.array events) result)) response

def digestMismatch (expected : Option String) (items : List Json) : Bool :=
  match expected with
  | .none => false
  | .some digest => items.any fun item => ((pointer "id" "txDigest" item).bind Json.asStr) ≠ .some digest

def exceedsEvents : RpcError := .remote "IOTA transaction exceeds 1024 events"

section

-- The text of values, and the transaction the events must be of.
variable (toText : Json → String) (expected : Option String)

/-- The end of a turn, after a page of events: the response, or the next page. -/
def nextPage (page : Nat) (s : State) (response : Json) : Exec RpcError Turn :=
  match (pointer "result" "hasNextPage" response).bind asBool with
  | .none => Exec.err .unavailable
  | .some false => .ok (.complete (completeResponse response s.events))
  | .some true =>
    if page = 1029 ∨ s.events.length = 1024 then Exec.err exceedsEvents
    else
      match (pointer "result" "nextCursor" response).filter (!·.isNull) with
      | .none => Exec.err .unavailable
      | .some cursor => .ok (.again { s with cursor })

/-- A page of events. -/
def takeItems (page : Nat) (s : State) (response : Json) (items : List Json) : Exec RpcError Turn :=
  if digestMismatch expected items then Exec.err (.remote "IOTA transaction digest mismatch")
  else do
    match ← accumulatePaginatedStructuralCost s.structuralUnits items with
    | .none =>
      Exec.err (.remote s!"IOTA transaction events exceed {maxJsonParseNodes} structural parse-cost units")
    | .some structuralUnits =>
      let events := s.events ++ items
      if events.length > 1024 then Exec.err exceedsEvents
      else nextPage page { s with events, structuralUnits } response

def turn (page : Nat) (s : State) (answer : Except RpcError Json) : Exec RpcError Turn :=
  match answer with
  | .error error =>
    if 1 < s.pageSize ∧ isResponseSizeRefusal error then .ok (.again { s with pageSize := s.pageSize / 2 })
    else Exec.err error
  | .ok response =>
    match accumulatePaginatedResponseBytes toText s.responseBytes response with
    | .none => Exec.err (.remote "IOTA transaction exceeds 16 MiB response limit")
    | .some responseBytes =>
      match response.get "error" with
      | .some error => Exec.err (.remote (toText error))
      | .none =>
        match (pointer "result" "data" response).bind Json.asArray with
        | .none => .ok (.complete response)
        | .some items => takeItems expected page { s with responseBytes } response items

def start : State where
  cursor := .null
  events := []
  responseBytes := 0
  structuralUnits := 0
  pageSize := 50

/-- The turns left, from `page` on: how many requests were made, and how the call ends. -/
def pages (answers : Nat → Except RpcError Json) : Nat → Nat → State → Nat × Exec RpcError Json
  -- `unreachable!()`
  | 0, page, _ => (page, .error .panic)
  | left + 1, page, s =>
    match turn toText expected page s (answers page) with
    | .error halt => (page + 1, .error halt)
    | .ok (.complete response) => (page + 1, .ok response)
    | .ok (.again s) => pages answers left (page + 1) s

/-- The call, where the `n`-th request is answered by `answers n`. -/
def queryEvents (answers : Nat → Except RpcError Json) : Nat × Exec RpcError Json :=
  pages toText expected answers 1030 0 start

end

/-! ## Every turn returns -/

theorem one_le_structuralCost {value : Json} {cost : Nat} {held : List Json}
    (h : structuralCost value = .some (cost, held)) : 1 ≤ cost := by
  cases value with
  | array values =>
    cases h
    exact le_max_right _ _
  | object entries =>
    obtain ⟨product, -, hcost⟩ := Option.map_eq_some_iff.mp h
    cases hcost
    exact le_max_right _ _
  | null => cases h; exact le_rfl
  | bool b => cases h; exact le_rfl
  | number n => cases h; exact le_rfl
  | string s => cases h; exact le_rfl

theorem returns_costLoop : ∀ (fuel total : Nat) (pending : List Json), maxJsonParseNodes < total + fuel →
    (total ≤ maxJsonParseNodes ∨ 0 < fuel) → (costLoop fuel total pending).Returns
  | _, total, [], _, _ => by
    rw [costLoop]
    exact Exec.returns_ok _
  | 0, total, _ :: _, hroom, hstart => by omega
  | fuel + 1, total, value :: pending, hroom, _ => by
    rw [costLoop]
    cases hcost : structuralCost value with
    | none => exact Exec.returns_ok _
    | some costs =>
      obtain ⟨cost, held⟩ := costs
      have hone := one_le_structuralCost hcost
      dsimp only
      cases htotal : (checkedAdd total cost).filter (· ≤ maxJsonParseNodes) with
      | none => exact Exec.returns_ok _
      | some total' =>
        obtain ⟨hadd, hle⟩ := Option.filter_eq_some_iff.mp htotal
        have hsum := checkedAdd_eq_some hadd
        have hle : total' ≤ maxJsonParseNodes := of_decide_eq_true hle
        exact returns_costLoop fuel total' _ (by omega) (.inl hle)

section

variable {toText : Json → String} {expected : Option String}

theorem returns_nextPage (page : Nat) (s : State) (response : Json) : (nextPage page s response).Returns := by
  unfold nextPage
  split
  · exact Exec.returns_err _
  · exact Exec.returns_ok _
  · split
    · exact Exec.returns_err _
    · split
      · exact Exec.returns_err _
      · exact Exec.returns_ok _

theorem returns_turn (page : Nat) (s : State) (answer : Except RpcError Json) :
    (turn toText expected page s answer).Returns := by
  unfold turn
  split
  · split
    · exact Exec.returns_ok _
    · exact Exec.returns_err _
  · split
    · exact Exec.returns_err _
    · split
      · exact Exec.returns_err _
      · split
        · exact Exec.returns_ok _
        · unfold takeItems
          split
          · exact Exec.returns_err _
          · refine (returns_costLoop _ _ _ (by omega) (.inr (by omega))).bind fun units _ => ?_
            split
            · exact Exec.returns_err _
            · dsimp only
              split
              · exact Exec.returns_err _
              · exact returns_nextPage _ _ _

/-! ## When a turn goes on -/

/-- The answer is this service's refusal of a page for its size. -/
def isRefusal : Except RpcError Json → Bool
  | .error error => isResponseSizeRefusal error
  | .ok _ => false

/-- **A turn that goes on** after a refusal halves the page size; after a page it
keeps it, and is not the last. -/
theorem turn_again {page : Nat} {s s' : State} {answer : Except RpcError Json}
    (h : turn toText expected page s answer = .ok (.again s')) :
    (isRefusal answer = true ∧ 1 < s.pageSize ∧ s'.pageSize = s.pageSize / 2) ∨
      (isRefusal answer = false ∧ page ≠ 1029 ∧ s'.pageSize = s.pageSize) := by
  unfold turn at h
  split at h
  next error =>
    split at h
    next hrefused =>
      cases h
      exact .inl ⟨hrefused.2, hrefused.1, rfl⟩
    next => cases h
  next response =>
    refine .inr ⟨rfl, ?_⟩
    split at h
    next => cases h
    next responseBytes _ =>
      split at h
      next => cases h
      next =>
        split at h
        next => cases h
        next items _ =>
          unfold takeItems at h
          split at h
          next => cases h
          next =>
            obtain ⟨units, -, h⟩ := Exec.bind_ok_iff.mp h
            split at h
            next => cases h
            next =>
              dsimp only at h
              split at h
              next => cases h
              next =>
                unfold nextPage at h
                split at h
                next => cases h
                next => cases h
                next =>
                  split at h
                  next => cases h
                  next hmore =>
                    split at h
                    next => cases h
                    next =>
                      cases h
                      exact ⟨fun hlast => hmore (.inl hlast), rfl⟩

/-! ## Runs -/

variable (toText expected) in
/-- The state after `n` requests, if the loop has got so far. -/
def advance (answers : Nat → Except RpcError Json) : Nat → Option State
  | 0 => .some start
  | n + 1 =>
    (advance answers n).bind fun s =>
      match turn toText expected n s (answers n) with
      | .ok (.again s) => .some s
      | _ => .none

/-- The refusals among the first `n` answers. -/
def refusals (answers : Nat → Except RpcError Json) (n : Nat) : Nat :=
  (List.range n).countP fun k => isRefusal (answers k)

variable {answers : Nat → Except RpcError Json}

theorem advance_succ {n : Nat} {s' : State} :
    advance toText expected answers (n + 1) = .some s' ↔
      ∃ s, advance toText expected answers n = .some s ∧ turn toText expected n s (answers n) = .ok (.again s') := by
  rw [advance, Option.bind_eq_some_iff]
  refine exists_congr fun s => and_congr_right fun _ => ?_
  split
  next s'' h => rw [h, Option.some.injEq, Except.ok.injEq, Turn.again.injEq]
  next h =>
    refine iff_of_false (fun h => nomatch h) fun hagain => h s' hagain

/-- **The page size tells how many pages were refused.** -/
theorem advance_pageSize {n : Nat} {s : State} (h : advance toText expected answers n = .some s) :
    s.pageSize = 50 / 2 ^ refusals answers n := by
  induction n generalizing s with
  | zero =>
    cases h
    have hzero : refusals answers 0 = 0 := rfl
    rw [hzero]
    rfl
  | succ n ih =>
    obtain ⟨before, hbefore, hturn⟩ := advance_succ.mp h
    have ih := ih hbefore
    have hcount : refusals answers (n + 1) = refusals answers n + if isRefusal (answers n) = true then 1 else 0 := by
      rw [refusals, List.range_succ, List.countP_append, List.countP_singleton]
      rfl
    obtain ⟨hrefused, -, hsize⟩ | ⟨hrefused, -, hsize⟩ := turn_again hturn
    · rw [hcount, hrefused, if_pos rfl, pow_succ, ← Nat.div_div_eq_div_mul, hsize, ih]
    · rw [hcount, hrefused, if_neg Bool.false_ne_true, Nat.add_zero, hsize, ih]

theorem one_lt_div_pow {k : Nat} : 1 < 50 / 2 ^ k ↔ k < 5 := by
  constructor
  · intro h
    by_contra hge
    have hpow : 2 ^ 5 ≤ 2 ^ k := Nat.pow_le_pow_right (by decide) (not_lt.mp hge)
    have hle : 50 / 2 ^ k ≤ 50 / 2 ^ 5 := Nat.div_le_div_left hpow (by decide)
    omega
  · intro h
    interval_cases k <;> decide

theorem advance_none {n : Nat} (h : advance toText expected answers n = .none) (k : Nat) :
    advance toText expected answers (n + k) = .none := by
  induction k with
  | zero => exact h
  | succ k ih => rw [← Nat.add_assoc, advance, ih, Option.bind_none]

/-- The loop runs out of turns just when every turn went on. -/
theorem pages_spec (left page : Nat) (s : State) (h : advance toText expected answers page = .some s) :
    (pages toText expected answers left page s).1 ≤ page + left ∧
      ((pages toText expected answers left page s).2.Returns ↔
        advance toText expected answers (page + left) = .none) := by
  induction left generalizing page s with
  | zero =>
    rw [pages, Nat.add_zero, h]
    exact ⟨le_rfl, iff_of_false (fun hreturns => hreturns.1 rfl) (fun h => nomatch h)⟩
  | succ left ih =>
    have hshift : page + (left + 1) = page + 1 + left := by omega
    have hreturns : (turn toText expected page s (answers page)).Returns := returns_turn page s (answers page)
    rw [pages, hshift]
    cases hturn : turn toText expected page s (answers page) with
    | error halt =>
      have hnext : advance toText expected answers (page + 1) = .none := by rw [advance, h, Option.bind_some, hturn]
      rw [hturn] at hreturns
      refine ⟨Nat.le_add_right _ _, iff_of_true ?_ (advance_none hnext left)⟩
      exact ⟨fun he => hreturns.1 (by cases he; rfl), fun he => hreturns.2 (by cases he; rfl)⟩
    | ok outcome =>
      cases outcome with
      | complete response =>
        have hnext : advance toText expected answers (page + 1) = .none := by rw [advance, h, Option.bind_some, hturn]
        exact ⟨Nat.le_add_right _ _, iff_of_true (Exec.returns_ok _) (advance_none hnext left)⟩
      | again s' => exact ih (page + 1) s' (advance_succ.mpr ⟨s, h, hturn⟩)

theorem pages_ne_fuel (left page : Nat) (s : State) : (pages toText expected answers left page s).2 ≠ .error .fuel := by
  induction left generalizing page s with
  | zero => exact fun h => nomatch h
  | succ left ih =>
    have hreturns : (turn toText expected page s (answers page)).Returns := returns_turn page s (answers page)
    rw [pages]
    cases hturn : turn toText expected page s (answers page) with
    | error halt =>
      rw [hturn] at hreturns
      exact fun he => hreturns.2 (by cases he; rfl)
    | ok outcome =>
      cases outcome with
      | complete response => exact fun h => nomatch h
      | again s' => exact ih (page + 1) s'

/-- **When the loop ends without a panic.** It makes at most 1030 requests, and
returns unless the first 1029 answers all let it go on, with fewer than five
refusals among them, and the last answer is a refusal. -/
theorem queryEvents_returns_iff (toText : Json → String) (expected : Option String)
    (answers : Nat → Except RpcError Json) :
    (queryEvents toText expected answers).1 ≤ 1030 ∧
      ((queryEvents toText expected answers).2.Returns ↔
        ¬ ((advance toText expected answers 1029).isSome = true ∧ refusals answers 1029 < 5 ∧
          isRefusal (answers 1029) = true)) := by
  have hstart : advance toText expected answers 0 = .some start := rfl
  obtain ⟨hcount, hreturns⟩ := pages_spec 1030 0 start hstart
  rw [Nat.zero_add] at hcount hreturns
  refine ⟨hcount, hreturns.trans ?_⟩
  rw [← not_iff_not, not_not, ← Ne, Option.ne_none_iff_exists']
  constructor
  · intro h
    obtain ⟨s', h⟩ := h
    obtain ⟨s, hs, hturn⟩ := advance_succ.mp h
    obtain ⟨hrefused, hsize, -⟩ | ⟨-, hlast, -⟩ := turn_again hturn
    · rw [advance_pageSize hs, one_lt_div_pow] at hsize
      exact ⟨by rw [hs]; rfl, hsize, hrefused⟩
    · exact absurd rfl hlast
  · intro h
    obtain ⟨hgot, hfew, hrefused⟩ := h
    obtain ⟨s, hs⟩ := Option.isSome_iff_exists.mp hgot
    have hsize : 1 < s.pageSize := by rwa [advance_pageSize hs, one_lt_div_pow]
    refine ⟨{ s with pageSize := s.pageSize / 2 }, advance_succ.mpr ⟨s, hs, ?_⟩⟩
    cases hanswer : answers 1029 with
    | ok response =>
      rw [hanswer] at hrefused
      cases hrefused
    | error error =>
      rw [hanswer] at hrefused
      exact if_pos ⟨hsize, hrefused⟩

end

/-- A page without events, with a next page. -/
def emptyPage : Json :=
  .object [("id", .number (.posInt 1)), ("jsonrpc", .string "2.0"),
    ("result", .object [("data", .array []), ("hasNextPage", .bool true), ("nextCursor", .string "c")])]

/-- Its compact text. -/
def emptyPageText : String :=
  "\x7b\"id\":1,\"jsonrpc\":\"2.0\",\"result\":\x7b\"data\":[],\"hasNextPage\":true,\"nextCursor\":\"c\"\x7d\x7d"

/-- 1029 empty pages, then a refusal. -/
def refusedLast (n : Nat) : Except RpcError Json :=
  if n < 1029 then .ok emptyPage else .error (.remote "Provider JSON response exceeds 4194304 byte limit")

theorem turn_emptyPage {n : Nat} {s : State} (hn : n < 1029) (hevents : s.events = [])
    (hbytes : s.responseBytes = n * 81) :
    turn (fun _ => emptyPageText) (.some "digest") n s (.ok emptyPage) =
      .ok (.again { s with cursor := .string "c", responseBytes := (n + 1) * 81 }) := by
  have hsize : serializedJsonBytes (fun _ => emptyPageText) emptyPage = .some 81 := by decide +kernel
  have hsum : accumulatePaginatedResponseBytes (fun _ => emptyPageText) s.responseBytes emptyPage =
      .some ((n + 1) * 81) := by
    have hlimit : maxPaginatedResponseBytes = 16777216 := rfl
    have hmax : usizeMax = 18446744073709551615 := rfl
    rw [accumulatePaginatedResponseBytes, hsize, hbytes]
    simp only [Option.bind_eq_bind, Option.bind_some]
    rw [checkedAdd_of_le (by omega), Option.filter_some, if_pos (decide_eq_true (by omega)), Nat.succ_mul]
  have hdata : (pointer "result" "data" emptyPage).bind Json.asArray = .some [] := by
    simp [pointer, emptyPage, Json.get, List.lookup]
  have hnext : (pointer "result" "hasNextPage" emptyPage).bind asBool = .some true := by
    simp [pointer, emptyPage, Json.get, List.lookup, asBool]
  have hcursor : (pointer "result" "nextCursor" emptyPage).filter (!·.isNull) = .some (.string "c") := by
    simp [pointer, emptyPage, Json.get, List.lookup, Json.isNull]
  have herror : emptyPage.get "error" = .none := by
    simp [emptyPage, Json.get, List.lookup]
  have hcost : accumulatePaginatedStructuralCost s.structuralUnits [] = .ok (.some s.structuralUnits) := by
    rw [accumulatePaginatedStructuralCost, List.reverse_nil, costLoop]
  have hmore : ¬ (n = 1029 ∨ s.events.length = 1024) := by
    rw [hevents, List.length_nil]
    omega
  have hevents' : s.events ++ [] = s.events := List.append_nil _
  simp only [turn, hsum, herror, hdata, takeItems, digestMismatch, List.any_nil, hcost, Exec.ok_bind, hevents']
  rw [if_neg (by decide), if_neg (by rw [hevents]; decide)]
  simp only [nextPage, hnext, hcursor]
  exact if_neg hmore

theorem advance_refusedLast (n : Nat) (h : n ≤ 1029) :
    ∃ s, advance (fun _ => emptyPageText) (.some "digest") refusedLast n = .some s ∧ s.events = [] ∧
      s.responseBytes = n * 81 ∧ s.pageSize = 50 := by
  induction n with
  | zero => exact ⟨start, rfl, rfl, rfl, rfl⟩
  | succ n ih =>
    obtain ⟨s, hs, hevents, hbytes, hsize⟩ := ih (by omega)
    have hanswer : refusedLast n = .ok emptyPage := if_pos (by omega)
    refine ⟨{ s with cursor := .string "c", responseBytes := (n + 1) * 81 }, advance_succ.mpr ⟨s, hs, ?_⟩, hevents,
      rfl, hsize⟩
    rw [hanswer]
    exact turn_emptyPage (by omega) hevents hbytes

/-- The last of 1030 requests is refused, and the call panics. -/
theorem queryEvents_refusedLast :
    (queryEvents (fun _ => emptyPageText) (.some "digest") refusedLast).2 = .error .panic := by
  have hstart : advance (fun _ => emptyPageText) (.some "digest") refusedLast 0 = .some start := rfl
  obtain ⟨s, hs, -, -, hsize⟩ := advance_refusedLast 1029 le_rfl
  have hrefused : isResponseSizeRefusal (.remote "Provider JSON response exceeds 4194304 byte limit") = true := by
    decide +kernel
  have hanswer : refusedLast 1029 = .error (.remote "Provider JSON response exceeds 4194304 byte limit") :=
    if_neg (by decide)
  have hturn : turn (fun _ => emptyPageText) (.some "digest") 1029 s (refusedLast 1029) =
      .ok (.again { s with pageSize := s.pageSize / 2 }) := by
    rw [hanswer]
    exact if_pos ⟨by omega, hrefused⟩
  have hgot := advance_succ.mpr ⟨s, hs, hturn⟩
  have hreturns : ¬ (queryEvents (fun _ => emptyPageText) (.some "digest") refusedLast).2.Returns := by
    rw [queryEvents, (pages_spec 1030 0 start hstart).2, hgot]
    exact fun h => nomatch h
  cases hend : (queryEvents (fun _ => emptyPageText) (.some "digest") refusedLast).2 with
  | ok response => exact absurd (hend ▸ Exec.returns_ok response) hreturns
  | error halt =>
    cases halt with
    | panic => rfl
    | fuel => exact absurd hend (pages_ne_fuel 1030 0 start)
    | err e => exact absurd (hend ▸ Exec.returns_err e) hreturns

end Pillar.IotaEvents
