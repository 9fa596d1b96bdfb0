/-
An IOTA provider that holds a transaction's events and serves them page by page:
what the `iotax_queryEvents` loop makes of them, whatever pages it refuses.
-/
import Pillar.StructuralCost
import Pillar.IndexMap

namespace Pillar.IotaEvents

/-! ## Providers -/

/-- What a request asks for, in `params[1]` and `params[2]`. -/
structure Request where
  cursor : Json
  size : Nat

def State.request (s : State) : Request := { cursor := s.cursor, size := s.pageSize }

/-- How a provider answers the `n`-th request, and its cursor behind the first `c` events. -/
structure Provider where
  answer : Nat → Request → Except RpcError Json
  cursorAt : Nat → Json

/-- The response is the page of these events. -/
structure IsPage (items : List Json) (hasNextPage : Bool) (response : Json) : Prop where
  error : response.get "error" = .none
  data : pointer "result" "data" response = .some (.array items)
  hasNextPage : pointer "result" "hasNextPage" response = .some (.bool hasNextPage)

/-- Behind the events of `page` there are more, and this is the cursor behind them. -/
def HasCursor (cursor response : Json) : Prop :=
  pointer "result" "nextCursor" response = .some cursor ∧ cursor.isNull = false

/-- **A provider of these events**: it answers with the page that was asked for,
or refuses a page of more than one event for its size. -/
structure Provider.Holds (p : Provider) (events : List Json) : Prop where
  first : p.cursorAt 0 = .null
  serves : ∀ n c size, c ≤ events.length → 1 ≤ size →
    (isRefusal (p.answer n ⟨p.cursorAt c, size⟩) = true ∧ 1 < size) ∨
      ∃ response, p.answer n ⟨p.cursorAt c, size⟩ = .ok response ∧
        IsPage ((events.drop c).take size) (decide (c + size < events.length)) response ∧
        (c + size < events.length → HasCursor (p.cursorAt (c + size)) response)

section

variable (toText : Json → String) (expected : Option String) (p : Provider)

/-- The state after `n` requests, if the loop has got so far. -/
def Provider.stateAfter : Nat → Option State
  | 0 => .some start
  | n + 1 =>
    (stateAfter n).bind fun s =>
      match turn toText expected n s (p.answer n s.request) with
      | .ok (.again s) => .some s
      | _ => .none

/-- What the provider answers to the `n`-th request. -/
def Provider.answers (n : Nat) : Except RpcError Json :=
  match p.stateAfter toText expected n with
  | .some s => p.answer n s.request
  | .none => .error .unavailable

/-- The bytes of the responses among the first `n` answers. -/
def Provider.servedBytes (n : Nat) : Nat :=
  ((List.range n).map fun k =>
    match p.answers toText expected k with
    | .ok response => (toText response).utf8ByteSize
    | .error _ => 0).sum

/-- The events and their pages stay within the loop's limits. -/
structure Provider.WithinLimits (events : List Json) : Prop where
  bytes : ∀ n, p.servedBytes toText expected n ≤ maxPaginatedResponseBytes
  cost : (events.map cost).sum ≤ maxJsonParseNodes

end

variable {toText : Json → String} {expected : Option String} {p : Provider}

theorem Provider.advance_answers (n : Nat) :
    advance toText expected (p.answers toText expected) n = p.stateAfter toText expected n := by
  induction n with
  | zero => rfl
  | succ n ih =>
    rw [advance, Provider.stateAfter, ih]
    cases hs : p.stateAfter toText expected n with
    | none => rfl
    | some s =>
      have hanswer : p.answers toText expected n = p.answer n s.request := by rw [Provider.answers, hs]
      rw [Option.bind_some, Option.bind_some]
      exact congrArg (fun answer => match turn toText expected n s answer with
        | .ok (.again s) => Option.some s
        | _ => Option.none) hanswer

/-! ## The response -/

/-- A key that is set, and any other. -/
theorem get_setKey {value w : Json} {key : String} (h : value.get key = .some w) (v : Json) (other : String) :
    (setKey key v value).get other = if other = key then .some v else value.get other := by
  cases value with
  | object entries =>
    have hkey : key ∈ entries.map Prod.fst :=
      (IndexMap.lookup_isSome entries).mp (Option.isSome_iff_exists.mpr ⟨w, h⟩)
    have hlookup : (entries.map (IndexMap.mapEntry key v)).lookup other =
        if other = key ∧ key ∈ entries.map Prod.fst then .some v else entries.lookup other :=
      IndexMap.lookup_mapEntry entries key
    simp only [hkey, and_true] at hlookup
    exact hlookup
  | null => cases h
  | bool b => cases h
  | number n => cases h
  | string s => cases h
  | array values => cases h

/-- The response holds all of the events, and no page is left. -/
structure IsComplete (events : List Json) (response : Json) : Prop where
  data : pointer "result" "data" response = .some (.array events)
  hasNextPage : pointer "result" "hasNextPage" response = .some (.bool false)

theorem IsPage.complete {items : List Json} {more : Bool} {response : Json} (h : IsPage items more response)
    (events : List Json) : IsComplete events (completeResponse response events) := by
  obtain ⟨result, hresult, hdata⟩ := Option.bind_eq_some_iff.mp h.data
  have hnext := h.hasNextPage
  rw [pointer, hresult, Option.bind_some] at hnext
  have hlast : (setKey "data" (.array events) result).get "hasNextPage" = .some (.bool more) := by
    rw [get_setKey hdata, if_neg (by decide), hnext]
  constructor
  · rw [pointer, completeResponse, hresult, Option.getD_some, get_setKey hresult, if_pos rfl, Option.bind_some,
      get_setKey hlast, if_neg (by decide), get_setKey hdata, if_pos rfl]
  · rw [pointer, completeResponse, hresult, Option.getD_some, get_setKey hresult, if_pos rfl, Option.bind_some,
      get_setKey hlast, if_pos rfl]

/-! ## One turn -/

/-- The bytes are within the limit, or there is no total. -/
theorem accumulatePaginatedResponseBytes_eq (total : Nat) (response : Json) :
    accumulatePaginatedResponseBytes toText total response =
      if total + (toText response).utf8ByteSize ≤ maxPaginatedResponseBytes
        then .some (total + (toText response).utf8ByteSize) else .none := by
  have hmax : maxPaginatedResponseBytes ≤ usizeMax := by decide
  rw [accumulatePaginatedResponseBytes, serializedJsonBytes, Option.bind_eq_bind]
  by_cases hlimit : total + (toText response).utf8ByteSize ≤ maxPaginatedResponseBytes
  · rw [if_pos hlimit, checkedAdd_of_le (by omega), Nat.zero_add, Option.bind_some, checkedAdd_of_le (by omega),
      Option.filter_some, if_pos (decide_eq_true hlimit)]
  · rw [if_neg hlimit]
    refine Option.eq_none_iff_forall_ne_some.mpr fun sum hsum => hlimit ?_
    obtain ⟨bytes, hbytes, hsum⟩ := Option.bind_eq_some_iff.mp hsum
    obtain ⟨hadd, hle⟩ := Option.filter_eq_some_iff.mp hsum
    rw [← Nat.zero_add (toText response).utf8ByteSize, ← checkedAdd_eq_some hbytes, ← checkedAdd_eq_some hadd]
    exact of_decide_eq_true hle

variable {events : List Json}

/-- **What every turn preserves**: the loop has the events up to its cursor, and
has made no more requests than it got events and refusals. -/
structure Paging (toText : Json → String) (expected : Option String) (p : Provider) (events : List Json) (n : Nat)
    (s : State) : Prop where
  state : p.stateAfter toText expected n = .some s
  held : s.events = events.take s.events.length
  cursor : s.cursor = p.cursorAt s.events.length
  few : s.events.length < 1024
  requests : ∃ refused ≤ 5, s.pageSize = 50 / 2 ^ refused ∧ n ≤ s.events.length + refused
  bytes : s.responseBytes = p.servedBytes toText expected n
  units : s.structuralUnits = (s.events.map cost).sum
  unitsLe : s.structuralUnits ≤ maxJsonParseNodes

theorem paging_start (h : p.cursorAt 0 = .null) : Paging toText expected p events 0 start where
  state := rfl
  held := rfl
  cursor := h.symm
  few := by decide
  requests := ⟨0, by decide, rfl, le_rfl⟩
  bytes := rfl
  units := rfl
  unitsLe := by decide

theorem one_le_div_pow {k : Nat} (h : k ≤ 5) : 1 ≤ 50 / 2 ^ k := by
  interval_cases k <;> decide

/-- The event is of the transaction that was asked for. -/
def OfTransaction (expected : Option String) (item : Json) : Prop :=
  ∀ digest, expected = .some digest → (pointer "id" "txDigest" item).bind Json.asStr = .some digest

theorem digestMismatch_eq_false {items : List Json} (h : ∀ item ∈ items, OfTransaction expected item) :
    digestMismatch expected items = false := by
  cases expected with
  | none => rfl
  | some digest =>
    rw [digestMismatch, List.any_eq_false]
    intro item hitem
    rw [h item hitem digest rfl]
    simp

/-- The turn on a page of events, limit by limit. -/
theorem turn_page {n : Nat} {s : State} {response : Json} {items : List Json} {more : Bool}
    (hpage : IsPage items more response) (hexpected : ∀ item ∈ items, OfTransaction expected item)
    (hunits : s.structuralUnits ≤ maxJsonParseNodes)
    (hbytes : s.responseBytes + (toText response).utf8ByteSize ≤ maxPaginatedResponseBytes)
    (hcost : s.structuralUnits + (items.map cost).sum ≤ maxJsonParseNodes)
    (hcount : s.events.length + items.length ≤ 1024) :
    turn toText expected n s (.ok response) = nextPage n
      { s with
        responseBytes := s.responseBytes + (toText response).utf8ByteSize
        structuralUnits := s.structuralUnits + (items.map cost).sum
        events := s.events ++ items } response := by
  have hdata : (pointer "result" "data" response).bind Json.asArray = .some items := by
    rw [hpage.data, Option.bind_some, Json.asArray_array]
  have hlength : ¬ (s.events ++ items).length > 1024 := by
    rw [List.length_append]
    omega
  rw [turn, accumulatePaginatedResponseBytes_eq, if_pos hbytes, hpage.error, hdata]
  dsimp only
  rw [takeItems, digestMismatch_eq_false hexpected, if_neg Bool.false_ne_true,
    accumulatePaginatedStructuralCost_eq hunits, limited, if_pos hcost, Exec.ok_bind]
  dsimp only
  rw [if_neg hlength]

/-- A page past a limit ends the loop with an error. -/
theorem turn_page_over {n : Nat} {s : State} {response : Json} {items : List Json} {more : Bool}
    (hpage : IsPage items more response) (hexpected : ∀ item ∈ items, OfTransaction expected item)
    (hunits : s.structuralUnits ≤ maxJsonParseNodes)
    (hover : maxPaginatedResponseBytes < s.responseBytes + (toText response).utf8ByteSize ∨
      maxJsonParseNodes < s.structuralUnits + (items.map cost).sum ∨ 1024 < s.events.length + items.length) :
    ∃ e, turn toText expected n s (.ok response) = Exec.err e := by
  have hdata : (pointer "result" "data" response).bind Json.asArray = .some items := by
    rw [hpage.data, Option.bind_some, Json.asArray_array]
  rw [turn, accumulatePaginatedResponseBytes_eq]
  by_cases hbytes : s.responseBytes + (toText response).utf8ByteSize ≤ maxPaginatedResponseBytes
  · rw [if_pos hbytes, hpage.error, hdata]
    dsimp only
    rw [takeItems, digestMismatch_eq_false hexpected, if_neg Bool.false_ne_true,
      accumulatePaginatedStructuralCost_eq hunits, limited]
    by_cases hcost : s.structuralUnits + (items.map cost).sum ≤ maxJsonParseNodes
    · have hlength : (s.events ++ items).length > 1024 := by
        rw [List.length_append]
        omega
      rw [if_pos hcost, Exec.ok_bind]
      dsimp only
      rw [if_pos hlength]
      exact ⟨_, rfl⟩
    · rw [if_neg hcost]
      exact ⟨_, rfl⟩
  · rw [if_neg hbytes]
    exact ⟨_, rfl⟩

variable (toText expected p events) in
/-- Why the loop may end with an error: there are too many events, or a limit is passed. -/
def Excessive : Prop := 1024 < events.length ∨ ¬ p.WithinLimits toText expected events

/-- **The turn lemma**: the loop has more events or a smaller page, or all of
them, or there is an excess. -/
theorem Paging.turn (hp : p.Holds events) (hexpected : ∀ event ∈ events, OfTransaction expected event) {n : Nat}
    {s : State} (h : Paging toText expected p events n s) :
    (∃ s', IotaEvents.turn toText expected n s (p.answers toText expected n) = .ok (.again s') ∧
        Paging toText expected p events (n + 1) s') ∨
      (∃ response, IotaEvents.turn toText expected n s (p.answers toText expected n) = .ok (.complete response) ∧
        events.length ≤ 1024 ∧ IsComplete events response) ∨
      ∃ e, IotaEvents.turn toText expected n s (p.answers toText expected n) = Exec.err e ∧
        Excessive toText expected p events := by
  have hanswer : p.answers toText expected n = p.answer n s.request := by rw [Provider.answers, h.state]
  have hrequest : s.request = ⟨p.cursorAt s.events.length, s.pageSize⟩ := by rw [State.request, h.cursor]
  have hle : s.events.length ≤ events.length := by
    have hlen := congrArg List.length h.held
    rw [List.length_take] at hlen
    omega
  obtain ⟨refused, hrefused, hsize, hrequests⟩ := h.requests
  have hone : 1 ≤ s.pageSize := hsize ▸ one_le_div_pow hrefused
  have hnext : ∀ s', IotaEvents.turn toText expected n s (p.answers toText expected n) = .ok (.again s') →
      p.stateAfter toText expected (n + 1) = .some s' := by
    intro s' hturn
    rw [Provider.stateAfter, h.state, Option.bind_some, ← hanswer, hturn]
  have hserved : p.servedBytes toText expected (n + 1) = p.servedBytes toText expected n +
      match p.answers toText expected n with
      | .ok response => (toText response).utf8ByteSize
      | .error _ => 0 := by
    rw [Provider.servedBytes, List.range_succ, List.map_append, List.sum_append, List.map_singleton,
      List.sum_singleton, ← Provider.servedBytes]
  rcases hp.serves n s.events.length s.pageSize hle hone with ⟨hrefusal, hmore⟩ | ⟨response, hok, hpage, hcursor⟩
  · -- The page is refused: the next is half its size.
    left
    rw [← hrequest, ← hanswer] at hrefusal
    cases herror : p.answers toText expected n with
    | ok response =>
      rw [herror] at hrefusal
      cases hrefusal
    | error error =>
      rw [herror] at hrefusal
      have hturn : IotaEvents.turn toText expected n s (.error error) =
          .ok (.again { s with pageSize := s.pageSize / 2 }) := if_pos ⟨hmore, hrefusal⟩
      have hfour : refused < 5 := by rwa [← one_lt_div_pow, ← hsize]
      refine ⟨_, hturn, hnext _ (by rw [herror, hturn]), h.held, h.cursor, h.few,
        ⟨refused + 1, hfour, ?_, ?_⟩, ?_, h.units, h.unitsLe⟩
      · dsimp only
        rw [hsize, pow_succ, ← Nat.div_div_eq_div_mul]
      · dsimp only
        omega
      · rw [hserved, herror]
        exact h.bytes
  · -- A page of events.
    rw [← hrequest, ← hanswer] at hok
    have hitems : ∀ item ∈ (events.drop s.events.length).take s.pageSize, OfTransaction expected item :=
      fun item hitem => hexpected item (List.mem_of_mem_drop (List.mem_of_mem_take hitem))
    have hjoined : s.events ++ (events.drop s.events.length).take s.pageSize =
        events.take (s.events.length + s.pageSize) := by
      conv_lhs => rw [h.held]
      rw [List.take_add, List.length_take, Nat.min_eq_left hle]
    have hlength : s.events.length + ((events.drop s.events.length).take s.pageSize).length =
        min (s.events.length + s.pageSize) events.length := by
      rw [← List.length_append, hjoined, List.length_take]
    have hsum : s.structuralUnits + (((events.drop s.events.length).take s.pageSize).map cost).sum =
        ((events.take (s.events.length + s.pageSize)).map cost).sum := by
      rw [← hjoined, List.map_append, List.sum_append, h.units]
    rw [hok] at hserved
    by_cases hover : maxPaginatedResponseBytes < s.responseBytes + (toText response).utf8ByteSize ∨
        maxJsonParseNodes < s.structuralUnits + (((events.drop s.events.length).take s.pageSize).map cost).sum ∨
          1024 < s.events.length + ((events.drop s.events.length).take s.pageSize).length
    · obtain ⟨e, herr⟩ := turn_page_over (n := n) hpage hitems h.unitsLe hover
      refine .inr (.inr ⟨e, by rw [hok, herr], ?_⟩)
      rcases hover with hbytes | hcost | hcount
      · refine .inr fun hwithin => absurd (hwithin.bytes (n + 1)) ?_
        rw [hserved, ← h.bytes]
        exact not_le.mpr hbytes
      · refine .inr fun hwithin => absurd (le_trans ?_ hwithin.cost) (not_le.mpr hcost)
        rw [hsum]
        exact ((List.take_sublist _ events).map cost).sum_le_sum fun _ _ => Nat.zero_le _
      · left
        omega
    · rw [not_or, not_or, not_lt, not_lt, not_lt] at hover
      obtain ⟨hbytes, hcost, hcount⟩ := hover
      have hpageTurn := turn_page (n := n) hpage hitems h.unitsLe hbytes hcost hcount
      have hflag : (pointer "result" "hasNextPage" response).bind asBool =
          .some (decide (s.events.length + s.pageSize < events.length)) := by
        rw [hpage.hasNextPage]
        rfl
      rw [nextPage, hflag] at hpageTurn
      have hfew := h.few
      by_cases hmore : s.events.length + s.pageSize < events.length
      · have hfull : (s.events ++ (events.drop s.events.length).take s.pageSize).length =
            s.events.length + s.pageSize := by
          rw [hjoined, List.length_take]
          omega
        rw [decide_eq_true hmore] at hpageTurn
        dsimp only at hpageTurn
        by_cases hlast : s.events.length + s.pageSize = 1024
        · rw [if_pos (.inr (hfull.trans hlast))] at hpageTurn
          exact .inr (.inr ⟨_, by rw [hok, hpageTurn], .inl (by omega)⟩)
        · obtain ⟨hnextCursor, hsome⟩ := hcursor hmore
          rw [if_neg (by rw [hfull]; omega), hnextCursor, Option.filter_some, hsome,
            Bool.not_false, if_pos rfl] at hpageTurn
          dsimp only at hpageTurn
          rw [← hok] at hpageTurn
          left
          refine ⟨_, hpageTurn, hnext _ hpageTurn, ?_, ?_, ?_, ⟨refused, hrefused, hsize, ?_⟩, ?_, ?_, hcost⟩
          · dsimp only
            rw [hfull, hjoined]
          · dsimp only
            rw [hfull]
          · dsimp only
            rw [hfull]
            omega
          · dsimp only
            rw [hfull]
            omega
          · dsimp only
            rw [hserved, h.bytes]
          · dsimp only
            rw [hsum, hjoined]
      · rw [decide_eq_false hmore] at hpageTurn
        dsimp only at hpageTurn
        have hall : s.events ++ (events.drop s.events.length).take s.pageSize = events := by
          rw [hjoined, List.take_of_length_le (not_lt.mp hmore)]
        rw [hall] at hpageTurn
        refine .inr (.inl ⟨_, by rw [hok]; exact hpageTurn, ?_, hpage.complete events⟩)
        rw [← hall, List.length_append]
        exact hcount

/-- **The run lemma**: the turns that are left are enough. -/
theorem Paging.pages (hp : p.Holds events) (hexpected : ∀ event ∈ events, OfTransaction expected event) :
    ∀ {left n : Nat} {s : State}, n + left = 1030 → Paging toText expected p events n s →
      (∃ response, (IotaEvents.pages toText expected (p.answers toText expected) left n s).2 = .ok response ∧
          events.length ≤ 1024 ∧ IsComplete events response) ∨
        ∃ e, (IotaEvents.pages toText expected (p.answers toText expected) left n s).2 = Exec.err e ∧
          Excessive toText expected p events
  | 0, n, s, hturns, h => by
    obtain ⟨refused, hrefused, -, hrequests⟩ := h.requests
    have hfew := h.few
    omega
  | left + 1, n, s, hturns, h => by
    rw [IotaEvents.pages]
    rcases h.turn hp hexpected with ⟨s', hturn, hpaging⟩ | ⟨response, hturn, hdone⟩ | ⟨e, hturn, hexcess⟩
    · rw [hturn]
      exact Paging.pages hp hexpected (by omega) hpaging
    · rw [hturn]
      exact .inl ⟨response, rfl, hdone⟩
    · rw [hturn]
      exact .inr ⟨e, rfl, hexcess⟩

/-- **Pagination is complete.** Of a transaction with at most 1024 events the loop
returns them all, in order, whatever pages are refused; of one with more it
returns an error. -/
theorem queryEvents_complete (toText : Json → String) (expected : Option String) (p : Provider) (events : List Json)
    (hp : p.Holds events) (hexpected : ∀ event ∈ events, OfTransaction expected event) :
    (events.length ≤ 1024 → p.WithinLimits toText expected events →
        ∃ response, (queryEvents toText expected (p.answers toText expected)).2 = .ok response ∧
          IsComplete events response) ∧
      (1024 < events.length →
        ∃ e, (queryEvents toText expected (p.answers toText expected)).2 = Exec.err e) := by
  have hstart : Paging toText expected p events 0 start := paging_start hp.first
  have hrun := hstart.pages hp hexpected (Nat.zero_add 1030)
  constructor
  · intro hfew hwithin
    rcases hrun with ⟨response, hok, -, hcomplete⟩ | ⟨e, -, hexcess⟩
    · exact ⟨response, hok, hcomplete⟩
    · exact absurd hexcess (not_or.mpr ⟨not_lt.mpr hfew, not_not.mpr hwithin⟩)
  · intro hmany
    rcases hrun with ⟨response, -, hfew, -⟩ | ⟨e, herr, -⟩
    · exact absurd hfew (not_le.mpr hmany)
    · exact ⟨e, herr⟩

/-! ## One event -/

def oneEvent : Json := .object [("id", .object [("txDigest", .string "digest")])]

def lastPage (items : List Json) : Json :=
  .object [("id", .number (.posInt 1)), ("jsonrpc", .string "2.0"),
    ("result", .object [("data", .array items), ("hasNextPage", .bool false)])]

/-- The compact text of the page with the event. -/
def lastPageText : String :=
  "\x7b\"id\":1,\"jsonrpc\":\"2.0\",\"result\":\x7b\"data\":[\x7b\"id\":\x7b\"txDigest\":\"digest\"\x7d\x7d]," ++
    "\"hasNextPage\":false\x7d\x7d"

/-- It refuses the first request when it is for more than one event. -/
def oneEventProvider : Provider where
  answer n request :=
    if n = 0 ∧ 1 < request.size then .error (.remote "Provider JSON response exceeds 4194304 byte limit")
    else .ok (lastPage (if request.cursor.isNull then [oneEvent] else []))
  cursorAt c := if c = 0 then .null else .string "1"

theorem isPage_lastPage (items : List Json) : IsPage items false (lastPage items) where
  error := by simp [lastPage, Json.get, List.lookup]
  data := by simp [pointer, lastPage, Json.get, List.lookup]
  hasNextPage := by simp [pointer, lastPage, Json.get, List.lookup]

theorem isRefusal_bytes :
    isRefusal (.error (.remote "Provider JSON response exceeds 4194304 byte limit")) = true := by decide +kernel

theorem holds_oneEvent : oneEventProvider.Holds [oneEvent] where
  first := rfl
  serves n c size hc hsize := by
    by_cases hrefused : n = 0 ∧ 1 < size
    · left
      dsimp only [oneEventProvider]
      rw [if_pos hrefused]
      exact ⟨isRefusal_bytes, hrefused.2⟩
    · right
      have hlast : ¬ c + size < [oneEvent].length := by
        rw [List.length_singleton]
        omega
      dsimp only [oneEventProvider]
      rw [if_neg hrefused]
      refine ⟨_, rfl, ?_, fun hmore => absurd hmore hlast⟩
      rw [decide_eq_false hlast]
      obtain ⟨size, rfl⟩ := Nat.exists_eq_add_of_le' hsize
      rw [List.length_singleton] at hc
      interval_cases c
      · rw [List.drop_zero, List.take_of_length_le (Nat.le_add_left 1 size)]
        exact isPage_lastPage [oneEvent]
      · exact isPage_lastPage []

theorem ofTransaction_oneEvent : ∀ event ∈ [oneEvent], OfTransaction (.some "digest") event := by
  intro event hevent digest hdigest
  obtain rfl := List.mem_singleton.mp hevent
  obtain rfl := Option.some.inj hdigest
  simp [pointer, oneEvent, Json.get, List.lookup]

theorem cost_oneEvent : ([oneEvent].map cost).sum = 7 := by
  simp [oneEvent, cost, costOfEntries]

/-- After the first request, which is refused. -/
theorem stateAfter_one : oneEventProvider.stateAfter (fun _ => lastPageText) (.some "digest") 1 =
    .some { start with pageSize := 25 } := by
  have hanswer : oneEventProvider.answer 0 start.request =
      .error (.remote "Provider JSON response exceeds 4194304 byte limit") := by
    dsimp only [oneEventProvider]
    exact if_pos ⟨rfl, by decide⟩
  have hrefused : 1 < start.pageSize ∧
      isResponseSizeRefusal (.remote "Provider JSON response exceeds 4194304 byte limit") = true :=
    ⟨by decide, isRefusal_bytes⟩
  rw [Provider.stateAfter, Provider.stateAfter, Option.bind_some, hanswer, turn, if_pos hrefused]
  rfl

/-- The second request is answered with the event, and there is no third. -/
theorem stateAfter_two (k : Nat) :
    oneEventProvider.stateAfter (fun _ => lastPageText) (.some "digest") (k + 2) = .none := by
  induction k with
  | zero =>
    have hanswer : oneEventProvider.answer 1 { start with pageSize := 25 : State }.request =
        .ok (lastPage [oneEvent]) := rfl
    have hturn : turn (fun _ => lastPageText) _ 1 { start with pageSize := 25 } (.ok (lastPage [oneEvent])) =
        nextPage 1 _ _ := turn_page (isPage_lastPage [oneEvent]) ofTransaction_oneEvent (by decide) (by decide)
      (by rw [cost_oneEvent]; decide) (by decide)
    have hflag : (pointer "result" "hasNextPage" (lastPage [oneEvent])).bind asBool = .some false := by
      rw [(isPage_lastPage [oneEvent]).hasNextPage]
      rfl
    rw [nextPage, hflag] at hturn
    rw [Provider.stateAfter, stateAfter_one, Option.bind_some, hanswer, hturn]
  | succ k ih => rw [Nat.add_right_comm, Provider.stateAfter, ih, Option.bind_none]

theorem withinLimits_oneEvent :
    oneEventProvider.WithinLimits (fun _ => lastPageText) (.some "digest") [oneEvent] where
  cost := by
    rw [cost_oneEvent]
    decide
  bytes n := by
    have hlater : ∀ k, oneEventProvider.answers (fun _ => lastPageText) (.some "digest") (k + 2) =
        .error .unavailable := fun k => by rw [Provider.answers, stateAfter_two]
    have hbound : ∀ n, oneEventProvider.servedBytes (fun _ => lastPageText) (.some "digest") n ≤
        min n 2 * lastPageText.utf8ByteSize := by
      intro n
      induction n with
      | zero => exact Nat.zero_le _
      | succ n ih =>
        rw [Provider.servedBytes, List.range_succ, List.map_append, List.sum_append, ← Provider.servedBytes,
          List.map_singleton, List.sum_singleton]
        rcases Nat.lt_or_ge n 2 with hn | hn
        · have hterm : (match oneEventProvider.answers (fun _ => lastPageText) (.some "digest") n with
              | .ok _ => lastPageText.utf8ByteSize
              | .error _ => 0) ≤ lastPageText.utf8ByteSize := by
            split
            · exact le_rfl
            · exact Nat.zero_le _
          rw [Nat.min_eq_left hn.le] at ih
          rw [Nat.min_eq_left hn, Nat.succ_mul]
          omega
        · obtain ⟨k, rfl⟩ := Nat.exists_eq_add_of_le' hn
          rw [hlater, Nat.min_eq_right (by omega)]
          rwa [Nat.min_eq_right hn] at ih
    refine (hbound n).trans ((Nat.mul_le_mul_right _ (min_le_right n 2)).trans ?_)
    decide

/-- The event is found although its page was refused at first. -/
theorem queryEvents_complete_oneEvent : ∃ response,
    (queryEvents (fun _ => lastPageText) (.some "digest")
      (oneEventProvider.answers (fun _ => lastPageText) (.some "digest"))).2 = .ok response ∧
      IsComplete [oneEvent] response :=
  (queryEvents_complete _ _ _ _ holds_oneEvent ofTransaction_oneEvent).1 (by decide) withinLimits_oneEvent

end Pillar.IotaEvents
