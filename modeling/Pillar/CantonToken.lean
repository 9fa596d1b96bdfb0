/-
Canton's OAuth2 client credentials (`pillar-runtime`, `canton_ledger.rs`): the
token fetched for them, the slot that keeps it, and the ledger calls made with
it, under every interleaving of their callers and of callers that go away.

Each event is one access to what is shared: the clock, the mutex, the slot
under it, the identity provider or the ledger. An event that is not possible
changes nothing. A call has a number of its own, and what became visible of the
calls is kept, the latest first, in a log the code does not have.
-/
import Pillar.CantonSequencer

namespace Pillar.CantonToken

open Text
open Canton (jsTrim decimalNumber okOr)

/-! ## The token request -/

structure CantonOAuth2Config where
  tokenUrl : String
  clientId : String
  clientSecret : String
  scope : Option String
  audience : Option String

/-- What is posted to `token_url`. -/
def formPairs (config : CantonOAuth2Config) : List (String × String) :=
  [("grant_type", "client_credentials"), ("client_id", config.clientId), ("client_secret", config.clientSecret)] ++
    [("scope", config.scope), ("audience", config.audience)].filterMap fun (key, value) =>
      (value.filter (· ≠ "")).map fun value => (key, value)

def tokenBufferSeconds : Double := .finite 60
def maxTimerDelayMs : ℚ := 2147483647

/-- `str::parse::<f64>`. -/
def parseF64 (text : List Char) : Option Double :=
  let unsigned := match text with
    | '+' :: rest => rest
    | '-' :: rest => rest
    | text => text
  let word := toAsciiLowercase (String.ofList unsigned)
  if word = "inf" || word = "infinity" then .some (.inf (text.head? = .some '-'))
  else if word = "nan" then .some .nan
  else
    match decimalNumber text with
    | .nan => .none
    | number => .some number

/-- The response's `expires_in`. -/
def expiresIn (response : Json) : Option Double :=
  match response.get "expires_in" with
  | .some (.number number) => .some number.asF64
  | .some (.string text) => parseF64 (jsTrim text.toList)
  | _ => .none

/-- A delay that a timer takes. -/
def isTimerDelay : Double → Bool
  | .finite delay => 1 ≤ delay && delay ≤ maxTimerDelayMs
  | _ => false

/-- How long a token is kept, in milliseconds. -/
def validFor (expiresIn : Option Double) : Option Nat :=
  ((expiresIn.map fun seconds => (seconds.sub tokenBufferSeconds).mul (.finite 1000)).filter
    isTimerDelay).map Double.toNat

/-- The response's `access_token`. -/
def accessToken (response : Json) : Except AppCoreError String :=
  okOr (((response.get "access_token").bind Json.asStr).filter (· ≠ ""))
    (.internal "Client credentials token response has no access_token")

/-- `json_parser_local_error`. -/
def jsonParserLocalError (error : String) : Option RpcError :=
  if error = "Provider JSON parser capacity exhausted" then .some (.admission .overloaded)
  else if error = "Provider JSON parser is draining" then .some (.admission .closed)
  else if error = "Provider JSON parser lane is not configured" then
    .some (.configuration "JSON parser target lane is not configured")
  else if error = "RPC target provenance is missing" then .some (.configuration "RPC target provenance is missing")
  else .none

/-- What a response that is no JSON is refused with. -/
def notJson (error : String) : AppCoreError :=
  ((jsonParserLocalError error).map RpcError.toAppCoreError).getD
    (.internal "Client credentials token response is not JSON")

/-- The refusal of a status other than 2xx; `reason` is its canonical one. -/
def statusError (reason : Nat → String) (status : Nat) : AppCoreError :=
  .internal ("Client credentials token request failed: " ++ toString status ++ " " ++ reason status)

/-! ## Calls -/

structure CachedToken where
  token : String
  /-- Nanoseconds, as the clock. -/
  expiresAt : Nat
  deriving DecidableEq

/-- Where `get_token` stands. Past `locking` it holds the mutex. -/
inductive GetAt where
  | locking
  | locked
  | requesting
  | parsing (text : String)
  | fetched (token : String) (expiresIn : Option Double)

/-- What `get_token` is called for: on its own, or by `authorized`, which calls
it again once the ledger refused a token. -/
inductive Use where
  | alone
  | first
  | again (refused : String) (refusal : RpcError)

def Use.isAgain : Use → Bool
  | .again .. => true
  | _ => false

inductive Outcome where
  | token (result : Except AppCoreError String)
  | invalidated
  | ledger (result : Except RpcError Json)

inductive CallAt where
  | getting (use : Use) (pc : GetAt)
  /-- `invalidate`, by `authorized` after a refusal or on its own. -/
  | invalidating (rejected : String) (refusal : Option RpcError) (locked : Bool)
  | calling (token : String)
  | recalling (token fresh : String)
  | done (outcome : Outcome)
  | dropped

inductive Call where
  | getToken
  | invalidate (rejected : String)
  | authorized

def Call.begin : Call → CallAt
  | .getToken => .getting .alone .locking
  | .invalidate rejected => .invalidating rejected .none false
  | .authorized => .getting .first .locking

/-- A call's step that shows. `again` tells the two `get_token`s of one
`authorized` apart. -/
inductive Entry where
  /-- The identity provider issued a token. -/
  | issued (call : Nat) (again : Bool) (token : String) (expiresIn : Option Double)
  /-- It was put into the slot, for so many milliseconds. -/
  | cached (call : Nat) (again : Bool) (token : String) (expiresIn : Option Double) (now ms : Nat)
  /-- The slot was cleared. -/
  | cleared (call : Nat)
  | got (call : Nat) (again : Bool) (token : String) (now : Nat)
  | invalidated (call : Nat) (token : String)
  | ledgerCall (call : Nat) (token : String)
  | ledgerAnswer (call : Nat) (result : Except RpcError Json)

structure World where
  clock : Nat
  cached : Option CachedToken
  /-- The call that holds the mutex. -/
  lock : Option Nat
  calls : Nat → Option CallAt
  started : Nat
  log : List Entry

inductive Event where
  | tick (ns : Nat)
  | start (call : Call)
  /-- The call's next step, when it is not waiting for an answer. -/
  | advance (call : Nat)
  /-- The identity provider answers, with a status and a body, or the transport fails. -/
  | respond (call : Nat) (answer : Except RpcError (Nat × String))
  | parsed (call : Nat) (result : Except String Json)
  /-- The ledger answers. -/
  | answer (call : Nat) (result : Except RpcError Json)
  /-- The call's future is dropped, wherever it stands. -/
  | drop (call : Nat)

/-- `is_http_unauthorized`. -/
def isHttpUnauthorized : RpcError → Bool
  | .remote message => (stripPrefix "Provider returned HTTP 401 " message).isSome ||
      (stripPrefix "Provider returned HTTP 403 " message).isSome
  | _ => false

def nsPerMs : Nat := 1000000

namespace World

def new (clock : Nat) : World where
  clock := clock
  cached := .none
  lock := .none
  calls := fun _ => .none
  started := 0
  log := []

def put (w : World) (id : Nat) (pc : CallAt) : World := { w with calls := Function.update w.calls id (.some pc) }

def record (w : World) (entry : Entry) : World := { w with log := entry :: w.log }

def unlock (w : World) : World := { w with lock := .none }

/-- `*cached = None`. -/
def clear (w : World) (id : Nat) : World := { w with cached := .none, log := .cleared id :: w.log }

/-- `call(bearer(..))`. -/
def callLedger (w : World) (id : Nat) (token : String) (pc : CallAt) : World :=
  (w.put id pc).record (.ledgerCall id token)

/-- `get_token` fails, and drops the guard. -/
def fail (w : World) (id : Nat) (use : Use) (error : AppCoreError) : World :=
  match use with
  | .alone => w.unlock.put id (.done (.token (.error error)))
  | _ => w.unlock.put id (.done (.ledger (.error error.toRpcError)))

/-- What `get_token`'s caller does with the token it got. -/
def useToken (w : World) (id : Nat) (token : String) : Use → World
  | .alone => w.put id (.done (.token (.ok token)))
  | .first => w.callLedger id token (.calling token)
  | .again refused refusal =>
    if token ≠ refused then w.callLedger id token (.recalling refused token)
    else w.put id (.done (.ledger (.error refusal)))

/-- `get_token` returns a token, and drops the guard. -/
def got (w : World) (id : Nat) (use : Use) (token : String) : World :=
  (w.unlock.record (.got id use.isAgain token w.clock)).useToken id token use

/-- The token fetched is kept for as long as it is valid. -/
def keep (w : World) (id : Nat) (use : Use) (token : String) (expiresIn : Option Double) : World :=
  match validFor expiresIn with
  | .some ms =>
    { w with cached := .some ⟨token, w.clock + ms * nsPerMs⟩ }.record
      (.cached id use.isAgain token expiresIn w.clock ms)
  | .none => w

def advanceGet (w : World) (id : Nat) (use : Use) : GetAt → World
  | .locking =>
    match w.lock with
    | .none => { w with lock := .some id }.put id (.getting use .locked)
    | .some _ => w
  | .locked =>
    match w.cached.filter (w.clock < ·.expiresAt) with
    | .some cached => w.got id use cached.token
    | .none => (w.clear id).put id (.getting use .requesting)
  | .fetched token expiresIn => (w.keep id use token expiresIn).got id use token
  | .requesting => w
  | .parsing _ => w

/-- `invalidate` returns, and drops the guard. -/
def invalidated (w : World) (id : Nat) (rejected : String) (refusal : Option RpcError) : World :=
  let w := w.unlock.record (.invalidated id rejected)
  match refusal with
  | .none => w.put id (.done .invalidated)
  | .some refusal => w.put id (.getting (.again rejected refusal) .locking)

def advanceInvalidate (w : World) (id : Nat) (rejected : String) (refusal : Option RpcError) : Bool → World
  | false =>
    match w.lock with
    | .none => { w with lock := .some id }.put id (.invalidating rejected refusal true)
    | .some _ => w
  | true =>
    if w.cached.any (·.token = rejected) then (w.clear id).invalidated id rejected refusal
    else w.invalidated id rejected refusal

def advance (w : World) (id : Nat) : World :=
  match w.calls id with
  | .some (.getting use pc) => w.advanceGet id use pc
  | .some (.invalidating rejected refusal locked) => w.advanceInvalidate id rejected refusal locked
  | _ => w

section

-- A status code's canonical reason, or nothing.
variable (reason : Nat → String)

def respond (w : World) (id : Nat) (answer : Except RpcError (Nat × String)) : World :=
  match w.calls id, answer with
  | .some (.getting use .requesting), .ok (status, text) =>
    if 200 ≤ status ∧ status < 300 then w.put id (.getting use (.parsing text))
    else w.fail id use (statusError reason status)
  | .some (.getting use .requesting), .error error => w.fail id use error.toAppCoreError
  | _, _ => w

def parsed (w : World) (id : Nat) (result : Except String Json) : World :=
  match w.calls id, result with
  | .some (.getting use (.parsing _)), .ok response =>
    match accessToken response with
    | .ok token =>
      (w.put id (.getting use (.fetched token (expiresIn response)))).record
        (.issued id use.isAgain token (expiresIn response))
    | .error error => w.fail id use error
  | .some (.getting use (.parsing _)), .error error => w.fail id use (notJson error)
  | _, _ => w

/-- A refusal of the first call that a new token may help against. -/
def refusedToken (token : String) : Except RpcError Json → Option RpcError
  | .error error => if token ≠ "" ∧ isHttpUnauthorized error then .some error else .none
  | .ok _ => .none

def answer (w : World) (id : Nat) (result : Except RpcError Json) : World :=
  match w.calls id with
  | .some (.calling token) =>
    let w := w.record (.ledgerAnswer id result)
    match refusedToken token result with
    | .some refusal => w.put id (.invalidating token (.some refusal) false)
    | .none => w.put id (.done (.ledger result))
  | .some (.recalling _ _) => (w.record (.ledgerAnswer id result)).put id (.done (.ledger result))
  | _ => w

/-- What a dropped future holds is released. -/
def drop (w : World) (id : Nat) : World :=
  match w.calls id with
  | .none => w
  | .some (.done _) => w
  | .some _ => { w with lock := if w.lock = some id then .none else w.lock }.put id .dropped

def step (w : World) : Event → World
  | .tick ns => { w with clock := w.clock + ns }
  | .start call => { w.put w.started call.begin with started := w.started + 1 }
  | .advance id => w.advance id
  | .respond id answer => w.respond reason id answer
  | .parsed id result => w.parsed id result
  | .answer id result => w.answer id result
  | .drop id => w.drop id

def run (w : World) (events : List Event) : World := events.foldl (step reason) w

end

/-- The call's token request is in flight. -/
def Requesting (w : World) (id : Nat) : Prop := ∃ use, w.calls id = .some (.getting use .requesting)

end World

end Pillar.CantonToken
