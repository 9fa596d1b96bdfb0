/-
What is done to a request's body before the handlers see it (`pillar-api`,
`express.rs` and `upload.rs`): the headers decide whether it is read at all, and
a compressed one is inflated under a permit.

`Env` holds what the decision does not depend on: the inflation, the decoders,
and the parser. A header's name is in lower case, as `HeaderName` has it.
-/
import Pillar.Core
import Pillar.Json
import Pillar.Lossy
import Pillar.Redact
import Pillar.Tracked

namespace Pillar.Express
open Pillar.Text Pillar.Lossy
open Redact (splitOnce)

/-! ## Headers -/

inductive AppError where
  | badRequest (message : String)
  | unresolvableCommand (message : String)
  | http (status : Nat) (message : String)
  | malformedJson (message : String)
  | internal (message : String)
  | admission (error : BudgetError)
  deriving Repr, DecidableEq

/-- `JSON_BODY_LIMIT_BYTES`. -/
def jsonBodyLimitBytes : Nat := 100 * 1024

/-- The lines of a request's head, in order. -/
abbrev HeaderMap := List (String × List UInt8)

namespace HeaderMap

def getAll (headers : HeaderMap) (name : String) : List (List UInt8) :=
  (headers.filter fun line => line.1 = name).map Prod.snd

def get (headers : HeaderMap) (name : String) : Option (List UInt8) := (headers.getAll name).head?

def containsKey (headers : HeaderMap) (name : String) : Bool := !(headers.getAll name).isEmpty

end HeaderMap

/-- `HeaderValue::to_str`. -/
def toStr (value : List UInt8) : Option String :=
  if value.all fun byte => (32 ≤ byte.toNat && byte.toNat < 127) || byte.toNat = 9 then
    .some (String.ofList (value.map fun byte => Char.ofNat byte.toNat))
  else .none

/-- A length that the head declares. -/
def declaredLength (headers : HeaderMap) : Option Nat := do
  let value ← (headers.get "content-length").bind toStr
  (parse 64 (trim value)).toOption

/-- `trim_matches('"')`. -/
def trimQuotes (text : String) : String := String.ofList ((text.toList.dropWhile (· = '"')).rdropWhile (· = '"'))

def charsetParameter (parameter : String) : Option String := do
  let (name, value) ← splitOnce ['='] parameter.toList
  if eqIgnoreAsciiCase (trim (String.ofList name)) "charset" then
    return toAsciiLowercase (trimQuotes (trim (String.ofList value)))
  else .none

/-- `json_charset`. -/
def jsonCharset (headers : HeaderMap) : Option String :=
  let contentType := ((headers.get "content-type").bind toStr).getD ""
  let parts := (contentType.toList.splitOn ';').map String.ofList
  if !eqIgnoreAsciiCase (trim (parts.headD "")) "application/json" then .none
  else .some (((parts.tail.reverse.findSome? charsetParameter).filter (· ≠ "")).getD "utf-8")

inductive Coding where
  | identity
  | gzip
  | deflate
  | brotli
  deriving Repr, DecidableEq

def Coding.name : Coding → String
  | .identity => "identity"
  | .gzip => "gzip"
  | .deflate => "deflate"
  | .brotli => "br"

def codingNamed (coding : List Char) : Except AppError Coding :=
  if coding = "identity".toList then .ok .identity
  else if coding = "gzip".toList then .ok .gzip
  else if coding = "deflate".toList then .ok .deflate
  else if coding = "br".toList then .ok .brotli
  else .error (.http 415 ("unsupported content encoding \"" ++ String.ofList coding ++ "\""))

/-- `content_coding`. -/
def contentCoding (L : LowerCase) (headers : HeaderMap) : Except AppError Coding :=
  match headers.getAll "content-encoding" with
  | [] => .ok .identity
  | [value] => if value.isEmpty then .ok .identity else codingNamed (L.toLowercase (fromUtf8Lossy value))
  | values => codingNamed (", ".toList.intercalate (values.map fun value => L.toLowercase (fromUtf8Lossy value)))

inductive Decoder where
  | utf8
  | utf16Le
  | utf16Be
  | utf16Detect
  | utf32Le
  | utf32Be
  | utf32Detect
  | utf7
  | utf7Imap
  deriving Repr, DecidableEq

/-- `rsplit_once`. -/
def rsplitOnce (c : Char) (text : List Char) : Option (List Char × List Char) :=
  (splitOnce [c] text.reverse).map fun (after, before) => (before.reverse, after.reverse)

/-- A label without `:YYYY` at its end. -/
def dropYear (label : List Char) : List Char :=
  match rsplitOnce ':' label with
  | .some (head, year) => if year.length = 4 && year.all Char.isDigit then head else label
  | .none => label

/-- `Decoder::for_label`. -/
def Decoder.forLabel (label : String) : Option Decoder :=
  match String.ofList ((dropYear (toAsciiLowercase label).toList).filter fun c => c.isDigit || c.isLower) with
  | "utf8" => .some .utf8
  | "utf16le" => .some .utf16Le
  | "utf16be" => .some .utf16Be
  | "utf16" => .some .utf16Detect
  | "utf32le" => .some .utf32Le
  | "utf32be" => .some .utf32Be
  | "utf32" => .some .utf32Detect
  | "utf7" => .some .utf7
  | "utf7imap" => .some .utf7Imap
  | _ => .none

def isUtf (charset : String) : Bool := (stripPrefix "utf-" charset).isSome

/-- `reads_body`. -/
def readsBody (L : LowerCase) (headers : HeaderMap) : Bool :=
  (jsonCharset headers).any fun charset =>
    isUtf charset && (Decoder.forLabel charset).isSome &&
      match contentCoding L headers with
      | .ok .identity | .ok .gzip | .ok .deflate => true
      | _ => false

/-! ## The body -/

/-- `BytesRejection`. -/
structure Rejection where
  status : Nat
  bodyText : String

structure Env where
  lowerCase : LowerCase
  inflate : List UInt8 → Coding → Exec AppError (List UInt8)
  decode : Decoder → List UInt8 → String
  parseValue : String → Except String Json
  /-- A `JoinError`, as it displays. -/
  joinError : String

/-- What happens to the decompression slots. -/
inductive Event where
  | permit
  | inflate
  | release
  deriving Repr, DecidableEq

/-- A call with the events so far. -/
abbrev Logged := Tracked (List Event) AppError

def unsupportedCharset (charset : String) : AppError :=
  .http 415 ("unsupported charset \"" ++ String.ofList (charset.toList.map upperChar) ++ "\"")

def tooLarge : AppError := .http 413 "request entity too large"

/-- `Result` as a call. -/
def liftExcept {α : Type} : Except AppError α → Logged α
  | .ok a => pure a
  | .error e => Tracked.fail e

/-- Whether the head says that a body follows. -/
def framed (headers : HeaderMap) : Bool := headers.containsKey "transfer-encoding" || (declaredLength headers).isSome

def hasBody (headers : HeaderMap) (body : Except Rejection (List UInt8)) : Bool :=
  framed headers ||
    match body with
    | .ok bytes => !bytes.isEmpty
    | .error _ => true

variable (env : Env)

/-- What is made of the bytes. -/
def readBytes (decoder : Decoder) (bytes : List UInt8) : Logged (Option Json) := do
  let text := env.decode decoder bytes
  let text := (stripPrefix (String.singleton (Char.ofNat 0xfeff)) text).getD text
  if text.isEmpty then return .some (.object [])
  let first := text.toList.find? (· ∉ [' ', '\t', '\n', '\r'])
  if first ∉ [Option.some '{', Option.some '['] then
    Tracked.fail (.malformedJson "Failed to parse the request body as JSON: expected an object or array")
  else
    match env.parseValue text with
    | .ok value => return .some value
    | .error e => Tracked.fail (.malformedJson ("Failed to parse the request body as JSON: " ++ e))

/-- The bytes before they are decoded. -/
def plainBytes (raw : List UInt8) (coding : Coding) : Logged (List UInt8) :=
  if coding = .identity then pure raw
  else do
    Tracked.update (· ++ [.inflate])
    Tracked.call (env.inflate raw coding)

/-- `read_json_body_sync`. -/
def readJsonBodySync (headers : HeaderMap) (body : Except Rejection (List UInt8)) : Logged (Option Json) :=
  match (jsonCharset headers).filter fun _ => hasBody headers body with
  | .none => pure .none
  | .some charset =>
    if !isUtf charset then Tracked.fail (unsupportedCharset charset)
    else do
      let coding ← liftExcept (contentCoding env.lowerCase headers)
      match Decoder.forLabel charset with
      | .none =>
        if coding = .identity && (declaredLength headers).any (· > jsonBodyLimitBytes) then Tracked.fail tooLarge
        else Tracked.fail (unsupportedCharset charset)
      | .some decoder =>
        if coding = .brotli then
          Tracked.fail (.malformedJson "Failed to inflate the request body: brotli decoding is not supported")
        else
          match body with
          | .error rejection => Tracked.fail (.http rejection.status rejection.bodyText)
          | .ok raw => do
            let bytes ← plainBytes env raw coding
            readBytes env decoder bytes

/-- Whether a permit is asked for. -/
def compressed (headers : HeaderMap) : Bool :=
  ((headers.get "content-encoding").bind toStr).any fun value =>
    eqIgnoreAsciiCase value "gzip" || eqIgnoreAsciiCase value "deflate"

/-- `spawn_blocking`: the worker holds the permit until it ends, and its panic is an error of the join. -/
def spawnBlocking {α : Type} (x : Logged α) : Logged α := fun log =>
  match x (log ++ [.permit]) with
  | (.error .panic, log) => (Exec.err (.internal ("Request decoder failed: " ++ env.joinError)), log ++ [.release])
  | (.error .fuel, log) => (.error .fuel, log)
  | (result, log) => (result, log ++ [.release])

/-- `read_json_body`; `slot` is whether a slot is free. -/
def readJsonBody (slot : Bool) (headers : HeaderMap) (body : Except Rejection (List UInt8)) : Logged (Option Json) :=
  if !compressed headers then readJsonBodySync env headers body
  else if !slot then Tracked.fail (.http 503 "Compressed request processing capacity exhausted")
  else spawnBlocking env (readJsonBodySync env headers body)

/-! ## The upload -/

/-- What the stream of a body yields next. -/
inductive Upload where
  | chunk (bytes : List UInt8)
  | failed
  | late

def bufferChunks : List UInt8 → List Upload → Except AppError (List UInt8)
  | bytes, [] => .ok bytes
  | _, .late :: _ => .error (.http 408 "Request body upload timed out")
  | _, .failed :: _ => .error (.http 400 "Failed to read request body")
  | bytes, .chunk chunk :: uploads =>
    if chunk.length > jsonBodyLimitBytes - bytes.length then .error tooLarge else bufferChunks (bytes ++ chunk) uploads

structure Request where
  method : String
  path : String
  headers : HeaderMap
  /-- `is_end_stream`. -/
  ended : Bool
  uploads : List Upload

/-- What `buffer_request` puts in the place of a body. -/
inductive Handed where
  | untouched
  | bytes (content : List UInt8)

/-- What the handlers find, of a body that would reach them as `body`. -/
def Handed.body (body : Except Rejection (List UInt8)) : Handed → Except Rejection (List UInt8)
  | .untouched => body
  | .bytes content => .ok content

/-- `buffer_request`; `permit` is whether the budget has one left. -/
def bufferRequest (L : LowerCase) (permit : Bool) (request : Request) : Except AppError Handed :=
  if request.method ≠ "POST" ∨ request.path ∉ ["/", "/v2/resolve-and-sign"] ∨ request.ended then .ok .untouched
  else if !readsBody L request.headers then .ok (.bytes [])
  else if !permit then .error (.http 503 "Incomplete request body capacity exhausted")
  else (bufferChunks [] request.uploads).map .bytes

/-! ## A body that is not read -/

variable {env : Env} {headers : HeaderMap}

theorem hasBody_of_framed (h : framed headers) (body : Except Rejection (List UInt8)) : hasBody headers body := by
  unfold hasBody
  rw [h, Bool.true_or]

/-- **Where the head says that a body follows but not one that is read, the answer
is one for every body.** -/
theorem readJsonBodySync_unread (hframed : framed headers) (hunread : readsBody env.lowerCase headers = false)
    (body body' : Except Rejection (List UInt8)) :
    readJsonBodySync env headers body = readJsonBodySync env headers body' := by
  unfold readJsonBodySync
  cases hcharset : jsonCharset headers with
  | none => rfl
  | some charset =>
    rw [readsBody, hcharset, Option.any_some] at hunread
    simp only [hasBody_of_framed hframed, Option.filter_some, if_true]
    by_cases hutf : isUtf charset = true
    · rw [hutf, Bool.true_and] at hunread
      rw [hutf, if_neg (by decide), if_neg (by decide)]
      cases hcoding : contentCoding env.lowerCase headers with
      | error e => rfl
      | ok coding =>
        cases hlabel : Decoder.forLabel charset with
        | none => rfl
        | some decoder =>
          rw [hlabel, hcoding, Option.isSome_some, Bool.true_and] at hunread
          -- only brotli is left, and it is refused before the body
          obtain rfl : coding = .brotli := by cases coding <;> first | rfl | cases hunread
          rfl
    · rw [Bool.not_eq_true] at hutf
      rw [hutf, if_pos (by decide), if_pos (by decide)]

theorem readJsonBody_unread (hframed : framed headers) (hunread : readsBody env.lowerCase headers = false)
    (slot : Bool) (body body' : Except Rejection (List UInt8)) :
    readJsonBody env slot headers body = readJsonBody env slot headers body' := by
  rw [readJsonBody, readJsonBody, readJsonBodySync_unread hframed hunread body body']

theorem bufferRequest_unread {L : LowerCase} {request : Request} (hunread : readsBody L request.headers = false)
    (permit : Bool) :
    bufferRequest L permit request = .ok .untouched ∨ bufferRequest L permit request = .ok (.bytes []) := by
  unfold bufferRequest
  split
  · exact .inl rfl
  · rw [hunread]
    exact .inr rfl

/-! ## Inflation -/

theorem isLetter_of_lowerChar {c : Char} (h : isLetter (lowerChar c)) : isLetter c := by
  unfold lowerChar at h
  split at h
  · next hupper => exact decide_eq_true (.inl hupper)
  · exact h

theorem toStr_of_isLetter {value : List UInt8} (hascii : ∀ b ∈ value, b.toNat < 128)
    (h : ∀ b ∈ value, isLetter (Char.ofNat b.toNat)) :
    toStr value = .some (String.ofList (value.map fun b => Char.ofNat b.toNat)) := by
  unfold toStr
  refine if_pos (List.all_eq_true.mpr fun b hb => ?_)
  have hletter := of_decide_eq_true (h b hb)
  rw [toNat_ofNat (by unfold Nat.isValidChar; have := hascii b hb; omega)] at hletter
  rw [Bool.or_eq_true, Bool.and_eq_true, decide_eq_true_iff, decide_eq_true_iff]
  omega

/-- **A value that lowers to a word of ASCII letters is a text, and the word but for case.** -/
theorem toStr_of_word {L : LowerCase} {word : String} (hletters : ∀ d ∈ word.toList, isLetter d)
    (hk : 'k' ∉ word.toList) {value : List UInt8} (h : L.toLowercase (fromUtf8Lossy value) = word.toList) :
    ∃ text, toStr value = .some text ∧ eqIgnoreAsciiCase text word := by
  obtain ⟨hascii, hmap⟩ := L.toLowercase_eq_word hletters hk h
  obtain ⟨hbytes, htext⟩ := fromUtf8Lossy_ascii hascii
  refine ⟨String.ofList (fromUtf8Lossy value), ?_, ?_⟩
  · rw [htext]
    refine toStr_of_isLetter hbytes fun b hb => isLetter_of_lowerChar (hletters _ ?_)
    rw [← hmap, htext, List.map_map]
    exact List.mem_map_of_mem hb
  · have hlower : toAsciiLowercase (String.ofList (fromUtf8Lossy value)) = word := by
      rw [toAsciiLowercase, String.toList_ofList, hmap, String.ofList_toList]
    rw [eqIgnoreAsciiCase_iff, ← hlower, toAsciiLowercase_idem]

theorem codingNamed_eq_ok {word : List Char} {coding : Coding} (h : codingNamed word = .ok coding) :
    word = coding.name.toList := by
  unfold codingNamed at h
  split_ifs at h with hidentity hgzip hdeflate hbrotli
  · obtain rfl := Except.ok.inj h
    exact hidentity
  · obtain rfl := Except.ok.inj h
    exact hgzip
  · obtain rfl := Except.ok.inj h
    exact hdeflate
  · obtain rfl := Except.ok.inj h
    exact hbrotli

/-- Several lines name no coding. -/
theorem comma_mem_intercalate (first second : List Char) (others : List (List Char)) :
    ',' ∈ ", ".toList.intercalate (first :: second :: others) := by
  rw [List.intercalate_cons_cons]
  simp

/-- **What is inflated is what a permit is asked for**, whatever the letters of its name. -/
theorem compressed_of_contentCoding {L : LowerCase} {coding : Coding} (hcoding : coding = .gzip ∨ coding = .deflate)
    (h : contentCoding L headers = .ok coding) : compressed headers := by
  unfold contentCoding at h
  unfold compressed HeaderMap.get
  generalize headers.getAll "content-encoding" = values at h ⊢
  match values, h with
  | [], h =>
    obtain rfl := Except.ok.inj h
    exact absurd hcoding (by decide)
  | [value], h =>
    dsimp only at h
    split at h
    · obtain rfl := Except.ok.inj h
      exact absurd hcoding (by decide)
    · have hword := codingNamed_eq_ok h
      rw [List.head?_cons, Option.bind_some, Option.any_eq_true]
      rcases hcoding with rfl | rfl
      · obtain ⟨text, htext, heq⟩ := toStr_of_word (by simp [Coding.name, isLetter]) (by simp [Coding.name]) hword
        refine ⟨text, htext, ?_⟩
        rw [show eqIgnoreAsciiCase text "gzip" from heq, Bool.true_or]
      · obtain ⟨text, htext, heq⟩ := toStr_of_word (by simp [Coding.name, isLetter]) (by simp [Coding.name]) hword
        refine ⟨text, htext, ?_⟩
        rw [show eqIgnoreAsciiCase text "deflate" from heq, Bool.or_true]
  | first :: second :: others, h =>
    have hcomma := comma_mem_intercalate (L.toLowercase (fromUtf8Lossy first)) (L.toLowercase (fromUtf8Lossy second))
      (others.map fun value => L.toLowercase (fromUtf8Lossy value))
    have hword := codingNamed_eq_ok h
    rw [List.map_cons, List.map_cons] at hword
    rw [hword] at hcomma
    exact absurd hcomma (by cases coding <;> decide)

/-! ## Permits -/

/-- Every inflation stands behind a permit that is not released. -/
def Permitted (log : List Event) : Prop :=
  ∀ before after, log = before ++ .inflate :: after → .permit ∈ before ∧ .release ∉ before

theorem readBytes_still (decoder : Decoder) (bytes : List UInt8) : (readBytes env decoder bytes).Still := by
  unfold readBytes
  dsimp only
  split
  · exact Tracked.Still.pure _
  · split
    · exact Tracked.Still.fail _
    · generalize env.parseValue _ = parsed
      cases parsed with
      | ok value => exact Tracked.Still.pure _
      | error e => exact Tracked.Still.fail _

theorem liftExcept_still {α : Type} (x : Except AppError α) : (liftExcept x).Still := by
  cases x with
  | ok a => exact Tracked.Still.pure _
  | error e => exact Tracked.Still.fail _

theorem plainBytes_log (raw : List UInt8) (coding : Coding) (log : List Event) :
    (plainBytes env raw coding log).2 = if coding = .identity then log else log ++ [.inflate] := by
  unfold plainBytes
  split <;> rfl

theorem contentCoding_of_lift {L : LowerCase} {coding : Coding} {log : List Event}
    (h : (liftExcept (contentCoding L headers) log).1 = .ok coding) : contentCoding L headers = .ok coding := by
  cases hcoding : contentCoding L headers with
  | ok a =>
    rw [hcoding] at h
    exact congrArg _ (Except.ok.inj h)
  | error e =>
    rw [hcoding] at h
    cases h

/-- **What the call does to the log**: nothing, or one inflation, of a body that a permit is asked for. -/
theorem readJsonBodySync_log (env : Env) (headers : HeaderMap) (body : Except Rejection (List UInt8))
    (log : List Event) : (readJsonBodySync env headers body log).2 = log ∨
      compressed headers ∧ (readJsonBodySync env headers body log).2 = log ++ [.inflate] := by
  unfold readJsonBodySync
  cases (jsonCharset headers).filter fun _ => hasBody headers body with
  | none => exact .inl (Tracked.Still.pure _ log)
  | some charset =>
    dsimp only
    cases !isUtf charset with
    | true => exact .inl (Tracked.Still.fail _ log)
    | false =>
      rw [if_neg (by decide)]
      refine (liftExcept_still _).bind_or (R := fun s => s = log ∨ compressed headers ∧ s = log ++ [.inflate])
        (.inl rfl) fun coding hcoding => ?_
      cases Decoder.forLabel charset with
      | none =>
        dsimp only
        split
        · exact .inl (Tracked.Still.fail _ log)
        · exact .inl (Tracked.Still.fail _ log)
      | some decoder =>
        dsimp only
        by_cases hbrotli : coding = .brotli
        · rw [if_pos hbrotli]
          exact .inl (Tracked.Still.fail _ log)
        · rw [if_neg hbrotli]
          cases body with
          | error rejection => exact .inl (Tracked.Still.fail _ log)
          | ok raw =>
            dsimp only
            rw [Tracked.snd_bind_still _ (readBytes_still _), plainBytes_log]
            by_cases hidentity : coding = .identity
            · rw [if_pos hidentity]
              exact .inl rfl
            · rw [if_neg hidentity]
              refine .inr ⟨compressed_of_contentCoding ?_ (contentCoding_of_lift hcoding), rfl⟩
              cases coding with
              | identity => exact absurd rfl hidentity
              | gzip => exact .inl rfl
              | deflate => exact .inr rfl
              | brotli => exact absurd rfl hbrotli

theorem permitted_of_not_mem {log : List Event} (h : .inflate ∉ log) : Permitted log :=
  fun before after hlog => absurd (by rw [hlog]; simp) h

theorem permitted_of_head {rest : List Event} (h : .inflate ∉ rest) : Permitted (.permit :: .inflate :: rest) := by
  intro before after hlog
  match before with
  | [] => cases hlog
  | [first] =>
    obtain rfl : Event.permit = first := (List.cons.inj hlog).1
    exact ⟨List.mem_cons_self, by decide⟩
  | first :: second :: before =>
    have hrest : rest = before ++ .inflate :: after := (List.cons.inj (List.cons.inj hlog).2).2
    exact absurd (by rw [hrest]; simp) h

theorem spawnBlocking_log {α : Type} (env : Env) (x : Logged α) (log : List Event) :
    (spawnBlocking env x log).2 = (x (log ++ [.permit])).2 ∨
      (spawnBlocking env x log).2 = (x (log ++ [.permit])).2 ++ [.release] := by
  unfold spawnBlocking
  generalize x (log ++ [.permit]) = run
  rcases run with ⟨(_ | _ | _) | _, log'⟩
  · exact .inr rfl
  · exact .inr rfl
  · exact .inl rfl
  · exact .inr rfl

/-- **A body is inflated under a permit.** -/
theorem readJsonBody_permitted (slot : Bool) (body : Except Rejection (List UInt8)) :
    Permitted (readJsonBody env slot headers body []).2 := by
  unfold readJsonBody
  cases hcompressed : compressed headers with
  | false =>
    rw [if_pos (by decide)]
    rcases readJsonBodySync_log env headers body [] with h | ⟨h, -⟩
    · rw [h]
      exact permitted_of_not_mem List.not_mem_nil
    · rw [hcompressed] at h
      cases h
  | true =>
    rw [if_neg (by decide)]
    cases slot with
    | false => exact permitted_of_not_mem List.not_mem_nil
    | true =>
      rw [if_neg (by decide)]
      -- the worker's log, and that log with the release
      rcases spawnBlocking_log env (readJsonBodySync env headers body) [] with h | h <;>
        rcases readJsonBodySync_log env headers body ([] ++ [.permit]) with h' | ⟨-, h'⟩
      · rw [h, h']
        exact permitted_of_not_mem (by decide)
      · rw [h, h']
        exact permitted_of_head (by decide)
      · rw [h, h']
        exact permitted_of_not_mem (by decide)
      · rw [h, h']
        exact permitted_of_head (by decide)

/-- **A body that is dropped unread would not have changed the answer**, and no
body is inflated without a permit: what is inflated is what a permit is asked for. -/
theorem skipsUnread_inflatesPermitted (env : Env) :
    (∀ headers, framed headers → readsBody env.lowerCase headers = false →
      (∀ body body', readJsonBodySync env headers body = readJsonBodySync env headers body') ∧
      ∀ (permit slot : Bool) (request : Request), request.headers = headers →
        ∃ handed, bufferRequest env.lowerCase permit request = .ok handed ∧
          ∀ body, readJsonBody env slot headers (handed.body body) = readJsonBody env slot headers body) ∧
    (∀ headers coding, coding = .gzip ∨ coding = .deflate → contentCoding env.lowerCase headers = .ok coding →
      compressed headers) ∧
    ∀ slot headers body, Permitted (readJsonBody env slot headers body []).2 := by
  refine ⟨fun headers hframed hunread => ⟨readJsonBodySync_unread hframed hunread, ?_⟩,
    fun headers coding hcoding h => compressed_of_contentCoding hcoding h,
    fun slot headers body => readJsonBody_permitted slot body⟩
  rintro permit slot request rfl
  rcases bufferRequest_unread hunread permit with h | h
  · exact ⟨_, h, fun body => readJsonBody_unread hframed hunread slot _ body⟩
  · exact ⟨_, h, fun body => readJsonBody_unread hframed hunread slot _ body⟩

def asciiLower : LowerCase where
  lower _ c _ := if c = dottedI then ['i', Char.ofNat 0x307] else if c = kelvinSign then ['k'] else [lowerChar c]
  ascii _ c _ h := by
    have hdotted : c ≠ dottedI := by
      rintro rfl
      exact absurd h (by decide)
    have hkelvin : c ≠ kelvinSign := by
      rintro rfl
      exact absurd h (by decide)
    rw [if_neg hdotted, if_neg hkelvin]
  ne_nil _ c _ := by split_ifs <;> exact List.cons_ne_nil _ _
  letters _ c _ hwide := by
    rintro ⟨d, hd, hletter⟩
    by_contra hother
    obtain ⟨hdotted, hkelvin⟩ := not_or.mp hother
    rw [if_neg hdotted, if_neg hkelvin, List.mem_singleton] at hd
    have hc := of_decide_eq_true (isLetter_of_lowerChar (hd ▸ hletter))
    omega
  dotted _ _ := if_pos rfl
  kelvin _ _ := rfl

def plainEnv : Env where
  lowerCase := asciiLower
  inflate raw _ := .ok raw
  decode _ bytes := String.ofList (fromUtf8Lossy bytes)
  parseValue _ := .error "unexpected"
  joinError := "panicked"

theorem contentCoding_gzip : contentCoding asciiLower [("content-encoding", [71, 90, 105, 112])] = .ok .gzip := by
  have hvalues : HeaderMap.getAll [("content-encoding", [71, 90, 105, 112])] "content-encoding" =
      [[71, 90, 105, 112]] := rfl
  have htext : fromUtf8Lossy [71, 90, 105, 112] = ['G', 'Z', 'i', 'p'] := by
    rw [fromUtf8Lossy_cons_ascii (by decide), fromUtf8Lossy_cons_ascii (by decide),
      fromUtf8Lossy_cons_ascii (by decide), fromUtf8Lossy_cons_ascii (by decide), fromUtf8Lossy_nil]
    rfl
  have hlower : asciiLower.toLowercase ['G', 'Z', 'i', 'p'] = "gzip".toList := by decide
  unfold contentCoding
  rw [hvalues]
  dsimp only
  rw [if_neg (by decide), htext, hlower]
  rfl

theorem skipsUnread_inflatesPermitted_plain :
    (∀ body body', readJsonBodySync plainEnv [("transfer-encoding", [])] body =
      readJsonBodySync plainEnv [("transfer-encoding", [])] body') ∧
    compressed [("content-encoding", [71, 90, 105, 112])] :=
  ⟨((skipsUnread_inflatesPermitted plainEnv).1 [("transfer-encoding", [])] (by decide) (by decide)).1,
    (skipsUnread_inflatesPermitted plainEnv).2.1 [("content-encoding", [71, 90, 105, 112])] .gzip (.inl rfl)
      contentCoding_gzip⟩

end Pillar.Express
