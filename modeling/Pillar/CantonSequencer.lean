/-
Canton's sequencer and its committee (`pillar-runtime`, `canton_sequencer.rs`):
the committee as it is configured, the signatures an answer carries, and the
check that enough of the committee signed it.

URLs, the curve and the hash are crates and parameters here, and so is how a
double is rendered in an error. What a public key is recovered as from a digest
and a signature is left open altogether.
-/
import Pillar.CantonPayload
import Pillar.Double
import Pillar.Hex
import Pillar.ProviderPool

namespace Pillar.Canton

open Text Hex
open Provider (ProviderConfig ProviderUri)

/-! ## JavaScript's readings -/

/-- ECMAScript's `WhiteSpace` and `LineTerminator`. -/
def jsSpace (c : Char) : Bool :=
  let n := c.toNat
  n = 0x9 || n = 0xa || n = 0xb || n = 0xc || n = 0xd || n = 0x20 || n = 0xa0 || n = 0x1680 ||
    (0x2000 ≤ n && n ≤ 0x200a) || n = 0x2028 || n = 0x2029 || n = 0x202f || n = 0x205f || n = 0x3000 || n = 0xfeff

def jsTrim (text : List Char) : List Char := ((text.dropWhile jsSpace).reverse.dropWhile jsSpace).reverse

def maxJsBigintInputBytes : Nat := 1024

/-- `JsBigInt::parse_radix(..).map_or(f64::NAN, |value| value.to_f64())`. -/
def radixNumber (radix : Nat) (digits : List Char) : Double :=
  if digits.isEmpty || maxJsBigintInputBytes < (String.ofList digits).utf8ByteSize then .nan
  else
    match digits.mapM (toDigit radix) with
    | .none => .nan
    | .some values => .ofNat (values.foldl (fun n d => n * radix + d) 0)

/-- A decimal with a sign, a fraction and an exponent, or `Infinity`. -/
def decimalNumber (trimmed : List Char) : Double :=
  let negative := trimmed.head? = .some '-'
  let unsigned := match trimmed with
    | '+' :: rest => rest
    | '-' :: rest => rest
    | trimmed => trimmed
  if unsigned = "Infinity".toList then .inf negative
  else
    let mantissa := unsigned.takeWhile fun c => c ≠ 'e' && c ≠ 'E'
    let exponent := (unsigned.dropWhile fun c => c ≠ 'e' && c ≠ 'E').tail?
    let whole := mantissa.takeWhile (· ≠ '.')
    let fraction := (mantissa.dropWhile (· ≠ '.')).tail
    let exponentDigits := fun exponent : List Char => match exponent with
      | '+' :: rest => rest
      | '-' :: rest => rest
      | exponent => exponent
    let exponentOk := exponent.all fun e => !(exponentDigits e).isEmpty && (exponentDigits e).all Char.isDigit
    if (whole.isEmpty && fraction.isEmpty) || !whole.all Char.isDigit || !fraction.all Char.isDigit
      || !exponentOk then .nan
    else
      let power : ℤ := exponent.elim 0 fun e =>
        let magnitude := (Nat.ofDigitChars 10 (exponentDigits e) 0 : ℤ)
        if e.head? = .some '-' then -magnitude else magnitude
      let magnitude : ℚ := Nat.ofDigitChars 10 (whole ++ fraction) 0 * (10 : ℚ) ^ (power - fraction.length)
      .ofRat (if negative then -magnitude else magnitude)

/-- `Number(string)`. -/
def jsStringToNumber (text : String) : Double :=
  match jsTrim text.toList with
  | [] => .finite 0
  | '0' :: 'x' :: digits | '0' :: 'X' :: digits => radixNumber 16 digits
  | '0' :: 'o' :: digits | '0' :: 'O' :: digits => radixNumber 8 digits
  | '0' :: 'b' :: digits | '0' :: 'B' :: digits => radixNumber 2 digits
  | trimmed => decimalNumber trimmed

/-! ## Crates -/

/-- The `url` crate, as far as it is used. -/
structure UrlCrate where
  Url : Type
  parse : String → Option Url
  scheme : Url → String
  hostStr : Url → Option String
  queryPairs : Url → List (String × String)
  /-- With its query replaced, or dropped when there is nothing in it. -/
  withQuery : Url → List (String × String) → Url
  href : Url → String
  join : Url → String → Option Url

/-- `k256` and `sha3`, as far as they are used: points by their uncompressed bytes. -/
structure CurveCrate where
  /-- The point with this coordinate and this parity of the other. -/
  decompress : List UInt8 → Bool → Option (List UInt8)
  fromSec1Bytes : List UInt8 → Option (List UInt8)
  keccak256 : ByteArray → List UInt8

structure Crates where
  hex : HexCrate
  url : UrlCrate
  curve : CurveCrate
  jsNumber : JsonNumber → String
  jsNumberF64 : Double → String
  /-- `recover_public_key`, of a digest and a signature. -/
  recoverPublicKey : List UInt8 → List UInt8 → Except String String

variable (crates : Crates)

/-- `Option::ok_or`. -/
def okOr {ε α : Type} (o : Option α) (error : ε) : Except ε α :=
  match o with
  | .none => .error error
  | .some a => .ok a

/-! ## Keys -/

def hexDigits (text : String) : String := (stripPrefix "0x" text).getD text

def isHex (digits : String) : Bool := digits.toList.all fun c => (hexDigit? c).isSome

/-- `ver_hex_to_bytes`. -/
def verHexToBytes (value : String) : Except String (List UInt8) :=
  let digits := hexDigits value
  if !isHex digits then .error ("invalid hex string (length " ++ toString (encodeUtf16 value).length ++ ")")
  else if digits.utf8ByteSize % 2 ≠ 0 then
    .error ("hex string has an odd length (" ++ toString digits.utf8ByteSize ++ ")")
  else crates.hex.decode digits

def fieldPrime : Nat := 0xFFFFFFFFFFFFFFFFFFFFFFFFFFFFFFFFFFFFFFFFFFFFFFFFFFFFFFFEFFFFFC2F

/-- `U256::from_be_slice`. -/
def fromBeSlice (bytes : List UInt8) : Nat := bytes.foldl (fun n b => 256 * n + b.toNat) 0

/-- The point of a coordinate, even or odd. -/
def pointOf (x : List UInt8) (odd : Bool) : Except String (List UInt8) :=
  if fromBeSlice x = 0 || fieldPrime ≤ fromBeSlice x then .error "Point is not on curve"
  else okOr (crates.curve.decompress x odd) "Point is not on elliptic curve"

def decodePoint (bytes : List UInt8) : Except String (List UInt8) :=
  if bytes.length = 32 then pointOf crates bytes false
  else if bytes.length = 33 ∧ (bytes.head? = .some 2 ∨ bytes.head? = .some 3) then
    pointOf crates bytes.tail (bytes.head? = .some 3)
  else if bytes.length = 65 ∧ bytes.head? = .some 4 then
    okOr (crates.curve.fromSec1Bytes bytes) "Point is not on elliptic curve"
  else .error ("Point.fromHex: received invalid point. Expected 32-33 compressed bytes or 65 uncompressed bytes, not " ++
    toString bytes.length)

def normalizeSecp256k1PublicKey (publicKey : String) : Except String String := do
  let point ← decodePoint crates (← verHexToBytes crates publicKey)
  return "0x" ++ crates.hex.encode point

/-! ## The committee -/

def maxCantonSignatures : Nat := 64

structure Committee where
  /-- Normalized, in configuration order. -/
  publicKeys : List String
  quorum : Nat
  deriving DecidableEq

def isLoopbackOctet (octet : List Char) : Bool :=
  !octet.isEmpty && octet.length ≤ 3 && octet.all Char.isDigit &&
    (octet.length = 1 || octet.head? ≠ .some '0') && Nat.ofDigitChars 10 octet 0 ≤ 255

def isLoopbackIpv4 (host : String) : Bool :=
  match host.toList.splitOn '.' with
  | [first, a, b, c] => first = "127".toList && [a, b, c].all isLoopbackOctet
  | _ => false

def isLoopback (host : String) : Bool := host = "localhost" || host = "[::1]" || isLoopbackIpv4 host

/-- The value of the first query parameter of that name. -/
def param (url : crates.url.Url) (name : String) : Option String := (crates.url.queryPairs url).lookup name

/-- `validators.split(',')`, trimmed, without the empty ones. -/
def splitList (text : String) : List String :=
  ((text.toList.splitOn ',').map jsTrim).filterMap fun entry =>
    if entry.isEmpty then .none else .some (String.ofList entry)

def committeeOf (validators quorum : String) : Except String Committee := do
  let publicKeys ← (splitList validators).mapM (normalizeSecp256k1PublicKey crates)
  if publicKeys.isEmpty then
    throw "Canton sequencer provider URI sequencer-validators must contain at least one pubkey"
  else if publicKeys.dedup.length ≠ publicKeys.length then
    throw "Canton sequencer provider URI sequencer-validators must not contain duplicate pubkeys"
  else
    let count := jsStringToNumber quorum
    if !count.isPositiveInteger then
      throw ("Canton sequencer provider URI sequencer-quorum must be a positive integer, got: " ++ quorum)
    else if count.gt (.ofNat maxCantonSignatures) then
      throw ("Canton sequencer provider URI sequencer-quorum=" ++ crates.jsNumberF64 count ++
        " exceeds maximum supported quorum " ++ toString maxCantonSignatures)
    else if count.gt (.ofNat publicKeys.length) then
      throw ("Canton sequencer provider URI sequencer-quorum=" ++ crates.jsNumberF64 count ++
        " exceeds committee size " ++ toString publicKeys.length)
    else return { publicKeys, quorum := count.toNat }

/-- The committee of the two parameters, which go together. -/
def committeeParams : Option String → Option String → Except String (Option Committee)
  | .some validators, .some quorum => some <$> committeeOf crates validators quorum
  | .none, .none => .ok .none
  | _, _ => .error "Canton sequencer provider URI must set both sequencer-validators and sequencer-quorum together"

def parseCantonSequencerUri (uri : String) : Except String (String × Option Committee) := do
  let url ← okOr (crates.url.parse uri) "Invalid URL"
  let loopback := (crates.url.hostStr url).any isLoopback
  if !(crates.url.scheme url = "https" || (crates.url.scheme url = "http" && loopback)) then
    throw "Canton sequencer provider URI must use HTTPS or a loopback host"
  else
    let remaining := (crates.url.queryPairs url).filter fun (key, _) =>
      key ≠ "sequencer-validators" && key ≠ "sequencer-quorum"
    let committee ← committeeParams crates (param crates url "sequencer-validators")
      (param crates url "sequencer-quorum")
    let href := crates.url.href (crates.url.withQuery url remaining)
    return (if href.toList.getLast? = .some '/' then String.ofList href.toList.dropLast else href, committee)

/-! ## The sequencer -/

structure CantonSequencer where
  vappUrl : crates.url.Url
  scanUrl : crates.url.Url
  headers : List (String × String)
  committee : Option Committee

/-- `provider_uri_parts`. -/
def providerUriParts : ProviderUri → String × List (String × String)
  | .uri uri => (uri, [])
  | .uriWithHeaders uri headers => (uri, headers.toList)

/-- The refusals of `parse_canton_chain_uri`. -/
def checkCantonChainUri (uri : String) : Except String Unit :=
  match crates.url.parse uri with
  | .none => .error "Invalid URL"
  | .some url =>
    if ((param crates url "admin-api").getD "").isEmpty then
      .error "Canton provider URI missing required \"admin-api\" query parameter"
    else if ((param crates url "wallet-url").getD "").isEmpty then
      .error "Canton provider URI missing required \"wallet-url\" query parameter"
    else .ok ()

/-- `map_err(AppCoreError::Internal)`. -/
def orInternal {α : Type} : Except String α → Except AppCoreError α := Except.mapError AppCoreError.internal

/-- The first `rpc` URI, where there is one, is one of a Canton chain. -/
def checkRpc (config : ProviderConfig) : Except AppCoreError Unit :=
  match config.uris.head? with
  | .none => .ok ()
  | .some rpc => orInternal (checkCantonChainUri crates (providerUriParts rpc).1)

def buildCantonSequencer (chainName : String) (config : ProviderConfig) :
    Except AppCoreError (CantonSequencer crates) := do
  let entry ← okOr config.sequencer.head?
    (AppCoreError.internal ("Missing \"sequencer\" provider config for chain: " ++ chainName))
  let (uri, headers) := providerUriParts entry
  let (sequencerUrl, committee) ← orInternal (parseCantonSequencerUri crates uri)
  -- No letter outside ASCII lowers to one of these, so this is Unicode's lowercase too.
  let authorized := headers.any fun (name, value) =>
    toAsciiLowercase name = "authorization" && !(jsTrim value.toList).isEmpty
  if !authorized then
    throw (.internal ("Canton provider for " ++ chainName ++
      " missing an authorization header — add it to the sequencer provider headers"))
  else
    checkRpc crates config
    let base ← okOr (crates.url.parse sequencerUrl) (.internal "Invalid URL")
    let vappUrl ← okOr (crates.url.join base "/vapp") (.internal "Invalid URL")
    let scanUrl ← okOr (crates.url.join base "/scan") (.internal "Invalid URL")
    return { vappUrl, scanUrl, headers, committee }

/-- Unlike upstream, a sequencer without a committee is refused. -/
def cantonSequencer (chainName : String) (config : ProviderConfig) : Except AppCoreError (CantonSequencer crates) := do
  let sequencer ← buildCantonSequencer crates chainName config
  if sequencer.committee.isNone then
    throw (.internal ("Canton sequencer provider for " ++ chainName ++ " has no committee: set " ++
      "sequencer-validators and sequencer-quorum so its answers are signature-checked"))
  else return sequencer

/-! ## Signatures -/

def maxCantonSignatureHexBytes : Nat := 130

def canonicalHex (value : String) : String := "0x" ++ toAsciiLowercase (hexDigits value)

/-- One entry of the signatures an answer carries. -/
def signatureText (signature : Json) : Option String := do
  let text ← signature.asStr
  let digits := hexDigits text
  if digits.utf8ByteSize ≤ maxCantonSignatureHexBytes && isHex digits then return canonicalHex text else .none

/-- The signatures an answer carries, in their canonical lowercase form. -/
def signatures (raw : Json) : Option (List String) := do
  let signatures ← (← raw.get "signatures").asArray
  if maxCantonSignatures < signatures.length then .none else signatures.mapM signatureText

/-! ## The check -/

/-- The key recovered from a signature's text. -/
def recovered (digest : List UInt8) (signature : String) : Except String String := do
  crates.recoverPublicKey digest (← verHexToBytes crates signature)

/-- The members recovered so far, with the last error on the way. -/
def collect (committee : Committee) (digest : List UInt8) (state : Finset String × Option String) (signature : String) :
    Finset String × Option String :=
  match recovered crates digest signature with
  | .ok publicKey =>
    if publicKey ∈ committee.publicKeys then (insert publicKey state.1, state.2) else state
  | .error error => (state.1, .some error)

def digestOf (signatureType : String) (request raw : Json) : List UInt8 :=
  crates.curve.keccak256 (writeCommitteePayload crates.jsNumber signatureType request raw)

def verify (sequencer : CantonSequencer crates) (signatureType : String) (request raw : Json)
    (signatures : List String) :
    Except AppCoreError Unit :=
  match sequencer.committee with
  | .none => .ok ()
  | .some committee =>
    let digest := digestOf crates signatureType request raw
    let (verified, lastError) := signatures.foldl (collect crates committee digest) (∅, .none)
    if verified.card < committee.quorum then
      .error (.internal ("Insufficient signature quorum" ++ lastError.elim "" fun error => ": " ++ error))
    else .ok ()

/-- How `read` and `scan` begin: the signatures of the answer, then the check. -/
def checkSigned (sequencer : CantonSequencer crates) (unexpected : AppCoreError) (signatureType : String)
    (request raw : Json) : Except AppCoreError Unit := do
  let found ← okOr (signatures raw) unexpected
  verify crates sequencer signatureType request raw found

end Pillar.Canton
