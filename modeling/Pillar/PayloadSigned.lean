/-
The payload-signed check, as far as all destination families share it
(`pillar-runtime`, `layerzero_runtime/validation_payload.rs` and
`provider_health/types.rs`): the verdict of a provider, the packet the check is
about, and what an agreed verdict means for the request.
-/
import Pillar.Fields
import Pillar.Packet
import Pillar.PacketSent
import Pillar.Transcript

namespace Pillar.PayloadSigned

open PacketSent (LzSentEvent)
open Packet Text Hex Abi Fields

/-! ## Verdicts -/

inductive PayloadSignedValidity where
  | notSigned (required : Option UInt64)
  | signed
  | missing
  /-- The receiver receives on a library this service cannot validate against. -/
  | unsupportedReceiveLibrary
  deriving Repr, DecidableEq

/-- `Debug` of the struct variant. -/
def debugNotSigned (required : Option UInt64) : String := "NotSigned \x7b required: " ++ debugOption required ++ " \x7d"

/-- `Debug`. -/
def PayloadSignedValidity.debug : PayloadSignedValidity → String
  | .notSigned required => debugNotSigned required
  | .signed => "Signed"
  | .missing => "Missing"
  | .unsupportedReceiveLibrary => "UnsupportedReceiveLibrary"

theorem debugNotSigned_eq (required : Option UInt64) :
    debugNotSigned required = "NotSigned \x7b required: " ++ debugOption required ++ " \x7d" := rfl

theorem debugNotSigned_ne {required : Option UInt64} {s : String} (h : s.toList.head? ≠ .some 'N') :
    debugNotSigned required ≠ s := by
  intro heq
  rw [← heq, debugNotSigned_eq] at h
  simp at h

theorem PayloadSignedValidity.debug_injective : Function.Injective debug := by
  intro v w h
  cases v with
  | notSigned required =>
    cases w with
    | notSigned required' =>
      simp only [debug, debugNotSigned_eq, String.append_left_inj, String.append_right_inj] at h
      exact congrArg _ (debugOption_injective h)
    | signed | missing | unsupportedReceiveLibrary => exact absurd h (debugNotSigned_ne (by decide))
  | signed | missing | unsupportedReceiveLibrary =>
    cases w with
    | notSigned required => exact absurd h.symm (debugNotSigned_ne (by decide))
    | signed | missing | unsupportedReceiveLibrary => first | rfl | exact absurd h (by decide)

/-- `From<AppCoreError> for RpcError`. -/
def rpcError : AppCoreError → RpcError
  | .admission error => .admission error
  | .internal error => .remote error
  | .badRequest error => .remote error
  | .unresolvableCommand error => .remote error

def orRpc {α : Type} : Except AppCoreError α → Except RpcError α := Except.mapError rpcError

/-- `provider_response`: a provider that failed has no vote. -/
def providerResponse {α : Type} : Except RpcError α → Except RpcError (Option α)
  | .ok value => .ok (.some value)
  | .error (.remote _) => .ok .none
  | .error .unavailable => .ok .none
  | .error error => .error error

/-! ## The packet -/

def pathwayExtraU64 (sentEvent : LzSentEvent) (key : String) : Except AppCoreError UInt64 :=
  match (sentEvent.lzMessageId.pathwayId.extra.get key).bind Json.asU64 with
  | .some value => .ok value
  | .none => .error (.internal ("Missing lzMessageId.pathwayId." ++ key))

def pathwayExtraU32 (sentEvent : LzSentEvent) (key : String) : Except AppCoreError UInt32 := do
  let value ← pathwayExtraU64 sentEvent key
  if value.toNat < 2 ^ 32 then .ok value.toUInt32
  else .error (.internal ("lzMessageId.pathwayId." ++ key ++ " exceeds u32"))

def pathwayExtraStringValue (sentEvent : LzSentEvent) (key : String) : Except AppCoreError String :=
  match (sentEvent.lzMessageId.pathwayId.extra.get key).bind Json.asStr with
  | .some value => .ok value
  | .none => .error (.internal ("Missing lzMessageId.pathwayId." ++ key))

def extraString (sentEvent : LzSentEvent) (key : String) : Except AppCoreError String :=
  match (sentEvent.extra.get key).bind Json.asStr with
  | .some value => .ok value
  | .none => .error (.internal ("Missing sent_event.extra." ++ key))

def packetFromEvent (sentEvent : LzSentEvent) : Except AppCoreError LzPacketV1 := do
  let srcEid ← pathwayExtraU32 sentEvent "srcEid"
  let sender ← pathwayExtraStringValue sentEvent "sender"
  let dstEid ← pathwayExtraU32 sentEvent "dstEid"
  let receiver ← pathwayExtraStringValue sentEvent "receiver"
  let guid ← extraString sentEvent "guid"
  .ok { nonce := sentEvent.lzMessageId.nonce, srcEid, sender, dstEid, receiver, guid, message := sentEvent.message }

/-! ## What an agreed verdict means -/

def payloadAlreadySignedErrorPrefix : String := "Payload already signed"

/-- `messageIdJson` is `resolved_message_id_json`. -/
def payloadSignedValidationResult (messageIdJson : PacketSent.LzMessageId → String) (validity : PayloadSignedValidity)
    (sentEvent : LzSentEvent) (dstChainName : String) : Except AppCoreError (Option UInt64) :=
  match validity with
  | .notSigned required => .ok required
  | .signed =>
    .error (.badRequest (payloadAlreadySignedErrorPrefix ++ " for message " ++ messageIdJson sentEvent.lzMessageId ++
      " on chain " ++ dstChainName))
  | .missing => .error (.internal ("Payload-signed validation unavailable for chain " ++ dstChainName))
  | .unsupportedReceiveLibrary =>
    let receiver := match pathwayExtraStringValue sentEvent "receiver" with
      | .ok receiver => receiver
      | .error _ => "<unknown>"
    .error (.badRequest ("Receiver " ++ receiver ++ " on chain " ++ dstChainName ++
      " receives on a library this service cannot validate; refusing to sign"))

theorem payloadSignedValidationResult_ok {messageIdJson : PacketSent.LzMessageId → String}
    {validity : PayloadSignedValidity} {sentEvent : LzSentEvent} {dstChainName : String} {required : Option UInt64} :
    payloadSignedValidationResult messageIdJson validity sentEvent dstChainName = .ok required ↔
      validity = .notSigned required := by
  cases validity <;> simp [payloadSignedValidationResult]

/-! ## Votes and records -/

section

variable {Q : Type} {A : Q → Type} {ε V : Type}

/-- **A vote determines its verdict**: whatever two providers answer, equal
keys come with equal verdicts. -/
def VoteDecides (observe : Oracle Q A → Asking Q A ε (String × V)) : Prop :=
  ∀ provider provider' key verdict verdict', (observe provider []).1 = .ok (key, verdict) →
    (observe provider' []).1 = .ok (key, verdict') → verdict = verdict'

/-- It is enough that an observation is read off something seen, its verdict as
far as its key says it. -/
theorem voteDecides_of_seen {Seen : Type} {observe : Oracle Q A → Asking Q A ε (String × V)} (Possible : Seen → Prop)
    (key : Seen → String) (verdict : Seen → V)
    (hseen : ∀ provider t k v t', observe provider t = (.ok (k, v), t') →
      ∃ seen, Possible seen ∧ k = key seen ∧ v = verdict seen)
    (hkey : ∀ seen seen', Possible seen → Possible seen' → key seen = key seen' → verdict seen = verdict seen') :
    VoteDecides observe := by
  intro provider provider' k v v' h h'
  obtain ⟨seen, hp, hk, rfl⟩ := hseen provider [] k v _ (Prod.ext h rfl)
  obtain ⟨seen', hp', hk', rfl⟩ := hseen provider' [] k v' _ (Prod.ext h' rfl)
  exact hkey seen seen' hp hp' (hk.symm.trans hk')

/-- How a family says signed and not signed; any other verdict refuses the destination. -/
structure Verdicts (V : Type) where
  signed : V
  notSigned : Option UInt64 → V

def Verdicts.Refused (verdicts : Verdicts V) (v : V)  : Prop :=
  v ≠ verdicts.signed ∧ ∀ required, v ≠ verdicts.notSigned required

/-- **A recorded verification is recognised.** `requirement` and `record` read,
from what a provider was asked and answered, the confirmations the receive
config requires and those recorded for this DVN and packet. A record that meets
the requirement is signed for, or the destination is refused; and a requirement
given back with not signed is the one shown, and any record is short of it. -/
def Recognises (verdicts : Verdicts V) (requirement : List (Asked Q A) → Option UInt64)
    (record : List (Asked Q A) → Option (Option UInt64)) (observe : Asking Q A ε (String × V)) : Prop :=
  ∀ key v told, observe [] = (.ok (key, v), told) →
    (∀ r b, requirement told = .some r → record told = .some (.some b) → r ≤ b → 1 ≤ b →
      v = verdicts.signed ∨ verdicts.Refused v) ∧
    ∀ r, v = verdicts.notSigned (.some r) → requirement told = .some r ∧
      ∃ recorded, record told = .some recorded ∧ ∀ b, recorded = .some b → b < max r 1

end

def validities : Verdicts PayloadSignedValidity := ⟨.signed, .notSigned⟩

end Pillar.PayloadSigned
