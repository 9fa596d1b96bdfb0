/-
An EVM provider that is asked while its ULN moves on: the requirement, the DVN's
record and the packet's state are three calls, the state last.
-/
import Pillar.AbiFacts
import Pillar.EvmPayloadFacts
import Pillar.FixedFields
import Pillar.UlnRun

namespace Pillar.EvmPayload

open Abi Hex Packet PayloadSigned
open Bits (ofBytes bytesOf)
open FixedFields (bytesAt bytesAt_run)
open UlnRun (Uln Run)
open Asking (bind_ok bind_of_ok pure_ok lift_ok ask_ok)

variable {hex : HexCrate} {provider : Provider} {query : EvmUlnQuery}
  {t t' : List (Asked EthCall fun _ => Except AppCoreError String)}

/-! ## Words -/

/-- The ABI words of numbers. -/
def words (numbers : List Nat) : List UInt8 := numbers.flatMap fun n => (beBytes 32 n).val

/-- An encoded config is a dynamic tuple: the offset stands before the confirmations. -/
def configResult (hex : HexCrate) (required : UInt64) (rest : List Nat) : String :=
  hexText hex (words (32 :: required.toNat :: rest))

/-- A record that is none is zeros. -/
def recordResult (hex : HexCrate) (record : Option UInt64) : String :=
  hexText hex (words [record.isSome.toNat, (record.getD 0).toNat])

def stateNumber : EvmVerificationState → UInt64
  | .verifying => 0
  | .verifiable => 1
  | .verified => 2
  | .notInitializable => 3
  | .verifiableButCapExceeded | .reorged => 4

def stateResult (hex : HexCrate) (state : EvmVerificationState) : String :=
  hexText hex (words [(stateNumber state).toNat])

/-- A provider whose receiver is on the receive library of `version`, and that
answers each call with what the ULN then keeps. -/
structure Serves (hex : HexCrate) (query : EvmUlnQuery) (verifier version receive view : String)
    (run : Run EvmVerificationState.verified) (provider : Provider) : Prop where
  library : ∀ t s address, resolveReceiveLibrary hex provider query t = (.ok (.ok address), s) →
    evmUlnVersionFromReceiveLibrary query.contracts address = .some version
  contracts : evmReceiveContractPair query.contracts version = .ok (receive, view)
  config : ∀ told, ∃ rest, provider told ⟨receive, .getUlnConfig query.oapp query.remoteEid⟩ =
    .ok (configResult hex (run.states told.length).required rest)
  record : ∀ told, provider told ⟨receive, .hashLookup query.proof verifier⟩ =
    .ok (recordResult hex (run.states told.length).record)
  state : ∀ told, provider told ⟨view, .verifiable query.proof⟩ =
    .ok (stateResult hex (run.states told.length).state)

end Pillar.EvmPayload
