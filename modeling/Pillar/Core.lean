/-
The errors the crates share (`pillar-core`).
-/
import Pillar.Halt

namespace Pillar

/-- Why an admission was refused (`execution.rs`). -/
inductive BudgetError where
  | overloaded
  | waitExpired
  | deadline
  | unknownLane
  | closed
  deriving Repr, DecidableEq

def BudgetError.display : BudgetError → String
  | .overloaded => "resource_overloaded"
  | .waitExpired => "admission_wait_expired"
  | .deadline => "request_deadline"
  | .unknownLane => "unconfigured_resource_lane"
  | .closed => "resource_draining"

inductive AppCoreError where
  | badRequest (message : String)
  | unresolvableCommand (message : String)
  | internal (message : String)
  | admission (error : BudgetError)
  deriving Repr, DecidableEq

/-- `#[error("..")]`. -/
def AppCoreError.display : AppCoreError → String
  | .badRequest message => message
  | .unresolvableCommand message => message
  | .internal message => message
  | .admission error => error.display

/-- A provider call's error (`pillar-runtime`, `transport.rs`). -/
inductive RpcError where
  | admission (error : BudgetError)
  | remote (message : String)
  | configuration (message : String)
  | unavailable
  deriving Repr, DecidableEq

/-- `From<RpcError> for AppCoreError`. -/
def RpcError.toAppCoreError : RpcError → AppCoreError
  | .admission error => .admission error
  | .remote error => .internal error
  | .configuration error => .internal error
  | .unavailable => .internal "provider response unavailable"

/-- `From<AppCoreError> for RpcError`. -/
def AppCoreError.toRpcError : AppCoreError → RpcError
  | .admission error => .admission error
  | .badRequest error => .remote error
  | .unresolvableCommand error => .remote error
  | .internal error => .remote error

end Pillar
