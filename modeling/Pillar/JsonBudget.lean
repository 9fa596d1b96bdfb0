/-
The memory budget of JSON quorums (`pillar-runtime`, `provider_health/quorum.rs`):
a counter shared by every accumulator, and the leases that hold bytes of it.

A call of `record_json_result_with_budget` touches the counter once, by a
compare-exchange. The model cuts it there: `admitValue` is the call up to and with
that exchange, `settle` the rest. Between the two, other accumulators go on.

A counter's `Arc` is its address; `limit` gives the limit of the budget with
the counter at an address. `valueSize` is `size_of::<Value>()`.
-/
import Pillar.Quorum

namespace Pillar.JsonBudget

open Std (TreeMap TreeSet)
open Quorum

/-! ## Values -/

/-- A Rust `String`, with the room allocated for it. -/
structure Text where
  text : String
  capacity : Nat

/-- `serde_json::Value`, with the room allocated for its parts. -/
inductive Value where
  | null
  | bool (b : Bool)
  | number (n : String)
  | string (text : Text)
  | array (values : List Value) (capacity : Nat)
  | object (entries : List (Text × Value))

/-- `MAX_JSON_RETAINED_VALUE_BYTES`. -/
def maxJsonRetainedValueBytes : Nat := 8 * 1024 * 1024

/-- One turn of the loop below: the total with `value` in it, and what is pushed. -/
def visit (valueSize total : Nat) (value : Value) : Option (Nat × List Value) := do
  let total ← checkedAdd total 128
  match value with
  | .array values capacity => return (← checkedAdd total (← checkedMul capacity valueSize), values)
  | .object entries =>
    let total ← checkedAdd total (← checkedMul entries.length 128)
    let total ← entries.foldlM (fun total (key, _) => checkedAdd total key.capacity) total
    return (total, entries.map Prod.snd)
  | .string text => return (← checkedAdd total text.capacity, [])
  | .null | .bool _ | .number _ => return (total, [])

/-- `while let Some(value) = pending.pop()`; the top of the stack comes first. -/
def estimateLoop (valueSize : Nat) : Nat → Nat → List Value → Exec AppCoreError (Option Nat)
  | _, total, [] => .ok (.some total)
  | 0, _, _ :: _ => .error .fuel
  | fuel + 1, total, value :: pending =>
    match visit valueSize total value with
    | .none => .ok .none
    | .some (total, pushed) =>
      if total > maxJsonRetainedValueBytes then .ok .none
      else estimateLoop valueSize fuel total (pushed.reverse ++ pending)

/-- `estimate_json_retained_bytes`. Each turn of its loop adds at least 128, so
it takes no more turns than the limit has room for. -/
def estimateJsonRetainedBytes (valueSize : Nat) (value : Value) (fingerprintBytes : Nat) :
    Exec AppCoreError (Option Nat) :=
  match checkedAdd fingerprintBytes 128 with
  | .none => .ok .none
  | .some total => estimateLoop valueSize (maxJsonRetainedValueBytes / 128 + 1) total [value]

/-! ## Leases -/

/-- `JsonQuorumBudget::reserve`, on the counter at `address` that stands at `used`. -/
def reserve (limit used address bytes : Nat) : Option (JsonMemoryLease × Nat) :=
  match checkedAdd used bytes with
  | .none => .none
  | .some next => if next > limit then .none else .some ({ bytes, used := address }, next)

/-- `JsonQuorumBudget::grow`. -/
def grow (limit used address : Nat) (lease : JsonMemoryLease) (bytes : Nat) : Option (JsonMemoryLease × Nat) :=
  if address ≠ lease.used then .none
  else if bytes ≤ lease.bytes then .some (lease, used)
  else
    match checkedAdd used (bytes - lease.bytes) with
    | .none => .none
    | .some next => if next > limit then .none else .some ({ lease with bytes }, next)

/-- `Drop for JsonMemoryLease`: `fetch_sub` wraps. -/
def release (used : Nat → Nat) (lease : JsonMemoryLease) : Nat → Nat :=
  Function.update used lease.used ((used lease.used + (usizeMax + 1) - lease.bytes) % (usizeMax + 1))

/-! ## Recording -/

/-- How a call stands once it has touched the counter. -/
inductive Admission where
  /-- The value cannot be estimated. -/
  | tooLarge
  /-- The vote needs no lease, or its candidate's covers it. -/
  | voted
  /-- The vote comes with a lease of its own. -/
  | leased (lease : JsonMemoryLease)
  /-- The budget has no room. -/
  | overloaded
  deriving DecidableEq

/-- The call will return `Ok(false)`. -/
def Admission.refused : Admission → Bool
  | .tooLarge | .overloaded => true
  | .voted | .leased _ => false

abbrev Accumulator := ExactQuorumAccumulator Value

/-- The first half of `record_json_result_with_budget`. -/
def admitValue (valueSize limit address : Nat) (acc : Accumulator) (index : Nat) (fingerprint : String) (value : Value)
    (used : Nat) : Exec AppCoreError (Admission × Accumulator × Nat) := do
  let candidate := acc.voters[fingerprint]?
  let replacing := candidate.all fun candidate => candidate.indices.min?.all (index < ·)
  match ← estimateJsonRetainedBytes valueSize value fingerprint.utf8ByteSize with
  | .none => return (.tooLarge, acc, used)
  | .some bytes =>
    if !replacing then return (.voted, acc, used)
    match candidate with
    | .some { indices, value := kept, lease := .some lease } =>
      if address = lease.used && bytes ≤ lease.bytes then return (.voted, acc, used)
      match grow limit used address lease bytes with
      | .some (lease, used) =>
        let voters := acc.voters.insert fingerprint { indices, value := kept, lease := .some lease }
        return (.voted, { acc with voters }, used)
      | .none => return (.overloaded, acc, used)
    | _ =>
      match reserve limit used address bytes with
      | .some (lease, used) => return (.leased lease, acc, used)
      | .none => return (.overloaded, acc, used)

/-- The second half: what the call returns, and the lease it drops by putting
its own in its place. -/
def settle (acc : Accumulator) (index : Nat) (fingerprint : String) (value : Value) :
    Admission → Exec AppCoreError (Bool × Accumulator × Option JsonMemoryLease)
  | .tooLarge => do
    let acc ← acc.recordResult index (.error (.remote "Provider JSON response exceeds retained value limit"))
    return (false, acc, .none)
  | .voted => .ok (true, acc.record index (.some (fingerprint, value)), .none)
  | .leased lease => do
    let acc := acc.record index (.some (fingerprint, value))
    let candidate ← Exec.get acc.voters[fingerprint]?
    let voters := acc.voters.insert fingerprint { candidate with lease := .some lease }
    return (true, { acc with voters }, candidate.lease)
  | .overloaded => do
    let acc ← acc.recordResult index (.error (.admission .overloaded))
    return (false, acc, .none)

/-! ## Accumulators sharing budgets -/

/-- A call past its compare-exchange. -/
structure Call where
  index : Nat
  fingerprint : String
  value : Value
  admission : Admission

/-- An accumulator, and the call that has it borrowed, if any. -/
structure Slot where
  acc : Accumulator
  call : Option Call

/-- The counters and the live accumulators. -/
structure Store where
  used : Nat → Nat
  slots : List Slot

def Store.init : Store := { used := fun _ => 0, slots := [] }

/-- A step of some thread, on the accumulator at place `k`. -/
inductive Op where
  /-- `ExactQuorumAccumulator::new`. -/
  | new (rule : ProviderConfig) (dispatched : List Nat)
  /-- `record_json_result_with_budget` up to its compare-exchange, with the
  budget of the counter at `address`. -/
  | enter (k address index : Nat) (fingerprint : String) (value : Value)
  /-- The rest of that call. -/
  | leave (k : Nat)
  /-- `record_result` of an `Err`. -/
  | fail (k index : Nat) (error : RpcError)
  /-- A candidate is moved out of the map, and its lease dropped. -/
  | take (k : Nat) (fingerprint : String)
  /-- The accumulator is dropped, with all its candidates. -/
  | drop (k : Nat)

/-- What a call returns, if the step ends one, and the store after it. A step
on an accumulator that is not there, or is borrowed, is no step. -/
def step (valueSize : Nat) (limit : Nat → Nat) (s : Store) : Op → Exec AppCoreError (Option Bool × Store)
  | .new rule dispatched => .ok (.none, { s with slots := s.slots ++ [{ acc := .new rule dispatched, call := .none }] })
  | .enter k address index fingerprint value =>
    match s.slots[k]? with
    | .some { acc, call := .none } => do
      let (admission, acc, used) ← admitValue valueSize (limit address) address acc index fingerprint value
        (s.used address)
      return (.none, {
        used := Function.update s.used address used
        slots := s.slots.set k { acc, call := .some { index, fingerprint, value, admission } } })
    | _ => .ok (.none, s)
  | .leave k =>
    match s.slots[k]? with
    | .some { acc, call := .some call } => do
      let (recorded, acc, dropped) ← settle acc call.index call.fingerprint call.value call.admission
      return (.some recorded, {
        used := dropped.elim s.used (release s.used)
        slots := s.slots.set k { acc, call := .none } })
    | _ => .ok (.none, s)
  | .fail k index error =>
    match s.slots[k]? with
    | .some { acc, call := .none } =>
      match acc.recordResult index (.error error) with
      | .ok acc => .ok (.none, { s with slots := s.slots.set k { acc, call := .none } })
      | .error _ => .ok (.none, s)
    | _ => .ok (.none, s)
  | .take k fingerprint =>
    match s.slots[k]? with
    | .some { acc, call := .none } =>
      .ok (.none, {
        used := (acc.voters[fingerprint]?.bind (·.lease)).elim s.used (release s.used)
        slots := s.slots.set k { acc := { acc with voters := acc.voters.erase fingerprint }, call := .none } })
    | _ => .ok (.none, s)
  | .drop k =>
    match s.slots[k]? with
    | .some { acc, call := .none } =>
      .ok (.none, {
        used := (acc.voters.toList.filterMap (·.2.lease)).foldl release s.used
        slots := s.slots.eraseIdx k })
    | _ => .ok (.none, s)

/-- Every store of every interleaving. -/
inductive Reachable (valueSize : Nat) (limit : Nat → Nat) : Store → Prop
  | init : Reachable valueSize limit .init
  | step {s s'} (op : Op) (result : Option Bool) : Reachable valueSize limit s →
    step valueSize limit s op = .ok (result, s') → Reachable valueSize limit s'

end Pillar.JsonBudget
