/-
Traces of TON transactions (`pillar-runtime`,
`layerzero_runtime/source_events_ton.rs`): `ton_transaction_trace_tree` plans with
a stack of its own and then builds the tree from the plan.
-/
import Pillar.JsonMap
import Pillar.Hex
import Pillar.Abi
import Pillar.Rose

namespace Pillar.TonTrace

open Text Hex Abi

/-! ## The code -/

def maxTonTraceOutputDepth : Nat := 512
def maxTonTraceNodes : Nat := 512
def maxTonTraceProjectedStringBytes : Nat := 4 * 1024 * 1024

/-- The `hex` crate and the four engines of `base64`. -/
structure Crates where
  hex : HexCrate
  standard : String → Except String (List UInt8)
  standardNoPad : String → Except String (List UInt8)
  urlSafeNoPad : String → Except String (List UInt8)
  urlSafe : String → Except String (List UInt8)

section

variable (crates : Crates)

/-- Standard base64 of a hash can itself start with `0x`, so hex needs exactly 64 digits. -/
def tonHashBytes (value : String) : Option (Bytes 32) := do
  let digits := ((stripPrefix "0x" value).or (stripPrefix "0X" value)).getD value
  let decoded ←
    if digits.utf8ByteSize = 64 ∧ digits.toList.all (fun c => (hexDigit? c).isSome) then
      (crates.hex.decode digits).toOption
    else
      (crates.standard value).toOption.or ((crates.standardNoPad value).toOption.or
        ((crates.urlSafeNoPad value).toOption.or (crates.urlSafe value).toOption))
  if h : decoded.length = 32 then .some ⟨decoded, h⟩ else .none

def asObject : Json → Option (List (String × Json))
  | .object entries => .some entries
  | _ => .none

def accountTonScalar (value : Json) (projectedBytes : Nat) : Option Nat := do
  let size ← match value with
    | .string text => .some text.utf8ByteSize
    | .null | .bool _ | .number _ => .some 0
    | .array _ | .object _ => .none
  let projectedBytes ← checkedAdd projectedBytes size
  if projectedBytes ≤ maxTonTraceProjectedStringBytes then .some projectedBytes else .none

/-- `for field in fields { if let Some(value) = object.get(field) { .. } }`. -/
def accountFields (object : List (String × Json)) (fields : List String) (projectedBytes : Nat) : Option Nat :=
  fields.foldlM (fun projectedBytes field =>
    match object.lookup field with
    | .some value => accountTonScalar value projectedBytes
    | .none => .some projectedBytes) projectedBytes

def transactionFields : List String := ["hash", "mc_block_seqno"]
def messageFields : List String := ["destination", "opcode", "source", "hash", "bounced"]

def accountTonTransaction (transaction : Json) (projectedBytes : Nat) : Option Nat := do
  let transaction ← asObject transaction
  let projectedBytes ← accountFields transaction transactionFields projectedBytes
  match transaction.lookup "in_msg" with
  | .none => .some projectedBytes
  | .some message =>
    if message.isNull then .some projectedBytes
    else do
      let message ← asObject message
      let projectedBytes ← accountFields message messageFields projectedBytes
      match message.lookup "message_content" with
      | .none => .some projectedBytes
      | .some content => do
        let content ← asObject content
        accountFields content ["body"] projectedBytes

def cloneTonScalar : Json → Option Json
  | .array _ | .object _ => .none
  | value => .some value

def cloneFields (value : Json) (fields : List String) (projected : List (String × Json)) :
    Option (List (String × Json)) :=
  fields.foldlM (fun projected field =>
    match value.get field with
    | .some value => do
      let value ← cloneTonScalar value
      return Json.insertEntry field value projected
    | .none => .some projected) projected

def projectTonMessage (message : Json) : Option Json := do
  let projected ← cloneFields message messageFields []
  match message.pointer ["message_content", "body"] with
  | .none => return .object projected
  | .some body => do
    let body ← cloneTonScalar body
    return .object (Json.insertEntry "message_content" (.object [("body", body)]) projected)

def projectTonTransaction (transaction : Json) : Option Json := do
  let projected ← cloneFields transaction transactionFields []
  match transaction.get "in_msg" with
  | .none => return .object projected
  | .some message =>
    if message.isNull then return .object (Json.insertEntry "in_msg" .null projected)
    else do
      let message ← projectTonMessage message
      return .object (Json.insertEntry "in_msg" message projected)

def tonTraceChildren (node : Json) : Option (List Json) :=
  match node.get "children" with
  | .none => .some []
  | .some (.array children) => .some children
  | .some _ => .none

/-- A node to look at, or one whose children have all been planned. -/
inductive Work where
  | visit (node : Json) (depth : Nat)
  | build (transaction : Json) (childCount : Nat)

/-- The variables of `ton_trace_preflight` beside its stack. -/
structure Progress where
  plan : List (Json × Nat) := []
  seenHashes : List (Bytes 32) := []
  projectedBytes : Nat := 0
  discovered : Nat := 1

def hashOf (transaction : Json) : Option (Bytes 32) := do
  let hash ← transaction.get "hash"
  let hash ← hash.asStr
  tonHashBytes crates hash

variable (transactions : Option (List (String × Json)))

/-- The transaction of a node: its own, or the one its hash names. -/
def transactionOf (node : Json) : Option Json :=
  match transactions with
  | .some transactions => do
    let key ← node.get "tx_hash"
    let key ← key.asStr
    let keyHash ← tonHashBytes crates key
    let transaction ← transactions.lookup key
    let hash ← hashOf crates transaction
    if hash ≠ keyHash then .none else .some transaction
  | .none => node.get "transaction"

/-- `Work::Visit`: the node's transaction and its children. -/
def visit (node : Json) (depth : Nat) (s : Progress) : Option (Json × List Json × Progress) := do
  let outputDepth ← checkedMul depth 2
  let outputDepth ← checkedAdd outputDepth 2
  if outputDepth > maxTonTraceOutputDepth then .none
  else
    let children ← tonTraceChildren node
    let discovered ← checkedAdd s.discovered children.length
    if discovered > maxTonTraceNodes then .none
    else
      let transaction ← transactionOf crates transactions node
      let hash ← hashOf crates transaction
      if s.seenHashes.contains hash then .none
      else
        let projectedBytes ← accountTonTransaction transaction s.projectedBytes
        return (transaction, children, { s with seenHashes := hash :: s.seenHashes, projectedBytes, discovered })

end

/-! ## It ends -/

/-- What a visit checks, and what it leaves. -/
structure Visited (crates : Crates) (transactions : Option (List (String × Json))) (node : Json) (depth : Nat)
    (s : Progress) (transaction : Json) (children : List Json) (s' : Progress) : Prop where
  shallow : 2 * depth + 2 ≤ maxTonTraceOutputDepth
  below : tonTraceChildren node = .some children
  few : s.discovered + children.length ≤ maxTonTraceNodes
  named : transactionOf crates transactions node = .some transaction
  accounted : ∃ projectedBytes, accountTonTransaction transaction s.projectedBytes = .some projectedBytes
  fresh : ∃ hash, hashOf crates transaction = .some hash ∧ hash ∉ s.seenHashes ∧
    s'.seenHashes = hash :: s.seenHashes
  plan : s'.plan = s.plan
  discovered : s'.discovered = s.discovered + children.length

theorem visit_eq_some {crates : Crates} {transactions : Option (List (String × Json))} {node transaction : Json}
    {depth : Nat} {s s' : Progress} {children : List Json}
    (h : visit crates transactions node depth s = .some (transaction, children, s')) :
    Visited crates transactions node depth s transaction children s' := by
  rw [visit] at h
  obtain ⟨twice, htwice, h⟩ := Option.bind_eq_some_iff.mp h
  obtain ⟨outputDepth, houtput, h⟩ := Option.bind_eq_some_iff.mp h
  split at h
  next => cases h
  next hdepth =>
    obtain ⟨found, hchildren, h⟩ := Option.bind_eq_some_iff.mp h
    obtain ⟨discovered, hdiscovered, h⟩ := Option.bind_eq_some_iff.mp h
    split at h
    next => cases h
    next hfew =>
      obtain ⟨tx, htx, h⟩ := Option.bind_eq_some_iff.mp h
      obtain ⟨hash, hhash, h⟩ := Option.bind_eq_some_iff.mp h
      split at h
      next => cases h
      next hseen =>
        obtain ⟨bytes, hbytes, h⟩ := Option.bind_eq_some_iff.mp h
        cases h
        obtain rfl := checkedMul_eq_some htwice
        obtain rfl := checkedAdd_eq_some houtput
        obtain rfl := checkedAdd_eq_some hdiscovered
        exact ⟨by omega, hchildren, by omega, htx, ⟨bytes, hbytes⟩, ⟨hash, hhash, by simpa using hseen, rfl⟩, rfl, rfl⟩

/-- How much is left to do for an entry of the stack, at most. -/
noncomputable def Work.weight : Work → Nat
  | visit node _ => 2 * sizeOf node
  | build _ _ => 1

theorem sizeOf_lookup {entries : List (String × Json)} {key : String} {value : Json}
    (h : entries.lookup key = .some value) : sizeOf value < sizeOf entries := by
  induction entries with
  | nil => cases h
  | cons entry entries ih =>
    obtain ⟨k, v⟩ := entry
    rw [List.lookup_cons] at h
    simp only [List.cons.sizeOf_spec, Prod.mk.sizeOf_spec]
    split at h
    · cases h
      omega
    · have := ih h
      omega

theorem sizeOf_children {node : Json} {children : List Json} (h : tonTraceChildren node = .some children) :
    sizeOf children ≤ sizeOf node := by
  rw [tonTraceChildren] at h
  split at h
  next =>
    cases h
    cases node <;> simp
  next found hfound =>
    cases h
    cases node with
    | object entries =>
      have hlt := sizeOf_lookup hfound
      simp only [Json.array.sizeOf_spec] at hlt
      simp only [Json.object.sizeOf_spec]
      omega
    | null | bool | number | string | array => cases hfound
  next => cases h

theorem weight_visits (depth : Nat) : ∀ children : List Json,
    ((children.map fun child => Work.visit child depth).map Work.weight).sum + 2 ≤ 2 * sizeOf children
  | [] => by simp
  | child :: children => by
    have hrest := weight_visits depth children
    simp only [List.map_cons, List.sum_cons, Work.weight, List.cons.sizeOf_spec]
    omega

section

variable (crates : Crates) (transactions : Option (List (String × Json)))

/-- `while let Some(work) = pending.pop()`; the top of the stack is the head. -/
def planLoop : List Work → Progress → Option (List (Json × Nat))
  | [], s => .some s.plan
  | .build transaction childCount :: pending, s =>
    planLoop pending { s with plan := s.plan ++ [(transaction, childCount)] }
  | .visit node depth :: pending, s =>
    match h : visit crates transactions node depth s with
    | .none => .none
    | .some (transaction, children, s') =>
      planLoop
        (children.map (fun child => .visit child (depth + 1)) ++ .build transaction children.length :: pending) s'
termination_by pending => (pending.map Work.weight).sum
decreasing_by
  · simp only [List.map_cons, List.sum_cons, Work.weight]
    omega
  · have hweight := weight_visits (depth + 1) children
    have hsize := sizeOf_children (visit_eq_some h).below
    simp only [List.map_append, List.map_cons, List.sum_append, List.sum_cons]
    simp only [Work.weight] at hweight ⊢
    omega

def tonTracePreflight (root : Json) : Option (List (Json × Nat)) := planLoop crates transactions [.visit root 1] {}

end

/-- One turn of the rebuilding loop. -/
def rebuild (built : List Json) (entry : Json × Nat) : Option (List Json) := do
  let transaction ← projectTonTransaction entry.1
  let start ← if entry.2 ≤ built.length then .some (built.length - entry.2) else .none
  let tree := Json.insertEntry "children" (.array (built.drop start)) (Json.insertEntry "transaction" transaction [])
  return built.take start ++ [.object tree]

/-- The root of a trace, and the transactions that its nodes name. -/
def traceRoot (response : Json) : Option (Json × Option (List (String × Json))) :=
  if (response.get "transaction").isSome then .some (response, .none)
  else do
    let items ← (response.get "traces").or (response.get "events")
    let items ← items.asArray
    let item ← items.head?
    let trace ← item.get "trace"
    let transactions ← item.get "transactions"
    let transactions ← asObject transactions
    return (trace, .some transactions)

def tonTransactionTraceTree (crates : Crates) (response : Json) : Option Json := do
  let (root, transactions) ← traceRoot response
  let plan ← tonTracePreflight crates transactions root
  let built ← plan.foldlM rebuild []
  if built.length = 1 then built.getLast? else .none

/-! ## What is accounted for can be projected -/

mutual
/-- The containers open at the deepest place of a value. -/
def nesting : Json → Nat
  | .null | .bool _ | .number _ | .string _ => 0
  | .array values => nestingOfValues values + 1
  | .object entries => nestingOfEntries entries + 1

def nestingOfValues : List Json → Nat
  | [] => 0
  | value :: values => max (nesting value) (nestingOfValues values)

def nestingOfEntries : List (String × Json) → Nat
  | [] => 0
  | (_, value) :: entries => max (nesting value) (nestingOfEntries entries)
end

theorem nestingOfValues_le {n : Nat} : ∀ {values : List Json},
    (∀ v ∈ values, nesting v ≤ n) → nestingOfValues values ≤ n
  | [], _ => Nat.zero_le n
  | v :: values, h => by
    rw [nestingOfValues]
    exact max_le (h v List.mem_cons_self) (nestingOfValues_le fun v hv => h v (List.mem_cons_of_mem _ hv))

theorem nestingOfEntries_le {n : Nat} : ∀ {entries : List (String × Json)},
    (∀ e ∈ entries, nesting e.2 ≤ n) → nestingOfEntries entries ≤ n
  | [], _ => Nat.zero_le n
  | (_, v) :: entries, h => by
    rw [nestingOfEntries]
    exact max_le (h _ List.mem_cons_self) (nestingOfEntries_le fun e he => h e (List.mem_cons_of_mem _ he))

/-- No value of the entries nests deeper than `n`. -/
def Flat (n : Nat) (entries : List (String × Json)) : Prop := ∀ e ∈ entries, nesting e.2 ≤ n

theorem Flat.insertEntry {n : Nat} {entries : List (String × Json)} {value : Json} (h : Flat n entries)
    (hvalue : nesting value ≤ n) (key : String) : Flat n (Json.insertEntry key value entries) := by
  intro e he
  rcases Json.mem_insertEntry he with rfl | he
  · exact hvalue
  · exact h e he

theorem Flat.mono {m n : Nat} {entries : List (String × Json)} (h : Flat m entries) (hmn : m ≤ n) : Flat n entries :=
  fun e he => (h e he).trans hmn

theorem Flat.nesting {n : Nat} {entries : List (String × Json)} (h : Flat n entries) :
    nesting (.object entries) ≤ n + 1 :=
  Nat.succ_le_succ (nestingOfEntries_le h)

theorem cloneTonScalar_of_account {value : Json} {before after : Nat}
    (h : accountTonScalar value before = .some after) : cloneTonScalar value = .some value ∧ nesting value = 0 := by
  cases value with
  | null | bool | number | string => exact ⟨rfl, rfl⟩
  | array | object => cases h

theorem cloneFields_of_account {object : List (String × Json)} : ∀ {fields : List String} {before after : Nat}
    {projected : List (String × Json)}, accountFields object fields before = .some after → Flat 0 projected →
    ∃ projected', cloneFields (.object object) fields projected = .some projected' ∧ Flat 0 projected'
  | [], _, _, projected, _, hflat => ⟨projected, rfl, hflat⟩
  | field :: fields, before, after, projected, h, hflat => by
    rw [accountFields, List.foldlM_cons] at h
    obtain ⟨middle, hfield, h⟩ := Option.bind_eq_some_iff.mp h
    rw [cloneFields, List.foldlM_cons]
    have hget : (Json.object object).get field = object.lookup field := rfl
    rw [hget]
    cases hvalue : object.lookup field with
    | none => exact cloneFields_of_account h hflat
    | some value =>
      rw [hvalue] at hfield
      obtain ⟨hclone, hscalar⟩ := cloneTonScalar_of_account hfield
      simp only [hclone, Option.bind_eq_bind, Option.bind_some, Option.pure_def]
      exact cloneFields_of_account h (hflat.insertEntry hscalar.le field)

theorem flat_nil (n : Nat) : Flat n [] := fun _ h => by cases h

theorem asObject_eq_some {value : Json} {entries : List (String × Json)} (h : asObject value = .some entries) :
    value = .object entries := by
  cases value with
  | object => cases h; rfl
  | null | bool | number | string | array => cases h

/-- A message that has been accounted for. -/
theorem projectTonMessage_of_account {message : List (String × Json)} {before middle after : Nat}
    (hfields : accountFields message messageFields before = .some middle)
    (hcontent : ∀ value, message.lookup "message_content" = .some value →
      ∃ content, value = .object content ∧ accountFields content ["body"] middle = .some after) :
    ∃ projected, projectTonMessage (.object message) = .some projected ∧ nesting projected ≤ 2 := by
  obtain ⟨projected, hprojected, hflat⟩ := cloneFields_of_account hfields (flat_nil 0)
  rw [projectTonMessage, hprojected]
  simp only [Option.bind_eq_bind, Option.bind_some]
  split
  next => exact ⟨_, rfl, (hflat.mono (Nat.zero_le 1)).nesting⟩
  next body hbody =>
    obtain ⟨value, hvalue, hbody⟩ := Option.bind_eq_some_iff.mp hbody
    obtain ⟨body', hget, hbody⟩ := Option.bind_eq_some_iff.mp hbody
    cases hbody
    obtain ⟨content, rfl, haccount⟩ := hcontent value hvalue
    have hlookup : content.lookup "body" = .some body := hget
    rw [accountFields, List.foldlM_cons, hlookup] at haccount
    obtain ⟨_, hscalar, -⟩ := Option.bind_eq_some_iff.mp haccount
    obtain ⟨hclone, hzero⟩ := cloneTonScalar_of_account hscalar
    have hinner : nesting (.object [("body", body)]) ≤ 1 :=
      Flat.nesting (n := 0) fun e he => by
        rw [List.mem_singleton.mp he]
        exact hzero.le
    simp only [hclone, Option.bind_some]
    exact ⟨_, rfl, ((hflat.mono (Nat.zero_le 1)).insertEntry hinner _).nesting⟩

/-- **A transaction that has been accounted for can be projected.** -/
theorem projectTonTransaction_of_account {transaction : Json} {before after : Nat}
    (h : accountTonTransaction transaction before = .some after) :
    ∃ projected, projectTonTransaction transaction = .some projected ∧ nesting projected ≤ 3 := by
  rw [accountTonTransaction] at h
  obtain ⟨object, hobject, haccount⟩ := Option.bind_eq_some_iff.mp h
  obtain rfl := asObject_eq_some hobject
  obtain ⟨middle, hfields, hrest⟩ := Option.bind_eq_some_iff.mp haccount
  obtain ⟨projected, hprojected, hflat⟩ := cloneFields_of_account hfields (flat_nil 0)
  have hget : (Json.object object).get "in_msg" = object.lookup "in_msg" := rfl
  rw [projectTonTransaction, hprojected, hget]
  simp only [Option.bind_eq_bind, Option.bind_some]
  cases hmessage : object.lookup "in_msg" with
  | none => exact ⟨_, rfl, (hflat.mono (Nat.zero_le 2)).nesting⟩
  | some message =>
    rw [hmessage] at hrest
    simp only at hrest ⊢
    split at hrest
    next hnull =>
      have hzero : nesting .null ≤ 2 := Nat.zero_le 2
      rw [if_pos hnull]
      exact ⟨_, rfl, ((hflat.mono (Nat.zero_le 2)).insertEntry hzero _).nesting⟩
    next hnull =>
      obtain ⟨entries, hentries, hbody⟩ := Option.bind_eq_some_iff.mp hrest
      obtain rfl := asObject_eq_some hentries
      obtain ⟨middle', hmessageFields, hlast⟩ := Option.bind_eq_some_iff.mp hbody
      have hcontent : ∀ value, entries.lookup "message_content" = .some value →
          ∃ content, value = .object content ∧ accountFields content ["body"] middle' = .some after := by
        intro value hvalue
        rw [hvalue] at hlast
        obtain ⟨content, hcontent, hscalar⟩ := Option.bind_eq_some_iff.mp hlast
        exact ⟨content, asObject_eq_some hcontent, hscalar⟩
      obtain ⟨p, hp, hnest⟩ := projectTonMessage_of_account hmessageFields hcontent
      rw [if_neg hnull, hp]
      exact ⟨_, rfl, ((hflat.mono (Nat.zero_le 2)).insertEntry hnest _).nesting⟩

/-! ## The plan is the trace's -/

section

variable (crates : Crates) (transactions : Option (List (String × Json)))

/-- The trace of a node: its own transaction over the traces of its children, in their order. -/
inductive Presents : Json → Rose Json → Prop
  | node {node transaction : Json} {children : List Json} {traces : List (Rose Json)}
      (below : tonTraceChildren node = .some children)
      (named : transactionOf crates transactions node = .some transaction)
      (presents : List.Forall₂ Presents children traces) : Presents node (.node transaction traces)

/-- From one state of the loop to a later one the traces have been planned, side by side, their roots at `depth`. -/
structure Planned (traces : List (Rose Json)) (depth : Nat) (s s' : Progress) : Prop where
  plan : s'.plan = s.plan ++ Rose.planAll traces
  shallow : ∀ trace ∈ traces, 2 * (depth + trace.height) ≤ maxTonTraceOutputDepth
  accounted : ∀ tx ∈ Rose.labelsAll traces, ∃ before after, accountTonTransaction tx before = .some after
  hashes : ∃ hashes, List.Forall₂ (fun tx hash => hashOf crates tx = .some hash) (Rose.labelsAll traces) hashes ∧
    s'.seenHashes = hashes.reverse ++ s.seenHashes
  fresh : s.seenHashes.Nodup → s'.seenHashes.Nodup
  counted : s'.discovered + traces.length = s.discovered + (Rose.labelsAll traces).length
  few : s.discovered ≤ maxTonTraceNodes → s'.discovered ≤ maxTonTraceNodes

variable {crates transactions}

theorem planned_nil (depth : Nat) (s : Progress) : Planned crates [] depth s s :=
  ⟨by simp [Rose.planAll], by simp, by simp [Rose.labelsAll], ⟨[], .nil, rfl⟩, id, rfl, id⟩

/-- A node has been visited, its children planned, it has been built and the rest planned. -/
theorem Visited.planned {node transaction : Json} {children : List Json} {depth : Nat} {s s₁ s₂ s₃ : Progress}
    {below traces : List (Rose Json)} (h : Visited crates transactions node depth s transaction children s₁)
    (hlen : children.length = below.length) (hbelow : Planned crates below (depth + 1) s₁ s₂)
    (htraces : Planned crates traces depth { s₂ with plan := s₂.plan ++ [(transaction, children.length)] } s₃) :
    Planned crates (.node transaction below :: traces) depth s s₃ := by
  obtain ⟨hash, hhash, hnew, hseen⟩ := h.fresh
  obtain ⟨hashes₁, hall₁, hseen₁⟩ := hbelow.hashes
  obtain ⟨hashes₂, hall₂, hseen₂⟩ := htraces.hashes
  refine ⟨?_, ?_, ?_, ⟨hash :: (hashes₁ ++ hashes₂), ?_, ?_⟩, ?_, ?_, ?_⟩
  · rw [htraces.plan, hbelow.plan, h.plan, Rose.planAll, Rose.plan, hlen]
    simp
  · intro trace htrace
    rcases List.mem_cons.mp htrace with rfl | htrace
    · have hshallow := h.shallow
      have hheight : Rose.heightAll below ≤ maxTonTraceOutputDepth / 2 - (depth + 1) :=
        Rose.heightAll_le fun t ht => by
          have := hbelow.shallow t ht
          omega
      rw [Rose.height]
      omega
    · exact htraces.shallow trace htrace
  · intro tx htx
    rw [Rose.labelsAll, Rose.labels, List.cons_append] at htx
    rcases List.mem_cons.mp htx with rfl | htx
    · exact ⟨_, h.accounted⟩
    · exact (List.mem_append.mp htx).elim (hbelow.accounted tx) (htraces.accounted tx)
  · rw [Rose.labelsAll, Rose.labels, List.cons_append]
    exact .cons hhash (List.rel_append hall₁ hall₂)
  · have hstep : s₃.seenHashes = hashes₂.reverse ++ s₂.seenHashes := hseen₂
    rw [hstep, hseen₁, hseen]
    simp
  · intro hnodup
    refine htraces.fresh (hbelow.fresh ?_)
    rw [hseen]
    exact List.nodup_cons.mpr ⟨hnew, hnodup⟩
  · have h₁ := h.discovered
    have h₂ := hbelow.counted
    have h₃ : s₃.discovered + traces.length = s₂.discovered + (Rose.labelsAll traces).length := htraces.counted
    rw [Rose.labelsAll, Rose.labels]
    simp only [List.length_cons, List.length_append]
    omega
  · intro _
    have hfew := h.few
    rw [← h.discovered] at hfew
    exact htraces.few (hbelow.few hfew)

/-- Nodes on top of the stack are planned before what is below them. -/
theorem planLoop_visits : ∀ (children : List Json) (depth : Nat) (pending : List Work) (s : Progress)
    {result : List (Json × Nat)},
    planLoop crates transactions (children.map (fun child => .visit child depth) ++ pending) s = .some result →
    ∃ traces s', List.Forall₂ (Presents crates transactions) children traces ∧ Planned crates traces depth s s' ∧
      planLoop crates transactions pending s' = .some result
  | [], depth, pending, s, result, h => ⟨[], s, .nil, planned_nil depth s, h⟩
  | node :: nodes, depth, pending, s, result, h => by
    rw [List.map_cons, List.cons_append, planLoop] at h
    split at h
    next => cases h
    next transaction children s₁ hvisit =>
      have hvisited := visit_eq_some hvisit
      have hsize := sizeOf_children hvisited.below
      obtain ⟨below, s₂, hbelow, hplanned, h⟩ := planLoop_visits children (depth + 1) _ s₁ h
      rw [planLoop] at h
      obtain ⟨traces, s₃, htraces, hrest, h⟩ := planLoop_visits nodes depth pending _ h
      exact ⟨_, s₃, .cons (.node hvisited.below hvisited.named hbelow) htraces,
        hvisited.planned hbelow.length_eq hplanned hrest, h⟩
termination_by children => sizeOf children
decreasing_by
  · simp only [List.cons.sizeOf_spec]
    omega
  · simp only [List.cons.sizeOf_spec]
    omega

end

/-! ## The tree is built from the plan -/

/-- The object of a node, over those of its children. -/
def treeOf (transaction : Json) (children : List Json) : Option Json :=
  (projectTonTransaction transaction).map fun transaction =>
    .object [("children", .array children), ("transaction", transaction)]

theorem rebuild_eq : rebuild = Rose.reduce treeOf := by
  funext built entry
  rw [rebuild, Rose.reduce, treeOf]
  cases projectTonTransaction entry.1 with
  | none => simp
  | some p => split <;> rfl

/-- What has been accounted for has a tree, and each node is two containers. -/
theorem treeOf_of_account {transaction : Json} {children : List Json} {n : Nat}
    (h : ∃ before after, accountTonTransaction transaction before = .some after)
    (hchildren : ∀ child ∈ children, ∃ m ≤ n, nesting child ≤ 2 * m + 2) :
    ∃ tree, treeOf transaction children = .some tree ∧ nesting tree ≤ 2 * (n + 1) + 2 := by
  obtain ⟨before, after, haccount⟩ := h
  obtain ⟨p, hp, hnest⟩ := projectTonTransaction_of_account haccount
  refine ⟨_, by rw [treeOf, hp]; rfl, ?_⟩
  have hvalues : nestingOfValues children ≤ 2 * n + 2 :=
    nestingOfValues_le fun child hchild => by
      obtain ⟨m, hm, hle⟩ := hchildren child hchild
      omega
  have hflat : Flat (2 * n + 3) [("children", .array children), ("transaction", p)] := by
    intro e he
    rcases List.mem_cons.mp he with rfl | he
    · exact Nat.succ_le_succ hvalues
    · rw [List.mem_singleton.mp he]
      exact hnest.trans (by omega)
  exact hflat.nesting

/-- What a plan of the preflight says of the trace. -/
theorem tonTracePreflight_eq_some {crates : Crates} {transactions : Option (List (String × Json))} {root : Json}
    {plan : List (Json × Nat)} (h : tonTracePreflight crates transactions root = .some plan) :
    ∃ trace s, Presents crates transactions root trace ∧ Planned crates [trace] 1 {} s ∧ plan = trace.plan := by
  obtain ⟨traces, s, hpresents, hplanned, hdone⟩ := planLoop_visits [root] 1 [] {} h
  cases hpresents with
  | cons hroot hnone =>
    cases hnone
    rw [planLoop] at hdone
    cases hdone
    exact ⟨_, s, hroot, hplanned, by simpa [Rose.planAll] using hplanned.plan⟩

/-- The trace has a tree, within the depth the preflight allows. -/
theorem Planned.tree {crates : Crates} {trace : Rose Json} {s : Progress} (h : Planned crates [trace] 1 {} s) :
    ∃ tree, trace.fold? treeOf = .some tree ∧ nesting tree ≤ maxTonTraceOutputDepth := by
  have haccounted : ∀ tx ∈ trace.labels, ∃ before after, accountTonTransaction tx before = .some after :=
    fun tx htx => h.accounted tx (by simpa [Rose.labelsAll] using htx)
  obtain ⟨tree, htree, hnest⟩ := Rose.fold?_invariant (fun _ _ _ => treeOf_of_account) trace haccounted
  have hshallow := h.shallow trace List.mem_cons_self
  exact ⟨tree, htree, hnest.trans (by omega)⟩

/-- **The tree is the trace.** A tree that is returned has a node for each node of the trace, with its transaction
projected and its children in their order; the hashes are all different, and there are few nodes, none of them deep.
Every plan of the preflight is rebuilt to one tree, and never takes more subtrees than there are. -/
theorem tonTransactionTraceTree_faithful (crates : Crates) (response : Json) :
    (∀ tree, tonTransactionTraceTree crates response = .some tree →
      ∃ root transactions trace, traceRoot response = .some (root, transactions) ∧
        Presents crates transactions root trace ∧ trace.fold? treeOf = .some tree ∧
        (∃ hashes, List.Forall₂ (fun tx hash => hashOf crates tx = .some hash) trace.labels hashes ∧ hashes.Nodup) ∧
        trace.labels.length ≤ maxTonTraceNodes ∧ nesting tree ≤ maxTonTraceOutputDepth) ∧
    ∀ root transactions plan, tonTracePreflight crates transactions root = .some plan →
      (∃ tree, plan.foldlM rebuild [] = .some [tree] ∧
        (traceRoot response = .some (root, transactions) → tonTransactionTraceTree crates response = .some tree)) ∧
      ∀ before entry after, plan = before ++ entry :: after →
        ∃ built, before.foldlM rebuild [] = .some built ∧ entry.2 ≤ built.length := by
  have hplan : ∀ root transactions plan, tonTracePreflight crates transactions root = .some plan →
      ∃ trace s tree, Presents crates transactions root trace ∧ Planned crates [trace] 1 {} s ∧
        trace.fold? treeOf = .some tree ∧ nesting tree ≤ maxTonTraceOutputDepth ∧
        plan.foldlM rebuild [] = .some [tree] := by
    intro root transactions plan h
    obtain ⟨trace, s, hpresents, hplanned, rfl⟩ := tonTracePreflight_eq_some h
    obtain ⟨tree, htree, hnest⟩ := hplanned.tree
    refine ⟨trace, s, tree, hpresents, hplanned, htree, hnest, ?_⟩
    rw [rebuild_eq, Rose.foldlM_plan, htree]
    rfl
  constructor
  · intro tree h
    obtain ⟨⟨root, transactions⟩, hroot, h⟩ := Option.bind_eq_some_iff.mp h
    obtain ⟨plan, hpreflight, h⟩ := Option.bind_eq_some_iff.mp h
    obtain ⟨trace, s, tree', hpresents, hplanned, htree, hnest, hbuilt⟩ := hplan root transactions plan hpreflight
    rw [hbuilt] at h
    cases h
    obtain ⟨hashes, hall, hseen⟩ := hplanned.hashes
    have hnodup := hplanned.fresh List.nodup_nil
    have hcounted := hplanned.counted
    have hfew := hplanned.few (by decide)
    simp only [Rose.labelsAll, List.append_nil, List.length_singleton] at hall hcounted
    rw [hseen, List.append_nil, List.nodup_reverse] at hnodup
    refine ⟨root, transactions, trace, hroot, hpresents, htree, ⟨hashes, hall, hnodup⟩, ?_, hnest⟩
    have hone : ({} : Progress).discovered = 1 := rfl
    omega
  · intro root transactions plan h
    obtain ⟨trace, s, tree, -, -, -, -, hbuilt⟩ := hplan root transactions plan h
    refine ⟨⟨tree, hbuilt, fun hroot => ?_⟩, fun before entry after hsplit => ?_⟩
    · rw [tonTransactionTraceTree, hroot]
      simp only [Option.bind_eq_bind, Option.bind_some, h, hbuilt]
      rfl
    · rw [rebuild_eq] at hbuilt ⊢
      exact Rose.reduce_le hbuilt hsplit

end Pillar.TonTrace
