/-
The scan before the parser (`pillar-runtime`, `provider_health/transport.rs`):
`ensure_json_parse_budget` reads the bytes once, with three flags, and counts.
-/
import Pillar.Halt
import Pillar.JsonGrammar
import Pillar.JsonMap
import Pillar.StructuralCost

namespace Pillar.ParseBudget

open JsonGrammar IotaEvents

/-! ## The code -/

inductive BudgetError where
  | stringBytes
  | nesting
  | cost
  deriving Repr, DecidableEq

structure Scan where
  depth : Nat := 0
  nodes : Nat := 0
  stringBytes : Nat := 0
  inString : Bool := false
  escaped : Bool := false
  inScalar : Bool := false

def delimiter (b : UInt8) : Bool :=
  b == 0x20 || b == 0x0A || b == 0x0D || b == 0x09 || b == 0x7B || b == 0x5B || b == 0x7D || b == 0x5D || b == 0x2C ||
    b == 0x3A || b == 0x22

def startsScalar (b : UInt8) : Bool := b == 0x74 || b == 0x66 || b == 0x6E || b == 0x2D || isDigit b

section

variable (depthLimit nodeLimit stringLimit : Nat)

def BudgetError.message : BudgetError → String
  | stringBytes => s!"Provider JSON exceeds {stringLimit} string byte limit"
  | nesting => s!"Provider JSON exceeds {depthLimit} nesting limit"
  | cost => s!"Provider JSON exceeds {nodeLimit} structural parse-cost limit"

/-- Inside a string. -/
def stringByte (s : Scan) (byte : UInt8) : Except BudgetError Scan :=
  let s := { s with stringBytes := saturatingAdd s.stringBytes 1 }
  if s.stringBytes > stringLimit then .error .stringBytes
  else if s.escaped then .ok { s with escaped := false }
  else if byte = 0x5C then .ok { s with escaped := true }
  else if byte = 0x22 then .ok { s with inString := false }
  else .ok s

/-- `match byte`. -/
def structural (s : Scan) (byte : UInt8) : Except BudgetError Scan :=
  if byte = 0x22 then .ok { s with inString := true, nodes := saturatingAdd s.nodes 1 }
  else if byte = 0x7B ∨ byte = 0x5B then
    let s := { s with depth := saturatingAdd s.depth 1 }
    if s.depth > depthLimit then .error .nesting else .ok { s with nodes := saturatingAdd s.nodes 1 }
  else if byte = 0x7D ∨ byte = 0x5D then .ok { s with depth := s.depth - 1 }
  else if byte = 0x2C ∨ byte = 0x3A then .ok { s with nodes := saturatingAdd s.nodes 1 }
  else if startsScalar byte then .ok { s with inScalar := true, nodes := saturatingAdd s.nodes 1 }
  else .ok s

def step (s : Scan) (byte : UInt8) : Except BudgetError Scan :=
  if s.inString then stringByte stringLimit s byte
  else if s.inScalar && !delimiter byte then .ok s
  else do
    let s ← structural depthLimit { s with inScalar := false } byte
    if s.nodes > nodeLimit then .error .cost else .ok s

/-- The loop, with its variables as they are at the end. -/
def scan (bytes : List UInt8) : Except BudgetError Scan := bytes.foldlM (step depthLimit nodeLimit stringLimit) {}

end

/-! ## Without limits -/

/-- The scan without its limits. -/
structure Track where
  depth : Nat
  nodes : Nat
  inString : Bool
  escaped : Bool
  inScalar : Bool

def inside (t : Track) (byte : UInt8) : Track :=
  if t.escaped then { t with escaped := false }
  else if byte = 0x5C then { t with escaped := true }
  else if byte = 0x22 then { t with inString := false }
  else t

def outside (t : Track) (byte : UInt8) : Track :=
  if byte = 0x22 then { t with inString := true, nodes := t.nodes + 1 }
  else if byte = 0x7B ∨ byte = 0x5B then { t with depth := t.depth + 1, nodes := t.nodes + 1 }
  else if byte = 0x7D ∨ byte = 0x5D then { t with depth := t.depth - 1 }
  else if byte = 0x2C ∨ byte = 0x3A then { t with nodes := t.nodes + 1 }
  else if startsScalar byte then { t with inScalar := true, nodes := t.nodes + 1 }
  else t

def advance (t : Track) (byte : UInt8) : Track :=
  if t.inString then inside t byte
  else if t.inScalar && !delimiter byte then t
  else outside { t with inScalar := false } byte

section

variable {depthLimit nodeLimit : Nat} (stringLimit : Nat)

end

/-! ## Over a text -/

/-- From `t` to `t'`, byte by byte, with the depth that each byte is marked with. -/
def Follows : Track → List (UInt8 × Nat) → Track → Prop
  | t, [], t' => t = t'
  | t, (byte, depth) :: marks, t' => (advance t byte).depth = depth ∧ Follows (advance t byte) marks t'

theorem Follows.append : ∀ {marks marks' : List (UInt8 × Nat)} {t u v : Track},
    Follows t marks u → Follows u marks' v → Follows t (marks ++ marks') v
  | [], _, _, _, _, h, h' => by
    cases h
    exact h'
  | (_, _) :: _, _, _, _, _, ⟨hdepth, h⟩, h' => ⟨hdepth, h.append h'⟩

theorem Follows.foldl : ∀ {marks : List (UInt8 × Nat)} {t u : Track}, Follows t marks u →
    (marks.map Prod.fst).foldl advance t = u
  | [], _, _, h => h
  | (_, _) :: _, _, _, h => h.2.foldl

/-- The depth after each byte is the one it is marked with. -/
theorem Follows.depth : ∀ {before after : List (UInt8 × Nat)} {mark : UInt8 × Nat} {t u : Track},
    Follows t (before ++ mark :: after) u → (((before ++ [mark]).map Prod.fst).foldl advance t).depth = mark.2
  | [], _, (_, _), _, _, h => h.1
  | (_, _) :: _, _, _, _, _, h => h.2.depth

/-- Between two tokens. -/
def idle (depth nodes : Nat) (inScalar : Bool) : Track := ⟨depth, nodes, false, false, inScalar⟩

theorem Follows.byte {t u : Track} {b : UInt8} {depth : Nat} (h : advance t b = u) (hdepth : u.depth = depth) :
    Follows t (marked depth [b]) u := by
  subst h
  exact ⟨hdepth, rfl⟩

theorem Follows.bytes_cons {t u v : Track} {b : UInt8} {bytes : List UInt8} {depth : Nat} (h : advance t b = u)
    (hdepth : u.depth = depth) (hbytes : Follows u (marked depth bytes) v) :
    Follows t (marked depth (b :: bytes)) v := by
  subst h
  exact ⟨hdepth, hbytes⟩

variable (depth nodes : Nat)

theorem blanks_follow : ∀ (blank : List Blank) (inScalar : Bool), Follows (idle depth nodes inScalar)
    (marked depth (blanks blank)) (idle depth nodes (inScalar && blank.isEmpty))
  | [], inScalar => by
    rw [List.isEmpty_nil, Bool.and_true]
    rfl
  | b :: blank, inScalar => by
    have hbyte : advance (idle depth nodes inScalar) b.byte = idle depth nodes false := by
      cases b <;> cases inScalar <;> rfl
    rw [List.isEmpty_cons, Bool.and_false]
    exact .bytes_cons hbyte rfl (blanks_follow blank false)

/-- The bytes that punctuate: a comma or a colon. -/
theorem advance_comma (inScalar : Bool) : advance (idle depth nodes inScalar) 0x2C = idle depth (nodes + 1) false := by
  cases inScalar <;> rfl

theorem advance_colon (inScalar : Bool) : advance (idle depth nodes inScalar) 0x3A = idle depth (nodes + 1) false := by
  cases inScalar <;> rfl

theorem number_not_delimiter {b : UInt8} (h : isNumberByte b = true) : delimiter b = false := by
  rw [Bool.eq_false_iff]
  intro hdelimiter
  simp only [delimiter, Bool.or_eq_true, beq_iff_eq, or_assoc] at hdelimiter
  rcases hdelimiter with rfl | rfl | rfl | rfl | rfl | rfl | rfl | rfl | rfl | rfl | rfl <;> cases h

theorem digit_isNumberByte {b : UInt8} (h : isDigit b = true ∨ b = 0x2D) : isNumberByte b = true := by
  rcases h with h | rfl
  · simp [isNumberByte, h]
  · rfl

theorem digit_startsScalar {b : UInt8} (h : isDigit b = true ∨ b = 0x2D) : startsScalar b = true := by
  rcases h with h | rfl
  · simp [startsScalar, h]
  · rfl

/-- The first byte of a number. -/
theorem advance_number {b : UInt8} (h : isDigit b = true ∨ b = 0x2D) :
    advance (idle depth nodes false) b = idle depth (nodes + 1) true := by
  have hdelimiter := number_not_delimiter (digit_isNumberByte h)
  simp only [delimiter, Bool.or_eq_false_iff, beq_eq_false_iff_ne, ne_eq] at hdelimiter
  simp [advance, outside, idle, hdelimiter, digit_startsScalar h]

theorem scalar_follows : ∀ (bytes : List UInt8), (∀ b ∈ bytes, delimiter b = false) →
    Follows (idle depth nodes true) (marked depth bytes) (idle depth nodes true)
  | [], _ => rfl
  | b :: bytes, h => by
    have hbyte : advance (idle depth nodes true) b = idle depth nodes true := by
      simp [advance, idle, h b List.mem_cons_self]
    exact .bytes_cons hbyte rfl (scalar_follows bytes fun c hc => h c (List.mem_cons_of_mem _ hc))

theorem number_follows (token : NumberToken) :
    Follows (idle depth nodes false) (marked depth token.bytes) (idle depth (nodes + 1) true) :=
  .bytes_cons (advance_number depth nodes token.first_ok) rfl
    (scalar_follows _ _ _ fun b hb => number_not_delimiter (token.rest_ok b hb))

/-- Inside a string. -/
def within (depth nodes : Nat) : Track := ⟨depth, nodes, true, false, false⟩

theorem pieces_follow : ∀ pieces : List Piece,
    Follows (within depth nodes) (marked depth (pieces.flatMap Piece.bytes ++ [0x22])) (idle depth nodes false)
  | [] => .byte rfl rfl
  | .plain b h :: pieces => by
    have hbyte : advance (within depth nodes) b = within depth nodes := by
      simp [advance, inside, within, h]
    exact .bytes_cons hbyte rfl (pieces_follow pieces)
  | .escaped b :: pieces => by
    have hslash : advance (within depth nodes) 0x5C = ⟨depth, nodes, true, true, false⟩ := rfl
    have hbyte : advance ⟨depth, nodes, true, true, false⟩ b = within depth nodes := rfl
    exact .bytes_cons hslash rfl (.bytes_cons hbyte rfl (pieces_follow pieces))

theorem quoted_follows (pieces : List Piece) :
    Follows (idle depth nodes false) (marked depth (quoted pieces)) (idle depth (nodes + 1) false) :=
  .bytes_cons (u := within depth (nodes + 1)) rfl rfl (pieces_follow depth (nodes + 1) pieces)

mutual
/-- What the scan counts: a string, a scalar, an opening bracket, a comma and a colon are one each. -/
def nodesOf : Doc → Nat
  | .null | .bool _ | .number _ | .string _ => 1
  | .array _ items => 1 + nodesOfItems 0 items
  | .object _ members => 1 + nodesOfMembers 0 members

def nodesOfItems (lead : Nat) : Items → Nat
  | .nil => 0
  | .cons _ item _ rest => lead + nodesOf item + nodesOfItems 1 rest

def nodesOfMembers (lead : Nat) : Members → Nat
  | .nil => 0
  | .cons _ _ _ _ value _ rest => lead + 2 + nodesOf value + nodesOfMembers 1 rest
end

/-- Nothing before the first of a list, and a comma before the others. -/
def Leads (inScalar : Bool) (lead : List UInt8) : Prop := lead = [] ∧ inScalar = false ∨ lead = [0x2C]

theorem lead_follows {inScalar : Bool} {lead : List UInt8} (h : Leads inScalar lead) (blank : List Blank) :
    Follows (idle depth nodes inScalar) (marked depth (lead ++ blanks blank))
      (idle depth (nodes + lead.length) false) := by
  rcases h with ⟨rfl, rfl⟩ | rfl
  · exact blanks_follow depth nodes blank false
  · exact .bytes_cons (advance_comma depth nodes inScalar) rfl (blanks_follow depth (nodes + 1) blank false)

theorem colon_follows (afterKey beforeValue : List Blank) (inScalar : Bool) : Follows (idle depth nodes inScalar)
    (marked depth (blanks afterKey ++ 0x3A :: blanks beforeValue)) (idle depth (nodes + 1) false) := by
  rw [marked, List.map_append]
  exact (blanks_follow depth nodes afterKey inScalar).append
    (.bytes_cons (advance_colon depth nodes _) rfl (blanks_follow depth (nodes + 1) beforeValue false))

/-- The bytes of a container around what it holds. -/
theorem container_follows {start stop : UInt8} {blank : List Blank} {held : List (UInt8 × Nat)} {count : Nat}
    {inScalar : Bool} (hstart : advance (idle depth nodes false) start = idle (depth + 1) (nodes + 1) false)
    (hstop : ∀ n f, advance (idle (depth + 1) n f) stop = idle depth n false)
    (hheld : Follows (idle (depth + 1) (nodes + 1) false) held (idle (depth + 1) (nodes + 1 + count) inScalar)) :
    Follows (idle depth nodes false) (marked (depth + 1) (start :: blanks blank) ++ (held ++ marked depth [stop]))
      (idle depth (nodes + (1 + count)) false) := by
  rw [← Nat.add_assoc]
  exact (Follows.bytes_cons hstart rfl (blanks_follow (depth + 1) (nodes + 1) blank false)).append
    (hheld.append (.byte (hstop _ _) rfl))

mutual
/-- **The scan's depth is the number of open containers**, all through a value. -/
theorem doc_follows : ∀ (doc : Doc) (depth nodes : Nat), ∃ inScalar,
    Follows (idle depth nodes false) (doc.marks depth) (idle depth (nodes + nodesOf doc) inScalar)
  | .null, depth, nodes => ⟨true, rfl, rfl, rfl, rfl, rfl⟩
  | .bool true, depth, nodes => ⟨true, rfl, rfl, rfl, rfl, rfl⟩
  | .bool false, depth, nodes => ⟨true, rfl, rfl, rfl, rfl, rfl, rfl⟩
  | .number token, depth, nodes => ⟨true, number_follows depth nodes token⟩
  | .string pieces, depth, nodes => ⟨false, quoted_follows depth nodes pieces⟩
  | .array blank items, depth, nodes => by
    obtain ⟨inScalar, hitems⟩ := items_follow items (depth + 1) (nodes + 1) [] false (.inl ⟨rfl, rfl⟩)
    exact ⟨false, container_follows depth nodes rfl (fun n f => by cases f <;> rfl) hitems⟩
  | .object blank members, depth, nodes => by
    obtain ⟨inScalar, hmembers⟩ := members_follow members (depth + 1) (nodes + 1) [] false (.inl ⟨rfl, rfl⟩)
    exact ⟨false, container_follows depth nodes rfl (fun n f => by cases f <;> rfl) hmembers⟩

theorem items_follow : ∀ (items : Items) (depth nodes : Nat) (lead : List UInt8) (inScalar : Bool),
    Leads inScalar lead → ∃ inScalar', Follows (idle depth nodes inScalar) (items.marks depth lead)
      (idle depth (nodes + nodesOfItems lead.length items) inScalar')
  | .nil, _, _, _, inScalar, _ => ⟨inScalar, rfl⟩
  | .cons before item after rest, depth, nodes, lead, inScalar, hlead => by
    obtain ⟨f, hitem⟩ := doc_follows item depth (nodes + lead.length)
    obtain ⟨g, hrest⟩ := items_follow rest depth (nodes + lead.length + nodesOf item) [0x2C] _ (.inr rfl)
    refine ⟨g, ?_⟩
    rw [nodesOfItems, ← Nat.add_assoc, ← Nat.add_assoc]
    exact (lead_follows depth nodes hlead before).append (hitem.append ((blanks_follow depth _ after f).append hrest))

theorem members_follow : ∀ (members : Members) (depth nodes : Nat) (lead : List UInt8) (inScalar : Bool),
    Leads inScalar lead → ∃ inScalar', Follows (idle depth nodes inScalar) (members.marks depth lead)
      (idle depth (nodes + nodesOfMembers lead.length members) inScalar')
  | .nil, _, _, _, inScalar, _ => ⟨inScalar, rfl⟩
  | .cons before key afterKey beforeValue value after rest, depth, nodes, lead, inScalar, hlead => by
    obtain ⟨f, hvalue⟩ := doc_follows value depth (nodes + lead.length + 1 + 1)
    obtain ⟨g, hrest⟩ := members_follow rest depth (nodes + lead.length + 1 + 1 + nodesOf value) [0x2C] _ (.inr rfl)
    refine ⟨g, ?_⟩
    rw [nodesOfMembers, ← Nat.add_assoc, ← Nat.add_assoc, ← Nat.add_assoc]
    exact (lead_follows depth nodes hlead before).append ((quoted_follows depth _ key).append
      ((colon_follows depth _ afterKey beforeValue false).append
        (hvalue.append ((blanks_follow depth _ after f).append hrest))))
end

theorem costOfEntries_perm {entries entries' : List (String × Json)} (h : entries.Perm entries') :
    costOfEntries entries = costOfEntries entries' := by
  rw [costOfEntries_eq, costOfEntries_eq]
  exact ((h.map Prod.snd).map cost).sum_eq

section

variable (string : List Piece → String) (number : NumberToken → JsonNumber)

/-- The first of a list has no comma before it, so the bracket stands for one. -/
theorem nodesOfItems_lead (items : Items) : 1 + nodesOfItems 0 items = max (nodesOfItems 1 items) 1 := by
  cases items with
  | nil => rfl
  | cons before item after rest =>
    rw [nodesOfItems, nodesOfItems]
    omega

theorem nodesOfMembers_lead (members : Members) : 1 + nodesOfMembers 0 members = max (nodesOfMembers 1 members) 1 := by
  cases members with
  | nil => rfl
  | cons before key afterKey beforeValue value after rest =>
    rw [nodesOfMembers, nodesOfMembers]
    omega

mutual
/-- **The scan counts what the parsed value costs.** -/
theorem nodesOf_eq : ∀ {doc : Doc}, doc.Distinct string → nodesOf doc = cost (doc.value string number)
  | .null, _ | .bool _, _ | .number _, _ | .string _, _ => rfl
  | .array _ items, h => by
    rw [nodesOf, nodesOfItems_lead, nodesOfItems_eq h, Doc.value, cost]
    cases items with
    | nil => rfl
    | cons before item after rest =>
      rw [Items.values, List.length_cons]
      omega
  | .object _ members, h => by
    obtain ⟨hlen, hcount⟩ := nodesOfMembers_eq members [] h.2 h.1
    rw [List.length_nil, Nat.zero_add] at hlen
    rw [costOfEntries, Nat.add_zero] at hcount
    rw [nodesOf, nodesOfMembers_lead, Doc.value, cost, hlen, hcount]
    cases members with
    | nil => rfl
    | cons before key afterKey beforeValue value after rest =>
      rw [Members.keys, List.length_cons]
      omega

theorem nodesOfItems_eq : ∀ {items : Items}, items.Distinct string →
    nodesOfItems 1 items = (items.values string number).length + costOfValues (items.values string number)
  | .nil, _ => rfl
  | .cons _ item _ rest, h => by
    rw [nodesOfItems, Items.values, List.length_cons, costOfValues, nodesOf_eq h.1, nodesOfItems_eq h.2]
    omega

/-- Three for each member, all of them in the map, and what it holds. -/
theorem nodesOfMembers_eq : ∀ (members : Members) (entries : List (String × Json)), members.Distinct string →
    (entries.map Prod.fst ++ members.keys string).Nodup →
    (members.entries string number entries).length = entries.length + (members.keys string).length ∧
      nodesOfMembers 1 members + costOfEntries entries =
        (members.keys string).length * 3 + costOfEntries (members.entries string number entries)
  | .nil, _, _, _ => ⟨rfl, rfl⟩
  | .cons _ key _ _ value _ rest, entries, h, hkeys => by
    have hperm : (Json.insertEntry (string key) (value.value string number) entries).Perm
        ((string key, value.value string number) :: entries) := by
      refine Json.insertEntry_perm fun hmem => ?_
      exact List.disjoint_of_nodup_append hkeys hmem List.mem_cons_self
    have hkeys' : ((Json.insertEntry (string key) (value.value string number) entries).map Prod.fst ++
        rest.keys string).Nodup := by
      refine ((hperm.map Prod.fst).append_right _).nodup_iff.mpr ?_
      rw [Members.keys] at hkeys
      exact List.perm_middle.nodup_iff.mp hkeys
    obtain ⟨hlen, hcount⟩ := nodesOfMembers_eq rest _ h.2 hkeys'
    rw [hperm.length_eq, List.length_cons] at hlen
    rw [costOfEntries_perm hperm, costOfEntries] at hcount
    rw [nodesOfMembers, Members.entries, Members.keys, List.length_cons, nodesOf_eq h.1]
    omega
end

end

end Pillar.ParseBudget
