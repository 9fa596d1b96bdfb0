/-
JSON values (`serde_json::Value`) and how the code reads them. An object is its
entries in key order, with no key twice.
-/
import Mathlib

namespace Pillar

/-- `serde_json::Number`; a float is its bits. -/
inductive JsonNumber where
  | posInt (n : UInt64)
  | negInt (n : Int)
  | float (bits : UInt64)
  deriving Repr, DecidableEq

inductive Json where
  | null
  | bool (b : Bool)
  | number (n : JsonNumber)
  | string (s : String)
  | array (values : List Json)
  | object (entries : List (String × Json))
  deriving Repr

/-- Induction with a hypothesis for each value a container holds. -/
theorem Json.inductionOn {P : Json → Prop} (value : Json) (null : P .null) (bool : ∀ b, P (.bool b))
    (number : ∀ n, P (.number n)) (string : ∀ s, P (.string s))
    (array : ∀ values, (∀ v ∈ values, P v) → P (.array values))
    (object : ∀ entries, (∀ e ∈ entries, P e.2) → P (.object entries)) : P value :=
  @Json.rec P (fun values => ∀ v ∈ values, P v) (fun entries => ∀ e ∈ entries, P e.2) (fun e => P e.2)
    null bool number string array object (by simp) (fun _ _ hv hvs => List.forall_mem_cons.mpr ⟨hv, hvs⟩)
    (by simp) (fun _ _ he hes => List.forall_mem_cons.mpr ⟨he, hes⟩) (fun _ _ hv => hv) value

/-- No object in it has a key twice, as a map never does. -/
inductive Json.Distinct : Json → Prop
  | null : Distinct .null
  | bool (b : Bool) : Distinct (.bool b)
  | number (n : JsonNumber) : Distinct (.number n)
  | string (s : String) : Distinct (.string s)
  | array {values : List Json} (h : ∀ v ∈ values, v.Distinct) : Distinct (.array values)
  | object {entries : List (String × Json)} (keys : (entries.map Prod.fst).Nodup) (h : ∀ e ∈ entries, e.2.Distinct) :
      Distinct (.object entries)

/-- The fields of a record beyond its own (`IndexMap<String, Value>`). -/
abbrev Extra := List (String × Json)

def Extra.get (extra : Extra) (key : String) : Option Json := extra.lookup key

/-- `IndexMap::insert`: a key that is there keeps its place. -/
def Extra.insert (key : String) (value : Json) : Extra → Extra
  | [] => [(key, value)]
  | (k, v) :: rest => if k = key then (k, value) :: rest else (k, v) :: Extra.insert key value rest

namespace Json

/-- `Value::get` with a key. -/
def get (key : String) : Json → Option Json
  | .object entries => entries.lookup key
  | _ => .none

def asStr : Json → Option String
  | .string s => .some s
  | _ => .none

def asArray : Json → Option (List Json)
  | .array values => .some values
  | _ => .none

def asU64 : Json → Option UInt64
  | .number (.posInt n) => .some n
  | _ => .none

def asI64 : Json → Option Int
  | .number (.posInt n) => if n.toNat < 2 ^ 63 then .some n.toNat else .none
  | .number (.negInt n) => .some n
  | _ => .none

def isNull : Json → Bool
  | .null => true
  | _ => false

/-- `Map::insert`: the entries stay in key order. -/
def insertEntry (key : String) (value : Json) : List (String × Json) → List (String × Json)
  | [] => [(key, value)]
  | (k, v) :: rest =>
    if k = key then (key, value) :: rest
    else if key < k then (key, value) :: (k, v) :: rest
    else (k, v) :: insertEntry key value rest

/-- `Value::pointer`, by the tokens of a path of names. -/
def pointer : List String → Json → Option Json
  | [], value => .some value
  | token :: rest, value => (value.get token).bind (pointer rest)

/-- `Value::from` of an unsigned integer. -/
def ofU32 (n : UInt32) : Json := .number (.posInt n.toUInt64)

@[simp] theorem asStr_string (s : String) : asStr (.string s) = .some s := rfl
@[simp] theorem asArray_array (values : List Json) : asArray (.array values) = .some values := rfl
@[simp] theorem asU64_ofU32 (n : UInt32) : asU64 (ofU32 n) = .some n.toUInt64 := rfl

end Json

end Pillar
