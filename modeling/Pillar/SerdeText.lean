/-
The compact text of a JSON value (`serde_json::to_writer`): of two values that
are held as `serde_json` holds them, equal texts mean equal values.

Numbers are printed by the crate, and no two that it holds alike. A digest of the
text tells values apart unless it has a collision.
-/
import Pillar.CantonPayload
import Pillar.Receipt
import Pillar.Utf8

namespace Pillar.SerdeText

open JsonText Text Hex

/-- A number that a value can hold: a negative `i64`, any `u64`, a float that is finite. -/
def Held : JsonNumber → Prop
  | .posInt _ => True
  | .negInt n => -2 ^ 63 ≤ n ∧ n < 0
  | .float bits => bits.toNat / 2 ^ 52 % 2 ^ 11 ≠ 2 ^ 11 - 1

/-- How numbers are printed. -/
structure NumberPrinter where
  print : JsonNumber → String
  token : ∀ n, Held n → NumberToken (print n).toList
  injective : ∀ m n, Held m → Held n → print m = print n → m = n

/-- Every number in it is one that a value can hold. -/
inductive Numbered : Json → Prop
  | null : Numbered .null
  | bool (b : Bool) : Numbered (.bool b)
  | number {n : JsonNumber} (h : Held n) : Numbered (.number n)
  | string (s : String) : Numbered (.string s)
  | array {values : List Json} (h : ∀ v ∈ values, Numbered v) : Numbered (.array values)
  | object {entries : List (String × Json)} (h : ∀ e ∈ entries, Numbered e.2) : Numbered (.object entries)

section

variable (printer : NumberPrinter)

mutual

def toTree : Json → Tree
  | .null => .null
  | .bool b => .bool b
  | .number n => .number (printer.print n).toList
  | .string text => .string text
  | .array values => .array (toTrees values)
  | .object entries => .object (toMembers entries)

def toTrees : List Json → List Tree
  | [] => []
  | value :: values => toTree value :: toTrees values

def toMembers : List (String × Json) → List (String × Tree)
  | [] => []
  | (key, value) :: entries => (key, toTree value) :: toMembers entries

end

theorem toTrees_eq_map (values : List Json) : toTrees printer values = values.map (toTree printer) := by
  induction values with
  | nil => rfl
  | cons value values ih => rw [toTrees, ih, List.map_cons]

theorem toMembers_eq_map (entries : List (String × Json)) :
    toMembers printer entries = entries.map fun e => (e.1, toTree printer e.2) := by
  induction entries with
  | nil => rfl
  | cons entry entries ih => rw [toMembers, ih, List.map_cons]

/-- Strings are escaped as `JSON.stringify` escapes them. -/
def toWriter (value : Json) : List UInt8 :=
  utf8 (String.ofList ((toTree printer value).print Canton.writeJsonString))

end

variable {printer : NumberPrinter}

theorem toTree_tokens {value : Json} (h : Numbered value) : (toTree printer value).Tokens := by
  induction value using Json.inductionOn with
  | null => exact .null
  | bool b => exact .bool b
  | number n =>
    cases h with
    | number hn => exact .number (printer.token n hn)
  | string s => exact .string s
  | array values ih =>
    cases h with
    | array hvalues =>
      rw [toTree, toTrees_eq_map]
      refine .array fun tree htree => ?_
      obtain ⟨value, hvalue, rfl⟩ := List.mem_map.mp htree
      exact ih value hvalue (hvalues value hvalue)
  | object entries ih =>
    cases h with
    | object hentries =>
      rw [toTree, toMembers_eq_map]
      refine .object fun member hmember => ?_
      obtain ⟨entry, hentry, rfl⟩ := List.mem_map.mp hmember
      exact ih entry hentry (hentries entry hentry)

theorem map_inj_on {α β : Type} {f : α → β} : ∀ {as bs : List α}, (∀ a ∈ as, ∀ b ∈ bs, f a = f b → a = b) →
    as.map f = bs.map f → as = bs
  | [], [], _, _ => rfl
  | [], _ :: _, _, h => by cases h
  | _ :: _, [], _, h => by cases h
  | a :: as, b :: bs, hf, h => by
    obtain ⟨hab, hrest⟩ := List.cons.inj h
    rw [hf a List.mem_cons_self b List.mem_cons_self hab,
      map_inj_on (fun a ha b hb => hf a (List.mem_cons_of_mem _ ha) b (List.mem_cons_of_mem _ hb)) hrest]

theorem toTree_inj {a b : Json} (ha : Numbered a) (hb : Numbered b) (h : toTree printer a = toTree printer b) :
    a = b := by
  induction a using Json.inductionOn generalizing b with
  | null => cases b <;> first | rfl | cases h
  | bool v => cases b <;> first | (cases h; rfl) | cases h
  | number n =>
    cases b with
    | number m =>
      cases ha with
      | number hn =>
        cases hb with
        | number hm => rw [printer.injective n m hn hm (String.toList_inj.mp (Tree.number.inj h))]
    | _ => cases h
  | string s => cases b <;> first | (cases h; rfl) | cases h
  | array values ih =>
    cases b with
    | array values' =>
      cases ha with
      | array hvalues =>
        cases hb with
        | array hvalues' =>
          rw [toTree, toTree, toTrees_eq_map, toTrees_eq_map] at h
          rw [map_inj_on (fun v hv w hw heq => ih v hv (hvalues v hv) (hvalues' w hw) heq) (Tree.array.inj h)]
    | _ => cases h
  | object entries ih =>
    cases b with
    | object entries' =>
      cases ha with
      | object hentries =>
        cases hb with
        | object hentries' =>
          rw [toTree, toTree, toMembers_eq_map, toMembers_eq_map] at h
          rw [map_inj_on (fun e he e' he' heq => Prod.ext (Prod.mk.inj heq).1
            (ih e he (hentries e he) (hentries' e' he') (Prod.mk.inj heq).2)) (Tree.object.inj h)]
    | _ => cases h

/-- **A value is told by its text.** -/
theorem toWriter_inj {a b : Json} (ha : Numbered a) (hb : Numbered b) (h : toWriter printer a = toWriter printer b) :
    a = b := by
  have hchars := String.ofList_injective (utf8_inj h)
  obtain ⟨htree, -⟩ := print_inj Canton.quoting_writeJsonString (toTree_tokens ha) (toTree_tokens hb) (x := [])
    (y := []) trivial trivial (by simpa using hchars)
  exact toTree_inj ha hb htree

/-! ## Fingerprints -/

/-- What a fingerprint is made with. -/
structure Fingerprints where
  hex : HexCrate
  printer : NumberPrinter
  sha256 : List UInt8 → Abi.Bytes 32

namespace Fingerprints

variable (crates : Fingerprints)

def digest : Receipt.Digest where
  hex := crates.hex
  toWriter := toWriter crates.printer
  sha256 := crates.sha256

/-- `canonical_json_fingerprint`. -/
def fingerprint (value : Json) : String := Receipt.canonicalJsonFingerprint crates.digest value

/-- Two texts with one digest. -/
def Collide (a b : Json) : Prop :=
  toWriter crates.printer a ≠ toWriter crates.printer b ∧
    crates.sha256 (toWriter crates.printer a) = crates.sha256 (toWriter crates.printer b)

variable {crates}

/-- **What is voted alike is alike**, or two texts collide. -/
theorem eq_or_collide {a b : Json} (ha : Numbered a) (hb : Numbered b)
    (h : crates.fingerprint a = crates.fingerprint b) : a = b ∨ crates.Collide a b := by
  have hdigits := congrArg String.toList h
  simp only [fingerprint, Receipt.canonicalJsonFingerprint, digest, crates.hex.toList_encode] at hdigits
  have hbytes := congrArg decodeChars hdigits
  rw [decodeChars_encodeChars, decodeChars_encodeChars] at hbytes
  have hhash := Subtype.ext (Option.some.inj hbytes)
  by_cases htext : toWriter crates.printer a = toWriter crates.printer b
  · exact .inl (toWriter_inj ha hb htext)
  · exact .inr ⟨htext, hhash⟩

theorem length_fingerprint (value : Json) : (crates.fingerprint value).toList.length = 64 := by
  simp only [fingerprint, Receipt.canonicalJsonFingerprint, digest, crates.hex.toList_encode]
  rw [length_encodeChars, Abi.Bytes.length_val]

end Fingerprints

end Pillar.SerdeText
