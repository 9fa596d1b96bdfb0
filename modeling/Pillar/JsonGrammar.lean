/-
JSON texts: the bytes of a value with its tokens as they are written and the
whitespace between them.

A string is what stands between its quotes, escapes and all, and a number is its
token; what they decode to is a parameter. A number token may be any run of the
bytes numbers are written with, and `\u` is an escaped `u` and four plain bytes, so
every JSON text is one of these. `marks` says of each byte how many containers it
leaves open.
-/
import Pillar.Json

namespace Pillar.JsonGrammar

/-! ## Tokens -/

inductive Blank where
  | space
  | tab
  | lineFeed
  | carriageReturn

def Blank.byte : Blank → UInt8
  | space => 0x20
  | tab => 0x09
  | lineFeed => 0x0A
  | carriageReturn => 0x0D

def isDigit (b : UInt8) : Bool := 0x30 ≤ b && b ≤ 0x39

/-- A digit, a sign, a point or the letter of an exponent. -/
def isNumberByte (b : UInt8) : Bool := isDigit b || b == 0x2D || b == 0x2B || b == 0x2E || b == 0x65 || b == 0x45

structure NumberToken where
  first : UInt8
  rest : List UInt8
  first_ok : isDigit first ∨ first = 0x2D
  rest_ok : ∀ b ∈ rest, isNumberByte b

def NumberToken.bytes (token : NumberToken) : List UInt8 := token.first :: token.rest

/-- A byte of a string that stands for itself, or one behind a backslash. -/
inductive Piece where
  | plain (b : UInt8) (h : b ≠ 0x22 ∧ b ≠ 0x5C)
  | escaped (b : UInt8)

def Piece.bytes : Piece → List UInt8
  | plain b _ => [b]
  | escaped b => [0x5C, b]

def quoted (pieces : List Piece) : List UInt8 := 0x22 :: (pieces.flatMap Piece.bytes ++ [0x22])

/-! ## Texts -/

mutual
/-- A value as it is written, from its first byte to its last. -/
inductive Doc where
  | null
  | bool (b : Bool)
  | number (token : NumberToken)
  | string (pieces : List Piece)
  | array (blank : List Blank) (items : Items)
  | object (blank : List Blank) (members : Members)

inductive Items where
  | nil
  | cons (before : List Blank) (item : Doc) (after : List Blank) (rest : Items)

inductive Members where
  | nil
  | cons (before : List Blank) (key : List Piece) (afterKey : List Blank) (beforeValue : List Blank) (value : Doc)
      (after : List Blank) (rest : Members)
end

structure Text where
  before : List Blank
  doc : Doc
  after : List Blank

/-- Bytes that leave `depth` containers open. -/
def marked (depth : Nat) (bytes : List UInt8) : List (UInt8 × Nat) := bytes.map (·, depth)

def blanks (blank : List Blank) : List UInt8 := blank.map Blank.byte

def nullBytes : List UInt8 := [0x6E, 0x75, 0x6C, 0x6C]

def boolBytes : Bool → List UInt8
  | true => [0x74, 0x72, 0x75, 0x65]
  | false => [0x66, 0x61, 0x6C, 0x73, 0x65]

mutual
/-- The bytes of a value inside `depth` containers, each with how many are open after it. -/
def Doc.marks (depth : Nat) : Doc → List (UInt8 × Nat)
  | .null => marked depth nullBytes
  | .bool b => marked depth (boolBytes b)
  | .number token => marked depth token.bytes
  | .string pieces => marked depth (quoted pieces)
  | .array blank items =>
    marked (depth + 1) (0x5B :: blanks blank) ++ (items.marks (depth + 1) [] ++ marked depth [0x5D])
  | .object blank members =>
    marked (depth + 1) (0x7B :: blanks blank) ++ (members.marks (depth + 1) [] ++ marked depth [0x7D])

/-- Every item but the first has a comma before it (`lead`). -/
def Items.marks (depth : Nat) (lead : List UInt8) : Items → List (UInt8 × Nat)
  | .nil => []
  | .cons before item after rest =>
    marked depth (lead ++ blanks before) ++
      (item.marks depth ++ (marked depth (blanks after) ++ rest.marks depth [0x2C]))

def Members.marks (depth : Nat) (lead : List UInt8) : Members → List (UInt8 × Nat)
  | .nil => []
  | .cons before key afterKey beforeValue value after rest =>
    marked depth (lead ++ blanks before) ++ (marked depth (quoted key) ++
      (marked depth (blanks afterKey ++ 0x3A :: blanks beforeValue) ++
        (value.marks depth ++ (marked depth (blanks after) ++ rest.marks depth [0x2C]))))
end

def Text.marks (text : Text) : List (UInt8 × Nat) :=
  marked 0 (blanks text.before) ++ (text.doc.marks 0 ++ marked 0 (blanks text.after))

def Text.bytes (text : Text) : List UInt8 := text.marks.map Prod.fst

/-! ## Values -/

section

variable (string : List Piece → String) (number : NumberToken → JsonNumber)

def Members.keys : Members → List String
  | .nil => []
  | .cons _ key _ _ _ _ rest => string key :: rest.keys

mutual
def Doc.value : Doc → Json
  | .null => .null
  | .bool b => .bool b
  | .number token => .number (number token)
  | .string pieces => .string (string pieces)
  | .array _ items => .array items.values
  | .object _ members => .object (members.entries [])

def Items.values : Items → List Json
  | .nil => []
  | .cons _ item _ rest => item.value :: rest.values

/-- The members go into a map one after the other. -/
def Members.entries (entries : List (String × Json)) : Members → List (String × Json)
  | .nil => entries
  | .cons _ key _ _ value _ rest => rest.entries (Json.insertEntry (string key) value.value entries)
end

mutual
/-- No object has two members of one key. -/
def Doc.Distinct : Doc → Prop
  | .null | .bool _ | .number _ | .string _ => True
  | .array _ items => items.Distinct
  | .object _ members => (members.keys string).Nodup ∧ members.Distinct

def Items.Distinct : Items → Prop
  | .nil => True
  | .cons _ item _ rest => item.Distinct ∧ rest.Distinct

def Members.Distinct : Members → Prop
  | .nil => True
  | .cons _ _ _ _ value _ rest => value.Distinct ∧ rest.Distinct
end

end

end Pillar.JsonGrammar
