/-
JSON text without blanks can be read in one way only: of two values whose texts
are followed by anything that is no part of a number, equal texts mean equal
values and equal rests.

A string's text marks its own end, and so do the brackets of a container. A
number's does not, so it is what follows a value that ends it: a comma, a
closing bracket, or nothing. How strings are quoted and numbers written is left
open.
-/
import Mathlib

namespace Pillar.JsonText

/-! ## Codes -/

/-- Symbols whose codes are read back one at a time, whatever follows. -/
structure Code {α β : Type} (code : α → List β) where
  read : List β → Option (α × List β)
  read_append : ∀ a rest, read (code a ++ rest) = .some (a, rest)

/-- Coded symbols, up to where there is nothing to read. -/
theorem Code.flatMap_inj {α β : Type} {code : α → List β} (c : Code code) : ∀ {as bs : List α} {x y : List β},
    c.read x = .none → c.read y = .none → as.flatMap code ++ x = bs.flatMap code ++ y → as = bs ∧ x = y
  | [], [], _, _, _, _, h => ⟨rfl, h⟩
  | [], b :: bs, x, y, hx, _, h => by
    rw [List.flatMap_nil, List.nil_append, List.flatMap_cons, List.append_assoc] at h
    rw [h, c.read_append] at hx
    cases hx
  | a :: as, [], x, y, _, hy, h => by
    rw [List.flatMap_nil, List.nil_append, List.flatMap_cons, List.append_assoc] at h
    rw [← h, c.read_append] at hy
    cases hy
  | a :: as, b :: bs, x, y, hx, hy, h => by
    rw [List.flatMap_cons, List.flatMap_cons, List.append_assoc, List.append_assoc] at h
    have hread := congrArg c.read h
    rw [c.read_append, c.read_append, Option.some.injEq, Prod.mk.injEq] at hread
    obtain ⟨rfl, hrest⟩ := hread
    obtain ⟨rfl, hxy⟩ := c.flatMap_inj hx hy hrest
    exact ⟨rfl, hxy⟩

/-- A JSON value, its numbers as they are written and its members in the order
they are written in. -/
inductive Tree where
  | null
  | bool (b : Bool)
  | number (token : List Char)
  | string (text : String)
  | array (values : List Tree)
  | object (members : List (String × Tree))

/-- Induction with a hypothesis for each value a container holds. -/
theorem Tree.inductionOn {P : Tree → Prop} (tree : Tree) (null : P .null) (bool : ∀ b, P (.bool b))
    (number : ∀ token, P (.number token)) (string : ∀ text, P (.string text))
    (array : ∀ values, (∀ v ∈ values, P v) → P (.array values))
    (object : ∀ members, (∀ m ∈ members, P m.2) → P (.object members)) : P tree :=
  @Tree.rec P (fun values => ∀ v ∈ values, P v) (fun members => ∀ m ∈ members, P m.2) (fun m => P m.2)
    null bool number string array object (by simp) (fun _ _ hv hvs => List.forall_mem_cons.mpr ⟨hv, hvs⟩)
    (by simp) (fun _ _ hm hms => List.forall_mem_cons.mpr ⟨hm, hms⟩) (fun _ _ hv => hv) tree

/-! ## Writing -/

/-- Texts with a comma between each two. -/
def joined : List (List Char) → List Char
  | [] => []
  | text :: rest => text ++ rest.flatMap (',' :: ·)

section

variable (quote : String → List Char)

mutual

def Tree.print : Tree → List Char
  | .null => ['n', 'u', 'l', 'l']
  | .bool true => ['t', 'r', 'u', 'e']
  | .bool false => ['f', 'a', 'l', 's', 'e']
  | .number token => token
  | .string text => quote text
  | .array values => '[' :: joined (printValues values) ++ [']']
  | .object members => '{' :: joined (printMembers members) ++ ['}']

def printValues : List Tree → List (List Char)
  | [] => []
  | value :: values => value.print :: printValues values

def printMembers : List (String × Tree) → List (List Char)
  | [] => []
  | (key, value) :: members => (quote key ++ ':' :: value.print) :: printMembers members

end

/-- The text of one member. -/
def printMember (member : String × Tree) : List Char := quote member.1 ++ ':' :: member.2.print quote

theorem printValues_eq_map (values : List Tree) : printValues quote values = values.map (·.print quote) := by
  induction values with
  | nil => rfl
  | cons value values ih => rw [printValues, ih, List.map_cons]

theorem printMembers_eq_map (members : List (String × Tree)) :
    printMembers quote members = members.map (printMember quote) := by
  induction members with
  | nil => rfl
  | cons member members ih =>
    obtain ⟨key, value⟩ := member
    rw [printMembers, ih, List.map_cons]
    rfl

end

/-! ## What a value's text begins with -/

def numberChar (c : Char) : Bool := c.isDigit || c = '-' || c = '+' || c = '.' || c = 'e' || c = 'E'

/-- What the text of a number has to be for this: number characters, the first
a digit or a minus. JSON's grammar asks for more. -/
structure NumberToken (token : List Char) : Prop where
  first : ∃ c rest, token = c :: rest ∧ (c.isDigit = true ∨ c = '-')
  chars : ∀ c ∈ token, numberChar c = true

/-- Strings that mark their own end. -/
structure Quoting (quote : String → List Char) : Prop where
  opens : ∀ s, ∃ rest, quote s = '"' :: rest
  closes : ∀ s t x y, quote s ++ x = quote t ++ y → s = t ∧ x = y

/-- Quotes around escaped characters, none of whose codes begins with a quote. -/
theorem quoting_of_code {escape : Char → List Char} (c : Code escape) (hstop : ∀ rest, c.read ('"' :: rest) = .none) :
    Quoting fun s => '"' :: s.toList.flatMap escape ++ ['"'] where
  opens := fun s => ⟨_, rfl⟩
  closes := by
    intro s t x y h
    simp only [List.cons_append, List.append_assoc, List.cons.injEq, true_and] at h
    obtain ⟨hst, hxy⟩ := c.flatMap_inj (hstop _) (hstop _) h
    exact ⟨String.toList_inj.mp hst, (List.cons.inj hxy).2⟩

/-- Every number in it is written as one. -/
inductive Tree.Tokens : Tree → Prop
  | null : Tokens .null
  | bool (b : Bool) : Tokens (.bool b)
  | number {token : List Char} (h : NumberToken token) : Tokens (.number token)
  | string (text : String) : Tokens (.string text)
  | array {values : List Tree} (h : ∀ v ∈ values, v.Tokens) : Tokens (.array values)
  | object {members : List (String × Tree)} (h : ∀ m ∈ members, m.2.Tokens) : Tokens (.object members)

inductive Kind where
  | null | true | false | number | string | array | object | none
  deriving DecidableEq

/-- What a value is that begins with `c`. -/
def kindOf (c : Char) : Kind :=
  if c = 'n' then .null else if c = 't' then .true else if c = 'f' then .false else if c = '"' then .string
  else if c = '[' then .array else if c = '{' then .object
  else if c.isDigit || c = '-' then .number else .none

def Tree.kind : Tree → Kind
  | .null => .null
  | .bool true => .true
  | .bool false => .false
  | .number _ => .number
  | .string _ => .string
  | .array _ => .array
  | .object _ => .object

variable {quote : String → List Char}

theorem kindOf_digit {c : Char} (h : c.isDigit = true ∨ c = '-') : kindOf c = .number := by
  rcases h with hdigit | rfl
  · have hne : ∀ d : Char, d.isDigit = false → c ≠ d := by
      intro d hd heq
      rw [heq, hd] at hdigit
      cases hdigit
    rw [kindOf, if_neg (hne _ (by decide)), if_neg (hne _ (by decide)), if_neg (hne _ (by decide)),
      if_neg (hne _ (by decide)), if_neg (hne _ (by decide)), if_neg (hne _ (by decide)), hdigit]
    rfl
  · rfl

/-- The first character tells what a value is. -/
theorem print_first (hq : Quoting quote) {a : Tree} (ha : a.Tokens) :
    ∃ c rest, a.print quote = c :: rest ∧ kindOf c = a.kind := by
  cases ha with
  | null => exact ⟨_, _, rfl, rfl⟩
  | bool b => cases b <;> exact ⟨_, _, rfl, rfl⟩
  | number h =>
    obtain ⟨c, rest, heq, hc⟩ := h.first
    exact ⟨c, rest, heq, kindOf_digit hc⟩
  | string text =>
    obtain ⟨rest, heq⟩ := hq.opens text
    exact ⟨_, _, heq, rfl⟩
  | array h => exact ⟨_, _, rfl, rfl⟩
  | object h => exact ⟨_, _, rfl, rfl⟩

theorem Tree.kind_ne_none (a : Tree) : a.kind ≠ .none := by
  cases a with
  | bool b => cases b <;> decide
  | _ => simp [Tree.kind]

/-! ## One way to read it -/

/-- What follows a value does not go on with a number. -/
def Ended : List Char → Prop
  | [] => True
  | c :: _ => numberChar c = false

theorem append_inj_of_ended : ∀ {s t x y : List Char}, (∀ c ∈ s, numberChar c = true) →
    (∀ c ∈ t, numberChar c = true) → Ended x → Ended y → s ++ x = t ++ y → s = t ∧ x = y
  | [], [], _, _, _, _, _, _, h => ⟨rfl, h⟩
  | [], c :: t, x, y, _, ht, hx, _, h => by
    rw [List.nil_append] at h
    rw [h] at hx
    have := ht c List.mem_cons_self
    exact absurd (this.symm.trans hx) (by decide)
  | c :: s, [], x, y, hs, _, _, hy, h => by
    rw [List.nil_append] at h
    rw [← h] at hy
    have := hs c List.mem_cons_self
    exact absurd (this.symm.trans hy) (by decide)
  | c :: s, d :: t, x, y, hs, ht, hx, hy, h => by
    simp only [List.cons_append, List.cons.injEq] at h
    obtain ⟨rfl, h⟩ := h
    obtain ⟨hst, hxy⟩ := append_inj_of_ended (fun a ha => hs a (List.mem_cons_of_mem _ ha))
      (fun a ha => ht a (List.mem_cons_of_mem _ ha)) hx hy h
    exact ⟨by rw [hst], hxy⟩

section Lists

variable {α : Type} {f : α → List Char} {close : Char}

/-- The texts of `as` and `bs` can be told apart, whatever follows them. -/
def Apart (f : α → List Char) (as bs : List α) : Prop :=
  ∀ a ∈ as, ∀ b ∈ bs, ∀ x y, Ended x → Ended y → f a ++ x = f b ++ y → a = b ∧ x = y

theorem ended_rest (hclose : numberChar close = false) (items : List α) (x : List Char) :
    Ended ((items.map f).flatMap (',' :: ·) ++ close :: x) := by
  cases items with
  | nil => exact hclose
  | cons a items => exact (by decide : numberChar ',' = false)

/-- Items after the first, each behind its comma. -/
theorem rest_inj (hclose : numberChar close = false) (hcomma : close ≠ ',') :
    ∀ {as bs : List α} {x y : List Char}, Apart f as bs →
      (as.map f).flatMap (',' :: ·) ++ close :: x = (bs.map f).flatMap (',' :: ·) ++ close :: y → as = bs ∧ x = y
  | [], [], x, y, _, h => ⟨rfl, (List.cons.inj h).2⟩
  | [], b :: bs, x, y, _, h => absurd (List.cons.inj h).1 hcomma
  | a :: as, [], x, y, _, h => absurd (List.cons.inj h).1.symm hcomma
  | a :: as, b :: bs, x, y, happart, h => by
    simp only [List.map_cons, List.flatMap_cons, List.cons_append, List.append_assoc, List.cons.injEq, true_and] at h
    obtain ⟨rfl, hrest⟩ := happart a List.mem_cons_self b List.mem_cons_self _ _ (ended_rest hclose as x)
      (ended_rest hclose bs y) h
    obtain ⟨rfl, hxy⟩ := rest_inj hclose hcomma
      (fun c hc d hd => happart c (List.mem_cons_of_mem _ hc) d (List.mem_cons_of_mem _ hd)) hrest
    exact ⟨rfl, hxy⟩

/-- The items of a container, up to its closing bracket. -/
theorem joined_inj (hclose : numberChar close = false) (hcomma : close ≠ ',') {as bs : List α} {x y : List Char}
    (happart : Apart f as bs) (has : ∀ a ∈ as, (f a).head? ≠ .some close ∧ f a ≠ [])
    (hbs : ∀ b ∈ bs, (f b).head? ≠ .some close ∧ f b ≠ [])
    (h : joined (as.map f) ++ close :: x = joined (bs.map f) ++ close :: y) : as = bs ∧ x = y := by
  have hopen : ∀ c, (f c).head? ≠ .some close ∧ f c ≠ [] → ∀ rest z, close :: z ≠ f c ++ rest := by
    intro c hc rest z heq
    obtain ⟨d, tail, hd⟩ := List.exists_cons_of_ne_nil hc.2
    rw [hd, List.cons_append] at heq
    rw [hd, ← (List.cons.inj heq).1] at hc
    exact hc.1 rfl
  cases as with
  | nil =>
    cases bs with
    | nil => exact ⟨rfl, (List.cons.inj h).2⟩
    | cons b bs =>
      simp only [List.map_nil, joined, List.nil_append, List.map_cons, List.append_assoc] at h
      exact absurd h (hopen b (hbs b List.mem_cons_self) _ _)
  | cons a as =>
    cases bs with
    | nil =>
      simp only [List.map_nil, joined, List.nil_append, List.map_cons, List.append_assoc] at h
      exact absurd h.symm (hopen a (has a List.mem_cons_self) _ _)
    | cons b bs =>
      simp only [List.map_cons, joined, List.append_assoc] at h
      obtain ⟨rfl, hrest⟩ := happart a List.mem_cons_self b List.mem_cons_self _ _ (ended_rest hclose as x)
        (ended_rest hclose bs y) h
      obtain ⟨rfl, hxy⟩ := rest_inj hclose hcomma
        (fun c hc d hd => happart c (List.mem_cons_of_mem _ hc) d (List.mem_cons_of_mem _ hd)) hrest
      exact ⟨rfl, hxy⟩

end Lists

/-- No value's text begins like the end of a container. -/
theorem print_opens (hq : Quoting quote) {a : Tree} (ha : a.Tokens) {close : Char} (hclose : kindOf close = .none) :
    (a.print quote).head? ≠ .some close ∧ a.print quote ≠ [] := by
  obtain ⟨c, rest, hprint, hkind⟩ := print_first hq ha
  rw [hprint]
  refine ⟨fun heq => ?_, List.cons_ne_nil _ _⟩
  rw [List.head?_cons, Option.some.injEq] at heq
  rw [heq, hclose] at hkind
  exact a.kind_ne_none hkind.symm

/-- Equal texts are of values of one kind. -/
theorem kind_eq (hq : Quoting quote) {a b : Tree} (ha : a.Tokens) (hb : b.Tokens) {x y : List Char}
    (h : a.print quote ++ x = b.print quote ++ y) : a.kind = b.kind := by
  obtain ⟨c, rest, hprint, hkind⟩ := print_first hq ha
  obtain ⟨c', rest', hprint', hkind'⟩ := print_first hq hb
  rw [hprint, hprint', List.cons_append, List.cons_append, List.cons.injEq] at h
  rw [← hkind, ← hkind', h.1]

theorem printMember_apart (hq : Quoting quote) {members members' : List (String × Tree)}
    (ih : ∀ m ∈ members, ∀ m' ∈ members', ∀ x y, Ended x → Ended y →
      m.2.print quote ++ x = m'.2.print quote ++ y → m.2 = m'.2 ∧ x = y) :
    Apart (printMember quote) members members' := by
  intro m hm m' hm' x y hx hy h
  simp only [printMember, List.append_assoc, List.cons_append] at h
  obtain ⟨hkey, hrest⟩ := hq.closes _ _ _ _ h
  obtain ⟨hvalue, hxy⟩ := ih m hm m' hm' x y hx hy (List.cons.inj hrest).2
  exact ⟨Prod.ext hkey hvalue, hxy⟩

/-- **A text is read in one way.** -/
theorem print_inj (hq : Quoting quote) {a b : Tree} (ha : a.Tokens) (hb : b.Tokens) {x y : List Char} (hx : Ended x)
    (hy : Ended y) (h : a.print quote ++ x = b.print quote ++ y) : a = b ∧ x = y := by
  induction a using Tree.inductionOn generalizing b x y with
  | null =>
    have hkind := kind_eq hq ha hb h
    cases b with
    | null => exact ⟨rfl, List.append_cancel_left h⟩
    | bool b => cases b <;> cases hkind
    | number _ | string _ | array _ | object _ => cases hkind
  | bool v =>
    have hkind := kind_eq hq ha hb h
    cases b with
    | bool w =>
      obtain rfl : v = w := by cases v <;> cases w <;> first | rfl | cases hkind
      exact ⟨rfl, List.append_cancel_left h⟩
    | null | number _ | string _ | array _ | object _ => cases v <;> cases hkind
  | number token =>
    have hkind := kind_eq hq ha hb h
    cases b with
    | number token' =>
      cases ha with | number htoken =>
      cases hb with | number htoken' =>
      obtain ⟨rfl, hxy⟩ := append_inj_of_ended htoken.chars htoken'.chars hx hy h
      exact ⟨rfl, hxy⟩
    | bool w => cases w <;> cases hkind
    | null | string _ | array _ | object _ => cases hkind
  | string text =>
    have hkind := kind_eq hq ha hb h
    cases b with
    | string text' =>
      obtain ⟨rfl, hxy⟩ := hq.closes text text' x y h
      exact ⟨rfl, hxy⟩
    | bool w => cases w <;> cases hkind
    | null | number _ | array _ | object _ => cases hkind
  | array values ih =>
    have hkind := kind_eq hq ha hb h
    cases b with
    | array values' =>
      cases ha with | array hvalues =>
      cases hb with | array hvalues' =>
      simp only [Tree.print, printValues_eq_map, List.cons_append, List.append_assoc, List.cons.injEq,
        true_and] at h
      obtain ⟨rfl, hxy⟩ := joined_inj (by decide) (by decide)
        (fun v hv w hw x y hx hy hvw => ih v hv (hvalues v hv) (hvalues' w hw) hx hy hvw)
        (fun v hv => print_opens hq (hvalues v hv) (by decide))
        (fun w hw => print_opens hq (hvalues' w hw) (by decide)) h
      exact ⟨rfl, hxy⟩
    | bool w => cases w <;> cases hkind
    | null | number _ | string _ | object _ => cases hkind
  | object members ih =>
    have hkind := kind_eq hq ha hb h
    cases b with
    | object members' =>
      cases ha with | object hmembers =>
      cases hb with | object hmembers' =>
      have hquoted : ∀ m : String × Tree, (printMember quote m).head? ≠ .some '}' ∧ printMember quote m ≠ [] := by
        intro m
        obtain ⟨rest, hrest⟩ := hq.opens m.1
        rw [printMember, hrest]
        exact ⟨by simp, by simp⟩
      simp only [Tree.print, printMembers_eq_map, List.cons_append, List.append_assoc, List.cons.injEq,
        true_and] at h
      obtain ⟨rfl, hxy⟩ := joined_inj (by decide) (by decide)
        (printMember_apart hq fun m hm m' hm' x y hx hy hmm =>
          ih m hm (hmembers m hm) (hmembers' m' hm') hx hy hmm)
        (fun m _ => hquoted m) (fun m _ => hquoted m) h
      exact ⟨rfl, hxy⟩
    | bool w => cases w <;> cases hkind
    | null | number _ | string _ | array _ => cases hkind

end Pillar.JsonText
