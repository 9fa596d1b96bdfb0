/-
What a Canton sequencer's committee signs (`pillar-runtime`,
`canton_sequencer.rs`): the request and the response without its signatures,
written as JSON with the members of every object in one order.

Members are ordered by their keys alone, so they are put in order here with
their values already written. The rendering of a number is a parameter.
-/
import Pillar.Decimal
import Pillar.Hex
import Pillar.Json
import Pillar.JsonText
import Pillar.Text

namespace Pillar.Canton

open JsonText
open Decimal (ofDigitChars_toDigits)

/-! ## Keys -/

/-- A key that is an index of a JavaScript array. -/
def arrayIndex (key : String) : Option Nat :=
  if key.isEmpty || (1 < key.utf8ByteSize && key.toList.head? = .some '0') then .none
  else if !key.toList.all Char.isDigit then .none
  else
    match Text.parse 32 key with
    | .ok index => if index = 2 ^ 32 - 1 then .none else .some index
    | .error _ => .none

/-- The UTF-16 units of a character. -/
def utf16Units (c : Char) : List Nat :=
  if c.toNat < 0x10000 then [c.toNat]
  else [0xd800 + (c.toNat - 0x10000) / 0x400, 0xdc00 + (c.toNat - 0x10000) % 0x400]

/-- `str::encode_utf16`. -/
def encodeUtf16 (s : String) : List Nat := s.toList.flatMap utf16Units

/-- Array indices by their number, before all other keys by their UTF-16 units. -/
def compareKeys (left right : String) : Ordering :=
  match arrayIndex left, arrayIndex right with
  | .some left, .some right => compare left right
  | .some _, .none => .lt
  | .none, .some _ => .gt
  | .none, .none => compare (encodeUtf16 left) (encodeUtf16 right)

/-- `entries.sort_by(..)`. -/
def sortEntries {α : Type} (entries : List (String × α)) : List (String × α) :=
  entries.mergeSort fun a b => (compareKeys a.1 b.1).isLE

/-! ## Writing -/

def escape (c : Char) : List Char :=
  match c with
  | '"' => ['\\', '"']
  | '\\' => ['\\', '\\']
  | '\x08' => ['\\', 'b']
  | '\x0c' => ['\\', 'f']
  | '\n' => ['\\', 'n']
  | '\r' => ['\\', 'r']
  | '\t' => ['\\', 't']
  | c =>
    if c.toNat ≤ 0x1f then ['\\', 'u', '0', '0', Hex.digit (c.toNat / 16), Hex.digit (c.toNat % 16)]
    else [c]

def writeJsonString (text : String) : List Char := '"' :: text.toList.flatMap escape ++ ['"']

/-- The members of an object whose values are written. -/
def writeObject (entries : List (String × List Char)) : List Char :=
  '{' :: joined ((sortEntries entries).map fun (key, text) => writeJsonString key ++ ':' :: text) ++ ['}']

section

variable (jsNumber : JsonNumber → String)

mutual

def writeJson : Json → List Char
  | .object entries => writeObject (writeEntries entries)
  | .array items => '[' :: joined (writeItems items) ++ [']']
  | .number n => (jsNumber n).toList
  | .string text => writeJsonString text
  | .null => ['n', 'u', 'l', 'l']
  | .bool true => ['t', 'r', 'u', 'e']
  | .bool false => ['f', 'a', 'l', 's', 'e']

def writeItems : List Json → List (List Char)
  | [] => []
  | item :: items => writeJson item :: writeItems items

def writeEntries : List (String × Json) → List (String × List Char)
  | [] => []
  | (key, item) :: entries => (key, writeJson item) :: writeEntries entries

end

/-- The response as it is signed; one that is no object counts as empty. -/
def writeResponse : Json → List Char
  | .object entries => writeObject (writeEntries jsNumber (entries.filter (·.1 ≠ "signatures")))
  | _ => ['{', '}']

def requestOpen : List Char := "\x7b\"request\":".toList
def responseOpen : List Char := ",\"response\":".toList
def typeOpen : List Char := ",\"type\":".toList

def committeeText (signatureType : String) (request response : Json) : List Char :=
  requestOpen ++ writeJson jsNumber request ++ responseOpen ++ writeResponse jsNumber response ++
    typeOpen ++ writeJsonString signatureType ++ ['}']

/-- `write_committee_payload`: the text's bytes. -/
def writeCommitteePayload (signatureType : String) (request response : Json) : ByteArray :=
  (String.ofList (committeeText jsNumber signatureType request response)).toUTF8

end

/-! ## Keys are in one order -/

theorem utf8Size_of_isDigit {c : Char} (h : c.isDigit = true) : c.utf8Size = 1 := by
  have hrange : 48 ≤ c.toNat ∧ c.toNat ≤ 57 := Char.isDigit_iff_toNat.mp h
  refine Char.utf8Size_eq_one_iff.mpr ?_
  rw [UInt32.le_iff_toNat_le]
  exact hrange.2.trans (by decide)

/-- An index is told by its key, and the key by its index. -/
theorem arrayIndex_repr {key : String} {n : Nat} (h : arrayIndex key = .some n) : key = n.repr := by
  unfold arrayIndex at h
  split at h
  next => cases h
  next hshape =>
    split at h
    next => cases h
    next hall =>
      simp only [Bool.or_eq_true, Bool.and_eq_true, decide_eq_true_eq, not_or, not_and] at hshape
      simp only [Bool.not_eq_true', Bool.not_eq_false, List.all_eq_true] at hall
      have hne : key.toList ≠ [] := fun heq => hshape.1 (by simpa using heq)
      have hsize : key.utf8ByteSize = key.toList.length := by
        have := Hex.HexCrate.utf8ByteSize_ofList_ascii key.toList fun c hc => utf8Size_of_isDigit (hall c hc)
        rwa [String.ofList_toList] at this
      have hvalue : ∀ m, Text.parse 32 key = .ok m → m = Nat.ofDigitChars 10 key.toList 0 := by
        intro m hm
        unfold Text.parse Text.fromStrRadix at hm
        split at hm
        next => cases hm
        next => cases hm
        next rest hrest =>
          exact absurd (hall '+' (hrest ▸ List.mem_cons_self)) (by decide)
        next => exact ((Text.parseDigits_of_digits hall (by decide)).mp hm).1
      split at h
      next m hm =>
        split at h
        next => cases h
        next =>
          cases h
          have hdigits := ofDigitChars_toDigits hne hall fun hlt => hshape.2 (by omega)
          rw [← hvalue n hm] at hdigits
          rw [← String.toList_inj, Nat.toList_repr, hdigits]
      next => cases h

theorem arrayIndex_inj {l r : String} {n : Nat} (hl : arrayIndex l = .some n) (hr : arrayIndex r = .some n) : l = r :=
  (arrayIndex_repr hl).trans (arrayIndex_repr hr).symm

/-- The first character coded by UTF-16 units. -/
def readUnits : List Nat → Option (Char × List Nat)
  | [] => .none
  | u :: rest =>
    if 0xd800 ≤ u ∧ u < 0xdc00 then
      match rest with
      | [] => .none
      | v :: rest => .some (Char.ofNat ((u - 0xd800) * 0x400 + (v - 0xdc00) + 0x10000), rest)
    else .some (Char.ofNat u, rest)

theorem not_surrogate (c : Char) : c.toNat < 0xd800 ∨ (0xdfff < c.toNat ∧ c.toNat < 0x110000) := c.valid

def utf16Code : Code utf16Units where
  read := readUnits
  read_append := by
    intro c rest
    have hvalid := not_surrogate c
    unfold utf16Units
    split
    next hbasic =>
      unfold readUnits
      simp only [List.singleton_append]
      rw [if_neg (by omega), Char.ofNat_toNat]
    next hbeyond =>
      have hunit : 0xd800 ≤ 0xd800 + (c.toNat - 0x10000) / 0x400 ∧ 0xd800 + (c.toNat - 0x10000) / 0x400 < 0xdc00 := by
        omega
      have hback : (0xd800 + (c.toNat - 0x10000) / 0x400 - 0xd800) * 0x400 +
          (0xdc00 + (c.toNat - 0x10000) % 0x400 - 0xdc00) + 0x10000 = c.toNat := by
        omega
      unfold readUnits
      simp only [List.cons_append, List.nil_append]
      rw [if_pos hunit, hback, Char.ofNat_toNat]

theorem encodeUtf16_injective : Function.Injective encodeUtf16 := by
  intro l r h
  have hlr : l.toList.flatMap utf16Units ++ [] = r.toList.flatMap utf16Units ++ [] := by
    rw [List.append_nil, List.append_nil]
    exact h
  exact String.toList_inj.mp (utf16Code.flatMap_inj rfl rfl hlr).1

/-- What keys are compared by: an index, or the units behind a mark above all indices'. -/
def rank (key : String) : List Nat :=
  match arrayIndex key with
  | .some n => [0, n]
  | .none => 1 :: encodeUtf16 key

theorem rank_injective : Function.Injective rank := by
  intro l r h
  unfold rank at h
  split at h
  next n hl =>
    split at h
    next m hr =>
      simp only [List.cons.injEq, and_true, true_and] at h
      subst h
      exact arrayIndex_inj hl hr
    next => simp at h
  next =>
    split at h
    next => simp at h
    next =>
      simp only [List.cons.injEq, true_and] at h
      exact encodeUtf16_injective h

theorem compareKeys_eq (l r : String) : compareKeys l r = compare (rank l) (rank r) := by
  have hcons : ∀ (a b : Nat) (as bs : List Nat), compare (a :: as) (b :: bs) = (compare a b).then (compare as bs) :=
    fun a b as bs => List.compareLex_cons_cons
  have hnil : compare ([] : List Nat) [] = .eq := rfl
  have hself : ∀ n : Nat, compare n n = .eq := fun n => Std.ReflCmp.compare_self
  unfold compareKeys rank
  cases hl : arrayIndex l with
  | some n =>
    cases hr : arrayIndex r with
    | some m =>
      simp only [hcons, hself, hnil, Ordering.then]
      cases compare n m <;> rfl
    | none => rw [hcons]; rfl
  | none =>
    cases hr : arrayIndex r with
    | some m => rw [hcons]; rfl
    | none => simp only [hcons, hself, Ordering.then]

theorem compareKeys_trans {a b c : String} (hab : (compareKeys a b).isLE = true) (hbc : (compareKeys b c).isLE = true) :
    (compareKeys a c).isLE = true := by
  rw [compareKeys_eq] at *
  exact Std.TransCmp.isLE_trans hab hbc

theorem compareKeys_total (a b : String) : (compareKeys a b).isLE = true ∨ (compareKeys b a).isLE = true := by
  have hswap : compare (rank b) (rank a) = (compare (rank a) (rank b)).swap := Std.OrientedCmp.eq_swap
  rw [compareKeys_eq, compareKeys_eq, hswap]
  cases compare (rank a) (rank b) <;> simp

/-- Two keys in both orders are one key. -/
theorem compareKeys_antisymm {a b : String} (hab : (compareKeys a b).isLE = true)
    (hba : (compareKeys b a).isLE = true) : a = b := by
  rw [compareKeys_eq] at *
  exact rank_injective (Std.LawfulEqCmp.eq_of_compare (Std.OrientedCmp.isLE_antisymm hab hba))

section Sorted

variable {α : Type} {entries entries' : List (String × α)}

theorem sortEntries_perm (entries : List (String × α)) : (sortEntries entries).Perm entries := List.mergeSort_perm _ _

theorem sortEntries_pairwise (entries : List (String × α)) :
    (sortEntries entries).Pairwise fun a b => (compareKeys a.1 b.1).isLE = true := by
  have htrans : ∀ a b c : String × α, (compareKeys a.1 b.1).isLE = true → (compareKeys b.1 c.1).isLE = true →
      (compareKeys a.1 c.1).isLE = true := fun _ _ _ => compareKeys_trans
  have htotal : ∀ a b : String × α, ((compareKeys a.1 b.1).isLE || (compareKeys b.1 a.1).isLE) = true := by
    intro a b
    rw [Bool.or_eq_true]
    exact compareKeys_total a.1 b.1
  exact List.pairwise_mergeSort htrans htotal entries

/-- Entries of distinct keys have one order. -/
theorem sortEntries_eq (hkeys : (entries.map Prod.fst).Nodup) (h : entries.Perm entries') :
    sortEntries entries = sortEntries entries' := by
  refine List.Perm.eq_of_pairwise ?_ (sortEntries_pairwise _) (sortEntries_pairwise _)
    (((sortEntries_perm _).trans h).trans (sortEntries_perm _).symm)
  intro a b ha hb hab hba
  have ha' := (sortEntries_perm _).subset ha
  have hb' := h.symm.subset ((sortEntries_perm _).subset hb)
  exact List.inj_on_of_nodup_map hkeys ha' hb' (compareKeys_antisymm hab hba)

theorem mem_iff_lookup (hkeys : (entries.map Prod.fst).Nodup) {key : String} {value : α} :
    (key, value) ∈ entries ↔ entries.lookup key = .some value := by
  induction entries with
  | nil => simp
  | cons entry entries ih =>
    obtain ⟨k, v⟩ := entry
    rw [List.map_cons, List.nodup_cons] at hkeys
    rw [List.lookup_cons, List.mem_cons, Prod.mk.injEq]
    by_cases hk : key = k
    · subst hk
      have hno : (key, value) ∉ entries := fun hmem => hkeys.1 (List.mem_map.mpr ⟨_, hmem, rfl⟩)
      simp [hno, eq_comm]
    · have hbeq : (key == k) = false := beq_false_of_ne hk
      simp [hk, hbeq, ih hkeys.2]

end Sorted

/-! ## Strings mark their end -/

def unescapeHex (hi lo : Char) : Option Char := do
  return Char.ofNat (16 * (← Text.hexDigit? hi) + (← Text.hexDigit? lo))

/-- The first character of an escaped text. -/
def unescape : List Char → Option (Char × List Char)
  | '\\' :: '"' :: rest => .some ('"', rest)
  | '\\' :: '\\' :: rest => .some ('\\', rest)
  | '\\' :: 'b' :: rest => .some ('\x08', rest)
  | '\\' :: 'f' :: rest => .some ('\x0c', rest)
  | '\\' :: 'n' :: rest => .some ('\n', rest)
  | '\\' :: 'r' :: rest => .some ('\r', rest)
  | '\\' :: 't' :: rest => .some ('\t', rest)
  | '\\' :: 'u' :: '0' :: '0' :: hi :: lo :: rest => (unescapeHex hi lo).map (·, rest)
  | '\\' :: _ => .none
  | '"' :: _ => .none
  | c :: rest => .some (c, rest)
  | [] => .none

theorem unescapeHex_digit : ∀ n ≤ 0x1f, unescapeHex (Hex.digit (n / 16)) (Hex.digit (n % 16)) =
    .some (Char.ofNat n) := by
  decide +kernel

def escapeCode : Code escape where
  read := unescape
  read_append := by
    intro c rest
    unfold escape
    split
    next => rfl
    next => rfl
    next => rfl
    next => rfl
    next => rfl
    next => rfl
    next => rfl
    next hquote hback _ _ _ _ _ =>
      split
      next hcontrol =>
        simp only [List.cons_append, List.nil_append, unescape]
        rw [unescapeHex_digit c.toNat hcontrol, Char.ofNat_toNat]
        rfl
      next =>
        rw [List.singleton_append]
        unfold unescape
        split <;> simp_all

theorem quoting_writeJsonString : Quoting writeJsonString := quoting_of_code escapeCode fun _ => rfl

/-! ## The text is that of a tree -/

section

variable (jsNumber : JsonNumber → String)

mutual

/-- A value with its numbers written and its members in order. -/
def tree : Json → Tree
  | .object entries => .object (sortEntries (treeEntries entries))
  | .array items => .array (treeItems items)
  | .number n => .number (jsNumber n).toList
  | .string text => .string text
  | .null => .null
  | .bool b => .bool b

def treeItems : List Json → List Tree
  | [] => []
  | item :: items => tree item :: treeItems items

def treeEntries : List (String × Json) → List (String × Tree)
  | [] => []
  | (key, item) :: entries => (key, tree item) :: treeEntries entries

end

theorem treeItems_eq_map (items : List Json) : treeItems jsNumber items = items.map (tree jsNumber) := by
  induction items with
  | nil => rfl
  | cons item items ih => rw [treeItems, ih, List.map_cons]

theorem writeItems_eq_map (items : List Json) : writeItems jsNumber items = items.map (writeJson jsNumber) := by
  induction items with
  | nil => rfl
  | cons item items ih => rw [writeItems, ih, List.map_cons]

theorem treeEntries_eq_map (entries : List (String × Json)) :
    treeEntries jsNumber entries = entries.map fun e => (e.1, tree jsNumber e.2) := by
  induction entries with
  | nil => rfl
  | cons entry entries ih => rw [treeEntries, ih, List.map_cons]

theorem writeEntries_eq_map (entries : List (String × Json)) :
    writeEntries jsNumber entries = entries.map fun e => (e.1, writeJson jsNumber e.2) := by
  induction entries with
  | nil => rfl
  | cons entry entries ih => rw [writeEntries, ih, List.map_cons]

end

/-- Putting members in order looks at their keys alone. -/
theorem sortEntries_map {α β : Type} (g : α → β) (entries : List (String × α)) :
    sortEntries (entries.map fun e => (e.1, g e.2)) = (sortEntries entries).map fun e => (e.1, g e.2) := by
  unfold sortEntries
  rw [List.map_mergeSort]
  intro a _ b _
  rfl

variable {jsNumber : JsonNumber → String}

theorem writeObject_print (members : List (String × Tree)) :
    writeObject (members.map fun m => (m.1, m.2.print writeJsonString)) =
      (Tree.object (sortEntries members)).print writeJsonString := by
  rw [writeObject, Tree.print, printMembers_eq_map, sortEntries_map fun m : Tree => m.print writeJsonString,
    List.map_map]
  rfl

/-- What is written is the tree's text. -/
theorem writeJson_eq (value : Json) : writeJson jsNumber value = (tree jsNumber value).print writeJsonString := by
  induction value using Json.inductionOn with
  | null => rfl
  | bool b => cases b <;> rfl
  | number n => rfl
  | string s => rfl
  | array items ih =>
    rw [writeJson, tree, Tree.print, printValues_eq_map, writeItems_eq_map, treeItems_eq_map, List.map_map]
    rw [List.map_congr_left ih]
    rfl
  | object entries ih =>
    rw [writeJson, tree, ← writeObject_print, writeEntries_eq_map, treeEntries_eq_map, List.map_map]
    congr 1
    exact List.map_congr_left fun e he => by rw [ih e he]; rfl

theorem tree_tokens (htoken : ∀ n, NumberToken (jsNumber n).toList) (value : Json) : (tree jsNumber value).Tokens := by
  induction value using Json.inductionOn with
  | null => exact .null
  | bool b => exact .bool b
  | number n => exact .number (htoken n)
  | string s => exact .string s
  | array items ih =>
    rw [tree, treeItems_eq_map]
    exact .array (by simpa using ih)
  | object entries ih =>
    rw [tree, treeEntries_eq_map]
    refine .object fun m hm => ?_
    obtain ⟨e, he, rfl⟩ := List.mem_map.mp ((sortEntries_perm _).subset hm)
    exact ih e he

/-! ## Equal up to the order of members -/

variable (jsNumber) in
/-- The same value: member by member, and numbers as they are rendered. -/
inductive Same : Json → Json → Prop
  | null : Same .null .null
  | bool (b : Bool) : Same (.bool b) (.bool b)
  | number {n m : JsonNumber} (h : jsNumber n = jsNumber m) : Same (.number n) (.number m)
  | string (s : String) : Same (.string s) (.string s)
  | array {items items' : List Json} (length : items.length = items'.length)
      (h : ∀ (i : Nat) (v w : Json), items[i]? = .some v → items'[i]? = .some w → Same v w) :
      Same (.array items) (.array items')
  | object {entries entries' : List (String × Json)}
      (keys : ∀ key, entries.lookup key = .none ↔ entries'.lookup key = .none)
      (h : ∀ key v w, entries.lookup key = .some v → entries'.lookup key = .some w → Same v w) :
      Same (.object entries) (.object entries')

theorem nodup_keys_treeEntries {entries : List (String × Json)} (hkeys : (entries.map Prod.fst).Nodup) :
    ((treeEntries jsNumber entries).map Prod.fst).Nodup := by
  rw [treeEntries_eq_map, List.map_map]
  exact hkeys

theorem lookup_treeEntries (entries : List (String × Json)) (key : String) :
    (treeEntries jsNumber entries).lookup key = (entries.lookup key).map (tree jsNumber) := by
  induction entries with
  | nil => rfl
  | cons entry entries ih =>
    obtain ⟨k, v⟩ := entry
    rw [treeEntries, List.lookup_cons, List.lookup_cons, ih]
    cases key == k <;> rfl

/-- Members of distinct keys with the same values, in whatever order. -/
theorem perm_of_lookup {α : Type} {entries entries' : List (String × α)} (hkeys : (entries.map Prod.fst).Nodup)
    (hkeys' : (entries'.map Prod.fst).Nodup) (h : ∀ key, entries.lookup key = entries'.lookup key) :
    entries.Perm entries' := by
  refine (List.perm_ext_iff_of_nodup hkeys.of_map hkeys'.of_map).mpr fun e => ?_
  obtain ⟨key, value⟩ := e
  rw [mem_iff_lookup hkeys, mem_iff_lookup hkeys', h]

theorem lookup_of_perm {α : Type} {entries entries' : List (String × α)} (hkeys : (entries.map Prod.fst).Nodup)
    (h : entries.Perm entries') (key : String) : entries.lookup key = entries'.lookup key := by
  have hkeys' : (entries'.map Prod.fst).Nodup := (h.map Prod.fst).nodup_iff.mp hkeys
  refine Option.ext fun value => ?_
  rw [← mem_iff_lookup hkeys, ← mem_iff_lookup hkeys', h.mem_iff]

/-- Values that are the same have one tree. -/
theorem tree_eq_of_same {a b : Json} (h : Same jsNumber a b) (ha : a.Distinct) (hb : b.Distinct) :
    tree jsNumber a = tree jsNumber b := by
  induction h with
  | null | bool _ | string _ => rfl
  | number h => rw [tree, tree, h]
  | @array items items' hlength h ih =>
    cases ha with | array hitems =>
    cases hb with | array hitems' =>
    rw [tree, tree, treeItems_eq_map, treeItems_eq_map]
    congr 1
    refine List.ext_getElem? fun i => ?_
    rw [List.getElem?_map, List.getElem?_map]
    cases hv : items[i]? with
    | none =>
      have hnone : items'[i]? = .none := by
        rw [List.getElem?_eq_none_iff] at hv ⊢
        omega
      rw [hnone]
    | some v =>
      obtain ⟨w, hw⟩ : ∃ w, items'[i]? = .some w := by
        have hlt := (List.getElem?_eq_some_iff.mp hv).1
        exact ⟨_, List.getElem?_eq_getElem (by omega)⟩
      rw [hw]
      exact congrArg Option.some
        (ih i v w hv hw (hitems v (List.mem_of_getElem? hv)) (hitems' w (List.mem_of_getElem? hw)))
  | @object entries entries' hnone h ih =>
    cases ha with | object hkeys hentries =>
    cases hb with | object hkeys' hentries' =>
    rw [tree, tree]
    congr 1
    refine sortEntries_eq (nodup_keys_treeEntries hkeys)
      (perm_of_lookup (nodup_keys_treeEntries hkeys) (nodup_keys_treeEntries hkeys') fun key => ?_)
    rw [lookup_treeEntries, lookup_treeEntries]
    cases hv : entries.lookup key with
    | none => rw [(hnone key).mp hv]
    | some v =>
      cases hw : entries'.lookup key with
      | none =>
        rw [(hnone key).mpr hw] at hv
        cases hv
      | some w =>
        exact congrArg Option.some (ih key v w hv hw (hentries _ ((mem_iff_lookup hkeys).mpr hv))
          (hentries' _ ((mem_iff_lookup hkeys').mpr hw)))

/-- Values of one tree are the same. -/
theorem same_of_tree_eq {a b : Json} (ha : a.Distinct) (hb : b.Distinct) (h : tree jsNumber a = tree jsNumber b) :
    Same jsNumber a b := by
  induction a using Json.inductionOn generalizing b with
  | null =>
    cases b <;> simp only [tree, reduceCtorEq] at h
    exact .null
  | bool v =>
    cases b <;> simp only [tree, reduceCtorEq, Tree.bool.injEq] at h
    exact h ▸ .bool v
  | number n =>
    cases b <;> simp only [tree, reduceCtorEq, Tree.number.injEq, String.toList_inj] at h
    exact .number h
  | string s =>
    cases b <;> simp only [tree, reduceCtorEq, Tree.string.injEq] at h
    exact h ▸ .string s
  | array items ih =>
    cases b <;> simp only [tree, reduceCtorEq, Tree.array.injEq, treeItems_eq_map] at h
    next items' =>
      cases ha with | array hitems =>
      cases hb with | array hitems' =>
      refine .array (by simpa using congrArg List.length h) fun i v w hv hw => ?_
      have hi := congrArg (·[i]?) h
      simp only [List.getElem?_map, hv, hw, Option.map_some, Option.some.injEq] at hi
      have hmem := List.mem_of_getElem? hv
      exact ih v hmem (hitems v hmem) (hitems' w (List.mem_of_getElem? hw)) hi
  | object entries ih =>
    cases b <;> simp only [tree, reduceCtorEq, Tree.object.injEq] at h
    next entries' =>
      cases ha with | object hkeys hentries =>
      cases hb with | object hkeys' hentries' =>
      have hperm : (treeEntries jsNumber entries).Perm (treeEntries jsNumber entries') :=
        (sortEntries_perm _).symm.trans (h ▸ sortEntries_perm _)
      have hlookup : ∀ key, (entries.lookup key).map (tree jsNumber) = (entries'.lookup key).map (tree jsNumber) := by
        intro key
        rw [← lookup_treeEntries, ← lookup_treeEntries]
        exact lookup_of_perm (nodup_keys_treeEntries hkeys) hperm key
      refine .object (fun key => ?_) fun key v w hv hw => ?_
      · have hkey := congrArg Option.isNone (hlookup key)
        rw [Option.isNone_map, Option.isNone_map] at hkey
        rw [← Option.isNone_iff_eq_none, ← Option.isNone_iff_eq_none, hkey]
      · have hkey := hlookup key
        rw [hv, hw, Option.map_some, Option.map_some, Option.some.injEq] at hkey
        have hmem := (mem_iff_lookup hkeys).mpr hv
        exact ih _ hmem (hentries _ hmem) (hentries' _ ((mem_iff_lookup hkeys').mpr hw)) hkey

/-! ## The payload -/

/-- The members of a response that are signed. -/
def signedMembers (entries : List (String × Json)) : List (String × Json) := entries.filter (·.1 ≠ "signatures")

theorem distinct_signedMembers {entries : List (String × Json)} (h : (Json.object entries).Distinct) :
    (Json.object (signedMembers entries)).Distinct := by
  cases h with | object hkeys hentries =>
  exact .object (hkeys.sublist (List.filter_sublist.map _)) fun e he => hentries e (List.mem_of_mem_filter he)

/-- The payload is an object of three members. -/
def payloadTree (jsNumber : JsonNumber → String) (signatureType : String) (request : Json)
    (response : List (String × Json)) : Tree :=
  .object [("request", tree jsNumber request), ("response", tree jsNumber (.object (signedMembers response))),
    ("type", .string signatureType)]

theorem requestOpen_eq : requestOpen = '{' :: writeJsonString "request" ++ [':'] := by decide +kernel

theorem responseOpen_eq : responseOpen = ',' :: writeJsonString "response" ++ [':'] := by decide +kernel

theorem typeOpen_eq : typeOpen = ',' :: writeJsonString "type" ++ [':'] := by decide +kernel

theorem writeResponse_eq (response : List (String × Json)) : writeResponse jsNumber (.object response) =
    (tree jsNumber (.object (signedMembers response))).print writeJsonString := by
  rw [← writeJson_eq]
  rfl

theorem committeeText_eq (signatureType : String) (request : Json) (response : List (String × Json)) :
    committeeText jsNumber signatureType request (.object response) =
      (payloadTree jsNumber signatureType request response).print writeJsonString := by
  rw [committeeText, requestOpen_eq, responseOpen_eq, typeOpen_eq, writeResponse_eq, writeJson_eq]
  simp only [payloadTree, Tree.print, printMembers, joined, List.flatMap_cons, List.flatMap_nil, List.append_nil,
    List.cons_append, List.nil_append, List.append_assoc]

theorem payloadTree_tokens (htoken : ∀ n, NumberToken (jsNumber n).toList) (signatureType : String) (request : Json)
    (response : List (String × Json)) : (payloadTree jsNumber signatureType request response).Tokens := by
  refine .object fun m hm => ?_
  simp only [List.mem_cons, List.not_mem_nil, or_false] at hm
  rcases hm with rfl | rfl | rfl
  · exact tree_tokens htoken request
  · exact tree_tokens htoken _
  · exact .string signatureType

theorem writeCommitteePayload_inj (t₁ t₂ : String) (q₁ q₂ r₁ r₂ : Json) :
    writeCommitteePayload jsNumber t₁ q₁ r₁ = writeCommitteePayload jsNumber t₂ q₂ r₂ ↔
      committeeText jsNumber t₁ q₁ r₁ = committeeText jsNumber t₂ q₂ r₂ := by
  rw [writeCommitteePayload, writeCommitteePayload, String.toUTF8_eq_toByteArray, String.toUTF8_eq_toByteArray,
    String.toByteArray_inj, String.ofList_inj]

/-- **The committee signs one request and one response.** With numbers rendered
as JSON writes numbers, two payloads are the same bytes exactly when they are of
one type, of the same request, and of the same response but for its signatures. -/
theorem committee_payload_canonical (jsNumber : JsonNumber → String)
    (htoken : ∀ n, NumberToken (jsNumber n).toList) (t₁ t₂ : String) (q₁ q₂ : Json)
    (r₁ r₂ : List (String × Json)) (hq₁ : q₁.Distinct) (hq₂ : q₂.Distinct) (hr₁ : (Json.object r₁).Distinct)
    (hr₂ : (Json.object r₂).Distinct) :
    writeCommitteePayload jsNumber t₁ q₁ (.object r₁) = writeCommitteePayload jsNumber t₂ q₂ (.object r₂) ↔
      t₁ = t₂ ∧ Same jsNumber q₁ q₂ ∧
        Same jsNumber (.object (signedMembers r₁)) (.object (signedMembers r₂)) := by
  rw [writeCommitteePayload_inj, committeeText_eq, committeeText_eq]
  constructor
  · intro h
    have hnil : Ended [] := trivial
    have hread := print_inj quoting_writeJsonString (payloadTree_tokens htoken t₁ q₁ r₁)
      (payloadTree_tokens htoken t₂ q₂ r₂) hnil hnil (congrArg (· ++ []) h)
    simp only [payloadTree, Tree.object.injEq, List.cons.injEq, Prod.mk.injEq, true_and, Tree.string.injEq,
      and_true] at hread
    obtain ⟨hq, hr, ht⟩ := hread
    exact ⟨ht, same_of_tree_eq hq₁ hq₂ hq,
      same_of_tree_eq (distinct_signedMembers hr₁) (distinct_signedMembers hr₂) hr⟩
  · intro h
    obtain ⟨rfl, hq, hr⟩ := h
    rw [payloadTree, payloadTree, tree_eq_of_same hq hq₁ hq₂,
      tree_eq_of_same hr (distinct_signedMembers hr₁) (distinct_signedMembers hr₂)]

/-- Integers in decimal, and no other numbers. -/
def integerNumber : JsonNumber → String
  | .posInt n => n.toNat.repr
  | .negInt n => "-" ++ n.natAbs.repr
  | .float _ => "0"

theorem numberToken_repr (n : Nat) : NumberToken n.repr.toList := by
  have hdigit : ∀ c ∈ Nat.toDigits 10 n, c.isDigit = true := fun c hc =>
    Nat.isDigit_of_mem_toDigits (by decide) (by decide) hc
  obtain ⟨c, rest, heq⟩ := List.exists_cons_of_ne_nil (Nat.toDigits_ne_nil (n := n) (b := 10))
  rw [Nat.toList_repr]
  refine ⟨⟨c, rest, heq, .inl (hdigit c (heq ▸ List.mem_cons_self))⟩, fun d hd => ?_⟩
  simp [numberChar, hdigit d hd]

theorem numberToken_integerNumber (n : JsonNumber) : NumberToken (integerNumber n).toList := by
  cases n with
  | posInt n => exact numberToken_repr n.toNat
  | negInt n =>
    have hrepr := numberToken_repr n.natAbs
    refine ⟨⟨'-', n.natAbs.repr.toList, by simp [integerNumber], .inr rfl⟩, fun c hc => ?_⟩
    simp only [integerNumber, String.toList_append, List.mem_append] at hc
    rcases hc with hc | hc
    · obtain rfl : c = '-' := by simpa using hc
      rfl
    · exact hrepr.chars c hc
  | float bits => exact numberToken_repr 0

/-- A response signed afresh, its members moved about, is the same payload. -/
theorem committee_payload_resigned : (∀ n, NumberToken (integerNumber n).toList) ∧
    writeCommitteePayload integerNumber "contract" .null
      (.object [("signatures", .array []), ("stateRoot", .string "0x"), ("value", .number (.posInt 1))]) =
    writeCommitteePayload integerNumber "contract" .null
      (.object [("value", .number (.posInt 1)), ("stateRoot", .string "0x"), ("signatures", .null)]) := by
  have hr₁ : (Json.object [("signatures", .array []), ("stateRoot", .string "0x"),
      ("value", .number (.posInt 1))]).Distinct := by
    refine .object (by decide) fun e he => ?_
    simp only [List.mem_cons, List.not_mem_nil, or_false] at he
    rcases he with rfl | rfl | rfl
    · exact .array (by simp)
    · exact .string _
    · exact .number _
  have hr₂ : (Json.object [("value", .number (.posInt 1)), ("stateRoot", .string "0x"),
      ("signatures", .null)]).Distinct := by
    refine .object (by decide) fun e he => ?_
    simp only [List.mem_cons, List.not_mem_nil, or_false] at he
    rcases he with rfl | rfl | rfl
    · exact .number _
    · exact .string _
    · exact .null
  have hlookup : ∀ key, (signedMembers [("signatures", Json.array []), ("stateRoot", .string "0x"),
      ("value", .number (.posInt 1))]).lookup key =
      (signedMembers [("value", Json.number (.posInt 1)), ("stateRoot", .string "0x"),
      ("signatures", .null)]).lookup key :=
    lookup_of_perm (by decide) (List.Perm.swap _ _ _)
  refine ⟨numberToken_integerNumber, (committee_payload_canonical integerNumber numberToken_integerNumber _ _ _ _ _ _
    .null .null hr₁ hr₂).mpr ⟨rfl, .null, .object (fun key => by rw [hlookup]) fun key v w hv hw => ?_⟩⟩
  rw [hlookup, hw] at hv
  cases hv
  have hmem := (mem_iff_lookup (by decide)).mpr hw
  simp only [signedMembers, List.mem_filter, List.mem_cons, Prod.mk.injEq, List.not_mem_nil, or_false] at hmem
  rcases hmem.1 with ⟨-, rfl⟩ | ⟨-, rfl⟩ | ⟨-, rfl⟩
  · exact .number rfl
  · exact .string _
  · exact .null

end Pillar.Canton
