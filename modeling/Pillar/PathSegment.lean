/-
`encode_path_segment` of source_events_move.rs and the URLs that a value of a
provider is spliced into through it.
-/
import Pillar.UrlPath
import Pillar.Hex
import Pillar.Utf8

namespace Pillar.LayerzeroRuntime
open Pillar.Text Pillar.UrlPath

/-! ## One opaque segment -/

/-- The bytes that are written as they are. -/
def unreserved (byte : UInt8) : Bool :=
  let n := byte.toNat
  (48 ≤ n ∧ n ≤ 57) ∨ (65 ≤ n ∧ n ≤ 90) ∨ (97 ≤ n ∧ n ≤ 122) ∨ n = '-'.toNat ∨ n = '_'.toNat ∨ n = '~'.toNat

/-- A digit of `{:02X}`. -/
def upperDigit (n : Nat) : Char := upperChar (Hex.digit n)

def encodeByte (byte : UInt8) : List Char :=
  if unreserved byte then [Char.ofNat byte.toNat]
  else ['%', upperDigit (byte.toNat / 16), upperDigit (byte.toNat % 16)]

/-- `encode_path_segment`. -/
def encodePathSegment (value : String) : Option String :=
  if value.isEmpty ∨ '.' ∈ value.toList then .none
  else .some (String.ofList ((utf8 value).flatMap encodeByte))

/-- `str::trim_end_matches('/')`. -/
def trimEndMatches (base : String) : String := String.ofList (base.toList.rdropWhile (· = '/'))

/-! ## The URLs -/

/-- What stands before the hash. -/
def txPrefix (chainName base : String) : String :=
  trimEndMatches base ++ if chainName = "initia" then "/cosmos/tx/v1beta1/txs/" else "/transactions/by_hash/"

/-- `move_tx_url`. -/
def moveTxUrl (chainName base txHash : String) : Option String := do
  let txHash ← encodePathSegment txHash
  return txPrefix chainName base ++ txHash

def blockByVersionPrefix (base : String) : String := trimEndMatches base ++ "/blocks/by_version/"

/-- `move_block_by_version_url`. -/
def moveBlockByVersionUrl (base version : String) : Option String := do
  let version ← encodePathSegment version
  return blockByVersionPrefix base ++ version ++ "?with_transactions=false"

def accountPrefix (base : String) : String := trimEndMatches base ++ "/accounts/"

/-- `aptos_account_resource_url`. -/
def aptosAccountResourceUrl (base account resourceType : String) : Option String := do
  let account ← encodePathSegment account
  let resourceType ← encodePathSegment resourceType
  return accountPrefix base ++ account ++ "/resource/" ++ resourceType

def tablesPrefix (base : String) : String := trimEndMatches base ++ "/tables/"

/-- `aptos_table_item_url`. -/
def aptosTableItemUrl (base handle : String) : Option String := do
  let handle ← encodePathSegment handle
  return tablesPrefix base ++ handle ++ "/item"

/-! ## What a segment consists of -/

/-- The characters that are written as they are. -/
def unreservedChar (c : Char) : Bool := c.isAlphanum ∨ c ∈ ['-', '_', '~']

def upperDigits : List Char :=
  ['0', '1', '2', '3', '4', '5', '6', '7', '8', '9', 'A', 'B', 'C', 'D', 'E', 'F']

/-- Unreserved characters and triplets, none of them of a dot. -/
inductive Opaque : List Char → Prop
  | nil : Opaque []
  | plain {c : Char} {rest : List Char} (h : unreservedChar c) (hrest : Opaque rest) : Opaque (c :: rest)
  | triplet {high low : Char} {rest : List Char} (hhigh : high ∈ upperDigits) (hlow : low ∈ upperDigits)
      (hdot : ¬(high = '2' ∧ low = 'E')) (hrest : Opaque rest) : Opaque ('%' :: high :: low :: rest)

/-- The bytes a text stands for: a triplet stands for one byte. -/
def percentDecode : List Char → List UInt8
  | [] => []
  | '%' :: high :: low :: rest =>
    match hexDigit? high, hexDigit? low with
    | .some h, .some l => UInt8.ofNat (16 * h + l) :: percentDecode rest
    | _, _ => String.utf8EncodeChar '%' ++ percentDecode (high :: low :: rest)
  | c :: rest => String.utf8EncodeChar c ++ percentDecode rest

theorem upperDigit_facts : ∀ n < 16, upperDigit n ∈ upperDigits ∧ hexDigit? (upperDigit n) = .some n ∧
    (upperDigit n = '2' → n = 2) ∧ (upperDigit n = 'E' → n = 14) := by decide

theorem unreserved_facts : ∀ n < 256, unreserved (UInt8.ofNat n) → n < 128 ∧ unreservedChar (Char.ofNat n) := by
  decide +kernel

/-- The characters a URL parser reads as more than themselves. -/
def special : List Char := ['%', '.', ':', '\t', '\n', '\r', '/', '\\', '?', '#']

theorem unreservedChar_special : ∀ c ∈ special, ¬ unreservedChar c := by
  simp [special, unreservedChar, Char.isAlphanum, Char.isAlpha, Char.isUpper, Char.isLower, Char.isDigit]

theorem upperDigits_plain : ∀ c ∈ upperDigits, unreservedChar c := by
  simp [upperDigits, unreservedChar, Char.isAlphanum, Char.isAlpha, Char.isUpper, Char.isLower, Char.isDigit]

theorem upperDigits_toLower : ∀ c ∈ upperDigits, (c.toLower = '2' → c = '2') ∧ (c.toLower = 'e' → c = 'E') := by
  intro c hc
  simp only [upperDigits, List.mem_cons, List.not_mem_nil, or_false] at hc
  rcases hc with rfl | rfl | rfl | rfl | rfl | rfl | rfl | rfl | rfl | rfl | rfl | rfl | rfl | rfl | rfl | rfl <;>
    decide

theorem unreservedChar_toLower {c : Char} (h : unreservedChar c) : unreservedChar c.toLower := by
  by_cases hupper : c.isUpper
  · have halpha : c.toLower.isAlpha := by
      rw [Char.isAlpha_toLower_eq_isAlpha, Char.isAlpha, hupper, Bool.true_or]
    rw [unreservedChar, decide_eq_true_eq, Char.isAlphanum, halpha, Bool.true_or]
    exact .inl rfl
  · rw [Char.toLower_eq_of_not_isUpper hupper]
    exact h

/-! ## Decoding what was encoded -/

theorem percentDecode_plain {c : Char} (h : c ≠ '%') (rest : List Char) :
    percentDecode (c :: rest) = String.utf8EncodeChar c ++ percentDecode rest := by
  rw [percentDecode]
  rintro high low rest rfl
  exact absurd rfl h

theorem percentDecode_triplet {high low : Char} {h l : Nat} (hhigh : hexDigit? high = .some h)
    (hlow : hexDigit? low = .some l) (rest : List Char) :
    percentDecode ('%' :: high :: low :: rest) = UInt8.ofNat (16 * h + l) :: percentDecode rest := by
  rw [percentDecode, hhigh, hlow]

/-- **One byte is read back.** -/
theorem percentDecode_encodeByte (byte : UInt8) (rest : List Char) :
    percentDecode (encodeByte byte ++ rest) = byte :: percentDecode rest := by
  have hbyte : byte.toNat < 256 := byte.toNat_lt
  have hof : UInt8.ofNat byte.toNat = byte := UInt8.ofNat_toNat
  unfold encodeByte
  split
  · next hplain =>
    obtain ⟨hascii, hmem⟩ := unreserved_facts byte.toNat hbyte (hof.symm ▸ hplain)
    have hpercent : Char.ofNat byte.toNat ≠ '%' := fun h =>
      unreservedChar_special '%' (by decide) (h ▸ hmem)
    have htoNat : (Char.ofNat byte.toNat).toNat = byte.toNat := toNat_ofNat_of_le (Nat.le_of_lt_succ hascii)
    rw [List.singleton_append, percentDecode_plain hpercent, utf8EncodeChar_ascii (htoNat.symm ▸ hascii), htoNat, hof,
      List.singleton_append]
  · have hhigh := (upperDigit_facts (byte.toNat / 16) (by omega)).2.1
    have hlow := (upperDigit_facts (byte.toNat % 16) (by omega)).2.1
    have hvalue : 16 * (byte.toNat / 16) + byte.toNat % 16 = byte.toNat := Nat.div_add_mod byte.toNat 16
    refine (percentDecode_triplet hhigh hlow rest).trans ?_
    rw [hvalue, hof]

theorem percentDecode_encode (bytes : List UInt8) : percentDecode (bytes.flatMap encodeByte) = bytes := by
  induction bytes with
  | nil => rfl
  | cons byte bytes ih => rw [List.flatMap_cons, percentDecode_encodeByte, ih]

/-! ## No dot, in any spelling -/

/-- Only a dot is encoded with the byte of a dot. -/
theorem dot_of_mem_utf8 {value : String} (h : 0x2e ∈ utf8 value) : '.' ∈ value.toList := by
  obtain ⟨c, hc, hnat⟩ := mem_of_mem_utf8 h (by decide)
  have hdot : c = '.' := Char.toNat_inj.mp hnat
  exact hdot ▸ hc

theorem Opaque.encodeByte {byte : UInt8} (h : byte ≠ 0x2e) {rest : List Char} (hrest : Opaque rest) :
    Opaque (LayerzeroRuntime.encodeByte byte ++ rest) := by
  have hbyte : byte.toNat < 256 := byte.toNat_lt
  have hof : UInt8.ofNat byte.toNat = byte := UInt8.ofNat_toNat
  unfold LayerzeroRuntime.encodeByte
  split
  · next hplain => exact .plain (unreserved_facts byte.toNat hbyte (hof.symm ▸ hplain)).2 hrest
  · have hhigh := upperDigit_facts (byte.toNat / 16) (by omega)
    have hlow := upperDigit_facts (byte.toNat % 16) (by omega)
    refine .triplet hhigh.1 hlow.1 (fun hdot => h ?_) hrest
    have htwo := hhigh.2.2.1 hdot.1
    have he := hlow.2.2.2 hdot.2
    have hvalue : byte.toNat = 0x2e := by omega
    rw [← hof, hvalue]
    rfl

theorem Opaque.encode {bytes : List UInt8} (h : 0x2e ∉ bytes) : Opaque (bytes.flatMap LayerzeroRuntime.encodeByte) := by
  induction bytes with
  | nil => exact .nil
  | cons byte bytes ih =>
    rw [List.mem_cons, not_or] at h
    exact .encodeByte (Ne.symm h.1) (ih h.2)

variable {text : List Char}

theorem Opaque.mem (h : Opaque text) {c : Char} (hc : c ∈ text) : c = '%' ∨ unreservedChar c := by
  induction h with
  | nil => cases hc
  | plain h _ ih =>
    rcases List.mem_cons.mp hc with rfl | hc
    · exact .inr h
    · exact ih hc
  | triplet hhigh hlow _ _ ih =>
    simp only [List.mem_cons] at hc
    rcases hc with rfl | rfl | rfl | hc
    · exact .inl rfl
    · exact .inr (upperDigits_plain c hhigh)
    · exact .inr (upperDigits_plain c hlow)
    · exact ih hc

theorem Opaque.not_mem (h : Opaque text) {c : Char} (hc : c ∈ special.tail) : c ∉ text := fun hmem => by
  rcases h.mem hmem with rfl | hplain
  · exact absurd hc (by decide)
  · exact unreservedChar_special c (List.mem_of_mem_tail hc) hplain

theorem Opaque.dot_not_mem (h : Opaque text) : '.' ∉ text.map Char.toLower := fun hmem => by
  obtain ⟨c, hc, hdot⟩ := List.mem_map.mp hmem
  rcases h.mem hc with rfl | hplain
  · cases hdot
  · exact unreservedChar_special '.' (by decide) (hdot ▸ unreservedChar_toLower hplain)

/-- **No spelling of a dot stands in the text.** -/
theorem Opaque.no_dot (h : Opaque text) : ¬ ['%', '2', 'e'] <:+: text.map Char.toLower := by
  have hplain : ∀ {c : Char}, unreservedChar c → '%' ≠ c.toLower := fun h hpercent =>
    unreservedChar_special '%' (by decide) (hpercent ▸ unreservedChar_toLower h)
  induction h with
  | nil => simp
  | plain h _ ih =>
    rw [List.map_cons, List.infix_cons_iff, List.cons_prefix_cons, not_or]
    exact ⟨fun hfirst => hplain h hfirst.1, ih⟩
  | @triplet high low rest hhigh hlow hdot _ ih =>
    have hhighPlain := upperDigits_plain high hhigh
    have hlowPlain := upperDigits_plain low hlow
    simp only [List.map_cons, List.infix_cons_iff, List.cons_prefix_cons, not_or]
    refine ⟨fun hfirst => ?_, fun hsecond => hplain hhighPlain hsecond.1, fun hthird => hplain hlowPlain hthird.1, ih⟩
    obtain ⟨-, hhighTwo, hlowE, -⟩ := hfirst
    exact hdot ⟨(upperDigits_toLower high hhigh).1 hhighTwo.symm, (upperDigits_toLower low hlow).2 hlowE.symm⟩

theorem Opaque.stays (h : Opaque text) : Stays text where
  plain c hc henders := by
    have hspecial : c ∈ special.tail := by
      simp only [enders, List.mem_cons, List.not_mem_nil, or_false] at henders
      rcases henders with rfl | rfl | rfl | rfl <;> decide
    exact h.not_mem hspecial hc
  single := by
    rw [isSingleDot, decide_eq_false_iff_not]
    intro hmem
    simp only [List.mem_cons, List.not_mem_nil, or_false] at hmem
    rcases hmem with hmem | hmem
    · exact h.dot_not_mem (hmem ▸ by decide)
    · exact h.no_dot (hmem ▸ by decide)
  double := by
    rw [isDoubleDot, decide_eq_false_iff_not]
    intro hmem
    simp only [List.mem_cons, List.not_mem_nil, or_false] at hmem
    rcases hmem with hmem | hmem | hmem | hmem
    · exact h.dot_not_mem (hmem ▸ by decide)
    · exact h.dot_not_mem (hmem ▸ by decide)
    · exact h.dot_not_mem (hmem ▸ by decide)
    · exact h.no_dot (hmem ▸ by decide)

theorem Opaque.clean (h : Opaque text) : Clean text := by
  intro c hc hmem
  have hspecial : c ∈ special.tail := by
    simp only [List.mem_cons, List.not_mem_nil, or_false] at hmem
    rcases hmem with rfl | rfl | rfl | rfl <;> decide
  exact h.not_mem hspecial hc

theorem opaque_of_unreserved (h : ∀ c ∈ text, unreservedChar c) : Opaque text := by
  induction text with
  | nil => exact .nil
  | cons c text ih => exact .plain (h c List.mem_cons_self) (ih fun d hd => h d (List.mem_cons_of_mem _ hd))

theorem opaque_resource : Opaque "resource".toList := opaque_of_unreserved (by
  simp [unreservedChar, Char.isAlphanum, Char.isAlpha, Char.isUpper, Char.isLower, Char.isDigit])

theorem opaque_item : Opaque "item".toList := opaque_of_unreserved (by
  simp [unreservedChar, Char.isAlphanum, Char.isAlpha, Char.isUpper, Char.isLower, Char.isDigit])

/-! ## What was accepted -/

theorem encodePathSegment_eq_none {value : String} :
    encodePathSegment value = .none ↔ value = "" ∨ '.' ∈ value.toList := by
  unfold encodePathSegment
  split
  · next h =>
    rw [String.isEmpty_iff] at h
    exact ⟨fun _ => h, fun _ => rfl⟩
  · next h =>
    rw [String.isEmpty_iff] at h
    constructor
    · intro hnone
      cases hnone
    · exact fun hbad => absurd hbad h

/-- **What is accepted is opaque, not empty, and says what was encoded.** -/
theorem encodePathSegment_eq_some {value segment : String} (h : encodePathSegment value = .some segment) :
    segment ≠ "" ∧ Opaque segment.toList ∧ percentDecode segment.toList = utf8 value := by
  unfold encodePathSegment at h
  split at h
  · cases h
  · next hgood =>
    cases h
    rw [String.isEmpty_iff, not_or] at hgood
    rw [String.toList_ofList]
    refine ⟨fun hempty => hgood.1 ?_, .encode fun hdot => hgood.2 (dot_of_mem_utf8 hdot), percentDecode_encode _⟩
    have hbytes := percentDecode_encode (utf8 value)
    rw [String.ofList_eq_empty_iff.mp hempty] at hbytes
    exact utf8_inj hbytes.symm

theorem encodePathSegment_inj {value other segment : String} (h : encodePathSegment value = .some segment)
    (hother : encodePathSegment other = .some segment) : value = other :=
  utf8_inj ((encodePathSegment_eq_some h).2.2.symm.trans (encodePathSegment_eq_some hother).2.2)

/-! ## What the parser makes of the URLs -/

/-- A URL that begins with a fixed text and adds segments, and a query, to the
path of that text; nothing changes the path where the fixed text has ended it. -/
def KeepsPrefix (url fixed : String) (segments : List (List Char)) (query : Option (List Char)) : Prop :=
  ((State.behind fixed.toList).InPath →
    UrlPath.parse url.toList = ⟨(State.behind fixed.toList).path ++ segments, query, .none⟩) ∧
  (¬ (State.behind fixed.toList).InPath → (UrlPath.parse url.toList).path = (State.behind fixed.toList).path)

/-- A text that ends with a slash behind a firm character. -/
def EndsFirm (fixed : String) : Prop := ∃ front x, Firm x ∧ fixed.toList = front ++ [x, '/']

theorem endsFirm_txPrefix (chainName base : String) : EndsFirm (txPrefix chainName base) := by
  by_cases hinitia : chainName = "initia"
  · refine ⟨(trimEndMatches base).toList ++ "/cosmos/tx/v1beta1/tx".toList, 's', by simp [Firm], ?_⟩
    rw [txPrefix, if_pos hinitia, String.toList_append, List.append_assoc]
    rfl
  · refine ⟨(trimEndMatches base).toList ++ "/transactions/by_has".toList, 'h', by simp [Firm], ?_⟩
    rw [txPrefix, if_neg hinitia, String.toList_append, List.append_assoc]
    rfl

theorem endsFirm_blockByVersionPrefix (base : String) : EndsFirm (blockByVersionPrefix base) := by
  refine ⟨(trimEndMatches base).toList ++ "/blocks/by_versio".toList, 'n', by simp [Firm], ?_⟩
  rw [blockByVersionPrefix, String.toList_append, List.append_assoc]
  rfl

theorem endsFirm_accountPrefix (base : String) : EndsFirm (accountPrefix base) := by
  refine ⟨(trimEndMatches base).toList ++ "/account".toList, 's', by simp [Firm], ?_⟩
  rw [accountPrefix, String.toList_append, List.append_assoc]
  rfl

theorem endsFirm_tablesPrefix (base : String) : EndsFirm (tablesPrefix base) := by
  refine ⟨(trimEndMatches base).toList ++ "/table".toList, 's', by simp [Firm], ?_⟩
  rw [tablesPrefix, String.toList_append, List.append_assoc]
  rfl

theorem clean_segments {segments : List (List Char)} (hplain : Opaque text) (hsegments : ∀ t ∈ segments, Opaque t) :
    Clean (text ++ joined segments) := by
  intro c hc
  rcases List.mem_append.mp hc with hc | hc
  · exact hplain.clean c hc
  · obtain ⟨t, ht, hc⟩ := List.mem_flatMap.mp hc
    rcases List.mem_cons.mp hc with rfl | hc
    · decide
    · exact (hsegments t ht).clean c hc

theorem keepsPrefix_of_opaque {url fixed : String} (hfixed : EndsFirm fixed) {segments : List (List Char)}
    (hplain : Opaque text) (hsegments : ∀ t ∈ segments, Opaque t)
    (hurl : url.toList = fixed.toList ++ (text ++ joined segments)) :
    KeepsPrefix url fixed (text :: segments) .none := by
  obtain ⟨front, x, hx, hend⟩ := hfixed
  have hclean := clean_segments hplain hsegments
  have hparse := @parse_append text x hx front segments hclean hplain.stays fun t ht => (hsegments t ht).stays
  rw [← hend] at hparse
  rw [KeepsPrefix, hurl]
  exact ⟨fun hin => (hparse.1 hin).1, fun hout => hparse.2 hout _ hclean⟩

theorem keepsPrefix_of_query {url fixed query : String} (hfixed : EndsFirm fixed) (hplain : Opaque text)
    (hhash : '#' ∉ query.toList) (hquery : Clean query.toList)
    (hurl : url.toList = fixed.toList ++ (text ++ '?' :: query.toList)) :
    KeepsPrefix url fixed [text] (.some query.toList) := by
  obtain ⟨front, x, hx, hend⟩ := hfixed
  have hnone : text ++ joined [] = text := List.append_nil text
  have hclean : Clean (text ++ joined []) := hnone.symm ▸ hplain.clean
  have hparse := @parse_append text x hx front [] hclean hplain.stays fun t ht => by cases ht
  rw [← hend, hnone] at hparse
  rw [KeepsPrefix, hurl]
  constructor
  · exact fun hin => (hparse.1 hin).2 query.toList hhash hquery
  · intro hout
    refine hparse.2 hout _ fun c hc => ?_
    rcases List.mem_append.mp hc with hc | hc
    · exact hplain.clean c hc
    · rcases List.mem_cons.mp hc with rfl | hc
      · decide
      · exact hquery c hc

theorem moveTxUrl_keepsPrefix {chainName base txHash url : String} (h : moveTxUrl chainName base txHash = .some url) :
    ∃ segment, encodePathSegment txHash = .some segment ∧
      KeepsPrefix url (txPrefix chainName base) [segment.toList] .none := by
  obtain ⟨segment, hsegment, hsome⟩ := Option.bind_eq_some_iff.mp h
  have hurl := Option.some.inj hsome
  refine ⟨segment, hsegment, ?_⟩
  subst url
  refine keepsPrefix_of_opaque (endsFirm_txPrefix chainName base) (encodePathSegment_eq_some hsegment).2.1
    (fun t ht => by cases ht) ?_
  rw [String.toList_append, joined, List.flatMap_nil, List.append_nil]

theorem moveBlockByVersionUrl_keepsPrefix {base version url : String}
    (h : moveBlockByVersionUrl base version = .some url) :
    ∃ segment, encodePathSegment version = .some segment ∧
      KeepsPrefix url (blockByVersionPrefix base) [segment.toList] (.some "with_transactions=false".toList) := by
  obtain ⟨segment, hsegment, hsome⟩ := Option.bind_eq_some_iff.mp h
  have hurl := Option.some.inj hsome
  refine ⟨segment, hsegment, ?_⟩
  subst url
  refine keepsPrefix_of_query (endsFirm_blockByVersionPrefix base) (encodePathSegment_eq_some hsegment).2.1
    (by simp) (by simp [Clean]) ?_
  rw [String.toList_append, String.toList_append, List.append_assoc]
  rfl

theorem aptosAccountResourceUrl_keepsPrefix {base account resourceType url : String}
    (h : aptosAccountResourceUrl base account resourceType = .some url) :
    ∃ first last, encodePathSegment account = .some first ∧ encodePathSegment resourceType = .some last ∧
      KeepsPrefix url (accountPrefix base) [first.toList, "resource".toList, last.toList] .none := by
  obtain ⟨first, hfirst, h⟩ := Option.bind_eq_some_iff.mp h
  obtain ⟨last, hlast, hsome⟩ := Option.bind_eq_some_iff.mp h
  have hurl := Option.some.inj hsome
  refine ⟨first, last, hfirst, hlast, ?_⟩
  subst url
  refine keepsPrefix_of_opaque (endsFirm_accountPrefix base) (encodePathSegment_eq_some hfirst).2.1 ?_ ?_
  · rw [List.forall_mem_cons, List.forall_mem_singleton]
    exact ⟨opaque_resource, (encodePathSegment_eq_some hlast).2.1⟩
  · simp only [String.toList_append, List.append_assoc, joined, List.flatMap_cons, List.flatMap_nil, List.append_nil]
    rfl

theorem aptosTableItemUrl_keepsPrefix {base handle url : String} (h : aptosTableItemUrl base handle = .some url) :
    ∃ segment, encodePathSegment handle = .some segment ∧
      KeepsPrefix url (tablesPrefix base) [segment.toList, "item".toList] .none := by
  obtain ⟨segment, hsegment, hsome⟩ := Option.bind_eq_some_iff.mp h
  have hurl := Option.some.inj hsome
  refine ⟨segment, hsegment, ?_⟩
  subst url
  refine keepsPrefix_of_opaque (endsFirm_tablesPrefix base) (encodePathSegment_eq_some hsegment).2.1 ?_ ?_
  · rw [List.forall_mem_singleton]
    exact opaque_item
  · simp only [String.toList_append, List.append_assoc, joined, List.flatMap_cons, List.flatMap_nil, List.append_nil]
    rfl

/-- **A value becomes one opaque segment or nothing**: no spelling of a dot, the
value's bytes behind it, no segment for two values, and URLs that keep what was
fixed in them. -/
theorem encodePathSegment_safe :
    (∀ value segment, encodePathSegment value = .some segment →
      segment ≠ "" ∧ Opaque segment.toList ∧ '.' ∉ segment.toList ∧
      ¬ ['%', '2', 'e'] <:+: segment.toList.map Char.toLower ∧
      isSingleDot segment.toList = false ∧ isDoubleDot segment.toList = false ∧
      percentDecode segment.toList = utf8 value) ∧
    (∀ value other segment, encodePathSegment value = .some segment → encodePathSegment other = .some segment →
      value = other) ∧
    (∀ value, encodePathSegment value = .none ↔ value = "" ∨ '.' ∈ value.toList) ∧
    (∀ chainName base txHash url, moveTxUrl chainName base txHash = .some url →
      ∃ segment, encodePathSegment txHash = .some segment ∧
        KeepsPrefix url (txPrefix chainName base) [segment.toList] .none) ∧
    (∀ base version url, moveBlockByVersionUrl base version = .some url →
      ∃ segment, encodePathSegment version = .some segment ∧
        KeepsPrefix url (blockByVersionPrefix base) [segment.toList] (.some "with_transactions=false".toList)) ∧
    (∀ base account resourceType url, aptosAccountResourceUrl base account resourceType = .some url →
      ∃ first last, encodePathSegment account = .some first ∧ encodePathSegment resourceType = .some last ∧
        KeepsPrefix url (accountPrefix base) [first.toList, "resource".toList, last.toList] .none) ∧
    (∀ base handle url, aptosTableItemUrl base handle = .some url →
      ∃ segment, encodePathSegment handle = .some segment ∧
        KeepsPrefix url (tablesPrefix base) [segment.toList, "item".toList] .none) := by
  refine ⟨fun value segment h => ?_, fun _ _ _ => encodePathSegment_inj, fun _ => encodePathSegment_eq_none,
    fun _ _ _ _ => moveTxUrl_keepsPrefix, fun _ _ _ => moveBlockByVersionUrl_keepsPrefix,
    fun _ _ _ _ => aptosAccountResourceUrl_keepsPrefix, fun _ _ _ => aptosTableItemUrl_keepsPrefix⟩
  obtain ⟨hne, hplain, hdecode⟩ := encodePathSegment_eq_some h
  exact ⟨hne, hplain, hplain.not_mem (by decide), hplain.no_dot, hplain.stays.single, hplain.stays.double, hdecode⟩

theorem encodePathSegment_safe_slash :
    encodePathSegment "a/b" = .some "a%2Fb" ∧ percentDecode "a%2Fb".toList = utf8 "a/b" := by
  have haccept : encodePathSegment "a/b" = .some "a%2Fb" := by decide +kernel
  exact ⟨haccept, (encodePathSegment_safe.1 "a/b" "a%2Fb" haccept).2.2.2.2.2.2⟩

end Pillar.LayerzeroRuntime
