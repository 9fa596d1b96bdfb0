/-
Cairo byte arrays in Starknet events (`pillar-runtime`,
`layerzero_runtime/source_events_starknet.rs`): `decode_byte_array` and what it
reads felts with.
-/
import Pillar.Tracked
import Pillar.Hex
import Pillar.Json
import Pillar.Bits
import Pillar.Utf8

namespace Pillar.CairoBytes

open Text Hex Bits

/-! ## The code -/

/-- `*cursor`, and the buffers that were asked for: their capacity, and where the
cursor was. -/
structure State where
  cursor : Nat
  requested : List (Nat × Nat) := []

def parseSmallFelt (value : Json) : Option Nat := do
  let value ← value.asStr
  let value := (stripPrefix "0x" value).getD value
  (fromStrRadix 16 64 value).toOption

section

variable (hex : HexCrate)

/-- `try_into`. -/
def toFelt (bytes : List UInt8) : Option { l : List UInt8 // l.length = 32 } :=
  if h : bytes.length = 32 then .some ⟨bytes, h⟩ else .none

def parseFeltBytes (value : Json) : Option { l : List UInt8 // l.length = 32 } := do
  let value ← value.asStr
  let value := (stripPrefix "0x" value).getD value
  if value.utf8ByteSize > 64 then .none
  else
    let padded := String.ofList (List.replicate (64 - value.utf8ByteSize) '0') ++ value
    let decoded ← (hex.decode padded).toOption
    toFelt decoded

variable (data : List Json)

/-- `data.get(*cursor)?`. -/
def element : Tracked State Unit Json := do
  let s ← Tracked.state
  Tracked.get? data[s.cursor]?

/-- `*cursor = cursor.checked_add(1)?`. -/
def advance : Tracked State Unit Unit := do
  let s ← Tracked.state
  let cursor ← Tracked.get? (checkedAdd s.cursor 1)
  Tracked.update fun s => { s with cursor }

/-- `Vec::with_capacity(word_count.checked_mul(31)?)`, when the elements that are left can hold the words. -/
def reserve (wordCount : Nat) : Tracked State Unit Unit := do
  let s ← Tracked.state
  if wordCount > data.length - s.cursor then Tracked.fail ()
  else
    let capacity ← Tracked.get? (checkedMul wordCount 31)
    Tracked.update fun s => { s with requested := s.requested ++ [(capacity, s.cursor)] }

/-- `for _ in 0..word_count`. -/
def takeWords : Nat → List UInt8 → Tracked State Unit (List UInt8)
  | 0, bytes => pure bytes
  | n + 1, bytes => do
    let value ← element data
    let word ← Tracked.get? (parseFeltBytes hex value)
    advance
    takeWords n (bytes ++ word.val.drop 1)

def decodeByteArray : Tracked State Unit (List UInt8) := do
  let value ← element data
  let wordCount ← Tracked.get? (parseSmallFelt value)
  advance
  reserve data wordCount
  let bytes ← takeWords hex data wordCount []
  let value ← element data
  let pendingWord ← Tracked.get? (parseFeltBytes hex value)
  advance
  let value ← element data
  let pendingLen ← Tracked.get? (parseSmallFelt value)
  advance
  if pendingLen > 30 then Tracked.fail ()
  else
    let start ← Tracked.call (Exec.sub 32 pendingLen)
    let pending ← Tracked.call (Exec.slice pendingWord.val start 32)
    pure (bytes ++ pending)

/-- The packet and the options of an event. -/
def packetAndOptions : Tracked State Unit (List UInt8 × List UInt8) := do
  let encodedPacket ← decodeByteArray hex data
  let options ← decodeByteArray hex data
  pure (encodedPacket, options)

end

/-! ## Cairo's serialization -/

/-- What hexadecimal digits stand for. -/
def digitsValue (digits : List Char) : Nat := digits.foldl (fun n c => 16 * n + (hexDigit? c).getD 0) 0

/-- A felt in JSON: its digits, with any number of zeros in front, behind `0x` or alone. -/
def IsFelt (n : Nat) (value : Json) : Prop :=
  ∃ pre digits, value = .string (pre ++ String.ofList digits) ∧ (pre = "0x" ∨ pre = "") ∧ digits ≠ [] ∧
    digits.length ≤ 64 ∧ (∀ c ∈ digits, (hexDigit? c).isSome = true) ∧ digitsValue digits = n

/-- The `i`-th word of 31 bytes. -/
def word (bytes : List UInt8) (i : Nat) : List UInt8 := (bytes.drop (31 * i)).take 31

/-- The bytes behind the last whole word. -/
def pending (bytes : List UInt8) : List UInt8 := bytes.drop (31 * (bytes.length / 31))

/-- The word count, the words, the pending word and its length. -/
def serialize (bytes : List UInt8) : List Nat :=
  bytes.length / 31 :: (List.range (bytes.length / 31)).map (fun i => ofBytes (word bytes i)) ++
    [ofBytes (pending bytes), bytes.length % 31]

/-- The felts are a serialization of these bytes. -/
def Serializes (bytes : List UInt8) (felts : List Json) : Prop := List.Forall₂ IsFelt (serialize bytes) felts

/-! ## Felts -/

variable {n : Nat} {value : Json} {hex : HexCrate}

theorem stripPrefix_digits {digits : List Char} (h : ∀ c ∈ digits, (hexDigit? c).isSome = true) :
    stripPrefix "0x" (String.ofList digits) = .none := by
  cases hstrip : stripPrefix "0x" (String.ofList digits) with
  | none => rfl
  | some rest =>
    have hchars := congrArg String.toList (stripPrefix_eq_some hstrip)
    rw [String.toList_ofList, String.toList_append] at hchars
    have hx := h 'x' (hchars ▸ List.mem_append_left _ (by decide))
    cases hx

/-- The digits of a felt, without what stands before them. -/
theorem IsFelt.digits (h : IsFelt n value) : ∃ text digits, value.asStr = .some text ∧
    (stripPrefix "0x" text).getD text = String.ofList digits ∧ digits ≠ [] ∧ digits.length ≤ 64 ∧
      (∀ c ∈ digits, (hexDigit? c).isSome = true) ∧ digitsValue digits = n := by
  obtain ⟨pre, digits, rfl, hpre, hne, hlen, hdigits, hvalue⟩ := h
  refine ⟨_, digits, rfl, ?_, hne, hlen, hdigits, hvalue⟩
  rcases hpre with rfl | rfl
  · rw [stripPrefix_append, Option.getD_some]
  · rw [String.empty_append, stripPrefix_digits hdigits, Option.getD_none]

theorem le_foldl_digits (digits : List Char) (n : Nat) :
    n ≤ digits.foldl (fun n c => 16 * n + (hexDigit? c).getD 0) n := by
  induction digits generalizing n with
  | nil => exact le_rfl
  | cons c digits ih =>
    rw [List.foldl_cons]
    exact le_trans (by omega) (ih _)

theorem parseDigits_hex {limit : Nat} (overflow : ParseIntError) : ∀ {digits : List Char} {n : Nat},
    (∀ c ∈ digits, (hexDigit? c).isSome = true) →
    digits.foldl (fun n c => 16 * n + (hexDigit? c).getD 0) n < limit →
    parseDigits 16 limit overflow n digits = .ok (digits.foldl (fun n c => 16 * n + (hexDigit? c).getD 0) n)
  | [], _, _, _ => rfl
  | c :: digits, n, hdigits, hlt => by
    obtain ⟨hc, hrest⟩ := List.forall_mem_cons.mp hdigits
    obtain ⟨d, hd⟩ := Option.isSome_iff_exists.mp hc
    have hto : toDigit 16 c = .some d := by
      rw [toDigit, hd, Option.filter_some, if_pos (decide_eq_true (hexDigit?_lt hd).1)]
    rw [List.foldl_cons, hd, Option.getD_some] at hlt
    have hle := le_foldl_digits digits (16 * n + d)
    rw [parseDigits, hto]
    dsimp only
    rw [Nat.mul_comm n, if_pos (hle.trans_lt hlt), List.foldl_cons, hd, Option.getD_some]
    exact parseDigits_hex overflow hrest hlt

theorem parseSmallFelt_isFelt (h : IsFelt n value) (hlt : n < 2 ^ 64) : parseSmallFelt value = .some n := by
  obtain ⟨text, digits, htext, hstrip, hne, -, hdigits, rfl⟩ := h.digits
  obtain ⟨c, rest, rfl⟩ := List.exists_cons_of_ne_nil hne
  have hplus : c ≠ '+' := by
    rintro rfl
    cases hdigits '+' List.mem_cons_self
  have hread : fromStrRadix 16 64 (String.ofList (c :: rest)) = .ok (digitsValue (c :: rest)) := by
    rw [fromStrRadix, String.toList_ofList]
    split
    next heq => cases heq
    next heq => exact absurd (List.cons.inj heq).1 hplus
    next heq => exact absurd (List.cons.inj heq).1 hplus
    next => exact parseDigits_hex _ hdigits hlt
  rw [parseSmallFelt, htext, Option.bind_eq_bind, Option.bind_some]
  dsimp only
  rw [hstrip, hread]
  rfl

/-- Pairs of digits are bytes of the same number. -/
theorem decodeChars_value : ∀ (k : Nat) {digits : List Char}, (∀ c ∈ digits, (hexDigit? c).isSome = true) →
    digits.length = 2 * k → ∃ bytes, decodeChars digits = .some bytes ∧ bytes.length = k ∧
      ∀ n, digits.foldl (fun n c => 16 * n + (hexDigit? c).getD 0) n = bytes.foldl (fun n b => 256 * n + b.toNat) n
  | 0, [], _, _ => ⟨[], rfl, rfl, fun _ => rfl⟩
  | k + 1, hi :: lo :: rest, hdigits, hlen => by
    obtain ⟨hhi, hdigits⟩ := List.forall_mem_cons.mp hdigits
    obtain ⟨hlo, hdigits⟩ := List.forall_mem_cons.mp hdigits
    obtain ⟨h, hh⟩ := Option.isSome_iff_exists.mp hhi
    obtain ⟨l, hl⟩ := Option.isSome_iff_exists.mp hlo
    simp only [List.length_cons] at hlen
    obtain ⟨bytes, hbytes, hlength, hvalue⟩ := decodeChars_value k hdigits (by omega)
    have hhlt := (hexDigit?_lt hh).1
    have hllt := (hexDigit?_lt hl).1
    refine ⟨UInt8.ofNat (16 * h + l) :: bytes, ?_, by rw [List.length_cons, hlength], fun n => ?_⟩
    · rw [decodeChars, hh, hl]
      dsimp only
      rw [hbytes, Option.map_some]
    · have hbyte : (UInt8.ofNat (16 * h + l)).toNat = 16 * h + l :=
        UInt8.toNat_ofNat_of_lt' (by simp only [UInt8.size]; omega)
      rw [List.foldl_cons, List.foldl_cons, List.foldl_cons, hh, hl, Option.getD_some, Option.getD_some, hbyte,
        ← hvalue]
      congr 1
      omega
  | k + 1, [_], _, hlen => by simp only [List.length_singleton] at hlen; omega
  | 0, _ :: _, _, hlen => by simp at hlen
  | k + 1, [], _, hlen => by simp at hlen

/-- A felt is read to 32 bytes, the most significant first. -/
theorem parseFeltBytes_isFelt (hex : HexCrate) (h : IsFelt n value) : ∃ bytes, parseFeltBytes hex value = .some bytes ∧
    bytes.val = bytesOf 32 n := by
  obtain ⟨text, digits, htext, hstrip, -, hlen, hdigits, rfl⟩ := h.digits
  have hsize : (String.ofList digits).utf8ByteSize = digits.length := by
    refine HexCrate.utf8ByteSize_ofList_ascii digits fun c hc => ?_
    obtain ⟨d, hd⟩ := Option.isSome_iff_exists.mp (hdigits c hc)
    have hascii := (hexDigit?_lt hd).2
    exact Char.utf8Size_eq_one_iff.mpr (UInt32.le_iff_toNat_le.mpr (Nat.le_of_lt_succ hascii))
  have hpadded : ∀ c ∈ List.replicate (64 - digits.length) '0' ++ digits, (hexDigit? c).isSome = true := by
    intro c hc
    rcases List.mem_append.mp hc with hc | hc
    · rw [List.eq_of_mem_replicate hc]
      rfl
    · exact hdigits c hc
  obtain ⟨bytes, hbytes, hlength, hvalue⟩ := decodeChars_value 32 hpadded
    (by rw [List.length_append, List.length_replicate]; omega)
  have hzeros : ∀ k, (List.replicate k '0').foldl (fun n c => 16 * n + (hexDigit? c).getD 0) 0 = 0 := by
    intro k
    induction k with
    | zero => rfl
    | succ k ih => rw [List.replicate_succ, List.foldl_cons]; exact ih
  have hsame : ofBytes bytes = digitsValue digits := by
    rw [ofBytes, ← hvalue 0, List.foldl_append, hzeros, digitsValue]
  refine ⟨⟨bytes, hlength⟩, ?_, ?_⟩
  · have hchars : decodeChars (String.ofList (List.replicate (64 - digits.length) '0') ++
        String.ofList digits).toList = .some bytes := by
      rw [String.toList_append, String.toList_ofList, String.toList_ofList, hbytes]
    have hdecode := hex.decode_eq_ok hchars
    rw [parseFeltBytes, htext, Option.bind_eq_bind, Option.bind_some]
    dsimp only
    rw [hstrip, hsize, if_neg (not_lt.mpr hlen), hdecode]
    exact dif_pos hlength
  · have hbytes := bytesOf_ofBytes bytes
    rw [hlength] at hbytes
    rw [← hsame, hbytes]

/-! ## Bytes -/

/-- The last bytes of a word, whose first are zeros. -/
theorem drop_bytesOf (bytes : List UInt8) (h : bytes.length ≤ 32) :
    (bytesOf 32 (ofBytes bytes)).drop (32 - bytes.length) = bytes := by
  have hpadded := bytesOf_ofBytes (List.replicate (32 - bytes.length) 0 ++ bytes)
  rw [ofBytes_zeros, List.length_append, List.length_replicate, Nat.sub_add_cancel h] at hpadded
  rw [hpadded, List.drop_left' List.length_replicate]

variable {data rest : List Json} {c : Nat} {requested : List (Nat × Nat)}

theorem length_word {bytes : List UInt8} {i : Nat} (h : i < bytes.length / 31) : (word bytes i).length = 31 := by
  rw [word, List.length_take, List.length_drop]
  omega

theorem flatten_words (bytes : List UInt8) (k : Nat) :
    ((List.range k).map (word bytes)).flatten = bytes.take (31 * k) := by
  induction k with
  | zero => rfl
  | succ k ih =>
    rw [List.range_succ, List.map_append, List.flatten_append, ih, List.map_singleton, List.flatten_singleton, word,
      Nat.mul_succ, List.take_add]

theorem length_pending (bytes : List UInt8) : (pending bytes).length = bytes.length % 31 := by
  rw [pending, List.length_drop]
  omega

/-! ## Runs on a serialization -/

theorem drop_succ_of_drop {v : Json} (h : data.drop c = v :: rest) :
    data[c]? = .some v ∧ data.drop (c + 1) = rest ∧ c < data.length := by
  have hlen := congrArg List.length h
  rw [List.length_drop, List.length_cons] at hlen
  refine ⟨?_, by rw [← List.drop_drop, h, List.drop_succ_cons, List.drop_zero], by omega⟩
  rw [← Nat.add_zero c, ← List.getElem?_drop, h, List.getElem?_cons_zero]

theorem element_apply {v : Json} (h : data[c]? = .some v) : element data ⟨c, requested⟩ = (.ok v, ⟨c, requested⟩) := by
  rw [element, Tracked.state_bind, h]
  rfl

theorem advance_apply (h : c + 1 ≤ usizeMax) : advance ⟨c, requested⟩ = (.ok (), ⟨c + 1, requested⟩) := by
  rw [advance, Tracked.state_bind, checkedAdd_of_le h, Tracked.get?_some_bind]
  rfl

theorem takeWords_apply (hex : HexCrate) (requested : List (Nat × Nat)) (hdata : data.length ≤ usizeMax) :
    ∀ {words : List (List UInt8)} {felts : List Json} {c : Nat} (bytes : List UInt8),
      List.Forall₂ (fun w v => IsFelt (ofBytes w) v) words felts → (∀ w ∈ words, w.length = 31) →
      data.drop c = felts ++ rest → takeWords hex data words.length bytes ⟨c, requested⟩ =
        (.ok (bytes ++ words.flatten), ⟨c + words.length, requested⟩)
  | [], _, c, bytes, .nil, _, _ => by
    rw [List.flatten_nil, List.append_nil]
    rfl
  | w :: words, v :: felts, c, bytes, .cons hfelt hfelts, hwords, hdrop => by
    obtain ⟨hw, hwords⟩ := List.forall_mem_cons.mp hwords
    obtain ⟨hat, hnext, hlt⟩ := drop_succ_of_drop hdrop
    obtain ⟨read, hread, hval⟩ := parseFeltBytes_isFelt hex hfelt
    have hrest := takeWords_apply hex requested hdata (bytes ++ w) hfelts hwords hnext
    have htail : read.val.drop 1 = w := by
      have hdrop := drop_bytesOf w (by omega)
      rwa [hw, ← hval] at hdrop
    rw [List.length_cons, takeWords, Tracked.bind_of_ok (element_apply hat), hread, Tracked.get?_some_bind,
      Tracked.bind_of_ok (advance_apply (by omega)), htail, hrest, List.flatten_cons, List.append_assoc,
      Nat.add_right_comm c, Nat.add_assoc]

/-- The felts of a serialization, part by part. -/
theorem Serializes.parts {bytes : List UInt8} {felts : List Json} (h : Serializes bytes felts) :
    ∃ countFelt wordFelts pendingFelt lengthFelt, felts = countFelt :: (wordFelts ++ [pendingFelt, lengthFelt]) ∧
      IsFelt (bytes.length / 31) countFelt ∧
      List.Forall₂ (fun w v => IsFelt (ofBytes w) v) ((List.range (bytes.length / 31)).map (word bytes)) wordFelts ∧
      IsFelt (ofBytes (pending bytes)) pendingFelt ∧ IsFelt (bytes.length % 31) lengthFelt := by
  rw [Serializes, serialize, List.cons_append] at h
  obtain ⟨countFelt, tail, hcount, htail, rfl⟩ := List.forall₂_cons_left_iff.mp h
  have hlength : ((List.range (bytes.length / 31)).map fun i => ofBytes (word bytes i)).length = bytes.length / 31 := by
    rw [List.length_map, List.length_range]
  have hwords := List.forall₂_take (bytes.length / 31) htail
  have hlast := List.forall₂_drop (bytes.length / 31) htail
  rw [List.take_left' hlength, List.forall₂_map_left_iff] at hwords
  rw [List.drop_left' hlength] at hlast
  obtain ⟨pendingFelt, last, hpending, hlast, hpair⟩ := List.forall₂_cons_left_iff.mp hlast
  obtain ⟨lengthFelt, none, hlength, hnone, rfl⟩ := List.forall₂_cons_left_iff.mp hlast
  obtain rfl := List.forall₂_nil_left_iff.mp hnone
  refine ⟨countFelt, tail.take (bytes.length / 31), pendingFelt, lengthFelt, ?_, hcount, ?_, hpending, hlength⟩
  · rw [← hpair, List.take_append_drop]
  · rwa [List.forall₂_map_left_iff]

/-- **The decoder inverts the serialization** and stops behind it. -/
theorem decodeByteArray_apply (hex : HexCrate) (requested : List (Nat × Nat)) {bytes : List UInt8} {felts : List Json}
    (h : Serializes bytes felts)
    (hdata : data.length ≤ usizeMax) (hbytes : bytes.length ≤ usizeMax) (hdrop : data.drop c = felts ++ rest) :
    decodeByteArray hex data ⟨c, requested⟩ =
      (.ok bytes, ⟨c + bytes.length / 31 + 3, requested ++ [(bytes.length / 31 * 31, c + 1)]⟩) := by
  obtain ⟨countFelt, wordFelts, pendingFelt, lengthFelt, rfl, hcount, hwords, hpending, hlen⟩ := h.parts
  have hmax : usizeMax < 2 ^ 64 := by decide
  have hdiv : bytes.length / 31 * 31 ≤ bytes.length := Nat.div_mul_le_self _ _
  have hmod : bytes.length % 31 < 31 := Nat.mod_lt _ (by decide)
  have hwordCount := hwords.length_eq
  rw [List.length_map, List.length_range] at hwordCount
  -- The count, and the buffer for the words.
  rw [List.cons_append, List.append_assoc] at hdrop
  obtain ⟨hat, hnext, hlt⟩ := drop_succ_of_drop hdrop
  have hroom := congrArg List.length hnext
  rw [List.length_drop, List.length_append, List.length_append, List.length_cons, List.length_singleton,
    ← hwordCount] at hroom
  have hreserve : reserve data (bytes.length / 31) ⟨c + 1, requested⟩ =
      (.ok (), ⟨c + 1, requested ++ [(bytes.length / 31 * 31, c + 1)]⟩) := by
    rw [reserve, Tracked.state_bind, if_neg (by dsimp only; omega), checkedMul_of_le (by omega),
      Tracked.get?_some_bind]
    rfl
  rw [decodeByteArray, Tracked.bind_of_ok (element_apply hat), parseSmallFelt_isFelt hcount (by omega),
    Tracked.get?_some_bind, Tracked.bind_of_ok (advance_apply (by omega)), Tracked.bind_of_ok hreserve]
  generalize requested ++ [(bytes.length / 31 * 31, c + 1)] = requested
  -- The words.
  have hrun := takeWords_apply hex requested hdata [] hwords (fun w hw => by
    obtain ⟨i, hi, rfl⟩ := List.mem_map.mp hw
    exact length_word (List.mem_range.mp hi)) hnext
  rw [List.length_map, List.length_range, List.nil_append, flatten_words] at hrun
  -- The pending word, and its length.
  have hbehind : data.drop (c + 1 + bytes.length / 31) = pendingFelt :: lengthFelt :: rest := by
    rw [← List.drop_drop, hnext, List.drop_left' hwordCount.symm]
    rfl
  obtain ⟨hat, hlast, -⟩ := drop_succ_of_drop hbehind
  obtain ⟨hat', -, -⟩ := drop_succ_of_drop hlast
  obtain ⟨read, hread, hval⟩ := parseFeltBytes_isFelt hex hpending
  have hlength := length_pending bytes
  have htail : (Exec.slice read.val (32 - bytes.length % 31) 32 : Exec Unit (List UInt8)) = .ok (pending bytes) := by
    have hsuffix := drop_bytesOf (pending bytes) (by omega)
    rw [hlength, ← hval] at hsuffix
    rw [Exec.slice, if_pos ⟨Nat.sub_le _ _, read.property.ge⟩, hsuffix, List.take_of_length_le (by omega)]
  rw [Tracked.bind_of_ok hrun, Tracked.bind_of_ok (element_apply hat), hread, Tracked.get?_some_bind,
    Tracked.bind_of_ok (advance_apply (by omega)), Tracked.bind_of_ok (element_apply hat'),
    parseSmallFelt_isFelt hlen (by omega), Tracked.get?_some_bind,
    Tracked.bind_of_ok (advance_apply (by omega)), if_neg (by omega), Exec.sub_of_le (by omega),
    Tracked.call_ok_bind, htail, Tracked.call_ok_bind, pending, List.take_append_drop, Tracked.pure_apply]
  congr 2
  omega

/-- Of two serializations in a row, both are read. -/
theorem packetAndOptions_apply (hex : HexCrate) {packet options : List UInt8} {before felts felts' after : List Json}
    (h : Serializes packet felts) (h' : Serializes options felts') (hpacket : packet.length ≤ usizeMax)
    (hoptions : options.length ≤ usizeMax) (hdata : (before ++ felts ++ felts' ++ after).length ≤ usizeMax) :
    (packetAndOptions hex (before ++ felts ++ felts' ++ after) ⟨before.length, []⟩).1 = .ok (packet, options) := by
  have hlen : felts.length = packet.length / 31 + 3 := by
    rw [← h.length_eq, serialize]
    simp
  have hfirst := decodeByteArray_apply hex [] h hdata hpacket
    (by rw [List.append_assoc, List.append_assoc, List.drop_left])
  have hsecond := decodeByteArray_apply (c := before.length + packet.length / 31 + 3) hex
    ([] ++ [(packet.length / 31 * 31, before.length + 1)]) h' hdata hoptions
    (by rw [List.append_assoc, List.drop_left' (by rw [List.length_append, hlen]; omega)])
  rw [packetAndOptions, Tracked.bind_of_ok hfirst, Tracked.bind_of_ok hsecond, Tracked.pure_apply]

/-! ## Any elements -/

/-- No buffer was larger than the elements that were left could fill. -/
def Modest (data : List Json) (s : State) : Prop :=
  ∀ request ∈ s.requested, request.1 ≤ 31 * (data.length - request.2)

/-- Modest, with the cursor inside the elements. -/
def Inside (data : List Json) (s : State) : Prop := Modest data s ∧ s.cursor ≤ data.length

open Tracked (Spec)

theorem spec_element : Spec (Modest data) (element data)
    (fun _ s => Modest data s ∧ s.cursor < data.length) (Modest data) := by
  refine Spec.bind Spec.state fun s => (Spec.get? fun s' hs => hs.2).mono (fun _ h => h) ?_
  rintro v s' ⟨hv, rfl, hs⟩
  exact ⟨hs, (List.getElem?_eq_some_iff.mp hv).1⟩

theorem spec_advance : Spec (fun s => Modest data s ∧ s.cursor < data.length) advance (fun _ s => Inside data s)
    (Modest data) := by
  refine Spec.bind Spec.state fun s => Spec.bind (Spec.get? fun s' hs => hs.2.1) fun cursor => Spec.update ?_
  rintro s' ⟨hcursor, rfl, hmodest, hlt⟩
  refine ⟨hmodest, ?_⟩
  dsimp only
  rw [checkedAdd_eq_some hcursor]
  exact hlt

theorem spec_reserve (wordCount : Nat) : Spec (Inside data) (reserve data wordCount) (fun _ s => Modest data s)
    (Modest data) := by
  refine Spec.bind Spec.state fun s => ?_
  split
  · exact Spec.fail () fun s' hs => hs.2.1
  next hroom =>
    refine Spec.bind (Spec.get? fun s' hs => hs.2.1) fun capacity => Spec.update ?_
    rintro s' ⟨hcapacity, rfl, hmodest, -⟩ request hrequest
    rcases List.mem_append.mp hrequest with hold | hnew
    · exact hmodest request hold
    · obtain rfl := List.mem_singleton.mp hnew
      obtain ⟨-, hproduct⟩ := Option.ite_none_right_eq_some.mp hcapacity
      obtain rfl := Option.some.inj hproduct
      rw [Nat.mul_comm]
      exact Nat.mul_le_mul_left 31 (not_lt.mp hroom)

theorem spec_takeWords (n : Nat) (bytes : List UInt8) : Spec (Modest data) (takeWords hex data n bytes)
    (fun _ s => Modest data s) (Modest data) := by
  induction n generalizing bytes with
  | zero => exact Spec.pure fun s hs => hs
  | succ n ih =>
    refine Spec.bind spec_element fun v => Spec.bind (Spec.get? fun s hs => hs.1) fun read =>
      Spec.bind (spec_advance.mono (fun s hs => hs.2) fun _ _ h => h) fun _ => ?_
    exact (ih _).mono (fun s hs => hs.1) fun _ _ h => h

/-- **On any elements** the decoder returns; it keeps to modest buffers, and what
it returns ends inside the elements. -/
theorem spec_decodeByteArray (hex : HexCrate) : Spec (Modest data) (decodeByteArray hex data) (fun _ s => Inside data s)
    (Modest data) := by
  refine Spec.bind spec_element fun v => Spec.bind (Spec.get? fun s hs => hs.1) fun wordCount =>
    Spec.bind (spec_advance.mono (fun s hs => hs.2) fun _ _ h => h) fun _ =>
    Spec.bind (spec_reserve wordCount) fun _ => Spec.bind (spec_takeWords wordCount []) fun bytes =>
    Spec.bind spec_element fun v => Spec.bind (Spec.get? fun s hs => hs.1) fun pendingWord =>
    Spec.bind (spec_advance.mono (fun s hs => hs.2) fun _ _ h => h) fun _ =>
    Spec.bind (spec_element.mono (fun s hs => hs.1) fun _ _ h => h) fun v =>
    Spec.bind (Spec.get? fun s hs => hs.1) fun pendingLen =>
    Spec.bind (spec_advance.mono (fun s hs => hs.2) fun _ _ h => h) fun _ => ?_
  split
  · exact Spec.fail () fun s hs => hs.1
  next hlen =>
    rw [Exec.sub_of_le (by omega)]
    refine Spec.bind (Spec.call (Exec.returns_ok _) fun s hs => hs.1) fun start => ?_
    intro s hs
    obtain rfl := Except.ok.inj hs.1
    rw [Exec.slice, if_pos ⟨Nat.sub_le _ _, pendingWord.property.ge⟩, Tracked.call_ok_bind]
    exact Spec.pure (P := Inside data) (Q := fun _ s => Inside data s) (fun _ h => h) s hs.2

/-- **Decoding inverts Cairo's serialization**, wherever it stands in the
elements, so of two in a row both are read; and of any elements it reads, the
cursor stays inside and no buffer is larger than they could fill. -/
theorem decodeByteArray_inverts (hex : HexCrate) :
    (∀ (bytes : List UInt8) (before felts after : List Json), Serializes bytes felts → bytes.length ≤ usizeMax →
      (before ++ felts ++ after).length ≤ usizeMax → ∃ requested,
        decodeByteArray hex (before ++ felts ++ after) ⟨before.length, []⟩ =
          (.ok bytes, ⟨before.length + bytes.length / 31 + 3, requested⟩)) ∧
    (∀ (packet options : List UInt8) (before felts felts' after : List Json), Serializes packet felts →
      Serializes options felts' → packet.length ≤ usizeMax → options.length ≤ usizeMax →
      (before ++ felts ++ felts' ++ after).length ≤ usizeMax →
        (packetAndOptions hex (before ++ felts ++ felts' ++ after) ⟨before.length, []⟩).1 = .ok (packet, options)) ∧
    ∀ (data : List Json) (cursor : Nat),
      (decodeByteArray hex data ⟨cursor, []⟩).1.Returns ∧ Modest data (decodeByteArray hex data ⟨cursor, []⟩).2 ∧
        ∀ bytes, (decodeByteArray hex data ⟨cursor, []⟩).1 = .ok bytes →
          (decodeByteArray hex data ⟨cursor, []⟩).2.cursor ≤ data.length := by
  refine ⟨?_, ?_, ?_⟩
  · intro bytes before felts after h hbytes hdata
    exact ⟨_, decodeByteArray_apply hex [] h hdata hbytes (by rw [List.append_assoc, List.drop_left])⟩
  · intro packet options before felts felts' after h h' hpacket hoptions hdata
    exact packetAndOptions_apply hex h h' hpacket hoptions hdata
  · intro data cursor
    have hstart : Modest data ⟨cursor, []⟩ := fun request hrequest => (by cases hrequest)
    obtain ⟨hreturns, hok, herr⟩ := spec_decodeByteArray hex _ hstart
    refine ⟨hreturns, ?_, fun bytes hbytes => (hok bytes hbytes).2⟩
    cases hresult : (decodeByteArray hex data ⟨cursor, []⟩).1 with
    | ok bytes => exact (hok bytes hresult).1
    | error halt =>
      rw [hresult] at hreturns
      cases halt with
      | err e => exact herr e hresult
      | panic => exact absurd rfl hreturns.1
      | fuel => exact absurd rfl hreturns.2

def felt (digits : List Char) : Json := .string ("0x" ++ String.ofList digits)

/-- A whole word, and one byte that is pending. -/
def wordAndByte : List UInt8 := List.replicate 31 1 ++ [0xff]

def wordAndByteFelts : List Json :=
  [felt ['1'], felt (List.replicate 31 ['0', '1']).flatten, felt ['0', '0', 'F', 'f'], felt ['0', '1']]

theorem serializes_wordAndByte : Serializes wordAndByte wordAndByteFelts := by
  have hfelt : ∀ digits, digits ≠ [] → digits.length ≤ 64 → digits.all (fun c => (hexDigit? c).isSome) = true →
      IsFelt (digitsValue digits) (felt digits) :=
    fun digits hne hlen hdigits => ⟨"0x", digits, rfl, .inl rfl, hne, hlen, List.all_eq_true.mp hdigits, rfl⟩
  have hserialize : serialize wordAndByte = [digitsValue ['1'], digitsValue (List.replicate 31 ['0', '1']).flatten,
      digitsValue ['0', '0', 'F', 'f'], digitsValue ['0', '1']] := by decide +kernel
  have hcount := hfelt ['1'] (by decide) (by decide) (by decide)
  have hword := hfelt (List.replicate 31 ['0', '1']).flatten (by decide) (by decide) (by decide)
  have hpending := hfelt ['0', '0', 'F', 'f'] (by decide) (by decide) (by decide)
  have hlen := hfelt ['0', '1'] (by decide) (by decide) (by decide)
  rw [Serializes, hserialize]
  exact .cons hcount (.cons hword (.cons hpending (.cons hlen .nil)))

theorem decodeByteArray_inverts_wordAndByte :
    (∃ requested, decodeByteArray .plain ([.null] ++ wordAndByteFelts ++ []) ⟨1, []⟩ =
        (.ok wordAndByte, ⟨5, requested⟩)) ∧
      (packetAndOptions .plain ([] ++ wordAndByteFelts ++ wordAndByteFelts ++ []) ⟨0, []⟩).1 =
        .ok (wordAndByte, wordAndByte) :=
  ⟨(decodeByteArray_inverts .plain).1 _ [.null] _ [] serializes_wordAndByte (by decide) (by decide),
    (decodeByteArray_inverts .plain).2.1 _ _ [] _ _ [] serializes_wordAndByte serializes_wordAndByte (by decide)
      (by decide) (by decide)⟩

end Pillar.CairoBytes
