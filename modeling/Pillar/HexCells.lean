/-
A message as a snake of cells, and the packet around it (`pillar-layerzero`,
`other_non_evm/ton/builders.rs`).

Every cell but the last holds 127 bytes and refers to the next. What the crate
is relied on for, beyond the laws of `TonCore`, is `Snakes`: it writes the bits
of bytes, and it builds a cell whose references are plain and not too deep.
-/
import Pillar.BocOrder
import Pillar.ClDeclareFacts
import Pillar.Hex

namespace Pillar.Ton

open Hex Text

/-! ## Chunks -/

section Chunks

variable {α : Type}

/-- `slice::chunks`: lists of `n` elements, the last one maybe shorter. -/
def chunks (n : Nat) (l : List α) : List (List α) :=
  if _h : l = [] ∨ n = 0 then [] else l.take n :: chunks n (l.drop n)
termination_by l.length
decreasing_by
  have : 0 < l.length := List.length_pos_iff.mpr fun hnil => _h (.inl hnil)
  rw [List.length_drop]
  omega

/-- Full lists, and a last one that is not empty and not too long. -/
def Chunked (n : Nat) : List (List α) → Prop
  | [] => True
  | [last] => 0 < last.length ∧ last.length ≤ n
  | chunk :: next :: rest => chunk.length = n ∧ Chunked n (next :: rest)

theorem chunks_eq_nil {n : Nat} (hn : 0 < n) {l : List α} : chunks n l = [] ↔ l = [] := by
  rw [chunks]
  split
  next h => exact ⟨fun _ => h.resolve_right (Nat.ne_of_gt hn), fun _ => rfl⟩
  next h => exact ⟨fun hc => (by cases hc), fun hnil => absurd (.inl hnil) h⟩

theorem flatten_chunks {n : Nat} (hn : 0 < n) (l : List α) : (chunks n l).flatten = l := by
  fun_induction chunks n l with
  | case1 l h =>
    rw [h.resolve_right (Nat.ne_of_gt hn)]
    rfl
  | case2 l h ih => rw [List.flatten_cons, ih, List.take_append_drop]

theorem chunked_chunks {n : Nat} (hn : 0 < n) (l : List α) : Chunked n (chunks n l) := by
  fun_induction chunks n l with
  | case1 => trivial
  | case2 l h ih =>
    have hpos : 0 < l.length := List.length_pos_iff.mpr fun hnil => h (.inl hnil)
    cases hrest : chunks n (l.drop n) with
    | nil => exact ⟨by rw [List.length_take]; omega, List.length_take_le n l⟩
    | cons next rest =>
      have hdrop : l.drop n ≠ [] := fun hnil => by
        rw [(chunks_eq_nil hn).mpr hnil] at hrest
        cases hrest
      have hlen : n ≤ l.length := by
        by_contra hlt
        exact hdrop (List.drop_eq_nil_of_le (by omega))
      exact ⟨List.length_take_of_le hlen, hrest ▸ ih⟩

theorem Chunked.length_le {n : Nat} : ∀ {cs : List (List α)}, Chunked n cs → ∀ c ∈ cs, c.length ≤ n
  | [last], h, c, hc => by
    rw [List.mem_singleton.mp hc]
    exact h.2
  | chunk :: next :: rest, h, c, hc => by
    rcases List.mem_cons.mp hc with rfl | hc
    · exact h.1.le
    · exact h.2.length_le c hc

theorem Chunked.full {n : Nat} : ∀ {cs : List (List α)}, Chunked n cs → ∀ c ∈ cs.dropLast, c.length = n
  | [last], _, c, hc => by cases hc
  | chunk :: next :: rest, h, c, hc => by
    rw [List.dropLast_cons_cons] at hc
    rcases List.mem_cons.mp hc with rfl | hc
    · exact h.1
    · exact h.2.full c hc

/-- All lists but the last are full, so there are no more than must be. -/
theorem Chunked.count_le {n : Nat} (hn : 0 < n) : ∀ {cs : List (List α)} {k : Nat}, Chunked n cs →
    cs.flatten.length ≤ n * k → cs.length ≤ k
  | [], _, _, _ => Nat.zero_le _
  | [last], k, h, hlen => by
    cases k with
    | zero =>
      have := h.1
      simp only [List.flatten_cons, List.flatten_nil, List.append_nil] at hlen
      omega
    | succ k => simp
  | chunk :: next :: rest, k, h, hlen => by
    rw [List.flatten_cons, List.length_append, h.1] at hlen
    cases k with
    | zero =>
      rw [Nat.mul_zero] at hlen
      omega
    | succ k =>
      rw [Nat.mul_succ] at hlen
      exact Nat.succ_le_succ (h.2.count_le hn (by omega))

end Chunks

/-! ## The builders -/

def maxCellDepth : Nat := 1024

/-- The bits of bytes. -/
def byteBits (bytes : List UInt8) : List Bool := bytes.flatMap fun byte => Bits.ofNat 8 byte.toNat

def tUint32 : UInt8 := 5
def tUint64 : UInt8 := 6
def tUint256 : UInt8 := 8

section

variable (T : TonCore)

/-- `write_bits_with_offset(bytes, offset, bits)`. -/
abbrev BitWriter := T.Builder → List UInt8 → (offset bits : Nat) → Except String T.Builder

variable (writeBitsWithOffset : BitWriter T) (hex : HexCrate)

/-- One turn of the loop of `hex_to_cells`. -/
def pushChunk (acc : Option TonCell) (chunk : List UInt8) : Exec AppCoreError (Option TonCell) := do
  let b ← mapErr (writeBitsWithOffset T.builder chunk 0 (chunk.length * 8))
  let b ← match acc with
    | .some child => mapErr (T.writeRef b child)
    | .none => .ok b
  return .some (← mapErr (T.build b))

def hexToCells (text : String) : Exec AppCoreError TonCell := do
  let body := (stripPrefix "0x" text).getD text
  let maxBytes := maxCellDepth * 127
  if body.utf8ByteSize > maxBytes * 2 then
    Exec.err (.badRequest s!"TON message exceeds the {maxBytes}-byte cell-depth budget")
  else if body.utf8ByteSize * 4 = 0 then mapErr (T.build T.builder)
  else
    match hex.decode body with
    | .error e => Exec.err (.internal ("TON message hex decode: " ++ e))
    | .ok bytes => do Exec.get (← (chunks 127 bytes).reverse.foldlM (pushChunk T writeBitsWithOffset) .none)

def buildLzPath (srcEid : UInt32) (srcOapp : Vector UInt8 32) (dstEid : UInt32) (dstOapp : Vector UInt8 32) :
    Exec AppCoreError TonCell :=
  clDeclare T "path" [.num tUint32 srcEid.toNat, .num tUint256 (Bits.ofBytes srcOapp.toList), .num tUint32 dstEid.toNat,
    .num tUint256 (Bits.ofBytes dstOapp.toList)]

def buildLzPacket (path : TonCell) (messageHex : String) (nonce : UInt64) (guid : Vector UInt8 32) :
    Exec AppCoreError TonCell := do
  let message ← hexToCells T writeBitsWithOffset hex messageHex
  clDeclare T "Packet" [.ref path, .ref message, .num tUint64 nonce.toNat, .num tUint256 (Bits.ofBytes guid.toList)]

end

/-- What the repository relies on here: bits are written as the laws have
numbers written, and a cell is built of plain references that leave it a level. -/
structure Snakes (T : TonCore) (written : T.Builder → Contents) (writeBitsWithOffset : BitWriter T) : Prop where
  writeBits : ∀ b bytes offset bits, offset + bits ≤ 8 * bytes.length →
    Writes written ((written b).1 ++ ((byteBits bytes).drop offset).take bits, (written b).2) True
      (writeBitsWithOffset b bytes offset bits)
  build : ∀ b, (∀ child ∈ (written b).2, child.Plain ∧ child.depth < maxCellDepth) → ∃ cell, T.build b = .ok cell

/-! ## Snakes -/

/-- The bytes of each cell, from the first to the one that refers to none. -/
inductive Snake : TonCell → List (List UInt8) → Prop
  | last (bytes : List UInt8) : Snake (.mk .ordinary 0 (byteBits bytes) []) [bytes]
  | next (bytes : List UInt8) {child : TonCell} {rest : List (List UInt8)} (h : Snake child rest) :
    Snake (.mk .ordinary 0 (byteBits bytes) [child]) (bytes :: rest)

@[simp] theorem length_byteBits (bytes : List UInt8) : (byteBits bytes).length = 8 * bytes.length := by
  simp [byteBits, List.length_flatMap, Nat.mul_comm]

theorem byteBits_injective {bytes bytes' : List UInt8} (h : byteBits bytes = byteBits bytes') : bytes = bytes' := by
  induction bytes generalizing bytes' with
  | nil =>
    have hlen := congrArg List.length h
    rw [length_byteBits, length_byteBits, List.length_nil] at hlen
    exact (List.eq_nil_of_length_eq_zero (by omega)).symm
  | cons byte bytes ih =>
    cases bytes' with
    | nil =>
      have hlen := congrArg List.length h
      rw [length_byteBits, length_byteBits, List.length_cons, List.length_nil] at hlen
      omega
    | cons byte' bytes' =>
      have hcons : Bits.ofNat 8 byte.toNat ++ byteBits bytes = Bits.ofNat 8 byte'.toNat ++ byteBits bytes' := h
      obtain ⟨hbyte, hbytes⟩ := List.append_inj hcons (by rw [Bits.length_ofNat, Bits.length_ofNat])
      have heq := Bits.ofNat_injective byte.toNat_lt byte'.toNat_lt hbyte
      rw [UInt8.toNat_inj.mp heq, ih hbytes]

theorem Snake.unique {cell : TonCell} {cs cs' : List (List UInt8)} (h : Snake cell cs) (h' : Snake cell cs') :
    cs = cs' := by
  induction h generalizing cs' with
  | last bytes =>
    generalize hcell : TonCell.mk .ordinary 0 (byteBits bytes) [] = cell at h'
    cases h' with
    | last bytes' =>
      injection hcell with _ _ hbits
      rw [byteBits_injective hbits]
    | next bytes' h' =>
      injection hcell with _ _ _ hrefs
      cases hrefs
  | @next bytes child rest h ih =>
    generalize hcell : TonCell.mk .ordinary 0 (byteBits bytes) [child] = cell at h'
    cases h' with
    | last bytes' =>
      injection hcell with _ _ _ hrefs
      cases hrefs
    | next bytes' h' =>
      injection hcell with _ _ hbits hrefs
      cases hrefs
      rw [byteBits_injective hbits, ih h']

theorem Snake.plain {cell : TonCell} {cs : List (List UInt8)} (h : Snake cell cs) : cell.Plain := by
  cases h <;> exact ⟨rfl, rfl⟩

theorem Snake.depth {cell : TonCell} {cs : List (List UInt8)} (h : Snake cell cs) : cell.depth + 1 = cs.length := by
  induction h with
  | last bytes => rfl
  | next bytes h ih =>
    rw [TonCell.depth, refsDepth, refsDepth, List.length_cons, ← ih]
    omega

/-! ## What is built -/

section Build

variable {T : TonCore} {written : T.Builder → Contents} {ahead : T.Parser → Contents}
  {writeBitsWithOffset : BitWriter T} {hex : HexCrate}

theorem Writes.ok {contents : Contents} {p : Prop} {x : Except String T.Builder} (h : Writes written contents p x)
    (hp : p) (hfits : contents.Fits) : ∃ b, mapErr x = .ok b ∧ written b = contents := by
  cases x with
  | ok b => exact ⟨b, rfl, h.2.2⟩
  | error e => exact absurd ⟨hp, hfits⟩ h

variable (hT : T.Lawful written ahead) (hS : Snakes T written writeBitsWithOffset)

include hT hS

theorem build_of_plain {b : T.Builder} (h : ∀ child ∈ (written b).2, child.Plain ∧ child.depth < maxCellDepth) :
    mapErr (T.build b) = .ok (.mk .ordinary 0 (written b).1 (written b).2) := by
  obtain ⟨cell, hcell⟩ := hS.build b h
  have hbuilt : Built (written b) cell := hT.build b cell hcell
  have hmask := (hbuilt.plain fun child hchild => (h child hchild).1.2).2
  rw [hcell, mapErr_ok, hbuilt]
  rw [hbuilt] at hmask
  exact congrArg _ (congrArg (TonCell.mk .ordinary · _ _) hmask)

/-- A chunk in front of a snake that is not too long. -/
theorem pushChunk_spec {acc : Option TonCell} {chunk : List UInt8} {cs : List (List UInt8)}
    (hchunk : chunk.length ≤ 127) (hacc : ∀ child, acc = .some child → Snake child cs) (hnone : acc = .none → cs = [])
    (hlen : cs.length ≤ maxCellDepth) :
    ∃ cell, pushChunk T writeBitsWithOffset acc chunk = .ok (.some cell) ∧ Snake cell (chunk :: cs) := by
  have hcontents : ((written T.builder).1 ++ ((byteBits chunk).drop 0).take (chunk.length * 8),
      (written T.builder).2) = ((byteBits chunk, []) : Contents) := by
    rw [hT.builder, List.nil_append, List.drop_zero, List.take_of_length_le (by rw [length_byteBits]; omega)]
  have hbitsLen : (byteBits chunk).length ≤ maxCellBits := by
    rw [length_byteBits]
    exact (Nat.mul_le_mul_left 8 hchunk).trans (by decide)
  have hwrite := hS.writeBits T.builder chunk 0 (chunk.length * 8) (by omega)
  rw [hcontents] at hwrite
  obtain ⟨b, hb, hbw⟩ := hwrite.ok trivial ⟨hbitsLen, Nat.zero_le _⟩
  unfold pushChunk
  rw [hb, Exec.ok_bind]
  cases acc with
  | none =>
    obtain rfl := hnone rfl
    have hbuild := build_of_plain hT hS (b := b) (by rw [hbw]; exact fun child hchild => by cases hchild)
    rw [hbw] at hbuild
    exact ⟨_, by simp only [Exec.ok_bind, hbuild]; rfl, .last chunk⟩
  | some child =>
    have hsnake := hacc child rfl
    have href := hT.writeRef b child
    rw [hbw] at href
    obtain ⟨b', hb', hbw'⟩ := href.ok trivial ⟨hbitsLen, show 1 ≤ maxCellRefs by decide⟩
    have hchild : ∀ c ∈ (written b').2, c.Plain ∧ c.depth < maxCellDepth := by
      intro c hc
      rw [hbw', List.nil_append, List.mem_singleton] at hc
      subst hc
      have := hsnake.depth
      exact ⟨hsnake.plain, by omega⟩
    have hbuild := build_of_plain hT hS hchild
    rw [hbw'] at hbuild
    exact ⟨_, by simp only [hb', Exec.ok_bind, hbuild]; rfl, .next chunk hsnake⟩

/-- The chunks, from the last to the first. -/
theorem pushChunks_spec : ∀ {cs : List (List UInt8)}, (∀ c ∈ cs, c.length ≤ 127) → cs.length ≤ maxCellDepth →
    ∃ acc, cs.reverse.foldlM (pushChunk T writeBitsWithOffset) .none = .ok acc ∧
      (∀ cell, acc = .some cell → Snake cell cs) ∧ (acc = .none → cs = [])
  | [], _, _ => ⟨.none, rfl, fun cell h => (by cases h), fun _ => rfl⟩
  | chunk :: cs, hall, hlen => by
    rw [List.length_cons] at hlen
    obtain ⟨acc, hfold, hsome, hnone⟩ :=
      pushChunks_spec (fun c hc => hall c (List.mem_cons_of_mem _ hc)) (Nat.le_of_succ_le hlen)
    obtain ⟨cell, hpush, hsnake⟩ := pushChunk_spec hT hS (hall chunk List.mem_cons_self) hsome hnone (by omega)
    refine ⟨.some cell, ?_, fun c hc => ?_, fun h => (by cases h)⟩
    · rw [List.reverse_cons, List.foldlM_append, hfold, Exec.ok_bind, List.foldlM_cons, hpush]
      rfl
    · cases hc
      exact hsnake

end Build

/-! ## What is refused -/

/-- Too long, of an odd length, or not hexadecimal. -/
def Unsnakeable (body : String) : Prop :=
  maxCellDepth * 127 * 2 < body.toList.length ∨ body.toList.length % 2 = 1 ∨ ∃ c ∈ body.toList, hexDigit? c = .none

theorem decodeChars_eq_none {chars : List Char} :
    decodeChars chars = .none ↔ chars.length % 2 = 1 ∨ ∃ c ∈ chars, hexDigit? c = .none := by
  fun_induction decodeChars chars with
  | case1 => simp
  | case2 c => simp
  | case3 hi lo rest h l hlo hhi ih =>
    rw [Option.map_eq_none_iff, ih]
    simp only [List.length_cons, List.mem_cons, exists_eq_or_imp, hhi, hlo, reduceCtorEq, false_or]
    rw [show (rest.length + 1 + 1) % 2 = rest.length % 2 by omega]
  | case4 hi lo rest hno =>
    refine ⟨fun _ => .inr ?_, fun _ => rfl⟩
    cases hhi : hexDigit? hi with
    | none => exact ⟨hi, List.mem_cons_self, hhi⟩
    | some h =>
      cases hlo : hexDigit? lo with
      | none => exact ⟨lo, List.mem_cons_of_mem _ List.mem_cons_self, hlo⟩
      | some l => exact absurd hlo (hno h l hhi)

/-- A hexadecimal digit is one byte. -/
theorem utf8Size_of_hexDigit {c : Char} {n : Nat} (h : hexDigit? c = .some n) : c.utf8Size = 1 := by
  have hlt : c.toNat < 128 := by
    unfold hexDigit? at h
    split_ifs at h <;> omega
  rw [Char.utf8Size_eq_one_iff]
  exact UInt32.le_iff_toNat_le.mpr (Nat.le_of_lt_succ hlt)

theorem length_le_utf8ByteSize (s : String) : s.toList.length ≤ s.utf8ByteSize := by
  rw [← String.ofList_toList (s := s)]
  generalize s.toList = l
  rw [String.toList_ofList]
  induction l with
  | nil => exact Nat.zero_le _
  | cons c l ih =>
    have hpos := c.utf8Size_pos
    rw [String.ofList_cons, String.utf8ByteSize_append, String.utf8ByteSize_singleton, List.length_cons]
    omega

theorem utf8ByteSize_of_digits {body : String} (h : ∀ c ∈ body.toList, hexDigit? c ≠ .none) :
    body.utf8ByteSize = body.toList.length := by
  rw [← String.ofList_toList (s := body), HexCrate.utf8ByteSize_ofList_ascii, String.toList_ofList]
  intro c hc
  obtain ⟨n, hn⟩ := Option.ne_none_iff_exists'.mp (h c hc)
  exact utf8Size_of_hexDigit hn

/-! ## The message -/

section Message

variable {T : TonCore} {written : T.Builder → Contents} {ahead : T.Parser → Contents}
  {writeBitsWithOffset : BitWriter T} {hex : HexCrate}

/-- `body`. -/
def messageBody (text : String) : String := (stripPrefix "0x" text).getD text

theorem hexToCells_refuses (hex : HexCrate) {text : String} (h : Unsnakeable (messageBody text)) :
    ∃ e, hexToCells T writeBitsWithOffset hex text = Exec.err e := by
  have hbytes := length_le_utf8ByteSize (messageBody text)
  unfold messageBody at h hbytes
  unfold hexToCells
  dsimp only
  split
  · exact ⟨_, rfl⟩
  next hshort =>
    have hnone : decodeChars ((stripPrefix "0x" text).getD text).toList = .none :=
      decodeChars_eq_none.mpr (h.resolve_left (by omega))
    have hpos : 0 < ((stripPrefix "0x" text).getD text).toList.length := by
      refine List.length_pos_iff.mpr fun hnil => ?_
      rw [hnil] at hnone
      cases hnone
    rw [if_neg (by omega)]
    cases hdecode : hex.decode ((stripPrefix "0x" text).getD text) with
    | error e => exact ⟨_, rfl⟩
    | ok bytes =>
      rw [hex.decodeChars_of_decode hdecode] at hnone
      cases hnone

/-- A snake of the bytes that the text denotes. -/
structure Carries (text : String) (cell : TonCell) (cs : List (List UInt8)) : Prop where
  snake : Snake cell cs
  bytes : decodeChars (messageBody text).toList = .some cs.flatten
  full : ∀ c ∈ cs.dropLast, c.length = 127
  count : cs.length ≤ maxCellDepth

theorem hexToCells_carries (hT : T.Lawful written ahead) (hS : Snakes T written writeBitsWithOffset) (hex : HexCrate)
    {text : String}
    (h : ¬ Unsnakeable (messageBody text)) :
    ∃ cell cs, hexToCells T writeBitsWithOffset hex text = .ok cell ∧ Carries text cell cs := by
  simp only [Unsnakeable, not_or, not_exists, not_and] at h
  obtain ⟨hshort, heven, hdigits⟩ := h
  have hsize := utf8ByteSize_of_digits hdigits
  obtain ⟨bytes, hbytes⟩ : ∃ bytes, decodeChars (messageBody text).toList = .some bytes := by
    refine Option.ne_none_iff_exists'.mp fun hnone => ?_
    rcases decodeChars_eq_none.mp hnone with hodd | ⟨c, hc, hno⟩
    · exact heven hodd
    · exact hdigits c hc hno
  have hlen := (decodeChars_eq_some hbytes).1
  have hstart : hexToCells T writeBitsWithOffset hex text =
      if bytes = [] then mapErr (T.build T.builder)
      else (chunks 127 bytes).reverse.foldlM (pushChunk T writeBitsWithOffset) .none >>= Exec.get := by
    have hdecode : hex.decode (messageBody text) = .ok bytes := hex.decode_eq_ok hbytes
    unfold hexToCells
    unfold messageBody at hdecode hsize hlen hshort
    dsimp only
    rw [if_neg (by omega), hdecode]
    refine ite_congr ?_ (fun _ => rfl) fun _ => rfl
    rw [← List.length_eq_zero_iff]
    exact propext ⟨fun h => by omega, fun h => by omega⟩
  rw [hstart]
  split
  next hnil =>
    subst hnil
    have hbuild := build_of_plain hT hS (b := T.builder) (by rw [hT.builder]; exact fun child hchild => by cases hchild)
    rw [hT.builder] at hbuild
    exact ⟨_, [[]], hbuild, .last [], hbytes, fun c hc => (by cases hc), by decide⟩
  next hne =>
    have hflat := flatten_chunks (by decide : 0 < 127) bytes
    have hchunked := chunked_chunks (by decide : 0 < 127) bytes
    have hcount : (chunks 127 bytes).length ≤ maxCellDepth := hchunked.count_le (by decide) (by rw [hflat]; omega)
    obtain ⟨acc, hfold, hsome, hnone⟩ := pushChunks_spec hT hS hchunked.length_le hcount
    cases acc with
    | none => exact absurd ((chunks_eq_nil (by decide)).mp (hnone rfl)) hne
    | some cell =>
      refine ⟨cell, chunks 127 bytes, ?_, hsome cell rfl, by rw [hflat]; exact hbytes, hchunked.full, hcount⟩
      rw [hfold]
      rfl

end Message

/-! ## The packet -/

section Packet

variable {T : TonCore} {written : T.Builder → Contents} {ahead : T.Parser → Contents}
  {writeBitsWithOffset : BitWriter T} {hex : HexCrate}

/-- A draft of one cell, with so many bits and references in it. -/
structure Single (d : Draft T) (bits refs : Nat) : Prop where
  cells : d.cells.length = 2
  dataCell : d.curDataCell = 1
  refCell : d.curRefCell = 1
  maxRefs : d.curCellMaxRefs = 2
  dataOffset : d.curDataOffset = headerWidth + bits
  refOffset : d.curRefOffset = refs

theorem single_start (header : T.Builder) : Single (Draft.start header) 0 0 := ⟨rfl, rfl, rfl, rfl, rfl, rfl⟩

/-- A field that fits in the one cell. -/
theorem Single.declareField (hT : T.Lawful written ahead) {d d' : Draft T} {field : ClField} {bits refs : Nat}
    (h : Single d bits refs) (hbits : headerWidth + bits + field.bits ≤ maxCellBits)
    (hrefs : field.bits = 0 → refs + 1 ≤ 2) (hd : d.declareField field = .ok d') :
    Single d' (bits + field.bits) (if field.bits > 0 then refs else refs + 1) := by
  have hspillData : d.spillData field.bits = d := if_neg (by rw [h.dataOffset]; omega)
  have hspillRef : d.spillRef field.bits = d := if_neg fun ⟨hzero, hfull⟩ => by
    rw [h.refOffset, h.maxRefs] at hfull
    exact absurd hfull (not_lt.mpr (hrefs hzero))
  rw [Draft.declareField, hspillData, hspillRef] at hd
  obtain ⟨stored, hstore, hd⟩ := Exec.bind_ok_iff.mp hd
  obtain ⟨cells, hlen, rfl⟩ := Draft.store_eq hstore
  have hs : Single { d with cells } bits refs := { h with cells := hlen.trans h.cells }
  obtain ⟨-, header, -, rfl⟩ := (describe_yields hT _ field).2 d' hd
  unfold Draft.advance
  split
  · exact { hs with dataOffset := by rw [hs.dataOffset, Nat.add_assoc] }
  next hzero =>
    have hfield : field.bits = 0 := by omega
    exact { hs with
      dataOffset := by rw [hs.dataOffset, hfield, Nat.add_zero]
      refOffset := by rw [hs.refOffset] }

/-- Fields that fit in the one cell. -/
theorem Single.declareFields (hT : T.Lawful written ahead) :
    ∀ {fields : List ClField} {d d' : Draft T} {bits refs : Nat},
    Single d bits refs → headerWidth + bits + (fields.map ClField.bits).sum ≤ maxCellBits →
    refs + (fields.map ClField.bits).count 0 ≤ 2 → fields.foldlM Draft.declareField d = .ok d' →
    ∃ bits refs, Single d' bits refs
  | [], d, d', bits, refs, h, _, _, hfold => by
    cases hfold
    exact ⟨bits, refs, h⟩
  | field :: fields, d, d', bits, refs, h, hbits, hrefs, hfold => by
    rw [List.foldlM_cons] at hfold
    obtain ⟨next, hnext, hfold⟩ := Exec.bind_ok_iff.mp hfold
    rw [List.map_cons, List.sum_cons] at hbits
    rw [List.map_cons, List.count_cons] at hrefs
    have hstep := h.declareField hT (by omega) (fun hzero => by
      rw [if_pos (by simpa using hzero)] at hrefs
      omega) hnext
    refine Single.declareFields hT hstep (by omega) ?_ hfold
    by_cases hzero : field.bits = 0
    · rw [if_neg (by omega)]
      rw [if_pos (by simpa using hzero)] at hrefs
      omega
    · rw [if_pos (by omega)]
      exact Nat.le_of_add_right_le (by rwa [← Nat.add_assoc] at hrefs)

/-- A class cell with nothing spilled is a level above its references. -/
theorem clDeclare_depth (hT : T.Lawful written ahead) {name : String} {fields : List ClField} {cell : TonCell}
    {bound : Nat} (htyped : ∀ field ∈ fields, field.Typed)
    (hbits : headerWidth + (fields.map ClField.bits).sum ≤ maxCellBits) (hcount : (fields.map ClField.bits).count 0 ≤ 2)
    (hbound : 0 < bound) (hrefs : ∀ child, ClField.ref child ∈ fields → child.depth < bound)
    (h : clDeclare T name fields = .ok cell) : cell.depth ≤ bound := by
  obtain ⟨header, d, -, hfold, hd, hassembled⟩ := clDeclare_parts hT htyped h
  obtain ⟨bits, refs, hs⟩ := (single_start header).declareFields hT hbits (by omega) hfold
  obtain ⟨padding, extras, hcell, hpadding, hextras, -⟩ := hassembled.refs
  rw [List.drop_eq_nil_of_le hs.cells.le, List.forall₂_nil_left_iff] at hextras
  rw [depth_eq, hcell, hextras, List.append_nil]
  refine refsDepth_le fun child hchild => ?_
  rcases List.mem_append.mp hchild with hroot | hpad
  · exact hrefs child (hd.refsFrom 1 child hroot)
  · rw [hpadding child hpad]
    exact hbound

theorem buildLzPath_depth (hT : T.Lawful written ahead) {srcEid dstEid : UInt32} {srcOapp dstOapp : Vector UInt8 32}
    {path : TonCell} (h : buildLzPath T srcEid srcOapp dstEid dstOapp = .ok path) : path.depth ≤ 1 := by
  refine clDeclare_depth hT ?_ ?_ ?_ Nat.one_pos ?_ h
  · simp [ClField.Typed, tUint32, tUint256]
  · show headerWidth + [32, 256, 32, 256].sum ≤ maxCellBits
    decide
  · show [32, 256, 32, 256].count 0 ≤ 2
    decide
  · simp

theorem buildLzPacket_depth (hT : T.Lawful written ahead) {path packet message : TonCell} {text : String}
    {nonce : UInt64} {guid : Vector UInt8 32} (hpath : path.depth < maxCellDepth)
    (hmessage : hexToCells T writeBitsWithOffset hex text = .ok message) (hdepth : message.depth < maxCellDepth)
    (h : buildLzPacket T writeBitsWithOffset hex path text nonce guid = .ok packet) : packet.depth ≤ maxCellDepth := by
  rw [buildLzPacket, hmessage, Exec.ok_bind] at h
  refine clDeclare_depth hT ?_ ?_ ?_ (by decide) (fun child hchild => ?_) h
  · simp [ClField.Typed, tUint64, tUint256]
  · show headerWidth + [0, 0, 64, 256].sum ≤ maxCellBits
    decide
  · show [0, 0, 64, 256].count 0 ≤ 2
    decide
  · simp only [List.mem_cons, ClField.ref.injEq, reduceCtorEq, List.not_mem_nil, or_false] at hchild
    rcases hchild with rfl | rfl
    · exact hpath
    · exact hdepth

/-- **A message is carried whole by a snake of full cells**, or refused for being
too long, of an odd length or not hexadecimal. The snake has at most as many
cells as leave a level for the packet, and no other bytes have the same snake. -/
theorem hexToCells_faithful (hT : T.Lawful written ahead) (hS : Snakes T written writeBitsWithOffset) (hex : HexCrate) :
    (∀ text, (∃ e, hexToCells T writeBitsWithOffset hex text = Exec.err e) ↔ Unsnakeable (messageBody text)) ∧
    (∀ text, ¬ Unsnakeable (messageBody text) → ∃ cell cs, hexToCells T writeBitsWithOffset hex text = .ok cell ∧
      Snake cell cs ∧ decodeChars (messageBody text).toList = .some cs.flatten ∧ (∀ c ∈ cs.dropLast, c.length = 127) ∧
      cs.length ≤ maxCellDepth) ∧
    (∀ text srcEid srcOapp dstEid dstOapp path nonce guid packet,
      buildLzPath T srcEid srcOapp dstEid dstOapp = .ok path →
      buildLzPacket T writeBitsWithOffset hex path text nonce guid = .ok packet → packet.depth ≤ maxCellDepth) ∧
    ∀ text text' cell, hexToCells T writeBitsWithOffset hex text = .ok cell →
      hexToCells T writeBitsWithOffset hex text' = .ok cell →
        decodeChars (messageBody text).toList = decodeChars (messageBody text').toList := by
  have hok : ∀ text cell, hexToCells T writeBitsWithOffset hex text = .ok cell → ∃ cs, Carries text cell cs := by
    intro text cell h
    by_cases hbad : Unsnakeable (messageBody text)
    · obtain ⟨e, herr⟩ := hexToCells_refuses hex hbad
      rw [herr] at h
      cases h
    · obtain ⟨cell', cs, hcell, hcarries⟩ := hexToCells_carries hT hS hex hbad
      rw [hcell] at h
      cases h
      exact ⟨cs, hcarries⟩
  refine ⟨fun text => ⟨fun ⟨e, herr⟩ => ?_, hexToCells_refuses hex⟩, fun text hgood => ?_, ?_, ?_⟩
  · by_contra hgood
    obtain ⟨cell, cs, hcell, -⟩ := hexToCells_carries hT hS hex hgood
    rw [hcell] at herr
    cases herr
  · obtain ⟨cell, cs, hcell, hcarries⟩ := hexToCells_carries hT hS hex hgood
    exact ⟨cell, cs, hcell, hcarries.snake, hcarries.bytes, hcarries.full, hcarries.count⟩
  · intro text srcEid srcOapp dstEid dstOapp path nonce guid packet hpath hpacket
    obtain ⟨message, hmessage, -⟩ := Exec.bind_ok_iff.mp hpacket
    obtain ⟨cs, hcarries⟩ := hok text message hmessage
    have hdepth := hcarries.snake.depth
    have hcount := hcarries.count
    exact buildLzPacket_depth hT (Nat.lt_of_le_of_lt (buildLzPath_depth hT hpath) (by decide)) hmessage
      (by omega) hpacket
  · intro text text' cell h h'
    obtain ⟨cs, hcarries⟩ := hok text cell h
    obtain ⟨cs', hcarries'⟩ := hok text' cell h'
    rw [hcarries.bytes, hcarries'.bytes, hcarries.snake.unique hcarries'.snake]

/-- A writer on builders that are what they hold. -/
def plainBitWriter : BitWriter .plain := fun (b : Contents) bytes offset bits =>
  Contents.fitting (b.1 ++ ((byteBits bytes).drop offset).take bits, b.2)

theorem plain_snakes : Snakes .plain id plainBitWriter where
  writeBits _ _ _ _ _ := Contents.writes_fitting trivial _
  build _ _ := ⟨_, rfl⟩

/-- What `hex::encode` writes is taken, with `0x` in front, unless it is too long. -/
theorem not_unsnakeable_encode (hex : HexCrate) {bytes : List UInt8} (h : bytes.length ≤ maxCellDepth * 127) :
    ¬ Unsnakeable (messageBody ("0x" ++ hex.encode bytes)) := by
  rw [messageBody, stripPrefix_append, Option.getD_some, Unsnakeable, hex.toList_encode, length_encodeChars]
  rintro (hlong | hodd | ⟨c, hc, hno⟩)
  · omega
  · omega
  · obtain ⟨n, hn, rfl⟩ := mem_encodeChars hc
    rw [hexDigit?_digit hn] at hno
    cases hno

theorem hexToCells_faithful_fourBytes : ∃ cell cs,
    hexToCells .plain plainBitWriter .plain ("0x" ++ HexCrate.plain.encode [0xde, 0xad, 0xbe, 0xef]) = .ok cell ∧
      Snake cell cs ∧ cs.length ≤ maxCellDepth := by
  have hgood := not_unsnakeable_encode .plain (show [0xde, 0xad, 0xbe, 0xef].length ≤ maxCellDepth * 127 by decide)
  obtain ⟨cell, cs, hcell, hsnake, -, -, hcount⟩ :=
    (hexToCells_faithful TonCore.plain_lawful plain_snakes .plain).2.1 _ hgood
  exact ⟨cell, cs, hcell, hsnake, hcount⟩

end Packet

end Pillar.Ton
