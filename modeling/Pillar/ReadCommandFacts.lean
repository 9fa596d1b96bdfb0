/-
The read command's grammar: the decoder accepts the texts of this grammar and
no others, returns their fields, and never returns one value for two texts.
-/
import Pillar.AbiFacts
import Pillar.ReadCommand

namespace Pillar.Read

open Bits Hex Abi

/-! ## The grammar -/

/-- A flag and eight bytes. -/
def ReadTimeMarker.encode : ReadTimeMarker → List UInt8
  | .timestamp t => [0] ++ (beBytes 8 t.toNat).val
  | .blockNumber n => [1] ++ (beBytes 8 n.toNat).val

structure BaseSyntax where
  targetEid : UInt32
  marker : ReadTimeMarker
  blockConfirmation : UInt16
  toAddress : Bytes 20

def BaseSyntax.encode (b : BaseSyntax) : List UInt8 :=
  (beBytes 4 b.targetEid.toNat).val ++
  (b.marker.encode ++ ((beBytes 2 b.blockConfirmation.toNat).val ++ b.toAddress.val))

/-- A request: its size is that of its base and its calldata, in two bytes. -/
structure RequestSyntax where
  label : Bytes 2
  base : BaseSyntax
  calldata : List UInt8
  size_lt : 35 + calldata.length < 2 ^ 16

def RequestSyntax.encode (r : RequestSyntax) : List UInt8 :=
  [1] ++ (r.label.val ++ ([0, 1] ++ ((beBytes 2 (35 + r.calldata.length)).val ++ (r.base.encode ++ r.calldata))))

def EvmReadComputeSetting.byte : EvmReadComputeSetting → UInt8
  | .onlyMap => 0
  | .onlyReduce => 1
  | .mapReduce => 2

structure ComputeSyntax where
  setting : EvmReadComputeSetting
  base : BaseSyntax

def ComputeSyntax.encode (k : ComputeSyntax) : List UInt8 := [1] ++ ([0, 1] ++ ([k.setting.byte] ++ k.base.encode))

structure CommandSyntax where
  label : Bytes 2
  requests : List RequestSyntax
  compute : Option ComputeSyntax
  count_pos : 1 ≤ requests.length
  count_le : requests.length ≤ 256

def CommandSyntax.header (s : CommandSyntax) : List UInt8 :=
  [0, 1] ++ (s.label.val ++ (beBytes 2 s.requests.length).val)

/-- The requests, one after the other. -/
def CommandSyntax.span (s : CommandSyntax) : List UInt8 := s.requests.flatMap RequestSyntax.encode

/-- The compute, or nothing. -/
def CommandSyntax.tail (s : CommandSyntax) : List UInt8 := (s.compute.map ComputeSyntax.encode).getD []

def CommandSyntax.encode (s : CommandSyntax) : List UInt8 := s.header ++ (s.span ++ s.tail)

section

variable (hex : HexCrate)

/-- The fields of a request whose bytes are `raw`. -/
def requestOf (raw : List UInt8) (b : BaseSyntax) (calldata : List UInt8) : EvmReadRequest where
  request := "0x" ++ hex.encode raw
  targetEid := b.targetEid
  marker := b.marker
  blockConfirmation := b.blockConfirmation
  toAddress := "0x" ++ hex.encode b.toAddress.val
  calldata := "0x" ++ hex.encode calldata

def RequestSyntax.decoded (r : RequestSyntax) : EvmReadRequest := requestOf hex r.encode r.base r.calldata

def ComputeSyntax.decoded (k : ComputeSyntax) : EvmReadCompute where
  targetEid := k.base.targetEid
  marker := k.base.marker
  blockConfirmation := k.base.blockConfirmation
  toAddress := "0x" ++ hex.encode k.base.toAddress.val
  setting := k.setting

def CommandSyntax.decoded (s : CommandSyntax) : EvmReadCommand where
  globalVersion := 1
  appCommandLabel := hex.encode s.label.val
  requests := s.requests.map (RequestSyntax.decoded hex)
  compute := s.compute.map (ComputeSyntax.decoded hex)

end

/-! ## The cursor -/

theorem reads_bytes (len : Nat) (c : Cursor UInt8) :
    Reads (readBytes len) c (fun bytes text => bytes = text ∧ text.length = len) where
  sound bytes c' h := by
    unfold readBytes at h
    split at h
    next => cases h
    next stop hstop =>
      have hstop := checkedAdd_eq_some hstop
      split at h
      next => cases h
      next hle =>
        rw [Exec.slice, if_pos ⟨by omega, not_lt.mp hle⟩, Exec.ok_bind] at h
        cases h
        refine ⟨_, ⟨rfl, ?_⟩, List.take_prefix _ _, ?_⟩
        · rw [List.length_take, List.length_drop]
          omega
        · rw [List.length_take, List.length_drop, Cursor.advance, Nat.min_eq_left (by omega)]
          congr 1
          omega
  complete hc bytes text := by
    rintro ⟨rfl, rfl⟩ hat
    have hinside := hc.advance hat
    have hle : c.offset + bytes.length ≤ c.items.length := hinside.1
    rw [readBytes, checkedAdd_of_le (hle.trans hc.2)]
    simp only [gt_iff_lt, not_lt.mpr hle, if_false]
    rw [slice_of_at hat hc.1 rfl, Exec.ok_bind]
    rfl

theorem reads_u8 (c : Cursor UInt8) : Reads readU8 c (fun b text => text = [b]) := by
  refine ((reads_bytes 1 c).bind (H := fun bytes _ b text => bytes = [b] ∧ text = []) ?_).congr fun b text => ?_
  · rintro bytes first ⟨rfl, hlen⟩ -
    obtain ⟨b, rfl⟩ := List.length_eq_one_iff.mp hlen
    refine (reads_call (by rw [List.getElem?_cons_zero, Exec.get_some])).congr fun b' text => ?_
    simp only [List.cons.injEq, and_true, eq_comm]
  · constructor
    · rintro ⟨bytes, first, second, rfl, ⟨rfl, -⟩, rfl, rfl⟩
      rfl
    · rintro rfl
      exact ⟨[b], [b], [], rfl, ⟨rfl, rfl⟩, rfl, rfl⟩

theorem reads_be (n : Nat) (error : String) (c : Cursor UInt8) :
    Reads (readBe n error) c (fun value text => value < 256 ^ n ∧ text = (beBytes n value).val) := by
  refine ((reads_bytes n c).bind (H := fun bytes _ value text => value = ofBytes bytes ∧ text = []) ?_).congr
    fun value text => ?_
  · rintro bytes first ⟨rfl, hlen⟩ -
    refine (Reads.unless _ fun _ => reads_pure (ofBytes bytes)).congr fun value text => ?_
    simp only [hlen, ne_eq, not_true_eq_false, not_false_eq_true, true_and]
  · constructor
    · rintro ⟨bytes, first, second, rfl, ⟨rfl, rfl⟩, rfl, rfl⟩
      exact ⟨ofBytes_lt bytes, by rw [List.append_nil]; exact (bytesOf_ofBytes bytes).symm⟩
    · rintro ⟨hlt, rfl⟩
      exact ⟨_, _, [], (List.append_nil _).symm, ⟨rfl, Bytes.length_val _⟩, (ofBytes_bytesOf hlt).symm, rfl⟩

/-- A number type whose values are those of `n` bytes. -/
theorem reads_word {T : Type} {ofNat : Nat → T} {toNat : T → Nat} {n : Nat} {error : String} (c : Cursor UInt8)
    (hof : ∀ value < 256 ^ n, toNat (ofNat value) = value) (hto : ∀ x, ofNat (toNat x) = x)
    (hlt : ∀ x, toNat x < 256 ^ n) :
    Reads (ofNat <$> readBe n error) c (fun x text => text = (beBytes n (toNat x)).val) := by
  refine (reads_be n error c).map.congr fun x text => ?_
  constructor
  · rintro ⟨value, rfl, hvalue, rfl⟩
    rw [hof value hvalue]
  · rintro rfl
    exact ⟨toNat x, (hto x).symm, hlt x, rfl⟩

theorem reads_u16 (c : Cursor UInt8) : Reads readU16 c (fun n text => text = (beBytes 2 n.toNat).val) :=
  reads_word c (fun _ => UInt16.toNat_ofNat_of_lt') (fun _ => UInt16.ofNat_toNat) UInt16.toNat_lt

theorem reads_u32 (c : Cursor UInt8) : Reads readU32 c (fun n text => text = (beBytes 4 n.toNat).val) :=
  reads_word c (fun _ => UInt32.toNat_ofNat_of_lt') (fun _ => UInt32.ofNat_toNat) UInt32.toNat_lt

theorem reads_u64 (c : Cursor UInt8) : Reads readU64 c (fun n text => text = (beBytes 8 n.toNat).val) :=
  reads_word c (fun _ => UInt64.toNat_ofNat_of_lt') (fun _ => UInt64.ofNat_toNat) UInt64.toNat_lt

theorem reads_hex (hex : HexCrate) (len : Nat) (c : Cursor UInt8) :
    Reads (readHex hex len) c (fun s text => s = hex.encode text ∧ text.length = len) := by
  refine (reads_bytes len c).map.congr fun s text => ?_
  constructor
  · rintro ⟨bytes, rfl, rfl, hlen⟩
    exact ⟨rfl, hlen⟩
  · rintro ⟨rfl, hlen⟩
    exact ⟨text, rfl, rfl, hlen⟩

/-! ## The decoders -/

theorem reads_marker (flag : UInt8) (c : Cursor UInt8) :
    Reads (decodeMarker flag) c (fun marker text => [flag] ++ text = marker.encode) := by
  unfold decodeMarker
  split
  next hflag =>
    refine (reads_u64 c).map.congr fun marker text => ?_
    subst hflag
    constructor
    · rintro ⟨t, rfl, rfl⟩
      rfl
    · intro h
      cases marker with
      | timestamp t => exact ⟨t, rfl, List.append_cancel_left h⟩
      | blockNumber n => exact absurd (List.head_eq_of_cons_eq h) (by decide)
  next hzero =>
    split
    next hflag =>
      refine (reads_u64 c).map.congr fun marker text => ?_
      subst hflag
      constructor
      · rintro ⟨t, rfl, rfl⟩
        rfl
      · intro h
        cases marker with
        | timestamp t => exact absurd (List.head_eq_of_cons_eq h) (by decide)
        | blockNumber n => exact ⟨n, rfl, List.append_cancel_left h⟩
    next hone =>
      refine (reads_fail _).congr fun marker text => ⟨False.elim, fun h => ?_⟩
      cases marker with
      | timestamp t => exact hzero (List.head_eq_of_cons_eq h)
      | blockNumber n => exact hone (List.head_eq_of_cons_eq h)

variable (hex : HexCrate)

theorem reads_base (c : Cursor UInt8) :
    Reads (decodeEvmReadBase hex) c (Spelled BaseSyntax.encode fun b =>
      (b.targetEid, b.marker, b.blockConfirmation, "0x" ++ hex.encode b.toAddress.val)) := by
  refine ((reads_u32 c).bind fun eid _ _ _ => (reads_u8 _).bind fun flag _ _ _ =>
    (reads_marker flag _).bind fun marker _ _ _ => (reads_u16 _).bind fun confirmation _ _ _ =>
    (reads_hex hex 20 _).bind fun address _ _ _ => reads_pure _).congr fun v text => ?_
  constructor
  · rintro ⟨eid, _, _, rfl, rfl, flag, _, _, rfl, rfl, marker, _, _, rfl, hmarker, confirmation, _, _, rfl, rfl,
      address, addressText, _, rfl, ⟨rfl, hlen⟩, rfl, rfl⟩
    refine ⟨⟨eid, marker, confirmation, addressText, hlen⟩, ?_, rfl⟩
    simp only [BaseSyntax.encode, ← hmarker, List.append_assoc, List.append_nil]
  · rintro ⟨b, rfl, rfl⟩
    obtain ⟨flag, rest, hmarker⟩ : ∃ flag rest, [flag] ++ rest = b.marker.encode := by
      cases b.marker with
      | timestamp t => exact ⟨0, _, rfl⟩
      | blockNumber n => exact ⟨1, _, rfl⟩
    refine ⟨b.targetEid, _, _, rfl, rfl, flag, [flag], _, ?_, rfl, b.marker, rest, _, rfl, hmarker,
      b.blockConfirmation, _, _, rfl, rfl, _, b.toAddress.val, [], (List.append_nil _).symm,
      ⟨rfl, b.toAddress.length_val⟩, rfl, rfl⟩
    rw [← hmarker, List.append_assoc]

@[simp] theorem BaseSyntax.length_encode (b : BaseSyntax) : b.encode.length = 35 := by
  cases hm : b.marker <;>
    simp only [encode, hm, ReadTimeMarker.encode, List.length_append, Bytes.length_val, List.length_singleton]

/-- What a request is, from its base on, after the text `before` of its start. -/
theorem reads_requestBody (before : List UInt8) {start size : Nat} {c : Cursor UInt8}
    (hbefore : At c.items start before) (hne : before ≠ []) (hstart : c.offset = start + before.length) :
    Reads (decodeRequestBody hex start size) c (fun r text => ∃ (b : BaseSyntax) (calldata : List UInt8),
      text = b.encode ++ calldata ∧ size = 35 + calldata.length ∧ r = requestOf hex (before ++ text) b calldata) := by
  refine Reads.congr (.step rfl ((reads_base hex c).bindSpelled fun b hb => .step rfl (.step (b := 35) ?_
    (.unless _ fun _ => (reads_hex hex (size - 35) _).bind fun s calldata _ hcalldata =>
      .step (b := before ++ (b.encode ++ calldata)) ?_ (reads_pure _))))) ?_
  · rw [Reader.call, Cursor.advance_offset, b.length_encode, Exec.sub_of_le (by omega), Exec.ok_bind]
    congr 2
    omega
  · -- The raw request is all that stands between its start and the cursor.
    have hbody : At c.items (start + before.length) (b.encode ++ calldata) := by
      rw [hstart] at hb
      exact hb.concat (by rwa [Cursor.advance_offset, hstart] at hcalldata)
    have hslice : (Exec.slice c.items start _ : Exec AppCoreError _) = .ok (before ++ (b.encode ++ calldata)) :=
      slice_of_at (hbefore.concat hbody) (hbefore.lt_length hne).le rfl
    rw [Reader.since]
    simp only [Cursor.advance_items, Cursor.advance_offset, hstart]
    rw [List.length_append, List.length_append] at hslice
    rw [Nat.add_assoc, Nat.add_assoc, hslice]
    rfl
  · intro r text
    constructor
    · rintro ⟨b, _, rfl, hle, s, calldata, _, rfl, ⟨rfl, hlen⟩, rfl, rfl⟩
      exact ⟨b, calldata, by rw [List.append_nil], by omega, by rw [List.append_nil]; rfl⟩
    · rintro ⟨b, calldata, rfl, rfl, rfl⟩
      exact ⟨b, _, rfl, by omega, _, calldata, [], (List.append_nil _).symm, ⟨rfl, by omega⟩, rfl, rfl⟩

theorem beBytes_one : (beBytes 2 (1 : UInt16).toNat).val = [0, 1] := by decide

/-- **A request**, as its grammar has it. -/
theorem reads_request (c : Cursor UInt8) :
    Reads (decodeEvmReadRequest hex) c (Spelled RequestSyntax.encode (RequestSyntax.decoded hex)) := by
  refine Reads.congr (.step rfl ((reads_u8 c).bind fun version v hv hatv => .unless _ fun _ =>
    (reads_hex hex 2 _).bind fun _ label _ hatl => (reads_u16 _).bind fun resolver r _ hatr => .unless _ fun _ =>
    (reads_u16 _).bind fun size z _ hatz => reads_requestBody hex (v ++ (label ++ (r ++ z))) ?_ ?_ ?_)) ?_
  · exact hatv.concat (hatl.concat (hatr.concat hatz))
  · rw [hv]
    exact List.cons_ne_nil _ _
  · simp only [Cursor.advance_offset, List.length_append, Nat.add_assoc]
  · intro req text
    constructor
    · rintro ⟨version, _, _, rfl, rfl, hversion, _, label, _, rfl, ⟨-, hlabel⟩, resolver, _, _, rfl, rfl, hresolver,
        size, _, _, rfl, rfl, b, calldata, rfl, hsize, rfl⟩
      rw [not_not] at hversion hresolver
      subst hversion hresolver
      have hlt : 35 + calldata.length < 2 ^ 16 := hsize ▸ size.toNat_lt
      refine ⟨⟨⟨label, hlabel⟩, b, calldata, hlt⟩, ?_, ?_⟩
      all_goals
        simp only [RequestSyntax.decoded, RequestSyntax.encode, beBytes_one, hsize, List.append_assoc, requestVersion]
    · rintro ⟨r, rfl, rfl⟩
      have hsize : (UInt16.ofNat (35 + r.calldata.length)).toNat = 35 + r.calldata.length :=
        UInt16.toNat_ofNat_of_lt' r.size_lt
      refine ⟨1, [1], _, rfl, rfl, not_not.mpr rfl, _, r.label.val, _, rfl, ⟨rfl, r.label.length_val⟩, 1,
        [0, 1], _, rfl,
        rfl, not_not.mpr rfl, .ofNat (35 + r.calldata.length), _, _, ?_, rfl, r.base, r.calldata, rfl, hsize, ?_⟩
      · rw [hsize]
      · simp only [RequestSyntax.decoded, RequestSyntax.encode, hsize, List.append_assoc]

theorem reads_setting (value : UInt8) (c : Cursor UInt8) :
    Reads (decodeSetting value) c (fun setting text => value = setting.byte ∧ text = []) := by
  unfold decodeSetting
  split
  next h =>
    subst h
    exact (reads_pure _).congr fun setting text => by cases setting <;> simp [EvmReadComputeSetting.byte]
  next hzero =>
    split
    next h =>
      subst h
      exact (reads_pure _).congr fun setting text => by cases setting <;> simp [EvmReadComputeSetting.byte]
    next hone =>
      split
      next h =>
        subst h
        exact (reads_pure _).congr fun setting text => by cases setting <;> simp [EvmReadComputeSetting.byte]
      next htwo =>
        exact (reads_fail _).congr fun setting text => by cases setting <;> simp [EvmReadComputeSetting.byte, *]

/-- **A compute**, as its grammar has it. -/
theorem reads_compute (c : Cursor UInt8) :
    Reads (decodeEvmReadCompute hex) c (Spelled ComputeSyntax.encode (ComputeSyntax.decoded hex)) := by
  refine Reads.congr ((reads_u8 c).bind fun version _ _ _ => .unless _ fun _ => (reads_u16 _).bind fun kind _ _ _ =>
    .unless _ fun _ => (reads_u8 _).bind fun value _ _ _ => (reads_setting value _).bind fun setting _ _ _ =>
    (reads_base hex _).bindSpelled fun b _ => reads_pure _) fun k text => ?_
  constructor
  · rintro ⟨version, _, _, rfl, rfl, hversion, kind, _, _, rfl, rfl, hkind, value, _, _, rfl, rfl, setting, _, _, rfl,
      ⟨rfl, rfl⟩, b, _, rfl, rfl, rfl⟩
    rw [not_not] at hversion hkind
    subst hversion hkind
    refine ⟨⟨setting, b⟩, ?_, rfl⟩
    simp only [ComputeSyntax.encode, beBytes_one, List.nil_append, List.append_nil, computeVersion]
  · rintro ⟨k, rfl, rfl⟩
    exact ⟨1, [1], _, rfl, rfl, not_not.mpr rfl, 1, [0, 1], _, rfl, rfl, not_not.mpr rfl, k.setting.byte,
      _, _, rfl, rfl,
      k.setting, [], _, rfl, ⟨rfl, rfl⟩, k.base, [], (List.append_nil _).symm, rfl, rfl⟩

@[simp] theorem ComputeSyntax.length_encode (k : ComputeSyntax) : k.encode.length = 39 := by
  simp only [encode, List.length_append, BaseSyntax.length_encode, List.length_cons, List.length_nil]

/-- There is a compute just when bytes are left. -/
theorem reads_optionalCompute (c : Cursor UInt8) :
    Reads (decodeCompute hex) c (fun o text => ∃ k : Option ComputeSyntax,
      (k.isSome = true ↔ c.offset < c.items.length) ∧ text = (k.map ComputeSyntax.encode).getD [] ∧
      o = k.map (ComputeSyntax.decoded hex)) := by
  refine .step rfl ?_
  split
  next hleft =>
    refine (reads_compute hex c).map.congr fun o text => ?_
    constructor
    · rintro ⟨_, rfl, k, rfl, rfl⟩
      exact ⟨.some k, by simp; omega, rfl, rfl⟩
    · rintro ⟨k, hk, rfl, rfl⟩
      obtain ⟨k, rfl⟩ := Option.isSome_iff_exists.mp (hk.mpr (by omega))
      exact ⟨_, rfl, k, rfl, rfl⟩
  next hleft =>
    refine (reads_pure _).congr fun o text => ?_
    constructor
    · rintro ⟨rfl, rfl⟩
      exact ⟨.none, by simp; omega, rfl, rfl⟩
    · rintro ⟨k, hk, rfl, rfl⟩
      cases k with
      | none => exact ⟨rfl, rfl⟩
      | some k => exact absurd (hk.mp rfl) (by omega)

@[simp] theorem CommandSyntax.length_header (s : CommandSyntax) : s.header.length = 6 := by
  simp only [header, List.length_append, Bytes.length_val, List.length_cons, List.length_nil]

/-- **A command**, as its grammar has it, to the last byte. -/
theorem reads_command (c : Cursor UInt8) :
    Reads (decodeCommand hex) c (fun cmd text => ∃ s : CommandSyntax,
      c.items.length = c.offset + text.length ∧ text = s.encode ∧ cmd = s.decoded hex) := by
  refine Reads.congrAt ((reads_u16 c).bind fun version _ _ _ => .unless _ fun _ => (reads_hex hex 2 _).bind
    fun label _ _ _ => (reads_u16 _).bind fun count _ _ _ => .unless _ fun _ => .unless _ fun _ =>
    (Reads.times (reads_request hex) count.toNat _).bind fun requests _ _ _ => (reads_optionalCompute hex _).bind
    fun compute _ _ _ => .step rfl (.unless _ fun _ => reads_pure _)) fun cmd text hat => ?_
  have hfits := hat.length_le
  rw [List.length_drop] at hfits
  constructor
  · rintro ⟨version, _, _, rfl, rfl, hversion, _, label, _, rfl, ⟨rfl, hlabel⟩, count, _, _, rfl, rfl, hmax, hzero,
      requests, _, _, rfl, ⟨hcount, hrequests⟩, _, _, _, rfl, ⟨k, -, rfl, rfl⟩, hleft, rfl, rfl⟩
    obtain ⟨ss, rfl, rfl⟩ := each_spelled.mp hrequests
    rw [not_not] at hversion
    subst hversion
    rw [List.length_map] at hcount
    have hpos : 1 ≤ ss.length := by
      rw [hcount]
      exact Nat.one_le_iff_ne_zero.mpr fun h => hzero (UInt16.toNat_inj.mp h)
    have hle : ss.length ≤ 256 := by
      rw [hcount]
      exact not_lt.mp hmax
    refine ⟨⟨⟨label, hlabel⟩, ss, k, hpos, hle⟩, ?_, ?_, rfl⟩
    · simp only [Cursor.advance_items, Cursor.advance_offset, List.length_append, List.length_nil] at hleft hfits ⊢
      omega
    · simp only [CommandSyntax.encode, CommandSyntax.header, CommandSyntax.span, CommandSyntax.tail,
        hcount, beBytes_one,
        List.append_assoc, List.append_nil, cmdVersion]
  · rintro ⟨s, hlen, rfl, rfl⟩
    have hcount : (UInt16.ofNat s.requests.length).toNat = s.requests.length :=
      UInt16.toNat_ofNat_of_lt' (Nat.lt_of_le_of_lt s.count_le (by decide))
    have hmax : ¬ UInt16.ofNat s.requests.length > maxReadRequests := by
      have := s.count_le
      rw [gt_iff_lt, UInt16.lt_iff_toNat_lt, hcount]
      exact not_lt.mpr this
    have hzero : UInt16.ofNat s.requests.length ≠ 0 := by
      intro h
      have hempty := congrArg UInt16.toNat h
      rw [hcount, UInt16.toNat_zero] at hempty
      have := s.count_pos
      omega
    refine ⟨1, [0, 1], _, ?_, rfl, not_not.mpr rfl, _, s.label.val, _, rfl, ⟨rfl, s.label.length_val⟩,
      .ofNat s.requests.length, _, _, rfl, rfl, hmax, hzero, s.requests.map (RequestSyntax.decoded hex), s.span, s.tail,
      rfl, ⟨by rw [List.length_map, hcount], each_spelled.mpr ⟨s.requests, rfl, rfl⟩⟩,
      s.compute.map (ComputeSyntax.decoded hex), s.tail, [], (List.append_nil _).symm,
      ⟨s.compute, ?_, rfl, rfl⟩, ?_, rfl,
      rfl⟩
    · simp only [CommandSyntax.encode, CommandSyntax.header, hcount, List.append_assoc]
    all_goals
      simp only [CommandSyntax.encode, CommandSyntax.length_header, List.length_append] at hlen
      simp only [Cursor.advance_items, Cursor.advance_offset, Bytes.length_val, List.length_cons, List.length_nil]
    · rw [hlen, CommandSyntax.tail]
      cases s.compute with
      | none =>
        simp only [Option.isSome_none, Option.map_none, Option.getD_none, List.length_nil,
          Bool.false_eq_true, false_iff]
        omega
      | some k =>
        simp only [Option.isSome_some, Option.map_some, Option.getD_some, ComputeSyntax.length_encode, true_iff]
        omega
    · omega

/-! ## The command -/

theorem RequestSyntax.length_encode_le (r : RequestSyntax) : r.encode.length ≤ 7 + 65535 := by
  have hsize := r.size_lt
  simp only [encode, List.length_append, Bytes.length_val, BaseSyntax.length_encode, List.length_cons, List.length_nil]
  omega

/-- No command is longer than a `usize` can say. -/
theorem CommandSyntax.length_encode_le (s : CommandSyntax) : s.encode.length ≤ usizeMax := by
  have hspan : s.span.length ≤ 256 * (7 + 65535) := by
    rw [span, List.length_flatMap]
    refine (List.sum_le_card_nsmul _ (7 + 65535) ?_).trans ?_
    · intro n hn
      obtain ⟨r, -, rfl⟩ := List.mem_map.mp hn
      exact r.length_encode_le
    · rw [List.length_map, smul_eq_mul]
      exact Nat.mul_le_mul_right _ s.count_le
  have htail : s.tail.length ≤ 39 := by
    rw [tail]
    cases s.compute <;> simp
  rw [encode, List.length_append, List.length_append, length_header]
  unfold usizeMax
  omega

variable {hex}

theorem decodeEvmReadCommand_eq_ok {cmd : String} {command : EvmReadCommand} :
    decodeEvmReadCommand hex cmd = .ok command ↔
      ∃ s : CommandSyntax, decodeHexBytes hex cmd = .ok s.encode ∧ command = s.decoded hex := by
  unfold decodeEvmReadCommand
  cases hbytes : decodeHexBytes hex cmd with
  | error halt => cases halt <;> exact ⟨fun h => (by cases h), fun ⟨_, h, _⟩ => (by cases h)⟩
  | ok bytes =>
    have hreads := reads_command hex ⟨bytes, 0⟩
    constructor
    · intro h
      obtain ⟨⟨command', c'⟩, hcommand, h⟩ := Exec.bind_ok_iff.mp h
      cases h
      obtain ⟨text, ⟨s, hlen, rfl, rfl⟩, hat, -⟩ := hreads.sound _ _ hcommand
      rw [Nat.zero_add] at hlen
      have hwhole : s.encode = bytes := List.IsPrefix.eq_of_length hat hlen.symm
      exact ⟨s, by rw [hwhole], rfl⟩
    · rintro ⟨s, hs, rfl⟩
      cases hs
      have hcommand := hreads.complete ⟨Nat.zero_le _, s.length_encode_le⟩ _ s.encode
        ⟨s, (Nat.zero_add _).symm, rfl, rfl⟩ (List.prefix_refl _)
      simp only [hcommand, Exec.ok_bind]

theorem ComputeSyntax.decoded_injective {k k' : ComputeSyntax} (h : k.decoded hex = k'.decoded hex) : k = k' := by
  obtain ⟨setting, eid, marker, confirmation, address⟩ := k
  obtain ⟨setting', eid', marker', confirmation', address'⟩ := k'
  simp only [decoded, EvmReadCompute.mk.injEq] at h
  obtain ⟨rfl, rfl, rfl, haddress, rfl⟩ := h
  rw [Subtype.ext (prefixed_injective haddress)]

/-- The raw requests spell the span, and with label, count and compute the command. -/
theorem CommandSyntax.decoded_injective {s s' : CommandSyntax} (h : s.decoded hex = s'.decoded hex) :
    s.encode = s'.encode := by
  rw [decoded, decoded, EvmReadCommand.mk.injEq] at h
  obtain ⟨-, hlabel, hrequests, hcompute⟩ := h
  have hraw : s.requests.map RequestSyntax.encode = s'.requests.map RequestSyntax.encode := by
    have htexts := congrArg (List.map EvmReadRequest.request) hrequests
    rw [List.map_map, List.map_map] at htexts
    have hinj : Function.Injective fun bytes : List UInt8 => "0x" ++ hex.encode bytes := fun _ _ => prefixed_injective
    refine hinj.list_map ?_
    rw [List.map_map, List.map_map]
    exact htexts
  have hcount : s.requests.length = s'.requests.length := by
    simpa only [List.length_map] using congrArg List.length hraw
  have hspan : s.span = s'.span := by
    rw [span, span, List.flatMap_def, List.flatMap_def, hraw]
  have htail : s.tail = s'.tail := by
    have hinj : Function.Injective (ComputeSyntax.decoded hex) := fun _ _ => ComputeSyntax.decoded_injective
    rw [tail, tail, Option.map_injective hinj hcompute]
  rw [encode, encode, header, header, hcount, hspan, htail, hex.encode_injective hlabel]

/-- **The decoder accepts the grammar of read commands and nothing else, and is
injective.** For any bytes, given as hex: the decoder returns a command just
when the bytes are the encoding of a command of the grammar, and then returns
that command's fields; the raw requests make up the bytes between the header of
six bytes and the compute or the end; and bytes that decode to one command are
the same. -/
theorem decodeEvmReadCommand_grammar (hex : HexCrate) {cmd : String} {bytes : List UInt8}
    (hcmd : decodeHexBytes hex cmd = .ok bytes) :
    ((∃ command, decodeEvmReadCommand hex cmd = .ok command) ↔ ∃ s : CommandSyntax, bytes = s.encode) ∧
    (∀ s : CommandSyntax, bytes = s.encode → decodeEvmReadCommand hex cmd = .ok (s.decoded hex)) ∧
    (∀ command, decodeEvmReadCommand hex cmd = .ok command → ∃ raw : List (List UInt8),
      command.requests.map EvmReadRequest.request = raw.map (fun r => "0x" ++ hex.encode r) ∧
      ∃ tail, bytes = bytes.take 6 ++ (raw.flatten ++ tail) ∧
        ((command.compute = .none ∧ tail = []) ∨
          ∃ k : ComputeSyntax, command.compute = .some (k.decoded hex) ∧ tail = k.encode)) ∧
    ∀ cmd' bytes' command, decodeHexBytes hex cmd' = .ok bytes' → decodeEvmReadCommand hex cmd = .ok command →
      decodeEvmReadCommand hex cmd' = .ok command → bytes = bytes' := by
  refine ⟨⟨?_, ?_⟩, ?_, ?_, ?_⟩
  · rintro ⟨command, h⟩
    obtain ⟨s, hs, -⟩ := decodeEvmReadCommand_eq_ok.mp h
    exact ⟨s, Except.ok.inj (hcmd.symm.trans hs)⟩
  · rintro ⟨s, rfl⟩
    exact ⟨_, decodeEvmReadCommand_eq_ok.mpr ⟨s, hcmd, rfl⟩⟩
  · rintro s rfl
    exact decodeEvmReadCommand_eq_ok.mpr ⟨s, hcmd, rfl⟩
  · intro command h
    obtain ⟨s, hs, rfl⟩ := decodeEvmReadCommand_eq_ok.mp h
    cases hcmd.symm.trans hs
    refine ⟨s.requests.map RequestSyntax.encode, ?_, s.tail, ?_, ?_⟩
    · simp only [CommandSyntax.decoded, List.map_map]
      rfl
    · rw [CommandSyntax.encode, List.take_left' s.length_header, CommandSyntax.span, List.flatMap_def]
    · cases hk : s.compute with
      | none => exact .inl ⟨by rw [CommandSyntax.decoded, hk]; rfl, by rw [CommandSyntax.tail, hk]; rfl⟩
      | some k => exact .inr ⟨k, by rw [CommandSyntax.decoded, hk]; rfl, by rw [CommandSyntax.tail, hk]; rfl⟩
  · intro cmd' bytes' command hcmd' h h'
    obtain ⟨s, hs, rfl⟩ := decodeEvmReadCommand_eq_ok.mp h
    obtain ⟨s', hs', he⟩ := decodeEvmReadCommand_eq_ok.mp h'
    cases hcmd.symm.trans hs
    cases hcmd'.symm.trans hs'
    exact CommandSyntax.decoded_injective he

/-- One request for block 9 of endpoint 30101, and no compute. -/
def oneRequest : CommandSyntax where
  label := ⟨[0, 7], rfl⟩
  requests := [⟨⟨[0, 1], rfl⟩, ⟨30101, .blockNumber 9, 12, ⟨List.replicate 20 10, Abi.length_target⟩⟩, [1, 2, 3, 4],
    by decide⟩]
  compute := .none
  count_pos := by decide
  count_le := by decide

theorem decodeEvmReadCommand_oneRequest :
    decodeHexBytes .plain (HexCrate.plain.encode oneRequest.encode) = .ok oneRequest.encode ∧
    decodeEvmReadCommand .plain (HexCrate.plain.encode oneRequest.encode) = .ok (oneRequest.decoded .plain) :=
  have hcmd := decodeHexBytes_encode oneRequest.encode
  ⟨hcmd, (decodeEvmReadCommand_grammar .plain hcmd).2.1 oneRequest rfl⟩

end Pillar.Read
