/-
Facts about BCS: what the reader of a ULEB128 accepts and returns, when a decoded
config is laid out as its lengths say, and that a transaction kind is read back
from its bytes.
-/
import Pillar.Leb128
import Pillar.SuiBcs

namespace Pillar.SuiBcs

open Bits Abi Leb128

/-! ## Masks and shifts -/

theorem toNat_and_127 (b : UInt8) : (b &&& 0x7f).toNat = b.toNat % 128 := by
  rw [UInt8.toNat_and]
  exact Nat.and_two_pow_sub_one_eq_mod b.toNat 7

theorem and_128_iff (b : UInt8) : b &&& 0x80 = 0 ↔ b.toNat < 128 := by
  have hbytes : ∀ n : Fin 256, n.val &&& 128 = 0 ↔ n.val < 128 := by decide +kernel
  rw [← UInt8.toNat_inj, UInt8.toNat_and]
  exact hbytes ⟨b.toNat, b.toNat_lt⟩

theorem toNat_or_128 {b : UInt8} (h : b.toNat < 128) : (b ||| 0x80).toNat = b.toNat + 128 := by
  have hbytes : ∀ n : Fin 128, n.val ||| 128 = n.val + 128 := by decide +kernel
  rw [UInt8.toNat_or]
  exact hbytes ⟨b.toNat, h⟩

/-- A group put above the ones read so far, as far as it fits. -/
theorem toNat_or_shiftLeft {result x : UInt64} {shift : Nat} (hshift : shift < 64)
    (hresult : result.toNat < 2 ^ shift) :
    (result ||| (x <<< UInt64.ofNat shift)).toNat = (result.toNat + 2 ^ shift * x.toNat) % 2 ^ 64 := by
  have hamount : (UInt64.ofNat shift).toNat % 64 = shift := by
    rw [UInt64.toNat_ofNat_of_lt' (hshift.trans (by decide)), Nat.mod_eq_of_lt hshift]
  have hsplit : (2 : Nat) ^ 64 = 2 ^ shift * 2 ^ (64 - shift) := by
    rw [← Nat.pow_add]
    congr 1
    omega
  have hhigh : x.toNat <<< shift % 2 ^ 64 = 2 ^ shift * (x.toNat % 2 ^ (64 - shift)) := by
    rw [Nat.shiftLeft_eq, Nat.mul_comm, hsplit, Nat.mul_mod_mul_left]
  have hfits : 2 ^ shift * (x.toNat % 2 ^ (64 - shift)) + result.toNat < 2 ^ 64 := by
    have hlt : x.toNat % 2 ^ (64 - shift) + 1 ≤ 2 ^ (64 - shift) := Nat.mod_lt _ (by positivity)
    calc 2 ^ shift * (x.toNat % 2 ^ (64 - shift)) + result.toNat
        < 2 ^ shift * (x.toNat % 2 ^ (64 - shift)) + 2 ^ shift := by omega
      _ = 2 ^ shift * (x.toNat % 2 ^ (64 - shift) + 1) := by rw [Nat.mul_add, Nat.mul_one]
      _ ≤ 2 ^ shift * 2 ^ (64 - shift) := Nat.mul_le_mul_left _ hlt
      _ = 2 ^ 64 := hsplit.symm
  rw [UInt64.toNat_or, UInt64.toNat_shiftLeft, hamount, hhigh, Nat.or_comm,
    ← Nat.two_pow_add_eq_or_of_lt hresult, ← Nat.mod_eq_of_lt hfits, ← hhigh, Nat.shiftLeft_eq, Nat.mod_add_mod]
  congr 1
  ring

/-! ## What is written -/

theorem toNat_shiftRight_7 (value : UInt64) : (value >>> 7).toNat = value.toNat / 128 := by
  rw [UInt64.toNat_shiftRight]
  exact Nat.shiftRight_eq_div_pow _ 7

theorem toNat_low_group (value : UInt64) : (value &&& 0x7f).toUInt8.toNat = value.toNat % 128 := by
  have hmask : (value &&& 0x7f).toNat = value.toNat % 128 := by
    rw [UInt64.toNat_and]
    exact Nat.and_two_pow_sub_one_eq_mod _ 7
  rw [UInt64.toNat_toUInt8, hmask]
  omega

theorem writeUleb128_eq (value : UInt64) : writeUleb128 value = encode value.toNat := by
  fun_induction writeUleb128 value with
  | case1 value byte h =>
    have hzero : value.toNat / 128 = 0 := by rw [← toNat_shiftRight_7, h]; rfl
    have hsmall : value.toNat < 128 := by omega
    rw [encode_small hsmall]
    congr 1
    rw [← UInt8.toNat_inj, toNat_low_group, toNat_byte (by omega)]
    omega
  | case2 value byte h ih =>
    have hlarge : 128 ≤ value.toNat := by
      by_contra hlt
      exact h (UInt64.toNat_inj.mp (by rw [toNat_shiftRight_7, UInt64.toNat_zero]; omega))
    rw [encode_large hlarge, ih, toNat_shiftRight_7]
    congr 1
    rw [← UInt8.toNat_inj, toNat_or_128 (by rw [toNat_low_group]; omega), toNat_low_group, toNat_byte (by omega)]

/-! ## `Reader` -/

theorem reads_take (len : Nat) (c : Cursor UInt8) :
    Reads (take len) c (fun bytes text => bytes = text ∧ text.length = len) where
  sound bytes c' h := by
    unfold take at h
    split at h
    next => cases h
    next stop hstop =>
      have hstop := checkedAdd_eq_some hstop
      split at h
      next hle =>
        cases h
        refine ⟨_, ⟨rfl, ?_⟩, List.take_prefix _ _, ?_⟩
        · rw [List.length_take, List.length_drop]
          omega
        · rw [List.length_take, List.length_drop, Cursor.advance, Nat.min_eq_left (by omega), hstop]
      next => cases h
  complete hc bytes text := by
    rintro ⟨rfl, rfl⟩ hat
    have hinside := hc.advance hat
    have hle : c.offset + bytes.length ≤ c.items.length := hinside.1
    obtain ⟨rest, hrest⟩ := hat
    rw [take, checkedAdd_of_le (hle.trans hc.2)]
    simp only [if_pos hle]
    rw [← hrest, List.take_left]
    rfl

theorem reads_takeByte (c : Cursor UInt8) : Reads takeByte c (fun b text => text = [b]) := by
  refine ((reads_take 1 c).bind (H := fun bytes _ b text => bytes = [b] ∧ text = []) ?_).congr fun b text => ?_
  · rintro bytes first ⟨rfl, hlen⟩ -
    obtain ⟨b, rfl⟩ := List.length_eq_one_iff.mp hlen
    refine (reads_pure b).congr fun b' text => ?_
    simp only [List.cons.injEq, and_true, eq_comm]
  · constructor
    · rintro ⟨bytes, first, second, rfl, ⟨rfl, -⟩, rfl, rfl⟩
      rfl
    · rintro rfl
      exact ⟨[b], [b], [], rfl, ⟨rfl, rfl⟩, rfl, rfl⟩

/-- The groups above `shift`, whose last is not shifted out whole. -/
def Uleb (result shift : Nat) (v : UInt64) (text : List UInt8) : Prop :=
  Terminated text ∧ shift + 7 * text.length < 71 ∧ v.toNat = (result + 2 ^ shift * value text) % 2 ^ 64

/-- What is left to read after one byte. -/
def UlebRest (result : UInt64) (shift : Nat) (byte : UInt8) (v : UInt64) (text : List UInt8) : Prop :=
  shift < 64 ∧ if byte.toNat < 128 then text = [] ∧ v.toNat = (result.toNat + 2 ^ shift * byte.toNat) % 2 ^ 64
    else Uleb (result.toNat + 2 ^ shift * (byte.toNat % 128)) (shift + 7) v text

theorem uleb_iff {result : UInt64} {shift : Nat} {v : UInt64} {text : List UInt8} :
    (∃ byte rest, text = byte :: rest ∧ UlebRest result shift byte v rest) ↔ Uleb result.toNat shift v text := by
  constructor
  · rintro ⟨byte, rest, rfl, hshift, h⟩
    split at h
    next hlast =>
      obtain ⟨rfl, hv⟩ := h
      refine ⟨.last hlast, by simp only [List.length_singleton]; omega, ?_⟩
      rw [hv, value_cons, value_nil, Nat.mod_eq_of_lt hlast, Nat.mul_zero, Nat.add_zero]
    next hmore =>
      obtain ⟨hterminated, hlen, hv⟩ := h
      refine ⟨.more (not_lt.mp hmore) hterminated, by rw [List.length_cons]; omega, ?_⟩
      rw [hv, value_cons, Nat.pow_add]
      congr 1
      ring
  · rintro ⟨hterminated, hlen, hv⟩
    cases hterminated with
    | @last byte hlast =>
      refine ⟨byte, [], rfl, by simp only [List.length_singleton] at hlen; omega, ?_⟩
      rw [if_pos hlast, hv, value_cons, value_nil, Nat.mod_eq_of_lt hlast, Nat.mul_zero, Nat.add_zero]
      exact ⟨rfl, rfl⟩
    | @more byte rest hmore hrest =>
      rw [List.length_cons] at hlen
      refine ⟨byte, rest, rfl, by have := hrest.length_pos; omega, ?_⟩
      rw [if_neg (not_lt.mpr hmore)]
      refine ⟨hrest, by omega, ?_⟩
      rw [hv, value_cons, Nat.pow_add]
      congr 1
      ring

theorem reads_uleb128From (result : UInt64) (shift : Nat) (c : Cursor UInt8) (hresult : result.toNat < 2 ^ shift) :
    Reads (uleb128From result shift) c (Uleb result.toNat shift) := by
  -- The induction is on how far the shift is from its end.
  induction hn : 64 - shift using Nat.strong_induction_on generalizing result shift c with
  | h n ih =>
    rw [uleb128From]
    refine ((reads_takeByte c).bind (H := fun byte _ => UlebRest result shift byte) ?_).congr fun v text => ?_
    · rintro byte _ rfl -
      split
      next hend => exact (reads_fail _).congr fun v text => ⟨False.elim, fun h => absurd h.1 (not_lt.mpr hend)⟩
      next hend =>
        have hshift := not_le.mp hend
        have hgroup := toNat_or_shiftLeft (x := (byte &&& 0x7f).toUInt64) hshift hresult
        rw [UInt8.toNat_toUInt64, toNat_and_127] at hgroup
        simp only [and_128_iff]
        split
        next hlast =>
          refine (reads_pure _).congr fun v text => ?_
          rw [Nat.mod_eq_of_lt hlast] at hgroup
          rw [UlebRest, if_pos hlast, ← hgroup, UInt64.toNat_inj]
          exact ⟨fun h => ⟨hshift, h.2, h.1⟩, fun h => ⟨h.2.2, h.2.1⟩⟩
        next hmore =>
          have hbound : result.toNat + 2 ^ shift * (byte.toNat % 128) < 2 ^ (shift + 7) := by
            have hlt : byte.toNat % 128 + 1 ≤ 128 := by omega
            calc result.toNat + 2 ^ shift * (byte.toNat % 128)
                < 2 ^ shift + 2 ^ shift * (byte.toNat % 128) := by omega
              _ = 2 ^ shift * (byte.toNat % 128 + 1) := by ring
              _ ≤ 2 ^ shift * 128 := Nat.mul_le_mul_left _ hlt
              _ = 2 ^ (shift + 7) := by rw [Nat.pow_add]
          refine (ih (64 - (shift + 7)) (by omega) _ _ _ ?_ rfl).congr fun v text => ?_
          · rw [hgroup]
            exact lt_of_le_of_lt (Nat.mod_le _ _) hbound
          · rw [UlebRest, if_neg hmore, Uleb, Uleb, hgroup, Nat.mod_add_mod]
            exact ⟨fun h => ⟨hshift, h⟩, And.right⟩
    · rw [← uleb_iff]
      constructor
      · rintro ⟨byte, first, rest, rfl, rfl, h⟩
        exact ⟨byte, rest, rfl, h⟩
      · rintro ⟨byte, rest, rfl, h⟩
        exact ⟨byte, [byte], rest, rfl, rfl, h⟩

/-- **What the reader of a ULEB128 accepts**: a terminated text of at most ten
bytes, for its value with the bits from 64 on dropped. -/
theorem reads_uleb128 (c : Cursor UInt8) : Reads uleb128 c fun v text =>
    Terminated text ∧ text.length ≤ 10 ∧ v.toNat = value text % 2 ^ 64 := by
  refine (reads_uleb128From 0 0 c (by decide)).congr fun v text => ?_
  rw [Uleb, UInt64.toNat_zero, Nat.pow_zero, Nat.one_mul, Nat.zero_add, Nat.zero_add]
  constructor
  · rintro ⟨h, hlen, hv⟩
    exact ⟨h, by omega, hv⟩
  · rintro ⟨h, hlen, hv⟩
    exact ⟨h, by omega, hv⟩

theorem reads_takeLe (n : Nat) (c : Cursor UInt8) :
    Reads (takeLe n) c (fun value text => value < 256 ^ n ∧ text = leBytes n value) := by
  refine ((reads_take n c).bind (H := fun bytes _ value text => value = ofBytes bytes.reverse ∧ text = []) ?_).congr
    fun value text => ?_
  · rintro bytes first ⟨rfl, hlen⟩ -
    refine (Reads.unless _ fun _ => reads_pure (ofBytes bytes.reverse)).congr fun value text => ?_
    simp only [hlen, ne_eq, not_true_eq_false, not_false_eq_true, true_and]
  · constructor
    · rintro ⟨bytes, first, second, rfl, ⟨rfl, rfl⟩, rfl, rfl⟩
      have hlt := ofBytes_lt bytes.reverse
      have hback := bytesOf_ofBytes bytes.reverse
      rw [List.length_reverse] at hlt hback
      refine ⟨hlt, ?_⟩
      have hbe : (beBytes bytes.length (ofBytes bytes.reverse)).val = bytes.reverse := hback
      rw [List.append_nil, leBytes, hbe, List.reverse_reverse]
    · rintro ⟨hlt, rfl⟩
      refine ⟨_, _, [], (List.append_nil _).symm, ⟨rfl, ?_⟩, ?_, rfl⟩
      · rw [leBytes, List.length_reverse, Bytes.length_val]
      · rw [leBytes, List.reverse_reverse]
        exact (ofBytes_bytesOf hlt).symm

theorem reads_u64Le (c : Cursor UInt8) : Reads u64Le c (fun v text => text = leBytes 8 v.toNat) := by
  refine (reads_takeLe 8 c).map.congr fun v text => ?_
  constructor
  · rintro ⟨value, rfl, hvalue, rfl⟩
    rw [UInt64.toNat_ofNat_of_lt' hvalue]
  · rintro rfl
    exact ⟨v.toNat, UInt64.ofNat_toNat.symm, v.toNat_lt, rfl⟩

theorem reads_address (c : Cursor UInt8) : Reads address c (fun a text => text = a.val) := by
  refine ((reads_take 32 c).bind (H := fun bytes _ (a : Bytes 32) text => a.val = bytes ∧ text = []) ?_).congr
    fun a text => ?_
  · rintro bytes first ⟨rfl, hlen⟩ -
    rw [dif_pos hlen]
    refine (reads_pure _).congr fun a text => ?_
    rw [← Subtype.val_inj]
  · constructor
    · rintro ⟨bytes, first, second, rfl, ⟨rfl, -⟩, ha, rfl⟩
      rw [List.append_nil, ha]
    · rintro rfl
      exact ⟨a.val, a.val, [], (List.append_nil _).symm, ⟨rfl, a.length_val⟩, rfl, rfl⟩

/-! ## Lengths -/

/-- A length as the reader takes it, and one that is the number it spells. -/
def Counts (text : List UInt8) (n : Nat) : Prop := Terminated text ∧ text.length ≤ 10 ∧ n = value text % 2 ^ 64
def Spells (text : List UInt8) (n : Nat) : Prop := Terminated text ∧ value text = n

/-- Nine bytes that go on, and a last one that `u64` has no room for. -/
def Overlong (bytes : List UInt8) : Prop := ∃ start last, start.length = 9 ∧ (∀ b ∈ start, 128 ≤ b.toNat) ∧
  2 ≤ last.toNat ∧ last.toNat < 128 ∧ start ++ [last] <+: bytes

theorem Overlong.append {text : List UInt8} (h : Overlong text) (rest : List UInt8) : Overlong (text ++ rest) := by
  obtain ⟨start, last, hlen, hstart, hlow, hhigh, hprefix⟩ := h
  exact ⟨start, last, hlen, hstart, hlow, hhigh, hprefix.trans (List.prefix_append _ _)⟩

theorem value_concat_nine {start : List UInt8} {last : UInt8} (hlen : start.length = 9) (hlast : last.toNat < 128) :
    value (start ++ [last]) = value start + 2 ^ 63 * last.toNat ∧ value start < 2 ^ 63 := by
  have hlt := value_lt start
  rw [hlen] at hlt
  rw [value_append, hlen, value_cons, value_nil, Nat.mod_eq_of_lt hlast]
  exact ⟨rfl, hlt⟩

/-- A text the reader takes stands for more than a `u64` just when it is overlong. -/
theorem overlong_iff {text : List UInt8} (h : Terminated text) (hlen : text.length ≤ 10) :
    Overlong text ↔ 2 ^ 64 ≤ value text := by
  constructor
  · rintro ⟨start, last, hstartLen, hstart, hlow, hhigh, rest, hrest⟩
    have hsame := (terminated_concat hstart hhigh).eq_of_append h (hrest.trans (List.append_nil text).symm)
    rw [← hsame, (value_concat_nine hstartLen hhigh).1]
    omega
  · intro hlarge
    obtain ⟨start, last, rfl, hstart, hlast⟩ := h.exists_concat
    rw [List.length_append, List.length_singleton] at hlen
    by_cases hnine : start.length = 9
    · obtain ⟨hvalue, hlt⟩ := value_concat_nine hnine hlast
      exact ⟨start, last, hnine, hstart, by omega, hlast, List.prefix_refl _⟩
    · have hlt := value_lt (start ++ [last])
      have hbits : 7 * (start ++ [last]).length ≤ 63 := by
        rw [List.length_append, List.length_singleton]
        omega
      have hpow := Nat.pow_le_pow_right (show 0 < 2 by decide) hbits
      omega

theorem Counts.spells {text : List UInt8} {n : Nat} (h : Counts text n) (hfits : ¬ Overlong text) : Spells text n := by
  rw [overlong_iff h.1 h.2.1, not_le] at hfits
  exact ⟨h.1, by rw [h.2.2, Nat.mod_eq_of_lt hfits]⟩

theorem Counts.not_overlong {text : List UInt8} {n : Nat} (h : Counts text n) (hspells : Spells text n) :
    ¬ Overlong text := by
  rw [overlong_iff h.1 h.2.1, not_le, hspells.2, h.2.2]
  exact Nat.mod_lt _ (by decide)

/-! ## Configs -/

/-- The bytes of a config, with `text` and `text'` where its lengths stand. -/
def configBytes (c : SuiUlnConfig) (text text' : List UInt8) : List UInt8 :=
  leBytes 8 c.confirmations.toNat ++ (text ++ c.requiredDvns.flatMap Subtype.val ++
    (text' ++ c.optionalDvns.flatMap Subtype.val ++ [c.optionalDvnThreshold]))

/-- The layout a config has: each length spells how many addresses follow. -/
def Layout (bytes : List UInt8) (c : SuiUlnConfig) : Prop := ∃ text text', bytes = configBytes c text text' ∧
  Spells text c.requiredDvns.length ∧ Spells text' c.optionalDvns.length

/-- The layout the reader takes. -/
def LayoutAsRead (bytes : List UInt8) (c : SuiUlnConfig) (text text' : List UInt8) : Prop :=
  bytes = configBytes c text text' ∧ Counts text c.requiredDvns.length ∧ Counts text' c.optionalDvns.length

/-- The bytes of a config one of whose lengths is overlong. -/
def Miscounts (bytes : List UInt8) : Prop :=
  ∃ c text text', LayoutAsRead bytes c text text' ∧ (Overlong text ∨ Overlong text')

theorem reads_addressVec (c : Cursor UInt8) : Reads addressVec c (fun l text =>
    ∃ u, text = u ++ l.flatMap Subtype.val ∧ Counts u l.length) := by
  refine ((reads_uleb128 c).bind fun len _ _ _ => Reads.times reads_address len.toNat _).congr fun l text => ?_
  constructor
  · rintro ⟨len, u, rest, rfl, ⟨hterminated, hlen, hvalue⟩, hcount, hl⟩
    exact ⟨u, by rw [each_texts.mp hl], hterminated, hlen, hcount.trans hvalue⟩
  · rintro ⟨u, rfl, hterminated, hlen, hcount⟩
    have hlt : l.length < 2 ^ 64 := hcount ▸ Nat.mod_lt _ (by decide)
    have hto : (UInt64.ofNat l.length).toNat = l.length := UInt64.toNat_ofNat_of_lt' hlt
    exact ⟨.ofNat l.length, u, _, rfl, ⟨hterminated, hlen, hto.trans hcount⟩, hto.symm, each_texts.mpr rfl⟩

theorem reads_ulnConfig (cursor : Cursor UInt8) : Reads ulnConfig cursor (fun c text =>
    ∃ u u', LayoutAsRead text c u u') := by
  refine ((reads_u64Le cursor).bind fun confirmations _ _ _ => (reads_addressVec _).bind fun required _ _ _ =>
    (reads_addressVec _).bind fun optional _ _ _ => (reads_takeByte _).bind fun threshold _ _ _ =>
    reads_pure (⟨confirmations, required, optional, threshold⟩ : SuiUlnConfig)).congr fun c text => ?_
  constructor
  · rintro ⟨confirmations, _, _, rfl, rfl, required, _, _, rfl, ⟨u, rfl, hu⟩, optional, _, _, rfl, ⟨u', rfl, hu'⟩,
      threshold, _, _, rfl, rfl, rfl, rfl⟩
    exact ⟨u, u', by rw [configBytes, List.append_nil], hu, hu'⟩
  · rintro ⟨u, u', rfl, hu, hu'⟩
    exact ⟨c.confirmations, _, _, rfl, rfl, c.requiredDvns, _, _, rfl, ⟨u, rfl, hu⟩, c.optionalDvns, _, _, rfl,
      ⟨u', rfl, hu'⟩, c.optionalDvnThreshold, _, [], (List.append_nil _).symm, rfl, rfl, rfl⟩

variable {bytes : List UInt8}

theorem decodeSuiUlnConfig_eq_ok (hbytes : bytes.length ≤ usizeMax) {c : SuiUlnConfig} :
    decodeSuiUlnConfig bytes = .ok c ↔ ∃ u u', LayoutAsRead bytes c u u' := by
  constructor
  · intro h
    obtain ⟨⟨c', reader⟩, hread, h⟩ := bindOk_iff.mp h
    obtain ⟨text, hlayout, hat, rfl⟩ := (reads_ulnConfig _).sound _ _ hread
    simp only at h
    split at h
    next => cases h
    next hend =>
      cases h
      have hall : text = bytes := by
        refine List.IsPrefix.eq_of_length hat ?_
        simpa using hend
      rwa [hall] at hlayout
  · intro hlayout
    have hat : At bytes 0 bytes := List.prefix_refl _
    have hread := (reads_ulnConfig ⟨bytes, 0⟩).complete ⟨Nat.zero_le _, hbytes⟩ c bytes hlayout hat
    rw [decodeSuiUlnConfig, hread, Exec.ok_bind]
    simp [Cursor.advance]

theorem uleb128_eq_ok (hbytes : bytes.length ≤ usizeMax) {v : UInt64} {n : Nat} :
    uleb128 ⟨bytes, 0⟩ = .ok (v, ⟨bytes, n⟩) ↔ n ≤ bytes.length ∧ Terminated (bytes.take n) ∧ n ≤ 10 ∧
      v.toNat = value (bytes.take n) % 2 ^ 64 := by
  constructor
  · intro h
    obtain ⟨text, ⟨hterminated, hlen, hv⟩, ⟨rest, hrest⟩, hcursor⟩ := (reads_uleb128 _).sound _ _ h
    have hn : n = text.length := by simpa [Cursor.advance] using hcursor
    have hbytesEq : bytes = text ++ rest := hrest.symm
    rw [hn, hbytesEq, List.take_left]
    exact ⟨by simp, hterminated, hlen, hv⟩
  · rintro ⟨hn, hterminated, hlen, hv⟩
    have hlength : (bytes.take n).length = n := by rw [List.length_take, Nat.min_eq_left hn]
    have hread := (reads_uleb128 ⟨bytes, 0⟩).complete ⟨Nat.zero_le _, hbytes⟩ v (bytes.take n)
      ⟨hterminated, by rw [hlength]; exact hlen, hv⟩ (List.take_prefix _ _)
    rw [hread, hlength, Cursor.advance, Nat.zero_add]

/-! ## When lengths are exact -/

/-- The reader returns the number the bytes it consumed spell. -/
def UlebExact (bytes : List UInt8) : Prop := ∀ v n, uleb128 ⟨bytes, 0⟩ = .ok (v, ⟨bytes, n⟩) →
  v.toNat = ∑ i ∈ Finset.range n, (bytes.getD i 0).toNat % 128 * 2 ^ (7 * i)

/-- A decoded config is laid out as its lengths say. -/
def ConfigExact (bytes : List UInt8) : Prop := ∀ c, decodeSuiUlnConfig bytes = .ok c → Layout bytes c

theorem value_take {n : Nat} (h : n ≤ bytes.length) :
    value (bytes.take n) = ∑ i ∈ Finset.range n, (bytes.getD i 0).toNat % 128 * 2 ^ (7 * i) := by
  rw [value, List.length_take, Nat.min_eq_left h]
  refine Finset.sum_congr rfl fun i hi => ?_
  rw [List.getD_eq_getElem?_getD, List.getD_eq_getElem?_getD, List.getElem?_take_of_lt (Finset.mem_range.mp hi)]

theorem ulebExact_iff (hbytes : bytes.length ≤ usizeMax) : UlebExact bytes ↔ ¬ Overlong bytes := by
  constructor
  · rintro hexact ⟨start, last, hlen, hstart, hlow, hhigh, rest, rfl⟩
    have hterminated := terminated_concat hstart hhigh
    have hten : (start ++ [last]).length = 10 := by rw [List.length_append, hlen, List.length_singleton]
    have htake : (start ++ [last] ++ rest).take 10 = start ++ [last] := by rw [← hten, List.take_left]
    have hle : 10 ≤ (start ++ [last] ++ rest).length := by rw [List.length_append, hten]; omega
    have hto : (UInt64.ofNat (value (start ++ [last]) % 2 ^ 64)).toNat = value (start ++ [last]) % 2 ^ 64 :=
      UInt64.toNat_ofNat_of_lt' (Nat.mod_lt _ (by decide))
    have hread := (uleb128_eq_ok hbytes (v := .ofNat (value (start ++ [last]) % 2 ^ 64)) (n := 10)).mpr
      ⟨hle, by rw [htake]; exact hterminated, le_refl _, by rw [htake, hto]⟩
    have hvalue := hexact _ _ hread
    rw [← value_take hle, htake, hto] at hvalue
    have hlarge := (overlong_iff hterminated hten.le).mp ⟨start, last, hlen, hstart, hlow, hhigh, List.prefix_refl _⟩
    have hmod := Nat.mod_lt (value (start ++ [last])) (show 0 < 2 ^ 64 by decide)
    omega
  · intro hfits v n h
    obtain ⟨hn, hterminated, hlen, hv⟩ := (uleb128_eq_ok hbytes).mp h
    have hlength : (bytes.take n).length = n := by rw [List.length_take, Nat.min_eq_left hn]
    have hsmall : ¬ 2 ^ 64 ≤ value (bytes.take n) := by
      rw [← overlong_iff hterminated (by rw [hlength]; exact hlen)]
      intro hover
      have happend := hover.append (bytes.drop n)
      rw [List.take_append_drop] at happend
      exact hfits happend
    rw [hv, Nat.mod_eq_of_lt (not_le.mp hsmall), value_take hn]

/-- The texts of a config's lengths are where they are. -/
theorem configBytes_injective {c : SuiUlnConfig} {u u' w w' : List UInt8} (hu : Terminated u) (hu' : Terminated u')
    (hw : Terminated w) (hw' : Terminated w') (h : configBytes c u u' = configBytes c w w') : u = w ∧ u' = w' := by
  have hrest := List.append_cancel_left h
  rw [List.append_assoc, List.append_assoc, List.append_assoc, List.append_assoc] at hrest
  have hfirst := hu.eq_of_append hw hrest
  subst hfirst
  have hsecond := List.append_cancel_left (List.append_cancel_left hrest)
  exact ⟨rfl, hu'.eq_of_append hw' hsecond⟩

theorem configExact_iff (hbytes : bytes.length ≤ usizeMax) : ConfigExact bytes ↔ ¬ Miscounts bytes := by
  constructor
  · rintro hexact ⟨c, u, u', hlayout, hover⟩
    obtain ⟨w, w', heq, hw, hw'⟩ := hexact c ((decodeSuiUlnConfig_eq_ok hbytes).mpr ⟨u, u', hlayout⟩)
    obtain ⟨rfl, rfl⟩ := configBytes_injective hlayout.2.1.1 hlayout.2.2.1 hw.1 hw'.1 (hlayout.1.symm.trans heq)
    rcases hover with hover | hover
    · exact hlayout.2.1.not_overlong hw hover
    · exact hlayout.2.2.not_overlong hw' hover
  · intro hfits c h
    obtain ⟨u, u', hlayout⟩ := (decodeSuiUlnConfig_eq_ok hbytes).mp h
    refine ⟨u, u', hlayout.1, hlayout.2.1.spells fun hover => ?_, hlayout.2.2.spells fun hover => ?_⟩
    · exact hfits ⟨c, u, u', hlayout, .inl hover⟩
    · exact hfits ⟨c, u, u', hlayout, .inr hover⟩

/-- **When lengths are exact.** For every byte string: what the reader of a
ULEB128 returns is the number it consumed, and a decoded config is laid out as
its lengths say, just when the string does not start with an overlong number and
is not a config with an overlong length. -/
theorem lengths_exact_iff (hbytes : bytes.length ≤ usizeMax) :
    UlebExact bytes ∧ ConfigExact bytes ↔ ¬ Overlong bytes ∧ ¬ Miscounts bytes := by
  rw [ulebExact_iff hbytes, configExact_iff hbytes]

theorem Overlong.length_le (h : Overlong bytes) : 10 ≤ bytes.length := by
  obtain ⟨start, last, hlen, -, -, -, hprefix⟩ := h
  have hle := hprefix.length_le
  rwa [List.length_append, hlen, List.length_singleton] at hle

theorem length_configBytes (c : SuiUlnConfig) (text text' : List UInt8) :
    8 + text.length + text'.length < (configBytes c text text').length := by
  simp only [configBytes, leBytes, List.length_append, List.length_reverse, Bytes.length_val, List.length_singleton]
  omega

/-- A one-byte number, which is no config. -/
theorem lengths_exact_five : UlebExact [5] ∧ ConfigExact [5] := by
  refine (lengths_exact_iff (by decide)).mpr ⟨fun h => absurd h.length_le (by decide), ?_⟩
  rintro ⟨c, text, text', ⟨hbytes, -, -⟩, -⟩
  have hlen := length_configBytes c text text'
  rw [← hbytes, List.length_singleton] at hlen
  omega

/-- The first number that `u64` has no room for. -/
def twoPow64 : List UInt8 := List.replicate 9 128 ++ [2]

/-- It is read as zero, to its end. -/
theorem uleb128_twoPow64 : uleb128 ⟨twoPow64, 0⟩ = .ok (0, ⟨twoPow64, 10⟩) ∧
    ∑ i ∈ Finset.range 10, (twoPow64.getD i 0).toNat % 128 * 2 ^ (7 * i) = 2 ^ 64 ∧ ¬ UlebExact twoPow64 := by
  have hterminated : Terminated twoPow64 := by
    refine terminated_concat (fun b hb => ?_) (by decide)
    rw [List.eq_of_mem_replicate hb]
    decide
  have hsum : ∑ i ∈ Finset.range 10, (twoPow64.getD i 0).toNat % 128 * 2 ^ (7 * i) = 2 ^ 64 := by decide +kernel
  have hread : uleb128 ⟨twoPow64, 0⟩ = .ok (0, ⟨twoPow64, 10⟩) := by
    refine (uleb128_eq_ok (by decide)).mpr ⟨by decide, hterminated, le_refl _, ?_⟩
    rw [value_take (by decide), hsum]
    rfl
  refine ⟨hread, hsum, fun hexact => ?_⟩
  have hvalue := hexact _ _ hread
  rw [hsum] at hvalue
  exact absurd hvalue (by decide)

end Pillar.SuiBcs
