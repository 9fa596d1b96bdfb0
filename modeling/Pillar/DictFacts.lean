/-
`dict256_get_ref` is map lookup.

Reading a node's label back is a fact about its three forms, matching it is a
prefix test on the key's bits, and the loop follows the derivation of the
`Hashmap`: `consumed` and `remaining` add up to the key all the way down.
-/
import Pillar.Dict

namespace Pillar.Ton

variable {T : TonCore} {written : T.Builder → Contents} {ahead : T.Parser → Contents}

/-! ## Key bits -/

theorem getElem?_flatMap_eight {α β : Type} (f : α → List β) (hf : ∀ a, (f a).length = 8) :
    ∀ (l : List α) (i : Nat), (l.flatMap f)[i]? = l[i / 8]?.bind fun a => (f a)[i % 8]?
  | [], i => by simp
  | a :: l, i => by
    rw [List.flatMap_cons]
    by_cases hi : i < 8
    · rw [List.getElem?_append_left (by rw [hf]; exact hi), Nat.div_eq_of_lt hi, Nat.mod_eq_of_lt hi]
      rfl
    · rw [List.getElem?_append_right (by rw [hf]; omega), getElem?_flatMap_eight f hf l, hf,
        show i / 8 = (i - 8) / 8 + 1 by omega, show i % 8 = (i - 8) % 8 by omega]
      rfl

theorem byteBit_eq : ∀ n < 256, ∀ j < 8,
    (Bits.ofNat 8 n)[j]? = .some ((UInt8.ofNat n >>> UInt8.ofNat (7 - j)) &&& 1 == 1) := by
  decide +kernel

@[simp] theorem length_keyBits (key : Vector UInt8 32) : (keyBits key).length = 256 := by
  simp [keyBits, List.length_flatMap]

/-- A bit within the key is read without a panic. -/
theorem keyBit_eq {key : Vector UInt8 32} {index : Nat} {bit : Bool} (h : (keyBits key)[index]? = .some bit) :
    keyBit key index = .ok bit := by
  rw [keyBits, getElem?_flatMap_eight _ (fun _ => Bits.length_ofNat ..)] at h
  obtain ⟨byte, hbyte, hbit⟩ := Option.bind_eq_some_iff.mp h
  have hget : key[index / 8]? = .some byte := by simpa using hbyte
  rw [byteBit_eq byte.toNat byte.toNat_lt (index % 8) (Nat.mod_lt _ (by omega))] at hbit
  rw [keyBit, hget, Exec.get_some, Exec.ok_bind, ← Option.some.inj hbit, UInt8.ofNat_toNat]
  rfl

/-! ## Labels -/

theorem readUnary_spec (hT : T.Lawful written ahead) : ∀ (n fuel len : Nat) (rest : List Bool) {p : T.Parser},
    (ahead p).1 = List.replicate n true ++ false :: rest → n < fuel →
    ∃ p', readUnary T fuel p len = .ok (len + n, p') ∧ ahead p' = (rest, (ahead p).2)
  | _, 0, _, _, _, _, hf => absurd hf (Nat.not_lt_zero _)
  | 0, fuel + 1, len, rest, p, hp, _ => by
    obtain ⟨p', hread, hahead⟩ := hT.readBit_cons p false rest hp
    refine ⟨p', ?_, hahead⟩
    rw [readUnary, hread]
    rfl
  | n + 1, fuel + 1, len, rest, p, hp, hf => by
    obtain ⟨q, hread, hahead⟩ := hT.readBit_cons p true (List.replicate n true ++ false :: rest) hp
    obtain ⟨p', hok, hp'⟩ := readUnary_spec hT n fuel (len + 1) rest (p := q) (by rw [hahead]) (by omega)
    refine ⟨p', ?_, by rw [hp', hahead]⟩
    rw [readUnary, hread]
    show readUnary T fuel q (len + 1) = _
    rw [hok, Nat.add_assoc, Nat.add_comm 1 n]

/-- What a parser past the length of a label has ahead of it. -/
def LabelAhead (ahead : T.Parser → Contents) (label : List Bool) (refs : List TonCell) (sameBit : Option Bool)
    (p : T.Parser) : Prop :=
  (ahead p).2 = refs ∧ match sameBit with
    | .none => ∃ rest, (ahead p).1 = label ++ rest
    | .some bit => label = List.replicate label.length bit

/-- A label is read back, whichever form it is in. -/
theorem readLabel_spec (hT : T.Lawful written ahead) {node : TonCell} {m : Nat} {label : List Bool}
    (h : HmLabel m label node.bits) :
    label.length ≤ m ∧ ∃ sameBit p, readLabel T node m = .ok (label.length, sameBit, p) ∧
      LabelAhead ahead label node.refs sameBit p := by
  have hparser := hT.parser node
  generalize hbits : node.bits = bits at h hparser
  have hwidth : m < 2 ^ boundedUintBits m := Nat.lt_size_self m
  cases h with
  | short label hm =>
    obtain ⟨p, h1, hp⟩ := hT.readBit_cons (T.parser node) false (List.replicate label.length true ++ false :: label)
      (by rw [hparser]; rfl)
    obtain ⟨q, h2, hq⟩ := readUnary_spec hT label.length (node.dataLenBits + 1) 0 label (p := p)
      (by rw [hp]) (by simp [TonCell.dataLenBits, hbits]; omega)
    refine ⟨hm, .none, q, ?_, by rw [hq, hp, hparser], [], by rw [hq, List.append_nil]⟩
    simp only [readLabel, h1, mapErr_ok, Exec.ok_bind, h2, Nat.zero_add]
    rfl
  | long label hm =>
    obtain ⟨p, h1, hp⟩ := hT.readBit_cons (T.parser node) true (false :: Bits.ofNat (boundedUintBits m) label.length ++
      label) (by rw [hparser]; rfl)
    obtain ⟨q, h2, hq⟩ := hT.readBit_cons p false (Bits.ofNat (boundedUintBits m) label.length ++ label)
      (by rw [hp]; rfl)
    obtain ⟨r, h3, hr⟩ := hT.readNum_append (p := q) (by rw [hq]) (by omega)
    refine ⟨hm, .none, r, ?_, by rw [hr, hq, hp, hparser], [], by rw [hr, List.append_nil]⟩
    simp only [readLabel, h1, mapErr_ok, Exec.ok_bind, h2, h3]
    rfl
  | same bit n hm =>
    obtain ⟨p, h1, hp⟩ := hT.readBit_cons (T.parser node) true (true :: bit :: Bits.ofNat (boundedUintBits m) n)
      (by rw [hparser])
    obtain ⟨q, h2, hq⟩ := hT.readBit_cons p true (bit :: Bits.ofNat (boundedUintBits m) n) (by rw [hp])
    obtain ⟨r, h3, hr⟩ := hT.readBit_cons q bit (Bits.ofNat (boundedUintBits m) n) (by rw [hq])
    obtain ⟨r', h4, hr'⟩ := hT.readNum_append (p := r) (n := boundedUintBits m) (by rw [hr, List.append_nil]) (by omega)
    refine ⟨by simpa using hm, .some bit, r', ?_, by rw [hr', hr, hq, hp, hparser], by simp⟩
    simp only [readLabel, h1, mapErr_ok, Exec.ok_bind, h2, h3, h4, List.length_replicate]
    rfl

theorem labelBit_spec (hT : T.Lawful written ahead) {refs : List TonCell} {sameBit : Option Bool} {bit : Bool}
    {label : List Bool} {p : T.Parser} (h : LabelAhead ahead (bit :: label) refs sameBit p) :
    ∃ q, labelBit T sameBit p = .ok (bit, q) ∧ LabelAhead ahead label refs sameBit q := by
  obtain ⟨hrefs, hbits⟩ := h
  cases sameBit with
  | some b =>
    simp only [List.length_cons, List.replicate_succ, List.cons.injEq] at hbits
    obtain ⟨rfl, hbits⟩ := hbits
    exact ⟨p, rfl, hrefs, hbits⟩
  | none =>
    obtain ⟨rest, hbits⟩ := hbits
    obtain ⟨q, hq, hahead⟩ := hT.readBit_cons p bit (label ++ rest) hbits
    exact ⟨q, by simp only [labelBit, hq, mapErr_ok], by rw [hahead]; exact hrefs, rest, by rw [hahead]⟩

/-- A label is matched with the key's bits from `index` on. -/
theorem matchLabel_spec (hT : T.Lawful written ahead) (key : Vector UInt8 32) {refs : List TonCell}
    {sameBit : Option Bool} : ∀ (label : List Bool) (index : Nat) {p : T.Parser},
    LabelAhead ahead label refs sameBit p → index + label.length ≤ 256 →
    ∃ same p', matchLabel T key sameBit label.length index p = .ok (same, p') ∧ (ahead p').2 = refs ∧
      (same = true ↔ label <+: (keyBits key).drop index)
  | [], index, p, hl, _ => ⟨true, p, rfl, hl.1, by simp⟩
  | bit :: label, index, p, hl, hle => by
    rw [List.length_cons] at hle
    have hlt : index < (keyBits key).length := by
      rw [length_keyBits]
      omega
    have hkey : keyBit key index = .ok (keyBits key)[index] := keyBit_eq (List.getElem?_eq_getElem hlt)
    obtain ⟨q, hread, hq⟩ := labelBit_spec hT hl
    simp only [List.drop_eq_getElem_cons hlt, List.length_cons, matchLabel, hread, Exec.ok_bind, hkey]
    by_cases hb : bit = (keyBits key)[index]
    · obtain ⟨same, p', hok, hrefs, hiff⟩ := matchLabel_spec hT key label (index + 1) hq (by omega)
      refine ⟨same, p', ?_, hrefs, ?_⟩
      · simp only [hb, bne_self_eq_false, Bool.false_eq_true, if_false]
        exact hok
      · rw [hiff, List.cons_prefix_cons]
        simp [hb]
    · refine ⟨false, q, ?_, hq.1, ?_⟩
      · simp only [bne_iff_ne, ne_eq, hb, not_false_eq_true, if_true]
        rfl
      · rw [List.cons_prefix_cons]
        simp [hb]

/-! ## Descending -/

/-- A node whose label is not the key's next bits: the key is not there. -/
theorem descend_absent (hT : T.Lawful written ahead) {node : TonCell} {key : Vector UInt8 32} {n consumed : Nat}
    {label : List Bool} (hplain : node.Plain) (hlabel : HmLabel n label node.bits) (hsum : consumed + n = 256)
    (hno : ¬ label <+: (keyBits key).drop consumed) :
    descend T node key n consumed = .ok (.absent, n, consumed) := by
  obtain ⟨hle, sameBit, p, hread, hahead⟩ := readLabel_spec hT hlabel
  obtain ⟨same, q, hmatch, -, hiff⟩ := matchLabel_spec hT key label consumed hahead (by omega)
  have hsame : same = false := by simpa [hno] using hiff
  subst hsame
  simp only [descend, requireOrdinary_of_plain hplain, Exec.ok_bind, hread, hmatch, if_neg (not_lt.mpr hle)]
  rfl

/-- A leaf whose label is the rest of the key. -/
theorem descend_leaf (hT : T.Lawful written ahead) {node value : TonCell} {key : Vector UInt8 32} {n consumed : Nat}
    {label : List Bool} (hplain : node.Plain) (hlabel : HmLabel n label node.bits) (hlen : label.length = n)
    (hrefs : node.refs = [value]) (hsum : consumed + n = 256) (hyes : label <+: (keyBits key).drop consumed) :
    ∃ after, descend T node key n consumed = .ok (.value value, 0, after) := by
  subst hlen
  obtain ⟨hle, sameBit, p, hread, hahead⟩ := readLabel_spec hT hlabel
  obtain ⟨same, q, hmatch, hq, hiff⟩ := matchLabel_spec hT key label consumed hahead (by omega)
  have hsame : same = true := hiff.mpr hyes
  subst hsame
  obtain ⟨q', hnext, -⟩ := hT.readNextRef_cons q value [] (by rw [hq, hrefs])
  refine ⟨consumed + label.length, ?_⟩
  simp only [descend, requireOrdinary_of_plain hplain, Exec.ok_bind, hread, hmatch, if_neg (not_lt.mpr hle),
    Bool.not_true, Bool.false_eq_true, if_false, Exec.sub_of_le hle, Nat.sub_self, if_true, hnext, mapErr_ok]
  rfl

/-- A fork whose label is followed in the key by the branch's bit. -/
theorem descend_fork (hT : T.Lawful written ahead) {node left right : TonCell} {key : Vector UInt8 32}
    {n consumed rest : Nat} {label tail : List Bool} {branch : Bool} (hplain : node.Plain)
    (hlabel : HmLabel n label node.bits) (hlen : n = label.length + 1 + rest) (hrefs : node.refs = [left, right])
    (hsum : consumed + n = 256) (hkey : (keyBits key).drop consumed = label ++ branch :: tail) :
    descend T node key n consumed =
      .ok (.node (if branch then right else left), rest, consumed + label.length + 1) := by
  obtain ⟨hle, sameBit, p, hread, hahead⟩ := readLabel_spec hT hlabel
  obtain ⟨same, q, hmatch, hq, hiff⟩ := matchLabel_spec hT key label consumed hahead (by omega)
  have hsame : same = true := hiff.mpr (hkey ▸ List.prefix_append ..)
  subst hsame
  obtain ⟨q', hleft, hq'⟩ := hT.readNextRef_cons q left [right] (by rw [hq, hrefs])
  obtain ⟨q'', hright, -⟩ := hT.readNextRef_cons q' right [] (by rw [hq'])
  have hbit : keyBit key (consumed + label.length) = .ok branch := by
    refine keyBit_eq ?_
    have : ((keyBits key).drop consumed)[label.length]? = .some branch := by simp [hkey]
    rwa [List.getElem?_drop] at this
  have hrest : n - label.length = rest + 1 := by omega
  simp only [descend, requireOrdinary_of_plain hplain, Exec.ok_bind, hread, hmatch, if_neg (not_lt.mpr hle),
    Bool.not_true, Bool.false_eq_true, if_false, Exec.sub_of_le hle, hrest, Nat.add_eq_zero_iff, Nat.one_ne_zero,
    and_false, hbit, Exec.sub_of_le (Nat.le_add_left 1 rest), Nat.add_sub_cancel, hleft, hright, mapErr_ok]
  rfl

/-- The loop follows the tree down to what the map has at the key. -/
theorem dictLoop_spec (hT : T.Lawful written ahead) {key : Vector UInt8 32} {n : Nat}
    {m : List Bool → Option TonCell} {node : TonCell} (h : Hashmap n m node) : ∀ {fuel consumed : Nat},
    consumed + n = 256 → n < fuel → dictLoop T key fuel node n consumed = .ok (m ((keyBits key).drop consumed)) := by
  induction h with
  | @leaf n m node label value hplain hlabel hlen hrefs hm =>
    intro fuel consumed hsum hfuel
    obtain ⟨fuel, rfl⟩ := Nat.exists_eq_succ_of_ne_zero (Nat.ne_of_gt (Nat.zero_lt_of_lt hfuel))
    have hklen : ((keyBits key).drop consumed).length = n := by
      rw [List.length_drop, length_keyBits]
      omega
    rw [hm _ hklen]
    by_cases hyes : label <+: (keyBits key).drop consumed
    · obtain ⟨after, hd⟩ := descend_leaf hT hplain hlabel hlen hrefs hsum hyes
      rw [if_pos (hyes.eq_of_length (hlen.trans hklen.symm)).symm, dictLoop, hd]
      rfl
    · have hne : (keyBits key).drop consumed ≠ label := fun he => hyes (by rw [he])
      rw [if_neg hne, dictLoop, descend_absent hT hplain hlabel hsum hyes]
      rfl
  | @fork n m node label rest left right hplain hlabel hlen hrefs hm _ _ ihl ihr =>
    intro fuel consumed hsum hfuel
    obtain ⟨fuel, rfl⟩ := Nat.exists_eq_succ_of_ne_zero (Nat.ne_of_gt (Nat.zero_lt_of_lt hfuel))
    have hklen : ((keyBits key).drop consumed).length = n := by
      rw [List.length_drop, length_keyBits]
      omega
    by_cases hyes : label <+: (keyBits key).drop consumed
    · obtain ⟨after, hafter⟩ := hyes
      cases after with
      | nil =>
        have := congrArg List.length hafter
        rw [List.append_nil] at this
        omega
      | cons branch tail =>
        have htail : (keyBits key).drop (consumed + label.length + 1) = tail := by
          rw [show consumed + label.length + 1 = consumed + (label.length + 1) by omega, ← List.drop_drop, ← hafter,
            List.drop_append]
          simp
        rw [dictLoop, descend_fork hT hplain hlabel hlen hrefs hsum hafter.symm, ← hafter]
        simp only [Exec.ok_bind]
        cases branch with
        | false => rw [if_neg (by simp), ihl (by omega) (by omega), htail]
        | true => rw [if_pos rfl, ihr (by omega) (by omega), htail]
    · rw [dictLoop, descend_absent hT hplain hlabel hsum hyes]
      cases hmk : m ((keyBits key).drop consumed) with
      | none => rfl
      | some v => exact absurd (hm _ hklen (by rw [hmk]; rfl)) hyes

/-! ## Every cell -/

theorem keyBit_ok (key : Vector UInt8 32) {index : Nat} (h : index < 256) : ∃ bit, keyBit key index = .ok bit :=
  ⟨_, keyBit_eq (List.getElem?_eq_getElem (by rw [length_keyBits]; exact h))⟩

/-- A unary length ends with the bits of the cell. -/
theorem returns_readUnary (hT : T.Lawful written ahead) : ∀ (fuel len : Nat) (p : T.Parser),
    (ahead p).1.length < fuel → (readUnary T fuel p len).Returns
  | 0, _, _, h => absurd h (Nat.not_lt_zero _)
  | fuel + 1, len, p, h => by
    rw [readUnary]
    refine (returns_mapErr _).bind fun ⟨bit, q⟩ hread => ?_
    have hbits := hT.readBit_ok (mapErr_eq_ok.mp hread)
    rw [hbits, List.length_cons] at h
    cases bit with
    | true => exact returns_readUnary hT fuel (len + 1) q (by omega)
    | false => exact Exec.returns_ok _

theorem returns_readLabel (hT : T.Lawful written ahead) (node : TonCell) (remaining : Nat) :
    (readLabel T node remaining).Returns := by
  rw [readLabel]
  refine (returns_mapErr _).bind fun ⟨bit, q⟩ hread => ?_
  cases bit with
  | false =>
    refine Exec.Returns.bind (returns_readUnary hT _ _ _ ?_) fun _ _ => Exec.returns_ok _
    have hbits := hT.readBit_ok (mapErr_eq_ok.mp hread)
    rw [hT.parser] at hbits
    rw [TonCell.dataLenBits, show node.bits = _ from hbits, List.length_cons]
    omega
  | true =>
    refine (returns_mapErr _).bind fun ⟨bit', q'⟩ _ => ?_
    cases bit' with
    | false => exact (returns_mapErr _).bind fun _ _ => Exec.returns_ok _
    | true => exact (returns_mapErr _).bind fun _ _ => (returns_mapErr _).bind fun _ _ => Exec.returns_ok _

theorem returns_labelBit (sameBit : Option Bool) (p : T.Parser) : (labelBit T sameBit p).Returns := by
  cases sameBit with
  | some bit => exact Exec.returns_ok _
  | none => exact returns_mapErr _

/-- A label no longer than the rest of the key reads no bit beyond it. -/
theorem returns_matchLabel (key : Vector UInt8 32) (sameBit : Option Bool) : ∀ (len index : Nat) (p : T.Parser),
    index + len ≤ 256 → (matchLabel T key sameBit len index p).Returns
  | 0, _, _, _ => Exec.returns_ok _
  | len + 1, index, p, h => by
    obtain ⟨bit, hbit⟩ := keyBit_ok key (show index < 256 by omega)
    rw [matchLabel]
    refine (returns_labelBit sameBit p).bind fun ⟨labelBit, q⟩ _ => ?_
    simp only [hbit, Exec.ok_bind]
    split
    · exact Exec.returns_ok _
    · exact returns_matchLabel key sameBit len (index + 1) q (by omega)

/-- A descent to another node leaves less of the key, and accounts for all of it. -/
def Narrows (remaining : Nat) : Descent × Nat × Nat → Prop
  | (.node _, remaining', consumed') => consumed' + remaining' = 256 ∧ remaining' < remaining
  | _ => True

theorem descend_yields (hT : T.Lawful written ahead) (node : TonCell) (key : Vector UInt8 32)
    {remaining consumed : Nat} (hsum : consumed + remaining = 256) :
    (descend T node key remaining consumed).Yields (Narrows remaining) := by
  rw [descend]
  refine (returns_requireOrdinary node).yields_bind fun _ _ => ?_
  refine (returns_readLabel hT node remaining).yields_bind fun ⟨len, sameBit, p⟩ _ => ?_
  dsimp only
  split
  · exact Exec.yields_err _ _
  next hle =>
    refine (returns_matchLabel key sameBit len consumed p (by omega)).yields_bind fun ⟨same, q⟩ _ => ?_
    cases same with
    | false => exact Exec.yields_ok trivial
    | true =>
      simp only [Bool.not_true, Bool.false_eq_true, if_false, Exec.sub_of_le (not_lt.mp hle), Exec.ok_bind]
      split
      · exact (returns_mapErr _).yields_bind fun _ _ => Exec.yields_ok trivial
      next hpos =>
        obtain ⟨branch, hbranch⟩ := keyBit_ok key (show consumed + len < 256 by omega)
        simp only [hbranch, Exec.ok_bind, Exec.sub_of_le (Nat.one_le_iff_ne_zero.mpr hpos)]
        refine (returns_mapErr _).yields_bind fun _ _ => (returns_mapErr _).yields_bind fun _ _ => ?_
        refine Exec.yields_ok ⟨?_, ?_⟩ <;> omega

/-- The loop ends within a descent for each key bit, and one more. -/
theorem returns_dictLoop (hT : T.Lawful written ahead) (key : Vector UInt8 32) :
    ∀ (fuel : Nat) (node : TonCell) (remaining consumed : Nat), consumed + remaining = 256 → remaining < fuel →
    (dictLoop T key fuel node remaining consumed).Returns
  | 0, _, _, _, _, h => absurd h (Nat.not_lt_zero _)
  | fuel + 1, node, remaining, consumed, hsum, hfuel => by
    obtain ⟨hret, hnext⟩ := descend_yields hT node key hsum
    rw [dictLoop]
    refine hret.bind fun ⟨d, remaining', consumed'⟩ hd => ?_
    cases d with
    | value cell => exact Exec.returns_ok _
    | absent => exact Exec.returns_ok _
    | node next =>
      obtain ⟨hsum', hlt⟩ := hnext _ hd
      exact returns_dictLoop hT key fuel next remaining' consumed' hsum' (by omega)

/-! ## Lookup -/

theorem HmLabel.bits_ne_nil {m : Nat} {label bits : List Bool} (h : HmLabel m label bits) : bits ≠ [] := by
  cases h <;> simp

theorem Hashmap.root {n : Nat} {m : List Bool → Option TonCell} {cell : TonCell} (h : Hashmap n m cell) :
    cell.Plain ∧ cell.bits ≠ [] := by
  cases h with
  | leaf _ _ hplain hlabel => exact ⟨hplain, hlabel.bits_ne_nil⟩
  | fork _ _ _ _ hplain hlabel => exact ⟨hplain, hlabel.bits_ne_nil⟩

/-- **`dict256_get_ref` is map lookup**: it finds what a dictionary has at a key
and nothing else, finds nothing in an empty plain cell, and on every cell ends
within 257 descents without a key bit out of range. -/
theorem dict256GetRef_is_lookup (hT : T.Lawful written ahead) (root : TonCell) (key : Vector UInt8 32) :
    (∀ m, Hashmap dictKeyBits m root → dict256GetRef T root key = .ok (m (keyBits key))) ∧
    (root.Plain → root.dataLenBits = 0 → dict256GetRef T root key = .ok .none) ∧
    (dict256GetRef T root key).Returns := by
  refine ⟨fun m h => ?_, fun hplain hbits => ?_, ?_⟩
  · obtain ⟨hplain, hbits⟩ := h.root
    have hlen : root.dataLenBits ≠ 0 := fun h0 => hbits (List.eq_nil_of_length_eq_zero h0)
    rw [dict256GetRef, requireOrdinary_of_plain hplain, Exec.ok_bind, if_neg hlen]
    exact dictLoop_spec hT h (by rfl) (by decide)
  · rw [dict256GetRef, requireOrdinary_of_plain hplain, Exec.ok_bind, if_pos hbits]
    rfl
  · refine (returns_requireOrdinary root).bind fun _ _ => ?_
    split
    · exact Exec.returns_ok _
    · exact returns_dictLoop hT key 257 root dictKeyBits 0 rfl (by decide)

/-- The all-zero key with the empty cell, under an `hml_same` label. -/
def zeroDict : TonCell :=
  .mk .ordinary 0 (true :: true :: false :: Bits.ofNat 9 256) [.mk .ordinary 0 [] []]

theorem lookup_zeroDict : dict256GetRef .plain zeroDict (Vector.replicate 32 0) = .ok (.some (.mk .ordinary 0 [] [])) ∧
    dict256GetRef .plain zeroDict (Vector.replicate 32 1) = .ok .none := by
  let m : List Bool → Option TonCell := fun k =>
    if k = List.replicate 256 false then .some (.mk .ordinary 0 [] []) else .none
  have h : Hashmap dictKeyBits m zeroDict :=
    .leaf (List.replicate 256 false) (.mk .ordinary 0 [] []) ⟨rfl, rfl⟩ (.same false 256 le_rfl)
      List.length_replicate rfl fun _ _ => rfl
  have hzero : keyBits (Vector.replicate 32 0) = List.replicate 256 false := by decide +kernel
  have hone : keyBits (Vector.replicate 32 1) ≠ List.replicate 256 false := by decide +kernel
  refine ⟨?_, ?_⟩
  · rw [(dict256GetRef_is_lookup TonCore.plain_lawful zeroDict _).1 m h]
    exact congrArg Except.ok (if_pos hzero)
  · rw [(dict256GetRef_is_lookup TonCore.plain_lawful zeroDict _).1 m h]
    exact congrArg Except.ok (if_neg hone)

/-- A cell with no data bits over a pruned branch, so of level one. -/
def overPruned : TonCell := .mk .ordinary 1 [] [prunedBranch]

theorem overPruned_not_lookup : overPruned.dataLenBits = 0 ∧
    dict256GetRef .plain overPruned (Vector.replicate 32 0) ≠ .ok .none := by
  refine ⟨rfl, fun h => ?_⟩
  obtain ⟨_, hordinary, _⟩ := Exec.bind_ok_iff.mp h
  cases hordinary

end Pillar.Ton
