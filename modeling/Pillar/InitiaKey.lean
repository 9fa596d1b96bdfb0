/-
The Amino encoding of an Initia multisig key (`pillar-runtime`,
`validation_extra_context.rs`), whose hash is the address.

`validPoint` is whether `k256::PublicKey::from_sec1_bytes` takes the bytes.
-/
import Pillar.Base64
import Pillar.Core
import Pillar.Json
import Pillar.Leb128
import Pillar.Text

namespace Pillar.InitiaKey

/-! ## The code -/

/-- `append_uvarint`. -/
def appendUvarint (out : List UInt8) (value : Nat) : List UInt8 :=
  if value ≥ 0x80 then appendUvarint (out ++ [UInt8.ofNat value ||| 0x80]) (value >>> 7)
  else out ++ [UInt8.ofNat value]
termination_by value
decreasing_by
  rw [Nat.shiftRight_eq_div_pow]
  omega

def invalid {α : Type} : Exec AppCoreError α := Exec.err (.internal "Invalid Initia multisig public key")

def multisigType : String := "/cosmos.crypto.multisig.LegacyAminoPubKey"
def secp256k1Type : String := "/cosmos.crypto.secp256k1.PubKey"
def ed25519Type : String := "/cosmos.crypto.ed25519.PubKey"

def keyType (key : Json) : Option String := (key.get "@type").bind Json.asStr

def isObject : Json → Bool
  | .object _ => true
  | _ => false

/-- The object with the members and the threshold: the key's `key` or itself. -/
def keyValue (key : Json) : Json := ((key.get "key").filter isObject).getD key

def memberKeys (value : Json) : Option (List Json) :=
  (((value.get "public_keys").or (value.get "pubkeys")).bind Json.asArray).filter (· ≠ [])

/-- A threshold is a number or the text of one. -/
def readThreshold (value : Json) : Option Nat :=
  (value.asU64.map UInt64.toNat).or ((value.asStr).bind fun text => (Text.parse 64 text).toOption)

variable (base64 : Base64.Engine) (validPoint : List UInt8 → Bool)

/-- The encoding of a single key. -/
def leafKey (key : Json) (secp : Bool) : Exec AppCoreError (List UInt8) := do
  let .some encoded := (key.get "key").bind Json.asStr | invalid
  let .some bytes := (base64.decode encoded).toOption | invalid
  if secp then
    if bytes.length ≠ 33 || !validPoint bytes then invalid
    else return [0xeb, 0x5a, 0xe9, 0x87, 0x21] ++ bytes
  else
    if bytes.length ≠ 32 then invalid
    else return [0x16, 0x24, 0xde, 0x64, 0x20] ++ bytes

/-- `result` with one more member. -/
def appendMember (result nested : List UInt8) : Exec AppCoreError (List UInt8) := do
  let result := appendUvarint (result ++ [0x12]) nested.length ++ nested
  if result.length > 4 * 1024 * 1024 then invalid
  return result

/-- `initia_amino_public_key`; the bound counts the calls within one another. -/
def initiaAminoPublicKey : Nat → Json → Nat → Exec AppCoreError (List UInt8)
  | 0, _, _ => .error .fuel
  | calls + 1, key, depth => do
    if depth > 32 then invalid
    else if keyType key = .some multisigType then
      let value := keyValue key
      let .some keys := memberKeys value | invalid
      let .some threshold := ((value.get "threshold").bind readThreshold).filter fun threshold =>
        threshold > 0 ∧ threshold ≤ keys.length | invalid
      keys.foldlM (fun result key => do appendMember result (← initiaAminoPublicKey calls key (depth + 1)))
        (appendUvarint [0x22, 0xc1, 0xf7, 0xe2, 0x08] threshold)
    else if keyType key = .some secp256k1Type || keyType key = .some ed25519Type then
      leafKey base64 validPoint key (keyType key = .some secp256k1Type)
    else invalid

/-! ## Keys -/

inductive KeyKind where
  | secp256k1
  | ed25519
  deriving Repr, DecidableEq

/-- What a key is, however it is spelled. -/
inductive KeyTree where
  | leaf (kind : KeyKind) (bytes : List UInt8)
  | multisig (threshold : Nat) (keys : List KeyTree)

def KeyKind.typeName : KeyKind → String
  | .secp256k1 => secp256k1Type
  | .ed25519 => ed25519Type

mutual

/-- The JSON is a spelling of the key. -/
def Denotes (key : Json) : KeyTree → Prop
  | .leaf kind bytes => keyType key = .some kind.typeName ∧
      ((key.get "key").bind Json.asStr).bind (fun encoded => (base64.decode encoded).toOption) = .some bytes
  | .multisig threshold trees => keyType key = .some multisigType ∧
      ((keyValue key).get "threshold").bind readThreshold = .some threshold ∧
      ∃ keys, memberKeys (keyValue key) = .some keys ∧ DenotesAll keys trees

def DenotesAll : List Json → List KeyTree → Prop
  | [], [] => True
  | key :: keys, tree :: trees => Denotes key tree ∧ DenotesAll keys trees
  | _, _ => False

end

/-! ## What is encoded -/

def KeyKind.head : KeyKind → List UInt8
  | .secp256k1 => [0xeb, 0x5a, 0xe9, 0x87, 0x21]
  | .ed25519 => [0x16, 0x24, 0xde, 0x64, 0x20]

mutual

/-- The encoding of a key. -/
def KeyTree.amino : KeyTree → List UInt8
  | .leaf kind bytes => kind.head ++ bytes
  | .multisig threshold trees => [0x22, 0xc1, 0xf7, 0xe2, 0x08] ++ Leb128.encode threshold ++ membersAmino trees

/-- Members, each behind a tag and its length. -/
def membersAmino : List KeyTree → List UInt8
  | [] => []
  | tree :: trees => 0x12 :: (Leb128.encode tree.amino.length ++ tree.amino ++ membersAmino trees)

end

theorem or_eq_add (byte : UInt8) : byte ||| 0x80 = UInt8.ofNat (byte.toNat % 128 + 128) := by
  have hall : ∀ n < 256, UInt8.ofNat n ||| 0x80 = UInt8.ofNat (n % 128 + 128) := by decide +kernel
  have hbyte := hall byte.toNat byte.toNat_lt
  rwa [UInt8.ofNat_toNat] at hbyte

theorem appendUvarint_eq (out : List UInt8) (value : Nat) : appendUvarint out value = out ++ Leb128.encode value := by
  induction value using Nat.strongRecOn generalizing out with
  | ind value ih =>
    rw [appendUvarint]
    split
    · next hlarge =>
      have hshift : value >>> 7 = value / 128 := Nat.shiftRight_eq_div_pow value 7
      have hbyte : UInt8.ofNat value ||| 0x80 = UInt8.ofNat (value % 128 + 128) := by
        rw [or_eq_add, UInt8.toNat_ofNat']
        congr 2
        omega
      rw [hshift, ih (value / 128) (by omega), Leb128.encode_large hlarge, hbyte, List.append_assoc,
        List.singleton_append]
    · next hsmall => rw [Leb128.encode_small (by omega)]

theorem membersAmino_concat (trees : List KeyTree) (tree : KeyTree) :
    membersAmino (trees ++ [tree]) = membersAmino trees ++ 0x12 :: (Leb128.encode tree.amino.length ++ tree.amino) := by
  induction trees with
  | nil => simp only [membersAmino, List.nil_append, List.append_nil]
  | cons first trees ih =>
    rw [List.cons_append, membersAmino, membersAmino, ih]
    simp only [List.append_assoc, List.cons_append]

mutual

/-- **The encoding tells the key.** -/
theorem amino_inj : ∀ {tree tree' : KeyTree}, tree.amino = tree'.amino → tree = tree'
  | .leaf kind bytes, .leaf kind' bytes', h => by
    cases kind with
    | secp256k1 =>
      cases kind' with
      | secp256k1 => rw [List.append_cancel_left h]
      | ed25519 => simp [KeyTree.amino, KeyKind.head] at h
    | ed25519 =>
      cases kind' with
      | secp256k1 => simp [KeyTree.amino, KeyKind.head] at h
      | ed25519 => rw [List.append_cancel_left h]
  | .leaf kind _, .multisig _ _, h => by cases kind <;> simp [KeyTree.amino, KeyKind.head] at h
  | .multisig _ _, .leaf kind _, h => by cases kind <;> simp [KeyTree.amino, KeyKind.head] at h
  | .multisig threshold trees, .multisig threshold' trees', h => by
    rw [KeyTree.amino, KeyTree.amino, List.append_assoc, List.append_assoc] at h
    obtain ⟨hthreshold, hmembers⟩ := Leb128.encode_append_inj (List.append_cancel_left h)
    rw [hthreshold, membersAmino_inj hmembers]

theorem membersAmino_inj : ∀ {trees trees' : List KeyTree}, membersAmino trees = membersAmino trees' → trees = trees'
  | [], [], _ => rfl
  | [], _ :: _, h => by simp [membersAmino] at h
  | _ :: _, [], h => by simp [membersAmino] at h
  | tree :: trees, tree' :: trees', h => by
    rw [membersAmino, membersAmino, List.cons.injEq, List.append_assoc, List.append_assoc] at h
    obtain ⟨hlength, hrest⟩ := Leb128.encode_append_inj h.2
    obtain ⟨hfirst, hothers⟩ := List.append_inj hrest hlength
    rw [amino_inj hfirst, membersAmino_inj hothers]

end

/-! ## One spelling, one key -/

section Denotation

variable {base64}

mutual

theorem denotes_unique : ∀ {key : Json} {tree tree' : KeyTree}, Denotes base64 key tree → Denotes base64 key tree' →
    tree = tree'
  | _, .leaf kind bytes, .leaf kind' bytes', h, h' => by
    have hkind : kind = kind' := by
      have htype := h.1.symm.trans h'.1
      cases kind <;> cases kind' <;> first | rfl | exact absurd htype (by decide)
    rw [hkind, Option.some.inj (h.2.symm.trans h'.2)]
  | _, .leaf kind _, .multisig _ _, h, h' => by
    have htype := h.1.symm.trans h'.1
    cases kind <;> exact absurd htype (by decide)
  | _, .multisig _ _, .leaf kind _, h, h' => by
    have htype := h'.1.symm.trans h.1
    cases kind <;> exact absurd htype (by decide)
  | _, .multisig threshold trees, .multisig threshold' trees', ⟨_, hthreshold, keys, hkeys, hall⟩,
      ⟨_, hthreshold', keys', hkeys', hall'⟩ => by
    obtain rfl := Option.some.inj (hkeys.symm.trans hkeys')
    rw [Option.some.inj (hthreshold.symm.trans hthreshold'), denotesAll_unique hall hall']

theorem denotesAll_unique : ∀ {keys : List Json} {trees trees' : List KeyTree}, DenotesAll base64 keys trees →
    DenotesAll base64 keys trees' → trees = trees'
  | [], [], [], _, _ => rfl
  | _ :: _, _ :: _, _ :: _, h, h' => by rw [denotes_unique h.1 h'.1, denotesAll_unique h.2 h'.2]

end

theorem DenotesAll.concat {key : Json} {tree : KeyTree} (h : Denotes base64 key tree) :
    ∀ {keys : List Json} {trees : List KeyTree}, DenotesAll base64 keys trees →
      DenotesAll base64 (keys ++ [key]) (trees ++ [tree])
  | [], [], _ => ⟨h, trivial⟩
  | _ :: _, _ :: _, hall => ⟨hall.1, DenotesAll.concat h hall.2⟩

end Denotation

/-! ## The code's encoding -/

section Encoding

variable {base64} {validPoint}

theorem leafKey_ok {key : Json} {kind : KeyKind} (htype : keyType key = .some kind.typeName) {encoded : List UInt8}
    (h : leafKey base64 validPoint key (keyType key = .some secp256k1Type) = .ok encoded) :
    ∃ tree, Denotes base64 key tree ∧ tree.amino = encoded := by
  unfold leafKey at h
  split at h
  next text htext =>
    split at h
    next bytes hbytes =>
      have hdenotes : Denotes base64 key (.leaf kind bytes) := by
        refine ⟨htype, ?_⟩
        rw [htext, Option.bind_some, hbytes]
      refine ⟨.leaf kind bytes, hdenotes, ?_⟩
      cases kind with
      | secp256k1 =>
        have hsecp : keyType key = .some secp256k1Type := htype
        rw [if_pos (decide_eq_true hsecp)] at h
        split at h
        · cases h
        · exact Except.ok.inj h
      | ed25519 =>
        rw [if_neg (by rw [htype]; decide)] at h
        split at h
        · cases h
        · exact Except.ok.inj h
    · cases h
  · cases h

theorem appendMember_ok {result nested result' : List UInt8} (h : appendMember result nested = .ok result') :
    result' = result ++ 0x12 :: (Leb128.encode nested.length ++ nested) := by
  unfold appendMember at h
  rw [appendUvarint_eq] at h
  dsimp only at h
  split at h
  · cases h
  · rw [← Except.ok.inj h]
    simp only [List.append_assoc, List.cons_append, List.nil_append]

/-- **What the code returns is the encoding of the key that is spelled.** -/
theorem initiaAminoPublicKey_ok : ∀ {calls depth : Nat} {key : Json} {encoded : List UInt8},
    initiaAminoPublicKey base64 validPoint calls key depth = .ok encoded →
      ∃ tree, Denotes base64 key tree ∧ tree.amino = encoded
  | 0, _, _, _, h => by cases h
  | calls + 1, depth, key, encoded, h => by
    unfold initiaAminoPublicKey at h
    split at h
    · cases h
    split at h
    · next htype =>
      dsimp only at h
      split at h
      next keys hkeys =>
        split at h
        next threshold hthreshold =>
          have hread := (Option.filter_eq_some_iff.mp hthreshold).1
          have hmembers := foldlM_induct (P := fun done result => ∃ trees, DenotesAll base64 done trees ∧
            result = [0x22, 0xc1, 0xf7, 0xe2, 0x08] ++ Leb128.encode threshold ++ membersAmino trees) h
            ⟨[], trivial, by rw [appendUvarint_eq, membersAmino, List.append_nil]⟩ ?_
          · obtain ⟨trees, hall, rfl⟩ := hmembers
            exact ⟨.multisig threshold trees, ⟨htype, hread, keys, hkeys, hall⟩, rfl⟩
          · rintro done member result result' - ⟨trees, hall, rfl⟩ hstep
            obtain ⟨nested, hnested, hstep⟩ := Exec.bind_ok_iff.mp hstep
            obtain ⟨tree, hdenotes, rfl⟩ := initiaAminoPublicKey_ok hnested
            refine ⟨trees ++ [tree], DenotesAll.concat hdenotes hall, ?_⟩
            rw [appendMember_ok hstep, membersAmino_concat, List.append_assoc]
        · cases h
      · cases h
    · split at h
      · next htype =>
        simp only [Bool.or_eq_true, decide_eq_true_eq] at htype
        rcases htype with htype | htype
        · have hkind : keyType key = .some KeyKind.secp256k1.typeName := htype
          exact leafKey_ok hkind h
        · have hkind : keyType key = .some KeyKind.ed25519.typeName := htype
          exact leafKey_ok hkind h
      · cases h

/-! ## Calls within one another -/

theorem returns_invalid {α : Type} : (invalid : Exec AppCoreError α).Returns := Exec.returns_err _

theorem leafKey_returns (key : Json) (secp : Bool) : (leafKey base64 validPoint key secp).Returns := by
  unfold leafKey
  split
  · split
    · split
      · split
        · exact returns_invalid
        · exact Exec.returns_ok _
      · split
        · exact returns_invalid
        · exact Exec.returns_ok _
    · exact returns_invalid
  · exact returns_invalid

theorem appendMember_returns (result nested : List UInt8) : (appendMember result nested).Returns := by
  unfold appendMember
  dsimp only
  split
  · exact returns_invalid
  · exact Exec.returns_ok _

/-- No call is made from the one that finds itself too deep. -/
theorem initiaAminoPublicKey_returns : ∀ {calls depth : Nat} (key : Json), 34 ≤ calls + depth → 0 < calls →
    (initiaAminoPublicKey base64 validPoint calls key depth).Returns
  | calls + 1, depth, key, hbound, _ => by
    unfold initiaAminoPublicKey
    split
    · exact returns_invalid
    next hdepth =>
    split
    · dsimp only
      split
      · split
        · refine (Exec.yields_foldlM (P := fun _ _ => True) _ [] _ (fun _ member _ result _ => ?_) trivial).1
          have hnested : (initiaAminoPublicKey base64 validPoint calls member (depth + 1)).Returns :=
            initiaAminoPublicKey_returns member (by omega) (by omega)
          exact hnested.yields_bind fun nested _ => ⟨appendMember_returns result nested, fun _ _ => trivial⟩
        · exact returns_invalid
      · exact returns_invalid
    · split
      · exact leafKey_returns key _
      · exact returns_invalid

end Encoding

/-- **The encoding identifies the key.** Two keys that are taken have one
encoding exactly when they spell one key; and for any JSON the calls within one
another end after the one at depth 33. -/
theorem initiaAminoPublicKey_identifies :
    (∀ key key' encoded encoded', initiaAminoPublicKey base64 validPoint 34 key 0 = .ok encoded →
      initiaAminoPublicKey base64 validPoint 34 key' 0 = .ok encoded' →
      (encoded = encoded' ↔ ∃ tree, Denotes base64 key tree ∧ Denotes base64 key' tree)) ∧
    ∀ key, (initiaAminoPublicKey base64 validPoint 34 key 0).Returns := by
  refine ⟨fun key key' encoded encoded' h h' => ?_, fun key => initiaAminoPublicKey_returns key (by decide) (by decide)⟩
  obtain ⟨tree, hdenotes, rfl⟩ := initiaAminoPublicKey_ok h
  obtain ⟨tree', hdenotes', rfl⟩ := initiaAminoPublicKey_ok h'
  constructor
  · intro hsame
    exact ⟨tree, hdenotes, amino_inj hsame ▸ hdenotes'⟩
  · rintro ⟨shared, hshared, hshared'⟩
    rw [denotes_unique hdenotes hshared, denotes_unique hdenotes' hshared']

/-- 32 bytes, all zero. -/
def sampleLeaf : Json :=
  .object [("@type", .string ed25519Type), ("key", .string (String.ofList (List.replicate 43 'A' ++ ['='])))]

def sampleMembers : List (String × Json) := [("pubkeys", .array [sampleLeaf]), ("threshold", .string "1")]

def sampleEncoding : List UInt8 :=
  [0x22, 0xc1, 0xf7, 0xe2, 0x08, 1, 0x12, 37, 0x16, 0x24, 0xde, 0x64, 0x20] ++ List.replicate 32 0

theorem initiaAminoPublicKey_identifies_wrapped : ∃ tree,
    Denotes Base64.Engine.plain (.object (("@type", .string multisigType) :: sampleMembers)) tree ∧
      Denotes Base64.Engine.plain (.object [("@type", .string multisigType), ("key", .object sampleMembers)]) tree := by
  have hplain : initiaAminoPublicKey Base64.Engine.plain (fun _ => true) 34
      (.object (("@type", .string multisigType) :: sampleMembers)) 0 = .ok sampleEncoding := by decide +kernel
  have hwrapped : initiaAminoPublicKey Base64.Engine.plain (fun _ => true) 34
      (.object [("@type", .string multisigType), ("key", .object sampleMembers)]) 0 = .ok sampleEncoding := by
    decide +kernel
  exact ((initiaAminoPublicKey_identifies Base64.Engine.plain fun _ => true).1 _ _ _ _ hplain hwrapped).mp rfl

end Pillar.InitiaKey
