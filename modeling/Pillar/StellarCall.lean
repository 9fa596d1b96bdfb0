/-
What a Stellar DVN signs (`pillar-layerzero`, `other_non_evm/stellar.rs`): the
call `execute_transaction([verify(..)])` in XDR, behind the vid and the
expiration.
-/
import Pillar.Xdr
import Pillar.Strkey
import Pillar.Packet
import Pillar.AbiFacts

namespace Pillar.StellarCall

open Text Hex Xdr Strkey Bits Packet
open Abi (Bytes addressToBytes32 decodeHexBytes decodeHexBytes_prefixed)

/-! ## The code -/

def addressXdr (address : List UInt8) : List UInt8 := word 18 ++ word 1 ++ address

def bytesXdr (bytes : List UInt8) : List UInt8 := word 13 ++ opaqueData bytes

def u64Xdr (value : UInt64) : List UInt8 := word 5 ++ hyper value.toNat

def symbolXdr (value : String) : List UInt8 := word 15 ++ opaqueData (utf8 value)

def vecXdr (items : List (List UInt8)) : List UInt8 := word 16 ++ word 1 ++ word items.length ++ items.flatten

def mapXdr (entries : List (List UInt8 × List UInt8)) : List UInt8 :=
  word 17 ++ word 1 ++ word entries.length ++ entries.flatMap fun (key, value) => key ++ value

def callXdr (target : List UInt8) (func : String) (args : List (List UInt8)) : List UInt8 :=
  mapXdr [(symbolXdr "args", vecXdr args), (symbolXdr "func", symbolXdr func), (symbolXdr "to", target)]

section

variable (hex : HexCrate)

def stellarDvnAddressXdr (value : String) : Exec AppCoreError (List UInt8) :=
  if value.toList.head? = .some 'G' then do
    let key ← stellarAccountIdFromStrkey value
    return word 18 ++ word 0 ++ word 0 ++ key.val
  else if value.toList.head? = .some 'C' then do
    let id ← stellarStrkeyPayload value 0x10
    return addressXdr id.val
  else do
    let id ← addressToBytes32 hex value
    return addressXdr id.val

def callsXdr (proof : EvmUlnProof) (dvnAddress : String) (blockConfirmation : UInt64) (uln302Id : Bytes 32) :
    Exec AppCoreError (List UInt8) := do
  let packetHeader ← decodeHexBytes hex proof.packetHeader
  let payloadHash ← decodeHexBytes hex proof.payloadHash
  let dvn ← stellarDvnAddressXdr hex dvnAddress
  let verifyCall := callXdr (addressXdr uln302Id.val) "verify"
    [dvn, bytesXdr packetHeader, bytesXdr payloadHash, u64Xdr blockConfirmation]
  let inner := vecXdr [verifyCall]
  let execute := callXdr dvn "execute_transaction" [inner]
  return vecXdr [execute]

def packDvnCall (vid : UInt32) (expiration : UInt64) (proof : EvmUlnProof) (dvnAddress : String)
    (blockConfirmation : UInt64) (uln302Id : Bytes 32) : Exec AppCoreError (List UInt8) := do
  let calls ← callsXdr hex proof dvnAddress blockConfirmation uln302Id
  return word vid.toNat ++ hyper expiration.toNat ++ calls

end

/-! ## What is signed -/

/-- The account key of a `G` strkey, or a contract id. -/
inductive DvnAddress where
  | account (key : Bytes 32)
  | contract (id : Bytes 32)

def DvnAddress.xdr : DvnAddress → List UInt8
  | account key => word 18 ++ (word 0 ++ (word 0 ++ key.val))
  | contract id => word 18 ++ (word 1 ++ id.val)

/-- What the text of a DVN address stands for. -/
inductive IsDvnAddress (hex : HexCrate) : String → DvnAddress → Prop
  | account {value : String} {key : Bytes 32} (first : value.toList.head? = .some 'G')
      (h : stellarAccountIdFromStrkey value = .ok key) : IsDvnAddress hex value (.account key)
  | contract {value : String} {id : Bytes 32} (first : value.toList.head? = .some 'C')
      (h : stellarStrkeyPayload value 0x10 = .ok id) : IsDvnAddress hex value (.contract id)
  | hex {value : String} {id : Bytes 32} (notG : value.toList.head? ≠ .some 'G')
      (notC : value.toList.head? ≠ .some 'C') (h : addressToBytes32 hex value = .ok id) :
      IsDvnAddress hex value (.contract id)

/-- A call's arguments. -/
structure Call where
  vid : UInt32
  expiration : UInt64
  proof : EvmUlnProof
  dvnAddress : String
  blockConfirmation : UInt64
  uln302Id : Bytes 32

def Call.pack (hex : HexCrate) (call : Call) : Exec AppCoreError (List UInt8) :=
  packDvnCall hex call.vid call.expiration call.proof call.dvnAddress call.blockConfirmation call.uln302Id

/-- The signed fields. -/
structure Fields where
  vid : UInt32
  expiration : UInt64
  packetHeader : List UInt8
  payloadHash : List UInt8
  blockConfirmation : UInt64
  uln302Id : Bytes 32
  dvn : DvnAddress

structure Call.Denotes (hex : HexCrate) (call : Call) (fields : Fields) : Prop where
  vid : call.vid = fields.vid
  expiration : call.expiration = fields.expiration
  packetHeader : decodeHexBytes hex call.proof.packetHeader = .ok fields.packetHeader
  payloadHash : decodeHexBytes hex call.proof.payloadHash = .ok fields.payloadHash
  blockConfirmation : call.blockConfirmation = fields.blockConfirmation
  uln302Id : call.uln302Id = fields.uln302Id
  dvn : IsDvnAddress hex call.dvnAddress fields.dvn

/-- One call in a list, up to its arguments. -/
def callOpening : List UInt8 :=
  word 16 ++ word 1 ++ word 1 ++ word 17 ++ word 1 ++ word 3 ++ symbolXdr "args"

/-- What stands before the DVN address in `verify`'s arguments. -/
def opening : List UInt8 := callOpening ++ word 16 ++ word 1 ++ word 1 ++ callOpening ++ word 16 ++ word 1 ++ word 4

/-- What stands between `verify`'s arguments and the contract id of the ULN. -/
def middle : List UInt8 := symbolXdr "func" ++ symbolXdr "verify" ++ symbolXdr "to" ++ word 18 ++ word 1

def closing : List UInt8 := symbolXdr "func" ++ symbolXdr "execute_transaction" ++ symbolXdr "to"

/-- What follows the two byte strings. -/
def Fields.rest (v : Fields) : List UInt8 :=
  word 5 ++ (hyper v.blockConfirmation.toNat ++ (middle ++ (v.uln302Id.val ++ (closing ++ v.dvn.xdr))))

def Fields.preimage (v : Fields) : List UInt8 :=
  word v.vid.toNat ++ (hyper v.expiration.toNat ++ (opening ++ (v.dvn.xdr ++
    (word 13 ++ (opaqueData v.packetHeader ++ (word 13 ++ (opaqueData v.payloadHash ++ v.rest)))))))

variable {hex : HexCrate}

theorem stellarDvnAddressXdr_eq_ok {value : String} {xdr : List UInt8} :
    stellarDvnAddressXdr hex value = .ok xdr ↔ ∃ dvn, IsDvnAddress hex value dvn ∧ xdr = dvn.xdr := by
  have hpair : ∀ id : Bytes 32, addressXdr id.val = (DvnAddress.contract id).xdr := fun id => by
    rw [addressXdr, DvnAddress.xdr, List.append_assoc]
  have hkey : ∀ key : Bytes 32, word 18 ++ word 0 ++ word 0 ++ key.val = (DvnAddress.account key).xdr := fun key => by
    rw [DvnAddress.xdr, List.append_assoc, List.append_assoc]
  rw [stellarDvnAddressXdr]
  constructor
  · intro h
    split at h
    next hfirst =>
      obtain ⟨key, hread, h⟩ := Exec.bind_ok_iff.mp h
      exact ⟨_, .account hfirst hread, (Except.ok.inj h).symm.trans (hkey key)⟩
    next hnotG =>
      split at h
      next hfirst =>
        obtain ⟨id, hread, h⟩ := Exec.bind_ok_iff.mp h
        exact ⟨_, .contract hfirst hread, (Except.ok.inj h).symm.trans (hpair id)⟩
      next hnotC =>
        obtain ⟨id, hread, h⟩ := Exec.bind_ok_iff.mp h
        exact ⟨_, .hex hnotG hnotC hread, (Except.ok.inj h).symm.trans (hpair id)⟩
  · rintro ⟨dvn, hdvn, rfl⟩
    cases hdvn with
    | account hfirst hread => rw [if_pos hfirst, hread, Exec.ok_bind, ← hkey]; rfl
    | contract hfirst hread => rw [if_neg (by rw [hfirst]; decide), if_pos hfirst, hread, Exec.ok_bind, ← hpair]; rfl
    | hex hnotG hnotC hread => rw [if_neg hnotG, if_neg hnotC, hread, Exec.ok_bind, ← hpair]; rfl

/-- A call's map, entry by entry. -/
theorem callXdr_eq (target : List UInt8) (func : String) (args : List (List UInt8)) : callXdr target func args =
    word 17 ++ (word 1 ++ (word 3 ++ (symbolXdr "args" ++ (vecXdr args ++ (symbolXdr "func" ++ (symbolXdr func ++
      (symbolXdr "to" ++ target))))))) := by
  simp only [callXdr, mapXdr, List.flatMap_cons, List.flatMap_nil, List.length_cons, List.length_nil,
    List.append_nil, List.append_assoc, Nat.zero_add, Nat.reduceAdd]

/-- **What is packed** are the fields that the arguments stand for. -/
theorem Call.pack_eq_ok {call : Call} {out : List UInt8} :
    call.pack hex = .ok out ↔ ∃ fields, call.Denotes hex fields ∧ out = fields.preimage := by
  have hbytes : ∀ (header hash dvn : List UInt8), word call.vid.toNat ++ hyper call.expiration.toNat ++
      vecXdr [callXdr dvn "execute_transaction" [vecXdr [callXdr (addressXdr call.uln302Id.val) "verify"
        [dvn, bytesXdr header, bytesXdr hash, u64Xdr call.blockConfirmation]]]] =
      word call.vid.toNat ++ (hyper call.expiration.toNat ++ (opening ++ (dvn ++ (word 13 ++ (opaqueData header ++
        (word 13 ++ (opaqueData hash ++ (word 5 ++ (hyper call.blockConfirmation.toNat ++ (middle ++
          (call.uln302Id.val ++ (closing ++ dvn)))))))))))) := by
    intro header hash dvn
    simp only [callXdr_eq, opening, callOpening, middle, closing, vecXdr, bytesXdr, u64Xdr, addressXdr,
      List.flatten_cons, List.flatten_nil, List.length_cons, List.length_nil, List.append_nil, List.append_assoc,
      Nat.zero_add, Nat.reduceAdd]
  rw [pack, packDvnCall]
  constructor
  · intro h
    obtain ⟨calls, hcalls, h⟩ := Exec.bind_ok_iff.mp h
    obtain ⟨header, hheader, hcalls⟩ := Exec.bind_ok_iff.mp hcalls
    obtain ⟨hash, hhash, hcalls⟩ := Exec.bind_ok_iff.mp hcalls
    obtain ⟨dvn, hdvn, hcalls⟩ := Exec.bind_ok_iff.mp hcalls
    obtain ⟨address, haddress, rfl⟩ := stellarDvnAddressXdr_eq_ok.mp hdvn
    cases hcalls
    refine ⟨⟨call.vid, call.expiration, header, hash, call.blockConfirmation, call.uln302Id, address⟩,
      ⟨rfl, rfl, hheader, hhash, rfl, rfl, haddress⟩, ?_⟩
    exact (Except.ok.inj h).symm.trans (hbytes header hash address.xdr)
  · rintro ⟨fields, hfields, rfl⟩
    have hdvn := stellarDvnAddressXdr_eq_ok.mpr ⟨_, hfields.dvn, rfl⟩
    rw [callsXdr, hfields.packetHeader, Exec.ok_bind, hfields.payloadHash, Exec.ok_bind, hdvn, Exec.ok_bind,
      Fields.preimage, Fields.rest, ← hfields.vid, ← hfields.expiration, ← hfields.blockConfirmation,
      ← hfields.uln302Id, ← hbytes]
    rfl

/-! ## Binding -/

/-- The second word tells an account from a contract. -/
theorem DvnAddress.xdr_append_inj {dvn dvn' : DvnAddress} {s t : List UInt8} (h : dvn.xdr ++ s = dvn'.xdr ++ t) :
    dvn = dvn' ∧ s = t := by
  cases dvn with
  | account key =>
    cases dvn' with
    | account key' =>
      simp only [DvnAddress.xdr, List.append_assoc, List.append_cancel_left_eq] at h
      obtain ⟨hkey, hrest⟩ := List.append_inj h (by rw [key.property, key'.property])
      exact ⟨congrArg DvnAddress.account (Subtype.ext hkey), hrest⟩
    | contract id' =>
      simp only [DvnAddress.xdr, List.append_assoc, List.append_cancel_left_eq] at h
      exact absurd (word_append_inj h).1 (by decide)
  | contract id =>
    cases dvn' with
    | account key' =>
      simp only [DvnAddress.xdr, List.append_assoc, List.append_cancel_left_eq] at h
      exact absurd (word_append_inj h).1 (by decide)
    | contract id' =>
      simp only [DvnAddress.xdr, List.append_assoc, List.append_cancel_left_eq] at h
      obtain ⟨hid, hrest⟩ := List.append_inj h (by rw [id.property, id'.property])
      exact ⟨congrArg DvnAddress.contract (Subtype.ext hid), hrest⟩

theorem Fields.rest_length {v v' : Fields} (h : v.dvn = v'.dvn) : v.rest.length = v'.rest.length := by
  rw [Fields.rest, Fields.rest, h]
  simp only [List.length_append, length_word, length_hyper, v.uln302Id.property, v'.uln302Id.property]

theorem Fields.rest_inj {v v' : Fields} (h : v.rest = v'.rest) :
    v.blockConfirmation = v'.blockConfirmation ∧ v.uln302Id = v'.uln302Id := by
  rw [Fields.rest, Fields.rest, List.append_cancel_left_eq] at h
  obtain ⟨hconfirmation, h⟩ := hyper_append_inj (UInt64.toNat_lt _) (UInt64.toNat_lt _) h
  rw [List.append_cancel_left_eq] at h
  obtain ⟨hid, -⟩ := List.append_inj h (by rw [v.uln302Id.property, v'.uln302Id.property])
  exact ⟨UInt64.toNat_inj.mp hconfirmation, Subtype.ext hid⟩

/-- **The preimage binds every field** where the two byte strings' lengths do not wrap. -/
theorem Fields.preimage_inj {v v' : Fields}
    (hwraps : ¬ Wraps v.packetHeader.length v.payloadHash.length v'.packetHeader.length v'.payloadHash.length)
    (h : v.preimage = v'.preimage) : v = v' := by
  rw [Fields.preimage, Fields.preimage] at h
  obtain ⟨hvid, h⟩ := word_append_inj h
  obtain ⟨hexpiration, h⟩ := hyper_append_inj (UInt64.toNat_lt _) (UInt64.toNat_lt _) h
  rw [List.append_cancel_left_eq] at h
  obtain ⟨hdvn, h⟩ := DvnAddress.xdr_append_inj h
  rw [List.append_cancel_left_eq] at h
  obtain ⟨hheader, hhash, hrest⟩ := opaquePair_inj (Fields.rest_length hdvn) hwraps h
  obtain ⟨hconfirmation, hid⟩ := Fields.rest_inj hrest
  have hvid : v.vid = v'.vid := by
    have hlt := v.vid.toNat_lt
    have hlt' := v'.vid.toNat_lt
    rw [Nat.mod_eq_of_lt hlt, Nat.mod_eq_of_lt hlt'] at hvid
    exact UInt32.toNat_inj.mp hvid
  have hexpiration : v.expiration = v'.expiration := UInt64.toNat_inj.mp hexpiration
  cases v
  cases v'
  simp only [Fields.mk.injEq]
  exact ⟨hvid, hexpiration, hheader, hhash, hconfirmation, hid, hdvn⟩

/-- All zero but for the two byte strings, and spelled in hex. -/
def plainCall (hex : HexCrate) (header hash : List UInt8) : Call where
  vid := 0
  expiration := 0
  proof := ⟨"0x" ++ hex.encode header, "0x" ++ hex.encode hash⟩
  dvnAddress := "0x" ++ hex.encode (List.replicate 32 0)
  blockConfirmation := 0
  uln302Id := ⟨List.replicate 32 0, Bytes.length_zeros⟩

def plainFields (header hash : List UInt8) : Fields where
  vid := 0
  expiration := 0
  packetHeader := header
  payloadHash := hash
  blockConfirmation := 0
  uln302Id := ⟨List.replicate 32 0, Bytes.length_zeros⟩
  dvn := .contract ⟨List.replicate 32 0, Bytes.length_zeros⟩

theorem plainCall_denotes (header hash : List UInt8) :
    (plainCall hex header hash).Denotes hex (plainFields header hash) where
  vid := rfl
  expiration := rfl
  packetHeader := decodeHexBytes_prefixed header
  payloadHash := decodeHexBytes_prefixed hash
  blockConfirmation := rfl
  uln302Id := rfl
  dvn := by
    have hfirst : ("0x" ++ hex.encode (List.replicate 32 0)).toList.head? = .some '0' := by
      rw [String.toList_append]
      rfl
    refine .hex (by rw [plainCall, hfirst]; decide) (by rw [plainCall, hfirst]; decide) ?_
    rw [plainCall, addressToBytes32, decodeHexBytes_prefixed, Exec.ok_bind, dif_neg (by decide)]
    rfl

/-- The calls of these lengths that are packed alike stand for the same fields. -/
def BindsLengths (hex : HexCrate) (header hash header' hash' : Nat) : Prop :=
  ∀ (call call' : Call) (v v' : Fields) (out : List UInt8), call.Denotes hex v → call'.Denotes hex v' →
    v.packetHeader.length = header → v.payloadHash.length = hash → v'.packetHeader.length = header' →
    v'.payloadHash.length = hash' → call.pack hex = .ok out → call'.pack hex = .ok out → v = v'

theorem IsDvnAddress.unique {value : String} {dvn dvn' : DvnAddress} (h : IsDvnAddress hex value dvn)
    (h' : IsDvnAddress hex value dvn') : dvn = dvn' := by
  have hxdr := stellarDvnAddressXdr_eq_ok.mpr ⟨dvn, h, rfl⟩
  rw [stellarDvnAddressXdr_eq_ok.mpr ⟨dvn', h', rfl⟩] at hxdr
  exact (DvnAddress.xdr_append_inj (congrArg (· ++ []) (Except.ok.inj hxdr))).1.symm

/-- The arguments stand for one choice of fields. -/
theorem Call.Denotes.unique {call : Call} {v v' : Fields} (h : call.Denotes hex v) (h' : call.Denotes hex v') :
    v = v' := by
  obtain ⟨hvid, hexpiration, hheader, hhash, hconfirmation, hid, hdvn⟩ := h
  obtain ⟨hvid', hexpiration', hheader', hhash', hconfirmation', hid', hdvn'⟩ := h'
  cases v
  cases v'
  simp only [Fields.mk.injEq]
  exact ⟨hvid.symm.trans hvid', hexpiration.symm.trans hexpiration',
    Except.ok.inj (hheader.symm.trans hheader'), Except.ok.inj (hhash.symm.trans hhash'),
    hconfirmation.symm.trans hconfirmation', hid.symm.trans hid', hdvn.unique hdvn'⟩

theorem Call.Denotes.out_eq {call : Call} {v : Fields} {out : List UInt8} (h : call.Denotes hex v)
    (hpack : call.pack hex = .ok out) : out = v.preimage := by
  obtain ⟨w, hw, rfl⟩ := Call.pack_eq_ok.mp hpack
  rw [h.unique hw]

theorem binds_of_not_wraps {header hash header' hash' : Nat} (h : ¬ Wraps header hash header' hash') :
    BindsLengths hex header hash header' hash' := by
  rintro call call' v v' out hv hv' rfl rfl rfl rfl hpack hpack'
  exact Fields.preimage_inj h ((hv.out_eq hpack).symm.trans (hv'.out_eq hpack'))

/-- Headers of fewer than `2 ^ 32` bytes are bound with all the rest, whatever the payload hashes. -/
theorem binds_of_short {header hash header' hash' : Nat} (h : header < 2 ^ 32) (h' : header' < 2 ^ 32) :
    BindsLengths hex header hash header' hash' :=
  binds_of_not_wraps (not_wraps_of_lt h h')

theorem not_binds_of_wraps {header hash header' hash' : Nat} (h : Wraps header hash header' hash') :
    ¬ BindsLengths hex header hash header' hash' := by
  intro hbinds
  obtain ⟨a, b, a', b', rfl, rfl, rfl, rfl, heq⟩ := h.collide (length_word 13)
  have hpreimage : (plainFields a b).preimage = (plainFields a' b').preimage := by
    have hrest : ∀ s : List UInt8, opaqueData a ++ (word 13 ++ (opaqueData b ++ s)) =
        opaqueData a' ++ (word 13 ++ (opaqueData b' ++ s)) := by
      intro s
      have hs := congrArg (· ++ s) heq
      simp only [List.append_assoc] at hs
      exact hs
    rw [Fields.preimage, Fields.preimage]
    exact congrArg (fun s => word 0 ++ (hyper 0 ++ (opening ++ ((plainFields a b).dvn.xdr ++ (word 13 ++ s)))))
      (hrest (plainFields a b).rest)
  have hfields := hbinds (plainCall hex a b) (plainCall hex a' b') _ _ _ (plainCall_denotes a b)
    (plainCall_denotes a' b') rfl rfl rfl rfl (Call.pack_eq_ok.mpr ⟨_, plainCall_denotes a b, rfl⟩)
    (Call.pack_eq_ok.mpr ⟨_, plainCall_denotes a' b', hpreimage⟩)
  exact h.ne (congrArg (fun v : Fields => v.packetHeader.length) hfields)

/-- **What is signed binds every field** exactly for the lengths that do not wrap. -/
theorem packDvnCall_binds_iff (hex : HexCrate) (header hash header' hash' : Nat) :
    BindsLengths hex header hash header' hash' ↔ ¬ Wraps header hash header' hash' :=
  ⟨fun hbinds hwraps => not_binds_of_wraps hwraps hbinds, binds_of_not_wraps⟩

/-- A header of `81 + 2 ^ 32` bytes that swallows a payload hash. -/
theorem packDvnCall_swallows : ¬ BindsLengths .plain 81 (2 ^ 32 + 32) (81 + 2 ^ 32) 32 :=
  not_binds_of_wraps ⟨by decide, by decide, by decide⟩

end Pillar.StellarCall
