/-
The attestation that is read off a TON ULN's cells is the contract's own
(`dvnAttestation_stored`): one lemma for each kind of cell, an address list by
its chain, the connection last.
-/
import Pillar.ClassReader
import Pillar.TonAttestation

namespace Pillar.Ton

variable {T : TonCore} {written : T.Builder → Contents} {ahead : T.Parser → Contents}
  {dataBitsLeft : T.Parser → Except String Nat} {refsLeft : T.Parser → Nat} {cell : TonCell} {fields : List ClField}

/-- What is left in a parser. -/
structure TellsLeft (ahead : T.Parser → Contents) (dataBitsLeft : T.Parser → Except String Nat)
    (refsLeft : T.Parser → Nat) : Prop where
  bits : ∀ p, dataBitsLeft p = .ok (ahead p).1.length
  refs : ∀ p, refsLeft p = (ahead p).2.length

/-! ## Fields -/

theorem IsClass.plain (h : IsClass fields cell) : cell.Plain := by
  obtain ⟨name, hencodes, hzero⟩ := h
  exact hencodes.plain hzero

theorem IsClass.ref (hT : T.Lawful written ahead) (h : IsClass fields cell) {i : Nat} {child : TonCell}
    (hi : fields[i]? = .some (.ref child)) : clGetRef T cell i = .ok child := by
  obtain ⟨name, hencodes, hzero⟩ := h
  exact hencodes.clGetRef hT hzero hi

theorem IsClass.num (hT : T.Lawful written ahead) (h : IsClass fields cell) {i : Nat} {typeCode : UInt8} {value : Nat}
    (hi : fields[i]? = .some (.num typeCode value)) (htyped : typeCode ≤ 8) :
    ∃ be, clGetUintBe T cell i (typeWidth typeCode) = .ok be ∧ be.length = (typeWidth typeCode + 7) / 8 ∧
      Bits.ofBytes be = value := by
  obtain ⟨name, hencodes, hzero⟩ := h
  exact hencodes.clGetUintBe hT hzero hi htyped

theorem eq_of_ofBytes {a b : List UInt8} (hlength : a.length = b.length) (h : Bits.ofBytes a = Bits.ofBytes b) :
    a = b := by
  rw [← Bits.bytesOf_ofBytes a, hlength, h, Bits.bytesOf_ofBytes]

theorem IsClass.bool (hT : T.Lawful written ahead) (h : IsClass fields cell) {i : Nat} {b : Bool}
    (hi : fields[i]? = .some (.num 0 b.toNat)) : readBool T cell i = .ok b := by
  obtain ⟨be, hread, hlength, hvalue⟩ := h.num hT hi (by decide)
  have hread' : clGetUintBe T cell i 1 = .ok be := hread
  have hbytes : be = [if b then 1 else 0] := by
    refine eq_of_ofBytes hlength (hvalue.trans ?_)
    cases b <;> rfl
  rw [readBool, hread', Exec.ok_bind, hbytes]
  cases b <;> rfl

theorem IsClass.u64 (hT : T.Lawful written ahead) (h : IsClass fields cell) {i : Nat} {n : UInt64}
    (hi : fields[i]? = .some (.num 6 n.toNat)) : readU64 T cell i = .ok n := by
  obtain ⟨be, hread, hlength, hvalue⟩ := h.num hT hi (by decide)
  have hread' : clGetUintBe T cell i 64 = .ok be := hread
  have hlength' : be.length = 8 := hlength
  rw [readU64, hread', Exec.ok_bind, if_neg (by rw [hlength']; decide), hvalue, UInt64.ofNat_toNat]
  rfl

theorem IsClass.u256 (hT : T.Lawful written ahead) (h : IsClass fields cell) {i : Nat} {value : Vector UInt8 32}
    (hi : fields[i]? = .some (.num 8 (Bits.ofBytes value.toList))) : clGetUintBe T cell i 256 = .ok value.toList := by
  obtain ⟨be, hread, hlength, hvalue⟩ := h.num hT hi (by decide)
  have hread' : clGetUintBe T cell i 256 = .ok be := hread
  have hlength' : be.length = 32 := hlength
  rw [hread', eq_of_ofBytes (hlength'.trans value.length_toList.symm) hvalue]

/-! ## Address lists -/

theorem packBits_bytes (bytes : List UInt8) :
    packBits (bytes.flatMap fun byte => Bits.ofNat 8 byte.toNat) = bytes := by
  induction bytes with
  | nil => rfl
  | cons byte bytes ih =>
    rw [List.flatMap_cons, ClassReader.packBits_append _ (Bits.length_ofNat 8 _), ih,
      Bits.toNat_ofNat byte.toNat_lt, UInt8.ofNat_toNat]

theorem packBits_keyBits (key : Vector UInt8 32) : packBits (keyBits key) = key.toList := packBits_bytes key.toList

/-- The inner loop reads the addresses of one cell. -/
theorem readAddresses_spec (hT : T.Lawful written ahead) (hleft : TellsLeft ahead dataBitsLeft refsLeft)
    {rest : List Bool} (hrest : rest.length < 256) (dvns : List (Vector UInt8 32)) :
    ∀ {fuel : Nat} {p : T.Parser} (addresses : List (List UInt8)), dvns.length < fuel →
      (ahead p).1 = dvns.flatMap keyBits ++ rest →
      ∃ q, readAddresses T dataBitsLeft fuel p addresses = .ok (addresses ++ dvns.map Vector.toList, q) ∧
        (ahead q).2 = (ahead p).2 := by
  induction dvns with
  | nil =>
    intro fuel p addresses hfuel hp
    obtain ⟨fuel, rfl⟩ := Nat.exists_eq_succ_of_ne_zero (Nat.ne_of_gt hfuel)
    refine ⟨p, ?_, rfl⟩
    have hshort : ¬ 256 ≤ (ahead p).1.length := by
      rw [hp, List.flatMap_nil, List.nil_append]
      omega
    rw [readAddresses, hleft.bits, mapErr, Exec.ok_bind, if_neg hshort, List.map_nil, List.append_nil]
    rfl
  | cons dvn dvns ih =>
    intro fuel p addresses hfuel hp
    obtain ⟨fuel, rfl⟩ := Nat.exists_eq_succ_of_ne_zero (Nat.ne_of_gt (Nat.zero_lt_of_lt hfuel))
    rw [List.flatMap_cons, List.append_assoc] at hp
    have hlong : 256 ≤ (ahead p).1.length := by
      rw [hp, List.length_append, length_keyBits]
      omega
    obtain ⟨q, hread, hq⟩ := hT.readBits p 256 hlong
    rw [hp, List.take_left' (length_keyBits dvn), packBits_keyBits] at hread
    rw [hp, List.drop_left' (length_keyBits dvn)] at hq
    obtain ⟨q', hloop, hq'⟩ := ih (addresses ++ [dvn.toList]) (Nat.lt_of_succ_lt_succ hfuel) (congrArg Prod.fst hq)
    refine ⟨q', ?_, by rw [hq', hq]⟩
    rw [readAddresses, hleft.bits, mapErr, Exec.ok_bind, if_pos hlong, hread, mapErr, Exec.ok_bind]
    exact hloop.trans (by rw [List.append_assoc]; rfl)

theorem depth_lt_of_head {cell next : TonCell} {refs : List TonCell} (h : cell.refs = next :: refs) :
    next.depth < cell.depth := by
  cases cell with
  | mk type mask bits children =>
    change children = next :: refs at h
    subst h
    rw [TonCell.depth, refsDepth]
    omega

/-- The addresses of a cell are no more than its bits. -/
theorem length_le_dataLenBits {dvns : List (Vector UInt8 32)} {rest : List Bool}
    (h : cell.bits = dvns.flatMap keyBits ++ rest) : dvns.length < cell.dataLenBits + 1 := by
  have hbits : (dvns.flatMap keyBits).length = dvns.length * 256 := by
    rw [List.length_flatMap, List.map_congr_left fun dvn _ => length_keyBits dvn, List.map_const', List.sum_replicate,
      smul_eq_mul]
  rw [TonCell.dataLenBits, h, List.length_append, hbits]
  omega

/-- **A chain of cells is read to its end.** -/
theorem addressesFrom_spec (hT : T.Lawful written ahead) (hleft : TellsLeft ahead dataBitsLeft refsLeft)
    {dvns : List (Vector UInt8 32)} (h : AddressList dvns cell) :
    ∀ {fuel : Nat} (addresses : List (List UInt8)), cell.depth < fuel →
      addressesFrom T dataBitsLeft refsLeft fuel cell addresses = .ok (addresses ++ dvns.map Vector.toList) := by
  induction h with
  | @last dvns cell rest hplain hrest hbits hrefs =>
    intro fuel addresses hfuel
    obtain ⟨fuel, rfl⟩ := Nat.exists_eq_succ_of_ne_zero (Nat.ne_of_gt (Nat.zero_lt_of_lt hfuel))
    have hparser := hT.parser cell
    obtain ⟨q, hread, hq⟩ := readAddresses_spec hT hleft hrest dvns addresses (length_le_dataLenBits hbits)
      (by rw [hparser]; exact hbits)
    have hnone : ¬ 0 < refsLeft q := by
      rw [hleft.refs, hq, hparser, hrefs]
      exact Nat.lt_irrefl 0
    rw [addressesFrom, requireOrdinary_of_plain hplain, Exec.ok_bind, hread, Exec.ok_bind]
    exact if_neg hnone
  | @more dvns later cell next rest refs hplain hrest hbits hrefs _ ih =>
    intro fuel addresses hfuel
    obtain ⟨fuel, rfl⟩ := Nat.exists_eq_succ_of_ne_zero (Nat.ne_of_gt (Nat.zero_lt_of_lt hfuel))
    have hparser := hT.parser cell
    obtain ⟨q, hread, hq⟩ := readAddresses_spec hT hleft hrest dvns addresses (length_le_dataLenBits hbits)
      (by rw [hparser]; exact hbits)
    rw [hparser, hrefs] at hq
    have hsome : 0 < refsLeft q := by
      rw [hleft.refs, hq]
      exact Nat.succ_pos _
    obtain ⟨q', hnext, -⟩ := hT.readNextRef_cons q next refs hq
    have hdepth := depth_lt_of_head hrefs
    rw [addressesFrom, requireOrdinary_of_plain hplain, Exec.ok_bind, hread, Exec.ok_bind]
    refine (if_pos hsome).trans ?_
    rw [hnext, mapErr, Exec.ok_bind]
    exact (ih _ (by omega)).trans (by rw [List.map_append, List.append_assoc])

theorem deserializeAddressList_stored (hT : T.Lawful written ahead) (hleft : TellsLeft ahead dataBitsLeft refsLeft)
    {dvns : List (Vector UInt8 32)} (h : AddressList dvns cell) :
    deserializeAddressList T dataBitsLeft refsLeft cell = .ok (dvns.map Vector.toList) :=
  addressesFrom_spec hT hleft h [] (Nat.lt_succ_self _)

/-! ## Receive configs -/

theorem receiveConfigDvns_stored (hT : T.Lawful written ahead) (hleft : TellsLeft ahead dataBitsLeft refsLeft)
    {config : ReceiveConfig} (h : config.Stored cell) :
    receiveConfigDvns T dataBitsLeft refsLeft cell =
      .ok ⟨config.required.null, config.required.dvns.map Vector.toList, config.optional.null,
        config.optional.dvns.map Vector.toList⟩ := by
  obtain ⟨fields, hclass, hstored⟩ := h
  obtain ⟨required, hrequired, hrequiredList⟩ := hstored.required.dvns
  obtain ⟨optional, hoptional, hoptionalList⟩ := hstored.optional.dvns
  rw [receiveConfigDvns, hclass.bool hT hstored.required.null, Exec.ok_bind, hclass.ref hT hrequired, Exec.ok_bind,
    deserializeAddressList_stored hT hleft hrequiredList, Exec.ok_bind, hclass.bool hT hstored.optional.null,
    Exec.ok_bind, hclass.ref hT hoptional, Exec.ok_bind, deserializeAddressList_stored hT hleft hoptionalList,
    Exec.ok_bind]
  rfl

theorem orDefault_map {α β : Type} (f : α → β) (name : String) (isNull : Bool) (dvns : List α) (defaultIsNull : Bool)
    (default : List α) : orDefault name isNull (dvns.map f) defaultIsNull (default.map f) =
      List.map f <$> orDefault name isNull dvns defaultIsNull default := by
  cases isNull <;> cases defaultIsNull <;> rfl

theorem effectiveReceiveDvns_stored (hT : T.Lawful written ahead) (hleft : TellsLeft ahead dataBitsLeft refsLeft)
    {custom default : ReceiveConfig} {customCell defaultCell : TonCell} (hcustom : custom.Stored customCell)
    (hdefault : default.Stored defaultCell) :
    effectiveReceiveDvns T dataBitsLeft refsLeft customCell defaultCell =
      List.map Vector.toList <$> custom.effectiveDvns default := by
  rw [effectiveReceiveDvns, receiveConfigDvns_stored hT hleft hcustom, Exec.ok_bind,
    receiveConfigDvns_stored hT hleft hdefault, Exec.ok_bind]
  simp only [orDefault_map]
  rw [ReceiveConfig.effectiveDvns, DvnList.orDefault, DvnList.orDefault]
  cases orDefault "requiredDVNs" custom.required.null custom.required.dvns default.required.null
    default.required.dvns with
  | error e => rfl
  | ok required =>
    cases orDefault "optionalDVNs" custom.optional.null custom.optional.dvns default.optional.null
      default.optional.dvns with
    | error e => rfl
    | ok optional => exact congrArg Except.ok (List.map_append).symm

theorem effectiveReceiveConfirmations_stored (hT : T.Lawful written ahead) {custom default : ReceiveConfig}
    {customCell defaultCell : TonCell} (hcustom : custom.Stored customCell) (hdefault : default.Stored defaultCell) :
    effectiveReceiveConfirmations T customCell defaultCell = .ok (custom.effectiveConfirmations default) := by
  obtain ⟨fields, hclass, hstored⟩ := hcustom
  obtain ⟨fields', hclass', hstored'⟩ := hdefault
  rw [effectiveReceiveConfirmations, hclass.bool hT hstored.confirmationsNull, Exec.ok_bind,
    ReceiveConfig.effectiveConfirmations]
  cases custom.confirmationsNull with
  | false => exact hclass.u64 hT hstored.confirmations
  | true => exact hclass'.u64 hT hstored'.confirmations

/-! ## The connection -/

theorem dict256GetRef_dict (hT : T.Lawful written ahead) {m : Vector UInt8 32 → Option TonCell} (h : Dict m cell)
    (key : Vector UInt8 32) : dict256GetRef T cell key = .ok (m key) := by
  cases h with
  | hashmap bits h hm =>
    obtain ⟨hplain, hbits⟩ := h.root
    have hlen : cell.dataLenBits ≠ 0 := fun h0 => hbits (List.eq_nil_of_length_eq_zero h0)
    rw [dict256GetRef, requireOrdinary_of_plain hplain, Exec.ok_bind, if_neg hlen, ← hm]
    exact dictLoop_spec hT h rfl (by decide)
  | empty hplain hbits hm =>
    rw [dict256GetRef, requireOrdinary_of_plain hplain, Exec.ok_bind, if_pos hbits, hm]
    rfl

theorem eq_none_of_rel {α β : Type} {r : α → β → Prop} {o : Option α} (h : Option.Rel r o .none) : o = .none := by
  cases h
  rfl

theorem exists_of_rel {α β : Type} {r : α → β → Prop} {o : Option α} {b : β} (h : Option.Rel r o (.some b)) :
    ∃ a, o = .some a ∧ r a b := by
  cases h with
  | some h => exact ⟨_, rfl, h⟩

theorem toList_mem_map {dvn : Vector UInt8 32} {dvns : List (Vector UInt8 32)} :
    dvn.toList ∈ dvns.map Vector.toList ↔ dvn ∈ dvns :=
  List.mem_map_of_injective fun _ _ h => Vector.toList_inj.mp h

theorem attestationOutcome_stored (hT : T.Lawful written ahead) {custom default : ReceiveConfig}
    {customCell defaultCell : TonCell} (hcustom : custom.Stored customCell) (hdefault : default.Stored defaultCell)
    {attestation : Attestation} (h : attestation.Stored cell) (packetHash : Vector UInt8 32) :
    attestationOutcome T customCell defaultCell cell packetHash =
      if attestation.hash ≠ packetHash then .ok .absent
      else if custom.effectiveConfirmations default ≤ attestation.confirmations then .ok .matches
      else .ok .insufficientConfirmations := by
  obtain ⟨fields, hclass, hhash, hconfirmations⟩ := h
  rw [attestationOutcome, hclass.u256 hT hhash, Exec.ok_bind]
  by_cases heq : attestation.hash = packetHash
  · rw [if_neg (by rw [heq]; exact not_not.mpr rfl), if_neg (not_not.mpr heq),
      effectiveReceiveConfirmations_stored hT hcustom hdefault, Exec.ok_bind, hclass.u64 hT hconfirmations,
      Exec.ok_bind]
    split_ifs <;> rfl
  · rw [if_pos fun h => heq (Vector.toList_inj.mp h), if_pos heq]
    rfl

/-- **What is read off the cells is the contract's predicate** on the connection
and the default config that they hold. -/
theorem dvnAttestation_stored (hT : T.Lawful written ahead) (hleft : TellsLeft ahead dataBitsLeft refsLeft)
    {connection : Connection} {default : ReceiveConfig} {connectionCell defaultCell : TonCell}
    (hconnection : connection.Stored connectionCell) (hdefault : default.Stored defaultCell) (nonce : UInt64)
    (verifier packetHash : Vector UInt8 32) :
    dvnAttestation T dataBitsLeft refsLeft connectionCell defaultCell nonce verifier packetHash =
      connection.attestation default nonce verifier packetHash := by
  obtain ⟨fields, config, lookups, m, hclass, hconfig, hlookups, hcustom, hdict, hstored⟩ := hconnection
  rw [dvnAttestation, hclass.ref hT hlookups, Exec.ok_bind, dict256GetRef_dict hT hdict, Exec.ok_bind,
    Connection.attestation]
  cases hnonce : connection.hashLookups nonce with
  | none =>
    have hcell : m (nonceKey nonce) = .none := eq_none_of_rel (hnonce ▸ hstored nonce)
    rw [hcell]
    rfl
  | some attested =>
    obtain ⟨perVerifier, hcell, m', hdict', hstored'⟩ := exists_of_rel (hnonce ▸ hstored nonce)
    rw [hcell]
    dsimp only
    rw [ulnConnectionReceiveConfigCell, hclass.ref hT hconfig, Exec.ok_bind,
      effectiveReceiveDvns_stored hT hleft hcustom hdefault]
    cases hdvns : connection.receiveConfig.effectiveDvns default with
    | error e => rfl
    | ok configured =>
      refine (if_congr (not_congr toList_mem_map) rfl rfl).trans ?_
      rw [Exec.ok_bind]
      split_ifs with hmem
      · rw [dict256GetRef_dict hT hdict', Exec.ok_bind]
        cases hverifier : attested verifier with
        | none =>
          have hcell' : m' verifier = .none := eq_none_of_rel (hverifier ▸ hstored' verifier)
          rw [hcell']
        | some attestation =>
          obtain ⟨attestationCell, hcell', hattestation⟩ := exists_of_rel (hverifier ▸ hstored' verifier)
          rw [hcell']
          exact attestationOutcome_stored hT hcustom hdefault hattestation packetHash
      · rfl

/-! ## A connection -/

def emptyCell : TonCell := .mk .ordinary 0 [] []

def listCell (dvns : List (Vector UInt8 32)) : TonCell := .mk .ordinary 0 (dvns.flatMap keyBits) []

theorem addressList_listCell (dvns : List (Vector UInt8 32)) : AddressList dvns (listCell dvns) :=
  .last ⟨rfl, rfl⟩ (show ([] : List Bool).length < 256 by decide) (List.append_nil _).symm rfl

/-- The dictionary with one key. -/
def singleKeyDict (key : Vector UInt8 32) (value : TonCell) : TonCell :=
  .mk .ordinary 0 (true :: false :: Bits.ofNat (boundedUintBits 256) (keyBits key).length ++ keyBits key) [value]

theorem keyBits_injective : Function.Injective keyBits := by
  intro a b h
  have hbytes := congrArg packBits h
  rw [packBits_keyBits, packBits_keyBits] at hbytes
  exact Vector.toList_inj.mp hbytes

theorem dict_singleKeyDict (key : Vector UInt8 32) (value : TonCell) :
    Dict (fun k => if k = key then .some value else .none) (singleKeyDict key value) := by
  refine .hashmap (fun bits => if bits = keyBits key then .some value else .none)
    (.leaf (keyBits key) value ⟨rfl, rfl⟩ (.long _ (length_keyBits key).le) (length_keyBits key) rfl fun _ _ => rfl)
    fun k => ?_
  exact if_congr keyBits_injective.eq_iff rfl rfl

/-- The cell that `cl_declare` makes. -/
def classCell (name : String) (fields : List ClField) : TonCell :=
  (clDeclare .plain name fields).toOption.getD emptyCell

theorem isClass_classCell {name : String} (hok : (clDeclare .plain name fields).isOk = true)
    (htyped : ∀ field ∈ fields, field.Typed) (hzero : LevelZero fields) : IsClass fields (classCell name fields) := by
  cases h : clDeclare .plain name fields with
  | error e =>
    rw [h] at hok
    cases hok
  | ok cell =>
    rw [classCell, h]
    exact ⟨name, ((clDeclare_yields TonCore.plain_lawful name fields htyped).2 cell h).2, hzero⟩

def sampleDvn : Vector UInt8 32 := Vector.replicate 32 0xaa

def sampleHash : Vector UInt8 32 := Vector.replicate 32 0x77

/-- A config that leaves the confirmations to the default, and needs twenty as a default. -/
def sampleConfig : ReceiveConfig where
  confirmationsNull := true
  confirmations := 20
  required := ⟨false, [sampleDvn]⟩
  optional := ⟨false, []⟩

def configFields : List ClField :=
  [.num 0 1, .num 5 0, .num 0 1, .num 6 20, .num 0 0, .ref (listCell [sampleDvn]), .num 0 0, .ref (listCell []),
    .num 3 0]

def configCell : TonCell := classCell "UlnRecvCfg" configFields

def attestationFields : List ClField := [.num 8 (Bits.ofBytes sampleHash.toList), .num 6 1]

def attestationCell : TonCell := classCell "Attest" attestationFields

/-- One confirmation for the packet at nonce 7. -/
def sampleConnection : Connection where
  receiveConfig := sampleConfig
  hashLookups nonce := if nonce = 7 then .some fun dvn => if dvn = sampleDvn then .some ⟨sampleHash, 1⟩ else .none
    else .none

def lookupsCell : TonCell := singleKeyDict (nonceKey 7) (singleKeyDict sampleDvn attestationCell)

def connectionFields : List ClField :=
  [.ref emptyCell, .ref emptyCell, .num 8 0, .num 8 0, .num 6 1, .num 8 0, .ref emptyCell, .ref configCell,
    .ref lookupsCell, .ref emptyCell]

def connectionCell : TonCell := classCell "connection" connectionFields

theorem isClass_configCell : IsClass configFields configCell := by
  refine isClass_classCell (by decide +kernel) ?_ ?_
  · simp [configFields, ClField.Typed]
  · simp [configFields, LevelZero, listCell, TonCell.levelMask]

theorem isClass_attestationCell : IsClass attestationFields attestationCell := by
  refine isClass_classCell (by decide +kernel) ?_ ?_
  · simp [attestationFields, ClField.Typed]
  · simp [attestationFields, LevelZero]

theorem isClass_connectionCell : IsClass connectionFields connectionCell := by
  refine isClass_classCell (by decide +kernel) ?_ fun child hchild => ?_
  · simp [connectionFields, ClField.Typed]
  · simp only [connectionFields, List.mem_cons, reduceCtorEq, ClField.ref.injEq, List.not_mem_nil, false_or,
      or_false] at hchild
    rcases hchild with h | h | h | h | h | h
    · rw [h]; rfl
    · rw [h]; rfl
    · rw [h]; rfl
    · rw [h, isClass_configCell.plain.2]
    · rw [h]; rfl
    · rw [h]; rfl

theorem sampleConfig_stored : sampleConfig.Stored configCell :=
  ⟨configFields, isClass_configCell, rfl, rfl, ⟨rfl, _, rfl, addressList_listCell _⟩,
    ⟨rfl, _, rfl, addressList_listCell _⟩⟩

theorem toList_nonceKey (nonce : UInt64) :
    (nonceKey nonce).toList = List.replicate 24 0 ++ Bits.bytesOf 8 nonce.toNat := rfl

theorem nonceKey_injective : Function.Injective nonceKey := by
  intro a b h
  have hlist := congrArg Vector.toList h
  rw [toList_nonceKey, toList_nonceKey] at hlist
  have hbytes : Bits.bytesOf 8 a.toNat = Bits.bytesOf 8 b.toNat := List.append_cancel_left hlist
  have ha : a.toNat < 256 ^ 8 := a.toNat_lt
  have hb : b.toNat < 256 ^ 8 := b.toNat_lt
  refine UInt64.toNat_inj.mp ?_
  rw [← Bits.ofBytes_bytesOf ha, hbytes, Bits.ofBytes_bytesOf hb]

theorem sampleConnection_stored : sampleConnection.Stored connectionCell := by
  refine ⟨connectionFields, configCell, lookupsCell, _, isClass_connectionCell, rfl, rfl, sampleConfig_stored,
    dict_singleKeyDict _ _, fun nonce => ?_⟩
  dsimp only [sampleConnection]
  by_cases hnonce : nonce = 7
  · subst hnonce
    rw [if_pos rfl, if_pos rfl]
    refine .some ⟨_, dict_singleKeyDict _ _, fun dvn => ?_⟩
    beta_reduce
    by_cases hdvn : dvn = sampleDvn
    · rw [if_pos hdvn, if_pos hdvn]
      exact .some ⟨attestationFields, isClass_attestationCell, rfl, rfl⟩
    · rw [if_neg hdvn, if_neg hdvn]
      exact .none
  · rw [if_neg hnonce, if_neg fun h => hnonce (nonceKey_injective h)]
    exact .none

theorem dvnAttestation_stored_short :
    dvnAttestation .plain (fun p => .ok p.1.length) (fun p => p.2.length) connectionCell configCell 7 sampleDvn
      sampleHash = sampleConnection.attestation sampleConfig 7 sampleDvn sampleHash :=
  dvnAttestation_stored TonCore.plain_lawful ⟨fun _ => rfl, fun _ => rfl⟩ sampleConnection_stored sampleConfig_stored
    7 sampleDvn sampleHash

example : sampleConnection.attestation sampleConfig 7 sampleDvn sampleHash = .ok .insufficientConfirmations := by decide

end Pillar.Ton
