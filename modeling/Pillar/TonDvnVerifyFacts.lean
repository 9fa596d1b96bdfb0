/-
What a TON DVN signs is one verification: the hash in it names every part of the
request, or two of the cells hashed for the two requests have one hash.
-/
import Pillar.EvmPayloadFacts
import Pillar.TonDvnVerify

namespace Pillar.Ton

open EvmPayload (trimHex)
open Hex Text

variable {T : TonCore} {written : T.Builder → Contents} {ahead : T.Parser → Contents}

/-! ## Classes of one cell -/

/-- A class cell is of one list of fields of its types. -/
theorem fields_of_clDeclare (hT : T.Lawful written ahead) {name : String} {fields fields' : List ClField}
    {cell : TonCell} (h : clDeclare T name fields = .ok cell) (h' : clDeclare T name fields' = .ok cell)
    (htyped : ∀ field ∈ fields, field.Typed) (hkind : fields.map ClField.kind = fields'.map ClField.kind) :
    fields = fields' := by
  have htyped' : ∀ field ∈ fields', field.Typed := by
    intro field hfield
    have hmem : field.kind ∈ fields.map ClField.kind := hkind ▸ List.mem_map_of_mem hfield
    obtain ⟨twin, htwin, heq⟩ := List.mem_map.mp hmem
    have hboth := htyped twin htwin
    cases field with
    | ref cell => trivial
    | num typeCode value =>
      cases twin with
      | ref cell => cases heq
      | num typeCode' value' =>
        cases heq
        exact hboth
  exact ((clDeclare_yields hT name fields htyped).2 cell h).2.unique
    ((clDeclare_yields hT name fields' htyped').2 cell h').2 hkind

theorem uint256Be_inj {a b : Vector UInt8 32} (h : uint256Be a = uint256Be b) : a = b := by
  have hvalue : Bits.ofBytes a.toList = Bits.ofBytes b.toList := by
    injection h
  have ha := Bits.bytesOf_ofBytes a.toList
  have hb := Bits.bytesOf_ofBytes b.toList
  rw [Vector.length_toList] at ha hb
  exact Vector.toList_inj.mp (by rw [← ha, hvalue, hb])

theorem uint64_inj {a b : UInt64} (h : ClField.num tUint64 a.toNat = ClField.num tUint64 b.toNat) : a = b := by
  injection h with _ h
  exact UInt64.toNat_inj.mp h

theorem uint32_inj {a b : UInt32} (h : ClField.num tUint32 a.toNat = ClField.num tUint32 b.toNat) : a = b := by
  injection h with _ h
  exact UInt32.toNat_inj.mp h

theorem requireNonneg_ok {value : Int} {field : String} {n : Nat} (h : requireNonneg value field = .ok n) :
    value = n := by
  unfold requireNonneg at h
  split at h
  · cases h
  · next hneg =>
    obtain rfl := Except.ok.inj h
    omega

theorem buildAttestation_inj (hT : T.Lawful written ahead) {hash hash' : Vector UInt8 32}
    {confirmations confirmations' : Int} {cell : TonCell} (h : buildAttestation T hash confirmations = .ok cell)
    (h' : buildAttestation T hash' confirmations' = .ok cell) : hash = hash' ∧ confirmations = confirmations' := by
  obtain ⟨n, hn, h⟩ := Exec.bind_ok_iff.mp h
  obtain ⟨n', hn', h'⟩ := Exec.bind_ok_iff.mp h'
  have hfields := fields_of_clDeclare hT h h' (by simp [ClField.Typed, uint256Be, tUint256, tUint64]) rfl
  injection hfields with hhash hfields
  injection hfields with hconfirmations
  injection hconfirmations with _ hconfirmations
  refine ⟨uint256Be_inj hhash, ?_⟩
  rw [requireNonneg_ok hn, requireNonneg_ok hn', hconfirmations]

theorem buildUlnVerification_inj (hT : T.Lawful written ahead) {nonce nonce' : UInt64}
    {attestation attestation' cell : TonCell} (h : buildUlnVerification T nonce attestation = .ok cell)
    (h' : buildUlnVerification T nonce' attestation' = .ok cell) : nonce = nonce' ∧ attestation = attestation' := by
  have hfields := fields_of_clDeclare hT h h' (by simp [ClField.Typed, tUint64]) rfl
  injection hfields with hnonce hfields
  injection hfields with hattestation
  injection hattestation with hattestation
  exact ⟨uint64_inj hnonce, hattestation⟩

theorem buildMdAddress_inj (hT : T.Lawful written ahead) {md md' cell : TonCell} {address address' : Vector UInt8 32}
    (h : buildMdAddress T md address = .ok cell) (h' : buildMdAddress T md' address' = .ok cell) :
    md = md' ∧ address = address' := by
  have hfields := fields_of_clDeclare hT h h' (by simp [ClField.Typed, uint256Be, tUint256]) rfl
  injection hfields with hmd hfields
  injection hfields with haddress
  injection hmd with hmd
  exact ⟨hmd, uint256Be_inj haddress⟩

theorem buildUlnCallData_inj (hT : T.Lawful written ahead) {connection connection' : Vector UInt8 32}
    {nonce nonce' : UInt64} {confirmations confirmations' : Int} {packet packet' : Vector UInt8 32} {cell : TonCell}
    (h : buildUlnCallData T connection nonce confirmations packet = .ok cell)
    (h' : buildUlnCallData T connection' nonce' confirmations' packet' = .ok cell) :
    connection = connection' ∧ nonce = nonce' ∧ confirmations = confirmations' ∧ packet = packet' := by
  obtain ⟨attestation, hattestation, h⟩ := Exec.bind_ok_iff.mp h
  obtain ⟨verification, hverification, h⟩ := Exec.bind_ok_iff.mp h
  obtain ⟨attestation', hattestation', h'⟩ := Exec.bind_ok_iff.mp h'
  obtain ⟨verification', hverification', h'⟩ := Exec.bind_ok_iff.mp h'
  obtain ⟨rfl, hconnection⟩ := buildMdAddress_inj hT h h'
  obtain ⟨hnonce, rfl⟩ := buildUlnVerification_inj hT hverification hverification'
  obtain ⟨hpacket, hconfirmations⟩ := buildAttestation_inj hT hattestation hattestation'
  exact ⟨hconnection, hnonce, hconfirmations, hpacket⟩

theorem buildExecuteParams_inj (hT : T.Lawful written ahead) {target target' forwarding forwarding' : Vector UInt8 32}
    {callData callData' cell : TonCell} {expiration expiration' : Int} {opcode opcode' : Nat}
    (h : buildExecuteParams T target callData expiration opcode forwarding = .ok cell)
    (h' : buildExecuteParams T target' callData' expiration' opcode' forwarding' = .ok cell) :
    target = target' ∧ callData = callData' ∧ expiration = expiration' ∧ forwarding = forwarding' := by
  obtain ⟨n, hn, h⟩ := Exec.bind_ok_iff.mp h
  obtain ⟨n', hn', h'⟩ := Exec.bind_ok_iff.mp h'
  have hfields := fields_of_clDeclare hT h h' (by simp [ClField.Typed, uint256Be, tUint256, tUint64, tUint32]) rfl
  injection hfields with htarget hfields
  injection hfields with hcallData hfields
  injection hfields with hexpiration hfields
  injection hfields with _ hfields
  injection hfields with hforwarding
  injection hcallData with hcallData
  injection hexpiration with _ hexpiration
  refine ⟨uint256Be_inj htarget, hcallData, ?_, uint256Be_inj hforwarding⟩
  rw [requireNonneg_ok hn, requireNonneg_ok hn', hexpiration]

theorem buildLzPath_inj (hT : T.Lawful written ahead) {srcEid srcEid' dstEid dstEid' : UInt32}
    {srcOapp srcOapp' dstOapp dstOapp' : Vector UInt8 32} {cell : TonCell}
    (h : buildLzPath T srcEid srcOapp dstEid dstOapp = .ok cell)
    (h' : buildLzPath T srcEid' srcOapp' dstEid' dstOapp' = .ok cell) :
    srcEid = srcEid' ∧ srcOapp = srcOapp' ∧ dstEid = dstEid' ∧ dstOapp = dstOapp' := by
  have hfields := fields_of_clDeclare hT h h' (by simp [ClField.Typed, tUint256, tUint32]) rfl
  injection hfields with hsrcEid hfields
  injection hfields with hsrcOapp hfields
  injection hfields with hdstEid hfields
  injection hfields with hdstOapp
  exact ⟨uint32_inj hsrcEid, uint256Be_inj hsrcOapp, uint32_inj hdstEid, uint256Be_inj hdstOapp⟩

/-- A message that is carried is hexadecimal, and its snake is of its bytes alone. -/
theorem hexToCells_inj (hT : T.Lawful written ahead) {writeBitsWithOffset : BitWriter T}
    (hS : Snakes T written writeBitsWithOffset) {hex : HexCrate} {text text' : String} {cell : TonCell}
    (h : hexToCells T writeBitsWithOffset hex text = .ok cell)
    (h' : hexToCells T writeBitsWithOffset hex text' = .ok cell) :
    ∃ bytes, decodeChars (messageBody text).toList = .some bytes ∧
      decodeChars (messageBody text').toList = .some bytes := by
  have hcarries : ∀ {text}, hexToCells T writeBitsWithOffset hex text = .ok cell → ∃ cs, Carries text cell cs := by
    intro text h
    by_cases hbad : Unsnakeable (messageBody text)
    · obtain ⟨e, herr⟩ := hexToCells_refuses hex hbad
      rw [herr] at h
      cases h
    · obtain ⟨_, cs, hcell, hcarries⟩ := hexToCells_carries hT hS hex hbad
      rw [hcell] at h
      cases h
      exact ⟨cs, hcarries⟩
  obtain ⟨cs, hcs⟩ := hcarries h
  obtain ⟨cs', hcs'⟩ := hcarries h'
  obtain rfl := hcs.snake.unique hcs'.snake
  exact ⟨_, hcs.bytes, hcs'.bytes⟩

theorem buildLzPacket_inj (hT : T.Lawful written ahead) {writeBitsWithOffset : BitWriter T}
    (hS : Snakes T written writeBitsWithOffset) {hex : HexCrate} {path path' cell : TonCell} {text text' : String}
    {nonce nonce' : UInt64} {guid guid' : Vector UInt8 32}
    (h : buildLzPacket T writeBitsWithOffset hex path text nonce guid = .ok cell)
    (h' : buildLzPacket T writeBitsWithOffset hex path' text' nonce' guid' = .ok cell) :
    path = path' ∧ nonce = nonce' ∧ guid = guid' ∧ ∃ bytes, decodeChars (messageBody text).toList = .some bytes ∧
      decodeChars (messageBody text').toList = .some bytes := by
  obtain ⟨message, hmessage, h⟩ := Exec.bind_ok_iff.mp h
  obtain ⟨message', hmessage', h'⟩ := Exec.bind_ok_iff.mp h'
  have hfields := fields_of_clDeclare hT h h' (by simp [ClField.Typed, tUint256, tUint64]) rfl
  injection hfields with hpath hfields
  injection hfields with hcell hfields
  injection hfields with hnonce hfields
  injection hfields with hguid
  injection hpath with hpath
  injection hcell with hcell
  subst hcell
  exact ⟨hpath, uint64_inj hnonce, uint256Be_inj hguid, hexToCells_inj hT hS hmessage hmessage'⟩

/-! ## Addresses -/

theorem buildBaseStorage_inj (hT : T.Lawful written ahead) {owner owner' : Vector UInt8 32} {cell : TonCell}
    (h : buildBaseStorage T owner = .ok cell) (h' : buildBaseStorage T owner' = .ok cell) : owner = owner' := by
  obtain ⟨storage, -, h⟩ := Exec.bind_ok_iff.mp h
  obtain ⟨storage', -, h'⟩ := Exec.bind_ok_iff.mp h'
  have hfields := fields_of_clDeclare hT h h' (by simp [ClField.Typed, uint256Be, tUint256]) rfl
  injection hfields with howner
  exact uint256Be_inj howner

theorem buildUlnData_inj (hT : T.Lawful written ahead) {owner owner' : Vector UInt8 32}
    {srcEid srcEid' dstEid dstEid' : UInt32} {cell : TonCell} (h : buildUlnData T owner srcEid dstEid = .ok cell)
    (h' : buildUlnData T owner' srcEid' dstEid' = .ok cell) : owner = owner' := by
  obtain ⟨baseStorage, hbase, h⟩ := Exec.bind_ok_iff.mp h
  obtain ⟨receive, hreceive, h⟩ := Exec.bind_ok_iff.mp h
  obtain ⟨send, hsend, h⟩ := Exec.bind_ok_iff.mp h
  obtain ⟨connectionCode, hcode, h⟩ := Exec.bind_ok_iff.mp h
  obtain ⟨infos, hinfos, h⟩ := Exec.bind_ok_iff.mp h
  obtain ⟨baseStorage', hbase', h'⟩ := Exec.bind_ok_iff.mp h'
  obtain ⟨receive', hreceive', h'⟩ := Exec.bind_ok_iff.mp h'
  obtain ⟨send', hsend', h'⟩ := Exec.bind_ok_iff.mp h'
  obtain ⟨connectionCode', hcode', h'⟩ := Exec.bind_ok_iff.mp h'
  obtain ⟨infos', hinfos', h'⟩ := Exec.bind_ok_iff.mp h'
  have hfields := fields_of_clDeclare hT h h' (by simp [ClField.Typed, tUint32]) rfl
  injection hfields with hstorage
  injection hstorage with hstorage
  subst hstorage
  exact buildBaseStorage_inj hT hbase hbase'

theorem writeBit_ok (hT : T.Lawful written ahead) {b b' : T.Builder} {bit : Bool}
    (h : mapErr (T.writeBit b bit) = .ok b') : written b' = ((written b).1 ++ [bit], (written b).2) :=
  ((hT.writeBit b bit).yields.2 b' h).2

theorem writeRef_ok (hT : T.Lawful written ahead) {b b' : T.Builder} {cell : TonCell}
    (h : mapErr (T.writeRef b cell) = .ok b') : written b' = ((written b).1, (written b).2 ++ [cell]) :=
  ((hT.writeRef b cell).yields.2 b' h).2

/-- A state init refers to its code and its data. -/
theorem stateInit_refs (hT : T.Lawful written ahead) {code data cell : TonCell} (h : stateInit T code data = .ok cell) :
    cell.refs = [code, data] := by
  obtain ⟨b₁, h₁, h⟩ := Exec.bind_ok_iff.mp h
  obtain ⟨b₂, h₂, h⟩ := Exec.bind_ok_iff.mp h
  obtain ⟨b₃, h₃, h⟩ := Exec.bind_ok_iff.mp h
  obtain ⟨b₄, h₄, h⟩ := Exec.bind_ok_iff.mp h
  obtain ⟨b₅, h₅, h⟩ := Exec.bind_ok_iff.mp h
  obtain ⟨b₆, h₆, h⟩ := Exec.bind_ok_iff.mp h
  obtain ⟨b₇, h₇, h⟩ := Exec.bind_ok_iff.mp h
  have hcell := hT.build b₇ cell (mapErr_eq_ok.mp h)
  rw [hcell]
  show (written b₇).2 = [code, data]
  rw [writeBit_ok hT h₇, writeRef_ok hT h₆, writeBit_ok hT h₅, writeRef_ok hT h₄, writeBit_ok hT h₃, writeBit_ok hT h₂,
    writeBit_ok hT h₁, hT.builder]
  rfl

theorem stateInit_inj (hT : T.Lawful written ahead) {code code' data data' cell : TonCell}
    (h : stateInit T code data = .ok cell) (h' : stateInit T code' data' = .ok cell) : code = code' ∧ data = data' := by
  have hrefs := (stateInit_refs hT h).symm.trans (stateInit_refs hT h')
  injection hrefs with hcode hrefs
  injection hrefs with hdata
  exact ⟨hcode, hdata⟩

/-! ## What a payload says -/

/-- A verification: what a request says, its texts read. -/
structure Verification where
  target : Vector UInt8 32
  sender : Vector UInt8 32
  receiver : Vector UInt8 32
  ulnManager : Vector UInt8 32
  guid : Vector UInt8 32
  srcEid : UInt32
  dstEid : UInt32
  nonce : UInt64
  blockConfirmation : Int
  expiration : Int
  message : List UInt8
  ulnCode : TonCell
  ulnConnectionCode : TonCell

variable {crates : DvnVerifyCrates} {req req' : TonDvnVerifyRequest}

structure Verification.ReadFrom (crates : DvnVerifyCrates) (v : Verification) (req : TonDvnVerifyRequest) : Prop where
  target : addressToBe32 crates req.target = .ok v.target
  sender : addressToBe32 crates req.pathway.sender = .ok v.sender
  receiver : addressToBe32 crates req.pathway.receiver = .ok v.receiver
  ulnManager : addressToBe32 crates req.pathway.ulnManagerAddress = .ok v.ulnManager
  guid : hexToBe32 crates req.guid = .ok v.guid
  srcEid : req.pathway.srcEid = v.srcEid
  dstEid : req.pathway.dstEid = v.dstEid
  nonce : req.nonce = v.nonce
  blockConfirmation : req.blockConfirmation = v.blockConfirmation
  expiration : req.expiration = v.expiration
  message : decodeChars (messageBody req.message).toList = .some v.message
  ulnCode : bocFromHex crates req.code.uln = .ok v.ulnCode
  ulnConnectionCode : bocFromHex crates req.code.ulnConnection = .ok v.ulnConnectionCode

/-- The cells that are hashed for a payload. -/
def TonDvnVerify.hashed (built : TonDvnVerify) : List TonCell :=
  [built.dvnCallData, built.packet, built.derived.ulnInit, built.derived.ulnConnectionInit]

/-- Two cells, one of each payload, with one hash. -/
def Collide (crates : DvnVerifyCrates) (built built' : TonDvnVerify) : Prop :=
  ∃ cell ∈ built.hashed, ∃ cell' ∈ built'.hashed, cell ≠ cell' ∧ crates.hash cell = crates.hash cell'

theorem eq_of_hash {built built' : TonDvnVerify} (h : ¬ Collide crates built built') {cell cell' : TonCell}
    {hash : Vector UInt8 32} (hcell : cell ∈ built.hashed) (hcell' : cell' ∈ built'.hashed)
    (hhash : crates.hash cell = .ok hash) (hhash' : crates.hash cell' = .ok hash) : cell = cell' := by
  by_contra hne
  exact h ⟨cell, hcell, cell', hcell', hne, hhash.trans hhash'.symm⟩

/-- What deriving the addresses goes through. -/
structure Derives (crates : DvnVerifyCrates) (pathway : TonPathway) (code : TonContractCodeCells)
    (ulnManager sender receiver : Vector UInt8 32) (ulnCode ulnConnectionCode : TonCell) (derived : DerivedAddresses) :
    Prop where
  managerRead : addressToBe32 crates pathway.ulnManagerAddress = .ok ulnManager
  senderRead : addressToBe32 crates pathway.sender = .ok sender
  receiverRead : addressToBe32 crates pathway.receiver = .ok receiver
  codeRead : bocFromHex crates code.uln = .ok ulnCode
  connectionCodeRead : bocFromHex crates code.ulnConnection = .ok ulnConnectionCode
  uln : ∃ data, buildUlnData crates.T ulnManager pathway.dstEid pathway.srcEid = .ok data ∧
    stateInit crates.T ulnCode data = .ok derived.ulnInit
  ulnHash : crates.hash derived.ulnInit = .ok derived.uln.hash
  connection : ∃ data, stateInit crates.T ulnConnectionCode data = .ok derived.ulnConnectionInit
  connectionHash : crates.hash derived.ulnConnectionInit = .ok derived.ulnConnection.hash

theorem addressOf_ok {cell : TonCell} {address : TonAddress} (h : addressOf crates cell = .ok address) :
    crates.hash cell = .ok address.hash := by
  obtain ⟨hash, hhash, h⟩ := Exec.bind_ok_iff.mp h
  obtain rfl := Except.ok.inj h
  exact mapErr_eq_ok.mp hhash

theorem deriveUlnAddresses_ok {pathway : TonPathway} {code : TonContractCodeCells} {derived : DerivedAddresses}
    (h : deriveUlnAddresses crates pathway code = .ok derived) :
    ∃ ulnManager sender receiver ulnCode ulnConnectionCode,
      Derives crates pathway code ulnManager sender receiver ulnCode ulnConnectionCode derived := by
  obtain ⟨ulnManager, hmanager, h⟩ := Exec.bind_ok_iff.mp h
  obtain ⟨sender, hsender, h⟩ := Exec.bind_ok_iff.mp h
  obtain ⟨receiver, hreceiver, h⟩ := Exec.bind_ok_iff.mp h
  obtain ⟨ulnCode, hulnCode, h⟩ := Exec.bind_ok_iff.mp h
  obtain ⟨ulnConnectionCode, hconnectionCode, h⟩ := Exec.bind_ok_iff.mp h
  obtain ⟨ulnData, hulnData, h⟩ := Exec.bind_ok_iff.mp h
  obtain ⟨ulnInit, hulnInit, h⟩ := Exec.bind_ok_iff.mp h
  obtain ⟨uln, huln, h⟩ := Exec.bind_ok_iff.mp h
  obtain ⟨data, hdata, h⟩ := Exec.bind_ok_iff.mp h
  obtain ⟨connectionInit, hconnectionInit, h⟩ := Exec.bind_ok_iff.mp h
  obtain ⟨connection, hconnection, h⟩ := Exec.bind_ok_iff.mp h
  obtain rfl := Except.ok.inj h
  exact ⟨ulnManager, sender, receiver, ulnCode, ulnConnectionCode, hmanager, hsender, hreceiver, hulnCode,
    hconnectionCode, ⟨ulnData, hulnData, hulnInit⟩, addressOf_ok huln, ⟨data, hconnectionInit⟩,
    addressOf_ok hconnection⟩

theorem reprHashHex_ok {cell : TonCell} {text : String} (h : reprHashHex crates cell = .ok text) :
    ∃ hash, crates.hash cell = .ok hash ∧ text = crates.hex.encode hash.toList := by
  obtain ⟨hash, hhash, h⟩ := Exec.bind_ok_iff.mp h
  exact ⟨hash, mapErr_eq_ok.mp hhash, (Except.ok.inj h).symm⟩

theorem rightAligned_toList (be : Vector UInt8 32) : rightAligned be.toList = .some be := by
  rw [rightAligned, dif_pos (Vector.length_toList).le]
  refine congrArg _ (Vector.toList_inj.mp ?_)
  simp [Vector.toList_mk]

/-- A hash is read back from its digits. -/
theorem hexToBe32_encode (be : Vector UInt8 32) : hexToBe32 crates (crates.hex.encode be.toList) = .ok be := by
  have hdigits := crates.hex.toList_encode be.toList
  have htrim : trimHex (crates.hex.encode be.toList) = crates.hex.encode be.toList := by
    rw [trimHex, hdigits, PacketSent.trimHexPrefixes_eq_self (EvmPayload.notMem_x_encodeChars _), ← hdigits, String.ofList_toList]
  rw [hexToBe32, htrim, crates.hex.decode_encode]
  dsimp only
  rw [rightAligned_toList]

/-- What building a payload goes through. -/
structure Assembles (crates : DvnVerifyCrates) (req : TonDvnVerifyRequest) (built : TonDvnVerify)
    (sender receiver guid packetHash target : Vector UInt8 32) : Prop where
  senderRead : addressToBe32 crates req.pathway.sender = .ok sender
  receiverRead : addressToBe32 crates req.pathway.receiver = .ok receiver
  guidRead : hexToBe32 crates req.guid = .ok guid
  targetRead : addressToBe32 crates req.target = .ok target
  packet : ∃ path, buildLzPath crates.T req.pathway.srcEid sender req.pathway.dstEid receiver = .ok path ∧
    buildLzPacket crates.T crates.writeBitsWithOffset crates.hex path req.message req.nonce guid = .ok built.packet
  packetHashed : crates.hash built.packet = .ok packetHash
  call : ∃ callData, buildUlnCallData crates.T built.derived.ulnConnection.hash req.nonce req.blockConfirmation
      packetHash = .ok callData ∧
    buildExecuteParams crates.T target callData req.expiration opUlnVerify built.derived.uln.hash =
      .ok built.dvnCallData

theorem assembleTonDvnVerify_ok {built : TonDvnVerify} (h : assembleTonDvnVerify crates req = .ok built) :
    deriveUlnAddresses crates req.pathway req.code = .ok built.derived ∧
      ∃ sender receiver guid packetHash target, Assembles crates req built sender receiver guid packetHash target := by
  obtain ⟨derived, hderived, h⟩ := Exec.bind_ok_iff.mp h
  obtain ⟨packet, hpacket, h⟩ := Exec.bind_ok_iff.mp h
  obtain ⟨sender, hsender, hpacket⟩ := Exec.bind_ok_iff.mp hpacket
  obtain ⟨receiver, hreceiver, hpacket⟩ := Exec.bind_ok_iff.mp hpacket
  obtain ⟨path, hpath, hpacket⟩ := Exec.bind_ok_iff.mp hpacket
  obtain ⟨guid, hguid, hpacket⟩ := Exec.bind_ok_iff.mp hpacket
  obtain ⟨packetHash, hpacketHash, h⟩ := Exec.bind_ok_iff.mp h
  obtain ⟨packetHashBe, hpacketHashBe, h⟩ := Exec.bind_ok_iff.mp h
  obtain ⟨callData, hcallData, h⟩ := Exec.bind_ok_iff.mp h
  obtain ⟨boc, hboc, h⟩ := Exec.bind_ok_iff.mp h
  obtain ⟨target, htarget, h⟩ := Exec.bind_ok_iff.mp h
  obtain ⟨dvnCallData, hdvnCallData, h⟩ := Exec.bind_ok_iff.mp h
  obtain rfl := Except.ok.inj h
  obtain ⟨hash, hhash, rfl⟩ := reprHashHex_ok hpacketHash
  rw [hexToBe32_encode] at hpacketHashBe
  obtain rfl := Except.ok.inj hpacketHashBe
  exact ⟨hderived, sender, receiver, guid, hash, target, hsender, hreceiver, hguid, htarget, ⟨path, hpath, hpacket⟩,
    hhash, callData, hcallData, hdvnCallData⟩

/-- The hash that is signed is of the call's cell. -/
theorem buildTonDvnVerify_ok {out : TonDvnVerifyOutput} (h : buildTonDvnVerify crates req = .ok out) :
    ∃ built hash, assembleTonDvnVerify crates req = .ok built ∧ crates.hash built.dvnCallData = .ok hash ∧
      out.hashCallData = "0x" ++ crates.hex.encode hash.toList := by
  obtain ⟨built, hbuilt, h⟩ := Exec.bind_ok_iff.mp h
  obtain ⟨text, htext, h⟩ := Exec.bind_ok_iff.mp h
  obtain ⟨boc, -, h⟩ := Exec.bind_ok_iff.mp h
  obtain ⟨hash, hhash, rfl⟩ := reprHashHex_ok htext
  obtain rfl := Except.ok.inj h
  exact ⟨built, hash, hbuilt, hhash, rfl⟩

/-- **What is signed is one verification.** Two requests with one hash to sign
say the same: who is called, for whom and until when, the contracts with their
code and owner, the pathway, the nonce, the guid, the message and the
confirmations. Or two cells that were hashed for them, and are not equal, have
one hash. -/
theorem buildTonDvnVerify_binds {written : crates.T.Builder → Contents} {ahead : crates.T.Parser → Contents}
    (hT : crates.T.Lawful written ahead) (hS : Snakes crates.T written crates.writeBitsWithOffset)
    {out out' : TonDvnVerifyOutput} (h : buildTonDvnVerify crates req = .ok out)
    (h' : buildTonDvnVerify crates req' = .ok out') (hsigned : out.hashCallData = out'.hashCallData) :
    (∃ v : Verification, v.ReadFrom crates req ∧ v.ReadFrom crates req') ∨
      ∃ built built', assembleTonDvnVerify crates req = .ok built ∧ assembleTonDvnVerify crates req' = .ok built' ∧
        Collide crates built built' := by
  obtain ⟨built, hash, hbuilt, hhash, hout⟩ := buildTonDvnVerify_ok h
  obtain ⟨built', hash', hbuilt', hhash', hout'⟩ := buildTonDvnVerify_ok h'
  by_cases hcollide : Collide crates built built'
  · exact .inr ⟨built, built', hbuilt, hbuilt', hcollide⟩
  left
  rw [hout, hout', String.append_right_inj] at hsigned
  obtain rfl := Vector.toList_inj.mp (crates.hex.encode_injective hsigned)
  obtain ⟨hderived, sender, receiver, guid, packetHash, target, hreads⟩ := assembleTonDvnVerify_ok hbuilt
  obtain ⟨hderived', sender', receiver', guid', packetHash', target', hreads'⟩ := assembleTonDvnVerify_ok hbuilt'
  obtain ⟨ulnManager, _, _, ulnCode, connectionCode, hderives⟩ := deriveUlnAddresses_ok hderived
  obtain ⟨ulnManager', _, _, ulnCode', connectionCode', hderives'⟩ := deriveUlnAddresses_ok hderived'
  -- The call, by the hash that is signed.
  have hcall := eq_of_hash hcollide (by simp [TonDvnVerify.hashed]) (by simp [TonDvnVerify.hashed]) hhash hhash'
  obtain ⟨callData, hcallData, hparams⟩ := hreads.call
  obtain ⟨callData', hcallData', hparams'⟩ := hreads'.call
  rw [← hcall] at hparams'
  obtain ⟨rfl, rfl, hexpiration, huln⟩ := buildExecuteParams_inj hT hparams hparams'
  obtain ⟨hconnection, hnonce, hconfirmations, rfl⟩ := buildUlnCallData_inj hT hcallData hcallData'
  -- The packet, by the hash that is attested.
  have hpacket := eq_of_hash hcollide (by simp [TonDvnVerify.hashed]) (by simp [TonDvnVerify.hashed])
    hreads.packetHashed hreads'.packetHashed
  obtain ⟨path, hpath, hlzPacket⟩ := hreads.packet
  obtain ⟨path', hpath', hlzPacket'⟩ := hreads'.packet
  rw [← hpacket] at hlzPacket'
  obtain ⟨rfl, -, rfl, message, hmessage, hmessage'⟩ := buildLzPacket_inj hT hS hlzPacket hlzPacket'
  obtain ⟨hsrcEid, rfl, hdstEid, rfl⟩ := buildLzPath_inj hT hpath hpath'
  -- The contracts, by their addresses.
  have hulnInit := eq_of_hash hcollide (by simp [TonDvnVerify.hashed]) (by simp [TonDvnVerify.hashed])
    hderives.ulnHash (huln ▸ hderives'.ulnHash)
  obtain ⟨data, hdata, hinit⟩ := hderives.uln
  obtain ⟨data', hdata', hinit'⟩ := hderives'.uln
  rw [← hulnInit] at hinit'
  obtain ⟨rfl, rfl⟩ := stateInit_inj hT hinit hinit'
  obtain rfl := buildUlnData_inj hT hdata hdata'
  have hconnectionInit := eq_of_hash hcollide (by simp [TonDvnVerify.hashed]) (by simp [TonDvnVerify.hashed])
    hderives.connectionHash (hconnection ▸ hderives'.connectionHash)
  obtain ⟨storage, hstorage⟩ := hderives.connection
  obtain ⟨storage', hstorage'⟩ := hderives'.connection
  rw [← hconnectionInit] at hstorage'
  obtain ⟨rfl, -⟩ := stateInit_inj hT hstorage hstorage'
  exact ⟨⟨target, sender, receiver, ulnManager, guid, req.pathway.srcEid, req.pathway.dstEid, req.nonce,
      req.blockConfirmation, req.expiration, message, ulnCode, connectionCode⟩,
    ⟨hreads.targetRead, hreads.senderRead, hreads.receiverRead, hderives.managerRead, hreads.guidRead, rfl, rfl, rfl,
      rfl, rfl, hmessage, hderives.codeRead, hderives.connectionCodeRead⟩,
    ⟨hreads'.targetRead, hreads'.senderRead, hreads'.receiverRead, hderives'.managerRead, hreads'.guidRead,
      hsrcEid.symm, hdstEid.symm, hnonce.symm, hconfirmations.symm, hexpiration.symm, hmessage', hderives'.codeRead,
      hderives'.connectionCodeRead⟩⟩

/-! ## A core that writes backwards -/

/-- What is in a builder, last bit first. -/
structure Reversed where
  bits : List Bool
  count : Nat
  refs : List TonCell
  count_eq : count = bits.length

namespace Reversed

def contents (b : Reversed) : Contents := (b.bits.reverse, b.refs)

theorem count_push (b : Reversed) (more : List Bool) : more.length + b.count = (more.reverseAux b.bits).length := by
  rw [List.reverseAux_eq, List.length_append, List.length_reverse, b.count_eq]

def push (b : Reversed) (more : List Bool) (refs : List TonCell) : Except String Reversed :=
  if b.count + more.length ≤ maxCellBits ∧ b.refs.length + refs.length ≤ maxCellRefs then
    .ok ⟨more.reverseAux b.bits, more.length + b.count, b.refs ++ refs, b.count_push more⟩
  else .error "cell overflow"

/-- The low `width` bits, before others. -/
def numBits : Nat → Nat → List Bool → List Bool
  | 0, _, rest => rest
  | width + 1, value, rest => numBits width (value / 2) (decide (value % 2 = 1) :: rest)

theorem numBits_eq (width : Nat) : ∀ value rest, numBits width value rest = Bits.ofNat width value ++ rest := by
  induction width with
  | zero => exact fun value rest => rfl
  | succ width ih =>
    intro value rest
    rw [numBits, ih, Bits.ofNat, List.append_assoc]
    rfl

end Reversed

def TonCore.reversed : TonCore where
  Builder := Reversed
  Parser := Contents
  builder := ⟨[], 0, [], rfl⟩
  writeBit b bit := b.push [bit] []
  writeNum b value bits :=
    if value < 2 ^ bits then b.push (Reversed.numBits bits value []) [] else .error "number overflow"
  writeRef b cell := b.push [] [cell]
  writeCell b cell := b.push cell.bits cell.refs
  dataBitsLeft b := maxCellBits - b.count
  refsLeft b := maxCellRefs - b.refs.length
  build b := .ok (.mk .ordinary (b.refs.foldl (fun mask child => mask ||| child.levelMask) 0) b.bits.reverse b.refs)
  empty := .mk .ordinary 0 [] []
  parser := TonCore.plain.parser
  readBit := TonCore.plain.readBit
  readBits := TonCore.plain.readBits
  readNum := TonCore.plain.readNum
  readNextRef := TonCore.plain.readNextRef

theorem Reversed.writes_push {p : Prop} (hp : p) (b : Reversed) (more : List Bool) (refs : List TonCell) :
    Writes (T := .reversed) Reversed.contents (b.contents.1 ++ more, b.contents.2 ++ refs) p (b.push more refs) := by
  have hlength : (b.contents.1 ++ more).length = b.count + more.length := by
    rw [List.length_append, contents, List.length_reverse, b.count_eq]
  have hrefs : (b.contents.2 ++ refs).length = b.refs.length + refs.length := List.length_append
  unfold push
  split
  next h =>
    refine ⟨hp, ⟨hlength ▸ h.1, hrefs.symm ▸ h.2⟩, Prod.ext ?_ rfl⟩
    show (more.reverseAux b.bits).reverse = b.bits.reverse ++ more
    rw [List.reverseAux_eq, List.reverse_append, List.reverse_reverse]
  next h => exact fun hfits => h ⟨hlength ▸ hfits.2.1, hrefs ▸ hfits.2.2⟩

theorem TonCore.reversed_lawful : TonCore.reversed.Lawful Reversed.contents id where
  builder := rfl
  writeBit b bit := by
    have h := b.writes_push trivial [bit] []
    rwa [List.append_nil] at h
  writeNum b value bits := by
    by_cases hv : value < 2 ^ bits
    · have hbits : Reversed.numBits bits value [] = Bits.ofNat bits value := by
        rw [Reversed.numBits_eq, List.append_nil]
      have hwrite : TonCore.reversed.writeNum b value bits = b.push (Bits.ofNat bits value) [] :=
        (if_pos hv).trans (congrArg (b.push · []) hbits)
      have h := b.writes_push hv (Bits.ofNat bits value) []
      rw [List.append_nil] at h
      rwa [hwrite]
    · have hwrite : TonCore.reversed.writeNum b value bits = .error "number overflow" := if_neg hv
      rw [hwrite]
      exact fun hok => hv hok.1
  writeRef b cell := by
    have h := b.writes_push trivial [] [cell]
    rwa [List.append_nil] at h
  writeCell b cell := b.writes_push trivial cell.bits cell.refs
  dataBitsLeft b := by
    show maxCellBits - b.count = maxCellBits - b.bits.reverse.length
    rw [b.count_eq, List.length_reverse]
  refsLeft _ := rfl
  build b cell h := (Except.ok.inj h).symm
  empty := rfl
  parser := TonCore.plain_lawful.parser
  readBit_nil := TonCore.plain_lawful.readBit_nil
  readBit_cons := TonCore.plain_lawful.readBit_cons
  readBits_short := TonCore.plain_lawful.readBits_short
  readBits := TonCore.plain_lawful.readBits
  readNum_short := TonCore.plain_lawful.readNum_short
  readNum := TonCore.plain_lawful.readNum
  readNextRef_nil := TonCore.plain_lawful.readNextRef_nil
  readNextRef_cons := TonCore.plain_lawful.readNextRef_cons

def reversedBitWriter : BitWriter .reversed := fun (b : Reversed) bytes offset bits =>
  b.push (((byteBits bytes).drop offset).take bits) []

theorem reversed_snakes : Snakes .reversed Reversed.contents reversedBitWriter where
  writeBits b bytes offset bits _ := by
    have h := Reversed.writes_push trivial b (((byteBits bytes).drop offset).take bits) []
    rwa [List.append_nil] at h
  build _ _ := ⟨_, rfl⟩

/-! ## A payload -/

mutual

/-- A number that tells small cells apart. -/
def cellNumber : TonCell → Nat
  | .mk _ _ bits refs => refsNumber (2 ^ bits.length + Bits.toNat bits) refs

def refsNumber : Nat → List TonCell → Nat
  | n, [] => n
  | n, cell :: refs => refsNumber (n * (2 ^ 256 + 1) + cellNumber cell * 3 + 1) refs

end

theorem length_cellHash (n : Nat) : (Bits.bytesOf 32 n).toArray.size = 32 := by simp

def cellHash (cell : TonCell) : Vector UInt8 32 :=
  ⟨(Bits.bytesOf 32 (cellNumber cell % (2 ^ 256 - 189))).toArray, length_cellHash _⟩

def sampleCrates : DvnVerifyCrates where
  T := .reversed
  writeBitsWithOffset := reversedBitWriter
  hex := .plain
  base64 := .plain
  hash cell := .ok (cellHash cell)
  crc32c _ := 0
  parseBoc _ := .ok (.mk .ordinary 0 [true] [])
  parseAddress _ := .error "invalid address"
  toString address := HexCrate.plain.encode address.hash.toList
  parseHexNumber text := (decodeChars text.toList).map Bits.ofBytes

/-- A bag of one cell is the code of both contracts. -/
def sampleRequest (guid : String) : TonDvnVerifyRequest where
  pathway := ⟨30101, 30343, "0x11", "0x22", "0x33"⟩
  guid := guid
  nonce := 7
  message := "0xdeadbeef"
  blockConfirmation := 20
  expiration := 1700000000
  target := "0x44"
  code := ⟨"b5ee9c7201010101000300000100", "b5ee9c7201010101000300000100"⟩

theorem buildTonDvnVerify_sample : (buildTonDvnVerify sampleCrates (sampleRequest "0x55")).isOk = true := by
  decide +kernel

theorem buildTonDvnVerify_prefixed :
    buildTonDvnVerify sampleCrates (sampleRequest "55") = buildTonDvnVerify sampleCrates (sampleRequest "0x55") := by
  have hguid : hexToBe32 sampleCrates "55" = hexToBe32 sampleCrates "0x55" := by decide +kernel
  simp only [buildTonDvnVerify, assembleTonDvnVerify, packetCell, sampleRequest, hguid]

theorem buildTonDvnVerify_binds_prefixed : ∃ out, buildTonDvnVerify sampleCrates (sampleRequest "0x55") = .ok out ∧
    ((∃ v : Verification, v.ReadFrom sampleCrates (sampleRequest "0x55") ∧
        v.ReadFrom sampleCrates (sampleRequest "55")) ∨
      ∃ built built', assembleTonDvnVerify sampleCrates (sampleRequest "0x55") = .ok built ∧
        assembleTonDvnVerify sampleCrates (sampleRequest "55") = .ok built' ∧ Collide sampleCrates built built') := by
  have hok := buildTonDvnVerify_sample
  cases hout : buildTonDvnVerify sampleCrates (sampleRequest "0x55") with
  | error e =>
    rw [hout] at hok
    cases hok
  | ok out =>
    exact ⟨out, rfl, buildTonDvnVerify_binds TonCore.reversed_lawful reversed_snakes hout
      (buildTonDvnVerify_prefixed.trans hout) rfl⟩

end Pillar.Ton
