/-
What a TON provider's vote says: the attestation it read is short, and whoever
votes alike was told the same storage, unless two storages have one hash.
-/
import Pillar.TonAttestationFacts
import Pillar.TonPayload

namespace Pillar.TonPayload

open EvmPayload (orErr)
open Fields Hex PayloadSigned Ton
open PacketSent (LzSentEvent)
open Ton.Storage (TonStorageRead tonStorageCell storageRead)
open Asking (bind_ok pure_ok lift_ok ask_ok throw_ok)

variable {crates : Crates} {provider : Provider} {query : TonPayloadQuery}
  {t t' : List (Asked TonRequest fun _ => Except RpcError Json)}

/-! ## Reads return -/

section

variable {T : TonCore} {written : T.Builder → Contents} {ahead : T.Parser → Contents}
  {dataBitsLeft : T.Parser → Except String Nat} {refsLeft : T.Parser → Nat}

theorem returns_fieldInfo (cell : TonCell) (i : Nat) : (fieldInfo T cell i).Returns :=
  (returns_requireOrdinary cell).bind fun _ _ => (returns_mapErr _).bind fun _ _ => (returns_mapErr _).bind fun _ _ =>
    (returns_mapErr _).bind fun _ _ => (returns_mapErr _).bind fun _ _ => Exec.returns_ok _

theorem returns_readRefAt : ∀ (k : Nat) (p : T.Parser), (readRefAt T k p).Returns
  | 0, _ => (returns_mapErr _).bind fun _ _ => Exec.returns_ok _
  | k + 1, _ => (returns_mapErr _).bind fun _ _ => returns_readRefAt k _

theorem returns_readNumAt (cell : TonCell) (offset width : Nat) : (readNumAt T cell offset width).Returns :=
  (returns_mapErr _).bind fun _ _ => (returns_mapErr _).bind fun _ _ => Exec.returns_ok _

theorem returns_clGetUintBe (cell : TonCell) (i width : Nat) : (clGetUintBe T cell i width).Returns := by
  refine (returns_fieldInfo cell i).bind fun ⟨cellIndex, offset, refIdx⟩ _ => ?_
  dsimp only
  split
  · exact (returns_readNumAt cell offset width).bind fun _ _ => Exec.returns_ok _
  · exact (returns_readRefAt _ _).bind fun target _ => (returns_requireOrdinary _).bind fun _ _ =>
      (returns_readNumAt target offset width).bind fun _ _ => Exec.returns_ok _

theorem returns_clGetRef (cell : TonCell) (i : Nat) : (clGetRef T cell i).Returns := by
  refine (returns_fieldInfo cell i).bind fun info _ => ?_
  dsimp only
  split_ifs
  · exact returns_readRefAt _ _
  · exact (returns_readRefAt _ _).bind fun _ _ => (returns_requireOrdinary _).bind fun _ _ => returns_readRefAt _ _

theorem returns_readBool (cell : TonCell) (i : Nat) : (readBool T cell i).Returns :=
  (returns_clGetUintBe cell i 1).bind fun _ _ => Exec.returns_ok _

theorem returns_readU64 (cell : TonCell) (i : Nat) : (readU64 T cell i).Returns := by
  refine (returns_clGetUintBe cell i 64).bind fun be _ => ?_
  split_ifs
  · exact Exec.returns_err _
  · exact Exec.returns_ok _

theorem returns_readAddresses (hT : T.Lawful written ahead) (hleft : TellsLeft ahead dataBitsLeft refsLeft) :
    ∀ (fuel : Nat) (p : T.Parser) (addresses : List (List UInt8)), (ahead p).1.length < fuel →
      (readAddresses T dataBitsLeft fuel p addresses).Yields fun read => (ahead read.2).2 = (ahead p).2
  | 0, _, _, h => absurd h (Nat.not_lt_zero _)
  | fuel + 1, p, addresses, h => by
    rw [readAddresses, hleft.bits, mapErr_ok, Exec.ok_bind]
    split
    · next hmany =>
      obtain ⟨q, hread, hq⟩ := hT.readBits p 256 hmany
      rw [hread, mapErr_ok, Exec.ok_bind]
      have ih := returns_readAddresses hT hleft fuel q (addresses ++ [packBits ((ahead p).1.take 256)]) (by
        rw [hq, List.length_drop]
        omega)
      rwa [hq] at ih
    · exact Exec.yields_ok rfl

theorem returns_addressesFrom (hT : T.Lawful written ahead) (hleft : TellsLeft ahead dataBitsLeft refsLeft) :
    ∀ (fuel : Nat) (node : TonCell) (addresses : List (List UInt8)), node.depth < fuel →
      (addressesFrom T dataBitsLeft refsLeft fuel node addresses).Returns
  | 0, _, _, h => absurd h (Nat.not_lt_zero _)
  | fuel + 1, node, addresses, h => by
    rw [addressesFrom]
    have hparser := hT.parser node
    have hread := returns_readAddresses hT hleft (node.dataLenBits + 1) (T.parser node) addresses
      (by rw [hparser]; exact Nat.lt_succ_self _)
    refine (returns_requireOrdinary node).bind fun _ _ => hread.1.bind fun read hok => ?_
    have hrefs := hread.2 read hok
    rw [hparser] at hrefs
    dsimp only
    split
    · refine (returns_mapErr _).bind fun next hnext => returns_addressesFrom hT hleft fuel _ _ ?_
      cases hnode : node.refs with
      | nil =>
        rw [hnode] at hrefs
        obtain ⟨e, he⟩ := hT.readNextRef_nil _ hrefs
        rw [he] at hnext
        cases hnext
      | cons first refs =>
        rw [hnode] at hrefs
        obtain ⟨q, hfirst, -⟩ := hT.readNextRef_cons _ first refs hrefs
        rw [hfirst] at hnext
        cases hnext
        exact (depth_lt_of_head hnode).trans_le (Nat.le_of_lt_succ h)
    · exact Exec.returns_ok _

theorem returns_deserializeAddressList (hT : T.Lawful written ahead) (hleft : TellsLeft ahead dataBitsLeft refsLeft)
    (cell : TonCell) : (deserializeAddressList T dataBitsLeft refsLeft cell).Returns :=
  returns_addressesFrom hT hleft _ cell [] (Nat.lt_succ_self _)

theorem returns_receiveConfigDvns (hT : T.Lawful written ahead) (hleft : TellsLeft ahead dataBitsLeft refsLeft)
    (config : TonCell) : (receiveConfigDvns T dataBitsLeft refsLeft config).Returns :=
  (returns_readBool config _).bind fun _ _ => (returns_clGetRef config _).bind fun _ _ =>
    (returns_deserializeAddressList hT hleft _).bind fun _ _ => (returns_readBool config _).bind fun _ _ =>
      (returns_clGetRef config _).bind fun _ _ => (returns_deserializeAddressList hT hleft _).bind fun _ _ =>
        Exec.returns_ok _

theorem returns_orDefault {α : Type} (name : String) (isNull : Bool) (dvns : List α) (defaultIsNull : Bool)
    (default : List α) : (orDefault name isNull dvns defaultIsNull default).Returns := by
  cases isNull <;> cases defaultIsNull <;> first | exact Exec.returns_ok _ | exact Exec.returns_err _

theorem returns_effectiveReceiveConfirmations (custom default : TonCell) :
    (effectiveReceiveConfirmations T custom default).Returns :=
  (returns_readBool custom _).bind fun _ _ => returns_readU64 _ _

theorem returns_attestationOutcome (custom default attestation : TonCell) (packetHash : Vector UInt8 32) :
    (attestationOutcome T custom default attestation packetHash).Returns := by
  refine (returns_clGetUintBe attestation _ 256).bind fun hash _ => ?_
  split_ifs
  · exact Exec.returns_ok _
  · exact (returns_effectiveReceiveConfirmations custom default).bind fun _ _ =>
      (returns_readU64 attestation _).bind fun _ _ => Exec.returns_ok _

theorem returns_dict256GetRef (hT : T.Lawful written ahead) (root : TonCell) (key : Vector UInt8 32) :
    (dict256GetRef T root key).Returns := by
  refine (returns_requireOrdinary root).bind fun _ _ => ?_
  split
  · exact Exec.returns_ok _
  · exact returns_dictLoop hT key 257 root dictKeyBits 0 rfl (by decide)

/-- **The attestation is read of any cells**: no storage makes it panic or loop. -/
theorem returns_dvnAttestation (hT : T.Lawful written ahead) (hleft : TellsLeft ahead dataBitsLeft refsLeft)
    (connection default : TonCell) (nonce : UInt64) (verifier packetHash : Vector UInt8 32) :
    (dvnAttestation T dataBitsLeft refsLeft connection default nonce verifier packetHash).Returns := by
  refine (returns_clGetRef connection _).bind fun lookups _ =>
    (returns_dict256GetRef hT lookups _).bind fun found _ => ?_
  cases found with
  | none => exact Exec.returns_ok _
  | some perVerifier =>
    refine (returns_clGetRef connection _).bind fun custom _ => ?_
    refine Exec.Returns.bind ?_ fun configured _ => ?_
    · exact (returns_receiveConfigDvns hT hleft custom).bind fun _ _ =>
        (returns_receiveConfigDvns hT hleft default).bind fun _ _ => (returns_orDefault ..).bind fun _ _ =>
          (returns_orDefault ..).bind fun _ _ => Exec.returns_ok _
    · split_ifs
      · refine (returns_dict256GetRef hT perVerifier verifier).bind fun found _ => ?_
        cases found with
        | none => exact Exec.returns_ok _
        | some attestation => exact returns_attestationOutcome custom default attestation packetHash
      · exact Exec.returns_ok _

end

theorem returns_bocFromBytesWithLimits {parse : List UInt8 → Exec AppCoreError TonCell} (hparse : ∀ bytes, parse bytes ≠
    .error .fuel) {bytes : List UInt8} (hlen : bytes.length ≤ usizeMax) (maxCells : Nat) (rejectExotic : Bool) :
    (bocFromBytesWithLimits parse bytes maxCells rejectExotic).Returns := by
  obtain ⟨safe, hsafe, -⟩ := optional_gives (ε := AppCoreError) (bocHeaderIsSafe_returns bytes maxCells)
  obtain ⟨depth, hdepth, -⟩ := optional_gives (ε := AppCoreError) (bocMaxDepth_yields hlen).1
  rw [bocFromBytesWithLimits, hsafe, Exec.ok_bind]
  dsimp only
  split
  · exact (returns_mapErr _).bind fun _ h => (by cases h)
  rw [hdepth, Exec.ok_bind]
  split
  · exact (returns_mapErr _).bind fun _ h => (by cases h)
  cases hroot : parse bytes with
  | error halt =>
    cases halt with
    | err e => exact Exec.returns_err e
    | panic =>
      rw [Exec.error_bind, catchUnwind]
      exact returns_mapErr _
    | fuel => exact absurd hroot (hparse bytes)
  | ok root =>
    rw [Exec.ok_bind]
    split
    · exact Exec.returns_err _
    · exact Exec.returns_ok root

/-- **An account is read of any answer**: what the crate's parser panics on is a
provider without a vote. -/
theorem returns_tonStorageCell {base64 : Base64.Engine} {parse : List UInt8 → Exec AppCoreError TonCell}
    (hparse : ∀ bytes, parse bytes ≠ .error .fuel)
    (hlen : ∀ encoded bytes, base64.decode encoded = .ok bytes → bytes.length ≤ usizeMax)
    (answer : Except RpcError Json) : (tonStorageCell base64 parse answer).Returns := by
  cases answer with
  | error e => exact Exec.returns_err e
  | ok response =>
    show (storageRead base64 parse response).Returns
    unfold storageRead
    split
    · split
      · next data _ =>
        obtain ⟨fits, hfits⟩ := Storage.tonBocCellCountFits_returns base64 data
        simp only [hfits, Ton.optional, Exec.ok_bind]
        split
        · exact Exec.returns_ok _
        · have hcell : (Storage.bocFromBase64WithLimits base64 parse data Storage.maxAccountStateCells false).Returns := by
            cases hdecode : base64.decode data with
            | error e =>
              rw [Storage.bocFromBase64WithLimits, hdecode]
              exact (returns_mapErr _).bind fun _ h => (by cases h)
            | ok bytes =>
              rw [Storage.bocFromBase64WithLimits, hdecode]
              exact returns_bocFromBytesWithLimits hparse (hlen data bytes hdecode) _ _
          split
          · exact Exec.returns_ok _
          · exact Exec.returns_ok _
          · next h => exact absurd h hcell.1
          · next h => exact absurd h hcell.2
      · exact Exec.returns_ok _
    · exact Exec.returns_ok _

/-! ## What a run read -/

theorem settled_ok {α : Type} {x : Exec RpcError α} {a : α} (h : settled x = .ok a) : x = .ok a := by
  cases x with
  | ok b => exact congrArg _ (Except.ok.inj h)
  | error halt => cases halt <;> cases h

/-- An account as a provider told it. -/
def storageTold (crates : Crates) (answer : Except RpcError Json) : Option (String × TonCell) :=
  match settled (tonStorageCell crates.base64 crates.parseBoc answer) with
  | .ok (.cell data cell) => .some (data, cell)
  | _ => .none

/-- The storages that the first two answers tell. -/
def storagesOf (crates : Crates) : List (Asked TonRequest fun _ => Except RpcError Json) → Option Storages
  | ⟨_, first⟩ :: ⟨_, second⟩ :: _ => do
    let (connection, connectionCell) ← storageTold crates first
    let (uln, ulnCell) ← storageTold crates second
    return { connection, connectionCell, uln, ulnCell }
  | _ => .none

/-- The confirmations that are recorded for a DVN and a packet, if any are. -/
def recordedIn (T : TonCore) (connection : TonCell) (nonce : UInt64) (verifier packetHash : Vector UInt8 32) :
    Exec AppCoreError (Option UInt64) := do
  let hashLookups ← clGetRef T connection ulnConnectionHashLookups
  match ← dict256GetRef T hashLookups (nonceKey nonce) with
  | .none => return .none
  | .some perVerifier =>
    match ← dict256GetRef T perVerifier verifier with
    | .none => return .none
    | .some attestation =>
      let hash ← clGetUintBe T attestation attestationHash 256
      if hash ≠ packetHash.toList then return .none
      else
        let confirmations ← readU64 T attestation attestationConfirmations
        return .some confirmations

def requirementOf (crates : Crates) (told : List (Asked TonRequest fun _ => Except RpcError Json)) : Option UInt64 :=
  (storagesOf crates told).bind fun storages =>
    (receiveConfigs crates storages.connectionCell storages.ulnCell).toOption.map fun read => read.2.1

def recordOf (crates : Crates) (query : TonPayloadQuery)
    (told : List (Asked TonRequest fun _ => Except RpcError Json)) : Option (Option UInt64) :=
  (storagesOf crates told).bind fun storages =>
    (recordedIn crates.T storages.connectionCell query.nonce query.verifierBe query.packetHashBe).toOption

theorem readStorage_ok {address : String} {read : TonStorageRead}
    (h : readStorage crates provider address t = (.ok read, t')) :
    ∃ answer, t' = t ++ [⟨.getAddressInformation address, answer⟩] ∧
      ∀ data cell, read = .cell data cell → storageTold crates answer = .some (data, cell) := by
  obtain ⟨answer, s, hask, h⟩ := bind_ok h
  obtain ⟨-, rfl⟩ := ask_ok hask
  obtain ⟨hread, rfl⟩ := lift_ok h
  refine ⟨answer, rfl, fun data cell hcell => ?_⟩
  subst hcell
  rw [storageTold, hread]

theorem readStorages_ok {storages : Storages} (h : readStorages crates provider query t = (.ok (.some storages), t')) :
    ∃ first second, t' = t ++ [⟨.getAddressInformation query.ulnConnectionAddress, first⟩,
        ⟨.getAddressInformation query.ulnAddress, second⟩] ∧
      storageTold crates first = .some (storages.connection, storages.connectionCell) ∧
      storageTold crates second = .some (storages.uln, storages.ulnCell) := by
  obtain ⟨read, s, hread, h⟩ := bind_ok h
  obtain ⟨first, rfl, hfirst⟩ := readStorage_ok hread
  cases read with
  | unavailable => exact (throw_ok h).elim
  | inactive => cases (pure_ok h).1
  | cell connection connectionCell =>
    obtain ⟨read, s, hread, h⟩ := bind_ok h
    obtain ⟨second, rfl, hsecond⟩ := readStorage_ok hread
    cases read with
    | unavailable => exact (throw_ok h).elim
    | inactive => cases (pure_ok h).1
    | cell uln ulnCell =>
      obtain ⟨heq, rfl⟩ := pure_ok h
      obtain rfl := Option.some.inj heq
      exact ⟨first, second, by rw [List.append_assoc]; rfl, hfirst _ _ rfl, hsecond _ _ rfl⟩

/-- A cell is of its text. -/
theorem storageTold_text {answer answer' : Except RpcError Json} {data : String} {cell cell' : TonCell}
    (h : storageTold crates answer = .some (data, cell)) (h' : storageTold crates answer' = .some (data, cell')) :
    cell = cell' := by
  have hcell : ∀ {answer : Except RpcError Json} {cell : TonCell}, storageTold crates answer = .some (data, cell) →
      Storage.bocFromBase64WithLimits crates.base64 crates.parseBoc data Storage.maxAccountStateCells false =
        .ok cell := by
    intro answer cell h
    unfold storageTold at h
    split at h
    · next data' cell' hread =>
      cases h
      cases answer with
      | error e => cases settled_ok hread
      | ok response =>
        obtain ⟨result, -, -, hcell⟩ := Storage.storageRead_eq_cell.mp (settled_ok hread)
        exact hcell
    · cases h
  exact Except.ok.inj ((hcell h).symm.trans (hcell h'))

/-- A provider told both storages. -/
def Told (crates : Crates) (query : TonPayloadQuery) (provider : Provider) (storages : Storages) : Prop :=
  ∃ told, readStorages crates provider query [] = (.ok (.some storages), told)

/-- How a vote is cast: on a contract that is not active, on storage that is not
read, or on the state of the packet and the DVN's attestation. -/
inductive Cast (crates : Crates) (query : TonPayloadQuery) (provider : Provider)
    (told : List (Asked TonRequest fun _ => Except RpcError Json)) : String × PayloadSignedValidity → Prop
  | inactive : Cast crates query provider told inactive
  | undecodable (storages : Storages) : Told crates query provider storages →
    Cast crates query provider told (undecodable (storageFingerprint crates storages.connection storages.uln))
  | active (storages : Storages) (default : TonCell) (required : UInt64) (boc : String) (state : UInt64)
    (attestation : DvnAttestation) : Told crates query provider storages → storagesOf crates told = .some storages →
    receiveConfigs crates storages.connectionCell storages.ulnCell = .ok (default, required, boc) →
    dvnAttestation crates.T crates.dataBitsLeft crates.refsLeft storages.connectionCell default query.nonce
      query.verifierBe query.packetHashBe = .ok attestation →
    Cast crates query provider told
      (activeKey (storageFingerprint crates storages.connection storages.uln) state attestation,
        validityOf state attestation required)

theorem storagesOf_append {first second : Except RpcError Json} {storages : Storages} {a b : TonRequest}
    {more : List (Asked TonRequest fun _ => Except RpcError Json)}
    (hfirst : storageTold crates first = .some (storages.connection, storages.connectionCell))
    (hsecond : storageTold crates second = .some (storages.uln, storages.ulnCell)) :
    storagesOf crates (⟨a, first⟩ :: ⟨b, second⟩ :: more) = .some storages := by
  simp only [storagesOf, hfirst, hsecond]
  rfl

theorem toOption_eq_some {ε α : Type} {x : Except ε α} {a : α} (h : x.toOption = .some a) : x = .ok a := by
  cases x with
  | ok b => exact congrArg _ (Option.some.inj h)
  | error e => cases h

theorem observeTonPayloadSigned_cast {vote : String × PayloadSignedValidity}
    (h : observeTonPayloadSigned crates query provider [] = (.ok vote, t')) : Cast crates query provider t' vote := by
  obtain ⟨read, s, hread, h⟩ := bind_ok h
  cases read with
  | none =>
    obtain ⟨rfl, -⟩ := pure_ok h
    exact .inactive
  | some storages =>
    have htold : Told crates query provider storages := ⟨s, hread⟩
    dsimp only at h
    cases hconfigs : (receiveConfigs crates storages.connectionCell storages.ulnCell).toOption with
    | none =>
      rw [hconfigs] at h
      obtain ⟨rfl, -⟩ := pure_ok h
      exact .undecodable storages htold
    | some configs =>
      obtain ⟨default, required, boc⟩ := configs
      rw [hconfigs] at h
      obtain ⟨state, s', hstate, h⟩ := bind_ok h
      obtain ⟨answer, s₁, hask, hstate⟩ := bind_ok hstate
      obtain ⟨-, rfl⟩ := ask_ok hask
      obtain ⟨response, s₂, hlift, hstate⟩ := bind_ok hstate
      obtain ⟨-, rfl⟩ := lift_ok hlift
      obtain ⟨-, rfl⟩ := okOrUnavailable_ok hstate
      cases hattestation : (dvnAttestation crates.T crates.dataBitsLeft crates.refsLeft storages.connectionCell default
          query.nonce query.verifierBe query.packetHashBe).toOption with
      | none =>
        rw [hattestation] at h
        obtain ⟨rfl, -⟩ := pure_ok h
        exact .undecodable storages htold
      | some attestation =>
        rw [hattestation] at h
        obtain ⟨rfl, rfl⟩ := pure_ok h
        obtain ⟨first, second, rfl, hfirst, hsecond⟩ := readStorages_ok hread
        exact .active storages default required boc state attestation htold (storagesOf_append hfirst hsecond)
          (toOption_eq_some hconfigs) (toOption_eq_some hattestation)

/-! ## Votes -/

theorem plain_storageFingerprint (connection uln : String) : Plain (storageFingerprint crates connection uln) := by
  intro hmem
  rw [storageFingerprint, String.toList_ofList] at hmem
  obtain ⟨n, hn, heq⟩ := mem_encodeChars hmem
  revert n
  decide

theorem debug_injective : Function.Injective DvnAttestation.debug := by
  intro a b h
  cases a <;> cases b <;> first | rfl | exact absurd h (by decide)

theorem plain_debug : ∀ attestation : DvnAttestation, Plain attestation.debug := by
  intro attestation
  cases attestation <;> decide

theorem activeKey_inj {fingerprint fingerprint' : String} {state state' : UInt64}
    {attestation attestation' : DvnAttestation} (hplain : Plain fingerprint) (hplain' : Plain fingerprint')
    (h : activeKey fingerprint state attestation = activeKey fingerprint' state' attestation') :
    fingerprint = fingerprint' ∧ state = state' ∧ attestation = attestation' := by
  have hfields := (joined_inj (by simp [hplain, plain_decimal, plain_debug, show Plain "active" by decide])
    (by simp [hplain', plain_decimal, plain_debug, show Plain "active" by decide]) h).2
  injection hfields with hfingerprint hfields
  injection hfields with hstate hfields
  injection hfields with hattestation
  exact ⟨hfingerprint, decimal_injective hstate, debug_injective hattestation⟩

theorem undecodable_ne_active {fingerprint fingerprint' : String} {state : UInt64} {attestation : DvnAttestation}
    (hplain : Plain fingerprint) (hplain' : Plain fingerprint') :
    (undecodable fingerprint).1 ≠ activeKey fingerprint' state attestation := by
  intro h
  have hfields := (joined_inj (by simp [hplain, show Plain "undecodable" by decide])
    (by simp [hplain', plain_decimal, plain_debug, show Plain "active" by decide]) h).1
  exact absurd hfields (by decide)

theorem zero_ne_joined {first second : String} {fields : List String} : "0" ≠ joined (first :: second :: fields) := by
  intro h
  have htext := congrArg String.toList h
  rw [joined_cons_cons] at htext
  have hmem : ':' ∈ "0".toList := htext ▸ List.mem_append_right _ List.mem_cons_self
  exact absurd hmem (by decide)

/-- The length in front tells where the first text ends. -/
theorem storagePreimage_inj {connection connection' uln uln' : String} (hlen : connection.utf8ByteSize < 2 ^ 64)
    (hlen' : connection'.utf8ByteSize < 2 ^ 64)
    (h : storagePreimage connection uln = storagePreimage connection' uln') : connection = connection' ∧ uln = uln' := by
  have htoList : ∀ {a b : String}, a.toUTF8.data.toList = b.toUTF8.data.toList → a = b := fun h =>
    String.toByteArray_inj.mp (ByteArray.ext (Array.toList_inj.mp h))
  rw [storagePreimage, storagePreimage, List.append_assoc, List.append_assoc] at h
  obtain ⟨hsize, htexts⟩ := List.append_inj h (by simp)
  have hpow : (2 : Nat) ^ 64 = 256 ^ 8 := by norm_num
  rw [hpow] at hlen hlen'
  have hsizes : connection.utf8ByteSize = connection'.utf8ByteSize := by
    rw [← Bits.ofBytes_bytesOf hlen, hsize, Bits.ofBytes_bytesOf hlen']
  obtain ⟨hconnection, huln⟩ := List.append_inj htexts hsizes
  exact ⟨htoList hconnection, htoList huln⟩

/-- Two storages of those asked that are told with one hash. -/
def Collide (crates : Crates) (panel : Panel TonPayloadQuery) (provider : Nat → Provider) : Prop :=
  ∃ i ∈ panel.order, ∃ j ∈ panel.order, ∃ storages storages', Told crates panel.query (provider i) storages ∧
    Told crates panel.query (provider j) storages' ∧
    (storages.connection, storages.uln) ≠ (storages'.connection, storages'.uln) ∧
    crates.sha256 (storagePreimage storages.connection storages.uln) =
      crates.sha256 (storagePreimage storages'.connection storages'.uln)

theorem sha256_of_fingerprint {connection connection' uln uln' : String}
    (h : storageFingerprint crates connection uln = storageFingerprint crates connection' uln') :
    crates.sha256 (storagePreimage connection uln) = crates.sha256 (storagePreimage connection' uln') := by
  have hchars := String.ofList_injective h
  have hbytes := congrArg decodeChars hchars
  rw [decodeChars_encodeChars, decodeChars_encodeChars] at hbytes
  exact Vector.toList_inj.mp (Option.some.inj hbytes)

theorem Told.unique {provider provider' : Provider} {storages storages' : Storages}
    (h : Told crates query provider storages) (h' : Told crates query provider' storages')
    (htexts : (storages.connection, storages.uln) = (storages'.connection, storages'.uln)) : storages = storages' := by
  obtain ⟨told, hread⟩ := h
  obtain ⟨told', hread'⟩ := h'
  obtain ⟨first, second, -, hfirst, hsecond⟩ := readStorages_ok hread
  obtain ⟨first', second', -, hfirst', hsecond'⟩ := readStorages_ok hread'
  cases storages
  cases storages'
  cases htexts
  cases storageTold_text hfirst hfirst'
  cases storageTold_text hsecond hsecond'
  rfl

/-- **Who votes alike means the same**, unless two storages have one hash. -/
theorem decides_or_collide (panel : Panel TonPayloadQuery) (provider : Nat → Provider) :
    panel.Decides (observeTonPayloadSigned crates) provider ∨ Collide crates panel provider := by
  by_cases hcollide : Collide crates panel provider
  · exact .inr hcollide
  refine .inl fun i hi j hj k v w hv hw => ?_
  have hcast := observeTonPayloadSigned_cast (Prod.ext hv rfl)
  have hcast' := observeTonPayloadSigned_cast (Prod.ext hw rfl)
  generalize hk : k = key at hcast'
  cases hcast with
  | inactive =>
    cases hcast' with
    | inactive => rfl
    | undecodable storages' _ => rfl
    | active storages' default' required' boc' state' attestation' _ _ _ _ => exact absurd hk zero_ne_joined
  | undecodable storages htold =>
    cases hcast' with
    | inactive => rfl
    | undecodable storages' _ => rfl
    | active storages' default' required' boc' state' attestation' _ _ _ _ =>
      exact absurd hk (undecodable_ne_active (plain_storageFingerprint _ _) (plain_storageFingerprint _ _))
  | active storages default required boc state attestation htold _ hconfigs hattestation =>
    cases hcast' with
    | inactive => exact absurd hk.symm zero_ne_joined
    | undecodable storages' _ =>
      exact absurd hk.symm (undecodable_ne_active (plain_storageFingerprint _ _) (plain_storageFingerprint _ _))
    | active storages' default' required' boc' state' attestation' htold' _ hconfigs' hattestation' =>
      obtain ⟨hfingerprint, rfl, rfl⟩ :=
        activeKey_inj (plain_storageFingerprint _ _) (plain_storageFingerprint _ _) hk
      have htexts : (storages.connection, storages.uln) = (storages'.connection, storages'.uln) := by
        by_contra hne
        exact hcollide ⟨i, hi, j, hj, storages, storages', htold, htold', hne, sha256_of_fingerprint hfingerprint⟩
      obtain rfl := htold.unique htold' htexts
      cases hconfigs.symm.trans hconfigs'
      rfl

/-! ## Records -/

theorem receiveConfigs_ok {connection uln default : TonCell} {required : UInt64} {boc : String}
    (h : receiveConfigs crates connection uln = .ok (default, required, boc)) :
    requiredReceiveConfirmations crates.T connection default = .ok required := by
  obtain ⟨default', -, h⟩ := Exec.bind_ok_iff.mp h
  obtain ⟨required', hrequired, h⟩ := Exec.bind_ok_iff.mp h
  obtain ⟨boc', -, h⟩ := Exec.bind_ok_iff.mp h
  cases h
  exact hrequired

/-- An attestation that counts has what is recorded, and what does not is short. -/
theorem dvnAttestation_recorded {T : TonCore} {dataBitsLeft : T.Parser → Except String Nat} {refsLeft : T.Parser → Nat}
    {connection default : TonCell} {nonce : UInt64} {verifier packetHash : Vector UInt8 32}
    {attestation : DvnAttestation} {required : UInt64}
    (h : dvnAttestation T dataBitsLeft refsLeft connection default nonce verifier packetHash = .ok attestation)
    (hrequired : requiredReceiveConfirmations T connection default = .ok required) :
    attestation = .notInReceiveConfig ∨
      ∃ recorded, recordedIn T connection nonce verifier packetHash = .ok recorded ∧
        (attestation = .matches ↔ ∃ b, recorded = .some b ∧ required ≤ b) := by
  obtain ⟨lookups, hlookups, h⟩ := Exec.bind_ok_iff.mp h
  obtain ⟨found, hfound, h⟩ := Exec.bind_ok_iff.mp h
  rw [recordedIn, hlookups, Exec.ok_bind, hfound, Exec.ok_bind]
  cases found with
  | none =>
    cases h
    exact .inr ⟨_, rfl, by simp⟩
  | some perVerifier =>
    obtain ⟨custom, hcustom, h⟩ := Exec.bind_ok_iff.mp h
    obtain ⟨configured, -, h⟩ := Exec.bind_ok_iff.mp h
    split at h
    · cases h
      exact .inl rfl
    obtain ⟨found, hverifier, h⟩ := Exec.bind_ok_iff.mp h
    dsimp only
    rw [hverifier, Exec.ok_bind]
    cases found with
    | none =>
      cases h
      exact .inr ⟨_, rfl, by simp⟩
    | some cell =>
      obtain ⟨hash, hhash, h⟩ := Exec.bind_ok_iff.mp h
      dsimp only
      rw [hhash, Exec.ok_bind]
      split at h
      · next hne =>
        cases h
        rw [if_pos hne]
        exact .inr ⟨_, rfl, by simp⟩
      · next heq =>
        obtain ⟨required', hrequired', h⟩ := Exec.bind_ok_iff.mp h
        obtain ⟨confirmations, hconfirmations, h⟩ := Exec.bind_ok_iff.mp h
        rw [requiredReceiveConfirmations, hcustom, Exec.ok_bind, hrequired'] at hrequired
        obtain rfl := Except.ok.inj hrequired
        rw [if_neg heq, hconfirmations, Exec.ok_bind]
        refine .inr ⟨_, rfl, ?_⟩
        cases h
        split <;> simp_all

theorem validityOf_signed {state : UInt64} {attestation : DvnAttestation} {required : UInt64}
    (h : attestation = .matches ∨ attestation = .notInReceiveConfig) :
    validityOf state attestation required = .signed := if_pos (.inr h)

theorem validityOf_notSigned {state : UInt64} {attestation : DvnAttestation} {required r : UInt64}
    (h : validityOf state attestation required = .notSigned (.some r)) :
    r = required ∧ attestation ≠ .matches ∧ attestation ≠ .notInReceiveConfig := by
  unfold validityOf at h
  split at h
  · cases h
  · next hnot =>
    cases h
    exact ⟨rfl, fun h => hnot (.inr (.inl h)), fun h => hnot (.inr (.inr h))⟩

theorem refused_missing : validities.Refused .missing := ⟨fun h => (by cases h), fun _ h => (by cases h)⟩

/-- **An attestation that counts is recognised.** -/
theorem recognises_observeTonPayloadSigned (query : TonPayloadQuery) (provider : Provider) :
    Recognises validities (requirementOf crates) (recordOf crates query)
      (observeTonPayloadSigned crates query provider) := by
  intro key v told h
  have hcast := observeTonPayloadSigned_cast h
  generalize hvote : (key, v) = vote at hcast
  cases hcast with
  | inactive =>
    cases hvote
    exact ⟨fun _ _ _ _ _ _ => .inr refused_missing, fun _ h => (by cases h)⟩
  | undecodable storages _ =>
    cases hvote
    exact ⟨fun _ _ _ _ _ _ => .inr refused_missing, fun _ h => (by cases h)⟩
  | active storages default required boc state attestation _ hstorages hconfigs hattestation =>
    cases hvote
    have hrequirement : requirementOf crates told = .some required := by
      rw [requirementOf, hstorages, Option.bind_some, hconfigs]
      rfl
    have hrecorded : ∀ {recorded : Option UInt64}, recordedIn crates.T storages.connectionCell query.nonce
        query.verifierBe query.packetHashBe = .ok recorded → recordOf crates query told = .some recorded := by
      intro recorded h
      rw [recordOf, hstorages, Option.bind_some, h]
      rfl
    rcases dvnAttestation_recorded hattestation (receiveConfigs_ok hconfigs) with hnot | ⟨recorded, hrecord, hmatches⟩
    · refine ⟨fun _ _ _ _ _ _ => .inl (validityOf_signed (.inr hnot)), fun r h => ?_⟩
      exact absurd hnot (validityOf_notSigned h).2.2
    · refine recognises_of hrequirement (hrecorded hrecord) (fun b hb hle _ => ?_) fun r h => ?_
      · exact .inl (validityOf_signed (.inl (hmatches.mpr ⟨b, hb, hle⟩)))
      · obtain ⟨rfl, hne, -⟩ := validityOf_notSigned h
        exact ⟨rfl, fun b hb => lt_max_one fun hmet => hne (hmatches.mpr ⟨b, hb, hmet.2⟩)⟩

/-! ## The check -/

theorem observeTonPayloadSigned_required {query : TonPayloadQuery} {provider : Provider} {k : String}
    {required : Option UInt64}
    (h : (observeTonPayloadSigned crates query provider []).1 = .ok (k, .notSigned required)) : required ≠ .none := by
  have hcast := observeTonPayloadSigned_cast (Prod.ext h rfl)
  generalize hvote : (k, PayloadSignedValidity.notSigned required) = vote at hcast
  cases hcast with
  | inactive => cases hvote
  | undecodable storages _ => cases hvote
  | active storages default required' boc state attestation _ _ _ _ =>
    have hvalidity : PayloadSignedValidity.notSigned required = validityOf state attestation required' :=
      (Prod.mk.inj hvote).2
    unfold validityOf at hvalidity
    split at hvalidity
    · cases hvalidity
    · cases hvalidity
      exact Option.some_ne_none _

/-- **What is let through is short**: enough of the providers asked were told
storage in which the DVN's attestation of this packet is short of what is
required, or there is none. Or two of them were told storages that differ, and
have one hash. -/
theorem validateTonPayloadNotSignedWithQuorum_onlyShort (crates : Crates) (providers : Providers)
    (tonPayloadConfig : Option RuntimeTonLayerZeroConfig) (provider : Nat → Provider)
    (messageIdJson : PacketSent.LzMessageId → String) (sentEvent : LzSentEvent)
    (verifierAddress dstChainName : String) :
    OnlyShort (tonPanel crates providers tonPayloadConfig sentEvent verifierAddress dstChainName)
        (observeTonPayloadSigned crates) provider (fun _ => requirementOf crates) (recordOf crates)
        (validateTonPayloadNotSignedWithQuorum crates providers tonPayloadConfig provider messageIdJson sentEvent
          verifierAddress dstChainName) ∨
      ∃ panel, tonPanel crates providers tonPayloadConfig sentEvent verifierAddress dstChainName = .ok panel ∧
        Collide crates panel provider := by
  by_cases hcollide : ∃ panel, tonPanel crates providers tonPayloadConfig sentEvent verifierAddress dstChainName =
      .ok panel ∧ Collide crates panel provider
  · exact .inr hcollide
  refine .inl (onlyShort_of_decides (fun panel hpanel => ?_)
    recognises_observeTonPayloadSigned (fun _ _ => payloadSignedValidationResult_ok.mp)
    fun _ _ _ _ => observeTonPayloadSigned_required)
  exact (decides_or_collide panel provider).resolve_right fun h => hcollide ⟨panel, hpanel, h⟩

end Pillar.TonPayload
