/-
What a Solana provider's vote says, and what its accounts hold: the verdict of
an answer is the one of the chain's state that its accounts encode.

The requirement that is shown and the threshold that is applied are read by
different functions; where the threshold can be read they agree
(`solanaRequiredConfirmations_eq`).
-/
import Pillar.SolanaPayload

namespace Pillar.SolanaPayload

open Abi (Bytes)
open EvmPayload (orErr)
open FixedFields
open PayloadSigned Text
open Solana (pointer)
open Asking (bind_ok pure_ok lift_ok ask_ok)

variable {crates : Crates} {nonce : UInt64}

/-! ## One requirement, read twice -/

theorem readU64Le_eq_ok {data : List UInt8} {offset : Nat} {field : String} {n : UInt64} :
    readU64Le data offset field = .ok n ↔ ∃ bytes, bytesAt data offset 8 = .some bytes ∧ n = .ofNat (leNat bytes) := by
  unfold readU64Le
  cases bytesAt data offset 8 with
  | none => simp
  | some bytes => simp [eq_comm]

/-- The config's confirmations, as `solana_payload_is_signed` reads them. -/
theorem decodeSolanaReceiveConfigAccount_eq_ok {data : List UInt8} {n : UInt64}
    (h : decodeSolanaReceiveConfigAccount data = .ok n) :
    ∃ bytes, bytesAt data 9 8 = .some bytes ∧ n = .ofNat (leNat bytes) := by
  obtain ⟨_, -, h⟩ := bindOk_iff.mp h
  exact readU64Le_eq_ok.mp h

theorem decodeOptional_eq_ok {α : Type} {decode : List UInt8 → Except AppCoreError α} {value : Option (List UInt8)}
    {a : Option α} : decodeOptional decode value = .ok a ↔
      (value = .none ∧ a = .none) ∨ ∃ data b, value = .some data ∧ decode data = .ok b ∧ a = .some b := by
  cases value with
  | none => simp [decodeOptional, eq_comm]
  | some data =>
    simp only [decodeOptional, bindOk_iff, Except.ok.injEq, reduceCtorEq, false_and, false_or, Option.some.injEq]
    constructor
    · rintro ⟨b, hb, rfl⟩
      exact ⟨data, b, rfl, hb, rfl⟩
    · rintro ⟨_, b, rfl, hb, rfl⟩
      exact ⟨b, hb, rfl⟩

/-- **The requirement that is shown is the threshold that was applied.** -/
theorem solanaRequiredConfirmations_eq {custom default : Option (List UInt8)} {data : List UInt8} {d : UInt64}
    {c : Option UInt64} (hdefault : orDefaultMissing default = .ok data)
    (hd : decodeSolanaReceiveConfigAccount data = .ok d)
    (hc : decodeOptional decodeSolanaReceiveConfigAccount custom = .ok c) :
    solanaRequiredConfirmations custom default = .ok (requiredConfirmations d c) := by
  obtain ⟨bytes, hbytes, rfl⟩ := decodeSolanaReceiveConfigAccount_eq_ok hd
  unfold solanaRequiredConfirmations
  rw [hdefault]
  rcases decodeOptional_eq_ok.mp hc with ⟨rfl, rfl⟩ | ⟨data', b, rfl, hb, rfl⟩
  · simp only [Bind.bind, Except.bind, hbytes, decodeOptional, requiredConfirmations]
    rfl
  · obtain ⟨bytes', hbytes', rfl⟩ := decodeSolanaReceiveConfigAccount_eq_ok hb
    simp only [Bind.bind, Except.bind, hbytes, hbytes', decodeOptional, requiredConfirmations]
    split_ifs <;> rfl

/-! ## What a verdict says -/

/-- The requirement that an answer's accounts show. -/
def Fetched.requirement (fetched : Fetched) : Option UInt64 :=
  (solanaRequiredConfirmations fetched.receiveConfig fetched.defaultReceiveConfig).toOption

/-- The DVN's record, if it has one. -/
def Fetched.record (fetched : Fetched) : Option (Option UInt64) :=
  match fetched.confirmations with
  | .none => .some .none
  | .some data => (decodeSolanaConfirmationsAccount data).toOption

/-- A packet that is not signed for has a requirement, and a record short of it. -/
theorem solanaPayloadIsSigned_false {fetched : Fetched} (h : solanaPayloadIsSigned nonce fetched.accounts = .ok false) :
    ∃ r recorded, solanaRequiredConfirmations fetched.receiveConfig fetched.defaultReceiveConfig = .ok r ∧
      fetched.record = .some recorded ∧ ∀ b, recorded = .some b → ¬ (1 ≤ b ∧ r ≤ b) := by
  unfold solanaPayloadIsSigned at h
  obtain ⟨delivered, -, h⟩ := bindOk_iff.mp h
  split at h
  · cases h
  · obtain ⟨pending, -, h⟩ := bindOk_iff.mp h
    split at h
    · cases h
    · obtain ⟨data, hdata, h⟩ := bindOk_iff.mp h
      obtain ⟨d, hd, h⟩ := bindOk_iff.mp h
      obtain ⟨c, hc, h⟩ := bindOk_iff.mp h
      have hrequired := solanaRequiredConfirmations_eq hdata hd hc
      cases hconfirmations : fetched.confirmations with
      | none => exact ⟨_, .none, hrequired, by rw [Fetched.record, hconfirmations], fun b hb => (by cases hb)⟩
      | some account =>
        have hrecord : fetched.record = (decodeSolanaConfirmationsAccount account).toOption := by
          rw [Fetched.record, hconfirmations]
        simp only [Fetched.accounts, hconfirmations] at h
        obtain ⟨recorded, hrecorded, h⟩ := bindOk_iff.mp h
        rw [hrecorded] at hrecord
        refine ⟨_, recorded, hrequired, hrecord, fun b hb hmet => ?_⟩
        subst hb
        have hfalse := Except.ok.inj h
        rw [decide_eq_false_iff_not] at hfalse
        refine hfalse ⟨fun hzero => ?_, hmet.2⟩
        rw [hzero] at hmet
        exact absurd hmet.1 (by decide)

/-- What the verdicts are. -/
theorem Fetched.validity_ok {fetched : Fetched} {v : PayloadSignedValidity}
    (h : fetched.validity crates nonce = .ok v) :
    v = .unsupportedReceiveLibrary ∨ v = .signed ∨
      ∃ r, v = .notSigned (.some r) ∧ solanaPayloadIsSigned nonce fetched.accounts = .ok false ∧
        fetched.requirement = .some r := by
  obtain ⟨valid, -, h⟩ := bindOk_iff.mp h
  split at h
  · obtain ⟨required, hrequired, h⟩ := bindOk_iff.mp h
    obtain ⟨signed, hsigned, h⟩ := bindOk_iff.mp h
    split at h
    · cases h
      exact .inr (.inl rfl)
    · next hnot =>
      cases h
      refine .inr (.inr ⟨required, rfl, ?_, by rw [Fetched.requirement, hrequired]; rfl⟩)
      rw [hsigned, Bool.eq_false_of_not_eq_true hnot]
  · cases h
    exact .inl rfl

/-! ## What a provider was told -/

/-- The accounts of the answer that a provider gave. -/
def fetchedOf (crates : Crates) (told : List (Asked GetMultipleAccounts fun _ => Except RpcError Json)) :
    Option Fetched :=
  told.head?.bind fun asked => asked.answer.toOption.bind fun response => (fetchedAccounts crates response).toOption

def requirementOf (crates : Crates) (told : List (Asked GetMultipleAccounts fun _ => Except RpcError Json)) :
    Option UInt64 := (fetchedOf crates told).bind Fetched.requirement

def recordOf (crates : Crates) (told : List (Asked GetMultipleAccounts fun _ => Except RpcError Json)) :
    Option (Option UInt64) := (fetchedOf crates told).bind Fetched.record

theorem readResponse_ok {answer : Except RpcError Json} {v : PayloadSignedValidity}
    (h : readResponse crates nonce answer = .ok v) : ∃ response fetched, answer = .ok response ∧
      fetchedAccounts crates response = .ok fetched ∧ fetched.validity crates nonce = .ok v := by
  obtain ⟨response, hanswer, hread⟩ := bindOk_iff.mp h
  obtain ⟨fetched, hfetched, hvalidity⟩ := bindOk_iff.mp hread
  cases answer with
  | error e => cases hanswer
  | ok value =>
    cases hanswer
    exact ⟨response, fetched, rfl, hfetched, hvalidity⟩

theorem orRpc_eq_ok {α : Type} {x : Except AppCoreError α} {a : α} : orRpc x = .ok a ↔ x = .ok a := by
  cases x <;> simp [orRpc, Except.mapError]

theorem observeSolanaPayloadSigned_ok {provider : Provider} {query : SolanaQuery}
    {t t' : List (Asked GetMultipleAccounts fun _ => Except RpcError Json)} {k : String} {v : PayloadSignedValidity}
    (h : observeSolanaPayloadSigned crates provider query t = (.ok (k, v), t')) :
    k = v.debug ∧ ∃ response fetched, t' = t ++ [⟨⟨query.pubkeys⟩, .ok response⟩] ∧
      fetchedAccounts crates response = .ok fetched ∧ fetched.validity crates query.nonce = .ok v := by
  obtain ⟨answer, s, hask, h⟩ := bind_ok h
  obtain ⟨-, rfl⟩ := ask_ok hask
  obtain ⟨validity, s', hlift, h⟩ := bind_ok h
  obtain ⟨hread, rfl⟩ := lift_ok hlift
  obtain ⟨heq, rfl⟩ := pure_ok h
  cases heq
  obtain ⟨response, fetched, rfl, hfetched, hvalidity⟩ := readResponse_ok (orRpc_eq_ok.mp hread)
  exact ⟨rfl, response, fetched, rfl, hfetched, hvalidity⟩

theorem observeSolanaPayloadSigned_voteDecides (crates : Crates) (query : SolanaQuery) :
    VoteDecides fun provider => observeSolanaPayloadSigned crates provider query :=
  voteDecides_of_debug PayloadSignedValidity.debug_injective fun _ _ _ _ _ h => (observeSolanaPayloadSigned_ok h).1

theorem observeSolanaPayloadSigned_recognises (crates : Crates) (provider : Provider) (query : SolanaQuery) :
    Recognises validities (requirementOf crates) (recordOf crates)
      (observeSolanaPayloadSigned crates provider query) := by
  intro k v told h
  obtain ⟨-, response, fetched, rfl, hfetched, hvalidity⟩ := observeSolanaPayloadSigned_ok h
  have hof : fetchedOf crates ([] ++ [⟨⟨query.pubkeys⟩, .ok response⟩]) = .some fetched := by
    show (fetchedAccounts crates response).toOption = .some fetched
    rw [hfetched]
    rfl
  rw [requirementOf, recordOf, hof, Option.bind_some, Option.bind_some]
  rcases Fetched.validity_ok hvalidity with rfl | rfl | ⟨r, rfl, hsigned, hrequirement⟩
  · refine ⟨fun _ _ _ _ _ _ => .inr ⟨fun h => (by cases h), fun _ h => (by cases h)⟩, fun _ h => (by cases h)⟩
  · refine ⟨fun _ _ _ _ _ _ => .inl rfl, fun _ h => (by cases h)⟩
  · obtain ⟨r', recorded, hr', hrecord, hshort⟩ := solanaPayloadIsSigned_false hsigned
    rw [Fetched.requirement, hr'] at hrequirement
    cases hrequirement
    refine recognises_of (by rw [Fetched.requirement, hr']; rfl) hrecord (fun b hb hle hone => ?_) fun r'' h => ?_
    · exact absurd ⟨hone, hle⟩ (hshort b hb)
    · cases h
      exact ⟨rfl, fun b hb => lt_max_one (hshort b hb)⟩

theorem observeSolanaPayloadSigned_required {crates : Crates} {query : SolanaQuery} {provider : Provider} {k : String}
    {required : Option UInt64}
    (h : (observeSolanaPayloadSigned crates provider query []).1 = .ok (k, .notSigned required)) :
    required ≠ .none := by
  obtain ⟨-, response, fetched, -, -, hvalidity⟩ := observeSolanaPayloadSigned_ok (Prod.ext h rfl)
  rcases Fetched.validity_ok hvalidity with h | h | ⟨r, h, -⟩ <;> cases h
  exact Option.some_ne_none _

/-- **A Solana destination is signed for on short records only.** -/
theorem validateSolanaPayloadNotSignedWithQuorum_onlyShort (crates : Crates) (providers : Providers)
    (oracles : Nat → Provider) (messageIdJson : PacketSent.LzMessageId → String) (sentEvent : PacketSent.LzSentEvent)
    (verifierAddress dstChainName : String) :
    OnlyShort (solanaPanel crates providers sentEvent verifierAddress dstChainName)
      (fun query provider => observeSolanaPayloadSigned crates provider query) oracles
      (fun _ => requirementOf crates) (fun _ => recordOf crates)
      (validateSolanaPayloadNotSignedWithQuorum crates providers oracles messageIdJson sentEvent verifierAddress
        dstChainName) :=
  validateWithQuorum_onlyShort (observeSolanaPayloadSigned_voteDecides crates)
    (fun query provider => observeSolanaPayloadSigned_recognises crates provider query)
    (fun _ _ => payloadSignedValidationResult_ok.mp)
    fun _ _ _ _ => observeSolanaPayloadSigned_required

/-! ## Accounts on chain -/

/-- `Nonce`, of the endpoint. -/
structure NonceAccount where
  bump : UInt8
  outboundNonce : UInt64
  inboundNonce : UInt64

/-- `PendingInboundNonce`: its length is a `u32`. -/
structure PendingNonceAccount where
  nonces : List UInt64
  length_lt : nonces.length < 2 ^ 32
  bump : UInt8

/-- `ReceiveConfig`; the DVNs follow the confirmations. -/
structure ReceiveConfigAccount where
  bump : UInt8
  confirmations : UInt64
  dvns : List UInt8

/-- `Confirmations`, of a DVN and a packet. -/
structure ConfirmationsAccount where
  value : Option UInt64
  bump : UInt8

/-- `ReceiveLibraryConfig`. -/
structure LibraryConfigAccount where
  config : SolanaReceiveLibraryConfig
  bump : UInt8

def le64 (n : UInt64) : List UInt8 := leBytes 8 n.toNat

@[simp] theorem length_le64 (n : UInt64) : (le64 n).length = 8 := length_leBytes 8 n.toNat

@[simp] theorem ofNat_leNat_le64 (n : UInt64) : UInt64.ofNat (leNat (le64 n)) = n := by
  rw [le64, leNat_leBytes n.toNat_lt, UInt64.ofNat_toNat]

def NonceAccount.data (account : NonceAccount) : List UInt8 :=
  nonceDiscriminator ++ (account.bump :: (le64 account.outboundNonce ++ le64 account.inboundNonce))

def PendingNonceAccount.data (account : PendingNonceAccount) : List UInt8 :=
  pendingInboundNonceDiscriminator ++
    (leBytes 4 account.nonces.length ++ (account.nonces.flatMap le64 ++ [account.bump]))

def ReceiveConfigAccount.data (account : ReceiveConfigAccount) : List UInt8 :=
  receiveConfigDiscriminator ++ (account.bump :: (le64 account.confirmations ++ account.dvns))

def optionBytes {α : Type} (write : α → List UInt8) : Option α → List UInt8
  | .none => [0]
  | .some a => 1 :: write a

def ConfirmationsAccount.data (account : ConfirmationsAccount) : List UInt8 :=
  confirmationsDiscriminator ++ (optionBytes le64 account.value ++ [account.bump])

def LibraryConfigAccount.data (account : LibraryConfigAccount) : List UInt8 :=
  receiveLibraryConfigDiscriminator ++ (account.config.messageLib.val ++
    (optionBytes (fun timeout => timeout.1.val ++ le64 timeout.2) account.config.timeout ++ [account.bump]))

/-! ## Accounts read back -/

theorem readU64Le_of_append (before after : List UInt8) {n : UInt64} {offset : Nat} {field : String}
    (h : before.length = offset) : readU64Le (before ++ (le64 n ++ after)) offset field = .ok n :=
  readU64Le_eq_ok.mpr ⟨_, bytesAt_append before _ after h (length_le64 n), (ofNat_leNat_le64 n).symm⟩

theorem checkAccountDiscriminator_append {expected rest : List UInt8} {accountName : String}
    (h : expected.length = 8) : checkAccountDiscriminator (expected ++ rest) expected accountName = .ok () := by
  have hread : bytesAt (expected ++ rest) 0 8 = .some expected := bytesAt_append [] expected rest rfl h
  rw [checkAccountDiscriminator, hread]
  exact if_pos rfl

/-- Behind its discriminator an account is read as it is. -/
theorem checked {α : Type} {expected rest : List UInt8} {accountName : String} {x : Except AppCoreError α}
    (h : expected.length = 8) :
    (checkAccountDiscriminator (expected ++ rest) expected accountName >>= fun _ => x) = x := by
  rw [checkAccountDiscriminator_append h]
  rfl

theorem tagAt {before rest : List UInt8} {tag : UInt8} {offset : Nat} (h : before.length = offset) :
    (before ++ tag :: rest)[offset]? = .some tag := by
  subst h
  simp

theorem decodeSolanaNonceAccount_data (account : NonceAccount) :
    decodeSolanaNonceAccount account.data = .ok account.inboundNonce := by
  rw [decodeSolanaNonceAccount, NonceAccount.data, checked rfl]
  have hplace : nonceDiscriminator ++ (account.bump :: (le64 account.outboundNonce ++ le64 account.inboundNonce)) =
      (nonceDiscriminator ++ (account.bump :: le64 account.outboundNonce)) ++ (le64 account.inboundNonce ++ []) := by
    simp
  rw [hplace]
  exact readU64Le_of_append _ _ (by rw [List.length_append, List.length_cons, length_le64]; rfl)

theorem decodeSolanaReceiveConfigAccount_data (account : ReceiveConfigAccount) :
    decodeSolanaReceiveConfigAccount account.data = .ok account.confirmations := by
  rw [decodeSolanaReceiveConfigAccount, ReceiveConfigAccount.data, checked rfl]
  have hplace : receiveConfigDiscriminator ++ (account.bump :: (le64 account.confirmations ++ account.dvns)) =
      (receiveConfigDiscriminator ++ [account.bump]) ++ (le64 account.confirmations ++ account.dvns) := by
    simp
  rw [hplace]
  exact readU64Le_of_append _ _ rfl

theorem decodeSolanaConfirmationsAccount_data (account : ConfirmationsAccount) :
    decodeSolanaConfirmationsAccount account.data = .ok account.value := by
  obtain ⟨value, bump⟩ := account
  rw [decodeSolanaConfirmationsAccount, ConfirmationsAccount.data, checked rfl]
  cases value with
  | none => rfl
  | some n =>
    have hread : readU64Le (confirmationsDiscriminator ++ ((1 :: le64 n) ++ [bump])) 9 "Confirmations.value" = .ok n :=
      readU64Le_of_append (confirmationsDiscriminator ++ [1]) [bump] rfl
    have htag : (confirmationsDiscriminator ++ ((1 :: le64 n) ++ [bump]))[8]? = some 1 := tagAt rfl
    simp only [optionBytes, htag, hread, Bind.bind, Except.bind]
    rfl

theorem readPubkey_of_append (before after : List UInt8) {key : Bytes 32} {offset : Nat} {field : String}
    (h : before.length = offset) : readPubkey (before ++ (key.val ++ after)) offset field = .ok key := by
  have hread := bytesAt_append before key.val after h key.length_val
  unfold readPubkey
  split
  · next bytes hbytes =>
    rw [hread] at hbytes
    cases hbytes
    rfl
  · next hnone =>
    rw [hread] at hnone
    cases hnone

theorem decodeSolanaReceiveLibraryConfig_data (account : LibraryConfigAccount) :
    decodeSolanaReceiveLibraryConfig account.data = .ok account.config := by
  obtain ⟨⟨messageLib, timeout⟩, bump⟩ := account
  rw [decodeSolanaReceiveLibraryConfig, LibraryConfigAccount.data, checked rfl]
  have hlib : ∀ rest, readPubkey (receiveLibraryConfigDiscriminator ++ (messageLib.val ++ rest)) 8
      "ReceiveLibraryConfig.message_lib" = .ok messageLib :=
    fun rest => readPubkey_of_append receiveLibraryConfigDiscriminator rest rfl
  have hfront : (receiveLibraryConfigDiscriminator ++ messageLib.val).length = 40 := by
    rw [List.length_append, messageLib.length_val]
    rfl
  have htag : ∀ tag rest, (receiveLibraryConfigDiscriminator ++ (messageLib.val ++ tag :: rest))[40]? = some tag := by
    intro tag rest
    rw [← List.append_assoc]
    exact tagAt hfront
  cases timeout with
  | none => simp only [optionBytes, List.cons_append, hlib, htag, Bind.bind, Except.bind]
  | some timeout =>
    obtain ⟨replaced, expiry⟩ := timeout
    have hreplaced : ∀ rest, readPubkey (receiveLibraryConfigDiscriminator ++ (messageLib.val ++
        1 :: (replaced.val ++ rest))) 41 "ReceiveLibraryConfig.timeout.message_lib" = .ok replaced := by
      intro rest
      have hplace : (receiveLibraryConfigDiscriminator ++ messageLib.val ++ [1]).length = 41 := by
        rw [List.length_append, hfront]
        rfl
      simpa using readPubkey_of_append _ rest hplace
    have hexpiry : ∀ rest, readU64Le (receiveLibraryConfigDiscriminator ++ (messageLib.val ++
        1 :: (replaced.val ++ (le64 expiry ++ rest)))) 73 "ReceiveLibraryConfig.timeout.expiry" = .ok expiry := by
      intro rest
      have hplace : (receiveLibraryConfigDiscriminator ++ messageLib.val ++ ([1] ++ replaced.val)).length = 73 := by
        rw [List.length_append, hfront, List.length_append, replaced.length_val]
        rfl
      simpa using readU64Le_of_append _ rest hplace
    simp only [optionBytes, List.cons_append, List.append_assoc, hlib, htag, hreplaced, hexpiry, Bind.bind,
      Except.bind]

/-- All the nonces, though they may be many. -/
theorem decodeSolanaPendingInboundNonceAccount_data (account : PendingNonceAccount) :
    decodeSolanaPendingInboundNonceAccount account.data = .ok account.nonces := by
  obtain ⟨nonces, hlength, bump⟩ := account
  have hwhole : PendingNonceAccount.data ⟨nonces, hlength, bump⟩ =
      (pendingInboundNonceDiscriminator ++ leBytes 4 nonces.length) ++ (nonces.flatMap le64 ++ [bump]) := by
    rw [PendingNonceAccount.data, List.append_assoc]
  have hlen : readU32Le (PendingNonceAccount.data ⟨nonces, hlength, bump⟩) 8 "PendingInboundNonce.nonces.len" =
      .ok (.ofNat nonces.length) := by
    have hread : bytesAt (PendingNonceAccount.data ⟨nonces, hlength, bump⟩) 8 4 = .some (leBytes 4 nonces.length) :=
      bytesAt_append _ _ _ rfl (length_leBytes 4 nonces.length)
    rw [readU32Le, hread]
    simp only [leNat_leBytes (show nonces.length < 256 ^ 4 by omega)]
  have hitem : ∀ index nonce, nonces[index]? = .some nonce →
      readU64Le (PendingNonceAccount.data ⟨nonces, hlength, bump⟩) (12 + index * 8) "PendingInboundNonce.nonces[i]" =
        .ok nonce := by
    intro index nonce hindex
    rw [hwhole]
    exact readU64Le_eq_ok.mpr ⟨_, bytesAt_run length_le64 (by rw [List.length_append, length_leBytes]; rfl) hindex,
      (ofNat_leNat_le64 nonce).symm⟩
  have hcheck : checkAccountDiscriminator (PendingNonceAccount.data ⟨nonces, hlength, bump⟩)
      pendingInboundNonceDiscriminator "PendingInboundNonce" = .ok () := checkAccountDiscriminator_append rfl
  have hcount : (UInt32.ofNat nonces.length).toNat = nonces.length := by
    rw [UInt32.toNat_ofNat', Nat.mod_eq_of_lt hlength]
  have hall : (List.range nonces.length).mapM (fun index => readU64Le (PendingNonceAccount.data ⟨nonces, hlength, bump⟩)
      (12 + index * 8) "PendingInboundNonce.nonces[i]") = .ok nonces := by
    refine mapM_eq_ok_iff.mpr (List.forall₂_of_length_eq_of_get (List.length_range) fun index h h' => ?_)
    rw [List.get_eq_getElem, List.getElem_range]
    exact hitem index _ (List.getElem?_eq_getElem h')
  simp only [decodeSolanaPendingInboundNonceAccount, hcheck, hlen, hcount, hall, Bind.bind, Except.bind]

/-! ## The chain behind an answer -/

/-- What the chain holds about a packet, at one slot. -/
structure ChainState where
  nonce : Option NonceAccount
  pendingNonce : Option PendingNonceAccount
  receiveConfig : Option ReceiveConfigAccount
  defaultReceiveConfig : Option ReceiveConfigAccount
  confirmations : Option ConfirmationsAccount
  libraryConfig : Option LibraryConfigAccount
  defaultLibraryConfig : Option LibraryConfigAccount
  slot : UInt64

namespace ChainState

variable (state : ChainState)

def fetched : Fetched where
  nonce := state.nonce.map NonceAccount.data
  pendingNonce := state.pendingNonce.map PendingNonceAccount.data
  receiveConfig := state.receiveConfig.map ReceiveConfigAccount.data
  defaultReceiveConfig := state.defaultReceiveConfig.map ReceiveConfigAccount.data
  confirmations := state.confirmations.map ConfirmationsAccount.data
  libraryConfig := state.libraryConfig.map LibraryConfigAccount.data
  defaultLibraryConfig := state.defaultLibraryConfig.map LibraryConfigAccount.data
  slot := state.slot

/-- A config takes the library it names, and the one it replaced until its grace period ends. -/
def Takes (config : SolanaReceiveLibraryConfig) (uln : Bytes 32) (slot : UInt64) : Prop :=
  config.messageLib = uln ∨ ∃ expiry, config.timeout = .some (uln, expiry) ∧ slot < expiry

/-- The receiver's own config, or the default where it follows that. -/
def Accepts (uln : Bytes 32) : Prop :=
  ∃ own default, state.libraryConfig = .some own ∧ state.defaultLibraryConfig = .some default ∧
    Takes (if own.config.messageLib.val = List.replicate 32 0 then default.config else own.config) uln state.slot

def required (default : ReceiveConfigAccount) : UInt64 :=
  requiredConfirmations default.confirmations (state.receiveConfig.map ReceiveConfigAccount.confirmations)

/-- Delivered, committed, or recorded with the confirmations required. -/
def Verified (nonce : UInt64) (default : ReceiveConfigAccount) : Prop :=
  (∃ account, state.nonce = .some account ∧ nonce ≤ account.inboundNonce) ∨
  (∃ account, state.pendingNonce = .some account ∧ nonce ∈ account.nonces) ∨
  ∃ account value, state.confirmations = .some account ∧ account.value = .some value ∧ value ≠ 0 ∧
    state.required default ≤ value

/-- What the chain says of a packet that this DVN would verify on `uln`. -/
def Verdict (uln : Bytes 32) (nonce : UInt64) : PayloadSignedValidity → Prop
  | .unsupportedReceiveLibrary => ¬state.Accepts uln
  | .signed => state.Accepts uln ∧ ∃ default, state.defaultReceiveConfig = .some default ∧ state.Verified nonce default
  | .notSigned required => state.Accepts uln ∧ ∃ default, state.defaultReceiveConfig = .some default ∧
      ¬state.Verified nonce default ∧ required = .some (state.required default)
  | .missing => False

variable {state}

theorem takes_iff {config : SolanaReceiveLibraryConfig} {uln : Bytes 32} {slot : UInt64} :
    (config.messageLib = uln ∨ (config.timeout.any fun timeout => timeout.1 = uln ∧ slot < timeout.2) = true) ↔
      Takes config uln slot := by
  cases htimeout : config.timeout with
  | none => simp [Takes, htimeout]
  | some timeout =>
    obtain ⟨replaced, expiry⟩ := timeout
    simp only [Takes, htimeout, Option.any_some, decide_eq_true_eq, Option.some.injEq, Prod.mk.injEq]
    refine or_congr_right ⟨fun ⟨h, hlt⟩ => ⟨expiry, ⟨h, rfl⟩, hlt⟩, ?_⟩
    rintro ⟨_, ⟨h, rfl⟩, hlt⟩
    exact ⟨h, hlt⟩

theorem solanaUlnIsValidReceiveLibrary_fetched (state : ChainState) {program uln : Bytes 32}
    (hprogram : publicKeyBytes crates solanaUlnProgramId = .ok program)
    (huln : findProgramAddress crates [seed "MessageLib"] program = .ok uln) :
    ∃ valid, solanaUlnIsValidReceiveLibrary crates state.fetched.libraryConfig state.fetched.defaultLibraryConfig
      state.fetched.slot = .ok valid ∧ (valid = true ↔ state.Accepts uln) := by
  cases hown : state.libraryConfig with
  | none =>
    refine ⟨false, by simp [fetched, hown, solanaUlnIsValidReceiveLibrary], iff_of_false Bool.false_ne_true ?_⟩
    rintro ⟨own, default, h, -⟩
    rw [hown] at h
    cases h
  | some own =>
    cases hdefault : state.defaultLibraryConfig with
    | none =>
      refine ⟨false, by simp [fetched, hdefault, solanaUlnIsValidReceiveLibrary], iff_of_false Bool.false_ne_true ?_⟩
      rintro ⟨own, default, -, h, -⟩
      rw [hdefault] at h
      cases h
    | some default =>
      refine ⟨_, by simp only [fetched, hown, hdefault, Option.map_some, solanaUlnIsValidReceiveLibrary, hprogram, huln,
        decodeSolanaReceiveLibraryConfig_data, Bind.bind, Except.bind]; rfl, ?_⟩
      rw [decide_eq_true_iff, takes_iff]
      constructor
      · intro h
        exact ⟨own, default, hown, hdefault, h⟩
      · rintro ⟨own', default', hown', hdefault', h⟩
        rw [hown] at hown'
        rw [hdefault] at hdefault'
        cases hown'
        cases hdefault'
        exact h

theorem decodeOptional_map {α β : Type} {decode : List UInt8 → Except AppCoreError β} {data : α → List UInt8}
    {value : α → β} (h : ∀ a, decode (data a) = .ok (value a)) (account : Option α) :
    decodeOptional decode (account.map data) = .ok (account.map value) := by
  cases account with
  | none => rfl
  | some a => simp only [Option.map_some, decodeOptional, h, Bind.bind, Except.bind]

/-- **The accounts say whether the packet is verified.** -/
theorem solanaPayloadIsSigned_fetched (nonce : UInt64) {default : ReceiveConfigAccount}
    (hdefault : state.defaultReceiveConfig = .some default) :
    ∃ signed, solanaPayloadIsSigned nonce state.fetched.accounts = .ok signed ∧
      (signed = true ↔ state.Verified nonce default) := by
  have hdelivered := decodeOptional_map decodeSolanaNonceAccount_data state.nonce
  have hpending := decodeOptional_map decodeSolanaPendingInboundNonceAccount_data state.pendingNonce
  have hcustom := decodeOptional_map decodeSolanaReceiveConfigAccount_data state.receiveConfig
  have hd := decodeSolanaReceiveConfigAccount_data default
  have hnonce : (state.nonce.map NonceAccount.inboundNonce).any (nonce ≤ ·) = true ↔
      ∃ account, state.nonce = .some account ∧ nonce ≤ account.inboundNonce := by
    cases state.nonce <;> simp
  have hcommitted : (state.pendingNonce.map PendingNonceAccount.nonces).any (·.contains nonce) = true ↔
      ∃ account, state.pendingNonce = .some account ∧ nonce ∈ account.nonces := by
    cases state.pendingNonce <;> simp
  unfold solanaPayloadIsSigned Verified
  rw [← hnonce, ← hcommitted]
  simp only [Fetched.accounts, fetched, hdelivered, hpending, hcustom, hdefault, hd, Option.map_some, orDefaultMissing,
    Option.elim_some, Bind.bind, Except.bind]
  split
  · next h => exact ⟨true, rfl, iff_of_true rfl (.inl h)⟩
  · next h =>
    split
    · next h' => exact ⟨true, rfl, iff_of_true rfl (.inr (.inl h'))⟩
    · next h' =>
      rw [or_iff_right h, or_iff_right h']
      cases hrecord : state.confirmations with
      | none => exact ⟨false, rfl, by simp⟩
      | some account =>
        simp only [Option.map_some, decodeSolanaConfirmationsAccount_data]
        cases hvalue : account.value with
        | none => exact ⟨false, rfl, by simp [hvalue]⟩
        | some value => exact ⟨_, rfl, by simp [hvalue, required]⟩

theorem verdict_of_refused {uln : Bytes 32} {v : PayloadSignedValidity} (h : ¬state.Accepts uln) :
    state.Verdict uln nonce v ↔ v = .unsupportedReceiveLibrary := by
  cases v <;> simp [Verdict, h]

theorem verdict_of_no_default {uln : Bytes 32} {v : PayloadSignedValidity} (h : state.Accepts uln)
    (hdefault : state.defaultReceiveConfig = .none) : ¬state.Verdict uln nonce v := by
  cases v <;> simp [Verdict, h, hdefault]

theorem verdict_of_default {uln : Bytes 32} {v : PayloadSignedValidity} {default : ReceiveConfigAccount}
    (h : state.Accepts uln) (hdefault : state.defaultReceiveConfig = .some default) :
    state.Verdict uln nonce v ↔ (state.Verified nonce default ∧ v = .signed) ∨
      (¬state.Verified nonce default ∧ v = .notSigned (.some (state.required default))) := by
  cases v <;> simp [Verdict, h, hdefault]

/-- **The verdict of a chain's accounts is what the chain says.** -/
theorem validity_fetched {program uln : Bytes 32} (hprogram : publicKeyBytes crates solanaUlnProgramId = .ok program)
    (huln : findProgramAddress crates [seed "MessageLib"] program = .ok uln) {v : PayloadSignedValidity} :
    state.fetched.validity crates nonce = .ok v ↔ state.Verdict uln nonce v := by
  obtain ⟨valid, hvalid, haccepts⟩ := solanaUlnIsValidReceiveLibrary_fetched state hprogram huln
  unfold Fetched.validity
  rw [hvalid]
  cases valid with
  | false =>
    show (Except.ok PayloadSignedValidity.unsupportedReceiveLibrary : Except AppCoreError _) = .ok v ↔ _
    rw [verdict_of_refused fun h => Bool.false_ne_true (haccepts.mpr h), Except.ok.injEq, eq_comm]
  | true =>
    have hacc : state.Accepts uln := haccepts.mp rfl
    cases hdefault : state.defaultReceiveConfig with
    | none =>
      have herror : solanaRequiredConfirmations state.fetched.receiveConfig state.fetched.defaultReceiveConfig =
          .error (.internal "Default Solana ULN receive config not found") := by
        simp only [solanaRequiredConfirmations, fetched, hdefault, Option.map_none, orDefaultMissing, Option.elim_none,
          Bind.bind, Except.bind]
      simp only [herror, Bind.bind, Except.bind, if_true]
      exact iff_of_false (fun h => (by cases h)) (verdict_of_no_default hacc hdefault)
    | some default =>
      obtain ⟨signed, hsigned, hverified⟩ := solanaPayloadIsSigned_fetched nonce hdefault
      have hrequired : solanaRequiredConfirmations state.fetched.receiveConfig state.fetched.defaultReceiveConfig =
          .ok (state.required default) := by
        refine solanaRequiredConfirmations_eq ?_ (decodeSolanaReceiveConfigAccount_data default)
          (decodeOptional_map decodeSolanaReceiveConfigAccount_data state.receiveConfig)
        rw [fetched, hdefault]
        rfl
      rw [verdict_of_default hacc hdefault, ← hverified]
      simp only [hrequired, hsigned, Bind.bind, Except.bind, if_true]
      cases signed <;> simp [eq_comm, pure, Except.pure]

end ChainState

/-! ## The chain served -/

/-- `value` shows the account `data` of a program, or that there is none. -/
def Shows (crates : Crates) (value : Json) (owner : String) : Option (List UInt8) → Prop
  | .none => value = .null
  | .some data => pointer ["data", "0"] value = .some (.string (crates.base64.encode data)) ∧
      pointer ["data", "1"] value = .some (.string "base64") ∧ value.get "owner" = .some (.string owner) ∧
      value.get "executable" = .some (.bool false)

/-- The answer shows the seven accounts of the chain's state, at its slot. -/
structure Serves (crates : Crates) (state : ChainState) (response : Json) (values : List Json) : Prop where
  value : pointer ["result", "value"] response = .some (.array values)
  slot : (pointer ["result", "context", "slot"] response).bind Json.asU64 = .some state.slot
  shows : List.Forall₂ (fun value account => Shows crates value account.1 account.2) values
    [(solanaEndpointProgramId, state.fetched.nonce), (solanaEndpointProgramId, state.fetched.pendingNonce),
      (solanaUlnProgramId, state.fetched.receiveConfig), (solanaUlnProgramId, state.fetched.defaultReceiveConfig),
      (solanaUlnProgramId, state.fetched.confirmations), (solanaEndpointProgramId, state.fetched.libraryConfig),
      (solanaEndpointProgramId, state.fetched.defaultLibraryConfig)]

theorem decodeSolanaAccountData_of_shows {value : Json} {owner : String} {data : Option (List UInt8)}
    (howner : owner ≠ systemProgramId) (h : Shows crates value owner data) :
    decodeSolanaAccountData crates value owner = .ok data := by
  cases data with
  | none =>
    rw [show value = .null from h]
    rfl
  | some data =>
    obtain ⟨hdata, hencoding, hown, hexecutable⟩ := h
    have hnull : value.isNull = false := by
      cases value <;> first | rfl | cases hown
    have hdecode : crates.base64.decode (crates.base64.encode data) = .ok data := by
      have hoption := crates.base64.toOption_decode_encode data
      cases hd : crates.base64.decode (crates.base64.encode data) with
      | ok decoded =>
        rw [hd] at hoption
        cases hoption
        rfl
      | error e =>
        rw [hd] at hoption
        cases hoption
    unfold decodeSolanaAccountData
    rw [hnull, if_neg Bool.false_ne_true, hdata, hencoding, hown, hexecutable]
    simp [asBool, Json.asStr, howner, hdecode]

theorem fetchedAccounts_of_serves {state : ChainState} {response : Json} {values : List Json}
    (h : Serves crates state response values) : fetchedAccounts crates response = .ok state.fetched := by
  obtain ⟨hvalue, hslot, hshows⟩ := h
  have hendpoint : solanaEndpointProgramId ≠ systemProgramId := by decide
  have huln : solanaUlnProgramId ≠ systemProgramId := by decide
  rcases hshows with _ | ⟨h0, _ | ⟨h1, _ | ⟨h2, _ | ⟨h3, _ | ⟨h4, _ | ⟨h5, _ | ⟨h6, _ | _⟩⟩⟩⟩⟩⟩⟩
  unfold fetchedAccounts
  rw [hvalue, hslot]
  have hdecoded : ([_, _, _, _, _, _, _].zipIdx.mapM fun entry : Json × Nat =>
      decodeSolanaAccountData crates entry.1 (expectedOwner entry.2)) = .ok [state.fetched.nonce,
        state.fetched.pendingNonce, state.fetched.receiveConfig, state.fetched.defaultReceiveConfig,
        state.fetched.confirmations, state.fetched.libraryConfig, state.fetched.defaultLibraryConfig] :=
    mapM_eq_ok_iff.mpr (.cons (decodeSolanaAccountData_of_shows hendpoint h0)
      (.cons (decodeSolanaAccountData_of_shows hendpoint h1) (.cons (decodeSolanaAccountData_of_shows huln h2)
      (.cons (decodeSolanaAccountData_of_shows huln h3) (.cons (decodeSolanaAccountData_of_shows huln h4)
      (.cons (decodeSolanaAccountData_of_shows hendpoint h5)
      (.cons (decodeSolanaAccountData_of_shows hendpoint h6) .nil)))))))
  show (List.mapM _ _ >>= _) = _
  rw [hdecoded]
  rfl

/-- **A provider that serves the chain votes as the chain says**: the verdict of
its observation is the chain's, and it has none just where the chain has none. -/
theorem observeSolanaPayloadSigned_served (crates : Crates) (program uln : Bytes 32) (state : ChainState)
    (values : List Json) {response : Json} {provider : Provider} {query : SolanaQuery}
    (hprogram : publicKeyBytes crates solanaUlnProgramId = .ok program)
    (huln : findProgramAddress crates [seed "MessageLib"] program = .ok uln)
    (hserves : Serves crates state response values) (hprovider : provider [] ⟨query.pubkeys⟩ = .ok response)
    (k : String) (v : PayloadSignedValidity) :
    (observeSolanaPayloadSigned crates provider query []).1 = .ok (k, v) ↔
      k = v.debug ∧ state.Verdict uln query.nonce v := by
  rw [← ChainState.validity_fetched hprogram huln]
  have hfetched := fetchedAccounts_of_serves hserves
  have hread : readResponse crates query.nonce (provider [] ⟨query.pubkeys⟩) =
      state.fetched.validity crates query.nonce := by
    rw [hprovider]
    show (fetchedAccounts crates response >>= fun fetched => fetched.validity crates query.nonce) = _
    rw [hfetched]
    rfl
  have hrun : (observeSolanaPayloadSigned crates provider query []).1 =
      (orRpc (state.fetched.validity crates query.nonce)).map fun v => (v.debug, v) := by
    rw [← hread]
    show ((Asking.lift (orRpc (readResponse crates query.nonce (provider [] ⟨query.pubkeys⟩))) >>=
      fun validity => pure (validity.debug, validity) : Observe _) _).1 = _
    cases orRpc (readResponse crates query.nonce (provider [] ⟨query.pubkeys⟩)) <;> rfl
  rw [hrun]
  cases state.fetched.validity crates query.nonce with
  | error e => simp [orRpc, Except.mapError, Except.map]
  | ok w =>
    simp only [orRpc, Except.mapError, Except.map, Except.ok.injEq, Prod.mk.injEq]
    constructor
    · rintro ⟨rfl, rfl⟩
      exact ⟨rfl, rfl⟩
    · rintro ⟨rfl, rfl⟩
      exact ⟨rfl, rfl⟩

/-! ### A provider of a packet that is not verified -/

def sampleProgram : Bytes 32 :=
  ⟨[97, 158, 66, 154, 29, 230, 120, 84, 189, 69, 94, 230, 100, 63, 86, 141, 98, 54, 205, 232, 233, 68, 42,
    58, 191, 2, 159, 1, 111, 170, 230, 48], rfl⟩

/-- The hash at bump 255 is a point of the curve, the one at 254 is not. -/
def sampleHash255 : Bytes 32 :=
  ⟨[203, 182, 29, 35, 135, 30, 247, 46, 56, 126, 210, 65, 99, 194, 29, 36, 108, 244, 49, 48, 164, 224, 165,
    238, 75, 229, 21, 135, 201, 106, 187, 65], rfl⟩

def sampleUln : Bytes 32 :=
  ⟨[22, 183, 131, 12, 63, 138, 68, 200, 16, 202, 135, 222, 86, 224, 50, 136, 156, 53, 142, 199, 93, 71, 50,
    191, 115, 97, 134, 38, 88, 172, 178, 175], rfl⟩

def sampleCrates : Crates where
  hex := .plain
  bs58 text := if text = solanaUlnProgramId then .ok sampleProgram.val else .error "not needed"
  keccak256 _ := sampleUln
  sha256 data := if data[10]? = .some 255 then sampleHash255 else sampleUln
  bs58Encode _ := ""
  onCurve hash := hash = sampleHash255
  base64 := .plain

/-- Fifteen confirmations are required and ten are recorded; the receiver follows the default library. -/
def sampleState : ChainState where
  nonce := .some ⟨255, 9, 4⟩
  pendingNonce := .some ⟨[6, 7], by decide, 254⟩
  receiveConfig := .some ⟨253, 0, [1, 0, 0]⟩
  defaultReceiveConfig := .some ⟨252, 15, [1, 0, 0]⟩
  confirmations := .some ⟨.some 10, 251⟩
  libraryConfig := .some ⟨⟨⟨List.replicate 32 0, rfl⟩, .none⟩, 250⟩
  defaultLibraryConfig := .some ⟨⟨sampleUln, .some (sampleProgram, 100)⟩, 249⟩
  slot := 300

def accountJson (owner : String) : Option (List UInt8) → Json
  | .none => .null
  | .some data => .object [("data", .array [.string (Base64.Engine.plain.encode data), .string "base64"]),
      ("executable", .bool false), ("owner", .string owner)]

def sampleValues : List Json :=
  [accountJson solanaEndpointProgramId sampleState.fetched.nonce,
    accountJson solanaEndpointProgramId sampleState.fetched.pendingNonce,
    accountJson solanaUlnProgramId sampleState.fetched.receiveConfig,
    accountJson solanaUlnProgramId sampleState.fetched.defaultReceiveConfig,
    accountJson solanaUlnProgramId sampleState.fetched.confirmations,
    accountJson solanaEndpointProgramId sampleState.fetched.libraryConfig,
    accountJson solanaEndpointProgramId sampleState.fetched.defaultLibraryConfig]

def sampleResponse : Json :=
  .object [("result", .object [("context", .object [("slot", .number (.posInt 300))]), ("value", .array sampleValues)])]

theorem shows_accountJson (owner : String) (data : Option (List UInt8)) :
    Shows sampleCrates (accountJson owner data) owner data := by
  cases data with
  | none => rfl
  | some data => exact ⟨rfl, rfl, rfl, rfl⟩

theorem sampleState_verdict : sampleState.Verdict sampleUln 5 (.notSigned (.some 15)) := by
  refine ⟨⟨_, _, rfl, rfl, .inl rfl⟩, _, rfl, ?_, rfl⟩
  rintro (⟨_, h, hle⟩ | ⟨_, h, hmem⟩ | ⟨_, value, h, hvalue, -, hle⟩)
  · cases h
    exact absurd hle (by decide)
  · cases h
    exact absurd hmem (by decide)
  · cases h
    cases hvalue
    exact absurd hle (by decide)

/-- Ten of fifteen confirmations are "not signed". -/
theorem observeSolanaPayloadSigned_sample :
    (observeSolanaPayloadSigned sampleCrates (fun _ _ => .ok sampleResponse) ⟨5, []⟩ []).1 =
      .ok ("NotSigned \x7b required: Some(15) \x7d", .notSigned (.some 15)) :=
  (observeSolanaPayloadSigned_served sampleCrates sampleProgram sampleUln sampleState sampleValues
    (by decide +kernel) (by decide +kernel)
    ⟨rfl, rfl, .cons (shows_accountJson _ _) (.cons (shows_accountJson _ _) (.cons (shows_accountJson _ _)
      (.cons (shows_accountJson _ _) (.cons (shows_accountJson _ _) (.cons (shows_accountJson _ _)
      (.cons (shows_accountJson _ _) .nil))))))⟩ rfl _ _).mpr ⟨by decide, sampleState_verdict⟩

end Pillar.SolanaPayload
