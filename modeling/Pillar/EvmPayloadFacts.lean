/-
What an EVM provider's vote says: the library it read, the verdict and the
confirmations behind it; and the library the DVN is then asked to call, which
is picked by the endpoint id and the send version alone.
-/
import Pillar.EvmPayload
import Pillar.PacketSentFacts

namespace Pillar.EvmPayload

open PacketSent (LzSentEvent trimHexPrefixes trimHexPrefixes_eq_self trimHexPrefixes_append)
open Packet Text Hex Abi Fields PayloadSigned Asking

variable {hex : HexCrate} {provider : Provider} {query : EvmUlnQuery}
  {t t' : List (Asked EthCall fun _ => Except AppCoreError String)}

/-! ## Addresses -/

/-- An address as the decoders write it. -/
def IsAddress (hex : HexCrate) (text : String) : Prop := ∃ address : Bytes 20, text = hexText hex address.val

theorem abiAddress_isAddress {data : List UInt8} {index headWords : Nat} {text : String}
    (h : abiAddress hex data index headWords = .ok text) : IsAddress hex text := by
  obtain ⟨start, hstart, h⟩ := Exec.bind_ok_iff.mp h
  obtain ⟨-, hlen, -⟩ := abiHeadStart_ok hstart
  rw [slice_eq (Nat.le_add_right _ _) hlen, Exec.ok_bind] at h
  obtain ⟨address, hslice, htext⟩ := Exec.bind_ok_iff.mp h
  have hword : ((data.drop start).take (start + 32 - start)).length = 32 := by
    rw [List.length_take, List.length_drop]
    omega
  rw [hword, slice_eq (by decide) (by omega)] at hslice
  cases hslice
  cases htext
  refine ⟨⟨_, ?_⟩, rfl⟩
  rw [List.length_take, List.length_drop, hword]
  rfl

theorem decodeEvmAddressResult_isAddress {result text : String} (h : decodeEvmAddressResult hex result = .ok text) :
    IsAddress hex text := by
  obtain ⟨bytes, -, h⟩ := bindOk_iff.mp h
  exact abiAddress_isAddress (Exec.result_eq_ok.mp h)

theorem decodeEvmReceiveLibraryResult_isAddress {result text : String} {isDefault : Bool}
    (h : decodeEvmReceiveLibraryResult hex result = .ok (text, isDefault)) : IsAddress hex text := by
  obtain ⟨bytes, -, h⟩ := bindOk_iff.mp h
  obtain ⟨address, haddress, h⟩ := bindOk_iff.mp h
  obtain ⟨b, -, h⟩ := bindOk_iff.mp h
  cases h
  exact abiAddress_isAddress (Exec.result_eq_ok.mp haddress)

theorem IsAddress.lowercase {text : String} (h : IsAddress hex text) : toAsciiLowercase text = text := by
  obtain ⟨address, rfl⟩ := h
  rw [hexText, toAsciiLowercase_append, hex.toAsciiLowercase_encode]
  rfl

theorem IsAddress.plain {text : String} (h : IsAddress hex text) : Plain text := by
  obtain ⟨address, rfl⟩ := h
  intro hmem
  rw [hexText, String.toList_append, List.mem_append, hex.toList_encode] at hmem
  rcases hmem with hmem | hmem
  · exact absurd hmem (by decide)
  · obtain ⟨n, hn, hc⟩ := mem_encodeChars hmem
    exact absurd hc (by revert n; decide)

/-! ## What is observed -/

theorem resolveReceiveLibrary_ok {answer : Except String String}
    (h : resolveReceiveLibrary hex provider query t = (.ok answer, t')) :
    match answer with
    | .ok address | .error address => IsAddress hex address := by
  unfold resolveReceiveLibrary at h
  split at h
  · cases hendpoint : query.contracts.endpointV1 with
    | none =>
      rw [hendpoint] at h
      exact (throw_ok h).elim
    | some endpoint =>
      rw [hendpoint] at h
      obtain ⟨result, s, -, h⟩ := bind_ok h
      obtain ⟨address, s', hlift, h⟩ := bind_ok h
      obtain ⟨haddress, -⟩ := lift_ok hlift
      obtain ⟨rfl, -⟩ := pure_ok h
      exact decodeEvmAddressResult_isAddress haddress
  · obtain ⟨result, s, -, h⟩ := bind_ok h
    obtain ⟨⟨address, isDefault⟩, s', hlift, h⟩ := bind_ok h
    obtain ⟨haddress, -⟩ := lift_ok hlift
    have haddress := decodeEvmReceiveLibraryResult_isAddress haddress
    dsimp only at h
    split at h
    · obtain ⟨rfl, -⟩ := pure_ok h
      exact haddress
    · obtain ⟨result, s'', -, h⟩ := bind_ok h
      obtain ⟨valid, s''', -, h⟩ := bind_ok h
      obtain ⟨rfl, -⟩ := pure_ok h
      cases valid <;> exact haddress

/-- What an observation is read off. -/
inductive Seen where
  | unsupported (address : String)
  | library (address version : String) (read : Read)

def Seen.key : Seen → String
  | .unsupported address => (EvmPayload.unsupported address).1
  | .library address version read => read.key address version

def Seen.validity : Seen → PayloadSignedValidity
  | .unsupported address => (EvmPayload.unsupported address).2
  | .library _ version read => read.validity version

/-- What can be seen: an address, and with it a version the contracts know. -/
def Seen.Possible (hex : HexCrate) (contracts : EvmReceiveContracts) : Seen → Prop
  | .unsupported address => IsAddress hex address
  | .library address version _ => IsAddress hex address ∧
      evmUlnVersionFromReceiveLibrary contracts address = .some version

/-- The observation of a known library, step by step. -/
structure ReadOf (hex : HexCrate) (provider : Provider) (query : EvmUlnQuery)
    (t t' : List (Asked EthCall fun _ => Except AppCoreError String)) (address version : String) (read : Read) :
    Prop where
  resolved : ∃ s, resolveReceiveLibrary hex provider query t = (.ok (.ok address), s) ∧
    readLibrary hex provider query version s = (.ok read, t')
  version : evmUlnVersionFromReceiveLibrary query.contracts address = .some version

theorem ReadOf.observed {address version : String} {read : Read}
    (h : ReadOf hex provider query t t' address version read) :
    observePayloadSigned hex provider query t = (.ok (read.key address version, read.validity version), t') := by
  obtain ⟨⟨s, hresolved, hread⟩, hversion⟩ := h
  simp only [observePayloadSigned, Bind.bind, hresolved, hversion, hread, Pure.pure]

theorem observePayloadSigned_ok {k : String} {v : PayloadSignedValidity}
    (h : observePayloadSigned hex provider query t = (.ok (k, v), t')) :
    ∃ seen : Seen, seen.Possible hex query.contracts ∧ k = seen.key ∧ v = seen.validity ∧
      match seen with
      | .unsupported _ => True
      | .library address version read => ReadOf hex provider query t t' address version read := by
  obtain ⟨answer, s, hresolve, h⟩ := bind_ok h
  have haddress := resolveReceiveLibrary_ok hresolve
  cases answer with
  | error address =>
    obtain ⟨heq, -⟩ := pure_ok h
    exact ⟨.unsupported address, haddress, congrArg Prod.fst heq, congrArg Prod.snd heq, trivial⟩
  | ok address =>
    dsimp only at h haddress
    cases hversion : evmUlnVersionFromReceiveLibrary query.contracts address with
    | none =>
      rw [hversion] at h
      obtain ⟨heq, -⟩ := pure_ok h
      exact ⟨.unsupported address, haddress, congrArg Prod.fst heq, congrArg Prod.snd heq, trivial⟩
    | some version =>
      rw [hversion] at h
      obtain ⟨read, s', hread, h⟩ := bind_ok h
      obtain ⟨heq, rfl⟩ := pure_ok h
      exact ⟨.library address version read, ⟨haddress, hversion⟩, congrArg Prod.fst heq, congrArg Prod.snd heq,
        ⟨s, hresolve, hread⟩, hversion⟩

/-! ## What a vote says -/

theorem plain_of_version {contracts : EvmReceiveContracts} {address version : String}
    (h : evmUlnVersionFromReceiveLibrary contracts address = .some version) : Plain version := by
  unfold evmUlnVersionFromReceiveLibrary at h
  split at h
  · cases h
    decide
  · split at h
    · cases h
      decide
    · split at h
      · cases h
        decide
      · cases h

theorem debug_injective : Function.Injective EvmVerificationState.debug := by
  intro state state' h
  cases state <;> cases state' <;> first | rfl | exact absurd h (by decide)

theorem plain_debug (state : EvmVerificationState) : Plain state.debug := by
  cases state <;> decide

/-- The fields of a key, colons between them. -/
def Seen.fields : Seen → List String
  | .unsupported address => [toAsciiLowercase address]
  | .library _ version read =>
    [version, debugBool read.dvnConfirmed, decimal read.inboundConfirmations, read.verificationState.debug]

def Seen.head : Seen → String
  | .unsupported _ => "unsupported"
  | .library address _ _ => toAsciiLowercase address

theorem Seen.key_eq (seen : Seen) : seen.key = joined (seen.head :: seen.fields) := by
  cases seen <;> rfl

theorem Seen.Possible.plain {contracts : EvmReceiveContracts} {seen : Seen} (h : seen.Possible hex contracts) :
    ∀ field ∈ seen.head :: seen.fields, Plain field := by
  intro field hfield
  cases seen with
  | unsupported address =>
    simp only [Seen.head, Seen.fields, List.mem_cons, List.not_mem_nil, or_false] at hfield
    rcases hfield with rfl | rfl
    · decide
    · rw [IsAddress.lowercase h]
      exact IsAddress.plain h
  | library address version read =>
    obtain ⟨haddress, hversion⟩ := h
    simp only [Seen.head, Seen.fields, List.mem_cons, List.not_mem_nil, or_false] at hfield
    rcases hfield with rfl | rfl | rfl | rfl | rfl
    · rw [haddress.lowercase]
      exact haddress.plain
    · exact plain_of_version hversion
    · exact plain_debugBool _
    · exact plain_decimal _
    · exact plain_debug _

/-- The key says all that was seen of a library. -/
theorem Seen.eq_of_key {contracts : EvmReceiveContracts} {seen seen' : Seen} (h : seen.Possible hex contracts)
    (h' : seen'.Possible hex contracts) (heq : seen.key = seen'.key) : seen = seen' := by
  rw [key_eq, key_eq] at heq
  obtain ⟨hhead, hfields⟩ := joined_inj h.plain h'.plain heq
  cases seen with
  | unsupported address =>
    cases seen' with
    | unsupported address' =>
      simp only [fields, List.cons.injEq, and_true] at hfields
      rw [IsAddress.lowercase h, IsAddress.lowercase h'] at hfields
      rw [hfields]
    | library address' version' read' => simp [fields] at hfields
  | library address version read =>
    cases seen' with
    | unsupported address' => simp [fields] at hfields
    | library address' version' read' =>
      simp only [fields, List.cons.injEq, and_true] at hfields
      obtain ⟨rfl, hconfirmed, hinbound, hstate⟩ := hfields
      rw [head, head, h.1.lowercase, h'.1.lowercase] at hhead
      obtain ⟨confirmed, inbound, state⟩ := read
      obtain ⟨confirmed', inbound', state'⟩ := read'
      cases hhead
      cases debugBool_injective hconfirmed
      cases decimal_injective hinbound
      cases debug_injective hstate
      rfl

theorem observePayloadSigned_voteDecides (hex : HexCrate) (query : EvmUlnQuery) :
    VoteDecides fun provider => observePayloadSigned hex provider query := by
  refine voteDecides_of_seen (Seen.Possible hex query.contracts) Seen.key Seen.validity (fun provider t k v t' h => ?_)
    fun seen seen' h h' heq => ?_
  · obtain ⟨seen, hpossible, hkey, hvalidity, -⟩ := observePayloadSigned_ok h
    exact ⟨seen, hpossible, hkey, hvalidity⟩
  · rw [Seen.eq_of_key h h' heq]

/-! ## The library agreed on -/

open Quorum in
theorem observation_eq_some {checks : Checks} {index : Nat} {k : String} {v : PayloadSignedValidity}
    (h : checks.observation query index = .ok (.some (k, v))) :
    (observePayloadSigned checks.crates.hex (checks.provider index) query []).1 = .ok (k, v) := by
  unfold Checks.observation at h
  cases hobserve : (observePayloadSigned checks.crates.hex (checks.provider index) query []).1 with
  | ok observed =>
    rw [hobserve] at h
    cases h
    rfl
  | error e =>
    rw [hobserve] at h
    cases e <;> cases h

/-- The provider `index` read `library`, of a version. -/
def Checks.Saw (checks : Checks) (query : EvmUlnQuery) (index : Nat) (library version : String) (read : Read) : Prop :=
  ∃ t, ReadOf checks.crates.hex (checks.provider index) query [] t library version read

/-- Enough providers read the same library, and the same of it. -/
def Checks.AgreedOn (checks : Checks) (sentEvent : LzSentEvent) (verifierAddress : Option String)
    (dstChainName library version : String) (read : Read) : Prop :=
  ∃ config order contracts query, checks.dispatch dstChainName = .ok (config, order) ∧
    checks.evmReceiveContractsByChainName dstChainName = .some contracts ∧
    evmUlnQuery checks.crates sentEvent verifierAddress contracts = .ok query ∧
    ∃ voters, Quorum.MetBy config voters ∧ voters ≠ [] ∧
      ∀ i ∈ voters, i ∈ order ∧ checks.Saw query i library version read

theorem Seen.read_of_notSigned {seen : Seen} {required : Option UInt64} (h : .notSigned required = seen.validity) :
    ∃ address version read, seen = .library address version read := by
  cases seen with
  | unsupported address => cases h
  | library address version read => exact ⟨address, version, read, rfl⟩

theorem orErr_eq_ok {α : Type} {x : Except AppCoreError α} {a : α} : orErr x = .ok a ↔ x = .ok a := by
  cases x <;> simp [orErr, Exec.err]

/-- The check returns when enough providers agreed on a library that has not verified the packet. -/
theorem validatePayloadNotSigned_agreed {checks : Checks} {sentEvent : LzSentEvent} {verifierAddress : Option String}
    {dstChainName : String} {effectiveReceiveVersion : Option String} {required : Option UInt64}
    (hguid : (sentEvent.extra.get "guid").isSome = true)
    (hevm : isChainNativePayloadSignedDestination dstChainName = false)
    (h : checks.validatePayloadNotSignedWithQuorum sentEvent verifierAddress dstChainName effectiveReceiveVersion =
      .ok required) :
    ∃ library version read, checks.AgreedOn sentEvent verifierAddress dstChainName library version read ∧
      read.validity version = .notSigned required := by
  unfold Checks.validatePayloadNotSignedWithQuorum at h
  rw [if_neg (by simpa using Option.isSome_iff_ne_none.mp hguid), if_neg (by simp [hevm])] at h
  obtain ⟨⟨config, order⟩, hdispatch, h⟩ := Exec.bind_ok_iff.mp h
  dsimp only at h
  split at h
  · cases h
  · next contracts hcontracts =>
    obtain ⟨query, hquery, h⟩ := Exec.bind_ok_iff.mp h
    obtain ⟨validity, hvote, h⟩ := Exec.bind_ok_iff.mp h
    obtain rfl := payloadSignedValidationResult_ok.mp (orErr_eq_ok.mp h)
    obtain ⟨fp, hmet, i, hi, hiv⟩ := Quorum.resolveLoop_voted Quorum.recorded_new hvote
    rw [List.nil_append] at hmet hi
    have hobserved : ∀ j v, checks.observation query j = .ok (.some (fp, v)) → ∃ seen : Seen,
        seen.Possible checks.crates.hex query.contracts ∧ fp = seen.key ∧ v = seen.validity ∧
          match seen with
          | .unsupported _ => True
          | .library address version read => checks.Saw query j address version read := by
      intro j v hj
      obtain ⟨seen, hpossible, hkey, hvalidity, hread⟩ :=
        observePayloadSigned_ok (Prod.ext (observation_eq_some hj) rfl)
      refine ⟨seen, hpossible, hkey, hvalidity, ?_⟩
      cases seen with
      | unsupported address => trivial
      | library address version read => exact ⟨_, hread⟩
    obtain ⟨seen, hpossible, hkey, hvalidity, hsaw⟩ := hobserved i _ hiv
    obtain ⟨library, version, read, rfl⟩ := Seen.read_of_notSigned hvalidity
    refine ⟨library, version, read, ⟨config, order, contracts, query, orErr_eq_ok.mp hdispatch, hcontracts, hquery,
      _, hmet, List.ne_nil_of_mem (Quorum.mem_votersFor.mpr ⟨hi, _, Quorum.voteOf_eq_some.mpr hiv⟩), ?_⟩,
      hvalidity.symm⟩
    intro j hj
    obtain ⟨hj, v, hjv⟩ := Quorum.mem_votersFor.mp hj
    obtain ⟨seen', hpossible', hkey', -, hsaw'⟩ := hobserved j v (Quorum.voteOf_eq_some.mp hjv)
    obtain rfl := Seen.eq_of_key hpossible' hpossible (hkey'.symm.trans hkey)
    exact ⟨hj, hsaw'⟩

theorem evmUlnQuery_contracts {crates : Crates} {sentEvent : LzSentEvent} {verifierAddress : Option String}
    {contracts : EvmReceiveContracts} (h : evmUlnQuery crates sentEvent verifierAddress contracts = .ok query) :
    query.contracts = contracts := by
  obtain ⟨dstEid, -, h⟩ := Exec.bind_ok_iff.mp h
  obtain ⟨remoteEid, -, h⟩ := Exec.bind_ok_iff.mp h
  obtain ⟨receiver, -, h⟩ := Exec.bind_ok_iff.mp h
  obtain ⟨oapp, -, h⟩ := Exec.bind_ok_iff.mp h
  obtain ⟨packet, -, h⟩ := Exec.bind_ok_iff.mp h
  obtain ⟨proof, -, h⟩ := Exec.bind_ok_iff.mp h
  cases h
  rfl

/-! ## The library called -/

/-- `contract` denotes `address`, or passes for it where addresses are compared. -/
def Names (hex : HexCrate) (contract : String) (address : Bytes 20) : Prop :=
  decodeHex20 hex contract = .ok address ∨ addressMatches (hexText hex address.val) contract = true

def EvmReceiveContracts.libraries (contracts : EvmReceiveContracts) : List String :=
  contracts.receiveUln302 :: contracts.receiveUln301 :: contracts.readLib1002.toList

/-- The receive library of a version. -/
def EvmReceiveContracts.library (contracts : EvmReceiveContracts) (version : String) : Option String :=
  if version = "V302" then .some contracts.receiveUln302
  else if version = "V301" then .some contracts.receiveUln301
  else if version = "ReadV1002" then contracts.readLib1002
  else .none

/-- No address goes by the names of two of the receive libraries. -/
def EvmReceiveContracts.Distinct (hex : HexCrate) (contracts : EvmReceiveContracts) : Prop :=
  contracts.libraries.Pairwise fun a b => ∀ address, ¬ (Names hex a address ∧ Names hex b address)

/-- What is left of a value that has digits, once its prefix is off. -/
theorem trimHex_of_digits {value : String} {digits : List Char}
    (h : ((stripPrefix "0x" value).getD value).toList = digits) (hx : 'x' ∉ digits) :
    (trimHex value).toList = digits := by
  rw [trimHex, String.toList_ofList]
  cases hstrip : stripPrefix "0x" value with
  | none =>
    rw [hstrip, Option.getD_none] at h
    rw [h, trimHexPrefixes_eq_self hx]
  | some rest =>
    rw [hstrip, Option.getD_some] at h
    rw [stripPrefix_eq_some hstrip, String.toList_append, h, trimHexPrefixes_append, trimHexPrefixes_eq_self hx]

theorem notMem_x_of_digits {chars : List Char} (h : ∀ c ∈ chars, (hexDigit? c).isSome = true) : 'x' ∉ chars := by
  intro hmem
  exact absurd (h 'x' hmem) (by decide)

theorem notMem_x_encodeChars (bytes : List UInt8) : 'x' ∉ encodeChars bytes := by
  intro hmem
  obtain ⟨n, hn, hx⟩ := mem_encodeChars hmem
  exact (digit_facts n hn).2.1 hx.symm

theorem trimHex_hexText (bytes : List UInt8) : (trimHex (hexText hex bytes)).toList = encodeChars bytes := by
  refine trimHex_of_digits ?_ (notMem_x_encodeChars bytes)
  rw [hexText, stripPrefix_append, Option.getD_some, hex.toList_encode]

/-- A contract that passes for an address and denotes one denotes that address. -/
theorem decodeHex20_of_matches {contract : String} {address denoted : Bytes 20}
    (h : addressMatches (hexText hex address.val) contract = true) (hdecode : decodeHex20 hex contract = .ok denoted) :
    denoted = address := by
  have hbytes := decodeHexArray_eq_ok.mp hdecode
  obtain ⟨digits, hdigits⟩ : ∃ digits, ((stripPrefix "0x" contract).getD contract).toList = digits := ⟨_, rfl⟩
  have hread : decodeChars digits = .some denoted.val ∨ decodeChars ('0' :: digits) = .some denoted.val := by
    unfold decodeHexBytes orInternal at hbytes
    dsimp only at hbytes
    split at hbytes
    · split at hbytes
      · next b hb =>
        cases hbytes
        exact .inl (hdigits ▸ hex.decodeChars_of_decode hb)
      · cases hbytes
    · split at hbytes
      · next b hb =>
        cases hbytes
        have hchars := hex.decodeChars_of_decode hb
        rw [String.toList_append, hdigits] at hchars
        exact .inr hchars
      · cases hbytes
  have hx : 'x' ∉ digits := by
    rcases hread with hread | hread
    · exact notMem_x_of_digits (decodeChars_eq_some hread).2
    · exact fun hmem => notMem_x_of_digits (decodeChars_eq_some hread).2 (List.mem_cons_of_mem _ hmem)
  have hlower : digits.map lowerChar = (encodeChars address.val).map lowerChar := by
    have heq := eqIgnoreAsciiCase_iff.mp (Bool.and_eq_true_iff.mp h).2
    rw [← String.toList_inj, toList_toAsciiLowercase, toList_toAsciiLowercase] at heq
    rw [trimHex_of_digits hdigits hx, trimHex_hexText] at heq
    exact heq
  have hdenoted : decodeChars digits = .some address.val := by
    rw [← decodeChars_map_lowerChar, hlower, decodeChars_map_lowerChar, decodeChars_encodeChars]
  rcases hread with hread | hread
  · rw [hdenoted] at hread
    exact Subtype.ext (Option.some.inj hread).symm
  · have hlen := (decodeChars_eq_some hdenoted).1
    have hlen' := (decodeChars_eq_some hread).1
    rw [List.length_cons, hlen, Bytes.length_val, Bytes.length_val] at hlen'
    omega

theorem library_of_version {contracts : EvmReceiveContracts} {address version : String}
    (h : evmUlnVersionFromReceiveLibrary contracts address = .some version) :
    ∃ contract, contracts.library version = .some contract ∧ addressMatches address contract = true := by
  unfold evmUlnVersionFromReceiveLibrary at h
  split at h
  · next hmatch =>
    cases h
    exact ⟨_, rfl, hmatch⟩
  · split at h
    · next hmatch =>
      cases h
      exact ⟨_, rfl, hmatch⟩
    · split at h
      · next hmatch =>
        cases h
        cases hread : contracts.readLib1002 with
        | none =>
          rw [hread] at hmatch
          cases hmatch
        | some contract =>
          rw [hread] at hmatch
          exact ⟨contract, hread, hmatch⟩
      · cases h

theorem library_of_targetContract {contracts : EvmReceiveContracts} {version dstChainName target : String}
    (h : targetContract contracts version dstChainName = .ok target) : contracts.library version = .some target := by
  unfold targetContract at h
  split at h
  · next hversion =>
    subst hversion
    split at h <;> cases h
    rfl
  · split at h
    · next hversion =>
      subst hversion
      cases h
      rfl
    · split at h
      · next hversion =>
        subst hversion
        split at h
        · next address haddress =>
          cases h
          exact haddress
        · cases h
      · cases h

theorem library_eq_some {contracts : EvmReceiveContracts} {version contract : String}
    (h : contracts.library version = .some contract) :
    version = "V302" ∧ contract = contracts.receiveUln302 ∨ version = "V301" ∧ contract = contracts.receiveUln301 ∨
      version = "ReadV1002" ∧ contracts.readLib1002 = .some contract := by
  unfold EvmReceiveContracts.library at h
  split at h
  · next hversion =>
    cases h
    exact .inl ⟨hversion, rfl⟩
  · split at h
    · next hversion =>
      cases h
      exact .inr (.inl ⟨hversion, rfl⟩)
    · split at h
      · next hversion => exact .inr (.inr ⟨hversion, h⟩)
      · cases h

/-- The libraries of two versions share no address. -/
theorem EvmReceiveContracts.Distinct.version_unique {contracts : EvmReceiveContracts} (h : contracts.Distinct hex)
    {version version' contract contract' : String} {address : Bytes 20}
    (hv : contracts.library version = .some contract)
    (hv' : contracts.library version' = .some contract') (hnames : Names hex contract address)
    (hnames' : Names hex contract' address) : version = version' := by
  simp only [Distinct, libraries, List.pairwise_cons, List.mem_cons, Option.mem_toList, forall_eq_or_imp] at h
  obtain ⟨⟨h01, h0r⟩, h1r, -⟩ := h
  rcases library_eq_some hv with ⟨rfl, rfl⟩ | ⟨rfl, rfl⟩ | ⟨rfl, hread⟩ <;>
    rcases library_eq_some hv' with ⟨rfl, rfl⟩ | ⟨rfl, rfl⟩ | ⟨rfl, hread'⟩
  case inl.inl | inr.inl.inr.inl | inr.inr.inr.inr => rfl
  case inl.inr.inl => exact absurd ⟨hnames, hnames'⟩ (h01 address)
  case inl.inr.inr => exact absurd ⟨hnames, hnames'⟩ (h0r _ hread' address)
  case inr.inl.inl => exact absurd ⟨hnames', hnames⟩ (h01 address)
  case inr.inl.inr.inr => exact absurd ⟨hnames, hnames'⟩ (h1r _ hread' address)
  case inr.inr.inl => exact absurd ⟨hnames', hnames⟩ (h0r _ hread address)
  case inr.inr.inr.inl => exact absurd ⟨hnames', hnames⟩ (h1r _ hread address)

/-- What is packed for an event: the library of the version its endpoint id and send version call for. -/
theorem buildDvnCallData_ok {crates : Crates} {builder : EvmUlnPayloadBuilder} {sentEvent : LzSentEvent}
    {expiration : Int} {vId ulnCallData : String} {details : Json} {result : HashCallDataResult}
    {contracts : EvmReceiveContracts}
    (hbuilder : builder.contractsByChainName sentEvent.lzMessageId.pathwayId.dstChainName = .some contracts)
    (h : builder.buildDvnCallData crates sentEvent expiration vId ulnCallData details = .ok result) :
    ∃ dstEid ulnSendVersion contract target vid callData,
      pathwayExtraU64 sentEvent "dstEid" = .ok dstEid ∧
      ulnSendVersionString sentEvent.lzMessageId.ulnSendVersion = .ok ulnSendVersion ∧
      contracts.library (evmReceiveVersionFromDstEid dstEid ulnSendVersion) = .some contract ∧
      decodeHex20 crates.hex contract = .ok target ∧
      packVid vId = .ok vid ∧ decodeHexBytes crates.hex ulnCallData = .ok callData ∧
      result.hashCallData = keccak256Hex crates
        (vid ++ target.val ++ (solidityUint256 (.ofNat expiration.toNat)).val ++ callData) := by
  unfold EvmUlnPayloadBuilder.buildDvnCallData at h
  split at h
  · cases h
  · dsimp only at h
    rw [hbuilder] at h
    obtain ⟨dstEid, heid, h⟩ := Exec.bind_ok_iff.mp h
    obtain ⟨ulnSendVersion, hversion, h⟩ := Exec.bind_ok_iff.mp h
    obtain ⟨contract, hcontract, h⟩ := Exec.bind_ok_iff.mp h
    obtain ⟨packed, hpacked, h⟩ := Exec.bind_ok_iff.mp h
    obtain ⟨vid, hvid, hpacked⟩ := Exec.bind_ok_iff.mp hpacked
    obtain ⟨target, htarget, hpacked⟩ := Exec.bind_ok_iff.mp hpacked
    obtain ⟨callData, hcallData, hpacked⟩ := Exec.bind_ok_iff.mp hpacked
    cases hpacked
    refine ⟨dstEid, ulnSendVersion, contract, target, vid, callData, orErr_eq_ok.mp heid, orErr_eq_ok.mp hversion,
      library_of_targetContract (orErr_eq_ok.mp hcontract), htarget, hvid, hcallData, ?_⟩
    split at h
    · cases h
      rfl
    · cases h

/-! ## Ethereum's libraries -/

def receiveUln302 : Bytes 20 :=
  ⟨[192, 42, 180, 16, 240, 115, 78, 250, 63, 20, 98, 135, 128, 230, 230, 149, 21, 96, 36, 194], rfl⟩

def receiveUln301 : Bytes 20 :=
  ⟨[36, 91, 110, 143, 254, 158, 165, 252, 48, 30, 50, 209, 111, 102, 189, 76, 33, 35, 238, 252], rfl⟩

def readLib1002 : Bytes 20 :=
  ⟨[116, 245, 91, 194, 167, 154, 39, 160, 191, 29, 26, 53, 219, 93, 15, 195, 107, 159, 219, 157], rfl⟩

def ethereumContracts : EvmReceiveContracts where
  endpointV2 := "0x1a44076050125825900e736c501f859c50fE728c"
  endpointV1 := .some "0x66A71Dcef29A0fFBDBE3c6a460a3B5BC225Cd675"
  ulnV2 := "0x4D73AdB72bC3DD368966edD0f0b2148401A178E2"
  receiveUln301 := "0x245B6e8FFE9ea5Fc301e32d16F66bD4C2123eEfC"
  receiveUln301View := "0x0330f95a5110E9F72fe0776A1291834FfEACB1e0"
  receiveUln302 := "0xc02Ab410f0734EFa3F14628780e6e695156024C2"
  receiveUln302View := "0xcc0de82D7d520d8d5897d23cf961867Bc16Fd346"
  readLib1002 := .some "0x74F55Bc2a79A27A0bF1D1A35dB5d0Fc36b9FDB9D"
  readLib1002View := .some "0x60adfF2ADb728f7D3029e43dEA8c212f31c2962c"

/-- A contract that denotes an address goes by no other. -/
theorem Names.eq {contract : String} {denoted address : Bytes 20} (hdecode : decodeHex20 hex contract = .ok denoted)
    (h : Names hex contract address) : address = denoted := by
  rcases h with h | h
  · rw [hdecode] at h
    cases h
    rfl
  · exact (decodeHex20_of_matches h hdecode).symm

theorem ethereumContracts_distinct : ethereumContracts.Distinct .plain := by
  have h302 : decodeHex20 .plain ethereumContracts.receiveUln302 = .ok receiveUln302 := by decide +kernel
  have h301 : decodeHex20 .plain ethereumContracts.receiveUln301 = .ok receiveUln301 := by decide +kernel
  have hread : decodeHex20 .plain "0x74F55Bc2a79A27A0bF1D1A35dB5d0Fc36b9FDB9D" = .ok readLib1002 := by decide +kernel
  refine .cons (fun contract hmem address hnames => ?_)
    (.cons (fun contract hmem address hnames => ?_) (List.pairwise_singleton _ _))
  · have heq := hnames.1.eq h302
    simp only [ethereumContracts, Option.toList_some, List.mem_cons, List.not_mem_nil, or_false] at hmem
    rcases hmem with rfl | rfl
    · exact absurd (heq.symm.trans (hnames.2.eq h301)) (by decide)
    · exact absurd (heq.symm.trans (hnames.2.eq hread)) (by decide)
  · obtain rfl := List.mem_singleton.mp hmem
    exact absurd ((hnames.1.eq h301).symm.trans (hnames.2.eq hread)) (by decide)

/-- Keccak-256 of the payload and of the packed call that are hashed below. -/
def sampleKeccak (data : List UInt8) : Bytes 32 :=
  if data = List.replicate 32 90 ++ [192, 255, 238] then
    ⟨[20, 63, 154, 51, 33, 255, 66, 204, 63, 115, 1, 159, 121, 35, 120, 118, 214, 40, 115, 156, 137, 214,
    17, 87, 211, 64,
      73, 116, 162, 28, 186, 213], rfl⟩
  else
    ⟨[104, 68, 88, 3, 115, 252, 193, 29, 48, 183, 118, 70, 118, 199, 93, 28, 173, 96, 155, 191, 148, 121, 65,
    113, 255, 180,
      206, 218, 235, 151, 39, 179], rfl⟩

def sampleWord (n : Nat) : String := hexText .plain (beBytes 32 n).val

/-- A provider whose receiver is on `library`, its own choice, and asks for 15 confirmations. -/
def sampleProvider (library : Bytes 20) : Provider := fun _ asked =>
  match asked.call with
  | .getReceiveLibraryAddress _ => .error (.internal "execution reverted")
  | .getReceiveLibrary .. => .ok (hexText .plain (List.replicate 12 0 ++ library.val ++ List.replicate 32 0))
  | .isValidReceiveLibrary .. => .ok (sampleWord 1)
  | .getReadLibConfig .. => .ok "0x"
  | .getUlnConfig .. => .ok (sampleWord 15)
  | .hashLookup .. => .ok (hexText .plain (List.replicate 64 0))
  | .verifiable _ => .ok (sampleWord 0)

def oneProvider : Quorum.ProviderConfig where
  voters := [⟨"internal", "a"⟩]
  strategy := ⟨[Std.TreeMap.ofList [("any", Strategy.Quorum.count 1)]], []⟩
  voters_lt := by decide

def sampleCrates : Crates :=
  ⟨.plain, fun _ => .error "provided string contained invalid character '0' at byte 0", sampleKeccak⟩

def sampleChecks (library : Bytes 20) : Checks where
  crates := sampleCrates
  evmReceiveContractsByChainName chain := if chain = "ethereum" then .some ethereumContracts else .none
  dispatch _ := .ok (oneProvider, [0])
  provider _ := sampleProvider library
  messageIdJson _ := ""
  chainNative _ _ _ _ := Exec.err (.internal "")

def sampleBuilder : EvmUlnPayloadBuilder where
  contractsByChainName chain := if chain = "ethereum" then .some ethereumContracts else .none

/-- A V302 send from BSC to Ethereum. -/
def sampleEvent : LzSentEvent where
  lzMessageId :=
    { pathwayId :=
        { srcChainName := "bsc"
          dstChainName := "ethereum"
          extra := [("srcEid", .ofU32 30102), ("dstEid", .ofU32 30101),
            ("sender", .string (hexText .plain (List.replicate 20 17))),
            ("receiver", .string (hexText .plain (List.replicate 20 34)))] }
      nonce := 4242
      ulnSendVersion := .string "V302" }
  message := "0xc0ffee"
  txHash := ""
  sourceEvidence := .none
  extra := [("guid", .string (hexText .plain (List.replicate 32 90)))]

def sampleQuery : EvmUlnQuery where
  contracts := ethereumContracts
  oapp := hexText .plain (List.replicate 20 34)
  remoteEid := 30102
  dstEid := 30101
  proof :=
    { packetHeader := hexText .plain ([1, 0, 0, 0, 0, 0, 0, 16, 146, 0, 0, 117, 150] ++ List.replicate 12 0 ++
        List.replicate 20 17 ++ [0, 0, 117, 149] ++ List.replicate 12 0 ++ List.replicate 20 34)
      payloadHash := hexText .plain (sampleKeccak (List.replicate 32 90 ++ [192, 255, 238])).val }
  verifierAddress := .none

theorem oneProvider_metBy : Quorum.MetBy oneProvider [0] ∧ ¬ Quorum.MetBy oneProvider [] := by
  constructor
  · obtain ⟨b, hb, hiff⟩ := Quorum.isMetBy_spec (ε := Empty) oneProvider [0]
    have htrue : (oneProvider.isMetBy [0] : Exec Empty Bool) = .ok true := by decide +kernel
    rw [htrue] at hb
    cases hb
    exact hiff.mp rfl
  · obtain ⟨b, hb, hiff⟩ := Quorum.isMetBy_spec (ε := Empty) oneProvider []
    have hfalse : (oneProvider.isMetBy [] : Exec Empty Bool) = .ok false := by decide +kernel
    rw [hfalse] at hb
    cases hb
    exact fun hmet => Bool.noConfusion (hiff.mpr hmet)

/-- One provider is enough for itself. -/
theorem oneProvider_resolves {T : Type} (k : String) (v : T) (context : String) :
    Quorum.resolveProviderQuorumForIndices [(0, .ok (.some (k, v)))] [0] oneProvider context = .ok v := by
  have hnew : Quorum.Recorded oneProvider (fun _ => .ok (.some (k, v))) [0] [] (.new oneProvider [0]) :=
    Quorum.recorded_new
  have hsettled := Quorum.resolveLoop_settled oneProvider_metBy.2 context hnew
    (fun i => Iff.rfl : ∀ i, i ∈ [] ++ [0] ↔ i ∈ [0])
    fun i hi => trivial
  rcases hsettled with ⟨w, fp, hresolved, -, i, -, hvote⟩ | ⟨e, -, hno⟩
  · cases hvote
    exact hresolved
  · refine absurd ⟨?_, fun fp hmet => ?_⟩ (hno k)
    · have hvoters : Quorum.votersFor (fun _ => .ok (.some (k, v))) [0] k = [0] := by
        simp [Quorum.votersFor, Quorum.voteOf]
      rw [hvoters]
      exact oneProvider_metBy.1
    · by_contra hne
      have hvoters : Quorum.votersFor (fun _ => .ok (.some (k, v))) [0] fp = [] := by
        simp [Quorum.votersFor, Quorum.voteOf, Ne.symm hne]
      rw [hvoters] at hmet
      exact oneProvider_metBy.2 hmet

theorem sampleQuery_ok : evmUlnQuery sampleCrates sampleEvent .none ethereumContracts = .ok sampleQuery := by
  decide +kernel

/-- A provider's library, its version and what is read of it, one evaluated after the other. -/
theorem sampleProvider_readOf {library : Bytes 20} {version : String} {read : Read}
    (hresolved : (resolveReceiveLibrary .plain (sampleProvider library) sampleQuery []).1 =
      .ok (.ok (hexText .plain library.val)))
    (hversion : evmUlnVersionFromReceiveLibrary ethereumContracts (hexText .plain library.val) = .some version)
    (hread : (readLibrary .plain (sampleProvider library) sampleQuery version
      (resolveReceiveLibrary .plain (sampleProvider library) sampleQuery []).2).1 = .ok read) :
    ∃ t, ReadOf .plain (sampleProvider library) sampleQuery [] t (hexText .plain library.val) version read := by
  cases hrun : resolveReceiveLibrary .plain (sampleProvider library) sampleQuery [] with
  | mk answer s =>
  rw [hrun] at hresolved hread
  obtain rfl := hresolved
  cases hrun' : readLibrary .plain (sampleProvider library) sampleQuery version s with
  | mk result t =>
  rw [hrun'] at hread
  obtain rfl := hread
  exact ⟨t, ⟨s, hrun, hrun'⟩, hversion⟩

theorem sampleChecks_validate {library : Bytes 20} {version : String} {read : Read} {required : Option UInt64}
    (h : ∃ t, ReadOf .plain (sampleProvider library) sampleQuery [] t (hexText .plain library.val) version read)
    (hrequired : read.validity version = .notSigned required) :
    (sampleChecks library).validatePayloadNotSignedWithQuorum sampleEvent .none "ethereum" .none = .ok required := by
  obtain ⟨t, h⟩ := h
  have hobserved : (sampleChecks library).observation sampleQuery 0 =
      .ok (.some (read.key (hexText .plain library.val) version, .notSigned required)) := by
    have hobservation : (sampleChecks library).observation sampleQuery 0 = providerResponse (orRpc (observePayloadSigned
      .plain (sampleProvider library) sampleQuery []).1) := rfl
    rw [hobservation, h.observed, hrequired]
    rfl
  have hguid : ¬ (sampleEvent.extra.get "guid").isNone = true := by decide
  have hevm : ¬ isChainNativePayloadSignedDestination "ethereum" = true := by decide
  unfold Checks.validatePayloadNotSignedWithQuorum
  rw [if_neg hguid, if_neg hevm]
  refine Exec.bind_ok_iff.mpr ⟨(oneProvider, [0]), rfl, Exec.bind_ok_iff.mpr ⟨sampleQuery, sampleQuery_ok,
    Exec.bind_ok_iff.mpr ⟨.notSigned required, ?_, rfl⟩⟩⟩
  simp only [List.map_cons, List.map_nil, hobserved]
  exact oneProvider_resolves _ _ _

/-! ## Checked and called -/

/-- **The library that was checked is the one that is called for, exactly when
it is of the version the event calls for.** The check returns after enough
providers agreed on one of the three receive libraries; what is packed for the
event is the library of the version that the endpoint id and the send version
give, so it is the checked one if and only if that is the version of the
checked one. -/
theorem target_is_checked_library_iff {checks : Checks} {builder : EvmUlnPayloadBuilder} {sentEvent : LzSentEvent}
    {verifierAddress effectiveReceiveVersion : Option String} {contracts : EvmReceiveContracts}
    {required : Option UInt64} (hguid : (sentEvent.extra.get "guid").isSome = true)
    (hevm : isChainNativePayloadSignedDestination sentEvent.lzMessageId.pathwayId.dstChainName = false)
    (hchecks : checks.evmReceiveContractsByChainName sentEvent.lzMessageId.pathwayId.dstChainName = .some contracts)
    (hbuilder : builder.contractsByChainName sentEvent.lzMessageId.pathwayId.dstChainName = .some contracts)
    (hdistinct : contracts.Distinct checks.crates.hex)
    (h : checks.validatePayloadNotSignedWithQuorum sentEvent verifierAddress
      sentEvent.lzMessageId.pathwayId.dstChainName effectiveReceiveVersion = .ok required) :
    ∃ (library : Bytes 20) (version : String) (read : Read),
      checks.AgreedOn sentEvent verifierAddress sentEvent.lzMessageId.pathwayId.dstChainName
        (hexText checks.crates.hex library.val) version read ∧
      read.validity version = .notSigned required ∧
      evmUlnVersionFromReceiveLibrary contracts (hexText checks.crates.hex library.val) = .some version ∧
      ∀ expiration vId ulnCallData details result,
        builder.buildDvnCallData checks.crates sentEvent expiration vId ulnCallData details = .ok result →
        ∃ (dstEid : UInt64) (ulnSendVersion : String) (target : Bytes 20) (vid callData : List UInt8),
          pathwayExtraU64 sentEvent "dstEid" = .ok dstEid ∧
          ulnSendVersionString sentEvent.lzMessageId.ulnSendVersion = .ok ulnSendVersion ∧
          packVid vId = .ok vid ∧ decodeHexBytes checks.crates.hex ulnCallData = .ok callData ∧
          result.hashCallData = keccak256Hex checks.crates
            (vid ++ target.val ++ (solidityUint256 (.ofNat expiration.toNat)).val ++ callData) ∧
          (target = library ↔ evmReceiveVersionFromDstEid dstEid ulnSendVersion = version) := by
  obtain ⟨text, version, read, hagreed, hrequired⟩ := validatePayloadNotSigned_agreed hguid hevm h
  obtain ⟨config, order, contracts', query, -, hcontracts, hquery, voters, -, hne, hsaw⟩ := id hagreed
  cases hchecks.symm.trans hcontracts
  have hquery := evmUlnQuery_contracts hquery
  obtain ⟨i, hi⟩ := List.exists_mem_of_ne_nil voters hne
  obtain ⟨-, t, ⟨s, hresolved, -⟩, hversion⟩ := hsaw i hi
  rw [hquery] at hversion
  obtain ⟨library, rfl⟩ := resolveReceiveLibrary_ok hresolved
  refine ⟨library, version, read, hagreed, hrequired, hversion,
    fun expiration vId ulnCallData details result hbuild => ?_⟩
  obtain ⟨dstEid, ulnSendVersion, contract, target, vid, callData, heid, hsend, hcontract, htarget, hvid, hcallData,
    hhash⟩ := buildDvnCallData_ok hbuilder hbuild
  refine ⟨dstEid, ulnSendVersion, target, vid, callData, heid, hsend, hvid, hcallData, hhash, ?_⟩
  obtain ⟨checked, hchecked, hmatch⟩ := library_of_version hversion
  constructor
  · rintro rfl
    exact hdistinct.version_unique hcontract hchecked (.inl htarget) (.inr hmatch)
  · rintro rfl
    rw [hcontract] at hchecked
    cases hchecked
    exact decodeHex20_of_matches hmatch htarget

theorem checked_library_called :
    ((sampleEvent.extra.get "guid").isSome = true ∧
      isChainNativePayloadSignedDestination sampleEvent.lzMessageId.pathwayId.dstChainName = false ∧
      (sampleChecks receiveUln302).validatePayloadNotSignedWithQuorum sampleEvent .none
        sampleEvent.lzMessageId.pathwayId.dstChainName .none = .ok (.some 15)) ∧
    ∃ (library : Bytes 20) (version : String) (read : Read),
      (sampleChecks receiveUln302).AgreedOn sampleEvent .none sampleEvent.lzMessageId.pathwayId.dstChainName
        (hexText .plain library.val) version read ∧
      read.validity version = .notSigned (.some 15) ∧
      evmUlnVersionFromReceiveLibrary ethereumContracts (hexText .plain library.val) = .some version ∧
      ∀ expiration vId ulnCallData details result,
        sampleBuilder.buildDvnCallData (sampleChecks receiveUln302).crates sampleEvent expiration vId
        ulnCallData details =
          .ok result →
        ∃ (dstEid : UInt64) (ulnSendVersion : String) (target : Bytes 20) (vid callData : List UInt8),
          pathwayExtraU64 sampleEvent "dstEid" = .ok dstEid ∧
          ulnSendVersionString sampleEvent.lzMessageId.ulnSendVersion = .ok ulnSendVersion ∧
          packVid vId = .ok vid ∧ decodeHexBytes .plain ulnCallData = .ok callData ∧
          result.hashCallData = keccak256Hex (sampleChecks receiveUln302).crates
            (vid ++ target.val ++ (solidityUint256 (.ofNat expiration.toNat)).val ++ callData) ∧
          (target = library ↔ evmReceiveVersionFromDstEid dstEid ulnSendVersion = version) := by
  have hread : ∃ t, ReadOf .plain (sampleProvider receiveUln302) sampleQuery [] t (hexText .plain receiveUln302.val)
      "V302" ⟨false, 15, .verifying⟩ :=
    sampleProvider_readOf (by decide +kernel) (by decide +kernel) (by decide +kernel)
  have hvalid : (sampleChecks receiveUln302).validatePayloadNotSignedWithQuorum sampleEvent .none
      sampleEvent.lzMessageId.pathwayId.dstChainName .none = .ok (.some 15) :=
    sampleChecks_validate hread rfl
  exact ⟨⟨rfl, by decide, hvalid⟩,
    target_is_checked_library_iff rfl (by decide) rfl rfl ethereumContracts_distinct hvalid⟩

theorem sampleProvider_read : ∃ t, ReadOf .plain (sampleProvider readLib1002) sampleQuery [] t
    (hexText .plain readLib1002.val) "ReadV1002" ⟨false, 0, .verifying⟩ :=
  sampleProvider_readOf (by decide +kernel) (by decide +kernel) (by decide +kernel)

/-- The receiver reads on ReadLib1002, which asks for no confirmations; what is
packed for the V302 send is ReceiveUln302. -/
theorem other_library_called :
    (sampleEvent.extra.get "guid").isSome = true ∧
      isChainNativePayloadSignedDestination sampleEvent.lzMessageId.pathwayId.dstChainName = false ∧
      ethereumContracts.Distinct .plain ∧ (∀ contract ∈ ethereumContracts.libraries, contract.isEmpty = false) ∧
      (sampleChecks readLib1002).evmReceiveContractsByChainName "ethereum" = .some ethereumContracts ∧
      sampleBuilder.contractsByChainName "ethereum" = .some ethereumContracts ∧
      (sampleChecks readLib1002).validatePayloadNotSignedWithQuorum sampleEvent .none "ethereum" .none = .ok .none ∧
      (∃ read, (sampleChecks readLib1002).AgreedOn sampleEvent .none "ethereum" (hexText .plain readLib1002.val)
        "ReadV1002" read) ∧
      (sampleBuilder.buildDvnCallData sampleCrates sampleEvent 1760000000 "101" "0x0223536e" (.object [])).toOption.bind
        (fun result => (result.details.pointer ["dvnCallData", "targetContract"]).bind Json.asStr) =
          .some ethereumContracts.receiveUln302 ∧
      ∀ address, ¬ (Names .plain ethereumContracts.receiveUln302 address ∧ address = readLib1002) := by
  refine ⟨rfl, by decide, ethereumContracts_distinct, by decide, rfl, rfl,
    sampleChecks_validate sampleProvider_read rfl, ?_, by decide +kernel, fun address hnames => ?_⟩
  · exact ⟨⟨false, 0, .verifying⟩, oneProvider, [0], ethereumContracts, sampleQuery, rfl, rfl, sampleQuery_ok, [0],
      oneProvider_metBy.1, List.cons_ne_nil _ _, fun i hi => ⟨hi, sampleProvider_read⟩⟩
  · have h302 : decodeHex20 .plain ethereumContracts.receiveUln302 = .ok receiveUln302 := by decide +kernel
    exact absurd ((hnames.1.eq h302).symm.trans hnames.2) (by decide)

end Pillar.EvmPayload
