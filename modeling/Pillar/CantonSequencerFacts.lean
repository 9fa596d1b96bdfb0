/-
A committee's check counts distinct members.

What it counts is a set, so the list's order, its repetitions and whatever in it
recovers no member's key do not show. A signature is read through its digits, so
their case and the `0x` in front do not either. The quorum of a committee that
was accepted is at least one, at most the committee and at most the signatures
an answer may carry.
-/
import Pillar.CantonSequencer

namespace Pillar.Canton

open Text Hex
open Provider (ProviderConfig)

variable {crates : Crates}

/-! ## Spellings -/

/-- The same digits, but for their case and the `0x` in front. -/
def Respelled (a b : String) : Prop := toAsciiLowercase (hexDigits a) = toAsciiLowercase (hexDigits b)

theorem Respelled.symm {a b : String} (h : Respelled a b) : Respelled b a := Eq.symm h

theorem Respelled.map_lowerChar {a b : String} (h : Respelled a b) :
    (hexDigits a).toList.map lowerChar = (hexDigits b).toList.map lowerChar := by
  rw [← toList_toAsciiLowercase, ← toList_toAsciiLowercase, h]

theorem isHex_iff {digits : String} : isHex digits = true ↔
    ∀ c ∈ digits.toList.map lowerChar, (hexDigit? c).isSome = true := by
  simp [isHex, hexDigit?_lowerChar]

theorem Respelled.isHex {a b : String} (h : Respelled a b) : isHex (hexDigits a) = isHex (hexDigits b) := by
  rw [Bool.eq_iff_iff, isHex_iff, isHex_iff, h.map_lowerChar]

theorem utf8Size_of_hexDigit {c : Char} (h : (hexDigit? c).isSome = true) : c.utf8Size = 1 := by
  have hrange : c.toNat ≤ 127 := by
    unfold hexDigit? at h
    split at h
    next h1 => omega
    next =>
      split at h
      next h2 => omega
      next =>
        split at h
        next h3 => omega
        next => cases h
  refine Char.utf8Size_eq_one_iff.mpr ?_
  rw [UInt32.le_iff_toNat_le]
  exact hrange

theorem utf8ByteSize_of_isHex {digits : String} (h : isHex digits = true) :
    digits.utf8ByteSize = digits.toList.length := by
  have hsize := HexCrate.utf8ByteSize_ofList_ascii digits.toList fun c hc =>
    utf8Size_of_hexDigit (List.all_eq_true.mp h c hc)
  rwa [String.ofList_toList] at hsize

/-- Texts of one spelling are accepted alike, and as one text. -/
theorem signatureText_respelled {a b : String} (h : Respelled a b) :
    signatureText (.string a) = signatureText (.string b) := by
  have hcanonical : canonicalHex a = canonicalHex b := by
    rw [canonicalHex, canonicalHex, h]
  simp only [signatureText, Json.asStr_string, Option.bind_eq_bind, Option.bind_some, h.isHex, hcanonical]
  cases hhex : isHex (hexDigits b) with
  | false => simp
  | true =>
    have hlength : (hexDigits a).utf8ByteSize = (hexDigits b).utf8ByteSize := by
      rw [utf8ByteSize_of_isHex (h.isHex.trans hhex), utf8ByteSize_of_isHex hhex]
      simpa using congrArg List.length h.map_lowerChar
    rw [hlength]

/-- The bytes of a text are those of its digits. -/
theorem verHexToBytes_eq_ok {value : String} {bytes : List UInt8} :
    verHexToBytes crates value = .ok bytes ↔ decodeChars (hexDigits value).toList = .some bytes := by
  constructor
  · intro h
    unfold verHexToBytes at h
    dsimp only at h
    split at h
    next => cases h
    next =>
      split at h
      next => cases h
      next => exact crates.hex.decodeChars_of_decode h
  · intro h
    obtain ⟨hlength, hdigits⟩ := decodeChars_eq_some h
    have hhex : isHex (hexDigits value) = true := List.all_eq_true.mpr hdigits
    have heven : (hexDigits value).utf8ByteSize % 2 = 0 := by
      rw [utf8ByteSize_of_isHex hhex, hlength]
      omega
    unfold verHexToBytes
    simp only [hhex, heven, Bool.not_true, Bool.false_eq_true, if_false, ne_eq, not_true_eq_false]
    exact crates.hex.decode_eq_ok h

theorem recovered_eq_ok {digest : List UInt8} {signature key : String} :
    recovered crates digest signature = .ok key ↔
      ∃ bytes, decodeChars (hexDigits signature).toList = .some bytes ∧
        crates.recoverPublicKey digest bytes = .ok key := by
  rw [recovered, bindOk_iff]
  exact exists_congr fun bytes => and_congr_left fun _ => verHexToBytes_eq_ok

/-- A signature recovers one key in all its spellings. -/
theorem recovered_respelled {digest : List UInt8} {a b key : String} (h : Respelled a b) :
    recovered crates digest a = .ok key ↔ recovered crates digest b = .ok key := by
  rw [recovered_eq_ok, recovered_eq_ok, ← decodeChars_map_lowerChar, h.map_lowerChar, decodeChars_map_lowerChar]

/-! ## The committees there are -/

/-- A committee whose quorum its members can meet, and nobody cannot. -/
structure Committee.Valid (committee : Committee) : Prop where
  positive : 1 ≤ committee.quorum
  members : committee.quorum ≤ committee.publicKeys.length
  distinct : committee.publicKeys.Nodup
  signatures : committee.quorum ≤ maxCantonSignatures

theorem nodup_of_dedup_length {l : List String} (h : l.dedup.length = l.length) : l.Nodup := by
  have heq : l.dedup = l := (List.dedup_sublist l).eq_of_length h
  rw [← heq]
  exact List.nodup_dedup l

/-- A count that is whole, at least one and not above a small bound. -/
theorem toNat_bounds {count : Double} {bound : Nat} (hcount : count.isPositiveInteger = true) (hbound : bound < 2 ^ 53)
    (hgt : count.gt (.ofNat bound) = false) : 1 ≤ count.toNat ∧ count.toNat ≤ bound := by
  rw [Double.ofNat_eq hbound] at hgt
  cases count with
  | nan => cases hcount
  | inf negative => cases hcount
  | finite q =>
    simp only [Double.isPositiveInteger, Bool.and_eq_true, decide_eq_true_eq] at hcount
    simp only [Double.gt, decide_eq_false_iff_not, not_lt] at hgt
    obtain ⟨hwhole, hone⟩ := hcount
    rw [← hwhole] at hone hgt
    have hone' : 1 ≤ ⌊q⌋ := by exact_mod_cast hone
    have hgt' : ⌊q⌋ ≤ bound := by exact_mod_cast hgt
    simp only [Double.toNat]
    omega

theorem committeeOf_valid {validators quorum : String} {committee : Committee}
    (h : committeeOf crates validators quorum = .ok committee) : committee.Valid := by
  obtain ⟨publicKeys, -, h⟩ := bindOk_iff.mp h
  split at h
  next => cases h
  next =>
    split at h
    next => cases h
    next hdistinct =>
      dsimp only at h
      split at h
      next => cases h
      next hcount =>
        split at h
        next => cases h
        next hmax =>
          split at h
          next => cases h
          next hsize =>
            cases h
            simp only [Bool.not_eq_true', Bool.not_eq_false] at hcount
            simp only [Bool.not_eq_true] at hmax hsize
            have hmaxBounds := toNat_bounds hcount (by decide) hmax
            refine ⟨hmaxBounds.1, ?_, nodup_of_dedup_length (not_not.mp hdistinct), hmaxBounds.2⟩
            by_cases hsmall : publicKeys.length < 2 ^ 53
            · exact (toNat_bounds hcount hsmall hsize).2
            · have hfew := hmaxBounds.2
              simp only [maxCantonSignatures] at hfew ⊢
              omega

theorem committeeParams_valid {validators quorum : Option String} {committee : Committee}
    (h : committeeParams crates validators quorum = .ok (.some committee)) : committee.Valid := by
  unfold committeeParams at h
  split at h
  next validators quorum =>
    cases hc : committeeOf crates validators quorum with
    | error e =>
      rw [hc] at h
      cases h
    | ok found =>
      rw [hc] at h
      cases h
      exact committeeOf_valid hc
  next => cases h
  next => cases h

theorem parseCantonSequencerUri_valid {uri url : String} {committee : Committee}
    (h : parseCantonSequencerUri crates uri = .ok (url, .some committee)) : committee.Valid := by
  obtain ⟨parsed, -, hparsed⟩ := bindOk_iff.mp h
  dsimp only at hparsed
  split at hparsed
  next => cases hparsed
  next =>
    obtain ⟨found, hfound, hreturn⟩ := bindOk_iff.mp hparsed
    cases hreturn
    exact committeeParams_valid hfound

theorem orInternal_eq_ok {α : Type} {x : Except String α} {a : α} : orInternal x = .ok a ↔ x = .ok a := by
  cases x <;> simp [orInternal, Except.mapError]

/-- A sequencer's committee is that of its first entry. -/
theorem buildCantonSequencer_committee {chainName : String} {config : ProviderConfig}
    {sequencer : CantonSequencer crates} (h : buildCantonSequencer crates chainName config = .ok sequencer) :
    ∃ uri url, parseCantonSequencerUri crates uri = .ok (url, sequencer.committee) := by
  obtain ⟨entry, -, hentry⟩ := bindOk_iff.mp h
  dsimp only at hentry
  obtain ⟨⟨url, committee⟩, hparse, hparsed⟩ := bindOk_iff.mp hentry
  dsimp only at hparsed
  split at hparsed
  next => cases hparsed
  next =>
    obtain ⟨_, -, hrpc⟩ := bindOk_iff.mp hparsed
    obtain ⟨base, -, hbase⟩ := bindOk_iff.mp hrpc
    obtain ⟨vapp, -, hvapp⟩ := bindOk_iff.mp hbase
    obtain ⟨scan, -, hscan⟩ := bindOk_iff.mp hvapp
    cases hscan
    exact ⟨_, url, orInternal_eq_ok.mp hparse⟩

/-- A sequencer that is used has a committee, and one that was accepted. -/
theorem cantonSequencer_committee {chainName : String} {config : ProviderConfig} {sequencer : CantonSequencer crates}
    (h : cantonSequencer crates chainName config = .ok sequencer) :
    ∃ uri url committee, parseCantonSequencerUri crates uri = .ok (url, .some committee) ∧
      sequencer.committee = .some committee := by
  obtain ⟨built, hbuilt, hsome⟩ := bindOk_iff.mp h
  split at hsome
  next => cases hsome
  next hcommittee =>
    cases hsome
    obtain ⟨uri, url, hparse⟩ := buildCantonSequencer_committee hbuilt
    cases hc : sequencer.committee with
    | none =>
      rw [hc] at hcommittee
      exact absurd rfl hcommittee
    | some committee => exact ⟨uri, url, committee, hc ▸ hparse, rfl⟩

/-! ## What is counted -/

variable {committee : Committee} {digest : List UInt8}

/-- The members a key was recovered of from one of the signatures. -/
def signers (crates : Crates) (committee : Committee) (digest : List UInt8) (signatures : List String) :
    Finset String :=
  committee.publicKeys.toFinset.filter fun key => ∃ s ∈ signatures, recovered crates digest s = .ok key

theorem mem_signers {signatures : List String} {key : String} : key ∈ signers crates committee digest signatures ↔
    key ∈ committee.publicKeys ∧ ∃ s ∈ signatures, recovered crates digest s = .ok key := by
  simp [signers]

theorem mem_collect {state : Finset String × Option String} {signature key : String} :
    key ∈ (collect crates committee digest state signature).1 ↔
      key ∈ state.1 ∨ (key ∈ committee.publicKeys ∧ recovered crates digest signature = .ok key) := by
  unfold collect
  split
  next publicKey hkey =>
    rw [hkey, Except.ok.injEq]
    split
    next hmember =>
      rw [Finset.mem_insert, or_comm]
      exact or_congr_right ⟨fun h => ⟨h ▸ hmember, h.symm⟩, fun h => h.2.symm⟩
    next hmember =>
      refine ⟨.inl, fun h => h.resolve_right fun h => hmember ?_⟩
      rw [h.2]
      exact h.1
  next error herror =>
    rw [herror]
    simp

/-- The loop over the signatures, from the members found before. -/
theorem mem_foldl_collect {key : String} : ∀ (signatures : List String) (state : Finset String × Option String),
    key ∈ (signatures.foldl (collect crates committee digest) state).1 ↔
      key ∈ state.1 ∨ (key ∈ committee.publicKeys ∧ ∃ s ∈ signatures, recovered crates digest s = .ok key)
  | [], state => by simp
  | signature :: signatures, state => by
    rw [List.foldl_cons, mem_foldl_collect signatures, mem_collect, or_assoc, ← and_or_left]
    simp

/-- **The check counts the members that signed.** -/
theorem verify_iff {sequencer : CantonSequencer crates} (hcommittee : sequencer.committee = .some committee)
    (signatureType : String) (request raw : Json) (signatures : List String) :
    verify crates sequencer signatureType request raw signatures = .ok () ↔
      committee.quorum ≤ (signers crates committee (digestOf crates signatureType request raw) signatures).card := by
  have hverified : (signatures.foldl (collect crates committee (digestOf crates signatureType request raw))
      (∅, .none)).1 = signers crates committee (digestOf crates signatureType request raw) signatures := by
    ext key
    rw [mem_foldl_collect, mem_signers]
    simp
  simp only [verify, hcommittee]
  rw [hverified]
  split
  next hfew => exact ⟨fun h => (by cases h), fun h => absurd hfew (not_lt.mpr h)⟩
  next hmany => exact ⟨fun _ => not_lt.mp hmany, fun _ => rfl⟩

/-- What is signed leaves the signatures out. -/
theorem digestOf_signedMembers {signatureType : String} {request : Json} {r r' : List (String × Json)}
    (h : signedMembers r = signedMembers r') :
    digestOf crates signatureType request (.object r) = digestOf crates signatureType request (.object r') := by
  have hresponse : writeResponse crates.jsNumber (.object r) = writeResponse crates.jsNumber (.object r') := by
    rw [writeResponse_eq, writeResponse_eq, h]
  rw [digestOf, digestOf, writeCommitteePayload, writeCommitteePayload, committeeText, committeeText, hresponse]

/-! ## What does not show -/

/-- Lists that recover the same members have the same signers. -/
theorem signers_congr {l l' : List String}
    (h : ∀ key ∈ committee.publicKeys, (∃ s ∈ l, recovered crates digest s = .ok key) ↔
      ∃ s ∈ l', recovered crates digest s = .ok key) :
    signers crates committee digest l = signers crates committee digest l' := by
  ext key
  rw [mem_signers, mem_signers]
  exact and_congr_right (h key)

theorem signers_of_mem_iff {l l' : List String} (h : ∀ s, s ∈ l ↔ s ∈ l') :
    signers crates committee digest l = signers crates committee digest l' :=
  signers_congr fun _ _ => exists_congr fun s => and_congr_left fun _ => h s

/-- Signatures that recover no member add no signer. -/
theorem signers_append {l extra : List String}
    (h : ∀ s ∈ extra, ∀ key ∈ committee.publicKeys, recovered crates digest s ≠ .ok key) :
    signers crates committee digest (l ++ extra) = signers crates committee digest l := by
  refine signers_congr fun key hkey => ?_
  constructor
  · intro hsigned
    obtain ⟨s, hs, hrecovered⟩ := hsigned
    rcases List.mem_append.mp hs with hs | hs
    · exact ⟨s, hs, hrecovered⟩
    · exact absurd hrecovered (h s hs key hkey)
  · intro hsigned
    obtain ⟨s, hs, hrecovered⟩ := hsigned
    exact ⟨s, List.mem_append_left _ hs, hrecovered⟩

theorem exists_respelled {l l' : List String} (h : List.Forall₂ Respelled l l') {key : String}
    (hsigned : ∃ s ∈ l, recovered crates digest s = .ok key) : ∃ s ∈ l', recovered crates digest s = .ok key := by
  induction h with
  | nil => exact hsigned
  | cons hspelled _ ih =>
    obtain ⟨s, hs, hrecovered⟩ := hsigned
    rcases List.mem_cons.mp hs with rfl | hs
    · exact ⟨_, List.mem_cons_self, (recovered_respelled hspelled).mp hrecovered⟩
    · obtain ⟨s', hs', hrecovered'⟩ := ih ⟨s, hs, hrecovered⟩
      exact ⟨s', List.mem_cons_of_mem _ hs', hrecovered'⟩

theorem signers_respelled {l l' : List String} (h : List.Forall₂ Respelled l l') :
    signers crates committee digest l = signers crates committee digest l' :=
  signers_congr fun _ _ => ⟨exists_respelled h, exists_respelled (h.flip.imp fun _ _ => Respelled.symm)⟩

/-- A response's signatures, respelled, are taken for the same list. -/
theorem signatures_respelled {raw raw' : Json} {texts texts' : List String} (h : List.Forall₂ Respelled texts texts')
    (hraw : raw.get "signatures" = .some (.array (texts.map .string)))
    (hraw' : raw'.get "signatures" = .some (.array (texts'.map .string))) : signatures raw = signatures raw' := by
  have htexts : (texts.map Json.string).mapM signatureText = (texts'.map Json.string).mapM signatureText := by
    clear hraw hraw'
    induction h with
    | nil => rfl
    | cons hspelled _ ih =>
      rw [List.map_cons, List.map_cons, List.mapM_cons, List.mapM_cons, signatureText_respelled hspelled, ih]
  simp only [signatures, hraw, hraw', Option.bind_eq_bind, Option.bind_some, Json.asArray_array, List.length_map,
    h.length_eq, htexts]

/-! ## Enough signatures -/

/-- A signature as an answer carries it. -/
def signatureOf (crates : Crates) (bytes : List UInt8) : String := "0x" ++ crates.hex.encode bytes

theorem hexDigits_signatureOf (bytes : List UInt8) :
    hexDigits (signatureOf crates bytes) = crates.hex.encode bytes := by
  rw [hexDigits, signatureOf, stripPrefix_append]
  rfl

theorem isHex_encode (bytes : List UInt8) : isHex (crates.hex.encode bytes) = true := by
  refine List.all_eq_true.mpr fun c hc => ?_
  rw [crates.hex.toList_encode] at hc
  obtain ⟨n, hn, rfl⟩ := mem_encodeChars hc
  rw [hexDigit?_digit hn]
  rfl

theorem signatureText_signatureOf {bytes : List UInt8} (h : bytes.length ≤ 65) :
    signatureText (.string (signatureOf crates bytes)) = .some (signatureOf crates bytes) := by
  have hsize : (crates.hex.encode bytes).utf8ByteSize ≤ maxCantonSignatureHexBytes := by
    rw [crates.hex.utf8ByteSize_encode, maxCantonSignatureHexBytes]
    omega
  simp only [signatureText, Json.asStr_string, Option.bind_eq_bind, Option.bind_some, canonicalHex,
    hexDigits_signatureOf, isHex_encode, HexCrate.toAsciiLowercase_encode]
  simp [hsize, signatureOf]

theorem recovered_signatureOf {bytes : List UInt8} {key : String} (h : crates.recoverPublicKey digest bytes = .ok key) :
    recovered crates digest (signatureOf crates bytes) = .ok key := by
  refine recovered_eq_ok.mpr ⟨bytes, ?_, h⟩
  rw [hexDigits_signatureOf, crates.hex.toList_encode, decodeChars_encodeChars]

/-- Where each member can sign, as many of them as the quorum asks for do. -/
theorem exists_accepted (hvalid : committee.Valid)
    (hsigned : ∀ key ∈ committee.publicKeys, ∃ bytes : List UInt8, bytes.length ≤ 65 ∧
      crates.recoverPublicKey digest bytes = .ok key) :
    ∃ texts : List String, texts.length ≤ maxCantonSignatures ∧
      (texts.map Json.string).mapM signatureText = .some texts ∧
      committee.quorum ≤ (signers crates committee digest texts).card := by
  choose! sign hsize hrecover using hsigned
  let members := committee.publicKeys.take committee.quorum
  have hmembers : ∀ key ∈ members, key ∈ committee.publicKeys := fun key => List.mem_of_mem_take
  have hlength : members.length = committee.quorum := by
    rw [List.length_take]
    exact Nat.min_eq_left hvalid.members
  refine ⟨members.map fun key => signatureOf crates (sign key), ?_, ?_, ?_⟩
  · rw [List.length_map, hlength]
    exact hvalid.signatures
  · have haccepted : ∀ keys : List String, (∀ key ∈ keys, key ∈ committee.publicKeys) →
        ((keys.map fun key => signatureOf crates (sign key)).map Json.string).mapM signatureText =
          .some (keys.map fun key => signatureOf crates (sign key)) := by
      intro keys hkeys
      induction keys with
      | nil => rfl
      | cons key keys ih =>
        rw [List.map_cons, List.map_cons, List.mapM_cons,
          signatureText_signatureOf (hsize key (hkeys key List.mem_cons_self)),
          ih fun k hk => hkeys k (List.mem_cons_of_mem _ hk)]
        rfl
    exact haccepted members hmembers
  · have hsub : members.toFinset ⊆ signers crates committee digest
        (members.map fun key => signatureOf crates (sign key)) := by
      intro key hkey
      have hmem := List.mem_toFinset.mp hkey
      exact mem_signers.mpr ⟨hmembers key hmem, _, List.mem_map_of_mem hmem,
        recovered_signatureOf (hrecover key (hmembers key hmem))⟩
    have hcard := Finset.card_le_card hsub
    rw [List.toFinset_card_of_nodup (hvalid.distinct.sublist (List.take_sublist _ _)), hlength] at hcard
    exact hcard

/-! ## The whole check -/

theorem checkSigned_eq_ok {sequencer : CantonSequencer crates} {unexpected : AppCoreError} {signatureType : String}
    {request raw : Json} : checkSigned crates sequencer unexpected signatureType request raw = .ok () ↔
      ∃ found, signatures raw = .some found ∧ verify crates sequencer signatureType request raw found = .ok () := by
  rw [checkSigned, bindOk_iff]
  refine exists_congr fun found => and_congr_left fun _ => ?_
  cases signatures raw <;> simp [okOr]

/-- **The check counts distinct members.** For every committee that was
accepted: its quorum is at least one, at most its keys, which are distinct, and
at most the signatures an answer may carry. Whatever keys are recovered of
whatever, an answer's signatures are accepted exactly when those of the
committee's keys that were recovered from one of them are as many as the quorum,
so one of them is a member's. Neither their order nor repetitions show, nor
signatures no member's key is recovered from, nor the case of their digits and
the `0x` in front, in the list or in the answer. And where each member can sign,
some answer is accepted. A sequencer in use has such a committee. -/
theorem check_counts_distinct_members (crates : Crates) {uri url : String} {committee : Committee}
    (hparse : parseCantonSequencerUri crates uri = .ok (url, .some committee)) :
    (1 ≤ committee.quorum ∧ committee.quorum ≤ committee.publicKeys.length ∧ committee.publicKeys.Nodup ∧
      committee.quorum ≤ maxCantonSignatures) ∧
    (∀ (sequencer : CantonSequencer crates), sequencer.committee = .some committee →
      ∀ (signatureType : String) (request : Json) (r : List (String × Json)),
        let digest := digestOf crates signatureType request (.object r)
        let accepts := fun l => verify crates sequencer signatureType request (.object r) l = .ok ()
        (∀ l, accepts l ↔ committee.quorum ≤
          (committee.publicKeys.toFinset.filter fun key => ∃ s ∈ l, recovered crates digest s = .ok key).card) ∧
        (∀ l, accepts l → ∃ s ∈ l, ∃ key ∈ committee.publicKeys, recovered crates digest s = .ok key) ∧
        (∀ l l', (∀ s, s ∈ l ↔ s ∈ l') → (accepts l ↔ accepts l')) ∧
        (∀ l l', List.Forall₂ Respelled l l' → (accepts l ↔ accepts l')) ∧
        (∀ l extra, (∀ s ∈ extra, ∀ key ∈ committee.publicKeys, recovered crates digest s ≠ .ok key) →
          (accepts (l ++ extra) ↔ accepts l)) ∧
        (∀ (r' : List (String × Json)) (texts texts' : List String) (unexpected : AppCoreError),
          signedMembers r = signedMembers r' → List.Forall₂ Respelled texts texts' →
          Json.get "signatures" (.object r) = .some (.array (texts.map .string)) →
          Json.get "signatures" (.object r') = .some (.array (texts'.map .string)) →
          (checkSigned crates sequencer unexpected signatureType request (.object r) = .ok () ↔
            checkSigned crates sequencer unexpected signatureType request (.object r') = .ok ())) ∧
        ((∀ key ∈ committee.publicKeys, ∃ bytes : List UInt8, bytes.length ≤ 65 ∧
            crates.recoverPublicKey digest bytes = .ok key) →
          ∃ texts : List String, ∀ (r' : List (String × Json)) (unexpected : AppCoreError),
            signedMembers r = signedMembers r' →
            Json.get "signatures" (.object r') = .some (.array (texts.map .string)) →
            checkSigned crates sequencer unexpected signatureType request (.object r') = .ok ())) ∧
    ∀ (chainName : String) (config : ProviderConfig) (sequencer : CantonSequencer crates),
      cantonSequencer crates chainName config = .ok sequencer →
      ∃ uri url committee, parseCantonSequencerUri crates uri = .ok (url, .some committee) ∧
        sequencer.committee = .some committee := by
  have hvalid := parseCantonSequencerUri_valid hparse
  refine ⟨⟨hvalid.positive, hvalid.members, hvalid.distinct, hvalid.signatures⟩, ?_,
    fun chainName config sequencer => cantonSequencer_committee⟩
  intro sequencer hcommittee signatureType request r digest accepts
  have haccepts : ∀ l, accepts l ↔ committee.quorum ≤ (signers crates committee digest l).card :=
    verify_iff hcommittee signatureType request (.object r)
  refine ⟨haccepts, fun l hl => ?_, fun l l' hsame => ?_, fun l l' hspelled => ?_, fun l extra hextra => ?_,
    fun r' texts texts' unexpected hmembers hspelled hget hget' => ?_, fun hsigned => ?_⟩
  · have hpositive : 0 < (signers crates committee digest l).card := hvalid.positive.trans ((haccepts l).mp hl)
    obtain ⟨key, hkey⟩ := Finset.card_pos.mp hpositive
    obtain ⟨hmember, s, hs, hrecovered⟩ := mem_signers.mp hkey
    exact ⟨s, hs, key, hmember, hrecovered⟩
  · rw [haccepts, haccepts, signers_of_mem_iff hsame]
  · rw [haccepts, haccepts, signers_respelled hspelled]
  · rw [haccepts, haccepts, signers_append hextra]
  · rw [checkSigned_eq_ok, checkSigned_eq_ok, signatures_respelled hspelled hget hget']
    refine exists_congr fun found => and_congr_right fun _ => ?_
    rw [verify_iff hcommittee, verify_iff hcommittee, digestOf_signedMembers hmembers]
  · obtain ⟨texts, hlength, htexts, hquorum⟩ := exists_accepted hvalid hsigned
    refine ⟨texts, fun r' unexpected hmembers hget => checkSigned_eq_ok.mpr ⟨texts, ?_, ?_⟩⟩
    · have hfew : ¬ maxCantonSignatures < texts.length := not_lt.mpr hlength
      simp only [signatures, hget, Option.bind_eq_bind, Option.bind_some, Json.asArray_array, List.length_map,
        if_neg hfew, htexts]
    · rw [verify_iff hcommittee, ← digestOf_signedMembers hmembers]
      exact hquorum

/-! A committee of one: the curve's generator. -/

/-- The generator's first coordinate. -/
def generatorX : List UInt8 :=
  [0x79, 0xBE, 0x66, 0x7E, 0xF9, 0xDC, 0xBB, 0xAC, 0x55, 0xA0, 0x62, 0x95, 0xCE, 0x87, 0x0B, 0x07,
    0x02, 0x9B, 0xFC, 0xDB, 0x2D, 0xCE, 0x28, 0xD9, 0x59, 0xF2, 0x81, 0x5B, 0x16, 0xF8, 0x17, 0x98]

/-- The generator's second coordinate, which is even. -/
def generatorY : List UInt8 :=
  [0x48, 0x3A, 0xDA, 0x77, 0x26, 0xA3, 0xC4, 0x65, 0x5D, 0xA4, 0xFB, 0xFC, 0x0E, 0x11, 0x08, 0xA8,
    0xFD, 0x17, 0xB4, 0x48, 0xA6, 0x85, 0x54, 0x19, 0x9C, 0x47, 0xD0, 0x8F, 0xFB, 0x10, 0xD4, 0xB8]

/-- The generator uncompressed. -/
def generatorKey : String := "0x" ++ HexCrate.plain.encode ([4] ++ generatorX ++ generatorY)

/-- The crates on one configured URI: the curve knows its generator, and every
signature of full length was made with it. -/
def generatorCrates : Crates where
  hex := .plain
  url :=
    { Url := String
      parse := .some
      scheme := fun _ => "https"
      hostStr := fun _ => .some "sequencer.example"
      queryPairs := fun _ =>
        [("sequencer-validators", "0x02" ++ HexCrate.plain.encode generatorX), ("sequencer-quorum", "1")]
      withQuery := fun _ _ => "https://sequencer.example/"
      href := id
      join := fun base path => .some (base ++ path) }
  curve :=
    { decompress := fun x odd =>
        if x = generatorX ∧ odd = false then .some ([4] ++ generatorX ++ generatorY) else .none
      fromSec1Bytes := fun bytes => if bytes = [4] ++ generatorX ++ generatorY then .some bytes else .none
      keccak256 := fun _ => [] }
  jsNumber := integerNumber
  jsNumberF64 := fun _ => ""
  recoverPublicKey := fun _ signature =>
    if signature.length = 65 then .ok generatorKey else .error "Invalid signature length"

theorem check_counts_generator :
    (1 ≤ 1 ∧ 1 ≤ [generatorKey].length ∧ [generatorKey].Nodup ∧ 1 ≤ maxCantonSignatures) ∧
    ∀ l, verify generatorCrates ⟨"https://sequencer.example/", "https://scan.example/", [], .some ⟨[generatorKey], 1⟩⟩
        "transactionTree" .null (.object []) l = .ok () →
      ∃ s ∈ l, ∃ key ∈ [generatorKey],
        recovered generatorCrates (digestOf generatorCrates "transactionTree" .null (.object [])) s = .ok key :=
  have h := @check_counts_distinct_members generatorCrates "canton" "https://sequencer.example" ⟨[generatorKey], 1⟩
    (by decide +kernel)
  ⟨h.1, (h.2.1 _ rfl "transactionTree" .null []).2.1⟩

end Pillar.Canton
