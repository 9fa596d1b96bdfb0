/-
**No wallet signs before every check has passed**: whatever the roster, the
resolver, the validator, the builders and the signer answer.

A stage that returns is taken apart into what it asked and was told; no stage
before the wallets calls the signer.
-/
import Pillar.Workflow

namespace Pillar.Workflow

open PacketSent (LzMessageId)
open Audit (Signature)
open Asking

variable {app : App} {request : PillarApiRequestV2} {t t' : List Entry}

/-! ## What a stage that returns was told -/

theorem checkChainNameAvailability_ok {chainName : String}
    (h : checkChainNameAvailability app chainName t = (.ok (), t')) : t' = t ++ [⟨.available chainName, true⟩] := by
  obtain ⟨available, s, hask, h⟩ := bind_ok h
  obtain ⟨-, rfl⟩ := ask_ok hask
  cases available with
  | true => exact (pure_ok h).2.symm
  | false =>
    obtain ⟨names, s, -, h⟩ := bind_ok h
    exact (throw_ok h).elim

theorem checkContext_ok (h : checkContext app request = .ok ()) :
    isVersion request.lzMessageId.ulnSendVersion "ReadV1002" = request.signingContext.isRead := by
  rw [checkContext] at h
  split at h
  · cases h
  · next hread => exact Decidable.not_not.mp hread

/-- A V2 send asked for the receiver's library; no other send is routed. -/
theorem receiveVersion_ok {agreed routed : Option String}
    (h : receiveVersion app request t = (.ok (agreed, routed), t')) :
    t <+: t' ∧ (isVersion request.lzMessageId.ulnSendVersion "V2" = false → routed = .none) ∧
      (isVersion request.lzMessageId.ulnSendVersion "V2" = true → ∃ version,
        ⟨.ulnReceiveVersion request.lzMessageId, .ok version⟩ ∈ t' ∧
        routed = if version = "V301" ∨ version = "V302" then .some version else .none) := by
  rw [receiveVersion] at h
  split at h
  · next hv2 =>
    obtain ⟨answer, s, hask, h⟩ := bind_ok h
    obtain ⟨-, rfl⟩ := ask_ok hask
    obtain ⟨version, s, hlift, h⟩ := bind_ok h
    obtain ⟨rfl, rfl⟩ := lift_ok hlift
    obtain ⟨heq, rfl⟩ := pure_ok h
    cases heq
    refine ⟨List.prefix_append .., fun hv2' => absurd (hv2.symm.trans hv2') (by decide), fun _ => ?_⟩
    exact ⟨version, List.mem_append_right _ (List.mem_singleton.mpr rfl), rfl⟩
  · next hv2 =>
    obtain ⟨heq, rfl⟩ := pure_ok h
    cases heq
    exact ⟨List.prefix_refl _, fun _ => rfl, fun hv2' => absurd hv2' hv2⟩

theorem isVersion_iff {value : Json} {version : String} : isVersion value version = true ↔ value = .string version := by
  cases value <;> simp [isVersion, Json.asStr]

/-- A request that has a builder names its version, as text. -/
theorem builderVersion_ok {version : String} {routed : Option String}
    (h : builderVersion app request routed = .ok version)
    (hrouted : isVersion request.lzMessageId.ulnSendVersion "V2" = false → routed = .none) :
    ∃ requested, request.lzMessageId.ulnSendVersion = .string requested ∧ requested ≠ "" := by
  cases hv2 : isVersion request.lzMessageId.ulnSendVersion "V2" with
  | true => exact ⟨"V2", isVersion_iff.mp hv2, by decide⟩
  | false =>
    rw [hrouted hv2] at h
    simp only [builderVersion] at h
    split at h
    · next v hv =>
      obtain ⟨hstr, hmem⟩ := Option.filter_eq_some_iff.mp hv
      refine ⟨v, isVersion_iff.mp (by rw [isVersion, hstr]; exact decide_eq_true rfl), ?_⟩
      intro hempty
      rw [hempty] at hmem
      exact absurd hmem (by decide)
    · cases h

theorem checkSkipVId_ok {routed : Option String} (h : checkSkipVId request routed = .ok ())
    (hskip : request.signingContext.skipVId = .some true) :
    routed = .none ∧ isVersion request.lzMessageId.ulnSendVersion "V2" = true ∧ request.dst = "aptos" := by
  rw [checkSkipVId] at h
  split at h
  · cases h
  · next hnot =>
    simp only [hskip, true_and, not_or, Option.not_isSome_iff_eq_none, Decidable.not_not,
      Bool.not_eq_false, ne_eq] at hnot
    exact hnot

theorem checkSrcTxHash_ok (h : checkSrcTxHash request = .ok ()) : isTransactionIdShaped request.srcTxHash = true := by
  rw [checkSrcTxHash] at h
  split at h
  · next hshape => exact hshape
  · cases h

theorem checkResolved_ok {event : LzSentEvent} {requested : String} (h : checkResolved request event = .ok ())
    (hrequested : request.lzMessageId.ulnSendVersion = .string requested) (hne : requested ≠ "") :
    event.lzMessageId.pathwayId.dstChainName = request.dst ∧
      event.lzMessageId.ulnSendVersion = request.lzMessageId.ulnSendVersion := by
  rw [checkResolved] at h
  split at h
  · cases h
  next hdst =>
  split at h
  · cases h
  next hversion =>
  refine ⟨Decidable.not_not.mp hdst, ?_⟩
  rw [hrequested] at hversion ⊢
  have hversion := Decidable.not_not.mp hversion
  cases hresolved : event.lzMessageId.ulnSendVersion with
  | string s =>
    rw [hresolved] at hversion
    exact congrArg Json.string hversion
  | null | bool | number | array | object =>
    rw [hresolved] at hversion
    exact absurd hversion.symm hne

/-- Rebuilding for a V3 library keeps the message id. -/
theorem hydrate_ok {event hydrated : LzSentEvent} {gas : Option String}
    (h : hydrateUlnV2SentEvent app event gas = .ok hydrated) : hydrated.lzMessageId = event.lzMessageId := by
  rw [hydrateUlnV2SentEvent] at h
  split at h
  · cases h
  split at h
  · cases h
  obtain ⟨srcEid, -, h⟩ := bindOk_iff.mp h
  obtain ⟨sender, -, h⟩ := bindOk_iff.mp h
  obtain ⟨dstEid, -, h⟩ := bindOk_iff.mp h
  obtain ⟨receiver, -, h⟩ := bindOk_iff.mp h
  obtain ⟨guid, -, h⟩ := bindOk_iff.mp h
  cases h
  rfl

theorem mapError_ok {α : Type} {result : Except AppCoreError α} {a : α} (h : mapError app request result = .ok a) :
    result = .ok a := by
  cases result with
  | ok b => exact h
  | error e => cases h

/-- The resolved event was checked against the request, and is signed as it is
or rebuilt from its refreshed copy. -/
theorem sentEvent_ok {routed : Option String} {event : LzSentEvent}
    (h : sentEvent app request routed t = (.ok event, t')) :
    t <+: t' ∧ ∃ resolved, ⟨.getLzSentEvent request.srcTxHash request.lzMessageId, .ok resolved⟩ ∈ t' ∧
      checkResolved request resolved = .ok () ∧
      (event = resolved ∨ ∃ s refreshed, app.oracle s (.refreshUlnV2SentEvent resolved) = .ok (.some refreshed) ∧
        hydrateUlnV2SentEvent app refreshed.sentEvent refreshed.lzReceiveGas = .ok event) := by
  obtain ⟨answer, s, hask, h⟩ := bind_ok h
  obtain ⟨-, rfl⟩ := ask_ok hask
  obtain ⟨resolved, s, hlift, h⟩ := bind_ok h
  obtain ⟨hanswer, rfl⟩ := lift_ok hlift
  rw [mapError_ok hanswer] at h
  obtain ⟨_, s, hlift, h⟩ := bind_ok h
  obtain ⟨hchecked, rfl⟩ := lift_ok hlift
  split at h
  · obtain ⟨answer, s, hask, h⟩ := bind_ok h
    obtain ⟨horacle, rfl⟩ := ask_ok hask
    obtain ⟨refreshed, s, hlift, h⟩ := bind_ok h
    obtain ⟨hanswer, rfl⟩ := lift_ok hlift
    cases refreshed with
    | none => exact (throw_ok h).elim
    | some refreshed =>
      obtain ⟨hhydrate, rfl⟩ := lift_ok h
      refine ⟨(List.prefix_append ..).trans (List.prefix_append ..), resolved, by simp, hchecked, .inr ?_⟩
      exact ⟨_, refreshed, horacle.trans (mapError_ok hanswer), hhydrate⟩
  · obtain ⟨rfl, rfl⟩ := pure_ok h
    exact ⟨List.prefix_append .., event, by simp, hchecked, .inl rfl⟩

/-- What a joined check was told, and what became of it. -/
def Passed (request : PillarApiRequestV2) (agreed : Option String) (event : LzSentEvent) (told : List Entry)
    (acc : List ReadBlockPin × Option UInt64) : JoinedCheck → Prop
  | .readiness => ⟨.validateReadiness event request.signingContext, .ok acc.1⟩ ∈ told
  | .expiration => ⟨.validateExpiration request.dst request.signingContext.expiration, .ok ()⟩ ∈ told
  | .payloadSigned =>
    ⟨.validatePayloadSigned event (request.signingContext.dvnAddress.filter (· ≠ "")) request.dst agreed, .ok acc.2⟩
      ∈ told

theorem joinedCheck_ok {agreed : Option String} {event : LzSentEvent} {acc acc' : List ReadBlockPin × Option UInt64}
    {check : JoinedCheck} (h : joinedCheck app request agreed event acc check t = (.ok acc', t')) :
    t <+: t' ∧ Passed request agreed event t' acc' check ∧
      ∀ other, other ≠ check → Passed request agreed event t acc other → Passed request agreed event t' acc' other := by
  cases check with
  | readiness =>
    obtain ⟨answer, s, hask, h⟩ := bind_ok h
    obtain ⟨-, rfl⟩ := ask_ok hask
    obtain ⟨pins, s, hlift, h⟩ := bind_ok h
    obtain ⟨rfl, rfl⟩ := lift_ok hlift
    obtain ⟨rfl, rfl⟩ := pure_ok h
    refine ⟨List.prefix_append .., by simp [Passed], ?_⟩
    intro other hne hpassed
    cases other with
    | readiness => exact absurd rfl hne
    | expiration | payloadSigned => exact List.mem_append_left _ hpassed
  | expiration =>
    obtain ⟨answer, s, hask, h⟩ := bind_ok h
    obtain ⟨-, rfl⟩ := ask_ok hask
    obtain ⟨⟨⟩, s, hlift, h⟩ := bind_ok h
    obtain ⟨rfl, rfl⟩ := lift_ok hlift
    obtain ⟨rfl, rfl⟩ := pure_ok h
    refine ⟨List.prefix_append .., by simp [Passed], ?_⟩
    intro other hne hpassed
    cases other with
    | expiration => exact absurd rfl hne
    | readiness | payloadSigned => exact List.mem_append_left _ hpassed
  | payloadSigned =>
    obtain ⟨answer, s, hask, h⟩ := bind_ok h
    obtain ⟨-, rfl⟩ := ask_ok hask
    obtain ⟨required, s, hlift, h⟩ := bind_ok h
    obtain ⟨rfl, rfl⟩ := lift_ok hlift
    obtain ⟨rfl, rfl⟩ := pure_ok h
    refine ⟨List.prefix_append .., by simp [Passed], ?_⟩
    intro other hne hpassed
    cases other with
    | payloadSigned => exact absurd rfl hne
    | readiness | expiration => exact List.mem_append_left _ hpassed

/-- In whatever order the joined checks finish, each of them passed. -/
theorem joinedChecks_ok {agreed : Option String} {event : LzSentEvent} {order : List JoinedCheck} (hnodup : order.Nodup)
    {acc acc' : List ReadBlockPin × Option UInt64} {t : List Entry}
    (h : joinedChecks app request agreed event order acc t = (.ok acc', t')) :
    t <+: t' ∧ (∀ check ∈ order, Passed request agreed event t' acc' check) ∧
      ∀ check ∉ order, Passed request agreed event t acc check → Passed request agreed event t' acc' check := by
  induction order generalizing acc t with
  | nil =>
    obtain ⟨rfl, rfl⟩ := pure_ok h
    exact ⟨List.prefix_refl _, fun check hc => (by cases hc), fun check _ hpassed => hpassed⟩
  | cons first order ih =>
    obtain ⟨hfirst, hnodup⟩ := List.nodup_cons.mp hnodup
    obtain ⟨mid, s, hcheck, h⟩ := bind_ok h
    obtain ⟨hpre, hpassed, hothers⟩ := joinedCheck_ok hcheck
    obtain ⟨hpre', hpassed', hkept⟩ := ih hnodup h
    refine ⟨hpre.trans hpre', ?_, ?_⟩
    · intro check hc
      rcases List.mem_cons.mp hc with rfl | hc
      · exact hkept check hfirst hpassed
      · exact hpassed' check hc
    · intro check hc hp
      obtain ⟨hne, hc⟩ := not_or.mp (List.mem_cons.not.mp hc)
      exact hkept check hc (hothers check hne hp)

/-- What validation was told before it returned the pins. -/
theorem validate_ok {agreed : Option String} {event : LzSentEvent} {pins : List ReadBlockPin}
    (h : validate app request agreed event t = (.ok pins, t')) :
    t <+: t' ∧ ⟨.validateMessageHash request event, .ok ()⟩ ∈ t' ∧
      ⟨.validateExtraContext event request.signingContext, .ok ()⟩ ∈ t' ∧
      ∃ required, checkConfirmations request.signingContext required = .ok () ∧
        ∀ check, Passed request agreed event t' (pins, required) check := by
  obtain ⟨answer, s, hask, h⟩ := bind_ok h
  obtain ⟨-, rfl⟩ := ask_ok hask
  obtain ⟨⟨⟩, s, hlift, h⟩ := bind_ok h
  obtain ⟨rfl, rfl⟩ := lift_ok hlift
  obtain ⟨order, s, hask, h⟩ := bind_ok h
  obtain ⟨-, rfl⟩ := ask_ok hask
  obtain ⟨⟨pins', required⟩, joined, hjoined, h⟩ := bind_ok h
  have hnodup : order.val.Nodup := order.property.nodup_iff.mpr (by decide)
  obtain ⟨hpre, hpassed, -⟩ := joinedChecks_ok hnodup hjoined
  obtain ⟨⟨⟩, s, hlift, h⟩ := bind_ok h
  obtain ⟨hconfirmations, rfl⟩ := lift_ok hlift
  obtain ⟨answer, s, hask, h⟩ := bind_ok h
  obtain ⟨-, rfl⟩ := ask_ok hask
  obtain ⟨⟨⟩, s, hlift, h⟩ := bind_ok h
  obtain ⟨rfl, rfl⟩ := lift_ok hlift
  obtain ⟨rfl, rfl⟩ := pure_ok h
  have hall : ∀ check, check ∈ order.val := by
    intro check
    rw [order.property.mem_iff]
    cases check <;> decide
  refine ⟨?_, ?_, by simp, required, hconfirmations, ?_⟩
  · exact (List.prefix_append ..).trans ((List.prefix_append ..).trans (hpre.trans (List.prefix_append ..)))
  · exact List.mem_append_left _ (hpre.subset (by simp))
  · intro check
    have hcheck := hpassed check (hall check)
    cases check <;> exact List.mem_append_left _ hcheck

theorem checkConfirmations_ok {expiration blockConfirmation : Int} {skipVId : Option Bool} {dvnAddress : Option String}
    {required : UInt64}
    (h : checkConfirmations (.message expiration skipVId dvnAddress blockConfirmation) (.some required) = .ok ()) :
    required.toNat ≤ blockConfirmation := by
  rw [checkConfirmations] at h
  split at h
  · cases h
  · next hge => exact not_lt.mp hge

/-! ## Everything a signature waits for -/

/-- All checks passed for `event`, which was built with the pins readiness
returned, and the builder gave `hash`. -/
structure Cleared (request : PillarApiRequestV2) (told : List Entry) (event : LzSentEvent) (hash : String) :
    Prop where
  srcAvailable : ⟨.available request.lzMessageId.pathwayId.srcChainName, true⟩ ∈ told
  dstAvailable : ⟨.available request.dst, true⟩ ∈ told
  readContext : request.lzMessageId.ulnSendVersion = .string "ReadV1002" ↔ request.signingContext.isRead = true
  skipVId : request.signingContext.skipVId = .some true →
    request.lzMessageId.ulnSendVersion = .string "V2" ∧ request.dst = "aptos" ∧ ∃ version,
      ⟨.ulnReceiveVersion request.lzMessageId, .ok version⟩ ∈ told ∧ version ≠ "V301" ∧ version ≠ "V302"
  srcTxHash : isTransactionIdShaped request.srcTxHash = true
  resolved : ∃ resolved, ⟨.getLzSentEvent request.srcTxHash request.lzMessageId, .ok resolved⟩ ∈ told ∧
    resolved.lzMessageId.pathwayId.dstChainName = request.dst ∧
    resolved.lzMessageId.ulnSendVersion = request.lzMessageId.ulnSendVersion
  destination : event.lzMessageId.pathwayId.dstChainName = request.dst
  version : event.lzMessageId.ulnSendVersion = request.lzMessageId.ulnSendVersion
  messageHash : ⟨.validateMessageHash request event, .ok ()⟩ ∈ told
  expiration : ⟨.validateExpiration request.dst request.signingContext.expiration, .ok ()⟩ ∈ told
  payloadSigned : ∃ agreed required,
    ⟨.validatePayloadSigned event (request.signingContext.dvnAddress.filter (· ≠ "")) request.dst agreed, .ok required⟩
      ∈ told ∧
    ∀ expiration skipVId dvnAddress blockConfirmation confirmations,
      request.signingContext = .message expiration skipVId dvnAddress blockConfirmation →
      required = .some confirmations → (UInt64.toNat confirmations : Int) ≤ blockConfirmation
  extraContext : ⟨.validateExtraContext event request.signingContext, .ok ()⟩ ∈ told
  built : ∃ pins version details, ⟨.validateReadiness event request.signingContext, .ok pins⟩ ∈ told ∧
    ⟨.buildDvnHashCallData version { event with readBlockPins := pins } request.signingContext, .ok ⟨hash, details⟩⟩
      ∈ told

theorem Cleared.mono {told told' : List Entry} {event : LzSentEvent} {hash : String}
    (h : Cleared request told event hash) (hpre : told <+: told') : Cleared request told' event hash where
  srcAvailable := hpre.subset h.srcAvailable
  dstAvailable := hpre.subset h.dstAvailable
  readContext := h.readContext
  skipVId hset :=
    let ⟨hv2, haptos, version, hmem, hneither⟩ := h.skipVId hset
    ⟨hv2, haptos, version, hpre.subset hmem, hneither⟩
  srcTxHash := h.srcTxHash
  resolved :=
    let ⟨resolved, hmem, hchecked⟩ := h.resolved
    ⟨resolved, hpre.subset hmem, hchecked⟩
  destination := h.destination
  version := h.version
  messageHash := hpre.subset h.messageHash
  expiration := hpre.subset h.expiration
  payloadSigned :=
    let ⟨agreed, required, hmem, hconfirmations⟩ := h.payloadSigned
    ⟨agreed, required, hpre.subset hmem, hconfirmations⟩
  extraContext := hpre.subset h.extraContext
  built :=
    let ⟨pins, version, details, hready, hbuilt⟩ := h.built
    ⟨pins, version, details, hpre.subset hready, hpre.subset hbuilt⟩

/-- The refreshed copy of a resolved event has the message id it was asked for. -/
def RefreshKeepsId (app : App) : Prop :=
  ∀ t event refreshed, app.oracle t (.refreshUlnV2SentEvent event) = .ok (.some refreshed) →
    refreshed.sentEvent.lzMessageId = event.lzMessageId

/-- What is ready to be signed has passed every check. -/
theorem prepare_ok {prepared : Prepared} (hrefresh : RefreshKeepsId app)
    (h : prepare app request t = (.ok prepared, t')) :
    (∃ event, Cleared request t' event prepared.built.hashCallData) ∧
      app.walletsByChainName request.dst = .some prepared.wallets := by
  obtain ⟨⟨⟩, s, hsrc, h⟩ := bind_ok h
  have hsrc := checkChainNameAvailability_ok hsrc
  subst hsrc
  obtain ⟨⟨⟩, s, hdst, h⟩ := bind_ok h
  have hdst := checkChainNameAvailability_ok hdst
  subst hdst
  obtain ⟨⟨⟩, s, hlift, h⟩ := bind_ok h
  obtain ⟨hcontext, rfl⟩ := lift_ok hlift
  obtain ⟨⟨agreed, routed⟩, received, hreceive, h⟩ := bind_ok h
  obtain ⟨hpre, hunrouted, hrouted⟩ := receiveVersion_ok hreceive
  obtain ⟨version, s, hlift, h⟩ := bind_ok h
  obtain ⟨hversion, rfl⟩ := lift_ok hlift
  obtain ⟨⟨⟩, s, hlift, h⟩ := bind_ok h
  obtain ⟨hskip, rfl⟩ := lift_ok hlift
  obtain ⟨⟨⟩, s, hlift, h⟩ := bind_ok h
  obtain ⟨hshape, rfl⟩ := lift_ok hlift
  obtain ⟨event, s, hevent, h⟩ := bind_ok h
  obtain ⟨hpre', resolved, hresolved, hchecked, hrebuilt⟩ := sentEvent_ok hevent
  obtain ⟨pins, validated, hvalidate, h⟩ := bind_ok h
  obtain ⟨hpre'', hhash, hextra, required, hconfirmations, hpassed⟩ := validate_ok hvalidate
  obtain ⟨answer, s, hask, h⟩ := bind_ok h
  obtain ⟨-, rfl⟩ := ask_ok hask
  obtain ⟨built, s, hlift, h⟩ := bind_ok h
  obtain ⟨rfl, rfl⟩ := lift_ok hlift
  obtain ⟨answer, s, hask, h⟩ := bind_ok h
  obtain ⟨-, rfl⟩ := ask_ok hask
  obtain ⟨⟨⟩, s, hlift, h⟩ := bind_ok h
  obtain ⟨rfl, rfl⟩ := lift_ok hlift
  cases hwallets : app.walletsByChainName request.dst with
  | none =>
    rw [hwallets] at h
    exact (throw_ok h).elim
  | some wallets =>
  rw [hwallets] at h
  obtain ⟨rfl, rfl⟩ := pure_ok h
  obtain ⟨requested, hrequested, hne⟩ := builderVersion_ok hversion hunrouted
  obtain ⟨hresolvedDst, hresolvedVersion⟩ := checkResolved_ok hchecked hrequested hne
  have hid : event.lzMessageId = resolved.lzMessageId := by
    rcases hrebuilt with rfl | ⟨t, refreshed, horacle, hhydrate⟩
    · rfl
    · exact (hydrate_ok hhydrate).trans (hrefresh t resolved refreshed horacle)
  have hlast {built audited : List Entry} {e : Entry} (he : e ∈ validated) : e ∈ validated ++ built ++ audited :=
    List.mem_append_left _ (List.mem_append_left _ he)
  refine ⟨⟨event, ?_⟩, rfl⟩
  exact
    { srcAvailable := hlast (hpre''.subset (hpre'.subset (hpre.subset (by simp))))
      dstAvailable := hlast (hpre''.subset (hpre'.subset (hpre.subset (by simp))))
      readContext := by rw [← isVersion_iff, checkContext_ok hcontext]
      skipVId := by
        intro hset
        obtain ⟨rfl, hv2, haptos⟩ := checkSkipVId_ok hskip hset
        obtain ⟨version, hmem, hnone⟩ := hrouted hv2
        refine ⟨isVersion_iff.mp hv2, haptos, version, hlast (hpre''.subset (hpre'.subset hmem)), ?_⟩
        split at hnone
        · cases hnone
        · next hneither => exact not_or.mp hneither
      srcTxHash := checkSrcTxHash_ok hshape
      resolved := ⟨resolved, hlast (hpre''.subset hresolved), hresolvedDst, hresolvedVersion⟩
      destination := by rw [hid, hresolvedDst]
      version := by rw [hid, hresolvedVersion]
      messageHash := hlast hhash
      expiration := hlast (hpassed .expiration)
      payloadSigned := by
        refine ⟨agreed, required, hlast (hpassed .payloadSigned), ?_⟩
        intro expiration skipVId dvnAddress blockConfirmation confirmations hmessage hrequired
        rw [hmessage, hrequired] at hconfirmations
        exact checkConfirmations_ok hconfirmations
      extraContext := hlast hextra
      built := ⟨pins, version, built.details, hlast (hpassed .readiness), by simp⟩ }

/-! ## The signer is called last -/

/-- The chain, wallet and hash of a signer call. -/
def signerCall : Entry → Option (String × String × String)
  | ⟨.pillarSign dst wallet hash, _⟩ => .some (dst, wallet, hash)
  | _ => .none

def signerCalls (told : List Entry) : List (String × String × String) := told.filterMap signerCall

theorem eq_at_signerCall {told : List Entry} {i : Nat} {dst wallet hash : String}
    (h : told[i]?.bind signerCall = .some (dst, wallet, hash)) :
    told = told.take i ++ ⟨.pillarSign dst wallet hash, ()⟩ :: told.drop (i + 1) := by
  obtain ⟨entry, hentry, hcall⟩ := Option.bind_eq_some_iff.mp h
  obtain ⟨hi, rfl⟩ := List.getElem?_eq_some_iff.mp hentry
  have heq : told[i] = ⟨.pillarSign dst wallet hash, ()⟩ := by
    unfold signerCall at hcall
    split at hcall
    · next heq =>
      cases hcall
      exact heq
    · cases hcall
  rw [← heq, List.getElem_cons_drop, List.take_append_drop]

theorem checkChainNameAvailability_emits (chainName : String) :
    Emits signerCall (checkChainNameAvailability app chainName) [] := by
  refine Emits.after (emits_ask fun _ => rfl) fun available => ?_
  split
  · exact emits_pure _
  · exact Emits.after (emits_ask fun _ => rfl) fun _ => emits_throw _

theorem receiveVersion_emits : Emits signerCall (receiveVersion app request) [] := by
  rw [receiveVersion]
  split
  · exact Emits.after (emits_ask fun _ => rfl) fun _ => Emits.after (emits_lift _) fun _ => emits_pure _
  · exact emits_pure _

theorem sentEvent_emits (routed : Option String) : Emits signerCall (sentEvent app request routed) [] := by
  refine Emits.after (emits_ask fun _ => rfl) fun answer => Emits.after (emits_lift _) fun event => ?_
  refine Emits.after (emits_lift _) fun _ => ?_
  split
  · refine Emits.after (emits_ask fun _ => rfl) fun answer => Emits.after (emits_lift _) fun refreshed => ?_
    cases refreshed with
    | none => exact emits_throw _
    | some refreshed => exact emits_lift _
  · exact emits_pure _

theorem joinedChecks_emits (agreed : Option String) (event : LzSentEvent) (order : List JoinedCheck)
    (acc : List ReadBlockPin × Option UInt64) :
    Emits signerCall (joinedChecks app request agreed event order acc) [] := by
  induction order generalizing acc with
  | nil => exact emits_pure _
  | cons check order ih =>
    refine Emits.after ?_ ih
    cases check <;>
      exact Emits.after (emits_ask fun _ => rfl) fun _ => Emits.after (emits_lift _) fun _ => emits_pure _

theorem validate_emits (agreed : Option String) (event : LzSentEvent) :
    Emits signerCall (validate app request agreed event) [] := by
  refine Emits.after (emits_ask fun _ => rfl) fun _ => Emits.after (emits_lift _) fun _ => ?_
  refine Emits.after (emits_ask fun _ => rfl) fun _ => Emits.after (joinedChecks_emits agreed event _ _) fun _ => ?_
  refine Emits.after (emits_lift _) fun _ => Emits.after (emits_ask fun _ => rfl) fun _ => ?_
  exact Emits.after (emits_lift _) fun _ => emits_pure _

theorem prepare_emits : Emits signerCall (prepare app request) [] := by
  refine Emits.after (checkChainNameAvailability_emits _) fun _ => ?_
  refine Emits.after (checkChainNameAvailability_emits _) fun _ => Emits.after (emits_lift _) fun _ => ?_
  refine Emits.after receiveVersion_emits fun (agreed, routed) => Emits.after (emits_lift _) fun version => ?_
  refine Emits.after (emits_lift _) fun _ => Emits.after (emits_lift _) fun _ => ?_
  refine Emits.after (sentEvent_emits routed) fun event => Emits.after (validate_emits agreed event) fun pins => ?_
  refine Emits.after (emits_ask fun _ => rfl) fun _ => Emits.after (emits_lift _) fun built => ?_
  refine Emits.after (emits_ask fun _ => rfl) fun _ => Emits.after (emits_lift _) fun _ => ?_
  split
  · exact emits_throw _
  · exact emits_pure _

/-! ## Which calls the wallets get -/

theorem callSigner_emits (dst hash : String) (wallets : List String) :
    Emits signerCall (callSigner app dst hash wallets) (wallets.map fun wallet => (dst, wallet, hash)) := by
  induction wallets with
  | nil => exact emits_pure ()
  | cons wallet wallets ih => exact Emits.bind (l := [(dst, wallet, hash)]) (emits_ask fun _ => rfl) fun _ => ih

/-- Between two points of a list lies what was started between them. -/
theorem take_drop_append_drop {α : Type} (l : List α) {i j : Nat} (h : i ≤ j) :
    (l.take j).drop i ++ l.drop j = l.drop i := by
  conv_rhs => rw [← List.take_append_drop j l, List.drop_append]
  rw [List.length_take]
  by_cases hj : j ≤ l.length
  · rw [Nat.sub_eq_zero_of_le (by omega : i ≤ min j l.length), List.drop_zero]
  · rw [List.drop_eq_nil_of_le (by omega : l.length ≤ j), List.drop_nil]

/-- The calls go to the configured wallets, in their order and each once. -/
theorem signWallets_emits (dst hash : String) (wallets : List String) (started : Nat) :
    Emits signerCall (signWallets app dst hash wallets started)
      ((wallets.drop started).map fun wallet => (dst, wallet, hash)) := by
  induction wallets generalizing started with
  | nil =>
    rw [List.drop_nil]
    exact emits_pure []
  | cons wallet wallets ih =>
    refine Emits.after (emits_ask fun _ => rfl) fun polled => ?_
    generalize hstarted : max started (max 1 (min polled maxConcurrentWalletSigns)) = started'
    obtain ⟨rest, rfl⟩ : ∃ rest, started' = rest + 1 := ⟨started' - 1, by omega⟩
    have hsplit := take_drop_append_drop (wallet :: wallets) (show started ≤ rest + 1 by omega)
    rw [← hsplit, List.map_append, List.drop_succ_cons]
    refine Emits.bind (callSigner_emits dst hash _) fun _ => ?_
    refine Emits.after (emits_ask fun _ => rfl) fun answer => ?_
    refine Emits.after (emits_lift _) fun signature => ?_
    rw [Nat.add_sub_cancel, ← List.append_nil (List.map ..)]
    exact Emits.bind (ih rest) fun signatures => emits_pure _

/-- **No wallet signs before every check has passed.** Whenever the signer is
called, the request was cleared before it for the hash that is signed; the call
is for the requested destination, and the calls up to it are the first ones of
that chain's wallets, in order. -/
theorem signs_only_when_cleared (hrefresh : RefreshKeepsId app) (request : PillarApiRequestV2)
    {before after : List Entry}
    {dst wallet hash : String}
    (h : (signRequestV2Inner app request []).2 = before ++ ⟨.pillarSign dst wallet hash, ()⟩ :: after) :
    (∃ event, Cleared request before event hash) ∧ dst = request.dst ∧
      ∃ wallets, app.walletsByChainName request.dst = .some wallets ∧
        signerCalls before ++ [(dst, wallet, hash)] <+: wallets.map fun wallet => (request.dst, wallet, hash) := by
  have hemits : Emits signerCall (prepare app request) [] := prepare_emits
  obtain ⟨added, hadded, hsilent, -⟩ := hemits []
  have hnone : signerCalls added = [] := List.prefix_nil.mp hsilent
  have hnot : (⟨.pillarSign dst wallet hash, ()⟩ : Entry) ∉ added := by
    intro hmem
    exact absurd (List.filterMap_eq_nil_iff.mp hnone _ hmem) (Option.some_ne_none _)
  rw [List.nil_append] at hadded
  cases hprepare : prepare app request [] with
  | mk result s =>
  rw [hprepare] at hadded
  simp only at hadded
  subst hadded
  cases result with
  | error e =>
    have hrun : (signRequestV2Inner app request []).2 = s := by simp only [signRequestV2Inner, Bind.bind, hprepare]
    rw [hrun] at h
    rw [h] at hnot
    exact absurd (List.mem_append_right before List.mem_cons_self) hnot
  | ok prepared =>
    obtain ⟨⟨event, hcleared⟩, hwallets⟩ := prepare_ok hrefresh hprepare
    have hemits' : Emits signerCall (signWallets app request.dst prepared.built.hashCallData prepared.wallets 0) _ :=
      signWallets_emits request.dst prepared.built.hashCallData prepared.wallets 0
    obtain ⟨signed, hsigned, hcalls, -⟩ := hemits' s
    have hrun : (signRequestV2Inner app request []).2 = s ++ signed := by
      simp only [signRequestV2Inner, Bind.bind, hprepare]
      split
      · next signatures t hsign => rw [hsign] at hsigned; exact hsigned
      · next e t hsign => rw [hsign] at hsigned; exact hsigned
    obtain ⟨mid, rfl, rfl⟩ := split_of_notMem (h.symm.trans hrun) hnot
    have hall : signerCalls mid ++ [(dst, wallet, hash)] <+:
        prepared.wallets.map fun wallet => (request.dst, wallet, prepared.built.hashCallData) := by
      refine List.IsPrefix.trans ?_ hcalls
      rw [List.filterMap_append, List.filterMap_cons]
      exact ⟨signerCalls after, by rw [List.append_assoc]; rfl⟩
    have hmem := hall.subset (List.mem_append_right _ (List.mem_singleton.mpr rfl))
    obtain ⟨wallet', -, heq⟩ := List.mem_map.mp hmem
    cases heq
    refine ⟨⟨event, hcleared.mono (List.prefix_append s mid)⟩, rfl, prepared.wallets, hwallets, ?_⟩
    rw [signerCalls, List.filterMap_append]
    rw [signerCalls] at hnone
    rw [hnone, List.nil_append]
    exact hall

/-! A request on a small app, whose every answer is that of a check that passes. -/

def sampleId : LzMessageId where
  pathwayId := { srcChainName := "ethereum", dstChainName := "base", extra := [] }
  nonce := 7
  ulnSendVersion := .string "V302"

def sampleRequest : PillarApiRequestV2 where
  srcTxHash := "0xab12"
  lzMessageId := sampleId
  signingContext := .message 1000 .none .none 15
  messageHash := "0x00"

def sampleAnswer : (q : Question) → Answer q
  | .available _ => true
  | .availableNames => ["ethereum", "base"]
  | .ulnReceiveVersion _ => .ok "V2"
  | .getLzSentEvent txHash id =>
    .ok { lzMessageId := id, message := "0x", txHash, sourceEvidence := .none, extra := [], readBlockPins := [] }
  | .refreshUlnV2SentEvent event => .ok (.some ⟨event, .none⟩)
  | .validateMessageHash .. => .ok ()
  | .joinOrder => ⟨[.payloadSigned, .readiness, .expiration], by decide⟩
  | .validateReadiness .. => .ok [⟨"base", 5, "0x01"⟩]
  | .validateExpiration .. => .ok ()
  | .validatePayloadSigned .. => .ok (.some 12)
  | .validateExtraContext .. => .ok ()
  | .buildDvnHashCallData .. => .ok ⟨"0xcd", .null⟩
  | .auditPrepare .. => .ok ()
  | .polled => 2
  | .pillarSign .. => ()
  | .walletSigned wallet => .ok ⟨wallet, "0x1b"⟩

def sampleApp : App where
  oracle _ q := sampleAnswer q
  walletsByChainName chain := if chain = "base" then .some ["first", "second", "third"] else .none
  crates :=
    { hex := Hex.HexCrate.plain, bs58 := fun _ => .error "",
      keccak256 := fun _ => ⟨List.replicate 32 0, Abi.Bytes.length_zeros⟩ }
  debugMode := false
  pathwayJson _ := ""
  jsString _ := .none
  displayJson _ := ""

/-- The second wallet's call, the third still waiting to be polled. -/
theorem second_wallet_signs_when_cleared :
    let told := (signRequestV2Inner sampleApp sampleRequest []).2
    (∃ event, Cleared sampleRequest (told.take 13) event "0xcd") ∧ "base" = sampleRequest.dst ∧
      ∃ wallets, sampleApp.walletsByChainName sampleRequest.dst = .some wallets ∧
        signerCalls (told.take 13) ++ [("base", "second", "0xcd")]
          <+: wallets.map fun wallet => (sampleRequest.dst, wallet, "0xcd") := by
  have hcall : ((signRequestV2Inner sampleApp sampleRequest []).2[13]?).bind signerCall =
      .some ("base", "second", "0xcd") := by decide +kernel
  exact signs_only_when_cleared (fun t event refreshed h => by cases h; rfl) sampleRequest (eq_at_signerCall hcall)

end Pillar.Workflow
