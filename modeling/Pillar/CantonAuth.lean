/-
The providers of Canton tokens kept for the `rpc` entries (`pillar-runtime`,
`canton_ledger.rs`), and whose credentials each of them asks with.

Providers are kept under the token URL, client, scope and audience joined by
line feeds, beside the secret they were made with. A percent-decoded parameter
may hold a line feed itself, so different entries may have one key;
`ownCredentials_iff` says in which runs that shows.
-/
import Pillar.CantonToken
import Pillar.Fields

namespace Pillar.CantonAuth

open Std (TreeMap)
open CantonToken (CantonOAuth2Config formPairs)
open Fields (append_cons_inj)

variable {T : Type}

/-! ## The code -/

/-- What `token_provider` reads of a parsed provider URI. -/
structure CantonChainUri where
  tokenUrl : Option String
  clientId : Option String
  clientSecret : Option String
  scope : Option String
  audience : Option String

/-- A provider as it is made. An `Arc` is told from the others by the number of
the call that made it. -/
structure CantonClientCredentials (T : Type) where
  made : Nat
  config : CantonOAuth2Config
  transport : T

structure CantonLedgerAuth (T : Type) where
  isLocal : Bool
  envClientSecret : Option String
  providers : TreeMap String (String × CantonClientCredentials T)
  /-- Calls so far; the code keeps no such number. -/
  calls : Nat

def forEnvironment (environment : String) (envClientSecret : Option String) : CantonLedgerAuth T where
  isLocal := environment = "localnet" || environment = "sandbox"
  envClientSecret
  providers := ∅
  calls := 0

def cantonOAuth2Required : String :=
  "Canton provider requires OAuth2 credentials (token-url, client-id, client-secret in URI or CANTON_CLIENT_SECRET)"

/-- `value.filter(|value| !value.is_empty())`. -/
def present (value : Option String) : Option String := value.filter (· ≠ "")

def providerKey (tokenUrl clientId : String) (scope audience : Option String) : String :=
  tokenUrl ++ "\n" ++ clientId ++ "\n" ++ scope.getD "" ++ "\n" ++ audience.getD ""

/-- `token_provider`, with what it leaves behind. -/
def CantonLedgerAuth.tokenProvider (auth : CantonLedgerAuth T) (uri : CantonChainUri) (transport : T) :
    Exec AppCoreError (CantonClientCredentials T) × CantonLedgerAuth T :=
  let called := { auth with calls := auth.calls + 1 }
  if auth.isLocal then
    (Exec.err (.internal "Canton sandbox/localnet ledger auth (a self-signed admin JWT) is not enabled"), called)
  else
    let secret := present (uri.clientSecret <|> auth.envClientSecret)
    match present uri.tokenUrl, present uri.clientId, secret with
    | .some tokenUrl, .some clientId, .some clientSecret =>
      let key := providerKey tokenUrl clientId uri.scope uri.audience
      let provider :=
        { made := auth.calls
          config := { tokenUrl, clientId, clientSecret, scope := uri.scope, audience := uri.audience }
          transport }
      let providers :=
        if auth.providers[key]?.all fun (secret, _) => secret ≠ clientSecret then
          auth.providers.insert key (clientSecret, provider)
        else auth.providers
      ((Exec.get providers[key]?).map Prod.snd, { called with providers })
    | _, _, _ => (Exec.err (.internal cantonOAuth2Required), called)

/-! ## Whose credentials -/

/-- The credentials of one entry: what its own provider would be made with. -/
def CantonLedgerAuth.ownConfig (auth : CantonLedgerAuth T) (uri : CantonChainUri) : Option CantonOAuth2Config :=
  if auth.isLocal then .none
  else
    match present uri.tokenUrl, present uri.clientId, present (uri.clientSecret <|> auth.envClientSecret) with
    | .some tokenUrl, .some clientId, .some clientSecret =>
      .some { tokenUrl, clientId, clientSecret, scope := uri.scope, audience := uri.audience }
    | _, _, _ => .none

def keyOf (config : CantonOAuth2Config) : String :=
  providerKey config.tokenUrl config.clientId config.scope config.audience

/-- Two configurations agree on all that is sent to the identity provider. -/
structure SameRequest (config config' : CantonOAuth2Config) : Prop where
  tokenUrl : config.tokenUrl = config'.tokenUrl
  clientId : config.clientId = config'.clientId
  clientSecret : config.clientSecret = config'.clientSecret
  scope : present config.scope = present config'.scope
  audience : present config.audience = present config'.audience

theorem SameRequest.symm {a b : CantonOAuth2Config} (h : SameRequest a b) : SameRequest b a :=
  ⟨h.tokenUrl.symm, h.clientId.symm, h.clientSecret.symm, h.scope.symm, h.audience.symm⟩

theorem SameRequest.trans {a b c : CantonOAuth2Config} (h : SameRequest a b) (h' : SameRequest b c) :
    SameRequest a c :=
  ⟨h.tokenUrl.trans h'.tokenUrl, h.clientId.trans h'.clientId, h.clientSecret.trans h'.clientSecret,
    h.scope.trans h'.scope, h.audience.trans h'.audience⟩

/-- What is posted, and where, is what `SameRequest` compares. -/
theorem sameRequest_iff {config config' : CantonOAuth2Config} : SameRequest config config' ↔
    config.tokenUrl = config'.tokenUrl ∧ formPairs config = formPairs config' := by
  have hform : formPairs config = formPairs config' ↔ config.clientId = config'.clientId ∧
      config.clientSecret = config'.clientSecret ∧ present config.scope = present config'.scope ∧
        present config.audience = present config'.audience := by
    simp only [formPairs, present, List.cons_append, List.nil_append, List.cons.injEq, Prod.mk.injEq, true_and,
      List.filterMap_cons, List.filterMap_nil]
    cases hs : config.scope.filter (· ≠ "") <;> cases hs' : config'.scope.filter (· ≠ "") <;>
      cases ha : config.audience.filter (· ≠ "") <;> cases ha' : config'.audience.filter (· ≠ "") <;> simp
  rw [hform]
  exact ⟨fun h => ⟨h.tokenUrl, h.clientId, h.clientSecret, h.scope, h.audience⟩,
    fun ⟨hu, hc, hs, ho, ha⟩ => ⟨hu, hc, hs, ho, ha⟩⟩

/-! ## Runs -/

/-- A call: the entry it is for, and the transport it is made with. -/
abbrev Call (T : Type) := CantonChainUri × T

/-- What a run of calls leaves behind. -/
def CantonLedgerAuth.after (auth : CantonLedgerAuth T) (calls : List (Call T)) : CantonLedgerAuth T :=
  calls.foldl (fun auth call => (auth.tokenProvider call.1 call.2).2) auth

/-- `call`, after the calls `before`, was given `provider`. -/
def CantonLedgerAuth.Gives (auth : CantonLedgerAuth T) (before : List (Call T)) (call : Call T)
    (provider : CantonClientCredentials T) : Prop :=
  ((auth.after before).tokenProvider call.1 call.2).1 = .ok provider

/-- Each entry's provider asks with the entry's own credentials, and entries
share a provider only when theirs agree. -/
structure OwnCredentials (auth : CantonLedgerAuth T) (calls : List (Call T)) : Prop where
  own : ∀ before call rest, calls = before ++ call :: rest → ∀ provider, auth.Gives before call provider →
    ∃ config, auth.ownConfig call.1 = .some config ∧ SameRequest provider.config config
  shared : ∀ before call rest before' call' rest', calls = before ++ call :: rest →
    calls = before' ++ call' :: rest' → ∀ provider provider', auth.Gives before call provider →
      auth.Gives before' call' provider' → provider.made = provider'.made →
      ∃ config config', auth.ownConfig call.1 = .some config ∧ auth.ownConfig call'.1 = .some config' ∧
        SameRequest config config'

/-- Two calls with one key and one secret, and no call in between that changed
the key's secret, have the same credentials. -/
def KeysTellApart (auth : CantonLedgerAuth T) (calls : List (Call T)) : Prop :=
  ∀ before call middle call' rest config config', calls = before ++ call :: (middle ++ call' :: rest) →
    auth.ownConfig call.1 = .some config → auth.ownConfig call'.1 = .some config' →
    keyOf config = keyOf config' → config.clientSecret = config'.clientSecret →
    (∀ other ∈ middle, ∀ config'', auth.ownConfig other.1 = .some config'' → keyOf config'' = keyOf config →
      config''.clientSecret = config.clientSecret) →
    SameRequest config config'

/-! ## One call -/

section
variable {auth : CantonLedgerAuth T} {uri : CantonChainUri} {config : CantonOAuth2Config}

theorem ownConfig_eq {auth auth' : CantonLedgerAuth T} (hlocal : auth'.isLocal = auth.isLocal)
    (hsecret : auth'.envClientSecret = auth.envClientSecret) : auth'.ownConfig = auth.ownConfig := by
  funext uri
  rw [CantonLedgerAuth.ownConfig, CantonLedgerAuth.ownConfig, hlocal, hsecret]

/-- A call that is refused keeps the providers as they are. -/
theorem tokenProvider_of_none (transport : T) (h : auth.ownConfig uri = .none) :
    ∃ e, auth.tokenProvider uri transport = (Exec.err e, { auth with calls := auth.calls + 1 }) := by
  unfold CantonLedgerAuth.ownConfig at h
  unfold CantonLedgerAuth.tokenProvider
  split at h
  · next hlocal => exact ⟨_, by rw [if_pos hlocal]⟩
  · next hlocal =>
    rw [if_neg hlocal]
    split at h
    · cases h
    · next hno =>
      dsimp only
      split
      · next htoken hclient hsecret => exact absurd hsecret (hno _ _ _ htoken hclient)
      · exact ⟨_, rfl⟩

/-- The key's provider after a call: the one kept under the call's secret, or a
new one. -/
def providerFor (auth : CantonLedgerAuth T) (config : CantonOAuth2Config) (transport : T) :
    CantonClientCredentials T :=
  match auth.providers[keyOf config]? with
  | .some (secret, provider) => if secret = config.clientSecret then provider else ⟨auth.calls, config, transport⟩
  | .none => ⟨auth.calls, config, transport⟩

/-- **A call that is not refused** returns its key's provider, and keeps it
under the key, beside the secret of the call. -/
theorem tokenProvider_of_some (transport : T) (h : auth.ownConfig uri = .some config) :
    ∃ providers, auth.tokenProvider uri transport =
        (.ok (providerFor auth config transport), { auth with providers, calls := auth.calls + 1 }) ∧
      ∀ key, providers[key]? = if key = keyOf config then
        .some (config.clientSecret, providerFor auth config transport) else auth.providers[key]? := by
  unfold CantonLedgerAuth.ownConfig at h
  split at h
  · cases h
  next hlocal =>
  split at h
  case h_2 => cases h
  next tokenUrl clientId clientSecret htoken hclient hsecret =>
  cases h
  unfold CantonLedgerAuth.tokenProvider providerFor keyOf
  rw [if_neg hlocal]
  simp only [htoken, hclient, hsecret]
  generalize hkey : providerKey tokenUrl clientId uri.scope uri.audience = key
  have hinsert : ∀ provider key', (auth.providers.insert key (clientSecret, provider))[key']? =
      if key' = key then .some (clientSecret, provider) else auth.providers[key']? := fun provider key' => by
    rw [TreeMap.getElem?_insert]
    exact if_congr (Std.LawfulEqCmp.compare_eq_iff_eq.trans eq_comm) rfl rfl
  cases hget : auth.providers[key]? with
  | none =>
    refine ⟨_, ?_, hinsert _⟩
    simp [Except.map]
  | some kept =>
    obtain ⟨secret, provider⟩ := kept
    by_cases hs : secret = clientSecret
    · subst hs
      refine ⟨auth.providers, ?_, fun key' => ?_⟩
      · simp [hget, Except.map]
      · split
        · next he => simp [he, hget]
        · rfl
    · let config : CantonOAuth2Config := ⟨tokenUrl, clientId, clientSecret, uri.scope, uri.audience⟩
      refine ⟨auth.providers.insert key (clientSecret, ⟨auth.calls, config, transport⟩), ?_, fun key' => ?_⟩
      · simp [hs, Except.map, config]
      · simp only [if_neg hs]
        exact hinsert _ key'

theorem tokenProvider_ownConfig (auth : CantonLedgerAuth T) (uri : CantonChainUri) (transport : T) :
    (auth.tokenProvider uri transport).2.ownConfig = auth.ownConfig ∧
      (auth.tokenProvider uri transport).2.calls = auth.calls + 1 := by
  cases h : auth.ownConfig uri with
  | none =>
    obtain ⟨e, he⟩ := tokenProvider_of_none transport h
    rw [he]
    exact ⟨ownConfig_eq rfl rfl, rfl⟩
  | some config =>
    obtain ⟨providers, he, -⟩ := tokenProvider_of_some transport h
    rw [he]
    exact ⟨ownConfig_eq rfl rfl, rfl⟩

end

/-! ## Every run -/

section
variable {auth : CantonLedgerAuth T} {before calls : List (Call T)} {call : Call T}
  {config : CantonOAuth2Config} {provider : CantonClientCredentials T}

theorem after_append (auth : CantonLedgerAuth T) (before : List (Call T)) (call : Call T) :
    auth.after (before ++ [call]) = ((auth.after before).tokenProvider call.1 call.2).2 := by
  simp [CantonLedgerAuth.after]

theorem after_ownConfig (auth : CantonLedgerAuth T) (calls : List (Call T)) :
    (auth.after calls).ownConfig = auth.ownConfig ∧ (auth.after calls).calls = auth.calls + calls.length := by
  induction calls using List.reverseRecOn with
  | nil => exact ⟨rfl, rfl⟩
  | append_singleton calls call ih =>
    obtain ⟨hown, hcalls⟩ := tokenProvider_ownConfig (auth.after calls) call.1 call.2
    rw [after_append, hown, hcalls, ih.1, ih.2, List.length_append, List.length_singleton]
    exact ⟨rfl, Nat.add_assoc ..⟩

/-- `provider`, kept under `key` and `secret` after `calls`, was made by one of
them, and none since changed the key's secret. -/
def MadeBy (auth : CantonLedgerAuth T) (calls : List (Call T)) (key secret : String)
    (provider : CantonClientCredentials T) : Prop :=
  ∃ earlier maker since config, calls = earlier ++ maker :: since ∧ auth.ownConfig maker.1 = .some config ∧
    keyOf config = key ∧ config.clientSecret = secret ∧ provider = ⟨earlier.length, config, maker.2⟩ ∧
    ∀ other ∈ since, ∀ config', auth.ownConfig other.1 = .some config' → keyOf config' = key →
      config'.clientSecret = secret

theorem MadeBy.append {key secret : String} (h : MadeBy auth before key secret provider)
    (hcall : ∀ config, auth.ownConfig call.1 = .some config → keyOf config = key → config.clientSecret = secret) :
    MadeBy auth (before ++ [call]) key secret provider := by
  obtain ⟨earlier, maker, since, config, rfl, hown, hkey, hsecret, hp, hsince⟩ := h
  refine ⟨earlier, maker, since ++ [call], config, by simp, hown, hkey, hsecret, hp, fun other ho => ?_⟩
  rcases List.mem_append.mp ho with ho | ho
  · exact hsince other ho
  · rw [List.mem_singleton.mp ho]
    exact hcall

/-- **No stale provider**: what is kept after any run was made by the last call
that gave the key its secret. -/
theorem after_madeBy (hempty : auth.providers = ∅) (hzero : auth.calls = 0) (calls : List (Call T)) :
    ∀ key secret provider, (auth.after calls).providers[key]? = .some (secret, provider) →
      MadeBy auth calls key secret provider := by
  induction calls using List.reverseRecOn with
  | nil =>
    intro key secret provider h
    rw [CantonLedgerAuth.after, List.foldl_nil, hempty] at h
    simp at h
  | append_singleton calls call ih =>
    obtain ⟨hown, hcalls⟩ := after_ownConfig auth calls
    intro key secret provider h
    rw [after_append] at h
    cases hconfig : auth.ownConfig call.1 with
    | none =>
      obtain ⟨e, he⟩ := tokenProvider_of_none call.2 (by rw [hown]; exact hconfig)
      rw [he] at h
      refine (ih key secret provider h).append fun config hc => ?_
      rw [hconfig] at hc
      cases hc
    | some config =>
      obtain ⟨providers, he, hget⟩ := tokenProvider_of_some call.2 (by rw [hown]; exact hconfig)
      rw [he] at h
      simp only [hget] at h
      split at h
      · next hkey =>
        obtain ⟨rfl, hp⟩ := Prod.mk.inj (Option.some.inj h)
        have hnew : MadeBy auth (calls ++ [call]) key config.clientSecret ⟨(auth.after calls).calls, config, call.2⟩ :=
          ⟨calls, call, [], config, rfl, hconfig, hkey.symm, rfl, by rw [hcalls, hzero, Nat.zero_add], by simp⟩
        rw [← hp, providerFor]
        split
        · next secret kept hkept =>
          split
          · next hs =>
            rw [← hkey, hs] at hkept
            refine (ih _ _ _ hkept).append fun config' hc _ => ?_
            rw [hconfig] at hc
            cases hc
            rfl
          · exact hnew
        · exact hnew
      · next hkey =>
        refine (ih key secret provider h).append fun config' hc hk => ?_
        rw [hconfig] at hc
        cases hc
        exact absurd hk.symm hkey

/-- What a call is given, it leaves under its own key and secret. -/
theorem gives_iff : auth.Gives before call provider ↔ ∃ config, auth.ownConfig call.1 = .some config ∧
    (auth.after (before ++ [call])).providers[keyOf config]? = .some (config.clientSecret, provider) := by
  rw [CantonLedgerAuth.Gives, after_append]
  have hown := (after_ownConfig auth before).1
  cases hconfig : auth.ownConfig call.1 with
  | none =>
    obtain ⟨e, he⟩ := tokenProvider_of_none call.2 (by rw [hown]; exact hconfig)
    rw [he]
    exact ⟨fun h => (by cases h), fun ⟨_, h, _⟩ => (by cases h)⟩
  | some config =>
    obtain ⟨providers, he, hget⟩ := tokenProvider_of_some call.2 (by rw [hown]; exact hconfig)
    rw [he]
    simp only [hget, Option.some.injEq, exists_eq_left', if_true, Prod.mk.injEq, true_and, Except.ok.injEq]

/-- A kept provider stays while no call changes the key's secret. -/
theorem kept_after {key secret : String} {since : List (Call T)}
    (hkept : (auth.after before).providers[key]? = .some (secret, provider))
    (hsince : ∀ other ∈ since, ∀ config, auth.ownConfig other.1 = .some config → keyOf config = key →
      config.clientSecret = secret) :
    (auth.after (before ++ since)).providers[key]? = .some (secret, provider) := by
  induction since using List.reverseRecOn with
  | nil => rwa [List.append_nil]
  | append_singleton since call ih =>
    have hrest := ih fun other ho => hsince other (List.mem_append_left _ ho)
    have hown := (after_ownConfig auth (before ++ since)).1
    rw [← List.append_assoc, after_append]
    cases hconfig : auth.ownConfig call.1 with
    | none =>
      obtain ⟨e, he⟩ := tokenProvider_of_none call.2 (by rw [hown]; exact hconfig)
      rwa [he]
    | some config =>
      obtain ⟨providers, he, hget⟩ := tokenProvider_of_some call.2 (by rw [hown]; exact hconfig)
      rw [he]
      simp only [hget]
      split
      · next hkey =>
        have hs := hsince call (by simp) config hconfig hkey.symm
        rw [hkey] at hrest
        simp only [providerFor, hrest, hs, if_true]
      · exact hrest

/-- Who made the provider that a call is given. -/
theorem Gives.madeBy (hempty : auth.providers = ∅) (hzero : auth.calls = 0) (h : auth.Gives before call provider) :
    ∃ config, auth.ownConfig call.1 = .some config ∧
      MadeBy auth (before ++ [call]) (keyOf config) config.clientSecret provider := by
  obtain ⟨config, hconfig, hkept⟩ := gives_iff.mp h
  exact ⟨config, hconfig, after_madeBy hempty hzero _ _ _ _ hkept⟩

/-- Where keys tell entries apart, the maker's credentials are the entry's. -/
theorem KeysTellApart.own (hapart : KeysTellApart auth calls) (rest : List (Call T))
    (hcalls : calls = before ++ call :: rest) (hconfig : auth.ownConfig call.1 = .some config)
    (hmade : MadeBy auth (before ++ [call]) (keyOf config) config.clientSecret provider) :
    SameRequest provider.config config := by
  obtain ⟨earlier, maker, since, config', hsplit, hmaker, hkey, hsecret, rfl, hsince⟩ := hmade
  rcases List.eq_nil_or_concat since with rfl | ⟨middle, last, rfl⟩
  · obtain ⟨-, heq⟩ := List.append_inj' hsplit rfl
    obtain rfl : call = maker := by simpa using heq
    rw [hconfig] at hmaker
    cases hmaker
    exact ⟨rfl, rfl, rfl, rfl, rfl⟩
  · rw [List.concat_eq_append, ← List.cons_append, ← List.append_assoc] at hsplit
    obtain ⟨hbefore, heq⟩ := List.append_inj' hsplit rfl
    obtain rfl : call = last := by simpa using heq
    refine hapart earlier maker middle call rest config' config ?_ hmaker hconfig hkey hsecret ?_
    · rw [hcalls, hbefore]
      simp
    · intro other ho config'' hc hk
      rw [hsecret]
      exact hsince other (by simp [ho]) config'' hc (hk.trans hkey)

/-- **Whose credentials a run asks with.** Every entry's provider asks with the
entry's own credentials, and is shared only with entries that have the same,
exactly when keys tell the calls of the run apart. -/
theorem ownCredentials_iff (environment : String) (envClientSecret : Option String) (calls : List (Call T)) :
    OwnCredentials (forEnvironment environment envClientSecret) calls ↔
      KeysTellApart (forEnvironment environment envClientSecret) calls := by
  generalize hauth : (forEnvironment environment envClientSecret : CantonLedgerAuth T) = auth
  have hempty : auth.providers = ∅ := by rw [← hauth]; rfl
  have hzero : auth.calls = 0 := by rw [← hauth]; rfl
  constructor
  · intro h before call middle call' rest config config' hcalls hconfig hconfig' hkey hsecret hmiddle
    -- The provider given to the first call is still there for the second.
    have hthere : (auth.after before).ownConfig call.1 = .some config := by
      rw [(after_ownConfig auth before).1]
      exact hconfig
    obtain ⟨providers, hp, hget⟩ := tokenProvider_of_some call.2 hthere
    have hgives : auth.Gives before call (providerFor (auth.after before) config call.2) :=
      congrArg Prod.fst hp
    obtain ⟨own, hown, hkept⟩ := gives_iff.mp hgives
    rw [hconfig] at hown
    cases hown
    have hsince : ∀ other ∈ middle ++ [call'], ∀ config'', auth.ownConfig other.1 = .some config'' →
        keyOf config'' = keyOf config → config''.clientSecret = config.clientSecret := fun other ho config'' hc hk => by
      rcases List.mem_append.mp ho with ho | ho
      · exact hmiddle other ho config'' hc hk
      · rw [List.mem_singleton.mp ho, hconfig'] at hc
        cases hc
        exact hsecret.symm
    have hlast := kept_after hkept hsince
    have hgives' : auth.Gives (before ++ call :: middle) call' (providerFor (auth.after before) config call.2) := by
      refine gives_iff.mpr ⟨config', hconfig', ?_⟩
      rw [← hkey, ← hsecret]
      simpa using hlast
    obtain ⟨own, hown, hsame⟩ := h.own before call _ hcalls _ hgives
    obtain ⟨own', hown', hsame'⟩ := h.own (before ++ call :: middle) call' rest (by simpa using hcalls) _ hgives'
    rw [hconfig] at hown
    rw [hconfig'] at hown'
    cases hown
    cases hown'
    exact hsame.symm.trans hsame'
  · intro h
    constructor
    · intro before call rest hcalls provider hgives
      obtain ⟨config, hconfig, hmade⟩ := Gives.madeBy hempty hzero hgives
      exact ⟨config, hconfig, h.own rest hcalls hconfig hmade⟩
    · intro before call rest before' call' rest' hcalls hcalls' provider provider' hgives hgives' hnumber
      obtain ⟨config, hconfig, hmade⟩ := Gives.madeBy hempty hzero hgives
      obtain ⟨config', hconfig', hmade'⟩ := Gives.madeBy hempty hzero hgives'
      have hsame := h.own rest hcalls hconfig hmade
      have hsame' := h.own rest' hcalls' hconfig' hmade'
      -- One number, one maker.
      obtain ⟨earlier, maker, since, made, hsplit, hmaker, -, -, rfl, -⟩ := hmade
      obtain ⟨earlier', maker', since', made', hsplit', hmaker', -, -, rfl, -⟩ := hmade'
      have hone : earlier ++ maker :: (since ++ rest) = earlier' ++ maker' :: (since' ++ rest') := by
        calc earlier ++ maker :: (since ++ rest) = (before ++ [call]) ++ rest := by rw [hsplit]; simp
          _ = calls := by rw [hcalls]; simp
          _ = (before' ++ [call']) ++ rest' := by rw [hcalls']; simp
          _ = earlier' ++ maker' :: (since' ++ rest') := by rw [hsplit']; simp
      obtain ⟨-, hmakers⟩ := List.append_inj hone hnumber
      obtain rfl : maker = maker' := by simpa using congrArg List.head? hmakers
      rw [hmaker] at hmaker'
      cases hmaker'
      exact ⟨config, config', hconfig, hconfig', hsame.symm.trans hsame'⟩

end

/-- One scope with a line feed at its end, one audience with it in front: one key. -/
def feedInScope : CantonChainUri :=
  ⟨.some "https://idp/token", .some "client", .some "secret", .some "x\n", .some "y"⟩

def feedInAudience : CantonChainUri :=
  ⟨.some "https://idp/token", .some "client", .some "secret", .some "x", .some "\ny"⟩

/-- The second entry is given the provider of the first, which asks with the
first one's scope and audience. -/
theorem feedInAudience_shares : ¬ OwnCredentials (forEnvironment "mainnet" .none : CantonLedgerAuth Unit)
    [(feedInScope, ()), (feedInAudience, ())] := fun h => by
  have hgives : (forEnvironment "mainnet" .none : CantonLedgerAuth Unit).Gives [(feedInScope, ())]
      (feedInAudience, ()) ⟨0, ⟨"https://idp/token", "client", "secret", .some "x\n", .some "y"⟩, ()⟩ := by
    rfl
  obtain ⟨config, hown, hsame⟩ := h.own [(feedInScope, ())] _ [] rfl _ hgives
  obtain rfl : ⟨"https://idp/token", "client", "secret", .some "x", .some "\ny"⟩ = config := Option.some.inj hown
  exact absurd hsame.scope (by decide)

/-! ## Without line feeds -/

/-- The first three fields of a key hold no line feed. -/
def OneLine (config : CantonOAuth2Config) : Prop :=
  '\n' ∉ config.tokenUrl.toList ∧ '\n' ∉ config.clientId.toList ∧ '\n' ∉ (config.scope.getD "").toList

theorem keyOf_injective {config config' : CantonOAuth2Config} (hline : OneLine config) (hline' : OneLine config')
    (h : keyOf config = keyOf config') : config.tokenUrl = config'.tokenUrl ∧ config.clientId = config'.clientId ∧
      config.scope.getD "" = config'.scope.getD "" ∧ config.audience.getD "" = config'.audience.getD "" := by
  have hfeed : "\n".toList = ['\n'] := rfl
  have hlist := congrArg String.toList h
  simp only [keyOf, providerKey, String.toList_append, List.append_assoc, hfeed, List.cons_append,
    List.nil_append] at hlist
  obtain ⟨hurl, hlist⟩ := append_cons_inj hline.1 hline'.1 hlist
  obtain ⟨hclient, hlist⟩ := append_cons_inj hline.2.1 hline'.2.1 hlist
  obtain ⟨hscope, haudience⟩ := append_cons_inj hline.2.2 hline'.2.2 hlist
  exact ⟨String.toList_inj.mp hurl, String.toList_inj.mp hclient, String.toList_inj.mp hscope,
    String.toList_inj.mp haudience⟩

theorem present_eq_of_getD {value value' : Option String} (h : value.getD "" = value'.getD "") :
    present value = present value' := by
  cases value <;> cases value' <;> simp_all [present, Option.filter]

/-- Where no token URL, client or scope holds a line feed, keys tell any calls apart. -/
theorem keysTellApart_of_oneLine {auth : CantonLedgerAuth T} {calls : List (Call T)}
    (h : ∀ call ∈ calls, ∀ config, auth.ownConfig call.1 = .some config → OneLine config) :
    KeysTellApart auth calls := by
  rintro before call middle call' rest config config' rfl hconfig hconfig' hkey hsecret -
  obtain ⟨hurl, hclient, hscope, haudience⟩ := keyOf_injective (h call (by simp) config hconfig)
    (h call' (by simp) config' hconfig') hkey
  exact ⟨hurl, hclient, hsecret, present_eq_of_getD hscope, present_eq_of_getD haudience⟩

end Pillar.CantonAuth
