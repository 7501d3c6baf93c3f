import Eamerald.Authorizer.DecisionLog
import Eamerald.Directory.Identity

/-! The subject of a token, and the user it stands for. A token is verified with the keys of the
issuer it names, which has to be one of the configured issuers; without any configured issuer no
signature is verified. -/

set_option autoImplicit false

namespace Eamerald.Authorizer

open Foundation Store Directory

structure JWT where
  acceptableTimeSkewSeconds : Int := 0
  allowedIssuers : List GoString := []
  expectedAudience : GoString := []

structure OidcConfiguration where
  issuer : GoString
  jwksURI : GoString

structure Token where
  issuer : Option GoString
  subject : Option GoString

/-- Without a key set the signature is not verified. -/
structure ParseOptions (κ : Type) where
  keySet : Option κ := none
  validate : Bool
  acceptableSkew : Int := 0
  audience : Option GoString := none

/-- URLs, the network, the cache of key sets and the token library. Their errors are texts. -/
structure World (κ : Type) where
  scheme : GoString → Except (List Piece) GoString
  newRequest : GoString → Except (List Piece) Unit
  get : GoString → Except (List Piece) (Nat × Except (List Piece) OidcConfiguration)
  register : GoString → Except (List Piece) Unit
  lookup : GoString → Except (List Piece) Unit
  fetch : GoString → Except (List Piece) κ
  parseString : GoString → ParseOptions κ → Except (List Piece) Token

section Resolver

variable {κ : Type} (world : World κ)

def trimSlash (url : GoString) : GoString := if url.getLast? = some '/' then url.dropLast else url

def fetchAndValidateConfig (targetIssuer : GoString) : Except (List Piece) OidcConfiguration := do
  let scheme ← (world.scheme targetIssuer).mapError (.text "invalid issuer URL syntax: " :: ·)
  if scheme ≠ "https".toList then
    throw [.text "insecure scheme ", .quoted scheme, .text ": issuer must use https"]
  let wellKnownURL := trimSlash targetIssuer ++ "/.well-known/openid-configuration".toList
  (world.newRequest wellKnownURL).mapError (.text "failed to create request: " :: ·)
  let (statusCode, body) ← (world.get wellKnownURL).mapError (.text "http request failed: " :: ·)
  if statusCode ≠ 200 then throw [.text "unexpected status code: ", .number statusCode]
  let config ← body.mapError (.text "failed to decode json configuration: " :: ·)
  if config.issuer ≠ targetIssuer then
    throw [.text "issuer mismatch: expected ", .quoted targetIssuer, .text ", got ", .quoted config.issuer]
  return config

abbrev Configs := Std.ExtTreeMap GoString OidcConfiguration

def hydrate : List GoString → Configs → Except (List Piece) Configs
  | [], issuerToConfig => .ok issuerToConfig
  | issuer :: rest, issuerToConfig => do
      let config ← fetchAndValidateConfig world issuer
      hydrate rest (issuerToConfig.insert issuer config)

variable (jwtConfig : JWT)

def start : Except (List Piece) Configs := do
  let issuerToConfig ← hydrate world jwtConfig.allowedIssuers ∅
  issuerToConfig.toList.forM fun entry => world.register entry.2.jwksURI
  issuerToConfig.toList.forM fun entry => world.lookup entry.2.jwksURI
  return issuerToConfig

def subjectOf (verifiedToken : Token) : Except (List Piece) GoString :=
  match verifiedToken.subject with
  | some subject => .ok subject
  | none => .error [.text "no verified subject found"]

def resolveSubjectInsecure (token : GoString) : Except (List Piece) GoString := do
  subjectOf (← world.parseString token
    { validate := true, acceptableSkew := jwtConfig.acceptableTimeSkewSeconds })

def verifiedOptions (keySet : κ) : ParseOptions κ where
  keySet := some keySet
  validate := true
  acceptableSkew := jwtConfig.acceptableTimeSkewSeconds
  audience := if jwtConfig.expectedAudience ≠ [] then some jwtConfig.expectedAudience else none

def resolveSubject (issuerToConfig : Configs) (token : GoString) : Except (List Piece) GoString := do
  let unverifiedToken ← world.parseString token { validate := false }
  let unverifiedIssuer := unverifiedToken.issuer.getD []
  if unverifiedIssuer = [] then throw [.text "unverified token does not contain an issuer field"]
  else if issuerToConfig.isEmpty then resolveSubjectInsecure world jwtConfig token
  else
    match issuerToConfig[unverifiedIssuer]? with
    | none => throw [.text "No mapping found of issuer ", .quoted unverifiedIssuer, .text " to JWKS URI"]
    | some config =>
        let keySet ← world.fetch config.jwksURI
        subjectOf (← world.parseString token (verifiedOptions jwtConfig keySet))

/-- The subject is that of a token whose signature, claims and audience hold, by the keys that
the issuer it names has published at its own address. -/
def Verified (token subject : GoString) : Prop :=
  ∃ issuer ∈ jwtConfig.allowedIssuers, ∃ unverified published keySet verified,
    world.parseString token { validate := false } = .ok unverified ∧ unverified.issuer = some issuer ∧
      world.scheme issuer = .ok "https".toList ∧ fetchAndValidateConfig world issuer = .ok published ∧
        published.issuer = issuer ∧ world.fetch published.jwksURI = .ok keySet ∧
          world.parseString token (verifiedOptions jwtConfig keySet) = .ok verified ∧ verified.subject = some subject

variable {world jwtConfig} {issuerToConfig : Configs} {token subject issuer : GoString} {config : OidcConfiguration}

theorem fetchAndValidateConfig_ok (fetched : fetchAndValidateConfig world issuer = .ok config) :
    world.scheme issuer = .ok "https".toList ∧ config.issuer = issuer := by
  obtain ⟨scheme, parsed, fetched⟩ := except_bind_eq_ok.mp fetched
  rw [except_mapError_eq_ok] at parsed
  split at fetched
  · cases fetched
  · rename_i secure
    obtain ⟨_, _, fetched⟩ := except_bind_eq_ok.mp fetched
    obtain ⟨⟨statusCode, body⟩, _, fetched⟩ := except_bind_eq_ok.mp fetched
    dsimp only at fetched
    split at fetched
    · cases fetched
    · obtain ⟨decoded, _, fetched⟩ := except_bind_eq_ok.mp fetched
      split at fetched
      · cases fetched
      · rename_i same
        cases fetched
        exact ⟨parsed.trans (congrArg Except.ok (not_not.mp secure)), not_not.mp same⟩

theorem hydrate_getElem? {issuers : List GoString} {before : Configs}
    (hydrated : hydrate world issuers before = .ok issuerToConfig) :
    (∀ issuer ∈ issuers, issuer ∈ issuerToConfig) ∧ (∀ issuer ∈ before, issuer ∈ issuerToConfig) ∧
      ∀ issuer config, issuerToConfig[issuer]? = some config →
        before[issuer]? = some config ∨ issuer ∈ issuers ∧ fetchAndValidateConfig world issuer = .ok config := by
  induction issuers generalizing before with
  | nil =>
      cases hydrated
      exact ⟨nofun, fun _ => id, fun _ _ => .inl⟩
  | cons first rest ih =>
      obtain ⟨config, fetched, hydrated⟩ := except_bind_eq_ok.mp hydrated
      obtain ⟨added, kept, known⟩ := ih hydrated
      refine ⟨List.forall_mem_cons.mpr ⟨kept first (by simp), added⟩, fun issuer there => kept issuer (by simp [there]),
        fun issuer other found => ?_⟩
      rcases known issuer other found with here | ⟨member, here⟩
      · rw [Std.ExtTreeMap.getElem?_insert] at here
        split at here
        · rename_i same
          obtain rfl := Std.LawfulEqCmp.compare_eq_iff_eq.mp same
          exact .inr ⟨List.mem_cons_self, fetched.trans (congrArg Except.ok (Option.some.inj here))⟩
        · exact .inl here
      · exact .inr ⟨List.mem_cons_of_mem _ member, here⟩

/-- With issuers configured, the subject is taken from a verified token only. -/
theorem resolveSubject_verified (started : start world jwtConfig = .ok issuerToConfig)
    (restricted : jwtConfig.allowedIssuers ≠ [])
    (resolved : resolveSubject world jwtConfig issuerToConfig token = .ok subject) :
    Verified world jwtConfig token subject := by
  obtain ⟨configs, hydrated, started⟩ := except_bind_eq_ok.mp started
  obtain ⟨_, _, started⟩ := except_bind_eq_ok.mp started
  obtain ⟨_, _, started⟩ := except_bind_eq_ok.mp started
  cases started
  obtain ⟨added, _, known⟩ := hydrate_getElem? hydrated
  obtain ⟨⟨named, claimed⟩, parsed, resolved⟩ := except_bind_eq_ok.mp resolved
  cases named with
  | none => cases resolved
  | some issuer =>
      have nonempty : ¬ issuerToConfig.isEmpty := by
        obtain ⟨first, member⟩ := List.exists_mem_of_ne_nil _ restricted
        rw [Std.ExtTreeMap.isEmpty_iff]
        rintro rfl
        exact Std.ExtTreeMap.not_mem_empty (added first member)
      dsimp only [Option.getD_some] at resolved
      split at resolved
      · cases resolved
      · split at resolved
        · cases resolved
        · rename_i config found
          obtain ⟨keySet, keys, resolved⟩ := except_bind_eq_ok.mp resolved
          obtain ⟨verified, checked, resolved⟩ := except_bind_eq_ok.mp resolved
          rcases known issuer config found with absent | ⟨member, published⟩
          · simp at absent
          · obtain ⟨secure, own⟩ := fetchAndValidateConfig_ok published
            refine ⟨issuer, member, _, config, keySet, verified, parsed, rfl, secure, published, own, keys, checked, ?_⟩
            unfold subjectOf at resolved
            split at resolved
            · rename_i same
              rw [same, Except.ok.inj resolved]
            · cases resolved

end Resolver

section Users

variable {κ ω μ : Type} [Wire ω μ] (library : Library μ) (engine : Engine ω) (model : μ) (world : World κ)
  (jwtConfig : JWT) (issuerToConfig : Configs) (iterate : Named Object → List (GoString × Object))
  (describe : Identity.Failure → Failure) (state : engine.State)

/-- A moment at which subjects and users are resolved by the tokens and the directory. -/
def Moment.resolving (moment : Moment) : Moment :=
  { moment with
    resolveSubject := fun token => (Authorizer.resolveSubject world jwtConfig issuerToConfig token).mapError .plain
    resolveIdentity := fun name =>
      (Identity.resolveIdentity library engine.backend model iterate name state).mapError describe }

variable {library engine model world jwtConfig issuerToConfig iterate describe state} {token : GoString}
  {direction : Identity.IdentityResolutionDirection}

end Users

section Sample

def oneIssuer : World Unit where
  scheme _ := .ok "https".toList
  newRequest _ := .ok ()
  get _ := .ok (200, .ok ⟨"https://i".toList, "https://i/keys".toList⟩)
  register _ := .ok ()
  lookup _ := .ok ()
  fetch _ := .ok ()
  parseString _ _ := .ok ⟨some "https://i".toList, some "alice".toList⟩

def oneIssuerConfig : JWT := { allowedIssuers := ["https://i".toList] }

def tokenMoment : Moment :=
  openMoment.resolving Simple.library boltEngine Identity.peopleModel oneIssuer oneIssuerConfig
    ((start oneIssuer oneIssuerConfig).toOption.getD ∅) (·.toList) (fun _ => .plain [])
    (boltEngine.reached Simple.library Identity.people)

end Sample

end Eamerald.Authorizer
