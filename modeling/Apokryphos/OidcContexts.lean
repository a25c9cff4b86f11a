import Apokryphos.ServerConfig
import Apokryphos.SigningKeys

/-!
The runtime carrier of one audience: its configuration, its cached key set and
discovery document, and the two timestamps of the on-demand refresh. Startup
builds both contexts from what the providers answered, refuses key sets that
share a thumbprint, and wires each context to the other one.
-/
namespace OidcContexts
open Outcomes ServerConfig SigningKeys Texts UrlTexts

structure Discovery where
  jwksUri : Url
  deriving DecidableEq

inductive DiscoveryFetchError where
  | urlBuild (issuer source : String)
  | http
  | badStatus (status : Nat)
  | parse
  | jwksUriParse (value source : String)
  | jwksUriScheme (scheme : String)
  deriving DecidableEq, Repr

def discoverySuffix : String := "/.well-known/openid-configuration"

/-- What the deployment fixes: the libraries, the width of `usize`, and whether
    the build enforces `https` for the key endpoint (a debug build with test
    helpers does not). -/
structure Platform where
  parsers : Parsers
  usizeMax : Nat
  enforceHttps : Bool

def parseUrlOr {E : Type} (parseUrl : UrlParser) (text : String) (failure : String → E) :
    Except E Url :=
  match parseUrl text with
  | .ok url => .ok url
  | .error source => .error (failure source)

/-- The document is the advertised `jwks_uri`; nothing else of it is kept. -/
def fetchDiscovery (platform : Platform) (issuerUrl : Url) (outcome : HttpOutcome String) :
    Except DiscoveryFetchError Discovery := do
  let _ ← parseUrlOr platform.parsers.url (trimEndMatches '/' issuerUrl.text ++ discoverySuffix)
    (.urlBuild issuerUrl.text)
  match outcome with
  | .failed => .error .http
  | .responded status document => do
    rejectIf (status < 200 ∨ 300 ≤ status) (.badStatus status)
    let value ← okOr document .parse
    let jwksUri ← parseUrlOr platform.parsers.url value (.jwksUriParse value)
    rejectIf (platform.enforceHttps = true ∧ jwksUri.scheme ≠ "https")
      (.jwksUriScheme jwksUri.scheme)
    return ⟨jwksUri⟩

/-- `refreshNotify` counts the `notify_waiters` calls: a waiter remembers the count
    it registered at and is woken by any later call, and no permit is kept for
    one that registers afterwards. `other` is the context the weak reference
    upgrades to: absent until startup wires it, and again once that context is
    gone. -/
structure OidcContext where
  tag : AudienceTag
  issuerUrl : Url
  audience : String
  jwks : Jwks
  discovery : Discovery
  authConfig : AuthConfig
  refreshNotify : Nat
  lastOnDemandRefresh : UInt64
  lastRefreshCompleted : UInt64
  other : Option AudienceTag

structure OverlapError where
  contextWithExtraKey : AudienceTag
  deriving DecidableEq, Repr

inductive ContextInitError where
  | discoveryFetch (audience : AudienceTag) (source : DiscoveryFetchError)
  | jwksFetch (audience : AudienceTag) (source : JwksFetchError)
  | emptyJwks (audience : AudienceTag)
  | jwksOverlap (contextWithExtraKey : AudienceTag)
  deriving DecidableEq, Repr

structure ProviderAnswers where
  discovery : HttpOutcome String
  jwks : HttpOutcome JwkSet

def jwksInitFault (tag : AudienceTag) : Fault JwksFetchError → Fault ContextInitError
  | .panicked => .panicked
  | .error .empty => .error (.emptyJwks tag)
  | .error source => .error (.jwksFetch tag source)

def initSingleContext (platform : Platform) (tag : AudienceTag) (oidcCfg : OidcAudienceConfig)
    (authCfg : AuthConfig) (answers : ProviderAnswers) :
    Except (Fault ContextInitError) OidcContext := do
  let discovery ← (fetchDiscovery platform oidcCfg.issuerUrl answers.discovery).mapError
    fun source => .error (.discoveryFetch tag source)
  let jwks ← (fetchJwks answers.jwks).mapError (jwksInitFault tag)
  return {
    tag
    issuerUrl := oidcCfg.issuerUrl
    audience := oidcCfg.audience
    jwks
    discovery
    authConfig := authCfg
    refreshNotify := 0
    lastOnDemandRefresh := 0
    lastRefreshCompleted := 0
    other := none }

def checkDisjointJwks (a b : Jwks) (bTag : AudienceTag) : Except OverlapError Unit :=
  rejectIf (∃ tp ∈ b.iterThumbprints, tp ∈ a.iterThumbprints) ⟨bTag⟩

def initContexts (platform : Platform) (cfg : Config) (vault admin : ProviderAnswers) :
    Except (Fault ContextInitError) (OidcContext × OidcContext) := do
  let vaultCtx ← initSingleContext platform .vault cfg.vaultOidc cfg.auth vault
  let adminCtx ← initSingleContext platform .admin cfg.adminOidc cfg.auth admin
  (checkDisjointJwks vaultCtx.jwks adminCtx.jwks .admin).mapError
    fun e => .error (.jwksOverlap e.contextWithExtraKey)
  return ({ vaultCtx with other := some .admin }, { adminCtx with other := some .vault })

def Separate (a b : Jwks) : Prop := a.iterThumbprints.Disjoint b.iterThumbprints

instance (a b : Jwks) : Decidable (Separate a b) :=
  decidable_of_iff (∀ tp ∈ a.iterThumbprints, tp ∉ b.iterThumbprints) Iff.rfl

theorem separate_comm {a b : Jwks} (apart : Separate a b) : Separate b a :=
  fun _ left right => apart right left

theorem checkDisjointJwks_ok_iff {a b : Jwks} {bTag : AudienceTag} :
    checkDisjointJwks a b bTag = .ok () ↔ Separate a b := by
  simp only [checkDisjointJwks, rejectIf_ok_iff, not_exists, not_and]
  constructor
  · intro apart tp left right
    exact apart tp right left
  · intro apart tp right left
    exact apart left right

/-- A context as startup leaves it, before or after the wiring. -/
structure Fresh (ctx : OidcContext) (tag : AudienceTag) (oidcCfg : OidcAudienceConfig)
    (authCfg : AuthConfig) : Prop where
  tag_eq : ctx.tag = tag
  issuer_eq : ctx.issuerUrl = oidcCfg.issuerUrl
  audience_eq : ctx.audience = oidcCfg.audience
  config_eq : ctx.authConfig = authCfg
  claim_zero : ctx.lastOnDemandRefresh = 0
  completed_zero : ctx.lastRefreshCompleted = 0

theorem initSingleContext_fresh {platform : Platform} {tag : AudienceTag}
    {oidcCfg : OidcAudienceConfig} {authCfg : AuthConfig} {answers : ProviderAnswers}
    {ctx : OidcContext} (built : initSingleContext platform tag oidcCfg authCfg answers = .ok ctx) :
    Fresh ctx tag oidcCfg authCfg := by
  simp only [initSingleContext, bind_ok_iff, pure_ok_iff] at built
  obtain ⟨_,_,_,_,rfl⟩ := built
  constructor <;> rfl

theorem initContexts_ok {platform : Platform} {cfg : Config} {vault admin : ProviderAnswers}
    {v a : OidcContext} (built : initContexts platform cfg vault admin = .ok (v, a)) :
    Fresh v .vault cfg.vaultOidc cfg.auth ∧ Fresh a .admin cfg.adminOidc cfg.auth ∧
      v.other = some .admin ∧ a.other = some .vault ∧ Separate v.jwks a.jwks := by
  simp only [initContexts, bind_ok_iff, pure_ok_iff, mapError_ok_iff, Prod.mk.injEq] at built
  obtain ⟨vc,hv,ac,ha,_,apart,rfl,rfl⟩ := built
  have fv := initSingleContext_fresh hv
  have fa := initSingleContext_fresh ha
  exact ⟨⟨fv.1,fv.2,fv.3,fv.4,fv.5,fv.6⟩, ⟨fa.1,fa.2,fa.3,fa.4,fa.5,fa.6⟩, rfl, rfl,
    checkDisjointJwks_ok_iff.mp apart⟩

end OidcContexts
