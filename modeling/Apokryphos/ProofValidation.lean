import Apokryphos.ReplayStore
import Apokryphos.TokenValidation

/-!
Validation of DPoP proofs: the signature under the key the proof itself carries,
the method and the URL of the request, freshness, the binding to the access
token by key thumbprint and by token hash, and last the single use of the proof
identifier. Only a proof that passed every other check claims its identifier.
-/
namespace ProofValidation
open Digests MachineWords OidcContexts Outcomes ReplayStore ServerConfig SigningKeys
open TokenValidation UrlTexts

structure DpopProof where
  alg : JwsAlg
  htm : String
  htu : String
  iat : UInt64
  jti : String
  thumbprint : Bytes32
  ath : String
  deriving DecidableEq

def computeAth (rawToken : String) : String := base64urlEncode (sha256 (utf8 rawToken)).val

def proofSettings (alg : JwsAlg) : Validation :=
  { Validation.new alg.toJwtAlgorithm with
    validateAud := false
    validateExp := false
    validateNbf := false
    requiredSpecClaims := []
    aud := some [] }

/-- Component by component; userinfo on either side is refused. -/
def urlsEquivalentCt (a b : Url) : Bool :=
  let schemeEq := a.scheme == b.scheme
  let hostEq := a.host == b.host
  let portEq := a.portOrKnownDefault == b.portOrKnownDefault
  let pathEq := a.path == b.path
  let queryEq := a.query == b.query
  let noUserinfo := a.username == "" && a.password == none && b.username == "" && b.password == none
  schemeEq && hostEq && portEq && pathEq && queryEq && noUserinfo

/-- The thumbprint of an embedded key. Unlike for a published key, a type that
    has none is an error and not a panic. -/
def computeJwkThumbprint (jwk : RawJwk) : Except AuthFailure Bytes32 :=
  match jwk.algorithm with
  | .ellipticCurve curve xText yText => do
    rejectIf (curve ≠ .p256) .proofSignatureInvalid
    let x ← okOr (base64urlDecode xText) .proofSignatureInvalid
    let y ← okOr (base64urlDecode yText) .proofSignatureInvalid
    if sizes : x.length = 32 ∧ y.length = 32 then
      return jwkThumbprint (.ecP256 ⟨x, left_size sizes⟩ ⟨y, right_size sizes⟩)
    else .error .proofSignatureInvalid
  | .rsa nText eText => do
    let n ← okOr (base64urlDecode nText) .proofSignatureInvalid
    let e ← okOr (base64urlDecode eText) .proofSignatureInvalid
    return jwkThumbprint (.rsa n e)
  | .octetKey _ | .octetKeyPair _ _ => .error .proofSignatureInvalid

theorem computeJwkThumbprint_error {jwk : RawJwk} {failure : AuthFailure}
    (failed : computeJwkThumbprint jwk = .error failure) : failure = .proofSignatureInvalid := by
  unfold computeJwkThumbprint at failed
  cases parameters : jwk.algorithm with
  | ellipticCurve curve x y =>
    simp only [parameters, bind_error_iff, rejectIf_error_iff, okOr_error_iff, checked_error_iff]
      at failed
    rcases failed with ⟨_,same⟩ | ⟨_,_,⟨_,same⟩ | ⟨_,_,⟨_,same⟩ | ⟨_,_,_,same⟩⟩⟩
    · exact same.symm
    · exact same.symm
    · exact same.symm
    · exact same.symm
  | rsa n e =>
    simp only [parameters, bind_error_iff, okOr_error_iff, pure_error_iff, and_false, exists_const,
      or_false] at failed
    rcases failed with ⟨_,same⟩ | ⟨_,_,_,same⟩
    · exact same.symm
    · exact same.symm
  | octetKey | octetKeyPair =>
    simp only [parameters] at failed
    cases failed
    rfl

/-- `iat` may lie the skew ahead, and behind by freshness and skew together. -/
def inWindow (iat now : UInt64) (authConfig : AuthConfig) : Bool :=
  if iat ≤ now then
    saturatingSub now iat ≤ authConfig.dpopFreshnessSecs + authConfig.clockSkewSecs
  else saturatingSub iat now ≤ authConfig.clockSkewSecs

def inspectProof (jose : Jose) (parseUrl : UrlParser) (rawProof requestMethod : String)
    (effectiveUri : Url) (accessToken : AccessToken) (rawToken : String) (ctx : OidcContext)
    (now : UInt64) : Except AuthFailure DpopProof := do
  let (header, alg) ← readHeader jose rawProof
  rejectIf (header.typ ≠ some "dpop+jwt") .proofSignatureInvalid
  let embeddedJwk ← okOr header.jwk .proofSignatureInvalid
  let decodingKey ← okOr (jose.fromJwk embeddedJwk) .proofSignatureInvalid
  let claims ← okOr (jose.decodeProof rawProof decodingKey (proofSettings alg))
    .proofSignatureInvalid
  let htm ← okOr claims.htm (.proofMissingClaim "htm")
  rejectIf (htm ≠ requestMethod) .proofHtmMismatch
  let htu ← okOr claims.htu (.proofMissingClaim "htu")
  let htuUrl ← orFail (parseUrl htu) .proofHtuMismatch
  rejectIf (urlsEquivalentCt htuUrl effectiveUri = false) .proofHtuMismatch
  let iat ← okOr claims.iat (.proofMissingClaim "iat")
  rejectIf (inWindow iat now ctx.authConfig = false) .proofIatStale
  let thumbprint ← computeJwkThumbprint embeddedJwk
  rejectIf (thumbprint ≠ accessToken.cnfJkt) .proofJktMismatch
  let claimedAth ← okOr claims.ath (.proofMissingClaim "ath")
  let ath := computeAth rawToken
  rejectIf (claimedAth ≠ ath) .proofAthMismatch
  let jti ← okOr claims.jti (.proofMissingClaim "jti")
  return { alg, htm, htu, iat, jti, thumbprint, ath }

def replayFailure : InsertError → AuthFailure
  | .replayed => .proofReplayed
  | .memoryPressure => .memoryPressure

def DpopProof.key (proof : DpopProof) (ctx : OidcContext) : JtiKey :=
  JtiKey.new ctx.tag.asJtiKeyByte proof.jti

/-- The last check: the proof identifier is claimed until the deadline. A
    deadline past the end of the clock refuses the proof. -/
def spendProof (proof : DpopProof) (key : JtiKey) (deadline : Option Instant)
    (replayStore : JtiReplayStore) : Except AuthFailure DpopProof × JtiReplayStore :=
  match deadline with
  | none => (.error .proofIatStale, replayStore)
  | some deadline =>
    match tryInsert replayStore key deadline with
    | (.ok _, store) => (.ok proof, store)
    | (.error e, store) => (.error (replayFailure e), store)

def validateProof (jose : Jose) (parseUrl : UrlParser) (rawProof requestMethod : String)
    (effectiveUri : Url) (accessToken : AccessToken) (rawToken : String) (ctx : OidcContext)
    (now : UInt64) (instant : Instant) (replayStore : JtiReplayStore) :
    Except AuthFailure DpopProof × JtiReplayStore :=
  match inspectProof jose parseUrl rawProof requestMethod effectiveUri accessToken rawToken ctx
      now with
  | .error failure => (.error failure, replayStore)
  | .ok proof =>
    spendProof proof (proof.key ctx)
      (checkedAddSecs instant ctx.authConfig.jtiReplayWindowSecs) replayStore

/-- What a proof text carries, by itself: the embedded key verifies it, and these
    are its claims. -/
def Carries (jose : Jose) (rawProof : String) (alg : JwsAlg) (jwk : RawJwk) (claims : DpopClaims) :
    Prop :=
  ∃ header key, jose.decodeHeader rawProof = some header ∧ header.alg = alg.toJwtAlgorithm ∧
    header.typ = some "dpop+jwt" ∧ header.jwk = some jwk ∧ jose.fromJwk jwk = some key ∧
    jose.decodeProof rawProof key (proofSettings alg) = some claims

def DpopProof.claims (proof : DpopProof) : DpopClaims where
  htm := some proof.htm
  htu := some proof.htu
  iat := some proof.iat
  jti := some proof.jti
  ath := some proof.ath

structure ProofFacts (jose : Jose) (parseUrl : UrlParser) (rawProof requestMethod : String)
    (effectiveUri : Url) (accessToken : AccessToken) (rawToken : String) (ctx : OidcContext)
    (now : UInt64) (proof : DpopProof) : Prop where
  carries : ∃ jwk, computeJwkThumbprint jwk = .ok accessToken.cnfJkt ∧
    Carries jose rawProof proof.alg jwk proof.claims
  htm : proof.htm = requestMethod
  htu : ∃ htuUrl, parseUrl proof.htu = .ok htuUrl ∧ urlsEquivalentCt htuUrl effectiveUri = true
  fresh : inWindow proof.iat now ctx.authConfig = true
  ath : proof.ath = computeAth rawToken

theorem inspectProof_ok {jose : Jose} {parseUrl : UrlParser} {rawProof requestMethod : String}
    {effectiveUri : Url} {accessToken : AccessToken} {rawToken : String} {ctx : OidcContext}
    {now : UInt64} {proof : DpopProof}
    (inspected : inspectProof jose parseUrl rawProof requestMethod effectiveUri accessToken rawToken
      ctx now = .ok proof) :
    ProofFacts jose parseUrl rawProof requestMethod effectiveUri accessToken rawToken ctx now
      proof := by
  simp only [inspectProof, bind_ok_iff, okOr_ok_iff, orFail_ok_iff, rejectIf_ok_iff, pure_ok_iff,
    not_not, Bool.not_eq_false, Prod.exists] at inspected
  obtain ⟨header,alg,read,_,typ,jwk,hjwk,key,loads,claims,decoded,htm,hhtm,_,method,htu,hhtu,htuUrl,
    parsed,_,equivalent,iat,hiat,_,fresh,thumbprint,computed,_,bound,ath,hath,_,same,jti,hjti,rfl⟩ :=
    inspected
  obtain ⟨found,allowed⟩ := readHeader_ok read
  obtain ⟨htm',htu',iat',jti',ath'⟩ := claims
  cases hhtm
  cases hhtu
  cases hiat
  cases hjti
  cases hath
  subst same
  exact {
    carries := ⟨jwk,bound ▸ computed,header,key,found,allowed,typ,hjwk,loads,decoded⟩
    htm := method
    htu := ⟨htuUrl,parsed,equivalent⟩
    fresh := fresh
    ath := rfl }

theorem carries_unique {jose : Jose} {rawProof : String} {alg alg' : JwsAlg} {jwk jwk' : RawJwk}
    {claims claims' : DpopClaims} (first : Carries jose rawProof alg jwk claims)
    (second : Carries jose rawProof alg' jwk' claims') : claims = claims' := by
  obtain ⟨header,key,found,allowed,_,hjwk,loads,decoded⟩ := first
  obtain ⟨header',key',found',allowed',_,hjwk',loads',decoded'⟩ := second
  rw [found, Option.some.injEq] at found'
  subst found'
  rw [hjwk, Option.some.injEq] at hjwk'
  subst hjwk'
  rw [loads, Option.some.injEq] at loads'
  subst loads'
  have same : alg = alg' := by
    rw [allowed] at allowed'
    cases alg <;> cases alg' <;> first | rfl | cases allowed'
  subst same
  rw [decoded, Option.some.injEq] at decoded'
  exact decoded'

theorem inWindow_iff {iat now : UInt64} {cfg : AuthConfig} (accepted : Accepted cfg) :
    inWindow iat now cfg = true ↔ iat.toNat ≤ now.toNat + cfg.clockSkewSecs.toNat ∧
      now.toNat ≤ iat.toNat + cfg.dpopFreshnessSecs.toNat + cfg.clockSkewSecs.toNat := by
  have total := accepted.sum_toNat
  unfold inWindow
  by_cases past : iat ≤ now
  · rw [if_pos past, decide_eq_true_iff, UInt64.le_iff_toNat_le, saturatingSub_toNat, total]
    rw [UInt64.le_iff_toNat_le] at past
    omega
  · rw [if_neg past, decide_eq_true_iff, UInt64.le_iff_toNat_le, saturatingSub_toNat]
    rw [UInt64.le_iff_toNat_le] at past
    omega

theorem urlsEquivalentCt_target {a b : Url} (equivalent : urlsEquivalentCt a b = true) :
    a.path = b.path ∧ a.query = b.query := by
  simp only [urlsEquivalentCt, Bool.and_eq_true, beq_iff_eq] at equivalent
  exact ⟨equivalent.1.1.2,equivalent.1.2⟩

theorem spendProof_ok {proof found : DpopProof} {key : JtiKey} {deadline : Option Instant}
    {store store' : JtiReplayStore} (spent : spendProof proof key deadline store = (.ok found, store')) :
    found = proof ∧ ∃ d, deadline = some d ∧ tryInsert store key d = (.ok (), store') := by
  unfold spendProof at spent
  split at spent
  · cases spent
  · split at spent
    · rename_i inserted
      cases spent
      exact ⟨rfl,_,rfl,inserted⟩
    · cases spent

theorem validateProof_ok {jose : Jose} {parseUrl : UrlParser} {rawProof requestMethod : String}
    {effectiveUri : Url} {accessToken : AccessToken} {rawToken : String} {ctx : OidcContext}
    {now : UInt64} {instant : Instant} {store store' : JtiReplayStore} {proof : DpopProof}
    (accepted : validateProof jose parseUrl rawProof requestMethod effectiveUri accessToken rawToken
      ctx now instant store = (.ok proof, store')) :
    ProofFacts jose parseUrl rawProof requestMethod effectiveUri accessToken rawToken ctx now proof ∧
      ∃ deadline, checkedAddSecs instant ctx.authConfig.jtiReplayWindowSecs = some deadline ∧
        tryInsert store (proof.key ctx) deadline = (.ok (), store') := by
  unfold validateProof at accepted
  split at accepted
  · cases accepted
  · rename_i found inspected
    obtain ⟨rfl,deadline,fits,inserted⟩ := spendProof_ok accepted
    exact ⟨inspectProof_ok inspected,deadline,fits,inserted⟩

theorem spendProof_accepts {proof : DpopProof} {key : JtiKey} {deadline : Instant}
    {store store' : JtiReplayStore} (inserted : tryInsert store key deadline = (.ok (), store')) :
    spendProof proof key (some deadline) store = (.ok proof, store') := by
  simp only [spendProof, inserted]

theorem validateProof_spends {jose : Jose} {parseUrl : UrlParser} {rawProof requestMethod : String}
    {effectiveUri : Url} {accessToken : AccessToken} {rawToken : String} {ctx : OidcContext}
    {now : UInt64} {instant : Instant} {store : JtiReplayStore} {proof : DpopProof}
    (inspected : inspectProof jose parseUrl rawProof requestMethod effectiveUri accessToken rawToken
      ctx now = .ok proof) :
    validateProof jose parseUrl rawProof requestMethod effectiveUri accessToken rawToken ctx now
      instant store = spendProof proof (proof.key ctx)
        (checkedAddSecs instant ctx.authConfig.jtiReplayWindowSecs) store := by
  unfold validateProof
  rw [inspected]

theorem validateProof_accepts {jose : Jose} {parseUrl : UrlParser} {rawProof requestMethod : String}
    {effectiveUri : Url} {accessToken : AccessToken} {rawToken : String} {ctx : OidcContext}
    {now : UInt64} {instant deadline : Instant} {store store' : JtiReplayStore} {proof : DpopProof}
    (inspected : inspectProof jose parseUrl rawProof requestMethod effectiveUri accessToken rawToken
      ctx now = .ok proof)
    (fits : checkedAddSecs instant ctx.authConfig.jtiReplayWindowSecs = some deadline)
    (inserted : tryInsert store (proof.key ctx) deadline = (.ok (), store')) :
    validateProof jose parseUrl rawProof requestMethod effectiveUri accessToken rawToken ctx now
      instant store = (.ok proof, store') := by
  rw [validateProof_spends inspected, fits]
  exact spendProof_accepts inserted

theorem spendProof_store (proof : DpopProof) (key : JtiKey) (deadline : Option Instant)
    (store : JtiReplayStore) :
    (spendProof proof key deadline store).2 = store ∨
      ∃ d outcome, tryInsert store key d = (outcome, (spendProof proof key deadline store).2) := by
  cases deadline with
  | none => exact Or.inl rfl
  | some d =>
    right
    cases inserted : tryInsert store key d with
    | mk outcome store' =>
      refine ⟨d,outcome,?_⟩
      cases outcome <;> simp [spendProof, inserted]

theorem validateProof_store {jose : Jose} {parseUrl : UrlParser} {rawProof requestMethod : String}
    {effectiveUri : Url} {accessToken : AccessToken} {rawToken : String} {ctx : OidcContext}
    {now : UInt64} {instant : Instant} {store store' : JtiReplayStore}
    {result : Except AuthFailure DpopProof}
    (validated : validateProof jose parseUrl rawProof requestMethod effectiveUri accessToken rawToken
      ctx now instant store = (result, store')) :
    store' = store ∨ ∃ key deadline outcome, tryInsert store key deadline = (outcome, store') := by
  unfold validateProof at validated
  split at validated
  · cases validated
    exact Or.inl rfl
  · rename_i proof _
    rcases spendProof_store proof (proof.key ctx)
      (checkedAddSecs instant ctx.authConfig.jtiReplayWindowSecs) store with same | called
    · left
      rw [validated] at same
      exact same
    · right
      obtain ⟨d,outcome,inserted⟩ := called
      rw [validated] at inserted
      exact ⟨_,d,outcome,inserted⟩

theorem urlsEquivalentCt_self {u : Url} (user : u.username = "") (secret : u.password = none) :
    urlsEquivalentCt u u = true := by
  simp [urlsEquivalentCt, user, secret]

def soloKey : RawJwk where
  keyAlgorithm := some .ps256
  keyId := none
  algorithm := .rsa "AAAA" "AQAB"

def soloThumbprint : Bytes32 := jwkThumbprint (.rsa [0, 0, 0] [1, 0, 1])

def soloJose (token : TokenClaims) (proof : DpopClaims) : Jose where
  Key := RawJwk
  decodeHeader raw :=
    if raw = "proof" then some ⟨.ps256, some "dpop+jwt", none, some soloKey⟩
    else if raw = "token" then some ⟨.ps256, none, none, none⟩
    else none
  fromJwk jwk := some jwk
  decodeToken raw key _ := if raw = "token" ∧ key = soloKey then .ok token else .error .other
  decodeProof raw key _ := if raw = "proof" ∧ key = soloKey then some proof else none

def soloProof (htu : String) (iat : UInt64) : DpopProof where
  alg := .ps256
  htm := "GET"
  htu := htu
  iat := iat
  jti := "id"
  thumbprint := soloThumbprint
  ath := computeAth "token"

def soloUrl : Url where
  scheme := "https"
  username := ""
  password := none
  host := some "vault.test"
  port := none
  path := "/"
  query := none
  fragment := none
  text := "https://vault.test/"

def soloToken : AccessToken where
  sub := "user"
  aud := "vault"
  iss := "https://vault.test"
  exp := 1000
  iat := 0
  nbf := none
  cnfJkt := soloThumbprint

def soloContext (cfg : AuthConfig) : OidcContext where
  tag := .vault
  issuerUrl := soloUrl
  audience := "vault"
  jwks := ⟨∅, AList.singleton soloThumbprint ⟨none, .ps256, soloThumbprint, soloKey⟩,
    [⟨none, .ps256, soloThumbprint, soloKey⟩]⟩
  discovery := ⟨soloUrl⟩
  authConfig := cfg
  refreshNotify := 0
  lastOnDemandRefresh := 0
  lastRefreshCompleted := 0
  other := some .admin

theorem solo_inspected {token : TokenClaims} {parseUrl : UrlParser} {htu : String} {url : Url}
    {accessToken : AccessToken} {ctx : OidcContext} {iat now : UInt64}
    (parsed : parseUrl htu = .ok url) (user : url.username = "") (secret : url.password = none)
    (bound : accessToken.cnfJkt = soloThumbprint)
    (fresh : inWindow iat now ctx.authConfig = true) :
    inspectProof (soloJose token (soloProof htu iat).claims) parseUrl "proof" "GET" url accessToken
      "token" ctx now = .ok (soloProof htu iat) := by
  have thumbprint : computeJwkThumbprint soloKey = .ok soloThumbprint := rfl
  simp only [inspectProof, bind_ok_iff, okOr_ok_iff, orFail_ok_iff, rejectIf_ok_iff, pure_ok_iff,
    not_not, Bool.not_eq_false, Prod.exists]
  exact ⟨_,.ps256,rfl,(),rfl,soloKey,rfl,soloKey,rfl,_,rfl,"GET",rfl,(),rfl,htu,rfl,url,parsed,(),
    urlsEquivalentCt_self user secret,iat,rfl,(),fresh,_,thumbprint,(),bound.symm,_,rfl,(),rfl,"id",
    rfl,rfl⟩

end ProofValidation
