import Apokryphos.GuardedRequests

/-!
The checks of a request under a configuration that the validator accepted. The
issuer of a token is compared with the configured one after trailing slashes are
trimmed from the latter alone. The times are compared with saturating additions,
but for one plain addition that is safe because the validator bounds the replay
window from below. From above nothing bounds it, and the deadline of a proof must
still fit the clock.
-/
namespace ConfiguredChecks
open Digests GuardedRequests MachineWords OidcContexts Outcomes ProofValidation ReplayStore
open ServerConfig SigningKeys Texts TokenValidation UrlTexts

structure Named (claims : TokenClaims) (ctx : OidcContext) : Prop where
  sub : claims.sub.isSome = true
  iss : claims.iss = some (trimEndMatches '/' ctx.issuerUrl.text)
  iat : claims.iat.isSome = true
  aud : claims.aud = some (.single ctx.audience)
  cnf : ∃ text, claims.cnf = some ⟨some text⟩

variable {claims : TokenClaims} {ctx : OidcContext} {now exp iat : UInt64}

/-- With everything before in place, the times decide the failure, unless it is
    about the bound key behind them. -/
theorem checkClaims_error_iff (named : Named claims ctx) (dated : claims.exp = some exp)
    {failure : AuthFailure} (other : failure ≠ .tokenMissingClaim "cnf.jkt") :
    checkClaims claims ctx now = .error failure ↔
      (saturatingAdd exp ctx.authConfig.clockSkewSecs ≤ now ∧ failure = .tokenExpired) ∨
      (now < saturatingAdd exp ctx.authConfig.clockSkewSecs ∧
        (∃ nbf ∈ claims.nbf, saturatingAdd now ctx.authConfig.clockSkewSecs < nbf) ∧
        failure = .tokenNotYetValid) := by
  obtain ⟨sub,hsub⟩ := Option.isSome_iff_exists.mp named.sub
  obtain ⟨iat,hiat⟩ := Option.isSome_iff_exists.mp named.iat
  obtain ⟨text,hcnf⟩ := named.cnf
  simp only [checkClaims, hsub, named.iss, hiat, dated, named.aud, hcnf, AudienceField.single?,
    bind_error_iff, okOr_error_iff, rejectIf_error_iff, okOr_ok_iff, rejectIf_ok_iff, Option.some.injEq,
    reduceCtorEq, false_and, false_or, exists_eq_left', ne_eq, not_true_eq_false, exists_const, true_and,
    not_false_eq_true, UInt64.not_le, eq_comm (b := failure)]
  constructor
  · rintro (expired | ⟨fresh,early | ⟨_,bad | ⟨bytes,_,rest⟩⟩⟩)
    · exact Or.inl expired
    · exact Or.inr ⟨fresh,early⟩
    · exact absurd bad.2 other
    · split at rest
      · cases rest
      · cases rest
        exact absurd rfl other
  · rintro (expired | ⟨fresh,early⟩)
    · exact Or.inl expired
    · exact Or.inr ⟨fresh,Or.inl early⟩

theorem expired_iff (named : Named claims ctx) (dated : claims.exp = some exp) (below : now < u64Max) :
    checkClaims claims ctx now = .error .tokenExpired ↔
      exp.toNat + ctx.authConfig.clockSkewSecs.toNat ≤ now.toNat := by
  rw [checkClaims_error_iff named dated (by simp), saturatingAdd_le_iff below]
  simp

theorem early_iff (named : Named claims ctx) (dated : claims.exp = some exp) (below : now < u64Max) :
    checkClaims claims ctx now = .error .tokenNotYetValid ↔
      now.toNat < exp.toNat + ctx.authConfig.clockSkewSecs.toNat ∧
        ∃ nbf ∈ claims.nbf, now.toNat + ctx.authConfig.clockSkewSecs.toNat < nbf.toNat := by
  rw [checkClaims_error_iff named dated (by simp), ← UInt64.not_le, saturatingAdd_le_iff below]
  simp [saturatingAdd_lt_iff]

def Dated (jose : Jose) (parseUrl : UrlParser) (rawProof requestMethod : String) (effectiveUri : Url)
    (iat : UInt64) : Prop :=
  ∃ header alg jwk key claims htu htuUrl, readHeader jose rawProof = .ok (header, alg) ∧
    header.typ = some "dpop+jwt" ∧ header.jwk = some jwk ∧ jose.fromJwk jwk = some key ∧
    jose.decodeProof rawProof key (proofSettings alg) = some claims ∧
    claims.htm = some requestMethod ∧ claims.htu = some htu ∧ parseUrl htu = .ok htuUrl ∧
    urlsEquivalentCt htuUrl effectiveUri = true ∧ claims.iat = some iat

theorem stale_iff {jose : Jose} {parseUrl : UrlParser} {rawProof requestMethod : String}
    {effectiveUri : Url} (dated : Dated jose parseUrl rawProof requestMethod effectiveUri iat)
    (accessToken : AccessToken) (rawToken : String) :
    inspectProof jose parseUrl rawProof requestMethod effectiveUri accessToken rawToken ctx now =
      .error .proofIatStale ↔ inWindow iat now ctx.authConfig = false := by
  obtain ⟨header,alg,jwk,key,claims,htu,htuUrl,read,typ,embedded,loads,verifies,method,hhtu,parsed,
    same,hiat⟩ := dated
  cases fresh : inWindow iat now ctx.authConfig with
  | false =>
    simp [inspectProof, read, typ, embedded, loads, verifies, method, hhtu, parsed, same, hiat, fresh,
      Bind.bind, Except.bind, okOr, orFail, rejectIf]
  | true =>
    have other : computeJwkThumbprint jwk ≠ .error .proofIatStale := by
      intro failed
      cases computeJwkThumbprint_error failed
    simp [-bind_pure_comp, inspectProof, read, typ, embedded, loads, verifies, method, hhtu, hiat, fresh,
      other, bind_error_iff, okOr_error_iff, orFail_error_iff, rejectIf_error_iff,
      pure_error_iff]

/-- For every configuration that `parse_auth` returns the checks of the times are
    exact over the integers, whatever the times are. -/
theorem time_checks_exact {usizeMax : Nat} {part : Option PartialAuth} {cfg : AuthConfig}
    (parsed : parseAuth usizeMax part = .ok cfg) (configured : ctx.authConfig = cfg)
    (below : now < u64Max) :
    cfg.dpopFreshnessSecs.toNat + cfg.clockSkewSecs.toNat < 2 ^ 64 ∧
    (∀ jose parseUrl rawProof requestMethod effectiveUri accessToken rawToken iat,
      Dated jose parseUrl rawProof requestMethod effectiveUri iat →
      (inspectProof jose parseUrl rawProof requestMethod effectiveUri accessToken rawToken ctx now ≠
          .error .proofIatStale ↔
        (now.toNat - cfg.dpopFreshnessSecs.toNat - cfg.clockSkewSecs.toNat : Int) ≤ iat.toNat ∧
          (iat.toNat : Int) ≤ now.toNat + cfg.clockSkewSecs.toNat)) ∧
    (∀ claims exp, Named claims ctx → claims.exp = some exp →
      (checkClaims claims ctx now ≠ .error .tokenExpired ∧
          checkClaims claims ctx now ≠ .error .tokenNotYetValid ↔
        (now.toNat : Int) < exp.toNat + cfg.clockSkewSecs.toNat ∧
          ∀ nbf ∈ claims.nbf, (nbf.toNat : Int) ≤ now.toNat + cfg.clockSkewSecs.toNat)) := by
  have accepted := parseAuth_accepted parsed
  have covers := accepted.window_covers
  have bound := word_lt cfg.jtiReplayWindowSecs
  subst configured
  refine ⟨by omega,?_,?_⟩
  · intro jose parseUrl rawProof requestMethod effectiveUri accessToken rawToken iat dated
    rw [ne_eq, stale_iff dated, Bool.not_eq_false, inWindow_iff accepted]
    omega
  · intro claims exp named dated
    rw [ne_eq, expired_iff named dated below, ne_eq, early_iff named dated below]
    constructor
    · rintro ⟨fresh,begun⟩
      refine ⟨by omega,?_⟩
      intro nbf member
      by_contra late
      exact begun ⟨by omega,nbf,member,by omega⟩
    · rintro ⟨fresh,begun⟩
      refine ⟨by omega,?_⟩
      rintro ⟨_,nbf,member,late⟩
      have bound := begun nbf member
      omega

theorem time_checks_exact_default :
    inspectProof (soloJose soloClaims (soloProof "https://vault.test/" 100).claims) plainParser "proof"
        "GET" soloUrl soloToken "token" (soloContext AuthConfig.default) 191 = .error .proofIatStale ∧
      checkClaims soloClaims (soloContext AuthConfig.default) 1059 ≠ .error .tokenExpired := by
  have parsed : parseAuth 0 none = .ok AuthConfig.default := rfl
  have configured : (soloContext AuthConfig.default).authConfig = AuthConfig.default := rfl
  have proofs := (time_checks_exact parsed configured (show (191 : UInt64) < u64Max by decide)).2.1
  have tokens := (time_checks_exact parsed configured (show (1059 : UInt64) < u64Max by decide)).2.2
  have dated : Dated (soloJose soloClaims (soloProof "https://vault.test/" 100).claims) plainParser
      "proof" "GET" soloUrl 100 :=
    ⟨_,.ps256,soloKey,soloKey,_,_,soloUrl,rfl,rfl,rfl,rfl,rfl,rfl,rfl,by decide +kernel,rfl,rfl⟩
  have named : Named soloClaims (soloContext AuthConfig.default) :=
    ⟨rfl,by decide +kernel,rfl,rfl,_,rfl⟩
  constructor
  · by_contra other
    have fresh := (proofs _ _ _ _ _ soloToken "token" 100 dated).mp other
    revert fresh
    decide
  · exact ((tokens soloClaims 1000 named rfl).mpr (by decide)).1

/-- A proof that passed every other check, with a new identifier and room for it, is
    accepted if and only if the replay window still fits the clock. -/
theorem fresh_proof_accepted_iff {parsers : Parsers} {usizeMax : Nat} {p : PartialConfig} {cfg : Config}
    (valid : validate parsers usizeMax p = .ok cfg) (configured : ctx.authConfig = cfg.auth)
    {jose : Jose} {parseUrl : UrlParser} {rawProof requestMethod : String} {effectiveUri : Url}
    {accessToken : AccessToken} {rawToken : String} {instant : Instant} {store : JtiReplayStore}
    {proof : DpopProof} (shared : store.config = cfg.auth)
    (inspected : inspectProof jose parseUrl rawProof requestMethod effectiveUri accessToken rawToken ctx
      now = .ok proof)
    (unused : proof.key ctx ∉ store.entries)
    (room : store.entries.size < cfg.auth.maxReplayEntries) :
    (∃ after deadline, validateProof jose parseUrl rawProof requestMethod effectiveUri accessToken
        rawToken ctx now instant store = (.ok proof, after) ∧
      after.entries.lookup (proof.key ctx) = some deadline ∧
      instant + (cfg.auth.dpopFreshnessSecs.toNat + cfg.auth.clockSkewSecs.toNat) * nanosPerSec ≤
        deadline) ↔
    instant + cfg.auth.jtiReplayWindowSecs.toNat * nanosPerSec < endOfTime := by
  rw [validateProof_spends inspected, configured]
  constructor
  · rintro ⟨after,_,spent,_,_⟩
    obtain ⟨_,deadline,fits,_⟩ := spendProof_ok spent
    obtain ⟨same,bound⟩ := checkedAddSecs_some fits
    rw [← same]
    exact bound
  · intro bound
    obtain ⟨after,inserted⟩ : ∃ after, tryInsert store (proof.key ctx)
        (instant + cfg.auth.jtiReplayWindowSecs.toNat * nanosPerSec) = (.ok (), after) :=
      ⟨_,tryInsert_ok_iff.mpr ⟨unused,shared ▸ room,rfl⟩⟩
    have covers := (validate_accepted valid).window_covers
    refine ⟨after,_,?_,tryInsert_lookup inserted,?_⟩
    · rw [checkedAddSecs_fits bound]
      exact spendProof_accepts inserted
    · exact Nat.add_le_add_left (Nat.mul_le_mul_right nanosPerSec covers) instant

theorem sample_valid (part : Option PartialAuth) (found : AuthConfig)
    (evaluates : (validate RefreshTasks.samplePlatform.parsers RefreshTasks.samplePlatform.usizeMax
      { RefreshTasks.samplePartial with auth := part }).toOption.map Config.auth = some found) :
    ∃ cfg, validate RefreshTasks.samplePlatform.parsers RefreshTasks.samplePlatform.usizeMax
      { RefreshTasks.samplePartial with auth := part } = .ok cfg ∧ cfg.auth = found := by
  obtain ⟨cfg,valid,same⟩ := Option.map_eq_some_iff.mp evaluates
  exact ⟨cfg,toOption_some_iff.mp valid,same⟩

theorem solo_shown (cfg : AuthConfig) (fresh : inWindow 0 0 cfg = true) :
    inspectProof (soloJose soloClaims (soloProof "https://vault.test/" 0).claims) plainParser "proof"
      "GET" soloUrl soloToken "token" (soloContext cfg) 0 = .ok (soloProof "https://vault.test/" 0) := by
  have parsed : plainParser "https://vault.test/" = .ok soloUrl := by decide +kernel
  exact solo_inspected parsed rfl rfl rfl fresh

theorem fresh_proof_accepted_default :
    ∃ after deadline, validateProof (soloJose soloClaims (soloProof "https://vault.test/" 0).claims)
        plainParser "proof" "GET" soloUrl soloToken "token" (soloContext AuthConfig.default) 0 0
        (JtiReplayStore.new AuthConfig.default) = (.ok (soloProof "https://vault.test/" 0), after) ∧
      after.entries.lookup ((soloProof "https://vault.test/" 0).key (soloContext AuthConfig.default)) =
        some deadline ∧ 0 + (30 + 60) * nanosPerSec ≤ deadline := by
  obtain ⟨cfg,valid,same⟩ := sample_valid none AuthConfig.default (by decide +kernel)
  have configured : (soloContext AuthConfig.default).authConfig = cfg.auth := same.symm
  have shared : (JtiReplayStore.new AuthConfig.default).config = cfg.auth := same.symm
  have room : (JtiReplayStore.new AuthConfig.default).entries.size < cfg.auth.maxReplayEntries := by
    rw [same]
    decide
  have bound : 0 + cfg.auth.jtiReplayWindowSecs.toNat * nanosPerSec < endOfTime := by
    rw [same]
    decide
  have accepted := (fresh_proof_accepted_iff valid configured shared
    (solo_shown AuthConfig.default (by decide)) (AList.notMem_empty _) room).mpr bound
  rw [same] at accepted
  exact accepted

def widestWindow : PartialAuth where
  clockSkewSecs := none
  dpopFreshnessSecs := none
  jwksRefreshSecs := none
  discoveryRefreshSecs := none
  onDemandRefreshMinIntervalSecs := none
  jtiReplayWindowSecs := some (.string "18446744073709551615")
  maxReplayEntries := none

/-- The widest window is accepted at startup, and refuses every proof afterwards. -/
theorem widest_window_refuses_proof :
    ∃ cfg, validate RefreshTasks.samplePlatform.parsers RefreshTasks.samplePlatform.usizeMax
        { RefreshTasks.samplePartial with auth := some widestWindow } = .ok cfg ∧
      inspectProof (soloJose soloClaims (soloProof "https://vault.test/" 0).claims) plainParser "proof"
        "GET" soloUrl soloToken "token" (soloContext cfg.auth) 0 =
          .ok (soloProof "https://vault.test/" 0) ∧
      (soloProof "https://vault.test/" 0).key (soloContext cfg.auth) ∉
        (JtiReplayStore.new cfg.auth).entries ∧
      (JtiReplayStore.new cfg.auth).entries.size < cfg.auth.maxReplayEntries ∧
      validateProof (soloJose soloClaims (soloProof "https://vault.test/" 0).claims) plainParser "proof"
        "GET" soloUrl soloToken "token" (soloContext cfg.auth) 0 0 (JtiReplayStore.new cfg.auth) =
          (.error .proofIatStale, JtiReplayStore.new cfg.auth) := by
  obtain ⟨cfg,valid,same⟩ := sample_valid (some widestWindow)
    { AuthConfig.default with jtiReplayWindowSecs := u64Max } (by decide +kernel)
  have shown := solo_shown cfg.auth (by rw [same]; decide)
  refine ⟨cfg,valid,shown,AList.notMem_empty _,by rw [same]; decide,?_⟩
  have beyond : checkedAddSecs 0 cfg.auth.jtiReplayWindowSecs = none := by
    rw [same]
    decide
  rw [validateProof_spends shown]
  change spendProof _ _ (checkedAddSecs 0 cfg.auth.jtiReplayWindowSecs) _ = _
  rw [beyond]
  rfl

theorem issuer_mismatch {now : UInt64} (failed : checkClaims claims ctx now = .error .tokenIssuerMismatch) :
    ∃ iss, claims.iss = some iss ∧ iss ≠ trimEndMatches '/' ctx.issuerUrl.text := by
  simp only [checkClaims, bind_error_iff, okOr_error_iff, okOr_ok_iff, rejectIf_error_iff,
    rejectIf_ok_iff, reduceCtorEq, and_false, false_or] at failed
  obtain ⟨_,_,iss,named,_,_,_,_,_,_,_,_,_,_,_,_,⟨other,_⟩ | ⟨_,_,_,_,_,_,_,_,_,_,rest⟩⟩ := failed
  · exact ⟨iss,named,other⟩
  · split at rest
    · cases rest
    · cases rest

/-- A token that names the configured issuer passes the check of the issuer if and
    only if the configured text does not end in a slash. -/
theorem configured_issuer_accepted_iff {parsers : Parsers} {tag : AudienceTag} {issuer audience : String}
    {oidc : OidcAudienceConfig} (_accepted : OidcAudienceConfig.new parsers tag issuer audience = .ok oidc)
    (normal : oidc.issuerUrl.text = issuer) :
    (∀ (ctx : OidcContext) (claims : TokenClaims) (now : UInt64), ctx.issuerUrl = oidc.issuerUrl →
      claims.iss = some issuer → checkClaims claims ctx now ≠ .error .tokenIssuerMismatch) ↔
    issuer.toList.getLast? ≠ some '/' := by
  rw [← trimEndMatches_eq_iff]
  constructor
  · intro passes
    by_contra other
    refine passes { soloContext AuthConfig.default with issuerUrl := oidc.issuerUrl }
      { soloClaims with iss := some issuer } 0 rfl rfl ?_
    have trimmed : issuer ≠ trimEndMatches '/' oidc.issuerUrl.text := by
      rw [normal]
      exact Ne.symm other
    simp [checkClaims, soloClaims, AudienceField.single?, okOr, rejectIf, trimmed, Bind.bind, Except.bind]
  · intro same ctx claims now url named failed
    obtain ⟨iss,found,other⟩ := issuer_mismatch failed
    rw [named, Option.some.injEq] at found
    rw [url, normal, same] at other
    exact other found.symm

theorem configured_issuer_accepted_tenant :
    ∃ oidc, OidcAudienceConfig.new RefreshTasks.samplePlatform.parsers .vault "https://idp.test/tenant"
        "vault" = .ok oidc ∧
      ∀ ctx claims now, ctx.issuerUrl = oidc.issuerUrl → claims.iss = some "https://idp.test/tenant" →
        checkClaims claims ctx now ≠ .error .tokenIssuerMismatch := by
  have accepted : OidcAudienceConfig.new RefreshTasks.samplePlatform.parsers .vault
      "https://idp.test/tenant" "vault" =
        .ok ⟨plainUrl "https" "https://idp.test/tenant" "idp.test/tenant".toList,"vault"⟩ := by
    decide +kernel
  exact ⟨_,accepted,(configured_issuer_accepted_iff accepted (by decide +kernel)).mpr (by decide +kernel)⟩

theorem slash_issuer_locked_out :
    ∃ oidc, OidcAudienceConfig.new RefreshTasks.samplePlatform.parsers .vault "https://idp.test/" "vault" =
        .ok oidc ∧ oidc.issuerUrl.text = "https://idp.test/" ∧
      checkClaims { soloClaims with iss := some "https://idp.test/" }
        { soloContext AuthConfig.default with issuerUrl := oidc.issuerUrl } 0 =
          .error .tokenIssuerMismatch := by
  refine ⟨⟨plainUrl "https" "https://idp.test/" "idp.test/".toList,"vault"⟩,?_,?_,?_⟩
  · decide +kernel
  · decide +kernel
  · decide +kernel

end ConfiguredChecks
