import Apokryphos.OidcContexts

/-!
Validation of access tokens. The JOSE library is a parameter: a deterministic
decoder for headers, keys and signed claim sets. The candidates that the cached
key set offers for the token's header are tried in order; the claims are checked
afterwards, in a fixed order, so that the failure names the first check that
did not pass.
-/
namespace TokenValidation
open Digests MachineWords OidcContexts Outcomes ServerConfig SigningKeys Texts

inductive AuthFailure where
  | missingToken
  | missingProof
  | invalidAlg
  | tokenSignatureInvalid
  | tokenIssuerMismatch
  | tokenAudienceMismatch
  | tokenExpired
  | tokenNotYetValid
  | tokenMissingClaim (name : String)
  | proofSignatureInvalid
  | proofHtmMismatch
  | proofHtuMismatch
  | proofIatStale
  | proofJktMismatch
  | proofAthMismatch
  | proofReplayed
  | proofMissingClaim (name : String)
  | jwksRefreshFailed
  | memoryPressure
  deriving DecidableEq, Repr

structure JoseHeader where
  alg : Algorithm
  typ : Option String
  kid : Option String
  jwk : Option RawJwk
  deriving DecidableEq, Repr

structure Validation where
  algorithm : Algorithm
  leeway : UInt64
  validateExp : Bool
  validateNbf : Bool
  validateAud : Bool
  requiredSpecClaims : List String
  aud : Option (List String)
  deriving DecidableEq, Repr

/-- `Validation::new`. -/
def Validation.new (algorithm : Algorithm) : Validation where
  algorithm := algorithm
  leeway := 60
  validateExp := true
  validateNbf := false
  validateAud := true
  requiredSpecClaims := ["exp"]
  aud := none

inductive ErrorKind where
  | expiredSignature
  | immatureSignature
  | invalidIssuer
  | invalidAudience
  | invalidAlgorithm
  | invalidAlgorithmName
  | invalidKeyFormat
  | other
  deriving DecidableEq, Repr

inductive AudienceField where
  | single (value : String)
  | multiple (values : List String)
  deriving DecidableEq, Repr

/-- The array form is not accepted, not even with one element. -/
def AudienceField.single? : AudienceField → Option String
  | .single value => some value
  | .multiple _ => none

structure CnfClaim where
  jkt : Option String
  deriving DecidableEq, Repr

structure TokenClaims where
  sub : Option String
  aud : Option AudienceField
  iss : Option String
  exp : Option UInt64
  iat : Option UInt64
  nbf : Option UInt64
  cnf : Option CnfClaim
  deriving DecidableEq, Repr

structure DpopClaims where
  htm : Option String
  htu : Option String
  iat : Option UInt64
  jti : Option String
  ath : Option String
  deriving DecidableEq, Repr

/-- The JOSE library. A decoder verifies the signature under the key before it
    returns the claims. Errors that every caller discards are left out. -/
structure Jose where
  Key : Type
  decodeHeader : String → Option JoseHeader
  fromJwk : RawJwk → Option Key
  decodeToken : String → Key → Validation → Except ErrorKind TokenClaims
  decodeProof : String → Key → Validation → Option DpopClaims

structure AccessToken where
  sub : String
  aud : String
  iss : String
  exp : UInt64
  iat : UInt64
  nbf : Option UInt64
  cnfJkt : Bytes32
  deriving DecidableEq

def allowedAlg : Algorithm → Option JwsAlg
  | .ps256 => some .ps256
  | .es256 => some .es256
  | _ => none

def readHeader (jose : Jose) (raw : String) : Except AuthFailure (JoseHeader × JwsAlg) := do
  let header ← okOr (jose.decodeHeader raw) .invalidAlg
  let alg ← okOr (allowedAlg header.alg) .invalidAlg
  return (header, alg)

def tokenSettings (alg : JwsAlg) (authConfig : AuthConfig) : Validation :=
  { Validation.new alg.toJwtAlgorithm with
    validateAud := false
    validateExp := false
    validateNbf := false
    leeway := authConfig.clockSkewSecs
    requiredSpecClaims := []
    aud := some [] }

def mapJwtError : Option ErrorKind → AuthFailure
  | none => .tokenSignatureInvalid
  | some .expiredSignature => .tokenExpired
  | some .immatureSignature => .tokenNotYetValid
  | some .invalidIssuer => .tokenIssuerMismatch
  | some .invalidAudience => .tokenAudienceMismatch
  | some .invalidAlgorithm | some .invalidAlgorithmName | some .invalidKeyFormat => .invalidAlg
  | some .other => .tokenSignatureInvalid

/-- The loop over the candidates; a key the library cannot load is skipped. -/
def tryCandidates (jose : Jose) (rawJws : String) (validation : Validation) :
    Option ErrorKind → List Jwk → Except AuthFailure TokenClaims
  | lastErr, [] => .error (mapJwtError lastErr)
  | lastErr, candidate :: rest =>
    match jose.fromJwk candidate.jwk with
    | none => tryCandidates jose rawJws validation lastErr rest
    | some key =>
      match jose.decodeToken rawJws key validation with
      | .ok claims => .ok claims
      | .error e => tryCandidates jose rawJws validation (some e) rest

def tryDecodeWithCurrentJwks (jose : Jose) (rawJws : String) (header : JoseHeader)
    (validation : Validation) (jwks : Jwks) : Except AuthFailure TokenClaims :=
  let candidates := jwks.lookupCandidates header.kid
  if candidates.isEmpty then .error .tokenSignatureInvalid
  else tryCandidates jose rawJws validation none candidates

def checkClaims (claims : TokenClaims) (ctx : OidcContext) (nowSecs : UInt64) :
    Except AuthFailure AccessToken := do
  let sub ← okOr claims.sub (.tokenMissingClaim "sub")
  let iss ← okOr claims.iss (.tokenMissingClaim "iss")
  let iat ← okOr claims.iat (.tokenMissingClaim "iat")
  let exp ← okOr claims.exp (.tokenMissingClaim "exp")
  let audField ← okOr claims.aud (.tokenMissingClaim "aud")
  let aud ← okOr audField.single? .tokenAudienceMismatch
  let cnf ← okOr claims.cnf (.tokenMissingClaim "cnf")
  let cnfJktB64 ← okOr cnf.jkt (.tokenMissingClaim "cnf.jkt")
  rejectIf (iss ≠ trimEndMatches '/' ctx.issuerUrl.text) .tokenIssuerMismatch
  rejectIf (aud ≠ ctx.audience) .tokenAudienceMismatch
  let skew := ctx.authConfig.clockSkewSecs
  rejectIf (saturatingAdd exp skew ≤ nowSecs) .tokenExpired
  rejectIf (∃ nbf ∈ claims.nbf, saturatingAdd nowSecs skew < nbf) .tokenNotYetValid
  let jktBytes ← okOr (base64urlDecode cnfJktB64) (.tokenMissingClaim "cnf.jkt")
  if size : jktBytes.length = 32 then
    return { sub, aud, iss, exp, iat, nbf := claims.nbf, cnfJkt := ⟨jktBytes, size⟩ }
  else .error (.tokenMissingClaim "cnf.jkt")

theorem readHeader_ok {jose : Jose} {raw : String} {header : JoseHeader} {alg : JwsAlg}
    (read : readHeader jose raw = .ok (header, alg)) :
    jose.decodeHeader raw = some header ∧ header.alg = alg.toJwtAlgorithm := by
  simp only [readHeader, bind_ok_iff, okOr_ok_iff, pure_ok_iff, Prod.mk.injEq] at read
  obtain ⟨_,found,_,allowed,rfl,rfl⟩ := read
  refine ⟨found,?_⟩
  unfold allowedAlg at allowed
  split at allowed
  · rename_i same
    cases allowed
    exact same
  · rename_i same
    cases allowed
    exact same
  · cases allowed

theorem tryCandidates_ok {jose : Jose} {rawJws : String} {validation : Validation}
    {lastErr : Option ErrorKind} {candidates : List Jwk} {claims : TokenClaims}
    (decoded : tryCandidates jose rawJws validation lastErr candidates = .ok claims) :
    ∃ candidate ∈ candidates, ∃ key, jose.fromJwk candidate.jwk = some key ∧
      jose.decodeToken rawJws key validation = .ok claims := by
  induction candidates generalizing lastErr with
  | nil => cases decoded
  | cons candidate rest ih =>
    simp only [tryCandidates] at decoded
    split at decoded
    · obtain ⟨found,member,key,loads,verifies⟩ := ih decoded
      exact ⟨found,List.mem_cons_of_mem _ member,key,loads,verifies⟩
    · rename_i key loads
      split at decoded
      · rename_i same verifies
        cases decoded
        exact ⟨candidate,List.mem_cons_self,key,loads,verifies⟩
      · obtain ⟨found,member,other,loads',verifies⟩ := ih decoded
        exact ⟨found,List.mem_cons_of_mem _ member,other,loads',verifies⟩

theorem tryDecodeWithCurrentJwks_ok {jose : Jose} {rawJws : String} {header : JoseHeader}
    {validation : Validation} {jwks : Jwks} {claims : TokenClaims}
    (decoded : tryDecodeWithCurrentJwks jose rawJws header validation jwks = .ok claims) :
    ∃ candidate ∈ jwks.lookupCandidates header.kid, ∃ key,
      jose.fromJwk candidate.jwk = some key ∧
      jose.decodeToken rawJws key validation = .ok claims := by
  simp only [tryDecodeWithCurrentJwks] at decoded
  split at decoded
  · cases decoded
  · exact tryCandidates_ok decoded

structure TokenFacts (claims : TokenClaims) (ctx : OidcContext) (nowSecs : UInt64)
    (token : AccessToken) : Prop where
  sub : claims.sub = some token.sub
  aud : claims.aud = some (.single ctx.audience)
  iss : claims.iss = some (trimEndMatches '/' ctx.issuerUrl.text)
  iat : claims.iat = some token.iat
  exp : claims.exp = some token.exp
  unexpired : nowSecs.toNat < token.exp.toNat + ctx.authConfig.clockSkewSecs.toNat
  begun : ∀ nbf ∈ claims.nbf, nbf.toNat ≤ nowSecs.toNat + ctx.authConfig.clockSkewSecs.toNat
  bound : ∃ text, claims.cnf = some ⟨some text⟩ ∧ base64urlDecode text = some token.cnfJkt.val

theorem unexpired_of_not_le {exp skew now : UInt64} (fresh : ¬ saturatingAdd exp skew ≤ now) :
    now.toNat < exp.toNat + skew.toNat := by
  rw [UInt64.le_iff_toNat_le, saturatingAdd_toNat] at fresh
  omega

theorem begun_of_not_lt {nbf skew now : UInt64} (past : ¬ saturatingAdd now skew < nbf) :
    nbf.toNat ≤ now.toNat + skew.toNat := by
  rw [UInt64.lt_iff_toNat_lt, saturatingAdd_toNat] at past
  have bound := nbf.toNat_lt
  omega

theorem checkClaims_ok {claims : TokenClaims} {ctx : OidcContext} {nowSecs : UInt64}
    {token : AccessToken} (accepted : checkClaims claims ctx nowSecs = .ok token) :
    TokenFacts claims ctx nowSecs token := by
  simp only [checkClaims, bind_ok_iff, okOr_ok_iff, rejectIf_ok_iff, not_not, checked_ok_iff] at accepted
  obtain ⟨sub,hsub,iss,hiss,iat,hiat,exp,hexp,field,haud,aud,hfield,cnf,hcnf,text,htext,_,issuer,_,
    audience,_,fresh,_,past,bytes,decoded,size,rfl⟩ := accepted
  cases field with
  | multiple values => cases hfield
  | single value =>
    cases hfield
    obtain ⟨jkt⟩ := cnf
    cases htext
    exact {
      sub := hsub
      aud := by rw [haud, audience]
      iss := by rw [hiss, issuer]
      iat := hiat
      exp := hexp
      unexpired := unexpired_of_not_le fresh
      begun := fun nbf member => begun_of_not_lt fun late => past ⟨nbf,member,late⟩
      bound := ⟨text,hcnf,decoded⟩ }

end TokenValidation
