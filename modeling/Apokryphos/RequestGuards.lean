import Apokryphos.ProofValidation

/-!
The guards in front of the routes. A guard reads the two credentials from the
headers, rebuilds the URI the client must have signed, validates the token and
then the proof. The authority of that URI is the `Host` header as it stands,
put between the scheme and the request target and parsed again. The target
keeps its place behind it only if the header cannot end the authority itself.
-/
namespace RequestGuards
open MachineWords OidcContexts Outcomes ProofValidation ReplayStore ServerConfig SigningKeys Texts
open TokenValidation UrlTexts

abbrev HeaderValue := List UInt8

/-- `to_str`: visible ASCII, the space and the tab. -/
def toStr (value : HeaderValue) : Option String :=
  if ∀ b ∈ value, (32 ≤ b.toNat ∧ b.toNat < 127) ∨ b.toNat = 9 then
    some (String.ofList (value.map fun b => Char.ofNat b.toNat))
  else none

inductive EffectiveScheme where
  | http
  | https
  deriving DecidableEq, Repr

def EffectiveScheme.text : EffectiveScheme → String
  | .http => "http"
  | .https => "https"

structure EffectiveAddress where
  addr : IpAddr
  scheme : EffectiveScheme
  deriving DecidableEq, Repr

/-- The HTTP library has checked the authority of a request target. -/
structure Authority where
  text : String
  printable : Printable text
  plain : PlainAuthority text.toList

/-- It also refuses white space and control characters in a target. -/
structure PathAndQuery where
  text : String
  printable : Printable text

structure Request where
  method : String
  headers : List (String × HeaderValue)
  authority : Option Authority
  pathAndQuery : Option PathAndQuery
  effectiveAddress : Option EffectiveAddress

def Request.header (request : Request) (name : String) : Option HeaderValue :=
  request.headers.lookup name

def Request.host (request : Request) : Option String := (request.header "host").bind toStr

def Request.target (request : Request) : String :=
  (request.pathAndQuery.map PathAndQuery.text).getD "/"

def readToken (request : Request) : Except AuthFailure String := do
  let value ← okOr (request.header "authorization") .missingToken
  let text ← okOr (toStr value) .missingToken
  let (scheme, rest) ← okOr (splitOnce ' ' text.toList) .missingToken
  rejectIf (eqIgnoreAsciiCase scheme "DPoP".toList = false) .missingToken
  let rawToken := trim (String.ofList rest)
  rejectIf (rawToken = "") .missingToken
  return rawToken

def readProof (request : Request) : Except AuthFailure String := do
  let value ← okOr (request.header "dpop") .missingProof
  let text ← okOr (toStr value) .missingProof
  let rawProof := trim text
  rejectIf (rawProof = "") .missingProof
  return rawProof

def buildEffectiveUri (parseUrl : UrlParser) (request : Request) : Except AuthFailure Url := do
  let scheme := (request.effectiveAddress.map fun e => e.scheme.text).getD "http"
  let authority ← okOr (request.host.or (request.authority.map Authority.text)) .proofHtuMismatch
  orFail (parseUrl (behind scheme (authority ++ request.target))) .proofHtuMismatch

structure Credentials where
  rawToken : String
  rawProof : String
  effectiveUri : Url
  deriving DecidableEq

def readCredentials (parseUrl : UrlParser) (request : Request) : Except AuthFailure Credentials := do
  let rawToken ← readToken request
  let rawProof ← readProof request
  let effectiveUri ← buildEffectiveUri parseUrl request
  return { rawToken, rawProof, effectiveUri }

def authenticateProof (jose : Jose) (parseUrl : UrlParser) (request : Request)
    (credentials : Credentials) (accessToken : AccessToken) (ctx : OidcContext) (now : UInt64)
    (instant : Instant) (replay : JtiReplayStore) : Except AuthFailure String × JtiReplayStore :=
  match validateProof jose parseUrl credentials.rawProof request.method credentials.effectiveUri
      accessToken credentials.rawToken ctx now instant replay with
  | (.ok _, store) => (.ok accessToken.sub, store)
  | (.error failure, store) => (.error failure, store)

/-- `validateToken` is whatever the validation of the token answers, which also
    depends on the refreshes that happen meanwhile. -/
def authenticateCommon (jose : Jose) (parseUrl : UrlParser)
    (validateToken : String → Except AuthFailure AccessToken) (request : Request) (ctx : OidcContext)
    (now : UInt64) (instant : Instant) (replay : JtiReplayStore) :
    Except AuthFailure String × JtiReplayStore :=
  match readCredentials parseUrl request with
  | .error failure => (.error failure, replay)
  | .ok credentials =>
    match validateToken credentials.rawToken with
    | .error failure => (.error failure, replay)
    | .ok accessToken =>
      authenticateProof jose parseUrl request credentials accessToken ctx now instant replay

theorem authenticateProof_ok {jose : Jose} {parseUrl : UrlParser} {request : Request}
    {credentials : Credentials} {accessToken : AccessToken} {ctx : OidcContext} {now : UInt64}
    {instant : Instant} {replay store : JtiReplayStore} {sub : String}
    (authenticated : authenticateProof jose parseUrl request credentials accessToken ctx now instant
      replay = (.ok sub, store)) :
    sub = accessToken.sub ∧ ∃ proof, validateProof jose parseUrl credentials.rawProof request.method
      credentials.effectiveUri accessToken credentials.rawToken ctx now instant replay =
        (.ok proof, store) := by
  unfold authenticateProof at authenticated
  split at authenticated
  · rename_i proof _ validated
    cases authenticated
    exact ⟨rfl,proof,validated⟩
  · cases authenticated

theorem authenticateCommon_ok {jose : Jose} {parseUrl : UrlParser}
    {validateToken : String → Except AuthFailure AccessToken} {request : Request} {ctx : OidcContext}
    {now : UInt64} {instant : Instant} {replay store : JtiReplayStore} {sub : String}
    (authenticated : authenticateCommon jose parseUrl validateToken request ctx now instant replay =
      (.ok sub, store)) :
    ∃ credentials accessToken, readCredentials parseUrl request = .ok credentials ∧
      validateToken credentials.rawToken = .ok accessToken ∧
      authenticateProof jose parseUrl request credentials accessToken ctx now instant replay =
        (.ok sub, store) := by
  unfold authenticateCommon at authenticated
  split at authenticated
  · cases authenticated
  · rename_i credentials read
    split at authenticated
    · cases authenticated
    · rename_i accessToken valid
      exact ⟨credentials,accessToken,read,valid,authenticated⟩

theorem readCredentials_ok {parseUrl : UrlParser} {request : Request} {credentials : Credentials}
    (read : readCredentials parseUrl request = .ok credentials) :
    readToken request = .ok credentials.rawToken ∧ readProof request = .ok credentials.rawProof ∧
      buildEffectiveUri parseUrl request = .ok credentials.effectiveUri := by
  simp only [readCredentials, bind_ok_iff, pure_ok_iff] at read
  obtain ⟨rawToken,token,rawProof,proof,url,built,rfl⟩ := read
  exact ⟨token,proof,built⟩

def BearsToken (request : Request) (rawToken : String) : Prop :=
  ∃ value text scheme rest, request.header "authorization" = some value ∧ toStr value = some text ∧
    splitOnce ' ' text.toList = some (scheme, rest) ∧
    eqIgnoreAsciiCase scheme "DPoP".toList = true ∧ rawToken = trim (String.ofList rest)

theorem readToken_ok {request : Request} {rawToken : String}
    (read : readToken request = .ok rawToken) : BearsToken request rawToken := by
  simp only [readToken, bind_ok_iff, okOr_ok_iff, rejectIf_ok_iff, pure_ok_iff, Bool.not_eq_false,
    Prod.exists] at read
  obtain ⟨value,found,text,ascii,scheme,rest,parts,_,dpop,_,_,same⟩ := read
  exact ⟨value,text,scheme,rest,found,ascii,parts,dpop,same.symm⟩

theorem target_printable (request : Request) : Printable request.target := by
  unfold Request.target
  cases request.pathAndQuery with
  | none =>
    intro c member
    simp at member
    subst member
    decide
  | some pathAndQuery => exact pathAndQuery.printable

theorem printable_append {a b : String} (left : Printable a) (right : Printable b) :
    Printable (a ++ b) := by
  intro c member
  rw [String.toList_append, List.mem_append] at member
  rcases member with inside | inside
  · exact left c inside
  · exact right c inside

theorem scheme_special (address : Option EffectiveAddress) :
    (address.map fun e => e.scheme.text).getD "http" ∈ ["http", "https"] := by
  cases address with
  | none => decide
  | some e => cases scheme : e.scheme <;> simp [EffectiveScheme.text, scheme]

theorem buildEffectiveUri_ok {parseUrl : UrlParser} {request : Request} {url : Url}
    (built : buildEffectiveUri parseUrl request = .ok url) :
    ∃ scheme ∈ ["http", "https"], ∃ text : String,
      (request.host = some text ∨
        request.host = none ∧ ∃ a, request.authority = some a ∧ a.text = text) ∧
      parseUrl (behind scheme (text ++ request.target)) = .ok url := by
  simp only [buildEffectiveUri, bind_ok_iff, okOr_ok_iff, orFail_ok_iff] at built
  obtain ⟨text,found,parsed⟩ := built
  refine ⟨_,scheme_special request.effectiveAddress,text,?_,parsed⟩
  cases host : request.host with
  | some h =>
    rw [host] at found
    exact Or.inl found
  | none =>
    rw [host, Option.none_or, Option.map_eq_some_iff] at found
    exact Or.inr ⟨rfl,found⟩

/-- The `Host` header leaves the target in place, or there is no URI at all. -/
def SafeHost (host : String) : Prop :=
  KeepsTarget host.toList ∨ ∃ c ∈ (host.toList.dropWhile isSlash).head?, endsAuthority c = true

def ProofBound (jose : Jose) (parseUrl : UrlParser) (request : Request) : Prop :=
  ∃ rawProof alg jwk claims htu htuUrl, readProof request = .ok rawProof ∧
    Carries jose rawProof alg jwk claims ∧ claims.htm = some request.method ∧
    claims.htu = some htu ∧ parseUrl htu = .ok htuUrl ∧
    ∀ scheme ∈ ["http", "https"], ∀ (a : Authority) (u : Url),
      parseUrl (behind scheme (a.text ++ request.target)) = .ok u →
        htuUrl.path = u.path ∧ htuUrl.query = u.query

def HostBinds (host : Option String) : Prop :=
  ∀ (parseUrl : UrlParser), Standard parseUrl → ∀ (jose : Jose)
    (validateToken : String → Except AuthFailure AccessToken) (request : Request) (ctx : OidcContext)
    (now : UInt64) (instant : Instant) (replay store : JtiReplayStore) (sub : String),
    request.host = host →
    authenticateCommon jose parseUrl validateToken request ctx now instant replay =
      (.ok sub, store) → ProofBound jose parseUrl request

theorem hostless_authority {host rest : List Char} {c : Char}
    (first : c ∈ (host.dropWhile isSlash).head?) (ends : endsAuthority c = true) :
    authorityOf (host ++ rest) = [] := by
  unfold authorityOf
  cases stripped : host.dropWhile isSlash with
  | nil => simp [stripped] at first
  | cons d tail =>
    rw [stripped, List.head?_cons, Option.mem_some_iff] at first
    subst first
    rw [List.dropWhile_append, stripped]
    simp [ends]

theorem safe_target {parseUrl : UrlParser} (standard : Standard parseUrl) {text : String}
    {request : Request} (printable : Printable text) (safe : SafeHost text) {scheme : String}
    (special : scheme ∈ ["http", "https"]) {url : Url}
    (parsed : parseUrl (behind scheme (text ++ request.target)) = .ok url)
    {scheme' : String} (special' : scheme' ∈ ["http", "https"]) {a : Authority} {u : Url}
    (routed : parseUrl (behind scheme' (a.text ++ request.target)) = .ok u) :
    url.path = u.path ∧ url.query = u.query := by
  have target := target_printable request
  rcases safe with keeps | ⟨c,first,ends⟩
  · refine standard.follows _ special _ special' _ _ (printable_append printable target)
      (printable_append a.printable target) ?_ _ _ parsed routed
    rw [String.toList_append, String.toList_append, afterAuthority_keeps keeps,
      afterAuthority_plain a.plain]
  · refine absurd parsed (standard.needs_host _ special _ (printable_append printable target) ?_ _)
    rw [String.toList_append]
    exact hostless_authority first ends

def Visible (s : String) : Prop := ∀ c ∈ s.toList, 33 ≤ c.toNat ∧ c.toNat ≤ 126

instance (s : String) : Decidable (Visible s) := inferInstanceAs (Decidable (∀ c ∈ s.toList, _))

theorem visible_printable {s : String} (visible : Visible s) : Printable s := by
  intro c member
  have bounds := visible c member
  omega

theorem safe_binds {host : Option String} (visible : ∀ h ∈ host, Visible h)
    (safe : ∀ h ∈ host, SafeHost h) : HostBinds host := by
  intro parseUrl standard jose validateToken request ctx now instant replay store sub same accepted
  obtain ⟨credentials,accessToken,read,_,authenticated⟩ := authenticateCommon_ok accepted
  obtain ⟨_,proof,validated⟩ := authenticateProof_ok authenticated
  obtain ⟨_,proofRead,built⟩ := readCredentials_ok read
  have facts := (validateProof_ok validated).1
  obtain ⟨jwk,_,carries⟩ := facts.carries
  obtain ⟨htuUrl,parsed,equivalent⟩ := facts.htu
  obtain ⟨samePath,sameQuery⟩ := urlsEquivalentCt_target equivalent
  refine ⟨_,_,jwk,proof.claims,proof.htu,htuUrl,proofRead,carries,congrArg some facts.htm,rfl,parsed,
    ?_⟩
  intro scheme special a u routed
  rw [samePath, sameQuery]
  obtain ⟨scheme',special',text,source,effective⟩ := buildEffectiveUri_ok built
  rcases source with header | ⟨_,authority,_,rfl⟩
  · rw [same] at header
    exact safe_target standard (visible_printable (visible text header)) (safe text header) special'
      effective special routed
  · exact safe_target standard authority.printable (Or.inl (plain_keeps authority.plain)) special'
      effective special routed

def headerBytes (s : String) : HeaderValue := s.toList.map fun c => UInt8.ofNat c.toNat

theorem toStr_headerBytes {s : String} (visible : Visible s) : toStr (headerBytes s) = some s := by
  have byte : ∀ c ∈ s.toList, (UInt8.ofNat c.toNat).toNat = c.toNat := by
    intro c member
    have bounds := visible c member
    rw [UInt8.toNat_ofNat']
    omega
  have allowed : ∀ b ∈ headerBytes s, (32 ≤ b.toNat ∧ b.toNat < 127) ∨ b.toNat = 9 := by
    intro b member
    obtain ⟨c,inside,rfl⟩ := List.mem_map.mp member
    have bounds := visible c inside
    rw [byte c inside]
    omega
  have restored : (headerBytes s).map (fun b => Char.ofNat b.toNat) = s.toList := by
    unfold headerBytes
    rw [List.map_map]
    refine (List.map_congr_left ?_).trans (List.map_id _)
    intro c member
    simp only [Function.comp_apply, byte c member, Char.ofNat_toNat, id]
  unfold toStr
  rw [if_pos allowed, restored, String.ofList_toList]

def targetX : PathAndQuery := ⟨"/x", show ∀ c ∈ "/x".toList, 32 < c.toNat by decide⟩

def targetY : PathAndQuery := ⟨"/y", show ∀ c ∈ "/y".toList, 32 < c.toNat by decide⟩

theorem targetX_text : targetX.text.toList = ['/', 'x'] := by decide

theorem targetY_text : targetY.text.toList = ['/', 'y'] := by decide

def soloRequest (host : String) (target : PathAndQuery) : Request where
  method := "GET"
  headers := [("authorization", headerBytes "DPoP token"), ("dpop", headerBytes "proof"),
    ("host", headerBytes host)]
  authority := none
  pathAndQuery := some target
  effectiveAddress := none

def signedJose (host : String) (target : PathAndQuery) : Jose :=
  soloJose ⟨none, none, none, none, none, none, none⟩
    (soloProof (behind "http" (host ++ target.text)) 0).claims

theorem solo_token (host : String) (target : PathAndQuery) :
    readToken (soloRequest host target) = .ok "token" := by
  have found : (soloRequest host target).header "authorization" =
      some (headerBytes "DPoP token") := rfl
  unfold readToken
  rw [found]
  decide

theorem solo_proof (host : String) (target : PathAndQuery) :
    readProof (soloRequest host target) = .ok "proof" := by
  have found : (soloRequest host target).header "dpop" = some (headerBytes "proof") := rfl
  unfold readProof
  rw [found]
  decide

theorem solo_host {host : String} (visible : Visible host) (target : PathAndQuery) :
    (soloRequest host target).host = some host := by
  have found : (soloRequest host target).header "host" = some (headerBytes host) := rfl
  unfold Request.host
  rw [found]
  exact toStr_headerBytes visible

def rebuiltUri (host : String) (target : PathAndQuery) : Url :=
  plainUrl "http" (behind "http" (host ++ target.text)) (host ++ target.text).toList

theorem rebuiltUri_parsed {host : String} {target : PathAndQuery}
    (hosted : authorityOf (host ++ target.text).toList ≠ []) :
    plainParser (behind "http" (host ++ target.text)) = .ok (rebuiltUri host target) := by
  rw [plainParser_behind (by decide), if_neg hosted]
  rfl

theorem solo_credentials {host : String} (visible : Visible host) {target : PathAndQuery}
    (hosted : authorityOf (host ++ target.text).toList ≠ []) :
    readCredentials plainParser (soloRequest host target) =
      .ok ⟨"token", "proof", rebuiltUri host target⟩ := by
  have built : buildEffectiveUri plainParser (soloRequest host target) =
      .ok (rebuiltUri host target) := by
    unfold buildEffectiveUri
    rw [solo_host visible]
    exact congrArg (orFail · AuthFailure.proofHtuMismatch) (rebuiltUri_parsed hosted)
  unfold readCredentials
  rw [solo_token, solo_proof, built]
  rfl

theorem solo_validated {host : String} {target : PathAndQuery}
    (hosted : authorityOf (host ++ target.text).toList ≠ []) :
    ∃ proof store, validateProof (signedJose host target) plainParser "proof" "GET"
      (rebuiltUri host target) soloToken "token" (soloContext AuthConfig.default) 0 0
      (JtiReplayStore.new AuthConfig.default) = (.ok proof, store) := by
  have fits := @checkedAddSecs_fits 0 AuthConfig.default.jtiReplayWindowSecs (by decide)
  obtain ⟨store,inserted⟩ := @new_tryInsert AuthConfig.default (by decide) (JtiKey.new 1 "id")
    (0 + AuthConfig.default.jtiReplayWindowSecs.toNat * nanosPerSec)
  have fresh : inWindow 0 0 (soloContext AuthConfig.default).authConfig = true := by decide
  have inspected := @solo_inspected ⟨none, none, none, none, none, none, none⟩ _ _ _ soloToken _ 0 0
    (rebuiltUri_parsed hosted) rfl rfl rfl fresh
  exact ⟨_,store,validateProof_accepts inspected fits inserted⟩

theorem solo_authenticated {host : String} (visible : Visible host) {target : PathAndQuery}
    (hosted : authorityOf (host ++ target.text).toList ≠ []) :
    ∃ store, authenticateCommon (signedJose host target) plainParser (fun _ => .ok soloToken)
      (soloRequest host target) (soloContext AuthConfig.default) 0 0
      (JtiReplayStore.new AuthConfig.default) = (.ok "user", store) := by
  obtain ⟨proof,store,validated⟩ := solo_validated hosted
  have authenticated : authenticateProof (signedJose host target) plainParser
      (soloRequest host target) ⟨"token", "proof", rebuiltUri host target⟩ soloToken
      (soloContext AuthConfig.default) 0 0 (JtiReplayStore.new AuthConfig.default) =
        (.ok "user", store) := by
    unfold authenticateProof
    rw [show (soloRequest host target).method = "GET" from rfl, validated]
    rfl
  refine ⟨store,?_⟩
  unfold authenticateCommon
  rw [solo_credentials visible hosted]
  exact authenticated

def hostA : Authority where
  text := "a"
  printable := show ∀ c ∈ "a".toList, 32 < c.toNat by decide
  plain := by decide

theorem rebuilt_path {host : String} {target : PathAndQuery}
    (hosted : authorityOf (host ++ target.text).toList ≠ [])
    (binding : ProofBound (signedJose host target) plainParser (soloRequest host target)) :
    (rebuiltUri host target).path = (rebuiltUri hostA.text target).path := by
  obtain ⟨rawProof,alg,jwk,claims,htu,htuUrl,read,carries,_,hhtu,parsed,bound⟩ := binding
  rw [solo_proof, Except.ok.injEq] at read
  subst read
  obtain ⟨_,key,_,_,_,_,_,decoded⟩ := carries
  have known : claims = (soloProof (behind "http" (host ++ target.text)) 0).claims := by
    simp only [signedJose, soloJose] at decoded
    split at decoded
    · exact (Option.some.inj decoded).symm
    · cases decoded
  rw [known] at hhtu
  cases hhtu
  have same := Except.ok.inj ((rebuiltUri_parsed hosted).symm.trans parsed)
  subst same
  have plainHost : authorityOf (hostA.text ++ target.text).toList ≠ [] := by
    rw [String.toList_append]
    simp [hostA, authorityOf, isSlash, endsAuthority]
  exact (bound "http" (by decide) hostA _ (rebuiltUri_parsed plainHost)).1

theorem shown_path {host : String} (visible : Visible host) (binds : HostBinds (some host))
    {letter : Char} {target : PathAndQuery} (text : target.text.toList = ['/', letter])
    (shown : pathText ['/', letter] = ['/', letter])
    (hosted : authorityOf (host.toList ++ ['/', letter]) ≠ []) :
    pathText (afterAuthority (host.toList ++ ['/', letter])) = ['/', letter] := by
  rw [← text, ← String.toList_append] at hosted
  obtain ⟨store,accepted⟩ := solo_authenticated visible hosted
  have same := rebuilt_path hosted (binds plainParser plainParser_standard _ _ _ _ _ _ _ _ _
    (solo_host visible target) accepted)
  have behindA : afterAuthority (hostA.text ++ target.text).toList = ['/', letter] := by
    rw [String.toList_append, afterAuthority_plain hostA.plain, text]
    rfl
  simp only [rebuiltUri, plainUrl, behindA, shown, reduceCtorEq, if_false] at same
  rw [String.toList_append, text] at same
  split at same
  · have short := congrArg (fun s => s.toList.length) same
    simp at short
  · exact String.ofList_injective same

theorem binding_safe {host : String} (visible : Visible host) (binds : HostBinds (some host)) :
    SafeHost host := by
  by_contra notSafe
  unfold SafeHost at notSafe
  push Not at notSafe
  obtain ⟨ended,begins⟩ := notSafe
  cases stripped : (host.toList.dropWhile isSlash).head? with
  | none =>
    have slashes := List.head?_eq_none_iff.mp stripped
    obtain ⟨hosted,nothing⟩ := slashes_host slashes 'x' (by decide)
    have shown := shown_path visible binds targetX_text (by decide) hosted
    rw [nothing] at shown
    cases shown
  | some c =>
    have plain : endsAuthority c = false := by simpa using begins c stripped
    obtain ⟨front,nonempty,swallowed⟩ := ended_host stripped plain ended
    have first := shown_path visible binds targetX_text (by decide) (swallowed _).1
    have second := shown_path visible binds targetY_text (by decide) (swallowed _).1
    rw [(swallowed _).2] at first second
    exact pathText_behind nonempty first second

/-- The proof of every authenticated request belongs to its method, path and
    query exactly if its `Host` header, without leading slashes, is not empty and
    has none of the characters that end an authority, unless one of `?` and `#`
    comes first. -/
theorem proof_bound_iff (host : Option String) (visible : ∀ h ∈ host, Visible h) :
    HostBinds host ↔ ∀ h ∈ host, SafeHost h := by
  constructor
  · intro binds h found
    cases found
    exact binding_safe (visible h rfl) binds
  · exact safe_binds visible

theorem proof_bound_named_host :
    HostBinds (some "vault.test:8443") ∧ ∃ store, authenticateCommon
      (signedJose "vault.test:8443" targetX) plainParser (fun _ => .ok soloToken)
      (soloRequest "vault.test:8443" targetX) (soloContext AuthConfig.default) 0 0
      (JtiReplayStore.new AuthConfig.default) = (.ok "user", store) := by
  have visible : ∀ h ∈ some "vault.test:8443", Visible h := by decide
  have safe : ∀ h ∈ some "vault.test:8443", SafeHost h := by
    rintro h ⟨rfl⟩
    exact Or.inl (by decide)
  exact ⟨(proof_bound_iff _ visible).mpr safe,solo_authenticated (visible _ rfl) (by decide)⟩

/-- A proof for `/foo` is accepted on a request for `/x` whose `Host` header is
    `h/foo?`. -/
theorem host_hides_target :
    Standard plainParser ∧ (soloRequest "h/foo?" targetX).host = some "h/foo?" ∧
      (∃ store, authenticateCommon (signedJose "h/foo?" targetX) plainParser
        (fun _ => .ok soloToken) (soloRequest "h/foo?" targetX) (soloContext AuthConfig.default) 0 0
        (JtiReplayStore.new AuthConfig.default) = (.ok "user", store)) ∧
      (rebuiltUri "h/foo?" targetX).path = "/foo" ∧
      ¬ ProofBound (signedJose "h/foo?" targetX) plainParser (soloRequest "h/foo?" targetX) := by
  have visible : Visible "h/foo?" := by decide
  have hosted : authorityOf ("h/foo?" ++ targetX.text).toList ≠ [] := by decide
  refine ⟨plainParser_standard,solo_host visible targetX,solo_authenticated visible hosted,by decide,
    ?_⟩
  intro binding
  have same := rebuilt_path hosted binding
  revert same
  decide

end RequestGuards
