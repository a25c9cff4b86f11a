import Apokryphos.ProxyTrust
import Apokryphos.RejectedRequests

/-!
Peers that are not trusted cannot forward anything. The two headers are read in
one place, and there only for a trusted peer; everything behind reads other
headers by their names. Two requests that differ in these headers alone are
therefore the same request to the guards and the handlers, in any state and
whatever else happens meanwhile.
-/
namespace ForwardedHeaders
open BlockRoutes BlockStorage GuardedRequests OidcContexts ProofValidation ProxyTrust RejectedRequests
open RequestGuards ServerConfig SigningKeys StepRuns TokenValidation UrlTexts
open ReplayStore hiding Action step

def forwardedHeaders : List String := ["x-forwarded-for", "x-forwarded-proto"]

/-- The requests differ at most in their forwarded headers. Of every other header
    they have the same values in the same order. -/
structure SameButForwarded (r q : Request) : Prop where
  method : r.method = q.method
  headers : ∀ name ∉ forwardedHeaders,
    r.headers.filter (fun field => field.1 == name) = q.headers.filter fun field => field.1 == name
  authority : r.authority = q.authority
  pathAndQuery : r.pathAndQuery = q.pathAndQuery

structure Alike (r q : Request) : Prop where
  method : r.method = q.method
  header : ∀ name ∉ forwardedHeaders, r.header name = q.header name
  authority : r.authority = q.authority
  pathAndQuery : r.pathAndQuery = q.pathAndQuery
  effectiveAddress : r.effectiveAddress = q.effectiveAddress

theorem alike_refl (r : Request) : Alike r r where
  method := rfl
  header := fun _ _ => rfl
  authority := rfl
  pathAndQuery := rfl
  effectiveAddress := rfl

theorem lookup_filter (headers : List (String × HeaderValue)) (name : String) :
    (headers.filter fun field => field.1 == name).lookup name = headers.lookup name := by
  induction headers with
  | nil => rfl
  | cons field rest ih =>
    obtain ⟨key,value⟩ := field
    by_cases same : name = key
    · subst same
      simp
    · have other : (name == key) = false := by simpa using same
      have skipped : (key == name) = false := by simpa using Ne.symm same
      rw [List.filter_cons, skipped, List.lookup_cons, other]
      exact ih

theorem middleware_alike {lib : IpLibrary} {trustedProxies : List IpNet}
    {connection : Option SocketAddr} {r q : Request}
    (untrusted : peerTrusted lib trustedProxies (peerAddress connection) = false)
    (same : SameButForwarded r q) :
    Alike (middleware lib trustedProxies connection r) (middleware lib trustedProxies connection q) where
  method := same.method
  header := by
    intro name other
    change r.headers.lookup name = q.headers.lookup name
    rw [← lookup_filter r.headers, same.headers name other, lookup_filter]
  authority := same.authority
  pathAndQuery := same.pathAndQuery
  effectiveAddress := by
    simp only [middleware, resolve_untrusted untrusted]

section Readers
variable {r q : Request} (alike : Alike r q)
include alike

theorem alike_target : r.target = q.target := by
  unfold Request.target
  rw [alike.pathAndQuery]

theorem alike_host : r.host = q.host := by
  unfold Request.host
  rw [alike.header "host" (by decide)]

theorem alike_buildEffectiveUri (parseUrl : UrlParser) :
    buildEffectiveUri parseUrl r = buildEffectiveUri parseUrl q := by
  simp only [buildEffectiveUri, alike.effectiveAddress, alike_host alike, alike.authority,
    alike_target alike]

theorem alike_readCredentials (parseUrl : UrlParser) :
    readCredentials parseUrl r = readCredentials parseUrl q := by
  simp only [readCredentials, readToken, readProof, alike.header "authorization" (by decide),
    alike.header "dpop" (by decide), alike_buildEffectiveUri alike]

theorem alike_openRequest (d : Deployment) : openRequest d r = openRequest d q := by
  simp only [openRequest, alike_readCredentials alike]

theorem alike_authenticateProof (jose : Jose) (parseUrl : UrlParser) (credentials : Credentials)
    (token : AccessToken) (ctx : OidcContext) (now : UInt64) (instant : Instant)
    (replay : JtiReplayStore) :
    authenticateProof jose parseUrl r credentials token ctx now instant replay =
      authenticateProof jose parseUrl q credentials token ctx now instant replay := by
  simp only [authenticateProof, alike.method]

theorem alike_authenticateCommon (jose : Jose) (parseUrl : UrlParser)
    (validateToken : String → Except AuthFailure AccessToken) (ctx : OidcContext) (now : UInt64)
    (instant : Instant) (replay : JtiReplayStore) :
    authenticateCommon jose parseUrl validateToken r ctx now instant replay =
      authenticateCommon jose parseUrl validateToken q ctx now instant replay := by
  simp only [authenticateCommon, alike_readCredentials alike, alike_authenticateProof alike]

theorem alike_addressFromRequest : addressFromRequest r = addressFromRequest q := by
  unfold addressFromRequest
  rw [alike.effectiveAddress]

theorem alike_handleBlock {S : Type} (provider : StorageProvider S) (config : BlockConfig)
    (session : Session S) (body : Body) :
    handleBlock provider config session ⟨r, body⟩ = handleBlock provider config session ⟨q, body⟩ := by
  have path : rawPath r = rawPath q := by
    unfold rawPath
    rw [alike.pathAndQuery]
  have declared : contentLength r = contentLength q := by
    unfold contentLength
    rw [alike.header "content-length" (by decide)]
  simp only [handleBlock, handlePut, path, declared, alike.method]

end Readers

structure VisitsAlike (v w : Visit) : Prop where
  guard : v.guard = w.guard
  request : Alike v.request w.request
  phase : v.phase = w.phase

structure ServersAlike (s t : Server) : Prop where
  world : s.world = t.world
  instant : s.instant = t.instant
  replay : s.replay = t.replay
  visits : ∀ id, Option.Rel VisitsAlike (s.visit id) (t.visit id)

theorem visitsAlike_refl (v : Visit) : VisitsAlike v v := ⟨rfl,alike_refl v.request,rfl⟩

theorem serversAlike_refl (s : Server) : ServersAlike s s := by
  refine ⟨rfl,rfl,rfl,fun id => ?_⟩
  cases s.visit id with
  | none => exact .none
  | some v => exact .some (visitsAlike_refl v)

inductive ActionsAlike : Action → Action → Prop where
  | same (a : Action) : ActionsAlike a a
  | arrive {r q : Request} (id : Nat) (guard : Guard) (alike : Alike r q) :
      ActionsAlike (.arrive id guard r) (.arrive id guard q)

section Servers
variable {d : Deployment} {s t : Server}

theorem proceed_alike (servers : ServersAlike s t) {v w : Visit} (visits : VisitsAlike v w) :
    proceed d s v = proceed d t w := by
  simp only [proceed, servers.world, servers.instant, servers.replay, visits.guard, visits.phase,
    visits.request.method, alike_openRequest visits.request, alike_authenticateProof visits.request]

theorem setVisit_alike (servers : ServersAlike s t) (id : Nat) {v w : Visit}
    (visits : VisitsAlike v w) : ServersAlike (s.setVisit id v) (t.setVisit id w) := by
  refine ⟨servers.world,servers.instant,servers.replay,fun other => ?_⟩
  by_cases same : other = id
  · subst same
    rw [setVisit_same, setVisit_same]
    exact .some visits
  · rw [setVisit_other same, setVisit_other same]
    exact servers.visits other

theorem setPhase_alike (servers : ServersAlike s t) (id : Nat) {v w : Visit}
    (visits : VisitsAlike v w) (phase : Phase) :
    ServersAlike (s.setVisit id { v with phase := phase }) (t.setVisit id { w with phase := phase }) :=
  setVisit_alike servers id ⟨visits.guard,visits.request,rfl⟩

theorem visit_bind {f g : Visit → Option Server} (servers : ServersAlike s t) (id : Nat)
    (each : ∀ {v w}, VisitsAlike v w → Option.Rel ServersAlike (f v) (g w)) :
    Option.Rel ServersAlike ((s.visit id).bind f) ((t.visit id).bind g) := by
  have found := servers.visits id
  generalize s.visit id = before, t.visit id = after at found
  cases found with
  | none => exact .none
  | some visits => exact each visits

theorem map_alike {α : Type} {f g : α → Server} (outcome : Option α)
    (each : ∀ a, ServersAlike (f a) (g a)) :
    Option.Rel ServersAlike (outcome.map f) (outcome.map g) := by
  cases outcome with
  | none => exact .none
  | some a => exact .some (each a)

theorem arrive_alike (servers : ServersAlike s t) (id : Nat) (guard : Guard) {r q : Request}
    (alike : Alike r q) :
    Option.Rel ServersAlike (step d s (.arrive id guard r)) (step d t (.arrive id guard q)) := by
  have found := servers.visits id
  simp only [step]
  generalize s.visit id = before, t.visit id = after at found
  cases found with
  | none =>
    rw [if_pos rfl, if_pos rfl]
    exact .some (setVisit_alike servers id ⟨rfl,alike,rfl⟩)
  | some visits =>
    rw [if_neg (by simp), if_neg (by simp)]
    exact .none

theorem step_alike (servers : ServersAlike s t) {a b : Action} (actions : ActionsAlike a b) :
    Option.Rel ServersAlike (step d s a) (step d t b) := by
  cases actions with
  | arrive id guard alike => exact arrive_alike servers id guard alike
  | same =>
    cases a with
    | refresh action =>
      simp only [step, servers.world]
      exact map_alike _ fun w => ⟨rfl,servers.instant,servers.replay,servers.visits⟩
    | passTime instant =>
      simp only [step, servers.instant]
      split
      · exact .some ⟨servers.world,rfl,servers.replay,servers.visits⟩
      · exact .none
    | maintenance =>
      simp only [step, servers.instant, servers.replay]
      exact .some ⟨servers.world,rfl,rfl,servers.visits⟩
    | arrive id guard request => exact arrive_alike servers id guard (alike_refl request)
    | proceed id =>
      refine visit_bind servers id fun visits => ?_
      rw [proceed_alike servers visits]
      refine map_alike _ fun next => ?_
      have moved := setPhase_alike servers id visits next.1
      exact ⟨servers.world,servers.instant,rfl,moved.visits⟩
    | startRefresh id task =>
      refine visit_bind servers id fun {v w} visits => ?_
      dsimp only
      rw [visits.phase, visits.guard, servers.world]
      split
      · rename_i o first _
        refine map_alike _ fun world => ?_
        have moved : ServersAlike (s.setVisit id ⟨w.guard, v.request, .refreshing o first task⟩)
            (t.setVisit id ⟨w.guard, w.request, .refreshing o first task⟩) :=
          setVisit_alike servers id ⟨rfl,visits.request,rfl⟩
        exact ⟨rfl,servers.instant,servers.replay,moved.visits⟩
      · exact .none
    | abandon id =>
      refine visit_bind servers id fun visits => ?_
      dsimp only
      rw [visits.phase, servers.world]
      split
      · refine map_alike _ fun world => ?_
        have moved := setPhase_alike servers id visits .abandoned
        exact ⟨rfl,servers.instant,servers.replay,moved.visits⟩
      · exact .none

end Servers

structure SitesAlike {S : Type} (s t : Site S) : Prop where
  server : ServersAlike s.server t.server
  store : s.store = t.store
  calls : s.calls = t.calls
  responses : s.responses = t.responses

inductive EventsAlike : SiteEvent → SiteEvent → Prop where
  | act {a b : Action} (actions : ActionsAlike a b) : EventsAlike (.act a) (.act b)
  | handle (id : Nat) (body : Body) : EventsAlike (.handle id body) (.handle id body)

theorem eventsAlike_refl (e : SiteEvent) : EventsAlike e e := by
  cases e with
  | act a => exact .act (.same a)
  | handle id body => exact .handle id body

section Sites
variable {S : Type} {provider : StorageProvider S} {config : BlockConfig} {d : Deployment} {s t : Site S}

theorem sitesAlike_refl (s : Site S) : SitesAlike s s := ⟨serversAlike_refl s.server,rfl,rfl,rfl⟩

theorem handle_alike (sites : SitesAlike s t) (id : Nat) (body : Body) :
    Option.Rel SitesAlike (siteStep provider config d s (.handle id body))
      (siteStep provider config d t (.handle id body)) := by
  have found := sites.server.visits id
  simp only [siteStep]
  generalize s.server.visit id = before, t.server.visit id = after at found
  cases found with
  | none => exact .none
  | @some v w visits =>
    simp only [Option.bind_some, visits.phase, visits.guard, sites.store, sites.calls, sites.responses,
      alike_handleBlock visits.request]
    split
    · split
      · exact .some ⟨sites.server,rfl,rfl,rfl⟩
      · exact .none
    · exact .none

theorem siteStep_alike (sites : SitesAlike s t) {e f : SiteEvent} (events : EventsAlike e f) :
    Option.Rel SitesAlike (siteStep provider config d s e) (siteStep provider config d t f) := by
  cases events with
  | act actions =>
    have moved := step_alike (d := d) sites.server actions
    simp only [siteStep]
    generalize step d s.server _ = before, step d t.server _ = after at moved
    cases moved with
    | none => exact .none
    | some servers => exact .some ⟨servers,sites.store,sites.calls,sites.responses⟩
  | handle id body => exact handle_alike sites id body

theorem sites_run_alike (sites : SitesAlike s t) {events others : List SiteEvent}
    (same : List.Forall₂ EventsAlike events others) :
    Option.Rel SitesAlike (run (siteStep provider config d) s events)
      (run (siteStep provider config d) t others) :=
  run_alike SitesAlike EventsAlike (fun sites events => siteStep_alike sites events) sites same

end Sites

/-- The forwarded headers of a peer in none of the trusted networks are inert. The
    address, the URI, the outcome of the authentication and of the handler are the
    same without them, and so is every run in which the request arrives, in what
    it answers, stores and changes. -/
theorem forwarded_headers_inert (lib : IpLibrary) (trustedProxies : List IpNet)
    (connection : Option SocketAddr)
    (untrusted : ∀ net ∈ trustedProxies, lib.contains net (peerAddress connection) = false)
    {r q : Request} (same : SameButForwarded r q) :
    let forwarded := middleware lib trustedProxies connection
    ((forwarded r).effectiveAddress = some ⟨peerAddress connection, .http⟩ ∧
      (forwarded q).effectiveAddress = (forwarded r).effectiveAddress) ∧
    (∀ parseUrl, buildEffectiveUri parseUrl (forwarded r) = buildEffectiveUri parseUrl (forwarded q)) ∧
    (∀ jose parseUrl validateToken ctx now instant replay,
      authenticateCommon jose parseUrl validateToken (forwarded r) ctx now instant replay =
        authenticateCommon jose parseUrl validateToken (forwarded q) ctx now instant replay) ∧
    addressFromRequest (forwarded r) = addressFromRequest (forwarded q) ∧
    ∀ (S : Type) (provider : StorageProvider S) (config : BlockConfig),
      (∀ session body, handleBlock provider config session ⟨forwarded r, body⟩ =
        handleBlock provider config session ⟨forwarded q, body⟩) ∧
      ∀ (d : Deployment) (s : Site S) (id : Nat) (guard : Guard) (rest : List SiteEvent),
        Option.Rel SitesAlike
          (run (siteStep provider config d) s (.act (.arrive id guard (forwarded r)) :: rest))
          (run (siteStep provider config d) s (.act (.arrive id guard (forwarded q)) :: rest)) := by
  have refused : peerTrusted lib trustedProxies (peerAddress connection) = false := by
    simpa [peerTrusted] using untrusted
  have alike := middleware_alike refused same
  refine ⟨⟨?_,alike.effectiveAddress.symm⟩,alike_buildEffectiveUri alike,?_,
    alike_addressFromRequest alike,?_⟩
  · simp only [middleware, resolve_untrusted refused]
  · intro jose parseUrl validateToken ctx now instant replay
    exact alike_authenticateCommon alike jose parseUrl validateToken ctx now instant replay
  · intro S provider config
    refine ⟨alike_handleBlock alike provider config,?_⟩
    intro d s id guard rest
    have arrival : EventsAlike _ _ := .act (.arrive id guard alike)
    exact sites_run_alike (sitesAlike_refl s)
      (.cons arrival (List.forall₂_same.mpr fun e _ => eventsAlike_refl e))

def plainRequest : Request := soloRequest "vault.test" targetX

def spoofedRequest : Request :=
  { plainRequest with
    headers := ("x-forwarded-for", headerBytes "10.0.0.5") :: plainRequest.headers ++
      [("x-forwarded-proto", headerBytes "https")] }

def strangerPeer : Option SocketAddr := some ⟨.v4 0xcb007107, 40000⟩

theorem spoofed_headers_inert :
    let forwarded := middleware plainLibrary [tenNet] strangerPeer
    (forwarded spoofedRequest).effectiveAddress = some ⟨.v4 0xcb007107, .http⟩ ∧
      spoofedRequest.headers ≠ plainRequest.headers := by
  have same : SameButForwarded spoofedRequest plainRequest := by
    refine ⟨rfl,?_,rfl,rfl⟩
    intro name other
    simp only [forwardedHeaders, List.mem_cons, List.not_mem_nil, or_false, not_or] at other
    simp [spoofedRequest, Ne.symm other.1, Ne.symm other.2]
  have inert := forwarded_headers_inert plainLibrary [tenNet] strangerPeer (by decide) same
  exact ⟨inert.1.1,by decide⟩

end ForwardedHeaders
