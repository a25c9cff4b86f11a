import Apokryphos.BlockRoutes
import Apokryphos.GuardedRequests
import Apokryphos.LogEvents
import Apokryphos.ProxyTrust
import Apokryphos.RejectedRequests

/-!
The router and the handlers behind it. Every route takes any method, so that the
handler decides about the method itself and a method that it does not serve is
answered like a path that does not exist. What a handler logs is part of its
answer; the block handlers without their events are those of `BlockRoutes`.
-/
namespace SiteRoutes
open BlockRoutes BlockStorage Digests GuardedRequests LogEvents OidcContexts ProxyTrust RequestGuards
open ServerConfig Texts TokenValidation
open RejectedRequests (blockGuard)

/-- The HTTP framework: how the pattern of a route matches a path, and how a
    string is written in JSON. The framework decides for itself whether a captured
    segment may be empty. -/
structure WebLibrary where
  pathMatches : String → String → Bool
  static : ∀ {pattern path}, '{' ∉ pattern.toList → (pathMatches pattern path = true ↔ path = pattern)
  segment : ∀ {start path}, '{' ∉ start.toList → pathMatches (start ++ "{id}") path = true →
    ∃ segment, '/' ∉ segment.toList ∧ path = start ++ segment
  captured : ∀ {start segment}, '{' ∉ start.toList → '/' ∉ segment.toList → segment ≠ "" →
    pathMatches (start ++ "{id}") (start ++ segment) = true
  jsonString : String → Bytes
  readable : ∀ {a b}, jsonString a = jsonString b → a = b

def plainMatches (pattern path : String) : Bool :=
  let start := pattern.toList.takeWhile (· ≠ '{')
  if start = pattern.toList then path = pattern
  else
    match stripPrefix (String.ofList start) path with
    | some segment => pattern.toList = start ++ "{id}".toList && segment ≠ "" && '/' ∉ segment.toList
    | none => false

theorem plainMatches_static {pattern path : String} (plain : '{' ∉ pattern.toList) :
    plainMatches pattern path = true ↔ path = pattern := by
  have whole : pattern.toList.takeWhile (· ≠ '{') = pattern.toList := by
    refine List.takeWhile_eq_self_iff.mpr fun c member => decide_eq_true ?_
    rintro rfl
    exact plain member
  unfold plainMatches
  rw [whole, if_pos rfl]
  exact decide_eq_true_iff

theorem plainMatches_capture {start path : String} (plain : '{' ∉ start.toList) :
    plainMatches (start ++ "{id}") path = true ↔
      ∃ segment, segment ≠ "" ∧ '/' ∉ segment.toList ∧ path = start ++ segment := by
  have front : (start ++ "{id}").toList.takeWhile (· ≠ '{') = start.toList := by
    rw [String.toList_append, List.takeWhile_append_of_pos]
    · exact List.append_nil _
    · intro c member
      refine decide_eq_true ?_
      rintro rfl
      exact plain member
  have longer : start.toList ≠ (start ++ "{id}").toList := by
    rw [String.toList_append]
    intro same
    have empty := List.append_cancel_left ((List.append_nil _).trans same)
    revert empty
    decide
  have shape : decide ((start ++ "{id}").toList = start.toList ++ "{id}".toList) = true :=
    decide_eq_true String.toList_append
  unfold plainMatches
  dsimp only
  rw [front, if_neg longer, String.ofList_toList, shape]
  cases stripped : stripPrefix start path with
  | none =>
    refine iff_of_false Bool.false_ne_true ?_
    rintro ⟨segment,_,_,same⟩
    rw [stripPrefix_some.mpr same] at stripped
    cases stripped
  | some rest =>
    have same := stripPrefix_some.mp stripped
    simp only [Bool.true_and, Bool.and_eq_true, decide_eq_true_eq]
    constructor
    · rintro ⟨present,single⟩
      exact ⟨rest,present,single,same⟩
    · rintro ⟨segment,present,single,other⟩
      have both : start ++ rest = start ++ segment := same.symm.trans other
      have equal : rest = segment := by
        apply String.toList_injective
        have lists := congrArg String.toList both
        rw [String.toList_append, String.toList_append] at lists
        exact List.append_cancel_left lists
      rw [equal]
      exact ⟨present,single⟩

def plainWeb : WebLibrary where
  pathMatches := plainMatches
  static := plainMatches_static
  segment := by
    intro start path plain matched
    obtain ⟨segment,_,single,same⟩ := (plainMatches_capture plain).mp matched
    exact ⟨segment,single,same⟩
  captured := by
    intro start segment plain single present
    exact (plainMatches_capture plain).mpr ⟨segment,present,single,rfl⟩
  jsonString s := utf8 ("\"" ++ s ++ "\"")
  readable := by
    intro a b same
    have texts := congrArg String.toList (utf8_injective same)
    simp only [String.toList_append] at texts
    exact String.toList_injective (List.append_cancel_left (List.append_cancel_right texts))

abbrev Answer := Response × List LogEvent

def wwwAuthenticateValue : String := "DPoP algs=\"PS256 ES256\""

def respond401 : Response :=
  ⟨401, [("www-authenticate", wwwAuthenticateValue), ("content-length", "0")], []⟩

def respond503MemoryPressure : Response := ⟨503, [("content-length", "0")], []⟩

def refusal : AuthFailure → Response
  | .memoryPressure => respond503MemoryPressure
  | _ => respond401

def emptyNotFound : Response := ⟨404, [], []⟩

def rejected (request : Request) : Answer :=
  (emptyNotFound, [.requestRejected request.method (rawPath request) (addressFromRequest request)])

def fallback404 (request : Request) : Answer := rejected request

def reject404 (request : Request) : Answer := rejected request

def methodMismatch404 (request : Request) : Answer := rejected request

def jsonResponse (body : Bytes) : Response := ⟨200, [("content-type", "application/json")], body⟩

def handleHealth (request : Request) : Answer :=
  if request.method = "GET" then (jsonResponse (utf8 "\x7b\"alive\":true\x7d"), [])
  else reject404 request

def extension (tag : AudienceTag) (subject : Option Subject) : Option Subject :=
  subject.filter fun s => s.tag = tag

def whoamiResponse (web : WebLibrary) (sub : String) : Response :=
  jsonResponse (utf8 "\x7b\"sub\":" ++ web.jsonString sub ++ utf8 "\x7d")

/-- Without the extension it answers like the guard. -/
def handleWhoami (web : WebLibrary) (tag : AudienceTag) (request : Request) (subject : Option Subject) :
    Answer :=
  if request.method = "GET" then
    match extension tag subject with
    | some s => (whoamiResponse web s.sub, [])
    | none => (respond401, [])
  else methodMismatch404 request

def subjectFromRequest (subject : Option Subject) : String :=
  ((extension .vault subject).map Subject.sub).getD "<unauthenticated>"

section Handlers
variable {S : Type} (provider : StorageProvider S)

def handleGetLogged (s : Session S) (id : BlockId) (fields : BlockFields) : Answer × Session S :=
  match s.get provider id with
  | (.ok payload, s) => ((respondBlock200 payload, [.getHit fields]), s)
  | (.error .notFound, s) => ((respondBlock404, [.getMiss fields]), s)
  | (.error (.backend cause), s) =>
    ((respondBlock503, [.getBackendFailed fields (BackendFailureCause.asStr cause)]), s)

def handlePutLogged (config : BlockConfig) (s : Session S) (id : BlockId) (fields : BlockFields)
    (r : BlockRequest) : Answer × Session S :=
  if ∃ declared ∈ contentLength r.request, declared ≠ config.blockSizeBytes then
    ((respondBlock400, []), s)
  else
    match MachineWords.checkedAdd config.blockSizeBytes 1 with
    | none => ((respondBlock400, []), s)
    | some n =>
      let limit := n.toNat % 2 ^ config.usizeBits
      match config.reader.toBytes r.body limit with
      | none => ((respondBlock400, []), s)
      | some bytes =>
        if UInt64.ofNat bytes.length ≠ config.blockSizeBytes then ((respondBlock400, []), s)
        else
          match s.put provider id bytes with
          | (.ok _, s) => ((respondBlock204, [.putOk fields config.blockSizeBytes]), s)
          | (.error (.backend cause), s) =>
            ((respondBlock503, [.putBackendFailed fields (BackendFailureCause.asStr cause)]), s)
          -- The only response of a storage operation without an event.
          | (.error .notFound, s) => ((respondBlock503, []), s)

def handleDeleteLogged (s : Session S) (id : BlockId) (fields : BlockFields) : Answer × Session S :=
  match s.delete provider id with
  | (.ok _, s) => ((respondBlock204, [.deleteOk fields]), s)
  | (.error (.backend cause), s) =>
    ((respondBlock503, [.deleteBackendFailed fields (BackendFailureCause.asStr cause)]), s)
  | (.error .notFound, s) => ((respondBlock204, [.deleteOk fields]), s)

def handleBlockLogged (config : BlockConfig) (s : Session S) (r : BlockRequest)
    (subject : Option Subject) : Answer × Session S :=
  let idStr := (stripPrefix blocksRoot (rawPath r.request)).getD ""
  match BlockId.parse idStr with
  | none =>
    ((respondBlock404, [.getMiss ⟨blockIdMalformed, subjectFromRequest subject,
      addressFromRequest r.request⟩]), s)
  | some id =>
    let fields := ⟨id.text, subjectFromRequest subject, addressFromRequest r.request⟩
    if r.request.method = "GET" then handleGetLogged provider s id fields
    else if r.request.method = "PUT" then handlePutLogged provider config s id fields r
    else if r.request.method = "DELETE" then handleDeleteLogged provider s id fields
    else ((respondBlock404, [.getMiss fields]), s)

end Handlers

inductive Endpoint where
  | health
  | whoami (tag : AudienceTag)
  | block
  | fallback
  deriving DecidableEq

/-- Mounted where there is a provider. -/
def blockRoutes : List (String × Endpoint) := [(blocksRoot ++ "{id}", .block)]

def vaultRoutes (storage : Bool) : List (String × Endpoint) :=
  ("/api/whoami", .whoami .vault) :: if storage then blockRoutes else []

def adminRoutes : List (String × Endpoint) := [("/admin/whoami", .whoami .admin)]

def buildRouter (vaultCtx adminCtx replayStore storage : Bool) : List (String × Endpoint) :=
  ("/health", .health) :: ((if vaultCtx && replayStore then vaultRoutes storage else []) ++
    if adminCtx && replayStore then adminRoutes else [])

def siteRouter (storage : Bool) : List (String × Endpoint) := buildRouter true true true storage

def dispatch (web : WebLibrary) (router : List (String × Endpoint)) (path : String) : Endpoint :=
  ((router.find? fun route => web.pathMatches route.1 path).map Prod.snd).getD .fallback

def Endpoint.guard : Endpoint → Option Guard
  | .whoami .vault => some vaultGuard
  | .whoami .admin => some .admin
  | .block => some blockGuard
  | .health | .fallback => none

section Erasure
variable {S : Type} (provider : StorageProvider S)

theorem handleGetLogged_plain (s : Session S) (id : BlockId) (fields : BlockFields) :
    ((handleGetLogged provider s id fields).1.1, (handleGetLogged provider s id fields).2) =
      handleGet provider s id := by
  unfold handleGetLogged handleGet
  cases s.get provider id with
  | mk outcome after =>
    cases outcome with
    | ok payload => rfl
    | error e => cases e <;> rfl

theorem handlePutLogged_plain (config : BlockConfig) (s : Session S) (id : BlockId)
    (fields : BlockFields) (r : BlockRequest) :
    ((handlePutLogged provider config s id fields r).1.1,
      (handlePutLogged provider config s id fields r).2) = handlePut provider config s id r := by
  unfold handlePutLogged handlePut
  by_cases declared : ∃ declared ∈ contentLength r.request, declared ≠ config.blockSizeBytes
  · rw [if_pos declared, if_pos declared]
  · rw [if_neg declared, if_neg declared]
    cases MachineWords.checkedAdd config.blockSizeBytes 1 with
    | none => rfl
    | some n =>
      dsimp only
      cases config.reader.toBytes r.body (n.toNat % 2 ^ config.usizeBits) with
      | none => rfl
      | some bytes =>
        dsimp only
        by_cases size : UInt64.ofNat bytes.length ≠ config.blockSizeBytes
        · rw [if_pos size, if_pos size]
        · rw [if_neg size, if_neg size]
          cases s.put provider id bytes with
          | mk outcome after =>
            cases outcome with
            | ok u => rfl
            | error e => cases e <;> rfl

theorem handleDeleteLogged_plain (s : Session S) (id : BlockId) (fields : BlockFields) :
    ((handleDeleteLogged provider s id fields).1.1, (handleDeleteLogged provider s id fields).2) =
      handleDelete provider s id := by
  unfold handleDeleteLogged handleDelete
  cases s.delete provider id with
  | mk outcome after =>
    cases outcome with
    | ok u => rfl
    | error e => cases e <;> rfl

theorem handleBlockLogged_plain (config : BlockConfig) (s : Session S) (r : BlockRequest)
    (subject : Option Subject) :
    ((handleBlockLogged provider config s r subject).1.1,
      (handleBlockLogged provider config s r subject).2) = handleBlock provider config s r := by
  unfold handleBlockLogged handleBlock
  dsimp only
  cases BlockId.parse ((stripPrefix blocksRoot (rawPath r.request)).getD "") with
  | none => rfl
  | some id =>
    dsimp only
    by_cases get : r.request.method = "GET"
    · rw [if_pos get, if_pos get]
      exact handleGetLogged_plain provider s _ _
    · rw [if_neg get, if_neg get]
      by_cases put : r.request.method = "PUT"
      · rw [if_pos put, if_pos put]
        exact handlePutLogged_plain provider config s _ _ r
      · rw [if_neg put, if_neg put]
        by_cases delete : r.request.method = "DELETE"
        · rw [if_pos delete, if_pos delete]
          exact handleDeleteLogged_plain provider s _ _
        · rw [if_neg delete, if_neg delete]

end Erasure

section Dispatch
variable (web : WebLibrary) {storage : Bool} {path : String}

inductive Dispatched (storage : Bool) (path : String) : Endpoint → Prop where
  | health (same : path = "/health") : Dispatched storage path .health
  | vaultWhoami (same : path = "/api/whoami") : Dispatched storage path (.whoami .vault)
  | adminWhoami (same : path = "/admin/whoami") : Dispatched storage path (.whoami .admin)
  | block {segment} (mounted : storage = true) (single : '/' ∉ segment.toList)
      (same : path = blocksRoot ++ segment) : Dispatched storage path .block
  | fallback (other : path ∉ ["/health", "/api/whoami", "/admin/whoami"])
      (noBlock : storage = true → ∀ segment, '/' ∉ segment.toList → segment ≠ "" →
        path ≠ blocksRoot ++ segment) : Dispatched storage path .fallback

theorem blocksRoot_plain : '{' ∉ blocksRoot.toList := by decide

theorem blocks_not_static {segment : String} :
    blocksRoot ++ segment ∉ ["/health", "/api/whoami", "/admin/whoami"] := by
  intro listed
  have begins : blocksRoot.toList <+: (blocksRoot ++ segment).toList := by
    rw [String.toList_append]
    exact List.prefix_append _ _
  simp only [List.mem_cons, List.not_mem_nil, or_false] at listed
  rcases listed with same | same | same <;> rw [same] at begins <;> revert begins <;> decide

theorem route_cases {route : String × Endpoint} (member : route ∈ siteRouter storage) :
    route = ("/health", .health) ∨ route = ("/api/whoami", .whoami .vault) ∨
      route = ("/admin/whoami", .whoami .admin) ∨
      (storage = true ∧ route = (blocksRoot ++ "{id}", .block)) := by
  cases storage with
  | false =>
    have listed : route ∈ [("/health", .health), ("/api/whoami", .whoami .vault),
      ("/admin/whoami", .whoami .admin)] := member
    simp only [List.mem_cons, List.not_mem_nil, or_false] at listed
    tauto
  | true =>
    have listed : route ∈ [("/health", .health), ("/api/whoami", .whoami .vault),
      (blocksRoot ++ "{id}", .block), ("/admin/whoami", .whoami .admin)] := member
    simp only [List.mem_cons, List.not_mem_nil, or_false] at listed
    tauto

theorem matched_dispatched {route : String × Endpoint} (member : route ∈ siteRouter storage)
    (matched : web.pathMatches route.1 path = true) : Dispatched storage path route.2 := by
  rcases route_cases member with rfl | rfl | rfl | ⟨mounted,rfl⟩
  · exact .health ((web.static (by decide)).mp matched)
  · exact .vaultWhoami ((web.static (by decide)).mp matched)
  · exact .adminWhoami ((web.static (by decide)).mp matched)
  · obtain ⟨segment,single,same⟩ := web.segment blocksRoot_plain matched
    exact .block mounted single same

theorem matched_pattern {route : String × Endpoint} (member : route ∈ siteRouter storage)
    (matched : web.pathMatches route.1 path = true) :
    (route.1 = path ∧ path ∈ ["/health", "/api/whoami", "/admin/whoami"]) ∨
      (route = (blocksRoot ++ "{id}", .block) ∧ path ∉ ["/health", "/api/whoami", "/admin/whoami"]) := by
  have reached := matched_dispatched web member matched
  rcases route_cases member with rfl | rfl | rfl | ⟨_,rfl⟩
  · cases reached with
    | health same => exact .inl ⟨same.symm,by rw [same]; decide⟩
  · cases reached with
    | vaultWhoami same => exact .inl ⟨same.symm,by rw [same]; decide⟩
  · cases reached with
    | adminWhoami same => exact .inl ⟨same.symm,by rw [same]; decide⟩
  · cases reached with
    | block _ _ same => exact .inr ⟨rfl,by rw [same]; exact blocks_not_static⟩

/-- The patterns are disjoint, so that the order in which the routes are merged
    does not matter. -/
theorem matched_unique {a b : String × Endpoint} (left : a ∈ siteRouter storage)
    (right : b ∈ siteRouter storage) (first : web.pathMatches a.1 path = true)
    (second : web.pathMatches b.1 path = true) : a = b := by
  have patterns : ∀ storage, ∀ a ∈ siteRouter storage, ∀ b ∈ siteRouter storage, a.1 = b.1 → a = b := by
    decide
  rcases matched_pattern web left first with ⟨same,listed⟩ | ⟨rfl,unlisted⟩
  · rcases matched_pattern web right second with ⟨other,_⟩ | ⟨_,unlisted⟩
    · exact patterns storage a left b right (same.trans other.symm)
    · exact absurd listed unlisted
  · rcases matched_pattern web right second with ⟨_,listed⟩ | ⟨rfl,_⟩
    · exact absurd listed unlisted
    · rfl

theorem dispatch_member {route : String × Endpoint} (member : route ∈ siteRouter storage)
    (matched : web.pathMatches route.1 path = true) :
    dispatch web (siteRouter storage) path = route.2 := by
  unfold dispatch
  cases found : (siteRouter storage).find? fun route => web.pathMatches route.1 path with
  | none =>
    have unmatched := List.find?_eq_none.mp found route member
    exact absurd matched unmatched
  | some other =>
    have hit : web.pathMatches other.1 path = true := by simpa using List.find?_some found
    rw [matched_unique web member (List.mem_of_find?_eq_some found) matched hit]
    rfl

theorem dispatch_dispatched (storage : Bool) (path : String) :
    Dispatched storage path (dispatch web (siteRouter storage) path) := by
  cases found : (siteRouter storage).find? fun route => web.pathMatches route.1 path with
  | some route =>
    have hit : web.pathMatches route.1 path = true := by simpa using List.find?_some found
    have member := List.mem_of_find?_eq_some found
    rw [dispatch_member web member hit]
    exact matched_dispatched web member hit
  | none =>
    have unmatched : ∀ route ∈ siteRouter storage, web.pathMatches route.1 path ≠ true :=
      List.find?_eq_none.mp found
    have missed : dispatch web (siteRouter storage) path = .fallback := by
      unfold dispatch
      rw [found]
      rfl
    rw [missed]
    constructor
    · intro listed
      have mounted : ∃ endpoint, (path, endpoint) ∈ siteRouter storage ∧ '{' ∉ path.toList := by
        simp only [List.mem_cons, List.not_mem_nil, or_false] at listed
        rcases listed with rfl | rfl | rfl
        · exact ⟨.health,by cases storage <;> decide,by decide⟩
        · exact ⟨.whoami .vault,by cases storage <;> decide,by decide⟩
        · exact ⟨.whoami .admin,by cases storage <;> decide,by decide⟩
      obtain ⟨endpoint,member,plain⟩ := mounted
      exact unmatched _ member ((web.static plain).mpr rfl)
    · rintro rfl segment single present rfl
      refine unmatched (blocksRoot ++ "{id}", .block) (by decide) ?_
      exact web.captured blocksRoot_plain single present

end Dispatch

end SiteRoutes
