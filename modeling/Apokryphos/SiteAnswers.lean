import Apokryphos.ServedRequests

/-!
What clients learn from the answers of the site. A method that a route does not
serve is answered like a path that does not exist. A guard turns a request away
with one of two fixed responses, whatever the cause. The routes that name the
caller name the subject of the token that was verified for their own audience.
-/
namespace SiteAnswers
open BlockRoutes BlockStorage Digests GuardedRequests LogEvents MachineWords OidcContexts ProofValidation
open ProxyTrust RequestGuards ServedRequests ServerConfig SiteRoutes StepRuns TokenValidation
open RejectedRequests (blockGuard run_bypass)

def served : Endpoint → List String
  | .health | .whoami _ => ["GET"]
  | .block => ["GET", "PUT", "DELETE"]
  | .fallback => []

theorem guard_authenticates {endpoint : Endpoint} {guard : Guard} (guarded : endpoint.guard = some guard)
    (method : String) : guard.authenticates method = decide (method ∈ served endpoint) := by
  cases endpoint with
  | health => cases guarded
  | fallback => cases guarded
  | whoami tag =>
    cases tag <;> cases guarded
    · simp [vaultGuard, Guard.authenticates, served, eq_comm, Bool.beq_eq_decide_eq]
    · simp [Guard.authenticates, served, Bool.beq_eq_decide_eq]
  | block =>
    cases guarded
    simp [blockGuard, Guard.authenticates, served, eq_comm, Bool.beq_eq_decide_eq]

section Visits
variable {d : Deployment} {start u : Server} {actions : List Action} {id : Nat} {v : Visit}

def Passing (phase : Phase) : Prop := phase = .entered ∨ phase = .answered (.forwarded none)

theorem reachable_passing (started : Started d start) (taken : run (step d) start actions = some u)
    (found : u.visit id = some v) (outside : v.guard.authenticates v.request.method = false) :
    Passing v.phase := by
  refine run_invariant (fun u => ∀ v, u.visit id = some v →
    v.guard.authenticates v.request.method = false → Passing v.phase) ?_ ?_ taken v found outside
  · intro s a t holds next v found outside
    have moves := step_moves next id
    rw [found] at moves
    generalize before : s.visit id = w at moves
    cases moves with
    | elsewhere => exact holds v before outside
    | arrived => exact .inl rfl
    | @proceeded w after proceeds =>
      have stands := holds w before outside
      unfold proceed at proceeds
      rcases stands with stands | stands <;> rw [stands] at proceeds
      · dsimp only at proceeds
        rw [if_neg (by rw [outside]; decide)] at proceeds
        cases proceeds
        exact .inr rfl
      · cases proceeds
    | suspended stands =>
      rcases holds _ before outside with other | other <;> cases stands.symm.trans other
    | abandoned stands =>
      rcases holds _ before outside with other | other <;> cases stands.symm.trans other
  · intro v found
    unfold Server.visit at found
    rw [started.visits] at found
    cases found

theorem reachable_subject (started : Started d start) (taken : run (step d) start actions = some u)
    (found : u.visit id = some v) {subject : Option Subject}
    (stands : v.phase = .answered (.forwarded subject)) :
    (v.guard.authenticates v.request.method = false ∧ subject = none) ∨
      (v.guard.authenticates v.request.method = true ∧ ∃ o token, subject = some ⟨v.guard.tag, token.sub⟩ ∧
        Opened d v.guard v.request o ∧ Checked d start actions id v.guard v.request o token ∧
        Proved d start actions id v.guard v.request o token) := by
  cases subject with
  | none => exact .inl ⟨run_bypass started taken found stands,rfl⟩
  | some subject =>
    obtain ⟨o,token,opened,rfl,checked,proved⟩ :=
      (reachable_justified started taken id v found).forwarded subject stands
    exact .inr ⟨opened.1,o,token,rfl,opened,checked,proved⟩

end Visits

/-- The framework adds the length of a body to the headers where a handler did not. -/
def SendsLength (send : Response → Bytes) : Prop :=
  ∀ status headers body, (∀ h ∈ headers, h.1 ≠ "content-length") →
    send ⟨status, headers, body⟩ =
      send ⟨status, headers ++ [("content-length", toString body.length)], body⟩

def plainSend (r : Response) : Bytes :=
  let headers :=
    if r.headers.any fun h => h.1 = "content-length" then r.headers
    else r.headers ++ [("content-length", toString r.body.length)]
  utf8 ("HTTP/1.1 " ++ toString r.status ++ "\r\n" ++
    String.join (headers.map fun h => h.1 ++ ": " ++ h.2 ++ "\r\n") ++ "\r\n") ++ r.body

theorem plainSend_length : SendsLength plainSend := by
  intro status headers body absent
  have missing : headers.any (fun h => decide (h.1 = "content-length")) = false :=
    List.any_eq_false.mpr fun h member present => absent h member (of_decide_eq_true present)
  simp [plainSend, missing]

theorem sent_alike {send : Response → Bytes} (sends : SendsLength send) :
    send respondBlock404 = send emptyNotFound :=
  (sends 404 [] [] nofun).symm

section Answers
variable {S : Type} {c : SiteConfig} {provider : StorageProvider S} {mounted : Bool}

theorem openHandler_unserved {endpoint : Endpoint} {request : Request}
    (unserved : request.method ∉ served endpoint) :
    (openHandler endpoint request).1 = emptyNotFound := by
  cases endpoint with
  | health =>
    have other : request.method ≠ "GET" := by simpa [served] using unserved
    simp only [openHandler, handleHealth, if_neg other]
    rfl
  | _ => rfl

theorem handleBlockLogged_unserved {config : BlockConfig} {s : Session S} {r : BlockRequest}
    (subject : Option Subject) (unserved : r.request.method ∉ served .block) :
    (handleBlockLogged provider config s r subject).1.1 = respondBlock404 ∧
      (handleBlockLogged provider config s r subject).2 = s := by
  have other : r.request.method ≠ "GET" ∧ r.request.method ≠ "PUT" ∧ r.request.method ≠ "DELETE" := by
    simpa [served] using unserved
  unfold handleBlockLogged
  dsimp only
  split
  · exact ⟨rfl,rfl⟩
  · rw [if_neg other.1, if_neg other.2.1, if_neg other.2.2]
    exact ⟨rfl,rfl⟩

theorem handled_unserved {v : Visit} {subject : Option Subject} {answer : Answer}
    {calls : List StorageCall} (ran : Handled c provider mounted v subject answer calls)
    (unserved : v.request.method ∉ served (c.endpoint mounted v.request)) :
    (answer.1 = emptyNotFound ∨ answer.1 = respondBlock404) ∧ calls = [] := by
  cases ran with
  | whoami leads =>
    rw [leads] at unserved
    have other : v.request.method ≠ "GET" := by simpa [served] using unserved
    refine ⟨.inl ?_,rfl⟩
    unfold handleWhoami
    rw [if_neg other]
    rfl
  | block leads =>
    rw [leads] at unserved
    rename_i store body
    refine ⟨.inr (handleBlockLogged_unserved subject unserved).1,?_⟩
    rw [(handleBlockLogged_unserved subject unserved).2]

end Answers

def Plain (r : Response) : Prop := r.status ≠ 401 ∧ ∀ h ∈ r.headers, h.1 ≠ "www-authenticate"

instance (r : Response) : Decidable (Plain r) := inferInstanceAs (Decidable (_ ∧ _))

theorem challenged : ¬ Plain respond401 := by decide

theorem plain_responses : ∀ r ∈ [emptyNotFound, respondBlock204, respondBlock400, respondBlock404,
    respondBlock503], Plain r := by
  decide

theorem respondBlock200_plain (payload : Bytes) : Plain (respondBlock200 payload) := by
  refine ⟨show 200 ≠ 401 by decide,?_⟩
  intro h member
  have named : h.1 ∈ ["content-type", "content-length", "cache-control"] :=
    List.mem_map_of_mem (f := Prod.fst) member
  revert named
  generalize h.1 = name
  revert name
  decide

theorem jsonResponse_plain (body : Bytes) : Plain (jsonResponse body) := by
  refine ⟨show 200 ≠ 401 by decide,?_⟩
  intro h member
  rw [List.mem_singleton.mp member]
  exact show "content-type" ≠ "www-authenticate" by decide

theorem openHandler_plain (endpoint : Endpoint) (request : Request) :
    Plain (openHandler endpoint request).1 := by
  have missing : Plain (rejected request).1 := plain_responses _ List.mem_cons_self
  cases endpoint with
  | health =>
    simp only [openHandler, handleHealth]
    split
    · exact jsonResponse_plain _
    · exact missing
  | _ => exact missing

theorem whoamiResponse_injective {web : WebLibrary} {a b : String}
    (same : whoamiResponse web a = whoamiResponse web b) : a = b := by
  have bodies := congrArg Response.body same
  simp only [whoamiResponse, jsonResponse] at bodies
  exact web.readable (List.append_cancel_left (List.append_cancel_right bodies))

theorem refusal_refuse {failure other : AuthFailure} (same : refusal failure = refusal other) :
    refuse failure = refuse other := by
  cases failure <;> cases other <;> first | rfl | cases same

theorem refusal_plain {failure : AuthFailure} (pressed : failure = .memoryPressure) :
    Plain (refusal failure) := by
  rw [pressed]
  decide

theorem refusal_challenges {failure : AuthFailure} (other : failure ≠ .memoryPressure) :
    refusal failure = respond401 ∧ refuse failure = .respond401 := by
  cases failure <;> first | exact ⟨rfl,rfl⟩ | exact absurd rfl other

/-- Every answer of the block handler, with what it says about the operation. -/
inductive Reports (config : BlockConfig) (fields : BlockFields) (method : String) : Answer → Prop where
  | hit (get : method = "GET") (payload : Bytes) :
      Reports config fields method (respondBlock200 payload, [.getHit fields])
  | miss : Reports config fields method (respondBlock404, [.getMiss fields])
  | getFailed (get : method = "GET") (cause : BackendFailureCause) :
      Reports config fields method
        (respondBlock503, [.getBackendFailed fields (BackendFailureCause.asStr cause)])
  | stored (put : method = "PUT") :
      Reports config fields method (respondBlock204, [.putOk fields config.blockSizeBytes])
  | putFailed (put : method = "PUT") (cause : BackendFailureCause) :
      Reports config fields method
        (respondBlock503, [.putBackendFailed fields (BackendFailureCause.asStr cause)])
  | putMissing (put : method = "PUT") : Reports config fields method (respondBlock503, [])
  | refusedPut (put : method = "PUT") : Reports config fields method (respondBlock400, [])
  | deleted (delete : method = "DELETE") :
      Reports config fields method (respondBlock204, [.deleteOk fields])
  | deleteFailed (delete : method = "DELETE") (cause : BackendFailureCause) :
      Reports config fields method
        (respondBlock503, [.deleteBackendFailed fields (BackendFailureCause.asStr cause)])

theorem reports_plain {config : BlockConfig} {fields : BlockFields} {method : String} {answer : Answer}
    (reports : Reports config fields method answer) : Plain answer.1 := by
  cases reports with
  | hit _ payload => exact respondBlock200_plain payload
  | miss => exact plain_responses respondBlock404 (by decide)
  | stored | deleted => exact plain_responses respondBlock204 (by decide)
  | refusedPut => exact plain_responses respondBlock400 (by decide)
  | getFailed | putFailed | putMissing | deleteFailed => exact plain_responses respondBlock503 (by decide)

theorem reports_single {config : BlockConfig} {fields : BlockFields} {method : String} {r : Response}
    {log : List LogEvent} (reports : Reports config fields method (r, log)) {e : LogEvent}
    (member : e ∈ log) : log = [e] := by
  cases reports with
  | putMissing | refusedPut => cases member
  | _ => rw [List.mem_singleton.mp member]

/-- The events of a request name its block by the identifier in its path, or by
    the sentinel where there is none. -/
def NamesBlock (r : Request) (name : String) : Prop :=
  (∃ id, Names ⟨r, .complete []⟩ id ∧ name = id.text) ∨
    ((∀ id, ¬ Names ⟨r, .complete []⟩ id) ∧ name = blockIdMalformed)

section Reporting
variable {S : Type} (provider : StorageProvider S) {config : BlockConfig} {s : Session S}
  {id : BlockId} {fields : BlockFields} {r : BlockRequest}

theorem handleGetLogged_reports (get : r.request.method = "GET") :
    Reports config fields r.request.method (handleGetLogged provider s id fields).1 := by
  unfold handleGetLogged
  cases s.get provider id with
  | mk outcome after =>
    cases outcome with
    | ok payload => exact .hit get payload
    | error e =>
      cases e with
      | notFound => exact .miss
      | backend cause => exact .getFailed get cause

theorem handlePutLogged_reports (put : r.request.method = "PUT") :
    Reports config fields r.request.method (handlePutLogged provider config s id fields r).1 := by
  unfold handlePutLogged
  split
  · exact .refusedPut put
  · split
    · exact .refusedPut put
    · dsimp only
      split
      · exact .refusedPut put
      · rename_i bytes _
        split
        · exact .refusedPut put
        · cases s.put provider id bytes with
          | mk outcome after =>
            cases outcome with
            | ok u => exact .stored put
            | error e =>
              cases e with
              | notFound => exact .putMissing put
              | backend cause => exact .putFailed put cause

theorem handleDeleteLogged_reports (delete : r.request.method = "DELETE") :
    Reports config fields r.request.method (handleDeleteLogged provider s id fields).1 := by
  unfold handleDeleteLogged
  cases s.delete provider id with
  | mk outcome after =>
    cases outcome with
    | ok u => exact .deleted delete
    | error e =>
      cases e with
      | notFound => exact .deleted delete
      | backend cause => exact .deleteFailed delete cause

theorem handleBlockLogged_reports (config : BlockConfig) (s : Session S) (r : BlockRequest)
    (subject : Option Subject) :
    ∃ name, NamesBlock r.request name ∧
      Reports config ⟨name, subjectFromRequest subject, addressFromRequest r.request⟩ r.request.method
        (handleBlockLogged provider config s r subject).1 := by
  unfold handleBlockLogged
  dsimp only
  split
  · rename_i unparsed
    refine ⟨blockIdMalformed,.inr ⟨?_,rfl⟩,.miss⟩
    intro id named
    rw [parsed_names.mpr named] at unparsed
    cases unparsed
  · rename_i id parsed
    refine ⟨id.text,.inl ⟨id,parsed_names.mp parsed,rfl⟩,?_⟩
    split
    · rename_i get
      exact handleGetLogged_reports provider get
    · split
      · rename_i put
        exact handlePutLogged_reports provider put
      · split
        · rename_i delete
          exact handleDeleteLogged_reports provider delete
        · exact .miss

end Reporting

section Handlers
variable {S : Type} {c : SiteConfig} {provider : StorageProvider S} {mounted : Bool} {v : Visit}
  {subject : Option Subject} {answer : Answer} {calls : List StorageCall}

def Introduced (v : Visit) (subject : Option Subject) : Prop :=
  v.guard.authenticates v.request.method = true → ∃ sub, subject = some ⟨v.guard.tag, sub⟩

theorem handled_whoami (ran : Handled c provider mounted v subject answer calls) {tag : AudienceTag}
    (guarded : (c.endpoint mounted v.request).guard = some v.guard)
    (leads : c.endpoint mounted v.request = .whoami tag) (introduced : Introduced v subject) :
    (v.request.method ≠ "GET" ∧ answer = methodMismatch404 v.request) ∨
      (v.request.method = "GET" ∧ v.guard.tag = tag ∧ ∃ sub, subject = some ⟨tag, sub⟩ ∧
        answer = (whoamiResponse c.web sub, [])) := by
  cases ran with
  | block other => cases leads.symm.trans other
  | @whoami tag' leads' =>
    cases leads.symm.trans leads'
    unfold handleWhoami
    by_cases get : v.request.method = "GET"
    · have own : v.guard.tag = tag := by
        rw [leads] at guarded
        cases tag <;> rw [← Option.some.inj guarded] <;> rfl
      have inside : v.guard.authenticates v.request.method = true := by
        rw [guard_authenticates guarded, leads, get]
        exact decide_eq_true List.mem_cons_self
      obtain ⟨sub,rfl⟩ := introduced inside
      rw [own]
      have kept : extension tag (some ⟨tag, sub⟩) = some ⟨tag, sub⟩ := if_pos (decide_eq_true rfl)
      refine .inr ⟨get,rfl,sub,rfl,?_⟩
      rw [if_pos get, kept]
    · rw [if_neg get]
      exact .inl ⟨get,rfl⟩

theorem handled_plain (ran : Handled c provider mounted v subject answer calls)
    (guarded : (c.endpoint mounted v.request).guard = some v.guard)
    (introduced : Introduced v subject) : Plain answer.1 := by
  cases found : c.endpoint mounted v.request with
  | whoami tag =>
    rcases handled_whoami ran guarded found introduced with ⟨_,same⟩ | ⟨_,_,sub,_,same⟩
    · rw [same]
      exact plain_responses emptyNotFound (by decide)
    · rw [same]
      exact jsonResponse_plain _
  | block =>
    cases ran with
    | whoami other => cases found.symm.trans other
    | block _ _ store body =>
      obtain ⟨name,_,reports⟩ := handleBlockLogged_reports provider c.blocks ⟨store, []⟩
        ⟨v.request, body⟩ subject
      exact reports_plain reports
  | health =>
    rw [found] at guarded
    cases guarded
  | fallback =>
    rw [found] at guarded
    cases guarded

end Handlers

def whoamiTarget : PathAndQuery where
  text := "/api/whoami"
  printable := show ∀ c ∈ "/api/whoami".toList, 32 < c.toNat by decide

theorem sample_whoami : ∃ start s, StartedSite (sampleConfig whoamiTarget) start ∧
    run (siteStep (sampleConfig whoamiTarget) atomicMap) start (sampleVisits whoamiTarget) = some s ∧
    start.store.isSome = true ∧
    (s.arrival 0).map (fun a => rawPath a.request) = some "/api/whoami" ∧
    (s.arrival 1).map (fun a => a.request.method) = some "LINK" ∧
    s.responses = [(0, whoamiResponse plainWeb "user"), (1, emptyNotFound), (2, respond401)] ∧
    (s.server.visit 2).map Visit.phase = some (.answered .respond401) := by
  have evaluated : ∃ w, RefreshTasks.Started RefreshTasks.samplePlatform w ∧
      ∃ s ∈ run (siteStep (sampleConfig whoamiTarget) atomicMap) (emptySite (fun _ => none) w)
        (sampleVisits whoamiTarget),
        (s.arrival 0).map (fun a => rawPath a.request) = some "/api/whoami" ∧
        (s.arrival 1).map (fun a => a.request.method) = some "LINK" ∧
        s.responses = [(0, whoamiResponse plainWeb "user"), (1, emptyNotFound), (2, respond401)] ∧
        (s.server.visit 2).map Visit.phase = some (.answered .respond401) :=
    RefreshTasks.sample_exists (by decide +kernel)
  obtain ⟨w,started,s,taken,facts⟩ := evaluated
  exact ⟨_,s,emptySite_started _ started,taken,rfl,facts⟩

def strayTarget : PathAndQuery where
  text := "/api/blocks/x"
  printable := show ∀ c ∈ "/api/blocks/x".toList, 32 < c.toNat by decide

theorem sample_block : ∃ start s fields, StartedSite (sampleConfig strayTarget) start ∧
    run (siteStep (sampleConfig strayTarget) atomicMap) start
      ((sampleVisits strayTarget).take 7) = some s ∧
    belonging 0 s.log = [.getMiss fields] ∧ fields.subject = "user" := by
  have evaluated : ∃ w, RefreshTasks.Started RefreshTasks.samplePlatform w ∧
      ∃ s ∈ run (siteStep (sampleConfig strayTarget) atomicMap)
        (emptySite (fun _ => none) w) ((sampleVisits strayTarget).take 7),
        belonging 0 s.log = [.getMiss ⟨blockIdMalformed, "user", localhost⟩] :=
    RefreshTasks.sample_exists (by decide +kernel)
  obtain ⟨w,started,s,taken,log⟩ := evaluated
  exact ⟨_,s,_,emptySite_started _ started,taken,log,rfl⟩

section Sites
variable {S : Type} {c : SiteConfig} {provider : StorageProvider S} {start s : Site S}
  {events : List Event} {id : Nat} {arrival : Arrival}

/-- A method that the route of the path does not serve, if there is a route, is
    answered like a path without a route, byte by byte. Neither the credentials of
    the request nor the state of the server has anything to do with it, and
    nothing is stored or deleted. -/
theorem unserved_unnoticed {send : Response → Bytes} (sends : SendsLength send)
    (started : StartedSite c start) (taken : run (siteStep c provider) start events = some s)
    (received : s.arrival id = some arrival)
    (unserved : arrival.request.method ∉
      served (c.endpoint start.store.isSome (c.effective arrival))) :
    (∀ v, s.server.visit id = some v → Passing v.phase) ∧ belonging id s.calls = [] ∧
      ∀ r ∈ belonging id s.responses, send r = send (fallback404 (c.effective arrival)).1 := by
  obtain ⟨actions,reached⟩ := site_server_run taken
  have standing := reachable_stands started taken id
  unfold Stands at standing
  rw [received] at standing
  generalize visited : s.server.visit id = visit at standing
  generalize belonging id s.responses = responses at standing
  generalize belonging id s.log = log at standing
  generalize belonging id s.calls = calls at standing
  generalize decide (id ∈ s.lost) = lost at standing
  have outside {v : Visit} (entered : Entered c start.store.isSome arrival v) :
      v.request.method ∉ served (c.endpoint start.store.isSome v.request) ∧
        v.guard.authenticates v.request.method = false := by
    rw [guard_authenticates entered.guarded, entered.request]
    exact ⟨unserved,decide_eq_false unserved⟩
  have passing {v : Visit} (entered : Entered c start.store.isSome arrival v)
      (found : s.server.visit id = some v) : Passing v.phase :=
    reachable_passing started.server reached found (outside entered).2
  cases standing with
  | unguarded leads =>
    refine ⟨?_,rfl,?_⟩
    · intro v impossible
      cases impossible
    · have same : (c.effective arrival).method ∉
          served (c.endpoint start.store.isSome (c.effective arrival)) := unserved
      intro r member
      rw [List.mem_singleton.mp member, openHandler_unserved same]
      rfl
  | @waiting _ v entered =>
    refine ⟨?_,rfl,fun r member => absurd member List.not_mem_nil⟩
    intro w same
    cases same
    exact passing entered visited
  | @refused _ v failure entered stands =>
    rcases passing entered visited with other | other
    · cases stands.symm.trans other
    · exact absurd (stands.symm.trans other).symm (forwarded_unrefused none failure)
  | @handled _ v subject answer calls entered stands ran =>
    obtain ⟨shape,quiet⟩ := handled_unserved ran (outside entered).1
    refine ⟨?_,quiet,?_⟩
    · intro w same
      cases same
      exact passing entered visited
    · intro r member
      rw [List.mem_singleton.mp member]
      rcases shape with same | same <;> rw [same]
      · rfl
      · exact sent_alike sends
  | @lost _ v subject calls entered stands ran =>
    refine ⟨?_,?_,fun r member => absurd member List.not_mem_nil⟩
    · intro w same
      cases same
      exact passing entered visited
    · rcases ran with rfl | ⟨answer,ran⟩
      · rfl
      · exact (handled_unserved ran (outside entered).1).2

theorem unserved_unnoticed_link :
    ∃ (s : Site (BlockId → Option Bytes)), emptyNotFound ∈ belonging 1 s.responses ∧
      ∀ r ∈ belonging 1 s.responses, plainSend r = plainSend emptyNotFound := by
  obtain ⟨start,s,started,taken,_,_,method,responses,_⟩ := sample_whoami
  obtain ⟨arrival,received,named⟩ := Option.map_eq_some_iff.mp method
  have member : emptyNotFound ∈ belonging 1 s.responses := by
    rw [responses]
    exact List.mem_cons_self
  have unserved : ∀ endpoint, arrival.request.method ∉ served endpoint := by
    rw [named]
    rintro (_ | ⟨⟨⟩⟩ | _ | _) <;> decide
  exact ⟨s,member,(unserved_unnoticed plainSend_length started taken received (unserved _)).2.2⟩

theorem reachable_introduced {d : Deployment} {start u : Server} {actions : List Action} {v : Visit}
    (started : Started d start) (taken : run (step d) start actions = some u)
    (found : u.visit id = some v) {subject : Option Subject}
    (stands : v.phase = .answered (.forwarded subject)) : Introduced v subject := by
  intro inside
  rcases reachable_subject started taken found stands with ⟨outside,_⟩ | ⟨_,_,token,same,_⟩
  · rw [inside] at outside
    cases outside
  · exact ⟨token.sub,same⟩

def Challenged (s : Site S) (id : Nat) : Prop :=
  ∃ v, s.server.visit id = some v ∧ v.phase = .answered .respond401

theorem challenged_response (started : StartedSite c start)
    (taken : run (siteStep c provider) start events = some s) {r : Response}
    (member : r ∈ belonging id s.responses) :
    (Plain r ∧ ¬ Challenged s id) ∨ (r = respond401 ∧ Challenged s id) := by
  obtain ⟨actions,reached⟩ := site_server_run taken
  have standing := reachable_stands started taken id
  unfold Stands at standing
  unfold Challenged
  generalize visited : s.server.visit id = visit at standing ⊢
  generalize belonging id s.responses = responses at standing member
  generalize s.arrival id = arrival at standing
  generalize belonging id s.log = log at standing
  generalize belonging id s.calls = calls at standing
  generalize decide (id ∈ s.lost) = lost at standing
  cases standing with
  | unseen => cases member
  | waiting => cases member
  | lost => cases member
  | unguarded =>
    rw [List.mem_singleton.mp member]
    refine .inl ⟨openHandler_plain _ _,?_⟩
    rintro ⟨v,impossible,_⟩
    cases impossible
  | @refused _ v failure entered stands =>
    rw [List.mem_singleton.mp member]
    by_cases pressed : failure = .memoryPressure
    · refine .inl ⟨refusal_plain pressed,?_⟩
      rintro ⟨w,same,other⟩
      cases same
      rw [pressed] at stands
      cases stands.symm.trans other
    · obtain ⟨response,reply⟩ := refusal_challenges pressed
      rw [reply] at stands
      exact .inr ⟨response,v,rfl,stands⟩
  | @handled _ v subject answer _ entered stands ran =>
    rw [List.mem_singleton.mp member]
    have guarded := entered.guarded
    rw [← entered.request] at guarded
    refine .inl ⟨handled_plain ran guarded (reachable_introduced started.server reached visited stands),?_⟩
    rintro ⟨w,same,other⟩
    cases same
    cases stands.symm.trans other

/-- A client is asked to authenticate exactly where its guard has refused it for a
    reason other than memory pressure. Every such response is the same. -/
theorem challenge_iff_refused (started : StartedSite c start)
    (taken : run (siteStep c provider) start events = some s) {r : Response}
    (member : r ∈ belonging id s.responses) :
    (r.status = 401 ↔ Challenged s id) ∧
    ((∃ h ∈ r.headers, h.1 = "www-authenticate") ↔ Challenged s id) ∧
    (r = respond401 ↔ Challenged s id) := by
  rcases challenged_response started taken member with ⟨plain,calm⟩ | ⟨rfl,stormy⟩
  · refine ⟨iff_of_false plain.1 calm,iff_of_false ?_ calm,iff_of_false ?_ calm⟩
    · rintro ⟨h,inside,named⟩
      exact plain.2 h inside named
    · intro same
      rw [same] at plain
      exact challenged plain
  · refine ⟨iff_of_true rfl stormy,iff_of_true ?_ stormy,iff_of_true rfl stormy⟩
    exact ⟨_,List.mem_cons_self,rfl⟩

theorem challenge_iff_refused_replayed :
    ∃ (s : Site (BlockId → Option Bytes)), respond401 ∈ belonging 2 s.responses ∧ Challenged s 2 := by
  obtain ⟨start,s,started,taken,_,_,_,responses,_⟩ := sample_whoami
  have member : respond401 ∈ belonging 2 s.responses := by
    rw [responses]
    exact List.mem_cons_self
  exact ⟨s,member,(challenge_iff_refused started taken member).1.mp rfl⟩

theorem refused_served {u : Server} {actions : List Action} {v : Visit} {failure : AuthFailure}
    (started : Started c.deployment start.server)
    (taken : run (step c.deployment) start.server actions = some u) (found : u.visit id = some v)
    (stands : v.phase = .answered (refuse failure)) {mounted : Bool}
    (entered : Entered c mounted arrival v) :
    arrival.request.method ∈ served (c.endpoint mounted (c.effective arrival)) := by
  have inside : v.guard.authenticates v.request.method = true := by
    by_contra outside
    rcases reachable_passing started taken found (Bool.eq_false_of_not_eq_true outside) with same | same
    · cases stands.symm.trans same
    · exact absurd (stands.symm.trans same).symm (forwarded_unrefused none failure)
  rw [guard_authenticates entered.guarded, entered.request] at inside
  exact of_decide_eq_true inside

theorem moved_records {s t : Site S} {e : Event} (moved : Moved c provider s e t) :
    s.responses <+: t.responses ∧ s.log <+: t.log := by
  cases moved with
  | received _ took =>
    rcases receive_cases took with ⟨guard,u,_,_,rfl⟩ | ⟨_,rfl⟩
    · exact ⟨List.prefix_rfl,List.prefix_rfl⟩
    · exact ⟨List.prefix_append _ _,List.prefix_append _ _⟩
  | @acted a =>
    cases turnsAway c.deployment s.server a with
    | none => exact ⟨List.prefix_rfl,List.prefix_rfl⟩
    | some both => exact ⟨List.prefix_append _ _,List.prefix_append _ _⟩
  | handled => exact ⟨List.prefix_append _ _,List.prefix_append _ _⟩
  | lost | left => exact ⟨List.prefix_rfl,List.prefix_rfl⟩

theorem belonging_first {α : Type} {id : Nat} {front record : List (Nat × α)} {entry last : α}
    (pre : front ++ [(id, entry)] <+: record) (single : belonging id record = [last]) : last = entry := by
  obtain ⟨rest,rfl⟩ := pre
  rw [belonging_append, belonging_append, ← List.map_singleton (f := fun entry => (id, entry)),
    belonging_own, List.append_assoc] at single
  have member : entry ∈ belonging id front ++ ([entry] ++ belonging id rest) := by simp
  rw [single] at member
  exact (List.mem_singleton.mp member).symm

/-- A run that goes on with a step of the request, and how the request stands before
    that step. -/
structure Stepped (c : SiteConfig) (provider : StorageProvider S) (start : Site S) (events : List Event)
    (id : Nat) (v : Visit) (front : List Event) (u : Site S) (w : Visit) : Prop where
  goes : ∃ back, events = front ++ .act (.proceed id) :: back
  reached : run (siteStep c provider) start front = some u
  found : u.server.visit id = some w
  guard : w.guard = v.guard
  request : w.request = v.request

def FirstAttempt (c : SiteConfig) (provider : StorageProvider S) (start : Site S) (events : List Event)
    (id : Nat) (v : Visit) (o : Opening) (first : AuthFailure) : Prop :=
  ∃ front u w, Stepped c provider start events id v front u w ∧ w.phase = .decode o ∧
    attemptDecode c.deployment o (u.server.world.ctx w.guard.tag) = .error first

/-- The check that a request fails. A token that no refresh helps is refused for what
    the first attempt on it met. -/
inductive Meets (c : SiteConfig) (provider : StorageProvider S) (start : Site S) (front : List Event)
    (id : Nat) (u : Site S) (w : Visit) : AuthFailure → Prop where
  | unopened {failure} (stands : w.phase = .entered)
      (inside : w.guard.authenticates w.request.method = true)
      (refused : openRequest c.deployment w.request = .error failure) :
      Meets c provider start front id u w failure
  | unrefreshed {o first task} (stands : w.phase = .refreshing o first task)
      (ended : refreshResult u.server.world task = some false)
      (attempted : FirstAttempt c provider start front id w o first) :
      Meets c provider start front id u w first
  | undecoded {o first second} (stands : w.phase = .decodeAgain o first)
      (again : attemptDecode c.deployment o (u.server.world.ctx w.guard.tag) = .error second)
      (attempted : FirstAttempt c provider start front id w o first) :
      Meets c provider start front id u w first
  | unchecked {o claims failure} (stands : w.phase = .claims o claims)
      (refused : checkClaims claims (u.server.world.ctx w.guard.tag) u.server.world.clock = .error failure) :
      Meets c provider start front id u w failure
  | unproved {o token failure store} (stands : w.phase = .proof o token)
      (refused : authenticateProof c.deployment.jose c.deployment.parseUrl w.request o.credentials token
        (u.server.world.ctx w.guard.tag) u.server.world.clock u.server.instant u.server.replay =
          (.error failure, store)) :
      Meets c provider start front id u w failure

/-- The step of the run with which the guard turned the request away, and the failure
    that it met. -/
def TurnedAway (c : SiteConfig) (provider : StorageProvider S) (start : Site S) (events : List Event)
    (id : Nat) (v : Visit) (failure : AuthFailure) : Prop :=
  ∃ front u w, Stepped c provider start events id v front u w ∧ Meets c provider start front id u w failure

theorem Stepped.snoc {v w : Visit} {front : List Event} {u : Site S}
    (stepped : Stepped c provider start events id v front u w) (e : Event) :
    Stepped c provider start (events ++ [e]) id v front u w := by
  obtain ⟨⟨back,rfl⟩,reached,found,guard,request⟩ := stepped
  exact ⟨⟨back ++ [e],by simp⟩,reached,found,guard,request⟩

theorem Stepped.again {v v' w : Visit} {front : List Event} {u : Site S}
    (stepped : Stepped c provider start events id v front u w) (guard : v.guard = v'.guard)
    (request : v.request = v'.request) : Stepped c provider start events id v' front u w :=
  ⟨stepped.goes,stepped.reached,stepped.found,stepped.guard.trans guard,stepped.request.trans request⟩

theorem moved_visit {s t : Site S} {e : Event} {v : Visit} (moved : Moved c provider s e t)
    (found : t.server.visit id = some v) (inside : v.phase ≠ .entered) :
    s.server.visit id = some v ∨
      ∃ a u, e = .act a ∧ GuardedRequests.Moves c.deployment s.server u id a (s.server.visit id) (some v) := by
  cases moved with
  | @received other arrival _ fresh took =>
    rcases receive_cases took with ⟨guard,u,_,entered,rfl⟩ | ⟨_,rfl⟩
    · by_cases own : other = id
      · subst own
        cases (arrive_visit entered).symm.trans found
        exact absurd rfl inside
      · have moves := step_moves entered id
        rw [show Server.visit _ id = some v from found] at moves
        generalize s.server.visit id = before at moves
        cases moves with
        | elsewhere => exact .inl rfl
        | arrived => exact absurd rfl own
    · exact .inl found
  | @acted a u _ stepped =>
    have after : u.visit id = some v := by
      cases turned : turnsAway c.deployment s.server a with
      | none =>
        rw [turned] at found
        exact found
      | some both =>
        rw [turned] at found
        exact found
    have moves := step_moves stepped id
    rw [after] at moves
    exact .inr ⟨a,u,rfl,moves⟩
  | handled => exact .inl found
  | lost | left => exact .inl found

theorem step_turnsAway {s t : Site S} {e : Event} {v : Visit} {failure : AuthFailure}
    (moved : Moved c provider s e t) (found : t.server.visit id = some v)
    (stands : v.phase = .answered (refuse failure)) :
    s.server.visit id = some v ∨ e = .act (.proceed id) ∧ ∃ w logged,
      s.server.visit id = some w ∧ w.guard = v.guard ∧ w.request = v.request ∧
      failureOf c.deployment s.server w = some logged := by
  have inside : v.phase ≠ .entered := by simp [stands]
  rcases moved_visit moved found inside with same | ⟨a,u,rfl,moves⟩
  · exact .inl same
  generalize s.server.visit id = before at moves
  cases moves with
  | elsewhere => exact .inl rfl
  | arrived => exact absurd rfl inside
  | suspended => cases failure <;> cases stands
  | abandoned => cases failure <;> cases stands
  | @proceeded w next proceeds =>
    have met := proceed_failureOf proceeds
    cases turned : failureOf c.deployment s.server w with
    | some logged => exact .inr ⟨rfl,w,logged,rfl,rfl,rfl,turned⟩
    | none =>
      rw [turned] at met
      exact absurd stands (met failure)

inductive Carries (o : Opening) (first : AuthFailure) : Phase → Prop where
  | needsRefresh : Carries o first (.needsRefresh o first)
  | refreshing {task} : Carries o first (.refreshing o first task)
  | decodeAgain : Carries o first (.decodeAgain o first)

theorem step_carries {s t : Site S} {e : Event} {v : Visit} {o : Opening} {first : AuthFailure}
    (moved : Moved c provider s e t) (found : t.server.visit id = some v) (carries : Carries o first v.phase) :
    ∃ w, s.server.visit id = some w ∧ w.guard = v.guard ∧ w.request = v.request ∧
      (Carries o first w.phase ∨ e = .act (.proceed id) ∧ w.phase = .decode o ∧
        attemptDecode c.deployment o (s.server.world.ctx w.guard.tag) = .error first) := by
  have inside : v.phase ≠ .entered := by
    intro stands
    rw [stands] at carries
    cases carries
  rcases moved_visit moved found inside with same | ⟨a,u,rfl,moves⟩
  · exact ⟨v,same,rfl,rfl,.inl carries⟩
  generalize s.server.visit id = before at moves
  cases moves with
  | elsewhere => exact ⟨v,rfl,rfl,rfl,.inl carries⟩
  | arrived => exact absurd rfl inside
  | abandoned => cases carries
  | @suspended w o' first' task stands =>
    cases carries
    exact ⟨w,rfl,rfl,rfl,.inl (by rw [stands]; exact .needsRefresh)⟩
  | @proceeded w next proceeds =>
    refine ⟨w,rfl,rfl,rfl,?_⟩
    have advances : Advances c.deployment s.server w next.1 := proceed_advances proceeds
    have carries : Carries o first next.1 := carries
    generalize next.1 = phase at advances carries
    cases carries with
    | needsRefresh =>
      cases advances with
      | failed stands fails => exact .inr ⟨rfl,stands,fails⟩
    | refreshing =>
      cases advances with
      | suspended stands => exact .inl (by rw [stands]; exact .needsRefresh)
    | decodeAgain =>
      cases advances with
      | refreshed stands => exact .inl (by rw [stands]; exact .refreshing)

theorem reachable_attempted (started : StartedSite c start)
    (taken : run (siteStep c provider) start events = some s) {v : Visit} {o : Opening} {first : AuthFailure}
    (found : s.server.visit id = some v) (carries : Carries o first v.phase) :
    FirstAttempt c provider start events id v o first := by
  refine history_invariant (fun events s => ∀ v, s.server.visit id = some v → Carries o first v.phase →
    FirstAttempt c provider start events id v o first) ?_ ?_ taken v found carries
  · intro v found
    unfold Server.visit at found
    rw [started.server.visits] at found
    cases found
  · intro front s e t reached before next v found carries
    obtain ⟨w,was,guard,request,carried | ⟨rfl,stands,fails⟩⟩ := step_carries (siteStep_moved next) found carries
    · obtain ⟨earlier,u,x,stepped,attempt⟩ := before w was carried
      exact ⟨earlier,u,x,(stepped.snoc e).again guard request,attempt⟩
    · exact ⟨front,s,w,⟨⟨[],rfl⟩,reached,was,guard,request⟩,stands,fails⟩

theorem failureOf_meets (started : StartedSite c start)
    (taken : run (siteStep c provider) start events = some s) {w : Visit} {failure : AuthFailure}
    (found : s.server.visit id = some w) (met : failureOf c.deployment s.server w = some failure) :
    Meets c provider start events id s w failure := by
  have attempted {o : Opening} {first : AuthFailure} (carries : Carries o first w.phase) :
      FirstAttempt c provider start events id w o first := reachable_attempted started taken found carries
  unfold failureOf at met
  cases stands : w.phase with
  | entered =>
    rw [stands] at met
    dsimp only at met
    by_cases inside : w.guard.authenticates w.request.method = true
    · rw [if_pos inside] at met
      cases opens : openRequest c.deployment w.request with
      | ok o =>
        rw [opens] at met
        cases met
      | error refused =>
        rw [opens] at met
        cases met
        exact .unopened stands inside opens
    · rw [if_neg inside] at met
      cases met
  | refreshing o first task =>
    rw [stands] at met attempted
    simp only [Option.ite_none_right_eq_some] at met
    obtain ⟨ended,same⟩ := met
    cases same
    exact .unrefreshed stands ended (attempted .refreshing)
  | decodeAgain o first =>
    rw [stands] at met attempted
    dsimp only at met
    cases again : attemptDecode c.deployment o (s.server.world.ctx w.guard.tag) with
    | ok claims =>
      rw [again] at met
      cases met
    | error second =>
      rw [again] at met
      cases met
      exact .undecoded stands again (attempted .decodeAgain)
  | claims o claims =>
    rw [stands] at met
    dsimp only at met
    cases checked : checkClaims claims (s.server.world.ctx w.guard.tag) s.server.world.clock with
    | ok token =>
      rw [checked] at met
      cases met
    | error refused =>
      rw [checked] at met
      cases met
      exact .unchecked stands checked
  | proof o token =>
    rw [stands] at met
    dsimp only at met
    cases spent : authenticateProof c.deployment.jose c.deployment.parseUrl w.request o.credentials token
        (s.server.world.ctx w.guard.tag) s.server.world.clock s.server.instant s.server.replay with
    | mk answer store =>
      rw [spent] at met
      cases answer with
      | ok sub => cases met
      | error refused =>
        cases met
        exact .unproved stands spent
  | decode | needsRefresh | answered | abandoned =>
    rw [stands] at met
    cases met

theorem step_records {s t : Site S} {w : Visit} {logged : AuthFailure}
    (taken : siteStep c provider s (.act (.proceed id)) = some t) (found : s.server.visit id = some w)
    (met : failureOf c.deployment s.server w = some logged) :
    t.responses = s.responses ++ [(id, refusal logged)] ∧ t.log = s.log ++ [(id,
      logFailure logged (addressFromRequest w.request) (s.server.world.ctx w.guard.tag).tag)] := by
  simp only [siteStep, turnsAway_proceed found, met, Option.map_some, Option.map_eq_some_iff] at taken
  obtain ⟨u,_,rfl⟩ := taken
  exact ⟨rfl,rfl⟩

theorem reachable_turnedAway (started : StartedSite c start)
    (taken : run (siteStep c provider) start events = some s) {v : Visit} {failure : AuthFailure}
    (found : s.server.visit id = some v) (stands : v.phase = .answered (refuse failure)) :
    ∃ logged, TurnedAway c provider start events id v logged ∧
      ∃ front front', front ++ [(id, refusal logged)] <+: s.responses ∧
        front' ++ [(id, logFailure logged (addressFromRequest v.request) v.guard.tag)] <+: s.log := by
  refine history_invariant (fun events s => ∀ v, s.server.visit id = some v →
    v.phase = .answered (refuse failure) → ∃ logged, TurnedAway c provider start events id v logged ∧
      ∃ front front', front ++ [(id, refusal logged)] <+: s.responses ∧
        front' ++ [(id, logFailure logged (addressFromRequest v.request) v.guard.tag)] <+: s.log)
    ?_ ?_ taken v found stands
  · intro v found
    unfold Server.visit at found
    rw [started.server.visits] at found
    cases found
  · intro front s e t reached before next v found stands
    rcases step_turnsAway (siteStep_moved next) found stands with
      earlier | ⟨rfl,w,logged,was,guard,request,met⟩
    · obtain ⟨logged,⟨last,u,w,stepped,meets⟩,records,records',responses,log⟩ := before v earlier stands
      obtain ⟨more,more'⟩ := moved_records (siteStep_moved next)
      exact ⟨logged,⟨last,u,w,stepped.snoc e,meets⟩,records,records',responses.trans more,log.trans more'⟩
    · obtain ⟨responses,log⟩ := step_records next was met
      obtain ⟨actions,served⟩ := site_server_run reached
      rw [reachable_tagged started.server served, guard, request] at log
      refine ⟨logged,⟨front,s,w,⟨⟨[],rfl⟩,reached,was,guard,request⟩,
        failureOf_meets started reached was met⟩,s.responses,s.log,?_,?_⟩
      · rw [responses]
      · rw [log]

/-- What a request that a guard turns away leaves behind: the response and the event
    of the failure that the guard met, with the audience and the address of the client,
    and nothing else. -/
theorem refused_leaves (started : StartedSite c start)
    (taken : run (siteStep c provider) start events = some s) {v : Visit} {failure : AuthFailure}
    (found : s.server.visit id = some v) (stands : v.phase = .answered (refuse failure)) :
    ∃ arrival logged, s.arrival id = some arrival ∧
      arrival.request.method ∈ served (c.endpoint start.store.isSome (c.effective arrival)) ∧
      TurnedAway c provider start events id v logged ∧ refuse logged = refuse failure ∧
      belonging id s.responses = [refusal logged] ∧
      belonging id s.log =
        [logFailure logged (addressFromRequest (c.effective arrival)) v.guard.tag] ∧
      belonging id s.calls = [] ∧ id ∉ s.lost := by
  obtain ⟨actions,reached⟩ := site_server_run taken
  obtain ⟨logged,turned,front,front',first,first'⟩ := reachable_turnedAway started taken found stands
  have standing := reachable_stands started taken id
  unfold Stands at standing
  rw [found] at standing
  generalize responded : belonging id s.responses = responses at standing ⊢
  generalize s.arrival id = arrival at standing ⊢
  generalize recorded : belonging id s.log = log at standing ⊢
  generalize belonging id s.calls = calls at standing ⊢
  generalize left : decide (id ∈ s.lost) = lost at standing
  cases standing with
  | waiting _ unrefused => exact absurd stands (unrefused failure)
  | @handled _ _ subject _ _ _ other =>
    exact absurd (stands.symm.trans other).symm (forwarded_unrefused subject failure)
  | @lost _ _ subject _ _ other =>
    exact absurd (stands.symm.trans other).symm (forwarded_unrefused subject failure)
  | @refused arrival _ answered entered other =>
    have inside := refused_served started.server reached found stands entered
    have response := belonging_first first responded
    have event := belonging_first first' recorded
    have both : refuse logged = refuse failure := by
      rw [← refusal_refuse response]
      exact Phase.answered.inj (other.symm.trans stands)
    refine ⟨arrival,logged,rfl,inside,turned,both,?_,?_,rfl,of_decide_eq_false left⟩
    · rw [response]
    · rw [event, entered.request]

theorem refused_leaves_replayed :
    ∃ (s : Site (BlockId → Option Bytes)) (logged : AuthFailure), refuse logged = .respond401 ∧
      belonging 2 s.responses = [refusal logged] ∧ belonging 2 s.calls = [] := by
  obtain ⟨start,s,started,taken,_,_,_,_,refused⟩ := sample_whoami
  obtain ⟨v,found,stands⟩ := Option.map_eq_some_iff.mp refused
  obtain ⟨arrival,logged,_,_,_,same,responses,_,calls,_⟩ :=
    refused_leaves started taken found (show v.phase = .answered (refuse .proofReplayed) from stands)
  exact ⟨s,logged,same,responses,calls⟩

/-- The token and the proof of a request have passed every check of its guard. -/
def Authenticated (c : SiteConfig) (start s : Server) (id : Nat) (v : Visit) (sub : String) : Prop :=
  ∃ actions o token, run (step c.deployment) start actions = some s ∧ sub = token.sub ∧
    Opened c.deployment v.guard v.request o ∧
    Checked c.deployment start actions id v.guard v.request o token ∧
    Proved c.deployment start actions id v.guard v.request o token

theorem reachable_authenticated (started : StartedSite c start)
    (taken : run (siteStep c provider) start events = some s) {v : Visit}
    (found : s.server.visit id = some v) {subject : Option Subject}
    (stands : v.phase = .answered (.forwarded subject))
    (inside : v.guard.authenticates v.request.method = true) :
    ∃ sub, subject = some ⟨v.guard.tag, sub⟩ ∧ Authenticated c start.server s.server id v sub := by
  obtain ⟨actions,reached⟩ := site_server_run taken
  rcases reachable_subject started.server reached found stands with ⟨outside,_⟩ | ⟨_,o,token,same,rest⟩
  · rw [inside] at outside
    cases outside
  · exact ⟨token.sub,same,actions,o,token,reached,rfl,rest⟩

/-- A route that names the caller answers a `GET` with the subject of the token
    that was verified for its own audience, or the guard refuses it. No two
    subjects are answered alike. -/
theorem whoami_names_caller (started : StartedSite c start)
    (taken : run (siteStep c provider) start events = some s)
    (received : s.arrival id = some arrival) {tag : AudienceTag}
    (leads : c.endpoint start.store.isSome (c.effective arrival) = .whoami tag) {r : Response}
    (member : r ∈ belonging id s.responses) :
    (arrival.request.method ≠ "GET" ∧ r = emptyNotFound) ∨
    (arrival.request.method = "GET" ∧ (r = respond401 ∨ r = respond503MemoryPressure)) ∨
    (arrival.request.method = "GET" ∧ ∃ v sub, s.server.visit id = some v ∧ v.guard.tag = tag ∧
      v.request = c.effective arrival ∧ Authenticated c start.server s.server id v sub ∧
      r = whoamiResponse c.web sub ∧ ∀ other, r = whoamiResponse c.web other → other = sub) := by
  obtain ⟨actions,reached⟩ := site_server_run taken
  have standing := reachable_stands started taken id
  unfold Stands at standing
  rw [received] at standing
  generalize visited : s.server.visit id = visit at standing ⊢
  generalize belonging id s.responses = responses at standing member
  generalize belonging id s.log = log at standing
  generalize belonging id s.calls = calls at standing
  generalize decide (id ∈ s.lost) = lost at standing
  cases standing with
  | waiting => cases member
  | lost => cases member
  | unguarded unguarded =>
    rw [leads] at unguarded
    cases tag <;> cases unguarded
  | @refused _ v failure entered stands =>
    have method := refused_served started.server reached visited stands entered
    rw [leads] at method
    rw [List.mem_singleton.mp member]
    refine .inr (.inl ⟨List.mem_singleton.mp method,?_⟩)
    cases failure <;> first | exact .inl rfl | exact .inr rfl
  | @handled _ v subject answer _ entered stands ran =>
    rw [List.mem_singleton.mp member]
    have guarded := entered.guarded
    have reaches := leads
    rw [← entered.request] at guarded reaches
    have introduced := reachable_introduced started.server reached visited stands
    have same : v.request.method = arrival.request.method := by
      rw [entered.request]
      rfl
    rcases handled_whoami ran guarded reaches introduced with ⟨other,answered⟩ | ⟨get,own,sub,known,answered⟩
    · rw [answered, ← same]
      exact .inl ⟨other,rfl⟩
    · have inside : v.guard.authenticates v.request.method = true := by
        rw [guard_authenticates guarded, reaches, get]
        exact decide_eq_true List.mem_cons_self
      obtain ⟨sub',known',authenticated⟩ :=
        reachable_authenticated started taken visited stands inside
      cases known.symm.trans known'
      rw [answered, ← same]
      exact .inr (.inr ⟨get,v,sub,rfl,own,entered.request,authenticated,rfl,
        fun other equal => (whoamiResponse_injective equal).symm⟩)

theorem whoami_names_user :
    ∃ (c : SiteConfig) (start s : Site (BlockId → Option Bytes)) (v : Visit) (sub : String),
      s.server.visit 0 = some v ∧ Authenticated c start.server s.server 0 v sub ∧
      belonging 0 s.responses = [whoamiResponse c.web sub] := by
  obtain ⟨start,s,started,taken,mounted,path,_,responses,_⟩ := sample_whoami
  obtain ⟨arrival,received,named⟩ := Option.map_eq_some_iff.mp path
  have own : belonging 0 s.responses = [whoamiResponse plainWeb "user"] := by
    rw [responses]
    rfl
  have leads : (sampleConfig whoamiTarget).endpoint start.store.isSome
      ((sampleConfig whoamiTarget).effective arrival) = .whoami .vault := by
    rw [mounted]
    change dispatch plainWeb (siteRouter true) (rawPath arrival.request) = .whoami .vault
    rw [named]
    decide
  have member : whoamiResponse plainWeb "user" ∈ belonging 0 s.responses := by
    rw [own]
    exact List.mem_cons_self
  have shape : (whoamiResponse plainWeb "user").status = 200 := rfl
  rcases whoami_names_caller started taken received leads member with
    ⟨_,same⟩ | ⟨_,same | same⟩ | ⟨_,v,sub,found,_,_,authenticated,same,_⟩
  · rw [same] at shape
    exact absurd shape (by decide)
  · rw [same] at shape
    exact absurd shape (by decide)
  · rw [same] at shape
    exact absurd shape (by decide)
  · rw [same] at own
    exact ⟨sampleConfig whoamiTarget,start,s,v,sub,found,authenticated,own⟩

structure Truthful (c : SiteConfig) (start s : Server) (id : Nat) (v : Visit) (fields : BlockFields) :
    Prop where
  block : NamesBlock v.request fields.blockId
  address : fields.address = addressFromRequest v.request
  subject : v.request.method ∈ served .block → Authenticated c start s id v fields.subject
  nobody : v.request.method ∉ served .block → fields.subject = "<unauthenticated>"

theorem subject_truthful (started : StartedSite c start)
    (taken : run (siteStep c provider) start events = some s) {v : Visit}
    (found : s.server.visit id = some v) {subject : Option Subject}
    (stands : v.phase = .answered (.forwarded subject)) (guarded : v.guard = blockGuard) :
    (v.request.method ∈ served .block →
      Authenticated c start.server s.server id v (subjectFromRequest subject)) ∧
    (v.request.method ∉ served .block → subjectFromRequest subject = "<unauthenticated>") := by
  have listed : v.guard.authenticates v.request.method = decide (v.request.method ∈ served .block) :=
    guard_authenticates (by rw [guarded]; rfl) _
  constructor
  · intro inside
    obtain ⟨sub,rfl,authenticated⟩ :=
      reachable_authenticated started taken found stands (listed.trans (decide_eq_true inside))
    have named : subjectFromRequest (some ⟨v.guard.tag, sub⟩) = sub := by
      rw [guarded]
      rfl
    rw [named]
    exact authenticated
  · intro outside
    obtain ⟨actions,reached⟩ := site_server_run taken
    rcases reachable_subject started.server reached found stands with ⟨_,rfl⟩ | ⟨inside,_⟩
    · rfl
    · rw [listed] at inside
      exact absurd (of_decide_eq_true inside) outside

def HandledBlock (c : SiteConfig) (start s : Site S) (id : Nat) (v : Visit) : Prop :=
  s.server.visit id = some v ∧ c.endpoint start.store.isSome v.request = .block ∧
    v.guard = blockGuard ∧ (∃ arrival, s.arrival id = some arrival ∧ v.request = c.effective arrival) ∧
    ∃ r fields, belonging id s.responses = [r] ∧ Truthful c start.server s.server id v fields ∧
      Reports c.blocks fields v.request.method (r, belonging id s.log)

theorem standing_block (started : StartedSite c start)
    (taken : run (siteStep c provider) start events = some s) {v : Visit} {subject : Option Subject}
    (found : s.server.visit id = some v) (stands : v.phase = .answered (.forwarded subject))
    (leads : c.endpoint start.store.isSome v.request = .block)
    (answered : belonging id s.responses ≠ []) : HandledBlock c start s id v := by
  have standing := reachable_stands started taken id
  unfold Stands at standing
  rw [found] at standing
  refine ⟨found,leads,?_⟩
  generalize s.arrival id = arrival at standing ⊢
  generalize belonging id s.responses = responses at standing answered ⊢
  generalize belonging id s.log = log at standing ⊢
  generalize belonging id s.calls = calls at standing
  generalize decide (id ∈ s.lost) = lost at standing
  cases standing with
  | waiting => exact absurd rfl answered
  | lost => exact absurd rfl answered
  | @refused _ _ failure _ other =>
    exact absurd (other.symm.trans stands).symm (forwarded_unrefused subject failure)
  | @handled _ _ subject' answer _ entered stands' ran =>
    cases stands.symm.trans stands'
    have guarded : v.guard = blockGuard := by
      have same := entered.guarded
      rw [← entered.request, leads] at same
      exact (Option.some.inj same).symm
    obtain ⟨known,unknown⟩ := subject_truthful started taken found stands guarded
    cases ran with
    | whoami other => cases leads.symm.trans other
    | block _ _ store body =>
      obtain ⟨name,names,reports⟩ := handleBlockLogged_reports provider c.blocks ⟨store, []⟩
        ⟨v.request, body⟩ subject
      generalize (handleBlockLogged provider c.blocks ⟨store, []⟩ ⟨v.request, body⟩ subject).1 = answer
        at reports ⊢
      exact ⟨guarded,⟨_,rfl,entered.request⟩,answer.1,_,rfl,⟨names,rfl,known,unknown⟩,reports⟩

theorem fallback_blockless (request : Request) : ∀ e ∈ (rejected request).2, e.block = none := by
  intro e member
  rw [List.mem_singleton.mp member]
  rfl

theorem openHandler_blockless (endpoint : Endpoint) (request : Request) :
    ∀ e ∈ (openHandler endpoint request).2, e.block = none := by
  cases endpoint with
  | health =>
    simp only [openHandler, handleHealth]
    split
    · nofun
    · exact fallback_blockless request
  | _ => exact fallback_blockless request

theorem handleWhoami_blockless (web : WebLibrary) (tag : AudienceTag) (request : Request)
    (subject : Option Subject) : ∀ e ∈ (handleWhoami web tag request subject).2, e.block = none := by
  unfold handleWhoami
  split
  · cases extension tag subject <;> nofun
  · exact fallback_blockless request

/-- The log of the block routes is complete and true. A request that the handler
    answers has the event that its response calls for, a refused `PUT` has none,
    and there are no other events about blocks. An event names the subject of the
    verified token, the block of the path and the address of the client. -/
theorem block_log_truthful (started : StartedSite c start)
    (taken : run (siteStep c provider) start events = some s) :
    (∀ v subject, s.server.visit id = some v → v.phase = .answered (.forwarded subject) →
      c.endpoint start.store.isSome v.request = .block → belonging id s.responses ≠ [] →
      HandledBlock c start s id v) ∧
    (∀ e ∈ belonging id s.log, e.block ≠ none →
      belonging id s.log = [e] ∧ ∃ v, HandledBlock c start s id v) := by
  refine ⟨fun v subject found stands leads answered =>
    standing_block started taken found stands leads answered,?_⟩
  intro e member about
  have standing := reachable_stands started taken id
  unfold Stands at standing
  generalize visited : s.server.visit id = visit at standing
  generalize s.arrival id = arrival at standing
  generalize responded : belonging id s.responses = responses at standing
  generalize logged : belonging id s.log = log at standing member ⊢
  generalize belonging id s.calls = calls at standing
  generalize decide (id ∈ s.lost) = lost at standing
  cases standing with
  | unseen => cases member
  | waiting => cases member
  | lost => cases member
  | unguarded => exact absurd (openHandler_blockless _ _ e member) about
  | refused =>
    rw [List.mem_singleton.mp member] at about
    exact absurd rfl about
  | @handled _ v subject answer _ entered stands ran =>
    cases ran with
    | whoami => exact absurd (handleWhoami_blockless _ _ _ _ e member) about
    | block leads _ store body =>
      have handled := standing_block started taken visited stands leads
        (by rw [responded]; exact List.cons_ne_nil _ _)
      refine ⟨?_,v,handled⟩
      obtain ⟨_,_,_,_,_,_,_,_,reports⟩ := handled
      rw [logged] at reports
      generalize (handleBlockLogged provider c.blocks ⟨store, []⟩ ⟨v.request, body⟩ subject).1.2 = log
        at reports member ⊢
      exact reports_single reports member

theorem block_log_truthful_miss :
    ∃ (c : SiteConfig) (start s : Site (BlockId → Option Bytes)) (v : Visit) (fields : BlockFields),
      fields.subject = "user" ∧ belonging 0 s.log = [.getMiss fields] ∧ HandledBlock c start s 0 v := by
  obtain ⟨start,s,fields,started,taken,log,subject⟩ := sample_block
  have member : LogEvent.getMiss fields ∈ belonging 0 s.log := by
    rw [log]
    exact List.mem_cons_self
  obtain ⟨_,v,handled⟩ := (block_log_truthful started taken).2 _ member (Option.some_ne_none fields)
  exact ⟨_,start,s,v,fields,subject,log,handled⟩

end Sites

end SiteAnswers
