import Apokryphos.SiteRoutes

/-!
Every request from its connection to its response. A request passes the
proxy-trust layer and the router; a route without a guard answers at once, a
guard answers or forwards, and the handler of a forwarded request runs once. The
responses, the events and the storage operations are recorded with the request
that they belong to, so that the whole story of a request can be told.
-/
namespace ServedRequests
open BlockRoutes BlockStorage GuardedRequests LogEvents OidcContexts Outcomes ProxyTrust RequestGuards
open ProofValidation ServerConfig SiteRoutes StepRuns TokenValidation
open ReplayStore hiding Action step

structure SiteConfig where
  deployment : Deployment
  blocks : BlockConfig
  web : WebLibrary
  ip : IpLibrary
  trustedProxies : List IpNet

structure Arrival where
  connection : Option SocketAddr
  request : Request

/-- The request behind the proxy-trust layer. -/
def SiteConfig.effective (c : SiteConfig) (arrival : Arrival) : Request :=
  middleware c.ip c.trustedProxies arrival.connection arrival.request

def SiteConfig.endpoint (c : SiteConfig) (mounted : Bool) (request : Request) : Endpoint :=
  dispatch c.web (siteRouter mounted) (rawPath request)

/-- The storage is absent where none is configured. -/
structure Site (S : Type) where
  server : Server
  store : Option S
  arrivals : AList (fun _ : Nat => Arrival)
  calls : List (Nat × StorageCall)
  responses : List (Nat × Response)
  log : List (Nat × LogEvent)
  lost : List Nat

def Site.arrival {S : Type} (s : Site S) (id : Nat) : Option Arrival := s.arrivals.lookup id

def Site.answer {S : Type} (s : Site S) (id : Nat) (a : Answer) : Site S :=
  { s with
    responses := s.responses ++ [(id, a.1)]
    log := s.log ++ a.2.map fun event => (id, event) }

/-- The failure with which the next access of a request turns it away. -/
def failureOf (d : Deployment) (s : Server) (v : Visit) : Option AuthFailure :=
  let ctx := s.world.ctx v.guard.tag
  match v.phase with
  | .entered =>
    if v.guard.authenticates v.request.method then
      match openRequest d v.request with
      | .ok _ => none
      | .error failure => some failure
    else none
  | .refreshing _ first task => if refreshResult s.world task = some false then some first else none
  | .decodeAgain o first =>
    match attemptDecode d o ctx with
    | .ok _ => none
    | .error _ => some first
  | .claims _ found =>
    match checkClaims found ctx s.world.clock with
    | .ok _ => none
    | .error failure => some failure
  | .proof o token =>
    match (authenticateProof d.jose d.parseUrl v.request o.credentials token ctx s.world.clock
        s.instant s.replay).1 with
    | .ok _ => none
    | .error failure => some failure
  | .decode _ | .needsRefresh _ _ | .answered _ | .abandoned => none

def refusalAnswer (s : Server) (v : Visit) (failure : AuthFailure) : Answer :=
  (refusal failure,
    [logFailure failure (addressFromRequest v.request) (s.world.ctx v.guard.tag).tag])

def turnsAway (d : Deployment) (s : Server) : Action → Option (Nat × Answer)
  | .proceed id => (s.visit id).bind fun v =>
    (failureOf d s v).map fun failure => (id, refusalAnswer s v failure)
  | _ => none

/-- A client may leave before its handler has asked the storage for anything, while its
    body comes in. One that goes away while its storage operation runs does not stop it:
    the operation has a thread of its own. -/
inductive Event where
  | receive (id : Nat) (arrival : Arrival)
  | act (action : Action)
  | handle (id : Nat) (body : Body)
  | lose (id : Nat) (body : Body)
  | leave (id : Nat)

def openHandler : Endpoint → Request → Answer
  | .health, request => handleHealth request
  | _, request => fallback404 request

section Steps
variable {S : Type} (c : SiteConfig) (provider : StorageProvider S)

def receive (s : Site S) (id : Nat) (arrival : Arrival) : Option (Site S) :=
  let arrived := { s with arrivals := s.arrivals.insert id arrival }
  let request := c.effective arrival
  let endpoint := c.endpoint s.store.isSome request
  match endpoint.guard with
  | some guard => (step c.deployment s.server (.arrive id guard request)).map fun t =>
    { arrived with server := t }
  | none => some (arrived.answer id (openHandler endpoint request))

/-- What the handler of a forwarded request does: its answer, the storage
    afterwards and the operations invoked on it. -/
def outcome (s : Site S) (v : Visit) (subject : Option Subject) (body : Body) :
    Option (Answer × Option S × List StorageCall) :=
  match c.endpoint s.store.isSome v.request with
  | .whoami tag => some (handleWhoami c.web tag v.request subject, s.store, [])
  | .block => s.store.map fun store =>
    let done := handleBlockLogged provider c.blocks ⟨store, []⟩ ⟨v.request, body⟩ subject
    (done.1, some done.2.store, done.2.calls)
  | .health | .fallback => none

def Site.unhandled (s : Site S) (id : Nat) : Bool := s.responses.all (·.1 ≠ id) && s.lost.all (· ≠ id)

def handled (s : Site S) (id : Nat) (body : Body) : Option (Answer × Option S × List StorageCall) :=
  (s.server.visit id).bind fun v =>
    match v.phase with
    | .answered (.forwarded subject) =>
      if s.unhandled id then outcome c provider s v subject body else none
    | _ => none

def Site.perform (s : Site S) (id : Nat) (store : Option S) (calls : List StorageCall) : Site S :=
  { s with
    store := store
    calls := s.calls ++ calls.map fun call => (id, call) }

def siteStep (s : Site S) : Event → Option (Site S)
  | .receive id arrival => if s.arrival id = none then receive c s id arrival else none
  -- Requests come in through the router only.
  | .act (.arrive _ _ _) => none
  | .act a => (step c.deployment s.server a).map fun t =>
    match turnsAway c.deployment s.server a with
    | some (id, answer) => { s with server := t }.answer id answer
    | none => { s with server := t }
  | .handle id body => (handled c provider s id body).map fun done =>
    (s.perform id done.2.1 done.2.2).answer id done.1
  | .lose id body => (handled c provider s id body).map fun done =>
    { s.perform id done.2.1 done.2.2 with lost := s.lost ++ [id] }
  | .leave id => (s.server.visit id).bind fun v =>
    match v.phase with
    | .answered (.forwarded _) =>
      if s.unhandled id then some { s with lost := s.lost ++ [id] } else none
    | _ => none

end Steps

def belonging {α : Type} (id : Nat) (record : List (Nat × α)) : List α :=
  (record.filter fun entry => entry.1 = id).map Prod.snd

@[simp] theorem belonging_append {α : Type} (id : Nat) (front back : List (Nat × α)) :
    belonging id (front ++ back) = belonging id front ++ belonging id back := by
  simp [belonging]

theorem belonging_own {α : Type} (id : Nat) (entries : List α) :
    belonging id (entries.map fun entry => (id, entry)) = entries := by
  simp [belonging, List.filter_map, Function.comp_def]

theorem belonging_other {α : Type} {id other : Nat} (different : other ≠ id) (entries : List α) :
    belonging id (entries.map fun entry => (other, entry)) = [] := by
  simp [belonging, List.filter_map, Function.comp_def, different]

theorem belonging_nil_iff {α : Type} {id : Nat} {record : List (Nat × α)} :
    belonging id record = [] ↔ ∀ entry ∈ record, entry.1 ≠ id := by
  simp [belonging]

/-- The handler ran for a forwarded request, over some state of the storage. -/
inductive Handled {S : Type} (c : SiteConfig) (provider : StorageProvider S) (mounted : Bool) (v : Visit)
    (subject : Option Subject) : Answer → List StorageCall → Prop where
  | whoami {tag} (leads : c.endpoint mounted v.request = .whoami tag) :
      Handled c provider mounted v subject (handleWhoami c.web tag v.request subject) []
  | block (leads : c.endpoint mounted v.request = .block) (present : mounted = true) (store : S)
      (body : Body) : Handled c provider mounted v subject
        (handleBlockLogged provider c.blocks ⟨store, []⟩ ⟨v.request, body⟩ subject).1
        (handleBlockLogged provider c.blocks ⟨store, []⟩ ⟨v.request, body⟩ subject).2.calls

def Unrefused (phase : Phase) : Prop := ∀ failure, phase ≠ .answered (refuse failure)

structure Entered (c : SiteConfig) (mounted : Bool) (arrival : Arrival) (v : Visit) : Prop where
  guarded : (c.endpoint mounted (c.effective arrival)).guard = some v.guard
  request : v.request = c.effective arrival

/-- All that can have become of a request: how it stands, its responses, what was
    logged for it, the storage operations it made, and whether its client left
    the handler. -/
inductive Standing {S : Type} (c : SiteConfig) (provider : StorageProvider S) (mounted : Bool) :
    Option Arrival → Option Visit → List Response → List LogEvent → List StorageCall → Bool → Prop where
  | unseen : Standing c provider mounted none none [] [] [] false
  | unguarded {arrival} (leads : (c.endpoint mounted (c.effective arrival)).guard = none) :
      Standing c provider mounted (some arrival) none
        [(openHandler (c.endpoint mounted (c.effective arrival)) (c.effective arrival)).1]
        (openHandler (c.endpoint mounted (c.effective arrival)) (c.effective arrival)).2 [] false
  | waiting {arrival v} (entered : Entered c mounted arrival v) (unrefused : Unrefused v.phase) :
      Standing c provider mounted (some arrival) (some v) [] [] [] false
  | refused {arrival v failure} (entered : Entered c mounted arrival v)
      (stands : v.phase = .answered (refuse failure)) :
      Standing c provider mounted (some arrival) (some v) [refusal failure]
        [logFailure failure (addressFromRequest v.request) v.guard.tag] [] false
  | handled {arrival v subject answer calls} (entered : Entered c mounted arrival v)
      (stands : v.phase = .answered (.forwarded subject))
      (ran : Handled c provider mounted v subject answer calls) :
      Standing c provider mounted (some arrival) (some v) [answer.1] answer.2 calls false
  | lost {arrival v subject calls} (entered : Entered c mounted arrival v)
      (stands : v.phase = .answered (.forwarded subject))
      (ran : calls = [] ∨ ∃ answer, Handled c provider mounted v subject answer calls) :
      Standing c provider mounted (some arrival) (some v) [] [] calls true

def Stands {S : Type} (c : SiteConfig) (provider : StorageProvider S) (mounted : Bool) (s : Site S)
    (id : Nat) : Prop :=
  Standing c provider mounted (s.arrival id) (s.server.visit id) (belonging id s.responses)
    (belonging id s.log) (belonging id s.calls) (decide (id ∈ s.lost))

section Refusals
variable {d : Deployment} {s t : Server} {v : Visit} {next : Phase × JtiReplayStore}

theorem forwarded_unrefused (subject : Option Subject) : Unrefused (.answered (.forwarded subject)) := by
  intro failure same
  cases failure <;> cases same

theorem active_unrefused {phase : Phase} (active : phase.active = true) : Unrefused phase := by
  intro failure same
  rw [same] at active
  cases active

theorem abandoned_unrefused : Unrefused .abandoned := by
  intro failure impossible
  cases impossible

theorem proceed_failureOf (taken : proceed d s v = some next) :
    match failureOf d s v with
    | some failure => next.1 = .answered (refuse failure)
    | none => Unrefused next.1 := by
  unfold proceed at taken
  unfold failureOf
  cases stands : v.phase with
  | entered =>
    rw [stands] at taken
    dsimp only at taken ⊢
    by_cases inside : v.guard.authenticates v.request.method = true
    · rw [if_pos inside] at taken ⊢
      cases opens : openRequest d v.request with
      | ok o =>
        rw [opens] at taken
        cases taken
        exact active_unrefused rfl
      | error failure =>
        rw [opens] at taken
        cases taken
        rfl
    · rw [if_neg inside] at taken ⊢
      cases taken
      exact forwarded_unrefused none
  | decode o =>
    rw [stands] at taken
    dsimp only at taken ⊢
    cases decodes : attemptDecode d o (s.world.ctx v.guard.tag) with
    | ok found =>
      rw [decodes] at taken
      cases taken
      exact active_unrefused rfl
    | error first =>
      rw [decodes] at taken
      cases taken
      exact active_unrefused rfl
  | refreshing o first task =>
    rw [stands] at taken
    dsimp only at taken ⊢
    obtain ⟨result,ended,rfl⟩ := Option.map_eq_some_iff.mp taken
    rw [ended]
    cases result with
    | true => exact active_unrefused rfl
    | false => rfl
  | decodeAgain o first =>
    rw [stands] at taken
    dsimp only at taken ⊢
    cases decodes : attemptDecode d o (s.world.ctx v.guard.tag) with
    | ok found =>
      rw [decodes] at taken
      cases taken
      exact active_unrefused rfl
    | error other =>
      rw [decodes] at taken
      cases taken
      rfl
  | claims o found =>
    rw [stands] at taken
    dsimp only at taken ⊢
    cases checked : checkClaims found (s.world.ctx v.guard.tag) s.world.clock with
    | ok token =>
      rw [checked] at taken
      cases taken
      exact active_unrefused rfl
    | error failure =>
      rw [checked] at taken
      cases taken
      rfl
  | proof o token =>
    rw [stands] at taken
    dsimp only at taken ⊢
    generalize authenticateProof d.jose d.parseUrl v.request o.credentials token
      (s.world.ctx v.guard.tag) s.world.clock s.instant s.replay = done at taken ⊢
    obtain ⟨answer,store⟩ := done
    cases answer with
    | ok sub =>
      cases taken
      exact forwarded_unrefused _
    | error failure =>
      cases taken
      rfl
  | needsRefresh o first =>
    rw [stands] at taken
    cases taken
  | answered reply =>
    rw [stands] at taken
    cases taken
  | abandoned =>
    rw [stands] at taken
    cases taken

theorem turnsAway_proceed {id : Nat} (found : s.visit id = some v) :
    turnsAway d s (.proceed id) = (failureOf d s v).map fun failure => (id, refusalAnswer s v failure) := by
  simp only [turnsAway, found, Option.bind_some]

theorem answered_settled {a : Action} {id : Nat} {reply : Reply} (taken : step d s a = some t)
    (found : s.visit id = some v) (stands : v.phase = .answered reply) : t.visit id = some v := by
  have moves := step_moves taken id
  rw [found] at moves
  generalize t.visit id = after at moves
  cases moves with
  | elsewhere => rfl
  | proceeded proceeds =>
    unfold proceed at proceeds
    rw [stands] at proceeds
    cases proceeds
  | suspended other => cases stands.symm.trans other
  | abandoned other => cases stands.symm.trans other

end Refusals

section Frames
variable {S : Type} {c : SiteConfig} {provider : StorageProvider S} {mounted : Bool} {s t : Site S}
  {id other : Nat}

structure Untouched (s t : Site S) (id : Nat) : Prop where
  arrival : t.arrival id = s.arrival id
  visit : t.server.visit id = s.server.visit id
  responses : belonging id t.responses = belonging id s.responses
  log : belonging id t.log = belonging id s.log
  calls : belonging id t.calls = belonging id s.calls
  lost : id ∈ t.lost ↔ id ∈ s.lost

theorem Untouched.stands (same : Untouched s t id) (before : Stands c provider mounted s id) :
    Stands c provider mounted t id := by
  unfold Stands
  rw [same.arrival, same.visit, same.responses, same.log, same.calls, decide_eq_decide.mpr same.lost]
  exact before

@[simp] theorem answer_responses (s : Site S) (id : Nat) (a : Answer) :
    belonging id (s.answer id a).responses = belonging id s.responses ++ [a.1] := by
  rw [Site.answer, belonging_append, ← List.map_singleton (f := fun r => (id, r)), belonging_own]

@[simp] theorem answer_log (s : Site S) (id : Nat) (a : Answer) :
    belonging id (s.answer id a).log = belonging id s.log ++ a.2 := by
  rw [Site.answer, belonging_append, belonging_own]

theorem answer_untouched (different : other ≠ id) (a : Answer) : Untouched s (s.answer other a) id where
  arrival := rfl
  visit := rfl
  responses := by
    rw [Site.answer, belonging_append, ← List.map_singleton (f := fun r => (other, r)),
      belonging_other different, List.append_nil]
  log := by rw [Site.answer, belonging_append, belonging_other different, List.append_nil]
  calls := rfl
  lost := Iff.rfl

theorem Untouched.trans {u : Site S} (first : Untouched s t id) (second : Untouched t u id) :
    Untouched s u id where
  arrival := second.arrival.trans first.arrival
  visit := second.visit.trans first.visit
  responses := second.responses.trans first.responses
  log := second.log.trans first.log
  calls := second.calls.trans first.calls
  lost := second.lost.trans first.lost

end Frames

section Runs
variable {S : Type} {c : SiteConfig} {provider : StorageProvider S} {mounted : Bool} {s t : Site S}

theorem reachable_tagged {d : Deployment} {start u : Server} {actions : List Action}
    (started : Started d start) (taken : run (step d) start actions = some u) (g : AudienceTag) :
    (u.world.ctx g).tag = g := by
  refine run_invariant (fun u => (u.world.ctx g).tag = g) ?_ ?_ taken
  · intro u a w tagged next
    rcases step_world next with same | ⟨action,moved,_⟩
    · rw [same]
      exact tagged
    · rw [(RefreshTasks.moves_identity (RefreshTasks.step_moves moved) g).tag]
      exact tagged
  · exact (RefreshTasks.started_pristine started.world).tagged g

theorem server_untouched {u : Server} {a : Action} (taken : step c.deployment s.server a = some u)
    {id : Nat} (elsewhere : requestOf a ≠ some id) : Untouched s { s with server := u } id where
  arrival := rfl
  visit := by
    have moves := step_moves taken id
    change u.visit id = s.server.visit id
    generalize s.server.visit id = v at moves
    generalize u.visit id = w at moves
    cases moves with
    | elsewhere => rfl
    | arrived => exact absurd rfl elsewhere
    | proceeded => exact absurd rfl elsewhere
    | suspended => exact absurd rfl elsewhere
    | abandoned => exact absurd rfl elsewhere
  responses := rfl
  log := rfl
  calls := rfl
  lost := Iff.rfl

theorem stands_of {id : Nat} {arrival : Option Arrival} {visit : Option Visit}
    {responses : List Response} {log : List LogEvent} {calls : List StorageCall} {lost : Bool}
    (arrived : s.arrival id = arrival) (found : s.server.visit id = visit)
    (responded : belonging id s.responses = responses) (logged : belonging id s.log = log)
    (called : belonging id s.calls = calls) (left : decide (id ∈ s.lost) = lost)
    (standing : Standing c provider mounted arrival visit responses log calls lost) :
    Stands c provider mounted s id := by
  unfold Stands
  rw [arrived, found, responded, logged, called, left]
  exact standing

theorem standing_waiting {arrival : Option Arrival} {v : Visit} {responses : List Response}
    {log : List LogEvent} {calls : List StorageCall} {lost : Bool}
    (standing : Standing c provider mounted arrival (some v) responses log calls lost)
    (unanswered : ∀ reply, v.phase ≠ .answered reply) :
    ∃ a, arrival = some a ∧ Entered c mounted a v ∧ responses = [] ∧ log = [] ∧ calls = [] ∧
      lost = false := by
  cases standing with
  | waiting entered => exact ⟨_,rfl,entered,rfl,rfl,rfl,rfl⟩
  | refused _ stands => exact absurd stands (unanswered _)
  | handled _ stands => exact absurd stands (unanswered _)
  | lost _ stands => exact absurd stands (unanswered _)

theorem active_unanswered {phase : Phase} (active : phase.active = true) : ∀ reply, phase ≠ .answered reply := by
  intro reply stands
  rw [stands] at active
  cases active

theorem proceed_unanswered {d : Deployment} {u : Server} {v : Visit} {next : Phase × JtiReplayStore}
    (taken : proceed d u v = some next) : ∀ reply, v.phase ≠ .answered reply := by
  intro reply stands
  unfold proceed at taken
  rw [stands] at taken
  cases taken

theorem Entered.moved {arrival : Arrival} {v : Visit} (entered : Entered c mounted arrival v)
    (phase : Phase) : Entered c mounted arrival { v with phase := phase } :=
  ⟨entered.guarded,entered.request⟩

theorem act_stands {u : Server} {a : Action} {id : Nat} (tagged : ∀ g, (s.server.world.ctx g).tag = g)
    (inner : ∀ id guard request, a ≠ .arrive id guard request)
    (taken : step c.deployment s.server a = some u) (about : requestOf a = some id)
    (before : Stands c provider mounted s id) :
    Stands c provider mounted (match turnsAway c.deployment s.server a with
      | some (id, answer) => { s with server := u }.answer id answer
      | none => { s with server := u }) id := by
  have moves := step_moves taken id
  unfold Stands at before
  generalize found : s.server.visit id = v at moves before
  generalize after : u.visit id = w at moves
  cases moves with
  | elsewhere other => exact absurd about other
  | arrived => exact absurd rfl (inner _ _ _)
  | @proceeded v next proceeds =>
    obtain ⟨arrival,same,entered,responses,log,calls,lost⟩ :=
      standing_waiting before (proceed_unanswered proceeds)
    have failed := proceed_failureOf proceeds
    rw [turnsAway_proceed found]
    cases turned : failureOf c.deployment s.server v with
    | none =>
      rw [turned] at failed
      exact stands_of same after responses log calls lost (.waiting (entered.moved _) failed)
    | some failure =>
      rw [turned] at failed
      refine stands_of same after ?_ ?_ calls lost
        (.refused (v := { v with phase := next.1 }) (entered.moved _) failed)
      · exact (answer_responses _ _ _).trans (by rw [responses]; rfl)
      · exact (answer_log _ _ _).trans (by rw [log]; simp only [refusalAnswer, tagged]; rfl)
  | @suspended v o first task stands =>
    obtain ⟨arrival,same,entered,responses,log,calls,lost⟩ :=
      standing_waiting before (active_unanswered (by rw [stands]; rfl))
    exact stands_of same after responses log calls lost (.waiting (entered.moved _) (active_unrefused rfl))
  | @abandoned v o first task stands =>
    obtain ⟨arrival,same,entered,responses,log,calls,lost⟩ :=
      standing_waiting before (active_unanswered (by rw [stands]; rfl))
    exact stands_of same after responses log calls lost (.waiting (entered.moved _) abandoned_unrefused)

theorem standing_unseen {v : Option Visit} {responses : List Response} {log : List LogEvent}
    {calls : List StorageCall} {lost : Bool}
    (standing : Standing c provider mounted none v responses log calls lost) :
    v = none ∧ responses = [] ∧ log = [] ∧ calls = [] ∧ lost = false := by
  cases standing
  exact ⟨rfl,rfl,rfl,rfl,rfl⟩

theorem arrive_visit {d : Deployment} {u w : Server} {id : Nat} {guard : Guard} {request : Request}
    (taken : step d u (.arrive id guard request) = some w) :
    w.visit id = some ⟨guard, request, .entered⟩ := by
  simp only [step, Option.ite_none_right_eq_some, Option.some.injEq] at taken
  rw [← taken.2]
  exact setVisit_same u id _

theorem arrival_insert (s : Site S) (id : Nat) (arrival : Arrival) :
    Site.arrival { s with arrivals := s.arrivals.insert id arrival } id = some arrival :=
  AList.lookup_insert s.arrivals

theorem insert_untouched (s : Site S) {id other : Nat} (different : id ≠ other) (arrival : Arrival) :
    Untouched s { s with arrivals := s.arrivals.insert other arrival } id where
  arrival := AList.lookup_insert_ne different
  visit := rfl
  responses := rfl
  log := rfl
  calls := rfl
  lost := Iff.rfl

theorem receive_cases {id : Nat} {arrival : Arrival} (taken : receive c s id arrival = some t) :
    (∃ guard u, (c.endpoint s.store.isSome (c.effective arrival)).guard = some guard ∧
      step c.deployment s.server (.arrive id guard (c.effective arrival)) = some u ∧
      t = { s with arrivals := s.arrivals.insert id arrival, server := u }) ∨
    ((c.endpoint s.store.isSome (c.effective arrival)).guard = none ∧
      t = Site.answer { s with arrivals := s.arrivals.insert id arrival } id
        (openHandler (c.endpoint s.store.isSome (c.effective arrival)) (c.effective arrival))) := by
  unfold receive at taken
  dsimp only at taken
  split at taken
  · rename_i guard guarded
    obtain ⟨u,entered,rfl⟩ := Option.map_eq_some_iff.mp taken
    exact .inl ⟨guard,u,guarded,entered,rfl⟩
  · rename_i unguarded
    exact .inr ⟨unguarded,(Option.some.inj taken).symm⟩

theorem receive_stands {id : Nat} {arrival : Arrival} (fresh : s.arrival id = none)
    (mount : s.store.isSome = mounted) (taken : receive c s id arrival = some t)
    (before : Stands c provider mounted s id) : Stands c provider mounted t id := by
  unfold Stands at before
  rw [fresh] at before
  obtain ⟨absent,responses,log,calls,lost⟩ := standing_unseen before
  rcases receive_cases taken with ⟨guard,u,guarded,entered,rfl⟩ | ⟨unguarded,rfl⟩
  · rw [mount] at guarded
    exact stands_of (arrival_insert s id arrival) (arrive_visit entered) responses log calls lost
      (.waiting ⟨guarded,rfl⟩ (active_unrefused rfl))
  · rw [mount] at unguarded ⊢
    refine stands_of (arrival_insert s id arrival) absent ?_ ?_ calls lost (.unguarded unguarded)
    · exact (answer_responses _ _ _).trans (by rw [responses]; rfl)
    · exact (answer_log _ _ _).trans (by rw [log]; rfl)

theorem receive_untouched {id other : Nat} {arrival : Arrival} (different : id ≠ other)
    (taken : receive c s other arrival = some t) : Untouched s t id := by
  rcases receive_cases taken with ⟨guard,u,_,entered,rfl⟩ | ⟨_,rfl⟩
  · have moved : Untouched s { s with server := u } id :=
      server_untouched entered fun same => different (Option.some.inj same).symm
    exact moved.trans (insert_untouched _ different arrival)
  · exact (insert_untouched s different arrival).trans (answer_untouched (Ne.symm different) _)

theorem handled_some {id : Nat} {body : Body} {done : Answer × Option S × List StorageCall}
    (ran : handled c provider s id body = some done) :
    ∃ v subject, s.server.visit id = some v ∧ v.phase = .answered (.forwarded subject) ∧
      belonging id s.responses = [] ∧ id ∉ s.lost ∧
      Handled c provider s.store.isSome v subject done.1 done.2.2 ∧
      done.2.1.isSome = s.store.isSome := by
  obtain ⟨v,found,rest⟩ := Option.bind_eq_some_iff.mp ran
  split at rest
  · rename_i subject stands
    split at rest
    · rename_i unhandled
      simp only [Site.unhandled, Bool.and_eq_true, List.all_eq_true, decide_eq_true_eq] at unhandled
      refine ⟨v,subject,found,stands,belonging_nil_iff.mpr unhandled.1,
        fun left => unhandled.2 id left rfl,?_⟩
      unfold outcome at rest
      split at rest
      · rename_i tag leads
        cases rest
        exact ⟨.whoami leads,rfl⟩
      · rename_i leads
        obtain ⟨store,present,same⟩ := Option.map_eq_some_iff.mp rest
        rw [present] at leads ⊢
        rw [← same]
        dsimp only
        refine ⟨.block leads rfl store body,?_⟩
        rw [Option.isSome_some, Option.isSome_some]
      · cases rest
      · cases rest
    · cases rest
  · cases rest

theorem perform_calls (s : Site S) (id : Nat) (store : Option S) (calls : List StorageCall) :
    belonging id (s.perform id store calls).calls = belonging id s.calls ++ calls := by
  rw [Site.perform, belonging_append, belonging_own]

theorem perform_untouched (s : Site S) {id other : Nat} (different : other ≠ id) (store : Option S)
    (calls : List StorageCall) : Untouched s (s.perform other store calls) id where
  arrival := rfl
  visit := rfl
  responses := rfl
  log := rfl
  calls := by rw [Site.perform, belonging_append, belonging_other different, List.append_nil]
  lost := Iff.rfl

theorem standing_unanswered {arrival : Option Arrival} {v : Visit} {log : List LogEvent}
    {calls : List StorageCall}
    (standing : Standing c provider mounted arrival (some v) [] log calls false) :
    ∃ a, arrival = some a ∧ Entered c mounted a v ∧ log = [] ∧ calls = [] := by
  cases standing with
  | waiting entered => exact ⟨_,rfl,entered,rfl,rfl⟩

theorem handle_stands {id : Nat} {body : Body} {done : Answer × Option S × List StorageCall}
    (mount : s.store.isSome = mounted) (ran : handled c provider s id body = some done)
    (before : Stands c provider mounted s id) :
    Stands c provider mounted ((s.perform id done.2.1 done.2.2).answer id done.1) id := by
  obtain ⟨v,subject,found,stands,unanswered,kept,handles,_⟩ := handled_some ran
  unfold Stands at before
  rw [found, unanswered, decide_eq_false kept] at before
  obtain ⟨arrival,arrived,entered,log,calls⟩ := standing_unanswered before
  rw [mount] at handles
  refine stands_of arrived found ?_ ?_ ?_ (decide_eq_false kept) (.handled entered stands handles)
  · exact (answer_responses _ _ _).trans (by rw [Site.perform, unanswered]; rfl)
  · exact (answer_log _ _ _).trans (by rw [Site.perform, log]; rfl)
  · exact (perform_calls s id done.2.1 done.2.2).trans (by rw [calls]; rfl)

theorem lose_stands {id : Nat} {body : Body} {done : Answer × Option S × List StorageCall}
    (mount : s.store.isSome = mounted) (ran : handled c provider s id body = some done)
    (before : Stands c provider mounted s id) :
    Stands c provider mounted { s.perform id done.2.1 done.2.2 with lost := s.lost ++ [id] } id := by
  obtain ⟨v,subject,found,stands,unanswered,kept,handles,_⟩ := handled_some ran
  unfold Stands at before
  rw [found, unanswered, decide_eq_false kept] at before
  obtain ⟨arrival,arrived,entered,log,calls⟩ := standing_unanswered before
  rw [mount] at handles
  refine stands_of arrived found unanswered log ?_ ?_ (.lost entered stands (.inr ⟨_,handles⟩))
  · exact (perform_calls s id done.2.1 done.2.2).trans (by rw [calls]; rfl)
  · exact decide_eq_true (List.mem_append_right _ List.mem_cons_self)

theorem unhandled_iff {id : Nat} :
    s.unhandled id = true ↔ belonging id s.responses = [] ∧ id ∉ s.lost := by
  simp only [Site.unhandled, Bool.and_eq_true, List.all_eq_true, decide_eq_true_eq, belonging_nil_iff]
  exact and_congr_right fun _ => ⟨fun all member => all id member rfl,fun absent x member same =>
    absent (same ▸ member)⟩

theorem leave_stands {id : Nat} {v : Visit} {subject : Option Subject} (found : s.server.visit id = some v)
    (stands : v.phase = .answered (.forwarded subject)) (unhandled : s.unhandled id = true)
    (before : Stands c provider mounted s id) :
    Stands c provider mounted { s with lost := s.lost ++ [id] } id := by
  obtain ⟨unanswered,kept⟩ := unhandled_iff.mp unhandled
  unfold Stands at before
  rw [found, unanswered, decide_eq_false kept] at before
  obtain ⟨arrival,arrived,entered,log,calls⟩ := standing_unanswered before
  refine stands_of arrived found unanswered log calls ?_ (.lost entered stands (.inl rfl))
  exact decide_eq_true (List.mem_append_right _ List.mem_cons_self)

theorem leave_untouched (s : Site S) {id other : Nat} (different : other ≠ id) :
    Untouched s { s with lost := s.lost ++ [other] } id where
  arrival := rfl
  visit := rfl
  responses := rfl
  log := rfl
  calls := rfl
  lost := by
    rw [List.mem_append, List.mem_singleton, or_iff_left fun equal => different equal.symm]

theorem turnsAway_about {d : Deployment} {u : Server} {a : Action} {id : Nat} {answer : Answer}
    (turned : turnsAway d u a = some (id, answer)) : requestOf a = some id := by
  cases a with
  | proceed moved =>
    obtain ⟨v,_,rest⟩ := Option.bind_eq_some_iff.mp turned
    obtain ⟨failure,_,same⟩ := Option.map_eq_some_iff.mp rest
    cases same
    rfl
  | _ => cases turned

def Site.noted (s : Site S) (u : Server) : Option (Nat × Answer) → Site S
  | some (id, answer) => { s with server := u }.answer id answer
  | none => { s with server := u }

theorem siteStep_act (c : SiteConfig) (provider : StorageProvider S) (s : Site S) {a : Action}
    (inner : ∀ id guard request, a ≠ .arrive id guard request) :
    siteStep c provider s (.act a) =
      (step c.deployment s.server a).map fun u => s.noted u (turnsAway c.deployment s.server a) := by
  cases a with
  | arrive id guard request => exact absurd rfl (inner id guard request)
  | _ => rfl

inductive Moved (c : SiteConfig) (provider : StorageProvider S) (s : Site S) : Event → Site S → Prop where
  | received {id arrival t} (fresh : s.arrival id = none) (took : receive c s id arrival = some t) :
      Moved c provider s (.receive id arrival) t
  | acted {a u} (inner : ∀ id guard request, a ≠ .arrive id guard request)
      (moved : step c.deployment s.server a = some u) :
      Moved c provider s (.act a) (match turnsAway c.deployment s.server a with
        | some (id, answer) => { s with server := u }.answer id answer
        | none => { s with server := u })
  | handled {id body done} (ran : handled c provider s id body = some done) :
      Moved c provider s (.handle id body) ((s.perform id done.2.1 done.2.2).answer id done.1)
  | lost {id body done} (ran : handled c provider s id body = some done) :
      Moved c provider s (.lose id body)
        { s.perform id done.2.1 done.2.2 with lost := s.lost ++ [id] }
  | left {id v subject} (found : s.server.visit id = some v)
      (stands : v.phase = .answered (.forwarded subject)) (unhandled : s.unhandled id = true) :
      Moved c provider s (.leave id) { s with lost := s.lost ++ [id] }

theorem siteStep_moved {e : Event} (taken : siteStep c provider s e = some t) : Moved c provider s e t := by
  cases e with
  | receive id arrival =>
    simp only [siteStep, Option.ite_none_right_eq_some] at taken
    exact .received taken.1 taken.2
  | act a =>
    cases a with
    | arrive => cases taken
    | _ =>
      simp only [siteStep, Option.map_eq_some_iff] at taken
      obtain ⟨u,moved,rfl⟩ := taken
      refine .acted (fun id guard request impossible => ?_) moved
      cases impossible
  | handle id body =>
    obtain ⟨done,ran,rfl⟩ := Option.map_eq_some_iff.mp taken
    exact .handled ran
  | lose id body =>
    obtain ⟨done,ran,rfl⟩ := Option.map_eq_some_iff.mp taken
    exact .lost ran
  | leave id =>
    obtain ⟨v,found,rest⟩ := Option.bind_eq_some_iff.mp taken
    split at rest
    · rename_i subject stands
      obtain ⟨unhandled,same⟩ := Option.ite_none_right_eq_some.mp rest
      cases same
      exact .left found stands unhandled
    · cases rest

theorem moved_server {e : Event} (moved : Moved c provider s e t) :
    t.server = s.server ∨ ∃ a, step c.deployment s.server a = some t.server := by
  cases moved with
  | received _ took =>
    rcases receive_cases took with ⟨guard,u,_,entered,rfl⟩ | ⟨_,rfl⟩
    · exact .inr ⟨_,entered⟩
    · exact .inl rfl
  | @acted a u _ moved =>
    refine .inr ⟨a,moved.trans ?_⟩
    cases turnsAway c.deployment s.server a <;> rfl
  | handled | lost | left => exact .inl rfl

theorem moved_mounted {e : Event} (moved : Moved c provider s e t) :
    t.store.isSome = s.store.isSome := by
  cases moved with
  | received _ took =>
    rcases receive_cases took with ⟨guard,u,_,_,rfl⟩ | ⟨_,rfl⟩ <;> rfl
  | @acted a => cases turnsAway c.deployment s.server a <;> rfl
  | handled ran =>
    obtain ⟨_,_,_,_,_,_,_,same⟩ := handled_some ran
    exact same
  | lost ran =>
    obtain ⟨_,_,_,_,_,_,_,same⟩ := handled_some ran
    exact same
  | left => rfl

theorem moved_stands {e : Event} (tagged : ∀ g, (s.server.world.ctx g).tag = g)
    (mount : s.store.isSome = mounted) (moved : Moved c provider s e t)
    (before : ∀ id, Stands c provider mounted s id) (id : Nat) : Stands c provider mounted t id := by
  cases moved with
  | @received other arrival _ fresh took =>
    by_cases own : id = other
    · subst own
      exact receive_stands fresh mount took (before id)
    · exact (receive_untouched own took).stands (before id)
  | @acted a u inner moved =>
    by_cases own : requestOf a = some id
    · exact act_stands tagged inner moved own (before id)
    · have same := server_untouched moved own
      cases turned : turnsAway c.deployment s.server a with
      | none => exact same.stands (before id)
      | some both =>
        obtain ⟨other,answer⟩ := both
        have different : other ≠ id := fun equal => own (equal ▸ turnsAway_about turned)
        exact (same.trans (answer_untouched different answer)).stands (before id)
  | @handled other body done ran =>
    by_cases own : other = id
    · subst own
      exact handle_stands mount ran (before other)
    · exact ((perform_untouched s own _ _).trans (answer_untouched own _)).stands (before id)
  | @lost other body done ran =>
    by_cases own : other = id
    · subst own
      exact lose_stands mount ran (before other)
    · exact ((perform_untouched s own _ _).trans (leave_untouched _ own)).stands (before id)
  | @left other v subject found stands unhandled =>
    by_cases own : other = id
    · subst own
      exact leave_stands found stands unhandled (before other)
    · exact (leave_untouched s own).stands (before id)

theorem server_instant {d : Deployment} {s t : Server} {a : Action}
    (taken : step d s a = some t) :
    t.instant = s.instant ∨ ∃ instant, a = .passTime instant ∧ s.instant ≤ instant ∧ t.instant = instant := by
  cases a with
  | refresh action =>
    obtain ⟨w,_,rfl⟩ := Option.map_eq_some_iff.mp taken
    exact .inl rfl
  | passTime instant =>
    simp only [step, Option.ite_none_right_eq_some] at taken
    cases taken.2
    exact .inr ⟨instant,rfl,taken.1,rfl⟩
  | maintenance =>
    cases taken
    exact .inl rfl
  | arrive id guard request =>
    simp only [step, Option.ite_none_right_eq_some] at taken
    cases taken.2
    exact .inl rfl
  | proceed id =>
    obtain ⟨v,_,rest⟩ := Option.bind_eq_some_iff.mp taken
    obtain ⟨next,_,rfl⟩ := Option.map_eq_some_iff.mp rest
    exact .inl rfl
  | startRefresh id task =>
    obtain ⟨v,_,rest⟩ := Option.bind_eq_some_iff.mp taken
    split at rest
    · obtain ⟨w,_,rfl⟩ := Option.map_eq_some_iff.mp rest
      exact .inl rfl
    · cases rest
  | abandon id =>
    obtain ⟨v,_,rest⟩ := Option.bind_eq_some_iff.mp taken
    split at rest
    · obtain ⟨w,_,rfl⟩ := Option.map_eq_some_iff.mp rest
      exact .inl rfl
    · cases rest

theorem siteStep_instant {s t : Site S} {e : Event}
    (taken : siteStep c provider s e = some t) :
    t.server.instant = s.server.instant ∨
      ∃ instant, e = .act (.passTime instant) ∧ s.server.instant ≤ instant ∧ t.server.instant = instant := by
  cases siteStep_moved taken with
  | received _ took =>
    rcases receive_cases took with ⟨guard,u,_,entered,rfl⟩ | ⟨_,rfl⟩
    · rcases server_instant entered with same | ⟨_,impossible,_⟩
      · exact .inl same
      · cases impossible
    · exact .inl rfl
  | @acted a u _ moved =>
    rcases server_instant moved with kept | ⟨instant,rfl,later,moved⟩
    · cases turnsAway c.deployment s.server a <;> exact .inl kept
    · exact .inr ⟨instant,rfl,later,moved⟩
  | handled | lost | left => exact .inl rfl

theorem siteStep_later {s t : Site S} {e : Event}
    (taken : siteStep c provider s e = some t) : s.server.instant ≤ t.server.instant := by
  rcases siteStep_instant taken with same | ⟨instant,_,later,moved⟩
  · exact Nat.le_of_eq same.symm
  · rw [moved]
    exact later

theorem siteStep_world {s t : Site S} {e : Event} (taken : siteStep c provider s e = some t) :
    t.server.world = s.server.world ∨ ∃ action, RefreshTasks.Moves s.server.world action t.server.world ∧
      (e = .act (.refresh action) ∨ ∀ task, action ≠ .advance task) := by
  have seen {a : GuardedRequests.Action} {u : Server} (moved : step c.deployment s.server a = some u) :
      u.world = s.server.world ∨ ∃ action, RefreshTasks.Moves s.server.world action u.world ∧
        (a = .refresh action ∨ ∀ task, action ≠ .advance task) := by
    rcases step_world moved with same | ⟨action,refreshed,cause⟩
    · exact .inl same
    · exact .inr ⟨action,RefreshTasks.step_moves refreshed,cause⟩
  cases siteStep_moved taken with
  | received _ took =>
    rcases receive_cases took with ⟨guard,u,_,entered,rfl⟩ | ⟨_,rfl⟩
    · rcases seen entered with same | ⟨action,moves,impossible | spawned⟩
      · exact .inl same
      · cases impossible
      · exact .inr ⟨action,moves,.inr spawned⟩
    · exact .inl rfl
  | @acted a u _ moved =>
    rcases seen moved with same | ⟨action,moves,cause⟩
    · exact .inl (by cases turnsAway c.deployment s.server a <;> exact same)
    · refine .inr ⟨action,?_,cause.imp_left (congrArg _)⟩
      cases turnsAway c.deployment s.server a <;> exact moves
  | handled | lost | left => exact .inl rfl

structure StartedSite (c : SiteConfig) (s : Site S) : Prop where
  server : Started c.deployment s.server
  arrivals : s.arrivals = ∅
  calls : s.calls = []
  responses : s.responses = []
  log : s.log = []
  lost : s.lost = []

variable {start : Site S} {events : List Event}

theorem site_server_run (taken : run (siteStep c provider) start events = some s) :
    ∃ actions, run (step c.deployment) start.server actions = some s.server := by
  refine run_invariant (fun s => ∃ actions, run (step c.deployment) start.server actions = some s.server)
    ?_ ⟨[],rfl⟩ taken
  rintro s e t ⟨actions,reached⟩ next
  rcases moved_server (siteStep_moved next) with same | ⟨a,moved⟩
  · rw [same]
    exact ⟨actions,reached⟩
  · exact ⟨actions ++ [a],run_snoc reached moved⟩

theorem site_mounted (taken : run (siteStep c provider) start events = some s) :
    s.store.isSome = start.store.isSome :=
  run_invariant (fun s => s.store.isSome = start.store.isSome)
    (fun same next => (moved_mounted (siteStep_moved next)).trans same) rfl taken

theorem reachable_stands (started : StartedSite c start)
    (taken : run (siteStep c provider) start events = some s) (id : Nat) :
    Stands c provider start.store.isSome s id := by
  refine history_invariant (fun _ s => ∀ id, Stands c provider start.store.isSome s id) ?_ ?_ taken id
  · intro id
    have unvisited : start.server.visit id = none := by
      unfold Server.visit
      rw [started.server.visits]
      rfl
    have unseen : start.arrival id = none := by
      unfold Site.arrival
      rw [started.arrivals]
      rfl
    refine stands_of unseen unvisited ?_ ?_ ?_ ?_ .unseen
    · rw [started.responses]
      rfl
    · rw [started.log]
      rfl
    · rw [started.calls]
      rfl
    · rw [started.lost]
      rfl
  · intro front s e t reached before next id
    obtain ⟨actions,served⟩ := site_server_run reached
    exact moved_stands (reachable_tagged started.server served) (site_mounted reached)
      (siteStep_moved next) before id

end Runs

def sampleConfig (target : PathAndQuery) : SiteConfig where
  deployment := {
    platform := RefreshTasks.samplePlatform
    jose := soloJose soloClaims (soloProof ("http://vault.test" ++ target.text) 100).claims }
  blocks := RejectedRequests.smallBlocks
  web := plainWeb
  ip := plainLibrary
  trustedProxies := []

def emptySite {S : Type} (store : S) (w : RefreshTasks.World) : Site S where
  server := sampleServer w
  store := some store
  arrivals := ∅
  calls := []
  responses := []
  log := []
  lost := []

theorem emptySite_started {S : Type} (store : S) {target : PathAndQuery} {w : RefreshTasks.World}
    (started : RefreshTasks.Started RefreshTasks.samplePlatform w) :
    StartedSite (sampleConfig target) (emptySite store w) :=
  ⟨⟨started,rfl,rfl⟩,rfl,rfl,rfl,rfl,rfl⟩

def sampleVisits (target : PathAndQuery) : List Event :=
  let read := soloRequest "vault.test" target
  [.act (.refresh (.setClock 101)), .receive 0 ⟨none, read⟩, .act (.proceed 0), .act (.proceed 0),
    .act (.proceed 0), .act (.proceed 0), .handle 0 (.complete []),
    .receive 1 ⟨none, { read with method := "LINK" }⟩, .act (.proceed 1), .handle 1 (.complete []),
    .receive 2 ⟨none, read⟩, .act (.proceed 2), .act (.proceed 2), .act (.proceed 2),
    .act (.proceed 2)]

def rotatedConfig : SiteConfig :=
  let c := sampleConfig RejectedRequests.blockTarget
  let jose := { c.deployment.jose with decodeToken := fun _ _ _ => .error .other }
  { c with deployment := { c.deployment with jose := jose } }

def suspendedVisit (id task : Nat) : List Event :=
  .receive id ⟨none, soloRequest "vault.test" RejectedRequests.blockTarget⟩ ::
    .act (.proceed id) :: .act (.proceed id) :: .act (.startRefresh id task) ::
    List.replicate 4 (.act (.refresh (.advance task)))

theorem rotated_started {S : Type} (store : S) {w : RefreshTasks.World}
    (started : RefreshTasks.Started RefreshTasks.samplePlatform w) :
    StartedSite rotatedConfig (emptySite store w) :=
  ⟨⟨started,rfl,rfl⟩,rfl,rfl,rfl,rfl,rfl⟩

end ServedRequests
