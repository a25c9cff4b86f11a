import Apokryphos.ServedRequests

/-!
The server does not look into the blocks. Two sites whose blocks and bodies differ
in their bytes, but not in their lengths, go through the same authentications and
log the same events; their responses differ only in the blocks that they carry.
This holds for every provider that is blind itself, also for one that fails.
-/
namespace BlindStorage
open BlockRoutes BlockStorage Digests GuardedRequests LogEvents RequestGuards ServedRequests SiteRoutes
open StepRuns
open RejectedRequests (blockTarget)

def Resembles (a b : Bytes) : Prop := a.length = b.length

inductive BodiesAlike : Body → Body → Prop where
  | complete {a b} (same : Resembles a b) : BodiesAlike (.complete a) (.complete b)
  | broken {a b} (same : Resembles a b) : BodiesAlike (.broken a) (.broken b)

structure ResponsesAlike (r q : Response) : Prop where
  status : r.status = q.status
  headers : r.headers = q.headers
  body : Resembles r.body q.body

/-- The provider answers alike wherever its stores are alike, and keeps them so. -/
structure Blind {S : Type} (provider : StorageProvider S) (alike : S → S → Prop) : Prop where
  put : ∀ {m n a b} id, alike m n → Resembles a b →
    (provider.put m id a).1 = (provider.put n id b).1 ∧ alike (provider.put m id a).2 (provider.put n id b).2
  get : ∀ {m n} id, alike m n → alike (provider.get m id).2 (provider.get n id).2 ∧
    ((∃ a b, Resembles a b ∧ (provider.get m id).1 = .ok a ∧ (provider.get n id).1 = .ok b) ∨
      ∃ e, (provider.get m id).1 = .error e ∧ (provider.get n id).1 = .error e)
  delete : ∀ {m n} id, alike m n → (provider.delete m id).1 = (provider.delete n id).1 ∧
    alike (provider.delete m id).2 (provider.delete n id).2

inductive CallsAlike : StorageCall → StorageCall → Prop where
  | put {id a b} (same : Resembles a b) : CallsAlike (.put id a) (.put id b)
  | get {id} : CallsAlike (.get id) (.get id)
  | delete {id} : CallsAlike (.delete id) (.delete id)

section Handlers
variable {S : Type} {provider : StorageProvider S} {alike : S → S → Prop}

structure SessionsAlike (alike : S → S → Prop) (s t : Session S) : Prop where
  store : alike s.store t.store
  calls : List.Forall₂ CallsAlike s.calls t.calls

structure AnswersAlike (alike : S → S → Prop) (a b : Answer × Session S) : Prop where
  response : ResponsesAlike a.1.1 b.1.1
  log : a.1.2 = b.1.2
  session : SessionsAlike alike a.2 b.2

variable {s t : Session S} {config : BlockConfig} {id : BlockId} {fields : BlockFields}

theorem responsesAlike_refl (r : Response) : ResponsesAlike r r := ⟨rfl,rfl,rfl⟩

theorem answersAlike_of (sessions : SessionsAlike alike s t) (answer : Answer) :
    AnswersAlike alike (answer, s) (answer, t) :=
  ⟨responsesAlike_refl _,rfl,sessions⟩

theorem respondBlock200_alike {a b : Bytes} (same : Resembles a b) :
    ResponsesAlike (respondBlock200 a) (respondBlock200 b) := by
  refine ⟨rfl,?_,same⟩
  unfold respondBlock200
  rw [show a.length = b.length from same]

theorem toBytes_alike (reader : BodyReader) {body other : Body} (bodies : BodiesAlike body other)
    (limit : Nat) : Option.Rel Resembles (reader.toBytes body limit) (reader.toBytes other limit) := by
  cases bodies with
  | @complete a b same =>
    by_cases short : a.length ≤ limit
    · rw [reader.within short, reader.within (show b.length ≤ limit from same ▸ short)]
      exact .some same
    · have long := not_le.mp short
      rw [reader.limited long, reader.limited (show limit < b.length from same ▸ long)]
      exact .none
  | broken same =>
    have unread (received : Bytes) : reader.toBytes (.broken received) limit = none := by
      cases found : reader.toBytes (.broken received) limit with
      | none => rfl
      | some bytes => cases reader.whole found
    rw [unread, unread]
    exact .none

theorem calls_snoc (sessions : SessionsAlike alike s t) {call other : StorageCall}
    (calls : CallsAlike call other) :
    List.Forall₂ CallsAlike (s.calls ++ [call]) (t.calls ++ [other]) :=
  List.rel_append sessions.calls (.cons calls .nil)

theorem handleGetLogged_alike (blind : Blind provider alike) (sessions : SessionsAlike alike s t)
    (id : BlockId) (fields : BlockFields) :
    AnswersAlike alike (handleGetLogged provider s id fields) (handleGetLogged provider t id fields) := by
  obtain ⟨kept,outcomes⟩ := blind.get id sessions.store
  have after : SessionsAlike alike (s.get provider id).2 (t.get provider id).2 :=
    ⟨kept,calls_snoc sessions .get⟩
  unfold handleGetLogged
  rcases outcomes with ⟨a,b,same,left,right⟩ | ⟨e,left,right⟩
  · have first : s.get provider id = (.ok a, (s.get provider id).2) := Prod.ext left rfl
    have second : t.get provider id = (.ok b, (t.get provider id).2) := Prod.ext right rfl
    rw [first, second]
    exact ⟨respondBlock200_alike same,rfl,after⟩
  · have first : s.get provider id = (.error e, (s.get provider id).2) := Prod.ext left rfl
    have second : t.get provider id = (.error e, (t.get provider id).2) := Prod.ext right rfl
    rw [first, second]
    cases e <;> exact answersAlike_of after _

theorem handlePutLogged_alike (blind : Blind provider alike) (sessions : SessionsAlike alike s t)
    (config : BlockConfig) (id : BlockId) (fields : BlockFields) (request : Request) {body other : Body}
    (bodies : BodiesAlike body other) :
    AnswersAlike alike (handlePutLogged provider config s id fields ⟨request, body⟩)
      (handlePutLogged provider config t id fields ⟨request, other⟩) := by
  unfold handlePutLogged
  by_cases declared : ∃ declared ∈ contentLength request, declared ≠ config.blockSizeBytes
  · rw [if_pos declared, if_pos declared]
    exact answersAlike_of sessions _
  · rw [if_neg declared, if_neg declared]
    cases MachineWords.checkedAdd config.blockSizeBytes 1 with
    | none => exact answersAlike_of sessions _
    | some n =>
      dsimp only
      have read := toBytes_alike config.reader bodies (n.toNat % 2 ^ config.usizeBits)
      generalize config.reader.toBytes body (n.toNat % 2 ^ config.usizeBits) = front at read ⊢
      generalize config.reader.toBytes other (n.toNat % 2 ^ config.usizeBits) = back at read ⊢
      cases read with
      | none => exact answersAlike_of sessions _
      | @some a b same =>
        dsimp only
        have sizes : a.length = b.length := same
        rw [sizes]
        by_cases wrong : UInt64.ofNat b.length ≠ config.blockSizeBytes
        · rw [if_pos wrong, if_pos wrong]
          exact answersAlike_of sessions _
        · rw [if_neg wrong, if_neg wrong]
          obtain ⟨outcome,kept⟩ := blind.put id sessions.store same
          have after : SessionsAlike alike (s.put provider id a).2 (t.put provider id b).2 :=
            ⟨kept,calls_snoc sessions (.put same)⟩
          have first : s.put provider id a =
              ((provider.put t.store id b).1, (s.put provider id a).2) := Prod.ext outcome rfl
          have second : t.put provider id b =
              ((provider.put t.store id b).1, (t.put provider id b).2) := rfl
          rw [first, second]
          cases (provider.put t.store id b).1 with
          | ok u => exact answersAlike_of after _
          | error e => cases e <;> exact answersAlike_of after _

theorem handleDeleteLogged_alike (blind : Blind provider alike) (sessions : SessionsAlike alike s t)
    (id : BlockId) (fields : BlockFields) :
    AnswersAlike alike (handleDeleteLogged provider s id fields)
      (handleDeleteLogged provider t id fields) := by
  obtain ⟨outcome,kept⟩ := blind.delete id sessions.store
  have after : SessionsAlike alike (s.delete provider id).2 (t.delete provider id).2 :=
    ⟨kept,calls_snoc sessions .delete⟩
  have first : s.delete provider id =
      ((provider.delete t.store id).1, (s.delete provider id).2) := Prod.ext outcome rfl
  have second : t.delete provider id =
      ((provider.delete t.store id).1, (t.delete provider id).2) := rfl
  unfold handleDeleteLogged
  rw [first, second]
  cases (provider.delete t.store id).1 with
  | ok u => exact answersAlike_of after _
  | error e => cases e <;> exact answersAlike_of after _

theorem handleBlockLogged_alike (blind : Blind provider alike) (sessions : SessionsAlike alike s t)
    (config : BlockConfig) (request : Request) (subject : Option Subject) {body other : Body}
    (bodies : BodiesAlike body other) :
    AnswersAlike alike (handleBlockLogged provider config s ⟨request, body⟩ subject)
      (handleBlockLogged provider config t ⟨request, other⟩ subject) := by
  unfold handleBlockLogged
  dsimp only
  cases BlockId.parse ((Texts.stripPrefix blocksRoot (rawPath request)).getD "") with
  | none => exact answersAlike_of sessions _
  | some id =>
    dsimp only
    by_cases get : request.method = "GET"
    · rw [if_pos get, if_pos get]
      exact handleGetLogged_alike blind sessions id _
    · rw [if_neg get, if_neg get]
      by_cases put : request.method = "PUT"
      · rw [if_pos put, if_pos put]
        exact handlePutLogged_alike blind sessions config id _ request bodies
      · rw [if_neg put, if_neg put]
        by_cases delete : request.method = "DELETE"
        · rw [if_pos delete, if_pos delete]
          exact handleDeleteLogged_alike blind sessions id _
        · rw [if_neg delete, if_neg delete]
          exact answersAlike_of sessions _

end Handlers

section Sites
variable {S : Type} {c : SiteConfig} {provider : StorageProvider S} {alike : S → S → Prop}

structure SitesAlike (alike : S → S → Prop) (s t : Site S) : Prop where
  server : s.server = t.server
  store : Option.Rel alike s.store t.store
  arrivals : s.arrivals = t.arrivals
  calls : List.Forall₂ (fun a b => a.1 = b.1 ∧ CallsAlike a.2 b.2) s.calls t.calls
  responses : List.Forall₂ (fun a b => a.1 = b.1 ∧ ResponsesAlike a.2 b.2) s.responses t.responses
  log : s.log = t.log
  lost : s.lost = t.lost

inductive EventsAlike : Event → Event → Prop where
  | receive (id : Nat) (arrival : Arrival) : EventsAlike (.receive id arrival) (.receive id arrival)
  | act (action : Action) : EventsAlike (.act action) (.act action)
  | handle (id : Nat) {body other : Body} (bodies : BodiesAlike body other) :
      EventsAlike (.handle id body) (.handle id other)
  | lose (id : Nat) {body other : Body} (bodies : BodiesAlike body other) :
      EventsAlike (.lose id body) (.lose id other)
  | leave (id : Nat) : EventsAlike (.leave id) (.leave id)

variable {s t : Site S}

theorem mounted_alike (sites : SitesAlike alike s t) : s.store.isSome = t.store.isSome := by
  have stores := sites.store
  generalize s.store = front at stores ⊢
  generalize t.store = back at stores ⊢
  cases stores <;> rfl

theorem unhandled_alike (sites : SitesAlike alike s t) (id : Nat) : s.unhandled id = t.unhandled id := by
  unfold Site.unhandled
  rw [sites.lost]
  have ids : s.responses.map Prod.fst = t.responses.map Prod.fst := by
    have both := sites.responses
    generalize s.responses = front at both ⊢
    generalize t.responses = back at both ⊢
    induction both with
    | nil => rfl
    | cons first _ ih => rw [List.map_cons, List.map_cons, first.1, ih]
  have all (responses : List (Nat × Response)) :
      (responses.all fun given => given.1 ≠ id) = (responses.map Prod.fst).all fun given => given ≠ id := by
    rw [List.all_map]
    rfl
  rw [all, all, ids]

theorem answer_alike (sites : SitesAlike alike s t) (id : Nat) {a b : Answer}
    (response : ResponsesAlike a.1 b.1) (log : a.2 = b.2) :
    SitesAlike alike (s.answer id a) (t.answer id b) where
  server := sites.server
  store := sites.store
  arrivals := sites.arrivals
  calls := sites.calls
  responses := List.rel_append sites.responses (.cons ⟨rfl,response⟩ .nil)
  log := by rw [Site.answer, Site.answer, sites.log, log]
  lost := sites.lost

theorem server_alike (sites : SitesAlike alike s t) (u : Server) :
    SitesAlike alike { s with server := u } { t with server := u } :=
  ⟨rfl,sites.store,sites.arrivals,sites.calls,sites.responses,sites.log,sites.lost⟩

theorem arrivals_alike (sites : SitesAlike alike s t) (id : Nat) (arrival : Arrival) :
    SitesAlike alike { s with arrivals := s.arrivals.insert id arrival }
      { t with arrivals := t.arrivals.insert id arrival } :=
  ⟨sites.server,sites.store,by rw [sites.arrivals],sites.calls,sites.responses,sites.log,sites.lost⟩

theorem receive_alike (sites : SitesAlike alike s t) (id : Nat) (arrival : Arrival) :
    Option.Rel (SitesAlike alike) (receive c s id arrival) (receive c t id arrival) := by
  have noted := arrivals_alike sites id arrival
  rw [sites.server] at noted
  unfold receive
  dsimp only
  rw [mounted_alike sites, sites.server]
  cases (c.endpoint t.store.isSome (c.effective arrival)).guard with
  | none => exact .some (answer_alike noted id (responsesAlike_refl _) rfl)
  | some guard =>
    dsimp only
    cases step c.deployment t.server (.arrive id guard (c.effective arrival)) with
    | none => exact .none
    | some u => exact .some (server_alike noted u)

structure OutcomesAlike (alike : S → S → Prop) (a b : Answer × Option S × List StorageCall) : Prop where
  response : ResponsesAlike a.1.1 b.1.1
  log : a.1.2 = b.1.2
  store : Option.Rel alike a.2.1 b.2.1
  calls : List.Forall₂ CallsAlike a.2.2 b.2.2

theorem outcome_alike (blind : Blind provider alike) (sites : SitesAlike alike s t) (v : Visit)
    (subject : Option Subject) {body other : Body} (bodies : BodiesAlike body other) :
    Option.Rel (OutcomesAlike alike) (outcome c provider s v subject body)
      (outcome c provider t v subject other) := by
  unfold outcome
  rw [mounted_alike sites]
  cases c.endpoint t.store.isSome v.request with
  | health => exact .none
  | fallback => exact .none
  | whoami tag => exact .some ⟨responsesAlike_refl _,rfl,sites.store,.nil⟩
  | block =>
    dsimp only
    have stores := sites.store
    generalize s.store = front at stores ⊢
    generalize t.store = back at stores ⊢
    cases stores with
    | none => exact .none
    | @some m n same =>
      have sessions : SessionsAlike alike ⟨m, []⟩ ⟨n, []⟩ := ⟨same,.nil⟩
      have answers := handleBlockLogged_alike blind sessions c.blocks v.request subject bodies
      rw [Option.map_some, Option.map_some]
      generalize handleBlockLogged provider c.blocks ⟨m, []⟩ ⟨v.request, body⟩ subject = front
        at answers ⊢
      generalize handleBlockLogged provider c.blocks ⟨n, []⟩ ⟨v.request, other⟩ subject = back
        at answers ⊢
      exact .some ⟨answers.response,answers.log,.some answers.session.store,answers.session.calls⟩

theorem handled_alike (blind : Blind provider alike) (sites : SitesAlike alike s t) (id : Nat)
    {body other : Body} (bodies : BodiesAlike body other) :
    Option.Rel (OutcomesAlike alike) (handled c provider s id body) (handled c provider t id other) := by
  unfold handled
  rw [sites.server, unhandled_alike sites]
  cases t.server.visit id with
  | none => exact .none
  | some v =>
    simp only [Option.bind_some]
    split
    · split
      · exact outcome_alike blind sites v _ bodies
      · exact .none
    · exact .none

theorem perform_alike (sites : SitesAlike alike s t) (id : Nat) {front back : Option S}
    {calls others : List StorageCall} (stores : Option.Rel alike front back)
    (same : List.Forall₂ CallsAlike calls others) :
    SitesAlike alike (s.perform id front calls) (t.perform id back others) where
  server := sites.server
  store := stores
  arrivals := sites.arrivals
  calls := by
    refine List.rel_append sites.calls ?_
    rw [List.forall₂_map_left_iff, List.forall₂_map_right_iff]
    exact same.imp fun a b both => ⟨rfl,both⟩
  responses := sites.responses
  log := sites.log
  lost := sites.lost

theorem siteStep_alike (blind : Blind provider alike) (sites : SitesAlike alike s t) {e f : Event}
    (events : EventsAlike e f) :
    Option.Rel (SitesAlike alike) (siteStep c provider s e) (siteStep c provider t f) := by
  cases events with
  | receive id arrival =>
    have arrived : s.arrival id = t.arrival id := by
      unfold Site.arrival
      rw [sites.arrivals]
    simp only [siteStep]
    rw [arrived]
    split
    · exact receive_alike sites id arrival
    · exact .none
  | act a =>
    by_cases came : ∃ id guard request, a = .arrive id guard request
    · obtain ⟨id,guard,request,rfl⟩ := came
      exact .none
    · have inner (id : Nat) (guard : Guard) (request : RequestGuards.Request) :
          a ≠ .arrive id guard request := fun same => came ⟨id,guard,request,same⟩
      rw [siteStep_act c provider s inner, siteStep_act c provider t inner, sites.server]
      cases step c.deployment t.server a with
      | none => exact .none
      | some u =>
        refine .some ?_
        cases turnsAway c.deployment t.server a with
        | none => exact server_alike sites u
        | some both => exact answer_alike (server_alike sites u) both.1 (responsesAlike_refl _) rfl
  | handle id bodies =>
    have both := handled_alike (c := c) blind sites id bodies
    simp only [siteStep]
    generalize handled c provider s id _ = front at both ⊢
    generalize handled c provider t id _ = back at both ⊢
    cases both with
    | none => exact .none
    | some done =>
      exact .some (answer_alike (perform_alike sites id done.store done.calls) id done.response done.log)
  | lose id bodies =>
    have both := handled_alike (c := c) blind sites id bodies
    simp only [siteStep]
    generalize handled c provider s id _ = front at both ⊢
    generalize handled c provider t id _ = back at both ⊢
    cases both with
    | none => exact .none
    | some done =>
      have after := perform_alike sites id done.store done.calls
      exact .some ⟨after.server,after.store,after.arrivals,after.calls,after.responses,after.log,
        by rw [sites.lost]⟩
  | leave id =>
    simp only [siteStep]
    rw [sites.server, unhandled_alike sites]
    cases t.server.visit id with
    | none => exact .none
    | some v =>
      simp only [Option.bind_some]
      split
      · split
        · exact .some ⟨rfl,sites.store,sites.arrivals,sites.calls,sites.responses,sites.log,
            by rw [sites.lost]⟩
        · exact .none
      · exact .none

/-- Nothing that the server does or logs depends on the bytes of a block: with
    other blocks of the same lengths every run is possible that was possible
    before, with the same state of every request, the same events, and responses
    that differ in the bytes of their bodies at most. -/
theorem blocks_unread (blind : Blind provider alike) (sites : SitesAlike alike s t)
    {events others : List Event} (same : List.Forall₂ EventsAlike events others) :
    Option.Rel (SitesAlike alike) (run (siteStep c provider) s events)
      (run (siteStep c provider) t others) :=
  run_alike (SitesAlike alike) EventsAlike (fun sites events => siteStep_alike blind sites events) sites same

end Sites

def SameLengths (m n : BlockId → Option Bytes) : Prop := ∀ id, Option.Rel Resembles (m id) (n id)

theorem update_sameLengths {m n : BlockId → Option Bytes} (same : SameLengths m n) (id : BlockId)
    {front back : Option Bytes} (new : Option.Rel Resembles front back) :
    SameLengths (Function.update m id front) (Function.update n id back) := by
  intro other
  by_cases own : other = id
  · rw [own, Function.update_self, Function.update_self]
    exact new
  · rw [Function.update_of_ne own, Function.update_of_ne own]
    exact same other

theorem atomicMap_blind : Blind atomicMap SameLengths where
  put id same new := ⟨rfl,update_sameLengths same id (.some new)⟩
  get {m n} id same := by
    have found := same id
    simp only [atomicMap]
    generalize m id = front at found ⊢
    generalize n id = back at found ⊢
    cases found with
    | none => exact ⟨same,.inr ⟨.notFound,rfl,rfl⟩⟩
    | @some a b new => exact ⟨same,.inl ⟨a,b,new,rfl,rfl⟩⟩
  delete id same := ⟨rfl,update_sameLengths same id .none⟩

theorem emptySite_alike {m n : BlockId → Option Bytes} (same : SameLengths m n)
    (w : RefreshTasks.World) : SitesAlike SameLengths (emptySite m w) (emptySite n w) :=
  ⟨rfl,.some same,rfl,.nil,.nil,rfl,rfl⟩

theorem blocks_unread_stored :
    ∃ s t : Site (BlockId → Option Bytes), SitesAlike SameLengths s t ∧
      s.responses = [(0, respondBlock200 [1, 2, 3, 4])] ∧
      t.responses = [(0, respondBlock200 [5, 6, 7, 8])] := by
  let read (payload : Bytes) (w : RefreshTasks.World) :=
    run (siteStep (sampleConfig blockTarget) atomicMap) (emptySite (fun _ => some payload) w)
      ((sampleVisits blockTarget).take 7)
  have evaluated : ∃ w, RefreshTasks.Started RefreshTasks.samplePlatform w ∧
      (∃ s ∈ read [1, 2, 3, 4] w, s.responses = [(0, respondBlock200 [1, 2, 3, 4])]) ∧
      ∃ t ∈ read [5, 6, 7, 8] w, t.responses = [(0, respondBlock200 [5, 6, 7, 8])] :=
    RefreshTasks.sample_exists (by decide +kernel)
  obtain ⟨w,_,⟨s,left,first⟩,t,right,second⟩ := evaluated
  have same : List.Forall₂ EventsAlike ((sampleVisits blockTarget).take 7)
      ((sampleVisits blockTarget).take 7) :=
    .cons (.act _) (.cons (.receive _ _) (.cons (.act _) (.cons (.act _) (.cons (.act _)
      (.cons (.act _) (.cons (.handle _ (.complete rfl)) .nil))))))
  have both := blocks_unread (c := sampleConfig blockTarget) atomicMap_blind
    (emptySite_alike (m := fun _ => some [1, 2, 3, 4]) (n := fun _ => some [5, 6, 7, 8])
      (fun _ => .some rfl) w) same
  rw [show run _ _ _ = some s from left, show run _ _ _ = some t from right] at both
  cases both with
  | some alike => exact ⟨s,t,alike,first,second⟩

end BlindStorage
