import Apokryphos.RefreshTasks
import Apokryphos.RequestGuards

/-!
Requests on their way through the guards, while the key sets and the discovery
documents of both contexts are being replaced. A request reads the shared state
where the source does: the cached key set for each of its two attempts to decode
the token, the clock for the claims, both clocks and the replay store for the
proof. Between these reads anything may happen. What a request has learnt so far
is justified by states of the run in which it was already under way.
-/
namespace GuardedRequests
open OidcContexts Outcomes ProofValidation ReplayStore RequestGuards ServerConfig SigningKeys StepRuns
open TokenValidation

/-- The vault guard lists the methods that it authenticates, by default only
    `GET`; the admin guard authenticates `GET`. -/
inductive Guard where
  | vault (authMethods : List String)
  | admin
  deriving DecidableEq

def vaultGuard : Guard := .vault ["GET"]

def Guard.tag : Guard → AudienceTag
  | .vault _ => .vault
  | .admin => .admin

def Guard.authenticates : Guard → String → Bool
  | .vault authMethods, method => authMethods.any (· == method)
  | .admin, method => method == "GET"

/-- The subject extension; the two audiences have separate types for it. -/
structure Subject where
  tag : AudienceTag
  sub : String
  deriving DecidableEq

inductive Reply where
  | forwarded (subject : Option Subject)
  | respond401
  | respond503MemoryPressure
  deriving DecidableEq

def refuse : AuthFailure → Reply
  | .memoryPressure => .respond503MemoryPressure
  | _ => .respond401

structure Opening where
  credentials : Credentials
  header : JoseHeader
  alg : JwsAlg
  deriving DecidableEq

/-- Where a request stands. `first` is the failure of the first attempt, which is
    reported unless the second one succeeds. -/
inductive Phase where
  | entered
  | decode (o : Opening)
  | needsRefresh (o : Opening) (first : AuthFailure)
  | refreshing (o : Opening) (first : AuthFailure) (task : Nat)
  | decodeAgain (o : Opening) (first : AuthFailure)
  | claims (o : Opening) (found : TokenClaims)
  | proof (o : Opening) (token : AccessToken)
  | answered (reply : Reply)
  | abandoned
  deriving DecidableEq

def Phase.active : Phase → Bool
  | .answered _ | .abandoned => false
  | _ => true

def Phase.opening : Phase → Option Opening
  | .decode o | .needsRefresh o _ | .refreshing o _ _ | .decodeAgain o _ | .claims o _
  | .proof o _ => some o
  | .entered | .answered _ | .abandoned => none

structure Visit where
  guard : Guard
  request : Request
  phase : Phase

structure Deployment where
  platform : Platform
  jose : Jose

def Deployment.parseUrl (d : Deployment) : UrlTexts.UrlParser := d.platform.parsers.url

structure Server where
  world : RefreshTasks.World
  instant : Instant
  replay : JtiReplayStore
  visits : AList (fun _ : Nat => Visit)

def Server.visit (s : Server) (id : Nat) : Option Visit := s.visits.lookup id

def Server.setVisit (s : Server) (id : Nat) (v : Visit) : Server :=
  { s with visits := s.visits.insert id v }

def openRequest (d : Deployment) (request : Request) : Except AuthFailure Opening := do
  let credentials ← readCredentials d.parseUrl request
  let (header, alg) ← readHeader d.jose credentials.rawToken
  return { credentials, header, alg }

def attemptDecode (d : Deployment) (o : Opening) (ctx : OidcContext) :
    Except AuthFailure TokenClaims :=
  tryDecodeWithCurrentJwks d.jose o.credentials.rawToken o.header
    (tokenSettings o.alg ctx.authConfig) ctx.jwks

def refreshResult (w : RefreshTasks.World) (task : Nat) : Option Bool :=
  (w.task task).bind fun k =>
    match k.phase with
    | .finished _ result => some result
    | _ => none

def proceed (d : Deployment) (s : Server) (v : Visit) : Option (Phase × JtiReplayStore) :=
  let ctx := s.world.ctx v.guard.tag
  match v.phase with
  | .entered =>
    if v.guard.authenticates v.request.method then
      match openRequest d v.request with
      | .ok o => some (.decode o, s.replay)
      | .error failure => some (.answered (refuse failure), s.replay)
    else some (.answered (.forwarded none), s.replay)
  | .decode o =>
    match attemptDecode d o ctx with
    | .ok found => some (.claims o found, s.replay)
    | .error first => some (.needsRefresh o first, s.replay)
  | .refreshing o first task =>
    (refreshResult s.world task).map fun result =>
      if result then (.decodeAgain o first, s.replay)
      else (.answered (refuse first), s.replay)
  | .decodeAgain o first =>
    match attemptDecode d o ctx with
    | .ok found => some (.claims o found, s.replay)
    | .error _ => some (.answered (refuse first), s.replay)
  | .claims o found =>
    match checkClaims found ctx s.world.clock with
    | .ok token => some (.proof o token, s.replay)
    | .error failure => some (.answered (refuse failure), s.replay)
  | .proof o token =>
    match authenticateProof d.jose d.parseUrl v.request o.credentials token ctx s.world.clock
        s.instant s.replay with
    | (.ok sub, replay) => some (.answered (.forwarded (some ⟨v.guard.tag, sub⟩)), replay)
    | (.error failure, replay) => some (.answered (refuse failure), replay)
  | .needsRefresh _ _ | .answered _ | .abandoned => none

inductive Action where
  | refresh (action : RefreshTasks.Action)
  | passTime (instant : Instant)
  | maintenance
  | arrive (id : Nat) (guard : Guard) (request : Request)
  | proceed (id : Nat)
  | startRefresh (id task : Nat)
  | abandon (id : Nat)

/-- The refresh goes down with the request that waits for it. A refresh that
    panicked has already gone. -/
def dropRefresh (d : Deployment) (w : RefreshTasks.World) (task : Nat) : Option RefreshTasks.World :=
  if (w.task task).map RefreshTasks.Task.phase = some .dropped then some w
  else RefreshTasks.step d.platform w (.drop task)

def step (d : Deployment) (s : Server) : Action → Option Server
  | .refresh action =>
    (RefreshTasks.step d.platform s.world action).map fun w => { s with world := w }
  | .passTime instant => if s.instant ≤ instant then some { s with instant } else none
  | .maintenance => some { s with replay := maintenanceTick s.replay s.instant }
  | .arrive id guard request =>
    if s.visit id = none then some (s.setVisit id ⟨guard, request, .entered⟩) else none
  | .proceed id => (s.visit id).bind fun v =>
    (proceed d s v).map fun next =>
      { s.setVisit id { v with phase := next.1 } with replay := next.2 }
  | .startRefresh id task => (s.visit id).bind fun v =>
    match v.phase with
    | .needsRefresh o first =>
      (RefreshTasks.step d.platform s.world (.spawn task .onDemand v.guard.tag)).map fun w =>
        { s.setVisit id { v with phase := .refreshing o first task } with world := w }
    | _ => none
  -- A connection is closed only where its request is suspended.
  | .abandon id => (s.visit id).bind fun v =>
    match v.phase with
    | .refreshing _ _ task =>
      (dropRefresh d s.world task).map fun w =>
        { s.setVisit id { v with phase := .abandoned } with world := w }
    | _ => none

structure Started (d : Deployment) (s : Server) : Prop where
  world : RefreshTasks.Started d.platform s.world
  replay : s.replay = JtiReplayStore.new (s.world.ctx .vault).authConfig
  visits : s.visits = ∅

inductive Advances (d : Deployment) (s : Server) (v : Visit) : Phase → Prop where
  | bypass (stands : v.phase = .entered) (outside : v.guard.authenticates v.request.method = false) :
      Advances d s v (.answered (.forwarded none))
  | opened {o} (stands : v.phase = .entered)
      (inside : v.guard.authenticates v.request.method = true)
      (opens : openRequest d v.request = .ok o) : Advances d s v (.decode o)
  | decoded {o found} (stands : v.phase = .decode o ∨ ∃ first, v.phase = .decodeAgain o first)
      (decodes : attemptDecode d o (s.world.ctx v.guard.tag) = .ok found) :
      Advances d s v (.claims o found)
  | failed {o first} (stands : v.phase = .decode o)
      (fails : attemptDecode d o (s.world.ctx v.guard.tag) = .error first) :
      Advances d s v (.needsRefresh o first)
  | suspended {o first task} (stands : v.phase = .needsRefresh o first) :
      Advances d s v (.refreshing o first task)
  | refreshed {o first task} (stands : v.phase = .refreshing o first task) :
      Advances d s v (.decodeAgain o first)
  | checked {o found token} (stands : v.phase = .claims o found)
      (accepted : checkClaims found (s.world.ctx v.guard.tag) s.world.clock = .ok token) :
      Advances d s v (.proof o token)
  | forwarded {o token sub store} (stands : v.phase = .proof o token)
      (authenticated : authenticateProof d.jose d.parseUrl v.request o.credentials token
        (s.world.ctx v.guard.tag) s.world.clock s.instant s.replay = (.ok sub, store)) :
      Advances d s v (.answered (.forwarded (some ⟨v.guard.tag, sub⟩)))
  | refused (failure : AuthFailure) : Advances d s v (.answered (refuse failure))
  | abandoned : Advances d s v .abandoned

theorem proceed_advances {d : Deployment} {s : Server} {v : Visit} {next : Phase}
    {replay : JtiReplayStore} (taken : proceed d s v = some (next, replay)) :
    Advances d s v next := by
  unfold proceed at taken
  split at taken
  case h_1 stands =>
    split at taken
    · rename_i inside
      split at taken
      · rename_i o opens
        cases taken
        exact .opened stands inside opens
      · cases taken
        exact .refused _
    · rename_i outside
      cases taken
      exact .bypass stands (by simpa using outside)
  case h_2 o stands =>
    dsimp only at taken
    split at taken
    · rename_i found decodes
      cases taken
      exact .decoded (Or.inl stands) decodes
    · rename_i first fails
      cases taken
      exact .failed stands fails
  case h_3 o first task stands =>
    obtain ⟨result,_,same⟩ := Option.map_eq_some_iff.mp taken
    cases result with
    | true =>
      cases same
      exact .refreshed stands
    | false =>
      cases same
      exact .refused first
  case h_4 o first stands =>
    dsimp only at taken
    split at taken
    · rename_i found decodes
      cases taken
      exact .decoded (Or.inr ⟨first,stands⟩) decodes
    · cases taken
      exact .refused first
  case h_5 o found stands =>
    dsimp only at taken
    split at taken
    · rename_i token accepted
      cases taken
      exact .checked stands accepted
    · cases taken
      exact .refused _
  case h_6 o token stands =>
    dsimp only at taken
    split at taken
    · rename_i sub store authenticated
      cases taken
      exact .forwarded stands authenticated
    · cases taken
      exact .refused _
  all_goals cases taken

theorem setVisit_same (s : Server) (id : Nat) (v : Visit) : (s.setVisit id v).visit id = some v :=
  AList.lookup_insert s.visits

theorem setVisit_other {s : Server} {id other : Nat} {v : Visit} (different : other ≠ id) :
    (s.setVisit id v).visit other = s.visit other :=
  AList.lookup_insert_ne different

def requestOf : Action → Option Nat
  | .arrive id _ _ | .proceed id | .startRefresh id _ | .abandon id => some id
  | .refresh _ | .passTime _ | .maintenance => none

inductive Moves (d : Deployment) (s t : Server) (id : Nat) :
    Action → Option Visit → Option Visit → Prop where
  | elsewhere {a v} (other : requestOf a ≠ some id) : Moves d s t id a v v
  | arrived {guard request} (store : t.replay = s.replay) :
      Moves d s t id (.arrive id guard request) none (some ⟨guard, request, .entered⟩)
  | proceeded {u next} (proceeds : proceed d s u = some next) (store : t.replay = next.2) :
      Moves d s t id (.proceed id) (some u) (some { u with phase := next.1 })
  | suspended {u o first task} (stands : u.phase = .needsRefresh o first)
      (store : t.replay = s.replay) :
      Moves d s t id (.startRefresh id task) (some u)
        (some { u with phase := .refreshing o first task })
  | abandoned {u o first task} (stands : u.phase = .refreshing o first task)
      (store : t.replay = s.replay) :
      Moves d s t id (.abandon id) (some u) (some { u with phase := .abandoned })

theorem moves_set {d : Deployment} {s t : Server} {moved id : Nat} {a : Action} {w : Visit}
    (about : requestOf a = some moved) (visits : t.visits = (s.setVisit moved w).visits)
    (own : Moves d s t moved a (s.visit moved) (some w)) :
    Moves d s t id a (s.visit id) (t.visit id) := by
  have after : t.visit id = (s.setVisit moved w).visit id := by
    unfold Server.visit
    rw [visits]
  rw [after]
  by_cases same : id = moved
  · subst same
    rw [setVisit_same]
    exact own
  · rw [setVisit_other same]
    apply Moves.elsewhere
    rw [about]
    intro both
    exact same (Option.some.inj both).symm

theorem step_moves {d : Deployment} {s t : Server} {a : Action} (taken : step d s a = some t)
    (id : Nat) : Moves d s t id a (s.visit id) (t.visit id) := by
  cases a with
  | refresh action =>
    obtain ⟨w,_,rfl⟩ := Option.map_eq_some_iff.mp taken
    exact .elsewhere nofun
  | passTime instant =>
    simp only [step] at taken
    split at taken
    · cases taken
      exact .elsewhere nofun
    · cases taken
  | maintenance =>
    cases taken
    exact .elsewhere nofun
  | arrive arriving guard request =>
    simp only [step] at taken
    split at taken
    · rename_i absent
      cases taken
      refine moves_set rfl rfl ?_
      rw [absent]
      exact .arrived rfl
    · cases taken
  | proceed moved =>
    obtain ⟨u,before,rest⟩ := Option.bind_eq_some_iff.mp taken
    obtain ⟨next,proceeds,rfl⟩ := Option.map_eq_some_iff.mp rest
    refine moves_set rfl rfl ?_
    rw [before]
    exact .proceeded proceeds rfl
  | startRefresh moved task =>
    obtain ⟨u,before,rest⟩ := Option.bind_eq_some_iff.mp taken
    split at rest
    · rename_i o first stands
      obtain ⟨w,_,rfl⟩ := Option.map_eq_some_iff.mp rest
      refine moves_set rfl rfl ?_
      rw [before]
      exact .suspended stands rfl
    · cases rest
  | abandon moved =>
    obtain ⟨u,before,rest⟩ := Option.bind_eq_some_iff.mp taken
    split at rest
    · rename_i o first task stands
      obtain ⟨w,_,rfl⟩ := Option.map_eq_some_iff.mp rest
      refine moves_set rfl rfl ?_
      rw [before]
      exact .abandoned stands rfl
    · cases rest

theorem step_visit {d : Deployment} {s t : Server} {a : Action} (taken : step d s a = some t)
    {id : Nat} {v : Visit} (found : t.visit id = some v) :
    v.phase = .entered ∨ s.visit id = some v ∨
      ∃ u, s.visit id = some u ∧ v = { u with phase := v.phase } ∧ Advances d s u v.phase := by
  have moves := step_moves taken id
  rw [found] at moves
  cases before : s.visit id with
  | none =>
    rw [before] at moves
    cases moves with
    | arrived => exact Or.inl rfl
  | some u =>
    rw [before] at moves
    cases moves with
    | elsewhere => exact Or.inr (Or.inl rfl)
    | proceeded proceeds => exact Or.inr (Or.inr ⟨u,rfl,rfl,proceed_advances proceeds⟩)
    | suspended stands => exact Or.inr (Or.inr ⟨u,rfl,rfl,.suspended stands⟩)
    | abandoned stands => exact Or.inr (Or.inr ⟨u,rfl,rfl,.abandoned⟩)

/-- The shared contexts change only by steps of the refreshes. A request that waits
    for a refresh only starts it or drops it. -/
theorem step_world {d : Deployment} {s t : Server} {a : Action} (taken : step d s a = some t) :
    t.world = s.world ∨ ∃ action, RefreshTasks.step d.platform s.world action = some t.world ∧
      (a = .refresh action ∨ ∀ task, action ≠ .advance task) := by
  cases a with
  | refresh action =>
    obtain ⟨w,moved,rfl⟩ := Option.map_eq_some_iff.mp taken
    exact Or.inr ⟨action,moved,.inl rfl⟩
  | passTime instant =>
    simp only [step] at taken
    split at taken
    · cases taken
      exact Or.inl rfl
    · cases taken
  | maintenance =>
    cases taken
    exact Or.inl rfl
  | arrive arriving guard request =>
    simp only [step] at taken
    split at taken
    · cases taken
      exact Or.inl rfl
    · cases taken
  | proceed moved =>
    obtain ⟨u,_,rest⟩ := Option.bind_eq_some_iff.mp taken
    obtain ⟨next,_,rfl⟩ := Option.map_eq_some_iff.mp rest
    exact Or.inl rfl
  | startRefresh moved task =>
    obtain ⟨u,_,rest⟩ := Option.bind_eq_some_iff.mp taken
    split at rest
    · obtain ⟨w,spawned,rfl⟩ := Option.map_eq_some_iff.mp rest
      exact Or.inr ⟨_,spawned,.inr nofun⟩
    · cases rest
  | abandon moved =>
    obtain ⟨u,_,rest⟩ := Option.bind_eq_some_iff.mp taken
    split at rest
    · obtain ⟨w,gone,rfl⟩ := Option.map_eq_some_iff.mp rest
      unfold dropRefresh at gone
      split at gone
      · cases gone
        exact Or.inl rfl
      · exact Or.inr ⟨_,gone,.inr nofun⟩
    · cases rest

theorem reachable_accepted {d : Deployment} {start s : Server} {actions : List Action}
    (started : Started d start) (taken : run (step d) start actions = some s) (g : AudienceTag) :
    Accepted (s.world.ctx g).authConfig := by
  refine run_invariant (fun s => Accepted (s.world.ctx g).authConfig) ?_ ?_ taken
  · intro s a t accepted next
    rcases step_world next with same | ⟨action,moved,_⟩
    · rw [same]
      exact accepted
    · rw [(RefreshTasks.moves_identity (RefreshTasks.step_moves moved) g).config]
      exact accepted
  · exact (RefreshTasks.started_pristine started.world).accepted g

section Evidence
variable (d : Deployment) (start : Server)

/-- The run passes through this state while the request is being processed. -/
def During (actions : List Action) (id : Nat) (guard : Guard) (request : Request) (s : Server) :
    Prop :=
  ∃ front back phase, actions = front ++ back ∧ run (step d) start front = some s ∧
    s.visit id = some ⟨guard, request, phase⟩ ∧ phase.active = true

def Opened (guard : Guard) (request : Request) (o : Opening) : Prop :=
  guard.authenticates request.method = true ∧ openRequest d request = .ok o

def Verified (actions : List Action) (id : Nat) (guard : Guard) (request : Request) (o : Opening)
    (found : TokenClaims) : Prop :=
  ∃ s, During d start actions id guard request s ∧
    ∃ candidate ∈ (s.world.ctx guard.tag).jwks.lookupCandidates o.header.kid, ∃ key,
      d.jose.fromJwk candidate.jwk = some key ∧
      d.jose.decodeToken o.credentials.rawToken key
        (tokenSettings o.alg (s.world.ctx guard.tag).authConfig) = .ok found

def Checked (actions : List Action) (id : Nat) (guard : Guard) (request : Request) (o : Opening)
    (token : AccessToken) : Prop :=
  ∃ found s, Verified d start actions id guard request o found ∧
    During d start actions id guard request s ∧
    TokenFacts found (s.world.ctx guard.tag) s.world.clock token

def Proved (actions : List Action) (id : Nat) (guard : Guard) (request : Request) (o : Opening)
    (token : AccessToken) : Prop :=
  ∃ s found, During d start actions id guard request s ∧
    ProofFacts d.jose d.parseUrl o.credentials.rawProof request.method o.credentials.effectiveUri
      token o.credentials.rawToken (s.world.ctx guard.tag) s.world.clock found ∧
    found.iat.toNat ≤ s.world.clock.toNat + (s.world.ctx guard.tag).authConfig.clockSkewSecs.toNat ∧
    s.world.clock.toNat ≤ found.iat.toNat +
      (s.world.ctx guard.tag).authConfig.dpopFreshnessSecs.toNat +
      (s.world.ctx guard.tag).authConfig.clockSkewSecs.toNat ∧
    found.key (s.world.ctx guard.tag) ∉ s.replay.entries

structure Justified (actions : List Action) (id : Nat) (v : Visit) : Prop where
  opened : ∀ o, v.phase.opening = some o → Opened d v.guard v.request o
  verified : ∀ o found, v.phase = .claims o found →
    Verified d start actions id v.guard v.request o found
  checked : ∀ o token, v.phase = .proof o token →
    Checked d start actions id v.guard v.request o token
  forwarded : ∀ subject, v.phase = .answered (.forwarded (some subject)) →
    ∃ o token, Opened d v.guard v.request o ∧ subject = ⟨v.guard.tag, token.sub⟩ ∧
      Checked d start actions id v.guard v.request o token ∧
      Proved d start actions id v.guard v.request o token

end Evidence

section Histories
variable {d : Deployment} {start : Server} {front : List Action} {id : Nat} {guard : Guard}
  {request : Request}

theorem During.snoc {s : Server} (before : During d start front id guard request s) (a : Action) :
    During d start (front ++ [a]) id guard request s := by
  obtain ⟨early,late,phase,same,reached,found,active⟩ := before
  refine ⟨early,late ++ [a],phase,?_,reached,found,active⟩
  rw [same, List.append_assoc]

theorem During.now {s : Server} {v : Visit} (reached : run (step d) start front = some s)
    (found : s.visit id = some v) (active : v.phase.active = true) (a : Action) :
    During d start (front ++ [a]) id v.guard v.request s :=
  ⟨front,[a],v.phase,rfl,reached,found,active⟩

theorem Verified.snoc {o : Opening} {found : TokenClaims}
    (before : Verified d start front id guard request o found) (a : Action) :
    Verified d start (front ++ [a]) id guard request o found := by
  obtain ⟨s,during,rest⟩ := before
  exact ⟨s,during.snoc a,rest⟩

theorem Checked.snoc {o : Opening} {token : AccessToken}
    (before : Checked d start front id guard request o token) (a : Action) :
    Checked d start (front ++ [a]) id guard request o token := by
  obtain ⟨found,s,verified,during,rest⟩ := before
  exact ⟨found,s,verified.snoc a,during.snoc a,rest⟩

theorem Proved.snoc {o : Opening} {token : AccessToken}
    (before : Proved d start front id guard request o token) (a : Action) :
    Proved d start (front ++ [a]) id guard request o token := by
  obtain ⟨s,found,during,rest⟩ := before
  exact ⟨s,found,during.snoc a,rest⟩

theorem Justified.snoc {v : Visit} (before : Justified d start front id v) (a : Action) :
    Justified d start (front ++ [a]) id v where
  opened := before.opened
  verified o found stands := (before.verified o found stands).snoc a
  checked o token stands := (before.checked o token stands).snoc a
  forwarded subject stands := by
    obtain ⟨o,token,opened,same,checked,proved⟩ := before.forwarded subject stands
    exact ⟨o,token,opened,same,checked.snoc a,proved.snoc a⟩

def Phase.quiet : Phase → Bool
  | .claims _ _ | .proof _ _ | .answered (.forwarded (some _)) => false
  | _ => true

theorem justified_quiet {actions : List Action} {v : Visit} (quiet : v.phase.quiet = true)
    (opened : ∀ o, v.phase.opening = some o → Opened d v.guard v.request o) :
    Justified d start actions id v where
  opened := opened
  verified o found stands := by
    rw [stands] at quiet
    cases quiet
  checked o token stands := by
    rw [stands] at quiet
    cases quiet
  forwarded subject stands := by
    rw [stands] at quiet
    cases quiet

theorem refuse_quiet (failure : AuthFailure) : (Phase.answered (refuse failure)).quiet = true := by
  cases failure <;> rfl

theorem justified_kept {actions : List Action} {v : Visit} {next : Phase} {o : Opening}
    (justified : Justified d start front id v) (stands : v.phase.opening = some o)
    (keeps : next.opening = some o) (quiet : next.quiet = true) :
    Justified d start actions id { v with phase := next } := by
  apply justified_quiet quiet
  intro o' same
  have both : some o = some o' := keeps.symm.trans same
  cases both
  exact justified.opened o stands

theorem proved_now {s : Server} {v : Visit} {o : Opening} {token : AccessToken} {sub : String}
    {store : JtiReplayStore} (started : Started d start)
    (reached : run (step d) start front = some s) (found : s.visit id = some v)
    (stands : v.phase = .proof o token)
    (authenticated : authenticateProof d.jose d.parseUrl v.request o.credentials token
      (s.world.ctx v.guard.tag) s.world.clock s.instant s.replay = (.ok sub, store)) (a : Action) :
    sub = token.sub ∧ Proved d start (front ++ [a]) id v.guard v.request o token := by
  obtain ⟨same,proof,validated⟩ := authenticateProof_ok authenticated
  obtain ⟨facts,deadline,_,inserted⟩ := validateProof_ok validated
  obtain ⟨ahead,behind⟩ := (inWindow_iff (reachable_accepted started reached v.guard.tag)).mp facts.fresh
  have active : v.phase.active = true := by rw [stands]; rfl
  exact ⟨same,s,proof,During.now reached found active a,facts,ahead,behind,
    (tryInsert_ok_iff.mp inserted).1⟩

theorem advances_justified {s : Server} {v : Visit} {next : Phase} (started : Started d start)
    (reached : run (step d) start front = some s) (found : s.visit id = some v)
    (justified : Justified d start front id v) (moved : Advances d s v next) (a : Action) :
    Justified d start (front ++ [a]) id { v with phase := next } := by
  cases moved with
  | bypass =>
    apply justified_quiet rfl
    intro o impossible
    cases impossible
  | opened stands inside opens =>
    apply justified_quiet rfl
    intro o same
    cases same
    exact ⟨inside,opens⟩
  | @decoded o claims stands decodes =>
    have early : v.phase.active = true ∧ v.phase.opening = some o := by
      rcases stands with stands | ⟨first,stands⟩ <;> rw [stands] <;> exact ⟨rfl,rfl⟩
    constructor
    · intro o' same
      cases same
      exact justified.opened o early.2
    · intro o' claims' same
      cases same
      exact ⟨s,During.now reached found early.1 a,tryDecodeWithCurrentJwks_ok decodes⟩
    · intro o' token impossible
      cases impossible
    · intro subject impossible
      cases impossible
  | failed stands => exact justified_kept justified (by rw [stands]; rfl) rfl rfl
  | suspended stands => exact justified_kept justified (by rw [stands]; rfl) rfl rfl
  | refreshed stands => exact justified_kept justified (by rw [stands]; rfl) rfl rfl
  | @checked o claims token stands accepted =>
    have active : v.phase.active = true := by rw [stands]; rfl
    constructor
    · intro o' same
      cases same
      exact justified.opened o (by rw [stands]; rfl)
    · intro o' claims' impossible
      cases impossible
    · intro o' token' same
      cases same
      exact ⟨claims,s,(justified.verified o claims stands).snoc a,During.now reached found active a,
        checkClaims_ok accepted⟩
    · intro subject impossible
      cases impossible
  | @forwarded o token sub store stands authenticated =>
    obtain ⟨same,proved⟩ := proved_now started reached found stands authenticated a
    constructor
    · intro o' impossible
      cases impossible
    · intro o' claims' impossible
      cases impossible
    · intro o' token' impossible
      cases impossible
    · intro subject answer
      cases answer
      subst same
      exact ⟨o,token,justified.opened o (by rw [stands]; rfl),rfl,
        (justified.checked o token stands).snoc a,proved⟩
  | refused failure =>
    apply justified_quiet (refuse_quiet failure)
    intro o impossible
    cases impossible
  | abandoned =>
    apply justified_quiet rfl
    intro o impossible
    cases impossible

theorem reachable_justified {s : Server} {actions : List Action} (started : Started d start)
    (taken : run (step d) start actions = some s) :
    ∀ id v, s.visit id = some v → Justified d start actions id v := by
  refine history_invariant (fun front s => ∀ id v, s.visit id = some v →
    Justified d start front id v) ?_ ?_ taken
  · intro id v found
    unfold Server.visit at found
    rw [started.visits] at found
    cases found
  · intro front s a t reached all next id v found
    rcases step_visit next found with entered | kept | ⟨u,before,same,moved⟩
    · apply justified_quiet
      · rw [entered]
        rfl
      · intro o impossible
        rw [entered] at impossible
        cases impossible
    · exact (all id v kept).snoc a
    · rw [same]
      exact advances_justified started reached before (all id u before) moved a

end Histories

/-- Whatever happens to the caches meanwhile, a request that a guard forwards with
    a subject has shown a token that a key of the guard's own context verified
    while the request was under way, and a proof that belongs to both. -/
theorem forwarded_authentic {d : Deployment} {start s : Server} {actions : List Action}
    (started : Started d start) (taken : run (step d) start actions = some s) {id : Nat} {v : Visit}
    {subject : Subject} (found : s.visit id = some v)
    (forwarded : v.phase = .answered (.forwarded (some subject))) :
    subject.tag = v.guard.tag ∧ v.guard.authenticates v.request.method = true ∧
    ∃ (rawToken rawProof : String) (uri : UrlTexts.Url) (header : JoseHeader) (alg : JwsAlg)
      (claims : TokenClaims) (token : AccessToken) (proof : DpopProof)
      (atKey atClaims atProof : Server),
      During d start actions id v.guard v.request atKey ∧
      During d start actions id v.guard v.request atClaims ∧
      During d start actions id v.guard v.request atProof ∧
      BearsToken v.request rawToken ∧ readProof v.request = .ok rawProof ∧
      buildEffectiveUri d.parseUrl v.request = .ok uri ∧
      d.jose.decodeHeader rawToken = some header ∧ header.alg = alg.toJwtAlgorithm ∧
      (∃ candidate ∈ (atKey.world.ctx v.guard.tag).jwks.lookupCandidates header.kid, ∃ key,
        d.jose.fromJwk candidate.jwk = some key ∧ d.jose.decodeToken rawToken key
          (tokenSettings alg (atKey.world.ctx v.guard.tag).authConfig) = .ok claims) ∧
      claims.sub = some subject.sub ∧
      TokenFacts claims (atClaims.world.ctx v.guard.tag) atClaims.world.clock token ∧
      ProofFacts d.jose d.parseUrl rawProof v.request.method uri token rawToken
        (atProof.world.ctx v.guard.tag) atProof.world.clock proof ∧
      proof.iat.toNat ≤ atProof.world.clock.toNat +
        (atProof.world.ctx v.guard.tag).authConfig.clockSkewSecs.toNat ∧
      atProof.world.clock.toNat ≤ proof.iat.toNat +
        (atProof.world.ctx v.guard.tag).authConfig.dpopFreshnessSecs.toNat +
        (atProof.world.ctx v.guard.tag).authConfig.clockSkewSecs.toNat ∧
      proof.key (atProof.world.ctx v.guard.tag) ∉ atProof.replay.entries := by
  obtain ⟨o,token,⟨inside,opens⟩,same,⟨claims,atClaims,verified,duringClaims,facts⟩,proved⟩ :=
    (reachable_justified started taken id v found).forwarded subject forwarded
  obtain ⟨atKey,duringKey,candidate⟩ := verified
  obtain ⟨atProof,proof,duringProof,proofFacts,ahead,behind,unused⟩ := proved
  simp only [openRequest, bind_ok_iff, pure_ok_iff, Prod.exists] at opens
  obtain ⟨credentials,read,header,alg,headerRead,rfl⟩ := opens
  obtain ⟨token_read,proof_read,built⟩ := readCredentials_ok read
  obtain ⟨decodes,allowed⟩ := readHeader_ok headerRead
  subst same
  exact ⟨rfl,inside,_,_,_,header,alg,claims,token,proof,atKey,atClaims,atProof,duringKey,duringClaims,
    duringProof,readToken_ok token_read,proof_read,built,decodes,allowed,candidate,facts.sub,facts,
    proofFacts,ahead,behind,unused⟩

def soloClaims : TokenClaims where
  sub := some "user"
  aud := some (.single "vault")
  iss := some "https://vault.test"
  exp := some 1000
  iat := some 50
  nbf := none
  cnf := some ⟨some (Digests.base64urlEncode soloThumbprint.val)⟩

def sampleDeployment : Deployment where
  platform := RefreshTasks.samplePlatform
  jose := soloJose soloClaims (soloProof "http://vault.test/x" 100).claims

def sampleServer (w : RefreshTasks.World) : Server where
  world := w
  instant := 0
  replay := JtiReplayStore.new (w.ctx .vault).authConfig
  visits := ∅

def loneVisit : List Action :=
  [.arrive 0 vaultGuard (soloRequest "vault.test" targetX), .proceed 0, .proceed 0,
    .refresh (.setClock 101), .proceed 0, .proceed 0]

theorem forwarded_authentic_lone :
    ∃ start s v, Started sampleDeployment start ∧
      run (step sampleDeployment) start loneVisit = some s ∧ s.visit 0 = some v ∧
      v.phase = .answered (.forwarded (some ⟨.vault, "user"⟩)) ∧
      ∃ rawToken, BearsToken v.request rawToken := by
  have evaluated : ∃ w, RefreshTasks.Started RefreshTasks.samplePlatform w ∧
      ∃ s ∈ run (step sampleDeployment) (sampleServer w) loneVisit, ∃ v ∈ s.visit 0,
        v.phase = .answered (.forwarded (some ⟨.vault, "user"⟩)) :=
    RefreshTasks.sample_exists (by decide +kernel)
  obtain ⟨w,started,s,taken,v,found,forwarded⟩ := evaluated
  have ready : Started sampleDeployment (sampleServer w) := ⟨started,rfl,rfl⟩
  obtain ⟨_,_,rawToken,_,_,_,_,_,_,_,_,_,_,_,_,_,bears,_⟩ :=
    forwarded_authentic ready taken found forwarded
  exact ⟨sampleServer w,s,v,ready,taken,found,forwarded,rawToken,bears⟩

end GuardedRequests
