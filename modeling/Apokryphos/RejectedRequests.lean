import Apokryphos.BlockRoutes
import Apokryphos.GuardedRequests

/-!
Requests that are turned away. The single step of a request that can change the
replay store is its last one, after every other check of its token and its
proof, and it changes the store only by accepting the request. The guard in
front of the block routes asks for credentials with exactly the methods the
handler acts on, so that no storage operation happens without them. The handler
of a forwarded request is an event of its own, with the body the client sends.
-/
namespace RejectedRequests
open BlockRoutes BlockStorage GuardedRequests MachineWords OidcContexts Outcomes ProofValidation
open RequestGuards ServerConfig SigningKeys StepRuns TokenValidation UrlTexts
open ReplayStore hiding Action step

def insertion (d : Deployment) (s : Server) (v : Visit) : Option (JtiKey × Instant) :=
  match v.phase with
  | .proof o token =>
    let ctx := s.world.ctx v.guard.tag
    (inspectProof d.jose d.parseUrl o.credentials.rawProof v.request.method
      o.credentials.effectiveUri token o.credentials.rawToken ctx s.world.clock).toOption.bind
      fun proof => (checkedAddSecs s.instant ctx.authConfig.jtiReplayWindowSecs).map
        fun deadline => (proof.key ctx, deadline)
  | _ => none

def verdict (v : Visit) (sub : String) : Except InsertError Unit → Reply
  | .ok _ => .forwarded (some ⟨v.guard.tag, sub⟩)
  | .error e => refuse (replayFailure e)

theorem readToken_unpressed (request : Request) : readToken request ≠ .error .memoryPressure := by
  simp [-bind_pure_comp, readToken, bind_error_iff, okOr_error_iff, rejectIf_error_iff, pure_error_iff]

theorem readProof_unpressed (request : Request) : readProof request ≠ .error .memoryPressure := by
  simp [-bind_pure_comp, readProof, bind_error_iff, okOr_error_iff, rejectIf_error_iff, pure_error_iff]

theorem buildEffectiveUri_unpressed (parseUrl : UrlParser) (request : Request) :
    buildEffectiveUri parseUrl request ≠ .error .memoryPressure := by
  simp [-bind_pure_comp, buildEffectiveUri, bind_error_iff, okOr_error_iff, orFail_error_iff]

theorem readHeader_unpressed (jose : Jose) (raw : String) :
    readHeader jose raw ≠ .error .memoryPressure := by
  simp [-bind_pure_comp, readHeader, bind_error_iff, okOr_error_iff, pure_error_iff]

theorem openRequest_unpressed (d : Deployment) (request : Request) :
    openRequest d request ≠ .error .memoryPressure := by
  simp [-bind_pure_comp, openRequest, readCredentials, bind_error_iff, pure_error_iff, readToken_unpressed,
    readProof_unpressed, buildEffectiveUri_unpressed, readHeader_unpressed]

theorem mapJwtError_unpressed (kind : Option ErrorKind) : mapJwtError kind ≠ .memoryPressure := by
  cases kind with
  | none => decide
  | some kind => cases kind <;> decide

theorem tryCandidates_unpressed (jose : Jose) (raw : String) (validation : Validation)
    (last : Option ErrorKind) (candidates : List Jwk) :
    tryCandidates jose raw validation last candidates ≠ .error .memoryPressure := by
  induction candidates generalizing last with
  | nil =>
    intro failed
    exact mapJwtError_unpressed last (Except.error.inj failed)
  | cons candidate rest ih =>
    simp only [tryCandidates]
    cases jose.fromJwk candidate.jwk with
    | none => exact ih last
    | some key =>
      dsimp only
      cases jose.decodeToken raw key validation with
      | ok claims =>
        intro impossible
        cases impossible
      | error e => exact ih _

theorem attemptDecode_unpressed (d : Deployment) (o : Opening) (ctx : OidcContext) :
    attemptDecode d o ctx ≠ .error .memoryPressure := by
  simp only [attemptDecode, tryDecodeWithCurrentJwks]
  split
  · intro impossible
    cases impossible
  · exact tryCandidates_unpressed _ _ _ _ _

theorem checkClaims_unpressed (claims : TokenClaims) (ctx : OidcContext) (now : UInt64) :
    checkClaims claims ctx now ≠ .error .memoryPressure := by
  simp only [checkClaims, ne_eq, bind_error_iff, okOr_error_iff, rejectIf_error_iff, reduceCtorEq,
    and_false, false_or, not_exists, not_and]
  intros
  split
  · intro impossible
    cases impossible
  · intro impossible
    cases impossible

theorem computeJwkThumbprint_unpressed (jwk : RawJwk) :
    computeJwkThumbprint jwk ≠ .error .memoryPressure := by
  intro failed
  have other := computeJwkThumbprint_error failed
  cases other

theorem inspectProof_unpressed {jose : Jose} {parseUrl : UrlParser} {rawProof method : String}
    {uri : Url} {token : AccessToken} {rawToken : String} {ctx : OidcContext} {now : UInt64} :
    inspectProof jose parseUrl rawProof method uri token rawToken ctx now ≠ .error .memoryPressure := by
  simp [-bind_pure_comp, inspectProof, bind_error_iff, okOr_error_iff, orFail_error_iff, rejectIf_error_iff,
    pure_error_iff, readHeader_unpressed, computeJwkThumbprint_unpressed]

def conclude (v : Visit) (sub : String) :
    Except AuthFailure DpopProof × JtiReplayStore → Phase × JtiReplayStore
  | (.ok _, store) => (.answered (.forwarded (some ⟨v.guard.tag, sub⟩)), store)
  | (.error failure, store) => (.answered (refuse failure), store)

section Steps
variable {d : Deployment} {s : Server} {v : Visit} {next : Phase} {store : JtiReplayStore}
  {o : Opening} {token : AccessToken} {proof : DpopProof}

theorem proceed_proof (stands : v.phase = .proof o token) (r : JtiReplayStore) :
    proceed d { s with replay := r } v = some (conclude v token.sub
      (validateProof d.jose d.parseUrl o.credentials.rawProof v.request.method
        o.credentials.effectiveUri token o.credentials.rawToken (s.world.ctx v.guard.tag)
        s.world.clock s.instant r)) := by
  unfold proceed authenticateProof
  rw [stands]
  dsimp only
  generalize validateProof d.jose d.parseUrl o.credentials.rawProof v.request.method
    o.credentials.effectiveUri token o.credentials.rawToken (s.world.ctx v.guard.tag) s.world.clock
    s.instant r = outcome
  obtain ⟨answer,after⟩ := outcome
  cases answer <;> rfl

theorem insertion_proof (stands : v.phase = .proof o token) :
    insertion d s v = (inspectProof d.jose d.parseUrl o.credentials.rawProof v.request.method
      o.credentials.effectiveUri token o.credentials.rawToken (s.world.ctx v.guard.tag)
      s.world.clock).toOption.bind fun proof =>
        (checkedAddSecs s.instant (s.world.ctx v.guard.tag).authConfig.jtiReplayWindowSecs).map
          fun deadline => (proof.key (s.world.ctx v.guard.tag), deadline) := by
  unfold insertion
  rw [stands]

theorem conclude_spent (v : Visit) (sub : String) (proof : DpopProof) (key : JtiKey)
    (deadline : Instant) (r : JtiReplayStore) :
    conclude v sub (spendProof proof key (some deadline) r) =
      (.answered (verdict v sub (tryInsert r key deadline).1), (tryInsert r key deadline).2) := by
  simp only [spendProof]
  generalize tryInsert r key deadline = done
  obtain ⟨answer,after⟩ := done
  cases answer <;> rfl

/-- A call of `try_insert` is the whole rest of the request: what the store says
    is the answer, and what the store becomes is left behind. -/
theorem insertion_some {key : JtiKey} {deadline : Instant}
    (called : insertion d s v = some (key, deadline)) :
    ∃ o token proof, v.phase = .proof o token ∧
      inspectProof d.jose d.parseUrl o.credentials.rawProof v.request.method
        o.credentials.effectiveUri token o.credentials.rawToken (s.world.ctx v.guard.tag)
        s.world.clock = .ok proof ∧
      key = proof.key (s.world.ctx v.guard.tag) ∧
      ∀ r, proceed d { s with replay := r } v = some
        (.answered (verdict v token.sub (tryInsert r key deadline).1), (tryInsert r key deadline).2) := by
  have last : ∃ o token, v.phase = .proof o token := by
    unfold insertion at called
    split at called
    · rename_i o token stands
      exact ⟨o,token,stands⟩
    · cases called
  obtain ⟨o,token,stands⟩ := last
  rw [insertion_proof stands] at called
  obtain ⟨proof,inspected,rest⟩ := Option.bind_eq_some_iff.mp called
  obtain ⟨deadline,fits,same⟩ := Option.map_eq_some_iff.mp rest
  cases same
  have accepted := toOption_some_iff.mp inspected
  refine ⟨o,token,proof,stands,accepted,rfl,?_⟩
  intro r
  rw [proceed_proof stands r, validateProof_spends accepted, fits, conclude_spent]

theorem proceed_early (early : ∀ o token, v.phase ≠ .proof o token) (r : JtiReplayStore) :
    proceed d { s with replay := r } v = (proceed d s v).map fun next => (next.1, r) := by
  unfold proceed
  cases stands : v.phase with
  | entered =>
    dsimp only
    by_cases inside : v.guard.authenticates v.request.method = true
    · rw [if_pos inside, if_pos inside]
      cases openRequest d v.request <;> rfl
    · rw [if_neg inside, if_neg inside]
      rfl
  | decode o =>
    dsimp only
    cases attemptDecode d o (s.world.ctx v.guard.tag) <;> rfl
  | refreshing o first task =>
    dsimp only
    cases refreshResult s.world task with
    | none => rfl
    | some result => cases result <;> rfl
  | decodeAgain o first =>
    dsimp only
    cases attemptDecode d o (s.world.ctx v.guard.tag) <;> rfl
  | claims o found =>
    dsimp only
    cases checkClaims found (s.world.ctx v.guard.tag) s.world.clock <;> rfl
  | proof o token => exact absurd stands (early o token)
  | needsRefresh o first => rfl
  | answered reply => rfl
  | abandoned => rfl

theorem proof_silent (stands : v.phase = .proof o token) (silent : insertion d s v = none) :
    ∃ failure, failure ≠ .memoryPressure ∧
      ∀ r, proceed d { s with replay := r } v = some (.answered (refuse failure), r) := by
  cases inspected : inspectProof d.jose d.parseUrl o.credentials.rawProof v.request.method
      o.credentials.effectiveUri token o.credentials.rawToken (s.world.ctx v.guard.tag)
      s.world.clock with
  | error failure =>
    refine ⟨failure,?_,?_⟩
    · intro pressed
      exact inspectProof_unpressed (pressed ▸ inspected)
    · intro r
      rw [proceed_proof stands r]
      unfold validateProof
      rw [inspected]
      rfl
  | ok proof =>
    have late : checkedAddSecs s.instant
        (s.world.ctx v.guard.tag).authConfig.jtiReplayWindowSecs = none := by
      rw [insertion_proof stands, toOption_bind inspected] at silent
      exact Option.map_eq_none_iff.mp silent
    refine ⟨.proofIatStale,by decide,?_⟩
    intro r
    rw [proceed_proof stands r, validateProof_spends inspected, late]
    rfl

theorem insertion_none (silent : insertion d s v = none)
    (taken : proceed d s v = some (next, store)) :
    store = s.replay ∧ ∀ r, proceed d { s with replay := r } v = some (next, r) := by
  have independent : ∃ phase, ∀ r, proceed d { s with replay := r } v = some (phase, r) := by
    by_cases last : ∃ o token, v.phase = .proof o token
    · obtain ⟨o,token,stands⟩ := last
      obtain ⟨failure,_,same⟩ := proof_silent stands silent
      exact ⟨_,same⟩
    · have early : ∀ o token, v.phase ≠ .proof o token := fun o token stands => last ⟨o,token,stands⟩
      refine ⟨next,fun r => ?_⟩
      rw [proceed_early early r, taken]
      rfl
  obtain ⟨phase,same⟩ := independent
  have own := (same s.replay).symm.trans taken
  cases own
  exact ⟨rfl,same⟩

end Steps

def carried : Phase → Option AuthFailure
  | .needsRefresh _ first | .refreshing _ first _ | .decodeAgain _ first => some first
  | _ => none

/-- No memory pressure is reported, now or by the failure that is carried. -/
def Calm (phase : Phase) : Prop :=
  phase ≠ .answered .respond503MemoryPressure ∧ ∀ first, carried phase = some first → first ≠ .memoryPressure

theorem refuse_calm {failure : AuthFailure} (other : failure ≠ .memoryPressure) :
    Calm (.answered (refuse failure)) := by
  constructor
  · intro same
    cases failure <;> first | exact other rfl | cases same
  · intro first impossible
    cases impossible

theorem silent_calm {d : Deployment} {s : Server} {v : Visit} {next : Phase} {store : JtiReplayStore}
    (silent : insertion d s v = none) (calm : Calm v.phase)
    (taken : proceed d s v = some (next, store)) : Calm next := by
  unfold proceed at taken
  split at taken
  case h_1 stands =>
    split at taken
    · split at taken
      · cases taken
        exact ⟨nofun,nofun⟩
      · rename_i failure opens
        cases taken
        exact refuse_calm fun pressed => openRequest_unpressed d v.request (pressed ▸ opens)
    · cases taken
      exact ⟨nofun,nofun⟩
  case h_2 o stands =>
    dsimp only at taken
    split at taken
    · cases taken
      exact ⟨nofun,nofun⟩
    · rename_i first decodes
      cases taken
      refine ⟨nofun,?_⟩
      intro first same pressed
      cases same
      exact attemptDecode_unpressed d o _ (pressed ▸ decodes)
  case h_3 o first task stands =>
    obtain ⟨result,_,same⟩ := Option.map_eq_some_iff.mp taken
    have other : first ≠ .memoryPressure := calm.2 first (by rw [stands]; rfl)
    cases result with
    | true =>
      cases same
      refine ⟨nofun,?_⟩
      intro first same
      cases same
      exact other
    | false =>
      cases same
      exact refuse_calm other
  case h_4 o first stands =>
    dsimp only at taken
    split at taken
    · cases taken
      exact ⟨nofun,nofun⟩
    · cases taken
      exact refuse_calm (calm.2 first (by rw [stands]; rfl))
  case h_5 o found stands =>
    dsimp only at taken
    split at taken
    · cases taken
      exact ⟨nofun,nofun⟩
    · rename_i failure refused
      cases taken
      exact refuse_calm fun pressed => checkClaims_unpressed _ _ _ (pressed ▸ refused)
  case h_6 o token stands =>
    obtain ⟨failure,other,same⟩ := proof_silent stands silent
    have own := same s.replay
    unfold proceed at own
    rw [stands] at own
    cases own.symm.trans taken
    exact refuse_calm other
  all_goals cases taken

def callOf (d : Deployment) (id : Nat) (s : Server) : Action → Option (JtiKey × Instant)
  | .proceed moved => if moved = id then (s.visit id).bind (insertion d s) else none
  | _ => none

def insertions (d : Deployment) (start : Server) (actions : List Action) (id : Nat) :
    List (JtiKey × Instant) :=
  events (step d) (callOf d id) start actions

/-- If the step is one of this request, it leaves the replay store alone. -/
def Harmless (d : Deployment) (id : Nat) (s : Server) (a : Action) : Prop :=
  requestOf a = some id → ∀ t, step d s a = some t → t.replay = s.replay

section Runs
variable {d : Deployment} {start s t : Server} {a : Action} {actions : List Action} {id : Nat}
  {u v : Visit}

theorem proceed_active {next : Phase × JtiReplayStore} (taken : proceed d s v = some next) :
    v.phase.active = true := by
  unfold proceed at taken
  cases stands : v.phase with
  | answered reply =>
    rw [stands] at taken
    cases taken
  | abandoned =>
    rw [stands] at taken
    cases taken
  | _ => rfl

theorem inactive_kept {w : Option Visit} (moves : Moves d s t id a (some v) w)
    (rests : v.phase.active = false) : w = some v := by
  have busy (active : v.phase.active = true) : False := by
    rw [rests] at active
    cases active
  cases moves with
  | elsewhere => rfl
  | proceeded proceeds => exact (busy (proceed_active proceeds)).elim
  | suspended stands => exact (busy (by rw [stands]; rfl)).elim
  | abandoned stands => exact (busy (by rw [stands]; rfl)).elim

theorem proceed_store {next : Phase × JtiReplayStore} (taken : proceed d s v = some next) :
    next.2 = s.replay ∨ ∃ subject, next.1 = .answered (.forwarded (some subject)) := by
  cases called : insertion d s v with
  | none => exact Or.inl (insertion_none called taken).1
  | some call =>
    obtain ⟨key,deadline⟩ := call
    obtain ⟨o,token,proof,_,_,_,outcome⟩ := insertion_some called
    cases (outcome s.replay).symm.trans taken
    cases inserted : tryInsert s.replay key deadline with
    | mk answer store =>
      cases answer with
      | ok done => exact Or.inr ⟨_,rfl⟩
      | error e => exact Or.inl (tryInsert_error inserted)

theorem step_harmless (taken : step d s a = some t)
    (unaccepted : ∀ v subject, t.visit id = some v → v.phase ≠ .answered (.forwarded (some subject))) :
    Harmless d id s a := by
  intro about t' taken'
  cases taken.symm.trans taken'
  have moves := step_moves taken id
  generalize s.visit id = before at moves
  generalize found : t.visit id = after at moves
  cases moves with
  | elsewhere other => exact absurd about other
  | arrived store => exact store
  | suspended _ store => exact store
  | abandoned _ store => exact store
  | proceeded proceeds store =>
    rw [store]
    rcases proceed_store proceeds with same | ⟨subject,accepted⟩
    · exact same
    · exact absurd accepted (unaccepted _ subject found)

theorem run_harmless (taken : run (step d) start actions = some s)
    (unaccepted : ∀ v subject, s.visit id = some v → v.phase ≠ .answered (.forwarded (some subject))) :
    Along (step d) (Harmless d id) start actions := by
  refine history_invariant (fun front s => (∀ v subject, s.visit id = some v →
    v.phase ≠ .answered (.forwarded (some subject))) → Along (step d) (Harmless d id) start front)
    (fun _ => trivial) ?_ taken unaccepted
  intro front s a t reached along next unaccepted
  refine along_snoc reached (along ?_) (step_harmless next unaccepted)
  intro v subject found stands
  have moves := step_moves next id
  rw [found] at moves
  have kept := inactive_kept moves (by rw [stands]; rfl)
  exact unaccepted v subject kept stands

theorem callOf_some {call : JtiKey × Instant} (called : callOf d id s a = some call) :
    a = .proceed id ∧ ∃ v, s.visit id = some v ∧ insertion d s v = some call := by
  unfold callOf at called
  split at called
  · rename_i moved
    split at called
    · rename_i same
      subst same
      exact ⟨rfl,Option.bind_eq_some_iff.mp called⟩
    · cases called
  · cases called

theorem called_answers {call : JtiKey × Instant} (called : callOf d id s a = some call)
    (taken : step d s a = some t) :
    ∃ v w, s.visit id = some v ∧ v.phase.active = true ∧ t.visit id = some w ∧
      w.phase.active = false := by
  obtain ⟨rfl,v,found,inserted⟩ := callOf_some called
  obtain ⟨o,token,proof,stands,_,_,outcome⟩ := insertion_some inserted
  have moves := step_moves taken id
  rw [found] at moves
  generalize t.visit id = w at moves
  cases moves with
  | elsewhere other => exact absurd rfl other
  | proceeded proceeds =>
    cases (outcome s.replay).symm.trans proceeds
    exact ⟨v,_,found,by rw [stands]; rfl,rfl,rfl⟩

theorem run_insertions (taken : run (step d) start actions = some s) :
    ((∀ v, s.visit id = some v → v.phase.active = true) → insertions d start actions id = []) ∧
      (insertions d start actions id).length ≤ 1 := by
  refine history_invariant (fun front s =>
    ((∀ v, s.visit id = some v → v.phase.active = true) → insertions d start front id = []) ∧
      (insertions d start front id).length ≤ 1) ⟨fun _ => rfl,Nat.zero_le 1⟩ ?_ taken
  intro front s a t reached holds next
  obtain ⟨silent,once⟩ := holds
  have grown : insertions d start (front ++ [a]) id =
      insertions d start front id ++ (callOf d id s a).toList := events_snoc reached next
  rw [grown]
  cases called : callOf d id s a with
  | none =>
    simp only [Option.toList_none, List.append_nil]
    refine ⟨?_,once⟩
    intro active
    apply silent
    intro v found
    by_contra rests
    have moves := step_moves next id
    rw [found] at moves
    exact rests (active v (inactive_kept moves (by simpa using rests)))
  | some call =>
    obtain ⟨v,w,found,busy,after,rests⟩ := called_answers called next
    have none_yet : insertions d start front id = [] := by
      apply silent
      intro v' found'
      cases found.symm.trans found'
      exact busy
    rw [none_yet]
    refine ⟨?_,Nat.le_refl 1⟩
    intro active
    rw [active w after] at rests
    cases rests

theorem run_bypass (started : Started d start) (taken : run (step d) start actions = some s)
    (found : s.visit id = some v) (stands : v.phase = .answered (.forwarded none)) :
    v.guard.authenticates v.request.method = false := by
  refine run_invariant (fun s => ∀ v, s.visit id = some v → v.phase = .answered (.forwarded none) →
    v.guard.authenticates v.request.method = false) ?_ ?_ taken v found stands
  · intro s a t holds next v found stands
    rcases step_visit next found with entered | kept | ⟨u,before,same,moved⟩
    · cases entered.symm.trans stands
    · exact holds v kept stands
    · rw [stands] at same moved
      rw [same]
      generalize reply : Phase.answered (.forwarded none) = phase at moved
      cases moved with
      | bypass _ outside => exact outside
      | refused failure => cases failure <;> cases reply
      | _ => cases reply
  · intro v found
    unfold Server.visit at found
    rw [started.visits] at found
    cases found

def Pressed (d : Deployment) (start : Server) (actions : List Action) (id : Nat) (v : Visit) : Prop :=
  ∃ front back u phase key deadline, actions = front ++ .proceed id :: back ∧
    run (step d) start front = some u ∧ u.visit id = some { v with phase := phase } ∧
    insertion d u { v with phase := phase } = some (key, deadline) ∧
    (tryInsert u.replay key deadline).1 = .error .memoryPressure

theorem Pressed.snoc (pressed : Pressed d start actions id v) (a : Action) :
    Pressed d start (actions ++ [a]) id v := by
  obtain ⟨front,back,u,phase,key,deadline,same,rest⟩ := pressed
  refine ⟨front,back ++ [a],u,phase,key,deadline,?_,rest⟩
  rw [same, List.append_assoc]
  rfl

theorem verdict_pressed {sub : String} {answer : Except InsertError Unit}
    (pressed : ¬ Calm (.answered (verdict v sub answer))) : answer = .error .memoryPressure := by
  cases answer with
  | ok done => exact absurd ⟨nofun,nofun⟩ pressed
  | error e =>
    cases e with
    | replayed =>
      have calm : Calm (.answered (refuse .proofReplayed)) := refuse_calm (by decide)
      exact absurd calm pressed
    | memoryPressure => rfl

theorem run_pressed (started : Started d start) (taken : run (step d) start actions = some s)
    (found : s.visit id = some v) (stormy : ¬ Calm v.phase) : Pressed d start actions id v := by
  refine history_invariant (fun front s => ∀ v, s.visit id = some v → ¬ Calm v.phase →
    Pressed d start front id v) ?_ ?_ taken v found stormy
  · intro v found
    unfold Server.visit at found
    rw [started.visits] at found
    cases found
  · intro front s a t reached holds next v found stormy
    have moves := step_moves next id
    rw [found] at moves
    generalize before : s.visit id = u at moves
    cases moves with
    | elsewhere => exact (holds v before stormy).snoc a
    | arrived => exact absurd ⟨nofun,nofun⟩ stormy
    | abandoned => exact absurd ⟨nofun,nofun⟩ stormy
    | @suspended u o first task stands =>
      have already : ¬ Calm u.phase := by
        intro calm
        rw [stands] at calm
        exact stormy ⟨nofun,calm.2⟩
      exact (holds u before already).snoc _
    | @proceeded u after proceeds =>
      cases called : insertion d s u with
      | none =>
        have already : ¬ Calm u.phase := fun calm => stormy (silent_calm called calm proceeds)
        exact (holds u before already).snoc _
      | some call =>
        obtain ⟨key,deadline⟩ := call
        obtain ⟨o,token,proof,_,_,_,outcome⟩ := insertion_some called
        cases (outcome s.replay).symm.trans proceeds
        exact ⟨front,[],s,u.phase,key,deadline,rfl,reached,before,called,verdict_pressed stormy⟩

end Runs

def blockGuard : Guard := .vault ["GET", "PUT", "DELETE"]

/-- The server with its block storage. Storage operations and the responses of the
    handler are recorded with the request that they belong to. -/
structure Site (S : Type) where
  server : Server
  store : S
  calls : List (Nat × StorageCall)
  responses : List (Nat × Response)

inductive SiteEvent where
  | act (action : Action)
  | handle (id : Nat) (body : Body)

def acts : List SiteEvent → List Action :=
  List.filterMap fun
    | .act action => some action
    | .handle _ _ => none

section Sites
variable {S : Type} (provider : StorageProvider S) (config : BlockConfig) (d : Deployment)

/-- The handler runs once for a request that the guard has let through. It makes
    one storage call at most, so it stands for one event. -/
def siteStep (s : Site S) : SiteEvent → Option (Site S)
  | .act action => (step d s.server action).map fun t => { s with server := t }
  | .handle id body => (s.server.visit id).bind fun v =>
    match v.phase with
    | .answered (.forwarded _) =>
      if v.guard = blockGuard ∧ ∀ given ∈ s.responses, given.1 ≠ id then
        let done := handleBlock provider config ⟨s.store, []⟩ ⟨v.request, body⟩
        some { s with
          store := done.2.store
          calls := s.calls ++ done.2.calls.map fun call => (id, call)
          responses := s.responses ++ [(id, done.1)] }
      else none
    | _ => none

variable {provider config d} {start s t : Site S} {events : List SiteEvent}

theorem handle_some {id : Nat} {body : Body}
    (taken : siteStep provider config d s (.handle id body) = some t) :
    ∃ v subject done, s.server.visit id = some v ∧ v.phase = .answered (.forwarded subject) ∧
      v.guard = blockGuard ∧ handleBlock provider config ⟨s.store, []⟩ ⟨v.request, body⟩ = done ∧
      t = { s with
        store := done.2.store
        calls := s.calls ++ done.2.calls.map fun call => (id, call)
        responses := s.responses ++ [(id, done.1)] } := by
  obtain ⟨v,found,rest⟩ := Option.bind_eq_some_iff.mp taken
  split at rest
  · rename_i subject stands
    split at rest
    · rename_i allowed
      cases rest
      exact ⟨v,subject,_,found,stands,allowed.1,rfl,rfl⟩
    · cases rest
  · cases rest

theorem server_run (taken : run (siteStep provider config d) start events = some s) :
    run (step d) start.server (acts events) = some s.server := by
  refine history_invariant (fun front s => run (step d) start.server (acts front) = some s.server)
    rfl ?_ taken
  intro front s e t _ reached next
  have grown : acts (front ++ [e]) = acts front ++ acts [e] := List.filterMap_append
  rw [grown]
  cases e with
  | act action =>
    obtain ⟨after,moved,rfl⟩ := Option.map_eq_some_iff.mp next
    exact run_snoc reached moved
  | handle id body =>
    obtain ⟨v,subject,done,_,_,_,_,rfl⟩ := handle_some next
    exact (congrArg _ (List.append_nil _)).trans reached

structure Traced (s : Site S) : Prop where
  responses : ∀ id response, (id, response) ∈ s.responses →
    ∃ v subject, s.server.visit id = some v ∧ v.phase = .answered (.forwarded subject)
  calls : ∀ id call, (id, call) ∈ s.calls →
    ∃ v subject, s.server.visit id = some v ∧ v.guard = blockGuard ∧
      v.phase = .answered (.forwarded (some subject))

theorem answered_kept {server after : Server} {a : Action} (taken : step d server a = some after)
    {id : Nat} {v : Visit} {reply : Reply} (found : server.visit id = some v)
    (stands : v.phase = .answered reply) : after.visit id = some v := by
  have moves := step_moves taken id
  rw [found] at moves
  exact inactive_kept moves (by rw [stands]; rfl)

theorem listed_methods (method : String) :
    blockGuard.authenticates method = true ↔ method ∈ ["GET", "PUT", "DELETE"] := by
  unfold blockGuard Guard.authenticates
  rw [List.any_eq_true]
  constructor
  · rintro ⟨listed,member,same⟩
    rw [← beq_iff_eq.mp same]
    exact member
  · intro member
    exact ⟨method,member,beq_self_eq_true method⟩

theorem bypassed_calls {session : Session S} {v : Visit} {body : Body} (guarded : v.guard = blockGuard)
    (outside : v.guard.authenticates v.request.method = false) :
    (handleBlock provider config session ⟨v.request, body⟩).2 = session := by
  refine (handles_other provider (handleBlock_handles provider config session _) (Or.inr ?_)).2
  intro listed
  rw [guarded, (listed_methods _).mpr listed] at outside
  cases outside

theorem site_traced (started : Started d start.server)
    (idle : start.calls = [] ∧ start.responses = [])
    (taken : run (siteStep provider config d) start events = some s) : Traced s := by
  refine history_invariant (fun _ s => Traced s) ?_ ?_ taken
  · constructor
    · rw [idle.2]
      exact nofun
    · rw [idle.1]
      exact nofun
  · intro front s e t reached traced next
    cases e with
    | act action =>
      obtain ⟨after,moved,rfl⟩ := Option.map_eq_some_iff.mp next
      constructor
      · intro id response member
        obtain ⟨v,subject,found,stands⟩ := traced.responses id response member
        exact ⟨v,subject,answered_kept moved found stands,stands⟩
      · intro id call member
        obtain ⟨v,subject,found,guarded,stands⟩ := traced.calls id call member
        exact ⟨v,subject,answered_kept moved found stands,guarded,stands⟩
    | handle id body =>
      obtain ⟨v,subject,done,found,stands,guarded,handled,rfl⟩ := handle_some next
      constructor
      · intro id' response member
        rcases List.mem_append.mp member with old | new
        · exact traced.responses id' response old
        · cases List.mem_singleton.mp new
          exact ⟨v,subject,found,stands⟩
      · intro id' call member
        rcases List.mem_append.mp member with old | new
        · exact traced.calls id' call old
        · obtain ⟨c,inside,same⟩ := List.mem_map.mp new
          cases same
          cases subject with
          | some subject => exact ⟨v,subject,found,guarded,stands⟩
          | none =>
            have outside := run_bypass started (server_run reached) found stands
            rw [← handled, bypassed_calls guarded outside] at inside
            cases inside

/-- Everything else about the request has been checked. What the store answers
    decides, and any store with room for an unseen identifier accepts it. -/
def LastCheck (d : Deployment) (start : Server) (front : List Action) (id : Nat) (u : Server)
    (v : Visit) (key : JtiKey) (deadline : Instant) : Prop :=
  ∃ o token proof, v.phase = .proof o token ∧ Opened d v.guard v.request o ∧
    Checked d start front id v.guard v.request o token ∧
    ProofFacts d.jose d.parseUrl o.credentials.rawProof v.request.method o.credentials.effectiveUri
      token o.credentials.rawToken (u.world.ctx v.guard.tag) u.world.clock proof ∧
    key = proof.key (u.world.ctx v.guard.tag) ∧
    ∀ r, proceed d { u with replay := r } v = some
        (.answered (verdict v token.sub (tryInsert r key deadline).1), (tryInsert r key deadline).2) ∧
      (key ∉ r.entries → r.entries.size < r.config.maxReplayEntries →
        (tryInsert r key deadline).1 = .ok ())

theorem last_check {server u : Server} {front : List Action} {id : Nat} {v : Visit} {key : JtiKey}
    {deadline : Instant} (started : Started d server)
    (reached : run (step d) server front = some u) (found : u.visit id = some v)
    (called : insertion d u v = some (key, deadline)) :
    LastCheck d server front id u v key deadline := by
  obtain ⟨o,token,proof,stands,inspected,same,outcome⟩ := insertion_some called
  have justified := reachable_justified started reached id v found
  refine ⟨o,token,proof,stands,justified.opened o (by rw [stands]; rfl),justified.checked o token stands,
    inspectProof_ok inspected,same,?_⟩
  intro r
  refine ⟨outcome r,?_⟩
  intro unseen room
  rw [tryInsert_ok_iff.mpr ⟨unseen,room,rfl⟩]

/-- Requests that are turned away have no effect, in any run and whatever the
    requests look like. A storage operation belongs to a request that was
    authenticated. A request that a guard answers itself is not handled, and none
    of its steps changes the replay store. A request asks the replay store once at
    most, after all its other checks, and memory pressure is reported only if the
    store was full then. -/
theorem rejected_without_effect (provider : StorageProvider S) (config : BlockConfig)
    (started : Started d start.server) (idle : start.calls = [] ∧ start.responses = [])
    (taken : run (siteStep provider config d) start events = some s) :
    (∀ id call, (id, call) ∈ s.calls → ∃ v o token, s.server.visit id = some v ∧
      v.guard = blockGuard ∧ v.phase = .answered (.forwarded (some ⟨.vault, token.sub⟩)) ∧
      Opened d v.guard v.request o ∧
      Checked d start.server (acts events) id v.guard v.request o token ∧
      Proved d start.server (acts events) id v.guard v.request o token) ∧
    (∀ id v, s.server.visit id = some v → v.guard.authenticates v.request.method = false →
      ∀ call, (id, call) ∉ s.calls) ∧
    (∀ id v, s.server.visit id = some v →
      v.phase = .answered .respond401 ∨ v.phase = .answered .respond503MemoryPressure →
      (∀ response, (id, response) ∉ s.responses) ∧ (∀ call, (id, call) ∉ s.calls) ∧
        Along (step d) (Harmless d id) start.server (acts events)) ∧
    (∀ id, (insertions d start.server (acts events) id).length ≤ 1) ∧
    (∀ front back id u v, acts events = front ++ .proceed id :: back →
      run (step d) start.server front = some u → u.visit id = some v →
      (∀ key deadline, insertion d u v = some (key, deadline) →
        LastCheck d start.server front id u v key deadline) ∧
      (insertion d u v = none → ∀ next store, proceed d u v = some (next, store) →
        store = u.replay ∧ ∀ r, proceed d { u with replay := r } v = some (next, r))) ∧
    (∀ id v, s.server.visit id = some v → v.phase = .answered .respond503MemoryPressure →
      ∃ front back u phase key deadline, acts events = front ++ .proceed id :: back ∧
        run (step d) start.server front = some u ∧ u.visit id = some { v with phase := phase } ∧
        LastCheck d start.server front id u { v with phase := phase } key deadline ∧
        key ∉ u.replay.entries ∧ u.replay.config.maxReplayEntries ≤ u.replay.entries.size) := by
  have reached := server_run taken
  have traced := site_traced started idle taken
  refine ⟨?_,?_,?_,?_,?_,?_⟩
  · intro id call member
    obtain ⟨v,subject,found,guarded,stands⟩ := traced.calls id call member
    obtain ⟨o,token,opened,rfl,checked,proved⟩ :=
      (reachable_justified started reached id v found).forwarded subject stands
    refine ⟨v,o,token,found,guarded,?_,opened,checked,proved⟩
    rw [stands, guarded]
    rfl
  · intro id v found outside call member
    obtain ⟨v',subject,found',_,stands⟩ := traced.calls id call member
    cases found.symm.trans found'
    obtain ⟨o,token,opened,_⟩ := (reachable_justified started reached id v found).forwarded subject stands
    rw [opened.1] at outside
    cases outside
  · intro id v found refused
    have unforwarded : ∀ subject, v.phase ≠ .answered (.forwarded subject) := by
      intro subject stands
      rw [stands] at refused
      rcases refused with impossible | impossible <;> cases impossible
    refine ⟨?_,?_,?_⟩
    · intro response member
      obtain ⟨v',subject,found',stands⟩ := traced.responses id response member
      cases found.symm.trans found'
      exact unforwarded subject stands
    · intro call member
      obtain ⟨v',subject,found',_,stands⟩ := traced.calls id call member
      cases found.symm.trans found'
      exact unforwarded (some subject) stands
    · apply run_harmless reached
      intro v' subject found'
      cases found.symm.trans found'
      exact unforwarded (some subject)
  · intro id
    exact (run_insertions reached).2
  · intro front back id u v _ before found
    exact ⟨fun key deadline called => last_check started before found called,
      fun silent next store moved => insertion_none silent moved⟩
  · intro id v found stands
    have stormy : ¬ Calm v.phase := fun calm => calm.1 stands
    obtain ⟨front,back,u,phase,key,deadline,split,before,was,called,pressed⟩ :=
      run_pressed started reached found stormy
    obtain ⟨unseen,full⟩ := tryInsert_pressed pressed
    exact ⟨front,back,u,phase,key,deadline,split,before,was,last_check started before was called,
      unseen,full⟩

end Sites

def blockTarget : PathAndQuery where
  text := "/api/blocks/AAAAAAAAAAAAAAAAAAAAAAAAAAAAAAAAAAAAAAAAAAA"
  printable := show ∀ c ∈ "/api/blocks/AAAAAAAAAAAAAAAAAAAAAAAAAAAAAAAAAAAAAAAAAAA".toList,
    32 < c.toNat by decide

def blockDeployment : Deployment where
  platform := RefreshTasks.samplePlatform
  jose := soloJose soloClaims
    (soloProof "http://vault.test/api/blocks/AAAAAAAAAAAAAAAAAAAAAAAAAAAAAAAAAAAAAAAAAAA" 100).claims

def blockSite (w : RefreshTasks.World) : Site (BlockId → Option Digests.Bytes) where
  server := sampleServer w
  store := fun _ => none
  calls := []
  responses := []

def smallBlocks : BlockConfig := ⟨4, 64, plainReader⟩

def threeRequests : List SiteEvent :=
  let read := soloRequest "vault.test" blockTarget
  [.act (.refresh (.setClock 101)), .act (.arrive 0 blockGuard read), .act (.proceed 0),
    .act (.proceed 0), .act (.proceed 0), .act (.proceed 0), .handle 0 (.complete []),
    .act (.arrive 1 blockGuard { read with method := "LINK" }), .act (.proceed 1),
    .handle 1 (.complete [1, 2, 3, 4]), .act (.arrive 2 blockGuard read), .act (.proceed 2),
    .act (.proceed 2), .act (.proceed 2), .act (.proceed 2)]

theorem rejected_without_effect_three :
    ∃ start s, Started blockDeployment start.server ∧
      run (siteStep atomicMap smallBlocks blockDeployment) start threeRequests = some s ∧
      s.calls.map Prod.fst = [0] ∧ s.responses = [(0, respondBlock404), (1, respondBlock404)] ∧
      (∃ v, s.server.visit 2 = some v ∧ v.phase = .answered .respond401) ∧
      Along (step blockDeployment) (Harmless blockDeployment 2) start.server (acts threeRequests) := by
  have evaluated : ∃ w, RefreshTasks.Started RefreshTasks.samplePlatform w ∧
      ∃ s ∈ run (siteStep atomicMap smallBlocks blockDeployment) (blockSite w) threeRequests,
        s.calls.map Prod.fst = [0] ∧ s.responses = [(0, respondBlock404), (1, respondBlock404)] ∧
        ∃ v ∈ s.server.visit 2, v.phase = .answered .respond401 :=
    RefreshTasks.sample_exists (by decide +kernel)
  obtain ⟨w,started,s,taken,calls,responses,v,found,refused⟩ := evaluated
  have ready : Started blockDeployment (sampleServer w) := ⟨started,rfl,rfl⟩
  obtain ⟨_,_,turned,_⟩ := rejected_without_effect atomicMap smallBlocks ready ⟨rfl,rfl⟩ taken
  exact ⟨blockSite w,s,ready,taken,calls,responses,⟨v,found,refused⟩,
    (turned 2 v found (Or.inl refused)).2.2⟩

end RejectedRequests
