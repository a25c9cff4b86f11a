import Apokryphos.GuardedRequests

/-!
One token, two audiences. A guard lets a request pass only with a token whose
payload names the guard's own audience, alone and in the single form, and the
configuration keeps the two audiences apart. The payload is part of the token,
so it does not matter which keys the contexts hold, and in this machine they may
be given any key sets at any time, also the same ones.
-/
namespace AudienceIsolation
open GuardedRequests OidcContexts Outcomes RequestGuards ServerConfig SigningKeys StepRuns
open TokenValidation

inductive Event where
  | act (action : Action)
  | install (tag : AudienceTag) (jwks : Jwks)

def next (d : Deployment) (s : Server) : Event → Option Server
  | .act action => step d s action
  | .install tag jwks =>
    some { s with world := s.world.setCtx tag { s.world.ctx tag with jwks := jwks } }

/-- What a token says does not depend on the key that verified it. -/
def PayloadDetermined (jose : Jose) : Prop :=
  ∀ raw key key' validation validation' claims claims',
    jose.decodeToken raw key validation = .ok claims →
    jose.decodeToken raw key' validation' = .ok claims' → claims = claims'

def Addressed (d : Deployment) (raw audience : String) : Prop :=
  ∃ key validation claims, d.jose.decodeToken raw key validation = .ok claims ∧
    claims.aud = some (.single audience)

/-- What the guard has made sure of about the token, where the request stands. -/
structure Certified (d : Deployment) (audience : AudienceTag → String) (v : Visit) : Prop where
  opened : ∀ o, v.phase.opening = some o → readToken v.request = .ok o.credentials.rawToken
  verified : ∀ o found, v.phase = .claims o found →
    ∃ key validation, d.jose.decodeToken o.credentials.rawToken key validation = .ok found
  checked : ∀ o token, v.phase = .proof o token →
    Addressed d o.credentials.rawToken (audience v.guard.tag)
  forwarded : ∀ subject, v.phase = .answered (.forwarded (some subject)) →
    subject.tag = v.guard.tag ∧ ∃ raw, readToken v.request = .ok raw ∧
      Addressed d raw (audience v.guard.tag)

section Moves
variable {d : Deployment} {audience : AudienceTag → String} {s : Server} {v : Visit}

theorem certified_quiet {v : Visit} (quiet : v.phase.quiet = true)
    (opened : ∀ o, v.phase.opening = some o → readToken v.request = .ok o.credentials.rawToken) :
    Certified d audience v where
  opened := opened
  verified o found stands := by
    rw [stands] at quiet
    cases quiet
  checked o token stands := by
    rw [stands] at quiet
    cases quiet
  forwarded subject stands := by
    rw [stands] at quiet
    cases quiet

theorem certified_kept {following : Phase} {o : Opening} (certified : Certified d audience v)
    (stands : v.phase.opening = some o) (keeps : following.opening = some o)
    (quiet : following.quiet = true) : Certified d audience { v with phase := following } := by
  apply certified_quiet quiet
  intro o' same
  have both : some o = some o' := keeps.symm.trans same
  cases both
  exact certified.opened o stands

theorem opened_token {o : Opening} (opens : openRequest d v.request = .ok o) :
    readToken v.request = .ok o.credentials.rawToken := by
  simp only [openRequest, bind_ok_iff, pure_ok_iff, Prod.exists] at opens
  obtain ⟨credentials,read,_,_,_,rfl⟩ := opens
  exact (readCredentials_ok read).1

theorem advances_certified {following : Phase}
    (audiences : ∀ g, (s.world.ctx g).audience = audience g) (certified : Certified d audience v)
    (moved : Advances d s v following) : Certified d audience { v with phase := following } := by
  cases moved with
  | bypass =>
    apply certified_quiet rfl
    intro o impossible
    cases impossible
  | opened stands inside opens =>
    apply certified_quiet rfl
    intro o same
    cases same
    exact opened_token opens
  | @decoded o found stands decodes =>
    have early : v.phase.opening = some o := by
      rcases stands with stands | ⟨first,stands⟩ <;> rw [stands] <;> rfl
    obtain ⟨_,_,key,_,verifies⟩ := tryDecodeWithCurrentJwks_ok decodes
    constructor
    · intro o' same
      cases same
      exact certified.opened o early
    · intro o' found' same
      cases same
      exact ⟨key,_,verifies⟩
    · intro o' token impossible
      cases impossible
    · intro subject impossible
      cases impossible
  | failed stands => exact certified_kept certified (by rw [stands]; rfl) rfl rfl
  | suspended stands => exact certified_kept certified (by rw [stands]; rfl) rfl rfl
  | refreshed stands => exact certified_kept certified (by rw [stands]; rfl) rfl rfl
  | @checked o found token stands accepted =>
    obtain ⟨key,validation,verifies⟩ := certified.verified o found stands
    constructor
    · intro o' same
      cases same
      exact certified.opened o (by rw [stands]; rfl)
    · intro o' found' impossible
      cases impossible
    · intro o' token' same
      cases same
      exact ⟨key,validation,found,verifies,by rw [(checkClaims_ok accepted).aud, audiences]⟩
    · intro subject impossible
      cases impossible
  | @forwarded o token sub store stands authenticated =>
    constructor
    · intro o' impossible
      cases impossible
    · intro o' found' impossible
      cases impossible
    · intro o' token' impossible
      cases impossible
    · intro subject same
      cases same
      exact ⟨rfl,_,certified.opened o (by rw [stands]; rfl),certified.checked o token stands⟩
  | refused failure =>
    apply certified_quiet (refuse_quiet failure)
    intro o impossible
    cases impossible
  | abandoned =>
    apply certified_quiet rfl
    intro o impossible
    cases impossible

end Moves

structure Bound (d : Deployment) (audience : AudienceTag → String) (s : Server) : Prop where
  audiences : ∀ g, (s.world.ctx g).audience = audience g
  certified : ∀ id v, s.visit id = some v → Certified d audience v

theorem step_audience {d : Deployment} {s t : Server} {a : Action} (taken : step d s a = some t)
    (g : AudienceTag) : (t.world.ctx g).audience = (s.world.ctx g).audience := by
  rcases step_world taken with same | ⟨action,moved,_⟩
  · rw [same]
  · exact (RefreshTasks.moves_identity (RefreshTasks.step_moves moved) g).audience

theorem next_bound {d : Deployment} {audience : AudienceTag → String} {s t : Server} {event : Event}
    (bound : Bound d audience s) (taken : next d s event = some t) : Bound d audience t := by
  cases event with
  | install tag jwks =>
    cases taken
    refine ⟨?_,bound.certified⟩
    intro g
    refine Eq.trans ?_ (bound.audiences g)
    apply RefreshTasks.setCtx_keeps OidcContext.audience
    rfl
  | act action =>
    refine ⟨fun g => (step_audience taken g).trans (bound.audiences g),?_⟩
    intro id v found
    rcases step_visit taken found with entered | kept | ⟨u,before,same,moved⟩
    · apply certified_quiet
      · rw [entered]
        rfl
      · intro o impossible
        rw [entered] at impossible
        cases impossible
    · exact bound.certified id v kept
    · rw [same]
      exact advances_certified bound.audiences (bound.certified id u before) moved

theorem started_apart {platform : Platform} {w : RefreshTasks.World}
    (started : RefreshTasks.Started platform w) :
    (w.ctx .vault).audience ≠ (w.ctx .admin).audience := by
  obtain ⟨p,cfg,vault,admin,v,a,valid,built,_,same⟩ := started
  obtain ⟨fv,fa,_⟩ := initContexts_ok built
  rw [same]
  change v.audience ≠ a.audience
  rw [fv.audience_eq, fa.audience_eq]
  exact (validate_ok valid).2

theorem started_bound {d : Deployment} {start : Server} (started : Started d start) :
    Bound d (fun g => (start.world.ctx g).audience) start := by
  refine ⟨fun _ => rfl,?_⟩
  intro id v found
  unfold Server.visit at found
  rw [started.visits] at found
  cases found

theorem bearsToken_unique {request : Request} {raw raw' : String} (bears : BearsToken request raw)
    (bears' : BearsToken request raw') : raw = raw' := by
  obtain ⟨value,text,scheme,rest,header,ascii,parts,_,rfl⟩ := bears
  obtain ⟨value',text',scheme',rest',header',ascii',parts',_,rfl⟩ := bears'
  rw [header, Option.some.injEq] at header'
  subst header'
  rw [ascii, Option.some.injEq] at ascii'
  subst ascii'
  rw [parts, Option.some.injEq, Prod.mk.injEq] at parts'
  rw [parts'.2]

theorem addressed_unique {d : Deployment} (determined : PayloadDetermined d.jose)
    {raw audience audience' : String} (addressed : Addressed d raw audience)
    (addressed' : Addressed d raw audience') : audience = audience' := by
  obtain ⟨key,validation,claims,decoded,named⟩ := addressed
  obtain ⟨key',validation',claims',decoded',named'⟩ := addressed'
  rw [determined raw key key' validation validation' claims claims' decoded decoded', named'] at named
  cases named
  rfl

/-- A request that a guard accepts carries this guard's subject, and the token
    of a request that one guard accepts is never accepted by the other one,
    whatever keys the two contexts hold meanwhile. -/
theorem token_accepted_by_one_audience {d : Deployment} {start s s' : Server}
    {events events' : List Event} (started : Started d start) (determined : PayloadDetermined d.jose)
    (taken : run (next d) start events = some s) (taken' : run (next d) start events' = some s')
    {id id' : Nat} {v v' : Visit} {subject subject' : Subject} {rawToken : String}
    (found : s.visit id = some v) (found' : s'.visit id' = some v')
    (accepted : v.phase = .answered (.forwarded (some subject)))
    (accepted' : v'.phase = .answered (.forwarded (some subject')))
    (bears : BearsToken v.request rawToken) (bears' : BearsToken v'.request rawToken) :
    subject.tag = v.guard.tag ∧ subject'.tag = v'.guard.tag ∧ v.guard.tag = v'.guard.tag := by
  have bound := run_invariant _ next_bound (started_bound started) taken
  have bound' := run_invariant _ next_bound (started_bound started) taken'
  obtain ⟨own,raw,read,addressed⟩ := (bound.certified id v found).forwarded subject accepted
  obtain ⟨own',raw',read',addressed'⟩ := (bound'.certified id' v' found').forwarded subject' accepted'
  rw [bearsToken_unique (readToken_ok read) bears] at addressed
  rw [bearsToken_unique (readToken_ok read') bears'] at addressed'
  have same := addressed_unique determined addressed addressed'
  refine ⟨own,own',?_⟩
  have apart := started_apart started.world
  cases tag : v.guard.tag with
  | vault =>
    cases tag' : v'.guard.tag with
    | vault => rfl
    | admin =>
      rw [tag, tag'] at same
      exact absurd same apart
  | admin =>
    cases tag' : v'.guard.tag with
    | admin => rfl
    | vault =>
      rw [tag, tag'] at same
      exact absurd same.symm apart

theorem sample_determined : PayloadDetermined sampleDeployment.jose := by
  intro raw key key' validation validation' claims claims' decoded decoded'
  simp only [sampleDeployment, ProofValidation.soloJose] at decoded decoded'
  split at decoded
  · split at decoded'
    · cases decoded
      cases decoded'
      rfl
    · cases decoded'
  · cases decoded

theorem token_accepted_by_one_audience_shared_keys :
    ∃ start s s' v v', Started sampleDeployment start ∧
      run (next sampleDeployment) start (loneVisit.map .act) = some s ∧
      run (next sampleDeployment) start
        (.install .admin (start.world.ctx .vault).jwks :: loneVisit.map .act) = some s' ∧
      s.visit 0 = some v ∧ s'.visit 0 = some v' ∧
      v.phase = .answered (.forwarded (some ⟨.vault, "user"⟩)) ∧
      v'.phase = .answered (.forwarded (some ⟨.vault, "user"⟩)) ∧ v.guard.tag = v'.guard.tag := by
  have evaluated : ∃ w, RefreshTasks.Started RefreshTasks.samplePlatform w ∧
      ∃ s ∈ run (next sampleDeployment) (sampleServer w) (loneVisit.map .act),
      ∃ s' ∈ run (next sampleDeployment) (sampleServer w)
        (.install .admin (w.ctx .vault).jwks :: loneVisit.map .act),
      ∃ v ∈ s.visit 0, ∃ v' ∈ s'.visit 0,
        v.phase = .answered (.forwarded (some ⟨.vault, "user"⟩)) ∧
        v'.phase = .answered (.forwarded (some ⟨.vault, "user"⟩)) ∧
        (readToken v.request).toOption = some "token" ∧
        (readToken v'.request).toOption = some "token" :=
    RefreshTasks.sample_exists (by decide +kernel)
  obtain ⟨w,started,s,taken,s',taken',v,found,v',found',accepted,accepted',read,read'⟩ := evaluated
  have ready : Started sampleDeployment (sampleServer w) := ⟨started,rfl,rfl⟩
  have same := token_accepted_by_one_audience ready sample_determined taken taken' found found'
    accepted accepted' (readToken_ok (toOption_some_iff.mp read))
    (readToken_ok (toOption_some_iff.mp read'))
  exact ⟨sampleServer w,s,s',v,v',ready,taken,taken',found,found',accepted,accepted',same.2.2⟩

end AudienceIsolation
