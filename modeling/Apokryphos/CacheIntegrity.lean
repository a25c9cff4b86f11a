import Apokryphos.KeyIndices
import Apokryphos.RefreshTasks

/-!
The caches of both contexts over every run of scheduled and on-demand refreshes.
One access of a task stores a key set, and only after it was fetched, parsed and
checked; one action stores a discovery document, and only one that was fetched
whole. Every other outcome leaves both caches of both contexts as they were. The
weak reference to the other context may be lost on the way.
-/
namespace CacheIntegrity
open KeyIndices OidcContexts OverwritingIndex Outcomes RefreshTasks ServerConfig SigningKeys StepRuns
  UrlTexts

/-- What an install refuses once the other context is gone. -/
inductive Event where
  | act (action : Action)
  | loseOther (tag : AudienceTag)
  deriving DecidableEq

def next (platform : Platform) (w : World) : Event → Option World
  | .act action => step platform w action
  | .loseOther tag => some (w.setCtx tag { w.ctx tag with other := none })

def Event.target : Event → Option Nat
  | .act action => action.target
  | .loseOther _ => none

def caches (w : World) (g : AudienceTag) : Jwks × Discovery := ((w.ctx g).jwks, (w.ctx g).discovery)

def Succeeded : Phase → Prop
  | .complete _ installed => installed = true
  | .notify _ installed => installed = true
  | .finished _ result => result = true
  | _ => False

theorem afterInstall_succeeded (claim : Option UInt64) : Succeeded (afterInstall claim true) := by
  cases claim <;> rfl

theorem quiet_unfinished {w : World} {t : Nat} {k : Task} {action : Action} {following : Phase}
    (moved : Quiet w t k action following) : ¬ Succeeded k.phase := by
  intro succeeded
  cases moved <;> simp_all [Succeeded]

theorem writes_succeeded {ctx ctx' : OidcContext} {phase following : Phase}
    (wrote : Writes ctx phase following ctx') (succeeded : Succeeded phase) : Succeeded following := by
  cases wrote with
  | claim stands =>
    rw [stands] at succeeded
    cases succeeded
  | install stands =>
    rw [stands] at succeeded
    cases succeeded
  | complete stands =>
    rw [stands] at succeeded
    exact succeeded
  | notify stands =>
    rw [stands] at succeeded
    exact succeeded

theorem moves_succeeded {w w' : World} {action : Action} (moved : Moves w action w') {t : Nat}
    {k : Task} (found : w.task t = some k) (succeeded : Succeeded k.phase) :
    ∃ k', w'.task t = some k' ∧ Succeeded k'.phase := by
  rcases moves_task moved t with ⟨_,same⟩ | ⟨_,_,_,free,_⟩ | ⟨l,following,before,after,how⟩
  · exact ⟨k,same.trans found,succeeded⟩
  · rw [found] at free
    cases free
  · rw [found, Option.some.injEq] at before
    subst before
    refine ⟨_,after,?_⟩
    rcases how with quiet | ⟨_,wrote⟩
    · exact absurd succeeded (quiet_unfinished quiet)
    · exact writes_succeeded wrote succeeded

theorem next_succeeded {platform : Platform} {w w' : World} {event : Event}
    (taken : next platform w event = some w') {t : Nat} {k : Task} (found : w.task t = some k)
    (succeeded : Succeeded k.phase) : ∃ k', w'.task t = some k' ∧ Succeeded k'.phase := by
  cases event with
  | act action => exact moves_succeeded (step_moves taken) found succeeded
  | loseOther tag =>
    cases taken
    exact ⟨k,found,succeeded⟩

theorem run_succeeded {platform : Platform} {w w' : World} {events : List Event}
    (taken : run (next platform) w events = some w') {t : Nat} {k : Task} (found : w.task t = some k)
    (succeeded : Succeeded k.phase) : ∃ k', w'.task t = some k' ∧ Succeeded k'.phase := by
  have kept := @run_invariant _ _ (next platform)
    (fun w => ∃ k, w.task t = some k ∧ Succeeded k.phase)
    (fun ⟨k,found,succeeded⟩ taken => next_succeeded taken found succeeded)
  exact kept ⟨k,found,succeeded⟩ taken

inductive Touches (platform : Platform) (w : World) : Event → World → Prop where
  | nothing {event w'} (same : ∀ g, caches w' g = caches w g) : Touches platform w event w'
  | install {t k claim new seen w'} (found : w.task t = some k)
      (stands : k.phase = .storeJwks claim new seen)
      (own : caches w' k.tag = (new, (w.ctx k.tag).discovery))
      (other : ∀ g, g ≠ k.tag → caches w' g = caches w g)
      (after : w'.task t = some { k with phase := afterInstall claim true }) :
      Touches platform w (.act (.advance t)) w'
  | discover {tag outcome discovery w'}
      (fetched : fetchDiscovery platform (w.ctx tag).issuerUrl outcome = .ok discovery)
      (own : caches w' tag = ((w.ctx tag).jwks, discovery))
      (other : ∀ g, g ≠ tag → caches w' g = caches w g) :
      Touches platform w (.act (.discoveryFetched tag outcome)) w'

theorem caches_setCtx_other {w : World} {tag g : AudienceTag} {ctx : OidcContext} (other : g ≠ tag) :
    caches (w.setCtx tag ctx) g = caches w g := by
  unfold caches
  rw [setCtx_ctx_other other]

theorem caches_setCtx_same (w : World) (tag : AudienceTag) (ctx : OidcContext) :
    caches (w.setCtx tag ctx) tag = (ctx.jwks, ctx.discovery) := by
  unfold caches
  rw [setCtx_ctx_same]

theorem caches_setCtx {w : World} {tag : AudienceTag} {ctx : OidcContext}
    (jwks : ctx.jwks = (w.ctx tag).jwks) (discovery : ctx.discovery = (w.ctx tag).discovery)
    (g : AudienceTag) : caches (w.setCtx tag ctx) g = caches w g := by
  by_cases own : g = tag
  · subst own
    rw [caches_setCtx_same, jwks, discovery]
    rfl
  · exact caches_setCtx_other own

theorem discovery_touches {platform : Platform} {w w' : World} {tag : AudienceTag}
    {outcome : HttpOutcome String} (taken : step platform w (.discoveryFetched tag outcome) = some w') :
    Touches platform w (.act (.discoveryFetched tag outcome)) w' := by
  simp only [step] at taken
  split at taken
  · rename_i discovery fetched
    cases taken
    exact .discover fetched (caches_setCtx_same _ _ _) fun _ => caches_setCtx_other
  · cases taken
    exact .nothing fun _ => rfl

theorem write_touches {platform : Platform} {w : World} {t : Nat} {k : Task} {following : Phase}
    {ctx : OidcContext} (found : w.task t = some k)
    (wrote : Writes (w.ctx k.tag) k.phase following ctx) :
    Touches platform w (.act (.advance t))
      ((w.setTask t { k with phase := following }).setCtx k.tag ctx) := by
  cases wrote with
  | install stands =>
    refine .install found stands (caches_setCtx_same _ _ _) ?_ (setTask_task_same w t _)
    intro g other
    exact caches_setCtx_other other
  | claim | complete | notify =>
    apply Touches.nothing
    intro g
    refine (caches_setCtx ?_ ?_ g).trans rfl <;> rfl

theorem next_touches {platform : Platform} {w w' : World} {event : Event}
    (taken : next platform w event = some w') : Touches platform w event w' := by
  cases event with
  | loseOther tag =>
    cases taken
    apply Touches.nothing
    intro g
    apply caches_setCtx <;> rfl
  | act action =>
    by_cases fetch : ∃ tag outcome, action = .discoveryFetched tag outcome
    · obtain ⟨tag,outcome,rfl⟩ := fetch
      exact discovery_touches taken
    · cases step_moves taken with
      | clock => exact .nothing fun _ => rfl
      | spawn => exact .nothing fun _ => rfl
      | quiet => exact .nothing fun _ => rfl
      | discover => exact absurd ⟨_,_,rfl⟩ fetch
      | write found wrote => exact write_touches found wrote

structure Usables (jwks : Jwks) : Prop where
  nonempty : jwks.isEmpty = false
  allowed : ∀ key, Holds jwks key →
    key.jwk.keyAlgorithm = some .ps256 ∨ key.jwk.keyAlgorithm = some .es256

theorem usable_algorithm {raw : RawJwk} (kept : Usable raw) :
    raw.keyAlgorithm = some .ps256 ∨ raw.keyAlgorithm = some .es256 := by
  unfold Usable declared at kept
  cases named : raw.keyAlgorithm with
  | none =>
    rw [named] at kept
    cases kept
  | some alg =>
    rw [named] at kept
    cases alg with
    | ps256 => exact .inl rfl
    | es256 => exact .inr rfl
    | _ => cases kept

theorem holds_filed {entries : List Jwk} {key : Jwk} (held : Holds (filed entries) key) :
    key ∈ entries := by
  rcases held with ⟨kid,found⟩ | ⟨thumbprint,found⟩ | member
  · obtain ⟨front,rest,rfl,_⟩ := lookup_indexed.mp found
    simp
  · obtain ⟨front,rest,rfl,_⟩ := lookup_indexed.mp found
    simp
  · exact (List.mem_filter.mp member).1

theorem parsed_usables {raw : JwkSet} {jwks : Jwks} (parsed : parseJwks raw = .ok jwks) :
    Usables jwks := by
  obtain ⟨_,nonempty,rfl⟩ := parseJwks_ok.mp parsed
  constructor
  · rw [← Bool.not_eq_true]
    exact fun empty => nonempty (filed_isEmpty.mp empty)
  · intro key held
    exact usable_algorithm (entry_of_mem (holds_filed held)).2.1

theorem fetched_usables {outcome : HttpOutcome JwkSet} {jwks : Jwks}
    (fetched : fetchJwks outcome = .ok jwks) : Usables jwks := by
  cases outcome with
  | failed => cases fetched
  | responded status document =>
    simp only [fetchJwks, bind_ok_iff, rejectIf_ok_iff, okOr_ok_iff] at fetched
    obtain ⟨_,_,raw,_,parsed⟩ := fetched
    exact parsed_usables parsed

theorem fetched_https {platform : Platform} {issuer : Url} {outcome : HttpOutcome String}
    {discovery : Discovery} (fetched : fetchDiscovery platform issuer outcome = .ok discovery)
    (production : platform.enforceHttps = true) : discovery.jwksUri.scheme = "https" := by
  unfold fetchDiscovery at fetched
  obtain ⟨_,_,answered⟩ := bind_ok_iff.mp fetched
  cases outcome with
  | failed => cases answered
  | responded status document =>
    simp only [bind_ok_iff, rejectIf_ok_iff, okOr_ok_iff, pure_ok_iff] at answered
    obtain ⟨_,_,value,_,uri,_,_,scheme,rfl⟩ := answered
    by_contra other
    exact scheme ⟨production,other⟩

def carried : Phase → Option Jwks
  | .loadOther _ new => some new
  | .storeJwks _ new _ => some new
  | _ => none

@[simp] theorem carried_afterInstall (claim : Option UInt64) (installed : Bool) :
    carried (afterInstall claim installed) = none := by
  cases claim <;> rfl

structure Healthy (platform : Platform) (w : World) : Prop where
  installed : ∀ g, Usables (w.ctx g).jwks
  secured : platform.enforceHttps = true → ∀ g, (w.ctx g).discovery.jwksUri.scheme = "https"

structure Prepared (platform : Platform) (w : World) : Prop extends Healthy platform w where
  fetched : ∀ {t k new}, w.task t = some k → carried k.phase = some new → Usables new

theorem quiet_carried {w : World} {t : Nat} {k : Task} {action : Action} {following : Phase} {new : Jwks}
    (moved : Quiet w t k action following) (holds : carried following = some new) :
    carried k.phase = some new ∨ ∃ outcome, fetchJwks outcome = .ok new := by
  cases moved with
  | fetched stands answer =>
    cases holds
    exact .inr ⟨_,answer⟩
  | passCheck stands =>
    cases holds
    rw [stands]
    exact .inl rfl
  | failed | refuse => simp at holds
  | _ => cases holds

theorem writes_carried {ctx ctx' : OidcContext} {phase following : Phase}
    (wrote : Writes ctx phase following ctx') : carried following = none := by
  cases wrote with
  | install => simp
  | claim | complete | notify => rfl

theorem moves_carried {w w' : World} {action : Action} {platform : Platform}
    (prepared : Prepared platform w) (moved : Moves w action w') {t : Nat} {k : Task} {new : Jwks}
    (found : w'.task t = some k) (holds : carried k.phase = some new) : Usables new := by
  obtain ⟨l,before,_,_,rfl | quiet | ⟨_,wrote⟩⟩ :=
    moves_origin moved (fun phase => carried phase = some new) (by rintro ⟨⟩ <;> nofun) found holds
  · exact prepared.fetched before holds
  · rcases quiet_carried quiet holds with earlier | ⟨outcome,answer⟩
    · exact prepared.fetched before earlier
    · exact fetched_usables answer
  · rw [writes_carried wrote] at holds
    cases holds

theorem same_healthy {platform : Platform} {w w' : World} (healthy : Healthy platform w)
    (same : ∀ g, caches w' g = caches w g) : Healthy platform w' := by
  constructor
  · intro g
    rw [(Prod.mk.inj (same g)).1]
    exact healthy.installed g
  · intro production g
    rw [(Prod.mk.inj (same g)).2]
    exact healthy.secured production g

theorem touches_healthy {platform : Platform} {w w' : World} {event : Event}
    (prepared : Prepared platform w) (touched : Touches platform w event w') : Healthy platform w' := by
  have healthy := prepared.toHealthy
  cases touched with
  | nothing same => exact same_healthy healthy same
  | @install t k claim new seen _ found stands own other after =>
    have usables : Usables new := prepared.fetched found (by rw [stands]; rfl)
    constructor
    · intro g
      by_cases mine : g = k.tag
      · rw [mine, (Prod.mk.inj own).1]
        exact usables
      · rw [(Prod.mk.inj (other g mine)).1]
        exact healthy.installed g
    · intro production g
      by_cases mine : g = k.tag
      · rw [mine, (Prod.mk.inj own).2]
        exact healthy.secured production k.tag
      · rw [(Prod.mk.inj (other g mine)).2]
        exact healthy.secured production g
  | @discover tag outcome discovery _ fetched own other =>
    constructor
    · intro g
      by_cases mine : g = tag
      · rw [mine, (Prod.mk.inj own).1]
        exact healthy.installed tag
      · rw [(Prod.mk.inj (other g mine)).1]
        exact healthy.installed g
    · intro production g
      by_cases mine : g = tag
      · rw [mine, (Prod.mk.inj own).2]
        exact fetched_https fetched production
      · rw [(Prod.mk.inj (other g mine)).2]
        exact healthy.secured production g

theorem next_prepared {platform : Platform} {w w' : World} {event : Event}
    (prepared : Prepared platform w) (taken : next platform w event = some w') :
    Prepared platform w' where
  toHealthy := touches_healthy prepared (next_touches taken)
  fetched := by
    intro t k new found holds
    cases event with
    | act action => exact moves_carried prepared (step_moves taken) found holds
    | loseOther tag =>
      cases taken
      exact prepared.fetched found holds

theorem initSingleContext_caches {platform : Platform} {tag : AudienceTag}
    {oidcCfg : OidcAudienceConfig} {authCfg : AuthConfig} {answers : ProviderAnswers}
    {ctx : OidcContext} (built : initSingleContext platform tag oidcCfg authCfg answers = .ok ctx) :
    Usables ctx.jwks ∧ (platform.enforceHttps = true → ctx.discovery.jwksUri.scheme = "https") := by
  simp only [initSingleContext, bind_ok_iff, mapError_ok_iff, pure_ok_iff] at built
  obtain ⟨discovery,found,jwks,keys,rfl⟩ := built
  exact ⟨fetched_usables keys,fetched_https found⟩

theorem started_prepared {platform : Platform} {w : World} (started : Started platform w) :
    Prepared platform w := by
  have idle := (started_pristine started).idle
  obtain ⟨p,cfg,vault,admin,v,a,_,built,_,same⟩ := started
  simp only [initContexts, bind_ok_iff, pure_ok_iff, Prod.mk.injEq] at built
  obtain ⟨vc,hv,ac,ha,_,_,rfl,rfl⟩ := built
  obtain ⟨vaultKeys,vaultUri⟩ := initSingleContext_caches hv
  obtain ⟨adminKeys,adminUri⟩ := initSingleContext_caches ha
  exact {
    installed := by
      rw [same]
      rintro ⟨⟩
      · exact vaultKeys
      · exact adminKeys
    secured := by
      rw [same]
      rintro production ⟨⟩
      · exact vaultUri production
      · exact adminUri production
    fetched := by
      intro t k new found
      rw [idle] at found
      cases found }

/-- How one event and the refresh it belongs to treat the caches, seen from a
    later state of the run. -/
structure Intact (platform : Platform) (u : World) (event : Event) (u' later : World) : Prop where
  /-- An access of a refresh task changes a cache only when it stores a fetched key
      set into its own context, and that refresh ends with success. -/
  refresh : ∀ t, event.target = some t → (∀ g, caches u' g = caches u g) ∨
    ∃ k claim new seen, u.task t = some k ∧ k.phase = .storeJwks claim new seen ∧
      caches u' k.tag = (new, (u.ctx k.tag).discovery) ∧
      (∀ g, g ≠ k.tag → caches u' g = caches u g) ∧
      ∃ k', later.task t = some k' ∧ Succeeded k'.phase
  /-- A discovery refresh changes its own context, and only when it succeeds. -/
  discovery : ∀ tag outcome, event = .act (.discoveryFetched tag outcome) →
    (u'.ctx tag).jwks = (u.ctx tag).jwks ∧ (∀ g, g ≠ tag → caches u' g = caches u g) ∧
      ∀ e, fetchDiscovery platform (u.ctx tag).issuerUrl outcome = .error e →
        ∀ g, caches u' g = caches u g
  passive : event.target = none → (∀ tag outcome, event ≠ .act (.discoveryFetched tag outcome)) →
    ∀ g, caches u' g = caches u g

theorem touches_intact {platform : Platform} {u u' later : World} {event : Event} {back : List Event}
    (touched : Touches platform u event u') (after : run (next platform) u' back = some later) :
    Intact platform u event u' later := by
  cases touched with
  | nothing same =>
    exact {
      refresh := fun _ _ => .inl same
      discovery := fun tag _ _ => ⟨(Prod.mk.inj (same tag)).1,fun g _ => same g,fun _ _ => same⟩
      passive := fun _ _ => same }
  | @install t k claim new seen _ found stands own other stored =>
    refine { refresh := ?_, discovery := ?_, passive := ?_ }
    · intro u aims
      cases aims
      obtain ⟨k',ends,succeeded⟩ := run_succeeded after stored (afterInstall_succeeded claim)
      exact .inr ⟨k,claim,new,seen,found,stands,own,other,k',ends,succeeded⟩
    · intro tag outcome impossible
      cases impossible
    · intro impossible
      cases impossible
  | @discover tag outcome discovery _ fetched own other =>
    refine { refresh := ?_, discovery := ?_, passive := ?_ }
    · intro t impossible
      cases impossible
    · intro tag' outcome' same
      cases same
      refine ⟨(Prod.mk.inj own).1,other,?_⟩
      intro e failed
      rw [fetched] at failed
      cases failed
    · intro _ not
      exact absurd rfl (not tag outcome)

/-- In every reachable state the caches hold usable keys and a secure key
    endpoint, and every event from there leaves them intact up to a successful
    refresh of their own context. -/
theorem refreshes_keep_caches {platform : Platform} {w u : World} {front : List Event}
    (started : Started platform w) (before : run (next platform) w front = some u) :
    Healthy platform u ∧ ∀ event u' back later, next platform u event = some u' →
      run (next platform) u' back = some later → Intact platform u event u' later := by
  have prepared := run_invariant (Prepared platform) next_prepared (started_prepared started) before
  refine ⟨prepared.toHealthy,?_⟩
  intro event u' back later taken after
  exact touches_intact (next_touches taken) after

def mixedRefreshes : List Event :=
  [.act (.spawn 0 .scheduled .vault), .act (.advance 0), .act (.fetched 0 (sampleKeys "CCCC")),
    .act (.advance 0), .act (.advance 0), .act (.discoveryFetched .admin .failed),
    .act (.spawn 1 .scheduled .vault), .act (.advance 1), .act (.fetched 1 (.responded 500 none)),
    .loseOther .vault]

theorem refreshes_keep_caches_mixed :
    ∃ w, Started samplePlatform w ∧ ∃ u ∈ run (next samplePlatform) w mixedRefreshes,
      (u.ctx .vault).jwks ≠ (w.ctx .vault).jwks ∧ Healthy samplePlatform u := by
  have evaluated : ∃ w, Started samplePlatform w ∧
      ∃ u ∈ run (next samplePlatform) w mixedRefreshes, (u.ctx .vault).jwks ≠ (w.ctx .vault).jwks :=
    sample_exists (by decide +kernel)
  obtain ⟨w,started,u,before,changed⟩ := evaluated
  exact ⟨w,started,u,before,changed,(refreshes_keep_caches started before).1⟩

end CacheIntegrity
