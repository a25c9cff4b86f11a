import Mathlib.Data.List.AList
import Mathlib.Logic.Function.Basic
import Apokryphos.OidcContexts
import Apokryphos.StepRuns

/-!
Scheduled and on-demand refreshes of the key sets, as tasks that share two
contexts. One action is one access to shared state, or the end of an await: the
clock is read, an atomic is loaded, exchanged or stored, a fetch resolves, a
wait ends, or a caller drops its future while it is suspended. Any number of
tasks on both contexts interleave in any order; the wall clock may move to any
reading, also backwards.
-/
namespace RefreshTasks
open MachineWords OidcContexts Outcomes ServerConfig SigningKeys StepRuns UrlTexts

inductive TaskKind where
  | scheduled
  | onDemand
  deriving DecidableEq, Repr

/-- Where a refresh stands. `claim` is the timestamp an on-demand winner wrote,
    absent for a scheduled refresh. `beaten` is the value a failed exchange
    found, which the source discards; it is absent for a caller inside the rate
    limit window. `since` is the clock when the request was sent. -/
inductive Phase where
  | readClock
  | loadClaim (now : UInt64)
  | exchange (now prev : UInt64)
  | startFetch (claim : Option UInt64)
  | fetching (claim : Option UInt64) (uri : Url) (since : UInt64)
  | loadOther (claim : Option UInt64) (new : Jwks)
  | storeJwks (claim : Option UInt64) (new seen : Jwks)
  | complete (claim : UInt64) (installed : Bool)
  | notify (claim : UInt64) (installed : Bool)
  | check (prev : UInt64) (beaten : Option UInt64)
  | register (prev : UInt64) (beaten : Option UInt64)
  | wait (prev : UInt64) (beaten : Option UInt64) (registered : Nat)
  | recheck (prev : UInt64) (beaten : Option UInt64)
  | finished (claim : Option UInt64) (result : Bool)
  | dropped
  deriving DecidableEq

structure Task where
  kind : TaskKind
  tag : AudienceTag
  phase : Phase
  deriving DecidableEq

structure World where
  clock : UInt64
  ctx : AudienceTag → OidcContext
  tasks : AList (fun _ : Nat => Task)

def World.task (w : World) (t : Nat) : Option Task := w.tasks.lookup t

def World.setTask (w : World) (t : Nat) (task : Task) : World :=
  { w with tasks := w.tasks.insert t task }

def World.setCtx (w : World) (tag : AudienceTag) (ctx : OidcContext) : World :=
  { w with ctx := Function.update w.ctx tag ctx }

def afterInstall (claim : Option UInt64) (installed : Bool) : Phase :=
  match claim with
  | some c => .complete c installed
  | none => .finished none installed

def advance (w : World) (t : Nat) (k : Task) : Option World :=
  let ctx := w.ctx k.tag
  let goto := fun phase => w.setTask t { k with phase := phase }
  match k.phase with
  | .readClock => some (goto (.loadClaim w.clock))
  | .loadClaim now =>
    let prev := ctx.lastOnDemandRefresh
    let cutoff := saturatingAdd prev ctx.authConfig.onDemandRefreshMinIntervalSecs
    if now < cutoff then some (goto (.check prev none)) else some (goto (.exchange now prev))
  | .exchange now prev =>
    if ctx.lastOnDemandRefresh = prev then
      some ((goto (.startFetch (some now))).setCtx k.tag { ctx with lastOnDemandRefresh := now })
    else some (goto (.check prev (some ctx.lastOnDemandRefresh)))
  | .startFetch claim => some (goto (.fetching claim ctx.discovery.jwksUri w.clock))
  | .loadOther claim new =>
    match ctx.other with
    | none => some (goto (afterInstall claim false))
    | some otherTag =>
      let seen := (w.ctx otherTag).jwks
      match checkDisjointJwks seen new ctx.tag with
      | .ok _ => some (goto (.storeJwks claim new seen))
      | .error _ => some (goto (afterInstall claim false))
  | .storeJwks claim new _ =>
    some ((goto (afterInstall claim true)).setCtx k.tag { ctx with jwks := new })
  | .complete claim installed =>
    some ((goto (.notify claim installed)).setCtx k.tag { ctx with lastRefreshCompleted := claim })
  | .notify claim installed =>
    some ((goto (.finished (some claim) installed)).setCtx k.tag
      { ctx with refreshNotify := ctx.refreshNotify + 1 })
  | .check prev beaten =>
    if prev ≤ ctx.lastRefreshCompleted then some (goto (.finished none true))
    else some (goto (.register prev beaten))
  | .register prev beaten => some (goto (.wait prev beaten ctx.refreshNotify))
  | .recheck prev _ => some (goto (.finished none (decide (prev ≤ ctx.lastRefreshCompleted))))
  | .wait prev beaten registered =>
    if registered < ctx.refreshNotify then some (goto (.recheck prev beaten)) else none
  | .fetching _ _ _ | .finished _ _ | .dropped => none

/-- A fetch resolves. A panic while parsing unwinds the task. -/
def resolveFetch (claim : Option UInt64) (outcome : HttpOutcome JwkSet) : Phase :=
  match fetchJwks outcome with
  | .ok new => .loadOther claim new
  | .error (.error _) => afterInstall claim false
  | .error .panicked => .dropped

inductive Action where
  | setClock (now : UInt64)
  | discoveryFetched (tag : AudienceTag) (outcome : HttpOutcome String)
  | spawn (t : Nat) (kind : TaskKind) (tag : AudienceTag)
  | advance (t : Nat)
  | fetched (t : Nat) (outcome : HttpOutcome JwkSet)
  | timeout (t : Nat)
  | drop (t : Nat)
  deriving DecidableEq

def Action.target : Action → Option Nat
  | .spawn t _ _ | .advance t | .fetched t _ | .timeout t | .drop t => some t
  | .setClock _ | .discoveryFetched _ _ => none

def entryPhase : TaskKind → Phase
  | .scheduled => .startFetch none
  | .onDemand => .readClock

def step (platform : Platform) (w : World) : Action → Option World
  -- The seconds of the system clock fit in a signed word, so they stay below `u64::MAX`.
  | .setClock now => if now < u64Max then some { w with clock := now } else none
  | .discoveryFetched tag outcome =>
    match fetchDiscovery platform (w.ctx tag).issuerUrl outcome with
    | .ok discovery => some (w.setCtx tag { w.ctx tag with discovery })
    | .error _ => some w
  | .spawn t kind tag =>
    if w.task t = none then some (w.setTask t ⟨kind, tag, entryPhase kind⟩) else none
  | .advance t => (w.task t).bind (advance w t)
  | .fetched t outcome => (w.task t).bind fun k =>
    match k.phase with
    | .fetching claim _ _ => some (w.setTask t { k with phase := resolveFetch claim outcome })
    | _ => none
  | .timeout t => (w.task t).bind fun k =>
    match k.phase with
    | .wait prev beaten _ => some (w.setTask t { k with phase := .recheck prev beaten })
    | _ => none
  -- Only a caller's future is dropped, and only where it is suspended.
  | .drop t => (w.task t).bind fun k =>
    match k.kind, k.phase with
    | .onDemand, .fetching _ _ _ => some (w.setTask t { k with phase := .dropped })
    | .onDemand, .wait _ _ _ => some (w.setTask t { k with phase := .dropped })
    | _, _ => none

def World.acting (w : World) : Action → Option Task
  | .advance t => w.task t
  | _ => none

/-- The task an action tears down: its future is dropped, or parsing panics. -/
def World.interrupted (w : World) : Action → Option Task
  | .drop t => w.task t
  | .fetched t outcome =>
    match fetchJwks outcome with
    | .error .panicked => w.task t
    | _ => none
  | _ => none

def boot (clock : UInt64) (vault admin : OidcContext) : World where
  clock := clock
  ctx := fun
    | .vault => vault
    | .admin => admin
  tasks := ∅

def Started (platform : Platform) (w : World) : Prop :=
  ∃ (p : PartialConfig) (cfg : Config) (vault admin : ProviderAnswers) (v a : OidcContext),
    validate platform.parsers platform.usizeMax p = .ok cfg ∧
    initContexts platform cfg vault admin = .ok (v, a) ∧
    w.clock < u64Max ∧ w = boot w.clock v a

structure Pristine (w : World) : Prop where
  clock_below : w.clock < u64Max
  idle : ∀ t, w.task t = none
  tagged : ∀ g, (w.ctx g).tag = g
  wired : ∀ g, (w.ctx g).other = some g.counterpart
  accepted : ∀ g, Accepted (w.ctx g).authConfig
  claim_zero : ∀ g, (w.ctx g).lastOnDemandRefresh = 0
  completed_zero : ∀ g, (w.ctx g).lastRefreshCompleted = 0
  apart : Separate (w.ctx .vault).jwks (w.ctx .admin).jwks

theorem started_pristine {platform : Platform} {w : World} (started : Started platform w) :
    Pristine w := by
  obtain ⟨p,cfg,vault,admin,v,a,valid,built,below,same⟩ := started
  obtain ⟨fv,fa,wv,wa,apart⟩ := initContexts_ok built
  have accepted := validate_accepted valid
  rw [same]
  exact {
    clock_below := below
    idle := fun _ => rfl
    tagged := by rintro ⟨⟩ <;> [exact fv.tag_eq; exact fa.tag_eq]
    wired := by rintro ⟨⟩ <;> [exact wv; exact wa]
    accepted := by
      rintro ⟨⟩
      · change Accepted v.authConfig
        rw [fv.config_eq]
        exact accepted
      · change Accepted a.authConfig
        rw [fa.config_eq]
        exact accepted
    claim_zero := by rintro ⟨⟩ <;> [exact fv.claim_zero; exact fa.claim_zero]
    completed_zero := by rintro ⟨⟩ <;> [exact fv.completed_zero; exact fa.completed_zero]
    apart := apart }

@[simp] theorem setTask_clock (w : World) (t : Nat) (k : Task) : (w.setTask t k).clock = w.clock :=
  rfl

@[simp] theorem setTask_ctx (w : World) (t : Nat) (k : Task) : (w.setTask t k).ctx = w.ctx := rfl

@[simp] theorem setCtx_clock (w : World) (tag : AudienceTag) (ctx : OidcContext) :
    (w.setCtx tag ctx).clock = w.clock := rfl

@[simp] theorem setCtx_task (w : World) (tag : AudienceTag) (ctx : OidcContext) :
    (w.setCtx tag ctx).task = w.task := rfl

@[simp] theorem setTask_task_same (w : World) (t : Nat) (k : Task) :
    (w.setTask t k).task t = some k :=
  AList.lookup_insert w.tasks

theorem setTask_task_other {w : World} {t u : Nat} {k : Task} (other : u ≠ t) :
    (w.setTask t k).task u = w.task u :=
  AList.lookup_insert_ne other

@[simp] theorem setCtx_ctx_same (w : World) (tag : AudienceTag) (ctx : OidcContext) :
    (w.setCtx tag ctx).ctx tag = ctx := by
  simp [World.setCtx]

theorem setCtx_ctx_other {w : World} {tag g : AudienceTag} {ctx : OidcContext} (other : g ≠ tag) :
    (w.setCtx tag ctx).ctx g = w.ctx g := by
  simp [World.setCtx, Function.update_of_ne other]

theorem setCtx_keeps {β : Type} (view : OidcContext → β) {w : World} {tag : AudienceTag}
    {ctx : OidcContext} (same : view ctx = view (w.ctx tag)) (g : AudienceTag) :
    view ((w.setCtx tag ctx).ctx g) = view (w.ctx g) := by
  by_cases own : g = tag
  · rw [own, setCtx_ctx_same]
    exact same
  · rw [setCtx_ctx_other own]

/-- What a task does to its own phase without writing shared state. -/
inductive Quiet (w : World) (t : Nat) (k : Task) : Action → Phase → Prop where
  | readClock (stands : k.phase = .readClock) : Quiet w t k (.advance t) (.loadClaim w.clock)
  | inWindow {now} (stands : k.phase = .loadClaim now) :
      Quiet w t k (.advance t) (.check (w.ctx k.tag).lastOnDemandRefresh none)
  | outOfWindow {now} (stands : k.phase = .loadClaim now)
      (late : saturatingAdd (w.ctx k.tag).lastOnDemandRefresh
        (w.ctx k.tag).authConfig.onDemandRefreshMinIntervalSecs ≤ now) :
      Quiet w t k (.advance t) (.exchange now (w.ctx k.tag).lastOnDemandRefresh)
  | lose {now prev} (stands : k.phase = .exchange now prev)
      (moved : (w.ctx k.tag).lastOnDemandRefresh ≠ prev) :
      Quiet w t k (.advance t) (.check prev (some (w.ctx k.tag).lastOnDemandRefresh))
  | startFetch {claim} (stands : k.phase = .startFetch claim) :
      Quiet w t k (.advance t) (.fetching claim (w.ctx k.tag).discovery.jwksUri w.clock)
  | fetched {claim uri since outcome new} (stands : k.phase = .fetching claim uri since)
      (answer : fetchJwks outcome = .ok new) :
      Quiet w t k (.fetched t outcome) (.loadOther claim new)
  | failed {claim uri since outcome error} (stands : k.phase = .fetching claim uri since)
      (answer : fetchJwks outcome = .error (.error error)) :
      Quiet w t k (.fetched t outcome) (afterInstall claim false)
  | panicked {claim uri since outcome} (stands : k.phase = .fetching claim uri since)
      (answer : fetchJwks outcome = .error .panicked) :
      Quiet w t k (.fetched t outcome) .dropped
  | refuse {claim new} (stands : k.phase = .loadOther claim new) :
      Quiet w t k (.advance t) (afterInstall claim false)
  | passCheck {claim new otherTag} (stands : k.phase = .loadOther claim new)
      (reach : (w.ctx k.tag).other = some otherTag) (apart : Separate (w.ctx otherTag).jwks new) :
      Quiet w t k (.advance t) (.storeJwks claim new (w.ctx otherTag).jwks)
  | caughtUp {prev beaten} (stands : k.phase = .check prev beaten)
      (seen : prev ≤ (w.ctx k.tag).lastRefreshCompleted) :
      Quiet w t k (.advance t) (.finished none true)
  | register {prev beaten} (stands : k.phase = .check prev beaten) :
      Quiet w t k (.advance t) (.register prev beaten)
  | enroll {prev beaten} (stands : k.phase = .register prev beaten) :
      Quiet w t k (.advance t) (.wait prev beaten (w.ctx k.tag).refreshNotify)
  | woken {prev beaten registered} (stands : k.phase = .wait prev beaten registered)
      (fired : registered < (w.ctx k.tag).refreshNotify) :
      Quiet w t k (.advance t) (.recheck prev beaten)
  | timeout {prev beaten registered} (stands : k.phase = .wait prev beaten registered) :
      Quiet w t k (.timeout t) (.recheck prev beaten)
  | recheck {prev beaten} (stands : k.phase = .recheck prev beaten) :
      Quiet w t k (.advance t)
        (.finished none (decide (prev ≤ (w.ctx k.tag).lastRefreshCompleted)))
  | dropFetch {claim uri since} (kind : k.kind = .onDemand)
      (stands : k.phase = .fetching claim uri since) : Quiet w t k (.drop t) .dropped
  | dropWait {prev beaten registered} (kind : k.kind = .onDemand)
      (stands : k.phase = .wait prev beaten registered) : Quiet w t k (.drop t) .dropped

inductive Writes (ctx : OidcContext) (phase : Phase) : Phase → OidcContext → Prop where
  | claim {now} (stands : phase = .exchange now ctx.lastOnDemandRefresh) :
      Writes ctx phase (.startFetch (some now)) { ctx with lastOnDemandRefresh := now }
  | install {claim new seen} (stands : phase = .storeJwks claim new seen) :
      Writes ctx phase (afterInstall claim true) { ctx with jwks := new }
  | complete {claim installed} (stands : phase = .complete claim installed) :
      Writes ctx phase (.notify claim installed) { ctx with lastRefreshCompleted := claim }
  | notify {claim installed} (stands : phase = .notify claim installed) :
      Writes ctx phase (.finished (some claim) installed)
        { ctx with refreshNotify := ctx.refreshNotify + 1 }

inductive Moves (w : World) : Action → World → Prop where
  | clock {now} (below : now < u64Max) : Moves w (.setClock now) { w with clock := now }
  | discover {tag outcome} (discovery : Discovery) :
      Moves w (.discoveryFetched tag outcome) (w.setCtx tag { w.ctx tag with discovery })
  | spawn {t kind tag} (free : w.task t = none) :
      Moves w (.spawn t kind tag) (w.setTask t ⟨kind, tag, entryPhase kind⟩)
  | quiet {t k action next} (found : w.task t = some k) (moved : Quiet w t k action next) :
      Moves w action (w.setTask t { k with phase := next })
  | write {t k next ctx} (found : w.task t = some k)
      (wrote : Writes (w.ctx k.tag) k.phase next ctx) :
      Moves w (.advance t) ((w.setTask t { k with phase := next }).setCtx k.tag ctx)

theorem advance_moves {w w' : World} {t : Nat} {k : Task} (found : w.task t = some k)
    (taken : advance w t k = some w') : Moves w (.advance t) w' := by
  unfold advance at taken
  split at taken
  case h_1 stands =>
    cases taken
    exact .quiet found (.readClock stands)
  case h_2 now stands =>
    dsimp only at taken
    split at taken
    · cases taken
      exact .quiet found (.inWindow stands)
    · rename_i late
      cases taken
      exact .quiet found (.outOfWindow stands (UInt64.not_lt.mp late))
  case h_3 now prev stands =>
    dsimp only at taken
    split at taken
    · rename_i same
      cases taken
      exact .write found (.claim (by rw [same]; exact stands))
    · rename_i moved
      cases taken
      exact .quiet found (.lose stands moved)
  case h_4 claim stands =>
    cases taken
    exact .quiet found (.startFetch stands)
  case h_5 claim new stands =>
    dsimp only at taken
    split at taken
    · cases taken
      exact .quiet found (.refuse stands)
    · rename_i otherTag reach
      split at taken
      · rename_i apart
        cases taken
        exact .quiet found (.passCheck stands reach (checkDisjointJwks_ok_iff.mp apart))
      · cases taken
        exact .quiet found (.refuse stands)
  case h_6 claim new seen stands =>
    cases taken
    exact .write found (.install stands)
  case h_7 claim installed stands =>
    cases taken
    exact .write found (.complete stands)
  case h_8 claim installed stands =>
    cases taken
    exact .write found (.notify stands)
  case h_9 prev beaten stands =>
    dsimp only at taken
    split at taken
    · rename_i seen
      cases taken
      exact .quiet found (.caughtUp stands seen)
    · cases taken
      exact .quiet found (.register stands)
  case h_10 prev beaten stands =>
    cases taken
    exact .quiet found (.enroll stands)
  case h_11 prev beaten stands =>
    cases taken
    exact .quiet found (.recheck stands)
  case h_12 prev beaten registered stands =>
    dsimp only at taken
    split at taken
    · rename_i fired
      cases taken
      exact .quiet found (.woken stands fired)
    · cases taken
  all_goals cases taken

theorem fetched_moves {w : World} {t : Nat} {k : Task} {claim : Option UInt64} {uri : Url}
    {since : UInt64} {outcome : HttpOutcome JwkSet} (found : w.task t = some k)
    (stands : k.phase = .fetching claim uri since) :
    Moves w (.fetched t outcome) (w.setTask t { k with phase := resolveFetch claim outcome }) := by
  unfold resolveFetch
  split
  · rename_i new answer
    exact .quiet found (.fetched stands answer)
  · rename_i error answer
    exact .quiet found (.failed stands answer)
  · rename_i answer
    exact .quiet found (.panicked stands answer)

theorem step_moves {platform : Platform} {w w' : World} {action : Action}
    (taken : step platform w action = some w') : Moves w action w' := by
  cases action with
  | setClock now =>
    simp only [step] at taken
    split at taken
    · rename_i below
      cases taken
      exact .clock below
    · cases taken
  | discoveryFetched tag outcome =>
    simp only [step] at taken
    split at taken
    · cases taken
      exact .discover _
    · cases taken
      have kept : w.setCtx tag { w.ctx tag with discovery := (w.ctx tag).discovery } = w := by
        simp [World.setCtx]
      have moved := @Moves.discover w tag outcome (w.ctx tag).discovery
      rwa [kept] at moved
  | spawn t kind tag =>
    simp only [step] at taken
    split at taken
    · rename_i free
      cases taken
      exact .spawn free
    · cases taken
  | advance t =>
    obtain ⟨k,found,taken⟩ := Option.bind_eq_some_iff.mp taken
    exact advance_moves found taken
  | fetched t outcome =>
    obtain ⟨k,found,taken⟩ := Option.bind_eq_some_iff.mp taken
    split at taken
    · rename_i claim uri since stands
      cases taken
      exact fetched_moves found stands
    · cases taken
  | timeout t =>
    obtain ⟨k,found,taken⟩ := Option.bind_eq_some_iff.mp taken
    split at taken
    · rename_i prev beaten registered stands
      cases taken
      exact .quiet found (.timeout stands)
    · cases taken
  | drop t =>
    obtain ⟨k,found,taken⟩ := Option.bind_eq_some_iff.mp taken
    split at taken
    · rename_i claim uri since kind stands
      cases taken
      exact .quiet found (.dropFetch kind stands)
    · rename_i prev beaten registered kind stands
      cases taken
      exact .quiet found (.dropWait kind stands)
    · cases taken

structure SameIdentity (a b : OidcContext) : Prop where
  tag : a.tag = b.tag
  issuer : a.issuerUrl = b.issuerUrl
  audience : a.audience = b.audience
  config : a.authConfig = b.authConfig
  other : a.other = b.other

theorem setCtx_identity {w : World} {tag : AudienceTag} {ctx : OidcContext}
    (same : SameIdentity ctx (w.ctx tag)) (g : AudienceTag) :
    SameIdentity ((w.setCtx tag ctx).ctx g) (w.ctx g) where
  tag := setCtx_keeps OidcContext.tag same.tag g
  issuer := setCtx_keeps OidcContext.issuerUrl same.issuer g
  audience := setCtx_keeps OidcContext.audience same.audience g
  config := setCtx_keeps OidcContext.authConfig same.config g
  other := setCtx_keeps OidcContext.other same.other g

theorem writes_identity {ctx ctx' : OidcContext} {phase next : Phase}
    (wrote : Writes ctx phase next ctx') : SameIdentity ctx' ctx := by
  cases wrote <;> constructor <;> rfl

theorem moves_identity {w w' : World} {action : Action} (moved : Moves w action w')
    (g : AudienceTag) : SameIdentity (w'.ctx g) (w.ctx g) := by
  cases moved with
  | clock | spawn | quiet => exact ⟨rfl, rfl, rfl, rfl, rfl⟩
  | discover =>
    apply setCtx_identity
    constructor <;> rfl
  | write found wrote => exact setCtx_identity (writes_identity wrote) g

theorem quiet_target {w : World} {t : Nat} {k : Task} {action : Action} {next : Phase}
    (moved : Quiet w t k action next) : action.target = some t := by
  cases moved <;> rfl

theorem moves_task {w w' : World} {action : Action} (moved : Moves w action w') (u : Nat) :
    (action.target ≠ some u ∧ w'.task u = w.task u) ∨
    (∃ kind tag, action = .spawn u kind tag ∧ w.task u = none ∧
      w'.task u = some ⟨kind, tag, entryPhase kind⟩) ∨
    ∃ k next, w.task u = some k ∧ w'.task u = some { k with phase := next } ∧
      (Quiet w u k action next ∨ action = .advance u ∧ Writes (w.ctx k.tag) k.phase next (w'.ctx k.tag)) := by
  cases moved with
  | clock | discover => exact .inl ⟨nofun,rfl⟩
  | @spawn t kind tag free =>
    by_cases same : u = t
    · subst same
      exact .inr (.inl ⟨kind,tag,rfl,free,setTask_task_same w u _⟩)
    · exact .inl ⟨fun aims => same (Option.some.inj aims).symm,setTask_task_other same⟩
  | @quiet t k action next found moved =>
    by_cases same : u = t
    · subst same
      exact .inr (.inr ⟨k,next,found,setTask_task_same w u _,.inl moved⟩)
    · refine .inl ⟨?_,setTask_task_other same⟩
      rw [quiet_target moved]
      exact fun aims => same (Option.some.inj aims).symm
  | @write t k next ctx found wrote =>
    by_cases same : u = t
    · subst same
      refine .inr (.inr ⟨k,next,found,setTask_task_same w u _,.inr ⟨rfl,?_⟩⟩)
      rw [setCtx_ctx_same]
      exact wrote
    · exact .inl ⟨fun aims => same (Option.some.inj aims).symm,setTask_task_other same⟩

inductive Over : Phase → Prop where
  | finished {claim result} : Over (.finished claim result)
  | dropped : Over .dropped

theorem quiet_underway {w : World} {t : Nat} {k : Task} {a : Action} {next : Phase}
    (quiet : Quiet w t k a next) : ¬ Over k.phase := by
  intro done
  generalize stands : k.phase = phase at done
  cases done <;> cases quiet <;> simp_all

theorem writes_underway {ctx ctx' : OidcContext} {phase next : Phase}
    (wrote : Writes ctx phase next ctx') : ¬ Over phase := by
  intro done
  cases done <;> cases wrote <;> simp_all

theorem over_rests {w w' : World} {a : Action} {task : Nat} {k : Task} (moves : Moves w a w')
    (found : w.task task = some k) (done : Over k.phase) : w'.task task = some k := by
  rcases moves_task moves task with ⟨_,same⟩ | ⟨_,_,_,free,_⟩ | ⟨l,next,before,_,how⟩
  · exact same.trans found
  · cases free.symm.trans found
  · cases before.symm.trans found
    rcases how with quiet | ⟨_,wrote⟩
    · exact absurd done (quiet_underway quiet)
    · exact absurd done (writes_underway wrote)

theorem moves_origin {w w' : World} {action : Action} (moved : Moves w action w')
    (holds : Phase → Prop) (entry : ∀ kind, ¬ holds (entryPhase kind)) {t : Nat} {k : Task}
    (found : w'.task t = some k) (here : holds k.phase) :
    ∃ l, w.task t = some l ∧ l.tag = k.tag ∧ l.kind = k.kind ∧
      (l = k ∨ Quiet w t l action k.phase ∨
        action = .advance t ∧ Writes (w.ctx k.tag) l.phase k.phase (w'.ctx k.tag)) := by
  rcases moves_task moved t with ⟨_,same⟩ | ⟨kind,tag,_,_,spawned⟩ | ⟨l,next,before,after,how⟩
  · rw [same] at found
    exact ⟨k,found,rfl,rfl,.inl rfl⟩
  · rw [spawned, Option.some.injEq] at found
    subst found
    exact absurd here (entry kind)
  · rw [after, Option.some.injEq] at found
    subst found
    exact ⟨l,before,rfl,rfl,.inr how⟩

theorem moves_ctx {w w' : World} {action : Action} (moved : Moves w action w') (g : AudienceTag) :
    ((w'.ctx g).jwks = (w.ctx g).jwks ∧
      (w'.ctx g).lastOnDemandRefresh = (w.ctx g).lastOnDemandRefresh ∧
      (w'.ctx g).lastRefreshCompleted = (w.ctx g).lastRefreshCompleted) ∨
    ∃ t k next, action = .advance t ∧ w.task t = some k ∧ k.tag = g ∧
      Writes (w.ctx g) k.phase next (w'.ctx g) ∧ w'.task t = some { k with phase := next } := by
  cases moved with
  | clock | spawn | quiet => exact .inl ⟨rfl,rfl,rfl⟩
  | @discover tag outcome discovery =>
    left
    by_cases own : g = tag
    · subst own
      rw [setCtx_ctx_same]
      exact ⟨rfl,rfl,rfl⟩
    · rw [setCtx_ctx_other own]
      exact ⟨rfl,rfl,rfl⟩
  | @write t k next ctx found wrote =>
    by_cases own : g = k.tag
    · subst own
      refine .inr ⟨t,k,next,rfl,found,rfl,?_,setTask_task_same w t _⟩
      rw [setCtx_ctx_same]
      exact wrote
    · rw [setCtx_ctx_other own]
      exact .inl ⟨rfl,rfl,rfl⟩

theorem moves_jwks {w w' : World} {action : Action} (moved : Moves w action w')
    (g : AudienceTag) :
    (w'.ctx g).jwks = (w.ctx g).jwks ∨
    ∃ t k claim new seen, action = .advance t ∧ w.task t = some k ∧ k.tag = g ∧
      k.phase = .storeJwks claim new seen ∧ (w'.ctx g).jwks = new := by
  rcases moves_ctx moved g with ⟨same,_,_⟩ | ⟨t,k,next,acts,found,own,wrote,_⟩
  · exact .inl same
  · generalize (w'.ctx g) = ctx at wrote
    cases wrote with
    | install stands => exact .inr ⟨t,k,_,_,_,acts,found,own,stands,rfl⟩
    | claim | complete | notify => exact .inl rfl

theorem moves_claim {w w' : World} {action : Action} (moved : Moves w action w')
    (g : AudienceTag) :
    (w'.ctx g).lastOnDemandRefresh = (w.ctx g).lastOnDemandRefresh ∨
    ∃ t k now, action = .advance t ∧ w.task t = some k ∧ k.tag = g ∧
      k.phase = .exchange now (w.ctx g).lastOnDemandRefresh ∧
      (w'.ctx g).lastOnDemandRefresh = now ∧
      w'.task t = some { k with phase := .startFetch (some now) } := by
  rcases moves_ctx moved g with ⟨_,same,_⟩ | ⟨t,k,next,acts,found,own,wrote,after⟩
  · exact .inl same
  · generalize (w'.ctx g) = ctx at wrote
    cases wrote with
    | claim stands => exact .inr ⟨t,k,_,acts,found,own,stands,rfl,after⟩
    | install | complete | notify => exact .inl rfl

theorem moves_completed {w w' : World} {action : Action} (moved : Moves w action w')
    (g : AudienceTag) :
    (w'.ctx g).lastRefreshCompleted = (w.ctx g).lastRefreshCompleted ∨
    ∃ t k claim installed, action = .advance t ∧ w.task t = some k ∧ k.tag = g ∧
      k.phase = .complete claim installed ∧ (w'.ctx g).lastRefreshCompleted = claim ∧
      w'.task t = some { k with phase := .notify claim installed } := by
  rcases moves_ctx moved g with ⟨_,_,same⟩ | ⟨t,k,next,acts,found,own,wrote,after⟩
  · exact .inl same
  · generalize (w'.ctx g) = ctx at wrote
    cases wrote with
    | complete stands => exact .inr ⟨t,k,_,_,acts,found,own,stands,rfl,after⟩
    | install | claim | notify => exact .inl rfl

def samplePlatform : Platform where
  parsers := {
    url := plainParser
    socketAddr := fun _ => .ok ⟨.v4 0x7F000001, 8443⟩
    ipNet := fun _ => .error "no address" }
  usizeMax := 2 ^ 64 - 1
  enforceHttps := true

def sampleOidc (issuer audience : String) : PartialOidc := ⟨some issuer, some audience⟩

/-- Every default, except that the on-demand refresh may run once a second. -/
def samplePartial : PartialConfig where
  bindAddress := some "127.0.0.1:8443"
  blockSizeBytes := some (.integer 4096)
  storageBackend := some "none"
  storage := none
  trustedProxies := some (.list [])
  drainTimeoutSecs := none
  vaultOidc := some (sampleOidc "https://vault.test" "vault")
  adminOidc := some (sampleOidc "https://admin.test" "admin")
  auth := some ⟨none, none, none, none, some (.integer 1), none, none⟩

def sampleKey (modulus : String) : RawJwk where
  keyAlgorithm := some .ps256
  keyId := none
  algorithm := .rsa modulus "AQAB"

def sampleKeys (modulus : String) : HttpOutcome JwkSet :=
  .responded 200 (some [sampleKey modulus])

def sampleAnswers (uri modulus : String) : ProviderAnswers where
  discovery := .responded 200 (some uri)
  jwks := sampleKeys modulus

def sampleContexts : Option (OidcContext × OidcContext) :=
  match validate samplePlatform.parsers samplePlatform.usizeMax samplePartial with
  | .error _ => none
  | .ok cfg =>
    (initContexts samplePlatform cfg (sampleAnswers "https://vault.test/keys" "AAAA")
      (sampleAnswers "https://admin.test/keys" "BBBB")).toOption

def sampleWorld : Option World := sampleContexts.map fun both => boot 100 both.1 both.2

theorem sample_started {w : World} (found : sampleWorld = some w) : Started samplePlatform w := by
  obtain ⟨both,built,rfl⟩ := Option.map_eq_some_iff.mp found
  unfold sampleContexts at built
  split at built
  · cases built
  · rename_i cfg valid
    have below : (100 : UInt64) < u64Max := by decide
    exact ⟨_,_,_,_,_,_,valid,toOption_some_iff.mp built,below,rfl⟩

theorem sample_exists {holds : World → Prop} [DecidablePred holds]
    (evaluates : sampleWorld.any (fun w => decide (holds w)) = true) :
    ∃ w, Started samplePlatform w ∧ holds w := by
  obtain ⟨w,found,decided⟩ := (Option.any_eq_true _ _).mp evaluates
  exact ⟨w,sample_started found,of_decide_eq_true decided⟩

end RefreshTasks
