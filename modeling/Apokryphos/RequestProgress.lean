import Mathlib.Data.Fintype.EquivFin
import Apokryphos.PeriodicLoops
import Apokryphos.ServedRequests

/-!
No request gets stuck. Every move of a refresh brings it closer to its end, and it
can always move: a fetch and a wait for another refresh time out. So a request can go
on by itself until it is answered, whatever the other requests, the providers and the
background tasks do or leave undone, and no more time has to pass than these timeouts
have. A request whose own refresh panics is lost.
-/
namespace RequestProgress
open GuardedRequests ServedRequests StepRuns
open PeriodicLoops (Timer)
open ReplayStore (Instant nanosPerSec)
open RefreshTasks (World Task)
open SigningKeys (HttpOutcome)

def httpTimeout : Nat := 30 * nanosPerSec

def waitTimeout (intervalSecs : UInt64) : Nat := (max (intervalSecs / 2) 1).toNat * nanosPerSec

section Refreshes
variable {platform : OidcContexts.Platform} {w w' : World} {task : Nat} {k : Task}

/-- How many moves a refresh has left at most, counting the time that it takes as one
    of them until its timeout is `due`. -/
def refreshRank (due : Bool) : RefreshTasks.Phase → Nat
  | .readClock => 11
  | .loadClaim _ => 10
  | .exchange _ _ => 9
  | .startFetch _ => 8
  | .fetching _ _ _ => if due then 6 else 7
  | .loadOther _ _ | .check _ _ => 5
  | .register _ _ => 4
  | .storeJwks _ _ _ => 3
  | .wait _ _ _ => if due then 2 else 3
  | .complete _ _ => 2
  | .notify _ _ | .recheck _ _ => 1
  | .finished _ _ | .dropped => 0

variable (due later : Bool)

theorem afterInstall_rank (claim : Option UInt64) (installed : Bool) :
    refreshRank due (RefreshTasks.afterInstall claim installed) < 3 := by
  cases claim <;> simp [RefreshTasks.afterInstall, refreshRank]

theorem afterInstall_undropped (claim : Option UInt64) (installed : Bool) :
    RefreshTasks.afterInstall claim installed ≠ .dropped := by
  cases claim <;> exact nofun

theorem quiet_rank {a : RefreshTasks.Action} {next : RefreshTasks.Phase}
    (quiet : RefreshTasks.Quiet w task k a next) : refreshRank later next < refreshRank due k.phase := by
  cases quiet with
  | @failed claim _ _ _ _ stands =>
    rw [stands]
    refine (afterInstall_rank later claim false).trans ?_
    simp only [refreshRank]
    split <;> omega
  | @refuse claim _ stands =>
    rw [stands]
    exact (afterInstall_rank later claim false).trans (by simp [refreshRank])
  | startFetch stands | fetched stands | panicked stands | enroll stands | woken stands | timeout stands
  | dropFetch _ stands | dropWait _ stands =>
    rw [stands]
    simp only [refreshRank]
    split <;> omega
  | readClock stands | inWindow stands | outOfWindow stands | lose stands | passCheck stands
  | caughtUp stands | register stands | recheck stands =>
    rw [stands]
    simp [refreshRank]

theorem writes_rank {ctx ctx' : OidcContexts.OidcContext} {phase next : RefreshTasks.Phase}
    (wrote : RefreshTasks.Writes ctx phase next ctx') :
    refreshRank later next < refreshRank due phase ∧ next ≠ .dropped := by
  cases wrote with
  | @install claim _ _ stands =>
    rw [stands]
    exact ⟨afterInstall_rank later claim true,afterInstall_undropped claim true⟩
  | claim stands | complete stands | notify stands =>
    rw [stands]
    exact ⟨by simp [refreshRank],nofun⟩

inductive Alone (task : Nat) : RefreshTasks.Action → Prop where
  | advance : Alone task (.advance task)
  | fetched : Alone task (.fetched task .failed)
  | timeout : Alone task (.timeout task)

theorem Alone.target {a : RefreshTasks.Action} (alone : Alone task a) : a.target = some task := by
  cases alone <;> rfl

theorem quiet_undropped {a : RefreshTasks.Action} {next : RefreshTasks.Phase} (alone : Alone task a)
    (quiet : RefreshTasks.Quiet w task k a next) : next ≠ .dropped := by
  cases quiet with
  | failed | refuse => exact afterInstall_undropped _ false
  | panicked _ answer =>
    cases alone
    cases answer
  | dropFetch | dropWait => cases alone
  | _ => exact nofun

theorem alone_moves {a : RefreshTasks.Action} (alone : Alone task a) (moves : RefreshTasks.Moves w a w')
    (found : w.task task = some k) :
    ∃ next, w'.task task = some { k with phase := next } ∧
      refreshRank later next < refreshRank due k.phase ∧ next ≠ .dropped := by
  rcases RefreshTasks.moves_task moves task with ⟨other,_⟩ | ⟨_,_,_,free,_⟩ | ⟨l,next,before,after,how⟩
  · exact absurd alone.target other
  · cases free.symm.trans found
  · cases before.symm.trans found
    refine ⟨next,after,?_⟩
    rcases how with quiet | ⟨_,wrote⟩
    · exact ⟨quiet_rank due later quiet,quiet_undropped alone quiet⟩
    · exact writes_rank due later wrote

/-- The phases that time ends, and how much time that takes at most. -/
inductive Suspended (wait : Nat) : RefreshTasks.Phase → Nat → Prop where
  | fetching {claim uri since} : Suspended wait (.fetching claim uri since) httpTimeout
  | wait {prev beaten registered} : Suspended wait (.wait prev beaten registered) wait

theorem quiet_suspends {a : RefreshTasks.Action} {next : RefreshTasks.Phase} {wait d : Nat}
    (quiet : RefreshTasks.Quiet w task k a next) (suspended : Suspended wait next d) :
    a = .advance task ∧ ((∃ prev beaten, k.phase = .register prev beaten) ∧ d = wait ∨
      (∃ claim, k.phase = .startFetch claim) ∧ d = httpTimeout) := by
  cases quiet with
  | enroll stands =>
    cases suspended
    exact ⟨rfl,.inl ⟨⟨_,_,stands⟩,rfl⟩⟩
  | startFetch stands =>
    cases suspended
    exact ⟨rfl,.inr ⟨⟨_,stands⟩,rfl⟩⟩
  | @failed claim | @refuse claim => cases claim <;> cases suspended
  | _ => cases suspended

theorem writes_awake {ctx ctx' : OidcContexts.OidcContext} {phase next : RefreshTasks.Phase} {wait d : Nat}
    (wrote : RefreshTasks.Writes ctx phase next ctx') : ¬ Suspended wait next d := by
  intro suspended
  cases wrote with
  | @install claim => cases claim <;> cases suspended
  | _ => cases suspended

theorem refresh_enabled (platform : OidcContexts.Platform) (wait : Nat) (found : w.task task = some k)
    (alive : k.phase ≠ .dropped) (unfinished : ∀ claim result, k.phase ≠ .finished claim result) :
    ∃ a w', Alone task a ∧ RefreshTasks.step platform w a = some w' ∧
      (a ≠ .advance task → ∃ d, Suspended wait k.phase d) := by
  have enabled {a : RefreshTasks.Action} (alone : Alone task a)
      (moves : (RefreshTasks.step platform w a).isSome = true)
      (ends : a ≠ .advance task → ∃ d, Suspended wait k.phase d) :
      ∃ a w', Alone task a ∧ RefreshTasks.step platform w a = some w' ∧
        (a ≠ .advance task → ∃ d, Suspended wait k.phase d) :=
    ⟨a,_,alone,(Option.some_get moves).symm,ends⟩
  cases stands : k.phase with
  | dropped => exact absurd stands alive
  | finished claim result => exact absurd stands (unfinished claim result)
  | fetching claim uri since =>
    rw [← stands]
    refine enabled .fetched ?_ fun _ => ⟨_,by rw [stands]; exact .fetching⟩
    simp only [RefreshTasks.step, found, Option.bind_some, stands, Option.isSome_some]
  | wait prev beaten registered =>
    rw [← stands]
    refine enabled .timeout ?_ fun _ => ⟨_,by rw [stands]; exact .wait⟩
    simp only [RefreshTasks.step, found, Option.bind_some, stands, Option.isSome_some]
  | _ =>
    rw [← stands]
    refine enabled .advance ?_ fun other => absurd rfl other
    simp only [RefreshTasks.step, found, Option.bind_some, RefreshTasks.advance, stands]
    repeat' split
    all_goals rfl

theorem moves_known {a : RefreshTasks.Action} (moves : RefreshTasks.Moves w a w') (found : w.task task = some k) :
    ∃ k', w'.task task = some k' := by
  rcases RefreshTasks.moves_task moves task with ⟨_,same⟩ | ⟨_,_,_,free,_⟩ | ⟨_,_,_,after,_⟩
  · exact ⟨k,same.trans found⟩
  · cases free.symm.trans found
  · exact ⟨_,after⟩

theorem task_free (w : World) : ∃ task, w.task task = none := by
  obtain ⟨task,fresh⟩ := Infinite.exists_notMem_finset w.tasks.keys.toFinset
  exact ⟨task,AList.lookup_eq_none.mpr fun known => fresh (List.mem_toFinset.mpr known)⟩

end Refreshes

section Servers
variable {d : Deployment} {start s t : Server}

def Backed (s : Server) : Prop :=
  ∀ id v o first task, s.visit id = some v → v.phase = .refreshing o first task →
    ∃ k, s.world.task task = some k

theorem step_known {a : Action} (taken : step d s a = some t) {task : Nat} {k : Task}
    (found : s.world.task task = some k) : ∃ k', t.world.task task = some k' := by
  rcases step_world taken with same | ⟨action,moved,_⟩
  · rw [same]
    exact ⟨k,found⟩
  · exact moves_known (RefreshTasks.step_moves moved) found

theorem proceed_unsuspended {v : Visit} {next : Phase × ReplayStore.JtiReplayStore}
    (taken : proceed d s v = some next) {o : Opening} {first : TokenValidation.AuthFailure} {task : Nat} :
    next.1 ≠ .refreshing o first task := by
  intro waits
  have advances : Advances d s v next.1 := proceed_advances taken
  rw [waits] at advances
  cases advances with
  | suspended stands =>
    unfold proceed at taken
    rw [stands] at taken
    cases taken

theorem startRefresh_known {id task : Nat} (taken : step d s (.startRefresh id task) = some t) :
    ∃ k, t.world.task task = some k := by
  obtain ⟨v,_,rest⟩ := Option.bind_eq_some_iff.mp taken
  split at rest
  · obtain ⟨w,spawned,rfl⟩ := Option.map_eq_some_iff.mp rest
    simp only [RefreshTasks.step, Option.ite_none_right_eq_some] at spawned
    cases spawned.2
    exact ⟨_,RefreshTasks.setTask_task_same _ task _⟩
  · cases rest

theorem step_backed {a : Action} (backed : Backed s) (taken : step d s a = some t) : Backed t := by
  intro id v o first task found stands
  have moves := step_moves taken id
  rw [found] at moves
  generalize before : s.visit id = u at moves
  cases moves with
  | elsewhere other =>
    obtain ⟨k,known⟩ := backed id v o first task before stands
    exact step_known taken known
  | arrived => cases stands
  | proceeded proceeds => exact absurd stands (proceed_unsuspended proceeds)
  | suspended =>
    cases stands
    exact startRefresh_known taken
  | abandoned => cases stands

theorem reachable_backed (started : Started d start) {actions : List Action}
    (taken : run (step d) start actions = some s) : Backed s := by
  refine run_invariant Backed step_backed ?_ taken
  intro id v _ _ _ found
  unfold Server.visit at found
  rw [started.visits] at found
  cases found

end Servers

section Timeouts
variable {S : Type}

structure Timed (S : Type) where
  site : Site S
  deadline : Nat → Instant

namespace Timed

def idle (site : Site S) : Timed S := ⟨site, fun _ => 0⟩

def now (s : Timed S) : Instant := s.site.server.instant

def due (s : Timed S) (task : Nat) : Bool := decide (s.deadline task ≤ s.now)

/-- No wait times out before its deadline. A refresh is dropped only along with its
    request. -/
def permits (s : Timed S) : ServedRequests.Event → Bool
  | .act (.refresh (.timeout task)) => s.due task
  | .act (.refresh (.drop _)) => false
  | _ => true

def allowance (s : Timed S) (k : Task) : Option Nat :=
  match k.phase with
  | .startFetch _ => some httpTimeout
  | .register _ _ =>
    some (waitTimeout (s.site.server.world.ctx k.tag).authConfig.onDemandRefreshMinIntervalSecs)
  | _ => none

def deadlines (timer : Timer) (s : Timed S) : ServedRequests.Event → Nat → Instant
  | .act (.refresh (.advance task)) =>
    match (s.site.server.world.task task).bind s.allowance with
    | some d => Function.update s.deadline task (timer.sleep s.now d)
    | none => s.deadline
  | _ => s.deadline

end Timed

def timedStep (c : SiteConfig) (provider : BlockStorage.StorageProvider S) (timer : Timer) (s : Timed S)
    (e : ServedRequests.Event) : Option (Timed S) :=
  if s.permits e then (siteStep c provider s.site e).map fun site => ⟨site, s.deadlines timer e⟩
  else none

def patience (w : World) : Nat :=
  max (waitTimeout (w.ctx .vault).authConfig.onDemandRefreshMinIntervalSecs)
    (waitTimeout (w.ctx .admin).authConfig.onDemandRefreshMinIntervalSecs)

theorem waitTimeout_le (w : World) (tag : ServerConfig.AudienceTag) :
    waitTimeout (w.ctx tag).authConfig.onDemandRefreshMinIntervalSecs ≤ patience w := by
  cases tag
  · exact Nat.le_max_left _ _
  · exact Nat.le_max_right _ _

variable {c : SiteConfig} {provider : BlockStorage.StorageProvider S} {timer : Timer} {start s t : Timed S}
  {e : ServedRequests.Event} {events : List ServedRequests.Event}

theorem timed_cases (taken : timedStep c provider timer s e = some t) :
    s.permits e = true ∧ siteStep c provider s.site e = some t.site ∧ t.deadline = s.deadlines timer e := by
  simp only [timedStep, Option.ite_none_right_eq_some, Option.map_eq_some_iff] at taken
  obtain ⟨allowed,site,moved,rfl⟩ := taken
  exact ⟨allowed,moved,rfl⟩

theorem timed_site_run (taken : run (timedStep c provider timer) start events = some s) :
    ∃ visits, run (siteStep c provider) start.site visits = some s.site := by
  refine run_invariant (fun s => ∃ visits, run (siteStep c provider) start.site visits = some s.site) ?_
    ⟨[],rfl⟩ taken
  rintro s e t ⟨visits,reached⟩ next
  exact ⟨visits ++ [e],run_snoc reached (timed_cases next).2.1⟩

theorem timed_patience (taken : timedStep c provider timer s e = some t) :
    patience t.site.server.world = patience s.site.server.world := by
  rcases siteStep_world (timed_cases taken).2.1 with same | ⟨action,moves,_⟩
  · rw [same]
  · unfold patience
    rw [(RefreshTasks.moves_identity moves .vault).config, (RefreshTasks.moves_identity moves .admin).config]

theorem run_patience {site : Site S} (taken : run (timedStep c provider timer) (.idle site) events = some s) :
    patience s.site.server.world = patience site.server.world := by
  have begins : patience (Timed.idle site).site.server.world = patience site.server.world := rfl
  have kept := run_invariant (fun s : Timed S => patience s.site.server.world = patience site.server.world)
    (fun same next => (timed_patience next).trans same) begins taken
  exact kept

theorem deadlines_kept (timer : Timer) (e : ServedRequests.Event) {task : Nat} {k : Task}
    (found : s.site.server.world.task task = some k) {wait d : Nat} (suspended : Suspended wait k.phase d) :
    s.deadlines timer e task = s.deadline task := by
  have unmoved : s.allowance k = none := by
    unfold Timed.allowance
    cases stands : k.phase <;> first | rfl | (rw [stands] at suspended; cases suspended)
  unfold Timed.deadlines
  split
  · rename_i other
    by_cases own : task = other
    · subst own
      rw [found, Option.bind_some, unmoved]
    · cases (s.site.server.world.task other).bind s.allowance with
      | none => rfl
      | some d => exact Function.update_of_ne own _ _
  · rfl

theorem suspended_since {task : Nat} {k : Task} {d : Nat} (taken : timedStep c provider timer s e = some t)
    (found : t.site.server.world.task task = some k)
    (suspended : Suspended (patience s.site.server.world) k.phase d) :
    s.site.server.world.task task = some k ∧ t.deadline task = s.deadline task ∨
      ∃ less, less ≤ d ∧ t.deadline task = timer.sleep s.now less := by
  obtain ⟨_,moved,set⟩ := timed_cases taken
  rw [set]
  have waited (before : s.site.server.world.task task = some k) :
      s.site.server.world.task task = some k ∧ s.deadlines timer e task = s.deadline task :=
    ⟨before,deadlines_kept timer e before suspended⟩
  rcases siteStep_world moved with same | ⟨action,moves,cause⟩
  · rw [same] at found
    exact .inl (waited found)
  · rcases RefreshTasks.moves_task moves task with ⟨_,same⟩ | ⟨kind,_,_,_,after⟩ | ⟨l,next,before,after,how⟩
    · rw [same] at found
      exact .inl (waited found)
    · cases after.symm.trans found
      cases kind <;> cases suspended
    · cases after.symm.trans found
      rcases how with quiet | ⟨_,wrote⟩
      · obtain ⟨rfl,began⟩ := quiet_suspends quiet suspended
        rcases cause with rfl | impossible
        · refine .inr ?_
          rcases began with ⟨⟨prev,beaten,stands⟩,rfl⟩ | ⟨⟨claim,stands⟩,rfl⟩
          · refine ⟨_,waitTimeout_le s.site.server.world l.tag,?_⟩
            simp only [Timed.deadlines, before, Option.bind_some, Timed.allowance, stands,
              Function.update_self]
          · refine ⟨_,le_refl _,?_⟩
            simp only [Timed.deadlines, before, Option.bind_some, Timed.allowance, stands,
              Function.update_self]
        · exact absurd rfl (impossible task)
      · exact absurd suspended (writes_awake wrote)

/-- No refresh is suspended for longer than its timeout. -/
def Punctual (s : Timed S) : Prop :=
  ∀ task k d, s.site.server.world.task task = some k → Suspended (patience s.site.server.world) k.phase d →
    s.deadline task ≤ s.now + d

theorem timed_punctual (punctual : Punctual s) (taken : timedStep c provider timer s e = some t) :
    Punctual t := by
  intro task k d found suspended
  have later : s.now ≤ t.now := siteStep_later (timed_cases taken).2.1
  rw [timed_patience taken] at suspended
  rcases suspended_since taken found suspended with ⟨before,same⟩ | ⟨less,within,begun⟩
  · rw [same]
    exact (punctual task k d before suspended).trans (Nat.add_le_add_right later d)
  · rw [begun]
    calc timer.sleep s.now less
      _ ≤ s.now + less := timer.sleep_before _ _
      _ ≤ t.now + d := Nat.add_le_add later within

theorem reachable_punctual {site : Site S} (started : StartedSite c site)
    (taken : run (timedStep c provider timer) (.idle site) events = some s) : Punctual s := by
  refine run_invariant Punctual timed_punctual ?_ taken
  intro task k d found
  cases ((RefreshTasks.started_pristine started.server.world).idle task).symm.trans found

end Timeouts

section Requests
variable {S : Type} {c : SiteConfig} {provider : BlockStorage.StorageProvider S} {timer : Timer}
  {site : Site S} {s t : Timed S} {events : List ServedRequests.Event} {id task : Nat} {v : Visit}
  {base : Instant}

def phaseRank (due : Nat → Bool) (w : World) : Phase → Nat
  | .entered => 19
  | .decode _ => 18
  | .needsRefresh _ _ => 17
  | .refreshing _ _ task => 5 + ((w.task task).map fun k => refreshRank (due task) k.phase).getD 0
  | .decodeAgain _ _ => 4
  | .claims _ _ => 3
  | .proof _ _ => 2
  | .answered _ => 1
  | .abandoned => 0

def requestRank (s : Timed S) (id : Nat) : Nat :=
  if belonging id s.site.responses = [] then
    ((s.site.server.visit id).map fun v => phaseRank s.due s.site.server.world v.phase).getD 0
  else 0

def Gone (s : Site S) (id : Nat) : Prop :=
  id ∈ s.lost ∨ ∃ v, s.server.visit id = some v ∧ v.phase = .abandoned

def Crashed (s : Site S) (id : Nat) : Prop :=
  ∃ v o first task k, s.server.visit id = some v ∧ v.phase = .refreshing o first task ∧
    s.server.world.task task = some k ∧ k.phase = .dropped

/-- The steps of a request by itself: its own, those of its refresh, which ends its
    fetch or its wait when it is due, its handler, and time that passes up to an
    instant. -/
inductive Own (id task : Nat) (latest : Instant) (s : Timed S) : ServedRequests.Event → Prop where
  | proceed : Own id task latest s (.act (.proceed id))
  | startRefresh : Own id task latest s (.act (.startRefresh id task))
  | refresh {a} (alone : Alone task a) (due : a ≠ .advance task → s.due task = true) :
      Own id task latest s (.act (.refresh a))
  | handle : Own id task latest s (.handle id (.complete []))
  | wait {instant} (soon : instant ≤ latest) : Own id task latest s (.act (.passTime instant))

def Assigned (w : World) (task : Nat) : Phase → Prop
  | .entered | .decode _ | .needsRefresh _ _ => w.task task = none
  | .refreshing _ _ own => own = task
  | .decodeAgain _ _ | .claims _ _ | .proof _ _ | .answered _ | .abandoned => True

/-- The request can go on, and no time has passed since `base` but that of its fetch. -/
structure Underway (c : SiteConfig) (provider : BlockStorage.StorageProvider S) (timer : Timer) (site : Site S)
    (base : Instant) (id task : Nat) (s : Timed S) : Prop where
  reached : ∃ events, run (timedStep c provider timer) (.idle site) events = some s
  arrived : ∃ arrival, s.site.arrival id = some arrival
  stays : ¬ Gone s.site id
  sound : ¬ Crashed s.site id
  assigned : ∀ v, s.site.server.visit id = some v → Assigned s.site.server.world task v.phase
  early : 12 ≤ requestRank s id → s.now ≤ base
  soon : 8 ≤ requestRank s id → s.now ≤ base + httpTimeout

theorem active_rank {due : Nat → Bool} {w : World} {phase : Phase} (active : phase.active = true) :
    1 < phaseRank due w phase := by
  cases phase with
  | answered | abandoned => cases active
  | refreshing =>
    simp only [phaseRank]
    omega
  | _ => simp [phaseRank]

theorem proceed_active {d : Deployment} {u : Server} {next : Phase × ReplayStore.JtiReplayStore}
    (taken : proceed d u v = some next) : v.phase.active = true := by
  cases stands : v.phase with
  | answered | abandoned =>
    unfold proceed at taken
    rw [stands] at taken
    cases taken
  | _ => rfl

theorem proceed_stays {d : Deployment} {u : Server} {next : Phase × ReplayStore.JtiReplayStore}
    (taken : proceed d u v = some next) : next.1 ≠ .abandoned := by
  unfold proceed at taken
  cases stands : v.phase with
  | proof o token =>
    rw [stands] at taken
    dsimp only at taken
    split at taken <;> cases taken <;> exact nofun
  | refreshing o first task =>
    rw [stands] at taken
    obtain ⟨result,_,rfl⟩ := Option.map_eq_some_iff.mp taken
    cases result <;> exact nofun
  | needsRefresh | answered | abandoned =>
    rw [stands] at taken
    cases taken
  | entered | decode | decodeAgain | claims =>
    rw [stands] at taken
    dsimp only at taken
    split at taken
    all_goals first
      | (cases taken; exact nofun)
      | (split at taken <;> cases taken <;> exact nofun)

theorem proceed_rank (task : Nat) (due later : Nat → Bool) {d : Deployment} {u : Server}
    {next : Phase × ReplayStore.JtiReplayStore} (taken : proceed d u v = some next) :
    phaseRank later u.world next.1 < phaseRank due u.world v.phase ∧
      (Assigned u.world task v.phase → Assigned u.world task next.1) := by
  have active : 1 < phaseRank due u.world v.phase := active_rank (proceed_active taken)
  have advances : Advances d u v next.1 := proceed_advances taken
  cases same : next.1 with
  | abandoned => exact absurd same (proceed_stays taken)
  | refreshing => exact absurd same (proceed_unsuspended taken)
  | answered => exact ⟨active,fun _ => trivial⟩
  | entered =>
    rw [same] at advances
    cases advances
  | decode o =>
    rw [same] at advances
    cases advances with
    | opened stands =>
      rw [stands]
      exact ⟨by simp [phaseRank],id⟩
  | needsRefresh o first =>
    rw [same] at advances
    cases advances with
    | failed stands =>
      rw [stands]
      exact ⟨by simp [phaseRank],id⟩
  | decodeAgain o first =>
    rw [same] at advances
    cases advances with
    | refreshed stands =>
      rw [stands]
      refine ⟨?_,fun _ => trivial⟩
      simp only [phaseRank]
      omega
  | claims o found =>
    rw [same] at advances
    cases advances with
    | decoded stands =>
      rcases stands with stands | ⟨first,stands⟩ <;> rw [stands] <;>
        exact ⟨by simp [phaseRank],fun _ => trivial⟩
  | proof o token =>
    rw [same] at advances
    cases advances with
    | checked stands =>
      rw [stands]
      exact ⟨by simp [phaseRank],fun _ => trivial⟩

theorem requestRank_waits (unanswered : belonging id s.site.responses = [])
    (found : s.site.server.visit id = some v) :
    requestRank s id = phaseRank s.due s.site.server.world v.phase := by
  simp only [requestRank, if_pos unanswered, found, Option.map_some, Option.getD_some]

theorem requestRank_le (found : s.site.server.visit id = some v) :
    requestRank s id ≤ phaseRank s.due s.site.server.world v.phase := by
  unfold requestRank
  split
  · rw [found]
    exact le_refl _
  · exact Nat.zero_le _

theorem Underway.next {e : ServedRequests.Event} (underway : Underway c provider timer site base id task s)
    (taken : timedStep c provider timer s e = some t) (arrivals : t.site.arrivals = s.site.arrivals)
    (lost : t.site.lost = s.site.lost) (found : t.site.server.visit id = some v) (kept : v.phase ≠ .abandoned)
    (alive : ∀ o first task k, v.phase = .refreshing o first task →
      t.site.server.world.task task = some k → k.phase ≠ .dropped)
    (assigned : Assigned t.site.server.world task v.phase) (early : 12 ≤ requestRank t id → t.now ≤ base)
    (soon : 8 ≤ requestRank t id → t.now ≤ base + httpTimeout) :
    Underway c provider timer site base id task t where
  reached := by
    obtain ⟨events,reached⟩ := underway.reached
    exact ⟨events ++ [e],run_snoc reached taken⟩
  arrived := by
    unfold Site.arrival
    rw [arrivals]
    exact underway.arrived
  stays := by
    rintro (left | ⟨u,seen,gone⟩)
    · exact underway.stays (.inl (lost ▸ left))
    · cases seen.symm.trans found
      exact kept gone
  sound := by
    rintro ⟨u,o,first,other,k,seen,waits,known,dropped⟩
    cases seen.symm.trans found
    exact alive o first other k waits known dropped
  assigned := by
    intro u seen
    cases seen.symm.trans found
    exact assigned
  early := early
  soon := soon

theorem Underway.instantly {e : ServedRequests.Event} (underway : Underway c provider timer site base id task s)
    (taken : timedStep c provider timer s e = some t) (arrivals : t.site.arrivals = s.site.arrivals)
    (lost : t.site.lost = s.site.lost) (found : t.site.server.visit id = some v) (kept : v.phase ≠ .abandoned)
    (alive : ∀ o first task k, v.phase = .refreshing o first task →
      t.site.server.world.task task = some k → k.phase ≠ .dropped)
    (assigned : Assigned t.site.server.world task v.phase) (now : t.now = s.now)
    (less : requestRank t id < requestRank s id) : Underway c provider timer site base id task t := by
  refine underway.next taken arrivals lost found kept alive assigned (fun far => ?_) fun far => ?_
  · rw [now]
    exact underway.early (far.trans less.le)
  · rw [now]
    exact underway.soon (far.trans less.le)

theorem timed_step (timer : Timer) {e : ServedRequests.Event} {u : Site S}
    (taken : siteStep c provider s.site e = some u) (allowed : s.permits e = true) :
    timedStep c provider timer s e = some ⟨u, s.deadlines timer e⟩ := by
  simp only [timedStep, if_pos allowed, taken, Option.map_some]

theorem act_site (provider : BlockStorage.StorageProvider S) (timer : Timer) {a : Action} {u : Server}
    (moved : step c.deployment s.site.server a = some u) (allowed : s.permits (.act a) = true)
    (inner : ∀ id guard request, a ≠ .arrive id guard request) :
    ∃ t, timedStep c provider timer s (.act a) = some t ∧ t.site.server = u ∧
      t.site.arrivals = s.site.arrivals ∧ t.site.lost = s.site.lost ∧
      t.deadline = s.deadlines timer (.act a) := by
  have taken := siteStep_act c provider s.site inner
  rw [moved] at taken
  refine ⟨_,timed_step timer taken allowed,?_⟩
  cases turnsAway c.deployment s.site.server a <;> exact ⟨rfl,rfl,rfl,rfl⟩

def Closer (c : SiteConfig) (provider : BlockStorage.StorageProvider S) (timer : Timer) (site : Site S)
    (base : Instant) (id task : Nat) (s : Timed S) : Prop :=
  ∃ e t, Own id task (base + httpTimeout + patience site.server.world) s e ∧ timedStep c provider timer s e = some t ∧
    Underway c provider timer site base id task t ∧ requestRank t id < requestRank s id

theorem proceed_closer (underway : Underway c provider timer site base id task s)
    (unanswered : belonging id s.site.responses = []) (found : s.site.server.visit id = some v)
    {next : Phase × ReplayStore.JtiReplayStore} (goes : proceed c.deployment s.site.server v = some next) :
    Closer c provider timer site base id task s := by
  have moved : step c.deployment s.site.server (.proceed id) =
      some { s.site.server.setVisit id { v with phase := next.1 } with replay := next.2 } := by
    simp only [step, found, Option.bind_some, goes, Option.map_some]
  obtain ⟨t,taken,server,arrivals,lost,_⟩ := act_site provider timer moved rfl (by simp)
  have after : t.site.server.visit id = some { v with phase := next.1 } := by
    rw [server]
    exact setVisit_same s.site.server id _
  have world : t.site.server.world = s.site.server.world := by rw [server]; rfl
  have now : t.now = s.now := by unfold Timed.now; rw [server]; rfl
  obtain ⟨less,kept⟩ := proceed_rank task s.due t.due goes
  have closer : requestRank t id < requestRank s id := by
    rw [requestRank_waits unanswered found]
    refine Nat.lt_of_le_of_lt (requestRank_le after) ?_
    rw [world]
    exact less
  refine ⟨_,t,.proceed,taken,underway.instantly taken arrivals lost after (proceed_stays goes) ?_ ?_
    now closer,closer⟩
  · exact fun o first other k waits => absurd waits (proceed_unsuspended goes)
  · rw [world]
    exact kept (underway.assigned v found)

theorem startRefresh_closer (underway : Underway c provider timer site base id task s)
    (unanswered : belonging id s.site.responses = []) (found : s.site.server.visit id = some v) {o : Opening}
    {first : TokenValidation.AuthFailure} (stands : v.phase = .needsRefresh o first) :
    Closer c provider timer site base id task s := by
  have free : s.site.server.world.task task = none := by
    have assigned := underway.assigned v found
    rw [stands] at assigned
    exact assigned
  let k : Task := ⟨.onDemand, v.guard.tag, .readClock⟩
  have moved : step c.deployment s.site.server (.startRefresh id task) =
      some { s.site.server.setVisit id { v with phase := .refreshing o first task } with
        world := s.site.server.world.setTask task k } := by
    simp only [step, found, Option.bind_some, stands, RefreshTasks.step, if_pos free, Option.map_some,
      RefreshTasks.entryPhase, k]
  obtain ⟨t,taken,server,arrivals,lost,_⟩ := act_site provider timer moved rfl (by simp)
  have after : t.site.server.visit id = some { v with phase := .refreshing o first task } := by
    rw [server]
    exact setVisit_same s.site.server id _
  have known : t.site.server.world.task task = some k := by
    rw [server]
    exact RefreshTasks.setTask_task_same _ task k
  have now : t.now = s.now := by unfold Timed.now; rw [server]; rfl
  have closer : requestRank t id < requestRank s id := by
    rw [requestRank_waits unanswered found, stands]
    refine Nat.lt_of_le_of_lt (requestRank_le after) ?_
    simp only [phaseRank, known, Option.map_some, Option.getD_some, k, refreshRank]
    omega
  refine ⟨_,t,.startRefresh,taken,underway.instantly taken arrivals lost after (by simp) ?_ rfl
    now closer,closer⟩
  intro o' first' other k' waits seen
  cases waits
  cases seen.symm.trans known
  simp

theorem alone_permitted {a : RefreshTasks.Action} (alone : Alone task a)
    (settled : a ≠ .advance task → s.due task = true) : s.permits (.act (.refresh a)) = true := by
  cases alone with
  | timeout => exact settled nofun
  | advance | fetched => rfl

theorem refresh_closer (underway : Underway c provider timer site base id task s)
    (unanswered : belonging id s.site.responses = []) (found : s.site.server.visit id = some v) {o : Opening}
    {first : TokenValidation.AuthFailure} (stands : v.phase = .refreshing o first task) {k : Task}
    (known : s.site.server.world.task task = some k) (unfinished : ∀ claim result, k.phase ≠ .finished claim result)
    {wait : Nat} (settled : ∀ d, Suspended wait k.phase d → s.due task = true) :
    Closer c provider timer site base id task s := by
  have alive : k.phase ≠ .dropped := fun dropped =>
    underway.sound ⟨v,o,first,task,k,found,stands,known,dropped⟩
  obtain ⟨a,w,alone,refreshes,ends⟩ := refresh_enabled c.deployment.platform wait known alive unfinished
  have due (other : a ≠ .advance task) : s.due task = true := by
    obtain ⟨d,suspended⟩ := ends other
    exact settled d suspended
  have moved : step c.deployment s.site.server (.refresh a) = some { s.site.server with world := w } := by
    simp only [step, refreshes, Option.map_some]
  obtain ⟨t,taken,server,arrivals,lost,_⟩ := act_site provider timer moved (alone_permitted alone due) (by simp)
  obtain ⟨next,after,less,undropped⟩ :=
    alone_moves (s.due task) (t.due task) alone (RefreshTasks.step_moves refreshes) known
  have same : t.site.server.visit id = some v := by
    rw [server]
    exact found
  have world : t.site.server.world = w := by rw [server]
  have now : t.now = s.now := by unfold Timed.now; rw [server]
  have closer : requestRank t id < requestRank s id := by
    rw [requestRank_waits unanswered found]
    refine Nat.lt_of_le_of_lt (requestRank_le same) ?_
    rw [stands, world]
    simp only [phaseRank, after, known, Option.map_some, Option.getD_some]
    omega
  refine ⟨_,t,.refresh alone due,taken,underway.instantly taken arrivals lost same ?_ ?_ ?_ now closer,closer⟩
  · rw [stands]
    simp
  · intro o' first' other k' waits seen
    cases stands.symm.trans waits
    rw [world, after] at seen
    cases seen
    exact undropped
  · rw [stands]
    rfl

theorem suspended_rank {phase : RefreshTasks.Phase} {wait d : Nat} (suspended : Suspended wait phase d) :
    5 + refreshRank false phase = 12 ∧ 5 + refreshRank true phase = 11 ∧ d = httpTimeout ∨
    5 + refreshRank false phase = 8 ∧ 5 + refreshRank true phase = 7 ∧ d = wait := by
  cases suspended with
  | fetching => exact .inl ⟨rfl,rfl,rfl⟩
  | wait => exact .inr ⟨rfl,rfl,rfl⟩

/-- How long a request waits, and what is left to it then. -/
theorem Underway.bounds (underway : Underway c provider timer site base id task s) {phase : RefreshTasks.Phase}
    {wait d left : Nat} (suspended : Suspended wait phase d)
    (before : requestRank s id = 5 + refreshRank false phase) (after : left ≤ 5 + refreshRank true phase)
    {deadline : Instant} (punctual : deadline ≤ s.now + d) :
    left < requestRank s id ∧ left < 12 ∧ (8 ≤ left → deadline ≤ base + httpTimeout) ∧
      deadline ≤ base + httpTimeout + wait := by
  rcases suspended_rank suspended with ⟨held,ended,rfl⟩ | ⟨held,ended,rfl⟩
  · have begins : s.now ≤ base := underway.early (by omega)
    have ends : deadline ≤ base + httpTimeout := punctual.trans (Nat.add_le_add_right begins _)
    exact ⟨by omega,by omega,fun _ => ends,ends.trans (Nat.le_add_right _ _)⟩
  · have begins : s.now ≤ base + httpTimeout := underway.soon (by omega)
    exact ⟨by omega,by omega,fun far => absurd far (by omega),
      punctual.trans (Nat.add_le_add_right begins _)⟩

theorem wait_closer (started : StartedSite c site) (underway : Underway c provider timer site base id task s)
    (unanswered : belonging id s.site.responses = []) (found : s.site.server.visit id = some v) {o : Opening}
    {first : TokenValidation.AuthFailure} (stands : v.phase = .refreshing o first task) {k : Task}
    (known : s.site.server.world.task task = some k) {d : Nat}
    (suspended : Suspended (patience s.site.server.world) k.phase d) (early : s.due task = false) :
    Closer c provider timer site base id task s := by
  have ahead : s.now < s.deadline task := Nat.not_le.mp (of_decide_eq_false early)
  obtain ⟨events,reached⟩ := underway.reached
  have punctual : s.deadline task ≤ s.now + d := reachable_punctual started reached task k d known suspended
  have moved : step c.deployment s.site.server (.passTime (s.deadline task)) =
      some { s.site.server with instant := s.deadline task } := by
    simp only [step, if_pos (show s.site.server.instant ≤ s.deadline task from ahead.le)]
  obtain ⟨t,taken,server,arrivals,lost,deadlines⟩ := act_site provider timer moved rfl (by simp)
  have visit : t.site.server.visit id = some v := by
    rw [server]
    exact found
  have world : t.site.server.world = s.site.server.world := by rw [server]
  have now : t.now = s.deadline task := by unfold Timed.now; rw [server]
  have due : t.due task = true := by
    refine decide_eq_true ?_
    rw [now, deadlines]
    exact le_refl _
  have before : requestRank s id = 5 + refreshRank false k.phase := by
    rw [requestRank_waits unanswered found, stands]
    simp only [phaseRank, known, Option.map_some, Option.getD_some, early]
  have after : requestRank t id ≤ 5 + refreshRank true k.phase := by
    refine (requestRank_le visit).trans ?_
    rw [stands, world]
    simp only [phaseRank, known, Option.map_some, Option.getD_some, due]
    exact le_refl _
  obtain ⟨closer,near,soon,latest⟩ := underway.bounds suspended before after punctual
  rw [run_patience reached] at latest
  refine ⟨_,t,.wait latest,taken,underway.next taken arrivals lost visit ?_ ?_ ?_ ?_ ?_,closer⟩
  · rw [stands]
    simp
  · intro o' first' other k' refreshes seen
    rw [world] at seen
    exact fun dropped => underway.sound ⟨v,o',first',other,k',found,refreshes,seen,dropped⟩
  · rw [stands]
    rfl
  · exact fun far => absurd far (Nat.not_le.mpr near)
  · rw [now]
    exact soon

theorem outcome_some (provider : BlockStorage.StorageProvider S) {mounted : Bool} {arrival : Arrival}
    (entered : Entered c mounted arrival v) (mount : s.site.store.isSome = mounted) (subject : Option Subject)
    (body : BlockRoutes.Body) : ∃ done, outcome c provider s.site v subject body = some done := by
  have guarded := entered.guarded
  rw [← entered.request, ← mount] at guarded
  unfold outcome
  cases leads : c.endpoint s.site.store.isSome v.request with
  | whoami tag => exact ⟨_,rfl⟩
  | health | fallback =>
    rw [leads] at guarded
    cases guarded
  | block =>
    have reached : SiteRoutes.Dispatched s.site.store.isSome (BlockRoutes.rawPath v.request) .block := by
      rw [← leads]
      exact SiteRoutes.dispatch_dispatched c.web _ _
    cases reached with
    | block mounted =>
      obtain ⟨store,present⟩ := Option.isSome_iff_exists.mp mounted
      exact ⟨_,by rw [present]; rfl⟩

theorem handle_closer {mounted : Bool} {arrival : Arrival} (underway : Underway c provider timer site base id task s)
    (entered : Entered c mounted arrival v) (mount : s.site.store.isSome = mounted)
    (unanswered : belonging id s.site.responses = []) (found : s.site.server.visit id = some v)
    {subject : Option Subject} (stands : v.phase = .answered (.forwarded subject)) :
    Closer c provider timer site base id task s := by
  obtain ⟨done,serves⟩ := outcome_some provider entered mount subject (.complete [])
  have unhandled : s.site.unhandled id = true := by
    have kept : id ∉ s.site.lost := fun left => underway.stays (.inl left)
    simp only [Site.unhandled, Bool.and_eq_true, List.all_eq_true, decide_eq_true_eq]
    exact ⟨belonging_nil_iff.mp unanswered,fun other member same => kept (same ▸ member)⟩
  have ran : handled c provider s.site id (.complete []) = some done := by
    simp only [handled, found, Option.bind_some, stands, if_pos unhandled, serves]
  have taken : siteStep c provider s.site (.handle id (.complete [])) =
      some ((s.site.perform id done.2.1 done.2.2).answer id done.1) := by
    simp only [siteStep, ran, Option.map_some]
  let answered : Timed S := ⟨(s.site.perform id done.2.1 done.2.2).answer id done.1, s.deadline⟩
  have timed : timedStep c provider timer s (.handle id (.complete [])) = some answered :=
    timed_step timer taken rfl
  have responds : belonging id answered.site.responses ≠ [] := by
    rw [answer_responses]
    exact List.append_ne_nil_of_right_ne_nil _ (List.cons_ne_nil _ _)
  have closer : requestRank answered id < requestRank s id := by
    rw [requestRank_waits unanswered found, stands, requestRank, if_neg responds]
    exact Nat.one_pos
  refine ⟨_,answered,.handle,timed,underway.instantly timed rfl rfl found ?_ ?_ ?_ rfl closer,closer⟩
  · rw [stands]
    simp
  · intro o first other k waits
    cases stands.symm.trans waits
  · rw [stands]
    trivial

theorem underway_closer (started : StartedSite c site)
    (underway : Underway c provider timer site base id task s)
    (unanswered : belonging id s.site.responses = []) : Closer c provider timer site base id task s := by
  obtain ⟨events,timed⟩ := underway.reached
  obtain ⟨visits,reached⟩ := timed_site_run timed
  obtain ⟨arrival,arrived⟩ := underway.arrived
  obtain ⟨actions,served⟩ := site_server_run reached
  have stands := reachable_stands started reached id
  have mount := site_mounted reached
  unfold Stands at stands
  rw [arrived, unanswered] at stands
  cases found : s.site.server.visit id with
  | none =>
    rw [found] at stands
    cases stands
  | some v =>
    rw [found] at stands
    obtain ⟨entered,unrefused⟩ : Entered c site.store.isSome arrival v ∧ Unrefused v.phase := by
      generalize gone : decide (id ∈ s.site.lost) = lost at stands
      generalize belonging id s.site.log = log at stands
      generalize belonging id s.site.calls = calls at stands
      cases stands with
      | waiting entered unrefused => exact ⟨entered,unrefused⟩
      | lost => exact absurd (.inl (of_decide_eq_true gone)) underway.stays
    have proceeds (goes : (proceed c.deployment s.site.server v).isSome = true) :
        Closer c provider timer site base id task s :=
      proceed_closer underway unanswered found (Option.some_get goes).symm
    cases phase : v.phase with
    | abandoned => exact absurd (.inr ⟨v,found,phase⟩) underway.stays
    | needsRefresh o first => exact startRefresh_closer underway unanswered found phase
    | answered reply =>
      cases reply with
      | forwarded subject => exact handle_closer underway entered mount unanswered found phase
      | respond401 => exact absurd phase (unrefused .missingToken)
      | respond503MemoryPressure => exact absurd phase (unrefused .memoryPressure)
    | refreshing o first =>
      have assigned := underway.assigned v found
      rw [phase] at assigned
      cases assigned
      obtain ⟨k,known⟩ := reachable_backed started.server served id v o first task found phase
      by_cases ended : ∃ claim result, k.phase = .finished claim result
      · obtain ⟨claim,result,finished⟩ := ended
        refine proceeds ?_
        simp only [proceed, phase, refreshResult, known, Option.bind_some, finished, Option.map_some,
          Option.isSome_some]
      · have refreshes (settled : ∀ d, Suspended (patience s.site.server.world) k.phase d →
            s.due task = true) : Closer c provider timer site base id task s :=
          refresh_closer underway unanswered found phase known
            (fun claim result finished => ended ⟨claim,result,finished⟩) settled
        cases due : s.due task with
        | true => exact refreshes fun _ _ => due
        | false =>
          by_cases waits : ∃ d, Suspended (patience s.site.server.world) k.phase d
          · obtain ⟨d,suspended⟩ := waits
            exact wait_closer started underway unanswered found phase known suspended due
          · exact refreshes fun d suspended => absurd ⟨d,suspended⟩ waits
    | entered | decode | decodeAgain | claims | proof =>
      refine proceeds ?_
      simp only [proceed, phase]
      repeat' split
      all_goals rfl

theorem phaseRank_le (due : Nat → Bool) (w : World) (phase : Phase) : phaseRank due w phase ≤ 19 := by
  have refresh (late : Bool) (p : RefreshTasks.Phase) : refreshRank late p ≤ 11 := by
    cases p with
    | fetching | wait => cases late <;> simp [refreshRank]
    | _ => simp [refreshRank]
  cases phase with
  | refreshing o first task =>
    simp only [phaseRank]
    cases w.task task with
    | none => simp
    | some k =>
      have most := refresh (due task) k.phase
      simp only [Option.map_some, Option.getD_some]
      omega
  | _ => simp [phaseRank]

theorem requestRank_most (s : Timed S) (id : Nat) : requestRank s id ≤ 19 := by
  unfold requestRank
  split
  · cases s.site.server.visit id with
    | none => exact Nat.zero_le _
    | some v => exact phaseRank_le _ _ _
  · exact Nat.zero_le _

theorem assignable (w : World) (phase : Phase) : ∃ task, Assigned w task phase := by
  cases phase with
  | entered | decode | needsRefresh => exact task_free w
  | refreshing o first task => exact ⟨task,rfl⟩
  | _ => exact ⟨0,trivial⟩

theorem underway_exists (taken : run (timedStep c provider timer) (.idle site) events = some s)
    {arrival : Arrival} (arrived : s.site.arrival id = some arrival) (stays : ¬ Gone s.site id)
    (sound : ¬ Crashed s.site id) : ∃ task, Underway c provider timer site s.now id task s := by
  obtain ⟨task,assigned⟩ : ∃ task, ∀ v, s.site.server.visit id = some v →
      Assigned s.site.server.world task v.phase := by
    by_cases visited : ∃ v, s.site.server.visit id = some v
    · obtain ⟨v,found⟩ := visited
      obtain ⟨task,assigned⟩ := assignable s.site.server.world v.phase
      refine ⟨task,fun u seen => ?_⟩
      rw [← Option.some.inj (found.symm.trans seen)]
      exact assigned
    · exact ⟨0,fun v found => absurd ⟨v,found⟩ visited⟩
  exact ⟨task,⟨events,taken⟩,⟨arrival,arrived⟩,stays,sound,assigned,fun _ => le_refl _,
    fun _ => Nat.le_add_right _ _⟩

theorem standing_once {mounted : Bool} {arrival : Option Arrival} {visit : Option Visit}
    {responses : List BlockRoutes.Response} {log : List LogEvents.LogEvent}
    {calls : List BlockRoutes.StorageCall} {lost : Bool}
    (standing : Standing c provider mounted arrival visit responses log calls lost) (answered : responses ≠ []) :
    ∃ response, responses = [response] := by
  cases standing with
  | unseen | waiting | lost => exact absurd rfl answered
  | unguarded | refused | handled => exact ⟨_,rfl⟩

def Lost (s : Site S) (id : Nat) : Prop :=
  Crashed s id ∨ ∃ v, s.server.visit id = some v ∧ v.phase = .abandoned

theorem siteStep_lost {s t : Site S} {e : ServedRequests.Event} (taken : siteStep c provider s e = some t)
    (lost : Lost s id) : Lost t id := by
  rcases moved_server (siteStep_moved taken) with same | ⟨a,stepped⟩
  · unfold Lost Crashed
    rw [same]
    exact lost
  have moves := step_moves stepped id
  rcases lost with ⟨v,o,first,task,k,found,stands,known,dropped⟩ | ⟨v,found,gone⟩
  · have rests : t.server.world.task task = some k := by
      rcases siteStep_world taken with same | ⟨action,moved,_⟩
      · rw [same]
        exact known
      · exact RefreshTasks.over_rests moved known (by rw [dropped]; exact .dropped)
    rw [found] at moves
    generalize after : t.server.visit id = u at moves
    cases moves with
    | elsewhere => exact .inl ⟨v,o,first,task,k,after,stands,rests,dropped⟩
    | proceeded proceeds =>
      unfold proceed at proceeds
      rw [stands] at proceeds
      obtain ⟨result,ended,_⟩ := Option.map_eq_some_iff.mp proceeds
      rw [refreshResult, known, Option.bind_some, dropped] at ended
      cases ended
    | suspended waits => cases waits.symm.trans stands
    | abandoned => exact .inr ⟨_,after,rfl⟩
  · rw [found] at moves
    generalize after : t.server.visit id = u at moves
    cases moves with
    | elsewhere => exact .inr ⟨v,after,gone⟩
    | proceeded proceeds =>
      unfold proceed at proceeds
      rw [gone] at proceeds
      cases proceeds
    | suspended waits | abandoned waits => cases waits.symm.trans gone

theorem lost_silent (started : StartedSite c site)
    (taken : run (timedStep c provider timer) (.idle site) events = some s) (lost : Lost s.site id) :
    belonging id s.site.responses = [] := by
  obtain ⟨visits,reached⟩ := timed_site_run taken
  obtain ⟨v,found,unanswered⟩ : ∃ v, s.site.server.visit id = some v ∧ ∀ reply, v.phase ≠ .answered reply := by
    rcases lost with ⟨v,o,first,task,_,found,stands,_⟩ | ⟨v,found,gone⟩
    · exact ⟨v,found,fun reply answered => by cases stands.symm.trans answered⟩
    · exact ⟨v,found,fun reply answered => by cases gone.symm.trans answered⟩
  have stands := reachable_stands started reached id
  unfold Stands at stands
  rw [found] at stands
  obtain ⟨_,_,_,silent,_⟩ := standing_waiting stands unanswered
  exact silent

theorem crashed_silent (started : StartedSite c site)
    (taken : run (timedStep c provider timer) (.idle site) events = some s) (crashed : Crashed s.site id)
    {more : List ServedRequests.Event} (later : run (timedStep c provider timer) s more = some t) :
    belonging id t.site.responses = [] := by
  have lost : Lost t.site id :=
    run_invariant (fun u : Timed S => Lost u.site id)
      (fun kept next => siteStep_lost (timed_cases next).2.1 kept) (.inl crashed) later
  have whole : run (timedStep c provider timer) (.idle site) (events ++ more) = some t := by
    rw [run_append, taken]
    exact later
  exact lost_silent started whole lost

theorem sound_answered (started : StartedSite c site)
    (taken : run (timedStep c provider timer) (.idle site) events = some s) {arrival : Arrival}
    (arrived : s.site.arrival id = some arrival) (stays : ¬ Gone s.site id) (sound : ¬ Crashed s.site id) :
    ∃ task more t response, more.length ≤ 19 ∧
      Along (timedStep c provider timer) (Own id task (s.now + httpTimeout + patience s.site.server.world)) s more ∧
      run (timedStep c provider timer) s more = some t ∧ belonging id t.site.responses = [response] := by
  obtain ⟨task,underway⟩ := underway_exists taken arrived stays sound
  have closer {u : Timed S} (underway : Underway c provider timer site s.now id task u)
      (unanswered : ¬ belonging id u.site.responses ≠ []) : Closer c provider timer site s.now id task u :=
    underway_closer started underway (not_not.mp unanswered)
  obtain ⟨more,t,short,own,later,_,answered⟩ := ranked_run (fun s => requestRank s id) closer underway
  have whole : run (timedStep c provider timer) (.idle site) (events ++ more) = some t := by
    rw [run_append, taken]
    exact later
  obtain ⟨visits,reached⟩ := timed_site_run whole
  obtain ⟨response,only⟩ := standing_once (reachable_stands started reached id) answered
  rw [run_patience taken]
  exact ⟨task,more,t,response,short.trans (requestRank_most s id),own,later,only⟩

end Requests

def awaits (task : Nat) : Phase → Bool
  | .refreshing _ _ t => t = task
  | _ => false

/-- The first request fetches the key set, and the second one waits for it. -/
def hangingFetch : List ServedRequests.Event := suspendedVisit 0 7 ++ suspendedVisit 1 8

end RequestProgress
