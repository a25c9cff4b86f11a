import Apokryphos.Processes
import Apokryphos.ReplayRefinement

/-!
The four refresh tasks and the cleanup over whole runs of the process. They keep to
their intervals, whatever the requests do. The cleanup leaves no proof in the store
for longer than one of its periods past the deadline. No task ends without a reason,
and every one of them can end once the process shuts down.
-/
namespace BackgroundTasks
open LogEvents OidcContexts PeriodicLoops Processes ServedRequests ServerConfig StepRuns
open GuardedRequests hiding Phase step
open ReplayStore hiding Action step
open SigningKeys (HttpOutcome)

theorem sample_process (events : List Processes.Event)
    (holds : Process (BlockStorage.BlockId → Option Digests.Bytes) → Prop)
    (evaluated : ∃ w, RefreshTasks.Started RefreshTasks.samplePlatform w ∧
      ∃ p ∈ run (processStep sampleProcess BlockRoutes.atomicMap) (launch (emptySite (fun _ => none) w) [])
        events, holds p) :
    ∃ start p, Launched sampleProcess start ∧
      run (processStep sampleProcess BlockRoutes.atomicMap) start events = some p ∧ holds p := by
  obtain ⟨w,started,p,taken,facts⟩ := evaluated
  exact ⟨_,p,launch_launched (emptySite_started _ started) (Nat.zero_le _) [],taken,facts⟩

section Tasks
variable {S : Type} {c : ProcessConfig} {provider : BlockStorage.StorageProvider S}
  {start p q : Process S} {events : List Processes.Event} {id : TaskId}

theorem launched_period (launched : Launched c start) (id : TaskId) : nanosPerSec ≤ start.period id := by
  have pristine := RefreshTasks.started_pristine launched.site.server.world
  have seconds {n : Nat} (positive : 0 < n) : nanosPerSec ≤ n * nanosPerSec :=
    Nat.le_mul_of_pos_left nanosPerSec positive
  cases id with
  | jwks tag => exact seconds (pristine.accepted tag).jwks_pos
  | discovery tag => exact seconds (pristine.accepted tag).discovery_pos
  | cleanup =>
    refine seconds ?_
    generalize start.site.server.replay.config.jtiReplayWindowSecs / 4 = quarter
    change 0 < (if quarter ≤ 1 then 1 else quarter).toNat
    split
    · decide
    · rename_i above
      exact Nat.lt_of_le_of_lt (Nat.zero_le _) (UInt64.lt_iff_toNat_lt.mp (UInt64.not_le.mp above))

theorem launched_view (launched : Launched c start) (id : TaskId) :
    (view start id).loop = .fresh (view start id).stop := launched.loops id

/-- Every task keeps to its interval. It has never worked more often than its period
    has passed since the start, and one that is still in its loop has its next tick
    due exactly one period after the last, however late the last one was taken. -/
theorem tasks_on_schedule (launched : Launched c start)
    (taken : run (processStep c provider) start events = some p) (id : TaskId) :
    nanosPerSec ≤ start.period id ∧
    start.now + events.countP (ticked id) * min (start.period id) c.timer.horizon ≤ p.now ∧
    ((p.loops id).running → ∃ began, start.now ≤ began ∧ began ≤ p.now ∧
      (began + (events.countP (ticked id) + 1) * start.period id ≤ c.timer.last →
        (p.loops id).next = began + (events.countP (ticked id) + 1) * start.period id)) := by
  obtain ⟨labels,reached,task⟩ := process_task_run taken id
  have spawned : (view start id).loop.phase = .spawned := by
    rw [launched_view launched id]
    rfl
  have timed := run_timed spawned reached
  have period (entered : (p.loops id).phase ≠ .spawned) : (p.loops id).period = start.period id :=
    run_period spawned task.paced reached entered
  rw [task.worked] at timed
  refine ⟨launched_period launched id,?_,?_⟩
  · rcases timed with ⟨_,none,past⟩ | ⟨entered,began,past,on⟩
    · rw [none, Nat.zero_mul]
      exact past
    · have elapsed := on.elapsed
      rw [show (view p id).loop.period = _ from period entered] at elapsed
      exact (Nat.add_le_add_right past _).trans elapsed
  · intro running
    rcases timed with ⟨stands,_⟩ | ⟨entered,began,past,on⟩
    · rcases running with other | other <;> cases other.symm.trans stands
    · have exact := on.exact running
      rw [show (view p id).loop.period = _ from period entered] at exact
      exact ⟨began,past,(Nat.le_add_right _ _).trans on.elapsed,exact⟩

def firstRefresh : List Processes.Event :=
  [.enter (.jwks .vault), .firstTick (.jwks .vault), .site (.act (.passTime (3600 * nanosPerSec))),
    .tick (.jwks .vault) 0]

theorem tasks_on_schedule_hour :
    ∃ (start p : Process (BlockStorage.BlockId → Option Digests.Bytes)),
      nanosPerSec ≤ start.period (.jwks .vault) ∧ (p.loops (.jwks .vault)).phase = .working := by
  obtain ⟨start,p,launched,taken,works⟩ :=
    sample_process firstRefresh (fun p => (p.loops (.jwks .vault)).phase = .working)
      (RefreshTasks.sample_exists (by decide +kernel))
  exact ⟨start,p,(tasks_on_schedule launched taken (.jwks .vault)).1,works⟩

structure Flagged (p : Process S) : Prop where
  value : p.stop.value = true ↔ p.coordinator = .flipped ∨ p.coordinator = .announced
  closed : p.stop.closed = true → p.stop.value = true

theorem moved_flagged {e : Processes.Event} (flagged : Flagged p) (moved : Moved c provider p e q) :
    Flagged q := by
  cases moved with
  | signalled listens =>
    refine ⟨flagged.value.trans ?_,flagged.closed⟩
    rw [listens]
    simp
  | flipped => exact ⟨iff_of_true rfl (.inl rfl),fun _ => rfl⟩
  | announced stands =>
    exact ⟨iff_of_true (flagged.value.mpr (.inl stands)) (.inr rfl),flagged.closed⟩
  | _ => exact ⟨flagged.value,flagged.closed⟩

theorem reachable_flagged (launched : Launched c start)
    (taken : run (processStep c provider) start events = some p) : Flagged p := by
  refine run_invariant Flagged (fun flagged next => moved_flagged flagged (step_moved next)) ?_ taken
  refine ⟨?_,?_⟩
  · rw [launched.stop, launched.coordinator]
    decide
  · rw [launched.stop]
    exact id

/-- No task ends before the shutdown, but for a panic while a key set is parsed,
    and for an interval whose next tick no clock can show. -/
theorem tasks_outlive_requests (launched : Launched c start)
    (taken : run (processStep c provider) start events = some p) (id : TaskId)
    (ended : (p.loops id).phase = .ended) :
    p.coordinator = .flipped ∨ p.coordinator = .announced ∨ Crashed p id ∨
      c.timer.last < (p.loops id).next + start.period id := by
  obtain ⟨labels,reached,task⟩ := process_task_run taken id
  have spawned : (view start id).loop.phase = .spawned := by
    rw [launched_view launched id]
    rfl
  have flagged := reachable_flagged launched taken
  have entered : (view p id).loop.phase ≠ .spawned := by
    rw [show (view p id).loop.phase = _ from ended]
    decide
  rcases (run_informed (launched_view launched id) reached).2 ended with up | gone | panicked | far
  · exact (flagged.value.mp up).elim .inl fun told => .inr (.inl told)
  · exact (flagged.value.mp (flagged.closed gone)).elim .inl fun told => .inr (.inl told)
  · exact .inr (.inr (.inl (task.panicked panicked)))
  · rw [run_period spawned task.paced reached entered] at far
    exact .inr (.inr (.inr far))

def lateTask : List Processes.Event := [.signal .sigterm, .flip, .enter .cleanup]

theorem tasks_outlive_requests_late :
    ∃ p : Process (BlockStorage.BlockId → Option Digests.Bytes), (p.loops .cleanup).phase = .ended ∧
      (p.coordinator = .flipped ∨ p.coordinator = .announced ∨ Crashed p .cleanup ∨
        ∃ period, sampleProcess.timer.last < (p.loops .cleanup).next + period) := by
  obtain ⟨start,p,launched,taken,ended⟩ :=
    sample_process lateTask (fun p => (p.loops .cleanup).phase = .ended)
      (RefreshTasks.sample_exists (by decide +kernel))
  exact ⟨p,ended,(tasks_outlive_requests launched taken .cleanup ended).imp_right <| .imp_right <|
    .imp_right fun far => ⟨_,far⟩⟩

def Cleared (store : JtiReplayStore) (due : Instant) : Prop :=
  ∀ key deadline, store.entries.lookup key = some deadline → due < deadline

theorem tick_clears {store : JtiReplayStore} (faithful : ReplayRefinement.Faithful store) (now : Instant) :
    Cleared (maintenanceTick store now) now := by
  intro key deadline found
  have member : (key, deadline) ∈ ReplayRefinement.contents (maintenanceTick store now) :=
    ReplayRefinement.mem_contents.mpr found
  rw [← ReplayRefinement.tick_refines faithful, ReplayRefinement.SeenMap.maintenanceTick, Finset.mem_filter] at member
  exact member.2

theorem stored_faithful {s : Server} {store : JtiReplayStore}
    (faithful : ReplayRefinement.Faithful s.replay) (stored : Stored s store) :
    ReplayRefinement.Faithful store := by
  cases stored with
  | kept => exact faithful
  | inserted _ took => exact ReplayRefinement.tryInsert_faithful faithful took
  | swept => exact ReplayRefinement.tick_faithful faithful s.instant

theorem stored_cleared {s : Server} {store : JtiReplayStore} {due : Instant}
    (faithful : ReplayRefinement.Faithful s.replay)
    (accepted : ∀ tag, Accepted (s.world.ctx tag).authConfig) (past : due ≤ s.instant)
    (cleared : Cleared s.replay due) (stored : Stored s store) : Cleared store due := by
  cases stored with
  | kept => exact cleared
  | @inserted tag key deadline store fits took =>
    obtain ⟨_,_,rfl⟩ := tryInsert_ok_iff.mp took
    intro other d found
    by_cases own : other = key
    · subst own
      cases (AList.lookup_insert _).symm.trans found
      rw [(checkedAddSecs_some fits).1]
      have window : 0 < (s.world.ctx tag).authConfig.jtiReplayWindowSecs.toNat :=
        Nat.lt_of_lt_of_le (accepted tag).freshness_pos
          ((Nat.le_add_right _ _).trans (accepted tag).window_covers)
      exact Nat.lt_of_le_of_lt past (Nat.lt_add_of_pos_right (Nat.mul_pos window (by decide)))
    · exact cleared other d ((AList.lookup_insert_ne own).symm.trans found)
  | swept => exact fun key d found => past.trans_lt (tick_clears faithful s.instant key d found)

/-- How far the cleanup has come. `due` is the tick that its interval fired last. -/
structure Sweeping (timer : Timer) (swept : Prop) (s : Server) (l : Loop) : Prop where
  faithful : ReplayRefinement.Faithful s.replay
  representable : s.instant ≤ timer.last
  unswept : l.phase = .spawned ∨ l.phase = .firstTick → ¬ swept
  due : l.running → ∃ due, due ≤ s.instant ∧
    (timer.last < due + l.period ∨ l.next = due + l.period) ∧
    (l.phase = .waiting → swept → Cleared s.replay due)

section Sweeps
variable {timer : Timer} {swept : Prop} {s t : Server} {l m : Loop}

theorem sweeping_server (sweeping : Sweeping timer swept s l)
    (accepted : ∀ tag, Accepted (s.world.ctx tag).authConfig) (later : s.instant ≤ t.instant)
    (representable : t.instant ≤ timer.last) (stored : Stored s t.replay) :
    Sweeping timer swept t l where
  faithful := stored_faithful sweeping.faithful stored
  representable := representable
  unswept := sweeping.unswept
  due running := by
    obtain ⟨due,past,armed,cleared⟩ := sweeping.due running
    exact ⟨due,past.trans later,armed,fun waits done =>
      stored_cleared sweeping.faithful accepted past (cleared waits done) stored⟩

theorem armed_next {now next : Nat}
    (armed : timer.tick l.next l.period now = some next) :
    timer.last < l.next + l.period ∨ next = l.next + l.period := by
  by_cases fits : l.next + l.period ≤ timer.last
  · rw [timer.tick_within now fits] at armed
    exact .inr (Option.some.inj armed).symm
  · exact .inl (not_le.mp fits)

theorem sweeping_turn (sweeping : Sweeping timer swept s l) {stop : Watch Bool} {turn : Turn}
    (turns : Turns timer s.instant stop l turn m) (busy : ∀ panicked, turn ≠ .finish panicked) :
    Sweeping timer swept s m := by
  have gone {next period seen : Nat} : Sweeping timer swept s ⟨.ended, period, next, seen⟩ := by
    refine ⟨sweeping.faithful,sweeping.representable,?_,?_⟩ <;>
      rintro (impossible | impossible) <;> cases impossible
  cases turns with
  | late | unarmed | noticed | abandoned => exact gone
  | entered stands =>
    refine ⟨sweeping.faithful,sweeping.representable,fun _ => sweeping.unswept (.inl stands),?_⟩
    rintro (impossible | impossible) <;> cases impossible
  | firstTick stands due armed =>
    refine ⟨sweeping.faithful,sweeping.representable,?_,fun _ => ⟨l.next,due,armed_next armed,?_⟩⟩
    · rintro (impossible | impossible) <;> cases impossible
    · exact fun _ done => absurd done (sweeping.unswept (.inr stands))
  | tick stands due armed =>
    refine ⟨sweeping.faithful,sweeping.representable,?_,fun _ => ⟨l.next,due,armed_next armed,?_⟩⟩
    · rintro (impossible | impossible) <;> cases impossible
    · intro impossible
      cases impossible
  | ignored stands => exact ⟨sweeping.faithful,sweeping.representable,sweeping.unswept,sweeping.due⟩
  | finished | panicked => exact absurd rfl (busy _)

theorem sweeping_finish (sweeping : Sweeping timer swept s l) (stands : l.phase = .working)
    (swept' : t.replay = maintenanceTick s.replay s.instant) (instant : t.instant = s.instant) :
    Sweeping timer True t { l with phase := .waiting } where
  faithful := by
    rw [swept']
    exact ReplayRefinement.tick_faithful sweeping.faithful s.instant
  representable := by
    rw [instant]
    exact sweeping.representable
  unswept := by rintro (impossible | impossible) <;> cases impossible
  due _ := by
    obtain ⟨due,past,armed,_⟩ := sweeping.due (.inr stands)
    rw [swept', instant]
    exact ⟨due,past,armed,fun _ _ key d found =>
      past.trans_lt (tick_clears sweeping.faithful s.instant key d found)⟩

theorem Sweeping.weaken {done : Prop} (sweeping : Sweeping timer swept s l) (same : done ↔ swept) :
    Sweeping timer done s l := by
  rw [same]
  exact sweeping

end Sweeps

def Swept (events : List Processes.Event) : Prop := ∃ outcome, .finish .cleanup outcome ∈ events

theorem site_accepted (started : StartedSite c.site start.site)
    (taken : run (processStep c provider) start events = some p) (g : AudienceTag) :
    Accepted (p.site.server.world.ctx g).authConfig := by
  obtain ⟨visits,reached⟩ := process_site_run taken
  obtain ⟨actions,served⟩ := site_server_run reached
  exact reachable_accepted started.server served g

theorem swept_snoc {front : List Processes.Event} {e : Processes.Event}
    (other : ∀ outcome, e ≠ .finish .cleanup outcome) : Swept (front ++ [e]) ↔ Swept front := by
  refine exists_congr fun outcome => ?_
  rw [List.mem_append, List.mem_singleton, or_iff_left fun same => other outcome same.symm]

theorem sweeping_site {swept : Prop} {l : Loop} {site : Site S} {e : ServedRequests.Event}
    (sweeping : Sweeping c.timer swept p.site.server l)
    (accepted : ∀ tag, Accepted (p.site.server.world.ctx tag).authConfig)
    (taken : siteStep c.site provider p.site e = some site)
    (representable : ∀ instant, e = .act (.passTime instant) → instant ≤ c.timer.last) :
    Sweeping c.timer swept site.server l := by
  refine sweeping_server sweeping accepted (siteStep_later taken) ?_ ?_
  · rcases siteStep_instant taken with same | ⟨instant,rfl,_,same⟩
    · rw [same]
      exact sweeping.representable
    · rw [same]
      exact representable instant rfl
  · rcases moved_server (siteStep_moved taken) with same | ⟨a,stepped⟩
    · rw [same]
      exact .kept
    · exact server_stored stepped

theorem maintenance_site {s t : Site S} (taken : siteStep c.site provider s (.act .maintenance) = some t) :
    t.server.replay = maintenanceTick s.server.replay s.server.instant ∧
      t.server.instant = s.server.instant := by
  simp only [siteStep, Option.map_eq_some_iff] at taken
  obtain ⟨u,swept,rfl⟩ := taken
  cases swept
  exact ⟨rfl,rfl⟩

theorem moved_sweeping {front : List Processes.Event} {e : Processes.Event}
    (sweeping : Sweeping c.timer (Swept front) p.site.server (p.loops .cleanup))
    (accepted : ∀ tag, Accepted (p.site.server.world.ctx tag).authConfig)
    (moved : Moved c provider p e q) :
    Sweeping c.timer (Swept (front ++ [e])) q.site.server (q.loops .cleanup) := by
  have turned {other : TaskId} {turn : Turn} {loop : Loop}
      (took : (p.loops other).turn c.timer p.now p.stop turn = some loop)
      (busy : ∀ panicked, turn ≠ .finish panicked) :
      Sweeping c.timer (Swept front) p.site.server (Function.update p.loops other loop .cleanup) := by
    by_cases own : other = .cleanup
    · subst own
      rw [Function.update_self]
      exact sweeping_turn sweeping (turn_cases took) busy
    · rw [Function.update_of_ne (Ne.symm own)]
      exact sweeping
  have elsewhere (id : TaskId) (loop : Loop) (other : id ≠ .cleanup) :
      Function.update p.loops id loop .cleanup = p.loops .cleanup :=
    Function.update_of_ne (Ne.symm other) _ _
  cases moved with
  | @site e site allowed moved =>
    refine (sweeping_site sweeping accepted moved ?_).weaken (swept_snoc nofun)
    rintro instant rfl
    exact of_decide_eq_true allowed
  | @turned e id t loop idle took =>
    have other : ∀ outcome, e ≠ .finish .cleanup outcome := by
      rcases idle with ⟨rfl,_⟩ | ⟨rfl,_⟩ | ⟨rfl,_⟩ <;> exact nofun
    refine (turned took ?_).weaken (swept_snoc other)
    rcases idle with ⟨_,rfl⟩ | ⟨_,rfl⟩ | ⟨_,rfl⟩ <;> exact nofun
  | ticked took => exact (turned took nofun).weaken (swept_snoc nofun)
  | @spawned tag task loop site took moved =>
    dsimp only
    rw [elsewhere (.jwks tag) loop nofun]
    exact (sweeping_site sweeping accepted moved nofun).weaken (swept_snoc nofun)
  | @finished tag outcome loop =>
    dsimp only
    rw [elsewhere (.jwks tag) loop nofun]
    exact sweeping.weaken (swept_snoc nofun)
  | @worked id outcome a site loop moved work took =>
    rcases work with ⟨rfl,rfl⟩ | ⟨tag,rfl,rfl⟩
    · obtain ⟨cleaned,instant⟩ := maintenance_site moved
      dsimp only
      rw [Function.update_self]
      cases turn_cases took with
      | finished stands =>
        refine (sweeping_finish sweeping stands cleaned instant).weaken (iff_of_true ?_ trivial)
        exact ⟨outcome,List.mem_append_right _ List.mem_cons_self⟩
      | unarmed stands => rcases stands with ⟨impossible,_⟩ | ⟨impossible,_⟩ <;> cases impossible
    · dsimp only
      rw [elsewhere (.discovery tag) loop nofun]
      exact (sweeping_site sweeping accepted moved nofun).weaken (swept_snoc nofun)
  | signalled | signalledAgain | flipped | announced | drains | served | expired =>
    exact sweeping.weaken (swept_snoc nofun)

theorem reachable_sweeping (launched : Launched c start)
    (taken : run (processStep c provider) start events = some p) :
    Sweeping c.timer (Swept events) p.site.server (p.loops .cleanup) := by
  refine history_invariant
    (fun events p => Sweeping c.timer (Swept events) p.site.server (p.loops .cleanup)) ?_ ?_ taken
  · have unswept : ¬ Swept [] := by
      rintro ⟨_,impossible⟩
      cases impossible
    refine ⟨?_,launched.representable,fun _ => unswept,?_⟩
    · rw [launched.site.server.replay]
      exact ReplayRefinement.new_faithful _
    · rw [launched.loops]
      rintro (impossible | impossible) <;> cases impossible
  · intro front p e q reached sweeping next
    exact moved_sweeping sweeping (site_accepted launched.site reached) (step_moved next)

/-- No proof stays in the store for longer than a period of the cleanup past its
    deadline, as long as the cleanup is not behind with its ticks. The period is a
    quarter of the replay window, and at least a second. -/
theorem cleanup_prompt (launched : Launched c start)
    (taken : run (processStep c provider) start events = some p) (swept : Swept events)
    (waits : (p.loops .cleanup).phase = .waiting) (punctual : p.now < (p.loops .cleanup).next)
    {key : JtiKey} {deadline : Instant}
    (stored : p.site.server.replay.entries.lookup key = some deadline) :
    p.now < deadline + start.period .cleanup := by
  obtain ⟨labels,reached,task⟩ := process_task_run taken .cleanup
  have spawned : (view start .cleanup).loop.phase = .spawned := by
    rw [launched_view launched .cleanup]
    rfl
  have entered : (view p .cleanup).loop.phase ≠ .spawned := by
    rw [show (view p .cleanup).loop.phase = _ from waits]
    decide
  have period : (p.loops .cleanup).period = start.period .cleanup :=
    run_period spawned task.paced reached entered
  have sweeping := reachable_sweeping launched taken
  obtain ⟨due,past,armed,cleared⟩ := sweeping.due (.inl waits)
  have fresh : due < deadline := cleared waits swept key deadline stored
  rw [period] at armed
  have ahead : p.now < due + start.period .cleanup := by
    rcases armed with far | next
    · exact sweeping.representable.trans_lt far
    · rw [← next]
      exact punctual
  exact ahead.trans (Nat.add_lt_add_right fresh _)

def firstCleanup : List Processes.Event :=
  [.enter .cleanup, .firstTick .cleanup] ++
    ((sampleVisits RejectedRequests.blockTarget).take 6).map .site ++
    [.site (.act (.passTime (22 * nanosPerSec))), .tick .cleanup 0, .finish .cleanup .failed]

theorem cleanup_prompt_kept :
    ∃ (start p : Process (BlockStorage.BlockId → Option Digests.Bytes)) (key : JtiKey) (deadline : Instant),
      p.site.server.replay.entries.lookup key = some deadline ∧
      p.now < deadline + start.period .cleanup := by
  obtain ⟨start,p,launched,taken,waits,punctual,stored⟩ :=
    sample_process firstCleanup (fun p => (p.loops .cleanup).phase = .waiting ∧
      p.now < (p.loops .cleanup).next ∧ p.site.server.replay.entries.entries.length = 1)
      (RefreshTasks.sample_exists (by decide +kernel))
  obtain ⟨entry,listed⟩ := List.length_eq_one_iff.mp stored
  have found : p.site.server.replay.entries.lookup entry.1 = some entry.2 := by
    refine AList.mem_lookup_iff.mpr ?_
    rw [listed]
    exact List.mem_cons_self
  have swept : Swept firstCleanup := ⟨.failed,List.mem_append_right _ (by simp)⟩
  exact ⟨start,p,entry.1,entry.2,found,cleanup_prompt launched taken swept waits punctual found⟩

end Tasks

/-- Where a scheduled refresh can stand. It has no claim, and nobody drops it. -/
inductive Scheduled : RefreshTasks.Phase → Prop where
  | startFetch : Scheduled (.startFetch none)
  | fetching {uri since} : Scheduled (.fetching none uri since)
  | loadOther {new} : Scheduled (.loadOther none new)
  | storeJwks {new seen} : Scheduled (.storeJwks none new seen)
  | finished {result} : Scheduled (.finished none result)
  | dropped : Scheduled .dropped

section Refreshes
variable {platform : Platform} {w w' : RefreshTasks.World} {task : Nat} {k : RefreshTasks.Task}

theorem afterInstall_scheduled (installed : Bool) : Scheduled (RefreshTasks.afterInstall none installed) :=
  .finished

theorem quiet_scheduled {a : RefreshTasks.Action} {next : RefreshTasks.Phase}
    (quiet : RefreshTasks.Quiet w task k a next) (scheduled : Scheduled k.phase) : Scheduled next := by
  cases quiet with
  | startFetch stands =>
    rw [stands] at scheduled
    cases scheduled
    exact .fetching
  | fetched stands =>
    rw [stands] at scheduled
    cases scheduled
    exact .loadOther
  | failed stands | refuse stands =>
    rw [stands] at scheduled
    cases scheduled
    exact afterInstall_scheduled false
  | passCheck stands =>
    rw [stands] at scheduled
    cases scheduled
    exact .storeJwks
  | panicked | dropFetch | dropWait => exact .dropped
  | readClock stands | inWindow stands | outOfWindow stands | lose stands | caughtUp stands
  | register stands | enroll stands | woken stands | timeout stands | recheck stands =>
    rw [stands] at scheduled
    cases scheduled

theorem writes_scheduled {ctx ctx' : OidcContext} {phase next : RefreshTasks.Phase}
    (wrote : RefreshTasks.Writes ctx phase next ctx') (scheduled : Scheduled phase) : Scheduled next := by
  cases wrote with
  | install stands =>
    rw [stands] at scheduled
    cases scheduled
    exact afterInstall_scheduled true
  | claim stands | complete stands | notify stands =>
    rw [stands] at scheduled
    cases scheduled

theorem moves_scheduled {a : RefreshTasks.Action} (moves : RefreshTasks.Moves w a w')
    (found : w.task task = some k) (scheduled : Scheduled k.phase) :
    ∃ k', w'.task task = some k' ∧ Scheduled k'.phase := by
  rcases RefreshTasks.moves_task moves task with ⟨_,same⟩ | ⟨_,_,_,free,_⟩ | ⟨l,next,before,after,how⟩
  · exact ⟨k,same.trans found,scheduled⟩
  · cases free.symm.trans found
  · cases before.symm.trans found
    refine ⟨_,after,?_⟩
    rcases how with quiet | ⟨_,wrote⟩
    · exact quiet_scheduled quiet scheduled
    · exact writes_scheduled wrote scheduled

def Done (w : RefreshTasks.World) (task : Nat) : Prop := ∃ k, w.task task = some k ∧ RefreshTasks.Over k.phase

theorem advanced (found : w.task task = some k) (moved : RefreshTasks.advance w task k = some w') :
    RefreshTasks.step platform w (.advance task) = some w' := by
  simp only [RefreshTasks.step, found, Option.bind_some, moved]

theorem setTask_done {phase : RefreshTasks.Phase} (done : RefreshTasks.Over phase) :
    Done (w.setTask task { k with phase := phase }) task :=
  ⟨_,RefreshTasks.setTask_task_same w task _,done⟩

theorem store_ends {new seen : SigningKeys.Jwks} (found : w.task task = some k)
    (stands : k.phase = .storeJwks none new seen) :
    ∃ w', RefreshTasks.step platform w (.advance task) = some w' ∧ Done w' task := by
  refine ⟨_,advanced found (by simp only [RefreshTasks.advance, stands]; exact rfl),?_⟩
  exact ⟨_,RefreshTasks.setTask_task_same w task _,.finished⟩

theorem fetch_ends {uri : UrlTexts.Url} {since : UInt64} (found : w.task task = some k)
    (stands : k.phase = .fetching none uri since) :
    ∃ w', RefreshTasks.step platform w (.fetched task .failed) = some w' ∧ Done w' task := by
  refine ⟨w.setTask task { k with phase := .finished none false },?_,setTask_done .finished⟩
  simp only [RefreshTasks.step, found, Option.bind_some, stands]
  rfl

def Ending (task : Nat) (a : RefreshTasks.Action) : Prop := a = .advance task ∨ a = .fetched task .failed

theorem scheduled_ends (platform : Platform) (found : w.task task = some k) (scheduled : Scheduled k.phase) :
    ∃ actions w', actions.length ≤ 2 ∧ (∀ a ∈ actions, Ending task a) ∧
      run (RefreshTasks.step platform) w actions = some w' ∧ Done w' task := by
  generalize stands : k.phase = phase at scheduled
  cases scheduled with
  | finished => exact ⟨[],w,Nat.zero_le 2,nofun,rfl,k,found,by rw [stands]; exact .finished⟩
  | dropped => exact ⟨[],w,Nat.zero_le 2,nofun,rfl,k,found,by rw [stands]; exact .dropped⟩
  | storeJwks =>
    obtain ⟨v,moved,done⟩ := store_ends found stands
    exact ⟨[.advance task],v,by simp,by simp [Ending],run_cons moved [],done⟩
  | fetching =>
    obtain ⟨v,moved,done⟩ := fetch_ends found stands
    exact ⟨[.fetched task .failed],v,by simp,by simp [Ending],run_cons moved [],done⟩
  | startFetch =>
    let sent : RefreshTasks.Task :=
      { k with phase := .fetching none (w.ctx k.tag).discovery.jwksUri w.clock }
    have first : RefreshTasks.step platform w (.advance task) = some (w.setTask task sent) :=
      advanced found (by simp only [RefreshTasks.advance, stands, sent])
    have known : (w.setTask task sent).task task = some sent := RefreshTasks.setTask_task_same w task sent
    obtain ⟨v,moved,done⟩ := fetch_ends known rfl
    refine ⟨[.advance task, .fetched task .failed],v,by simp,by simp [Ending],?_,done⟩
    rw [run_cons first]
    exact run_cons moved []
  | @loadOther new =>
    have refused {w' : RefreshTasks.World}
        (taken : RefreshTasks.step platform w (.advance task) = some w') (done : Done w' task) :
        ∃ actions w', actions.length ≤ 2 ∧ (∀ a ∈ actions, Ending task a) ∧
          run (RefreshTasks.step platform) w actions = some w' ∧ Done w' task :=
      ⟨[.advance task],w',by simp,by simp [Ending],run_cons taken [],done⟩
    cases reach : (w.ctx k.tag).other with
    | none =>
      refine refused (advanced found (by simp only [RefreshTasks.advance, stands, reach]; exact rfl)) ?_
      exact setTask_done .finished
    | some otherTag =>
      cases checked : checkDisjointJwks (w.ctx otherTag).jwks new (w.ctx k.tag).tag with
      | error e =>
        refine refused (advanced found (by
          simp only [RefreshTasks.advance, stands, reach, checked]; exact rfl)) ?_
        exact setTask_done .finished
      | ok u =>
        let passed : RefreshTasks.Task := { k with phase := .storeJwks none new (w.ctx otherTag).jwks }
        have first : RefreshTasks.step platform w (.advance task) = some (w.setTask task passed) :=
          advanced found (by simp only [RefreshTasks.advance, stands, reach, checked, passed])
        have known : (w.setTask task passed).task task = some passed :=
          RefreshTasks.setTask_task_same w task passed
        obtain ⟨v,moved,done⟩ := store_ends known rfl
        refine ⟨[.advance task, .advance task],v,by simp,by simp [Ending],?_,done⟩
        rw [run_cons first]
        exact run_cons moved []

end Refreshes

section Endings
variable {S : Type} {c : ProcessConfig} {provider : BlockStorage.StorageProvider S}
  {start p q : Process S} {events : List Processes.Event} {id : TaskId}

def Employed (p : Process S) : Prop :=
  ∀ tag, (p.loops (.jwks tag)).phase = .working → ∃ task k, p.refresh tag = some task ∧
    p.site.server.world.task task = some k ∧ Scheduled k.phase

theorem spawn_task {s t : Site S} {task : Nat} {tag : AudienceTag}
    (taken : siteStep c.site provider s (.act (.refresh (.spawn task .scheduled tag))) = some t) :
    t.server.world.task task = some ⟨.scheduled, tag, .startFetch none⟩ := by
  simp only [siteStep, Option.map_eq_some_iff] at taken
  obtain ⟨u,spawned,rfl⟩ := taken
  obtain ⟨w,stepped,rfl⟩ := Option.map_eq_some_iff.mp spawned
  simp only [RefreshTasks.step, Option.ite_none_right_eq_some] at stepped
  cases stepped.2
  exact RefreshTasks.setTask_task_same _ task _

theorem moved_employed {e : Processes.Event} (employed : Employed p) (moved : Moved c provider p e q) :
    Employed q := by
  intro tag works
  have kept (before : (p.loops (.jwks tag)).phase = .working) (same : q.refresh tag = p.refresh tag) :
      ∃ task k, q.refresh tag = some task ∧ q.site.server.world.task task = some k ∧
        Scheduled k.phase := by
    obtain ⟨task,k,known,found,scheduled⟩ := employed tag before
    rcases moved_world moved with world | ⟨a,moves⟩
    · exact ⟨task,k,same.trans known,by rw [world]; exact found,scheduled⟩
    · obtain ⟨k',found',scheduled'⟩ := moves_scheduled moves found scheduled
      exact ⟨task,k',same.trans known,found',scheduled'⟩
  have updated {other : TaskId} {loop : Loop} (same : q.refresh tag = p.refresh tag)
      (loops : q.loops = Function.update p.loops other loop)
      (idle : other = .jwks tag → loop.phase ≠ .working) :
      ∃ task k, q.refresh tag = some task ∧ q.site.server.world.task task = some k ∧
        Scheduled k.phase := by
    rw [loops] at works
    by_cases own : .jwks tag = other
    · rw [← own, Function.update_self] at works
      exact absurd works (idle own.symm)
    · rw [Function.update_of_ne own] at works
      exact kept works same
  cases moved with
  | @turned e other t loop idle took =>
    refine updated rfl rfl fun _ working => ?_
    have ticks := turn_works (turn_cases took) working
    rcases idle with ⟨_,rfl⟩ | ⟨_,rfl⟩ | ⟨_,rfl⟩ <;> cases ticks
  | ticked took none => exact updated rfl rfl fun own works => absurd own (none works tag)
  | @spawned other task loop site took moved =>
    by_cases own : tag = other
    · subst own
      exact ⟨task,_,Function.update_self _ _ _,spawn_task moved,.startFetch⟩
    · exact updated (Function.update_of_ne own _ _) rfl fun same => absurd (TaskId.jwks.inj same).symm own
  | @finished other outcome loop panicked ended crash took =>
    refine updated rfl rfl fun _ working => ?_
    cases turn_works (turn_cases took) working
  | @worked other outcome a site loop moved work took =>
    refine updated rfl rfl fun own => ?_
    rcases work with ⟨_,same⟩ | ⟨_,_,same⟩ <;> cases own.symm.trans same
  | site | signalled | signalledAgain | flipped | announced | drains | served | expired =>
    exact kept works rfl

theorem reachable_employed (launched : Launched c start)
    (taken : run (processStep c provider) start events = some p) : Employed p := by
  refine run_invariant Employed (fun employed next => moved_employed employed (step_moved next)) ?_ taken
  intro tag works
  rw [launched.loops] at works
  cases works

/-- The steps of the tasks on their way out, given the refreshes they work on: no tick,
    no request and none of its refreshes, and no time passes. -/
def Winding (refresh : AudienceTag → Option Nat) : Processes.Event → Prop
  | .enter _ | .firstTick _ | .finish _ _ | .notice _ => True
  | .site (.act (.refresh (.advance task))) | .site (.act (.refresh (.fetched task _))) =>
    ∃ tag, refresh tag = some task
  | _ => False

structure Winds (c : ProcessConfig) (provider : BlockStorage.StorageProvider S) (id : TaskId)
    (p : Process S) (more : List Processes.Event) (q : Process S) : Prop where
  taken : run (processStep c provider) p more = some q
  winding : ∀ e ∈ more, Winding p.refresh e
  refresh : q.refresh = p.refresh
  stop : q.stop = p.stop
  others : ∀ other, other ≠ id → q.loops other = p.loops other

theorem Winds.refl (p : Process S) : Winds c provider id p [] p :=
  ⟨rfl,nofun,rfl,rfl,fun _ _ => rfl⟩

theorem Winds.trans {r : Process S} {more rest : List Processes.Event} (front : Winds c provider id p more q)
    (back : Winds c provider id q rest r) : Winds c provider id p (more ++ rest) r where
  taken := by
    rw [run_append, front.taken]
    exact back.taken
  winding e member := (List.mem_append.mp member).elim (front.winding e) fun later =>
    front.refresh ▸ back.winding e later
  refresh := back.refresh.trans front.refresh
  stop := back.stop.trans front.stop
  others other different := (back.others other different).trans (front.others other different)

theorem Winds.single {e : Processes.Event} (taken : processStep c provider p e = some q)
    (winding : Winding p.refresh e) (refresh : q.refresh = p.refresh) (stop : q.stop = p.stop)
    (others : ∀ other, other ≠ id → q.loops other = p.loops other) : Winds c provider id p [e] q :=
  ⟨run_cons taken [],fun _ member => List.mem_singleton.mp member ▸ winding,refresh,stop,others⟩

def turnEvent (id : TaskId) : Turn → Processes.Event
  | .enter _ => .enter id
  | .firstTick => .firstTick id
  | .notice => .notice id
  | .tick => .tick id 0
  | .finish _ => .finish id .failed

theorem turn_winds {turn : Turn} {s : System}
    (quiet : turn = .enter (p.period id) ∨ turn = .firstTick ∨ turn = .notice)
    (taken : step c.timer (view p id) (.turn turn) = some s) :
    ∃ q, Winds c provider id p [turnEvent id turn] q ∧ view q id = s ∧ q.site = p.site := by
  obtain ⟨loop,turned,rfl⟩ := Option.map_eq_some_iff.mp taken
  let after : Process S := { p with loops := Function.update p.loops id loop }
  have took : p.turn c id turn = some after := Option.map_eq_some_iff.mpr ⟨loop,turned,rfl⟩
  have others : ∀ other, other ≠ id → after.loops other = p.loops other :=
    fun other different => Function.update_of_ne different loop p.loops
  have seen : view after id = { view p id with loop := loop } := by
    simp only [view, after, Function.update_self, Process.now]
  refine ⟨after,?_,seen,rfl⟩
  rcases quiet with rfl | rfl | rfl <;> exact .single took trivial rfl rfl others

theorem turns_wind {turns : List Turn} {s : System}
    (quiet : ∀ turn ∈ turns, turn = .enter (p.period id) ∨ turn = .firstTick ∨ turn = .notice)
    (taken : run (step c.timer) (view p id) (turns.map .turn) = some s) :
    ∃ q, Winds c provider id p (turns.map (turnEvent id)) q ∧ view q id = s := by
  induction turns generalizing p with
  | nil =>
    cases taken
    exact ⟨p,.refl p,rfl⟩
  | cons turn rest ih =>
    obtain ⟨u,first,later⟩ := run_cons_some taken
    obtain ⟨q,winds,seen,site⟩ := turn_winds (quiet turn List.mem_cons_self) first
    have period : q.period id = p.period id := by
      unfold Process.period
      rw [site]
    rw [← seen] at later
    obtain ⟨r,more,last⟩ := ih (p := q) (by
      rw [period]
      exact fun turn member => quiet turn (List.mem_cons_of_mem _ member)) later
    exact ⟨r,winds.trans more,last⟩

theorem idle_winds (launched : Launched c start)
    (taken : run (processStep c provider) start events = some p) (raised : p.stop.value = true)
    (idle : (p.loops id).phase ≠ .working) :
    ∃ more q, more.length ≤ 2 ∧ Winds c provider id p more q ∧ (q.loops id).phase = .ended := by
  obtain ⟨labels,reached,task⟩ := process_task_run taken id
  have fresh := launched_view launched id
  have timed := run_timed (by rw [fresh]; rfl) reached
  obtain ⟨turns,s,short,quiet,moved,ended⟩ :=
    raised_ends (run_informed fresh reached).1 timed raised idle (p.period id)
  obtain ⟨q,winds,seen⟩ := turns_wind quiet moved
  refine ⟨_,q,by rwa [List.length_map],winds,?_⟩
  rw [← seen] at ended
  exact ended

theorem site_refresh {s : Site S} {a : RefreshTasks.Action} {w : RefreshTasks.World}
    (taken : RefreshTasks.step c.site.deployment.platform s.server.world a = some w) :
    siteStep c.site provider s (.act (.refresh a)) =
      some { s with server := { s.server with world := w } } := by
  simp only [siteStep, GuardedRequests.step, taken, Option.map_some, turnsAway]

theorem refreshes_wind {actions : List RefreshTasks.Action} {task : Nat} {w : RefreshTasks.World}
    {tag : AudienceTag} (known : p.refresh tag = some task) (ending : ∀ a ∈ actions, Ending task a)
    (taken : run (RefreshTasks.step c.site.deployment.platform) p.site.server.world actions = some w) :
    ∃ q, Winds c provider id p (actions.map fun a => .site (.act (.refresh a))) q ∧
      q.site.server.world = w ∧ q.loops = p.loops := by
  induction actions generalizing p with
  | nil =>
    cases taken
    exact ⟨p,.refl p,rfl,rfl⟩
  | cons a rest ih =>
    obtain ⟨u,first,later⟩ := run_cons_some taken
    let after : Process S :=
      { p with site := { p.site with server := { p.site.server with world := u } } }
    have stepped : processStep c provider p (.site (.act (.refresh a))) = some after := by
      have allowed : permitted c.timer (.act (.refresh a)) = true := by
        rcases ending a List.mem_cons_self with rfl | rfl <;> rfl
      simp only [processStep, if_pos allowed, Process.act, site_refresh first, Option.map_some]
      rfl
    have winding : Winding p.refresh (.site (.act (.refresh a))) := by
      rcases ending a List.mem_cons_self with rfl | rfl <;> exact ⟨tag,known⟩
    obtain ⟨q,more,world,loops⟩ := ih (p := after) known
      (fun a member => ending a (List.mem_cons_of_mem _ member)) later
    exact ⟨q,.trans (.single stepped winding rfl rfl fun _ _ => rfl) more,world,loops⟩

theorem finish_winds {outcome : HttpOutcome String} {done : Process S × Bool}
    (works : (p.loops id).phase = .working) (ended : endWork c provider p outcome id = some done)
    (loops : done.1.loops = p.loops) (stop : done.1.stop = p.stop)
    (refresh : done.1.refresh = p.refresh) :
    ∃ q, Winds c provider id p [.finish id outcome] q ∧ (q.loops id).phase ≠ .working := by
  let loop : Loop := { p.loops id with phase := if done.2 then .ended else .waiting }
  let after : Process S := { done.1 with loops := Function.update done.1.loops id loop }
  have turned : done.1.turn c id (.finish done.2) = some after := by
    simp only [Process.turn, Loop.turn, loops, if_pos works, Option.map_some]
    simp only [after, loop, loops]
  have taken : processStep c provider p (.finish id outcome) = some after := by
    simp only [processStep, ended, Option.bind_some, turned]
  refine ⟨after,.single taken trivial refresh stop fun other different => ?_,?_⟩
  · exact (Function.update_of_ne different loop done.1.loops).trans (congrFun loops other)
  · simp only [after, Function.update_self, loop]
    cases done.2 <;> decide

theorem work_winds (employed : Employed p) (works : (p.loops id).phase = .working) :
    ∃ more q, more.length ≤ 3 ∧ Winds c provider id p more q ∧ (q.loops id).phase ≠ .working := by
  cases id with
  | cleanup =>
    let after : Process S := { p with site := { p.site with server :=
      { p.site.server with replay := maintenanceTick p.site.server.replay p.site.server.instant } } }
    have ended : endWork c provider p .failed .cleanup = some (after, false) := rfl
    obtain ⟨q,winds,idle⟩ := finish_winds works ended rfl rfl rfl
    exact ⟨[_],q,Nat.le_add_left 1 2,winds,idle⟩
  | discovery tag =>
    have fetched : ∃ w, RefreshTasks.step c.site.deployment.platform p.site.server.world
        (.discoveryFetched tag .failed) = some w := by
      simp only [RefreshTasks.step]
      split <;> exact ⟨_,rfl⟩
    obtain ⟨w,taken⟩ := fetched
    let after : Process S :=
      { p with site := { p.site with server := { p.site.server with world := w } } }
    have ended : endWork c provider p .failed (.discovery tag) = some (after, false) := by
      simp only [endWork, Process.act, site_refresh taken, Option.map_some, after]
    obtain ⟨q,winds,idle⟩ := finish_winds works ended rfl rfl rfl
    exact ⟨[_],q,Nat.le_add_left 1 2,winds,idle⟩
  | jwks tag =>
    obtain ⟨task,k,known,found,scheduled⟩ := employed tag works
    obtain ⟨actions,w,short,ending,moved,k',done,finished⟩ :=
      scheduled_ends c.site.deployment.platform found scheduled
    obtain ⟨q,winds,world,loops⟩ : ∃ q, Winds c provider (.jwks tag) p _ q ∧
      q.site.server.world = w ∧ q.loops = p.loops := refreshes_wind known ending moved
    have ended : ∃ panicked, endWork c provider q .failed (.jwks tag) = some (q, panicked) := by
      rw [endWork, winds.refresh, known, Option.bind_some, world, done, Option.bind_some]
      generalize k'.phase = phase at finished ⊢
      cases finished with
      | finished => exact ⟨false,rfl⟩
      | dropped => exact ⟨true,rfl⟩
    obtain ⟨panicked,ended⟩ := ended
    obtain ⟨r,last,idle⟩ := finish_winds (by rw [loops]; exact works) ended rfl rfl rfl
    refine ⟨_,r,?_,winds.trans last,idle⟩
    rw [List.length_append, List.length_map]
    exact Nat.add_le_add_right short 1

def allTasks : List TaskId :=
  [.jwks .vault, .jwks .admin, .discovery .vault, .discovery .admin, .cleanup]

theorem mem_allTasks (id : TaskId) : id ∈ allTasks := by
  cases id with
  | jwks tag | discovery tag => cases tag <;> decide
  | cleanup => decide

theorem task_winds (launched : Launched c start)
    (taken : run (processStep c provider) start events = some p) (raised : p.stop.value = true) (id : TaskId) :
    ∃ more q, more.length ≤ 5 ∧ Winds c provider id p more q ∧ (q.loops id).phase = .ended := by
  by_cases works : (p.loops id).phase = .working
  · obtain ⟨more,q,short,winds,idle⟩ := work_winds (reachable_employed launched taken) works
    have later : run (processStep c provider) start (events ++ more) = some q := by
      rw [run_append, taken]
      exact winds.taken
    obtain ⟨rest,r,few,on,ended⟩ := idle_winds launched later (by rw [winds.stop]; exact raised) idle
    refine ⟨_,r,?_,winds.trans on,ended⟩
    rw [List.length_append]
    exact Nat.add_le_add short few
  · obtain ⟨more,q,short,rest⟩ := idle_winds launched taken raised works
    exact ⟨more,q,short.trans (by decide),rest⟩

theorem listed_wind (launched : Launched c start) (ids : List TaskId) :
    ∀ {events : List Processes.Event} {p : Process S},
      run (processStep c provider) start events = some p → p.stop.value = true →
      ∃ more q, more.length ≤ 5 * ids.length ∧ (∀ e ∈ more, Winding p.refresh e) ∧
        run (processStep c provider) p more = some q ∧
        (∀ id, id ∈ ids ∨ (p.loops id).phase = .ended → (q.loops id).phase = .ended) := by
  induction ids with
  | nil =>
    intro events p _ _
    refine ⟨[],p,Nat.zero_le _,nofun,rfl,?_⟩
    rintro id (impossible | ended)
    · cases impossible
    · exact ended
  | cons first rest ih =>
    intro events p taken raised
    obtain ⟨more,q,short,winds,ended⟩ := task_winds launched taken raised first
    have later : run (processStep c provider) start (events ++ more) = some q := by
      rw [run_append, taken]
      exact winds.taken
    obtain ⟨others,r,few,winding,on,all⟩ := ih later (by rw [winds.stop]; exact raised)
    refine ⟨more ++ others,r,?_,?_,?_,?_⟩
    · rw [List.length_append, List.length_cons, Nat.mul_succ, Nat.add_comm]
      exact Nat.add_le_add few short
    · exact fun e member => (List.mem_append.mp member).elim (winds.winding e) fun after =>
        winds.refresh ▸ winding e after
    · rw [run_append, winds.taken]
      exact on
    · intro id which
      refine all id ?_
      by_cases own : id = first
      · rw [own]
        exact .inr ended
      · rw [winds.others id own]
        exact which.imp_left fun member => (List.mem_cons.mp member).resolve_left own

/-- No task sleeps through a shutdown. From every state behind the flip of the watch,
    whatever the requests have done or still do, all five tasks can run to their ends
    at once: they need no further tick, neither a request nor a refresh that one waits
    for has to move, and no time has to pass. -/
theorem tasks_wind_down (launched : Launched c start)
    (taken : run (processStep c provider) start events = some p)
    (told : p.coordinator = .flipped ∨ p.coordinator = .announced) :
    ∃ more q, more.length ≤ 25 ∧ (∀ e ∈ more, Winding p.refresh e) ∧
      run (processStep c provider) p more = some q ∧ ∀ id, (q.loops id).phase = .ended := by
  have raised := (reachable_flagged launched taken).value.mpr told
  obtain ⟨more,q,short,winding,on,all⟩ := listed_wind launched allTasks taken raised
  exact ⟨more,q,short,winding,on,fun id => all id (.inl (mem_allTasks id))⟩

/-- A refresh is under way and another task has not entered when the signal comes. -/
def stoppedAtWork : List Processes.Event := firstRefresh ++ [.signal .sigint, .flip]

theorem tasks_wind_down_at_work :
    ∃ (p q : Process (BlockStorage.BlockId → Option Digests.Bytes)),
      (p.loops (.jwks .vault)).phase = .working ∧ (p.loops .cleanup).phase = .spawned ∧
      ∀ id, (q.loops id).phase = .ended := by
  obtain ⟨start,p,launched,taken,told,works,spawned⟩ :=
    sample_process stoppedAtWork (fun p => p.coordinator = .flipped ∧
      (p.loops (.jwks .vault)).phase = .working ∧ (p.loops .cleanup).phase = .spawned)
      (RefreshTasks.sample_exists (by decide +kernel))
  obtain ⟨more,q,_,_,_,ended⟩ := tasks_wind_down launched taken (.inl told)
  exact ⟨p,q,works,spawned,ended⟩

end Endings

end BackgroundTasks
