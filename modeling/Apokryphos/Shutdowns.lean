import Apokryphos.BackgroundTasks

/-!
How the process ends. A signal is announced, then the drain begins, and its time is
counted from there and not from the start. Whatever the way in which serving ends,
its end is logged once, and it says whether the requests were drained.
-/
namespace Shutdowns
open BackgroundTasks LogEvents PeriodicLoops Processes ServedRequests StepRuns
open GuardedRequests hiding Phase step
open ReplayStore hiding Action step

def exitCode : Serving → Option UInt8
  | .returned failed => some (if failed then 1 else 0)
  | .serving | .draining _ => none

def Returned (s : Serving) : Prop := ∃ failed, s = .returned failed

section Stories
variable {S : Type} {c : ProcessConfig} {provider : BlockStorage.StorageProvider S}
  {start p q : Process S} {events : List Processes.Event}

/-- How `serve_with_shutdown_inner` returned, and what it logged then. A forced close
    is neither clean nor a failure. -/
structure Outcome (events : List Processes.Event) (p : Process S) (drainedCleanly : Bool) : Prop where
  returned : Returned p.serving
  failure : exitCode p.serving = some 1 ↔ .serveEnds true ∈ events
  clean : drainedCleanly = true ↔ .serveEnds false ∈ events

def EndedEarly (c : ProcessConfig) (provider : BlockStorage.StorageProvider S) (start : Process S)
    (events : List Processes.Event) : Prop :=
  ∃ front failed back u, events = front ++ .serveEnds failed :: back ∧
    run (processStep c provider) start front = some u ∧ u.coordinator ≠ .announced

inductive Story (c : ProcessConfig) (provider : BlockStorage.StorageProvider S) (start : Process S)
    (events : List Processes.Event) (p : Process S) : List LogEvent → Prop where
  | quiet (listens : p.coordinator = .listening) (serves : ¬ Returned p.serving) : Story c provider start events p []
  | initiated (signal : ShutdownSignal) (heard : p.coordinator ≠ .listening) (serves : ¬ Returned p.serving) :
      Story c provider start events p [.shutdownInitiated signal.name c.drainTimeoutSecs]
  | completed (signal : ShutdownSignal) (drainedCleanly : Bool) (heard : p.coordinator ≠ .listening)
      (outcome : Outcome events p drainedCleanly) :
      Story c provider start events p
        [.shutdownInitiated signal.name c.drainTimeoutSecs, .shutdownCompleted drainedCleanly]
  | unasked (drainedCleanly : Bool) (listens : p.coordinator = .listening)
      (outcome : Outcome events p drainedCleanly) (early : EndedEarly c provider start events) :
      Story c provider start events p [.shutdownCompleted drainedCleanly]
  | overtaken (signal : ShutdownSignal) (drainedCleanly : Bool) (heard : p.coordinator ≠ .listening)
      (outcome : Outcome events p drainedCleanly) (early : EndedEarly c provider start events) :
      Story c provider start events p
        [.shutdownCompleted drainedCleanly, .shutdownInitiated signal.name c.drainTimeoutSecs]

structure Steady (p q : Process S) : Prop where
  coordinator : q.coordinator = .listening ↔ p.coordinator = .listening
  done : Returned q.serving ↔ Returned p.serving
  exitCode : exitCode q.serving = some 1 ↔ exitCode p.serving = some 1
  log : q.log = p.log

theorem moved_log {e : Processes.Event} (moved : Moved c provider p e q) :
    (Steady p q ∧ ∀ failed, e ≠ .serveEnds failed) ∨
    (∃ signal, p.coordinator = .listening ∧ q.coordinator ≠ .listening ∧ q.serving = p.serving ∧
      (∀ failed, e ≠ .serveEnds failed) ∧
      q.log = p.log ++ [.shutdownInitiated (ShutdownSignal.name signal) c.drainTimeoutSecs]) ∨
    (∃ drainedCleanly failed, ¬ Returned p.serving ∧ q.serving = .returned failed ∧
      q.coordinator = p.coordinator ∧ q.log = p.log ++ [.shutdownCompleted drainedCleanly] ∧
      (e = .serveEnds failed ∧ drainedCleanly = !failed ∨
        e = .expire ∧ failed = false ∧ drainedCleanly = false ∧ ∃ deadline, p.serving = .draining deadline)) := by
  cases moved with
  | @signalled signal listens => exact .inr (.inl ⟨signal,listens,nofun,rfl,nofun,rfl⟩)
  | @served failed running =>
    refine .inr (.inr ⟨!failed,failed,?_,rfl,rfl,rfl,.inl ⟨rfl,rfl⟩⟩)
    rintro ⟨done,same⟩
    exact running done same
  | expired stands =>
    refine .inr (.inr ⟨false,false,?_,rfl,rfl,rfl,.inr ⟨rfl,rfl,rfl,_,stands⟩⟩)
    rintro ⟨done,same⟩
    cases stands.symm.trans same
  | flipped stands =>
    refine .inl ⟨⟨iff_of_false nofun ?_,Iff.rfl,Iff.rfl,rfl⟩,nofun⟩
    rw [stands]
    decide
  | announced stands =>
    refine .inl ⟨⟨iff_of_false nofun ?_,Iff.rfl,Iff.rfl,rfl⟩,nofun⟩
    rw [stands]
    decide
  | drains stands =>
    refine .inl ⟨⟨Iff.rfl,iff_of_false ?_ ?_,iff_of_false nofun ?_,rfl⟩,nofun⟩
    · rintro ⟨done,impossible⟩
      cases impossible
    · rintro ⟨done,same⟩
      cases stands.symm.trans same
    · rw [stands]
      exact nofun
  | turned idle =>
    refine .inl ⟨⟨Iff.rfl,Iff.rfl,Iff.rfl,rfl⟩,?_⟩
    rcases idle with ⟨rfl,_⟩ | ⟨rfl,_⟩ | ⟨rfl,_⟩ <;> exact nofun
  | site | ticked | spawned | finished | worked | signalledAgain =>
    exact .inl ⟨⟨Iff.rfl,Iff.rfl,Iff.rfl,rfl⟩,nofun⟩

theorem Outcome.snoc {e : Processes.Event} {drainedCleanly : Bool} (outcome : Outcome events p drainedCleanly)
    (done : Returned q.serving ↔ Returned p.serving)
    (exits : exitCode q.serving = some 1 ↔ exitCode p.serving = some 1)
    (other : ∀ failed, e ≠ .serveEnds failed) : Outcome (events ++ [e]) q drainedCleanly where
  returned := done.mpr outcome.returned
  failure := by
    rw [exits, outcome.failure, List.mem_append, List.mem_singleton,
      or_iff_left fun same => other true same.symm]
  clean := by
    rw [outcome.clean, List.mem_append, List.mem_singleton, or_iff_left fun same => other false same.symm]

theorem EndedEarly.snoc (early : EndedEarly c provider start events) (e : Processes.Event) :
    EndedEarly c provider start (events ++ [e]) := by
  obtain ⟨front,failed,back,u,rfl,rest⟩ := early
  exact ⟨front,failed,back ++ [e],u,by simp,rest⟩

theorem Story.steady {e : Processes.Event} {told : List LogEvent}
    (story : Story c provider start events p told) (steady : Steady p q)
    (other : ∀ failed, e ≠ .serveEnds failed) : Story c provider start (events ++ [e]) q told := by
  have heard (heard : p.coordinator ≠ .listening) : q.coordinator ≠ .listening :=
    mt steady.coordinator.mp heard
  have serves (serves : ¬ Returned p.serving) : ¬ Returned q.serving := mt steady.done.mp serves
  have kept {clean : Bool} (outcome : Outcome events p clean) : Outcome (events ++ [e]) q clean :=
    outcome.snoc steady.done steady.exitCode other
  cases story with
  | quiet listens before => exact .quiet (steady.coordinator.mpr listens) (serves before)
  | initiated signal told before => exact .initiated signal (heard told) (serves before)
  | completed signal clean told outcome => exact .completed signal clean (heard told) (kept outcome)
  | unasked clean listens outcome early =>
    exact .unasked clean (steady.coordinator.mpr listens) (kept outcome) (early.snoc e)
  | overtaken signal clean told outcome early =>
    exact .overtaken signal clean (heard told) (kept outcome) (early.snoc e)

structure Serves (events : List Processes.Event) (p : Process S) : Prop where
  silent : ¬ Returned p.serving → ∀ failed, .serveEnds failed ∉ events
  told : ∀ deadline, p.serving = .draining deadline → p.coordinator = .announced

theorem moved_serves {e : Processes.Event} (serves : Serves events p) (moved : Moved c provider p e q) :
    Serves (events ++ [e]) q := by
  have silent (other : ∀ failed, e ≠ .serveEnds failed) (before : Returned p.serving → Returned q.serving)
      (running : ¬ Returned q.serving) (failed : Bool) : .serveEnds failed ∉ events ++ [e] := by
    rw [List.mem_append, List.mem_singleton, not_or]
    exact ⟨serves.silent (mt before running) failed,fun same => other failed same.symm⟩
  cases moved with
  | signalled listens =>
    refine ⟨silent nofun id,fun deadline drains => ?_⟩
    cases (serves.told deadline drains).symm.trans listens
  | flipped stands | announced stands =>
    refine ⟨silent nofun id,fun deadline drains => ?_⟩
    cases (serves.told deadline drains).symm.trans stands
  | drains stands told =>
    refine ⟨silent nofun ?_,fun _ _ => told⟩
    rintro ⟨done,same⟩
    cases stands.symm.trans same
  | @served failed => exact ⟨fun running => absurd ⟨failed,rfl⟩ running,nofun⟩
  | expired => exact ⟨fun running => absurd ⟨false,rfl⟩ running,nofun⟩
  | turned idle =>
    refine ⟨silent ?_ id,serves.told⟩
    rcases idle with ⟨rfl,_⟩ | ⟨rfl,_⟩ | ⟨rfl,_⟩ <;> exact nofun
  | site | ticked | spawned | finished | worked | signalledAgain =>
    exact ⟨silent nofun id,serves.told⟩

theorem reachable_serves (launched : Launched c start)
    (taken : run (processStep c provider) start events = some p) : Serves events p := by
  refine history_invariant Serves ⟨fun _ _ => List.not_mem_nil,?_⟩
    (fun _ serves next => moved_serves serves (step_moved next)) taken
  intro deadline drains
  cases launched.serving.symm.trans drains

theorem ending_outcome {e : Processes.Event} {clean failed : Bool} (serves : Serves events p)
    (running : ¬ Returned p.serving) (returned : q.serving = .returned failed)
    (how : e = .serveEnds failed ∧ clean = !failed ∨ e = .expire ∧ failed = false ∧ clean = false) :
    Outcome (events ++ [e]) q clean := by
  have silent := serves.silent running
  rcases how with ⟨rfl,rfl⟩ | ⟨rfl,rfl,rfl⟩
  · refine ⟨⟨failed,returned⟩,?_,?_⟩
    · rw [returned, List.mem_append, or_iff_right (silent true), List.mem_singleton]
      cases failed <;> simp [exitCode]
    · rw [List.mem_append, or_iff_right (silent false), List.mem_singleton]
      cases failed <;> simp
  · refine ⟨⟨false,returned⟩,?_,?_⟩
    · rw [returned, List.mem_append, or_iff_right (silent true), List.mem_singleton]
      simp [exitCode]
    · rw [List.mem_append, or_iff_right (silent false), List.mem_singleton]
      simp

/-- The end of the process, as its log tells it: at most one signal is announced, with
    the drain that was configured, and the end of serving is logged exactly once,
    whatever way it came. It is logged as clean just if serving ended without an error,
    and the process fails just if it ended with one; a forced close is neither. The end
    is logged before or without a signal only if serving ended by itself. -/
theorem shutdown_story (launched : Launched c start)
    (taken : run (processStep c provider) start events = some p) :
    ∃ told, p.log = start.log ++ told ∧ Story c provider start events p told := by
  refine history_invariant
    (fun events p => ∃ told, p.log = start.log ++ told ∧ Story c provider start events p told) ?_ ?_ taken
  · refine ⟨[],(List.append_nil _).symm,.quiet launched.coordinator ?_⟩
    rintro ⟨done,same⟩
    cases launched.serving.symm.trans same
  · rintro front p e q reached ⟨told,log,story⟩ next
    have serves := reachable_serves launched reached
    rcases moved_log (step_moved next) with ⟨steady,other⟩ | ⟨signal,listens,heard,same,other,logged⟩ |
      ⟨clean,failed,running,returned,same,logged,how⟩
    · exact ⟨told,steady.log.trans log,story.steady steady other⟩
    · refine ⟨told ++ [.shutdownInitiated signal.name c.drainTimeoutSecs],?_,?_⟩
      · rw [logged, log, List.append_assoc]
      · cases story with
        | quiet _ before => exact .initiated signal heard (by rw [same]; exact before)
        | unasked clean _ outcome early =>
          have kept := outcome.snoc (q := q) (by rw [same]) (by rw [same]) other
          exact .overtaken signal clean heard kept (early.snoc e)
        | initiated _ before | completed _ _ before | overtaken _ _ before => exact absurd listens before
    · have outcome : Outcome (front ++ [e]) q clean := by
        refine ending_outcome serves running returned ?_
        exact how.imp_right fun expires => ⟨expires.1,expires.2.1,expires.2.2.1⟩
      refine ⟨told ++ [.shutdownCompleted clean],?_,?_⟩
      · rw [logged, log, List.append_assoc]
      · cases story with
        | initiated signal before => exact .completed signal clean (by rw [same]; exact before) outcome
        | completed _ _ _ before | unasked _ _ before | overtaken _ _ _ before =>
          exact absurd before.returned running
        | quiet listens =>
          refine .unasked clean (same.trans listens) outcome ?_
          rcases how with ⟨rfl,_⟩ | ⟨_,_,_,deadline,drains⟩
          · refine ⟨front,failed,[],p,rfl,reached,?_⟩
            rw [listens]
            decide
          · cases (serves.told deadline drains).symm.trans listens

def forcedClose : List Processes.Event :=
  [.site (.act (.passTime (600 * nanosPerSec))), .signal .sigterm, .signal .sigint, .flip, .announce,
    .startDrain, .site (.act (.passTime (630 * nanosPerSec))), .expire]

theorem shutdown_story_forced :
    ∃ (start p : Process (BlockStorage.BlockId → Option Digests.Bytes)) (told : List LogEvent),
      exitCode p.serving = some 0 ∧ p.log = start.log ++ told ∧
      Story sampleProcess BlockRoutes.atomicMap start forcedClose p told := by
  obtain ⟨start,p,launched,taken,exits⟩ :=
    sample_process forcedClose (fun p => exitCode p.serving = some 0)
      (RefreshTasks.sample_exists (by decide +kernel))
  obtain ⟨told,log,story⟩ := shutdown_story launched taken
  exact ⟨start,p,told,exits,log,story⟩

theorem moved_now {e : Processes.Event} (moved : Moved c provider p e q) : p.now ≤ q.now := by
  rcases moved_site moved with same | ⟨e',taken⟩
  · unfold Process.now
    rw [same]
  · exact siteStep_later taken

structure Armed (c : ProcessConfig) (u v : Process S) : Prop where
  later : u.now ≤ v.now
  armed : ∀ deadline, v.serving = .draining deadline → ∃ armed, u.now ≤ armed ∧ armed ≤ v.now ∧
    deadline = c.timer.sleep armed c.drainTimeout

theorem moved_armed {u : Process S} {e : Processes.Event} (since : Armed c u p)
    (moved : Moved c provider p e q) : Armed c u q := by
  have later := moved_now moved
  refine ⟨since.later.trans later,?_⟩
  have kept (same : q.serving = p.serving) (deadline : Instant) (drains : q.serving = .draining deadline) :
      ∃ armed, u.now ≤ armed ∧ armed ≤ q.now ∧ deadline = c.timer.sleep armed c.drainTimeout := by
    obtain ⟨armed,after,before,slept⟩ := since.armed deadline (same.symm.trans drains)
    exact ⟨armed,after,before.trans later,slept⟩
  cases moved with
  | drains =>
    intro deadline drains
    cases drains
    exact ⟨p.now,since.later,le_refl _,rfl⟩
  | served | expired =>
    intro deadline impossible
    cases impossible
  | site | turned | ticked | spawned | finished | worked | signalled | signalledAgain | flipped | announced =>
    exact kept rfl

theorem drain_armed (launched : Launched c start) {front back : List Processes.Event} {u v : Process S}
    (before : run (processStep c provider) start front = some u) (listens : u.coordinator = .listening)
    (after : run (processStep c provider) u back = some v) : Armed c u v := by
  refine run_invariant (Armed c u) (fun since next => moved_armed since (step_moved next)) ?_ after
  refine ⟨le_refl _,fun deadline drains => ?_⟩
  cases ((reachable_serves launched before).told deadline drains).symm.trans listens

/-- However long the server has been up, requests have the whole drain timeout: if
    connections are closed by force, then that long after every moment at which no
    signal had come yet. -/
theorem forced_close_late (launched : Launched c start) {front back : List Processes.Event} {u v : Process S}
    (before : run (processStep c provider) start front = some u) (listens : u.coordinator = .listening)
    (after : run (processStep c provider) u back = some v)
    (forced : processStep c provider v .expire = some q) :
    u.now + min c.drainTimeout c.timer.horizon ≤ q.now := by
  have since := drain_armed launched before listens after
  cases step_moved forced with
  | expired stands due =>
    obtain ⟨armed,later,_,rfl⟩ := since.armed _ stands
    calc u.now + min c.drainTimeout c.timer.horizon
        ≤ armed + min c.drainTimeout c.timer.horizon := Nat.add_le_add_right later _
      _ ≤ c.timer.sleep armed c.drainTimeout := c.timer.sleep_beyond armed c.drainTimeout
      _ ≤ v.now := due
  | turned idle => rcases idle with ⟨impossible,_⟩ | ⟨impossible,_⟩ | ⟨impossible,_⟩ <;> cases impossible

theorem forced_close_late_sample :
    ∃ (u q : Process (BlockStorage.BlockId → Option Digests.Bytes)), u.now = 600 * nanosPerSec ∧
      u.now + min sampleProcess.drainTimeout sampleProcess.timer.horizon ≤ q.now := by
  obtain ⟨start,u,launched,before,now,listens,v,after,forces⟩ :=
    sample_process (forcedClose.take 1) (fun u => u.now = 600 * nanosPerSec ∧ u.coordinator = .listening ∧
      ∃ v ∈ run (processStep sampleProcess BlockRoutes.atomicMap) u ((forcedClose.drop 1).take 6),
        (processStep sampleProcess BlockRoutes.atomicMap v .expire).isSome = true)
      (RefreshTasks.sample_exists (by decide +kernel))
  obtain ⟨q,forced⟩ := Option.isSome_iff_exists.mp forces
  exact ⟨u,q,now,forced_close_late launched before listens after forced⟩

/-- The steps of a shutdown that nothing else takes part in. -/
def Closing : Processes.Event → Prop
  | .flip | .announce | .startDrain | .expire | .site (.act (.passTime _)) => True
  | _ => False

def Closes (c : ProcessConfig) (provider : BlockStorage.StorageProvider S) (p : Process S) (steps : Nat)
    (limit : Instant) : Prop :=
  ∃ more q, more.length ≤ steps ∧ (∀ e ∈ more, Closing e) ∧
    run (processStep c provider) p more = some q ∧ Returned q.serving ∧ q.now ≤ limit

theorem Closes.step {e : Processes.Event} {steps : Nat} {limit : Instant}
    (closes : Closes c provider q steps limit) (taken : processStep c provider p e = some q)
    (closing : Closing e) : Closes c provider p (steps + 1) limit := by
  obtain ⟨more,r,short,each,on,rest⟩ := closes
  refine ⟨e :: more,r,Nat.succ_le_succ short,?_,(run_cons taken more).trans on,rest⟩
  exact fun e member => (List.mem_cons.mp member).elim (fun same => same ▸ closing) (each e)

theorem Closes.wait {steps more : Nat} {limit : Instant} (closes : Closes c provider p steps limit)
    (few : steps ≤ more) : Closes c provider p more limit := by
  obtain ⟨events,q,short,rest⟩ := closes
  exact ⟨events,q,short.trans few,rest⟩

theorem expired_closes {deadline limit : Instant} (drains : p.serving = .draining deadline)
    (due : deadline ≤ p.now) (within : p.now ≤ limit) : Closes c provider p 1 limit := by
  refine ⟨[.expire],p.complete false false,le_refl _,by simp [Closing],run_cons ?_ [],⟨false,rfl⟩,within⟩
  simp only [processStep, drains, if_pos due]

theorem draining_closes {deadline limit : Instant} (drains : p.serving = .draining deadline)
    (representable : deadline ≤ c.timer.last) (now : p.now ≤ limit) (within : deadline ≤ limit) :
    Closes c provider p 2 limit := by
  by_cases due : deadline ≤ p.now
  · exact (expired_closes drains due now).wait (by decide)
  · have early : p.site.server.instant ≤ deadline := le_of_not_ge due
    let later : Process S :=
      { p with site := { p.site with server := { p.site.server with instant := deadline } } }
    have passed : processStep c provider p (.site (.act (.passTime deadline))) = some later := by
      simp only [processStep, permitted, decide_eq_true representable, if_true, Process.act, siteStep,
        GuardedRequests.step, if_pos early, Option.map_some, turnsAway]
      rfl
    have stands : later.serving = .draining deadline := drains
    exact (expired_closes stands (le_refl _) within).step passed trivial

theorem announced_closes (told : p.coordinator = .announced) (running : ¬ Returned p.serving)
    (fits : p.now + c.drainTimeout ≤ c.timer.last)
    (armed : ∀ deadline, p.serving = .draining deadline → deadline ≤ p.now + c.drainTimeout) :
    Closes c provider p 3 (p.now + c.drainTimeout) := by
  cases stands : p.serving with
  | returned failed => exact absurd ⟨failed,stands⟩ running
  | draining deadline =>
    have within := armed deadline stands
    exact (draining_closes stands (within.trans fits) (Nat.le_add_right _ _) within).wait (by decide)
  | serving =>
    let draining : Process S := { p with serving := .draining (p.now + c.drainTimeout) }
    have taken : processStep c provider p .startDrain = some draining := by
      simp only [processStep, if_pos (And.intro stands told), c.timer.sleep_within fits, draining]
    have closes : Closes c provider draining 2 (p.now + c.drainTimeout) :=
      draining_closes rfl fits (Nat.le_add_right _ _) (le_refl _)
    exact closes.step taken trivial

theorem flipped_closes (told : p.coordinator = .flipped) (serves : p.serving = .serving)
    (fits : p.now + c.drainTimeout ≤ c.timer.last) : Closes c provider p 4 (p.now + c.drainTimeout) := by
  let announced : Process S := { p with coordinator := .announced }
  have taken : processStep c provider p .announce = some announced := by
    simp only [processStep, if_pos told, announced]
  have running : ¬ Returned announced.serving := by
    rintro ⟨failed,returned⟩
    cases serves.symm.trans returned
  have closes : Closes c provider announced 3 (p.now + c.drainTimeout) :=
    announced_closes rfl running fits fun _ drains => by cases serves.symm.trans drains
  exact closes.step taken trivial

theorem initiated_closes (told : p.coordinator = .initiated) (serves : p.serving = .serving)
    (fits : p.now + c.drainTimeout ≤ c.timer.last) : Closes c provider p 5 (p.now + c.drainTimeout) := by
  let flipped : Process S :=
    { p with coordinator := .flipped, stop := { p.stop.send true with closed := true } }
  have taken : processStep c provider p .flip = some flipped := by
    simp only [processStep, if_pos told, flipped]
  have closes : Closes c provider flipped 4 (p.now + c.drainTimeout) := flipped_closes rfl serves fits
  exact closes.step taken trivial

theorem serving_cases (serves : Serves events p) (running : ¬ Returned p.serving) :
    p.serving = .serving ∨ p.coordinator = .announced := by
  cases stands : p.serving with
  | serving => exact .inl rfl
  | draining deadline => exact .inr (serves.told deadline stands)
  | returned failed => exact absurd ⟨failed,stands⟩ running

/-- No request can hold up a shutdown. After a signal the process can always return
    within the drain timeout, by steps of its own: nothing that a client, a guard or
    a background task does is waited for. -/
theorem shutdown_bounded (launched : Launched c start)
    (taken : run (processStep c provider) start events = some p)
    (signalled : p.coordinator ≠ .listening) (running : ¬ Returned p.serving)
    (fits : p.now + c.drainTimeout ≤ c.timer.last) :
    Closes c provider p 5 (p.now + c.drainTimeout) := by
  have serves := reachable_serves launched taken
  have armed : ∀ deadline, p.serving = .draining deadline → deadline ≤ p.now + c.drainTimeout := by
    intro deadline drains
    have begun : run (processStep c provider) start [] = some start := rfl
    have since := drain_armed launched begun launched.coordinator taken
    obtain ⟨armed,_,before,rfl⟩ := since.armed deadline drains
    exact (c.timer.sleep_before armed _).trans (Nat.add_le_add_right before _)
  cases told : p.coordinator with
  | listening => exact absurd told signalled
  | announced => exact (announced_closes told running fits armed).wait (by decide)
  | flipped =>
    rcases serving_cases serves running with stands | other
    · exact (flipped_closes told stands fits).wait (by decide)
    · cases told.symm.trans other
  | initiated =>
    rcases serving_cases serves running with stands | other
    · exact initiated_closes told stands fits
    · cases told.symm.trans other

theorem shutdown_bounded_signal :
    ∃ p : Process (BlockStorage.BlockId → Option Digests.Bytes), p.coordinator = .initiated ∧
      Closes sampleProcess BlockRoutes.atomicMap p 5 (p.now + sampleProcess.drainTimeout) := by
  obtain ⟨start,p,launched,taken,told,serves,now⟩ :=
    sample_process (forcedClose.take 2) (fun p => p.coordinator = .initiated ∧ p.serving = .serving ∧
      p.now + sampleProcess.drainTimeout ≤ sampleProcess.timer.last)
      (RefreshTasks.sample_exists (by decide +kernel))
  have running : ¬ Returned p.serving := by
    rintro ⟨failed,returned⟩
    cases serves.symm.trans returned
  exact ⟨p,told,shutdown_bounded launched taken (by rw [told]; decide) running now⟩

end Stories

end Shutdowns
