import Apokryphos.PeriodicLoops
import Apokryphos.ServedRequests

/-!
The running process: the site, the five background tasks, the coordinator that
turns a signal into a shutdown, and the loop that serves. Their steps interleave in
any order, also after `run` has returned, until the process is gone. A task that
works takes its steps among those of the requests.
-/
namespace Processes
open LogEvents OidcContexts PeriodicLoops ServedRequests ServerConfig StepRuns
open GuardedRequests hiding Phase step
open ReplayStore hiding Action step
open SigningKeys (HttpOutcome)

inductive TaskId where
  | jwks (tag : AudienceTag)
  | discovery (tag : AudienceTag)
  | cleanup
  deriving DecidableEq

/-- How far the shutdown future is: it waits for a signal, announces the shutdown,
    flips the watch and starts the drain. -/
inductive Coordinator where
  | listening
  | initiated
  | flipped
  | announced
  deriving DecidableEq

/-- The two phases of `serve_with_shutdown_inner`, and how it returned. -/
inductive Serving where
  | serving
  | draining (deadline : Instant)
  | returned (failed : Bool)
  deriving DecidableEq

structure ProcessConfig where
  site : SiteConfig
  timer : Timer
  drainTimeoutSecs : UInt64

def ProcessConfig.drainTimeout (c : ProcessConfig) : Nat := c.drainTimeoutSecs.toNat * nanosPerSec

/-- `refresh` is the fetch and install that a task works on. -/
structure Process (S : Type) where
  site : Site S
  stop : Watch Bool
  loops : TaskId → Loop
  refresh : AudienceTag → Option Nat
  coordinator : Coordinator
  serving : Serving
  log : List LogEvent

inductive Event where
  | site (event : ServedRequests.Event)
  | enter (id : TaskId)
  | firstTick (id : TaskId)
  | tick (id : TaskId) (task : Nat)
  | finish (id : TaskId) (outcome : HttpOutcome String)
  | notice (id : TaskId)
  | signal (signal : ShutdownSignal)
  | flip
  | announce
  | startDrain
  | serveEnds (failed : Bool)
  | expire

/-- Scheduled refreshes and the cleanup belong to their tasks, an on-demand refresh
    to the request that waits for it. No clock passes the last instant. -/
def permitted (timer : Timer) : ServedRequests.Event → Bool
  | .act (.refresh (.spawn _ _ _)) | .act (.refresh (.discoveryFetched _ _))
  | .act (.refresh (.drop _)) | .act .maintenance => false
  | .act (.passTime instant) => decide (instant ≤ timer.last)
  | _ => true

section Steps
variable {S : Type} (c : ProcessConfig) (provider : BlockStorage.StorageProvider S)

def Process.now (p : Process S) : Instant := p.site.server.instant

def Process.period (p : Process S) : TaskId → Nat
  | .jwks tag => (p.site.server.world.ctx tag).authConfig.jwksRefreshSecs.toNat * nanosPerSec
  | .discovery tag => (p.site.server.world.ctx tag).authConfig.discoveryRefreshSecs.toNat * nanosPerSec
  | .cleanup => (max (p.site.server.replay.config.jtiReplayWindowSecs / 4) 1).toNat * nanosPerSec

def Process.act (p : Process S) (e : ServedRequests.Event) : Option (Process S) :=
  (siteStep c.site provider p.site e).map fun site => { p with site := site }

def Process.turn (p : Process S) (id : TaskId) (t : Turn) : Option (Process S) :=
  ((p.loops id).turn c.timer p.now p.stop t).map fun loop =>
    { p with loops := Function.update p.loops id loop }

def startWork (p : Process S) (task : Nat) : TaskId → Option (Process S)
  | .jwks tag => (p.act c provider (.act (.refresh (.spawn task .scheduled tag)))).map fun q =>
    { q with refresh := Function.update q.refresh tag (some task) }
  | .discovery _ | .cleanup => some p

def endWork (p : Process S) (outcome : HttpOutcome String) : TaskId → Option (Process S × Bool)
  | .jwks tag => (p.refresh tag).bind fun task => (p.site.server.world.task task).bind fun k =>
    match k.phase with
    | .finished _ _ => some (p, false)
    | .dropped => some (p, true)
    | _ => none
  | .discovery tag => (p.act c provider (.act (.refresh (.discoveryFetched tag outcome)))).map (·, false)
  | .cleanup => (p.act c provider (.act .maintenance)).map (·, false)

def Process.complete (p : Process S) (failed drainedCleanly : Bool) : Process S :=
  { p with
    serving := .returned failed
    log := p.log ++ [.shutdownCompleted drainedCleanly] }

def processStep (p : Process S) : Event → Option (Process S)
  | .site e => if permitted c.timer e then p.act c provider e else none
  | .enter id => p.turn c id (.enter (p.period id))
  | .firstTick id => p.turn c id .firstTick
  | .tick id task => (p.turn c id .tick).bind fun q =>
    if (q.loops id).phase = .working then startWork c provider q task id else some q
  | .finish id outcome => (endWork c provider p outcome id).bind fun done =>
    done.1.turn c id (.finish done.2)
  | .notice id => p.turn c id .notice
  -- The streams stay open, so that a second signal is taken and changes nothing.
  | .signal signal =>
    if p.coordinator = .listening then
      some { p with
        coordinator := .initiated
        log := p.log ++ [.shutdownInitiated signal.name c.drainTimeoutSecs] }
    else some p
  -- The sender goes away with the future that owned it.
  | .flip =>
    if p.coordinator = .initiated then
      some { p with coordinator := .flipped, stop := { p.stop.send true with closed := true } }
    else none
  | .announce => if p.coordinator = .flipped then some { p with coordinator := .announced } else none
  | .startDrain =>
    if p.serving = .serving ∧ p.coordinator = .announced then
      some { p with serving := .draining (c.timer.sleep p.now c.drainTimeout) }
    else none
  | .serveEnds failed =>
    match p.serving with
    | .serving | .draining _ => some (p.complete failed (!failed))
    | .returned _ => none
  -- A forced close is still a clean exit.
  | .expire =>
    match p.serving with
    | .draining deadline => if deadline ≤ p.now then some (p.complete false false) else none
    | .serving | .returned _ => none

end Steps

structure Launched {S : Type} (c : ProcessConfig) (p : Process S) : Prop where
  site : StartedSite c.site p.site
  representable : p.now ≤ c.timer.last
  stop : p.stop = .channel false
  loops : ∀ id, p.loops id = .fresh p.stop
  refresh : ∀ tag, p.refresh tag = none
  coordinator : p.coordinator = .listening
  serving : p.serving = .serving

def view {S : Type} (p : Process S) (id : TaskId) : System := ⟨p.now, p.stop, p.loops id⟩

def ticked (id : TaskId) : Event → Bool
  | .tick other _ => decide (other = id)
  | _ => false

section Views
variable {S : Type} {c : ProcessConfig} {provider : BlockStorage.StorageProvider S} {p q : Process S}
  {id : TaskId}

theorem act_cases {e : ServedRequests.Event} (taken : p.act c provider e = some q) :
    ∃ site, siteStep c.site provider p.site e = some site ∧ q = { p with site := site } := by
  obtain ⟨site,moved,rfl⟩ := Option.map_eq_some_iff.mp taken
  exact ⟨site,moved,rfl⟩

theorem turn_loops {t : Turn} (taken : p.turn c id t = some q) :
    ∃ loop, (p.loops id).turn c.timer p.now p.stop t = some loop ∧
      q = { p with loops := Function.update p.loops id loop } := by
  obtain ⟨loop,turned,rfl⟩ := Option.map_eq_some_iff.mp taken
  exact ⟨loop,turned,rfl⟩

theorem startWork_cases {task : Nat} (taken : startWork c provider p task id = some q) :
    (q = p ∧ ∀ tag, id ≠ .jwks tag) ∨ ∃ tag site, id = .jwks tag ∧
      siteStep c.site provider p.site (.act (.refresh (.spawn task .scheduled tag))) = some site ∧
      q = { p with site := site, refresh := Function.update p.refresh tag (some task) } := by
  cases id with
  | jwks tag =>
    obtain ⟨r,acted,rfl⟩ := Option.map_eq_some_iff.mp taken
    obtain ⟨site,moved,rfl⟩ := act_cases acted
    exact .inr ⟨tag,site,rfl,moved,rfl⟩
  | discovery | cleanup =>
    cases taken
    exact .inl ⟨rfl,nofun⟩

def Refreshed (p : Process S) (tag : AudienceTag) : Prop :=
  ∃ task k, p.refresh tag = some task ∧ p.site.server.world.task task = some k ∧ RefreshTasks.Over k.phase

def Crashed (p : Process S) (id : TaskId) : Prop :=
  ∃ tag task k, id = .jwks tag ∧ p.refresh tag = some task ∧
    p.site.server.world.task task = some k ∧ k.phase = .dropped

theorem endWork_cases {outcome : HttpOutcome String} {done : Process S × Bool}
    (taken : endWork c provider p outcome id = some done) :
    (∃ tag, id = .jwks tag ∧ Refreshed p tag ∧ done.1 = p ∧ (done.2 = true → Crashed p id)) ∨
    ∃ a site, siteStep c.site provider p.site (.act a) = some site ∧
      done = ({ p with site := site }, false) ∧ (a = .maintenance ∧ id = .cleanup ∨
        ∃ tag, a = .refresh (.discoveryFetched tag outcome) ∧ id = .discovery tag) := by
  cases id with
  | jwks tag =>
    obtain ⟨task,known,rest⟩ := Option.bind_eq_some_iff.mp taken
    obtain ⟨k,found,ended⟩ := Option.bind_eq_some_iff.mp rest
    cases stands : k.phase with
    | finished claim result =>
      rw [stands] at ended
      cases ended
      exact .inl ⟨tag,rfl,⟨task,k,known,found,by rw [stands]; exact .finished⟩,rfl,nofun⟩
    | dropped =>
      rw [stands] at ended
      cases ended
      exact .inl ⟨tag,rfl,⟨task,k,known,found,by rw [stands]; exact .dropped⟩,rfl,
        fun _ => ⟨tag,task,k,rfl,known,found,stands⟩⟩
    | _ =>
      rw [stands] at ended
      cases ended
  | discovery tag =>
    obtain ⟨r,acted,rfl⟩ := Option.map_eq_some_iff.mp taken
    obtain ⟨site,moved,rfl⟩ := act_cases acted
    exact .inr ⟨_,site,moved,rfl,.inr ⟨tag,rfl,rfl⟩⟩
  | cleanup =>
    simp only [endWork, Option.map_eq_some_iff] at taken
    obtain ⟨r,acted,rfl⟩ := taken
    obtain ⟨site,moved,rfl⟩ := act_cases acted
    exact .inr ⟨_,site,moved,rfl,.inl ⟨rfl,rfl⟩⟩

inductive Moved (c : ProcessConfig) (provider : BlockStorage.StorageProvider S) (p : Process S) :
    Event → Process S → Prop where
  | site {e site} (allowed : permitted c.timer e = true)
      (moved : siteStep c.site provider p.site e = some site) :
      Moved c provider p (.site e) { p with site := site }
  | turned {e id t loop} (idle : e = .enter id ∧ t = .enter (p.period id) ∨
        e = .firstTick id ∧ t = .firstTick ∨ e = .notice id ∧ t = .notice)
      (took : (p.loops id).turn c.timer p.now p.stop t = some loop) :
      Moved c provider p e { p with loops := Function.update p.loops id loop }
  | ticked {id task loop} (took : (p.loops id).turn c.timer p.now p.stop .tick = some loop)
      (none : loop.phase = .working → ∀ tag, id ≠ .jwks tag) :
      Moved c provider p (.tick id task) { p with loops := Function.update p.loops id loop }
  | spawned {tag task loop site}
      (took : (p.loops (.jwks tag)).turn c.timer p.now p.stop .tick = some loop)
      (moved : siteStep c.site provider p.site (.act (.refresh (.spawn task .scheduled tag))) =
        some site) (works : loop.phase = .working) :
      Moved c provider p (.tick (.jwks tag) task) { p with
        site := site
        loops := Function.update p.loops (.jwks tag) loop
        refresh := Function.update p.refresh tag (some task) }
  | finished {tag outcome loop panicked} (ended : Refreshed p tag)
      (crash : panicked = true → Crashed p (.jwks tag))
      (took : (p.loops (.jwks tag)).turn c.timer p.now p.stop (.finish panicked) = some loop) :
      Moved c provider p (.finish (.jwks tag) outcome)
        { p with loops := Function.update p.loops (.jwks tag) loop }
  | worked {id outcome a site loop} (moved : siteStep c.site provider p.site (.act a) = some site)
      (work : a = .maintenance ∧ id = .cleanup ∨
        ∃ tag, a = .refresh (.discoveryFetched tag outcome) ∧ id = .discovery tag)
      (took : (p.loops id).turn c.timer site.server.instant p.stop (.finish false) = some loop) :
      Moved c provider p (.finish id outcome)
        { p with site := site, loops := Function.update p.loops id loop }
  | signalled {signal} (listens : p.coordinator = .listening) :
      Moved c provider p (.signal signal) { p with
        coordinator := .initiated
        log := p.log ++ [.shutdownInitiated signal.name c.drainTimeoutSecs] }
  | signalledAgain {signal} (deaf : p.coordinator ≠ .listening) : Moved c provider p (.signal signal) p
  | flipped (stands : p.coordinator = .initiated) : Moved c provider p .flip
      { p with coordinator := .flipped, stop := { p.stop.send true with closed := true } }
  | announced (stands : p.coordinator = .flipped) :
      Moved c provider p .announce { p with coordinator := .announced }
  | drains (stands : p.serving = .serving) (told : p.coordinator = .announced) :
      Moved c provider p .startDrain
        { p with serving := .draining (c.timer.sleep p.now c.drainTimeout) }
  | served {failed} (running : ∀ done, p.serving ≠ .returned done) :
      Moved c provider p (.serveEnds failed) (p.complete failed (!failed))
  | expired {deadline} (stands : p.serving = .draining deadline) (due : deadline ≤ p.now) :
      Moved c provider p .expire (p.complete false false)

theorem step_moved {e : Event} (taken : processStep c provider p e = some q) : Moved c provider p e q := by
  cases e with
  | site e =>
    simp only [processStep, Option.ite_none_right_eq_some] at taken
    obtain ⟨site,moved,rfl⟩ := act_cases taken.2
    exact .site taken.1 moved
  | enter id =>
    obtain ⟨loop,took,rfl⟩ := turn_loops taken
    exact .turned (.inl ⟨rfl,rfl⟩) took
  | firstTick id =>
    obtain ⟨loop,took,rfl⟩ := turn_loops taken
    exact .turned (.inr (.inl ⟨rfl,rfl⟩)) took
  | notice id =>
    obtain ⟨loop,took,rfl⟩ := turn_loops taken
    exact .turned (.inr (.inr ⟨rfl,rfl⟩)) took
  | tick id task =>
    obtain ⟨r,turned,rest⟩ := Option.bind_eq_some_iff.mp taken
    obtain ⟨loop,took,rfl⟩ := turn_loops turned
    simp only [Function.update_self] at rest
    split at rest
    · rename_i works
      rcases startWork_cases rest with ⟨rfl,other⟩ | ⟨tag,site,rfl,moved,rfl⟩
      · exact .ticked took fun _ => other
      · exact .spawned took moved works
    · rename_i idle
      cases rest
      exact .ticked took fun works => absurd works idle
  | finish id outcome =>
    obtain ⟨done,worked,rest⟩ := Option.bind_eq_some_iff.mp taken
    obtain ⟨loop,took,rfl⟩ := turn_loops rest
    obtain ⟨r,panicked⟩ := done
    rcases endWork_cases worked with ⟨tag,rfl,ended,rfl,crash⟩ | ⟨a,site,moved,same,work⟩
    · exact .finished ended crash took
    · cases same
      exact .worked moved work took
  | signal signal =>
    simp only [processStep] at taken
    split at taken
    · rename_i listens
      cases taken
      exact .signalled listens
    · rename_i deaf
      cases taken
      exact .signalledAgain deaf
  | flip =>
    simp only [processStep, Option.ite_none_right_eq_some] at taken
    cases taken.2
    exact .flipped taken.1
  | announce =>
    simp only [processStep, Option.ite_none_right_eq_some] at taken
    cases taken.2
    exact .announced taken.1
  | startDrain =>
    simp only [processStep, Option.ite_none_right_eq_some] at taken
    cases taken.2
    exact .drains taken.1.1 taken.1.2
  | serveEnds failed =>
    simp only [processStep] at taken
    split at taken
    · rename_i stands
      cases taken
      exact .served fun done other => by cases stands.symm.trans other
    · rename_i deadline stands
      cases taken
      exact .served fun done other => by cases stands.symm.trans other
    · cases taken
  | expire =>
    simp only [processStep] at taken
    split at taken
    · rename_i deadline stands
      rw [Option.ite_none_right_eq_some] at taken
      cases taken.2
      exact .expired stands taken.1
    · cases taken
    · cases taken

theorem moved_site {e : Event} (moved : Moved c provider p e q) :
    q.site = p.site ∨ ∃ e, siteStep c.site provider p.site e = some q.site := by
  cases moved with
  | site _ moved | spawned _ moved | worked moved => exact .inr ⟨_,moved⟩
  | _ => exact .inl rfl

/-- The events of the site in a run of the process make up a run of the site, so
    that everything about the site holds in the process as well. -/
theorem process_site_run {start : Process S} {events : List Event}
    (taken : run (processStep c provider) start events = some p) :
    ∃ visits, run (siteStep c.site provider) start.site visits = some p.site := by
  refine run_invariant
    (fun p => ∃ visits, run (siteStep c.site provider) start.site visits = some p.site) ?_ ⟨[],rfl⟩ taken
  rintro p e q ⟨visits,reached⟩ next
  rcases moved_site (step_moved next) with same | ⟨e',moved⟩
  · rw [same]
    exact ⟨visits,reached⟩
  · exact ⟨visits ++ [e'],run_snoc reached moved⟩

def seen (id other : TaskId) (t : Turn) : List Label := if id = other then [.turn t] else []

theorem seen_run {id : TaskId} {now : Instant} {stop : Watch Bool} {loops : TaskId → Loop} {t : Turn}
    {loop : Loop} (took : (loops id).turn c.timer now stop t = some loop) (other : TaskId) :
    run (step c.timer) ⟨now, stop, loops other⟩ (seen id other t) =
      some ⟨now, stop, Function.update loops id loop other⟩ := by
  unfold seen
  by_cases own : id = other
  · subst own
    rw [if_pos rfl, Function.update_self]
    simp only [run, step, took, Option.map_some]
  · rw [if_neg own, Function.update_of_ne (Ne.symm own)]
    rfl

theorem seen_worked (id other : TaskId) (t : Turn) :
    worked (seen id other t) = if id = other ∧ t = .tick then 1 else 0 := by
  unfold seen
  by_cases own : id = other <;> simp [worked, own, List.countP_singleton]

theorem seen_panicked {id other : TaskId} {t : Turn} (panicked : Panicked (seen id other t)) :
    id = other ∧ t = .finish true := by
  unfold seen Panicked at panicked
  split at panicked
  · rename_i own
    simp only [List.mem_singleton, Label.turn.injEq] at panicked
    exact ⟨own,panicked.symm⟩
  · cases panicked

theorem worked_append (front back : List Label) : worked (front ++ back) = worked front + worked back :=
  List.countP_append

theorem panicked_append {front back : List Label} :
    Panicked (front ++ back) ↔ Panicked front ∨ Panicked back :=
  List.mem_append

theorem pass_run {s : System} {now : Instant} (later : s.now ≤ now) :
    run (step c.timer) s [.pass now] = some { s with now := now } := by
  simp only [run, step, if_pos later]

structure Seen (p q : Process S) (id : TaskId) (e : Event) (labels : List Label) : Prop where
  worked : worked labels = if ticked id e then 1 else 0
  panicked : Panicked labels → Crashed q id
  paced : ∀ period, .turn (.enter period) ∈ labels → period = p.period id

theorem moved_view {e : Event} (moved : Moved c provider p e q) (id : TaskId) :
    ∃ labels, run (step c.timer) (view p id) labels = some (view q id) ∧ Seen p q id e labels := by
  have own {t : Turn} {other : TaskId}
      (counted : ticked id e = (decide (other = id) && decide (t = .tick)))
      (crash : t = .finish true → Crashed q other)
      (paced : ∀ period, t = .enter period → period = p.period other) :
      Seen p q id e (seen other id t) := by
    refine ⟨?_,?_,?_⟩
    · rw [seen_worked, counted]
      simp
    · intro panicked
      obtain ⟨rfl,same⟩ := seen_panicked panicked
      exact crash same
    · intro period member
      unfold seen at member
      split at member
      · rename_i same
        subst same
        simp only [List.mem_singleton, Label.turn.injEq] at member
        exact paced period member.symm
      · cases member
  have passing {labels : List Label} {now : Instant} (before : Seen p q id e labels) :
      Seen p q id e (labels ++ [.pass now]) := by
    refine ⟨?_,?_,?_⟩
    · rw [worked_append, before.worked]
      rfl
    · rw [panicked_append]
      exact fun either => either.elim before.panicked (by simp [Panicked])
    · intro period member
      rcases List.mem_append.mp member with inside | last
      · exact before.paced period inside
      · cases List.mem_singleton.mp last
  have still (quiet : ticked id e = false) : Seen p q id e [] := by
    refine ⟨by rw [quiet]; rfl,?_,?_⟩
    · intro impossible
      cases impossible
    · intro period impossible
      cases impossible
  cases moved with
  | @site e site _ moved =>
    exact ⟨[.pass site.server.instant],pass_run (siteStep_later moved),passing (still rfl)⟩
  | @turned e other t loop idle took =>
    refine ⟨seen other id t,seen_run took id,own ?_ ?_ ?_⟩ <;>
      rcases idle with ⟨rfl,rfl⟩ | ⟨rfl,rfl⟩ | ⟨rfl,rfl⟩ <;> simp [ticked]
  | @ticked other task loop took _ =>
    exact ⟨seen other id .tick,seen_run took id,own (by simp [ticked]) nofun nofun⟩
  | @spawned tag task loop site took moved _ =>
    refine ⟨seen (.jwks tag) id .tick ++ [.pass site.server.instant],?_,
      passing (own (t := .tick) (by simp [ticked]) nofun nofun)⟩
    rw [run_append]
    change (run (step c.timer) ⟨p.now, p.stop, p.loops id⟩ _).bind _ = _
    rw [seen_run took id]
    exact pass_run (siteStep_later moved)
  | @finished tag outcome loop panicked ended crash took =>
    refine ⟨seen (.jwks tag) id (.finish panicked),seen_run took id,own (by simp [ticked]) ?_ nofun⟩
    intro same
    cases same
    exact crash rfl
  | @worked other outcome a site loop moved work took =>
    have took : (p.loops other).turn c.timer p.now p.stop (.finish false) = some loop := took
    refine ⟨seen other id (.finish false) ++ [.pass site.server.instant],?_,
      passing (own (t := .finish false) (by simp [ticked]) nofun nofun)⟩
    rw [run_append]
    change (run (step c.timer) ⟨p.now, p.stop, p.loops id⟩ _).bind _ = _
    rw [seen_run took id]
    exact pass_run (siteStep_later moved)
  | flipped =>
    refine ⟨[.raise, .close],rfl,rfl,by simp [Panicked],?_⟩
    intro period member
    simp at member
  | signalled | signalledAgain | announced | drains | served | expired => exact ⟨[],rfl,still rfl⟩

theorem moved_world {e : Event} (moved : Moved c provider p e q) :
    q.site.server.world = p.site.server.world ∨
      ∃ a, RefreshTasks.Moves p.site.server.world a q.site.server.world := by
  rcases moved_site moved with same | ⟨e',taken⟩
  · exact .inl (by rw [same])
  · rcases siteStep_world taken with same | ⟨a,moves,_⟩
    · exact .inl same
    · exact .inr ⟨a,moves⟩

theorem moved_identity {e : Event} (moved : Moved c provider p e q) (g : AudienceTag) :
    (q.site.server.world.ctx g).authConfig = (p.site.server.world.ctx g).authConfig := by
  rcases moved_world moved with same | ⟨a,moves⟩
  · rw [same]
  · exact (RefreshTasks.moves_identity moves g).config

inductive Stored (s : Server) : JtiReplayStore → Prop where
  | kept : Stored s s.replay
  | inserted {tag key deadline store}
      (fits : checkedAddSecs s.instant (s.world.ctx tag).authConfig.jtiReplayWindowSecs = some deadline)
      (took : tryInsert s.replay key deadline = (.ok (), store)) : Stored s store
  | swept : Stored s (maintenanceTick s.replay s.instant)

theorem spendProof_refused {proof : ProofValidation.DpopProof} {key : JtiKey} {deadline : Option Instant}
    {store store' : JtiReplayStore} {failure : TokenValidation.AuthFailure}
    (refused : ProofValidation.spendProof proof key deadline store = (.error failure, store')) :
    store' = store := by
  unfold ProofValidation.spendProof at refused
  cases deadline with
  | none =>
    cases refused
    rfl
  | some d =>
    dsimp only at refused
    cases called : tryInsert store key d with
    | mk outcome after =>
      rw [called] at refused
      cases outcome with
      | ok u => cases refused
      | error e =>
        cases refused
        exact tryInsert_error called

theorem validateProof_refused {jose : TokenValidation.Jose} {parseUrl : UrlTexts.UrlParser}
    {rawProof requestMethod : String} {effectiveUri : UrlTexts.Url}
    {accessToken : TokenValidation.AccessToken} {rawToken : String} {ctx : OidcContext} {now : UInt64}
    {instant : Instant} {store store' : JtiReplayStore} {failure : TokenValidation.AuthFailure}
    (refused : ProofValidation.validateProof jose parseUrl rawProof requestMethod effectiveUri accessToken
      rawToken ctx now instant store = (.error failure, store')) : store' = store := by
  unfold ProofValidation.validateProof at refused
  cases inspected : ProofValidation.inspectProof jose parseUrl rawProof requestMethod effectiveUri
      accessToken rawToken ctx now with
  | error e =>
    rw [inspected] at refused
    cases refused
    rfl
  | ok proof =>
    rw [inspected] at refused
    exact spendProof_refused refused

theorem proceed_stored {d : Deployment} {s : Server} {v : Visit} {next : GuardedRequests.Phase × JtiReplayStore}
    (taken : proceed d s v = some next) : Stored s next.2 := by
  unfold proceed at taken
  cases stands : v.phase with
  | proof o token =>
    rw [stands] at taken
    dsimp only at taken
    have stored : Stored s (RequestGuards.authenticateProof d.jose d.parseUrl v.request o.credentials token
        (s.world.ctx v.guard.tag) s.world.clock s.instant s.replay).2 := by
      unfold RequestGuards.authenticateProof
      split
      · rename_i proof store validated
        obtain ⟨_,deadline,fits,took⟩ := ProofValidation.validateProof_ok validated
        exact .inserted fits took
      · rename_i failure store validated
        rw [validateProof_refused validated]
        exact .kept
    generalize RequestGuards.authenticateProof d.jose d.parseUrl v.request o.credentials token
      (s.world.ctx v.guard.tag) s.world.clock s.instant s.replay = done at taken stored
    obtain ⟨answer,store⟩ := done
    cases answer <;> cases taken <;> exact stored
  | refreshing o first task =>
    rw [stands] at taken
    obtain ⟨result,_,rfl⟩ := Option.map_eq_some_iff.mp taken
    cases result <;> exact .kept
  | needsRefresh o first | answered reply | abandoned =>
    rw [stands] at taken
    cases taken
  | entered | decode o | decodeAgain o first | claims o found =>
    rw [stands] at taken
    dsimp only at taken
    split at taken
    all_goals first
      | (cases taken; exact .kept)
      | (split at taken <;> cases taken <;> exact .kept)

theorem server_stored {d : Deployment} {s t : Server} {a : Action}
    (taken : GuardedRequests.step d s a = some t) : Stored s t.replay := by
  cases a with
  | refresh action =>
    obtain ⟨w,_,rfl⟩ := Option.map_eq_some_iff.mp taken
    exact .kept
  | passTime instant =>
    simp only [GuardedRequests.step, Option.ite_none_right_eq_some] at taken
    cases taken.2
    exact .kept
  | maintenance =>
    cases taken
    exact .swept
  | arrive id guard request =>
    simp only [GuardedRequests.step, Option.ite_none_right_eq_some] at taken
    cases taken.2
    exact .kept
  | proceed id =>
    obtain ⟨v,_,rest⟩ := Option.bind_eq_some_iff.mp taken
    obtain ⟨next,proceeds,rfl⟩ := Option.map_eq_some_iff.mp rest
    exact proceed_stored proceeds
  | startRefresh id task =>
    obtain ⟨v,_,rest⟩ := Option.bind_eq_some_iff.mp taken
    split at rest
    · obtain ⟨w,_,rfl⟩ := Option.map_eq_some_iff.mp rest
      exact .kept
    · cases rest
  | abandon id =>
    obtain ⟨v,_,rest⟩ := Option.bind_eq_some_iff.mp taken
    split at rest
    · obtain ⟨w,_,rfl⟩ := Option.map_eq_some_iff.mp rest
      exact .kept
    · cases rest

theorem stored_config {s : Server} {store : JtiReplayStore} (stored : Stored s store) :
    store.config = s.replay.config := by
  cases stored with
  | kept => rfl
  | inserted _ took => exact tryInsert_config took
  | swept => exact maintenanceTick_config s.replay s.instant

theorem moved_stored {e : Event} (moved : Moved c provider p e q) :
    Stored p.site.server q.site.server.replay := by
  rcases moved_site moved with same | ⟨e',taken⟩
  · rw [same]
    exact .kept
  · rcases moved_server (siteStep_moved taken) with same | ⟨a,stepped⟩
    · rw [same]
      exact .kept
    · exact server_stored stepped

theorem moved_period {e : Event} (moved : Moved c provider p e q) (id : TaskId) :
    q.period id = p.period id := by
  cases id with
  | jwks tag | discovery tag => simp only [Process.period, moved_identity moved tag]
  | cleanup => simp only [Process.period, stored_config (moved_stored moved)]

theorem moved_crashed {e : Event} (moved : Moved c provider p e q) {id : TaskId} (crashed : Crashed p id)
    (ended : (p.loops id).phase = .ended) : Crashed q id := by
  obtain ⟨tag,task,k,rfl,known,found,stands⟩ := crashed
  have after : q.site.server.world.task task = some k := by
    rcases moved_world moved with same | ⟨a,moves⟩
    · rw [same]
      exact found
    · exact RefreshTasks.over_rests moves found (by rw [stands]; exact .dropped)
  refine ⟨tag,task,k,rfl,?_,after,stands⟩
  cases moved with
  | @spawned other _ loop site took _ _ =>
    by_cases own : tag = other
    · subst own
      cases turn_cases took with
      | tick waits => cases waits.symm.trans ended
      | unarmed waits => rcases waits with ⟨_,waits⟩ | ⟨_,waits⟩ <;> cases waits.symm.trans ended
    · exact (Function.update_of_ne own _ _).trans known
  | _ => exact known

structure TaskRun (start : Process S) (events : List Event) (id : TaskId) (p : Process S)
    (labels : List Label) : Prop where
  worked : worked labels = events.countP (ticked id)
  panicked : Panicked labels → Crashed p id
  paced : ∀ period, .turn (.enter period) ∈ labels → period = start.period id
  period : p.period id = start.period id

theorem process_task_run {start : Process S} {events : List Event}
    (taken : run (processStep c provider) start events = some p) (id : TaskId) :
    ∃ labels, run (step c.timer) (view start id) labels = some (view p id) ∧
      TaskRun start events id p labels := by
  have idle : TaskRun start [] id start [] := by
    refine ⟨rfl,?_,?_,rfl⟩
    · intro impossible
      cases impossible
    · intro period impossible
      cases impossible
  refine history_invariant (fun events p => ∃ labels,
    run (step c.timer) (view start id) labels = some (view p id) ∧ TaskRun start events id p labels)
    ⟨[],rfl,idle⟩ ?_ taken
  rintro front p e q _ ⟨labels,reached,task⟩ next
  have moved := step_moved next
  obtain ⟨more,after,seen⟩ := moved_view moved id
  refine ⟨labels ++ more,?_,?_,?_,?_,?_⟩
  · rw [run_append, reached]
    exact after
  · rw [worked_append, task.worked, seen.worked, List.countP_append, List.countP_singleton]
  · rw [panicked_append]
    rintro (before | now)
    · exact moved_crashed moved (task.panicked before) (panicked_ended reached before)
    · exact seen.panicked now
  · intro period member
    rcases List.mem_append.mp member with before | now
    · exact task.paced period before
    · exact (seen.paced period now).trans task.period
  · exact (moved_period moved id).trans task.period

end Views

def launch {S : Type} (site : Site S) (log : List LogEvent) : Process S where
  site := site
  stop := .channel false
  loops _ := .fresh (.channel false)
  refresh _ := none
  coordinator := .listening
  serving := .serving
  log := log

theorem launch_launched {S : Type} {c : ProcessConfig} {site : Site S} (started : StartedSite c.site site)
    (representable : site.server.instant ≤ c.timer.last) (log : List LogEvent) :
    Launched c (launch site log) where
  site := started
  representable := representable
  stop := rfl
  loops _ := rfl
  refresh _ := rfl
  coordinator := rfl
  serving := rfl

/-- Far away deadlines are put off by thirty years. -/
def systemTimer : Timer := plainTimer endOfTime (86400 * 365 * 30 * nanosPerSec)

def sampleProcess : ProcessConfig where
  site := sampleConfig RejectedRequests.blockTarget
  timer := systemTimer
  drainTimeoutSecs := 30

end Processes
