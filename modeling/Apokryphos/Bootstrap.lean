import Apokryphos.ConfigLoading
import Apokryphos.Shutdowns

/-!
The whole life of the process: the start of `run`, one fallible stage after the
other, and the process that it ends in. A signal ends a start by its default
disposition until the handlers are installed; from then on it stays pending until
the coordinator takes it. Each stage carries the evidence of those before it, so
that there is no listener without an accepted configuration, two separate contexts
and a probed store.
-/
namespace Bootstrap
open ConfigLoading Digests LogEvents OidcContexts PathTexts PeriodicLoops Processes ReplayStore
open ServedRequests ServerConfig StartupProbe StepRuns
open GuardedRequests (Deployment)
open BlockPaths (probeFilename)

inductive AuthStartError where
  | extraCa (source : ExtraCaError)
  | certificate (path : OsString) (source : String)
  | client (source : String)
  | contexts (source : ContextInitError)

inductive AppError where
  | config (source : LoadError)
  | bind (addr : SocketAddr) (source : String)
  | signalSetup (source : String)
  | auth (cause : AuthStartError)
  | storage (source : StorageInitError)

/-- A line of the log: an event of an emitter, or one of the two that `run` and `main`
    write directly. -/
inductive Line where
  | event (e : LogEvent)
  | addedExtraRootCa (path : OsString)
  | fatalServerError (error : AppError)

/-- The libraries, and all that the surroundings answer while the process starts. The
    file system below the root is seen through the store that is mounted on it. -/
structure Host (S : Type) where
  deployment : Deployment
  web : SiteRoutes.WebLibrary
  ip : ProxyTrust.IpLibrary
  reader : BlockRoutes.BodyReader
  usizeBits : Nat
  timer : Timer
  vars : Vars
  files : ConfigFiles
  fromPem : Bytes → Except String Unit
  buildClient : Option Bytes → Except String Unit
  answers : AudienceTag → ProviderAnswers
  root : RootState
  failures : Failures
  random : String
  mount : PathText → RootState → S
  bind : SocketAddr → Except String SocketAddr
  installSignals : Except String Unit

def Host.platform {S : Type} (host : Host S) : Platform := host.deployment.platform

def certified {E A : Type} : (outcome : Except E A) → Except E { a : A // outcome = .ok a }
  | .ok a => .ok ⟨a, rfl⟩
  | .error e => .error e

section Stages
variable {S : Type} (host : Host S)

def Host.load : Except LoadError Config :=
  ConfigLoading.load host.files host.platform.parsers host.platform.usizeMax host.vars

def Host.httpClient : List Line × Except AuthStartError Unit :=
  match loadOptionalPem host.files host.vars with
  | .error e => ([], .error (.extraCa e))
  | .ok none => ([], (host.buildClient none).mapError .client)
  | .ok (some (path, pem)) =>
    match host.fromPem pem with
    | .error e => ([], .error (.certificate path e))
    | .ok _ => ([.addedExtraRootCa path], (host.buildClient (some pem)).mapError .client)

def Host.initFromConfig (cfg : Config) : RootState × Except StorageInitError (Option S) :=
  match cfg.storageBackend with
  | .none => (host.root, .ok none)
  | .localFs root =>
    let opened := StartupProbe.init root.toList host.failures host.random host.root
    (opened.1, opened.2.map fun path => some (host.mount path opened.1))

def storageReady (cfg : Config) : List Line :=
  match cfg.storageBackend with
  | .none => []
  | .localFs root => [.event (.storageReady root.toList)]

def Host.config (cfg : Config) : ProcessConfig where
  site := {
    deployment := host.deployment
    blocks := ⟨cfg.blockSizeBytes, host.usizeBits, host.reader⟩
    web := host.web
    ip := host.ip
    trustedProxies := cfg.trustedProxies }
  timer := host.timer
  drainTimeoutSecs := cfg.drainTimeoutSecs

abbrev Loaded := { cfg : Config // host.load = .ok cfg }

structure Connected where
  cfg : Loaded host
  client : host.httpClient.2 = .ok ()

structure Contexts extends Connected host where
  vault : OidcContext
  admin : OidcContext
  built : initContexts host.platform cfg.val (host.answers .vault) (host.answers .admin) = .ok (vault, admin)

structure Mounted extends Contexts host where
  store : Option S
  disk : RootState
  opened : host.initFromConfig cfg.val = (disk, .ok store)

structure Bound extends Mounted host where
  addr : SocketAddr
  bound : host.bind cfg.val.bindAddress = .ok addr

structure Installed extends Bound host where
  signals : host.installSignals = .ok ()

inductive Stage where
  | loading
  | connecting (cfg : Loaded host)
  | discovering (connected : Connected host)
  | probing (contexts : Contexts host)
  | binding (mounted : Mounted host)
  | installing (bound : Bound host)
  | announcing (installed : Installed host)

def Stage.handles : Stage host → Bool
  | .announcing _ => true
  | _ => false

/-- The seconds of the system clock and the steady clock, as clocks can show them. -/
structure Moment (timer : Timer) where
  clock : UInt64
  instant : Instant
  below : clock < MachineWords.u64Max
  representable : instant ≤ timer.last

structure Start where
  moment : Moment host.timer
  stage : Stage host
  pending : List ShutdownSignal
  log : List Line

inductive Life where
  | starting (s : Start host)
  | running (told : List Line) (installed : Installed host) (pending : List ShutdownSignal) (p : Process S)
  | failed (error : AppError) (log : List Line)
  | panicked (log : List Line)
  | killed (signal : ShutdownSignal) (log : List Line)

inductive LifeEvent where
  | advance
  | tick (clock : UInt64) (instant : Instant)
  | signal (signal : ShutdownSignal)
  | deliver (signal : ShutdownSignal)
  | process (event : Processes.Event)

def Bound.site {host : Host S} (bound : Bound host) (moment : Moment host.timer) : Site S where
  server := {
    world := RefreshTasks.boot moment.clock bound.vault bound.admin
    instant := moment.instant
    replay := JtiReplayStore.new bound.cfg.val.auth
    visits := ∅ }
  store := bound.store
  arrivals := ∅
  calls := []
  responses := []
  log := []
  lost := []

def Start.goto {host : Host S} (s : Start host) (stage : Stage host) (told : List Line) : Life host :=
  .starting { s with stage := stage, log := s.log ++ told }

def Start.fail {host : Host S} (s : Start host) (error : AppError) (told : List Line) : Life host :=
  .failed error (s.log ++ told ++ [.fatalServerError error])

def Start.advance {host : Host S} (s : Start host) : Life host :=
  match s.stage with
  | .loading =>
    match certified host.load with
    | .ok cfg => s.goto (.connecting cfg) []
    | .error e => s.fail (.config e) []
  | .connecting cfg =>
    match certified host.httpClient.2 with
    | .ok ⟨_, client⟩ => s.goto (.discovering ⟨cfg, client⟩) host.httpClient.1
    | .error e => s.fail (.auth e) host.httpClient.1
  | .discovering connected =>
    match certified (initContexts host.platform connected.cfg.val (host.answers .vault) (host.answers .admin)) with
    | .ok ⟨(vault, admin), built⟩ => s.goto (.probing ⟨connected, vault, admin, built⟩) []
    | .error .panicked => .panicked s.log
    | .error (.error e) => s.fail (.auth (.contexts e)) []
  | .probing contexts =>
    match opened : host.initFromConfig contexts.cfg.val with
    | (disk, .ok store) =>
      s.goto (.binding ⟨contexts, store, disk, opened⟩) (storageReady contexts.cfg.val)
    | (_, .error e) => s.fail (.storage e) [.event (emitStorageStartupFailed e)]
  | .binding mounted =>
    match certified (host.bind mounted.cfg.val.bindAddress) with
    | .ok ⟨addr, bound⟩ => s.goto (.installing ⟨mounted, addr, bound⟩) []
    | .error source => s.fail (.bind mounted.cfg.val.bindAddress source) []
  | .installing bound =>
    match certified host.installSignals with
    | .ok ⟨_, signals⟩ => s.goto (.announcing ⟨bound, signals⟩) []
    | .error source => s.fail (.signalSetup source) []
  | .announcing installed =>
    .running s.log installed s.pending (launch (installed.site s.moment) [.serverStarted installed.addr])

def powerOn (moment : Moment host.timer) : Life host := .starting ⟨moment, .loading, [], []⟩

def Moment.next {timer : Timer} (m : Moment timer) (clock : UInt64) (instant : Instant) : Option (Moment timer) :=
  if possible : clock < MachineWords.u64Max ∧ m.instant ≤ instant ∧ instant ≤ timer.last then
    some ⟨clock, instant, possible.1, possible.2.2⟩
  else none

variable (provider : BlockStorage.StorageProvider S)

/-- Signals reach a running process only through the streams of its handlers. A
    stream does not count its signals. -/
def lifeStep : Life host → LifeEvent → Option (Life host)
  | .starting s, .advance => some s.advance
  | .starting s, .tick clock instant => (s.moment.next clock instant).map fun moment =>
    .starting { s with moment := moment }
  | .starting s, .signal signal =>
    if s.stage.handles then some (.starting { s with pending := s.pending.insert signal })
    else some (.killed signal s.log)
  | .running told installed pending p, .signal signal =>
    some (.running told installed (pending.insert signal) p)
  | .running told installed pending p, .deliver signal =>
    if signal ∈ pending then
      (processStep (host.config installed.cfg.val) provider p (.signal signal)).map
        (.running told installed (pending.erase signal))
    else none
  | .running _ _ _ _, .process (.signal _) => none
  | .running told installed pending p, .process event =>
    (processStep (host.config installed.cfg.val) provider p event).map (.running told installed pending)
  | _, _ => none

end Stages

def Life.log {S : Type} {host : Host S} : Life host → List Line
  | .starting s => s.log
  | .running told _ _ p => told ++ p.log.map .event
  | .failed _ log | .panicked log | .killed _ log => log

/-- The status that `main` exits with. A panic unwinds the main thread, and a signal
    leaves none. -/
def Life.exitCode {S : Type} {host : Host S} : Life host → Option UInt8
  | .starting _ | .killed _ _ => none
  | .running _ _ _ p => Shutdowns.exitCode p.serving
  | .failed _ _ => some 1
  | .panicked _ => some 101

section Starts
variable {S : Type} {host : Host S} {provider : BlockStorage.StorageProvider S}

def Stage.told : Stage host → List Line
  | .loading | .connecting _ => []
  | .discovering _ | .probing _ => host.httpClient.1
  | .binding mounted => host.httpClient.1 ++ storageReady mounted.cfg.val
  | .installing bound => host.httpClient.1 ++ storageReady bound.cfg.val
  | .announcing installed => host.httpClient.1 ++ storageReady installed.cfg.val

/-- Every error of `run` names the step that refused, after all those before it. What
    was logged up to the report of `main` is that of the steps that were taken. -/
inductive Failed (host : Host S) : AppError → List Line → Prop where
  | config {e} (refused : host.load = .error e) : Failed host (.config e) []
  | client (cfg : Loaded host) {e} (refused : host.httpClient.2 = .error e) :
      Failed host (.auth e) host.httpClient.1
  | contexts (connected : Connected host) {e}
      (refused : initContexts host.platform connected.cfg.val (host.answers .vault)
        (host.answers .admin) = .error (.error e)) : Failed host (.auth (.contexts e)) host.httpClient.1
  | storage (contexts : Contexts host) {e}
      (refused : (host.initFromConfig contexts.cfg.val).2 = .error e) :
      Failed host (.storage e) (host.httpClient.1 ++ [.event (emitStorageStartupFailed e)])
  | bind (mounted : Mounted host) {source}
      (refused : host.bind mounted.cfg.val.bindAddress = .error source) :
      Failed host (.bind mounted.cfg.val.bindAddress source)
        (host.httpClient.1 ++ storageReady mounted.cfg.val)
  | signalSetup (bound : Bound host) {source} (refused : host.installSignals = .error source) :
      Failed host (.signalSetup source) (host.httpClient.1 ++ storageReady bound.cfg.val)

/-- A block root that has passed its probe: a directory as it was, but for a probe
    file that could not be removed. -/
def Probed (host : Host S) (disk : RootState) : Prop :=
  ∃ before after, host.root = .directory before ∧ disk = .directory after ∧ Free before probeFilename ∧
    Left (if host.failures.unlink.isSome then some probeFilename else none) before after

structure Ready (installed : Installed host) (start : Process S) : Prop where
  launched : Launched (host.config installed.cfg.val) start
  announced : start.log = [.serverStarted installed.addr]
  store : start.site.store = installed.store
  probed : ∀ root, installed.cfg.val.storageBackend = .localFs root →
    installed.store = some (host.mount root.toList installed.disk) ∧ Probed host installed.disk
  storeless : installed.cfg.val.storageBackend = .none → installed.store = none

inductive Chronicle (provider : BlockStorage.StorageProvider S) : Life host → Prop where
  | starting {s} (log : s.log = s.stage.told) : Chronicle provider (.starting s)
  | running {told installed start actions pending p} (ready : Ready installed start)
      (log : told = (Stage.announcing installed).told)
      (reached : run (processStep (host.config installed.cfg.val) provider) start actions = some p) :
      Chronicle provider (.running told installed pending p)
  | failed {error told log} (refused : Failed host error told)
      (reported : log = told ++ [.fatalServerError error]) : Chronicle provider (.failed error log)
  | panicked (connected : Connected host) (panics : initContexts host.platform connected.cfg.val
      (host.answers .vault) (host.answers .admin) = .error .panicked) :
      Chronicle provider (.panicked host.httpClient.1)
  | killed {signal} {stage : Stage host} (deaf : stage.handles = false) :
      Chronicle provider (.killed signal stage.told)

theorem certified_error {E A : Type} {outcome : Except E A} {e : E}
    (found : certified outcome = .error e) : outcome = .error e := by
  cases outcome with
  | ok a => cases found
  | error other =>
    cases found
    rfl

theorem loaded_validated {cfg : Config} (loaded : host.load = .ok cfg) :
    ∃ p, validate host.platform.parsers host.platform.usizeMax p = .ok cfg := by
  simp only [Host.load, load, loadEnv, Outcomes.bind_ok_iff, Outcomes.mapError_ok_iff] at loaded
  obtain ⟨env,_,file,_,valid⟩ := loaded
  exact ⟨_,valid⟩

theorem bound_started (bound : Bound host) (moment : Moment host.timer) :
    StartedSite (host.config bound.cfg.val).site (bound.site moment) := by
  obtain ⟨p,valid⟩ := loaded_validated bound.cfg.property
  refine ⟨⟨⟨p,_,_,_,_,_,valid,bound.built,moment.below,rfl⟩,?_,rfl⟩,rfl,rfl,rfl,rfl,rfl⟩
  obtain ⟨fresh,_⟩ := initContexts_ok bound.built
  change JtiReplayStore.new bound.cfg.val.auth = JtiReplayStore.new bound.vault.authConfig
  rw [fresh.config_eq]

theorem init_probed {path : PathText} {disk : RootState} {known : PathText}
    (opened : StartupProbe.init path host.failures host.random host.root = (disk, .ok known)) :
    known = path ∧ Probed host disk := by
  simp only [StartupProbe.init, Prod.mk.injEq] at opened
  obtain ⟨rfl,passed⟩ := opened
  cases outcome : (runInitProbe path host.failures host.random host.root).2 with
  | error e =>
    rw [outcome] at passed
    cases passed
  | ok u =>
    rw [outcome] at passed
    cases passed
    obtain ⟨before,after,rooted,vacant,disk,left⟩ := start_ok outcome
    exact ⟨rfl,before,after,rooted,disk,vacant,left⟩

theorem mounted_store (mounted : Mounted host) {root : String}
    (configured : mounted.cfg.val.storageBackend = .localFs root) :
    mounted.store = some (host.mount root.toList mounted.disk) ∧ Probed host mounted.disk := by
  have opened := mounted.opened
  simp only [Host.initFromConfig, configured] at opened
  cases found : StartupProbe.init root.toList host.failures host.random host.root with
  | mk disk outcome =>
    rw [found] at opened
    cases outcome with
    | error e => cases opened
    | ok path =>
      obtain ⟨rfl,probed⟩ := init_probed found
      simp only [Except.map, Prod.mk.injEq, Except.ok.injEq] at opened
      obtain ⟨rfl,mounts⟩ := opened
      exact ⟨mounts.symm,probed⟩

theorem mounted_none (mounted : Mounted host) (configured : mounted.cfg.val.storageBackend = .none) :
    mounted.store = none := by
  have opened := mounted.opened
  simp only [Host.initFromConfig, configured, Prod.mk.injEq, Except.ok.injEq] at opened
  exact opened.2.symm

theorem announced_ready (installed : Installed host) (moment : Moment host.timer) :
    Ready installed (launch (installed.site moment) [.serverStarted installed.addr]) where
  launched := launch_launched (bound_started installed.toBound moment) moment.representable _
  announced := rfl
  store := rfl
  probed := fun _ configured => mounted_store installed.toMounted configured
  storeless := mounted_none installed.toMounted

theorem advance_chronicle {s : Start host} (log : s.log = s.stage.told) : Chronicle provider s.advance := by
  obtain ⟨moment,stage,pending,told⟩ := s
  change told = stage.told at log
  subst log
  unfold Start.advance
  cases stage with
  | loading =>
    dsimp only
    cases loaded : certified host.load with
    | ok cfg => exact .starting rfl
    | error e => exact .failed (.config (certified_error loaded)) rfl
  | connecting cfg =>
    dsimp only
    cases connected : certified host.httpClient.2 with
    | ok client => exact .starting rfl
    | error e => exact .failed (.client cfg (certified_error connected)) rfl
  | discovering connected =>
    dsimp only
    cases built : certified (initContexts host.platform connected.cfg.val (host.answers .vault)
        (host.answers .admin)) with
    | ok contexts => exact .starting (List.append_nil _)
    | error fault =>
      cases fault with
      | panicked => exact .panicked connected (certified_error built)
      | error e =>
        exact .failed (.contexts connected (certified_error built)) (by rw [List.append_nil]; rfl)
  | probing contexts =>
    dsimp only
    split
    · exact .starting rfl
    · rename_i e opened
      exact .failed (.storage contexts (congrArg Prod.snd opened)) rfl
  | binding mounted =>
    dsimp only
    cases found : certified (host.bind mounted.cfg.val.bindAddress) with
    | ok addr => exact .starting (List.append_nil _)
    | error source => exact .failed (.bind mounted (certified_error found)) (by rw [List.append_nil]; rfl)
  | installing bound =>
    dsimp only
    cases found : certified host.installSignals with
    | ok signals => exact .starting (List.append_nil _)
    | error source => exact .failed (.signalSetup bound (certified_error found)) (by rw [List.append_nil]; rfl)
  | announcing installed =>
    have launched := announced_ready installed moment
    have begun (p : Process S) : run (processStep (host.config installed.cfg.val) provider) p [] = some p := rfl
    exact .running launched rfl (begun _)

theorem process_moved {told : List Line} {installed : Installed host} {pending : List ShutdownSignal}
    {p : Process S} {l : Life host} {event : Processes.Event}
    (taken : lifeStep host provider (.running told installed pending p) (.process event) = some l) :
    ∃ q, processStep (host.config installed.cfg.val) provider p event = some q ∧
      l = .running told installed pending q := by
  cases event with
  | signal => cases taken
  | _ =>
    obtain ⟨q,moved,rfl⟩ := Option.map_eq_some_iff.mp taken
    exact ⟨q,moved,rfl⟩

theorem lifeStep_chronicle {l m : Life host} {e : LifeEvent} (before : Chronicle provider l)
    (taken : lifeStep host provider l e = some m) : Chronicle provider m := by
  cases before with
  | starting log =>
    cases e with
    | advance =>
      cases taken
      exact advance_chronicle log
    | tick clock instant =>
      obtain ⟨moment,_,rfl⟩ := Option.map_eq_some_iff.mp taken
      exact .starting log
    | signal signal =>
      simp only [lifeStep] at taken
      split at taken
      · cases taken
        exact .starting log
      · rename_i deaf
        cases taken
        rw [log]
        exact .killed (Bool.not_eq_true _ ▸ deaf)
    | deliver | process => cases taken
  | running ready log reached =>
    cases e with
    | advance | tick => cases taken
    | signal =>
      cases taken
      exact .running ready log reached
    | deliver signal =>
      simp only [lifeStep, Option.ite_none_right_eq_some] at taken
      obtain ⟨q,moved,rfl⟩ := Option.map_eq_some_iff.mp taken.2
      exact .running ready log (run_snoc reached moved)
    | process event =>
      obtain ⟨q,moved,rfl⟩ := process_moved taken
      exact .running ready log (run_snoc reached moved)
  | failed | panicked | killed => cases e <;> cases taken

theorem reachable_chronicle {moment : Moment host.timer} {events : List LifeEvent} {l : Life host}
    (taken : run (lifeStep host provider) (powerOn host moment) events = some l) : Chronicle provider l :=
  run_invariant (Chronicle provider) lifeStep_chronicle (.starting rfl) taken

def Farewell : LogEvent → Prop
  | .shutdownInitiated _ _ | .shutdownCompleted _ => True
  | _ => False

theorem process_log {c : ProcessConfig} {start p : Process S} {actions : List Processes.Event}
    (taken : run (processStep c provider) start actions = some p) :
    ∃ told, p.log = start.log ++ told ∧ ∀ e ∈ told, Farewell e := by
  refine run_invariant (fun p : Process S => ∃ told, p.log = start.log ++ told ∧ ∀ e ∈ told, Farewell e)
    ?_ ⟨[],(List.append_nil _).symm,nofun⟩ taken
  rintro p e q ⟨told,log,each⟩ next
  have longer {e : LogEvent} (farewell : Farewell e) (logged : q.log = p.log ++ [e]) :
      ∃ told, q.log = start.log ++ told ∧ ∀ e ∈ told, Farewell e := by
    refine ⟨told ++ [e],by rw [logged, log, List.append_assoc],fun other member => ?_⟩
    rcases List.mem_append.mp member with before | last
    · exact each other before
    · cases List.mem_singleton.mp last
      exact farewell
  rcases Shutdowns.moved_log (step_moved next) with
    ⟨steady,_⟩ | ⟨signal,_,_,_,_,logged⟩ | ⟨clean,_,_,_,_,logged,_⟩
  · exact ⟨told,steady.log.trans log,each⟩
  · exact longer (e := .shutdownInitiated signal.name c.drainTimeoutSecs) trivial logged
  · exact longer (e := .shutdownCompleted clean) trivial logged

def announcements (log : List Line) : List SocketAddr :=
  log.filterMap fun
    | .event (.serverStarted addr) => some addr
    | _ => none

def probeFailures (log : List Line) : List LogEvent :=
  log.filterMap fun
    | .event (.storageFailed root check cause) => some (.storageFailed root check cause)
    | _ => none

theorem announcements_append (front back : List Line) :
    announcements (front ++ back) = announcements front ++ announcements back := List.filterMap_append

theorem probeFailures_append (front back : List Line) :
    probeFailures (front ++ back) = probeFailures front ++ probeFailures back := List.filterMap_append

def Silent (log : List Line) : Prop := announcements log = [] ∧ probeFailures log = []

theorem Silent.append {front back : List Line} (first : Silent front) (second : Silent back) :
    Silent (front ++ back) := by
  refine ⟨?_,?_⟩
  · rw [announcements_append, first.1, second.1]
    rfl
  · rw [probeFailures_append, first.2, second.2]
    rfl

theorem storageReady_silent (cfg : Config) : Silent (storageReady cfg) := by
  unfold storageReady
  cases cfg.storageBackend <;> exact ⟨rfl,rfl⟩

theorem httpClient_silent (host : Host S) : Silent host.httpClient.1 := by
  unfold Host.httpClient
  split
  · exact ⟨rfl,rfl⟩
  · exact ⟨rfl,rfl⟩
  · split <;> exact ⟨rfl,rfl⟩

theorem told_silent (stage : Stage host) : Silent stage.told := by
  have client := httpClient_silent host
  cases stage with
  | loading | connecting => exact ⟨rfl,rfl⟩
  | discovering | probing => exact client
  | binding mounted | installing bound | announcing installed => exact client.append (storageReady_silent _)

theorem farewell_silent {told : List LogEvent} (each : ∀ e ∈ told, Farewell e) :
    Silent (told.map .event) := by
  constructor
  · refine List.filterMap_eq_nil_iff.mpr fun line member => ?_
    obtain ⟨e,inside,rfl⟩ := List.mem_map.mp member
    cases e <;> first | rfl | exact (each _ inside).elim
  · refine List.filterMap_eq_nil_iff.mpr fun line member => ?_
    obtain ⟨e,inside,rfl⟩ := List.mem_map.mp member
    cases e <;> first | rfl | exact (each _ inside).elim

def Life.announced : Life host → List SocketAddr
  | .running _ installed _ _ => [installed.addr]
  | _ => []

def Life.probeFailed : Life host → List LogEvent
  | .failed (.storage e) _ => [emitStorageStartupFailed e]
  | _ => []

/-- What has become of a signal: it has killed a process that had not announced
    itself, or it is pending before a coordinator that is going to listen, or the
    coordinator has heard one. -/
inductive Noted : Life host → Prop where
  | killed {signal log} (unannounced : announcements log = []) : Noted (.killed signal log)
  | awaits {s} (stands : s.stage.handles = true) (some : s.pending ≠ []) : Noted (.starting s)
  | waits {told installed pending p} (some : pending ≠ []) : Noted (.running told installed pending p)
  | heard {told installed pending p} (knows : p.coordinator ≠ .listening) :
      Noted (.running told installed pending p)

theorem moved_heard {c : ProcessConfig} {p q : Process S} {e : Processes.Event} (moved : Moved c provider p e q)
    (told : p.coordinator ≠ .listening) : q.coordinator ≠ .listening := by
  rcases Shutdowns.moved_log moved with ⟨steady,_⟩ | ⟨_,_,heard,_⟩ | ⟨_,_,_,_,same,_⟩
  · exact mt steady.coordinator.mp told
  · exact heard
  · rw [same]
    exact told

theorem signal_heard {c : ProcessConfig} {p q : Process S} {signal : ShutdownSignal}
    (taken : processStep c provider p (.signal signal) = some q) : q.coordinator ≠ .listening := by
  cases step_moved taken with
  | signalled => exact nofun
  | signalledAgain deaf => exact deaf
  | turned idle => rcases idle with ⟨impossible,_⟩ | ⟨impossible,_⟩ | ⟨impossible,_⟩ <;> cases impossible

theorem insert_some (signal : ShutdownSignal) (pending : List ShutdownSignal) : pending.insert signal ≠ [] :=
  List.ne_nil_of_mem (List.mem_insert_self ..)

theorem signal_noted {l m : Life host} {signal : ShutdownSignal} (chronicle : Chronicle provider l)
    (taken : lifeStep host provider l (.signal signal) = some m) : Noted m := by
  cases l with
  | starting s =>
    simp only [lifeStep] at taken
    split at taken
    · rename_i stands
      cases taken
      exact .awaits stands (insert_some signal s.pending)
    · cases taken
      cases chronicle with
      | starting log =>
        refine .killed ?_
        rw [log]
        exact (told_silent s.stage).1
  | running told installed pending p =>
    cases taken
    exact .waits (insert_some signal pending)
  | failed | panicked | killed => cases taken

theorem step_noted {l m : Life host} {e : LifeEvent} (noted : Noted l) (chronicle : Chronicle provider l)
    (taken : lifeStep host provider l e = some m) : Noted m := by
  cases e with
  | signal signal => exact signal_noted chronicle taken
  | advance =>
    cases noted with
    | killed | waits | heard => cases taken
    | @awaits s stands some =>
      cases taken
      obtain ⟨moment,stage,pending,log⟩ := s
      cases stage with
      | announcing installed =>
        have running (p : Process S) : Noted (.running log installed pending p) := .waits some
        exact running _
      | _ => cases stands
  | tick clock instant =>
    cases noted with
    | killed | waits | heard => cases taken
    | awaits stands some =>
      obtain ⟨moment,_,rfl⟩ := Option.map_eq_some_iff.mp taken
      exact .awaits stands some
  | deliver signal =>
    cases l with
    | running told installed pending p =>
      simp only [lifeStep, Option.ite_none_right_eq_some] at taken
      obtain ⟨q,moved,rfl⟩ := Option.map_eq_some_iff.mp taken.2
      exact .heard (signal_heard moved)
    | _ => cases taken
  | process event =>
    cases l with
    | running told installed pending p =>
      obtain ⟨q,moved,rfl⟩ := process_moved taken
      cases noted with
      | waits some => exact .waits some
      | heard knows => exact .heard (moved_heard (step_moved moved) knows)
    | _ => cases taken

theorem deliver_initiates {told : List Line} {installed : Installed host} {pending : List ShutdownSignal}
    {p : Process S} (listens : p.coordinator = .listening) {signal : ShutdownSignal}
    (waits : signal ∈ pending) :
    ∃ q, lifeStep host provider (.running told installed pending p) (.deliver signal) =
        some (.running told installed (pending.erase signal) q) ∧ q.coordinator = .initiated ∧
      q.log = p.log ++ [.shutdownInitiated signal.name installed.cfg.val.drainTimeoutSecs] := by
  let heard : Process S := { p with
    coordinator := .initiated
    log := p.log ++ [.shutdownInitiated signal.name installed.cfg.val.drainTimeoutSecs] }
  refine ⟨heard,?_,rfl,rfl⟩
  simp only [lifeStep, if_pos waits, processStep, if_pos listens, Option.map_some]
  rfl

def Answered (provider : BlockStorage.StorageProvider S) : Life host → Prop
  | .starting s => s.stage.handles = true ∧ s.pending ≠ []
  | .running told installed pending p => p.coordinator ≠ .listening ∨
    ∃ signal ∈ pending, ∃ q, lifeStep host provider (.running told installed pending p) (.deliver signal) =
        some (.running told installed (pending.erase signal) q) ∧ q.coordinator = .initiated ∧
      q.log = p.log ++ [.shutdownInitiated signal.name installed.cfg.val.drainTimeoutSecs]
  | .killed _ log => announcements log = []
  | .failed _ _ | .panicked _ => False

end Starts

/-- The environment names a file, moves the store to a directory and holds a foreign
    entry that is no text. -/
def sampleHost : Host (BlockStorage.BlockId → Option Bytes) where
  deployment := sampleProcess.site.deployment
  web := SiteRoutes.plainWeb
  ip := ProxyTrust.plainLibrary
  reader := BlockRoutes.plainReader
  usizeBits := 64
  timer := systemTimer
  vars := [(.utf8 "LS_COLORS", .other [0xff]), (.utf8 "APOK_CONFIG_PATH", .utf8 "/etc/apokryphos.toml"),
    (.utf8 "APOK_STORAGE_BACKEND", .utf8 "local_fs"), (.utf8 "APOK_STORAGE_LOCAL_FS_ROOT", .utf8 "/blocks")]
  files := {
    readToString := fun _ => .ok "the sample"
    read := fun _ => .error "no such file"
    fromToml := fun _ => .ok RefreshTasks.samplePartial }
  fromPem := fun _ => .error "no certificate"
  buildClient := fun _ => .ok ()
  answers := fun
    | .vault => RefreshTasks.sampleAnswers "https://vault.test/keys" "AAAA"
    | .admin => RefreshTasks.sampleAnswers "https://admin.test/keys" "BBBB"
  root := emptyRoot
  failures := noFailures
  random := "x"
  mount := fun _ _ _ => none
  bind := fun addr => .ok addr
  installSignals := .ok ()

def samplePower : Moment sampleHost.timer := ⟨100, 0, by decide, Nat.zero_le _⟩

def earlySignal : List LifeEvent := List.replicate 6 .advance ++ [.signal .sigterm, .advance]

theorem early_runs : ∃ told installed pending p, run (lifeStep sampleHost BlockRoutes.atomicMap)
      (powerOn sampleHost samplePower) earlySignal = some (.running told installed pending p) ∧
    pending = [.sigterm] ∧ installed.cfg.val.storageBackend = .localFs "/blocks" ∧
    installed.addr = ⟨.v4 0x7F000001, 8443⟩ := by
  have evaluated : (run (lifeStep sampleHost BlockRoutes.atomicMap)
      (powerOn sampleHost samplePower) earlySignal).any (fun
        | .running _ installed pending _ => decide (pending = [.sigterm] ∧
            installed.cfg.val.storageBackend = .localFs "/blocks" ∧
            installed.addr = ⟨.v4 0x7F000001, 8443⟩)
        | _ => false) = true := by decide +kernel
  obtain ⟨l,taken,runs⟩ := (Option.any_eq_true _ _).mp evaluated
  cases l with
  | running told installed pending p => exact ⟨told,installed,pending,p,taken,of_decide_eq_true runs⟩
  | _ => cases runs

section Results
variable {S : Type} {host : Host S} {provider : BlockStorage.StorageProvider S} {moment : Moment host.timer}
  {events : List LifeEvent}

/-- A process that runs has come through the whole start, and whatever it does is a
    run of a process that has just been launched, over a run of a site that has just
    been started. -/
theorem running_refines {told : List Line} {installed : Installed host}
    {pending : List ShutdownSignal} {p : Process S}
    (taken : run (lifeStep host provider) (powerOn host moment) events =
      some (.running told installed pending p)) :
    told = host.httpClient.1 ++ storageReady installed.cfg.val ∧
    ∃ start actions visits, Ready installed start ∧
      run (processStep (host.config installed.cfg.val) provider) start actions = some p ∧
      StartedSite (host.config installed.cfg.val).site start.site ∧
      run (siteStep (host.config installed.cfg.val).site provider) start.site visits = some p.site := by
  cases reachable_chronicle taken with
  | running ready log reached =>
    obtain ⟨visits,served⟩ := process_site_run reached
    exact ⟨log,_,_,visits,ready,reached,ready.launched.site,served⟩

theorem running_refines_early : ∃ (told : List Line) (installed : Installed sampleHost)
    (start p : Process (BlockStorage.BlockId → Option Bytes)) (visits : List ServedRequests.Event),
    Ready installed start ∧ told = [.event (.storageReady "/blocks".toList)] ∧
    start.log = [.serverStarted ⟨.v4 0x7F000001, 8443⟩] ∧
    run (siteStep (sampleHost.config installed.cfg.val).site BlockRoutes.atomicMap) start.site visits =
      some p.site := by
  obtain ⟨told,installed,pending,p,taken,_,backend,addr⟩ := early_runs
  obtain ⟨log,start,_,visits,ready,_,_,served⟩ := running_refines taken
  refine ⟨told,installed,start,p,visits,ready,?_,?_,served⟩
  · rw [log, storageReady, backend]
    rfl
  · rw [ready.announced, addr]

/-- No signal is lost, and none kills a server that has announced itself. Wherever a
    signal falls in the life of the process, it either kills a start that has announced
    nothing, or the start goes through and the coordinator has begun the shutdown or
    can do so at once. -/
theorem signals_answered {l : Life host}
    (taken : run (lifeStep host provider) (powerOn host moment) events = some l)
    {signal : ShutdownSignal} (signalled : .signal signal ∈ events) : Answered provider l := by
  have noted : (∃ signal, .signal signal ∈ events) → Noted l := by
    refine history_invariant (fun events l => (∃ signal, .signal signal ∈ events) → Noted l) ?_ ?_ taken
    · rintro ⟨_,impossible⟩
      cases impossible
    · rintro front l e m reached before next ⟨signal,member⟩
      have chronicle := reachable_chronicle reached
      rcases List.mem_append.mp member with earlier | now
      · exact step_noted (before ⟨signal,earlier⟩) chronicle next
      · cases List.mem_singleton.mp now
        exact signal_noted chronicle next
  cases noted ⟨signal,signalled⟩ with
  | killed unannounced => exact unannounced
  | awaits stands some => exact ⟨stands,some⟩
  | heard knows => exact .inl knows
  | @waits told installed pending p some =>
    by_cases listens : p.coordinator = .listening
    · obtain ⟨signal,waits⟩ := List.exists_mem_of_ne_nil pending some
      exact .inr ⟨signal,waits,deliver_initiates listens waits⟩
    · exact .inl listens

theorem signals_answered_early : ∃ (told : List Line) (installed : Installed sampleHost)
    (p : Process (BlockStorage.BlockId → Option Bytes)),
    Answered BlockRoutes.atomicMap (.running told installed [.sigterm] p) := by
  obtain ⟨told,installed,pending,p,taken,rfl,_⟩ := early_runs
  have signalled : .signal .sigterm ∈ earlySignal := by simp [earlySignal]
  exact ⟨told,installed,p,signals_answered taken signalled⟩

end Results

end Bootstrap
