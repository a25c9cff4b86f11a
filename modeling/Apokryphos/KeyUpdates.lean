import Apokryphos.BackgroundTasks
import Apokryphos.InstallOrder
import Apokryphos.RefreshClaims

/-!
The key sets that the running process puts into its contexts, in the order in which
their fetches started. The task of a context awaits each scheduled refresh before it
takes the next tick, so these follow one another. An on-demand refresh runs beside
them and beside others of another rate limit window; where one takes part, the key
set that is stored last wins, also when its fetch is the older one.
-/
namespace KeyUpdates
open BackgroundTasks InstallOrder OidcContexts PeriodicLoops Processes RefreshClaims ServedRequests
open ServerConfig StepRuns
open RefreshTasks (TaskKind World)

def processMark {S : Type} (g : AudienceTag) (p : Process S) : Processes.Event → Option Mark
  | .site (.act (.refresh a)) => mark g p.site.server.world a
  | _ => none

section Runs
variable {S : Type} {c : ProcessConfig} {provider : BlockStorage.StorageProvider S}
  {start p q : Process S} {e : Processes.Event} {happenings : List Processes.Event} {g : AudienceTag}

inductive Refreshing (d : GuardedRequests.Deployment) (s u : GuardedRequests.Server) :
    GuardedRequests.Action → Prop where
  | still {action} (same : u.world = s.world) (other : ∀ a, action ≠ .refresh a) : Refreshing d s u action
  | own {a} (moved : RefreshTasks.step d.platform s.world a = some u.world) : Refreshing d s u (.refresh a)
  | begun {id task tag} (moved : RefreshTasks.step d.platform s.world (.spawn task .onDemand tag) = some u.world) :
      Refreshing d s u (.startRefresh id task)
  | torn {id task} (moved : RefreshTasks.step d.platform s.world (.drop task) = some u.world) :
      Refreshing d s u (.abandon id)

theorem server_refreshing {d : GuardedRequests.Deployment} {s u : GuardedRequests.Server}
    {action : GuardedRequests.Action} (taken : GuardedRequests.step d s action = some u) :
    Refreshing d s u action := by
  cases action with
  | refresh a =>
    obtain ⟨w,moved,rfl⟩ := Option.map_eq_some_iff.mp taken
    exact .own moved
  | passTime instant =>
    simp only [GuardedRequests.step, Option.ite_none_right_eq_some] at taken
    cases taken.2
    exact .still rfl (by simp)
  | maintenance =>
    cases taken
    exact .still rfl (by simp)
  | arrive id guard request =>
    simp only [GuardedRequests.step, Option.ite_none_right_eq_some] at taken
    cases taken.2
    exact .still rfl (by simp)
  | proceed id =>
    obtain ⟨v,_,rest⟩ := Option.bind_eq_some_iff.mp taken
    obtain ⟨next,_,rfl⟩ := Option.map_eq_some_iff.mp rest
    exact .still rfl (by simp)
  | startRefresh id task =>
    obtain ⟨v,_,rest⟩ := Option.bind_eq_some_iff.mp taken
    split at rest
    · obtain ⟨w,spawned,rfl⟩ := Option.map_eq_some_iff.mp rest
      exact .begun spawned
    · cases rest
  | abandon id =>
    obtain ⟨v,_,rest⟩ := Option.bind_eq_some_iff.mp taken
    split at rest
    · obtain ⟨w,gone,rfl⟩ := Option.map_eq_some_iff.mp rest
      unfold GuardedRequests.dropRefresh at gone
      split at gone
      · cases gone
        exact .still rfl (by simp)
      · exact .torn gone
    · cases rest

/-- What a step of the process does to the refreshes. Only a tick starts a scheduled one. -/
inductive Steps (c : ProcessConfig) (g : AudienceTag) (p q : Process S) (e : Processes.Event) : Prop where
  | still (same : q.site.server.world = p.site.server.world) (silent : processMark g p e = none)
  | moved {a} (step : RefreshTasks.step c.site.deployment.platform p.site.server.world a =
        some q.site.server.world) (marked : processMark g p e = mark g p.site.server.world a)
      (ticks : ∀ task tag, a = .spawn task .scheduled tag → e = .tick (.jwks tag) task)

theorem moved_refreshed (moved : Moved c provider p e q) (g : AudienceTag) : Steps c g p q e := by
  cases moved with
  | @site e site allowed moved =>
    cases siteStep_moved moved with
    | received _ took =>
      rcases receive_cases took with ⟨guard,u,_,entered,rfl⟩ | ⟨_,rfl⟩
      · simp only [GuardedRequests.step, Option.ite_none_right_eq_some] at entered
        cases entered.2
        exact .still rfl rfl
      · exact .still rfl rfl
    | @acted action u _ stepped =>
      have world : (p.site.noted u (turnsAway c.site.deployment p.site.server action)).server.world =
          u.world := by
        cases turnsAway c.site.deployment p.site.server action <;> rfl
      cases server_refreshing stepped with
      | still same other =>
        refine .still (world.trans same) ?_
        cases action with
        | refresh a => exact absurd rfl (other a)
        | _ => rfl
      | @own a refreshed =>
        refine .moved (refreshed.trans (congrArg some world.symm)) rfl ?_
        rintro task tag rfl
        cases allowed
      | @begun id task tag refreshed =>
        refine .moved (refreshed.trans (congrArg some world.symm)) rfl ?_
        intro task tag same
        cases same
      | @torn id task refreshed =>
        refine .moved (refreshed.trans (congrArg some world.symm)) rfl ?_
        intro task tag same
        cases same
    | handled | lost | left => exact .still rfl rfl
  | @spawned tag task loop site took moved works =>
    simp only [siteStep, Option.map_eq_some_iff] at moved
    obtain ⟨u,spawned,rfl⟩ := moved
    obtain ⟨w,stepped,rfl⟩ := Option.map_eq_some_iff.mp spawned
    refine .moved stepped rfl ?_
    intro other tag' same
    cases same
    rfl
  | @worked id outcome action site loop moved work took =>
    rcases work with ⟨rfl,rfl⟩ | ⟨tag,rfl,rfl⟩
    · cases moved
      exact .still rfl rfl
    · simp only [siteStep, Option.map_eq_some_iff] at moved
      obtain ⟨u,fetched,rfl⟩ := moved
      obtain ⟨w,stepped,rfl⟩ := Option.map_eq_some_iff.mp fetched
      exact .moved stepped rfl (by simp)
  | turned idle =>
    refine .still rfl ?_
    rcases idle with ⟨rfl,_⟩ | ⟨rfl,_⟩ | ⟨rfl,_⟩ <;> rfl
  | ticked | finished | signalled | signalledAgain | flipped | announced | drains | served | expired =>
    exact .still rfl rfl

theorem process_refresh_run (taken : run (processStep c provider) start happenings = some p)
    (g : AudienceTag) :
    ∃ actions, run (RefreshTasks.step c.site.deployment.platform) start.site.server.world actions =
        some p.site.server.world ∧
      events (RefreshTasks.step c.site.deployment.platform) (mark g) start.site.server.world actions =
        events (processStep c provider) (processMark g) start happenings := by
  refine history_invariant (fun front p => ∃ actions,
    run (RefreshTasks.step c.site.deployment.platform) start.site.server.world actions =
        some p.site.server.world ∧
      events (RefreshTasks.step c.site.deployment.platform) (mark g) start.site.server.world actions =
        events (processStep c provider) (processMark g) start front) ⟨[],rfl,rfl⟩ ?_ taken
  rintro front p e q before ⟨actions,reached,logged⟩ next
  rw [events_snoc before next]
  cases moved_refreshed (step_moved next) g with
  | still same silent =>
    rw [same, silent]
    exact ⟨actions,reached,by simpa using logged⟩
  | @moved a step marked _ =>
    exact ⟨actions ++ [a],run_snoc reached step,by rw [events_snoc reached step, logged, marked]⟩

/-- A scheduled refresh that is not over is the one that its task works on. -/
def Single (p : Process S) : Prop :=
  ∀ t k, p.site.server.world.task t = some k → k.kind = .scheduled → RefreshTasks.Over k.phase ∨
    p.refresh k.tag = some t ∧ (p.loops (.jwks k.tag)).phase = .working

theorem moved_scheduled (moved : Moved c provider p e q) {t : Nat} {k : RefreshTasks.Task}
    (found : q.site.server.world.task t = some k) (kind : k.kind = .scheduled) :
    (∃ l, p.site.server.world.task t = some l ∧ l.tag = k.tag ∧ l.kind = k.kind ∧
      (RefreshTasks.Over l.phase → l = k)) ∨
    q.refresh k.tag = some t ∧ (q.loops (.jwks k.tag)).phase = .working := by
  cases moved_refreshed moved k.tag with
  | still same =>
    rw [same] at found
    exact .inl ⟨k,found,rfl,rfl,fun _ => rfl⟩
  | @moved a taken _ ticks =>
    have moves := RefreshTasks.step_moves taken
    cases before : p.site.server.world.task t with
    | some l =>
      obtain ⟨m,after,own,same⟩ := moves_kept moves before
      cases after.symm.trans found
      refine .inl ⟨l,rfl,own.symm,same.symm,fun done => ?_⟩
      exact Option.some.inj ((RefreshTasks.over_rests moves before done).symm.trans found)
    | none =>
      right
      rcases RefreshTasks.moves_task moves t with ⟨_,same⟩ | ⟨_,tag,spawns,_,after⟩ | ⟨_,_,known,_⟩
      · cases (same.trans before).symm.trans found
      · cases after.symm.trans found
        cases kind
        have ticked := ticks t tag spawns
        subst ticked
        cases moved with
        | turned idle => rcases idle with ⟨impossible,_⟩ | ⟨impossible,_⟩ | ⟨impossible,_⟩ <;> cases impossible
        | ticked => cases before.symm.trans found
        | spawned took moved works =>
          refine ⟨Function.update_self _ _ _,?_⟩
          dsimp only
          rw [Function.update_self]
          exact works
      · cases before.symm.trans known

theorem moved_working (moved : Moved c provider p e q) {tag : AudienceTag}
    (works : (p.loops (.jwks tag)).phase = .working) :
    (q.refresh tag = p.refresh tag ∧ (q.loops (.jwks tag)).phase = .working) ∨ Refreshed p tag := by
  have elsewhere {id : TaskId} (loop : Loop) (other : id ≠ .jwks tag) :
      (Function.update p.loops id loop (.jwks tag)).phase = .working := by
    rw [Function.update_of_ne other.symm]
    exact works
  cases moved with
  | @turned e id turn loop idle took =>
    by_cases own : id = .jwks tag
    · subst own
      cases turn_cases took <;> simp_all
    · exact .inl ⟨rfl,elsewhere loop own⟩
  | @ticked id task loop took =>
    by_cases own : id = .jwks tag
    · subst own
      cases turn_cases took <;> simp_all
    · exact .inl ⟨rfl,elsewhere loop own⟩
  | @spawned other task loop site took =>
    by_cases own : tag = other
    · subst own
      cases turn_cases took <;> simp_all
    · exact .inl ⟨Function.update_of_ne own _ _,elsewhere loop fun same => own (TaskId.jwks.inj same).symm⟩
  | @finished other outcome loop panicked done =>
    by_cases own : tag = other
    · exact .inr (own ▸ done)
    · exact .inl ⟨rfl,elsewhere loop fun same => own (TaskId.jwks.inj same).symm⟩
  | @worked id outcome action site loop moved work =>
    refine .inl ⟨rfl,elsewhere loop ?_⟩
    rintro rfl
    rcases work with ⟨_,impossible⟩ | ⟨_,_,impossible⟩ <;> cases impossible
  | site | signalled | signalledAgain | flipped | announced | drains | served | expired =>
    exact .inl ⟨rfl,works⟩

theorem moved_single (single : Single p) (moved : Moved c provider p e q) : Single q := by
  intro t k found kind
  rcases moved_scheduled moved found kind with ⟨l,before,own,same,rests⟩ | started
  · rcases single t l before (same.trans kind) with done | ⟨known,works⟩
    · exact .inl (rests done ▸ done)
    · rw [own] at known works
      rcases moved_working moved works with ⟨refresh,working⟩ | ⟨u,m,other,found',done⟩
      · exact .inr ⟨refresh.trans known,working⟩
      · cases known.symm.trans other
        cases before.symm.trans found'
        exact .inl (rests done ▸ done)
  · exact .inr started

theorem reachable_single (launched : Launched c start)
    (taken : run (processStep c provider) start happenings = some p) : Single p := by
  refine run_invariant Single (fun single next => moved_single single (step_moved next)) ?_ taken
  intro t k found _
  rw [(RefreshTasks.started_pristine launched.site.server.world).idle] at found
  cases found

def Precedes (log : List Mark) (a b : Nat) : Prop :=
  ∀ m ∈ log, ∀ n ∈ log, m.task = a → n.task = b → [m, n].Sublist log

def Ahead (w : World) (log : List Mark) (a b : Nat) : Prop :=
  Precedes log a b ∧ (Done w a ∨ ∀ m ∈ log, m.task ≠ b)

theorem ahead_kept {w w' : World} {log : List Mark} {a b : Nat} {left : Option Mark}
    (different : a ≠ b) (ahead : Ahead w log a b) (rests : Done w a → Done w' a)
    (busy : ∀ m ∈ left, m.task = a → ¬ Done w a) (follows : ∀ m ∈ left, m.task = b → Done w a) :
    Ahead w' (log ++ left.toList) a b := by
  obtain ⟨precedes,order⟩ := ahead
  constructor
  · intro m first n second own own'
    rcases List.mem_append.mp first with first | first
    · have inside : [m].Sublist log := List.singleton_sublist.mpr first
      rcases List.mem_append.mp second with second | second
      · exact (precedes m first n second own own').trans (List.sublist_append_left _ _)
      · exact inside.append (List.singleton_sublist.mpr second)
    · have idle := order.resolve_left (busy m (Option.mem_toList.mp first) own)
      rcases List.mem_append.mp second with second | second
      · exact absurd own' (idle n second)
      · have same := Option.mem_unique (Option.mem_toList.mp first) (Option.mem_toList.mp second)
        exact absurd (own.symm.trans (same ▸ own')) different
  · rcases order with done | idle
    · exact .inl (rests done)
    · by_cases begins : ∃ m ∈ left, m.task = b
      · obtain ⟨m,member,own⟩ := begins
        exact .inl (rests (follows m member own))
      · refine .inr fun m member => ?_
        rcases List.mem_append.mp member with before | now
        · exact idle m before
        · exact fun own => begins ⟨m,Option.mem_toList.mp now,own⟩

theorem mark_underway {platform : Platform} {w w' : World} {a : RefreshTasks.Action} {m : Mark}
    (taken : RefreshTasks.step platform w a = some w') (left : mark g w a = some m) :
    ∃ k, w.task m.task = some k ∧ k.tag = g ∧ ¬ RefreshTasks.Over k.phase := by
  have aims := mark_target left
  rcases RefreshTasks.moves_task (RefreshTasks.step_moves taken) m.task with
    ⟨other,_⟩ | ⟨_,_,rfl,_,_⟩ | ⟨k,next,found,_,how⟩
  · exact absurd aims other
  · cases left
  · refine ⟨k,found,?_,?_⟩
    · by_contra other
      rw [mark_elsewhere found other aims] at left
      cases left
    · rcases how with quiet | ⟨_,wrote⟩
      · exact RefreshTasks.quiet_underway quiet
      · exact RefreshTasks.writes_underway wrote

def ScheduledIn (w : World) (g : AudienceTag) (t : Nat) : Prop :=
  ∃ k, w.task t = some k ∧ k.kind = .scheduled ∧ k.tag = g

def InTurn (w : World) (g : AudienceTag) (log : List Mark) : Prop :=
  ∀ a b, a ≠ b → ScheduledIn w g a → ScheduledIn w g b → Ahead w log a b ∨ Ahead w log b a

theorem moved_inTurn {log : List Mark} (single : Single p) (moved : Moved c provider p e q)
    (fresh : ∀ t, p.site.server.world.task t = none → ∀ m ∈ log, m.task ≠ t)
    (inTurn : InTurn p.site.server.world g log) :
    InTurn q.site.server.world g (log ++ (processMark g p e).toList) := by
  cases moved_refreshed moved g with
  | still same silent =>
    rw [same, silent, Option.toList_none, List.append_nil]
    exact inTurn
  | @moved action taken marked _ =>
    have moves := RefreshTasks.step_moves taken
    rw [marked]
    have rests {t : Nat} : Done p.site.server.world t → Done q.site.server.world t := by
      rintro ⟨k,found,done⟩
      exact ⟨k,RefreshTasks.over_rests moves found done,done⟩
    have underway {m : Mark} (left : mark g p.site.server.world action = some m) :
        ¬ Done p.site.server.world m.task := by
      rintro ⟨k,found,done⟩
      obtain ⟨l,found',_,works⟩ := mark_underway taken left
      cases found.symm.trans found'
      exact works done
    -- The other scheduled refreshes are over while one of them moves.
    have alone {x y : Nat} {m : Mark} (different : x ≠ y) (first : ScheduledIn p.site.server.world g x)
        (second : ScheduledIn p.site.server.world g y) (left : mark g p.site.server.world action = some m)
        (own : m.task = y) : Done p.site.server.world x := by
      obtain ⟨k,found,kind,tag⟩ := first
      obtain ⟨l,found',kind',tag'⟩ := second
      rcases single x k found kind with done | ⟨known,_⟩
      · exact ⟨k,found,done⟩
      · rcases single y l found' kind' with done | ⟨known',_⟩
        · exact absurd ⟨l,own ▸ found',done⟩ (underway left)
        · rw [tag] at known
          rw [tag'] at known'
          exact absurd (Option.some.inj (known.symm.trans known')) different
    have unborn {x y : Nat} (free : p.site.server.world.task x = none) (started : ScheduledIn q.site.server.world g x) :
        Ahead q.site.server.world (log ++ (mark g p.site.server.world action).toList) y x := by
      have silent : mark g p.site.server.world action = none := by
        obtain ⟨k,found,_,_⟩ := started
        rcases RefreshTasks.moves_task moves x with ⟨_,same⟩ | ⟨_,_,rfl,_,_⟩ | ⟨_,_,known,_⟩
        · cases (same.trans free).symm.trans found
        · rfl
        · cases free.symm.trans known
      rw [silent, Option.toList_none, List.append_nil]
      exact ⟨fun m _ n second _ own => absurd own (fresh x free n second),.inr (fresh x free)⟩
    have earlier {x : Nat} (scheduled : ScheduledIn q.site.server.world g x) {k : RefreshTasks.Task}
        (found : p.site.server.world.task x = some k) : ScheduledIn p.site.server.world g x := by
      obtain ⟨l,after,kind,tag⟩ := scheduled
      obtain ⟨m,after',own,same⟩ := moves_kept moves found
      cases after.symm.trans after'
      exact ⟨k,found,same.symm.trans kind,own.symm.trans tag⟩
    intro a b different first second
    cases before : p.site.server.world.task a with
    | none => exact .inr (unborn before first)
    | some k =>
      cases before' : p.site.server.world.task b with
      | none => exact .inl (unborn before' second)
      | some l =>
        have one := earlier first before
        have two := earlier second before'
        refine (inTurn a b different one two).imp (fun ahead => ?_) fun ahead => ?_
        · exact ahead_kept different ahead rests (fun m left own => own ▸ underway left)
            fun m left own => alone different one two left own
        · exact ahead_kept different.symm ahead rests (fun m left own => own ▸ underway left)
            fun m left own => alone different.symm two one left own

structure Logged (start p : Process S) (g : AudienceTag) (log : List Mark) : Prop where
  sequence : InSequence log
  known : ∀ m ∈ log, ∃ k, p.site.server.world.task m.task = some k ∧ k.tag = g
  latest : (p.site.server.world.ctx g).jwks = latest (start.site.server.world.ctx g).jwks log
  inTurn : InTurn p.site.server.world g log
  credited : Credited log p.site.server.world
  apart : HeldApart p.site.server.world

theorem process_logged (launched : Launched c start)
    (taken : run (processStep c provider) start happenings = some p) (g : AudienceTag) :
    Logged start p g (events (processStep c provider) (processMark g) start happenings) := by
  have started := launched.site.server.world
  have fits {front : List Processes.Event} {p : Process S}
      (reached : run (processStep c provider) start front = some p) (t : Nat) :
      TaskFits g (own (events (processStep c provider) (processMark g) start front) t) t
        (p.site.server.world.task t) := by
    obtain ⟨actions,moved,same⟩ := process_refresh_run reached g
    rw [← same]
    exact run_fits started moved g t
  have inTurn := history_invariant (fun front p =>
      run (processStep c provider) start front = some p ∧ InTurn p.site.server.world g
        (events (processStep c provider) (processMark g) start front)) ⟨rfl,by
      rintro a b _ ⟨k,found,_⟩ _
      rw [(RefreshTasks.started_pristine started).idle] at found
      cases found⟩ (by
      rintro front p e q before ⟨reached,inTurn⟩ next
      refine ⟨run_snoc before next,?_⟩
      rw [events_snoc before next]
      refine moved_inTurn (reachable_single launched reached) (step_moved next) ?_ inTurn
      rintro t free m member rfl
      obtain ⟨l,found,_⟩ := fits_task (fits reached m.task) member
      cases free.symm.trans found) taken
  obtain ⟨actions,moved,same⟩ := process_refresh_run taken g
  have credited := run_credited started moved g
  rw [same] at credited
  have latest := run_latest moved g
  rw [same] at latest
  have sequence := run_inSequence started moved g
  rw [same] at sequence
  exact {
    sequence := sequence
    known := fun m member => fits_task (fits taken m.task) member
    latest := latest
    inTurn := inTurn.2
    credited := credited
    apart := reachable_heldApart started moved }

/-- The refreshes that may store in another order than their fetches started: a
    scheduled one and an on-demand one, or two on-demand ones whose claims lie an
    interval apart. -/
inductive Unordered (w : World) (a b : Nat) : Prop where
  | mixed {k l} (first : w.task a = some k) (second : w.task b = some l) (kinds : k.kind ≠ l.kind)
  | onDemand {k l x y} (first : w.task a = some k) (second : w.task b = some l)
      (kinds : k.kind = .onDemand ∧ l.kind = .onDemand) (claimed : held k.phase = some x)
      (claimed' : held l.phase = some y)
      (apart : x.toNat + interval (w.ctx k.tag) ≤ y.toNat ∨ y.toNat + interval (w.ctx k.tag) ≤ x.toNat)

theorem Logged.scheduled {log : List Mark} {a b : Nat} (logged : Logged start p g log) (different : a ≠ b)
    (first : ScheduledIn p.site.server.world g a) (second : ScheduledIn p.site.server.world g b)
    (order : [Mark.started a, .started b].Sublist log) {m : Mark} (member : m ∈ log) (own : m.task = a) :
    [m, .started b].Sublist log := by
  have begun : Mark.started a ∈ log := order.subset (by simp)
  have begun' : Mark.started b ∈ log := order.subset (by simp)
  rcases logged.inTurn a b different first second with ahead | ahead
  · exact ahead.1 m member _ begun' own rfl
  · exact (not_both_orders (inSequence_nodup logged.sequence) order
      (ahead.1 _ begun' _ begun rfl rfl)).elim

theorem Logged.unordered {log : List Mark} {a b : Nat} {first second : SigningKeys.Jwks}
    (logged : Logged start p g log)
    (crossed : [Mark.started b, .started a, .installed a first, .installed b second].Sublist log) :
    Unordered p.site.server.world a b := by
  have once := inSequence_nodup logged.sequence
  have different : a ≠ b := by
    rintro rfl
    have twice := crossed.nodup once
    simp at twice
  have stored : Mark.installed a first ∈ log := crossed.subset (by simp)
  have stored' : Mark.installed b second ∈ log := crossed.subset (by simp)
  obtain ⟨k,found,tag⟩ := logged.known _ stored
  obtain ⟨l,found',tag'⟩ := logged.known _ stored'
  by_cases kinds : k.kind = l.kind
  · cases kind : k.kind with
    | scheduled =>
      have before := logged.scheduled different.symm ⟨l,found',kinds.symm.trans kind,tag'⟩ ⟨k,found,kind,tag⟩
        (List.Sublist.trans (by simp) crossed) stored' rfl
      have after : [Mark.started a, .installed b second].Sublist log :=
        List.Sublist.trans (by simp) crossed
      exact (not_both_orders once before after).elim
    | onDemand =>
      obtain ⟨x,done⟩ := logged.credited a first k stored found kind
      obtain ⟨y,done'⟩ := logged.credited b second l stored' found' (kinds.symm.trans kind)
      have claimed := concluded_held done
      have claimed' := concluded_held done'
      exact .onDemand found found' ⟨kind,kinds.symm.trans kind⟩ claimed claimed'
        (logged.apart a b k l x y different found found' (tag.trans tag'.symm) claimed claimed')
  · exact .mixed found found' kinds

/-- For every run of the process: a context holds the key set stored last, and each
    stored key set is what the fetch of the same refresh answered. A scheduled refresh
    starts its fetch only after every earlier scheduled one of its context has left its
    last mark. A key set is replaced by that of a newer fetch, except where a scheduled
    and an on-demand refresh overlap, or two on-demand ones whose claims lie an interval
    apart. -/
theorem installs_traced (launched : Launched c start)
    (taken : run (processStep c provider) start happenings = some p) (g : AudienceTag) :
    let log := events (processStep c provider) (processMark g) start happenings
    (p.site.server.world.ctx g).jwks = latest (start.site.server.world.ctx g).jwks log ∧
    (∀ t new, .installed t new ∈ log →
      [Mark.started t, .answered t new, .installed t new].Sublist log) ∧
    (∀ a b, a ≠ b → ScheduledIn p.site.server.world g a → ScheduledIn p.site.server.world g b →
      [Mark.started a, .started b].Sublist log → ∀ m ∈ log, m.task = a → [m, .started b].Sublist log) ∧
    ∀ a b first second, [Mark.installed a first, .installed b second].Sublist log →
      [Mark.started a, .started b].Sublist log ∨
        [Mark.started b, .started a, .installed a first, .installed b second].Sublist log ∧
          Unordered p.site.server.world a b := by
  intro log
  have logged : Logged start p g log := process_logged launched taken g
  refine ⟨logged.latest,fun t new member => installed_traced logged.sequence member,?_,?_⟩
  · intro a b different first second order m member own
    exact logged.scheduled different first second order member own
  · intro a b first second stored
    exact (install_order logged.sequence stored).imp_right fun crossed => ⟨crossed,logged.unordered crossed⟩

end Runs

def rotatedProcess : ProcessConfig := { sampleProcess with site := rotatedConfig }

def request (id : Nat) : List Processes.Event := (suspendedVisit id id).map .site

def update (t : Nat) (modulus : String) : List Processes.Event :=
  [.site (.act (.refresh (.fetched t (RefreshTasks.sampleKeys modulus)))),
    .site (.act (.refresh (.advance t))), .site (.act (.refresh (.advance t)))]

def startScheduled : Processes.Event := .site (.act (.refresh (.advance 0)))

def start : Mark → Option Nat
  | .started t => some t
  | .answered _ _ | .installed _ _ => none

/-- The refreshes whose fetches started and those whose key sets were stored, in order. -/
def stores (log : List Mark) : List Nat × List Nat :=
  (log.filterMap start, (log.filter fun m => m.install.isSome).map Mark.task)

theorem rotated_process (happenings : List Processes.Event) (holds : List Mark → Prop)
    (evaluated : ∃ w, RefreshTasks.Started RefreshTasks.samplePlatform w ∧
      (run (processStep rotatedProcess BlockRoutes.atomicMap) (launch (emptySite (fun _ => none) w) [])
        happenings).isSome ∧
      holds (events (processStep rotatedProcess BlockRoutes.atomicMap) (processMark .vault)
        (launch (emptySite (fun _ => none) w) []) happenings)) :
    ∃ start p, Launched rotatedProcess start ∧
      run (processStep rotatedProcess BlockRoutes.atomicMap) start happenings = some p ∧
      holds (events (processStep rotatedProcess BlockRoutes.atomicMap) (processMark .vault) start happenings) := by
  obtain ⟨w,started,ends,facts⟩ := evaluated
  obtain ⟨p,taken⟩ := Option.isSome_iff_exists.mp ends
  exact ⟨_,p,launch_launched (rotated_started _ started) (Nat.zero_le _) [],taken,facts⟩

def laterUpdate : List Processes.Event :=
  request 1 ++ update 1 "CCCC" ++ firstRefresh ++ startScheduled :: update 0 "DDDD"

theorem installs_traced_later :
    ∃ (start p : Process (BlockStorage.BlockId → Option Digests.Bytes)) (log : List Mark),
      stores log = ([1, 0], [1, 0]) ∧
      (p.site.server.world.ctx .vault).jwks = latest (start.site.server.world.ctx .vault).jwks log := by
  obtain ⟨start,p,launched,taken,stored⟩ :=
    rotated_process laterUpdate (fun log => stores log = ([1, 0], [1, 0]))
      (RefreshTasks.sample_exists (by decide +kernel))
  exact ⟨start,p,_,stored,(installs_traced launched taken .vault).1⟩

def scheduledAround : List Processes.Event :=
  firstRefresh ++ startScheduled :: request 1 ++ update 1 "CCCC" ++ update 0 "DDDD"

def onDemandAround : List Processes.Event :=
  request 1 ++ firstRefresh ++ startScheduled :: update 0 "CCCC" ++ update 1 "DDDD"

def nextWindow : List Processes.Event :=
  request 0 ++ .site (.act (.refresh (.setClock 101))) :: request 1 ++ update 1 "CCCC" ++ update 0 "DDDD"

/-- A run of the process, with the order of its fetches and that of its stores. -/
def Orders (happenings : List Processes.Event) (fetched stored : List Nat) : Prop :=
  ∃ start p, Launched rotatedProcess start ∧
    run (processStep rotatedProcess BlockRoutes.atomicMap) start happenings = some p ∧
    stores (events (processStep rotatedProcess BlockRoutes.atomicMap) (processMark .vault) start happenings) =
      (fetched, stored)

/-- The key set of the newer fetch is stored first, and then replaced by the older
    one, in each of the three ways. -/
theorem older_fetch_replaces_newer :
    Orders scheduledAround [0, 1] [1, 0] ∧ Orders onDemandAround [1, 0] [0, 1] ∧
      Orders nextWindow [0, 1] [1, 0] := by
  refine ⟨?_,?_,?_⟩
  · exact rotated_process scheduledAround (fun log => stores log = ([0, 1], [1, 0]))
      (RefreshTasks.sample_exists (by decide +kernel))
  · exact rotated_process onDemandAround (fun log => stores log = ([1, 0], [0, 1]))
      (RefreshTasks.sample_exists (by decide +kernel))
  · exact rotated_process nextWindow (fun log => stores log = ([0, 1], [1, 0]))
      (RefreshTasks.sample_exists (by decide +kernel))

end KeyUpdates
