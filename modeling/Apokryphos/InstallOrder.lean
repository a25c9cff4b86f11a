import Apokryphos.RefreshClaims

/-!
The order in which fetched key sets reach a context. Each refresh leaves at most
three marks in the log of its context: its fetch started, the fetch answered with
a key set, and that key set was stored. The marks of one refresh stand in that
order, and the context holds the key set that was stored last.
-/
namespace InstallOrder
open OidcContexts RefreshTasks ServerConfig SigningKeys StepRuns

inductive Mark where
  | started (t : Nat)
  | answered (t : Nat) (new : Jwks)
  | installed (t : Nat) (new : Jwks)
  deriving DecidableEq

def Mark.task : Mark → Nat
  | .started t | .answered t _ | .installed t _ => t

def Mark.install : Mark → Option Jwks
  | .installed _ new => some new
  | _ => none

def mark (g : AudienceTag) (w : World) : Action → Option Mark
  | .advance t => (w.task t).bind fun k =>
    if k.tag = g then
      match k.phase with
      | .startFetch _ => some (.started t)
      | .storeJwks _ new _ => some (.installed t new)
      | _ => none
    else none
  | .fetched t outcome => (w.task t).bind fun k =>
    if k.tag = g then
      match fetchJwks outcome with
      | .ok new => some (.answered t new)
      | .error _ => none
    else none
  | _ => none

def own (log : List Mark) (t : Nat) : List Mark := log.filter fun m => m.task = t

/-- The marks a refresh has left by the time it reaches a phase. -/
def Fits (t : Nat) (phase : Phase) (marks : List Mark) : Prop :=
  match phase with
  | .readClock | .loadClaim _ | .exchange _ _ | .startFetch _ => marks = []
  | .fetching _ _ _ => marks = [.started t]
  | .loadOther _ new | .storeJwks _ new _ => marks = [.started t, .answered t new]
  | _ => ∃ new, marks <+: [.started t, .answered t new, .installed t new]

def TaskFits (g : AudienceTag) (marks : List Mark) (t : Nat) : Option Task → Prop
  | some k => if k.tag = g then Fits t k.phase marks else marks = []
  | none => marks = []

variable {platform : Platform} {w w' : World} {action : Action} {g : AudienceTag} {t : Nat}
  {log marks : List Mark}

theorem mark_target {m : Mark} (left : mark g w action = some m) :
    action.target = some m.task := by
  unfold mark at left
  split at left
  · obtain ⟨k,_,emitted⟩ := Option.bind_eq_some_iff.mp left
    split at emitted
    · split at emitted <;> cases emitted <;> rfl
    · cases emitted
  · obtain ⟨k,_,emitted⟩ := Option.bind_eq_some_iff.mp left
    split at emitted
    · split at emitted
      · cases emitted
        rfl
      · cases emitted
    · cases emitted
  · cases left

theorem own_append (log : List Mark) (m : Option Mark) (t : Nat) :
    own (log ++ m.toList) t = own log t ++ own m.toList t := List.filter_append ..

theorem own_mark_other (other : action.target ≠ some t) :
    own (mark g w action).toList t = [] := by
  cases left : mark g w action with
  | none => rfl
  | some m =>
    have aims := mark_target left
    have away : m.task ≠ t := fun same => other (by rw [aims, same])
    simp [own, away]

theorem own_mark_same (aims : action.target = some t) :
    own (mark g w action).toList t = (mark g w action).toList := by
  cases left : mark g w action with
  | none => rfl
  | some m =>
    have same : m.task = t := Option.some.inj ((mark_target left).symm.trans aims)
    simp [own, same]

theorem fits_afterInstall (claim : Option UInt64) (installed : Bool) (new : Jwks)
    (marked : marks <+: [.started t, .answered t new, .installed t new]) :
    Fits t (afterInstall claim installed) marks := by
  cases claim <;> exact ⟨new,marked⟩

theorem quiet_fits {k : Task} {next : Phase} (found : w.task t = some k) (here : k.tag = g)
    (moved : Quiet w t k action next) (fits : Fits t k.phase marks) :
    Fits t next (marks ++ (mark g w action).toList) := by
  cases moved with
  | readClock stands | outOfWindow stands | passCheck stands | caughtUp stands | register stands
  | enroll stands | woken stands | recheck stands =>
    rw [stands] at fits
    simpa [mark, found, here, stands, Fits] using fits
  | timeout stands | dropWait _ stands =>
    rw [stands] at fits
    simpa [mark, Fits] using fits
  | inWindow stands | lose stands =>
    rw [stands] at fits
    have nothing : marks = [] := fits
    exact ⟨Jwks.empty,by simp [nothing, mark, found, here, stands]⟩
  | startFetch stands =>
    rw [stands] at fits
    have nothing : marks = [] := fits
    simp [nothing, mark, found, here, stands, Fits]
  | fetched stands answer =>
    rw [stands] at fits
    have single : marks = [.started t] := fits
    simp [single, mark, found, here, answer, Fits]
  | failed stands answer =>
    rw [stands] at fits
    have single : marks = [.started t] := fits
    apply fits_afterInstall _ _ Jwks.empty
    simp [single, mark, found, answer]
  | panicked stands answer =>
    rw [stands] at fits
    have single : marks = [.started t] := fits
    exact ⟨Jwks.empty,by simp [single, mark, found, answer]⟩
  | dropFetch _ stands =>
    rw [stands] at fits
    have single : marks = [.started t] := fits
    exact ⟨Jwks.empty,by simp [single, mark]⟩
  | @refuse claim new stands =>
    rw [stands] at fits
    have both : marks = [.started t, .answered t new] := fits
    apply fits_afterInstall _ _ new
    simp [both, mark, found, here, stands]

theorem writes_fits {k : Task} {next : Phase} {ctx : OidcContext} (found : w.task t = some k)
    (here : k.tag = g) (wrote : Writes (w.ctx k.tag) k.phase next ctx)
    (fits : Fits t k.phase marks) :
    Fits t next (marks ++ (mark g w (.advance t)).toList) := by
  cases wrote with
  | claim stands | complete stands | notify stands =>
    rw [stands] at fits
    simpa [mark, found, here, stands, Fits] using fits
  | @install claim new seen stands =>
    rw [stands] at fits
    have both : marks = [.started t, .answered t new] := fits
    apply fits_afterInstall _ _ new
    simp [both, mark, found, here, stands]

theorem mark_elsewhere {k : Task} (found : w.task t = some k) (other : k.tag ≠ g)
    (aims : action.target = some t) : mark g w action = none := by
  cases action with
  | advance u | fetched u =>
    cases aims
    simp [mark, found, other]
  | setClock | discoveryFetched | spawn | timeout | drop => rfl

theorem moves_fits (moved : Moves w action w') (fits : TaskFits g (own log t) t (w.task t)) :
    TaskFits g (own (log ++ (mark g w action).toList) t) t (w'.task t) := by
  rw [own_append]
  rcases moves_task moved t with ⟨other,same⟩ | ⟨kind,tag,rfl,free,after⟩ | ⟨k,next,found,after,how⟩
  · rw [own_mark_other other, same, List.append_nil]
    exact fits
  · rw [free] at fits
    have nothing : own log t = [] := fits
    rw [after]
    simp only [TaskFits, nothing]
    split
    · cases kind <;> rfl
    · rfl
  · have aims : action.target = some t := by
      rcases how with quiet | ⟨acts,_⟩
      · exact quiet_target quiet
      · rw [acts]
        rfl
    rw [own_mark_same aims, after]
    rw [found] at fits
    by_cases here : k.tag = g
    · simp only [TaskFits, here, if_true] at fits ⊢
      rcases how with quiet | ⟨acts,wrote⟩
      · exact quiet_fits found here quiet fits
      · rw [acts]
        exact writes_fits found here wrote fits
    · simp only [TaskFits, here, if_false] at fits ⊢
      rw [fits, mark_elsewhere found here aims]
      rfl

theorem run_fits {actions : List Action} (started : Started platform w)
    (taken : run (step platform) w actions = some w') (g : AudienceTag) (t : Nat) :
    TaskFits g (own (events (step platform) (mark g) w actions) t) t (w'.task t) := by
  refine history_invariant (fun front u =>
    TaskFits g (own (events (step platform) (mark g) w front) t) t (u.task t)) ?_ ?_ taken
  · rw [(started_pristine started).idle]
    rfl
  · intro front s a u before fits next
    rw [events_snoc before next]
    exact moves_fits (step_moves next) fits

theorem fits_prefix {phase : Phase} (fits : Fits t phase marks) :
    ∃ new, marks <+: [.started t, .answered t new, .installed t new] := by
  cases phase with
  | readClock | loadClaim | exchange | startFetch =>
    have nothing : marks = [] := fits
    exact ⟨Jwks.empty,by simp [nothing]⟩
  | fetching =>
    have single : marks = [.started t] := fits
    exact ⟨Jwks.empty,by simp [single]⟩
  | loadOther claim new | storeJwks claim new =>
    have both : marks = [.started t, .answered t new] := fits
    exact ⟨new,by simp [both]⟩
  | complete | notify | check | register | wait | recheck | finished | dropped => exact fits

theorem taskFits_prefix {task : Option Task} (fits : TaskFits g marks t task) :
    ∃ new, marks <+: [.started t, .answered t new, .installed t new] := by
  unfold TaskFits at fits
  split at fits
  · split at fits
    · exact fits_prefix fits
    · exact ⟨Jwks.empty,fits ▸ List.nil_prefix⟩
  · exact ⟨Jwks.empty,fits ▸ List.nil_prefix⟩

/-- The marks of one refresh in the log of its context. -/
def InSequence (log : List Mark) : Prop :=
  ∀ t, ∃ new, own log t <+: [.started t, .answered t new, .installed t new]

theorem run_inSequence {actions : List Action} (started : Started platform w)
    (taken : run (step platform) w actions = some w') (g : AudienceTag) :
    InSequence (events (step platform) (mark g) w actions) :=
  fun t => taskFits_prefix (run_fits started taken g t)

theorem mem_own {m : Mark} (member : m ∈ log) : m ∈ own log m.task := by
  simp [own, member]

theorem own_sublist (log : List Mark) (t : Nat) : (own log t).Sublist log := List.filter_sublist

theorem installed_complete {new : Jwks} (sequence : InSequence log)
    (member : .installed t new ∈ log) :
    own log t = [.started t, .answered t new, .installed t new] := by
  obtain ⟨found,rest,joined⟩ := sequence t
  have inside : Mark.installed t new ∈ own log t := mem_own member
  generalize own log t = marks at joined inside
  rcases marks with _ | ⟨a,_ | ⟨b,_ | ⟨c,others⟩⟩⟩
  · cases inside
  · simp_all
  · simp_all
  · simp_all

/-- No mark is left twice: two equal marks would be marks of one refresh. -/
theorem inSequence_nodup (sequence : InSequence log) : log.Nodup := by
  rw [List.nodup_iff_count_le_one]
  intro m
  have once : (own log m.task).Nodup := by
    obtain ⟨new,pre⟩ := sequence m.task
    exact List.Nodup.sublist pre.sublist (by simp)
  have bound := List.nodup_iff_count_le_one.mp once m
  rwa [own, List.count_filter (by simp)] at bound

theorem mem_order {x y : Mark} (left : x ∈ log) (right : y ∈ log) (different : x ≠ y) :
    [x, y].Sublist log ∨ [y, x].Sublist log := by
  induction log with
  | nil => cases left
  | cons m rest ih =>
    rcases List.mem_cons.mp left with rfl | deeper
    · left
      exact (List.singleton_sublist.mpr ((List.mem_cons.mp right).resolve_left different.symm)).cons_cons _
    · rcases List.mem_cons.mp right with rfl | deeper'
      · right
        exact (List.singleton_sublist.mpr deeper).cons_cons _
      · exact (ih deeper deeper').imp (·.cons _) (·.cons _)

theorem order_trans {x y : Mark} {rest : List Mark} (once : log.Nodup)
    (first : [x, y].Sublist log) (second : (y :: rest).Sublist log) :
    (x :: y :: rest).Sublist log := by
  induction log with
  | nil => cases second
  | cons m tail ih =>
    obtain ⟨fresh,once⟩ := List.nodup_cons.mp once
    cases second with
    | cons _ second =>
      cases first with
      | cons _ first => exact (ih once first second).cons _
      | cons_cons _ first => exact second.cons_cons _
    | cons_cons _ second =>
      -- `y` is the head, so nothing of the log precedes it.
      have inside : y ∈ tail := by
        cases first with
        | cons _ first => exact first.subset (by simp)
        | cons_cons _ first => exact first.subset (by simp)
      exact absurd inside fresh

theorem mark_installed {new : Jwks} (left : (mark g w action).bind Mark.install = some new) :
    ∃ t k claim seen, action = .advance t ∧ w.task t = some k ∧ k.tag = g ∧
      k.phase = .storeJwks claim new seen := by
  obtain ⟨m,left,install⟩ := Option.bind_eq_some_iff.mp left
  unfold mark at left
  split at left
  · obtain ⟨k,found,emitted⟩ := Option.bind_eq_some_iff.mp left
    split at emitted
    · rename_i here
      split at emitted
      · cases emitted
        cases install
      · rename_i stands
        cases emitted
        cases install
        exact ⟨_,k,_,_,rfl,found,here,stands⟩
      · cases emitted
    · cases emitted
  · obtain ⟨k,found,emitted⟩ := Option.bind_eq_some_iff.mp left
    split at emitted
    · split at emitted
      · cases emitted
        cases install
      · cases emitted
    · cases emitted
  · cases left

theorem step_installed (taken : step platform w action = some w') :
    (w'.ctx g).jwks = ((mark g w action).bind Mark.install).getD (w.ctx g).jwks := by
  cases left : (mark g w action).bind Mark.install with
  | none =>
    rcases moves_jwks (step_moves taken) g with same | ⟨t,k,claim,new,seen,rfl,found,here,stands,_⟩
    · exact same
    · simp [mark, found, here, stands, Mark.install] at left
  | some new =>
    obtain ⟨t,k,claim,seen,rfl,found,rfl,stands⟩ := mark_installed left
    simp only [step, found, Option.bind_some, advance, stands, Option.some.injEq] at taken
    rw [← taken, setCtx_ctx_same]
    rfl

def latest (boot : Jwks) (log : List Mark) : Jwks := (log.filterMap Mark.install).getLastD boot

theorem latest_snoc (boot : Jwks) (log : List Mark) (m : Option Mark) :
    latest boot (log ++ m.toList) = (m.bind Mark.install).getD (latest boot log) := by
  cases m with
  | none => simp [latest]
  | some m =>
    cases kept : m.install with
    | none => simp [latest, kept]
    | some new => simp [latest, kept]

theorem run_latest {actions : List Action} (taken : run (step platform) w actions = some w')
    (g : AudienceTag) :
    (w'.ctx g).jwks = latest (w.ctx g).jwks (events (step platform) (mark g) w actions) := by
  refine history_invariant (fun front u =>
    (u.ctx g).jwks = latest (w.ctx g).jwks (events (step platform) (mark g) w front)) rfl ?_ taken
  intro front s a u before same next
  rw [events_snoc before next, latest_snoc, ← same]
  exact step_installed next

theorem install_order {a b : Nat} {first second : Jwks} (sequence : InSequence log)
    (stored : [Mark.installed a first, .installed b second].Sublist log) :
    [Mark.started a, .started b].Sublist log ∨
      [Mark.started b, .started a, .installed a first, .installed b second].Sublist log := by
  have once := inSequence_nodup sequence
  have earlier := installed_complete sequence (stored.subset (by simp) : .installed a first ∈ log)
  have later := installed_complete sequence (stored.subset (by simp) : .installed b second ∈ log)
  have begun : [Mark.started a, .installed a first].Sublist log := by
    refine List.Sublist.trans ?_ (own_sublist log a)
    rw [earlier]
    simp
  have begun' : Mark.started b ∈ log := (own_sublist log b).subset (by rw [later]; simp)
  have different : Mark.started b ≠ .started a := by
    intro same
    cases same
    rw [earlier] at later
    have equal : Mark.installed a first = .installed a second := by simp_all
    rw [equal] at stored
    exact List.nodup_iff_sublist.mp once _ stored
  rcases mem_order begun' (begun.subset (by simp)) different with swapped | ordered
  · exact .inr (order_trans once swapped (order_trans once begun stored))
  · exact .inl ordered

theorem installed_traced {new : Jwks} (sequence : InSequence log) (member : .installed t new ∈ log) :
    [Mark.started t, .answered t new, .installed t new].Sublist log := by
  rw [← installed_complete sequence member]
  exact own_sublist log t

theorem not_both_orders {x y : Mark} (once : log.Nodup) (first : [x, y].Sublist log)
    (second : [y, x].Sublist log) : False := by
  have twice := (order_trans once first second).nodup once
  simp at twice

theorem fits_task {k : Option Task} {m : Mark} (fits : TaskFits g (own log m.task) m.task k)
    (member : m ∈ log) : ∃ l, k = some l ∧ l.tag = g := by
  have inside := mem_own member
  cases k with
  | none =>
    rw [show own log m.task = [] from fits] at inside
    cases inside
  | some l =>
    by_cases here : l.tag = g
    · exact ⟨l,rfl,here⟩
    · simp only [TaskFits, here, if_false] at fits
      rw [fits] at inside
      cases inside

def claimless : Phase → Bool
  | .startFetch none | .fetching none _ _ | .loadOther none _ | .storeJwks none _ _ => true
  | _ => false

def concluded : Phase → Option UInt64
  | .complete claim _ | .notify claim _ => some claim
  | .finished claim _ => claim
  | _ => none

theorem claimless_afterInstall (claim : Option UInt64) (installed : Bool) :
    claimless (afterInstall claim installed) = false := by
  cases claim <;> rfl

theorem concluded_held {phase : Phase} {c : UInt64} (done : concluded phase = some c) :
    RefreshClaims.held phase = some c := by
  cases phase <;> simp_all [concluded, RefreshClaims.held, RefreshClaims.attempt, RefreshClaims.recorded]

theorem quiet_claimed {k : Task} {next : Phase} (moved : Quiet w t k action next)
    (claimed : claimless k.phase = false) : claimless next = false := by
  cases moved with
  | @startFetch claim stands | @fetched claim uri since outcome new stands
  | @passCheck claim new otherTag stands =>
    rw [stands] at claimed
    cases claim <;> first | rfl | cases claimed
  | failed | refuse => exact claimless_afterInstall _ false
  | _ => rfl

theorem writes_claimed {ctx ctx' : OidcContext} {phase next : Phase}
    (wrote : Writes ctx phase next ctx') : claimless next = false := by
  cases wrote with
  | install => exact claimless_afterInstall _ true
  | claim | complete | notify => rfl

def Claimed (w : World) : Prop :=
  ∀ t k, w.task t = some k → k.kind = .onDemand → claimless k.phase = false

theorem moves_claimed (moved : Moves w action w') (claimed : Claimed w) : Claimed w' := by
  intro t k found kind
  rcases moves_task moved t with ⟨_,same⟩ | ⟨spawned,_,_,_,after⟩ | ⟨l,next,before,after,how⟩
  · exact claimed t k (same.symm.trans found) kind
  · cases after.symm.trans found
    rw [show spawned = .onDemand from kind]
    rfl
  · cases after.symm.trans found
    rcases how with quiet | ⟨_,wrote⟩
    · exact quiet_claimed quiet (claimed t l before kind)
    · exact writes_claimed wrote

theorem quiet_unconcluded {k : Task} {next : Phase} (moved : Quiet w t k action next) :
    concluded k.phase = none := by
  cases moved <;> simp_all [concluded]

theorem moves_kept {k : Task} (moved : Moves w action w') (found : w.task t = some k) :
    ∃ l, w'.task t = some l ∧ l.tag = k.tag ∧ l.kind = k.kind := by
  rcases moves_task moved t with ⟨_,same⟩ | ⟨_,_,_,free,_⟩ | ⟨l,next,before,after,_⟩
  · exact ⟨k,same.trans found,rfl,rfl⟩
  · cases free.symm.trans found
  · cases before.symm.trans found
    exact ⟨_,after,rfl,rfl⟩

theorem moves_concluded {k : Task} {c : UInt64} (moved : Moves w action w')
    (found : w.task t = some k) (done : concluded k.phase = some c) :
    ∃ l, w'.task t = some l ∧ concluded l.phase = some c := by
  rcases moves_task moved t with ⟨_,same⟩ | ⟨_,_,_,free,_⟩ | ⟨l,next,before,after,how⟩
  · exact ⟨k,same.trans found,done⟩
  · cases free.symm.trans found
  · cases before.symm.trans found
    refine ⟨_,after,?_⟩
    rcases how with quiet | ⟨_,wrote⟩
    · cases (quiet_unconcluded quiet).symm.trans done
    · generalize w'.ctx k.tag = ctx at wrote
      cases wrote with
      | claim stands | install stands =>
        rw [stands] at done
        cases done
      | complete stands | notify stands =>
        rw [stands] at done
        exact done

def Credited (log : List Mark) (w : World) : Prop :=
  ∀ t new k, .installed t new ∈ log → w.task t = some k → k.kind = .onDemand →
    ∃ c, concluded k.phase = some c

theorem step_credited (claimed : Claimed w) (credited : Credited log w)
    (known : ∀ m ∈ log, ∃ k, w.task m.task = some k) (taken : step platform w action = some w') :
    Credited (log ++ (mark g w action).toList) w' := by
  intro t new k member found kind
  rcases List.mem_append.mp member with before | now
  · obtain ⟨l,earlier⟩ := known _ before
    obtain ⟨_,after,_,same⟩ := moves_kept (step_moves taken) earlier
    cases after.symm.trans found
    obtain ⟨c,done⟩ := credited t new l before earlier (same.symm.trans kind)
    obtain ⟨_,later,done⟩ := moves_concluded (step_moves taken) earlier done
    cases later.symm.trans found
    exact ⟨c,done⟩
  · have left : (mark g w action).bind Mark.install = some new := by
      rw [Option.mem_toList.mp now]
      rfl
    have aims := mark_target (Option.mem_toList.mp now)
    obtain ⟨s,l,claim,seen,rfl,was,rfl,stands⟩ := mark_installed left
    have same : s = t := Option.some.inj aims
    subst same
    simp only [step, was, Option.bind_some, advance, stands, Option.some.injEq] at taken
    rw [← taken, setCtx_task, setTask_task_same, Option.some.injEq] at found
    subst found
    cases claim with
    | none =>
      have bare := claimed _ l was kind
      rw [stands] at bare
      cases bare
    | some c => exact ⟨c,rfl⟩

theorem run_credited {actions : List Action} (started : Started platform w)
    (taken : run (step platform) w actions = some w') (g : AudienceTag) :
    Credited (events (step platform) (mark g) w actions) w' := by
  have idle := (started_pristine started).idle
  have both := history_invariant (fun front u => Claimed u ∧
    Credited (events (step platform) (mark g) w front) u) ⟨?_,nofun⟩ ?_ taken
  · exact both.2
  · intro t k found
    cases (idle t).symm.trans found
  · rintro front u a v before ⟨claimed,credited⟩ next
    rw [events_snoc before next]
    refine ⟨moves_claimed (step_moves next) claimed,step_credited claimed credited ?_ next⟩
    intro m member
    obtain ⟨k,found,_⟩ := fits_task (run_fits started before g m.task) member
    exact ⟨k,found⟩

end InstallOrder
