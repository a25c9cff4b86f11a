import Apokryphos.RefreshClaims

/-!
The rate limit of the on-demand refresh, over whole runs. Three events of one
context are logged: a caller reads the clock, a caller's exchange succeeds, a
caller starts a fetch. A caller reads once and starts at most once, and it
starts only after an exchange wrote its own reading; the claims are an interval
apart, so the readings inside one interval belong to at most one start.
-/
namespace RateLimit
open MachineWords OidcContexts RefreshClaims RefreshTasks ServerConfig StepRuns

def clockRead (g : AudienceTag) (w : World) : Action → Option (Nat × UInt64)
  | .advance t => (w.task t).bind fun k =>
    if k.tag = g ∧ k.phase = .readClock then some (t, w.clock) else none
  | _ => none

def claimMade (g : AudienceTag) (w : World) : Action → Option (Nat × UInt64)
  | .advance t => (w.task t).bind fun k =>
    match k.phase with
    | .exchange now prev =>
      if k.tag = g ∧ (w.ctx g).lastOnDemandRefresh = prev then some (t, now) else none
    | _ => none
  | _ => none

def fetchStarted (g : AudienceTag) (w : World) : Action → Option Nat
  | .advance t => (w.task t).bind fun k =>
    match k.kind, k.phase with
    | .onDemand, .startFetch _ => if k.tag = g then some t else none
    | _, _ => none
  | _ => none

variable {platform : Platform} {w w' : World} {action : Action} {g : AudienceTag} {t : Nat}

theorem clockRead_some {now : UInt64} (read : clockRead g w action = some (t, now)) :
    action = .advance t ∧ now = w.clock ∧ ∃ k, w.task t = some k ∧ k.tag = g ∧
      k.phase = .readClock := by
  unfold clockRead at read
  split at read
  · obtain ⟨k,found,emitted⟩ := Option.bind_eq_some_iff.mp read
    split at emitted
    · rename_i here
      cases emitted
      exact ⟨rfl,rfl,k,found,here.1,here.2⟩
    · cases emitted
  · cases read

theorem claimMade_some {now : UInt64} (made : claimMade g w action = some (t, now)) :
    action = .advance t ∧ ∃ k, w.task t = some k ∧ k.tag = g ∧
      k.phase = .exchange now (w.ctx g).lastOnDemandRefresh := by
  unfold claimMade at made
  split at made
  · obtain ⟨k,found,emitted⟩ := Option.bind_eq_some_iff.mp made
    split at emitted
    · rename_i stands
      split at emitted
      · rename_i here
        cases emitted
        exact ⟨rfl,k,found,here.1,by rw [stands, here.2]⟩
      · cases emitted
    · cases emitted
  · cases made

theorem fetchStarted_some (starts : fetchStarted g w action = some t) :
    action = .advance t ∧ ∃ k claim, w.task t = some k ∧ k.tag = g ∧ k.kind = .onDemand ∧
      k.phase = .startFetch claim := by
  unfold fetchStarted at starts
  split at starts
  · obtain ⟨k,found,emitted⟩ := Option.bind_eq_some_iff.mp starts
    split at emitted
    · rename_i claim kind stands
      split at emitted
      · rename_i own
        cases emitted
        exact ⟨rfl,k,claim,found,own,kind,stands⟩
      · cases emitted
    · cases emitted
  · cases starts

theorem claimMade_stores {now : UInt64} (made : claimMade g w action = some (t, now))
    (taken : step platform w action = some w') :
    (w'.ctx g).lastOnDemandRefresh = now := by
  obtain ⟨rfl,k,found,own,stands⟩ := claimMade_some made
  subst own
  simp only [step, found, Option.bind_some, advance, stands, if_true, Option.some.injEq] at taken
  rw [← taken, setCtx_ctx_same]

theorem claimMade_none (silent : claimMade g w action = none) (moved : Moves w action w') :
    (w'.ctx g).lastOnDemandRefresh = (w.ctx g).lastOnDemandRefresh := by
  rcases moves_claim moved g with same | ⟨t,k,now,acts,found,own,stands,_,_⟩
  · exact same
  · simp [claimMade, acts, found, stands, own] at silent

/-- How far a caller has come: before its reading, before its exchange, before
    its fetch, or past all three. -/
def stage : Phase → Nat
  | .readClock => 0
  | .loadClaim _ | .exchange _ _ => 1
  | .startFetch _ => 2
  | _ => 3

@[simp] theorem stage_afterInstall (claim : Option UInt64) (installed : Bool) :
    stage (afterInstall claim installed) = 3 := by
  cases claim <;> rfl

theorem quiet_stage {k : Task} {next : Phase} (moved : Quiet w t k action next) :
    stage k.phase ≤ stage next := by
  cases moved with
  | failed stands | refuse stands =>
    rw [stands, stage_afterInstall]
    exact le_rfl
  | _ => simp_all [stage]

theorem writes_stage {ctx ctx' : OidcContext} {phase next : Phase}
    (wrote : Writes ctx phase next ctx') : stage phase ≤ stage next := by
  cases wrote with
  | install stands =>
    rw [stands, stage_afterInstall]
    exact le_rfl
  | claim stands | complete stands | notify stands => simp [stage, stands]

theorem moves_stage (moved : Moves w action w') {k : Task} (found : w.task t = some k) :
    ∃ k', w'.task t = some k' ∧ k'.tag = k.tag ∧ stage k.phase ≤ stage k'.phase := by
  rcases moves_task moved t with ⟨_,same⟩ | ⟨_,_,_,free,_⟩ | ⟨l,next,before,after,how⟩
  · exact ⟨k,same.trans found,rfl,le_rfl⟩
  · rw [free] at found
    cases found
  · rw [before, Option.some.injEq] at found
    subst found
    refine ⟨_,after,rfl,?_⟩
    rcases how with quiet | ⟨_,wrote⟩
    · exact quiet_stage quiet
    · exact writes_stage wrote

structure Logged (readings claims : List (Nat × UInt64)) (starts : List Nat) (g : AudienceTag)
    (w : World) : Prop where
  chain : (0 :: claims.map fun c => c.2.toNat).IsChain fun a b => a + interval (w.ctx g) ≤ b
  last : (0 :: claims.map fun c => c.2.toNat).getLast? = some (w.ctx g).lastOnDemandRefresh.toNat
  below : ∀ c ∈ claims, c.2 < u64Max
  claims_read : ∀ c ∈ claims, c ∈ readings
  reads : ∀ {t k now}, w.task t = some k → k.tag = g → reading k.phase = some now →
    (t, now) ∈ readings
  ready : ∀ {t k claim}, w.task t = some k → k.tag = g → k.kind = .onDemand →
    k.phase = .startFetch claim → ∃ c, (t, c) ∈ claims
  starts_claimed : ∀ t ∈ starts, ∃ c, (t, c) ∈ claims
  read_past : ∀ t ∈ readings.map Prod.fst, ∃ k, w.task t = some k ∧ 1 ≤ stage k.phase
  start_past : ∀ t ∈ starts, ∃ k, w.task t = some k ∧ 3 ≤ stage k.phase
  read_once : (readings.map Prod.fst).Nodup
  start_once : starts.Nodup

theorem pristine_logged (pristine : Pristine w) : Logged [] [] [] g w where
  chain := by simp
  last := by simp [pristine.claim_zero g]
  below := by simp
  claims_read := by simp
  reads found := by simp [pristine.idle] at found
  ready found := by simp [pristine.idle] at found
  starts_claimed := by simp
  read_past := by simp
  start_past := by simp
  read_once := by simp
  start_once := by simp

section logging
variable {readings claims : List (Nat × UInt64)} {starts : List Nat}

theorem logged_chain (logged : Logged readings claims starts g w) (ordered : Ordered w)
    (taken : step platform w action = some w') :
    (0 :: (claims ++ (claimMade g w action).toList).map fun c => c.2.toNat).IsChain
        (fun a b => a + interval (w'.ctx g) ≤ b) ∧
      (0 :: (claims ++ (claimMade g w action).toList).map fun c => c.2.toNat).getLast? =
        some (w'.ctx g).lastOnDemandRefresh.toNat := by
  rw [moves_interval (step_moves taken)]
  cases made : claimMade g w action with
  | none =>
    rw [claimMade_none made (step_moves taken)]
    simpa using ⟨logged.chain,logged.last⟩
  | some c =>
    obtain ⟨t,now⟩ := c
    obtain ⟨_,k,found,own,stands⟩ := claimMade_some made
    have spaced := ordered.spaced found (by rw [stands]; rfl)
    rw [own] at spaced
    rw [claimMade_stores made taken]
    simp only [Option.toList_some, List.map_append, List.map_cons, List.map_nil,
      ← List.cons_append, List.getLast?_concat, and_true]
    refine List.isChain_append.mpr ⟨logged.chain,List.isChain_singleton _,?_⟩
    intro a lastOf b headOf
    rw [logged.last] at lastOf
    cases lastOf
    cases headOf
    exact spaced

theorem logged_once {reached : Nat} {ids : List Nat} {event : Option Nat}
    (once : ids.Nodup) (past : ∀ t ∈ ids, ∃ k, w.task t = some k ∧ reached ≤ stage k.phase)
    (early : ∀ t ∈ event, ∃ k, w.task t = some k ∧ stage k.phase < reached) :
    (ids ++ event.toList).Nodup := by
  cases event with
  | none => simpa using once
  | some t =>
    refine List.nodup_append.mpr ⟨once,by simp,?_⟩
    intro u member v logged same
    obtain ⟨k,found,late⟩ := past u member
    obtain ⟨l,found',before⟩ := early t rfl
    have here : v = t := by simpa using logged
    rw [same, here, found', Option.some.injEq] at found
    subst found
    omega

theorem logged_past {reached : Nat} {ids : List Nat} {event : Option Nat} (moved : Moves w action w')
    (past : ∀ t ∈ ids, ∃ k, w.task t = some k ∧ reached ≤ stage k.phase)
    (arrives : ∀ t ∈ event, ∃ k, w'.task t = some k ∧ reached ≤ stage k.phase) :
    ∀ t ∈ ids ++ event.toList, ∃ k, w'.task t = some k ∧ reached ≤ stage k.phase := by
  intro t member
  rcases List.mem_append.mp member with old | new
  · obtain ⟨k,found,late⟩ := past t old
    obtain ⟨k',after,_,grows⟩ := moves_stage moved found
    exact ⟨k',after,late.trans grows⟩
  · exact arrives t (Option.mem_toList.mp new)

theorem clockRead_arrives {r : Nat × UInt64} (read : clockRead g w action = some r)
    (taken : step platform w action = some w') :
    ∃ k, w'.task r.1 = some k ∧ 1 ≤ stage k.phase := by
  obtain ⟨rfl,_,k,found,_,stands⟩ := clockRead_some read
  simp only [step, found, Option.bind_some, advance, stands, Option.some.injEq] at taken
  rw [← taken]
  exact ⟨_,setTask_task_same w _ _,le_rfl⟩

theorem fetchStarted_arrives (starts : fetchStarted g w action = some t)
    (taken : step platform w action = some w') :
    ∃ k, w'.task t = some k ∧ 3 ≤ stage k.phase := by
  obtain ⟨rfl,k,claim,found,_,_,stands⟩ := fetchStarted_some starts
  simp only [step, found, Option.bind_some, advance, stands, Option.some.injEq] at taken
  rw [← taken]
  exact ⟨_,setTask_task_same w _ _,le_rfl⟩

theorem logged_reads (logged : Logged readings claims starts g w) (moved : Moves w action w')
    {k : Task} {now : UInt64} (found : w'.task t = some k) (own : k.tag = g)
    (reads : reading k.phase = some now) :
    (t, now) ∈ readings ++ (clockRead g w action).toList := by
  obtain ⟨l,before,same,_,rfl | quiet | ⟨_,wrote⟩⟩ :=
    moves_origin moved (fun phase => reading phase = some now) (by rintro ⟨⟩ <;> nofun) found reads
  · exact List.mem_append_left _ (logged.reads before own reads)
  · rcases quiet_reading quiet reads with ⟨acts,stands,clock⟩ | stands
    · apply List.mem_append_right
      simp [clockRead, acts, before, stands, same, own, clock]
    · exact List.mem_append_left _ (logged.reads before (same.trans own) (by rw [stands]; rfl))
  · rw [(writes_reading wrote).1] at reads
    cases reads

theorem quiet_not_ready {k : Task} {next : Phase} (moved : Quiet w t k action next) :
    stage next ≠ 2 := by
  cases moved with
  | failed | refuse => simp
  | _ => simp [stage]

theorem writes_ready {ctx ctx' : OidcContext} {phase next : Phase}
    (wrote : Writes ctx phase next ctx') (ready : stage next = 2) :
    ∃ now, phase = .exchange now ctx.lastOnDemandRefresh := by
  cases wrote with
  | claim stands => exact ⟨_,stands⟩
  | install => simp at ready
  | complete | notify => cases ready

theorem logged_ready (logged : Logged readings claims starts g w) (moved : Moves w action w')
    {k : Task} {claim : Option UInt64} (found : w'.task t = some k) (own : k.tag = g)
    (kind : k.kind = .onDemand) (stands : k.phase = .startFetch claim) :
    ∃ c, (t, c) ∈ claims ++ (claimMade g w action).toList := by
  rcases moves_task moved t with ⟨_,same⟩ | ⟨_,_,_,_,spawned⟩ | ⟨l,next,before,after,how⟩
  · obtain ⟨c,member⟩ := logged.ready (same ▸ found) own kind stands
    exact ⟨c,List.mem_append_left _ member⟩
  · rw [spawned, Option.some.injEq] at found
    subst found
    cases kind
    cases stands
  · rw [after, Option.some.injEq] at found
    subst found
    have ready : stage next = 2 := congrArg stage stands
    rcases how with quiet | ⟨acts,wrote⟩
    · exact absurd ready (quiet_not_ready quiet)
    · obtain ⟨now,before'⟩ := writes_ready wrote ready
      refine ⟨now,List.mem_append_right _ ?_⟩
      simp only at own
      simp [claimMade, acts, before, before', own]

theorem step_logged (logged : Logged readings claims starts g w) (ordered : Ordered w)
    (taken : step platform w action = some w') :
    Logged (readings ++ (clockRead g w action).toList) (claims ++ (claimMade g w action).toList)
      (starts ++ (fetchStarted g w action).toList) g w' := by
  have moved := step_moves taken
  have chain := logged_chain logged ordered taken
  exact {
    chain := chain.1
    last := chain.2
    below := by
      intro c member
      rcases List.mem_append.mp member with old | new
      · exact logged.below c old
      · obtain ⟨_,k,found,_,stands⟩ := claimMade_some (Option.mem_toList.mp new)
        exact ordered.read_below found (by rw [stands]; rfl)
    claims_read := by
      intro c member
      apply List.mem_append_left
      rcases List.mem_append.mp member with old | new
      · exact logged.claims_read c old
      · obtain ⟨_,k,found,own,stands⟩ := claimMade_some (Option.mem_toList.mp new)
        exact logged.reads found own (by rw [stands]; rfl)
    reads := logged_reads logged moved
    ready := logged_ready logged moved
    starts_claimed := by
      intro t member
      rcases List.mem_append.mp member with old | new
      · obtain ⟨c,claimed⟩ := logged.starts_claimed t old
        exact ⟨c,List.mem_append_left _ claimed⟩
      · obtain ⟨_,k,claim,found,own,kind,stands⟩ := fetchStarted_some (Option.mem_toList.mp new)
        obtain ⟨c,claimed⟩ := logged.ready found own kind stands
        exact ⟨c,List.mem_append_left _ claimed⟩
    read_past := by
      rw [List.map_append, ← Option.toList_map]
      apply logged_past moved logged.read_past
      intro t read
      obtain ⟨r,emitted,rfl⟩ := Option.map_eq_some_iff.mp read
      exact clockRead_arrives emitted taken
    start_past := logged_past moved logged.start_past fun t start => fetchStarted_arrives start taken
    read_once := by
      rw [List.map_append, ← Option.toList_map]
      apply logged_once logged.read_once logged.read_past
      intro t read
      obtain ⟨r,emitted,rfl⟩ := Option.map_eq_some_iff.mp read
      obtain ⟨_,_,k,found,_,stands⟩ := clockRead_some emitted
      exact ⟨k,found,by simp [stands, stage]⟩
    start_once := by
      apply logged_once logged.start_once logged.start_past
      intro t start
      obtain ⟨_,k,claim,found,_,_,stands⟩ := fetchStarted_some start
      exact ⟨k,found,by simp [stands, stage]⟩ }

end logging

theorem run_logged {actions : List Action} (started : Started platform w) (g : AudienceTag)
    (taken : run (step platform) w actions = some w') :
    Logged (events (step platform) (clockRead g) w actions)
      (events (step platform) (claimMade g) w actions)
      (events (step platform) (fetchStarted g) w actions) g w' := by
  refine history_invariant (fun front u => Logged (events (step platform) (clockRead g) w front)
    (events (step platform) (claimMade g) w front)
    (events (step platform) (fetchStarted g) w front) g u)
    (pristine_logged (started_pristine started)) ?_ taken
  intro front u a v before logged next
  rw [events_snoc before next, events_snoc before next, events_snoc before next]
  exact step_logged logged (reachable_ordered started before) next

theorem claims_apart {readings claims : List (Nat × UInt64)} {starts : List Nat}
    (logged : Logged readings claims starts g w) {c d : Nat × UInt64} (member : c ∈ claims)
    (member' : d ∈ claims) {a : Nat} (inside : a ≤ c.2.toNat ∧ c.2.toNat < a + interval (w.ctx g))
    (inside' : a ≤ d.2.toNat ∧ d.2.toNat < a + interval (w.ctx g)) : c = d := by
  have apart : claims.Pairwise fun c d => c.2.toNat + interval (w.ctx g) ≤ d.2.toNat := by
    have transitive : IsTrans Nat fun a b => a + interval (w.ctx g) ≤ b := ⟨fun a b c => by omega⟩
    have pairs := List.isChain_iff_pairwise.mp logged.chain
    exact List.pairwise_map.mp (List.pairwise_cons.mp pairs).2
  have symmetric : Std.Symm fun c d : Nat × UInt64 =>
      c.2.toNat + interval (w.ctx g) ≤ d.2.toNat ∨ d.2.toNat + interval (w.ctx g) ≤ c.2.toNat :=
    ⟨fun c d => Or.symm⟩
  have either : claims.Pairwise fun c d =>
      c.2.toNat + interval (w.ctx g) ≤ d.2.toNat ∨ d.2.toNat + interval (w.ctx g) ≤ c.2.toNat :=
    apart.imp Or.inl
  by_contra different
  have related := either.forall member member' different
  omega

/-- A start inside a window belongs to a claim inside that window: the caller
    claimed the one reading it made. -/
theorem start_claim {readings claims : List (Nat × UInt64)} {starts : List Nat}
    (logged : Logged readings claims starts g w) (member : t ∈ starts) {r : Nat × UInt64}
    (read : r ∈ readings) (same : r.1 = t) : r ∈ claims := by
  obtain ⟨c,claimed⟩ := logged.starts_claimed t member
  have once := List.inj_on_of_nodup_map logged.read_once (logged.claims_read _ claimed) read same.symm
  rwa [once] at claimed

theorem window_starts {readings claims : List (Nat × UInt64)} {starts : List Nat}
    (logged : Logged readings claims starts g w) (a : Nat) :
    (starts.filter fun t => ∃ r ∈ readings, r.1 = t ∧ a ≤ r.2.toNat ∧
      r.2.toNat < a + interval (w.ctx g)).length ≤ 1 := by
  have once := logged.start_once.filter fun t => decide (∃ r ∈ readings, r.1 = t ∧ a ≤ r.2.toNat ∧
      r.2.toNat < a + interval (w.ctx g))
  have single : ∀ t ∈ starts.filter (fun t => ∃ r ∈ readings, r.1 = t ∧ a ≤ r.2.toNat ∧
      r.2.toNat < a + interval (w.ctx g)), ∀ u ∈ starts.filter (fun t => ∃ r ∈ readings, r.1 = t ∧
      a ≤ r.2.toNat ∧ r.2.toNat < a + interval (w.ctx g)), t = u := by
    intro t inside u inside'
    simp only [List.mem_filter, decide_eq_true_eq] at inside inside'
    obtain ⟨member,r,read,same,window⟩ := inside
    obtain ⟨member',r',read',same',window'⟩ := inside'
    have equal := claims_apart logged (start_claim logged member read same)
      (start_claim logged member' read' same') window window'
    rw [← same, ← same', equal]
  generalize starts.filter _ = kept at once single
  match kept with
  | [] => simp
  | [t] => simp
  | t :: u :: rest =>
    have equal := single t (by simp) u (by simp)
    simp [equal] at once

theorem run_interval {actions : List Action} (g : AudienceTag)
    (taken : run (step platform) w actions = some w') :
    interval (w'.ctx g) = interval (w.ctx g) :=
  run_invariant (fun u => interval (u.ctx g) = interval (w.ctx g))
    (fun same next => (moves_interval (step_moves next) g).trans same) rfl taken

/-- The rate limit, for every run from startup: claims are an interval apart and
    below the largest word, a fetch is started only by a caller that made a
    claim, and the callers whose readings lie in one interval start at most one
    fetch. -/
theorem on_demand_rate_limit {actions : List Action} (started : Started platform w)
    (g : AudienceTag) (taken : run (step platform) w actions = some w') :
    let I := interval (w.ctx g)
    let readings := events (step platform) (clockRead g) w actions
    let claims := events (step platform) (claimMade g) w actions
    let starts := events (step platform) (fetchStarted g) w actions
    1 ≤ I ∧ (0 :: claims.map fun c => c.2.toNat).IsChain (fun a b => a + I ≤ b) ∧
    (∀ c ∈ claims, c.2 < u64Max) ∧ (∀ t ∈ starts, ∃ c, (t, c) ∈ claims) ∧
    ∀ a : Nat, (starts.filter fun t => ∃ r ∈ readings, r.1 = t ∧ a ≤ r.2.toNat ∧
      r.2.toNat < a + I).length ≤ 1 := by
  intro I readings claims starts
  have logged := run_logged started g taken
  have same : interval (w'.ctx g) = I := run_interval g taken
  have chain := logged.chain
  have window := window_starts logged
  rw [same] at chain window
  exact ⟨(started_pristine started).accepted g |>.interval_pos, chain, logged.below,
    logged.starts_claimed, window⟩

/-- Three callers read the clock at once; one claims and fetches, one loses the
    exchange, and one finds the window open. -/
def storm : List Action :=
  [.spawn 0 .onDemand .vault, .spawn 1 .onDemand .vault, .spawn 2 .onDemand .vault,
    .advance 0, .advance 1, .advance 2, .advance 0, .advance 1, .advance 0, .advance 1, .advance 2,
    .advance 0]

theorem on_demand_rate_limit_storm :
    ∃ w, Started samplePlatform w ∧ ∃ w' ∈ run (step samplePlatform) w storm,
      events (step samplePlatform) (fetchStarted .vault) w storm = [0] ∧
      ∀ a : Nat, ((events (step samplePlatform) (fetchStarted .vault) w storm).filter fun t =>
        ∃ r ∈ events (step samplePlatform) (clockRead .vault) w storm,
          r.1 = t ∧ a ≤ r.2.toNat ∧ r.2.toNat < a + interval (w.ctx .vault)).length ≤ 1 := by
  have evaluated : ∃ w, Started samplePlatform w ∧
      (run (step samplePlatform) w storm).isSome ∧
      events (step samplePlatform) (fetchStarted .vault) w storm = [0] :=
    sample_exists (by decide +kernel)
  obtain ⟨w,started,ends,logged⟩ := evaluated
  obtain ⟨w',taken⟩ := Option.isSome_iff_exists.mp ends
  exact ⟨w,started,w',taken,logged,(on_demand_rate_limit started .vault taken).2.2.2.2⟩

end RateLimit
