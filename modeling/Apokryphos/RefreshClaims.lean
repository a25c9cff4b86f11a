import Mathlib.Data.List.Chain
import Apokryphos.RefreshTasks

/-!
The claims of the on-demand refresh. A caller that finds the rate limit window
over exchanges the last claim for its own clock reading, and only the exchange
can fail or succeed; the reading may be stale and the clock may go backwards.
Every claim exceeds the one it replaced by the configured interval, because the
comparison was made against the very value that the exchange found again.
-/
namespace RefreshClaims
open MachineWords OidcContexts RefreshTasks ServerConfig StepRuns

def attempt : Phase → Option UInt64
  | .startFetch claim | .fetching claim _ _ | .loadOther claim _ | .storeJwks claim _ _ => claim
  | .complete claim _ => some claim
  | _ => none

def recorded : Phase → Option UInt64
  | .notify claim _ => some claim
  | .finished claim _ => claim
  | _ => none

def reading : Phase → Option UInt64
  | .loadClaim now | .exchange now _ => some now
  | _ => none

def compared : Phase → Option (UInt64 × UInt64)
  | .exchange now prev => some (now, prev)
  | _ => none

def held (phase : Phase) : Option UInt64 := (attempt phase).or (recorded phase)

@[simp] theorem attempt_afterInstall (claim : Option UInt64) (installed : Bool) :
    attempt (afterInstall claim installed) = claim := by
  cases claim <;> rfl

@[simp] theorem recorded_afterInstall (claim : Option UInt64) (installed : Bool) :
    recorded (afterInstall claim installed) = none := by
  cases claim <;> rfl

@[simp] theorem reading_afterInstall (claim : Option UInt64) (installed : Bool) :
    reading (afterInstall claim installed) = none := by
  cases claim <;> rfl

@[simp] theorem compared_afterInstall (claim : Option UInt64) (installed : Bool) :
    compared (afterInstall claim installed) = none := by
  cases claim <;> rfl

theorem quiet_attempt {w : World} {t : Nat} {k : Task} {action : Action} {next : Phase}
    (found : w.task t = some k) (moved : Quiet w t k action next) :
    attempt next = attempt k.phase ∨ next = .dropped ∧ w.interrupted action = some k := by
  cases moved with
  | panicked stands answer => exact .inr ⟨rfl,by simp [World.interrupted, answer, found]⟩
  | dropFetch _ stands => exact .inr ⟨rfl,found⟩
  | failed stands | refuse stands =>
    rw [stands, attempt_afterInstall]
    exact .inl rfl
  | _ => simp_all [attempt]

theorem quiet_recorded {w : World} {t : Nat} {k : Task} {action : Action} {next : Phase}
    (moved : Quiet w t k action next) : recorded next = none ∧ recorded k.phase = none := by
  cases moved with
  | failed stands | refuse stands =>
    rw [stands, recorded_afterInstall]
    exact ⟨rfl,rfl⟩
  | _ => simp_all [recorded]

theorem quiet_reading {w : World} {t : Nat} {k : Task} {action : Action} {next : Phase}
    {now : UInt64} (moved : Quiet w t k action next) (reads : reading next = some now) :
    action = .advance t ∧ k.phase = .readClock ∧ now = w.clock ∨ k.phase = .loadClaim now := by
  cases moved with
  | readClock stands =>
    cases reads
    exact .inl ⟨rfl,stands,rfl⟩
  | outOfWindow stands late =>
    cases reads
    exact .inr stands
  | failed | refuse => simp at reads
  | _ => cases reads

theorem quiet_compared {w : World} {t : Nat} {k : Task} {action : Action} {next : Phase}
    {now prev : UInt64} (moved : Quiet w t k action next)
    (found : compared next = some (now, prev)) :
    k.phase = .loadClaim now ∧ prev = (w.ctx k.tag).lastOnDemandRefresh ∧
      saturatingAdd prev (w.ctx k.tag).authConfig.onDemandRefreshMinIntervalSecs ≤ now := by
  cases moved with
  | outOfWindow stands late =>
    cases found
    exact ⟨stands,rfl,late⟩
  | failed | refuse => simp at found
  | _ => cases found

theorem quiet_held {w : World} {t : Nat} {k : Task} {action : Action} {next : Phase} {c : UInt64}
    (found : w.task t = some k) (moved : Quiet w t k action next) (holds : held next = some c) :
    held k.phase = some c := by
  obtain ⟨fresh,before⟩ := quiet_recorded moved
  rcases quiet_attempt found moved with same | ⟨rfl,_⟩
  · rw [held, fresh, same] at holds
    rw [held, before]
    exact holds
  · cases holds

theorem writes_held {ctx ctx' : OidcContext} {phase next : Phase}
    (wrote : Writes ctx phase next ctx') :
    held next = held phase ∨
      ∃ now, phase = .exchange now ctx.lastOnDemandRefresh ∧ held next = some now ∧
        ctx'.lastOnDemandRefresh = now := by
  cases wrote with
  | claim stands => exact .inr ⟨_,stands,rfl,rfl⟩
  | install stands =>
    left
    rw [held, attempt_afterInstall, recorded_afterInstall, stands]
    rfl
  | complete stands | notify stands =>
    left
    rw [stands]
    rfl

theorem writes_reading {ctx ctx' : OidcContext} {phase next : Phase}
    (wrote : Writes ctx phase next ctx') : reading next = none ∧ compared next = none := by
  cases wrote with
  | install => simp
  | claim | complete | notify => exact ⟨rfl,rfl⟩

theorem moves_held {w w' : World} {action : Action} (moved : Moves w action w') {t : Nat}
    {k : Task} {c : UInt64} (found : w'.task t = some k) (holds : held k.phase = some c) :
    ∃ l, w.task t = some l ∧ l.tag = k.tag ∧ (held l.phase = some c ∨
      action = .advance t ∧ l.phase = .exchange c (w.ctx k.tag).lastOnDemandRefresh ∧
        (w'.ctx k.tag).lastOnDemandRefresh = c) := by
  obtain ⟨l,before,own,_,how⟩ :=
    moves_origin moved (fun phase => held phase = some c) (by rintro ⟨⟩ <;> nofun) found holds
  refine ⟨l,before,own,?_⟩
  rcases how with rfl | quiet | ⟨acts,wrote⟩
  · exact .inl holds
  · exact .inl (quiet_held before quiet holds)
  · rcases writes_held wrote with same | ⟨now,stands,gained,stored⟩
    · exact .inl (same ▸ holds)
    · rw [gained, Option.some.injEq] at holds
      subst holds
      exact .inr ⟨acts,stands,stored⟩

theorem moves_reading {w w' : World} {action : Action} (moved : Moves w action w') {t : Nat}
    {k : Task} {now : UInt64} (found : w'.task t = some k) (reads : reading k.phase = some now) :
    (∃ l, w.task t = some l ∧ reading l.phase = some now) ∨ now = w.clock := by
  obtain ⟨l,before,_,_,rfl | quiet | ⟨_,wrote⟩⟩ :=
    moves_origin moved (fun phase => reading phase = some now) (by rintro ⟨⟩ <;> nofun) found reads
  · exact .inl ⟨l,before,reads⟩
  · rcases quiet_reading quiet reads with ⟨_,_,same⟩ | stands
    · exact .inr same
    · exact .inl ⟨l,before,by rw [stands]; rfl⟩
  · rw [(writes_reading wrote).1] at reads
    cases reads

theorem moves_compared {w w' : World} {action : Action} (moved : Moves w action w') {t : Nat}
    {k : Task} {now prev : UInt64} (found : w'.task t = some k)
    (compares : compared k.phase = some (now, prev)) :
    w.task t = some k ∨
      ∃ l, w.task t = some l ∧ l.tag = k.tag ∧ l.phase = .loadClaim now ∧
        prev = (w.ctx l.tag).lastOnDemandRefresh ∧
        saturatingAdd prev (w.ctx l.tag).authConfig.onDemandRefreshMinIntervalSecs ≤ now := by
  obtain ⟨l,before,own,_,rfl | quiet | ⟨_,wrote⟩⟩ :=
    moves_origin moved (fun phase => compared phase = some (now, prev)) (by rintro ⟨⟩ <;> nofun)
      found compares
  · exact .inl before
  · exact .inr ⟨l,before,own,quiet_compared quiet compares⟩
  · rw [(writes_reading wrote).2] at compares
    cases compares

def interval (ctx : OidcContext) : Nat := ctx.authConfig.onDemandRefreshMinIntervalSecs.toNat

/-- The claims of every reachable state, as Nat values. -/
structure Ordered (w : World) : Prop where
  clock_below : w.clock < u64Max
  interval_pos : ∀ g, 0 < interval (w.ctx g)
  read_below : ∀ {t k now}, w.task t = some k → reading k.phase = some now → now < u64Max
  spaced : ∀ {t k now prev}, w.task t = some k → compared k.phase = some (now, prev) →
    prev.toNat + interval (w.ctx k.tag) ≤ now.toNat
  seen_le : ∀ {t k now prev}, w.task t = some k → compared k.phase = some (now, prev) →
    prev.toNat ≤ (w.ctx k.tag).lastOnDemandRefresh.toNat
  claimed : ∀ {t k c}, w.task t = some k → held k.phase = some c →
    0 < c.toNat ∧ c.toNat ≤ (w.ctx k.tag).lastOnDemandRefresh.toNat
  unique : ∀ {t u k l c}, w.task t = some k → w.task u = some l → k.tag = l.tag →
    held k.phase = some c → held l.phase = some c → t = u
  completed_le : ∀ g, (w.ctx g).lastRefreshCompleted.toNat ≤ (w.ctx g).lastOnDemandRefresh.toNat

theorem pristine_ordered {w : World} (pristine : Pristine w) : Ordered w where
  clock_below := pristine.clock_below
  interval_pos g := (pristine.accepted g).interval_pos
  read_below found := by simp [pristine.idle] at found
  spaced found := by simp [pristine.idle] at found
  seen_le found := by simp [pristine.idle] at found
  claimed found := by simp [pristine.idle] at found
  unique found := by simp [pristine.idle] at found
  completed_le g := by simp [pristine.completed_zero g]

theorem moves_interval {w w' : World} {action : Action} (moved : Moves w action w')
    (g : AudienceTag) : interval (w'.ctx g) = interval (w.ctx g) := by
  rw [interval, (moves_identity moved g).config, interval]

theorem moves_clock {w w' : World} {action : Action} (moved : Moves w action w') :
    w'.clock = w.clock ∨ action = .setClock w'.clock ∧ w'.clock < u64Max := by
  cases moved with
  | clock below => exact .inr ⟨rfl,below⟩
  | discover | spawn | quiet | write => exact .inl rfl

/-- A reading below the largest word that passed the comparison is a whole
    interval later: the saturating sum did not saturate. -/
theorem saturatingAdd_le_of_below {prev step now : UInt64} (late : saturatingAdd prev step ≤ now)
    (below : now < u64Max) : prev.toNat + step.toNat ≤ now.toNat := by
  rw [UInt64.le_iff_toNat_le, saturatingAdd_toNat] at late
  rw [UInt64.lt_iff_toNat_lt, u64Max_toNat] at below
  omega

theorem moves_claim_spaced {w w' : World} {action : Action} (ordered : Ordered w)
    (moved : Moves w action w') (g : AudienceTag) :
    (w'.ctx g).lastOnDemandRefresh = (w.ctx g).lastOnDemandRefresh ∨
      (w.ctx g).lastOnDemandRefresh.toNat + interval (w.ctx g) ≤
        (w'.ctx g).lastOnDemandRefresh.toNat := by
  rcases moves_claim moved g with same | ⟨t,k,now,_,found,own,stands,stored,_⟩
  · exact .inl same
  · right
    rw [stored, ← own]
    exact ordered.spaced found (by rw [stands, own]; rfl)

theorem moves_claim_le {w w' : World} {action : Action} (ordered : Ordered w)
    (moved : Moves w action w') (g : AudienceTag) :
    (w.ctx g).lastOnDemandRefresh.toNat ≤ (w'.ctx g).lastOnDemandRefresh.toNat := by
  rcases moves_claim_spaced ordered moved g with same | spaced
  · rw [same]
  · omega

theorem moves_claimed {w w' : World} {action : Action} (ordered : Ordered w)
    (moved : Moves w action w') {t : Nat} {k : Task} {c : UInt64} (found : w'.task t = some k)
    (holds : held k.phase = some c) :
    0 < c.toNat ∧ c.toNat ≤ (w'.ctx k.tag).lastOnDemandRefresh.toNat := by
  obtain ⟨l,before,own,kept | ⟨_,stands,stored⟩⟩ := moves_held moved found holds
  · have bound := ordered.claimed before kept
    have grows := moves_claim_le ordered moved k.tag
    rw [own] at bound
    omega
  · have spaced := ordered.spaced before (by rw [stands]; rfl)
    have positive := ordered.interval_pos l.tag
    rw [stored]
    omega

theorem moves_unique {w w' : World} {action : Action} (ordered : Ordered w)
    (moved : Moves w action w') {t u : Nat} {k l : Task} {c : UInt64}
    (found : w'.task t = some k) (found' : w'.task u = some l) (same : k.tag = l.tag)
    (holds : held k.phase = some c) (holds' : held l.phase = some c) : t = u := by
  have above : ∀ {t u : Nat} {k l : Task}, w.task t = some k → w.task u = some l → k.tag = l.tag →
      held k.phase = some c → l.phase ≠ .exchange c (w.ctx l.tag).lastOnDemandRefresh := by
    intro t u k l before before' same kept stands
    have bound := (ordered.claimed before kept).2
    have spaced := ordered.spaced before' (by rw [stands]; rfl)
    have positive := ordered.interval_pos l.tag
    rw [same] at bound
    omega
  obtain ⟨k₀,before,own,how⟩ := moves_held moved found holds
  obtain ⟨l₀,before',own',how'⟩ := moves_held moved found' holds'
  have tags : k₀.tag = l₀.tag := by rw [own, own', same]
  rw [← own] at how
  rw [← own'] at how'
  rcases how with kept | ⟨acts,stands,_⟩
  · rcases how' with kept' | ⟨_,stands',_⟩
    · exact ordered.unique before before' tags kept kept'
    · exact absurd stands' (above before before' tags kept)
  · rcases how' with kept' | ⟨acts',_,_⟩
    · exact absurd stands (above before' before tags.symm kept')
    · rw [acts, Action.advance.injEq] at acts'
      exact acts'

theorem moves_completed_le {w w' : World} {action : Action} (ordered : Ordered w)
    (moved : Moves w action w') (g : AudienceTag) :
    (w'.ctx g).lastRefreshCompleted.toNat ≤ (w'.ctx g).lastOnDemandRefresh.toNat := by
  have grows := moves_claim_le ordered moved g
  rcases moves_completed moved g with same | ⟨t,k,claim,installed,_,found,own,stands,stored,_⟩
  · have before := ordered.completed_le g
    rw [same]
    omega
  · have bound := (ordered.claimed found (by rw [stands]; rfl)).2
    rw [own] at bound
    rw [stored]
    omega

theorem moves_ordered {w w' : World} {action : Action} (ordered : Ordered w)
    (moved : Moves w action w') : Ordered w' where
  clock_below := by
    rcases moves_clock moved with same | ⟨_,below⟩
    · rw [same]
      exact ordered.clock_below
    · exact below
  interval_pos g := by
    rw [moves_interval moved]
    exact ordered.interval_pos g
  read_below found reads := by
    rcases moves_reading moved found reads with ⟨l,before,reads⟩ | same
    · exact ordered.read_below before reads
    · rw [same]
      exact ordered.clock_below
  spaced found compares := by
    rw [moves_interval moved]
    rcases moves_compared moved found compares with before | ⟨l,before,own,stands,_,late⟩
    · exact ordered.spaced before compares
    · rw [← own]
      exact saturatingAdd_le_of_below late (ordered.read_below before (by rw [stands]; rfl))
  seen_le := by
    intro t k now prev found compares
    have grows := moves_claim_le ordered moved k.tag
    rcases moves_compared moved found compares with before | ⟨l,before,own,_,same,_⟩
    · exact (ordered.seen_le before compares).trans grows
    · rw [same, own]
      exact grows
  claimed found holds := moves_claimed ordered moved found holds
  unique found found' same holds holds' := moves_unique ordered moved found found' same holds holds'
  completed_le := moves_completed_le ordered moved

def HeldApart (w : World) : Prop :=
  ∀ t u k l c d, t ≠ u → w.task t = some k → w.task u = some l → k.tag = l.tag →
    held k.phase = some c → held l.phase = some d →
    c.toNat + interval (w.ctx k.tag) ≤ d.toNat ∨ d.toNat + interval (w.ctx k.tag) ≤ c.toNat

theorem moves_heldApart {w w' : World} {action : Action} (ordered : Ordered w) (apart : HeldApart w)
    (moved : Moves w action w') : HeldApart w' := by
  have fresh : ∀ {t u : Nat} {k l : Task} {c d : UInt64}, w.task t = some k → w.task u = some l →
      k.tag = l.tag → held k.phase = some c → l.phase = .exchange d (w.ctx l.tag).lastOnDemandRefresh →
      c.toNat + interval (w.ctx k.tag) ≤ d.toNat := by
    intro t u k l c d found found' same holds stands
    have below := (ordered.claimed found holds).2
    have spaced := ordered.spaced found' (by rw [stands]; rfl)
    rw [← same] at spaced
    omega
  intro t u k l c d other found found' same holds holds'
  rw [moves_interval moved]
  obtain ⟨k₀,before,own,how⟩ := moves_held moved found holds
  obtain ⟨l₀,before',own',how'⟩ := moves_held moved found' holds'
  have tags : k₀.tag = l₀.tag := by rw [own, own', same]
  rw [← own]
  rw [← own] at how
  rw [← own'] at how'
  rcases how with kept | ⟨acts,stands,_⟩
  · rcases how' with kept' | ⟨_,stands',_⟩
    · exact apart t u k₀ l₀ c d other before before' tags kept kept'
    · exact .inl (fresh before before' tags kept stands')
  · rcases how' with kept' | ⟨acts',_,_⟩
    · rw [tags]
      exact .inr (fresh before' before tags.symm kept' stands)
    · rw [acts, Action.advance.injEq] at acts'
      exact absurd acts' other

theorem reachable_ordered {platform : Platform} {w w' : World} {actions : List Action}
    (started : Started platform w) (taken : run (step platform) w actions = some w') :
    Ordered w' :=
  run_invariant Ordered (fun ordered next => moves_ordered ordered (step_moves next))
    (pristine_ordered (started_pristine started)) taken

theorem reachable_heldApart {platform : Platform} {w w' : World} {actions : List Action}
    (started : Started platform w) (taken : run (step platform) w actions = some w') :
    HeldApart w' := by
  have pristine := started_pristine started
  have both := run_invariant (fun u => Ordered u ∧ HeldApart u)
    (fun holds next => ⟨moves_ordered holds.1 (step_moves next),
      moves_heldApart holds.1 holds.2 (step_moves next)⟩) ⟨pristine_ordered pristine,?_⟩ taken
  · exact both.2
  · intro t u k l c d _ found
    simp [pristine.idle] at found

end RefreshClaims
