import Apokryphos.RateLimit

/-!
Completion of the on-demand refresh. A winner publishes its claim before the
fetch and stores the same value as the completion afterwards, unconditionally; a
caller that did not win compares the stored completion with the claim it saw
first. The stored value moves forwards, names a finished attempt and keeps up
with the claims only while winners neither overlap nor disappear; each result
below names the schedules in which that is so.
-/
namespace RefreshCompletion
open MachineWords OidcContexts RateLimit RefreshClaims RefreshTasks ServerConfig StepRuns

def completing : Phase → Option UInt64
  | .complete claim _ => some claim
  | _ => none

/-- No winner stores its completion after one with a newer claim has. -/
def NotOvertaken (w : World) (action : Action) : Prop :=
  ∀ k ∈ w.acting action, ∀ c ∈ completing k.phase, ∀ s ∈ w.tasks.entries, s.2.tag = k.tag →
    ∀ d ∈ recorded s.2.phase, d ≤ c

/-- No winner is dropped, and none panics, between its exchange and its
    completion. -/
def Uninterrupted (w : World) (action : Action) : Prop :=
  ∀ k ∈ w.interrupted action, attempt k.phase = none

instance (w : World) (action : Action) : Decidable (NotOvertaken w action) :=
  inferInstanceAs (Decidable (∀ k ∈ w.acting action, ∀ c ∈ completing k.phase,
    ∀ s ∈ w.tasks.entries, s.2.tag = k.tag → ∀ d ∈ recorded s.2.phase, d ≤ c))

instance (w : World) (action : Action) : Decidable (Uninterrupted w action) :=
  inferInstanceAs (Decidable (∀ k ∈ w.interrupted action, attempt k.phase = none))

variable {platform : Platform} {w w' : World} {action : Action} {g : AudienceTag} {t : Nat}
  {k : Task} {c : UInt64}

theorem moves_recorded_kept (moved : Moves w action w') (found : w.task t = some k)
    (done : recorded k.phase = some c) :
    ∃ l, w'.task t = some l ∧ l.tag = k.tag ∧ recorded l.phase = some c := by
  rcases moves_task moved t with ⟨_,same⟩ | ⟨_,_,_,free,_⟩ | ⟨l,next,before,after,how⟩
  · exact ⟨k,same.trans found,rfl,done⟩
  · rw [free] at found
    cases found
  · rw [before, Option.some.injEq] at found
    subst found
    refine ⟨_,after,rfl,?_⟩
    rcases how with quiet | ⟨_,wrote⟩
    · rw [(quiet_recorded quiet).2] at done
      cases done
    · generalize w'.ctx l.tag = ctx at wrote
      cases wrote with
      | claim stands | install stands | complete stands =>
        rw [stands] at done
        cases done
      | notify stands =>
        rw [stands] at done
        exact done

def Credited (w : World) : Prop :=
  ∀ g, (w.ctx g).lastRefreshCompleted = 0 ∨ ∃ t k, w.task t = some k ∧ k.tag = g ∧
    recorded k.phase = some (w.ctx g).lastRefreshCompleted

theorem pristine_credited (pristine : Pristine w) : Credited w :=
  fun g => .inl (pristine.completed_zero g)

theorem moves_credited (moved : Moves w action w') (credited : Credited w) : Credited w' := by
  intro g
  rcases moves_completed moved g with same | ⟨t,k,_,_,_,_,own,_,stored,after⟩
  · rw [same]
    rcases credited g with zero | ⟨t,k,found,own,done⟩
    · exact .inl zero
    · obtain ⟨l,after,tag,done⟩ := moves_recorded_kept moved found done
      exact .inr ⟨t,l,after,tag.trans own,done⟩
  · exact .inr ⟨t,_,after,own,by rw [stored]; rfl⟩

theorem moves_completed_grows (credited : Credited w) (moved : Moves w action w')
    (inTurn : NotOvertaken w action) (g : AudienceTag) :
    (w.ctx g).lastRefreshCompleted ≤ (w'.ctx g).lastRefreshCompleted := by
  rcases moves_completed moved g with same | ⟨t,k,claim,installed,acts,found,own,stands,stored,_⟩
  · rw [same]
    exact UInt64.le_refl _
  · rw [stored]
    rcases credited g with zero | ⟨u,l,found',own',done⟩
    · rw [zero]
      exact UInt64.zero_le
    · exact inTurn k (by rw [acts]; exact found) claim (by rw [stands]; rfl) ⟨u,l⟩
        (AList.mem_lookup_iff.mp found') (own'.trans own.symm) _ done

/-- In every run in which no winner stores its completion after one with a newer
    claim has, the stored completion never decreases. -/
theorem completion_never_decreases {front back : List Action} {u v : World}
    (started : Started platform w) (inTurn : Along (step platform) NotOvertaken w (front ++ back))
    (before : run (step platform) w front = some u) (after : run (step platform) u back = some v)
    (g : AudienceTag) :
    (u.ctx g).lastRefreshCompleted.toNat ≤ (v.ctx g).lastRefreshCompleted.toNat := by
  have credited : Credited u :=
    run_invariant Credited (fun holds next => moves_credited (step_moves next) holds)
      (pristine_credited (started_pristine started)) before
  have grown := guarded_invariant
    (fun x => Credited x ∧ (u.ctx g).lastRefreshCompleted ≤ (x.ctx g).lastRefreshCompleted)
    (fun holds inTurn next => ⟨moves_credited (step_moves next) holds.1,
      UInt64.le_trans holds.2 (moves_completed_grows holds.1 (step_moves next) inTurn g)⟩)
    ⟨credited,UInt64.le_refl _⟩ (along_append inTurn before).2 after
  exact UInt64.le_iff_toNat_le.mp grown.2

def loneWinner : List Action :=
  [.spawn 0 .onDemand .vault, .advance 0, .advance 0, .advance 0, .advance 0, .fetched 0 .failed,
    .advance 0, .advance 0]

theorem completion_never_decreases_alone :
    ∃ w, Started samplePlatform w ∧
      ∃ u ∈ run (step samplePlatform) w (loneWinner.take 6),
      ∃ v ∈ run (step samplePlatform) u (loneWinner.drop 6),
        (u.ctx .vault).lastRefreshCompleted = 0 ∧ (v.ctx .vault).lastRefreshCompleted = 100 ∧
        (u.ctx .vault).lastRefreshCompleted.toNat ≤ (v.ctx .vault).lastRefreshCompleted.toNat := by
  have evaluated : ∃ w, Started samplePlatform w ∧
      Along (step samplePlatform) NotOvertaken w (loneWinner.take 6 ++ loneWinner.drop 6) ∧
      ∃ u ∈ run (step samplePlatform) w (loneWinner.take 6),
      ∃ v ∈ run (step samplePlatform) u (loneWinner.drop 6),
        (u.ctx .vault).lastRefreshCompleted = 0 ∧ (v.ctx .vault).lastRefreshCompleted = 100 :=
    sample_exists (by decide +kernel)
  obtain ⟨w,started,inTurn,u,before,v,after,zero,stored⟩ := evaluated
  exact ⟨w,started,u,before,v,after,zero,stored,
    completion_never_decreases started inTurn before after .vault⟩

def clockSet : Action → Option UInt64
  | .setClock now => some now
  | _ => none

def resolving (w : World) : Action → Option Task
  | .fetched t _ => w.task t
  | _ => none

def sentAt : Phase → Option UInt64
  | .fetching _ _ since => some since
  | _ => none

/-- The clock does not go backwards, and a fetch resolves within the timeout of
    the HTTP client. -/
def WithinTimeout (w : World) (action : Action) : Prop :=
  (∀ now ∈ clockSet action, w.clock ≤ now) ∧
    ∀ k ∈ resolving w action, ∀ since ∈ sentAt k.phase, w.clock.toNat ≤ since.toNat + 30

instance (w : World) (action : Action) : Decidable (WithinTimeout w action) :=
  inferInstanceAs (Decidable (_ ∧ _))

/-- A second caller claims one interval after the first and finishes before it. -/
def overlappingWinners : List Action :=
  [.spawn 0 .onDemand .vault, .advance 0, .advance 0, .advance 0, .advance 0, .setClock 101,
    .spawn 1 .onDemand .vault, .advance 1, .advance 1, .advance 1, .advance 1, .fetched 1 .failed,
    .advance 1, .advance 1, .fetched 0 .failed, .advance 0]

theorem overlapping_winners_step_back :
    ∃ w, Started samplePlatform w ∧
      Along (step samplePlatform) WithinTimeout w overlappingWinners ∧
      ∃ u ∈ run (step samplePlatform) w (overlappingWinners.take 15),
      ∃ v ∈ run (step samplePlatform) u (overlappingWinners.drop 15),
        (v.ctx .vault).lastRefreshCompleted < (u.ctx .vault).lastRefreshCompleted :=
  sample_exists (by decide +kernel)

theorem moves_attempt_kept (moved : Moves w action w') (calm : Uninterrupted w action)
    (found : w.task t = some k) (flies : attempt k.phase = some c) :
    ∃ l, w'.task t = some l ∧ l.tag = k.tag ∧ (attempt l.phase = some c ∨
      recorded l.phase = some c ∧ (w'.ctx k.tag).lastRefreshCompleted = c) := by
  rcases moves_task moved t with ⟨_,same⟩ | ⟨_,_,_,free,_⟩ | ⟨l,next,before,after,how⟩
  · exact ⟨k,same.trans found,rfl,.inl flies⟩
  · rw [free] at found
    cases found
  · rw [before, Option.some.injEq] at found
    subst found
    refine ⟨_,after,rfl,?_⟩
    rcases how with quiet | ⟨_,wrote⟩
    · rcases quiet_attempt before quiet with same | ⟨_,torn⟩
      · exact .inl (same.trans flies)
      · rw [calm l torn] at flies
        cases flies
    · generalize w'.ctx l.tag = ctx at wrote
      cases wrote with
      | claim stands | notify stands =>
        rw [stands] at flies
        cases flies
      | install stands =>
        rw [stands] at flies
        exact .inl ((attempt_afterInstall _ _).trans flies)
      | complete stands =>
        rw [stands] at flies
        cases flies
        exact .inr ⟨rfl,rfl⟩

theorem acting_some (acts : k ∈ w.acting action) : ∃ t, action = .advance t ∧ w.task t = some k := by
  cases action with
  | advance t => exact ⟨t,rfl,acts⟩
  | setClock | discoveryFetched | spawn | fetched | timeout | drop => cases acts

theorem recorded_idle {d : UInt64} {phase : Phase} (done : recorded phase = some c) :
    attempt phase ≠ some d := by
  intro flies
  cases phase <;> simp_all [attempt, recorded]

theorem held_cases {phase : Phase} (holds : held phase = some c) :
    attempt phase = some c ∨ recorded phase = some c := by
  rw [held, Option.or_eq_some_iff] at holds
  exact holds.imp_right And.right

theorem held_of_attempt {phase : Phase} (flies : attempt phase = some c) : held phase = some c := by
  rw [held, flies, Option.some_or]

theorem held_of_recorded {phase : Phase} (done : recorded phase = some c) :
    held phase = some c := by
  cases phase <;> simp_all [held, attempt, recorded]

theorem moves_held_kept (moved : Moves w action w') (calm : Uninterrupted w action)
    (found : w.task t = some k) (holds : held k.phase = some c) :
    ∃ l, w'.task t = some l ∧ l.tag = k.tag ∧ held l.phase = some c := by
  rcases held_cases holds with flies | done
  · obtain ⟨l,after,own,still | ⟨done,_⟩⟩ := moves_attempt_kept moved calm found flies
    · exact ⟨l,after,own,held_of_attempt still⟩
    · exact ⟨l,after,own,held_of_recorded done⟩
  · obtain ⟨l,after,own,done⟩ := moves_recorded_kept moved found done
    exact ⟨l,after,own,held_of_recorded done⟩

/-- The last claim has its completion, or its winner is still at work. -/
def SlotKept (g : AudienceTag) (w : World) : Prop :=
  (w.ctx g).lastOnDemandRefresh ≤ (w.ctx g).lastRefreshCompleted ∨
    ∃ t k, w.task t = some k ∧ k.tag = g ∧ attempt k.phase = some (w.ctx g).lastOnDemandRefresh

theorem moves_slotKept (credited : Credited w) (moved : Moves w action w')
    (calm : Uninterrupted w action) (inTurn : NotOvertaken w action) (kept : SlotKept g w) :
    SlotKept g w' := by
  rcases moves_claim moved g with same | ⟨t,k,now,_,_,own,_,stored,after⟩
  · rcases kept with caught | ⟨t,k,found,own,flies⟩
    · left
      rw [same]
      exact UInt64.le_trans caught (moves_completed_grows credited moved inTurn g)
    · obtain ⟨l,after,tag,still | ⟨_,stored⟩⟩ := moves_attempt_kept moved calm found flies
      · exact .inr ⟨t,l,after,tag.trans own,same ▸ still⟩
      · left
        rw [same, ← own, stored, own]
        exact UInt64.le_refl _
  · exact .inr ⟨t,_,after,own,by rw [stored]; rfl⟩

def Orderly (w : World) (action : Action) : Prop :=
  Uninterrupted w action ∧ NotOvertaken w action

instance (w : World) (action : Action) : Decidable (Orderly w action) :=
  inferInstanceAs (Decidable (_ ∧ _))

def notifyMade (g : AudienceTag) (w : World) : Action → Option (Nat × UInt64)
  | .advance t => (w.task t).bind fun k =>
    match k.phase with
    | .notify claim _ => if k.tag = g then some (t, claim) else none
    | _ => none
  | _ => none

theorem notifyMade_own {installed : Bool} (found : w.task t = some k) (own : k.tag = g)
    (stands : k.phase = .notify c installed) : notifyMade g w (.advance t) = some (t, c) := by
  simp [notifyMade, found, own, stands]

theorem notifyMade_quiet {next : Phase} (found : w.task t = some k) (moved : Quiet w t k action next) :
    notifyMade g w action = none := by
  cases moved with
  | fetched | failed | panicked | timeout | dropFetch | dropWait => rfl
  | readClock stands | inWindow stands | outOfWindow stands | lose stands | startFetch stands
  | refuse stands | passCheck stands | caughtUp stands | register stands | enroll stands
  | woken stands | recheck stands => simp [notifyMade, found, stands]

theorem moves_notifies (moved : Moves w action w') (g : AudienceTag) :
    (w'.ctx g).refreshNotify = (w.ctx g).refreshNotify + (notifyMade g w action).toList.length := by
  cases moved with
  | clock | spawn => rfl
  | discover =>
    change _ = (w.ctx g).refreshNotify
    apply setCtx_keeps OidcContext.refreshNotify
    rfl
  | quiet found moved =>
    rw [notifyMade_quiet found moved]
    rfl
  | @write t k next ctx found wrote =>
    by_cases own : k.tag = g
    · subst own
      rw [setCtx_ctx_same]
      cases wrote with
      | claim stands | install stands | complete stands => simp [notifyMade, found, stands]
      | notify stands => simp [notifyMade_own found rfl stands]
    · rw [setCtx_ctx_other (Ne.symm own)]
      have silent : notifyMade g w (.advance t) = none := by
        simp only [notifyMade, found, Option.bind_some, if_neg own]
        split <;> rfl
      rw [silent]
      rfl

def Answered (g : AudienceTag) (made : List (Nat × UInt64)) (w : World) (e : Nat × UInt64) : Prop :=
  ∃ k, w.task e.1 = some k ∧ k.tag = g ∧ held k.phase = some e.2 ∧
    ∀ installed, k.phase = .finished (some e.2) installed → e ∈ made

theorem moves_finished {e : Nat × UInt64} {l : Task} {installed : Bool} (moved : Moves w action w')
    (found : w'.task e.1 = some l) (stands : l.phase = .finished (some e.2) installed) :
    w.task e.1 = some l ∨ notifyMade l.tag w action = some e := by
  obtain ⟨k,before,own,_,rfl | quiet | ⟨acts,wrote⟩⟩ :=
    moves_origin moved (fun phase => phase = .finished (some e.2) installed)
      (by rintro ⟨⟩ <;> nofun) found stands
  · exact .inl before
  · have fresh := (quiet_recorded quiet).1
    rw [stands] at fresh
    cases fresh
  · right
    rw [stands] at wrote
    generalize w'.ctx l.tag = ctx at wrote
    generalize reached : Phase.finished (some e.2) installed = next at wrote
    cases wrote with
    | notify here =>
      cases reached
      rw [acts]
      exact notifyMade_own before own here
    | claim | complete => cases reached
    | @install claim => cases claim <;> cases reached

theorem moves_answered {made : List (Nat × UInt64)} {e : Nat × UInt64} (moved : Moves w action w')
    (calm : Uninterrupted w action) (answered : Answered g made w e) :
    Answered g (made ++ (notifyMade g w action).toList) w' e := by
  obtain ⟨k,found,own,holds,ended⟩ := answered
  obtain ⟨l,after,tag,holds⟩ := moves_held_kept moved calm found holds
  refine ⟨l,after,tag.trans own,holds,?_⟩
  intro installed stands
  rw [List.mem_append]
  rcases moves_finished moved after stands with same | fired
  · rw [found, Option.some.injEq] at same
    exact .inl (ended installed (same ▸ stands))
  · rw [tag, own] at fired
    exact .inr (Option.mem_toList.mpr fired)

theorem step_claims_answered {claims made : List (Nat × UInt64)} (calm : Uninterrupted w action)
    (taken : step platform w action = some w') (before : ∀ e ∈ claims, Answered g made w e) :
    ∀ e ∈ claims ++ (claimMade g w action).toList,
      Answered g (made ++ (notifyMade g w action).toList) w' e := by
  intro e member
  rcases List.mem_append.mp member with old | new
  · exact moves_answered (step_moves taken) calm (before e old)
  · obtain ⟨rfl,k,found,rfl,stands⟩ := claimMade_some (Option.mem_toList.mp new)
    simp only [step, found, Option.bind_some, advance, stands, if_true, Option.some.injEq] at taken
    rw [← taken]
    exact ⟨_,setTask_task_same w _ _,rfl,rfl,by simp⟩

theorem notify_next {installed : Bool} (found : w.task t = some k)
    (stands : k.phase = .notify c installed) (taken : step platform w action = some w')
    (aims : action.target = some t) : action = .advance t := by
  rcases moves_task (step_moves taken) t with ⟨other,_⟩ | ⟨_,_,_,free,_⟩ | ⟨l,next,before,_,how⟩
  · exact absurd aims other
  · cases free.symm.trans found
  · cases before.symm.trans found
    rcases how with quiet | ⟨acts,_⟩
    · have fresh := (quiet_recorded quiet).2
      rw [stands] at fresh
      cases fresh
    · exact acts

/-- The notify of a claim has been made, or it is all that its winner can still do. -/
def Notifies (platform : Platform) (g : AudienceTag) (made : List (Nat × UInt64)) (w : World)
    (e : Nat × UInt64) : Prop :=
  e ∈ made ∨ notifyMade g w (.advance e.1) = some e ∧ (step platform w (.advance e.1)).isSome ∧
    ∀ action, action.target = some e.1 → (step platform w action).isSome → action = .advance e.1

theorem answered_notifies {made : List (Nat × UInt64)} {e : Nat × UInt64}
    (found : w.task e.1 = some k) (own : k.tag = g) (done : recorded k.phase = some e.2)
    (ended : ∀ installed, k.phase = .finished (some e.2) installed → e ∈ made) :
    Notifies platform g made w e := by
  cases stands : k.phase with
  | finished claim installed =>
    rw [stands] at done
    have same : claim = some e.2 := done
    exact .inl (ended installed (by rw [stands, same]))
  | notify claim installed =>
    rw [stands] at done
    cases done
    refine .inr ⟨notifyMade_own found own stands,?_,?_⟩
    · simp [step, found, advance, stands]
    · intro action aims enabled
      obtain ⟨v,taken⟩ := Option.isSome_iff_exists.mp enabled
      exact notify_next found stands taken aims
  | _ =>
    rw [stands] at done
    cases done

/-- In every run in which no winner is torn down before its completion and none
    completes after one with a newer claim: whenever no winner is at work, the
    stored completion has caught up with the last claim, and every claim ever
    made has stored its completion and is followed by a notify. The callers that
    wait see each notify, because it moves the count they watch. -/
theorem claimed_slot_never_lost {actions : List Action} (started : Started platform w)
    (orderly : Along (step platform) Orderly w actions)
    (taken : run (step platform) w actions = some w') (g : AudienceTag)
    (idle : ∀ s ∈ w'.tasks.entries, s.2.tag = g → attempt s.2.phase = none) :
    let made := events (step platform) (notifyMade g) w actions
    (w'.ctx g).lastOnDemandRefresh ≤ (w'.ctx g).lastRefreshCompleted ∧
      (∀ e ∈ events (step platform) (claimMade g) w actions,
        (∃ k, w'.task e.1 = some k ∧ recorded k.phase = some e.2) ∧ Notifies platform g made w' e) ∧
      (w'.ctx g).refreshNotify = (w.ctx g).refreshNotify + made.length := by
  intro made
  have pristine := started_pristine started
  have start : SlotKept g w := by
    left
    rw [pristine.claim_zero, pristine.completed_zero]
    exact UInt64.le_refl _
  have kept := guarded_invariant (fun u => Credited u ∧ SlotKept g u)
    (fun holds orderly next => ⟨moves_credited (step_moves next) holds.1,
      moves_slotKept holds.1 (step_moves next) orderly.1 orderly.2 holds.2⟩)
    ⟨pristine_credited pristine,start⟩ orderly taken
  have answered := guarded_history (fun front u => ∀ e ∈ events (step platform) (claimMade g) w front,
      Answered g (events (step platform) (notifyMade g) w front) u e) (by simp [events])
    (fun before holds orderly next => by
      rw [events_snoc before next, events_snoc before next]
      exact step_claims_answered orderly.1 next holds) orderly taken
  have counted := history_invariant (fun front u => (u.ctx g).refreshNotify =
      (w.ctx g).refreshNotify + (events (step platform) (notifyMade g) w front).length) rfl
    (fun before same next => by
      rw [events_snoc before next, List.length_append, moves_notifies (step_moves next), same,
        Nat.add_assoc]) taken
  have idle' : ∀ {t k}, w'.task t = some k → k.tag = g → attempt k.phase = none := by
    intro t k found own
    exact idle ⟨t,k⟩ (AList.mem_lookup_iff.mp found) own
  refine ⟨?_,?_,counted⟩
  · rcases kept.2 with caught | ⟨t,k,found,own,flies⟩
    · exact caught
    · rw [idle' found own] at flies
      cases flies
  · intro e member
    obtain ⟨k,found,own,holds,ended⟩ := answered e member
    have done : recorded k.phase = some e.2 := by
      rcases held_cases holds with flies | done
      · rw [idle' found own] at flies
        cases flies
      · exact done
    exact ⟨⟨k,found,done⟩,answered_notifies found own done ended⟩

theorem claimed_slot_never_lost_alone :
    ∃ w, Started samplePlatform w ∧ ∃ w' ∈ run (step samplePlatform) w loneWinner,
      (w'.ctx .vault).lastOnDemandRefresh = 100 ∧
      (w'.ctx .vault).lastOnDemandRefresh ≤ (w'.ctx .vault).lastRefreshCompleted ∧
      (w'.ctx .vault).refreshNotify = (w.ctx .vault).refreshNotify + 1 := by
  have evaluated : ∃ w, Started samplePlatform w ∧
      Along (step samplePlatform) Orderly w loneWinner ∧
      (events (step samplePlatform) (notifyMade .vault) w loneWinner).length = 1 ∧
      ∃ w' ∈ run (step samplePlatform) w loneWinner,
        (w'.ctx .vault).lastOnDemandRefresh = 100 ∧
        ∀ s ∈ w'.tasks.entries, s.2.tag = .vault → attempt s.2.phase = none :=
    sample_exists (by decide +kernel)
  obtain ⟨w,started,orderly,once,w',taken,claimed,idle⟩ := evaluated
  obtain ⟨caught,_,counted⟩ := claimed_slot_never_lost started orderly taken .vault idle
  exact ⟨w,started,w',taken,claimed,caught,once ▸ counted⟩

def droppedWinner : List Action :=
  [.spawn 0 .onDemand .vault, .advance 0, .advance 0, .advance 0, .advance 0, .drop 0]

theorem dropped_winner_loses_slot :
    ∃ w, Started samplePlatform w ∧ ∃ w' ∈ run (step samplePlatform) w droppedWinner,
      (∀ s ∈ w'.tasks.entries, s.2.tag = .vault → attempt s.2.phase = none) ∧
      (w'.ctx .vault).lastRefreshCompleted < (w'.ctx .vault).lastOnDemandRefresh :=
  sample_exists (by decide +kernel)

/-- A caller that lost the exchange: the claim it saw first, and the claim that beat
    it. -/
def lost : Phase → Option (UInt64 × UInt64)
  | .check prev beaten | .register prev beaten | .wait prev beaten _ | .recheck prev beaten =>
    beaten.map fun b => (prev, b)
  | _ => none

def rereads : Phase → Option (UInt64 × UInt64)
  | .check prev beaten | .recheck prev beaten => beaten.map fun b => (prev, b)
  | _ => none

def sees : Phase → Option UInt64
  | .exchange _ prev | .check prev _ | .register prev _ | .wait prev _ _ | .recheck prev _ => some prev
  | _ => none

def AtWork (w : World) (g : AudienceTag) (c : UInt64) : Prop :=
  ∃ s ∈ w.tasks.entries, s.2.tag = g ∧ attempt s.2.phase = some c

/-- While the winner that beat it is at work, a caller reads the stored completion
    only if the winner whose claim it saw is at work as well. -/
def Patient (w : World) (action : Action) : Prop :=
  ∀ k ∈ w.acting action, ∀ r ∈ rereads k.phase, AtWork w k.tag r.2 → AtWork w k.tag r.1

/-- A winner stores its completion only when no older winner is at work. -/
def InOrder (w : World) (action : Action) : Prop :=
  ∀ k ∈ w.acting action, ∀ c ∈ completing k.phase, ∀ s ∈ w.tasks.entries, s.2.tag = k.tag →
    ∀ d ∈ attempt s.2.phase, c ≤ d

def Collapsing (w : World) (action : Action) : Prop :=
  Uninterrupted w action ∧ InOrder w action

instance (w : World) (g : AudienceTag) (c : UInt64) : Decidable (AtWork w g c) :=
  inferInstanceAs (Decidable (∃ s ∈ w.tasks.entries, s.2.tag = g ∧ attempt s.2.phase = some c))

instance (w : World) (action : Action) : Decidable (Patient w action) :=
  inferInstanceAs (Decidable (∀ k ∈ w.acting action, ∀ r ∈ rereads k.phase,
    AtWork w k.tag r.2 → AtWork w k.tag r.1))

instance (w : World) (action : Action) : Decidable (InOrder w action) :=
  inferInstanceAs (Decidable (∀ k ∈ w.acting action, ∀ c ∈ completing k.phase,
    ∀ s ∈ w.tasks.entries, s.2.tag = k.tag → ∀ d ∈ attempt s.2.phase, c ≤ d))

instance (w : World) (action : Action) : Decidable (Collapsing w action) :=
  inferInstanceAs (Decidable (_ ∧ _))

def Completed (w : World) (g : AudienceTag) (c : UInt64) : Prop :=
  ∃ t k, w.task t = some k ∧ k.tag = g ∧ recorded k.phase = some c ∧
    ∀ s l, w.task s = some l → l.tag = g → held l.phase = some c → s = t

def ReportsAfter (platform : Platform) (w : World) (action : Action) : Prop :=
  ∀ t k prev beaten v, w.task t = some k → lost k.phase = some (prev, beaten) →
    step platform w action = some v → v.task t = some { k with phase := .finished none true } →
    Completed w k.tag beaten

theorem atWork_iff : AtWork w g c ↔ ∃ t k, w.task t = some k ∧ k.tag = g ∧ attempt k.phase = some c := by
  constructor
  · rintro ⟨⟨t,k⟩,member,own,flies⟩
    exact ⟨t,k,AList.mem_lookup_iff.mpr member,own,flies⟩
  · rintro ⟨t,k,found,own,flies⟩
    exact ⟨⟨t,k⟩,AList.mem_lookup_iff.mp found,own,flies⟩

@[simp] theorem lost_afterInstall (claim : Option UInt64) (installed : Bool) :
    lost (afterInstall claim installed) = none := by
  cases claim <;> rfl

theorem quiet_lost {next : Phase} {prev beaten : UInt64} (moved : Quiet w t k action next)
    (loses : lost next = some (prev, beaten)) :
    lost k.phase = some (prev, beaten) ∨ (∃ now, compared k.phase = some (now, prev)) ∧
      (w.ctx k.tag).lastOnDemandRefresh = beaten ∧ beaten ≠ prev := by
  cases moved with
  | lose stands moved =>
    cases loses
    exact .inr ⟨⟨_,by rw [stands]; rfl⟩,rfl,moved⟩
  | register stands | enroll stands | woken stands | timeout stands =>
    rw [stands]
    exact .inl loses
  | failed | refuse => simp at loses
  | inWindow | _ => cases loses

theorem writes_lost {ctx ctx' : OidcContext} {phase next : Phase}
    (wrote : Writes ctx phase next ctx') : lost next = none ∧ lost phase = none := by
  cases wrote with
  | install stands =>
    rw [stands, lost_afterInstall]
    exact ⟨rfl,rfl⟩
  | claim stands | complete stands | notify stands =>
    rw [stands]
    exact ⟨rfl,rfl⟩

theorem quiet_sees {next : Phase} {prev : UInt64} (moved : Quiet w t k action next)
    (saw : sees next = some prev) :
    sees k.phase = some prev ∨ prev = (w.ctx k.tag).lastOnDemandRefresh := by
  cases moved with
  | inWindow stands | outOfWindow stands =>
    cases saw
    exact .inr rfl
  | lose stands | register stands | enroll stands | woken stands | timeout stands =>
    rw [stands]
    exact .inl saw
  | @failed claim | @refuse claim => cases claim <;> cases saw
  | _ => cases saw

theorem writes_sees {ctx ctx' : OidcContext} {phase next : Phase}
    (wrote : Writes ctx phase next ctx') : sees next = none := by
  cases wrote with
  | @install claim => cases claim <;> rfl
  | claim | complete | notify => rfl

/-- Where every winner stands while schedules are orderly: those at work are
    ahead of the stored completion and the others are not, and every claim that
    was seen is held. -/
structure Settling (w : World) : Prop where
  ordered : Ordered w
  ahead : ∀ {t k c}, w.task t = some k → attempt k.phase = some c →
    (w.ctx k.tag).lastRefreshCompleted.toNat < c.toNat
  reached : ∀ {t k c}, w.task t = some k → recorded k.phase = some c →
    c.toNat ≤ (w.ctx k.tag).lastRefreshCompleted.toNat
  owner : ∀ g, (w.ctx g).lastOnDemandRefresh.toNat = 0 ∨ ∃ t k, w.task t = some k ∧ k.tag = g ∧
    held k.phase = some (w.ctx g).lastOnDemandRefresh
  seen : ∀ {t k prev}, w.task t = some k → sees k.phase = some prev →
    prev.toNat = 0 ∨ ∃ u l, w.task u = some l ∧ l.tag = k.tag ∧ held l.phase = some prev
  winner : ∀ {t k prev beaten}, w.task t = some k → lost k.phase = some (prev, beaten) →
    ∃ u l, w.task u = some l ∧ l.tag = k.tag ∧ held l.phase = some beaten

theorem pristine_settling (pristine : Pristine w) : Settling w where
  ordered := pristine_ordered pristine
  ahead found := by simp [pristine.idle] at found
  reached found := by simp [pristine.idle] at found
  owner g := by simp [pristine.claim_zero g]
  seen found := by simp [pristine.idle] at found
  winner found := by simp [pristine.idle] at found

theorem moves_attempt (moved : Moves w action w') (found : w'.task t = some k)
    (flies : attempt k.phase = some c) :
    ∃ l, w.task t = some l ∧ l.tag = k.tag ∧ (attempt l.phase = some c ∨
      action = .advance t ∧ l.phase = .exchange c (w.ctx k.tag).lastOnDemandRefresh) := by
  obtain ⟨l,before,own,_,how⟩ :=
    moves_origin moved (fun phase => attempt phase = some c) (by rintro ⟨⟩ <;> nofun) found flies
  refine ⟨l,before,own,?_⟩
  rcases how with rfl | quiet | ⟨acts,wrote⟩
  · exact .inl flies
  · rcases quiet_attempt before quiet with same | ⟨dropped,_⟩
    · exact .inl (same ▸ flies)
    · rw [dropped] at flies
      cases flies
  · generalize k.phase = next at wrote flies
    generalize w'.ctx k.tag = ctx at wrote
    cases wrote with
    | claim stands =>
      cases flies
      exact .inr ⟨acts,stands⟩
    | install stands =>
      rw [attempt_afterInstall] at flies
      rw [stands]
      exact .inl flies
    | complete | notify => cases flies

theorem moves_ahead (settling : Settling w) (moved : Moves w action w')
    (inOrder : InOrder w action) (found : w'.task t = some k) (flies : attempt k.phase = some c) :
    (w'.ctx k.tag).lastRefreshCompleted.toNat < c.toNat := by
  have ordered := settling.ordered
  obtain ⟨l,before,own,how⟩ := moves_attempt moved found flies
  rcases moves_completed moved k.tag with same | ⟨u,m,d,installed,acts,found',own',stands,stored,after⟩
  · rw [same, ← own]
    rcases how with flew | ⟨_,stands⟩
    · exact settling.ahead before flew
    · have spaced := ordered.spaced before (by rw [stands]; rfl)
      have positive := ordered.interval_pos l.tag
      have below := ordered.completed_le l.tag
      rw [own] at spaced positive below ⊢
      omega
  · -- The winner that stores is another task: it is past its completion now.
    have other : t ≠ u := by
      intro same
      rw [same, after, Option.some.injEq] at found
      rw [← found] at flies
      cases flies
    have flew : attempt l.phase = some c := by
      rcases how with flew | ⟨acts',_⟩
      · exact flew
      · rw [acts, Action.advance.injEq] at acts'
        exact absurd acts'.symm other
    have storing : attempt m.phase = some d := by rw [stands]; rfl
    have older := inOrder m (by rw [acts]; exact found') d (by rw [stands]; rfl) ⟨t,l⟩
      (AList.mem_lookup_iff.mp before) (own.trans own'.symm) c flew
    have different : d ≠ c := by
      intro same
      subst same
      exact other (ordered.unique before found' (own.trans own'.symm) (held_of_attempt flew)
        (held_of_attempt storing))
    rw [stored]
    exact UInt64.lt_iff_toNat_lt.mp (UInt64.lt_of_le_of_ne older different)

theorem moves_reached (settling : Settling w) (moved : Moves w action w')
    (found : w'.task t = some k) (done : recorded k.phase = some c) :
    c.toNat ≤ (w'.ctx k.tag).lastRefreshCompleted.toNat := by
  have grows : (w.ctx k.tag).lastRefreshCompleted.toNat ≤ (w'.ctx k.tag).lastRefreshCompleted.toNat := by
    rcases moves_completed moved k.tag with same | ⟨u,l,d,_,_,before,own,stands,stored,_⟩
    · rw [same]
    · have above := settling.ahead before (c := d) (by rw [stands]; rfl)
      rw [own] at above
      rw [stored]
      exact above.le
  obtain ⟨l,before,own,_,how⟩ :=
    moves_origin moved (fun phase => recorded phase = some c) (by rintro ⟨⟩ <;> nofun) found done
  rcases how with rfl | quiet | ⟨acts,wrote⟩
  · exact (settling.reached before done).trans grows
  · rw [(quiet_recorded quiet).1] at done
    cases done
  · generalize k.phase = next at wrote done
    generalize after : w'.ctx k.tag = ctx at wrote grows ⊢
    cases wrote with
    | complete stands =>
      cases done
      exact le_rfl
    | notify stands =>
      have earlier := settling.reached before (c := c) (by rw [stands]; exact done)
      rw [own] at earlier
      exact earlier.trans grows
    | claim => cases done
    | install =>
      rw [recorded_afterInstall] at done
      cases done

theorem moves_owner (settling : Settling w) (moved : Moves w action w')
    (calm : Uninterrupted w action) (g : AudienceTag) :
    (w'.ctx g).lastOnDemandRefresh.toNat = 0 ∨ ∃ t k, w'.task t = some k ∧ k.tag = g ∧
      held k.phase = some (w'.ctx g).lastOnDemandRefresh := by
  rcases moves_claim moved g with same | ⟨t,k,now,_,_,own,_,stored,after⟩
  · rw [same]
    rcases settling.owner g with zero | ⟨t,k,found,own,holds⟩
    · exact .inl zero
    · obtain ⟨l,after,tag,holds⟩ := moves_held_kept moved calm found holds
      exact .inr ⟨t,l,after,tag.trans own,holds⟩
  · exact .inr ⟨t,_,after,own,by rw [stored]; rfl⟩

theorem moves_seen (settling : Settling w) (moved : Moves w action w')
    (calm : Uninterrupted w action) {prev : UInt64} (found : w'.task t = some k)
    (saw : sees k.phase = some prev) :
    prev.toNat = 0 ∨ ∃ u l, w'.task u = some l ∧ l.tag = k.tag ∧ held l.phase = some prev := by
  obtain ⟨l,before,own,_,how⟩ :=
    moves_origin moved (fun phase => sees phase = some prev) (by rintro ⟨⟩ <;> nofun) found saw
  have source : prev.toNat = 0 ∨
      ∃ u m, w.task u = some m ∧ m.tag = k.tag ∧ held m.phase = some prev := by
    rw [← own]
    rcases how with rfl | quiet | ⟨_,wrote⟩
    · exact settling.seen before saw
    · rcases quiet_sees quiet saw with saw | rfl
      · exact settling.seen before saw
      · exact settling.owner l.tag
    · rw [writes_sees wrote] at saw
      cases saw
  rcases source with zero | ⟨u,m,found,tag,holds⟩
  · exact .inl zero
  · obtain ⟨m',after,tag',holds⟩ := moves_held_kept moved calm found holds
    exact .inr ⟨u,m',after,tag'.trans tag,holds⟩

/-- The claim that beats a caller is held by a winner: it is newer than the claim
    the caller saw, so it is not the initial zero. -/
theorem moves_winner (settling : Settling w) (moved : Moves w action w')
    (calm : Uninterrupted w action) {prev beaten : UInt64} (found : w'.task t = some k)
    (loses : lost k.phase = some (prev, beaten)) :
    ∃ u l, w'.task u = some l ∧ l.tag = k.tag ∧ held l.phase = some beaten := by
  obtain ⟨l,before,own,_,how⟩ :=
    moves_origin moved (fun phase => lost phase = some (prev, beaten)) (by rintro ⟨⟩ <;> nofun)
      found loses
  have winner : ∃ u m, w.task u = some m ∧ m.tag = k.tag ∧ held m.phase = some beaten := by
    rcases how with rfl | quiet | ⟨_,wrote⟩
    · exact settling.winner before loses
    · rcases quiet_lost quiet loses with lost | ⟨⟨now,compares⟩,same,moved⟩
      · obtain ⟨u,m,found,tag,holds⟩ := settling.winner before lost
        exact ⟨u,m,found,tag.trans own,holds⟩
      · have seen := settling.ordered.seen_le before compares
        rcases settling.owner l.tag with zero | ⟨u,m,found,tag,holds⟩
        · rw [same] at seen zero
          exact absurd (UInt64.toNat_inj.mp (by omega)) moved
        · rw [same] at holds
          exact ⟨u,m,found,tag.trans own,holds⟩
    · rw [(writes_lost wrote).1] at loses
      cases loses
  obtain ⟨u,m,found,tag,holds⟩ := winner
  obtain ⟨m',after,tag',holds⟩ := moves_held_kept moved calm found holds
  exact ⟨u,m',after,tag'.trans tag,holds⟩

theorem step_settling (settling : Settling w) (collapsing : Collapsing w action)
    (taken : step platform w action = some w') : Settling w' where
  ordered := moves_ordered settling.ordered (step_moves taken)
  ahead := moves_ahead settling (step_moves taken) collapsing.2
  reached := moves_reached settling (step_moves taken)
  owner := moves_owner settling (step_moves taken) collapsing.1
  seen := moves_seen settling (step_moves taken) collapsing.1
  winner := moves_winner settling (step_moves taken) collapsing.1

theorem quiet_reports {prev beaten : UInt64} (moved : Quiet w t k action (.finished none true))
    (loses : lost k.phase = some (prev, beaten)) :
    action = .advance t ∧ rereads k.phase = some (prev, beaten) ∧
      prev ≤ (w.ctx k.tag).lastRefreshCompleted := by
  generalize reached : Phase.finished none true = next at moved
  cases moved with
  | caughtUp stands seen =>
    rw [stands] at loses ⊢
    obtain ⟨b,_,same⟩ := Option.map_eq_some_iff.mp loses
    cases same
    exact ⟨rfl,loses,seen⟩
  | recheck stands =>
    rw [stands] at loses ⊢
    obtain ⟨b,_,same⟩ := Option.map_eq_some_iff.mp loses
    cases same
    have answer := (Phase.finished.inj reached).2
    exact ⟨rfl,loses,of_decide_eq_true answer.symm⟩
  | failed stands | refuse stands =>
    rw [stands] at loses
    cases loses
  | _ => cases reached

theorem step_reports {v : World} {prev beaten : UInt64} (found : w.task t = some k)
    (loses : lost k.phase = some (prev, beaten)) (taken : step platform w action = some v)
    (reports : v.task t = some { k with phase := .finished none true }) :
    action = .advance t ∧ rereads k.phase = some (prev, beaten) ∧
      prev ≤ (w.ctx k.tag).lastRefreshCompleted := by
  obtain ⟨l,same,_,_,how⟩ := moves_origin (step_moves taken) (· = .finished none true)
    (by rintro ⟨⟩ <;> nofun) reports rfl
  rw [found, Option.some.injEq] at same
  subst same
  rcases how with same | quiet | ⟨_,wrote⟩
  · rw [same] at loses
    cases loses
  · exact quiet_reports quiet loses
  · rw [(writes_lost wrote).2] at loses
    cases loses

theorem rereads_cases {phase : Phase} {prev beaten : UInt64}
    (reads : rereads phase = some (prev, beaten)) :
    phase = .check prev (some beaten) ∨ phase = .recheck prev (some beaten) := by
  unfold rereads at reads
  split at reads
  · obtain ⟨b,rfl,same⟩ := Option.map_eq_some_iff.mp reads
    cases same
    exact .inl rfl
  · obtain ⟨b,rfl,same⟩ := Option.map_eq_some_iff.mp reads
    cases same
    exact .inr rfl
  · cases reads

theorem reread_reports (platform : Platform) {prev beaten : UInt64} (found : w.task t = some k)
    (reads : rereads k.phase = some (prev, beaten)) (caught : prev ≤ (w.ctx k.tag).lastRefreshCompleted) :
    lost k.phase = some (prev, beaten) ∧ ∃ v, step platform w (.advance t) = some v ∧
      v.task t = some { k with phase := .finished none true } := by
  rcases rereads_cases reads with stands | stands
  · refine ⟨by rw [stands]; rfl,_,?_,setTask_task_same w t _⟩
    simp [step, found, advance, stands, caught]
  · refine ⟨by rw [stands]; rfl,_,?_,setTask_task_same w t _⟩
    simp [step, found, advance, stands, caught]

theorem seen_caught {prev : UInt64} (settling : Settling w) (found : w.task t = some k)
    (saw : sees k.phase = some prev) (idle : ¬ AtWork w k.tag prev) :
    prev ≤ (w.ctx k.tag).lastRefreshCompleted := by
  rw [UInt64.le_iff_toNat_le]
  rcases settling.seen found saw with zero | ⟨u,l,found',own,holds⟩
  · omega
  · rcases held_cases holds with flies | done
    · exact absurd (atWork_iff.mpr ⟨u,l,found',own,flies⟩) idle
    · have reached := settling.reached found' done
      rwa [own] at reached

theorem settling_reports (settling : Settling w) (patient : Patient w action) :
    ReportsAfter platform w action := by
  intro t k prev beaten v found loses taken reports
  obtain ⟨rfl,reads,caught⟩ := step_reports found loses taken reports
  obtain ⟨s,l,winner,own,holds⟩ := settling.winner found loses
  refine ⟨s,l,winner,own,?_,fun s' l' found' own' holds' =>
    settling.ordered.unique found' winner (own'.trans own.symm) holds' holds⟩
  rcases held_cases holds with flies | done
  · obtain ⟨u,m,found',own',flies'⟩ := atWork_iff.mp
      (patient k found _ reads (atWork_iff.mpr ⟨s,l,winner,own,flies⟩))
    have ahead := settling.ahead found' flies'
    rw [own'] at ahead
    exact absurd (UInt64.le_iff_toNat_le.mp caught) (not_le.mpr ahead)
  · exact done

theorem settling_patient (settling : Settling w) (after : ReportsAfter platform w action) :
    Patient w action := by
  rintro k acts ⟨prev,beaten⟩ reads working
  by_contra idle
  obtain ⟨t,rfl,found⟩ := acting_some acts
  have saw : sees k.phase = some prev := by
    rcases rereads_cases reads with stands | stands <;> rw [stands] <;> rfl
  obtain ⟨loses,v,taken,reports⟩ :=
    reread_reports platform found reads (seen_caught settling found saw idle)
  obtain ⟨s,l,winner,own,done,only⟩ := after t k prev beaten v found loses taken reports
  obtain ⟨u,m,found',own',flies⟩ := atWork_iff.mp working
  have same := only u m found' own' (held_of_attempt flies)
  subst same
  rw [found', Option.some.injEq] at winner
  subst winner
  exact recorded_idle done flies

/-- In every run in which no winner is torn down and winners complete in the order
    of their claims: the callers that lost the exchange report success only after
    the winner that beat them has stored its completion, if and only if none of
    them reads the stored completion while that winner is at work and the one
    whose claim it saw is not. -/
theorem loser_reports_after_winner {actions : List Action} (started : Started platform w)
    (collapsing : Along (step platform) Collapsing w actions) :
    Along (step platform) (ReportsAfter platform) w actions ↔
      Along (step platform) Patient w actions :=
  along_iff Settling step_settling
    (fun settling => ⟨settling_patient settling,settling_reports settling⟩)
    (pristine_settling (started_pristine started)) collapsing

def lateLoser : List Action :=
  [.spawn 0 .onDemand .vault, .spawn 1 .onDemand .vault, .advance 0, .advance 1, .advance 0,
    .advance 1, .advance 0, .advance 1, .advance 0, .fetched 0 .failed, .advance 0]

theorem loser_reports_after_winner_late :
    ∃ w, Started samplePlatform w ∧ ∃ u ∈ run (step samplePlatform) w lateLoser,
      (∃ k ∈ u.task 1, lost k.phase = some (0, 100) ∧ ∃ v ∈ step samplePlatform u (.advance 1),
        v.task 1 = some { k with phase := .finished none true }) ∧
      Completed u .vault 100 := by
  have evaluated : ∃ w, Started samplePlatform w ∧
      Along (step samplePlatform) Collapsing w (lateLoser ++ [.advance 1]) ∧
      Along (step samplePlatform) Patient w (lateLoser ++ [.advance 1]) ∧
      ∃ u ∈ run (step samplePlatform) w lateLoser, ∃ k ∈ u.task 1, k.tag = .vault ∧
        lost k.phase = some (0, 100) ∧ ∃ v ∈ step samplePlatform u (.advance 1),
          v.task 1 = some { k with phase := .finished none true } :=
    sample_exists (by decide +kernel)
  obtain ⟨w,started,collapsing,patient,u,before,k,found,own,loses,v,taken,reports⟩ := evaluated
  have after := (loser_reports_after_winner started collapsing).mpr patient
  have completed := (along_append after before).2.1 1 k 0 100 v found loses taken reports
  exact ⟨w,started,u,before,⟨k,found,loses,v,taken,reports⟩,own ▸ completed⟩

/-- The second caller looks at once. Nothing has completed yet, but the claim it
    saw is the initial zero, and so is the stored completion. -/
def earlyLoser : List Action :=
  [.spawn 0 .onDemand .vault, .spawn 1 .onDemand .vault, .advance 0, .advance 1, .advance 0,
    .advance 1, .advance 0, .advance 1]

theorem early_loser_reports_success :
    ∃ w, Started samplePlatform w ∧ ∃ u ∈ run (step samplePlatform) w earlyLoser,
      ∃ k ∈ u.task 1, lost k.phase = some (0, 100) ∧
        (∃ v ∈ step samplePlatform u (.advance 1),
          v.task 1 = some { k with phase := .finished none true }) ∧
        ∀ s ∈ u.tasks.entries, recorded s.2.phase ≠ some 100 :=
  sample_exists (by decide +kernel)

end RefreshCompletion
