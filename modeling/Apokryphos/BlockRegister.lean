import Mathlib.Logic.Function.Basic
import Apokryphos.SealedFiles

/-!
The provider as an atomic register. The abstract register is a map from
identifiers to bytes in which a put takes effect with its rename and a delete
with its unlink. What is visible below the names of the blocks is that map at
every moment, and whoever reads a block reads what the map held when the file
was opened.
-/
namespace BlockRegister
open BlockStorage Digests FileSystems LocalFs SealedFiles StepRuns

abbrev Register := BlockId → Option Bytes

inductive Effect where
  | put (id : BlockId) (payload : Bytes)
  | delete (id : BlockId)
  deriving DecidableEq

def Effect.apply (m : Register) : Effect → Register
  | .put id payload => Function.update m id (some payload)
  | .delete id => Function.update m id none

/-- The effect that a call has with its next system call. -/
def pendingEffect : Call → Option Effect
  | .put id payload (.renaming _) => some (.put id payload)
  | .delete id none => some (.delete id)
  | _ => none

def effectOf (s : State) : Event → Option Effect
  | .advance c _ => (s.call c).bind pendingEffect
  | .start _ | .fail _ _ | .crash => none

/-- What a reader finds below the name of a block. -/
def visible (root : Root) : Register := fun id =>
  (find root (blockPath id)).bind fun inode => (root.inodes[inode]?).map Inode.data

def register (start : State) (events : List Event) : Register :=
  (StepRuns.events step effectOf start events).foldl Effect.apply (visible start.root)

section Steps
variable {s t : State} {e : Event}

theorem visible_missing {root : Root} {id : BlockId} (missing : find root (blockPath id) = none) :
    visible root id = none := by
  unfold visible
  rw [missing]
  rfl

theorem visible_found (sound : Sound s) {id : BlockId} {inode : Nat}
    (leads : find s.root (blockPath id) = some inode) :
    ∃ f, s.root.inodes[inode]? = some f ∧ visible s.root id = some f.data := by
  have below := (block_unowned sound ((find_sound sound _).symm.trans leads)).1
  refine ⟨_,List.getElem?_eq_getElem below,?_⟩
  unfold visible
  rw [leads, Option.bind_some, List.getElem?_eq_getElem below]
  rfl

theorem visible_sound (sound : Sound s) (id : BlockId) :
    visible s.root id = (s.root.tree.names.lookup (blockPath id)).bind fun inode =>
      (s.root.inodes[inode]?).map Inode.data := by
  unfold visible
  rw [find_sound sound]

theorem visible_entry (sound : Sound s) (taken : step s e = some t) {id : BlockId}
    (same : t.root.tree.names.lookup (blockPath id) = s.root.tree.names.lookup (blockPath id)) :
    visible t.root id = visible s.root id := by
  rw [visible_sound sound, visible_sound (step_sound sound taken), same]
  cases leads : s.root.tree.names.lookup (blockPath id) with
  | none => rfl
  | some inode =>
    obtain ⟨below,unowned⟩ := block_unowned sound leads
    rw [Option.bind_some, Option.bind_some, (step_frozen sound taken below unowned).1]

theorem visible_kept (sound : Sound s) (taken : step s e = some t)
    (same : ∀ id, t.root.tree.names.lookup (blockPath id) = s.root.tree.names.lookup (blockPath id)) :
    visible t.root = visible s.root := by
  funext id
  exact visible_entry sound taken (same id)

theorem temp_entry {root : Root} {id : BlockId} {path : BlockPath} {random : String}
    {owner : BlockId} (named : path = tempPath owner random) :
    root.entryOf (.unlink path) (blockPath id) = none ∧
      root.entryOf (.create path) (blockPath id) = none := by
  have different : blockPath id ≠ path := by
    rw [named]
    exact (tempPath_other owner id random).symm
  rw [entryOf_unlink, entryOf_create, if_neg different, if_neg different]
  exact ⟨rfl,rfl⟩

theorem put_entry (sound : Sound s) {c : Nat} {id : BlockId} {payload : Bytes}
    {phase next : PutPhase} {op : FileOp} (found : s.call c = some (.put id payload phase))
    (moves : PutAdvances s.root id payload phase next (some op))
    (early : pendingEffect (.put id payload phase) = none) (other : BlockId) :
    s.root.entryOf op (blockPath other) = none := by
  cases moves with
  | makeTop => exact entryOf_mkdir _ _ _
  | makeShard => exact entryOf_mkdir _ _ _
  | create => exact (temp_entry rfl).2
  | write => rfl
  | sync => rfl
  | rename => cases early
  | @drop temp kind =>
    obtain ⟨random,named⟩ := (sound.temporary c _ temp found rfl).named
    exact (temp_entry named).1

theorem rename_visible (sound : Sound s) (taken : step s e = some t) {c : Nat} {id : BlockId}
    {payload : Bytes} {temp : Temp} (found : s.call c = some (.put id payload (.renaming temp)))
    (renamed : t.root = s.root.perform (.rename temp.path (blockPath id))) :
    visible t.root = Function.update (visible s.root) id (some payload) := by
  have own := sound.temporary c _ temp found rfl
  obtain ⟨random,named⟩ := own.named
  have entry : ∀ path, t.root.tree.names.lookup path =
      (s.root.entryOf (.rename temp.path (blockPath id)) path).getD (s.root.tree.names.lookup path) := by
    intro path
    rw [renamed]
    exact perform_lookup _ _ _
  funext other
  by_cases same : other = id
  · subst same
    rw [Function.update_self, visible_sound (step_sound sound taken), entry, entryOf_rename own.linked,
      if_pos rfl]
    have whole : t.root.inodes[temp.inode]? = some ⟨payload, true⟩ := by
      rw [renamed]
      exact sound.filled c _ found
    simp [whole]
  · rw [Function.update_of_ne same]
    apply visible_entry sound taken
    rw [entry, entryOf_rename own.linked, if_neg, if_neg]
    · rfl
    · rw [named]
      exact (tempPath_other _ _ _).symm
    · intro equal
      exact same (blockPath_injective equal)

theorem unlink_visible (sound : Sound s) (taken : step s e = some t) {id : BlockId}
    (removed : t.root = s.root.perform (.unlink (blockPath id))) :
    visible t.root = Function.update (visible s.root) id none := by
  have entry : ∀ path, t.root.tree.names.lookup path =
      (s.root.entryOf (.unlink (blockPath id)) path).getD (s.root.tree.names.lookup path) := by
    intro path
    rw [removed]
    exact perform_lookup _ _ _
  funext other
  by_cases same : other = id
  · subst same
    rw [Function.update_self, visible_sound (step_sound sound taken), entry, entryOf_unlink, if_pos rfl]
    rfl
  · rw [Function.update_of_ne same]
    apply visible_entry sound taken
    rw [entry, entryOf_unlink, if_neg]
    · rfl
    · intro equal
      exact same (blockPath_injective equal)

theorem step_visible (sound : Sound s) (taken : step s e = some t) :
    visible t.root = (effectOf s e).toList.foldl Effect.apply (visible s.root) := by
  cases step_cases taken with
  | started => rfl
  | failed => rfl
  | crashed => rfl
  | @advanced c choice call next op found _ moves =>
    have effect : effectOf s (.advance c choice) = pendingEffect call := by
      simp only [effectOf, found, Option.bind_some]
    rw [effect]
    cases moves with
    | @put id payload phase next op moves =>
      cases op with
      | none => cases moves <;> rfl
      | some op =>
        cases pending : pendingEffect (.put id payload phase) with
        | none =>
          refine visible_kept sound taken fun other => ?_
          have entry := put_entry sound found moves pending other
          exact (perform_lookup _ _ _).trans (congrArg (Option.getD · _) entry)
        | some effect =>
          cases moves with
          | rename =>
            cases pending
            exact rename_visible sound taken found rfl
          | _ => cases pending
    | missing => rfl
    | opened => rfl
    | read => rfl
    | whole => rfl
    | absent missing => exact (Function.update_eq_self_iff.mpr (visible_missing missing).symm).symm
    | unlink => exact unlink_visible sound taken rfl
    | stat => rfl

end Steps

theorem register_snoc {start s t : State} {front : List Event} {e : Event}
    (reached : run step start front = some s) (taken : step s e = some t) :
    register start (front ++ [e]) = (effectOf s e).toList.foldl Effect.apply (register start front) := by
  unfold register
  rw [events_snoc reached taken, List.foldl_append]

theorem run_visible {start s : State} {events : List Event} (quiet : Quiet start)
    (taken : run step start events = some s) : visible s.root = register start events := by
  refine history_invariant (fun front s => visible s.root = register start front) rfl ?_ taken
  intro front s e t reached holds next
  rw [register_snoc reached next, step_visible (run_sound quiet reached) next, holds]

def effectsBy (start : State) (events : List Event) (c : Nat) : List Effect :=
  StepRuns.events step (fun s e => if about e = some c then effectOf s e else none) start events

def doneEffects : Call → List Effect
  | .put id payload .persisted | .put id payload (.returned (.ok _)) => [.put id payload]
  | .delete id (some (.ok _)) => [.delete id]
  | _ => []

theorem advance_done {root : Root} {call next : Call} {op : Option FileOp}
    (moves : Advances root call next op) :
    doneEffects next = doneEffects call ++ (pendingEffect call).toList := by
  cases moves with
  | put moves => cases moves <;> rfl
  | _ => rfl

theorem fail_done {kind : IoErrorKind} {call next : Call} (fails : Fails kind call next) :
    doneEffects next = doneEffects call := by
  cases fails with
  | early before => rcases before with rfl | rfl | rfl | rfl | rfl <;> rfl
  | late holds => rcases holds with rfl | rfl | ⟨rest,rfl⟩ <;> rfl
  | get busy => rcases busy with rfl | ⟨inode,got,rfl⟩ <;> rfl
  | _ => rfl

theorem pendingEffect_put {call : Call} {id : BlockId} {payload : Bytes}
    (pending : pendingEffect call = some (.put id payload)) : opOf call = .put id payload := by
  unfold pendingEffect at pending
  split at pending
  · cases pending
    rfl
  · cases pending
  · cases pending

section Runs
variable {start s t : State} {events front : List Event} {e : Event}

theorem effectsBy_snoc (reached : run step start front = some s) (taken : step s e = some t)
    (c : Nat) : effectsBy start (front ++ [e]) c = effectsBy start front c ++
      (if about e = some c then effectOf s e else none).toList :=
  events_snoc reached taken

theorem run_done (quiet : Quiet start) (taken : run step start events = some s) :
    ∀ c call, s.call c = some call → effectsBy start events c = doneEffects call := by
  refine call_history quiet (fun front _ c call => effectsBy start front c = doneEffects call)
    ?_ ?_ ?_ ?_ taken
  · intro front s op t reached next unused
    rw [effectsBy_snoc reached next, if_neg nofun]
    have silent : effectsBy start front s.next = [] :=
      events_silent fun _ e member => if_neg (unused e member)
    rw [silent]
    cases op <;> rfl
  · intro front s t c choice before after op reached next found computed _ done
    rw [effectsBy_snoc reached next, done, advance_done (advance_cases computed)]
    simp only [about, if_true, effectOf, found, Option.bind_some]
  · intro front s t c kind before after reached next found fails done
    rw [effectsBy_snoc reached next, done, fail_done fails]
    simp [effectOf]
  · intro front s e t c call reached next found other done
    rw [effectsBy_snoc reached next, if_neg other, done]
    exact List.append_nil _

theorem run_unseen (quiet : Quiet start) (taken : run step start events = some s) {c : Nat}
    (silent : effectsBy start events c = []) :
    Along step (fun s e => about e = some c → ∀ t, step s e = some t → visible t.root = visible s.root)
      start events := by
  refine history_invariant (fun front _ => effectsBy start front c = [] → Along step (fun s e =>
    about e = some c → ∀ t, step s e = some t → visible t.root = visible s.root) start front)
    (fun _ => trivial) ?_ taken silent
  intro front s e t reached along next silent
  rw [effectsBy_snoc reached next, List.append_eq_nil_iff] at silent
  refine along_snoc reached (along silent.1) ?_
  intro own t' next'
  have none_now := silent.2
  rw [if_pos own] at none_now
  rw [step_visible (run_sound quiet reached) next', none_now]
  rfl

/-- When the call made the system call that it stands before here, the register
    was such. -/
def When (start : State) (events : List Event) (c : Nat) (call : Call) (such : Register → Prop) : Prop :=
  ∃ early late u choice, events = early ++ .advance c choice :: late ∧
    run step start early = some u ∧ u.call c = some call ∧ such (register start early)

theorem When.snoc {c : Nat} {call : Call} {such : Register → Prop}
    (before : When start front c call such) (e : Event) : When start (front ++ [e]) c call such := by
  obtain ⟨early,late,u,choice,same,rest⟩ := before
  refine ⟨early,late ++ [e],u,choice,?_,rest⟩
  rw [same, List.append_assoc]
  rfl

theorem When.mono {c : Nat} {call : Call} {such such' : Register → Prop}
    (before : When start events c call such) (weaker : ∀ m, such m → such' m) :
    When start events c call such' := by
  obtain ⟨early,late,u,choice,same,reached,found,holds⟩ := before
  exact ⟨early,late,u,choice,same,reached,found,weaker _ holds⟩

def Relies (start : State) (events : List Event) (root : Root) (c : Nat) : Call → Prop
  | .get id (.reading inode _) => ∃ f, root.inodes[inode]? = some f ∧
      When start events c (.get id .opening) fun m => m id = some f.data
  | .get id (.returned (.ok bytes)) => When start events c (.get id .opening) fun m => m id = some bytes
  | .get id (.returned (.error .notFound)) =>
    When start events c (.get id .opening) fun m => m id = none
  | .get _ (.returned (.error (.backend cause))) =>
    ∃ kind, cause = classify kind ∧ .fail c kind ∈ events
  | .exists_ id (some (.ok found)) =>
    When start events c (.exists_ id none) fun m => found = (m id).isSome
  | .exists_ _ (some (.error e)) => ∃ kind, e = backend kind ∧ .fail c kind ∈ events
  | _ => True

theorem Relies.snoc {c : Nat} {call : Call} (relies : Relies start front s.root c call)
    (frozen : ∀ inode, sourceOf call = some inode → t.root.inodes[inode]? = s.root.inodes[inode]?)
    (e : Event) : Relies start (front ++ [e]) t.root c call := by
  unfold Relies at relies ⊢
  split at relies
  · rw [frozen _ rfl]
    obtain ⟨f,has,before⟩ := relies
    exact ⟨f,has,before.snoc e⟩
  · exact relies.snoc e
  · exact relies.snoc e
  · obtain ⟨kind,same,member⟩ := relies
    exact ⟨kind,same,List.mem_append_left _ member⟩
  · exact relies.snoc e
  · obtain ⟨kind,same,member⟩ := relies
    exact ⟨kind,same,List.mem_append_left _ member⟩
  · trivial

theorem advance_relies (quiet : Quiet start) (reached : run step start front = some s) {c : Nat}
    {before call : Call} {op : Option FileOp} (found : s.call c = some before)
    (relies : Relies start front s.root c before) (moves : Advances s.root before call op)
    (choice : Choice) :
    Relies start (front ++ [.advance c choice]) (Root.performed s.root op) c call := by
  have sound := run_sound quiet reached
  have held := run_visible quiet reached
  cases moves with
  | put => trivial
  | absent => trivial
  | unlink => trivial
  | @missing id absent =>
    refine ⟨front,[],s,choice,rfl,reached,found,?_⟩
    rw [← held]
    exact visible_missing absent
  | @opened id inode leads =>
    obtain ⟨f,has,shown⟩ := visible_found sound leads
    refine ⟨f,has,front,[],s,choice,rfl,reached,found,?_⟩
    rw [← held]
    exact shown
  | read =>
    obtain ⟨f,has,opened⟩ := relies
    exact ⟨f,has,opened.snoc _⟩
  | @whole id inode got f has complete =>
    obtain ⟨f',has',opened⟩ := relies
    obtain ⟨f'',has'',begun⟩ := sound.filled c _ found
    cases has.symm.trans has'
    cases has.symm.trans has''
    rw [begun.eq_of_length_le complete]
    exact opened.snoc _
  | @stat id =>
    refine ⟨front,[],s,choice,rfl,reached,found,?_⟩
    rw [← held]
    dsimp only
    cases leads : find s.root (blockPath id) with
    | none =>
      rw [visible_missing leads]
      rfl
    | some inode =>
      obtain ⟨f,_,shown⟩ := visible_found sound leads
      rw [shown]
      rfl

theorem fail_relies {c : Nat} {before call : Call} {kind : IoErrorKind} (fails : Fails kind before call)
    (root : Root) : Relies start (front ++ [.fail c kind]) root c call := by
  cases fails with
  | early => trivial
  | late => trivial
  | dropped => trivial
  | delete => trivial
  | get => exact ⟨kind,rfl,List.mem_append_right _ (List.mem_singleton.mpr rfl)⟩
  | exists_ => exact ⟨kind,rfl,List.mem_append_right _ (List.mem_singleton.mpr rfl)⟩

theorem run_relies (quiet : Quiet start) (taken : run step start events = some s) :
    ∀ c call, s.call c = some call → Relies start events s.root c call := by
  refine call_history quiet (fun front s c call => Relies start front s.root c call) ?_ ?_ ?_ ?_ taken
  · intro front s op t _ _ _
    cases op <;> trivial
  · intro front s t c choice before after op reached next found computed performed relies
    rw [performed]
    exact advance_relies quiet reached found relies (advance_cases computed) choice
  · intro front s t c kind before after _ _ _ fails _
    exact fail_relies fails _
  · intro front s e t c call reached next found _ relies
    have sound := run_sound quiet reached
    refine relies.snoc ?_ e
    intro inode reads
    obtain ⟨below,unowned⟩ := sound.closed c call inode found reads
    exact (step_frozen sound next below unowned).1

theorem run_started (quiet : Quiet start) (taken : run step start events = some s) :
    ∀ c call, s.call c = some call → .start (opOf call) ∈ events := by
  refine call_history quiet (fun front _ _ call => .start (opOf call) ∈ front) ?_ ?_ ?_ ?_ taken
  · intro front s op t _ _ _
    rw [start_op]
    exact List.mem_append_right _ (List.mem_singleton.mpr rfl)
  · intro front s t c choice before after op _ _ _ computed _ started
    rw [advance_op (advance_cases computed)]
    exact List.mem_append_left _ started
  · intro front s t c kind before after _ _ _ fails started
    rw [fail_op fails]
    exact List.mem_append_left _ started
  · intro front s e t c call _ _ _ _ started
    exact List.mem_append_left _ started

theorem run_origin (quiet : Quiet start) (taken : run step start events = some s) :
    ∀ id payload, .put id payload ∈ StepRuns.events step effectOf start events →
      .start (.put id payload) ∈ events := by
  refine history_invariant (fun front _ => ∀ id payload,
    .put id payload ∈ StepRuns.events step effectOf start front → .start (.put id payload) ∈ front)
    nofun ?_ taken
  intro front s e t reached stored next id payload member
  rw [events_snoc reached next] at member
  rcases List.mem_append.mp member with old | now
  · exact List.mem_append_left _ (stored id payload old)
  · rw [Option.mem_toList] at now
    unfold effectOf at now
    split at now
    · obtain ⟨call,found,pending⟩ := Option.bind_eq_some_iff.mp now
      rw [← pendingEffect_put pending]
      exact List.mem_append_left _ (run_started quiet reached _ call found)
    all_goals cases now

end Runs

/-- Whatever calls overlap, whatever fails and wherever the process crashes: the
    visible contents are the abstract register. A get answers with what the register
    held when it opened the file, or with the failure of a system call, and `exists`
    likewise. A put or a delete that returns `Ok` has had its one effect, and a put
    that returns an error never changes what is visible. -/
theorem register_atomic {start s : State} {events : List Event} (quiet : Quiet start)
    (taken : run step start events = some s) :
    visible s.root = register start events ∧
    (∀ id payload, .put id payload ∈ StepRuns.events step effectOf start events →
      .start (.put id payload) ∈ events) ∧
    (∀ c id result, s.call c = some (.get id (.returned result)) →
      (∃ kind, result = .error (backend kind) ∧ .fail c kind ∈ events) ∨
      When start events c (.get id .opening) fun m => result = (m id).elim (.error .notFound) .ok) ∧
    (∀ c id result, s.call c = some (.exists_ id (some result)) →
      (∃ kind, result = .error (backend kind) ∧ .fail c kind ∈ events) ∨
      When start events c (.exists_ id none) fun m => result = .ok (m id).isSome) ∧
    (∀ c id payload, s.call c = some (.put id payload (.returned (.ok ()))) →
      effectsBy start events c = [.put id payload]) ∧
    (∀ c id, s.call c = some (.delete id (some (.ok ()))) →
      effectsBy start events c = [.delete id]) ∧
    (∀ c id payload e, s.call c = some (.put id payload (.returned (.error e))) →
      effectsBy start events c = [] ∧ Along step (fun s event => about event = some c →
        ∀ t, step s event = some t → visible t.root = visible s.root) start events) := by
  have relies := run_relies quiet taken
  have done := run_done quiet taken
  refine ⟨run_visible quiet taken,run_origin quiet taken,?_,?_,fun c id payload => done c _,
    fun c id => done c _,?_⟩
  · intro c id result has
    have facts := relies c _ has
    cases result with
    | ok bytes =>
      have opened : When start events c (.get id .opening) fun m => m id = some bytes := facts
      refine Or.inr (opened.mono fun m held => ?_)
      rw [held]
      rfl
    | error e =>
      cases e with
      | notFound =>
        have opened : When start events c (.get id .opening) fun m => m id = none := facts
        refine Or.inr (opened.mono fun m held => ?_)
        rw [held]
        rfl
      | backend cause =>
        obtain ⟨kind,rfl,member⟩ := facts
        exact Or.inl ⟨kind,rfl,member⟩
  · intro c id result has
    have facts := relies c _ has
    cases result with
    | ok found =>
      have asked : When start events c (.exists_ id none) fun m => found = (m id).isSome := facts
      exact Or.inr (asked.mono fun m held => congrArg _ held)
    | error e =>
      obtain ⟨kind,rfl,member⟩ := facts
      exact Or.inl ⟨kind,rfl,member⟩
  · intro c id payload e has
    have silent := done c _ has
    exact ⟨silent,run_unseen quiet taken silent⟩

def emptyRoot : State := ⟨⟨[], ⟨[], ∅⟩⟩, ∅, 0⟩

theorem emptyRoot_quiet : Quiet emptyRoot := ⟨⟨nofun,nofun⟩,rfl⟩

def sampleId : BlockId where
  text := "AAAAAAAAAAAAAAAAAAAAAAAAAAAAAAAAAAAAAAAAAAA"
  size := by decide +kernel
  clean := by decide +kernel

def putEvents (c : Nat) (random : String) (size : Nat) : List Event :=
  List.replicate 4 (.advance c ⟨"", 0⟩) ++ .advance c ⟨random, 0⟩ :: .advance c ⟨"", size⟩ ::
    List.replicate 4 (.advance c ⟨"", 0⟩)

/-- A get opens the file of the first put and reads it while the second put
    replaces it. A third put fails with the disk full. -/
def overlapping : List Event :=
  [.start (.put sampleId [1, 2, 3]), .start (.put sampleId [4, 5]), .start (.get sampleId)] ++
    putEvents 0 "a" 3 ++ [.advance 2 ⟨"", 0⟩, .advance 2 ⟨"", 2⟩] ++ putEvents 1 "b" 2 ++
    [.advance 2 ⟨"", 9⟩, .advance 2 ⟨"", 0⟩, .start (.put sampleId [6])] ++
    List.replicate 4 (.advance 3 ⟨"", 0⟩) ++ [.advance 3 ⟨"c", 0⟩, .fail 3 .storageFull,
    .advance 3 ⟨"", 0⟩]

theorem register_atomic_overlapping :
    ∃ s, run step emptyRoot overlapping = some s ∧ visible s.root sampleId = some [4, 5] ∧
      register emptyRoot overlapping sampleId = some [4, 5] ∧
      s.call 2 = some (.get sampleId (.returned (.ok [1, 2, 3]))) ∧
      effectsBy emptyRoot overlapping 3 = [] := by
  have evaluated : ∃ s ∈ run step emptyRoot overlapping, visible s.root sampleId = some [4, 5] ∧
      s.call 2 = some (.get sampleId (.returned (.ok [1, 2, 3]))) ∧
      s.call 3 = some (.put sampleId [6] (.returned (.error (backend .storageFull)))) := by
    decide +kernel
  obtain ⟨s,taken,shown,read,failed⟩ := evaluated
  obtain ⟨same,_,_,_,_,_,unseen⟩ := register_atomic emptyRoot_quiet taken
  refine ⟨s,taken,shown,?_,read,(unseen 3 _ _ _ failed).1⟩
  rw [← same]
  exact shown

end BlockRegister
