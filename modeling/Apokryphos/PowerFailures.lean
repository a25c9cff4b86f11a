import Apokryphos.BlockRegister

/-!
Power failures. The contents of a file are safe once the file is synced, which a
put does before it renames. A change of a directory is safe once the directory
is synced, which no call ever does. So after a power failure any of the changes
since the disk was last at rest may be missing: new directories, renames and
removals, in any combination.
-/
namespace PowerFailures
open BlockRegister BlockStorage Digests FileSystems LocalFs SealedFiles StepRuns

abbrev DirChange := Change BlockPath (List String)

def changeOf (s : State) : Event → Option DirChange
  | .advance c choice => (s.call c).bind fun call =>
    (call.advance s.root choice).bind fun next => next.2.bind s.root.changeOf
  | .start _ | .fail _ _ | .crash => none

def changes (start : State) (events : List Event) : List DirChange :=
  StepRuns.events step changeOf start events

/-- What a power failure may leave of the disk: some of the changes, and the
    contents that have been synced. The rest of the inodes may hold anything. -/
structure PowerFailure (start : State) (events : List Event) (s : State) (after : Root) : Prop where
  tree : ∃ survived, survived.Sublist (changes start events) ∧
    after.tree = start.root.tree.replay survived
  data : ∀ (inode : Nat) (f : Inode), s.root.inodes[inode]? = some f → f.synced = true →
    after.inodes[inode]? = some f

structure AtRest (s : State) : Prop extends Quiet s where
  synced : ∀ (inode : Nat) (f : Inode), s.root.inodes[inode]? = some f → f.synced = true

/-- A get that runs alone and undisturbed after the restart. -/
def GetReturns (root : Root) (id : BlockId) (result : Except StorageError Bytes) : Prop :=
  ∃ events s, run step ⟨root, ∅, 0⟩ (.start (.get id) :: events) = some s ∧
    (∀ e ∈ events, ∃ choice, e = .advance 0 choice) ∧ s.call 0 = some (.get id (.returned result))

def returned : Call → Bool
  | .put _ _ (.returned _) | .get _ (.returned _) | .delete _ (some _) | .exists_ _ (some _) => true
  | _ => false

def InTurn (s : State) : Event → Prop
  | .start op => (∀ c call, s.call c = some call → returned call = true) ∧
    ∃ id, op = .delete id ∨ ∃ payload, op = .put id payload
  | .advance _ _ | .fail _ _ => True
  | .crash => False

structure Sequence (start : State) (events : List Event) (s : State) : Prop where
  taken : run step start events = some s
  inTurn : Along step InTurn start events
  finished : ∀ c call, s.call c = some call → returned call = true

def Acknowledged (s : State) (id : BlockId) (payload : Bytes) : Prop :=
  ∃ c, s.call c = some (.put id payload (.returned (.ok ()))) ∧
    ∀ c' call, s.call c' = some call → idOf call = id → c' ≤ c

def Survives (start : State) (events : List Event) (s : State) (id : BlockId) (payload : Bytes) :
    Prop :=
  ∀ after, PowerFailure start events s after → GetReturns after id (.ok payload)

def Unfailed (events : List Event) (c : Nat) : Prop := ∀ kind, .fail c kind ∉ events

def failing : Call → Bool
  | .put _ _ (.dropping _ _) | .put _ _ (.returned (.error _))
  | .get _ (.returned (.error (.backend _))) | .delete _ (some (.error _))
  | .exists_ _ (some (.error _)) => true
  | _ => false

theorem advance_failing {root : Root} {call next : Call} {op : Option FileOp}
    (moves : Advances root call next op) : failing next = failing call := by
  cases moves with
  | put moves => cases moves <;> rfl
  | _ => rfl

theorem fail_failing {kind : IoErrorKind} {call next : Call} (fails : Fails kind call next) :
    failing next = true := by
  cases fails <;> rfl

theorem done_settled {call : Call} {effect : Effect} (done : doneEffects call = [effect]) :
    failing call = false ∧ pendingEffect call = none := by
  unfold doneEffects at done
  split at done
  · exact ⟨rfl,rfl⟩
  · exact ⟨rfl,rfl⟩
  · exact ⟨rfl,rfl⟩
  · cases done

def effectOp : Effect → Op
  | .put id payload => .put id payload
  | .delete id => .delete id

theorem done_op {call : Call} {effect : Effect} (done : doneEffects call = [effect]) :
    opOf call = effectOp effect := by
  unfold doneEffects at done
  split at done
  · cases done
    rfl
  · cases done
    rfl
  · cases done
    rfl
  · cases done

theorem returned_done {call : Call} (finished : returned call = true) (sound : failing call = false) :
    (∀ id payload, opOf call = .put id payload → doneEffects call = [.put id payload]) ∧
      ∀ id, opOf call = .delete id → doneEffects call = [.delete id] := by
  unfold returned at finished
  split at finished
  · rename_i id payload result
    cases result with
    | error e => cases sound
    | ok done =>
      constructor
      · intro id' payload' same
        cases same
        rfl
      · intro id' impossible
        cases impossible
  · constructor
    · intro id' payload' impossible
      cases impossible
    · intro id' impossible
      cases impossible
  · rename_i id result
    cases result with
    | error e => cases sound
    | ok done =>
      constructor
      · intro id' payload' impossible
        cases impossible
      · intro id' same
        cases same
        rfl
  · constructor
    · intro id' payload' impossible
      cases impossible
    · intro id' impossible
      cases impossible
  · cases finished

theorem pendingEffect_renaming {call : Call} {id : BlockId} {payload : Bytes}
    (pending : pendingEffect call = some (.put id payload)) :
    ∃ temp, call = .put id payload (.renaming temp) := by
  unfold pendingEffect at pending
  split at pending
  · cases pending
    exact ⟨_,rfl⟩
  · cases pending
  · cases pending

theorem pendingEffect_deleting {call : Call} {id : BlockId}
    (pending : pendingEffect call = some (.delete id)) : call = .delete id none := by
  unfold pendingEffect at pending
  split at pending
  · cases pending
  · cases pending
    rfl
  · cases pending

theorem done_before {root : Root} {call next : Call} {op : Option FileOp} {effect : Effect}
    (moves : Advances root call next op) (done : doneEffects next = [effect]) :
    doneEffects call = [effect] ∨ pendingEffect call = some effect := by
  rw [advance_done moves] at done
  rcases List.append_eq_singleton_iff.mp done with ⟨_,last⟩ | ⟨before,_⟩
  · right
    cases pending : pendingEffect call with
    | none =>
      rw [pending] at last
      cases last
    | some found =>
      rw [pending] at last
      exact congrArg some (List.head_eq_of_cons_eq last)
  · exact Or.inl before

section Runs
variable {start s t : State} {events front : List Event} {e : Event}

theorem run_failing (quiet : Quiet start) (taken : run step start events = some s) :
    ∀ c call, s.call c = some call → (failing call = false ↔ Unfailed events c) := by
  refine call_history quiet (fun front _ c call => failing call = false ↔ Unfailed front c)
    ?_ ?_ ?_ ?_ taken
  · intro front s op t _ _ unused
    constructor
    · intro _ kind member
      rcases List.mem_append.mp member with old | new
      · exact unused _ old rfl
      · cases List.mem_singleton.mp new
    · intro _
      cases op <;> rfl
  · intro front s t c choice before after op _ _ _ computed _ holds
    rw [advance_failing (advance_cases computed), holds]
    unfold Unfailed
    simp
  · intro front s t c kind before after _ _ _ fails _
    rw [fail_failing fails]
    constructor
    · intro impossible
      cases impossible
    · intro unfailed
      exact absurd (List.mem_append_right front (List.mem_singleton.mpr rfl)) (unfailed kind)
  · intro front s e t c call _ _ _ other holds
    rw [holds]
    constructor
    · intro unfailed kind member
      rcases List.mem_append.mp member with old | new
      · exact unfailed kind old
      · rw [← List.mem_singleton.mp new] at other
        exact other rfl
    · intro unfailed kind member
      exact unfailed kind (List.mem_append_left _ member)

theorem changes_snoc (reached : run step start front = some s) (taken : step s e = some t) :
    changes start (front ++ [e]) = changes start front ++ (changeOf s e).toList :=
  events_snoc reached taken

theorem changeOf_advance {c : Nat} {choice : Choice} {call next : Call} {op : Option FileOp}
    (found : s.call c = some call) (taken : call.advance s.root choice = some (next, op)) :
    changeOf s (.advance c choice) = op.bind s.root.changeOf := by
  simp only [changeOf, found, taken, Option.bind_some]

theorem run_replay (taken : run step start events = some s) :
    s.root.tree = start.root.tree.replay (changes start events) := by
  refine history_invariant (fun front s => s.root.tree = start.root.tree.replay (changes start front))
    rfl ?_ taken
  intro front s e t reached holds next
  have split : start.root.tree.replay (changes start (front ++ [e])) =
      (changeOf s e).toList.foldl Tree.change s.root.tree := by
    rw [changes_snoc reached next, holds]
    exact List.foldl_append
  rw [split]
  cases step_cases next with
  | started => rfl
  | failed => rfl
  | crashed => rfl
  | @advanced c choice call after op found computed _ =>
    rw [changeOf_advance found computed]
    cases op with
    | none => rfl
    | some op =>
      simp only [Root.performed, Disk.perform, Option.bind_some]
      cases s.root.changeOf op <;> rfl

def Sealed (s : State) (inode : Nat) (f : Inode) : Prop :=
  s.root.inodes[inode]? = some f ∧ ¬ Owned s inode

theorem Sealed.step {inode : Nat} {f : Inode} (is_sealed : Sealed s inode f) (sound : Sound s)
    (taken : LocalFs.step s e = some t) : Sealed t inode f := by
  obtain ⟨has,unowned⟩ := is_sealed
  obtain ⟨below,_⟩ := List.getElem?_eq_some_iff.mp has
  obtain ⟨same,_,still⟩ := step_frozen sound taken below unowned
  exact ⟨same.trans has,still⟩

def Explained (s : State) : DirChange → Prop
  | .mkdir _ => True
  | .link path _ => ∃ id random, path = tempPath id random
  | .rename src dst inode => (∃ id random, src = tempPath id random) ∧
      ∃ c call id payload, s.call c = some call ∧ doneEffects call = [.put id payload] ∧
        dst = blockPath id ∧ Sealed s inode ⟨payload, true⟩
  | .unlink path => (∃ id random, path = tempPath id random) ∨
      ∃ c call id, s.call c = some call ∧ doneEffects call = [.delete id] ∧ path = blockPath id

theorem done_kept (sound : Sound s) (taken : step s e = some t) (inTurn : InTurn s e) {c : Nat}
    {call : Call} {effect : Effect} (found : s.call c = some call)
    (done : doneEffects call = [effect]) :
    ∃ call', t.call c = some call' ∧ doneEffects call' = [effect] := by
  cases step_cases taken with
  | started op =>
    have other : c ≠ s.next := Nat.ne_of_lt (sound.numbered c call found)
    exact ⟨call,(setCall_other other).trans found,done⟩
  | @advanced moved choice before after op found' _ moves =>
    by_cases same : c = moved
    · subst same
      cases found.symm.trans found'
      refine ⟨after,setCall_same s c after,?_⟩
      rw [advance_done moves, done, (done_settled done).2]
      rfl
    · exact ⟨call,(setCall_other same).trans found,done⟩
  | @failed moved kind before after found' fails =>
    by_cases same : c = moved
    · subst same
      cases found.symm.trans found'
      refine ⟨after,setCall_same s c after,?_⟩
      rw [fail_done fails, done]
    · exact ⟨call,(setCall_other same).trans found,done⟩
  | crashed => cases inTurn

theorem Explained.step {change : DirChange} (explained : Explained s change) (sound : Sound s)
    (taken : LocalFs.step s e = some t) (inTurn : InTurn s e) : Explained t change := by
  cases change with
  | mkdir => trivial
  | link => exact explained
  | rename src dst inode =>
    obtain ⟨named,c,call,id,payload,found,done,same,is_sealed⟩ := explained
    obtain ⟨call',found',done'⟩ := done_kept sound taken inTurn found done
    exact ⟨named,c,call',id,payload,found',done',same,is_sealed.step sound taken⟩
  | unlink path =>
    rcases explained with named | ⟨c,call,id,found,done,same⟩
    · exact Or.inl named
    · obtain ⟨call',found',done'⟩ := done_kept sound taken inTurn found done
      exact Or.inr ⟨c,call',id,found',done',same⟩

theorem rename_sealed (sound : Sound s) (taken : step s e = some t) {c : Nat} {id : BlockId}
    {payload : Bytes} {temp : Temp} (found : s.call c = some (.put id payload (.renaming temp)))
    (renamed : t.root = s.root.perform (.rename temp.path (blockPath id))) :
    Sealed t temp.inode ⟨payload, true⟩ := by
  have own := sound.temporary c _ temp found rfl
  have leads : t.root.tree.names.lookup (blockPath id) = some temp.inode := by
    rw [renamed, perform_lookup, entryOf_rename own.linked, if_pos rfl]
    rfl
  refine ⟨?_,(block_unowned (step_sound sound taken) leads).2⟩
  rw [renamed]
  exact sound.filled c _ found

theorem change_explained (sound : Sound s) (taken : step s e = some t) {change : DirChange}
    (made : changeOf s e = some change) : Explained t change := by
  cases step_cases taken with
  | started => cases made
  | failed => cases made
  | crashed => cases made
  | @advanced c choice call after op found computed moves =>
    rw [changeOf_advance found computed] at made
    obtain ⟨op,rfl,changed⟩ := Option.bind_eq_some_iff.mp made
    have has := setCall_same s c after
    cases moves with
    | @put id payload phase next op moves =>
      cases moves with
      | makeTop | makeShard =>
        simp only [Disk.changeOf, Option.ite_none_left_eq_some] at changed
        obtain ⟨_,same⟩ := changed
        cases same
        trivial
      | @create random =>
        cases changed
        exact ⟨id,random,rfl⟩
      | write => cases changed
      | sync => cases changed
      | @rename temp =>
        have own := sound.temporary c _ temp found rfl
        rw [changeOf_rename own.linked] at changed
        cases changed
        obtain ⟨random,named⟩ := own.named
        exact ⟨⟨id,random,named⟩,c,_,id,payload,has,rfl,rfl,rename_sealed sound taken found rfl⟩
      | @drop temp kind =>
        obtain ⟨random,named⟩ := (sound.temporary c _ temp found rfl).named
        cases changed
        exact Or.inl ⟨id,random,named⟩
    | @unlink id inode leads =>
      cases changed
      exact Or.inr ⟨c,_,id,has,rfl,rfl⟩

theorem run_explained (quiet : Quiet start) (along : Along step InTurn start events)
    (taken : run step start events = some s) : ∀ change ∈ changes start events, Explained s change := by
  refine guarded_history (fun front s => ∀ change ∈ changes start front, Explained s change) nofun ?_
    along taken
  intro front s e t reached explained inTurn next change member
  have sound := run_sound quiet reached
  rw [changes_snoc reached next] at member
  rcases List.mem_append.mp member with old | new
  · exact (explained change old).step sound next inTurn
  · exact change_explained sound next (Option.mem_toList.mp new)

/-- A finished put has renamed its file, and the contents are final and synced. -/
theorem run_renamed (quiet : Quiet start) (taken : run step start events = some s) :
    ∀ c call, s.call c = some call → ∀ id payload, doneEffects call = [.put id payload] →
      ∃ src inode, .rename src (blockPath id) inode ∈ changes start events ∧
        Sealed s inode ⟨payload, true⟩ := by
  refine call_history quiet (fun front s _ call => ∀ id payload, doneEffects call = [.put id payload] →
    ∃ src inode, .rename src (blockPath id) inode ∈ changes start front ∧
      Sealed s inode ⟨payload, true⟩) ?_ ?_ ?_ ?_ taken
  · intro front s op t _ _ _ id payload done
    cases op <;> cases done
  · intro front s t c choice before after op reached next found computed performed known id payload done
    have sound := run_sound quiet reached
    rw [changes_snoc reached next]
    rcases done_before (advance_cases computed) done with before | pending
    · obtain ⟨src,inode,member,is_sealed⟩ := known id payload before
      exact ⟨src,inode,List.mem_append_left _ member,is_sealed.step sound next⟩
    · obtain ⟨temp,rfl⟩ := pendingEffect_renaming pending
      have moved : Call.advance s.root choice (.put id payload (.renaming temp)) =
          some (.put id payload .persisted, some (.rename temp.path (blockPath id))) := rfl
      cases moved.symm.trans computed
      have own := sound.temporary c _ temp found rfl
      have change : changeOf s (.advance c choice) =
          some (.rename temp.path (blockPath id) temp.inode) := by
        rw [changeOf_advance found computed]
        exact changeOf_rename own.linked
      rw [change]
      exact ⟨temp.path,temp.inode,List.mem_append_right _ (List.mem_singleton.mpr rfl),
        rename_sealed sound next found performed⟩
  · intro front s t c kind before after reached next _ fails known id payload done
    rw [fail_done fails] at done
    obtain ⟨src,inode,member,is_sealed⟩ := known id payload done
    rw [changes_snoc reached next]
    exact ⟨src,inode,List.mem_append_left _ member,is_sealed.step (run_sound quiet reached) next⟩
  · intro front s e t c call reached next _ _ known id payload done
    obtain ⟨src,inode,member,is_sealed⟩ := known id payload done
    rw [changes_snoc reached next]
    exact ⟨src,inode,List.mem_append_left _ member,is_sealed.step (run_sound quiet reached) next⟩

theorem explained_entry {change : DirChange} (explained : Explained s change) {id : BlockId}
    {entry : Option Nat} (concerns : change.entry (blockPath id) = some entry) :
    (∃ src inode, change = .rename src (blockPath id) inode ∧ entry = some inode) ∨
      (change = .unlink (blockPath id) ∧ entry = none) := by
  cases change with
  | mkdir => cases concerns
  | link path inode =>
    obtain ⟨owner,random,rfl⟩ := explained
    simp only [Change.entry, if_neg (tempPath_other owner id random).symm] at concerns
    cases concerns
  | rename src dst inode =>
    obtain ⟨⟨owner,random,rfl⟩,_⟩ := explained
    simp only [Change.entry, if_neg (tempPath_other owner id random).symm] at concerns
    split at concerns
    · rename_i same
      subst same
      cases concerns
      exact Or.inl ⟨_,inode,rfl,rfl⟩
    · cases concerns
  | unlink path =>
    simp only [Change.entry] at concerns
    split at concerns
    · rename_i same
      subst same
      cases concerns
      exact Or.inr ⟨rfl,rfl⟩
    · cases concerns

theorem run_present (quiet : Quiet start) (along : Along step InTurn start events)
    (taken : run step start events = some s) {id : BlockId}
    (present : start.root.tree.names.lookup (blockPath id) ≠ none)
    (kept : .unlink (blockPath id) ∉ changes start events) :
    s.root.tree.names.lookup (blockPath id) ≠ none := by
  rw [run_replay taken]
  refine replay_lookup (· ≠ none) present ?_
  intro change member entry concerns
  rcases explained_entry (run_explained quiet along taken change member) concerns with
    ⟨src,inode,_,rfl⟩ | ⟨rfl,_⟩
  · exact nofun
  · exact absurd member kept

theorem run_unlinked (quiet : Quiet start) (taken : run step start events = some s)
    (along : Along step InTurn start events) {id : BlockId}
    (present : start.root.tree.names.lookup (blockPath id) ≠ none) :
    ∀ c call, s.call c = some call → doneEffects call = [.delete id] →
      .unlink (blockPath id) ∈ changes start events := by
  intro c call found
  refine call_history quiet (fun front _ _ call => Along step InTurn start front →
    doneEffects call = [.delete id] → .unlink (blockPath id) ∈ changes start front) ?_ ?_ ?_ ?_ taken
    c call found along
  · intro front s op t _ _ _ _ done
    cases op <;> cases done
  · intro front s t c choice before after op reached next found computed _ known along done
    have earlier := (along_append along reached).1
    rw [changes_snoc reached next]
    rcases done_before (advance_cases computed) done with before | pending
    · exact List.mem_append_left _ (known earlier before)
    · cases pendingEffect_deleting pending
      rw [changeOf_advance found computed]
      cases advance_cases computed with
      | absent missing =>
        rw [find_sound (run_sound quiet reached)] at missing
        by_contra kept
        refine run_present quiet earlier reached present ?_ missing
        intro member
        exact kept (List.mem_append_left _ member)
      | unlink => exact List.mem_append_right _ (List.mem_singleton.mpr rfl)
  · intro front s t c kind before after reached next _ fails known along done
    rw [fail_done fails] at done
    rw [changes_snoc reached next]
    exact List.mem_append_left _ (known (along_append along reached).1 done)
  · intro front s e t c call reached next _ _ known along done
    rw [changes_snoc reached next]
    exact List.mem_append_left _ (known (along_append along reached).1 done)

end Runs

section Restart
variable {root : Root} {id : BlockId} {payload : Bytes}

def AloneAt (root : Root) (id : BlockId) : GetPhase → Prop
  | .opening => True
  | .reading inode got => find root (blockPath id) = some inode ∧
      ∀ f, root.inodes[inode]? = some f → got <+: f.data
  | .returned (.ok bytes) => visible root id = some bytes
  | .returned (.error _) => True

theorem visible_eq {inode : Nat} {f : Inode} (leads : find root (blockPath id) = some inode)
    (has : root.inodes[inode]? = some f) : visible root id = some f.data := by
  unfold visible
  rw [leads, Option.bind_some, has]
  rfl

def GetAt (root : Root) (id : BlockId) (phase : GetPhase) (s : State) : Prop :=
  s.root = root ∧ s.call 0 = some (.get id phase)

theorem alone_step {s t : State} {choice : Choice}
    (alone : ∃ phase, GetAt root id phase s ∧ AloneAt root id phase)
    (taken : step s (.advance 0 choice) = some t) :
    ∃ phase, GetAt root id phase t ∧ AloneAt root id phase := by
  obtain ⟨phase,⟨same,found⟩,so_far⟩ := alone
  cases step_cases taken with
  | @advanced c choice call after op found' _ moves =>
    cases found.symm.trans found'
    rw [same] at moves
    have has := setCall_same s 0 after
    cases moves with
    | missing => exact ⟨_,⟨same,has⟩,trivial⟩
    | opened leads => exact ⟨_,⟨same,has⟩,leads,fun _ _ => List.nil_prefix⟩
    | @read _ inode got f count present =>
      refine ⟨_,⟨same,has⟩,so_far.1,?_⟩
      intro f' present'
      cases present.symm.trans present'
      obtain ⟨rest,whole⟩ := so_far.2 f present
      rw [← whole, List.drop_left]
      exact (List.prefix_append_right_inj got).mpr (List.take_prefix count rest)
    | @whole _ inode got f present complete =>
      refine ⟨_,⟨same,has⟩,?_⟩
      rw [(so_far.2 f present).eq_of_length_le complete]
      exact visible_eq so_far.1 present

theorem alone_run {s t : State} {events : List Event}
    (alone : ∃ phase, GetAt root id phase s ∧ AloneAt root id phase)
    (own : ∀ e ∈ events, ∃ choice, e = .advance 0 choice) (taken : run step s events = some t) :
    ∃ phase, GetAt root id phase t ∧ AloneAt root id phase := by
  refine guarded_invariant (fun s => ∃ phase, GetAt root id phase s ∧ AloneAt root id phase) ?_ alone
    (along_all s fun _ => own) taken
  intro s e t alone only next
  obtain ⟨choice,rfl⟩ := only
  exact alone_step alone next

theorem get_begins (root : Root) (id : BlockId) :
    ∃ s, step ⟨root, ∅, 0⟩ (.start (.get id)) = some s ∧ GetAt root id .opening s :=
  ⟨_,rfl,rfl,setCall_same _ _ _⟩

theorem getReturns_visible (returns : GetReturns root id (.ok payload)) :
    visible root id = some payload := by
  obtain ⟨events,s,taken,own,found⟩ := returns
  obtain ⟨first,begins,at_start⟩ := get_begins root id
  rw [run_cons begins] at taken
  obtain ⟨phase,⟨_,found'⟩,alone⟩ := alone_run ⟨.opening,at_start,trivial⟩ own taken
  cases found.symm.trans found'
  exact alone

theorem get_advances {s : State} {phase next : GetPhase} {choice : Choice}
    (stands : GetAt root id phase s) (moves : advanceGet root choice id phase = some next) :
    ∃ t, step s (.advance 0 choice) = some t ∧ GetAt root id next t := by
  obtain ⟨same,found⟩ := stands
  refine ⟨{ s.setCall 0 (.get id next) with root := s.root },?_,same,setCall_same _ _ _⟩
  simp only [step, found, Option.bind_some, Call.advance, same, moves, Option.map_some, Root.performed]

theorem visible_getReturns (shown : visible root id = some payload) :
    GetReturns root id (.ok payload) := by
  unfold visible at shown
  obtain ⟨inode,leads,read⟩ := Option.bind_eq_some_iff.mp shown
  obtain ⟨f,has,rfl⟩ := Option.map_eq_some_iff.mp read
  have opens : advanceGet root ⟨"", 0⟩ id .opening = some (.reading inode []) := by
    simp only [advanceGet, leads]
  have ends : advanceGet root ⟨"", 0⟩ id (.reading inode f.data) = some (.returned (.ok f.data)) := by
    simp [advanceGet, has]
  obtain ⟨zeroth,begins,at_start⟩ := get_begins root id
  obtain ⟨first,opened,at_first⟩ := get_advances at_start opens
  by_cases empty : f.data = []
  · rw [empty] at ends
    obtain ⟨last,ended,at_last⟩ := get_advances at_first ends
    refine ⟨[.advance 0 ⟨"", 0⟩, .advance 0 ⟨"", 0⟩],last,?_,?_,?_⟩
    · rw [run_cons begins, run_cons opened, run_cons ended]
      rfl
    · simp
    · rw [empty]
      exact at_last.2
  · have reads : advanceGet root ⟨"", f.data.length⟩ id (.reading inode []) =
        some (.reading inode f.data) := by
      simp [advanceGet, has, empty, List.length_pos_iff]
    obtain ⟨second,read,at_second⟩ := get_advances at_first reads
    obtain ⟨last,ended,at_last⟩ := get_advances at_second ends
    refine ⟨[.advance 0 ⟨"", 0⟩, .advance 0 ⟨"", f.data.length⟩, .advance 0 ⟨"", 0⟩],last,?_,?_,
      at_last.2⟩
    · rw [run_cons begins, run_cons opened, run_cons read, run_cons ended]
      rfl
    · simp

end Restart

/-- The payload was on the disk before, and nothing that was done to the block
    since then could have made a difference. -/
structure AlreadySafe (start : State) (events : List Event) (s : State) (id : BlockId)
    (payload : Bytes) : Prop where
  stored : visible start.root id = some payload
  puts : ∀ c call other, s.call c = some call → opOf call = .put id other → Unfailed events c →
    other = payload
  deletes : ∀ c call, s.call c = some call → opOf call = .delete id → ¬ Unfailed events c

section Sequences
variable {start s : State} {events : List Event} {id : BlockId} {payload : Bytes}

theorem surviving_failure {survived : List DirChange} (some_of : survived.Sublist (changes start events)) :
    PowerFailure start events s ⟨s.root.inodes, start.root.tree.replay survived⟩ :=
  ⟨⟨survived,some_of,rfl⟩,fun _ _ has _ => has⟩

theorem run_frozen (quiet : Quiet start) (taken : run step start events = some s) {inode : Nat}
    (below : inode < start.root.inodes.length) :
    s.root.inodes[inode]? = start.root.inodes[inode]? := by
  have kept : s.root.inodes[inode]? = start.root.inodes[inode]? ∧ inode < s.root.inodes.length ∧
      ¬ Owned s inode := by
    refine history_invariant (fun _ s => s.root.inodes[inode]? = start.root.inodes[inode]? ∧
      inode < s.root.inodes.length ∧ ¬ Owned s inode) ?_ ?_ taken
    · refine ⟨rfl,below,?_⟩
      rintro ⟨c,temp,own,_⟩
      unfold ownOf State.call at own
      rw [quiet.calls] at own
      cases own
    · intro front s e t reached holds next
      obtain ⟨same,inside,unowned⟩ := holds
      obtain ⟨still,inside',unowned'⟩ := step_frozen (run_sound quiet reached) next inside unowned
      exact ⟨still.trans same,inside',unowned'⟩
  exact kept.1

theorem survives_stored (quiet : Quiet start) (taken : run step start events = some s)
    (survives : Survives start events s id payload) : visible start.root id = some payload := by
  have shown := getReturns_visible (survives _ (surviving_failure (List.nil_sublist _)))
  obtain ⟨inode,leads,read⟩ := Option.bind_eq_some_iff.mp shown
  have found : find start.root (blockPath id) = some inode := leads
  have below := (block_unowned (quiet_sound quiet)
    ((find_sound (quiet_sound quiet) _).symm.trans found)).1
  unfold visible
  rw [found, Option.bind_some, ← run_frozen quiet taken below]
  exact read

theorem stored_entry (quiet : Quiet start) (stored : visible start.root id = some payload) :
    (∃ inode f, start.root.tree.names.lookup (blockPath id) = some inode ∧
      start.root.inodes[inode]? = some f ∧ f.data = payload) ∧
      ∀ dir ∈ parents (blockPath id), dir ∈ start.root.tree.dirs := by
  have sound := quiet_sound quiet
  obtain ⟨inode,leads,read⟩ := Option.bind_eq_some_iff.mp stored
  obtain ⟨f,has,same⟩ := Option.map_eq_some_iff.mp read
  rw [find_sound sound] at leads
  exact ⟨⟨inode,f,leads,has,same⟩,quiet.rooted.housed _ _ leads⟩

theorem survives_puts (quiet : Quiet start) (sequence : Sequence start events s)
    (survives : Survives start events s id payload) {c : Nat} {call : Call} {other : Bytes}
    (found : s.call c = some call) (put : opOf call = .put id other) (unfailed : Unfailed events c) :
    other = payload := by
  have stored := survives_stored quiet sequence.taken survives
  have healthy := (run_failing quiet sequence.taken c call found).mpr unfailed
  have done := (returned_done (sequence.finished c call found) healthy).1 id other put
  obtain ⟨src,inode,member,has,_⟩ := run_renamed quiet sequence.taken c call found id other done
  have shown := getReturns_visible (survives _ (surviving_failure (List.singleton_sublist.mpr member)))
  have leads : find ⟨s.root.inodes, start.root.tree.replay [.rename src (blockPath id) inode]⟩
      (blockPath id) = some inode := by
    unfold find Tree.find
    rw [if_pos fun dir below => replay_dirs ((stored_entry quiet stored).2 dir below) _]
    exact AList.lookup_insert _
  rw [visible_eq leads has] at shown
  exact Option.some.inj shown

theorem survives_deletes (quiet : Quiet start) (sequence : Sequence start events s)
    (survives : Survives start events s id payload) {c : Nat} {call : Call}
    (found : s.call c = some call) (delete : opOf call = .delete id) : ¬ Unfailed events c := by
  intro unfailed
  have stored := survives_stored quiet sequence.taken survives
  obtain ⟨⟨inode,_,leads,_⟩,_⟩ := stored_entry quiet stored
  have healthy := (run_failing quiet sequence.taken c call found).mpr unfailed
  have done := (returned_done (sequence.finished c call found) healthy).2 id delete
  have member := run_unlinked quiet sequence.taken sequence.inTurn
    (by rw [leads]; exact Option.some_ne_none _) c call found done
  have shown := getReturns_visible (survives _ (surviving_failure (List.singleton_sublist.mpr member)))
  have gone : find ⟨s.root.inodes, start.root.tree.replay [.unlink (blockPath id)]⟩
      (blockPath id) = none := by
    unfold find Tree.find
    split
    · exact AList.lookup_erase _ _
    · rfl
  rw [visible_missing gone] at shown
  cases shown

theorem safe_survives (atRest : AtRest start) (sequence : Sequence start events s)
    (safe : AlreadySafe start events s id payload) : Survives start events s id payload := by
  intro after failure
  obtain ⟨⟨survived,some_of,tree⟩,data⟩ := failure
  have quiet := atRest.toQuiet
  obtain ⟨⟨inode,f,leads,has,same⟩,housed⟩ := stored_entry quiet safe.stored
  -- every entry that the block can have leads to a synced copy of the payload
  have entry : ∃ inode, (start.root.tree.replay survived).names.lookup (blockPath id) = some inode ∧
      ∃ f, s.root.inodes[inode]? = some f ∧ f.synced = true ∧ f.data = payload := by
    refine replay_lookup (fun entry => ∃ inode, entry = some inode ∧
      ∃ f, s.root.inodes[inode]? = some f ∧ f.synced = true ∧ f.data = payload) ?_ ?_
    · have below := quiet.rooted.live _ _ leads
      exact ⟨inode,leads,f,(run_frozen quiet sequence.taken below).trans has,
        atRest.synced inode f has,same⟩
    · intro change member entry concerns
      have explained := run_explained quiet sequence.inTurn sequence.taken change (some_of.mem member)
      rcases explained_entry explained concerns with ⟨src,inode,rfl,rfl⟩ | ⟨rfl,_⟩
      · obtain ⟨_,c,call,owner,other,found,done,equal,is_sealed,_⟩ := explained
        cases blockPath_injective equal
        have unfailed := (run_failing quiet sequence.taken c call found).mp (done_settled done).1
        have whole := safe.puts c call other found (done_op done) unfailed
        exact ⟨inode,rfl,_,is_sealed,rfl,whole⟩
      · rcases explained with ⟨owner,random,named⟩ | ⟨c,call,owner,found,done,equal⟩
        · exact absurd named.symm (tempPath_other owner id random)
        · cases blockPath_injective equal
          have unfailed := (run_failing quiet sequence.taken c call found).mp (done_settled done).1
          exact absurd unfailed (safe.deletes c call found (done_op done))
  obtain ⟨inode,leads,f,has,synced,same⟩ := entry
  apply visible_getReturns
  rw [← same]
  refine visible_eq ?_ (data inode f has synced)
  unfold find Tree.find
  rw [tree, if_pos fun dir below => replay_dirs (housed dir below) _]
  exact leads

/-- After a sequence of puts and deletes, every acknowledged put survives every
    power failure exactly if its payload was already safe under the block before the
    sequence and no call that succeeded since then stored anything else or removed
    the block. -/
theorem acknowledged_survives_iff (atRest : AtRest start) (sequence : Sequence start events s) :
    (∀ id payload, Acknowledged s id payload → Survives start events s id payload) ↔
      ∀ id payload, Acknowledged s id payload → AlreadySafe start events s id payload := by
  have quiet := atRest.toQuiet
  constructor
  · intro all id payload acknowledged
    have survives := all id payload acknowledged
    exact {
      stored := survives_stored quiet sequence.taken survives
      puts := fun c call other found put unfailed =>
        survives_puts quiet sequence survives found put unfailed
      deletes := fun c call found delete => survives_deletes quiet sequence survives found delete }
  · intro all id payload acknowledged
    exact safe_survives atRest sequence (all id payload acknowledged)

end Sequences

def onePut : List Event := .start (.put sampleId [1, 2]) :: putEvents 0 "a" 2

theorem onePut_inTurn {start : State} (quiet : Quiet start) : Along step InTurn start onePut := by
  refine ⟨⟨?_,sampleId,Or.inr ⟨_,rfl⟩⟩,along_all _ ?_⟩
  · intro c call found
    unfold State.call at found
    rw [quiet.calls] at found
    cases found
  · intro s e member
    have advances : ∀ e ∈ putEvents 0 "a" 2, about e ≠ none := by decide
    cases e with
    | start | crash => exact absurd rfl (advances _ member)
    | advance | fail => trivial

theorem onePut_acknowledged {start s : State} (quiet : Quiet start)
    (taken : run step start onePut = some s)
    (found : s.call 0 = some (.put sampleId [1, 2] (.returned (.ok ())))) (only : s.next = 1) :
    Sequence start onePut s ∧ Acknowledged s sampleId [1, 2] ∧
      ∀ c call, s.call c = some call → call = .put sampleId [1, 2] (.returned (.ok ())) := by
  have lone : ∀ c call, s.call c = some call → c = 0 := by
    intro c call has
    have bound := (run_sound quiet taken).numbered c call has
    omega
  have same : ∀ c call, s.call c = some call → call = .put sampleId [1, 2] (.returned (.ok ())) := by
    intro c call has
    rw [lone c call has, found, Option.some.injEq] at has
    exact has.symm
  refine ⟨⟨taken,onePut_inTurn quiet,?_⟩,⟨0,found,?_⟩,same⟩
  · intro c call has
    rw [same c call has]
    rfl
  · intro c call has _
    exact Nat.le_of_eq (lone c call has)

theorem acknowledged_put_lost :
    ∃ s after, AtRest emptyRoot ∧ Sequence emptyRoot onePut s ∧ Acknowledged s sampleId [1, 2] ∧
      PowerFailure emptyRoot onePut s after ∧ visible after sampleId = none ∧
      ¬ GetReturns after sampleId (.ok [1, 2]) := by
  have evaluated : ∃ s ∈ run step emptyRoot onePut,
      s.call 0 = some (.put sampleId [1, 2] (.returned (.ok ()))) ∧ s.next = 1 := by
    decide +kernel
  obtain ⟨s,taken,found,only⟩ := evaluated
  obtain ⟨sequence,acknowledged,_⟩ := onePut_acknowledged emptyRoot_quiet taken found only
  have bare : (emptyRoot.root.tree.replay []).find parents (blockPath sampleId) = none := by
    decide +kernel
  have nothing : visible ⟨s.root.inodes, emptyRoot.root.tree.replay []⟩ sampleId = none :=
    visible_missing bare
  refine ⟨s,_,⟨emptyRoot_quiet,nofun⟩,sequence,acknowledged,surviving_failure (List.nil_sublist _),
    nothing,?_⟩
  intro returns
  rw [getReturns_visible returns] at nothing
  cases nothing

def storedRoot : State where
  root := ⟨[⟨[1, 2], true⟩], ⟨parents (blockPath sampleId), AList.singleton (blockPath sampleId) 0⟩⟩
  calls := ∅
  next := 0

theorem storedRoot_atRest : AtRest storedRoot := by
  have only : ∀ path inode, storedRoot.root.tree.names.lookup path = some inode →
      path = blockPath sampleId ∧ inode = 0 := by
    intro path inode leads
    have member := AList.mem_lookup_iff.mp leads
    simp only [storedRoot, AList.singleton, List.mem_singleton] at member
    cases member
    exact ⟨rfl,rfl⟩
  refine ⟨⟨⟨?_,?_⟩,rfl⟩,?_⟩
  · intro path inode leads
    rw [(only path inode leads).2]
    decide
  · intro path inode leads dir below
    rw [(only path inode leads).1] at below
    exact below
  · intro inode f has
    simp only [storedRoot] at has
    cases inode with
    | zero =>
      cases has
      rfl
    | succ n => cases has

theorem acknowledged_survives_again :
    ∃ s, Sequence storedRoot onePut s ∧ Acknowledged s sampleId [1, 2] ∧
      Survives storedRoot onePut s sampleId [1, 2] := by
  have evaluated : ∃ s ∈ run step storedRoot onePut,
      s.call 0 = some (.put sampleId [1, 2] (.returned (.ok ()))) ∧ s.next = 1 := by
    decide +kernel
  obtain ⟨s,taken,found,only⟩ := evaluated
  obtain ⟨sequence,acknowledged,same⟩ := onePut_acknowledged storedRoot_atRest.toQuiet taken found only
  refine ⟨s,sequence,acknowledged,(acknowledged_survives_iff storedRoot_atRest sequence).mpr ?_ _ _
    acknowledged⟩
  intro id payload again
  obtain ⟨c,has,_⟩ := again
  cases same c _ has
  refine ⟨by decide +kernel,?_,?_⟩
  · intro c call other found put _
    rw [same c call found] at put
    cases put
    rfl
  · intro c call found delete
    rw [same c call found] at delete
    cases delete

end PowerFailures
