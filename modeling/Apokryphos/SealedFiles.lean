import Apokryphos.LocalFs

/-!
Who may write which file. A put that has a temporary file is the only one with
that inode, and the only name of the inode is the temporary one, which no block
can have. So an inode below the name of a block belongs to nobody, and its
contents do not change any more. The invariant holds whatever fails and wherever
the process crashes.
-/
namespace SealedFiles
open BlockStorage Digests FileSystems LocalFs StepRuns

theorem tempPath_other (a b : BlockId) (random : String) : tempPath a random ≠ blockPath b := by
  intro same
  have name : b.text = ".put." ++ random ++ ".tmp" := (congrArg BlockPath.name same).symm
  have clean := (canonical_iff.mp ⟨b,name⟩).2 '.' (by simp)
  cases clean

def idOf : Call → BlockId
  | .put id _ _ | .get id _ | .delete id _ | .exists_ id _ => id

def tempOf : Call → Option Temp
  | .put _ _ (.writing temp _) | .put _ _ (.syncing temp) | .put _ _ (.renaming temp)
  | .put _ _ (.dropping temp _) => some temp
  | _ => none

def sourceOf : Call → Option Nat
  | .get _ (.reading inode _) => some inode
  | _ => none

def ownOf (s : State) (c : Nat) : Option Temp := (s.call c).bind tempOf

def Owned (s : State) (inode : Nat) : Prop := ∃ c temp, ownOf s c = some temp ∧ temp.inode = inode

structure Temporary (root : Root) (id : BlockId) (temp : Temp) : Prop where
  named : ∃ random, temp.path = tempPath id random
  linked : root.tree.names.lookup temp.path = some temp.inode
  alone : ∀ path, root.tree.names.lookup path = some temp.inode → path = temp.path

def Filled (root : Root) : Call → Prop
  | .put _ payload (.writing temp rest) =>
    ∃ f, root.inodes[temp.inode]? = some f ∧ f.data ++ rest = payload
  | .put _ payload (.syncing temp) => ∃ f, root.inodes[temp.inode]? = some f ∧ f.data = payload
  | .put _ payload (.renaming temp) => root.inodes[temp.inode]? = some ⟨payload, true⟩
  | .get _ (.reading inode got) => ∃ f, root.inodes[inode]? = some f ∧ got <+: f.data
  | _ => True

structure Rooted (root : Root) : Prop where
  live : ∀ path inode, root.tree.names.lookup path = some inode → inode < root.inodes.length
  housed : ∀ path inode, root.tree.names.lookup path = some inode →
    ∀ dir ∈ parents path, dir ∈ root.tree.dirs

structure Sound (s : State) : Prop where
  rooted : Rooted s.root
  numbered : ∀ c call, s.call c = some call → c < s.next
  temporary : ∀ c call temp, s.call c = some call → tempOf call = some temp →
    Temporary s.root (idOf call) temp
  apart : ∀ c c' temp temp', ownOf s c = some temp → ownOf s c' = some temp' →
    temp.inode = temp'.inode → c = c'
  filled : ∀ c call, s.call c = some call → Filled s.root call
  closed : ∀ c call inode, s.call c = some call → sourceOf call = some inode →
    inode < s.root.inodes.length ∧ ¬ Owned s inode

theorem filled_kept {root root' : Root} {call : Call} (filled : Filled root call)
    (temp : ∀ temp, tempOf call = some temp →
      root'.inodes[temp.inode]? = root.inodes[temp.inode]?)
    (source : ∀ inode, sourceOf call = some inode → root'.inodes[inode]? = root.inodes[inode]?) :
    Filled root' call := by
  unfold Filled at filled ⊢
  split at filled
  · rw [temp _ rfl]
    exact filled
  · rw [temp _ rfl]
    exact filled
  · rw [temp _ rfl]
    exact filled
  · rw [source _ rfl]
    exact filled
  · trivial

/-- What is asked of a step that moves one call, with whatever it does to the
    disk. -/
structure Careful (s : State) (c : Nat) (call : Call) (root : Root) : Prop where
  rooted : Rooted root
  data : ∀ inode < s.root.inodes.length, (∀ own, ownOf s c = some own → own.inode ≠ inode) →
    root.inodes[inode]? = s.root.inodes[inode]?
  grown : s.root.inodes.length ≤ root.inodes.length
  spared : ∀ id temp, Temporary s.root id temp → (∀ own, ownOf s c = some own → own.inode ≠ temp.inode) →
    Temporary root id temp
  temporary : ∀ temp, tempOf call = some temp → Temporary root (idOf call) temp ∧
    (ownOf s c = some temp ∨ s.root.inodes.length ≤ temp.inode)
  filled : Filled root call
  closed : ∀ inode, sourceOf call = some inode → inode < s.root.inodes.length ∧ ¬ Owned s inode

section Steps
variable {s t : State} {c : Nat} {call : Call} {root : Root}

theorem temporary_live (sound : Sound s) {d : Nat} {temp : Temp} (own : ownOf s d = some temp) :
    temp.inode < s.root.inodes.length := by
  obtain ⟨call,found,holds⟩ := Option.bind_eq_some_iff.mp own
  exact sound.rooted.live _ _ (sound.temporary d call temp found holds).linked

theorem ownOf_same (next : Nat) :
    ownOf { s.setCall c call with root := root, next := next } c = tempOf call :=
  congrArg (Option.bind · tempOf) (setCall_same s c call)

theorem ownOf_other {d : Nat} (different : d ≠ c) (next : Nat) :
    ownOf { s.setCall c call with root := root, next := next } d = ownOf s d :=
  congrArg (Option.bind · tempOf) (setCall_other different)

theorem careful_owned (careful : Careful s c call root) {next inode : Nat}
    (below : inode < s.root.inodes.length)
    (owned : Owned { s.setCall c call with root := root, next := next } inode) : Owned s inode := by
  obtain ⟨d,temp,own,rfl⟩ := owned
  by_cases same : d = c
  · subst same
    rw [ownOf_same] at own
    rcases (careful.temporary temp own).2 with before | fresh
    · exact ⟨d,temp,before,rfl⟩
    · omega
  · rw [ownOf_other same] at own
    exact ⟨d,temp,own,rfl⟩

theorem careful_sound (sound : Sound s) (careful : Careful s c call root) {next : Nat}
    (numbered : c < next) (later : s.next ≤ next) :
    Sound { s.setCall c call with root := root, next := next } := by
  -- a call of another number is as it was, and its file is not ours
  have other {d : Nat} {call' : Call} (different : d ≠ c) (found : (s.setCall c call).call d = some call') :
      s.call d = some call' := by
    rw [setCall_other different] at found
    exact found
  have foreign {d : Nat} {temp : Temp} (different : d ≠ c) (own : ownOf s d = some temp) :
      ∀ mine, ownOf s c = some mine → mine.inode ≠ temp.inode := by
    intro mine ours same
    exact different (sound.apart d c temp mine own ours same.symm)
  constructor
  · exact careful.rooted
  · intro d call' found
    by_cases same : d = c
    · subst same
      exact numbered
    · exact Nat.lt_of_lt_of_le (sound.numbered d call' (other same found)) later
  · intro d call' temp found holds
    by_cases same : d = c
    · subst same
      cases (setCall_same s d call).symm.trans found
      exact (careful.temporary temp holds).1
    · have before := other same found
      have own : ownOf s d = some temp := by
        unfold ownOf
        rw [before]
        exact holds
      exact careful.spared _ temp (sound.temporary d call' temp before holds) (foreign same own)
  · -- a new file has a new inode
    have fresh {d : Nat} {temp temp' : Temp} (different : d ≠ c) (mine : tempOf call = some temp)
        (own : ownOf s d = some temp') : temp.inode ≠ temp'.inode := by
      intro same
      rcases (careful.temporary temp mine).2 with before | beyond
      · exact foreign different own temp before same
      · have bound := temporary_live sound own
        omega
    intro d d' temp temp' own own' inode
    by_cases same : d = c
    · subst same
      rw [ownOf_same] at own
      by_contra different
      rw [ownOf_other (Ne.symm different)] at own'
      exact fresh (Ne.symm different) own own' inode
    · rw [ownOf_other same] at own
      by_cases same' : d' = c
      · subst same'
        rw [ownOf_same] at own'
        exact absurd inode.symm (fresh same own' own)
      · rw [ownOf_other same'] at own'
        exact sound.apart d d' temp temp' own own' inode
  · intro d call' found
    by_cases same : d = c
    · subst same
      cases (setCall_same s d call).symm.trans found
      exact careful.filled
    · have before := other same found
      refine filled_kept (sound.filled d call' before) ?_ ?_
      · intro temp holds
        have own : ownOf s d = some temp := by
          unfold ownOf
          rw [before]
          exact holds
        exact careful.data _ (temporary_live sound own) (foreign same own)
      · intro inode reads
        obtain ⟨below,unowned⟩ := sound.closed d call' inode before reads
        exact careful.data inode below fun mine ours equal => unowned ⟨c,mine,ours,equal⟩
  · intro d call' inode found reads
    by_cases same : d = c
    · subst same
      cases (setCall_same s d call).symm.trans found
      obtain ⟨below,unowned⟩ := careful.closed inode reads
      exact ⟨Nat.lt_of_lt_of_le below careful.grown,fun owned => unowned (careful_owned careful below owned)⟩
    · obtain ⟨below,unowned⟩ := sound.closed d call' inode (other same found) reads
      exact ⟨Nat.lt_of_lt_of_le below careful.grown,fun owned => unowned (careful_owned careful below owned)⟩

theorem spared_perform {id : BlockId} {temp : Temp} {op : FileOp} (temporary : Temporary root id temp)
    (kept : root.entryOf op temp.path = none)
    (unmade : ∀ path, root.entryOf op path ≠ some (some temp.inode)) :
    Temporary (root.perform op) id temp where
  named := temporary.named
  linked := by
    rw [perform_lookup, kept]
    exact temporary.linked
  alone := by
    intro path leads
    rw [perform_lookup] at leads
    cases entry : root.entryOf op path with
    | none =>
      rw [entry] at leads
      exact temporary.alone path leads
    | some made =>
      rw [entry, Option.getD_some] at leads
      rw [leads] at entry
      exact absurd entry (unmade path)

theorem rooted_perform {op : FileOp} (rooted : Rooted root)
    (made : ∀ path inode, root.entryOf op path = some (some inode) →
      inode < (root.inodesAfter op).length ∧ ∀ dir ∈ parents path, dir ∈ root.tree.dirs) :
    Rooted (root.perform op) := by
  have origin {path : BlockPath} {inode : Nat}
      (leads : (root.perform op).tree.names.lookup path = some inode) :
      inode < (root.inodesAfter op).length ∧ ∀ dir ∈ parents path, dir ∈ root.tree.dirs := by
    rw [perform_lookup] at leads
    cases entry : root.entryOf op path with
    | none =>
      rw [entry] at leads
      exact ⟨Nat.lt_of_lt_of_le (rooted.live path inode leads) (inodesAfter_grown root op),
        rooted.housed path inode leads⟩
    | some found =>
      rw [entry, Option.getD_some] at leads
      rw [leads] at entry
      exact made path inode entry
  constructor
  · intro path inode leads
    exact (origin leads).1
  · intro path inode leads dir below
    exact perform_dirs op ((origin leads).2 dir below)

theorem careful_perform (sound : Sound s) {op : FileOp}
    (made : ∀ path inode, s.root.entryOf op path = some (some inode) →
      inode < (s.root.inodesAfter op).length ∧ ∀ dir ∈ parents path, dir ∈ s.root.tree.dirs)
    (data : ∀ inode < s.root.inodes.length, (∀ own, ownOf s c = some own → own.inode ≠ inode) →
      (s.root.inodesAfter op)[inode]? = s.root.inodes[inode]?)
    (others : ∀ id temp, Temporary s.root id temp →
      (∀ own, ownOf s c = some own → own.inode ≠ temp.inode) →
      s.root.entryOf op temp.path = none ∧ ∀ path, s.root.entryOf op path ≠ some (some temp.inode))
    (temporary : ∀ temp, tempOf call = some temp → Temporary (s.root.perform op) (idOf call) temp ∧
      (ownOf s c = some temp ∨ s.root.inodes.length ≤ temp.inode))
    (filled : Filled (s.root.perform op) call) (closed : sourceOf call = none) :
    Careful s c call (s.root.perform op) where
  rooted := rooted_perform sound.rooted made
  data := data
  grown := inodesAfter_grown s.root op
  spared id temp kept foreign :=
    spared_perform kept (others id temp kept foreign).1 (others id temp kept foreign).2
  temporary := temporary
  filled := filled
  closed inode reads := by
    rw [closed] at reads
    cases reads

theorem careful_silent (sound : Sound s) {before : Call} (found : s.call c = some before) {op : FileOp}
    (silent : ∀ path, s.root.entryOf op path = none)
    (data : ∀ inode < s.root.inodes.length, (∀ own, ownOf s c = some own → own.inode ≠ inode) →
      (s.root.inodesAfter op)[inode]? = s.root.inodes[inode]?)
    (same : tempOf call = tempOf before ∧ idOf call = idOf before)
    (filled : Filled (s.root.perform op) call) (closed : sourceOf call = none) :
    Careful s c call (s.root.perform op) := by
  have unmade : ∀ path inode, s.root.entryOf op path ≠ some (some inode) := by
    intro path inode
    rw [silent]
    exact nofun
  refine careful_perform sound ?_ data ?_ ?_ filled closed
  · intro path inode entry
    exact absurd entry (unmade path inode)
  · intro id temp kept _
    exact ⟨silent temp.path,fun path => unmade path temp.inode⟩
  · intro temp holds
    rw [same.1] at holds
    rw [same.2]
    refine ⟨spared_perform (sound.temporary c before temp found holds) (silent _)
      (fun path => unmade path temp.inode),Or.inl ?_⟩
    unfold ownOf
    rw [found]
    exact holds

theorem careful_idle (sound : Sound s) {before : Call} (found : s.call c = some before)
    (same : tempOf call = none ∨ tempOf call = tempOf before) (named : idOf call = idOf before)
    (filled : Filled s.root call)
    (closed : ∀ inode, sourceOf call = some inode → inode < s.root.inodes.length ∧ ¬ Owned s inode) :
    Careful s c call s.root where
  rooted := sound.rooted
  data inode _ _ := rfl
  grown := Nat.le_refl _
  spared id temp kept _ := kept
  temporary temp holds := by
    rcases same with none | same
    · rw [none] at holds
      cases holds
    · rw [same] at holds
      rw [named]
      refine ⟨sound.temporary c before temp found holds,Or.inl ?_⟩
      unfold ownOf
      rw [found]
      exact holds
  filled := filled
  closed := closed

theorem ownOf_some {before : Call} (found : s.call c = some before) : ownOf s c = tempOf before := by
  unfold ownOf
  rw [found]
  rfl

theorem create_careful (sound : Sound s) {id : BlockId} {payload : Bytes} {random : String}
    (free : s.root.tree.names.lookup (tempPath id random) = none)
    (housed : ∀ dir ∈ parents (tempPath id random), dir ∈ s.root.tree.dirs) :
    Careful s c (.put id payload (.writing ⟨tempPath id random, s.root.inodes.length⟩ payload))
      (s.root.perform (.create (tempPath id random))) := by
  have entry := entryOf_create s.root (tempPath id random)
  have fresh : (s.root.inodes ++ [⟨[], false⟩])[s.root.inodes.length]? = some (⟨[], false⟩ : Inode) := by
    simp
  refine careful_perform sound ?_ ?_ ?_ ?_ ⟨_,fresh,rfl⟩ rfl
  · intro path inode made
    rw [entry] at made
    split at made
    · rename_i same
      cases made
      subst same
      exact ⟨by simp [Disk.inodesAfter],housed⟩
    · cases made
  · intro inode below _
    exact List.getElem?_append_left below
  · intro other temp kept _
    constructor
    · rw [entry, if_neg]
      intro same
      have linked := kept.linked
      rw [same, free] at linked
      cases linked
    · intro path made
      have below := sound.rooted.live _ _ kept.linked
      rw [entry] at made
      split at made
      · have same := Option.some.inj (Option.some.inj made)
        omega
      · cases made
  · intro temp holds
    cases holds
    refine ⟨⟨⟨random,rfl⟩,?_,?_⟩,Or.inr (Nat.le_refl _)⟩
    · rw [perform_lookup, entry, if_pos rfl]
      rfl
    · intro path leads
      by_contra different
      rw [perform_lookup, entry, if_neg different] at leads
      have below := sound.rooted.live _ _ leads
      exact Nat.lt_irrefl _ below

theorem rename_careful (sound : Sound s) {id : BlockId} {payload : Bytes} {temp : Temp}
    (found : s.call c = some (.put id payload (.renaming temp))) :
    Careful s c (.put id payload .persisted) (s.root.perform (.rename temp.path (blockPath id))) := by
  have own := sound.temporary c _ temp found rfl
  obtain ⟨random,named⟩ := own.named
  have entry := @entryOf_rename _ _ _ _ s.root temp.path (blockPath id) temp.inode own.linked
  refine careful_perform sound ?_ (fun _ _ _ => rfl) ?_ nofun trivial rfl
  · intro path inode made
    rw [entry] at made
    split at made
    · rename_i same
      cases made
      subst same
      refine ⟨sound.rooted.live _ _ own.linked,?_⟩
      have housed := sound.rooted.housed _ _ own.linked
      rw [named] at housed
      exact housed
    · split at made <;> cases made
  · intro other temp' kept foreign
    have different := foreign temp (ownOf_some found)
    constructor
    · obtain ⟨random',named'⟩ := kept.named
      rw [entry, if_neg, if_neg]
      · intro same
        have linked := kept.linked
        rw [same, own.linked] at linked
        exact different (Option.some.inj linked)
      · rw [named']
        exact tempPath_other other id random'
    · intro path made
      rw [entry] at made
      split at made
      · exact different (Option.some.inj (Option.some.inj made))
      · split at made <;> cases made

theorem unlink_careful (sound : Sound s) {path : BlockPath}
    (others : ∀ id temp, Temporary s.root id temp →
      (∀ own, ownOf s c = some own → own.inode ≠ temp.inode) → temp.path ≠ path)
    (gone : tempOf call = none) (filled : ∀ root, Filled root call) (closed : sourceOf call = none) :
    Careful s c call (s.root.perform (.unlink path)) := by
  have entry := entryOf_unlink s.root path
  have unmade : ∀ other inode, s.root.entryOf (.unlink path) other ≠ some (some inode) := by
    intro other inode made
    rw [entry] at made
    split at made <;> cases made
  refine careful_perform sound ?_ (fun _ _ _ => rfl) ?_ ?_ (filled _) closed
  · intro other inode made
    exact absurd made (unmade other inode)
  · intro id temp kept foreign
    refine ⟨?_,fun other => unmade other temp.inode⟩
    rw [entry, if_neg (others id temp kept foreign)]
  · intro temp holds
    rw [gone] at holds
    cases holds

theorem put_careful (sound : Sound s) {id : BlockId} {payload : Bytes} {phase next : PutPhase}
    {op : Option FileOp} (found : s.call c = some (.put id payload phase))
    (moves : PutAdvances s.root id payload phase next op) :
    Careful s c (.put id payload next) (Root.performed s.root op) := by
  have filled := sound.filled c _ found
  cases moves with
  | makeTop =>
    exact careful_silent sound found (entryOf_mkdir _ _) (fun _ _ _ => rfl) ⟨rfl,rfl⟩ trivial rfl
  | makeShard =>
    exact careful_silent sound found (entryOf_mkdir _ _) (fun _ _ _ => rfl) ⟨rfl,rfl⟩ trivial rfl
  | permitTop => exact careful_idle sound found (Or.inl rfl) rfl trivial nofun
  | permitShard => exact careful_idle sound found (Or.inl rfl) rfl trivial nofun
  | create free housed => exact create_careful sound free housed
  | @write temp rest count _ =>
    obtain ⟨f,has,whole⟩ := filled
    refine careful_silent sound found (fun _ => rfl) ?_ ⟨rfl,rfl⟩ ⟨⟨f.data ++ rest.take count, false⟩,?_,?_⟩ rfl
    · intro inode _ foreign
      exact List.getElem?_modify_ne _ _ (foreign temp (ownOf_some found))
    · exact (List.getElem?_modify_eq _ _ _).trans (congrArg _ has)
    · rw [List.append_assoc, List.take_append_drop]
      exact whole
  | written =>
    obtain ⟨f,has,whole⟩ := filled
    refine careful_idle sound found (Or.inr rfl) rfl ⟨f,has,?_⟩ nofun
    rw [List.append_nil] at whole
    exact whole
  | @sync temp =>
    obtain ⟨f,has,whole⟩ := filled
    refine careful_silent sound found (fun _ => rfl) ?_ ⟨rfl,rfl⟩ ?_ rfl
    · intro inode _ foreign
      exact List.getElem?_modify_ne _ _ (foreign temp (ownOf_some found))
    · rw [← whole]
      exact (List.getElem?_modify_eq _ _ _).trans (congrArg _ has)
  | rename => exact rename_careful sound found
  | @drop temp kind =>
    have own := sound.temporary c _ temp found rfl
    refine unlink_careful sound ?_ rfl (fun _ => trivial) rfl
    intro other temp' kept foreign same
    have linked := kept.linked
    rw [same, own.linked] at linked
    exact foreign temp (ownOf_some found) (Option.some.inj linked)
  | finish => exact careful_idle sound found (Or.inl rfl) rfl trivial nofun

theorem block_unowned (sound : Sound s) {id : BlockId} {inode : Nat}
    (leads : s.root.tree.names.lookup (blockPath id) = some inode) :
    inode < s.root.inodes.length ∧ ¬ Owned s inode := by
  refine ⟨sound.rooted.live _ _ leads,?_⟩
  rintro ⟨d,temp,own,rfl⟩
  obtain ⟨call,found,holds⟩ := Option.bind_eq_some_iff.mp own
  have temporary := sound.temporary d call temp found holds
  obtain ⟨random,named⟩ := temporary.named
  have same := temporary.alone _ leads
  rw [named] at same
  exact tempPath_other _ _ _ same.symm

theorem find_sound (sound : Sound s) (path : BlockPath) :
    find s.root path = s.root.tree.names.lookup path :=
  find_eq (sound.rooted.housed path)

theorem advance_careful (sound : Sound s) {before : Call} {op : Option FileOp}
    (found : s.call c = some before) (moves : Advances s.root before call op) :
    Careful s c call (Root.performed s.root op) := by
  have filled := sound.filled c _ found
  cases moves with
  | put moves => exact put_careful sound found moves
  | missing => exact careful_idle sound found (Or.inl rfl) rfl trivial nofun
  | @opened id inode leads =>
    rw [find_sound sound] at leads
    obtain ⟨below,unowned⟩ := block_unowned sound leads
    refine careful_idle sound found (Or.inl rfl) rfl ?_ ?_
    · exact ⟨_,List.getElem?_eq_getElem below,List.nil_prefix⟩
    · intro inode reads
      cases reads
      exact ⟨below,unowned⟩
  | @read id inode got f count has =>
    obtain ⟨f',has',begun⟩ := filled
    cases has.symm.trans has'
    refine careful_idle sound found (Or.inl rfl) rfl ⟨f,has,?_⟩ ?_
    · obtain ⟨rest,whole⟩ := begun
      rw [← whole, List.drop_left]
      exact (List.prefix_append_right_inj got).mpr (List.take_prefix count rest)
    · intro source reads
      exact sound.closed c _ source found reads
  | whole => exact careful_idle sound found (Or.inl rfl) rfl trivial nofun
  | absent => exact careful_idle sound found (Or.inl rfl) rfl trivial nofun
  | @unlink id inode leads =>
    refine unlink_careful sound ?_ rfl (fun _ => trivial) rfl
    intro other temp kept _ same
    obtain ⟨random,named⟩ := kept.named
    rw [named] at same
    exact tempPath_other _ _ _ same
  | stat => exact careful_idle sound found (Or.inl rfl) rfl trivial nofun

theorem fail_careful (sound : Sound s) {before : Call} {kind : IoErrorKind}
    (found : s.call c = some before) (fails : Fails kind before call) : Careful s c call s.root := by
  cases fails with
  | early => exact careful_idle sound found (Or.inl rfl) rfl trivial nofun
  | late holds =>
    refine careful_idle sound found (Or.inr ?_) rfl trivial nofun
    rcases holds with rfl | rfl | ⟨rest,rfl⟩ <;> rfl
  | dropped => exact careful_idle sound found (Or.inl rfl) rfl trivial nofun
  | get => exact careful_idle sound found (Or.inl rfl) rfl trivial nofun
  | delete => exact careful_idle sound found (Or.inl rfl) rfl trivial nofun
  | exists_ => exact careful_idle sound found (Or.inl rfl) rfl trivial nofun

theorem start_careful (sound : Sound s) (op : Op) : Careful s s.next op.call s.root where
  rooted := sound.rooted
  data inode _ _ := rfl
  grown := Nat.le_refl _
  spared id temp kept _ := kept
  temporary temp holds := by cases op <;> cases holds
  filled := by cases op <;> trivial
  closed inode reads := by cases op <;> cases reads

theorem step_careful {e : Event} (sound : Sound s) (taken : step s e = some t) :
    (∃ c call, Careful s c call t.root ∧ c < t.next ∧ s.next ≤ t.next ∧
      t = { s.setCall c call with root := t.root, next := t.next }) ∨ t = { s with calls := ∅ } := by
  cases step_cases taken with
  | started op =>
    exact Or.inl ⟨s.next,op.call,start_careful sound op,Nat.lt_succ_self _,Nat.le_succ _,rfl⟩
  | @advanced c choice call next op found _ moves =>
    exact Or.inl ⟨c,next,advance_careful sound found moves,sound.numbered c call found,Nat.le_refl _,rfl⟩
  | @failed c kind call next found fails =>
    exact Or.inl ⟨c,next,fail_careful sound found fails,sound.numbered c call found,Nat.le_refl _,rfl⟩
  | crashed => exact Or.inr rfl

theorem step_sound {e : Event} (sound : Sound s) (taken : step s e = some t) : Sound t := by
  rcases step_careful sound taken with ⟨c,call,careful,numbered,later,same⟩ | same
  · rw [same]
    exact careful_sound sound careful numbered later
  · rw [same]
    exact ⟨sound.rooted,nofun,nofun,nofun,nofun,nofun⟩

theorem step_frozen {e : Event} (sound : Sound s) (taken : step s e = some t) {inode : Nat}
    (below : inode < s.root.inodes.length) (unowned : ¬ Owned s inode) :
    t.root.inodes[inode]? = s.root.inodes[inode]? ∧ inode < t.root.inodes.length ∧ ¬ Owned t inode := by
  rcases step_careful sound taken with ⟨c,call,careful,_,_,same⟩ | same
  · refine ⟨?_,Nat.lt_of_lt_of_le below careful.grown,?_⟩
    · exact careful.data inode below fun own ours equal => unowned ⟨c,own,ours,equal⟩
    · intro owned
      rw [same] at owned
      exact unowned (careful_owned careful below owned)
  · rw [same]
    refine ⟨rfl,below,?_⟩
    rintro ⟨d,temp,own,_⟩
    cases own

end Steps

structure Quiet (s : State) : Prop where
  rooted : Rooted s.root
  calls : s.calls = ∅

theorem quiet_sound {s : State} (quiet : Quiet s) : Sound s := by
  have idle : ∀ c, s.call c = none := by
    intro c
    unfold State.call
    rw [quiet.calls]
    rfl
  have nobody : ∀ c, ownOf s c = none := by
    intro c
    unfold ownOf
    rw [idle]
    rfl
  exact {
    rooted := quiet.rooted
    numbered := fun c call found => by rw [idle] at found; cases found
    temporary := fun c call temp found => by rw [idle] at found; cases found
    apart := fun c c' temp temp' own => by rw [nobody] at own; cases own
    filled := fun c call found => by rw [idle] at found; cases found
    closed := fun c call inode found => by rw [idle] at found; cases found }

theorem run_sound {start s : State} {events : List Event} (quiet : Quiet start)
    (taken : run step start events = some s) : Sound s :=
  run_invariant Sound step_sound (quiet_sound quiet) taken

section Histories
variable {start s : State} {events : List Event}

theorem run_numbered (quiet : Quiet start) (taken : run step start events = some s) :
    ∀ e ∈ events, ∀ c, about e = some c → c < s.next := by
  refine history_invariant (fun front s => ∀ e ∈ front, ∀ c, about e = some c → c < s.next) nofun ?_ taken
  intro front s e t reached known next e' member c own
  have sound := run_sound quiet reached
  have later : s.next ≤ t.next := by
    rcases step_careful sound next with ⟨_,_,_,_,later,_⟩ | same
    · exact later
    · rw [same]
  rcases List.mem_append.mp member with old | new
  · exact Nat.lt_of_lt_of_le (known e' old c own) later
  · rw [List.mem_singleton.mp new] at own
    refine Nat.lt_of_lt_of_le ?_ later
    cases step_cases next with
    | started => cases own
    | crashed => cases own
    | advanced found =>
      cases own
      exact sound.numbered _ _ found
    | failed found =>
      cases own
      exact sound.numbered _ _ found

/-- The rule for what is known of the calls of a run: of a call when it starts, of
    a call that moves, and of one that does not. -/
theorem call_history (quiet : Quiet start) (known : List Event → State → Nat → Call → Prop)
    (begins : ∀ {front s op t}, run step start front = some s → step s (.start op) = some t →
      (∀ e ∈ front, about e ≠ some s.next) → known (front ++ [.start op]) t s.next op.call)
    (advances : ∀ {front s t c choice before after op}, run step start front = some s →
      step s (.advance c choice) = some t → s.call c = some before →
      before.advance s.root choice = some (after, op) → t.root = Root.performed s.root op →
      known front s c before → known (front ++ [.advance c choice]) t c after)
    (fails : ∀ {front s t c kind before after}, run step start front = some s →
      step s (.fail c kind) = some t → s.call c = some before → Fails kind before after →
      known front s c before → known (front ++ [.fail c kind]) t c after)
    (stays : ∀ {front s e t c call}, run step start front = some s → step s e = some t →
      s.call c = some call → about e ≠ some c → known front s c call → known (front ++ [e]) t c call)
    (taken : run step start events = some s) :
    ∀ c call, s.call c = some call → known events s c call := by
  refine history_invariant (fun front s => ∀ c call, s.call c = some call → known front s c call)
    ?_ ?_ taken
  · intro c call found
    unfold State.call at found
    rw [quiet.calls] at found
    cases found
  · intro front s e t reached all next c call has
    cases step_cases next with
    | started op =>
      rcases setCall_cases has with ⟨rfl,rfl⟩ | ⟨different,found⟩
      · refine begins reached next ?_
        intro e member own
        exact Nat.lt_irrefl _ (run_numbered quiet reached e member _ own)
      · exact stays reached next found nofun (all c call found)
    | @advanced moved choice before after op found computed _ =>
      rcases setCall_cases has with ⟨rfl,rfl⟩ | ⟨different,found'⟩
      · exact advances reached next found computed rfl (all c before found)
      · refine stays reached next found' ?_ (all c call found')
        intro same
        exact different (Option.some.inj same).symm
    | @failed moved kind before after found moves =>
      rcases setCall_cases has with ⟨rfl,rfl⟩ | ⟨different,found'⟩
      · exact fails reached next found moves (all c before found)
      · refine stays reached next found' ?_ (all c call found')
        intro same
        exact different (Option.some.inj same).symm
    | crashed => cases has

end Histories

end SealedFiles
