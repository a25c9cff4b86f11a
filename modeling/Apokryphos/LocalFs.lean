import Apokryphos.BlockStorage
import Apokryphos.FileSystems
import Apokryphos.StepRuns

/-!
The storage provider over the local file system. Every call runs on a thread of
its own, so its system calls stand between those of any other call. A put makes
the two shard directories and sets their permissions, fills a temporary file in
the shard directory, syncs it and renames it. Any system call may fail, and the
process may crash anywhere.
-/
namespace LocalFs
open BlockStorage Digests FileSystems StepRuns

inductive IoErrorKind where
  | notFound
  | storageFull
  | permissionDenied
  | other
  deriving DecidableEq, Repr

def classify : IoErrorKind → BackendFailureCause
  | .storageFull => .diskFull
  | .permissionDenied => .permissionDenied
  | .notFound | .other => .ioError

def backend (kind : IoErrorKind) : StorageError := .backend (classify kind)

abbrev Root := Disk BlockPath (List String)

def parents (path : BlockPath) : List (List String) := [[path.top], [path.top, path.mid]]

def find (root : Root) (path : BlockPath) : Option Nat := root.tree.find parents path

def tempPath (id : BlockId) (random : String) : BlockPath :=
  ⟨id.shardTop, id.shardMid, ".put." ++ random ++ ".tmp"⟩

structure Temp where
  path : BlockPath
  inode : Nat
  deriving DecidableEq

/-- The system calls of `run_put`, in their order. A temporary file that is
    dropped is removed. -/
inductive PutPhase where
  | makeTop
  | makeShard
  | permitTop
  | permitShard
  | createTemp
  | writing (temp : Temp) (rest : Bytes)
  | syncing (temp : Temp)
  | renaming (temp : Temp)
  | dropping (temp : Temp) (kind : IoErrorKind)
  | persisted
  | returned (result : Except StorageError Unit)
  deriving DecidableEq

inductive GetPhase where
  | opening
  | reading (inode : Nat) (got : Bytes)
  | returned (result : Except StorageError Bytes)
  deriving DecidableEq

/-- The other two operations are one system call each. -/
inductive Call where
  | put (id : BlockId) (payload : Bytes) (phase : PutPhase)
  | get (id : BlockId) (phase : GetPhase)
  | delete (id : BlockId) (result : Option (Except StorageError Unit))
  | exists_ (id : BlockId) (result : Option (Except StorageError Bool))
  deriving DecidableEq

inductive Op where
  | put (id : BlockId) (payload : Bytes)
  | get (id : BlockId)
  | delete (id : BlockId)
  | exists_ (id : BlockId)
  deriving DecidableEq

def Op.call : Op → Call
  | .put id payload => .put id payload .makeTop
  | .get id => .get id .opening
  | .delete id => .delete id none
  | .exists_ id => .exists_ id none

/-- What the system chooses in a step: the random part of a name, and how many
    bytes it transfers. -/
structure Choice where
  random : String
  count : Nat
  deriving DecidableEq

abbrev FileOp := Operation BlockPath (List String)

def advancePut (root : Root) (choice : Choice) (id : BlockId) (payload : Bytes) :
    PutPhase → Option (PutPhase × Option FileOp)
  | .makeTop => some (.makeShard, some (.mkdir [id.shardTop]))
  | .makeShard =>
    if [id.shardTop] ∈ root.tree.dirs then
      some (.permitTop, some (.mkdir [id.shardTop, id.shardMid]))
    else none
  | .permitTop => some (.permitShard, none)
  | .permitShard => some (.createTemp, none)
  -- `O_EXCL`: the name must be free.
  | .createTemp =>
    let path := tempPath id choice.random
    if root.tree.names.lookup path = none ∧ ∀ dir ∈ parents path, dir ∈ root.tree.dirs then
      some (.writing ⟨path, root.inodes.length⟩ payload, some (.create path))
    else none
  | .writing temp [] => some (.syncing temp, none)
  | .writing temp rest =>
    if 0 < choice.count ∧ choice.count ≤ rest.length then
      some (.writing temp (rest.drop choice.count),
        some (.write temp.inode (rest.take choice.count)))
    else none
  | .syncing temp => some (.renaming temp, some (.fsync temp.inode))
  | .renaming temp => some (.persisted, some (.rename temp.path (blockPath id)))
  | .dropping temp kind => some (.returned (.error (backend kind)), some (.unlink temp.path))
  | .persisted => some (.returned (.ok ()), none)
  | .returned _ => none

def failPut (kind : IoErrorKind) : PutPhase → Option PutPhase
  | .makeTop | .makeShard | .permitTop | .permitShard | .createTemp =>
    some (.returned (.error (backend kind)))
  | .writing temp _ | .syncing temp | .renaming temp => some (.dropping temp kind)
  -- Nobody looks at the outcome of the removal.
  | .dropping _ first => some (.returned (.error (backend first)))
  | .persisted | .returned _ => none

def advanceGet (root : Root) (choice : Choice) (id : BlockId) : GetPhase → Option GetPhase
  | .opening =>
    match find root (blockPath id) with
    | none => some (.returned (.error .notFound))
    | some inode => some (.reading inode [])
  | .reading inode got =>
    (root.inodes[inode]?).bind fun f =>
      if f.data.length ≤ got.length then some (.returned (.ok got))
      else if 0 < choice.count then
        some (.reading inode (got ++ (f.data.drop got.length).take choice.count))
      else none
  | .returned _ => none

def Call.advance (root : Root) (choice : Choice) : Call → Option (Call × Option FileOp)
  | .put id payload phase =>
    (advancePut root choice id payload phase).map fun next => (.put id payload next.1, next.2)
  | .get id phase => (advanceGet root choice id phase).map fun next => (.get id next, none)
  | .delete id none =>
    match find root (blockPath id) with
    -- A missing block counts as deleted.
    | none => some (.delete id (some (.ok ())), none)
    | some _ => some (.delete id (some (.ok ())), some (.unlink (blockPath id)))
  | .exists_ id none => some (.exists_ id (some (.ok (find root (blockPath id)).isSome)), none)
  | .delete _ (some _) | .exists_ _ (some _) => none

/-- That a block is missing is an outcome of the call, not a failure of the
    system, wherever a path is looked up. -/
def Call.fail (kind : IoErrorKind) : Call → Option Call
  | .put id payload phase => (failPut kind phase).map fun next => .put id payload next
  | .get id .opening | .get id (.reading _ _) =>
    if kind = .notFound then none else some (.get id (.returned (.error (backend kind))))
  | .delete id none => if kind = .notFound then none else some (.delete id (some (.error (backend kind))))
  | .exists_ id none => if kind = .notFound then none else some (.exists_ id (some (.error (backend kind))))
  | .get _ (.returned _) | .delete _ (some _) | .exists_ _ (some _) => none

/-- `next` numbers the calls; a number is never used again. -/
structure State where
  root : Root
  calls : AList (fun _ : Nat => Call)
  next : Nat

def State.call (s : State) (c : Nat) : Option Call := s.calls.lookup c

def State.setCall (s : State) (c : Nat) (call : Call) : State :=
  { s with calls := s.calls.insert c call }

inductive Event where
  | start (op : Op)
  | advance (c : Nat) (choice : Choice)
  | fail (c : Nat) (kind : IoErrorKind)
  | crash
  deriving DecidableEq

def Root.performed (root : Root) : Option FileOp → Root
  | none => root
  | some op => root.perform op

def step (s : State) : Event → Option State
  | .start op => some { s.setCall s.next op.call with next := s.next + 1 }
  | .advance c choice => (s.call c).bind fun call =>
    (call.advance s.root choice).map fun next =>
      { s.setCall c next.1 with root := Root.performed s.root next.2 }
  | .fail c kind => (s.call c).bind fun call => (call.fail kind).map (s.setCall c)
  -- The disk stays as it is, the calls are gone.
  | .crash => some { s with calls := ∅ }

inductive PutAdvances (root : Root) (id : BlockId) (payload : Bytes) :
    PutPhase → PutPhase → Option FileOp → Prop where
  | makeTop : PutAdvances root id payload .makeTop .makeShard (some (.mkdir [id.shardTop]))
  | makeShard (below : [id.shardTop] ∈ root.tree.dirs) :
      PutAdvances root id payload .makeShard .permitTop
        (some (.mkdir [id.shardTop, id.shardMid]))
  | permitTop : PutAdvances root id payload .permitTop .permitShard none
  | permitShard : PutAdvances root id payload .permitShard .createTemp none
  | create {random} (free : root.tree.names.lookup (tempPath id random) = none)
      (housed : ∀ dir ∈ parents (tempPath id random), dir ∈ root.tree.dirs) :
      PutAdvances root id payload .createTemp
        (.writing ⟨tempPath id random, root.inodes.length⟩ payload)
        (some (.create (tempPath id random)))
  | write {temp rest count} (count_le : count ≤ rest.length) :
      PutAdvances root id payload (.writing temp rest) (.writing temp (rest.drop count))
        (some (.write temp.inode (rest.take count)))
  | written {temp} : PutAdvances root id payload (.writing temp []) (.syncing temp) none
  | sync {temp} :
      PutAdvances root id payload (.syncing temp) (.renaming temp) (some (.fsync temp.inode))
  | rename {temp} : PutAdvances root id payload (.renaming temp) .persisted
      (some (.rename temp.path (blockPath id)))
  | drop {temp kind} : PutAdvances root id payload (.dropping temp kind)
      (.returned (.error (backend kind))) (some (.unlink temp.path))
  | finish : PutAdvances root id payload .persisted (.returned (.ok ())) none

theorem advancePut_cases {root : Root} {choice : Choice} {id : BlockId} {payload : Bytes}
    {phase next : PutPhase} {op : Option FileOp}
    (taken : advancePut root choice id payload phase = some (next, op)) :
    PutAdvances root id payload phase next op := by
  unfold advancePut at taken
  split at taken
  · cases taken
    exact .makeTop
  · split at taken
    · rename_i below
      cases taken
      exact .makeShard below
    · cases taken
  · cases taken
    exact .permitTop
  · cases taken
    exact .permitShard
  · dsimp only at taken
    split at taken
    · rename_i allowed
      cases taken
      exact .create allowed.1 allowed.2
    · cases taken
  · cases taken
    exact .written
  · split at taken
    · rename_i count
      cases taken
      exact .write count.2
    · cases taken
  · cases taken
    exact .sync
  · cases taken
    exact .rename
  · cases taken
    exact .drop
  · cases taken
    exact .finish
  · cases taken

inductive Advances (root : Root) : Call → Call → Option FileOp → Prop where
  | put {id payload phase next op} (moves : PutAdvances root id payload phase next op) :
      Advances root (.put id payload phase) (.put id payload next) op
  | missing {id} (absent : find root (blockPath id) = none) :
      Advances root (.get id .opening) (.get id (.returned (.error .notFound))) none
  | opened {id inode} (found : find root (blockPath id) = some inode) :
      Advances root (.get id .opening) (.get id (.reading inode [])) none
  | read {id inode got f count} (has : root.inodes[inode]? = some f) :
      Advances root (.get id (.reading inode got))
        (.get id (.reading inode (got ++ (f.data.drop got.length).take count))) none
  | whole {id inode got f} (has : root.inodes[inode]? = some f)
      (complete : f.data.length ≤ got.length) :
      Advances root (.get id (.reading inode got)) (.get id (.returned (.ok got))) none
  | absent {id} (missing : find root (blockPath id) = none) :
      Advances root (.delete id none) (.delete id (some (.ok ()))) none
  | unlink {id inode} (found : find root (blockPath id) = some inode) :
      Advances root (.delete id none) (.delete id (some (.ok ())))
        (some (.unlink (blockPath id)))
  | stat {id} : Advances root (.exists_ id none)
      (.exists_ id (some (.ok (find root (blockPath id)).isSome))) none

theorem advance_cases {root : Root} {choice : Choice} {call next : Call} {op : Option FileOp}
    (taken : call.advance root choice = some (next, op)) : Advances root call next op := by
  unfold Call.advance at taken
  split at taken
  · obtain ⟨moved,put,same⟩ := Option.map_eq_some_iff.mp taken
    cases same
    exact .put (advancePut_cases put)
  · obtain ⟨moved,get,same⟩ := Option.map_eq_some_iff.mp taken
    cases same
    unfold advanceGet at get
    split at get
    · split at get
      · rename_i absent
        cases get
        exact .missing absent
      · rename_i inode found
        cases get
        exact .opened found
    · obtain ⟨f,has,rest⟩ := Option.bind_eq_some_iff.mp get
      split at rest
      · rename_i complete
        cases rest
        exact .whole has complete
      · split at rest
        · cases rest
          exact .read has
        · cases rest
    · cases get
  · split at taken
    · rename_i absent
      cases taken
      exact .absent absent
    · rename_i inode found
      cases taken
      exact .unlink found
  · cases taken
    exact .stat
  · cases taken
  · cases taken

inductive Fails (kind : IoErrorKind) : Call → Call → Prop where
  | early {id payload phase} (before : phase = .makeTop ∨ phase = .makeShard ∨ phase = .permitTop ∨
        phase = .permitShard ∨ phase = .createTemp) :
      Fails kind (.put id payload phase) (.put id payload (.returned (.error (backend kind))))
  | late {id payload temp phase} (holds : phase = .syncing temp ∨ phase = .renaming temp ∨
        ∃ rest, phase = .writing temp rest) :
      Fails kind (.put id payload phase) (.put id payload (.dropping temp kind))
  | dropped {id payload temp first} : Fails kind (.put id payload (.dropping temp first))
      (.put id payload (.returned (.error (backend first))))
  | get {id phase} (busy : phase = .opening ∨ ∃ inode got, phase = .reading inode got) :
      Fails kind (.get id phase) (.get id (.returned (.error (backend kind))))
  | delete {id} : Fails kind (.delete id none) (.delete id (some (.error (backend kind))))
  | exists_ {id} : Fails kind (.exists_ id none) (.exists_ id (some (.error (backend kind))))

theorem fail_cases {kind : IoErrorKind} {call next : Call} (taken : call.fail kind = some next) :
    Fails kind call next := by
  unfold Call.fail at taken
  split at taken
  · obtain ⟨moved,put,same⟩ := Option.map_eq_some_iff.mp taken
    cases same
    unfold failPut at put
    split at put <;> cases put
    all_goals first
      | exact .early (by simp)
      | exact .late (by simp)
      | exact .dropped
  · split at taken
    · cases taken
    · cases taken
      exact .get (.inl rfl)
  · split at taken
    · cases taken
    · cases taken
      exact .get (.inr ⟨_,_,rfl⟩)
  · split at taken
    · cases taken
    · cases taken
      exact .delete
  · split at taken
    · cases taken
    · cases taken
      exact .exists_
  all_goals cases taken

inductive Steps (s : State) : Event → State → Prop where
  | started (op : Op) : Steps s (.start op) { s.setCall s.next op.call with next := s.next + 1 }
  | advanced {c choice call next op} (found : s.call c = some call)
      (taken : call.advance s.root choice = some (next, op)) (moves : Advances s.root call next op) :
      Steps s (.advance c choice) { s.setCall c next with root := Root.performed s.root op }
  | failed {c kind call next} (found : s.call c = some call) (fails : Fails kind call next) :
      Steps s (.fail c kind) (s.setCall c next)
  | crashed : Steps s .crash { s with calls := ∅ }

theorem step_cases {s t : State} {e : Event} (taken : step s e = some t) : Steps s e t := by
  cases e with
  | start op =>
    cases taken
    exact .started op
  | advance c choice =>
    obtain ⟨call,found,rest⟩ := Option.bind_eq_some_iff.mp taken
    obtain ⟨⟨next,op⟩,moved,rfl⟩ := Option.map_eq_some_iff.mp rest
    exact .advanced found moved (advance_cases moved)
  | fail c kind =>
    obtain ⟨call,found,rest⟩ := Option.bind_eq_some_iff.mp taken
    obtain ⟨next,failed,rfl⟩ := Option.map_eq_some_iff.mp rest
    exact .failed found (fail_cases failed)
  | crash =>
    cases taken
    exact .crashed

theorem setCall_same (s : State) (c : Nat) (call : Call) : (s.setCall c call).call c = some call :=
  AList.lookup_insert s.calls

theorem setCall_other {s : State} {c other : Nat} {call : Call} (different : other ≠ c) :
    (s.setCall c call).call other = s.call other :=
  AList.lookup_insert_ne different

theorem setCall_cases {s : State} {c d : Nat} {call found : Call}
    (has : (s.setCall c call).call d = some found) :
    (d = c ∧ found = call) ∨ (d ≠ c ∧ s.call d = some found) := by
  by_cases same : d = c
  · subst same
    rw [setCall_same, Option.some.injEq] at has
    exact Or.inl ⟨rfl,has.symm⟩
  · rw [setCall_other same] at has
    exact Or.inr ⟨same,has⟩

/-- The call that an event is about. A start has no number yet. -/
def about : Event → Option Nat
  | .advance c _ | .fail c _ => some c
  | .start _ | .crash => none

def opOf : Call → Op
  | .put id payload _ => .put id payload
  | .get id _ => .get id
  | .delete id _ => .delete id
  | .exists_ id _ => .exists_ id

theorem advance_op {root : Root} {call next : Call} {op : Option FileOp}
    (moves : Advances root call next op) : opOf next = opOf call := by
  cases moves <;> rfl

theorem fail_op {kind : IoErrorKind} {call next : Call} (fails : Fails kind call next) :
    opOf next = opOf call := by
  cases fails <;> rfl

theorem start_op (op : Op) : opOf op.call = op := by
  cases op <;> rfl

end LocalFs
