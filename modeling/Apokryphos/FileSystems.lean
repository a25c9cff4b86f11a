import Mathlib.Data.Finmap

/-!
Files as a file system keeps them. A name leads to an inode, the inode has the
contents, and whoever has opened the inode does not need the name any more. A
name is reached through its directories. What an operation changes in a
directory is a value of its own, so that the changes of a run can be replayed,
all of them or only those that survive a power failure.
-/
namespace FileSystems
variable {P D : Type}

/-- `synced` says whether the contents have reached the medium. -/
structure Inode where
  data : List UInt8
  synced : Bool
  deriving DecidableEq

structure Tree (P D : Type) where
  dirs : List D
  names : AList (fun _ : P => Nat)

inductive Change (P D : Type) where
  | mkdir (dir : D)
  | link (path : P) (inode : Nat)
  | rename (src dst : P) (inode : Nat)
  | unlink (path : P)
  deriving DecidableEq

structure Disk (P D : Type) where
  inodes : List Inode
  tree : Tree P D

inductive Operation (P D : Type) where
  | mkdir (dir : D)
  | create (path : P)
  | write (inode : Nat) (piece : List UInt8)
  | fsync (inode : Nat)
  | rename (src dst : P)
  | unlink (path : P)
  deriving DecidableEq

def Disk.inodesAfter (d : Disk P D) : Operation P D → List Inode
  | .create _ => d.inodes ++ [⟨[], false⟩]
  | .write inode piece => d.inodes.modify inode fun f => ⟨f.data ++ piece, false⟩
  | .fsync inode => d.inodes.modify inode fun f => { f with synced := true }
  | .mkdir _ | .rename _ _ | .unlink _ => d.inodes

theorem inodesAfter_grown (d : Disk P D) (op : Operation P D) :
    d.inodes.length ≤ (d.inodesAfter op).length := by
  cases op <;> simp [Disk.inodesAfter]

section Changes
variable [DecidableEq P]

def Tree.change (t : Tree P D) : Change P D → Tree P D
  | .mkdir dir => { t with dirs := dir :: t.dirs }
  | .link path inode => { t with names := t.names.insert path inode }
  | .rename src dst inode => { t with names := (t.names.erase src).insert dst inode }
  | .unlink path => { t with names := t.names.erase path }

def Tree.replay (t : Tree P D) (changes : List (Change P D)) : Tree P D := changes.foldl Tree.change t

def Change.entry (path : P) : Change P D → Option (Option Nat)
  | .mkdir _ => none
  | .link made inode => if path = made then some (some inode) else none
  | .rename src dst inode =>
    if path = dst then some (some inode) else if path = src then some none else none
  | .unlink gone => if path = gone then some none else none

theorem change_lookup (t : Tree P D) (c : Change P D) (path : P) :
    (t.change c).names.lookup path = (c.entry path).getD (t.names.lookup path) := by
  cases c with
  | mkdir dir => rfl
  | link made inode =>
    unfold Tree.change Change.entry
    by_cases same : path = made
    · subst same
      simp
    · simp [same]
  | rename src dst inode =>
    unfold Tree.change Change.entry
    by_cases made : path = dst
    · subst made
      simp
    · by_cases gone : path = src
      · subst gone
        simp [made, AList.lookup_insert_ne made]
      · simp [made, gone, AList.lookup_insert_ne made, AList.lookup_erase_ne gone]
  | unlink gone =>
    unfold Tree.change Change.entry
    by_cases same : path = gone
    · subst same
      simp
    · simp [same, AList.lookup_erase_ne same]

theorem change_dirs {t : Tree P D} {dir : D} (c : Change P D) (known : dir ∈ t.dirs) :
    dir ∈ (t.change c).dirs := by
  cases c with
  | mkdir made => exact List.mem_cons_of_mem made known
  | link | rename | unlink => exact known

theorem replay_lookup (holds : Option Nat → Prop) {t : Tree P D} {path : P}
    (start : holds (t.names.lookup path)) {changes : List (Change P D)}
    (made : ∀ c ∈ changes, ∀ entry, c.entry path = some entry → holds entry) :
    holds ((t.replay changes).names.lookup path) := by
  induction changes generalizing t with
  | nil => exact start
  | cons c rest ih =>
    obtain ⟨first,later⟩ := List.forall_mem_cons.mp made
    refine ih ?_ later
    rw [change_lookup]
    cases concerns : c.entry path with
    | none => exact start
    | some entry => exact first entry concerns

theorem replay_dirs {t : Tree P D} {dir : D} (known : dir ∈ t.dirs) (changes : List (Change P D)) :
    dir ∈ (t.replay changes).dirs := by
  induction changes generalizing t with
  | nil => exact known
  | cons c rest ih => exact ih (change_dirs c known)

end Changes

section Operations
variable [DecidableEq P] [DecidableEq D]

/-- A name is found only below directories that exist. -/
def Tree.find (parents : P → List D) (t : Tree P D) (path : P) : Option Nat :=
  if ∀ dir ∈ parents path, dir ∈ t.dirs then t.names.lookup path else none

theorem find_eq {parents : P → List D} {t : Tree P D} {path : P}
    (housed : ∀ inode, t.names.lookup path = some inode → ∀ dir ∈ parents path, dir ∈ t.dirs) :
    t.find parents path = t.names.lookup path := by
  unfold Tree.find
  split
  · rfl
  · rename_i missing
    cases found : t.names.lookup path with
    | none => rfl
    | some inode => exact absurd (housed inode found) missing

def Disk.changeOf (d : Disk P D) : Operation P D → Option (Change P D)
  | .mkdir dir => if dir ∈ d.tree.dirs then none else some (.mkdir dir)
  | .create path => some (.link path d.inodes.length)
  | .write _ _ | .fsync _ => none
  | .rename src dst => (d.tree.names.lookup src).map (.rename src dst)
  | .unlink path => some (.unlink path)

def Disk.perform (d : Disk P D) (op : Operation P D) : Disk P D where
  inodes := d.inodesAfter op
  tree := ((d.changeOf op).map d.tree.change).getD d.tree

def Disk.entryOf (d : Disk P D) (op : Operation P D) (path : P) : Option (Option Nat) :=
  (d.changeOf op).bind (Change.entry path)

theorem perform_lookup (d : Disk P D) (op : Operation P D) (path : P) :
    (d.perform op).tree.names.lookup path =
      (d.entryOf op path).getD (d.tree.names.lookup path) := by
  unfold Disk.perform Disk.entryOf
  cases d.changeOf op with
  | none => rfl
  | some c => exact change_lookup d.tree c path

theorem perform_dirs {d : Disk P D} {dir : D} (op : Operation P D) (known : dir ∈ d.tree.dirs) :
    dir ∈ (d.perform op).tree.dirs := by
  unfold Disk.perform
  cases d.changeOf op with
  | none => exact known
  | some c => exact change_dirs c known

theorem entryOf_mkdir (d : Disk P D) (dir : D) (path : P) : d.entryOf (.mkdir dir) path = none := by
  simp only [Disk.entryOf, Disk.changeOf]
  split <;> rfl

theorem entryOf_create (d : Disk P D) (made path : P) :
    d.entryOf (.create made) path = if path = made then some (some d.inodes.length) else none := rfl

theorem changeOf_rename {d : Disk P D} {src dst : P} {inode : Nat}
    (linked : d.tree.names.lookup src = some inode) :
    d.changeOf (.rename src dst) = some (.rename src dst inode) := by
  simp only [Disk.changeOf, linked, Option.map_some]

theorem entryOf_rename {d : Disk P D} {src dst : P} {inode : Nat}
    (linked : d.tree.names.lookup src = some inode) (path : P) :
    d.entryOf (.rename src dst) path =
      if path = dst then some (some inode) else if path = src then some none else none := by
  unfold Disk.entryOf
  rw [changeOf_rename linked]
  rfl

theorem entryOf_unlink (d : Disk P D) (gone path : P) :
    d.entryOf (.unlink gone) path = if path = gone then some none else none := rfl

end Operations

end FileSystems
