import Apokryphos.BlockPaths

/-!
The probe of the block root at startup. It fills a temporary file in the root,
gives it the name `.startup_probe` unless that is taken, and removes it. Every
system call may fail. Nobody looks at the outcome of a removal, so that a file
stays where a removal fails.
-/
namespace StartupProbe
open BlockPaths Digests FileSystems LocalFs PathTexts

abbrev RootDir := Disk String String

inductive RootState where
  | missing
  | notDirectory
  | directory (dir : RootDir)

inductive StorageInitError where
  | rootMissing (path : PathText)
  | rootNotDirectory (path : PathText)
  | rootNotWritable (path : PathText) (source : IoErrorKind)
  deriving DecidableEq

def StorageInitError.rootPath : StorageInitError → PathText
  | .rootMissing path | .rootNotDirectory path | .rootNotWritable path _ => path

/-- The system calls that fail, and how. A write may transfer some bytes before
    it does. `discard` is the removal of a temporary file that is dropped. -/
structure Failures where
  metadata : Option IoErrorKind
  create : Option IoErrorKind
  write : Option (Nat × IoErrorKind)
  sync : Option IoErrorKind
  persist : Option IoErrorKind
  unlink : Option IoErrorKind
  discard : Option IoErrorKind

def noFailures : Failures := ⟨none, none, none, none, none, none, none⟩

def Free (dir : RootDir) (name : String) : Prop :=
  dir.tree.names.lookup name = none ∧ name ∉ dir.tree.dirs

instance (dir : RootDir) (name : String) : Decidable (Free dir name) :=
  inferInstanceAs (Decidable (_ ∧ _))

def probeBytes : Bytes := utf8 "probe"

section Probe
variable (failures : Failures) (temp : String)

/-- `O_EXCL`: the name must be free, after all attempts to find one. -/
def createTemp (dir : RootDir) : Except IoErrorKind RootDir :=
  match failures.create with
  | some kind => .error kind
  | none => if Free dir temp then .ok (dir.perform (.create temp)) else .error .other

/-- `write_all` and `sync_all`. -/
def fill (inode : Nat) (dir : RootDir) : RootDir × Except IoErrorKind Unit :=
  match failures.write with
  | some (count, kind) => (dir.perform (.write inode (probeBytes.take count)), .error kind)
  | none =>
    let written := dir.perform (.write inode probeBytes)
    match failures.sync with
    | some kind => (written, .error kind)
    | none => (written.perform (.fsync inode), .ok ())

/-- `EEXIST` where the name is taken. -/
def persistNoclobber (dir : RootDir) : Except IoErrorKind RootDir :=
  match failures.persist with
  | some kind => .error kind
  | none =>
    if Free dir probeFilename then .ok (dir.perform (.rename temp probeFilename))
    else .error .other

def dropTemp (dir : RootDir) : RootDir :=
  if failures.discard.isSome then dir else dir.perform (.unlink temp)

def removeProbe (dir : RootDir) : RootDir :=
  if failures.unlink.isSome then dir else dir.perform (.unlink probeFilename)

def probeWrite (dir : RootDir) : RootDir × Except IoErrorKind Unit :=
  match createTemp failures temp dir with
  | .error kind => (dir, .error kind)
  | .ok created =>
    match fill failures dir.inodes.length created with
    | (filled, .error kind) => (dropTemp failures temp filled, .error kind)
    | (filled, .ok ()) =>
      match persistNoclobber failures temp filled with
      -- The error owns the file and drops it.
      | .error kind => (dropTemp failures temp filled, .error kind)
      | .ok persisted => (removeProbe failures persisted, .ok ())

end Probe

def metadataError (path : PathText) (kind : IoErrorKind) : StorageInitError :=
  if kind = .notFound then .rootMissing path else .rootNotWritable path kind

def runInitProbe (path : PathText) (failures : Failures) (random : String) (root : RootState) :
    RootState × Except StorageInitError Unit :=
  match failures.metadata, root with
  | some kind, root => (root, .error (metadataError path kind))
  | none, .missing => (.missing, .error (metadataError path .notFound))
  | none, .notDirectory => (.notDirectory, .error (.rootNotDirectory path))
  | none, .directory dir =>
    let probed := probeWrite failures (tempName ".probe." random) dir
    (.directory probed.1, probed.2.mapError (.rootNotWritable path))

def init (path : PathText) (failures : Failures) (random : String) (root : RootState) :
    RootState × Except StorageInitError PathText :=
  let probed := runInitProbe path failures random root
  (probed.1, probed.2.map fun () => path)

structure Left (left : Option String) (before after : RootDir) : Prop where
  names : ∀ name, after.tree.names.lookup name =
    if left = some name then some before.inodes.length else before.tree.names.lookup name
  dirs : after.tree.dirs = before.tree.dirs
  contents : ∀ i < before.inodes.length, after.inodes[i]? = before.inodes[i]?
  vacant : ∀ name, left = some name → Free before name

theorem left_refl (dir : RootDir) : Left none dir dir where
  names := fun _ => rfl
  dirs := rfl
  contents := fun _ _ => rfl
  vacant := nofun

theorem left_free {left : Option String} {before after : RootDir} {name : String}
    (kept : Left left before after) (other : left ≠ some name) :
    Free after name ↔ Free before name := by
  simp only [Free, kept.names name, if_neg other, kept.dirs]

theorem left_created {dir : RootDir} {temp : String} (free : Free dir temp) :
    Left (some temp) dir (dir.perform (.create temp)) where
  names := by
    intro name
    rw [perform_lookup, entryOf_create]
    by_cases same : name = temp
    · simp [same]
    · simp [same, Ne.symm same]
  dirs := rfl
  contents := by
    intro i inside
    simp [Disk.perform, Disk.inodesAfter, List.getElem?_append_left inside]
  vacant := by
    intro name same
    cases same
    exact free

section Left
variable {before after : RootDir}

theorem left_new {left : Option String} {op : Operation String String}
    (kept : Left left before after) (unnamed : after.changeOf op = none)
    (old : ∀ i, i ≠ before.inodes.length → (after.inodesAfter op)[i]? = after.inodes[i]?) :
    Left left before (after.perform op) := by
  have tree : (after.perform op).tree = after.tree := by
    simp only [Disk.perform, unnamed, Option.map_none, Option.getD_none]
  refine ⟨?_,?_,?_,kept.vacant⟩
  · rw [tree]
    exact kept.names
  · rw [tree]
    exact kept.dirs
  · intro i inside
    exact (old i (Nat.ne_of_lt inside)).trans (kept.contents i inside)

theorem left_write {left : Option String} (kept : Left left before after) (piece : Bytes) :
    Left left before (after.perform (.write before.inodes.length piece)) := by
  refine left_new kept rfl fun i other => ?_
  simp [Disk.inodesAfter, Ne.symm other]

theorem left_fsync {left : Option String} (kept : Left left before after) :
    Left left before (after.perform (.fsync before.inodes.length)) := by
  refine left_new kept rfl fun i other => ?_
  simp [Disk.inodesAfter, Ne.symm other]

theorem left_unlink {name : String} (kept : Left (some name) before after) :
    Left none before (after.perform (.unlink name)) where
  names := by
    intro other
    rw [perform_lookup, entryOf_unlink]
    by_cases same : other = name
    · subst same
      simp [(kept.vacant other rfl).1]
    · simp [same, kept.names other, Ne.symm same]
  dirs := kept.dirs
  contents := kept.contents
  vacant := nofun

theorem left_renamed {name other : String} (kept : Left (some name) before after)
    (different : name ≠ other) (free : Free after other) :
    Left (some other) before (after.perform (.rename name other)) where
  names := by
    intro any
    have linked : after.tree.names.lookup name = some before.inodes.length := by
      rw [kept.names name, if_pos rfl]
    rw [perform_lookup, entryOf_rename linked]
    by_cases new : any = other
    · simp [new]
    · by_cases old : any = name
      · subst old
        simp [new, Ne.symm new, (kept.vacant any rfl).1]
      · simp [new, Ne.symm new, old, Ne.symm old, kept.names any]
  dirs := by
    have linked : after.tree.names.lookup name = some before.inodes.length := by
      rw [kept.names name, if_pos rfl]
    simp only [Disk.perform, changeOf_rename linked]
    exact kept.dirs
  contents := kept.contents
  vacant := by
    intro any same
    cases same
    exact (left_free kept (by simpa using different)).mp free

end Left

theorem tempName_probe (random : String) : tempName ".probe." random ≠ probeFilename := by
  intro same
  have second := congrArg (fun name : String => name.toList[1]?) same
  simp [tempName, probeFilename, String.toList_append] at second

inductive Probed (failures : Failures) (temp : String) (before : RootDir) :
    RootDir × Except IoErrorKind Unit → Prop where
  | refused (kind : IoErrorKind) : Probed failures temp before (before, .error kind)
  | dropped {after : RootDir} (kind : IoErrorKind)
      (left : Left (if failures.discard.isSome then some temp else none) before after) :
      Probed failures temp before (after, .error kind)
  | passed {after : RootDir} (vacant : Free before probeFilename)
      (left : Left (if failures.unlink.isSome then some probeFilename else none) before after) :
      Probed failures temp before (after, .ok ())

theorem left_dropTemp {failures : Failures} {temp : String} {before after : RootDir}
    (kept : Left (some temp) before after) :
    Left (if failures.discard.isSome then some temp else none) before
      (dropTemp failures temp after) := by
  unfold dropTemp
  split
  · exact kept
  · exact left_unlink kept

theorem left_removeProbe {failures : Failures} {before after : RootDir}
    (kept : Left (some probeFilename) before after) :
    Left (if failures.unlink.isSome then some probeFilename else none) before
      (removeProbe failures after) := by
  unfold removeProbe
  split
  · exact kept
  · exact left_unlink kept

theorem left_fill {failures : Failures} {temp : String} {before created filled : RootDir}
    {result : Except IoErrorKind Unit} (kept : Left (some temp) before created)
    (done : fill failures before.inodes.length created = (filled, result)) :
    Left (some temp) before filled := by
  unfold fill at done
  split at done
  · cases done
    exact left_write kept _
  · dsimp only at done
    split at done
    · cases done
      exact left_write kept _
    · cases done
      exact left_fsync (left_write kept _)

theorem probeWrite_cases (failures : Failures) {temp : String} (different : temp ≠ probeFilename)
    (dir : RootDir) : Probed failures temp dir (probeWrite failures temp dir) := by
  unfold probeWrite
  cases made : createTemp failures temp dir with
  | error kind => exact .refused kind
  | ok created =>
    have kept : Left (some temp) dir created := by
      unfold createTemp at made
      split at made
      · cases made
      · split at made
        · rename_i free
          cases made
          exact left_created free
        · cases made
    dsimp only
    cases written : fill failures dir.inodes.length created with
    | mk filled result =>
      have full := left_fill kept written
      cases result with
      | error kind => exact .dropped kind (left_dropTemp full)
      | ok done =>
        dsimp only
        cases moved : persistNoclobber failures temp filled with
        | error kind => exact .dropped kind (left_dropTemp full)
        | ok persisted =>
          unfold persistNoclobber at moved
          split at moved
          · cases moved
          · split at moved
            · rename_i free
              cases moved
              have named := left_renamed full different free
              exact .passed (named.vacant _ rfl) (left_removeProbe named)
            · cases moved

theorem probeWrite_healthy {temp : String} (different : temp ≠ probeFilename) {dir : RootDir}
    (free : Free dir temp) (vacant : Free dir probeFilename) :
    (probeWrite noFailures temp dir).2 = .ok () := by
  have created : createTemp noFailures temp dir = .ok (dir.perform (.create temp)) := if_pos free
  have full := left_fsync (left_write (left_created free) probeBytes)
  have still := (left_free full (by simpa using different)).mpr vacant
  have filled : fill noFailures dir.inodes.length (dir.perform (.create temp)) =
      (((dir.perform (.create temp)).perform (.write dir.inodes.length probeBytes)).perform
        (.fsync dir.inodes.length), .ok ()) := rfl
  simp only [probeWrite, created, filled]
  rw [persistNoclobber]
  simp only [noFailures, if_pos still]

inductive RootLeft : Option String → RootState → RootState → Prop where
  | missing : RootLeft none .missing .missing
  | notDirectory : RootLeft none .notDirectory .notDirectory
  | directory {left : Option String} {before after : RootDir} (kept : Left left before after) :
      RootLeft left (.directory before) (.directory after)

theorem rootLeft_refl (root : RootState) : RootLeft none root root := by
  cases root with
  | missing => exact .missing
  | notDirectory => exact .notDirectory
  | directory dir => exact .directory (left_refl dir)

inductive Started (path : PathText) (failures : Failures) (temp : String) (root : RootState) :
    RootState × Except StorageInitError Unit → Prop where
  | refused {error : StorageInitError} (named : error.rootPath = path) :
      Started path failures temp root (root, .error error)
  | dropped {before after : RootDir} (kind : IoErrorKind) (rooted : root = .directory before)
      (left : Left (if failures.discard.isSome then some temp else none) before after) :
      Started path failures temp root (.directory after, .error (.rootNotWritable path kind))
  | passed {before after : RootDir} (rooted : root = .directory before)
      (vacant : Free before probeFilename)
      (left : Left (if failures.unlink.isSome then some probeFilename else none) before after) :
      Started path failures temp root (.directory after, .ok ())

theorem runInitProbe_cases (path : PathText) (failures : Failures) (random : String)
    (root : RootState) : Started path failures (tempName ".probe." random) root
      (runInitProbe path failures random root) := by
  have named (kind : IoErrorKind) : (metadataError path kind).rootPath = path := by
    unfold metadataError
    split <;> rfl
  unfold runInitProbe
  split
  · exact .refused (named _)
  · exact .refused (named _)
  · exact .refused rfl
  · rename_i dir _
    have probed := probeWrite_cases failures (tempName_probe random) dir
    dsimp only
    generalize probeWrite failures (tempName ".probe." random) dir = result at probed
    cases probed with
    | refused kind => exact .refused rfl
    | dropped kind left => exact .dropped kind rfl left
    | passed vacant left => exact .passed rfl vacant left

def Choosable (random : String) : RootState → Prop
  | .directory dir => Free dir (tempName ".probe." random)
  | .missing | .notDirectory => True

instance (random : String) : (root : RootState) → Decidable (Choosable random root)
  | .directory dir => inferInstanceAs (Decidable (Free dir _))
  | .missing | .notDirectory => inferInstanceAs (Decidable True)

theorem start_error {path : PathText} {failures : Failures} {random : String} {root : RootState}
    {error : StorageInitError} (discarded : failures.discard = none)
    (failed : (runInitProbe path failures random root).2 = .error error) :
    RootLeft none root (runInitProbe path failures random root).1 := by
  have started := runInitProbe_cases path failures random root
  generalize runInitProbe path failures random root = result at started failed
  cases started with
  | refused named => exact rootLeft_refl root
  | dropped kind rooted left =>
    subst rooted
    rw [discarded] at left
    exact .directory left
  | passed => cases failed

theorem start_ok {path : PathText} {failures : Failures} {random : String} {root : RootState}
    (passed : (runInitProbe path failures random root).2 = .ok ()) :
    ∃ before after, root = .directory before ∧ Free before probeFilename ∧
      (runInitProbe path failures random root).1 = .directory after ∧
      Left (if failures.unlink.isSome then some probeFilename else none) before after := by
  have started := runInitProbe_cases path failures random root
  generalize runInitProbe path failures random root = result at started passed
  cases started with
  | refused | dropped => cases passed
  | passed rooted vacant left => exact ⟨_,_,rooted,vacant,rfl,left⟩

/-- The file of a probe that could not be removed refuses every later start. -/
theorem start_blocked {dir : RootDir} (path : PathText) (failures : Failures) (random : String)
    (taken : ¬ Free dir probeFilename) :
    ∃ error, (runInitProbe path failures random (.directory dir)).2 = .error error := by
  cases result : (runInitProbe path failures random (.directory dir)).2 with
  | error error => exact ⟨error,rfl⟩
  | ok done =>
    obtain ⟨before,after,same,vacant,_⟩ := start_ok result
    cases same
    exact absurd vacant taken

theorem start_healthy {path : PathText} {random : String} {dir : RootDir}
    (vacant : Free dir probeFilename) (chosen : Choosable random (.directory dir)) :
    (runInitProbe path noFailures random (.directory dir)).2 = .ok () := by
  have passed := probeWrite_healthy (tempName_probe random) chosen vacant
  simp only [runInitProbe, noFailures] at passed ⊢
  rw [passed]
  rfl

/-- A start leaves no trace, unless it passes and cannot remove its file. Then
    the file stays, and no later start passes. -/
theorem probe_trace (path : PathText) (failures : Failures) (random : String) (root : RootState) :
    (∀ error, (runInitProbe path failures random root).2 = .error error → failures.discard = none →
      RootLeft none root (runInitProbe path failures random root).1) ∧
    ((runInitProbe path failures random root).2 = .ok () → failures.unlink = none →
      RootLeft none root (runInitProbe path failures random root).1 ∧
      ∀ later, Choosable later (runInitProbe path failures random root).1 →
        (runInitProbe path noFailures later (runInitProbe path failures random root).1).2 = .ok ()) ∧
    ((runInitProbe path failures random root).2 = .ok () → failures.unlink ≠ none →
      RootLeft (some probeFilename) root (runInitProbe path failures random root).1 ∧
      ∀ others later, ∃ error, (runInitProbe path others later
        (runInitProbe path failures random root).1).2 = .error error) := by
  refine ⟨?_,?_,?_⟩
  · intro error failed discarded
    exact start_error discarded failed
  · intro passed unlinked
    obtain ⟨before,after,rfl,vacant,result,left⟩ := start_ok passed
    rw [result]
    simp only [unlinked, Option.isSome_none, Bool.false_eq_true, if_false] at left
    refine ⟨.directory left,fun later chosen => ?_⟩
    exact start_healthy ((left_free left (by simp)).mpr vacant) chosen
  · intro passed lingering
    obtain ⟨before,after,rfl,vacant,result,left⟩ := start_ok passed
    rw [result]
    rw [if_pos (Option.isSome_iff_ne_none.mpr lingering)] at left
    refine ⟨.directory left,fun others later => start_blocked path others later fun free => ?_⟩
    have present := left.names probeFilename
    rw [if_pos rfl, free.1] at present
    cases present

def emptyRoot : RootState := .directory ⟨[], ⟨[], ∅⟩⟩

theorem probe_file_lingers :
    let failures := { noFailures with unlink := some .permissionDenied }
    let first := runInitProbe "/blocks".toList failures "a" emptyRoot
    first.2 = .ok () ∧ ¬ RootLeft none emptyRoot first.1 ∧ Choosable "b" first.1 ∧
      (runInitProbe "/blocks".toList noFailures "b" first.1).2 ≠ .ok () := by
  refine ⟨by decide,?_,by decide,by decide⟩
  intro kept
  cases kept with
  | directory left => exact absurd (left.names probeFilename) (by decide)

end StartupProbe
