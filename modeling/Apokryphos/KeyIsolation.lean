import Apokryphos.KeyIndices
import Apokryphos.RefreshTasks

/-!
Isolation of the two audiences. An install loads the key set of the other
context, checks it against the fetched one and stores the fetched one into its
own context. The load and the store are separate accesses to separate atomics,
so the check speaks about the key set that was loaded, which need not be the
one that is installed when the store happens.
-/
namespace KeyIsolation
open KeyIndices OidcContexts Outcomes RefreshTasks ServerConfig SigningKeys StepRuns

/-- The overlap check looks at the thumbprints alone, and that covers every key that
    either set offers for a token, whatever name its header gives. -/
theorem overlap_check_covers_candidates {first second : JwkSet} {a b : Jwks}
    (parsedA : parseJwks first = .ok a) (parsedB : parseJwks second = .ok b) (tag : AudienceTag) :
    (checkDisjointJwks a b tag = .ok () ↔
      ¬ ∃ tp, tp ∈ a.iterThumbprints ∧ tp ∈ b.iterThumbprints) ∧
    (checkDisjointJwks a b tag = .ok () → ∀ (kid kid' : Option String),
      ∀ key ∈ a.lookupCandidates kid, ∀ key' ∈ b.lookupCandidates kid',
        key.thumbprint ≠ key'.thumbprint) := by
  rw [checkDisjointJwks_ok_iff]
  constructor
  · constructor
    · rintro apart ⟨tp,left,right⟩
      exact apart left right
    · intro none tp left right
      exact none ⟨tp,left,right⟩
  · intro apart kid kid' key offered key' offered' same
    have left := candidate_listed parsedA offered
    have right := candidate_listed parsedB offered'
    rw [← same] at right
    exact apart left right

theorem overlap_check_covers_candidates_two :
    ∃ a b, parseJwks [sampleKey "AAAA"] = .ok a ∧ parseJwks [sampleKey "BBBB"] = .ok b ∧
      checkDisjointJwks a b .admin = .ok () ∧
      ∀ key ∈ a.lookupCandidates none, ∀ key' ∈ b.lookupCandidates (some "name"),
        key.thumbprint ≠ key'.thumbprint := by
  have evaluated : ∃ a ∈ (parseJwks [sampleKey "AAAA"]).toOption,
      ∃ b ∈ (parseJwks [sampleKey "BBBB"]).toOption, checkDisjointJwks a b .admin = .ok () := by
    decide +kernel
  obtain ⟨a,foundA,b,foundB,apart⟩ := evaluated
  have parsedA := toOption_some_iff.mp foundA
  have parsedB := toOption_some_iff.mp foundB
  exact ⟨a,b,parsedA,parsedB,apart,
    (overlap_check_covers_candidates parsedA parsedB .admin).2 apart none (some "name")⟩

def checked : Phase → Option (Jwks × Jwks)
  | .storeJwks _ new seen => some (seen, new)
  | _ => none

theorem counterpart_counterpart (g : AudienceTag) : g.counterpart.counterpart = g := by
  cases g <;> rfl

/-- When an install stores, the other context still holds the key set that this
    install was checked against. -/
def CheckStillCurrent (w : World) (action : Action) : Prop :=
  ∀ k ∈ w.acting action, ∀ sets ∈ checked k.phase, (w.ctx k.tag.counterpart).jwks = sets.1

instance (w : World) (action : Action) : Decidable (CheckStillCurrent w action) :=
  inferInstanceAs (Decidable (∀ k ∈ w.acting action, ∀ sets ∈ checked k.phase,
    (w.ctx k.tag.counterpart).jwks = sets.1))

structure Isolated (w : World) : Prop where
  apart : ∀ g, Separate (w.ctx g.counterpart).jwks (w.ctx g).jwks
  passed : ∀ {t k sets}, w.task t = some k → checked k.phase = some sets → Separate sets.1 sets.2

theorem pristine_isolated {w : World} (pristine : Pristine w) : Isolated w where
  apart := by
    rintro ⟨⟩
    · exact separate_comm pristine.apart
    · exact pristine.apart
  passed := by
    intro t k sets found
    rw [pristine.idle] at found
    cases found

@[simp] theorem checked_afterInstall (claim : Option UInt64) (installed : Bool) :
    checked (afterInstall claim installed) = none := by
  cases claim <;> rfl

theorem quiet_passed {w : World} {t : Nat} {k : Task} {action : Action} {next : Phase}
    {sets : Jwks × Jwks} (moved : Quiet w t k action next) (leaves : checked next = some sets) :
    Separate sets.1 sets.2 := by
  cases moved with
  | passCheck stands reach apart =>
    cases leaves
    exact apart
  | failed | refuse => simp at leaves
  | _ => cases leaves

theorem writes_unchecked {ctx ctx' : OidcContext} {phase next : Phase}
    (wrote : Writes ctx phase next ctx') : checked next = none := by
  cases wrote with
  | install => simp
  | claim | complete | notify => rfl

theorem moves_passed {w w' : World} {action : Action} (isolated : Isolated w)
    (moved : Moves w action w') {t : Nat} {k : Task} {sets : Jwks × Jwks}
    (found : w'.task t = some k) (leaves : checked k.phase = some sets) :
    Separate sets.1 sets.2 := by
  obtain ⟨l,before,_,_,rfl | quiet | ⟨_,wrote⟩⟩ :=
    moves_origin moved (fun phase => checked phase = some sets) (by rintro ⟨⟩ <;> nofun) found leaves
  · exact isolated.passed before leaves
  · exact quiet_passed quiet leaves
  · rw [writes_unchecked wrote] at leaves
    cases leaves

theorem moves_jwks_single {w w' : World} {action : Action} (moved : Moves w action w')
    (g : AudienceTag) :
    (w'.ctx g).jwks = (w.ctx g).jwks ∨
      (w'.ctx g.counterpart).jwks = (w.ctx g.counterpart).jwks := by
  rcases moves_jwks moved g with same | ⟨t,k,_,_,_,acts,found,own,_,_⟩
  · exact .inl same
  right
  rcases moves_jwks moved g.counterpart with same | ⟨u,l,_,_,_,acts',found',own',_,_⟩
  · exact same
  · rw [acts, Action.advance.injEq] at acts'
    rw [← acts', found, Option.some.injEq] at found'
    rw [← found', own] at own'
    cases g <;> cases own'

theorem moves_apart {w w' : World} {action : Action} (isolated : Isolated w)
    (current : CheckStillCurrent w action) (moved : Moves w action w') (g : AudienceTag) :
    Separate (w.ctx g.counterpart).jwks (w'.ctx g).jwks := by
  rcases moves_jwks moved g with same | ⟨t,k,claim,new,seen,acts,found,own,stands,stored⟩
  · rw [same]
    exact isolated.apart g
  · have leaves : checked k.phase = some (seen, new) := by rw [stands]; rfl
    have still := current k (by rw [acts]; exact found) _ leaves
    rw [stored, ← own, still]
    exact isolated.passed found leaves

theorem step_isolated {platform : Platform} {w w' : World} {action : Action} (isolated : Isolated w)
    (current : CheckStillCurrent w action) (taken : step platform w action = some w') :
    Isolated w' := by
  have moved := step_moves taken
  refine { apart := ?_, passed := moves_passed isolated moved }
  intro g
  rcases moves_jwks_single moved g with same | same
  · have facing := moves_apart isolated current moved g.counterpart
    rw [counterpart_counterpart] at facing
    rw [same]
    exact separate_comm facing
  · rw [same]
    exact moves_apart isolated current moved g

/-- In every run in which each install stores while the key set it was checked
    against is still installed on the other side, the two contexts never share
    a signing key. -/
theorem audiences_share_no_key {platform : Platform} {w w' : World} {actions : List Action}
    (started : Started platform w) (current : Along (step platform) CheckStillCurrent w actions)
    (taken : run (step platform) w actions = some w') :
    Separate (w'.ctx .vault).jwks (w'.ctx .admin).jwks := by
  have isolated := guarded_invariant Isolated step_isolated
    (pristine_isolated (started_pristine started)) current taken
  exact isolated.apart .admin

/-- Both contexts fetch the same new key, and both load the other side before
    either of them stores. -/
def interleavedInstalls : List Action :=
  [.spawn 0 .scheduled .vault, .spawn 1 .scheduled .admin, .advance 0, .advance 1,
    .fetched 0 (sampleKeys "CCCC"), .fetched 1 (sampleKeys "CCCC"),
    .advance 0, .advance 1, .advance 0, .advance 1]

theorem interleaved_installs_overlap :
    ∃ w, Started samplePlatform w ∧ ∃ w' ∈ run (step samplePlatform) w interleavedInstalls,
      ¬ Separate (w'.ctx .vault).jwks (w'.ctx .admin).jwks :=
  sample_exists (by decide +kernel)

def consecutiveInstalls : List Action :=
  [.spawn 0 .scheduled .vault, .spawn 1 .scheduled .admin, .advance 0, .advance 1,
    .fetched 0 (sampleKeys "CCCC"), .fetched 1 (sampleKeys "CCCC"),
    .advance 0, .advance 0, .advance 1]

theorem audiences_share_no_key_consecutive :
    ∃ w, Started samplePlatform w ∧ ∃ w' ∈ run (step samplePlatform) w consecutiveInstalls,
      (w'.ctx .vault).jwks ≠ (w.ctx .vault).jwks ∧
      Separate (w'.ctx .vault).jwks (w'.ctx .admin).jwks := by
  have evaluated : ∃ w, Started samplePlatform w ∧
      Along (step samplePlatform) CheckStillCurrent w consecutiveInstalls ∧
      ∃ w' ∈ run (step samplePlatform) w consecutiveInstalls,
        (w'.ctx .vault).jwks ≠ (w.ctx .vault).jwks :=
    sample_exists (by decide +kernel)
  obtain ⟨w,started,current,w',taken,changed⟩ := evaluated
  exact ⟨w,started,w',taken,changed,audiences_share_no_key started current taken⟩

end KeyIsolation
