import Apokryphos.StepRuns

/-!
Concurrent systems over a sequential object. An operation of the system takes
effect in a single one of its steps, its commit point; the other steps do not
change what the object holds. The operations in the order of their commit points
are then a run of the object: it leaves the object as the system does, and every
answer that the system owes is the answer of the object at that place. An
operation that can commit no more when another one begins stands before it.
-/
namespace SerialOrders
open StepRuns
variable {S E M O R : Type}

def after (apply : M → O → R × M) (m : M) (history : List (Nat × O)) : M :=
  history.foldl (fun m entry => (apply m entry.2).2) m

def Promised (apply : M → O → R × M) (m : M) (history : List (Nat × O)) (n : Nat) (r : R) : Prop :=
  ∃ front o back, history = front ++ (n, o) :: back ∧ (apply (after apply m front) o).1 = r

def numbers (history : List (Nat × O)) : List Nat := history.map Prod.fst

def Precedes (history : List (Nat × O)) (a b : Nat) : Prop :=
  ∃ front between back, numbers history = front ++ a :: (between ++ b :: back)

abbrev history (step : S → E → Option S) (commit : S → E → Option (Nat × O)) (start : S)
    (taken : List E) : List (Nat × O) := events step commit start taken

/-- A step relation with commit points. An operation that has `ended` has committed or
    never will, one that is `spared` has not committed. -/
structure CommitPoints (step : S → E → Option S) (commit : S → E → Option (Nat × O))
    (apply : M → O → R × M) where
  good : S → Prop
  view : S → M
  owes : S → Nat → R → Prop
  ended : S → Nat → Prop
  spared : S → Nat → Prop
  good_step : ∀ {s e t}, good s → step s e = some t → good t
  view_commit : ∀ {s e t n o}, good s → step s e = some t → commit s e = some (n, o) →
    view t = (apply (view s) o).2
  view_idle : ∀ {s e t}, good s → step s e = some t → commit s e = none → view t = view s
  owes_commit : ∀ {s e t n o r}, good s → step s e = some t → commit s e = some (n, o) →
    owes t n r → (apply (view s) o).1 = r
  owes_kept : ∀ {s e t n r}, good s → step s e = some t → (∀ o, commit s e ≠ some (n, o)) →
    owes t n r → owes s n r
  ended_commit : ∀ {s e t n o}, good s → step s e = some t → commit s e = some (n, o) → ended t n
  ended_step : ∀ {s e t n}, good s → step s e = some t → ended s n → ended t n
  ended_silent : ∀ {s e t n o}, good s → step s e = some t → ended s n → commit s e ≠ some (n, o)
  spared_back : ∀ {s e t n}, good s → step s e = some t → spared t n →
    spared s n ∧ ∀ o, commit s e ≠ some (n, o)

theorem after_snoc (apply : M → O → R × M) (m : M) (history : List (Nat × O)) (n : Nat) (o : O) :
    after apply m (history ++ [(n, o)]) = (apply (after apply m history) o).2 := by
  unfold after
  rw [List.foldl_append]
  rfl

theorem Promised.append {apply : M → O → R × M} {m : M} {history : List (Nat × O)} {n : Nat} {r : R}
    (promised : Promised apply m history n r) (more : List (Nat × O)) :
    Promised apply m (history ++ more) n r := by
  obtain ⟨front,o,back,rfl,answer⟩ := promised
  exact ⟨front,o,back ++ more,by rw [List.append_assoc, List.cons_append],answer⟩

theorem numbers_append (front back : List (Nat × O)) :
    numbers (front ++ back) = numbers front ++ numbers back :=
  List.map_append

theorem not_committed {history : List (Nat × O)} {found : Option (Nat × O)} {n : Nat}
    (before : n ∉ numbers history) (now : ∀ o, found ≠ some (n, o)) :
    n ∉ numbers (history ++ found.toList) := by
  rw [numbers_append]
  intro member
  rcases List.mem_append.mp member with old | new
  · exact before old
  · cases found with
    | none => cases new
    | some entry =>
      obtain ⟨_,last,rfl⟩ := List.mem_map.mp new
      cases List.mem_singleton.mp last
      exact now _ rfl

section Runs
variable {step : S → E → Option S} {commit : S → E → Option (Nat × O)} {apply : M → O → R × M}
  (points : CommitPoints step commit apply)
include points

variable {start s t u : S} {taken front back : List E} (fine : points.good start)
include fine

theorem run_good (reached : run step start taken = some s) : points.good s :=
  run_invariant points.good points.good_step fine reached

theorem run_view (reached : run step start taken = some s) :
    points.view s = after apply (points.view start) (history step commit start taken) := by
  refine history_invariant (fun taken s => points.view s = after apply (points.view start)
    (history step commit start taken)) rfl ?_ reached
  intro front s e t reached holds next
  have good := run_good points fine reached
  rw [history, events_snoc reached next]
  cases found : commit s e with
  | none =>
    rw [Option.toList_none, List.append_nil, points.view_idle good next found]
    exact holds
  | some entry =>
    rw [Option.toList_some, points.view_commit good next found, after_snoc, holds]

theorem run_promised (nothing : ∀ n r, ¬ points.owes start n r) (reached : run step start taken = some s) :
    ∀ n r, points.owes s n r → Promised apply (points.view start) (history step commit start taken) n r := by
  refine history_invariant (fun taken s => ∀ n r, points.owes s n r → Promised apply (points.view start)
    (history step commit start taken) n r) (fun n r owes => absurd owes (nothing n r)) ?_ reached
  intro front s e t reached holds next n r owes
  have good := run_good points fine reached
  rw [history, events_snoc reached next]
  by_cases now : ∃ o, commit s e = some (n, o)
  · obtain ⟨o,found⟩ := now
    refine ⟨history step commit start front,o,[],?_,?_⟩
    · rw [found]
      rfl
    · rw [← run_view points fine reached]
      exact points.owes_commit good next found owes
  · exact (holds n r (points.owes_kept good next (not_exists.mp now) owes)).append _

theorem run_spared (reached : run step start taken = some s) :
    ∀ n, points.spared s n → n ∉ numbers (history step commit start taken) := by
  refine history_invariant (fun taken s => ∀ n, points.spared s n →
    n ∉ numbers (history step commit start taken)) (fun _ _ => nofun) ?_ reached
  intro front s e t reached holds next n spared
  obtain ⟨before,now⟩ := points.spared_back (run_good points fine reached) next spared
  rw [history, events_snoc reached next]
  exact not_committed (holds n before) now

theorem run_ended {n : Nat} (ended : points.ended start n) (reached : run step start taken = some s) :
    points.ended s n ∧ n ∉ numbers (history step commit start taken) := by
  refine history_invariant (fun taken s => points.ended s n ∧ n ∉ numbers (history step commit start taken))
    ⟨ended,nofun⟩ ?_ reached
  intro front s e t reached holds next
  have good := run_good points fine reached
  refine ⟨points.ended_step good next holds.1,?_⟩
  rw [history, events_snoc reached next]
  exact not_committed holds.2 fun o => points.ended_silent good next holds.1

theorem run_nodup (reached : run step start taken = some s) :
    (numbers (history step commit start taken)).Nodup ∧
      ∀ n ∈ numbers (history step commit start taken), points.ended s n := by
  refine history_invariant (fun taken s => (numbers (history step commit start taken)).Nodup ∧
    ∀ n ∈ numbers (history step commit start taken), points.ended s n) ⟨List.nodup_nil,nofun⟩ ?_ reached
  intro front s e t reached holds next
  have good := run_good points fine reached
  have still : ∀ n ∈ numbers (history step commit start front), points.ended t n :=
    fun n member => points.ended_step good next (holds.2 n member)
  rw [history, events_snoc reached next]
  cases found : commit s e with
  | none =>
    rw [Option.toList_none, List.append_nil]
    exact ⟨holds.1,still⟩
  | some entry =>
    obtain ⟨n,o⟩ := entry
    rw [Option.toList_some, numbers_append]
    refine ⟨List.nodup_append.mpr ⟨holds.1,List.pairwise_singleton _ n,?_⟩,?_⟩
    · rintro m member _ last rfl
      cases List.mem_singleton.mp last
      exact points.ended_silent good next (holds.2 _ member) found
    · intro m member
      rcases List.mem_append.mp member with old | new
      · exact still m old
      · cases List.mem_singleton.mp new
        exact points.ended_commit good next found

theorem run_precedes (reached : run step start front = some u) {a b : Nat} (ended : points.ended u a)
    (spared : points.spared u b) (later : run step u back = some s)
    (first : a ∈ numbers (history step commit start (front ++ back)))
    (second : b ∈ numbers (history step commit start (front ++ back))) :
    Precedes (history step commit start (front ++ back)) a b := by
  have split : numbers (history step commit start (front ++ back)) =
      numbers (history step commit start front) ++ numbers (history step commit u back) := by
    rw [history, events_append back reached, numbers_append]
  have early : a ∈ numbers (history step commit start front) := by
    rw [split] at first
    refine (List.mem_append.mp first).resolve_right ?_
    exact (run_ended points (run_good points fine reached) ended later).2
  have late : b ∈ numbers (history step commit u back) := by
    rw [split] at second
    exact (List.mem_append.mp second).resolve_left (run_spared points fine reached b spared)
  obtain ⟨x,y,before⟩ := List.append_of_mem early
  obtain ⟨y',z,behind⟩ := List.append_of_mem late
  refine ⟨x,y ++ y',z,?_⟩
  rw [split, before, behind]
  simp only [List.append_assoc, List.cons_append]

end Runs
end SerialOrders
