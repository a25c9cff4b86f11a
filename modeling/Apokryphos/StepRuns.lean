import Mathlib.Data.List.Basic

/-!
Finite runs of a labelled step function. A step that is not enabled answers
`none`, so a run is a list of labels that are enabled one after another. The
rules below are the only inductions over runs that a development needs: an
invariant of every step is an invariant of every run, a condition asked of
every step may be used while proving it, and a property may also mention the
labels that led to the state.
-/
namespace StepRuns
variable {S A E : Type}

def run (step : S → A → Option S) : S → List A → Option S
  | s, [] => some s
  | s, a :: rest =>
    match step s a with
    | some t => run step t rest
    | none => none

/-- Every step of the run is taken from a state in which the condition holds. -/
def Along (step : S → A → Option S) (condition : S → A → Prop) : S → List A → Prop
  | _, [] => True
  | s, a :: rest => condition s a ∧
    match step s a with
    | some t => Along step condition t rest
    | none => True

def events (step : S → A → Option S) (emit : S → A → Option E) : S → List A → List E
  | _, [] => []
  | s, a :: rest =>
    match step s a with
    | some t => (emit s a).toList ++ events step emit t rest
    | none => []

instance decidableAlong (step : S → A → Option S) (condition : S → A → Prop)
    [∀ s a, Decidable (condition s a)] :
    ∀ s actions, Decidable (Along step condition s actions)
  | _, [] => isTrue trivial
  | s, a :: rest =>
    match found : step s a with
    | some t =>
      have : Decidable (Along step condition t rest) := decidableAlong step condition t rest
      decidable_of_iff (condition s a ∧ Along step condition t rest) (by simp [Along, found])
    | none => decidable_of_iff (condition s a) (by simp [Along, found])

variable {step : S → A → Option S} {condition : S → A → Prop} {emit : S → A → Option E}

theorem run_cons_some {s t : S} {a : A} {rest : List A}
    (taken : run step s (a :: rest) = some t) :
    ∃ u, step s a = some u ∧ run step u rest = some t := by
  simp only [run] at taken
  split at taken
  · rename_i u first
    exact ⟨u,first,taken⟩
  · cases taken

theorem run_cons {s t : S} {a : A} (first : step s a = some t) (rest : List A) :
    run step s (a :: rest) = run step t rest := by
  simp only [run, first]

theorem events_cons {s t : S} {a : A} (first : step s a = some t) (rest : List A) :
    events step emit s (a :: rest) = (emit s a).toList ++ events step emit t rest := by
  simp only [events, first]

theorem run_append {s : S} (front back : List A) :
    run step s (front ++ back) = (run step s front).bind (fun t => run step t back) := by
  induction front generalizing s with
  | nil => rfl
  | cons a rest ih =>
    simp only [List.cons_append, run]
    cases step s a with
    | none => rfl
    | some u => exact ih

theorem run_snoc {s u t : S} {front : List A} {a : A}
    (before : run step s front = some u) (last : step u a = some t) :
    run step s (front ++ [a]) = some t := by
  rw [run_append, before]
  simp [run, last]

theorem along_append {s u : S} {front back : List A}
    (along : Along step condition s (front ++ back)) (before : run step s front = some u) :
    Along step condition s front ∧ Along step condition u back := by
  induction front generalizing s with
  | nil =>
    cases before
    exact ⟨trivial,along⟩
  | cons a rest ih =>
    obtain ⟨v,first,later⟩ := run_cons_some before
    have tail := along.2
    rw [first] at tail
    obtain ⟨inside,after⟩ := ih tail later
    refine ⟨⟨along.1,?_⟩,after⟩
    rw [first]
    exact inside

theorem along_snoc {s u : S} {front : List A} {a : A} (before : run step s front = some u)
    (along : Along step condition s front) (last : condition u a) :
    Along step condition s (front ++ [a]) := by
  induction front generalizing s with
  | nil =>
    cases before
    refine ⟨last,?_⟩
    cases step u a <;> trivial
  | cons b rest ih =>
    obtain ⟨v,first,later⟩ := run_cons_some before
    have tail := along.2
    rw [first] at tail
    refine ⟨along.1,?_⟩
    rw [first]
    exact ih later tail

/-- A step lemma, used under a condition that every step of the run meets, is a
    run lemma. -/
theorem guarded_invariant (invariant : S → Prop)
    (keep : ∀ {s a t}, invariant s → condition s a → step s a = some t → invariant t)
    {s t : S} {actions : List A} (start : invariant s)
    (along : Along step condition s actions) (taken : run step s actions = some t) :
    invariant t := by
  induction actions generalizing s with
  | nil =>
    cases taken
    exact start
  | cons a rest ih =>
    obtain ⟨u,first,later⟩ := run_cons_some taken
    have tail := along.2
    rw [first] at tail
    exact ih (keep start along.1 first) tail later

theorem along_all (s : S) {actions : List A} (all : ∀ s, ∀ a ∈ actions, condition s a) :
    Along step condition s actions := by
  induction actions generalizing s with
  | nil => trivial
  | cons a rest ih =>
    refine ⟨all s a List.mem_cons_self,?_⟩
    cases step s a with
    | none => trivial
    | some t => exact ih t fun s b member => all s b (List.mem_cons_of_mem a member)

theorem along_iff {left right : S → A → Prop} (invariant : S → Prop)
    (keep : ∀ {s a t}, invariant s → condition s a → step s a = some t → invariant t)
    (agree : ∀ {s a}, invariant s → (left s a ↔ right s a)) {s : S} {actions : List A}
    (start : invariant s) (along : Along step condition s actions) :
    Along step left s actions ↔ Along step right s actions := by
  induction actions generalizing s with
  | nil => exact Iff.rfl
  | cons a rest ih =>
    simp only [Along]
    refine and_congr (agree start) ?_
    have tail := along.2
    cases first : step s a with
    | none => exact Iff.rfl
    | some t =>
      rw [first] at tail
      exact ih (keep start along.1 first) tail

theorem along_trivial (s : S) (actions : List A) :
    Along step (fun _ _ => True) s actions :=
  along_all s fun _ _ _ => trivial

theorem run_invariant (invariant : S → Prop)
    (keep : ∀ {s a t}, invariant s → step s a = some t → invariant t)
    {s t : S} {actions : List A} (start : invariant s)
    (taken : run step s actions = some t) : invariant t :=
  guarded_invariant invariant (fun inv _ next => keep inv next) start
    (along_trivial s actions) taken

theorem events_append {s u : S} {front : List A} (back : List A)
    (before : run step s front = some u) :
    events step emit s (front ++ back) =
      events step emit s front ++ events step emit u back := by
  induction front generalizing s with
  | nil =>
    cases before
    rfl
  | cons a rest ih =>
    obtain ⟨v,first,later⟩ := run_cons_some before
    simp only [List.cons_append, events, first, List.append_assoc]
    rw [ih later]

theorem events_snoc {s u t : S} {front : List A} {a : A} (before : run step s front = some u)
    (last : step u a = some t) :
    events step emit s (front ++ [a]) = events step emit s front ++ (emit u a).toList := by
  rw [events_append [a] before]
  simp [events, last]

theorem events_silent {s : S} {actions : List A} (silent : ∀ s, ∀ a ∈ actions, emit s a = none) :
    events step emit s actions = [] := by
  induction actions generalizing s with
  | nil => rfl
  | cons a rest ih =>
    simp only [events]
    split
    · rw [silent s a List.mem_cons_self, ih fun s b member => silent s b (List.mem_cons_of_mem a member)]
      rfl
    · rfl

/-- The rule for properties that also mention the labels so far. -/
theorem guarded_history (invariant : List A → S → Prop) {s₀ : S} (start : invariant [] s₀)
    (keep : ∀ {front s a t}, run step s₀ front = some s → invariant front s → condition s a →
      step s a = some t → invariant (front ++ [a]) t)
    {t : S} {actions : List A} (along : Along step condition s₀ actions)
    (taken : run step s₀ actions = some t) : invariant actions t := by
  suffices general : ∀ (rest front : List A) (s : S), run step s₀ front = some s →
      invariant front s → Along step condition s rest → run step s rest = some t →
      invariant (front ++ rest) t by
    simpa using general actions [] s₀ rfl start along taken
  intro rest
  induction rest with
  | nil =>
    intro front s before holds _ after
    cases after
    simpa using holds
  | cons a rest ih =>
    intro front s before holds along after
    obtain ⟨u,first,later⟩ := run_cons_some after
    have tail := along.2
    rw [first] at tail
    have joined := ih (front ++ [a]) u (run_snoc before first) (keep before holds along.1 first)
      tail later
    simpa using joined

theorem history_invariant (invariant : List A → S → Prop) {s₀ : S} (start : invariant [] s₀)
    (keep : ∀ {front s a t}, run step s₀ front = some s → invariant front s →
      step s a = some t → invariant (front ++ [a]) t)
    {t : S} {actions : List A} (taken : run step s₀ actions = some t) :
    invariant actions t :=
  guarded_history invariant start (fun before holds _ next => keep before holds next)
    (along_trivial s₀ actions) taken

theorem run_alike {T B : Type} {other : T → B → Option T} (related : S → T → Prop) (alike : A → B → Prop)
    (keep : ∀ {s t a b}, related s t → alike a b → Option.Rel related (step s a) (other t b))
    {s : S} {t : T} {actions : List A} {others : List B} (start : related s t)
    (same : List.Forall₂ alike actions others) :
    Option.Rel related (run step s actions) (run other t others) := by
  induction same generalizing s t with
  | nil => exact .some start
  | @cons a b rest later first _ ih =>
    have next := keep start first
    simp only [run]
    cases left : step s a with
    | none =>
      cases right : other t b with
      | none => exact .none
      | some w =>
        rw [left, right] at next
        cases next
    | some u =>
      cases right : other t b with
      | none =>
        rw [left, right] at next
        cases next
      | some w =>
        rw [left, right] at next
        cases next with
        | some moved => exact ih moved

theorem run_within {T B : Type} {whole : T → B → Option T} (place : S → T) (act : A → B)
    (each : ∀ s a, whole (place s) (act a) = (step s a).map place) (s : S) (actions : List A) :
    run whole (place s) (actions.map act) = (run step s actions).map place := by
  induction actions generalizing s with
  | nil => rfl
  | cons a rest ih =>
    simp only [List.map_cons, run, each]
    cases step s a with
    | none => rfl
    | some t => exact ih t

/-- A system that can always come closer to its goal by steps of its own can reach it
    by such steps, in as many as it was away from it. -/
theorem ranked_run (rank : S → Nat) {good goal : S → Prop} {own : S → A → Prop}
    (closer : ∀ {s}, good s → ¬ goal s → ∃ a t, own s a ∧ step s a = some t ∧ good t ∧ rank t < rank s)
    {s : S} (holds : good s) :
    ∃ actions t, actions.length ≤ rank s ∧ Along step own s actions ∧
      run step s actions = some t ∧ good t ∧ goal t := by
  induction away : rank s using Nat.strongRecOn generalizing s with
  | ind n ih =>
    by_cases reached : goal s
    · exact ⟨[],s,Nat.zero_le n,trivial,rfl,holds,reached⟩
    · obtain ⟨a,t,mine,first,still,nearer⟩ := closer holds reached
      obtain ⟨rest,u,short,others,later,ends⟩ := ih (rank t) (away ▸ nearer) still rfl
      refine ⟨a :: rest,u,?_,⟨mine,?_⟩,(run_cons first rest).trans later,ends⟩
      · rw [List.length_cons]
        omega
      · rw [first]
        exact others

end StepRuns
