import Mathlib.Data.List.Basic

/-!
Fallible computations in the style of early returns. A check is a computation
of `Unit`, a missing value becomes an error through `okOr`, and a successful
result of a sequence is taken apart with the equivalences below.
-/
namespace Outcomes
variable {ε ε' α β : Type}

def okOr (value : Option α) (failure : ε) : Except ε α :=
  match value with
  | some a => .ok a
  | none => .error failure

def rejectIf (bad : Prop) [Decidable bad] (failure : ε) : Except ε Unit :=
  if bad then .error failure else .ok ()

def orFail (outcome : Except ε' α) (failure : ε) : Except ε α :=
  match outcome with
  | .ok a => .ok a
  | .error _ => .error failure

@[simp]
theorem okOr_ok_iff {value : Option α} {failure : ε} {a : α} :
    okOr value failure = .ok a ↔ value = some a := by
  cases value <;> simp [okOr]

@[simp]
theorem rejectIf_ok_iff {bad : Prop} [Decidable bad] {failure : ε} {u : Unit} :
    rejectIf bad failure = .ok u ↔ ¬ bad := by
  by_cases holds : bad <;> simp [rejectIf, holds]

@[simp]
theorem orFail_ok_iff {outcome : Except ε' α} {failure : ε} {a : α} :
    orFail outcome failure = .ok a ↔ outcome = .ok a := by
  cases outcome <;> simp [orFail]

@[simp]
theorem bind_ok_iff {first : Except ε α} {next : α → Except ε β} {result : β} :
    first >>= next = .ok result ↔ ∃ a, first = .ok a ∧ next a = .ok result := by
  cases first with
  | error failure =>
    constructor
    · intro impossible
      cases impossible
    · rintro ⟨a,impossible,_⟩
      cases impossible
  | ok value =>
    constructor
    · intro rest
      exact ⟨value,rfl,rest⟩
    · rintro ⟨a,same,rest⟩
      cases same
      exact rest

@[simp]
theorem pure_ok_iff {value result : α} :
    (pure value : Except ε α) = .ok result ↔ value = result := by
  constructor
  · intro same
    cases same
    rfl
  · rintro rfl
    rfl

theorem checked_ok_iff {holds : Prop} [Decidable holds] {value : holds → α} {failure : ε} {result : α} :
    (if h : holds then pure (value h) else .error failure : Except ε α) = .ok result ↔
      ∃ h : holds, value h = result := by
  by_cases h : holds
  · simp only [h, dite_true, pure_ok_iff, exists_prop_of_true]
  · simp only [h, dite_false, reduceCtorEq, IsEmpty.exists_iff]

@[simp]
theorem mapError_ok_iff {outcome : Except ε α} {f : ε → ε'} {a : α} :
    outcome.mapError f = .ok a ↔ outcome = .ok a := by
  cases outcome <;> simp [Except.mapError]

theorem okOr_error_iff {value : Option α} {failure e : ε} :
    okOr value failure = .error e ↔ value = none ∧ failure = e := by
  cases value <;> simp [okOr]

theorem rejectIf_error_iff {bad : Prop} [Decidable bad] {failure e : ε} :
    rejectIf bad failure = .error e ↔ bad ∧ failure = e := by
  by_cases holds : bad <;> simp [rejectIf, holds]

theorem orFail_error_iff {outcome : Except ε' α} {failure e : ε} :
    orFail outcome failure = .error e ↔ (∃ e', outcome = .error e') ∧ failure = e := by
  cases outcome <;> simp [orFail]

theorem bind_error_iff {first : Except ε α} {next : α → Except ε β} {e : ε} :
    first >>= next = .error e ↔ first = .error e ∨ ∃ a, first = .ok a ∧ next a = .error e := by
  cases first with
  | error failure => simp [Bind.bind, Except.bind]
  | ok value => simp [Bind.bind, Except.bind]

theorem checked_error_iff {holds : Prop} [Decidable holds] {value : holds → α} {failure e : ε} :
    (if h : holds then pure (value h) else .error failure : Except ε α) = .error e ↔
      ¬ holds ∧ failure = e := by
  by_cases h : holds
  · simp only [h, dite_true, not_true, false_and, iff_false]
    intro impossible
    cases impossible
  · simp only [h, dite_false, Except.error.injEq, not_false_iff, true_and]

theorem pure_error_iff {value : α} {e : ε} : (pure value : Except ε α) = .error e ↔ False := by
  simp [Pure.pure, Except.pure]

theorem toOption_some_iff {outcome : Except ε α} {a : α} :
    outcome.toOption = some a ↔ outcome = .ok a := by
  cases outcome <;> simp [Except.toOption]

theorem toOption_bind {ε α β : Type} {e : Except ε α} {a : α} (succeeds : e = .ok a)
    (f : α → Option β) : e.toOption.bind f = f a := by
  subst succeeds
  rfl

end Outcomes
