import Mathlib.Data.List.AList
import Mathlib.Data.List.Induction

/-!
A map filled in one pass over a list, by a key that an item may lack. A later
item under the same key replaces the earlier one, so that a lookup finds the
last item of its key.
-/
namespace OverwritingIndex
variable {K E : Type}

/-- The item has no later one under its key. -/
def Last (key : E → Option K) (items : List E) (k : K) (e : E) : Prop :=
  ∃ front rest, items = front ++ e :: rest ∧ key e = some k ∧ ∀ later ∈ rest, key later ≠ some k

theorem last_snoc {key : E → Option K} {items : List E} {k : K} {e new : E} :
    Last key (items ++ [new]) k e ↔
      (key new = some k ∧ e = new) ∨ (key new ≠ some k ∧ Last key items k e) := by
  constructor
  · rintro ⟨front,rest,split,own,later⟩
    rcases List.eq_nil_or_concat rest with rfl | ⟨before,final,rfl⟩
    · obtain ⟨_,same⟩ := List.append_inj' split rfl
      cases same
      exact .inl ⟨own,rfl⟩
    · rw [List.concat_eq_append, ← List.cons_append, ← List.append_assoc] at split
      obtain ⟨whole,same⟩ := List.append_inj' split rfl
      cases same
      refine .inr ⟨later _ (by simp),front,before,whole,own,?_⟩
      intro item member
      exact later item (by simp [member])
  · rintro (⟨own,rfl⟩ | ⟨other,front,rest,rfl,own,later⟩)
    · exact ⟨items,[],rfl,own,nofun⟩
    · refine ⟨front,rest ++ [new],by simp,own,?_⟩
      intro item member
      rcases List.mem_append.mp member with inside | final
      · exact later item inside
      · rw [List.mem_singleton.mp final]
        exact other

variable [DecidableEq K]

def enter (key : E → Option K) (m : AList fun _ : K => E) (e : E) : AList fun _ : K => E :=
  match key e with
  | some k => m.insert k e
  | none => m

def indexed (key : E → Option K) (items : List E) : AList fun _ : K => E :=
  items.foldl (enter key) ∅

theorem indexed_snoc (key : E → Option K) (items : List E) (e : E) :
    indexed key (items ++ [e]) = enter key (indexed key items) e := by
  unfold indexed
  rw [List.foldl_append, List.foldl_cons, List.foldl_nil]

theorem enter_lookup (key : E → Option K) (m : AList fun _ : K => E) (e : E) (k : K) :
    (enter key m e).lookup k = if key e = some k then some e else m.lookup k := by
  unfold enter
  cases found : key e with
  | none => rfl
  | some own =>
    by_cases same : own = k
    · subst same
      rw [if_pos rfl]
      exact AList.lookup_insert m
    · rw [if_neg (fun equal => same (Option.some.inj equal))]
      exact AList.lookup_insert_ne (Ne.symm same)

theorem lookup_indexed {key : E → Option K} {items : List E} {k : K} {e : E} :
    (indexed key items).lookup k = some e ↔ Last key items k e := by
  induction items using List.reverseRecOn with
  | nil =>
    constructor
    · intro found
      cases found
    · rintro ⟨front,rest,split,_⟩
      simp at split
  | append_singleton items new ih =>
    rw [indexed_snoc, enter_lookup, last_snoc, ← ih]
    by_cases own : key new = some k
    · simp [own, eq_comm]
    · simp [own]

theorem mem_indexed {key : E → Option K} {items : List E} {k : K} :
    k ∈ indexed key items ↔ ∃ e ∈ items, key e = some k := by
  induction items using List.reverseRecOn with
  | nil => simp [indexed, AList.notMem_empty]
  | append_singleton items new ih =>
    rw [indexed_snoc, ← AList.lookup_isSome, enter_lookup]
    by_cases own : key new = some k
    · simp [own]
    · rw [if_neg own, AList.lookup_isSome, ih]
      simp [own]

end OverwritingIndex
