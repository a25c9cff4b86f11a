import Mathlib.Algebra.Group.Nat.Defs
import Mathlib.Data.Nat.Basic

/-!
Unsigned 64-bit words with the overflow behaviour of the usual library calls:
wrapping addition is the addition of `UInt64` itself, saturating and checked
addition are defined here. Every operation comes with its value over `Nat`, so
that later proofs argue with linear arithmetic and never unfold a word.
-/
namespace MachineWords

-- A bound is decided by running over its option or its list, also where the type of
-- the bound variable is finite: nothing can run over all the words.
section Bounds
variable {α : Type} {p : α → Prop} [DecidablePred p]

scoped instance (priority := 2000) forallOption {o : Option α} : Decidable (∀ a ∈ o, p a) :=
  Option.decidableForallMem o

scoped instance (priority := 2000) existsOption {o : Option α} : Decidable (∃ a ∈ o, p a) :=
  Option.decidableExistsMem o

scoped instance (priority := 2000) forallList {as : List α} : Decidable (∀ a ∈ as, p a) :=
  List.decidableBAll p as

end Bounds

def u64Max : UInt64 := 18446744073709551615

@[simp]
theorem u64Max_toNat : u64Max.toNat = 2 ^ 64 - 1 := rfl

def saturatingAdd (a b : UInt64) : UInt64 :=
  if a.toNat + b.toNat < 2 ^ 64 then a + b else u64Max

def saturatingSub (a b : UInt64) : UInt64 :=
  if b ≤ a then a - b else 0

def checkedAdd (a b : UInt64) : Option UInt64 :=
  if a.toNat + b.toNat < 2 ^ 64 then some (a + b) else none

theorem word_lt (a : UInt64) : a.toNat < 2 ^ 64 := a.toNat_lt

theorem add_toNat {a b : UInt64} (fits : a.toNat + b.toNat < 2 ^ 64) :
    (a + b).toNat = a.toNat + b.toNat := by
  rw [UInt64.toNat_add]
  exact Nat.mod_eq_of_lt fits

theorem saturatingAdd_toNat (a b : UInt64) :
    (saturatingAdd a b).toNat = min (a.toNat + b.toNat) (2 ^ 64 - 1) := by
  unfold saturatingAdd
  split
  · rename_i fits
    rw [add_toNat fits]
    omega
  · rw [u64Max_toNat]
    omega

theorem saturatingAdd_le_iff {a b c : UInt64} (below : c < u64Max) :
    saturatingAdd a b ≤ c ↔ a.toNat + b.toNat ≤ c.toNat := by
  rw [UInt64.lt_iff_toNat_lt, u64Max_toNat] at below
  rw [UInt64.le_iff_toNat_le, saturatingAdd_toNat]
  omega

theorem saturatingAdd_lt_iff {a b c : UInt64} :
    saturatingAdd a b < c ↔ a.toNat + b.toNat < c.toNat := by
  have bound := word_lt c
  rw [UInt64.lt_iff_toNat_lt, saturatingAdd_toNat]
  omega

theorem saturatingSub_toNat (a b : UInt64) :
    (saturatingSub a b).toNat = a.toNat - b.toNat := by
  unfold saturatingSub
  split
  · rename_i order
    exact UInt64.toNat_sub_of_le a b order
  · rename_i order
    rw [UInt64.le_iff_toNat_le] at order
    simp only [UInt64.toNat_zero]
    omega

theorem checkedAdd_some {a b c : UInt64} (sum : checkedAdd a b = some c) :
    c.toNat = a.toNat + b.toNat := by
  unfold checkedAdd at sum
  split at sum
  · rename_i fits
    cases sum
    exact add_toNat fits
  · cases sum

end MachineWords
