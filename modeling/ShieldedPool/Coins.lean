import Mathlib.Algebra.BigOperators.Group.Finset.Basic
import Mathlib.Algebra.Order.BigOperators.Group.Finset
import Mathlib.Data.Fintype.Defs

/-! What a set of coins is worth: how that changes when coins are issued and when some
are redeemed. -/

namespace Coins
open Finset Classical

variable {α : Type} [Fintype α] {held kept : α → Prop} {value : α → Nat}

noncomputable def worth (held : α → Prop) (value : α → Nat) : Nat := ∑ a with held a, value a

theorem worth_none (none : ∀ a, ¬ held a) : worth held value = 0 := by
  apply sum_eq_zero
  intro a member
  exact absurd (mem_filter.mp member).2 (none a)

/-- One more coin. -/
theorem worth_issue {x : α} (issued : ∀ a, kept a → held a ∨ a = x) : worth kept value ≤ worth held value + value x := by
  have inside : univ.filter kept ⊆ insert x (univ.filter held) := by
    intro a member
    rw [mem_insert, mem_filter]
    rw [mem_filter] at member
    exact (issued a member.2).symm.imp id fun old => ⟨mem_univ a, old⟩
  calc worth kept value ≤ ∑ a ∈ insert x (univ.filter held), value a := sum_le_sum_of_subset inside
    _ ≤ worth held value + value x := by
      by_cases old : x ∈ univ.filter held
      · rw [insert_eq_of_mem old]
        exact Nat.le_add_right _ _
      · rw [sum_insert old, Nat.add_comm]
        exact le_refl _

/-- The coins of `spent` given up. -/
theorem worth_redeem {spent : Finset α} (had : ∀ a ∈ spent, held a) (gone : ∀ a ∈ spent, ¬ kept a) (inside : ∀ a, kept a → held a) :
    worth kept value + ∑ a ∈ spent, value a ≤ worth held value := by
  have apart : Disjoint (univ.filter kept) spent := by
    rw [disjoint_left]
    intro a member given
    exact gone a given (mem_filter.mp member).2
  rw [worth, ← sum_union apart]
  apply sum_le_sum_of_subset
  intro a member
  rw [mem_filter]
  refine ⟨mem_univ a, ?_⟩
  rcases mem_union.mp member with still | given
  · exact inside a (mem_filter.mp still).2
  · exact had a given

end Coins
