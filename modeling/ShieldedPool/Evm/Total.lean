import Mathlib.Algebra.BigOperators.Group.Finset.Basic
import Mathlib.Algebra.BigOperators.Group.Finset.Piecewise
import Mathlib.Algebra.Order.BigOperators.Group.Finset
import Mathlib.Data.BitVec
import Mathlib.Data.Fintype.Defs
import ShieldedPool.Evm.Word

/-! Sums over all accounts. A change of one account's entry changes the total by as much. -/

namespace Evm
open Finset

instance fintypeBitVec (n : Nat) : Fintype (BitVec n) := Fintype.ofEquiv (Fin (2 ^ n)) BitVec.equivFin.toEquiv.symm

section
variable {α : Type} [Fintype α] [DecidableEq α]

theorem sum_update_add (f : α → Nat) (a : α) (v : Nat) : ∑ x, Function.update f a v x + f a = ∑ x, f x + v := by
  rw [sum_update_of_mem (mem_univ a), ← add_sum_erase univ f (mem_univ a), sdiff_singleton_eq_erase]
  ring

end

/-- All that a mapping from accounts to amounts holds. -/
def total (f : Address → Word) : Nat := ∑ a, (f a).toNat

theorem le_total (f : Address → Word) (a : Address) : (f a).toNat ≤ total f :=
  single_le_sum (f := fun a => (f a).toNat) (fun _ _ => Nat.zero_le _) (mem_univ a)

theorem total_update (f : Address → Word) (a : Address) (w : Word) :
    total (Function.update f a w) + (f a).toNat = total f + w.toNat := by
  have same : (fun x => (Function.update f a w x).toNat) = Function.update (fun x => (f x).toNat) a w.toNat := by
    funext x
    by_cases here : x = a
    · simp [here]
    · simp [here]
  rw [total, same, sum_update_add]
  rfl

/-- Adding to one entry. -/
theorem total_add (f : Address → Word) (a : Address) (w : Word) (room : (f a).toNat + w.toNat < 2 ^ 256) :
    total (Function.update f a (f a + w)) = total f + w.toNat := by
  have updated := total_update f a (f a + w)
  rw [BitVec.toNat_add, Nat.mod_eq_of_lt room] at updated
  omega

/-- Clearing one entry. -/
theorem total_clear (f : Address → Word) (a : Address) :
    total (Function.update f a 0) + (f a).toNat = total f := by
  rw [total_update, show (0 : Word).toNat = 0 from rfl, Nat.add_zero]

end Evm
