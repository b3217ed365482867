import Mathlib.Algebra.BigOperators.Group.Finset.Basic
import Mathlib.Data.Fintype.Basic

/-! # Sums over parties

One party changes at a time, and a sum over all of them changes by what it has more or less.
-/

namespace Tally

variable {ι β : Type*} [Fintype ι] [DecidableEq ι]

theorem sum_update {M : Type*} [AddCommMonoid M] (f : β → M) (g : ι → β) (i : ι) (x : β) :
    ∑ j, f (Function.update g i x j) + f (g i) = ∑ j, f (g j) + f x := by
  have hrest : ∑ j ∈ Finset.univ.erase i, f (Function.update g i x j) =
      ∑ j ∈ Finset.univ.erase i, f (g j) := by
    apply Finset.sum_congr rfl
    intro j hj
    rw [Function.update_of_ne (Finset.ne_of_mem_erase hj)]
  rw [← Finset.add_sum_erase _ _ (Finset.mem_univ i), ← Finset.add_sum_erase _ (fun j => f (g j))
    (Finset.mem_univ i), hrest, Function.update_self, add_right_comm, add_right_comm (f (g i)),
    add_comm (f x)]

/-- What a party keeps through its change, the sum keeps. -/
theorem sum_update_of_eq {f : β → ℕ} {g : ι → β} {i : ι} {x : β} (h : f x = f (g i)) :
    ∑ j, f (Function.update g i x j) = ∑ j, f (g j) := by
  have hsum := sum_update f g i x
  omega

theorem sum_update_of_add {f : β → ℕ} {g : ι → β} {i : ι} {x : β} {n : ℕ} (h : f x = f (g i) + n) :
    ∑ j, f (Function.update g i x j) = ∑ j, f (g j) + n := by
  have hsum := sum_update f g i x
  omega

end Tally
