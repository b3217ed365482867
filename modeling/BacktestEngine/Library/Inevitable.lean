import BacktestEngine.Library.Transition
import Mathlib.Data.Nat.Notation

/-! # What a system comes to

A goal is inevitable when the steps that are granted lead to it, whichever of them are taken. It is
enough that one of them is possible until the goal is reached, and that each makes a number smaller.
-/

namespace Transition

variable {S A : Type*} (step : S → A → Option S) (granted : A → Prop)

/-- Whichever granted steps are taken, the goal is reached. -/
inductive Inevitable (goal : S → Prop) : S → Prop
  | reached {s : S} (h : goal s) : Inevitable goal s
  | later {s : S} (henabled : ∃ a s', granted a ∧ step s a = some s')
      (h : ∀ a s', granted a → step s a = some s' → Inevitable goal s') : Inevitable goal s

variable {step granted} {goal I : S → Prop} {s : S}

/-- The rule of a measure: it falls with each granted step, and until the goal is reached there is
one. -/
theorem inevitable_of_measure (measure : S → ℕ)
    (hkept : ∀ s a s', I s → granted a → step s a = some s' → I s')
    (hfalls : ∀ s a s', I s → granted a → step s a = some s' → measure s' < measure s)
    (hprogress : ∀ s, I s → ¬ goal s → ∃ a s', granted a ∧ step s a = some s') (hs : I s) :
    Inevitable step granted goal s := by
  induction hm : measure s using Nat.strongRecOn generalizing s with
  | ind m ih =>
    subst hm
    by_cases hgoal : goal s
    · exact .reached hgoal
    · refine .later (hprogress s hs hgoal) fun a s' ha hstep => ?_
      exact ih _ (hfalls s a s' hs ha hstep) (hkept s a s' hs ha hstep) rfl

end Transition
