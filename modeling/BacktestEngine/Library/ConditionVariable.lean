import BacktestEngine.Library.Tally
import Mathlib.Algebra.Order.BigOperators.Group.Finset

/-! # Condition variables

Threads sleep until what they wait for may have come about. A notification wakes one of the
sleepers, whichever, or all of them. No wake-up is lost as long as nobody sleeps, or enough threads
are awake for what there is to be had.
-/

/-- Which threads sleep on a condition variable, and what becomes of one that is woken. -/
structure ConditionVariable (β : Type*) where
  asleep : β → Bool
  wake : β → β
  asleep_wake : ∀ b, asleep (wake b) = false

namespace ConditionVariable

variable {ι β : Type*} (cv : ConditionVariable β) (threads : ι → β)

/-- Whom `notify_one` may wake: any one that sleeps, and nobody when nobody does. -/
def MayWake : Option ι → Prop
  | none => ∀ i, cv.asleep (threads i) = false
  | some i => cv.asleep (threads i) = true

instance [Fintype ι] : DecidablePred (cv.MayWake threads)
  | none => inferInstanceAs (Decidable (∀ i, cv.asleep (threads i) = false))
  | some i => inferInstanceAs (Decidable (cv.asleep (threads i) = true))

def notifyOne [DecidableEq ι] : Option ι → ι → β
  | none => threads
  | some i => Function.update threads i (cv.wake (threads i))

/-- Threads that do not sleep go on as they were. -/
def notifyAll (i : ι) : β := if cv.asleep (threads i) then cv.wake (threads i) else threads i

variable {cv threads} {woken : Option ι} {i : ι}

theorem exists_mayWake (cv : ConditionVariable β) (threads : ι → β) :
    ∃ woken, cv.MayWake threads woken := by
  by_cases h : ∃ i, cv.asleep (threads i) = true
  · obtain ⟨i, hi⟩ := h
    exact ⟨some i, hi⟩
  · exact ⟨none, fun i => Bool.eq_false_iff.mpr fun hi => h ⟨i, hi⟩⟩

theorem asleep_notifyAll : cv.asleep (cv.notifyAll threads i) = false := by
  unfold notifyAll
  split_ifs with h
  · exact cv.asleep_wake _
  · exact Bool.eq_false_iff.mpr h

section Kept

variable {γ : Type*} {f : β → γ} (hf : ∀ b, cv.asleep b = true → f (cv.wake b) = f b)

include hf

/-- What does not change when a thread is woken does not change with a notification. -/
theorem apply_notifyAll (i : ι) : f (cv.notifyAll threads i) = f (threads i) := by
  unfold notifyAll
  split_ifs with h
  · exact hf _ h
  · rfl

theorem apply_notifyOne [DecidableEq ι] (h : cv.MayWake threads woken) (i : ι) :
    f (cv.notifyOne threads woken i) = f (threads i) := by
  cases woken with
  | none => rfl
  | some j =>
    rcases eq_or_ne i j with rfl | hne
    · rw [notifyOne, Function.update_self]
      exact hf _ h
    · rw [notifyOne, Function.update_of_ne hne]

end Kept

section Sums

variable [Fintype ι] {f : β → ℕ} (hf : ∀ b, cv.asleep b = true → f (cv.wake b) = f b + 1)

include hf

theorem sum_notifyAll_le :
    ∑ i, f (cv.notifyAll threads i) ≤ ∑ i, f (threads i) + Fintype.card ι := by
  have hpoint (i : ι) : f (cv.notifyAll threads i) ≤ f (threads i) + 1 := by
    unfold notifyAll
    split_ifs with h
    · exact (hf _ h).le
    · exact Nat.le_succ _
  refine (Finset.sum_le_sum fun i _ => hpoint i).trans_eq ?_
  rw [Finset.sum_add_distrib, ← Finset.card_eq_sum_ones, Finset.card_univ]

theorem sum_notifyOne_le [DecidableEq ι] (h : cv.MayWake threads woken) :
    ∑ i, f (cv.notifyOne threads woken i) ≤ ∑ i, f (threads i) + 1 := by
  cases woken with
  | none => exact Nat.le_succ _
  | some i => exact (Tally.sum_update_of_add (hf _ h)).le

end Sums

/-! ## Wake-ups that are not lost -/

section Covered

variable [Fintype ι] (cv)

/-- Nobody sleeps, or there is no more to be had than there are threads awake for it and
notifications to come. -/
def Covered (ready : β → ℕ) (threads : ι → β) (owed coming : ℕ) : Prop :=
  (∀ i, cv.asleep (threads i) = false) ∨ owed ≤ ∑ i, ready (threads i) + coming

variable {cv} {ready : β → ℕ} {threads' : ι → β} {owed owed' coming coming' : ℕ}

theorem covered_of_eq_zero (h : owed = 0) : cv.Covered ready threads owed coming :=
  Or.inr (h ▸ Nat.zero_le _)

theorem Covered.congr (h : cv.Covered ready threads owed coming)
    (hasleep : ∀ i, cv.asleep (threads' i) = cv.asleep (threads i))
    (hready : ∀ i, ready (threads' i) = ready (threads i))
    (hle : owed' + coming ≤ owed + coming') : cv.Covered ready threads' owed' coming' := by
  rcases h with h | h
  · exact Or.inl fun i => (hasleep i).trans (h i)
  · right
    rw [Finset.sum_congr rfl fun i _ => hready i]
    omega

/-- A thread that is awake goes on. -/
theorem Covered.update [DecidableEq ι] (h : cv.Covered ready threads owed coming) {b : β}
    (hasleep : cv.asleep b = false)
    (hle : owed' + coming + ready (threads i) ≤ owed + coming' + ready b) :
    cv.Covered ready (Function.update threads i b) owed' coming' := by
  rcases h with h | h
  · left
    intro j
    rcases eq_or_ne j i with rfl | hne
    · rwa [Function.update_self]
    · rw [Function.update_of_ne hne]
      exact h j
  · right
    have hsum := Tally.sum_update ready threads i b
    omega

/-- With a notification there may be one more to be had, or one notification less to come. -/
theorem Covered.notifyOne [DecidableEq ι] (h : cv.Covered ready threads owed coming)
    (hready : ∀ b, cv.asleep b = true → ready (cv.wake b) = ready b + 1)
    (hmay : cv.MayWake threads woken) (hle : owed' + coming ≤ owed + coming' + 1) :
    cv.Covered ready (cv.notifyOne threads woken) owed' coming' := by
  cases woken with
  | none => exact Or.inl hmay
  | some i =>
    refine h.update (cv.asleep_wake _) ?_
    rw [hready _ hmay]
    omega

theorem covered_notifyAll : cv.Covered ready (cv.notifyAll threads) owed coming :=
  Or.inl fun _ => asleep_notifyAll

end Covered

end ConditionVariable
