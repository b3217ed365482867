import Mathlib.Algebra.Order.Group.Defs
import Mathlib.Data.List.TakeWhile

/-! # Sliding windows over a sorted log

The window that ends at an instant is half open: an entry as old as the width
has left it. Evicting from the front of a sorted queue keeps exactly the entries
still inside, and an admission that finds fewer than the cap keeps every window
within the cap.
-/

namespace Window

variable {α : Type*} [AddCommGroup α] [LinearOrder α]

/-- Drop the entries at the front that are at least a width old. -/
def evict (width now : α) (queue : List α) : List α :=
  queue.dropWhile fun t => decide (width ≤ now - t)

/-- The entry lies in the half-open window that ends now. -/
def Inside (width now t : α) : Prop := now - width < t ∧ t ≤ now

instance (width now t : α) : Decidable (Inside width now t) :=
  inferInstanceAs (Decidable (_ ∧ _))

/-- The number of entries of a log in the window that ends now. -/
def count (width now : α) (log : List α) : ℕ := log.countP fun t => decide (Inside width now t)

/-- No window holds more entries than the cap. -/
def Paced (width : α) (cap : ℕ) (log : List α) : Prop := ∀ now, count width now log ≤ cap

/-- The queue is the part of a sorted log that may still lie in a window. -/
structure Keeps (width now : α) (log queue : List α) : Prop where
  sorted : log.Pairwise (· ≤ ·)
  past : ∀ t ∈ log, t ≤ now
  split : ∃ old, log = old ++ queue ∧ ∀ t ∈ old, width ≤ now - t

theorem Keeps.nil {width now : α} : Keeps width now [] [] :=
  ⟨.nil, fun _ h => absurd h List.not_mem_nil, [], rfl, fun _ h => absurd h List.not_mem_nil⟩

variable [IsOrderedAddMonoid α] {width now now' t : α} {cap : ℕ} {log queue : List α}

theorem mem_evict_inside (hs : queue.Pairwise (· ≤ ·)) (ht : t ∈ evict width now queue) :
    ¬ width ≤ now - t := by
  induction queue with
  | nil => simp [evict] at ht
  | cons a queue ih =>
    rw [List.pairwise_cons] at hs
    by_cases ha : width ≤ now - a
    · simp only [evict, List.dropWhile_cons, ha, decide_true, ↓reduceIte] at ht
      exact ih hs.2 ht
    · simp only [evict, List.dropWhile_cons, ha, decide_false, Bool.false_eq_true, ↓reduceIte,
        List.mem_cons] at ht
      rcases ht with rfl | ht
      · exact ha
      · have := hs.1 t ht
        exact fun h => ha (h.trans (sub_le_sub_left this now))

omit [IsOrderedAddMonoid α] in
theorem evict_split (width now : α) (queue : List α) :
    ∃ old, queue = old ++ evict width now queue ∧ ∀ t ∈ old, width ≤ now - t := by
  refine ⟨queue.takeWhile fun t => decide (width ≤ now - t),
    (List.takeWhile_append_dropWhile ..).symm, fun t ht => ?_⟩
  simpa using List.mem_takeWhile_imp ht

omit [IsOrderedAddMonoid α] in
/-- What is not yet a width old is not evicted. -/
theorem filter_evict {p : α → Bool} (hp : ∀ t, p t = true → ¬ width ≤ now - t) :
    (evict width now queue).filter p = queue.filter p := by
  obtain ⟨old, hsplit, hold⟩ := evict_split width now queue
  have hnone : old.filter p = [] := by
    rw [List.filter_eq_nil_iff]
    exact fun t ht h => hp t h (hold t ht)
  conv_rhs => rw [hsplit, List.filter_append, hnone, List.nil_append]

/-- An eviction leaves the window as it is, also in a queue out of order. -/
theorem count_evict : count width now (evict width now queue) = count width now queue := by
  rw [count, List.countP_eq_length_filter, filter_evict, ← List.countP_eq_length_filter]
  · rfl
  · intro t ht
    exact not_le.mpr (sub_lt_comm.mp (of_decide_eq_true ht).1)

/-- Time moves on: the front is evicted. -/
theorem Keeps.evict (k : Keeps width now log queue) (hle : now ≤ now') :
    Keeps width now' log (evict width now' queue) := by
  obtain ⟨old, hsplit, hold⟩ := k.split
  obtain ⟨older, hq, holder⟩ := evict_split width now' queue
  refine ⟨k.sorted, fun t ht => (k.past t ht).trans hle, old ++ older, ?_, ?_⟩
  · rw [List.append_assoc, ← hq, hsplit]
  · intro t ht
    rcases List.mem_append.mp ht with ht | ht
    · exact (hold t ht).trans (sub_le_sub_right hle t)
    · exact holder t ht

omit [IsOrderedAddMonoid α] in
/-- An entry admitted now goes to the back. -/
theorem Keeps.push (k : Keeps width now log queue) :
    Keeps width now (log ++ [now]) (queue ++ [now]) := by
  obtain ⟨old, hsplit, hold⟩ := k.split
  refine ⟨?_, ?_, old, by rw [hsplit, List.append_assoc], hold⟩
  · rw [List.pairwise_append]
    refine ⟨k.sorted, List.pairwise_singleton _ _, fun t ht u hu => ?_⟩
    rw [List.mem_singleton.mp hu]
    exact k.past t ht
  · intro t ht
    rcases List.mem_append.mp ht with ht | ht
    · exact k.past t ht
    · exact (List.mem_singleton.mp ht).le

omit [IsOrderedAddMonoid α] in
theorem Keeps.queue_sorted (k : Keeps width now log queue) : queue.Pairwise (· ≤ ·) := by
  obtain ⟨old, hsplit, -⟩ := k.split
  exact (List.pairwise_append.mp (hsplit ▸ k.sorted)).2.1

/-- What the queue has dropped counts in no later window. -/
theorem Keeps.count_queue (k : Keeps width now log queue) (hle : now ≤ now') :
    count width now' queue = count width now' log := by
  obtain ⟨old, hsplit, hold⟩ := k.split
  have hout : old.countP (fun t => decide (Inside width now' t)) = 0 := by
    rw [List.countP_eq_zero]
    intro t ht hin
    exact absurd ((hold t ht).trans (sub_le_sub_right hle t))
      (not_le.mpr (sub_lt_comm.mp (of_decide_eq_true hin).1))
  rw [count, count, hsplit, List.countP_append, hout, Nat.zero_add]

/-- After eviction the queue has one entry for each log entry in the window. -/
theorem Keeps.length_evict (k : Keeps width now log queue) (hle : now ≤ now') :
    (Window.evict width now' queue).length = count width now' log := by
  have hk := k.evict hle
  rw [← hk.count_queue le_rfl, count, List.countP_eq_length.mpr]
  intro t ht
  have hlt := not_le.mp (mem_evict_inside k.queue_sorted ht)
  obtain ⟨old, hsplit, -⟩ := hk.split
  exact decide_eq_true ⟨sub_lt_comm.mp hlt, hk.past t (hsplit ▸ List.mem_append_right _ ht)⟩

theorem Keeps.mono (k : Keeps width now log queue) (hle : now ≤ now') :
    Keeps width now' log queue := by
  obtain ⟨old, hsplit, hold⟩ := k.split
  exact ⟨k.sorted, fun t ht => (k.past t ht).trans hle, old, hsplit,
    fun t ht => (hold t ht).trans (sub_le_sub_right hle t)⟩

omit [IsOrderedAddMonoid α] in
theorem count_perm {log' : List α} (h : log.Perm log') : count width now log = count width now log' :=
  h.countP_eq _

theorem count_le_of_past (width : α) (hp : ∀ t ∈ log, t ≤ now) (hle : now ≤ now') :
    count width now' log ≤ count width now log := by
  refine List.countP_mono_left fun t ht hin => ?_
  have hlt := (of_decide_eq_true hin).1
  exact decide_eq_true ⟨(sub_le_sub_right hle width).trans_lt hlt, hp t ht⟩

/-- An admission that finds fewer entries than the cap keeps the log paced. -/
theorem Paced.snoc (h : Paced width cap log) (hp : ∀ t ∈ log, t ≤ now)
    (hlt : count width now log < cap) : Paced width cap (log ++ [now]) := by
  intro later
  rw [count, List.countP_append]
  change count width later log + _ ≤ cap
  by_cases hin : Inside width later now
  · have := count_le_of_past width hp hin.2
    simp only [List.countP_singleton, hin, decide_true, ↓reduceIte]
    omega
  · simpa [List.countP_singleton, hin] using h later

end Window
