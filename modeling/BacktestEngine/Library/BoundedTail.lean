import Mathlib.Data.List.DropRight

/-! # Histories kept to a depth

A history that only ever changes at its end can be kept to a depth: dropping the front
after every change leaves the last elements of the whole history. A shallower history
is the end of a deeper one.
-/

namespace BoundedTail

variable {α : Type*}

/-- Put in place of the last element what comes of it. -/
def advance (f : Option α → List α) (history : List α) : List α :=
  history.dropLast ++ f history.getLast?

/-- Drop the front when there are more elements than the depth. -/
def trim (depth : ℕ) (history : List α) : List α :=
  if depth < history.length then history.drop (history.length - depth) else history

variable {f : Option α → List α} {history : List α} {depth : ℕ}

theorem trim_eq (depth : ℕ) (history : List α) : trim depth history = history.rtake depth := by
  unfold trim List.rtake
  split_ifs with h
  · rfl
  · rw [Nat.sub_eq_zero_of_le (not_lt.mp h), List.drop_zero]

theorem rtake_rtake {shallow : ℕ} (h : shallow ≤ depth) :
    (history.rtake depth).rtake shallow = history.rtake shallow := by
  simp [List.rtake_eq_reverse_take_reverse, List.take_take, Nat.min_eq_left h]

theorem getLast?_rtake (h : 0 < depth) : (history.rtake depth).getLast? = history.getLast? := by
  rw [List.rtake_eq_reverse_take_reverse, List.getLast?_reverse, List.head?_take,
    if_neg h.ne', List.head?_reverse]

theorem dropLast_rtake : (history.rtake depth).dropLast = history.dropLast.rtake (depth - 1) := by
  cases depth with
  | zero => simp
  | succ depth =>
    induction history using List.reverseRecOn with
    | nil => simp
    | append_singleton history last =>
      rw [List.rtake_concat_succ, List.dropLast_concat, List.dropLast_concat, Nat.add_sub_cancel]

theorem rtake_append (history tail : List α) (depth : ℕ) :
    (history ++ tail).rtake depth =
      history.rtake (depth - tail.length) ++ tail.rtake depth := by
  simp [List.rtake_eq_reverse_take_reverse, List.take_append]

/-- Keeping the depth before a change as well makes no difference to the end. -/
theorem rtake_advance (hf : ∀ last, f last ≠ []) (h : 0 < depth) :
    (advance f (history.rtake depth)).rtake depth = (advance f history).rtake depth := by
  have hpos : 0 < (f history.getLast?).length := List.length_pos_of_ne_nil (hf _)
  rw [advance, advance, getLast?_rtake h, dropLast_rtake, rtake_append, rtake_append,
    rtake_rtake (by omega)]

theorem trim_advance (hf : ∀ last, f last ≠ []) (h : 0 < depth) :
    trim depth (advance f (history.rtake depth)) = (advance f history).rtake depth := by
  rw [trim_eq, rtake_advance hf h]

theorem getLast?_advance (hf : ∀ last, f last ≠ []) :
    (advance f history).getLast? = (f history.getLast?).getLast? := by
  rw [advance, List.getLast?_append]
  cases hlast : (f history.getLast?).getLast? with
  | none => exact absurd (List.getLast?_eq_none_iff.mp hlast) (hf _)
  | some last => rfl

end BoundedTail
