import Mathlib.Data.List.Induction
import Mathlib.Data.List.Perm.Basic

/-! # Queues that drop their oldest entry

Entries are put in at the end of a queue and leave it at the front, taken by its reader or dropped
to make room. What has arrived is what was taken and what was dropped, each in its order, and after
them what is queued.
-/

/-- A list is made of two others, each in its order. -/
inductive Interleaved {α : Type*} : List α → List α → List α → Prop
  | nil : Interleaved [] [] []
  | left {as bs cs : List α} (a : α) : Interleaved as bs cs →
      Interleaved (as ++ [a]) bs (cs ++ [a])
  | right {as bs cs : List α} (b : α) : Interleaved as bs cs →
      Interleaved as (bs ++ [b]) (cs ++ [b])

namespace Interleaved

variable {α : Type*} {as bs cs : List α}

theorem left_sublist (h : Interleaved as bs cs) : as.Sublist cs := by
  induction h with
  | nil => exact List.Sublist.refl _
  | left a _ ih => exact ih.append (List.Sublist.refl _)
  | right b _ ih => exact ih.trans (List.sublist_append_left _ _)

theorem perm (h : Interleaved as bs cs) : (as ++ bs).Perm cs := by
  induction h with
  | nil => exact List.Perm.refl _
  | @left as bs cs a _ ih =>
    have hswap : (as ++ [a] ++ bs).Perm (as ++ bs ++ [a]) := by
      rw [List.append_assoc, List.append_assoc]
      exact List.Perm.append_left as List.perm_append_comm
    exact hswap.trans (ih.append_right [a])
  | @right as bs cs b _ ih =>
    rw [← List.append_assoc]
    exact ih.append_right [b]

theorem length (h : Interleaved as bs cs) : as.length + bs.length = cs.length := by
  rw [← List.length_append, h.perm.length_eq]

theorem append_left (h : Interleaved as bs cs) (more : List α) :
    Interleaved (as ++ more) bs (cs ++ more) := by
  induction more using List.reverseRecOn with
  | nil => rwa [List.append_nil, List.append_nil]
  | append_singleton more a ih =>
    rw [← List.append_assoc, ← List.append_assoc]
    exact ih.left a

theorem append_right (h : Interleaved as bs cs) (more : List α) :
    Interleaved as (bs ++ more) (cs ++ more) := by
  induction more using List.reverseRecOn with
  | nil => rwa [List.append_nil, List.append_nil]
  | append_singleton more b ih =>
    rw [← List.append_assoc, ← List.append_assoc]
    exact ih.right b

end Interleaved

namespace DropOldest

/-- A queue with its history. -/
structure Buffer (α : Type*) where
  queue : List α := []
  arrived : List α := []
  taken : List α := []
  dropped : List α := []
  kept : ∃ gone, Interleaved taken dropped gone ∧ arrived = gone ++ queue := by
    exact ⟨[], .nil, rfl⟩

namespace Buffer

variable {α : Type*} (b : Buffer α)

instance : Inhabited (Buffer α) := ⟨{}⟩

def push (a : α) : Buffer α where
  queue := b.queue ++ [a]
  arrived := b.arrived ++ [a]
  taken := b.taken
  dropped := b.dropped
  kept := by
    obtain ⟨gone, hgone, harrived⟩ := b.kept
    exact ⟨gone, hgone, by rw [harrived, List.append_assoc]⟩

/-- The reader takes the oldest entries. -/
def take (n : ℕ) : Buffer α where
  queue := b.queue.drop n
  arrived := b.arrived
  taken := b.taken ++ b.queue.take n
  dropped := b.dropped
  kept := by
    obtain ⟨gone, hgone, harrived⟩ := b.kept
    refine ⟨gone ++ b.queue.take n, hgone.append_left _, ?_⟩
    rw [harrived, List.append_assoc, List.take_append_drop]

/-- The oldest entry is dropped. -/
def dropFront : Buffer α where
  queue := b.queue.tail
  arrived := b.arrived
  taken := b.taken
  dropped := b.dropped ++ b.queue.take 1
  kept := by
    obtain ⟨gone, hgone, harrived⟩ := b.kept
    refine ⟨gone ++ b.queue.take 1, hgone.append_right _, ?_⟩
    rw [harrived, List.append_assoc, ← List.drop_one, List.take_append_drop]

variable {b} {a : α} {n : ℕ}

@[simp] theorem queue_push : (b.push a).queue = b.queue ++ [a] := rfl
@[simp] theorem arrived_push : (b.push a).arrived = b.arrived ++ [a] := rfl
@[simp] theorem taken_push : (b.push a).taken = b.taken := rfl
@[simp] theorem dropped_push : (b.push a).dropped = b.dropped := rfl

@[simp] theorem queue_take : (b.take n).queue = b.queue.drop n := rfl
@[simp] theorem arrived_take : (b.take n).arrived = b.arrived := rfl
@[simp] theorem taken_take : (b.take n).taken = b.taken ++ b.queue.take n := rfl
@[simp] theorem dropped_take : (b.take n).dropped = b.dropped := rfl

@[simp] theorem queue_dropFront : b.dropFront.queue = b.queue.tail := rfl
@[simp] theorem arrived_dropFront : b.dropFront.arrived = b.arrived := rfl
@[simp] theorem taken_dropFront : b.dropFront.taken = b.taken := rfl

theorem length_dropped_dropFront (h : b.queue ≠ []) :
    b.dropFront.dropped.length = b.dropped.length + 1 := by
  have hpos := List.length_pos_iff.mpr h
  simp only [dropFront, List.length_append, List.length_take]
  omega

/-- Every entry that arrived was taken, was dropped, or is queued. -/
theorem length_arrived (b : Buffer α) :
    b.arrived.length = b.taken.length + b.dropped.length + b.queue.length := by
  obtain ⟨gone, hgone, harrived⟩ := b.kept
  rw [harrived, List.length_append, hgone.length]

/-- Entries are taken in the order in which they arrived. -/
theorem taken_sublist (b : Buffer α) : b.taken.Sublist b.arrived := by
  obtain ⟨gone, hgone, harrived⟩ := b.kept
  rw [harrived]
  exact hgone.left_sublist.trans (List.sublist_append_left _ _)

end Buffer

end DropOldest
