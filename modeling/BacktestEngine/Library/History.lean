import Mathlib.Data.List.Dedup
import Mathlib.Data.List.Induction

/-! # Histories of events

Whether something has held since the event that started it, as no later event ended it. A list
that is extended at its end and struck from keeps the order in which its entries came last.
-/

namespace History

variable {α : Type*} {starts ends starts' ends' : α → Prop} {history : List α} {a : α}

/-- An event of the history starts it, and no later one ends it. -/
def Since (starts ends : α → Prop) (history : List α) : Prop :=
  ∃ before a after, history = before ++ a :: after ∧ starts a ∧ ∀ b ∈ after, ¬ ends b

theorem not_since_nil : ¬ Since starts ends [] := by
  rintro ⟨before, a, after, h, -⟩
  exact List.append_ne_nil_of_right_ne_nil before (List.cons_ne_nil a after) h.symm

/-- The last event starts it anew, or does not end what held. -/
theorem since_concat :
    Since starts ends (history ++ [a]) ↔ starts a ∨ Since starts ends history ∧ ¬ ends a := by
  constructor
  · rintro ⟨before, b, after, h, hstarts, hends⟩
    obtain rfl | ⟨later, c, rfl⟩ := List.eq_nil_or_concat after
    · obtain ⟨-, hb⟩ := List.append_inj' h rfl
      cases hb
      exact .inl hstarts
    · rw [List.concat_eq_append] at h hends
      rw [← List.cons_append, ← List.append_assoc] at h
      obtain ⟨hhistory, hc⟩ := List.append_inj' h rfl
      cases hc
      refine .inr ⟨⟨before, b, later, hhistory, hstarts, fun e he => ?_⟩, ?_⟩
      · exact hends e (List.mem_append_left _ he)
      · exact hends a (List.mem_append_right _ List.mem_cons_self)
  · rintro (hstarts | ⟨⟨before, b, after, rfl, hstarts, hends⟩, ha⟩)
    · exact ⟨history, a, [], rfl, hstarts, nofun⟩
    · refine ⟨before, b, after ++ [a], by rw [List.append_assoc]; rfl, hstarts, fun e he => ?_⟩
      obtain he | he := List.mem_append.mp he
      · exact hends e he
      · rw [List.mem_singleton.mp he]
        exact ha

theorem since_congr (h : ∀ a ∈ history, (starts a ↔ starts' a) ∧ (ends a ↔ ends' a)) :
    Since starts ends history ↔ Since starts' ends' history := by
  induction history using List.reverseRecOn with
  | nil => exact iff_of_false not_since_nil not_since_nil
  | append_singleton history a ih =>
    obtain ⟨hstarts, hends⟩ := h a (List.mem_append_right _ List.mem_cons_self)
    rw [since_concat, since_concat, hstarts, hends,
      ih fun b hb => h b (List.mem_append_left _ hb)]

section Order

variable [DecidableEq α] {listed came : List α}

/-- Of the entries that came, the last one counts for the order. -/
theorem dedup_concat (came : List α) (a : α) :
    (came ++ [a]).dedup = (came.dedup.filter (· ≠ a)) ++ [a] := by
  induction came with
  | nil => rfl
  | cons b came ih =>
    rw [List.cons_append]
    by_cases hb : b ∈ came
    · rw [List.dedup_cons_of_mem (List.mem_append_left _ hb), List.dedup_cons_of_mem hb, ih]
    · by_cases hba : b = a
      · rw [List.dedup_cons_of_mem (List.mem_append_right _ (List.mem_singleton.mpr hba)),
          List.dedup_cons_of_notMem hb, ih, List.filter_cons_of_neg (by simpa using hba)]
      · have hnot : b ∉ came ++ [a] := by
          rw [List.mem_append, List.mem_singleton]
          exact not_or.mpr ⟨hb, hba⟩
        rw [List.dedup_cons_of_notMem hnot, List.dedup_cons_of_notMem hb, ih,
          List.filter_cons_of_pos (by simpa using hba)]
        rfl

/-- An entry that comes anew is put at the end. -/
theorem sublist_dedup_concat (h : listed.Sublist came.dedup) (ha : a ∉ listed) :
    (listed ++ [a]).Sublist (came ++ [a]).dedup := by
  rw [dedup_concat]
  apply List.Sublist.append_right
  have hlisted : listed.filter (· ≠ a) = listed := by
    rw [List.filter_eq_self]
    intro b hb
    simpa using ne_of_mem_of_not_mem hb ha
  rw [← hlisted]
  exact h.filter _

end Order

end History
