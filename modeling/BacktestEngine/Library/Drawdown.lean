import Mathlib.Algebra.Group.Basic
import Mathlib.Order.Bounds.Basic
import Mathlib.Order.MinMax

/-! # Maximum drawdown of a finite history

The drawdown at a sample is the distance from the running peak down to it. The
peak and the greatest drawdown of a history change at one new sample by a
maximum each, so both can be kept in constant space.
-/

namespace Drawdown

variable {α : Type*} [LinearOrder α] {h : List α} {p d e : α}

/-- The running peak of a history at one of its samples. -/
def PeakAt (h : List α) (j : ℕ) (p : α) : Prop := IsGreatest {x | x ∈ h.take (j + 1)} p

theorem isGreatest_snoc (hp : IsGreatest {x | x ∈ h} p) (e : α) :
    IsGreatest {x | x ∈ h ++ [e]} (max p e) := by
  constructor
  · rcases max_choice p e with hm | hm <;> rw [hm]
    · exact List.mem_append_left _ hp.1
    · exact List.mem_append_right _ (List.mem_singleton_self e)
  · intro x hx
    rcases List.mem_append.mp hx with hx | hx
    · exact le_max_of_le_left (hp.2 hx)
    · rw [List.mem_singleton.mp hx]
      exact le_max_right _ _

theorem isLeast_snoc (hp : IsLeast {x | x ∈ h} p) (e : α) :
    IsLeast {x | x ∈ h ++ [e]} (min p e) :=
  isGreatest_snoc (α := αᵒᵈ) hp e

theorem peakAt_last (j : ℕ) (hj : h.length ≤ j + 1) : PeakAt h j p ↔ IsGreatest {x | x ∈ h} p := by
  rw [PeakAt, List.take_of_length_le hj]

theorem peakAt_append (j : ℕ) (hj : j < h.length) (g : List α) :
    PeakAt (h ++ g) j p ↔ PeakAt h j p := by
  rw [PeakAt, PeakAt, List.take_append_of_le_length (by omega)]

variable [AddGroup α]

/-- The greatest distance from the running peak down to a sample. -/
def IsMaxDrawdown (h : List α) (d : α) : Prop :=
  IsGreatest {d | ∃ j e p, h[j]? = some e ∧ PeakAt h j p ∧ d = p - e} d

/-- A peak and a drawdown that belong to the history. -/
structure Tracks (h : List α) (peak drawdown : α) : Prop where
  peak_greatest : IsGreatest {x | x ∈ h} peak
  drawdown_greatest : IsMaxDrawdown h drawdown

theorem isMaxDrawdown_snoc (hd : IsMaxDrawdown h d) (hp : IsGreatest {x | x ∈ h} p) (e : α) :
    IsMaxDrawdown (h ++ [e]) (max d (max p e - e)) := by
  have hlast : PeakAt (h ++ [e]) h.length (max p e) :=
    (peakAt_last _ (by simp)).mpr (isGreatest_snoc hp e)
  constructor
  · rcases max_choice d (max p e - e) with hm | hm <;> rw [hm]
    · obtain ⟨j, x, q, hj, hq, rfl⟩ := hd.1
      have hlt : j < h.length := (List.getElem?_eq_some_iff.mp hj).1
      exact ⟨j, x, q, by rwa [List.getElem?_append_left hlt], (peakAt_append j hlt _).mpr hq, rfl⟩
    · exact ⟨h.length, e, max p e, by simp, hlast, rfl⟩
  · rintro _ ⟨j, x, q, hj, hq, rfl⟩
    rcases Nat.lt_or_ge j h.length with hlt | hge
    · rw [List.getElem?_append_left hlt] at hj
      exact le_max_of_le_left (hd.2 ⟨j, x, q, hj, (peakAt_append j hlt _).mp hq, rfl⟩)
    · have hjl : j = h.length := by
        have := (List.getElem?_eq_some_iff.mp hj).1
        simp at this
        omega
      subst hjl
      have hx : x = e := by simpa using hj.symm
      rw [hx, hq.unique hlast]
      exact le_max_right _ _

theorem Tracks.singleton (e : α) : Tracks [e] e 0 := by
  have hp : IsGreatest {x | x ∈ [e]} e := by simp [IsGreatest, upperBounds]
  refine ⟨hp, ⟨0, e, e, rfl, hp, (sub_self e).symm⟩, ?_⟩
  rintro _ ⟨j, x, q, hj, hq, rfl⟩
  obtain ⟨hj, rfl⟩ := List.getElem?_eq_some_iff.mp hj
  rw [hq.unique ((peakAt_last j (by simp)).mpr hp)]
  simp

/-- One new sample moves the peak and the drawdown by a maximum each. -/
theorem Tracks.snoc (t : Tracks h p d) (e : α) :
    Tracks (h ++ [e]) (max p e) (max d (max p e - e)) :=
  ⟨isGreatest_snoc t.peak_greatest e, isMaxDrawdown_snoc t.drawdown_greatest t.peak_greatest e⟩

theorem Tracks.last_le (t : Tracks h p d) (he : h.getLast? = some e) : e ≤ p ∧ p - e ≤ d := by
  have hm : e ∈ h := List.mem_of_getLast? he
  refine ⟨t.peak_greatest.2 hm, t.drawdown_greatest.2 ⟨h.length - 1, e, p, ?_, ?_, rfl⟩⟩
  · rwa [List.getLast?_eq_getElem?] at he
  · exact (peakAt_last _ (by omega)).mpr t.peak_greatest

/-- Sampling an unchanged value again moves neither. -/
theorem Tracks.snoc_last (t : Tracks h p d) (he : h.getLast? = some e) : Tracks (h ++ [e]) p d := by
  obtain ⟨hp, hd⟩ := t.last_le he
  simpa only [max_eq_left hp, max_eq_left hd] using t.snoc e

end Drawdown
