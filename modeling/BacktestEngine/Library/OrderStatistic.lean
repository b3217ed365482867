import Mathlib.Data.List.Sort
import Mathlib.Order.Basic

/-! # Order statistics

The value at a rank of a list, counted from 0, when its items are put in order. It does not
depend on the order that they come in.
-/

namespace BacktestEngine.OrderStatistic

variable {α : Type*} [LinearOrder α] {l l' : List α} {n : ℕ} {a b : α}

/-- No more than `n` items are less than the value, and more than `n` are not greater. -/
structure IsNth (l : List α) (n : ℕ) (a : α) : Prop where
  below : l.countP (· < a) ≤ n
  upTo : n < l.countP (· ≤ a)

theorem IsNth.le (h : IsNth l n a) (h' : IsNth l n b) : a ≤ b := by
  by_contra hlt
  have hcount : l.countP (· ≤ b) ≤ l.countP (· < a) := by
    apply List.countP_mono_left
    intro x _ hx
    exact decide_eq_true ((of_decide_eq_true hx).trans_lt (not_le.mp hlt))
  exact (h'.upTo.trans_le (hcount.trans h.below)).false

theorem IsNth.unique (h : IsNth l n a) (h' : IsNth l n b) : a = b := le_antisymm (h.le h') (h'.le h)

theorem isNth_congr (h : l.Perm l') : IsNth l n a ↔ IsNth l' n a := by
  constructor
  · rintro ⟨hbelow, hupTo⟩
    exact ⟨h.countP_eq _ ▸ hbelow, h.countP_eq _ ▸ hupTo⟩
  · rintro ⟨hbelow, hupTo⟩
    exact ⟨(h.countP_eq _).symm ▸ hbelow, (h.countP_eq _).symm ▸ hupTo⟩

/-- In an ordered list it is the item at that index. -/
theorem isNth_getElem (h : l.Pairwise (· ≤ ·)) (hn : n < l.length) : IsNth l n l[n] := by
  have hsplit : l = l.take n ++ l[n] :: l.drop (n + 1) := by
    rw [← List.drop_eq_getElem_cons hn, List.take_append_drop]
  have hordered := h
  rw [hsplit, List.pairwise_append, List.pairwise_cons] at hordered
  obtain ⟨-, ⟨hafter, -⟩, hbefore⟩ := hordered
  have hlength : (l.take n).length = n := List.length_take_of_le hn.le
  constructor
  · have hnone : (l[n] :: l.drop (n + 1)).countP (· < l[n]) = 0 := by
      rw [List.countP_eq_zero]
      intro x hx
      rw [decide_eq_true_iff, not_lt]
      obtain rfl | hx := List.mem_cons.mp hx
      · exact le_rfl
      · exact hafter x hx
    calc l.countP (· < l[n]) = (l.take n ++ l[n] :: l.drop (n + 1)).countP (· < l[n]) := by
          rw [← hsplit]
      _ = (l.take n).countP (· < l[n]) := by rw [List.countP_append, hnone, Nat.add_zero]
      _ ≤ (l.take n).length := List.countP_le_length
      _ = n := hlength
  · have hall : (l.take n).countP (· ≤ l[n]) = n := by
      rw [List.countP_eq_length.mpr, hlength]
      intro x hx
      exact decide_eq_true (hbefore x hx _ List.mem_cons_self)
    have hself : (l[n] :: l.drop (n + 1)).countP (· ≤ l[n]) =
        (l.drop (n + 1)).countP (· ≤ l[n]) + 1 :=
      List.countP_cons_of_pos (decide_eq_true le_rfl)
    have hcount : l.countP (· ≤ l[n]) = n + ((l.drop (n + 1)).countP (· ≤ l[n]) + 1) :=
      calc l.countP (· ≤ l[n]) = (l.take n ++ l[n] :: l.drop (n + 1)).countP (· ≤ l[n]) := by
            rw [← hsplit]
        _ = n + ((l.drop (n + 1)).countP (· ≤ l[n]) + 1) := by
            rw [List.countP_append, hall, hself]
    omega

/-- What selection leaves at an index of the list. -/
def nthElement (l : List α) (n : ℕ) : Option α := (l.insertionSort (· ≤ ·))[n]?

theorem nthElement_eq_some_iff (hn : n < l.length) : nthElement l n = some a ↔ IsNth l n a := by
  have hsorted := List.pairwise_insertionSort (· ≤ ·) l
  have hperm := List.perm_insertionSort (· ≤ ·) l
  have hn' : n < (l.insertionSort (· ≤ ·)).length := by rwa [hperm.length_eq]
  have hnth := (isNth_congr hperm).mp (isNth_getElem hsorted hn')
  rw [nthElement, List.getElem?_eq_getElem hn', Option.some_inj]
  constructor
  · rintro rfl
    exact hnth
  · exact hnth.unique

end BacktestEngine.OrderStatistic
