import Mathlib.Data.List.DropRight
import Mathlib.Data.List.Infix
import Mathlib.Data.Nat.Notation

/-! # The ends of lists

What a scan finds near the end of a list does not depend on how much of the list it is given, as
long as that reaches back to it.
-/

namespace Endings

variable {α β : Type*} {xs ys : List α} {n : ℕ}

theorem length_rtake_le (xs : List α) (n : ℕ) : (xs.rtake n).length ≤ n := by
  rw [List.rtake, List.length_drop]
  omega

theorem suffix_rtake_iff : ys <:+ xs.rtake n ↔ ys <:+ xs ∧ ys.length ≤ n := by
  constructor
  · intro h
    exact ⟨h.trans (List.drop_suffix _ _), h.length_le.trans (length_rtake_le xs n)⟩
  · rintro ⟨h, hlength⟩
    apply List.suffix_of_suffix_length_le h (List.drop_suffix _ _)
    have := h.length_le
    rw [List.length_drop]
    omega

theorem dropLast_rtake (xs : List α) (n : ℕ) :
    (xs.rtake (n + 1)).dropLast = xs.dropLast.rtake n := by
  apply List.ext_getElem
  · simp only [List.rtake, List.length_dropLast, List.length_drop]
    omega
  · intro i hi hi'
    simp only [List.rtake, List.length_dropLast, List.length_drop] at hi'
    simp only [List.rtake, List.getElem_dropLast, List.getElem_drop, List.length_dropLast]
    congr 1
    omega

/-- A scan whose findings are all the same finds it as soon as there is one. -/
theorem findSome?_eq_some_iff_of_agree {f : α → Option β} {b : β}
    (hagree : ∀ x ∈ xs, ∀ c, f x = some c → c = b) :
    xs.findSome? f = some b ↔ ∃ x ∈ xs, f x = some b := by
  constructor
  · exact List.exists_of_findSome?_eq_some
  · rintro ⟨x, hx, hfound⟩
    cases h : xs.findSome? f with
    | none => simp [List.findSome?_eq_none_iff.mp h x hx] at hfound
    | some c =>
      obtain ⟨y, hy, hc⟩ := List.exists_of_findSome?_eq_some h
      rw [hagree y hy c hc]

/-- Two lists that part at a separator, after whose last occurrence they are read. -/
theorem append_cons_inj {x : α} : ∀ {before before' after after' : List α}, x ∉ after →
    x ∉ after' → before ++ x :: after = before' ++ x :: after' → before = before' ∧ after = after'
  | [], [], _, _, _, _, h => ⟨rfl, (List.cons.inj h).2⟩
  | [], y :: before', _, _, hafter, _, h => by
    rw [(List.cons.inj h).2] at hafter
    simp at hafter
  | y :: before, [], _, _, _, hafter', h => by
    rw [← (List.cons.inj h).2] at hafter'
    simp at hafter'
  | y :: before, z :: before', after, after', hafter, hafter', h => by
    obtain ⟨rfl, hrest⟩ := List.cons.inj h
    obtain ⟨rfl, rfl⟩ := append_cons_inj hafter hafter' hrest
    exact ⟨rfl, rfl⟩

end Endings
