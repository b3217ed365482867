import Mathlib.Data.List.Basic
import Mathlib.Data.List.Induction

/-! # Registries

A list of records of which no two are the same: a record that is registered again is
merged with the one that is there, and keeps its place.
-/

namespace Registry

variable {α β : Type*} (same : α → α → Bool) (merge : α → α → α)

/-- Register a record: merge it with the first that is the same, or append it. -/
def register (x : α) : List α → List α
  | [] => [x]
  | y :: ys => if same y x then merge y x :: ys else y :: register x ys

/-- Being the same is an equivalence, and a merged record is the same as what it came from. -/
structure Lawful : Prop where
  refl : ∀ x, same x x = true
  congr : ∀ {x y}, same x y = true → ∀ z, same x z = same y z
  merge : ∀ x y z, same (merge x y) z = same x z

variable {same merge} {x z : α} {ys : List α}

theorem find?_register (h : Lawful same merge) (x z : α) (ys : List α) :
    (register same merge x ys).find? (same · z) =
      if same x z then
        some (((ys.find? (same · z)).map fun y => merge y x).getD x)
      else ys.find? (same · z) := by
  induction ys with
  | nil =>
    cases hx : same x z <;> simp [register, hx]
  | cons y ys ih =>
    unfold register
    cases hy : same y x with
    | true =>
      have hcongr : same y z = same x z := h.congr hy z
      have hmerge : same (merge y x) z = same x z := by rw [h.merge, hcongr]
      cases hx : same x z <;> simp [hmerge, hcongr, hx]
    | false =>
      simp only [Bool.false_eq_true, if_false, List.find?_cons, ih]
      cases hyz : same y z with
      | false => rfl
      | true =>
        -- a record that the new one is the same as would be the same as the new one
        have hx : same x z = false := by
          by_contra hx
          rw [Bool.not_eq_false] at hx
          have hsymm : same z x = true := by rw [← h.congr hx, h.refl]
          rw [h.congr hyz, hsymm] at hy
          cases hy
        simp [hx]

/-- The records of a list merged into one. -/
def mergeAll (merge : α → α → α) : List α → Option α
  | [] => none
  | x :: xs => some (xs.foldl merge x)

theorem mergeAll_concat (xs : List α) (x : α) :
    mergeAll merge (xs ++ [x]) = some (((mergeAll merge xs).map fun y => merge y x).getD x) := by
  cases xs <;> simp [mergeAll]

/-- A record is found merged from all the registrations of it. -/
theorem find?_registerAll (h : Lawful same merge) (z : α) (xs : List α) :
    (xs.foldl (fun ys x => register same merge x ys) []).find? (same · z) =
      mergeAll merge (xs.filter (same · z)) := by
  induction xs using List.reverseRecOn with
  | nil => rfl
  | append_singleton xs x ih =>
    rw [List.foldl_concat, find?_register h, ih, List.filter_append]
    cases hx : same x z <;> simp [hx, mergeAll_concat]

theorem mem_register {p : α → Prop} (hx : p x) (hmerge : ∀ y ∈ ys, p y → p (merge y x))
    (hys : ∀ y ∈ ys, p y) : ∀ y ∈ register same merge x ys, p y := by
  induction ys with
  | nil => simpa [register] using hx
  | cons y ys ih =>
    have hy : p y := hys y List.mem_cons_self
    have hrest := fun y h => hys y (List.mem_cons_of_mem _ h)
    unfold register
    split_ifs
    · exact List.forall_mem_cons.mpr ⟨hmerge y List.mem_cons_self hy, hrest⟩
    · exact List.forall_mem_cons.mpr
        ⟨hy, ih (fun y h => hmerge y (List.mem_cons_of_mem _ h)) hrest⟩

/-- What is kept beside the records is found at the place of the record. -/
theorem bind_findIdx?_map (p : α → Bool) (f : α → β) (xs : List α) :
    (xs.findIdx? p).bind (fun i => (xs.map f)[i]?) = (xs.find? p).map f := by
  rw [List.find?_eq_bind_findIdx?_getElem?]
  cases xs.findIdx? p <;> simp

end Registry
