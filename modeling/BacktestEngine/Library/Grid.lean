import Mathlib.Algebra.BigOperators.Group.List.Basic
import Mathlib.Data.List.Induction

/-! # Grids of moves

An axis is a list of moves. A grid is every way to take one move of each axis, the last axis
varying fastest. The number of a way is a number of mixed radix: it is read from its last digit,
and where moves of different axes commute that makes the same as the grid itself.
-/

namespace Grid

variable {β : Type*}

/-- Every way to take one move of each axis. -/
def expand (seed : β) (axes : List (List (β → β))) : List β :=
  axes.foldl (fun found axis => found.flatMap fun b => axis.map (· b)) [seed]

/-- Read the digits of a number, and take the move each one stands for. -/
def decode : List (List (β → β)) → ℕ → β → Option β
  | [], _, b => some b
  | axis :: axes, index, b => do
    let move ← axis[index % axis.length]?
    decode axes (index / axis.length) (move b)

/-- How many ways there are. -/
def size (axes : List (List (β → β))) : ℕ := (axes.map List.length).prod

/-- Moves of different axes commute. -/
def Commuting (axes : List (List (β → β))) : Prop :=
  axes.Pairwise fun axis axis' => ∀ u ∈ axis, ∀ w ∈ axis', Function.Commute u w

variable {axes : List (List (β → β))} {axis : List (β → β)} {seed : β}

theorem expand_concat (axes : List (List (β → β))) (axis : List (β → β)) :
    expand seed (axes ++ [axis]) = (expand seed axes).flatMap fun b => axis.map (· b) :=
  List.foldl_concat ..

theorem size_concat : size (axes ++ [axis]) = size axes * axis.length := by
  rw [size, List.map_append, List.prod_append, List.map_singleton, List.prod_singleton, size]

/-- An entry of rows of one length stands in the row of the quotient. -/
theorem getElem?_flatMap {α : Type*} {found : List α} {row : α → List β} {m : ℕ} (hm : 0 < m)
    (hrow : ∀ b ∈ found, (row b).length = m) (i : ℕ) :
    (found.flatMap row)[i]? = found[i / m]?.bind fun b => (row b)[i % m]? := by
  induction found generalizing i with
  | nil => rfl
  | cons first rest ih =>
    have hfirst := hrow first List.mem_cons_self
    rw [List.flatMap_cons]
    by_cases hi : i < m
    · rw [List.getElem?_append_left (hfirst ▸ hi), Nat.div_eq_of_lt hi, Nat.mod_eq_of_lt hi]
      rfl
    · have hdiv : i / m = (i - m) / m + 1 := by
        rw [Nat.div_eq_sub_div hm (Nat.not_lt.mp hi)]
      rw [List.getElem?_append_right (hfirst ▸ Nat.not_lt.mp hi), hfirst, hdiv,
        Nat.mod_eq_sub_mod (Nat.not_lt.mp hi), List.getElem?_cons_succ]
      exact ih (fun b hb => hrow b (List.mem_cons_of_mem _ hb)) _

theorem length_expand : (expand seed axes).length = size axes := by
  induction axes using List.reverseRecOn with
  | nil => rfl
  | append_singleton axes axis ih =>
    rw [expand_concat, size_concat, List.length_flatMap]
    have hrow : (fun b => (axis.map fun move => move b).length) =
        fun _ : β => axis.length := funext fun b => List.length_map _
    rw [hrow, List.map_const', List.sum_replicate_nat, ih]

/-- A move that commutes with those of the axes can be taken last. -/
theorem decode_move {u : β → β} (h : ∀ axis ∈ axes, ∀ w ∈ axis, Function.Commute u w) (index : ℕ)
    (b : β) : decode axes index (u b) = (decode axes index b).map u := by
  induction axes generalizing index b with
  | nil => rfl
  | cons axis axes ih =>
    rw [decode, decode]
    cases hmove : axis[index % axis.length]? with
    | none => rfl
    | some move =>
      have hcomm := h axis List.mem_cons_self move (List.mem_of_getElem? hmove)
      change decode axes (index / axis.length) (move (u b)) =
        (decode axes (index / axis.length) (move b)).map u
      rw [← ih (fun axis haxis => h axis (List.mem_cons_of_mem _ haxis)), hcomm b]

/-- Digit by digit from the last axis, a number makes the entry of the grid that it numbers. -/
theorem decode_reverse (hcommuting : Commuting axes) (hne : ∀ axis ∈ axes, axis ≠ []) {index : ℕ}
    (hindex : index < size axes) : decode axes.reverse index seed = (expand seed axes)[index]? := by
  induction axes using List.reverseRecOn generalizing index with
  | nil =>
    rw [Nat.lt_one_iff.mp hindex]
    rfl
  | append_singleton axes axis ih =>
    obtain ⟨haxes, -, hcross⟩ := List.pairwise_append.mp hcommuting
    have hpos : 0 < axis.length :=
      List.length_pos_iff.mpr (hne axis (List.mem_append_right _ List.mem_cons_self))
    have hquotient : index / axis.length < size axes := by
      rw [size_concat, Nat.mul_comm] at hindex
      exact Nat.div_lt_of_lt_mul hindex
    rw [expand_concat, getElem?_flatMap hpos fun _ _ => List.length_map _, List.reverse_append]
    change decode (axis :: axes.reverse) index seed = _
    obtain ⟨move, hmove⟩ : ∃ move, axis[index % axis.length]? = some move :=
      ⟨_, List.getElem?_eq_getElem (Nat.mod_lt index hpos)⟩
    have hlength : (expand seed axes).length = size axes := length_expand
    obtain ⟨found, hfound⟩ : ∃ found, (expand seed axes)[index / axis.length]? = some found :=
      ⟨_, List.getElem?_eq_getElem (hlength ▸ hquotient)⟩
    have hcomm : ∀ axis' ∈ axes.reverse, ∀ w ∈ axis', Function.Commute move w :=
      fun axis' haxis' w hw => (hcross axis' (List.mem_reverse.mp haxis') axis List.mem_cons_self
        w hw move (List.mem_of_getElem? hmove)).symm
    rw [decode, hmove, hfound]
    change decode axes.reverse (index / axis.length) (move seed) =
      (axis.map (· found))[index % axis.length]?
    rw [decode_move hcomm,
      ih haxes (fun axis haxis => hne axis (List.mem_append_left _ haxis)) hquotient, hfound,
      List.getElem?_map, hmove]
    rfl

end Grid
