import Mathlib.Data.Int.Init
import Mathlib.Data.List.DropRight

/-! # Checked access

Reads of a list by index, differences of unsigned numbers and quotients, each of which faults
where the machine's would not be defined. The rules say when a loop over such reads does not
fault and what it computes.
-/

namespace Checked

inductive Fault
  | outOfRange
  | wrapped
  | domain
  deriving DecidableEq

/-! ## Accesses -/

section Access

variable {α : Type}

def read (xs : List α) (i : ℕ) : Except Fault α :=
  match xs[i]? with
  | some x => .ok x
  | none => .error .outOfRange

/-- A signed index, which is cast to an unsigned one. -/
def readAt (xs : List α) (i : ℤ) : Except Fault α :=
  if i < 0 then .error .outOfRange else read xs i.toNat

def back (xs : List α) : Except Fault α :=
  match xs.getLast? with
  | some x => .ok x
  | none => .error .outOfRange

def first (xs : List α) (n : ℕ) : Except Fault (List α) :=
  if n ≤ xs.length then .ok (xs.take n) else .error .outOfRange

def last (xs : List α) (n : ℕ) : Except Fault (List α) :=
  if n ≤ xs.length then .ok (xs.rtake n) else .error .outOfRange

def sub (a b : ℕ) : Except Fault ℕ := if b ≤ a then .ok (a - b) else .error .wrapped

/-- The quotient towards zero. -/
def quotient (a b : ℤ) : Except Fault ℤ := if b < 1 then .error .domain else .ok (a.tdiv b)

def require (p : Prop) [Decidable p] : Except Fault Unit :=
  if p then .ok () else .error .domain

variable {xs : List α} {i n : ℕ}

theorem read_eq (h : i < xs.length) : read xs i = .ok xs[i] := by
  rw [read, List.getElem?_eq_getElem h]

theorem readAt_natCast (xs : List α) (i : ℕ) : readAt xs i = read xs i := by
  rw [readAt, if_neg (by omega), Int.toNat_natCast]

theorem back_eq (d : α) (h : xs ≠ []) : back xs = .ok (xs.getLastD d) := by
  rw [back, List.getLastD_eq_getLast?, List.getLast?_eq_getLast_of_ne_nil h]
  rfl

theorem first_eq (h : n ≤ xs.length) : first xs n = .ok (xs.take n) := if_pos h

theorem first_sub_one (xs : List α) : first xs (xs.length - 1) = .ok xs.dropLast := by
  rw [first_eq (Nat.sub_le _ _), List.dropLast_eq_take]

theorem last_eq (h : n ≤ xs.length) : last xs n = .ok (xs.rtake n) := if_pos h

theorem sub_eq {a b : ℕ} (h : b ≤ a) : sub a b = .ok (a - b) := if_pos h

theorem quotient_eq {a b : ℤ} (h : 1 ≤ b) : quotient a b = .ok (a.tdiv b) := if_neg (by omega)

theorem require_eq {p : Prop} [Decidable p] (h : p) : require p = .ok () := if_pos h

end Access

/-! ## Loops -/

section Loops

variable {α β ε : Type} {xs : List α}

@[simp] theorem ok_bind (a : α) (f : α → Except ε β) : (Except.ok a >>= f) = f a := rfl

theorem allM_eq {f : α → Except ε Bool} {g : α → Bool} (h : ∀ x ∈ xs, f x = .ok (g x)) :
    xs.allM f = .ok (xs.all g) := by
  induction xs with
  | nil => rfl
  | cons x xs ih =>
    obtain ⟨hx, hxs⟩ := List.forall_mem_cons.mp h
    rw [List.allM, hx, ok_bind, List.all_cons]
    cases g x
    · rfl
    · exact ih hxs

theorem anyM_eq {f : α → Except ε Bool} {g : α → Bool} (h : ∀ x ∈ xs, f x = .ok (g x)) :
    xs.anyM f = .ok (xs.any g) := by
  induction xs with
  | nil => rfl
  | cons x xs ih =>
    obtain ⟨hx, hxs⟩ := List.forall_mem_cons.mp h
    rw [List.anyM, hx, ok_bind, List.any_cons]
    cases g x
    · exact ih hxs
    · rfl

theorem mapM_eq {f : α → Except ε β} {g : α → β} (h : ∀ x ∈ xs, f x = .ok (g x)) :
    xs.mapM f = .ok (xs.map g) := by
  induction xs with
  | nil => rfl
  | cons x xs ih =>
    obtain ⟨hx, hxs⟩ := List.forall_mem_cons.mp h
    rw [List.mapM_cons, hx, ok_bind, ih hxs]
    rfl

theorem foldlM_eq {f : β → α → Except ε β} {g : β → α → β}
    (h : ∀ x ∈ xs, ∀ b, f b x = .ok (g b x)) (b : β) : xs.foldlM f b = .ok (xs.foldl g b) := by
  induction xs generalizing b with
  | nil => rfl
  | cons x xs ih =>
    obtain ⟨hx, hxs⟩ := List.forall_mem_cons.mp h
    rw [List.foldlM_cons, hx b, ok_bind]
    exact ih hxs (g b x)

/-- Two loops whose turns succeed alike. -/
theorem foldlM_agree {δ : Type} {f : β → α → Except ε β} {g : β → α → Except δ β}
    (h : ∀ x ∈ xs, ∀ b, ∃ b', f b x = .ok b' ∧ g b x = .ok b') (b : β) :
    ∃ b', xs.foldlM f b = .ok b' ∧ xs.foldlM g b = .ok b' := by
  induction xs generalizing b with
  | nil => exact ⟨b, rfl, rfl⟩
  | cons x xs ih =>
    obtain ⟨hx, hxs⟩ := List.forall_mem_cons.mp h
    obtain ⟨b', hf, hg⟩ := hx b
    rw [List.foldlM_cons, List.foldlM_cons, hf, hg, ok_bind, ok_bind]
    exact ih hxs b'

theorem findSomeM?_eq {f : α → Except ε (Option β)} {g : α → Option β}
    (h : ∀ x ∈ xs, f x = .ok (g x)) : xs.findSomeM? f = .ok (xs.findSome? g) := by
  induction xs with
  | nil => rfl
  | cons x xs ih =>
    obtain ⟨hx, hxs⟩ := List.forall_mem_cons.mp h
    rw [List.findSomeM?, hx, ok_bind, List.findSome?_cons]
    cases g x
    · exact ih hxs
    · rfl

/-- A loop over the first indices. -/
theorem foldlM_read_take {f : β → α → β} {n : ℕ} (hn : n ≤ xs.length) (b : β) :
    (List.range n).foldlM (fun b i => do return f b (← read xs i)) b =
      .ok ((xs.take n).foldl f b) := by
  induction n with
  | zero => rfl
  | succ n ih =>
    have hlt : n < xs.length := hn
    rw [List.range_succ, List.foldlM_append, ih hlt.le, ok_bind, List.foldlM_cons, read_eq hlt,
      List.take_succ_eq_append_getElem hlt, List.foldl_append]
    rfl

/-- A loop over all indices from one on. -/
theorem foldlM_read {f : β → α → β} {j : ℕ} (b : β) :
    (List.range' j (xs.length - j)).foldlM (fun b i => do return f b (← read xs i)) b =
      .ok ((xs.drop j).foldl f b) := by
  induction hn : xs.length - j generalizing j b with
  | zero => rw [List.drop_eq_nil_of_le (by omega)]; rfl
  | succ n ih =>
    have hj : j < xs.length := by omega
    rw [List.range'_succ, List.foldlM_cons, read_eq hj, List.drop_eq_getElem_cons hj]
    exact ih (f b xs[j]) (by omega)

theorem anyM_read {p : α → Bool} {j : ℕ} :
    (List.range' j (xs.length - j)).anyM (fun i => do return p (← read xs i)) =
      .ok ((xs.drop j).any p) := by
  induction hn : xs.length - j generalizing j with
  | zero => rw [List.drop_eq_nil_of_le (by omega)]; rfl
  | succ n ih =>
    have hj : j < xs.length := by omega
    rw [List.range'_succ, List.anyM, read_eq hj, List.drop_eq_getElem_cons hj, List.any_cons,
      ok_bind]
    cases p xs[j]
    · exact ih (by omega)
    · rfl

/-- The first index from one on whose element has the property, or the end. -/
def seek (p : α → Bool) (xs : List α) : ℕ → ℕ → Except Fault ℕ
  | 0, j => .ok j
  | fuel + 1, j =>
    if j < xs.length then do
      if p (← read xs j) then return j else seek p xs fuel (j + 1)
    else .ok j

theorem seek_eq {p : α → Bool} {fuel j : ℕ} (hj : j ≤ xs.length) (hfuel : xs.length ≤ j + fuel) :
    seek p xs fuel j = .ok (j + (xs.drop j).findIdx p) := by
  induction fuel generalizing j with
  | zero =>
    rw [List.drop_eq_nil_of_le (by omega)]
    rfl
  | succ fuel ih =>
    unfold seek
    split_ifs with hlt
    · rw [read_eq hlt, ok_bind, List.drop_eq_getElem_cons hlt, List.findIdx_cons]
      cases p xs[j]
      · rw [if_neg Bool.false_ne_true, ih hlt (by omega)]
        rw [cond_false, Nat.succ_eq_add_one, Nat.add_right_comm, ← Nat.add_assoc]
      · rfl
    · rw [List.drop_eq_nil_of_le (by omega)]
      rfl

end Loops

end Checked
