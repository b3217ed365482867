import Mathlib.Logic.Function.Basic
import Mathlib.Order.Lattice

/-! # Keys that expire

A store gives each key a value and the instant the value goes. Reading, and setting
a key that is absent, look at the clock; a key that is past its instant is absent.
-/

namespace Expiring

variable {K V α : Type*} [LinearOrder α]

/-- The value of each key, and the instant from which the key is absent. -/
abbrev Store (K V α : Type*) := K → Option (V × α)

namespace Store

def empty : Store K V α := fun _ => none

/-- The value of a key at an instant. -/
def get (s : Store K V α) (now : α) (key : K) : Option V :=
  match s key with
  | some (value, expiry) => if now < expiry then some value else none
  | none => none

/-- The key is present at an instant. -/
def Held (s : Store K V α) (now : α) (key : K) : Prop := (s.get now key).isSome

instance (s : Store K V α) (now : α) (key : K) : Decidable (s.Held now key) :=
  inferInstanceAs (Decidable (_ = true))

section Writes

variable [DecidableEq K]

def set (s : Store K V α) (key : K) (value : V) (expiry : α) : Store K V α :=
  Function.update s key (some (value, expiry))

/-- Give the value of a key another instant to go. -/
def expire (s : Store K V α) (key : K) (expiry : α) : Store K V α :=
  match s key with
  | some (value, _) => s.set key value expiry
  | none => s

def delete (s : Store K V α) (key : K) : Store K V α := Function.update s key none

end Writes

variable {s : Store K V α} {now : α} {key : K} {value : V}

theorem get_eq_some : s.get now key = some value ↔ ∃ expiry, s key = some (value, expiry) ∧
    now < expiry := by
  unfold get
  split
  · rename_i v t h
    split
    · rename_i hlt
      constructor
      · rintro ⟨⟩
        exact ⟨t, h, hlt⟩
      · rintro ⟨t', h', -⟩
        rw [h] at h'
        cases h'
        rfl
    · rename_i hlt
      refine iff_of_false (by simp) ?_
      rintro ⟨t', h', hlt'⟩
      rw [h] at h'
      cases h'
      exact hlt hlt'
  · rename_i h
    refine iff_of_false (by simp) ?_
    rintro ⟨t', h', -⟩
    rw [h] at h'
    cases h'

theorem held_iff : s.Held now key ↔ ∃ value expiry, s key = some (value, expiry) ∧ now < expiry := by
  rw [Held, Option.isSome_iff_exists]
  exact exists_congr fun value => get_eq_some

section

variable [DecidableEq K]

theorem get_set_self {expiry : α} (h : now < expiry) :
    (s.set key value expiry).get now key = some value := by
  rw [get_eq_some]
  exact ⟨expiry, Function.update_self .., h⟩

theorem get_set_of_ne {k : K} (h : k ≠ key) (value : V) (expiry : α) :
    (s.set key value expiry).get now k = s.get now k := by
  rw [get, get, set, Function.update_of_ne h]

theorem get_delete_self : (s.delete key).get now key = none := by
  rw [get, delete, Function.update_self]

theorem get_delete_of_ne {k : K} (h : k ≠ key) : (s.delete key).get now k = s.get now k := by
  rw [get, get, delete, Function.update_of_ne h]

end

end Store

end Expiring
