import Mathlib.Data.List.AList

/-! # Entries of an association list

A key that is found splits the entries, up to order, into its own entry and the
entries left after erasing it. Sums and duplicate-free projections over the
entries follow through every insertion and removal.
-/

namespace Keyed

variable {α : Type*} {β : α → Type*} [DecidableEq α] {s : AList β} {a : α} {b : β a}

theorem perm_of_dlookup : ∀ {l : List (Sigma β)}, l.dlookup a = some b →
    l.Perm (⟨a, b⟩ :: l.kerase a)
  | [], h => by simp at h
  | e :: l, h => by
    by_cases he : a = e.1
    · subst he
      rw [List.dlookup_cons_eq] at h
      cases h
      rw [List.kerase_cons_eq rfl]
    · rw [List.dlookup_cons_ne l e he] at h
      rw [List.kerase_cons_ne he]
      exact ((perm_of_dlookup h).cons e).trans (List.Perm.swap _ _ _)

theorem entries_perm (h : s.lookup a = some b) :
    s.entries.Perm (⟨a, b⟩ :: (s.erase a).entries) :=
  perm_of_dlookup h

@[simp] theorem entries_insert (s : AList β) (a : α) (b : β a) :
    (s.insert a b).entries = ⟨a, b⟩ :: (s.erase a).entries := rfl

theorem erase_of_lookup_none (h : s.lookup a = none) : (s.erase a).entries = s.entries :=
  List.kerase_of_notMem_keys (AList.lookup_eq_none.mp h)

theorem entries_insert_fresh (h : s.lookup a = none) :
    (s.insert a b).entries = ⟨a, b⟩ :: s.entries := by
  rw [entries_insert, erase_of_lookup_none h]

theorem mem_entries : ⟨a, b⟩ ∈ s.entries ↔ s.lookup a = some b :=
  (List.mem_dlookup_iff s.nodupKeys).symm

theorem entries_eq_nil_iff : s.entries = [] ↔ ∀ a, s.lookup a = none := by
  constructor
  · intro h a
    rw [AList.lookup_eq_none, AList.mem_keys, AList.keys, h]
    simp
  · intro h
    rw [List.eq_nil_iff_forall_not_mem]
    rintro ⟨a, b⟩ he
    rw [mem_entries, h a] at he
    cases he

/-! ## New values under the same keys -/

section MapValues

variable {γ : α → Type*}

def mapValues (f : ∀ a, β a → γ a) (s : AList β) : AList γ :=
  ⟨s.entries.map (.map id f), s.nodupKeys.map₂ f⟩

variable (f : ∀ a, β a → γ a)

@[simp] theorem entries_mapValues (s : AList β) :
    (mapValues f s).entries = s.entries.map (.map id f) := rfl

@[simp] theorem lookup_mapValues (s : AList β) (a : α) :
    (mapValues f s).lookup a = (s.lookup a).map (f a) :=
  List.dlookup_map₂ a

theorem erase_mapValues (s : AList β) (a : α) :
    (mapValues f s).erase a = mapValues f (s.erase a) := by
  apply AList.ext
  change (s.entries.map (.map id f)).kerase a = (s.entries.kerase a).map (.map id f)
  rw [List.kerase, List.kerase, List.eraseP_map]
  rfl

theorem insert_mapValues (s : AList β) (a : α) (b : β a) :
    (mapValues f s).insert a (f a b) = mapValues f (s.insert a b) := by
  apply AList.ext
  rw [entries_insert, erase_mapValues, entries_mapValues, entries_mapValues, entries_insert]
  rfl

end MapValues

end Keyed
