import Mathlib.Data.List.Perm.Basic
import Mathlib.Order.Lattice

/-! # Sorted maps

A map is its entries in the strict order of their keys, so two maps with the same
lookups are the same map. A stream that feeds each element to the entry of its key
leaves under a key what that key's own elements make, in their order: streams that
agree on every key's elements make the same map.
-/

/-- Entries in the strict order of their keys. -/
structure SortedMap (κ β : Type*) [LT κ] where
  entries : List (κ × β)
  sorted : entries.Pairwise fun e e' => e.1 < e'.1

namespace SortedMap

variable {κ β γ α : Type*} [LinearOrder κ]

def empty : SortedMap κ β := ⟨[], .nil⟩

instance : EmptyCollection (SortedMap κ β) := ⟨empty⟩

/-- The value of the first entry of the key. -/
def lookupEntries (k : κ) : List (κ × β) → Option β
  | [] => none
  | e :: rest => if e.1 = k then some e.2 else lookupEntries k rest

/-- What stands under a key. -/
def get? (m : SortedMap κ β) (k : κ) : Option β := lookupEntries k m.entries

/-- Give the entry of the key a new value, or make the entry in its place. -/
def updateEntries (k : κ) (f : Option β → β) : List (κ × β) → List (κ × β)
  | [] => [(k, f none)]
  | e :: rest =>
    if k < e.1 then (k, f none) :: e :: rest
    else if e.1 < k then e :: updateEntries k f rest
    else (k, f (some e.2)) :: rest

variable {k k' : κ} {v : β} {f : Option β → β} {m m' : SortedMap κ β}

theorem mem_updateEntries {entries : List (κ × β)} {e : κ × β}
    (h : e ∈ updateEntries k f entries) : e.1 = k ∨ e ∈ entries := by
  induction entries with
  | nil =>
    rw [List.mem_singleton.mp h]
    exact .inl rfl
  | cons head rest ih =>
    unfold updateEntries at h
    split_ifs at h with hbefore hafter
    · rcases List.mem_cons.mp h with rfl | hrest
      · exact .inl rfl
      · exact .inr hrest
    · rcases List.mem_cons.mp h with rfl | hrest
      · exact .inr List.mem_cons_self
      · exact (ih hrest).imp_right (List.mem_cons_of_mem head)
    · rcases List.mem_cons.mp h with rfl | hrest
      · exact .inl rfl
      · exact .inr (List.mem_cons_of_mem head hrest)

theorem sorted_updateEntries {entries : List (κ × β)} (k : κ) (f : Option β → β)
    (h : entries.Pairwise fun e e' => e.1 < e'.1) :
    (updateEntries k f entries).Pairwise fun e e' => e.1 < e'.1 := by
  induction entries with
  | nil => exact List.pairwise_singleton _ _
  | cons head rest ih =>
    obtain ⟨hhead, hrest⟩ := List.pairwise_cons.mp h
    unfold updateEntries
    split_ifs with hbefore hafter
    · refine List.pairwise_cons.mpr ⟨fun e he => ?_, h⟩
      rcases List.mem_cons.mp he with rfl | hmem
      · exact hbefore
      · exact hbefore.trans (hhead e hmem)
    · refine List.pairwise_cons.mpr ⟨fun e he => ?_, ih hrest⟩
      rcases mem_updateEntries he with hkey | hmem
      · rw [hkey]
        exact hafter
      · exact hhead e hmem
    · refine List.pairwise_cons.mpr ⟨fun e he => ?_, hrest⟩
      have hkey : head.1 = k := le_antisymm (not_lt.mp hbefore) (not_lt.mp hafter)
      exact hkey ▸ hhead e he

def update (m : SortedMap κ β) (k : κ) (f : Option β → β) : SortedMap κ β :=
  ⟨updateEntries k f m.entries, sorted_updateEntries k f m.sorted⟩

/-- Work on every value with its key. -/
def mapValues (g : κ → β → γ) (m : SortedMap κ β) : SortedMap κ γ where
  entries := m.entries.map fun e => (e.1, g e.1 e.2)
  sorted := List.pairwise_map.mpr m.sorted

/-! ## Lookups -/

@[simp] theorem get?_empty (k : κ) : (∅ : SortedMap κ β).get? k = none := rfl

theorem mem_of_lookupEntries {entries : List (κ × β)} (h : lookupEntries k entries = some v) :
    (k, v) ∈ entries := by
  induction entries with
  | nil => cases h
  | cons head rest ih =>
    unfold lookupEntries at h
    split_ifs at h with hkey
    · cases h
      rw [← hkey]
      exact List.mem_cons_self
    · exact List.mem_cons_of_mem head (ih h)

theorem lookupEntries_of_lt {entries : List (κ × β)} (h : ∀ e ∈ entries, k < e.1) :
    lookupEntries k entries = none := by
  cases hfound : lookupEntries k entries with
  | none => rfl
  | some v => exact (lt_irrefl k (h _ (mem_of_lookupEntries hfound))).elim

theorem lookupEntries_of_mem {entries : List (κ × β)}
    (hsorted : entries.Pairwise fun e e' => e.1 < e'.1) (h : (k, v) ∈ entries) :
    lookupEntries k entries = some v := by
  induction entries with
  | nil => cases h
  | cons head rest ih =>
    obtain ⟨hhead, hrest⟩ := List.pairwise_cons.mp hsorted
    unfold lookupEntries
    rcases List.mem_cons.mp h with rfl | hmem
    · exact if_pos rfl
    · rw [if_neg (hhead (k, v) hmem).ne]
      exact ih hrest hmem

theorem get?_eq_some_iff : m.get? k = some v ↔ (k, v) ∈ m.entries :=
  ⟨mem_of_lookupEntries, lookupEntries_of_mem m.sorted⟩

/-- What is made of the entry of one key. -/
theorem flatMap_entries (m : SortedMap κ β) (k : κ) (f : β → List γ) :
    (m.entries.flatMap fun e => if e.1 = k then f e.2 else []) = (m.get? k).elim [] f := by
  obtain ⟨entries, hsorted⟩ := m
  change _ = (lookupEntries k entries).elim [] f
  induction entries with
  | nil => rfl
  | cons head rest ih =>
    obtain ⟨hhead, hrest⟩ := List.pairwise_cons.mp hsorted
    rw [List.flatMap_cons, ih hrest, lookupEntries]
    split_ifs with hkey
    · rw [lookupEntries_of_lt fun e he => hkey ▸ hhead e he]
      exact List.append_nil _
    · rfl

/-- Two maps with the same lookups are the same. -/
theorem ext_get? (h : ∀ k, m.get? k = m'.get? k) : m = m' := by
  have hnodup : ∀ m : SortedMap κ β, m.entries.Nodup := fun m =>
    m.sorted.imp fun hlt heq => hlt.ne (congrArg Prod.fst heq)
  have hperm : m.entries.Perm m'.entries := by
    refine (List.perm_ext_iff_of_nodup (hnodup m) (hnodup m')).mpr fun e => ?_
    rw [← get?_eq_some_iff, ← get?_eq_some_iff, h]
  have hentries := hperm.eq_of_pairwise
    (fun _ _ _ _ hlt hgt => (lt_asymm hlt hgt).elim) m.sorted m'.sorted
  cases m
  cases m'
  cases hentries
  rfl

theorem lookupEntries_updateEntries {entries : List (κ × β)}
    (hsorted : entries.Pairwise fun e e' => e.1 < e'.1) :
    lookupEntries k (updateEntries k f entries) = some (f (lookupEntries k entries)) := by
  induction entries with
  | nil => simp [updateEntries, lookupEntries]
  | cons head rest ih =>
    obtain ⟨hhead, hrest⟩ := List.pairwise_cons.mp hsorted
    unfold updateEntries
    split_ifs with hbefore hafter
    · rw [lookupEntries_of_lt (List.forall_mem_cons.mpr
        ⟨hbefore, fun e he => hbefore.trans (hhead e he)⟩)]
      exact if_pos rfl
    · rw [lookupEntries, lookupEntries, if_neg hafter.ne, if_neg hafter.ne]
      exact ih hrest
    · have hkey : head.1 = k := le_antisymm (not_lt.mp hbefore) (not_lt.mp hafter)
      simp [lookupEntries, hkey]

@[simp] theorem get?_update_self : (m.update k f).get? k = some (f (m.get? k)) :=
  lookupEntries_updateEntries m.sorted

theorem get?_update_of_ne (h : k' ≠ k) : (m.update k f).get? k' = m.get? k' := by
  change lookupEntries k' (updateEntries k f m.entries) = lookupEntries k' m.entries
  induction m.entries with
  | nil => simp [updateEntries, lookupEntries, h.symm]
  | cons head rest ih =>
    unfold updateEntries
    split_ifs with hbefore hafter
    · simp [lookupEntries, h.symm]
    · simp [lookupEntries, ih]
    · have hkey : head.1 = k := le_antisymm (not_lt.mp hbefore) (not_lt.mp hafter)
      simp [lookupEntries, hkey, h.symm]

/-- Updates of two keys, or commuting updates of one, can be made in either order. -/
theorem update_comm {g : Option β → β} (hcomm : ∀ v, f (some (g v)) = g (some (f v))) (k k' : κ) :
    (m.update k f).update k' g = (m.update k' g).update k f := by
  refine ext_get? fun key => ?_
  by_cases hkey : key = k <;> by_cases hkey' : key = k'
  · subst hkey hkey'
    rw [get?_update_self, get?_update_self, get?_update_self, get?_update_self, hcomm]
  · subst hkey
    rw [get?_update_of_ne hkey', get?_update_self, get?_update_self, get?_update_of_ne hkey']
  · subst hkey'
    rw [get?_update_self, get?_update_of_ne hkey, get?_update_of_ne hkey, get?_update_self]
  · rw [get?_update_of_ne hkey', get?_update_of_ne hkey, get?_update_of_ne hkey,
      get?_update_of_ne hkey']

/-- Updates of two keys can be made in either order. -/
theorem update_comm_of_ne {g : Option β → β} (hne : k ≠ k') :
    (m.update k f).update k' g = (m.update k' g).update k f := by
  refine ext_get? fun key => ?_
  by_cases hkey : key = k
  · subst hkey
    rw [get?_update_of_ne hne, get?_update_self, get?_update_self, get?_update_of_ne hne]
  · by_cases hkey' : key = k'
    · subst hkey'
      rw [get?_update_self, get?_update_of_ne hkey, get?_update_of_ne hkey, get?_update_self]
    · rw [get?_update_of_ne hkey', get?_update_of_ne hkey, get?_update_of_ne hkey,
        get?_update_of_ne hkey']

/-! ## Streams -/

section

variable (key : α → κ)

/-- For every key the two streams have the same elements in the same order. -/
def SameStreams (l l' : List α) : Prop :=
  ∀ k, (l.filter fun a => key a = k) = l'.filter fun a => key a = k

variable {key} {l l' : List α}

/-- Streams that agree on every key are rearrangements of each other. -/
theorem SameStreams.perm (h : SameStreams key l l') : l.Perm l' := by
  classical
  refine List.perm_iff_count.mpr fun a => ?_
  have hcount : ∀ l : List α, l.count a = (l.filter fun b => key b = key a).count a := fun l =>
    (List.count_filter (by simp)).symm
  rw [hcount l, hcount l', h (key a)]

variable (key) in
/-- Feed each element to the entry of its key. -/
def demux (step : Option β → α → β) (m : SortedMap κ β) (l : List α) : SortedMap κ β :=
  l.foldl (fun m a => m.update (key a) fun v => step v a) m

theorem get?_demux (step : Option β → α → β) (m : SortedMap κ β) (l : List α) (k : κ) :
    (demux key step m l).get? k =
      (l.filter fun a => key a = k).foldl (fun v a => some (step v a)) (m.get? k) := by
  induction l generalizing m with
  | nil => rfl
  | cons a l ih =>
    rw [demux, List.foldl_cons]
    change (demux key step _ l).get? k = _
    rw [ih]
    by_cases hkey : key a = k
    · rw [List.filter_cons_of_pos (by simpa using hkey), List.foldl_cons, ← hkey,
        get?_update_self]
    · rw [List.filter_cons_of_neg (by simpa using hkey), get?_update_of_ne (Ne.symm hkey)]

/-- Streams that agree on every key make the same map. -/
theorem SameStreams.demux_eq (h : SameStreams key l l') (step : Option β → α → β)
    (m : SortedMap κ β) : demux key step m l = demux key step m l' :=
  ext_get? fun k => by rw [get?_demux, get?_demux, h k]

end

end SortedMap
