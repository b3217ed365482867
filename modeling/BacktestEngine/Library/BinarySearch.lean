import Mathlib.Data.List.Basic
import Mathlib.Order.Lattice
import Mathlib.Order.Nat

/-! # Binary search in a table sorted by key

The half-open range in play halves with every probe. On a strictly sorted table
the search finds exactly the entry that carries the key, and on a table of which a
front part has a property the lower bound is the end of that part.
-/

namespace BinarySearch

variable {α κ : Type*} [LinearOrder κ] (key : α → κ) (table : List α) (k : κ)

/-- Probe the middle of the range `[lo, hi)` until the key is met or nothing is left. -/
def between : ℕ → ℕ → ℕ → Option α
  | 0, _, _ => none
  | fuel + 1, lo, hi =>
    if lo < hi then
      match table[lo + (hi - lo) / 2]? with
      | none => none
      | some entry =>
        if key entry < k then between fuel (lo + (hi - lo) / 2 + 1) hi
        else if k < key entry then between fuel lo (lo + (hi - lo) / 2)
        else some entry
    else none

/-- Search the whole table. -/
def find : Option α := between key table k table.length 0 table.length

variable {key table k}

theorem key_of_between : ∀ {fuel lo hi : ℕ} {entry : α},
    between key table k fuel lo hi = some entry → entry ∈ table ∧ key entry = k
  | 0, _, _, _, h => by cases h
  | fuel + 1, lo, hi, entry, h => by
    rw [between] at h
    split at h
    · split at h
      · cases h
      · rename_i probe hprobe
        split at h
        · exact key_of_between h
        · split at h
          · exact key_of_between h
          · rename_i hlt hgt
            cases h
            exact ⟨List.mem_of_getElem? hprobe, le_antisymm (not_lt.mp hgt) (not_lt.mp hlt)⟩
    · cases h

theorem between_complete (hs : (table.map key).Pairwise (· < ·)) {i : ℕ} {entry : α}
    (hi : table[i]? = some entry) (hk : key entry = k) :
    ∀ {fuel lo up : ℕ}, lo ≤ i → i < up → up ≤ table.length → up - lo ≤ fuel →
      between key table k fuel lo up = some entry
  | 0, lo, up, hlo, hup, _, hf => by omega
  | fuel + 1, lo, up, hlo, hup, hlen, hf => by
    have hmid : lo + (up - lo) / 2 < table.length := by omega
    rw [List.pairwise_map, List.pairwise_iff_getElem] at hs
    obtain ⟨hil, rfl⟩ := List.getElem?_eq_some_iff.mp hi
    rw [between, if_pos (by omega), List.getElem?_eq_getElem hmid]
    dsimp only
    rcases lt_trichotomy i (lo + (up - lo) / 2) with hlt | heq | hgt
    · have := hs i _ hil hmid hlt
      rw [if_neg (hk ▸ this.le.not_gt), if_pos (hk ▸ this)]
      exact between_complete (List.pairwise_map.mpr (List.pairwise_iff_getElem.mpr hs)) hi hk
        hlo hlt hmid.le (by omega)
    · subst heq
      rw [if_neg (hk ▸ lt_irrefl _), if_neg (hk ▸ lt_irrefl _)]
    · have := hs _ i hmid hil hgt
      rw [if_pos (hk ▸ this)]
      exact between_complete (List.pairwise_map.mpr (List.pairwise_iff_getElem.mpr hs)) hi hk
        (by omega) hup hlen (by omega)

/-- On a strictly sorted table the search finds exactly the entry with the key. -/
theorem find_eq_some_iff (hs : (table.map key).Pairwise (· < ·)) {entry : α} :
    find key table k = some entry ↔ entry ∈ table ∧ key entry = k := by
  constructor
  · exact key_of_between
  · rintro ⟨hm, hk⟩
    obtain ⟨i, hil, hi⟩ := List.getElem_of_mem hm
    exact between_complete hs (by rw [List.getElem?_eq_getElem hil, hi]) hk (Nat.zero_le _) hil
      le_rfl (by omega)

theorem find_eq_none_iff (hs : (table.map key).Pairwise (· < ·)) :
    find key table k = none ↔ ∀ entry ∈ table, key entry ≠ k := by
  rw [Option.eq_none_iff_forall_ne_some]
  constructor
  · exact fun h entry hm hk => h entry ((find_eq_some_iff hs).mpr ⟨hm, hk⟩)
  · exact fun h entry he => h entry ((find_eq_some_iff hs).mp he).1 ((find_eq_some_iff hs).mp he).2

/-! ## The lower bound -/

section LowerBound

variable (p : α → Bool)

/-- Halve the range of the given length after `first` until it is empty. -/
def lowerBoundFrom (table : List α) : ℕ → ℕ → ℕ → ℕ
  | 0, first, _ => first
  | fuel + 1, first, length =>
    if length = 0 then first
    else
      match table[first + length / 2]? with
      | none => first
      | some probe =>
        if p probe then lowerBoundFrom table fuel (first + length / 2 + 1) (length - length / 2 - 1)
        else lowerBoundFrom table fuel first (length / 2)

/-- The first place from `first` on that lacks the property. -/
def lowerBound (table : List α) (first : ℕ) : ℕ :=
  lowerBoundFrom p table (table.length - first) first (table.length - first)

variable {p}

theorem lowerBoundFrom_eq {cut : ℕ} (hcut : ∀ i probe, table[i]? = some probe → (p probe ↔ i < cut)) :
    ∀ {fuel first length : ℕ}, length ≤ fuel → first ≤ cut → cut ≤ first + length →
      first + length ≤ table.length → lowerBoundFrom p table fuel first length = cut
  | 0, first, length, hfuel, hfirst, hlast, _ => by
    rw [lowerBoundFrom]
    omega
  | fuel + 1, first, length, hfuel, hfirst, hlast, hlength => by
    rw [lowerBoundFrom]
    split_ifs with hempty
    · omega
    · have hmid : first + length / 2 < table.length := by omega
      have hprobe := hcut _ _ (List.getElem?_eq_getElem hmid)
      rw [List.getElem?_eq_getElem hmid]
      by_cases hp : p table[first + length / 2] = true
      · have hlt := hprobe.mp hp
        simp only [hp, if_true]
        exact lowerBoundFrom_eq hcut (by omega) (by omega) (by omega) (by omega)
      · have hge : cut ≤ first + length / 2 := not_lt.mp (mt hprobe.mpr hp)
        simp only [hp]
        exact lowerBoundFrom_eq hcut (by omega) hfirst hge (by omega)

/-- Where the property holds of a front part only, the bound is where that part ends. -/
theorem lowerBound_eq {cut first : ℕ}
    (hcut : ∀ i probe, table[i]? = some probe → (p probe ↔ i < cut)) (hfirst : first ≤ cut)
    (hlast : cut ≤ table.length) : lowerBound p table first = cut :=
  lowerBoundFrom_eq hcut le_rfl hfirst (by omega) (by omega)

/-- The property holds of a front part of the table only. -/
def Front (p : α → Bool) (table : List α) : Prop := table.Pairwise fun a b => p b → p a

/-- A table whose first entry lacks the property lacks it throughout. -/
theorem Front.eq_false_of_head {a : α} (h : Front p (a :: table)) (ha : p a = false) :
    ∀ b ∈ a :: table, p b = false := by
  intro b hb
  rcases List.mem_cons.mp hb with rfl | hb
  · exact ha
  · rw [Bool.eq_false_iff] at ha ⊢
    exact fun hpb => ha ((List.pairwise_cons.mp h).1 b hb hpb)

theorem Front.takeWhile_eq (h : Front p table) : table.takeWhile p = table.filter p := by
  induction table with
  | nil => rfl
  | cons a table ih =>
    cases ha : p a with
    | true =>
      rw [List.takeWhile_cons_of_pos ha, List.filter_cons_of_pos ha,
        ih (List.pairwise_cons.mp h).2]
    | false =>
      have hnone := h.eq_false_of_head ha
      rw [List.takeWhile_cons_of_neg (by simp [ha]), List.filter_eq_nil_iff.mpr (by simpa using hnone)]

theorem Front.dropWhile_eq (h : Front p table) :
    table.dropWhile p = table.filter fun a => !p a := by
  induction table with
  | nil => rfl
  | cons a table ih =>
    cases ha : p a with
    | true =>
      rw [List.dropWhile_cons_of_pos ha, List.filter_cons_of_neg (by simp [ha]),
        ih (List.pairwise_cons.mp h).2]
    | false =>
      have hnone := h.eq_false_of_head ha
      rw [List.dropWhile_cons_of_neg (by simp [ha]), List.filter_eq_self.mpr (by simpa using hnone)]

theorem Front.iff_lt (h : Front p table) :
    ∀ i probe, table[i]? = some probe → (p probe ↔ i < (table.takeWhile p).length) := by
  induction table with
  | nil => simp
  | cons a table ih =>
    intro i probe hi
    cases ha : p a with
    | true =>
      rw [List.takeWhile_cons_of_pos ha]
      cases i with
      | zero =>
        cases hi
        simp [ha]
      | succ i => simpa using ih (List.pairwise_cons.mp h).2 i probe hi
    | false =>
      have hnone := h.eq_false_of_head ha probe (List.mem_of_getElem? hi)
      rw [List.takeWhile_cons_of_neg (by simp [ha])]
      simp [hnone]

theorem Front.lowerBound_eq {first : ℕ} (h : Front p table)
    (hfirst : first ≤ (table.takeWhile p).length) :
    lowerBound p table first = (table.takeWhile p).length :=
  BinarySearch.lowerBound_eq h.iff_lt hfirst (List.takeWhile_prefix p).length_le

/-- What stands from the end of a front part on. -/
theorem Front.drop (h : Front p table) :
    table.drop (table.takeWhile p).length = table.filter fun a => !p a := by
  rw [← h.dropWhile_eq]
  calc table.drop (table.takeWhile p).length
      = (table.takeWhile p ++ table.dropWhile p).drop (table.takeWhile p).length := by
        rw [List.takeWhile_append_dropWhile]
    _ = table.dropWhile p := List.drop_left

theorem Front.length_le {q : α → Bool} (hp : Front p table) (hq : Front q table)
    (hpq : ∀ a, p a → q a) : (table.takeWhile p).length ≤ (table.takeWhile q).length := by
  rw [hp.takeWhile_eq, hq.takeWhile_eq]
  exact (List.monotone_filter_right table hpq).length_le

/-- What stands between the ends of two front parts. -/
theorem Front.between {q : α → Bool} (hp : Front p table) (hq : Front q table)
    (hpq : ∀ a, p a → q a) :
    (table.drop (table.takeWhile p).length).take
        ((table.takeWhile q).length - (table.takeWhile p).length) =
      table.filter fun a => !p a && q a := by
  have htake : table.take (table.takeWhile q).length = table.takeWhile q :=
    List.prefix_iff_eq_take.mp (List.takeWhile_prefix q) ▸ rfl
  have hfront : Front p (table.takeWhile q) := hp.sublist (List.takeWhile_sublist q)
  have hinner : (table.takeWhile q).takeWhile p = table.takeWhile p := by
    rw [hfront.takeWhile_eq, hq.takeWhile_eq, hp.takeWhile_eq, List.filter_filter]
    congr 1
    funext a
    simpa using hpq a
  rw [← List.drop_take, htake, ← hinner, hfront.drop, hq.takeWhile_eq, List.filter_filter]

end LowerBound

end BinarySearch
