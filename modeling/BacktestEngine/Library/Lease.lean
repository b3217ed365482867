import Mathlib.Algebra.Order.Group.Abs
import Mathlib.Data.List.Basic
import BacktestEngine.Library.Expiring

/-! # Leases on keys that expire

The writes to a key in the order the store ran them: an acquisition, which needs the
key to be absent, an unconditional store, and a deletion. Two acquisitions without a
deletion between them are at least the time to live last stored apart, whoever made
them.
-/

namespace Lease

/-- How a command to a remote store ends: it runs and is answered, it runs and the answer is
lost, or it does not run. -/
inductive Reply
  | answered
  | lost
  | unreached
  deriving DecidableEq

/-- The store runs the command. -/
def Reply.runs : Reply → Bool
  | .answered | .lost => true
  | .unreached => false

/-- What the caller gets to see of the answer. -/
def Reply.answer {α : Type*} : Reply → α → Option α
  | .answered, a => some a
  | .lost, _ | .unreached, _ => none

/-- A write to one key that the store has run. -/
inductive Write (ω α : Type*)
  | acquired (who : ω) (time ttl : α)
  | stored (who : ω) (time ttl : α)
  | deleted (who : ω) (time : α)
  deriving DecidableEq

namespace Write

variable {ω α : Type*}

def time : Write ω α → α
  | acquired _ time _ | stored _ time _ | deleted _ time => time

/-- The time to live a write gives the key. -/
def ttl : Write ω α → Option α
  | acquired _ _ ttl | stored _ _ ttl => some ttl
  | deleted _ _ => none

end Write

section Record

variable {ω α K : Type*} [DecidableEq K] {logs : K → List (Write ω α)} {w : Write ω α}

/-- Add a write to the log of a key. -/
def record (logs : K → List (Write ω α)) (key : K) (w : Write ω α) : K → List (Write ω α) :=
  Function.update logs key (logs key ++ [w])

@[simp] theorem record_self (key : K) : record logs key w key = logs key ++ [w] :=
  Function.update_self ..

theorem mem_record_of_mem {key k : K} {v : Write ω α} (hv : v ∈ logs k) :
    v ∈ record logs key w k := by
  by_cases hk : k = key
  · subst hk
    rw [record_self]
    exact List.mem_append_left _ hv
  · rwa [record, Function.update_of_ne hk]

theorem of_mem_record {key k : K} {v : Write ω α} (hv : v ∈ record logs key w k) :
    v ∈ logs k ∨ k = key ∧ v = w := by
  by_cases hk : k = key
  · subst hk
    rw [record_self] at hv
    rcases List.mem_append.mp hv with hv | hv
    · exact .inl hv
    · exact .inr ⟨rfl, List.mem_singleton.mp hv⟩
  · rw [record, Function.update_of_ne hk] at hv
    exact .inl hv

end Record

variable {ω α : Type*}

/-- The time to live most recently stored. -/
def lastTtl (log : List (Write ω α)) : Option α := log.getLast?.bind Write.ttl

variable [AddCommGroup α]

/-- The instant the last write gives the key to go; none when it has gone. -/
def expiry (log : List (Write ω α)) : Option α :=
  log.getLast?.bind fun w => w.ttl.map fun ttl => w.time + ttl

variable [LinearOrder α]

/-- The key has gone by this instant. -/
def Free (log : List (Write ω α)) (now : α) : Prop := ∀ e, expiry log = some e → e ≤ now

/-- Writes in the order of time, each acquisition on an absent key. -/
structure Legal (log : List (Write ω α)) : Prop where
  ordered : (log.map Write.time).Pairwise (· ≤ ·)
  absent : ∀ {before who time ttl after}, log = before ++ .acquired who time ttl :: after →
    Free before time

variable {log : List (Write ω α)} {w : Write ω α} {now : α}

theorem Legal.nil : Legal ([] : List (Write ω α)) := by
  refine ⟨List.Pairwise.nil, ?_⟩
  intro before who time ttl after h
  simp at h

theorem Legal.snoc (h : Legal log) (hpast : ∀ v ∈ log, v.time ≤ w.time)
    (hfree : ∀ who time ttl, w = .acquired who time ttl → Free log time) :
    Legal (log ++ [w]) := by
  constructor
  · rw [List.map_append, List.pairwise_append]
    refine ⟨h.ordered, List.pairwise_singleton _ _, ?_⟩
    intro t ht u hu
    obtain ⟨v, hv, rfl⟩ := List.mem_map.mp ht
    rw [List.map_singleton, List.mem_singleton] at hu
    rw [hu]
    exact hpast v hv
  · intro before who time ttl after hsplit
    rcases List.eq_nil_or_concat after with rfl | ⟨rest, v, rfl⟩
    · obtain ⟨rfl, hw⟩ := List.append_inj' hsplit rfl
      exact hfree who time ttl (List.singleton_inj.mp hw)
    · rw [List.concat_eq_append, ← List.cons_append, ← List.append_assoc] at hsplit
      exact h.absent (List.append_inj' hsplit rfl).1

theorem Legal.initial (h : Legal log) {before after : List (Write ω α)}
    (hlog : log = before ++ after) : Legal before := by
  subst hlog
  refine ⟨(List.pairwise_append.mp (List.map_append ▸ h.ordered)).1, ?_⟩
  intro first who time ttl rest hsplit
  have hsplit' : before ++ after = first ++ .acquired who time ttl :: (rest ++ after) := by
    rw [hsplit, List.append_assoc, List.cons_append]
  exact h.absent hsplit'

/-- A key that has gone again since an acquisition, and was not deleted, has outlived the time to
live last stored. -/
theorem Legal.outlived [IsOrderedAddMonoid α] (h : Legal log) {before mid : List (Write ω α)}
    {i : ω} {t τ u : α} (hlog : log = before ++ .acquired i t τ :: mid)
    (hkept : ∀ who time, .deleted who time ∉ mid) (hfree : Free log u) :
    ∃ ttl, lastTtl log = some ttl ∧ t + ttl ≤ u := by
  obtain ⟨v, hv⟩ : ∃ v, (Write.acquired i t τ :: mid).getLast? = some v := by
    simp [List.getLast?_cons]
  have hmem : v ∈ Write.acquired i t τ :: mid := List.mem_of_getLast? hv
  have hlast : log.getLast? = some v := by
    rw [hlog, List.getLast?_append, hv, Option.some_or]
  obtain ⟨ttl, httl⟩ : ∃ ttl, v.ttl = some ttl := by
    cases v with
    | acquired who time ttl => exact ⟨ttl, rfl⟩
    | stored who time ttl => exact ⟨ttl, rfl⟩
    | deleted who time =>
      rcases List.mem_cons.mp hmem with heq | hmem
      · cases heq
      · exact absurd hmem (hkept who time)
  have hle : t ≤ v.time := by
    rcases List.mem_cons.mp hmem with rfl | hmem
    · exact le_rfl
    · have hord := h.ordered
      rw [hlog, List.map_append, List.pairwise_append, List.map_cons, List.pairwise_cons] at hord
      exact hord.2.1.1 _ (List.mem_map_of_mem hmem)
  refine ⟨ttl, by simp [lastTtl, hlast, httl], ?_⟩
  exact (add_le_add_left hle ttl).trans (hfree _ (by simp [expiry, hlast, httl]))

/-- Two acquisitions of different owners are a time to live apart when nothing is deleted and
nothing is stored for less. -/
theorem Legal.apart [IsOrderedAddMonoid α] (h : Legal log) {ttl : α}
    (hlong : ∀ v ∈ log, ∃ τ, v.ttl = some τ ∧ ttl ≤ τ) {i j : ω} {t u τ υ : α} (hne : i ≠ j)
    (hi : .acquired i t τ ∈ log) (hj : .acquired j u υ ∈ log) : ttl ≤ |t - u| := by
  have key : ∀ {i j : ω} {t u τ υ : α} {before mid after : List (Write ω α)},
      log = before ++ .acquired i t τ :: mid ++ .acquired j u υ :: after → ttl ≤ u - t := by
    intro i j t u τ υ before mid after hlog
    have hsub : ∀ v ∈ before ++ .acquired i t τ :: mid, v ∈ log := fun v hv =>
      hlog ▸ List.mem_append_left _ hv
    obtain ⟨σ, hσ, hle⟩ := (h.initial hlog).outlived rfl (fun who time hmem => by
      obtain ⟨_, hnone, -⟩ := hlong _
        (hsub _ (List.mem_append_right _ (List.mem_cons_of_mem _ hmem)))
      cases hnone) (h.absent hlog)
    obtain ⟨v, hv, hvσ⟩ := Option.bind_eq_some_iff.mp hσ
    obtain ⟨σ', hσ', hlong'⟩ := hlong v (hsub v (List.mem_of_getLast? hv))
    rw [hvσ] at hσ'
    cases hσ'
    exact hlong'.trans (le_sub_iff_add_le'.mpr hle)
  obtain ⟨before, rest, rfl⟩ := List.append_of_mem hi
  rcases List.mem_append.mp hj with hj | hj
  · obtain ⟨first, mid, rfl⟩ := List.append_of_mem hj
    exact (key rfl).trans (le_abs_self _)
  · rcases List.mem_cons.mp hj with heq | hj
    · cases heq
      exact absurd rfl hne
    · obtain ⟨mid, after, rfl⟩ := List.append_of_mem hj
      rw [abs_sub_comm]
      have hlog : before ++ .acquired i t τ :: (mid ++ .acquired j u υ :: after) =
          before ++ .acquired i t τ :: mid ++ .acquired j u υ :: after := by
        rw [List.append_assoc, List.cons_append]
      exact (key hlog).trans (le_abs_self _)

/-! ## The store behind the log -/

variable {K V : Type*} {store : Expiring.Store K V α} {logs : K → List (Write ω α)}

/-- A store that has run the logged writes; a key nobody has written yet is as it was found. -/
structure Tracks (store : Expiring.Store K V α) (logs : K → List (Write ω α)) (now : α) : Prop where
  legal : ∀ key, Legal (logs key)
  past : ∀ key, ∀ w ∈ logs key, w.time ≤ now
  kept : ∀ key, logs key ≠ [] → (store key).map Prod.snd = expiry (logs key)

theorem Tracks.fresh (store : Expiring.Store K V α) (now : α) :
    Tracks store (fun _ => ([] : List (Write ω α))) now :=
  ⟨fun _ => .nil, fun _ _ h => absurd h List.not_mem_nil, fun _ h => absurd rfl h⟩

theorem Tracks.later (h : Tracks store logs now) {now' : α} (hle : now ≤ now') :
    Tracks store logs now' :=
  ⟨h.legal, fun key w hw => (h.past key w hw).trans hle, h.kept⟩

/-- An absent key has gone by what its log says. -/
theorem Tracks.free (h : Tracks store logs now) {key : K} (habsent : ¬ store.Held now key) :
    Free (logs key) now := by
  intro e he
  by_cases hnil : logs key = []
  · rw [hnil] at he
    cases he
  · rw [← h.kept key hnil, Option.map_eq_some_iff] at he
    obtain ⟨⟨value, expiry⟩, hs, rfl⟩ := he
    by_contra hlt
    exact habsent (Expiring.Store.held_iff.mpr ⟨value, expiry, hs, not_le.mp hlt⟩)

variable [DecidableEq K]

theorem Tracks.record (h : Tracks store logs now) {key : K} {entry : Option (V × α)}
    (hnow : w.time = now) (hentry : entry.map Prod.snd = w.ttl.map fun ttl => now + ttl)
    (hfree : ∀ who time ttl, w = .acquired who time ttl → ¬ store.Held now key) :
    Tracks (Function.update store key entry) (record logs key w) now := by
  constructor
  · intro k
    by_cases hk : k = key
    · subst hk
      rw [record_self]
      refine (h.legal k).snoc (fun v hv => hnow ▸ h.past k v hv) fun who time ttl hw => ?_
      have htime : time = now := by rw [← hnow, hw, Write.time]
      exact htime ▸ h.free (hfree who time ttl hw)
    · rw [Lease.record, Function.update_of_ne hk]
      exact h.legal k
  · intro k v hv
    rcases of_mem_record hv with hv | ⟨-, rfl⟩
    · exact h.past k v hv
    · exact hnow.le
  · intro k hne
    by_cases hk : k = key
    · subst hk
      rw [record_self, Function.update_self, hentry, expiry, List.getLast?_concat, Option.bind_some,
        hnow]
    · rw [Lease.record, Function.update_of_ne hk] at hne ⊢
      rw [Function.update_of_ne hk]
      exact h.kept k hne

variable {key : K} {who : ω}

/-- An acquisition of an absent key. -/
theorem Tracks.acquire (h : Tracks store logs now) (habsent : ¬ store.Held now key) (value : V)
    (ttl : α) : Tracks (store.set key value (now + ttl))
      (Lease.record logs key (.acquired who now ttl)) now :=
  h.record rfl rfl fun _ _ _ _ => habsent

theorem Tracks.put (h : Tracks store logs now) (value : V) (ttl : α) :
    Tracks (store.set key value (now + ttl)) (Lease.record logs key (.stored who now ttl)) now :=
  h.record rfl rfl fun _ _ _ hw => by cases hw

theorem Tracks.drop (h : Tracks store logs now) :
    Tracks (store.delete key) (Lease.record logs key (.deleted who now)) now :=
  h.record rfl rfl fun _ _ _ hw => by cases hw

end Lease
