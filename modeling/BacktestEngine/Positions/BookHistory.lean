import BacktestEngine.Library.History
import BacktestEngine.Positions.BookCalls

/-! # What a book of positions means

The calls made so far decide which deals the list of a strategy names, and in which order. What a
reader is given of them depends on the records that are alive besides, and a refresh is nothing
that a reader can see.
-/

namespace BacktestEngine

namespace Positions

open History (Since)
open Lease (Reply)

variable {D : Type}

/-- A client that has made no call, on a store with no keys. -/
def Session.start : Session D := ⟨.empty, 0, []⟩

section

variable (clock : ℕ → ℤ) (replies : ℕ → Reply)

/-- The session behind a row of calls. -/
def Session.through (s : Session D) (calls : List (BookCall D)) : Session D :=
  calls.foldl (fun s call => (performed clock replies s call).after) s

/-- The calls as they were performed, each on the session behind those before it. -/
def history : Session D → List (BookCall D) → List (Performed D)
  | _, [] => []
  | s, call :: calls =>
    performed clock replies s call :: history (performed clock replies s call).after calls

end

namespace Performed

variable (clock : ℕ → ℤ) (p : Performed D) (strategyId dealId : String)

/-- The deal is put on the list of the strategy, or found there. -/
def Adds : Prop :=
  p.call = .addPosition strategyId dealId ∧ (p.succeeded = true ∨ p.Wrote strategyId)

/-- The deal is struck from the list of the strategy, or there is no list. -/
def Removes : Prop :=
  p.call = .removePosition strategyId dealId ∧ (p.succeeded = true ∨ p.Wrote strategyId)

/-- A refresh writes the list, and the record of the deal was missing when it read the records. -/
def Prunes : Prop :=
  p.call = .refreshPositionList strategyId ∧ p.Wrote strategyId ∧
    ¬ p.before.store.positions.Held (clock (p.before.issued + 1)) dealId

/-- The deal that the call puts at the end of the list. -/
def appended : Option String :=
  match p.call with
  | .addPosition id dealId => if id = strategyId ∧ p.Wrote strategyId then some dealId else none
  | _ => none

variable {clock p strategyId dealId} {text : Option (Stored (List String))} {replies : ℕ → Reply}
  {needless : Prop}

theorem Keeps.listed (h : p.Keeps) (id : String) :
    p.after.store.listed id = p.before.store.listed id := by
  rw [PositionStore.listed, PositionStore.listed, h.lists]

theorem Writes.listed_self (h : p.Writes strategyId text) :
    p.after.store.listed strategyId = dealsOf text := by
  rw [PositionStore.listed, h.written]

theorem Writes.listed_of_ne (h : p.Writes strategyId text) {id : String}
    (hid : id ≠ strategyId) : p.after.store.listed id = p.before.store.listed id := by
  rw [PositionStore.listed, PositionStore.listed, h.others id hid]

theorem Keeps.readable (h : p.Keeps) (hreadable : p.before.store.Readable) :
    p.after.store.Readable := by
  intro id
  rw [h.lists]
  exact hreadable id

theorem Ends.readable (h : p.Ends replies strategyId text needless)
    (htext : text ≠ some .malformed) (hreadable : p.before.store.Readable) :
    p.after.store.Readable := by
  obtain ⟨hkeeps, -⟩ | ⟨hwrites, -⟩ := h
  · exact hkeeps.readable hreadable
  · intro id
    by_cases hid : id = strategyId
    · subst hid
      rw [hwrites.written]
      exact htext
    · rw [hwrites.others id hid]
      exact hreadable id

end Performed

section Step

variable {clock : ℕ → ℤ} {replies : ℕ → Reply} {s : Session D}

theorem performed_readable (h : s.store.Readable) (call : BookCall D) :
    (performed clock replies s call).after.store.Readable := by
  cases call with
  | savePosition dealId payload ttl =>
    exact (performed_savePosition clock replies dealId payload ttl).readable h
  | addPosition strategyId dealId =>
    refine (performed_addPosition h clock replies strategyId dealId).1.readable ?_ h
    exact fun h => by cases h
  | removePosition strategyId dealId =>
    refine (performed_removePosition h clock replies strategyId dealId).readable ?_ h
    exact fun h => by cases h
  | refreshPositionList strategyId =>
    refine (performed_refreshPositionList h clock replies strategyId).2.readable ?_ h
    rw [rewritten]
    split_ifs
    · exact fun h => by cases h
    · exact fun h => by cases h
  | getPositionPayloads strategyId =>
    exact (performed_getPositionPayloads h clock replies strategyId).1.readable h

/-- A call that issues no write of a list leaves that list alone. -/
theorem lookup_of_not_wrote (h : s.store.Readable) (call : BookCall D) {strategyId : String}
    (hwrote : ¬ (performed clock replies s call).Wrote strategyId) :
    (performed clock replies s call).after.store.lists.lookup strategyId =
      s.store.lists.lookup strategyId := by
  have hkeeps (hk : (performed clock replies s call).Keeps) :
      (performed clock replies s call).after.store.lists.lookup strategyId =
        s.store.lists.lookup strategyId := congrArg (AList.lookup strategyId) hk.lists
  have hends {id : String} {text : Option (Stored (List String))} {needless : Prop}
      (he : (performed clock replies s call).Ends replies id text needless) :
      (performed clock replies s call).after.store.lists.lookup strategyId =
        s.store.lists.lookup strategyId := by
    obtain ⟨hk, -⟩ | ⟨hwrites, -⟩ := he
    · exact hkeeps hk
    · apply hwrites.others
      rintro rfl
      exact hwrote hwrites.wrote
  cases call with
  | savePosition dealId payload ttl => exact hkeeps (performed_savePosition _ _ _ _ _)
  | addPosition id dealId => exact hends (performed_addPosition h _ _ _ _).1
  | removePosition id dealId => exact hends (performed_removePosition h _ _ _ _)
  | refreshPositionList id => exact hends (performed_refreshPositionList h _ _ _).2
  | getPositionPayloads id => exact hkeeps (performed_getPositionPayloads h _ _ _).1

/-- When no reply is lost, a call that fails leaves every list alone. -/
theorem keeps_of_failed (h : s.store.Readable) (hnone : NoneLost replies) (call : BookCall D)
    (hfailed : (performed clock replies s call).succeeded = false) :
    (performed clock replies s call).Keeps := by
  have hends {id : String} {text : Option (Stored (List String))} {needless : Prop}
      (he : (performed clock replies s call).Ends replies id text needless) :
      (performed clock replies s call).Keeps := by
    obtain ⟨hk, -⟩ | ⟨-, hsucceeded⟩ := he
    · exact hk
    · rw [hsucceeded hnone] at hfailed
      cases hfailed
  cases call with
  | savePosition dealId payload ttl => exact performed_savePosition _ _ _ _ _
  | addPosition id dealId => exact hends (performed_addPosition h _ _ _ _).1
  | removePosition id dealId => exact hends (performed_removePosition h _ _ _ _)
  | refreshPositionList id => exact hends (performed_refreshPositionList h _ _ _).2
  | getPositionPayloads id => exact (performed_getPositionPayloads h _ _ _).1

theorem mem_listed_addPosition (h : s.store.Readable) (id deal strategyId dealId : String) :
    dealId ∈ (performed clock replies s (.addPosition id deal)).after.store.listed strategyId ↔
      (performed clock replies s (.addPosition id deal)).Adds strategyId dealId ∨
        dealId ∈ s.store.listed strategyId := by
  obtain ⟨hends, hlisted⟩ := performed_addPosition h clock replies id deal
  obtain ⟨hkeeps, hneedless⟩ | ⟨hwrites, -⟩ := hends
  · rw [hkeeps.listed]
    refine ⟨.inr, ?_⟩
    rintro (⟨hcall, hdone⟩ | hmem)
    · cases hcall
      exact hdone.elim hneedless fun hwrote => absurd hwrote (hkeeps.silent _)
    · exact hmem
  · by_cases hid : strategyId = id
    · subst hid
      rw [hwrites.listed_self, dealsOf, List.mem_append, List.mem_singleton, or_comm]
      refine or_congr_left ⟨?_, ?_⟩
      · rintro rfl
        exact ⟨rfl, .inr hwrites.wrote⟩
      · rintro ⟨hcall, -⟩
        cases hcall
        rfl
    · rw [hwrites.listed_of_ne hid]
      refine ⟨.inr, ?_⟩
      rintro (⟨hcall, -⟩ | hmem)
      · cases hcall
        exact absurd rfl hid
      · exact hmem

theorem mem_listed_removePosition (h : s.store.Readable) (id deal strategyId dealId : String) :
    dealId ∈ (performed clock replies s (.removePosition id deal)).after.store.listed strategyId ↔
      dealId ∈ s.store.listed strategyId ∧
        ¬ (performed clock replies s (.removePosition id deal)).Removes strategyId dealId := by
  obtain ⟨hkeeps, hneedless⟩ | ⟨hwrites, -⟩ := performed_removePosition h clock replies id deal
  · rw [hkeeps.listed]
    refine (and_iff_left_of_imp ?_).symm
    rintro hmem ⟨hcall, hdone⟩
    cases hcall
    obtain hdone | hwrote := hdone
    · have hlisted : s.store.listed id = [] := by
        rw [PositionStore.listed, hneedless hdone]
        rfl
      change deal ∈ s.store.listed id at hmem
      rw [hlisted] at hmem
      cases hmem
    · exact hkeeps.silent _ hwrote
  · by_cases hid : strategyId = id
    · subst hid
      rw [hwrites.listed_self, dealsOf, List.mem_filter, decide_eq_true_eq]
      refine and_congr_right fun _ => not_congr ⟨?_, ?_⟩
      · rintro rfl
        exact ⟨rfl, .inr hwrites.wrote⟩
      · rintro ⟨hcall, -⟩
        cases hcall
        rfl
    · rw [hwrites.listed_of_ne hid]
      refine (and_iff_left_of_imp ?_).symm
      rintro - ⟨hcall, -⟩
      cases hcall
      exact hid rfl

theorem mem_listed_refreshPositionList (h : s.store.Readable) (id strategyId dealId : String) :
    dealId ∈ (performed clock replies s (.refreshPositionList id)).after.store.listed strategyId ↔
      dealId ∈ s.store.listed strategyId ∧
        ¬ (performed clock replies s (.refreshPositionList id)).Prunes clock strategyId dealId := by
  obtain ⟨hkeeps, -⟩ | ⟨hwrites, -⟩ := (performed_refreshPositionList h clock replies id).2
  · rw [hkeeps.listed]
    refine (and_iff_left_of_imp ?_).symm
    rintro - ⟨-, hwrote, -⟩
    exact hkeeps.silent _ hwrote
  · by_cases hid : strategyId = id
    · subst hid
      rw [hwrites.listed_self, dealsOf_rewritten, List.mem_filter, decide_eq_true_eq]
      refine and_congr_right fun _ => ⟨?_, ?_⟩
      · rintro hheld ⟨-, -, hmissing⟩
        exact hmissing hheld
      · intro hkept
        by_contra hmissing
        exact hkept ⟨rfl, hwrites.wrote, hmissing⟩
    · rw [hwrites.listed_of_ne hid]
      refine (and_iff_left_of_imp ?_).symm
      rintro - ⟨hcall, -⟩
      cases hcall
      exact hid rfl

/-- What a call does to a list: it adds to it, or takes from it. -/
theorem mem_listed_performed (h : s.store.Readable) (call : BookCall D)
    (strategyId dealId : String) :
    dealId ∈ (performed clock replies s call).after.store.listed strategyId ↔
      (performed clock replies s call).Adds strategyId dealId ∨
        dealId ∈ s.store.listed strategyId ∧
          ¬ ((performed clock replies s call).Removes strategyId dealId ∨
            (performed clock replies s call).Prunes clock strategyId dealId) := by
  -- a call that neither removes nor refreshes takes nothing, one that does not add adds nothing
  have hother (hcall : ∀ id deal, call ≠ .addPosition id deal) :
      ¬ (performed clock replies s call).Adds strategyId dealId :=
    fun hadds => hcall _ _ hadds.1
  cases call with
  | addPosition id deal =>
    rw [mem_listed_addPosition h]
    refine or_congr_right (and_iff_left ?_).symm
    rintro (⟨hcall, -⟩ | ⟨hcall, -⟩)
    · cases hcall
    · cases hcall
  | removePosition id deal =>
    rw [mem_listed_removePosition h, or_iff_right (hother nofun)]
    refine and_congr_right fun _ => not_congr (or_iff_left ?_).symm
    rintro ⟨hcall, -⟩
    cases hcall
  | refreshPositionList id =>
    rw [mem_listed_refreshPositionList h, or_iff_right (hother nofun)]
    refine and_congr_right fun _ => not_congr (or_iff_right ?_).symm
    rintro ⟨hcall, -⟩
    cases hcall
  | savePosition deal payload ttl =>
    rw [(performed_savePosition clock replies deal payload ttl).listed,
      or_iff_right (hother nofun)]
    refine (and_iff_left ?_).symm
    rintro (⟨hcall, -⟩ | ⟨hcall, -⟩)
    · cases hcall
    · cases hcall
  | getPositionPayloads id =>
    rw [(performed_getPositionPayloads h clock replies id).1.listed, or_iff_right (hother nofun)]
    refine (and_iff_left ?_).symm
    rintro (⟨hcall, -⟩ | ⟨hcall, -⟩)
    · cases hcall
    · cases hcall

/-- The list keeps the order in which its deals came last. -/
theorem sublist_performed (h : s.store.Readable) (call : BookCall D) {strategyId : String}
    {came : List String} (hcame : (s.store.listed strategyId).Sublist came.dedup) :
    let p := performed clock replies s call
    (p.after.store.listed strategyId).Sublist (came ++ (p.appended strategyId).toList).dedup := by
  intro p
  have hkeeps (hk : p.Keeps) :
      (p.after.store.listed strategyId).Sublist
        (came ++ (p.appended strategyId).toList).dedup := by
    have happended : p.appended strategyId = none := by
      rw [Performed.appended]
      split
      · exact if_neg fun ⟨_, hwrote⟩ => hk.silent _ hwrote
      · rfl
    rw [happended, Option.toList_none, List.append_nil, hk.listed]
    exact hcame
  -- a list that is struck from is written anew without the deals that go
  have hstruck {id : String} {text : Option (Stored (List String))} {keep : String → Bool}
      (hcall : ∀ id deal, call ≠ .addPosition id deal) (hwrites : p.Writes id text)
      (htext : dealsOf text = (s.store.listed id).filter keep) :
      (p.after.store.listed strategyId).Sublist
        (came ++ (p.appended strategyId).toList).dedup := by
    have happended : p.appended strategyId = none := by
      rw [Performed.appended]
      split
      · rename_i heq
        exact absurd heq (hcall _ _)
      · rfl
    rw [happended, Option.toList_none, List.append_nil]
    by_cases hid : strategyId = id
    · subst hid
      rw [hwrites.listed_self, htext]
      exact List.filter_sublist.trans hcame
    · rw [hwrites.listed_of_ne hid]
      exact hcame
  cases call with
  | savePosition deal payload ttl => exact hkeeps (performed_savePosition _ _ _ _ _)
  | getPositionPayloads id => exact hkeeps (performed_getPositionPayloads h _ _ _).1
  | removePosition id deal =>
    obtain ⟨hk, -⟩ | ⟨hwrites, -⟩ := performed_removePosition h clock replies id deal
    · exact hkeeps hk
    · exact hstruck nofun hwrites rfl
  | refreshPositionList id =>
    obtain ⟨hk, -⟩ | ⟨hwrites, -⟩ := (performed_refreshPositionList h clock replies id).2
    · exact hkeeps hk
    · exact hstruck nofun hwrites (dealsOf_rewritten _)
  | addPosition id deal =>
    obtain ⟨hends, hlisted⟩ := performed_addPosition h clock replies id deal
    by_cases hmem : deal ∈ s.store.listed id
    · exact hkeeps (hlisted hmem)
    obtain ⟨hk, -⟩ | ⟨hwrites, -⟩ := hends
    · exact hkeeps hk
    · by_cases hid : strategyId = id
      · subst hid
        have happended : p.appended strategyId = some deal := if_pos ⟨rfl, hwrites.wrote⟩
        rw [happended, hwrites.listed_self]
        exact History.sublist_dedup_concat hcame hmem
      · have happended : p.appended strategyId = none := if_neg fun ⟨heq, _⟩ => hid heq.symm
        rw [happended, Option.toList_none, List.append_nil, hwrites.listed_of_ne hid]
        exact hcame

end Step

end Positions

end BacktestEngine
