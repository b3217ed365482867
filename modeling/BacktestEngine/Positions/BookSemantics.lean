import BacktestEngine.Positions.BookHistory

/-! # The book after any row of calls

The deals a list names are those that were added and neither removed nor pruned since, in the
order they came; a refresh changes nothing that a reader is given.
-/

namespace BacktestEngine

namespace Positions

open History (Since)
open Lease (Reply)

variable {D : Type}

/-! ## Rows of calls -/

section Rows

variable {clock : ℕ → ℤ} {replies : ℕ → Reply} {s : Session D}

theorem history_concat (calls : List (BookCall D)) (call : BookCall D) :
    history clock replies s (calls ++ [call]) =
      history clock replies s calls ++
        [performed clock replies (s.through clock replies calls) call] := by
  induction calls generalizing s with
  | nil => rfl
  | cons first calls ih => exact congrArg (_ :: ·) ih

theorem through_concat (calls : List (BookCall D)) (call : BookCall D) :
    s.through clock replies (calls ++ [call]) =
      (performed clock replies (s.through clock replies calls) call).after :=
  List.foldl_concat ..

theorem readable_through (h : s.store.Readable) (calls : List (BookCall D)) :
    (s.through clock replies calls).store.Readable := by
  induction calls using List.reverseRecOn with
  | nil => exact h
  | append_singleton calls call ih =>
    rw [through_concat]
    exact performed_readable ih call

theorem readable_start : (Session.start : Session D).store.Readable := by
  intro id
  change AList.lookup id ∅ ≠ _
  rw [AList.lookup_empty]
  nofun

/-- The deals that were put at the end of the list of a strategy, in the order they came. -/
def arrivals (strategyId : String) (performed : List (Performed D)) : List String :=
  performed.filterMap (·.appended strategyId)

theorem arrivals_concat (strategyId : String) (before : List (Performed D)) (p : Performed D) :
    arrivals strategyId (before ++ [p]) =
      arrivals strategyId before ++ (p.appended strategyId).toList := by
  rw [arrivals, List.filterMap_append]
  rfl

/-- The deal was added, and neither removed nor pruned since. -/
def OnBook (clock : ℕ → ℤ) (performed : List (Performed D)) (strategyId dealId : String) : Prop :=
  Since (·.Adds strategyId dealId)
    (fun p => p.Removes strategyId dealId ∨ p.Prunes clock strategyId dealId) performed

variable (clock replies) in
theorem mem_listed_through (calls : List (BookCall D)) (strategyId dealId : String) :
    dealId ∈ (Session.start.through clock replies calls).store.listed strategyId ↔
      OnBook clock (history clock replies Session.start calls) strategyId dealId := by
  induction calls using List.reverseRecOn with
  | nil => exact iff_of_false List.not_mem_nil History.not_since_nil
  | append_singleton calls call ih =>
    rw [through_concat, history_concat, OnBook, History.since_concat,
      mem_listed_performed (readable_through readable_start calls), ih]
    rfl

variable (clock replies) in
theorem sublist_through (calls : List (BookCall D)) (strategyId : String) :
    ((Session.start.through clock replies calls).store.listed strategyId).Sublist
      (arrivals strategyId (history clock replies Session.start calls)).dedup := by
  induction calls using List.reverseRecOn with
  | nil => exact .refl _
  | append_singleton calls call ih =>
    rw [through_concat, history_concat, arrivals_concat]
    exact sublist_performed (readable_through readable_start calls) call ih

end Rows

/-! ## Readers -/

section Readers

variable {now later : ℤ} {store : PositionStore D} {strategyId dealId : String}

theorem held_of_le (hle : now ≤ later) (h : store.positions.Held later dealId) :
    store.positions.Held now dealId := by
  obtain ⟨payload, expiry, hget, hlt⟩ := Expiring.Store.held_iff.mp h
  exact Expiring.Store.held_iff.mpr ⟨payload, expiry, hget, hle.trans_lt hlt⟩

/-- Deals whose records were missing are not among those a reader is given later. -/
theorem filterMap_held (hle : now ≤ later) (dealIds : List String) :
    (dealIds.filter fun id => decide (store.positions.Held now id)).filterMap
        (fun id => (store.positions.get later id).map (id, ·)) =
      dealIds.filterMap fun id => (store.positions.get later id).map (id, ·) := by
  rw [List.filterMap_filter]
  apply List.filterMap_congr
  intro id _
  by_cases hheld : store.positions.Held now id
  · rw [if_pos (decide_eq_true hheld)]
  · rw [if_neg (by simpa using hheld)]
    have hmissing : ¬ store.positions.Held later id := fun h => hheld (held_of_le hle h)
    rw [Expiring.Store.Held, Bool.not_eq_true, Option.isSome_eq_false_iff,
      Option.isNone_iff_eq_none] at hmissing
    rw [hmissing]
    rfl

/-- What a reader whose commands are all answered is given, each read at an instant of its own. -/
def reads (store : PositionStore D) (reader : ℕ → ℤ) (strategyId : String) :
    Option (List (String × Payload D)) :=
  ((getPositionPayloads strategyId).run (Session.exec reader fun _ => .answered) ⟨store, 0, []⟩).1

def counts (store : PositionStore D) (reader : ℕ → ℤ) (strategyId : String) : Option ℕ :=
  ((getPositionCount strategyId).run (Session.exec reader fun _ => .answered) ⟨store, 0, []⟩).1

theorem counts_eq (store : PositionStore D) (reader : ℕ → ℤ) (strategyId : String) :
    counts store reader strategyId = (reads store reader strategyId).map List.length := by
  rw [counts, getPositionCount, Program.run_bind]
  rfl

/-- The deals of the list whose records are alive when the records are read. -/
theorem reads_eq (hreadable : store.Readable) (reader : ℕ → ℤ) (strategyId : String) :
    reads store reader strategyId = some ((store.listed strategyId).filterMap fun id =>
      (store.positions.get (reader 1) id).map (id, ·)) := by
  have hrun : reads store reader strategyId = _ := congrArg Prod.fst (run_fetchList_bind _)
  dsimp only at hrun
  rw [hrun]
  obtain ⟨-, h⟩ | ⟨hstate, -, hlookup⟩ | ⟨hstate, -, -⟩ :=
    listState_answer (s := ⟨store, 0, []⟩) hreadable strategyId .answered
  · exact absurd rfl h
  · rw [hstate, PositionStore.listed, hlookup]
    rfl
  · rw [hstate]
    cases hlisted : store.listed strategyId with
    | nil => rfl
    | cons first rest =>
      refine (congrArg Prod.fst (run_getMultiple_bind (n := 1) store_afterRead rfl _ _)).trans ?_
      refine congrArg some (List.filterMap_congr fun id hid => ?_)
      dsimp only
      rw [if_pos hid]

end Readers

section Refresh

variable {clock : ℕ → ℤ} {replies : ℕ → Reply} {s : Session D} {strategyId : String}

/-- A refresh is not seen by a reader that reads the records after it did. -/
theorem reads_refresh (h : s.store.Readable) {reader : ℕ → ℤ}
    (hle : clock (s.issued + 1) ≤ reader 1) (id : String) :
    reads (performed clock replies s (.refreshPositionList strategyId)).after.store reader id =
      reads s.store reader id := by
  obtain ⟨hpositions, hends⟩ := performed_refreshPositionList h clock replies strategyId
  rw [reads_eq (performed_readable h _), reads_eq h, hpositions]
  obtain ⟨hkeeps, -⟩ | ⟨hwrites, -⟩ := hends
  · rw [hkeeps.listed]
    rfl
  · by_cases hid : id = strategyId
    · subst hid
      rw [hwrites.listed_self, dealsOf_rewritten, filterMap_held hle]
    · rw [hwrites.listed_of_ne hid]
      rfl

/-- A refresh that has gone through leaves another one nothing to do while no record expires. -/
theorem refresh_again (h : s.store.Readable)
    (hdone : (performed clock replies s (.refreshPositionList strategyId)).succeeded = true ∨
      (performed clock replies s (.refreshPositionList strategyId)).Wrote strategyId) :
    let s' := (performed clock replies s (.refreshPositionList strategyId)).after
    (∀ dealId ∈ s'.store.listed strategyId,
      s'.store.positions.Held (clock (s'.issued + 1)) dealId) →
    let q := performed clock replies s' (.refreshPositionList strategyId)
    ∀ id, q.after.store.lists.lookup id = s'.store.lists.lookup id := by
  intro s' hheld q id
  have hall : (s'.store.listed strategyId).filter
      (fun dealId => decide (s'.store.positions.Held (clock (s'.issued + 1)) dealId)) =
        s'.store.listed strategyId := by
    rw [List.filter_eq_self]
    exact fun dealId hmem => decide_eq_true (hheld dealId hmem)
  -- what the first refresh left behind is what another one would write
  have hrewritten : rewritten (s'.store.listed strategyId) = s'.store.lists.lookup strategyId := by
    obtain ⟨hkeeps, hneedless⟩ | ⟨hwrites, -⟩ :=
      (performed_refreshPositionList h clock replies strategyId).2
    · have hnone : s'.store.lists.lookup strategyId = none :=
        (congrArg (AList.lookup strategyId) hkeeps.lists).trans
          (hneedless (hdone.resolve_right (hkeeps.silent _)))
      rw [PositionStore.listed, hnone]
      rfl
    · have hlisted : s'.store.listed strategyId = _ :=
        hwrites.listed_self.trans (dealsOf_rewritten _)
      rw [hlisted]
      exact hwrites.written.symm
  obtain ⟨hkeeps, -⟩ | ⟨hwrites, -⟩ :=
    (performed_refreshPositionList (performed_readable h _) clock replies strategyId).2
  · exact congrArg (AList.lookup id) hkeeps.lists
  · by_cases hid : id = strategyId
    · subst hid
      rw [hwrites.written, ← hrewritten]
      exact congrArg rewritten hall
    · exact hwrites.others id hid

end Refresh

/-! ## What the caller was told -/

section Told

variable {clock : ℕ → ℤ} {replies : ℕ → Reply}

/-- The caller was told of an addition, and since then neither of a removal nor does a refresh
prune the deal. -/
def ToldOnBook (clock : ℕ → ℤ) (past : List (Performed D)) (strategyId dealId : String) : Prop :=
  Since (fun p => p.call = .addPosition strategyId dealId ∧ p.succeeded = true)
    (fun p => p.call = .removePosition strategyId dealId ∧ p.succeeded = true ∨
      p.Prunes clock strategyId dealId) past

theorem forall_history {P : Performed D → Prop}
    (hP : ∀ s : Session D, s.store.Readable → ∀ call, P (performed clock replies s call))
    {s : Session D} (h : s.store.Readable) (calls : List (BookCall D)) :
    ∀ p ∈ history clock replies s calls, P p := by
  induction calls generalizing s with
  | nil => exact nofun
  | cons call calls ih =>
    intro p hp
    obtain rfl | hp := List.mem_cons.mp hp
    · exact hP s h call
    · exact ih (performed_readable h call) p hp

/-- When no reply is lost, the caller knows what its calls have done. -/
theorem onBook_iff_toldOnBook (hnone : NoneLost replies) (calls : List (BookCall D))
    (strategyId dealId : String) :
    OnBook clock (history clock replies Session.start calls) strategyId dealId ↔
      ToldOnBook clock (history clock replies Session.start calls) strategyId dealId := by
  have hwrote : ∀ p ∈ history clock replies (Session.start : Session D) calls,
      (p.succeeded = true ∨ p.Wrote strategyId ↔ p.succeeded = true) := by
    refine forall_history (fun s h call => ?_) readable_start calls
    refine or_iff_left_of_imp fun hwrote => ?_
    by_contra hfailed
    exact (keeps_of_failed h hnone call (Bool.eq_false_iff.mpr hfailed)).silent _ hwrote
  refine History.since_congr fun p hp => ⟨?_, ?_⟩
  · exact and_congr_right fun _ => hwrote p hp
  · exact or_congr_left (and_congr_right fun _ => hwrote p hp)

end Told

/-- After any calls, however their commands end, a list has its deals once and in the order they
came, and a reader is given those of them on the book whose records are alive. A refresh is
not seen by readers. A call whose write does not reach the store leaves the list as it was. -/
theorem book_of_calls (clock : ℕ → ℤ) (replies : ℕ → Reply) (calls : List (BookCall D)) :
    let s := Session.start.through clock replies calls
    let past := history clock replies Session.start calls
    (∀ strategyId, (s.store.listed strategyId).Nodup ∧
      (s.store.listed strategyId).Sublist (arrivals strategyId past).dedup) ∧
    (∀ strategyId id reader, clock (s.issued + 1) ≤ reader 1 →
      let p := performed clock replies s (.refreshPositionList strategyId)
      reads p.after.store reader id = reads s.store reader id ∧
        counts p.after.store reader id = counts s.store reader id) ∧
    (∀ strategyId,
      let p := performed clock replies s (.refreshPositionList strategyId)
      let q := performed clock replies p.after (.refreshPositionList strategyId)
      p.succeeded = true ∨ p.Wrote strategyId →
        (∀ dealId ∈ p.after.store.listed strategyId,
          p.after.store.positions.Held (clock (p.after.issued + 1)) dealId) →
        ∀ id, q.after.store.lists.lookup id = p.after.store.lists.lookup id) ∧
    (∀ call strategyId,
      let p := performed clock replies s call
      ¬ p.Wrote strategyId →
        p.after.store.lists.lookup strategyId = s.store.lists.lookup strategyId) ∧
    (∀ strategyId payloads,
      (perform clock replies (.getPositionPayloads strategyId) s).1 = some payloads →
        ∀ dealId, dealId ∈ payloads.map Prod.fst ↔
          OnBook clock past strategyId dealId ∧
            s.store.positions.Held (clock (s.issued + 1)) dealId) ∧
    (NoneLost replies →
      (∀ call, (performed clock replies s call).succeeded = false →
        (performed clock replies s call).Keeps) ∧
      ∀ strategyId dealId, OnBook clock past strategyId dealId ↔
        ToldOnBook clock past strategyId dealId) := by
  intro s past
  have hreadable : s.store.Readable := readable_through readable_start calls
  refine ⟨fun strategyId => ?_, fun strategyId id reader hle => ?_,
    fun strategyId hdone hheld => ?_, fun call strategyId hwrote => ?_,
    fun strategyId payloads hpayloads dealId => ?_,
    fun hnone => ⟨fun call hfailed => ?_, fun strategyId dealId => ?_⟩⟩
  · have hsublist := sublist_through clock replies calls strategyId
    exact ⟨(List.nodup_dedup _).sublist hsublist, hsublist⟩
  · have hreads : reads (performed clock replies s (.refreshPositionList strategyId)).after.store
        reader id = reads s.store reader id := reads_refresh hreadable hle id
    exact ⟨hreads, by rw [counts_eq, counts_eq, hreads]⟩
  · exact refresh_again hreadable hdone hheld
  · exact lookup_of_not_wrote hreadable call hwrote
  · rw [PositionStore.mem_payloads
      ((performed_getPositionPayloads hreadable clock replies strategyId).2 payloads hpayloads),
      mem_listed_through]
  · exact keeps_of_failed hreadable hnone call hfailed
  · exact onBook_iff_toldOnBook hnone calls strategyId dealId

/-! ## A removal whose last reply is lost -/

def openRecord : PositionRecord ℕ where
  dealId := "D1"
  dealReference := "R1"
  symbol := "EURUSD"
  epic := "CS.D.EURUSD"
  direction := "BUY"
  size := 1
  level := 110000
  stopLevel := 109000
  limitLevel := 111000
  strategyId := "S1"
  strategyName := "ema"
  openedAtMicros := 0

/-- The deal is added and removed, and its record is written once more. -/
def removedAndSaved : List (BookCall ℕ) :=
  [.savePosition "D1" (.value openRecord) kPositionTtl, .addPosition "S1" "D1",
    .removePosition "S1" "D1", .savePosition "D1" (.value openRecord) kPositionTtl]

/-- The store writes the list of the removal, and the reply is lost. -/
def lastReplyLost (n : ℕ) : Reply := if n = 6 then .lost else .answered

/-- The removal that was told to have failed has struck the deal. -/
theorem struck_though_told_failed :
    let s := Session.start.through (fun _ => 0) lastReplyLost removedAndSaved
    let past := history (fun _ => 0) lastReplyLost Session.start removedAndSaved
    ToldOnBook (fun _ => 0) past "S1" "D1" ∧ s.store.positions.Held 0 "D1" ∧
      (perform (fun _ => 0) lastReplyLost (.getPositionPayloads "S1") s).1 = some [] := by
  intro s past
  refine ⟨⟨[_], _, [_, _], rfl, ⟨rfl, by decide⟩, ?_⟩, by decide, by decide⟩
  intro q hq
  obtain rfl | rfl | hq := by simpa using hq
  · rintro (⟨-, hsucceeded⟩ | ⟨hcall, -⟩)
    · revert hsucceeded
      decide
    · cases hcall
  · rintro (⟨hcall, -⟩ | ⟨hcall, -⟩)
    · cases hcall
    · cases hcall

end Positions

end BacktestEngine
