import BacktestEngine.Tracking.TrackingReport

/-! # Reports of a closed deal

On a store that answers, the report of a closed deal takes the deal off the book and keeps its
record as history. A report that comes again finds the record there, so that a datagram that is
repeated, or late, neither puts the deal back nor loses sight of its position.
-/

namespace BacktestEngine

namespace Tracking

open DealPacket (Deal)
open Positions (Payload PositionRecord PositionStore decodePositionRecord)

/-- The store answers at an instant. -/
def storeExec (now : ℤ) : (c : Command) → PositionStore Binary64 →
    c.Answer × PositionStore Binary64
  | .getHistory dealId, store => (some (store.history.get now dealId), store)
  | .store c, store => PositionStore.exec now [] .answered c store

/-- The position that a lookup finds. -/
def positionAt (store : PositionStore Binary64) (now : ℤ) (dealReference : String) :
    Option (PositionRecord Binary64) :=
  match recordOf (some (store.history.get now dealReference)) with
  | some record => some record
  | none => recordOf (some (store.positions.get now dealReference))

/-- The store without the deal, and with its record as history. -/
def archived (store : PositionStore Binary64) (now : ℤ) (strategyId dealId : String) :
    PositionStore Binary64 where
  lists :=
    match store.lists.lookup strategyId with
    | some (.value dealIds) =>
      store.lists.insert strategyId (.value (dealIds.filter (· ≠ dealId)))
    | some .malformed | none => store.lists
  positions := store.positions.delete dealId
  history :=
    match store.positions.get now dealId with
    | some payload => store.history.set dealId payload (now + Positions.kHistoryTtl)
    | none => store.history
  receipts := store.receipts

section Runs

variable {config : Config} {store : PositionStore Binary64} {now : ℤ}
  {strategyId dealId dealReference : String}

theorem run_lift {α : Type} (p : Positions.StoreProgram Binary64 α) :
    (lift p).run (storeExec now) store = p.run (PositionStore.exec now [] .answered) store := by
  induction p generalizing store with
  | done a => rfl
  | call c k ih => exact ih _

theorem run_lookupPosition : (lookupPosition dealReference).run (storeExec now) store =
    (positionAt store now dealReference, store) := by
  unfold positionAt
  cases hhistory : recordOf (some (store.history.get now dealReference)) with
  | some record =>
    simp [lookupPosition, getHistoryPositionPayload, storeExec, hhistory]
  | none =>
    simp [lookupPosition, getHistoryPositionPayload, getPositionPayload,
      Positions.getPositionPayload, Positions.command, lift, storeExec, PositionStore.answer,
      Lease.Reply.answer, PositionStore.effect, hhistory]

theorem run_removePosition : ((removePosition strategyId dealId).run (storeExec now) store).2 =
    archived store now strategyId dealId := by
  rw [removePosition, run_lift]
  unfold archived
  cases hpayload : store.positions.get now dealId with
  | none =>
    rcases hlist : store.lists.lookup strategyId with _ | _ | _ <;>
    simp [Positions.removePosition, Positions.archivePosition, Positions.fetchList,
      Positions.command, PositionStore.answer, Lease.Reply.answer, PositionStore.effect,
      Positions.ListState.ofAnswer, hpayload, hlist]
  | some payload =>
    rcases hlist : store.lists.lookup strategyId with _ | _ | _ <;>
    simp [Positions.removePosition, Positions.archivePosition, Positions.fetchList,
      Positions.command, PositionStore.answer, Lease.Reply.answer, PositionStore.effect,
      Positions.ListState.ofAnswer, hpayload, hlist]

/-- What a report makes of a store that answers. -/
theorem run_report (dateIso : String) (deal : Deal) :
    (report config dateIso deal).run (storeExec now) store =
      (buildLiveTradeDocument config deal (positionAt store now deal.dealReference)
          (fallbackSymbol deal) dateIso
          (reportedPips config deal (positionAt store now deal.dealReference)),
        match archivedFrom deal (positionAt store now deal.dealReference) with
        | some strategyId => archived store now strategyId deal.dealReference
        | none => store) := by
  rw [report, Program.run_bind, run_lookupPosition]
  cases archivedFrom deal (positionAt store now deal.dealReference) with
  | none => rfl
  | some strategyId =>
    simp only [Program.run_bind, run_removePosition]
    rfl

/-! ## Reports in a row -/

/-- A report: its instant, its date and its deal. -/
structure Call where
  now : ℤ
  dateIso : String
  deal : Deal

/-- The documents of reports in a row, and the store after them. -/
def reportAll (config : Config) : List Call → PositionStore Binary64 →
    List JsonValue × PositionStore Binary64
  | [], store => ([], store)
  | call :: calls, store =>
    let first := (report config call.dateIso call.deal).run (storeExec call.now) store
    let later := reportAll config calls first.2
    (first.1 :: later.1, later.2)

/-- The deal is off the book, and until a deadline its record is in the history. -/
structure Closed (store : PositionStore Binary64) (dealReference : String)
    (record : PositionRecord Binary64) (deadline : ℤ) : Prop where
  gone : store.positions dealReference = none
  struck : dealReference ∉ store.listed record.strategyId
  kept : ∃ payload expiry, store.history dealReference = some (payload, expiry) ∧
    deadline ≤ expiry ∧ decodePositionRecord payload = some record

section Closed

variable {record : PositionRecord Binary64} {deadline : ℤ}

theorem Closed.positionAt (h : Closed store dealReference record deadline) (hnow : now < deadline) :
    positionAt store now dealReference = some record := by
  obtain ⟨payload, expiry, hkept, hle, hdecode⟩ := h.kept
  have hget : store.history.get now dealReference = some payload :=
    Expiring.Store.get_eq_some.mpr ⟨expiry, hkept, hnow.trans_le hle⟩
  simp [Tracking.positionAt, recordOf, hget, hdecode]

theorem listed_archived (id : String) : (archived store now strategyId dealId).listed id =
    if id = strategyId then (store.listed strategyId).filter (· ≠ dealId) else store.listed id := by
  by_cases hid : id = strategyId
  · subst hid
    rcases hlist : store.lists.lookup id with _ | _ | _ <;>
    simp [PositionStore.listed, archived, Positions.dealsOf, hlist]
  · rcases hlist : store.lists.lookup strategyId with _ | _ | _ <;>
    simp [PositionStore.listed, archived, hlist, hid, AList.lookup_insert_ne]

theorem listed_archived_subset (id : String) :
    (archived store now strategyId dealId).listed id ⊆ store.listed id := by
  rw [listed_archived]
  split
  · rename_i hid
    subst hid
    exact List.filter_subset_self _
  · exact List.Subset.refl _

/-- Neither another report nor the same one puts the deal back. -/
theorem Closed.archived (h : Closed store dealReference record deadline) :
    Closed (archived store now strategyId dealId) dealReference record deadline := by
  obtain ⟨hgone, hstruck, hkept⟩ := h
  refine ⟨?_, fun hmem => hstruck (listed_archived_subset _ hmem), ?_⟩
  · by_cases hid : dealReference = dealId
    · subst hid
      exact Function.update_self ..
    · exact (Function.update_of_ne hid ..).trans hgone
  · unfold Tracking.archived
    cases hpayload : store.positions.get now dealId with
    | none => exact hkept
    | some payload =>
      have hid : dealReference ≠ dealId := by
        rintro rfl
        simp [Expiring.Store.get, hgone] at hpayload
      simpa [Expiring.Store.set, Function.update_of_ne hid] using hkept

/-- The report that takes the deal off the book. -/
theorem closed_archived {payload : Payload Binary64}
    (hlive : store.positions.get now dealReference = some payload)
    (hdecode : decodePositionRecord payload = some record) :
    Closed (archived store now record.strategyId dealReference) dealReference record
      (now + Positions.kHistoryTtl) := by
  refine ⟨Function.update_self .., ?_, payload, now + Positions.kHistoryTtl, ?_, le_rfl, hdecode⟩
  · simp [listed_archived]
  · simp [archived, hlive, Expiring.Store.set]

/-- A later report keeps the deal closed, and one of the deal tells its position. -/
theorem Closed.report (h : Closed store dealReference record deadline) {call : Call}
    (hnow : call.now < deadline) :
    let reported := (report config call.dateIso call.deal).run (storeExec call.now) store
    Closed reported.2 dealReference record deadline ∧
      (call.deal.dealReference = dealReference →
        reported.1 = buildLiveTradeDocument config call.deal (some record)
          (fallbackSymbol call.deal) call.dateIso
          (reportedPips config call.deal (some record))) := by
  rw [run_report]
  constructor
  · cases archivedFrom call.deal (Tracking.positionAt store call.now call.deal.dealReference) with
    | none => exact h
    | some strategyId => exact h.archived
  · rintro rfl
    rw [h.positionAt hnow]

variable (config) in
theorem Closed.reportAll (h : Closed store dealReference record deadline) {calls : List Call}
    (hnow : ∀ call ∈ calls, call.now < deadline) :
    Closed (reportAll config calls store).2 dealReference record deadline ∧
      List.Forall₂ (fun call document => call.deal.dealReference = dealReference →
        document = buildLiveTradeDocument config call.deal (some record)
          (fallbackSymbol call.deal) call.dateIso (reportedPips config call.deal (some record)))
        calls (reportAll config calls store).1 := by
  induction calls generalizing store with
  | nil => exact ⟨h, .nil⟩
  | cons call calls ih =>
    obtain ⟨hkept, hdocument⟩ := h.report (hnow call List.mem_cons_self)
    obtain ⟨hlast, hrest⟩ := ih hkept fun c hc => hnow c (List.mem_cons_of_mem _ hc)
    exact ⟨hlast, .cons hdocument hrest⟩

/-- A closed deal is reported once: whatever is reported in the sixty days that follow, it stays off
the book, and each later report of it tells the pips and the strategy of its own position. -/
theorem reported_once {deal : Deal} {dateIso : String} {calls : List Call}
    (hfound : positionAt store now deal.dealReference = some record)
    (hlive : recordOf (some (store.positions.get now deal.dealReference)) = some record)
    (hdeleted : deal.status = "DELETED") (hstrategy : record.strategyId ≠ "")
    (hnow : ∀ call ∈ calls, call.now < now + Positions.kHistoryTtl) :
    let reported := reportAll config (⟨now, dateIso, deal⟩ :: calls) store
    Closed reported.2 deal.dealReference record (now + Positions.kHistoryTtl) ∧
      List.Forall₂ (fun call document => call.deal.dealReference = deal.dealReference →
        document = buildLiveTradeDocument config call.deal (some record)
          (fallbackSymbol call.deal) call.dateIso (reportedPips config call.deal (some record)))
        (⟨now, dateIso, deal⟩ :: calls) reported.1 := by
  obtain ⟨payload, hget, hdecode⟩ := Option.bind_eq_some_iff.mp hlive
  have hfrom : archivedFrom deal (some record) = some record.strategyId :=
    archivedFrom_eq_some.mpr ⟨hdeleted, record, rfl, rfl, hstrategy⟩
  have hrun : (report config dateIso deal).run (storeExec now) store =
      (buildLiveTradeDocument config deal (some record) (fallbackSymbol deal) dateIso
        (reportedPips config deal (some record)),
        archived store now record.strategyId deal.dealReference) := by
    rw [run_report, hfound, hfrom]
  have hclosed := closed_archived hget hdecode
  obtain ⟨hlast, hrest⟩ := hclosed.reportAll config hnow
  simp only [reportAll, hrun]
  exact ⟨hlast, .cons (fun _ => rfl) hrest⟩

end Closed

end Runs

section Sample

def sampleDeal : Deal where
  level := some (.finite (11 / 10))
  size := some (.finite 1)
  stopLevel := none
  limitLevel := none
  dealReference := "REF1"
  dealId := "D1"
  dealIdOrigin := ""
  epic := "CS.D.EURUSD.MINI.IP"
  direction := "BUY"
  status := "DELETED"
  dealStatus := "ACCEPTED"
  currency := "GBP"
  channel := ""
  expiry := "-"
  timestamp := ""
  guaranteedStop := ""

def sampleRecord : PositionRecord Binary64 where
  dealId := "D1"
  dealReference := "REF1"
  symbol := "EURUSD"
  epic := "CS.D.EURUSD.MINI.IP"
  direction := "BUY"
  size := .finite 1
  level := 109900
  stopLevel := 0
  limitLevel := 0
  strategyId := "S1"
  strategyName := "dip"
  openedAtMicros := 0

def sampleStore : PositionStore Binary64 :=
  { PositionStore.empty with
    lists := AList.insert "S1" (.value ["REF0", "REF1"]) ∅
    positions := Expiring.Store.empty.set "REF1" (.value sampleRecord) 300000000 }

def archiveConfig : Config := ⟨"demo", fun _ => "", fun _ => 0⟩

def sampleCalls : List Call := [⟨5, "day", sampleDeal⟩, ⟨60000000, "day", sampleDeal⟩]

theorem reported_once_twice :
    let reported := reportAll archiveConfig sampleCalls sampleStore
    Closed reported.2 "REF1" sampleRecord (5 + Positions.kHistoryTtl) ∧
      List.Forall₂ (fun (call : Call) document => call.deal.dealReference = "REF1" →
        document = buildLiveTradeDocument archiveConfig call.deal (some sampleRecord)
          (fallbackSymbol call.deal) call.dateIso
          (reportedPips archiveConfig call.deal (some sampleRecord)))
        sampleCalls reported.1 := by
  apply @reported_once archiveConfig sampleStore
  · decide
  · decide
  · decide
  · decide
  · decide

end Sample

end Tracking

end BacktestEngine
