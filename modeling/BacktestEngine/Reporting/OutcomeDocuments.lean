import BacktestEngine.Library.Endings
import BacktestEngine.Queue.RollingWindow
import BacktestEngine.Reporting.ResultsSummary

/-! # The documents of a run

Every run files its terminal record, a run that clears the gate files its results as well, and
one that is cut off files its failure unless it is told not to. The index is the batch's, and the
identifier is of the run and the strategy, so that a document that is sent again overwrites itself
and no other.
-/

namespace BacktestEngine

open Rolling TradingDefinitions

namespace OutcomeIndex

def kResultsBase : String := "backtesting-results"

def kWinnersBase : String := "backtesting-winners"

def kFinalBase : String := "backtesting-final"

def kFailuresBase : String := "backtesting-failures"

def kTradesIndex : String := "backtesting-trades"

/-- The bases that a load prepares. -/
def kWeeklyBases : List String := [kResultsBase, kWinnersBase, kFinalBase, kFailuresBase]

def weeklyIndex (base batch : String) : String :=
  if batch.isEmpty then base else base ++ "-" ++ batch

theorem weeklyIndex_getElem? {base : String} {i : ℕ} (batch : String)
    (h : i < base.toList.length) : (weeklyIndex base batch).toList[i]? = base.toList[i]? := by
  unfold weeklyIndex
  split_ifs
  · rfl
  · rw [String.toList_append, String.toList_append, List.append_assoc, List.getElem?_append_left h]

theorem bases_apart : ∀ base ∈ kTradesIndex :: kWeeklyBases, 13 < base.toList.length ∧
    ∀ base' ∈ kTradesIndex :: kWeeklyBases, base.toList[12]? = base'.toList[12]? →
      base.toList[13]? = base'.toList[13]? → base = base' := by
  decide

/-- An index tells its base, whatever the batches. -/
theorem weeklyIndex_inj {base base' batch batch' : String}
    (h : base ∈ kTradesIndex :: kWeeklyBases) (h' : base' ∈ kTradesIndex :: kWeeklyBases)
    (heq : weeklyIndex base batch = weeklyIndex base' batch') : base = base' := by
  obtain ⟨hlength, hapart⟩ := bases_apart base h
  have hlength' := (bases_apart base' h').1
  have hchar : ∀ i ≤ 13, base.toList[i]? = base'.toList[i]? := by
    intro i hi
    have hleft : _ = base.toList[i]? := weeklyIndex_getElem? batch (by omega)
    have hright : _ = base'.toList[i]? := weeklyIndex_getElem? batch' (by omega)
    rw [← hleft, heq, hright]
  exact hapart base' h' (hchar 12 (by decide)) (hchar 13 (by decide))

theorem trades_not_weekly {base batch : String} (h : base ∈ kWeeklyBases) :
    weeklyIndex base batch ≠ kTradesIndex := by
  intro heq
  have hbase : base = kTradesIndex :=
    @weeklyIndex_inj base kTradesIndex batch "" (List.mem_cons_of_mem _ h) (by decide) heq
  subst hbase
  exact absurd h (by decide)

end OutcomeIndex

open OutcomeIndex

namespace ElasticClient

variable {D : Type}

/-- What a document says, beside the configuration of its run. -/
inductive Body (D : Type)
  | results (results : TradingResultsStats D)
  | failure (reason : String) (results : TradingResultsStats D)
  | final (success : ℕ) (status : String)
  | trade (tradeId : String)

structure Document (D : Type) where
  index : String
  id : String
  config : Configuration D
  body : Body D

def resultsBaseFor (lastMonths offsetMonths : Int32) : String :=
  let fullHistory :=
    lastMonths = kFullHistory.lastMonths ∧ offsetMonths = kFullHistory.offsetMonths
  if fullHistory then kWinnersBase else kResultsBase

/-- The empty text leaves the choice to the publisher. -/
def outcomeDocId (runId : String) (config : Configuration D) : String :=
  let uuid := config.strategy.uuid
  if uuid.isEmpty then "" else runId ++ ":" ++ uuid

def putTradingResults (config : Configuration D) (results : TradingResultsStats D) :
    Document D where
  index := weeklyIndex (resultsBaseFor config.lastMonths config.offsetMonths) config.batch
  id := outcomeDocId config.runId config
  config
  body := .results results

def putTradingFailure (config : Configuration D) (reason : String)
    (results : TradingResultsStats D) : Document D where
  index := weeklyIndex kFailuresBase config.batch
  id := outcomeDocId config.runId config
  config
  body := .failure reason results

def putTradeFinal (config : Configuration D) (success : ℕ) (status : String) : Document D where
  index := weeklyIndex kFinalBase config.batch
  id := outcomeDocId config.runId config
  config
  body := .final success status

def tradeDocument (config : Configuration D) (tradeId : String) : Document D :=
  let outcomeId := outcomeDocId config.runId config
  let idPrefix := (if outcomeId.isEmpty then config.runId else outcomeId) ++ ":"
  { index := kTradesIndex
    id := idPrefix ++ tradeId
    config
    body := .trade tradeId }

def bulkPutTrades (closedTrades : List String) (config : Configuration D) : List (Document D) :=
  closedTrades.map (tradeDocument config)

end ElasticClient

open ElasticClient

namespace Operations

/-- What a backtest comes to: how it ended, the trades it closed, by name, and their summary. -/
structure Outcome (D : Type) where
  status : RunStatus
  closedTrades : List String
  results : TradingResultsStats D

def statusLabel : RunStatus → String
  | .lossLimitBreached => "loss_limit_breached"
  | .underperformed => "underperformed"
  | .completed => "completed"

def reason : String := "account loss limit reached (open trades liquidated)"

variable {D : Type}

/-- What tells how the run ended, beside its terminal record. -/
def outcomeDocuments (config : Configuration D) (outcome : Outcome D) : List (Document D) :=
  match outcome.status with
  | .lossLimitBreached =>
    if config.reportFailures then [putTradingFailure config reason outcome.results] else []
  | .completed => [putTradingResults config outcome.results]
  | .underperformed => []

/-- The documents of a run, in the order that they are put. -/
def documents (tradesEnabled : Bool) (config : Configuration D) (outcome : Outcome D) :
    List (Document D) :=
  putTradeFinal config (if outcome.status = .completed then 1 else 0)
      (statusLabel outcome.status) ::
    ((if tradesEnabled then bulkPutTrades outcome.closedTrades config else []) ++
      outcomeDocuments config outcome)

/-- The window to queue after a run, on the path that chains. -/
def chainedWindow (config : Configuration D) (status : RunStatus) : Option Window :=
  if status = .completed then nextWindow config.lastMonths config.offsetMonths else none

/-! ## Where a document goes -/

section Indices

variable {tradesEnabled : Bool} {config : Configuration D} {outcome : Outcome D}
  {doc : Document D}

theorem mem_outcomeDocuments : doc ∈ outcomeDocuments config outcome ↔
    (outcome.status = .lossLimitBreached ∧ config.reportFailures = true ∧
        doc = putTradingFailure config reason outcome.results) ∨
      outcome.status = .completed ∧ doc = putTradingResults config outcome.results := by
  unfold outcomeDocuments
  cases outcome.status with
  | completed => simp
  | lossLimitBreached => cases config.reportFailures <;> simp
  | underperformed => simp

theorem documents_cases (h : doc ∈ documents tradesEnabled config outcome) :
    (∃ success status, doc = putTradeFinal config success status) ∨
      (∃ tradeId ∈ outcome.closedTrades, doc = tradeDocument config tradeId) ∨
      doc = putTradingFailure config reason outcome.results ∨
      outcome.status = .completed ∧ doc = putTradingResults config outcome.results := by
  rcases List.mem_cons.mp h with hfinal | h
  · exact .inl ⟨_, _, hfinal⟩
  rcases List.mem_append.mp h with h | h
  · cases tradesEnabled with
    | false => simp at h
    | true =>
      obtain ⟨tradeId, hclosed, rfl⟩ := List.mem_map.mp h
      exact .inr (.inl ⟨tradeId, hclosed, rfl⟩)
  · rcases mem_outcomeDocuments.mp h with ⟨-, -, hfailure⟩ | hresults
    · exact .inr (.inr (.inl hfailure))
    · exact .inr (.inr (.inr hresults))

theorem documents_config (h : doc ∈ documents tradesEnabled config outcome) :
    doc.config = config := by
  rcases documents_cases h with ⟨_, _, rfl⟩ | ⟨_, _, rfl⟩ | rfl | ⟨_, rfl⟩ <;> rfl

theorem resultsBaseFor_weekly (lastMonths offsetMonths : Int32) :
    resultsBaseFor lastMonths offsetMonths ∈ kWeeklyBases := by
  unfold resultsBaseFor
  dsimp only
  split_ifs <;> decide

/-- Only the results of a gate-cleared run over the full history go to an index of winners. -/
theorem winner_of_index {batch : String} (h : doc ∈ documents tradesEnabled config outcome)
    (hindex : doc.index = weeklyIndex kWinnersBase batch) :
    outcome.status = .completed ∧
      (⟨config.lastMonths, config.offsetMonths⟩ : Window) = kFullHistory ∧
      doc = putTradingResults config outcome.results := by
  have hwinners : kWinnersBase ∈ kTradesIndex :: kWeeklyBases := by decide
  rcases documents_cases h with ⟨_, _, rfl⟩ | ⟨_, _, rfl⟩ | rfl | ⟨hstatus, rfl⟩
  · exact absurd (weeklyIndex_inj (by decide) hwinners hindex) (by decide)
  · exact absurd hindex.symm (trades_not_weekly (by decide))
  · exact absurd (weeklyIndex_inj (by decide) hwinners hindex) (by decide)
  · have hbase := weeklyIndex_inj (List.mem_cons_of_mem _ (resultsBaseFor_weekly _ _)) hwinners
      hindex
    by_cases hfull : config.lastMonths = kFullHistory.lastMonths ∧
        config.offsetMonths = kFullHistory.offsetMonths
    · exact ⟨hstatus, Window.mk.injEq .. ▸ hfull, rfl⟩
    · rw [resultsBaseFor, if_neg hfull] at hbase
      exact absurd hbase (by decide)

end Indices

/-! ## What a document overwrites -/

section Keys

/-- The place of a document, which a later one of the same place overwrites. -/
def place (doc : Document D) : String × String := (doc.index, doc.id)

/-- The names that a run is known by have no separator in them. -/
structure Named (config : Configuration D) (outcome : Outcome D) : Prop where
  uuid : config.strategy.uuid ≠ "" ∧ ':' ∉ config.strategy.uuid.toList
  trades : outcome.closedTrades.Nodup ∧ ∀ tradeId ∈ outcome.closedTrades, ':' ∉ tradeId.toList

variable {tradesEnabled : Bool} {config config' : Configuration D} {outcome outcome' : Outcome D}
  {doc doc' : Document D}

theorem Named.docId (h : Named config outcome) :
    (outcomeDocId config.runId config).toList =
      config.runId.toList ++ ':' :: config.strategy.uuid.toList := by
  have hempty : ¬ config.strategy.uuid.isEmpty = true := by
    rw [String.isEmpty_iff]
    exact h.uuid.1
  simp [outcomeDocId, hempty]

theorem Named.tradeId (h : Named config outcome) (tradeId : String) :
    (tradeDocument config tradeId).id.toList =
      (outcomeDocId config.runId config).toList ++ ':' :: tradeId.toList := by
  have hempty : ¬ (outcomeDocId config.runId config).isEmpty = true := by
    rw [String.isEmpty_iff, ← String.toList_inj, h.docId]
    simp
  simp [tradeDocument, hempty]

/-- The identifier of a run's own documents tells the run and the strategy. -/
theorem Named.docId_inj (h : Named config outcome) (h' : Named config' outcome')
    (heq : outcomeDocId config.runId config = outcomeDocId config'.runId config') :
    config.runId = config'.runId ∧ config.strategy.uuid = config'.strategy.uuid := by
  rw [← String.toList_inj, h.docId, h'.docId] at heq
  obtain ⟨hrun, huuid⟩ := Endings.append_cons_inj h.uuid.2 h'.uuid.2 heq
  exact ⟨String.toList_inj.mp hrun, String.toList_inj.mp huuid⟩

theorem Named.tradeId_inj (h : Named config outcome) (h' : Named config' outcome')
    {tradeId tradeId' : String} (ht : tradeId ∈ outcome.closedTrades)
    (ht' : tradeId' ∈ outcome'.closedTrades)
    (heq : (tradeDocument config tradeId).id = (tradeDocument config' tradeId').id) :
    outcomeDocId config.runId config = outcomeDocId config'.runId config' ∧ tradeId = tradeId' := by
  rw [← String.toList_inj, h.tradeId, h'.tradeId] at heq
  obtain ⟨hid, htrade⟩ :=
    Endings.append_cons_inj (h.trades.2 tradeId ht) (h'.trades.2 tradeId' ht') heq
  exact ⟨String.toList_inj.mp hid, String.toList_inj.mp htrade⟩

theorem own_or_trade (h : doc ∈ documents tradesEnabled config outcome) :
    ((∃ base ∈ kWeeklyBases, doc.index = weeklyIndex base config.batch) ∧
        doc.id = outcomeDocId config.runId config) ∨
      ∃ tradeId ∈ outcome.closedTrades, doc = tradeDocument config tradeId := by
  rcases documents_cases h with ⟨_, _, rfl⟩ | htrade | rfl | ⟨-, rfl⟩
  · exact .inl ⟨⟨kFinalBase, by decide, rfl⟩, rfl⟩
  · exact .inr htrade
  · exact .inl ⟨⟨kFailuresBase, by decide, rfl⟩, rfl⟩
  · exact .inl ⟨⟨_, resultsBaseFor_weekly _ _, rfl⟩, rfl⟩

/-- Documents of two runs that come to one place are of one run and one strategy. -/
theorem Named.place_inj (h : Named config outcome) (h' : Named config' outcome')
    (hdoc : doc ∈ documents tradesEnabled config outcome)
    (hdoc' : doc' ∈ documents tradesEnabled config' outcome') (heq : place doc = place doc') :
    config.runId = config'.runId ∧ config.strategy.uuid = config'.strategy.uuid := by
  obtain ⟨hindex, hid⟩ := Prod.mk.inj heq
  rcases own_or_trade hdoc with ⟨⟨base, hbase, hown⟩, hdocId⟩ | ⟨tradeId, ht, rfl⟩
  · rcases own_or_trade hdoc' with ⟨-, hdocId'⟩ | ⟨tradeId', -, rfl⟩
    · exact h.docId_inj h' (hdocId ▸ hdocId' ▸ hid)
    · exact absurd (hown.symm.trans hindex) (trades_not_weekly hbase)
  · rcases own_or_trade hdoc' with ⟨⟨base, hbase, hown⟩, -⟩ | ⟨tradeId', ht', rfl⟩
    · exact absurd (hown.symm.trans hindex.symm) (trades_not_weekly hbase)
    · exact h.docId_inj h' (h.tradeId_inj h' ht ht' hid).1

theorem outcomeDocuments_index (hdoc : doc ∈ outcomeDocuments config outcome) :
    ∃ base ∈ kWeeklyBases, base ≠ kFinalBase ∧ doc.index = weeklyIndex base config.batch := by
  rcases mem_outcomeDocuments.mp hdoc with ⟨-, -, rfl⟩ | ⟨-, rfl⟩
  · exact ⟨kFailuresBase, by decide, by decide, rfl⟩
  · refine ⟨_, resultsBaseFor_weekly _ _, ?_, rfl⟩
    unfold resultsBaseFor
    dsimp only
    split_ifs <;> decide

theorem outcomeDocuments_places_nodup (config : Configuration D) (outcome : Outcome D) :
    ((outcomeDocuments config outcome).map place).Nodup := by
  unfold outcomeDocuments
  cases outcome.status with
  | completed => simp
  | lossLimitBreached => cases config.reportFailures <;> simp
  | underperformed => simp

/-- No document of a run overwrites another of it. -/
theorem Named.places_nodup (h : Named config outcome) :
    ((documents tradesEnabled config outcome).map place).Nodup := by
  have htrades : ∀ doc ∈ (if tradesEnabled then bulkPutTrades outcome.closedTrades config else []),
      ∃ tradeId ∈ outcome.closedTrades, doc = tradeDocument config tradeId := by
    intro doc hdoc
    cases tradesEnabled with
    | false => simp at hdoc
    | true =>
      obtain ⟨tradeId, hclosed, rfl⟩ := List.mem_map.mp hdoc
      exact ⟨tradeId, hclosed, rfl⟩
  have hapart : ((if tradesEnabled then bulkPutTrades outcome.closedTrades config
      else []).map place).Nodup := by
    cases tradesEnabled with
    | false => simp
    | true =>
      rw [if_pos rfl, bulkPutTrades, List.map_map]
      apply List.Nodup.map_on _ h.trades.1
      intro tradeId ht tradeId' ht' heq
      exact (h.tradeId_inj h ht ht' (Prod.mk.inj heq).2).2
  rw [documents, List.map_cons, List.nodup_cons, List.map_append]
  constructor
  · intro hmem
    rw [← List.map_append, List.mem_map] at hmem
    obtain ⟨doc, hdoc, heq⟩ := hmem
    have hindex := (Prod.mk.inj heq).1
    rcases List.mem_append.mp hdoc with hdoc | hdoc
    · obtain ⟨tradeId, -, rfl⟩ := htrades doc hdoc
      exact trades_not_weekly (by decide) hindex.symm
    · obtain ⟨base, hbase, hne, hown⟩ := outcomeDocuments_index hdoc
      exact hne (weeklyIndex_inj (List.mem_cons_of_mem _ hbase) (by decide)
        (hown.symm.trans hindex))
  · apply List.Nodup.append hapart (outcomeDocuments_places_nodup config outcome)
    intro p hp hp'
    obtain ⟨doc, hdoc, rfl⟩ := List.mem_map.mp hp
    obtain ⟨doc', hdoc', heq⟩ := List.mem_map.mp hp'
    obtain ⟨tradeId, -, rfl⟩ := htrades doc hdoc
    obtain ⟨base, hbase, -, hown⟩ := outcomeDocuments_index hdoc'
    exact trades_not_weekly hbase (hown.symm.trans (Prod.mk.inj heq).1)

end Keys

end Operations

end BacktestEngine
