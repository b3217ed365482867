import BacktestEngine.Bars.Sharing
import BacktestEngine.Live.RateBudget
import BacktestEngine.Strategies.EntryConditions
import BacktestEngine.Trading.FirstPassage

/-! # Signals of the backtest and of the live workers

A run over many symbols shares one bar store, and a live worker has one symbol and a store
of its own. Both register the same series and ask the same entry conditions, so a strategy
that reads the bars of its own tick's symbol signals alike on both paths.
-/

namespace BacktestEngine

variable {V : Type}

/-- A strategy that only decides, from the tick and the bars. -/
abbrev EntryRule := PriceData → BarStore → Option Direction

namespace EntryRule

/-- The strategy as the backtest runs it. -/
def toStrategy (rule : EntryRule) : Strategy Unit BarStore where
  decide state tick store := (rule tick store, state)
  during state _ _ _ := ([], state)

/-- The strategy as a live worker runs it. -/
def toLive (rule : EntryRule) : Live.LiveStrategy Unit BarStore where
  decide state tick store := (.ok (rule tick store), state)
  during state _ _ _ := (([], false), state)

/-- The strategy reads no series but those of its tick's symbol. -/
def ReadsOwnSymbol (rule : EntryRule) : Prop :=
  ∀ tick store store', (∀ minutes, store.find tick.symbol minutes = store'.find tick.symbol minutes) →
    (∀ spec, store.findRange tick.symbol spec = store'.findRange tick.symbol spec) →
    rule tick store = rule tick store'

end EntryRule

/-- Bars without warm-up; a store whose series were all registered takes in every tick. -/
def barServices (tradePermitted : String → ℤ → Bool) : Services BarStore where
  update store tick :=
    match store.update .off tick with
    | .ok store => store
    | .error _ => store
  check := Conditions.check
  tradePermitted := tradePermitted

namespace Operations

/-- A timeframe is registered with the store of the run unless it is the entry that builds none. -/
def registerOHLC (ohlcVars : OHLCVariables) : Option BarStore.Registration :=
  if ohlcVars.ohlcMinutes ≥ 1 ∧ ohlcVars.ohlcCount ≥ 1 then
    some (.series ⟨ohlcVars.ohlcMinutes, ohlcVars.ohlcCount⟩)
  else none

def registerRange (rangeVars : RangeBarVariables) : Option BarStore.Registration :=
  if rangeVars.rangeAtrTickWindow ≥ 1 ∧ rangeVars.rangeAtrPercent ≥ 1 ∧ rangeVars.rangeCount ≥ 1 then
    some (.range ⟨rangeVars.rangeAtrTickWindow, rangeVars.rangeAtrPercent, rangeVars.rangeCount⟩)
  else none

/-- What a run registers before the first tick. -/
def registrations (config : StrategyConfig V) : List BarStore.Registration :=
  config.ohlcVariables.filterMap registerOHLC ++ config.rangeVariables.filterMap registerRange ++
    [.series (Conditions.gateSeriesFor config)]

/-- What the run loop is given. -/
def backtest {D : Type} [Decimal D] (config : StrategyConfig V) (rule : EntryRule)
    (tradePermitted : String → ℤ → Bool) (performanceScore : TradeManager → D → ℤ → ℤ → D)
    (limits : RiskLimits D) (order : WalkOrder) : Backtest Unit BarStore D where
  strategy := rule.toStrategy
  services := barServices tradePermitted
  performanceScore := performanceScore
  vars := config.tradingVariables
  limits := limits
  gateSeries := some (Conditions.gateSeriesFor config)
  order := order

end Operations

namespace Live

/-- A past run's configuration bound to one symbol. -/
structure Winner (V : Type) where
  symbol : String
  strategyName : String
  maxOpenTrades : ℤ := 0
  maxTradesPerMinute : ℤ := 60
  peakHoursOnly : Bool := false
  config : StrategyConfig V

/-- A worker's spec with the series of its strategy. -/
structure CachedSpec where
  spec : WorkerSpec Unit BarStore
  barSeries : List SeriesSpec
  rangeSeries : List RangeBarSpec

namespace StrategyCache

/-- The time bars of a worker; an entry with a zero builds none. -/
def barSeriesOf (config : StrategyConfig V) : List SeriesSpec :=
  (config.ohlcVariables.filter fun ohlcVars =>
    ohlcVars.ohlcMinutes ≥ 1 ∧ ohlcVars.ohlcCount ≥ 1).map fun ohlcVars =>
      ⟨ohlcVars.ohlcMinutes, ohlcVars.ohlcCount⟩

/-- The range bars of a worker. -/
def rangeSeriesOf (config : StrategyConfig V) : List RangeBarSpec :=
  (config.rangeVariables.filter fun rangeVars =>
    rangeVars.rangeAtrTickWindow ≥ 1 ∧ rangeVars.rangeAtrPercent ≥ 1 ∧
      rangeVars.rangeCount ≥ 1).map fun rangeVars =>
        ⟨rangeVars.rangeAtrTickWindow, rangeVars.rangeAtrPercent, rangeVars.rangeCount⟩

/-- The spec of a winner, unless it has to be skipped. -/
def build? (makeStrategy : StrategyConfig V → Except String EntryRule) (winner : Winner V) :
    Option CachedSpec :=
  if SymbolScale.get winner.symbol = SymbolScale.kUnknown then none
  else if winner.config.uuid = "" then none
  else
    match makeStrategy winner.config with
    | .error _ => none
    | .ok rule =>
      some
        { spec :=
            { symbol := winner.symbol
              strategyName := winner.strategyName
              strategyUuid := winner.config.uuid
              vars := winner.config.tradingVariables
              maxOpenTrades := winner.maxOpenTrades
              maxTradesPerMinute := winner.maxTradesPerMinute
              peakHoursOnly := winner.peakHoursOnly
              gateSeries := some (Conditions.gateSeriesFor winner.config)
              strategy := rule.toLive }
          barSeries := barSeriesOf winner.config
          rangeSeries := rangeSeriesOf winner.config }

def build (makeStrategy : StrategyConfig V → Except String EntryRule) (winners : List (Winner V)) :
    List CachedSpec :=
  winners.filterMap (build? makeStrategy)

end StrategyCache

/-- What a worker registers with its own bar store when it is made. -/
def CachedSpec.registrations (cached : CachedSpec) : List BarStore.Registration :=
  cached.barSeries.map .series ++ cached.rangeSeries.map .range ++
    cached.spec.gateSeries.toList.map .series

end Live

/-! ## Registrations -/

section

variable (config : StrategyConfig V)

theorem gateSeriesFor_pos :
    1 ≤ (Conditions.gateSeriesFor config).minutes ∧ 1 ≤ (Conditions.gateSeriesFor config).count := by
  unfold Conditions.gateSeriesFor
  split
  · split_ifs
    · constructor
      · assumption
      · simp [Conditions.kAtrPeriod]
    · decide
  · decide

/-- The series of a registration has positive fields. -/
def BarStore.Registration.Positive : BarStore.Registration → Prop
  | .series spec => 1 ≤ spec.minutes ∧ 1 ≤ spec.count
  | .range spec => 1 ≤ spec.atrTickWindow ∧ 1 ≤ spec.atrPercent ∧ 1 ≤ spec.count

theorem BarStore.exists_registerAll {registrations : List BarStore.Registration}
    (h : ∀ registration ∈ registrations, registration.Positive) (store : BarStore) :
    ∃ store', store.registerAll registrations = .ok store' := by
  induction registrations generalizing store with
  | nil => exact ⟨store, rfl⟩
  | cons registration registrations ih =>
    obtain ⟨hhead, htail⟩ := List.forall_mem_cons.mp h
    obtain ⟨next, hnext⟩ : ∃ next, store.register registration = .ok next := by
      cases registration with
      | series spec =>
        obtain ⟨hminutes, hcount⟩ := hhead
        exact ⟨_, if_neg (by omega)⟩
      | range spec =>
        obtain ⟨hwindow, hpercent, hcount⟩ := hhead
        exact ⟨_, if_neg (by omega)⟩
    obtain ⟨last, hlast⟩ := ih htail next
    refine ⟨last, ?_⟩
    rw [registerAll, List.foldlM_cons, hnext]
    exact hlast

theorem Operations.registrations_positive :
    ∀ registration ∈ Operations.registrations config, registration.Positive := by
  intro registration hmem
  simp only [Operations.registrations, List.mem_append, List.mem_filterMap, List.mem_singleton]
    at hmem
  rcases hmem with (⟨ohlcVars, -, h⟩ | ⟨rangeVars, -, h⟩) | rfl
  · unfold Operations.registerOHLC at h
    split_ifs at h with hpos
    cases h
    exact hpos
  · unfold Operations.registerRange at h
    split_ifs at h with hpos
    cases h
    exact hpos
  · exact gateSeriesFor_pos config

end

namespace Live.StrategyCache

/-- A worker registers what the run registers, in the same order. -/
theorem build?_registrations {makeStrategy : StrategyConfig V → Except String EntryRule}
    {winner : Winner V} {cached : CachedSpec} (h : build? makeStrategy winner = some cached) :
    cached.registrations = Operations.registrations winner.config := by
  unfold build? at h
  split_ifs at h
  split at h
  · cases h
  · cases h
    have hseries : (barSeriesOf winner.config).map BarStore.Registration.series =
        winner.config.ohlcVariables.filterMap Operations.registerOHLC := by
      rw [barSeriesOf, List.map_map, ← List.filterMap_eq_map, List.filterMap_filter]
      refine congrArg (List.filterMap · winner.config.ohlcVariables) (funext fun ohlcVars => ?_)
      simp [Operations.registerOHLC]
    have hrange : (rangeSeriesOf winner.config).map BarStore.Registration.range =
        winner.config.rangeVariables.filterMap Operations.registerRange := by
      rw [rangeSeriesOf, List.map_map, ← List.filterMap_eq_map, List.filterMap_filter]
      refine congrArg (List.filterMap · winner.config.rangeVariables) (funext fun rangeVars => ?_)
      simp [Operations.registerRange]
    simp only [CachedSpec.registrations, hseries, hrange]
    rfl

end Live.StrategyCache

/-! ## The question both paths ask -/

/-- The direction and the distances of an entry that the session, the conditions and the strategy
allow. -/
def entry (services : Services BarStore) (peakHoursOnly : Bool) (config : StrategyConfig V)
    (rule : EntryRule) (store : BarStore) (tick : PriceData) : Option (Direction × Distances) :=
  if peakHoursOnly && !services.tradePermitted tick.symbol tick.timestamp then none
  else
    (services.check store (Conditions.gateSeriesFor config) tick
      config.tradingVariables.stopDistanceInAtr
      config.tradingVariables.limitDistanceInAtr).bind fun distances =>
        (rule tick store).map fun direction => (direction, distances)

/-! ## The backtest -/

namespace Backtest

section

variable {σ B D : Type} [Decimal D] (b : Backtest σ B D)

/-- The symbol of the tick holds no trade once the exits have been reviewed. -/
def FreeAt (st : RunState σ B) (tick : PriceData) : Prop :=
  (b.exitPhase st tick).tradeManager.hasActiveTradeForSymbol tick.symbol = false

/-- The run opens a trade at the tick: its symbol is free, and holds one in the end. -/
def Opens (st : RunState σ B) (tick : PriceData) (direction : Direction) (distances : Distances) :
    Prop :=
  b.FreeAt st tick ∧
    ∃ trade, (b.step st tick).tradeManager.findActiveTrade tick.symbol = some trade ∧
      trade.direction = direction ∧ trade.openTime = tick.timestamp ∧
      trade.stopDistancePips = distances.stopPips ∧ trade.limitDistancePips = distances.limitPips

variable {b}

theorem step_barStore (st : RunState σ B) (tick : PriceData) :
    (b.step st tick).barStore = b.services.update st.barStore tick := by
  have hevict : ∀ st : RunState σ B, (b.evictOpens st tick).barStore = st.barStore := by
    intro st
    unfold evictOpens
    split <;> rfl
  have hentry : ∀ st : RunState σ B, (b.entryPhase st tick).barStore = st.barStore := by
    intro st
    unfold entryPhase
    split
    · split
      · rfl
      · split <;> rfl
    · rfl
  change (b.entryPhase (b.evictOpens (b.exitPhase st tick) tick) tick).barStore = _
  rw [hentry, hevict]
  rfl

/-- The store has taken in every tick, whatever was traded. -/
theorem after_barStore (st : RunState σ B) (ticks : List PriceData) :
    (b.after st ticks).barStore = ticks.foldl b.services.update st.barStore := by
  induction ticks generalizing st with
  | nil => rfl
  | cons tick ticks ih =>
    change (b.after (b.step st tick) ticks).barStore = _
    rw [ih, step_barStore]
    rfl

end

variable {D : Type} [Decimal D] {config : StrategyConfig V} {rule : EntryRule}
  {tradePermitted : String → ℤ → Bool} {performanceScore : TradeManager → D → ℤ → ℤ → D}
  {limits : RiskLimits D} {order : WalkOrder}

/-- Where only the session gates an entry, the answer to the question is opened. -/
theorem entryPhase_entry (st : RunState Unit BarStore) (tick : PriceData) :
    let b := Operations.backtest config rule tradePermitted performanceScore limits order
    b.entryGates st tick = b.inSession tick →
    (b.entryPhase st tick).tradeManager =
      (entry b.services limits.peakHoursOnly config rule st.barStore tick).elim st.tradeManager
        fun answer => (st.tradeManager.openTrade tick config.tradingVariables.tradingSize answer.1
          answer.2.stopPips answer.2.limitPips).1 := by
  intro b hgates
  have hsession : b.inSession tick =
      !(limits.peakHoursOnly && !b.services.tradePermitted tick.symbol tick.timestamp) := by
    simp [inSession, b, Operations.backtest]
  unfold entryPhase entry
  rw [hgates, hsession]
  cases hout : limits.peakHoursOnly && !b.services.tradePermitted tick.symbol tick.timestamp with
  | true => rfl
  | false =>
    simp only [Bool.not_false, if_true, Bool.false_eq_true, if_false]
    have hdistances : b.entryDistances st.barStore tick =
        b.services.check st.barStore (Conditions.gateSeriesFor config) tick
          config.tradingVariables.stopDistanceInAtr config.tradingVariables.limitDistanceInAtr := rfl
    rw [hdistances]
    cases b.services.check st.barStore (Conditions.gateSeriesFor config) tick
        config.tradingVariables.stopDistanceInAtr config.tradingVariables.limitDistanceInAtr with
    | none => rfl
    | some distances =>
      have hdecide : b.strategy.decide st.strategy tick st.barStore =
          (rule tick st.barStore, st.strategy) := rfl
      simp only [Option.bind_some, hdecide]
      cases rule tick st.barStore <;> rfl

/-- With the caps off a run opens exactly what the question answers at a tick whose symbol is
free. -/
theorem opens_iff (hopen : limits.maxOpenTrades ≤ 0) (hrate : limits.maxTradesPerMinute ≤ 0)
    (st : RunState Unit BarStore) (tick : PriceData) (direction : Direction)
    (distances : Distances) :
    let b := Operations.backtest config rule tradePermitted performanceScore limits order
    b.Opens st tick direction distances ↔ b.FreeAt st tick ∧
      entry b.services limits.peakHoursOnly config rule (b.services.update st.barStore tick) tick =
        some (direction, distances) := by
  intro b
  refine and_congr_right fun hfree => ?_
  have hevict : b.evictOpens (b.exitPhase st tick) tick = b.exitPhase st tick :=
    if_neg (by simpa [tradeRateCapActive, b, Operations.backtest] using hrate)
  have hstep : (b.step st tick).tradeManager =
      (b.entryPhase (b.exitPhase st tick) tick).tradeManager := by
    rw [← hevict]
    rfl
  have hnone : (b.exitPhase st tick).tradeManager.activeTrades.lookup tick.symbol = none :=
    Option.isNone_iff_eq_none.mp (by simpa [FreeAt, TradeManager.hasActiveTradeForSymbol,
      TradeManager.findActiveTrade] using hfree)
  have hgates : b.entryGates (b.exitPhase st tick) tick = b.inSession tick := by
    have hcap : b.belowOpenTradeCap (b.exitPhase st tick).tradeManager = true := by
      simp [belowOpenTradeCap, b, Operations.backtest, hopen]
    have hwindow : b.belowTradeRateCap (b.exitPhase st tick) = true := by
      simp [belowTradeRateCap, tradeRateCapActive, b, Operations.backtest, hrate]
    have hactive : (b.exitPhase st tick).tradeManager.hasActiveTradeForSymbol tick.symbol = false :=
      hfree
    simp only [entryGates, hcap, hwindow, hactive, Bool.and_true, Bool.not_false]
  have hstore : (b.exitPhase st tick).barStore = b.services.update st.barStore tick := rfl
  rw [hstep, entryPhase_entry _ _ hgates, hstore]
  cases entry b.services limits.peakHoursOnly config rule (b.services.update st.barStore tick) tick with
  | none => simp [TradeManager.findActiveTrade, hnone]
  | some answer =>
    obtain ⟨signal, stop, limit⟩ := answer
    simp only [Option.elim_some, TradeManager.openTrade_fresh hnone, TradeManager.findActiveTrade,
      TradeManager.updateDrawdown_activeTrades, AList.lookup_insert, Option.some.injEq,
      Prod.mk.injEq]
    constructor
    · rintro ⟨trade, rfl, rfl, -, hstop, hlimit⟩
      cases distances
      exact ⟨rfl, congrArg₂ Distances.mk hstop hlimit⟩
    · rintro ⟨rfl, rfl⟩
      exact ⟨_, rfl, rfl, rfl, rfl, rfl⟩

end Backtest

/-! ## A live worker -/

namespace Live.StrategyRunner

variable {r : StrategyRunner BarStore} {config : StrategyConfig V} {rule : EntryRule}
  {spec : WorkerSpec Unit BarStore} {w : Worker Unit BarStore} {event : TickEvent}

/-- The worker hands over an intent for its tick. -/
def Emits (r : StrategyRunner BarStore) (spec : WorkerSpec Unit BarStore)
    (w : Worker Unit BarStore) (event : TickEvent) (direction : Direction)
    (distances : Distances) : Prop :=
  ∃ intent, (r.processTick spec w event).1.orders = w.orders ++ [intent] ∧
    intent.symbol = event.tick.symbol ∧ intent.timestamp = event.tick.timestamp ∧
    intent.direction = direction ∧ intent.stopDistancePips = distances.stopPips ∧
    intent.limitDistancePips = distances.limitPips

/-- Nothing outside the worker throws, and the gate is open. -/
structure Undisturbed (event : TickEvent) : Prop where
  feed : event.feed ≠ .error ()
  bars : event.barsThrow = false
  gate : event.gate = .ok true
  sink : event.sinkThrows = false

/-- A worker of the strategy, with the caps off. -/
structure Runs (config : StrategyConfig V) (rule : EntryRule) (spec : WorkerSpec Unit BarStore) :
    Prop where
  vars : spec.vars = config.tradingVariables
  open_off : spec.maxOpenTrades ≤ 0
  rate_off : spec.maxTradesPerMinute ≤ 0
  gateSeries : spec.gateSeries = some (Conditions.gateSeriesFor config)
  strategy : spec.strategy = rule.toLive

theorem syncBookIfDue_undisturbed (r : StrategyRunner BarStore) (spec : WorkerSpec Unit BarStore)
    (w : Worker Unit BarStore) (h : Undisturbed event) :
    (r.syncBookIfDue spec w event).2 = false ∧
      (r.syncBookIfDue spec w event).1.barStore = w.barStore := by
  unfold syncBookIfDue
  split
  · exact ⟨rfl, rfl⟩
  · dsimp only
    split
    · exact absurd ‹_› h.feed
    · exact ⟨rfl, rfl⟩
    · refine ⟨rfl, ?_⟩
      have hrefresh : ∀ (w : Worker Unit BarStore) (tick : PriceData) fetched,
          (refreshBook spec w tick fetched).barStore = w.barStore := by
        intro w tick fetched
        unfold refreshBook
        split
        · rfl
        · split <;> rfl
      have hseed : ∀ (w : Worker Unit BarStore) fetched,
          (seedBook spec w fetched).barStore = w.barStore := by
        intro w fetched
        unfold seedBook
        split
        · rfl
        · split <;> rfl
      rw [hseed, hrefresh]

/-- A signal with the caps off and the gate open goes to the sink. -/
theorem onSignal_uncapped (hspec : Runs config rule spec) (h : Undisturbed event)
    (w : Worker Unit BarStore) (signal : Direction) (distances : Distances) :
    (r.onSignal spec w event signal distances).2 = false ∧
      (r.onSignal spec w event signal distances).1.barStore = w.barStore ∧
      (r.onSignal spec w event signal distances).1.orders =
        w.orders ++ [orderIntent spec event.tick signal distances] := by
  have hevict : ∀ w : Worker Unit BarStore, evictOpens spec w event.tick.timestamp = w :=
    fun w => if_pos hspec.rate_off
  have hrate : ∀ w : Worker Unit BarStore, belowTradeRateCap spec w = true := by
    intro w
    simp [belowTradeRateCap, hspec.rate_off]
  have hopen : r.belowOpenTradeCap spec event.positions = .ok true := if_pos hspec.open_off
  simp only [onSignal, hevict, hrate, hopen, h.gate, Bool.not_true, Bool.false_eq_true, if_false,
    emitOrder, h.sink]
  exact ⟨trivial, trivial, trivial⟩

/-- The entry side of a tick hands over the answer to the question. -/
theorem entryPhase_uncapped (hspec : Runs config rule spec) (h : Undisturbed event)
    (w : Worker Unit BarStore) :
    (r.entryPhase spec w event).2 = false ∧
      (r.entryPhase spec w event).1.barStore = w.barStore ∧
      (r.entryPhase spec w event).1.orders = w.orders ++
        ((entry r.services spec.peakHoursOnly config rule w.barStore event.tick).map fun answer =>
          orderIntent spec event.tick answer.1 answer.2).toList := by
  have hdistances : r.entryDistances spec w event.tick =
      r.services.check w.barStore (Conditions.gateSeriesFor config) event.tick
        config.tradingVariables.stopDistanceInAtr config.tradingVariables.limitDistanceInAtr := by
    rw [entryDistances, hspec.gateSeries, hspec.vars]
  unfold entryPhase entry
  rw [hdistances]
  cases spec.peakHoursOnly && !r.services.tradePermitted event.tick.symbol event.tick.timestamp with
  | true => simp
  | false =>
    simp only [Bool.false_eq_true, if_false]
    cases r.services.check w.barStore (Conditions.gateSeriesFor config) event.tick
        config.tradingVariables.stopDistanceInAtr config.tradingVariables.limitDistanceInAtr with
    | none => simp
    | some distances =>
      have hdecide : spec.strategy.decide w.strategy event.tick w.barStore =
          (.ok (rule event.tick w.barStore), w.strategy) := by
        rw [hspec.strategy]
        rfl
      rw [hdecide]
      cases rule event.tick w.barStore with
      | none => simp
      | some signal => exact onSignal_uncapped hspec h _ signal distances

/-- A strategy that only decides closes nothing. -/
theorem duringPhase_rule (r : StrategyRunner BarStore) (hspec : Runs config rule spec)
    (w : Worker Unit BarStore) (event : TickEvent) :
    (r.duringPhase spec w event).1.barStore = w.barStore ∧
      (r.duringPhase spec w event).1.orders = w.orders := by
  have hcalls : duringCalls spec w event = ([], false) := by
    rw [duringCalls, hspec.strategy]
    rfl
  have hclosed : closedByStrategy spec w event = [] := by
    simp [closedByStrategy, managed, hcalls, TradeManager.calls]
  simp [duringPhase, hcalls, hclosed, emitCloses, managed]

/-- An undisturbed tick goes into the bars, and the answer to the question is handed over. -/
theorem processTick_uncapped (hspec : Runs config rule spec) (h : Undisturbed event) :
    let store := r.services.update w.barStore event.tick
    (r.processTick spec w event).1.barStore = store ∧
      (r.processTick spec w event).1.orders = w.orders ++
        ((entry r.services spec.peakHoursOnly config rule store event.tick).map fun answer =>
          orderIntent spec event.tick answer.1 answer.2).toList := by
  intro store
  obtain ⟨hcalm, hbars⟩ := syncBookIfDue_undisturbed r spec w h
  have horders := (syncBookIfDue_sameOpens r spec w event).orders
  set synced := (r.syncBookIfDue spec w event).1 with hsynced
  have hupdate : r.updateBars synced event = ({ synced with barStore := store }, false) := by
    simp [updateBars, h.bars, hbars, store]
  obtain ⟨hquiet, hstore, hentry⟩ :=
    entryPhase_uncapped (r := r) hspec h { synced with barStore := store }
  have hbefore : r.beforeDuring spec w event =
      r.entryPhase spec { synced with barStore := store } event := by
    simp only [beforeDuring, Worker.andThen, hcalm, Bool.false_eq_true, if_false, ← hsynced, hupdate]
  have hduring := duringPhase_rule r hspec
    (r.entryPhase spec { synced with barStore := store } event).1 event
  have htick : r.processTick spec w event = r.duringPhase spec
      (r.entryPhase spec { synced with barStore := store } event).1 event := by
    simp only [processTick, Worker.andThen, hbefore, hquiet, Bool.false_eq_true, if_false]
  rw [htick]
  refine ⟨hduring.1.trans hstore, ?_⟩
  rw [hduring.2, hentry, ← horders]

/-- After undisturbed ticks the worker's store has taken in each of them. -/
theorem workerLoop_barStore (hspec : Runs config rule spec) (w : Worker Unit BarStore)
    {events : List TickEvent} (h : ∀ event ∈ events, Undisturbed event) :
    (r.workerLoop spec w events).barStore =
      (events.map TickEvent.tick).foldl r.services.update w.barStore := by
  induction events generalizing w with
  | nil => rfl
  | cons event events ih =>
    obtain ⟨hhead, htail⟩ := List.forall_mem_cons.mp h
    change (r.workerLoop spec (r.processTick spec w event).1 events).barStore = _
    rw [ih _ htail, (processTick_uncapped hspec hhead).1]
    rfl

/-- A worker hands over exactly what the question answers. -/
theorem emits_iff (hspec : Runs config rule spec) (h : Undisturbed event)
    (hsymbol : event.tick.symbol = spec.symbol) (direction : Direction) (distances : Distances) :
    r.Emits spec w event direction distances ↔
      entry r.services spec.peakHoursOnly config rule (r.services.update w.barStore event.tick)
        event.tick = some (direction, distances) := by
  have horders := (processTick_uncapped (r := r) (w := w) hspec h).2
  unfold Emits
  rw [horders]
  cases entry r.services spec.peakHoursOnly config rule (r.services.update w.barStore event.tick)
      event.tick with
  | none => simp
  | some answer =>
    obtain ⟨signal, stop, limit⟩ := answer
    simp only [Option.map_some, Option.toList_some, List.append_cancel_left_eq, List.cons.injEq,
      and_true, exists_eq_left', Option.some.injEq, Prod.mk.injEq]
    constructor
    · rintro ⟨-, -, rfl, hstop, hlimit⟩
      cases distances
      exact ⟨rfl, congrArg₂ Distances.mk hstop hlimit⟩
    · rintro ⟨rfl, rfl⟩
      exact ⟨hsymbol.symm, rfl, rfl, rfl, rfl⟩

end Live.StrategyRunner

/-! ## Parity -/

/-- Registered stores take in ticks one by one as they take in a run. -/
theorem foldl_update_of_feed {tradePermitted : String → ℤ → Bool} {store store' : BarStore}
    {ticks : List PriceData} (h : store.feed .off ticks = .ok store') :
    ticks.foldl (barServices tradePermitted).update store = store' := by
  induction ticks generalizing store with
  | nil =>
    cases h
    rfl
  | cons tick ticks ih =>
    rw [BarStore.feed, List.foldlM_cons] at h
    cases hupdate : store.update .off tick with
    | error e =>
      rw [hupdate] at h
      cases h
    | ok next =>
      rw [hupdate] at h
      have hnext : (barServices tradePermitted).update store tick = next := by
        simp [barServices, hupdate]
      rw [List.foldl_cons, hnext]
      exact ih h

/-- The question has one answer in the store of a run over many symbols and in a store that has
seen the ticks of one. -/
theorem entry_own {config : StrategyConfig V} {rule : EntryRule} (hreads : rule.ReadsOwnSymbol)
    (tradePermitted : String → ℤ → Bool) (peakHoursOnly : Bool) {store : BarStore}
    (hstore : BarStore.fresh.registerAll (Operations.registrations config) = .ok store)
    (before : List PriceData) (tick : PriceData) :
    let services := barServices tradePermitted
    let own := (BarStore.own tick.symbol before).foldl services.update store
    let shared := before.foldl services.update store
    entry services peakHoursOnly config rule (services.update own tick) tick =
      entry services peakHoursOnly config rule (services.update shared tick) tick := by
  intro services own shared
  have hregistered := BarStore.registered_of_registerAll hstore
  have hoff : WarmUp.off.prepopulate = false := rfl
  obtain ⟨all, hall, hfind, hfindRange⟩ := hregistered.feed hoff (before ++ [tick])
  obtain ⟨alone, halone, hfind', hfindRange'⟩ :=
    hregistered.feed hoff (BarStore.own tick.symbol (before ++ [tick]))
  have hshared : services.update shared tick = all := by
    rw [← foldl_update_of_feed hall, List.foldl_append]
    rfl
  have hown : services.update own tick = alone := by
    rw [← foldl_update_of_feed halone, BarStore.own_concat_self, List.foldl_append]
    rfl
  have htime : ∀ minutes, alone.find tick.symbol minutes = all.find tick.symbol minutes := by
    intro minutes
    rw [hfind, hfind', BarStore.own_own]
  have hrange : ∀ spec, alone.findRange tick.symbol spec = all.findRange tick.symbol spec := by
    intro spec
    rw [hfindRange, hfindRange', BarStore.own_own]
  have hrule := hreads tick alone all htime hrange
  have hcheck : services.check alone (Conditions.gateSeriesFor config) tick
      config.tradingVariables.stopDistanceInAtr config.tradingVariables.limitDistanceInAtr =
        services.check all (Conditions.gateSeriesFor config) tick
          config.tradingVariables.stopDistanceInAtr
            config.tradingVariables.limitDistanceInAtr := Conditions.check_congr (htime _) _ _
  rw [hshared, hown, entry, entry, hcheck, hrule]

namespace Live

/-- A winner of the run's strategy, with the caps off. -/
structure Winner.Of {D : Type} [Decimal D] (winner : Winner V) (config : StrategyConfig V)
    (limits : RiskLimits D) : Prop where
  config : winner.config = config
  open_off : winner.maxOpenTrades ≤ 0
  rate_off : winner.maxTradesPerMinute ≤ 0
  peakHours : winner.peakHoursOnly = limits.peakHoursOnly

theorem StrategyCache.build?_runs {D : Type} [Decimal D]
    {makeStrategy : StrategyConfig V → Except String EntryRule} {config : StrategyConfig V}
    {rule : EntryRule} (hmake : makeStrategy config = .ok rule) {limits : RiskLimits D}
    {winner : Winner V} (hwinner : winner.Of config limits) {cached : CachedSpec}
    (h : build? makeStrategy winner = some cached) :
    StrategyRunner.Runs config rule cached.spec ∧ cached.spec.symbol = winner.symbol ∧
      cached.spec.peakHoursOnly = limits.peakHoursOnly := by
  unfold build? at h
  rw [hwinner.config, hmake] at h
  split_ifs at h
  cases h
  exact ⟨⟨rfl, hwinner.open_off, hwinner.rate_off, rfl, rfl⟩, rfl, hwinner.peakHours⟩

theorem StrategyCache.build_singleton {makeStrategy : StrategyConfig V → Except String EntryRule}
    {winner : Winner V} {cached : CachedSpec} :
    build makeStrategy [winner] = [cached] ↔ build? makeStrategy winner = some cached := by
  cases h : build? makeStrategy winner <;> simp [build, h]

/-- Where the conditions let an entry through the symbol is known, and the winner has a worker. -/
theorem StrategyCache.exists_build? {makeStrategy : StrategyConfig V → Except String EntryRule}
    {config : StrategyConfig V} {rule : EntryRule} (hmake : makeStrategy config = .ok rule)
    (huuid : config.uuid ≠ "") {winner : Winner V} (hconfig : winner.config = config)
    (hsymbol : SymbolScale.get winner.symbol ≠ SymbolScale.kUnknown) :
    ∃ cached, build? makeStrategy winner = some cached := by
  unfold build?
  rw [hconfig, hmake, if_neg hsymbol, if_neg huuid]
  exact ⟨_, rfl⟩

theorem entry_known {config : StrategyConfig V} {rule : EntryRule}
    {tradePermitted : String → ℤ → Bool} {peakHoursOnly : Bool} {store : BarStore}
    {tick : PriceData} {answer : Direction × Distances}
    (h : entry (barServices tradePermitted) peakHoursOnly config rule store tick = some answer) :
    SymbolScale.get tick.symbol ≠ SymbolScale.kUnknown := by
  unfold entry at h
  split_ifs at h
  obtain ⟨distances, hdistances, -⟩ := Option.bind_eq_some_iff.mp h
  exact (Conditions.check_bounds hdistances).1

/-- Both paths signal alike with the caps and the loss limit off. Whatever the run opens at a tick
is an intent of that symbol's worker, which there is unless the configuration is nameless; and an
intent at a tick whose symbol is free in the run is an opening of the run. -/
def Parity {D : Type} [Decimal D] (config : StrategyConfig V) (rule : EntryRule)
    (makeStrategy : StrategyConfig V → Except String EntryRule)
    (tradePermitted : String → ℤ → Bool) (performanceScore : TradeManager → D → ℤ → ℤ → D)
    (limits : RiskLimits D) (order : WalkOrder) (slip : ℤ) : Prop :=
  let b := Operations.backtest config rule tradePermitted performanceScore limits order
  ∃ store, BarStore.fresh.registerAll (Operations.registrations config) = .ok store ∧
    ∀ (before : List PriceData) (tick : PriceData) (winner : Winner V),
      winner.Of config limits → winner.symbol = tick.symbol →
      let st := (b.loop (Backtest.start (TradeManager.fresh slip) () store) before).1
      (config.uuid ≠ "" → ∀ direction distances, b.Opens st tick direction distances →
        ∃ cached, StrategyCache.build makeStrategy [winner] = [cached]) ∧
      ∀ cached, StrategyCache.build makeStrategy [winner] = [cached] →
        ∃ own, BarStore.fresh.registerAll cached.registrations = .ok own ∧
          ∀ (r : StrategyRunner BarStore) (events : List TickEvent) (event : TickEvent),
            r.services = barServices tradePermitted →
            events.map TickEvent.tick = BarStore.own tick.symbol before → event.tick = tick →
            (∀ e ∈ event :: events, StrategyRunner.Undisturbed e) →
            let w := r.workerLoop cached.spec (Worker.start own ()) events
            ∀ direction distances,
              (b.Opens st tick direction distances →
                r.Emits cached.spec w event direction distances) ∧
              (r.Emits cached.spec w event direction distances → b.FreeAt st tick →
                b.Opens st tick direction distances)

/-- A strategy that reads the bars of its own tick's symbol signals alike on both paths. -/
theorem signal_parity {D : Type} [Decimal D] (config : StrategyConfig V) (rule : EntryRule)
    (hreads : rule.ReadsOwnSymbol) (makeStrategy : StrategyConfig V → Except String EntryRule)
    (hmake : makeStrategy config = .ok rule) (tradePermitted : String → ℤ → Bool)
    (performanceScore : TradeManager → D → ℤ → ℤ → D) (limits : RiskLimits D) (order : WalkOrder)
    (hopen : limits.maxOpenTrades ≤ 0) (hrate : limits.maxTradesPerMinute ≤ 0)
    (hloss : Decimal.lt (Decimal.ofInt 0) limits.maxLossPercent = false) (slip : ℤ) :
    Parity config rule makeStrategy tradePermitted performanceScore limits order slip := by
  unfold Parity
  intro b
  obtain ⟨store, hstore⟩ :=
    BarStore.exists_registerAll (Operations.registrations_positive config) .fresh
  refine ⟨store, hstore, ?_⟩
  intro before tick winner hwinner hsymbol st
  have hoff : b.lossLimitActive = false := hloss
  have hafter : st = b.after (Backtest.start (TradeManager.fresh slip) () store) before :=
    congrArg Prod.fst (Backtest.loop_off hoff before _)
  have hbars : st.barStore = before.foldl b.services.update store := by
    rw [hafter, Backtest.after_barStore]
    rfl
  have hopens : ∀ direction distances, b.Opens st tick direction distances ↔ b.FreeAt st tick ∧
      entry b.services limits.peakHoursOnly config rule (b.services.update st.barStore tick) tick =
        some (direction, distances) := fun direction distances =>
    Backtest.opens_iff hopen hrate st tick direction distances
  constructor
  · intro huuid direction distances hopened
    have hknown := entry_known ((hopens direction distances).mp hopened).2
    obtain ⟨cached, hcached⟩ := StrategyCache.exists_build? hmake huuid hwinner.config
      (hsymbol ▸ hknown)
    exact ⟨cached, StrategyCache.build_singleton.mpr hcached⟩
  · intro cached hcached
    rw [StrategyCache.build_singleton] at hcached
    obtain ⟨hruns, hspec, hpeak⟩ := StrategyCache.build?_runs hmake hwinner hcached
    refine ⟨store, ?_, ?_⟩
    · rw [StrategyCache.build?_registrations hcached, hwinner.config]
      exact hstore
    · intro r events event hservices hevents htick hcalm w direction distances
      obtain ⟨hnow, hpast⟩ := List.forall_mem_cons.mp hcalm
      have hw : w.barStore = (BarStore.own tick.symbol before).foldl b.services.update store := by
        rw [StrategyRunner.workerLoop_barStore hruns _ hpast, hevents, hservices]
        rfl
      have hemits := StrategyRunner.emits_iff (r := r) (w := w) hruns hnow
        (by rw [htick, hspec, hsymbol]) direction distances
      have hsame := entry_own hreads tradePermitted limits.peakHoursOnly hstore before tick
      have hservices' : b.services = barServices tradePermitted := rfl
      rw [hservices, hpeak, htick, hw, hservices', hsame, ← hservices', ← hbars] at hemits
      rw [hemits, hopens]
      exact ⟨fun h => h.2, fun h hfree => ⟨hfree, h⟩⟩

/-! ## A strategy that looks at another symbol -/

/-- A long whenever the named symbol has bars. -/
def watches (symbol : PriceData → String) : EntryRule := fun tick store =>
  if (store.find (symbol tick) 15).isSome then some .long else none

def sampleConfig : StrategyConfig Unit where
  uuid := "uuid"
  strategy := "sample"
  tradingVariables := ⟨1, 1, 1⟩
  ohlcVariables := []
  strategyVariables := ()

/-- A price that swings by a hundred pips every twenty minutes. -/
def swing (k : ℕ) : PriceData where
  ask := 110000 + 1000 * (k % 2)
  bid := 109990 + 1000 * (k % 2)
  timestamp := k * (20 * minute)
  symbol := "EURUSD"

def swings : List PriceData := ⟨65000, 64990, 0, "AUDUSD"⟩ :: (List.range 10).map swing

/-- A worker fed with ticks alone, and the gate open. -/
def sampleRunner : StrategyRunner BarStore where
  services := barServices fun _ _ => true
  positionsWired := false
  feedWired := false
  closeSinkWired := false
  bookSyncInterval := 15 * second

def sampleEvent (tick : PriceData) : TickEvent :=
  { StrategyRunner.calm tick.timestamp [] with tick := tick }

theorem sampleEvent_undisturbed (tick : PriceData) :
    StrategyRunner.Undisturbed (sampleEvent tick) := by
  constructor
  · intro h
    cases h
  · rfl
  · rfl
  · rfl

/-- A strategy that waits for the bars of another symbol. -/
def waits : EntryRule := watches fun _ => "AUDUSD"

/-- A factory that knows one strategy. -/
def makeOnly (rule : EntryRule) : StrategyConfig Unit → Except String EntryRule := fun _ => .ok rule

def sampleRun : Backtest Unit BarStore ℚ :=
  Operations.backtest sampleConfig waits (fun _ _ => true) (fun _ _ _ _ => 0) {} .entries

/-- The store of the sample before the first tick. -/
def sampleStore : BarStore := { BarStore.fresh with specs := [⟨15, 11⟩] }

theorem sampleStore_registered :
    BarStore.fresh.registerAll (Operations.registrations sampleConfig) = .ok sampleStore := rfl

/-- The state in which the run takes up the tick after the swings. -/
def sampleState : RunState Unit BarStore :=
  (sampleRun.loop (Backtest.start (TradeManager.fresh 0) () sampleStore) swings).1

set_option maxRecDepth 10000 in
theorem sampleRun_free : sampleRun.FreeAt sampleState (swing 10) := rfl

set_option maxRecDepth 10000 in
theorem sampleRun_answers :
    entry sampleRun.services false sampleConfig waits
      (sampleRun.services.update sampleState.barStore (swing 10)) (swing 10) =
        some (.long, ⟨80, 100⟩) := rfl

theorem sampleRun_opens_iff (st : RunState Unit BarStore) (tick : PriceData) (direction : Direction)
    (distances : Distances) : sampleRun.Opens st tick direction distances ↔
      sampleRun.FreeAt st tick ∧ entry sampleRun.services false sampleConfig waits
        (sampleRun.services.update st.barStore tick) tick = some (direction, distances) :=
  Backtest.opens_iff le_rfl le_rfl st tick direction distances

theorem sampleRun_opens : sampleRun.Opens sampleState (swing 10) .long ⟨80, 100⟩ :=
  (sampleRun_opens_iff _ _ _ _).mpr ⟨sampleRun_free, sampleRun_answers⟩

set_option maxRecDepth 10000 in
theorem sampleRunner_answers :
    let seen := ((List.range 10).map swing).foldl sampleRunner.services.update sampleStore
    entry sampleRunner.services false sampleConfig waits
      (sampleRunner.services.update seen (swing 10)) (swing 10) = none := rfl

def sampleEvents : List TickEvent := ((List.range 10).map swing).map sampleEvent

theorem sampleEvents_ticks :
    sampleEvents.map TickEvent.tick = BarStore.own (swing 10).symbol swings := rfl

/-- A strategy that waits for another symbol opens in the run over both symbols, and never signals
in a worker that sees its own alone. -/
theorem signal_parity_other_symbol :
    ¬ @Parity Unit ℚ _ sampleConfig waits (makeOnly waits) (fun _ _ => true)
      (fun _ _ _ _ => 0) {} .entries 0 := by
  rintro ⟨store, hstore, h⟩
  obtain rfl : sampleStore = store := Except.ok.inj (sampleStore_registered.symm.trans hstore)
  let winner : Winner Unit := ⟨"EURUSD", "sample", 0, 0, false, sampleConfig⟩
  have hwinner : winner.Of sampleConfig ({} : RiskLimits ℚ) := ⟨rfl, le_rfl, le_rfl, rfl⟩
  have hopens := sampleRun_opens
  obtain ⟨hworker, hparity⟩ := h swings (swing 10) winner hwinner rfl
  obtain ⟨cached, hcached⟩ := hworker (by decide) _ _ hopens
  obtain ⟨own, hown, hparity⟩ := hparity cached hcached
  rw [StrategyCache.build_singleton] at hcached
  have hmake : makeOnly waits sampleConfig = .ok waits := rfl
  obtain ⟨hruns, hsymbol, hpeak⟩ := StrategyCache.build?_runs hmake hwinner hcached
  rw [StrategyCache.build?_registrations hcached] at hown
  obtain rfl : sampleStore = own := Except.ok.inj (sampleStore_registered.symm.trans hown)
  have hcalm : ∀ e ∈ sampleEvent (swing 10) :: sampleEvents, StrategyRunner.Undisturbed e := by
    intro e he
    rcases List.mem_cons.mp he with rfl | he
    · exact sampleEvent_undisturbed _
    · obtain ⟨tick, -, rfl⟩ := List.mem_map.mp he
      exact sampleEvent_undisturbed _
  obtain ⟨hnow, hpast⟩ := List.forall_mem_cons.mp hcalm
  have hemits := (hparity sampleRunner sampleEvents (sampleEvent (swing 10)) rfl sampleEvents_ticks
    rfl hcalm .long ⟨80, 100⟩).1 hopens
  rw [StrategyRunner.emits_iff hruns hnow hsymbol.symm,
    StrategyRunner.workerLoop_barStore hruns _ hpast, hpeak] at hemits
  cases sampleRunner_answers.symm.trans hemits

theorem watches_own : EntryRule.ReadsOwnSymbol (watches PriceData.symbol) := by
  intro tick store store' hfind _
  simp only [watches, hfind]

theorem signal_parity_own_symbol :
    @Parity Unit ℚ _ sampleConfig (watches PriceData.symbol)
      (makeOnly (watches PriceData.symbol)) (fun _ _ => true) (fun _ _ _ _ => 0) {} .entries 0 :=
  signal_parity sampleConfig (watches PriceData.symbol) watches_own _ rfl _ _ {} _ le_rfl le_rfl rfl 0

end Live

end BacktestEngine
