import BacktestEngine.Library.Keyed
import BacktestEngine.Reporting.ResultsSummary

/-! # Long and short are mirror images

Reflect every price about a constant, so that bids and asks trade places, and take
the other side at every entry. Each operation of the manager commutes with the
reflection, and so does the loop.
-/

namespace BacktestEngine

def Direction.opposite : Direction → Direction
  | .long => .short
  | .short => .long

/-- A tick reflected about a constant. -/
def PriceData.mirrored (c : ℤ) (tick : PriceData) : PriceData :=
  { tick with
    ask := c - tick.bid
    bid := c - tick.ask }

/-- An open trade on the other side of the reflected prices. -/
def Trade.mirrored (c : ℤ) (trade : Trade) : Trade :=
  { trade with
    direction := trade.direction.opposite
    entryPrice := c - trade.entryPrice
    entryBid := c - trade.entryAsk
    entryAsk := c - trade.entryBid
    exitReferencePrice := c - trade.exitReferencePrice
    stopPrice := c - trade.stopPrice
    limitPrice := c - trade.limitPrice
    lastMarkPrice := c - trade.lastMarkPrice }

/-- A closed trade has a close price to reflect as well. -/
def Trade.closedMirrored (c : ℤ) (trade : Trade) : Trade :=
  { trade.mirrored c with closePrice := c - trade.closePrice }

def TradeManager.mirrored (c : ℤ) (tm : TradeManager) : TradeManager :=
  { tm with
    activeTrades := Keyed.mapValues (fun _ => Trade.mirrored c) tm.activeTrades
    closedTrades := tm.closedTrades.map (Trade.closedMirrored c) }

/-- A walk in an order that depends on the symbols alone, as that of a hash map does. -/
structure KeyOrder extends WalkOrder where
  byKeys : ∀ entries entries', entries.map Sigma.fst = entries'.map Sigma.fst →
    (walk entries).map Sigma.fst = (walk entries').map Sigma.fst

/-- A strategy that leaves the positions it opened to their stops and limits. -/
def Strategy.deciding {σ B : Type} (decide : σ → PriceData → B → Option Direction × σ) :
    Strategy σ B :=
  ⟨decide, fun state _ _ _ => ([], state)⟩

/-- Over these ticks, whichever of them it is asked at, the second strategy takes on the
reflected tick the side that the first one does not take. -/
def Opposed {σ σ' B : Type} (c : ℤ) (update : B → PriceData → B)
    (decide : σ → PriceData → B → Option Direction × σ)
    (decide' : σ' → PriceData → B → Option Direction × σ') :
    List PriceData → σ → B → σ' → B → Prop
  | [], _, _, _, _ => True
  | tick :: ticks, state, store, state', store' =>
    let bars := update store tick
    let bars' := update store' (tick.mirrored c)
    let asked := decide state tick bars
    let asked' := decide' state' (tick.mirrored c) bars'
    asked'.1 = asked.1.map Direction.opposite ∧
      Opposed c update decide decide' ticks asked.2 bars asked'.2 bars' ∧
      Opposed c update decide decide' ticks state bars state' bars'

/-- What two runs without entry conditions share. -/
structure Setting (B D : Type) [Decimal D] where
  services : Services B
  vars : TradingVariables
  limits : RiskLimits D
  order : KeyOrder

/-- A run of the setting, held to the score of its summary. -/
def Setting.backtest {σ B D F : Type} [Summing D] [Doubles F] [Casts D F] (setting : Setting B D)
    (decide : σ → PriceData → B → Option Direction × σ) : Backtest σ B D where
  strategy := .deciding decide
  services := setting.services
  performanceScore := ResultsSummary.performanceScore
  vars := setting.vars
  limits := setting.limits
  gateSeries := none
  order := setting.order.toWalkOrder

attribute [ext] Trade

/-! ## Trades -/

section Trades

variable (c : ℤ) (tick : PriceData) (trade : Trade) (direction : Direction) (price : ℤ)

@[simp] theorem Direction.opposite_opposite : direction.opposite.opposite = direction := by
  cases direction <;> rfl

@[simp] theorem PriceData.mirrored_symbol : (tick.mirrored c).symbol = tick.symbol := rfl

@[simp] theorem PriceData.mirrored_timestamp : (tick.mirrored c).timestamp = tick.timestamp := rfl

@[simp] theorem PriceData.mirrored_entrySide :
    (tick.mirrored c).entrySide direction.opposite = c - tick.entrySide direction := by
  cases direction <;> rfl

@[simp] theorem PriceData.mirrored_closeSide :
    (tick.mirrored c).closeSide direction.opposite = c - tick.closeSide direction := by
  cases direction <;> rfl

@[simp] theorem Trade.mirrored_direction :
    (trade.mirrored c).direction = trade.direction.opposite := rfl

@[simp] theorem Trade.mirrored_lastMarkPrice :
    (trade.mirrored c).lastMarkPrice = c - trade.lastMarkPrice := rfl

@[simp] theorem Trade.mirrored_floatingPnl :
    (trade.mirrored c).floatingPnl = trade.floatingPnl := rfl

/-- The distance a price has moved in favour of a trade does not change. -/
@[simp] theorem floatingPnlAt_mirrored :
    floatingPnlAt (trade.mirrored c) (c - price) = floatingPnlAt trade price := by
  have hdiff : c - price - (c - trade.entryPrice) = -(price - trade.entryPrice) := by omega
  cases h : trade.direction with
  | long => simp [floatingPnlAt, Trade.mirrored, h, Direction.opposite, hdiff]
  | short => simp [floatingPnlAt, Trade.mirrored, h, Direction.opposite, hdiff]

theorem marked_mirrored :
    TradeManager.marked (trade.mirrored c) (c - price) =
      (TradeManager.marked trade price).mirrored c := by
  unfold TradeManager.marked
  rw [floatingPnlAt_mirrored]
  rfl

theorem closedAt_mirrored (liquidated : Bool) :
    TradeManager.closedAt (trade.mirrored c) (c - price) (tick.mirrored c) liquidated =
      (TradeManager.closedAt trade price tick liquidated).closedMirrored c := by
  unfold TradeManager.closedAt
  rw [floatingPnlAt_mirrored]
  rfl

/-- Stops and limits are hit on the same ticks. -/
theorem checkExit_mirrored :
    checkExit (trade.mirrored c) (tick.mirrored c) = (checkExit trade tick).map (c - ·) := by
  unfold checkExit
  cases h : trade.direction with
  | long =>
    have hstop : c - tick.bid ≥ c - trade.stopPrice ↔ tick.bid ≤ trade.stopPrice := by omega
    have hlimit : c - tick.bid ≤ c - trade.limitPrice ↔ tick.bid ≥ trade.limitPrice := by omega
    simp only [Trade.mirrored, PriceData.mirrored, h, Direction.opposite, hstop, hlimit]
    split_ifs <;> rfl
  | short =>
    have hstop : c - tick.ask ≤ c - trade.stopPrice ↔ tick.ask ≥ trade.stopPrice := by omega
    have hlimit : c - tick.ask ≥ c - trade.limitPrice ↔ tick.ask ≤ trade.limitPrice := by omega
    simp only [Trade.mirrored, PriceData.mirrored, h, Direction.opposite, hstop, hlimit]
    split_ifs <;> rfl

end Trades

/-! ## The manager -/

namespace TradeManager

variable (c : ℤ) (tm : TradeManager) (tick : PriceData)

theorem fresh_mirrored (slip : ℤ) : (fresh slip).mirrored c = fresh slip := rfl

@[simp] theorem mirrored_calculatePnl : (tm.mirrored c).calculatePnl = tm.calculatePnl := rfl

@[simp] theorem mirrored_unrealizedPnl : (tm.mirrored c).unrealizedPnl = tm.unrealizedPnl := rfl

@[simp] theorem mirrored_maxDrawdownPoints :
    (tm.mirrored c).maxDrawdownPoints = tm.maxDrawdownPoints := rfl

@[simp] theorem mirrored_reviewAccount : (tm.mirrored c).reviewAccount = tm.reviewAccount :=
  List.length_map _

@[simp] theorem mirrored_lookup (symbol : String) : (tm.mirrored c).activeTrades.lookup symbol =
    (tm.activeTrades.lookup symbol).map (Trade.mirrored c) :=
  Keyed.lookup_mapValues _ _ _

@[simp] theorem mirrored_hasActiveTradeForSymbol (symbol : String) :
    (tm.mirrored c).hasActiveTradeForSymbol symbol = tm.hasActiveTradeForSymbol symbol := by
  simp only [hasActiveTradeForSymbol, findActiveTrade, mirrored_lookup, Option.isSome_map]

/-- The entry pays the reflected price, slippage included, and its levels are reflected. -/
theorem newTrade_mirrored (size : ℤ) (direction : Direction) (stop limit : ℤ) :
    (tm.mirrored c).newTrade (tick.mirrored c) size direction.opposite stop limit =
      (tm.newTrade tick size direction stop limit).mirrored c := by
  have hslip : ∀ scale, (tm.mirrored c).slipPoints scale = tm.slipPoints scale := fun _ => rfl
  have hid : (tm.mirrored c).tradeCounter = tm.tradeCounter := rfl
  cases direction with
  | long =>
    ext
    all_goals simp only [newTrade, Trade.make, Trade.mirrored, floatingPnlAt, hslip, hid,
      PriceData.entrySide, PriceData.closeSide, PriceData.mirrored, Direction.opposite]
    all_goals grind
  | short =>
    ext
    all_goals simp only [newTrade, Trade.make, Trade.mirrored, floatingPnlAt, hslip, hid,
      PriceData.entrySide, PriceData.closeSide, PriceData.mirrored, Direction.opposite]
    all_goals grind

theorem updateDrawdown_mirrored : (tm.mirrored c).updateDrawdown = tm.updateDrawdown.mirrored c :=
  rfl

theorem insert_mirrored (trades : AList fun _ : String => Trade) (symbol : String)
    (trade : Trade) :
    (Keyed.mapValues (fun _ => Trade.mirrored c) trades).insert symbol (trade.mirrored c) =
      Keyed.mapValues (fun _ => Trade.mirrored c) (trades.insert symbol trade) :=
  Keyed.insert_mapValues (fun _ => Trade.mirrored c) trades symbol trade

theorem openTrade_mirrored (size : ℤ) (direction : Direction) (stop limit : ℤ) :
    ((tm.mirrored c).openTrade (tick.mirrored c) size direction.opposite stop limit).1 =
      (tm.openTrade tick size direction stop limit).1.mirrored c := by
  cases h : tm.activeTrades.lookup tick.symbol with
  | none =>
    have h' : (tm.mirrored c).activeTrades.lookup (tick.mirrored c).symbol = none := by simp [h]
    rw [openTrade_fresh h, openTrade_fresh h', newTrade_mirrored, ← updateDrawdown_mirrored]
    simp only [mirrored, PriceData.mirrored_symbol, Trade.mirrored_floatingPnl,
      insert_mirrored]
  | some held =>
    have h' : (tm.mirrored c).activeTrades.lookup (tick.mirrored c).symbol =
        some (held.mirrored c) := by simp [h]
    rw [openTrade_held h, openTrade_held h']
    rfl

theorem markToMarket_mirrored :
    (tm.mirrored c).markToMarket (tick.mirrored c) = (tm.markToMarket tick).mirrored c := by
  cases h : tm.activeTrades.lookup tick.symbol with
  | none =>
    have h' : (tm.mirrored c).activeTrades.lookup (tick.mirrored c).symbol = none := by simp [h]
    rw [markToMarket_none h, markToMarket_none h']
  | some trade =>
    have h' : (tm.mirrored c).activeTrades.lookup (tick.mirrored c).symbol =
        some (trade.mirrored c) := by simp [h]
    rw [markToMarket_some h, markToMarket_some h', ← updateDrawdown_mirrored]
    simp only [mirrored, PriceData.mirrored_symbol, Trade.mirrored_direction,
      PriceData.mirrored_closeSide, floatingPnlAt_mirrored, Trade.mirrored_floatingPnl,
      marked_mirrored, insert_mirrored]

theorem closeTrade_mirrored (symbol : String) (price : ℤ) (liquidated : Bool) :
    ((tm.mirrored c).closeTrade symbol (c - price) (tick.mirrored c) liquidated).1 =
      (tm.closeTrade symbol price tick liquidated).1.mirrored c := by
  cases h : tm.activeTrades.lookup symbol with
  | none =>
    have h' : (tm.mirrored c).activeTrades.lookup symbol = none := by simp [h]
    rw [closeTrade_none h, closeTrade_none h']
  | some trade =>
    have h' : (tm.mirrored c).activeTrades.lookup symbol = some (trade.mirrored c) := by simp [h]
    rw [closeTrade_some h, closeTrade_some h', closedAt_mirrored]
    simp only [mirrored, Keyed.erase_mapValues, Trade.mirrored_floatingPnl, List.map_append]
    rfl

theorem reviewStopAndLimit_mirrored :
    reviewStopAndLimit (tm.mirrored c) (tick.mirrored c) =
      (reviewStopAndLimit tm tick).mirrored c := by
  unfold reviewStopAndLimit findActiveTrade
  rw [PriceData.mirrored_symbol, mirrored_lookup]
  cases tm.activeTrades.lookup tick.symbol with
  | none => rfl
  | some trade =>
    dsimp only [Option.map_some]
    rw [checkExit_mirrored]
    cases checkExit trade tick with
    | none => rfl
    | some exitPrice => exact closeTrade_mirrored c tm tick tick.symbol exitPrice false

/-- The order of the sweep is that of the symbols; the price comes from the lookup. -/
theorem toClose_eq (order : WalkOrder) : tm.toClose order =
    ((order.walk tm.activeTrades.entries).map Sigma.fst).filterMap fun symbol =>
      (tm.activeTrades.lookup symbol).map fun trade => (symbol, trade.lastMarkPrice) := by
  rw [toClose, List.filterMap_map, ← List.filterMap_eq_map]
  apply List.filterMap_congr
  rintro ⟨symbol, trade⟩ hentry
  have hlookup := Keyed.mem_entries.mp ((order.perm _).mem_iff.mp hentry)
  simp [hlookup]

/-- The walk over the reflected trades meets the same symbols in the same order. -/
theorem toClose_mirrored (order : KeyOrder) :
    (tm.mirrored c).toClose order.toWalkOrder =
      (tm.toClose order.toWalkOrder).map fun pair => (pair.1, c - pair.2) := by
  have hkeys : (tm.mirrored c).activeTrades.entries.map Sigma.fst =
      tm.activeTrades.entries.map Sigma.fst := by
    simp [mirrored, Function.comp_def, Sigma.map]
  rw [toClose_eq, toClose_eq, order.byKeys _ _ hkeys, List.map_filterMap]
  simp only [mirrored_lookup, Option.map_map, Function.comp_def, Trade.mirrored_lastMarkPrice]

theorem closeEach_mirrored (liquidated : Bool) (pairs : List (String × ℤ)) :
    closeEach (tick.mirrored c) liquidated (tm.mirrored c)
        (pairs.map fun pair => (pair.1, c - pair.2)) =
      (closeEach tick liquidated tm pairs).mirrored c := by
  induction pairs generalizing tm with
  | nil => rfl
  | cons pair pairs ih =>
    obtain ⟨symbol, price⟩ := pair
    rw [List.map_cons, closeEach, closeEach, closeTrade_mirrored]
    exact ih _

theorem closeAllTrades_mirrored (liquidated : Bool) (order : KeyOrder) :
    (tm.mirrored c).closeAllTrades (tick.mirrored c) liquidated order.toWalkOrder =
      (tm.closeAllTrades tick liquidated order.toWalkOrder).mirrored c := by
  rw [closeAllTrades, closeAllTrades, toClose_mirrored]
  exact closeEach_mirrored c tm tick liquidated _

end TradeManager

/-! ## The summary -/

/-- The summary with the counts of longs and shorts exchanged. -/
def TradingResultsStats.swapped {D : Type} (stats : TradingResultsStats D) :
    TradingResultsStats D :=
  { stats with
    openedLong := stats.openedShort
    openedShort := stats.openedLong
    closedLong := stats.closedShort
    closedShort := stats.closedLong }

namespace ResultsSummary

variable {D F : Type} [Summing D] [Doubles F] [Casts D F] (c : ℤ)

def Tally.swapped (tally : Tally D) : Tally D :=
  { tally with
    closedLong := tally.closedShort
    closedShort := tally.closedLong }

omit [Summing D] in
theorem Tally.count_mirrored (tally : Tally D) (trade : Trade) :
    tally.swapped.count (trade.closedMirrored c) = (tally.count trade).swapped := by
  have hliquidated : (trade.closedMirrored c).liquidated = trade.liquidated := rfl
  have hdirection : (trade.closedMirrored c).direction = trade.direction.opposite := rfl
  cases h : trade.direction <;>
    simp [count, swapped, hliquidated, hdirection, h, Direction.opposite]

theorem Tally.measure_mirrored (tally : Tally D) (trade : Trade) :
    tally.swapped.measure (trade.closedMirrored c) = (tally.measure trade).swapped := by
  unfold measure
  change (if trade.pnl > 0 then _ else if trade.pnl < 0 then _ else _) = _
  split_ifs <;> rfl

theorem Tally.step_mirrored (tally : Tally D) (trade : Trade) :
    tally.swapped.step (trade.closedMirrored c) = (tally.step trade).swapped := by
  unfold step
  rw [count_mirrored, measure_mirrored]
  change (if trade.scalingFactor = 0 then _ else _) = _
  split_ifs <;> rfl

theorem tally_mirrored (closedTrades : List Trade) :
    (tally (closedTrades.map (Trade.closedMirrored c)) : Tally D) =
      (tally closedTrades).swapped := by
  induction closedTrades using List.reverseRecOn with
  | nil => rfl
  | append_singleton trades trade ih =>
    unfold tally at ih ⊢
    rw [List.map_append, List.foldl_append, ih, List.foldl_append]
    exact Tally.step_mirrored c _ trade

omit [Summing D] in
theorem computePerformanceScore_swapped (stats : TradingResultsStats D) (balance : D) (months : ℤ)
    (win loss drop : D) :
    computePerformanceScore stats.swapped balance months win loss drop =
      (computePerformanceScore stats balance months win loss drop).swapped := by
  unfold computePerformanceScore TradingResultsStats.swapped
  dsimp only
  split_ifs <;> rfl

theorem collect_mirrored (tm : TradeManager) (balance : D) (months points : ℤ) :
    collect (tm.mirrored c) balance months points =
      (collect tm balance months points).swapped := by
  have hactive : (tm.mirrored c).activeList = tm.activeList.map (Trade.mirrored c) := by
    simp [TradeManager.activeList, TradeManager.mirrored, Function.comp_def, Sigma.map]
  have hlong : (tm.activeList.map (Trade.mirrored c)).countP (fun trade => trade.direction = .long) =
      tm.activeList.countP fun trade => trade.direction ≠ .long := by
    rw [List.countP_map]
    refine List.countP_congr fun trade _ => ?_
    cases h : trade.direction <;> simp [h, Direction.opposite]
  have hshort : (tm.activeList.map (Trade.mirrored c)).countP (fun trade => trade.direction ≠ .long) =
      tm.activeList.countP fun trade => trade.direction = .long := by
    rw [List.countP_map]
    refine List.countP_congr fun trade _ => ?_
    cases h : trade.direction <;> simp [h, Direction.opposite]
  have hclosed : (tm.mirrored c).closedTrades = tm.closedTrades.map (Trade.closedMirrored c) := rfl
  unfold collect
  rw [hactive, hclosed]
  dsimp only
  rw [hlong, hshort, tally_mirrored, List.length_map, List.length_map,
    TradeManager.mirrored_maxDrawdownPoints, ← computePerformanceScore_swapped]
  rfl

/-- A run and its reflection have the same score. -/
theorem performanceScore_mirrored (tm : TradeManager) (balance : D) (months points : ℤ) :
    performanceScore (tm.mirrored c) balance months points =
      performanceScore tm balance months points := by
  rw [performanceScore, collect_mirrored]
  rfl

end ResultsSummary

/-! ## The run -/

section Run

variable {σ σ' B D F : Type} [Summing D] [Doubles F] [Casts D F] {c : ℤ} {setting : Setting B D}
  {decide : σ → PriceData → B → Option Direction × σ}
  {decide' : σ' → PriceData → B → Option Direction × σ'}

variable (c) in
/-- The second run has the reflected manager, and the same entries in its window. -/
structure RunState.Reflected (st : RunState σ B) (st' : RunState σ' B) : Prop where
  tradeManager : st'.tradeManager = st.tradeManager.mirrored c
  recentOpens : st'.recentOpens = st.recentOpens

variable {st : RunState σ B} {st' : RunState σ' B} {tick : PriceData}

/-- The gate reads winners, losers and the score of the summary, and no side. -/
theorem underperforms_mirrored (tm : TradeManager) :
    (setting.backtest decide').underperforms (tm.mirrored c) =
      (setting.backtest decide).underperforms tm := by
  let balance : D := setting.limits.startingBalance
  have hcollect := ResultsSummary.collect_mirrored c tm balance setting.limits.lastMonths
    setting.limits.pointsPerPip
  have hwinners : ResultsSummary.winners (tm.mirrored c) = ResultsSummary.winners tm := by
    have hcount := congrArg TradingResultsStats.winners hcollect
    rw [ResultsSummary.collect_winners] at hcount
    exact hcount.trans (ResultsSummary.collect_winners _ _ _ _)
  have hlosers : ResultsSummary.losers (tm.mirrored c) = ResultsSummary.losers tm := by
    have hcount := congrArg TradingResultsStats.losers hcollect
    rw [ResultsSummary.collect_losers] at hcount
    exact hcount.trans (ResultsSummary.collect_losers _ _ _ _)
  have hscore := ResultsSummary.performanceScore_mirrored c tm balance setting.limits.lastMonths
    setting.limits.pointsPerPip
  unfold Backtest.underperforms
  rw [hwinners, hlosers]
  simp only [Setting.backtest]
  rw [hscore]
  rfl

theorem RunState.Reflected.exitPhase (h : st.Reflected c st') (tick : PriceData) :
    ((setting.backtest decide).exitPhase st tick).Reflected c
      ((setting.backtest decide').exitPhase st' (tick.mirrored c)) := by
  constructor
  · simp only [Backtest.exitPhase, h.tradeManager, TradeManager.markToMarket_mirrored,
      TradeManager.reviewStopAndLimit_mirrored]
  · exact h.recentOpens

theorem RunState.Reflected.evictOpens (h : st.Reflected c st') (tick : PriceData) :
    ((setting.backtest decide).evictOpens st tick).Reflected c
      ((setting.backtest decide').evictOpens st' (tick.mirrored c)) := by
  have hactive : (setting.backtest decide').tradeRateCapActive =
      (setting.backtest decide).tradeRateCapActive := rfl
  unfold Backtest.evictOpens
  rw [hactive]
  split
  · constructor
    · exact h.tradeManager
    · exact congrArg (Window.evict minute tick.timestamp) h.recentOpens
  · exact h

theorem RunState.Reflected.entryGates_eq (h : st.Reflected c st') (tick : PriceData) :
    (setting.backtest decide').entryGates st' (tick.mirrored c) =
      (setting.backtest decide).entryGates st tick := by
  unfold Backtest.entryGates Backtest.inSession Backtest.belowOpenTradeCap
    Backtest.belowTradeRateCap
  rw [h.tradeManager, h.recentOpens, TradeManager.mirrored_reviewAccount,
    PriceData.mirrored_symbol, TradeManager.mirrored_hasActiveTradeForSymbol]
  rfl

theorem entryPhase_skipped (h : (setting.backtest decide).entryGates st tick = false) :
    (setting.backtest decide).entryPhase st tick = st := by
  unfold Backtest.entryPhase
  rw [h]
  rfl

theorem entryPhase_declined (h : (setting.backtest decide).entryGates st tick = true)
    (hasked : (decide st.strategy tick st.barStore).1 = none) :
    (setting.backtest decide).entryPhase st tick =
      { st with strategy := (decide st.strategy tick st.barStore).2 } := by
  have hdecide : (setting.backtest decide).strategy.decide st.strategy tick st.barStore =
      (none, (decide st.strategy tick st.barStore).2) := Prod.ext hasked rfl
  have hdistances : (setting.backtest decide).entryDistances st.barStore tick =
    some ⟨setting.vars.stopDistanceInAtr, setting.vars.limitDistanceInAtr⟩ := rfl
  unfold Backtest.entryPhase
  rw [if_pos h, hdistances]
  dsimp only
  rw [hdecide]

theorem entryPhase_entered {signal : Direction}
    (h : (setting.backtest decide).entryGates st tick = true)
    (hasked : (decide st.strategy tick st.barStore).1 = some signal) :
    (setting.backtest decide).entryPhase st tick =
      { st with
        strategy := (decide st.strategy tick st.barStore).2
        tradeManager := (st.tradeManager.openTrade tick setting.vars.tradingSize signal
          setting.vars.stopDistanceInAtr setting.vars.limitDistanceInAtr).1
        recentOpens := if (setting.backtest decide).tradeRateCapActive then
          st.recentOpens ++ [tick.timestamp] else st.recentOpens } := by
  have hdecide : (setting.backtest decide).strategy.decide st.strategy tick st.barStore =
      (some signal, (decide st.strategy tick st.barStore).2) := Prod.ext hasked rfl
  have hdistances : (setting.backtest decide).entryDistances st.barStore tick =
    some ⟨setting.vars.stopDistanceInAtr, setting.vars.limitDistanceInAtr⟩ := rfl
  unfold Backtest.entryPhase
  rw [if_pos h, hdistances]
  dsimp only
  rw [hdecide]
  rfl

variable (setting decide) in
/-- The strategy moves on where it was asked; the bars do not change. -/
theorem entryPhase_strategy (st : RunState σ B) (tick : PriceData) :
    ((setting.backtest decide).entryPhase st tick).barStore = st.barStore ∧
    ((setting.backtest decide).entryPhase st tick).strategy =
      if (setting.backtest decide).entryGates st tick then
        (decide st.strategy tick st.barStore).2 else st.strategy := by
  cases hgates : (setting.backtest decide).entryGates st tick with
  | false => rw [entryPhase_skipped hgates]; exact ⟨rfl, rfl⟩
  | true =>
    cases hasked : (decide st.strategy tick st.barStore).1 with
    | none => rw [entryPhase_declined hgates hasked]; exact ⟨rfl, rfl⟩
    | some signal => rw [entryPhase_entered hgates hasked]; exact ⟨rfl, rfl⟩

variable (setting decide decide') in
/-- Opposite answers open opposite trades at reflected prices. -/
theorem RunState.Reflected.entryPhase (h : st.Reflected c st')
    (hsides : (decide' st'.strategy (tick.mirrored c) st'.barStore).1 =
      (decide st.strategy tick st.barStore).1.map Direction.opposite) :
    ((setting.backtest decide).entryPhase st tick).Reflected c
      ((setting.backtest decide').entryPhase st' (tick.mirrored c)) := by
  have heq : (setting.backtest decide').entryGates st' (tick.mirrored c) =
    (setting.backtest decide).entryGates st tick := h.entryGates_eq tick
  cases hgates : (setting.backtest decide).entryGates st tick with
  | false =>
    rw [entryPhase_skipped hgates, entryPhase_skipped (heq.trans hgates)]
    exact h
  | true =>
    cases hasked : (decide st.strategy tick st.barStore).1 with
    | none =>
      rw [hasked] at hsides
      rw [entryPhase_declined hgates hasked, entryPhase_declined (heq.trans hgates) hsides]
      exact ⟨h.tradeManager, h.recentOpens⟩
    | some signal =>
      rw [hasked] at hsides
      rw [entryPhase_entered hgates hasked, entryPhase_entered (heq.trans hgates) hsides]
      constructor
      · dsimp only
        rw [h.tradeManager]
        exact TradeManager.openTrade_mirrored c st.tradeManager tick setting.vars.tradingSize signal
          setting.vars.stopDistanceInAtr setting.vars.limitDistanceInAtr
      · dsimp only
        rw [h.recentOpens]
        rfl

variable (setting decide) in
theorem evictOpens_rest (st : RunState σ B) (tick : PriceData) :
    ((setting.backtest decide).evictOpens st tick).strategy = st.strategy ∧
      ((setting.backtest decide).evictOpens st tick).barStore = st.barStore := by
  unfold Backtest.evictOpens
  split <;> exact ⟨rfl, rfl⟩

/-- One tick after its loss check: the runs stay reflected and the strategies opposed. -/
theorem RunState.Reflected.tradePhase {ticks : List PriceData} (h : st.Reflected c st')
    (hsides : (decide' st'.strategy (tick.mirrored c) st'.barStore).1 =
      (decide st.strategy tick st.barStore).1.map Direction.opposite)
    (hasked : Opposed c setting.services.update decide decide' ticks
      (decide st.strategy tick st.barStore).2 st.barStore
      (decide' st'.strategy (tick.mirrored c) st'.barStore).2 st'.barStore)
    (hskipped : Opposed c setting.services.update decide decide' ticks
      st.strategy st.barStore st'.strategy st'.barStore) :
    let next := (setting.backtest decide).tradePhase st tick
    let next' := (setting.backtest decide').tradePhase st' (tick.mirrored c)
    next.Reflected c next' ∧ Opposed c setting.services.update decide decide' ticks
      next.strategy next.barStore next'.strategy next'.barStore := by
  intro next next'
  have hevicted : ((setting.backtest decide).evictOpens st tick).Reflected c
    ((setting.backtest decide').evictOpens st' (tick.mirrored c)) := h.evictOpens tick
  obtain ⟨hstrategy, hstore⟩ := evictOpens_rest setting decide st tick
  obtain ⟨hstrategy', hstore'⟩ := evictOpens_rest setting decide' st' (tick.mirrored c)
  constructor
  · apply hevicted.entryPhase setting decide decide'
    rw [hstrategy, hstore, hstrategy', hstore']
    exact hsides
  · obtain ⟨hbars, hnext⟩ := entryPhase_strategy setting decide
      ((setting.backtest decide).evictOpens st tick) tick
    obtain ⟨hbars', hnext'⟩ := entryPhase_strategy setting decide'
      ((setting.backtest decide').evictOpens st' (tick.mirrored c)) (tick.mirrored c)
    have hgates : (setting.backtest decide').entryGates
        ((setting.backtest decide').evictOpens st' (tick.mirrored c)) (tick.mirrored c) =
        (setting.backtest decide).entryGates ((setting.backtest decide).evictOpens st tick) tick :=
      hevicted.entryGates_eq tick
    change Opposed c setting.services.update decide decide' ticks
      ((setting.backtest decide).entryPhase _ tick).strategy
      ((setting.backtest decide).entryPhase _ tick).barStore
      ((setting.backtest decide').entryPhase _ (tick.mirrored c)).strategy
      ((setting.backtest decide').entryPhase _ (tick.mirrored c)).barStore
    rw [hnext, hnext', hbars, hbars', hgates, hstrategy, hstore, hstrategy', hstore']
    split
    · exact hasked
    · exact hskipped

variable (setting) in
/-- The loops stop at the same tick, with reflected managers. -/
theorem loop_mirrored (ticks : List PriceData) (h : st.Reflected c st')
    (hopposed : Opposed c setting.services.update decide decide' ticks
      st.strategy st.barStore st'.strategy st'.barStore) :
    ((setting.backtest decide).loop st ticks).1.Reflected c
        ((setting.backtest decide').loop st' (ticks.map (PriceData.mirrored c))).1 ∧
      ((setting.backtest decide').loop st' (ticks.map (PriceData.mirrored c))).2 =
        ((setting.backtest decide).loop st ticks).2.map (PriceData.mirrored c) := by
  induction ticks generalizing st st' with
  | nil => exact ⟨h, rfl⟩
  | cons tick ticks ih =>
    have hexit : ((setting.backtest decide).exitPhase st tick).Reflected c
      ((setting.backtest decide').exitPhase st' (tick.mirrored c)) := h.exitPhase tick
    have hbreach : (setting.backtest decide').lossLimitBreached
        ((setting.backtest decide').exitPhase st' (tick.mirrored c)).tradeManager =
        (setting.backtest decide).lossLimitBreached
          ((setting.backtest decide).exitPhase st tick).tradeManager := by
      rw [hexit.tradeManager]
      rfl
    rw [List.map_cons, Backtest.loop, Backtest.loop, hbreach]
    split
    · exact ⟨hexit, rfl⟩
    · obtain ⟨hsides, hasked, hskipped⟩ := hopposed
      obtain ⟨hnext, hlater⟩ := hexit.tradePhase hsides hasked hskipped
      exact ih hnext hlater

theorem RunState.Reflected.closeAll (h : st.Reflected c st') (tick : PriceData)
    (liquidated : Bool) : ((setting.backtest decide).closeAll st tick liquidated).Reflected c
      ((setting.backtest decide').closeAll st' (tick.mirrored c) liquidated) := by
  constructor
  · unfold Backtest.closeAll
    rw [h.tradeManager]
    exact TradeManager.closeAllTrades_mirrored c st.tradeManager tick liquidated setting.order
  · exact h.recentOpens

theorem RunState.Reflected.closeAtEnd (h : st.Reflected c st') (ticks : List PriceData)
    (liquidated : Bool) : ((setting.backtest decide).closeAtEnd st ticks liquidated).Reflected c
      ((setting.backtest decide').closeAtEnd st' (ticks.map (PriceData.mirrored c))
        liquidated) := by
  unfold Backtest.closeAtEnd
  rw [List.getLast?_map]
  cases ticks.getLast? with
  | none => exact h
  | some tick => exact h.closeAll tick liquidated

variable (setting decide decide') in
/-- The reflected run ends in the same status, with the reflected manager. -/
theorem runTicks_mirrored (tm : TradeManager) (state : σ) (state' : σ') (store store' : B)
    (ticks : List PriceData)
    (hopposed : Opposed c setting.services.update decide decide' ticks state store state' store') :
    let run := (setting.backtest decide).runTicks tm state store ticks
    let run' := (setting.backtest decide').runTicks (tm.mirrored c) state' store'
      (ticks.map (PriceData.mirrored c))
    run'.1 = run.1 ∧ run'.2.tradeManager = run.2.tradeManager.mirrored c := by
  intro run run'
  have hstart : (Backtest.start tm state store).Reflected c
    (Backtest.start (tm.mirrored c) state' store') := ⟨rfl, rfl⟩
  obtain ⟨hloop, hstopped⟩ := loop_mirrored setting ticks hstart hopposed
  simp only [run, run', Backtest.runTicks]
  generalize (setting.backtest decide).loop (Backtest.start tm state store) ticks = result
    at hloop hstopped ⊢
  generalize (setting.backtest decide').loop (Backtest.start (tm.mirrored c) state' store')
    (ticks.map (PriceData.mirrored c)) = result' at hloop hstopped ⊢
  obtain ⟨st, stopped⟩ := result
  obtain ⟨st', stopped'⟩ := result'
  cases hstopped
  cases stopped with
  | some tick => exact ⟨rfl, (hloop.closeAll tick true).tradeManager⟩
  | none =>
    have hbreach : (setting.backtest decide').lossLimitBreached st'.tradeManager =
        (setting.backtest decide).lossLimitBreached st.tradeManager := by
      rw [hloop.tradeManager]
      rfl
    dsimp only [Option.map_none]
    rw [hbreach]
    split
    · exact ⟨rfl, (hloop.closeAtEnd ticks true).tradeManager⟩
    · have hend : ((setting.backtest decide).closeAtEnd st ticks false).Reflected c
        ((setting.backtest decide').closeAtEnd st' (ticks.map (PriceData.mirrored c)) false) :=
        hloop.closeAtEnd ticks false
      constructor
      · dsimp only
        rw [hend.tradeManager, underperforms_mirrored]
      · exact hend.tradeManager

/-- A run on the reflected ticks whose strategy takes the opposite side at each of them has the
status, the profit, the drawdown, the open trades and, reflected, the closed trades of the run. -/
theorem Backtest.mirror_symmetry (c : ℤ) (setting : Setting B D) (slip : ℤ)
    (decide : σ → PriceData → B → Option Direction × σ)
    (decide' : σ' → PriceData → B → Option Direction × σ') (state : σ) (state' : σ')
    (store store' : B) (ticks : List PriceData)
    (hopposed : Opposed c setting.services.update decide decide' ticks state store state' store') :
    let run := (setting.backtest decide).runTicks (.fresh slip) state store ticks
    let run' := (setting.backtest decide').runTicks (.fresh slip) state' store'
      (ticks.map (PriceData.mirrored c))
    run'.1 = run.1 ∧
      run'.2.tradeManager.calculatePnl = run.2.tradeManager.calculatePnl ∧
      run'.2.tradeManager.maxDrawdownPoints = run.2.tradeManager.maxDrawdownPoints ∧
      run'.2.tradeManager.reviewAccount = run.2.tradeManager.reviewAccount ∧
      run'.2.tradeManager.closedTrades =
        run.2.tradeManager.closedTrades.map (Trade.closedMirrored c) := by
  intro run run'
  obtain ⟨hstatus, hmirrored⟩ := runTicks_mirrored setting decide decide' (.fresh slip)
    state state' store store' ticks hopposed
  rw [TradeManager.fresh_mirrored] at hstatus hmirrored
  have hmanager : run'.2.tradeManager = run.2.tradeManager.mirrored c := hmirrored
  rw [hmanager]
  exact ⟨hstatus, rfl, rfl, TradeManager.mirrored_reviewAccount c _, rfl⟩

end Run

/-- The walk in the order of the entries knows the symbols alone. -/
def KeyOrder.entries : KeyOrder := ⟨.entries, fun _ _ h => h⟩

/-- Always open sessions, one lot, a stop of one pip and no limit price. -/
def Setting.onePip : Setting Unit ℚ where
  services := ⟨fun _ _ => (), fun _ _ _ _ _ => none, fun _ _ => true⟩
  vars := ⟨1, 0, 1⟩
  limits := {}
  order := .entries

def always (direction : Direction) (_ : Unit) (_ : PriceData) (_ : Unit) :
    Option Direction × Unit := (some direction, ())

/-- Two ticks between which a long is stopped out. -/
def fallingTicks : List PriceData :=
  [⟨110012, 110010, 0, "EURUSD"⟩, ⟨110002, 110000, second, "EURUSD"⟩]

set_option maxRecDepth 10000 in
theorem Backtest.mirror_symmetry_stoppedOut :
    let run := (Setting.onePip.backtest (always .long)).runTicks (.fresh 3) () () fallingTicks
    let run' := (Setting.onePip.backtest (always .short)).runTicks (.fresh 3) () ()
      (fallingTicks.map (PriceData.mirrored 220000))
    (run'.1 = run.1 ∧
      run'.2.tradeManager.calculatePnl = run.2.tradeManager.calculatePnl ∧
      run'.2.tradeManager.maxDrawdownPoints = run.2.tradeManager.maxDrawdownPoints ∧
      run'.2.tradeManager.reviewAccount = run.2.tradeManager.reviewAccount ∧
      run'.2.tradeManager.closedTrades =
        run.2.tradeManager.closedTrades.map (Trade.closedMirrored 220000)) ∧
    run.2.tradeManager.closedTrades.map (fun trade => trade.pnl) = [-15, -5] :=
  ⟨Backtest.mirror_symmetry 220000 Setting.onePip 3 (always .long) (always .short) () () () ()
    fallingTicks (by simp [fallingTicks, Opposed, always, Direction.opposite]), rfl⟩

end BacktestEngine
