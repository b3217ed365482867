import BacktestEngine.Library.Window
import BacktestEngine.Models.Bars
import BacktestEngine.Models.Decimal
import BacktestEngine.Trading.TradeManager

/-! # The backtest loop

One tick revalues, reviews the exits, feeds the bars, checks the loss limit,
admits at most one entry and hands the manager to the strategy. A run ends at the
loss limit or after its last tick, and closes what is still open.
-/

namespace BacktestEngine

def defaultStartingBalance : ℤ := 10000

structure RiskLimits (D : Type) [Decimal D] where
  startingBalance : D := Decimal.ofInt defaultStartingBalance
  maxLossPercent : D := Decimal.ofInt 0
  maxOpenTrades : ℤ := 0
  maxTradesPerMinute : ℤ := 0
  peakHoursOnly : Bool := false
  pointsPerPip : ℤ := 1
  minPerformanceScore : D := Decimal.ofInt 0
  minDecisiveTrades : ℤ := 0
  lastMonths : ℤ := 0

structure TradingVariables where
  stopDistanceInAtr : ℤ
  limitDistanceInAtr : ℤ
  tradingSize : ℤ

structure Distances where
  stopPips : ℤ
  limitPips : ℤ

/-- A strategy over its own state and the shared bars: an entry signal, and the calls it
makes on the manager it is handed. -/
structure Strategy (σ B : Type) where
  decide : σ → PriceData → B → Option Direction × σ
  during : σ → PriceData → B → TradeManager → List TradeManager.Call × σ

/-- The bar pipeline, the entry conditions and the session calendar. -/
structure Services (B : Type) where
  update : B → PriceData → B
  check : B → SeriesSpec → PriceData → ℤ → ℤ → Option Distances
  tradePermitted : String → ℤ → Bool

inductive RunStatus
  | completed
  | lossLimitBreached
  | underperformed
  deriving DecidableEq, Repr

/-- The close-side price at which the tick stops a trade out or takes its profit. -/
def checkExit (trade : Trade) (tick : PriceData) : Option ℤ :=
  if trade.scalingFactor = 0 then none
  else
    match trade.direction with
    | .long =>
      if trade.stopDistancePips ≠ 0 ∧ tick.bid ≤ trade.stopPrice then some tick.bid
      else if trade.limitDistancePips ≠ 0 ∧ tick.bid ≥ trade.limitPrice then some tick.bid
      else none
    | .short =>
      if trade.stopDistancePips ≠ 0 ∧ tick.ask ≥ trade.stopPrice then some tick.ask
      else if trade.limitDistancePips ≠ 0 ∧ tick.ask ≤ trade.limitPrice then some tick.ask
      else none

def reviewStopAndLimit (tm : TradeManager) (tick : PriceData) : TradeManager :=
  match tm.findActiveTrade tick.symbol with
  | none => tm
  | some trade =>
    match checkExit trade tick with
    | none => tm
    | some exitPrice => (tm.closeTrade tick.symbol exitPrice tick false).1

namespace ResultsSummary

/-- Closed trades whose symbol has a scale; the others cannot be expressed in pips. -/
def measured (tm : TradeManager) : List Trade :=
  tm.closedTrades.filter fun trade => trade.scalingFactor ≠ 0

def winners (tm : TradeManager) : ℕ := (measured tm).countP fun trade => trade.pnl > 0

def losers (tm : TradeManager) : ℕ := (measured tm).countP fun trade => trade.pnl < 0

end ResultsSummary

/-- Everything a run is given apart from its ticks and its initial state. -/
structure Backtest (σ B D : Type) [Decimal D] where
  strategy : Strategy σ B
  services : Services B
  performanceScore : TradeManager → D → ℤ → ℤ → D
  vars : TradingVariables
  limits : RiskLimits D
  gateSeries : Option SeriesSpec
  order : WalkOrder

structure RunState (σ B : Type) where
  tradeManager : TradeManager
  strategy : σ
  barStore : B
  recentOpens : List ℤ

/-- One minute of the clock, in microseconds. -/
def minute : ℤ := 60000000

namespace Backtest

variable {σ B D : Type} [Decimal D] (b : Backtest σ B D)

def lossLimitActive : Bool := Decimal.lt (Decimal.ofInt 0) b.limits.maxLossPercent

/-- The lowest equity a run may reach, in points. -/
def pnlFloorPoints : ℤ :=
  let sizeScale := max 1 b.vars.tradingSize
  let percentOf := Decimal.mul b.limits.startingBalance b.limits.maxLossPercent
  let budget := Decimal.mul (Decimal.div percentOf (Decimal.ofInt 100))
    (Decimal.ofInt b.limits.pointsPerPip)
  (-Decimal.toInt64 budget) * sizeScale

def lossLimitBreached (tm : TradeManager) : Bool :=
  b.lossLimitActive && decide (tm.calculatePnl + tm.unrealizedPnl ≤ b.pnlFloorPoints)

def tradeRateCapActive : Bool := decide (b.limits.maxTradesPerMinute > 0)

def belowOpenTradeCap (tm : TradeManager) : Bool :=
  decide (b.limits.maxOpenTrades ≤ 0) || decide ((tm.reviewAccount : ℤ) < b.limits.maxOpenTrades)

def belowTradeRateCap (st : RunState σ B) : Bool :=
  !b.tradeRateCapActive || decide ((st.recentOpens.length : ℤ) < b.limits.maxTradesPerMinute)

def inSession (tick : PriceData) : Bool :=
  !b.limits.peakHoursOnly || b.services.tradePermitted tick.symbol tick.timestamp

/-- The exit side of a tick: revalue, review stop and limit, feed the bars. -/
def exitPhase (st : RunState σ B) (tick : PriceData) : RunState σ B :=
  { st with
    tradeManager := reviewStopAndLimit (st.tradeManager.markToMarket tick) tick
    barStore := b.services.update st.barStore tick }

/-- Entries a minute old or older leave the rate window. -/
def evictOpens (st : RunState σ B) (tick : PriceData) : RunState σ B :=
  if b.tradeRateCapActive then
    { st with recentOpens := Window.evict minute tick.timestamp st.recentOpens }
  else st

def entryGates (st : RunState σ B) (tick : PriceData) : Bool :=
  b.inSession tick && b.belowOpenTradeCap st.tradeManager && b.belowTradeRateCap st &&
    !st.tradeManager.hasActiveTradeForSymbol tick.symbol

/-- The pip distances of an entry, or none when its conditions are not met. -/
def entryDistances (store : B) (tick : PriceData) : Option Distances :=
  match b.gateSeries with
  | none => some ⟨b.vars.stopDistanceInAtr, b.vars.limitDistanceInAtr⟩
  | some series => b.services.check store series tick b.vars.stopDistanceInAtr
      b.vars.limitDistanceInAtr

/-- The entry side of a tick, after the window has moved. -/
def entryPhase (st : RunState σ B) (tick : PriceData) : RunState σ B :=
  if b.entryGates st tick then
    match b.entryDistances st.barStore tick with
    | none => st
    | some distances =>
      match b.strategy.decide st.strategy tick st.barStore with
      | (none, strategy) => { st with strategy := strategy }
      | (some signal, strategy) =>
        { st with
          strategy := strategy
          tradeManager := (st.tradeManager.openTrade tick b.vars.tradingSize signal
            distances.stopPips distances.limitPips).1
          recentOpens := if b.tradeRateCapActive then st.recentOpens ++ [tick.timestamp]
            else st.recentOpens }
  else st

/-- The strategy manages its positions. -/
def duringPhase (st : RunState σ B) (tick : PriceData) : RunState σ B :=
  let (calls, strategy) := b.strategy.during st.strategy tick st.barStore st.tradeManager
  { st with strategy := strategy, tradeManager := st.tradeManager.calls calls }

/-- What follows the loss check of a tick. -/
def tradePhase (st : RunState σ B) (tick : PriceData) : RunState σ B :=
  b.duringPhase (b.entryPhase (b.evictOpens st tick) tick) tick

/-- A tick that the loss check lets pass. -/
def step (st : RunState σ B) (tick : PriceData) : RunState σ B :=
  b.tradePhase (b.exitPhase st tick) tick

/-- The loop over the ticks, with the tick at which the loss limit stopped it. -/
def loop : RunState σ B → List PriceData → RunState σ B × Option PriceData
  | st, [] => (st, none)
  | st, tick :: ticks =>
    let st := b.exitPhase st tick
    if b.lossLimitBreached st.tradeManager then (st, some tick)
    else loop (b.tradePhase st tick) ticks

def closeAll (st : RunState σ B) (tick : PriceData) (liquidated : Bool) : RunState σ B :=
  { st with tradeManager := st.tradeManager.closeAllTrades tick liquidated b.order }

/-- Close what is open when the ticks are used up. -/
def closeAtEnd (st : RunState σ B) (ticks : List PriceData) (liquidated : Bool) : RunState σ B :=
  match ticks.getLast? with
  | none => st
  | some tick => b.closeAll st tick liquidated

/-- The performance gate over the closed trades. -/
def underperforms (tm : TradeManager) : Bool :=
  let decisiveTrades : ℤ := ResultsSummary.winners tm + ResultsSummary.losers tm
  let score := b.performanceScore tm b.limits.startingBalance b.limits.lastMonths
    b.limits.pointsPerPip
  (decide (b.limits.minDecisiveTrades > 0) &&
    decide (decisiveTrades ≤ b.limits.minDecisiveTrades)) ||
  (Decimal.lt (Decimal.ofInt 0) b.limits.minPerformanceScore &&
    !Decimal.lt b.limits.minPerformanceScore score)

def start (tm : TradeManager) (strategy : σ) (store : B) : RunState σ B := ⟨tm, strategy, store, []⟩

def runTicks (tm : TradeManager) (strategy : σ) (store : B) (ticks : List PriceData) :
    RunStatus × RunState σ B :=
  match b.loop (start tm strategy store) ticks with
  | (st, some tick) => (.lossLimitBreached, b.closeAll st tick true)
  | (st, none) =>
    if b.lossLimitBreached st.tradeManager then (.lossLimitBreached, b.closeAtEnd st ticks true)
    else
      let st := b.closeAtEnd st ticks false
      (if b.underperforms st.tradeManager then .underperformed else .completed, st)

/-- The state after ticks that the loss check lets pass. -/
def after (st : RunState σ B) (ticks : List PriceData) : RunState σ B := ticks.foldl b.step st

variable {b} in
/-- What the entry side of a tick can do: nothing to the manager, or one admitted open. -/
theorem entryPhase_cases (st : RunState σ B) (tick : PriceData) :
    ((b.entryPhase st tick).tradeManager = st.tradeManager ∧
      (b.entryPhase st tick).recentOpens = st.recentOpens) ∨
    (b.entryGates st tick = true ∧ ∃ size direction stop limit,
      (b.entryPhase st tick).tradeManager =
        (st.tradeManager.openTrade tick size direction stop limit).1 ∧
      (b.entryPhase st tick).recentOpens = if b.tradeRateCapActive then
        st.recentOpens ++ [tick.timestamp] else st.recentOpens) := by
  unfold entryPhase
  split
  · split
    · exact .inl ⟨rfl, rfl⟩
    · split
      · exact .inl ⟨rfl, rfl⟩
      · exact .inr ⟨‹_›, _, _, _, _, rfl, rfl⟩
  · exact .inl ⟨rfl, rfl⟩

/-- One lot in one direction whenever an entry is admitted, with literal pip distances. -/
def plain (direction : Direction) (limits : RiskLimits D) (stop : ℤ := 0) (limit : ℤ := 0) :
    Backtest Unit Unit D where
  strategy := ⟨fun _ _ _ => (some direction, ()), fun _ _ _ _ => ([], ())⟩
  services := ⟨fun _ _ => (), fun _ _ _ _ _ => none, fun _ _ => true⟩
  performanceScore _ balance _ _ := balance
  vars := ⟨stop, limit, 1⟩
  limits := limits
  gateSeries := none
  order := .entries

end Backtest

end BacktestEngine
