import BacktestEngine.Bars.BarStore
import BacktestEngine.Library.OrderStatistic
import BacktestEngine.Queue.Configuration
import BacktestEngine.Trading.TimeCapExit

/-! # Runs of fast range bars

The signal is a run of range bars that all close one way and all form faster than the median
bar before them. It is judged at the tick that completes a bar, and so is the run against an
open trade.
-/

namespace BacktestEngine

open RangeBar (toInt32)

/-- 1 for a bar that closed up, -1 for one that closed down, 0 for neither. -/
def barDirection (bar : OhlcObject) : ℤ :=
  (if bar.openPrice < bar.close then 1 else 0) - (if bar.close < bar.openPrice then 1 else 0)

structure RangeVelocityStrategy where
  spec : RangeBarSpec
  runBars : ℤ
  speedLookbackBars : ℤ
  speedRatioPercent : ℤ
  exitRunBars : ℤ
  maxTradeDuration : ℤ

namespace RangeVelocityStrategy

def make (strategyConfig : TradingDefinitions.StrategyConfig) :
    Except String RangeVelocityStrategy :=
  match strategyConfig.rangeVariables with
  | [] => throw ("RangeVelocityStrategy requires RANGE_VARIABLES[0] (the " ++
      "range-bar series it trades)")
  | rangeVars :: _ =>
    if rangeVars.rangeAtrTickWindow.toInt < 1 ∨ rangeVars.rangeAtrPercent.toInt < 1 ∨
        rangeVars.rangeCount.toInt < 1 then
      throw ("RangeVelocityStrategy: RANGE_VARIABLES[0] fields must all " ++
        "be >= 1 (a zero-sentinel entry would register no series)")
    else
      match strategyConfig.strategyVariables.rangeVelocityVariables with
      | none => throw ("RangeVelocityStrategy requires " ++
          "STRATEGY_VARIABLES.RANGE_VELOCITY_VARIABLES")
      | some rv =>
        if rv.runBars.toInt < 1 then
          throw "RangeVelocityStrategy: RUN_BARS must be >= 1"
        else if rv.speedLookbackBars.toInt < 1 then
          throw "RangeVelocityStrategy: SPEED_LOOKBACK_BARS must be >= 1"
        else if rv.speedRatioPercent.toInt < 1 then
          throw ("RangeVelocityStrategy: SPEED_RATIO_PERCENT must be >= 1 " ++
            "(0 could never admit a bar)")
        else if rv.exitRunBars.toInt < 1 then
          throw "RangeVelocityStrategy: EXIT_RUN_BARS must be >= 1"
        else if rv.maxTradeDurationMinutes.toInt < 0 then
          throw ("RangeVelocityStrategy: MAX_TRADE_DURATION_MINUTES must be " ++
            ">= 0 (0 disables the time cap)")
        else
          let required := max (toInt32 (rv.runBars.toInt + rv.speedLookbackBars.toInt))
            rv.exitRunBars.toInt
          if rangeVars.rangeCount.toInt < required then
            throw ("RangeVelocityStrategy: RANGE_COUNT (" ++ toString rangeVars.rangeCount.toInt ++
              ") must be >= max(RUN_BARS + SPEED_LOOKBACK_BARS, EXIT_RUN_BARS) (" ++
              toString required ++ ")")
          else
            return ⟨⟨rangeVars.rangeAtrTickWindow.toInt, rangeVars.rangeAtrPercent.toInt,
              rangeVars.rangeCount.toInt⟩, rv.runBars.toInt, rv.speedLookbackBars.toInt,
              rv.speedRatioPercent.toInt, rv.exitRunBars.toInt, rv.maxTradeDurationMinutes.toInt⟩

variable (strategy : RangeVelocityStrategy)

/-- The time from the open of a bar to that of the next one. -/
def openToOpen (bars : List OhlcObject) (i : ℕ) : ℤ :=
  (barAt bars (i + 1)).date - (barAt bars i).date

/-- The run and the speed test, when all the bars are complete. -/
def judge (tick : PriceData) (bars : List OhlcObject) : Option Direction :=
  let n := bars.length
  let k := strategy.runBars.toNat
  let m := strategy.speedLookbackBars.toNat
  if n < k + m then none
  else
    let dir := barDirection (barAt bars (n - 1))
    if dir = 0 then none
    else if (List.range' (n - k) (k - 1)).any fun i => barDirection (barAt bars i) ≠ dir then none
    else
      let durations := (List.range' (n - k - m) m).map (openToOpen bars)
      match OrderStatistic.nthElement durations (m / 2) with
      | none => none
      | some median =>
        -- a degenerate stream
        if median ≤ 0 then none
        else
          let allowance := toInt64 (median * strategy.speedRatioPercent)
          if (List.range' (n - k) (k - 1)).any fun i =>
              allowance < toInt64 (openToOpen bars i * 100) then none
          else
            let newestDuration := tick.timestamp - (barAt bars (n - 1)).date
            if allowance < toInt64 (newestDuration * 100) then none
            else some (if 0 < dir then .long else .short)

def decide (tick : PriceData) (barStore : BarStore) : Option Direction :=
  match barStore.findRange tick.symbol strategy.spec with
  | none => none
  | some series =>
    match series.getLast? with
    | none => none
    | some back => if !back.complete then none else strategy.judge tick series

/-- The last bars all closed against the trade. -/
def opposed (direction : Direction) (series : List OhlcObject) : Bool :=
  let n := series.length
  let e := strategy.exitRunBars.toNat
  let against := match direction with
    | .long => -1
    | .short => 1
  if n < e then false
  else (List.range' (n - e) e).all fun i => barDirection (barAt series i) = against

def during (price : PriceData) (barStore : BarStore) (tradeManager : TradeManager) :
    TradeManager :=
  let (tradeManager, closed) :=
    StrategyExits.closeIfPastCap price tradeManager strategy.maxTradeDuration
  if closed then tradeManager
  else
    match tradeManager.findActiveTrade price.symbol with
    | none => tradeManager
    | some trade =>
      let exitPrice := price.closeSide trade.direction
      match barStore.findRange price.symbol strategy.spec with
      | none => tradeManager
      | some series =>
        match series.getLast? with
        | none => tradeManager
        | some back =>
          if !back.complete then tradeManager
          else if strategy.opposed trade.direction series then
            (tradeManager.closeTrade price.symbol exitPrice price false).1
          else tradeManager

end RangeVelocityStrategy

end BacktestEngine
