import BacktestEngine.Bars.BarStore
import BacktestEngine.Queue.Configuration
import BacktestEngine.Strategies.Ema
import BacktestEngine.Trading.TimeCapExit

/-! # Breakouts with the trend

Two strategies trade a break in the direction of a trend, which is the last close against the
moving average that ends with it. One breaks the range of a window, the other that of a
single contracted bar. Prices are 32-bit numbers.
-/

namespace BacktestEngine

open RangeBar (toInt32)

namespace TrendFilter

/-- The last close and the last average of a window; the period is half the window. -/
def read (closes : List ℤ) : Except String (ℤ × ℤ) := do
  let emaPeriod := closes.length / 2
  let ema ← Ema.calculate closes emaPeriod
  return (closes.getLastD 0, ema.getLastD 0)

end TrendFilter

/-! ## The break of a range -/

structure OhlcBreakoutStrategy where
  breakoutCfg : SeriesSpec
  trendCfg : SeriesSpec
  bufferPips : ℤ
  maxTradeDuration : ℤ

namespace OhlcBreakoutStrategy

def make (strategyConfig : TradingDefinitions.StrategyConfig) :
    Except String OhlcBreakoutStrategy :=
  match strategyConfig.ohlcVariables with
  | breakoutCfg :: trendCfg :: _ =>
    if breakoutCfg.ohlcCount.toInt < 2 ∨ breakoutCfg.ohlcMinutes.toInt < 1 ∨
        trendCfg.ohlcCount.toInt < 2 ∨ trendCfg.ohlcMinutes.toInt < 1 then
      throw "OhlcBreakoutStrategy: OHLC_COUNT must be >= 2 and OHLC_MINUTES >= 1"
    else
      match strategyConfig.strategyVariables.ohlcBreakoutVariables with
      | none => throw ("OhlcBreakoutStrategy: STRATEGY_VARIABLES.OHLC_BREAKOUT_VARIABLES " ++
          "is required (BUFFER_PIPS)")
      | some breakoutVars =>
        return ⟨⟨breakoutCfg.ohlcMinutes.toInt, breakoutCfg.ohlcCount.toInt⟩,
          ⟨trendCfg.ohlcMinutes.toInt, trendCfg.ohlcCount.toInt⟩, breakoutVars.bufferPips.toInt,
          breakoutVars.maxTradeDurationMinutes.toInt⟩
  | _ => throw ("OhlcBreakoutStrategy: OHLC_VARIABLES needs two entries " ++
      "(breakout timeframe, trend timeframe)")

variable (strategy : OhlcBreakoutStrategy)

def highestHigh (bars : List OhlcObject) : ℤ :=
  bars.foldl (fun high bar => max high bar.high) (-2 ^ 31)

def lowestLow (bars : List OhlcObject) : ℤ :=
  bars.foldl (fun low bar => min low bar.low) (2 ^ 31 - 1)

def decide (tick : PriceData) (barStore : BarStore) : Except String (Option Direction) :=
  match barStore.find tick.symbol strategy.breakoutCfg.minutes,
      barStore.find tick.symbol strategy.trendCfg.minutes with
  | some breakoutSeries, some trendSeries =>
    let breakoutCount := strategy.breakoutCfg.count.toNat
    let trendCount := strategy.trendCfg.count.toNat
    if breakoutSeries.length < breakoutCount ∨ trendSeries.length < trendCount then return none
    else do
      let breakoutBars := breakoutSeries.rtake breakoutCount
      let trendBars := trendSeries.rtake trendCount
      let bufferPoints := toInt32 (strategy.bufferPips * SymbolScale.get tick.symbol)
      let (currentClose, currentEma) ← TrendFilter.read (trendBars.map OhlcObject.close)
      if toInt32 (highestHigh breakoutBars.dropLast + bufferPoints) < tick.bid ∧
          currentEma < currentClose then
        return some .long
      else if tick.ask < toInt32 (lowestLow breakoutBars.dropLast - bufferPoints) ∧
          currentClose < currentEma then
        return some .short
      else return none
  | _, _ => return none

def during (price : PriceData) (tradeManager : TradeManager) : TradeManager :=
  (StrategyExits.closeIfPastCap price tradeManager strategy.maxTradeDuration).1

end OhlcBreakoutStrategy

/-! ## The break of a contracted bar -/

structure SqueezeBreakoutStrategy where
  signalCfg : SeriesSpec
  trendCfg : SeriesSpec
  nrLookback : ℤ
  validBars : ℤ
  bufferPips : ℤ
  maxTradeDuration : ℤ

namespace SqueezeBreakoutStrategy

def make (strategyConfig : TradingDefinitions.StrategyConfig) :
    Except String SqueezeBreakoutStrategy :=
  match strategyConfig.ohlcVariables with
  | signalCfg :: trendCfg :: _ =>
    if signalCfg.ohlcMinutes.toInt < 1 ∨ trendCfg.ohlcMinutes.toInt < 1 then
      throw "SqueezeBreakoutStrategy: OHLC_MINUTES must be >= 1"
    else if trendCfg.ohlcCount.toInt < 2 then
      throw "SqueezeBreakoutStrategy: OHLC_VARIABLES[1].OHLC_COUNT must be >= 2"
    else
      match strategyConfig.strategyVariables.squeezeBreakoutVariables with
      | none => throw ("SqueezeBreakoutStrategy: STRATEGY_VARIABLES.SQUEEZE_BREAKOUT_VARIABLES " ++
          "is required (NR_LOOKBACK, VALID_BARS)")
      | some squeezeVars =>
        let nrLookback := squeezeVars.nrLookback.toInt
        let validBars := squeezeVars.validBars.toInt
        if nrLookback < 0 ∨ nrLookback = 1 then
          throw "SqueezeBreakoutStrategy: NR_LOOKBACK must be 0 (inside bar) or >= 2"
        else if validBars < 1 then
          throw "SqueezeBreakoutStrategy: VALID_BARS must be >= 1"
        else if squeezeVars.bufferPips.toInt < 0 then
          throw "SqueezeBreakoutStrategy: BUFFER_PIPS must be >= 0"
        else if squeezeVars.maxTradeDurationMinutes.toInt < 0 then
          throw "SqueezeBreakoutStrategy: MAX_TRADE_DURATION_MINUTES must be >= 0"
        else
          let patternLookback := max 1 (nrLookback - 1)
          if signalCfg.ohlcCount.toInt < toInt32 (validBars + patternLookback + 1) then
            throw ("SqueezeBreakoutStrategy: OHLC_VARIABLES[0].OHLC_COUNT must be >= " ++
              "VALID_BARS + max(1, NR_LOOKBACK - 1) + 1")
          else
            return ⟨⟨signalCfg.ohlcMinutes.toInt, signalCfg.ohlcCount.toInt⟩,
              ⟨trendCfg.ohlcMinutes.toInt, trendCfg.ohlcCount.toInt⟩, nrLookback, validBars,
              squeezeVars.bufferPips.toInt, squeezeVars.maxTradeDurationMinutes.toInt⟩
  | _ => throw ("SqueezeBreakoutStrategy: OHLC_VARIABLES needs two entries " ++
      "(signal timeframe, trend timeframe)")

variable (strategy : SqueezeBreakoutStrategy)

/-- An inside bar, or the narrowest of the last bars. -/
def isPatternAt (closedBars : List OhlcObject) (index : ℕ) : Bool :=
  if strategy.nrLookback = 0 then
    let bar := barAt closedBars index
    let mother := barAt closedBars (index - 1)
    bar.high ≤ mother.high && mother.low ≤ bar.low
  else
    let range := toInt32 ((barAt closedBars index).high - (barAt closedBars index).low)
    (List.range' 1 (strategy.nrLookback.toNat - 1)).all fun back =>
      let other := barAt closedBars (index - back)
      range < toInt32 (other.high - other.low)

/-- The break of one bar, if it is a pattern. -/
def signalAt (uptrend downtrend : Bool) (tick : PriceData) (closedBars : List OhlcObject)
    (index : ℕ) : Option Direction :=
  let bufferPoints := toInt32 (strategy.bufferPips * SymbolScale.get tick.symbol)
  if !strategy.isPatternAt closedBars index then none
  else
    let pattern := barAt closedBars index
    if uptrend ∧ toInt32 (pattern.high + bufferPoints) < tick.bid then some .long
    else if downtrend ∧ tick.ask < toInt32 (pattern.low - bufferPoints) then some .short
    else none

/-- The newest bar that is broken. -/
def patternScan (uptrend downtrend : Bool) (tick : PriceData) (closedBars : List OhlcObject) :
    Option Direction :=
  (List.range strategy.validBars.toNat).findSome? fun back =>
    strategy.signalAt uptrend downtrend tick closedBars (closedBars.length - 1 - back)

def decide (tick : PriceData) (barStore : BarStore) : Except String (Option Direction) :=
  match barStore.find tick.symbol strategy.signalCfg.minutes,
      barStore.find tick.symbol strategy.trendCfg.minutes with
  | some signalSeries, some trendSeries =>
    let signalCount := strategy.signalCfg.count.toNat
    let trendCount := strategy.trendCfg.count.toNat
    if signalSeries.length < signalCount ∨ trendSeries.length < trendCount then return none
    else do
      let signalBars := signalSeries.rtake signalCount
      let trendBars := trendSeries.rtake trendCount
      let (currentClose, currentEma) ← TrendFilter.read (trendBars.map OhlcObject.close)
      let uptrend : Bool := currentEma < currentClose
      let downtrend : Bool := currentClose < currentEma
      if !uptrend && !downtrend then return none
      else return strategy.patternScan uptrend downtrend tick signalBars.dropLast
  | _, _ => return none

def during (price : PriceData) (tradeManager : TradeManager) : TradeManager :=
  (StrategyExits.closeIfPastCap price tradeManager strategy.maxTradeDuration).1

end SqueezeBreakoutStrategy

end BacktestEngine
