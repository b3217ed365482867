import BacktestEngine.Bars.BarStore
import BacktestEngine.Queue.Configuration
import BacktestEngine.Trading.TimeCapExit

/-! # The return into a gap

A gap is between the first and the third of three bars in the direction of the trend. The
trade is taken when the price comes back into a gap that no later bar has closed.
-/

namespace BacktestEngine

open RangeBar (toInt32)

structure FvgStrategy where
  fvgCfg : SeriesSpec
  htfCfg : SeriesSpec
  lookbackBars : ℤ
  minGapPips : ℤ
  htfSmaPeriod : ℤ
  minGapAgeBars : ℤ
  maxTradeDuration : ℤ

namespace FvgStrategy

def make (strategyConfig : TradingDefinitions.StrategyConfig) : Except String FvgStrategy :=
  match strategyConfig.ohlcVariables with
  | fvgCfg :: htfCfg :: _ =>
    if fvgCfg.ohlcMinutes.toInt < 1 ∨ htfCfg.ohlcMinutes.toInt < 1 then
      throw "FvgStrategy: OHLC_MINUTES must be >= 1"
    else
      match strategyConfig.strategyVariables.fvgStrategyVariables with
      | none => throw ("FvgStrategy: STRATEGY_VARIABLES.FVG_STRATEGY_VARIABLES is required " ++
          "(LOOKBACK_BARS, MIN_GAP_PIPS, HTF_SMA_PERIOD)")
      | some fvgVars =>
        let lookbackBars := fvgVars.lookbackBars.toInt
        let minGapPips := fvgVars.minGapPips.toInt
        let htfSmaPeriod := fvgVars.htfSmaPeriod.toInt
        let minGapAgeBars := fvgVars.minGapAgeBars.toInt
        if lookbackBars < 1 ∨ minGapPips < 1 ∨ htfSmaPeriod < 1 then
          throw "FvgStrategy: LOOKBACK_BARS, MIN_GAP_PIPS and HTF_SMA_PERIOD must be >= 1"
        else if minGapAgeBars < 0 then
          throw "FvgStrategy: MIN_GAP_AGE_BARS must be >= 0"
        else if fvgVars.maxTradeDurationMinutes.toInt < 0 then
          throw "FvgStrategy: MAX_TRADE_DURATION_MINUTES must be >= 0"
        else if fvgCfg.ohlcCount.toInt < toInt32 (lookbackBars + 3) then
          throw "FvgStrategy: OHLC_VARIABLES[0].OHLC_COUNT must be >= LOOKBACK_BARS + 3"
        else if htfCfg.ohlcCount.toInt < toInt32 (htfSmaPeriod + 2) then
          throw "FvgStrategy: OHLC_VARIABLES[1].OHLC_COUNT must be >= HTF_SMA_PERIOD + 2"
        else
          return ⟨⟨fvgCfg.ohlcMinutes.toInt, fvgCfg.ohlcCount.toInt⟩,
            ⟨htfCfg.ohlcMinutes.toInt, htfCfg.ohlcCount.toInt⟩, lookbackBars, minGapPips,
            htfSmaPeriod, minGapAgeBars, fvgVars.maxTradeDurationMinutes.toInt⟩
  | _ => throw "FvgStrategy: OHLC_VARIABLES needs two entries (FVG timeframe, HTF trend timeframe)"

variable (strategy : FvgStrategy)

/-- The last closes, and the newest of them as often. -/
def trend (htfBars : List OhlcObject) : ℤ × ℤ :=
  let htfStartIdx := htfBars.length - 2
  let htfCloseSum := ((List.range strategy.htfSmaPeriod.toNat).map fun back =>
    (barAt htfBars (htfStartIdx - back)).close).sum
  ((barAt htfBars htfStartIdx).close * strategy.htfSmaPeriod, htfCloseSum)

/-- The gap whose third bar this is, when its price is back in it. -/
def gapAt (isHtfUptrend isHtfDowntrend : Bool) (tick : PriceData) (fvgBars : List OhlcObject)
    (i : ℕ) : Option Direction :=
  let minGapPoints := toInt32 (strategy.minGapPips * SymbolScale.get tick.symbol)
  let lastClosedClose := (barAt fvgBars (fvgBars.length - 2)).close
  let c3 := barAt fvgBars i
  let c1 := barAt fvgBars (i - 2)
  let later := (List.range' (i + 1) (fvgBars.length - 2 - i)).map (barAt fvgBars)
  if isHtfUptrend ∧ c1.high < c3.low ∧ minGapPoints ≤ toInt32 (c3.low - c1.high) ∧
      ¬ (later.any fun bar => bar.low ≤ c1.high) ∧
      c3.low < lastClosedClose ∧ tick.ask ≤ c3.low ∧ c1.high ≤ tick.ask then some .long
  else if isHtfDowntrend ∧ c3.high < c1.low ∧ minGapPoints ≤ toInt32 (c1.low - c3.high) ∧
      ¬ (later.any fun bar => c1.low ≤ bar.high) ∧
      lastClosedClose < c3.high ∧ c3.high ≤ tick.bid ∧ tick.bid ≤ c1.low then some .short
  else none

/-- The oldest third bar that is looked at. -/
def maxAgeIdx (totalBars : ℕ) : ℕ :=
  max (max 2 (totalBars - strategy.lookbackBars.toNat))
    (totalBars - 2 - strategy.minGapAgeBars.toNat)

/-- The newest gap first. -/
def gapScan (isHtfUptrend isHtfDowntrend : Bool) (tick : PriceData) (fvgBars : List OhlcObject) :
    Option Direction :=
  let startSearchIdx := fvgBars.length - 2
  (List.range (startSearchIdx + 1 - strategy.maxAgeIdx fvgBars.length)).findSome? fun back =>
    strategy.gapAt isHtfUptrend isHtfDowntrend tick fvgBars (startSearchIdx - back)

def decide (tick : PriceData) (barStore : BarStore) : Option Direction :=
  match barStore.find tick.symbol strategy.fvgCfg.minutes,
      barStore.find tick.symbol strategy.htfCfg.minutes with
  | some fvgSeries, some htfSeries =>
    let fvgCount := strategy.fvgCfg.count.toNat
    let htfCount := strategy.htfCfg.count.toNat
    if fvgSeries.length < fvgCount ∨ htfSeries.length < htfCount then none
    else
      let (lastHtfCloseScaled, htfCloseSum) := strategy.trend (htfSeries.rtake htfCount)
      strategy.gapScan (htfCloseSum < lastHtfCloseScaled) (lastHtfCloseScaled < htfCloseSum) tick
        (fvgSeries.rtake fvgCount)
  | _, _ => none

def during (price : PriceData) (tradeManager : TradeManager) : TradeManager :=
  (StrategyExits.closeIfPastCap price tradeManager strategy.maxTradeDuration).1

end FvgStrategy

end BacktestEngine
