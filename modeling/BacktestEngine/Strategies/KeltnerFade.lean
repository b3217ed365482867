import BacktestEngine.Queue.Configuration
import BacktestEngine.Strategies.EntryConditions
import BacktestEngine.Trading.TimeCapExit

/-! # Fading a stretch

A band around the mean close is a multiple of the mean range wide. The trade is taken against
a price beyond it. The comparisons are made in 64-bit integers, scaled so that nothing is
divided.
-/

namespace BacktestEngine

open RangeBar (toInt32)

structure KeltnerFadeStrategy where
  signalCfg : SeriesSpec
  bandSmaPeriod : ℤ
  bandAtrMultTenths : ℤ
  maxTradeDuration : ℤ

namespace KeltnerFadeStrategy

def make (strategyConfig : TradingDefinitions.StrategyConfig) :
    Except String KeltnerFadeStrategy :=
  match strategyConfig.ohlcVariables with
  | [] => throw "KeltnerFadeStrategy: OHLC_VARIABLES needs one entry (the signal timeframe)"
  | signalCfg :: _ =>
    if signalCfg.ohlcMinutes.toInt < 1 then
      throw "KeltnerFadeStrategy: OHLC_MINUTES must be >= 1"
    else
      match strategyConfig.strategyVariables.keltnerFadeVariables with
      | none => throw ("KeltnerFadeStrategy: STRATEGY_VARIABLES.KELTNER_FADE_VARIABLES is " ++
          "required (BAND_SMA_PERIOD, BAND_ATR_MULT_TENTHS)")
      | some fadeVars =>
        let bandSmaPeriod := fadeVars.bandSmaPeriod.toInt
        let bandAtrMultTenths := fadeVars.bandAtrMultTenths.toInt
        if bandSmaPeriod < 1 ∨ bandAtrMultTenths < 1 then
          throw "KeltnerFadeStrategy: BAND_SMA_PERIOD and BAND_ATR_MULT_TENTHS must be >= 1"
        else if signalCfg.ohlcCount.toInt < toInt32 (bandSmaPeriod + 2) then
          throw "KeltnerFadeStrategy: OHLC_VARIABLES[0].OHLC_COUNT must be >= BAND_SMA_PERIOD + 2"
        else
          return ⟨⟨signalCfg.ohlcMinutes.toInt, signalCfg.ohlcCount.toInt⟩, bandSmaPeriod,
            bandAtrMultTenths, fadeVars.maxTradeDurationMinutes.toInt⟩

variable (strategy : KeltnerFadeStrategy)

/-- The sum of the last closes. -/
def closeSum (closedBars : List OhlcObject) : ℤ :=
  ((closedBars.rtake strategy.bandSmaPeriod.toNat).map OhlcObject.close).sum

/-- A price, times the period and ten. -/
def scaled (price : ℤ) : ℤ := toInt64 (price * strategy.bandSmaPeriod * 10)

/-- The verdict on the closed bars. -/
def fade (tick : PriceData) (closedBars : List OhlcObject) : Option Direction :=
  let atrPoints := Atr.calculate closedBars strategy.bandSmaPeriod.toNat
  if atrPoints ≤ 0 then none
  else
    let bandOffset := toInt64 (strategy.bandAtrMultTenths * atrPoints * strategy.bandSmaPeriod)
    let centreScaled := toInt64 (strategy.closeSum closedBars * 10)
    if strategy.scaled tick.ask < toInt64 (centreScaled - bandOffset) then some .long
    else if toInt64 (centreScaled + bandOffset) < strategy.scaled tick.bid then some .short
    else none

def decide (tick : PriceData) (barStore : BarStore) : Option Direction :=
  match barStore.find tick.symbol strategy.signalCfg.minutes with
  | none => none
  | some signalSeries =>
    let signalCount := strategy.signalCfg.count.toNat
    if signalSeries.length < signalCount then none
    else strategy.fade tick (signalSeries.rtake signalCount).dropLast

def during (price : PriceData) (tradeManager : TradeManager) : TradeManager :=
  (StrategyExits.closeIfPastCap price tradeManager strategy.maxTradeDuration).1

end KeltnerFadeStrategy

end BacktestEngine
