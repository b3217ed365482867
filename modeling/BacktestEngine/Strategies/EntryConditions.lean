import BacktestEngine.Bars.BarStore
import BacktestEngine.Models.SymbolScale
import BacktestEngine.Trading.RunLoop

/-! # Entry conditions

The average true range of the gate's bars decides whether an entry is allowed and how far
its stop and limit are.
-/

namespace BacktestEngine

structure OHLCVariables where
  ohlcCount : ℤ := 0
  ohlcMinutes : ℤ := 0

structure RangeBarVariables where
  rangeAtrTickWindow : ℤ := 0
  rangeAtrPercent : ℤ := 0
  rangeCount : ℤ := 0

/-- The variables that only the strategy itself reads are left open. -/
structure StrategyConfig (V : Type) where
  uuid : String
  strategy : String
  tradingVariables : TradingVariables
  ohlcVariables : List OHLCVariables
  rangeVariables : List RangeBarVariables := []
  strategyVariables : V

namespace Atr

/-- How far a bar reaches, seen from the close before it. -/
def trueRange (prevClose : ℤ) (candle : OhlcObject) : ℤ :=
  max (candle.high - candle.low)
    (max (candle.high - prevClose).natAbs (candle.low - prevClose).natAbs)

/-- The true ranges of the bars after the first, each against the one before it. -/
def trueRanges : List OhlcObject → List ℤ
  | [] => []
  | [_] => []
  | previous :: candle :: candles =>
    trueRange previous.close candle :: trueRanges (candle :: candles)

/-- The mean of the last true ranges, 0 while there are too few bars; the period is positive. -/
def calculate (candles : List OhlcObject) (period : ℕ) : ℤ :=
  if candles.length < period + 1 then 0
  else
    let sum := (trueRanges (candles.rtake (period + 1))).sum
    RangeBar.toInt32 ((sum + period / 2).tdiv period)

end Atr

namespace Conditions

def kAtrPeriod : ℕ := 10

def kFallbackBarMinutes : ℤ := 15

def kMaxSpreadNum : ℤ := 3

def kMaxSpreadDen : ℤ := 10

def kMinStopPips : ℤ := 10

def kMaxStopPips : ℤ := 80

def kMinLimitPips : ℤ := 3

def kMaxLimitPips : ℤ := 300

/-- The series the gate reads: the first timeframe, at least deep enough for the range. -/
def gateSeriesFor {V : Type} (config : StrategyConfig V) : SeriesSpec :=
  match config.ohlcVariables with
  | primary :: _ =>
    if primary.ohlcMinutes ≥ 1 then ⟨primary.ohlcMinutes, max primary.ohlcCount (kAtrPeriod + 1)⟩
    else ⟨kFallbackBarMinutes, kAtrPeriod + 1⟩
  | [] => ⟨kFallbackBarMinutes, kAtrPeriod + 1⟩

def clamp (value low high : ℤ) : ℤ :=
  if value < low then low else if high < value then high else value

/-- The distances of an entry, or none when it is to be skipped. -/
def check (store : BarStore) (gateSeries : SeriesSpec) (tick : PriceData)
    (stopMultiplier limitMultiplier : ℤ) : Option Distances :=
  let pointsPerPip := SymbolScale.get tick.symbol
  if pointsPerPip = SymbolScale.kUnknown then none
  else
    match store.find tick.symbol gateSeries.minutes with
    | none => none
    | some candles =>
      let atrPoints := Atr.calculate candles kAtrPeriod
      if atrPoints ≤ 0 then none
      else if (tick.ask - tick.bid) * kMaxSpreadDen > atrPoints * kMaxSpreadNum then none
      else
        let stopPointsRaw := atrPoints * stopMultiplier
        let limitPointsRaw := atrPoints * limitMultiplier
        if stopPointsRaw < kMinStopPips * pointsPerPip ∨
            limitPointsRaw < kMinLimitPips * pointsPerPip then none
        else
          some
            { stopPips :=
                clamp (RangeBar.toInt32 (stopPointsRaw.tdiv pointsPerPip)) kMinStopPips kMaxStopPips
              limitPips :=
                clamp (RangeBar.toInt32 (limitPointsRaw.tdiv pointsPerPip)) kMinLimitPips
                  kMaxLimitPips }

/-- The conditions see nothing of a store but the gate's bars of the tick's own symbol. -/
theorem check_congr {store store' : BarStore} {gateSeries : SeriesSpec} {tick : PriceData}
    (h : store.find tick.symbol gateSeries.minutes = store'.find tick.symbol gateSeries.minutes)
    (stopMultiplier limitMultiplier : ℤ) :
    check store gateSeries tick stopMultiplier limitMultiplier =
      check store' gateSeries tick stopMultiplier limitMultiplier := by
  simp only [check, h]

/-- An entry that is let through has its distances within their bounds. -/
theorem check_bounds {store : BarStore} {gateSeries : SeriesSpec} {tick : PriceData}
    {stopMultiplier limitMultiplier : ℤ} {distances : Distances}
    (h : check store gateSeries tick stopMultiplier limitMultiplier = some distances) :
    SymbolScale.get tick.symbol ≠ SymbolScale.kUnknown ∧
      kMinStopPips ≤ distances.stopPips ∧ distances.stopPips ≤ kMaxStopPips ∧
      kMinLimitPips ≤ distances.limitPips ∧ distances.limitPips ≤ kMaxLimitPips := by
  have hclamp : ∀ {value low high : ℤ}, low ≤ high →
      low ≤ clamp value low high ∧ clamp value low high ≤ high := by
    intro value low high hle
    unfold clamp
    split_ifs <;> omega
  unfold check at h
  dsimp only at h
  split_ifs at h with hunknown
  split at h
  · cases h
  · split_ifs at h
    cases h
    exact ⟨hunknown, (hclamp (by decide)).1, (hclamp (by decide)).2, (hclamp (by decide)).1,
      (hclamp (by decide)).2⟩

end Conditions

end BacktestEngine
