import Mathlib.Data.List.MinMax
import BacktestEngine.Queue.Configuration
import BacktestEngine.Strategies.EntryConditions

/-! # Fading a swept level

An old swing high or low is a level. The first bar to trade beyond it decides it: when that
bar closes back inside, the level was swept and rejected, and the trade is the way back.
-/

namespace BacktestEngine

open RangeBar (toInt32)

/-- The two ends of a bar. What is said of lows mirrors what is said of highs. -/
inductive Extreme where
  | high
  | low

namespace Extreme

def opposite : Extreme → Extreme
  | high => low
  | low => high

def price : Extreme → OhlcObject → ℤ
  | high, bar => bar.high
  | low, bar => bar.low

/-- Higher than a high level, or lower than a low one. -/
def Beyond : Extreme → ℤ → ℤ → Prop
  | high, price, level => level < price
  | low, price, level => price < level

instance : (extreme : Extreme) → (price level : ℤ) → Decidable (extreme.Beyond price level)
  | high, price, level => inferInstanceAs (Decidable (level < price))
  | low, price, level => inferInstanceAs (Decidable (price < level))

/-- How far beyond the level. -/
def depth : Extreme → (price level : ℤ) → ℤ
  | high, price, level => price - level
  | low, price, level => level - price

/-- The body of a bar, counted away from the level. -/
def body : Extreme → OhlcObject → ℤ
  | high, bar => bar.openPrice - bar.close
  | low, bar => bar.close - bar.openPrice

/-- The trade after a sweep. -/
def direction : Extreme → Direction
  | high => .short
  | low => .long

/-- The side of the quote that the trade is filled at. -/
def entryPrice : Extreme → PriceData → ℤ
  | high, tick => tick.bid
  | low, tick => tick.ask

end Extreme

/-! ## Swing pivots -/

namespace SwingPivots

/-- The end of the bar is strictly beyond those of the bars on each side. -/
def isSwingAt (extreme : Extreme) (message : String) (bars : List OhlcObject) (index : ℕ)
    (pivotBars : ℤ) : Except String Bool :=
  if pivotBars < 1 then throw message
  else
    let level := extreme.price (barAt bars index)
    return (List.range' 1 pivotBars.toNat).all fun wing =>
      extreme.Beyond level (extreme.price (barAt bars (index - wing))) &&
        extreme.Beyond level (extreme.price (barAt bars (index + wing)))

def isSwingHighAt : List OhlcObject → ℕ → ℤ → Except String Bool :=
  isSwingAt .high "swing_pivots::isSwingHighAt: pivotBars must be >= 1"

def isSwingLowAt : List OhlcObject → ℕ → ℤ → Except String Bool :=
  isSwingAt .low "swing_pivots::isSwingLowAt: pivotBars must be >= 1"

def isPivotAt : Extreme → List OhlcObject → ℕ → ℤ → Except String Bool
  | .high => isSwingHighAt
  | .low => isSwingLowAt

end SwingPivots

structure LiquiditySweepReversalStrategy where
  signalCfg : SeriesSpec
  pivotBars : ℤ
  lookbackBars : ℤ
  minSweepPips : ℤ
  displacementAtrTenths : ℤ
  validBars : ℤ

namespace LiquiditySweepReversalStrategy

/-- The period of the yardstick for a displacement. -/
def kAtrPeriod : ℕ := 10

def make (strategyConfig : TradingDefinitions.StrategyConfig) :
    Except String LiquiditySweepReversalStrategy :=
  match strategyConfig.ohlcVariables with
  | [] => throw ("LiquiditySweepReversalStrategy: OHLC_VARIABLES needs one entry " ++
      "(the signal timeframe)")
  | signalCfg :: _ =>
    if signalCfg.ohlcMinutes.toInt < 1 then
      throw "LiquiditySweepReversalStrategy: OHLC_MINUTES must be >= 1"
    else
      match strategyConfig.strategyVariables.liquiditySweepReversalVariables with
      | none => throw ("LiquiditySweepReversalStrategy: " ++
          "STRATEGY_VARIABLES.LIQUIDITY_SWEEP_REVERSAL_VARIABLES is required " ++
          "(PIVOT_BARS, LOOKBACK_BARS, MIN_SWEEP_PIPS, " ++
          "DISPLACEMENT_ATR_TENTHS, VALID_BARS)")
      | some sweepVars =>
        let pivotBars := sweepVars.pivotBars.toInt
        let lookbackBars := sweepVars.lookbackBars.toInt
        let validBars := sweepVars.validBars.toInt
        if pivotBars < 1 then
          throw "LiquiditySweepReversalStrategy: PIVOT_BARS must be >= 1"
        else if lookbackBars < toInt32 (pivotBars + 1) then
          throw "LiquiditySweepReversalStrategy: LOOKBACK_BARS must be >= PIVOT_BARS + 1"
        else if sweepVars.minSweepPips.toInt < 0 then
          throw "LiquiditySweepReversalStrategy: MIN_SWEEP_PIPS must be >= 0"
        else if sweepVars.displacementAtrTenths.toInt < 0 then
          throw "LiquiditySweepReversalStrategy: DISPLACEMENT_ATR_TENTHS must be >= 0"
        else if validBars < 1 ∨ lookbackBars < validBars then
          throw "LiquiditySweepReversalStrategy: VALID_BARS must be >= 1 and <= LOOKBACK_BARS"
        else if sweepVars.maxTradeDurationMinutes.toInt < 0 then
          throw "LiquiditySweepReversalStrategy: MAX_TRADE_DURATION_MINUTES must be >= 0"
        else
          let minCount := max (toInt32 (lookbackBars + pivotBars + 1))
            (toInt32 (validBars + kAtrPeriod + 1))
          if signalCfg.ohlcCount.toInt < minCount then
            throw ("LiquiditySweepReversalStrategy: OHLC_VARIABLES[0].OHLC_COUNT must " ++
              "be >= max(LOOKBACK_BARS + PIVOT_BARS + 1, VALID_BARS + 11)")
          else
            return ⟨⟨signalCfg.ohlcMinutes.toInt, signalCfg.ohlcCount.toInt⟩, pivotBars,
              lookbackBars, sweepVars.minSweepPips.toInt, sweepVars.displacementAtrTenths.toInt,
              validBars⟩

/-- A rejection that can be traded: the level, and the index of the bar that rejected it. -/
structure Setup where
  rejection : ℕ
  level : ℤ
  deriving DecidableEq

variable (strategy : LiquiditySweepReversalStrategy)

/-- The body of the rejection points away from the level and is large enough, by the mean range of
the bars up to it. -/
def displacementOk (closedBars : List OhlcObject) (rejection : ℕ) (extreme : Extreme) : Bool :=
  if strategy.displacementAtrTenths = 0 then true
  else
    let body := extreme.body (barAt closedBars rejection)
    if body ≤ 0 then false
    else
      let atrPoints := Atr.calculate (closedBars.take (rejection + 1)) kAtrPeriod
      if atrPoints ≤ 0 then false
      else strategy.displacementAtrTenths * atrPoints ≤ body * 10

/-- The first bar after the pivot to trade beyond its level, if that is a rejection which stands. -/
def rejectionOf (extreme : Extreme) (closedBars : List OhlcObject) (sweepPoints : ℤ) (i : ℕ) :
    Option Setup :=
  let n := closedBars.length
  let level := extreme.price (barAt closedBars i)
  let j := i + 1 + (closedBars.drop (i + 1)).findIdx fun bar =>
    extreme.Beyond (extreme.price bar) level
  let bar := barAt closedBars j
  if j < n ∧ ¬ extreme.Beyond bar.close level ∧
      sweepPoints ≤ toInt32 (extreme.depth (extreme.price bar) level) ∧
      n ≤ j + strategy.validBars.toNat ∧ strategy.displacementOk closedBars j extreme then
    -- a later close beyond the level: the breakout resumed
    if (closedBars.drop (j + 1)).any fun later => extreme.Beyond later.close level then none
    else some ⟨j, level⟩
  else none

def candidate (extreme : Extreme) (closedBars : List OhlcObject) (sweepPoints : ℤ) (i : ℕ) :
    Except String (Option Setup) := do
  if ← SwingPivots.isPivotAt extreme closedBars i strategy.pivotBars then
    return strategy.rejectionOf extreme closedBars sweepPoints i
  else return none

/-- The newer of two setups, the one that was there if neither is. -/
def keepNewest (best : Option Setup) : Option Setup → Option Setup
  | none => best
  | some setup =>
    match best with
    | none => some setup
    | some kept => if kept.rejection < setup.rejection then some setup else some kept

/-- The newest rejections of a swept high and of a swept low. -/
def pivotScan (closedBars : List OhlcObject) (sweepPoints : ℤ) :
    Except String (Option Setup × Option Setup) :=
  let n := closedBars.length
  let wing := strategy.pivotBars.toNat
  let scanStart := max wing (n - strategy.lookbackBars.toNat)
  (List.range' scanStart (n - wing - scanStart)).foldlM
    (fun best i => do
      let short ← strategy.candidate .high closedBars sweepPoints i
      let long ← strategy.candidate .low closedBars sweepPoints i
      return (keepNewest best.1 short, keepNewest best.2 long))
    (none, none)

/-- The entry is taken while its price is back inside the level. -/
def enter (extreme : Extreme) (tick : PriceData) (setup : Setup) : Option Direction :=
  if extreme.Beyond setup.level (extreme.entryPrice tick) then some extreme.direction else none

/-- The newest rejection wins, and one bar that is the newest both ways is refused. -/
def verdict (tick : PriceData) (bestShort bestLong : Option Setup) : Option Direction :=
  match bestShort, bestLong with
  | some short, some long =>
    if short.rejection = long.rejection then none
    else if long.rejection < short.rejection then enter .high tick short
    else enter .low tick long
  | some short, none => enter .high tick short
  | none, some long => enter .low tick long
  | none, none => none

def decide (tick : PriceData) (barStore : BarStore) : Except String (Option Direction) :=
  match barStore.find tick.symbol strategy.signalCfg.minutes with
  | none => return none
  | some signalSeries =>
    let signalCount := strategy.signalCfg.count.toNat
    if signalSeries.length < signalCount then return none
    else do
      let signalBars := signalSeries.rtake signalCount
      let closedBars := signalBars.dropLast
      let sweepPoints := toInt32 (strategy.minSweepPips * SymbolScale.get tick.symbol)
      let best ← strategy.pivotScan closedBars sweepPoints
      return verdict tick best.1 best.2

end LiquiditySweepReversalStrategy

end BacktestEngine
