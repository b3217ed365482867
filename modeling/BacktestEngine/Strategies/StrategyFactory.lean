import BacktestEngine.Strategies.FairValueGap
import BacktestEngine.Strategies.KeltnerFade
import BacktestEngine.Strategies.LiquiditySweepReversal
import BacktestEngine.Strategies.OpenRange
import BacktestEngine.Strategies.RangeVelocity
import BacktestEngine.Strategies.TrendBreakouts

/-! # The strategy that a configuration names

The backtest and the live engine make their strategies here. A name that is not known throws, and
so does a constructor that refuses its configuration.
-/

namespace BacktestEngine

namespace Strategies

inductive Strategy
  | random
  | ohlcBreakout (strategy : OhlcBreakoutStrategy)
  | fvg (strategy : FvgStrategy)
  | keltnerFade (strategy : KeltnerFadeStrategy)
  | sessionRangeBreakout (strategy : SessionRangeBreakoutStrategy)
  | squeezeBreakout (strategy : SqueezeBreakoutStrategy)
  | nyOpenRangeBreakout (strategy : NyOpenRangeBreakoutStrategy)
  | liquiditySweepReversal (strategy : LiquiditySweepReversalStrategy)
  | rangeVelocity (strategy : RangeVelocityStrategy)

inductive StrategyError
  | unknownStrategy (name : String)
  | invalidArgument (reason : String)
  deriving DecidableEq

/-- The names that live trading considers. -/
def kActiveStrategies : List String :=
  ["RandomStrategy", "OhlcBreakoutStrategy", "FvgStrategy", "KeltnerFadeStrategy",
    "SessionRangeBreakoutStrategy", "SqueezeBreakoutStrategy", "NyOpenRangeBreakoutStrategy",
    "LiquiditySweepReversalStrategy", "RangeVelocityStrategy"]

/-- A constructor throws `std::invalid_argument`. -/
def made {α : Type} (wrap : α → Strategy) : Except String α → Except StrategyError Strategy
  | .ok strategy => .ok (wrap strategy)
  | .error reason => .error (.invalidArgument reason)

def makeStrategy (config : TradingDefinitions.StrategyConfig) :
    Except StrategyError Strategy :=
  let name := config.tradingVariables.strategy
  if name = "RandomStrategy" then .ok .random
  else if name = "OhlcBreakoutStrategy" then made .ohlcBreakout (OhlcBreakoutStrategy.make config)
  else if name = "FvgStrategy" then made .fvg (FvgStrategy.make config)
  else if name = "KeltnerFadeStrategy" then made .keltnerFade (KeltnerFadeStrategy.make config)
  else if name = "SessionRangeBreakoutStrategy" then
    made .sessionRangeBreakout (SessionRangeBreakoutStrategy.make config)
  else if name = "SqueezeBreakoutStrategy" then
    made .squeezeBreakout (SqueezeBreakoutStrategy.make config)
  else if name = "NyOpenRangeBreakoutStrategy" then
    made .nyOpenRangeBreakout (NyOpenRangeBreakoutStrategy.make config)
  else if name = "LiquiditySweepReversalStrategy" then
    made .liquiditySweepReversal (LiquiditySweepReversalStrategy.make config)
  else if name = "RangeVelocityStrategy" then
    made .rangeVelocity (RangeVelocityStrategy.make config)
  else .error (.unknownStrategy name)

theorem made_ne_unknownStrategy {α : Type} (wrap : α → Strategy) (built : Except String α)
    (name : String) : made wrap built ≠ .error (.unknownStrategy name) := by
  cases built with
  | ok strategy => exact fun h => (by cases h)
  | error reason => exact fun h => (by cases h)

/-- The names that live trading considers are those that a strategy is made for. -/
theorem makeStrategy_unknown_iff (config : TradingDefinitions.StrategyConfig) :
    (∃ name, makeStrategy config = .error (.unknownStrategy name)) ↔
      config.tradingVariables.strategy ∉ kActiveStrategies := by
  constructor
  · rintro ⟨name, h⟩ hmem
    simp only [kActiveStrategies, List.mem_cons, List.not_mem_nil, or_false] at hmem
    rcases hmem with hname | hname | hname | hname | hname | hname | hname | hname | hname <;>
      simp [makeStrategy, hname, made_ne_unknownStrategy] at h
  · intro hunknown
    simp only [kActiveStrategies, List.mem_cons, List.not_mem_nil, or_false, not_or] at hunknown
    exact ⟨config.tradingVariables.strategy, by simp [makeStrategy, hunknown]⟩

end Strategies

end BacktestEngine
