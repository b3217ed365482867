import BacktestEngine.Trading.TradeManager

/-! # The time cap

A trade that has been open for longer than the cap is closed at its own exit side. A cap that
is not positive is none.
-/

namespace BacktestEngine

namespace StrategyExits

/-- Close the trade of the price's symbol when it is past the cap, which is in minutes, and say
whether it was. -/
def closeIfPastCap (price : PriceData) (tradeManager : TradeManager) (cap : ℤ) :
    TradeManager × Bool :=
  if cap ≤ 0 then (tradeManager, false)
  else
    match tradeManager.findActiveTrade price.symbol with
    | none => (tradeManager, false)
    | some trade =>
      if price.timestamp - trade.openTime ≤ cap * (60 * second) then (tradeManager, false)
      else
        let closePrice := price.closeSide trade.direction
        ((tradeManager.closeTrade price.symbol closePrice price false).1, true)

variable {price : PriceData} {tradeManager : TradeManager} {trade : Trade}

/-- A trade of this very moment is not past any cap. -/
theorem closeIfPastCap_fresh (htrade : tradeManager.findActiveTrade price.symbol = some trade)
    (hopened : trade.openTime = price.timestamp) (cap : ℤ) :
    closeIfPastCap price tradeManager cap = (tradeManager, false) := by
  unfold closeIfPastCap
  rw [htrade]
  dsimp only
  rw [hopened, sub_self]
  have hsecond : 0 < 60 * second := by decide
  split_ifs with hoff hpast
  · rfl
  · rfl
  · exact (hpast (mul_nonneg (not_le.mp hoff).le hsecond.le)).elim

end StrategyExits

end BacktestEngine
