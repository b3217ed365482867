import BacktestEngine.Trading.RunLoop

/-! # The summary of a run

The closed trades are counted and summed in pips, in the order of the log. From the
sums, the drawdown and the horizon a single score is made, in doubles.
-/

namespace BacktestEngine

structure TradingResultsStats (D : Type) where
  finalPnl : D
  tradesOpened : ℕ
  tradesClosed : ℕ
  openedLong : ℕ
  openedShort : ℕ
  closedLong : ℕ
  closedShort : ℕ
  winners : ℕ
  losers : ℕ
  breakeven : ℕ
  liquidated : ℕ
  avgPnl : Option D
  performanceScore : D
  winRate : D
  tradeRatio : D
  expectancyScore : D
  calmarScore : D
  confidenceMultiplier : D
  maxDrawdownPercent : D

namespace ResultsSummary

variable {D F : Type} [Summing D] [Doubles F] [Casts D F]

open Casts Doubles

/-- A value that is no finite number never reaches a report. -/
def finiteOr0 (v : F) : F := if isFinite v then v else nearest 0

/-- The share of a score that a sample of this many trades over these years earns. -/
def confidence (totalSum years : F) : F :=
  if le (nearest 60 * years) totalSum then nearest 1
  else if le (nearest 40 * years) totalSum then nearest (9 / 10)
  else if le (nearest 20 * years) totalSum then nearest (8 / 10)
  else if le (nearest 10 * years) totalSum then nearest (6 / 10)
  else if le (nearest 5 * years) totalSum then nearest (4 / 10)
  else nearest (1 / 10)

/-- Fill in the score of a run; one that cannot be scored keeps its zeros. -/
def computePerformanceScore (stats : TradingResultsStats D) (startingBalanceDec : D)
    (lastMonths : ℤ) (winPipSum lossPipSum maxDropPips : D) : TradingResultsStats D :=
  let startingBalance : F := toDouble startingBalanceDec
  if stats.tradesClosed = 0 ∨ le startingBalance (nearest 0) ∨ lastMonths ≤ 0 then stats
  else
    let positive : F := nearest stats.winners
    let negative : F := nearest stats.losers
    let totalSum := positive + negative
    if beq totalSum (nearest 0) then stats
    else
      let closedCount : F := nearest stats.tradesClosed
      let winRate := positive / closedCount
      let lossRate := negative / closedCount
      let averageWin := if lt (nearest 0) positive then toDouble winPipSum / positive
        else nearest 0
      let averageLoss := if lt (nearest 0) negative then abs (toDouble lossPipSum / negative)
        else nearest 0
      let tradeRatio :=
        if beq positive (nearest 0) then nearest 0
        else if beq negative (nearest 0) || beq averageLoss (nearest 0) then nearest 100
        else averageWin * positive / (averageLoss * negative)
      let expectancyPips := averageWin * winRate - averageLoss * lossRate
      let expectancyPercent := expectancyPips / startingBalance * nearest 100
      let tradeFreqFactor := sqrt totalSum
      let systemQuality := expectancyPercent * tradeFreqFactor
      let expectancyScore := systemQuality * (nearest 50 / nearest 2)
      let years := nearest lastMonths / nearest 12
      let finalPnl := toDouble stats.finalPnl
      let cagrPercent := finalPnl / startingBalance / years * nearest 100
      let maxDrawdownPercent := toDouble maxDropPips / startingBalance * nearest 100
      let adjustedDrawdown := if lt maxDrawdownPercent (nearest 2) then nearest 2
        else maxDrawdownPercent
      let calmarScore := cagrPercent / adjustedDrawdown * (nearest 50 / nearest 3)
      let confidenceMultiplier := confidence totalSum years
      let rawPerformance := expectancyScore * nearest (1 / 2) + calmarScore * nearest (1 / 2)
      let performance := rawPerformance * confidenceMultiplier
      { stats with
        winRate := ofDouble (finiteOr0 winRate)
        tradeRatio := ofDouble (finiteOr0 tradeRatio)
        expectancyScore := ofDouble (finiteOr0 expectancyScore)
        calmarScore := ofDouble (finiteOr0 calmarScore)
        confidenceMultiplier := ofDouble (finiteOr0 confidenceMultiplier)
        maxDrawdownPercent := ofDouble (finiteOr0 maxDrawdownPercent)
        performanceScore := ofDouble (finiteOr0 performance) }

/-- What the loop over the closed trades adds up. -/
structure Tally (D : Type) where
  closedLong : ℕ
  closedShort : ℕ
  winners : ℕ
  losers : ℕ
  breakeven : ℕ
  liquidated : ℕ
  pnlSum : D
  winPipSum : D
  lossPipSum : D

def Tally.zero : Tally D := ⟨0, 0, 0, 0, 0, 0, Decimal.ofInt 0, Decimal.ofInt 0, Decimal.ofInt 0⟩

/-- Count a trade on its side, and among the forced closes. -/
def Tally.count (tally : Tally D) (trade : Trade) : Tally D :=
  { tally with
    closedLong := if trade.direction = .long then tally.closedLong + 1 else tally.closedLong
    closedShort := if trade.direction = .long then tally.closedShort else tally.closedShort + 1
    liquidated := if trade.liquidated then tally.liquidated + 1 else tally.liquidated }

/-- Add the pips of a trade whose symbol has a scale. -/
def Tally.measure (tally : Tally D) (trade : Trade) : Tally D :=
  let pips := Decimal.div (Decimal.ofInt trade.pnl) (Decimal.ofInt trade.scalingFactor : D)
  let pnlSum := Summing.add tally.pnlSum pips
  if trade.pnl > 0 then
    { tally with
      winners := tally.winners + 1
      pnlSum := pnlSum
      winPipSum := Summing.add tally.winPipSum pips }
  else if trade.pnl < 0 then
    { tally with
      losers := tally.losers + 1
      pnlSum := pnlSum
      lossPipSum := Summing.add tally.lossPipSum pips }
  else { tally with breakeven := tally.breakeven + 1, pnlSum := pnlSum }

def Tally.step (tally : Tally D) (trade : Trade) : Tally D :=
  if trade.scalingFactor = 0 then tally.count trade else (tally.count trade).measure trade

/-- The tally of the log of closed trades. -/
def tally (closedTrades : List Trade) : Tally D := closedTrades.foldl Tally.step Tally.zero

def collect (tm : TradeManager) (startingBalance : D) (lastMonths primaryPointsPerPip : ℤ) :
    TradingResultsStats D :=
  let active := tm.activeList
  let closedCount := tm.closedTrades.length
  let openedLong := active.countP fun trade => trade.direction = .long
  let openedShort := active.countP fun trade => trade.direction ≠ .long
  let tally : Tally D := tally tm.closedTrades
  let maxDropPips : D :=
    if primaryPointsPerPip ≠ 0 then
      Decimal.div (Decimal.ofInt tm.maxDrawdownPoints) (Decimal.ofInt primaryPointsPerPip)
    else Decimal.ofInt 0
  computePerformanceScore
    { finalPnl := tally.pnlSum
      tradesOpened := active.length + closedCount
      tradesClosed := closedCount
      openedLong := openedLong + tally.closedLong
      openedShort := openedShort + tally.closedShort
      closedLong := tally.closedLong
      closedShort := tally.closedShort
      winners := tally.winners
      losers := tally.losers
      breakeven := tally.breakeven
      liquidated := tally.liquidated
      avgPnl := if closedCount = 0 then none
        else some (Decimal.div tally.pnlSum (Decimal.ofInt closedCount))
      performanceScore := Decimal.ofInt 0
      winRate := Decimal.ofInt 0
      tradeRatio := Decimal.ofInt 0
      expectancyScore := Decimal.ofInt 0
      calmarScore := Decimal.ofInt 0
      confidenceMultiplier := Decimal.ofInt 0
      maxDrawdownPercent := Decimal.ofInt 0 }
    startingBalance lastMonths tally.winPipSum tally.lossPipSum maxDropPips

/-- The score that the performance gate compares. -/
def performanceScore (tm : TradeManager) (startingBalance : D) (lastMonths pointsPerPip : ℤ) : D :=
  (collect tm startingBalance lastMonths pointsPerPip).performanceScore

/-! ## The counters -/

theorem Tally.step_winners (tally : Tally D) (trade : Trade) : (tally.step trade).winners =
    tally.winners + if trade.pnl > 0 ∧ trade.scalingFactor ≠ 0 then 1 else 0 := by
  unfold step
  split_ifs with hscale hwon hwon <;> simp only [measure, count] <;> grind

theorem Tally.step_losers (tally : Tally D) (trade : Trade) : (tally.step trade).losers =
    tally.losers + if trade.pnl < 0 ∧ trade.scalingFactor ≠ 0 then 1 else 0 := by
  unfold step
  split_ifs with hscale hlost hlost <;> simp only [measure, count] <;> grind

theorem tally_winners (closedTrades : List Trade) : (tally closedTrades : Tally D).winners =
    closedTrades.countP fun trade => trade.pnl > 0 ∧ trade.scalingFactor ≠ 0 := by
  induction closedTrades using List.reverseRecOn with
  | nil => rfl
  | append_singleton trades trade ih =>
    rw [tally, List.foldl_append, List.countP_append, ← ih]
    simp [tally, Tally.step_winners, List.countP_cons]

theorem tally_losers (closedTrades : List Trade) : (tally closedTrades : Tally D).losers =
    closedTrades.countP fun trade => trade.pnl < 0 ∧ trade.scalingFactor ≠ 0 := by
  induction closedTrades using List.reverseRecOn with
  | nil => rfl
  | append_singleton trades trade ih =>
    rw [tally, List.foldl_append, List.countP_append, ← ih]
    simp [tally, Tally.step_losers, List.countP_cons]

omit [Summing D] in
/-- The score leaves the counters alone. -/
theorem computePerformanceScore_counts (stats : TradingResultsStats D) (balance : D) (months : ℤ)
    (win loss drop : D) :
    (computePerformanceScore stats balance months win loss drop).winners = stats.winners ∧
      (computePerformanceScore stats balance months win loss drop).losers = stats.losers := by
  unfold computePerformanceScore
  dsimp only
  split_ifs <;> exact ⟨rfl, rfl⟩

variable (tm : TradeManager) (balance : D) (months points : ℤ)

/-- The winners and losers of the summary are the decisive trades of the gate. -/
theorem collect_winners : (collect tm balance months points).winners = winners tm := by
  rw [collect, (computePerformanceScore_counts _ _ _ _ _ _).1, winners, measured,
    List.countP_filter]
  simp only [tally_winners, Bool.decide_and]

theorem collect_losers : (collect tm balance months points).losers = losers tm := by
  rw [collect, (computePerformanceScore_counts _ _ _ _ _ _).2, losers, measured,
    List.countP_filter]
  simp only [tally_losers, Bool.decide_and]

end ResultsSummary

end BacktestEngine
