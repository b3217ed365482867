import BacktestEngine.Library.Checked
import BacktestEngine.Strategies.Ema
import BacktestEngine.Strategies.EntryConditions
import BacktestEngine.Strategies.LiquiditySweepReversal

/-! # The indicators with checked access

The mean range, the moving average and the swing pivots once more, with every index, every
difference of sizes and every divisor checked. With a positive period and enough bars they
do not fault and compute what they compute without the checks.
-/

namespace BacktestEngine

open Checked (Fault read sub first quotient require)
open RangeBar (toInt32)

theorem read_bar {bars : List OhlcObject} {i : ℕ} (h : i < bars.length) :
    read bars i = .ok (barAt bars i) := by
  rw [Checked.read_eq h, barAt_eq h]

/-! ## The mean range -/

namespace Atr

def checkedCalculate (candles : List OhlcObject) (period : ℤ) : Except Fault ℤ := do
  require (1 ≤ period)
  let n := period.toNat
  if candles.length < n + 1 then return 0
  let start ← sub candles.length n
  let sum ← (List.range' start (candles.length - start)).foldlM (fun sum i => do
    let previous ← read candles (← sub i 1)
    let candle ← read candles i
    return sum + trueRange previous.close candle) 0
  return toInt32 (← quotient (sum + period / 2) period)

/-- The ranges, by index. -/
theorem trueRanges_eq (candles : List OhlcObject) :
    trueRanges candles = (List.range (candles.length - 1)).map fun i =>
      trueRange (barAt candles i).close (barAt candles (i + 1)) := by
  induction candles using trueRanges.induct with
  | case1 => rfl
  | case2 => rfl
  | case3 previous candle candles ih =>
    rw [trueRanges, ih]
    change _ = (List.range (candles.length + 1)).map _
    rw [List.range_succ_eq_map, List.map_cons, List.map_map]
    rfl

/-- The ranges of the last bars, by the index of the later bar. -/
theorem trueRanges_rtake {candles : List OhlcObject} {n : ℕ} (henough : n + 1 ≤ candles.length) :
    trueRanges (candles.rtake (n + 1)) = (List.range' (candles.length - n) n).map fun i =>
      trueRange (barAt candles (i - 1)).close (barAt candles i) := by
  have hlength : (candles.rtake (n + 1)).length - 1 = n := by
    rw [List.rtake, List.length_drop]
    omega
  rw [trueRanges_eq, hlength, List.range'_eq_map_range, List.map_map]
  refine List.map_congr_left fun i _ => ?_
  have hprevious : candles.length - (n + 1) + i = candles.length - n + i - 1 := by omega
  have hcandle : candles.length - (n + 1) + (i + 1) = candles.length - n + i := by omega
  rw [List.rtake, barAt_drop, barAt_drop, hprevious, hcandle]
  rfl

theorem checkedCalculate_eq {period : ℤ} (hperiod : 1 ≤ period) (candles : List OhlcObject) :
    checkedCalculate candles period = .ok (calculate candles period.toNat) := by
  unfold checkedCalculate calculate
  rw [Checked.require_eq hperiod, Checked.ok_bind]
  dsimp only
  split_ifs with hshort
  · rfl
  · have hread (i : ℕ)
        (hi : i ∈ List.range' (candles.length - period.toNat)
          (candles.length - (candles.length - period.toNat))) (sum : ℤ) :
        (do let previous ← read candles (← sub i 1)
            let candle ← read candles i
            return sum + trueRange previous.close candle : Except Fault ℤ) =
          .ok (sum + trueRange (barAt candles (i - 1)).close (barAt candles i)) := by
      rw [List.mem_range'_1] at hi
      rw [Checked.sub_eq (by omega), Checked.ok_bind, read_bar (by omega), Checked.ok_bind,
        read_bar (by omega)]
      rfl
    rw [Checked.sub_eq (by omega), Checked.ok_bind, Checked.foldlM_eq hread, Checked.ok_bind,
      Checked.quotient_eq hperiod, Checked.ok_bind, trueRanges_rtake (by omega),
      show candles.length - (candles.length - period.toNat) = period.toNat by omega,
      List.sum_eq_foldl, List.foldl_map, Int.toNat_of_nonneg (by omega)]
    rfl

end Atr

/-! ## The moving average -/

namespace Ema

/-- One turn of the loop: the state, and the outputs so far. -/
def emit (alpha : ℤ) (state : ℤ × List ℤ) (price : ℤ) : ℤ × List ℤ :=
  let emaQ := stepQ alpha state.1 price
  (emaQ, state.2 ++ [roundToPoints emaQ])

def checkedCalculate (prices : List ℤ) (period : ℤ) : Except Fault (List ℤ) := do
  require (1 ≤ period)
  let n := period.toNat
  if prices.length < n then return List.replicate prices.length 0
  let sum ← (List.range n).foldlM (fun sum i => do return sum + (← read prices i)) 0
  let emaQ ← quotient (toInt64 (sum * 2 ^ kFractionBits + period / 2)) period
  let seedAt ← sub n 1
  let alpha ← quotient (2 * 2 ^ kFractionBits + (period + 1) / 2) (period + 1)
  let last ← (List.range' n (prices.length - n)).foldlM
    (fun state i => do return emit alpha state (← read prices i))
    (emaQ, List.replicate seedAt 0 ++ [roundToPoints emaQ])
  return last.2

theorem foldl_emit (alpha emaQ : ℤ) (out prices : List ℤ) :
    (prices.foldl (emit alpha) (emaQ, out ++ [roundToPoints emaQ])).2 =
      out ++ (prices.scanl (stepQ alpha) emaQ).map roundToPoints := by
  induction prices generalizing emaQ out with
  | nil => rfl
  | cons price prices ih =>
    rw [List.foldl_cons, emit, ih, List.scanl_cons, List.map_cons, List.append_assoc]
    rfl

theorem checkedCalculate_eq {period : ℤ} (hperiod : 1 ≤ period) (prices : List ℤ) :
    ∃ out, checkedCalculate prices period = .ok out ∧ calculate prices period = .ok out := by
  unfold checkedCalculate
  rw [Checked.require_eq hperiod, Checked.ok_bind]
  dsimp only
  split_ifs with hshort
  · exact ⟨_, rfl, calculate_short hperiod hshort⟩
  · refine ⟨_, ?_, calculate_eq hperiod (not_lt.mp hshort)⟩
    have halpha : (2 * 2 ^ kFractionBits + (period + 1) / 2).tdiv (period + 1) =
        alphaQ period.toNat := by
      rw [alphaQ, Int.toNat_of_nonneg (by omega)]
      exact Int.tdiv_eq_ediv_of_nonneg (by positivity)
    rw [Checked.foldlM_read_take (not_lt.mp hshort), Checked.ok_bind,
      Checked.quotient_eq hperiod, Checked.ok_bind, Checked.sub_eq (by omega), Checked.ok_bind,
      Checked.quotient_eq (by omega), Checked.ok_bind, Checked.foldlM_read, Checked.ok_bind,
      halpha, ← List.sum_eq_foldl, foldl_emit, seedQ, Int.toNat_of_nonneg (by omega)]
    rfl

end Ema

/-! ## The swing pivots -/

namespace SwingPivots

def checkedSwingAt (extreme : Extreme) (bars : List OhlcObject) (index : ℕ) (pivotBars : ℤ) :
    Except Fault Bool := do
  require (1 ≤ pivotBars)
  let level := extreme.price (← read bars index)
  (List.range' 1 pivotBars.toNat).allM fun wing => do
    let before ← read bars (← sub index wing)
    if ¬ extreme.Beyond level (extreme.price before) then return false
    let after ← read bars (index + wing)
    return extreme.Beyond level (extreme.price after)

/-- A bar with its wings among the bars. -/
theorem checkedSwingAt_eq {extreme : Extreme} {bars : List OhlcObject} {index : ℕ} {pivotBars : ℤ}
    (hpivot : 1 ≤ pivotBars) (hleft : pivotBars.toNat ≤ index)
    (hright : index + pivotBars.toNat < bars.length) :
    ∃ swing, checkedSwingAt extreme bars index pivotBars = .ok swing ∧
      isPivotAt extreme bars index pivotBars = .ok swing := by
  have hwing (wing : ℕ) (hwing : wing ∈ List.range' 1 pivotBars.toNat) :
      (do let before ← read bars (← sub index wing)
          if ¬ extreme.Beyond (extreme.price (barAt bars index)) (extreme.price before) then
            return false
          let after ← read bars (index + wing)
          return extreme.Beyond (extreme.price (barAt bars index)) (extreme.price after) :
        Except Fault Bool) =
      .ok (extreme.Beyond (extreme.price (barAt bars index))
          (extreme.price (barAt bars (index - wing))) &&
        extreme.Beyond (extreme.price (barAt bars index))
          (extreme.price (barAt bars (index + wing)))) := by
    rw [List.mem_range'_1] at hwing
    rw [Checked.sub_eq (by omega), Checked.ok_bind, read_bar (by omega), Checked.ok_bind]
    by_cases hbeyond : extreme.Beyond (extreme.price (barAt bars index))
        (extreme.price (barAt bars (index - wing)))
    · rw [if_neg (not_not.mpr hbeyond), read_bar (by omega), decide_eq_true hbeyond, Bool.true_and]
      rfl
    · rw [if_pos hbeyond, decide_eq_false hbeyond, Bool.false_and]
      rfl
  unfold checkedSwingAt
  rw [Checked.require_eq hpivot, Checked.ok_bind, read_bar (by omega), Checked.ok_bind,
    Checked.allM_eq hwing]
  refine ⟨_, rfl, ?_⟩
  cases extreme with
  | high =>
    change isSwingAt .high _ bars index pivotBars = _
    rw [isSwingAt, if_neg (by omega)]
    rfl
  | low =>
    change isSwingAt .low _ bars index pivotBars = _
    rw [isSwingAt, if_neg (by omega)]
    rfl

end SwingPivots

end BacktestEngine
