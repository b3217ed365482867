import BacktestEngine.Library.Binary64
import BacktestEngine.Load.Sweep
import BacktestEngine.Strategies.StrategyFactory

/-! # From a combination to a configuration

Each family of strategies has a factory that reads a combination and derives the bar counts from
what it read. The counts are the least that the constructor takes, so that a combination is
accepted when each of its values is within the limits of its own parameter.
-/

namespace BacktestEngine

namespace Sweep

open Binary64 RangeBar

namespace Combination

variable (combo : Combination ℚ)

def get (name : String) : Except String ℚ :=
  match combo.get? name with
  | some value => .ok value
  | none => .error ("sweep::Combination: unknown parameter '" ++ name ++ "'")

def getInt (name : String) : Except String Int32 :=
  (combo.get name).map fun value => .ofInt (lround value)

def has (name : String) : Bool := (combo.get? name).isSome

end Combination

/-! ## The factories -/

/-- Reads a combination for a strategy of the given identity. -/
abbrev StrategyFactory :=
  String → Combination ℚ → Except String TradingDefinitions.StrategyConfig

/-- Only exits and an empty series: the parameters of the bars are read if a sweep has them. -/
def makeStrategy : StrategyFactory := fun uuid combo => do
  let stopDistance ← combo.getInt "STOP_DISTANCE_IN_ATR"
  let limitDistance ← combo.getInt "LIMIT_DISTANCE_IN_ATR"
  let ohlcCount ← if combo.has "OHLC_COUNT" then combo.getInt "OHLC_COUNT" else pure 0
  let ohlcMinutes ← if combo.has "OHLC_MINUTES" then combo.getInt "OHLC_MINUTES" else pure 0
  return {
    uuid
    tradingVariables := ⟨"RandomStrategy", stopDistance, limitDistance, 1⟩
    ohlcVariables := [⟨ohlcCount, ohlcMinutes⟩]
    rangeVariables := []
    strategyVariables.ohlcRsiVariables := some ⟨60, 40⟩ }

def makeOhlcBreakoutStrategy : StrategyFactory := fun uuid combo => do
  let stopDistance ← combo.getInt "STOP_DISTANCE_IN_ATR"
  let limitDistance ← combo.getInt "LIMIT_DISTANCE_IN_ATR"
  let breakoutCount ← combo.getInt "BREAKOUT_OHLC_COUNT"
  let breakoutMinutes ← combo.getInt "BREAKOUT_OHLC_MINUTES"
  let trendCount ← combo.getInt "TREND_OHLC_COUNT"
  let trendMinutes ← combo.getInt "TREND_OHLC_MINUTES"
  let bufferPips ← combo.getInt "BUFFER_PIPS"
  let maxDuration ← combo.getInt "MAX_TRADE_DURATION_MINUTES"
  return {
    uuid
    tradingVariables := ⟨"OhlcBreakoutStrategy", stopDistance, limitDistance, 1⟩
    ohlcVariables := [⟨breakoutCount, breakoutMinutes⟩, ⟨trendCount, trendMinutes⟩]
    rangeVariables := []
    strategyVariables.ohlcBreakoutVariables := some ⟨bufferPips, maxDuration⟩ }

def makeFvgStrategy : StrategyFactory := fun uuid combo => do
  let lookbackBars ← combo.getInt "LOOKBACK_BARS"
  let htfSmaPeriod ← combo.getInt "HTF_SMA_PERIOD"
  let stopDistance ← combo.getInt "STOP_DISTANCE_IN_ATR"
  let limitDistance ← combo.getInt "LIMIT_DISTANCE_IN_ATR"
  let fvgMinutes ← combo.getInt "FVG_OHLC_MINUTES"
  let htfMinutes ← combo.getInt "HTF_OHLC_MINUTES"
  let minGapPips ← combo.getInt "MIN_GAP_PIPS"
  let minGapAgeBars ← combo.getInt "MIN_GAP_AGE_BARS"
  let maxDuration ← combo.getInt "MAX_TRADE_DURATION_MINUTES"
  return {
    uuid
    tradingVariables := ⟨"FvgStrategy", stopDistance, limitDistance, 1⟩
    ohlcVariables := [⟨lookbackBars + 3, fvgMinutes⟩, ⟨htfSmaPeriod + 2, htfMinutes⟩]
    rangeVariables := []
    strategyVariables.fvgStrategyVariables :=
      some ⟨lookbackBars, minGapPips, htfSmaPeriod, minGapAgeBars, maxDuration⟩ }

def makeKeltnerFadeStrategy : StrategyFactory := fun uuid combo => do
  let bandSmaPeriod ← combo.getInt "BAND_SMA_PERIOD"
  let stopDistance ← combo.getInt "STOP_DISTANCE_IN_ATR"
  let limitDistance ← combo.getInt "LIMIT_DISTANCE_IN_ATR"
  let ohlcMinutes ← combo.getInt "OHLC_MINUTES"
  let bandAtrMultTenths ← combo.getInt "BAND_ATR_MULT_TENTHS"
  let maxDuration ← combo.getInt "MAX_TRADE_DURATION_MINUTES"
  return {
    uuid
    tradingVariables := ⟨"KeltnerFadeStrategy", stopDistance, limitDistance, 1⟩
    ohlcVariables := [⟨bandSmaPeriod + 2, ohlcMinutes⟩]
    rangeVariables := []
    strategyVariables.keltnerFadeVariables :=
      some ⟨bandSmaPeriod, bandAtrMultTenths, maxDuration⟩ }

/-- The bars from midnight to the end of the entry window after the latest London open. -/
def makeSessionRangeBreakoutStrategy : StrategyFactory := fun uuid combo => do
  let ohlcMinutes ← combo.getInt "OHLC_MINUTES"
  let entryWindowMinutes ← combo.getInt "ENTRY_WINDOW_MINUTES"
  let ohlcCount := (480 + entryWindowMinutes + ohlcMinutes - 1) / ohlcMinutes + 2
  let stopDistance ← combo.getInt "STOP_DISTANCE_IN_ATR"
  let limitDistance ← combo.getInt "LIMIT_DISTANCE_IN_ATR"
  let bufferPips ← combo.getInt "BUFFER_PIPS"
  let maxDuration ← combo.getInt "MAX_TRADE_DURATION_MINUTES"
  return {
    uuid
    tradingVariables := ⟨"SessionRangeBreakoutStrategy", stopDistance, limitDistance, 1⟩
    ohlcVariables := [⟨ohlcCount, ohlcMinutes⟩]
    rangeVariables := []
    strategyVariables.sessionRangeBreakoutVariables :=
      some ⟨bufferPips, entryWindowMinutes, maxDuration⟩ }

def makeSqueezeBreakoutStrategy : StrategyFactory := fun uuid combo => do
  let nrLookback ← combo.getInt "NR_LOOKBACK"
  let validBars ← combo.getInt "VALID_BARS"
  let stopDistance ← combo.getInt "STOP_DISTANCE_IN_ATR"
  let limitDistance ← combo.getInt "LIMIT_DISTANCE_IN_ATR"
  let ohlcMinutes ← combo.getInt "OHLC_MINUTES"
  let trendCount ← combo.getInt "TREND_OHLC_COUNT"
  let trendMinutes ← combo.getInt "TREND_OHLC_MINUTES"
  let bufferPips ← combo.getInt "BUFFER_PIPS"
  let maxDuration ← combo.getInt "MAX_TRADE_DURATION_MINUTES"
  return {
    uuid
    tradingVariables := ⟨"SqueezeBreakoutStrategy", stopDistance, limitDistance, 1⟩
    ohlcVariables := [⟨validBars + max 1 (nrLookback - 1) + 1, ohlcMinutes⟩,
      ⟨trendCount, trendMinutes⟩]
    rangeVariables := []
    strategyVariables.squeezeBreakoutVariables :=
      some ⟨nrLookback, validBars, bufferPips, maxDuration⟩ }

/-- The bars from the start of the range to the end of the entry window. -/
def makeNyOpenRangeBreakoutStrategy : StrategyFactory := fun uuid combo => do
  let ohlcMinutes ← combo.getInt "OHLC_MINUTES"
  let rangeHours ← combo.getInt "RANGE_HOURS"
  let entryWindowMinutes ← combo.getInt "ENTRY_WINDOW_MINUTES"
  let ohlcCount := (rangeHours * 60 + entryWindowMinutes + ohlcMinutes - 1) / ohlcMinutes + 2
  let stopDistance ← combo.getInt "STOP_DISTANCE_IN_ATR"
  let limitDistance ← combo.getInt "LIMIT_DISTANCE_IN_ATR"
  let bufferPips ← combo.getInt "BUFFER_PIPS"
  let maxDuration ← combo.getInt "MAX_TRADE_DURATION_MINUTES"
  return {
    uuid
    tradingVariables := ⟨"NyOpenRangeBreakoutStrategy", stopDistance, limitDistance, 1⟩
    ohlcVariables := [⟨ohlcCount, ohlcMinutes⟩]
    rangeVariables := []
    strategyVariables.nyOpenRangeBreakoutVariables :=
      some ⟨rangeHours, bufferPips, entryWindowMinutes, maxDuration⟩ }

def makeLiquiditySweepReversalStrategy : StrategyFactory := fun uuid combo => do
  let pivotBars ← combo.getInt "PIVOT_BARS"
  let lookbackBars ← combo.getInt "LOOKBACK_BARS"
  let validBars ← combo.getInt "VALID_BARS"
  let ohlcCount := max (lookbackBars + pivotBars + 1) (validBars + 11)
  let stopDistance ← combo.getInt "STOP_DISTANCE_IN_ATR"
  let limitDistance ← combo.getInt "LIMIT_DISTANCE_IN_ATR"
  let ohlcMinutes ← combo.getInt "OHLC_MINUTES"
  let minSweepPips ← combo.getInt "MIN_SWEEP_PIPS"
  let displacementAtrTenths ← combo.getInt "DISPLACEMENT_ATR_TENTHS"
  let maxDuration ← combo.getInt "MAX_TRADE_DURATION_MINUTES"
  return {
    uuid
    tradingVariables := ⟨"LiquiditySweepReversalStrategy", stopDistance, limitDistance, 1⟩
    ohlcVariables := [⟨ohlcCount, ohlcMinutes⟩]
    rangeVariables := []
    strategyVariables.liquiditySweepReversalVariables := some ⟨pivotBars, lookbackBars,
      minSweepPips, displacementAtrTenths, validBars, maxDuration⟩ }

/-- No bars of time: the strategy trades range bars only. -/
def makeRangeVelocityStrategy : StrategyFactory := fun uuid combo => do
  let runBars ← combo.getInt "RUN_BARS"
  let speedLookbackBars ← combo.getInt "SPEED_LOOKBACK_BARS"
  let exitRunBars ← combo.getInt "EXIT_RUN_BARS"
  let rangeCount := max (runBars + speedLookbackBars) exitRunBars + 2
  let stopDistance ← combo.getInt "STOP_DISTANCE_IN_ATR"
  let limitDistance ← combo.getInt "LIMIT_DISTANCE_IN_ATR"
  let tickWindow ← combo.getInt "RANGE_ATR_TICK_WINDOW"
  let atrPercent ← combo.getInt "RANGE_ATR_PERCENT"
  let speedRatioPercent ← combo.getInt "SPEED_RATIO_PERCENT"
  let maxDuration ← combo.getInt "MAX_TRADE_DURATION_MINUTES"
  return {
    uuid
    tradingVariables := ⟨"RangeVelocityStrategy", stopDistance, limitDistance, 1⟩
    ohlcVariables := []
    rangeVariables := [⟨tickWindow, atrPercent, rangeCount⟩]
    strategyVariables.rangeVelocityVariables := some ⟨runBars, speedLookbackBars,
      speedRatioPercent, exitRunBars, maxDuration⟩ }

/-! ## The limits of each parameter -/

/-- What each parameter may be. -/
abbrev Limits := List (String × (ℤ → Bool))

def between (low high n : ℤ) : Bool := decide (low ≤ n ∧ n ≤ high)

/-- No sum of a few numbers up to here overflows. -/
def kMost : ℤ := 1000000

def positive : ℤ → Bool := between 1 kMost

def natural : ℤ → Bool := between 0 kMost

def Combination.Within (combo : Combination ℚ) (limits : Limits) : Prop :=
  ∀ limit ∈ limits, ∃ n, combo.getInt limit.1 = .ok n ∧ limit.2 n.toInt = true

/-- The factory makes a configuration that the strategy's own constructor takes, and that a payload
can carry. -/
def Starts (factory : StrategyFactory) (uuid : String) (combo : Combination ℚ) : Prop :=
  ∃ config, factory uuid combo = .ok config ∧ config.uuid = uuid ∧
    (Strategies.makeStrategy config).isOk ∧ config.BarsNonnegative

def exitLimits : Limits :=
  [("STOP_DISTANCE_IN_ATR", positive), ("LIMIT_DISTANCE_IN_ATR", positive)]

def ohlcBreakoutLimits : Limits :=
  exitLimits ++ [("BREAKOUT_OHLC_COUNT", between 2 kMost), ("BREAKOUT_OHLC_MINUTES", positive),
    ("TREND_OHLC_COUNT", between 2 kMost), ("TREND_OHLC_MINUTES", positive),
    ("BUFFER_PIPS", natural), ("MAX_TRADE_DURATION_MINUTES", natural)]

def fvgLimits : Limits :=
  exitLimits ++ [("LOOKBACK_BARS", positive), ("HTF_SMA_PERIOD", positive),
    ("FVG_OHLC_MINUTES", positive), ("HTF_OHLC_MINUTES", positive), ("MIN_GAP_PIPS", positive),
    ("MIN_GAP_AGE_BARS", natural), ("MAX_TRADE_DURATION_MINUTES", natural)]

def keltnerFadeLimits : Limits :=
  exitLimits ++ [("BAND_SMA_PERIOD", positive), ("OHLC_MINUTES", positive),
    ("BAND_ATR_MULT_TENTHS", positive), ("MAX_TRADE_DURATION_MINUTES", natural)]

def sessionRangeBreakoutLimits : Limits :=
  exitLimits ++ [("OHLC_MINUTES", positive), ("ENTRY_WINDOW_MINUTES", positive),
    ("BUFFER_PIPS", natural), ("MAX_TRADE_DURATION_MINUTES", natural)]

/-- Nought stands for the inside bar. -/
def squeezeBreakoutLimits : Limits :=
  exitLimits ++ [("NR_LOOKBACK", fun n => decide (n = 0 ∨ 2 ≤ n ∧ n ≤ kMost)),
    ("VALID_BARS", positive), ("OHLC_MINUTES", positive), ("TREND_OHLC_COUNT", between 2 kMost),
    ("TREND_OHLC_MINUTES", positive), ("BUFFER_PIPS", natural),
    ("MAX_TRADE_DURATION_MINUTES", natural)]

/-- A range of more than thirteen hours reaches past midnight. -/
def nyOpenRangeBreakoutLimits : Limits :=
  exitLimits ++ [("OHLC_MINUTES", positive), ("RANGE_HOURS", between 1 13),
    ("ENTRY_WINDOW_MINUTES", positive), ("BUFFER_PIPS", natural),
    ("MAX_TRADE_DURATION_MINUTES", natural)]

/-- The lookback is longer than a wing of a pivot, and than a rejection is good for. -/
def liquiditySweepReversalLimits : Limits :=
  exitLimits ++ [("PIVOT_BARS", between 1 15), ("LOOKBACK_BARS", between 16 kMost),
    ("VALID_BARS", between 1 16), ("OHLC_MINUTES", positive), ("MIN_SWEEP_PIPS", natural),
    ("DISPLACEMENT_ATR_TENTHS", natural), ("MAX_TRADE_DURATION_MINUTES", natural)]

def rangeVelocityLimits : Limits :=
  exitLimits ++ [("RUN_BARS", positive), ("SPEED_LOOKBACK_BARS", positive),
    ("EXIT_RUN_BARS", positive), ("RANGE_ATR_TICK_WINDOW", positive),
    ("RANGE_ATR_PERCENT", positive), ("SPEED_RATIO_PERCENT", positive),
    ("MAX_TRADE_DURATION_MINUTES", natural)]

section Int32

variable {a b : Int32}

theorem toInt_add (hlow : -2 ^ 31 ≤ a.toInt + b.toInt) (hhigh : a.toInt + b.toInt < 2 ^ 31) :
    (a + b).toInt = a.toInt + b.toInt := by
  rw [Int32.toInt_add]
  exact toInt32_of_small hlow hhigh

theorem toInt_sub (hlow : -2 ^ 31 ≤ a.toInt - b.toInt) (hhigh : a.toInt - b.toInt < 2 ^ 31) :
    (a - b).toInt = a.toInt - b.toInt := by
  rw [Int32.toInt_sub]
  exact toInt32_of_small hlow hhigh

theorem toInt_max : (max a b).toInt = max a.toInt b.toInt := by
  change (if a ≤ b then b else a).toInt = _
  by_cases h : a ≤ b
  · rw [if_pos h, max_eq_right (Int32.le_iff_toInt_le.mp h)]
  · rw [if_neg h, max_eq_left (not_le.mp (mt Int32.le_iff_toInt_le.mpr h)).le]

/-- The whole bars that cover a span, and two more. -/
theorem covering {span minutes : Int32} (hspan : 0 ≤ span.toInt ∧ span.toInt ≤ 2 * kMost)
    (hminutes : 1 ≤ minutes.toInt ∧ minutes.toInt ≤ kMost) :
    let count := (span + minutes - 1) / minutes + 2
    0 ≤ count.toInt ∧ span.toInt + 2 * minutes.toInt ≤ count.toInt * minutes.toInt := by
  obtain ⟨hspan, hspan'⟩ := hspan
  obtain ⟨hminutes, hminutes'⟩ := hminutes
  have hmost : kMost = 1000000 := rfl
  have hone : (1 : Int32).toInt = 1 := by decide
  have htwo : (2 : Int32).toInt = 2 := by decide
  have hsum : (span + minutes - 1).toInt = span.toInt + minutes.toInt - 1 := by
    have hadd : (span + minutes).toInt = span.toInt + minutes.toInt :=
      toInt_add (by omega) (by omega)
    rw [toInt_sub (by omega) (by omega), hadd, hone]
  have hquotient : ((span + minutes - 1) / minutes).toInt =
      (span.toInt + minutes.toInt - 1) / minutes.toInt := by
    have hne : minutes ≠ -1 := by
      rintro rfl
      exact absurd hminutes (by decide)
    rw [Int32.toInt_div_of_ne_right _ _ hne, hsum, Int.tdiv_eq_ediv_of_nonneg (by omega)]
  have hle : (span.toInt + minutes.toInt - 1) / minutes.toInt ≤ span.toInt + minutes.toInt - 1 :=
    Int.ediv_le_self _ (by omega)
  have hnonneg : 0 ≤ (span.toInt + minutes.toInt - 1) / minutes.toInt :=
    Int.ediv_nonneg (by omega) (by omega)
  have hcount : ((span + minutes - 1) / minutes + 2).toInt =
      (span.toInt + minutes.toInt - 1) / minutes.toInt + 2 := by
    rw [toInt_add (by omega) (by omega), hquotient, htwo]
  have hdivision := Int.ediv_mul_add_emod (span.toInt + minutes.toInt - 1) minutes.toInt
  have hremainder := Int.emod_lt_of_pos (span.toInt + minutes.toInt - 1) (b := minutes.toInt)
    (by omega)
  constructor
  · omega
  · rw [hcount, Int.add_mul]
    omega

end Int32

/-! ## What a factory makes -/

section Factories

variable {combo : Combination ℚ} {uuid : String}

attribute [local simp] Int32.le_iff_toInt_le

theorem makeStrategy_starts (h : combo.Within exitLimits) (hcount : combo.has "OHLC_COUNT" = false)
    (hminutes : combo.has "OHLC_MINUTES" = false) : Starts makeStrategy uuid combo := by
  simp only [Combination.Within, exitLimits, List.forall_mem_cons] at h
  obtain ⟨⟨stop, hstop, -⟩, ⟨limit, hlimit, -⟩, -⟩ := h
  refine ⟨_, by simp only [makeStrategy, hstop, hlimit, hcount, hminutes]; rfl, rfl, rfl, ?_⟩
  constructor <;> simp

theorem makeOhlcBreakoutStrategy_starts (h : combo.Within ohlcBreakoutLimits) :
    Starts makeOhlcBreakoutStrategy uuid combo := by
  simp only [Combination.Within, ohlcBreakoutLimits, exitLimits, List.cons_append,
    List.nil_append, List.forall_mem_cons, positive, natural, between, kMost,
    decide_eq_true_eq] at h
  obtain ⟨⟨stop, hstop, -⟩, ⟨limit, hlimit, -⟩, ⟨count, hcount, hcount'⟩,
    ⟨minutes, hminutes, hminutes'⟩, ⟨trendCount, htrendCount, htrendCount'⟩,
    ⟨trendMinutes, htrendMinutes, htrendMinutes'⟩, ⟨buffer, hbuffer, -⟩,
    ⟨duration, hduration, -⟩, -⟩ := h
  refine ⟨_, by simp only [makeOhlcBreakoutStrategy, hstop, hlimit, hcount, hminutes, htrendCount,
    htrendMinutes, hbuffer, hduration]; rfl, rfl, ?_, ?_⟩
  · simp only [Strategies.makeStrategy, OhlcBreakoutStrategy.make, String.reduceEq, reduceIte]
    rw [if_neg (by omega)]
    rfl
  · constructor
    · simp
      omega
    · simp

theorem makeFvgStrategy_starts (h : combo.Within fvgLimits) :
    Starts makeFvgStrategy uuid combo := by
  simp only [Combination.Within, fvgLimits, exitLimits, List.cons_append, List.nil_append,
    List.forall_mem_cons, positive, natural, between, kMost, decide_eq_true_eq] at h
  obtain ⟨⟨stop, hstop, -⟩, ⟨limit, hlimit, -⟩, ⟨lookback, hlookback, hlookback'⟩,
    ⟨period, hperiod, hperiod'⟩, ⟨minutes, hminutes, hminutes'⟩,
    ⟨htfMinutes, hhtfMinutes, hhtfMinutes'⟩, ⟨gap, hgap, hgap'⟩, ⟨age, hage, hage'⟩,
    ⟨duration, hduration, hduration'⟩, -⟩ := h
  have hcount : (lookback + 3).toInt = lookback.toInt + 3 :=
    toInt_add (by simp; omega) (by simp; omega)
  have hcount' : (period + 2).toInt = period.toInt + 2 :=
    toInt_add (by simp; omega) (by simp; omega)
  have hleast := @toInt32_of_small (lookback.toInt + 3) (by omega) (by omega)
  have hleast' := @toInt32_of_small (period.toInt + 2) (by omega) (by omega)
  refine ⟨_, by simp only [makeFvgStrategy, hstop, hlimit, hlookback, hperiod, hminutes,
    hhtfMinutes, hgap, hage, hduration]; rfl, rfl, ?_, ?_⟩
  · simp only [Strategies.makeStrategy, FvgStrategy.make, String.reduceEq, reduceIte, hcount,
      hcount', hleast, hleast']
    rw [if_neg (by omega), if_neg (by omega), if_neg (by omega), if_neg (by omega),
      if_neg (by omega), if_neg (by omega)]
    rfl
  · constructor
    · simp [hcount, hcount']
      omega
    · simp

theorem makeKeltnerFadeStrategy_starts (h : combo.Within keltnerFadeLimits) :
    Starts makeKeltnerFadeStrategy uuid combo := by
  simp only [Combination.Within, keltnerFadeLimits, exitLimits, List.cons_append, List.nil_append,
    List.forall_mem_cons, positive, natural, between, kMost, decide_eq_true_eq] at h
  obtain ⟨⟨stop, hstop, -⟩, ⟨limit, hlimit, -⟩, ⟨period, hperiod, hperiod'⟩,
    ⟨minutes, hminutes, hminutes'⟩, ⟨tenths, htenths, htenths'⟩, ⟨duration, hduration, -⟩, -⟩ := h
  have hcount : (period + 2).toInt = period.toInt + 2 :=
    toInt_add (by simp; omega) (by simp; omega)
  have hleast := @toInt32_of_small (period.toInt + 2) (by omega) (by omega)
  refine ⟨_, by simp only [makeKeltnerFadeStrategy, hstop, hlimit, hperiod, hminutes, htenths,
    hduration]; rfl, rfl, ?_, ?_⟩
  · simp only [Strategies.makeStrategy, KeltnerFadeStrategy.make, String.reduceEq, reduceIte,
      hcount, hleast]
    rw [if_neg (by omega), if_neg (by omega), if_neg (by omega)]
    rfl
  · constructor
    · simp [hcount]
      omega
    · simp

theorem makeSessionRangeBreakoutStrategy_starts (h : combo.Within sessionRangeBreakoutLimits) :
    Starts makeSessionRangeBreakoutStrategy uuid combo := by
  simp only [Combination.Within, sessionRangeBreakoutLimits, exitLimits, List.cons_append,
    List.nil_append, List.forall_mem_cons, positive, natural, between, decide_eq_true_eq] at h
  obtain ⟨⟨stop, hstop, -⟩, ⟨limit, hlimit, -⟩, ⟨minutes, hminutes, hminutes'⟩,
    ⟨window, hwindow, hwindow'⟩, ⟨buffer, hbuffer, hbuffer'⟩, ⟨duration, hduration, -⟩, -⟩ := h
  have hmost : kMost = 1000000 := rfl
  have hlatest : SessionRangeBreakoutStrategy.kLatestLondonOpen = 480 := rfl
  have hspan : (480 + window).toInt = 480 + window.toInt :=
    toInt_add (by simp; omega) (by simp; omega)
  obtain ⟨hcount, hcovers⟩ := covering (by omega : 0 ≤ (480 + window).toInt ∧ _) hminutes'
  refine ⟨_, by simp only [makeSessionRangeBreakoutStrategy, hstop, hlimit, hminutes, hwindow,
    hbuffer, hduration]; rfl, rfl, ?_, ?_⟩
  · simp only [Strategies.makeStrategy, SessionRangeBreakoutStrategy.make, String.reduceEq,
      reduceIte]
    rw [if_neg (by omega), if_neg (by omega), if_neg (by omega), if_neg (by omega)]
    rfl
  · constructor
    · rintro bars hbars
      rw [List.mem_singleton.mp hbars]
      exact ⟨Int32.le_iff_toInt_le.mpr hcount, Int32.le_iff_toInt_le.mpr (by simp; omega)⟩
    · simp

theorem makeSqueezeBreakoutStrategy_starts (h : combo.Within squeezeBreakoutLimits) :
    Starts makeSqueezeBreakoutStrategy uuid combo := by
  simp only [Combination.Within, squeezeBreakoutLimits, exitLimits, List.cons_append,
    List.nil_append, List.forall_mem_cons, positive, natural, between, decide_eq_true_eq] at h
  obtain ⟨⟨stop, hstop, -⟩, ⟨limit, hlimit, -⟩, ⟨lookback, hlookback, hlookback'⟩,
    ⟨valid, hvalid, hvalid'⟩, ⟨minutes, hminutes, hminutes'⟩,
    ⟨trendCount, htrendCount, htrendCount'⟩, ⟨trendMinutes, htrendMinutes, htrendMinutes'⟩,
    ⟨buffer, hbuffer, hbuffer'⟩, ⟨duration, hduration, hduration'⟩, -⟩ := h
  have hmost : kMost = 1000000 := rfl
  have hone : (1 : Int32).toInt = 1 := by decide
  have hpattern : (max 1 (lookback - 1)).toInt = max 1 (lookback.toInt - 1) := by
    rw [toInt_max, toInt_sub (by omega) (by omega), hone]
  have hcount : (valid + max 1 (lookback - 1) + 1).toInt =
      valid.toInt + max 1 (lookback.toInt - 1) + 1 := by
    have hadd : (valid + max 1 (lookback - 1)).toInt =
        valid.toInt + max 1 (lookback.toInt - 1) := by
      rw [toInt_add (by omega) (by omega), hpattern]
    rw [toInt_add (by omega) (by omega), hadd, hone]
  have hleast := @toInt32_of_small (valid.toInt + max 1 (lookback.toInt - 1) + 1) (by omega)
    (by omega)
  refine ⟨_, by simp only [makeSqueezeBreakoutStrategy, hstop, hlimit, hlookback, hvalid, hminutes,
    htrendCount, htrendMinutes, hbuffer, hduration]; rfl, rfl, ?_, ?_⟩
  · simp only [Strategies.makeStrategy, SqueezeBreakoutStrategy.make, String.reduceEq, reduceIte,
      hcount, hleast]
    rw [if_neg (by omega), if_neg (by omega), if_neg (by omega), if_neg (by omega),
      if_neg (by omega), if_neg (by omega), if_neg (by omega)]
    rfl
  · constructor
    · simp [hcount]
      omega
    · simp

theorem makeNyOpenRangeBreakoutStrategy_starts (h : combo.Within nyOpenRangeBreakoutLimits) :
    Starts makeNyOpenRangeBreakoutStrategy uuid combo := by
  simp only [Combination.Within, nyOpenRangeBreakoutLimits, exitLimits, List.cons_append,
    List.nil_append, List.forall_mem_cons, positive, natural, between, decide_eq_true_eq] at h
  obtain ⟨⟨stop, hstop, -⟩, ⟨limit, hlimit, -⟩, ⟨minutes, hminutes, hminutes'⟩,
    ⟨hours, hhours, hhours'⟩, ⟨window, hwindow, hwindow'⟩, ⟨buffer, hbuffer, hbuffer'⟩,
    ⟨duration, hduration, -⟩, -⟩ := h
  have hmost : kMost = 1000000 := rfl
  have hspan : (hours * 60 + window).toInt = 60 * hours.toInt + window.toInt := by
    have hmul : (hours * 60).toInt = 60 * hours.toInt := by
      have hsixty : (60 : Int32).toInt = 60 := by decide
      rw [Int32.toInt_mul, hsixty, Int.mul_comm]
      exact toInt32_of_small (by omega) (by omega)
    rw [toInt_add (by omega) (by omega), hmul]
  obtain ⟨hcount, hcovers⟩ := covering (by omega : 0 ≤ (hours * 60 + window).toInt ∧ _) hminutes'
  refine ⟨_, by simp only [makeNyOpenRangeBreakoutStrategy, hstop, hlimit, hminutes, hhours,
    hwindow, hbuffer, hduration]; rfl, rfl, ?_, ?_⟩
  · simp only [Strategies.makeStrategy, NyOpenRangeBreakoutStrategy.make, String.reduceEq,
      reduceIte]
    rw [if_neg (by omega), if_neg (by omega), if_neg (by omega), if_neg (by omega),
      if_neg (by omega), if_neg (by omega)]
    rfl
  · constructor
    · rintro bars hbars
      rw [List.mem_singleton.mp hbars]
      exact ⟨Int32.le_iff_toInt_le.mpr hcount, Int32.le_iff_toInt_le.mpr (by simp; omega)⟩
    · simp

theorem makeLiquiditySweepReversalStrategy_starts
    (h : combo.Within liquiditySweepReversalLimits) :
    Starts makeLiquiditySweepReversalStrategy uuid combo := by
  simp only [Combination.Within, liquiditySweepReversalLimits, exitLimits, List.cons_append,
    List.nil_append, List.forall_mem_cons, positive, natural, between, kMost,
    decide_eq_true_eq] at h
  obtain ⟨⟨stop, hstop, -⟩, ⟨limit, hlimit, -⟩, ⟨pivot, hpivot, hpivot'⟩,
    ⟨lookback, hlookback, hlookback'⟩, ⟨valid, hvalid, hvalid'⟩, ⟨minutes, hminutes, hminutes'⟩,
    ⟨pips, hpips, hpips'⟩, ⟨tenths, htenths, htenths'⟩, ⟨duration, hduration, hduration'⟩, -⟩ := h
  have hone : (1 : Int32).toInt = 1 := by decide
  have heleven : (11 : Int32).toInt = 11 := by decide
  have hcount : (max (lookback + pivot + 1) (valid + 11)).toInt =
      max (lookback.toInt + pivot.toInt + 1) (valid.toInt + 11) := by
    have hadd : (lookback + pivot).toInt = lookback.toInt + pivot.toInt :=
      toInt_add (by omega) (by omega)
    have hscan : (lookback + pivot + 1).toInt = lookback.toInt + pivot.toInt + 1 := by
      rw [toInt_add (by omega) (by omega), hadd, hone]
    rw [toInt_max, hscan, toInt_add (by omega) (by omega), heleven]
  have hperiod : (LiquiditySweepReversalStrategy.kAtrPeriod : ℤ) = 10 := rfl
  have hwing := @toInt32_of_small (pivot.toInt + 1) (by omega) (by omega)
  have hleast := @toInt32_of_small (lookback.toInt + pivot.toInt + 1) (by omega) (by omega)
  have hleast' := @toInt32_of_small (valid.toInt + 10 + 1) (by omega) (by omega)
  refine ⟨_, by simp only [makeLiquiditySweepReversalStrategy, hstop, hlimit, hpivot, hlookback,
    hvalid, hminutes, hpips, htenths, hduration]; rfl, rfl, ?_, ?_⟩
  · simp only [Strategies.makeStrategy, LiquiditySweepReversalStrategy.make, String.reduceEq,
      reduceIte, hcount, hperiod, hwing, hleast, hleast']
    rw [if_neg (by omega), if_neg (by omega), if_neg (by omega), if_neg (by omega),
      if_neg (by omega), if_neg (by omega), if_neg (by omega), if_neg (by omega)]
    rfl
  · constructor
    · simp [hcount]
      omega
    · simp

theorem makeRangeVelocityStrategy_starts (h : combo.Within rangeVelocityLimits) :
    Starts makeRangeVelocityStrategy uuid combo := by
  simp only [Combination.Within, rangeVelocityLimits, exitLimits, List.cons_append,
    List.nil_append, List.forall_mem_cons, positive, natural, between, kMost,
    decide_eq_true_eq] at h
  obtain ⟨⟨stop, hstop, -⟩, ⟨limit, hlimit, -⟩, ⟨run, hrun, hrun'⟩, ⟨speed, hspeed, hspeed'⟩,
    ⟨exit, hexit, hexit'⟩, ⟨ticks, hticks, hticks'⟩, ⟨percent, hpercent, hpercent'⟩,
    ⟨ratio, hratio, hratio'⟩, ⟨duration, hduration, hduration'⟩, -⟩ := h
  have htwo : (2 : Int32).toInt = 2 := by decide
  have hcount : (max (run + speed) exit + 2).toInt =
      max (run.toInt + speed.toInt) exit.toInt + 2 := by
    have hmax : (max (run + speed) exit).toInt = max (run.toInt + speed.toInt) exit.toInt := by
      rw [toInt_max, toInt_add (by omega) (by omega)]
    rw [toInt_add (by omega) (by omega), hmax, htwo]
  have hleast := @toInt32_of_small (run.toInt + speed.toInt) (by omega) (by omega)
  refine ⟨_, by simp only [makeRangeVelocityStrategy, hstop, hlimit, hrun, hspeed, hexit, hticks,
    hpercent, hratio, hduration]; rfl, rfl, ?_, ?_⟩
  · simp only [Strategies.makeStrategy, RangeVelocityStrategy.make, String.reduceEq, reduceIte,
      hcount, hleast]
    rw [if_neg (by omega), if_neg (by omega), if_neg (by omega), if_neg (by omega),
      if_neg (by omega), if_neg (by omega), if_neg (by omega)]
    rfl
  · constructor
    · simp
    · simp [hcount]
      omega

end Factories

end Sweep

end BacktestEngine
