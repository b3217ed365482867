import BacktestEngine.Models.Json

/-! # Configurations and their JSON

A run descriptor, a strategy, and the configuration that a worker puts together from
both. Keys that payloads of an older date do not have are read as defaults.
-/

namespace BacktestEngine.TradingDefinitions

open JsonValue

structure TradingVariables where
  strategy : String
  stopDistanceInAtr : Int32 := 0
  limitDistanceInAtr : Int32 := 0
  tradingSize : Int32 := 0

structure OHLCVariables where
  ohlcCount : Int32 := 0
  ohlcMinutes : Int32 := 0

structure RangeBarVariables where
  rangeAtrTickWindow : Int32 := 0
  rangeAtrPercent : Int32 := 0
  rangeCount : Int32 := 0

structure OHLCRSIVariables where
  rsiLong : Int32
  rsiShort : Int32

structure OHLCBreakoutVariables where
  bufferPips : Int32 := 0
  maxTradeDurationMinutes : Int32 := 0

structure FVGStrategyVariables where
  lookbackBars : Int32 := 0
  minGapPips : Int32 := 0
  htfSmaPeriod : Int32 := 0
  minGapAgeBars : Int32 := 0
  maxTradeDurationMinutes : Int32 := 0

structure KeltnerFadeVariables where
  bandSmaPeriod : Int32 := 0
  bandAtrMultTenths : Int32 := 0
  maxTradeDurationMinutes : Int32 := 0

structure SessionRangeBreakoutVariables where
  bufferPips : Int32 := 0
  entryWindowMinutes : Int32 := 0
  maxTradeDurationMinutes : Int32 := 0

structure SqueezeBreakoutVariables where
  nrLookback : Int32 := 0
  validBars : Int32 := 0
  bufferPips : Int32 := 0
  maxTradeDurationMinutes : Int32 := 0

structure NyOpenRangeBreakoutVariables where
  rangeHours : Int32 := 0
  bufferPips : Int32 := 0
  entryWindowMinutes : Int32 := 0
  maxTradeDurationMinutes : Int32 := 0

structure LiquiditySweepReversalVariables where
  pivotBars : Int32 := 0
  lookbackBars : Int32 := 0
  minSweepPips : Int32 := 0
  displacementAtrTenths : Int32 := 0
  validBars : Int32 := 0
  maxTradeDurationMinutes : Int32 := 0

structure RangeVelocityVariables where
  runBars : Int32 := 0
  speedLookbackBars : Int32 := 0
  speedRatioPercent : Int32 := 0
  exitRunBars : Int32 := 0
  maxTradeDurationMinutes : Int32 := 0

structure StrategyVariables where
  ohlcRsiVariables : Option OHLCRSIVariables := none
  ohlcBreakoutVariables : Option OHLCBreakoutVariables := none
  fvgStrategyVariables : Option FVGStrategyVariables := none
  keltnerFadeVariables : Option KeltnerFadeVariables := none
  sessionRangeBreakoutVariables : Option SessionRangeBreakoutVariables := none
  squeezeBreakoutVariables : Option SqueezeBreakoutVariables := none
  nyOpenRangeBreakoutVariables : Option NyOpenRangeBreakoutVariables := none
  liquiditySweepReversalVariables : Option LiquiditySweepReversalVariables := none
  rangeVelocityVariables : Option RangeVelocityVariables := none

structure StrategyConfig where
  uuid : String
  tradingVariables : TradingVariables
  ohlcVariables : List OHLCVariables
  rangeVariables : List RangeBarVariables
  strategyVariables : StrategyVariables

/-- The balance is whole, so that every decimal type has it. -/
def defaultStartingBalance : ℕ := 10000

structure RunConfiguration (D : Type) where
  runId : String
  symbols : String
  batch : String
  executionTs : String
  lastMonths : Int32
  offsetMonths : Int32
  startingBalance : D
  maxLossPercent : D
  maxOpenTrades : Int32
  maxTradesPerMinute : Int32
  reportFailures : Bool
  peakHoursOnly : Bool
  entrySlippageTenthPips : Int32

/-- What `RunConfiguration{}` holds. -/
def RunConfiguration.defaults {D : Type} [NatCast D] : RunConfiguration D where
  runId := ""
  symbols := ""
  batch := ""
  executionTs := ""
  lastMonths := 0
  offsetMonths := 0
  startingBalance := (defaultStartingBalance : D)
  maxLossPercent := ((0 : ℕ) : D)
  maxOpenTrades := 0
  maxTradesPerMinute := 60
  reportFailures := true
  peakHoursOnly := false
  entrySlippageTenthPips := 0

structure Configuration (D : Type) extends RunConfiguration D where
  strategy : StrategyConfig

/-! ## Serializers -/

/-- An integer from a number or from its text. -/
def readIntField (j : JsonValue) : Except JsonError Int32 := do
  let value ←
    match j with
    | .string s =>
      match Binary64.stod s with
      | .ok value => pure value
      | .error error => throw (.stod error)
    | j => j.getDouble
  match value with
  | .finite q =>
    if q < -2 ^ 31 ∨ 2 ^ 31 - 1 < q then
      throw (.invalidArgument "TradingVariables: integer field out of range: " j)
    else pure (Int32.ofInt (Binary64.lround q))
  | _ => throw (.invalidArgument "TradingVariables: integer field out of range: " j)

instance : Serializer TradingVariables where
  toJson v := .ok (object [
    ("STRATEGY", .string v.strategy),
    ("STOP_DISTANCE_IN_ATR", .string (toString v.stopDistanceInAtr.toInt)),
    ("LIMIT_DISTANCE_IN_ATR", .string (toString v.limitDistanceInAtr.toInt)),
    ("TRADING_SIZE", .string (toString v.tradingSize.toInt))])
  fromJson j := do
    let strategy ← fromJson (← j.atKey "STRATEGY")
    let stopDistanceInAtr ← readIntField (← j.atKey "STOP_DISTANCE_IN_ATR")
    let limitDistanceInAtr ← readIntField (← j.atKey "LIMIT_DISTANCE_IN_ATR")
    let tradingSize ← readIntField (← j.atKey "TRADING_SIZE")
    pure { strategy, stopDistanceInAtr, limitDistanceInAtr, tradingSize }

/-- An integer, as JSON has it. -/
def ofInt (n : Int32) : JsonValue := .integer n.toInt

instance : Serializer OHLCVariables where
  toJson v := .ok (object [
    ("OHLC_COUNT", ofInt v.ohlcCount),
    ("OHLC_MINUTES", ofInt v.ohlcMinutes)])
  fromJson j := do
    let ohlcCount ← fromJson (← j.atKey "OHLC_COUNT")
    let ohlcMinutes ← fromJson (← j.atKey "OHLC_MINUTES")
    if ohlcCount < 0 ∨ ohlcMinutes < 0 then
      throw (.invalidArgument "OHLCVariables: OHLC_COUNT/OHLC_MINUTES must be >= 0, got " j)
    else pure { ohlcCount, ohlcMinutes }

instance : Serializer RangeBarVariables where
  toJson v := .ok (object [
    ("RANGE_ATR_TICK_WINDOW", ofInt v.rangeAtrTickWindow),
    ("RANGE_ATR_PERCENT", ofInt v.rangeAtrPercent),
    ("RANGE_COUNT", ofInt v.rangeCount)])
  fromJson j := do
    let rangeAtrTickWindow ← fromJson (← j.atKey "RANGE_ATR_TICK_WINDOW")
    let rangeAtrPercent ← fromJson (← j.atKey "RANGE_ATR_PERCENT")
    let rangeCount ← fromJson (← j.atKey "RANGE_COUNT")
    if rangeAtrTickWindow < 0 ∨ rangeAtrPercent < 0 ∨ rangeCount < 0 then
      throw (.invalidArgument "RangeBarVariables: all fields must be >= 0, got " j)
    else pure { rangeAtrTickWindow, rangeAtrPercent, rangeCount }

instance : Serializer OHLCRSIVariables where
  toJson v := .ok (object [("RSI_LONG", ofInt v.rsiLong), ("RSI_SHORT", ofInt v.rsiShort)])
  fromJson j := do
    let rsiLong ← fromJson (← j.atKey "RSI_LONG")
    let rsiShort ← fromJson (← j.atKey "RSI_SHORT")
    pure { rsiLong, rsiShort }

instance : Serializer OHLCBreakoutVariables where
  toJson v := .ok (object [
    ("BUFFER_PIPS", ofInt v.bufferPips),
    ("MAX_TRADE_DURATION_MINUTES", ofInt v.maxTradeDurationMinutes)])
  fromJson j := do
    let bufferPips ← j.value "BUFFER_PIPS" 0
    let maxTradeDurationMinutes ← j.value "MAX_TRADE_DURATION_MINUTES" 0
    pure { bufferPips, maxTradeDurationMinutes }

instance : Serializer FVGStrategyVariables where
  toJson v := .ok (object [
    ("LOOKBACK_BARS", ofInt v.lookbackBars),
    ("MIN_GAP_PIPS", ofInt v.minGapPips),
    ("HTF_SMA_PERIOD", ofInt v.htfSmaPeriod),
    ("MIN_GAP_AGE_BARS", ofInt v.minGapAgeBars),
    ("MAX_TRADE_DURATION_MINUTES", ofInt v.maxTradeDurationMinutes)])
  fromJson j := do
    let lookbackBars ← j.value "LOOKBACK_BARS" 0
    let minGapPips ← j.value "MIN_GAP_PIPS" 0
    let htfSmaPeriod ← j.value "HTF_SMA_PERIOD" 0
    let minGapAgeBars ← j.value "MIN_GAP_AGE_BARS" 0
    let maxTradeDurationMinutes ← j.value "MAX_TRADE_DURATION_MINUTES" 0
    pure { lookbackBars, minGapPips, htfSmaPeriod, minGapAgeBars, maxTradeDurationMinutes }

instance : Serializer KeltnerFadeVariables where
  toJson v := .ok (object [
    ("BAND_SMA_PERIOD", ofInt v.bandSmaPeriod),
    ("BAND_ATR_MULT_TENTHS", ofInt v.bandAtrMultTenths),
    ("MAX_TRADE_DURATION_MINUTES", ofInt v.maxTradeDurationMinutes)])
  fromJson j := do
    let bandSmaPeriod ← j.value "BAND_SMA_PERIOD" 0
    let bandAtrMultTenths ← j.value "BAND_ATR_MULT_TENTHS" 0
    let maxTradeDurationMinutes ← j.value "MAX_TRADE_DURATION_MINUTES" 0
    pure { bandSmaPeriod, bandAtrMultTenths, maxTradeDurationMinutes }

instance : Serializer SessionRangeBreakoutVariables where
  toJson v := .ok (object [
    ("BUFFER_PIPS", ofInt v.bufferPips),
    ("ENTRY_WINDOW_MINUTES", ofInt v.entryWindowMinutes),
    ("MAX_TRADE_DURATION_MINUTES", ofInt v.maxTradeDurationMinutes)])
  fromJson j := do
    let bufferPips ← j.value "BUFFER_PIPS" 0
    let entryWindowMinutes ← j.value "ENTRY_WINDOW_MINUTES" 0
    let maxTradeDurationMinutes ← j.value "MAX_TRADE_DURATION_MINUTES" 0
    pure { bufferPips, entryWindowMinutes, maxTradeDurationMinutes }

instance : Serializer SqueezeBreakoutVariables where
  toJson v := .ok (object [
    ("NR_LOOKBACK", ofInt v.nrLookback),
    ("VALID_BARS", ofInt v.validBars),
    ("BUFFER_PIPS", ofInt v.bufferPips),
    ("MAX_TRADE_DURATION_MINUTES", ofInt v.maxTradeDurationMinutes)])
  fromJson j := do
    let nrLookback ← j.value "NR_LOOKBACK" 0
    let validBars ← j.value "VALID_BARS" 0
    let bufferPips ← j.value "BUFFER_PIPS" 0
    let maxTradeDurationMinutes ← j.value "MAX_TRADE_DURATION_MINUTES" 0
    pure { nrLookback, validBars, bufferPips, maxTradeDurationMinutes }

instance : Serializer NyOpenRangeBreakoutVariables where
  toJson v := .ok (object [
    ("RANGE_HOURS", ofInt v.rangeHours),
    ("BUFFER_PIPS", ofInt v.bufferPips),
    ("ENTRY_WINDOW_MINUTES", ofInt v.entryWindowMinutes),
    ("MAX_TRADE_DURATION_MINUTES", ofInt v.maxTradeDurationMinutes)])
  fromJson j := do
    let rangeHours ← j.value "RANGE_HOURS" 0
    let bufferPips ← j.value "BUFFER_PIPS" 0
    let entryWindowMinutes ← j.value "ENTRY_WINDOW_MINUTES" 0
    let maxTradeDurationMinutes ← j.value "MAX_TRADE_DURATION_MINUTES" 0
    pure { rangeHours, bufferPips, entryWindowMinutes, maxTradeDurationMinutes }

instance : Serializer LiquiditySweepReversalVariables where
  toJson v := .ok (object [
    ("PIVOT_BARS", ofInt v.pivotBars),
    ("LOOKBACK_BARS", ofInt v.lookbackBars),
    ("MIN_SWEEP_PIPS", ofInt v.minSweepPips),
    ("DISPLACEMENT_ATR_TENTHS", ofInt v.displacementAtrTenths),
    ("VALID_BARS", ofInt v.validBars),
    ("MAX_TRADE_DURATION_MINUTES", ofInt v.maxTradeDurationMinutes)])
  fromJson j := do
    let pivotBars ← j.value "PIVOT_BARS" 0
    let lookbackBars ← j.value "LOOKBACK_BARS" 0
    let minSweepPips ← j.value "MIN_SWEEP_PIPS" 0
    let displacementAtrTenths ← j.value "DISPLACEMENT_ATR_TENTHS" 0
    let validBars ← j.value "VALID_BARS" 0
    let maxTradeDurationMinutes ← j.value "MAX_TRADE_DURATION_MINUTES" 0
    pure { pivotBars, lookbackBars, minSweepPips, displacementAtrTenths, validBars,
           maxTradeDurationMinutes }

instance : Serializer RangeVelocityVariables where
  toJson v := .ok (object [
    ("RUN_BARS", ofInt v.runBars),
    ("SPEED_LOOKBACK_BARS", ofInt v.speedLookbackBars),
    ("SPEED_RATIO_PERCENT", ofInt v.speedRatioPercent),
    ("EXIT_RUN_BARS", ofInt v.exitRunBars),
    ("MAX_TRADE_DURATION_MINUTES", ofInt v.maxTradeDurationMinutes)])
  fromJson j := do
    let runBars ← j.value "RUN_BARS" 0
    let speedLookbackBars ← j.value "SPEED_LOOKBACK_BARS" 0
    let speedRatioPercent ← j.value "SPEED_RATIO_PERCENT" 0
    let exitRunBars ← j.value "EXIT_RUN_BARS" 0
    let maxTradeDurationMinutes ← j.value "MAX_TRADE_DURATION_MINUTES" 0
    pure { runBars, speedLookbackBars, speedRatioPercent, exitRunBars, maxTradeDurationMinutes }

section Groups

variable {α : Type} [Serializer α]

/-- An absent group is written as null. -/
def groupToJson : Option α → Except JsonError JsonValue
  | some v => toJson v
  | none => .ok .null

/-- A group that is absent or null. -/
def groupFromJson (j : JsonValue) (key : String) : Except JsonError (Option α) :=
  match j.find key with
  | none => .ok none
  | some value => if value.isNull then .ok none else (fromJson value).map some

end Groups

instance : Serializer StrategyVariables where
  toJson s := do pure (object [
    ("OHLC_RSI_VARIABLES", ← groupToJson s.ohlcRsiVariables),
    ("OHLC_BREAKOUT_VARIABLES", ← groupToJson s.ohlcBreakoutVariables),
    ("FVG_STRATEGY_VARIABLES", ← groupToJson s.fvgStrategyVariables),
    ("KELTNER_FADE_VARIABLES", ← groupToJson s.keltnerFadeVariables),
    ("SESSION_RANGE_BREAKOUT_VARIABLES", ← groupToJson s.sessionRangeBreakoutVariables),
    ("SQUEEZE_BREAKOUT_VARIABLES", ← groupToJson s.squeezeBreakoutVariables),
    ("NY_OPEN_RANGE_BREAKOUT_VARIABLES", ← groupToJson s.nyOpenRangeBreakoutVariables),
    ("LIQUIDITY_SWEEP_REVERSAL_VARIABLES", ← groupToJson s.liquiditySweepReversalVariables),
    ("RANGE_VELOCITY_VARIABLES", ← groupToJson s.rangeVelocityVariables)])
  fromJson j := do
    let ohlcRsiVariables ← groupFromJson j "OHLC_RSI_VARIABLES"
    let ohlcBreakoutVariables ← groupFromJson j "OHLC_BREAKOUT_VARIABLES"
    let fvgStrategyVariables ← groupFromJson j "FVG_STRATEGY_VARIABLES"
    let keltnerFadeVariables ← groupFromJson j "KELTNER_FADE_VARIABLES"
    let sessionRangeBreakoutVariables ← groupFromJson j "SESSION_RANGE_BREAKOUT_VARIABLES"
    let squeezeBreakoutVariables ← groupFromJson j "SQUEEZE_BREAKOUT_VARIABLES"
    let nyOpenRangeBreakoutVariables ← groupFromJson j "NY_OPEN_RANGE_BREAKOUT_VARIABLES"
    let liquiditySweepReversalVariables ← groupFromJson j "LIQUIDITY_SWEEP_REVERSAL_VARIABLES"
    let rangeVelocityVariables ← groupFromJson j "RANGE_VELOCITY_VARIABLES"
    pure { ohlcRsiVariables, ohlcBreakoutVariables, fvgStrategyVariables, keltnerFadeVariables,
           sessionRangeBreakoutVariables, squeezeBreakoutVariables, nyOpenRangeBreakoutVariables,
           liquiditySweepReversalVariables, rangeVelocityVariables }

def strategyToJson (c : StrategyConfig) : Except JsonError JsonValue := do
  pure (object [
    ("UUID", .string c.uuid),
    ("TRADING_VARIABLES", ← toJson c.tradingVariables),
    ("OHLC_VARIABLES", ← toJson c.ohlcVariables),
    ("RANGE_VARIABLES", ← toJson c.rangeVariables),
    ("STRATEGY_VARIABLES", ← toJson c.strategyVariables)])

def strategyFromJson (j : JsonValue) : Except JsonError StrategyConfig := do
  let uuid ← fromJson (← j.atKey "UUID")
  let tradingVariables ← fromJson (← j.atKey "TRADING_VARIABLES")
  let ohlcVariables ← fromJson (← j.atKey "OHLC_VARIABLES")
  let rangeVariables ← j.value "RANGE_VARIABLES" []
  let strategyVariables ← fromJson (← j.atKey "STRATEGY_VARIABLES")
  pure { uuid, tradingVariables, ohlcVariables, rangeVariables, strategyVariables }

instance : Serializer StrategyConfig where
  toJson := strategyToJson
  fromJson := strategyFromJson

section Run

variable {D : Type} [DecimalText D]

def runToJson (c : RunConfiguration D) : Except JsonError JsonValue := do
  pure (object [
    ("RUN_ID", .string c.runId),
    ("SYMBOLS", .string c.symbols),
    ("BATCH", .string c.batch),
    ("EXECUTION_TS", .string c.executionTs),
    ("LAST_MONTHS", ofInt c.lastMonths),
    ("OFFSET_MONTHS", ofInt c.offsetMonths),
    ("STARTING_BALANCE", ← toJson c.startingBalance),
    ("MAX_LOSS_PERCENT", ← toJson c.maxLossPercent),
    ("MAX_OPEN_TRADES", ofInt c.maxOpenTrades),
    ("MAX_TRADES_PER_MINUTE", ofInt c.maxTradesPerMinute),
    ("REPORT_FAILURES", .boolean c.reportFailures),
    ("PEAK_HOURS_ONLY", .boolean c.peakHoursOnly),
    ("ENTRY_SLIPPAGE_TENTH_PIPS", ofInt c.entrySlippageTenthPips)])

def runFromJson [NatCast D] (j : JsonValue) : Except JsonError (RunConfiguration D) := do
  let runId ← fromJson (← j.atKey "RUN_ID")
  let symbols ← fromJson (← j.atKey "SYMBOLS")
  let lastMonths ← fromJson (← j.atKey "LAST_MONTHS")
  let defaults : RunConfiguration D := .defaults
  let batch ← j.value "BATCH" defaults.batch
  let executionTs ← j.value "EXECUTION_TS" defaults.executionTs
  let offsetMonths ← j.value "OFFSET_MONTHS" defaults.offsetMonths
  let startingBalance ← j.value "STARTING_BALANCE" defaults.startingBalance
  let maxLossPercent ← j.value "MAX_LOSS_PERCENT" defaults.maxLossPercent
  let maxOpenTrades ← j.value "MAX_OPEN_TRADES" defaults.maxOpenTrades
  let maxTradesPerMinute ← j.value "MAX_TRADES_PER_MINUTE" defaults.maxTradesPerMinute
  let reportFailures ← j.value "REPORT_FAILURES" defaults.reportFailures
  let peakHoursOnly ← j.value "PEAK_HOURS_ONLY" defaults.peakHoursOnly
  let entrySlippageTenthPips ←
    j.value "ENTRY_SLIPPAGE_TENTH_PIPS" defaults.entrySlippageTenthPips
  pure { runId, symbols, batch, executionTs, lastMonths, offsetMonths, startingBalance,
         maxLossPercent, maxOpenTrades, maxTradesPerMinute, reportFailures, peakHoursOnly,
         entrySlippageTenthPips }

instance [NatCast D] : Serializer (RunConfiguration D) where
  toJson := runToJson
  fromJson := runFromJson

end Run

/-! ## What is written is read back -/

theorem readIntField_toString (n : Int32) :
    readIntField (.string (toString n.toInt)) = .ok n := by
  have hlow := n.le_toInt
  have hhigh := n.toInt_lt
  have hstod : Binary64.stod (toString n.toInt) = .ok (.finite n.toInt) :=
    Binary64.stod_toString (by omega)
  have hrange : ¬ ((n.toInt : ℚ) < -2 ^ 31 ∨ (2 : ℚ) ^ 31 - 1 < n.toInt) := by
    rintro (h | h)
    · have : n.toInt < -2 ^ 31 := by exact_mod_cast h
      omega
    · have : (2 : ℤ) ^ 31 - 1 < n.toInt := by exact_mod_cast h
      omega
  unfold readIntField
  simp only [hstod]
  change (if _ then _ else _) = _
  rw [if_neg hrange, Binary64.lround_intCast, Int32.ofInt_toInt]
  rfl

section Records

attribute [local simp] fromJson atKey JsonValue.value find List.lookup_cons getString getInt
  getBoolean ofInt Bind.bind Except.bind Pure.pure Except.pure

theorem readsBack_tradingVariables (v : TradingVariables) : ReadsBack v := by
  refine ⟨_, rfl, ?_⟩
  simp [-Int.toString_eq_repr, readIntField_toString]

theorem readsBack_ohlcVariables {v : OHLCVariables} (hcount : 0 ≤ v.ohlcCount)
    (hminutes : 0 ≤ v.ohlcMinutes) : ReadsBack v := by
  refine ⟨_, rfl, ?_⟩
  simp [hcount, hminutes]

theorem readsBack_rangeBarVariables {v : RangeBarVariables} (hwindow : 0 ≤ v.rangeAtrTickWindow)
    (hpercent : 0 ≤ v.rangeAtrPercent) (hcount : 0 ≤ v.rangeCount) : ReadsBack v := by
  refine ⟨_, rfl, ?_⟩
  simp [hwindow, hpercent, hcount]

/-- A value is written as an object, so never as null, and read back. -/
def ReadsBackObject {α : Type} [Serializer α] (a : α) : Prop :=
  ∃ entries, toJson a = .ok (object entries) ∧ fromJson (object entries) = .ok a

theorem readsBack_ohlcRsiVariables (v : OHLCRSIVariables) : ReadsBackObject v :=
  ⟨_, rfl, by simp⟩

theorem readsBack_ohlcBreakoutVariables (v : OHLCBreakoutVariables) : ReadsBackObject v :=
  ⟨_, rfl, by simp⟩

theorem readsBack_fvgStrategyVariables (v : FVGStrategyVariables) : ReadsBackObject v :=
  ⟨_, rfl, by simp⟩

theorem readsBack_keltnerFadeVariables (v : KeltnerFadeVariables) : ReadsBackObject v :=
  ⟨_, rfl, by simp⟩

theorem readsBack_sessionRangeBreakoutVariables (v : SessionRangeBreakoutVariables) :
    ReadsBackObject v :=
  ⟨_, rfl, by simp⟩

theorem readsBack_squeezeBreakoutVariables (v : SqueezeBreakoutVariables) : ReadsBackObject v :=
  ⟨_, rfl, by simp⟩

theorem readsBack_nyOpenRangeBreakoutVariables (v : NyOpenRangeBreakoutVariables) :
    ReadsBackObject v :=
  ⟨_, rfl, by simp⟩

theorem readsBack_liquiditySweepReversalVariables (v : LiquiditySweepReversalVariables) :
    ReadsBackObject v :=
  ⟨_, rfl, by simp⟩

theorem readsBack_rangeVelocityVariables (v : RangeVelocityVariables) : ReadsBackObject v :=
  ⟨_, rfl, by simp⟩

end Records

/-- A group is read back wherever it is found, absent or not. -/
theorem readsBack_group {α : Type} [Serializer α] (group : Option α)
    (h : ∀ v : α, ReadsBackObject v) :
    ∃ j, groupToJson group = .ok j ∧ ∀ entries key, entries.lookup key = some j →
      groupFromJson (object entries) key = .ok group := by
  cases group with
  | none =>
    refine ⟨.null, rfl, ?_⟩
    intro entries key hkey
    simp only [groupFromJson, find, hkey]
    rfl
  | some v =>
    obtain ⟨inner, hto, hfrom⟩ := h v
    refine ⟨object inner, hto, ?_⟩
    intro entries key hkey
    simp only [groupFromJson, find, hkey, hfrom]
    rfl

theorem readsBack_strategyVariables (s : StrategyVariables) : ReadsBack s := by
  obtain ⟨j1, hto1, hfrom1⟩ :=
    readsBack_group s.ohlcRsiVariables readsBack_ohlcRsiVariables
  obtain ⟨j2, hto2, hfrom2⟩ :=
    readsBack_group s.ohlcBreakoutVariables readsBack_ohlcBreakoutVariables
  obtain ⟨j3, hto3, hfrom3⟩ :=
    readsBack_group s.fvgStrategyVariables readsBack_fvgStrategyVariables
  obtain ⟨j4, hto4, hfrom4⟩ :=
    readsBack_group s.keltnerFadeVariables readsBack_keltnerFadeVariables
  obtain ⟨j5, hto5, hfrom5⟩ :=
    readsBack_group s.sessionRangeBreakoutVariables readsBack_sessionRangeBreakoutVariables
  obtain ⟨j6, hto6, hfrom6⟩ :=
    readsBack_group s.squeezeBreakoutVariables readsBack_squeezeBreakoutVariables
  obtain ⟨j7, hto7, hfrom7⟩ :=
    readsBack_group s.nyOpenRangeBreakoutVariables readsBack_nyOpenRangeBreakoutVariables
  obtain ⟨j8, hto8, hfrom8⟩ :=
    readsBack_group s.liquiditySweepReversalVariables readsBack_liquiditySweepReversalVariables
  obtain ⟨j9, hto9, hfrom9⟩ :=
    readsBack_group s.rangeVelocityVariables readsBack_rangeVelocityVariables
  refine ⟨_, by simp only [toJson, hto1, hto2, hto3, hto4, hto5, hto6, hto7, hto8, hto9]; rfl, ?_⟩
  simp (disch := simp [List.lookup_cons]) only [fromJson, hfrom1, hfrom2, hfrom3, hfrom4, hfrom5,
    hfrom6, hfrom7, hfrom8, hfrom9]
  rfl

/-! ## Whole configurations -/

/-- The bar counts and lengths are not negative; zero is the mark of a feed that is not used. -/
structure StrategyConfig.BarsNonnegative (c : StrategyConfig) : Prop where
  ohlc : ∀ v ∈ c.ohlcVariables, 0 ≤ v.ohlcCount ∧ 0 ≤ v.ohlcMinutes
  range : ∀ v ∈ c.rangeVariables,
    0 ≤ v.rangeAtrTickWindow ∧ 0 ≤ v.rangeAtrPercent ∧ 0 ≤ v.rangeCount

/-! Reading an object comes down to reading what its keys hold. -/

section Objects

attribute [local simp] atKey JsonValue.value find List.lookup_cons Bind.bind Except.bind Pure.pure
  Except.pure

theorem fromJson_string (s : String) : fromJson (string s) = .ok s := rfl

theorem fromJson_boolean (b : Bool) : fromJson (boolean b) = .ok b := rfl

theorem fromJson_ofInt (n : Int32) : fromJson (ofInt n) = .ok n :=
  congrArg Except.ok (Int32.ofInt_toInt n)

theorem readsBack_strategyConfig {c : StrategyConfig} (h : c.BarsNonnegative) : ReadsBack c := by
  obtain ⟨jt, htot, hfromt⟩ := readsBack_tradingVariables c.tradingVariables
  obtain ⟨jo, htoo, hfromo⟩ := readsBack_list fun v hv =>
    readsBack_ohlcVariables (h.ohlc v hv).1 (h.ohlc v hv).2
  obtain ⟨jr, htor, hfromr⟩ := readsBack_list fun v hv =>
    readsBack_rangeBarVariables (h.range v hv).1 (h.range v hv).2.1 (h.range v hv).2.2
  obtain ⟨js, htos, hfroms⟩ := readsBack_strategyVariables c.strategyVariables
  refine ⟨object [("UUID", .string c.uuid), ("TRADING_VARIABLES", jt), ("OHLC_VARIABLES", jo),
    ("RANGE_VARIABLES", jr), ("STRATEGY_VARIABLES", js)], ?_, ?_⟩
  · change strategyToJson c = _
    simp only [strategyToJson, htot, htoo, htor, htos]
    rfl
  · change strategyFromJson _ = _
    simp [strategyFromJson, fromJson_string, hfromt, hfromo, hfromr, hfroms]

theorem readsBack_runConfiguration {D : Type} [NatCast D] [DecimalText D]
    (h : DecimalText.RoundTrips D) (c : RunConfiguration D) : ReadsBack c := by
  obtain ⟨jb, htob, hfromb⟩ := readsBack_decimal h c.startingBalance
  obtain ⟨jl, htol, hfroml⟩ := readsBack_decimal h c.maxLossPercent
  refine ⟨_, by change runToJson c = _; simp only [runToJson, htob, htol]; rfl, ?_⟩
  change runFromJson _ = _
  simp [runFromJson, fromJson_string, fromJson_boolean, fromJson_ofInt, hfromb, hfroml]

end Objects

end BacktestEngine.TradingDefinitions
