import Mathlib.Data.Rat.Floor
import BacktestEngine.Load.StrategyConfigs
import BacktestEngine.Load.SymbolGroups
import BacktestEngine.Queue.Ladder

/-! # What a load queues

The name of a sweep selects its grid, the symbols that it is run over, and the factory that makes
its strategies. Every combination of every grid makes a strategy that can be run, whatever window of
the ladder it has come to.
-/

namespace BacktestEngine

namespace Sweep

/-! ## The sweeps -/

/-- The values of the loop, of at most the given number. -/
def linearLoop (step stop : ℚ) : ℕ → ℚ → List ℚ
  | 0, _ => []
  | n + 1, value =>
    if value ≤ stop + 1 / 10 ^ 9 then value :: linearLoop step stop n (value + step) else []

/-- A step that does not advance gives the start. -/
def linearRange (start step stop : ℚ) : ParameterRange ℚ :=
  if step ≤ 0 then ⟨[start]⟩
  else ⟨linearLoop step stop (⌈(stop + 1 / 10 ^ 9 - start) / step⌉₊ + 1) start⟩

/-- The loop ends before its number of values does. -/
theorem linearLoop_of_lt {step stop value : ℚ} {n : ℕ}
    (h : stop + 1 / 10 ^ 9 < value + n * step) (more : ℕ) :
    linearLoop step stop (n + more) value = linearLoop step stop n value := by
  induction n generalizing value with
  | zero =>
    rw [Nat.cast_zero, zero_mul, add_zero] at h
    cases more with
    | zero => rfl
    | succ more => simpa [linearLoop] using h
  | succ n ih =>
    have hnext : stop + 1 / 10 ^ 9 < value + step + n * step := by
      push_cast at h
      linarith
    rw [Nat.succ_add_eq_add_succ, Nat.add_succ, linearLoop, linearLoop, ih hnext]

/-- A grid, and the symbols that it is meant for. None means all of them. -/
structure SweepBuilder extends ParameterGenerator ℚ where
  symbolGroups : List String

/-- Every symbol of the groups is in the table of scales. -/
def allSymbolsKnown (groups : List String) : Bool :=
  groups.all fun group => (SymbolGroups.splitSymbols group.toList).all fun symbol =>
    SymbolScale.get (String.ofList symbol) != SymbolScale.kUnknown

def kSymbolGroups : List String :=
  ["AUDUSD", "EURUSD", "GBRIDXGBP", "GBPUSD", "NZDUSD", "USDJPY", "GBPJPY", "EURJPY", "USDCAD",
    "FRAIDXEUR", "EURGBP", "USA500IDXUSD", "AUSIDXAUD", "USDCHF", "XAUUSD", "XAGUSD",
    "USATECHIDXUSD", "EURCHF", "DEUIDXEUR", "USA30IDXUSD", "LIGHTCMDUSD", "JPNIDXJPY",
    "BRENTCMDUSD", "AUDNZD", "EURAUD", "HKGIDXHKD", "COPPERCMDUSD", "USDSEK", "EURNOK"]

/-- The groups of the fair value gaps, and of three other families. -/
def kFvgSymbolGroupsOverride : List String :=
  ["AUDUSD", "EURUSD", "GBRIDXGBP", "GBPUSD", "USDJPY", "GBPJPY", "EURJPY", "USDCAD", "FRAIDXEUR",
    "USA500IDXUSD", "AUSIDXAUD", "XAUUSD", "XAGUSD", "USATECHIDXUSD", "DEUIDXEUR", "USA30IDXUSD",
    "LIGHTCMDUSD", "JPNIDXJPY", "BRENTCMDUSD", "EURAUD", "HKGIDXHKD", "USDSEK"]

def kOhlcBreakoutSymbolGroupsOverride : List String := kFvgSymbolGroupsOverride

def kSqueezeBreakoutSymbolGroupsOverride : List String := kFvgSymbolGroupsOverride

def kLiquiditySweepReversalSymbolGroupsOverride : List String := kFvgSymbolGroupsOverride

def kKeltnerFadeSymbolGroupsOverride : List String :=
  ["EURGBP", "EURCHF", "AUDNZD", "USDCHF", "EURNOK", "USDSEK", "EURUSD"]

def kSessionRangeBreakoutSymbolGroupsOverride : List String :=
  ["DEUIDXEUR", "FRAIDXEUR", "GBRIDXGBP"]

def kNyOpenRangeBreakoutSymbolGroupsOverride : List String :=
  ["USA500IDXUSD", "USATECHIDXUSD", "XAUUSD"]

def kRangeVelocitySymbolGroupsOverride : List String :=
  ["USA500IDXUSD", "USATECHIDXUSD", "USA30IDXUSD", "DEUIDXEUR", "FRAIDXEUR", "GBRIDXGBP",
    "JPNIDXJPY", "AUSIDXAUD", "HKGIDXHKD", "XAUUSD", "XAGUSD"]

def resolveSymbolGroups (sweepGroups : List String) : List String :=
  if sweepGroups = [] then kSymbolGroups else sweepGroups

/-- Its groups are all the symbols, in the order of the default. -/
def buildRandomStrategySweep : SweepBuilder where
  ranges := [
    ("STOP_DISTANCE_IN_ATR", explicitRange [1, 2]),
    ("LIMIT_DISTANCE_IN_ATR", linearRange 3 2 9)]
  symbolGroups := kSymbolGroups

def buildOhlcBreakoutStrategySweep : SweepBuilder where
  ranges := [
    ("BREAKOUT_OHLC_MINUTES", explicitRange [5, 10, 15, 30, 50]),
    ("BREAKOUT_OHLC_COUNT", explicitRange [5, 10, 20, 35, 50]),
    ("TREND_OHLC_MINUTES", explicitRange [40, 80, 120]),
    ("TREND_OHLC_COUNT", explicitRange [20, 60, 120]),
    ("BUFFER_PIPS", explicitRange [0, 6]),
    ("MAX_TRADE_DURATION_MINUTES", explicitRange [60, 120, 240]),
    ("STOP_DISTANCE_IN_ATR", explicitRange [2, 3]),
    ("LIMIT_DISTANCE_IN_ATR", explicitRange [2, 4, 6])]
  symbolGroups := kOhlcBreakoutSymbolGroupsOverride

def buildFvgStrategySweep : SweepBuilder where
  ranges := [
    ("FVG_OHLC_MINUTES", explicitRange [15, 30]),
    ("HTF_OHLC_MINUTES", explicitRange [120, 240, 480]),
    ("LOOKBACK_BARS", explicitRange [10, 30]),
    ("MIN_GAP_PIPS", explicitRange [5, 10, 20, 35, 50]),
    ("HTF_SMA_PERIOD", explicitRange [50, 100]),
    ("MIN_GAP_AGE_BARS", explicitRange [0, 2, 5]),
    ("MAX_TRADE_DURATION_MINUTES", explicitRange [30, 60, 120]),
    ("STOP_DISTANCE_IN_ATR", explicitRange [1, 2]),
    ("LIMIT_DISTANCE_IN_ATR", explicitRange [3, 5, 7])]
  symbolGroups := kFvgSymbolGroupsOverride

def buildKeltnerFadeStrategySweep : SweepBuilder where
  ranges := [
    ("OHLC_MINUTES", explicitRange [5, 15, 30]),
    ("BAND_SMA_PERIOD", explicitRange [20, 50]),
    ("BAND_ATR_MULT_TENTHS", explicitRange [15, 20, 25, 30, 40]),
    ("MAX_TRADE_DURATION_MINUTES", explicitRange [30, 60, 120]),
    ("STOP_DISTANCE_IN_ATR", explicitRange [2, 3]),
    ("LIMIT_DISTANCE_IN_ATR", explicitRange [1, 2, 3])]
  symbolGroups := kKeltnerFadeSymbolGroupsOverride

def buildSessionRangeBreakoutStrategySweep : SweepBuilder where
  ranges := [
    ("OHLC_MINUTES", explicitRange [5, 15, 30, 45]),
    ("BUFFER_PIPS", explicitRange [0, 2, 4]),
    ("ENTRY_WINDOW_MINUTES", explicitRange [20, 30, 40, 60]),
    ("MAX_TRADE_DURATION_MINUTES", explicitRange [60, 120, 240]),
    ("STOP_DISTANCE_IN_ATR", explicitRange [1, 2]),
    ("LIMIT_DISTANCE_IN_ATR", explicitRange [3, 5, 7])]
  symbolGroups := kSessionRangeBreakoutSymbolGroupsOverride

def buildSqueezeBreakoutStrategySweep : SweepBuilder where
  ranges := [
    ("OHLC_MINUTES", explicitRange [15, 30, 60]),
    ("NR_LOOKBACK", explicitRange [0, 7]),
    ("VALID_BARS", explicitRange [1, 3, 5]),
    ("BUFFER_PIPS", explicitRange [0, 2]),
    ("MAX_TRADE_DURATION_MINUTES", explicitRange [30, 60, 120]),
    ("TREND_OHLC_MINUTES", explicitRange [60, 120]),
    ("TREND_OHLC_COUNT", explicitRange [40, 80]),
    ("STOP_DISTANCE_IN_ATR", explicitRange [1, 2]),
    ("LIMIT_DISTANCE_IN_ATR", explicitRange [3, 5, 7])]
  symbolGroups := kSqueezeBreakoutSymbolGroupsOverride

def buildNyOpenRangeBreakoutStrategySweep : SweepBuilder where
  ranges := [
    ("OHLC_MINUTES", explicitRange [5, 15]),
    ("RANGE_HOURS", explicitRange [4, 8, 13]),
    ("BUFFER_PIPS", explicitRange [0, 2]),
    ("ENTRY_WINDOW_MINUTES", explicitRange [30, 60]),
    ("MAX_TRADE_DURATION_MINUTES", explicitRange [120, 240]),
    ("STOP_DISTANCE_IN_ATR", explicitRange [1]),
    ("LIMIT_DISTANCE_IN_ATR", explicitRange [3, 5])]
  symbolGroups := kNyOpenRangeBreakoutSymbolGroupsOverride

def buildLiquiditySweepReversalStrategySweep : SweepBuilder where
  ranges := [
    ("OHLC_MINUTES", explicitRange [15, 30, 60]),
    ("PIVOT_BARS", explicitRange [2, 3, 5]),
    ("LOOKBACK_BARS", explicitRange [48, 96]),
    ("MIN_SWEEP_PIPS", explicitRange [0, 5, 10]),
    ("DISPLACEMENT_ATR_TENTHS", explicitRange [0, 3, 5, 7]),
    ("VALID_BARS", explicitRange [2, 4, 6, 8]),
    ("MAX_TRADE_DURATION_MINUTES", explicitRange [30, 60, 120]),
    ("STOP_DISTANCE_IN_ATR", explicitRange [2, 3]),
    ("LIMIT_DISTANCE_IN_ATR", explicitRange [2, 3, 4, 5])]
  symbolGroups := kLiquiditySweepReversalSymbolGroupsOverride

def buildRangeVelocityStrategySweep : SweepBuilder where
  ranges := [
    ("RANGE_ATR_TICK_WINDOW", explicitRange [500, 1000, 2500, 5000, 7000]),
    ("RANGE_ATR_PERCENT", explicitRange [25, 40, 60]),
    ("RUN_BARS", explicitRange [3, 5, 8]),
    ("SPEED_LOOKBACK_BARS", explicitRange [10, 20, 32, 40]),
    ("SPEED_RATIO_PERCENT", explicitRange [80, 100]),
    ("EXIT_RUN_BARS", explicitRange [5, 8, 12]),
    ("MAX_TRADE_DURATION_MINUTES", explicitRange [60, 120, 240]),
    ("STOP_DISTANCE_IN_ATR", explicitRange [2, 3]),
    ("LIMIT_DISTANCE_IN_ATR", explicitRange [3, 5, 7, 9])]
  symbolGroups := kRangeVelocitySymbolGroupsOverride

/-! ## The descriptor of a run -/

structure BatchStamp where
  label : String
  executionTs : String

/-- The first window of the ladder. The slippage is what the environment asks for. -/
def makeRunConfiguration {D : Type} [NatCast D] (runId symbols : String) (batch : BatchStamp)
    (entrySlippage : Int32) : TradingDefinitions.RunConfiguration D where
  runId
  symbols
  batch := batch.label
  executionTs := batch.executionTs
  lastMonths := 3
  offsetMonths := 0
  startingBalance := (TradingDefinitions.defaultStartingBalance : D)
  maxLossPercent := ((5 : ℕ) : D)
  maxOpenTrades := 1
  maxTradesPerMinute := 60
  reportFailures := false
  peakHoursOnly := true
  entrySlippageTenthPips := entrySlippage

end Sweep

namespace LoadCommand

open Sweep

/-- The sweep of a name, and what makes its strategies. Another name is a mistake of the caller. -/
def select (sweepName : String) : Option (SweepBuilder × StrategyFactory) :=
  if sweepName = "random" then some (buildRandomStrategySweep, makeStrategy)
  else if sweepName = "ohlcBreakout" then
    some (buildOhlcBreakoutStrategySweep, makeOhlcBreakoutStrategy)
  else if sweepName = "fvg" then some (buildFvgStrategySweep, makeFvgStrategy)
  else if sweepName = "keltnerFade" then
    some (buildKeltnerFadeStrategySweep, makeKeltnerFadeStrategy)
  else if sweepName = "sessionRangeBreakout" then
    some (buildSessionRangeBreakoutStrategySweep, makeSessionRangeBreakoutStrategy)
  else if sweepName = "squeezeBreakout" then
    some (buildSqueezeBreakoutStrategySweep, makeSqueezeBreakoutStrategy)
  else if sweepName = "nyOpenRangeBreakout" then
    some (buildNyOpenRangeBreakoutStrategySweep, makeNyOpenRangeBreakoutStrategy)
  else if sweepName = "liquiditySweepReversal" then
    some (buildLiquiditySweepReversalStrategySweep, makeLiquiditySweepReversalStrategy)
  else if sweepName = "rangeVelocity" then
    some (buildRangeVelocityStrategySweep, makeRangeVelocityStrategy)
  else none

end LoadCommand

/-! ## Every combination starts -/

namespace Sweep

open ParameterGenerator

/-- The grid has each parameter, and no value of it outside its limit. -/
def ParameterGenerator.Within (generator : ParameterGenerator ℚ) (limits : Limits) : Prop :=
  ∀ limit ∈ limits, ∃ range ∈ generator.ranges, range.1 = limit.1 ∧
    ∀ value ∈ range.2.generateValues,
      limit.2 (Int32.ofInt (Binary64.lround value)).toInt = true

instance (generator : ParameterGenerator ℚ) (limits : Limits) :
    Decidable (generator.Within limits) :=
  inferInstanceAs (Decidable (∀ limit ∈ limits, ∃ range ∈ generator.ranges, _ ∧ ∀ value ∈ _, _))

/-- A combination has a value of every range, and of no other parameter. -/
structure Chosen (ranges : List (String × ParameterRange ℚ)) (combo : Combination ℚ) : Prop where
  chosen : ∀ range ∈ ranges, ∃ value ∈ range.2.generateValues, combo.get? range.1 = some value
  other : ∀ name ∉ ranges.map Prod.fst, combo.get? name = none

section Chosen

variable {ranges : List (String × ParameterRange ℚ)} {generator : ParameterGenerator ℚ}
  {combination combo : Combination ℚ} {index : ℕ}

/-- The loop leaves alone what no range is named after. -/
theorem combinationLoop_spec (hnodup : (ranges.map Prod.fst).Nodup)
    (h : combinationLoop ranges index combination = some combo) :
    (∀ range ∈ ranges, ∃ value ∈ range.2.generateValues, combo.get? range.1 = some value) ∧
      ∀ name ∉ ranges.map Prod.fst, combo.get? name = combination.get? name := by
  induction ranges generalizing index combination with
  | nil =>
    cases h
    exact ⟨fun range hrange => (by cases hrange), fun _ _ => rfl⟩
  | cons range ranges ih =>
    obtain ⟨hhead, htail⟩ := List.nodup_cons.mp hnodup
    simp only [combinationLoop, Option.bind_eq_bind, Option.bind_eq_some_iff] at h
    obtain ⟨value, hvalue, hrest⟩ := h
    obtain ⟨hchosen, hother⟩ := ih htail hrest
    constructor
    · intro range' hrange'
      rcases List.mem_cons.mp hrange' with rfl | hmem
      · exact ⟨value, List.mem_of_getElem? hvalue,
          (hother _ hhead).trans SortedMap.get?_update_self⟩
      · exact hchosen range' hmem
    · intro name hname
      rw [List.map_cons, List.mem_cons, not_or] at hname
      exact (hother name hname.2).trans (SortedMap.get?_update_of_ne hname.1)

theorem chosen_combinationAt (hdistinct : generator.Distinct)
    (h : generator.combinationAt index = some combo) : Chosen generator.ranges combo := by
  have hnodup : (generator.ranges.reverse.map Prod.fst).Nodup := by
    rw [List.map_reverse]
    exact List.nodup_reverse.mpr hdistinct
  obtain ⟨hchosen, hother⟩ := combinationLoop_spec hnodup h
  constructor
  · exact fun range hrange => hchosen range (List.mem_reverse.mpr hrange)
  · intro name hname
    exact hother name (by rwa [List.map_reverse, List.mem_reverse])

theorem Chosen.within {limits : Limits} (h : Chosen generator.ranges combo)
    (hlimits : generator.Within limits) : combo.Within limits := by
  intro limit hlimit
  obtain ⟨range, hrange, hname, hvalues⟩ := hlimits limit hlimit
  obtain ⟨value, hvalue, hget⟩ := h.chosen range hrange
  refine ⟨_, ?_, hvalues value hvalue⟩
  rw [Combination.getInt, Combination.get, ← hname, hget]
  rfl

theorem Chosen.has {name : String} (h : Chosen generator.ranges combo)
    (hname : name ∉ generator.ranges.map Prod.fst) : combo.has name = false := by
  rw [Combination.has, h.other name hname]
  rfl

/-- A grid that keeps the limits of a factory has only combinations that start. -/
theorem exists_starts {factory : StrategyFactory} {uuid : String}
    (hdistinct : generator.Distinct) (hyields : generator.Yields)
    (hfits : generator.product < sizeLimit)
    (hstarts : ∀ combo, Chosen generator.ranges combo → Starts factory uuid combo)
    (hindex : index < generator.combinationCount) :
    ∃ combo, generator.combinationAt index = some combo ∧ Starts factory uuid combo := by
  obtain ⟨hat, hlt⟩ := decodes hdistinct hyields hfits index hindex
  rw [List.getElem?_eq_getElem hlt] at hat
  exact ⟨_, hat, hstarts _ (chosen_combinationAt hdistinct hat)⟩

end Chosen

theorem symbols_known {groups : List String} (h : allSymbolsKnown groups = true)
    {group : String} (hgroup : group ∈ groups) :
    ∀ symbol ∈ SymbolGroups.splitCsv (SymbolGroups.cleanSymbols group.toList),
      SymbolScale.get (String.ofList symbol) ≠ SymbolScale.kUnknown := by
  intro symbol hsymbol
  rw [SymbolGroups.cleanSymbols_eq,
    SymbolGroups.splitCsv_intercalate fun _ => Fields.isToken_of_mem,
    ← SymbolGroups.splitSymbols_eq] at hsymbol
  simpa using List.all_eq_true.mp (List.all_eq_true.mp h group hgroup) symbol hsymbol

theorem allSymbolsKnown_eq (groups : List String) :
    allSymbolsKnown groups = groups.all fun group =>
      (Fields.tokensOf SymbolGroups.isBlank ',' group.toList).all fun symbol =>
        SymbolScale.get (String.ofList symbol) != SymbolScale.kUnknown := by
  simp only [allSymbolsKnown, SymbolGroups.splitSymbols_eq]

end Sweep

namespace LoadCommand

open Sweep

variable {sweepName uuid : String} {sweep : SweepBuilder} {strategyFactory : StrategyFactory}

variable (uuid) in
/-- A load makes a strategy of every combination of its sweep. -/
theorem select_starts (h : select sweepName = some (sweep, strategyFactory)) {index : ℕ}
    (hindex : index < sweep.combinationCount) :
    ∃ combo, sweep.combinationAt index = some combo ∧ Starts strategyFactory uuid combo := by
  unfold select at h
  split_ifs at h <;> cases h
  · refine exists_starts (by decide) (by decide +kernel) (by decide +kernel) ?_ hindex
    intro combo hcombo
    exact makeStrategy_starts (hcombo.within (by decide +kernel)) (hcombo.has (by decide))
      (hcombo.has (by decide))
  · exact exists_starts (by decide) (by decide) (by decide)
      (fun combo h => makeOhlcBreakoutStrategy_starts (h.within (by decide +kernel))) hindex
  · exact exists_starts (by decide) (by decide) (by decide)
      (fun combo h => makeFvgStrategy_starts (h.within (by decide +kernel))) hindex
  · exact exists_starts (by decide) (by decide) (by decide)
      (fun combo h => makeKeltnerFadeStrategy_starts (h.within (by decide +kernel))) hindex
  · exact exists_starts (by decide) (by decide) (by decide)
      (fun combo h => makeSessionRangeBreakoutStrategy_starts (h.within (by decide +kernel))) hindex
  · exact exists_starts (by decide) (by decide) (by decide)
      (fun combo h => makeSqueezeBreakoutStrategy_starts (h.within (by decide +kernel))) hindex
  · exact exists_starts (by decide) (by decide) (by decide)
      (fun combo h => makeNyOpenRangeBreakoutStrategy_starts (h.within (by decide +kernel))) hindex
  · exact exists_starts (by decide) (by decide) (by decide)
      (fun combo h => makeLiquiditySweepReversalStrategy_starts (h.within (by decide +kernel)))
      hindex
  · exact exists_starts (by decide) (by decide) (by decide)
      (fun combo h => makeRangeVelocityStrategy_starts (h.within (by decide +kernel))) hindex

theorem select_symbols (h : select sweepName = some (sweep, strategyFactory)) :
    allSymbolsKnown (resolveSymbolGroups sweep.symbolGroups) = true := by
  unfold select at h
  split_ifs at h <;> cases h <;> rw [allSymbolsKnown_eq] <;> decide +kernel

/-- What is queued of a combination, for one group of symbols. -/
def seedAt {D : Type} [NatCast D] (sweep : SweepBuilder) (strategyFactory : StrategyFactory)
    (group : String) (runId uuid : String) (batch : BatchStamp) (entrySlippage : Int32)
    (index : ℕ) : Option (Except String (Ladder.Seed D)) :=
  (sweep.combinationAt index).map fun combo => (strategyFactory uuid combo).map fun strategy =>
    ⟨makeRunConfiguration runId (String.ofList (SymbolGroups.cleanSymbols group.toList)) batch
      entrySlippage, strategy⟩

/-- The seed is one of a load. -/
def Loaded {D : Type} [NatCast D] (seed : Ladder.Seed D) : Prop :=
  ∃ sweepName sweep strategyFactory, select sweepName = some (sweep, strategyFactory) ∧
    ∃ group ∈ resolveSymbolGroups sweep.symbolGroups, ∃ index < sweep.combinationCount,
      ∃ runId uuid batch entrySlippage, seedAt sweep strategyFactory group runId uuid batch
        entrySlippage index = some (.ok seed)

section Runs

open Ladder Rolling TradingDefinitions Transition

variable {D : Type} [NatCast D]

/-- A seed of a load can be run over known symbols, from the first window on. -/
structure Runnable (seed : Seed D) : Prop where
  made : (Strategies.makeStrategy seed.strategy).isOk = true
  bars : seed.strategy.BarsNonnegative
  symbols : ∀ symbol ∈ SymbolGroups.splitCsv seed.run.symbols.toList,
    SymbolScale.get (String.ofList symbol) ≠ SymbolScale.kUnknown
  start : seed.start = ⟨3, 0⟩

theorem seedAt_runnable (h : select sweepName = some (sweep, strategyFactory)) {group : String}
    (hgroup : group ∈ resolveSymbolGroups sweep.symbolGroups) {index : ℕ}
    (hindex : index < sweep.combinationCount) (runId uuid : String) (batch : BatchStamp)
    (entrySlippage : Int32) :
    ∃ seed : Seed D, seedAt sweep strategyFactory group runId uuid batch entrySlippage index =
      some (.ok seed) ∧ seed.strategy.uuid = uuid ∧ Runnable seed := by
  obtain ⟨combo, hcombo, config, hconfig, huuid, hmade, hbars⟩ :=
    select_starts uuid h hindex
  refine ⟨⟨makeRunConfiguration runId (String.ofList (SymbolGroups.cleanSymbols group.toList))
    batch entrySlippage, config⟩, by rw [seedAt, hcombo, Option.map_some, hconfig]; rfl, huuid,
    hmade, hbars, ?_, rfl⟩
  intro symbol hsymbol
  rw [makeRunConfiguration, String.toList_ofList] at hsymbol
  exact symbols_known (select_symbols h) hgroup symbol hsymbol

theorem Loaded.runnable {seed : Seed D} (h : Loaded seed) : Runnable seed := by
  obtain ⟨sweepName, sweep, strategyFactory, hselect, group, hgroup, index, hindex, runId, uuid,
    batch, entrySlippage, hseed⟩ := h
  obtain ⟨seed', hseed', -, hrunnable⟩ :=
    seedAt_runnable (D := D) hselect hgroup hindex runId uuid batch entrySlippage
  rw [hseed, Option.some.injEq, Except.ok.injEq] at hseed'
  rwa [hseed']

/-- Strategies come from loads alone, and no identifier comes twice. -/
def Sweeps (s : State D) : Action D → Prop
  | .load seed => Loaded seed ∧ ∀ seed' ∈ s.seeds, seed'.strategy.uuid ≠ seed.strategy.uuid
  | .finish _ _ newRunId _ _ => newRunId ∉ s.runIds
  | .lose _ => True
  | .direct _ => True

theorem Sweeps.sound {s : State D} {a : Action D} (h : Sweeps s a) : Sound s a := by
  cases a with
  | load seed => exact ⟨h.1.runnable.bars, h.2⟩
  | finish i outcome newRunId pushed put => exact h
  | lose i => trivial
  | direct run => trivial

variable {text : JsonLibrary} [DecimalText D]

theorem seeds_step {s t : State D} {a : Action D} (hs : ∀ seed ∈ s.seeds, Loaded seed)
    (hsweeps : Sweeps s a) (hstep : step text s a = some t) : ∀ seed ∈ t.seeds, Loaded seed := by
  cases a with
  | load seed =>
    simp only [step] at hstep
    split at hstep
    · cases hstep
      intro seed' hseed'
      rcases List.mem_append.mp hseed' with hmem | hmem
      · exact hs seed' hmem
      · rw [List.mem_singleton.mp hmem]
        exact hsweeps.1
    · cases hstep
  | finish i outcome newRunId pushed put =>
    obtain ⟨job, -, rfl⟩ := Option.map_eq_some_iff.mp hstep
    split <;> exact hs
  | lose i =>
    obtain ⟨job, -, rfl⟩ := Option.map_eq_some_iff.mp hstep
    exact hs
  | direct run =>
    cases hstep
    exact hs

theorem advance_first {k : ℕ} {window : Window} (h : advance ⟨3, 0⟩ k = some window) :
    window ∈ kLadder.map Rolling.Step.source ++ [kFullHistory] := by
  have hend : advance ⟨3, 0⟩ 4 = none := by decide
  by_cases hk : k < 4
  · interval_cases k <;> cases h <;> decide
  · rw [advance_eq_none_of_le hend (by omega)] at h
    cases h

end Runs

/-! A random strategy that a load queues and a worker runs. -/

section Sample

open Ladder Rolling TradingDefinitions Transition

attribute [local instance] instDecimalTextNat

/-- The fifth combination of the random sweep. -/
def sampleLoaded : TradingDefinitions.StrategyConfig :=
  { sampleStrategy with strategyVariables := { ohlcRsiVariables := some ⟨60, 40⟩ } }

def sampleCombo : Combination ℚ :=
  (Combination.set ∅ "LIMIT_DISTANCE_IN_ATR" 3).set "STOP_DISTANCE_IN_ATR" 2

theorem combinationAt_four : buildRandomStrategySweep.combinationAt 4 = some sampleCombo := by
  have hvalues : (linearRange 3 2 9).generateValues = [3, 5, 7, 9] := by decide +kernel
  simp [ParameterGenerator.combinationAt, ParameterGenerator.combinationLoop,
    buildRandomStrategySweep, explicitRange, hvalues, sampleCombo]

theorem makeStrategy_sampleCombo : Sweep.makeStrategy "uuid" sampleCombo = .ok sampleLoaded := by
  have hstop : sampleCombo.getInt "STOP_DISTANCE_IN_ATR" = .ok 2 := by decide +kernel
  have hlimit : sampleCombo.getInt "LIMIT_DISTANCE_IN_ATR" = .ok 3 := by decide +kernel
  have hcount : sampleCombo.has "OHLC_COUNT" = false := by decide +kernel
  have hminutes : sampleCombo.has "OHLC_MINUTES" = false := by decide +kernel
  simp only [Sweep.makeStrategy, hstop, hlimit, hcount, hminutes]
  rfl

theorem sampleLoaded_loaded : Loaded (⟨sampleRun, sampleLoaded⟩ : Seed ℕ) := by
  refine ⟨"random", buildRandomStrategySweep, makeStrategy, rfl, "EURUSD", by decide, 4,
    by decide +kernel, "run", "uuid", ⟨"2026-28", "2026-07-06T06:00:00Z"⟩, 3, ?_⟩
  have hsymbols : String.ofList (SymbolGroups.cleanSymbols "EURUSD".toList) = "EURUSD" := by
    rw [SymbolGroups.cleanSymbols_eq]
    decide +kernel
  rw [seedAt, combinationAt_four, Option.map_some, makeStrategy_sampleCombo, hsymbols]
  rfl

def sampleLoadedText : List UInt8 :=
  asciiBytes "\x7b\"OHLC_VARIABLES\":" ++ asciiBytes
    ("[\x7b\"OHLC_COUNT\":0,\"OHLC_MINUTES\":0\x7d],\"RANGE_VARIABLES\":[]," ++
    "\"STRATEGY_VARIABLES\":\x7b\"FVG_STRATEGY_VARIABLES\":null,\"KELTNER_FADE_VARIABLES\":null," ++
    "\"LIQUIDITY_SWEEP_REVERSAL_VARIABLES\":null,\"NY_OPEN_RANGE_BREAKOUT_VARIABLES\":null," ++
    "\"OHLC_BREAKOUT_VARIABLES\":null,\"OHLC_RSI_VARIABLES\":\x7b\"RSI_LONG\":60," ++
    "\"RSI_SHORT\":40\x7d,\"RANGE_VELOCITY_VARIABLES\":null," ++
    "\"SESSION_RANGE_BREAKOUT_VARIABLES\":null,\"SQUEEZE_BREAKOUT_VARIABLES\":null\x7d," ++
    "\"TRADING_VARIABLES\":\x7b\"LIMIT_DISTANCE_IN_ATR\":\"3\",\"STOP_DISTANCE_IN_ATR\":\"2\"," ++
    "\"STRATEGY\":\"RandomStrategy\",\"TRADING_SIZE\":\"1\"\x7d,\"UUID\":\"uuid\"\x7d")

def sampleLoadTexts : List (Except JsonError JsonValue × List UInt8) :=
  [(toJson sampleRun, sampleRunText), (toJson sampleLoaded, sampleLoadedText)]

theorem sampleLoadTexts_nodup : (sampleLoadTexts.map Prod.snd).Nodup := by
  have hrun : asciiBytes "\x7b\"BATCH\":" = [123, 34, 66, 65, 84, 67, 72, 34, 58] := by
    simp [asciiBytes]
  have hstrategy : asciiBytes "\x7b\"OHLC_VARIABLES\":" =
      [123, 34, 79, 72, 76, 67, 95, 86, 65, 82, 73, 65, 66, 76, 69, 83, 34, 58] := by
    simp [asciiBytes]
  have hne : sampleRunText ≠ sampleLoadedText := by
    unfold sampleRunText sampleLoadedText
    rw [hrun, hstrategy]
    exact append_ne_append (i := 2) (by decide) (by decide) (by decide) _ _
  simp [sampleLoadTexts, hne]

attribute [irreducible] sampleLoadedText

/-- A strategy that does not clear the gate. -/
def sampleEnd : Operations.Outcome ℕ := { sampleOutcome with status := .underperformed }

def sampleLoads : List (Action ℕ) :=
  [.load ⟨sampleRun, sampleLoaded⟩, .finish 0 sampleEnd "next" true 1]

end Sample

end LoadCommand

end BacktestEngine
