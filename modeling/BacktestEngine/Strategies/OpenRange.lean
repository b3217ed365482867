import BacktestEngine.Bars.TimeBars
import BacktestEngine.Models.MarketHours
import BacktestEngine.Queue.Configuration

/-! # Breakouts of an opening range

Two strategies take the extremes of the bars that started in a window of the day, and trade
a break of them in the time after an open. Prices are 32-bit numbers.
-/

namespace BacktestEngine

namespace OpenRange

open RangeBar (toInt32)

def minute : ℤ := 60 * second

def hour : ℤ := 60 * minute

def dayLength : ℤ := 24 * hour

/-- The smallest and the largest price. -/
def priceMin : ℤ := -2 ^ 31

def priceMax : ℤ := 2 ^ 31 - 1

/-- What the two strategies have of their own: the series, the buffer, and for each day the open and
the window of the range, counted from midnight. -/
structure Setup where
  signal : SeriesSpec
  bufferPips : ℤ
  entryWindow : ℤ
  opensAt : ℤ → ℤ
  startsAt : ℤ → ℤ
  endsAt : ℤ → ℤ

/-- The highest high and the lowest low so far, and whether there was a bar. -/
structure Extent where
  high : ℤ := priceMin
  low : ℤ := priceMax
  seen : Bool := false

/-- A bar that started in the window widens the range. -/
def Extent.scan (rangeStart rangeEnd : ℤ) (extent : Extent) (bar : OhlcObject) : Extent :=
  if bar.date < rangeStart ∨ rangeEnd ≤ bar.date then extent
  else ⟨max extent.high bar.high, min extent.low bar.low, true⟩

namespace Setup

variable (setup : Setup) (tick : PriceData)

def day : ℤ := tick.timestamp / dayLength

def midnight : ℤ := day tick * dayLength

def openTime : ℤ := midnight tick + setup.opensAt (day tick)

def rangeStart : ℤ := midnight tick + setup.startsAt (day tick)

def rangeEnd : ℤ := midnight tick + setup.endsAt (day tick)

/-- The tick comes in the time after the open in which the range is traded. -/
def InEntryWindow : Prop :=
  setup.openTime tick ≤ tick.timestamp ∧
    tick.timestamp < setup.openTime tick + setup.entryWindow * minute

instance : Decidable (setup.InEntryWindow tick) := inferInstanceAs (Decidable (_ ∧ _))

/-- The series does not reach back to the start of the range. -/
def Uncovered (front : OhlcObject) : Prop := setup.rangeStart tick < front.date

instance (front : OhlcObject) : Decidable (setup.Uncovered tick front) :=
  inferInstanceAs (Decidable (_ < _))

/-- The range of the closed bars, the last bar is in progress. -/
def extent (series : List OhlcObject) : Extent :=
  series.dropLast.foldl (Extent.scan (setup.rangeStart tick) (setup.rangeEnd tick)) {}

/-- The break of the range beyond the buffer; the sums wrap as the machine's do. -/
def breakout (extent : Extent) : Option Direction :=
  let bufferPoints := toInt32 (setup.bufferPips * SymbolScale.get tick.symbol)
  if toInt32 (extent.high + bufferPoints) < tick.bid then some .long
  else if tick.ask < toInt32 (extent.low - bufferPoints) then some .short
  else none

def decide (store : BarStore) : Option Direction :=
  if ¬ setup.InEntryWindow tick then none
  else
    match store.find tick.symbol setup.signal.minutes with
    | none => none
    | some series =>
      if series.length < 2 then none
      else
        match series.head? with
        | none => none
        | some front =>
          if setup.Uncovered tick front then none
          else if !(setup.extent tick series).seen then none
          else setup.breakout tick (setup.extent tick series)

end Setup

end OpenRange

open OpenRange (Setup hour minute)

/-! ## The London open -/

structure SessionRangeBreakoutStrategy where
  signalCfg : SeriesSpec
  bufferPips : ℤ
  entryWindow : ℤ

namespace SessionRangeBreakoutStrategy

/-- The Asian session ends at six. -/
def kAsiaSessionEnd : ℤ := 6 * hour

/-- The latest London open, in minutes. -/
def kLatestLondonOpen : ℤ := 8 * 60

def make (strategyConfig : TradingDefinitions.StrategyConfig) :
    Except String SessionRangeBreakoutStrategy :=
  match strategyConfig.ohlcVariables with
  | [] => throw "SessionRangeBreakoutStrategy: OHLC_VARIABLES needs one entry (the signal timeframe)"
  | signalCfg :: _ =>
    if signalCfg.ohlcMinutes.toInt < 1 then
      throw "SessionRangeBreakoutStrategy: OHLC_MINUTES must be >= 1"
    else
      match strategyConfig.strategyVariables.sessionRangeBreakoutVariables with
      | none => throw ("SessionRangeBreakoutStrategy: " ++
          "STRATEGY_VARIABLES.SESSION_RANGE_BREAKOUT_VARIABLES is required " ++
          "(BUFFER_PIPS, ENTRY_WINDOW_MINUTES)")
      | some sessionVars =>
        if sessionVars.bufferPips.toInt < 0 then
          throw "SessionRangeBreakoutStrategy: BUFFER_PIPS must be >= 0"
        else if sessionVars.entryWindowMinutes.toInt < 1 then
          throw "SessionRangeBreakoutStrategy: ENTRY_WINDOW_MINUTES must be >= 1"
        else
          let spanMinutes := signalCfg.ohlcCount.toInt * signalCfg.ohlcMinutes.toInt
          let requiredMinutes := kLatestLondonOpen + sessionVars.entryWindowMinutes.toInt +
            2 * signalCfg.ohlcMinutes.toInt
          if spanMinutes < requiredMinutes then
            throw ("SessionRangeBreakoutStrategy: OHLC_COUNT x OHLC_MINUTES must cover " ++
              "midnight through the entry window (>= 480 + ENTRY_WINDOW_MINUTES + 2 bars)")
          else
            return ⟨⟨signalCfg.ohlcMinutes.toInt, signalCfg.ohlcCount.toInt⟩,
              sessionVars.bufferPips.toInt, sessionVars.entryWindowMinutes.toInt⟩

def setup (strategy : SessionRangeBreakoutStrategy) : Setup where
  signal := strategy.signalCfg
  bufferPips := strategy.bufferPips
  entryWindow := strategy.entryWindow
  opensAt day := if MarketHours.isLondonSummer day then 7 * hour else 8 * hour
  startsAt _ := 0
  endsAt _ := kAsiaSessionEnd

def decide (strategy : SessionRangeBreakoutStrategy) (tick : PriceData) (barStore : BarStore) :
    Option Direction :=
  strategy.setup.decide tick barStore

end SessionRangeBreakoutStrategy

/-! ## The New York open -/

structure NyOpenRangeBreakoutStrategy where
  signalCfg : SeriesSpec
  rangeHours : ℤ
  bufferPips : ℤ
  entryWindow : ℤ

namespace NyOpenRangeBreakoutStrategy

def make (strategyConfig : TradingDefinitions.StrategyConfig) :
    Except String NyOpenRangeBreakoutStrategy :=
  match strategyConfig.ohlcVariables with
  | [] => throw "NyOpenRangeBreakoutStrategy: OHLC_VARIABLES needs one entry (the signal timeframe)"
  | signalCfg :: _ =>
    if signalCfg.ohlcMinutes.toInt < 1 then
      throw "NyOpenRangeBreakoutStrategy: OHLC_MINUTES must be >= 1"
    else
      match strategyConfig.strategyVariables.nyOpenRangeBreakoutVariables with
      | none => throw ("NyOpenRangeBreakoutStrategy: " ++
          "STRATEGY_VARIABLES.NY_OPEN_RANGE_BREAKOUT_VARIABLES is required " ++
          "(RANGE_HOURS, BUFFER_PIPS, ENTRY_WINDOW_MINUTES)")
      | some nyVars =>
        if nyVars.rangeHours.toInt < 1 then
          throw "NyOpenRangeBreakoutStrategy: RANGE_HOURS must be >= 1"
        else if 13 * 60 + 30 < 60 * nyVars.rangeHours.toInt then
          throw ("NyOpenRangeBreakoutStrategy: RANGE_HOURS must not reach past the " ++
            "previous UTC midnight (<= 13.5h, i.e. 13)")
        else if nyVars.bufferPips.toInt < 0 then
          throw "NyOpenRangeBreakoutStrategy: BUFFER_PIPS must be >= 0"
        else if nyVars.entryWindowMinutes.toInt < 1 then
          throw "NyOpenRangeBreakoutStrategy: ENTRY_WINDOW_MINUTES must be >= 1"
        else
          let spanMinutes := signalCfg.ohlcCount.toInt * signalCfg.ohlcMinutes.toInt
          let requiredMinutes := 60 * nyVars.rangeHours.toInt + nyVars.entryWindowMinutes.toInt +
            2 * signalCfg.ohlcMinutes.toInt
          if spanMinutes < requiredMinutes then
            throw ("NyOpenRangeBreakoutStrategy: OHLC_COUNT x OHLC_MINUTES must cover " ++
              "the range through the entry window (>= RANGE_HOURS x 60 + " ++
              "ENTRY_WINDOW_MINUTES + 2 bars)")
          else
            return ⟨⟨signalCfg.ohlcMinutes.toInt, signalCfg.ohlcCount.toInt⟩,
              nyVars.rangeHours.toInt, nyVars.bufferPips.toInt, nyVars.entryWindowMinutes.toInt⟩

def nyOpen (day : ℤ) : ℤ :=
  (if MarketHours.isNewYorkSummer day then 13 * hour else 14 * hour) + 30 * minute

def setup (strategy : NyOpenRangeBreakoutStrategy) : Setup where
  signal := strategy.signalCfg
  bufferPips := strategy.bufferPips
  entryWindow := strategy.entryWindow
  opensAt := nyOpen
  startsAt day := nyOpen day - strategy.rangeHours * hour
  endsAt := nyOpen

def decide (strategy : NyOpenRangeBreakoutStrategy) (tick : PriceData) (barStore : BarStore) :
    Option Direction :=
  strategy.setup.decide tick barStore

end NyOpenRangeBreakoutStrategy

namespace OpenRange

/-! ## What the constructors accept -/

open BarStore (duration timeBars own Spaced)

/-- The series is long enough for the range, the time after the open, and two bars. -/
structure Setup.Accepted (setup : Setup) : Prop where
  minutes : 1 ≤ setup.signal.minutes
  buffer : 0 ≤ setup.bufferPips
  window : ∀ day, setup.opensAt day - setup.startsAt day + setup.entryWindow * minute +
    2 * duration setup.signal.minutes ≤ setup.signal.count * duration setup.signal.minutes

theorem session_accepted {config : TradingDefinitions.StrategyConfig}
    {strategy : SessionRangeBreakoutStrategy}
    (h : SessionRangeBreakoutStrategy.make config = .ok strategy) : strategy.setup.Accepted := by
  unfold SessionRangeBreakoutStrategy.make at h
  split at h
  · cases h
  · split_ifs at h with hminutes
    split at h
    · cases h
    · dsimp only at h
      split_ifs at h with hbuffer hwindow hspan
      cases h
      constructor
      · exact not_lt.mp hminutes
      · exact not_lt.mp hbuffer
      · intro day
        have hspan := not_lt.mp hspan
        simp only [SessionRangeBreakoutStrategy.kLatestLondonOpen] at hspan
        simp only [SessionRangeBreakoutStrategy.setup, duration, hour, minute, second]
        split_ifs <;> linarith

theorem ny_accepted {config : TradingDefinitions.StrategyConfig}
    {strategy : NyOpenRangeBreakoutStrategy}
    (h : NyOpenRangeBreakoutStrategy.make config = .ok strategy) : strategy.setup.Accepted := by
  unfold NyOpenRangeBreakoutStrategy.make at h
  split at h
  · cases h
  · split_ifs at h with hminutes
    split at h
    · cases h
    · dsimp only at h
      split_ifs at h with hhours hmidnight hbuffer hwindow hspan
      cases h
      constructor
      · exact not_lt.mp hminutes
      · exact not_lt.mp hbuffer
      · intro day
        have hspan := not_lt.mp hspan
        simp only [NyOpenRangeBreakoutStrategy.setup, duration, hour, minute, second]
        linarith

/-- One of the two strategies, with a config that its constructor accepts. -/
inductive Constructed (config : TradingDefinitions.StrategyConfig) : Setup → Prop
  | session {strategy : SessionRangeBreakoutStrategy}
      (h : SessionRangeBreakoutStrategy.make config = .ok strategy) :
      Constructed config strategy.setup
  | ny {strategy : NyOpenRangeBreakoutStrategy}
      (h : NyOpenRangeBreakoutStrategy.make config = .ok strategy) :
      Constructed config strategy.setup

theorem Constructed.accepted {config : TradingDefinitions.StrategyConfig} {setup : Setup}
    (h : Constructed config setup) : setup.Accepted := by
  cases h with
  | session h => exact session_accepted h
  | ny h => exact ny_accepted h

/-! ## The scan -/

section Scan

variable {rangeStart rangeEnd bound : ℤ} {bars : List OhlcObject} {extent : Extent}

/-- The bar started in the window. -/
def Inside (rangeStart rangeEnd : ℤ) (bar : OhlcObject) : Prop :=
  rangeStart ≤ bar.date ∧ bar.date < rangeEnd

instance (bar : OhlcObject) : Decidable (Inside rangeStart rangeEnd bar) :=
  inferInstanceAs (Decidable (_ ∧ _))

theorem scan_inside {bar : OhlcObject} (h : Inside rangeStart rangeEnd bar) :
    extent.scan rangeStart rangeEnd bar = ⟨max extent.high bar.high, min extent.low bar.low, true⟩ :=
  if_neg (by unfold Inside at h; omega)

theorem scan_outside {bar : OhlcObject} (h : ¬ Inside rangeStart rangeEnd bar) :
    extent.scan rangeStart rangeEnd bar = extent :=
  if_pos (by unfold Inside at h; omega)

theorem high_lt_iff : (bars.foldl (Extent.scan rangeStart rangeEnd) extent).high < bound ↔
    extent.high < bound ∧ ∀ bar ∈ bars, Inside rangeStart rangeEnd bar → bar.high < bound := by
  induction bars generalizing extent with
  | nil => simp
  | cons bar bars ih =>
    rw [List.foldl_cons, ih, List.forall_mem_cons]
    by_cases hinside : Inside rangeStart rangeEnd bar
    · rw [scan_inside hinside, max_lt_iff, and_assoc, forall_prop_of_true hinside]
    · rw [scan_outside hinside, forall_prop_of_false hinside, true_and]

theorem lt_low_iff : bound < (bars.foldl (Extent.scan rangeStart rangeEnd) extent).low ↔
    bound < extent.low ∧ ∀ bar ∈ bars, Inside rangeStart rangeEnd bar → bound < bar.low := by
  induction bars generalizing extent with
  | nil => simp
  | cons bar bars ih =>
    rw [List.foldl_cons, ih, List.forall_mem_cons]
    by_cases hinside : Inside rangeStart rangeEnd bar
    · rw [scan_inside hinside, lt_min_iff, and_assoc, forall_prop_of_true hinside]
    · rw [scan_outside hinside, forall_prop_of_false hinside, true_and]

theorem seen_iff : (bars.foldl (Extent.scan rangeStart rangeEnd) extent).seen = true ↔
    extent.seen = true ∨ ∃ bar ∈ bars, Inside rangeStart rangeEnd bar := by
  induction bars generalizing extent with
  | nil => simp
  | cons bar bars ih =>
    rw [List.foldl_cons, ih, List.exists_mem_cons_iff]
    by_cases hinside : Inside rangeStart rangeEnd bar
    · rw [scan_inside hinside]
      exact iff_of_true (.inl rfl) (.inr (.inl hinside))
    · rw [scan_outside hinside]
      simp only [hinside, false_or]

end Scan

end OpenRange

end BacktestEngine
