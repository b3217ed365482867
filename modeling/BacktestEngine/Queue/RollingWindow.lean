import BacktestEngine.Models.Base64
import BacktestEngine.Queue.Configuration

/-! # The rolling windows

A strategy that completes a window is queued again over the next one. Its descriptor and its
payload pass through JSON and Base64 on every rung, and the worker puts a configuration
together from them: it is the seed's, under another run id and over another window.
-/

namespace BacktestEngine

open TradingDefinitions

namespace Rolling

/-- So many months, ending so many months ago. -/
structure Window where
  lastMonths : Int32
  offsetMonths : Int32
  deriving DecidableEq, Repr

def kFullHistory : Window := ⟨9, 0⟩

structure Step where
  source : Window
  target : Window

def kLadder : List Step :=
  [⟨⟨3, 0⟩, ⟨3, 3⟩⟩,
   ⟨⟨3, 3⟩, ⟨3, 6⟩⟩,
   ⟨⟨3, 6⟩, kFullHistory⟩]

def nextWindow (lastMonths offsetMonths : Int32) : Option Window :=
  (kLadder.find? fun step => step.source = ⟨lastMonths, offsetMonths⟩).map Step.target

def RUN : String := "BACKTESTING_QUEUE_RUN"

def RUN_QUEUES : List String :=
  [RUN, "BACKTESTING_QUEUE_RUN_CHAIN:1", "BACKTESTING_QUEUE_RUN_CHAIN:2",
   "BACKTESTING_QUEUE_RUN_CHAIN:3"]

def queueKeyFor (window : Window) : String :=
  match kLadder.findIdx? fun step => step.target = window with
  | some rung => RUN_QUEUES.getD (rung + 1) RUN
  | none => RUN

def nextRunConfiguration {D : Type} (finished : Configuration D) (next : Window)
    (newRunId : String) : RunConfiguration D where
  runId := newRunId
  symbols := finished.symbols
  batch := finished.batch
  executionTs := finished.executionTs
  lastMonths := next.lastMonths
  offsetMonths := next.offsetMonths
  startingBalance := finished.startingBalance
  maxLossPercent := finished.maxLossPercent
  maxOpenTrades := finished.maxOpenTrades
  maxTradesPerMinute := finished.maxTradesPerMinute
  reportFailures := finished.reportFailures
  peakHoursOnly := finished.peakHoursOnly
  entrySlippageTenthPips := finished.entrySlippageTenthPips

/-! ## Through Redis -/

section Wire

variable (text : JsonLibrary) {D : Type} [NatCast D] [DecimalText D]

/-- The loader pushes the Base64 of the dump. -/
def encode {α : Type} [Serializer α] (a : α) : Except JsonError (List UInt8) := do
  pure (Base64.b64encode (← text.dump (← toJson a)))

/-- Decode, parse and convert. -/
def parseFromBase64 {α : Type} [Serializer α] (input : List UInt8) : Except JsonError α :=
  match Base64.b64decode input with
  | some bytes => do fromJson (← text.parse bytes)
  | none => .error .outOfBounds

/-- What the re-queue of a strategy pushes. -/
structure Requeued where
  strategyKey : String
  payloadKey : String
  payload : List UInt8
  queueKey : String
  descriptor : List UInt8

/-- The payload under its key, its name on the list of the run, and the descriptor of the run. -/
def queueNextWindow (config : Configuration D) (next : Window) (newRunId : String) :
    Except JsonError Requeued := do
  let payload ← encode text config.strategy
  let descriptor ← encode text (nextRunConfiguration config next newRunId)
  pure
    { strategyKey := "BACKTESTING_QUEUE_STRATEGY:" ++ newRunId
      payloadKey := "BACKTESTING_QUEUE_STRATEGY_PAYLOAD:" ++ newRunId ++ ":" ++ config.strategy.uuid
      payload
      queueKey := queueKeyFor next
      descriptor }

/-- The configuration a worker puts together from a descriptor and a payload. -/
def reassemble (descriptorB64 strategyB64 : List UInt8) : Except JsonError (Configuration D) := do
  let runCfg : RunConfiguration D ← parseFromBase64 text descriptorB64
  let strategy ← parseFromBase64 text strategyB64
  pure
    { runId := runCfg.runId
      symbols := runCfg.symbols
      batch := runCfg.batch
      executionTs := runCfg.executionTs
      lastMonths := runCfg.lastMonths
      offsetMonths := runCfg.offsetMonths
      startingBalance := runCfg.startingBalance
      maxLossPercent := runCfg.maxLossPercent
      maxOpenTrades := runCfg.maxOpenTrades
      maxTradesPerMinute := runCfg.maxTradesPerMinute
      reportFailures := runCfg.reportFailures
      peakHoursOnly := runCfg.peakHoursOnly
      entrySlippageTenthPips := runCfg.entrySlippageTenthPips
      strategy }

/-- The configurations that workers run on behalf of a seed, by the number of steps taken. -/
inductive Rung (run : RunConfiguration D) (strategy : StrategyConfig) : ℕ → Configuration D → Prop
  | seed {descriptor payload : List UInt8} {config : Configuration D}
      (hrun : encode text run = .ok descriptor) (hstrategy : encode text strategy = .ok payload)
      (hdrain : reassemble text descriptor payload = .ok config) : Rung run strategy 0 config
  | next {n : ℕ} {config config' : Configuration D} {window : Window} {newRunId : String}
      {sent : Requeued} (hrung : Rung run strategy n config)
      (hnext : nextWindow config.lastMonths config.offsetMonths = some window)
      (hsent : queueNextWindow text config window newRunId = .ok sent)
      (hdrain : reassemble text sent.descriptor sent.payload = .ok config') :
      Rung run strategy (n + 1) config'

end Wire

/-- The window after so many steps. -/
def advance (start : Window) : ℕ → Option Window
  | 0 => some start
  | n + 1 => (advance start n).bind fun window => nextWindow window.lastMonths window.offsetMonths

/-- The seed's configuration, over another window. -/
def seedOver {D : Type} (run : RunConfiguration D) (strategy : StrategyConfig) (runId : String)
    (window : Window) : Configuration D where
  toRunConfiguration :=
    { run with runId, lastMonths := window.lastMonths, offsetMonths := window.offsetMonths }
  strategy

/-! ## The wire is transparent -/

section Wire

variable {text : JsonLibrary} {D : Type} [NatCast D] [DecimalText D]

theorem parseFromBase64_encode {α : Type} [Serializer α] (htext : text.ParsesDumps) {a : α}
    {bytes : List UInt8} (ha : ReadsBack a) (h : encode text a = .ok bytes) :
    parseFromBase64 text bytes = .ok a := by
  obtain ⟨j, hto, hfrom⟩ := ha
  unfold encode at h
  rw [hto] at h
  change (text.dump j >>= fun bytes => pure (Base64.b64encode bytes)) = _ at h
  cases hdump : text.dump j with
  | error error =>
    rw [hdump] at h
    cases h
  | ok dumped =>
    rw [hdump] at h
    cases h
    unfold parseFromBase64
    rw [Base64.b64decode_b64encode]
    change (text.parse dumped >>= fromJson) = _
    rw [htext j dumped hdump]
    exact hfrom

theorem reassemble_encode (htext : text.ParsesDumps) (hdecimal : DecimalText.RoundTrips D)
    {run : RunConfiguration D} {strategy : StrategyConfig} (hbars : strategy.BarsNonnegative)
    {descriptor payload : List UInt8} (hrun : encode text run = .ok descriptor)
    (hstrategy : encode text strategy = .ok payload) :
    reassemble text descriptor payload = .ok { toRunConfiguration := run, strategy } := by
  have hparseRun := parseFromBase64_encode htext (readsBack_runConfiguration hdecimal run) hrun
  have hparseStrategy := parseFromBase64_encode htext (readsBack_strategyConfig hbars) hstrategy
  unfold reassemble
  rw [hparseRun, hparseStrategy]
  rfl

/-- A re-queue sends the strategy as it is, and the descriptor of the next window. -/
theorem queueNextWindow_sent {config : Configuration D} {next : Window} {newRunId : String}
    {sent : Requeued} (h : queueNextWindow text config next newRunId = .ok sent) :
    encode text config.strategy = .ok sent.payload ∧
      encode text (nextRunConfiguration config next newRunId) = .ok sent.descriptor := by
  unfold queueNextWindow at h
  cases hpayload : encode text config.strategy with
  | error error =>
    rw [hpayload] at h
    cases h
  | ok payload =>
    rw [hpayload] at h
    cases hdescriptor : encode text (nextRunConfiguration config next newRunId) with
    | error error =>
      rw [hdescriptor] at h
      cases h
    | ok descriptor =>
      rw [hdescriptor] at h
      cases h
      exact ⟨rfl, rfl⟩

/-- One rung up, nothing but the run id and the window is another. -/
theorem reassemble_queueNextWindow (htext : text.ParsesDumps)
    (hdecimal : DecimalText.RoundTrips D) {config : Configuration D}
    (hbars : config.strategy.BarsNonnegative) {next : Window} {newRunId : String} {sent : Requeued}
    (h : queueNextWindow text config next newRunId = .ok sent) :
    reassemble text sent.descriptor sent.payload =
      .ok (seedOver config.toRunConfiguration config.strategy newRunId next) := by
  obtain ⟨hpayload, hdescriptor⟩ := queueNextWindow_sent h
  exact reassemble_encode htext hdecimal hbars hdescriptor hpayload

/-- Every rung runs the seed's configuration over the window of the rung. -/
theorem Rung.eq_seedOver (htext : text.ParsesDumps) (hdecimal : DecimalText.RoundTrips D)
    {run : RunConfiguration D} {strategy : StrategyConfig} (hbars : strategy.BarsNonnegative)
    {n : ℕ} {config : Configuration D} (h : Rung text run strategy n config) :
    ∃ runId window, advance ⟨run.lastMonths, run.offsetMonths⟩ n = some window ∧
      config = seedOver run strategy runId window := by
  induction h with
  | seed hrun hstrategy hdrain =>
    rw [reassemble_encode htext hdecimal hbars hrun hstrategy] at hdrain
    exact ⟨run.runId, _, rfl, (Except.ok.inj hdrain).symm⟩
  | next hrung hnext hsent hdrain ih =>
    obtain ⟨runId, window, hadvance, rfl⟩ := ih
    rw [reassemble_queueNextWindow htext hdecimal hbars hsent] at hdrain
    refine ⟨_, _, ?_, (Except.ok.inj hdrain).symm⟩
    rw [advance, hadvance]
    exact hnext

end Wire

/-! ## The windows of a chain -/

theorem nextWindow_eq_none {window : Window} (h : window ∉ kLadder.map Step.source) :
    nextWindow window.lastMonths window.offsetMonths = none := by
  rw [nextWindow, Option.map_eq_none_iff, List.find?_eq_none]
  intro step hstep hsource
  rw [decide_eq_true_eq] at hsource
  exact h (List.mem_map.mpr ⟨step, hstep, hsource⟩)

/-- From any window the ladder ends within three steps, and no window comes twice. -/
theorem advance_ends (start : Window) :
    ∃ n ≤ 3, advance start (n + 1) = none ∧ ∀ i ≤ n, (advance start i).isSome = true ∧
      ∀ j < i, advance start j ≠ advance start i := by
  by_cases h : start ∈ kLadder.map Step.source
  · simp only [kLadder, List.map_cons, List.map_nil, List.mem_cons, List.not_mem_nil,
      or_false] at h
    rcases h with rfl | rfl | rfl
    · exact ⟨3, by decide⟩
    · exact ⟨2, by decide⟩
    · exact ⟨1, by decide⟩
  · refine ⟨0, by omega, nextWindow_eq_none h, ?_⟩
    intro i hi
    obtain rfl : i = 0 := by omega
    exact ⟨rfl, fun j hj => absurd hj (Nat.not_lt_zero j)⟩

/-! ## The ladder -/

section Ladder

variable {text : JsonLibrary} {D : Type} [NatCast D] [DecimalText D] {run : RunConfiguration D}
  {strategy : StrategyConfig}

end Ladder

/-! A sweep of one strategy, whose balance is a natural number. -/

section Sample

local instance : DecimalText ℕ where
  toChars n := some (toString n)
  fromChars s := some (Nat.ofDigitChars 10 s.toList 0)

def sampleRun : RunConfiguration ℕ where
  runId := "run"
  symbols := "EURUSD"
  batch := "2026-28"
  executionTs := "2026-07-06T06:00:00Z"
  lastMonths := 3
  offsetMonths := 0
  startingBalance := 10000
  maxLossPercent := 5
  maxOpenTrades := 1
  maxTradesPerMinute := 60
  reportFailures := false
  peakHoursOnly := true
  entrySlippageTenthPips := 3

def sampleStrategy : StrategyConfig where
  uuid := "uuid"
  tradingVariables :=
    { strategy := "RandomStrategy"
      stopDistanceInAtr := 2
      limitDistanceInAtr := 3
      tradingSize := 1 }
  ohlcVariables := [{}]
  rangeVariables := []
  strategyVariables := {}

def asciiBytes (s : String) : List UInt8 := s.toList.map fun c => UInt8.ofNat c.toNat

def sampleRunText : List UInt8 :=
  asciiBytes "\x7b\"BATCH\":" ++ asciiBytes ("\"2026-28\",\"ENTRY_SLIPPAGE_TENTH_PIPS\":3," ++
    "\"EXECUTION_TS\":\"2026-07-06T06:00:00Z\",\"LAST_MONTHS\":3,\"MAX_LOSS_PERCENT\":\"5\"," ++
    "\"MAX_OPEN_TRADES\":1,\"MAX_TRADES_PER_MINUTE\":60,\"OFFSET_MONTHS\":0," ++
    "\"PEAK_HOURS_ONLY\":true,\"REPORT_FAILURES\":false,\"RUN_ID\":\"run\"," ++
    "\"STARTING_BALANCE\":\"10000\",\"SYMBOLS\":\"EURUSD\"\x7d")

def sampleStrategyText : List UInt8 :=
  asciiBytes "\x7b\"OHLC_VARIABLES\":" ++ asciiBytes
    ("[\x7b\"OHLC_COUNT\":0,\"OHLC_MINUTES\":0\x7d],\"RANGE_VARIABLES\":[]," ++
    "\"STRATEGY_VARIABLES\":\x7b\"FVG_STRATEGY_VARIABLES\":null,\"KELTNER_FADE_VARIABLES\":null," ++
    "\"LIQUIDITY_SWEEP_REVERSAL_VARIABLES\":null,\"NY_OPEN_RANGE_BREAKOUT_VARIABLES\":null," ++
    "\"OHLC_BREAKOUT_VARIABLES\":null,\"OHLC_RSI_VARIABLES\":null,\"RANGE_VELOCITY_VARIABLES\":null," ++
    "\"SESSION_RANGE_BREAKOUT_VARIABLES\":null,\"SQUEEZE_BREAKOUT_VARIABLES\":null\x7d," ++
    "\"TRADING_VARIABLES\":\x7b\"LIMIT_DISTANCE_IN_ATR\":\"3\",\"STOP_DISTANCE_IN_ATR\":\"2\"," ++
    "\"STRATEGY\":\"RandomStrategy\",\"TRADING_SIZE\":\"1\"\x7d,\"UUID\":\"uuid\"\x7d")

theorem append_ne_append {xs ys : List UInt8} {i : ℕ} (hx : i < xs.length) (hy : i < ys.length)
    (h : xs[i]? ≠ ys[i]?) (xs' ys' : List UInt8) : xs ++ xs' ≠ ys ++ ys' := by
  intro heq
  have hleft : (xs ++ xs')[i]? = xs[i]? := List.getElem?_append_left hx
  have hright : (ys ++ ys')[i]? = ys[i]? := List.getElem?_append_left hy
  rw [heq, hright] at hleft
  exact h hleft.symm

/-- The two texts part at their third character. -/
theorem sampleText_ne : sampleStrategyText ≠ sampleRunText := by
  have hrun : asciiBytes "\x7b\"BATCH\":" = [123, 34, 66, 65, 84, 67, 72, 34, 58] := by
    simp [asciiBytes]
  have hstrategy : asciiBytes "\x7b\"OHLC_VARIABLES\":" =
      [123, 34, 79, 72, 76, 67, 95, 86, 65, 82, 73, 65, 66, 76, 69, 83, 34, 58] := by
    simp [asciiBytes]
  unfold sampleStrategyText sampleRunText
  rw [hrun, hstrategy]
  have hthird : 2 < 9 ∧ 2 < 18 := by decide
  exact append_ne_append hthird.2 hthird.1 (by decide) _ _

attribute [irreducible] sampleRunText sampleStrategyText

theorem naturals_roundTrip : DecimalText.RoundTrips ℕ := fun n =>
  ⟨toString n, rfl, congrArg some (by
    rw [show (toString n).toList = Nat.toDigits 10 n from Nat.toList_repr]
    exact Nat.ofDigitChars_ten_toDigits)⟩

theorem sampleStrategy_bars : sampleStrategy.BarsNonnegative where
  ohlc := by
    intro v hv
    rw [List.mem_singleton.mp hv]
    decide
  range := by
    intro v hv
    cases hv

open Classical in
/-- The two values of the sweep, and their texts. -/
noncomputable def sampleText : JsonLibrary where
  dump j :=
    if toJson sampleRun = .ok j then .ok sampleRunText
    else if toJson sampleStrategy = .ok j then .ok sampleStrategyText
    else .error .type
  parse bytes :=
    if bytes = sampleRunText then toJson sampleRun
    else if bytes = sampleStrategyText then toJson sampleStrategy
    else .error .parse

theorem sampleText_parsesDumps : sampleText.ParsesDumps := by
  intro j bytes h
  unfold sampleText at *
  dsimp only at *
  split_ifs at h with hrun hstrategy
  · cases h
    rwa [if_pos rfl]
  · cases h
    rwa [if_neg sampleText_ne, if_pos rfl]

end Sample

end Rolling

end BacktestEngine
