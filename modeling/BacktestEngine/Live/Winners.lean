import Mathlib.Data.List.DropRight
import Mathlib.Data.Prod.Lex
import Mathlib.Data.String.Basic
import BacktestEngine.Library.Greedy
import BacktestEngine.Library.SortedMap
import BacktestEngine.Queue.Configuration

/-! # Winning runs

What a search returned becomes one candidate for each symbol of a run, in the group of the
symbol and the strategy. From every group the best candidates are picked that behave unlike
those picked before them.
-/

namespace BacktestEngine

namespace Live.Winners

open Greedy TradingDefinitions

/-- A past run, bound to one of its symbols. Scores are finite, and their arithmetic is exact. -/
structure Winner where
  symbol : String
  strategyName : String
  runId : String
  performanceScore : ℚ
  finalPnl : ℚ := 0
  tradesClosed : ℤ := -1
  openedLong : ℤ := -1
  openedShort : ℤ := -1
  maxOpenTrades : Int32 := 0
  maxTradesPerMinute : Int32 := 60
  peakHoursOnly : Bool := false
  config : StrategyConfig

/-- The group of a candidate. -/
def Winner.key (w : Winner) : String ×ₗ String := toLex (w.symbol, w.strategyName)

def kOhlcCountDiversityGap : ℤ := 10

def kBehaviourNeighbourFrac : ℚ := 1 / 5

def kMinTradeGap : ℤ := 3

def kMinPnlGap : ℚ := 500

/-! ## Clones and diversity -/

def sameResults (a b : Winner) : Bool :=
  decide (a.performanceScore = b.performanceScore ∧ a.finalPnl = b.finalPnl ∧
    a.tradesClosed = b.tradesClosed)

def ohlcDiffers (x y : List OHLCVariables) : Bool :=
  x.length != y.length ||
    (List.zipWith (fun a b => a.ohlcMinutes != b.ohlcMinutes ||
      decide (kOhlcCountDiversityGap < |a.ohlcCount.toInt - b.ohlcCount.toInt|)) x y).any id

/-- The count of the bars is derived from the strategy, and no knob of its own. -/
def rangeDiffers (x y : List RangeBarVariables) : Bool :=
  x.length != y.length ||
    (List.zipWith (fun a b => a.rangeAtrTickWindow != b.rangeAtrTickWindow ||
      a.rangeAtrPercent != b.rangeAtrPercent) x y).any id

def legacyConfigDiverse (a b : Winner) : Bool :=
  ohlcDiffers a.config.ohlcVariables b.config.ohlcVariables ||
    rangeDiffers a.config.rangeVariables b.config.rangeVariables ||
      a.config.ohlcVariables.isEmpty && b.config.ohlcVariables.isEmpty &&
        a.config.rangeVariables.isEmpty && b.config.rangeVariables.isEmpty

def tradesClose (a b : Winner) : Bool :=
  let delta := if b.tradesClosed ≤ a.tradesClosed then a.tradesClosed - b.tradesClosed
    else b.tradesClosed - a.tradesClosed
  let band := max (kMinTradeGap : ℚ)
    (kBehaviourNeighbourFrac * (max a.tradesClosed b.tradesClosed : ℤ))
  decide ((delta : ℚ) ≤ band)

def pnlClose (a b : Winner) : Bool :=
  let band := max kMinPnlGap (kBehaviourNeighbourFrac * max |a.finalPnl| |b.finalPnl|)
  decide (|a.finalPnl - b.finalPnl| ≤ band)

/-- A side that lacks a count or opened nothing reads as close. -/
def directionClose (a b : Winner) : Bool :=
  if a.openedLong < 0 ∨ a.openedShort < 0 ∨ b.openedLong < 0 ∨ b.openedShort < 0 then true
  else
    let aTotal := a.openedLong + a.openedShort
    let bTotal := b.openedLong + b.openedShort
    if aTotal = 0 ∨ bTotal = 0 then true
    else
      let aFrac : ℚ := a.openedLong / aTotal
      let bFrac : ℚ := b.openedLong / bTotal
      decide (|aFrac - bFrac| ≤ kBehaviourNeighbourFrac)

def isDiverse (a b : Winner) : Bool :=
  if a.tradesClosed < 0 ∨ b.tradesClosed < 0 then legacyConfigDiverse a b
  else !(tradesClose a b && pnlClose a b && directionClose a b)

/-! ## Groups -/

/-- The candidates by symbol and then by strategy, each in the group of its own names. -/
structure GroupMap where
  groups : SortedMap (String ×ₗ String) (List Winner)
  keyed : ∀ key candidates, groups.get? key = some candidates → ∀ w ∈ candidates, w.key = key

namespace GroupMap

def empty : GroupMap := ⟨∅, nofun⟩

def candidates (groups : GroupMap) (key : String ×ₗ String) : List Winner :=
  (groups.groups.get? key).getD []

/-- A candidate goes to the end of its group. -/
def push (groups : GroupMap) (w : Winner) : GroupMap where
  groups := groups.groups.update w.key fun candidates => candidates.getD [] ++ [w]
  keyed := by
    intro key candidates hget v hv
    by_cases hkey : key = w.key
    · rw [hkey, SortedMap.get?_update_self] at hget
      cases hget
      obtain hold | hnew := List.mem_append.mp hv
      · cases hgroup : groups.groups.get? w.key with
        | none =>
          rw [hgroup] at hold
          cases hold
        | some old =>
          rw [hgroup] at hold
          rw [hkey]
          exact groups.keyed _ _ hgroup v hold
      · rw [hkey, List.mem_singleton.mp hnew]
    · rw [SortedMap.get?_update_of_ne hkey] at hget
      exact groups.keyed _ _ hget v hv

end GroupMap

/-- The array of the hits, where the response has the shape of one. -/
def findHitsArray (response : JsonValue) : Option (List JsonValue) :=
  match (response.find "hits").bind (·.find "hits") with
  | some (.array hits) => some hits
  | _ => none

def isBlank (c : Char) : Bool := c == ' ' || c == '\t'

/-- The fields between commas, without blanks around them, as far as anything is left of them. -/
def splitSymbols (group : String) : List String :=
  ((group.toList.splitOn ',').map fun token =>
    String.ofList ((token.dropWhile isBlank).rdropWhile isBlank)).filter fun symbol => symbol != ""

/-- A number as a double. -/
def double? (j : JsonValue) : Option ℚ :=
  match j.getDouble with
  | .ok (.finite q) => some q
  | _ => none

/-- A number as a 64-bit integer. -/
def long? : JsonValue → Option ℤ
  | .integer n => some (Int64.ofInt n).toInt
  | .float q => some (Int64.ofInt (q.num.tdiv q.den)).toInt
  | _ => none

/-- The candidates of a hit, one for each of its symbols. -/
def candidatesOf (activeStrategies : List String) (hit : JsonValue) :
    Except JsonError (List Winner) := do
  let source ← hit.atKey "_source"
  let config ← source.atKey "config"
  let results ← source.atKey "results"
  let runId ← source.value "RUN_ID" ""
  let score ← results.atKey "performanceScore"
  match double? score with
  | none => throw .type
  | some performanceScore =>
    let strategy : StrategyConfig ← fromJson (← config.atKey "STRATEGY")
    let strategyName := strategy.tradingVariables.strategy
    let maxOpenTrades ← config.value "MAX_OPEN_TRADES" (0 : Int32)
    let maxTradesPerMinute ← config.value "MAX_TRADES_PER_MINUTE" (60 : Int32)
    let peakHoursOnly ← config.value "PEAK_HOURS_ONLY" false
    if strategyName ∉ activeStrategies then pure []
    else
      let symbolsField : String ← fromJson (← config.atKey "SYMBOLS")
      pure ((splitSymbols symbolsField).map fun symbol => {
        symbol, strategyName, runId, performanceScore
        finalPnl := ((results.find "finalPnl").bind double?).getD 0
        tradesClosed := ((results.find "tradesClosed").bind long?).getD (-1)
        openedLong := ((results.find "openedLong").bind long?).getD (-1)
        openedShort := ((results.find "openedShort").bind long?).getD (-1)
        maxOpenTrades, maxTradesPerMinute, peakHoursOnly, config := strategy })

/-- A malformed hit is left out. -/
def hitCandidates (activeStrategies : List String) (hit : JsonValue) : List Winner :=
  (candidatesOf activeStrategies hit).toOption.getD []

def collectCandidates (searchResponse : JsonValue) (activeStrategies : List String)
    (groups : GroupMap) : GroupMap :=
  match findHitsArray searchResponse with
  | none => groups
  | some hits => hits.foldl (fun groups hit =>
      (hitCandidates activeStrategies hit).foldl GroupMap.push groups) groups

/-- The groups of all queries that were answered and parsed. -/
def fetchGroups (activeStrategies : List String) (responses : List JsonValue) : GroupMap :=
  responses.foldl (fun groups response => collectCandidates response activeStrategies groups)
    GroupMap.empty

/-! ## Picking -/

/-- The walk along the ranked candidates of a group. -/
def pickFrom (topPerGroup : ℕ) (picked : List Winner) : List Winner → List Winner
  | [] => picked
  | candidate :: rest =>
    if picked.length = topPerGroup then picked
    else
      let clone := picked.any fun p => sameResults candidate p
      let diverse := picked.all fun p => isDiverse candidate p
      if clone || !diverse then pickFrom topPerGroup picked rest
      else pickFrom topPerGroup (picked ++ [candidate]) rest

def pickGroup (topPerGroup : ℕ) (candidates : List Winner) : List Winner :=
  pickFrom topPerGroup [] (ranked Winner.performanceScore candidates)

def pickWinners (groups : GroupMap) (topPerGroup : ℕ) : List Winner :=
  groups.groups.entries.flatMap fun entry => pickGroup topPerGroup entry.2

end Live.Winners

end BacktestEngine
