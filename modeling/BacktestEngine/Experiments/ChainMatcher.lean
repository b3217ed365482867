import BacktestEngine.Library.MonotoneDeque
import BacktestEngine.Models.Decimal
import BacktestEngine.Models.Trade

/-! # The chain matcher

An experiment asks for a chain of price movements, one leg after the other. The matcher
reads one symbol's ticks and counts the chains that do not overlap: its first leg rolls
with the ticks, every later one is anchored at the tick that completed the one before,
and a match clears everything. Extremes and gaps of a trailing window are kept in
monotonic deques.
-/

namespace BacktestEngine

namespace Experiments

/-! ## Experiments -/

inductive ActivityType
  | directionalMove
  | staysInBand
  | newExtreme
  | rangeRelativeMove
  deriving DecidableEq, Repr

def ActivityType.toString : ActivityType → String
  | .directionalMove => "DirectionalMove"
  | .staysInBand => "StaysInBand"
  | .newExtreme => "NewExtreme"
  | .rangeRelativeMove => "RangeRelativeMove"

/-- One leg of a chain; each type reads the fields it needs. -/
structure Activity (D : Type) where
  type : ActivityType
  movePercent : D
  windowSeconds : ℤ
  lookbackSeconds : ℤ
  direction : ℤ
  atrMultiple : D

structure ExperimentConfig (D : Type) where
  chain : List (Activity D)

/-- A tick as the matcher is given it. -/
structure MidTick where
  mid : ℤ
  spread : ℤ
  ts : ℤ
  deriving DecidableEq, Repr

/-! ## Trackers -/

/-- Gaps are compared as integers, and the infinite one is above them all. -/
instance (priority := high) instLTGap : LT (WithTop ℤ) := WithTop.instLT

instance (priority := high) instLEGap : LE (WithTop ℤ) := WithTop.instLE

/-- The extremes and the gaps of a trailing window, as of the last tick fed. -/
structure Tracker where
  window : ℤ
  maxDeque : List (ℤ × ℤ) := []
  minDeque : List (ℤ × ℤ) := []
  gapDeque : List (ℤ × WithTop ℤ) := []
  lastTick : Option ℤ := none
  preMax : Option ℤ := none
  preMin : Option ℤ := none
  deriving DecidableEq

namespace Tracker

/-- Expire, keep the extremes from before the tick, and insert it with the gap before it; the first
tick comes after an infinite gap. -/
def feed (tracker : Tracker) (ts mid : ℤ) : Tracker :=
  -- an entry expires when its time plus the window lies before the tick
  let cut := ts - tracker.window
  let maxDeque := MonotoneDeque.expire cut tracker.maxDeque
  let minDeque := MonotoneDeque.expire cut tracker.minDeque
  let gapDeque := MonotoneDeque.expire cut tracker.gapDeque
  let gap : WithTop ℤ := match tracker.lastTick with
    | none => ⊤
    | some last => ((ts - last : ℤ) : WithTop ℤ)
  { window := tracker.window
    maxDeque := MonotoneDeque.push (· ≤ ·) (ts, mid) maxDeque
    minDeque := MonotoneDeque.push (· ≥ ·) (ts, mid) minDeque
    gapDeque := MonotoneDeque.push (· ≤ ·) (ts, gap) gapDeque
    lastTick := some ts
    preMax := maxDeque.head?.map Prod.snd
    preMin := minDeque.head?.map Prod.snd }

/-- The greatest price of the window; there is none before the first tick. -/
def max (tracker : Tracker) : Option ℤ := tracker.maxDeque.head?.map Prod.snd

def min (tracker : Tracker) : Option ℤ := tracker.minDeque.head?.map Prod.snd

/-- A full window of ticks: no gap in it is as long as the window itself. -/
def covered (tracker : Tracker) : Bool :=
  (tracker.gapDeque.head?.map Prod.snd).any fun gap => gap < (tracker.window : WithTop ℤ)

/-- The distance between the extremes. -/
def range (tracker : Tracker) : Option ℤ := do
  let high ← tracker.max
  let low ← tracker.min
  return high - low

def reset (tracker : Tracker) : Tracker := { window := tracker.window }

end Tracker

/-! ## Legs -/

/-- What a leg is matched by, every threshold an integer, with its trackers. -/
structure LegRuntime where
  type : ActivityType
  window : ℤ
  pctScaled : ℤ := 0
  negativeMove : Bool := false
  direction : ℤ := 0
  atrScaled : ℤ := 0
  moveTracker : Option Tracker := none
  basisTracker : Option Tracker := none
  deriving DecidableEq

namespace LegRuntime

/-- Feed the trackers the leg has. -/
def feed (leg : LegRuntime) (tick : MidTick) : LegRuntime :=
  { leg with
    moveTracker := leg.moveTracker.map (·.feed tick.ts tick.mid)
    basisTracker := leg.basisTracker.map (·.feed tick.ts tick.mid) }

def reset (leg : LegRuntime) : LegRuntime :=
  { leg with
    moveTracker := leg.moveTracker.map Tracker.reset
    basisTracker := leg.basisTracker.map Tracker.reset }

end LegRuntime

variable {D : Type} [Rounding D]

/-- Thresholds are kept in millionths. -/
def scaled (x : D) : ℤ := Rounding.llround (Decimal.mul x (Decimal.ofInt 1000000))

def isZero (x : D) : Bool := Rounding.beq x (Decimal.ofInt 0)

def isNegative (x : D) : Bool := Decimal.lt x (Decimal.ofInt 0)

omit [Rounding D] in
def requirePositive (activity : Activity D) (index : ℕ) (value : ℤ) (field : String) :
    Except String Unit :=
  if value < 1 then
    throw ("ChainMatcher: leg " ++ toString (index + 1) ++ " (" ++ activity.type.toString ++
      ") requires " ++ field ++ " >= 1")
  else return ()

omit [Rounding D] in
def requireDirection (activity : Activity D) (index : ℕ) : Except String Unit :=
  if activity.direction ≠ 1 ∧ activity.direction ≠ -1 then
    throw ("ChainMatcher: leg " ++ toString (index + 1) ++ " (" ++ activity.type.toString ++
      ") requires DIRECTION of +1 or -1")
  else return ()

/-- A later leg has to complete within its window. -/
def requireDeadline (activity : Activity D) (index : ℕ) : Except String Unit :=
  if index > 0 then requirePositive activity index activity.windowSeconds "WINDOW_SECONDS"
  else return ()

/-- The leg of an activity, if the activity has the fields its type reads. -/
def makeLeg (activity : Activity D) (index : ℕ) : Except String LegRuntime :=
  let window := activity.windowSeconds * second
  let moveTracker : Option Tracker := if index = 0 then some { window := window } else none
  match activity.type with
  | .directionalMove => do
    if isZero activity.movePercent then
      throw ("ChainMatcher: leg " ++ toString (index + 1) ++
        " (DirectionalMove) requires a non-zero MOVE_PERCENT")
    requirePositive activity index activity.windowSeconds "WINDOW_SECONDS"
    pure
      { type := .directionalMove
        window := window
        negativeMove := isNegative activity.movePercent
        pctScaled := scaled (Rounding.abs activity.movePercent)
        moveTracker := moveTracker }
  | .staysInBand => do
    if isZero activity.movePercent then
      throw ("ChainMatcher: leg " ++ toString (index + 1) ++
        " (StaysInBand) requires a non-zero MOVE_PERCENT (band width)")
    let bandSeconds :=
      if activity.lookbackSeconds > 0 then activity.lookbackSeconds else activity.windowSeconds
    requirePositive activity index bandSeconds "LOOKBACK_SECONDS (or WINDOW_SECONDS)"
    requireDeadline activity index
    pure
      { type := .staysInBand
        window := window
        pctScaled := scaled (Rounding.abs activity.movePercent)
        basisTracker := some { window := bandSeconds * second } }
  | .newExtreme => do
    requirePositive activity index activity.lookbackSeconds "LOOKBACK_SECONDS"
    requireDirection activity index
    requireDeadline activity index
    pure
      { type := .newExtreme
        window := window
        direction := activity.direction
        basisTracker := some { window := activity.lookbackSeconds * second } }
  | .rangeRelativeMove => do
    requirePositive activity index activity.lookbackSeconds "LOOKBACK_SECONDS"
    requirePositive activity index activity.windowSeconds "WINDOW_SECONDS"
    requireDirection activity index
    if isNegative activity.atrMultiple || isZero activity.atrMultiple then
      throw ("ChainMatcher: leg " ++ toString (index + 1) ++
        " (RangeRelativeMove) requires ATR_MULTIPLE > 0")
    pure
      { type := .rangeRelativeMove
        window := window
        direction := activity.direction
        atrScaled := scaled activity.atrMultiple
        basisTracker := some { window := activity.lookbackSeconds * second }
        moveTracker := moveTracker }

/-- The price fell from `extreme` by the percentage. -/
def fellBy (pctScaled extreme cur : ℤ) : Bool :=
  (extreme - cur) * 100000000 ≥ extreme * pctScaled

/-- The price rose from `extreme` by the percentage. -/
def roseBy (pctScaled extreme cur : ℤ) : Bool :=
  (cur - extreme) * 100000000 ≥ extreme * pctScaled

/-- The threshold that a multiple of a range makes, at least one point. -/
def rangeThreshold (range atrScaled : ℤ) : ℤ :=
  Max.max 1 ((range * atrScaled + 500000).tdiv 1000000)

/-! ## Counting matches -/

/-- How far a resolved attempt went above and below its first anchor. -/
structure ExcursionSample where
  abovePoints : ℤ
  belowPoints : ℤ
  anchorMid : ℤ
  deriving DecidableEq

structure MatchStats where
  occurrences : ℕ := 0
  attempts : ℕ := 0
  failuresByLeg : List ℕ
  completedExcursions : List ExcursionSample := []
  failedExcursions : List ExcursionSample := []
  completionSeconds : List ℤ := []
  spreadAtTriggerSum : ℤ := 0
  spreadAtTriggerCount : ℕ := 0
  samplesTruncated : Bool := false
  deriving DecidableEq

namespace MatchStats

/-- Take down an attempt that ended, unless its population is full. -/
def record (stats : MatchStats) (maxSamples : ℕ) (completed : Bool) (sample : ExcursionSample)
    (seconds : ℤ) : MatchStats :=
  let samples := if completed then stats.completedExcursions else stats.failedExcursions
  if samples.length ≥ maxSamples then { stats with samplesTruncated := true }
  else if completed then
    { stats with
      completedExcursions := samples ++ [sample]
      completionSeconds := stats.completionSeconds ++ [seconds] }
  else { stats with failedExcursions := samples ++ [sample] }

/-- The first leg was completed: an attempt begins, at the spread of the tick. -/
def began (stats : MatchStats) (spread : ℤ) : MatchStats :=
  { stats with
    attempts := stats.attempts + 1
    spreadAtTriggerSum := stats.spreadAtTriggerSum + spread
    spreadAtTriggerCount := stats.spreadAtTriggerCount + 1 }

def occurred (stats : MatchStats) : MatchStats :=
  { stats with occurrences := stats.occurrences + 1 }

/-- The chain died while this leg was sought. -/
def failed (stats : MatchStats) (leg : ℕ) : MatchStats :=
  { stats with failuresByLeg := stats.failuresByLeg.modify leg (· + 1) }

end MatchStats

def kMaxAttemptSamples : ℕ := 100000

/-- One symbol's matcher. -/
structure ChainMatcher where
  legs : List LegRuntime
  stats : MatchStats
  maxSamples : ℕ
  active : ℕ := 0
  anchorMid : ℤ := 0
  anchorTs : ℤ := 0
  anchorThreshold : ℤ := 0
  anchorThresholdValid : Bool := false
  attemptAnchorMid : ℤ := 0
  attemptAnchorTs : ℤ := 0
  attemptAbove : ℤ := 0
  attemptBelow : ℤ := 0
  deriving DecidableEq

/-- The legs of a chain, made in order from an index on. -/
def makeLegs : (index : ℕ) → List (Activity D) → Except String (List LegRuntime)
  | _, [] => return []
  | index, activity :: chain => do
    let leg ← makeLeg activity index
    let legs ← makeLegs (index + 1) chain
    return leg :: legs

namespace ChainMatcher

def make (config : ExperimentConfig D) (maxSamples : ℕ) : Except String ChainMatcher := do
  if config.chain = [] then throw "ChainMatcher: CHAIN must not be empty"
  let legs ← makeLegs 0 config.chain
  return { legs, stats := { failuresByLeg := List.replicate legs.length 0 }, maxSamples }

def feed (matcher : ChainMatcher) (tick : MidTick) : ChainMatcher :=
  { matcher with legs := matcher.legs.map fun leg => leg.feed tick }

/-- Whether a leg's condition holds at the tick. The first leg rolls; a later one looks back at its
anchor, and the threshold of its range was frozen there. -/
def conditionHolds (matcher : ChainMatcher) (index : ℕ) (cur : ℤ) : Bool :=
  match matcher.legs[index]? with
  | none => false
  | some leg =>
    match leg.type with
    | .directionalMove =>
      if index = 0 then
        leg.moveTracker.any fun roll =>
          if leg.negativeMove then roll.max.any fun rollMax => fellBy leg.pctScaled rollMax cur
          else roll.min.any fun rollMin => roseBy leg.pctScaled rollMin cur
      else if leg.negativeMove then fellBy leg.pctScaled matcher.anchorMid cur
      else roseBy leg.pctScaled matcher.anchorMid cur
    | .staysInBand =>
      leg.basisTracker.any fun basis =>
        basis.covered && basis.range.any fun range => range * 100000000 ≤ cur * leg.pctScaled
    | .newExtreme =>
      leg.basisTracker.any fun basis =>
        basis.covered &&
          if leg.direction > 0 then basis.preMax.any fun preMax => cur > preMax
          else basis.preMin.any fun preMin => cur < preMin
    | .rangeRelativeMove =>
      if index = 0 then
        leg.basisTracker.any fun basis =>
          basis.covered && basis.range.any fun range =>
            leg.moveTracker.any fun roll =>
              if leg.direction < 0 then
                roll.max.any fun rollMax => rollMax - cur ≥ rangeThreshold range leg.atrScaled
              else roll.min.any fun rollMin => cur - rollMin ≥ rangeThreshold range leg.atrScaled
      else
        matcher.anchorThresholdValid &&
          if leg.direction < 0 then matcher.anchorMid - cur ≥ matcher.anchorThreshold
          else cur - matcher.anchorMid ≥ matcher.anchorThreshold

def recordAttempt (matcher : ChainMatcher) (completed : Bool) (ts : ℤ) : ChainMatcher :=
  { matcher with
    stats := matcher.stats.record matcher.maxSamples completed
      ⟨matcher.attemptAbove, matcher.attemptBelow, matcher.attemptAnchorMid⟩
      ((ts - matcher.attemptAnchorTs).tdiv second) }

/-- After a match nothing from before it counts. -/
def resetAfterMatch (matcher : ChainMatcher) : ChainMatcher :=
  { matcher with active := 0, legs := matcher.legs.map LegRuntime.reset }

/-- The completion of the first leg is an attempt; its excursions are measured from here. -/
def beginAttempt (matcher : ChainMatcher) (tick : MidTick) : ChainMatcher :=
  { matcher with
    stats := matcher.stats.began tick.spread
    attemptAnchorMid := tick.mid
    attemptAnchorTs := tick.ts
    attemptAbove := 0
    attemptBelow := 0 }

/-- The next leg is anchored at the tick; the threshold of a range is frozen there. -/
def anchorNext (matcher : ChainMatcher) (tick : MidTick) : ChainMatcher :=
  let active := matcher.active + 1
  let matcher := { matcher with active, anchorMid := tick.mid, anchorTs := tick.ts }
  match matcher.legs[active]? with
  | some next =>
    match next.type, next.basisTracker with
    | .rangeRelativeMove, some basis =>
      { matcher with
        anchorThresholdValid := basis.covered
        anchorThreshold :=
          if basis.covered then rangeThreshold (basis.range.getD 0) next.atrScaled else 0 }
    | _, _ => matcher
  | none => matcher

/-- The chain is done, or its next leg is anchored. -/
def advance (matcher : ChainMatcher) (tick : MidTick) : ChainMatcher :=
  if matcher.active + 1 = matcher.legs.length then
    let matcher := { matcher with stats := matcher.stats.occurred }
    (matcher.recordAttempt true tick.ts).resetAfterMatch
  else matcher.anchorNext tick

def completeActiveLeg (matcher : ChainMatcher) (tick : MidTick) : ChainMatcher :=
  if matcher.active = 0 then (matcher.beginAttempt tick).advance tick else matcher.advance tick

/-- Look for the first leg. -/
def scan (matcher : ChainMatcher) (tick : MidTick) : ChainMatcher :=
  if matcher.conditionHolds 0 tick.mid then matcher.completeActiveLeg tick else matcher

/-- The excursion of the attempt in flight takes in the tick. -/
def extendAttempt (matcher : ChainMatcher) (tick : MidTick) : ChainMatcher :=
  { matcher with
    attemptAbove := max matcher.attemptAbove (tick.mid - matcher.attemptAnchorMid)
    attemptBelow := max matcher.attemptBelow (matcher.attemptAnchorMid - tick.mid) }

/-- The chain dies with the leg being sought. -/
def expire (matcher : ChainMatcher) (tick : MidTick) : ChainMatcher :=
  let matcher := matcher.recordAttempt false tick.ts
  { matcher with stats := matcher.stats.failed matcher.active, active := 0 }

def onTick (matcher : ChainMatcher) (tick : MidTick) : ChainMatcher :=
  let matcher := matcher.feed tick
  if matcher.active > 0 then
    let matcher := matcher.extendAttempt tick
    match matcher.legs[matcher.active]? with
    | none => matcher
    | some leg =>
      if tick.ts - matcher.anchorTs > leg.window then (matcher.expire tick).scan tick
      else if matcher.conditionHolds matcher.active tick.mid then matcher.completeActiveLeg tick
      else matcher
  else matcher.scan tick

/-- Feed every tick, in stream order. -/
def run (matcher : ChainMatcher) (ticks : List MidTick) : ChainMatcher := ticks.foldl onTick matcher

/-- A tick while a later leg is sought. -/
theorem onTick_seeking {matcher : ChainMatcher} {tick : MidTick} {leg : LegRuntime}
    (hactive : 0 < matcher.active) (hleg : (matcher.feed tick).legs[matcher.active]? = some leg) :
    matcher.onTick tick =
      let fed := (matcher.feed tick).extendAttempt tick
      if tick.ts - matcher.anchorTs > leg.window then (fed.expire tick).scan tick
      else if fed.conditionHolds matcher.active tick.mid then fed.completeActiveLeg tick
      else fed := by
  have hseek : (matcher.feed tick).active > 0 := hactive
  have hlegs : ((matcher.feed tick).extendAttempt tick).legs[
      ((matcher.feed tick).extendAttempt tick).active]? = some leg := hleg
  rw [onTick, if_pos hseek]
  simp only [hlegs]
  rfl

/-- A tick while the first leg is sought. -/
theorem onTick_scanning {matcher : ChainMatcher} {tick : MidTick} (hactive : matcher.active = 0) :
    matcher.onTick tick = (matcher.feed tick).scan tick := by
  have hidle : ¬ (matcher.feed tick).active > 0 := by
    rw [show (matcher.feed tick).active = 0 from hactive]
    exact Nat.lt_irrefl 0
  rw [onTick, if_neg hidle]

end ChainMatcher

end Experiments

end BacktestEngine
