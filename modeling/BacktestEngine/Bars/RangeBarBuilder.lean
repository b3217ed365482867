import BacktestEngine.Library.BoundedTail
import BacktestEngine.Library.MonotoneDeque
import BacktestEngine.Models.Bars
import Mathlib.Algebra.Ring.Int.Defs

/-! # Range bars

A bar completes when its prices span the threshold that was locked when it opened. The
threshold is a share of the range of the last ticks, which two monotonic deques keep.
-/

namespace BacktestEngine

/-- A number as a 64-bit one. -/
def toInt64 (value : ℤ) : ℤ := value.bmod (2 ^ 64)

theorem toInt64_of_small {value : ℤ} (hlow : -2 ^ 63 ≤ value) (hhigh : value < 2 ^ 63) :
    toInt64 value = value := by
  rw [toInt64, Int.bmod_eq_of_le (by omega) (by omega)]

namespace RangeBar

def kMaxPrepopulateTicks : ℤ := 1000000

/-- The rows that the warm-up query asks for: a full window, and a margin for the bars. -/
def prepopulateTickCap (spec : RangeBarSpec) : ℤ :=
  let ticksPerBar := (spec.atrTickWindow * spec.atrPercent + 99).tdiv 100
  let margin := 2 * spec.count * ticksPerBar
  min (spec.atrTickWindow + margin) kMaxPrepopulateTicks

/-- The ticks before a time, the oldest first; none when they are switched off, the symbol is unknown
or the query fails. -/
def prepopulateTicks (warmUp : WarmUp) (symbol : String) (before : ℤ) (spec : RangeBarSpec) :
    List PriceData :=
  if spec.atrTickWindow < 1 ∨ spec.atrPercent < 1 ∨ spec.count < 1 then []
  else if !warmUp.prepopulate then []
  else if SymbolScale.get symbol = SymbolScale.kUnknown then []
  else
    match warmUp.queryTicks symbol before (prepopulateTickCap spec) with
    | none => []
    | some ticks => ticks.reverse

/-- A 64-bit number as a 32-bit one. -/
def toInt32 (value : ℤ) : ℤ := value.bmod (2 ^ 32)

theorem toInt32_of_small {value : ℤ} (hlow : -2 ^ 31 ≤ value) (hhigh : value < 2 ^ 31) :
    toInt32 value = value := by
  rw [toInt32, Int.bmod_eq_of_le (by omega) (by omega)]

/-- A number too large for 32 bits comes out smaller. -/
theorem toInt32_lt {value : ℤ} (h : 2 ^ 31 ≤ value) : toInt32 value < value := by
  have hlt : value.bmod (2 ^ 32) < ((2 ^ 32 : ℕ) + 1) / 2 := Int.bmod_lt (by decide)
  unfold toInt32
  omega

end RangeBar

/-- The rolling window of one symbol's ticks and the bars built from them. -/
structure RangeSeries where
  spec : RangeBarSpec
  bars : List OhlcObject
  maxDeque : List (ℕ × ℤ)
  minDeque : List (ℕ × ℤ)
  tickIndex : ℕ
  lockedThreshold : ℤ
  prepopulateAttempted : Bool

namespace RangeSeries

open RangeBar

/-- A series before its first tick. -/
def fresh (spec : RangeBarSpec) : RangeSeries := ⟨spec, [], [], [], 0, 0, false⟩

def make (spec : RangeBarSpec) : Except String RangeSeries :=
  if spec.atrTickWindow < 1 ∨ spec.atrPercent < 1 ∨ spec.count < 1 then
    throw "RangeSeries: all RangeBarSpec fields must be >= 1"
  else return fresh spec

def warm (series : RangeSeries) : Bool := series.spec.atrTickWindow.toNat ≤ series.tickIndex

/-- The span of the prices in the window, none before any tick. -/
def windowRange (series : RangeSeries) : ℤ :=
  match series.maxDeque.head?, series.minDeque.head? with
  | some highest, some lowest => highest.2 - lowest.2
  | _, _ => 0

/-- The window takes in a tick and forgets the one that leaves it. -/
def slide (series : RangeSeries) (tick : PriceData) : RangeSeries :=
  let tickIndex := series.tickIndex + 1
  let entry := (tickIndex, tick.ask)
  let window := series.spec.atrTickWindow.toNat
  { series with
    tickIndex := tickIndex
    maxDeque := (MonotoneDeque.push (· ≤ ·) entry series.maxDeque).dropWhile
      fun e => e.1 + window ≤ tickIndex
    minDeque := (MonotoneDeque.push (· ≥ ·) entry series.minDeque).dropWhile
      fun e => e.1 + window ≤ tickIndex }

/-- The share of the window's range that a bar opened now has to span, at least a point. -/
def scaledThreshold (series : RangeSeries) : ℤ :=
  max 1 ((series.windowRange * series.spec.atrPercent + 50).tdiv 100)

/-- Open a bar at a tick and lock its threshold. -/
def openBar (series : RangeSeries) (tick : PriceData) : RangeSeries :=
  { series with
    lockedThreshold := toInt32 series.scaledThreshold
    bars := series.bars ++ [.opened tick tick.ask] }

/-- The open bar after a price; the price that spans the threshold closes it. -/
def absorbed (series : RangeSeries) (bar : OhlcObject) (price : ℤ) : OhlcObject :=
  let bar := bar.absorb price
  if bar.high - bar.low ≥ series.lockedThreshold then { bar with complete := true } else bar

/-- The bars take in a tick that is in the window already. -/
def roll (series : RangeSeries) (tick : PriceData) : RangeSeries :=
  match series.bars.getLast? with
  | none => series.openBar tick
  | some bar =>
    if bar.complete then series.openBar tick
    else { series with bars := series.bars.dropLast ++ [series.absorbed bar tick.ask] }

/-- Forget the oldest bars. -/
def keep (series : RangeSeries) : RangeSeries :=
  { series with bars := BoundedTail.trim series.spec.count.toNat series.bars }

def applyTick (series : RangeSeries) (tick : PriceData) : RangeSeries :=
  let series := series.slide tick
  if !series.warm then series else (series.roll tick).keep

/-- Take in a tick, after the ticks of the warm-up if it is the first one. -/
def update (series : RangeSeries) (warmUp : WarmUp) (tick : PriceData) : RangeSeries :=
  if series.prepopulateAttempted then series.applyTick tick
  else
    let seeds := prepopulateTicks warmUp tick.symbol tick.timestamp series.spec
    let series := { series with prepopulateAttempted := true }
    (seeds.foldl applyTick series).applyTick tick

/-- A run over ticks. -/
def feed (series : RangeSeries) (warmUp : WarmUp) (ticks : List PriceData) : RangeSeries :=
  ticks.foldl (fun series tick => series.update warmUp tick) series

variable {spec : RangeBarSpec} {series : RangeSeries} {tick : PriceData}

theorem make_eq_ok (h : make spec = .ok series) :
    series = fresh spec ∧ 1 ≤ spec.atrTickWindow ∧ 1 ≤ spec.atrPercent ∧ 1 ≤ spec.count := by
  unfold make at h
  split_ifs at h with hinvalid
  simp only [not_or, not_lt] at hinvalid
  exact ⟨(Except.ok.inj h).symm, hinvalid⟩

@[simp] theorem slide_spec : (series.slide tick).spec = series.spec := rfl
@[simp] theorem slide_bars : (series.slide tick).bars = series.bars := rfl
@[simp] theorem slide_lockedThreshold :
    (series.slide tick).lockedThreshold = series.lockedThreshold := rfl
@[simp] theorem slide_tickIndex : (series.slide tick).tickIndex = series.tickIndex + 1 := rfl

/-- Without warm-up the first tick is taken in like any other. -/
theorem update_off {warmUp : WarmUp} (hoff : warmUp.prepopulate = false) :
    series.update warmUp tick =
      applyTick { series with prepopulateAttempted := true } tick := by
  have hseeds : prepopulateTicks warmUp tick.symbol tick.timestamp series.spec = [] := by
    simp [prepopulateTicks, hoff]
  unfold update
  split_ifs with hattempted
  · rw [← hattempted]
  · rw [hseeds]
    rfl

end RangeSeries

end BacktestEngine
