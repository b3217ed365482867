import BacktestEngine.Bars.OhlcBuilder
import BacktestEngine.Bars.RangeBarBuilder
import BacktestEngine.Library.Registry
import Mathlib.Data.List.AList

/-! # The bar store

The series that a run or a worker reads are registered before the first tick, each once
for all its readers. Every tick goes into every series of its symbol.
-/

namespace BacktestEngine

/-- The histories of a symbol stand in the order of the specs. -/
structure BarStore where
  specs : List SeriesSpec
  bySymbol : AList fun _ : String => List (List OhlcObject)
  rangeSpecs : List RangeBarSpec
  rangeBySymbol : AList fun _ : String => List RangeSeries

namespace BarStore

def fresh : BarStore := ⟨[], ∅, [], ∅⟩

/-! ## Registration -/

def sameMinutes (a b : SeriesSpec) : Bool := a.minutes = b.minutes

def deepen (a b : SeriesSpec) : SeriesSpec := { a with count := max a.count b.count }

def deepenRange (a b : RangeBarSpec) : RangeBarSpec := { a with count := max a.count b.count }

def registerSeries (store : BarStore) (minutes count : ℤ) : Except String BarStore :=
  if minutes < 1 ∨ count < 1 then
    throw "BarStore::registerSeries: minutes and count must be >= 1"
  else
    return { store with specs := Registry.register sameMinutes deepen ⟨minutes, count⟩ store.specs }

def registerRangeSeries (store : BarStore) (spec : RangeBarSpec) : Except String BarStore :=
  if spec.atrTickWindow < 1 ∨ spec.atrPercent < 1 ∨ spec.count < 1 then
    throw "BarStore::registerRangeSeries: all spec fields must be >= 1"
  else
    return { store with
      rangeSpecs := Registry.register sameIdentity deepenRange spec store.rangeSpecs }

inductive Registration
  | series (spec : SeriesSpec)
  | range (spec : RangeBarSpec)

def Registration.series? : Registration → Option SeriesSpec
  | .series spec => some spec
  | .range _ => none

def Registration.range? : Registration → Option RangeBarSpec
  | .series _ => none
  | .range spec => some spec

def register (store : BarStore) : Registration → Except String BarStore
  | .series spec => store.registerSeries spec.minutes spec.count
  | .range spec => store.registerRangeSeries spec

def registerAll (store : BarStore) (registrations : List Registration) : Except String BarStore :=
  registrations.foldlM register store

/-! ## Ticks -/

/-- The length of a bar, in microseconds. -/
def duration (minutes : ℤ) : ℤ := minutes * (60 * second)

/-- One history takes in a tick and forgets its oldest bars. -/
def updateOHLC (warmUp : WarmUp) (tick : PriceData) (spec : SeriesSpec)
    (series : List OhlcObject) : Except String (List OhlcObject) := do
  let series ← Ohlc.calculateOHLC warmUp tick tick.ask (duration spec.minutes) series spec.count
  return BoundedTail.trim spec.count.toNat series

/-- The time bars of the symbol take in a tick. -/
def updateSeries (store : BarStore) (warmUp : WarmUp) (tick : PriceData) :
    Except String BarStore := do
  if store.specs = [] then return store
  let histories := (store.bySymbol.lookup tick.symbol).getD []
  -- a series registered after the symbol's first tick starts empty
  let histories := histories ++ List.replicate (store.specs.length - histories.length) []
  let updated ← List.zipWithM (updateOHLC warmUp tick) store.specs histories
  return { store with bySymbol := store.bySymbol.insert tick.symbol updated }

/-- The range bars of the symbol take in a tick. -/
def updateRangeSeries (store : BarStore) (warmUp : WarmUp) (tick : PriceData) :
    Except String BarStore := do
  if store.rangeSpecs = [] then return store
  let present := (store.rangeBySymbol.lookup tick.symbol).getD []
  let late ← (store.rangeSpecs.drop present.length).mapM RangeSeries.make
  let updated := (present ++ late).map fun series => series.update warmUp tick
  return { store with rangeBySymbol := store.rangeBySymbol.insert tick.symbol updated }

def update (store : BarStore) (warmUp : WarmUp) (tick : PriceData) : Except String BarStore := do
  let store ← store.updateSeries warmUp tick
  store.updateRangeSeries warmUp tick

/-- A run over ticks. -/
def feed (store : BarStore) (warmUp : WarmUp) (ticks : List PriceData) : Except String BarStore :=
  ticks.foldlM (fun store tick => store.update warmUp tick) store

def find (store : BarStore) (symbol : String) (minutes : ℤ) : Option (List OhlcObject) := do
  let index ← store.specs.findIdx? fun spec => spec.minutes = minutes
  let histories ← store.bySymbol.lookup symbol
  histories[index]?

def findRange (store : BarStore) (symbol : String) (spec : RangeBarSpec) :
    Option (List OhlcObject) := do
  let index ← store.rangeSpecs.findIdx? fun existing => sameIdentity existing spec
  let histories ← store.rangeBySymbol.lookup symbol
  let series ← histories[index]?
  return series.bars

end BarStore

end BacktestEngine
