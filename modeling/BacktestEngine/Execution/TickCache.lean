import BacktestEngine.Library.BinarySearch
import BacktestEngine.Library.Keyed
import BacktestEngine.Library.Program
import BacktestEngine.Models.Trade
import Mathlib.Data.List.MinMax

/-! # The tick cache

One superset of ticks is loaded for a set of symbols, and the windows of the runs are
slices of it. The clock, the hook before a load and the loaders are asked one at a time
and may throw.
-/

namespace BacktestEngine

/-- A block of history: the ticks from the last of the boundaries up to the first, and the
instants so many months before the snapshot. -/
structure Superset where
  ticks : List PriceData
  boundaries : List ℤ

/-- A window of a superset. -/
structure SliceView where
  superset : Superset
  start : ℕ
  count : ℕ

def SliceView.ticks (view : SliceView) : List PriceData :=
  (view.superset.ticks.drop view.start).take view.count

def sliceForWindow (superset : Superset) (lastMonths offsetMonths : ℤ) : Except String SliceView :=
  if lastMonths < 1 ∨ offsetMonths < 0 then throw "sliceForWindow: degenerate window"
  else
    let depth := lastMonths.toNat + offsetMonths.toNat
    match superset.boundaries[depth]?, superset.boundaries[offsetMonths.toNat]? with
    | some oldest, some newest =>
      let lower := BinarySearch.lowerBound (fun tick : PriceData => tick.timestamp < oldest)
        superset.ticks 0
      let upper :=
        if offsetMonths = 0 then superset.ticks.length
        else BinarySearch.lowerBound (fun tick : PriceData => tick.timestamp < newest)
          superset.ticks lower
      return ⟨superset, lower, upper - lower⟩
    | _, _ => throw "sliceForWindow: window reaches beyond the superset"

/-- What the cache asks for. -/
inductive CacheCommand
  | now
  | beforeLoad
  | loadSuperset (symbolsCsv : String) (months : ℤ)
  | loadWindow (symbolsCsv : String) (lastMonths offsetMonths : ℤ)

def CacheCommand.Answer : CacheCommand → Type
  | .now => ℤ
  | .beforeLoad => Except String Unit
  | .loadSuperset _ _ => Except String Superset
  | .loadWindow _ _ _ => Except String (List PriceData)

abbrev CacheProgram := Program CacheCommand CacheCommand.Answer

abbrev CacheExchange := Program.Exchange CacheCommand CacheCommand.Answer

namespace TickCache

structure Entry where
  superset : Superset
  loadedAt : ℤ

abbrev Supersets := AList fun _ : String => Entry

/-- The order in which the hash map of supersets is walked. -/
structure Walk where
  walk : List (Sigma fun _ : String => Entry) → List (Sigma fun _ : String => Entry)
  perm : ∀ entries, (walk entries).Perm entries

end TickCache

/-- The time to live is in the units of the clock. -/
structure TickCache where
  ttl : ℤ
  maxSupersets : ℕ
  defaultMonths : ℤ
  supersets : TickCache.Supersets
  hits : ℕ
  misses : ℕ

namespace TickCache

def make (ttl : ℤ) (maxSupersets : ℕ) (defaultMonths : ℤ) : TickCache :=
  ⟨ttl, max 1 maxSupersets, defaultMonths, ∅, 0, 0⟩

/-- One run's window of one set of symbols, with whether a hook was passed for it. -/
structure Request where
  symbolsCsv : String
  lastMonths : ℤ
  offsetMonths : ℤ
  hooked : Bool
  order : Walk

def Request.cacheable (request : Request) : Bool :=
  decide (request.lastMonths ≥ 1) && decide (request.offsetMonths ≥ 0)

def Request.monthsNeeded (request : Request) : ℤ :=
  if request.cacheable then request.lastMonths + request.offsetMonths else 0

def now : CacheProgram ℤ := .call .now .done

def callBeforeLoad (request : Request) : CacheProgram (Except String Unit) :=
  if request.hooked then .call .beforeLoad .done else .done (.ok ())

/-- A load outside the supersets: the whole of it is the slice. -/
def loadAdHoc (cache : TickCache) (request : Request) :
    CacheProgram (Except String SliceView × TickCache) := do
  match ← callBeforeLoad request with
  | .error e => return (.error e, cache)
  | .ok () =>
    .call (.loadWindow request.symbolsCsv request.lastMonths request.offsetMonths) fun
      | .error e => .done (.error e, cache)
      | .ok ticks => .done (.ok ⟨⟨ticks, []⟩, 0, ticks.length⟩, cache)

def eraseIfStale (ttl : ℤ) (entry : Sigma fun _ : String => Entry) (supersets : Supersets)
    (instant : ℤ) : Supersets :=
  if instant - entry.2.loadedAt ≥ ttl then supersets.erase entry.1 else supersets

/-- Erase the entries that are stale, each by a reading of the clock of its own. -/
def eraseStale (ttl : ℤ) : List (Sigma fun _ : String => Entry) → Supersets → CacheProgram Supersets
  | [], supersets => .done supersets
  | entry :: rest, supersets => .call .now fun instant =>
    eraseStale ttl rest (eraseIfStale ttl entry supersets instant)

/-- Instants are compared as integers. -/
local instance (priority := high) instPreorderInstant : Preorder ℤ := Int.instLinearOrder.toPreorder

/-- Erase the entries loaded first until there is room for one more. -/
def eraseOldest (order : Walk) (incomingKey : String) (maxSupersets : ℕ) : ℕ → Supersets → Supersets
  | 0, supersets => supersets
  | fuel + 1, supersets =>
    if supersets.entries.length ≥ maxSupersets ∧ incomingKey ∉ supersets then
      match (order.walk supersets.entries).argmin fun entry => entry.2.loadedAt with
      | none => supersets
      | some oldest => eraseOldest order incomingKey maxSupersets fuel (supersets.erase oldest.1)
    else supersets

def evictFor (cache : TickCache) (order : Walk) (incomingKey : String) :
    CacheProgram TickCache := do
  let supersets ← eraseStale cache.ttl (order.walk cache.supersets.entries) cache.supersets
  return { cache with
    supersets := eraseOldest order incomingKey cache.maxSupersets supersets.entries.length
      supersets }

/-- Load a superset that is at least deep enough for the window. -/
def reload (cache : TickCache) (request : Request) :
    CacheProgram (Except String SliceView × TickCache) := do
  let cache := { cache with misses := cache.misses + 1 }
  match ← callBeforeLoad request with
  | .error e => return (.error e, cache)
  | .ok () =>
    -- the old supersets go before the new one is loaded
    let cache ← cache.evictFor request.order request.symbolsCsv
    .call (.loadSuperset request.symbolsCsv (max cache.defaultMonths request.monthsNeeded)) fun
      | .error e => .done (.error e, cache)
      | .ok superset => .call .now fun (loadedAt : ℤ) =>
        .done (sliceForWindow superset request.lastMonths request.offsetMonths,
          { cache with supersets := cache.supersets.insert request.symbolsCsv ⟨superset, loadedAt⟩ })

/-- The window reaches no deeper than the superset. -/
def Entry.fits (entry : Entry) (request : Request) : Bool :=
  request.monthsNeeded.toNat < entry.superset.boundaries.length

def get (cache : TickCache) (request : Request) :
    CacheProgram (Except String SliceView × TickCache) :=
  if request.cacheable then
    match cache.supersets.lookup request.symbolsCsv with
    | none => cache.reload request
    | some entry => .call .now fun (instant : ℤ) =>
      if instant - entry.loadedAt < cache.ttl then
        if entry.fits request then
          .done (sliceForWindow entry.superset request.lastMonths request.offsetMonths,
            { cache with hits := cache.hits + 1 })
        else cache.loadAdHoc request
      else cache.reload request
  else cache.loadAdHoc request

end TickCache

end BacktestEngine
