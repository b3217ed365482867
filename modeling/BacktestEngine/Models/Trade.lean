import BacktestEngine.Models.SymbolScale

/-! # Ticks and trades

Prices are scaled integer points, times are microseconds of the system clock,
sizes are whole lots. The fixed-width arithmetic of the source is exact here, so
a run in which it overflows is outside the model.
-/

namespace BacktestEngine

inductive Direction
  | long
  | short
  deriving DecidableEq, Repr

/-- What the broker's answer to an open was taken for. -/
inductive OpenStatus
  | accepted
  | rejected
  | failed
  deriving DecidableEq, Repr

/-- One second of the clock, in microseconds. -/
def second : ℤ := 1000000

/-- One quote of one symbol. -/
structure PriceData where
  ask : ℤ
  bid : ℤ
  timestamp : ℤ
  symbol : String
  deriving DecidableEq, Repr

/-- The price an entry in this direction pays. -/
def PriceData.entrySide (tick : PriceData) : Direction → ℤ
  | .long => tick.ask
  | .short => tick.bid

/-- The price that closes a trade in this direction. -/
def PriceData.closeSide (tick : PriceData) : Direction → ℤ
  | .long => tick.bid
  | .short => tick.ask

structure Trade where
  id : String
  entryPrice : ℤ
  entryBid : ℤ
  entryAsk : ℤ
  size : ℤ
  openTime : ℤ
  direction : Direction
  symbol : String
  scalingFactor : ℤ
  stopDistancePips : ℤ
  limitDistancePips : ℤ
  exitReferencePrice : ℤ
  stopPrice : ℤ
  limitPrice : ℤ
  closePrice : ℤ
  closeTime : ℤ
  pnl : ℤ
  lastMarkPrice : ℤ
  floatingPnl : ℤ
  liquidated : Bool
  deriving DecidableEq, Repr

/-- The constructor of the source: the scale comes from the symbol, the rest is zero. -/
def Trade.make (price quantity : ℤ) (direction : Direction) (symbol : String) : Trade where
  id := ""
  entryPrice := price
  entryBid := 0
  entryAsk := 0
  size := quantity
  openTime := 0
  direction := direction
  symbol := symbol
  scalingFactor := SymbolScale.get symbol
  stopDistancePips := 0
  limitDistancePips := 0
  exitReferencePrice := 0
  stopPrice := 0
  limitPrice := 0
  closePrice := 0
  closeTime := 0
  pnl := 0
  lastMarkPrice := 0
  floatingPnl := 0
  liquidated := false

end BacktestEngine
