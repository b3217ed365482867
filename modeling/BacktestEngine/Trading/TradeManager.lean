import Mathlib
import BacktestEngine.Library.Keyed
import BacktestEngine.Models.Trade

/-! # The trade manager

Open trades are keyed by symbol. Realized and floating profit, the equity peak
and the deepest drawdown are running values that every mutation patches.
-/

namespace BacktestEngine

/-- The order in which the hash map of open trades is walked. -/
structure WalkOrder where
  walk : List (Sigma fun _ : String => Trade) → List (Sigma fun _ : String => Trade)
  perm : ∀ entries, (walk entries).Perm entries

/-- The walk in the order of the entries. -/
def WalkOrder.entries : WalkOrder := ⟨id, fun _ => .refl _⟩

structure TradeManager where
  activeTrades : AList fun _ : String => Trade
  closedTrades : List Trade
  tradeCounter : ℕ
  closedPnl : ℤ
  openPnl : ℤ
  peakEquity : ℤ
  maxDrawdown : ℤ
  entrySlippageTenthPips : ℤ

/-- The floating profit of a trade valued at the given price. -/
def floatingPnlAt (trade : Trade) (mark : ℤ) : ℤ :=
  let diff := mark - trade.entryPrice
  let diff := match trade.direction with
    | .short => -diff
    | .long => diff
  diff * trade.size

namespace TradeManager

/-- A default-constructed manager with its slippage setting. -/
def fresh (entrySlippageTenthPips : ℤ) : TradeManager where
  activeTrades := ∅
  closedTrades := []
  tradeCounter := 0
  closedPnl := 0
  openPnl := 0
  peakEquity := 0
  maxDrawdown := 0
  entrySlippageTenthPips := entrySlippageTenthPips

def calculatePnl (tm : TradeManager) : ℤ := tm.closedPnl

def unrealizedPnl (tm : TradeManager) : ℤ := tm.openPnl

def maxDrawdownPoints (tm : TradeManager) : ℤ := tm.maxDrawdown

/-- Account equity: realized plus floating profit. -/
def equity (tm : TradeManager) : ℤ := tm.calculatePnl + tm.unrealizedPnl

/-- The open trades, without their keys. -/
def activeList (tm : TradeManager) : List Trade := tm.activeTrades.entries.map fun entry => entry.2

def reviewAccount (tm : TradeManager) : ℕ := tm.activeTrades.entries.length

def findActiveTrade (tm : TradeManager) (symbol : String) : Option Trade :=
  tm.activeTrades.lookup symbol

def hasActiveTradeForSymbol (tm : TradeManager) (symbol : String) : Bool :=
  (tm.findActiveTrade symbol).isSome

def updateDrawdown (tm : TradeManager) : TradeManager :=
  let equity := tm.closedPnl + tm.openPnl
  let peakEquity := if equity > tm.peakEquity then equity else tm.peakEquity
  let drop := peakEquity - equity
  { tm with
    peakEquity := peakEquity
    maxDrawdown := if drop > tm.maxDrawdown then drop else tm.maxDrawdown }

/-- The slippage points an entry on a symbol of this scale pays. -/
def slipPoints (tm : TradeManager) (scalingFactor : ℤ) : ℤ :=
  if tm.entrySlippageTenthPips > 0 ∧ scalingFactor > 0 then
    (tm.entrySlippageTenthPips * scalingFactor).tdiv 10
  else 0

def tradeId (counter : ℕ) : String := "T" ++ Nat.repr counter

/-- The trade that an accepted open inserts. -/
def newTrade (tm : TradeManager) (tick : PriceData) (size : ℤ) (direction : Direction)
    (stopDistancePips limitDistancePips : ℤ) : Trade :=
  let trade := Trade.make (tick.entrySide direction) size direction tick.symbol
  let slip := tm.slipPoints trade.scalingFactor
  let reference := tick.closeSide direction
  let stopOffset := stopDistancePips * trade.scalingFactor
  let limitOffset := limitDistancePips * trade.scalingFactor
  let trade := { trade with
    entryPrice := match direction with
      | .long => trade.entryPrice + slip
      | .short => trade.entryPrice - slip
    openTime := tick.timestamp
    entryBid := tick.bid
    entryAsk := tick.ask
    id := tradeId tm.tradeCounter
    stopDistancePips := stopDistancePips
    limitDistancePips := limitDistancePips
    exitReferencePrice := reference
    stopPrice := match direction with
      | .long => reference - stopOffset
      | .short => reference + stopOffset
    limitPrice := match direction with
      | .long => reference + limitOffset
      | .short => reference - limitOffset
    lastMarkPrice := reference }
  { trade with floatingPnl := floatingPnlAt trade trade.lastMarkPrice }

/-- Open a trade and return its id; a symbol that has one keeps it, and its id comes back. -/
def openTrade (tm : TradeManager) (tick : PriceData) (size : ℤ) (direction : Direction)
    (stopDistancePips limitDistancePips : ℤ) : TradeManager × String :=
  let trade := tm.newTrade tick size direction stopDistancePips limitDistancePips
  let tm := { tm with tradeCounter := tm.tradeCounter + 1 }
  match tm.activeTrades.lookup trade.symbol with
  | some held => (tm, held.id)
  | none =>
    ({ tm with
        activeTrades := tm.activeTrades.insert trade.symbol trade
        openPnl := tm.openPnl + trade.floatingPnl }.updateDrawdown, trade.id)

/-- A trade revalued at a price. -/
def marked (trade : Trade) (mark : ℤ) : Trade :=
  { trade with floatingPnl := floatingPnlAt trade mark, lastMarkPrice := mark }

def markToMarket (tm : TradeManager) (tick : PriceData) : TradeManager :=
  match tm.activeTrades.lookup tick.symbol with
  | none => tm
  | some trade =>
    let mark := tick.closeSide trade.direction
    { tm with
      openPnl := tm.openPnl + (floatingPnlAt trade mark - trade.floatingPnl)
      activeTrades := tm.activeTrades.insert tick.symbol (marked trade mark) }.updateDrawdown

/-- A trade as it enters the log of closed trades. -/
def closedAt (trade : Trade) (closePrice : ℤ) (tick : PriceData) (liquidated : Bool) : Trade :=
  { trade with
    closePrice := closePrice
    closeTime := tick.timestamp
    liquidated := liquidated
    pnl := floatingPnlAt trade closePrice
    floatingPnl := 0 }

def closeTrade (tm : TradeManager) (symbol : String) (closePrice : ℤ) (tick : PriceData)
    (liquidated : Bool) : TradeManager × Bool :=
  match tm.activeTrades.lookup symbol with
  | none => (tm, false)
  | some trade =>
    let closed := closedAt trade closePrice tick liquidated
    let tm := { tm with
      activeTrades := tm.activeTrades.erase symbol
      closedPnl := tm.closedPnl + closed.pnl
      openPnl := tm.openPnl - trade.floatingPnl }.updateDrawdown
    ({ tm with closedTrades := tm.closedTrades ++ [closed] }, true)

/-- The symbols to close and their last marks, taken before the first close. -/
def toClose (tm : TradeManager) (order : WalkOrder) : List (String × ℤ) :=
  (order.walk tm.activeTrades.entries).map fun entry => (entry.1, entry.2.lastMarkPrice)

def closeEach (tick : PriceData) (liquidated : Bool) :
    TradeManager → List (String × ℤ) → TradeManager
  | tm, [] => tm
  | tm, (symbol, price) :: pairs =>
    closeEach tick liquidated (tm.closeTrade symbol price tick liquidated).1 pairs

def closeAllTrades (tm : TradeManager) (tick : PriceData) (liquidated : Bool)
    (order : WalkOrder) : TradeManager :=
  closeEach tick liquidated tm (tm.toClose order)

/-- The calls that change a manager. -/
inductive Call
  | openTrade (tick : PriceData) (size : ℤ) (direction : Direction)
      (stopDistancePips limitDistancePips : ℤ)
  | markToMarket (tick : PriceData)
  | closeTrade (symbol : String) (closePrice : ℤ) (tick : PriceData) (liquidated : Bool)
  | closeAllTrades (tick : PriceData) (liquidated : Bool) (order : WalkOrder)

def call (tm : TradeManager) : Call → TradeManager
  | .openTrade tick size direction stop limit => (tm.openTrade tick size direction stop limit).1
  | .markToMarket tick => tm.markToMarket tick
  | .closeTrade symbol closePrice tick liquidated =>
    (tm.closeTrade symbol closePrice tick liquidated).1
  | .closeAllTrades tick liquidated order => tm.closeAllTrades tick liquidated order

/-- Run a sequence of calls. -/
def calls (tm : TradeManager) (cs : List Call) : TradeManager := cs.foldl call tm

/-- The states after each close of a sweep. -/
def closeStates (tick : PriceData) (liquidated : Bool) :
    TradeManager → List (String × ℤ) → List TradeManager
  | _, [] => []
  | tm, (symbol, price) :: pairs =>
    (tm.closeTrade symbol price tick liquidated).1 ::
      closeStates tick liquidated (tm.closeTrade symbol price tick liquidated).1 pairs

/-- The states after each single open, mark and close of a call. -/
def callStates (tm : TradeManager) : Call → List TradeManager
  | .closeAllTrades tick liquidated order => closeStates tick liquidated tm (tm.toClose order)
  | c => [tm.call c]

/-- The equity after each single open, mark and close of a sequence of calls. -/
def equityHistory : TradeManager → List Call → List ℤ
  | _, [] => []
  | tm, c :: cs => (tm.callStates c).map equity ++ equityHistory (tm.call c) cs

@[simp] theorem updateDrawdown_activeTrades (tm : TradeManager) :
    tm.updateDrawdown.activeTrades = tm.activeTrades := rfl

@[simp] theorem updateDrawdown_closedTrades (tm : TradeManager) :
    tm.updateDrawdown.closedTrades = tm.closedTrades := rfl

@[simp] theorem updateDrawdown_closedPnl (tm : TradeManager) :
    tm.updateDrawdown.closedPnl = tm.closedPnl := rfl

@[simp] theorem updateDrawdown_openPnl (tm : TradeManager) :
    tm.updateDrawdown.openPnl = tm.openPnl := rfl

@[simp] theorem updateDrawdown_peakEquity (tm : TradeManager) :
    tm.updateDrawdown.peakEquity = max tm.peakEquity (tm.closedPnl + tm.openPnl) := by
  simp only [updateDrawdown]
  omega

@[simp] theorem updateDrawdown_maxDrawdown (tm : TradeManager) :
    tm.updateDrawdown.maxDrawdown = max tm.maxDrawdown
      (max tm.peakEquity (tm.closedPnl + tm.openPnl) - (tm.closedPnl + tm.openPnl)) := by
  simp only [updateDrawdown]
  omega

section NewTrade

variable (tm : TradeManager) (tick : PriceData) (size : ℤ) (direction : Direction)
  (stop limit : ℤ)

@[simp] theorem newTrade_symbol : (tm.newTrade tick size direction stop limit).symbol =
    tick.symbol := rfl

@[simp] theorem newTrade_id : (tm.newTrade tick size direction stop limit).id =
    tradeId tm.tradeCounter := rfl

@[simp] theorem newTrade_direction : (tm.newTrade tick size direction stop limit).direction =
    direction := rfl

@[simp] theorem newTrade_openTime : (tm.newTrade tick size direction stop limit).openTime =
    tick.timestamp := rfl

end NewTrade

variable {tm : TradeManager} {tick : PriceData} {symbol : String} {trade held : Trade}

theorem openTrade_held (h : tm.activeTrades.lookup tick.symbol = some held) (size : ℤ)
    (direction : Direction) (stop limit : ℤ) :
    tm.openTrade tick size direction stop limit =
      ({ tm with tradeCounter := tm.tradeCounter + 1 }, held.id) := by
  simp only [openTrade, newTrade_symbol, h]

theorem openTrade_fresh (h : tm.activeTrades.lookup tick.symbol = none) (size : ℤ)
    (direction : Direction) (stop limit : ℤ) :
    tm.openTrade tick size direction stop limit =
      let trade := tm.newTrade tick size direction stop limit
      ({ tm with
          tradeCounter := tm.tradeCounter + 1
          activeTrades := tm.activeTrades.insert tick.symbol trade
          openPnl := tm.openPnl + trade.floatingPnl }.updateDrawdown, trade.id) := by
  simp only [openTrade, newTrade_symbol, h]

theorem markToMarket_none (h : tm.activeTrades.lookup tick.symbol = none) :
    tm.markToMarket tick = tm := by
  simp only [markToMarket, h]

theorem markToMarket_some (h : tm.activeTrades.lookup tick.symbol = some trade) :
    tm.markToMarket tick =
      let mark := tick.closeSide trade.direction
      { tm with
        openPnl := tm.openPnl + (floatingPnlAt trade mark - trade.floatingPnl)
        activeTrades := tm.activeTrades.insert tick.symbol (marked trade mark) }.updateDrawdown := by
  simp only [markToMarket, h]

theorem closeTrade_none (h : tm.activeTrades.lookup symbol = none) (price : ℤ)
    (tick : PriceData) (liquidated : Bool) :
    tm.closeTrade symbol price tick liquidated = (tm, false) := by
  simp only [closeTrade, h]

theorem closeTrade_some (h : tm.activeTrades.lookup symbol = some trade) (price : ℤ)
    (tick : PriceData) (liquidated : Bool) :
    tm.closeTrade symbol price tick liquidated =
      let closed := closedAt trade price tick liquidated
      let tm' := { tm with
        activeTrades := tm.activeTrades.erase symbol
        closedPnl := tm.closedPnl + closed.pnl
        openPnl := tm.openPnl - trade.floatingPnl }.updateDrawdown
      ({ tm' with closedTrades := tm.closedTrades ++ [closed] }, true) := by
  simp only [closeTrade, h, updateDrawdown_closedTrades]

theorem closeTrade_lookup (tm : TradeManager) (symbol : String) (price : ℤ) (tick : PriceData)
    (liquidated : Bool) (s : String) :
    (tm.closeTrade symbol price tick liquidated).1.activeTrades.lookup s =
      if s = symbol then none else tm.activeTrades.lookup s := by
  cases h : tm.activeTrades.lookup symbol with
  | none =>
    rw [closeTrade_none h]
    split
    · rename_i hs
      rw [hs, h]
    · rfl
  | some trade =>
    rw [closeTrade_some h]
    dsimp only [updateDrawdown_activeTrades]
    split
    · rename_i hs
      rw [hs, AList.lookup_erase]
    · exact AList.lookup_erase_ne ‹_›

end TradeManager

end BacktestEngine
