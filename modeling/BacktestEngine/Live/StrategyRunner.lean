import Mathlib.Data.Rat.Defs
import BacktestEngine.Trading.RunLoop

/-! # The live strategy runner

A worker mirrors the broker book of one strategy on one symbol. On each tick it
syncs the book, judges an entry and hands its manager to the strategy; what the
strategy closed is found by comparing the log of closed trades before and after.
Any outside call may throw, which ends the tick and keeps the state reached.
-/

namespace BacktestEngine

namespace Live

structure OrderIntent where
  strategyName : String
  strategyUuid : String
  symbol : String
  direction : Direction
  size : ℤ
  stopDistancePips : ℤ
  limitDistancePips : ℤ
  bid : ℤ
  ask : ℤ
  timestamp : ℤ
  deriving DecidableEq

/-- A broker deal of the worker's symbol. The deal id is empty until the deal is confirmed. -/
structure BookedPosition where
  dealId : String
  dealReference : String
  direction : Direction
  brokerSize : ℚ
  engineSize : ℤ
  level : ℤ
  openedAt : ℤ
  deriving DecidableEq

structure CloseIntent where
  strategyName : String
  strategyUuid : String
  symbol : String
  direction : Direction
  brokerSize : ℚ
  dealId : String
  dealReference : String
  timestamp : ℤ
  deriving DecidableEq

/-- A strategy whose calls may throw; the calls made on the manager before that stand. -/
structure LiveStrategy (σ B : Type) where
  decide : σ → PriceData → B → Except Unit (Option Direction) × σ
  during : σ → PriceData → B → TradeManager → (List TradeManager.Call × Bool) × σ

structure WorkerSpec (σ B : Type) where
  symbol : String
  strategyName : String
  strategyUuid : String
  vars : TradingVariables
  maxOpenTrades : ℤ := 0
  maxTradesPerMinute : ℤ := 60
  peakHoursOnly : Bool := false
  gateSeries : Option SeriesSpec := none
  strategy : LiveStrategy σ B

structure RunnerStats where
  sessionSkipped : ℕ := 0
  conditionsSkipped : ℕ := 0
  signals : ℕ := 0
  rateBlocked : ℕ := 0
  positionBlocked : ℕ := 0
  lockBlocked : ℕ := 0
  ordersLogged : ℕ := 0
  bookSeeded : ℕ := 0
  bookRemoved : ℕ := 0
  bookSyncFailed : ℕ := 0
  strategyCloses : ℕ := 0
  closeDropped : ℕ := 0
  deriving DecidableEq, Repr

/-- What a runner is wired with. -/
structure StrategyRunner (B : Type) where
  services : Services B
  positionsWired : Bool
  feedWired : Bool
  closeSinkWired : Bool
  bookSyncInterval : ℤ

/-- The state of a worker, with the intents it has handed to the sinks. -/
structure Worker (σ B : Type) where
  barStore : B
  strategy : σ
  tradeManager : TradeManager
  sideMap : AList fun _ : String => BookedPosition
  nextSyncAt : ℤ
  recentOpens : List ℤ
  orders : List OrderIntent
  closes : List CloseIntent
  stats : RunnerStats

/-- One tick with the clock and what the outside calls do while it is processed. -/
structure TickEvent where
  tick : PriceData
  now : ℤ
  feed : Except Unit (Option (List BookedPosition))
  barsThrow : Bool
  positions : Except Unit (Option ℤ)
  gate : Except Unit Bool
  sinkThrows : Bool
  closeSinkThrows : CloseIntent → Bool

namespace Worker

variable {σ B : Type}

/-- A worker before its first tick. -/
def start (store : B) (strategy : σ) : Worker σ B where
  barStore := store
  strategy := strategy
  tradeManager := .fresh 0
  sideMap := ∅
  nextSyncAt := 0
  recentOpens := []
  orders := []
  closes := []
  stats := {}

/-- Go on with the next part of a tick unless the last one threw. -/
def andThen (result : Worker σ B × Bool) (next : Worker σ B → Worker σ B × Bool) :
    Worker σ B × Bool :=
  if result.2 then result else next result.1

end Worker

namespace StrategyRunner

variable {σ B : Type} (r : StrategyRunner B) (spec : WorkerSpec σ B)

/-! ## The book -/

/-- The price a deal that left the book is closed at: the last mark of its trade. -/
def removalPrice (w : Worker σ B) (tick : PriceData) : ℤ :=
  match w.tradeManager.findActiveTrade spec.symbol with
  | some trade => trade.lastMarkPrice
  | none => tick.bid

/-- Follow the booked deal through the feed: refresh its identity, or drop it when it is gone. -/
def refreshBook (w : Worker σ B) (tick : PriceData) (fetched : List BookedPosition) :
    Worker σ B :=
  match w.sideMap.lookup spec.symbol with
  | none => w
  | some booked =>
    match fetched.find? fun position => position.dealReference = booked.dealReference with
    | some found =>
      let booked := { booked with dealId := found.dealId, brokerSize := found.brokerSize }
      { w with sideMap := w.sideMap.insert spec.symbol booked }
    | none =>
      let closePrice := removalPrice spec w tick
      { w with
        tradeManager := (w.tradeManager.closeTrade spec.symbol closePrice tick false).1
        sideMap := w.sideMap.erase spec.symbol
        stats := { w.stats with bookRemoved := w.stats.bookRemoved + 1 } }

/-- Book the oldest deal when neither structure holds one. -/
def seedBook (w : Worker σ B) (fetched : List BookedPosition) : Worker σ B :=
  match fetched with
  | [] => w
  | first :: _ =>
    if (w.sideMap.lookup spec.symbol).isNone &&
        !w.tradeManager.hasActiveTradeForSymbol spec.symbol then
      let synthetic : PriceData := ⟨first.level, first.level, first.openedAt, spec.symbol⟩
      { w with
        tradeManager :=
          (w.tradeManager.openTrade synthetic first.engineSize first.direction 0 0).1
        sideMap := w.sideMap.insert spec.symbol first
        stats := { w.stats with bookSeeded := w.stats.bookSeeded + 1 } }
    else w

def syncBookIfDue (w : Worker σ B) (event : TickEvent) : Worker σ B × Bool :=
  if !r.feedWired || event.now < w.nextSyncAt then (w, false)
  else
    let w := { w with nextSyncAt := event.now + r.bookSyncInterval }
    match event.feed with
    | .error _ => (w, true)
    | .ok none =>
      ({ w with stats := { w.stats with bookSyncFailed := w.stats.bookSyncFailed + 1 } }, false)
    | .ok (some fetched) => (seedBook spec (refreshBook spec w event.tick fetched) fetched, false)

/-! ## The entry -/

/-- The half-open minute of the worker, moved to the tick. -/
def evictOpens (w : Worker σ B) (now : ℤ) : Worker σ B :=
  if spec.maxTradesPerMinute ≤ 0 then w
  else { w with recentOpens := Window.evict minute now w.recentOpens }

def belowTradeRateCap (w : Worker σ B) : Bool :=
  decide (spec.maxTradesPerMinute ≤ 0) ||
    decide ((w.recentOpens.length : ℤ) < spec.maxTradesPerMinute)

/-- An unknown count and a missing counter both block. -/
def belowOpenTradeCap (positions : Except Unit (Option ℤ)) : Except Unit Bool :=
  if spec.maxOpenTrades ≤ 0 then .ok true
  else if !r.positionsWired then .ok false
  else
    match positions with
    | .error _ => .error ()
    | .ok none => .ok false
    | .ok (some count) => .ok (decide (count < spec.maxOpenTrades))

def orderIntent (tick : PriceData) (signal : Direction) (distances : Distances) : OrderIntent where
  strategyName := spec.strategyName
  strategyUuid := spec.strategyUuid
  symbol := spec.symbol
  direction := signal
  size := spec.vars.tradingSize
  stopDistancePips := distances.stopPips
  limitDistancePips := distances.limitPips
  bid := tick.bid
  ask := tick.ask
  timestamp := tick.timestamp

/-- Hand an intent to the order sink; it counts against the minute once the sink returns. -/
def emitOrder (w : Worker σ B) (event : TickEvent) (intent : OrderIntent) : Worker σ B × Bool :=
  let w := { w with orders := w.orders ++ [intent] }
  if event.sinkThrows then (w, true)
  else
    ({ w with
      recentOpens := if spec.maxTradesPerMinute > 0 then w.recentOpens ++ [event.tick.timestamp]
        else w.recentOpens
      stats := { w.stats with ordersLogged := w.stats.ordersLogged + 1 } }, false)

/-- What a signal meets: the rate cap, the open-trade cap, the gate and the sink. -/
def onSignal (w : Worker σ B) (event : TickEvent) (signal : Direction) (distances : Distances) :
    Worker σ B × Bool :=
  let w := { w with stats := { w.stats with signals := w.stats.signals + 1 } }
  let w := evictOpens spec w event.tick.timestamp
  if !belowTradeRateCap spec w then
    ({ w with stats := { w.stats with rateBlocked := w.stats.rateBlocked + 1 } }, false)
  else
    match r.belowOpenTradeCap spec event.positions with
    | .error _ => (w, true)
    | .ok false =>
      ({ w with stats := { w.stats with positionBlocked := w.stats.positionBlocked + 1 } }, false)
    | .ok true =>
      match event.gate with
      | .error _ => (w, true)
      | .ok true => emitOrder spec w event (orderIntent spec event.tick signal distances)
      | .ok false =>
        ({ w with stats := { w.stats with lockBlocked := w.stats.lockBlocked + 1 } }, false)

/-- The pip distances of an entry, or none when its conditions are not met. -/
def entryDistances (w : Worker σ B) (tick : PriceData) : Option Distances :=
  match spec.gateSeries with
  | none => some ⟨spec.vars.stopDistanceInAtr, spec.vars.limitDistanceInAtr⟩
  | some series => r.services.check w.barStore series tick spec.vars.stopDistanceInAtr
      spec.vars.limitDistanceInAtr

def entryPhase (w : Worker σ B) (event : TickEvent) : Worker σ B × Bool :=
  if spec.peakHoursOnly && !r.services.tradePermitted event.tick.symbol event.tick.timestamp then
    ({ w with stats := { w.stats with sessionSkipped := w.stats.sessionSkipped + 1 } }, false)
  else
    match r.entryDistances spec w event.tick with
    | none =>
      ({ w with stats := { w.stats with conditionsSkipped := w.stats.conditionsSkipped + 1 } }, false)
    | some distances =>
      match spec.strategy.decide w.strategy event.tick w.barStore with
      | (.error _, strategy) => ({ w with strategy := strategy }, true)
      | (.ok none, strategy) => ({ w with strategy := strategy }, false)
      | (.ok (some signal), strategy) =>
        r.onSignal spec { w with strategy := strategy } event signal distances

/-! ## The strategy's closes -/

def closeIntent (booked : BookedPosition) (closed : Trade) (tick : PriceData) : CloseIntent where
  strategyName := spec.strategyName
  strategyUuid := spec.strategyUuid
  symbol := closed.symbol
  direction := booked.direction
  brokerSize := booked.brokerSize
  dealId := booked.dealId
  dealReference := booked.dealReference
  timestamp := tick.timestamp

def dropClose (w : Worker σ B) : Worker σ B :=
  { w with stats := { w.stats with closeDropped := w.stats.closeDropped + 1 } }

def emitClose (w : Worker σ B) (event : TickEvent) (closed : Trade) : Worker σ B × Bool :=
  match w.sideMap.lookup closed.symbol with
  | none => (dropClose w, false)
  | some booked =>
    if !r.closeSinkWired || booked.dealId.isEmpty then
      ({ dropClose w with sideMap := w.sideMap.erase closed.symbol }, false)
    else
      let intent := closeIntent spec booked closed event.tick
      let w := { w with closes := w.closes ++ [intent] }
      if event.closeSinkThrows intent then (w, true)
      else
        ({ w with
          stats := { w.stats with strategyCloses := w.stats.strategyCloses + 1 }
          sideMap := w.sideMap.erase closed.symbol }, false)

def emitCloses (event : TickEvent) : Worker σ B → List Trade → Worker σ B × Bool
  | w, [] => (w, false)
  | w, closed :: rest =>
    Worker.andThen (r.emitClose spec w event closed) fun w => emitCloses event w rest

/-- The calls the strategy makes on a tick, and whether it throws after them. -/
def duringCalls (w : Worker σ B) (event : TickEvent) : List TradeManager.Call × Bool :=
  (spec.strategy.during w.strategy event.tick w.barStore w.tradeManager).1

/-- The worker after the strategy has managed its position. -/
def managed (w : Worker σ B) (event : TickEvent) : Worker σ B :=
  { w with
    strategy := (spec.strategy.during w.strategy event.tick w.barStore w.tradeManager).2
    tradeManager := w.tradeManager.calls (duringCalls spec w event).1 }

/-- The trades the strategy closed, read off the end of the log. -/
def closedByStrategy (w : Worker σ B) (event : TickEvent) : List Trade :=
  (managed spec w event).tradeManager.closedTrades.drop w.tradeManager.closedTrades.length

def duringPhase (w : Worker σ B) (event : TickEvent) : Worker σ B × Bool :=
  if (duringCalls spec w event).2 then (managed spec w event, true)
  else r.emitCloses spec event (managed spec w event) (closedByStrategy spec w event)

/-! ## A tick -/

def updateBars (w : Worker σ B) (event : TickEvent) : Worker σ B × Bool :=
  if event.barsThrow then (w, true)
  else ({ w with barStore := r.services.update w.barStore event.tick }, false)

/-- The part of a tick before the strategy is handed the manager. -/
def beforeDuring (w : Worker σ B) (event : TickEvent) : Worker σ B × Bool :=
  Worker.andThen (r.syncBookIfDue spec w event) fun w =>
    Worker.andThen (r.updateBars w event) fun w => r.entryPhase spec w event

def processTick (w : Worker σ B) (event : TickEvent) : Worker σ B × Bool :=
  Worker.andThen (r.beforeDuring spec w event) fun w => r.duringPhase spec w event

/-- The worker loop: what a tick throws is caught, and the next tick goes on from the state. -/
def workerLoop (w : Worker σ B) (events : List TickEvent) : Worker σ B :=
  events.foldl (fun w event => (r.processTick spec w event).1) w

theorem workerLoop_snoc (w : Worker σ B) (events : List TickEvent) (event : TickEvent) :
    r.workerLoop spec w (events ++ [event]) =
      (r.processTick spec (r.workerLoop spec w events) event).1 := by
  rw [workerLoop, List.foldl_append]
  rfl

/-! ## Fixtures -/

/-- A strategy that closes whatever its symbol holds from an instant on, and may throw after it. -/
def closesFrom (instant : ℤ) (throws : Bool) : LiveStrategy Unit Unit where
  decide state _ _ := (.ok none, state)
  during state tick _ _ :=
    if instant ≤ tick.timestamp then
      (([.closeTrade tick.symbol tick.bid tick false], throws), state)
    else (([], false), state)

/-- A strategy that signals a long on every tick and leaves its trades alone. -/
def longs : LiveStrategy Unit Unit where
  decide state _ _ := (.ok (some .long), state)
  during state _ _ _ := (([], false), state)

def plainSpec (symbol : String) (strategy : LiveStrategy Unit Unit)
    (maxTradesPerMinute : ℤ := 60) : WorkerSpec Unit Unit where
  symbol := symbol
  strategyName := "plain"
  strategyUuid := "uuid"
  vars := ⟨10, 10, 1⟩
  maxTradesPerMinute := maxTradesPerMinute
  strategy := strategy

def plainRunner : StrategyRunner Unit where
  services := ⟨fun _ _ => (), fun _ _ _ _ _ => none, fun _ _ => true⟩
  positionsWired := true
  feedWired := true
  closeSinkWired := true
  bookSyncInterval := 5000000

def plainDeal : BookedPosition := ⟨"deal", "reference", .long, 1, 1, 100, 0⟩

/-- A tick on which nothing throws and the feed reports these deals. -/
def calm (instant : ℤ) (fetched : List BookedPosition) (symbol : String := "EURUSD") :
    TickEvent where
  tick := ⟨110, 100, instant, symbol⟩
  now := instant
  feed := .ok (some fetched)
  barsThrow := false
  positions := .ok (some 0)
  gate := .ok true
  sinkThrows := false
  closeSinkThrows _ := false

end StrategyRunner

end Live

end BacktestEngine
