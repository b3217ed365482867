import BacktestEngine.Models.MarketDefinitions
import BacktestEngine.Models.Trade
import BacktestEngine.Positions.Store

/-! # Orders for the broker

The request a worker's channel is given, the order it sends for it, and what it books
when the broker accepts: the record of the deal and its receipt.
-/

namespace BacktestEngine

namespace Live

open Positions (PositionRecord DealReceipt)

/-- An entry as the channel is asked for it. -/
structure OrderRequest where
  symbol : String
  strategyUuid : String
  strategyName : String
  dealReference : String
  direction : Direction
  timestamp : ℤ
  size : ℤ
  stopDistancePips : ℤ
  limitDistancePips : ℤ
  level : ℤ
  stopLevel : ℤ
  limitLevel : ℤ
  deriving DecidableEq

/-- The body of an opening order; a distance of zero leaves its leg out. -/
structure TradeOpenObj (D : Type) where
  currencyCode : String
  epic : String
  expiry : String := "-"
  direction : String
  size : D
  forceOpen : Bool := true
  guaranteedStop : Bool := false
  orderType : String := "MARKET"
  stopDistance : ℤ
  limitDistance : ℤ
  dealReference : String
  deriving DecidableEq

/-- What a broker call knows of the decision behind it. -/
structure OrderContext where
  strategyUuid : String
  strategyName : String
  symbol : String
  openDirection : String
  deriving DecidableEq

def brokerDirection : Direction → String
  | .long => "BUY"
  | .short => "SELL"

variable {D : Type}

/-- The order for a request: the mini contract of its market, in the market's sizes. -/
def openOrder [Decimal D] (request : OrderRequest) (market : MarketDefinition) :
    TradeOpenObj D where
  currencyCode := market.currency
  epic := market.epicMini
  direction := brokerDirection request.direction
  size := Decimal.mul (Decimal.ofInt request.size) (market.sizeModifier D)
  stopDistance := request.stopDistancePips
  limitDistance := request.limitDistancePips
  dealReference := request.dealReference

def buildPositionPayload (request : OrderRequest) (order : TradeOpenObj D)
    (dealReference dealId : String) : PositionRecord D where
  dealId := dealId
  dealReference := dealReference
  symbol := request.symbol
  epic := order.epic
  direction := order.direction
  size := order.size
  level := request.level
  stopLevel := request.stopLevel
  limitLevel := request.limitLevel
  strategyId := request.strategyUuid
  strategyName := request.strategyName
  openedAtMicros := request.timestamp

/-- The receipt, of which the producer reads these fields back. -/
def buildDealReceipt (request : OrderRequest) (dealId : String) : DealReceipt where
  strategyId := request.strategyUuid
  dealId := dealId
  strategyName := request.strategyName

end Live

end BacktestEngine
