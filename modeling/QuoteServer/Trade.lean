import QuoteServer.OrderBook

/-!
# Trades

The three subclasses of `Trade`, as the feed client builds them and the market passes
them to a publisher, and the protocol buffer that each of them makes of itself.
-/

namespace QuoteServer

/-- The subclasses of `Trade`, each with the base class's product id last. -/
inductive Trade (FloatingP : Type) where
  | tradeActivate (orderId : String) (size price founds stopPrice : FloatingP)
      (stopType productId : String)
  | tradeMatch (orderId : String) (size : FloatingP) (productId : String)
  | tradeReceive (orderId : String) (size founds price : Option FloatingP) (side : Side)
      (orderType productId : String)
  deriving DecidableEq, Repr

/-- The field `message_type` of a `qs::qsMessage`. -/
inductive Qs.MessageType where
  | orderbook
  | trade
  deriving DecidableEq, Repr

/-- The field `type` of a `qs::Trade`. -/
inductive Qs.TradeType where
  | activate
  | change
  | done
  | tradeMatch
  | tradeOpen
  deriving DecidableEq, Repr

/-- A `qs::Trade`, with the fields that any code sets. -/
structure Qs.Trade (FloatingP : Type) where
  type : Qs.TradeType
  productId : String
  orderId : String
  size : Option FloatingP := none
  price : Option FloatingP := none
  founds : Option FloatingP := none
  stopPrice : Option FloatingP := none
  stopType : Option String := none
  orderType : Option String := none
  deriving DecidableEq, Repr

/-- A `qs::qsMessage` whose `msg` is a trade. -/
structure Qs.QsMessage (FloatingP : Type) where
  messageType : Qs.MessageType
  trade : Qs.Trade FloatingP
  deriving DecidableEq, Repr

variable {FloatingP : Type}

namespace Trade

def getProductId : Trade FloatingP → String
  | .tradeActivate _ _ _ _ _ _ productId => productId
  | .tradeMatch _ _ productId => productId
  | .tradeReceive _ _ _ _ _ _ productId => productId

/-- `generateMessage` up to the serialization, `none` where it dereferences an empty
`std::optional`. A received trade gets the type of an activated one. -/
def generateMessage : Trade FloatingP → Option (Qs.QsMessage FloatingP)
  | .tradeActivate orderId size price founds stopPrice stopType productId =>
    some {
      messageType := .trade
      trade := {
        type := .activate
        orderId := orderId
        productId := productId
        size := some size
        price := some price
        founds := some founds
        stopPrice := some stopPrice
        stopType := some stopType } }
  | .tradeMatch orderId size productId =>
    some {
      messageType := .trade
      trade := {
        type := .tradeMatch
        orderId := orderId
        productId := productId
        size := some size } }
  | .tradeReceive orderId size founds price _ orderType productId => do
    -- the test is on the price, the value that of `*m_founds`
    let setFounds ← if price.isSome then founds.map some else some none
    return {
      messageType := .trade
      trade := {
        type := .activate
        orderId := orderId
        productId := productId
        size := size
        price := price
        founds := setFounds
        orderType := some orderType } }

/-- `generateMessage` dereferences an empty `std::optional` for the orders that were
received with a price and no amount, and for no other trade. -/
theorem generateMessage_eq_none_iff {trade : Trade FloatingP} :
    trade.generateMessage = none ↔ ∃ orderId size price side orderType productId,
      trade = .tradeReceive orderId size none (some price) side orderType productId := by
  cases trade with
  | tradeActivate | tradeMatch => simp [generateMessage]
  | tradeReceive orderId size founds price side orderType productId =>
    cases price with
    | none => simp [generateMessage]
    | some price => cases founds <;> simp [generateMessage]

end Trade

end QuoteServer
