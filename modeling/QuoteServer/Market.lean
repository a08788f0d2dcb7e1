import QuoteServer.Lib.KeyedBatch
import QuoteServer.Coinbase.FeedClient
import QuoteServer.Product.Product
import QuoteServer.Product.ProductSubscriber
import QuoteServer.Trade

/-!
# Market: products, their changes and their subscribers

The market is called from three sides. The client service calls `subscribe` and
`unsubscribe`, the feed delivers changes and trades, and the market's own thread runs
`processProductChanges`, which takes all pending changes at once and then hands each
product its own.

The pending changes are an `unordered_multimap`: it is filled in the order of delivery
and visited in an order the container chooses, equal keys one after the other. The
model keeps the delivery order, and `processChanges` is given the order of the visit.
-/

namespace QuoteServer

variable {FloatingP : Type}

/-- A `TradePublisher`: the endpoint it is bound to and the message of every trade it was
given, `none` for one whose `generateMessage` dereferences an empty `std::optional`: what
is sent then is undefined. -/
structure TradePublisher (FloatingP : Type) where
  endpoint : String
  published : List (Option (Qs.QsMessage FloatingP)) := []
  deriving DecidableEq

namespace TradePublisher

/-- The constructor. -/
def create (provider : EndpointProvider) (productId : String) :
    Except Fault (TradePublisher FloatingP) := do
  let endpoint ← provider.prodIdToPort productId
  return { endpoint := endpoint.address ++ ":" ++ endpoint.tradePort }

def publish (publisher : TradePublisher FloatingP) (trade : Trade FloatingP) :
    TradePublisher FloatingP :=
  let payload := trade.generateMessage
  { publisher with published := publisher.published ++ [payload] }

end TradePublisher

structure Market (FloatingP : Type) where
  feedClient : CoinbaseFeedClient FloatingP := {}
  products : String → Option (Product FloatingP) := fun _ => none
  /-- The keys of `m_clients`. -/
  clients : Finset String := ∅
  /-- The pending changes, in the order they were delivered. -/
  productChanges : List (ProductChange FloatingP) := []
  tradePublishers : String → Option (TradePublisher FloatingP) := fun _ => none

namespace Market

def onProductChange (m : Market FloatingP) (pc : ProductChange FloatingP) :
    Market FloatingP :=
  { m with productChanges := m.productChanges ++ [pc] }

def onTrade (m : Market FloatingP) (trade : Trade FloatingP) : Market FloatingP :=
  match m.tradePublishers trade.getProductId with
  | none => m
  | some publisher =>
    { m with tradePublishers :=
        Function.update m.tradePublishers trade.getProductId (some (publisher.publish trade)) }

/-- `subscribe` up to the release of `marketDataMutex`. -/
def subscribeProduct (provider : EndpointProvider) (m : Market FloatingP)
    (clientId prodId : String) : Except Fault (Market FloatingP) :=
  let clients := insert clientId m.clients
  match m.products prodId with
  | some _ => return { m with clients := clients }
  | none => do
    let publisher ← ProductChangePublisherZMQ.create provider prodId
    let product : Product FloatingP := { productId := prodId, publisher := publisher }
    return { m with
      clients := clients
      products := Function.update m.products prodId (some product)
      feedClient := m.feedClient.subscribe prodId }

/-- The rest of `subscribe`, under `mutexTrades`. -/
def subscribeTrades (provider : EndpointProvider) (m : Market FloatingP) (prodId : String) :
    Except Fault (Market FloatingP) :=
  match m.tradePublishers prodId with
  | some _ => return m
  | none => do
    let publisher ← TradePublisher.create provider prodId
    return { m with tradePublishers := Function.update m.tradePublishers prodId (some publisher) }

def subscribe (provider : EndpointProvider) (m : Market FloatingP) (clientId prodId : String) :
    Except Fault (Market FloatingP) := do
  (← m.subscribeProduct provider clientId prodId).subscribeTrades provider prodId

def unsubscribe (m : Market FloatingP) (clientId prodId : String) :
    Except Fault (Market FloatingP) :=
  let products :=
    match m.products prodId with
    | some product =>
      Function.update m.products prodId (some (product.removeClient clientId))
    | none => m.products
  match products prodId with
  | none => throw .endIterator
  | some product =>
    if product.hasClients = 0 then
      return { m with
        feedClient := m.feedClient.unsubscribe prodId
        products := Function.update products prodId none
        tradePublishers := Function.update m.tradePublishers prodId none }
    else
      return { m with products := products }

/-- The market as the `ProductSubscriber` it is. -/
def asSubscriber : ProductSubscriber (Market FloatingP) where
  subscribe := subscribe
  unsubscribe := unsubscribe

/-- The part of `processProductChanges` under `productChangeHandlerMutex`: what it
leaves and what it takes. -/
def takeChanges (m : Market FloatingP) : Market FloatingP × List (ProductChange FloatingP) :=
  ({ m with productChanges := [] }, m.productChanges)

variable [Sub FloatingP]

/-- The collected changes are handed to their product, if it is there. -/
def handOver (m : Market FloatingP) (productId : String)
    (changes : List (ProductChange FloatingP)) : Market FloatingP :=
  match m.products productId with
  | some product =>
    { m with products :=
        Function.update m.products productId (some (product.onProductChanges changes)) }
  | none => m

/-- The two loops of `processProductChanges`, from the point where `changes` were
collected for `productId`. -/
def collect (productId : String) (changes : List (ProductChange FloatingP)) :
    List (ProductChange FloatingP) → Market FloatingP → Market FloatingP
  | [], m => m.handOver productId changes
  | pc :: it, m =>
    if pc.getProductId = productId then collect productId (changes ++ [pc]) it m
    else collect pc.getProductId [pc] it (m.handOver productId changes)

/-- The part of `processProductChanges` under `marketDataMutex`, visiting the changes
in the order `it`. -/
def processChanges (it : List (ProductChange FloatingP)) (m : Market FloatingP) :
    Market FloatingP :=
  match it with
  | [] => m
  | pc :: it => collect pc.getProductId [pc] it m

end Market

end QuoteServer
