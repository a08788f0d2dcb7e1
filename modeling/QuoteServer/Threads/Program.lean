import QuoteServer.Lib.LockOrder
import QuoteServer.Lib.Machine

/-!
# The threads of the server and their mutexes

Five kinds of threads share five kinds of mutexes. The client-service thread runs
`Market::subscribe` and `Market::unsubscribe`, the websocket thread
`CoinbaseFeedClient::onMessageReceived`, the market thread `processProductChanges`, and
every `CoinbaseFeedProduct` has a thread for its full order book and one for its
messages.

A point is a place in the code between two steps. What a thread computes there is left
out, except for what decides which way it goes and can decide about a lock: the products
of the market, the products of the feed, and the two flags of a feed product. Where
other data decide (a sequence number, the clients of a product, an answer from the
exchange) both ways are possible, and the event says which one is taken.

A wait on a condition variable unlocks its mutex and ends after its timeout at the
latest, so it is a point at which nothing is held and nothing is waited for.
-/

namespace QuoteServer

open EventMachine LockOrder

inductive Thread where
  | client
  | websocket
  | market
  /-- `m_fullOrderBookRequestThread` of a product. -/
  | request (prodId : String)
  /-- `m_messageHandlerThread` of a product. -/
  | messages (prodId : String)
  deriving DecidableEq

inductive Mutex where
  /-- `marketDataMutex` -/
  | marketData
  /-- `mutexTrades` -/
  | trades
  /-- `productChangeHandlerMutex` -/
  | productChangeHandler
  /-- `m_mutexFeedData` -/
  | feedData
  /-- `m_messagesMutex` of a product -/
  | messages (prodId : String)
  deriving DecidableEq

/-! ## Points -/

/-- The client-service thread. -/
inductive ClientPoint where
  | idle
  /-- `subscribe`, before its first `lock_guard`. -/
  | subscribeMarket (p : String)
  | subscribeProducts (p : String)
  /-- `CoinbaseFeedClient::subscribe`, before its `lock_guard`. -/
  | subscribeFeed (p : String)
  | subscribeListener (p : String)
  /-- Back in `Market::subscribe`, at the end of the first block. -/
  | subscribeLeave (p : String)
  /-- Before the second `lock_guard`. -/
  | subscribeTrades (p : String)
  | subscribePublisher (p : String)
  /-- `unsubscribe`, before its `scoped_lock`. -/
  | unsubscribeMarket (p : String)
  | unsubscribeProduct (p : String)
  /-- `CoinbaseFeedClient::unsubscribe`, before its `lock_guard`. -/
  | unsubscribeFeed (p : String)
  | unsubscribeListener (p : String)
  /-- `~CoinbaseFeedProduct`, at its two `join`s. -/
  | joinRequest (p : String)
  | joinMessages (p : String)
  | unsubscribeErase (p : String)
  /-- Back in `Market::unsubscribe`, after the call of the feed client. -/
  | unsubscribeLeave (p : String)

/-- The websocket thread. `prodId` is the product of a message with a sequence number,
`trade` whether it is a trade message. -/
inductive WebsocketPoint where
  | idle
  /-- `CoinbaseFeedClient::onMessageReceived`, before its `lock_guard`. -/
  | feed (prodId : Option String) (trade : Bool)
  | feedMessage (prodId : Option String) (trade : Bool)
  /-- `CoinbaseFeedProduct::onMessageReceived`, before its `unique_lock`. -/
  | product (p : String) (trade : Bool)
  | productMessage (p : String) (trade : Bool)
  /-- `requestFullOrderBook`, at its `join`. -/
  | joinRequest (p : String) (trade : Bool)
  | productLeave (p : String) (trade : Bool)
  | isTrade (trade : Bool)
  /-- `Market::onTrade`, before its `lock_guard`. -/
  | onTrade
  | publish
  | feedLeave

/-- The market thread. -/
inductive MarketPoint where
  /-- Before the `unique_lock` of `productChangeHandlerMutex`. -/
  | changes
  | changesHeld
  | changesWait
  /-- Before the `unique_lock` of `marketDataMutex`. -/
  | process
  | processHeld

/-- The thread of `requestFullOrderBookImpl`. -/
inductive RequestPoint where
  | request
  /-- Before the `lock_guard`. -/
  | merge
  | mergeHeld
  | mergeLeave
  | ended

/-- The thread of `messageLoop`. -/
inductive MessagesPoint where
  | loop
  /-- Before the `unique_lock`. -/
  | queue
  | queueHeld
  | queueWait
  | handle
  /-- `Market::onProductChange`, before its `lock_guard`. -/
  | onProductChange
  | onProductChangeHeld
  | ended

abbrev Point : Thread → Type
  | .client => ClientPoint
  | .websocket => WebsocketPoint
  | .market => MarketPoint
  | .request _ => RequestPoint
  | .messages _ => MessagesPoint

namespace ClientPoint

def held : ClientPoint → List Mutex
  | subscribeProducts _ | subscribeFeed _ | subscribeLeave _ => [.marketData]
  | subscribeListener _ => [.marketData, .feedData]
  | subscribePublisher _ => [.trades]
  | unsubscribeProduct _ | unsubscribeFeed _ | unsubscribeLeave _ => [.marketData, .trades]
  | unsubscribeListener _ | joinRequest _ | joinMessages _ | unsubscribeErase _ =>
    [.marketData, .trades, .feedData]
  | _ => []

def wants : ClientPoint → List Mutex
  | subscribeMarket _ => [.marketData]
  | subscribeFeed _ | unsubscribeFeed _ => [.feedData]
  | subscribeTrades _ => [.trades]
  | unsubscribeMarket _ => [.marketData, .trades]
  | _ => []

def joins : ClientPoint → Option Thread
  | joinRequest p => some (.request p)
  | joinMessages p => some (.messages p)
  | _ => none

end ClientPoint

namespace WebsocketPoint

def held : WebsocketPoint → List Mutex
  | feedMessage _ _ | product _ _ | isTrade _ | onTrade | feedLeave => [.feedData]
  | productMessage p _ | joinRequest p _ | productLeave p _ => [.feedData, .messages p]
  | publish => [.feedData, .trades]
  | _ => []

def wants : WebsocketPoint → List Mutex
  | feed _ _ => [.feedData]
  | product p _ => [.messages p]
  | onTrade => [.trades]
  | _ => []

def joins : WebsocketPoint → Option Thread
  | joinRequest p _ => some (.request p)
  | _ => none

end WebsocketPoint

namespace MarketPoint

def held : MarketPoint → List Mutex
  | changesHeld => [.productChangeHandler]
  | processHeld => [.marketData]
  | _ => []

def wants : MarketPoint → List Mutex
  | changes => [.productChangeHandler]
  | process => [.marketData]
  | _ => []

end MarketPoint

namespace RequestPoint

def held (p : String) : RequestPoint → List Mutex
  | mergeHeld | mergeLeave => [.messages p]
  | _ => []

def wants (p : String) : RequestPoint → List Mutex
  | merge => [.messages p]
  | _ => []

def isEnded : RequestPoint → Bool
  | ended => true
  | _ => false

end RequestPoint

namespace MessagesPoint

def held (p : String) : MessagesPoint → List Mutex
  | queueHeld => [.messages p]
  | onProductChangeHeld => [.productChangeHandler]
  | _ => []

def wants (p : String) : MessagesPoint → List Mutex
  | queue => [.messages p]
  | onProductChange => [.productChangeHandler]
  | _ => []

def isEnded : MessagesPoint → Bool
  | ended => true
  | _ => false

end MessagesPoint

/-- The server as a lock program. -/
abbrev serverProgram : LockProgram Thread Mutex where
  Point := Point
  held
    | .client, q => ClientPoint.held q
    | .websocket, q => WebsocketPoint.held q
    | .market, q => MarketPoint.held q
    | .request p, q => RequestPoint.held p q
    | .messages p, q => MessagesPoint.held p q
  wants
    | .client, q => ClientPoint.wants q
    | .websocket, q => WebsocketPoint.wants q
    | .market, q => MarketPoint.wants q
    | .request p, q => RequestPoint.wants p q
    | .messages p, q => MessagesPoint.wants p q
  joins
    | .client, q => ClientPoint.joins q
    | .websocket, q => WebsocketPoint.joins q
    | _, _ => none
  ended
    | .request _, q => RequestPoint.isEnded q
    | .messages _, q => MessagesPoint.isEnded q
    | _, _ => false

structure ServerThreads where
  locks : LockState serverProgram
  /-- The keys of `m_products`. -/
  products : String → Bool
  /-- The keys of `m_prodIdToListener`. -/
  listeners : String → Bool
  /-- `m_requestingOrderbook` of a product. -/
  requestingOrderbook : String → Bool
  /-- `m_isRunning` of a product. -/
  isRunning : String → Bool

namespace ServerThreads

/-- Where a thread stands. -/
def point (s : ServerThreads) (t : Thread) : Point t := s.locks.point t

/-- A thread goes on to another point. -/
def move (s : ServerThreads) (t : Thread) (q : Point t) : Option ServerThreads :=
  (s.locks.move t q).map fun locks => { s with locks := locks }

/-- The server after its start: no product, and no request yet. -/
def initial : ServerThreads where
  locks := {
    point
      | .client => ClientPoint.idle
      | .websocket => WebsocketPoint.idle
      | .market => MarketPoint.changes
      | .request _ => RequestPoint.ended
      | .messages _ => MessagesPoint.ended
    holder := fun _ => none }
  products := fun _ => false
  listeners := fun _ => false
  requestingOrderbook := fun _ => false
  isRunning := fun _ => false

/-! ## Steps -/

/-- The constructor of `CoinbaseFeedProduct`, which starts both threads. -/
def startProduct (s : ServerThreads) (p : String) : Option ServerThreads :=
  let s := { s with
    requestingOrderbook := Function.update s.requestingOrderbook p true
    isRunning := Function.update s.isRunning p true }
  (s.move (.request p) RequestPoint.request).bind fun s =>
    (s.move (.messages p) MessagesPoint.loop).map fun s =>
      { s with listeners := Function.update s.listeners p true }

/-- A step of the client-service thread on its way through `subscribe` or `unsubscribe`.
`clientsLeft` is what `hasClients` returns. -/
def clientStep (s : ServerThreads) (clientsLeft : Bool) : Option ServerThreads :=
  match s.point .client with
  | .idle => none
  | .subscribeMarket p => s.move .client (.subscribeProducts p)
  | .subscribeProducts p =>
    if s.products p then s.move .client (.subscribeLeave p)
    else { s with products := Function.update s.products p true }.move .client (.subscribeFeed p)
  | .subscribeFeed p => s.move .client (.subscribeListener p)
  | .subscribeListener p =>
    if s.listeners p then s.move .client (.subscribeLeave p)
    else (s.startProduct p).bind fun s => s.move .client (.subscribeLeave p)
  | .subscribeLeave p => s.move .client (.subscribeTrades p)
  | .subscribeTrades p => s.move .client (.subscribePublisher p)
  | .subscribePublisher _ => s.move .client .idle
  | .unsubscribeMarket p => s.move .client (.unsubscribeProduct p)
  | .unsubscribeProduct p =>
    if clientsLeft then s.move .client .idle else s.move .client (.unsubscribeFeed p)
  | .unsubscribeFeed p => s.move .client (.unsubscribeListener p)
  | .unsubscribeListener p =>
    if s.listeners p then s.move .client (.joinRequest p)
    else s.move .client (.unsubscribeErase p)
  | .joinRequest p =>
    if RequestPoint.isEnded (s.point (.request p)) then
      { s with isRunning := Function.update s.isRunning p false }.move .client (.joinMessages p)
    else none
  | .joinMessages p =>
    if MessagesPoint.isEnded (s.point (.messages p)) then
      { s with listeners := Function.update s.listeners p false }.move .client
        (.unsubscribeErase p)
    else none
  | .unsubscribeErase p => s.move .client (.unsubscribeLeave p)
  | .unsubscribeLeave p =>
    { s with products := Function.update s.products p false }.move .client .idle

/-- A step of the websocket thread on its way through `onMessageReceived`. `gap` is
whether the sequence number shows one. -/
def websocketStep (s : ServerThreads) (gap : Bool) : Option ServerThreads :=
  match s.point .websocket with
  | .idle => none
  | .feed prodId trade => s.move .websocket (.feedMessage prodId trade)
  | .feedMessage prodId trade =>
    match prodId with
    | none => s.move .websocket (.isTrade trade)
    | some p =>
      if s.listeners p then s.move .websocket (.product p trade)
      else s.move .websocket (.isTrade trade)
  | .product p trade => s.move .websocket (.productMessage p trade)
  | .productMessage p trade =>
    if s.requestingOrderbook p then s.move .websocket (.productLeave p trade)
    else if gap then
      { s with requestingOrderbook := Function.update s.requestingOrderbook p true }.move
        .websocket (.joinRequest p trade)
    else s.move .websocket (.productLeave p trade)
  | .joinRequest p trade =>
    if RequestPoint.isEnded (s.point (.request p)) then
      -- the joined thread is replaced by a new one
      (s.move .websocket (.productLeave p trade)).bind fun s =>
        s.move (.request p) RequestPoint.request
    else none
  | .productLeave _ trade => s.move .websocket (.isTrade trade)
  | .isTrade trade =>
    if trade then s.move .websocket .onTrade else s.move .websocket .feedLeave
  | .onTrade => s.move .websocket .publish
  | .publish => s.move .websocket .feedLeave
  | .feedLeave => s.move .websocket .idle

/-- A step of the market thread. `wait` is whether it waits for changes. -/
def marketStep (s : ServerThreads) (wait : Bool) : Option ServerThreads :=
  match s.point .market with
  | .changes => s.move .market .changesHeld
  | .changesHeld => if wait then s.move .market .changesWait else s.move .market .process
  | .changesWait => s.move .market .changes
  | .process => s.move .market .processHeld
  | .processHeld => s.move .market .changes

/-- A step of a request thread. `valid` is whether it got a full order book. -/
def requestStep (s : ServerThreads) (p : String) (valid : Bool) : Option ServerThreads :=
  match s.point (.request p) with
  | .request =>
    if valid then s.move (.request p) RequestPoint.merge
    else s.move (.request p) RequestPoint.ended
  | .merge => s.move (.request p) RequestPoint.mergeHeld
  | .mergeHeld =>
    { s with requestingOrderbook := Function.update s.requestingOrderbook p false }.move
      (.request p) RequestPoint.mergeLeave
  | .mergeLeave => s.move (.request p) RequestPoint.ended
  | .ended => none

/-- A step of a message thread. `go` is whether it waits for messages, and whether there
is another message to hand over. -/
def messagesStep (s : ServerThreads) (p : String) (go : Bool) : Option ServerThreads :=
  match s.point (.messages p) with
  | .loop =>
    if s.isRunning p then s.move (.messages p) MessagesPoint.queue
    else s.move (.messages p) MessagesPoint.ended
  | .queue => s.move (.messages p) MessagesPoint.queueHeld
  | .queueHeld =>
    if go then s.move (.messages p) MessagesPoint.queueWait
    else s.move (.messages p) MessagesPoint.handle
  | .queueWait => s.move (.messages p) MessagesPoint.queue
  | .handle =>
    if go then s.move (.messages p) MessagesPoint.onProductChange
    else s.move (.messages p) MessagesPoint.loop
  | .onProductChange => s.move (.messages p) MessagesPoint.onProductChangeHeld
  | .onProductChangeHeld => s.move (.messages p) MessagesPoint.handle
  | .ended => none

end ServerThreads

inductive ThreadEvent where
  /-- A request of a client. A client unsubscribes from a product that is there. -/
  | subscribe (prodId : String)
  | unsubscribe (prodId : String)
  /-- A message of the exchange. -/
  | message (prodId : Option String) (trade : Bool)
  /-- One step of a thread. -/
  | client (clientsLeft : Bool)
  | websocket (gap : Bool)
  | market (wait : Bool)
  | request (prodId : String) (valid : Bool)
  | messages (prodId : String) (go : Bool)

def ServerThreads.step (s : ServerThreads) : ThreadEvent → Option ServerThreads
  | .subscribe p =>
    match s.point .client with
    | .idle => s.move .client (.subscribeMarket p)
    | _ => none
  | .unsubscribe p =>
    match s.point .client with
    | .idle => if s.products p then s.move .client (.unsubscribeMarket p) else none
    | _ => none
  | .message prodId trade =>
    match s.point .websocket with
    | .idle => s.move .websocket (.feed prodId trade)
    | _ => none
  | .client clientsLeft => s.clientStep clientsLeft
  | .websocket gap => s.websocketStep gap
  | .market wait => s.marketStep wait
  | .request p valid => s.requestStep p valid
  | .messages p go => s.messagesStep p go

def threadMachine : Machine ServerThreads ThreadEvent where
  step := ServerThreads.step

end QuoteServer
