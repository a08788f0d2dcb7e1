import Mathlib.Data.Finset.Card
import QuoteServer.Product.ProductChange
import QuoteServer.Transport.EndpointProvider

/-!
# Product: a book and its publisher

A `Product` applies the changes it is given to its order book, in the order given,
and then publishes the book once. It also keeps the clients subscribed to it; the one
method that adds a client, `appendClient`, is called from nowhere and is left out.
-/

namespace QuoteServer

variable {FloatingP : Type}

/-- A `ProductChangePublisherZMQ`: the endpoint it is bound to and every book that it
published, in order. -/
structure ProductChangePublisherZMQ (FloatingP : Type) where
  endpoint : String
  published : List (OrderBook FloatingP) := []
  deriving DecidableEq

namespace ProductChangePublisherZMQ

/-- The constructor. -/
def create (provider : EndpointProvider) (productId : String) :
    Except Fault (ProductChangePublisherZMQ FloatingP) := do
  let endpoint ← provider.prodIdToPort productId
  return { endpoint := endpoint.address ++ ":" ++ endpoint.orderbookPort }

def publish (publisher : ProductChangePublisherZMQ FloatingP) (book : OrderBook FloatingP) :
    ProductChangePublisherZMQ FloatingP :=
  { publisher with published := publisher.published ++ [book] }

end ProductChangePublisherZMQ

structure Product (FloatingP : Type) where
  productId : String
  /-- The keys of `m_clients`. -/
  clients : Finset String := ∅
  orderBook : OrderBook FloatingP := {}
  publisher : ProductChangePublisherZMQ FloatingP

namespace Product

def hasClients (product : Product FloatingP) : Nat := product.clients.card

def removeClient (product : Product FloatingP) (clientId : String) : Product FloatingP :=
  { product with clients := product.clients.erase clientId }

/-- The loop over the changes: the book, and whether any change reported an update. -/
def updateAll [Sub FloatingP] (book : OrderBook FloatingP)
    (pcs : List (ProductChange FloatingP)) : OrderBook FloatingP × Bool :=
  pcs.foldl (fun acc pc =>
    ((pc.updateOrderBook acc.1).1, (pc.updateOrderBook acc.1).2 || acc.2)) (book, false)

def onProductChanges [Sub FloatingP] (product : Product FloatingP)
    (pcs : List (ProductChange FloatingP)) : Product FloatingP :=
  if pcs.isEmpty then product
  else
    let updated := updateAll product.orderBook pcs
    { product with
      orderBook := updated.1
      publisher := if updated.2 then product.publisher.publish updated.1 else product.publisher }

variable [Sub FloatingP]

theorem updateAll_append (book : OrderBook FloatingP)
    (pcs : List (ProductChange FloatingP)) (pc : ProductChange FloatingP) :
    updateAll book (pcs ++ [pc]) =
      ((updateAll book pcs).1.applyChange pc,
        (pc.updateOrderBook (updateAll book pcs).1).2 || (updateAll book pcs).2) := by
  rw [updateAll, List.foldl_append]
  rfl

/-- The book after the loop is the replay of the changes. -/
theorem updateAll_fst (book : OrderBook FloatingP) (pcs : List (ProductChange FloatingP)) :
    (updateAll book pcs).1 = book.replay pcs := by
  -- from the end, since the loop keeps what it has done so far
  induction pcs using List.reverseRecOn with
  | nil => rfl
  | append_singleton pcs pc ih =>
    rw [updateAll_append, OrderBook.replay_append, ih]
    rfl

/-- Every change reports an update, so any change at all makes the loop report one. -/
theorem updateAll_snd (book : OrderBook FloatingP) {pcs : List (ProductChange FloatingP)}
    (h : pcs ≠ []) : (updateAll book pcs).2 = true := by
  cases pcs using List.reverseRecOn with
  | nil => exact absurd rfl h
  | append_singleton pcs pc =>
    rw [updateAll_append]
    show ((pc.updateOrderBook (updateAll book pcs).1).2 || (updateAll book pcs).2) = true
    rw [ProductChange.updateOrderBook_snd, Bool.true_or]

theorem onProductChanges_nil (product : Product FloatingP) :
    product.onProductChanges [] = product := rfl

/-- What a nonempty batch does: the book is replayed on, and published once. -/
theorem onProductChanges_of_ne_nil (product : Product FloatingP)
    {pcs : List (ProductChange FloatingP)} (h : pcs ≠ []) :
    product.onProductChanges pcs =
      { product with
        orderBook := product.orderBook.replay pcs
        publisher := product.publisher.publish (product.orderBook.replay pcs) } := by
  rw [onProductChanges, if_neg (by simpa using h)]
  dsimp only
  rw [updateAll_snd _ h, if_pos rfl, updateAll_fst]

end Product

end QuoteServer
