import QuoteServer.OrderBook

/-!
# Product changes

A `ProductChange` is what a feed hands to the market: one message of the
exchange, or a full order book with the messages to merge into it. Each kind
knows how to update a book. A change of any kind reports an update, found or
not.
-/

namespace QuoteServer

/-- The five subclasses of `ProductChange`, each with the base class's product
id and sequence number last. -/
inductive ProductChange (FloatingP : Type) where
  | resetOrderBook (bids asks : List (Order FloatingP))
      (toMerge : List (ProductChange FloatingP))
      (productId : String) (sequenceNumber : Nat)
  | orderOpen (orderId : String) (price remainingSize : FloatingP) (side : Side)
      (productId : String) (sequenceNumber : Nat)
  | orderChange (orderId : String) (price remainingSize : FloatingP) (side : Side)
      (productId : String) (sequenceNumber : Nat)
  | orderDone (orderId : String) (side : Side)
      (productId : String) (sequenceNumber : Nat)
  | orderMatch (makerOrderId takerOrderId : String) (price size : FloatingP)
      (side : Side) (productId : String) (sequenceNumber : Nat)

variable {FloatingP : Type}

namespace ProductChange

def getProductId : ProductChange FloatingP → String
  | .resetOrderBook _ _ _ productId _ => productId
  | .orderOpen _ _ _ _ productId _ => productId
  | .orderChange _ _ _ _ productId _ => productId
  | .orderDone _ _ productId _ => productId
  | .orderMatch _ _ _ _ _ productId _ => productId

def getSequenceNumber : ProductChange FloatingP → Nat
  | .resetOrderBook _ _ _ _ sequenceNumber => sequenceNumber
  | .orderOpen _ _ _ _ _ sequenceNumber => sequenceNumber
  | .orderChange _ _ _ _ _ sequenceNumber => sequenceNumber
  | .orderDone _ _ _ sequenceNumber => sequenceNumber
  | .orderMatch _ _ _ _ _ _ sequenceNumber => sequenceNumber

/-- Whether the change is a `ProductChangeResetOrderBook`. -/
def isReset : ProductChange FloatingP → Bool
  | .resetOrderBook .. => true
  | _ => false

variable [Sub FloatingP]

mutual

/-- `updateOrderBook`: the updated book and the value returned. -/
def updateOrderBook : ProductChange FloatingP → OrderBook FloatingP →
    OrderBook FloatingP × Bool
  | .resetOrderBook bids asks toMerge _ _, book =>
    (mergeInto toMerge (book.init bids asks), true)
  | .orderOpen orderId price remainingSize side _ _, book =>
    (book.addOrder ⟨price, remainingSize, orderId⟩ side, true)
  | .orderChange orderId _ remainingSize side _ _, book =>
    (book.updateOrder orderId remainingSize side, true)
  | .orderDone orderId side _ _, book => (book.removeOrder orderId side, true)
  | .orderMatch makerOrderId takerOrderId _ size side _ _, book =>
    (book.matchOrders makerOrderId takerOrderId size side, true)

/-- The loop of `ProductChangeResetOrderBook` over its messages to merge. -/
def mergeInto : List (ProductChange FloatingP) → OrderBook FloatingP →
    OrderBook FloatingP
  | [], book => book
  | pc :: pcs, book => mergeInto pcs (updateOrderBook pc book).1

end

@[simp] theorem updateOrderBook_snd (pc : ProductChange FloatingP)
    (book : OrderBook FloatingP) : (pc.updateOrderBook book).2 = true := by
  cases pc <;> simp only [updateOrderBook]

end ProductChange

variable [Sub FloatingP]

namespace OrderBook

/-- One change applied to a book, for folds. -/
def applyChange (book : OrderBook FloatingP) (pc : ProductChange FloatingP) :
    OrderBook FloatingP :=
  (pc.updateOrderBook book).1

/-- Changes applied to a book one by one, in order: the plain sequential replay. -/
def replay (book : OrderBook FloatingP) (pcs : List (ProductChange FloatingP)) :
    OrderBook FloatingP :=
  pcs.foldl applyChange book

@[simp] theorem replay_nil (book : OrderBook FloatingP) : book.replay [] = book := rfl

@[simp] theorem replay_cons (book : OrderBook FloatingP)
    (pc : ProductChange FloatingP) (pcs : List (ProductChange FloatingP)) :
    book.replay (pc :: pcs) = (book.applyChange pc).replay pcs := rfl

theorem replay_append (book : OrderBook FloatingP)
    (pcs qcs : List (ProductChange FloatingP)) :
    book.replay (pcs ++ qcs) = (book.replay pcs).replay qcs :=
  List.foldl_append

end OrderBook

/-- Merging is replaying. -/
theorem ProductChange.mergeInto_eq_replay (pcs : List (ProductChange FloatingP))
    (book : OrderBook FloatingP) : mergeInto pcs book = book.replay pcs := by
  induction pcs generalizing book with
  | nil => simp only [mergeInto, OrderBook.replay_nil]
  | cons pc pcs ih =>
    simp only [mergeInto, OrderBook.replay_cons]
    exact ih _

/-- A reset forgets the book it is applied to. -/
theorem OrderBook.applyChange_reset (book : OrderBook FloatingP)
    (bids asks : List (Order FloatingP)) (toMerge : List (ProductChange FloatingP))
    (productId : String) (sequenceNumber : Nat) :
    book.applyChange (.resetOrderBook bids asks toMerge productId sequenceNumber) =
      OrderBook.replay { bids := bids, asks := asks } toMerge := by
  rw [OrderBook.applyChange]
  simp only [ProductChange.updateOrderBook, ProductChange.mergeInto_eq_replay]
  rfl

end QuoteServer
