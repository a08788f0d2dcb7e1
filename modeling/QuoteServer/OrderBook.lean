import Mathlib.Data.List.ChainOfFn

/-!
# The order book

`OrderBook` keeps two vectors of orders, found by first match on the order id.
None of its operations fails: an id that is not found leaves the book as it is
(the code logs a line and returns).

Sizes and prices are `double`s (`FloatingP`). The only operations the code
performs on them are a subtraction and `std::stod`, so the model is generic in
the number type and keeps exactly these two.
-/

namespace QuoteServer

/-- What the code uses of `using FloatingP = double`: subtraction and
`std::stod` (`none` where it throws). -/
class FloatingPoint (FloatingP : Type) extends Sub FloatingP where
  stod : String → Option FloatingP

/-- Whole numbers in decimal, to evaluate the model on. -/
instance : FloatingPoint Int where
  stod s :=
    if s.toList ≠ [] ∧ s.toList.all Char.isDigit then
      some (s.toList.foldl (fun n c => 10 * n + (c.toNat - '0'.toNat)) 0)
    else none

inductive Side where
  | sell
  | buy
  deriving DecidableEq, Repr

/-- The side an order rests on when it is not `s`. -/
def Side.opposite : Side → Side
  | .sell => .buy
  | .buy => .sell

structure Order (FloatingP : Type) where
  price : FloatingP
  size : FloatingP
  orderId : String
  deriving DecidableEq, Repr

structure OrderBook (FloatingP : Type) where
  bids : List (Order FloatingP) := []
  asks : List (Order FloatingP) := []
  deriving DecidableEq, Repr

variable {FloatingP : Type}

/-- The predicate of every `std::find_if` of the book. -/
def Order.hasId (orderId : String) (o : Order FloatingP) : Bool :=
  o.orderId == orderId

/-- `it->size = f(it->size)` at the first order with the id, if there is one. -/
def resizeFirst (orderId : String) (f : FloatingP → FloatingP)
    (orders : List (Order FloatingP)) : List (Order FloatingP) :=
  orders.replaceF fun o =>
    if o.hasId orderId then some { o with size := f o.size } else none

namespace OrderBook

def init (_book : OrderBook FloatingP) (bids asks : List (Order FloatingP)) :
    OrderBook FloatingP :=
  { bids := bids, asks := asks }

def addOrder (book : OrderBook FloatingP) (order : Order FloatingP) (side : Side) :
    OrderBook FloatingP :=
  match side with
  | .buy => { book with bids := book.bids ++ [order] }
  | .sell => { book with asks := book.asks ++ [order] }

def removeOrder (book : OrderBook FloatingP) (orderId : String) (side : Side) :
    OrderBook FloatingP :=
  match side with
  | .buy => { book with asks := book.asks.eraseP (Order.hasId orderId) }
  | .sell => { book with bids := book.bids.eraseP (Order.hasId orderId) }

def updateOrder (book : OrderBook FloatingP) (orderId : String)
    (newSize : FloatingP) (side : Side) : OrderBook FloatingP :=
  match side with
  | .buy => { book with asks := resizeFirst orderId (fun _ => newSize) book.asks }
  | .sell => { book with bids := resizeFirst orderId (fun _ => newSize) book.bids }

def matchOrders [Sub FloatingP] (book : OrderBook FloatingP)
    (makerOrderId takerOrderId : String) (matchedSize : FloatingP) (side : Side) :
    OrderBook FloatingP :=
  match side with
  | .sell =>
    if book.bids.any (Order.hasId makerOrderId) then
      { bids := resizeFirst makerOrderId (· - matchedSize) book.bids
        asks := resizeFirst takerOrderId (· - matchedSize) book.asks }
    else book
  | .buy =>
    if book.asks.any (Order.hasId makerOrderId) then
      { asks := resizeFirst makerOrderId (· - matchedSize) book.asks
        bids := resizeFirst takerOrderId (· - matchedSize) book.bids }
    else book

/-- The list of one side. -/
def side (book : OrderBook FloatingP) : Side → List (Order FloatingP)
  | .buy => book.bids
  | .sell => book.asks

end OrderBook

/-! ## Ids that are not there -/

theorem Order.hasId_iff {orderId : String} {o : Order FloatingP} :
    o.hasId orderId = true ↔ o.orderId = orderId := beq_iff_eq

/-- Resizing an id that no order has does nothing. -/
theorem resizeFirst_of_notMem {orderId : String} (f : FloatingP → FloatingP)
    {orders : List (Order FloatingP)} (h : orderId ∉ orders.map Order.orderId) :
    resizeFirst orderId f orders = orders := by
  refine List.replaceF_of_forall_none fun o ho => if_neg fun hid => h ?_
  exact List.mem_map.mpr ⟨o, ho, Order.hasId_iff.mp hid⟩

/-- Erasing an id that no order has does nothing. -/
theorem eraseId_of_notMem {orderId : String} {orders : List (Order FloatingP)}
    (h : orderId ∉ orders.map Order.orderId) :
    orders.eraseP (Order.hasId orderId) = orders := by
  refine List.eraseP_of_forall_not fun o ho hid => h ?_
  exact List.mem_map.mpr ⟨o, ho, Order.hasId_iff.mp hid⟩

theorem any_hasId_iff {orderId : String} {orders : List (Order FloatingP)} :
    orders.any (Order.hasId orderId) = true ↔ orderId ∈ orders.map Order.orderId := by
  rw [List.any_eq_true, List.mem_map]
  constructor
  · rintro ⟨o, ho, hid⟩
    exact ⟨o, ho, Order.hasId_iff.mp hid⟩
  · rintro ⟨o, ho, hid⟩
    exact ⟨o, ho, Order.hasId_iff.mpr hid⟩

end QuoteServer
