import QuoteServer.Lib.Footprint
import QuoteServer.Lib.KeyedBatch
import QuoteServer.Product.ProductChange

/-!
# Changes of different orders can be reordered

A book has a part for each order id: the orders with that id, in their order, on either
side. A change touches the parts of the ids it names, and what it makes of them depends
on these parts alone: every search of the book is for the first order with an id, and
the early return of `matchOrders` asks for the maker only. So changes that name
different ids can be swapped (`replay_reordered`), duplicate ids or not.
-/

namespace QuoteServer

open KeyedBatch Footprint

variable {FloatingP : Type}

/-- The orders with one id on one side, in their order. -/
def OrderBook.ordersOf (book : OrderBook FloatingP) (orderId : String) (s : Side) :
    List (Order FloatingP) :=
  forKey Order.orderId orderId (book.side s)

/-- The order ids a change names. A reset replaces the orders of every id. -/
def ProductChange.orderIds : ProductChange FloatingP → Set String
  | .resetOrderBook _ _ _ _ _ => Set.univ
  | .orderOpen orderId _ _ _ _ _ => {orderId}
  | .orderChange orderId _ _ _ _ _ => {orderId}
  | .orderDone orderId _ _ _ => {orderId}
  | .orderMatch makerOrderId takerOrderId _ _ _ _ _ => {makerOrderId, takerOrderId}

/-! ## Searching by id, one id at a time -/

theorem ids_forKey {id : String} {orders : List (Order FloatingP)} :
    ∀ x ∈ (forKey Order.orderId id orders).map Order.orderId, x = id := by
  intro x hx
  obtain ⟨o, ho, rfl⟩ := List.mem_map.mp hx
  exact (mem_forKey.mp ho).2

/-- Among the orders of another id, an id is not found. -/
theorem notMem_ids_forKey {id x : String} (h : x ≠ id) (orders : List (Order FloatingP)) :
    x ∉ (forKey Order.orderId id orders).map Order.orderId :=
  fun hx => h (ids_forKey x hx)

/-- Erasing the first order with an id, seen by the orders of one id. -/
theorem forKey_eraseId (id x : String) (orders : List (Order FloatingP)) :
    forKey Order.orderId id (orders.eraseP (Order.hasId x)) =
      (forKey Order.orderId id orders).eraseP (Order.hasId x) := by
  induction orders with
  | nil => rfl
  | cons o orders ih =>
    by_cases hx : o.hasId x = true
    · -- the order is erased
      rw [List.eraseP_cons_of_pos hx]
      by_cases hid : o.orderId = id
      · rw [forKey_cons_self orders hid, List.eraseP_cons_of_pos hx]
      · have hne : x ≠ id := fun h => hid ((Order.hasId_iff.mp hx).trans h)
        rw [forKey_cons_ne orders hid, eraseId_of_notMem (notMem_ids_forKey hne orders)]
    · rw [List.eraseP_cons_of_neg hx]
      by_cases hid : o.orderId = id
      · rw [forKey_cons_self _ hid, forKey_cons_self orders hid, List.eraseP_cons_of_neg hx, ih]
      · rw [forKey_cons_ne _ hid, forKey_cons_ne orders hid, ih]

theorem resizeFirst_cons_self {x : String} {o : Order FloatingP} (f : FloatingP → FloatingP)
    (orders : List (Order FloatingP)) (hx : o.hasId x = true) :
    resizeFirst x f (o :: orders) = { o with size := f o.size } :: orders :=
  List.replaceF_cons_of_some _ (if_pos hx)

theorem resizeFirst_cons_ne {x : String} {o : Order FloatingP} (f : FloatingP → FloatingP)
    (orders : List (Order FloatingP)) (hx : ¬ o.hasId x = true) :
    resizeFirst x f (o :: orders) = o :: resizeFirst x f orders :=
  List.replaceF_cons_of_none _ (if_neg hx)

/-- Resizing the first order with an id, seen by the orders of one id. -/
theorem forKey_resizeFirst (id x : String) (f : FloatingP → FloatingP)
    (orders : List (Order FloatingP)) :
    forKey Order.orderId id (resizeFirst x f orders) =
      resizeFirst x f (forKey Order.orderId id orders) := by
  induction orders with
  | nil => rfl
  | cons o orders ih =>
    by_cases hx : o.hasId x = true
    · rw [resizeFirst_cons_self f orders hx]
      by_cases hid : o.orderId = id
      · rw [forKey_cons_self orders hid, resizeFirst_cons_self f _ hx]
        exact forKey_cons_self orders hid
      · have hne : x ≠ id := fun h => hid ((Order.hasId_iff.mp hx).trans h)
        rw [forKey_cons_ne orders hid, resizeFirst_of_notMem f (notMem_ids_forKey hne orders)]
        exact forKey_cons_ne orders hid
    · rw [resizeFirst_cons_ne f orders hx]
      by_cases hid : o.orderId = id
      · rw [forKey_cons_self _ hid, forKey_cons_self orders hid, resizeFirst_cons_ne f _ hx, ih]
      · rw [forKey_cons_ne _ hid, forKey_cons_ne orders hid, ih]

/-- An id is found if and only if it is found among its own orders. -/
theorem any_hasId_forKey (x : String) (orders : List (Order FloatingP)) :
    (forKey Order.orderId x orders).any (Order.hasId x) = orders.any (Order.hasId x) := by
  rw [Bool.eq_iff_iff, any_hasId_iff, any_hasId_iff, List.mem_map, List.mem_map]
  constructor
  · rintro ⟨o, ho, hid⟩
    exact ⟨o, (mem_forKey.mp ho).1, hid⟩
  · rintro ⟨o, ho, hid⟩
    exact ⟨o, mem_forKey.mpr ⟨ho, hid⟩, hid⟩

/-! ## The operations of the book, one id at a time -/

namespace OrderBook

theorem ordersOf_addOrder (book : OrderBook FloatingP) (o : Order FloatingP) (s : Side)
    (id : String) (t : Side) :
    (book.addOrder o s).ordersOf id t =
      book.ordersOf id t ++ if t = s then forKey Order.orderId id [o] else [] := by
  cases s <;> cases t <;> simp [ordersOf, addOrder, side, forKey_append]

theorem ordersOf_removeOrder (book : OrderBook FloatingP) (x : String) (s : Side)
    (id : String) (t : Side) :
    (book.removeOrder x s).ordersOf id t =
      if t = s.opposite then (book.ordersOf id t).eraseP (Order.hasId x)
      else book.ordersOf id t := by
  cases s <;> cases t <;> simp [ordersOf, removeOrder, side, Side.opposite, forKey_eraseId]

theorem ordersOf_updateOrder (book : OrderBook FloatingP) (x : String) (newSize : FloatingP)
    (s : Side) (id : String) (t : Side) :
    (book.updateOrder x newSize s).ordersOf id t =
      if t = s.opposite then resizeFirst x (fun _ => newSize) (book.ordersOf id t)
      else book.ordersOf id t := by
  cases s <;> cases t <;> simp [ordersOf, updateOrder, side, Side.opposite, forKey_resizeFirst]

/-- A match asks for the maker on the opposite side first. If it is there, it is resized
on that side and the taker on the other. -/
theorem ordersOf_matchOrders [Sub FloatingP] (book : OrderBook FloatingP)
    (maker taker : String) (size : FloatingP) (s : Side) (id : String) (t : Side) :
    (book.matchOrders maker taker size s).ordersOf id t =
      if (book.ordersOf maker s.opposite).any (Order.hasId maker) = true then
        resizeFirst (if t = s.opposite then maker else taker) (· - size) (book.ordersOf id t)
      else book.ordersOf id t := by
  rw [ordersOf, ordersOf, ordersOf, any_hasId_forKey]
  cases s with
  | sell =>
    show forKey _ id (side (if book.bids.any (Order.hasId maker) then _ else book) t) =
      if book.bids.any (Order.hasId maker) = true then _ else _
    by_cases h : book.bids.any (Order.hasId maker) = true
    · rw [if_pos h, if_pos h]
      cases t <;> simp [side, Side.opposite, forKey_resizeFirst]
    · rw [if_neg h, if_neg h]
  | buy =>
    show forKey _ id (side (if book.asks.any (Order.hasId maker) then _ else book) t) =
      if book.asks.any (Order.hasId maker) = true then _ else _
    by_cases h : book.asks.any (Order.hasId maker) = true
    · rw [if_pos h, if_pos h]
      cases t <;> simp [side, Side.opposite, forKey_resizeFirst]
    · rw [if_neg h, if_neg h]

end OrderBook

/-! ## Changes with their order ids as footprints -/

variable [Sub FloatingP]

/-- A change leaves the orders of the ids it does not name. -/
theorem ordersOf_applyChange_frame (book : OrderBook FloatingP) (pc : ProductChange FloatingP)
    (id : String) (h : id ∉ pc.orderIds) :
    (book.applyChange pc).ordersOf id = book.ordersOf id := by
  funext t
  have hout : ∀ x, x ≠ id → x ∉ (book.ordersOf id t).map Order.orderId :=
    fun x hx => notMem_ids_forKey hx _
  cases pc with
  | resetOrderBook bids asks toMerge p n => exact absurd (Set.mem_univ id) h
  | orderOpen x price size s p n =>
    rw [OrderBook.applyChange, ProductChange.updateOrderBook, OrderBook.ordersOf_addOrder]
    have hnone : forKey Order.orderId id [⟨price, size, x⟩] = [] := by
      refine forKey_eq_nil.mpr fun o ho hid => h ?_
      rw [List.mem_singleton.mp ho] at hid
      exact hid.symm
    rw [hnone, ite_self, List.append_nil]
  | orderChange x price size s p n =>
    rw [OrderBook.applyChange, ProductChange.updateOrderBook, OrderBook.ordersOf_updateOrder,
      resizeFirst_of_notMem _ (hout x fun hx => h hx.symm), ite_self]
  | orderDone x s p n =>
    rw [OrderBook.applyChange, ProductChange.updateOrderBook, OrderBook.ordersOf_removeOrder,
      eraseId_of_notMem (hout x fun hx => h hx.symm), ite_self]
  | orderMatch maker taker price size s p n =>
    have hmaker : maker ≠ id := fun hx => h (.inl hx.symm)
    have htaker : taker ≠ id := fun hx => h (.inr hx.symm)
    have hne : (if t = s.opposite then maker else taker) ≠ id := by
      by_cases ht : t = s.opposite
      · rw [if_pos ht]
        exact hmaker
      · rw [if_neg ht]
        exact htaker
    rw [OrderBook.applyChange, ProductChange.updateOrderBook, OrderBook.ordersOf_matchOrders,
      resizeFirst_of_notMem _ (hout _ hne), ite_self]

/-- What a change makes of the orders it names depends on these alone. -/
theorem ordersOf_applyChange_reads (book book' : OrderBook FloatingP)
    (pc : ProductChange FloatingP)
    (h : ∀ id ∈ pc.orderIds, book.ordersOf id = book'.ordersOf id) (id : String)
    (hid : id ∈ pc.orderIds) :
    (book.applyChange pc).ordersOf id = (book'.applyChange pc).ordersOf id := by
  have hsame : ∀ t, book.ordersOf id t = book'.ordersOf id t := fun t => congrFun (h id hid) t
  cases pc with
  | resetOrderBook bids asks toMerge p n =>
    rw [OrderBook.applyChange_reset, OrderBook.applyChange_reset]
  | orderOpen x price size s p n =>
    funext t
    simp only [OrderBook.applyChange, ProductChange.updateOrderBook,
      OrderBook.ordersOf_addOrder, hsame]
  | orderChange x price size s p n =>
    funext t
    simp only [OrderBook.applyChange, ProductChange.updateOrderBook,
      OrderBook.ordersOf_updateOrder, hsame]
  | orderDone x s p n =>
    funext t
    simp only [OrderBook.applyChange, ProductChange.updateOrderBook,
      OrderBook.ordersOf_removeOrder, hsame]
  | orderMatch maker taker price size s p n =>
    funext t
    have hmaker : book.ordersOf maker = book'.ordersOf maker := h maker (.inl rfl)
    simp only [OrderBook.applyChange, ProductChange.updateOrderBook,
      OrderBook.ordersOf_matchOrders, hsame, hmaker]

/-- The changes as operations on books, with a part for each order id. -/
def changeOperations (FloatingP : Type) [Sub FloatingP] :
    Operations (OrderBook FloatingP) (ProductChange FloatingP) String
      (Side → List (Order FloatingP)) where
  apply := OrderBook.applyChange
  part := OrderBook.ordersOf
  footprint := ProductChange.orderIds
  frame := ordersOf_applyChange_frame
  reads := ordersOf_applyChange_reads

/-- The second list comes from the first by swaps of neighbours that name no common
order id. -/
def Reordered (pcs qcs : List (ProductChange FloatingP)) : Prop :=
  (changeOperations FloatingP).Reordered pcs qcs

/-- **Changes of different orders can be reordered.** Applied to any book, either list
leaves the same orders of each id on each side, in the same order, and so the same
orders on each side. -/
theorem replay_reordered {pcs qcs : List (ProductChange FloatingP)} (h : Reordered pcs qcs)
    (book : OrderBook FloatingP) :
    (∀ id s, (book.replay pcs).ordersOf id s = (book.replay qcs).ordersOf id s) ∧
      ∀ s, ((book.replay pcs).side s).Perm ((book.replay qcs).side s) := by
  have hsame : ∀ id s, (book.replay pcs).ordersOf id s = (book.replay qcs).ordersOf id s :=
    fun id s => congrFun (Operations.same_of_reordered h book id) s
  exact ⟨hsame, fun s => perm_of_forKey fun id => hsame id s⟩

/-- A done moves before a match and an open of other orders. -/
theorem replay_reordered_done :
    Reordered [.orderMatch "A" "B" 100 1 .sell "ETH-USD" 1, .orderOpen "C" 100 2 .buy "ETH-USD" 2,
        .orderDone "D" .sell "ETH-USD" 3]
      [.orderDone "D" .sell "ETH-USD" 3, .orderMatch "A" "B" (100 : Int) 1 .sell "ETH-USD" 1,
        .orderOpen "C" 100 2 .buy "ETH-USD" 2] ∧
    ∀ id s, (OrderBook.replay ⟨[⟨100, 5, "D"⟩, ⟨99, 5, "A"⟩], []⟩
        [.orderMatch "A" "B" 100 1 .sell "ETH-USD" 1, .orderOpen "C" 100 2 .buy "ETH-USD" 2,
          .orderDone "D" .sell "ETH-USD" 3]).ordersOf id s =
      (OrderBook.replay ⟨[⟨100, 5, "D"⟩, ⟨99, 5, "A"⟩], []⟩
        [.orderDone "D" .sell "ETH-USD" 3, .orderMatch "A" "B" (100 : Int) 1 .sell "ETH-USD" 1,
          .orderOpen "C" 100 2 .buy "ETH-USD" 2]).ordersOf id s := by
  have hopen : (changeOperations Int).Independent (.orderOpen "C" 100 2 .buy "ETH-USD" 2)
      (.orderDone "D" .sell "ETH-USD" 3) := by
    intro id hC hD
    exact absurd (hC.symm.trans hD) (by decide)
  have hmatch : (changeOperations Int).Independent (.orderMatch "A" "B" 100 1 .sell "ETH-USD" 1)
      (.orderDone "D" .sell "ETH-USD" 3) := by
    intro id hAB hD
    rcases hAB with hA | hB
    · exact absurd (hA.symm.trans hD) (by decide)
    · exact absurd (hB.symm.trans hD) (by decide)
  have hreordered := (Relation.ReflTransGen.single
    (Operations.Swap.swap [.orderMatch "A" "B" 100 1 .sell "ETH-USD" 1] [] hopen)).tail
    (Operations.Swap.swap (O := changeOperations Int) []
      [.orderOpen "C" 100 2 .buy "ETH-USD" 2] hmatch)
  exact ⟨hreordered, (replay_reordered hreordered _).1⟩

end QuoteServer
