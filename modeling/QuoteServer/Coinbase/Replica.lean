import QuoteServer.Lib.OrderLedger
import QuoteServer.Coinbase.MergedPath

/-!
# When the replica is the exchange's book

The exchange lists its orders in a full order book and then reports every change of
an order with the side the order rests on. The messages are read into the reference
ledger of `Lib.OrderLedger` (`Lists`, `Carries`), and the order book that the changes
of `getProductChange` build is compared with it (`Replicates`).

`addOrder` puts a buy order among the bids and a sell order among the asks.
`removeOrder`, `updateOrder` and `matchOrders` look for an order of side `buy` among
the asks and for one of side `sell` among the bids, so they never find the order that
is meant. The book therefore only grows: it is the full order book and the orders
opened since, at their first sizes (`onlyGrows`). `replicates_iff` tells for which
messages that is the exchange's book all the same.
-/

namespace QuoteServer

open EventMachine OrderLedger CoinbaseFeedMessageHandler

variable {FloatingP : Type}

/-! ## The exchange's messages -/

/-- The text the exchange writes for a side. -/
def Side.text : Side → String
  | .sell => "sell"
  | .buy => "buy"

/-- `std::stod(jmsg[key].get<std::string>())`. -/
def Json.numberAt [FloatingPoint FloatingP] (jmsg : Json) (key : String) :
    Except Fault FloatingP := do
  stod (← jmsg.stringAt key)

/-- What every order message of the exchange has: a type, a side and a sequence
number. -/
structure Reports (jmsg : Json) (type : String) (side : Side) : Prop where
  message : isFullOrderBook jmsg = false
  type_eq : jmsg.stringAt "type" = .ok type
  side_eq : jmsg.stringAt "side" = .ok side.text
  sequence : ∃ n, jmsg.unsignedAt "sequence" = .ok n

/-- The message of the ledger that a `json` carries. -/
inductive Carries [FloatingPoint FloatingP] : Json → Message String Side FloatingP → Prop
  | opened {jmsg : Json} {id : String} {order : Resting Side FloatingP}
      (report : Reports jmsg "open" order.side)
      (orderId : jmsg.stringAt "order_id" = .ok id)
      (price : jmsg.numberAt "price" = .ok order.price)
      (size : jmsg.numberAt "remaining_size" = .ok order.size) :
      Carries jmsg (.opened id order)
  | changed {jmsg : Json} {id : String} {side : Side} {newPrice newSize : FloatingP}
      (report : Reports jmsg "change" side)
      (orderId : jmsg.stringAt "order_id" = .ok id)
      (price : jmsg.numberAt "price" = .ok newPrice)
      (size : jmsg.numberAt "size" = .ok newSize) :
      Carries jmsg (.changed id side newSize)
  | closed {jmsg : Json} {id : String} {side : Side}
      (report : Reports jmsg "done" side)
      (orderId : jmsg.stringAt "order_id" = .ok id) :
      Carries jmsg (.closed id side)
  | matched {jmsg : Json} {maker taker : String} {side : Side} {atPrice traded : FloatingP}
      (report : Reports jmsg "match" side)
      (makerOrderId : jmsg.stringAt "maker_order_id" = .ok maker)
      (takerOrderId : jmsg.stringAt "taker_order_id" = .ok taker)
      (price : jmsg.numberAt "price" = .ok atPrice)
      (size : jmsg.numberAt "size" = .ok traded) :
      Carries jmsg (.matched maker taker side traded)

/-- The orders a full order book of the exchange lists. -/
structure Lists [FloatingPoint FloatingP] (jmsg : Json) (book : OrderBook FloatingP) :
    Prop where
  full : isFullOrderBook jmsg = true
  asks : (jmsg.constIndex "asks" >>= fun j => j.items.mapM readOrder) = .ok book.asks
  bids : (jmsg.constIndex "bids" >>= fun j => j.items.mapM readOrder) = .ok book.bids
  own : toMergeOf jmsg = []
  sequence : ∃ n, jmsg.unsignedAt "sequence" = .ok n

/-- An order of the book as an order of the ledger. -/
def Order.resting (side : Side) (o : Order FloatingP) : String × Resting Side FloatingP :=
  (o.orderId, { side := side, price := o.price, size := o.size })

/-- The orders of a book, with their ids and sides. -/
def OrderBook.orders (book : OrderBook FloatingP) : List (String × Resting Side FloatingP) :=
  book.bids.map (Order.resting .buy) ++ book.asks.map (Order.resting .sell)

/-- The book is the ledger's: `getBids()` has exactly the resting buy orders and
`getAsks()` exactly the resting sell orders, each once, with its price and remaining
size. -/
structure Replicates (book : OrderBook FloatingP) (l : Ledger String Side FloatingP) :
    Prop where
  distinct : ((book.bids ++ book.asks).map Order.orderId).Nodup
  bids : ∀ o, o ∈ book.bids ↔ l.resting o.orderId = some ⟨.buy, o.price, o.size⟩
  asks : ∀ o, o ∈ book.asks ↔ l.resting o.orderId = some ⟨.sell, o.price, o.size⟩

/-! ## The orders of a book -/

theorem OrderBook.mem_orders {book : OrderBook FloatingP} {id : String}
    {r : Resting Side FloatingP} :
    (id, r) ∈ book.orders ↔ ⟨r.price, r.size, id⟩ ∈ book.side r.side := by
  obtain ⟨side, price, size⟩ := r
  rw [OrderBook.orders, List.mem_append, List.mem_map, List.mem_map]
  constructor
  · rintro (⟨o, ho, heq⟩ | ⟨o, ho, heq⟩)
    · cases heq
      exact ho
    · cases heq
      exact ho
  · cases side with
    | buy => exact fun h => .inl ⟨_, h, rfl⟩
    | sell => exact fun h => .inr ⟨_, h, rfl⟩

theorem OrderBook.ids_orders (book : OrderBook FloatingP) :
    book.orders.map Prod.fst = (book.bids ++ book.asks).map Order.orderId := by
  rw [OrderBook.orders, List.map_append, List.map_append, List.map_map, List.map_map]
  rfl

theorem replicates_iff_orders {book : OrderBook FloatingP}
    {l : Ledger String Side FloatingP} :
    Replicates book l ↔ (book.orders.map Prod.fst).Nodup ∧
      ∀ id r, (id, r) ∈ book.orders ↔ l.resting id = some r := by
  rw [OrderBook.ids_orders]
  constructor
  · rintro ⟨hdistinct, hbids, hasks⟩
    refine ⟨hdistinct, fun id r => OrderBook.mem_orders.trans ?_⟩
    obtain ⟨side, price, size⟩ := r
    cases side with
    | buy => exact hbids _
    | sell => exact hasks _
  · rintro ⟨hdistinct, horders⟩
    refine ⟨hdistinct, fun o => ?_, fun o => ?_⟩
    · rw [← horders, OrderBook.mem_orders]
      rfl
    · rw [← horders, OrderBook.mem_orders]
      rfl

/-- With distinct ids, an order that rests on one side has no namesake on the other. -/
theorem notMem_opposite {book : OrderBook FloatingP}
    (hnodup : (book.orders.map Prod.fst).Nodup) {id : String} {r : Resting Side FloatingP}
    (h : (id, r) ∈ book.orders) :
    id ∉ (book.side r.side.opposite).map Order.orderId := by
  rw [OrderBook.ids_orders, List.map_append] at hnodup
  have hdisj := (List.nodup_append.mp hnodup).2.2
  have hmem := OrderBook.mem_orders.mp h
  obtain ⟨side, price, size⟩ := r
  cases side with
  | buy =>
    exact fun hopp => hdisj id (List.mem_map.mpr ⟨_, hmem, rfl⟩) id hopp rfl
  | sell =>
    exact fun hopp => hdisj id hopp id (List.mem_map.mpr ⟨_, hmem, rfl⟩) rfl

/-! ## The operations look on the opposite side -/

theorem removeOrder_opposite {book : OrderBook FloatingP} {id : String} {side : Side}
    (h : id ∉ (book.side side.opposite).map Order.orderId) :
    book.removeOrder id side = book := by
  cases side with
  | buy =>
    have herase : book.asks.eraseP (Order.hasId id) = book.asks := eraseId_of_notMem h
    show { book with asks := book.asks.eraseP (Order.hasId id) } = book
    rw [herase]
  | sell =>
    have herase : book.bids.eraseP (Order.hasId id) = book.bids := eraseId_of_notMem h
    show { book with bids := book.bids.eraseP (Order.hasId id) } = book
    rw [herase]

theorem updateOrder_opposite {book : OrderBook FloatingP} {id : String} {side : Side}
    (size : FloatingP) (h : id ∉ (book.side side.opposite).map Order.orderId) :
    book.updateOrder id size side = book := by
  cases side with
  | buy =>
    have hresize : resizeFirst id (fun _ => size) book.asks = book.asks :=
      resizeFirst_of_notMem _ h
    show { book with asks := resizeFirst id (fun _ => size) book.asks } = book
    rw [hresize]
  | sell =>
    have hresize : resizeFirst id (fun _ => size) book.bids = book.bids :=
      resizeFirst_of_notMem _ h
    show { book with bids := resizeFirst id (fun _ => size) book.bids } = book
    rw [hresize]

/-- A maker that is not found ends the operation, whatever the taker. -/
theorem matchOrders_opposite [Sub FloatingP] {book : OrderBook FloatingP} {maker : String}
    {side : Side} (taker : String) (size : FloatingP)
    (h : maker ∉ (book.side side.opposite).map Order.orderId) :
    book.matchOrders maker taker size side = book := by
  have hany : ¬ (book.side side.opposite).any (Order.hasId maker) = true :=
    fun hany => h (any_hasId_iff.mp hany)
  cases side with
  | buy => exact if_neg hany
  | sell => exact if_neg hany

/-! ## What `getProductChange` makes of them -/

variable [FloatingPoint FloatingP]

/-- The operation of the book that each message ends in. -/
def OrderBook.afterMessage (book : OrderBook FloatingP) :
    Message String Side FloatingP → OrderBook FloatingP
  | .opened id order => book.addOrder ⟨order.price, order.size, id⟩ order.side
  | .changed id side size => book.updateOrder id size side
  | .closed id side => book.removeOrder id side
  | .matched maker taker side size => book.matchOrders maker taker size side

theorem Reports.sideAt {jmsg : Json} {type : String} {side : Side} (h : Reports jmsg type side) :
    jmsg.sideAt = .ok side := by
  rw [Json.sideAt, h.side_eq]
  cases side <;> rfl

/-- A message with a type that is no book is read by its type. -/
theorem Reports.getProductChange_eq {jmsg : Json} {type : String} {side : Side}
    (h : Reports jmsg type side) (productId : String) :
    (getProductChange productId jmsg : Except Fault (Option (ProductChange FloatingP))) =
      typedChange productId jmsg := by
  obtain ⟨v, hv, -⟩ := bind_eq_ok.mp h.type_eq
  have hc : jmsg.contains "type" = true := Json.contains_iff.mpr ⟨v, hv⟩
  obtain ⟨members, rfl⟩ := Json.object_of_contains hc
  have hbook := h.message
  unfold getProductChange
  dsimp only
  rw [hbook, if_neg Bool.false_ne_true, hc, if_pos rfl]

/-- A price and a size are converted one after the other. -/
theorem stod_two {β : Type} {ps ss : String} {price size : FloatingP}
    (hprice : stod ps = .ok price) (hsize : stod ss = .ok size)
    (f : FloatingP → FloatingP → β) :
    (stod ps >>= fun p => stod ss >>= fun s => pure (f p s) : Except Fault β) =
      .ok (f price size) := by
  rw [hprice, hsize]
  rfl

/-- Each message becomes one change, and the change does the operation it should. -/
theorem getProductChange_carries {jmsg : Json} {msg : Message String Side FloatingP}
    (productId : String) (h : Carries jmsg msg) :
    ∃ pc, getProductChange productId jmsg = .ok (some pc) ∧
      ∀ book : OrderBook FloatingP, book.applyChange pc = book.afterMessage msg := by
  cases h with
  | @opened id order report orderId price size =>
    obtain ⟨n, hn⟩ := report.sequence
    obtain ⟨ps, hps, hprice⟩ := bind_eq_ok.mp price
    obtain ⟨ss, hss, hsize⟩ := bind_eq_ok.mp size
    refine ⟨.orderOpen id order.price order.size order.side productId n, ?_, fun book => ?_⟩
    · rw [report.getProductChange_eq]
      rw [typedChange, report.type_eq, orderId, hn, hps, hss, report.sideAt]
      exact stod_two hprice hsize _
    · simp only [OrderBook.applyChange, ProductChange.updateOrderBook]
      rfl
  | @changed id side newPrice newSize report orderId price size =>
    obtain ⟨n, hn⟩ := report.sequence
    obtain ⟨ps, hps, hprice⟩ := bind_eq_ok.mp price
    obtain ⟨ss, hss, hsize⟩ := bind_eq_ok.mp size
    refine ⟨.orderChange id newPrice newSize side productId n, ?_, fun book => ?_⟩
    · rw [report.getProductChange_eq]
      rw [typedChange, report.type_eq, orderId, hn, hps, hss, report.sideAt]
      exact stod_two hprice hsize _
    · simp only [OrderBook.applyChange, ProductChange.updateOrderBook]
      rfl
  | @closed id side report orderId =>
    obtain ⟨n, hn⟩ := report.sequence
    refine ⟨.orderDone id side productId n, ?_, fun book => ?_⟩
    · rw [report.getProductChange_eq]
      unfold typedChange
      rw [report.type_eq, orderId, hn, report.sideAt]
      rfl
    · simp only [OrderBook.applyChange, ProductChange.updateOrderBook]
      rfl
  | @matched maker taker side atPrice traded report makerOrderId takerOrderId price size =>
    obtain ⟨n, hn⟩ := report.sequence
    obtain ⟨ps, hps, hprice⟩ := bind_eq_ok.mp price
    obtain ⟨ss, hss, hsize⟩ := bind_eq_ok.mp size
    refine ⟨.orderMatch maker taker atPrice traded side productId n, ?_, fun book => ?_⟩
    · rw [report.getProductChange_eq]
      unfold typedChange
      rw [report.type_eq, makerOrderId, takerOrderId, hn, hps, hss, report.sideAt]
      exact stod_two hprice hsize _
    · simp only [OrderBook.applyChange, ProductChange.updateOrderBook]
      rfl

/-- A list of messages becomes a list of changes that does their operations in order. -/
theorem changesOf_carries {jmsgs : List Json} {msgs : List (Message String Side FloatingP)}
    (productId : String) (h : List.Forall₂ Carries jmsgs msgs) :
    ∃ pcs, changesOf productId jmsgs = .ok pcs ∧
      ∀ book : OrderBook FloatingP, book.replay pcs = msgs.foldl OrderBook.afterMessage book := by
  induction h with
  | nil => exact ⟨[], rfl, fun book => rfl⟩
  | cons hmsg _ ih =>
    obtain ⟨pc, hpc, hbook⟩ := getProductChange_carries productId hmsg
    obtain ⟨pcs, hpcs, hbooks⟩ := ih
    refine ⟨pc :: pcs, changesOf_cons_ok.mpr ⟨_, _, hpc, hpcs, rfl⟩, fun book => ?_⟩
    rw [OrderBook.replay_cons, hbook, hbooks, List.foldl_cons]

/-- The full order book becomes a reset to its orders. -/
theorem getProductChange_lists {jmsg : Json} {snapshot : OrderBook FloatingP}
    (productId : String) (h : Lists jmsg snapshot) :
    ∃ n, getProductChange productId jmsg =
      .ok (some (.resetOrderBook snapshot.bids snapshot.asks [] productId n)) := by
  obtain ⟨n, hn⟩ := h.sequence
  refine ⟨n, (getProductChange_fullOrderBook h.full).mpr
    ⟨_, _, [], n, h.asks, h.bids, ?_, hn, rfl⟩⟩
  rw [h.own]
  rfl

/-- The changes of a full order book and the messages after it. -/
theorem changesOf_feed {jmsg : Json} {snapshot : OrderBook FloatingP} {jmsgs : List Json}
    {msgs : List (Message String Side FloatingP)} (productId : String)
    (hr : Lists jmsg snapshot) (h : List.Forall₂ Carries jmsgs msgs) :
    ∃ pcs, changesOf productId (jmsg :: jmsgs) = .ok pcs ∧
      ∀ book : OrderBook FloatingP,
        book.replay pcs = msgs.foldl OrderBook.afterMessage snapshot := by
  obtain ⟨n, hn⟩ := getProductChange_lists productId hr
  obtain ⟨pcs, hpcs, hbooks⟩ := changesOf_carries productId h
  refine ⟨_, changesOf_cons_ok.mpr ⟨_, _, hn, hpcs, rfl⟩, fun book => ?_⟩
  show (book.applyChange _).replay pcs = _
  rw [OrderBook.applyChange_reset, OrderBook.replay_nil, hbooks]

/-! ## The book only grows -/

theorem orders_addOrder (book : OrderBook FloatingP) (id : String)
    (order : Resting Side FloatingP) :
    (book.afterMessage (.opened id order)).orders.Perm (book.orders ++ [(id, order)]) := by
  obtain ⟨side, price, size⟩ := order
  cases side with
  | buy =>
    show ((book.bids ++ [_]).map (Order.resting .buy) ++ _).Perm _
    rw [List.map_append, List.append_assoc, OrderBook.orders, List.append_assoc]
    exact List.perm_append_comm.append_left _
  | sell =>
    show (_ ++ (book.asks ++ [_]).map (Order.resting .sell)).Perm _
    rw [List.map_append, ← List.append_assoc]
    exact List.Perm.refl _

/-- The messages close no order and leave every order, once all of them are counted,
at the size it was listed with. -/
def Undisturbed (snapshot : OrderBook FloatingP)
    (msgs : List (Message String Side FloatingP)) : Prop :=
  (∀ id side, .closed id side ∉ msgs) ∧
    ∀ id o, (id, o) ∈ listed snapshot.orders msgs → remaining id msgs o.size = o.size

/-- A book with everything that was ever listed is the ledger's when nothing of it was
closed or resized. -/
theorem replicates_listed {book snapshot : OrderBook FloatingP}
    {msgs : List (Message String Side FloatingP)} {l : Ledger String Side FloatingP}
    (hl : Recorded snapshot.orders msgs l)
    (hbook : book.orders.Perm (listed snapshot.orders msgs)) :
    Replicates book l ↔ Undisturbed snapshot msgs := by
  rw [replicates_iff_orders]
  constructor
  · rintro ⟨-, hrest⟩
    refine ⟨fun id side hclosed => ?_, fun id o hmem => ?_⟩
    · -- a closed order was listed, so it is in the book, and it does not rest
      obtain ⟨⟨id', o⟩, hmem, rfl⟩ := List.mem_map.mp (hl.subject _ hclosed)
      have ho := (hrest id' o).mp (hbook.mem_iff.mpr hmem)
      obtain ⟨-, -, hnc, -⟩ := (hl.resting id' o).mp ho
      exact hnc side hclosed
    · have ho := (hrest id o).mp (hbook.mem_iff.mpr hmem)
      obtain ⟨o₀, hmem₀, -, heq⟩ := (hl.resting id o).mp ho
      obtain rfl := hl.unique hmem hmem₀
      exact (congrArg Resting.size heq).symm
  · rintro ⟨hopen, hsize⟩
    refine ⟨(hbook.map Prod.fst).nodup_iff.mpr hl.nodup, fun id o => ?_⟩
    rw [hbook.mem_iff, hl.resting]
    constructor
    · intro hmem
      refine ⟨o, hmem, hopen id, ?_⟩
      rw [hsize id o hmem, Resting.withSize_self]
    · rintro ⟨o₀, hmem, -, rfl⟩
      rw [hsize id o₀ hmem, Resting.withSize_self]
      exact hmem

variable [LE FloatingP]

/-- A legal message that opens no order leaves the book as it is. -/
theorem afterMessage_other {book : OrderBook FloatingP}
    {orders : List (String × Resting Side FloatingP)}
    {msgs : List (Message String Side FloatingP)} {m : Message String Side FloatingP}
    {l : Ledger String Side FloatingP} (hl : Recorded orders msgs l) (hm : Legal l m)
    (hbook : book.orders.Perm (listed orders msgs)) (hopen : ∀ id o, m ≠ .opened id o) :
    book.afterMessage m = book := by
  have hnodup : (book.orders.map Prod.fst).Nodup :=
    (hbook.map Prod.fst).nodup_iff.mpr hl.nodup
  -- the order a message is about is found on its own side, not on the opposite one
  have hopp : ∀ id o, l.resting id = some o →
      id ∉ (book.side o.side.opposite).map Order.orderId := by
    intro id o ho
    obtain ⟨o₀, hmem, -, rfl⟩ := (hl.resting id o).mp ho
    have hside := notMem_opposite hnodup (hbook.mem_iff.mpr hmem)
    exact hside
  cases m with
  | opened id order => exact absurd rfl (hopen id order)
  | changed id side size =>
    obtain ⟨o, ho, rfl⟩ := hm
    exact updateOrder_opposite size (hopp id o ho)
  | closed id side =>
    obtain ⟨o, ho, rfl⟩ := hm
    exact removeOrder_opposite (hopp id o ho)
  | matched maker taker side size =>
    obtain ⟨o, ho, rfl, -, -⟩ := hm
    exact matchOrders_opposite taker size (hopp maker o ho)

theorem onlyGrows_step {book : OrderBook FloatingP}
    {orders : List (String × Resting Side FloatingP)}
    {msgs : List (Message String Side FloatingP)} {m : Message String Side FloatingP}
    {l : Ledger String Side FloatingP} (hl : Recorded orders msgs l) (hm : Legal l m)
    (hbook : book.orders.Perm (listed orders msgs)) :
    (book.afterMessage m).orders.Perm (listed orders (msgs ++ [m])) := by
  by_cases hopen : ∃ id o, m = .opened id o
  · obtain ⟨id, o, rfl⟩ := hopen
    rw [listed_concat_opened]
    exact (orders_addOrder book id o).trans (hbook.append_right _)
  · have hopen' : ∀ id o, m ≠ .opened id o := fun id o h => hopen ⟨id, o, h⟩
    rw [afterMessage_other hl hm hbook hopen', listed_concat_other orders msgs hopen']
    exact hbook

/-- After any well-formed list, the book has every order ever listed, at the size it
was listed with. -/
theorem onlyGrows {snapshot : OrderBook FloatingP}
    {msgs : List (Message String Side FloatingP)}
    (hnodup : (snapshot.orders.map Prod.fst).Nodup)
    (hwf : WellFormed (Ledger.ofList snapshot.orders) msgs) :
    (msgs.foldl OrderBook.afterMessage snapshot).orders.Perm
      (listed snapshot.orders msgs) := by
  have hboth : Recorded snapshot.orders msgs ((Ledger.ofList snapshot.orders).after msgs) ∧
      (msgs.foldl OrderBook.afterMessage snapshot).orders.Perm
        (listed snapshot.orders msgs) := by
    refine (exchange String Side FloatingP).history_rule
      (I := fun msgs l => Recorded snapshot.orders msgs l ∧
        (msgs.foldl OrderBook.afterMessage snapshot).orders.Perm
          (listed snapshot.orders msgs)) ?_ ?_ hwf (exchange_run _ _)
    · refine ⟨recorded hnodup (Machine.guarded_nil _ _ _), ?_⟩
      show snapshot.orders.Perm (snapshot.orders ++ [])
      rw [List.append_nil]
    · rintro msgs l m l' - ⟨hl, hbook⟩ hm hstep
      obtain rfl : l.step m = l' := Option.some.inj hstep
      refine ⟨recorded_step hl hm, ?_⟩
      rw [List.foldl_append]
      exact onlyGrows_step hl hm hbook
  exact hboth.2

/-- **When the replica is the exchange's book.** For every full order book with
distinct ids and every well-formed list of messages after it, `getProductChange`
builds a change for each, and the book these changes build is the exchange's exactly
when the messages close nothing and leave every size as it was. -/
theorem replicates_iff {productId : String} {jmsg : Json} {snapshot : OrderBook FloatingP}
    {jmsgs : List Json} {msgs : List (Message String Side FloatingP)}
    (hr : Lists jmsg snapshot)
    (hdistinct : ((snapshot.bids ++ snapshot.asks).map Order.orderId).Nodup)
    (hmsgs : List.Forall₂ Carries jmsgs msgs)
    (hwf : WellFormed (Ledger.ofList snapshot.orders) msgs) :
    ∃ pcs, changesOf productId (jmsg :: jmsgs) = .ok pcs ∧
      ∀ book : OrderBook FloatingP,
        (Replicates (book.replay pcs) ((Ledger.ofList snapshot.orders).after msgs) ↔
          Undisturbed snapshot msgs) := by
  obtain ⟨pcs, hpcs, hbooks⟩ := changesOf_feed productId hr hmsgs
  refine ⟨pcs, hpcs, fun book => ?_⟩
  rw [← OrderBook.ids_orders] at hdistinct
  rw [hbooks]
  exact replicates_listed (recorded hdistinct hwf) (onlyGrows hdistinct hwf)

/-- An `open` message. -/
def openMsg (side orderId price size : String) (seq : UInt64) : Json :=
  .object [("type", .string "open"), ("product_id", .string "ETH-USD"),
    ("order_id", .string orderId), ("price", .string price),
    ("remaining_size", .string size), ("sequence", .unsigned seq), ("side", .string side)]

/-- A book of one bid. -/
def oneBid : OrderBook Int := { bids := [⟨100, 5, "A"⟩] }

/-- A bid in the full order book and an ask opened after it. -/
theorem replicates_iff_opened :
    ∃ pcs, changesOf "ETH-USD"
        [bookMsg 1 [("100", "5", "A")] [], openMsg "sell" "B" "101" "7" 2] = .ok pcs ∧
      ∀ book : OrderBook Int,
        (Replicates (book.replay pcs)
          ((Ledger.ofList oneBid.orders).after [.opened "B" ⟨.sell, 101, 7⟩]) ↔
          Undisturbed oneBid [.opened "B" ⟨.sell, 101, 7⟩]) := by
  refine replicates_iff ⟨rfl, rfl, rfl, rfl, 1, rfl⟩ (by decide) ?_ ?_
  · refine .cons (.opened ⟨rfl, rfl, rfl, 2, rfl⟩ rfl rfl rfl) .nil
  · exact Machine.guarded_cons _ (show "B" ∉ ["A"] by decide) rfl
      (Machine.guarded_nil _ _ _)

/-- A bid that is done stays in the book. -/
theorem done_order_stays :
    ∃ (jmsg : Json) (snapshot : OrderBook Int) (jmsgs : List Json)
      (msgs : List (Message String Side Int)) (pcs : List (ProductChange Int)),
      Lists jmsg snapshot ∧
      ((snapshot.bids ++ snapshot.asks).map Order.orderId).Nodup ∧
      List.Forall₂ Carries jmsgs msgs ∧
      WellFormed (Ledger.ofList snapshot.orders) msgs ∧
      changesOf "ETH-USD" (jmsg :: jmsgs) = .ok pcs ∧
      ¬ Replicates (OrderBook.replay {} pcs) ((Ledger.ofList snapshot.orders).after msgs) := by
  refine ⟨bookMsg 1 [("100", "5", "A")] [], oneBid, [doneMsg "buy" "A" 2],
    [.closed "A" .buy], _, ⟨rfl, rfl, rfl, rfl, 1, rfl⟩, by decide,
    .cons (.closed ⟨rfl, rfl, rfl, 2, rfl⟩ rfl) .nil, ?_, rfl, fun h => ?_⟩
  · exact Machine.guarded_cons _ ⟨_, rfl, rfl⟩ rfl (Machine.guarded_nil _ _ _)
  · have hstays := (h.bids ⟨100, 5, "A"⟩).mp (List.mem_singleton.mpr rfl)
    cases hstays

end QuoteServer
