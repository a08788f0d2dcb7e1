import QuoteServer.Lib.KeyedEdit
import QuoteServer.Lib.Machine
import QuoteServer.Product.Reordering

/-!
# Order ids stay unique, and changes touch only the orders they name

The book checks no id: it appends what it is told to append, and finds by first match.
If the two lists of a snapshot have distinct ids, and no order is opened with an id that
its list has at that time, the ids stay distinct (`UniqueIds`), so every match is the
only one. What a change does to each list is at most one edit at an id it names
(`Effect`), and so it leaves all other orders where and as they are.

The messages that a reset merges are replayed like any others, so the condition is one
on the list of the merged messages and those after the reset.
-/

namespace QuoteServer

open EventMachine KeyedEdit

variable {FloatingP : Type}

namespace OrderBook

/-- The ids are distinct within the bids and within the asks. -/
def UniqueIds (book : OrderBook FloatingP) : Prop :=
  ∀ s, ((book.side s).map Order.orderId).Nodup

end OrderBook

/-- The same order with another size. -/
def Resized (o o' : Order FloatingP) : Prop := ∃ size, o' = { o with size := size }

theorem Resized.refl (o : Order FloatingP) : Resized o o := ⟨o.size, rfl⟩

theorem Resized.price_eq {o o' : Order FloatingP} (h : Resized o o') : o'.price = o.price := by
  obtain ⟨size, rfl⟩ := h
  rfl

/-- At most one order of the list is deleted, and one with this id. -/
def Deleted (orderId : String) (orders orders' : List (Order FloatingP)) : Prop :=
  Removal Order.orderId orderId orders orders'

/-- At most one order of the list has its size altered, and one with this id. -/
def Altered (orderId : String) (orders orders' : List (Order FloatingP)) : Prop :=
  Replacement Order.orderId Resized orderId orders orders'

theorem deleted_eraseId (orderId : String) (orders : List (Order FloatingP)) :
    Deleted orderId orders (orders.eraseP (Order.hasId orderId)) :=
  removal_eraseP (fun _ h => Order.hasId_iff.mp h) orders

theorem altered_resizeFirst (orderId : String) (f : FloatingP → FloatingP)
    (orders : List (Order FloatingP)) : Altered orderId orders (resizeFirst orderId f orders) := by
  refine replacement_replaceF (fun o o' h => ?_) orders
  by_cases hid : o.hasId orderId = true
  · rw [if_pos hid] at h
    cases h
    exact ⟨Order.hasId_iff.mp hid, Order.hasId_iff.mp hid, f o.size, rfl⟩
  · rw [if_neg hid] at h
    cases h

namespace ProductChange

/-- What a change of each kind does to the two lists. `done` and `change` search the
list opposite to their side, and so does `match` for the maker. -/
def Effect (pc : ProductChange FloatingP) (book book' : OrderBook FloatingP) : Prop :=
  match pc with
  | .resetOrderBook _ _ _ _ _ => False
  | .orderOpen orderId price remainingSize side _ _ =>
    book'.side side = book.side side ++ [⟨price, remainingSize, orderId⟩] ∧
      book'.side side.opposite = book.side side.opposite
  | .orderChange orderId _ _ side _ _ =>
    Altered orderId (book.side side.opposite) (book'.side side.opposite) ∧
      book'.side side = book.side side
  | .orderDone orderId side _ _ =>
    Deleted orderId (book.side side.opposite) (book'.side side.opposite) ∧
      book'.side side = book.side side
  | .orderMatch makerOrderId takerOrderId _ _ side _ _ =>
    Altered makerOrderId (book.side side.opposite) (book'.side side.opposite) ∧
      Altered takerOrderId (book.side side) (book'.side side)

/-- A change that may be applied to a book with unique ids: no reset, and an `open` only
for an id that its list does not have. -/
def Fresh (book : OrderBook FloatingP) : ProductChange FloatingP → Prop
  | .resetOrderBook _ _ _ _ _ => False
  | .orderOpen orderId _ _ side _ _ => orderId ∉ (book.side side).map Order.orderId
  | .orderChange _ _ _ _ _ _ => True
  | .orderDone _ _ _ _ => True
  | .orderMatch _ _ _ _ _ _ _ => True

end ProductChange

/-- What is said of a list and of the opposite one is said of both. -/
theorem Side.forall_of_opposite {P : Side → Prop} (s : Side) (h : P s) (ho : P s.opposite) :
    ∀ t, P t := by
  intro t
  cases s <;> cases t
  all_goals first | exact h | exact ho

variable [Sub FloatingP]

/-! ## One change -/

/-- A match, early return or not, alters at most the maker in one list and the taker in
the other. -/
theorem effect_matchOrders (book : OrderBook FloatingP) (makerOrderId takerOrderId : String)
    (size : FloatingP) (side : Side) :
    Altered makerOrderId (book.side side.opposite)
        ((book.matchOrders makerOrderId takerOrderId size side).side side.opposite) ∧
      Altered takerOrderId (book.side side)
        ((book.matchOrders makerOrderId takerOrderId size side).side side) := by
  unfold OrderBook.matchOrders
  cases side with
  | sell =>
    by_cases hmaker : book.bids.any (Order.hasId makerOrderId) = true
    · dsimp only
      rw [if_pos hmaker]
      exact ⟨altered_resizeFirst makerOrderId (· - size) _,
        altered_resizeFirst takerOrderId (· - size) _⟩
    · dsimp only
      rw [if_neg hmaker]
      exact ⟨.none _, .none _⟩
  | buy =>
    by_cases hmaker : book.asks.any (Order.hasId makerOrderId) = true
    · dsimp only
      rw [if_pos hmaker]
      exact ⟨altered_resizeFirst makerOrderId (· - size) _,
        altered_resizeFirst takerOrderId (· - size) _⟩
    · dsimp only
      rw [if_neg hmaker]
      exact ⟨.none _, .none _⟩

theorem effect_applyChange {book : OrderBook FloatingP} {pc : ProductChange FloatingP}
    (h : pc.Fresh book) : pc.Effect book (book.applyChange pc) := by
  unfold OrderBook.applyChange
  cases pc with
  | resetOrderBook bids asks toMerge productId sequenceNumber => exact h.elim
  | orderOpen orderId price remainingSize side productId sequenceNumber =>
    rw [ProductChange.updateOrderBook]
    cases side <;> exact ⟨rfl, rfl⟩
  | orderChange orderId price remainingSize side productId sequenceNumber =>
    rw [ProductChange.updateOrderBook]
    cases side <;> exact ⟨altered_resizeFirst orderId (fun _ => remainingSize) _, rfl⟩
  | orderDone orderId side productId sequenceNumber =>
    rw [ProductChange.updateOrderBook]
    cases side <;> exact ⟨deleted_eraseId orderId _, rfl⟩
  | orderMatch makerOrderId takerOrderId price size side productId sequenceNumber =>
    rw [ProductChange.updateOrderBook]
    exact effect_matchOrders book makerOrderId takerOrderId size side

omit [Sub FloatingP] in
/-- Each kind of edit keeps the ids of both lists distinct. -/
theorem ProductChange.Effect.uniqueIds {book book' : OrderBook FloatingP}
    {pc : ProductChange FloatingP} (h : pc.Effect book book') (hfresh : pc.Fresh book)
    (hbook : book.UniqueIds) : book'.UniqueIds := by
  have hkeep : ∀ {s}, book'.side s = book.side s → ((book'.side s).map Order.orderId).Nodup := by
    intro s heq
    rw [heq]
    exact hbook s
  cases pc with
  | resetOrderBook bids asks toMerge productId sequenceNumber => exact h.elim
  | orderOpen orderId price remainingSize side productId sequenceNumber =>
    refine side.forall_of_opposite ?_ (hkeep h.2)
    rw [h.1]
    exact nodup_concat (hbook side) hfresh
  | orderChange orderId price remainingSize side productId sequenceNumber =>
    exact side.forall_of_opposite (hkeep h.2) (h.1.nodup (hbook _))
  | orderDone orderId side productId sequenceNumber =>
    exact side.forall_of_opposite (hkeep h.2) (h.1.nodup (hbook _))
  | orderMatch makerOrderId takerOrderId price size side productId sequenceNumber =>
    exact side.forall_of_opposite (h.2.nodup (hbook _)) (h.1.nodup (hbook _))

omit [Sub FloatingP] in
/-- No change gives an order another price. -/
theorem ProductChange.Effect.price_eq {book book' : OrderBook FloatingP}
    {pc : ProductChange FloatingP} (h : pc.Effect book book') (hfresh : pc.Fresh book)
    (hbook : book.UniqueIds) :
    ∀ s, ∀ o ∈ book.side s, ∀ o' ∈ book'.side s, o'.orderId = o.orderId → o'.price = o.price := by
  have hkeep : ∀ {s}, book'.side s = book.side s →
      ∀ o ∈ book.side s, ∀ o' ∈ book'.side s, o'.orderId = o.orderId → o'.price = o.price := by
    intro s heq o ho o' ho' hid
    rw [heq] at ho'
    rw [List.inj_on_of_nodup_map (hbook s) ho' ho hid]
  have haltered : ∀ {s id}, Altered id (book.side s) (book'.side s) →
      ∀ o ∈ book.side s, ∀ o' ∈ book'.side s, o'.orderId = o.orderId → o'.price = o.price :=
    fun hs o ho o' ho' hid => (hs.related Resized.refl (hbook _) ho ho' hid).price_eq
  cases pc with
  | resetOrderBook bids asks toMerge productId sequenceNumber => exact h.elim
  | orderOpen orderId price remainingSize side productId sequenceNumber =>
    refine side.forall_of_opposite ?_ (hkeep h.2)
    intro o ho o' ho' hid
    rw [h.1, List.mem_append, List.mem_singleton] at ho'
    rcases ho' with ho' | rfl
    · rw [List.inj_on_of_nodup_map (hbook side) ho' ho hid]
    · -- the new order has an id of its own
      exact absurd (List.mem_map.mpr ⟨o, ho, hid.symm⟩) hfresh
  | orderChange orderId price remainingSize side productId sequenceNumber =>
    exact side.forall_of_opposite (hkeep h.2) (haltered h.1)
  | orderDone orderId side productId sequenceNumber =>
    refine side.forall_of_opposite (hkeep h.2) ?_
    intro o ho o' ho' hid
    rw [h.1.same (hbook _) ho ho' hid]
  | orderMatch makerOrderId takerOrderId price size side productId sequenceNumber =>
    exact side.forall_of_opposite (haltered h.2) (haltered h.1)

omit [Sub FloatingP] in
/-- The orders with other ids: whatever ids are picked among those the change does not
name, the orders with these ids are the same on each side, in the same order. -/
theorem ProductChange.Effect.others_eq {book book' : OrderBook FloatingP}
    {pc : ProductChange FloatingP} (h : pc.Effect book book') {picked : String → Bool}
    (hpicked : ∀ id ∈ pc.orderIds, picked id = false) (s : Side) :
    (book'.side s).filter (fun o => picked o.orderId) =
      (book.side s).filter (fun o => picked o.orderId) := by
  have hp : ∀ {id}, id ∈ pc.orderIds → ∀ o : Order FloatingP, o.orderId = id →
      picked o.orderId = false := fun hid o ho => hpicked _ (ho ▸ hid)
  have hkeep : ∀ {s}, book'.side s = book.side s →
      (book'.side s).filter (fun o => picked o.orderId) =
        (book.side s).filter (fun o => picked o.orderId) := fun heq => by rw [heq]
  revert s
  cases pc with
  | resetOrderBook bids asks toMerge productId sequenceNumber => exact h.elim
  | orderOpen orderId price remainingSize side productId sequenceNumber =>
    refine side.forall_of_opposite ?_ (hkeep h.2)
    rw [h.1]
    exact filter_concat_eq _ rfl (hp rfl)
  | orderChange orderId price remainingSize side productId sequenceNumber =>
    exact side.forall_of_opposite (hkeep h.2) (h.1.filter_eq (hp rfl))
  | orderDone orderId side productId sequenceNumber =>
    exact side.forall_of_opposite (hkeep h.2) (h.1.filter_eq (hp rfl))
  | orderMatch makerOrderId takerOrderId price size side productId sequenceNumber =>
    exact side.forall_of_opposite (h.2.filter_eq (hp (.inr rfl))) (h.1.filter_eq (hp (.inl rfl)))

/-- A change that touches only what it names, in a book that keeps its ids distinct. -/
structure TouchesOnlyNamed (pc : ProductChange FloatingP) (book book' : OrderBook FloatingP) :
    Prop where
  unique : book'.UniqueIds
  effect : pc.Effect book book'
  prices : ∀ s, ∀ o ∈ book.side s, ∀ o' ∈ book'.side s, o'.orderId = o.orderId →
    o'.price = o.price
  others : ∀ picked : String → Bool, (∀ id ∈ pc.orderIds, picked id = false) → ∀ s,
    (book'.side s).filter (fun o => picked o.orderId) =
      (book.side s).filter (fun o => picked o.orderId)

theorem touchesOnlyNamed_of_fresh {book : OrderBook FloatingP} {pc : ProductChange FloatingP}
    (hbook : book.UniqueIds) (hfresh : pc.Fresh book) :
    TouchesOnlyNamed pc book (book.applyChange pc) :=
  have heffect := effect_applyChange hfresh
  { unique := heffect.uniqueIds hfresh hbook
    effect := heffect
    prices := heffect.price_eq hfresh hbook
    others := fun _ hpicked => heffect.others_eq hpicked }

/-! ## Lists of changes -/

/-- A book that takes changes one by one. -/
def bookMachine (FloatingP : Type) [Sub FloatingP] :
    Machine (OrderBook FloatingP) (ProductChange FloatingP) where
  step book pc := some (book.applyChange pc)

/-- No change of the list is a reset, and each `open` uses an id that its list does not
have at that time. -/
def FreshOpens (book : OrderBook FloatingP) (pcs : List (ProductChange FloatingP)) : Prop :=
  (bookMachine FloatingP).Guarded (fun book pc => pc.Fresh book) book pcs

/-- A run of the book is the replay of the changes. -/
theorem bookMachine_run (book : OrderBook FloatingP) (pcs : List (ProductChange FloatingP)) :
    (bookMachine FloatingP).run book pcs = some (book.replay pcs) := by
  induction pcs generalizing book with
  | nil => rfl
  | cons pc pcs ih => exact ih (book.applyChange pc)

theorem uniqueIds_replay {book : OrderBook FloatingP} {pcs : List (ProductChange FloatingP)}
    (hbook : book.UniqueIds) (hfresh : FreshOpens book pcs) : (book.replay pcs).UniqueIds := by
  refine Machine.invariant_rule _ hbook ?_ hfresh (bookMachine_run book pcs)
  intro book pc book' hinv hpc hstep
  cases hstep
  exact (touchesOnlyNamed_of_fresh hinv hpc).unique

/-- **Ids stay unique.** After a snapshot with distinct ids on each side, with messages to
merge and changes after it none of which opens an id that its list has at that time, the
ids are distinct at every moment and each change touches only the orders it names. What a
product's book is after the reset and some of the changes is one of these books. -/
theorem ids_stay_unique {bids asks : List (Order FloatingP)}
    {toMerge pcs : List (ProductChange FloatingP)}
    (hbids : (bids.map Order.orderId).Nodup) (hasks : (asks.map Order.orderId).Nodup)
    (hfresh : FreshOpens { bids := bids, asks := asks } (toMerge ++ pcs)) :
    (∀ pre post, toMerge ++ pcs = pre ++ post →
      (OrderBook.replay { bids := bids, asks := asks } pre).UniqueIds) ∧
    (∀ pre pc post, toMerge ++ pcs = pre ++ pc :: post →
      TouchesOnlyNamed pc (OrderBook.replay { bids := bids, asks := asks } pre)
        (OrderBook.replay { bids := bids, asks := asks } (pre ++ [pc]))) ∧
    ∀ (book : OrderBook FloatingP) (productId : String) (sequenceNumber : Nat)
      (pre : List (ProductChange FloatingP)),
      book.replay (.resetOrderBook bids asks toMerge productId sequenceNumber :: pre) =
        OrderBook.replay { bids := bids, asks := asks } (toMerge ++ pre) := by
  have hsnapshot : (OrderBook.mk bids asks).UniqueIds := by
    intro s
    cases s
    · exact hasks
    · exact hbids
  have hunique : ∀ pre post, toMerge ++ pcs = pre ++ post →
      (OrderBook.replay { bids := bids, asks := asks } pre).UniqueIds := by
    intro pre post hsplit
    refine uniqueIds_replay hsnapshot fun before pc after book hpre hrun => ?_
    refine hfresh before pc (after ++ post) book ?_ hrun
    rw [hsplit, hpre, List.append_assoc]
    rfl
  refine ⟨hunique, fun pre pc post hsplit => ?_, fun book productId sequenceNumber pre => ?_⟩
  · rw [OrderBook.replay_append]
    exact touchesOnlyNamed_of_fresh (hunique pre (pc :: post) hsplit)
      (hfresh pre pc post _ hsplit (bookMachine_run _ pre))
  · rw [OrderBook.replay_cons, OrderBook.applyChange_reset, OrderBook.replay_append]

/-- An order of the snapshot is done while it is merged, and its id is opened again. -/
theorem ids_stay_unique_reopened :
    let snapshot : OrderBook Int :=
      { bids := [⟨10, 1, "a"⟩], asks := [⟨12, 1, "b"⟩, ⟨13, 2, "c"⟩] }
    let changes : List (ProductChange Int) :=
      [.orderDone "b" .buy "ETH-USD" 5, .orderOpen "b" 14 3 .sell "ETH-USD" 6,
        .orderMatch "b" "a" 14 1 .buy "ETH-USD" 7]
    (snapshot.replay changes).UniqueIds := by
  intro snapshot changes
  have hfresh : FreshOpens snapshot (changes ++ []) := by
    refine Machine.guarded_cons _ trivial rfl ?_
    refine Machine.guarded_cons _ (show "b" ∉ ["c"] by decide) rfl ?_
    exact Machine.guarded_cons _ trivial rfl (Machine.guarded_nil _ _ _)
  exact (ids_stay_unique (by decide) (by decide) hfresh).1 changes [] rfl

end QuoteServer
