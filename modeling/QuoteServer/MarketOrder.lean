import QuoteServer.MarketSteps

/-!
# Changes are applied in the order of delivery when their order does not matter

`marketMachine` runs the market under any interleaving of its three sides. The pending
changes of a product reach its book through the visit of a multimap, which may reorder
them. So the book is the replay of the changes in the order of their delivery as long as
no drain finds changes of the product whose order matters to its book
(`book_in_delivery_order`), and where it does matter there is a visit that leaves
another book (`delivery_order_iff`).
-/

namespace QuoteServer

open EventMachine KeyedBatch

variable {FloatingP : Type}

/-- The market, and the local `currentChanges` of its thread. -/
structure MarketState (FloatingP : Type) where
  market : Market FloatingP := {}
  currentChanges : List (ProductChange FloatingP) := []

/-- One critical section each. -/
inductive MarketEvent (FloatingP : Type) where
  | subscribeProduct (clientId prodId : String)
  | subscribeTrades (prodId : String)
  | unsubscribe (clientId prodId : String)
  | onProductChange (pc : ProductChange FloatingP)
  | onTrade (trade : Trade FloatingP)
  /-- The market thread takes the pending changes. -/
  | takeChanges
  /-- The market thread visits the changes it took, in the order of the picks. -/
  | processChanges (picks : List Nat)

variable [Sub FloatingP]

def MarketState.step (provider : EndpointProvider) (s : MarketState FloatingP) :
    MarketEvent FloatingP → Option (MarketState FloatingP)
  | .subscribeProduct clientId prodId =>
    (s.market.subscribeProduct provider clientId prodId).toOption.map fun m =>
      { s with market := m }
  | .subscribeTrades prodId =>
    (s.market.subscribeTrades provider prodId).toOption.map fun m => { s with market := m }
  | .unsubscribe clientId prodId =>
    (s.market.unsubscribe clientId prodId).toOption.map fun m => { s with market := m }
  | .onProductChange pc => some { s with market := s.market.onProductChange pc }
  | .onTrade trade => some { s with market := s.market.onTrade trade }
  | .takeChanges =>
    if s.currentChanges.isEmpty then
      some { market := s.market.takeChanges.1, currentChanges := s.market.takeChanges.2 }
    else none
  | .processChanges picks =>
    match visit picks s.currentChanges with
    | some it =>
      if isGrouped ProductChange.getProductId it then
        some { market := s.market.processChanges it, currentChanges := [] }
      else none
    | none => none

def marketMachine (provider : EndpointProvider) :
    Machine (MarketState FloatingP) (MarketEvent FloatingP) where
  step := MarketState.step provider

/-- The changes delivered in a run, in order. -/
def delivered (es : List (MarketEvent FloatingP)) : List (ProductChange FloatingP) :=
  es.filterMap fun
    | .onProductChange pc => some pc
    | _ => none

omit [Sub FloatingP] in
theorem delivered_append (es fs : List (MarketEvent FloatingP)) :
    delivered (es ++ fs) = delivered es ++ delivered fs := List.filterMap_append

/-- The changes of a product that were delivered and not yet drained, in order of
delivery. -/
def MarketState.waiting (p : String) (s : MarketState FloatingP) :
    List (ProductChange FloatingP) :=
  changesFor p (s.currentChanges ++ s.market.productChanges)

omit [Sub FloatingP] in
/-- What waits depends on the changes taken and pending only. -/
theorem MarketState.waiting_congr (p : String) {s s' : MarketState FloatingP}
    (hcurrent : s'.currentChanges = s.currentChanges)
    (hpending : s'.market.productChanges = s.market.productChanges) :
    s'.waiting p = s.waiting p := by
  rw [waiting, waiting, hcurrent, hpending]

/-- The books after each of some batches of changes. -/
def booksAfter (book : OrderBook FloatingP) :
    List (List (ProductChange FloatingP)) → List (OrderBook FloatingP)
  | [] => []
  | batch :: batches => book.replay batch :: booksAfter (book.replay batch) batches

theorem booksAfter_concat (book : OrderBook FloatingP)
    (batches : List (List (ProductChange FloatingP))) (batch : List (ProductChange FloatingP)) :
    booksAfter book (batches ++ [batch]) =
      booksAfter book batches ++ [book.replay (batches ++ [batch]).flatten] := by
  induction batches generalizing book with
  | nil =>
    show [book.replay batch] = [book.replay (batch ++ [])]
    rw [List.append_nil]
  | cons first batches ih =>
    show book.replay first :: booksAfter (book.replay first) (batches ++ [batch]) =
      book.replay first :: (booksAfter (book.replay first) batches ++
        [book.replay (first ++ (batches ++ [batch]).flatten)])
    rw [ih, OrderBook.replay_append]

/-- What became of a product since it was `product₀` with the changes `waiting₀` waiting
and the changes `arrived` delivered: the changes drained so far, batch by batch, are the
first of these, its book is their replay, and after each batch that book was published. -/
structure InDeliveryOrder (p : String) (product₀ : Product FloatingP)
    (waiting₀ arrived : List (ProductChange FloatingP)) (s : MarketState FloatingP)
    (product : Product FloatingP) (batches : List (List (ProductChange FloatingP))) :
    Prop where
  product_eq : s.market.products p = some product
  drained : batches.flatten ++ s.waiting p = waiting₀ ++ changesFor p arrived
  nonempty : ∀ batch ∈ batches, batch ≠ []
  book : product.orderBook = product₀.orderBook.replay batches.flatten
  published : product.publisher.published =
    product₀.publisher.published ++ booksAfter product₀.orderBook batches

/-- The condition on a step: a visit finds no changes of the product whose order matters
to its book. -/
def OrderDoesNotMatter (p : String) (s : MarketState FloatingP)
    (e : MarketEvent FloatingP) : Prop :=
  ∀ picks product, e = .processChanges picks → s.market.products p = some product →
    OrderInsensitive OrderBook.applyChange product.orderBook (changesFor p s.currentChanges)

/-- A visit leaves the book that the order of delivery would. -/
def KeepsOrder (p : String) (s : MarketState FloatingP) (e : MarketEvent FloatingP) : Prop :=
  ∀ picks it product, e = .processChanges picks → visit picks s.currentChanges = some it →
    s.market.products p = some product →
      product.orderBook.replay (changesFor p it) =
        product.orderBook.replay (changesFor p s.currentChanges)

theorem OrderDoesNotMatter.keepsOrder {p : String} {s : MarketState FloatingP}
    {e : MarketEvent FloatingP} (h : OrderDoesNotMatter p s e) : KeepsOrder p s e :=
  fun picks it product he hv hp =>
    h picks product he hp (changesFor p it) (forKey_perm (visit_perm hv))

/-- The product is in `m_products` in every state of the run. -/
def StaysIn {ε : Type} (M : Machine (MarketState FloatingP) ε) (p : String)
    (s₀ : MarketState FloatingP) (es : List ε) : Prop :=
  M.Always (fun s => (s.market.products p).isSome = true) s₀ es

/-! ## One step -/

theorem step_takeChanges {provider : EndpointProvider} {s s' : MarketState FloatingP}
    (h : s.step provider .takeChanges = some s') :
    s.currentChanges = [] ∧
      s' = { market := { s.market with productChanges := [] }
             currentChanges := s.market.productChanges } := by
  unfold MarketState.step at h
  dsimp only at h
  by_cases hempty : s.currentChanges.isEmpty = true
  · rw [if_pos hempty] at h
    exact ⟨List.isEmpty_iff.mp hempty, (Option.some.inj h).symm⟩
  · rw [if_neg hempty] at h
    cases h

theorem step_processChanges {provider : EndpointProvider} {s s' : MarketState FloatingP}
    {picks : List Nat} (h : s.step provider (.processChanges picks) = some s') :
    ∃ it, visit picks s.currentChanges = some it ∧
      Visits ProductChange.getProductId s.currentChanges it ∧
      s' = { market := s.market.processChanges it, currentChanges := [] } := by
  unfold MarketState.step at h
  dsimp only at h
  cases hv : visit picks s.currentChanges with
  | none =>
    rw [hv] at h
    cases h
  | some it =>
    rw [hv] at h
    dsimp only at h
    by_cases hg : isGrouped ProductChange.getProductId it = true
    · rw [if_pos hg] at h
      exact ⟨it, rfl, visits_of_visit hv hg, (Option.some.inj h).symm⟩
    · rw [if_neg hg] at h
      cases h

/-- A step that leaves the book, the publisher and the waiting changes of the product. -/
theorem InDeliveryOrder.untouched {p : String} {product₀ product product' : Product FloatingP}
    {waiting₀ arrived : List (ProductChange FloatingP)} {s s' : MarketState FloatingP}
    {batches : List (List (ProductChange FloatingP))}
    (h : InDeliveryOrder p product₀ waiting₀ arrived s product batches)
    (hp : s'.market.products p = some product') (hbook : product'.orderBook = product.orderBook)
    (hpub : product'.publisher = product.publisher) (hwait : s'.waiting p = s.waiting p) :
    InDeliveryOrder p product₀ waiting₀ arrived s' product' batches where
  product_eq := hp
  drained := by
    rw [hwait]
    exact h.drained
  nonempty := h.nonempty
  book := hbook.trans h.book
  published := by
    rw [hpub]
    exact h.published

/-- Changes are delivered: they wait behind the others. -/
theorem InDeliveryOrder.deliver {p : String} {product₀ product : Product FloatingP}
    {waiting₀ arrived pcs : List (ProductChange FloatingP)} {s s' : MarketState FloatingP}
    {batches : List (List (ProductChange FloatingP))}
    (h : InDeliveryOrder p product₀ waiting₀ arrived s product batches)
    (hp : s'.market.products p = s.market.products p)
    (hcurrent : s'.currentChanges = s.currentChanges)
    (hpending : s'.market.productChanges = s.market.productChanges ++ pcs) :
    InDeliveryOrder p product₀ waiting₀ (arrived ++ pcs) s' product batches where
  product_eq := hp.trans h.product_eq
  drained := by
    have hwait : s'.waiting p = s.waiting p ++ changesFor p pcs := by
      rw [MarketState.waiting, MarketState.waiting, hcurrent, hpending, ← changesFor_append,
        List.append_assoc]
    rw [hwait, changesFor_append, ← List.append_assoc, h.drained, List.append_assoc]
  nonempty := h.nonempty
  book := h.book
  published := h.published

/-- A visit hands the product its waiting changes. -/
theorem inDeliveryOrder_processChanges {p : String} {product₀ product : Product FloatingP}
    {waiting₀ arrived it : List (ProductChange FloatingP)} {s : MarketState FloatingP}
    {batches : List (List (ProductChange FloatingP))}
    (h : InDeliveryOrder p product₀ waiting₀ arrived s product batches)
    (hit : Visits ProductChange.getProductId s.currentChanges it)
    (horder : product.orderBook.replay (changesFor p it) =
      product.orderBook.replay (changesFor p s.currentChanges)) :
    ∃ product' batches', InDeliveryOrder p product₀ waiting₀ arrived
      { market := s.market.processChanges it, currentChanges := [] } product' batches' := by
  have hproduct := Market.processChanges_product h.product_eq hit.grouped
  have hperm : (changesFor p it).Perm (changesFor p s.currentChanges) := forKey_perm hit.perm
  have hwaiting : s.waiting p =
      changesFor p s.currentChanges ++ changesFor p s.market.productChanges :=
    changesFor_append p _ _
  have hdrained := h.drained
  rw [hwaiting] at hdrained
  have hpending : MarketState.waiting p
      { market := s.market.processChanges it, currentChanges := [] } =
      changesFor p s.market.productChanges := by
    obtain ⟨products, heq, -⟩ := Market.processChanges_frame it s.market
    rw [heq]
    rfl
  by_cases hnil : changesFor p s.currentChanges = []
  · -- none of the product's changes in this batch
    rw [hnil, List.perm_nil] at hperm
    rw [hperm, Product.onProductChanges_nil] at hproduct
    refine ⟨product, batches, hproduct, ?_, h.nonempty, h.book, h.published⟩
    rw [hpending]
    rw [hnil] at hdrained
    exact hdrained
  · have hit_ne : changesFor p it ≠ [] := by
      intro hn
      rw [hn] at hperm
      exact hnil hperm.symm.eq_nil
    have hreplay : product.orderBook.replay (changesFor p it) =
        product₀.orderBook.replay (batches ++ [changesFor p s.currentChanges]).flatten := by
      rw [horder, h.book, List.flatten_append, OrderBook.replay_append, List.flatten_singleton]
    refine ⟨_, batches ++ [changesFor p s.currentChanges], hproduct, ?_, ?_, ?_, ?_⟩
    · rw [hpending, List.flatten_append, List.flatten_singleton, List.append_assoc]
      exact hdrained
    · intro batch hbatch
      rcases List.mem_append.mp hbatch with hbatch | hbatch
      · exact h.nonempty batch hbatch
      · rw [List.mem_singleton.mp hbatch]
        exact hnil
    · rw [Product.onProductChanges_of_ne_nil product hit_ne]
      exact hreplay
    · rw [Product.onProductChanges_of_ne_nil product hit_ne, booksAfter_concat]
      show product.publisher.published ++ [product.orderBook.replay (changesFor p it)] = _
      rw [h.published, hreplay, List.append_assoc]

omit [Sub FloatingP] in
/-- No event but a delivery delivers. -/
theorem delivered_other {e : MarketEvent FloatingP} (h : ∀ pc, e ≠ .onProductChange pc) :
    delivered [e] = [] := by
  cases e with
  | onProductChange pc => exact absurd rfl (h pc)
  | _ => rfl

theorem inDeliveryOrder_step {provider : EndpointProvider} {p : String}
    {product₀ product : Product FloatingP} {waiting₀ arrived : List (ProductChange FloatingP)}
    {e : MarketEvent FloatingP} {s s' : MarketState FloatingP}
    {batches : List (List (ProductChange FloatingP))}
    (h : InDeliveryOrder p product₀ waiting₀ arrived s product batches)
    (hg : KeepsOrder p s e) (hstays : (s'.market.products p).isSome = true)
    (hstep : s.step provider e = some s') :
    ∃ product' batches',
      InDeliveryOrder p product₀ waiting₀ (arrived ++ delivered [e]) s' product' batches' := by
  have hquiet : (∀ pc, e ≠ .onProductChange pc) → arrived ++ delivered [e] = arrived := by
    intro hother
    rw [delivered_other hother, List.append_nil]
  cases e with
  | subscribeProduct c q =>
    obtain ⟨m, hm, rfl⟩ := toOption_map_eq_some.mp hstep
    obtain ⟨hp, hpending⟩ := Market.untouched_subscribeProduct h.product_eq hm
    rw [hquiet fun pc h => (nomatch h)]
    exact ⟨product, batches,
      h.untouched hp rfl rfl (MarketState.waiting_congr p rfl hpending)⟩
  | subscribeTrades q =>
    obtain ⟨m, hm, rfl⟩ := toOption_map_eq_some.mp hstep
    obtain ⟨hproducts, hpending⟩ := Market.untouched_subscribeTrades hm
    rw [hquiet fun pc h => (nomatch h)]
    have hp := (congrFun hproducts p).trans h.product_eq
    exact ⟨product, batches,
      h.untouched hp rfl rfl (MarketState.waiting_congr p rfl hpending)⟩
  | unsubscribe c q =>
    obtain ⟨m, hm, rfl⟩ := toOption_map_eq_some.mp hstep
    obtain ⟨product', hp, hbook, hpub, hpending⟩ :=
      Market.untouched_unsubscribe h.product_eq hstays hm
    rw [hquiet fun pc h => (nomatch h)]
    exact ⟨product', batches,
      h.untouched hp hbook hpub (MarketState.waiting_congr p rfl hpending)⟩
  | onProductChange pc =>
    cases hstep
    exact ⟨product, batches, h.deliver rfl rfl rfl⟩
  | onTrade trade =>
    cases hstep
    obtain ⟨hproducts, hpending, -⟩ := s.market.onTrade_frame trade
    rw [hquiet fun pc h => (nomatch h)]
    have hp := (congrFun hproducts p).trans h.product_eq
    exact ⟨product, batches,
      h.untouched hp rfl rfl (MarketState.waiting_congr p rfl hpending)⟩
  | takeChanges =>
    obtain ⟨hempty, rfl⟩ := step_takeChanges hstep
    rw [hquiet fun pc h => (nomatch h)]
    -- what was pending is taken now, and it waits as before
    refine ⟨product, batches, h.untouched h.product_eq rfl rfl ?_⟩
    rw [MarketState.waiting, MarketState.waiting, hempty, List.append_nil, List.nil_append]
  | processChanges picks =>
    obtain ⟨it, hv, hit, rfl⟩ := step_processChanges hstep
    rw [hquiet fun pc h => (nomatch h)]
    exact inDeliveryOrder_processChanges h hit (hg picks it product rfl hv h.product_eq)

/-- **Changes are applied in the order of delivery**, over any run in which a product
stays and no drain finds changes of it whose order matters. Whatever the interleaving
and the batches, the changes drained since it was `product₀` are the first of those that
were waiting then or delivered since, the book is their replay, and after each batch
that replay was published. -/
theorem book_in_delivery_order {provider : EndpointProvider} {p : String}
    {product₀ : Product FloatingP} {es : List (MarketEvent FloatingP)}
    {s₀ s : MarketState FloatingP} (h₀ : s₀.market.products p = some product₀)
    (hstays : StaysIn (marketMachine provider) p s₀ es)
    (hg : (marketMachine provider).Guarded (OrderDoesNotMatter p) s₀ es)
    (hrun : (marketMachine provider).run s₀ es = some s) :
    ∃ product batches,
      InDeliveryOrder p product₀ (s₀.waiting p) (delivered es) s product batches := by
  refine (marketMachine provider).history_rule
    (I := fun es s => StaysIn (marketMachine provider) p s₀ es → ∃ product batches,
      InDeliveryOrder p product₀ (s₀.waiting p) (delivered es) s product batches)
    ?_ ?_ hg hrun hstays
  · intro _
    exact ⟨product₀, [], h₀, (List.append_nil _).symm, fun b hb => absurd hb List.not_mem_nil,
      rfl, (List.append_nil _).symm⟩
  · intro es s e s' hpre ih hge hstep hstays
    obtain ⟨product, batches, h⟩ := ih hstays.init
    have hnext : (s'.market.products p).isSome = true := hstays.last hpre hstep
    rw [delivered_append]
    exact inDeliveryOrder_step h hge.keepsOrder hnext hstep

/-- **The condition is exact.** Whatever visit the container chooses, the batch leaves the
replay in order of delivery, exactly when the order of the product's changes in it does
not matter to its book. -/
theorem delivery_order_iff {p : String} {m : Market FloatingP} {product : Product FloatingP}
    {batch : List (ProductChange FloatingP)} (hp : m.products p = some product) :
    (∀ it, Visits ProductChange.getProductId batch it →
      ((m.processChanges it).products p).map Product.orderBook =
        some (product.orderBook.replay (changesFor p batch))) ↔
      OrderInsensitive OrderBook.applyChange product.orderBook (changesFor p batch) := by
  have hbook : ∀ pcs, (product.onProductChanges pcs).orderBook = product.orderBook.replay pcs := by
    intro pcs
    by_cases hne : pcs = []
    · rw [hne]
      rfl
    · rw [Product.onProductChanges_of_ne_nil product hne]
  constructor
  · -- every order of the product's changes is the order of some visit
    intro h chosen hperm
    obtain ⟨it, hit, hchosen⟩ := exists_visits hperm
    have hleft := h it hit
    rw [Market.processChanges_product hp hit.grouped, Option.map_some, hbook] at hleft
    have hit_eq : changesFor p it = chosen := hchosen
    rw [hit_eq] at hleft
    exact Option.some.inj hleft
  · intro h it hit
    rw [Market.processChanges_product hp hit.grouped, Option.map_some, hbook]
    exact congrArg some (h _ (forKey_perm hit.perm))

/-- A batch with one change of the product, or with repetitions of one, is harmless. -/
theorem orderDoesNotMatter_of_one {p : String} {s : MarketState FloatingP}
    {e : MarketEvent FloatingP}
    (h : ∀ pc ∈ changesFor p s.currentChanges, ∀ pc' ∈ changesFor p s.currentChanges, pc = pc') :
    OrderDoesNotMatter p s e :=
  fun _ _ _ _ => orderInsensitive_of_subsingleton _ _ h

/-! ## Runs on fixed events -/

/-- The state after the first subscription for `ETH-USD`. -/
def subscribed : MarketState Int :=
  ((marketMachine .ethUsd).run {} [.subscribeProduct "1" "ETH-USD"]).getD {}

/-- An order is opened, and done only after it was drained. -/
theorem book_in_delivery_order_batches :
    ∃ (s : MarketState Int) (product₀ product : Product Int)
      (batches : List (List (ProductChange Int))),
      (marketMachine .ethUsd).run subscribed
        [.onProductChange (.orderOpen "A" 100 5 .buy "ETH-USD" 1), .takeChanges,
          .onProductChange (.orderDone "A" .sell "ETH-USD" 2),
          .processChanges [0], .takeChanges] = some s ∧
      InDeliveryOrder "ETH-USD" product₀ (subscribed.waiting "ETH-USD")
        [.orderOpen "A" 100 5 .buy "ETH-USD" 1, .orderDone "A" .sell "ETH-USD" 2]
        s product batches := by
  have hquiet : ∀ (s : MarketState Int) e, (∀ picks, e ≠ .processChanges picks) →
      OrderDoesNotMatter "ETH-USD" s e := fun s e h picks _ heq _ => absurd heq (h picks)
  obtain ⟨s, hrun⟩ : ∃ s, (marketMachine .ethUsd).run subscribed
      [.onProductChange (.orderOpen "A" 100 5 .buy "ETH-USD" 1), .takeChanges,
        .onProductChange (.orderDone "A" .sell "ETH-USD" 2),
        .processChanges [0], .takeChanges] = some s := ⟨_, rfl⟩
  obtain ⟨product₀, h₀⟩ : ∃ product₀, subscribed.market.products "ETH-USD" = some product₀ :=
    ⟨_, rfl⟩
  have hstays : StaysIn (marketMachine .ethUsd) "ETH-USD" subscribed
      [.onProductChange (.orderOpen "A" 100 5 .buy "ETH-USD" 1), .takeChanges,
        .onProductChange (.orderDone "A" .sell "ETH-USD" 2),
        .processChanges [0], .takeChanges] :=
    Machine.always_cons _ rfl rfl (Machine.always_cons _ rfl rfl (Machine.always_cons _ rfl rfl
      (Machine.always_cons _ rfl rfl (Machine.always_cons _ rfl rfl
        (Machine.always_nil _ rfl)))))
  have hg : (marketMachine .ethUsd).Guarded (OrderDoesNotMatter "ETH-USD") subscribed
      [.onProductChange (.orderOpen "A" 100 5 .buy "ETH-USD" 1), .takeChanges,
        .onProductChange (.orderDone "A" .sell "ETH-USD" 2),
        .processChanges [0], .takeChanges] := by
    refine Machine.guarded_cons _ (hquiet _ _ fun _ h => (nomatch h)) rfl ?_
    refine Machine.guarded_cons _ (hquiet _ _ fun _ h => (nomatch h)) rfl ?_
    refine Machine.guarded_cons _ (hquiet _ _ fun _ h => (nomatch h)) rfl ?_
    refine Machine.guarded_cons _ (orderDoesNotMatter_of_one fun pc hpc pc' hpc' => ?_) rfl ?_
    · exact (List.mem_singleton.mp hpc).trans (List.mem_singleton.mp hpc').symm
    · refine Machine.guarded_cons _ (hquiet _ _ fun _ h => (nomatch h)) rfl ?_
      exact Machine.guarded_nil _ _ _
  obtain ⟨product, batches, h⟩ := book_in_delivery_order h₀ hstays hg hrun
  exact ⟨s, product₀, product, batches, hrun, h⟩

/-- Every change is drained, and the book published last is not the one of the changes in the
order of their delivery. -/
def PublishesAnother (es : List (MarketEvent Int)) : Prop :=
  ∃ (s : MarketState Int) (product : Product Int),
    StaysIn (marketMachine .ethUsd) "ETH-USD" subscribed es ∧
    (marketMachine .ethUsd).run subscribed es = some s ∧
    s.market.products "ETH-USD" = some product ∧
    subscribed.waiting "ETH-USD" = [] ∧ s.waiting "ETH-USD" = [] ∧
    product.orderBook ≠ OrderBook.replay {} (changesFor "ETH-USD" (delivered es)) ∧
    product.publisher.published = [product.orderBook]

/-- An order is opened and done before the next drain, and the container visits the two
changes in the opposite order. -/
def openedAndDone : List (MarketEvent Int) :=
  [.onProductChange (.orderOpen "A" 100 5 .buy "ETH-USD" 1),
    .onProductChange (.orderDone "A" .sell "ETH-USD" 2), .takeChanges, .processChanges [1, 0]]

/-- Another order is opened before the two, and the container visits it first: it puts every
later element right behind the first one of its key. -/
def openedThird : List (MarketEvent Int) :=
  [.onProductChange (.orderOpen "X" 99 1 .buy "ETH-USD" 1),
    .onProductChange (.orderOpen "A" 100 5 .buy "ETH-USD" 2),
    .onProductChange (.orderDone "A" .sell "ETH-USD" 3), .takeChanges, .processChanges [0, 1, 0]]

/-- Either way the order that was done stays in the book and is published. -/
theorem reversed_batch_published :
    PublishesAnother openedAndDone ∧ PublishesAnother openedThird := by
  constructor
  · refine ⟨_, _, ?_, rfl, rfl, rfl, rfl, by decide, rfl⟩
    exact Machine.always_cons _ rfl rfl (Machine.always_cons _ rfl rfl
      (Machine.always_cons _ rfl rfl (Machine.always_cons _ rfl rfl (Machine.always_nil _ rfl))))
  · refine ⟨_, _, ?_, rfl, rfl, rfl, rfl, by decide, rfl⟩
    exact Machine.always_cons _ rfl rfl (Machine.always_cons _ rfl rfl
      (Machine.always_cons _ rfl rfl (Machine.always_cons _ rfl rfl
        (Machine.always_cons _ rfl rfl (Machine.always_nil _ rfl)))))

end QuoteServer
