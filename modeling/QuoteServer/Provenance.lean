import QuoteServer.Server

/-!
# Published books come from the current subscription

A change is matched to a `Product` by its product id alone. So when a product is
unsubscribed and subscribed again, a change of the first subscription that is still
pending is applied to the book of the second one. `published_from_current` says what a
run has to avoid for every published book to be the replay of what the current feed
product passed on, from its full order book on. That nothing may be pending when a product
is created is exact: `pending_published`, where the market thread runs on from there.
-/

namespace QuoteServer

open EventMachine KeyedBatch

variable {FloatingP : Type} [FloatingPoint FloatingP]

/-- The condition on a step. -/
structure CurrentOnly (p : String) (s : MarketState FloatingP) (e : ServerEvent FloatingP) :
    Prop where
  /-- When the product is created, no change of it is pending. -/
  nothingPending : ∀ c, e = .market (.subscribeProduct c p) → s.market.products p = none →
    s.waiting p = []
  /-- A batch is visited in the order of delivery. -/
  deliveryOrder : ∀ picks it, e = .market (.processChanges picks) →
    visit picks s.currentChanges = some it → changesFor p it = changesFor p s.currentChanges
  /-- The feed product starts with a full order book that has bids and asks. -/
  fullBookFirst : ∀ fe f, e = .feed p fe → s.market.feedClient.prodIdToListener p = some f →
    TakesFullBookFirst f fe

/-- The book of a product, and every book it published, comes from what one feed
product passed on. -/
structure FromCurrent (f : FeedState FloatingP) (product : Product FloatingP) : Prop where
  book : ∃ applied, applied <+: f.emitted ∧ product.orderBook = OrderBook.replay {} applied
  published : ∀ book ∈ product.publisher.published, ∃ reset later,
    reset.isReset = true ∧ reset :: later <+: f.emitted ∧
      book = OrderBook.replay {} (reset :: later)

/-! ## The lifetime of a product -/

/-- A book published after some batches is the replay of the first of them. -/
theorem mem_booksAfter {book b : OrderBook FloatingP}
    {batches : List (List (ProductChange FloatingP))} (h : b ∈ booksAfter book batches) :
    ∃ pre post, batches = pre ++ post ∧ pre ≠ [] ∧ b = book.replay pre.flatten := by
  induction batches generalizing book with
  | nil => cases h
  | cons batch batches ih =>
    change b ∈ book.replay batch :: booksAfter (book.replay batch) batches at h
    rcases List.mem_cons.mp h with rfl | h
    · refine ⟨[batch], batches, rfl, List.cons_ne_nil _ _, ?_⟩
      rw [List.flatten_singleton]
    · obtain ⟨pre, post, rfl, -, rfl⟩ := ih h
      refine ⟨batch :: pre, post, rfl, List.cons_ne_nil _ _, ?_⟩
      rw [List.flatten_cons, OrderBook.replay_append]

/-- A feed product `f` supplies the product: it is registered for it, it alone delivered the
product's changes, and they are applied in order. -/
structure Fed (p : String) (product₀ : Product FloatingP)
    (arrived : List (ProductChange FloatingP)) (s : MarketState FloatingP)
    (f : FeedState FloatingP) (product : Product FloatingP)
    (batches : List (List (ProductChange FloatingP))) : Prop where
  registered : Registered s.market
  listener : s.market.feedClient.prodIdToListener p = some f
  delivered : changesFor p arrived = f.emitted
  inOrder : InDeliveryOrder p product₀ [] arrived s product batches

/-- A step of the server, in which the feed product stays as it is or takes one step. -/
theorem fed_step {provider : EndpointProvider} {p : String}
    {product₀ product : Product FloatingP} {arrived : List (ProductChange FloatingP)}
    {s s' : MarketState FloatingP} {f : FeedState FloatingP}
    {batches : List (List (ProductChange FloatingP))} {e : ServerEvent FloatingP}
    (h : Fed p product₀ arrived s f product batches)
    (hg : ∀ me, e = .market me → KeepsOrder p s me)
    (hstays : (s'.market.products p).isSome = true)
    (hstep : s.serverStep provider e = some s') :
    ∃ arrived' f' product' batches', Fed p product₀ arrived' s' f' product' batches' ∧
      (f' = f ∨ ∃ fe, e = .feed p fe ∧ f.step fe = some f') := by
  have hs' : Registered s'.market := registered_step h.registered hstep
  cases e with
  | market e =>
    obtain ⟨hmarket, hnot⟩ := serverStep_market hstep
    obtain ⟨product', batches', hin⟩ :=
      inDeliveryOrder_step h.inOrder (hg e rfl) hstays hmarket
    rw [delivered_other hnot, List.append_nil] at hin
    exact ⟨arrived, f, product', batches', ⟨hs',
      listener_market h.registered h.listener hstays hmarket, h.delivered, hin⟩, .inl rfl⟩
  | feed q e =>
    obtain ⟨g, g', pcs, hg', hgstep, hemitted, hids, rfl⟩ := serverStep_feed hstep
    have hkeys : ∀ pc ∈ pcs, pc.getProductId = q := fun pc hpc =>
      (hids pc hpc).trans (h.registered.ids q g hg')
    by_cases hq : q = p
    · subst hq
      obtain rfl : f = g := Option.some.inj (h.listener.symm.trans hg')
      refine ⟨arrived ++ pcs, g', product, batches, ⟨hs', setListener_listener_self _ _ _, ?_,
        h.inOrder.deliver rfl rfl rfl⟩, .inr ⟨e, rfl, hgstep⟩⟩
      have hown : changesFor q pcs = pcs := forKey_eq_self.mpr hkeys
      rw [changesFor_append, h.delivered, hown, hemitted]
    · refine ⟨arrived ++ pcs, f, product, batches, ⟨hs', ?_, ?_,
        h.inOrder.deliver rfl rfl rfl⟩, .inl rfl⟩
      · exact (setListener_listener_ne _ _ (Ne.symm hq)).trans h.listener
      · have hother : changesFor p pcs = [] :=
          forKey_eq_nil.mpr fun pc hpc heq => hq ((hkeys pc hpc).symm.trans heq)
        rw [changesFor_append, hother, List.append_nil, h.delivered]

/-- Since the product was created: its feed product `f` is there, `f` alone delivered
the product's changes, and they are applied in order. -/
structure Lifetime (p : String) (product₀ : Product FloatingP)
    (arrived : List (ProductChange FloatingP)) (s : MarketState FloatingP)
    (f : FeedState FloatingP) (product : Product FloatingP)
    (batches : List (List (ProductChange FloatingP))) : Prop where
  registered : Registered s.market
  listener : s.market.feedClient.prodIdToListener p = some f
  firstReset : FirstReset f
  delivered : changesFor p arrived = f.emitted
  inOrder : InDeliveryOrder p product₀ [] arrived s product batches

theorem Lifetime.fed {p : String} {product₀ product : Product FloatingP}
    {arrived : List (ProductChange FloatingP)} {s : MarketState FloatingP}
    {f : FeedState FloatingP} {batches : List (List (ProductChange FloatingP))}
    (h : Lifetime p product₀ arrived s f product batches) :
    Fed p product₀ arrived s f product batches :=
  ⟨h.registered, h.listener, h.delivered, h.inOrder⟩

theorem CurrentOnly.keepsOrder {p : String} {s : MarketState FloatingP}
    {e : MarketEvent FloatingP} (h : CurrentOnly p s (.market e)) : KeepsOrder p s e := by
  intro picks it product he hv _
  rw [h.deliveryOrder picks it (congrArg ServerEvent.market he) hv]

theorem lifetime_step {provider : EndpointProvider} {p : String}
    {product₀ product : Product FloatingP} {arrived : List (ProductChange FloatingP)}
    {s s' : MarketState FloatingP} {f : FeedState FloatingP}
    {batches : List (List (ProductChange FloatingP))} {e : ServerEvent FloatingP}
    (h : Lifetime p product₀ arrived s f product batches) (hg : CurrentOnly p s e)
    (hstays : (s'.market.products p).isSome = true)
    (hstep : s.serverStep provider e = some s') :
    ∃ arrived' f' product' batches', Lifetime p product₀ arrived' s' f' product' batches' := by
  have hkeeps : ∀ me, e = .market me → KeepsOrder p s me := by
    rintro me rfl
    exact hg.keepsOrder
  obtain ⟨arrived', f', product', batches', hfed, hf⟩ := fed_step h.fed hkeeps hstays hstep
  have hreset : FirstReset f' := by
    rcases hf with rfl | ⟨fe, rfl, hfstep⟩
    · exact h.firstReset
    · exact firstReset_step h.firstReset (hg.fullBookFirst fe f rfl h.listener) hfstep
  exact ⟨arrived', f', product', batches', hfed.registered, hfed.listener, hreset,
    hfed.delivered, hfed.inOrder⟩

/-- The subscription that creates the product: what of it is pending then stays so. -/
theorem inDeliveryOrder_created {provider : EndpointProvider} {p c : String}
    {s₀ s₁ : MarketState FloatingP} (hs₀ : Registered s₀.market)
    (hnone : s₀.market.products p = none)
    (hstep : s₀.serverStep provider (.market (.subscribeProduct c p)) = some s₁) :
    ∃ product₀, product₀.orderBook = {} ∧ product₀.publisher.published = [] ∧
      s₁.market.feedClient.prodIdToListener p = some (.initial p) ∧
      InDeliveryOrder p product₀ (s₀.waiting p) [] s₁ product₀ [] := by
  obtain ⟨m, hm, rfl⟩ := toOption_map_eq_some.mp (serverStep_market hstep).1
  rcases Market.subscribeProduct_cases hm with ⟨product, hproduct, -⟩ | ⟨-, endpoint, -, rfl⟩
  · rw [hnone] at hproduct
    cases hproduct
  · refine ⟨Market.newProduct p endpoint, rfl, rfl,
      s₀.market.feedClient.subscribe_listener_none (hs₀.listener_none hnone), ?_⟩
    exact ⟨Function.update_self .., (List.append_nil _).symm, List.forall_mem_nil _, rfl, rfl⟩

theorem lifetime_created {provider : EndpointProvider} {p c : String}
    {s₀ s₁ : MarketState FloatingP} (hs₀ : Registered s₀.market)
    (hnone : s₀.market.products p = none) (hwaiting : s₀.waiting p = [])
    (hstep : s₀.serverStep provider (.market (.subscribeProduct c p)) = some s₁) :
    ∃ product₀, product₀.orderBook = {} ∧ product₀.publisher.published = [] ∧
      Lifetime p product₀ [] s₁ (.initial p) product₀ [] := by
  obtain ⟨product₀, hbook, hpublished, hlistener, hin⟩ :=
    inDeliveryOrder_created hs₀ hnone hstep
  rw [hwaiting] at hin
  refine ⟨product₀, hbook, hpublished, registered_step hs₀ hstep, hlistener, ?_, rfl, hin⟩
  exact ⟨fun _ _ h => (nomatch h), fun _ => rfl, fun h => absurd rfl h⟩

/-- What the invariant says about the published books. -/
theorem Lifetime.fromCurrent {p : String} {product₀ product : Product FloatingP}
    {arrived : List (ProductChange FloatingP)} {s : MarketState FloatingP}
    {f : FeedState FloatingP} {batches : List (List (ProductChange FloatingP))}
    (h : Lifetime p product₀ arrived s f product batches) (hbook : product₀.orderBook = {})
    (hpublished : product₀.publisher.published = []) : FromCurrent f product := by
  have hdrained : batches.flatten ++ s.waiting p = f.emitted := by
    rw [h.inOrder.drained, h.delivered, List.nil_append]
  refine ⟨⟨batches.flatten, ⟨_, hdrained⟩, ?_⟩, fun book hmem => ?_⟩
  · rw [h.inOrder.book, hbook]
  · rw [h.inOrder.published, hpublished, List.nil_append, hbook] at hmem
    obtain ⟨pre, post, heq, hne, rfl⟩ := mem_booksAfter hmem
    have hinit : pre.flatten <+: f.emitted := by
      rw [← hdrained, heq, List.flatten_append, List.append_assoc]
      exact List.prefix_append _ _
    cases hpre : pre.flatten with
    | nil =>
      -- a batch that was applied is not empty
      cases pre with
      | nil => exact absurd rfl hne
      | cons batch pre =>
        have hbatch := h.inOrder.nonempty batch (by rw [heq]; exact List.mem_cons_self)
        rw [List.flatten_cons] at hpre
        exact absurd (List.append_eq_nil_iff.mp hpre).1 hbatch
    | cons reset later =>
      rw [hpre] at hinit
      exact ⟨reset, later, h.firstReset.emitted_head hinit, hinit, rfl⟩

/-! ## Whole runs -/

/-- **Published books come from the current subscription.** In every run whose steps
meet `CurrentOnly`: since the subscription that created the product of `p`, its book is
the replay of the first changes that the feed product created with it passed on, and
every book it published is such a replay that starts with a reset. -/
theorem published_from_current {provider : EndpointProvider} {p c : String}
    {pre post : List (ServerEvent FloatingP)} {s₀ s₁ s : MarketState FloatingP}
    (hpre : (serverMachine provider).run {} pre = some s₀)
    (hnone : s₀.market.products p = none)
    (hcreated : s₀.serverStep provider (.market (.subscribeProduct c p)) = some s₁)
    (hpost : (serverMachine provider).run s₁ post = some s)
    (hstays : StaysIn (serverMachine provider) p s₁ post)
    (hg : (serverMachine provider).Guarded (CurrentOnly p) {}
      (pre ++ .market (.subscribeProduct c p) :: post)) :
    ∃ f product, s.market.products p = some product ∧
      s.market.feedClient.prodIdToListener p = some f ∧
      (feedMachine FloatingP).run (.initial p) (feedEvents p post) = some f ∧
      FromCurrent f product := by
  have hs₀ : Registered s₀.market := registered_of_run hpre
  have hcreation : CurrentOnly p s₀ (.market (.subscribeProduct c p)) :=
    hg pre _ post s₀ rfl hpre
  have hgpost : (serverMachine provider).Guarded (CurrentOnly p) s₁ post := by
    have hrun : (serverMachine provider).run {} (pre ++ [.market (.subscribeProduct c p)]) =
        some s₁ := (Machine.run_snoc _).mpr ⟨s₀, hpre, hcreated⟩
    have hwhole : (serverMachine provider).Guarded (CurrentOnly p) {}
        (pre ++ [.market (.subscribeProduct c p)] ++ post) := by
      rw [List.append_assoc]
      exact hg
    exact Machine.guarded_append_right _ hwhole hrun
  obtain ⟨product₀, hbook, hpublished, hlife⟩ :=
    lifetime_created hs₀ hnone (hcreation.nothingPending c rfl hnone) hcreated
  obtain ⟨f, hlistener, hfeed⟩ :=
    feed_of_server hlife.registered hlife.listener hstays hpost
  have hend : ∃ arrived f' product batches, Lifetime p product₀ arrived s f' product batches := by
    refine (serverMachine provider).history_rule
      (I := fun es s => StaysIn (serverMachine provider) p s₁ es → ∃ arrived f' product batches,
        Lifetime p product₀ arrived s f' product batches)
      ?_ ?_ hgpost hpost hstays
    · exact fun _ => ⟨[], _, _, [], hlife⟩
    · intro es t e t' hes ih hge hstep hstays'
      obtain ⟨arrived, f', product, batches, ht⟩ := ih hstays'.init
      exact lifetime_step ht hge (hstays'.last hes hstep) hstep
  obtain ⟨arrived, f', product, batches, hlast⟩ := hend
  obtain rfl : f = f' := Option.some.inj (hlistener.symm.trans hlast.listener)
  exact ⟨f, product, hlast.inOrder.product_eq, hlistener, hfeed,
    hlast.fromCurrent hbook hpublished⟩

/-! ## Runs on fixed events -/

/-- The feed product fetches its full order book and passes it on. -/
def bookPassedOn : List (ServerEvent Int) :=
  [.feed "ETH-USD" (.complete (.json (bookMsg 1 [("100", "5", "A")] []))),
    .feed "ETH-USD" .take, .feed "ETH-USD" .hand]

/-- The first subscription is cancelled while a change of it is pending, and the market drops
that change. -/
def firstCancelled : List (ServerEvent Int) :=
  .market (.subscribeProduct "1" "ETH-USD") :: (bookPassedOn ++
    [.market (.unsubscribe "1" "ETH-USD"), .market .takeChanges, .market (.processChanges [0])])

/-- The book of the second subscription is fetched and published. -/
def secondPublished : List (ServerEvent Int) :=
  [.feed "ETH-USD" (.complete (.json (bookMsg 7 [("99", "2", "C")] []))),
    .feed "ETH-USD" .take, .feed "ETH-USD" .hand, .market .takeChanges,
    .market (.processChanges [0])]

omit [FloatingPoint FloatingP] in
/-- Only what the message thread takes can fail to start with a book. -/
theorem currentOnly_feed {p q : String} {e : FeedEvent} (s : MarketState FloatingP)
    (he : e ≠ .take) : CurrentOnly p s (.feed q e) := by
  refine ⟨by rintro c ⟨⟩, by rintro picks it ⟨⟩, ?_⟩
  rintro fe f ⟨⟩ - htake
  exact absurd htake he

omit [FloatingPoint FloatingP] in
/-- A market step that creates no product and drains nothing meets the condition. -/
theorem currentOnly_market {p : String} {e : MarketEvent FloatingP} (s : MarketState FloatingP)
    (hsubscribe : ∀ c q, e ≠ .subscribeProduct c q)
    (hprocess : ∀ picks, e ≠ .processChanges picks) : CurrentOnly p s (.market e) := by
  refine ⟨fun c he => ?_, fun picks it he => ?_, by rintro fe f ⟨⟩⟩
  · exact absurd (ServerEvent.market.inj he) (hsubscribe c p)
  · exact absurd (ServerEvent.market.inj he) (hprocess picks)

theorem currentOnly_second : (serverMachine .ethUsd).Guarded (CurrentOnly "ETH-USD") {}
    (firstCancelled ++ .market (.subscribeProduct "2" "ETH-USD") :: secondPublished) := by
  -- the first subscription
  refine Machine.guarded_cons _ ⟨fun _ _ _ => rfl, by rintro _ _ ⟨⟩, by rintro _ _ ⟨⟩⟩ rfl ?_
  refine Machine.guarded_cons _ (currentOnly_feed _ (by rintro ⟨⟩)) rfl ?_
  refine Machine.guarded_cons _ ⟨by rintro _ ⟨⟩, by rintro _ _ ⟨⟩, ?_⟩ rfl ?_
  · rintro _ _ - ⟨⟩ - - _ _ ⟨⟩
    rfl
  refine Machine.guarded_cons _ (currentOnly_feed _ (by rintro ⟨⟩)) rfl ?_
  refine Machine.guarded_cons _ (currentOnly_market _ (by rintro _ _ ⟨⟩) (by rintro _ ⟨⟩)) rfl ?_
  refine Machine.guarded_cons _ (currentOnly_market _ (by rintro _ _ ⟨⟩) (by rintro _ ⟨⟩)) rfl ?_
  refine Machine.guarded_cons _ ⟨by rintro _ ⟨⟩, ?_, by rintro _ _ ⟨⟩⟩ rfl ?_
  · rintro _ _ ⟨⟩ ⟨⟩
    rfl
  -- the second one, with nothing pending
  refine Machine.guarded_cons _ ⟨fun _ _ _ => rfl, by rintro _ _ ⟨⟩, by rintro _ _ ⟨⟩⟩ rfl ?_
  refine Machine.guarded_cons _ (currentOnly_feed _ (by rintro ⟨⟩)) rfl ?_
  refine Machine.guarded_cons _ ⟨by rintro _ ⟨⟩, by rintro _ _ ⟨⟩, ?_⟩ rfl ?_
  · rintro _ _ - ⟨⟩ - - _ _ ⟨⟩
    rfl
  refine Machine.guarded_cons _ (currentOnly_feed _ (by rintro ⟨⟩)) rfl ?_
  refine Machine.guarded_cons _ (currentOnly_market _ (by rintro _ _ ⟨⟩) (by rintro _ ⟨⟩)) rfl ?_
  refine Machine.guarded_cons _ ⟨by rintro _ ⟨⟩, ?_, by rintro _ _ ⟨⟩⟩ rfl
    (Machine.guarded_nil _ _ _)
  rintro _ _ ⟨⟩ ⟨⟩
  rfl

theorem run_secondPublished : ∃ s₀ s₁ s : MarketState Int,
    (serverMachine .ethUsd).run {} firstCancelled = some s₀ ∧
      s₀.market.products "ETH-USD" = none ∧
      s₀.serverStep .ethUsd (.market (.subscribeProduct "2" "ETH-USD")) = some s₁ ∧
      (serverMachine .ethUsd).run s₁ secondPublished = some s ∧
      StaysIn (serverMachine .ethUsd) "ETH-USD" s₁ secondPublished ∧
      (s.market.products "ETH-USD").map (fun product => product.publisher.published) =
        some [⟨[⟨99, 2, "C"⟩], []⟩] := by
  refine ⟨_, _, _, rfl, rfl, rfl, rfl, ?_, rfl⟩
  exact Machine.always_cons _ rfl rfl (Machine.always_cons _ rfl rfl (Machine.always_cons _ rfl rfl
    (Machine.always_cons _ rfl rfl (Machine.always_cons _ rfl rfl (Machine.always_nil _ rfl)))))

/-- After a cancelled subscription, whose change was dropped in time, the second one publishes
its own book. -/
theorem published_from_current_opened :
    ∃ (s₀ s₁ s : MarketState Int) (f : FeedState Int) (product : Product Int),
      (serverMachine .ethUsd).run {} firstCancelled = some s₀ ∧
      s₀.serverStep .ethUsd (.market (.subscribeProduct "2" "ETH-USD")) = some s₁ ∧
      (serverMachine .ethUsd).run s₁ secondPublished = some s ∧
      s.market.products "ETH-USD" = some product ∧
      product.publisher.published = [⟨[⟨99, 2, "C"⟩], []⟩] ∧ FromCurrent f product := by
  obtain ⟨s₀, s₁, s, hpre, hnone, hcreated, hpost, hstays, hbooks⟩ := run_secondPublished
  obtain ⟨f, product, hproduct, -, -, hcurrent⟩ :=
    published_from_current hpre hnone hcreated hpost hstays currentOnly_second
  rw [hproduct] at hbooks
  exact ⟨s₀, s₁, s, f, product, hpre, hcreated, hpost, hproduct, Option.some.inj hbooks, hcurrent⟩

/-- The product is unsubscribed while a change of it is pending, and subscribed again:
the change of the first subscription is published as a book of the second. -/
theorem cancelled_change_published :
    ∃ (s₀ s₁ s : MarketState Int) (product : Product Int),
      (serverMachine .ethUsd).run {} (.market (.subscribeProduct "1" "ETH-USD") ::
        (bookPassedOn ++ [.market (.unsubscribe "1" "ETH-USD")])) = some s₀ ∧
      s₀.market.products "ETH-USD" = none ∧
      s₀.serverStep .ethUsd (.market (.subscribeProduct "1" "ETH-USD")) = some s₁ ∧
      (serverMachine .ethUsd).run s₁
        [.market .takeChanges, .market (.processChanges [0])] = some s ∧
      StaysIn (serverMachine .ethUsd) "ETH-USD" s₁
        [.market .takeChanges, .market (.processChanges [0])] ∧
      s.market.products "ETH-USD" = some product ∧
      s.market.feedClient.prodIdToListener "ETH-USD" = some (.initial "ETH-USD") ∧
      ¬ FromCurrent (.initial "ETH-USD") product := by
  refine ⟨_, _, _, _, rfl, rfl, rfl, rfl, ?_, rfl, rfl, fun h => ?_⟩
  · exact Machine.always_cons _ rfl rfl (Machine.always_cons _ rfl rfl (Machine.always_nil _ rfl))
  · obtain ⟨reset, later, -, hinit, -⟩ :=
      h.published ⟨[⟨100, 5, "A"⟩], []⟩ (List.mem_singleton.mpr rfl)
    exact absurd (List.prefix_nil.mp hinit) (List.cons_ne_nil _ _)

end QuoteServer
