import QuoteServer.Quotes

/-!
# The server catches up

However far the market is behind, the message thread of a feed product and the market's own
thread need nobody else to get to where nothing is left. Whatever the order in which the
container of the pending changes visits the products, if it keeps the order of the changes
of each, the book published last is then that of the whole feed (`catches_up`).

The market thread left to itself also shows what becomes of a change that is pending when
its product is created: it is published (`pending_published`).
-/

namespace QuoteServer

open EventMachine KeyedBatch CoinbaseFeedMessageHandler

variable {FloatingP : Type} [FloatingPoint FloatingP]

/-! ## The message thread -/

/-- What the message thread does by itself: it hands over what it holds, takes the queue and
hands that over. -/
def messageThread (f : FeedState FloatingP) : List FeedEvent :=
  List.replicate f.messages.length .hand ++
    .take :: List.replicate f.product.messageQueue.length .hand

/-- All that the feed product holds can be read. -/
def FeedState.CanHandOver (f : FeedState FloatingP) : Prop :=
  ∃ pcs : List (ProductChange FloatingP), changesOf f.product.productId
    ((f.messages ++ f.product.messageQueue).map Queued.json) = .ok pcs

/-- Messages that can be read are handed over, one after the other. -/
theorem run_hands {f : FeedState FloatingP} {messages : List Queued}
    {pcs : List (ProductChange FloatingP)} (hmessages : f.messages = messages)
    (hpcs : changesOf f.product.productId (messages.map Queued.json) = .ok pcs) :
    ∃ f', (feedMachine FloatingP).run f (List.replicate messages.length .hand) = some f' ∧
      f'.messages = [] ∧ f'.product = f.product := by
  induction messages generalizing f pcs with
  | nil => exact ⟨f, rfl, hmessages, rfl⟩
  | cons queued messages ih =>
    obtain ⟨pc, rest, hpc, hrest, rfl⟩ := changesOf_cons_ok.mp hpcs
    let next : FeedState FloatingP := { f with
      messages := messages
      handed := f.handed ++ [queued]
      emitted := f.emitted ++ pc.toList }
    have hstep : (feedMachine FloatingP).step f .hand = some next := by
      show f.step .hand = some next
      unfold FeedState.step
      rw [hmessages]
      dsimp only
      rw [hpc]
    obtain ⟨f', hrun, hnothing, hproduct⟩ := ih (f := next) rfl hrest
    exact ⟨f', Option.bind_eq_some_iff.mpr ⟨next, hstep, hrun⟩, hnothing, hproduct⟩

/-- Left to itself, the message thread of a live feed product leaves nothing. -/
theorem run_messageThread {f : FeedState FloatingP}
    (hlive : f.product.requestingOrderbook = false) (hreadable : f.CanHandOver) :
    ∃ f', (feedMachine FloatingP).run f (messageThread f) = some f' ∧ Drained f' := by
  obtain ⟨pcs, hpcs⟩ := hreadable
  rw [List.map_append] at hpcs
  obtain ⟨held, queued, hheld, hqueued, -⟩ := changesOf_append_ok.mp hpcs
  obtain ⟨f₁, hrun₁, hnothing, hproduct⟩ := run_hands rfl hheld
  -- with empty hands it takes the queue
  let taken : FeedState FloatingP := { f₁ with
    product := { f.product with messageQueue := [] }
    messages := f.product.messageQueue }
  have htake : (feedMachine FloatingP).step f₁ .take = some taken := by
    show f₁.step .take = some taken
    unfold FeedState.step
    dsimp only
    rw [hnothing, if_pos List.isEmpty_nil, hproduct, takeMessages_live hlive]
  obtain ⟨f', hrun', hnothing', hproduct'⟩ := run_hands (f := taken) rfl hqueued
  refine ⟨f', (Machine.run_append_some _).mpr ⟨f₁, hrun₁,
    Option.bind_eq_some_iff.mpr ⟨taken, htake, hrun'⟩⟩, ?_, ?_, hnothing'⟩
  · rw [hproduct']
    exact hlive
  · rw [hproduct']

/-! ## The two threads in the server -/

/-- The market and its feed products, but for the one of `p`, are as they were. -/
structure OnlyFed (p : String) (s : MarketState FloatingP) (f : FeedState FloatingP)
    (s' : MarketState FloatingP) : Prop where
  registered : Registered s'.market
  listener : s'.market.feedClient.prodIdToListener p = some f
  products : s'.market.products = s.market.products

/-- The server follows what a feed product does. -/
theorem run_feed (provider : EndpointProvider) {p : String} {s : MarketState FloatingP}
    {f f' : FeedState FloatingP} {es : List FeedEvent} (hs : Registered s.market)
    (hf : s.market.feedClient.prodIdToListener p = some f)
    (hrun : (feedMachine FloatingP).run f es = some f') :
    ∃ s', (serverMachine provider).run s (es.map (.feed p)) = some s' ∧ OnlyFed p s f' s' := by
  refine (feedMachine FloatingP).lift_run (R := OnlyFed p s) ?_ ⟨hs, hf, rfl⟩ hrun
  intro g g' t e ht hstep
  have hserver : t.serverStep provider (.feed p e) = some (t.deliver p g g') := by
    unfold MarketState.serverStep
    dsimp only
    rw [ht.listener]
    dsimp only
    rw [show g.step e = some g' from hstep]
    rfl
  refine ⟨_, hserver, registered_step ht.registered hserver, ?_, ?_⟩
  · unfold MarketState.deliver
    dsimp only
    rw [foldl_onProductChange]
    exact setListener_listener_self _ _ _
  · unfold MarketState.deliver
    dsimp only
    rw [foldl_onProductChange]
    exact ht.products

/-- How a container visits each batch: a product's changes one after the other, in the order
in which they were inserted. -/
def VisitsInOrder (chooses : List (ProductChange FloatingP) → List Nat) : Prop :=
  ∀ batch, ∃ it, visit (chooses batch) batch = some it ∧
    isGrouped ProductChange.getProductId it = true ∧ ∀ p, changesFor p it = changesFor p batch

omit [FloatingPoint FloatingP] in
/-- There are such containers. -/
theorem exists_visitsInOrder :
    ∃ chooses : List (ProductChange FloatingP) → List Nat, VisitsInOrder chooses := by
  have hpicks : ∀ batch : List (ProductChange FloatingP), ∃ picks it,
      visit picks batch = some it ∧ isGrouped ProductChange.getProductId it = true ∧
        ∀ p, changesFor p it = changesFor p batch := by
    intro batch
    obtain ⟨it, hit, hstable⟩ := exists_stable ProductChange.getProductId batch
    obtain ⟨picks, hvisit⟩ := exists_picks hit.perm
    exact ⟨picks, it, hvisit, isGrouped_of_grouped hit.grouped, hstable⟩
  choose chooses hchooses using hpicks
  exact ⟨chooses, hchooses⟩

/-- What the market thread does by itself: it processes what it took, takes what is pending
and processes that. -/
def marketThread (chooses : List (ProductChange FloatingP) → List Nat)
    (s : MarketState FloatingP) : List (MarketEvent FloatingP) :=
  [.processChanges (chooses s.currentChanges), .takeChanges,
    .processChanges (chooses s.market.productChanges)]

/-- One pass over what was taken. -/
theorem step_process (provider : EndpointProvider) (p : String)
    {chooses : List (ProductChange FloatingP) → List Nat} (hchooses : VisitsInOrder chooses)
    (s : MarketState FloatingP) :
    ∃ s', s.serverStep provider (.market (.processChanges (chooses s.currentChanges))) = some s' ∧
      s'.currentChanges = [] ∧ s'.market.productChanges = s.market.productChanges ∧
      s'.market.feedClient = s.market.feedClient ∧
      (s'.market.products p).isSome = (s.market.products p).isSome ∧
      DrainsKeepOrder p s (.market (.processChanges (chooses s.currentChanges))) := by
  obtain ⟨it, hvisit, hgrouped, hstable⟩ := hchooses s.currentChanges
  obtain ⟨products, heq, hsome⟩ := Market.processChanges_frame it s.market
  refine ⟨{ market := s.market.processChanges it, currentChanges := [] }, ?_, rfl, ?_, ?_, ?_, ?_⟩
  · show s.step provider (.processChanges (chooses s.currentChanges)) = _
    unfold MarketState.step
    dsimp only
    rw [hvisit]
    dsimp only
    rw [if_pos hgrouped]
  · rw [heq]
  · rw [heq]
  · rw [heq]
    exact hsome p
  · rintro me hme picks it' product rfl hvisit' -
    cases hme
    obtain rfl : it = it' := Option.some.inj (hvisit.symm.trans hvisit')
    rw [hstable]

/-- Left to itself, the market thread leaves nothing. -/
theorem run_marketThread (provider : EndpointProvider) {p : String}
    {chooses : List (ProductChange FloatingP) → List Nat} (hchooses : VisitsInOrder chooses)
    {s : MarketState FloatingP} (hp : (s.market.products p).isSome = true) :
    ∃ s', (serverMachine provider).run s ((marketThread chooses s).map .market) = some s' ∧
      s'.currentChanges = [] ∧ s'.market.productChanges = [] ∧
      s'.market.feedClient = s.market.feedClient ∧
      StaysIn (serverMachine provider) p s ((marketThread chooses s).map .market) ∧
      (serverMachine provider).Guarded (DrainsKeepOrder p) s
        ((marketThread chooses s).map .market) := by
  obtain ⟨s₁, hstep₁, hcurrent₁, hpending₁, hfeed₁, hp₁, hg₁⟩ :=
    step_process provider p hchooses s
  let s₂ : MarketState FloatingP :=
    { market := { s₁.market with productChanges := [] }
      currentChanges := s₁.market.productChanges }
  have hstep₂ : s₁.serverStep provider (.market .takeChanges) = some s₂ := by
    show s₁.step provider .takeChanges = some s₂
    unfold MarketState.step
    dsimp only
    rw [hcurrent₁]
    rfl
  obtain ⟨s₃, hstep₃, hcurrent₃, hpending₃, hfeed₃, hp₃, hg₃⟩ :=
    step_process provider p hchooses s₂
  have hpicks : chooses s₂.currentChanges = chooses s.market.productChanges :=
    congrArg chooses hpending₁
  rw [hpicks] at hstep₃ hg₃
  have hp₁' : (s₁.market.products p).isSome = true := hp₁.trans hp
  have hrun : (serverMachine provider).run s ((marketThread chooses s).map .market) = some s₃ :=
    Option.bind_eq_some_iff.mpr ⟨s₁, hstep₁, Option.bind_eq_some_iff.mpr ⟨s₂, hstep₂,
      Option.bind_eq_some_iff.mpr ⟨s₃, hstep₃, rfl⟩⟩⟩
  refine ⟨s₃, hrun, hcurrent₃, hpending₃, hfeed₃.trans hfeed₁, ?_, ?_⟩
  · exact Machine.always_cons _ hp hstep₁ (Machine.always_cons _ hp₁' hstep₂
      (Machine.always_cons _ hp₁' hstep₃ (Machine.always_nil _ (hp₃.trans hp₁'))))
  · refine Machine.guarded_cons _ hg₁ hstep₁ (Machine.guarded_cons _ ?_ hstep₂
      (Machine.guarded_cons _ hg₃ hstep₃ (Machine.guarded_nil _ _ _)))
    rintro me hme picks it product rfl
    cases hme

/-! ## Catching up -/

section

omit [FloatingPoint FloatingP]

/-- Nothing arrives and nothing is answered meanwhile. -/
theorem messageThread_quiet (f : FeedState FloatingP) :
    arrivals (messageThread f) = [] ∧ answers (messageThread f) = [] := by
  unfold messageThread arrivals answers
  simp [List.filterMap_append, List.filterMap_replicate_of_none]

theorem sinceBook_messageThread (S : Nat) (queue : List Queued) (es : List FeedEvent)
    (f : FeedState FloatingP) :
    sinceBook S queue (es ++ messageThread f) = sinceBook S queue es := by
  rw [sinceBook_append, newerArrivals, (messageThread_quiet f).1]
  exact List.append_nil _

theorem FollowedWithoutHole.messageThread {S : Nat} {r : Json} {queue : List Queued}
    {es : List FeedEvent} (h : FollowedWithoutHole S r queue es) (f : FeedState FloatingP) :
    FollowedWithoutHole S r queue (es ++ QuoteServer.messageThread f) := by
  refine ⟨?_, ?_, ?_⟩
  · rw [sinceBook_messageThread]
    exact h.numbered
  · rw [answers_append, (messageThread_quiet f).2, List.append_nil]
    exact h.first
  · rw [sinceBook_messageThread]
    exact h.bound

theorem feedEvents_map_market (p : String) (mes : List (MarketEvent FloatingP)) :
    feedEvents p (mes.map .market) = [] := by
  induction mes with
  | nil => rfl
  | cons e mes ih =>
    rw [List.map_cons, ← List.singleton_append, feedEvents_append, feedEvents_market, ih]
    rfl

/-- The events of the feed product in all of this. -/
theorem feedEvents_threads (p : String) (es : List (ServerEvent FloatingP)) (fes : List FeedEvent)
    (mes : List (MarketEvent FloatingP)) :
    feedEvents p (es ++ (fes.map (.feed p) ++ mes.map .market)) = feedEvents p es ++ fes := by
  have hfeed : feedEvents p (fes.map (.feed p) : List (ServerEvent FloatingP)) = fes := by
    induction fes with
    | nil => rfl
    | cons e fes ih =>
      rw [List.map_cons, ← List.singleton_append, feedEvents_append, feedEvents_self, ih]
      rfl
  rw [feedEvents_append, feedEvents_append, hfeed, feedEvents_map_market, List.append_nil]

end

/-- What a feed product does takes no product away, and is no drain. -/
theorem quiet_feed (provider : EndpointProvider) {p : String} {s : MarketState FloatingP}
    (es : List FeedEvent) (hp : (s.market.products p).isSome = true) :
    StaysIn (serverMachine provider) p s (es.map (.feed p)) ∧
      (serverMachine provider).Guarded (DrainsKeepOrder p) s (es.map (.feed p)) := by
  constructor
  · refine (serverMachine provider).always_rule (G := fun _ e => ∃ fe, e = .feed p fe) hp ?_
      ((serverMachine provider).guarded_of_mem fun e he t => ?_)
    · rintro t e t' ht ⟨fe, rfl⟩ hstep
      have hserver : t.serverStep provider (.feed p fe) = some t' := hstep
      obtain ⟨f, f', pcs, -, -, -, -, rfl⟩ := serverStep_feed hserver
      exact ht
    · obtain ⟨fe, -, rfl⟩ := List.mem_map.mp he
      exact ⟨fe, rfl⟩
  · refine (serverMachine provider).guarded_of_mem fun e he t me hme => ?_
    obtain ⟨fe, -, rfl⟩ := List.mem_map.mp he
    cases hme

/-- **The server catches up by itself**, whatever was lost before. As in `caught_up`, the
product was created with nothing of it pending, the drains since keep the order of delivery,
and the messages above the number of the last answer follow it one by one. If the feed
product is live and can read what it holds, its message thread and the market's thread, left
to themselves, get to where the book of the product and the last one it published are those
of the answer and every message above it. -/
theorem catches_up {provider : EndpointProvider} {p c : String} {S : Nat} {r : Json}
    {pre before after : List (ServerEvent FloatingP)} {s₀ s₁ t s : MarketState FloatingP}
    {f₀ f : FeedState FloatingP}
    (hpre : (serverMachine provider).run {} pre = some s₀)
    (hnone : s₀.market.products p = none) (hnothing : s₀.waiting p = [])
    (hcreated : s₀.serverStep provider (.market (.subscribeProduct c p)) = some s₁)
    (hbefore : (serverMachine provider).run s₁ before = some t)
    (hafter : (serverMachine provider).run t after = some s)
    (hstays : StaysIn (serverMachine provider) p s₁ (before ++ after))
    (hg : (serverMachine provider).Guarded (DrainsKeepOrder p) s₁ (before ++ after))
    (hb : FirstBook (S + 1) S r) (hf₀ : t.market.feedClient.prodIdToListener p = some f₀)
    (hreq : f₀.product.requestingOrderbook = true)
    (hl : FollowedWithoutHole S r f₀.product.messageQueue (feedEvents p after))
    (hf : s.market.feedClient.prodIdToListener p = some f)
    (hlive : f.product.requestingOrderbook = false) (hcan : f.CanHandOver)
    {chooses : List (ProductChange FloatingP) → List Nat} (hchooses : VisitsInOrder chooses) :
    ∃ handed drained, (serverMachine provider).run s ((messageThread f).map (.feed p)) =
        some handed ∧
      (serverMachine provider).run handed ((marketThread chooses handed).map .market) =
        some drained ∧
      ∃ product pcs, drained.market.products p = some product ∧
        changesOf p (r :: sinceBook S f₀.product.messageQueue (feedEvents p after)) = .ok pcs ∧
        product.orderBook = OrderBook.replay {} pcs ∧
        product.publisher.published.getLast? = some product.orderBook := by
  have hpost := (Machine.run_append_some _).mpr ⟨t, hbefore, hafter⟩
  have hproduct : (s.market.products p).isSome = true :=
    hstays (before ++ after) [] s (List.append_nil _).symm hpost
  obtain ⟨-, -, product₀, arrived, product, batches, -, -, hfed⟩ :=
    fed_since hpre hnone hnothing hcreated hbefore hafter hstays hg hf₀ hf
  -- first the message thread, then the market's
  obtain ⟨f', hfrun, hdrained⟩ := run_messageThread hlive hcan
  obtain ⟨handed, hhanded, honly⟩ := run_feed provider hfed.registered hf hfrun
  have hproduct' : (handed.market.products p).isSome = true := by
    rw [honly.products]
    exact hproduct
  obtain ⟨drained, hdrain, hcurrent, hpending, hfeed, hstays', hg'⟩ :=
    run_marketThread provider hchooses hproduct'
  obtain ⟨hquiet, hnodrain⟩ := quiet_feed provider (messageThread f) hproduct
  have hrest := (Machine.run_append_some _).mpr ⟨handed, hhanded, hdrain⟩
  have hafter' := (Machine.run_append_some _).mpr ⟨s, hafter, hrest⟩
  have hstaysAll := Machine.Always.append hstays hpost (hquiet.append hhanded hstays')
  have hgAll := Machine.guarded_append _ hg hpost (Machine.guarded_append _ hnodrain hhanded hg')
  rw [List.append_assoc] at hstaysAll hgAll
  have hf' : drained.market.feedClient.prodIdToListener p = some f' := by
    rw [hfeed]
    exact honly.listener
  obtain ⟨hid, hsince, product₀, arrived, product, batches, hbook, hpublished, hfed'⟩ :=
    fed_since hpre hnone hnothing hcreated hbefore hafter' hstaysAll hgAll hf₀ hf'
  have hwaiting : drained.waiting p = [] := by
    rw [MarketState.waiting, hcurrent, hpending]
    rfl
  rw [feedEvents_threads] at hsince
  obtain ⟨pcs, hpcs, hexact⟩ := hfed'.exact hbook hpublished hid hb hreq
    (hl.messageThread f) hsince hdrained hwaiting
  rw [sinceBook_messageThread] at hpcs
  exact ⟨handed, drained, hhanded, hdrain, product, pcs, hfed'.inOrder.product_eq, hpcs, hexact⟩

/-- The book was answered after a gap, a message followed, and nobody has looked at them yet. -/
def bookAnswered : List (ServerEvent Int) :=
  [.feed "ETH-USD" (.complete (.json (bookMsg 4 [("100", "5", "A")] [("101", "4", "B")]))),
    .feed "ETH-USD" (.arrive (openMsg "buy" "D" "98" "2" 5))]

theorem run_bookAnswered : ∃ (s : MarketState Int) (f : FeedState Int),
    (serverMachine .ethUsd).run subscribed (bookPublished ++ gapArrives ++ bookAnswered) = some s ∧
      s.market.feedClient.prodIdToListener "ETH-USD" = some f ∧
      f.product.requestingOrderbook = false ∧ f.CanHandOver := by
  have hrun : ((serverMachine .ethUsd).run subscribed
      (bookPublished ++ gapArrives ++ bookAnswered)).any (fun s =>
        (s.market.feedClient.prodIdToListener "ETH-USD").any fun f =>
          !f.product.requestingOrderbook &&
            (@changesOf Int _ f.product.productId
              ((f.messages ++ f.product.messageQueue).map Queued.json)).isOk) = true := by
    decide +kernel
  obtain ⟨s, hs, hlistener⟩ := (Option.any_eq_true _ _).mp hrun
  obtain ⟨f, hf, hlive⟩ := (Option.any_eq_true _ _).mp hlistener
  rw [Bool.and_eq_true, Bool.not_eq_true'] at hlive
  refine ⟨s, f, hs, hf, hlive.1, ?_⟩
  unfold FeedState.CanHandOver
  cases hpcs : @changesOf Int _ f.product.productId
      ((f.messages ++ f.product.messageQueue).map Queued.json) with
  | ok pcs => exact ⟨pcs, rfl⟩
  | error e =>
    rw [hpcs] at hlive
    exact absurd hlive.2 Bool.false_ne_true

/-- After a lost message, with the new book and one message still to be looked at. -/
theorem catches_up_answered : ∃ (t s : MarketState Int) (f₀ f : FeedState Int)
    (chooses : List (ProductChange Int) → List Nat) (handed drained : MarketState Int),
    (serverMachine .ethUsd).run subscribed (bookPublished ++ gapArrives) = some t ∧
      t.market.feedClient.prodIdToListener "ETH-USD" = some f₀ ∧
      f₀.product.requestingOrderbook = true ∧
      (serverMachine .ethUsd).run t bookAnswered = some s ∧
      (serverMachine .ethUsd).run s ((messageThread f).map (.feed "ETH-USD")) = some handed ∧
      (serverMachine .ethUsd).run handed ((marketThread chooses handed).map .market) =
        some drained ∧
      ∃ product pcs, drained.market.products "ETH-USD" = some product ∧
        changesOf "ETH-USD" [bookMsg 4 [("100", "5", "A")] [("101", "4", "B")],
          openMsg "buy" "D" "98" "2" 5] = .ok pcs ∧
        product.orderBook = OrderBook.replay {} pcs ∧
        product.publisher.published.getLast? = some product.orderBook := by
  have hcontainer : ∃ chooses : List (ProductChange Int) → List Nat, VisitsInOrder chooses :=
    exists_visitsInOrder
  obtain ⟨chooses, hchooses⟩ := hcontainer
  obtain ⟨t, f₀, hbefore, hf₀, hreq, hqueue⟩ := run_gapArrives
  obtain ⟨s, f, hrun, hf, hlive, hcan⟩ := run_bookAnswered
  obtain ⟨t', ht', hafter⟩ := (Machine.run_append_some _).mp hrun
  obtain rfl : t = t' := Option.some.inj (hbefore.symm.trans ht')
  obtain ⟨hstays, hg⟩ : StaysIn (serverMachine .ethUsd) "ETH-USD" subscribed
        (bookPublished ++ gapArrives ++ bookAnswered) ∧
      (serverMachine .ethUsd).Guarded (DrainsKeepOrder "ETH-USD") subscribed
        (bookPublished ++ gapArrives ++ bookAnswered) := quiet_of_prefixes (by decide +kernel)
  have hl : FollowedWithoutHole 4 (bookMsg 4 [("100", "5", "A")] [("101", "4", "B")])
      f₀.product.messageQueue (feedEvents "ETH-USD" bookAnswered) := by
    rw [hqueue]
    exact followedWithoutHole_of_one rfl rfl rfl (by decide)
  have hpre : (serverMachine .ethUsd).run ({} : MarketState Int) [] = some {} := rfl
  have hcreated : MarketState.serverStep .ethUsd {}
      (.market (.subscribeProduct "1" "ETH-USD")) = some subscribed := rfl
  obtain ⟨handed, drained, hhanded, hdrained, product, pcs, hproduct, hpcs, hbook, hlast⟩ :=
    catches_up hpre rfl rfl hcreated hbefore hafter hstays hg firstBook_again hf₀ hreq hl hf hlive
      hcan hchooses
  rw [hqueue] at hpcs
  exact ⟨t, s, f₀, f, chooses, handed, drained, hbefore, hf₀, hreq, hafter, hhanded, hdrained,
    product, pcs, hproduct, hpcs, hbook, hlast⟩

/-! ## What is pending when a product is created -/

/-- Where the market is left to itself, a product has what was waiting, in order. -/
theorem inDeliveryOrder_of_market {provider : EndpointProvider} {p : String}
    {product₀ : Product FloatingP} {waiting₀ : List (ProductChange FloatingP)}
    {es : List (MarketEvent FloatingP)} {s₁ s : MarketState FloatingP}
    (h : InDeliveryOrder p product₀ waiting₀ [] s₁ product₀ [])
    (hstays : StaysIn (serverMachine provider) p s₁ (es.map .market))
    (hg : (serverMachine provider).Guarded (DrainsKeepOrder p) s₁ (es.map .market))
    (hrun : (serverMachine provider).run s₁ (es.map .market) = some s) :
    ∃ product batches, InDeliveryOrder p product₀ waiting₀ [] s product batches := by
  have hown : (serverMachine provider).Guarded
      (fun t e => DrainsKeepOrder p t e ∧ ∃ me, e = .market me) s₁ (es.map .market) := by
    intro pre e post t hes ht
    have hmem : e ∈ es.map ServerEvent.market :=
      hes ▸ List.mem_append_right _ List.mem_cons_self
    obtain ⟨me, -, rfl⟩ := List.mem_map.mp hmem
    exact ⟨hg pre _ post t hes ht, me, rfl⟩
  refine (serverMachine provider).history_rule
    (I := fun es s => StaysIn (serverMachine provider) p s₁ es →
      ∃ product batches, InDeliveryOrder p product₀ waiting₀ [] s product batches)
    ?_ ?_ hown hrun hstays
  · exact fun _ => ⟨product₀, [], h⟩
  · rintro es t e t' ht ih ⟨hkeeps, me, rfl⟩ hstep hstays
    obtain ⟨product, batches, hin⟩ := ih hstays.init
    obtain ⟨hmarket, hnot⟩ := serverStep_market hstep
    obtain ⟨product', batches', hin'⟩ :=
      inDeliveryOrder_step hin (hkeeps me rfl) (hstays.last ht hstep) hmarket
    rw [delivered_other hnot] at hin'
    exact ⟨product', batches', hin'⟩

/-- **What is pending is published.** Wherever a change of a product is pending when a
subscription creates it, the market thread alone gets to where a book is published that its
new feed product did not pass on. So this condition of `published_from_current` can be
dropped nowhere. -/
theorem pending_published {provider : EndpointProvider} {p c : String}
    {s₀ s₁ : MarketState FloatingP} (hs₀ : Registered s₀.market)
    (hnone : s₀.market.products p = none) (hpending : s₀.waiting p ≠ [])
    (hcreated : s₀.serverStep provider (.market (.subscribeProduct c p)) = some s₁) :
    ∃ (post : List (ServerEvent FloatingP)) (s : MarketState FloatingP)
      (product : Product FloatingP),
      (serverMachine provider).run s₁ post = some s ∧
      StaysIn (serverMachine provider) p s₁ post ∧ feedEvents p post = [] ∧
      (serverMachine provider).Guarded (DrainsKeepOrder p) s₁ post ∧
      s.market.products p = some product ∧
      s.market.feedClient.prodIdToListener p = some (.initial p) ∧
      ¬ FromCurrent (.initial p) product := by
  have hcontainer : ∃ chooses : List (ProductChange FloatingP) → List Nat,
      VisitsInOrder chooses := exists_visitsInOrder
  obtain ⟨chooses, hchooses⟩ := hcontainer
  obtain ⟨product₀, hbook, hpublished, hlistener, hin⟩ :=
    inDeliveryOrder_created hs₀ hnone hcreated
  have hproduct : (s₁.market.products p).isSome = true := by
    rw [hin.product_eq]
    rfl
  obtain ⟨s, hrun, hcurrent, hchanges, hfeed, hstays, hg⟩ :=
    run_marketThread provider hchooses hproduct
  obtain ⟨product, batches, hend⟩ := inDeliveryOrder_of_market hin hstays hg hrun
  refine ⟨_, s, product, hrun, hstays, feedEvents_map_market p _, hg, hend.product_eq,
    hfeed ▸ hlistener, fun hfrom => ?_⟩
  -- all that was pending was drained, so there is a batch, and a book published after it
  have hnothing : s.waiting p = [] := by
    rw [MarketState.waiting, hcurrent, hchanges]
    rfl
  have hdrained : batches.flatten = s₀.waiting p := by
    have hall := hend.drained
    rw [hnothing, List.append_nil] at hall
    exact hall.trans (List.append_nil _)
  cases batches with
  | nil => exact hpending hdrained.symm
  | cons batch batches =>
    have hbooks := hend.published
    rw [hpublished, List.nil_append] at hbooks
    obtain ⟨reset, later, -, hinit, -⟩ :=
      hfrom.published _ (by rw [hbooks]; exact List.mem_cons_self)
    exact absurd (List.prefix_nil.mp hinit) (List.cons_ne_nil _ _)

end QuoteServer
