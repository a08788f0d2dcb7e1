import QuoteServer.Isolation

/-!
# The trades of a product

A trade takes a shorter way than a quote: no book, no sequence number and no batch. The
websocket thread builds it from the message and publishes it within one call of
`onMessageReceived`, whatever the feed product made of the message. So while a product has
a publisher, it publishes the trade of each of its messages, in the order they are received,
exactly once (`trades_published`): a message that is received twice is published twice, and
one that the feed product takes for too old is published as well.

What is sent for a trade is the message it makes of itself. An order that was received with
a price and no amount makes none: its place in the account says that what is sent there is
undefined (`Trade.generateMessage_eq_none_iff`).
-/

namespace QuoteServer

open EventMachine KeyedBatch MessageToTrade

variable {FloatingP : Type} [FloatingPoint FloatingP]

/-! ## Trades and messages -/

/-- The trade of a message for the product, if it has one. -/
def tradeOf (p : String) (jmsg : Json) : List (Trade FloatingP) :=
  if isTradeMsg jmsg then
    match getTrade jmsg with
    | .ok (some trade) => if trade.getProductId = p then [trade] else []
    | _ => []
  else []

/-- The trade of an event for the product: messages without a `type` are left alone. -/
def SystemEvent.trade (parse : List UInt8 → Except ParseFault Json) (p : String) :
    SystemEvent FloatingP → List (Trade FloatingP)
  | .receive message =>
    match parse message with
    | .ok jmsg => if jmsg.contains "type" then tradeOf p jmsg else []
    | .error _ => []
  | _ => []

/-- The trades of a product among the messages received, in order. -/
def tradesReceived (parse : List UInt8 → Except ParseFault Json) (p : String)
    (es : List (SystemEvent FloatingP)) : List (Trade FloatingP) :=
  es.flatMap (SystemEvent.trade parse p)

/-- The trade of the message under way. -/
def SystemState.underWay (p : String) (s : SystemState FloatingP) : List (Trade FloatingP) :=
  s.handling.elim [] (tradeOf p)

theorem tradeOf_of_getTrade {p : String} {jmsg : Json} {trade : Trade FloatingP}
    (htrade : isTradeMsg jmsg = true) (hget : getTrade jmsg = .ok (some trade)) :
    tradeOf p jmsg = if trade.getProductId = p then [trade] else [] := by
  unfold tradeOf
  rw [if_pos htrade, hget]

theorem tradesReceived_append (parse : List UInt8 → Except ParseFault Json) (p : String)
    (es fs : List (SystemEvent FloatingP)) :
    tradesReceived parse p (es ++ fs) = tradesReceived parse p es ++ tradesReceived parse p fs :=
  List.flatMap_append

theorem tradesReceived_singleton (parse : List UInt8 → Except ParseFault Json) (p : String)
    (e : SystemEvent FloatingP) : tradesReceived parse p [e] = e.trade parse p :=
  List.flatMap_singleton _ _

/-! ## One step -/

/-- The publisher is the one that was there before, and has published some more trades. -/
structure PublishedMore (publisher publisher' : TradePublisher FloatingP)
    (trades : List (Trade FloatingP)) : Prop where
  endpoint : publisher'.endpoint = publisher.endpoint
  published : publisher'.published = publisher.published ++ trades.map Trade.generateMessage

omit [FloatingPoint FloatingP] in
theorem PublishedMore.refl (publisher : TradePublisher FloatingP) :
    PublishedMore publisher publisher [] :=
  ⟨rfl, (List.append_nil _).symm⟩

omit [FloatingPoint FloatingP] in
theorem PublishedMore.trans {publisher publisher' publisher'' : TradePublisher FloatingP}
    {trades trades' : List (Trade FloatingP)} (h : PublishedMore publisher publisher' trades)
    (h' : PublishedMore publisher' publisher'' trades') :
    PublishedMore publisher publisher'' (trades ++ trades') where
  endpoint := h'.endpoint.trans h.endpoint
  published := by
    rw [h'.published, h.published, List.append_assoc, List.map_append]

/-- What a step makes of a publisher that is there before and after it: `now` are the trades
published in it. -/
def KeepsAccount (parse : List UInt8 → Except ParseFault Json) (p : String)
    (s s' : SystemState FloatingP) (e : SystemEvent FloatingP) : Prop :=
  ∀ publisher publisher', s.server.market.tradePublishers p = some publisher →
    s'.server.market.tradePublishers p = some publisher' →
    ∃ now, PublishedMore publisher publisher' now ∧
      now ++ s'.underWay p = s.underWay p ++ e.trade parse p

section

variable {parse : List UInt8 → Except ParseFault Json} {provider : EndpointProvider} {p : String}
  {s s' : SystemState FloatingP}

/-- A step that leaves the publisher and the message under way. -/
theorem KeepsAccount.of_same {e : SystemEvent FloatingP}
    (hpublisher : s'.server.market.tradePublishers p = s.server.market.tradePublishers p)
    (hhandling : s'.handling = s.handling) (htrade : e.trade parse p = []) :
    KeepsAccount parse p s s' e := by
  intro publisher publisher' hp hp'
  obtain rfl : publisher = publisher' := Option.some.inj (hp.symm.trans (hpublisher.symm.trans hp'))
  refine ⟨[], .refl publisher, ?_⟩
  rw [htrade, List.append_nil, SystemState.underWay, hhandling]
  rfl

/-- A message is received: its trade is under way. -/
theorem keepsAccount_receive {message : List UInt8} (h : s.receive parse message = some s') :
    KeepsAccount parse p s s' (.receive message) := by
  obtain ⟨hhandling, ⟨rfl, htype⟩ | ⟨jmsg, client, hparse, htype, -, rfl⟩⟩ :=
    SystemState.receive_cases h
  · refine .of_same rfl rfl ?_
    unfold SystemEvent.trade
    dsimp only
    cases hparse : parse message with
    | error e => rfl
    | ok jmsg =>
      dsimp only
      rw [htype jmsg hparse, if_neg Bool.false_ne_true]
  · intro publisher publisher' hp hp'
    obtain rfl : publisher = publisher' := Option.some.inj (hp.symm.trans hp')
    refine ⟨[], .refl publisher, ?_⟩
    have hbefore : s.underWay p = [] := by
      rw [SystemState.underWay, hhandling]
      rfl
    have htrade : (SystemEvent.receive message : SystemEvent FloatingP).trade parse p =
        tradeOf p jmsg := by
      unfold SystemEvent.trade
      dsimp only
      rw [hparse]
      dsimp only
      rw [if_pos htype]
    rw [hbefore, htrade]
    rfl

/-- The trade under way is published. -/
theorem keepsAccount_passTrade (h : s.passTrade = some s') :
    KeepsAccount parse p s s' .passTrade := by
  obtain ⟨jmsg, hhandling, ⟨hnone, rfl⟩ | ⟨trade, htrade, hget, rfl⟩⟩ :=
    SystemState.passTrade_cases h
  · intro publisher publisher' hp hp'
    obtain rfl : publisher = publisher' := Option.some.inj (hp.symm.trans hp')
    refine ⟨[], .refl publisher, ?_⟩
    have hbefore : s.underWay p = [] := by
      rw [SystemState.underWay, hhandling]
      show tradeOf p jmsg = []
      rw [tradeOf, hnone, if_neg Bool.false_ne_true]
    rw [hbefore]
    rfl
  · intro publisher publisher' hp hp'
    have hbefore : s.underWay p = if trade.getProductId = p then [trade] else [] := by
      rw [SystemState.underWay, hhandling]
      exact tradeOf_of_getTrade htrade hget
    have hafter : (s.server.market.onTrade trade).tradePublishers p = some publisher' := hp'
    rw [onTrade_publisher] at hafter
    rw [hbefore]
    by_cases hown : p = trade.getProductId
    · rw [if_pos hown, hp] at hafter
      obtain rfl := Option.some.inj hafter
      rw [if_pos hown.symm]
      exact ⟨[trade], ⟨rfl, rfl⟩, rfl⟩
    · rw [if_neg hown, hp] at hafter
      obtain rfl := Option.some.inj hafter
      rw [if_neg (Ne.symm hown)]
      exact ⟨[], .refl publisher, rfl⟩

/-- The market's calls replace no publisher that stays, and its thread touches none. -/
theorem keepsAccount_market {e : MarketEvent FloatingP} (h : s.marketStep provider e = some s') :
    KeepsAccount parse p s s' (.market e) := by
  intro publisher publisher' hp hp'
  have hsame : s'.server.market.tradePublishers p = s.server.market.tradePublishers p ∧
      s'.handling = s.handling := by
    cases e with
    | subscribeProduct c q =>
      obtain ⟨m, hm, rfl⟩ := SystemState.marketStep_call h rfl rfl
      refine ⟨?_, rfl⟩
      rcases Market.subscribeProduct_cases hm with ⟨_, -, rfl⟩ | ⟨-, _, -, rfl⟩ <;> rfl
    | subscribeTrades q =>
      obtain ⟨m, hm, rfl⟩ := SystemState.marketStep_call h rfl rfl
      refine ⟨?_, rfl⟩
      by_cases hq : p = q
      · subst hq
        rw [subscribeTrades_there (by rw [hp]; rfl) hm]
      · exact (sameEntries_subscribeTrades hq hm).tradePublisher
    | unsubscribe c q =>
      obtain ⟨m, hm, rfl⟩ := SystemState.marketStep_call h rfl rfl
      refine ⟨?_, rfl⟩
      by_cases hq : p = q
      · subst hq
        obtain ⟨_, -, ⟨-, rfl⟩ | ⟨-, rfl⟩⟩ := Market.unsubscribe_cases hm
        · -- the publisher would be gone
          have hgone : (Function.update s.server.market.tradePublishers p none) p =
            some publisher' := hp'
          rw [Function.update_self] at hgone
          cases hgone
        · rfl
      · exact (sameEntries_unsubscribe hq hm).tradePublisher
    | onProductChange pc =>
      obtain ⟨-, -, -, hnochange, -⟩ := SystemState.marketStep_cases h
      exact absurd rfl (hnochange pc)
    | onTrade trade => cases h
    | takeChanges =>
      obtain ⟨server, hstep, -, -, -, rfl⟩ := SystemState.marketStep_cases h
      obtain ⟨-, rfl⟩ := step_takeChanges hstep
      exact ⟨rfl, rfl⟩
    | processChanges picks =>
      obtain ⟨server, hstep, -, -, -, rfl⟩ := SystemState.marketStep_cases h
      obtain ⟨it, -, -, rfl⟩ := step_processChanges hstep
      obtain ⟨products, hframe, -⟩ := Market.processChanges_frame it s.server.market
      refine ⟨?_, rfl⟩
      show (s.server.market.processChanges it).tradePublishers p = _
      rw [hframe]
  exact KeepsAccount.of_same hsame.1 hsame.2 rfl publisher publisher' hp hp'

/-- **Every step keeps the account** of a product with a publisher. -/
theorem keepsAccount_step {e : SystemEvent FloatingP} (h : s.step parse provider e = some s') :
    KeepsAccount parse p s s' e := by
  cases e with
  | receive message => exact keepsAccount_receive h
  | passTrade => exact keepsAccount_passTrade h
  | feed q e =>
    obtain ⟨f, f', pcs, -, -, -, -, -, rfl⟩ := SystemState.feedStep_cases h
    exact .of_same rfl rfl rfl
  | market e => exact keepsAccount_market h

end

/-! ## Whole runs -/

/-- A product has a trade publisher in every state of the run. -/
def KeepsPublisher (parse : List UInt8 → Except ParseFault Json) (provider : EndpointProvider)
    (p : String) (s : SystemState FloatingP) (es : List (SystemEvent FloatingP)) : Prop :=
  (systemMachine parse provider).Always
    (fun s => (s.server.market.tradePublishers p).isSome = true) s es

/-- **Every trade is published once, in order**, whatever the feed products, the market
thread, the clients and the other products do meanwhile: the trades published since then,
and the trade under way if there is one, are the one that was under way and the trades of
the messages received since, and what is sent for each of them is the message it makes of
itself. The publisher stays at its endpoint. -/
theorem trades_published {parse : List UInt8 → Except ParseFault Json}
    {provider : EndpointProvider} {p : String} {s₀ s : SystemState FloatingP}
    {es : List (SystemEvent FloatingP)} {publisher₀ : TradePublisher FloatingP}
    (hpublisher : s₀.server.market.tradePublishers p = some publisher₀)
    (hstays : KeepsPublisher parse provider p s₀ es)
    (hrun : (systemMachine parse provider).run s₀ es = some s) :
    ∃ publisher trades, s.server.market.tradePublishers p = some publisher ∧
      publisher.endpoint = publisher₀.endpoint ∧
      publisher.published = publisher₀.published ++ trades.map Trade.generateMessage ∧
      trades ++ s.underWay p = s₀.underWay p ++ tradesReceived parse p es := by
  have haccount : ∃ publisher trades, s.server.market.tradePublishers p = some publisher ∧
      PublishedMore publisher₀ publisher trades ∧
      trades ++ s.underWay p = s₀.underWay p ++ tradesReceived parse p es := by
    refine (systemMachine parse provider).history_rule
      (I := fun es s => KeepsPublisher parse provider p s₀ es →
        ∃ publisher trades, s.server.market.tradePublishers p = some publisher ∧
          PublishedMore publisher₀ publisher trades ∧
          trades ++ s.underWay p = s₀.underWay p ++ tradesReceived parse p es)
      ?_ ?_ (Machine.guarded_true _ s₀ es) hrun hstays
    · intro _
      exact ⟨publisher₀, [], hpublisher, .refl publisher₀, (List.append_nil _).symm⟩
    · intro es s e s' hpre ih _ hstep hstays
      obtain ⟨publisher, trades, hp, hmore, htrades⟩ := ih hstays.init
      obtain ⟨publisher', hp'⟩ := Option.isSome_iff_exists.mp (hstays.last hpre hstep)
      obtain ⟨now, hnow, hstepped⟩ := keepsAccount_step hstep publisher publisher' hp hp'
      refine ⟨publisher', trades ++ now, hp', hmore.trans hnow, ?_⟩
      rw [tradesReceived_append, tradesReceived_singleton, ← List.append_assoc, ← htrades,
        List.append_assoc, hstepped, List.append_assoc]
  obtain ⟨publisher, trades, hp, hmore, htrades⟩ := haccount
  exact ⟨publisher, trades, hp, hmore.endpoint, hmore.published, htrades⟩

/-- The system after the first subscription to `ETH-USD`. -/
def servingEth : SystemState Int :=
  ((systemMachine parseMatch bothOnline).run {}
    [.market (.subscribeProduct "1" "ETH-USD"), .market (.subscribeTrades "ETH-USD")]).getD {}

/-- A message in a run: what the parser makes of it is all that matters. -/
theorem step_receive {parse : List UInt8 → Except ParseFault Json} {provider : EndpointProvider}
    {s s' : SystemState Int} {message : List UInt8} {jmsg : Json} (h : parse message = .ok jmsg)
    (hstep : s.receive (fun _ => .ok jmsg) [] = some s') :
    (systemMachine parse provider).step s (.receive message) = some s' := by
  rw [← hstep]
  show s.receive parse message = s.receive _ _
  unfold SystemState.receive
  rw [h]

/-- What is sent for the match in these runs. -/
def matchSent : Option (Qs.QsMessage Int) :=
  some ⟨.trade, { type := .tradeMatch, orderId := "B", productId := "ETH-USD", size := some 1 }⟩

/-- The same trade is received twice, the second time too old for the book. -/
theorem trades_published_twice : ∃ s : SystemState Int,
    (systemMachine parseMatch bothOnline).run servingEth
        [.receive (matchBytes "ETH-USD"), .passTrade, .receive (matchBytes "ETH-USD"),
          .passTrade] = some s ∧
      ∃ publisher, s.server.market.tradePublishers "ETH-USD" = some publisher ∧
        publisher.endpoint = "127.0.0.1:93000" ∧
        publisher.published = [matchSent, matchSent] := by
  let M : Machine (SystemState Int) _ := systemMachine parseMatch bothOnline
  obtain ⟨s, hrun, hstays⟩ : ∃ s, M.run servingEth
      [.receive (matchBytes "ETH-USD"), .passTrade, .receive (matchBytes "ETH-USD"),
        .passTrade] = some s ∧
      KeepsPublisher parseMatch bothOnline "ETH-USD" servingEth
        [.receive (matchBytes "ETH-USD"), .passTrade, .receive (matchBytes "ETH-USD"),
          .passTrade] :=
    M.exists_always_cons (step_receive parseMatch_eth rfl) rfl <|
      M.exists_always_cons rfl rfl <|
      M.exists_always_cons (step_receive parseMatch_eth rfl) rfl <|
      M.exists_always_cons rfl rfl ⟨_, rfl, M.always_nil rfl⟩
  have hdone : s.handling = none := by
    have hpassed : M.run servingEth ([.receive (matchBytes "ETH-USD"), .passTrade,
        .receive (matchBytes "ETH-USD")] ++ [.passTrade]) = some s := hrun
    obtain ⟨s', -, hlast⟩ := M.run_snoc.mp hpassed
    obtain ⟨_, -, ⟨-, rfl⟩ | ⟨_, -, -, rfl⟩⟩ := SystemState.passTrade_cases hlast <;> rfl
  obtain ⟨publisher, trades, hpublisher, hendpoint, hpublished, htrades⟩ :=
    trades_published rfl hstays hrun
  refine ⟨s, hrun, publisher, hpublisher, hendpoint, ?_⟩
  -- each of the two messages has one trade, and none is under way at the end
  have htrade : (SystemEvent.receive (matchBytes "ETH-USD") : SystemEvent Int).trade parseMatch
      "ETH-USD" = [.tradeMatch "B" 1 "ETH-USD"] := by
    unfold SystemEvent.trade
    dsimp only
    rw [parseMatch_eth]
    rfl
  rw [SystemState.underWay, hdone, Option.elim_none, List.append_nil, tradesReceived,
    List.flatMap_cons, List.flatMap_cons, List.flatMap_cons, htrade] at htrades
  rw [hpublished, htrades]
  rfl

end QuoteServer
