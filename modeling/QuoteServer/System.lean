import QuoteServer.Coinbase.FeedMessages
import QuoteServer.Registries

/-!
# The system: from the bytes of the feed to the products

`systemMachine` is the server with the websocket in front of it. A message arrives as
bytes; `CoinbaseFeedClient::onMessageReceived` gives it to its product in one critical
section and passes its trade to the market in another, and holds `m_mutexFeedData`
throughout, so that no other message and no subscription at the exchange comes between
the two. That they make up one call of `onMessageReceived` is `onMessageReceived_passTrade`,
and `onMessageReceived_done` for a message without a second section. `main` sets the market
as the trade listener before anything else.

The state has records of what went where: the changes passed on to the market, the
batches the market thread visited, and the trades passed to a publisher.
-/

namespace QuoteServer

open EventMachine KeyedBatch MessageToTrade

variable {FloatingP : Type}

structure SystemState (FloatingP : Type) where
  server : MarketState FloatingP := {}
  /-- The message whose trade is still to be passed on. -/
  handling : Option Json := none
  /-- Everything passed on to `Market::onProductChange`, in order. -/
  passedOn : List (ProductChange FloatingP) := []
  /-- Every batch that `processProductChanges` visited, in the order of the visit. -/
  batches : List (List (ProductChange FloatingP)) := []
  /-- Every trade passed to a `TradePublisher`, in order. -/
  traded : List (Trade FloatingP) := []

inductive SystemEvent (FloatingP : Type) where
  /-- The websocket thread receives a message and gives it to its product. -/
  | receive (message : List UInt8)
  /-- It passes the trade of the message on, if it has one. -/
  | passTrade
  | feed (prodId : String) (e : FeedEvent)
  | market (e : MarketEvent FloatingP)

/-- Whether a critical section of the market asks for `m_mutexFeedData`. -/
def Market.takesFeedMutex (m : Market FloatingP) : MarketEvent FloatingP → Bool
  | .subscribeProduct _ prodId => (m.products prodId).isNone
  | .unsubscribe clientId prodId =>
    match m.products prodId with
    | some product => (product.removeClient clientId).hasClients == 0
    | none => false
  | _ => false

/-- The batch that a step of the market visits, if it visits one. -/
def MarketState.visited (s : MarketState FloatingP) :
    MarketEvent FloatingP → List (List (ProductChange FloatingP))
  | .processChanges picks => (visit picks s.currentChanges).toList
  | _ => []

namespace SystemState

variable [FloatingPoint FloatingP]

omit [FloatingPoint FloatingP] in
def receive (parse : List UInt8 → Except ParseFault Json) (s : SystemState FloatingP)
    (message : List UInt8) : Option (SystemState FloatingP) :=
  if s.handling.isSome then none
  else
    match parse message with
    | .error .parseError => some s
    | .error .outOfRange => none
    | .ok jmsg =>
      if jmsg.contains "type" then
        match s.server.market.feedClient.routeMessage jmsg with
        | .ok client =>
          some { s with
            server := { s.server with market := { s.server.market with feedClient := client } }
            handling := some jmsg }
        | .error _ => none
      else some s

def passTrade (s : SystemState FloatingP) : Option (SystemState FloatingP) :=
  match s.handling with
  | none => none
  | some jmsg =>
    if isTradeMsg jmsg then
      match getTrade jmsg with
      | .ok (some trade) =>
        some { s with
          server := { s.server with market := s.server.market.onTrade trade }
          handling := none
          traded :=
            if (s.server.market.tradePublishers trade.getProductId).isSome then s.traded ++ [trade]
            else s.traded }
      | .ok none => some { s with handling := none }
      | .error _ => none
    else some { s with handling := none }

/-- A message reaches a feed product through `receive` only. -/
def feedStep (provider : EndpointProvider) (s : SystemState FloatingP) (prodId : String) :
    FeedEvent → Option (SystemState FloatingP)
  | .arrive _ => none
  | e =>
    (s.server.serverStep provider (.feed prodId e)).map fun server =>
      { s with
        server := server
        passedOn := s.passedOn ++
          server.market.productChanges.drop s.server.market.productChanges.length }

/-- A trade reaches the market through `passTrade` only. -/
def marketStep (provider : EndpointProvider) (s : SystemState FloatingP) :
    MarketEvent FloatingP → Option (SystemState FloatingP)
  | .onTrade _ => none
  | e =>
    if s.server.market.takesFeedMutex e && s.handling.isSome then none
    else
      (s.server.serverStep provider (.market e)).map fun server =>
        { s with server := server, batches := s.batches ++ s.server.visited e }

def step (parse : List UInt8 → Except ParseFault Json) (provider : EndpointProvider)
    (s : SystemState FloatingP) : SystemEvent FloatingP → Option (SystemState FloatingP)
  | .receive message => s.receive parse message
  | .passTrade => s.passTrade
  | .feed prodId e => s.feedStep provider prodId e
  | .market e => s.marketStep provider e

end SystemState

def systemMachine [FloatingPoint FloatingP] (parse : List UInt8 → Except ParseFault Json)
    (provider : EndpointProvider) : Machine (SystemState FloatingP) (SystemEvent FloatingP) where
  step := SystemState.step parse provider

/-! ## What a step is -/

namespace SystemState

section

variable {parse : List UInt8 → Except ParseFault Json} {s s' : SystemState FloatingP}

/-- The state after a message was routed. -/
def routed (s : SystemState FloatingP) (client : CoinbaseFeedClient FloatingP) (jmsg : Json) :
    SystemState FloatingP :=
  { s with
    server := { s.server with market := { s.server.market with feedClient := client } }
    handling := some jmsg }

/-- A message that is received either has no effect at all or has a type and is routed. -/
theorem receive_cases {message : List UInt8} (h : s.receive parse message = some s') :
    s.handling = none ∧
      ((s' = s ∧ ∀ jmsg, parse message = .ok jmsg → jmsg.contains "type" = false) ∨
        ∃ jmsg client, parse message = .ok jmsg ∧ jmsg.contains "type" = true ∧
          s.server.market.feedClient.routeMessage jmsg = .ok client ∧
          s' = s.routed client jmsg) := by
  unfold receive at h
  cases hhandling : s.handling with
  | some jmsg =>
    rw [hhandling] at h
    cases h
  | none =>
    rw [hhandling, Option.isSome_none, if_neg Bool.false_ne_true] at h
    refine ⟨rfl, ?_⟩
    cases hparse : parse message with
    | error e =>
      rw [hparse] at h
      cases e with
      | parseError =>
        cases h
        exact .inl ⟨rfl, fun jmsg hjmsg => nomatch hjmsg⟩
      | outOfRange => cases h
    | ok jmsg =>
      rw [hparse] at h
      dsimp only at h
      cases htype : jmsg.contains "type" with
      | false =>
        rw [htype, if_neg Bool.false_ne_true] at h
        cases h
        refine .inl ⟨rfl, fun j hj => ?_⟩
        cases hj
        exact htype
      | true =>
        rw [htype, if_pos rfl] at h
        cases hroute : s.server.market.feedClient.routeMessage jmsg with
        | error e =>
          rw [hroute] at h
          cases h
        | ok client =>
          rw [hroute] at h
          cases h
          exact .inr ⟨jmsg, client, rfl, htype, hroute, rfl⟩

end

variable [FloatingPoint FloatingP]

section

variable {provider : EndpointProvider} {s s' : SystemState FloatingP}

/-- The state after a trade was passed on. -/
def tradedOn (s : SystemState FloatingP) (trade : Trade FloatingP) : SystemState FloatingP :=
  { s with
    server := { s.server with market := s.server.market.onTrade trade }
    handling := none
    traded :=
      if (s.server.market.tradePublishers trade.getProductId).isSome then s.traded ++ [trade]
      else s.traded }

/-- The handling of a message ends with its trade, if it has one. -/
theorem passTrade_cases (h : s.passTrade = some s') :
    ∃ jmsg, s.handling = some jmsg ∧
      ((isTradeMsg jmsg = false ∧ s' = { s with handling := none }) ∨
        ∃ trade, isTradeMsg jmsg = true ∧ getTrade jmsg = .ok (some trade) ∧
          s' = s.tradedOn trade) := by
  unfold passTrade at h
  cases hhandling : s.handling with
  | none =>
    rw [hhandling] at h
    cases h
  | some jmsg =>
    rw [hhandling] at h
    dsimp only at h
    refine ⟨jmsg, rfl, ?_⟩
    cases htrade : isTradeMsg jmsg with
    | false =>
      rw [htrade, if_neg Bool.false_ne_true] at h
      cases h
      exact .inl ⟨rfl, rfl⟩
    | true =>
      rw [htrade, if_pos rfl] at h
      cases hget : (getTrade jmsg : Except Fault (Option (Trade FloatingP))) with
      | error e =>
        rw [hget] at h
        cases h
      | ok trade =>
        obtain ⟨trade, rfl⟩ := Option.isSome_iff_exists.mp (getTrade_isSome htrade hget)
        rw [hget] at h
        cases h
        exact .inr ⟨trade, rfl, rfl, rfl⟩

/-- A step of a feed product, and what it passes on. -/
theorem feedStep_cases {prodId : String} {e : FeedEvent}
    (h : s.feedStep provider prodId e = some s') :
    ∃ f f' pcs, s.server.market.feedClient.prodIdToListener prodId = some f ∧
      f.step e = some f' ∧ f'.emitted = f.emitted ++ pcs ∧
      (∀ pc ∈ pcs, pc.getProductId = f.product.productId) ∧
      s.server.serverStep provider (.feed prodId e) = some s'.server ∧
      s' = { s with
        server := { s.server with
          market := { s.server.market.setListener prodId f' with
            productChanges := s.server.market.productChanges ++ pcs } }
        passedOn := s.passedOn ++ pcs } := by
  have hserver : ∃ server, s.server.serverStep provider (.feed prodId e) = some server ∧
      s' = { s with
        server := server
        passedOn := s.passedOn ++
          server.market.productChanges.drop s.server.market.productChanges.length } := by
    cases e with
    | arrive m => cases h
    | _ =>
      obtain ⟨server, hserver, rfl⟩ := Option.map_eq_some_iff.mp h
      exact ⟨server, hserver, rfl⟩
  obtain ⟨server, hserver, rfl⟩ := hserver
  obtain ⟨f, f', pcs, hf, hstep, hemitted, hids, rfl⟩ := serverStep_feed hserver
  refine ⟨f, f', pcs, hf, hstep, hemitted, hids, hserver, ?_⟩
  dsimp only
  rw [List.drop_left]

/-- A step of the market. -/
theorem marketStep_cases {e : MarketEvent FloatingP} (h : s.marketStep provider e = some s') :
    ∃ server, s.server.step provider e = some server ∧
      s.server.serverStep provider (.market e) = some server ∧
      (∀ pc, e ≠ .onProductChange pc) ∧ (∀ trade, e ≠ .onTrade trade) ∧
      s' = { s with server := server, batches := s.batches ++ s.server.visited e } := by
  have hserver : ∃ server, s.server.serverStep provider (.market e) = some server ∧
      (∀ trade, e ≠ .onTrade trade) ∧
      s' = { s with server := server, batches := s.batches ++ s.server.visited e } := by
    cases e with
    | onTrade trade => cases h
    | _ =>
      unfold marketStep at h
      dsimp only at h
      split at h
      · cases h
      · obtain ⟨server, hserver, rfl⟩ := Option.map_eq_some_iff.mp h
        exact ⟨server, hserver, fun trade ht => (nomatch ht), rfl⟩
  obtain ⟨server, hserver, hne, rfl⟩ := hserver
  obtain ⟨hstep, hnochange⟩ := serverStep_market hserver
  exact ⟨server, hstep, hserver, hnochange, hne, rfl⟩

end

/-- **Every step of the system is a step of the server**, or none to it. -/
theorem server_of_step {parse : List UInt8 → Except ParseFault Json}
    {provider : EndpointProvider} {s s' : SystemState FloatingP} {e : SystemEvent FloatingP}
    (h : s.step parse provider e = some s') :
    s'.server = s.server ∨ ∃ d, s.server.serverStep provider d = some s'.server := by
  cases e with
  | receive message =>
    obtain ⟨-, ⟨rfl, -⟩ | ⟨jmsg, client, -, -, hroute, rfl⟩⟩ := receive_cases h
    · exact .inl rfl
    · have hrouted := routeMessage_routed s.server.market.feedClient jmsg
      rw [hroute] at hrouted
      cases hrouted with
      | unnumbered | unknown => exact .inl rfl
      | received prodId listener product hsequence hproduct hlistener hreceived =>
        -- the message arrives at the feed product
        refine .inr ⟨.feed prodId (.arrive jmsg), ?_⟩
        unfold MarketState.serverStep
        dsimp only
        rw [hlistener]
        dsimp only
        rw [FeedState.step, hreceived]
        show some (s.server.deliver prodId listener { listener with product := product }) = _
        rw [MarketState.deliver, List.drop_length]
        rfl
  | passTrade =>
    obtain ⟨jmsg, -, ⟨-, rfl⟩ | ⟨trade, -, -, rfl⟩⟩ := passTrade_cases h
    · exact .inl rfl
    · exact .inr ⟨.market (.onTrade trade), rfl⟩
  | feed prodId e =>
    obtain ⟨f, f', pcs, -, -, -, -, hserver, -⟩ := feedStep_cases h
    exact .inr ⟨_, hserver⟩
  | market e =>
    obtain ⟨server, -, hserver, -, -, rfl⟩ := marketStep_cases h
    exact .inr ⟨_, hserver⟩

/-- In the system too, products and feed products go together. -/
theorem registered_system {parse : List UInt8 → Except ParseFault Json}
    {provider : EndpointProvider} {s s' : SystemState FloatingP} {e : SystemEvent FloatingP}
    (hs : Registered s.server.market) (h : s.step parse provider e = some s') :
    Registered s'.server.market := by
  rcases server_of_step h with hsame | ⟨d, hstep⟩
  · rw [hsame]
    exact hs
  · exact registered_step hs hstep

/-! ## The two critical sections are `onMessageReceived` -/

section

variable {parse : List UInt8 → Except ParseFault Json} {message : List UInt8}
  {s s₁ s' : SystemState FloatingP} {r : FeedReceiver FloatingP}

/-- A message that is done with at once has no effect in `onMessageReceived` either. -/
theorem onMessageReceived_done (h : s.receive parse message = some s')
    (hdone : s'.handling = none) :
    s' = s ∧ FeedReceiver.onMessageReceived parse message r = .ok () r := by
  obtain ⟨hhandling, ⟨rfl, htype⟩ | ⟨jmsg, client, -, -, -, rfl⟩⟩ := receive_cases h
  · refine ⟨rfl, ?_⟩
    unfold receive at h
    rw [hhandling, Option.isSome_none, if_neg Bool.false_ne_true] at h
    cases hparse : parse message with
    | ok jmsg =>
      exact FeedReceiver.onMessageReceived_of_ok
        (FeedReceiver.handleMessage_noType hparse (htype jmsg hparse))
    | error e =>
      cases e with
      | parseError =>
        rw [FeedReceiver.onMessageReceived, FeedReceiver.handleMessage_notJson hparse]
        rfl
      | outOfRange =>
        rw [hparse] at h
        cases h
  · cases hdone

/-- A message that is received and whose trade is passed on: together that is what
`onMessageReceived` does. -/
theorem onMessageReceived_passTrade (hclient : r.client = s.server.market.feedClient)
    (hlistener : r.hasTradeListener = true) (h : s.receive parse message = some s₁)
    (hpass : s₁.passTrade = some s') :
    ∃ r' trades, FeedReceiver.onMessageReceived parse message r = .ok () r' ∧
      r'.client = s'.server.market.feedClient ∧ r'.trades = r.trades ++ trades ∧
      s'.server.market = trades.foldl Market.onTrade s₁.server.market := by
  obtain ⟨jmsg, hjmsg, hcases⟩ := passTrade_cases hpass
  obtain ⟨hhandling, ⟨rfl, -⟩ | ⟨jmsg', client, hparse, htype, hroute, rfl⟩⟩ := receive_cases h
  · rw [hhandling] at hjmsg
    cases hjmsg
  · cases hjmsg
    have hmessage : FeedReceiver.handleMessage parse message r =
        FeedReceiver.passTrade jmsg { r with client := client } := by
      rw [FeedReceiver.handleMessage_typed hparse htype, hclient, hroute]
    rcases hcases with ⟨htrade, rfl⟩ | ⟨trade, htrade, hget, rfl⟩
    · refine ⟨{ r with client := client }, [], FeedReceiver.onMessageReceived_of_ok ?_, rfl,
        (List.append_nil r.trades).symm, rfl⟩
      rw [hmessage]
      exact FeedReceiver.passTrade_none (by rw [htrade, Bool.false_and])
    · refine ⟨{ r with client := client, trades := r.trades ++ [trade] }, [trade],
        FeedReceiver.onMessageReceived_of_ok ?_, ?_, rfl, rfl⟩
      · rw [hmessage, FeedReceiver.passTrade_some (by rw [htrade]; exact hlistener), hget]
        rfl
      · exact (Market.onTrade_frame (s.routed client jmsg).server.market trade).2.2.symm

end

end SystemState

end QuoteServer
