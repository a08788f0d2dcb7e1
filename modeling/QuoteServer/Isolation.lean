import Mathlib.Data.Multiset.Basic
import QuoteServer.Lib.Projection
import QuoteServer.System

/-!
# Products are isolated from one another

The system keeps the products of all subscriptions in the same tables, one multimap holds
the pending changes of all of them, and one thread passes on the trades of all of them.
`productMachine` is what one product would be alone: its feed product, its clients and
trade publisher, its own pending changes, and what was done with them. The system is this
machine to each of its products (`productProjection`). So runs that agree on what
concerns a product agree on what becomes of it (`products_isolated`).
-/

namespace QuoteServer

open EventMachine KeyedBatch MessageToTrade

variable {FloatingP : Type}

/-! ## One product alone -/

/-- What the system holds of one product. -/
@[ext] structure ProductView (FloatingP : Type) where
  listener : Option (FeedState FloatingP)
  clients : Option (Finset String)
  tradePublisher : Option (TradePublisher FloatingP)
  /-- Its changes among the pending ones, in the order of delivery. -/
  pending : List (ProductChange FloatingP)
  /-- Its changes among those the market thread took. -/
  current : List (ProductChange FloatingP)
  /-- The message being handled, if it is for the product. -/
  handling : Option Json
  passedOn : List (ProductChange FloatingP)
  batches : List (Multiset (ProductChange FloatingP))
  traded : List (Trade FloatingP)

/-- What concerns one product. -/
inductive ProductEvent where
  | message (jmsg : Json)
  | passTrade
  | feed (e : FeedEvent)
  | subscribeProduct (clientId : String)
  | subscribeTrades
  | unsubscribe (clientId : String)
  | takeChanges
  | processChanges

namespace ProductView

/-- The feed product after a message: a message with a `sequence` reaches it, if it is
there. -/
def receive (listener : Option (FeedState FloatingP)) (jmsg : Json) :
    Except Fault (Option (FeedState FloatingP)) :=
  if jmsg.contains "sequence" then
    match listener with
    | none => return none
    | some f => do
      let product ← f.product.onMessageReceived jmsg
      return some { f with product := product }
  else return listener

def message (v : ProductView FloatingP) (jmsg : Json) : Option (ProductView FloatingP) :=
  if jmsg.contains "type" then
    (receive v.listener jmsg).toOption.map fun listener =>
      { v with listener := listener, handling := some jmsg }
  else some v

variable [FloatingPoint FloatingP]

def passTrade (v : ProductView FloatingP) : Option (ProductView FloatingP) :=
  match v.handling with
  | none => none
  | some jmsg =>
    if isTradeMsg jmsg then
      match getTrade jmsg with
      | .ok (some trade) =>
        some { v with
          tradePublisher := v.tradePublisher.map (·.publish trade)
          handling := none
          traded := if v.tradePublisher.isSome then v.traded ++ [trade] else v.traded }
      | .ok none => some { v with handling := none }
      | .error _ => none
    else some { v with handling := none }

def feed (v : ProductView FloatingP) (e : FeedEvent) : Option (ProductView FloatingP) :=
  match v.listener with
  | none => none
  | some f =>
    (f.step e).map fun f' =>
      { v with
        listener := some f'
        pending := v.pending ++ f'.emitted.drop f.emitted.length
        passedOn := v.passedOn ++ f'.emitted.drop f.emitted.length }

omit [FloatingPoint FloatingP]

def subscribeProduct (prodId : String) (v : ProductView FloatingP) : ProductView FloatingP :=
  match v.clients with
  | some _ => v
  | none => { v with clients := some ∅, listener := some (v.listener.getD (.initial prodId)) }

def subscribeTrades (provider : EndpointProvider) (prodId : String) (v : ProductView FloatingP) :
    Option (ProductView FloatingP) :=
  match v.tradePublisher with
  | some _ => some v
  | none =>
    (TradePublisher.create provider prodId).toOption.map fun publisher =>
      { v with tradePublisher := some publisher }

def unsubscribe (v : ProductView FloatingP) (clientId : String) :
    Option (ProductView FloatingP) :=
  match v.clients with
  | none => none
  | some clients =>
    if clients.erase clientId = ∅ then
      some { v with listener := none, clients := none, tradePublisher := none }
    else some { v with clients := some (clients.erase clientId) }

def takeChanges (v : ProductView FloatingP) : ProductView FloatingP :=
  { v with pending := [], current := v.pending }

/-- In whatever order they are visited, the changes taken are the next batch. -/
def processChanges (v : ProductView FloatingP) : ProductView FloatingP :=
  { v with current := [], batches := v.batches ++ [(v.current : Multiset _)] }

end ProductView

def productMachine [FloatingPoint FloatingP] (provider : EndpointProvider) (prodId : String) :
    Machine (ProductView FloatingP) ProductEvent where
  step
    | v, .message jmsg => v.message jmsg
    | v, .passTrade => v.passTrade
    | v, .feed e => v.feed e
    | v, .subscribeProduct _ => some (v.subscribeProduct prodId)
    | v, .subscribeTrades => v.subscribeTrades provider prodId
    | v, .unsubscribe clientId => v.unsubscribe clientId
    | v, .takeChanges => some v.takeChanges
    | v, .processChanges => some v.processChanges

/-! ## What the system is to a product -/

/-- The message is for the product. -/
def isFor (p : String) (jmsg : Json) : Bool := jmsg.stringMember "product_id" = some p

/-- The trades for a product. -/
def tradesFor (p : String) (trades : List (Trade FloatingP)) : List (Trade FloatingP) :=
  forKey Trade.getProductId p trades

/-- What the state holds of a product. -/
def SystemState.view (p : String) (s : SystemState FloatingP) : ProductView FloatingP where
  listener := s.server.market.feedClient.prodIdToListener p
  clients := (s.server.market.products p).map Product.clients
  tradePublisher := s.server.market.tradePublishers p
  pending := changesFor p s.server.market.productChanges
  current := changesFor p s.server.currentChanges
  handling := s.handling.filter (isFor p)
  passedOn := changesFor p s.passedOn
  batches := s.batches.map fun batch => (changesFor p batch : Multiset _)
  traded := tradesFor p s.traded

/-- What an event is to a product, `none` if it does not concern it. -/
def SystemState.label (parse : List UInt8 → Except ParseFault Json) (p : String)
    (s : SystemState FloatingP) : SystemEvent FloatingP → Option ProductEvent
  | .receive message =>
    ((parse message).toOption.filter (isFor p)).map .message
  | .passTrade => (s.handling.filter (isFor p)).map fun _ => .passTrade
  | .feed q e => if q = p then some (.feed e) else none
  | .market (.subscribeProduct clientId q) =>
    if q = p then some (.subscribeProduct clientId) else none
  | .market (.subscribeTrades q) => if q = p then some .subscribeTrades else none
  | .market (.unsubscribe clientId q) => if q = p then some (.unsubscribe clientId) else none
  | .market .takeChanges => some .takeChanges
  | .market (.processChanges _) => some .processChanges
  | .market (.onProductChange _) => none
  | .market (.onTrade _) => none

/-! ## What an operation leaves of a product -/

section

variable {p : String}

/-- A market that holds the same of the product. -/
theorem view_market {s : SystemState FloatingP} {m : Market FloatingP}
    (hsame : SameEntries p s.server.market m)
    (hpending : m.productChanges = s.server.market.productChanges) :
    SystemState.view p { s with server := { s.server with market := m } } = s.view p := by
  ext1
  · exact hsame.listener
  · exact congrArg (Option.map Product.clients) hsame.product
  · exact hsame.tradePublisher
  · exact congrArg (changesFor p) hpending
  all_goals rfl

/-- Changes of another product. -/
theorem changesFor_other {q : String} {pcs : List (ProductChange FloatingP)} (hq : q ≠ p)
    (h : ∀ pc ∈ pcs, pc.getProductId = q) : changesFor p pcs = [] :=
  forKey_eq_nil.mpr fun pc hpc heq => hq ((h pc hpc).symm.trans heq)

theorem changesFor_own {pcs : List (ProductChange FloatingP)}
    (h : ∀ pc ∈ pcs, pc.getProductId = p) : changesFor p pcs = pcs := forKey_eq_self.mpr h

/-- A trade touches the publisher of its product only. -/
theorem onTrade_publisher (m : Market FloatingP) (trade : Trade FloatingP) (q : String) :
    (m.onTrade trade).tradePublishers q =
      if q = trade.getProductId then (m.tradePublishers q).map (·.publish trade)
      else m.tradePublishers q := by
  rw [Market.onTrade]
  by_cases hq : q = trade.getProductId
  · subst hq
    rw [if_pos rfl]
    cases hp : m.tradePublishers trade.getProductId with
    | none => exact hp
    | some publisher => exact Function.update_self ..
  · rw [if_neg hq]
    cases hp : m.tradePublishers trade.getProductId with
    | none => rfl
    | some publisher => exact Function.update_of_ne hq ..

/-- A trade message is for the product of its trade. -/
theorem isFor_trade [FloatingPoint FloatingP] {jmsg : Json} {trade : Trade FloatingP}
    (h : getTrade jmsg = .ok (some trade)) :
    isFor p jmsg = true ↔ p = trade.getProductId := by
  obtain ⟨v, hv, hstring⟩ := bind_eq_ok.mp (getTrade_productId h)
  have hmember : jmsg.stringMember "product_id" = some trade.getProductId := by
    cases v with
    | string s =>
      cases hstring
      exact Json.stringMember_eq_some.mpr hv
    | _ => cases hstring
  rw [isFor, decide_eq_true_iff, hmember]
  exact ⟨fun heq => (Option.some.inj heq).symm, fun heq => congrArg some heq.symm⟩

theorem onProductChanges_clients [Sub FloatingP] (product : Product FloatingP)
    (pcs : List (ProductChange FloatingP)) :
    (product.onProductChanges pcs).clients = product.clients := by
  by_cases h : pcs = []
  · subst h
    rfl
  · rw [Product.onProductChanges_of_ne_nil product h]

/-- Visiting changes touches the clients of no product. -/
theorem processChanges_clients [Sub FloatingP] {m : Market FloatingP}
    {it : List (ProductChange FloatingP)} (hgrouped : Grouped ProductChange.getProductId it) :
    ((m.processChanges it).products p).map Product.clients =
      (m.products p).map Product.clients := by
  cases hp : m.products p with
  | some product =>
    rw [Market.processChanges_product hp hgrouped]
    exact congrArg some (onProductChanges_clients product _)
  | none =>
    obtain ⟨products, heq, hsome⟩ := Market.processChanges_frame it m
    have hnone := hsome p
    rw [hp] at hnone
    rw [heq]
    show (products p).map Product.clients = none
    rw [Option.isNone_iff_eq_none.mp (Option.isSome_eq_false_iff.mp hnone), Option.map_none]

end

/-! ## Events that do not concern the product -/

namespace SystemState

section

variable {parse : List UInt8 → Except ParseFault Json} {p : String} {s s' : SystemState FloatingP}

/-- A message that is kept if it is for the product. -/
theorem filter_isFor_map {α : Type} (jmsg : Json) (f : Json → α) :
    ((some jmsg).filter (isFor p)).map f = if isFor p jmsg then some (f jmsg) else none := by
  cases hfor : isFor p jmsg with
  | true => rw [Option.filter_some_pos hfor, if_pos rfl, Option.map_some]
  | false => rw [Option.filter_some_neg (by rw [hfor]), if_neg Bool.false_ne_true, Option.map_none]

theorem label_receive {message : List UInt8} {jmsg : Json} (h : parse message = .ok jmsg) :
    s.label parse p (.receive message) = if isFor p jmsg then some (.message jmsg) else none := by
  show ((parse message).toOption.filter (isFor p)).map ProductEvent.message = _
  rw [h]
  exact filter_isFor_map jmsg ProductEvent.message

theorem label_passTrade {jmsg : Json} (h : s.handling = some jmsg) :
    s.label parse p .passTrade = if isFor p jmsg then some .passTrade else none := by
  show (s.handling.filter (isFor p)).map (fun _ => ProductEvent.passTrade) = _
  rw [h]
  exact filter_isFor_map jmsg fun _ => ProductEvent.passTrade

theorem not_isFor_of_label {jmsg : Json} {a : ProductEvent}
    (h : (if isFor p jmsg then some a else none) = none) : isFor p jmsg = false := by
  split at h
  · cases h
  · exact Bool.eq_false_iff.mpr ‹_›

theorem label_other {q : String} {a : ProductEvent}
    (h : (if q = p then some a else none) = none) : p ≠ q := by
  rintro rfl
  rw [if_pos rfl] at h
  cases h

theorem label_own {q : String} {a b : ProductEvent}
    (h : (if q = p then some b else none) = some a) : q = p ∧ b = a := by
  split at h
  · exact ⟨‹_›, Option.some.inj h⟩
  · cases h

/-- A message for another product reaches another feed product, if any. -/
theorem hidden_receive {message : List UInt8} (h : s.receive parse message = some s')
    (hlabel : s.label parse p (.receive message) = none) : s'.view p = s.view p := by
  obtain ⟨hhandling, ⟨rfl, -⟩ | ⟨jmsg, client, hparse, -, hroute, rfl⟩⟩ := receive_cases h
  · rfl
  · have hnot : isFor p jmsg = false :=
      not_isFor_of_label ((label_receive hparse).symm.trans hlabel)
    have hlistener : client.prodIdToListener p =
        s.server.market.feedClient.prodIdToListener p := by
      have hrouted := routeMessage_routed s.server.market.feedClient jmsg
      rw [hroute] at hrouted
      cases hrouted with
      | unnumbered | unknown => rfl
      | received prodId listener product hsequence hproduct =>
        refine s.server.market.feedClient.setListener_ne _ ?_
        rintro rfl
        rw [isFor, hproduct] at hnot
        simp at hnot
    ext1
    · exact hlistener
    case handling =>
      show (some jmsg).filter (isFor p) = s.handling.filter (isFor p)
      rw [hhandling, Option.filter_some_neg (by rw [hnot]), Option.filter_none]
    all_goals rfl

end

section

variable [FloatingPoint FloatingP] {parse : List UInt8 → Except ParseFault Json}
  {provider : EndpointProvider} {p : String} {s s' : SystemState FloatingP}

theorem hidden_passTrade (h : s.passTrade = some s')
    (hlabel : s.label parse p .passTrade = none) : s'.view p = s.view p := by
  obtain ⟨jmsg, hhandling, hcases⟩ := passTrade_cases h
  have hnot : isFor p jmsg = false :=
    not_isFor_of_label ((label_passTrade hhandling).symm.trans hlabel)
  have hdone : none = s.handling.filter (isFor p) := by
    rw [hhandling, Option.filter_some_neg (by rw [hnot])]
  rcases hcases with ⟨-, rfl⟩ | ⟨trade, -, hget, rfl⟩
  · ext1
    case handling => exact hdone
    all_goals rfl
  · have hother : p ≠ trade.getProductId := by
      intro heq
      rw [(isFor_trade hget).mpr heq] at hnot
      cases hnot
    obtain ⟨hproducts, hpending, hfeed⟩ := s.server.market.onTrade_frame trade
    ext1
    · exact congrArg (fun client => CoinbaseFeedClient.prodIdToListener client p) hfeed
    · exact congrArg (fun products => (products p).map Product.clients) hproducts
    · exact (onTrade_publisher ..).trans (if_neg hother)
    · exact congrArg (changesFor p) hpending
    · rfl
    · exact hdone
    · rfl
    · rfl
    · show tradesFor p (if _ then s.traded ++ [trade] else s.traded) = tradesFor p s.traded
      split
      · rw [tradesFor, forKey_append, forKey_cons_ne [] (Ne.symm hother)]
        exact List.append_nil _
      · rfl

theorem hidden_feed {q : String} {e : FeedEvent} (hs : Registered s.server.market)
    (h : s.feedStep provider q e = some s') (hq : p ≠ q) : s'.view p = s.view p := by
  obtain ⟨f, f', pcs, hf, -, -, hids, -, rfl⟩ := feedStep_cases h
  have hnone : changesFor p pcs = [] := by
    refine changesFor_other (Ne.symm hq) fun pc hpc => ?_
    rw [hids pc hpc, hs.ids q f hf]
  ext1
  · exact setListener_listener_ne _ _ hq
  case pending =>
    show changesFor p (s.server.market.productChanges ++ pcs) = _
    rw [changesFor_append, hnone, List.append_nil]
    rfl
  case passedOn =>
    show changesFor p (s.passedOn ++ pcs) = _
    rw [changesFor_append, hnone, List.append_nil]
    rfl
  all_goals rfl

/-- What a call of the client service does, for whatever product. -/
theorem marketStep_call {e : MarketEvent FloatingP} {x : Except Fault (Market FloatingP)}
    (h : s.marketStep provider e = some s')
    (hcall : s.server.step provider e = x.toOption.map fun m => { s.server with market := m })
    (hvisited : s.server.visited e = []) :
    ∃ m, x = .ok m ∧ s' = { s with server := { s.server with market := m } } := by
  obtain ⟨server, hstep, -, -, -, rfl⟩ := marketStep_cases h
  rw [hcall] at hstep
  obtain ⟨m, hm, rfl⟩ := toOption_map_eq_some.mp hstep
  refine ⟨m, hm, ?_⟩
  rw [hvisited, List.append_nil]

/-- The market's calls for another product, and the changes and trades that come another
way. -/
theorem hidden_market {e : MarketEvent FloatingP} (h : s.marketStep provider e = some s')
    (hlabel : s.label parse p (.market e) = none) : s'.view p = s.view p := by
  cases e with
  | subscribeProduct c q =>
    obtain ⟨m, hm, rfl⟩ := marketStep_call h rfl rfl
    refine view_market (sameEntries_subscribeProduct (label_other hlabel) hm) ?_
    rcases Market.subscribeProduct_cases hm with ⟨_, -, rfl⟩ | ⟨-, _, -, rfl⟩ <;> rfl
  | subscribeTrades q =>
    obtain ⟨m, hm, rfl⟩ := marketStep_call h rfl rfl
    refine view_market (sameEntries_subscribeTrades (label_other hlabel) hm) ?_
    exact (Market.untouched_subscribeTrades hm).2
  | unsubscribe c q =>
    obtain ⟨m, hm, rfl⟩ := marketStep_call h rfl rfl
    refine view_market (sameEntries_unsubscribe (label_other hlabel) hm) ?_
    obtain ⟨_, -, ⟨-, rfl⟩ | ⟨-, rfl⟩⟩ := Market.unsubscribe_cases hm <;> rfl
  | onProductChange pc =>
    obtain ⟨-, -, -, hnochange, -⟩ := marketStep_cases h
    exact absurd rfl (hnochange pc)
  | onTrade trade => cases h
  | takeChanges => cases hlabel
  | processChanges picks => cases hlabel

end

/-! ## Events that concern the product -/

section

variable [FloatingPoint FloatingP] {parse : List UInt8 → Except ParseFault Json}
  {provider : EndpointProvider} {p : String} {s s' : SystemState FloatingP}

omit [FloatingPoint FloatingP] in
theorem shown_receive {message : List UInt8} {jmsg : Json} (h : s.receive parse message = some s')
    (hparse : parse message = .ok jmsg) (hfor : isFor p jmsg = true) :
    (s.view p).message jmsg = some (s'.view p) := by
  have hproduct : jmsg.stringMember "product_id" = some p := of_decide_eq_true hfor
  obtain ⟨hhandling, ⟨rfl, htype⟩ | ⟨jmsg', client, hparse', htype, hroute, rfl⟩⟩ := receive_cases h
  · rw [ProductView.message, htype jmsg hparse]
    rfl
  · rw [hparse] at hparse'
    cases hparse'
    have hreceive : ProductView.receive (s.view p).listener jmsg =
        .ok (client.prodIdToListener p) := by
      show ProductView.receive (s.server.market.feedClient.prodIdToListener p) jmsg = _
      have hrouted := routeMessage_routed s.server.market.feedClient jmsg
      rw [hroute] at hrouted
      unfold ProductView.receive
      cases hrouted with
      | unnumbered hsequence =>
        rw [hsequence, if_neg Bool.false_ne_true]
        rfl
      | unknown prodId hsequence hproduct' hlistener =>
        obtain rfl : p = prodId := Option.some.inj (hproduct.symm.trans hproduct')
        rw [hsequence, if_pos rfl, hlistener]
        rfl
      | received prodId listener product hsequence hproduct' hlistener hreceived =>
        obtain rfl : p = prodId := Option.some.inj (hproduct.symm.trans hproduct')
        rw [hsequence, if_pos rfl, hlistener,
          CoinbaseFeedClient.setListener_self]
        exact bind_eq_ok.mpr ⟨product, hreceived, rfl⟩
    rw [ProductView.message, htype, if_pos rfl, hreceive]
    refine congrArg some ?_
    ext1
    case handling =>
      show some jmsg = (some jmsg).filter (isFor p)
      rw [Option.filter_some_pos hfor]
    all_goals rfl

theorem shown_passTrade {jmsg : Json} (h : s.passTrade = some s')
    (hhandling : s.handling = some jmsg) (hfor : isFor p jmsg = true) :
    (s.view p).passTrade = some (s'.view p) := by
  have hview : (s.view p).handling = some jmsg := by
    show s.handling.filter (isFor p) = some jmsg
    rw [hhandling, Option.filter_some_pos hfor]
  obtain ⟨jmsg', hhandling', hcases⟩ := passTrade_cases h
  rw [hhandling] at hhandling'
  cases hhandling'
  rw [ProductView.passTrade, hview]
  dsimp only
  rcases hcases with ⟨hnone, rfl⟩ | ⟨trade, htrade, hget, rfl⟩
  · rw [hnone]
    rfl
  · have hown : p = trade.getProductId := (isFor_trade hget).mp hfor
    obtain ⟨hproducts, hpending, hfeed⟩ := s.server.market.onTrade_frame trade
    rw [htrade, if_pos rfl, hget]
    refine congrArg some ?_
    ext1
    · exact (congrArg (fun client => CoinbaseFeedClient.prodIdToListener client p) hfeed).symm
    · exact (congrArg (fun products => (products p).map Product.clients) hproducts).symm
    · exact ((onTrade_publisher ..).trans (if_pos hown)).symm
    · exact (congrArg (changesFor p) hpending).symm
    · rfl
    · rfl
    · rfl
    · rfl
    · show (if (s.server.market.tradePublishers p).isSome then tradesFor p s.traded ++ [trade]
        else tradesFor p s.traded) = tradesFor p (if _ then s.traded ++ [trade] else s.traded)
      rw [hown]
      split
      · rw [tradesFor, tradesFor, forKey_append, forKey_cons_self [] rfl]
        rfl
      · rfl

theorem shown_feed {e : FeedEvent} (hs : Registered s.server.market)
    (h : s.feedStep provider p e = some s') : (s.view p).feed e = some (s'.view p) := by
  obtain ⟨f, f', pcs, hf, hstep, hemitted, hids, -, rfl⟩ := feedStep_cases h
  have hown : changesFor p pcs = pcs := by
    refine changesFor_own fun pc hpc => ?_
    rw [hids pc hpc, hs.ids p f hf]
  have hlistener : (s.view p).listener = some f := hf
  rw [ProductView.feed, hlistener]
  dsimp only
  rw [hstep, Option.map_some, hemitted, List.drop_left]
  refine congrArg some ?_
  ext1
  · exact (setListener_listener_self ..).symm
  case pending =>
    show changesFor p s.server.market.productChanges ++ pcs =
      changesFor p (s.server.market.productChanges ++ pcs)
    rw [changesFor_append, hown]
  case passedOn =>
    show changesFor p s.passedOn ++ pcs = changesFor p (s.passedOn ++ pcs)
    rw [changesFor_append, hown]
  all_goals rfl

omit [FloatingPoint FloatingP] in
theorem shown_subscribeProduct {m : Market FloatingP} {c : String}
    (h : s.server.market.subscribeProduct provider c p = .ok m) :
    (s.view p).subscribeProduct p =
      SystemState.view p { s with server := { s.server with market := m } } := by
  unfold ProductView.subscribeProduct
  rcases Market.subscribeProduct_cases h with ⟨product, hp, rfl⟩ | ⟨hp, endpoint, -, rfl⟩
  · have hclients : (s.view p).clients = some product.clients := congrArg (Option.map _) hp
    rw [hclients]
    rfl
  · have hclients : (s.view p).clients = none := congrArg (Option.map _) hp
    rw [hclients]
    ext1
    · exact (s.server.market.feedClient.subscribe_listener_self p).symm
    · show some ∅ = (Function.update s.server.market.products p _ p).map Product.clients
      rw [Function.update_self]
      rfl
    all_goals rfl

omit [FloatingPoint FloatingP] in
theorem shown_subscribeTrades {m : Market FloatingP}
    (h : s.server.market.subscribeTrades provider p = .ok m) :
    (s.view p).subscribeTrades provider p =
      some (SystemState.view p { s with server := { s.server with market := m } }) := by
  unfold ProductView.subscribeTrades
  rcases Market.subscribeTrades_cases h with ⟨hthere, rfl⟩ | ⟨hnone, endpoint, hend, rfl⟩
  · obtain ⟨publisher, hp⟩ := Option.isSome_iff_exists.mp hthere
    have hpublisher : (s.view p).tradePublisher = some publisher := hp
    rw [hpublisher]
  · have hpublisher : (s.view p).tradePublisher = none := hnone
    rw [hpublisher]
    dsimp only
    rw [TradePublisher.create, hend]
    refine congrArg some ?_
    ext1
    case tradePublisher =>
      show some _ = Function.update s.server.market.tradePublishers p _ p
      rw [Function.update_self]
    all_goals rfl

omit [FloatingPoint FloatingP] in
theorem shown_unsubscribe {m : Market FloatingP} {c : String}
    (h : s.server.market.unsubscribe c p = .ok m) :
    (s.view p).unsubscribe c =
      some (SystemState.view p { s with server := { s.server with market := m } }) := by
  obtain ⟨product, hp, ⟨hempty, rfl⟩ | ⟨hleft, rfl⟩⟩ := Market.unsubscribe_cases h
  all_goals
    have hclients : (s.view p).clients = some product.clients := congrArg (Option.map _) hp
    unfold ProductView.unsubscribe
    rw [hclients]
    dsimp only
  · rw [if_pos hempty]
    refine congrArg some ?_
    ext1
    · exact (s.server.market.feedClient.unsubscribe_listener_self p).symm
    · show none = (Function.update s.server.market.products p none p).map Product.clients
      rw [Function.update_self]
      rfl
    · show none = Function.update s.server.market.tradePublishers p none p
      rw [Function.update_self]
    all_goals rfl
  · rw [if_neg hleft]
    refine congrArg some ?_
    ext1
    case clients =>
      show some (product.clients.erase c) =
        (Function.update s.server.market.products p _ p).map Product.clients
      rw [Function.update_self]
      rfl
    all_goals rfl

theorem shown_takeChanges (h : s.marketStep provider .takeChanges = some s') :
    (s.view p).takeChanges = s'.view p := by
  obtain ⟨server, hstep, -, -, -, rfl⟩ := marketStep_cases h
  obtain ⟨-, rfl⟩ := step_takeChanges hstep
  ext1
  case batches =>
    show _ = (s.batches ++ []).map _
    rw [List.append_nil]
    rfl
  all_goals rfl

/-- The batch has the same changes of the product whatever the order of the visit. -/
theorem shown_processChanges {picks : List Nat}
    (h : s.marketStep provider (.processChanges picks) = some s') :
    (s.view p).processChanges = s'.view p := by
  obtain ⟨server, hstep, -, -, -, rfl⟩ := marketStep_cases h
  obtain ⟨it, hvisit, hvisits, rfl⟩ := step_processChanges hstep
  obtain ⟨products, hframe, -⟩ := Market.processChanges_frame it s.server.market
  have hclients := processChanges_clients (m := s.server.market) (p := p) hvisits.grouped
  have hperm : ((changesFor p it : List _) : Multiset (ProductChange FloatingP)) =
      changesFor p s.server.currentChanges := Multiset.coe_eq_coe.mpr (forKey_perm hvisits.perm)
  rw [MarketState.visited, hvisit]
  ext1
  case listener => rw [hframe]; rfl
  case clients => exact hclients.symm
  case tradePublisher => rw [hframe]; rfl
  case pending => rw [hframe]; rfl
  case batches =>
    show _ = (s.batches ++ [it]).map _
    rw [List.map_append, List.map_singleton, hperm]
    rfl
  all_goals rfl

/-- The market's calls for the product, and the steps of its thread. -/
theorem shown_market {e : MarketEvent FloatingP} {a : ProductEvent}
    (h : s.marketStep provider e = some s') (hlabel : s.label parse p (.market e) = some a) :
    (productMachine provider p).step (s.view p) a = some (s'.view p) := by
  cases e with
  | subscribeProduct c q =>
    obtain ⟨rfl, rfl⟩ := label_own hlabel
    obtain ⟨m, hm, hs'⟩ := marketStep_call h rfl rfl
    rw [hs', ← shown_subscribeProduct hm]
    rfl
  | subscribeTrades q =>
    obtain ⟨rfl, rfl⟩ := label_own hlabel
    obtain ⟨m, hm, hs'⟩ := marketStep_call h rfl rfl
    rw [hs', ← shown_subscribeTrades hm]
    rfl
  | unsubscribe c q =>
    obtain ⟨rfl, rfl⟩ := label_own hlabel
    obtain ⟨m, hm, hs'⟩ := marketStep_call h rfl rfl
    rw [hs', ← shown_unsubscribe hm]
    rfl
  | takeChanges =>
    cases hlabel
    exact congrArg some (shown_takeChanges h)
  | processChanges picks =>
    cases hlabel
    exact congrArg some (shown_processChanges h)
  | onProductChange pc => cases hlabel
  | onTrade trade => cases hlabel

end

end SystemState

/-! ## The system is the product's own machine to it -/

variable [FloatingPoint FloatingP]

/-- **The projection to a product.** -/
def productProjection (parse : List UInt8 → Except ParseFault Json) (provider : EndpointProvider)
    (p : String) :
    Projection (systemMachine parse provider : Machine (SystemState FloatingP) _)
      (productMachine provider p : Machine (ProductView FloatingP) _) where
  view := SystemState.view p
  label := SystemState.label parse p
  Inv s := Registered s.server.market
  kept _ _ _ := SystemState.registered_system
  hidden s e s' hs h hlabel := by
    cases e with
    | receive message => exact SystemState.hidden_receive h hlabel
    | passTrade =>
      have hlabel' : s.label parse p .passTrade = none := hlabel
      exact SystemState.hidden_passTrade h hlabel'
    | feed q e =>
      exact SystemState.hidden_feed hs h (SystemState.label_other hlabel)
    | market e => exact SystemState.hidden_market h hlabel
  shown s e s' a hs h hlabel := by
    cases e with
    | receive message =>
      obtain ⟨jmsg, hjmsg, rfl⟩ := Option.map_eq_some_iff.mp hlabel
      obtain ⟨hparse, hfor⟩ := Option.filter_eq_some_iff.mp hjmsg
      exact SystemState.shown_receive h (toOption_eq_some.mp hparse) hfor
    | passTrade =>
      obtain ⟨jmsg, hjmsg, rfl⟩ := Option.map_eq_some_iff.mp hlabel
      obtain ⟨hhandling, hfor⟩ := Option.filter_eq_some_iff.mp hjmsg
      exact SystemState.shown_passTrade h hhandling hfor
    | feed q e =>
      obtain ⟨rfl, rfl⟩ := SystemState.label_own hlabel
      exact SystemState.shown_feed hs h
    | market e => exact SystemState.shown_market h hlabel

/-- **Products are isolated**: whatever two runs do with the other products, if they agree
on what concerns `p`, and on when the market thread works, then its feed product is in the
same state, the same changes of it were passed on, each batch had the same changes of it
and the same trades of it reached a publisher. -/
theorem products_isolated {parse : List UInt8 → Except ParseFault Json}
    {provider : EndpointProvider} {es fs : List (SystemEvent FloatingP)}
    {s t : SystemState FloatingP} (p : String)
    (hs : (systemMachine parse provider).run {} es = some s)
    (ht : (systemMachine parse provider).run {} fs = some t)
    (hagree : (productProjection parse provider p).trace {} es =
      (productProjection parse provider p).trace {} fs) :
    s.server.market.feedClient.prodIdToListener p =
        t.server.market.feedClient.prodIdToListener p ∧
      changesFor p s.passedOn = changesFor p t.passedOn ∧
      (s.batches.map fun batch => (changesFor p batch : Multiset (ProductChange FloatingP))) =
        t.batches.map (fun batch => (changesFor p batch : Multiset (ProductChange FloatingP))) ∧
      tradesFor p s.traded = tradesFor p t.traded := by
  have hstart : (productProjection parse provider p : Projection
      (systemMachine parse provider : Machine (SystemState FloatingP) _) _).Inv {} :=
    registered_empty
  have hview := (productProjection parse provider p).view_eq hstart hstart rfl hs ht hagree
  exact ⟨congrArg ProductView.listener hview, congrArg ProductView.passedOn hview,
    congrArg ProductView.batches hview, congrArg ProductView.traded hview⟩

/-! ## A trade of two products -/

/-- A message in a run: what the parser makes of it is all that matters. -/
theorem traces_receive {parse : List UInt8 → Except ParseFault Json} {provider : EndpointProvider}
    {p : String} {s s₁ : SystemState FloatingP} {message : List UInt8} {jmsg : Json}
    {es : List (SystemEvent FloatingP)} {ls : List ProductEvent} (h : parse message = .ok jmsg)
    (hstep : s.receive (fun _ => .ok jmsg) [] = some s₁)
    (hrest : ∃ s', (systemMachine parse provider).run s₁ es = some s' ∧
      (productProjection parse provider p).trace s₁ es = ls) :
    ∃ s', (systemMachine parse provider).run s (.receive message :: es) = some s' ∧
      (productProjection parse provider p).trace s (.receive message :: es) =
        (if isFor p jmsg then some (.message jmsg) else none).toList ++ ls := by
  refine (productProjection parse provider p).traces_cons ?_
    (SystemState.label_receive (s := s) h) hrest
  rw [← hstep]
  show s.receive parse message = s.receive _ _
  unfold SystemState.receive
  rw [h]

/-- A trade of one unit. -/
def matchMsg (productId : String) : Json :=
  .object [("product_id", .string productId), ("sequence", .unsigned 5), ("type", .string "match"),
    ("maker_order_id", .string "A"), ("taker_order_id", .string "B"), ("price", .string "1"),
    ("side", .string "sell"), ("size", .string "1")]

def matchText (productId : String) : String :=
  "\x7b\"product_id\":\"" ++ productId ++ "\",\"sequence\":5,\"type\":\"match\"," ++
    "\"maker_order_id\":\"A\",\"taker_order_id\":\"B\",\"price\":\"1\"," ++
    "\"side\":\"sell\",\"size\":\"1\"\x7d"

def matchBytes (productId : String) : List UInt8 :=
  (matchText productId).toList.map fun c => c.toNat.toUInt8

/-- The parser on these texts for two products. -/
def parseMatch (message : List UInt8) : Except ParseFault Json :=
  if message = matchBytes "ETH-USD" then .ok (matchMsg "ETH-USD")
  else if message = matchBytes "BTC-USD" then .ok (matchMsg "BTC-USD")
  else .error .parseError

/-- The table with both products online. -/
def bothOnline : EndpointProvider :=
  { productIds := [("ETH-USD", ⟨"127.0.0.1", "83000", "93000"⟩),
      ("BTC-USD", ⟨"127.0.0.1", "83001", "93001"⟩)] }

/-- A trade and a batch of `ETH-USD`, with nothing else going on. -/
def ethAlone : List (SystemEvent Int) :=
  [.market (.subscribeProduct "1" "ETH-USD"), .market (.subscribeTrades "ETH-USD"),
    .receive (matchBytes "ETH-USD"), .passTrade,
    .feed "ETH-USD" (.complete (.json (bookMsg 4 [] []))), .feed "ETH-USD" .take,
    .feed "ETH-USD" .hand, .market .takeChanges, .market (.processChanges [0])]

/-- The same for `ETH-USD`, while `BTC-USD` trades and gets a book of its own. -/
def ethAndBtc : List (SystemEvent Int) :=
  [.market (.subscribeProduct "2" "BTC-USD"), .market (.subscribeTrades "BTC-USD"),
    .market (.subscribeProduct "1" "ETH-USD"), .market (.subscribeTrades "ETH-USD"),
    .receive (matchBytes "BTC-USD"), .passTrade, .receive (matchBytes "ETH-USD"), .passTrade,
    .feed "BTC-USD" (.complete (.json (bookMsg 2 [] []))), .feed "BTC-USD" .take,
    .feed "ETH-USD" (.complete (.json (bookMsg 4 [] []))), .feed "BTC-USD" .hand,
    .feed "ETH-USD" .take, .feed "ETH-USD" .hand, .market .takeChanges,
    .market (.processChanges [1, 0])]

/-- What concerns `ETH-USD` in both runs. -/
def ethLabels : List ProductEvent :=
  [.subscribeProduct "1", .subscribeTrades, .message (matchMsg "ETH-USD"), .passTrade,
    .feed (.complete (.json (bookMsg 4 [] []))), .feed .take, .feed .hand, .takeChanges,
    .processChanges]

theorem parseMatch_eth : parseMatch (matchBytes "ETH-USD") = .ok (matchMsg "ETH-USD") := if_pos rfl

theorem parseMatch_btc : parseMatch (matchBytes "BTC-USD") = .ok (matchMsg "BTC-USD") :=
  (if_neg (by decide +kernel)).trans (if_pos rfl)

theorem traces_eth :
    ∃ s : SystemState Int, (systemMachine parseMatch bothOnline).run {} ethAlone = some s ∧
      (productProjection parseMatch bothOnline "ETH-USD").trace {} ethAlone = ethLabels := by
  let P : Projection (systemMachine parseMatch bothOnline : Machine (SystemState Int) _) _ :=
    productProjection parseMatch bothOnline "ETH-USD"
  refine P.traces_cons rfl rfl ?_
  refine P.traces_cons rfl rfl ?_
  refine traces_receive parseMatch_eth rfl ?_
  exact ⟨_, rfl, rfl⟩

theorem traces_ethAndBtc :
    ∃ s : SystemState Int, (systemMachine parseMatch bothOnline).run {} ethAndBtc = some s ∧
      (productProjection parseMatch bothOnline "ETH-USD").trace {} ethAndBtc = ethLabels := by
  let P : Projection (systemMachine parseMatch bothOnline : Machine (SystemState Int) _) _ :=
    productProjection parseMatch bothOnline "ETH-USD"
  refine P.traces_cons rfl rfl ?_
  refine P.traces_cons rfl rfl ?_
  refine P.traces_cons rfl rfl ?_
  refine P.traces_cons rfl rfl ?_
  refine traces_receive parseMatch_btc rfl ?_
  refine P.traces_cons rfl rfl ?_
  refine traces_receive parseMatch_eth rfl ?_
  exact ⟨_, rfl, rfl⟩

theorem products_isolated_btc :
    ∃ s t : SystemState Int,
      (systemMachine parseMatch bothOnline).run {} ethAlone = some s ∧
      (systemMachine parseMatch bothOnline).run {} ethAndBtc = some t ∧
      s.server.market.feedClient.prodIdToListener "ETH-USD" =
        t.server.market.feedClient.prodIdToListener "ETH-USD" ∧
      changesFor "ETH-USD" s.passedOn = changesFor "ETH-USD" t.passedOn ∧
      tradesFor "ETH-USD" s.traded = tradesFor "ETH-USD" t.traded := by
  obtain ⟨s, hs, htrace⟩ := traces_eth
  obtain ⟨t, ht, htrace'⟩ := traces_ethAndBtc
  obtain ⟨hlistener, hpassedOn, -, htraded⟩ :=
    products_isolated "ETH-USD" hs ht (htrace.trans htrace'.symm)
  exact ⟨s, t, hs, ht, hlistener, hpassedOn, htraded⟩

end QuoteServer
