import Mathlib.Data.List.Chain
import QuoteServer.Session.Server

/-!
# What the exchange is told

The exchange sends the messages of a product from the subscription it is told of until it is
told of the end. Over a whole session it is told of each product in turn, first of a
subscription, and never twice of the same: two clients that share a product cause one
subscription. It is subscribed to exactly the products that the market serves, which are
those confirmed last (`exchange_told`).
-/

namespace QuoteServer

open EventMachine RequestReply ClientService

/-! ## Switches -/

/-- What a switch was told that is off at first and only told what it is not. -/
inductive Switched : List Bool → Bool → Prop where
  | off : Switched [] false
  | switch {told : List Bool} {on : Bool} (h : Switched told on) : Switched (told ++ [!on]) (!on)

/-- What it is now is what it was told last. -/
theorem Switched.last {told : List Bool} {on : Bool} (h : Switched told on) :
    told.getLast? = some true ↔ on = true := by
  cases h with
  | off => simp
  | switch h => simp

theorem Switched.eq_of_getLast? {told : List Bool} {on x : Bool} (h : Switched told on)
    (hx : x ∈ told.getLast?) : x = on := by
  cases h with
  | off => cases hx
  | switch h =>
    rw [List.getLast?_concat, Option.mem_some_iff] at hx
    exact hx.symm

/-- It was told to be on first. -/
theorem Switched.first {told : List Bool} {on : Bool} (h : Switched told on) :
    told.head? ≠ some false := by
  induction h with
  | off => exact nofun
  | @switch told on h ih =>
    rw [List.head?_append]
    cases hhead : told.head? with
    | none =>
      -- nothing was said yet, so it was off
      obtain rfl := List.head?_eq_none_iff.mp hhead
      cases on with
      | false => simp
      | true => exact absurd (h.last.mpr rfl) nofun
    | some first =>
      rw [hhead] at ih
      exact ih

/-- It was never told twice the same. -/
theorem Switched.inTurn {told : List Bool} {on : Bool} (h : Switched told on) :
    told.IsChain (· ≠ ·) := by
  induction h with
  | off => exact .nil
  | @switch told on h ih =>
    refine List.isChain_append.mpr ⟨ih, .singleton _, fun x hx y hy => ?_⟩
    obtain rfl := h.eq_of_getLast? hx
    rw [List.head?_cons, Option.mem_some_iff] at hy
    rw [← hy]
    exact (Bool.not_ne_self x).symm

/-! ## Messages to the exchange -/

namespace CoinbaseFeedClient

/-- What a message tells about a product: that its messages are wanted, or no longer. -/
def tells (p : String) (message : Json) : Option Bool :=
  match message.constIndex "product_ids" with
  | .ok productIds =>
    if productIds.items.any (·.isString p) then
      match message.stringMember "type" with
      | some type =>
        if type = "subscribe" then some true
        else if type = "unsubscribe" then some false else none
      | none => none
    else none
  | .error _ => none

/-- What the exchange was told about a product, in order. -/
def told (p : String) (sent : List Json) : List Bool := sent.filterMap (tells p)

theorem told_append (p : String) (sent more : List Json) :
    told p (sent ++ more) = told p sent ++ told p more := List.filterMap_append

theorem told_subscribe (p q : String) :
    told p [generateSubscribeMessage q] = if q = p then [true] else [] := by
  by_cases h : q = p
  · subst h
    simp [told, tells, generateSubscribeMessage, Json.constIndex, Json.items, Json.isString,
      Json.stringMember, List.lookup_cons]
  · simp [told, tells, generateSubscribeMessage, Json.constIndex, Json.items, Json.isString,
      List.lookup_cons, h]

theorem told_unsubscribe (p q : String) :
    told p [generateUnsubscribeMessage q] = if q = p then [false] else [] := by
  by_cases h : q = p
  · subst h
    simp [told, tells, generateUnsubscribeMessage, Json.constIndex, Json.items, Json.isString,
      Json.stringMember, List.lookup_cons]
  · simp [told, tells, generateUnsubscribeMessage, Json.constIndex, Json.items, Json.isString,
      List.lookup_cons, h]

end CoinbaseFeedClient

open CoinbaseFeedClient

variable {FloatingP : Type}

/-- The exchange was told of the feed products that there are, over a connection that was
there first. -/
structure ExchangeTold (client : CoinbaseFeedClient FloatingP) : Prop where
  connected : client.connected = !client.sent.isEmpty
  messages : ∀ message ∈ client.sent, ∃ p, message = generateSubscribeMessage p ∨
    message = generateUnsubscribeMessage p
  switched : ∀ p, Switched (told p client.sent) (client.prodIdToListener p).isSome

theorem exchangeTold_empty : ExchangeTold ({} : CoinbaseFeedClient FloatingP) :=
  ⟨rfl, fun _ h => absurd h List.not_mem_nil, fun _ => .off⟩

/-- A product that is not there is subscribed to. -/
theorem ExchangeTold.subscribe {client : CoinbaseFeedClient FloatingP} (h : ExchangeTold client)
    {p : String} (hp : client.prodIdToListener p = none) : ExchangeTold (client.subscribe p) := by
  refine ⟨?_, fun message hmem => ?_, fun q => ?_⟩
  · show true = !(client.sent ++ [generateSubscribeMessage p]).isEmpty
    simp
  · rcases List.mem_append.mp hmem with hmem | hmem
    · exact h.messages message hmem
    · exact ⟨p, .inl (List.mem_singleton.mp hmem)⟩
  · show Switched (told q (client.sent ++ [generateSubscribeMessage p])) _
    have hq := h.switched q
    rw [told_append, told_subscribe]
    by_cases hpq : p = q
    · subst hpq
      rw [if_pos rfl, client.subscribe_listener_none hp]
      rw [hp] at hq
      exact hq.switch
    · rw [if_neg hpq, List.append_nil, client.subscribe_listener_ne (Ne.symm hpq)]
      exact hq

/-- A product that is there is unsubscribed from. -/
theorem ExchangeTold.unsubscribe {client : CoinbaseFeedClient FloatingP} (h : ExchangeTold client)
    {p : String} (hp : (client.prodIdToListener p).isSome = true) :
    ExchangeTold (client.unsubscribe p) := by
  have hsent : client.sent ≠ [] := by
    intro hnil
    have hnever := h.switched p
    rw [hnil, hp] at hnever
    exact absurd (hnever.last.mpr rfl) nofun
  refine ⟨?_, fun message hmem => ?_, fun q => ?_⟩
  · show client.connected = !(client.sent ++ [generateUnsubscribeMessage p]).isEmpty
    rw [h.connected, List.isEmpty_eq_false_iff.mpr hsent,
      List.isEmpty_eq_false_iff.mpr (List.append_ne_nil_of_left_ne_nil hsent _)]
  · rcases List.mem_append.mp hmem with hmem | hmem
    · exact h.messages message hmem
    · exact ⟨p, .inr (List.mem_singleton.mp hmem)⟩
  · show Switched (told q (client.sent ++ [generateUnsubscribeMessage p])) _
    have hq := h.switched q
    rw [told_append, told_unsubscribe]
    by_cases hpq : p = q
    · subst hpq
      rw [if_pos rfl, client.unsubscribe_listener_self]
      rw [hp] at hq
      exact hq.switch
    · rw [if_neg hpq, List.append_nil, client.unsubscribe_listener_ne (Ne.symm hpq)]
      exact hq

/-- What the feed products do is not told. -/
theorem ExchangeTold.congr {client client' : CoinbaseFeedClient FloatingP}
    (h : ExchangeTold client) (hconnected : client'.connected = client.connected)
    (hsent : client'.sent = client.sent)
    (hlisteners : ∀ q, (client'.prodIdToListener q).isSome = (client.prodIdToListener q).isSome) :
    ExchangeTold client' := by
  refine ⟨?_, ?_, fun q => ?_⟩
  · rw [hconnected, hsent]
    exact h.connected
  · rw [hsent]
    exact h.messages
  · rw [hsent, hlisteners q]
    exact h.switched q

/-! ## Calls and other threads -/

/-- Products and feed products go together after a call too. -/
theorem registered_call {provider : EndpointProvider} {m m' : Market FloatingP}
    {c : SubscriberCall} (hm : Registered m)
    (hcall : Market.asSubscriber.run provider m c = .ok m') : Registered m' := by
  cases c with
  | subscribe clientId p =>
    obtain ⟨m₁, hproduct, htrades⟩ := bind_eq_ok.mp hcall
    have hfirst := registered_subscribeProduct hm hproduct
    rcases Market.subscribeTrades_cases htrades with ⟨-, rfl⟩ | ⟨-, _, -, rfl⟩
    · exact hfirst
    · exact ⟨hfirst.both, hfirst.ids⟩
  | unsubscribe clientId p =>
    have hok : m.unsubscribe clientId p = .ok m' := hcall
    exact registered_unsubscribe hm hok

/-- A call of the market tells the exchange of a product that comes, and of one that goes. -/
theorem ExchangeTold.call {provider : EndpointProvider} {m m' : Market FloatingP}
    {c : SubscriberCall} (h : ExchangeTold m.feedClient) (hm : Registered m)
    (hcall : Market.asSubscriber.run provider m c = .ok m') : ExchangeTold m'.feedClient := by
  cases c with
  | subscribe clientId p =>
    obtain ⟨m₁, hproduct, htrades⟩ := bind_eq_ok.mp hcall
    have hfirst : ExchangeTold m₁.feedClient := by
      rcases Market.subscribeProduct_cases hproduct with ⟨_, -, rfl⟩ | ⟨hp, _, -, rfl⟩
      · exact h
      · exact h.subscribe (hm.listener_none hp)
    rcases Market.subscribeTrades_cases htrades with ⟨-, rfl⟩ | ⟨-, _, -, rfl⟩
    · exact hfirst
    · exact hfirst
  | unsubscribe clientId p =>
    have hok : m.unsubscribe clientId p = .ok m' := hcall
    obtain ⟨product, hp, ⟨-, rfl⟩ | ⟨-, rfl⟩⟩ := Market.unsubscribe_cases hok
    · refine h.unsubscribe ?_
      rw [← hm.both, hp]
      rfl
    · exact h

/-- What is no part of a call sends nothing. -/
theorem sent_quiet [FloatingPoint FloatingP] {provider : EndpointProvider}
    {t t' : MarketState FloatingP} {e : ServerEvent FloatingP} (hquiet : e.ofCall = false)
    (h : t.serverStep provider e = some t') :
    t'.market.feedClient.connected = t.market.feedClient.connected ∧
      t'.market.feedClient.sent = t.market.feedClient.sent := by
  cases e with
  | feed p e =>
    obtain ⟨f, f', pcs, -, -, -, -, rfl⟩ := serverStep_feed h
    exact ⟨rfl, rfl⟩
  | market e =>
    have hstep := (serverStep_market h).1
    cases e with
    | subscribeProduct => cases hquiet
    | subscribeTrades => cases hquiet
    | unsubscribe => cases hquiet
    | onProductChange pc => cases h
    | onTrade trade =>
      cases hstep
      obtain ⟨-, -, hfeed⟩ := t.market.onTrade_frame trade
      exact ⟨congrArg CoinbaseFeedClient.connected hfeed, congrArg CoinbaseFeedClient.sent hfeed⟩
    | takeChanges =>
      obtain ⟨-, rfl⟩ := step_takeChanges hstep
      exact ⟨rfl, rfl⟩
    | processChanges picks =>
      obtain ⟨it, -, -, rfl⟩ := step_processChanges hstep
      obtain ⟨products, heq, -⟩ := Market.processChanges_frame it t.market
      show (t.market.processChanges it).feedClient.connected = _ ∧
        (t.market.processChanges it).feedClient.sent = _
      rw [heq]
      exact ⟨rfl, rfl⟩

/-! ## Whole sessions -/

section

variable {κ : Type} [DecidableEq κ] [FloatingPoint FloatingP] {dump : Json → List UInt8}
  {parse : Parser} {scenario : κ → List ScenarioEntry}
  {es : List (SessionEvent κ (ServerEvent FloatingP))} {s : Session κ (MarketState FloatingP)}

/-- In every state of a session products go with feed products, and the exchange was told. -/
theorem session_told
    (hrun : (serverSession dump parse).run (.initial {} scenario) es = some s) :
    Registered s.server.productSubscriber.market ∧
      ExchangeTold s.server.productSubscriber.market.feedClient := by
  have hall : ∀ k x, Event.serve k x ∈ es → True := fun _ _ _ => trivial
  refine server_rule (P := fun t : ClientService (MarketState FloatingP) =>
    Registered t.productSubscriber.market ∧ ExchangeTold t.productSubscriber.market.feedClient)
    hall ⟨registered_empty, exchangeTold_empty⟩ ?_ ?_ hrun
  · rintro t x data t' replies - ⟨hregistered, htold⟩ hserve
    rcases iteration_subscriber serverSubscriber_throwsNoParseError (serve_iteration hserve) with
      ⟨-, hmarket⟩ | ⟨provider, c, -, -, hcall⟩
    · rw [hmarket]
      exact ⟨hregistered, htold⟩
    · have hok := serverSubscriber_ok hcall
      exact ⟨registered_call hregistered hok, htold.call hregistered hok⟩
  · rintro t y t' ⟨hregistered, htold⟩ hact
    obtain ⟨state, hstep, rfl⟩ := Option.map_eq_some_iff.mp hact
    change (if y.ofCall then none else t.productSubscriber.serverStep {} y) = some state at hstep
    by_cases hcall : y.ofCall = true
    · rw [if_pos hcall] at hstep
      cases hstep
    · rw [if_neg hcall] at hstep
      have hquiet : y.ofCall = false := Bool.eq_false_iff.mpr hcall
      obtain ⟨hconnected, hsent⟩ := sent_quiet hquiet hstep
      exact ⟨registered_step hregistered hstep,
        htold.congr hconnected hsent (sameStanding_quiet hquiet hstep).listeners⟩

/-- **What the exchange is told.** In every state of a session the connection was made before
the first message; the messages about each product are in turn a subscription and its end;
and the last one is a subscription exactly if the last call for the product, of whichever
client, was one, which is when the market serves it. -/
theorem exchange_told
    (hrun : (serverSession dump parse).run (.initial {} scenario) es = some s) :
    ExchangeTold s.server.productSubscriber.market.feedClient ∧
    ∀ p, (told p s.server.productSubscriber.market.feedClient.sent).head? ≠ some false ∧
      (told p s.server.productSubscriber.market.feedClient.sent).IsChain (· ≠ ·) ∧
      ((told p s.server.productSubscriber.market.feedClient.sent).getLast? = some true ↔
        SubscribedLast p s.server.calls) ∧
      ((s.server.productSubscriber.market.products p).isSome = true ↔
        SubscribedLast p s.server.calls) := by
  obtain ⟨-, htold⟩ := session_told hrun
  refine ⟨htold, fun p => ?_⟩
  have hserved := (session_serving hrun).mirrors.served p
  have hp := htold.switched p
  exact ⟨hp.first, hp.inTurn, hp.last.trans hserved.listener, hserved.product⟩

end

/-- One of the two clients subscribes and unsubscribes, the product of the other is not there. -/
theorem exchange_told_two :
    ∃ s, (serverSession dumpFlat parseFlat).run (.initial ({} : MarketState Int) twoScenarios)
        twoClients = some s ∧
      ExchangeTold s.server.productSubscriber.market.feedClient ∧
      ∀ p, (told p s.server.productSubscriber.market.feedClient.sent).head? ≠ some false ∧
        (told p s.server.productSubscriber.market.feedClient.sent).IsChain (· ≠ ·) ∧
        ((told p s.server.productSubscriber.market.feedClient.sent).getLast? = some true ↔
          SubscribedLast p s.server.calls) ∧
        ((s.server.productSubscriber.market.products p).isSome = true ↔
          SubscribedLast p s.server.calls) := by
  obtain ⟨s, hrun⟩ := twoClients_run
  exact ⟨s, hrun, exchange_told hrun⟩

end QuoteServer
