import QuoteServer.ClientService.MissingProduct
import QuoteServer.Lib.FlatJson
import QuoteServer.Registries
import QuoteServer.Session.Sessions

/-!
# The server with its clients

The session in which the service calls the market, while the market's own thread and the
threads of the feed go on. A call takes effect in one step, when it returns: what the other
threads do while it lasts comes before it. What it waits for is no part of the step. The
destructor of a feed product joins two threads, and where it matters that they have ended
the runs are restricted to those in which they have (`mayDestroy`). The mutexes are left
out: whether a call returns at all is the matter of the threads' own model.

The market serves exactly the products whose last confirmation, to whichever client, was
that of a subscription, and publishes them at the endpoints that were confirmed
(`confirmed_served`).
-/

namespace QuoteServer

open EventMachine RequestReply ClientService

variable {FloatingP : Type}

/-- The market among its threads, as the `ProductSubscriber` it is: what a call that returns
has done. -/
def serverSubscriber : ProductSubscriber (MarketState FloatingP) where
  subscribe provider s clientId productId :=
    (s.market.subscribe provider clientId productId).map fun market => { s with market := market }
  unsubscribe s clientId productId :=
    (s.market.unsubscribe clientId productId).map fun market => { s with market := market }

/-- The threads of the server besides the one of the client service. -/
def serverThreads [FloatingPoint FloatingP] :
    Machine (MarketState FloatingP) (ServerEvent FloatingP) where
  step s e := if e.ofCall then none else s.serverStep {} e

/-- The server and its clients. -/
def serverSession {κ : Type} [DecidableEq κ] [FloatingPoint FloatingP] (dump : Json → List UInt8)
    (parse : Parser) :
    Machine (Session κ (MarketState FloatingP)) (SessionEvent κ (ServerEvent FloatingP)) :=
  sessionMachine dump parse serverSubscriber serverThreads

/-- The service, seen with the market alone. -/
def marketService (s : ClientService (MarketState FloatingP)) :
    ClientService (Market FloatingP) where
  registeredClientIds := s.registeredClientIds
  productSubscriber := s.productSubscriber.market
  provider := s.provider
  sent := s.sent
  calls := s.calls

/-- Products are published where the table of endpoints says. -/
structure PublishedAt (table : Option EndpointProvider) (m : Market FloatingP) : Prop where
  books : ∀ p product, m.products p = some product →
    ∃ provider endpoint, table = some provider ∧ provider.prodIdToPort p = .ok endpoint ∧
      product.publisher.endpoint = endpoint.address ++ ":" ++ endpoint.orderbookPort
  trades : ∀ p publisher, m.tradePublishers p = some publisher →
    ∃ provider endpoint, table = some provider ∧ provider.prodIdToPort p = .ok endpoint ∧
      publisher.endpoint = endpoint.address ++ ":" ++ endpoint.tradePort

/-- The market serves what was called for last, where the table says. -/
structure Serving (s : ClientService (MarketState FloatingP)) : Prop where
  mirrors : Mirrors (marketService s)
  published : PublishedAt s.provider s.productSubscriber.market

/-- A product is published where a confirmation says. -/
structure PublishedWhere (m : Market FloatingP) (p : String) (conf : Confirmation) : Prop where
  book : ∀ product, m.products p = some product →
    "tcp://" ++ product.publisher.endpoint = conf.productEndpoint
  trades : ∀ publisher, m.tradePublishers p = some publisher →
    "tcp://" ++ publisher.endpoint = conf.tradeEndpoint

/-! ## Calls -/

theorem serverSubscriber_run (provider : EndpointProvider) (s : MarketState FloatingP)
    (c : SubscriberCall) :
    serverSubscriber.run provider s c =
      (Market.asSubscriber.run provider s.market c).map fun m => { s with market := m } := by
  cases c <;> rfl

theorem serverSubscriber_ok {provider : EndpointProvider} {s s' : MarketState FloatingP}
    {c : SubscriberCall} (h : serverSubscriber.run provider s c = .ok s') :
    Market.asSubscriber.run provider s.market c = .ok s'.market := by
  rw [serverSubscriber_run] at h
  cases hcall : Market.asSubscriber.run provider s.market c with
  | error e =>
    rw [hcall] at h
    cases h
  | ok m =>
    rw [hcall] at h
    cases h
    rfl

theorem serverSubscriber_throwsNoParseError :
    ThrowsNoParseError (serverSubscriber : ProductSubscriber (MarketState FloatingP)) := by
  intro provider s c hproduct h
  rw [serverSubscriber_run] at h
  cases hcall : Market.asSubscriber.run provider s.market c with
  | error e =>
    rw [hcall] at h
    cases h
    exact (market_run_error hproduct hcall).1 rfl
  | ok m =>
    rw [hcall] at h
    cases h

/-- An entry after an update is the new one or one that was there. -/
theorem update_eq_some {α : Type} {f : String → Option α} {p q : String} {entry : Option α} {a : α}
    (h : Function.update f p entry q = some a) : (q = p ∧ entry = some a) ∨ f q = some a := by
  by_cases hq : q = p
  · subst hq
    rw [Function.update_self] at h
    exact .inl ⟨rfl, h⟩
  · rw [Function.update_of_ne hq] at h
    exact .inr h

/-- A table that is built later says what it said before. -/
theorem PublishedAt.grows {table table' : Option EndpointProvider} {m : Market FloatingP}
    (h : PublishedAt table m)
    (hgrows : ∀ provider, table = some provider → table' = some provider) :
    PublishedAt table' m where
  books p product hp := by
    obtain ⟨provider, endpoint, htable, hport, hendpoint⟩ := h.books p product hp
    exact ⟨provider, endpoint, hgrows provider htable, hport, hendpoint⟩
  trades p publisher hp := by
    obtain ⟨provider, endpoint, htable, hport, hendpoint⟩ := h.trades p publisher hp
    exact ⟨provider, endpoint, hgrows provider htable, hport, hendpoint⟩

/-- What a subscription creates is bound where the table it was given says. -/
theorem PublishedAt.subscribe {provider : EndpointProvider} {m m' : Market FloatingP}
    {clientId p : String} (h : PublishedAt (some provider) m)
    (hcall : m.subscribe provider clientId p = .ok m') : PublishedAt (some provider) m' := by
  obtain ⟨m₁, hproduct, htrades⟩ := bind_eq_ok.mp hcall
  have hfirst : PublishedAt (some provider) m₁ := by
    rcases Market.subscribeProduct_cases hproduct with ⟨_, -, rfl⟩ | ⟨-, endpoint, hport, rfl⟩
    · exact ⟨h.books, h.trades⟩
    · refine ⟨fun q product hq => ?_, h.trades⟩
      rcases update_eq_some hq with ⟨rfl, hnew⟩ | hthere
      · cases hnew
        exact ⟨provider, endpoint, rfl, hport, rfl⟩
      · exact h.books q product hthere
  rcases Market.subscribeTrades_cases htrades with ⟨-, rfl⟩ | ⟨-, endpoint, hport, rfl⟩
  · exact hfirst
  · refine ⟨hfirst.books, fun q publisher hq => ?_⟩
    rcases update_eq_some hq with ⟨rfl, hnew⟩ | hthere
    · cases hnew
      exact ⟨provider, endpoint, rfl, hport, rfl⟩
    · exact hfirst.trades q publisher hthere

/-- What an unsubscription leaves stays where it is. -/
theorem PublishedAt.unsubscribe {table : Option EndpointProvider} {m m' : Market FloatingP}
    {clientId p : String} (h : PublishedAt table m)
    (hcall : m.unsubscribe clientId p = .ok m') : PublishedAt table m' := by
  obtain ⟨removed, hp, ⟨-, rfl⟩ | ⟨-, rfl⟩⟩ := Market.unsubscribe_cases hcall
  · refine ⟨fun q product hq => ?_, fun q publisher hq => ?_⟩
    · rcases update_eq_some hq with ⟨-, hnone⟩ | hthere
      · cases hnone
      · exact h.books q product hthere
    · rcases update_eq_some hq with ⟨-, hnone⟩ | hthere
      · cases hnone
      · exact h.trades q publisher hthere
  · refine ⟨fun q product hq => ?_, h.trades⟩
    rcases update_eq_some hq with ⟨rfl, hsame⟩ | hthere
    · cases hsame
      exact h.books q removed hp
    · exact h.books q product hthere

theorem PublishedAt.call {provider : EndpointProvider} {m m' : Market FloatingP}
    {c : SubscriberCall} (h : PublishedAt (some provider) m)
    (hcall : Market.asSubscriber.run provider m c = .ok m') : PublishedAt (some provider) m' := by
  cases c with
  | subscribe clientId p =>
    have hok : m.subscribe provider clientId p = .ok m' := hcall
    exact h.subscribe hok
  | unsubscribe clientId p =>
    have hok : m.unsubscribe clientId p = .ok m' := hcall
    exact h.unsubscribe hok

/-- A confirmation names the table's endpoints. -/
theorem PublishedAt.publishedWhere {provider : EndpointProvider} {m : Market FloatingP}
    {entry : ScenarioEntry} {endpoint : Endpoint} {table : Option EndpointProvider}
    (h : PublishedAt table m) (htable : table = some provider)
    (hport : provider.prodIdToPort entry.productId = .ok endpoint) :
    PublishedWhere m entry.productId {
      kind := if entry.subscribe then .subscribe else .unsubscribe
      productEndpoint := "tcp://" ++ endpoint.address ++ ":" ++ endpoint.orderbookPort
      tradeEndpoint := "tcp://" ++ endpoint.address ++ ":" ++ endpoint.tradePort } := by
  subst htable
  refine ⟨fun product hp => ?_, fun publisher hp => ?_⟩
  · obtain ⟨provider', endpoint', hsame, hport', hendpoint⟩ := h.books _ product hp
    cases hsame
    obtain rfl := Except.ok.inj (hport.symm.trans hport')
    simp only [hendpoint, String.append_assoc]
  · obtain ⟨provider', endpoint', hsame, hport', hendpoint⟩ := h.trades _ publisher hp
    cases hsame
    obtain rfl := Except.ok.inj (hport.symm.trans hport')
    simp only [hendpoint, String.append_assoc]

/-- An iteration of the service. -/
theorem Serving.iteration {parse : Parser} {r : Request}
    {s s' : ClientService (MarketState FloatingP)} (hs : Serving s)
    (h : iteration parse serverSubscriber r s = .ok () s') : Serving s' := by
  have hgrows := grows_iteration h
  rcases iteration_subscriber serverSubscriber_throwsNoParseError h with
    ⟨hcalls, hmarket⟩ | ⟨provider, c, hprovider, hcalls, hcall⟩
  · refine ⟨⟨?_, fun p => ?_⟩, ?_⟩
    · show ClientsEmpty s'.productSubscriber.market
      rw [hmarket]
      exact hs.mirrors.clients
    · show ServedExactly s'.productSubscriber.market p (SubscribedLast p s'.calls)
      rw [hmarket, hcalls]
      exact hs.mirrors.served p
    · rw [hmarket]
      exact hs.published.grows hgrows.provider
  · have hrun := serverSubscriber_ok hcall
    have hmirrors : Mirrors (marketService s') := mirrors_call hs.mirrors hcalls hrun
    refine ⟨hmirrors, ?_⟩
    have hbefore := hs.published.grows hgrows.provider
    rw [hprovider] at hbefore ⊢
    exact hbefore.call hrun

/-! ## The other threads -/

/-- What a product is to its clients: those it knows, and where it is published. -/
def Product.standing (product : Product FloatingP) : Finset String × String :=
  (product.clients, product.publisher.endpoint)

/-- The registries have the same entries, as far as clients can tell. -/
structure SameStanding (m m' : Market FloatingP) : Prop where
  products : ∀ q, (m'.products q).map Product.standing = (m.products q).map Product.standing
  tradePublishers : ∀ q, (m'.tradePublishers q).map TradePublisher.endpoint =
    (m.tradePublishers q).map TradePublisher.endpoint
  listeners : ∀ q, (m'.feedClient.prodIdToListener q).isSome =
    (m.feedClient.prodIdToListener q).isSome

/-- An entry that is the same to some readers was there before. -/
theorem map_eq_some_of_eq {α β : Type} {f : α → β} {x y : Option α} {a : α}
    (h : x.map f = y.map f) (hx : x = some a) : ∃ b, y = some b ∧ f b = f a := by
  rw [hx] at h
  exact Option.map_eq_some_iff.mp h.symm

theorem isSome_of_map_eq {α β : Type} {f : α → β} {x y : Option α} (h : x.map f = y.map f) :
    x.isSome = y.isSome := by
  have hsome := congrArg Option.isSome h
  rwa [Option.isSome_map, Option.isSome_map] at hsome

theorem Product.onProductChanges_standing [Sub FloatingP] (product : Product FloatingP)
    (pcs : List (ProductChange FloatingP)) :
    (product.onProductChanges pcs).standing = product.standing := by
  by_cases h : pcs = []
  · subst h
    rfl
  · rw [product.onProductChanges_of_ne_nil h]
    rfl

/-- The market thread's visit. -/
theorem sameStanding_processChanges [Sub FloatingP] (m : Market FloatingP)
    {it : List (ProductChange FloatingP)}
    (hgrouped : KeyedBatch.Grouped ProductChange.getProductId it) :
    SameStanding m (m.processChanges it) := by
  obtain ⟨products, heq, hsome⟩ := Market.processChanges_frame it m
  refine ⟨fun q => ?_, fun q => ?_, fun q => ?_⟩
  · cases hq : m.products q with
    | none =>
      have hnone := hsome q
      rw [hq] at hnone
      rw [heq]
      show (products q).map Product.standing = none
      rw [Option.isNone_iff_eq_none.mp (Option.isSome_eq_false_iff.mp hnone), Option.map_none]
    | some product =>
      rw [Market.processChanges_product hq hgrouped, Option.map_some, Option.map_some,
        product.onProductChanges_standing]
  · rw [heq]
  · rw [heq]

theorem sameStanding_onTrade (m : Market FloatingP) (trade : Trade FloatingP) :
    SameStanding m (m.onTrade trade) := by
  obtain ⟨hproducts, -, hfeed⟩ := m.onTrade_frame trade
  refine ⟨fun q => by rw [hproducts], fun q => ?_, fun q => by rw [hfeed]⟩
  unfold Market.onTrade
  cases hp : m.tradePublishers trade.getProductId with
  | none => rfl
  | some publisher =>
    show (Function.update m.tradePublishers _ _ q).map TradePublisher.endpoint = _
    by_cases hq : q = trade.getProductId
    · subst hq
      rw [Function.update_self, hp]
      rfl
    · rw [Function.update_of_ne hq]

/-- What is no part of a call changes nothing that clients depend on. -/
theorem sameStanding_quiet [FloatingPoint FloatingP] {provider : EndpointProvider}
    {s s' : MarketState FloatingP} {e : ServerEvent FloatingP} (hquiet : e.ofCall = false)
    (h : s.serverStep provider e = some s') : SameStanding s.market s'.market := by
  cases e with
  | feed p e =>
    obtain ⟨f, f', pcs, hf, -, -, -, rfl⟩ := serverStep_feed h
    refine ⟨fun q => rfl, fun q => rfl, fun q => ?_⟩
    show ((s.market.setListener p f').feedClient.prodIdToListener q).isSome = _
    by_cases hq : q = p
    · subst hq
      rw [setListener_listener_self, hf]
      rfl
    · rw [setListener_listener_ne _ _ hq]
  | market e =>
    have hstep := (serverStep_market h).1
    cases e with
    | subscribeProduct => cases hquiet
    | subscribeTrades => cases hquiet
    | unsubscribe => cases hquiet
    | onProductChange pc => cases h
    | onTrade trade =>
      cases hstep
      exact sameStanding_onTrade s.market trade
    | takeChanges =>
      obtain ⟨-, rfl⟩ := step_takeChanges hstep
      exact ⟨fun q => rfl, fun q => rfl, fun q => rfl⟩
    | processChanges picks =>
      obtain ⟨it, -, hvisits, rfl⟩ := step_processChanges hstep
      exact sameStanding_processChanges s.market hvisits.grouped

/-- The invariant speaks of nothing else. -/
theorem Serving.standing {s : ClientService (MarketState FloatingP)}
    {state : MarketState FloatingP} (hs : Serving s)
    (h : SameStanding s.productSubscriber.market state.market) :
    Serving { s with productSubscriber := state } := by
  refine ⟨⟨fun p product hp => ?_, fun p => ⟨?_, ?_, ?_⟩⟩, fun p product hp => ?_,
    fun p publisher hp => ?_⟩
  · obtain ⟨before, hbefore, hsame⟩ := map_eq_some_of_eq (h.products p) hp
    have hempty := hs.mirrors.clients p before hbefore
    exact (congrArg Prod.fst hsame).symm.trans hempty
  · show (state.market.products p).isSome = true ↔ _
    rw [isSome_of_map_eq (h.products p)]
    exact (hs.mirrors.served p).product
  · show (state.market.feedClient.prodIdToListener p).isSome = true ↔ _
    rw [h.listeners p]
    exact (hs.mirrors.served p).listener
  · show (state.market.tradePublishers p).isSome = true ↔ _
    rw [isSome_of_map_eq (h.tradePublishers p)]
    exact (hs.mirrors.served p).tradePublisher
  · obtain ⟨before, hbefore, hsame⟩ := map_eq_some_of_eq (h.products p) hp
    obtain ⟨provider, endpoint, htable, hport, hendpoint⟩ := hs.published.books p before hbefore
    exact ⟨provider, endpoint, htable, hport, (congrArg Prod.snd hsame).symm.trans hendpoint⟩
  · obtain ⟨before, hbefore, hsame⟩ := map_eq_some_of_eq (h.tradePublishers p) hp
    obtain ⟨provider, endpoint, htable, hport, hendpoint⟩ := hs.published.trades p before hbefore
    exact ⟨provider, endpoint, htable, hport, hsame.symm.trans hendpoint⟩

/-! ## A session of two clients -/

/-- The members of an object that are strings. -/
def stringMembers : Json → FlatJson.Members
  | .object members => members.filterMap fun
    | (key, .string value) => some (key, value)
    | _ => none
  | _ => []

def dumpFlat (message : Json) : List UInt8 := FlatJson.print (stringMembers message)

def parseFlat : Parser := fun data =>
  match FlatJson.parse data with
  | some members => .ok (textObject members)
  | none => parseTexts data

theorem stringMembers_textObject (members : FlatJson.Members) :
    stringMembers (textObject members) = members := by
  unfold stringMembers textObject
  dsimp only
  rw [List.filterMap_map]
  exact List.filterMap_some

theorem textObject_stringMember (members : FlatJson.Members) (key : String) :
    (textObject members).stringMember key = members.lookup key := by
  have hlookup : ((members.map fun m => (m.1, Json.string m.2)).lookup key) =
      (members.lookup key).map Json.string := by
    induction members with
    | nil => rfl
    | cons m members ih =>
      rw [List.map_cons, List.lookup_cons, List.lookup_cons, ih]
      cases key == m.1 <;> rfl
  unfold Json.stringMember textObject Json.constIndex
  dsimp only
  rw [hlookup]
  cases members.lookup key <;> rfl

theorem transmits_flat : Transmits dumpFlat parseFlat := by
  rintro message ⟨members, rfl⟩
  refine ⟨textObject (FlatJson.sorted members), ?_, fun key => ?_⟩
  · rw [dumpFlat, stringMembers_textObject, parseFlat, FlatJson.parse_print]
  · rw [textObject_stringMember, textObject_stringMember, FlatJson.lookup_sorted]

/-- One client subscribes to the product of the table and unsubscribes again, another
subscribes to a product that is not in it. -/
def twoScenarios : Bool → List ScenarioEntry
  | true => [⟨true, "ETH-USD", 1⟩, ⟨false, "ETH-USD", 5⟩]
  | false => [⟨true, "BTC-USD", 1⟩]

def surroundings (uuid : String) : Surroundings :=
  { uuid := uuid, products := bytes productsText }

/-- Their requests overtake each other, and a feed product gets an empty answer meanwhile. -/
def twoClients : List (SessionEvent Bool (ServerEvent Int)) :=
  [.send true, .send false, .serve false (surroundings "2"), .serve true (surroundings "1"),
    .receive true, .act true .handleScenario, .send true, .receive false,
    .act false .handleScenario, .send false, .serve true (surroundings "3"),
    .background (.feed "ETH-USD" (.complete .empty)), .serve false (surroundings "3"),
    .receive true, .act true .hendleNewEndpoints, .send true, .receive false,
    .serve true (surroundings "3")]

theorem twoClients_run :
    ∃ s, (serverSession dumpFlat parseFlat).run (.initial {} twoScenarios) twoClients = some s :=
  Option.isSome_iff_exists.mp (by decide +kernel)

/-- The exchange always returns the same list. -/
theorem twoClients_products {k : Bool} {x : Surroundings} (h : .serve k x ∈ twoClients) :
    x.products = bytes productsText := by
  simp only [twoClients, List.mem_cons, List.not_mem_nil, Event.serve.injEq, reduceCtorEq,
    false_or, or_false] at h
  rcases h with ⟨-, rfl⟩ | ⟨-, rfl⟩ | ⟨-, rfl⟩ | ⟨-, rfl⟩ | ⟨-, rfl⟩ <;> rfl

/-! ## Whole sessions -/

section

variable {κ : Type} [DecidableEq κ] [FloatingPoint FloatingP] {dump : Json → List UInt8}
  {parse : Parser} {scenario : κ → List ScenarioEntry}
  {es : List (SessionEvent κ (ServerEvent FloatingP))} {s : Session κ (MarketState FloatingP)}

/-- In every state of a session the market serves what was called for last. -/
theorem session_serving
    (hrun : (serverSession dump parse).run (.initial {} scenario) es = some s) :
    Serving s.server := by
  have hall : ∀ k x, Event.serve k x ∈ es → True := fun _ _ _ => trivial
  refine server_rule (P := Serving) hall ?_ ?_ ?_ hrun
  · have hnone : ∀ p, ¬ SubscribedLast p [] := by
      rintro p ⟨c, hc⟩
      cases hc
    refine ⟨⟨fun p product hp => (nomatch hp), fun p => ⟨?_, ?_, ?_⟩⟩, fun p product hp => ?_,
      fun p publisher hp => ?_⟩
    · exact iff_of_false Bool.false_ne_true (hnone p)
    · exact iff_of_false Bool.false_ne_true (hnone p)
    · exact iff_of_false Bool.false_ne_true (hnone p)
    · cases hp
    · cases hp
  · intro s x data s' replies _ hs hserve
    exact hs.iteration (serve_iteration hserve)
  · intro s y s' hs hact
    obtain ⟨state, hstep, rfl⟩ := Option.map_eq_some_iff.mp hact
    change (if y.ofCall then none else s.productSubscriber.serverStep {} y) = some state at hstep
    by_cases hcall : y.ofCall = true
    · rw [if_pos hcall] at hstep
      cases hstep
    · rw [if_neg hcall] at hstep
      exact hs.standing (sameStanding_quiet (Bool.eq_false_iff.mpr hcall) hstep)

/-- **What a client and the service say to one another**, in every interleaving with the
other clients and with the other threads: they speak in turn, and all that was said is one
transcript, for the entries of the scenario in their order. -/
theorem sessions_transcribed (hdump : Transmits dump parse)
    (hrun : (serverSession dump parse).run (.initial {} scenario) es = some s) (k : κ) :
    (s.parties k).InStep ∧ ∃ clientId entries,
      Spoken dump (NotListed parse es) s.server k (s.history k) clientId entries ∧
      ScenarioCut (scenario k) (s.parties k).state entries :=
  session_spoken hdump serverSubscriber_throwsNoParseError id hrun k

theorem sessions_transcribed_two :
    ∃ s, (serverSession dumpFlat parseFlat).run (.initial {} twoScenarios) twoClients = some s ∧
      ∀ k, (s.parties k).InStep ∧ ∃ clientId entries,
        Spoken dumpFlat (NotListed parseFlat twoClients) s.server k (s.history k) clientId
          entries ∧
        ScenarioCut (twoScenarios k) (s.parties k).state entries := by
  obtain ⟨s, hrun⟩ := twoClients_run
  exact ⟨s, hrun, sessions_transcribed transmits_flat hrun⟩

/-- **What is confirmed is served.** The market was called for exactly what the replies
confirm, and serves the products whose last confirmation was that of a subscription. Of each
client the confirmed entries were called for in their order, and as long as the product of
one of them is served, it is published where its confirmation says. -/
theorem confirmed_served (hdump : Transmits dump parse)
    (hrun : (serverSession dump parse).run (.initial {} scenario) es = some s) :
    CallsConfirmed parse s ∧
    (∀ p, ServedExactly s.server.productSubscriber.market p (SubscribedLast p s.server.calls)) ∧
    ∀ k, ∃ clientId entries,
      Spoken dump (NotListed parse es) s.server k (s.history k) clientId entries ∧
      (s.history k).flatMap (callsIn parse) = entries.filterMap (AnsweredEntry.call clientId) ∧
      ∀ answered ∈ entries, ∀ conf ∈ answered.confirmation,
        PublishedWhere s.server.productSubscriber.market answered.entry.productId conf := by
  have hserving := session_serving hrun
  refine ⟨session_calls hdump serverSubscriber_throwsNoParseError hrun, hserving.mirrors.served,
    fun k => ?_⟩
  obtain ⟨-, clientId, entries, hspoken, -⟩ :=
    session_spoken hdump serverSubscriber_throwsNoParseError id hrun k
  refine ⟨clientId, entries, hspoken, hspoken.calls hdump, fun answered hmem conf hconf => ?_⟩
  obtain ⟨endpoint, hendpoint, rfl⟩ := Option.map_eq_some_iff.mp hconf
  obtain ⟨provider, htable, hport⟩ := hspoken.confirmed hmem hendpoint
  exact hserving.published.publishedWhere htable hport

theorem confirmed_served_two :
    ∃ s, (serverSession dumpFlat parseFlat).run (.initial {} twoScenarios) twoClients = some s ∧
      CallsConfirmed parseFlat s ∧
      (∀ p, ServedExactly s.server.productSubscriber.market p
        (SubscribedLast p s.server.calls)) ∧
      ∀ k, ∃ clientId entries,
        Spoken dumpFlat (NotListed parseFlat twoClients) s.server k (s.history k) clientId
          entries ∧
        (s.history k).flatMap (callsIn parseFlat) =
          entries.filterMap (AnsweredEntry.call clientId) ∧
        ∀ answered ∈ entries, ∀ conf ∈ answered.confirmation,
          PublishedWhere s.server.productSubscriber.market answered.entry.productId conf := by
  obtain ⟨s, hrun⟩ := twoClients_run
  exact ⟨s, hrun, confirmed_served transmits_flat hrun⟩

end

end QuoteServer
