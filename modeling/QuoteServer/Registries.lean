import QuoteServer.Server

/-!
# The three registries agree

A product has an entry in `m_products`, one in `m_trade_publishers` and one in the feed
client's `m_prodIdToListener`. The client service calls `subscribe` and `unsubscribe` one
after another, but `subscribe` takes two critical sections, and everything else goes on
between them. `openMachine` runs the server with changes that may come from anywhere, and
every run of the server is one of these (`open_of_server`). The registries agree whenever
no call is under way, and a call touches the entries of its own product only, and not even
these if it subscribes to a product that is there
(`registries_kept`).
-/

namespace QuoteServer

open EventMachine

variable {FloatingP : Type}

/-! ## Calls one after another -/

/-- The event is part of a call of `subscribe` or `unsubscribe`. -/
def ServerEvent.ofCall : ServerEvent FloatingP → Bool
  | .market (.subscribeProduct _ _) => true
  | .market (.subscribeTrades _) => true
  | .market (.unsubscribe _ _) => true
  | _ => false

/-- The product of the `subscribe` under way after an event. -/
def ServerEvent.subscribing (before : Option String) : ServerEvent FloatingP → Option String
  | .market (.subscribeProduct _ prodId) => some prodId
  | .market (.subscribeTrades _) => none
  | _ => before

/-- The product of the `subscribe` under way: its first part is done, and its second one
is not. -/
def subscribing (es : List (ServerEvent FloatingP)) : Option String :=
  es.foldl ServerEvent.subscribing none

/-- An event does not start a call while one is under way, and ends only the one that
is. -/
def InTurn (underWay : Option String) : ServerEvent FloatingP → Prop
  | .market (.subscribeProduct _ _) => underWay = none
  | .market (.subscribeTrades prodId) => underWay = some prodId
  | .market (.unsubscribe _ _) => underWay = none
  | _ => True

/-- The calls are issued one after another. -/
def CallsInTurn (es : List (ServerEvent FloatingP)) : Prop :=
  ∀ pre e post, es = pre ++ e :: post → InTurn (subscribing pre) e

/-! ## What is kept -/

/-- The key sets of the three registries are equal. -/
structure RegistriesAgree (m : Market FloatingP) : Prop where
  tradePublishers : ∀ p, (m.tradePublishers p).isSome = (m.products p).isSome
  listeners : ∀ p, (m.feedClient.prodIdToListener p).isSome = (m.products p).isSome

/-- The entries of a product: its `Product` with book and publisher, its trade publisher,
and its `CoinbaseFeedProduct`. -/
structure SameEntries (p : String) (m m' : Market FloatingP) : Prop where
  product : m'.products p = m.products p
  tradePublisher : m'.tradePublishers p = m.tradePublishers p
  listener : m'.feedClient.prodIdToListener p = m.feedClient.prodIdToListener p

variable [FloatingPoint FloatingP]

/-- The server, with changes delivered by anyone. -/
def MarketState.openStep (provider : EndpointProvider) (s : MarketState FloatingP) :
    ServerEvent FloatingP → Option (MarketState FloatingP)
  | .market (.onProductChange pc) => s.step provider (.onProductChange pc)
  | e => s.serverStep provider e

def openMachine (provider : EndpointProvider) :
    Machine (MarketState FloatingP) (ServerEvent FloatingP) where
  step := MarketState.openStep provider

/-- What holds along a run of the server. -/
structure RegistriesKept (provider : EndpointProvider) (es : List (ServerEvent FloatingP)) :
    Prop where
  /-- The registries agree when no call is under way. -/
  agree : ∀ pre post t, es = pre ++ post → (openMachine provider).run {} pre = some t →
    subscribing pre = none → RegistriesAgree t.market
  /-- Both parts of a `subscribe` for a product that is there leave all entries. -/
  subscribe : ∀ pre c p mid post t t' u u',
    es = pre ++ .market (.subscribeProduct c p) :: mid ++ .market (.subscribeTrades p) :: post →
    (∀ e ∈ mid, e.ofCall = false) → (openMachine provider).run {} pre = some t →
    (t.market.products p).isSome = true →
    t.openStep provider (.market (.subscribeProduct c p)) = some t' →
    (openMachine provider).run t' mid = some u →
    u.openStep provider (.market (.subscribeTrades p)) = some u' →
    (∀ q, SameEntries q t.market t'.market) ∧ ∀ q, SameEntries q u.market u'.market
  /-- An `unsubscribe` leaves the entries of every other product. -/
  unsubscribe : ∀ pre c p post t t', es = pre ++ .market (.unsubscribe c p) :: post →
    (openMachine provider).run {} pre = some t →
    t.openStep provider (.market (.unsubscribe c p)) = some t' →
    ∀ q, q ≠ p → SameEntries q t.market t'.market

/-! ## Calls under way -/

section

omit [FloatingPoint FloatingP]

theorem subscribing_concat (es : List (ServerEvent FloatingP)) (e : ServerEvent FloatingP) :
    subscribing (es ++ [e]) = e.subscribing (subscribing es) := by
  rw [subscribing, List.foldl_append]
  rfl

/-- What is no part of a call changes nothing about the call under way. -/
theorem subscribing_of_quiet {e : ServerEvent FloatingP} (h : e.ofCall = false)
    (before : Option String) : e.subscribing before = before := by
  cases e with
  | feed => rfl
  | market e =>
    cases e with
    | subscribeProduct => cases h
    | subscribeTrades => cases h
    | unsubscribe => cases h
    | _ => rfl

theorem CallsInTurn.init {es : List (ServerEvent FloatingP)} {e : ServerEvent FloatingP}
    (h : CallsInTurn (es ++ [e])) : CallsInTurn es :=
  fun pre d post heq => h pre d (post ++ [e]) (by rw [heq, List.append_assoc]; rfl)

theorem CallsInTurn.concat {es : List (ServerEvent FloatingP)} {e : ServerEvent FloatingP}
    (h : CallsInTurn es) (he : InTurn (subscribing es) e) : CallsInTurn (es ++ [e]) := by
  intro pre d post heq
  rcases concat_eq_cut heq with ⟨rfl, rfl⟩ | ⟨post', rfl⟩
  · exact he
  · exact h pre d post' rfl

/-- A prefix of the calls is in turn. -/
theorem CallsInTurn.append_left {es fs : List (ServerEvent FloatingP)}
    (h : CallsInTurn (es ++ fs)) : CallsInTurn es :=
  fun pre d post heq => h pre d (post ++ fs) (by rw [heq, List.append_assoc]; rfl)

end

/-! ## What a call does to the entries -/

section

omit [FloatingPoint FloatingP]

theorem sameEntries_subscribeProduct {provider : EndpointProvider} {m m' : Market FloatingP}
    {c p q : String} (hq : q ≠ p) (h : m.subscribeProduct provider c p = .ok m') :
    SameEntries q m m' := by
  rcases Market.subscribeProduct_cases h with ⟨_, -, rfl⟩ | ⟨-, _, -, rfl⟩
  · exact ⟨rfl, rfl, rfl⟩
  · exact ⟨Function.update_of_ne hq .., rfl, m.feedClient.subscribe_listener_ne hq⟩

/-- A product that is there is left alone. -/
theorem subscribeProduct_there {provider : EndpointProvider} {m m' : Market FloatingP}
    {c p : String} (hp : (m.products p).isSome = true)
    (h : m.subscribeProduct provider c p = .ok m') (q : String) : SameEntries q m m' := by
  rcases Market.subscribeProduct_cases h with ⟨_, -, rfl⟩ | ⟨hnone, _, -, -⟩
  · exact ⟨rfl, rfl, rfl⟩
  · rw [hnone] at hp
    cases hp

theorem subscribeProduct_isSome {provider : EndpointProvider} {m m' : Market FloatingP}
    {c p : String} (h : m.subscribeProduct provider c p = .ok m') :
    (m'.products p).isSome = true := by
  rcases Market.subscribeProduct_cases h with ⟨product, hp, rfl⟩ | ⟨-, _, -, rfl⟩
  · show (m.products p).isSome = true
    rw [hp]
    rfl
  · exact (isSome_update_some ..).mpr (.inl rfl)

theorem sameEntries_subscribeTrades {provider : EndpointProvider} {m m' : Market FloatingP}
    {p q : String} (hq : q ≠ p) (h : m.subscribeTrades provider p = .ok m') :
    SameEntries q m m' := by
  rcases Market.subscribeTrades_cases h with ⟨-, rfl⟩ | ⟨-, _, -, rfl⟩
  · exact ⟨rfl, rfl, rfl⟩
  · exact ⟨rfl, Function.update_of_ne hq .., rfl⟩

/-- A trade publisher that is there is left alone. -/
theorem subscribeTrades_there {provider : EndpointProvider} {m m' : Market FloatingP}
    {p : String} (hp : (m.tradePublishers p).isSome = true)
    (h : m.subscribeTrades provider p = .ok m') : m' = m := by
  rcases Market.subscribeTrades_cases h with ⟨-, rfl⟩ | ⟨hnone, _, -, -⟩
  · rfl
  · rw [hnone] at hp
    cases hp

theorem subscribeTrades_isSome {provider : EndpointProvider} {m m' : Market FloatingP}
    {p : String} (h : m.subscribeTrades provider p = .ok m') :
    (m'.tradePublishers p).isSome = true := by
  rcases Market.subscribeTrades_cases h with ⟨hthere, rfl⟩ | ⟨-, _, -, rfl⟩
  · exact hthere
  · exact (isSome_update_some ..).mpr (.inl rfl)

theorem sameEntries_unsubscribe {m m' : Market FloatingP} {c p q : String} (hq : q ≠ p)
    (h : m.unsubscribe c p = .ok m') : SameEntries q m m' := by
  obtain ⟨product, -, ⟨-, rfl⟩ | ⟨-, rfl⟩⟩ := Market.unsubscribe_cases h
  · exact ⟨Function.update_of_ne hq .., Function.update_of_ne hq ..,
      m.feedClient.unsubscribe_listener_ne hq⟩
  · exact ⟨Function.update_of_ne hq .., rfl, rfl⟩

/-- The product named either keeps its entries or loses all of them. -/
theorem unsubscribe_isSome {m m' : Market FloatingP} {c p : String}
    (hm : (m.tradePublishers p).isSome = (m.products p).isSome)
    (h : m.unsubscribe c p = .ok m') :
    (m'.tradePublishers p).isSome = (m'.products p).isSome := by
  obtain ⟨product, hp, ⟨-, rfl⟩ | ⟨-, rfl⟩⟩ := Market.unsubscribe_cases h
  · show (Function.update m.tradePublishers p none p).isSome =
      (Function.update m.products p none p).isSome
    rw [Function.update_self, Function.update_self]
    rfl
  · show (m.tradePublishers p).isSome = (Function.update m.products p _ p).isSome
    rw [hm, hp, Function.update_self]
    rfl

end

/-! ## One step -/

theorem openStep_market {provider : EndpointProvider} {s s' : MarketState FloatingP}
    {e : MarketEvent FloatingP} (h : s.openStep provider (.market e) = some s') :
    s.step provider e = some s' := by
  have hserver : (∃ pc, e = .onProductChange pc) ∨
      s.openStep provider (.market e) = s.serverStep provider (.market e) := by
    cases e with
    | onProductChange pc => exact .inl ⟨pc, rfl⟩
    | _ => exact .inr rfl
  rcases hserver with ⟨pc, rfl⟩ | hserver
  · exact h
  · rw [hserver] at h
    exact (serverStep_market h).1

/-- Every run of the server is a run with changes that may come from anywhere. -/
theorem open_of_server {provider : EndpointProvider} {es : List (ServerEvent FloatingP)}
    {s s' : MarketState FloatingP} (hrun : (serverMachine provider).run s es = some s') :
    (openMachine provider).run s es = some s' := by
  induction es generalizing s with
  | nil => exact hrun
  | cons e es ih =>
    obtain ⟨t, hstep, hrest⟩ := Option.bind_eq_some_iff.mp hrun
    refine Option.bind_eq_some_iff.mpr ⟨t, ?_, ih hrest⟩
    cases e with
    | feed p e => exact hstep
    | market e =>
      cases e with
      | onProductChange pc => cases hstep
      | _ => exact hstep

theorem registered_openStep {provider : EndpointProvider} {s s' : MarketState FloatingP}
    {e : ServerEvent FloatingP} (hs : Registered s.market)
    (h : s.openStep provider e = some s') : Registered s'.market := by
  cases e with
  | market e => exact registered_market hs (openStep_market h)
  | feed p e =>
    have hserver : s.serverStep provider (.feed p e) = some s' := h
    exact registered_step hs hserver

omit [FloatingPoint FloatingP] in
/-- A trade creates and destroys no publisher. -/
theorem onTrade_tradePublishers (m : Market FloatingP) (trade : Trade FloatingP) (q : String) :
    ((m.onTrade trade).tradePublishers q).isSome = (m.tradePublishers q).isSome := by
  rw [Market.onTrade]
  cases hp : m.tradePublishers trade.getProductId with
  | none => rfl
  | some publisher =>
    refine Bool.eq_iff_iff.mpr ?_
    rw [isSome_update_some]
    constructor
    · rintro (rfl | hq)
      · rw [hp]
        rfl
      · exact hq
    · exact .inr

/-- What is no part of a call adds no entry and removes none. -/
theorem keys_of_quiet {provider : EndpointProvider} {s s' : MarketState FloatingP}
    {e : ServerEvent FloatingP} (hquiet : e.ofCall = false)
    (h : s.openStep provider e = some s') (q : String) :
    (s'.market.products q).isSome = (s.market.products q).isSome ∧
      (s'.market.tradePublishers q).isSome = (s.market.tradePublishers q).isSome := by
  cases e with
  | feed p e =>
    have hserver : s.serverStep provider (.feed p e) = some s' := h
    obtain ⟨f, f', pcs, -, -, -, -, rfl⟩ := serverStep_feed hserver
    exact ⟨rfl, rfl⟩
  | market e =>
    have hstep := openStep_market h
    cases e with
    | subscribeProduct => cases hquiet
    | subscribeTrades => cases hquiet
    | unsubscribe => cases hquiet
    | onProductChange pc =>
      cases hstep
      exact ⟨rfl, rfl⟩
    | onTrade trade =>
      cases hstep
      refine ⟨?_, onTrade_tradePublishers s.market trade q⟩
      exact congrArg (fun products => (products q).isSome) (s.market.onTrade_frame trade).1
    | takeChanges =>
      obtain ⟨-, rfl⟩ := step_takeChanges hstep
      exact ⟨rfl, rfl⟩
    | processChanges picks =>
      obtain ⟨it, -, -, rfl⟩ := step_processChanges hstep
      obtain ⟨products, heq, hsome⟩ := Market.processChanges_frame it s.market
      show ((s.market.processChanges it).products q).isSome = _ ∧
        ((s.market.processChanges it).tradePublishers q).isSome = _
      rw [heq]
      exact ⟨hsome q, rfl⟩

/-! ## Whole runs -/

/-- The invariant: products and feed products go together, and so do products and trade
publishers, but for the product of the `subscribe` under way, which may lack its trade
publisher. -/
structure KeysMatch (es : List (ServerEvent FloatingP)) (s : MarketState FloatingP) : Prop where
  registered : Registered s.market
  created : ∀ p, subscribing es = some p → (s.market.products p).isSome = true
  published : ∀ q, subscribing es ≠ some q →
    (s.market.tradePublishers q).isSome = (s.market.products q).isSome

section

omit [FloatingPoint FloatingP]

theorem KeysMatch.agree {es : List (ServerEvent FloatingP)} {s : MarketState FloatingP}
    (h : KeysMatch es s) (hcall : subscribing es = none) : RegistriesAgree s.market where
  tradePublishers q := h.published q (by rw [hcall]; exact nofun)
  listeners q := (h.registered.both q).symm

/-- Other products' trade publishers go with them as before. -/
theorem SameEntries.published {m m' : Market FloatingP} {q : String} (h : SameEntries q m m')
    (hm : (m.tradePublishers q).isSome = (m.products q).isSome) :
    (m'.tradePublishers q).isSome = (m'.products q).isSome := by
  rw [h.tradePublisher, h.product]
  exact hm

end

/-- What is no part of a call. -/
theorem KeysMatch.quiet {provider : EndpointProvider} {es : List (ServerEvent FloatingP)}
    {s s' : MarketState FloatingP} {e : ServerEvent FloatingP} (hs : KeysMatch es s)
    (hquiet : e.ofCall = false) (h : s.openStep provider e = some s') :
    KeysMatch (es ++ [e]) s' := by
  have hkeys := keys_of_quiet hquiet h
  refine ⟨registered_openStep hs.registered h, fun p hp => ?_, fun q hq => ?_⟩
  · rw [subscribing_concat, subscribing_of_quiet hquiet] at hp
    rw [(hkeys p).1]
    exact hs.created p hp
  · rw [subscribing_concat, subscribing_of_quiet hquiet] at hq
    rw [(hkeys q).1, (hkeys q).2]
    exact hs.published q hq

/-- The first part of a `subscribe`. -/
theorem KeysMatch.subscribeProduct {provider : EndpointProvider}
    {es : List (ServerEvent FloatingP)} {s s' : MarketState FloatingP} {c p : String}
    (hs : KeysMatch es s) (hturn : subscribing es = none)
    (h : s.openStep provider (.market (.subscribeProduct c p)) = some s') :
    KeysMatch (es ++ [.market (.subscribeProduct c p)]) s' := by
  have hregistered := registered_openStep hs.registered h
  obtain ⟨m, hm, rfl⟩ := toOption_map_eq_some.mp (openStep_market h)
  refine ⟨hregistered, fun q hq => ?_, fun q hq => ?_⟩
  · rw [subscribing_concat] at hq
    cases hq
    exact subscribeProduct_isSome hm
  · rw [subscribing_concat] at hq
    have hne : q ≠ p := by
      rintro rfl
      exact hq rfl
    exact (sameEntries_subscribeProduct hne hm).published ((hs.agree hturn).tradePublishers q)

/-- The rest of it. -/
theorem KeysMatch.subscribeTrades {provider : EndpointProvider}
    {es : List (ServerEvent FloatingP)} {s s' : MarketState FloatingP} {p : String}
    (hs : KeysMatch es s) (hturn : subscribing es = some p)
    (h : s.openStep provider (.market (.subscribeTrades p)) = some s') :
    KeysMatch (es ++ [.market (.subscribeTrades p)]) s' := by
  have hregistered := registered_openStep hs.registered h
  obtain ⟨m, hm, rfl⟩ := toOption_map_eq_some.mp (openStep_market h)
  refine ⟨hregistered, fun q hq => ?_, fun q hq => ?_⟩
  · rw [subscribing_concat] at hq
    cases hq
  · by_cases hne : q = p
    · -- the publisher is there now, and the product has been
      subst hne
      show (m.tradePublishers q).isSome = (m.products q).isSome
      rw [subscribeTrades_isSome hm, (Market.untouched_subscribeTrades hm).1,
        hs.created q hturn]
    · refine (sameEntries_subscribeTrades hne hm).published (hs.published q ?_)
      rw [hturn]
      exact fun heq => hne (Option.some.inj heq).symm

theorem KeysMatch.unsubscribe {provider : EndpointProvider}
    {es : List (ServerEvent FloatingP)} {s s' : MarketState FloatingP} {c p : String}
    (hs : KeysMatch es s) (hturn : subscribing es = none)
    (h : s.openStep provider (.market (.unsubscribe c p)) = some s') :
    KeysMatch (es ++ [.market (.unsubscribe c p)]) s' := by
  have hregistered := registered_openStep hs.registered h
  have hagree := hs.agree hturn
  obtain ⟨m, hm, rfl⟩ := toOption_map_eq_some.mp (openStep_market h)
  have hnone : subscribing (es ++ [.market (.unsubscribe c p)]) = none := by
    rw [subscribing_concat]
    exact hturn
  refine ⟨hregistered, fun q hq => ?_, fun q hq => ?_⟩
  · rw [hnone] at hq
    cases hq
  · by_cases hne : q = p
    · subst hne
      exact unsubscribe_isSome (hagree.tradePublishers q) hm
    · exact (sameEntries_unsubscribe hne hm).published (hagree.tradePublishers q)

theorem keysMatch_step {provider : EndpointProvider} {es : List (ServerEvent FloatingP)}
    {s s' : MarketState FloatingP} {e : ServerEvent FloatingP} (hs : KeysMatch es s)
    (hturn : InTurn (subscribing es) e) (h : s.openStep provider e = some s') :
    KeysMatch (es ++ [e]) s' := by
  cases e with
  | feed p e => exact hs.quiet rfl h
  | market e =>
    cases e with
    | subscribeProduct c p => exact hs.subscribeProduct hturn h
    | subscribeTrades p => exact hs.subscribeTrades hturn h
    | unsubscribe c p => exact hs.unsubscribe hturn h
    | _ => exact hs.quiet rfl h

theorem keysMatch_of_run {provider : EndpointProvider} {es : List (ServerEvent FloatingP)}
    {s : MarketState FloatingP} (hcalls : CallsInTurn es)
    (hrun : (openMachine provider).run {} es = some s) : KeysMatch es s := by
  refine (openMachine provider).history_rule (I := fun es s => CallsInTurn es → KeysMatch es s)
    ?_ ?_ ((openMachine provider).guarded_true _ es) hrun hcalls
  · intro _
    exact ⟨⟨fun q => rfl, fun q f hf => (nomatch hf)⟩, fun p hp => (nomatch hp), fun q _ => rfl⟩
  · intro es s e s' _ ih _ hstep hcalls
    exact keysMatch_step (ih hcalls.init) (hcalls es e [] rfl) hstep

/-- Between two calls the trade publishers stay. -/
theorem tradePublisher_of_quiet {provider : EndpointProvider} {es : List (ServerEvent FloatingP)}
    {s s' : MarketState FloatingP} {p : String} (hquiet : ∀ e ∈ es, e.ofCall = false)
    (hrun : (openMachine provider).run s es = some s') :
    (s'.market.tradePublishers p).isSome = (s.market.tradePublishers p).isSome := by
  induction es generalizing s with
  | nil =>
    cases hrun
    rfl
  | cons e es ih =>
    obtain ⟨t, hstep, hrest⟩ := Option.bind_eq_some_iff.mp hrun
    rw [ih (fun d hd => hquiet d (List.mem_cons_of_mem _ hd)) hrest]
    exact (keys_of_quiet (hquiet e List.mem_cons_self) hstep p).2

/-- **The three registries always agree**: for every sequence of calls issued one after
another, and everything else in between. -/
theorem registries_kept {provider : EndpointProvider} {es : List (ServerEvent FloatingP)}
    (hcalls : CallsInTurn es) : RegistriesKept provider es where
  agree := by
    rintro pre post t rfl hrun hnone
    exact (keysMatch_of_run hcalls.append_left hrun).agree hnone
  subscribe := by
    rintro pre c p mid post t t' u u' rfl hquiet hrun hthere hfirst hmid hsecond
    have hturn : subscribing pre = none := hcalls pre _ _ (List.append_assoc ..)
    have hmatch : KeysMatch pre t := by
      rw [List.append_assoc] at hcalls
      exact keysMatch_of_run hcalls.append_left hrun
    obtain ⟨m, hm, rfl⟩ := toOption_map_eq_some.mp (openStep_market hfirst)
    have hsame := subscribeProduct_there hthere hm
    -- the trade publisher is there at the start of the call, so it is there at its end
    have hpublisher : (u.market.tradePublishers p).isSome = true := by
      rw [tradePublisher_of_quiet hquiet hmid]
      show (m.tradePublishers p).isSome = true
      rw [(hsame p).tradePublisher, (hmatch.agree hturn).tradePublishers p]
      exact hthere
    obtain ⟨m', hm', rfl⟩ := toOption_map_eq_some.mp (openStep_market hsecond)
    refine ⟨hsame, fun q => ?_⟩
    obtain rfl := subscribeTrades_there hpublisher hm'
    exact ⟨rfl, rfl, rfl⟩
  unsubscribe := by
    intro pre c p post t t' _ _ hstep q hq
    obtain ⟨m, hm, rfl⟩ := toOption_map_eq_some.mp (openStep_market hstep)
    exact sameEntries_unsubscribe hq hm

/-- A client subscribes while changes arrive, a second one subscribes to the same product,
and one of them unsubscribes. -/
theorem registries_kept_shared :
    ∃ s : MarketState Int,
      (openMachine .ethUsd).run {}
        [.market (.subscribeProduct "1" "ETH-USD"),
          .market (.onProductChange (.orderDone "A" .sell "ETH-USD" 5)),
          .market (.subscribeTrades "ETH-USD"), .market (.subscribeProduct "2" "ETH-USD"),
          .market .takeChanges, .market (.subscribeTrades "ETH-USD"),
          .feed "ETH-USD" (.complete .empty), .market (.unsubscribe "1" "ETH-USD")] = some s ∧
      RegistriesKept .ethUsd
        [.market (.subscribeProduct "1" "ETH-USD"),
          .market (.onProductChange (.orderDone "A" .sell "ETH-USD" 5) : MarketEvent Int),
          .market (.subscribeTrades "ETH-USD"), .market (.subscribeProduct "2" "ETH-USD"),
          .market .takeChanges, .market (.subscribeTrades "ETH-USD"),
          .feed "ETH-USD" (.complete .empty), .market (.unsubscribe "1" "ETH-USD")] := by
  refine ⟨_, rfl, registries_kept ?_⟩
  have hnil : CallsInTurn ([] : List (ServerEvent Int)) := by
    intro pre e post heq
    exact absurd heq.symm (List.append_ne_nil_of_right_ne_nil pre (List.cons_ne_nil e post))
  have hfirst := ((hnil.concat (e := .market (.subscribeProduct "1" "ETH-USD")) rfl).concat
    (e := .market (.onProductChange (.orderDone "A" .sell "ETH-USD" 5))) trivial).concat
      (e := .market (.subscribeTrades "ETH-USD")) rfl
  have hsecond := ((hfirst.concat (e := .market (.subscribeProduct "2" "ETH-USD")) rfl).concat
    (e := .market .takeChanges) trivial).concat (e := .market (.subscribeTrades "ETH-USD")) rfl
  exact (hsecond.concat (e := .feed "ETH-USD" (.complete .empty)) trivial).concat
    (e := .market (.unsubscribe "1" "ETH-USD")) rfl

end QuoteServer
