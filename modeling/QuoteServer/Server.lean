import QuoteServer.Coinbase.FirstReset
import QuoteServer.MarketOrder

/-!
# The server: market and feed together

`serverMachine` runs the market with the `CoinbaseFeedProduct`s its feed client owns. A
change reaches the market only from a feed product that passes it on, and the feed
products come and go with the subscriptions: `subscribe` creates one, `unsubscribe`
destroys it, after waiting for its two threads.

Each part of the server is the machine it was before. `feed_of_server` says so for a
feed product: since it was created, its state is that of `feedMachine` over its own
events (`feedEvents`). For the market it is the definition of a step.
-/

namespace QuoteServer

open EventMachine KeyedBatch

variable {FloatingP : Type}

/-- An event of the market or of one product of the feed. -/
inductive ServerEvent (FloatingP : Type) where
  | market (e : MarketEvent FloatingP)
  | feed (prodId : String) (e : FeedEvent)

/-- The market with another state of one feed product. -/
def Market.setListener (m : Market FloatingP) (prodId : String) (f : FeedState FloatingP) :
    Market FloatingP :=
  { m with
    feedClient := { m.feedClient with
      prodIdToListener := Function.update m.feedClient.prodIdToListener prodId (some f) } }

/-- Both threads of a feed product came to rest, as its destructor waits for. -/
def FeedState.atRest (f : FeedState FloatingP) : Bool :=
  !f.product.requestRunning && f.messages.isEmpty

/-- Whether a step that destroys the feed product `prodId` may do so now. -/
def mayDestroy (prodId : String) (s s' : MarketState FloatingP) : Bool :=
  match s.market.feedClient.prodIdToListener prodId,
    s'.market.feedClient.prodIdToListener prodId with
  | some f, none => f.atRest
  | _, _ => true

variable [FloatingPoint FloatingP]

/-- The changes a feed product passed on in its last step are delivered to the market. -/
def MarketState.deliver (s : MarketState FloatingP) (prodId : String)
    (f f' : FeedState FloatingP) : MarketState FloatingP :=
  let market := s.market.setListener prodId f'
  { s with market := (f'.emitted.drop f.emitted.length).foldl Market.onProductChange market }

def MarketState.serverStep (provider : EndpointProvider) (s : MarketState FloatingP) :
    ServerEvent FloatingP → Option (MarketState FloatingP)
  | .market (.onProductChange _) => none
  | .market (.unsubscribe clientId prodId) =>
    (s.step provider (.unsubscribe clientId prodId)).filter (mayDestroy prodId s)
  | .market e => s.step provider e
  | .feed prodId e =>
    match s.market.feedClient.prodIdToListener prodId with
    | some f => (f.step e).map fun f' => s.deliver prodId f f'
    | none => none

def serverMachine (provider : EndpointProvider) :
    Machine (MarketState FloatingP) (ServerEvent FloatingP) where
  step := MarketState.serverStep provider

omit [FloatingPoint FloatingP] in
/-- The events of one feed product. -/
def feedEvents (p : String) (es : List (ServerEvent FloatingP)) : List FeedEvent :=
  es.filterMap fun
    | .feed q e => if q = p then some e else none
    | .market _ => none

omit [FloatingPoint FloatingP] in
theorem feedEvents_append (p : String) (es fs : List (ServerEvent FloatingP)) :
    feedEvents p (es ++ fs) = feedEvents p es ++ feedEvents p fs := List.filterMap_append

/-! ## What a step is -/

omit [FloatingPoint FloatingP] in
theorem foldl_onProductChange (m : Market FloatingP) (pcs : List (ProductChange FloatingP)) :
    pcs.foldl Market.onProductChange m =
      { m with productChanges := m.productChanges ++ pcs } := by
  induction pcs generalizing m with
  | nil =>
    show m = { m with productChanges := m.productChanges ++ [] }
    rw [List.append_nil]
  | cons pc pcs ih =>
    rw [List.foldl_cons, ih]
    show _ = ({ m with productChanges := m.productChanges ++ ([pc] ++ pcs) } : Market FloatingP)
    rw [← List.append_assoc]
    rfl

/-- A step of the market within the server is a step of the market alone, and not a
delivery. -/
theorem serverStep_market {provider : EndpointProvider} {s s' : MarketState FloatingP}
    {e : MarketEvent FloatingP} (h : s.serverStep provider (.market e) = some s') :
    s.step provider e = some s' ∧ ∀ pc, e ≠ .onProductChange pc := by
  cases e with
  | onProductChange pc => cases h
  | unsubscribe c q =>
    exact ⟨(Option.filter_eq_some_iff.mp h).1, fun pc h => (nomatch h)⟩
  | _ => exact ⟨h, fun pc h => (nomatch h)⟩

/-- A step of a feed product: it is one of `feedMachine`, and what it passes on waits in
the market behind everything delivered before. -/
theorem serverStep_feed {provider : EndpointProvider} {s s' : MarketState FloatingP}
    {p : String} {e : FeedEvent} (h : s.serverStep provider (.feed p e) = some s') :
    ∃ f f' pcs, s.market.feedClient.prodIdToListener p = some f ∧ f.step e = some f' ∧
      f'.emitted = f.emitted ++ pcs ∧
      (∀ pc ∈ pcs, pc.getProductId = f.product.productId) ∧
      s' = { s with
        market := { s.market.setListener p f' with
          productChanges := s.market.productChanges ++ pcs } } := by
  unfold MarketState.serverStep at h
  dsimp only at h
  cases hf : s.market.feedClient.prodIdToListener p with
  | none =>
    rw [hf] at h
    cases h
  | some f =>
    rw [hf] at h
    obtain ⟨f', hstep, rfl⟩ := Option.map_eq_some_iff.mp h
    obtain ⟨pcs, hemitted, hids⟩ := feed_step_emitted hstep
    refine ⟨f, f', pcs, rfl, hstep, hemitted, hids, ?_⟩
    rw [MarketState.deliver, hemitted, List.drop_left]
    dsimp only
    rw [foldl_onProductChange]
    rfl

/-! ## Products and feed products go together -/

/-- The market has a product exactly when its feed client has one, and each feed product
is registered under its own id. -/
structure Registered (m : Market FloatingP) : Prop where
  both : ∀ q, (m.products q).isSome = (m.feedClient.prodIdToListener q).isSome
  ids : ∀ q f, m.feedClient.prodIdToListener q = some f → f.product.productId = q

section

omit [FloatingPoint FloatingP]

theorem Registered.listener_none {m : Market FloatingP} {p : String} (hm : Registered m)
    (hp : m.products p = none) : m.feedClient.prodIdToListener p = none := by
  have hboth := hm.both p
  rw [hp] at hboth
  exact Option.isNone_iff_eq_none.mp (Option.isSome_eq_false_iff.mp hboth.symm)

theorem registered_subscribeProduct {provider : EndpointProvider} {m m' : Market FloatingP}
    {c p : String} (hm : Registered m) (h : m.subscribeProduct provider c p = .ok m') :
    Registered m' := by
  rcases Market.subscribeProduct_cases h with ⟨_, -, rfl⟩ | ⟨hp, endpoint, -, rfl⟩
  · exact ⟨hm.both, hm.ids⟩
  · have hnew := m.feedClient.subscribe_listener_none (hm.listener_none hp)
    refine ⟨fun q => Bool.eq_iff_iff.mpr ?_, fun q f hf => ?_⟩
    · rw [isSome_update_some, CoinbaseFeedClient.subscribe_listener_isSome, hm.both]
    · change (m.feedClient.subscribe p).prodIdToListener q = some f at hf
      by_cases hq : q = p
      · -- the feed product created starts under its own id
        subst hq
        rw [hnew] at hf
        cases hf
        rfl
      · rw [m.feedClient.subscribe_listener_ne hq] at hf
        exact hm.ids q f hf

theorem registered_unsubscribe {m m' : Market FloatingP} {c p : String} (hm : Registered m)
    (h : m.unsubscribe c p = .ok m') : Registered m' := by
  obtain ⟨product, hp, ⟨-, rfl⟩ | ⟨-, rfl⟩⟩ := Market.unsubscribe_cases h
  · refine ⟨fun q => Bool.eq_iff_iff.mpr ?_, fun q f hf => ?_⟩
    · rw [isSome_update_none, CoinbaseFeedClient.unsubscribe_listener_isSome, hm.both]
    · change (m.feedClient.unsubscribe p).prodIdToListener q = some f at hf
      by_cases hq : q = p
      · subst hq
        rw [CoinbaseFeedClient.unsubscribe_listener_self] at hf
        cases hf
      · rw [m.feedClient.unsubscribe_listener_ne hq] at hf
        exact hm.ids q f hf
  · -- the product stays, with one client less
    refine ⟨fun q => Bool.eq_iff_iff.mpr ?_, hm.ids⟩
    rw [isSome_update_some, ← hm.both]
    constructor
    · rintro (rfl | hq)
      · rw [hp, Option.isSome_some]
      · exact hq
    · exact .inr

theorem setListener_listener_ne (m : Market FloatingP) {p q : String}
    (f : FeedState FloatingP) (h : q ≠ p) :
    (m.setListener p f).feedClient.prodIdToListener q = m.feedClient.prodIdToListener q :=
  Function.update_of_ne h ..

theorem setListener_listener_self (m : Market FloatingP) (p : String)
    (f : FeedState FloatingP) :
    (m.setListener p f).feedClient.prodIdToListener p = some f :=
  Function.update_self ..

end

theorem registered_market {provider : EndpointProvider} {s s' : MarketState FloatingP}
    {e : MarketEvent FloatingP} (hs : Registered s.market) (h : s.step provider e = some s') :
    Registered s'.market := by
  cases e with
  | subscribeProduct c q =>
    obtain ⟨m, hm, rfl⟩ := toOption_map_eq_some.mp h
    exact registered_subscribeProduct hs hm
  | subscribeTrades q =>
    obtain ⟨m, hm, rfl⟩ := toOption_map_eq_some.mp h
    rcases Market.subscribeTrades_cases hm with ⟨-, rfl⟩ | ⟨-, _, -, rfl⟩
    · exact hs
    · exact ⟨hs.both, hs.ids⟩
  | unsubscribe c q =>
    obtain ⟨m, hm, rfl⟩ := toOption_map_eq_some.mp h
    exact registered_unsubscribe hs hm
  | onProductChange pc =>
    cases h
    exact ⟨hs.both, hs.ids⟩
  | onTrade trade =>
    cases h
    obtain ⟨hproducts, -, hfeed⟩ := s.market.onTrade_frame trade
    refine ⟨fun q => ?_, fun q f hf => ?_⟩
    · show ((s.market.onTrade trade).products q).isSome =
        ((s.market.onTrade trade).feedClient.prodIdToListener q).isSome
      rw [hproducts, hfeed]
      exact hs.both q
    · change (s.market.onTrade trade).feedClient.prodIdToListener q = some f at hf
      rw [hfeed] at hf
      exact hs.ids q f hf
  | takeChanges =>
    obtain ⟨-, rfl⟩ := step_takeChanges h
    exact ⟨hs.both, hs.ids⟩
  | processChanges picks =>
    obtain ⟨it, -, -, rfl⟩ := step_processChanges h
    obtain ⟨products, heq, hsome⟩ := Market.processChanges_frame it s.market
    show Registered (s.market.processChanges it)
    rw [heq]
    exact ⟨fun q => (hsome q).trans (hs.both q), hs.ids⟩

theorem registered_step {provider : EndpointProvider} {s s' : MarketState FloatingP}
    {e : ServerEvent FloatingP} (hs : Registered s.market)
    (h : s.serverStep provider e = some s') : Registered s'.market := by
  cases e with
  | market e => exact registered_market hs (serverStep_market h).1
  | feed p e =>
    obtain ⟨f, f', pcs, hf, hstep, -, -, rfl⟩ := serverStep_feed h
    refine ⟨fun q => ?_, fun q g hg => ?_⟩
    · show (s.market.products q).isSome =
        ((s.market.setListener p f').feedClient.prodIdToListener q).isSome
      rw [hs.both]
      by_cases hq : q = p
      · subst hq
        rw [setListener_listener_self, hf]
        rfl
      · rw [setListener_listener_ne _ _ hq]
    · change (s.market.setListener p f').feedClient.prodIdToListener q = some g at hg
      by_cases hq : q = p
      · subst hq
        rw [setListener_listener_self] at hg
        cases hg
        exact (feed_step_productId hstep).trans (hs.ids q f hf)
      · rw [setListener_listener_ne _ _ hq] at hg
        exact hs.ids q g hg

omit [FloatingPoint FloatingP] in
theorem registered_empty : Registered ({} : Market FloatingP) :=
  ⟨fun _ => rfl, fun _ _ hf => nomatch hf⟩

/-- In every reachable state products and feed products go together. -/
theorem registered_of_run {provider : EndpointProvider} {es : List (ServerEvent FloatingP)}
    {s : MarketState FloatingP} (hrun : (serverMachine provider).run {} es = some s) :
    Registered s.market := by
  refine (serverMachine provider).invariant_rule (I := fun s => Registered s.market) ?_ ?_
    ((serverMachine provider).guarded_true _ es) hrun
  · exact registered_empty
  · intro s e s' hs _ hstep
    exact registered_step hs hstep

/-- The calls of the market's three sides leave the feed product of a product that
stays. -/
theorem listener_market {provider : EndpointProvider} {s s' : MarketState FloatingP}
    {e : MarketEvent FloatingP} {p : String} {f : FeedState FloatingP}
    (hs : Registered s.market) (hf : s.market.feedClient.prodIdToListener p = some f)
    (hstays : (s'.market.products p).isSome = true) (h : s.step provider e = some s') :
    s'.market.feedClient.prodIdToListener p = some f := by
  have hproduct : (s.market.products p).isSome = true := by
    rw [hs.both, hf]
    rfl
  cases e with
  | subscribeProduct c q =>
    obtain ⟨m, hm, rfl⟩ := toOption_map_eq_some.mp h
    rcases Market.subscribeProduct_cases hm with ⟨_, -, rfl⟩ | ⟨hq, _, -, rfl⟩
    · exact hf
    · have hne : p ≠ q := by
        rintro rfl
        rw [hq] at hproduct
        cases hproduct
      exact (s.market.feedClient.subscribe_listener_ne hne).trans hf
  | subscribeTrades q =>
    obtain ⟨m, hm, rfl⟩ := toOption_map_eq_some.mp h
    rcases Market.subscribeTrades_cases hm with ⟨-, rfl⟩ | ⟨-, _, -, rfl⟩
    · exact hf
    · exact hf
  | unsubscribe c q =>
    obtain ⟨m, hm, rfl⟩ := toOption_map_eq_some.mp h
    obtain ⟨product, -, ⟨-, rfl⟩ | ⟨-, rfl⟩⟩ := Market.unsubscribe_cases hm
    · have hne : p ≠ q := by
        rintro rfl
        exact ((isSome_update_none s.market.products p p).mp hstays).1 rfl
      exact (s.market.feedClient.unsubscribe_listener_ne hne).trans hf
    · exact hf
  | onProductChange pc =>
    cases h
    exact hf
  | onTrade trade =>
    cases h
    rw [← hf]
    exact congrArg (CoinbaseFeedClient.prodIdToListener · p) (s.market.onTrade_frame trade).2.2
  | takeChanges =>
    obtain ⟨-, rfl⟩ := step_takeChanges h
    exact hf
  | processChanges picks =>
    obtain ⟨it, -, -, rfl⟩ := step_processChanges h
    obtain ⟨products, heq, -⟩ := Market.processChanges_frame it s.market
    show (s.market.processChanges it).feedClient.prodIdToListener p = some f
    rw [heq]
    exact hf

/-! ## A feed product within the server -/

omit [FloatingPoint FloatingP] in
theorem feedEvents_market (p : String) (e : MarketEvent FloatingP) :
    feedEvents p [.market e] = [] := rfl

omit [FloatingPoint FloatingP] in
theorem feedEvents_self (p : String) (e : FeedEvent) :
    feedEvents p [(.feed p e : ServerEvent FloatingP)] = [e] := by
  simp [feedEvents]

omit [FloatingPoint FloatingP] in
theorem feedEvents_ne {p q : String} (e : FeedEvent) (h : q ≠ p) :
    feedEvents p [(.feed q e : ServerEvent FloatingP)] = [] := by
  simp [feedEvents, h]

/-- **Within the server a feed product is `feedMachine`** over its own events, as long as
its product stays. -/
theorem feed_of_server {provider : EndpointProvider} {p : String} {f₀ : FeedState FloatingP}
    {es : List (ServerEvent FloatingP)} {s₀ s : MarketState FloatingP}
    (hreg : Registered s₀.market) (h₀ : s₀.market.feedClient.prodIdToListener p = some f₀)
    (hstays : StaysIn (serverMachine provider) p s₀ es)
    (hrun : (serverMachine provider).run s₀ es = some s) :
    ∃ f, s.market.feedClient.prodIdToListener p = some f ∧
      (feedMachine FloatingP).run f₀ (feedEvents p es) = some f := by
  have hboth : Registered s.market ∧ ∃ f, s.market.feedClient.prodIdToListener p = some f ∧
      (feedMachine FloatingP).run f₀ (feedEvents p es) = some f := by
    refine (serverMachine provider).history_rule
      (I := fun es s => StaysIn (serverMachine provider) p s₀ es → Registered s.market ∧
        ∃ f, s.market.feedClient.prodIdToListener p = some f ∧
          (feedMachine FloatingP).run f₀ (feedEvents p es) = some f)
      ?_ ?_ ((serverMachine provider).guarded_true _ es) hrun hstays
    · exact fun _ => ⟨hreg, f₀, h₀, rfl⟩
    · intro es s e s' hpre ih _ hstep hstays
      obtain ⟨hs, f, hf, hfeed⟩ := ih hstays.init
      have hserver : s.serverStep provider e = some s' := hstep
      refine ⟨registered_step hs hserver, ?_⟩
      rw [feedEvents_append]
      -- only an event of this feed product is one of its own run
      cases e with
      | market e =>
        refine ⟨f, ?_, ?_⟩
        · exact listener_market hs hf (hstays.last hpre hserver) (serverStep_market hserver).1
        · rw [feedEvents_market, List.append_nil]
          exact hfeed
      | feed q e =>
        obtain ⟨g, g', pcs, hg, hgstep, -, -, rfl⟩ := serverStep_feed hserver
        by_cases hq : q = p
        · subst hq
          obtain rfl : f = g := Option.some.inj (hf.symm.trans hg)
          refine ⟨g', setListener_listener_self _ _ _, ?_⟩
          rw [feedEvents_self]
          exact (Machine.run_snoc _).mpr ⟨f, hfeed, hgstep⟩
        · refine ⟨f, (setListener_listener_ne _ _ (Ne.symm hq)).trans hf, ?_⟩
          rw [feedEvents_ne e hq, List.append_nil]
          exact hfeed
  exact hboth.2

end QuoteServer
