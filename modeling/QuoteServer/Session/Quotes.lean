import QuoteServer.Session.Listeners
import QuoteServer.Session.Refinement

/-!
# What the clients of a session receive

A client that subscribed to a product listens where its books are published, and what it
receives there are the replicas of the exchange's book at increasing sequence numbers
(`quotes_received`).
-/

namespace QuoteServer

open EventMachine RequestReply ClientService CoinbaseFeedMessageHandler

variable {FloatingP : Type} [FloatingPoint FloatingP]

/-! ## What is received -/

section

variable {κ : Type} [DecidableEq κ] {dump : Json → List UInt8} {parse : Parser}
  {scenario : κ → List ScenarioEntry} {es : List (SessionEvent κ (ServerEvent FloatingP))}
  {s : Session κ (MarketState FloatingP)}

omit [DecidableEq κ] [FloatingPoint FloatingP] in
/-- A client that only subscribes to a product subscribed to it last. -/
theorem getLast?_kindsFor_of_kept {p : String} {entries : List ScenarioEntry}
    {entry : ScenarioEntry}
    (hkept : ∀ entry ∈ entries, entry.productId = p → entry.subscribe = true)
    (hmem : entry ∈ entries) (hentry : entry.productId = p) :
    (kindsFor p entries).getLast? = some .subscribe := by
  have hall : ∀ kind ∈ kindsFor p entries, kind = .subscribe := by
    intro kind hkind
    obtain ⟨other, hother, rfl⟩ := List.mem_map.mp hkind
    rw [List.mem_filter, decide_eq_true_eq] at hother
    rw [ScenarioEntry.kind, if_pos (hkept other hother.1 hother.2)]
  have hkind : entry.kind ∈ kindsFor p entries :=
    List.mem_map_of_mem (List.mem_filter.mpr ⟨hmem, decide_eq_true hentry⟩)
  cases hlast : (kindsFor p entries).getLast? with
  | none =>
    rw [List.getLast?_eq_none_iff.mp hlast] at hkind
    exact absurd hkind List.not_mem_nil
  | some kind => rw [hall kind (List.mem_of_getLast? hlast)]

/-- The client listens with one thread where the books of the product are published, and
whatever part of them it receives are replicas at increasing sequence numbers. -/
structure ReceivesQuotes (demo : DemoClient) (m : Market FloatingP) (p : String)
    (endpoint : Endpoint) (S : Nat) (r : Json) (msgs : List Json) : Prop where
  listening : demo.listening endpoint.orderbookAddress = 1
  published : ∃ product, m.products p = some product ∧
    "tcp://" ++ product.publisher.endpoint = endpoint.orderbookAddress ∧
    ∀ received, received.Sublist product.publisher.published →
      Sampling.Sampled (ReplicaAt p r msgs) S (S + msgs.length) received

/-- The books of a product that nobody gives up, in a session. -/
theorem session_sampled {p : String} {S : Nat} {r : Json} {product : Product FloatingP}
    (hdump : Transmits dump parse)
    (hrun : (serverSession dump parse).run (.initial {} scenario) es = some s)
    (hg : (serverSession dump parse).Guarded (Regular dump parse p) (.initial {} scenario) es)
    (hkept : ∀ k, ∀ entry ∈ scenario k, entry.productId = p → entry.subscribe = true)
    (hb : FirstBook (S + 1) S r) (hl : FollowedWithoutHole S r [] (feedEvents p (ownEvents es)))
    (hproduct : s.server.productSubscriber.market.products p = some product) :
    Sampling.Sampled (ReplicaAt p r (newerArrivals S (feedEvents p (ownEvents es)))) S
      (S + (newerArrivals S (feedEvents p (ownEvents es))).length) product.publisher.published := by
  obtain ⟨events, hevents⟩ := session_server hrun hg
  -- any table that the session may still get does
  obtain ⟨provider, hprovider⟩ : ∃ provider, ∀ table, s.server.provider = some table →
      provider = table := by
    cases htable : s.server.provider with
    | none => exact ⟨{}, fun table h => (nomatch h)⟩
    | some table => exact ⟨table, fun table' h => Option.some.inj h⟩
  obtain ⟨hserver, hguarded⟩ := hevents.run provider hprovider
  have hfeed : feedEvents p events = feedEvents p (ownEvents es) := by
    rw [← hevents.others, feedEvents_quiet]
  rw [← hfeed] at hl ⊢
  rcases livesOnce_of_run hserver (hevents.kept hdump hrun hkept) with
    huntouched | ⟨c, pre, post, t₀, t₁, rfl, hcreated⟩
  · rw [huntouched.absent] at hproduct
    cases hproduct
  · have hpost : feedEvents p (pre ++ .market (.subscribeProduct c p) :: post) =
        feedEvents p post := by
      rw [feedEvents_append, hcreated.untouched.unfed, ← List.singleton_append (l := post),
        feedEvents_append, feedEvents_market]
      rfl
    rw [hpost] at hl ⊢
    have hone : (serverMachine provider).run {} (pre ++ [.market (.subscribeProduct c p)]) =
        some t₁ := (Machine.run_snoc _).mpr ⟨t₀, hcreated.before, hcreated.created⟩
    have hsplit : pre ++ .market (.subscribeProduct c p) :: post =
        pre ++ [.market (.subscribeProduct c p)] ++ post := by simp
    rw [hsplit] at hguarded
    have hdrains := Machine.guarded_append_right _ hguarded hone
    obtain ⟨product₀, arrived, f, product', batches, hbook, hpublished, hfed, hfrun⟩ :=
      fed_of_run hcreated.before hcreated.untouched.absent hcreated.untouched.nothing
        hcreated.created hcreated.after hcreated.stays hdrains
    obtain rfl : product = product' :=
      Option.some.inj (hproduct.symm.trans hfed.inOrder.product_eq)
    exact hfed.sampled hbook hpublished hb hl hfrun

/-- **What a client receives.** In every session of scenarios that the threads can follow, in
which nobody unsubscribes from a product and the messages above its first book follow it one
by one: a client that read every reply and handled every endpoint listens, for every entry
of the product that was answered with an endpoint, with one thread where the books of the
product are published, and whatever part of them reaches it are the exchange's snapshot and
messages up to increasing numbers. -/
theorem quotes_received {p : String} {S : Nat} {r : Json} (hdump : Transmits dump parse)
    (hscenario : Followable scenario)
    (hes : ∀ k x, Event.serve k x ∈ es → ListsFew parse x.products)
    (hrun : (serverSession dump parse).run (.initial {} scenario) es = some s)
    (hg : (serverSession dump parse).Guarded (Regular dump parse p) (.initial {} scenario) es)
    (hkept : ∀ k, ∀ entry ∈ scenario k, entry.productId = p → entry.subscribe = true)
    (hb : FirstBook (S + 1) S r) (hl : FollowedWithoutHole S r [] (feedEvents p (ownEvents es)))
    (k : κ) (hreplies : (s.parties k).replies = [])
    (hsub : (s.parties k).state.demo.endpointsToSubscribe = [])
    (hunsub : (s.parties k).state.demo.endpointsToUnsubscribe = []) :
    ∃ clientId entries, Spoken dump False s.server k (s.history k) clientId entries ∧
      ScenarioCut (scenario k) (s.parties k).state entries ∧
      ∀ answered ∈ entries, answered.entry.productId = p →
        ∀ endpoint, answered.endpoint = some endpoint →
          ReceivesQuotes (s.parties k).state.demo s.server.productSubscriber.market p endpoint S r
            (newerArrivals S (feedEvents p (ownEvents es))) := by
  obtain ⟨clientId, heard, hsettled⟩ := session_settled hdump hes hrun k hreplies
  refine ⟨clientId, heard, hsettled.spoken, hsettled.cut, ?_⟩
  rintro answered hmem rfl endpoint hendpoint
  obtain ⟨provider, htable, hport⟩ := hsettled.spoken.confirmed hmem hendpoint
  have hlast := getLast?_kindsFor_of_kept
    (fun entry hentry => hkept k entry (hsettled.heard_initial.subset hentry))
    (List.mem_map_of_mem hmem) rfl
  constructor
  · have haddress : AddressOf provider answered.entry.productId endpoint.orderbookAddress :=
      ⟨endpoint, hport, .inl rfl⟩
    have hdistinct := session_distinctAddresses hes hrun provider htable
    rw [hsettled.listening hscenario hsub hunsub htable hdistinct haddress, if_pos hlast]
  · obtain ⟨product, -, hproduct, -, haddress, -⟩ :=
      hsettled.published hdump hscenario hrun htable hport hlast
    have hsampled := session_sampled hdump hrun hg hkept hb hl hproduct
    exact ⟨product, hproduct, haddress, fun received hreceived =>
      hsampled.of_sublist hreceived⟩

end

/-! ## One client and two books -/

/-- The client subscribes to one product. -/
def oneSubscription : Unit → List ScenarioEntry := fun _ => [⟨true, "ETH-USD", 1⟩]

/-- Its book and one order after it come in while the client waits for the confirmation. -/
def twoBooks : List (SessionEvent Unit (ServerEvent Int)) :=
  [.send (), .serve () (surroundings "1"), .receive (), .act () .handleScenario, .send (),
    .serve () (surroundings "2"),
    .background (.feed "ETH-USD" (.complete (.json (bookMsg 1 [("100", "5", "A")] [])))),
    .background (.feed "ETH-USD" .take), .background (.feed "ETH-USD" .hand),
    .background (.market .takeChanges), .background (.market (.processChanges [0])),
    .background (.feed "ETH-USD" (.arrive (openMsg "sell" "B" "101" "4" 2))),
    .background (.feed "ETH-USD" .take), .background (.feed "ETH-USD" .hand),
    .background (.market .takeChanges), .background (.market (.processChanges [0])),
    .receive (), .act () .hendleNewEndpoints]

theorem twoBooks_regular : (serverSession dumpFlat parseFlat).Guarded
    (Regular dumpFlat parseFlat "ETH-USD") (.initial {} oneSubscription) twoBooks := by
  have hfew : (List.range twoBooks.length).all (fun i =>
      ((serverSession dumpFlat parseFlat).run (.initial ({} : MarketState Int) oneSubscription)
        (twoBooks.take i)).all fun s =>
          decide (s.server.productSubscriber.currentChanges.length ≤ 1)) = true := by
    decide +kernel
  have hscenario : ∀ k, ∀ entry ∈ oneSubscription k, entry.subscribe = true := by
    intro k entry hentry
    rw [List.mem_singleton.mp hentry]
  intro pre e post t hes ht
  refine ⟨waits_of_subscriptions transmits_flat hscenario ht, fun y _ => ?_⟩
  have hlength : pre.length < twoBooks.length := by
    rw [hes, List.length_append, List.length_cons]
    omega
  have hi := List.all_eq_true.mp hfew pre.length (List.mem_range.mpr hlength)
  rw [show twoBooks.take pre.length = pre by rw [hes, List.take_left], ht] at hi
  exact drainsKeepOrder_of_few (of_decide_eq_true hi) y

theorem twoBooks_run : ∃ s, (serverSession dumpFlat parseFlat).run
      (.initial ({} : MarketState Int) oneSubscription) twoBooks = some s ∧
    (s.parties ()).replies = [] ∧ (s.parties ()).state.demo.endpointsToSubscribe = [] ∧
    (s.parties ()).state.demo.endpointsToUnsubscribe = [] ∧
    (s.server.productSubscriber.market.products "ETH-USD").map (fun product =>
      product.publisher.published) = some [⟨[⟨100, 5, "A"⟩], []⟩,
        ⟨[⟨100, 5, "A"⟩], [⟨101, 4, "B"⟩]⟩] := by
  have hrun : ((serverSession dumpFlat parseFlat).run
      (.initial ({} : MarketState Int) oneSubscription) twoBooks).any (fun s =>
        (s.parties ()).replies.isEmpty && (s.parties ()).state.demo.endpointsToSubscribe.isEmpty &&
        (s.parties ()).state.demo.endpointsToUnsubscribe.isEmpty &&
        decide ((s.server.productSubscriber.market.products "ETH-USD").map (fun product =>
          product.publisher.published) = some [⟨[⟨100, 5, "A"⟩], []⟩,
            ⟨[⟨100, 5, "A"⟩], [⟨101, 4, "B"⟩]⟩])) = true := by decide +kernel
  obtain ⟨s, hs, hempty⟩ := (Option.any_eq_true _ _).mp hrun
  simp only [Bool.and_eq_true, List.isEmpty_iff, decide_eq_true_eq] at hempty
  exact ⟨s, hs, hempty.1.1.1, hempty.1.1.2, hempty.1.2, hempty.2⟩

theorem quotes_received_two :
    ∃ s, (serverSession dumpFlat parseFlat).run (.initial ({} : MarketState Int) oneSubscription)
        twoBooks = some s ∧
      (s.server.productSubscriber.market.products "ETH-USD").map (fun product =>
        product.publisher.published) = some [⟨[⟨100, 5, "A"⟩], []⟩,
          ⟨[⟨100, 5, "A"⟩], [⟨101, 4, "B"⟩]⟩] ∧
      ∃ clientId entries, Spoken dumpFlat False s.server () (s.history ()) clientId entries ∧
        ScenarioCut (oneSubscription ()) (s.parties ()).state entries ∧
        ∀ answered ∈ entries, answered.entry.productId = "ETH-USD" →
          ∀ endpoint, answered.endpoint = some endpoint →
            ReceivesQuotes (s.parties ()).state.demo s.server.productSubscriber.market "ETH-USD"
              endpoint 1 (bookMsg 1 [("100", "5", "A")] [])
              (newerArrivals 1 (feedEvents "ETH-USD" (ownEvents twoBooks))) := by
  obtain ⟨s, hrun, hreplies, hsub, hunsub, hpublished⟩ := twoBooks_run
  have hscenario : Followable oneSubscription := by
    refine ⟨fun k p entries h => manageable_of_few ((kindsFor_mono p h).trans ?_),
      fun k j entry hentry other _ hsubscribe => ?_⟩
    · by_cases hp : p = "ETH-USD"
      · subst hp
        cases k
        decide
      · rw [oneSubscription, kindsFor_cons, if_neg (Ne.symm hp)]
        exact List.nil_prefix
    · rw [List.mem_singleton.mp hentry] at hsubscribe
      cases hsubscribe
  have hl : FollowedWithoutHole 1 (bookMsg 1 [("100", "5", "A")] []) []
      (feedEvents "ETH-USD" (ownEvents twoBooks)) :=
    followedWithoutHole_of_one rfl rfl rfl (by decide)
  have hfew : ∀ k x, Event.serve k x ∈ twoBooks → ListsFew parseFlat x.products := by
    intro k x hmem
    simp only [twoBooks, List.mem_cons, List.not_mem_nil, Event.serve.injEq, reduceCtorEq,
      false_or, or_false] at hmem
    rcases hmem with ⟨-, rfl⟩ | ⟨-, rfl⟩ <;> exact ⟨_, rfl, by decide⟩
  refine ⟨s, hrun, hpublished, quotes_received transmits_flat hscenario hfew hrun twoBooks_regular
    (fun k entry hentry _ => ?_) firstBook_oneBid hl () hreplies hsub hunsub⟩
  rw [List.mem_singleton.mp hentry]

end QuoteServer
