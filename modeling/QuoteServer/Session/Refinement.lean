import QuoteServer.LivesOnce
import QuoteServer.Quotes
import QuoteServer.Session.Scenario

/-!
# The server of a session

In a session the server is the machine of its market and its feed, driven by the calls that
the service makes and by the other threads (`session_server`). So what is known of every run
of the server is known of every session. What no scenario unsubscribes from, no call does
(`RunsAs.kept`).
-/

namespace QuoteServer

open EventMachine RequestReply ClientService CoinbaseFeedMessageHandler

variable {FloatingP : Type}

/-! ## Calls as events of the server -/

/-- The call that begins with an event of the server. -/
def ServerEvent.call : ServerEvent FloatingP → Option SubscriberCall
  | .market (.subscribeProduct clientId prodId) => some (.subscribe clientId prodId)
  | .market (.unsubscribe clientId prodId) => some (.unsubscribe clientId prodId)
  | _ => none

/-- What the server does in a call, one mutex after the other. -/
def SubscriberCall.events : SubscriberCall → List (ServerEvent FloatingP)
  | .subscribe clientId prodId =>
    [.market (.subscribeProduct clientId prodId), .market (.subscribeTrades prodId)]
  | .unsubscribe clientId prodId => [.market (.unsubscribe clientId prodId)]

theorem SubscriberCall.events_call (c : SubscriberCall) :
    (c.events : List (ServerEvent FloatingP)).filterMap ServerEvent.call = [c] := by
  cases c <;> rfl

theorem SubscriberCall.events_ofCall (c : SubscriberCall) :
    ∀ e ∈ (c.events : List (ServerEvent FloatingP)), e.ofCall = true := by
  intro e he
  cases c with
  | subscribe clientId prodId =>
    simp only [events, List.mem_cons, List.not_mem_nil, or_false] at he
    rcases he with rfl | rfl <;> rfl
  | unsubscribe clientId prodId =>
    rw [List.mem_singleton.mp he]
    rfl

/-- What is no part of a call begins none. -/
theorem ServerEvent.call_of_quiet {e : ServerEvent FloatingP} (h : e.ofCall = false) :
    e.call = none := by
  cases e with
  | feed p e => rfl
  | market e =>
    cases e with
    | subscribeProduct => cases h
    | unsubscribe => cases h
    | _ => rfl

/-- The events of a feed product are no part of a call. -/
theorem feedEvents_quiet (p : String) (es : List (ServerEvent FloatingP)) :
    feedEvents p (es.filter fun e => !e.ofCall) = feedEvents p es := by
  induction es with
  | nil => rfl
  | cons e es ih =>
    have hcons : feedEvents p (e :: es) = feedEvents p [e] ++ feedEvents p es :=
      feedEvents_append p [e] es
    rw [hcons, ← ih, ← feedEvents_append]
    cases e with
    | feed q e => rfl
    | market e =>
      rw [feedEvents_append, feedEvents_market, List.nil_append]
      cases hcall : (ServerEvent.market e).ofCall with
      | true => rw [List.filter_cons_of_neg (by simp [hcall])]
      | false =>
        rw [List.filter_cons_of_pos (by simp [hcall]), ← List.singleton_append, feedEvents_append,
          feedEvents_market, List.nil_append]

variable [FloatingPoint FloatingP]

/-- A call is no drain. -/
theorem drainsKeepOrder_ofCall {p : String} {t : MarketState FloatingP}
    {e : ServerEvent FloatingP} (h : e.ofCall = true) : DrainsKeepOrder p t e := by
  rintro me rfl picks it product rfl
  cases h

/-- A call that returns is a run of the server over its events, if the destructor of a feed
product need not wait. -/
theorem run_call {provider : EndpointProvider} {t t' : MarketState FloatingP} {c : SubscriberCall}
    (hcall : serverSubscriber.run provider t c = .ok t')
    (hrest : ∀ q, mayDestroy q t t' = true) :
    (serverMachine provider).run t c.events = some t' := by
  rw [serverSubscriber_run] at hcall
  cases hm : Market.asSubscriber.run provider t.market c with
  | error e =>
    rw [hm] at hcall
    cases hcall
  | ok m =>
    rw [hm] at hcall
    cases hcall
    cases c with
    | subscribe clientId prodId =>
      obtain ⟨m₁, hproduct, htrades⟩ := bind_eq_ok.mp hm
      refine Option.bind_eq_some_iff.mpr ⟨{ t with market := m₁ }, ?_,
        Option.bind_eq_some_iff.mpr ⟨{ t with market := m }, ?_, rfl⟩⟩
      · exact toOption_map_eq_some.mpr ⟨m₁, hproduct, rfl⟩
      · exact toOption_map_eq_some.mpr ⟨m, htrades, rfl⟩
    | unsubscribe clientId prodId =>
      refine Option.bind_eq_some_iff.mpr ⟨{ t with market := m }, ?_, rfl⟩
      refine Option.filter_eq_some_iff.mpr ⟨?_, hrest prodId⟩
      exact toOption_map_eq_some.mpr ⟨m, hm, rfl⟩

/-- What is no part of a call does not depend on the table of endpoints. -/
theorem serverStep_quiet {provider provider' : EndpointProvider} {t : MarketState FloatingP}
    {e : ServerEvent FloatingP} (h : e.ofCall = false) :
    t.serverStep provider e = t.serverStep provider' e := by
  cases e with
  | feed p e => rfl
  | market e =>
    cases e with
    | subscribeProduct => cases h
    | subscribeTrades => cases h
    | unsubscribe => cases h
    | _ => rfl

/-! ## The server of a session -/

section

variable {κ : Type} [DecidableEq κ] {dump : Json → List UInt8} {parse : Parser}
  {scenario : κ → List ScenarioEntry} {es : List (SessionEvent κ (ServerEvent FloatingP))}
  {s s' : Session κ (MarketState FloatingP)}

/-- The condition on a step of a session: a call that destroys a feed product returned after
both threads of it came to rest, as its destructor waits for. -/
def CallReturns (dump : Json → List UInt8) (parse : Parser)
    (s : Session κ (MarketState FloatingP)) (e : SessionEvent κ (ServerEvent FloatingP)) : Prop :=
  ∀ s', (serverSession dump parse).step s e = some s' →
    ∀ q, mayDestroy q s.server.productSubscriber s'.server.productSubscriber = true

/-- The condition on a step of a session: the destructor of a feed product returned after both
of its threads ended, and a drain leaves the book of `p` that the order of delivery would. -/
structure Regular (dump : Json → List UInt8) (parse : Parser) (p : String)
    (s : Session κ (MarketState FloatingP)) (e : SessionEvent κ (ServerEvent FloatingP)) :
    Prop where
  waits : CallReturns dump parse s e
  drains : ∀ y, e = .background y → DrainsKeepOrder p s.server.productSubscriber y

/-- The server got where it is by a run over its own events, among them the calls that the
service made. -/
structure RunsAs (p : String) (es : List (SessionEvent κ (ServerEvent FloatingP)))
    (s : Session κ (MarketState FloatingP)) (events : List (ServerEvent FloatingP)) : Prop where
  run : ∀ provider, (∀ table, s.server.provider = some table → provider = table) →
    (serverMachine provider).run {} events = some s.server.productSubscriber ∧
      (serverMachine provider).Guarded (DrainsKeepOrder p) {} events
  calls : events.filterMap ServerEvent.call = s.server.calls
  others : (events.filter fun e => !e.ofCall) = ownEvents es

omit [DecidableEq κ] in
/-- A step of the session, followed by the server. -/
theorem RunsAs.extend {p : String} {events more : List (ServerEvent FloatingP)}
    {e : SessionEvent κ (ServerEvent FloatingP)} (h : RunsAs p es s events)
    (hgrows : ∀ table, s.server.provider = some table → s'.server.provider = some table)
    (hmore : ∀ provider, (∀ table, s'.server.provider = some table → provider = table) →
      (serverMachine provider).run s.server.productSubscriber more =
        some s'.server.productSubscriber ∧
      (serverMachine provider).Guarded (DrainsKeepOrder p) s.server.productSubscriber more)
    (hcalls : s'.server.calls = s.server.calls ++ more.filterMap ServerEvent.call)
    (hothers : (more.filter fun e => !e.ofCall) = ownEvents [e]) :
    RunsAs p (es ++ [e]) s' (events ++ more) where
  run provider hprovider := by
    obtain ⟨hrun, hg⟩ := h.run provider fun table htable => hprovider table (hgrows table htable)
    obtain ⟨hrun', hg'⟩ := hmore provider hprovider
    refine ⟨(Machine.run_append_some _).mpr ⟨_, hrun, hrun'⟩, ?_⟩
    exact Machine.guarded_append _ hg hrun hg'
  calls := by
    rw [List.filterMap_append, h.calls, hcalls]
  others := by
    rw [List.filter_append, h.others, hothers, ownEvents_append]

omit [DecidableEq κ] in
/-- What the clients do among themselves is no business of the server's. -/
theorem RunsAs.elsewhere {p : String} {events : List (ServerEvent FloatingP)}
    {e : SessionEvent κ (ServerEvent FloatingP)} (h : RunsAs p es s events)
    (hserver : s'.server = s.server) (hnothing : ownEvents [e] = []) :
    RunsAs p (es ++ [e]) s' events := by
  have hmore : RunsAs p (es ++ [e]) s' (events ++ []) := by
    refine h.extend (fun table htable => ?_) (fun provider hprovider => ⟨?_, ?_⟩) ?_ ?_
    · rw [hserver]
      exact htable
    · rw [hserver]
      rfl
    · exact Machine.guarded_nil _ _ _
    · rw [hserver]
      exact (List.append_nil _).symm
    · exact hnothing.symm
  rwa [List.append_nil] at hmore

omit [DecidableEq κ] in
/-- An iteration of the service: no call, or one. -/
theorem RunsAs.iteration {p : String} {events : List (ServerEvent FloatingP)} {k : κ}
    {x : Surroundings} {r : Request} (h : RunsAs p es s events)
    (hiteration : ClientService.iteration parse serverSubscriber r s.server = .ok () s'.server)
    (hrest : ∀ q, mayDestroy q s.server.productSubscriber s'.server.productSubscriber = true) :
    ∃ more, RunsAs p (es ++ [.serve k x]) s' (events ++ more) := by
  have hgrows := grows_iteration hiteration
  rcases iteration_subscriber serverSubscriber_throwsNoParseError hiteration with
    ⟨hcalls, hmarket⟩ | ⟨provider, c, hprovider, hcalls, hcall⟩
  · refine ⟨[], h.extend hgrows.provider (fun _ _ => ⟨?_, Machine.guarded_nil _ _ _⟩) ?_ rfl⟩
    · rw [hmarket]
      rfl
    · rw [hcalls]
      exact (List.append_nil _).symm
  · refine ⟨c.events, h.extend hgrows.provider (fun provider' hprovider' => ⟨?_, ?_⟩) ?_ ?_⟩
    · obtain rfl := hprovider' provider hprovider
      exact run_call hcall hrest
    · exact Machine.guarded_of_mem _ fun e he t => drainsKeepOrder_ofCall (c.events_ofCall e he)
    · rw [hcalls, c.events_call]
    · refine List.filter_eq_nil_iff.mpr fun e he => ?_
      rw [c.events_ofCall e he]
      exact Bool.false_ne_true

/-- A step of the session is a few steps of the server. -/
theorem runsAs_step {p : String} {events : List (ServerEvent FloatingP)}
    {e : SessionEvent κ (ServerEvent FloatingP)} (h : RunsAs p es s events)
    (hg : Regular dump parse p s e) (hstep : (serverSession dump parse).step s e = some s') :
    ∃ events', RunsAs p (es ++ [e]) s' events' := by
  have hrest := hg.waits s' hstep
  cases e with
  | send k =>
    obtain ⟨g, q, -, -, rfl⟩ := State.send_cases hstep
    exact ⟨events, h.elsewhere rfl rfl⟩
  | serve k x =>
    obtain ⟨q, requests, server, replies, -, hserve, rfl⟩ := State.serve_cases hstep
    obtain ⟨more, hmore⟩ := h.iteration (k := k) (x := x) (serve_iteration hserve) hrest
    exact ⟨events ++ more, hmore⟩
  | receive k =>
    obtain ⟨a, replies, g, -, -, -, rfl⟩ := State.receive_cases hstep
    exact ⟨events, h.elsewhere rfl rfl⟩
  | act k i =>
    obtain ⟨g, -, rfl⟩ := Option.map_eq_some_iff.mp hstep
    exact ⟨events, h.elsewhere rfl rfl⟩
  | background y =>
    have hdrains := hg.drains y rfl
    obtain ⟨server, hact, rfl⟩ := Option.map_eq_some_iff.mp hstep
    obtain ⟨state, hserver, rfl⟩ := Option.map_eq_some_iff.mp hact
    change (if y.ofCall then none else s.server.productSubscriber.serverStep {} y) = some state
      at hserver
    by_cases hcall : y.ofCall = true
    · rw [if_pos hcall] at hserver
      cases hserver
    · rw [if_neg hcall] at hserver
      have hquiet : y.ofCall = false := Bool.eq_false_iff.mpr hcall
      refine ⟨events ++ [y], h.extend (fun _ htable => htable) (fun provider _ => ?_) ?_ ?_⟩
      · have hown : s.server.productSubscriber.serverStep provider y = some state :=
          (serverStep_quiet hquiet).trans hserver
        exact ⟨Option.bind_eq_some_iff.mpr ⟨state, hown, rfl⟩,
          Machine.guarded_cons _ hdrains hown (Machine.guarded_nil _ _ _)⟩
      · rw [List.filterMap_cons_none (ServerEvent.call_of_quiet hquiet)]
        exact (List.append_nil _).symm
      · rw [List.filter_cons_of_pos (by simp [hquiet])]
        rfl

/-- **Sessions run the server.** -/
theorem session_server {p : String}
    (hrun : (serverSession dump parse).run (.initial {} scenario) es = some s)
    (hg : (serverSession dump parse).Guarded (Regular dump parse p) (.initial {} scenario) es) :
    ∃ events, RunsAs p es s events := by
  refine (serverSession dump parse).history_rule
    (I := fun es s => ∃ events, RunsAs p es s events) ?_ ?_ hg hrun
  · exact ⟨[], fun provider _ => ⟨rfl, Machine.guarded_nil _ _ _⟩, rfl, rfl⟩
  · rintro es s e s' - ⟨events, h⟩ hge hstep
    exact runsAs_step h hge hstep

/-- What no scenario unsubscribes from, no call does. -/
theorem RunsAs.kept {p : String} {events : List (ServerEvent FloatingP)}
    (h : RunsAs p es s events) (hdump : Transmits dump parse)
    (hrun : (serverSession dump parse).run (.initial {} scenario) es = some s)
    (hkept : ∀ k, ∀ entry ∈ scenario k, entry.productId = p → entry.subscribe = true)
    (clientId : String) : .market (.unsubscribe clientId p) ∉ events := by
  intro hmem
  have hcall : SubscriberCall.unsubscribe clientId p ∈ s.server.calls := by
    rw [← h.calls]
    exact List.mem_filterMap.mpr ⟨_, hmem, rfl⟩
  have hcalls : s.server.calls = s.log.flatMap (callsIn parse) :=
    session_calls hdump serverSubscriber_throwsNoParseError hrun
  rw [hcalls] at hcall
  obtain ⟨x, hx, hc⟩ := List.mem_flatMap.mp hcall
  obtain ⟨entry, hentry, clientId', heq⟩ := call_of_scenario hdump hrun hx hc
  unfold ScenarioEntry.call at heq
  cases hsubscribe : entry.subscribe with
  | true =>
    rw [hsubscribe, if_pos rfl] at heq
    cases heq
  | false =>
    rw [hsubscribe, if_neg Bool.false_ne_true] at heq
    cases heq
    have htrue := hkept x.party entry hentry rfl
    rw [hsubscribe] at htrue
    cases htrue

omit [FloatingPoint FloatingP] in
theorem mayDestroy_of_there {q : String} {t t' : MarketState FloatingP}
    (h : (t.market.feedClient.prodIdToListener q).isSome = true →
      (t'.market.feedClient.prodIdToListener q).isSome = true) : mayDestroy q t t' = true := by
  unfold mayDestroy
  cases hf : t.market.feedClient.prodIdToListener q with
  | none => rfl
  | some f =>
    rw [hf] at h
    obtain ⟨f', hf'⟩ := Option.isSome_iff_exists.mp (h rfl)
    rw [hf']

omit [FloatingPoint FloatingP] in
/-- A subscription destroys no feed product. -/
theorem listener_stays {provider : EndpointProvider} {m m' : Market FloatingP} {c p q : String}
    (h : m.subscribe provider c p = .ok m')
    (hq : (m.feedClient.prodIdToListener q).isSome = true) :
    (m'.feedClient.prodIdToListener q).isSome = true := by
  obtain ⟨m₁, hproduct, htrades⟩ := bind_eq_ok.mp h
  have hfirst : (m₁.feedClient.prodIdToListener q).isSome = true := by
    rcases Market.subscribeProduct_cases hproduct with ⟨_, -, rfl⟩ | ⟨-, _, -, rfl⟩
    · exact hq
    · exact (m.feedClient.subscribe_listener_isSome p q).mpr (.inr hq)
  rcases Market.subscribeTrades_cases htrades with ⟨-, rfl⟩ | ⟨-, _, -, rfl⟩
  · exact hfirst
  · exact hfirst

/-- Only a request that is served destroys a feed product. -/
theorem callReturns_of_not_serve {e : SessionEvent κ (ServerEvent FloatingP)}
    (he : ∀ k x, e ≠ .serve k x) : CallReturns dump parse s e := by
  intro s' hstep q
  refine mayDestroy_of_there fun hq => ?_
  cases e with
  | send k =>
    obtain ⟨g, a, -, -, rfl⟩ := State.send_cases hstep
    exact hq
  | serve k x => exact absurd rfl (he k x)
  | receive k =>
    obtain ⟨a, replies, g, -, -, -, rfl⟩ := State.receive_cases hstep
    exact hq
  | act k i =>
    obtain ⟨g, -, rfl⟩ := Option.map_eq_some_iff.mp hstep
    exact hq
  | background y =>
    obtain ⟨server, hact, rfl⟩ := Option.map_eq_some_iff.mp hstep
    obtain ⟨state, hserver, rfl⟩ := Option.map_eq_some_iff.mp hact
    change (if y.ofCall then none else s.server.productSubscriber.serverStep {} y) = some state
      at hserver
    by_cases hcall : y.ofCall = true
    · rw [if_pos hcall] at hserver
      cases hserver
    · rw [if_neg hcall] at hserver
      have hsame := sameStanding_quiet (Bool.eq_false_iff.mpr hcall) hserver
      exact (hsame.listeners q).trans hq

/-- The call that serves a request of a client is one for an entry of its scenario. -/
theorem served_call {k : κ} {x : Surroundings} {c : SubscriberCall}
    (hdump : Transmits dump parse)
    (hrun : (serverSession dump parse).run (.initial {} scenario) es = some s)
    (hstep : (serverSession dump parse).step s (.serve k x) = some s')
    (hcalls : s'.server.calls = s.server.calls ++ [c]) :
    ∃ entry ∈ scenario k, ∃ clientId, c = entry.call clientId := by
  have hrun' := (Machine.run_snoc _).mpr ⟨s, hrun, hstep⟩
  have hbefore : s.server.calls = s.log.flatMap (callsIn parse) :=
    session_calls hdump serverSubscriber_throwsNoParseError hrun
  have hafter : s'.server.calls = s'.log.flatMap (callsIn parse) :=
    session_calls hdump serverSubscriber_throwsNoParseError hrun'
  obtain ⟨q, requests, server, replies, -, -, rfl⟩ := State.serve_cases hstep
  -- the new exchange is the last one, and so is the new call
  have hlast : callsIn parse { party := k, request := q, replies := replies } = [c] := by
    have hboth := hcalls.symm.trans hafter
    rw [hbefore] at hboth
    simpa using hboth.symm
  refine call_of_scenario hdump hrun'
    (x := { party := k, request := q, replies := replies }) ?_ ?_
  · exact List.mem_append_right _ (List.mem_singleton.mpr rfl)
  · rw [hlast]
    exact List.mem_singleton.mpr rfl

/-- Where nobody unsubscribes no feed product is destroyed. -/
theorem waits_of_subscriptions {e : SessionEvent κ (ServerEvent FloatingP)}
    (hdump : Transmits dump parse) (hscenario : ∀ k, ∀ entry ∈ scenario k, entry.subscribe = true)
    (hrun : (serverSession dump parse).run (.initial {} scenario) es = some s) :
    CallReturns dump parse s e := by
  cases e with
  | serve k x =>
    intro s' hstep q
    refine mayDestroy_of_there fun hq => ?_
    have hserved : ∀ c, s'.server.calls = s.server.calls ++ [c] →
        ∃ entry ∈ scenario k, ∃ clientId, c = entry.call clientId :=
      fun c => served_call hdump hrun hstep
    obtain ⟨a, requests, server, replies, -, hserve, rfl⟩ := State.serve_cases hstep
    rcases iteration_subscriber serverSubscriber_throwsNoParseError (serve_iteration hserve) with
      ⟨-, hmarket⟩ | ⟨provider, c, -, hcall, hok⟩
    · show (server.productSubscriber.market.feedClient.prodIdToListener q).isSome = true
      rw [hmarket]
      exact hq
    · -- the call is one of the scenario, and so a subscription
      obtain ⟨entry, hentry, clientId, rfl⟩ := hserved c hcall
      rw [ScenarioEntry.call, if_pos (hscenario _ entry hentry)] at hok
      exact listener_stays (serverSubscriber_ok hok) hq
  | _ => exact callReturns_of_not_serve (by rintro k x ⟨⟩)

end

end QuoteServer
