import QuoteServer.Session.Scenario

/-!
# Sessions that go on

As long as the scenarios can be played side by side and the exchange returns lists of products
from which a table can be built, nothing ends a session: in every state that it can reach, no
exception and no end iterator stands in the way of whatever request the service serves next,
each client reads its reply, and its other thread handles whatever endpoints are queued
(`session_survives`). Of the market's calls this says what they do, not what they wait for.
-/

namespace QuoteServer

open EventMachine RequestReply ClientService

section

variable {κ : Type} [DecidableEq κ] {FloatingP : Type} [FloatingPoint FloatingP]

/-- A table of endpoints can be built from the list. -/
def Listed (parse : Parser) (products : List UInt8) : Prop :=
  ∃ provider, EndpointProvider.ofProducts ((parse products).mapError ParseFault.fault) =
    .ok provider

/-- A state of a session in which every list that the exchange returned was one. -/
def Reached (dump : Json → List UInt8) (parse : Parser) (scenario : κ → List ScenarioEntry)
    (s : Session κ (MarketState FloatingP)) : Prop :=
  ∃ es, (∀ k x, Event.serve k x ∈ es → Listed parse x.products) ∧
    (serverSession dump parse).run (.initial {} scenario) es = some s

/-- Whatever is due for the client in this state does not fail. -/
structure Alive (dump : Json → List UInt8) (parse : Parser)
    (s : Session κ (MarketState FloatingP)) (k : κ) : Prop where
  /-- The client sends, is served or reads a reply. -/
  inStep : (s.parties k).InStep
  send : (s.parties k).waiting = false →
    ∃ s', (serverSession dump parse).step s (.send k) = some s'
  serve : ∀ x, Listed parse x.products → (s.parties k).requests ≠ [] →
    ∃ s', (serverSession dump parse).step s (.serve k x) = some s'
  receive : (s.parties k).replies ≠ [] →
    ∃ s', (serverSession dump parse).step s (.receive k) = some s'
  /-- The endpoints in the queues are handled. -/
  hendleNewEndpoints : (s.parties k).state.started = true →
    (s.parties k).state.demo.endpointsToSubscribe ≠ [] ∨
      (s.parties k).state.demo.endpointsToUnsubscribe ≠ [] →
    ∃ s', (serverSession dump parse).step s (.act k .hendleNewEndpoints) = some s'

variable {dump : Json → List UInt8} {parse : Parser} {scenario : κ → List ScenarioEntry}
  {s s' : Session κ (MarketState FloatingP)}

theorem Listed.parsed {products : List UInt8} (h : Listed parse products) :
    parse products ≠ .error .parseError := by
  intro herror
  obtain ⟨provider, hprovider⟩ := h
  rw [herror] at hprovider
  cases hprovider

theorem Reached.step (h : Reached dump parse scenario s)
    {e : SessionEvent κ (ServerEvent FloatingP)}
    (he : ∀ k x, e = .serve k x → Listed parse x.products)
    (hstep : (serverSession dump parse).step s e = some s') : Reached dump parse scenario s' := by
  obtain ⟨es, hlisted, hrun⟩ := h
  refine ⟨es ++ [e], fun k x hmem => ?_, (Machine.run_snoc _).mpr ⟨s, hrun, hstep⟩⟩
  rcases List.mem_append.mp hmem with hmem | hmem
  · exact hlisted k x hmem
  · exact he k x (List.mem_singleton.mp hmem).symm

/-- The phases of a state that is reached: nothing was unlisted. -/
theorem Reached.phases (h : Reached dump parse scenario s) (hdump : Transmits dump parse) :
    (sessionDiscipline κ hdump serverSubscriber_throwsNoParseError
      (serverThreads : Machine (MarketState FloatingP) (ServerEvent FloatingP)) False).Holds s := by
  obtain ⟨es, hlisted, hrun⟩ := h
  refine session_phases hdump serverSubscriber_throwsNoParseError ?_ hrun
  rintro ⟨k, x, hmem, herror⟩
  exact (hlisted k x hmem).parsed herror

/-! ## The service does not fail -/

/-- An entry that is under way comes in the scenario after those that were answered. -/
theorem Reached.scenario_eq (h : Reached dump parse scenario s) {k : κ}
    {entries : List AnsweredEntry} {entry : ScenarioEntry}
    (htaken : (s.parties k).state.taken = entries.map AnsweredEntry.entry ++ [entry]) :
    ∃ post, scenario k = entries.map AnsweredEntry.entry ++ entry :: post := by
  obtain ⟨es, -, hrun⟩ := h
  have hscenario := scenario_taken hrun k
  rw [htaken] at hscenario
  refine ⟨(s.parties k).state.scenarioMessagesQueue ++ (s.parties k).state.scenario, ?_⟩
  rw [hscenario]
  simp only [List.append_assoc, List.cons_append, List.nil_append]

/-- The market returns from the call for an entry whose product the table has. -/
theorem Reached.call_total (h : Reached dump parse scenario s) (hdump : Transmits dump parse)
    (hplayable : Playable scenario) {k : κ} {clientId : String} {entries : List AnsweredEntry}
    {entry : ScenarioEntry}
    (hspoken : Spoken dump False s.server k (s.history k) clientId entries)
    (htaken : (s.parties k).state.taken = entries.map AnsweredEntry.entry ++ [entry])
    {provider : EndpointProvider}
    (htable : ∀ table, s.server.provider = some table → table = provider)
    (hproduct : provider.contains entry.productId = true) :
    ∃ state, serverSubscriber.run provider s.server.productSubscriber (entry.call clientId) =
      .ok state := by
  obtain ⟨post, hscenario⟩ := h.scenario_eq htaken
  obtain ⟨es, -, hrun⟩ := h
  have hserving := session_serving hrun
  rw [serverSubscriber_run]
  have hmarket : ∃ m, Market.asSubscriber.run provider s.server.productSubscriber.market
      (entry.call clientId) = .ok m := by
    unfold ScenarioEntry.call
    cases hsubscribe : entry.subscribe with
    | true =>
      rw [if_pos rfl]
      exact Market.subscribe_total _ clientId hproduct
    | false =>
      rw [if_neg Bool.false_ne_true]
      -- the product was last subscribed to, so it is in the market
      have hlast := lastCall_of_playable hdump hplayable hrun hspoken hscenario hsubscribe htable
        hproduct
      obtain ⟨m, hm, -⟩ := served_unsubscribe (c := clientId) hserving.mirrors.served
        hserving.mirrors.clients hlast
      exact ⟨m, hm⟩
  obtain ⟨m, hm⟩ := hmarket
  rw [hm]
  exact ⟨_, rfl⟩

/-- An iteration of the service returns for every request of a client. -/
theorem Reached.iteration_total (h : Reached dump parse scenario s)
    (hdump : Transmits dump parse) (hplayable : Playable scenario) {k : κ} {data : List UInt8}
    {x : Surroundings} (hx : Listed parse x.products)
    (hasked : SessionAsked dump False s.server (s.history k) k (s.parties k).state data) :
    ∃ t, iteration parse serverSubscriber
      { data := data, uuid := x.uuid, products := x.products } s.server = .ok () t := by
  cases hasked with
  | clientId _ _ _ _ hdata =>
    subst hdata
    obtain ⟨jmsg, hparse, hmembers⟩ := hdump _ clientIdRequest_text
    exact ⟨_, iteration_clientIdRequest hparse (hmembers "type")⟩
  | heartbeat entries hconversing _ _ hdata =>
    subst hdata
    obtain ⟨jmsg, hparse, hmembers⟩ := hdump _ (heartbeatMessage_text (s.parties k).state.clientId)
    exact ⟨_, iteration_heartbeat hparse (hmembers "type") (hmembers "client_id")
      hconversing.registered⟩
  | entry entries entry hconversing htaken _ hdata =>
    subst hdata
    obtain ⟨jmsg, hparse, hmembers⟩ :=
      hdump _ (scenarioMessage_text (s.parties k).state.clientId entry)
    -- the table is there, or it is built now
    obtain ⟨provider, hinstance, htable⟩ : ∃ provider,
        instanceFor parse s.server { data := _, uuid := x.uuid, products := x.products } =
          .ok provider ∧ ∀ table, s.server.provider = some table → table = provider := by
      unfold instanceFor
      cases hprovider : s.server.provider with
      | some provider =>
        exact ⟨provider, rfl, fun table htable => (Option.some.inj htable).symm⟩
      | none =>
        obtain ⟨provider, hbuilt⟩ := hx
        exact ⟨provider, hbuilt, fun table htable => nomatch htable⟩
    refine iteration_call_total hparse (requests_scenarioMessage hmembers) hinstance ?_
    rw [ScenarioEntry.call_productId]
    exact h.call_total hdump hplayable hconversing.spoken htaken htable

theorem serve_of_iteration {k : κ} {q : List UInt8} {requests : List (List UInt8)}
    {x : Surroundings} {t : ClientService (MarketState FloatingP)}
    (hrequests : (s.parties k).requests = q :: requests)
    (h : iteration parse serverSubscriber
      { data := q, uuid := x.uuid, products := x.products } s.server = .ok () t) :
    ∃ s', (serverSession dump parse).step s (.serve k x) = some s' := by
  show ∃ s', s.serve (serviceServer dump parse serverSubscriber serverThreads) k x = some s'
  unfold State.serve
  rw [hrequests]
  show ∃ s', Option.map _ (serviceServer dump parse serverSubscriber serverThreads |>.serve
    s.server x q) = some s'
  unfold serviceServer
  dsimp only
  rw [h]
  exact ⟨_, rfl⟩

/-! ## The client does not fail -/

theorem Readable.congr {jmsg jmsg' : Json} (h : Readable jmsg)
    (hmembers : ∀ key, jmsg'.stringMember key = jmsg.stringMember key) : Readable jmsg' := by
  refine ⟨?_, ?_, ?_⟩
  · rw [hmembers]
    exact h.type
  · rw [hmembers, hmembers]
    exact h.clientId
  · rw [hmembers, hmembers, hmembers]
    exact h.endpoints

theorem registration_readable (clientId : String) : Readable (registration clientId) :=
  ⟨⟨_, rfl⟩, fun _ => ⟨clientId, rfl⟩, fun h => by simp at h⟩

theorem heartbeatReply_readable (clientId : String) : Readable (heartbeatReply clientId) :=
  ⟨⟨_, rfl⟩, fun h => by simp at h, fun h => by simp at h⟩

theorem errorReply_readable (error : String) : Readable (errorReply error) :=
  ⟨⟨_, rfl⟩, fun h => by simp at h, fun h => by simp at h⟩

theorem entryConfirmation_readable (clientId : String) (entry : ScenarioEntry)
    (endpoint : Endpoint) : Readable (entryConfirmation clientId entry endpoint) :=
  ⟨⟨_, rfl⟩, fun _ => ⟨clientId, rfl⟩, fun _ => ⟨_, _, rfl, rfl⟩⟩

omit [DecidableEq κ] in
/-- Every reply is one that the client can read. -/
theorem SessionAnswered.readable {σ : Type} {Unlisted : Prop} {t : ClientService σ}
    {xs : List (Exchange κ (List UInt8) (List UInt8))} {k : κ} {c : ClientProgram}
    {data : List UInt8} (h : SessionAnswered dump Unlisted t xs k c data) :
    ∃ reply, data = dump reply ∧ IsText reply ∧ Readable reply := by
  cases h with
  | clientId clientId _ _ _ _ _ hdata =>
    exact ⟨_, hdata, registration_text clientId, registration_readable clientId⟩
  | heartbeat _ _ _ _ hdata => exact ⟨_, hdata, heartbeatReply_text _, heartbeatReply_readable _⟩
  | confirmed _ entry endpoint _ _ _ hdata =>
    exact ⟨_, hdata, entryConfirmation_text _ entry endpoint,
      entryConfirmation_readable _ entry endpoint⟩
  | refused _ _ error _ _ _ hdata =>
    exact ⟨_, hdata, errorReply_text error, errorReply_readable error⟩

theorem demoCaller_receive_total (hdump : Transmits dump parse) {reply : Json}
    (htext : IsText reply) (hreadable : Readable reply) (c : ClientProgram) :
    ∃ c', (demoCaller dump parse).receive c (dump reply) = some c' := by
  obtain ⟨jmsg, hparse, hmembers⟩ := hdump reply htext
  obtain ⟨c', hc'⟩ := (hreadable.congr hmembers).onReply c
  refine ⟨c', ?_⟩
  unfold demoCaller
  dsimp only
  rw [hparse]
  exact toOption_eq_some.mpr hc'

/-- Whatever a client was unsubscribed from, it was subscribed to before, at the same
endpoints. -/
theorem Reached.heard (h : Reached dump parse scenario s) (hdump : Transmits dump parse)
    (hplayable : Playable scenario) (k : κ) :
    ∃ heard, Heard (s.parties k).state.demo heard ∧
      ∀ answered ∈ heard, answered.entry.subscribe = false →
        ∃ before ∈ heard, before.entry.subscribe = true ∧ before.endpoint = answered.endpoint := by
  obtain ⟨clientId, heard, unheard, underWay, hprogress⟩ := phase_progress (h.phases hdump k)
  refine ⟨heard, hprogress.handled, fun answered hmem hunsubscribe => ?_⟩
  obtain ⟨pre, post, rfl⟩ := List.append_of_mem hmem
  obtain ⟨es, -, hrun⟩ := h
  have hscenario := scenario_taken hrun k
  rw [hprogress.taken] at hscenario
  obtain ⟨entry, hlast, hsubscribe⟩ := hplayable.balanced k (pre.map AnsweredEntry.entry)
    answered.entry _ (by
      rw [hscenario]
      simp only [List.map_append, List.map_cons, List.append_assoc, List.cons_append]
      rfl) hunsubscribe
  obtain ⟨hentry, hproductId⟩ := lastEntry_spec hlast
  obtain ⟨before, hbefore, rfl⟩ := List.mem_map.mp hentry
  have hbeforeMem : before ∈ pre ++ answered :: post := List.mem_append_left _ hbefore
  refine ⟨before, hbeforeMem, hsubscribe, ?_⟩
  -- both were answered from one table, and for one product
  rcases hprogress.spoken.answered (List.mem_append_left _ hmem) with
    ⟨table, htable, hanswered⟩ | ⟨-, hfalse⟩
  · rcases hprogress.spoken.answered (List.mem_append_left _ hbeforeMem) with
      ⟨table', htable', hanswered'⟩ | ⟨-, hfalse⟩
    · obtain rfl : table = table' := Option.some.inj (htable.symm.trans htable')
      rw [hanswered, hanswered', hproductId]
    · exact hfalse.elim
  · exact hfalse.elim

/-! ## The session of two clients -/

theorem surroundings_listed (uuid : String) : Listed parseFlat (surroundings uuid).products :=
  ⟨.ethUsd, by rfl⟩

theorem twoClients_reached :
    ∃ s : Session Bool (MarketState Int), Reached dumpFlat parseFlat twoScenarios s := by
  obtain ⟨s, hrun⟩ := twoClients_run
  refine ⟨s, twoClients, fun k x hmem => ?_, hrun⟩
  rw [twoClients_products hmem]
  exact surroundings_listed ""

/-! ## Nothing fails -/

/-- A client that does not wait can send. -/
theorem send_total {k : κ} (hwaiting : (s.parties k).waiting = false) :
    ∃ s', (serverSession dump parse).step s (.send k) = some s' := by
  show ∃ s', s.send (demoCaller dump parse) k = some s'
  unfold State.send
  rw [hwaiting, if_neg Bool.false_ne_true]
  exact ⟨_, rfl⟩

/-- The request of a client is served. -/
theorem Reached.serve_total (h : Reached dump parse scenario s) (hdump : Transmits dump parse)
    (hplayable : Playable scenario) {k : κ} {x : Surroundings} (hx : Listed parse x.products)
    (hrequests : (s.parties k).requests ≠ []) :
    ∃ s', (serverSession dump parse).step s (.serve k x) = some s' := by
  have hphase := h.phases hdump k
  generalize hparty : s.parties k = p at hphase hrequests
  cases hphase with
  | idle => exact absurd rfl hrequests
  | answered => exact absurd rfl hrequests
  | asked c data hasked =>
    have hnow : SessionAsked dump False s.server (s.history k) k (s.parties k).state data := by
      rw [hparty]
      exact hasked
    obtain ⟨t, ht⟩ := h.iteration_total hdump hplayable hx hnow
    exact serve_of_iteration (by rw [hparty]) ht

/-- The client gets through the reply. -/
theorem Reached.receive_total (h : Reached dump parse scenario s) (hdump : Transmits dump parse)
    {k : κ} (hreplies : (s.parties k).replies ≠ []) :
    ∃ s', (serverSession dump parse).step s (.receive k) = some s' := by
  have hphase := h.phases hdump k
  show ∃ s', s.receive (demoCaller dump parse) k = some s'
  unfold State.receive
  generalize hparty : s.parties k = p at hphase hreplies
  cases hphase with
  | idle => exact absurd rfl hreplies
  | asked => exact absurd rfl hreplies
  | answered c data hanswered =>
    obtain ⟨reply, rfl, htext, hreadable⟩ := hanswered.readable
    obtain ⟨c', hc'⟩ := demoCaller_receive_total hdump htext hreadable c
    rw [if_pos rfl]
    dsimp only
    rw [hc']
    exact ⟨_, rfl⟩

/-- It gets through the endpoints that are queued. -/
theorem Reached.wakeUp_total (h : Reached dump parse scenario s) (hdump : Transmits dump parse)
    (hplayable : Playable scenario) {k : κ} (hstarted : (s.parties k).state.started = true)
    (hqueued : (s.parties k).state.demo.endpointsToSubscribe ≠ [] ∨
      (s.parties k).state.demo.endpointsToUnsubscribe ≠ []) :
    ∃ s', (serverSession dump parse).step s (.act k .hendleNewEndpoints) = some s' := by
  obtain ⟨heard, hheard, hbefore⟩ := h.heard hdump hplayable k
  obtain ⟨demo, hdemo⟩ := hheard.wakeUp_total hbefore
  show ∃ s', ((demoCaller dump parse).act (s.parties k).state .hendleNewEndpoints).map _ = some s'
  unfold demoCaller ClientProgram.hendleNewEndpoints
  dsimp only
  rw [if_pos hstarted, if_neg fun hempty => hqueued.elim (· hempty.1) (· hempty.2), hdemo]
  exact ⟨_, rfl⟩

/-- **A session goes on**, in every state it can reach: whatever is due for a client, its
request to be served, a reply to be read, endpoints to be handled, does not fail. A request
is answered in the step in which the call it makes returns. -/
theorem session_survives (hdump : Transmits dump parse) (hplayable : Playable scenario)
    (h : Reached dump parse scenario s) (k : κ) : Alive dump parse s k where
  inStep := (h.phases hdump k).inStep
  send := send_total
  serve _ hx := h.serve_total hdump hplayable hx
  receive := h.receive_total hdump
  hendleNewEndpoints := h.wakeUp_total hdump hplayable

theorem session_survives_two :
    ∃ s : Session Bool (MarketState Int), Reached dumpFlat parseFlat twoScenarios s ∧
      ∀ k, Alive dumpFlat parseFlat s k := by
  obtain ⟨s, hs⟩ := twoClients_reached
  exact ⟨s, hs, session_survives transmits_flat twoScenarios_playable hs⟩

end

end QuoteServer
