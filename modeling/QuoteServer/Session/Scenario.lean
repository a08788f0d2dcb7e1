import QuoteServer.Session.Server

/-!
# Scenarios that can be played to the end

Two things end a session early: the service leaves its loop when a client unsubscribes from
a product that is not in the market, and a client dereferences a null pointer when it is
unsubscribed from an endpoint that it never listened to. Neither happens if every scenario
unsubscribes only from what it subscribed to before, and from no product that another
scenario names (`Playable`).

What the market was last called for is then what the scenario says last
(`lastCall_of_playable`).
-/

namespace QuoteServer

open EventMachine RequestReply ClientService

/-- The last entry for a product. -/
def lastEntry (p : String) (entries : List ScenarioEntry) : Option ScenarioEntry :=
  (entries.filter fun entry => entry.productId = p).getLast?

/-- The scenarios of the clients can be played side by side. -/
structure Playable {κ : Type} (scenario : κ → List ScenarioEntry) : Prop where
  /-- The last entry before an unsubscription is a subscription. -/
  balanced : ∀ k pre entry post, scenario k = pre ++ entry :: post → entry.subscribe = false →
    ∃ before, lastEntry entry.productId pre = some before ∧ before.subscribe = true
  /-- The product is in no other scenario. -/
  exclusive : ∀ k j, ∀ entry ∈ scenario k, ∀ other ∈ scenario j, entry.subscribe = false →
    other.productId = entry.productId → j = k

/-- One of the two clients unsubscribes, and from what the other does not name. -/
theorem twoScenarios_playable : Playable twoScenarios := by
  refine ⟨fun k pre entry post heq hunsubscribe => ?_, fun k j entry hentry other hother
    hunsubscribe hsame => ?_⟩
  · cases k with
    | false =>
      match pre, heq with
      | [], heq =>
        cases heq
        cases hunsubscribe
      | _ :: pre, heq =>
        cases pre with
        | nil => cases heq
        | cons _ _ => cases heq
    | true =>
      match pre, heq with
      | [], heq =>
        cases heq
        cases hunsubscribe
      | [_], heq =>
        cases heq
        exact ⟨⟨true, "ETH-USD", 1⟩, by decide, rfl⟩
      | _ :: _ :: pre, heq =>
        cases pre with
        | nil => cases heq
        | cons _ _ => cases heq
  · cases k with
    | false =>
      obtain rfl := List.mem_singleton.mp hentry
      cases hunsubscribe
    | true =>
      cases j with
      | true => rfl
      | false =>
        obtain rfl := List.mem_singleton.mp hother
        rcases List.mem_cons.mp hentry with rfl | hentry
        · cases hunsubscribe
        · obtain rfl := List.mem_singleton.mp hentry
          exact absurd hsame (by decide)

/-! ## The last entry -/

theorem lastEntry_concat_self {p : String} {entry : ScenarioEntry} (entries : List ScenarioEntry)
    (h : entry.productId = p) : lastEntry p (entries ++ [entry]) = some entry := by
  have hown : [entry].filter (fun entry => entry.productId = p) = [entry] :=
    List.filter_cons_of_pos (decide_eq_true h)
  rw [lastEntry, List.filter_append, hown, List.getLast?_concat]

theorem lastEntry_concat_ne {p : String} {entry : ScenarioEntry} (entries : List ScenarioEntry)
    (h : entry.productId ≠ p) : lastEntry p (entries ++ [entry]) = lastEntry p entries := by
  have hother : [entry].filter (fun entry => entry.productId = p) = [] :=
    List.filter_cons_of_neg (by simpa using h)
  rw [lastEntry, List.filter_append, hother, List.append_nil, lastEntry]

theorem lastEntry_spec {p : String} {entries : List ScenarioEntry} {entry : ScenarioEntry}
    (h : lastEntry p entries = some entry) : entry ∈ entries ∧ entry.productId = p := by
  have hmem := List.mem_of_getLast? h
  rw [List.mem_filter, decide_eq_true_eq] at hmem
  exact hmem

/-- Where every entry for a product was confirmed, the last call for it is that of its last
entry. -/
theorem lastCall_entries (p clientId : String) {entries : List AnsweredEntry}
    (hconfirmed : ∀ answered ∈ entries, answered.entry.productId = p →
      answered.endpoint.isSome = true) :
    lastCall p (entries.filterMap (AnsweredEntry.call clientId)) =
      (lastEntry p (entries.map AnsweredEntry.entry)).map (ScenarioEntry.call clientId) := by
  induction entries using List.reverseRecOn with
  | nil => rfl
  | append_singleton entries answered ih =>
    have ih := ih fun a ha => hconfirmed a (List.mem_append_left _ ha)
    rw [List.filterMap_append, filterMap_single, List.map_append]
    show _ = (lastEntry p (_ ++ [answered.entry])).map _
    by_cases hp : answered.entry.productId = p
    · obtain ⟨endpoint, hendpoint⟩ := Option.isSome_iff_exists.mp
        (hconfirmed answered (List.mem_append_right _ (List.mem_singleton.mpr rfl)) hp)
      have hcall : answered.call clientId = some (answered.entry.call clientId) := by
        rw [AnsweredEntry.call, hendpoint]
        rfl
      rw [hcall, lastEntry_concat_self _ hp]
      exact lastCall_concat_self _ ((ScenarioEntry.call_productId clientId _).trans hp)
    · rw [lastEntry_concat_ne _ hp, ← ih]
      cases hendpoint : answered.endpoint with
      | none =>
        have hcall : answered.call clientId = none := by
          rw [AnsweredEntry.call, hendpoint]
          rfl
        rw [hcall]
        exact congrArg (lastCall p) (List.append_nil _)
      | some endpoint =>
        have hcall : answered.call clientId = some (answered.entry.call clientId) := by
          rw [AnsweredEntry.call, hendpoint]
          rfl
        rw [hcall]
        refine lastCall_concat_ne _ ?_
        rw [ScenarioEntry.call_productId]
        exact hp

/-! ## The calls of one client -/

/-- If nobody else was confirmed anything about a product, the last call for it is the last
one of that client. -/
theorem lastCall_history {κ : Type} [DecidableEq κ] {parse : Parser} {p : String} {k : κ}
    (log : List (Exchange κ (List UInt8) (List UInt8)))
    (hother : ∀ x ∈ log, x.party ≠ k → ∀ c ∈ callsIn parse x, c.productId ≠ p) :
    lastCall p (log.flatMap (callsIn parse)) =
      lastCall p ((log.filter fun x => x.party = k).flatMap (callsIn parse)) := by
  unfold lastCall
  congr 1
  induction log with
  | nil => rfl
  | cons x log ih =>
    have ih := ih fun y hy => hother y (List.mem_cons_of_mem _ hy)
    rw [List.flatMap_cons, List.filter_append, ih]
    by_cases hx : x.party = k
    · rw [List.filter_cons, if_pos (decide_eq_true hx), List.flatMap_cons, List.filter_append]
    · have hnone : (callsIn parse x).filter (fun c => c.productId = p) = [] := by
        rw [List.filter_eq_nil_iff]
        intro c hc
        simpa using hother x List.mem_cons_self hx c hc
      rw [List.filter_cons, if_neg (by simpa using hx), hnone, List.nil_append]

section

variable {κ : Type} [DecidableEq κ] {FloatingP : Type} [FloatingPoint FloatingP]
  {dump : Json → List UInt8} {parse : Parser} {scenario : κ → List ScenarioEntry}
  {es : List (SessionEvent κ (ServerEvent FloatingP))} {s : Session κ (MarketState FloatingP)}

/-- A call confirmed to a client is one for an entry of its scenario. -/
theorem call_of_scenario (hdump : Transmits dump parse)
    (hrun : (serverSession dump parse).run (.initial {} scenario) es = some s)
    {x : Exchange κ (List UInt8) (List UInt8)} (hx : x ∈ s.log) {c : SubscriberCall}
    (hc : c ∈ callsIn parse x) :
    ∃ entry ∈ scenario x.party, ∃ clientId, c = entry.call clientId := by
  obtain ⟨-, clientId, entries, hspoken, underWay, -, hcut⟩ :=
    session_spoken hdump serverSubscriber_throwsNoParseError id hrun x.party
  have hhistory : x ∈ s.history x.party := List.mem_filter.mpr ⟨hx, decide_eq_true rfl⟩
  have hmem : c ∈ entries.filterMap (AnsweredEntry.call clientId) := by
    rw [← hspoken.calls hdump]
    exact List.mem_flatMap.mpr ⟨x, hhistory, hc⟩
  obtain ⟨answered, hanswered, hcall⟩ := List.mem_filterMap.mp hmem
  obtain ⟨endpoint, -, rfl⟩ := Option.map_eq_some_iff.mp hcall
  refine ⟨answered.entry, ?_, clientId, rfl⟩
  rw [hcut]
  simp only [List.mem_append]
  exact .inl (.inl (.inl (List.mem_map_of_mem hanswered)))

/-- **When a client unsubscribes, the market was last called for its subscription.** -/
theorem lastCall_of_playable (hdump : Transmits dump parse) (hplayable : Playable scenario)
    (hrun : (serverSession dump parse).run (.initial {} scenario) es = some s)
    {k : κ} {clientId : String} {entries : List AnsweredEntry} {entry : ScenarioEntry}
    {post : List ScenarioEntry}
    (hspoken : Spoken dump False s.server k (s.history k) clientId entries)
    (hscenario : scenario k = entries.map AnsweredEntry.entry ++ entry :: post)
    (hunsubscribe : entry.subscribe = false) {provider : EndpointProvider}
    (htable : ∀ table, s.server.provider = some table → table = provider)
    (hproduct : provider.contains entry.productId = true) :
    SubscribedLast entry.productId s.server.calls := by
  have hentry : entry ∈ scenario k := by
    rw [hscenario]
    exact List.mem_append_right _ List.mem_cons_self
  -- the table has the product, so every entry for it was confirmed
  have hconfirmed : ∀ answered ∈ entries, answered.entry.productId = entry.productId →
      answered.endpoint.isSome = true := by
    intro answered hmem hsame
    rcases hspoken.answered hmem with ⟨table, hprovider, hport⟩ | ⟨-, hunlisted⟩
    · obtain rfl := htable table hprovider
      obtain ⟨endpoint, hendpoint⟩ := EndpointProvider.contains_iff.mp hproduct
      rw [hport, hsame, hendpoint]
      rfl
    · exact hunlisted.elim
  -- no other client was confirmed anything about it
  have hother : ∀ x ∈ s.log, x.party ≠ k → ∀ c ∈ callsIn parse x,
      c.productId ≠ entry.productId := by
    intro x hx hparty c hc hsame
    obtain ⟨other, hmem, clientId', rfl⟩ := call_of_scenario hdump hrun hx hc
    rw [ScenarioEntry.call_productId] at hsame
    exact hparty (hplayable.exclusive k x.party entry hentry other hmem hunsubscribe hsame)
  obtain ⟨before, hlast, hsubscribe⟩ := hplayable.balanced k _ entry post hscenario hunsubscribe
  obtain ⟨-, hproductId⟩ := lastEntry_spec hlast
  have hcalls : s.server.calls = s.log.flatMap (callsIn parse) :=
    session_calls hdump serverSubscriber_throwsNoParseError hrun
  refine ⟨clientId, ?_⟩
  rw [hcalls, lastCall_history s.log hother]
  show lastCall _ ((s.history k).flatMap (callsIn parse)) = _
  rw [hspoken.calls hdump, lastCall_entries _ _ hconfirmed, hlast, Option.map_some,
    ScenarioEntry.call, if_pos hsubscribe, hproductId]

end

/-! ## What a client queues -/

/-- The confirmations for an endpoint are those of the messages, each as often as it names
the endpoint. -/
theorem confirmations_eq (endpoint : String) (es : List DemoClient.Event) :
    DemoClient.confirmations endpoint es = (es.filterMap DemoClient.Event.confirmation).flatMap
      fun conf => List.replicate (conf.naming endpoint) conf.kind := by
  induction es with
  | nil => rfl
  | cons e es ih =>
    show _ ++ DemoClient.confirmations endpoint es = _
    rw [ih]
    cases e with
    | wakeUp => rfl
    | message jmsg =>
      dsimp only
      cases hconf : confirmation jmsg with
      | none =>
        have hnone : DemoClient.Event.confirmation (.message jmsg) = none := hconf
        rw [List.filterMap_cons_none hnone, List.nil_append]
      | some conf =>
        have hsome : DemoClient.Event.confirmation (.message jmsg) = some conf := hconf
        rw [List.filterMap_cons_some hsome, List.flatMap_cons]

theorem mem_confirmations {endpoint : String} {es : List DemoClient.Event}
    {kind : ConfirmationKind} :
    kind ∈ DemoClient.confirmations endpoint es ↔
      ∃ conf ∈ es.filterMap DemoClient.Event.confirmation,
        conf.kind = kind ∧ conf.naming endpoint ≠ 0 := by
  rw [confirmations_eq, List.mem_flatMap]
  refine exists_congr fun conf => and_congr_right fun _ => ?_
  rw [List.mem_replicate, and_comm, eq_comm]

/-- A client that is unsubscribed only from endpoints to which it was subscribed before gets
through every wake-up. -/
theorem Heard.wakeUp_total {demo : DemoClient} {heard : List AnsweredEntry}
    (h : Heard demo heard)
    (hbefore : ∀ answered ∈ heard, answered.entry.subscribe = false →
      ∃ before ∈ heard, before.entry.subscribe = true ∧ before.endpoint = answered.endpoint) :
    ∃ demo', demo.hendleNewEndpoints = some demo' := by
  obtain ⟨es, hrun, hconfirmed⟩ := h
  have haccounts : DemoClient.Accounts es demo := DemoClient.explained hrun
  cases hwake : demo.hendleNewEndpoints with
  | some demo' => exact ⟨demo', rfl⟩
  | none =>
    -- the endpoint of some unsubscription was never subscribed to
    obtain ⟨endpoint, hnone, hunsubscribe⟩ := haccounts.missing hwake
    obtain ⟨conf, hconf, hkind, hnaming⟩ := mem_confirmations.mp hunsubscribe
    rw [hconfirmed] at hconf
    obtain ⟨answered, hmem, hanswered⟩ := List.mem_filterMap.mp hconf
    obtain ⟨bound, hbound, rfl⟩ := Option.map_eq_some_iff.mp hanswered
    have hfalse : answered.entry.subscribe = false := by
      cases hsubscribe : answered.entry.subscribe with
      | false => rfl
      | true =>
        dsimp only at hkind
        rw [hsubscribe] at hkind
        cases hkind
    obtain ⟨before, hbeforeMem, hsubscribe, hsame⟩ := hbefore answered hmem hfalse
    have hmember : ConfirmationKind.subscribe ∈ DemoClient.confirmations endpoint es := by
      refine mem_confirmations.mpr ⟨{
        kind := .subscribe
        productEndpoint := "tcp://" ++ bound.address ++ ":" ++ bound.orderbookPort
        tradeEndpoint := "tcp://" ++ bound.address ++ ":" ++ bound.tradePort }, ?_, rfl, hnaming⟩
      rw [hconfirmed]
      refine List.mem_filterMap.mpr ⟨before, hbeforeMem, ?_⟩
      rw [AnsweredEntry.confirmation, hsame, hbound, hsubscribe]
      rfl
    have hpos := List.count_pos_iff.mpr hmember
    omega

end QuoteServer
