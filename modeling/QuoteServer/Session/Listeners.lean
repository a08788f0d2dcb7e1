import QuoteServer.Session.Scenario
import QuoteServer.Transport.Ports

/-!
# Clients listen where their products are published

A client that handled everything it heard listens with one thread to each of the two
publishers of a product if the last entry for it was a subscription, and to no other
endpoint. The publishers that it listens to are there, bound to these very endpoints
(`listeners_served`).
-/

namespace QuoteServer

open EventMachine RequestReply ClientService

/-! ## Addresses -/

/-- Where the order book of a product is published, as clients are told. -/
def Endpoint.orderbookAddress (endpoint : Endpoint) : String :=
  "tcp://" ++ endpoint.address ++ ":" ++ endpoint.orderbookPort

/-- Where its trades are. -/
def Endpoint.tradeAddress (endpoint : Endpoint) : String :=
  "tcp://" ++ endpoint.address ++ ":" ++ endpoint.tradePort

/-- No two publishers have one address. -/
structure DistinctAddresses (provider : EndpointProvider) : Prop where
  books : ∀ {p q endpoint endpoint'}, provider.prodIdToPort p = .ok endpoint →
    provider.prodIdToPort q = .ok endpoint' →
    endpoint.orderbookAddress = endpoint'.orderbookAddress → p = q
  trades : ∀ {p q endpoint endpoint'}, provider.prodIdToPort p = .ok endpoint →
    provider.prodIdToPort q = .ok endpoint' →
    endpoint.tradeAddress = endpoint'.tradeAddress → p = q
  apart : ∀ {p q endpoint endpoint'}, provider.prodIdToPort p = .ok endpoint →
    provider.prodIdToPort q = .ok endpoint' →
    endpoint.orderbookAddress ≠ endpoint'.tradeAddress

/-- The first of two endpoints is published where the second is only if they are one. -/
theorem tcp_inj {a b : Nat} (h : "tcp://" ++ "127.0.0.1" ++ ":" ++ toString a =
    "tcp://" ++ "127.0.0.1" ++ ":" ++ toString b) : a = b := by
  have hlist : "tcp://".toList ++ ("127.0.0.1" ++ ":" ++ toString a).toList =
      "tcp://".toList ++ ("127.0.0.1" ++ ":" ++ toString b).toList := by
    rw [← String.toList_append, ← String.toList_append]
    simpa only [String.append_assoc] using congrArg String.toList h
  exact EndpointProvider.address_inj (String.toList_inj.mp (List.append_cancel_left hlist))

/-- So it is in every table that the constructor builds, up to 10000 products. -/
theorem distinctAddresses_ofProducts {jmsg : Json} {provider : EndpointProvider}
    (hcount : jmsg.items.countP isOnline ≤ 10000)
    (h : EndpointProvider.ofProducts (.ok jmsg) = .ok provider) : DistinctAddresses provider := by
  obtain ⟨slots, hslots⟩ := EndpointProvider.numbered_ofProducts h
  refine ⟨fun hp hq heq => ?_, fun hp hq heq => ?_, fun hp hq heq => ?_⟩
  all_goals
    obtain ⟨i, hi, rfl⟩ := hslots.number_of_product hp
    obtain ⟨j, hj, rfl⟩ := hslots.number_of_product hq
    have hsame := tcp_inj heq
  · obtain rfl : i = j := by omega
    exact hslots.product_unique hi hj
  · obtain rfl : i = j := by omega
    exact hslots.product_unique hi hj
  · have hlt := hslots.below _ hi
    dsimp only at hlt
    omega

section

variable {κ : Type} [DecidableEq κ] {FloatingP : Type} [FloatingPoint FloatingP]
  {dump : Json → List UInt8} {parse : Parser} {scenario : κ → List ScenarioEntry}
  {es : List (SessionEvent κ (ServerEvent FloatingP))} {s : Session κ (MarketState FloatingP)}

/-! ## The table of a session -/

/-- The exchange answered with a list of at most 10000 products online. -/
def ListsFew (parse : Parser) (products : List UInt8) : Prop :=
  ∃ jmsg, parse products = .ok jmsg ∧ jmsg.items.countP isOnline ≤ 10000

omit [DecidableEq κ] in
theorem not_notListed {Y : Type} {es : List (SessionEvent κ Y)}
    (hes : ∀ k x, Event.serve k x ∈ es → ListsFew parse x.products) : ¬ NotListed parse es := by
  rintro ⟨k, x, hmem, herror⟩
  obtain ⟨jmsg, hparse, -⟩ := hes k x hmem
  rw [hparse] at herror
  cases herror

omit [FloatingPoint FloatingP] in
theorem distinctAddresses_instanceFor {t : ClientService (MarketState FloatingP)} {r : Request}
    {provider : EndpointProvider} (hlists : ListsFew parse r.products)
    (hbefore : ∀ table, t.provider = some table → DistinctAddresses table)
    (h : instanceFor parse t r = .ok provider) : DistinctAddresses provider := by
  unfold instanceFor at h
  cases htable : t.provider with
  | some table =>
    rw [htable] at h
    cases h
    exact hbefore _ htable
  | none =>
    obtain ⟨jmsg, hparse, hcount⟩ := hlists
    rw [htable, hparse] at h
    exact distinctAddresses_ofProducts hcount h

/-- Whatever happens in a session, the publishers of its table are apart. -/
theorem session_distinctAddresses (hes : ∀ k x, Event.serve k x ∈ es → ListsFew parse x.products)
    (hrun : (serverSession dump parse).run (.initial {} scenario) es = some s) :
    ∀ table, s.server.provider = some table → DistinctAddresses table := by
  refine server_rule (P := fun (t : ClientService (MarketState FloatingP)) =>
    ∀ table, t.provider = some table → DistinctAddresses table) hes ?_ ?_ ?_ hrun
  · intro table htable
    cases htable
  · intro t x data t' replies hx ht hserve table htable
    rcases iteration_provider (serve_iteration hserve) with hsame | ⟨provider, hnew, hinstance⟩
    · exact ht table (hsame.symm.trans htable)
    · obtain rfl : provider = table := Option.some.inj (hnew.symm.trans htable)
      exact distinctAddresses_instanceFor hx ht hinstance
  · intro t y t' ht hact
    obtain ⟨state, -, rfl⟩ := Option.map_eq_some_iff.mp hact
    exact ht

/-! ## What the replies confirm -/

/-- What an entry is confirmed as. -/
def ScenarioEntry.kind (entry : ScenarioEntry) : ConfirmationKind :=
  if entry.subscribe then .subscribe else .unsubscribe

/-- The subscriptions to a product, and the unsubscriptions from it, in order. -/
def kindsFor (p : String) (entries : List ScenarioEntry) : List ConfirmationKind :=
  (entries.filter fun entry => entry.productId = p).map ScenarioEntry.kind

theorem kindsFor_cons (p : String) (entry : ScenarioEntry) (entries : List ScenarioEntry) :
    kindsFor p (entry :: entries) =
      (if entry.productId = p then [entry.kind] else []) ++ kindsFor p entries := by
  unfold kindsFor
  by_cases h : entry.productId = p
  · rw [List.filter_cons_of_pos (by simpa using h), if_pos h]
    rfl
  · rw [List.filter_cons_of_neg (by simpa using h), if_neg h]
    rfl

/-- Scenarios that the threads of the clients can follow. -/
structure Followable {κ : Type} (scenario : κ → List ScenarioEntry) : Prop where
  /-- No product is subscribed to again while a thread listens to it, and so on. -/
  manageable : ∀ k p entries, entries <+: scenario k → DemoClient.Manageable (kindsFor p entries)
  /-- The product of an unsubscription is in no other scenario. -/
  exclusive : ∀ k j, ∀ entry ∈ scenario k, ∀ other ∈ scenario j, entry.subscribe = false →
    other.productId = entry.productId → j = k

/-- The confirmation of an entry. -/
def confirmationAt (entry : ScenarioEntry) (endpoint : Endpoint) : Confirmation where
  kind := entry.kind
  productEndpoint := endpoint.orderbookAddress
  tradeEndpoint := endpoint.tradeAddress

theorem confirmation_answered (entry : ScenarioEntry) (endpoint : Endpoint) :
    AnsweredEntry.confirmation ⟨entry, some endpoint⟩ = some (confirmationAt entry endpoint) := rfl

/-- The order book or the trades of the product are published there. -/
def AddressOf (provider : EndpointProvider) (p address : String) : Prop :=
  ∃ endpoint, provider.prodIdToPort p = .ok endpoint ∧
    (address = endpoint.orderbookAddress ∨ address = endpoint.tradeAddress)

/-- A confirmation names each address of its own product once, and no other address of the
table. -/
theorem naming_confirmationAt {provider : EndpointProvider} (hd : DistinctAddresses provider)
    {p address : String} (haddress : AddressOf provider p address) {entry : ScenarioEntry}
    {endpoint : Endpoint} (hentry : provider.prodIdToPort entry.productId = .ok endpoint) :
    (confirmationAt entry endpoint).naming address = if entry.productId = p then 1 else 0 := by
  obtain ⟨own, hp, haddress⟩ := haddress
  unfold Confirmation.naming confirmationAt
  dsimp only
  by_cases h : entry.productId = p
  · subst h
    obtain rfl := Except.ok.inj (hp.symm.trans hentry)
    have hapart : own.orderbookAddress ≠ own.tradeAddress := hd.apart hp hp
    rw [if_pos rfl]
    rcases haddress with rfl | rfl
    · rw [List.count_cons_self, List.count_cons_of_ne (Ne.symm hapart), List.count_nil]
    · rw [List.count_cons_of_ne hapart, List.count_cons_self, List.count_nil]
  · rw [if_neg h, List.count_eq_zero]
    intro hmem
    simp only [List.mem_cons, List.not_mem_nil, or_false] at hmem
    -- an address of two products, or of a book and of trades
    rcases haddress with rfl | rfl <;> rcases hmem with hsame | hsame
    · exact h (hd.books hentry hp hsame.symm)
    · exact hd.apart hp hentry hsame
    · exact hd.apart hentry hp hsame.symm
    · exact h (hd.trades hentry hp hsame.symm)

/-- An address that no product has is in no confirmation. -/
theorem naming_elsewhere {provider : EndpointProvider} {address : String}
    (hno : ∀ p, ¬ AddressOf provider p address) {entry : ScenarioEntry} {endpoint : Endpoint}
    (hentry : provider.prodIdToPort entry.productId = .ok endpoint) :
    (confirmationAt entry endpoint).naming address = 0 := by
  unfold Confirmation.naming confirmationAt
  rw [List.count_eq_zero]
  intro hmem
  simp only [List.mem_cons, List.not_mem_nil, or_false] at hmem
  exact hno entry.productId ⟨endpoint, hentry, hmem⟩

/-- What the confirmations of some entries mean for an address of a product. -/
theorem confirmed_kinds {provider : EndpointProvider} (hd : DistinctAddresses provider)
    {p address : String} (haddress : AddressOf provider p address)
    {answered : List AnsweredEntry}
    (hanswered : ∀ a ∈ answered,
      a.endpoint = (provider.prodIdToPort a.entry.productId).toOption) :
    (answered.filterMap AnsweredEntry.confirmation).flatMap
        (fun conf => List.replicate (conf.naming address) conf.kind) =
      kindsFor p (answered.map AnsweredEntry.entry) := by
  induction answered with
  | nil => rfl
  | cons a answered ih =>
    have ih := ih fun a' ha' => hanswered a' (List.mem_cons_of_mem _ ha')
    have hendpoint := hanswered a List.mem_cons_self
    obtain ⟨entry, bound⟩ := a
    dsimp only at hendpoint
    rw [List.map_cons, kindsFor_cons]
    cases hport : provider.prodIdToPort entry.productId with
    | ok endpoint =>
      obtain rfl : bound = some endpoint := by
        rw [hendpoint, hport]
        rfl
      rw [List.filterMap_cons_some (confirmation_answered entry endpoint), List.flatMap_cons, ih,
        naming_confirmationAt hd haddress hport]
      congr 1
      by_cases h : entry.productId = p
      · rw [if_pos h, if_pos h]
        rfl
      · rw [if_neg h, if_neg h]
        rfl
    | error e =>
      -- a product that is not in the table has no address
      obtain rfl : bound = none := by
        rw [hendpoint, hport]
        rfl
      have hother : entry.productId ≠ p := by
        rintro rfl
        obtain ⟨endpoint, hp, -⟩ := haddress
        rw [hport] at hp
        cases hp
      rw [List.filterMap_cons_none rfl, ih, if_neg hother, List.nil_append]

theorem confirmed_elsewhere {provider : EndpointProvider} {address : String}
    (hno : ∀ p, ¬ AddressOf provider p address) {answered : List AnsweredEntry}
    (hanswered : ∀ a ∈ answered,
      a.endpoint = (provider.prodIdToPort a.entry.productId).toOption) :
    (answered.filterMap AnsweredEntry.confirmation).flatMap
      (fun conf => List.replicate (conf.naming address) conf.kind) = [] := by
  rw [List.flatMap_eq_nil_iff]
  intro conf hconf
  obtain ⟨a, hmem, ha⟩ := List.mem_filterMap.mp hconf
  obtain ⟨endpoint, hendpoint, rfl⟩ := Option.map_eq_some_iff.mp ha
  have hport := toOption_eq_some.mp ((hanswered a hmem).symm.trans hendpoint)
  have hnone : (confirmationAt a.entry endpoint).naming address = 0 := naming_elsewhere hno hport
  exact congrArg (List.replicate · a.entry.kind) hnone

/-! ## The threads of a client -/

/-- The threads that listen to an endpoint whose confirmations are known. -/
theorem Heard.listening {demo : DemoClient} {heard : List AnsweredEntry} (h : Heard demo heard)
    (hsub : demo.endpointsToSubscribe = []) (hunsub : demo.endpointsToUnsubscribe = [])
    {address : String} {kinds : List ConfirmationKind}
    (hkinds : (heard.filterMap AnsweredEntry.confirmation).flatMap
      (fun conf => List.replicate (conf.naming address) conf.kind) = kinds)
    (hmanageable : DemoClient.Manageable kinds) :
    demo.listening address = if kinds.getLast? = some .subscribe then 1 else 0 := by
  obtain ⟨es, hrun, hconfirmed⟩ := h
  have haccounts : DemoClient.Accounts es demo := DemoClient.explained hrun
  have heq : DemoClient.confirmations address es = kinds := by
    rw [confirmations_eq, hconfirmed, hkinds]
  have hlistening := (haccounts.listening_iff hsub hunsub address).mpr
  rw [heq] at hlistening
  exact hlistening hmanageable

/-! ## The calls of the others -/

theorem lastCall_append (p : String) (calls calls' : List SubscriberCall) :
    lastCall p (calls ++ calls') = (lastCall p calls').or (lastCall p calls) := by
  unfold lastCall
  rw [List.filter_append, List.getLast?_append]

theorem lastCall_spec {p : String} {calls : List SubscriberCall} {c : SubscriberCall}
    (h : lastCall p calls = some c) : c ∈ calls ∧ c.productId = p := by
  have hmem := List.mem_of_getLast? h
  rw [List.mem_filter, decide_eq_true_eq] at hmem
  exact hmem

/-- A product that one client subscribed to last, and the others never unsubscribed from, is
subscribed to. -/
theorem subscribedLast_of_others {p : String} {k : κ}
    {log : List (Exchange κ (List UInt8) (List UInt8))}
    (hothers : ∀ x ∈ log, x.party ≠ k → ∀ c ∈ callsIn parse x, c.productId = p →
      ∃ clientId, c = .subscribe clientId p)
    (hown : SubscribedLast p ((log.filter fun x => x.party = k).flatMap (callsIn parse))) :
    SubscribedLast p (log.flatMap (callsIn parse)) := by
  induction log using List.reverseRecOn with
  | nil => exact hown
  | append_singleton log x ih =>
    have hbefore := fun y hy => hothers y (List.mem_append_left _ hy)
    have hlast := hothers x (List.mem_append_right _ (List.mem_singleton.mpr rfl))
    unfold SubscribedLast at *
    rw [List.flatMap_append, List.flatMap_singleton, lastCall_append]
    rw [List.filter_append, List.flatMap_append, lastCall_append] at hown
    by_cases hparty : x.party = k
    · have hkept : [x].filter (fun x => x.party = k) = [x] :=
        List.filter_cons_of_pos (decide_eq_true hparty)
      rw [hkept, List.flatMap_singleton] at hown
      cases hcall : lastCall p (callsIn parse x) with
      | some c =>
        rw [hcall] at hown
        exact hown
      | none =>
        rw [hcall, Option.none_or] at hown
        exact ih hbefore hown
    · have hdropped : [x].filter (fun x => x.party = k) = [] :=
        List.filter_cons_of_neg (by simpa using hparty)
      rw [hdropped] at hown
      cases hcall : lastCall p (callsIn parse x) with
      | some c =>
        obtain ⟨hmem, hproduct⟩ := lastCall_spec hcall
        obtain ⟨clientId, rfl⟩ := hlast hparty c hmem hproduct
        exact ⟨clientId, rfl⟩
      | none => exact ih hbefore hown

theorem getLast?_kindsFor (p : String) (entries : List ScenarioEntry) :
    (kindsFor p entries).getLast? = (lastEntry p entries).map ScenarioEntry.kind :=
  List.getLast?_map ..

/-- What a client subscribed to last is subscribed to, if no other client unsubscribes from
it. -/
theorem subscribedLast_of_client (hdump : Transmits dump parse) (hscenario : Followable scenario)
    (hrun : (serverSession dump parse).run (.initial {} scenario) es = some s) {Unlisted : Prop}
    {k : κ} {clientId : String} {entries : List AnsweredEntry}
    (hspoken : Spoken dump Unlisted s.server k (s.history k) clientId entries)
    (hcut : ScenarioCut (scenario k) (s.parties k).state entries) {p : String}
    (hconfirmed : ∀ answered ∈ entries, answered.entry.productId = p →
      answered.endpoint.isSome = true)
    (hlast : (kindsFor p (entries.map AnsweredEntry.entry)).getLast? = some .subscribe) :
    SubscribedLast p s.server.calls := by
  rw [getLast?_kindsFor] at hlast
  obtain ⟨entry, hentry, hkind⟩ := Option.map_eq_some_iff.mp hlast
  obtain ⟨hmem, hproduct⟩ := lastEntry_spec hentry
  have hsubscribe : entry.subscribe = true := by
    unfold ScenarioEntry.kind at hkind
    cases hs : entry.subscribe with
    | true => rfl
    | false =>
      rw [hs] at hkind
      cases hkind
  have hentry' : entry ∈ scenario k := by
    obtain ⟨underWay, -, hwhole⟩ := hcut
    rw [hwhole]
    simp only [List.mem_append]
    exact .inl (.inl (.inl hmem))
  have hcalls : s.server.calls = s.log.flatMap (callsIn parse) :=
    session_calls hdump serverSubscriber_throwsNoParseError hrun
  rw [hcalls]
  refine subscribedLast_of_others (k := k) (fun x hx hparty c hc hsame => ?_) ⟨clientId, ?_⟩
  · obtain ⟨other, hother, clientId', rfl⟩ := call_of_scenario hdump hrun hx hc
    rw [ScenarioEntry.call_productId] at hsame
    unfold ScenarioEntry.call
    cases hs : other.subscribe with
    | true => exact ⟨clientId', by rw [if_pos rfl, hsame]⟩
    | false =>
      -- only one client names what it unsubscribes from
      have hone := hscenario.exclusive x.party k other hother entry hentry' hs
        (hproduct.trans hsame.symm)
      exact absurd hone.symm hparty
  · show lastCall p ((s.history k).flatMap (callsIn parse)) = _
    rw [hspoken.calls hdump, lastCall_entries p clientId hconfirmed, hentry, Option.map_some,
      ScenarioEntry.call, if_pos hsubscribe, hproduct]

/-! ## Listening -/

/-- The client listens with one thread to each endpoint of the products that it subscribed to
last, and to nothing else, and there these products are published. -/
structure ListensWhereServed (table : Option EndpointProvider) (m : Market FloatingP)
    (entries : List ScenarioEntry) (demo : DemoClient) : Prop where
  listening : ∀ provider p address, table = some provider → AddressOf provider p address →
    demo.listening address = if (kindsFor p entries).getLast? = some .subscribe then 1 else 0
  elsewhere : ∀ address, (∀ provider p, table = some provider → ¬ AddressOf provider p address) →
    demo.listening address = 0
  published : ∀ provider p endpoint, table = some provider →
    provider.prodIdToPort p = .ok endpoint → (kindsFor p entries).getLast? = some .subscribe →
    ∃ product publisher, m.products p = some product ∧ m.tradePublishers p = some publisher ∧
      "tcp://" ++ product.publisher.endpoint = endpoint.orderbookAddress ∧
      "tcp://" ++ publisher.endpoint = endpoint.tradeAddress

omit [FloatingPoint FloatingP] in
/-- What is served is published at the addresses of the table. -/
theorem Serving.addresses {t : ClientService (MarketState FloatingP)} (ht : Serving t)
    {provider : EndpointProvider} {p : String} {endpoint : Endpoint}
    (htable : t.provider = some provider) (hport : provider.prodIdToPort p = .ok endpoint)
    (hsubscribed : SubscribedLast p t.calls) :
    ∃ product publisher, t.productSubscriber.market.products p = some product ∧
      t.productSubscriber.market.tradePublishers p = some publisher ∧
      "tcp://" ++ product.publisher.endpoint = endpoint.orderbookAddress ∧
      "tcp://" ++ publisher.endpoint = endpoint.tradeAddress := by
  have hserved := ht.mirrors.served p
  obtain ⟨product, hproduct⟩ := Option.isSome_iff_exists.mp (hserved.product.mpr hsubscribed)
  obtain ⟨publisher, hpublisher⟩ :=
    Option.isSome_iff_exists.mp (hserved.tradePublisher.mpr hsubscribed)
  refine ⟨product, publisher, hproduct, hpublisher, ?_, ?_⟩
  · obtain ⟨provider', endpoint', htable', hport', hbound⟩ := ht.published.books p product hproduct
    obtain rfl : provider = provider' := Option.some.inj (htable.symm.trans htable')
    obtain rfl := Except.ok.inj (hport.symm.trans hport')
    simp only [hbound, Endpoint.orderbookAddress, String.append_assoc]
  · obtain ⟨provider', endpoint', htable', hport', hbound⟩ :=
      ht.published.trades p publisher hpublisher
    obtain rfl : provider = provider' := Option.some.inj (htable.symm.trans htable')
    obtain rfl := Except.ok.inj (hport.symm.trans hport')
    simp only [hbound, Endpoint.tradeAddress, String.append_assoc]

/-- A client that read every reply: it heard all that was answered to it, and an entry was
answered with the endpoint that the table has for its product, if it has one. -/
structure Settled (dump : Json → List UInt8) (scenario : κ → List ScenarioEntry)
    (s : Session κ (MarketState FloatingP)) (k : κ) (clientId : String)
    (heard : List AnsweredEntry) : Prop where
  spoken : Spoken dump False s.server k (s.history k) clientId heard
  cut : ScenarioCut (scenario k) (s.parties k).state heard
  handled : Heard (s.parties k).state.demo heard
  answered : ∀ provider, s.server.provider = some provider → ∀ a ∈ heard,
    a.endpoint = (provider.prodIdToPort a.entry.productId).toOption

omit [FloatingPoint FloatingP] in
theorem Settled.heard_initial {clientId : String} {heard : List AnsweredEntry} {k : κ}
    (h : Settled dump scenario s k clientId heard) :
    heard.map AnsweredEntry.entry <+: scenario k := by
  obtain ⟨underWay, -, hwhole⟩ := h.cut
  rw [hwhole]
  exact ((List.prefix_append _ _).trans (List.prefix_append _ _)).trans (List.prefix_append _ _)

/-- With no reply left to read a client is settled. -/
theorem session_settled (hdump : Transmits dump parse)
    (hes : ∀ k x, Event.serve k x ∈ es → ListsFew parse x.products)
    (hrun : (serverSession dump parse).run (.initial {} scenario) es = some s) (k : κ)
    (hreplies : (s.parties k).replies = []) :
    ∃ clientId heard, Settled dump scenario s k clientId heard := by
  have hphases := session_phases hdump serverSubscriber_throwsNoParseError
    (fun hnot => not_notListed hes hnot) hrun
  obtain ⟨clientId, heard, unheard, underWay, hprogress⟩ := phase_progress (hphases k)
  obtain rfl := hprogress.settled hreplies
  have hspoken := hprogress.spoken
  have htaken := hprogress.taken
  rw [List.append_nil] at hspoken htaken
  refine ⟨clientId, heard, hspoken, ⟨underWay, hprogress.single, ?_⟩, hprogress.handled, ?_⟩
  · rw [scenario_taken hrun k, htaken]
  · intro provider htable a ha
    rcases hspoken.answered ha with ⟨provider', htable', hendpoint⟩ | ⟨-, hno⟩
    · obtain rfl : provider = provider' := Option.some.inj (htable.symm.trans htable')
      exact hendpoint
    · exact hno.elim

omit [FloatingPoint FloatingP] in
/-- Once its endpoints are handled, a settled client listens to an address of a product if it
subscribed to the product last. -/
theorem Settled.listening {clientId : String} {heard : List AnsweredEntry} {k : κ}
    (h : Settled dump scenario s k clientId heard) (hscenario : Followable scenario)
    (hsub : (s.parties k).state.demo.endpointsToSubscribe = [])
    (hunsub : (s.parties k).state.demo.endpointsToUnsubscribe = [])
    {provider : EndpointProvider} {p address : String} (htable : s.server.provider = some provider)
    (hdistinct : DistinctAddresses provider) (haddress : AddressOf provider p address) :
    (s.parties k).state.demo.listening address =
      if (kindsFor p (heard.map AnsweredEntry.entry)).getLast? = some .subscribe then 1 else 0 :=
  h.handled.listening hsub hunsub
    (confirmed_kinds hdistinct haddress (h.answered provider htable))
    (hscenario.manageable k p _ h.heard_initial)

omit [FloatingPoint FloatingP] in
/-- It listens to nothing else. -/
theorem Settled.listening_elsewhere {clientId : String} {heard : List AnsweredEntry} {k : κ}
    (h : Settled dump scenario s k clientId heard)
    (hsub : (s.parties k).state.demo.endpointsToSubscribe = [])
    (hunsub : (s.parties k).state.demo.endpointsToUnsubscribe = []) {address : String}
    (hno : ∀ provider p, s.server.provider = some provider → ¬ AddressOf provider p address) :
    (s.parties k).state.demo.listening address = 0 := by
  suffices hnone : (heard.filterMap AnsweredEntry.confirmation).flatMap
      (fun conf => List.replicate (conf.naming address) conf.kind) = [] from
    h.handled.listening hsub hunsub hnone (.inl ⟨rfl, List.not_mem_nil⟩)
  cases htable : s.server.provider with
  | some provider =>
    exact confirmed_elsewhere (fun p => hno provider p htable) (h.answered provider htable)
  | none =>
    -- without a table nothing was answered
    have hnothing : heard = [] := by
      refine List.eq_nil_iff_forall_not_mem.mpr fun a ha => ?_
      rcases h.spoken.answered ha with ⟨provider, hsome, -⟩ | ⟨-, hno⟩
      · rw [htable] at hsome
        cases hsome
      · exact hno
    rw [hnothing]
    rfl

/-- What a settled client subscribed to last is published where it was told. -/
theorem Settled.published {clientId : String} {heard : List AnsweredEntry} {k : κ}
    (h : Settled dump scenario s k clientId heard) (hdump : Transmits dump parse)
    (hscenario : Followable scenario)
    (hrun : (serverSession dump parse).run (.initial {} scenario) es = some s)
    {provider : EndpointProvider} {p : String} {endpoint : Endpoint}
    (htable : s.server.provider = some provider) (hport : provider.prodIdToPort p = .ok endpoint)
    (hlast : (kindsFor p (heard.map AnsweredEntry.entry)).getLast? = some .subscribe) :
    ∃ product publisher, s.server.productSubscriber.market.products p = some product ∧
      s.server.productSubscriber.market.tradePublishers p = some publisher ∧
      "tcp://" ++ product.publisher.endpoint = endpoint.orderbookAddress ∧
      "tcp://" ++ publisher.endpoint = endpoint.tradeAddress := by
  refine (session_serving hrun).addresses htable hport ?_
  refine subscribedLast_of_client hdump hscenario hrun h.spoken h.cut ?_ hlast
  rintro a ha rfl
  rw [h.answered provider htable a ha, hport]
  rfl

/-- **Clients listen where their products are published.** In every state of a session, a
client that read every reply and handled every endpoint listens with one thread to each of
the two publishers of a product that it subscribed to last, where they are, and to nothing
else. -/
theorem listeners_served (hdump : Transmits dump parse) (hscenario : Followable scenario)
    (hes : ∀ k x, Event.serve k x ∈ es → ListsFew parse x.products)
    (hrun : (serverSession dump parse).run (.initial {} scenario) es = some s) (k : κ)
    (hreplies : (s.parties k).replies = [])
    (hsub : (s.parties k).state.demo.endpointsToSubscribe = [])
    (hunsub : (s.parties k).state.demo.endpointsToUnsubscribe = []) :
    ∃ clientId entries, Spoken dump False s.server k (s.history k) clientId entries ∧
      ScenarioCut (scenario k) (s.parties k).state entries ∧
      ListensWhereServed s.server.provider s.server.productSubscriber.market
        (entries.map AnsweredEntry.entry) (s.parties k).state.demo := by
  obtain ⟨clientId, heard, hsettled⟩ := session_settled hdump hes hrun k hreplies
  refine ⟨clientId, heard, hsettled.spoken, hsettled.cut, ?_, ?_, ?_⟩
  · intro provider p address htable haddress
    have hdistinct := session_distinctAddresses hes hrun provider htable
    exact hsettled.listening hscenario hsub hunsub htable hdistinct haddress
  · intro address hno
    exact hsettled.listening_elsewhere hsub hunsub hno
  · intro provider p endpoint htable hport hlast
    exact hsettled.published hdump hscenario hrun htable hport hlast

end

/-! ## One client listens -/

/-- A client can follow a product that it subscribes to, unsubscribes from and subscribes to
once more. -/
theorem manageable_of_few {kinds : List ConfirmationKind}
    (h : kinds <+: [.subscribe, .unsubscribe, .subscribe]) : DemoClient.Manageable kinds := by
  rw [← List.mem_inits] at h
  simp only [List.inits, List.map_cons, List.map_nil, List.mem_cons, List.not_mem_nil,
    or_false] at h
  rcases h with rfl | rfl | rfl | rfl
  · exact .inl (by decide)
  · exact .inr (.inl (by decide))
  · exact .inr (.inl (by decide))
  · exact .inr (.inr (by decide))

theorem kindsFor_mono (p : String) {entries entries' : List ScenarioEntry}
    (h : entries <+: entries') : kindsFor p entries <+: kindsFor p entries' :=
  (h.filter _).map _

theorem twoScenarios_followable : Followable twoScenarios := by
  refine ⟨fun k p entries h => manageable_of_few ((kindsFor_mono p h).trans ?_),
    twoScenarios_playable.exclusive⟩
  cases k with
  | false =>
    by_cases hp : p = "BTC-USD"
    · subst hp
      decide
    · rw [twoScenarios, kindsFor_cons, if_neg (Ne.symm hp)]
      exact List.nil_prefix
  | true =>
    by_cases hp : p = "ETH-USD"
    · subst hp
      decide
    · rw [twoScenarios, kindsFor_cons, if_neg (Ne.symm hp), kindsFor_cons, if_neg (Ne.symm hp)]
      exact List.nil_prefix

/-- The first of the two clients has subscribed, and its thread has handled the endpoints. -/
theorem oneListens_run :
    ∃ s, (serverSession dumpFlat parseFlat).run (.initial {} twoScenarios) (twoClients.take 15) =
        some s ∧ (s.parties true).replies = [] ∧
      (s.parties true).state.demo.endpointsToSubscribe = [] ∧
      (s.parties true).state.demo.endpointsToUnsubscribe = [] := by
  have hrun : ((serverSession dumpFlat parseFlat).run
      (.initial ({} : MarketState Int) twoScenarios) (twoClients.take 15)).any (fun s =>
        (s.parties true).replies.isEmpty &&
        (s.parties true).state.demo.endpointsToSubscribe.isEmpty &&
        (s.parties true).state.demo.endpointsToUnsubscribe.isEmpty) = true := by decide +kernel
  obtain ⟨s, hs, hempty⟩ := (Option.any_eq_true _ _).mp hrun
  simp only [Bool.and_eq_true, List.isEmpty_iff] at hempty
  exact ⟨s, hs, hempty.1.1, hempty.1.2, hempty.2⟩

theorem listeners_served_one :
    ∃ s, (serverSession dumpFlat parseFlat).run (.initial {} twoScenarios) (twoClients.take 15) =
        some s ∧
      ∃ clientId entries,
        Spoken dumpFlat False s.server true (s.history true) clientId entries ∧
        ScenarioCut (twoScenarios true) (s.parties true).state entries ∧
        ListensWhereServed s.server.provider s.server.productSubscriber.market
          (entries.map AnsweredEntry.entry) (s.parties true).state.demo := by
  obtain ⟨s, hrun, hreplies, hsub, hunsub⟩ := oneListens_run
  refine ⟨s, hrun, listeners_served transmits_flat twoScenarios_followable (fun k x hmem => ?_)
    hrun true hreplies hsub hunsub⟩
  rw [twoClients_products (List.mem_of_mem_take hmem)]
  exact ⟨_, rfl, by decide⟩

end QuoteServer
