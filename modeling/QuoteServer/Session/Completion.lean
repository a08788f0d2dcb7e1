import QuoteServer.CatchUp
import QuoteServer.Session.Refinement
import QuoteServer.Session.Survival

/-!
# Scenarios are played to the end

From every state that a session can reach, a scenario can be completed by steps of its
client, of the service, and of the feed products that the client unsubscribes from
(`scenario_completes`). These are needed because `unsubscribe` destroys a feed product, and
the destructor waits for the request thread and the message thread. They come to rest on
their own: the request may fail, and what the message thread holds it hands over, as long as
it can be read (`run_rest`).

Every call in such a run returns as far as these threads are concerned (`CallReturns`). The
mutexes of the server are not part of a session.
-/

namespace QuoteServer

open EventMachine RequestReply ClientService CoinbaseFeedMessageHandler

/-! ## A feed product comes to rest -/

section

variable {FloatingP : Type} [FloatingPoint FloatingP]

/-- The order book request under way fails, and the message thread hands over what it holds. -/
def comeToRest (f : FeedState FloatingP) : List FeedEvent :=
  (if f.product.requestRunning then [.complete .empty] else []) ++
    List.replicate f.messages.length .hand

/-- What the message thread holds can be read. -/
def FeedState.CanFinish (f : FeedState FloatingP) : Prop :=
  ∃ pcs : List (ProductChange FloatingP),
    changesOf f.product.productId (f.messages.map Queued.json) = .ok pcs

theorem FeedState.canFinish_of_nil {f : FeedState FloatingP} (h : f.messages = []) :
    f.CanFinish := by
  refine ⟨[], ?_⟩
  rw [h]
  rfl

/-- A request that fails ends its thread and changes nothing else. -/
theorem run_failedRequest (f : FeedState FloatingP) :
    (feedMachine FloatingP).run f (if f.product.requestRunning then [.complete .empty] else []) =
      some { f with product := { f.product with requestRunning := false } } := by
  cases hrun : f.product.requestRunning with
  | false =>
    rw [if_neg Bool.false_ne_true, ← hrun]
    rfl
  | true =>
    rw [if_pos rfl, Machine.run_cons]
    have hstep : f.step (.complete .empty) =
        some { f with product := { f.product with requestRunning := false } } := by
      unfold FeedState.step
      dsimp only
      rw [hrun, if_pos rfl]
      rfl
    exact Option.bind_eq_some_iff.mpr ⟨_, hstep, rfl⟩

/-- **Both threads of a feed product come to rest**, if what is held can be read. -/
theorem run_rest {f : FeedState FloatingP} (hcan : f.CanFinish) :
    ∃ f', (feedMachine FloatingP).run f (comeToRest f) = some f' ∧ f'.atRest = true ∧
      f'.messages = [] := by
  obtain ⟨pcs, hpcs⟩ := hcan
  let ended : FeedState FloatingP :=
    { f with product := { f.product with requestRunning := false } }
  have hheld : ended.messages = f.messages := rfl
  obtain ⟨f', hhands, hnothing, hproduct⟩ := run_hands hheld hpcs
  refine ⟨f', (Machine.run_append_some _).mpr ⟨_, run_failedRequest f, hhands⟩, ?_, hnothing⟩
  rw [FeedState.atRest, hproduct, hnothing]
  rfl

omit [FloatingPoint FloatingP] in
/-- After a call a feed product is the one that was there before, or a new one. -/
theorem listener_after_call {provider : EndpointProvider} {m m' : Market FloatingP}
    {c : SubscriberCall} {q : String} {f : FeedState FloatingP}
    (h : Market.asSubscriber.run provider m c = .ok m')
    (hf : m'.feedClient.prodIdToListener q = some f) :
    m.feedClient.prodIdToListener q = some f ∨ f = .initial q := by
  cases c with
  | subscribe clientId p =>
    obtain ⟨m₁, hproduct, htrades⟩ := bind_eq_ok.mp h
    have hfirst : m₁.feedClient.prodIdToListener q = some f := by
      rcases Market.subscribeTrades_cases htrades with ⟨-, rfl⟩ | ⟨-, _, -, rfl⟩ <;> exact hf
    rcases Market.subscribeProduct_cases hproduct with ⟨_, -, rfl⟩ | ⟨-, _, -, rfl⟩
    · exact .inl hfirst
    · change (m.feedClient.subscribe p).prodIdToListener q = some f at hfirst
      by_cases hq : q = p
      · subst hq
        rw [CoinbaseFeedClient.subscribe_listener_self] at hfirst
        cases hold : m.feedClient.prodIdToListener q with
        | none =>
          rw [hold] at hfirst
          exact .inr (Option.some.inj hfirst).symm
        | some g =>
          rw [hold] at hfirst
          exact .inl hfirst
      · rw [CoinbaseFeedClient.subscribe_listener_ne _ hq] at hfirst
        exact .inl hfirst
  | unsubscribe clientId p =>
    obtain ⟨_, -, ⟨-, rfl⟩ | ⟨-, rfl⟩⟩ := Market.unsubscribe_cases h
    · change (m.feedClient.unsubscribe p).prodIdToListener q = some f at hf
      by_cases hq : q = p
      · subst hq
        rw [CoinbaseFeedClient.unsubscribe_listener_self] at hf
        cases hf
      · rw [CoinbaseFeedClient.unsubscribe_listener_ne _ hq] at hf
        exact .inl hf
    · exact .inl hf

omit [FloatingPoint FloatingP] in
/-- A call destroys at most the feed product that it unsubscribes from. -/
theorem mayDestroy_call {provider : EndpointProvider} {t t' : MarketState FloatingP}
    {c : SubscriberCall} (h : Market.asSubscriber.run provider t.market c = .ok t'.market)
    (hrest : ∀ clientId p f, c = .unsubscribe clientId p →
      t.market.feedClient.prodIdToListener p = some f → f.atRest = true) (q : String) :
    mayDestroy q t t' = true := by
  cases c with
  | subscribe clientId p => exact mayDestroy_of_there fun hq => listener_stays h hq
  | unsubscribe clientId p =>
    by_cases hq : q = p
    · subst hq
      unfold mayDestroy
      split
      · exact hrest clientId q _ rfl ‹_›
      · rfl
    · refine mayDestroy_of_there fun hthere => ?_
      obtain ⟨_, -, ⟨-, hm⟩ | ⟨-, hm⟩⟩ := Market.unsubscribe_cases h
      · rw [hm]
        exact (CoinbaseFeedClient.unsubscribe_listener_isSome _ p q).mpr ⟨hq, hthere⟩
      · rw [hm]
        exact hthere

end

/-! ## What a client and the feed do by themselves -/

section

variable {κ : Type} [DecidableEq κ] {FloatingP : Type} [FloatingPoint FloatingP]

/-- What may happen while a client plays its scenario: something of its own, or something in
a feed product that it unsubscribes from; and calls return only when the threads that they
join have ended. -/
structure Completing (dump : Json → List UInt8) (parse : Parser)
    (scenario : κ → List ScenarioEntry) (k : κ) (s : Session κ (MarketState FloatingP))
    (e : SessionEvent κ (ServerEvent FloatingP)) : Prop where
  own : e.party = some k ∨ ∃ entry ∈ scenario k, entry.subscribe = false ∧
    ∃ fe, e = .background (.feed entry.productId fe)
  returns : CallReturns dump parse s e

/-- What the message threads of the feed products that a client unsubscribes from hold can be
read. -/
def FeedsCanFinish (scenario : κ → List ScenarioEntry) (k : κ)
    (s : Session κ (MarketState FloatingP)) : Prop :=
  ∀ entry ∈ scenario k, entry.subscribe = false → ∀ f,
    s.server.productSubscriber.market.feedClient.prodIdToListener entry.productId = some f →
      f.CanFinish

/-- A state from which the scenario of the client can be played. -/
structure Playing (dump : Json → List UInt8) (parse : Parser) (scenario : κ → List ScenarioEntry)
    (k : κ) (s : Session κ (MarketState FloatingP)) : Prop where
  reached : Reached dump parse scenario s
  canFinish : FeedsCanFinish scenario k s

variable {dump : Json → List UInt8} {parse : Parser} {scenario : κ → List ScenarioEntry}
  {s s' : Session κ (MarketState FloatingP)} {k : κ}

/-- Something that the client does by itself. -/
theorem completing_own {e : SessionEvent κ (ServerEvent FloatingP)} (hown : e.party = some k)
    (he : ∀ k x, e ≠ .serve k x) : Completing dump parse scenario k s e :=
  ⟨.inl hown, callReturns_of_not_serve he⟩

/-- A step that leaves the server as it is. -/
theorem Playing.step (h : Playing dump parse scenario k s)
    {e : SessionEvent κ (ServerEvent FloatingP)} (he : ∀ k x, e ≠ .serve k x)
    (hstep : (serverSession dump parse).step s e = some s') (hserver : s'.server = s.server) :
    Playing dump parse scenario k s' where
  reached := h.reached.step (fun j x hserve => absurd hserve (he j x)) hstep
  canFinish := by
    unfold FeedsCanFinish
    rw [hserver]
    exact h.canFinish

/-- The state after the feed product of `p` did something. -/
def fedSession (s : Session κ (MarketState FloatingP)) (p : String)
    (f f' : FeedState FloatingP) : Session κ (MarketState FloatingP) :=
  { s with server := { s.server with
      productSubscriber := s.server.productSubscriber.deliver p f f' } }

theorem step_feedProduct {p : String} {f f' : FeedState FloatingP} {e : FeedEvent}
    (hf : s.server.productSubscriber.market.feedClient.prodIdToListener p = some f)
    (hstep : f.step e = some f') :
    (serverSession dump parse).step s (.background (.feed p e)) = some (fedSession s p f f') := by
  have hserver : s.server.productSubscriber.serverStep {} (.feed p e) =
      some (s.server.productSubscriber.deliver p f f') := by
    unfold MarketState.serverStep
    dsimp only
    rw [hf]
    dsimp only
    rw [hstep]
    rfl
  refine Option.map_eq_some_iff.mpr ⟨_, Option.map_eq_some_iff.mpr ⟨_, ?_, rfl⟩, rfl⟩
  exact hserver

/-- The feed product of `p` is in the state `f`, and nothing else is changed. -/
structure OnlyFeed (dump : Json → List UInt8) (parse : Parser)
    (scenario : κ → List ScenarioEntry) (s : Session κ (MarketState FloatingP)) (p : String)
    (f : FeedState FloatingP) (t : Session κ (MarketState FloatingP)) : Prop where
  reached : Reached dump parse scenario t
  parties : t.parties = s.parties
  listener : t.server.productSubscriber.market.feedClient.prodIdToListener p = some f
  others : ∀ q, q ≠ p → t.server.productSubscriber.market.feedClient.prodIdToListener q =
    s.server.productSubscriber.market.feedClient.prodIdToListener q

/-- A feed product does something by itself. -/
theorem OnlyFeed.step {p : String} {f f' : FeedState FloatingP} {e : FeedEvent}
    {t : Session κ (MarketState FloatingP)} (h : OnlyFeed dump parse scenario s p f t)
    (hstep : f.step e = some f') :
    ∃ t', (serverSession dump parse).step t (.background (.feed p e)) = some t' ∧
      OnlyFeed dump parse scenario s p f' t' := by
  have hfed : (serverSession dump parse).step t (.background (.feed p e)) =
      some (fedSession t p f f') := step_feedProduct h.listener hstep
  refine ⟨_, hfed, h.reached.step (by rintro j x ⟨⟩) hfed, h.parties, ?_, ?_⟩
  · show (t.server.productSubscriber.deliver p f f').market.feedClient.prodIdToListener p = _
    unfold MarketState.deliver
    dsimp only
    rw [foldl_onProductChange]
    exact setListener_listener_self _ _ _
  · intro q hq
    show (t.server.productSubscriber.deliver p f f').market.feedClient.prodIdToListener q = _
    unfold MarketState.deliver
    dsimp only
    rw [foldl_onProductChange]
    exact (setListener_listener_ne _ f' hq).trans (h.others q hq)

/-- One feed product that the client unsubscribes from comes to rest. -/
theorem Playing.rest (h : Playing dump parse scenario k s) {entry : ScenarioEntry}
    (hentry : entry ∈ scenario k) (hunsubscribe : entry.subscribe = false) :
    ∃ t, (serverSession dump parse).CanReach (Completing dump parse scenario k) s t ∧
      Playing dump parse scenario k t ∧ t.parties = s.parties ∧
      (∀ f, t.server.productSubscriber.market.feedClient.prodIdToListener entry.productId =
        some f → f.atRest = true) ∧
      ∀ q, q ≠ entry.productId →
        t.server.productSubscriber.market.feedClient.prodIdToListener q =
          s.server.productSubscriber.market.feedClient.prodIdToListener q := by
  cases hf : s.server.productSubscriber.market.feedClient.prodIdToListener entry.productId with
  | none =>
    refine ⟨s, Machine.canReach_refl _ _ s, h, rfl, fun f hf' => ?_, fun _ _ => rfl⟩
    rw [hf] at hf'
    cases hf'
  | some f =>
    obtain ⟨f', hrun, hrest, hnothing⟩ := run_rest (h.canFinish entry hentry hunsubscribe f hf)
    obtain ⟨t, hrun', ht⟩ := (feedMachine FloatingP).lift_run
      (N := serverSession dump parse) (g := fun e => .background (.feed entry.productId e))
      (R := OnlyFeed dump parse scenario s entry.productId)
      (fun ht hstep => ht.step hstep) ⟨h.reached, rfl, hf, fun _ _ => rfl⟩ hrun
    refine ⟨t, ⟨_, hrun', Machine.guarded_of_mem _ fun e he _ => ?_⟩, ⟨ht.reached, ?_⟩,
      ht.parties, fun g hg => ?_, ht.others⟩
    · obtain ⟨fe, -, rfl⟩ := List.mem_map.mp he
      exact ⟨.inr ⟨entry, hentry, hunsubscribe, fe, rfl⟩,
        callReturns_of_not_serve (by rintro j x ⟨⟩)⟩
    · intro other hother hunsubscribe' g hg
      by_cases hsame : other.productId = entry.productId
      · rw [hsame, ht.listener] at hg
        cases hg
        exact FeedState.canFinish_of_nil hnothing
      · rw [ht.others _ hsame] at hg
        exact h.canFinish other hother hunsubscribe' g hg
    · rw [ht.listener] at hg
      cases hg
      exact hrest

/-- All of them come to rest, one after the other. -/
theorem Playing.rest_all (h : Playing dump parse scenario k s) {entries : List ScenarioEntry}
    (hentries : ∀ entry ∈ entries, entry ∈ scenario k ∧ entry.subscribe = false) :
    ∃ t, (serverSession dump parse).CanReach (Completing dump parse scenario k) s t ∧
      Playing dump parse scenario k t ∧ t.parties = s.parties ∧
      ∀ entry ∈ entries, ∀ f,
        t.server.productSubscriber.market.feedClient.prodIdToListener entry.productId = some f →
          f.atRest = true := by
  induction entries with
  | nil =>
    exact ⟨s, Machine.canReach_refl _ _ s, h, rfl, fun _ hmem => absurd hmem List.not_mem_nil⟩
  | cons entry entries ih =>
    obtain ⟨hfirst, hothers⟩ := List.forall_mem_cons.mp hentries
    obtain ⟨t, hreach, ht, hparties, hrest⟩ := ih hothers
    obtain ⟨t', hreach', ht', hparties', hrest', hsame⟩ := ht.rest hfirst.1 hfirst.2
    refine ⟨t', hreach.trans hreach', ht', hparties'.trans hparties, ?_⟩
    refine List.forall_mem_cons.mpr ⟨hrest', fun other hother f hf => ?_⟩
    -- the product of the first entry may be that of another one
    by_cases hproduct : other.productId = entry.productId
    · rw [hproduct] at hf
      exact hrest' f hf
    · rw [hsame _ hproduct] at hf
      exact hrest other hother f hf

/-- The service made no call for the client, or the one of an entry of its scenario. -/
def CallsEntry (scenario : κ → List ScenarioEntry) (k : κ)
    (s s' : Session κ (MarketState FloatingP)) : Prop :=
  s'.server.productSubscriber = s.server.productSubscriber ∨
    ∃ provider, ∃ entry ∈ scenario k, ∃ clientId,
      Market.asSubscriber.run provider s.server.productSubscriber.market (entry.call clientId) =
        .ok s'.server.productSubscriber.market

theorem Reached.callsEntry (h : Reached dump parse scenario s) (hdump : Transmits dump parse)
    {x : Surroundings} (hstep : (serverSession dump parse).step s (.serve k x) = some s') :
    CallsEntry scenario k s s' := by
  obtain ⟨es, -, hrun⟩ := h
  have hserved := fun c => served_call (c := c) hdump hrun hstep
  obtain ⟨q, requests, server, replies, -, hserve, rfl⟩ := State.serve_cases hstep
  rcases iteration_subscriber serverSubscriber_throwsNoParseError (serve_iteration hserve) with
    ⟨-, hsame⟩ | ⟨provider, c, -, hcalls, hok⟩
  · exact .inl hsame
  · obtain ⟨entry, hentry, clientId, rfl⟩ := hserved c hcalls
    exact .inr ⟨provider, entry, hentry, clientId, serverSubscriber_ok hok⟩

omit [DecidableEq κ] [FloatingPoint FloatingP] in
/-- Such a call returns where the feed products it may destroy are at rest. -/
theorem CallsEntry.returns (h : CallsEntry scenario k s s')
    (hrest : ∀ entry ∈ scenario k, entry.subscribe = false → ∀ f,
      s.server.productSubscriber.market.feedClient.prodIdToListener entry.productId = some f →
        f.atRest = true) (q : String) :
    mayDestroy q s.server.productSubscriber s'.server.productSubscriber = true := by
  rcases h with hsame | ⟨provider, entry, hentry, clientId, hok⟩
  · exact mayDestroy_of_there fun hq => by rwa [hsame]
  · refine mayDestroy_call hok (fun clientId' p f hc hf => ?_) q
    unfold ScenarioEntry.call at hc
    cases hsubscribe : entry.subscribe with
    | true =>
      rw [hsubscribe, if_pos rfl] at hc
      cases hc
    | false =>
      rw [hsubscribe, if_neg Bool.false_ne_true] at hc
      cases hc
      exact hrest entry hentry hsubscribe f hf

omit [DecidableEq κ] in
/-- A feed product that is there afterwards is an old one, or holds nothing yet. -/
theorem CallsEntry.canFinish (h : CallsEntry scenario k s s')
    (hcan : FeedsCanFinish scenario k s) : FeedsCanFinish scenario k s' := by
  intro entry hentry hunsubscribe f hf
  rcases h with hsame | ⟨provider, _, -, clientId, hok⟩
  · rw [hsame] at hf
    exact hcan entry hentry hunsubscribe f hf
  · rcases listener_after_call hok hf with hold | rfl
    · exact hcan entry hentry hunsubscribe f hold
    · exact FeedState.canFinish_of_nil rfl

/-- **A request of the client is served**, after what its call waits for. -/
theorem Playing.serve (h : Playing dump parse scenario k s) (hdump : Transmits dump parse)
    (hplayable : Playable scenario) {x : Surroundings} (hx : Listed parse x.products)
    (hrequests : (s.parties k).requests ≠ []) :
    ∃ s', (serverSession dump parse).CanReach (Completing dump parse scenario k) s s' ∧
      Playing dump parse scenario k s' ∧
      (s'.parties k).state = (s.parties k).state ∧
      (s'.parties k).waiting = (s.parties k).waiting ∧
      (s'.parties k).requests.length + 1 = (s.parties k).requests.length := by
  have hunsubscribed : ∀ entry ∈ (scenario k).filter fun entry => !entry.subscribe,
      entry ∈ scenario k ∧ entry.subscribe = false := fun entry hmem => by simpa using hmem
  obtain ⟨t, hreach, ht, hparties, hrest⟩ := h.rest_all hunsubscribed
  rw [← hparties] at hrequests ⊢
  obtain ⟨s', hstep⟩ := ht.reached.serve_total hdump hplayable hx hrequests
  have hcall : CallsEntry scenario k t s' := ht.reached.callsEntry hdump hstep
  have hserves : Completing dump parse scenario k t (.serve k x) := by
    refine ⟨.inl rfl, fun s'' hstep' => ?_⟩
    obtain rfl := Option.some.inj (hstep.symm.trans hstep')
    refine hcall.returns fun entry hentry hunsubscribe => hrest entry ?_
    simp [hentry, hunsubscribe]
  have hreached : Reached dump parse scenario s' := by
    refine ht.reached.step ?_ hstep
    rintro j y hserve
    cases hserve
    exact hx
  obtain ⟨hstate, hwaiting, hlength⟩ := State.serve_party hstep
  exact ⟨s', hreach.trans (Machine.canReach_of_step _ hserves hstep),
    ⟨hreached, hcall.canFinish ht.canFinish⟩, hstate, hwaiting, hlength⟩

/-! ## Scenarios are completed -/

/-- What is left of a scenario: an entry is moved to the queue, and taken from it. -/
def ClientProgram.left (c : ClientProgram) : Nat :=
  2 * c.scenario.length + c.scenarioMessagesQueue.length

/-- The client runs its threads, and has this much of its scenario left. -/
def ClientProgram.HasLeft (c : ClientProgram) (n : Nat) : Prop := c.started = true ∧ c.left = n

omit [DecidableEq κ] [FloatingPoint FloatingP] in
/-- A reply touches nothing of the scenario. -/
theorem hasLeft_receive {c c' : ClientProgram} {data : List UInt8} {n : Nat} (h : c.HasLeft n)
    (hreceive : (demoCaller dump parse).receive c data = some c') : c'.HasLeft n := by
  unfold demoCaller at hreceive
  dsimp only at hreceive
  cases hparse : parse data with
  | error e =>
    rw [hparse] at hreceive
    cases hreceive
  | ok jmsg =>
    rw [hparse] at hreceive
    have honReply := toOption_eq_some.mp hreceive
    unfold ClientProgram.onReply at honReply
    obtain ⟨demo, -, hrest⟩ := bind_eq_ok.mp honReply
    split at hrest
    · obtain ⟨clientId, -, hc'⟩ := bind_eq_ok.mp hrest
      cases hc'
      exact h
    · cases hrest
      exact h

/-- The client gets to where it does not wait. -/
theorem Playing.settle (h : Playing dump parse scenario k s) (hdump : Transmits dump parse)
    (hplayable : Playable scenario) {x : Surroundings} (hx : Listed parse x.products)
    {P : ClientProgram → Prop}
    (hP : ∀ {c data c'}, P c → (demoCaller dump parse).receive c data = some c' → P c')
    (hc : P (s.parties k).state) :
    ∃ s', (serverSession dump parse).CanReach (Completing dump parse scenario k) s s' ∧
      Playing dump parse scenario k s' ∧ (s'.parties k).waiting = false ∧
      P (s'.parties k).state := by
  refine canReach_not_waiting (fun hs => (hs.reached.phases hdump k).inStep)
    (fun hs hrequests => hs.serve hdump hplayable hx hrequests) (fun hs _ hreplies => ?_) hP h hc
  obtain ⟨s', hstep⟩ := hs.reached.receive_total hdump hreplies
  refine ⟨s', hstep, completing_own rfl (by rintro j x ⟨⟩), ?_⟩
  refine hs.step (by rintro j x ⟨⟩) hstep ?_
  obtain ⟨a, replies, g, -, -, -, rfl⟩ := State.receive_cases hstep
  rfl

/-- From where the client does not wait, its request goes out and is answered. -/
theorem Playing.ask (h : Playing dump parse scenario k s) (hdump : Transmits dump parse)
    (hplayable : Playable scenario) {x : Surroundings} (hx : Listed parse x.products)
    (hwaiting : (s.parties k).waiting = false) {n : Nat}
    (hleft : (s.parties k).state.nextMessage.1.HasLeft n) :
    ∃ s', (serverSession dump parse).CanReach (Completing dump parse scenario k) s s' ∧
      Playing dump parse scenario k s' ∧ (s'.parties k).waiting = false ∧
      (s'.parties k).state.HasLeft n := by
  have hsent : ∃ t, (serverSession dump parse).step s (.send k) = some t := send_total hwaiting
  obtain ⟨t, hstep⟩ := hsent
  have ht : Playing dump parse scenario k t := by
    refine h.step (by rintro j x ⟨⟩) hstep ?_
    obtain ⟨g, q, -, -, rfl⟩ := State.send_cases hstep
    rfl
  obtain ⟨q, hsend⟩ := State.send_party hstep
  have hstate : (t.parties k).state = (s.parties k).state.nextMessage.1 :=
    (congrArg Prod.fst (Option.some.inj hsend)).symm
  obtain ⟨s', hreach, hs', hdone, hkept⟩ := ht.settle hdump hplayable hx
    (P := fun c => c.HasLeft n) hasLeft_receive (hstate ▸ hleft)
  have hfirst : (serverSession dump parse).CanReach (Completing dump parse scenario k) s t :=
    Machine.canReach_of_step _ (completing_own rfl (by rintro j x ⟨⟩)) hstep
  exact ⟨s', hfirst.trans hreach, hs', hdone, hkept⟩

/-- The thread of the scenario moves its next entry to the queue. -/
theorem Playing.handleScenario (h : Playing dump parse scenario k s)
    (hstarted : (s.parties k).state.started = true) {entry : ScenarioEntry}
    {rest : List ScenarioEntry} (hscenario : (s.parties k).state.scenario = entry :: rest) :
    ∃ s', (serverSession dump parse).CanReach (Completing dump parse scenario k) s s' ∧
      Playing dump parse scenario k s' ∧ (s'.parties k).waiting = (s.parties k).waiting ∧
      (s'.parties k).state = { (s.parties k).state with
        scenario := rest
        scenarioMessagesQueue := (s.parties k).state.scenarioMessagesQueue ++ [entry] } := by
  have hact : (demoCaller dump parse).act (s.parties k).state .handleScenario =
      some { (s.parties k).state with
        scenario := rest
        scenarioMessagesQueue := (s.parties k).state.scenarioMessagesQueue ++ [entry] } := by
    unfold demoCaller ClientProgram.handleScenario
    dsimp only
    rw [if_pos hstarted, hscenario]
  have hstep : ∃ s', (serverSession dump parse).step s (.act k .handleScenario) = some s' := by
    show ∃ s', ((demoCaller dump parse).act (s.parties k).state .handleScenario).map _ = some s'
    rw [hact]
    exact ⟨_, rfl⟩
  obtain ⟨s', hs'⟩ := hstep
  obtain ⟨hwaiting, hstate⟩ := State.act_party hs'
  refine ⟨s', Machine.canReach_of_step _ (completing_own rfl (by rintro j x ⟨⟩)) hs',
    ?_, hwaiting, (Option.some.inj (hact.symm.trans hstate)).symm⟩
  refine h.step (by rintro j x ⟨⟩) hs' ?_
  obtain ⟨g, -, rfl⟩ := Option.map_eq_some_iff.mp hs'
  rfl

/-- As long as something is left, there is less of it later. -/
theorem Playing.play (h : Playing dump parse scenario k s) (hdump : Transmits dump parse)
    (hplayable : Playable scenario) {x : Surroundings} (hx : Listed parse x.products)
    (hwaiting : (s.parties k).waiting = false) {n : Nat}
    (hleft : (s.parties k).state.HasLeft n) :
    ∃ s', (serverSession dump parse).CanReach (Completing dump parse scenario k) s s' ∧
      Playing dump parse scenario k s' ∧ (s'.parties k).waiting = false ∧
      (s'.parties k).state.HasLeft 0 := by
  induction n using Nat.strong_induction_on generalizing s with
  | _ n ih =>
    obtain ⟨hstarted, rfl⟩ := hleft
    -- a step of the client, and then the rest
    have hthen : ∀ {t : Session κ (MarketState FloatingP)} {m : Nat},
        (serverSession dump parse).CanReach (Completing dump parse scenario k) s t →
        Playing dump parse scenario k t → (t.parties k).waiting = false →
        (t.parties k).state.HasLeft m → m < (s.parties k).state.left →
        ∃ s', (serverSession dump parse).CanReach (Completing dump parse scenario k) s s' ∧
          Playing dump parse scenario k s' ∧ (s'.parties k).waiting = false ∧
          (s'.parties k).state.HasLeft 0 := by
      intro t m hreach ht hidle hm hless
      obtain ⟨s', hreach', hs'⟩ := ih m hless ht hidle hm
      exact ⟨s', hreach.trans hreach', hs'⟩
    cases hscenario : (s.parties k).state.scenario with
    | cons entry rest =>
      obtain ⟨t, hreach, ht, hidle, hstate⟩ := h.handleScenario hstarted hscenario
      have hstill : (t.parties k).state.started = true := by
        rw [hstate]
        exact hstarted
      refine hthen hreach ht (hidle.trans hwaiting) ⟨hstill, rfl⟩ ?_
      rw [hstate]
      simp only [ClientProgram.left, hscenario, List.length_cons, List.length_append,
        List.length_nil]
      omega
    | nil =>
      cases hqueue : (s.parties k).state.scenarioMessagesQueue with
      | nil =>
        refine ⟨s, Machine.canReach_refl _ _ s, h, hwaiting, hstarted, ?_⟩
        rw [ClientProgram.left, hscenario, hqueue]
        rfl
      | cons entry queue =>
        have hnext : (s.parties k).state.nextMessage.1.HasLeft queue.length := by
          unfold ClientProgram.nextMessage
          rw [if_pos hstarted, hqueue]
          refine ⟨hstarted, ?_⟩
          show 2 * (s.parties k).state.scenario.length + queue.length = queue.length
          rw [hscenario]
          exact Nat.zero_add _
        obtain ⟨t, hreach, ht, hidle, hm⟩ := h.ask hdump hplayable hx hwaiting hnext
        refine hthen hreach ht hidle hm ?_
        rw [ClientProgram.left, hscenario, hqueue]
        simp only [List.length_cons, List.length_nil]
        omega

/-- **Every scenario can be completed**, from every state that a session can reach and
whatever the others do not do: after some more steps of the client, of the service and of
the feed products that the client unsubscribes from, in which every call returned after the
threads it joins had ended, every entry is answered, in the order of the scenario, by a
confirmation with the endpoint of its product if the table has it, and by an error otherwise.
It takes that the messages which these feed products hold at first can be read. -/
theorem scenario_completes (hdump : Transmits dump parse) (hplayable : Playable scenario)
    (h : Reached dump parse scenario s) {x : Surroundings} (hx : Listed parse x.products)
    (k : κ) (hcan : FeedsCanFinish scenario k s) :
    ∃ fs s', (serverSession dump parse).run s fs = some s' ∧
      (serverSession dump parse).Guarded (Completing dump parse scenario k) s fs ∧
      ∃ entries, Conversing dump False s'.server (s'.history k) k (s'.parties k).state entries ∧
        entries.map AnsweredEntry.entry = scenario k ∧
        ∀ answered ∈ entries, ∃ provider, s'.server.provider = some provider ∧
          answered.endpoint = (provider.prodIdToPort answered.entry.productId).toOption := by
  have hplaying : Playing dump parse scenario k s := ⟨h, hcan⟩
  -- whatever is under way is finished, then the client starts, then it plays what is left
  obtain ⟨s₁, hreach₁, hs₁, hidle₁, -⟩ := hplaying.settle hdump hplayable hx
    (P := fun _ => True) (fun _ _ => trivial) trivial
  have hstarted : (s₁.parties k).state.nextMessage.1.started = true := by
    unfold ClientProgram.nextMessage
    split
    · split <;> assumption
    · rfl
  obtain ⟨s₂, hreach₂, hs₂, hidle₂, hleft₂⟩ :=
    hs₁.ask hdump hplayable hx hidle₁ ⟨hstarted, rfl⟩
  obtain ⟨s₃, hreach₃, hs₃, hidle₃, hstarted₃, hzero⟩ :=
    hs₂.play hdump hplayable hx hidle₂ hleft₂
  obtain ⟨fs, hrunAll, hguarded⟩ := (hreach₁.trans hreach₂).trans hreach₃
  refine ⟨fs, s₃, hrunAll, hguarded, ?_⟩
  have hphase := hs₃.reached.phases hdump k
  obtain ⟨es, -, hrun⟩ := hs₃.reached
  have hscenario := scenario_taken hrun k
  have hnothing : (s₃.parties k).state.scenario = [] ∧
      (s₃.parties k).state.scenarioMessagesQueue = [] := by
    unfold ClientProgram.left at hzero
    exact ⟨List.eq_nil_of_length_eq_zero (by omega), List.eq_nil_of_length_eq_zero (by omega)⟩
  generalize s₃.parties k = p at hphase hscenario hnothing hidle₃ hstarted₃
  cases hphase with
  | asked => cases hidle₃
  | answered => cases hidle₃
  | idle c hc =>
    cases hc with
    | new hnot =>
      rw [hnot] at hstarted₃
      cases hstarted₃
    | conversing entries hconversing htaken =>
      refine ⟨entries, hconversing, ?_, fun answered hmem => ?_⟩
      · rw [hscenario, hnothing.1, hnothing.2, htaken, List.append_nil, List.append_nil]
      · exact (hconversing.transcript.answered hmem).resolve_right fun hno => hno.2

/-- The first client has subscribed, the order book has come in, and the message thread has
taken it and not handed it over yet. -/
def bookHeld : List (SessionEvent Bool (ServerEvent Int)) :=
  twoClients.take 11 ++
    [.background (.feed "ETH-USD" (.complete (.json (bookMsg 1 [("100", "5", "A")] [])))),
      .background (.feed "ETH-USD" .take)]

theorem bookHeld_reached :
    ∃ s : Session Bool (MarketState Int), Reached dumpFlat parseFlat twoScenarios s ∧
      (∃ f, s.server.productSubscriber.market.feedClient.prodIdToListener "ETH-USD" = some f ∧
        f.messages.length = 1) ∧
      ∀ k, FeedsCanFinish twoScenarios k s := by
  have hrun : ((serverSession dumpFlat parseFlat).run
      (.initial ({} : MarketState Int) twoScenarios) bookHeld).any (fun s =>
        (s.server.productSubscriber.market.feedClient.prodIdToListener "ETH-USD").any fun f =>
          f.messages.length = 1 && (changesOf f.product.productId (f.messages.map Queued.json) :
            Except Fault (List (ProductChange Int))).toOption.isSome) = true := by decide +kernel
  obtain ⟨s, hs, hheld⟩ := (Option.any_eq_true _ _).mp hrun
  obtain ⟨f, hf, hone⟩ := (Option.any_eq_true _ _).mp hheld
  rw [Bool.and_eq_true, decide_eq_true_eq] at hone
  obtain ⟨pcs, hpcs⟩ := Option.isSome_iff_exists.mp hone.2
  refine ⟨s, ⟨bookHeld, fun k x hmem => ?_, hs⟩, ⟨f, hf, hone.1⟩, ?_⟩
  · have hsmaller : .serve k x ∈ twoClients := by
      rcases List.mem_append.mp hmem with hmem | hmem
      · exact List.mem_of_mem_take hmem
      · simp at hmem
    rw [twoClients_products hsmaller]
    exact surroundings_listed ""
  · -- only the first client unsubscribes, and from this product
    intro k entry hentry hfalse g hg
    have hproduct : entry.productId = "ETH-USD" := by
      cases k with
      | true =>
        rcases List.mem_cons.mp hentry with rfl | hentry
        · cases hfalse
        · rw [List.mem_singleton.mp hentry]
      | false =>
        rw [List.mem_singleton.mp hentry] at hfalse
        cases hfalse
    rw [hproduct, hf] at hg
    cases hg
    exact ⟨pcs, toOption_eq_some.mp hpcs⟩

theorem scenario_completes_two :
    ∃ s : Session Bool (MarketState Int), Reached dumpFlat parseFlat twoScenarios s ∧
      ∀ k, ∃ fs s', (serverSession dumpFlat parseFlat).run s fs = some s' ∧
        (serverSession dumpFlat parseFlat).Guarded
          (Completing dumpFlat parseFlat twoScenarios k) s fs ∧
        ∃ entries,
          Conversing dumpFlat False s'.server (s'.history k) k (s'.parties k).state entries ∧
          entries.map AnsweredEntry.entry = twoScenarios k ∧
          ∀ answered ∈ entries, ∃ provider, s'.server.provider = some provider ∧
            answered.endpoint = (provider.prodIdToPort answered.entry.productId).toOption := by
  obtain ⟨s, hs, -, hcan⟩ := bookHeld_reached
  exact ⟨s, hs, fun k => scenario_completes transmits_flat twoScenarios_playable hs
    (surroundings_listed "4") k (hcan k)⟩

end

end QuoteServer
