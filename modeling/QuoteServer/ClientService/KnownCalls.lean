import QuoteServer.ClientService.OneReply
import QuoteServer.MarketSteps

/-!
# Only registered clients and known products reach the market

The service registers exactly the ids it issued, in every reachable state
(`registered_of_run`). With that, what one iteration does to the market is decided by
what was issued before and by the table of endpoints (`Dispatched`). In particular the
assertion in `prodIdToPort` holds in all the places that rely on the one check of
`runImpl`: the reply, and the two publishers that `Market::subscribe` creates.
-/

namespace QuoteServer

open EventMachine

namespace ClientService

/-- The id that a reply issues, if it is the reply to a `client_id_request`. -/
def issuedBy (message : Json) : Option String :=
  if message.stringMember "type" = some "client_id_request" then
    message.stringMember "client_id"
  else none

/-- The ids issued in the replies so far. -/
def issued (sent : List Json) : Finset String := (sent.filterMap issuedBy).toFinset

variable {σ : Type}

/-- The request asks for the call, for an id that was issued before and a product that
the `EndpointProvider` contains. -/
def Admitted (parse : Parser) (s : ClientService σ) (r : Request) (c : SubscriberCall) : Prop :=
  ∃ jmsg provider, parse r.data = .ok jmsg ∧ Requests jmsg c ∧
    instanceFor parse s r = .ok provider ∧ c.clientId ∈ issued s.sent ∧
    provider.contains c.productId = true

/-- The service an iteration leaves, whether it returned or threw. -/
def left {ε α : Type} : EStateM.Result ε (ClientService σ) α → ClientService σ
  | .ok _ s => s
  | .error _ s => s

/-- What one iteration does to the market. -/
structure Dispatched (parse : Parser) (s : ClientService σ) (r : Request)
    (result : EStateM.Result Fault (ClientService σ) Unit) : Prop where
  /-- The subscriber is called for an admitted call, and for nothing else. -/
  calls : (∃ c, Admitted parse s r c ∧ (left result).calls = s.calls ++ [c]) ∨
    (∀ c, ¬ Admitted parse s r c) ∧ (left result).calls = s.calls
  /-- If the loop goes on, an admitted call is answered by its confirmation. -/
  confirmed : ∀ s' c, result = .ok () s' → Admitted parse s r c →
    ∃ provider endpoint, instanceFor parse s r = .ok provider ∧
      provider.prodIdToPort c.productId = .ok endpoint ∧
      s'.sent = s.sent ++ [confirmation c.type c.clientId c.productId endpoint]
  /-- A request answered with an error changes neither the registered ids nor the
  market. -/
  refused : ∀ s' message, result = .ok () s' → s'.sent = s.sent ++ [message] →
    message.stringMember "type" = some "error" →
    s'.registeredClientIds = s.registeredClientIds ∧ s'.productSubscriber = s.productSubscriber
  /-- No assertion is violated. -/
  asserted : ∀ s', result ≠ .error .assertion s'

/-! ## Issued ids -/

theorem issued_append (sent sent' : List Json) :
    issued (sent ++ sent') = issued sent ∪ issued sent' := by
  rw [issued, List.filterMap_append, List.toFinset_append, issued, issued]

theorem issued_registration (clientId : String) :
    issued [registration clientId] = {clientId} := rfl

theorem issued_of_none {message : Json} (h : issuedBy message = none) : issued [message] = ∅ := by
  rw [issued, List.filterMap_cons_none h]
  rfl

/-- Only the reply to a `client_id_request` issues an id. -/
theorem issuedBy_of_type {message : Json} {type : String}
    (h : message.stringMember "type" = some type) (hne : type ≠ "client_id_request") :
    issuedBy message = none := by
  rw [issuedBy, h, if_neg]
  exact fun heq => hne (Option.some.inj heq)

theorem registered_reply {s : ClientService σ} {message : Json}
    (hs : s.registeredClientIds = issued s.sent) (h : issuedBy message = none) :
    s.registeredClientIds = issued (s.sent ++ [message]) := by
  rw [issued_append, issued_of_none h, Finset.union_empty, hs]

/-! ## Requests that are not admitted -/

theorem not_admitted_of_error {parse : Parser} {s : ClientService σ} {r : Request}
    {e : ParseFault} (h : parse r.data = .error e) (c : SubscriberCall) :
    ¬ Admitted parse s r c := by
  rintro ⟨jmsg, provider, hjmsg, -⟩
  rw [h] at hjmsg
  cases hjmsg

/-- A message that asks for no call. -/
theorem not_admitted_of_message {parse : Parser} {s : ClientService σ} {r : Request}
    {jmsg : Json} (h : parse r.data = .ok jmsg) (hno : ∀ c, ¬ Requests jmsg c)
    (c : SubscriberCall) : ¬ Admitted parse s r c := by
  rintro ⟨jmsg', provider, hjmsg, hrequests, -⟩
  rw [h] at hjmsg
  cases hjmsg
  exact hno c hrequests

theorem not_requests_of_type {jmsg : Json} {type : String}
    (h : jmsg.stringMember "type" = some type) (hs : type ≠ "subscribe_request")
    (hu : type ≠ "unsubscribe_request") (c : SubscriberCall) : ¬ Requests jmsg c := by
  intro hrequests
  have htype : c.type = type := Option.some.inj (hrequests.type.symm.trans h)
  exact c.type_ne hs hu htype

theorem not_requests_of_missing {jmsg : Json}
    (h : jmsg.stringMember "client_id" = none ∨ jmsg.stringMember "product_id" = none)
    (c : SubscriberCall) : ¬ Requests jmsg c := by
  intro hrequests
  rcases h with h | h
  · rw [hrequests.clientId] at h
    cases h
  · rw [hrequests.productId] at h
    cases h

/-- What a message that asks for a call needs to be admitted. -/
theorem admitted_iff {parse : Parser} {s : ClientService σ} {r : Request} {jmsg : Json}
    {c : SubscriberCall} (h : parse r.data = .ok jmsg) (hrequests : Requests jmsg c)
    (c' : SubscriberCall) :
    Admitted parse s r c' ↔ c' = c ∧ ∃ provider, instanceFor parse s r = .ok provider ∧
      c.clientId ∈ issued s.sent ∧ provider.contains c.productId = true := by
  constructor
  · rintro ⟨jmsg', provider, hjmsg, hrequests', hinstance, hclient, hproduct⟩
    rw [h] at hjmsg
    cases hjmsg
    obtain rfl := hrequests'.unique hrequests
    exact ⟨rfl, provider, hinstance, hclient, hproduct⟩
  · rintro ⟨rfl, provider, hinstance, hclient, hproduct⟩
    exact ⟨jmsg, provider, h, hrequests, hinstance, hclient, hproduct⟩

/-- There is no table of the products. -/
theorem not_admitted_of_noInstance {parse : Parser} {s : ClientService σ} {r : Request}
    {jmsg : Json} {c : SubscriberCall} {e : Fault} (h : parse r.data = .ok jmsg)
    (hrequests : Requests jmsg c) (hinstance : instanceFor parse s r = .error e)
    (c' : SubscriberCall) : ¬ Admitted parse s r c' := by
  intro hc'
  obtain ⟨-, provider, hok, -⟩ := (admitted_iff h hrequests c').mp hc'
  rw [hinstance] at hok
  cases hok

/-- The client or the product is not known. -/
theorem not_admitted_of_unknown {parse : Parser} {s : ClientService σ} {r : Request}
    {jmsg : Json} {c : SubscriberCall} {provider : EndpointProvider}
    (h : parse r.data = .ok jmsg) (hrequests : Requests jmsg c)
    (hinstance : instanceFor parse s r = .ok provider)
    (hunknown : c.clientId ∉ issued s.sent ∨ provider.contains c.productId = false)
    (c' : SubscriberCall) : ¬ Admitted parse s r c' := by
  intro hc'
  obtain ⟨-, provider', hok, hclient, hproduct⟩ := (admitted_iff h hrequests c').mp hc'
  obtain rfl : provider = provider' := Except.ok.inj (hinstance.symm.trans hok)
  rcases hunknown with hunknown | hunknown
  · exact hunknown hclient
  · rw [hunknown] at hproduct
    cases hproduct

/-- Setting up the table violates no assertion. -/
theorem instanceFor_error {parse : Parser} {s : ClientService σ} {r : Request} {e : Fault}
    (h : instanceFor parse s r = .error e) : e ≠ .assertion := by
  unfold instanceFor at h
  cases hp : s.provider with
  | some provider =>
    rw [hp] at h
    cases h
  | none =>
    rw [hp] at h
    exact EndpointProvider.ofProducts_error h

/-! ## One iteration -/

/-- An iteration that returns, without a call and without a trace in the market. -/
theorem Dispatched.of_ok {parse : Parser} {s s' : ClientService σ} {r : Request}
    (hnot : ∀ c, ¬ Admitted parse s r c) (hcalls : s'.calls = s.calls)
    (hregistered : s'.registeredClientIds = s.registeredClientIds)
    (hmarket : s'.productSubscriber = s.productSubscriber) :
    Dispatched parse s r (.ok () s') where
  calls := .inr ⟨hnot, hcalls⟩
  confirmed := fun _ c _ hc => absurd hc (hnot c)
  refused := by
    intro t message ht _ _
    cases ht
    exact ⟨hregistered, hmarket⟩
  asserted := fun _ h => nomatch h

/-- An exception that leaves the loop before any call. -/
theorem Dispatched.of_error {parse : Parser} {s : ClientService σ} {r : Request} {e : Fault}
    (hnot : ∀ c, ¬ Admitted parse s r c) (he : e ≠ .assertion) :
    Dispatched parse s r (.error e s) where
  calls := .inr ⟨hnot, rfl⟩
  confirmed := fun _ _ h => nomatch h
  refused := fun _ _ h => nomatch h
  asserted := by
    intro s' h
    cases h
    exact he rfl

/-- An exception before any call, caught or not. -/
theorem dispatched_of_error {parse : Parser} {subscriber : ProductSubscriber σ}
    {s : ClientService σ} {r : Request} {e : Fault}
    (h : handle parse subscriber r s = .error e s) (hnot : ∀ c, ¬ Admitted parse s r c)
    (he : e ≠ .assertion) : Dispatched parse s r (iteration parse subscriber r s) := by
  by_cases hparse : e = .parseError
  · subst hparse
    rw [iteration_of_parseError h]
    exact .of_ok hnot rfl rfl rfl
  · rw [iteration_of_error h hparse]
    exact .of_error hnot he

/-- **One iteration**, where the registered ids are those issued. -/
theorem dispatched {parse : Parser} {subscriber : ProductSubscriber σ}
    (hfault : ∀ provider state c e, provider.contains c.productId = true →
      subscriber.run provider state c = .error e → e ≠ .parseError ∧ e ≠ .assertion)
    {s : ClientService σ} (hs : s.registeredClientIds = issued s.sent) (r : Request) :
    Dispatched parse s r (iteration parse subscriber r s) := by
  have houtcome := handle_outcome parse subscriber r s
  generalize hresult : handle parse subscriber r s = result at houtcome
  -- everything but a call leaves the market as it is, and needs a request not admitted
  cases houtcome with
  | unparsed e h =>
    refine dispatched_of_error hresult (not_admitted_of_error h) ?_
    cases e <;> decide
  | unsupported jmsg error h htype _ =>
    rw [iteration_of_ok hresult]
    refine .of_ok (not_admitted_of_message h fun c hrequests => ?_) rfl rfl rfl
    exact hrequests.isRequest.elim (htype _ (by simp)) (htype _ (by simp))
  | registered jmsg h htype =>
    rw [iteration_of_ok hresult]
    have hno := not_requests_of_type htype (by decide) (by decide)
    refine ⟨.inr ⟨not_admitted_of_message h hno, rfl⟩,
      fun _ c _ hc => absurd hc (not_admitted_of_message h hno c), ?_, fun _ h => nomatch h⟩
    -- the reply is no error
    intro s' message hs' hsent herror
    cases hs'
    obtain rfl : registration r.uuid = message :=
      List.singleton_inj.mp (List.append_cancel_left hsent)
    simp at herror
  | dropped jmsg h htype hmissing =>
    rw [iteration_of_ok hresult]
    exact .of_ok (not_admitted_of_message h (not_requests_of_missing hmissing)) rfl rfl rfl
  | illTyped jmsg h htype hmissing =>
    exact dispatched_of_error hresult
      (not_admitted_of_message h (not_requests_of_missing hmissing)) (by decide)
  | noInstance jmsg c e h hrequests hinstance =>
    exact dispatched_of_error hresult (not_admitted_of_noInstance h hrequests hinstance)
      (instanceFor_error hinstance)
  | refused jmsg c provider error h hrequests hinstance hunknown =>
    rw [iteration_of_ok hresult]
    rw [hs] at hunknown
    exact .of_ok (not_admitted_of_unknown h hrequests hinstance hunknown) rfl rfl rfl
  | called jmsg c provider endpoint state h hrequests hinstance hclient hproduct hcall =>
    rw [iteration_of_ok hresult]
    have hcontains := EndpointProvider.contains_iff.mpr ⟨endpoint, hproduct⟩
    have hc : Admitted parse s r c :=
      ⟨jmsg, provider, h, hrequests, hinstance, hs ▸ hclient, hcontains⟩
    refine ⟨.inl ⟨c, hc, rfl⟩, fun s' c' hs' hc' => ?_, ?_, fun _ h => nomatch h⟩
    · cases hs'
      obtain ⟨rfl, -⟩ := (admitted_iff h hrequests c').mp hc'
      exact ⟨provider, endpoint, hinstance, hproduct, rfl⟩
    · -- the confirmation is no error
      intro s' message hs' hsent herror
      cases hs'
      obtain rfl := List.singleton_inj.mp (List.append_cancel_left hsent)
      rw [confirmation_type] at herror
      exact absurd (Option.some.inj herror) (c.type_ne (by decide) (by decide))
  | callFailed jmsg c provider e h hrequests hinstance hclient hproduct hcall =>
    obtain ⟨hparse, hassert⟩ := hfault provider _ c e hproduct hcall
    rw [iteration_of_error hresult hparse]
    have hc : Admitted parse s r c :=
      ⟨jmsg, provider, h, hrequests, hinstance, hs ▸ hclient, hproduct⟩
    refine ⟨.inl ⟨c, hc, rfl⟩, fun _ _ h => (nomatch h), fun _ _ h => (nomatch h), ?_⟩
    intro s' hs'
    cases hs'
    exact hassert rfl
  | heartbeat jmsg clientId message h htype _ _ =>
    rw [iteration_of_ok hresult]
    have hno := not_requests_of_type htype (by decide) (by decide)
    exact .of_ok (not_admitted_of_message h hno) rfl rfl rfl
  | heartbeatIllTyped jmsg h htype _ =>
    have hno := not_requests_of_type htype (by decide) (by decide)
    exact dispatched_of_error hresult (not_admitted_of_message h hno) (by decide)

/-! ## Whole runs -/

/-- Whatever the body of the `try` does, the registered ids are those issued. -/
theorem registered_handle (parse : Parser) (subscriber : ProductSubscriber σ) (r : Request)
    {s : ClientService σ} (hs : s.registeredClientIds = issued s.sent) :
    (left (handle parse subscriber r s)).registeredClientIds =
      issued (left (handle parse subscriber r s)).sent := by
  have houtcome := handle_outcome parse subscriber r s
  generalize handle parse subscriber r s = result at houtcome
  -- a reply issues an id only together with its registration
  cases houtcome with
  | unparsed => exact hs
  | unsupported jmsg error h htype herror =>
    exact registered_reply hs (issuedBy_of_type herror (by decide))
  | registered jmsg h htype =>
    show insert r.uuid s.registeredClientIds = issued (s.sent ++ [registration r.uuid])
    rw [issued_append, issued_registration, hs, Finset.union_comm]
    rfl
  | dropped => exact hs
  | illTyped => exact hs
  | noInstance => exact hs
  | refused jmsg c provider error =>
    exact registered_reply hs (issuedBy_of_type (errorReply_type error) (by decide))
  | called jmsg c provider endpoint state =>
    have hne : c.type ≠ "client_id_request" := c.type_ne (by decide) (by decide)
    exact registered_reply hs (issuedBy_of_type (confirmation_type _ _ _ endpoint) hne)
  | callFailed => exact hs
  | heartbeat jmsg clientId message h htype hclient hmessage =>
    rcases hmessage with rfl | rfl
    · exact registered_reply hs (issuedBy_of_type (heartbeatReply_type clientId) (by decide))
    · exact registered_reply hs (issuedBy_of_type (errorReply_type _) (by decide))
  | heartbeatIllTyped => exact hs

theorem registered_step {parse : Parser} {subscriber : ProductSubscriber σ}
    {s s' : ClientService σ} {r : Request} (hs : s.registeredClientIds = issued s.sent)
    (hstep : (serviceMachine parse subscriber).step s r = some s') :
    s'.registeredClientIds = issued s'.sent := by
  have hhandle := registered_handle parse subscriber r hs
  rw [serviceMachine_step] at hstep
  cases hresult : handle parse subscriber r s with
  | ok a t =>
    rw [hresult] at hhandle
    rw [iteration_of_ok hresult] at hstep
    cases hstep
    exact hhandle
  | error e t =>
    rw [hresult] at hhandle
    by_cases he : e = .parseError
    · subst he
      rw [iteration_of_parseError hresult] at hstep
      cases hstep
      exact registered_reply hhandle (issuedBy_of_type (errorReply_type _) (by decide))
    · rw [iteration_of_error hresult he] at hstep
      cases hstep

/-- In every reachable state the registered ids are those issued. -/
theorem registered_of_run {parse : Parser} {subscriber : ProductSubscriber σ} {market : σ}
    {requests : List Request} {s : ClientService σ}
    (hrun : (serviceMachine parse subscriber).run { productSubscriber := market } requests =
      some s) : s.registeredClientIds = issued s.sent := by
  refine (serviceMachine parse subscriber).invariant_rule
    (I := fun s => s.registeredClientIds = issued s.sent) rfl ?_
    ((serviceMachine parse subscriber).guarded_true _ requests) hrun
  intro s r s' hs _ hstep
  exact registered_step hs hstep

variable {FloatingP : Type}

/-- A call for a product that the `EndpointProvider` contains violates no assertion of
the market. -/
theorem market_run_error {provider : EndpointProvider} {m : Market FloatingP}
    {c : SubscriberCall} {e : Fault} (hproduct : provider.contains c.productId = true)
    (h : Market.asSubscriber.run provider m c = .error e) :
    e ≠ .parseError ∧ e ≠ .assertion := by
  cases c with
  | subscribe clientId productId =>
    obtain ⟨m', hok⟩ := m.subscribe_total clientId hproduct
    have hfail : m.subscribe provider clientId productId = .ok m' := hok
    change m.subscribe provider clientId productId = .error e at h
    rw [hfail] at h
    cases h
  | unsubscribe clientId productId =>
    obtain rfl := Market.unsubscribe_error h
    decide

/-- **Only registered clients and known products reach the market**, over every run of
the loop. In the state it reaches the registered ids are those issued, and whatever is
requested next, the market is called exactly for an admitted call, a call is confirmed,
a request answered with an error changes nothing, and no assertion is violated. -/
theorem only_known_reach_market {parse : Parser} {requests : List Request}
    {s : ClientService (Market FloatingP)}
    (hrun : (serviceMachine parse Market.asSubscriber).run { productSubscriber := {} } requests =
      some s) :
    s.registeredClientIds = issued s.sent ∧
      ∀ r, Dispatched parse s r (iteration parse Market.asSubscriber r s) := by
  have hs := registered_of_run hrun
  exact ⟨hs, dispatched (fun _ _ _ _ => market_run_error) hs⟩

/-- A client registers and subscribes. -/
theorem only_known_reach_market_subscribed :
    ∃ s : ClientService (Market Int),
      (serviceMachine parseTexts Market.asSubscriber).run { productSubscriber := {} }
        [requestOf registerText, requestOf subscribeText] = some s ∧
      s.calls = [.subscribe "1" "ETH-USD"] ∧
      s.registeredClientIds = issued s.sent ∧
      ∀ r, Dispatched parseTexts s r (iteration parseTexts Market.asSubscriber r s) := by
  have hrun : (serviceMachine parseTexts Market.asSubscriber).run
      ({ productSubscriber := {} } : ClientService (Market Int))
      [requestOf registerText, requestOf subscribeText] = some _ := rfl
  exact ⟨_, hrun, rfl, only_known_reach_market hrun⟩

end ClientService

end QuoteServer
