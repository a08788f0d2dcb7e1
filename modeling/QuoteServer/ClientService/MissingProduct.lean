import QuoteServer.ClientService.KnownCalls
import QuoteServer.Subscriptions

/-!
# Unsubscribing from a product that is not there

The service checks that the client is registered and that the exchange has the product,
and not that anyone is subscribed to it. `Market::unsubscribe` looks the product up, and
then asks the iterator for its clients whether or not the search found anything. So an
`unsubscribe_request` that the service accepts is answered exactly if the last call made
for the product was a `subscribe`, by whichever client (`unsubscribe_returns_iff`).
-/

namespace QuoteServer

open EventMachine

namespace ClientService

/-- The last call made for the product. -/
def lastCall (p : String) (calls : List SubscriberCall) : Option SubscriberCall :=
  (calls.filter fun c => c.productId = p).getLast?

/-- The last call made for the product was a `subscribe`. -/
def SubscribedLast (p : String) (calls : List SubscriberCall) : Prop :=
  ∃ clientId, lastCall p calls = some (.subscribe clientId p)

variable {FloatingP : Type}

/-- The request to unsubscribe from `p` is served, and if `p` is not in the market, the
market stays as it is, with its feed client and all its registries. -/
def MissingLeftAlone (parse : Parser) (s : ClientService (Market FloatingP)) (r : Request)
    (p : String) : Prop :=
  ∃ s', iteration parse Market.asSubscriber r s = .ok () s' ∧
    (s.productSubscriber.products p = none → s'.productSubscriber = s.productSubscriber)

/-! ## The last call -/

theorem lastCall_concat_self {p : String} {c : SubscriberCall} (calls : List SubscriberCall)
    (h : c.productId = p) : lastCall p (calls ++ [c]) = some c := by
  have hown : [c].filter (fun c => c.productId = p) = [c] :=
    List.filter_cons_of_pos (decide_eq_true h)
  rw [lastCall, List.filter_append, hown, List.getLast?_concat]

theorem lastCall_concat_ne {p : String} {c : SubscriberCall} (calls : List SubscriberCall)
    (h : c.productId ≠ p) : lastCall p (calls ++ [c]) = lastCall p calls := by
  have hother : [c].filter (fun c => c.productId = p) = [] :=
    List.filter_cons_of_neg (by simpa using h)
  rw [lastCall, List.filter_append, hother, List.append_nil, lastCall]

theorem subscribedLast_subscribe {c p q : String} {calls : List SubscriberCall} :
    SubscribedLast q (calls ++ [.subscribe c p]) ↔ q = p ∨ SubscribedLast q calls := by
  by_cases h : q = p
  · subst h
    exact iff_of_true ⟨c, lastCall_concat_self calls rfl⟩ (.inl rfl)
  · have hlast : lastCall q (calls ++ [.subscribe c p]) = lastCall q calls :=
      lastCall_concat_ne calls (Ne.symm h)
    rw [SubscribedLast, hlast]
    exact (or_iff_right h).symm

theorem subscribedLast_unsubscribe {c p q : String} {calls : List SubscriberCall} :
    SubscribedLast q (calls ++ [.unsubscribe c p]) ↔ q ≠ p ∧ SubscribedLast q calls := by
  by_cases h : q = p
  · subst h
    have hlast : lastCall q (calls ++ [.unsubscribe c q]) = some (.unsubscribe c q) :=
      lastCall_concat_self calls rfl
    refine iff_of_false ?_ (fun hne => hne.1 rfl)
    rintro ⟨c', hc'⟩
    rw [hlast] at hc'
    cases hc'
  · have hlast : lastCall q (calls ++ [.unsubscribe c p]) = lastCall q calls :=
      lastCall_concat_ne calls (Ne.symm h)
    rw [SubscribedLast, hlast]
    exact (and_iff_right h).symm

/-! ## One iteration -/

/-- Neither the calls made nor the market are touched. -/
def Untouched (s s' : ClientService (Market FloatingP)) : Prop :=
  s'.calls = s.calls ∧ s'.productSubscriber = s.productSubscriber

/-- An exception before any call, caught or not. -/
theorem untouched_of_error {parse : Parser} {r : Request} {s : ClientService (Market FloatingP)}
    {e : Fault} (h : handle parse Market.asSubscriber r s = .error e s) :
    Untouched s (left (iteration parse Market.asSubscriber r s)) := by
  by_cases he : e = .parseError
  · subst he
    rw [iteration_of_parseError h]
    exact ⟨rfl, rfl⟩
  · rw [iteration_of_error h he]
    exact ⟨rfl, rfl⟩

/-- What an iteration does to the market: nothing, or one call, and then the loop goes on
exactly if the call returns. -/
theorem iteration_market (parse : Parser) (r : Request) (s : ClientService (Market FloatingP)) :
    Untouched s (left (iteration parse Market.asSubscriber r s)) ∨
    ∃ provider c,
      (∃ s', Market.asSubscriber.run provider s.productSubscriber c = .ok s'.productSubscriber ∧
        s'.calls = s.calls ++ [c] ∧ iteration parse Market.asSubscriber r s = .ok () s') ∨
      (∃ e s', Market.asSubscriber.run provider s.productSubscriber c = .error e ∧
        s'.calls = s.calls ++ [c] ∧ iteration parse Market.asSubscriber r s = .error e s') := by
  have houtcome := handle_outcome parse Market.asSubscriber r s
  generalize hresult : handle parse Market.asSubscriber r s = result at houtcome
  cases houtcome with
  | unparsed | illTyped | noInstance | heartbeatIllTyped =>
    exact .inl (untouched_of_error hresult)
  | unsupported | registered | dropped | refused | heartbeat =>
    rw [iteration_of_ok hresult]
    exact .inl ⟨rfl, rfl⟩
  | called jmsg c provider endpoint state _ _ _ _ _ hcall =>
    exact .inr ⟨provider, c, .inl ⟨_, hcall, rfl, iteration_of_ok hresult⟩⟩
  | callFailed jmsg c provider e _ _ _ _ hproduct hcall =>
    -- what the market throws is no parse error, so it is not caught
    have hiteration := iteration_of_error hresult (market_run_error hproduct hcall).1
    exact .inr ⟨provider, c, .inr ⟨e, _, hcall, rfl, hiteration⟩⟩

/-- A request is admitted for one call at most. -/
theorem Admitted.unique {parse : Parser} {r : Request} {s : ClientService (Market FloatingP)}
    {c c' : SubscriberCall} (h : Admitted parse s r c) (h' : Admitted parse s r c') : c = c' := by
  obtain ⟨jmsg, _, hjmsg, hrequests, -⟩ := h
  obtain ⟨jmsg', _, hjmsg', hrequests', -⟩ := h'
  obtain rfl : jmsg = jmsg' := Except.ok.inj (hjmsg.symm.trans hjmsg')
  exact hrequests.unique hrequests'

/-- An admitted call is made. -/
theorem iteration_admitted {parse : Parser} {r : Request} {s : ClientService (Market FloatingP)}
    {c : SubscriberCall} (hs : s.registeredClientIds = issued s.sent)
    (hc : Admitted parse s r c) :
    ∃ provider,
      (∃ s', Market.asSubscriber.run provider s.productSubscriber c = .ok s'.productSubscriber ∧
        iteration parse Market.asSubscriber r s = .ok () s') ∨
      (∃ e s', Market.asSubscriber.run provider s.productSubscriber c = .error e ∧
        iteration parse Market.asSubscriber r s = .error e s') := by
  -- the calls grow by the admitted one
  have hcalls : (left (iteration parse Market.asSubscriber r s)).calls = s.calls ++ [c] := by
    rcases (dispatched (fun _ _ _ _ => market_run_error) hs r).calls with
      ⟨c', hc', hcalls⟩ | ⟨hnot, -⟩
    · obtain rfl := Admitted.unique hc hc'
      exact hcalls
    · exact absurd hc (hnot c)
  rcases iteration_market parse r s with ⟨hsame, -⟩ | ⟨provider, c', hcall⟩
  · rw [hcalls] at hsame
    exact absurd (List.append_right_eq_self.mp hsame) (List.cons_ne_nil _ _)
  · refine ⟨provider, ?_⟩
    rcases hcall with ⟨s', hrun, hsame, hiteration⟩ | ⟨e, s', hrun, hsame, hiteration⟩
    · rw [hiteration] at hcalls
      obtain rfl := List.singleton_inj.mp (List.append_cancel_left (hsame.symm.trans hcalls))
      exact .inl ⟨s', hrun, hiteration⟩
    · rw [hiteration] at hcalls
      obtain rfl := List.singleton_inj.mp (List.append_cancel_left (hsame.symm.trans hcalls))
      exact .inr ⟨e, s', hrun, hiteration⟩

/-! ## Whole runs -/

/-- The products in the market are those whose last call was a `subscribe`, and no
product knows a client. -/
structure Mirrors (s : ClientService (Market FloatingP)) : Prop where
  clients : ClientsEmpty s.productSubscriber
  served : ∀ p, ServedExactly s.productSubscriber p (SubscribedLast p s.calls)

/-- A call that returns keeps market and calls in step. -/
theorem mirrors_call {provider : EndpointProvider} {s s' : ClientService (Market FloatingP)}
    {c : SubscriberCall} (hs : Mirrors s) (hcalls : s'.calls = s.calls ++ [c])
    (h : Market.asSubscriber.run provider s.productSubscriber c = .ok s'.productSubscriber) :
    Mirrors s' := by
  cases c with
  | subscribe clientId p =>
    have hok : s.productSubscriber.subscribe provider clientId p = .ok s'.productSubscriber := h
    refine ⟨clientsEmpty_subscribe hs.clients hok, fun q => ?_⟩
    rw [hcalls]
    exact (served_subscribe hs.served hok q).mono subscribedLast_subscribe.symm
  | unsubscribe clientId p =>
    have hok : s.productSubscriber.unsubscribe clientId p = .ok s'.productSubscriber := h
    refine ⟨clientsEmpty_unsubscribe hs.clients hok, fun q => ?_⟩
    -- it returns for a product that is there only
    obtain ⟨product, hp, -⟩ := Market.unsubscribe_cases hok
    have hlast : SubscribedLast p s.calls := (hs.served p).product.mp (by rw [hp]; rfl)
    obtain ⟨m, hm, hserved⟩ := served_unsubscribe hs.served hs.clients hlast
    obtain rfl : m = s'.productSubscriber := Except.ok.inj (hm.symm.trans hok)
    rw [hcalls]
    exact (hserved q).mono subscribedLast_unsubscribe.symm

theorem mirrors_step {parse : Parser} {s s' : ClientService (Market FloatingP)} {r : Request}
    (hs : Mirrors s) (h : (serviceMachine parse Market.asSubscriber).step s r = some s') :
    Mirrors s' := by
  rw [serviceMachine_step] at h
  rcases iteration_market parse r s with ⟨hcalls, hmarket⟩ | ⟨provider, c, hcall⟩
  · rw [h] at hcalls hmarket
    refine ⟨?_, fun p => ?_⟩
    · exact hmarket ▸ hs.clients
    · change s'.productSubscriber = s.productSubscriber at hmarket
      change s'.calls = s.calls at hcalls
      rw [hmarket, hcalls]
      exact hs.served p
  · rcases hcall with ⟨t, hrun, hcalls, hiteration⟩ | ⟨e, t, -, -, hiteration⟩
    · rw [h] at hiteration
      cases hiteration
      exact mirrors_call hs hcalls hrun
    · rw [h] at hiteration
      cases hiteration

theorem mirrors_of_run {parse : Parser} {requests : List Request}
    {s : ClientService (Market FloatingP)}
    (hrun : (serviceMachine parse Market.asSubscriber).run { productSubscriber := {} } requests =
      some s) : Mirrors s := by
  refine (serviceMachine parse Market.asSubscriber).invariant_rule (I := Mirrors) ?_
    (fun s r s' hs _ hstep => mirrors_step hs hstep)
    ((serviceMachine parse Market.asSubscriber).guarded_true _ requests) hrun
  have hnone : ∀ p, ¬ SubscribedLast p [] := by
    rintro p ⟨c, hc⟩
    cases hc
  refine ⟨fun p product hp => (nomatch hp), fun p => ⟨?_, ?_, ?_⟩⟩
  all_goals exact iff_of_false Bool.false_ne_true (hnone p)

/-- **When an accepted `unsubscribe_request` is served.** After every sequence of requests
of any clients, the next `unsubscribe` that the service admits returns, and leaves a
market without the product as it is, exactly if the last call for the product was a
`subscribe`. -/
theorem unsubscribe_returns_iff {parse : Parser} {requests : List Request}
    {s : ClientService (Market FloatingP)} {r : Request} {c p : String}
    (hrun : (serviceMachine parse Market.asSubscriber).run { productSubscriber := {} } requests =
      some s)
    (hadmitted : Admitted parse s r (.unsubscribe c p)) :
    MissingLeftAlone parse s r p ↔ SubscribedLast p s.calls := by
  have hs : Mirrors s := mirrors_of_run hrun
  obtain ⟨provider, hcall⟩ := iteration_admitted (registered_of_run hrun) hadmitted
  constructor
  · rintro ⟨s', hiteration, -⟩
    rcases hcall with ⟨t, hok, -⟩ | ⟨e, t, -, herror⟩
    · obtain ⟨product, hp, -⟩ := Market.unsubscribe_cases hok
      exact (hs.served p).product.mp (by rw [hp]; rfl)
    · rw [hiteration] at herror
      cases herror
  · intro hlast
    obtain ⟨product, hp⟩ := Option.isSome_iff_exists.mp ((hs.served p).product.mpr hlast)
    rcases hcall with ⟨t, -, hiteration⟩ | ⟨e, t, herror, -⟩
    · refine ⟨t, hiteration, fun hnone => ?_⟩
      rw [hp] at hnone
      cases hnone
    · -- the product is there, so the call returns
      have hok := unsubscribe_of_clientsEmpty (c := c) hs.clients hp
      change s.productSubscriber.unsubscribe c p = .error e at herror
      rw [hok] at herror
      cases herror

/-- Otherwise the iterator dereferenced is the end of `m_products`. -/
theorem unsubscribe_missing {parse : Parser} {requests : List Request}
    {s : ClientService (Market FloatingP)} {r : Request} {c p : String}
    (hrun : (serviceMachine parse Market.asSubscriber).run { productSubscriber := {} } requests =
      some s)
    (hadmitted : Admitted parse s r (.unsubscribe c p)) (hlast : ¬ SubscribedLast p s.calls) :
    ∃ s', iteration parse Market.asSubscriber r s = .error .endIterator s' := by
  obtain ⟨provider, ⟨t, hok, -⟩ | ⟨e, t, herror, hiteration⟩⟩ :=
    iteration_admitted (registered_of_run hrun) hadmitted
  · obtain ⟨product, hp, -⟩ := Market.unsubscribe_cases hok
    exact absurd (((mirrors_of_run hrun).served p).product.mp (by rw [hp]; rfl)) hlast
  · obtain rfl := Market.unsubscribe_error herror
    exact ⟨t, hiteration⟩

/-! ## One client, twice -/

def unsubscribeText : String :=
  "\x7b\"type\": \"unsubscribe_request\", \"client_id\": \"1\", \"product_id\": \"ETH-USD\"\x7d"

def unsubscribeMsg : Json :=
  .object [("type", .string "unsubscribe_request"), ("client_id", .string "1"),
    ("product_id", .string "ETH-USD")]

/-- The parser on this text and the ones before. -/
def parseAllTexts : Parser := fun data =>
  if data = bytes unsubscribeText then .ok unsubscribeMsg else parseTexts data

/-- A client registers, subscribes and unsubscribes. -/
theorem unsubscribe_returns_iff_subscribed :
    ∃ s : ClientService (Market Int),
      (serviceMachine parseAllTexts Market.asSubscriber).run { productSubscriber := {} }
        [requestOf registerText, requestOf subscribeText] = some s ∧
      Admitted parseAllTexts s (requestOf unsubscribeText) (.unsubscribe "1" "ETH-USD") ∧
      (MissingLeftAlone parseAllTexts s (requestOf unsubscribeText) "ETH-USD" ↔
        SubscribedLast "ETH-USD" s.calls) := by
  have hrun : (serviceMachine parseAllTexts Market.asSubscriber).run
      ({ productSubscriber := {} } : ClientService (Market Int))
      [requestOf registerText, requestOf subscribeText] = some _ := rfl
  refine ⟨_, hrun, ?admitted, unsubscribe_returns_iff hrun ?admitted⟩
  exact ⟨unsubscribeMsg, _, rfl, ⟨rfl, rfl, rfl⟩, rfl, by decide, rfl⟩

/-- The same client unsubscribes again, and nothing is left to find. -/
theorem second_unsubscribe_missing :
    ∃ s s' : ClientService (Market Int),
      (serviceMachine parseAllTexts Market.asSubscriber).run { productSubscriber := {} }
        [requestOf registerText, requestOf subscribeText, requestOf unsubscribeText] = some s ∧
      Admitted parseAllTexts s (requestOf unsubscribeText) (.unsubscribe "1" "ETH-USD") ∧
      s.productSubscriber.products "ETH-USD" = none ∧
      iteration parseAllTexts Market.asSubscriber (requestOf unsubscribeText) s =
        .error .endIterator s' ∧
      ¬ MissingLeftAlone parseAllTexts s (requestOf unsubscribeText) "ETH-USD" := by
  refine ⟨_, _, rfl, ?_, rfl, rfl, ?_⟩
  · exact ⟨unsubscribeMsg, _, rfl, ⟨rfl, rfl, rfl⟩, rfl, by decide, rfl⟩
  · rintro ⟨s', hs', -⟩
    cases hs'

end ClientService

end QuoteServer
