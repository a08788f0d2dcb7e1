import QuoteServer.ClientService.KnownCalls

/-!
# How well-formed requests are served

A request with the members it should have is answered exactly once, and how is decided by
the registered ids and the table of endpoints alone: a request for an id with the id, the
heartbeat of a registered client with the heartbeat, and its request for a call with the
confirmation or with an error (`iteration_call`).
-/

namespace QuoteServer

namespace ClientService

/-- No call for a product of the table throws the one exception that the service catches. -/
def ThrowsNoParseError {σ : Type} (subscriber : ProductSubscriber σ) : Prop :=
  ∀ {provider state c}, provider.contains c.productId = true →
    subscriber.run provider state c ≠ .error .parseError

section

variable {σ : Type} {parse : Parser} {subscriber : ProductSubscriber σ} {r : Request}
  {s s' : ClientService σ}

/-- The ids that are registered and the table that was built stay. -/
structure ServiceGrows (s s' : ClientService σ) : Prop where
  registered : s.registeredClientIds ⊆ s'.registeredClientIds
  provider : ∀ provider, s.provider = some provider → s'.provider = some provider

theorem ServiceGrows.refl (s : ClientService σ) : ServiceGrows s s :=
  ⟨Finset.Subset.refl _, fun _ h => h⟩

/-- The table that a request finds is the one that was built. -/
theorem instanceFor_of_provider {provider provider' : EndpointProvider}
    (h : s.provider = some provider) (hinstance : instanceFor parse s r = .ok provider') :
    provider' = provider := by
  rw [instanceFor, h] at hinstance
  cases hinstance
  rfl

theorem grows_iteration (h : iteration parse subscriber r s = .ok () s') : ServiceGrows s s' := by
  have houtcome := handle_outcome parse subscriber r s
  generalize hresult : handle parse subscriber r s = result at houtcome
  -- an exception that is caught was thrown before anything was done
  have hcaught : ∀ {e t}, handle parse subscriber r s = .error e t → ServiceGrows s t →
      ServiceGrows s s' := by
    intro e t he ht
    by_cases hparse : e = .parseError
    · subst hparse
      rw [iteration_of_parseError he] at h
      cases h
      exact ⟨ht.registered, ht.provider⟩
    · rw [iteration_of_error he hparse] at h
      cases h
  have hok : ∀ {t}, handle parse subscriber r s = .ok () t → t = s' := by
    intro t ht
    rw [iteration_of_ok ht] at h
    cases h
    rfl
  cases houtcome with
  | unparsed | illTyped | noInstance | heartbeatIllTyped => exact hcaught hresult (.refl s)
  | unsupported | dropped | heartbeat =>
    obtain rfl := hok hresult
    exact ⟨Finset.Subset.refl _, fun _ h => h⟩
  | registered =>
    obtain rfl := hok hresult
    exact ⟨Finset.subset_insert _ _, fun _ h => h⟩
  | refused _ _ provider _ _ _ hinstance | called _ _ provider _ _ _ _ hinstance =>
    obtain rfl := hok hresult
    exact ⟨Finset.Subset.refl _, fun _ ht => congrArg some (instanceFor_of_provider ht hinstance)⟩
  | callFailed _ _ provider _ _ _ hinstance =>
    refine hcaught hresult ⟨Finset.Subset.refl _, fun _ ht => ?_⟩
    exact congrArg some (instanceFor_of_provider ht hinstance)

/-- A request for an id is answered with the id, which is registered. -/
theorem iteration_clientIdRequest {jmsg : Json} (hparse : parse r.data = .ok jmsg)
    (htype : jmsg.stringMember "type" = some "client_id_request") :
    iteration parse subscriber r s = .ok () { s.reply (registration r.uuid) with
      registeredClientIds := insert r.uuid s.registeredClientIds } := by
  refine iteration_of_ok ?_
  obtain ⟨type, hread, his⟩ := Json.mutIndex_of_contains (Json.contains_of_stringMember htype)
  unfold handle
  rw [bind_of_ok (x := parseJson parse r.data) (call_ok s (by rw [hparse]; rfl)),
    Json.contains_of_stringMember htype, if_pos rfl, bind_of_ok (call_ok s hread)]
  unfold handleType
  rw [if_pos ((his _).mpr htype)]
  rfl

/-- The heartbeat of a registered client is returned. -/
theorem iteration_heartbeat {jmsg : Json} {clientId : String} (hparse : parse r.data = .ok jmsg)
    (htype : jmsg.stringMember "type" = some "heartbeat")
    (hclient : jmsg.stringMember "client_id" = some clientId)
    (hregistered : clientId ∈ s.registeredClientIds) :
    iteration parse subscriber r s = .ok () (s.reply (heartbeatReply clientId)) := by
  refine iteration_of_ok ?_
  obtain ⟨type, hread, his⟩ := Json.mutIndex_of_contains (Json.contains_of_stringMember htype)
  have hother : ∀ {t}, t ≠ "heartbeat" → ¬ type.isString t = true := by
    intro t ht heq
    exact ht (Option.some.inj (((his t).mp heq).symm.trans htype))
  unfold handle
  rw [bind_of_ok (x := parseJson parse r.data) (call_ok s (by rw [hparse]; rfl)),
    Json.contains_of_stringMember htype, if_pos rfl, bind_of_ok (call_ok s hread)]
  unfold handleType
  rw [if_neg (hother (by decide)), if_neg (hother (by decide)), if_neg (hother (by decide)),
    if_pos ((his _).mpr htype)]
  unfold ClientService.heartbeat
  rw [bind_of_ok (stringOf_ok s hclient), Json.contains_of_stringMember hclient,
    bind_of_ok (show isRegistered clientId s =
      .ok (decide (clientId ∈ s.registeredClientIds)) s from rfl), decide_eq_true hregistered]
  rfl

/-- The request for a call of a registered client is confirmed, or refused because the
product is not known or the table could not be read. -/
theorem iteration_call {jmsg : Json} {c : SubscriberCall}
    (hsubscriber : ThrowsNoParseError subscriber) (hparse : parse r.data = .ok jmsg)
    (hrequests : Requests jmsg c) (hregistered : c.clientId ∈ s.registeredClientIds)
    (h : iteration parse subscriber r s = .ok () s') :
    (∃ provider endpoint, s'.provider = some provider ∧
      provider.prodIdToPort c.productId = .ok endpoint ∧ s'.calls = s.calls ++ [c] ∧
      s'.sent = s.sent ++ [confirmation c.type c.clientId c.productId endpoint]) ∨
    (∃ provider error, s'.provider = some provider ∧ provider.contains c.productId = false ∧
      s'.calls = s.calls ∧ s'.sent = s.sent ++ [errorReply error]) ∨
    (parse r.products = .error .parseError ∧ s'.calls = s.calls ∧
      s'.sent = s.sent ++ [errorReply "Invalid message"]) := by
  have houtcome := handle_outcome parse subscriber r s
  generalize hresult : handle parse subscriber r s = result at houtcome
  have hsame : ∀ {j}, parse r.data = .ok j → jmsg = j :=
    fun hj => Except.ok.inj (hparse.symm.trans hj)
  have htype := hrequests.isRequest
  cases houtcome with
  | unparsed e he =>
    rw [hparse] at he
    cases he
  | unsupported j error hj hno _ =>
    obtain rfl := hsame hj
    exact htype.elim (fun h => absurd h (hno _ (by simp))) fun h => absurd h (hno _ (by simp))
  | registered j hj ht =>
    obtain rfl := hsame hj
    exact absurd hrequests (not_requests_of_type ht (by decide) (by decide) c)
  | dropped j hj _ hmissing | illTyped j hj _ hmissing =>
    obtain rfl := hsame hj
    exact absurd hrequests (not_requests_of_missing hmissing c)
  | noInstance j c' e hj hr hinstance =>
    by_cases he : e = .parseError
    · subst he
      rw [iteration_of_parseError hresult] at h
      cases h
      refine .inr (.inr ⟨?_, rfl, rfl⟩)
      -- only the parser throws it
      unfold instanceFor at hinstance
      cases hp : s.provider with
      | some provider =>
        rw [hp] at hinstance
        cases hinstance
      | none =>
        rw [hp] at hinstance
        rcases bind_eq_error.mp hinstance with he | ⟨results, -, he⟩
        · cases hl : parse r.products with
          | ok results =>
            rw [hl] at he
            cases he
          | error fault =>
            rw [hl] at he
            cases fault with
            | parseError => rfl
            | outOfRange => cases he
        · rcases EndpointProvider.insertOnline_error he with he | he <;> cases he
    · rw [iteration_of_error hresult he] at h
      cases h
  | refused j c' provider error hj hr hinstance hunknown =>
    obtain rfl := hsame hj
    obtain rfl := hrequests.unique hr
    rw [iteration_of_ok hresult] at h
    cases h
    exact .inr (.inl ⟨provider, error, rfl, hunknown.resolve_left (not_not.mpr hregistered), rfl,
      rfl⟩)
  | called j c' provider endpoint state hj hr hinstance hclient hproduct hcall =>
    obtain rfl := hsame hj
    obtain rfl := hrequests.unique hr
    rw [iteration_of_ok hresult] at h
    cases h
    exact .inl ⟨provider, endpoint, rfl, hproduct, rfl, rfl⟩
  | callFailed j c' provider e hj hr hinstance hclient hproduct hcall =>
    rw [iteration_of_error hresult fun he => hsubscriber hproduct (hcall.trans (by rw [he]))] at h
    cases h
  | heartbeat j clientId message hj ht =>
    obtain rfl := hsame hj
    exact absurd hrequests (not_requests_of_type ht (by decide) (by decide) c)
  | heartbeatIllTyped j hj ht =>
    obtain rfl := hsame hj
    exact absurd hrequests (not_requests_of_type ht (by decide) (by decide) c)

/-- What an iteration does with the subscriber: nothing, or one call that returns. -/
theorem iteration_subscriber (hsubscriber : ThrowsNoParseError subscriber)
    (h : iteration parse subscriber r s = .ok () s') :
    (s'.calls = s.calls ∧ s'.productSubscriber = s.productSubscriber) ∨
    ∃ provider c, s'.provider = some provider ∧ s'.calls = s.calls ++ [c] ∧
      subscriber.run provider s.productSubscriber c = .ok s'.productSubscriber := by
  have houtcome := handle_outcome parse subscriber r s
  generalize hresult : handle parse subscriber r s = result at houtcome
  have hcaught : ∀ {e}, handle parse subscriber r s = .error e s →
      s'.calls = s.calls ∧ s'.productSubscriber = s.productSubscriber := by
    intro e he
    by_cases hparse : e = .parseError
    · subst hparse
      rw [iteration_of_parseError he] at h
      cases h
      exact ⟨rfl, rfl⟩
    · rw [iteration_of_error he hparse] at h
      cases h
  cases houtcome with
  | unparsed | illTyped | noInstance | heartbeatIllTyped => exact .inl (hcaught hresult)
  | unsupported | registered | dropped | refused | heartbeat =>
    rw [iteration_of_ok hresult] at h
    cases h
    exact .inl ⟨rfl, rfl⟩
  | called _ c provider _ _ _ _ _ _ _ hcall =>
    rw [iteration_of_ok hresult] at h
    cases h
    exact .inr ⟨provider, c, rfl, rfl, hcall⟩
  | callFailed _ c provider e _ _ _ _ hproduct hcall =>
    rw [iteration_of_error hresult fun he => hsubscriber hproduct (hcall.trans (by rw [he]))] at h
    cases h

/-- The table stays, or it is the one that was built for the request. -/
theorem iteration_provider (h : iteration parse subscriber r s = .ok () s') :
    s'.provider = s.provider ∨
      ∃ provider, s'.provider = some provider ∧ instanceFor parse s r = .ok provider := by
  have houtcome := handle_outcome parse subscriber r s
  generalize hresult : handle parse subscriber r s = result at houtcome
  have hcaught : ∀ {e t}, handle parse subscriber r s = .error e t → s'.provider = t.provider := by
    intro e t he
    by_cases hparse : e = .parseError
    · subst hparse
      rw [iteration_of_parseError he] at h
      cases h
      rfl
    · rw [iteration_of_error he hparse] at h
      cases h
  cases houtcome with
  | unparsed | illTyped | noInstance | heartbeatIllTyped => exact .inl (hcaught hresult)
  | unsupported | registered | dropped | heartbeat =>
    rw [iteration_of_ok hresult] at h
    cases h
    exact .inl rfl
  | refused _ _ provider _ _ _ hinstance | called _ _ provider _ _ _ _ hinstance =>
    rw [iteration_of_ok hresult] at h
    cases h
    exact .inr ⟨provider, rfl, hinstance⟩
  | callFailed _ _ provider _ _ _ hinstance => exact .inr ⟨provider, hcaught hresult, hinstance⟩

/-- The request for a call is served if the table is there or can be built, and the
subscriber returns for a product of the table. -/
theorem iteration_call_total {jmsg : Json} {c : SubscriberCall} {provider : EndpointProvider}
    (hparse : parse r.data = .ok jmsg) (hrequests : Requests jmsg c)
    (hinstance : instanceFor parse s r = .ok provider)
    (hcall : provider.contains c.productId = true →
      ∃ state, subscriber.run provider s.productSubscriber c = .ok state) :
    ∃ s', iteration parse subscriber r s = .ok () s' := by
  have houtcome := handle_outcome parse subscriber r s
  generalize hresult : handle parse subscriber r s = result at houtcome
  have hsame : ∀ {j}, parse r.data = .ok j → jmsg = j :=
    fun hj => Except.ok.inj (hparse.symm.trans hj)
  cases houtcome with
  | unparsed e he =>
    rw [hparse] at he
    cases he
  | unsupported | registered | dropped | refused | called | heartbeat =>
    exact ⟨_, iteration_of_ok hresult⟩
  | illTyped j hj _ hmissing =>
    obtain rfl := hsame hj
    exact absurd hrequests (not_requests_of_missing hmissing c)
  | noInstance j c' e hj hr hno =>
    rw [hinstance] at hno
    cases hno
  | callFailed j c' provider' e hj hr hinstance' _ hproduct hfailed =>
    obtain rfl := hsame hj
    obtain rfl := hrequests.unique hr
    obtain rfl : provider = provider' := Except.ok.inj (hinstance.symm.trans hinstance')
    obtain ⟨state, hstate⟩ := hcall hproduct
    rw [hstate] at hfailed
    cases hfailed
  | heartbeatIllTyped j hj ht =>
    obtain rfl := hsame hj
    exact absurd hrequests (not_requests_of_type ht (by decide) (by decide) c)

end

end ClientService

end QuoteServer
