import QuoteServer.ClientService.Loop

/-!
# What one request does

`handle_outcome` lists everything the body of the `try` can do with a request, and what
the request and the service must be like for it. The results about the loop are case
analyses of this list; none of them unfolds a branch.
-/

namespace QuoteServer

/-! ## The calls a request asks for -/

namespace ClientService

variable {σ : Type}

/-- The message is a request for the call. -/
structure Requests (jmsg : Json) (c : SubscriberCall) : Prop where
  type : jmsg.stringMember "type" = some c.type
  clientId : jmsg.stringMember "client_id" = some c.clientId
  productId : jmsg.stringMember "product_id" = some c.productId

/-- A message asks for one call at most. -/
theorem Requests.unique {jmsg : Json} {c c' : SubscriberCall} (h : Requests jmsg c)
    (h' : Requests jmsg c') : c = c' := by
  have htype : c.type = c'.type := Option.some.inj (h.type.symm.trans h'.type)
  have hclient : c.clientId = c'.clientId := Option.some.inj (h.clientId.symm.trans h'.clientId)
  have hproduct : c.productId = c'.productId :=
    Option.some.inj (h.productId.symm.trans h'.productId)
  cases c with
  | subscribe x y =>
    cases c' with
    | subscribe x' y' =>
      obtain rfl : x = x' := hclient
      obtain rfl : y = y' := hproduct
      rfl
    | unsubscribe x' y' => simp [SubscriberCall.type] at htype
  | unsubscribe x y =>
    cases c' with
    | subscribe x' y' => simp [SubscriberCall.type] at htype
    | unsubscribe x' y' =>
      obtain rfl : x = x' := hclient
      obtain rfl : y = y' := hproduct
      rfl

/-- The `EndpointProvider` the service has, or that it gets when it asks for it. -/
def instanceFor (parse : Parser) (s : ClientService σ) (r : Request) :
    Except Fault EndpointProvider :=
  match s.provider with
  | some provider => .ok provider
  | none => EndpointProvider.ofProducts ((parse r.products).mapError ParseFault.fault)

/-- The service after a reply. -/
def reply (s : ClientService σ) (message : Json) : ClientService σ :=
  { s with sent := s.sent ++ [message] }

/-! ## The outcomes -/

/-- Everything `handle` can do with a request. -/
inductive Outcome (parse : Parser) (subscriber : ProductSubscriber σ) (r : Request)
    (s : ClientService σ) : EStateM.Result Fault (ClientService σ) Unit → Prop where
  | unparsed (e : ParseFault) (h : parse r.data = .error e) :
      Outcome parse subscriber r s (.error e.fault s)
  /-- A message of no type the service knows is answered with an error. -/
  | unsupported (jmsg error : Json) (h : parse r.data = .ok jmsg)
      (htype : ∀ type ∈ ["client_id_request", "subscribe_request", "unsubscribe_request",
        "heartbeat"], jmsg.stringMember "type" ≠ some type)
      (herror : error.stringMember "type" = some "error") :
      Outcome parse subscriber r s (.ok () (s.reply error))
  | registered (jmsg : Json) (h : parse r.data = .ok jmsg)
      (htype : jmsg.stringMember "type" = some "client_id_request") :
      Outcome parse subscriber r s (.ok () { s.reply (registration r.uuid) with
        registeredClientIds := insert r.uuid s.registeredClientIds })
  /-- A `subscribe_request` without one of its members is dropped. -/
  | dropped (jmsg : Json) (h : parse r.data = .ok jmsg)
      (htype : jmsg.stringMember "type" = some "subscribe_request")
      (hmissing : jmsg.stringMember "client_id" = none ∨ jmsg.stringMember "product_id" = none) :
      Outcome parse subscriber r s (.ok () s)
  /-- A member that is no string, or in an `unsubscribe_request` a missing one, throws. -/
  | illTyped (jmsg : Json) (h : parse r.data = .ok jmsg)
      (htype : jmsg.stringMember "type" = some "subscribe_request" ∨
        jmsg.stringMember "type" = some "unsubscribe_request")
      (hmissing : jmsg.stringMember "client_id" = none ∨ jmsg.stringMember "product_id" = none) :
      Outcome parse subscriber r s (.error .typeError s)
  | noInstance (jmsg : Json) (c : SubscriberCall) (e : Fault) (h : parse r.data = .ok jmsg)
      (hrequests : Requests jmsg c) (hinstance : instanceFor parse s r = .error e) :
      Outcome parse subscriber r s (.error e s)
  | refused (jmsg : Json) (c : SubscriberCall) (provider : EndpointProvider) (error : String)
      (h : parse r.data = .ok jmsg) (hrequests : Requests jmsg c)
      (hinstance : instanceFor parse s r = .ok provider)
      (hunknown : c.clientId ∉ s.registeredClientIds ∨ provider.contains c.productId = false) :
      Outcome parse subscriber r s
        (.ok () { s.reply (errorReply error) with provider := some provider })
  | called (jmsg : Json) (c : SubscriberCall) (provider : EndpointProvider)
      (endpoint : Endpoint) (state : σ) (h : parse r.data = .ok jmsg)
      (hrequests : Requests jmsg c) (hinstance : instanceFor parse s r = .ok provider)
      (hclient : c.clientId ∈ s.registeredClientIds)
      (hproduct : provider.prodIdToPort c.productId = .ok endpoint)
      (hcall : subscriber.run provider s.productSubscriber c = .ok state) :
      Outcome parse subscriber r s
        (.ok () { s.reply (confirmation c.type c.clientId c.productId endpoint) with
          provider := some provider
          productSubscriber := state
          calls := s.calls ++ [c] })
  | callFailed (jmsg : Json) (c : SubscriberCall) (provider : EndpointProvider) (e : Fault)
      (h : parse r.data = .ok jmsg) (hrequests : Requests jmsg c)
      (hinstance : instanceFor parse s r = .ok provider)
      (hclient : c.clientId ∈ s.registeredClientIds)
      (hproduct : provider.contains c.productId = true)
      (hcall : subscriber.run provider s.productSubscriber c = .error e) :
      Outcome parse subscriber r s
        (.error e { s with provider := some provider, calls := s.calls ++ [c] })
  | heartbeat (jmsg : Json) (clientId : String) (message : Json) (h : parse r.data = .ok jmsg)
      (htype : jmsg.stringMember "type" = some "heartbeat")
      (hclient : jmsg.stringMember "client_id" = some clientId)
      (hmessage : message = heartbeatReply clientId ∨ message = errorReply "UnknownClientId") :
      Outcome parse subscriber r s (.ok () (s.reply message))
  | heartbeatIllTyped (jmsg : Json) (h : parse r.data = .ok jmsg)
      (htype : jmsg.stringMember "type" = some "heartbeat")
      (hclient : jmsg.stringMember "client_id" = none) :
      Outcome parse subscriber r s (.error .typeError s)

/-! ## The pieces -/

theorem call_ok {α : Type} {x : Except Fault α} {a : α} (s : ClientService σ)
    (h : x = .ok a) : call x s = .ok a s := by
  rw [h]
  rfl

theorem call_error {α : Type} {x : Except Fault α} {e : Fault} (s : ClientService σ)
    (h : x = .error e) : call x s = .error e s := by
  rw [h]
  rfl

theorem stringOf_ok {jmsg : Json} {key value : String} (s : ClientService σ)
    (h : jmsg.stringMember key = some value) : stringOf jmsg key s = .ok value s := by
  have hindex := Json.mutIndex_of_constIndex (Json.stringMember_eq_some.mp h)
  rw [stringOf, bind_of_ok (call_ok s hindex)]
  rfl

theorem stringOf_error {jmsg : Json} {key : String} (s : ClientService σ)
    (h : jmsg.stringMember key = none) : stringOf jmsg key s = .error .typeError s := by
  unfold stringOf
  rcases Json.mutIndex_of_not_stringMember h with hm | ⟨v, hm, hv⟩
  · exact bind_of_error (call_error s hm)
  · rw [bind_of_ok (call_ok s hm)]
    exact call_error s hv

theorem getInstance_ok {parse : Parser} {r : Request} {s : ClientService σ}
    {provider : EndpointProvider} (h : instanceFor parse s r = .ok provider) :
    getInstance parse r.products s = .ok provider { s with provider := some provider } := by
  rw [instanceFor] at h
  rw [getInstance, bind_of_ok (show (get : ServiceM σ _) s = .ok s s from rfl)]
  cases hs : s.provider with
  | some provider' =>
    rw [hs] at h
    cases h
    show EStateM.Result.ok provider s = .ok provider { s with provider := some provider }
    rw [← hs]
  | none =>
    rw [hs] at h
    exact bind_of_ok (call_ok s h)

theorem getInstance_error {parse : Parser} {r : Request} {s : ClientService σ} {e : Fault}
    (h : instanceFor parse s r = .error e) :
    getInstance parse r.products s = .error e s := by
  rw [instanceFor] at h
  rw [getInstance, bind_of_ok (show (get : ServiceM σ _) s = .ok s s from rfl)]
  cases hs : s.provider with
  | some provider' =>
    rw [hs] at h
    cases h
  | none =>
    rw [hs] at h
    exact bind_of_error (call_error s h)

/-- What a call of the subscriber leaves. -/
def callResult (subscriber : ProductSubscriber σ) (provider : EndpointProvider)
    (c : SubscriberCall) (s : ClientService σ) : EStateM.Result Fault (ClientService σ) Unit :=
  match subscriber.run provider s.productSubscriber c with
  | .ok state => .ok () { s with calls := s.calls ++ [c], productSubscriber := state }
  | .error e => .error e { s with calls := s.calls ++ [c] }

theorem callResult_ok {subscriber : ProductSubscriber σ} {provider : EndpointProvider}
    {c : SubscriberCall} {s : ClientService σ} {state : σ}
    (h : subscriber.run provider s.productSubscriber c = .ok state) :
    callResult subscriber provider c s =
      .ok () { s with calls := s.calls ++ [c], productSubscriber := state } := by
  rw [callResult, h]

theorem callResult_error {subscriber : ProductSubscriber σ} {provider : EndpointProvider}
    {c : SubscriberCall} {s : ClientService σ} {e : Fault}
    (h : subscriber.run provider s.productSubscriber c = .error e) :
    callResult subscriber provider c s = .error e { s with calls := s.calls ++ [c] } := by
  rw [callResult, h]

theorem callSubscriber_eq (subscriber : ProductSubscriber σ) (provider : EndpointProvider)
    (c : SubscriberCall) (s : ClientService σ) :
    callSubscriber subscriber provider c s = callResult subscriber provider c s := by
  show (call (subscriber.run provider s.productSubscriber c) >>= _ : ServiceM σ Unit)
    { s with calls := s.calls ++ [c] } = _
  cases h : subscriber.run provider s.productSubscriber c with
  | ok state =>
    rw [callResult_ok h, bind_of_ok (call_ok _ rfl)]
    rfl
  | error e =>
    rw [callResult_error h]
    exact bind_of_error (call_error _ rfl)

/-! ## The branches -/

theorem checkError_eq_empty {registered known : Bool} :
    checkError "" registered known = "" ↔ registered = true ∧ known = true := by
  cases registered <;> cases known <;> decide

/-- A request without a string for one of its members throws at the conversion. -/
theorem subscription_illTyped {parse : Parser} {products : List UInt8} {type error : String}
    {jmsg : Json} {act : EndpointProvider → String → String → ServiceM σ Unit}
    (s : ClientService σ)
    (h : jmsg.stringMember "client_id" = none ∨ jmsg.stringMember "product_id" = none) :
    subscription parse products type error jmsg act s = .error .typeError s := by
  unfold subscription
  cases hclient : jmsg.stringMember "client_id" with
  | none => exact bind_of_error (stringOf_error s hclient)
  | some clientId =>
    have hproduct : jmsg.stringMember "product_id" = none := by
      rcases h with h | h
      · rw [h] at hclient
        cases hclient
      · exact h
    rw [bind_of_ok (stringOf_ok s hclient)]
    exact bind_of_error (stringOf_error s hproduct)

/-- A request for a call: no instance, refused, or the call is made. `act` is the call
for a registered client. -/
theorem subscription_outcome {parse : Parser} {subscriber : ProductSubscriber σ} {r : Request}
    {s : ClientService σ} {jmsg : Json} {c : SubscriberCall}
    {act : EndpointProvider → String → String → ServiceM σ Unit}
    (h : parse r.data = .ok jmsg) (hrequests : Requests jmsg c)
    (hact : ∀ provider (t : ClientService σ), c.clientId ∈ t.registeredClientIds →
      act provider c.clientId c.productId t = callResult subscriber provider c t) :
    Outcome parse subscriber r s
      (subscription parse r.products c.type "" jmsg act s) := by
  rw [subscription, bind_of_ok (stringOf_ok s hrequests.clientId),
    bind_of_ok (stringOf_ok s hrequests.productId),
    bind_of_ok (show isRegistered c.clientId s =
      .ok (decide (c.clientId ∈ s.registeredClientIds)) s from rfl)]
  -- the checks need the table of endpoints, which may have to be built first
  cases hi : instanceFor parse s r with
  | error e =>
    rw [bind_of_error (getInstance_error hi)]
    exact .noInstance jmsg c e h hrequests hi
  | ok provider =>
    rw [bind_of_ok (getInstance_ok hi)]
    by_cases hcheck : checkError "" (decide (c.clientId ∈ s.registeredClientIds))
        (provider.contains c.productId) = ""
    · rw [if_pos hcheck]
      obtain ⟨hclient, hknown⟩ := checkError_eq_empty.mp hcheck
      have hclient : c.clientId ∈ s.registeredClientIds := of_decide_eq_true hclient
      obtain ⟨endpoint, hendpoint⟩ := EndpointProvider.contains_iff.mp hknown
      have hcalled := hact provider { s with provider := some provider } hclient
      cases hrun : subscriber.run provider s.productSubscriber c with
      | ok state =>
        rw [bind_of_ok (hcalled.trans (callResult_ok hrun)), bind_of_ok (call_ok _ hendpoint)]
        exact .called jmsg c provider endpoint state h hrequests hi hclient hendpoint hrun
      | error e =>
        rw [bind_of_error (hcalled.trans (callResult_error hrun))]
        exact .callFailed jmsg c provider e h hrequests hi hclient hknown hrun
    · rw [if_neg hcheck]
      refine .refused jmsg c provider _ h hrequests hi ?_
      by_contra hboth
      obtain ⟨hclient, hknown⟩ := not_or.mp hboth
      exact hcheck (checkError_eq_empty.mpr
        ⟨decide_eq_true (not_not.mp hclient), by simpa using hknown⟩)

/-- Registering a client again changes nothing. -/
theorem insertClientId_of_mem {clientId : String} {s : ClientService σ}
    (h : clientId ∈ s.registeredClientIds) : insertClientId clientId s = .ok () s := by
  show EStateM.Result.ok ()
    { s with registeredClientIds := insert clientId s.registeredClientIds } = .ok () s
  rw [Finset.insert_eq_of_mem h]

/-- A message that asks for a call, or lacks a string that the call needs. -/
theorem requests_or_missing {jmsg : Json} {f : String → String → SubscriberCall}
    (htype : ∀ x y, jmsg.stringMember "type" = some (f x y).type)
    (hclient : ∀ x y, (f x y).clientId = x) (hproduct : ∀ x y, (f x y).productId = y) :
    (∃ x y, Requests jmsg (f x y)) ∨
      (jmsg.stringMember "client_id" = none ∨ jmsg.stringMember "product_id" = none) := by
  cases hc : jmsg.stringMember "client_id" with
  | none => exact .inr (.inl rfl)
  | some x =>
    cases hp : jmsg.stringMember "product_id" with
    | none => exact .inr (.inr rfl)
    | some y =>
      exact .inl ⟨x, y, htype x y, by rw [hclient, hc], by rw [hproduct, hp]⟩

theorem subscribeRequest_outcome {parse : Parser} {subscriber : ProductSubscriber σ}
    {r : Request} {s : ClientService σ} {jmsg : Json} (h : parse r.data = .ok jmsg)
    (htype : jmsg.stringMember "type" = some "subscribe_request") :
    Outcome parse subscriber r s (subscribeRequest parse subscriber r.products jmsg s) := by
  unfold subscribeRequest
  rcases requests_or_missing (f := .subscribe) (fun _ _ => htype) (fun _ _ => rfl)
    (fun _ _ => rfl) with ⟨x, y, hrequests⟩ | hmissing
  · rw [Json.contains_of_stringMember hrequests.clientId,
      Json.contains_of_stringMember hrequests.productId]
    show Outcome parse subscriber r s (subscription parse r.products
      (SubscriberCall.subscribe x y).type "" jmsg _ s)
    refine subscription_outcome h hrequests fun provider t hmem => ?_
    show (callSubscriber subscriber provider (.subscribe x y) >>= fun _ => insertClientId x :
      ServiceM σ Unit) t = _
    -- the id is registered already, so registering it again has no effect
    have hcall := callSubscriber_eq subscriber provider (.subscribe x y) t
    cases hrun : subscriber.run provider t.productSubscriber (.subscribe x y) with
    | ok state =>
      rw [callResult_ok hrun] at hcall ⊢
      rw [bind_of_ok hcall]
      exact insertClientId_of_mem hmem
    | error e =>
      rw [callResult_error hrun] at hcall ⊢
      exact bind_of_error hcall
  · -- a member is not there, or it is there and no string
    cases hclient : jmsg.contains "client_id" with
    | false => exact .dropped jmsg h htype hmissing
    | true =>
      cases hproduct : jmsg.contains "product_id" with
      | false => exact .dropped jmsg h htype hmissing
      | true =>
        show Outcome parse subscriber r s (subscription parse r.products _ _ jmsg _ s)
        rw [subscription_illTyped s hmissing]
        exact .illTyped jmsg h (.inl htype) hmissing

theorem unsubscribeRequest_outcome {parse : Parser} {subscriber : ProductSubscriber σ}
    {r : Request} {s : ClientService σ} {jmsg : Json} (h : parse r.data = .ok jmsg)
    (htype : jmsg.stringMember "type" = some "unsubscribe_request") :
    Outcome parse subscriber r s (unsubscribeRequest parse subscriber r.products jmsg s) := by
  unfold unsubscribeRequest
  rcases requests_or_missing (f := .unsubscribe) (fun _ _ => htype) (fun _ _ => rfl)
    (fun _ _ => rfl) with ⟨x, y, hrequests⟩ | hmissing
  · rw [Json.contains_of_stringMember hrequests.clientId,
      Json.contains_of_stringMember hrequests.productId]
    show Outcome parse subscriber r s (subscription parse r.products
      (SubscriberCall.unsubscribe x y).type "" jmsg _ s)
    exact subscription_outcome h hrequests fun provider t _ =>
      callSubscriber_eq subscriber provider (.unsubscribe x y) t
  · rw [subscription_illTyped s hmissing]
    exact .illTyped jmsg h (.inr htype) hmissing

theorem heartbeat_outcome {parse : Parser} {subscriber : ProductSubscriber σ}
    {r : Request} {s : ClientService σ} {jmsg : Json} (h : parse r.data = .ok jmsg)
    (htype : jmsg.stringMember "type" = some "heartbeat") :
    Outcome parse subscriber r s (heartbeat jmsg s) := by
  unfold heartbeat
  cases hclient : jmsg.stringMember "client_id" with
  | none =>
    rw [bind_of_error (stringOf_error s hclient)]
    exact .heartbeatIllTyped jmsg h htype hclient
  | some clientId =>
    rw [bind_of_ok (stringOf_ok s hclient), Json.contains_of_stringMember hclient,
      bind_of_ok (show isRegistered clientId s =
        .ok (decide (clientId ∈ s.registeredClientIds)) s from rfl)]
    cases decide (clientId ∈ s.registeredClientIds) with
    | true => exact .heartbeat jmsg clientId _ h htype hclient (.inl rfl)
    | false =>
      refine .heartbeat jmsg clientId (errorReply "UnknownClientId") h htype hclient (.inr rfl)

/-- **Everything the body of the `try` can do.** -/
theorem handle_outcome (parse : Parser) (subscriber : ProductSubscriber σ) (r : Request)
    (s : ClientService σ) : Outcome parse subscriber r s (handle parse subscriber r s) := by
  unfold handle
  cases h : parse r.data with
  | error e =>
    have hparse : (parse r.data).mapError ParseFault.fault = .error e.fault := by
      rw [h]
      rfl
    rw [bind_of_error (x := parseJson parse r.data) (call_error s hparse)]
    exact .unparsed e h
  | ok jmsg =>
    have hparse : (parse r.data).mapError ParseFault.fault = .ok jmsg := by
      rw [h]
      rfl
    rw [bind_of_ok (x := parseJson parse r.data) (call_ok s hparse)]
    cases htype : jmsg.contains "type" with
    | false =>
      refine .unsupported jmsg _ h (fun type _ heq => ?_) (errorReply_type _)
      rw [Json.contains_of_stringMember heq] at htype
      cases htype
    | true =>
      -- the chain of comparisons, which `his` turns into statements about the message
      obtain ⟨type, hread, his⟩ := Json.mutIndex_of_contains htype
      rw [if_pos rfl, bind_of_ok (call_ok s hread)]
      unfold handleType
      by_cases h₁ : type.isString "client_id_request" = true
      · rw [if_pos h₁]
        exact .registered jmsg h ((his _).mp h₁)
      rw [if_neg h₁]
      by_cases h₂ : type.isString "subscribe_request" = true
      · rw [if_pos h₂]
        exact subscribeRequest_outcome h ((his _).mp h₂)
      rw [if_neg h₂]
      by_cases h₃ : type.isString "unsubscribe_request" = true
      · rw [if_pos h₃]
        exact unsubscribeRequest_outcome h ((his _).mp h₃)
      rw [if_neg h₃]
      by_cases h₄ : type.isString "heartbeat" = true
      · rw [if_pos h₄]
        exact heartbeat_outcome h ((his _).mp h₄)
      rw [if_neg h₄]
      refine .unsupported jmsg _ h (fun t ht heq => ?_) (unsupportedType_type type)
      simp only [List.mem_cons, List.not_mem_nil, or_false] at ht
      rcases ht with rfl | rfl | rfl | rfl
      · exact h₁ ((his _).mpr heq)
      · exact h₂ ((his _).mpr heq)
      · exact h₃ ((his _).mpr heq)
      · exact h₄ ((his _).mpr heq)

end ClientService

end QuoteServer
