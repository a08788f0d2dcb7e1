import QuoteServer.ClientService.Outcomes
import QuoteServer.Market

/-!
# Which requests get exactly one reply

A REP socket must send once after each `recv`. `alternates_iff` says for every sequence
of requests exactly when the loop does: when each request is `Answerable` in the state
that finds it. Three kinds are not. A `subscribe_request` without one of its members is
dropped, and a member of the wrong kind, or a missing one in the other requests, throws
a `type_error` that leaves the loop. So does a table of endpoints that cannot be built,
unless it is the parser that rejects the list of products.
-/

namespace QuoteServer

open EventMachine

namespace ClientService

variable {σ : Type}

/-- The message has what its type needs. -/
structure AnswerableMessage (parse : Parser) (s : ClientService σ) (r : Request)
    (jmsg : Json) : Prop where
  strings : jmsg.stringMember "type" = some "subscribe_request" ∨
      jmsg.stringMember "type" = some "unsubscribe_request" →
    (jmsg.stringMember "client_id").isSome ∧ (jmsg.stringMember "product_id").isSome
  endpoints : jmsg.stringMember "type" = some "subscribe_request" ∨
      jmsg.stringMember "type" = some "unsubscribe_request" →
    ∀ e, instanceFor parse s r = .error e → e = .parseError
  heartbeat : jmsg.stringMember "type" = some "heartbeat" →
    (jmsg.stringMember "client_id").isSome

/-- The condition on a request and the state that finds it. -/
def Answerable (parse : Parser) (s : ClientService σ) (r : Request) : Prop :=
  match parse r.data with
  | .error e => e = .parseError
  | .ok jmsg => AnswerableMessage parse s r jmsg

/-- The iteration sends once, and no exception leaves it. -/
def AnsweredOnce (parse : Parser) (subscriber : ProductSubscriber σ) (s : ClientService σ)
    (r : Request) : Prop :=
  ∃ s' message, iteration parse subscriber r s = .ok () s' ∧ s'.sent = s.sent ++ [message]

/-- The loop takes all the requests, and sends once after each `recv`. -/
structure Alternates (parse : Parser) (subscriber : ProductSubscriber σ)
    (s : ClientService σ) (requests : List Request) : Prop where
  goesOn : ∃ s', (serviceMachine parse subscriber).run s requests = some s'
  once : (serviceMachine parse subscriber).Guarded (AnsweredOnce parse subscriber) s requests

/-! ## One iteration -/

theorem iteration_of_ok {parse : Parser} {subscriber : ProductSubscriber σ} {r : Request}
    {s s' : ClientService σ} (h : handle parse subscriber r s = .ok () s') :
    iteration parse subscriber r s = .ok () s' := by
  rw [iteration, h]

theorem iteration_of_parseError {parse : Parser} {subscriber : ProductSubscriber σ}
    {r : Request} {s s' : ClientService σ}
    (h : handle parse subscriber r s = .error .parseError s') :
    iteration parse subscriber r s = .ok () (s'.reply (errorReply "Invalid message")) := by
  rw [iteration, h]
  rfl

theorem iteration_of_error {parse : Parser} {subscriber : ProductSubscriber σ} {r : Request}
    {s s' : ClientService σ} {e : Fault} (h : handle parse subscriber r s = .error e s')
    (he : e ≠ .parseError) : iteration parse subscriber r s = .error e s' := by
  rw [iteration, h]
  cases e with
  | parseError => exact absurd rfl he
  | _ => rfl

/-- An iteration that ends with one reply. -/
theorem answeredOnce_of_ok {parse : Parser} {subscriber : ProductSubscriber σ} {r : Request}
    {s s' : ClientService σ} {message : Json} (h : handle parse subscriber r s = .ok () s')
    (hsent : s'.sent = s.sent ++ [message]) : AnsweredOnce parse subscriber s r :=
  ⟨s', message, iteration_of_ok h, hsent⟩

/-- An exception that nothing was sent before: one reply exactly when it is caught. -/
theorem answeredOnce_of_error {parse : Parser} {subscriber : ProductSubscriber σ} {r : Request}
    {s : ClientService σ} {e : Fault} (h : handle parse subscriber r s = .error e s) :
    AnsweredOnce parse subscriber s r ↔ e = .parseError := by
  constructor
  · rintro ⟨s', message, hs', -⟩
    by_contra he
    rw [iteration_of_error h he] at hs'
    cases hs'
  · rintro rfl
    exact ⟨_, _, iteration_of_parseError h, rfl⟩

theorem answerable_iff {parse : Parser} {s : ClientService σ} {r : Request} {jmsg : Json}
    (h : parse r.data = .ok jmsg) :
    Answerable parse s r ↔ AnswerableMessage parse s r jmsg := by
  rw [Answerable, h]

theorem Requests.isRequest {jmsg : Json} {c : SubscriberCall} (h : Requests jmsg c) :
    jmsg.stringMember "type" = some "subscribe_request" ∨
      jmsg.stringMember "type" = some "unsubscribe_request" := by
  cases c with
  | subscribe => exact .inl h.type
  | unsubscribe => exact .inr h.type

/-- A request for a call is answerable unless the table of endpoints cannot be built. -/
theorem Requests.answerable_iff {parse : Parser} {s : ClientService σ} {r : Request}
    {jmsg : Json} {c : SubscriberCall} (hr : Requests jmsg c) :
    AnswerableMessage parse s r jmsg ↔
      ∀ e, instanceFor parse s r = .error e → e = .parseError := by
  refine ⟨fun h => h.endpoints hr.isRequest, fun h => ⟨fun _ => ?_, fun _ => h, fun _ => ?_⟩⟩
  · rw [hr.clientId, hr.productId]
    exact ⟨rfl, rfl⟩
  · rw [hr.clientId]
    rfl

/-- A request for a call with a member missing is not answerable. -/
theorem not_answerable_of_missing {parse : Parser} {s : ClientService σ} {r : Request}
    {jmsg : Json} (h : parse r.data = .ok jmsg)
    (htype : jmsg.stringMember "type" = some "subscribe_request" ∨
      jmsg.stringMember "type" = some "unsubscribe_request")
    (hmissing : jmsg.stringMember "client_id" = none ∨ jmsg.stringMember "product_id" = none) :
    ¬ Answerable parse s r := by
  intro ha
  obtain ⟨hclient, hproduct⟩ := ((answerable_iff h).mp ha).strings htype
  rcases hmissing with hnone | hnone
  · rw [hnone] at hclient
    cases hclient
  · rw [hnone] at hproduct
    cases hproduct

/-- A message that requests no call is answerable, but for a heartbeat without its client. -/
theorem answerable_of_noCall {parse : Parser} {s : ClientService σ} {r : Request} {jmsg : Json}
    (hsubscribe : jmsg.stringMember "type" ≠ some "subscribe_request")
    (hunsubscribe : jmsg.stringMember "type" ≠ some "unsubscribe_request")
    (hheartbeat : jmsg.stringMember "type" = some "heartbeat" →
      (jmsg.stringMember "client_id").isSome) :
    AnswerableMessage parse s r jmsg where
  strings := fun ht => (ht.elim hsubscribe hunsubscribe).elim
  endpoints := fun ht => (ht.elim hsubscribe hunsubscribe).elim
  heartbeat := hheartbeat

/-- **One reply, exactly for the answerable requests.** -/
theorem answeredOnce_iff {parse : Parser} {subscriber : ProductSubscriber σ}
    (hreturns : subscriber.Returns) (s : ClientService σ) (r : Request) :
    AnsweredOnce parse subscriber s r ↔ Answerable parse s r := by
  have houtcome := handle_outcome parse subscriber r s
  generalize hresult : handle parse subscriber r s = result at houtcome
  -- an exception is answered only if it is a `parse_error`, and then exactly once
  cases houtcome with
  | unparsed e h =>
    rw [answeredOnce_of_error hresult]
    rw [Answerable, h]
    cases e <;> simp [ParseFault.fault]
  | unsupported jmsg error h htype _ =>
    refine iff_of_true (answeredOnce_of_ok hresult rfl) ((answerable_iff h).mpr ?_)
    exact answerable_of_noCall (htype _ (by simp)) (htype _ (by simp))
      fun ht => absurd ht (htype _ (by simp))
  | registered jmsg h htype =>
    refine iff_of_true (answeredOnce_of_ok hresult rfl) ((answerable_iff h).mpr ?_)
    apply answerable_of_noCall <;> rw [htype]
    · decide
    · decide
    · exact fun ht => absurd ht (by decide)
  | dropped jmsg h htype hmissing =>
    refine iff_of_false ?_ (not_answerable_of_missing h (.inl htype) hmissing)
    rintro ⟨s', message, hs', hsent⟩
    rw [iteration_of_ok hresult] at hs'
    cases hs'
    exact absurd hsent (by simp)
  | illTyped jmsg h htype hmissing =>
    rw [answeredOnce_of_error hresult]
    exact iff_of_false (by decide) (not_answerable_of_missing h htype hmissing)
  | noInstance jmsg c e h hrequests hinstance =>
    rw [answeredOnce_of_error hresult, answerable_iff h, hrequests.answerable_iff, hinstance]
    simp
  | refused jmsg c provider error h hrequests hinstance _ =>
    refine iff_of_true (answeredOnce_of_ok hresult rfl) ?_
    rw [answerable_iff h, hrequests.answerable_iff, hinstance]
    simp
  | called jmsg c provider endpoint state h hrequests hinstance _ _ _ =>
    refine iff_of_true (answeredOnce_of_ok hresult rfl) ?_
    rw [answerable_iff h, hrequests.answerable_iff, hinstance]
    simp
  | callFailed jmsg c provider e _ _ _ _ _ hcall =>
    obtain ⟨state, hok⟩ := hreturns provider s.productSubscriber c
    rw [hcall] at hok
    cases hok
  | heartbeat jmsg clientId message h htype hclient _ =>
    refine iff_of_true (answeredOnce_of_ok hresult rfl) ((answerable_iff h).mpr ?_)
    apply answerable_of_noCall
    · rw [htype]
      decide
    · rw [htype]
      decide
    · rw [hclient]
      exact fun _ => rfl
  | heartbeatIllTyped jmsg h htype hclient =>
    rw [answeredOnce_of_error hresult]
    refine iff_of_false (by decide) fun ha => ?_
    have hc := ((answerable_iff h).mp ha).heartbeat htype
    rw [hclient] at hc
    cases hc

/-! ## Whole runs -/

/-- **`recv` and `send` alternate** over a sequence of requests, from any state of the
service, exactly when each request is answerable in the state that finds it. -/
theorem alternates_iff {parse : Parser} {subscriber : ProductSubscriber σ}
    (hreturns : subscriber.Returns) (s : ClientService σ) (requests : List Request) :
    Alternates parse subscriber s requests ↔
      (serviceMachine parse subscriber).Guarded (Answerable parse) s requests := by
  constructor
  · intro h pre r post t heq ht
    exact (answeredOnce_iff hreturns t r).mp (h.once pre r post t heq ht)
  · intro h
    have honce : (serviceMachine parse subscriber).Guarded (AnsweredOnce parse subscriber) s
        requests := fun pre r post t heq ht =>
      (answeredOnce_iff hreturns t r).mpr (h pre r post t heq ht)
    refine ⟨Machine.exists_run_of_guarded _ (fun t r ht => ?_) honce, honce⟩
    obtain ⟨t', message, hok, -⟩ := ht
    exact ⟨t', serviceMachine_step.mpr hok⟩

/-! ## Runs on fixed requests -/

/-- The bytes of a text. -/
def bytes (text : String) : List UInt8 := text.toList.map fun c => c.toNat.toUInt8

def registerText : String := "\x7b\"type\": \"client_id_request\"\x7d"

def subscribeText : String :=
  "\x7b\"type\": \"subscribe_request\", \"client_id\": \"1\", \"product_id\": \"ETH-USD\"\x7d"

/-- A `subscribe_request` without its members. -/
def incompleteText : String := "\x7b\"type\": \"subscribe_request\"\x7d"

def productsText : String := "[\x7b\"id\": \"ETH-USD\", \"status\": \"online\"\x7d]"

def subscribeMsg : Json :=
  .object [("type", .string "subscribe_request"), ("client_id", .string "1"),
    ("product_id", .string "ETH-USD")]

/-- The parser on these texts. -/
def parseTexts : Parser := fun data =>
  if data = bytes registerText then .ok (.object [("type", .string "client_id_request")])
  else if data = bytes subscribeText then .ok subscribeMsg
  else if data = bytes incompleteText then .ok (.object [("type", .string "subscribe_request")])
  else if data = bytes productsText then
    .ok (.array [.object [("id", .string "ETH-USD"), ("status", .string "online")]])
  else .error .parseError

/-- A request with the id `1` at hand for the client, should it ask for one. -/
def requestOf (text : String) : Request :=
  { data := bytes text, uuid := "1", products := bytes productsText }

/-- The market, left as it is by a call that fails. -/
def totalMarket : ProductSubscriber (Market Int) where
  subscribe provider m clientId productId :=
    .ok ((m.subscribe provider clientId productId).toOption.getD m)
  unsubscribe m clientId productId := .ok ((m.unsubscribe clientId productId).toOption.getD m)

/-- A client registers and subscribes. -/
theorem alternates_iff_subscribed :
    Alternates parseTexts totalMarket { productSubscriber := {} }
      [requestOf registerText, requestOf subscribeText] := by
  have hreturns : totalMarket.Returns := by
    intro provider m c
    cases c with
    | subscribe => exact ⟨_, rfl⟩
    | unsubscribe => exact ⟨_, rfl⟩
  refine (alternates_iff hreturns _ _).mpr ?_
  refine Machine.guarded_cons _ ?_ rfl (Machine.guarded_cons _ ?_ rfl (Machine.guarded_nil _ _ _))
  · have h : parseTexts (requestOf registerText).data =
        .ok (.object [("type", .string "client_id_request")]) := rfl
    refine (answerable_iff h).mpr ⟨fun ht => ?_, fun ht => ?_, fun ht => ?_⟩
    · exact absurd ht (by decide)
    · exact absurd ht (by decide)
    · exact absurd ht (by decide)
  · have hrequests : Requests subscribeMsg (.subscribe "1" "ETH-USD") := ⟨rfl, rfl, rfl⟩
    have h : parseTexts (requestOf subscribeText).data = .ok subscribeMsg := rfl
    refine (answerable_iff h).mpr (hrequests.answerable_iff.mpr fun e he => ?_)
    cases he

/-- A `subscribe_request` without its members is dropped: the loop goes on to the next
`recv` and has sent nothing. -/
theorem dropped_request_unanswered :
    iteration parseTexts totalMarket (requestOf incompleteText) { productSubscriber := {} } =
        .ok () { productSubscriber := {} } ∧
      ¬ Alternates parseTexts totalMarket { productSubscriber := {} }
        [requestOf incompleteText] := by
  refine ⟨rfl, fun h => ?_⟩
  obtain ⟨s', message, hs', hsent⟩ := h.once [] _ [] _ rfl rfl
  cases hs'
  cases hsent

end ClientService

end QuoteServer
