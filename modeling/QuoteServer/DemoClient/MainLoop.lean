import QuoteServer.DemoClient.Endpoints
import QuoteServer.Product.ProductSubscriber

/-!
# The main loop of the demo client

The client plays a scenario: a list of products to subscribe to and to unsubscribe from,
each after some time. A thread moves the entries to a queue, one by one as their time
comes. The main loop asks for an id first. Then it takes one reply after another, and
answers each with the request for the next entry of the queue, or with a heartbeat if
there is none.
-/

namespace QuoteServer

structure ScenarioEntry where
  subscribe : Bool
  productId : String
  timeInS : Int
  deriving DecidableEq, Repr

/-- The call that the request for an entry asks the service for. -/
def ScenarioEntry.call (clientId : String) (entry : ScenarioEntry) : SubscriberCall :=
  if entry.subscribe then .subscribe clientId entry.productId
  else .unsubscribe clientId entry.productId

/-- An object whose members are strings. -/
def textObject (members : List (String × String)) : Json :=
  .object (members.map fun m => (m.1, .string m.2))

/-! ## What it sends -/

def clientIdRequest : Json := textObject [("type", "client_id_request")]

/-- The request for an entry of the scenario. -/
def scenarioMessage (clientId : String) (entry : ScenarioEntry) : Json :=
  if entry.subscribe then
    textObject [("type", "subscribe_request"), ("client_id", clientId),
      ("product_id", entry.productId)]
  else
    textObject [("type", "unsubscribe_request"), ("client_id", clientId),
      ("product_id", entry.productId)]

def heartbeatMessage (clientId : String) : Json :=
  textObject [("type", "heartbeat"), ("client_id", clientId)]

/-- The client: the globals of `client.cpp` that its threads share. -/
structure ClientProgram where
  clientId : String := ""
  /-- The entries whose time is still to come. -/
  scenario : List ScenarioEntry
  scenarioMessagesQueue : List ScenarioEntry := []
  demo : DemoClient := {}
  /-- The first request was sent, and the threads are started. -/
  started : Bool := false
  /-- Every entry that was taken from the queue, in order. -/
  taken : List ScenarioEntry := []

namespace ClientProgram

/-- What the main loop sends: the request for an id first, and then what there is after a
reply was handled. -/
def nextMessage (c : ClientProgram) : ClientProgram × Json :=
  if c.started then
    match c.scenarioMessagesQueue with
    | entry :: entries =>
      ({ c with scenarioMessagesQueue := entries, taken := c.taken ++ [entry] },
        scenarioMessage c.clientId entry)
    -- no entry within 10 ms
    | [] => (c, heartbeatMessage c.clientId)
  else ({ c with started := true }, clientIdRequest)

/-- What it does with a reply: the endpoints of a confirmation are queued, and the id is
kept. -/
def onReply (jmsg : Json) (c : ClientProgram) : Except Fault ClientProgram := do
  let demo ← c.demo.onMessage jmsg
  if jmsg.stringMember "type" = some "client_id_request" then
    let clientId ← jmsg.stringAt "client_id"
    return { c with demo := demo, clientId := clientId }
  else return { c with demo := demo }

/-- One round of `handleScenario`: the time of the next entry has come. -/
def handleScenario (c : ClientProgram) : Option ClientProgram :=
  match c.scenario with
  | [] => none
  | entry :: entries =>
    some { c with
      scenario := entries
      scenarioMessagesQueue := c.scenarioMessagesQueue ++ [entry] }

/-- One round of `hendleNewEndpoints`, which waits for an endpoint in one of its queues.
It ends the program if it dereferences a null pointer. -/
def hendleNewEndpoints (c : ClientProgram) : Option ClientProgram :=
  if c.demo.endpointsToSubscribe = [] ∧ c.demo.endpointsToUnsubscribe = [] then none
  else c.demo.hendleNewEndpoints.map fun demo => { c with demo := demo }

end ClientProgram

/-! ## What a request says -/

section

variable (clientId : String) (entry : ScenarioEntry)

@[simp] theorem ScenarioEntry.call_clientId : (entry.call clientId).clientId = clientId := by
  unfold ScenarioEntry.call
  split <;> rfl

@[simp] theorem ScenarioEntry.call_productId :
    (entry.call clientId).productId = entry.productId := by
  unfold ScenarioEntry.call
  split <;> rfl

@[simp] theorem clientIdRequest_type :
    clientIdRequest.stringMember "type" = some "client_id_request" := rfl

@[simp] theorem heartbeatMessage_type :
    (heartbeatMessage clientId).stringMember "type" = some "heartbeat" := rfl

@[simp] theorem heartbeatMessage_clientId :
    (heartbeatMessage clientId).stringMember "client_id" = some clientId := rfl

@[simp] theorem scenarioMessage_type :
    (scenarioMessage clientId entry).stringMember "type" = some (entry.call clientId).type := by
  unfold scenarioMessage ScenarioEntry.call
  split <;> rfl

@[simp] theorem scenarioMessage_clientId :
    (scenarioMessage clientId entry).stringMember "client_id" = some clientId := by
  unfold scenarioMessage
  split <;> rfl

@[simp] theorem scenarioMessage_productId :
    (scenarioMessage clientId entry).stringMember "product_id" = some entry.productId := by
  unfold scenarioMessage
  split <;> rfl

end

/-! ## Replies that it can read -/

/-- The members that the client needs of a reply are there. -/
structure Readable (jmsg : Json) : Prop where
  type : ∃ type, jmsg.stringMember "type" = some type
  clientId : jmsg.stringMember "type" = some "client_id_request" →
    ∃ clientId, jmsg.stringMember "client_id" = some clientId
  endpoints : jmsg.stringMember "type" = some "subscribe_request" ∨
    jmsg.stringMember "type" = some "unsubscribe_request" →
    ∃ p t, jmsg.stringMember "product_endpoint" = some p ∧
      jmsg.stringMember "trade_endpoint" = some t

theorem Readable.onMessage {jmsg : Json} (h : Readable jmsg) (c : DemoClient) :
    ∃ c', c.onMessage jmsg = .ok c' := by
  obtain ⟨type, htype⟩ := h.type
  have hcontains := Json.contains_of_stringMember htype
  obtain ⟨value, hvalue⟩ := Json.contains_iff.mp hcontains
  unfold DemoClient.onMessage
  rw [if_pos hcontains, hvalue]
  show ∃ c', (if value.isString "client_id_request" = true then _ else _) = Except.ok c'
  simp only [Json.isString_iff hvalue]
  split
  · obtain ⟨clientId, hclientId⟩ := h.clientId ‹_›
    rw [Json.stringAt_eq_ok.mpr hclientId]
    exact ⟨c, rfl⟩
  · split
    · obtain ⟨p, t, hp, ht⟩ := h.endpoints (.inl ‹_›)
      rw [Json.stringAt_eq_ok.mpr hp, Json.stringAt_eq_ok.mpr ht]
      exact ⟨_, rfl⟩
    · split
      · obtain ⟨p, t, hp, ht⟩ := h.endpoints (.inr ‹_›)
        rw [Json.stringAt_eq_ok.mpr hp, Json.stringAt_eq_ok.mpr ht]
        exact ⟨_, rfl⟩
      · exact ⟨c, rfl⟩

theorem Readable.onReply {jmsg : Json} (h : Readable jmsg) (c : ClientProgram) :
    ∃ c', c.onReply jmsg = .ok c' := by
  obtain ⟨demo, hdemo⟩ := h.onMessage c.demo
  unfold ClientProgram.onReply
  rw [hdemo]
  show ∃ c', (if jmsg.stringMember "type" = some "client_id_request" then _ else _) =
    Except.ok c'
  by_cases htype : jmsg.stringMember "type" = some "client_id_request"
  · obtain ⟨clientId, hclientId⟩ := h.clientId htype
    rw [if_pos htype, Json.stringAt_eq_ok.mpr hclientId]
    exact ⟨_, rfl⟩
  · rw [if_neg htype]
    exact ⟨_, rfl⟩

end QuoteServer
