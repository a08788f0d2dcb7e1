import QuoteServer.ClientService.KnownCalls
import QuoteServer.DemoClient.MainLoop
import QuoteServer.Lib.RequestReply

/-!
# Sessions: the service and its clients

Any number of demo clients, each with its REQ socket, and the client service with its REP
socket. A message travels as the bytes that `dump` makes of it. Meanwhile the threads of
each client do their work, and the other threads of the server theirs, which is seen here
only in what they do to the `ProductSubscriber`.
-/

namespace QuoteServer

open EventMachine RequestReply ClientService

/-- What an iteration of the service finds besides the request. -/
structure Surroundings where
  /-- What `generate_uuid` returns if it is called. -/
  uuid : String
  /-- The list of products, as the exchange returns it if it is asked. -/
  products : List UInt8

/-- What the other threads of a client do. -/
inductive ClientAct where
  | handleScenario
  | hendleNewEndpoints
  deriving DecidableEq, Repr

section

variable {σ Y : Type}

/-- The client service, which ends with the iteration that throws. `background` is what the
other threads of the server do to the subscriber. -/
def serviceServer (dump : Json → List UInt8) (parse : Parser) (subscriber : ProductSubscriber σ)
    (background : Machine σ Y) :
    Server (ClientService σ) Surroundings Y (List UInt8) (List UInt8) where
  serve s x data :=
    match iteration parse subscriber { data := data, uuid := x.uuid, products := x.products } s with
    | .ok () s' => some (s', (s'.sent.drop s.sent.length).map dump)
    | .error _ _ => none
  act s y :=
    (background.step s.productSubscriber y).map fun state => { s with productSubscriber := state }

/-- The demo client. A reply that cannot be read ends it. -/
def demoCaller (dump : Json → List UInt8) (parse : Parser) :
    Caller ClientProgram ClientAct (List UInt8) (List UInt8) where
  send c := some (c.nextMessage.1, dump c.nextMessage.2)
  receive c data :=
    match parse data with
    | .ok jmsg => (c.onReply jmsg).toOption
    | .error _ => none
  act c
    | .handleScenario => if c.started then c.handleScenario else none
    | .hendleNewEndpoints => if c.started then c.hendleNewEndpoints else none

/-- A server with its clients. -/
abbrev Session (κ σ : Type) : Type :=
  RequestReply.State κ (ClientService σ) ClientProgram (List UInt8) (List UInt8)

abbrev SessionEvent (κ Y : Type) : Type := RequestReply.Event κ Surroundings Y ClientAct

def sessionMachine {κ : Type} [DecidableEq κ] (dump : Json → List UInt8) (parse : Parser)
    (subscriber : ProductSubscriber σ) (background : Machine σ Y) :
    Machine (Session κ σ) (SessionEvent κ Y) :=
  machine (serviceServer dump parse subscriber background) (demoCaller dump parse)

/-- Nobody has asked for anything, and every client has its scenario. -/
def Session.initial {κ : Type} (productSubscriber : σ) (scenario : κ → List ScenarioEntry) :
    Session κ σ where
  server := { productSubscriber := productSubscriber }
  parties k := { state := { scenario := scenario k } }

end

/-! ## Messages -/

/-- An object of strings, as all messages between the service and its clients are. -/
def IsText (message : Json) : Prop := ∃ members, message = textObject members

/-- What is dumped is parsed as an object with the same members. -/
def Transmits (dump : Json → List UInt8) (parse : Parser) : Prop :=
  ∀ message, IsText message → ∃ jmsg, parse (dump message) = .ok jmsg ∧
    ∀ key, jmsg.stringMember key = message.stringMember key

theorem clientIdRequest_text : IsText clientIdRequest := ⟨_, rfl⟩

theorem heartbeatMessage_text (clientId : String) : IsText (heartbeatMessage clientId) := ⟨_, rfl⟩

theorem scenarioMessage_text (clientId : String) (entry : ScenarioEntry) :
    IsText (scenarioMessage clientId entry) := by
  unfold scenarioMessage
  split <;> exact ⟨_, rfl⟩

theorem registration_text (clientId : String) : IsText (registration clientId) :=
  ⟨[("type", "client_id_request"), ("client_id", clientId), ("status", "registered")], rfl⟩

theorem heartbeatReply_text (clientId : String) : IsText (heartbeatReply clientId) :=
  ⟨[("type", "heartbeat"), ("client_id", clientId)], rfl⟩

theorem errorReply_text (error : String) : IsText (errorReply error) :=
  ⟨[("type", "error"), ("error", error)], rfl⟩

theorem confirmation_text (type clientId productId : String) (endpoint : Endpoint) :
    IsText (ClientService.confirmation type clientId productId endpoint) :=
  ⟨[("type", type), ("client_id", clientId), ("product_id", productId),
    ("product_endpoint", "tcp://" ++ endpoint.address ++ ":" ++ endpoint.orderbookPort),
    ("trade_endpoint", "tcp://" ++ endpoint.address ++ ":" ++ endpoint.tradePort)], rfl⟩

end QuoteServer
