import Mathlib.Data.Finset.Insert
import QuoteServer.Lib.Machine
import QuoteServer.Product.ProductSubscriber

/-!
# ClientService: the request loop

`runImpl` receives a request on its REP socket, and from the branch the request takes it
sends a reply, or two, or none. A branch may throw at any point, and what it did before
that stays done. So a branch is a program over the service's state that may fail,
`ServiceM`, and the two records `sent` and `calls` are part of that state.

Only a `parse_error` is caught inside the loop. Any other exception leaves the loop, and
with it the thread: that is the end of the service.
-/

namespace QuoteServer

open EventMachine

structure ClientService (σ : Type) where
  registeredClientIds : Finset String := ∅
  productSubscriber : σ
  /-- The instance behind `EndpointProvider::getInstance`, built on the first use. -/
  provider : Option EndpointProvider := none
  /-- Everything sent on the socket, in order. -/
  sent : List Json := []
  /-- Every call of the `ProductSubscriber`, in order. -/
  calls : List SubscriberCall := []

/-- What one iteration finds outside the service. -/
structure Request where
  /-- The bytes received. -/
  data : List UInt8
  /-- What `generate_uuid` returns if it is called. -/
  uuid : String
  /-- The list of products, as the exchange returns it if it is asked. -/
  products : List UInt8

/-- Programs over the service that may throw, and then keep what they have done. -/
abbrev ServiceM (σ : Type) : Type → Type := EStateM Fault (ClientService σ)

namespace ClientService

variable {σ : Type}

/-- `json::parse`, a function of the library. -/
abbrev Parser : Type := List UInt8 → Except ParseFault Json

/-! ## What the branches are made of -/

/-- A call that touches nothing of the service. -/
def call {α : Type} (x : Except Fault α) : ServiceM σ α := fun s =>
  match x with
  | .ok a => .ok a s
  | .error e => .error e s

def parseJson (parse : Parser) (data : List UInt8) : ServiceM σ Json :=
  call ((parse data).mapError ParseFault.fault)

def send (message : Json) : ServiceM σ Unit :=
  modify fun s => { s with sent := s.sent ++ [message] }

def insertClientId (clientId : String) : ServiceM σ Unit :=
  modify fun s => { s with registeredClientIds := insert clientId s.registeredClientIds }

def isRegistered (clientId : String) : ServiceM σ Bool := do
  return clientId ∈ (← get).registeredClientIds

/-- `EndpointProvider::getInstance`. A constructor that throws leaves no instance. -/
def getInstance (parse : Parser) (products : List UInt8) : ServiceM σ EndpointProvider := do
  match (← get).provider with
  | some provider => return provider
  | none =>
    let results := (parse products).mapError ParseFault.fault
    let provider ← call (EndpointProvider.ofProducts results)
    modify fun s => { s with provider := some provider }
    return provider

def callSubscriber (subscriber : ProductSubscriber σ) (provider : EndpointProvider)
    (c : SubscriberCall) : ServiceM σ Unit := do
  modify fun s => { s with calls := s.calls ++ [c] }
  let state ← call (subscriber.run provider (← get).productSubscriber c)
  modify fun s => { s with productSubscriber := state }

/-- `const std::string value = jmsg[key]`. -/
def stringOf (jmsg : Json) (key : String) : ServiceM σ String := do
  let value ← call (jmsg.mutIndex key)
  call value.getString

/-! ## The replies -/

def errorReply (error : String) : Json :=
  .object [("type", .string "error"), ("error", .string error)]

def unsupportedType (type : Json) : Json :=
  .object [("type", .string "error"), ("error", .string "usnsupported message type"),
    ("message_type", type)]

def registration (clientId : String) : Json :=
  .object [("type", .string "client_id_request"), ("client_id", .string clientId),
    ("status", .string "registered")]

def heartbeatReply (clientId : String) : Json :=
  .object [("type", .string "heartbeat"), ("client_id", .string clientId)]

/-- The reply to a call of the `ProductSubscriber` that returned. -/
def confirmation (type clientId productId : String) (endpoint : Endpoint) : Json :=
  .object [("type", .string type), ("client_id", .string clientId),
    ("product_id", .string productId),
    ("product_endpoint",
      .string ("tcp://" ++ endpoint.address ++ ":" ++ endpoint.orderbookPort)),
    ("trade_endpoint", .string ("tcp://" ++ endpoint.address ++ ":" ++ endpoint.tradePort))]

@[simp] theorem errorReply_type (error : String) :
    (errorReply error).stringMember "type" = some "error" := rfl

@[simp] theorem unsupportedType_type (type : Json) :
    (unsupportedType type).stringMember "type" = some "error" := rfl

@[simp] theorem registration_type (clientId : String) :
    (registration clientId).stringMember "type" = some "client_id_request" := rfl

@[simp] theorem heartbeatReply_type (clientId : String) :
    (heartbeatReply clientId).stringMember "type" = some "heartbeat" := rfl

@[simp] theorem confirmation_type (type clientId productId : String) (endpoint : Endpoint) :
    (confirmation type clientId productId endpoint).stringMember "type" = some type := rfl

/-! ## The branches of `runImpl` -/

def clientIdRequest (uuid : String) : ServiceM σ Unit := do
  send (registration uuid)
  insertClientId uuid

/-- The error after the two checks, each of which overwrites the one before. -/
def checkError (error : String) (registered known : Bool) : String :=
  if !known then "UnknownProductId"
  else if !registered then "UnknownClientId"
  else error

/-- The two subscription branches from the conversions on. `error` is what the branch
set before them, and `act` is what it does when the checks set none. -/
def subscription (parse : Parser) (products : List UInt8) (type error : String) (jmsg : Json)
    (act : EndpointProvider → String → String → ServiceM σ Unit) : ServiceM σ Unit := do
  let clientId ← stringOf jmsg "client_id"
  let productId ← stringOf jmsg "product_id"
  let registered ← isRegistered clientId
  let provider ← getInstance parse products
  let error := checkError error registered (provider.contains productId)
  if error = "" then
    act provider clientId productId
    let endpoint ← call (provider.prodIdToPort productId)
    send (confirmation type clientId productId endpoint)
  else
    send (errorReply error)

def subscribeRequest (parse : Parser) (subscriber : ProductSubscriber σ) (products : List UInt8)
    (jmsg : Json) : ServiceM σ Unit :=
  if !jmsg.contains "client_id" then
    -- `continue`, and nothing was sent
    return ()
  else if !jmsg.contains "product_id" then
    return ()
  else
    subscription parse products "subscribe_request" "" jmsg fun provider clientId productId => do
      callSubscriber subscriber provider (.subscribe clientId productId)
      insertClientId clientId

def unsubscribeRequest (parse : Parser) (subscriber : ProductSubscriber σ)
    (products : List UInt8) (jmsg : Json) : ServiceM σ Unit :=
  let error :=
    if !jmsg.contains "product_id" then "MalformedMsgNoProduct"
    else if !jmsg.contains "client_id" then "MalformedMsgNoClient"
    else ""
  -- the branch goes on, and converts the missing member
  subscription parse products "unsubscribe_request" error jmsg fun provider clientId productId =>
    callSubscriber subscriber provider (.unsubscribe clientId productId)

def heartbeat (jmsg : Json) : ServiceM σ Unit := do
  let error := if !jmsg.contains "client_id" then "MalformedMsgNoClient" else ""
  let clientId ← stringOf jmsg "client_id"
  let error := if !(← isRegistered clientId) then "UnknownClientId" else error
  if error = "" then
    send (heartbeatReply clientId)
  else
    send (errorReply error)

/-- The branches for a message with a `type`. -/
def handleType (parse : Parser) (subscriber : ProductSubscriber σ) (r : Request) (jmsg : Json)
    (type : Json) : ServiceM σ Unit :=
  if type.isString "client_id_request" then clientIdRequest r.uuid
  else if type.isString "subscribe_request" then subscribeRequest parse subscriber r.products jmsg
  else if type.isString "unsubscribe_request" then
    unsubscribeRequest parse subscriber r.products jmsg
  else if type.isString "heartbeat" then heartbeat jmsg
  else send (unsupportedType type)

/-- The body of the `try`. -/
def handle (parse : Parser) (subscriber : ProductSubscriber σ) (r : Request) :
    ServiceM σ Unit := do
  let jmsg ← parseJson parse r.data
  if jmsg.contains "type" then
    let type ← call (jmsg.mutIndex "type")
    handleType parse subscriber r jmsg type
  else
    send (errorReply "usnsupported message")

/-- One iteration of the loop, after `recv`. -/
def iteration (parse : Parser) (subscriber : ProductSubscriber σ) (r : Request) :
    ServiceM σ Unit := fun s =>
  match handle parse subscriber r s with
  | .ok () s' => .ok () s'
  | .error .parseError s' => send (errorReply "Invalid message") s'
  | .error e s' => .error e s'

/-- The loop as a machine: it goes on after an iteration that no exception left. -/
def serviceMachine (parse : Parser) (subscriber : ProductSubscriber σ) :
    Machine (ClientService σ) Request where
  step s r :=
    match iteration parse subscriber r s with
    | .ok () s' => some s'
    | .error _ _ => none

theorem serviceMachine_step {parse : Parser} {subscriber : ProductSubscriber σ} {r : Request}
    {s s' : ClientService σ} : (serviceMachine parse subscriber).step s r = some s' ↔
      iteration parse subscriber r s = .ok () s' := by
  unfold serviceMachine
  dsimp only
  cases iteration parse subscriber r s with
  | ok a t => simp
  | error e t => simp

end ClientService

end QuoteServer
