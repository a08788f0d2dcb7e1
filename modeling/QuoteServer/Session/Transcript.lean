import QuoteServer.ClientService.Served
import QuoteServer.DemoClient.Listening
import QuoteServer.Session.Session

/-!
# What a client and the service say to one another

Seen from one client, a session is a *transcript*: the request for an id and the id, and
then heartbeats that are returned and entries of the scenario, each confirmed or refused,
in the order of the scenario. This is so in every interleaving with any other clients
(`session_spoken`): nobody is answered twice or with the reply for another client,
no id is forgotten, and no entry is lost, sent twice or overtaken by another.

The subscriber is called for the confirmed entries, and for nothing else.
-/

namespace QuoteServer

open EventMachine RequestReply ClientService

/-- An entry that was answered: by a confirmation with an endpoint, or by an error. -/
structure AnsweredEntry where
  entry : ScenarioEntry
  endpoint : Option Endpoint
  deriving DecidableEq

/-- The call made for it. -/
def AnsweredEntry.call (clientId : String) (answered : AnsweredEntry) : Option SubscriberCall :=
  answered.endpoint.map fun _ => answered.entry.call clientId

/-- A request of the client `k` and the reply to it. -/
def exchange {κ : Type} (dump : Json → List UInt8) (k : κ) (request reply : Json) :
    Exchange κ (List UInt8) (List UInt8) :=
  { party := k, request := dump request, replies := [dump reply] }

/-- The reply that confirms an entry. -/
def entryConfirmation (clientId : String) (entry : ScenarioEntry) (endpoint : Endpoint) : Json :=
  ClientService.confirmation (entry.call clientId).type clientId entry.productId endpoint

/-- Everything the client `k` and the service said to one another since it got the id
`clientId`, and the entries that were answered. `Unlisted` is what it takes that the table
of endpoints could not be read from the exchange's list of products. -/
inductive Transcript {κ : Type} (dump : Json → List UInt8) (Unlisted : Prop) (k : κ)
    (clientId : String) (table : Option EndpointProvider) :
    List (Exchange κ (List UInt8) (List UInt8)) → List AnsweredEntry → Prop where
  | registered :
    Transcript dump Unlisted k clientId table
      [exchange dump k clientIdRequest (registration clientId)] []
  | heartbeat {xs : List (Exchange κ (List UInt8) (List UInt8))} {entries : List AnsweredEntry}
    (h : Transcript dump Unlisted k clientId table xs entries) :
    Transcript dump Unlisted k clientId table
      (xs ++ [exchange dump k (heartbeatMessage clientId) (heartbeatReply clientId)]) entries
  | confirmed {xs : List (Exchange κ (List UInt8) (List UInt8))} {entries : List AnsweredEntry}
    {entry : ScenarioEntry} {provider : EndpointProvider} {endpoint : Endpoint}
    (h : Transcript dump Unlisted k clientId table xs entries) (htable : table = some provider)
    (hproduct : provider.prodIdToPort entry.productId = .ok endpoint) :
    Transcript dump Unlisted k clientId table
      (xs ++ [exchange dump k (scenarioMessage clientId entry)
        (entryConfirmation clientId entry endpoint)])
      (entries ++ [⟨entry, some endpoint⟩])
  | unknown {xs : List (Exchange κ (List UInt8) (List UInt8))} {entries : List AnsweredEntry}
    {entry : ScenarioEntry} {provider : EndpointProvider} {error : String}
    (h : Transcript dump Unlisted k clientId table xs entries) (htable : table = some provider)
    (hproduct : provider.contains entry.productId = false) :
    Transcript dump Unlisted k clientId table
      (xs ++ [exchange dump k (scenarioMessage clientId entry) (errorReply error)])
      (entries ++ [⟨entry, none⟩])
  | unlisted {xs : List (Exchange κ (List UInt8) (List UInt8))} {entries : List AnsweredEntry}
    {entry : ScenarioEntry} (h : Transcript dump Unlisted k clientId table xs entries)
    (hunlisted : Unlisted) :
    Transcript dump Unlisted k clientId table
      (xs ++ [exchange dump k (scenarioMessage clientId entry) (errorReply "Invalid message")])
      (entries ++ [⟨entry, none⟩])

/-! ## What holds of a client -/

section

variable {κ σ : Type} {dump : Json → List UInt8} {Unlisted : Prop} {k : κ}

/-- A table that is built later has nothing to do with what was said before. -/
theorem Transcript.grows {clientId : String} {s s' : ClientService σ}
    {xs : List (Exchange κ (List UInt8) (List UInt8))} {entries : List AnsweredEntry}
    (h : Transcript dump Unlisted k clientId s.provider xs entries) (hs : ServiceGrows s s') :
    Transcript dump Unlisted k clientId s'.provider xs entries := by
  induction h with
  | registered => exact .registered
  | heartbeat _ ih => exact ih.heartbeat
  | confirmed _ htable hproduct ih => exact ih.confirmed (hs.provider _ htable) hproduct
  | unknown _ htable hproduct ih => exact ih.unknown (hs.provider _ htable) hproduct
  | unlisted _ hunlisted ih => exact ih.unlisted hunlisted

/-- The confirmation that a client hears for an entry. -/
def AnsweredEntry.confirmation (answered : AnsweredEntry) : Option Confirmation :=
  answered.endpoint.map fun endpoint => {
    kind := if answered.entry.subscribe then .subscribe else .unsubscribe
    productEndpoint := "tcp://" ++ endpoint.address ++ ":" ++ endpoint.orderbookPort
    tradeEndpoint := "tcp://" ++ endpoint.address ++ ":" ++ endpoint.tradePort }

/-- The confirmation in an event of the demo client. -/
def DemoClient.Event.confirmation : DemoClient.Event → Option Confirmation
  | .message jmsg => QuoteServer.confirmation jmsg
  | .wakeUp => none

/-- The threads of the demo client have handled the replies for these entries. -/
def Heard (demo : DemoClient) (entries : List AnsweredEntry) : Prop :=
  ∃ es, DemoClient.clientMachine.run (.running {}) es = some (.running demo) ∧
    es.filterMap DemoClient.Event.confirmation = entries.filterMap AnsweredEntry.confirmation

/-- The client has its id, and said this to the service and heard this. -/
structure Conversing (dump : Json → List UInt8) (Unlisted : Prop) (s : ClientService σ)
    (xs : List (Exchange κ (List UInt8) (List UInt8))) (k : κ) (c : ClientProgram)
    (entries : List AnsweredEntry) : Prop where
  started : c.started = true
  registered : c.clientId ∈ s.registeredClientIds
  transcript : Transcript dump Unlisted k c.clientId s.provider xs entries

/-- The client does not wait. -/
inductive SessionIdle (dump : Json → List UInt8) (Unlisted : Prop) (s : ClientService σ)
    (xs : List (Exchange κ (List UInt8) (List UInt8))) (k : κ) (c : ClientProgram) : Prop where
  | new (hstarted : c.started = false) (hnothing : xs = []) (htaken : c.taken = [])
    (hheard : Heard c.demo [])
  | conversing (entries : List AnsweredEntry) (h : Conversing dump Unlisted s xs k c entries)
    (htaken : c.taken = entries.map AnsweredEntry.entry) (hheard : Heard c.demo entries)

/-- A request of the client is under way. -/
inductive SessionAsked (dump : Json → List UInt8) (Unlisted : Prop) (s : ClientService σ)
    (xs : List (Exchange κ (List UInt8) (List UInt8))) (k : κ) (c : ClientProgram)
    (data : List UInt8) : Prop where
  | clientId (hstarted : c.started = true) (hnothing : xs = []) (htaken : c.taken = [])
    (hheard : Heard c.demo []) (hdata : data = dump clientIdRequest)
  | heartbeat (entries : List AnsweredEntry) (h : Conversing dump Unlisted s xs k c entries)
    (htaken : c.taken = entries.map AnsweredEntry.entry) (hheard : Heard c.demo entries)
    (hdata : data = dump (heartbeatMessage c.clientId))
  | entry (entries : List AnsweredEntry) (entry : ScenarioEntry)
    (h : Conversing dump Unlisted s xs k c entries)
    (htaken : c.taken = entries.map AnsweredEntry.entry ++ [entry]) (hheard : Heard c.demo entries)
    (hdata : data = dump (scenarioMessage c.clientId entry))

/-- A reply to the client is under way. -/
inductive SessionAnswered (dump : Json → List UInt8) (Unlisted : Prop) (s : ClientService σ)
    (xs : List (Exchange κ (List UInt8) (List UInt8))) (k : κ) (c : ClientProgram)
    (data : List UInt8) : Prop where
  | clientId (clientId : String) (hstarted : c.started = true)
    (hregistered : clientId ∈ s.registeredClientIds)
    (htranscript : Transcript dump Unlisted k clientId s.provider xs []) (htaken : c.taken = [])
    (hheard : Heard c.demo []) (hdata : data = dump (registration clientId))
  | heartbeat (entries : List AnsweredEntry) (h : Conversing dump Unlisted s xs k c entries)
    (htaken : c.taken = entries.map AnsweredEntry.entry) (hheard : Heard c.demo entries)
    (hdata : data = dump (heartbeatReply c.clientId))
  | confirmed (entries : List AnsweredEntry) (entry : ScenarioEntry) (endpoint : Endpoint)
    (h : Conversing dump Unlisted s xs k c (entries ++ [⟨entry, some endpoint⟩]))
    (htaken : c.taken = entries.map AnsweredEntry.entry ++ [entry]) (hheard : Heard c.demo entries)
    (hdata : data = dump (entryConfirmation c.clientId entry endpoint))
  | refused (entries : List AnsweredEntry) (entry : ScenarioEntry) (error : String)
    (h : Conversing dump Unlisted s xs k c (entries ++ [⟨entry, none⟩]))
    (htaken : c.taken = entries.map AnsweredEntry.entry ++ [entry]) (hheard : Heard c.demo entries)
    (hdata : data = dump (errorReply error))

end

end QuoteServer
