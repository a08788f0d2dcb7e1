import Mathlib.Algebra.Group.Nat.Defs
import QuoteServer.Lib.Machine
import QuoteServer.Coinbase.MessageHandler

/-!
# CoinbaseFeedProduct: one product's messages, in order

A `CoinbaseFeedProduct` queues the messages of its product while a full order
book is being fetched, merges them into the book when it arrives, and from then
on lets a message through only when its sequence number follows the last one. A
larger number is a gap: the book is fetched again.

Three threads meet here. The websocket thread calls `onMessageReceived`, the
request thread runs `requestFullOrderBookImpl`, and the message thread runs
`messageLoop`. Each of the first two and the emptying of the queue is one
critical section of `m_messagesMutex`, so each is one event of the machine
`feedMachine`; handing the messages taken from the queue to the handler is not
protected, so every single one of them is an event of its own.
-/

namespace QuoteServer

open EventMachine

/-- One `json` of `m_messageQueue`. The constructor tells which of the two pushes
put it there, and `toMerge` is a record of what the book has under `to_merge`, each
message as it was queued before; no function of the code reads either. -/
inductive Queued where
  /-- Pushed back by `onMessageReceived`. -/
  | message (jmsg : Json)
  /-- Pushed front by `requestFullOrderBookImpl`. -/
  | fullOrderBook (orderBookMsg : Json) (toMerge : List Queued)

/-- The `json` itself. -/
def Queued.json : Queued → Json
  | .message jmsg => jmsg
  | .fullOrderBook orderBookMsg _ => orderBookMsg

/-- The sequence number a message carries, `0` if it carries none. -/
def seqOf (jmsg : Json) : Nat :=
  match jmsg.unsignedAt "sequence" with
  | .ok n => n
  | .error _ => 0

/-- The messages under `to_merge`. -/
def toMergeOf : Json → List Json
  | .object members =>
    match members.lookup "to_merge" with
    | some value => value.items
    | none => []
  | _ => []

/-- The queued messages with a sequence number above `S`, as they are queued. -/
def newerQueued (S : Nat) (queue : List Queued) : List Queued :=
  queue.filter fun queued => S < seqOf queued.json

/-- The record of a book with number `S` that is merged with a queue: what the answer
brought under `to_merge`, and then the newer messages. -/
def mergeRecord (orderBookMsg : Json) (S : Nat) (queue : List Queued) : List Queued :=
  (toMergeOf orderBookMsg).map .message ++ newerQueued S queue

structure CoinbaseFeedProduct where
  productId : String
  messageQueue : List Queued := []
  /-- A `long unsigned`. -/
  lastSequenceNumber : Nat := 0
  requestingOrderbook : Bool := true
  /-- A run of `requestFullOrderBookImpl` has not yet returned. -/
  requestRunning : Bool := true
  /-- How many runs of `requestFullOrderBookImpl` were started, the constructor's
  included. -/
  requests : Nat := 1

/-- What `RestTransport::request` returned: an empty string, a text the parser
rejects, or a text that parses. -/
inductive RestBody where
  | empty
  | malformed
  | json (orderBookMsg : Json)

namespace CoinbaseFeedProduct

/-- `requestFullOrderBook`. The thread it joins has left its critical section:
only that section clears `m_requestingOrderbook`. -/
def requestFullOrderBook (p : CoinbaseFeedProduct) : CoinbaseFeedProduct :=
  { p with
    requestingOrderbook := true
    requestRunning := true
    requests := p.requests + 1 }

def onMessageReceived (p : CoinbaseFeedProduct) (message : Json) :
    Except Fault CoinbaseFeedProduct := do
  let sequence ← message.unsignedAt "sequence"
  if p.requestingOrderbook then
    return { p with messageQueue := p.messageQueue ++ [.message message] }
  else if sequence > (p.lastSequenceNumber + 1) % 2 ^ 64 then
    return { p with lastSequenceNumber := 0 }.requestFullOrderBook
  else if sequence ≤ p.lastSequenceNumber then
    return p
  else
    return { p with
      messageQueue := p.messageQueue ++ [.message message]
      lastSequenceNumber := sequence }

/-- The loop of `requestFullOrderBookImpl` over the queue: the book with the newer
messages under `to_merge`, and `m_lastSequenceNumber`. -/
def mergeQueue (orderBookSequence : Nat) :
    List Queued → Json → Nat → Except Fault (Json × Nat)
  | [], orderBookMsg, lastSequenceNumber => return (orderBookMsg, lastSequenceNumber)
  | queued :: queue, orderBookMsg, lastSequenceNumber => do
    if queued.json.contains "sequence" then
      let sequence ← queued.json.unsignedAt "sequence"
      if sequence > orderBookSequence then
        let orderBookMsg ← orderBookMsg.pushBackAt "to_merge" queued.json
        mergeQueue orderBookSequence queue orderBookMsg sequence
      else
        mergeQueue orderBookSequence queue orderBookMsg lastSequenceNumber
    else
      mergeQueue orderBookSequence queue orderBookMsg lastSequenceNumber

def requestFullOrderBookImpl (p : CoinbaseFeedProduct) (fullOrderbookMessage : RestBody) :
    Except Fault CoinbaseFeedProduct :=
  match fullOrderbookMessage with
  | .empty => return { p with requestRunning := false }
  | .malformed => throw .parseError
  | .json orderBookMsg =>
    if orderBookMsg.contains "sequence" then do
      let orderBookSequence ← orderBookMsg.unsignedAt "sequence"
      if orderBookSequence = 0 then
        return { p with requestRunning := false }
      else
        let merged ← mergeQueue orderBookSequence p.messageQueue orderBookMsg
          orderBookSequence
        return { p with
          lastSequenceNumber := merged.2
          messageQueue := [.fullOrderBook merged.1
            (mergeRecord orderBookMsg orderBookSequence p.messageQueue)]
          requestingOrderbook := false
          requestRunning := false }
    else
      return { p with requestRunning := false }

/-- The critical section of `messageLoop`: what it leaves and what it takes. -/
def takeMessages (p : CoinbaseFeedProduct) : CoinbaseFeedProduct × List Queued :=
  if p.requestingOrderbook then (p, [])
  else ({ p with messageQueue := [] }, p.messageQueue)

end CoinbaseFeedProduct

/-- A running `CoinbaseFeedProduct`: the object, the local `messages` of
`messageLoop`, and two records of what it did. -/
structure FeedState (FloatingP : Type) where
  product : CoinbaseFeedProduct
  /-- Taken from the queue, not yet handed to `m_msgHandler`. -/
  messages : List Queued := []
  /-- Everything handed to `m_msgHandler`, in order. -/
  handed : List Queued := []
  /-- Everything the handler passed on to the listener, in order. -/
  emitted : List (ProductChange FloatingP) := []

inductive FeedEvent where
  /-- The websocket thread delivers a message. -/
  | arrive (message : Json)
  /-- The request thread got its answer and runs to its end. -/
  | complete (fullOrderbookMessage : RestBody)
  /-- The message thread empties the queue. -/
  | take
  /-- The message thread hands its next message to the handler. -/
  | hand

variable {FloatingP : Type} [FloatingPoint FloatingP]

/-- One event. An exception leaves no state to go on from: it ends the thread
that threw it, and the process with it. -/
def FeedState.step (s : FeedState FloatingP) : FeedEvent → Option (FeedState FloatingP)
  | .arrive message =>
    match s.product.onMessageReceived message with
    | .ok product => some { s with product := product }
    | .error _ => none
  | .complete fullOrderbookMessage =>
    if s.product.requestRunning then
      match s.product.requestFullOrderBookImpl fullOrderbookMessage with
      | .ok product => some { s with product := product }
      | .error _ => none
    else none
  | .take =>
    if s.messages.isEmpty then
      some { s with product := s.product.takeMessages.1
                    messages := s.product.takeMessages.2 }
    else none
  | .hand =>
    match s.messages with
    | [] => none
    | queued :: messages =>
      match CoinbaseFeedMessageHandler.getProductChange s.product.productId queued.json with
      | .ok pc => some { s with messages := messages
                                handed := s.handed ++ [queued]
                                emitted := s.emitted ++ pc.toList }
      | .error _ => none

/-- A product as its constructor leaves it. -/
def FeedState.initial (productId : String) : FeedState FloatingP :=
  { product := { productId := productId } }

def feedMachine (FloatingP : Type) [FloatingPoint FloatingP] :
    Machine (FeedState FloatingP) FeedEvent where
  step := FeedState.step

/-- The messages that arrived, in order. -/
def arrivals (es : List FeedEvent) : List Json :=
  es.filterMap fun
    | .arrive message => some message
    | _ => none

/-! ## The messages of the feed tests -/

/-- `doneMsg` of the feed tests. -/
def doneMsg (side orderId : String) (seq : UInt64) : Json :=
  .object [("type", .string "done"), ("product_id", .string "ETH-USD"),
    ("order_id", .string orderId), ("client_id", .string "1"),
    ("size", .string "100"), ("price", .string "100"),
    ("sequence", .unsigned seq), ("side", .string side)]

/-- The answer of the tests' `RestTransport::request`: a book of orders, each a
price, a size and an id. -/
def bookMsg (seq : UInt64) (bids asks : List (String × String × String)) : Json :=
  .object [("sequence", .unsigned seq), ("bids", .array (bids.map order)),
    ("asks", .array (asks.map order))]
where
  order (o : String × String × String) : Json :=
    .array [.string o.1, .string o.2.1, .string o.2.2]

/-! ## Reading sequence numbers and merged messages back -/

/-- The queued messages with a sequence number above `S`. -/
def newer (S : Nat) (queue : List Queued) : List Json :=
  (queue.map Queued.json).filter fun jmsg => S < seqOf jmsg

theorem seqOf_of_ok {jmsg : Json} {n : Nat} (h : jmsg.unsignedAt "sequence" = .ok n) :
    seqOf jmsg = n := by
  rw [seqOf, h]

/-- A message without a sequence number counts as number `0`. -/
theorem seqOf_of_not_contains {jmsg : Json} (h : jmsg.contains "sequence" = false) :
    seqOf jmsg = 0 := by
  obtain ⟨e, he⟩ := Json.constIndex_of_not_contains h
  rw [seqOf, Json.unsignedAt, he]
  rfl

@[simp] theorem newer_nil (S : Nat) : newer S [] = [] := rfl

theorem newer_append (S : Nat) (q q' : List Queued) :
    newer S (q ++ q') = newer S q ++ newer S q' := by
  simp [newer]

@[simp] theorem json_messages (jmsgs : List Json) :
    (jmsgs.map Queued.message).map Queued.json = jmsgs := by
  induction jmsgs with
  | nil => rfl
  | cons j js ih => rw [List.map_cons, List.map_cons, ih, Queued.json]

/-- The newer ones of some messages that were queued as they came. -/
theorem newer_messages (S : Nat) (jmsgs : List Json) :
    newer S (jmsgs.map .message) = jmsgs.filter fun jmsg => S < seqOf jmsg := by
  rw [newer, json_messages]

/-- Both readings of the newer messages agree. -/
theorem newerQueued_json (S : Nat) (queue : List Queued) :
    (newerQueued S queue).map Queued.json = newer S queue := by
  rw [newerQueued, newer, List.filter_map]
  rfl

theorem mem_newerQueued {S : Nat} {queue : List Queued} {queued : Queued} :
    queued ∈ newerQueued S queue ↔ queued ∈ queue ∧ S < seqOf queued.json := by
  rw [newerQueued, List.mem_filter, decide_eq_true_eq]

/-- Of messages that were queued as they came, the newer ones are. -/
theorem newerQueued_messages (S : Nat) (jmsgs : List Json) :
    newerQueued S (jmsgs.map .message) =
      (jmsgs.filter fun jmsg => S < seqOf jmsg).map .message := by
  rw [newerQueued, List.filter_map]
  rfl

theorem newer_cons (S : Nat) (queued : Queued) (queue : List Queued) :
    newer S (queued :: queue) =
      if S < seqOf queued.json then queued.json :: newer S queue
      else newer S queue := by
  simp [newer, List.filter_cons]

/-- Pushing under `to_merge` of an object adds one merged message and leaves every
other member as it is. -/
theorem pushBackAt_toMerge {members : List (String × Json)} {j' v : Json}
    (h : (Json.object members).pushBackAt "to_merge" v = .ok j') :
    ∃ members', j' = .object members' ∧
      (∀ key, key ≠ "to_merge" → members'.lookup key = members.lookup key) ∧
      toMergeOf j' = toMergeOf (.object members) ++ [v] := by
  obtain ⟨pushed, hpush, hj⟩ := bind_eq_ok.mp h
  cases hj
  refine ⟨_, rfl, fun key hkey => Json.lookup_assign_ne members pushed hkey, ?_⟩
  show (match (Json.assign members "to_merge" pushed).lookup "to_merge" with
    | some value => value.items
    | none => []) = _
  rw [Json.lookup_assign_self]
  show pushed.items = (match members.lookup "to_merge" with
    | some value => value.items
    | none => []) ++ [v]
  cases hl : members.lookup "to_merge" with
  | none =>
    rw [hl] at hpush
    cases hpush
    rfl
  | some old =>
    rw [hl] at hpush
    -- `push_back` accepts only `null` and arrays
    cases old with
    | null =>
      cases hpush
      rfl
    | array elements =>
      cases hpush
      rfl
    | _ => cases hpush

end QuoteServer
