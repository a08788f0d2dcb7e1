import Mathlib.Logic.Function.Basic
import QuoteServer.Coinbase.FeedProduct

/-!
# CoinbaseFeedClient: the subscriptions at the exchange

The feed client owns a `CoinbaseFeedProduct` for each product it is subscribed to. A
subscription connects the websocket if it is not connected yet, creates the product
unless there is one, and tells the exchange; cancelling it tells the exchange and
destroys the product.
-/

namespace QuoteServer

/-! ## Tables -/

section

variable {α : Type} (table : String → Option α) (p q : String)

/-- A key has an entry after an assignment if it is the key assigned to or had one. -/
theorem isSome_update_some (a : α) :
    (Function.update table p (some a) q).isSome = true ↔
      q = p ∨ (table q).isSome = true := by
  by_cases h : q = p
  · simp [h]
  · simp [h]

/-- It has one after an erasure if it is not the key erased and had one. -/
theorem isSome_update_none :
    (Function.update table p none q).isSome = true ↔ q ≠ p ∧ (table q).isSome = true := by
  by_cases h : q = p
  · simp [h]
  · simp [h]

end

/-! ## The client -/

variable {FloatingP : Type}

structure CoinbaseFeedClient (FloatingP : Type) where
  connected : Bool := false
  prodIdToListener : String → Option (FeedState FloatingP) := fun _ => none
  /-- What was sent through the websocket, in order. -/
  sent : List Json := []

namespace CoinbaseFeedClient

def generateSubscribeMessage (productId : String) : Json :=
  .object [("type", .string "subscribe"), ("product_ids", .array [.string productId]),
    ("channels", .array [.string "full", .string "heartbeat", .string "ticker"])]

def generateUnsubscribeMessage (productId : String) : Json :=
  .object [("type", .string "unsubscribe"), ("product_ids", .array [.string productId]),
    ("channels", .array [.string "ticker", .string "full", .string "heartbeat"])]

def subscribe (client : CoinbaseFeedClient FloatingP) (productId : String) :
    CoinbaseFeedClient FloatingP :=
  { connected := true
    prodIdToListener :=
      if (client.prodIdToListener productId).isSome then client.prodIdToListener
      else Function.update client.prodIdToListener productId (some (.initial productId))
    sent := client.sent ++ [generateSubscribeMessage productId] }

def unsubscribe (client : CoinbaseFeedClient FloatingP) (productId : String) :
    CoinbaseFeedClient FloatingP :=
  { client with
    sent := client.sent ++ [generateUnsubscribeMessage productId]
    prodIdToListener := Function.update client.prodIdToListener productId none }

/-- The client with another state of one of its products. -/
def setListener (client : CoinbaseFeedClient FloatingP) (productId : String)
    (listener : FeedState FloatingP) : CoinbaseFeedClient FloatingP :=
  { client with
    prodIdToListener := Function.update client.prodIdToListener productId (some listener) }

@[simp] theorem setListener_self (client : CoinbaseFeedClient FloatingP) (p : String)
    (listener : FeedState FloatingP) :
    (client.setListener p listener).prodIdToListener p = some listener := Function.update_self ..

theorem setListener_ne (client : CoinbaseFeedClient FloatingP) {p q : String}
    (listener : FeedState FloatingP) (h : q ≠ p) :
    (client.setListener p listener).prodIdToListener q = client.prodIdToListener q :=
  Function.update_of_ne h ..

/-- A subscription concerns its own product only. -/
theorem subscribe_listener_ne (client : CoinbaseFeedClient FloatingP) {p q : String}
    (h : q ≠ p) : (client.subscribe p).prodIdToListener q = client.prodIdToListener q := by
  by_cases hp : (client.prodIdToListener p).isSome = true
  · simp [subscribe, hp]
  · simp [subscribe, hp, h]

/-- A product that is not there is created. -/
theorem subscribe_listener_none (client : CoinbaseFeedClient FloatingP) {p : String}
    (h : client.prodIdToListener p = none) :
    (client.subscribe p).prodIdToListener p = some (.initial p) := by
  simp [subscribe, h]

/-- A product that is there stays as it is. -/
theorem subscribe_listener_self (client : CoinbaseFeedClient FloatingP) (p : String) :
    (client.subscribe p).prodIdToListener p =
      some ((client.prodIdToListener p).getD (.initial p)) := by
  cases h : client.prodIdToListener p with
  | none => exact client.subscribe_listener_none h
  | some listener => simp [subscribe, h]

/-- Whether it was created now or before, the product is there. -/
theorem subscribe_listener_isSome (client : CoinbaseFeedClient FloatingP) (p q : String) :
    ((client.subscribe p).prodIdToListener q).isSome = true ↔
      q = p ∨ (client.prodIdToListener q).isSome = true := by
  by_cases hp : (client.prodIdToListener p).isSome = true
  · have hsame : (client.subscribe p).prodIdToListener = client.prodIdToListener := if_pos hp
    rw [hsame]
    constructor
    · exact .inr
    · rintro (rfl | hq)
      · exact hp
      · exact hq
  · have hnew : (client.subscribe p).prodIdToListener =
        Function.update client.prodIdToListener p (some (.initial p)) := if_neg hp
    rw [hnew]
    exact isSome_update_some ..

theorem unsubscribe_listener_isSome (client : CoinbaseFeedClient FloatingP) (p q : String) :
    ((client.unsubscribe p).prodIdToListener q).isSome = true ↔
      q ≠ p ∧ (client.prodIdToListener q).isSome = true := isSome_update_none ..

@[simp] theorem unsubscribe_listener_self (client : CoinbaseFeedClient FloatingP)
    (p : String) : (client.unsubscribe p).prodIdToListener p = none :=
  Function.update_self ..

theorem unsubscribe_listener_ne (client : CoinbaseFeedClient FloatingP) {p q : String}
    (h : q ≠ p) : (client.unsubscribe p).prodIdToListener q = client.prodIdToListener q :=
  Function.update_of_ne h ..

end CoinbaseFeedClient

end QuoteServer
