import QuoteServer.Transport.EndpointProvider

/-!
# ProductSubscriber: what the client service calls

The interface between the client service and the market. Whatever implements it finds
the same `EndpointProvider` as the service.
-/

namespace QuoteServer

/-- A call of a `ProductSubscriber`. -/
inductive SubscriberCall where
  | subscribe (clientId productId : String)
  | unsubscribe (clientId productId : String)
  deriving DecidableEq, Repr

namespace SubscriberCall

def clientId : SubscriberCall → String
  | .subscribe clientId _ => clientId
  | .unsubscribe clientId _ => clientId

def productId : SubscriberCall → String
  | .subscribe _ productId => productId
  | .unsubscribe _ productId => productId

/-- The type of the request for the call, and of its confirmation. -/
def type : SubscriberCall → String
  | .subscribe _ _ => "subscribe_request"
  | .unsubscribe _ _ => "unsubscribe_request"

theorem type_ne (c : SubscriberCall) {type : String} (hs : type ≠ "subscribe_request")
    (hu : type ≠ "unsubscribe_request") : c.type ≠ type := by
  cases c with
  | subscribe => exact hs.symm
  | unsubscribe => exact hu.symm

end SubscriberCall

/-- A `ProductSubscriber` with the state `σ`. -/
structure ProductSubscriber (σ : Type) where
  subscribe : EndpointProvider → σ → String → String → Except Fault σ
  unsubscribe : σ → String → String → Except Fault σ

namespace ProductSubscriber

variable {σ : Type}

def run (subscriber : ProductSubscriber σ) (provider : EndpointProvider) (state : σ) :
    SubscriberCall → Except Fault σ
  | .subscribe clientId productId => subscriber.subscribe provider state clientId productId
  | .unsubscribe clientId productId => subscriber.unsubscribe state clientId productId

/-- Every call returns. -/
def Returns (subscriber : ProductSubscriber σ) : Prop :=
  ∀ provider state c, ∃ state', subscriber.run provider state c = .ok state'

end ProductSubscriber

end QuoteServer
