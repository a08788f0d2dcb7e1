import QuoteServer.Json

/-!
# EndpointProvider: where a product is published

The table of endpoints is built once, from the exchange's list of products: every
product that is online gets the next order book port and the next trade port.
`prodIdToPort` asserts that the table has the product.
-/

namespace QuoteServer

structure Endpoint where
  address : String
  orderbookPort : String
  tradePort : String
  deriving DecidableEq, Repr

/-- The table `productIds`. -/
structure EndpointProvider where
  productIds : List (String × Endpoint) := []

namespace EndpointProvider

/-- The loop of the constructor, from the ports it has reached. An id that is already
in the table keeps its endpoint. -/
def insertOnline : List Json → EndpointProvider → Nat → Nat → Except Fault EndpointProvider
  | [], provider, _, _ => return provider
  | product :: products, provider, orderPort, tradePort => do
    if (← product.constIndex "status").isString "online" then
      let id ← (← product.constIndex "id").getString
      let endpoint : Endpoint :=
        { address := "127.0.0.1"
          orderbookPort := toString orderPort
          tradePort := toString tradePort }
      let productIds :=
        if (provider.productIds.lookup id).isSome then provider.productIds
        else provider.productIds ++ [(id, endpoint)]
      insertOnline products { productIds := productIds } (orderPort + 1) (tradePort + 1)
    else
      insertOnline products provider orderPort tradePort

/-- The constructor, on what the product list request returned, parsed. -/
def ofProducts (results : Except Fault Json) : Except Fault EndpointProvider := do
  insertOnline (← results).items {} 83000 93000

def contains (provider : EndpointProvider) (prodId : String) : Bool :=
  (provider.productIds.lookup prodId).isSome

def prodIdToPort (provider : EndpointProvider) (prodId : String) : Except Fault Endpoint :=
  match provider.productIds.lookup prodId with
  | some endpoint => .ok endpoint
  | none => .error .assertion

/-- The table when `ETH-USD` is the only product online. -/
def ethUsd : EndpointProvider :=
  { productIds := [("ETH-USD", ⟨"127.0.0.1", "83000", "93000"⟩)] }

/-- The assertion holds exactly for the products of the table. -/
theorem contains_iff {provider : EndpointProvider} {prodId : String} :
    provider.contains prodId = true ↔ ∃ endpoint, provider.prodIdToPort prodId = .ok endpoint := by
  rw [contains, prodIdToPort]
  cases provider.productIds.lookup prodId with
  | none => simp
  | some endpoint => simp

/-- What the loop can throw. -/
theorem insertOnline_error {products : List Json} {provider : EndpointProvider}
    {orderPort tradePort : Nat} {e : Fault}
    (h : insertOnline products provider orderPort tradePort = .error e) :
    e = .missingKey ∨ e = .typeError := by
  induction products generalizing provider orderPort tradePort with
  | nil => cases h
  | cons product products ih =>
    -- the reads of a product, in their order, and then the rest of the list
    rw [insertOnline] at h
    rcases bind_eq_error.mp h with h | ⟨status, -, h⟩
    · exact Json.constIndex_error h
    by_cases honline : status.isString "online" = true
    · rw [if_pos honline] at h
      rcases bind_eq_error.mp h with h | ⟨idJson, -, h⟩
      · exact Json.constIndex_error h
      rcases bind_eq_error.mp h with h | ⟨id, -, h⟩
      · exact .inr (Json.getString_error h)
      · exact ih h
    · rw [if_neg honline] at h
      exact ih h

/-- Building the table violates no assertion. -/
theorem ofProducts_error {results : Except ParseFault Json} {e : Fault}
    (h : ofProducts (results.mapError ParseFault.fault) = .error e) : e ≠ .assertion := by
  rcases bind_eq_error.mp h with h | ⟨jmsg, -, h⟩
  · cases results with
    | ok jmsg => cases h
    | error fault =>
      cases h
      cases fault <;> decide
  · rcases insertOnline_error h with rfl | rfl
    · decide
    · decide

end EndpointProvider

end QuoteServer
