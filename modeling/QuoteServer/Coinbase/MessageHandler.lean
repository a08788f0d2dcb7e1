import QuoteServer.Json
import QuoteServer.Product.ProductChange

/-!
# CoinbaseFeedMessageHandler: from JSON to product changes

`getProductChange` reads one message of the queue. A value with both `bids` and
`asks` is a full order book: its orders, and the changes of the messages under
`to_merge`, become one `resetOrderBook`. Anything else is decided by its `type`.
Every read can throw; the order of the reads is the source's.
-/

namespace QuoteServer

variable {FloatingP : Type} [FloatingPoint FloatingP]

/-- `std::stod(s)`. -/
def stod (s : String) : Except Fault FloatingP :=
  match FloatingPoint.stod s with
  | some x => .ok x
  | none => .error .invalidNumber

/-- `jmsg[key].get<std::string>()`. -/
def Json.stringAt (jmsg : Json) (key : String) : Except Fault String := do
  (← jmsg.constIndex key).getString

theorem Json.stringAt_eq_ok {jmsg : Json} {key s : String} :
    jmsg.stringAt key = .ok s ↔ jmsg.stringMember key = some s := by
  rw [stringMember_eq_some]
  constructor
  · intro h
    obtain ⟨v, hv, hs⟩ := bind_eq_ok.mp h
    cases v with
    | string t =>
      cases hs
      exact hv
    | _ => cases hs
  · intro h
    exact bind_eq_ok.mpr ⟨_, h, rfl⟩

/-- `jmsg[key].get<long unsigned>()`. -/
def Json.unsignedAt (jmsg : Json) (key : String) : Except Fault Nat := do
  (← jmsg.constIndex key).getUnsigned

/-- `jmsg["side"].get<std::string>() == "sell"? Side::Sell: Side::Buy`. -/
def Json.sideAt (jmsg : Json) : Except Fault Side := do
  return if (← jmsg.stringAt "side") = "sell" then .sell else .buy

namespace CoinbaseFeedMessageHandler

/-- One entry of `bids` or `asks`: price, size and order id, all strings. -/
def readOrder (order : Json) : Except Fault (Order FloatingP) := do
  let price ← (← order.constElem 0).getString
  let size ← (← order.constElem 1).getString
  let orderId ← (← order.constElem 2).getString
  return { price := ← stod price, size := ← stod size, orderId := orderId }

/-- Whether `getProductChange` takes the message for a full order book. -/
def isFullOrderBook (jmsg : Json) : Bool :=
  jmsg.contains "bids" && jmsg.contains "asks"

/-- The branches of `getProductChange` for a message with a `type`. -/
def typedChange (productId : String) (jmsg : Json) :
    Except Fault (Option (ProductChange FloatingP)) := do
  let type ← jmsg.stringAt "type"
  if type = "open" then
    let orderId ← jmsg.stringAt "order_id"
    let sequence ← jmsg.unsignedAt "sequence"
    let price ← jmsg.stringAt "price"
    let size ← jmsg.stringAt "remaining_size"
    let side ← jmsg.sideAt
    return some (.orderOpen orderId (← stod price) (← stod size) side productId sequence)
  else if type = "done" then
    let orderId ← jmsg.stringAt "order_id"
    let side ← jmsg.sideAt
    let sequence ← jmsg.unsignedAt "sequence"
    return some (.orderDone orderId side productId sequence)
  else if type = "match" then
    let makerOrderId ← jmsg.stringAt "maker_order_id"
    let takerOrderId ← jmsg.stringAt "taker_order_id"
    let sequence ← jmsg.unsignedAt "sequence"
    let price ← jmsg.stringAt "price"
    let size ← jmsg.stringAt "size"
    let side ← jmsg.sideAt
    return some (.orderMatch makerOrderId takerOrderId (← stod price) (← stod size)
      side productId sequence)
  else if type = "change" then
    let orderId ← jmsg.stringAt "order_id"
    let price ← jmsg.stringAt "price"
    let size ← jmsg.stringAt "size"
    let sequence ← jmsg.unsignedAt "sequence"
    let side ← jmsg.sideAt
    return some (.orderChange orderId (← stod price) (← stod size) side productId sequence)
  else
    -- `ticker`, `received`, `heartbeat` and unsupported types
    return none

mutual

def getProductChange (productId : String) :
    Json → Except Fault (Option (ProductChange FloatingP))
  | .object members => do
    let jmsg := Json.object members
    if isFullOrderBook jmsg then
      let asks ← (← jmsg.constIndex "asks").items.mapM readOrder
      let bids ← (← jmsg.constIndex "bids").items.mapM readOrder
      let toMerge ← toMergeMember productId members
      let sequence ← jmsg.unsignedAt "sequence"
      return some (.resetOrderBook bids asks toMerge productId sequence)
    else if jmsg.contains "type" then
      typedChange productId jmsg
    else
      return none
  | _ => return none

/-- The changes under the member `to_merge`, none if there is no such member. -/
def toMergeMember (productId : String) :
    List (String × Json) → Except Fault (List (ProductChange FloatingP))
  | [] => return []
  | (key, value) :: members =>
    if key = "to_merge" then toMergeItems productId value
    else toMergeMember productId members

/-- The loop over the values of `to_merge`. A plain value is no message and
gives no change. -/
def toMergeItems (productId : String) :
    Json → Except Fault (List (ProductChange FloatingP))
  | .array elements => toMergeElements productId elements
  | .object members => toMergeValues productId members
  | _ => return []

def toMergeElements (productId : String) :
    List Json → Except Fault (List (ProductChange FloatingP))
  | [] => return []
  | msg :: msgs => do
    let pc ← getProductChange productId msg
    let pcs ← toMergeElements productId msgs
    return pc.toList ++ pcs

def toMergeValues (productId : String) :
    List (String × Json) → Except Fault (List (ProductChange FloatingP))
  | [] => return []
  | (_, msg) :: members => do
    let pc ← getProductChange productId msg
    let pcs ← toMergeValues productId members
    return pc.toList ++ pcs

end

end CoinbaseFeedMessageHandler

end QuoteServer
