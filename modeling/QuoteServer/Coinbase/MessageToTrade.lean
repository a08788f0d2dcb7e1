import QuoteServer.Trade
import QuoteServer.Coinbase.MessageHandler

/-!
# MessageToTrade: from JSON to trades

`getTrade` converts the messages that report a trade. It reads every field of the message
whether or not the trade has a place for it, and converts the numbers among them that the
trade keeps. What a message must have for that is a list of fields for each type
(`tradeFields`).
-/

namespace QuoteServer

variable {FloatingP : Type} [FloatingPoint FloatingP]

/-- Whether a message goes to `getTrade`. -/
def isTradeMsg (msg : Json) : Bool :=
  match msg.constIndex "type" with
  | .ok type => type.isString "activate" || type.isString "received" || type.isString "match"
  | .error _ => false

namespace MessageToTrade

/-- `founds`, `size` and `price` of a `received` message, each of which may be missing. -/
def optionalAt (jmsg : Json) (key : String) : Except Fault (Option FloatingP) := do
  if jmsg.contains key then
    let value ← jmsg.stringAt key
    return some (← stod value)
  else
    return none

def activate (jmsg : Json) : Except Fault (Trade FloatingP) := do
  let orderId ← jmsg.stringAt "order_id"
  let _ ← jmsg.unsignedAt "sequence"
  let price ← jmsg.stringAt "price"
  let size ← jmsg.stringAt "size"
  let stopType ← jmsg.stringAt "stop_type"
  let stopPrice ← jmsg.stringAt "stop_price"
  let founds ← jmsg.stringAt "founds"
  let _ ← jmsg.sideAt
  let productId ← jmsg.stringAt "product_id"
  return .tradeActivate orderId (← stod size) (← stod price) (← stod founds) (← stod stopPrice)
    stopType productId

def received (jmsg : Json) : Except Fault (Trade FloatingP) := do
  let orderId ← jmsg.stringAt "order_id"
  let _ ← jmsg.unsignedAt "sequence"
  let orderType ← jmsg.stringAt "order_type"
  let founds ← optionalAt jmsg "founds"
  let size ← optionalAt jmsg "size"
  let price ← optionalAt jmsg "price"
  let side ← jmsg.sideAt
  let productId ← jmsg.stringAt "product_id"
  return .tradeReceive orderId size founds price side orderType productId

/-- The branch for `match`: the price is read and not converted. -/
def matched (jmsg : Json) : Except Fault (Trade FloatingP) := do
  let _ ← jmsg.stringAt "maker_order_id"
  let takerOrderId ← jmsg.stringAt "taker_order_id"
  let _ ← jmsg.unsignedAt "sequence"
  let _ ← jmsg.stringAt "price"
  let size ← jmsg.stringAt "size"
  let productId ← jmsg.stringAt "product_id"
  let _ ← jmsg.sideAt
  return .tradeMatch takerOrderId (← stod size) productId

def getTrade (jmsg : Json) : Except Fault (Option (Trade FloatingP)) := do
  let type ← jmsg.stringAt "type"
  if type = "activate" then return some (← activate jmsg)
  else if type = "received" then return some (← received jmsg)
  else if type = "match" then return some (← matched jmsg)
  else return none

/-! ## What `getTrade` needs -/

/-- What a field of a trade message holds. -/
inductive FieldKind where
  | text
  /-- A JSON number. -/
  | unsigned
  /-- A number written in a string. -/
  | numeral
  /-- Such a number, unless the field is missing. -/
  | optionalNumeral
  deriving DecidableEq

/-- The call returns. -/
def Reads {α : Type} (x : Except Fault α) : Prop := ∃ a, x = .ok a

/-- The field is there, of its kind. -/
def FieldOk (FloatingP : Type) [FloatingPoint FloatingP] (jmsg : Json) (key : String) :
    FieldKind → Prop
  | .text => Reads (jmsg.stringAt key)
  | .unsigned => Reads (jmsg.unsignedAt key)
  | .numeral => ∃ value, jmsg.stringAt key = .ok value ∧ Reads (stod value : Except _ FloatingP)
  | .optionalNumeral => jmsg.contains key = true →
    ∃ value, jmsg.stringAt key = .ok value ∧ Reads (stod value : Except _ FloatingP)

/-- The fields of a trade message of each type. -/
def tradeFields (type : String) : List (String × FieldKind) :=
  if type = "activate" then
    [("order_id", .text), ("sequence", .unsigned), ("price", .numeral), ("size", .numeral),
      ("stop_type", .text), ("stop_price", .numeral), ("founds", .numeral), ("side", .text),
      ("product_id", .text)]
  else if type = "received" then
    [("order_id", .text), ("sequence", .unsigned), ("order_type", .text),
      ("founds", .optionalNumeral), ("size", .optionalNumeral), ("price", .optionalNumeral),
      ("side", .text), ("product_id", .text)]
  else if type = "match" then
    [("maker_order_id", .text), ("taker_order_id", .text), ("sequence", .unsigned),
      ("price", .numeral), ("size", .numeral), ("product_id", .text), ("side", .text)]
  else []

/-- Every field of the message is there, of its kind. -/
def FieldsOk (FloatingP : Type) [FloatingPoint FloatingP] (jmsg : Json) : Prop :=
  ∀ type, jmsg.stringMember "type" = some type →
    ∀ field ∈ tradeFields type, FieldOk FloatingP jmsg field.1 field.2

/-! ## Reading one field after the other -/

theorem reads_bind {α β : Type} {x : Except Fault α} {f : α → Except Fault β} {a : α}
    (hx : x = .ok a) (hf : Reads (f a)) : Reads (x >>= f) := by
  obtain ⟨b, hb⟩ := hf
  exact ⟨b, bind_eq_ok.mpr ⟨a, hx, hb⟩⟩

theorem sideAt_of_text {jmsg : Json} (h : FieldOk FloatingP jmsg "side" .text) :
    Reads jmsg.sideAt := by
  obtain ⟨side, hside⟩ := h
  exact reads_bind hside ⟨_, rfl⟩

theorem optionalAt_of_ok {jmsg : Json} {key : String}
    (h : FieldOk FloatingP jmsg key .optionalNumeral) :
    Reads (optionalAt jmsg key : Except Fault (Option FloatingP)) := by
  unfold optionalAt
  cases hc : jmsg.contains key with
  | false => exact ⟨none, rfl⟩
  | true =>
    obtain ⟨value, hvalue, x, hx⟩ := h hc
    exact reads_bind hvalue (reads_bind hx ⟨_, rfl⟩)

theorem activate_of_fieldsOk {jmsg : Json}
    (h : ∀ field ∈ tradeFields "activate", FieldOk FloatingP jmsg field.1 field.2) :
    Reads (activate jmsg : Except Fault (Trade FloatingP)) := by
  simp only [tradeFields, if_pos, List.forall_mem_cons] at h
  obtain ⟨⟨orderId, horder⟩, ⟨sequence, hseq⟩, ⟨price, hprice, p, hp⟩, ⟨size, hsize, s, hs⟩,
    ⟨stopType, hstop⟩, ⟨stopPrice, hstopPrice, sp, hsp⟩, ⟨founds, hfounds, f, hf⟩, hside,
    ⟨productId, hproduct⟩, -⟩ := h
  obtain ⟨side, hside⟩ := sideAt_of_text hside
  refine reads_bind horder (reads_bind hseq (reads_bind hprice (reads_bind hsize ?_)))
  refine reads_bind hstop (reads_bind hstopPrice (reads_bind hfounds (reads_bind hside ?_)))
  refine reads_bind hproduct ?_
  exact reads_bind hs (reads_bind hp (reads_bind hf (reads_bind hsp ⟨_, rfl⟩)))

theorem received_of_fieldsOk {jmsg : Json}
    (h : ∀ field ∈ tradeFields "received", FieldOk FloatingP jmsg field.1 field.2) :
    Reads (received jmsg : Except Fault (Trade FloatingP)) := by
  simp only [tradeFields, String.reduceEq, reduceIte, List.forall_mem_cons] at h
  obtain ⟨⟨orderId, horder⟩, ⟨sequence, hseq⟩, ⟨orderType, htype⟩, hfounds, hsize, hprice, hside,
    ⟨productId, hproduct⟩, -⟩ := h
  obtain ⟨founds, hfounds⟩ := optionalAt_of_ok hfounds
  obtain ⟨size, hsize⟩ := optionalAt_of_ok hsize
  obtain ⟨price, hprice⟩ := optionalAt_of_ok hprice
  obtain ⟨side, hside⟩ := sideAt_of_text hside
  refine reads_bind horder (reads_bind hseq (reads_bind htype (reads_bind hfounds ?_)))
  exact reads_bind hsize (reads_bind hprice (reads_bind hside (reads_bind hproduct ⟨_, rfl⟩)))

theorem matched_of_fieldsOk {jmsg : Json}
    (h : ∀ field ∈ tradeFields "match", FieldOk FloatingP jmsg field.1 field.2) :
    Reads (matched jmsg : Except Fault (Trade FloatingP)) := by
  simp only [tradeFields, String.reduceEq, reduceIte, List.forall_mem_cons] at h
  obtain ⟨⟨maker, hmaker⟩, ⟨taker, htaker⟩, ⟨sequence, hseq⟩, ⟨price, hprice, -⟩,
    ⟨size, hsize, s, hs⟩, ⟨productId, hproduct⟩, hside, -⟩ := h
  obtain ⟨side, hside⟩ := sideAt_of_text hside
  refine reads_bind hmaker (reads_bind htaker (reads_bind hseq (reads_bind hprice ?_)))
  exact reads_bind hsize (reads_bind hproduct (reads_bind hside (reads_bind hs ⟨_, rfl⟩)))

theorem isTradeMsg_iff {msg : Json} : isTradeMsg msg = true ↔
    ∃ type ∈ ["activate", "received", "match"], msg.stringMember "type" = some type := by
  rw [isTradeMsg, Json.stringMember]
  cases msg.constIndex "type" with
  | error e => simp
  | ok v =>
    cases v with
    | string type => simp [Json.isString, or_assoc]
    | _ => simp [Json.isString]

/-- **A trade message with all its fields is converted.** -/
theorem getTrade_of_fieldsOk {jmsg : Json} (htrade : isTradeMsg jmsg = true)
    (h : FieldsOk FloatingP jmsg) :
    ∃ trade, (getTrade jmsg : Except Fault (Option (Trade FloatingP))) = .ok (some trade) := by
  obtain ⟨type, htypes, htype⟩ := isTradeMsg_iff.mp htrade
  have hread : jmsg.stringAt "type" = .ok type :=
    bind_eq_ok.mpr ⟨_, Json.stringMember_eq_some.mp htype, rfl⟩
  have hfields := h type htype
  simp only [List.mem_cons, List.not_mem_nil, or_false] at htypes
  rcases htypes with rfl | rfl | rfl
  · obtain ⟨trade, htrade⟩ := activate_of_fieldsOk hfields
    exact ⟨trade, bind_eq_ok.mpr ⟨_, hread, bind_eq_ok.mpr ⟨trade, htrade, rfl⟩⟩⟩
  · obtain ⟨trade, htrade⟩ := received_of_fieldsOk hfields
    exact ⟨trade, bind_eq_ok.mpr ⟨_, hread, bind_eq_ok.mpr ⟨trade, htrade, rfl⟩⟩⟩
  · obtain ⟨trade, htrade⟩ := matched_of_fieldsOk hfields
    exact ⟨trade, bind_eq_ok.mpr ⟨_, hread, bind_eq_ok.mpr ⟨trade, htrade, rfl⟩⟩⟩

/-- A trade message that is converted is a trade. -/
theorem getTrade_isSome {jmsg : Json} {trade : Option (Trade FloatingP)}
    (htrade : isTradeMsg jmsg = true) (h : getTrade jmsg = .ok trade) : trade.isSome = true := by
  obtain ⟨type, htypes, htype⟩ := isTradeMsg_iff.mp htrade
  have hread : jmsg.stringAt "type" = .ok type :=
    bind_eq_ok.mpr ⟨_, Json.stringMember_eq_some.mp htype, rfl⟩
  obtain ⟨type', hread', h⟩ := bind_eq_ok.mp h
  rw [hread] at hread'
  cases hread'
  simp only [List.mem_cons, List.not_mem_nil, or_false] at htypes
  rcases htypes with rfl | rfl | rfl
  all_goals
    obtain ⟨_, -, h⟩ := bind_eq_ok.mp h
    cases h
    rfl

/-- Every trade message has a number and a product. -/
theorem sequence_of_fieldsOk {jmsg : Json} (htrade : isTradeMsg jmsg = true)
    (h : FieldsOk FloatingP jmsg) :
    Reads (jmsg.unsignedAt "sequence") ∧ Reads (jmsg.stringAt "product_id") := by
  obtain ⟨type, htypes, htype⟩ := isTradeMsg_iff.mp htrade
  have hfields := h type htype
  simp only [List.mem_cons, List.not_mem_nil, or_false] at htypes
  rcases htypes with rfl | rfl | rfl
  all_goals
    exact ⟨hfields ("sequence", .unsigned) (by decide), hfields ("product_id", .text) (by decide)⟩

/-! ## What it throws, and what a trade is for -/

theorem noParseError_stringAt (jmsg : Json) (key : String) : NoParseError (jmsg.stringAt key) := by
  refine NoParseError.bind (fun h => ?_) fun v h => ?_
  · rcases Json.constIndex_error h with h | h <;> cases h
  · cases Json.getString_error h

theorem noParseError_unsignedAt (jmsg : Json) (key : String) :
    NoParseError (jmsg.unsignedAt key) := by
  refine NoParseError.bind (fun h => ?_) fun v h => ?_
  · rcases Json.constIndex_error h with h | h <;> cases h
  · cases v <;> cases h

theorem noParseError_sideAt (jmsg : Json) : NoParseError jmsg.sideAt :=
  (noParseError_stringAt jmsg "side").bind fun _ => .pure _

theorem noParseError_stod (value : String) :
    NoParseError (stod value : Except Fault FloatingP) := by
  intro h
  unfold stod at h
  cases hx : (FloatingPoint.stod value : Option FloatingP) with
  | some x =>
    rw [hx] at h
    cases h
  | none =>
    rw [hx] at h
    cases h

theorem noParseError_optionalAt (jmsg : Json) (key : String) :
    NoParseError (optionalAt jmsg key : Except Fault (Option FloatingP)) := by
  unfold optionalAt
  cases jmsg.contains key with
  | false => exact .pure _
  | true =>
    exact (noParseError_stringAt jmsg key).bind fun _ => (noParseError_stod _).bind fun _ => .pure _

theorem noParseError_activate (jmsg : Json) :
    NoParseError (activate jmsg : Except Fault (Trade FloatingP)) := by
  have hstring := noParseError_stringAt jmsg
  have hstod : ∀ value, NoParseError (stod value : Except Fault FloatingP) := noParseError_stod
  refine (hstring _).bind fun _ => (noParseError_unsignedAt jmsg _).bind fun _ => ?_
  refine (hstring _).bind fun _ => (hstring _).bind fun _ => (hstring _).bind fun _ => ?_
  refine (hstring _).bind fun _ => (hstring _).bind fun _ => ?_
  refine (noParseError_sideAt jmsg).bind fun _ => (hstring _).bind fun _ => ?_
  refine (hstod _).bind fun _ => (hstod _).bind fun _ => (hstod _).bind fun _ => ?_
  exact (hstod _).bind fun _ => .pure _

theorem noParseError_received (jmsg : Json) :
    NoParseError (received jmsg : Except Fault (Trade FloatingP)) := by
  have hstring := noParseError_stringAt jmsg
  have hoptional : ∀ key, NoParseError (optionalAt jmsg key : Except Fault (Option FloatingP)) :=
    noParseError_optionalAt jmsg
  refine (hstring _).bind fun _ => (noParseError_unsignedAt jmsg _).bind fun _ => ?_
  refine (hstring _).bind fun _ => (hoptional _).bind fun _ => (hoptional _).bind fun _ => ?_
  refine (hoptional _).bind fun _ => (noParseError_sideAt jmsg).bind fun _ => ?_
  exact (hstring _).bind fun _ => .pure _

theorem noParseError_matched (jmsg : Json) :
    NoParseError (matched jmsg : Except Fault (Trade FloatingP)) := by
  have hstring := noParseError_stringAt jmsg
  refine (hstring _).bind fun _ => (hstring _).bind fun _ => ?_
  refine (noParseError_unsignedAt jmsg _).bind fun _ => (hstring _).bind fun _ => ?_
  refine (hstring _).bind fun _ => (hstring _).bind fun _ => ?_
  exact (noParseError_sideAt jmsg).bind fun _ => (noParseError_stod _).bind fun _ => .pure _

/-- `getTrade` throws no `parse_error`. -/
theorem noParseError_getTrade (jmsg : Json) :
    NoParseError (getTrade jmsg : Except Fault (Option (Trade FloatingP))) := by
  refine (noParseError_stringAt jmsg "type").bind fun type => ?_
  by_cases hactivate : type = "activate"
  · rw [if_pos hactivate]
    exact (noParseError_activate jmsg).bind fun _ => .pure _
  rw [if_neg hactivate]
  by_cases hreceived : type = "received"
  · rw [if_pos hreceived]
    exact (noParseError_received jmsg).bind fun _ => .pure _
  rw [if_neg hreceived]
  by_cases hmatch : type = "match"
  · rw [if_pos hmatch]
    exact (noParseError_matched jmsg).bind fun _ => .pure _
  · rw [if_neg hmatch]
    exact .pure _

/-- The trade is for the product of the message. -/
def ForProduct (jmsg : Json) (trade : Trade FloatingP) : Prop :=
  jmsg.stringAt "product_id" = .ok trade.getProductId

theorem forProduct_activate (jmsg : Json) :
    Yields (ForProduct jmsg) (activate jmsg : Except Fault (Trade FloatingP)) := by
  refine .bind fun _ _ => .bind fun _ _ => .bind fun _ _ => .bind fun _ _ => ?_
  refine .bind fun _ _ => .bind fun _ _ => .bind fun _ _ => .bind fun _ _ => ?_
  refine .bind fun productId hproduct => ?_
  exact .bind fun _ _ => .bind fun _ _ => .bind fun _ _ => .bind fun _ _ => .pure hproduct

theorem forProduct_received (jmsg : Json) :
    Yields (ForProduct jmsg) (received jmsg : Except Fault (Trade FloatingP)) := by
  refine .bind fun _ _ => .bind fun _ _ => .bind fun _ _ => .bind fun _ _ => ?_
  refine .bind fun _ _ => .bind fun _ _ => .bind fun _ _ => ?_
  exact .bind fun productId hproduct => .pure hproduct

theorem forProduct_matched (jmsg : Json) :
    Yields (ForProduct jmsg) (matched jmsg : Except Fault (Trade FloatingP)) := by
  refine .bind fun _ _ => .bind fun _ _ => .bind fun _ _ => .bind fun _ _ => ?_
  refine .bind fun _ _ => .bind fun productId hproduct => ?_
  exact .bind fun _ _ => .bind fun _ _ => .pure hproduct

/-- A trade is for the product of its message. -/
theorem getTrade_productId {jmsg : Json} {trade : Trade FloatingP}
    (h : getTrade jmsg = .ok (some trade)) : ForProduct jmsg trade := by
  obtain ⟨type, -, h⟩ := bind_eq_ok.mp h
  by_cases hactivate : type = "activate"
  · rw [if_pos hactivate] at h
    obtain ⟨_, htrade, h⟩ := bind_eq_ok.mp h
    cases h
    exact forProduct_activate jmsg trade htrade
  rw [if_neg hactivate] at h
  by_cases hreceived : type = "received"
  · rw [if_pos hreceived] at h
    obtain ⟨_, htrade, h⟩ := bind_eq_ok.mp h
    cases h
    exact forProduct_received jmsg trade htrade
  rw [if_neg hreceived] at h
  by_cases hmatch : type = "match"
  · rw [if_pos hmatch] at h
    obtain ⟨_, htrade, h⟩ := bind_eq_ok.mp h
    cases h
    exact forProduct_matched jmsg trade htrade
  · rw [if_neg hmatch] at h
    cases h

end MessageToTrade

end QuoteServer
