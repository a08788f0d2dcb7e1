import QuoteServer.Coinbase.MessageToTrade

/-!
# The published trade

A trade publisher sends what `generateMessage` makes of a trade: a protocol buffer with
the fields of the trade. Between the message of the feed and the published one its
values pass through `MessageToTrade::getTrade` and a subclass of `Trade`
(`published_iff`).

In `TradeReceive` the test before `set_founds` asks whether there is a price. So the
amount of a market order is lost, and for a limit order an empty `std::optional` is
dereferenced.
-/

namespace QuoteServer

variable {FloatingP : Type}

namespace MessageToTrade

variable [FloatingPoint FloatingP]

/-- The number that a field of a feed message holds, if the field is there. -/
def numberMember (jmsg : Json) (key : String) : Option FloatingP :=
  (jmsg.stringMember key).bind FloatingPoint.stod

/-- The published trade has the ids of the feed message, and its amounts, each set as in
the message. -/
structure Carries (jmsg : Json) (trade : Qs.Trade FloatingP) : Prop where
  orderId : jmsg.stringMember "order_id" = some trade.orderId
  productId : jmsg.stringMember "product_id" = some trade.productId
  size : trade.size = numberMember jmsg "size"
  price : trade.price = numberMember jmsg "price"
  founds : trade.founds = numberMember jmsg "founds"

/-- The message is converted and published, no empty `std::optional` is dereferenced, and
the published trade carries what the message did. -/
def PublishedAsReceived (FloatingP : Type) [FloatingPoint FloatingP] (jmsg : Json) : Prop :=
  ∃ (trade : Trade FloatingP) (message : Qs.QsMessage FloatingP),
    getTrade jmsg = .ok (some trade) ∧ trade.generateMessage = some message ∧
      Carries jmsg message.trade

/-! ## What the conversion reads -/

theorem stod_eq_ok {value : String} {x : FloatingP} :
    (stod value : Except Fault FloatingP) = .ok x ↔ FloatingPoint.stod value = some x := by
  rw [stod]
  cases (FloatingPoint.stod value : Option FloatingP) with
  | none => simp
  | some y => simp

/-- A number that is read and converted is the number of the field. -/
theorem numberMember_of_read {jmsg : Json} {key value : String} {x : FloatingP}
    (hvalue : jmsg.stringAt key = .ok value) (hx : (stod value : Except Fault FloatingP) = .ok x) :
    numberMember jmsg key = some x := by
  rw [numberMember, Json.stringAt_eq_ok.mp hvalue]
  exact stod_eq_ok.mp hx

/-- A field that may be missing has a number exactly when it is there. -/
theorem numberMember_isSome_iff {jmsg : Json} {key : String}
    (h : FieldOk FloatingP jmsg key .optionalNumeral) :
    (numberMember jmsg key : Option FloatingP).isSome = true ↔ jmsg.contains key = true := by
  constructor
  · intro hsome
    rw [numberMember] at hsome
    cases hmember : jmsg.stringMember key with
    | none =>
      rw [hmember] at hsome
      cases hsome
    | some value => exact Json.contains_of_stringMember hmember
  · intro hc
    obtain ⟨value, hvalue, x, hx⟩ := h hc
    rw [numberMember_of_read hvalue hx]
    rfl

theorem optionalAt_eq {jmsg : Json} {key : String} {x : Option FloatingP}
    (h : optionalAt jmsg key = .ok x) : x = numberMember jmsg key := by
  unfold optionalAt at h
  cases hc : jmsg.contains key with
  | false =>
    rw [hc, if_neg Bool.false_ne_true] at h
    cases h
    rw [numberMember]
    cases hmember : jmsg.stringMember key with
    | none => rfl
    | some value =>
      rw [Json.contains_of_stringMember hmember] at hc
      cases hc
  | true =>
    rw [hc, if_pos rfl] at h
    obtain ⟨value, hvalue, h⟩ := bind_eq_ok.mp h
    obtain ⟨y, hy, h⟩ := bind_eq_ok.mp h
    cases h
    exact (numberMember_of_read hvalue hy).symm

/-- Every value of a received trade is that of the field with its name. -/
theorem received_values (jmsg : Json) :
    Yields (fun trade => ∃ orderId side orderType productId,
      jmsg.stringMember "order_id" = some orderId ∧
        jmsg.stringMember "product_id" = some productId ∧
        trade = .tradeReceive orderId (numberMember jmsg "size") (numberMember jmsg "founds")
          (numberMember jmsg "price") side orderType productId)
      (received jmsg : Except Fault (Trade FloatingP)) := by
  refine .bind fun orderId horder => .bind fun _ _ => .bind fun orderType _ => ?_
  refine .bind fun founds hfounds => .bind fun size hsize => .bind fun price hprice => ?_
  refine .bind fun side _ => .bind fun productId hproduct => .pure ?_
  refine ⟨orderId, side, orderType, productId, Json.stringAt_eq_ok.mp horder,
    Json.stringAt_eq_ok.mp hproduct, ?_⟩
  rw [optionalAt_eq hfounds, optionalAt_eq hsize, optionalAt_eq hprice]

/-- So is every value of an activated trade. -/
theorem activate_values (jmsg : Json) :
    Yields (fun trade => ∃ orderId size price founds stopPrice stopType productId,
      jmsg.stringMember "order_id" = some orderId ∧
        jmsg.stringMember "product_id" = some productId ∧
        numberMember jmsg "size" = some size ∧ numberMember jmsg "price" = some price ∧
        numberMember jmsg "founds" = some founds ∧
        trade = .tradeActivate orderId size price founds stopPrice stopType productId)
      (activate jmsg : Except Fault (Trade FloatingP)) := by
  refine .bind fun orderId horder => .bind fun _ _ => .bind fun price hprice => ?_
  refine .bind fun size hsize => .bind fun stopType _ => .bind fun stopPrice _ => ?_
  refine .bind fun founds hfounds => .bind fun _ _ => .bind fun productId hproduct => ?_
  refine .bind fun s hs => .bind fun p hp => .bind fun f hf => .bind fun sp _ => .pure ?_
  exact ⟨orderId, s, p, f, sp, stopType, productId, Json.stringAt_eq_ok.mp horder,
    Json.stringAt_eq_ok.mp hproduct, numberMember_of_read hsize hs, numberMember_of_read hprice hp,
    numberMember_of_read hfounds hf, rfl⟩

/-! ## What is published -/

/-- A published message is the only one that could be: both calls are functions. -/
theorem publishedAsReceived_iff {jmsg : Json} {trade : Trade FloatingP}
    (h : getTrade jmsg = .ok (some trade)) :
    PublishedAsReceived FloatingP jmsg ↔
      ∃ message, trade.generateMessage = some message ∧ Carries jmsg message.trade := by
  constructor
  · rintro ⟨trade', message, h', hmessage⟩
    rw [h] at h'
    cases h'
    exact ⟨message, hmessage⟩
  · rintro ⟨message, hmessage⟩
    exact ⟨trade, message, h, hmessage⟩

theorem published_activate {jmsg : Json} (htype : jmsg.stringMember "type" = some "activate")
    (hfields : FieldsOk FloatingP jmsg) : PublishedAsReceived FloatingP jmsg := by
  obtain ⟨trade, htrade⟩ : Reads (activate jmsg : Except Fault (Trade FloatingP)) :=
    activate_of_fieldsOk (hfields _ htype)
  have hget : getTrade jmsg = .ok (some trade) :=
    bind_eq_ok.mpr ⟨_, Json.stringAt_eq_ok.mpr htype, bind_eq_ok.mpr ⟨trade, htrade, rfl⟩⟩
  obtain ⟨orderId, size, price, founds, stopPrice, stopType, productId, horder, hproduct, hsize,
    hprice, hfounds, rfl⟩ := activate_values jmsg trade htrade
  refine (publishedAsReceived_iff hget).mpr ⟨_, rfl, ?_⟩
  exact ⟨horder, hproduct, hsize.symm, hprice.symm, hfounds.symm⟩

theorem published_received_iff {jmsg : Json}
    (htype : jmsg.stringMember "type" = some "received") (hfields : FieldsOk FloatingP jmsg) :
    PublishedAsReceived FloatingP jmsg ↔
      (jmsg.contains "price" = true ↔ jmsg.contains "founds" = true) := by
  obtain ⟨trade, htrade⟩ : Reads (received jmsg : Except Fault (Trade FloatingP)) :=
    received_of_fieldsOk (hfields _ htype)
  have hget : getTrade jmsg = .ok (some trade) :=
    bind_eq_ok.mpr ⟨_, Json.stringAt_eq_ok.mpr htype, bind_eq_ok.mpr ⟨trade, htrade, rfl⟩⟩
  obtain ⟨orderId, side, orderType, productId, horder, hproduct, rfl⟩ :=
    received_values jmsg trade htrade
  have hprice : FieldOk FloatingP jmsg "price" .optionalNumeral :=
    hfields _ htype ("price", .optionalNumeral) (by decide)
  have hfounds : FieldOk FloatingP jmsg "founds" .optionalNumeral :=
    hfields _ htype ("founds", .optionalNumeral) (by decide)
  rw [publishedAsReceived_iff hget, ← numberMember_isSome_iff hprice,
    ← numberMember_isSome_iff hfounds]
  cases hp : (numberMember jmsg "price" : Option FloatingP) with
  | none =>
    -- the amount is not set, whatever the message says of it
    constructor
    · rintro ⟨message, hmessage, hcarries⟩
      cases hmessage
      rw [← hcarries.founds]
    · intro hiff
      refine ⟨_, rfl, horder, hproduct, rfl, hp.symm, ?_⟩
      cases hf : (numberMember jmsg "founds" : Option FloatingP) with
      | none => rfl
      | some founds =>
        rw [hf] at hiff
        cases hiff.mpr rfl
  | some price =>
    -- the amount is dereferenced
    cases hf : (numberMember jmsg "founds" : Option FloatingP) with
    | none =>
      constructor
      · rintro ⟨message, hmessage, -⟩
        cases hmessage
      · intro hiff
        cases hiff.mp rfl
    | some founds =>
      refine ⟨fun _ => Iff.rfl, fun _ => ?_⟩
      exact ⟨_, rfl, horder, hproduct, rfl, hp.symm, hf.symm⟩

/-- **What of a feed message is published.** The published trade of an activated order
carries what the feed message did, and that of a received order does exactly when the
message has a price and an amount, or neither. -/
theorem published_iff {jmsg : Json} {type : String}
    (htypes : type = "received" ∨ type = "activate")
    (htype : jmsg.stringMember "type" = some type) (hfields : FieldsOk FloatingP jmsg) :
    PublishedAsReceived FloatingP jmsg ↔
      (type = "received" → (jmsg.contains "price" = true ↔ jmsg.contains "founds" = true)) := by
  rcases htypes with rfl | rfl
  · rw [published_received_iff htype hfields]
    exact ⟨fun h _ => h, fun h => h rfl⟩
  · refine ⟨fun _ h => absurd h (by decide), fun _ => published_activate htype hfields⟩

/-- A message about an order that was received, with these optional fields. -/
def receivedMessage (amounts : List (String × Json)) : Json :=
  .object ([("type", .string "received"), ("order_id", .string "7"), ("sequence", .unsigned 10),
    ("order_type", .string "limit"), ("side", .string "buy"),
    ("product_id", .string "ETH-USD")] ++ amounts)

/-- Its fields are as they must be if the amounts are. -/
theorem fieldsOk_receivedMessage {amounts : List (String × Json)}
    (h : ∀ key ∈ ["founds", "size", "price"],
      FieldOk FloatingP (receivedMessage amounts) key .optionalNumeral) :
    FieldsOk FloatingP (receivedMessage amounts) := by
  intro type htype
  obtain rfl : "received" = type := Option.some.inj htype
  simp only [List.forall_mem_cons] at h
  simp only [tradeFields, String.reduceEq, reduceIte, List.forall_mem_cons]
  exact ⟨⟨_, rfl⟩, ⟨_, rfl⟩, ⟨_, rfl⟩, h.1, h.2.1, h.2.2.1, ⟨_, rfl⟩, ⟨_, rfl⟩,
    fun _ h => absurd h List.not_mem_nil⟩

theorem published_iff_all_amounts :
    PublishedAsReceived Int (receivedMessage
      [("size", .string "3"), ("price", .string "502"), ("founds", .string "1506")]) := by
  refine (published_iff (.inl rfl) rfl (fieldsOk_receivedMessage ?_)).mpr fun _ => Iff.rfl
  simp only [List.forall_mem_cons]
  exact ⟨fun _ => ⟨_, rfl, _, rfl⟩, fun _ => ⟨_, rfl, _, rfl⟩, fun _ => ⟨_, rfl, _, rfl⟩,
    fun _ h => absurd h List.not_mem_nil⟩

/-- A limit order has a size and a price and no amount: it is never published. -/
theorem limit_order_not_published :
    let jmsg := receivedMessage [("size", .string "3"), ("price", .string "502")]
    jmsg.stringMember "type" = some "received" ∧ FieldsOk Int jmsg ∧
      ¬ PublishedAsReceived Int jmsg := by
  intro jmsg
  have hfields : FieldsOk Int jmsg := by
    refine fieldsOk_receivedMessage ?_
    simp only [List.forall_mem_cons]
    exact ⟨fun h => absurd h (by decide), fun _ => ⟨_, rfl, _, rfl⟩, fun _ => ⟨_, rfl, _, rfl⟩,
      fun _ h => absurd h List.not_mem_nil⟩
  refine ⟨rfl, hfields, fun h => ?_⟩
  have hboth := (published_received_iff rfl hfields).mp h
  exact absurd (hboth.mp rfl) (by decide)

end MessageToTrade

end QuoteServer
