import QuoteServer.Coinbase.FeedClient
import QuoteServer.Coinbase.FeedSteps
import QuoteServer.Coinbase.MessageToTrade

/-!
# CoinbaseFeedClient: a message from the websocket

`onMessageReceived` parses the message, gives it to the `CoinbaseFeedProduct` of its
product, and passes the trade it reports to the trade listener. Only a `parse_error` is
caught; the reads on the way throw `type_error`s and worse. And the product gets the
message before anything has looked at the fields of the trade. So a malformed message is
rejected without effects in the cases listed in `HandledWell` only
(`rejects_malformed_iff`).
-/

namespace QuoteServer

open MessageToTrade

variable {FloatingP : Type} [FloatingPoint FloatingP]

/-- The feed client, and what it tells its trade listener. -/
structure FeedReceiver (FloatingP : Type) where
  client : CoinbaseFeedClient FloatingP := {}
  /-- `m_tradeListener` is set. -/
  hasTradeListener : Bool := true
  /-- Every trade passed to it, in order. -/
  trades : List (Trade FloatingP) := []

omit [FloatingPoint FloatingP] in
/-- The branch for a message with a `sequence`. -/
def CoinbaseFeedClient.routeMessage (client : CoinbaseFeedClient FloatingP) (jmsg : Json) :
    Except Fault (CoinbaseFeedClient FloatingP) := do
  if jmsg.contains "sequence" then
    let prodId ← (← jmsg.mutIndex "product_id").getString
    match client.prodIdToListener prodId with
    | none => return client
    | some listener =>
      let product ← listener.product.onMessageReceived jmsg
      return client.setListener prodId { listener with product := product }
  else
    return client

namespace FeedReceiver

/-- The branch for a message that reports a trade. -/
def passTrade (jmsg : Json) : EStateM Fault (FeedReceiver FloatingP) Unit := do
  if isTradeMsg jmsg && (← get).hasTradeListener then
    let trade ← MonadExcept.ofExcept (getTrade jmsg)
    modify fun s => { s with trades := s.trades ++ trade.toList }

/-- The body of the `try`. -/
def handleMessage (parse : List UInt8 → Except ParseFault Json) (message : List UInt8) :
    EStateM Fault (FeedReceiver FloatingP) Unit := do
  let jmsg ← MonadExcept.ofExcept ((parse message).mapError ParseFault.fault)
  if jmsg.contains "type" then
    let client ← MonadExcept.ofExcept ((← get).client.routeMessage jmsg)
    modify fun s => { s with client := client }
    passTrade jmsg

def onMessageReceived (parse : List UInt8 → Except ParseFault Json) (message : List UInt8) :
    EStateM Fault (FeedReceiver FloatingP) Unit := fun s =>
  match handleMessage parse message s with
  | .ok () s' => .ok () s'
  | .error .parseError s' => .ok () s'
  | .error e s' => .error e s'

end FeedReceiver

/-! ## Malformed messages -/

/-- The message is no JSON object with a type, or its `sequence` or one of the fields of
its trade is not what it should be. -/
inductive Malformed (FloatingP : Type) [FloatingPoint FloatingP]
    (parse : List UInt8 → Except ParseFault Json) (message : List UInt8) : Prop where
  | notJson (e : ParseFault) (h : parse message = .error e)
  | noType (jmsg : Json) (h : parse message = .ok jmsg) (htype : jmsg.contains "type" = false)
  | noProductId (jmsg : Json) (h : parse message = .ok jmsg)
    (hsequence : jmsg.contains "sequence" = true)
    (hproduct : jmsg.stringMember "product_id" = none)
  | noNumber (jmsg : Json) (h : parse message = .ok jmsg)
    (hsequence : jmsg.contains "sequence" = true) (hnumber : ¬ Reads (jmsg.unsignedAt "sequence"))
  | noTrade (jmsg : Json) (h : parse message = .ok jmsg) (htrade : isTradeMsg jmsg = true)
    (hfields : ¬ FieldsOk FloatingP jmsg)

/-- What a message may change of a product: its queue, its last sequence number and
whether it is fetching a book. -/
def CoinbaseFeedProduct.gate (p : CoinbaseFeedProduct) : List Queued × Nat × Bool :=
  (p.messageQueue, p.lastSequenceNumber, p.requestingOrderbook)

/-- No product is touched, and no trade passed on. -/
structure Unaffected (s s' : FeedReceiver FloatingP) : Prop where
  products : ∀ p, (s'.client.prodIdToListener p).map (fun f => f.product.gate) =
    (s.client.prodIdToListener p).map fun f => f.product.gate
  trades : s'.trades = s.trades

/-- The call returns, and a malformed message has no effect. -/
def RejectsMalformed (parse : List UInt8 → Except ParseFault Json) (message : List UInt8)
    (s : FeedReceiver FloatingP) : Prop :=
  ∃ s', FeedReceiver.onMessageReceived parse message s = .ok () s' ∧
    (Malformed FloatingP parse message → Unaffected s s')

/-! ## When it is rejected -/

/-- A message with a `sequence` names a product, and if there is such a product, the
`sequence` is a number. -/
def Routable (client : CoinbaseFeedClient FloatingP) (jmsg : Json) : Prop :=
  jmsg.contains "sequence" = true → ∃ prodId, jmsg.stringMember "product_id" = some prodId ∧
    ((client.prodIdToListener prodId).isSome = true → Reads (jmsg.unsignedAt "sequence"))

/-- The product takes the message for an old one. Where the number after the last one is
`0` again, no message but number `0` is. -/
def CoinbaseFeedProduct.TakesAsOld (p : CoinbaseFeedProduct) (jmsg : Json) : Prop :=
  p.requestingOrderbook = false ∧ seqOf jmsg ≤ following p.lastSequenceNumber ∧
    seqOf jmsg ≤ p.lastSequenceNumber

/-- If the message reaches a product, it is an old one there. -/
def OldIfRouted (client : CoinbaseFeedClient FloatingP) (jmsg : Json) : Prop :=
  ∀ prodId listener, jmsg.contains "sequence" = true →
    jmsg.stringMember "product_id" = some prodId →
    client.prodIdToListener prodId = some listener → listener.product.TakesAsOld jmsg

/-- The messages that the code handles as it should. -/
inductive HandledWell (parse : List UInt8 → Except ParseFault Json) (message : List UInt8)
    (s : FeedReceiver FloatingP) : Prop where
  | notJson (h : parse message = .error .parseError)
  | noType (jmsg : Json) (h : parse message = .ok jmsg) (htype : jmsg.contains "type" = false)
  | typed (jmsg : Json) (h : parse message = .ok jmsg) (hroute : Routable s.client jmsg)
    (htrade : isTradeMsg jmsg = true → FieldsOk FloatingP jmsg ∨
      s.hasTradeListener = false ∧ OldIfRouted s.client jmsg)

/-! ## Routing -/

section

omit [FloatingPoint FloatingP]

/-- `jmsg["product_id"].get<std::string>()` on the mutable message. -/
theorem mutString_eq (jmsg : Json) (key : String) :
    (jmsg.mutIndex key >>= Json.getString) =
      match jmsg.stringMember key with
      | some value => .ok value
      | none => .error .typeError := by
  cases h : jmsg.stringMember key with
  | some value =>
    have hread := Json.mutIndex_of_constIndex (Json.stringMember_eq_some.mp h)
    exact bind_eq_ok.mpr ⟨_, hread, rfl⟩
  | none =>
    refine bind_eq_error.mpr ?_
    rcases Json.mutIndex_of_not_stringMember h with hread | ⟨v, hread, hv⟩
    · exact .inl hread
    · exact .inr ⟨v, hread, hv⟩

/-- Reading the number is all that can fail in `CoinbaseFeedProduct::onMessageReceived`. -/
theorem onMessageReceived_reads (p : CoinbaseFeedProduct) {jmsg : Json} :
    Reads (p.onMessageReceived jmsg) ↔ Reads (jmsg.unsignedAt "sequence") := by
  constructor
  · rintro ⟨p', h⟩
    obtain ⟨n, hn, -⟩ := bind_eq_ok.mp h
    exact ⟨n, hn⟩
  · rintro ⟨n, hn⟩
    refine reads_bind hn ?_
    by_cases hr : p.requestingOrderbook = true
    · rw [if_pos hr]
      exact ⟨_, rfl⟩
    rw [if_neg hr]
    by_cases hgap : n > (p.lastSequenceNumber + 1) % 2 ^ 64
    · rw [if_pos hgap]
      exact ⟨_, rfl⟩
    rw [if_neg hgap]
    by_cases hold : n ≤ p.lastSequenceNumber
    · rw [if_pos hold]
      exact ⟨_, rfl⟩
    · rw [if_neg hold]
      exact ⟨_, rfl⟩

/-- Everything that routing a message can do. -/
inductive Routed (client : CoinbaseFeedClient FloatingP) (jmsg : Json) :
    Except Fault (CoinbaseFeedClient FloatingP) → Prop where
  | unnumbered (hsequence : jmsg.contains "sequence" = false) : Routed client jmsg (.ok client)
  | unnamed (hsequence : jmsg.contains "sequence" = true)
    (hproduct : jmsg.stringMember "product_id" = none) : Routed client jmsg (.error .typeError)
  | unknown (prodId : String) (hsequence : jmsg.contains "sequence" = true)
    (hproduct : jmsg.stringMember "product_id" = some prodId)
    (hlistener : client.prodIdToListener prodId = none) : Routed client jmsg (.ok client)
  | thrown (prodId : String) (listener : FeedState FloatingP) (e : Fault)
    (hsequence : jmsg.contains "sequence" = true)
    (hproduct : jmsg.stringMember "product_id" = some prodId)
    (hlistener : client.prodIdToListener prodId = some listener)
    (hreceived : listener.product.onMessageReceived jmsg = .error e) :
    Routed client jmsg (.error e)
  | received (prodId : String) (listener : FeedState FloatingP) (product : CoinbaseFeedProduct)
    (hsequence : jmsg.contains "sequence" = true)
    (hproduct : jmsg.stringMember "product_id" = some prodId)
    (hlistener : client.prodIdToListener prodId = some listener)
    (hreceived : listener.product.onMessageReceived jmsg = .ok product) :
    Routed client jmsg (.ok (client.setListener prodId { listener with product := product }))

theorem routeMessage_routed (client : CoinbaseFeedClient FloatingP) (jmsg : Json) :
    Routed client jmsg (client.routeMessage jmsg) := by
  unfold CoinbaseFeedClient.routeMessage
  cases hsequence : jmsg.contains "sequence" with
  | false => exact .unnumbered hsequence
  | true =>
    rw [if_pos rfl, ← bind_assoc, mutString_eq]
    cases hproduct : jmsg.stringMember "product_id" with
    | none => exact .unnamed hsequence hproduct
    | some prodId =>
      show Routed client jmsg (match client.prodIdToListener prodId with
        | none => _
        | some listener => _)
      cases hlistener : client.prodIdToListener prodId with
      | none => exact .unknown prodId hsequence hproduct hlistener
      | some listener =>
        dsimp only
        cases hreceived : listener.product.onMessageReceived jmsg with
        | error e => exact .thrown prodId listener e hsequence hproduct hlistener hreceived
        | ok product =>
          exact .received prodId listener product hsequence hproduct hlistener hreceived

/-- Routing returns exactly for the routable messages. -/
theorem routeMessage_reads (client : CoinbaseFeedClient FloatingP) (jmsg : Json) :
    Reads (client.routeMessage jmsg) ↔ Routable client jmsg := by
  have hrouted := routeMessage_routed client jmsg
  generalize client.routeMessage jmsg = result at hrouted
  cases hrouted with
  | unnumbered hsequence =>
    refine iff_of_true ⟨_, rfl⟩ fun h => ?_
    rw [hsequence] at h
    cases h
  | unnamed hsequence hproduct =>
    refine iff_of_false nofun fun h => ?_
    obtain ⟨prodId, h, -⟩ := h hsequence
    rw [hproduct] at h
    cases h
  | unknown prodId hsequence hproduct hlistener =>
    refine iff_of_true ⟨_, rfl⟩ fun _ => ⟨prodId, hproduct, fun h => ?_⟩
    rw [hlistener] at h
    cases h
  | thrown prodId listener e hsequence hproduct hlistener hreceived =>
    refine iff_of_false nofun fun h => ?_
    obtain ⟨prodId', hproduct', hnumber⟩ := h hsequence
    rw [hproduct] at hproduct'
    cases hproduct'
    rw [hlistener] at hnumber
    obtain ⟨p, hp⟩ := (onMessageReceived_reads listener.product).mpr (hnumber rfl)
    rw [hreceived] at hp
    cases hp
  | received prodId listener product hsequence hproduct hlistener hreceived =>
    refine iff_of_true ⟨_, rfl⟩ fun _ => ⟨prodId, hproduct, fun _ => ?_⟩
    exact (onMessageReceived_reads listener.product).mp ⟨product, hreceived⟩

theorem noParseError_routeMessage (client : CoinbaseFeedClient FloatingP) (jmsg : Json) :
    NoParseError (client.routeMessage jmsg) := by
  have hrouted := routeMessage_routed client jmsg
  generalize client.routeMessage jmsg = result at hrouted
  intro h
  subst h
  cases hrouted with
  | thrown prodId listener e hsequence hproduct hlistener hreceived =>
    rcases bind_eq_error.mp hreceived with h | ⟨n, -, h⟩
    · exact noParseError_unsignedAt jmsg "sequence" h
    · split at h
      · cases h
      · split at h
        · cases h
        · split at h <;> cases h

/-- Only an old message leaves the product as it is. -/
theorem gate_eq_iff {p p' : CoinbaseFeedProduct} {jmsg : Json}
    (h : p.onMessageReceived jmsg = .ok p') : p'.gate = p.gate ↔ p.TakesAsOld jmsg := by
  have hlonger : ∀ q : List Queued, q ++ [.message jmsg] ≠ q :=
    fun q hq => List.cons_ne_nil _ _ (List.append_right_eq_self.mp hq)
  obtain ⟨sequence, hsequence, h⟩ := bind_eq_ok.mp h
  obtain rfl := seqOf_of_ok hsequence
  cases hr : p.requestingOrderbook with
  | true =>
    rw [hr, if_pos rfl] at h
    cases h
    refine iff_of_false (fun hgate => hlonger _ (Prod.mk.inj hgate).1) fun hold => ?_
    exact absurd (hr.symm.trans hold.1) (by decide)
  | false =>
    rw [hr, if_neg Bool.false_ne_true] at h
    by_cases hgap : seqOf jmsg > (p.lastSequenceNumber + 1) % 2 ^ 64
    · -- a gap sets the flag that was clear
      rw [if_pos hgap] at h
      cases h
      refine iff_of_false (fun hgate => ?_) fun hold => ?_
      · have hflag : true = p.requestingOrderbook := (Prod.mk.inj (Prod.mk.inj hgate).2).2
        exact absurd (hflag.trans hr) (by decide)
      · exact absurd hgap (Nat.not_lt.mpr hold.2.1)
    · rw [if_neg hgap] at h
      by_cases hold : seqOf jmsg ≤ p.lastSequenceNumber
      · rw [if_pos hold] at h
        cases h
        exact iff_of_true rfl ⟨hr, Nat.not_lt.mp hgap, hold⟩
      · rw [if_neg hold] at h
        cases h
        exact iff_of_false (fun hgate => hlonger _ (Prod.mk.inj hgate).1) fun h => hold h.2.2

/-- Routing leaves every product as it is exactly if the message is old where it goes. -/
theorem unaffected_iff {client client' : CoinbaseFeedClient FloatingP} {jmsg : Json}
    (h : client.routeMessage jmsg = .ok client') :
    (∀ p, (client'.prodIdToListener p).map (fun f => f.product.gate) =
        (client.prodIdToListener p).map fun f => f.product.gate) ↔ OldIfRouted client jmsg := by
  have hrouted := routeMessage_routed client jmsg
  rw [h] at hrouted
  cases hrouted with
  | unnumbered hsequence =>
    refine iff_of_true (fun p => rfl) fun prodId listener hseq => ?_
    rw [hsequence] at hseq
    cases hseq
  | unknown prodId hsequence hproduct hlistener =>
    refine iff_of_true (fun p => rfl) fun prodId' listener _ hproduct' hlistener' => ?_
    rw [hproduct] at hproduct'
    cases hproduct'
    rw [hlistener] at hlistener'
    cases hlistener'
  | received prodId listener product hsequence hproduct hlistener hreceived =>
    constructor
    · intro hsame prodId' listener' _ hproduct' hlistener'
      rw [hproduct] at hproduct'
      cases hproduct'
      rw [hlistener] at hlistener'
      cases hlistener'
      have hgate := hsame prodId
      rw [CoinbaseFeedClient.setListener_self, hlistener] at hgate
      exact (gate_eq_iff hreceived).mp (Option.some.inj hgate)
    · intro hold p
      by_cases hp : p = prodId
      · subst hp
        rw [CoinbaseFeedClient.setListener_self, hlistener]
        have hgate := (gate_eq_iff hreceived).mpr (hold p listener hsequence hproduct hlistener)
        exact congrArg some hgate
      · rw [client.setListener_ne _ hp]

end

/-! ## The whole message -/

namespace FeedReceiver

variable {parse : List UInt8 → Except ParseFault Json} {message : List UInt8} {jmsg : Json}
  {s : FeedReceiver FloatingP}

theorem handleMessage_notJson {e : ParseFault} (h : parse message = .error e) :
    handleMessage parse message s = .error e.fault s := by
  unfold handleMessage
  rw [h]
  rfl

theorem handleMessage_noType (h : parse message = .ok jmsg) (htype : jmsg.contains "type" = false) :
    handleMessage parse message s = .ok () s := by
  unfold handleMessage
  rw [h]
  show (if jmsg.contains "type" = true then _ else pure () : EStateM Fault _ Unit) s = _
  rw [htype]
  rfl

/-- A message with a type is routed first. -/
theorem handleMessage_typed (h : parse message = .ok jmsg) (htype : jmsg.contains "type" = true) :
    handleMessage parse message s =
      match s.client.routeMessage jmsg with
      | .ok client => passTrade jmsg { s with client := client }
      | .error e => .error e s := by
  unfold handleMessage
  rw [h]
  show (if jmsg.contains "type" = true then _ else pure () : EStateM Fault _ Unit) s = _
  rw [htype, if_pos rfl]
  cases hroute : s.client.routeMessage jmsg with
  | ok client =>
    show (MonadExcept.ofExcept (s.client.routeMessage jmsg) >>= _ : EStateM Fault _ Unit) s = _
    rw [hroute]
    rfl
  | error e =>
    show (MonadExcept.ofExcept (s.client.routeMessage jmsg) >>= _ : EStateM Fault _ Unit) s = _
    rw [hroute]
    rfl

theorem passTrade_none (h : (isTradeMsg jmsg && s.hasTradeListener) = false) :
    passTrade jmsg s = .ok () s := by
  show (if (isTradeMsg jmsg && s.hasTradeListener) = true then _ else pure () :
    EStateM Fault _ Unit) s = _
  rw [h]
  rfl

theorem passTrade_some (h : (isTradeMsg jmsg && s.hasTradeListener) = true) :
    passTrade jmsg s =
      match (getTrade jmsg : Except Fault (Option (Trade FloatingP))) with
      | .ok trade => .ok () { s with trades := s.trades ++ trade.toList }
      | .error e => .error e s := by
  show (if (isTradeMsg jmsg && s.hasTradeListener) = true then _ else pure () :
    EStateM Fault _ Unit) s = _
  rw [h, if_pos rfl]
  cases htrade : (getTrade jmsg : Except Fault (Option (Trade FloatingP))) with
  | ok trade => rfl
  | error e => rfl

/-! ### Returning -/

theorem onMessageReceived_of_ok {s' : FeedReceiver FloatingP}
    (h : handleMessage parse message s = .ok () s') :
    onMessageReceived parse message s = .ok () s' := by
  rw [onMessageReceived, h]

/-- An exception that is no `parse_error` leaves the call. -/
theorem onMessageReceived_of_error {e : Fault} {s' : FeedReceiver FloatingP}
    (h : handleMessage parse message s = .error e s') (he : e ≠ .parseError) :
    onMessageReceived parse message s = .error e s' := by
  rw [onMessageReceived, h]
  cases e with
  | parseError => exact absurd rfl he
  | _ => rfl

/-- So the message is not rejected well. -/
theorem not_rejects_of_error {e : Fault} {s' : FeedReceiver FloatingP}
    (h : handleMessage parse message s = .error e s') (he : e ≠ .parseError) :
    ¬ RejectsMalformed parse message s := by
  rintro ⟨t, ht, -⟩
  rw [onMessageReceived_of_error h he] at ht
  cases ht

/-- A call that returns rejects the message well if a malformed one had no effect. -/
theorem rejects_iff_of_ok {s' : FeedReceiver FloatingP}
    (h : handleMessage parse message s = .ok () s') :
    RejectsMalformed parse message s ↔
      (Malformed FloatingP parse message → Unaffected s s') := by
  constructor
  · rintro ⟨t, ht, hmalformed⟩
    rw [onMessageReceived_of_ok h] at ht
    cases ht
    exact hmalformed
  · exact fun hmalformed => ⟨s', onMessageReceived_of_ok h, hmalformed⟩

/-- What is malformed about a message with a type. -/
theorem malformed_iff (h : parse message = .ok jmsg) (htype : jmsg.contains "type" = true) :
    Malformed FloatingP parse message ↔
      (jmsg.contains "sequence" = true ∧ (jmsg.stringMember "product_id" = none ∨
        ¬ Reads (jmsg.unsignedAt "sequence"))) ∨
      (isTradeMsg jmsg = true ∧ ¬ FieldsOk FloatingP jmsg) := by
  constructor
  · rintro (⟨e, h'⟩ | ⟨j, h', htype'⟩ | ⟨j, h', hsequence, hproduct⟩ |
      ⟨j, h', hsequence, hnumber⟩ | ⟨j, h', htrade, hfields⟩)
    all_goals
      rw [h] at h'
      cases h'
    · exact absurd (htype.symm.trans htype') (by decide)
    · exact .inl ⟨hsequence, .inl hproduct⟩
    · exact .inl ⟨hsequence, .inr hnumber⟩
    · exact .inr ⟨htrade, hfields⟩
  · rintro (⟨hsequence, hproduct | hnumber⟩ | ⟨htrade, hfields⟩)
    · exact .noProductId jmsg h hsequence hproduct
    · exact .noNumber jmsg h hsequence hnumber
    · exact .noTrade jmsg h htrade hfields

/-- The messages handled well among those with a type. -/
theorem handledWell_iff (h : parse message = .ok jmsg) (htype : jmsg.contains "type" = true) :
    HandledWell parse message s ↔ Routable s.client jmsg ∧
      (isTradeMsg jmsg = true → FieldsOk FloatingP jmsg ∨
        s.hasTradeListener = false ∧ OldIfRouted s.client jmsg) := by
  constructor
  · rintro (⟨h'⟩ | ⟨j, h', htype'⟩ | ⟨j, h', hroute, htrade⟩)
    all_goals
      rw [h] at h'
      cases h'
    · exact absurd (htype.symm.trans htype') (by decide)
    · exact ⟨hroute, htrade⟩
  · rintro ⟨hroute, htrade⟩
    exact .typed jmsg h hroute htrade

/-- A trade message with all its fields is not malformed. -/
theorem not_malformed_of_fieldsOk (h : parse message = .ok jmsg)
    (htype : jmsg.contains "type" = true) (htrade : isTradeMsg jmsg = true)
    (hfields : FieldsOk FloatingP jmsg) : ¬ Malformed FloatingP parse message := by
  obtain ⟨hnumber, prodId, hproduct⟩ := sequence_of_fieldsOk htrade hfields
  rintro hmalformed
  rcases (malformed_iff h htype).mp hmalformed with ⟨-, hnone | hnot⟩ | ⟨-, hnot⟩
  · obtain ⟨v, hv, hstring⟩ := bind_eq_ok.mp hproduct
    cases v with
    | string s =>
      rw [Json.stringMember_eq_some.mpr hv] at hnone
      cases hnone
    | _ => cases hstring
  · exact hnot hnumber
  · exact hnot hfields

omit [FloatingPoint FloatingP] in
/-- A routable message without a number reaches no product. -/
theorem oldIfRouted_of_noNumber {client : CoinbaseFeedClient FloatingP}
    (hroute : Routable client jmsg)
    (h : jmsg.stringMember "product_id" = none ∨ ¬ Reads (jmsg.unsignedAt "sequence")) :
    OldIfRouted client jmsg := by
  intro prodId listener hsequence hproduct hlistener
  obtain ⟨prodId', hproduct', hnumber⟩ := hroute hsequence
  rw [hproduct] at hproduct'
  cases hproduct'
  rcases h with h | h
  · rw [hproduct] at h
    cases h
  · refine absurd (hnumber ?_) h
    rw [hlistener]
    rfl

/-- The message is routed, and there is no trade to pass on. -/
theorem rejects_iff_of_noTrade {client : CoinbaseFeedClient FloatingP}
    (h : parse message = .ok jmsg) (htype : jmsg.contains "type" = true)
    (hroute : s.client.routeMessage jmsg = .ok client)
    (hnone : (isTradeMsg jmsg && s.hasTradeListener) = false) :
    RejectsMalformed parse message s ↔
      (Malformed FloatingP parse message → OldIfRouted s.client jmsg) := by
  have hhandle : handleMessage parse message s = .ok () { s with client := client } := by
    rw [handleMessage_typed h htype, hroute]
    exact passTrade_none hnone
  rw [rejects_iff_of_ok hhandle]
  refine imp_congr_right fun _ => Iff.trans ?_ (unaffected_iff hroute)
  exact ⟨fun hsame => hsame.products, fun hproducts => ⟨hproducts, rfl⟩⟩

/-- The message is routed, and it is for the trade listener. -/
theorem rejects_iff_of_trade {client : CoinbaseFeedClient FloatingP}
    (h : parse message = .ok jmsg) (htype : jmsg.contains "type" = true)
    (hroute : s.client.routeMessage jmsg = .ok client)
    (hsome : (isTradeMsg jmsg && s.hasTradeListener) = true) :
    RejectsMalformed parse message s ↔ FieldsOk FloatingP jmsg := by
  obtain ⟨htrade, -⟩ := (Bool.and_eq_true _ _ ▸ hsome : isTradeMsg jmsg = true ∧ _)
  have hhandle := handleMessage_typed (s := s) h htype
  rw [hroute] at hhandle
  have hpass := hhandle.trans (passTrade_some hsome)
  cases hget : (getTrade jmsg : Except Fault (Option (Trade FloatingP))) with
  | error e =>
    rw [hget] at hpass
    have he : e ≠ .parseError := by
      rintro rfl
      exact noParseError_getTrade jmsg hget
    refine iff_of_false (not_rejects_of_error hpass he) fun hfields => ?_
    obtain ⟨trade, hok⟩ := getTrade_of_fieldsOk htrade hfields
    rw [hget] at hok
    cases hok
  | ok trade =>
    rw [hget] at hpass
    rw [rejects_iff_of_ok hpass]
    constructor
    · intro hmalformed
      by_contra hfields
      -- the price of a match is not converted, so the trade may be passed on all the same
      have htrades := (hmalformed (.noTrade jmsg h htrade hfields)).trades
      obtain ⟨t, rfl⟩ := Option.isSome_iff_exists.mp (getTrade_isSome htrade hget)
      exact List.cons_ne_nil _ _ (List.append_right_eq_self.mp htrades)
    · exact fun hfields hmalformed =>
        absurd hmalformed (not_malformed_of_fieldsOk h htype htrade hfields)

/-- A text that does not parse is handled well if the exception is a `parse_error`. -/
theorem rejects_iff_of_notJson {e : ParseFault} (h : parse message = .error e) :
    RejectsMalformed parse message s ↔ HandledWell parse message s := by
  have hhandle := handleMessage_notJson (s := s) h
  cases e with
  | parseError =>
    refine iff_of_true ⟨s, ?_, fun _ => ⟨fun _ => rfl, rfl⟩⟩ (.notJson h)
    rw [onMessageReceived, hhandle]
    rfl
  | outOfRange =>
    refine iff_of_false (not_rejects_of_error hhandle (by decide)) ?_
    rintro (⟨h'⟩ | ⟨j, h', -⟩ | ⟨j, h', -, -⟩)
    all_goals
      rw [h] at h'
      cases h'

/-- A message that cannot be routed throws. -/
theorem not_rejects_of_not_routable (h : parse message = .ok jmsg)
    (htype : jmsg.contains "type" = true) (hroute : ¬ Routable s.client jmsg) :
    ¬ RejectsMalformed parse message s := by
  have hhandle := handleMessage_typed (s := s) h htype
  cases hfault : s.client.routeMessage jmsg with
  | ok client => exact absurd ((routeMessage_reads s.client jmsg).mp ⟨client, hfault⟩) hroute
  | error e =>
    rw [hfault] at hhandle
    refine not_rejects_of_error hhandle ?_
    rintro rfl
    exact noParseError_routeMessage s.client jmsg hfault

/-- A message that is routed: its trade decides. -/
theorem rejects_iff_of_routable (h : parse message = .ok jmsg)
    (htype : jmsg.contains "type" = true) (hroutable : Routable s.client jmsg) :
    RejectsMalformed parse message s ↔
      (isTradeMsg jmsg = true → FieldsOk FloatingP jmsg ∨
        s.hasTradeListener = false ∧ OldIfRouted s.client jmsg) := by
  obtain ⟨client, hroute⟩ := (routeMessage_reads s.client jmsg).mpr hroutable
  cases hlistener : (isTradeMsg jmsg && s.hasTradeListener) with
  | true =>
    obtain ⟨htrade, hset⟩ := (Bool.and_eq_true _ _ ▸ hlistener :
      isTradeMsg jmsg = true ∧ s.hasTradeListener = true)
    rw [rejects_iff_of_trade h htype hroute hlistener, hset]
    constructor
    · exact fun hfields _ => .inl hfields
    · exact fun hfields => (hfields htrade).resolve_right fun hnot => nomatch hnot.1
  | false =>
    rw [rejects_iff_of_noTrade h htype hroute hlistener]
    constructor
    · intro hold htrade
      by_cases hfields : FieldsOk FloatingP jmsg
      · exact .inl hfields
      · refine .inr ⟨?_, hold (.noTrade jmsg h htrade hfields)⟩
        rw [htrade] at hlistener
        exact hlistener
    · intro hfields hmalformed
      rcases (malformed_iff h htype).mp hmalformed with ⟨-, hnone⟩ | ⟨htrade, hnot⟩
      · exact oldIfRouted_of_noNumber hroutable hnone
      · exact ((hfields htrade).resolve_left hnot).2

end FeedReceiver

open FeedReceiver

/-- **When a malformed message is rejected without effects**, for every message and every
state: exactly if it is one of those that are handled well. -/
theorem rejects_malformed_iff {parse : List UInt8 → Except ParseFault Json}
    {message : List UInt8} {s : FeedReceiver FloatingP} :
    RejectsMalformed parse message s ↔ HandledWell parse message s := by
  cases h : parse message with
  | error e => exact rejects_iff_of_notJson h
  | ok jmsg =>
    cases htype : jmsg.contains "type" with
    | false =>
      refine iff_of_true ?_ (.noType jmsg h htype)
      exact (rejects_iff_of_ok (handleMessage_noType h htype)).mpr fun _ => ⟨fun _ => rfl, rfl⟩
    | true =>
      rw [handledWell_iff h htype]
      by_cases hroute : Routable s.client jmsg
      · rw [rejects_iff_of_routable h htype hroute, and_iff_right hroute]
      · exact iff_of_false (not_rejects_of_not_routable h htype hroute) fun hwell => hroute hwell.1

/-! ## A match without a size -/

def shortMatch : Json :=
  .object [("type", .string "match"), ("sequence", .unsigned 5), ("product_id", .string "ETH-USD"),
    ("maker_order_id", .string "A"), ("taker_order_id", .string "B"), ("price", .string "100"),
    ("side", .string "sell")]

def shortMatchText : String :=
  "\x7b\"type\": \"match\", \"sequence\": 5, \"product_id\": \"ETH-USD\", " ++
    "\"maker_order_id\": \"A\", \"taker_order_id\": \"B\", \"price\": \"100\", " ++
    "\"side\": \"sell\"\x7d"

def shortMatchBytes : List UInt8 := shortMatchText.toList.map fun c => c.toNat.toUInt8

/-- The parser on this text. -/
def parseShortMatch (message : List UInt8) : Except ParseFault Json :=
  if message = shortMatchBytes then .ok shortMatch else .error .parseError

/-- A product that is live after message 4. -/
def liveReceiver : FeedReceiver Int :=
  { client := (CoinbaseFeedClient.setListener {} "ETH-USD"
      { product :=
        { productId := "ETH-USD"
          lastSequenceNumber := 4
          requestingOrderbook := false
          requestRunning := false } }) }

/-- Message 5 is queued and counted, and then the exception for its missing size leaves
the call. -/
theorem short_match_escapes :
    ∃ s' : FeedReceiver Int,
      Malformed Int parseShortMatch shortMatchBytes ∧
      onMessageReceived parseShortMatch shortMatchBytes liveReceiver = .error .missingKey s' ∧
      (s'.client.prodIdToListener "ETH-USD").map (fun f => f.product.messageQueue.length) =
        some 1 ∧
      (s'.client.prodIdToListener "ETH-USD").map (fun f => f.product.lastSequenceNumber) =
        some 5 ∧
      ¬ RejectsMalformed parseShortMatch shortMatchBytes liveReceiver := by
  have hparse : parseShortMatch shortMatchBytes = .ok shortMatch := if_pos rfl
  obtain ⟨s', hhandle, hqueue, hlast⟩ : ∃ s',
      handleMessage parseShortMatch shortMatchBytes liveReceiver = .error .missingKey s' ∧
      (s'.client.prodIdToListener "ETH-USD").map (fun f => f.product.messageQueue.length) =
        some 1 ∧
      (s'.client.prodIdToListener "ETH-USD").map (fun f => f.product.lastSequenceNumber) =
        some 5 := by
    rw [handleMessage_typed hparse rfl]
    exact ⟨_, rfl, rfl, rfl⟩
  refine ⟨s', ?_, onMessageReceived_of_error hhandle (by decide), hqueue, hlast,
    not_rejects_of_error hhandle (by decide)⟩
  refine .noTrade shortMatch hparse rfl fun hfields => ?_
  obtain ⟨size, hsize, -⟩ := hfields "match" rfl ("size", .numeral) (by decide)
  cases hsize

end QuoteServer
