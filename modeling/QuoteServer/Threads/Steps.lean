import QuoteServer.Threads.Program

/-!
# Where each thread can go

One inversion lemma for each thread: a step takes the thread along an edge of its code,
in a state `s₀` whose flags the step has changed before. `step_edge` puts them together.
The results about the threads are case analyses of these edges; none of them unfolds a
step.
-/

namespace QuoteServer

open EventMachine LockOrder

/-! ## Moves -/

/-- What a move of one thread changes. -/
structure Moved (s s' : ServerThreads) (t : Thread) (q : Point t) : Prop where
  self : s'.point t = q
  other : ∀ u, u ≠ t → s'.point u = s.point u
  requesting : s'.requestingOrderbook = s.requestingOrderbook
  listeners : s'.listeners = s.listeners
  consistent : s.locks.Consistent → s'.locks.Consistent

theorem moved {s s' : ServerThreads} {t : Thread} {q : Point t} (h : s.move t q = some s') :
    Moved s s' t q := by
  obtain ⟨locks, hmove, rfl⟩ := Option.map_eq_some_iff.mp h
  exact ⟨LockState.move_self hmove, fun u hu => LockState.move_ne hmove hu, rfl, rfl,
    fun hs => LockState.consistent_move hs hmove⟩

/-- A thread does not hold what it is about to lock. -/
theorem not_held_of_wants {t : Thread} {q : Point t} {m : Mutex}
    (h : m ∈ serverProgram.wants t q) : m ∉ serverProgram.held t q := by
  cases t with
  | client => cases q <;> simp [ClientPoint.wants, ClientPoint.held] at h ⊢ <;> simp [h]
  | websocket => cases q <;> simp [WebsocketPoint.wants, WebsocketPoint.held] at h ⊢ <;> simp [h]
  | market => cases q <;> simp [MarketPoint.wants, MarketPoint.held] at h ⊢
  | request p => cases q <;> simp [RequestPoint.wants, RequestPoint.held] at h ⊢
  | messages p => cases q <;> simp [MessagesPoint.wants, MessagesPoint.held] at h ⊢

/-- The client-service thread and the websocket thread hold `m_mutexFeedData` only one at
a time. -/
theorem feedData_exclusive {s : ServerThreads} (hs : s.locks.Consistent)
    (hclient : Mutex.feedData ∈ ClientPoint.held (s.point .client))
    (hwebsocket : Mutex.feedData ∈ WebsocketPoint.held (s.point .websocket)) : False := by
  have h : Thread.client = Thread.websocket := hs.unique hclient hwebsocket
  cases h

/-- The flags with which a product starts. -/
def ServerThreads.withFlags (s : ServerThreads) (p : String) : ServerThreads :=
  { s with
    requestingOrderbook := Function.update s.requestingOrderbook p true
    isRunning := Function.update s.isRunning p true }

/-- The constructor of `CoinbaseFeedProduct`, move by move. -/
structure Starts (s s₁ s₂ s₃ : ServerThreads) (p : String) : Prop where
  request : (s.withFlags p).move (.request p) RequestPoint.request = some s₁
  messages : s₁.move (.messages p) MessagesPoint.loop = some s₂
  listener : s₃ = { s₂ with listeners := Function.update s₂.listeners p true }

theorem startProduct_moves {s s₃ : ServerThreads} {p : String}
    (h : s.startProduct p = some s₃) : ∃ s₁ s₂, Starts s s₁ s₂ s₃ p := by
  unfold ServerThreads.startProduct at h
  obtain ⟨s₁, h₁, h⟩ := Option.bind_eq_some_iff.mp h
  obtain ⟨s₂, h₂, rfl⟩ := Option.map_eq_some_iff.mp h
  exact ⟨s₁, s₂, h₁, h₂, rfl⟩

/-! ## The client-service thread -/

/-- The edges of `Market::subscribe` and `Market::unsubscribe` with the calls they make. -/
inductive ClientEdge (s : ServerThreads) :
    ClientPoint → ServerThreads → ClientPoint → Prop where
  | subscribe (p : String) : ClientEdge s .idle s (.subscribeMarket p)
  | unsubscribe (p : String) : ClientEdge s .idle s (.unsubscribeMarket p)
  | subscribeMarket (p : String) :
    ClientEdge s (.subscribeMarket p) s (.subscribeProducts p)
  | oldProduct (p : String) (h : s.products p = true) :
    ClientEdge s (.subscribeProducts p) s (.subscribeLeave p)
  | newProduct (p : String) :
    ClientEdge s (.subscribeProducts p)
      { s with products := Function.update s.products p true } (.subscribeFeed p)
  | subscribeFeed (p : String) : ClientEdge s (.subscribeFeed p) s (.subscribeListener p)
  | oldListener (p : String) (h : s.listeners p = true) :
    ClientEdge s (.subscribeListener p) s (.subscribeLeave p)
  | newListener (p : String) (s₀ : ServerThreads) (h : s.listeners p = false)
      (hstart : s.startProduct p = some s₀) :
    ClientEdge s (.subscribeListener p) s₀ (.subscribeLeave p)
  | subscribeLeave (p : String) : ClientEdge s (.subscribeLeave p) s (.subscribeTrades p)
  | subscribeTrades (p : String) : ClientEdge s (.subscribeTrades p) s (.subscribePublisher p)
  | subscribePublisher (p : String) : ClientEdge s (.subscribePublisher p) s .idle
  | unsubscribeMarket (p : String) :
    ClientEdge s (.unsubscribeMarket p) s (.unsubscribeProduct p)
  | clientsLeft (p : String) : ClientEdge s (.unsubscribeProduct p) s .idle
  | noClientsLeft (p : String) : ClientEdge s (.unsubscribeProduct p) s (.unsubscribeFeed p)
  | unsubscribeFeed (p : String) :
    ClientEdge s (.unsubscribeFeed p) s (.unsubscribeListener p)
  | listener (p : String) (h : s.listeners p = true) :
    ClientEdge s (.unsubscribeListener p) s (.joinRequest p)
  | noListener (p : String) (h : s.listeners p = false) :
    ClientEdge s (.unsubscribeListener p) s (.unsubscribeErase p)
  | joinRequest (p : String) (h : RequestPoint.isEnded (s.point (.request p)) = true) :
    ClientEdge s (.joinRequest p)
      { s with isRunning := Function.update s.isRunning p false } (.joinMessages p)
  | joinMessages (p : String) (h : MessagesPoint.isEnded (s.point (.messages p)) = true) :
    ClientEdge s (.joinMessages p)
      { s with listeners := Function.update s.listeners p false } (.unsubscribeErase p)
  | unsubscribeErase (p : String) : ClientEdge s (.unsubscribeErase p) s (.unsubscribeLeave p)
  | unsubscribeLeave (p : String) :
    ClientEdge s (.unsubscribeLeave p)
      { s with products := Function.update s.products p false } .idle

theorem clientStep_edge {s s' : ServerThreads} {clientsLeft : Bool}
    (h : s.clientStep clientsLeft = some s') :
    ∃ s₀ q, ClientEdge s (s.point .client) s₀ q ∧ s₀.move .client q = some s' := by
  unfold ServerThreads.clientStep at h
  cases hc : s.point .client with
  | idle =>
    rw [hc] at h
    cases h
  | subscribeMarket p =>
    rw [hc] at h
    exact ⟨_, _, .subscribeMarket p, h⟩
  | subscribeProducts p =>
    rw [hc] at h
    dsimp only at h
    by_cases hp : s.products p = true
    · rw [if_pos hp] at h
      exact ⟨_, _, .oldProduct p hp, h⟩
    · rw [if_neg hp] at h
      exact ⟨_, _, .newProduct p, h⟩
  | subscribeFeed p =>
    rw [hc] at h
    exact ⟨_, _, .subscribeFeed p, h⟩
  | subscribeListener p =>
    rw [hc] at h
    dsimp only at h
    by_cases hp : s.listeners p = true
    · rw [if_pos hp] at h
      exact ⟨_, _, .oldListener p hp, h⟩
    · rw [if_neg hp] at h
      obtain ⟨s₀, hstart, h⟩ := Option.bind_eq_some_iff.mp h
      exact ⟨_, _, .newListener p s₀ (Bool.eq_false_iff.mpr hp) hstart, h⟩
  | subscribeLeave p =>
    rw [hc] at h
    exact ⟨_, _, .subscribeLeave p, h⟩
  | subscribeTrades p =>
    rw [hc] at h
    exact ⟨_, _, .subscribeTrades p, h⟩
  | subscribePublisher p =>
    rw [hc] at h
    exact ⟨_, _, .subscribePublisher p, h⟩
  | unsubscribeMarket p =>
    rw [hc] at h
    exact ⟨_, _, .unsubscribeMarket p, h⟩
  | unsubscribeProduct p =>
    rw [hc] at h
    cases clientsLeft with
    | true => exact ⟨_, _, .clientsLeft p, h⟩
    | false => exact ⟨_, _, .noClientsLeft p, h⟩
  | unsubscribeFeed p =>
    rw [hc] at h
    exact ⟨_, _, .unsubscribeFeed p, h⟩
  | unsubscribeListener p =>
    rw [hc] at h
    dsimp only at h
    by_cases hp : s.listeners p = true
    · rw [if_pos hp] at h
      exact ⟨_, _, .listener p hp, h⟩
    · rw [if_neg hp] at h
      exact ⟨_, _, .noListener p (Bool.eq_false_iff.mpr hp), h⟩
  | joinRequest p =>
    rw [hc] at h
    dsimp only at h
    by_cases hended : RequestPoint.isEnded (s.point (.request p)) = true
    · rw [if_pos hended] at h
      exact ⟨_, _, .joinRequest p hended, h⟩
    · rw [if_neg hended] at h
      cases h
  | joinMessages p =>
    rw [hc] at h
    dsimp only at h
    by_cases hended : MessagesPoint.isEnded (s.point (.messages p)) = true
    · rw [if_pos hended] at h
      exact ⟨_, _, .joinMessages p hended, h⟩
    · rw [if_neg hended] at h
      cases h
  | unsubscribeErase p =>
    rw [hc] at h
    exact ⟨_, _, .unsubscribeErase p, h⟩
  | unsubscribeLeave p =>
    rw [hc] at h
    exact ⟨_, _, .unsubscribeLeave p, h⟩

/-! ## The websocket thread -/

/-- The edges of `CoinbaseFeedClient::onMessageReceived` with the calls it makes, but for
the `join`. -/
inductive WebsocketEdge (s : ServerThreads) :
    WebsocketPoint → ServerThreads → WebsocketPoint → Prop where
  | message (prodId : Option String) (trade : Bool) :
    WebsocketEdge s .idle s (.feed prodId trade)
  | feed (prodId : Option String) (trade : Bool) :
    WebsocketEdge s (.feed prodId trade) s (.feedMessage prodId trade)
  | listener (p : String) (trade : Bool) (h : s.listeners p = true) :
    WebsocketEdge s (.feedMessage (some p) trade) s (.product p trade)
  | noListener (prodId : Option String) (trade : Bool) :
    WebsocketEdge s (.feedMessage prodId trade) s (.isTrade trade)
  | product (p : String) (trade : Bool) :
    WebsocketEdge s (.product p trade) s (.productMessage p trade)
  | noGap (p : String) (trade : Bool) :
    WebsocketEdge s (.productMessage p trade) s (.productLeave p trade)
  | gap (p : String) (trade : Bool) (h : s.requestingOrderbook p = false) :
    WebsocketEdge s (.productMessage p trade)
      { s with requestingOrderbook := Function.update s.requestingOrderbook p true }
      (.joinRequest p trade)
  | productLeave (p : String) (trade : Bool) :
    WebsocketEdge s (.productLeave p trade) s (.isTrade trade)
  | trade : WebsocketEdge s (.isTrade true) s .onTrade
  | noTrade : WebsocketEdge s (.isTrade false) s .feedLeave
  | onTrade : WebsocketEdge s .onTrade s .publish
  | publish : WebsocketEdge s .publish s .feedLeave
  | feedLeave : WebsocketEdge s .feedLeave s .idle

/-- The `join` of a request, and the start of the next one. -/
structure Restarts (s s₁ s' : ServerThreads) (p : String) (trade : Bool) : Prop where
  point_eq : s.point .websocket = WebsocketPoint.joinRequest p trade
  ended : RequestPoint.isEnded (s.point (.request p)) = true
  leave : s.move .websocket (.productLeave p trade) = some s₁
  start : s₁.move (.request p) RequestPoint.request = some s'

theorem websocketStep_edge {s s' : ServerThreads} {gap : Bool}
    (h : s.websocketStep gap = some s') :
    (∃ s₀ q, WebsocketEdge s (s.point .websocket) s₀ q ∧ s₀.move .websocket q = some s') ∨
      ∃ s₁ p trade, Restarts s s₁ s' p trade := by
  unfold ServerThreads.websocketStep at h
  cases hw : s.point .websocket with
  | idle =>
    rw [hw] at h
    cases h
  | feed prodId trade =>
    rw [hw] at h
    exact .inl ⟨_, _, .feed prodId trade, h⟩
  | feedMessage prodId trade =>
    rw [hw] at h
    dsimp only at h
    cases prodId with
    | none => exact .inl ⟨_, _, .noListener none trade, h⟩
    | some p =>
      dsimp only at h
      by_cases hp : s.listeners p = true
      · rw [if_pos hp] at h
        exact .inl ⟨_, _, .listener p trade hp, h⟩
      · rw [if_neg hp] at h
        exact .inl ⟨_, _, .noListener (some p) trade, h⟩
  | product p trade =>
    rw [hw] at h
    exact .inl ⟨_, _, .product p trade, h⟩
  | productMessage p trade =>
    rw [hw] at h
    dsimp only at h
    by_cases hr : s.requestingOrderbook p = true
    · rw [if_pos hr] at h
      exact .inl ⟨_, _, .noGap p trade, h⟩
    · rw [if_neg hr] at h
      cases gap with
      | true => exact .inl ⟨_, _, .gap p trade (Bool.eq_false_iff.mpr hr), h⟩
      | false => exact .inl ⟨_, _, .noGap p trade, h⟩
  | joinRequest p trade =>
    rw [hw] at h
    dsimp only at h
    by_cases hended : RequestPoint.isEnded (s.point (.request p)) = true
    · rw [if_pos hended] at h
      obtain ⟨s₁, hleave, hstart⟩ := Option.bind_eq_some_iff.mp h
      exact .inr ⟨s₁, p, trade, hw, hended, hleave, hstart⟩
    · rw [if_neg hended] at h
      cases h
  | productLeave p trade =>
    rw [hw] at h
    exact .inl ⟨_, _, .productLeave p trade, h⟩
  | isTrade trade =>
    rw [hw] at h
    cases trade with
    | true => exact .inl ⟨_, _, .trade, h⟩
    | false => exact .inl ⟨_, _, .noTrade, h⟩
  | onTrade =>
    rw [hw] at h
    exact .inl ⟨_, _, .onTrade, h⟩
  | publish =>
    rw [hw] at h
    exact .inl ⟨_, _, .publish, h⟩
  | feedLeave =>
    rw [hw] at h
    exact .inl ⟨_, _, .feedLeave, h⟩

/-! ## The other threads -/

/-- The edges of the market thread's loop. -/
inductive MarketEdge : MarketPoint → MarketPoint → Prop where
  | changes : MarketEdge .changes .changesHeld
  | wait : MarketEdge .changesHeld .changesWait
  | noWait : MarketEdge .changesHeld .process
  | changesWait : MarketEdge .changesWait .changes
  | process : MarketEdge .process .processHeld
  | processHeld : MarketEdge .processHeld .changes

theorem marketStep_edge {s s' : ServerThreads} {wait : Bool} (h : s.marketStep wait = some s') :
    ∃ q, MarketEdge (s.point .market) q ∧ s.move .market q = some s' := by
  unfold ServerThreads.marketStep at h
  cases hm : s.point .market with
  | changes =>
    rw [hm] at h
    exact ⟨_, .changes, h⟩
  | changesHeld =>
    rw [hm] at h
    cases wait with
    | true => exact ⟨_, .wait, h⟩
    | false => exact ⟨_, .noWait, h⟩
  | changesWait =>
    rw [hm] at h
    exact ⟨_, .changesWait, h⟩
  | process =>
    rw [hm] at h
    exact ⟨_, .process, h⟩
  | processHeld =>
    rw [hm] at h
    exact ⟨_, .processHeld, h⟩

/-- The edges of `requestFullOrderBookImpl`. -/
inductive RequestEdge (s : ServerThreads) (p : String) :
    RequestPoint → ServerThreads → RequestPoint → Prop where
  | valid : RequestEdge s p .request s .merge
  | invalid : RequestEdge s p .request s .ended
  | merge : RequestEdge s p .merge s .mergeHeld
  | mergeHeld : RequestEdge s p .mergeHeld
      { s with requestingOrderbook := Function.update s.requestingOrderbook p false } .mergeLeave
  | mergeLeave : RequestEdge s p .mergeLeave s .ended

theorem requestStep_edge {s s' : ServerThreads} {p : String} {valid : Bool}
    (h : s.requestStep p valid = some s') :
    ∃ s₀ q, RequestEdge s p (s.point (.request p)) s₀ q ∧ s₀.move (.request p) q = some s' := by
  unfold ServerThreads.requestStep at h
  cases hr : s.point (.request p) with
  | request =>
    rw [hr] at h
    cases valid with
    | true => exact ⟨_, _, .valid, h⟩
    | false => exact ⟨_, _, .invalid, h⟩
  | merge =>
    rw [hr] at h
    exact ⟨_, _, .merge, h⟩
  | mergeHeld =>
    rw [hr] at h
    exact ⟨_, _, .mergeHeld, h⟩
  | mergeLeave =>
    rw [hr] at h
    exact ⟨_, _, .mergeLeave, h⟩
  | ended =>
    rw [hr] at h
    cases h

/-- The edges of `messageLoop`. -/
inductive MessagesEdge : MessagesPoint → MessagesPoint → Prop where
  | running : MessagesEdge .loop .queue
  | notRunning : MessagesEdge .loop .ended
  | queue : MessagesEdge .queue .queueHeld
  | wait : MessagesEdge .queueHeld .queueWait
  | noWait : MessagesEdge .queueHeld .handle
  | queueWait : MessagesEdge .queueWait .queue
  | message : MessagesEdge .handle .onProductChange
  | noMessage : MessagesEdge .handle .loop
  | onProductChange : MessagesEdge .onProductChange .onProductChangeHeld
  | onProductChangeHeld : MessagesEdge .onProductChangeHeld .handle

theorem messagesStep_edge {s s' : ServerThreads} {p : String} {go : Bool}
    (h : s.messagesStep p go = some s') :
    ∃ q, MessagesEdge (s.point (.messages p)) q ∧ s.move (.messages p) q = some s' := by
  unfold ServerThreads.messagesStep at h
  cases hm : s.point (.messages p) with
  | loop =>
    rw [hm] at h
    dsimp only at h
    by_cases hr : s.isRunning p = true
    · rw [if_pos hr] at h
      exact ⟨_, .running, h⟩
    · rw [if_neg hr] at h
      exact ⟨_, .notRunning, h⟩
  | queue =>
    rw [hm] at h
    exact ⟨_, .queue, h⟩
  | queueHeld =>
    rw [hm] at h
    cases go with
    | true => exact ⟨_, .wait, h⟩
    | false => exact ⟨_, .noWait, h⟩
  | queueWait =>
    rw [hm] at h
    exact ⟨_, .queueWait, h⟩
  | handle =>
    rw [hm] at h
    cases go with
    | true => exact ⟨_, .message, h⟩
    | false => exact ⟨_, .noMessage, h⟩
  | onProductChange =>
    rw [hm] at h
    exact ⟨_, .onProductChange, h⟩
  | onProductChangeHeld =>
    rw [hm] at h
    exact ⟨_, .onProductChangeHeld, h⟩
  | ended =>
    rw [hm] at h
    cases h

/-! ## What comes in -/

/-- A request or a message finds its thread idle. -/
theorem step_subscribe {s s' : ServerThreads} {p : String}
    (h : s.step (.subscribe p) = some s') :
    s.point .client = ClientPoint.idle ∧ s.move .client (.subscribeMarket p) = some s' := by
  unfold ServerThreads.step at h
  dsimp only at h
  cases hc : s.point .client with
  | idle =>
    rw [hc] at h
    exact ⟨rfl, h⟩
  | _ =>
    rw [hc] at h
    cases h

theorem step_unsubscribe {s s' : ServerThreads} {p : String}
    (h : s.step (.unsubscribe p) = some s') :
    s.point .client = ClientPoint.idle ∧ s.move .client (.unsubscribeMarket p) = some s' := by
  unfold ServerThreads.step at h
  dsimp only at h
  cases hc : s.point .client with
  | idle =>
    rw [hc] at h
    dsimp only at h
    by_cases hp : s.products p = true
    · rw [if_pos hp] at h
      exact ⟨rfl, h⟩
    · rw [if_neg hp] at h
      cases h
  | _ =>
    rw [hc] at h
    cases h

theorem step_message {s s' : ServerThreads} {prodId : Option String} {trade : Bool}
    (h : s.step (.message prodId trade) = some s') :
    s.point .websocket = WebsocketPoint.idle ∧
      s.move .websocket (.feed prodId trade) = some s' := by
  unfold ServerThreads.step at h
  dsimp only at h
  cases hw : s.point .websocket with
  | idle =>
    rw [hw] at h
    exact ⟨rfl, h⟩
  | _ =>
    rw [hw] at h
    cases h

/-! ## Any step -/

/-- A step of one of the threads. -/
inductive StepEdge (s s' : ServerThreads) : Prop where
  | client (s₀ : ServerThreads) (q : ClientPoint)
      (hedge : ClientEdge s (s.point .client) s₀ q) (hmove : s₀.move .client q = some s')
  | websocket (s₀ : ServerThreads) (q : WebsocketPoint)
      (hedge : WebsocketEdge s (s.point .websocket) s₀ q)
      (hmove : s₀.move .websocket q = some s')
  | restarts (s₁ : ServerThreads) (p : String) (trade : Bool) (h : Restarts s s₁ s' p trade)
  | market (q : MarketPoint) (hedge : MarketEdge (s.point .market) q)
      (hmove : s.move .market q = some s')
  | request (p : String) (s₀ : ServerThreads) (q : RequestPoint)
      (hedge : RequestEdge s p (s.point (.request p)) s₀ q)
      (hmove : s₀.move (.request p) q = some s')
  | messages (p : String) (q : MessagesPoint)
      (hedge : MessagesEdge (s.point (.messages p)) q)
      (hmove : s.move (.messages p) q = some s')

theorem step_edge {s s' : ServerThreads} {e : ThreadEvent} (h : s.step e = some s') :
    StepEdge s s' := by
  cases e with
  | subscribe p =>
    obtain ⟨hidle, hmove⟩ := step_subscribe h
    exact .client s _ (hidle ▸ .subscribe p) hmove
  | unsubscribe p =>
    obtain ⟨hidle, hmove⟩ := step_unsubscribe h
    exact .client s _ (hidle ▸ .unsubscribe p) hmove
  | message prodId trade =>
    obtain ⟨hidle, hmove⟩ := step_message h
    exact .websocket s _ (hidle ▸ .message prodId trade) hmove
  | client clientsLeft =>
    obtain ⟨s₀, q, hedge, hmove⟩ := clientStep_edge h
    exact .client s₀ q hedge hmove
  | websocket gap =>
    rcases websocketStep_edge h with ⟨s₀, q, hedge, hmove⟩ | ⟨s₁, p, trade, hrestarts⟩
    · exact .websocket s₀ q hedge hmove
    · exact .restarts s₁ p trade hrestarts
  | market wait =>
    obtain ⟨q, hedge, hmove⟩ := marketStep_edge h
    exact .market q hedge hmove
  | request p valid =>
    obtain ⟨s₀, q, hedge, hmove⟩ := requestStep_edge h
    exact .request p s₀ q hedge hmove
  | messages p go =>
    obtain ⟨q, hedge, hmove⟩ := messagesStep_edge h
    exact .messages p q hedge hmove

end QuoteServer
