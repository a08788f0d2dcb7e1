import QuoteServer.Threads.Steps

/-!
# What the threads keep, step by step

`mutexTrades` is taken before `m_mutexFeedData` by `unsubscribe`, and after it by a trade
message. `NoOverlap` is the condition that the two do not meet. `Orderly` is what every
step under that condition keeps: who holds which mutex, that the two sides stay apart,
and that a request that is joined because of a gap has left its critical section.
-/

namespace QuoteServer

open EventMachine LockOrder

/-! ## Overlap -/

/-- `unsubscribe` has locked `marketDataMutex` and `mutexTrades`, but not yet
`m_mutexFeedData`. -/
def ClientPoint.inUnsubscribe : ClientPoint → Bool
  | unsubscribeProduct _ | unsubscribeFeed _ => true
  | _ => false

/-- A trade message has locked `m_mutexFeedData`, but not yet `mutexTrades`. -/
def WebsocketPoint.tradePending : WebsocketPoint → Bool
  | feedMessage _ trade | product _ trade | productMessage _ trade | joinRequest _ trade
  | productLeave _ trade | isTrade trade => trade
  | onTrade => true
  | _ => false

/-- The condition on a step: neither of the two locks its first mutex while the other is
between its first and its second. -/
structure NoOverlap (s : ServerThreads) (e : ThreadEvent) : Prop where
  unsubscribe : ∀ clientsLeft p, e = .client clientsLeft →
    s.point .client = ClientPoint.unsubscribeMarket p →
    WebsocketPoint.tradePending (s.point .websocket) = false
  trade : ∀ gap prodId, e = .websocket gap →
    s.point .websocket = WebsocketPoint.feed prodId true →
    ClientPoint.inUnsubscribe (s.point .client) = false

/-! ## The invariant -/

/-- The thread has not yet cleared `m_requestingOrderbook`, and may still do so. -/
def RequestPoint.isActive : RequestPoint → Bool
  | request | merge | mergeHeld => true
  | _ => false

structure Orderly (s : ServerThreads) : Prop where
  consistent : s.locks.Consistent
  /-- While a request is active, the product is requesting its order book. -/
  requesting : ∀ p, RequestPoint.isActive (s.point (.request p)) = true →
    s.requestingOrderbook p = true
  /-- A request that is joined because of a gap is over. -/
  gap : ∀ p trade, s.point .websocket = WebsocketPoint.joinRequest p trade →
    RequestPoint.isActive (s.point (.request p)) = false ∧ s.requestingOrderbook p = true
  /-- No overlap. -/
  apart : ClientPoint.inUnsubscribe (s.point .client) = true →
    WebsocketPoint.tradePending (s.point .websocket) = false

theorem orderly_initial : Orderly .initial where
  consistent := by
    intro m t
    refine iff_of_false (fun h => nomatch h) ?_
    cases t <;> exact List.not_mem_nil
  requesting := fun p h => nomatch h
  gap := fun p trade h => nomatch h
  apart := fun h => nomatch h

/-! ## Steps that concern one side only -/

/-- A step that moves neither the client-service thread nor the websocket thread nor a
request. -/
theorem Orderly.of_same {s s' : ServerThreads} (hs : Orderly s)
    (hconsistent : s'.locks.Consistent) (hclient : s'.point .client = s.point .client)
    (hwebsocket : s'.point .websocket = s.point .websocket)
    (hrequest : ∀ p, s'.point (.request p) = s.point (.request p))
    (hrequesting : s'.requestingOrderbook = s.requestingOrderbook) : Orderly s' where
  consistent := hconsistent
  requesting := by
    intro p h
    rw [hrequest] at h
    rw [hrequesting]
    exact hs.requesting p h
  gap := by
    intro p trade h
    rw [hwebsocket] at h
    rw [hrequest, hrequesting]
    exact hs.gap p trade h
  apart := by
    rw [hclient, hwebsocket]
    exact hs.apart

/-- A move of the client-service thread. It comes into the overlap only from outside. -/
theorem Orderly.client {s s' : ServerThreads} {q : ClientPoint} (hs : Orderly s)
    (h : s.move .client q = some s')
    (hapart : ClientPoint.inUnsubscribe q = true →
      WebsocketPoint.tradePending (s.point .websocket) = false) : Orderly s' where
  consistent := (moved h).consistent hs.consistent
  requesting := by
    intro p hp
    rw [(moved h).other _ (by simp)] at hp
    rw [(moved h).requesting]
    exact hs.requesting p hp
  gap := by
    intro p trade hp
    rw [(moved h).other _ (by simp)] at hp
    rw [(moved h).other _ (by simp), (moved h).requesting]
    exact hs.gap p trade hp
  apart := by
    rw [(moved h).self, (moved h).other _ (by simp)]
    exact hapart

/-- A move of the websocket thread. -/
theorem Orderly.websocket {s s' : ServerThreads} {q : WebsocketPoint} (hs : Orderly s)
    (h : s.move .websocket q = some s')
    (hgap : ∀ p trade, q = .joinRequest p trade →
      RequestPoint.isActive (s.point (.request p)) = false ∧ s.requestingOrderbook p = true)
    (hapart : ClientPoint.inUnsubscribe (s.point .client) = true →
      WebsocketPoint.tradePending q = false) : Orderly s' where
  consistent := (moved h).consistent hs.consistent
  requesting := by
    intro p hp
    rw [(moved h).other _ (by simp)] at hp
    rw [(moved h).requesting]
    exact hs.requesting p hp
  gap := by
    intro p trade hp
    rw [(moved h).self] at hp
    rw [(moved h).other _ (by simp), (moved h).requesting]
    exact hgap p trade hp
  apart := by
    rw [(moved h).self, (moved h).other _ (by simp)]
    exact hapart

/-- A request thread goes on, or is started while the product requests its order book. -/
theorem Orderly.request {s s' : ServerThreads} {p : String} {q : RequestPoint} (hs : Orderly s)
    (h : s.move (.request p) q = some s')
    (hrequesting : RequestPoint.isActive q = true → s.requestingOrderbook p = true)
    (hgap : ∀ trade, s.point .websocket = WebsocketPoint.joinRequest p trade →
      RequestPoint.isActive q = false) : Orderly s' where
  consistent := (moved h).consistent hs.consistent
  requesting := by
    intro p' hp
    rw [(moved h).requesting]
    by_cases heq : p' = p
    · subst heq
      rw [(moved h).self] at hp
      exact hrequesting hp
    · rw [(moved h).other _ (by simpa using heq)] at hp
      exact hs.requesting p' hp
  gap := by
    intro p' trade hp
    rw [(moved h).other _ (by simp)] at hp
    rw [(moved h).requesting]
    refine ⟨?_, (hs.gap p' trade hp).2⟩
    by_cases heq : p' = p
    · subst heq
      rw [(moved h).self]
      exact hgap trade hp
    · rw [(moved h).other _ (by simpa using heq)]
      exact (hs.gap p' trade hp).1
  apart := by
    rw [(moved h).other _ (by simp), (moved h).other _ (by simp)]
    exact hs.apart

/-- Other flags than `m_requestingOrderbook` do not matter. -/
theorem Orderly.of_flags {s s' : ServerThreads} (hs : Orderly s) (hlocks : s'.locks = s.locks)
    (hrequesting : s'.requestingOrderbook = s.requestingOrderbook) : Orderly s' := by
  have hpoint : ∀ t, s'.point t = s.point t := fun t => congrArg (fun l => l.point t) hlocks
  exact hs.of_same (hlocks ▸ hs.consistent) (hpoint _) (hpoint _) (fun p => hpoint _) hrequesting

/-- Setting `m_requestingOrderbook`. -/
theorem Orderly.setRequesting {s : ServerThreads} (hs : Orderly s) (p : String) :
    Orderly { s with
      requestingOrderbook := Function.update s.requestingOrderbook p true } where
  consistent := hs.consistent
  requesting := by
    intro p' hp
    by_cases heq : p' = p
    · subst heq
      exact Function.update_self ..
    · exact (Function.update_of_ne heq ..).trans (hs.requesting p' hp)
  gap := by
    intro p' trade hp
    refine ⟨(hs.gap p' trade hp).1, ?_⟩
    by_cases heq : p' = p
    · subst heq
      exact Function.update_self ..
    · exact (Function.update_of_ne heq ..).trans (hs.gap p' trade hp).2
  apart := hs.apart

/-- Clearing it, in the critical section of the request: the websocket thread is not at
the join of the same request, which is still active. -/
theorem Orderly.clearRequesting {s s' : ServerThreads} {p : String} (hs : Orderly s)
    (hactive : RequestPoint.isActive (s.point (.request p)) = true)
    (h : { s with
      requestingOrderbook := Function.update s.requestingOrderbook p false }.move
        (.request p) RequestPoint.mergeLeave = some s') : Orderly s' where
  consistent := (moved h).consistent hs.consistent
  requesting := by
    intro p' hp
    have hne : p' ≠ p := by
      rintro rfl
      rw [(moved h).self] at hp
      cases hp
    rw [(moved h).other _ (by simpa using hne)] at hp
    rw [(moved h).requesting]
    exact (Function.update_of_ne hne ..).trans (hs.requesting p' hp)
  gap := by
    intro p' trade hp
    rw [(moved h).other _ (by simp)] at hp
    obtain ⟨hover, hrequesting⟩ := hs.gap p' trade hp
    have hne : p' ≠ p := by
      rintro rfl
      rw [hactive] at hover
      cases hover
    rw [(moved h).other _ (by simpa using hne), (moved h).requesting]
    exact ⟨hover, (Function.update_of_ne hne ..).trans hrequesting⟩
  apart := by
    rw [(moved h).other _ (by simp), (moved h).other _ (by simp)]
    exact hs.apart

/-! ## One step of each thread -/

/-- A move of a message thread or of the market thread. -/
theorem Orderly.other {s s' : ServerThreads} {t : Thread} {q : Point t} (hs : Orderly s)
    (h : s.move t q = some s') (hclient : t ≠ .client) (hwebsocket : t ≠ .websocket)
    (hrequest : ∀ p, t ≠ .request p) : Orderly s' :=
  hs.of_same ((moved h).consistent hs.consistent) ((moved h).other _ hclient.symm)
    ((moved h).other _ hwebsocket.symm) (fun p => (moved h).other _ (hrequest p).symm)
    (moved h).requesting

theorem Orderly.messages {s s' : ServerThreads} {p : String} {q : MessagesPoint}
    (hs : Orderly s) (h : s.move (.messages p) q = some s') : Orderly s' :=
  hs.other h (by simp) (by simp) (by simp)

/-- A new product, created under `m_mutexFeedData`. -/
theorem orderly_startProduct {s s' : ServerThreads} {p : String} (hs : Orderly s)
    (hclient : Mutex.feedData ∈ ClientPoint.held (s.point .client))
    (h : s.startProduct p = some s') :
    Orderly s' ∧ s'.point .websocket = s.point .websocket := by
  obtain ⟨s₁, s₂, h₁, h₂, rfl⟩ := startProduct_moves h
  have hwebsocket : s₂.point .websocket = s.point .websocket :=
    ((moved h₂).other _ (by simp)).trans ((moved h₁).other _ (by simp))
  have hflags : Orderly (s.withFlags p) := (hs.setRequesting p).of_flags rfl rfl
  have hstarted : Orderly s₁ := by
    refine hflags.request h₁ (fun _ => Function.update_self ..) fun trade hjoin => ?_
    -- the websocket thread would hold `m_mutexFeedData` at its join
    change s.point .websocket = _ at hjoin
    refine (feedData_exclusive hs.consistent hclient ?_).elim
    rw [hjoin]
    exact List.mem_cons_self
  exact ⟨(hstarted.messages h₂).of_flags rfl rfl, hwebsocket⟩

/-- A step of the client-service thread. The condition concerns the one edge that leads
into the overlap. -/
theorem orderly_clientEdge {s s₀ s' : ServerThreads} {q : ClientPoint} (hs : Orderly s)
    (hedge : ClientEdge s (s.point .client) s₀ q) (hmove : s₀.move .client q = some s')
    (hunsubscribe : ∀ p, s.point .client = ClientPoint.unsubscribeMarket p →
      WebsocketPoint.tradePending (s.point .websocket) = false) : Orderly s' := by
  have houtside : ∀ {s₀ : ServerThreads} {q : ClientPoint},
      ClientPoint.inUnsubscribe q = false → ClientPoint.inUnsubscribe q = true →
        WebsocketPoint.tradePending (s₀.point .websocket) = false :=
    fun hq hq' => absurd (hq.symm.trans hq') (by decide)
  generalize hc : s.point .client = point at hedge
  cases hedge with
  | newProduct p =>
    have hs₀ : Orderly { s with products := Function.update s.products p true } :=
      hs.of_flags rfl rfl
    exact hs₀.client hmove (houtside rfl)
  | newListener p _ _ hstart =>
    have hfeed : Mutex.feedData ∈ ClientPoint.held (s.point .client) := by
      rw [hc]
      exact List.mem_cons_of_mem _ List.mem_cons_self
    exact (orderly_startProduct hs hfeed hstart).1.client hmove (houtside rfl)
  | unsubscribeMarket p => exact hs.client hmove fun _ => hunsubscribe p hc
  | noClientsLeft p =>
    -- it is in the overlap already, and stays
    exact hs.client hmove fun _ => hs.apart (by rw [hc]; rfl)
  | joinRequest p _ =>
    have hs₀ : Orderly { s with isRunning := Function.update s.isRunning p false } :=
      hs.of_flags rfl rfl
    exact hs₀.client hmove (houtside rfl)
  | joinMessages p _ =>
    have hs₀ : Orderly { s with listeners := Function.update s.listeners p false } :=
      hs.of_flags rfl rfl
    exact hs₀.client hmove (houtside rfl)
  | unsubscribeLeave p =>
    have hs₀ : Orderly { s with products := Function.update s.products p false } :=
      hs.of_flags rfl rfl
    exact hs₀.client hmove (houtside rfl)
  | _ => exact hs.client hmove (houtside rfl)

/-- A step of the websocket thread without a join. -/
theorem orderly_websocketEdge {s s₀ s' : ServerThreads} {q : WebsocketPoint} (hs : Orderly s)
    (hedge : WebsocketEdge s (s.point .websocket) s₀ q)
    (hmove : s₀.move .websocket q = some s')
    (htrade : ∀ prodId, s.point .websocket = WebsocketPoint.feed prodId true →
      ClientPoint.inUnsubscribe (s.point .client) = false) : Orderly s' := by
  -- a message that was not pending on this edge is not pending now
  have hsame : WebsocketPoint.tradePending q =
      WebsocketPoint.tradePending (s.point .websocket) →
      ClientPoint.inUnsubscribe (s.point .client) = true →
        WebsocketPoint.tradePending q = false := by
    intro hq hc
    rw [hq]
    exact hs.apart hc
  generalize hw : s.point .websocket = point at hedge hsame
  cases hedge with
  | feed prodId trade =>
    refine hs.websocket hmove (fun _ _ h => nomatch h) fun hc => ?_
    cases trade with
    | false => rfl
    | true =>
      rw [htrade prodId hw] at hc
      cases hc
  | gap p trade hr =>
    -- the last request has cleared the flag, so it is over
    refine (hs.setRequesting p).websocket hmove (fun p' trade' heq => ?_) (hsame rfl)
    cases heq
    refine ⟨?_, Function.update_self ..⟩
    cases hactive : RequestPoint.isActive (s.point (.request p)) with
    | false => exact hactive
    | true =>
      rw [hs.requesting p hactive] at hr
      cases hr
  | noTrade => exact hs.websocket hmove (fun _ _ h => nomatch h) fun _ => rfl
  | onTrade => exact hs.websocket hmove (fun _ _ h => nomatch h) fun _ => rfl
  | publish => exact hs.websocket hmove (fun _ _ h => nomatch h) fun _ => rfl
  | feedLeave => exact hs.websocket hmove (fun _ _ h => nomatch h) fun _ => rfl
  | message prodId trade => exact hs.websocket hmove (fun _ _ h => nomatch h) fun _ => rfl
  | _ => exact hs.websocket hmove (fun _ _ h => nomatch h) (hsame rfl)

/-- The `join` of a request that is over, and the start of the next one. -/
theorem orderly_restarts {s s₁ s' : ServerThreads} {p : String} {trade : Bool}
    (hs : Orderly s) (h : Restarts s s₁ s' p trade) : Orderly s' := by
  have hs₁ : Orderly s₁ := by
    refine hs.websocket h.leave (fun _ _ h => nomatch h) fun hc => ?_
    have hpending := hs.apart hc
    rw [h.point_eq] at hpending
    exact hpending
  refine hs₁.request h.start (fun _ => ?_) fun trade' hjoin => ?_
  · rw [(moved h.leave).requesting]
    exact (hs.gap p trade h.point_eq).2
  · rw [(moved h.leave).self] at hjoin
    cases hjoin

theorem orderly_requestEdge {s s₀ s' : ServerThreads} {p : String} {q : RequestPoint}
    (hs : Orderly s) (hedge : RequestEdge s p (s.point (.request p)) s₀ q)
    (hmove : s₀.move (.request p) q = some s') : Orderly s' := by
  -- a request that goes on was active, so the websocket thread is not at its join
  have hgoesOn : RequestPoint.isActive (s.point (.request p)) = true →
      s.move (.request p) q = some s' → Orderly s' := by
    intro hactive hmove
    refine hs.request hmove (fun _ => hs.requesting p hactive) fun trade hjoin => ?_
    rw [(hs.gap p trade hjoin).1] at hactive
    cases hactive
  generalize hr : s.point (.request p) = point at hedge hgoesOn
  cases hedge with
  | mergeHeld => exact hs.clearRequesting (by rw [hr]; rfl) hmove
  | mergeLeave => exact hs.request hmove (fun h => nomatch h) fun _ _ => rfl
  | _ => exact hgoesOn rfl hmove

/-- **One step** without overlap keeps the order. -/
theorem orderly_step {s s' : ServerThreads} {e : ThreadEvent} (hs : Orderly s)
    (hg : NoOverlap s e) (h : s.step e = some s') : Orderly s' := by
  cases e with
  | subscribe p => exact hs.client (step_subscribe h).2 fun h => nomatch h
  | unsubscribe p => exact hs.client (step_unsubscribe h).2 fun h => nomatch h
  | message prodId trade =>
    exact hs.websocket (step_message h).2 (fun _ _ h => nomatch h) fun _ => rfl
  | client clientsLeft =>
    obtain ⟨s₀, q, hedge, hmove⟩ := clientStep_edge h
    exact orderly_clientEdge hs hedge hmove fun p => hg.unsubscribe clientsLeft p rfl
  | websocket gap =>
    rcases websocketStep_edge h with ⟨s₀, q, hedge, hmove⟩ | ⟨s₁, p, trade, hrestarts⟩
    · exact orderly_websocketEdge hs hedge hmove fun prodId => hg.trade gap prodId rfl
    · exact orderly_restarts hs hrestarts
  | market wait =>
    obtain ⟨q, -, hmove⟩ := marketStep_edge h
    exact hs.other hmove (by simp) (by simp) (by simp)
  | request p valid =>
    obtain ⟨s₀, q, hedge, hmove⟩ := requestStep_edge h
    exact orderly_requestEdge hs hedge hmove
  | messages p go =>
    obtain ⟨q, -, hmove⟩ := messagesStep_edge h
    exact hs.messages hmove

end QuoteServer
