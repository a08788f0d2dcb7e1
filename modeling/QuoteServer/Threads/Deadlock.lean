import QuoteServer.Threads.Order

/-!
# The threads do not wait for each other in a circle

Almost all nested locks of the server are taken in one order: `marketDataMutex`, then
`m_mutexFeedData`, then the mutex of a product. Only `mutexTrades` is taken both before
and after `m_mutexFeedData`. `threads_not_stuck` says that this is the only way to a
deadlock: as long as `unsubscribe` and a trade message never overlap, the points can be
ranked such that every wait goes up.

The one `join` under a mutex that the joined thread may want is in
`requestFullOrderBook`. It is harmless, since the thread it joins has left its critical
section (`Orderly.gap`).
-/

namespace QuoteServer

open EventMachine LockOrder

/-! ## Ranks -/

/-- The rank of a point. A thread that holds nothing and is not joined has rank `0`, and
one that waits for nothing has rank `4`. -/
def pointRank : (t : Thread) → Point t → ℕ
  | .client, q =>
    match q with
    | .subscribeMarket _ | .unsubscribeMarket _ | .subscribeTrades _ => 0
    | .subscribeFeed _ | .unsubscribeFeed _ | .joinRequest _ | .joinMessages _ => 1
    | _ => 4
  | .websocket, q =>
    match q with
    | .feed _ _ => 0
    | .product _ _ | .joinRequest _ _ | .onTrade => 3
    | _ => 4
  | .market, q =>
    match q with
    | .changes | .process => 0
    | _ => 4
  | .request _, q =>
    match q with
    | .merge => 2
    | _ => 4
  | .messages _, q =>
    match q with
    | .queue => 2
    | .onProductChange => 3
    | _ => 4

theorem pointRank_le (t : Thread) (q : Point t) : pointRank t q ≤ 4 := by
  cases t <;> cases q <;> simp [pointRank]

/-- A thread that holds a mutex has a rank. -/
theorem pointRank_pos {t : Thread} {q : Point t} {m : Mutex} (h : m ∈ serverProgram.held t q) :
    0 < pointRank t q := by
  cases t <;> cases q <;> first | exact absurd h List.not_mem_nil | simp [pointRank]

/-- A holder of `m_mutexFeedData` that is not the client-service thread. -/
theorem feedData_rank {t : Thread} {q : Point t} (h : Mutex.feedData ∈ serverProgram.held t q)
    (hclient : t ≠ .client) : 3 ≤ pointRank t q := by
  cases t with
  | client => exact absurd rfl hclient
  | websocket => cases q <;> first | exact absurd h List.not_mem_nil | simp [pointRank]
  | market => cases q <;> simp [MarketPoint.held] at h
  | request p => cases q <;> simp [RequestPoint.held] at h
  | messages p => cases q <;> simp [MessagesPoint.held] at h

/-- A holder of the mutex of a product. -/
theorem messages_rank {p : String} {t : Thread} {q : Point t}
    (h : Mutex.messages p ∈ serverProgram.held t q) :
    3 ≤ pointRank t q ∧ (t ≠ .websocket → pointRank t q = 4) := by
  cases t with
  | client => cases q <;> simp [ClientPoint.held] at h
  | websocket =>
    refine ⟨?_, fun hne => absurd rfl hne⟩
    cases q <;> first | exact absurd h List.not_mem_nil | simp [pointRank]
  | market => cases q <;> simp [MarketPoint.held] at h
  | request p => cases q <;> first | exact absurd h List.not_mem_nil | simp [pointRank]
  | messages p =>
    cases q <;> first
      | exact absurd h List.not_mem_nil
      | simp [pointRank, MessagesPoint.held] at h ⊢

/-- A holder of `productChangeHandlerMutex`. -/
theorem productChangeHandler_rank {t : Thread} {q : Point t}
    (h : Mutex.productChangeHandler ∈ serverProgram.held t q) : pointRank t q = 4 := by
  cases t with
  | client => cases q <;> simp [ClientPoint.held] at h
  | websocket => cases q <;> simp [WebsocketPoint.held] at h
  | market => cases q <;> first | exact absurd h List.not_mem_nil | rfl
  | request p => cases q <;> simp [RequestPoint.held] at h
  | messages p =>
    cases q <;> first
      | exact absurd h List.not_mem_nil
      | simp [pointRank, MessagesPoint.held] at h ⊢

/-- Only the two sides hold `mutexTrades`. -/
theorem trades_holder {t : Thread} {q : Point t} (h : Mutex.trades ∈ serverProgram.held t q)
    (hwebsocket : t ≠ .websocket) : t = .client := by
  cases t with
  | client => rfl
  | websocket => exact absurd rfl hwebsocket
  | market => cases q <;> simp [MarketPoint.held] at h
  | request p => cases q <;> simp [RequestPoint.held] at h
  | messages p => cases q <;> simp [MessagesPoint.held] at h

/-- Where the client-service thread holds `mutexTrades` and waits, it holds
`m_mutexFeedData` too, or it is about to lock it. -/
theorem client_trades_rank {q : ClientPoint} (h : Mutex.trades ∈ ClientPoint.held q) :
    pointRank .client q = 4 ∨ Mutex.feedData ∈ ClientPoint.held q ∨
      ClientPoint.inUnsubscribe q = true := by
  cases q <;>
    first
    | exact absurd h List.not_mem_nil
    | simp [pointRank, ClientPoint.held, ClientPoint.inUnsubscribe] at h ⊢

/-- While the websocket thread is at `onTrade`, whoever else holds `mutexTrades` has all it
needs: the client-service thread would need `m_mutexFeedData` for more only in the overlap. -/
theorem trades_rank {s : ServerThreads} (hs : Orderly s) {u : Thread}
    (hw : s.point .websocket = WebsocketPoint.onTrade)
    (hheld : Mutex.trades ∈ serverProgram.held u (s.point u)) (hother : u ≠ .websocket) :
    3 < pointRank u (s.point u) := by
  obtain rfl := trades_holder hheld hother
  rcases client_trades_rank hheld with hrank | hfeed | hunsubscribe
  · omega
  · -- the two cannot both hold `m_mutexFeedData`
    refine (feedData_exclusive hs.consistent hfeed ?_).elim
    rw [hw]
    exact List.mem_cons_self
  · -- the overlap
    have hpending := hs.apart hunsubscribe
    rw [hw] at hpending
    cases hpending

/-! ## Waits -/

/-- A wait for a mutex goes up in rank. -/
theorem rank_lt_of_wants {s : ServerThreads} (hs : Orderly s) {t u : Thread} {m : Mutex}
    (hwants : m ∈ serverProgram.wants t (s.point t))
    (hheld : m ∈ serverProgram.held u (s.point u)) :
    pointRank t (s.point t) < pointRank u (s.point u) := by
  have hpos : 0 < pointRank u (s.point u) := pointRank_pos hheld
  have hother : u ≠ t := by
    rintro rfl
    exact not_held_of_wants hwants hheld
  cases t with
  | client =>
    cases hc : s.point .client with
    | subscribeMarket p => exact hpos
    | unsubscribeMarket p => exact hpos
    | subscribeTrades p => exact hpos
    | subscribeFeed p =>
      rw [hc] at hwants
      obtain rfl : m = .feedData := List.mem_singleton.mp hwants
      have hrank := feedData_rank hheld hother
      show 1 < _
      omega
    | unsubscribeFeed p =>
      rw [hc] at hwants
      obtain rfl : m = .feedData := List.mem_singleton.mp hwants
      have hrank := feedData_rank hheld hother
      show 1 < _
      omega
    | _ =>
      rw [hc] at hwants
      exact absurd hwants List.not_mem_nil
  | websocket =>
    cases hw : s.point .websocket with
    | feed prodId trade => exact hpos
    | product p trade =>
      rw [hw] at hwants
      obtain rfl : m = .messages p := List.mem_singleton.mp hwants
      have hrank := (messages_rank hheld).2 hother
      show 3 < _
      omega
    | onTrade =>
      rw [hw] at hwants
      obtain rfl : m = .trades := List.mem_singleton.mp hwants
      exact trades_rank hs hw hheld hother
    | _ =>
      rw [hw] at hwants
      exact absurd hwants List.not_mem_nil
  | market =>
    cases hm : s.point .market with
    | changes => exact hpos
    | process => exact hpos
    | _ =>
      rw [hm] at hwants
      exact absurd hwants List.not_mem_nil
  | request p =>
    cases hr : s.point (.request p) with
    | merge =>
      rw [hr] at hwants
      obtain rfl : m = .messages p := List.mem_singleton.mp hwants
      have hrank := (messages_rank hheld).1
      show 2 < _
      omega
    | _ =>
      rw [hr] at hwants
      exact absurd hwants List.not_mem_nil
  | messages p =>
    cases hm : s.point (.messages p) with
    | queue =>
      rw [hm] at hwants
      obtain rfl : m = .messages p := List.mem_singleton.mp hwants
      have hrank := (messages_rank hheld).1
      show 2 < _
      omega
    | onProductChange =>
      rw [hm] at hwants
      obtain rfl : m = .productChangeHandler := List.mem_singleton.mp hwants
      have hrank := productChangeHandler_rank hheld
      show 3 < _
      omega
    | _ =>
      rw [hm] at hwants
      exact absurd hwants List.not_mem_nil

/-- A wait for the end of a thread goes up in rank. -/
theorem rank_lt_of_joins {s : ServerThreads} (hs : Orderly s) {t u : Thread}
    (hjoins : serverProgram.joins t (s.point t) = some u)
    (hruns : serverProgram.ended u (s.point u) = false) :
    pointRank t (s.point t) < pointRank u (s.point u) := by
  cases t with
  | client =>
    cases hc : s.point .client with
    | joinRequest p =>
      rw [hc] at hjoins
      obtain rfl : Thread.request p = u := Option.some.inj hjoins
      cases s.point (.request p) <;> simp [pointRank]
    | joinMessages p =>
      rw [hc] at hjoins
      obtain rfl : Thread.messages p = u := Option.some.inj hjoins
      cases s.point (.messages p) <;> simp [pointRank]
    | _ =>
      rw [hc] at hjoins
      cases hjoins
  | websocket =>
    cases hw : s.point .websocket with
    | joinRequest p trade =>
      rw [hw] at hjoins
      obtain rfl : Thread.request p = u := Option.some.inj hjoins
      -- the joined request is over, so it waits for nothing
      have hover := (hs.gap p trade hw).1
      cases hr : s.point (.request p) with
      | merge =>
        rw [hr] at hover
        cases hover
      | _ => simp [pointRank]
    | _ =>
      rw [hw] at hjoins
      cases hjoins
  | _ => cases hjoins

/-- **Every wait goes up in rank.** -/
theorem rank_lt_of_waitsFor {s : ServerThreads} (hs : Orderly s) {t u : Thread}
    (h : s.locks.WaitsFor t u) :
    pointRank t (s.point t) < pointRank u (s.point u) := by
  rcases h.held hs.consistent with ⟨m, hwants, hheld⟩ | ⟨hjoins, hruns⟩
  · exact rank_lt_of_wants hs hwants hheld
  · exact rank_lt_of_joins hs hjoins hruns

theorem Orderly.not_stuck {s : ServerThreads} (hs : Orderly s) : ¬ s.locks.Stuck :=
  LockState.not_stuck_of_rank (fun t => pointRank t (s.point t)) 4
    (fun t => pointRank_le t (s.point t)) fun _ _ => rank_lt_of_waitsFor hs

/-! ## Whole runs -/

/-- **No circular wait**, in any run without overlap: whatever the interleaving, the
requests of the clients and the messages of the exchange, no threads wait for each
other. -/
theorem threads_not_stuck {es : List ThreadEvent} {s : ServerThreads}
    (hg : threadMachine.Guarded NoOverlap .initial es)
    (hrun : threadMachine.run .initial es = some s) : ¬ s.locks.Stuck := by
  have hs : Orderly s := by
    refine threadMachine.invariant_rule (I := Orderly) orderly_initial ?_ hg hrun
    intro s e s' hs hge hstep
    exact orderly_step hs hge hstep
  exact hs.not_stuck

/-- In the overlap itself, once both sides have got as far as they can, they are stuck. -/
theorem stuck_of_overlap {s : ServerThreads} (hs : s.locks.Consistent) {p : String}
    (hclient : s.point .client = ClientPoint.unsubscribeFeed p)
    (hwebsocket : s.point .websocket = WebsocketPoint.onTrade) : s.locks.Stuck := by
  have hwaits : ∀ {t u : Thread} {m : Mutex}, m ∈ serverProgram.wants t (s.point t) →
      m ∈ serverProgram.held u (s.point u) → s.locks.WaitsFor t u :=
    fun {t u m} hwants hheld => .mutex m hwants ((hs m u).mpr hheld)
  refine LockState.stuck_of_two (t := .client) (u := .websocket) ?_ ?_
  · refine hwaits (m := .feedData) ?_ ?_
    · rw [hclient]
      exact List.mem_cons_self
    · rw [hwebsocket]
      exact List.mem_cons_self
  · refine hwaits (m := .trades) ?_ ?_
    · rw [hwebsocket]
      exact List.mem_cons_self
    · rw [hclient]
      exact List.mem_cons_of_mem _ List.mem_cons_self

/-! ## Runs on fixed events -/

/-- A client subscribes to `ETH-USD`, and both calls of `subscribe` return. -/
def subscribeRun : List ThreadEvent :=
  .subscribe "ETH-USD" :: List.replicate 7 (.client false)

/-- While no message is being handled, and while no client unsubscribes, there is no
overlap. -/
theorem noOverlap_of_idle {s : ServerThreads} {e : ThreadEvent}
    (h : s.point .websocket = WebsocketPoint.idle) : NoOverlap s e := by
  refine ⟨fun _ _ _ _ => ?_, fun _ _ _ hw => ?_⟩
  · rw [h]
    rfl
  · rw [h] at hw
    cases hw

/-- A client subscribes and unsubscribes, up to the first join. -/
theorem threads_not_stuck_unsubscribed :
    ∃ s, threadMachine.run .initial (subscribeRun ++
        [.unsubscribe "ETH-USD", .client false, .client false, .client false, .client false]) =
        some s ∧
      s.point .client = ClientPoint.joinRequest "ETH-USD" ∧ ¬ s.locks.Stuck := by
  have hrun : threadMachine.run .initial (subscribeRun ++
      [.unsubscribe "ETH-USD", .client false, .client false, .client false, .client false]) =
      some _ := rfl
  refine ⟨_, hrun, rfl, threads_not_stuck ?_ hrun⟩
  iterate 13 refine Machine.guarded_cons _ (noOverlap_of_idle rfl) rfl ?_
  exact Machine.guarded_nil _ _ _

/-- A trade message and an unsubscription: each side holds the mutex that the other one
wants. -/
theorem unsubscribe_trade_stuck :
    ∃ s, threadMachine.run .initial (subscribeRun ++
        .message (some "ETH-USD") true :: List.replicate 6 (.websocket false) ++
        [.unsubscribe "ETH-USD", .client false, .client false]) = some s ∧
      s.point .client = ClientPoint.unsubscribeFeed "ETH-USD" ∧
      s.point .websocket = WebsocketPoint.onTrade ∧ s.locks.Stuck := by
  refine ⟨_, rfl, rfl, rfl, LockState.stuck_of_two (t := .client) (u := .websocket) ?_ ?_⟩
  · exact .mutex .feedData List.mem_cons_self rfl
  · exact .mutex .trades List.mem_cons_self rfl

end QuoteServer
