import QuoteServer.Threads.Started

/-!
# A circular wait never ends

What `WaitsFor` says of a state is what the steps can do from it: a thread that waits for
another one has no step (`waiting_stays`). So threads that wait for each other in a circle
stay where they are for the rest of the run (`stuck_forever`).
-/

namespace QuoteServer

open EventMachine LockOrder

/-! ## A waiting thread has no step -/

/-- A thread that waits has not ended. -/
theorem not_ended_of_waitsFor {s : ServerThreads} {t u : Thread} (h : s.locks.WaitsFor t u) :
    serverProgram.ended t (s.point t) = false := by
  cases h with
  | mutex m hwants _ =>
    change m ∈ serverProgram.wants t (s.point t) at hwants
    cases t with
    | request p =>
      cases hr : s.point (.request p) with
      | ended =>
        rw [hr] at hwants
        cases hwants
      | _ => rfl
    | messages p =>
      cases hm : s.point (.messages p) with
      | ended =>
        rw [hm] at hwants
        cases hwants
      | _ => rfl
    | _ => rfl
  | join hjoins _ =>
    cases t with
    | request | messages => cases hjoins
    | _ => rfl

/-- A thread cannot go into a critical section whose mutex it waits for. -/
theorem move_none_of_holder {s : ServerThreads} {t u : Thread} {q : Point t} {m : Mutex}
    (hwants : m ∈ serverProgram.wants t (s.point t)) (hheld : m ∈ serverProgram.held t q)
    (hholder : s.locks.holder m = some u) : s.move t q = none := by
  have hlocks : s.locks.move t q = none :=
    LockState.move_eq_none hheld (not_held_of_wants hwants) hholder
  rw [ServerThreads.move, hlocks]
  rfl

/-- Where the client-service thread is about to lock a mutex, its next step does. -/
theorem clientEdge_locks {s s₀ : ServerThreads} {point q : ClientPoint} {m : Mutex}
    (hedge : ClientEdge s point s₀ q) (hwants : m ∈ ClientPoint.wants point) :
    s₀ = s ∧ m ∈ ClientPoint.held q := by
  cases hedge with
  | subscribeMarket p => exact ⟨rfl, hwants⟩
  | subscribeFeed p => exact ⟨rfl, List.mem_cons_of_mem _ hwants⟩
  | subscribeTrades p => exact ⟨rfl, hwants⟩
  | unsubscribeMarket p => exact ⟨rfl, hwants⟩
  | unsubscribeFeed p => exact ⟨rfl, List.mem_cons_of_mem _ (List.mem_cons_of_mem _ hwants)⟩
  | _ => exact absurd hwants List.not_mem_nil

/-- Where it is about to join a thread, its next step finds that thread ended. -/
theorem clientEdge_joins {s s₀ : ServerThreads} {point q : ClientPoint} {u : Thread}
    (hedge : ClientEdge s point s₀ q) (hjoins : ClientPoint.joins point = some u) :
    serverProgram.ended u (s.point u) = true := by
  cases hedge with
  | joinRequest p hended =>
    obtain rfl : Thread.request p = u := Option.some.inj hjoins
    exact hended
  | joinMessages p hended =>
    obtain rfl : Thread.messages p = u := Option.some.inj hjoins
    exact hended
  | _ => cases hjoins

theorem client_waits {s s₀ s' : ServerThreads} {q : ClientPoint} {u : Thread}
    (hedge : ClientEdge s (s.point .client) s₀ q) (hmove : s₀.move .client q = some s') :
    ¬ s.locks.WaitsFor .client u := by
  intro hwaits
  cases hwaits with
  | mutex m hwants hholder =>
    obtain ⟨rfl, hheld⟩ := clientEdge_locks hedge hwants
    rw [move_none_of_holder (t := .client) hwants hheld hholder] at hmove
    cases hmove
  | join hjoins hruns =>
    have hended := clientEdge_joins hedge hjoins
    exact absurd (hended.symm.trans hruns) (by decide)

theorem websocketEdge_locks {s s₀ : ServerThreads} {point q : WebsocketPoint} {m : Mutex}
    (hedge : WebsocketEdge s point s₀ q) (hwants : m ∈ WebsocketPoint.wants point) :
    s₀ = s ∧ m ∈ WebsocketPoint.held q := by
  cases hedge with
  | feed prodId trade => exact ⟨rfl, hwants⟩
  | product p trade => exact ⟨rfl, List.mem_cons_of_mem _ hwants⟩
  | onTrade => exact ⟨rfl, List.mem_cons_of_mem _ hwants⟩
  | _ => exact absurd hwants List.not_mem_nil

theorem websocket_waits {s s₀ s' : ServerThreads} {q : WebsocketPoint} {u : Thread}
    (hedge : WebsocketEdge s (s.point .websocket) s₀ q)
    (hmove : s₀.move .websocket q = some s') : ¬ s.locks.WaitsFor .websocket u := by
  intro hwaits
  cases hwaits with
  | mutex m hwants hholder =>
    obtain ⟨rfl, hheld⟩ := websocketEdge_locks hedge hwants
    rw [move_none_of_holder (t := .websocket) hwants hheld hholder] at hmove
    cases hmove
  | join hjoins _ =>
    change WebsocketPoint.joins (s.point .websocket) = some u at hjoins
    generalize s.point .websocket = point at hedge hjoins
    cases hedge <;> cases hjoins

/-- The websocket thread joins a request that has ended, so it does not wait for it. -/
theorem restarts_waits {s s₁ s' : ServerThreads} {p : String} {trade : Bool} {u : Thread}
    (h : Restarts s s₁ s' p trade) : ¬ s.locks.WaitsFor .websocket u := by
  intro hwaits
  cases hwaits with
  | mutex m hwants _ =>
    change m ∈ WebsocketPoint.wants (s.point .websocket) at hwants
    rw [h.point_eq] at hwants
    cases hwants
  | join hjoins hruns =>
    change WebsocketPoint.joins (s.point .websocket) = some u at hjoins
    rw [h.point_eq] at hjoins
    obtain rfl : Thread.request p = u := Option.some.inj hjoins
    exact absurd (h.ended.symm.trans hruns) (by decide)

theorem market_waits {s s' : ServerThreads} {q : MarketPoint} {u : Thread}
    (hedge : MarketEdge (s.point .market) q) (hmove : s.move .market q = some s') :
    ¬ s.locks.WaitsFor .market u := by
  intro hwaits
  cases hwaits with
  | mutex m hwants hholder =>
    have hheld : m ∈ MarketPoint.held q := by
      change m ∈ MarketPoint.wants (s.point .market) at hwants
      generalize s.point .market = point at hedge hwants
      cases hedge with
      | changes => exact hwants
      | process => exact hwants
      | _ => exact absurd hwants List.not_mem_nil
    rw [move_none_of_holder (t := .market) hwants hheld hholder] at hmove
    cases hmove
  | join hjoins _ => cases hjoins

theorem request_waits {s s₀ s' : ServerThreads} {p : String} {q : RequestPoint} {u : Thread}
    (hedge : RequestEdge s p (s.point (.request p)) s₀ q)
    (hmove : s₀.move (.request p) q = some s') : ¬ s.locks.WaitsFor (.request p) u := by
  intro hwaits
  cases hwaits with
  | mutex m hwants hholder =>
    have hlocks : s₀ = s ∧ m ∈ RequestPoint.held p q := by
      change m ∈ RequestPoint.wants p (s.point (.request p)) at hwants
      generalize s.point (.request p) = point at hedge hwants
      cases hedge with
      | merge => exact ⟨rfl, hwants⟩
      | _ => exact absurd hwants List.not_mem_nil
    obtain ⟨rfl, hheld⟩ := hlocks
    rw [move_none_of_holder (t := .request p) hwants hheld hholder] at hmove
    cases hmove
  | join hjoins _ => cases hjoins

theorem messages_waits {s s' : ServerThreads} {p : String} {q : MessagesPoint} {u : Thread}
    (hedge : MessagesEdge (s.point (.messages p)) q)
    (hmove : s.move (.messages p) q = some s') : ¬ s.locks.WaitsFor (.messages p) u := by
  intro hwaits
  cases hwaits with
  | mutex m hwants hholder =>
    have hheld : m ∈ MessagesPoint.held p q := by
      change m ∈ MessagesPoint.wants p (s.point (.messages p)) at hwants
      generalize s.point (.messages p) = point at hedge hwants
      cases hedge with
      | queue => exact hwants
      | onProductChange => exact hwants
      | _ => exact absurd hwants List.not_mem_nil
    rw [move_none_of_holder (t := .messages p) hwants hheld hholder] at hmove
    cases hmove
  | join hjoins _ => cases hjoins

/-! ## Nor do the others move it -/

/-- Only the constructor of a product moves other threads, and these have ended. -/
theorem clientEdge_point {s s₀ : ServerThreads} {point q : ClientPoint} {t : Thread}
    (hs : Started s) (hedge : ClientEdge s point s₀ q)
    (hruns : serverProgram.ended t (s.point t) = false) : s₀.point t = s.point t := by
  cases hedge with
  | newListener p s₀ hnew hstart =>
    obtain ⟨s₁, s₂, h₁, h₂, rfl⟩ := startProduct_moves hstart
    obtain ⟨hrequest, hmessages⟩ := hs.ended p hnew
    have hne_request : t ≠ .request p := by
      rintro rfl
      exact absurd (hrequest.symm.trans hruns) (by decide)
    have hne_messages : t ≠ .messages p := by
      rintro rfl
      exact absurd (hmessages.symm.trans hruns) (by decide)
    exact ((moved h₂).other t hne_messages).trans ((moved h₁).other t hne_request)
  | _ => rfl

/-- **A thread that waits stays where it is**, whatever the step. -/
theorem waiting_stays {s s' : ServerThreads} {e : ThreadEvent} {t u : Thread} (hs : Started s)
    (hwaits : s.locks.WaitsFor t u) (h : s.step e = some s') : s'.point t = s.point t := by
  have hruns := not_ended_of_waitsFor hwaits
  -- the thread that moves is another one
  have hother : ∀ {s₀ : ServerThreads} {t' : Thread} {q : Point t'},
      s₀.move t' q = some s' → ¬ s.locks.WaitsFor t' u → s₀.point t = s.point t →
        s'.point t = s.point t := by
    intro s₀ t' q hmove hnot hsame
    have hne : t ≠ t' := by
      rintro rfl
      exact hnot hwaits
    exact ((moved hmove).other t hne).trans hsame
  cases step_edge h with
  | client s₀ q hedge hmove =>
    exact hother hmove (client_waits hedge hmove) (clientEdge_point hs hedge hruns)
  | websocket s₀ q hedge hmove =>
    refine hother hmove (websocket_waits hedge hmove) ?_
    generalize s.point .websocket = point at hedge
    cases hedge <;> rfl
  | restarts s₁ p trade hrestarts =>
    have hne_websocket : t ≠ .websocket := by
      rintro rfl
      exact restarts_waits hrestarts hwaits
    have hne_request : t ≠ .request p := by
      rintro rfl
      exact absurd (hrestarts.ended.symm.trans hruns) (by decide)
    exact ((moved hrestarts.start).other t hne_request).trans
      ((moved hrestarts.leave).other t hne_websocket)
  | market q hedge hmove => exact hother hmove (market_waits hedge hmove) rfl
  | request p s₀ q hedge hmove =>
    refine hother hmove (request_waits hedge hmove) ?_
    generalize s.point (.request p) = point at hedge
    cases hedge <;> rfl
  | messages p q hedge hmove => exact hother hmove (messages_waits hedge hmove) rfl

/-! ## Whole runs -/

/-- **A circular wait never ends.** In a reachable state in which some threads wait for
each other, they do so after every further step, and none of them has moved. -/
theorem stuck_forever {es fs : List ThreadEvent} {s s' : ServerThreads}
    {threads : Set Thread} (hrun : threadMachine.run .initial es = some s)
    (hstuck : s.locks.IsStuck threads) (hrun' : threadMachine.run s fs = some s') :
    s'.locks.IsStuck threads ∧ ∀ t ∈ threads, s'.point t = s.point t := by
  have hs : Started s := started_of_run hrun
  have hinv : Started s' ∧ ∀ t ∈ threads, s'.point t = s.point t := by
    refine threadMachine.invariant_rule
      (I := fun s' => Started s' ∧ ∀ t ∈ threads, s'.point t = s.point t)
      ⟨hs, fun _ _ => rfl⟩ ?_ (threadMachine.guarded_true s fs) hrun'
    rintro s₁ e s₂ ⟨hs₁, hstays⟩ - hstep
    refine ⟨started_step hs₁ hstep, fun t ht => ?_⟩
    have hstuck₁ : s₁.locks.IsStuck threads :=
      hstuck.of_stays hs.consistent hs₁.consistent hstays
    obtain ⟨u, -, hwaits⟩ := hstuck₁.waits t ht
    exact (waiting_stays hs₁ hwaits hstep).trans (hstays t ht)
  exact ⟨hstuck.of_stays hs.consistent hinv.1.consistent hinv.2, hinv.2⟩

end QuoteServer
