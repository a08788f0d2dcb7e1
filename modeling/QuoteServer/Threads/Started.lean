import QuoteServer.Threads.Steps

/-!
# The threads of a product run while it is there

A `CoinbaseFeedProduct` starts its two threads in its constructor and joins them in its
destructor. `Started` is what every step keeps, whatever overlaps: no thread runs for a
product that is not there, so a thread is only ever started when the last one under its
name has ended (`started_over`). A `std::thread` that still runs is never replaced.
-/

namespace QuoteServer

open EventMachine LockOrder

/-- The product whose `onMessageReceived` the websocket thread is in. -/
def WebsocketPoint.inProduct : WebsocketPoint → Option String
  | product p _ | productMessage p _ | joinRequest p _ | productLeave p _ => some p
  | _ => none

structure Started (s : ServerThreads) : Prop where
  consistent : s.locks.Consistent
  /-- The threads of a product that is not there have ended. -/
  ended : ∀ p, s.listeners p = false →
    RequestPoint.isEnded (s.point (.request p)) = true ∧
      MessagesPoint.isEnded (s.point (.messages p)) = true
  /-- At the second `join` of the destructor the first thread has ended. -/
  joined : ∀ p, s.point .client = ClientPoint.joinMessages p →
    RequestPoint.isEnded (s.point (.request p)) = true
  /-- The websocket thread is only in a product that is there. -/
  present : ∀ p, WebsocketPoint.inProduct (s.point .websocket) = some p → s.listeners p = true

theorem started_initial : Started .initial where
  consistent := by
    intro m t
    refine iff_of_false (fun h => nomatch h) ?_
    cases t <;> exact List.not_mem_nil
  ended := fun _ _ => ⟨rfl, rfl⟩
  joined := fun _ h => nomatch h
  present := fun _ h => nomatch h

theorem feedData_of_inProduct {q : WebsocketPoint} {p : String}
    (h : WebsocketPoint.inProduct q = some p) : Mutex.feedData ∈ WebsocketPoint.held q := by
  cases q with
  | product | productMessage | joinRequest | productLeave => exact List.mem_cons_self
  | _ => cases h

/-! ## Moves -/

/-- Other flags than the products of the feed do not matter. -/
theorem Started.of_flags {s s' : ServerThreads} (hs : Started s) (hlocks : s'.locks = s.locks)
    (hlisteners : s'.listeners = s.listeners) : Started s' := by
  have hpoint : ∀ t, s'.point t = s.point t := fun t => congrArg (fun l => l.point t) hlocks
  refine ⟨hlocks ▸ hs.consistent, fun p hp => ?_, fun p hp => ?_, fun p hp => ?_⟩
  · rw [hlisteners] at hp
    rw [hpoint, hpoint]
    exact hs.ended p hp
  · rw [hpoint] at hp ⊢
    exact hs.joined p hp
  · rw [hpoint] at hp
    rw [hlisteners]
    exact hs.present p hp

/-- A move of any thread. A thread of a product moves only while the product is there;
what is left to show concerns the thread that moved. -/
theorem Started.of_move {s s' : ServerThreads} {t : Thread} {q : Point t} (hs : Started s)
    (h : s.move t q = some s')
    (hthere : ∀ p, t = .request p ∨ t = .messages p → s.listeners p = true)
    (hjoined : ∀ p, t = .client ∨ t = .request p →
      s'.point .client = ClientPoint.joinMessages p →
        RequestPoint.isEnded (s'.point (.request p)) = true)
    (hpresent : ∀ p, t = .websocket →
      WebsocketPoint.inProduct (s'.point .websocket) = some p → s.listeners p = true) :
    Started s' := by
  refine ⟨(moved h).consistent hs.consistent, fun p hp => ?_, fun p hp => ?_, fun p hp => ?_⟩
  · rw [(moved h).listeners] at hp
    have hne : ∀ u, u = .request p ∨ u = .messages p → u ≠ t := by
      rintro u hu rfl
      rw [hthere p hu] at hp
      cases hp
    rw [(moved h).other _ (hne _ (.inl rfl)), (moved h).other _ (hne _ (.inr rfl))]
    exact hs.ended p hp
  · by_cases ht : t = .client ∨ t = .request p
    · exact hjoined p ht hp
    · obtain ⟨hclient, hrequest⟩ := not_or.mp ht
      rw [(moved h).other _ (Ne.symm hclient)] at hp
      rw [(moved h).other _ (Ne.symm hrequest)]
      exact hs.joined p hp
  · rw [(moved h).listeners]
    by_cases ht : t = .websocket
    · exact hpresent p ht hp
    · rw [(moved h).other _ (Ne.symm ht)] at hp
      exact hs.present p hp

/-- A move of the client-service thread, to the second `join` only after the first. -/
theorem Started.client {s s' : ServerThreads} {q : ClientPoint} (hs : Started s)
    (h : s.move .client q = some s')
    (hjoined : ∀ p, q = .joinMessages p →
      RequestPoint.isEnded (s.point (.request p)) = true) : Started s' := by
  refine hs.of_move h (by simp) (fun p _ hp => ?_) fun _ ht => nomatch ht
  rw [(moved h).self] at hp
  rw [(moved h).other _ (by simp)]
  exact hjoined p hp

/-- A move of the websocket thread, into a product only if it is there. -/
theorem Started.websocket {s s' : ServerThreads} {q : WebsocketPoint} (hs : Started s)
    (h : s.move .websocket q = some s')
    (hpresent : ∀ p, WebsocketPoint.inProduct q = some p → s.listeners p = true) :
    Started s' := by
  refine hs.of_move h (by simp) (by simp) fun p _ hp => ?_
  rw [(moved h).self] at hp
  exact hpresent p hp

/-- A move of a request thread whose end is not waited for any more. -/
theorem Started.request {s s' : ServerThreads} {p : String} {q : RequestPoint} (hs : Started s)
    (h : s.move (.request p) q = some s') (hthere : s.listeners p = true)
    (hclient : s.point .client ≠ ClientPoint.joinMessages p) : Started s' := by
  refine hs.of_move h (by simp [hthere]) (fun p' ht hp => ?_) fun _ ht => nomatch ht
  rw [(moved h).other _ (by simp)] at hp
  obtain rfl : p = p' := by simpa using ht
  exact absurd hp hclient

theorem Started.messages {s s' : ServerThreads} {p : String} {q : MessagesPoint}
    (hs : Started s) (h : s.move (.messages p) q = some s') (hthere : s.listeners p = true) :
    Started s' :=
  hs.of_move h (by simp [hthere]) (by simp) fun _ ht => nomatch ht

/-! ## Steps -/

/-- The constructor: the threads are started and the product is there. -/
theorem started_startProduct {s s' : ServerThreads} {p : String} (hs : Started s)
    (hclient : s.point .client = ClientPoint.subscribeListener p)
    (h : s.startProduct p = some s') : Started s' := by
  obtain ⟨s₁, s₂, h₁, h₂, rfl⟩ := startProduct_moves h
  have hother : ∀ t, t ≠ .request p → t ≠ .messages p → s₂.point t = s.point t :=
    fun t hrequest hmessages => ((moved h₂).other t hmessages).trans ((moved h₁).other t hrequest)
  have hlisteners : s₂.listeners = s.listeners :=
    (moved h₂).listeners.trans (moved h₁).listeners
  have hconsistent : s₂.locks.Consistent :=
    (moved h₂).consistent ((moved h₁).consistent hs.consistent)
  refine ⟨hconsistent, fun p' hp => ?_, fun p' hp => ?_, fun p' hp => ?_⟩
  · change Function.update s₂.listeners p true p' = false at hp
    have hne : p' ≠ p := by
      rintro rfl
      rw [Function.update_self] at hp
      cases hp
    rw [Function.update_of_ne hne, hlisteners] at hp
    show RequestPoint.isEnded (s₂.point (.request p')) = true ∧
      MessagesPoint.isEnded (s₂.point (.messages p')) = true
    rw [hother _ (by simpa using hne) (by simp), hother _ (by simp) (by simpa using hne)]
    exact hs.ended p' hp
  · change s₂.point .client = _ at hp
    rw [hother _ (by simp) (by simp), hclient] at hp
    cases hp
  · change WebsocketPoint.inProduct (s₂.point .websocket) = some p' at hp
    rw [hother _ (by simp) (by simp)] at hp
    show Function.update s₂.listeners p true p' = true
    rw [hlisteners]
    by_cases heq : p' = p
    · subst heq
      exact Function.update_self ..
    · exact (Function.update_of_ne heq ..).trans (hs.present p' hp)

/-- The end of the destructor: both threads have ended, and the websocket thread is in no
product, since the client-service thread holds `m_mutexFeedData`. -/
theorem started_erased {s : ServerThreads} {p : String} (hs : Started s)
    (hclient : s.point .client = ClientPoint.joinMessages p)
    (hended : MessagesPoint.isEnded (s.point (.messages p)) = true) :
    Started { s with listeners := Function.update s.listeners p false } := by
  refine ⟨hs.consistent, fun p' hp => ?_, hs.joined, fun p' hp => ?_⟩
  · by_cases heq : p' = p
    · subst heq
      exact ⟨hs.joined p' hclient, hended⟩
    · exact hs.ended p' ((Function.update_of_ne heq ..).symm.trans hp)
  · refine (feedData_exclusive hs.consistent ?_ (feedData_of_inProduct hp)).elim
    rw [hclient]
    exact List.mem_cons_of_mem _ (List.mem_cons_of_mem _ List.mem_cons_self)

theorem started_clientEdge {s s₀ s' : ServerThreads} {q : ClientPoint} (hs : Started s)
    (hedge : ClientEdge s (s.point .client) s₀ q) (hmove : s₀.move .client q = some s') :
    Started s' := by
  generalize hc : s.point .client = point at hedge
  cases hedge with
  | newProduct p =>
    have hs₀ : Started { s with products := Function.update s.products p true } :=
      hs.of_flags rfl rfl
    exact hs₀.client hmove fun _ h => nomatch h
  | newListener p _ _ hstart =>
    exact (started_startProduct hs hc hstart).client hmove fun _ h => nomatch h
  | joinRequest p hended =>
    have hs₀ : Started { s with isRunning := Function.update s.isRunning p false } :=
      hs.of_flags rfl rfl
    refine hs₀.client hmove fun p' heq => ?_
    cases heq
    exact hended
  | joinMessages p hended =>
    exact (started_erased hs hc hended).client hmove fun _ h => nomatch h
  | unsubscribeLeave p =>
    have hs₀ : Started { s with products := Function.update s.products p false } :=
      hs.of_flags rfl rfl
    exact hs₀.client hmove fun _ h => nomatch h
  | _ => exact hs.client hmove fun _ h => nomatch h

theorem started_websocketEdge {s s₀ s' : ServerThreads} {q : WebsocketPoint} (hs : Started s)
    (hedge : WebsocketEdge s (s.point .websocket) s₀ q)
    (hmove : s₀.move .websocket q = some s') : Started s' := by
  have hpresent := hs.present
  generalize s.point .websocket = point at hedge hpresent
  cases hedge with
  | listener p trade hthere =>
    refine hs.websocket hmove fun p' heq => ?_
    cases heq
    exact hthere
  | gap p trade _ =>
    have hs₀ : Started { s with
        requestingOrderbook := Function.update s.requestingOrderbook p true } :=
      hs.of_flags rfl rfl
    exact hs₀.websocket hmove hpresent
  | product p trade => exact hs.websocket hmove hpresent
  | noGap p trade => exact hs.websocket hmove hpresent
  | _ => exact hs.websocket hmove fun _ h => nomatch h

/-- The restart of a request: the product is there, and its destructor is not running,
since the websocket thread holds `m_mutexFeedData`. -/
theorem started_restarts {s s₁ s' : ServerThreads} {p : String} {trade : Bool}
    (hs : Started s) (h : Restarts s s₁ s' p trade) : Started s' := by
  have hin : WebsocketPoint.inProduct (s.point .websocket) = some p := by
    rw [h.point_eq]
    rfl
  have hthere : s.listeners p = true := hs.present p hin
  have hs₁ : Started s₁ := by
    refine hs.websocket h.leave fun p' heq => ?_
    cases heq
    exact hthere
  refine hs₁.request h.start ?_ fun hclient => ?_
  · rw [(moved h.leave).listeners]
    exact hthere
  · rw [(moved h.leave).other _ (by simp)] at hclient
    refine feedData_exclusive hs.consistent ?_ (feedData_of_inProduct hin)
    rw [hclient]
    exact List.mem_cons_of_mem _ (List.mem_cons_of_mem _ List.mem_cons_self)

/-- A product with a running thread is there. -/
theorem Started.listener_of_request {s : ServerThreads} (hs : Started s) {p : String}
    (h : RequestPoint.isEnded (s.point (.request p)) = false) : s.listeners p = true := by
  cases hp : s.listeners p with
  | true => rfl
  | false =>
    rw [(hs.ended p hp).1] at h
    cases h

theorem Started.listener_of_messages {s : ServerThreads} (hs : Started s) {p : String}
    (h : MessagesPoint.isEnded (s.point (.messages p)) = false) : s.listeners p = true := by
  cases hp : s.listeners p with
  | true => rfl
  | false =>
    rw [(hs.ended p hp).2] at h
    cases h

theorem started_requestEdge {s s₀ s' : ServerThreads} {p : String} {q : RequestPoint}
    (hs : Started s) (hedge : RequestEdge s p (s.point (.request p)) s₀ q)
    (hmove : s₀.move (.request p) q = some s') : Started s' := by
  have hruns : RequestPoint.isEnded (s.point (.request p)) = false := by
    generalize s.point (.request p) = point at hedge
    cases hedge <;> rfl
  have hthere : s.listeners p = true := hs.listener_of_request hruns
  have hclient : s.point .client ≠ ClientPoint.joinMessages p := by
    intro h
    rw [hs.joined p h] at hruns
    cases hruns
  generalize s.point (.request p) = point at hedge
  cases hedge with
  | mergeHeld =>
    have hs₀ : Started { s with
        requestingOrderbook := Function.update s.requestingOrderbook p false } :=
      hs.of_flags rfl rfl
    exact hs₀.request hmove hthere hclient
  | _ => exact hs.request hmove hthere hclient

theorem started_messagesEdge {s s' : ServerThreads} {p : String} {q : MessagesPoint}
    (hs : Started s) (hedge : MessagesEdge (s.point (.messages p)) q)
    (hmove : s.move (.messages p) q = some s') : Started s' := by
  have hruns : MessagesPoint.isEnded (s.point (.messages p)) = false := by
    generalize s.point (.messages p) = point at hedge
    cases hedge <;> rfl
  exact hs.messages hmove (hs.listener_of_messages hruns)

/-- **Every step** keeps it. -/
theorem started_step {s s' : ServerThreads} {e : ThreadEvent} (hs : Started s)
    (h : s.step e = some s') : Started s' := by
  cases step_edge h with
  | client s₀ q hedge hmove => exact started_clientEdge hs hedge hmove
  | websocket s₀ q hedge hmove => exact started_websocketEdge hs hedge hmove
  | restarts s₁ p trade hrestarts => exact started_restarts hs hrestarts
  | market q _ hmove => exact hs.of_move hmove (by simp) (by simp) fun _ ht => nomatch ht
  | request p s₀ q hedge hmove => exact started_requestEdge hs hedge hmove
  | messages p q hedge hmove => exact started_messagesEdge hs hedge hmove

theorem started_of_run {es : List ThreadEvent} {s : ServerThreads}
    (hrun : threadMachine.run .initial es = some s) : Started s := by
  refine threadMachine.invariant_rule (I := Started) started_initial ?_
    (threadMachine.guarded_true _ es) hrun
  intro s e s' hs _ hstep
  exact started_step hs hstep

/-- **A thread is started only when the last one has ended**: in every reachable state
where a product is about to be created, no thread under its name runs. -/
theorem started_over {es : List ThreadEvent} {s s' : ServerThreads} {p : String}
    (hrun : threadMachine.run .initial es = some s) (hnew : s.listeners p = false)
    (hstart : s.startProduct p = some s') :
    RequestPoint.isEnded (s.point (.request p)) = true ∧
      MessagesPoint.isEnded (s.point (.messages p)) = true ∧ s'.listeners p = true := by
  obtain ⟨hrequest, hmessages⟩ := (started_of_run hrun).ended p hnew
  obtain ⟨s₁, s₂, -, -, rfl⟩ := startProduct_moves hstart
  exact ⟨hrequest, hmessages, Function.update_self ..⟩

end QuoteServer
