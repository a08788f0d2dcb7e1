import QuoteServer.Coinbase.Recovery

/-!
# A fetch that ends without a book

While `m_requestingOrderbook` is set, messages are only queued, and only
`requestFullOrderBookImpl` clears it. But that function also returns early: on an empty
answer, on one without a sequence number and on sequence number `0`. Nothing starts it
again then, since a gap is noticed in live mode only. So a product always has a way out
of fetching exactly as long as every answer can be used (`never_stuck_iff`), and after
the first one that cannot it queues messages for ever (`stuck_queue`).
-/

namespace QuoteServer

open EventMachine

/-- The answer is a book with a sequence number other than `0`. -/
def Usable (body : RestBody) : Prop := ∃ j S, Accepts body j S

/-- If messages are held back, there is a run of `requestFullOrderBookImpl` that has not
yet returned. -/
def Releasable (p : CoinbaseFeedProduct) : Prop :=
  p.requestingOrderbook = true → p.requestRunning = true

variable {FloatingP : Type} [FloatingPoint FloatingP]

/-- A book is being fetched outside live mode only. -/
theorem requesting_step {s s' : FeedState FloatingP} {e : FeedEvent}
    (hs : s.product.requestRunning = true → s.product.requestingOrderbook = true)
    (h : s.step e = some s') :
    s'.product.requestRunning = true → s'.product.requestingOrderbook = true := by
  cases e with
  | arrive m =>
    obtain ⟨p, hp, rfl⟩ := step_arrive h
    rcases onMessageReceived_cases hp with
      ⟨-, rfl⟩ | ⟨-, -, rfl⟩ | ⟨-, -, rfl⟩ | ⟨-, -, rfl⟩
    · exact hs
    · exact fun _ => rfl
    · exact hs
    · exact hs
  | complete body =>
    obtain ⟨-, p, hp, rfl⟩ := step_complete h
    rcases requestFullOrderBookImpl_cases hp with ⟨-, rfl⟩ | ⟨_, _, _, -, -, rfl⟩
    · exact fun hrun => (nomatch hrun)
    · exact fun hrun => (nomatch hrun)
  | take =>
    obtain ⟨-, ⟨-, rfl⟩ | ⟨-, rfl⟩⟩ := step_take h
    · exact hs
    · exact hs
  | hand =>
    obtain ⟨_, _, _, -, -, rfl⟩ := step_hand h
    exact hs

theorem requesting_of_run {productId : String} {es : List FeedEvent} {s : FeedState FloatingP}
    (hrun : (feedMachine FloatingP).run (.initial productId) es = some s) :
    s.product.requestRunning = true → s.product.requestingOrderbook = true := by
  refine (feedMachine FloatingP).invariant_rule
    (I := fun s => s.product.requestRunning = true → s.product.requestingOrderbook = true)
    (fun _ => rfl) ?_ ((feedMachine FloatingP).guarded_true _ es) hrun
  intro s e s' hs _ hstep
  exact requesting_step hs hstep

/-- The way out of fetching is kept by every step but an answer that cannot be used. -/
theorem releasable_step {s s' : FeedState FloatingP} {e : FeedEvent}
    (hs : Releasable s.product) (hg : ∀ body, e = .complete body → Usable body)
    (h : s.step e = some s') : Releasable s'.product := by
  cases e with
  | arrive m =>
    obtain ⟨p, hp, rfl⟩ := step_arrive h
    rcases onMessageReceived_cases hp with
      ⟨-, rfl⟩ | ⟨-, -, rfl⟩ | ⟨-, -, rfl⟩ | ⟨hlive, -, rfl⟩
    · exact hs
    · -- a gap starts a run
      exact fun _ => rfl
    · exact hs
    · exact fun hreq => absurd (hlive.symm.trans hreq) (by decide)
  | complete body =>
    obtain ⟨-, p, hp, rfl⟩ := step_complete h
    rcases requestFullOrderBookImpl_cases hp with ⟨hn, -⟩ | ⟨_, _, _, -, -, rfl⟩
    · obtain ⟨j, S, ha⟩ := hg body rfl
      exact absurd ha (hn j S)
    · exact fun hreq => (nomatch hreq)
  | take =>
    obtain ⟨-, ⟨-, rfl⟩ | ⟨-, rfl⟩⟩ := step_take h
    · exact hs
    · exact hs
  | hand =>
    obtain ⟨_, _, _, -, -, rfl⟩ := step_hand h
    exact hs

/-- An answer that cannot be used ends the fetch and leaves the product fetching. -/
theorem stuck_of_unusable {s s' : FeedState FloatingP} {body : RestBody}
    (hreq : s.product.requestRunning = true → s.product.requestingOrderbook = true)
    (hbody : ¬ Usable body) (h : s.step (.complete body) = some s') :
    ¬ Releasable s'.product := by
  obtain ⟨hrun, p, hp, rfl⟩ := step_complete h
  rcases requestFullOrderBookImpl_cases hp with ⟨-, rfl⟩ | ⟨j, S, _, ha, -, -⟩
  · intro hrel
    have hstill : s.product.requestingOrderbook = true := hreq hrun
    exact absurd (hrel hstill) Bool.false_ne_true
  · exact absurd ⟨j, S, ha⟩ hbody

/-- **A product always has a way out of fetching exactly if every answer can be used**,
over every run. -/
theorem never_stuck_iff {productId : String} {es : List FeedEvent} {s : FeedState FloatingP}
    (hrun : (feedMachine FloatingP).run (.initial productId) es = some s) :
    (feedMachine FloatingP).Always (fun s => Releasable s.product) (.initial productId) es ↔
      ∀ body, .complete body ∈ es → Usable body := by
  constructor
  · intro halways body hmem
    by_contra hbody
    -- the state after that answer would be stuck
    obtain ⟨pre, post, rfl⟩ := List.append_of_mem hmem
    obtain ⟨t, hpre, hpost⟩ := (Machine.run_append_some _).mp hrun
    obtain ⟨t', hstep, -⟩ := Option.bind_eq_some_iff.mp hpost
    refine stuck_of_unusable (requesting_of_run hpre) hbody hstep ?_
    refine halways (pre ++ [.complete body]) post t' (by rw [List.append_assoc]; rfl) ?_
    exact (Machine.run_snoc _).mpr ⟨t, hpre, hstep⟩
  · intro husable pre post t hes ht
    refine (feedMachine FloatingP).invariant_rule
      (G := fun _ e => ∀ body, e = .complete body → Usable body)
      (I := fun s => Releasable s.product) (fun _ => rfl)
      (fun s e s' hs hge hstep => releasable_step hs hge hstep) ?_ ht
    intro pre' e post' _ heq _ body he
    refine husable body ?_
    rw [hes, heq, he]
    exact List.mem_append_left _ (List.mem_append_right _ List.mem_cons_self)

/-- A stuck product only queues: it takes no answer, and nothing from the queue. -/
theorem stuck_step {s s' : FeedState FloatingP} {e : FeedEvent}
    (hreq : s.product.requestingOrderbook = true) (hstuck : s.product.requestRunning = false)
    (h : s.step e = some s') :
    s'.product.requestingOrderbook = true ∧ s'.product.requestRunning = false ∧
      s'.product.messageQueue = s.product.messageQueue ++ (arrivals [e]).map .message := by
  cases e with
  | arrive m =>
    obtain ⟨p, hp, rfl⟩ := step_arrive h
    rcases onMessageReceived_cases hp with
      ⟨-, rfl⟩ | ⟨hlive, -, -⟩ | ⟨hlive, -, -⟩ | ⟨hlive, -, -⟩
    · exact ⟨hreq, hstuck, rfl⟩
    all_goals exact absurd (hreq.symm.trans hlive) (by decide)
  | complete body =>
    obtain ⟨hrun, -⟩ := step_complete h
    exact absurd (hstuck.symm.trans hrun) (by decide)
  | take =>
    obtain ⟨-, ⟨-, rfl⟩ | ⟨hlive, -⟩⟩ := step_take h
    · exact ⟨hreq, hstuck, (List.append_nil _).symm⟩
    · exact absurd (hreq.symm.trans hlive) (by decide)
  | hand =>
    obtain ⟨_, _, _, -, -, rfl⟩ := step_hand h
    exact ⟨hreq, hstuck, (List.append_nil _).symm⟩

/-- Once stuck, a product stays so, and its queue only grows. -/
theorem stuck_queue {s s' : FeedState FloatingP} {es : List FeedEvent}
    (hreq : s.product.requestingOrderbook = true) (hstuck : s.product.requestRunning = false)
    (hrun : (feedMachine FloatingP).run s es = some s') :
    ¬ Releasable s'.product ∧
      s'.product.messageQueue = s.product.messageQueue ++ (arrivals es).map .message := by
  have hinv : s'.product.requestingOrderbook = true ∧ s'.product.requestRunning = false ∧
      s'.product.messageQueue = s.product.messageQueue ++ (arrivals es).map .message := by
    refine (feedMachine FloatingP).history_rule
      (I := fun es t => t.product.requestingOrderbook = true ∧ t.product.requestRunning = false ∧
        t.product.messageQueue = s.product.messageQueue ++ (arrivals es).map .message)
      ⟨hreq, hstuck, (List.append_nil _).symm⟩ ?_ ((feedMachine FloatingP).guarded_true _ es) hrun
    rintro es t e t' - ⟨htreq, htstuck, hqueue⟩ - hstep
    obtain ⟨hreq', hstuck', hqueue'⟩ := stuck_step htreq htstuck hstep
    refine ⟨hreq', hstuck', ?_⟩
    rw [hqueue', hqueue, arrivals_append, List.map_append, List.append_assoc]
  obtain ⟨hreq', hstuck', hqueue⟩ := hinv
  exact ⟨fun hrel => absurd (hstuck'.symm.trans (hrel hreq')) (by decide), hqueue⟩

/-- A product that gets a book and recovers from a gap with another one. -/
theorem never_stuck_iff_recovered :
    ∃ s : FeedState Int,
      (feedMachine Int).run (.initial "ETH-USD")
        [.complete (.json (bookMsg 1 [] [])), .arrive (doneMsg "sell" "A" 3),
          .complete (.json (bookMsg 3 [] []))] = some s ∧
      ((feedMachine Int).Always (fun s => Releasable s.product) (.initial "ETH-USD")
        [.complete (.json (bookMsg 1 [] [])), .arrive (doneMsg "sell" "A" 3),
          .complete (.json (bookMsg 3 [] []))] ↔
        ∀ body, .complete body ∈ [FeedEvent.complete (.json (bookMsg 1 [] [])),
          .arrive (doneMsg "sell" "A" 3), .complete (.json (bookMsg 3 [] []))] → Usable body) :=
  Exists.imp (fun _ hrun => ⟨hrun, never_stuck_iff hrun⟩) ⟨_, rfl⟩

/-- The first answer is empty: the message that arrives then waits for nothing. -/
theorem empty_answer_stuck :
    ∃ (es : List FeedEvent) (s : FeedState Int),
      (feedMachine Int).run (.initial "ETH-USD") es = some s ∧
      s.product.requestingOrderbook = true ∧ s.product.requestRunning = false ∧
      s.product.messageQueue.length = 1 :=
  ⟨[.complete .empty, .arrive (doneMsg "sell" "A" 1)], _, rfl, rfl, rfl, rfl⟩

end QuoteServer
