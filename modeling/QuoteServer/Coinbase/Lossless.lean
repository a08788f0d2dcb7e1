import QuoteServer.Coinbase.MergedPath
import QuoteServer.Coinbase.NoHole
import QuoteServer.Coinbase.Recovery

/-!
# A lossless feed is replicated exactly

If a product's messages arrive with consecutive numbers and its first full order
book reaches at least up to the message before them, then it does not matter when
the book arrives, where the switch to live mode falls or when the queue is
emptied: no second book is ever requested, the handler gets the book and then
every message above it in order, and the changes it passes on replay to the book
and those messages one by one.

The run has two phases. While the book is being fetched, the queue is everything
that arrived (`Fetching`). From then on everything forwarded is the book with some
of the newer messages merged into it, followed by the rest of them (`Streaming`);
`m_lastSequenceNumber` is the larger of the book's number and the last arrival's,
so the next arrival is old or follows it, and never a gap.
-/

namespace QuoteServer

open EventMachine NumberedStream CoinbaseFeedMessageHandler

/-- The answers of the full order book requests, in order. -/
def answers (es : List FeedEvent) : List RestBody :=
  es.filterMap fun
    | .complete body => some body
    | _ => none

theorem answers_append (es fs : List FeedEvent) :
    answers (es ++ fs) = answers es ++ answers fs := List.filterMap_append

/-- The messages of a run above `S`, in order of arrival. -/
def newerArrivals (S : Nat) (es : List FeedEvent) : List Json :=
  (arrivals es).filter fun jmsg => S < seqOf jmsg

theorem newerArrivals_append (S : Nat) (es fs : List FeedEvent) :
    newerArrivals S (es ++ fs) = newerArrivals S es ++ newerArrivals S fs := by
  rw [newerArrivals, arrivals_append, List.filter_append]
  rfl

/-- An arrival above `S` is the newest of the newer ones. -/
theorem newerArrivals_arrive_of_lt {S : Nat} {m : Json} (es : List FeedEvent)
    (h : S < seqOf m) : newerArrivals S (es ++ [.arrive m]) = newerArrivals S es ++ [m] := by
  rw [newerArrivals_append]
  show _ ++ List.filter (fun jmsg => S < seqOf jmsg) [m] = _
  rw [List.filter_cons_of_pos (by simpa using h), List.filter_nil]

/-- An arrival that `S` covers is none of them. -/
theorem newerArrivals_arrive_of_le {S : Nat} {m : Json} (es : List FeedEvent)
    (h : seqOf m ≤ S) : newerArrivals S (es ++ [.arrive m]) = newerArrivals S es := by
  rw [newerArrivals_append]
  show _ ++ List.filter (fun jmsg => S < seqOf jmsg) [m] = _
  rw [List.filter_cons_of_neg (by simpa using h), List.filter_nil, List.append_nil]

theorem newerArrivals_eq_newer (S : Nat) (es : List FeedEvent) :
    newerArrivals S es = newer S ((arrivals es).map .message) :=
  (newer_messages S (arrivals es)).symm

/-- A lossless feed: the arrivals carry the numbers `n`, `n + 1`, …, and the first
answer, once there is one, is the full order book `r` with number `S`, which leaves
none of the numbers before `n` open. Every number is below `2 ^ 64 - 1`. -/
structure Lossless (n S : Nat) (r : Json) (es : List FeedEvent) : Prop where
  numbered : (arrivals es).map seqOf = List.range' n (arrivals es).length
  first : ∀ body ∈ (answers es).head?, body = .json r
  bound : ∀ m ∈ arrivals es, seqOf m < 2 ^ 64 - 1

/-- The first full order book, as the exchange answers: bids and asks, no messages
merged by itself, and a number that reaches up to `n - 1`. -/
structure FirstBook (n S : Nat) (r : Json) : Prop where
  sequence : r.unsignedAt "sequence" = .ok S
  full : isFullOrderBook r = true
  own : toMergeOf r = []
  one_le : 1 ≤ S
  reaches : n ≤ S + 1
  bound : S < 2 ^ 64 - 1

/-- The feed of a shorter run is lossless too. -/
theorem Lossless.init {n S : Nat} {r : Json} {es : List FeedEvent} {e : FeedEvent}
    (h : Lossless n S r (es ++ [e])) : Lossless n S r es := by
  obtain ⟨hnum, hfirst, hbound⟩ := h
  refine ⟨?_, fun body hbody => hfirst body ?_, fun m hm => hbound m ?_⟩
  · rw [arrivals_append, List.map_append, List.length_append,
      ← List.range'_append_1] at hnum
    refine (List.append_inj hnum ?_).1
    rw [List.length_map, List.length_range']
  · rw [answers_append, List.head?_append_of_ne_nil]
    · exact hbody
    · rintro hnil
      rw [hnil] at hbody
      cases hbody
  · rw [arrivals_append]
    exact List.mem_append_left _ hm

/-- The number of the next arrival. -/
theorem Lossless.seqOf_arrival {n S : Nat} {r m : Json} {es : List FeedEvent}
    (h : Lossless n S r (es ++ [.arrive m])) : seqOf m = n + (arrivals es).length := by
  have hnum := h.numbered
  rw [arrivals_append, List.map_append, List.length_append,
    ← List.range'_append_1] at hnum
  have hlast := (List.append_inj hnum (by rw [List.length_map, List.length_range'])).2
  exact (List.cons.inj hlast).1

/-- The newer messages of a lossless feed carry `S + 1`, `S + 2`, …. -/
theorem Lossless.newerArrivals_numbers {n S : Nat} {r : Json} {es : List FeedEvent}
    (h : Lossless n S r es) (hS : n ≤ S + 1) :
    (newerArrivals S es).map seqOf =
      List.range' (S + 1) (n + (arrivals es).length - (S + 1)) := by
  induction es using List.reverseRecOn with
  | nil =>
    have hzero : n + 0 - (S + 1) = 0 := by omega
    show [] = List.range' (S + 1) (n + 0 - (S + 1))
    rw [hzero]
    rfl
  | append_singleton es e ih =>
    have ih := ih h.init
    cases e with
    | arrive m =>
      have hm := h.seqOf_arrival
      have hlen : (arrivals (es ++ [.arrive m])).length = (arrivals es).length + 1 := by
        rw [arrivals_append, List.length_append]
        rfl
      rw [hlen]
      -- the numbers above `S` begin at `S + 1`, since the arrivals begin at or below it
      by_cases hnew : S < seqOf m
      · have hcount : n + ((arrivals es).length + 1) - (S + 1) =
            n + (arrivals es).length - (S + 1) + 1 := by omega
        have hval : seqOf m = S + 1 + (n + (arrivals es).length - (S + 1)) := by omega
        rw [newerArrivals_arrive_of_lt es hnew, List.map_append, ih, hcount,
          List.range'_1_concat, ← hval]
        rfl
      · have hcount : n + ((arrivals es).length + 1) - (S + 1) =
            n + (arrivals es).length - (S + 1) := by omega
        rw [newerArrivals_arrive_of_le es (Nat.le_of_not_lt hnew), ih, hcount]
    | _ =>
      rw [newerArrivals_append, arrivals_append]
      show (newerArrivals S es ++ []).map seqOf =
        List.range' (S + 1) (n + (arrivals es ++ []).length - (S + 1))
      rw [List.append_nil, List.append_nil]
      exact ih

/-- The last number of consecutive ones. -/
theorem lastOf_consecutive {S k : Nat} {ms : List Json}
    (h : ms.map seqOf = List.range' (S + 1) k) : lastOf S ms = S + k := by
  unfold lastOf
  rw [h]
  cases k with
  | zero => rfl
  | succ k =>
    rw [List.range'_1_concat, List.getLastD_concat]
    omega

/-! ## The two phases -/

variable {FloatingP : Type} [FloatingPoint FloatingP]

/-- While the first book is being fetched: everything that arrived waits. -/
structure Fetching (productId : String) (es : List FeedEvent) (s : FeedState FloatingP) :
    Prop where
  productId_eq : s.product.productId = productId
  requesting : s.product.requestingOrderbook = true
  queue : s.product.messageQueue = (arrivals es).map .message
  messages : s.messages = []
  handed : s.handed = []
  emitted : s.emitted = []
  requests : s.product.requests = 1
  unanswered : answers es = []

/-- After it: everything forwarded is the book with the first newer messages merged
into it, followed by the other newer ones. -/
structure Streaming (productId : String) (n S : Nat) (r : Json) (es : List FeedEvent)
    (s : FeedState FloatingP) : Prop where
  productId_eq : s.product.productId = productId
  live : s.product.requestingOrderbook = false
  answered : s.product.requestRunning = false
  requests : s.product.requests = 1
  last : s.product.lastSequenceNumber + 1 = max (S + 1) (n + (arrivals es).length)
  forwarded : ∃ merged ms rest, MergedBook r merged ms ∧
    s.handed ++ s.messages ++ s.product.messageQueue =
      .fullOrderBook merged (ms.map .message) :: rest.map .message ∧
    ms ++ rest = newerArrivals S es
  passedOn : changesOf productId (s.handed.map Queued.json) = .ok s.emitted

/-- No event but an arrival adds a message. -/
theorem arrivals_concat_other {es : List FeedEvent} {e : FeedEvent}
    (h : ∀ m, e ≠ .arrive m) : arrivals (es ++ [e]) = arrivals es := by
  rw [arrivals_append]
  cases e with
  | arrive m => exact absurd rfl (h m)
  | _ => exact List.append_nil _

theorem newerArrivals_concat_other {S : Nat} {es : List FeedEvent} {e : FeedEvent}
    (h : ∀ m, e ≠ .arrive m) : newerArrivals S (es ++ [e]) = newerArrivals S es := by
  rw [newerArrivals, arrivals_concat_other h, newerArrivals]

/-- The accepted book starts the second phase. -/
theorem streaming_requestFullOrderBookImpl {productId : String} {n S : Nat} {r : Json}
    {es : List FeedEvent} {s : FeedState FloatingP} {p : CoinbaseFeedProduct}
    (hb : FirstBook n S r) (hl : Lossless n S r (es ++ [.complete (.json r)]))
    (hs : Fetching productId es s)
    (h : s.product.requestFullOrderBookImpl (.json r) = .ok p) :
    Streaming productId n S r (es ++ [.complete (.json r)]) { s with product := p } := by
  have hacc : Accepts (.json r) r S := ⟨rfl, hb.sequence, by have := hb.one_le; omega⟩
  rcases requestFullOrderBookImpl_cases h with ⟨hn, -⟩ | ⟨j, S', merged, ha, hm, rfl⟩
  · exact absurd hacc (hn r S)
  obtain ⟨rfl, rfl⟩ := ha.unique hacc
  have harr : arrivals (es ++ [.complete (.json j)]) = arrivals es :=
    arrivals_concat_other fun m h => (nomatch h)
  have hnew : newerArrivals S' (es ++ [.complete (.json j)]) = newerArrivals S' es :=
    newerArrivals_concat_other fun m h => (nomatch h)
  have hrecord : mergeRecord j S' s.product.messageQueue =
      (newerArrivals S' es).map .message := by
    rw [mergeRecord, hb.own, hs.queue, newerQueued_messages]
    rfl
  rw [hrecord, hs.queue]
  rw [hs.queue] at hm
  rw [← newerArrivals_eq_newer] at hm ⊢
  have hlast := lastOf_consecutive (hl.init.newerArrivals_numbers hb.reaches)
  constructor
  · exact hs.productId_eq
  · rfl
  · rfl
  · exact hs.requests
  · show lastOf S' (newerArrivals S' es) + 1 = _
    rw [hlast, harr]
    omega
  · refine ⟨merged, newerArrivals S' es, [], hm, ?_, ?_⟩
    · rw [hs.handed, hs.messages]
      rfl
    · rw [hnew, List.append_nil]
  · show changesOf productId (s.handed.map Queued.json) = .ok s.emitted
    rw [hs.handed, hs.emitted]
    rfl

/-- While the book is being fetched, only its answer changes the phase. -/
theorem fetching_step {productId : String} {n S : Nat} {r : Json} {es : List FeedEvent}
    {e : FeedEvent} {s s' : FeedState FloatingP} (hb : FirstBook n S r)
    (hl : Lossless n S r (es ++ [e])) (hs : Fetching productId es s)
    (h : s.step e = some s') :
    Fetching productId (es ++ [e]) s' ∨ Streaming productId n S r (es ++ [e]) s' := by
  cases e with
  | arrive m =>
    obtain ⟨p, hp, rfl⟩ := step_arrive h
    rcases onMessageReceived_cases hp with
      ⟨-, rfl⟩ | ⟨hlive, -, -⟩ | ⟨hlive, -, -⟩ | ⟨hlive, -, -⟩
    · refine .inl ⟨hs.productId_eq, hs.requesting, ?_, hs.messages, hs.handed, hs.emitted,
        hs.requests, ?_⟩
      · rw [arrivals_append, List.map_append, ← hs.queue]
        rfl
      · rw [answers_append, hs.unanswered]
        rfl
    all_goals exact absurd (hs.requesting.symm.trans hlive) (by decide)
  | complete body =>
    obtain ⟨-, p, hp, rfl⟩ := step_complete h
    have hbody : body = .json r := by
      refine hl.first body ?_
      rw [answers_append, hs.unanswered]
      rfl
    subst hbody
    exact .inr (streaming_requestFullOrderBookImpl hb hl hs hp)
  | take =>
    obtain ⟨-, ⟨-, rfl⟩ | ⟨hlive, -⟩⟩ := step_take h
    · have harr : arrivals (es ++ [.take]) = arrivals es :=
        arrivals_concat_other fun m h => (nomatch h)
      refine .inl ⟨hs.productId_eq, hs.requesting, ?_, hs.messages, hs.handed, hs.emitted,
        hs.requests, ?_⟩
      · rw [harr]
        exact hs.queue
      · rw [answers_append, hs.unanswered]
        rfl
    · exact absurd (hs.requesting.symm.trans hlive) (by decide)
  | hand =>
    obtain ⟨queued, messages, pc, hm, -, -⟩ := step_hand h
    rw [hs.messages] at hm
    cases hm

/-- An arrival in the second phase is old or follows the last one: the numbers leave
no room for a gap. -/
theorem streaming_arrive {productId : String} {n S : Nat} {r m : Json}
    {es : List FeedEvent} {s : FeedState FloatingP} {p : CoinbaseFeedProduct}
    (hb : FirstBook n S r) (hl : Lossless n S r (es ++ [.arrive m]))
    (hs : Streaming productId n S r es s)
    (h : s.product.onMessageReceived m = .ok p) :
    Streaming productId n S r (es ++ [.arrive m]) { s with product := p } := by
  have hm := hl.seqOf_arrival
  have hlast := hs.last
  have hS := hb.bound
  have hbound : seqOf m < 2 ^ 64 - 1 := by
    refine hl.bound m ?_
    rw [arrivals_append]
    exact List.mem_append_right _ (List.mem_singleton.mpr rfl)
  have hlen : (arrivals (es ++ [.arrive m])).length = (arrivals es).length + 1 := by
    rw [arrivals_append, List.length_append]
    rfl
  obtain ⟨merged, ms, rest, hmerged, hfwd, hnew⟩ := hs.forwarded
  rcases onMessageReceived_cases h with
    ⟨hreq, -⟩ | ⟨-, hgap, -⟩ | ⟨-, hold, rfl⟩ | ⟨-, hseq, rfl⟩
  · exact absurd (hs.live.symm.trans hreq) (by decide)
  · -- a gap would need a number above both the book and the last arrival
    rw [following_of_lt (by omega)] at hgap
    omega
  · -- covered by the book: nothing is queued, and the last number stays
    refine ⟨hs.productId_eq, hs.live, hs.answered, hs.requests, ?_,
      ⟨merged, ms, rest, hmerged, hfwd, ?_⟩, hs.passedOn⟩
    · show s.product.lastSequenceNumber + 1 = _
      rw [hlen]
      omega
    · rw [newerArrivals_arrive_of_le es (by omega), hnew]
  · -- the next number: the message is queued behind the others
    refine ⟨hs.productId_eq, hs.live, hs.answered, hs.requests, ?_,
      ⟨merged, ms, rest ++ [m], hmerged, ?_, ?_⟩, hs.passedOn⟩
    · show seqOf m + 1 = _
      rw [hlen]
      omega
    · show s.handed ++ s.messages ++ (s.product.messageQueue ++ [.message m]) = _
      rw [← List.append_assoc, hfwd, List.map_append]
      rfl
    · rw [newerArrivals_arrive_of_lt es (by omega), ← hnew, List.append_assoc]

theorem streaming_step {productId : String} {n S : Nat} {r : Json} {es : List FeedEvent}
    {e : FeedEvent} {s s' : FeedState FloatingP} (hb : FirstBook n S r)
    (hl : Lossless n S r (es ++ [e])) (hs : Streaming productId n S r es s)
    (h : s.step e = some s') : Streaming productId n S r (es ++ [e]) s' := by
  obtain ⟨merged, ms, rest, hmerged, hfwd, hnew⟩ := hs.forwarded
  cases e with
  | arrive m =>
    obtain ⟨p, hp, rfl⟩ := step_arrive h
    exact streaming_arrive hb hl hs hp
  | complete body =>
    obtain ⟨hrun, -⟩ := step_complete h
    exact absurd (hs.answered.symm.trans hrun) (by decide)
  | take =>
    have harr : arrivals (es ++ [.take]) = arrivals es :=
      arrivals_concat_other fun m h => (nomatch h)
    have hnew' : newerArrivals S (es ++ [.take]) = newerArrivals S es :=
      newerArrivals_concat_other fun m h => (nomatch h)
    obtain ⟨hm, ⟨hreq, -⟩ | ⟨-, rfl⟩⟩ := step_take h
    · exact absurd (hs.live.symm.trans hreq) (by decide)
    · refine ⟨hs.productId_eq, hs.live, hs.answered, hs.requests, ?_,
        ⟨merged, ms, rest, hmerged, ?_, ?_⟩, hs.passedOn⟩
      · rw [harr]
        exact hs.last
      · rw [hm, List.append_nil] at hfwd
        show s.handed ++ s.product.messageQueue ++ [] = _
        rw [List.append_nil]
        exact hfwd
      · rw [hnew', hnew]
  | hand =>
    have harr : arrivals (es ++ [.hand]) = arrivals es :=
      arrivals_concat_other fun m h => (nomatch h)
    have hnew' : newerArrivals S (es ++ [.hand]) = newerArrivals S es :=
      newerArrivals_concat_other fun m h => (nomatch h)
    obtain ⟨queued, messages, pc, hm, hpc, rfl⟩ := step_hand h
    refine ⟨hs.productId_eq, hs.live, hs.answered, hs.requests, ?_,
      ⟨merged, ms, rest, hmerged, ?_, ?_⟩, ?_⟩
    · rw [harr]
      exact hs.last
    · rw [hm] at hfwd
      show s.handed ++ [queued] ++ messages ++ s.product.messageQueue = _
      rw [List.append_assoc s.handed]
      exact hfwd
    · rw [hnew', hnew]
    · show changesOf productId ((s.handed ++ [queued]).map Queued.json) = _
      rw [hs.productId_eq] at hpc
      rw [List.map_append]
      refine changesOf_append hs.passedOn ?_
      exact changesOf_cons_ok.mpr ⟨pc, [], hpc, rfl, (List.append_nil _).symm⟩

/-- Every run of a lossless feed is in one of the two phases. -/
theorem lossless_phases {productId : String} {n S : Nat} {r : Json} {es : List FeedEvent}
    {s : FeedState FloatingP} (hb : FirstBook n S r) (hl : Lossless n S r es)
    (hrun : (feedMachine FloatingP).run (.initial productId) es = some s) :
    Fetching productId es s ∨ Streaming productId n S r es s := by
  refine (feedMachine FloatingP).history_rule
    (I := fun es s => Lossless n S r es →
      Fetching productId es s ∨ Streaming productId n S r es s) ?_ ?_
    ((feedMachine FloatingP).guarded_true _ es) hrun hl
  · intro _
    exact .inl ⟨rfl, rfl, rfl, rfl, rfl, rfl, rfl, rfl⟩
  · intro es s e s' _ ih _ hstep hl
    rcases ih hl.init with hs | hs
    · exact fetching_step hb hl hs hstep
    · exact .inr (streaming_step hb hl hs hstep)

/-! ## The result -/

/-- The messages forwarded after the book: those under `to_merge`, then the others. -/
def Queued.afterBook : Queued → List Json
  | .message jmsg => [jmsg]
  | .fullOrderBook orderBookMsg _ => toMergeOf orderBookMsg

/-- The stream of a lossless feed: the book, then its newer messages. -/
def losslessStream (S : Nat) (es : List FeedEvent) : List Item :=
  .mark S :: ((newerArrivals S es).map seqOf).map .entry

/-- Nothing is left to hand over. -/
structure Drained (s : FeedState FloatingP) : Prop where
  live : s.product.requestingOrderbook = false
  queue : s.product.messageQueue = []
  messages : s.messages = []

theorem afterBook_messages (jmsgs : List Json) :
    (jmsgs.map Queued.message).flatMap Queued.afterBook = jmsgs := by
  induction jmsgs with
  | nil => rfl
  | cons j js ih =>
    rw [List.map_cons, List.flatMap_cons, ih]
    rfl

/-- At every moment the stream handed over is a prefix of the book and its newer
messages, by number and message by message. -/
theorem Streaming.handed_prefix {productId : String} {n S : Nat} {r : Json}
    {es : List FeedEvent} {s : FeedState FloatingP} (hb : FirstBook n S r)
    (hs : Streaming productId n S r es s) :
    flattened s.handed <+: losslessStream S es ∧
      s.handed.flatMap Queued.afterBook <+: newerArrivals S es := by
  obtain ⟨merged, ms, rest, hm, hfwd, hnew⟩ := hs.forwarded
  have hmerge : toMergeOf merged = ms := by
    rw [hm.toMerge, hb.own, List.nil_append]
  rw [List.append_assoc] at hfwd
  constructor
  · refine ⟨flattened (s.messages ++ s.product.messageQueue), ?_⟩
    rw [← flattened_append, hfwd]
    rw [flattened_cons, items_fullOrderBook, flattened_messages, flattened_messages,
      hm.seqOf_eq, seqOf_of_ok hb.sequence, List.cons_append, ← List.map_append,
      ← List.map_append, hnew]
    rfl
  · refine ⟨(s.messages ++ s.product.messageQueue).flatMap Queued.afterBook, ?_⟩
    rw [← List.flatMap_append, hfwd, List.flatMap_cons, afterBook_messages]
    show toMergeOf merged ++ rest = _
    rw [hmerge, hnew]

/-- Once everything is handed over, the changes passed on replay to the book and its
newer messages one by one. -/
theorem Streaming.replay_drained {productId : String} {n S : Nat} {r : Json}
    {es : List FeedEvent} {s : FeedState FloatingP} (hb : FirstBook n S r)
    (hs : Streaming productId n S r es s) (hd : Drained s) :
    ∃ pcs, changesOf productId (r :: newerArrivals S es) = .ok pcs ∧
      ∀ book : OrderBook FloatingP, book.replay s.emitted = book.replay pcs := by
  obtain ⟨merged, ms, rest, hm, hfwd, hnew⟩ := hs.forwarded
  rw [hd.messages, hd.queue, List.append_nil, List.append_nil] at hfwd
  have hpassed := hs.passedOn
  rw [hfwd, List.map_cons, json_messages] at hpassed
  rw [← hnew]
  exact replay_merged hm hb.full hb.own hpassed

/-- **A lossless feed is replicated exactly.** In every run, whatever its
interleaving: one full order book is requested; what was handed over is a prefix of
the book and its newer messages, which carry `S + 1`, `S + 2`, …; and once nothing
is left to hand over, the changes passed on replay to the book and every newer
message one by one, so any two such runs over the same arrivals end in the same
book. -/
theorem lossless_feed_replicated {productId : String} {n S : Nat} {r : Json}
    {es : List FeedEvent} {s : FeedState FloatingP} (hb : FirstBook n S r)
    (hl : Lossless n S r es)
    (hrun : (feedMachine FloatingP).run (.initial productId) es = some s) :
    s.product.requests = 1 ∧
    (newerArrivals S es).map seqOf =
      List.range' (S + 1) (newerArrivals S es).length ∧
    flattened s.handed <+: losslessStream S es ∧
    s.handed.flatMap Queued.afterBook <+: newerArrivals S es ∧
    (Drained s →
      (∃ pcs, changesOf productId (r :: newerArrivals S es) = .ok pcs ∧
        ∀ book : OrderBook FloatingP, book.replay s.emitted = book.replay pcs) ∧
      ∀ (es' : List FeedEvent) (s' : FeedState FloatingP),
        Lossless n S r es' → arrivals es' = arrivals es →
        (feedMachine FloatingP).run (.initial productId) es' = some s' → Drained s' →
        ∀ book : OrderBook FloatingP, book.replay s'.emitted = book.replay s.emitted) := by
  have hnumbers : (newerArrivals S es).map seqOf =
      List.range' (S + 1) (newerArrivals S es).length := by
    have h := hl.newerArrivals_numbers hb.reaches
    have hlen := congrArg List.length h
    rw [List.length_map, List.length_range'] at hlen
    rw [h, hlen]
  rcases lossless_phases hb hl hrun with hs | hs
  · -- nothing was handed over yet
    refine ⟨hs.requests, hnumbers, ?_, ?_, fun hd => ?_⟩
    · rw [hs.handed]
      exact List.nil_prefix
    · rw [hs.handed]
      exact List.nil_prefix
    · exact absurd (hs.requesting.symm.trans hd.live) (by decide)
  · obtain ⟨hflat, hafter⟩ := hs.handed_prefix hb
    refine ⟨hs.requests, hnumbers, hflat, hafter, fun hd => ?_⟩
    obtain ⟨pcs, hpcs, hbook⟩ := hs.replay_drained hb hd
    refine ⟨⟨pcs, hpcs, hbook⟩, fun es' s' hl' harr hrun' hd' book => ?_⟩
    rcases lossless_phases hb hl' hrun' with hs' | hs'
    · exact absurd (hs'.requesting.symm.trans hd'.live) (by decide)
    · obtain ⟨pcs', hpcs', hbook'⟩ := hs'.replay_drained hb hd'
      -- both are the replay of the book and the newer of the same arrivals
      have hsame : newerArrivals S es' = newerArrivals S es := by
        rw [newerArrivals, harr, newerArrivals]
      rw [hsame, hpcs] at hpcs'
      cases hpcs'
      rw [hbook', hbook]

/-- A book that covers the message waiting for it, and a message after it. -/
theorem lossless_feed_replicated_covered :
    ∃ s : FeedState Int,
      (feedMachine Int).run (.initial "ETH-USD")
        [.arrive (doneMsg "sell" "A" 4), .complete (.json (bookMsg 4 [("1", "1", "B")] [])),
          .take, .arrive (doneMsg "sell" "B" 5), .hand, .take, .hand] = some s ∧
      Drained s ∧
      ∃ pcs, changesOf "ETH-USD"
          [bookMsg 4 [("1", "1", "B")] [], doneMsg "sell" "B" 5] = .ok pcs ∧
        ∀ book : OrderBook Int, book.replay s.emitted = book.replay pcs := by
  have hb : FirstBook 4 4 (bookMsg 4 [("1", "1", "B")] []) :=
    ⟨rfl, rfl, rfl, by decide, by decide, by decide⟩
  have hl : Lossless 4 4 (bookMsg 4 [("1", "1", "B")] [])
      [.arrive (doneMsg "sell" "A" 4), .complete (.json (bookMsg 4 [("1", "1", "B")] [])),
        .take, .arrive (doneMsg "sell" "B" 5), .hand, .take, .hand] := by
    refine ⟨rfl, fun body hbody => ?_, fun m hm => ?_⟩
    · exact (Option.some.inj hbody).symm
    · obtain rfl | hm := List.mem_cons.mp hm
      · decide
      · obtain rfl := List.mem_singleton.mp hm
        decide
  have hrun := lossless_feed_replicated hb hl
    (rfl : (feedMachine Int).run (.initial "ETH-USD") _ = some _)
  exact ⟨_, rfl, ⟨rfl, rfl, rfl⟩, (hrun.2.2.2.2 ⟨rfl, rfl, rfl⟩).1⟩

end QuoteServer
