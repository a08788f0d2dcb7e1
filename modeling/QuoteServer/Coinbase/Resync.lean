import QuoteServer.Coinbase.Labels

/-!
# A product that fetches its book again is as good as new

A gap puts a `CoinbaseFeedProduct` back into fetching, with whatever it had queued, with
messages its message thread still holds, and with a number that no longer matters. From
there on it does what a new one does that has seen the waiting messages above the number
`S` of the coming book, and nothing else: messages that `S` covers are passed over by the
merge and by the live path alike, and what the message thread holds is handed over first
(`RestartedAs`, a simulation step by step).

So everything known of a new product on a feed without a hole holds after any history, as
soon as the messages above `S` have none, whatever comes at or below it
(`resynchronised`).
-/

namespace QuoteServer

open EventMachine CoinbaseFeedMessageHandler

/-- The messages above `S`: those that wait, and those that arrive. -/
def sinceBook (S : Nat) (queue : List Queued) (es : List FeedEvent) : List Json :=
  newer S queue ++ newerArrivals S es

/-- The book `r` with number `S` is the first answer, and the messages above `S` follow it
without a hole: they carry `S + 1`, `S + 2`, …, each once and in this order. Nothing is said
of the messages it covers. -/
structure FollowedWithoutHole (S : Nat) (r : Json) (queue : List Queued)
    (es : List FeedEvent) : Prop where
  numbered : (sinceBook S queue es).map seqOf =
    List.range' (S + 1) (sinceBook S queue es).length
  first : ∀ body ∈ (answers es).head?, body = .json r
  bound : ∀ m ∈ sinceBook S queue es, seqOf m < 2 ^ 64 - 1

theorem sinceBook_append (S : Nat) (queue : List Queued) (es fs : List FeedEvent) :
    sinceBook S queue (es ++ fs) = sinceBook S queue es ++ newerArrivals S fs := by
  rw [sinceBook, newerArrivals_append, sinceBook, List.append_assoc]

theorem FollowedWithoutHole.init {S : Nat} {r : Json} {queue : List Queued}
    {es : List FeedEvent} {e : FeedEvent} (h : FollowedWithoutHole S r queue (es ++ [e])) :
    FollowedWithoutHole S r queue es := by
  obtain ⟨hnumbered, hfirst, hbound⟩ := h
  rw [sinceBook_append] at hnumbered hbound
  refine ⟨?_, fun body hbody => hfirst body ?_, fun m hm => hbound m ?_⟩
  · rw [List.map_append, List.length_append, ← List.range'_append_1] at hnumbered
    refine (List.append_inj hnumbered ?_).1
    rw [List.length_map, List.length_range']
  · rw [answers_append, List.head?_append_of_ne_nil]
    · exact hbody
    · intro hnil
      rw [hnil] at hbody
      cases hbody
  · exact List.mem_append_left _ hm

/-- Only a message with a number can be above one. -/
theorem unsignedAt_of_newer {S : Nat} {m : Json} (h : S < seqOf m) :
    m.unsignedAt "sequence" = .ok (seqOf m) := by
  unfold seqOf at h ⊢
  cases hm : m.unsignedAt "sequence" with
  | ok n => rfl
  | error e =>
    rw [hm] at h
    exact absurd h (Nat.not_lt_zero S)

theorem lt_of_mem_newer {S : Nat} {queue : List Queued} {m : Json} (h : m ∈ newer S queue) :
    S < seqOf m := by
  have hm := (List.mem_filter.mp h).2
  simpa using hm

theorem lt_of_mem_sinceBook {S : Nat} {queue : List Queued} {es : List FeedEvent} {m : Json}
    (h : m ∈ sinceBook S queue es) : S < seqOf m := by
  rcases List.mem_append.mp h with h | h
  · exact lt_of_mem_newer h
  · have hm := (List.mem_filter.mp h).2
    simpa using hm

/-- The feed of a new product that sees the messages above `S` only. -/
theorem FollowedWithoutHole.lossless {S : Nat} {r : Json} {queue : List Queued}
    {es es' : List FeedEvent} (h : FollowedWithoutHole S r queue es)
    (harrivals : arrivals es' = sinceBook S queue es) (hanswers : answers es' = answers es) :
    Lossless (S + 1) S r es' := by
  refine ⟨?_, ?_, ?_⟩
  · rw [harrivals]
    exact h.numbered
  · rw [hanswers]
    exact h.first
  · rw [harrivals]
    exact h.bound

/-- All its arrivals are above `S`. -/
theorem newerArrivals_of_arrivals {S : Nat} {queue : List Queued} {es es' : List FeedEvent}
    (harrivals : arrivals es' = sinceBook S queue es) :
    newerArrivals S es' = sinceBook S queue es := by
  rw [newerArrivals, harrivals]
  refine List.filter_eq_self.mpr fun m hm => ?_
  simpa using lt_of_mem_sinceBook hm

/-! ## What fetching does not look at -/

/-- The merge passes over the messages that the book covers. -/
theorem mergeQueue_newer {S : Nat} {queue : List Queued} {members : List (String × Json)}
    {last : Nat} {merged : Json × Nat}
    (h : CoinbaseFeedProduct.mergeQueue S queue (.object members) last = .ok merged) :
    CoinbaseFeedProduct.mergeQueue S ((newer S queue).map .message) (.object members) last =
      .ok merged := by
  induction queue generalizing members last with
  | nil => exact h
  | cons queued queue ih =>
    obtain ⟨hreadable, h⟩ := mergeQueue_cons.mp h
    rw [newer_cons]
    split at h
    · obtain ⟨pushed, hpushed, h⟩ := h
      rw [if_pos ‹_›, List.map_cons, mergeQueue_cons, if_pos ‹_›]
      exact ⟨hreadable, pushed, hpushed, ih h⟩
    · rw [if_neg ‹_›]
      exact ih h

theorem onMessageReceived_requesting {p : CoinbaseFeedProduct} {m : Json} {n : Nat}
    (hreq : p.requestingOrderbook = true) (hm : m.unsignedAt "sequence" = .ok n) :
    p.onMessageReceived m = .ok { p with messageQueue := p.messageQueue ++ [.message m] } := by
  unfold CoinbaseFeedProduct.onMessageReceived
  rw [hm]
  show (if p.requestingOrderbook = true then _ else _) = _
  rw [hreq, if_pos rfl]
  rfl

/-- In live mode the message with the next number is queued. -/
theorem onMessageReceived_next {p : CoinbaseFeedProduct} {m : Json}
    (hlive : p.requestingOrderbook = false) (hm : m.unsignedAt "sequence" = .ok (seqOf m))
    (hnext : seqOf m = p.lastSequenceNumber + 1) (hlt : p.lastSequenceNumber + 1 < 2 ^ 64) :
    p.onMessageReceived m = .ok { p with
      messageQueue := p.messageQueue ++ [.message m]
      lastSequenceNumber := seqOf m } := by
  have hgap : ¬ seqOf m > (p.lastSequenceNumber + 1) % 2 ^ 64 := by
    rw [Nat.mod_eq_of_lt hlt]
    omega
  have hold : ¬ seqOf m ≤ p.lastSequenceNumber := by omega
  unfold CoinbaseFeedProduct.onMessageReceived
  rw [hm]
  show (if p.requestingOrderbook = true then _ else _) = _
  rw [hlive, if_neg Bool.false_ne_true, if_neg hgap, if_neg hold]
  rfl

variable {FloatingP : Type}

/-- The product with some more messages waiting. -/
def FeedState.queued (g : FeedState FloatingP) (ms : List Json) : FeedState FloatingP :=
  { g with product := { g.product with
      messageQueue := g.product.messageQueue ++ ms.map .message } }

variable [FloatingPoint FloatingP]

omit [FloatingPoint FloatingP] in
theorem FeedState.queued_nil (g : FeedState FloatingP) : g.queued [] = g := by
  unfold FeedState.queued
  rw [List.map_nil, List.append_nil]

omit [FloatingPoint FloatingP] in
theorem FeedState.queued_append (g : FeedState FloatingP) (ms ms' : List Json) :
    g.queued (ms ++ ms') = (g.queued ms).queued ms' := by
  unfold FeedState.queued
  rw [List.map_append, ← List.append_assoc]

theorem step_arrive_requesting {g : FeedState FloatingP} {m : Json} {n : Nat}
    (hreq : g.product.requestingOrderbook = true) (hm : m.unsignedAt "sequence" = .ok n) :
    g.step (.arrive m) = some (g.queued [m]) := by
  unfold FeedState.step
  dsimp only
  rw [onMessageReceived_requesting hreq hm]
  rfl

/-- Messages that arrive while a book is fetched are queued. -/
theorem run_arrivals {g : FeedState FloatingP} {ms : List Json}
    (hreq : g.product.requestingOrderbook = true)
    (hms : ∀ m ∈ ms, ∃ n, m.unsignedAt "sequence" = .ok n) :
    (feedMachine FloatingP).run g (ms.map .arrive) = some (g.queued ms) := by
  induction ms generalizing g with
  | nil =>
    rw [FeedState.queued_nil]
    rfl
  | cons m ms ih =>
    obtain ⟨n, hn⟩ := hms m List.mem_cons_self
    have hstep : (feedMachine FloatingP).step g (.arrive m) = some (g.queued [m]) :=
      step_arrive_requesting hreq hn
    have hreq' : (g.queued [m]).product.requestingOrderbook = true := hreq
    rw [List.map_cons, Machine.run_cons, hstep, Option.bind_some,
      ih hreq' fun m' hm' => hms m' (List.mem_cons_of_mem _ hm'), ← FeedState.queued_append]
    rfl

/-! ## The simulation -/

/-- The product is in `f` what a new one is in `g`: what it was in `f₀`, when the book was
asked for, shows only in its records, in the messages still held then, and in the waiting
messages that the book will cover. -/
structure RestartedAs (S : Nat) (f₀ f g : FeedState FloatingP) : Prop where
  productId_eq : f.product.productId = f₀.product.productId ∧
    g.product.productId = f₀.product.productId
  requesting : f.product.requestingOrderbook = g.product.requestingOrderbook
  running : f.product.requestRunning = true → g.product.requestRunning = true
  requests : f.product.requests + 1 = f₀.product.requests + g.product.requests
  waiting : g.product.requestingOrderbook = true →
    g.product.messageQueue = (newer S f.product.messageQueue).map .message
  live : g.product.requestingOrderbook = false →
    f.product.messageQueue.map Queued.json = g.product.messageQueue.map Queued.json ∧
      f.product.lastSequenceNumber = g.product.lastSequenceNumber
  records : ∃ done rest pcs, f₀.messages = done ++ rest ∧
    changesOf f₀.product.productId (done.map Queued.json) = .ok pcs ∧
    f.messages.map Queued.json = rest.map Queued.json ++ g.messages.map Queued.json ∧
    f.emitted = f₀.emitted ++ pcs ++ g.emitted ∧
    (rest = [] ∨ (g.messages = [] ∧ g.emitted = []))

/-- The new product goes on in step: it takes the events of `f`, less those it does not
know of. -/
def KeepsUp (S : Nat) (f₀ f' g : FeedState FloatingP) (e : FeedEvent) : Prop :=
  ∃ es' g', (feedMachine FloatingP).run g es' = some g' ∧ RestartedAs S f₀ f' g' ∧
    arrivals es' = newerArrivals S [e] ∧ answers es' = answers [e]

/-- A step that the new product does not take. -/
theorem KeepsUp.of_none {S : Nat} {f₀ f' g : FeedState FloatingP} {e : FeedEvent}
    (h : RestartedAs S f₀ f' g) (harrivals : newerArrivals S [e] = [])
    (hanswers : answers [e] = []) : KeepsUp S f₀ f' g e :=
  ⟨[], g, rfl, h, harrivals.symm, hanswers.symm⟩

/-- A step that the new product takes too. -/
theorem KeepsUp.of_step {S : Nat} {f₀ f' g x : FeedState FloatingP} {e : FeedEvent}
    (hstep : g.step e = some x) (h : RestartedAs S f₀ f' x)
    (harrivals : newerArrivals S [e] = arrivals [e]) : KeepsUp S f₀ f' g e := by
  refine ⟨[e], x, ?_, h, harrivals.symm, rfl⟩
  rw [Machine.run_cons]
  exact Option.bind_eq_some_iff.mpr ⟨x, hstep, rfl⟩

theorem newerArrivals_singleton_of_lt {S : Nat} {m : Json} (h : S < seqOf m) :
    newerArrivals S [.arrive m] = [m] := newerArrivals_arrive_of_lt [] h

theorem newerArrivals_singleton_of_le {S : Nat} {m : Json} (h : seqOf m ≤ S) :
    newerArrivals S [.arrive m] = [] := newerArrivals_arrive_of_le [] h

theorem newer_singleton_of_lt {S : Nat} {m : Json} (h : S < seqOf m) :
    newer S [.message m] = [m] := (newer_cons S _ _).trans (if_pos h)

theorem newer_singleton_of_le {S : Nat} {m : Json} (h : seqOf m ≤ S) :
    newer S [.message m] = [] := (newer_cons S _ _).trans (if_neg (Nat.not_lt.mpr h))

/-- In live mode the last number is small enough to be followed by another. -/
theorem Streaming.last_lt {productId : String} {n S : Nat} {r : Json} {es : List FeedEvent}
    {s : FeedState FloatingP} (hb : FirstBook n S r) (hl : Lossless n S r es)
    (hs : Streaming productId n S r es s) : s.product.lastSequenceNumber + 1 < 2 ^ 64 := by
  have hlast := hs.last
  have hS := hb.bound
  have hreaches := hb.reaches
  have hcount : n + (arrivals es).length ≤ 2 ^ 64 - 1 := by
    cases hlen : (arrivals es).length with
    | zero => omega
    | succ k =>
      -- the last arrival has the last number
      have hmem : n + k ∈ (arrivals es).map seqOf := by
        rw [hl.numbered, hlen]
        exact List.mem_range'_1.mpr ⟨by omega, by omega⟩
      obtain ⟨m, hm, hseq⟩ := List.mem_map.mp hmem
      have hbound := hl.bound m hm
      omega
  omega

/-- An arrival while the book is fetched: it waits, and what the book will cover is not
known to the new product. -/
theorem restartedAs_queued {S : Nat} {f₀ f g : FeedState FloatingP} {m : Json} {n : Nat}
    (h : RestartedAs S f₀ f g) (hreq : f.product.requestingOrderbook = true)
    (hm : m.unsignedAt "sequence" = .ok n) : KeepsUp S f₀ (f.queued [m]) g (.arrive m) := by
  have hgreq : g.product.requestingOrderbook = true := h.requesting.symm.trans hreq
  have hlive : g.product.requestingOrderbook ≠ false := by
    rw [hgreq]
    decide
  by_cases hnew : S < seqOf m
  · refine .of_step (step_arrive_requesting hgreq hm) ?_ (newerArrivals_singleton_of_lt hnew)
    refine ⟨h.productId_eq, h.requesting, h.running, h.requests, fun _ => ?_,
      fun hg => absurd hg hlive, h.records⟩
    show g.product.messageQueue ++ [.message m] =
      (newer S (f.product.messageQueue ++ [.message m])).map .message
    rw [newer_append, newer_singleton_of_lt hnew, List.map_append, h.waiting hgreq]
    rfl
  · have hle : seqOf m ≤ S := Nat.le_of_not_lt hnew
    refine .of_none ?_ (newerArrivals_singleton_of_le hle) rfl
    refine ⟨h.productId_eq, h.requesting, h.running, h.requests, fun _ => ?_,
      fun hg => absurd hg hlive, h.records⟩
    show g.product.messageQueue = (newer S (f.product.messageQueue ++ [.message m])).map .message
    rw [newer_append, newer_singleton_of_le hle, List.append_nil]
    exact h.waiting hgreq

/-- An arrival in live mode: it has the next number, or the book covers it. -/
theorem restartedAs_arrive_live {productId : String} {S : Nat} {r m : Json}
    {es' : List FeedEvent} {f₀ f f' g : FeedState FloatingP} (hb : FirstBook (S + 1) S r)
    (hl : Lossless (S + 1) S r es')
    (hnext : S < seqOf m → seqOf m = S + 1 + (arrivals es').length)
    (hg : Streaming productId (S + 1) S r es' g) (h : RestartedAs S f₀ f g)
    (hstep : f.step (.arrive m) = some f') : KeepsUp S f₀ f' g (.arrive m) := by
  obtain ⟨p, hp, rfl⟩ := step_arrive hstep
  obtain ⟨hqueue, hsame⟩ := h.live hg.live
  have hlive : f.product.requestingOrderbook = false := h.requesting.trans hg.live
  have hlt := hg.last_lt hb hl
  have hlast := hg.last
  have hcount : g.product.lastSequenceNumber = S + (arrivals es').length := by omega
  by_cases hnew : S < seqOf m
  · have hseq : seqOf m = g.product.lastSequenceNumber + 1 := by
      have h := hnext hnew
      omega
    have hm := unsignedAt_of_newer hnew
    have hpf := onMessageReceived_next hlive hm (by rw [hsame]; exact hseq)
      (by rw [hsame]; exact hlt)
    cases hp.symm.trans hpf
    refine .of_step (x := { g with product := { g.product with
      messageQueue := g.product.messageQueue ++ [.message m]
      lastSequenceNumber := seqOf m } }) ?_ ?_ (newerArrivals_singleton_of_lt hnew)
    · unfold FeedState.step
      dsimp only
      rw [onMessageReceived_next hg.live hm hseq hlt]
    · refine ⟨h.productId_eq, h.requesting, h.running, h.requests, fun hreq => ?_,
        fun _ => ⟨?_, rfl⟩, h.records⟩
      · exact absurd (hg.live.symm.trans hreq) (by decide)
      · show (f.product.messageQueue ++ [Queued.message m]).map Queued.json =
          (g.product.messageQueue ++ [Queued.message m]).map Queued.json
        rw [List.map_append, hqueue, List.map_append]
  · -- a number that is covered is neither behind a gap nor the next
    have hle : seqOf m ≤ S := Nat.le_of_not_lt hnew
    rcases onMessageReceived_cases hp with
      ⟨hreq, -⟩ | ⟨-, hgap, -⟩ | ⟨-, -, rfl⟩ | ⟨-, hseq, -⟩
    · exact absurd (hlive.symm.trans hreq) (by decide)
    · rw [hsame, following_of_lt hlt] at hgap
      omega
    · exact .of_none h (newerArrivals_singleton_of_le hle) rfl
    · rw [hsame] at hseq
      omega

/-- The answer: both products merge the same messages into it. -/
theorem restartedAs_complete {S : Nat} {r : Json} {f₀ f f' g : FeedState FloatingP}
    (hb : FirstBook (S + 1) S r) (hg : g.product.requestingOrderbook = true)
    (h : RestartedAs S f₀ f g) (hstep : f.step (.complete (.json r)) = some f') :
    KeepsUp S f₀ f' g (.complete (.json r)) := by
  obtain ⟨hrun, p, hp, rfl⟩ := step_complete hstep
  have hacc : Accepts (.json r) r S := ⟨rfl, hb.sequence, by have := hb.one_le; omega⟩
  rw [requestFullOrderBookImpl_accepts hacc] at hp
  obtain ⟨merged, hm, hp⟩ := bind_eq_ok.mp hp
  cases hp
  obtain ⟨v, hv, -⟩ := bind_eq_ok.mp hb.sequence
  obtain ⟨members, rfl⟩ := Json.object_of_contains (Json.contains_iff.mpr ⟨v, hv⟩)
  have hm' : CoinbaseFeedProduct.mergeQueue S g.product.messageQueue (.object members) S =
      .ok merged := by
    rw [h.waiting hg]
    exact mergeQueue_newer hm
  refine .of_step (x := { g with product := { g.product with
    lastSequenceNumber := merged.2
    messageQueue := [.fullOrderBook merged.1
      (mergeRecord (.object members) S g.product.messageQueue)]
    requestingOrderbook := false
    requestRunning := false } }) ?_ ?_ rfl
  · unfold FeedState.step
    dsimp only
    rw [h.running hrun, if_pos rfl, requestFullOrderBookImpl_accepts hacc, hm']
    rfl
  · refine ⟨h.productId_eq, rfl, fun hrunning => (nomatch hrunning), h.requests,
      fun hreq => (nomatch hreq), fun _ => ⟨rfl, rfl⟩, h.records⟩

/-- What the message thread takes, and what it hands over. -/
theorem restartedAs_take {S : Nat} {f₀ f f' g : FeedState FloatingP}
    (h : RestartedAs S f₀ f g) (hstep : f.step .take = some f') : KeepsUp S f₀ f' g .take := by
  obtain ⟨hm, ⟨-, rfl⟩ | ⟨hlive, rfl⟩⟩ := step_take hstep
  · exact .of_none h rfl rfl
  · have hglive : g.product.requestingOrderbook = false := h.requesting.symm.trans hlive
    obtain ⟨hqueue, hlast⟩ := h.live hglive
    obtain ⟨done, rest, pcs, hheld, hpcs, hmessages, hemitted, -⟩ := h.records
    -- it takes only with empty hands, so it has handed over everything it held
    rw [hm] at hmessages
    obtain ⟨hrest, hgmap⟩ := List.append_eq_nil_iff.mp hmessages.symm
    obtain rfl := List.map_eq_nil_iff.mp hrest
    have hgm := List.map_eq_nil_iff.mp hgmap
    refine .of_step (x := { g with
      product := { g.product with messageQueue := [] }
      messages := g.product.messageQueue }) ?_ ?_ rfl
    · unfold FeedState.step
      dsimp only
      rw [hgm, if_pos List.isEmpty_nil, takeMessages_live hglive]
    · refine ⟨h.productId_eq, h.requesting, h.running, h.requests, fun hreq => ?_,
        fun _ => ⟨rfl, hlast⟩, done, [], pcs, hheld, hpcs, ?_, hemitted, .inl rfl⟩
      · exact absurd (hglive.symm.trans hreq) (by decide)
      · exact hqueue

theorem restartedAs_hand {S : Nat} {f₀ f f' g : FeedState FloatingP}
    (h : RestartedAs S f₀ f g) (hstep : f.step .hand = some f') : KeepsUp S f₀ f' g .hand := by
  obtain ⟨queued, messages, pc, hm, hpc, rfl⟩ := step_hand hstep
  obtain ⟨done, rest, pcs, hheld, hpcs, hmessages, hemitted, hrest⟩ := h.records
  rw [h.productId_eq.1] at hpc
  cases rest with
  | cons first rest =>
    -- one of those it held: the new product has not handed over anything yet
    obtain ⟨hgm, hge⟩ := hrest.resolve_left (List.cons_ne_nil _ _)
    rw [hgm, List.map_nil, List.append_nil, hm] at hmessages
    obtain ⟨hfirst, hothers⟩ := List.cons.inj hmessages
    rw [hfirst] at hpc
    refine .of_none ⟨h.productId_eq, h.requesting, h.running, h.requests, h.waiting, h.live, ?_⟩
      rfl rfl
    refine ⟨done ++ [first], rest, pcs ++ pc.toList, ?_, ?_, ?_, ?_, .inr ⟨hgm, hge⟩⟩
    · rw [hheld, List.append_assoc]
      rfl
    · rw [List.map_append]
      refine changesOf_append hpcs ?_
      exact changesOf_cons_ok.mpr ⟨pc, [], hpc, rfl, (List.append_nil _).symm⟩
    · rw [hgm, List.map_nil, List.append_nil]
      exact hothers
    · show f.emitted ++ pc.toList = f₀.emitted ++ (pcs ++ pc.toList) ++ g.emitted
      rw [hemitted, hge, List.append_nil, List.append_nil, List.append_assoc]
  | nil =>
    rw [hm] at hmessages
    obtain ⟨queued', messages', hgm, hsame, hothers⟩ := List.map_eq_cons_iff.mp hmessages.symm
    rw [← hsame] at hpc
    refine .of_step (x := { g with
      messages := messages'
      handed := g.handed ++ [queued']
      emitted := g.emitted ++ pc.toList }) ?_ ?_ rfl
    · unfold FeedState.step
      dsimp only
      rw [hgm]
      dsimp only
      rw [h.productId_eq.2, hpc]
    · refine ⟨h.productId_eq, h.requesting, h.running, h.requests, h.waiting, h.live,
        done, [], pcs, hheld, hpcs, hothers.symm, ?_, .inl rfl⟩
      show f.emitted ++ pc.toList = f₀.emitted ++ pcs ++ (g.emitted ++ pc.toList)
      rw [hemitted, List.append_assoc]

/-- Every event, as long as the messages above `S` have no hole. -/
theorem restartedAs_step {S : Nat} {r : Json} {es es' : List FeedEvent} {e : FeedEvent}
    {f₀ f f' g : FeedState FloatingP} (hb : FirstBook (S + 1) S r)
    (hl : FollowedWithoutHole S r f₀.product.messageQueue (es ++ [e]))
    (harrivals : arrivals es' = sinceBook S f₀.product.messageQueue es)
    (hanswers : answers es' = answers es)
    (hgrun : (feedMachine FloatingP).run (.initial f₀.product.productId) es' = some g)
    (h : RestartedAs S f₀ f g) (hstep : f.step e = some f') : KeepsUp S f₀ f' g e := by
  have hl' : Lossless (S + 1) S r es' := hl.init.lossless harrivals hanswers
  have hphases := lossless_phases hb hl' hgrun
  cases e with
  | take => exact restartedAs_take h hstep
  | hand => exact restartedAs_hand h hstep
  | complete body =>
    rcases hphases with hg | hg
    · have hbody : body = .json r := by
        refine hl.first body ?_
        rw [answers_append, ← hanswers, hg.unanswered]
        rfl
      subst hbody
      exact restartedAs_complete hb hg.requesting h hstep
    · -- the first answer ended the fetch, and nothing is asked for again
      obtain ⟨hrun, -⟩ := step_complete hstep
      exact absurd (hg.answered.symm.trans (h.running hrun)) (by decide)
  | arrive m =>
    rcases hphases with hg | hg
    · obtain ⟨p, hp, rfl⟩ := step_arrive hstep
      have hreq : f.product.requestingOrderbook = true := h.requesting.trans hg.requesting
      obtain ⟨n, hn, -⟩ := bind_eq_ok.mp hp
      cases hp.symm.trans (onMessageReceived_requesting hreq hn)
      exact restartedAs_queued h hreq hn
    · refine restartedAs_arrive_live hb hl' (fun hnew => ?_) hg h hstep
      have hnext : Lossless (S + 1) S r (es' ++ [.arrive m]) := by
        refine hl.lossless ?_ ?_
        · rw [arrivals_append, sinceBook_append, newerArrivals_singleton_of_lt hnew, harrivals]
          rfl
        · rw [answers_append, answers_append, hanswers]
      exact hnext.seqOf_arrival

/-! ## Whole runs -/

/-- The new product at the moment the book is asked for: it has seen what waits above `S`. -/
theorem restartedAs_start {S : Nat} {f₀ : FeedState FloatingP}
    (hreq : f₀.product.requestingOrderbook = true) :
    ∃ g, (feedMachine FloatingP).run (.initial f₀.product.productId)
        ((newer S f₀.product.messageQueue).map .arrive) = some g ∧ RestartedAs S f₀ f₀ g := by
  refine ⟨_, run_arrivals rfl fun m hm => ⟨_, unsignedAt_of_newer (lt_of_mem_newer hm)⟩, ?_⟩
  refine ⟨⟨rfl, rfl⟩, hreq, fun _ => rfl, rfl, fun _ => rfl, fun hlive => (nomatch hlive),
    [], f₀.messages, [], rfl, rfl, (List.append_nil _).symm, ?_, .inr ⟨rfl, rfl⟩⟩
  show f₀.emitted = f₀.emitted ++ [] ++ []
  rw [List.append_nil, List.append_nil]

/-- **A product that fetches its book again is a new one**, in every run from there. -/
theorem restarted {S : Nat} {r : Json} {es : List FeedEvent} {f₀ f : FeedState FloatingP}
    (hb : FirstBook (S + 1) S r) (hreq : f₀.product.requestingOrderbook = true)
    (hl : FollowedWithoutHole S r f₀.product.messageQueue es)
    (hrun : (feedMachine FloatingP).run f₀ es = some f) :
    ∃ es' g, (feedMachine FloatingP).run (.initial f₀.product.productId) es' = some g ∧
      RestartedAs S f₀ f g ∧ Lossless (S + 1) S r es' ∧
      newerArrivals S es' = sinceBook S f₀.product.messageQueue es := by
  have hboth : ∃ es' g, (feedMachine FloatingP).run (.initial f₀.product.productId) es' = some g ∧
      RestartedAs S f₀ f g ∧ arrivals es' = sinceBook S f₀.product.messageQueue es ∧
      answers es' = answers es := by
    refine (feedMachine FloatingP).history_rule
      (I := fun es f => FollowedWithoutHole S r f₀.product.messageQueue es → ∃ es' g,
        (feedMachine FloatingP).run (.initial f₀.product.productId) es' = some g ∧
          RestartedAs S f₀ f g ∧ arrivals es' = sinceBook S f₀.product.messageQueue es ∧
          answers es' = answers es)
      ?_ ?_ ((feedMachine FloatingP).guarded_true _ es) hrun hl
    · intro _
      obtain ⟨g, hgrun, hg⟩ := restartedAs_start hreq
      refine ⟨_, g, hgrun, hg, ?_, ?_⟩
      · -- nothing has arrived since, so the waiting messages are all there is
        show arrivals _ = newer S f₀.product.messageQueue ++ []
        rw [List.append_nil, arrivals, List.filterMap_map]
        exact List.filterMap_some
      · rw [answers, List.filterMap_map]
        exact List.filterMap_eq_nil_iff.mpr fun m _ => rfl
    · intro es f e f' _ ih _ hstep hl
      obtain ⟨es', g, hgrun, h, harrivals, hanswers⟩ := ih hl.init
      obtain ⟨more, g', hmore, h', harr, hans⟩ :=
        restartedAs_step hb hl harrivals hanswers hgrun h hstep
      refine ⟨es' ++ more, g', Machine.run_append_some _ |>.mpr ⟨g, hgrun, hmore⟩, h', ?_, ?_⟩
      · rw [arrivals_append, sinceBook_append, harrivals, harr]
      · rw [answers_append, answers_append, hanswers, hans]
  obtain ⟨es', g, hgrun, h, harrivals, hanswers⟩ := hboth
  exact ⟨es', g, hgrun, h, hl.lossless harrivals hanswers, newerArrivals_of_arrivals harrivals⟩

/-- The changes `out` are those of the book `r` with the first of the messages `msgs` merged
into it, and of some more of them one by one. -/
def FromBook (productId : String) (r : Json) (msgs : List Json)
    (out : List (ProductChange FloatingP)) : Prop :=
  ∃ merged waiting live later, MergedBook r merged waiting ∧
    msgs = waiting ++ (live ++ later) ∧ changesOf productId (merged :: live) = .ok out

/-- What a product has passed on since the book was asked for: what its message thread held
then, and changes from the book on. -/
theorem emitted_since {S : Nat} {r : Json} {es : List FeedEvent} {f₀ f : FeedState FloatingP}
    (hb : FirstBook (S + 1) S r) (hreq : f₀.product.requestingOrderbook = true)
    (hl : FollowedWithoutHole S r f₀.product.messageQueue es)
    (hrun : (feedMachine FloatingP).run f₀ es = some f) :
    ∃ done rest held out, f₀.messages = done ++ rest ∧
      changesOf f₀.product.productId (done.map Queued.json) = .ok held ∧
      f.emitted = f₀.emitted ++ held ++ out ∧
      (out = [] ∨ FromBook f₀.product.productId r
        (sinceBook S f₀.product.messageQueue es) out) := by
  obtain ⟨es', g, hgrun, h, hl', hnewer⟩ := restarted hb hreq hl hrun
  obtain ⟨done, rest, held, hheld, hpcs, -, hemitted, -⟩ := h.records
  refine ⟨done, rest, held, g.emitted, hheld, hpcs, hemitted, ?_⟩
  by_cases hout : g.emitted = []
  · exact .inl hout
  · have hg : Streaming f₀.product.productId (S + 1) S r es' g := by
      rcases lossless_phases hb hl' hgrun with hg | hg
      · exact absurd hg.emitted hout
      · exact hg
    obtain ⟨merged, live, later, hm, hnew, hchanges⟩ :=
      hg.handed_cons hb (lossless_bookMerged hb hl' hgrun hg.live) hout
    rw [hnewer] at hnew
    exact .inr ⟨merged, _, live, later, hm, hnew, hchanges⟩

/-- The changes of a full order book leave the same whatever the book was before. -/
theorem replay_fullBook {productId : String} {r : Json} {msgs : List Json}
    {pcs : List (ProductChange FloatingP)} (hfull : isFullOrderBook r = true)
    (h : changesOf productId (r :: msgs) = .ok pcs) (book book' : OrderBook FloatingP) :
    book.replay pcs = book'.replay pcs := by
  obtain ⟨pc, rest, hpc, -, rfl⟩ := changesOf_cons_ok.mp h
  obtain ⟨asks, bids, toMerge, sequence, -, -, -, -, rfl⟩ :=
    (getProductChange_fullOrderBook hfull).mp hpc
  show (book.applyChange _).replay rest = (book'.applyChange _).replay rest
  rw [OrderBook.applyChange_reset, OrderBook.applyChange_reset]

/-- A live product that has handed over everything has passed on its book. -/
theorem Streaming.emitted_ne_nil {productId : String} {n S : Nat} {r : Json}
    {es : List FeedEvent} {s : FeedState FloatingP} (hb : FirstBook n S r)
    (hs : Streaming productId n S r es s) (hd : Drained s) : s.emitted ≠ [] := by
  obtain ⟨merged, ms, rest, hm, hfwd, -⟩ := hs.forwarded
  rw [hd.messages, hd.queue, List.append_nil, List.append_nil] at hfwd
  have hpassed := hs.passedOn
  rw [hfwd, List.map_cons] at hpassed
  obtain ⟨pc, pcs, hpc, -, heq⟩ := changesOf_cons_ok.mp hpassed
  obtain ⟨_, _, _, _, _, -, -, rfl⟩ := (getProductChange_merged hm hb.full).mp hpc
  rw [heq]
  exact List.cons_ne_nil _ _

/-- A product that is answered with the full book does not ask for it again. -/
theorem requests_restarted {S : Nat} {r : Json} {es : List FeedEvent} {f₀ f : FeedState FloatingP}
    (hb : FirstBook (S + 1) S r) (hreq : f₀.product.requestingOrderbook = true)
    (hl : FollowedWithoutHole S r f₀.product.messageQueue es)
    (hrun : (feedMachine FloatingP).run f₀ es = some f) :
    f.product.requests = f₀.product.requests := by
  obtain ⟨es', g, hgrun, h, hl', -⟩ := restarted hb hreq hl hrun
  have hphases := lossless_phases hb hl' hgrun
  have hrequests : g.product.requests = 1 := hphases.elim Fetching.requests Streaming.requests
  have hsame := h.requests
  omega

/-- Once nothing is left to hand over, the changes passed on leave the book that `r` and the
messages since then leave one by one. -/
theorem replay_restarted {S : Nat} {r : Json} {es : List FeedEvent} {f₀ f : FeedState FloatingP}
    (hb : FirstBook (S + 1) S r) (hreq : f₀.product.requestingOrderbook = true)
    (hl : FollowedWithoutHole S r f₀.product.messageQueue es)
    (hrun : (feedMachine FloatingP).run f₀ es = some f) (hd : Drained f) :
    f.emitted ≠ [] ∧ ∃ pcs, changesOf f₀.product.productId
        (r :: sinceBook S f₀.product.messageQueue es) = .ok pcs ∧
      ∀ book : OrderBook FloatingP, book.replay f.emitted = OrderBook.replay {} pcs := by
  obtain ⟨es', g, hgrun, h, hl', hnewer⟩ := restarted hb hreq hl hrun
  obtain ⟨done, rest, held, -, -, hmessages, hemitted, -⟩ := h.records
  have hg : Streaming f₀.product.productId (S + 1) S r es' g := by
    rcases lossless_phases hb hl' hgrun with hg | hg
    · exact absurd (hg.requesting.symm.trans (h.requesting.symm.trans hd.live)) (by decide)
    · exact hg
  -- nothing is left to hand over for the new product either
  have hgd : Drained g := by
    rw [hd.messages] at hmessages
    have hqueue := (h.live hg.live).1
    rw [hd.queue] at hqueue
    exact ⟨hg.live, List.map_eq_nil_iff.mp hqueue.symm,
      List.map_eq_nil_iff.mp (List.append_eq_nil_iff.mp hmessages.symm).2⟩
  obtain ⟨pcs, hpcs, hbook⟩ := hg.replay_drained hb hgd
  rw [hnewer] at hpcs
  refine ⟨?_, pcs, hpcs, fun book => ?_⟩
  · rw [hemitted]
    exact List.append_ne_nil_of_right_ne_nil _ (hg.emitted_ne_nil hb hgd)
  rw [hemitted, OrderBook.replay_append, hbook]
  exact replay_fullBook hb.full hpcs _ _

/-- **After any history the replica is exact again.** Whatever a product's state when it
asks for its book: if the answer is the full order book `r` with number `S`, and the
messages above `S`, waiting or still to come, carry `S + 1`, `S + 2`, …, each once and in
this order, then it does not ask again, and once nothing is left to hand over the changes
passed on since ever leave the book that `r` and these messages leave one by one. -/
theorem resynchronised {S : Nat} {r : Json} {es : List FeedEvent} {f₀ f : FeedState FloatingP}
    (hb : FirstBook (S + 1) S r) (hreq : f₀.product.requestingOrderbook = true)
    (hl : FollowedWithoutHole S r f₀.product.messageQueue es)
    (hrun : (feedMachine FloatingP).run f₀ es = some f) :
    f.product.requests = f₀.product.requests ∧
      (Drained f → f.emitted ≠ [] ∧ ∃ pcs, changesOf f₀.product.productId
          (r :: sinceBook S f₀.product.messageQueue es) = .ok pcs ∧
        ∀ book : OrderBook FloatingP, book.replay f.emitted = OrderBook.replay {} pcs) :=
  ⟨requests_restarted hb hreq hl hrun, replay_restarted hb hreq hl hrun⟩

/-- A product that has passed on the book 1 and then saw the number 5. -/
def gapSeen : FeedState Int where
  product := { productId := "ETH-USD", requests := 2 }
  handed := [.fullOrderBook (bookMsg 1 [("1", "1", "A")] []) []]
  emitted := [.resetOrderBook [⟨1, 1, "A"⟩] [] [] "ETH-USD" 1]

/-- The gap is closed by the book 5, which a message 6 follows. The message 3 that comes
late is covered. -/
theorem resynchronised_gap :
    (feedMachine Int).run (.initial "ETH-USD")
        [.complete (.json (bookMsg 1 [("1", "1", "A")] [])), .take, .hand,
          .arrive (doneMsg "buy" "A" 5)] = some gapSeen ∧
      ∃ f : FeedState Int, (feedMachine Int).run gapSeen
          [.arrive (doneMsg "sell" "A" 3), .arrive (doneMsg "sell" "B" 6),
            .complete (.json (bookMsg 5 [("1", "1", "B")] [])), .take, .hand] = some f ∧
        f.product.requests = gapSeen.product.requests ∧
        ∃ pcs, changesOf "ETH-USD"
            [bookMsg 5 [("1", "1", "B")] [], doneMsg "sell" "B" 6] = .ok pcs ∧
          ∀ book : OrderBook Int, book.replay f.emitted = OrderBook.replay {} pcs := by
  have hb : FirstBook (5 + 1) 5 (bookMsg 5 [("1", "1", "B")] []) :=
    ⟨rfl, rfl, rfl, by decide, by decide, by decide⟩
  have hl : FollowedWithoutHole 5 (bookMsg 5 [("1", "1", "B")] []) gapSeen.product.messageQueue
      [.arrive (doneMsg "sell" "A" 3), .arrive (doneMsg "sell" "B" 6),
        .complete (.json (bookMsg 5 [("1", "1", "B")] [])), .take, .hand] := by
    refine ⟨rfl, fun body hbody => (Option.some.inj hbody).symm, fun m hm => ?_⟩
    obtain rfl := List.mem_singleton.mp hm
    decide
  obtain ⟨f, hrun, hd⟩ : ∃ f : FeedState Int, (feedMachine Int).run gapSeen
      [.arrive (doneMsg "sell" "A" 3), .arrive (doneMsg "sell" "B" 6),
        .complete (.json (bookMsg 5 [("1", "1", "B")] [])), .take, .hand] = some f ∧ Drained f :=
    ⟨_, rfl, rfl, rfl, rfl⟩
  obtain ⟨hrequests, hdrained⟩ := resynchronised hb rfl hl hrun
  exact ⟨rfl, f, hrun, hrequests, (hdrained hd).2⟩

end QuoteServer
