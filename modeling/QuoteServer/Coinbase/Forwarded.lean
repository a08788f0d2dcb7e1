import QuoteServer.Lib.NumberedStream
import QuoteServer.Coinbase.FeedSteps

/-!
# What a CoinbaseFeedProduct forwards

The live path of `onMessageReceived` accepts a message only with the number after the
last one. The other path has no such test: a book is merged with *every* waiting message
above its own number, in the order of the queue. So what is said of the numbers handed to
the message handler depends on the waiting messages a book is merged with, and on
nothing else.

Among these there may be an order book again: one that was accepted and that the message
thread did not take before the next gap. It keeps the messages merged into it, and the
handler replays them in its place, so it is a mark of its own (`Queued.items`). The record
that a queued book has of these messages is right in every run (`faithful_of_run`). The code
counts a book as one message with its own number, so a book that waits last leaves
`m_lastSequenceNumber` behind the number that is really the last one.

The invariant follows what is *forwarded*: what was handed over, what the message thread
holds, and, in live mode, what is in the queue. It is linked by some relation that the
next number is in, and in live mode it ends in `m_lastSequenceNumber`, or in a number that
this is allowed to be behind (`Forwarded`).
-/

namespace QuoteServer

open EventMachine NumberedStream

mutual

/-- A queued message as a stream: an order book is a mark, followed by the
messages merged into it, among which there may be an order book again. -/
def Queued.items : Queued → List Item
  | .message jmsg => [.entry (seqOf jmsg)]
  | .fullOrderBook orderBookMsg toMerge => .mark (seqOf orderBookMsg) :: flattened toMerge

/-- The stream of what was handed to the handler, each order book followed by its
`to_merge` messages. -/
def flattened : List Queued → List Item
  | [] => []
  | queued :: queue => queued.items ++ flattened queue

end

@[simp] theorem flattened_nil : flattened [] = [] := by
  unfold flattened
  rfl

theorem flattened_cons (queued : Queued) (queue : List Queued) :
    flattened (queued :: queue) = queued.items ++ flattened queue := by
  conv_lhs => unfold flattened

@[simp] theorem items_message (jmsg : Json) :
    (Queued.message jmsg).items = [.entry (seqOf jmsg)] := by
  unfold Queued.items
  rfl

@[simp] theorem items_fullOrderBook (orderBookMsg : Json) (toMerge : List Queued) :
    (Queued.fullOrderBook orderBookMsg toMerge).items =
      .mark (seqOf orderBookMsg) :: flattened toMerge := by
  conv_lhs => unfold Queued.items

theorem flattened_append (q q' : List Queued) :
    flattened (q ++ q') = flattened q ++ flattened q' := by
  induction q with
  | nil => rfl
  | cons queued q ih =>
    rw [List.cons_append, flattened_cons, flattened_cons, ih, List.append_assoc]

@[simp] theorem flattened_singleton (queued : Queued) :
    flattened [queued] = queued.items := by
  rw [flattened_cons, flattened_nil, List.append_nil]

/-- Messages that were queued as they came are entries. -/
theorem flattened_messages (jmsgs : List Json) :
    flattened (jmsgs.map .message) = (jmsgs.map seqOf).map .entry := by
  induction jmsgs with
  | nil => rfl
  | cons j js ih =>
    rw [List.map_cons, flattened_cons, items_message, ih]
    rfl

/-- A book with messages merged into it, as a stream. -/
theorem flattened_merged (taken : List Queued) {j merged : Json} {S : Nat} {queue : List Queued}
    (hm : MergedBook j merged (newer S queue)) (hS : seqOf j = S) (hown : toMergeOf j = []) :
    flattened (taken ++ [.fullOrderBook merged (mergeRecord j S queue)]) =
      flattened taken ++ .mark S :: flattened (newerQueued S queue) := by
  rw [flattened_append, flattened_singleton, items_fullOrderBook, hm.seqOf_eq, hS, mergeRecord,
    hown, List.map_nil, List.nil_append]

/-- The part of the queue that goes out before anything else: nothing while a book
is being fetched. -/
def CoinbaseFeedProduct.live (p : CoinbaseFeedProduct) : List Queued :=
  if p.requestingOrderbook then [] else p.messageQueue

theorem live_requesting {p : CoinbaseFeedProduct} (h : p.requestingOrderbook = true) :
    p.live = [] := if_pos h

theorem live_live {p : CoinbaseFeedProduct} (h : p.requestingOrderbook = false) :
    p.live = p.messageQueue := if_neg (by rw [h]; decide)

/-- The invariant, over what the message thread took (`taken`) and the product: what is
forwarded is linked, in live mode up to the last sequence number or one this is behind,
and a book is only being fetched outside live mode. -/
structure Forwarded (R Behind : Nat → Nat → Prop) (taken : List Queued)
    (p : CoinbaseFeedProduct) : Prop where
  linked : Linked R none (flattened (taken ++ p.live))
  last : p.requestingOrderbook = false →
    ∃ K, lastSeen none (flattened (taken ++ p.live)) = some K ∧
      (p.lastSequenceNumber = K ∨ Behind p.lastSequenceNumber K)
  running : p.requestRunning = true → p.requestingOrderbook = true

section

variable {R Behind Behind' : Nat → Nat → Prop} {taken : List Queued}
  {p p' : CoinbaseFeedProduct}

/-- What was taken is a prefix of what is forwarded. -/
theorem Forwarded.linked_taken (h : Forwarded R Behind taken p) :
    Linked R none (flattened taken) := by
  have hlinked := h.linked
  rw [flattened_append] at hlinked
  exact (linked_append.mp hlinked).1

/-- Allowing more keeps the invariant. -/
theorem Forwarded.mono (hle : ∀ n K, Behind n K → Behind' n K) (h : Forwarded R Behind taken p) :
    Forwarded R Behind' taken p where
  linked := h.linked
  last hlive := by
    obtain ⟨K, hseen, hlast⟩ := h.last hlive
    exact ⟨K, hseen, hlast.imp_right (hle _ K)⟩
  running := h.running

/-- Outside live mode only what was taken matters. -/
theorem forwarded_of_requesting (hr : p.requestingOrderbook = true)
    (h : Linked R none (flattened taken)) : Forwarded R Behind taken p where
  linked := by
    rw [live_requesting hr, List.append_nil]
    exact h
  last hlive := absurd (hr.symm.trans hlive) (by decide)
  running _ := hr

/-- In live mode the whole queue is forwarded. -/
theorem forwarded_of_live {K : Nat} (hr : p.requestingOrderbook = false)
    (hrun : p.requestRunning = false)
    (hlinked : Linked R none (flattened (taken ++ p.messageQueue)))
    (hseen : lastSeen none (flattened (taken ++ p.messageQueue)) = some K)
    (hlast : p.lastSequenceNumber = K ∨ Behind p.lastSequenceNumber K) :
    Forwarded R Behind taken p where
  linked := by
    rw [live_live hr]
    exact hlinked
  last _ := by
    rw [live_live hr]
    exact ⟨K, hseen, hlast⟩
  running h := absurd (hrun.symm.trans h) (by decide)

/-- No book is being fetched in live mode. -/
theorem Forwarded.notRunning (h : Forwarded R Behind taken p)
    (hr : p.requestingOrderbook = false) : p.requestRunning = false := by
  cases hrun : p.requestRunning with
  | false => rfl
  | true => exact absurd (hr.symm.trans (h.running hrun)) (by decide)

/-- The live path lets through only the number after the last one, and that number does
not arrive where the last one is behind. -/
theorem forwarded_onMessageReceived {m : Json} (hR : ∀ n, R n (n + 1))
    (hnext : ∀ K, Behind p.lastSequenceNumber K → seqOf m ≠ p.lastSequenceNumber + 1)
    (hs : Forwarded R Behind taken p) (h : p.onMessageReceived m = .ok p') :
    Forwarded R Behind taken p' := by
  rcases onMessageReceived_cases h with
    ⟨hr, rfl⟩ | ⟨hr, -, rfl⟩ | ⟨-, -, rfl⟩ | ⟨hr, hseq, rfl⟩
  · -- queued while a book is being fetched
    exact forwarded_of_requesting hr hs.linked_taken
  · -- a gap: a book is fetched again
    exact forwarded_of_requesting rfl hs.linked_taken
  · exact hs
  · -- accepted
    have hlinked := hs.linked
    obtain ⟨K, hseen, hlast⟩ := hs.last hr
    rw [live_live hr] at hlinked hseen
    have hK : p.lastSequenceNumber = K :=
      hlast.resolve_right fun hbehind => hnext K hbehind hseq
    have hsplit : flattened (taken ++ (p.messageQueue ++ [.message m])) =
        flattened (taken ++ p.messageQueue) ++ [.entry (seqOf m)] := by
      rw [← List.append_assoc, flattened_append, flattened_singleton, items_message]
    refine forwarded_of_live hr (hs.notRunning hr) ?_ ?_ (.inl rfl)
    · rw [hsplit, linked_append, hseen, ← hK]
      exact ⟨hlinked, hseq ▸ hR _, trivial⟩
    · rw [hsplit, lastSeen_append, hseen]
      rfl

/-- An accepted book starts the stream anew, and what is merged into it goes on from
its mark by the condition on the step. -/
theorem forwarded_requestFullOrderBookImpl {body : RestBody} (hs : Forwarded R Behind taken p)
    (hrun : p.requestRunning = true)
    (hg : ∀ j S, Accepts body j S → toMergeOf j = [] ∧
      Linked R (some S) (flattened (newerQueued S p.messageQueue)) ∧
      ∃ K, lastSeen (some S) (flattened (newerQueued S p.messageQueue)) = some K ∧
        (lastOf S (newer S p.messageQueue) = K ∨ Behind (lastOf S (newer S p.messageQueue)) K))
    (h : p.requestFullOrderBookImpl body = .ok p') : Forwarded R Behind taken p' := by
  rcases requestFullOrderBookImpl_cases h with ⟨-, rfl⟩ | ⟨j, S, merged, ha, hm, rfl⟩
  · exact forwarded_of_requesting (hs.running hrun) hs.linked_taken
  · -- the queue is the book alone now, so the stream is what was taken and then the book
    obtain ⟨hown, hlinked, K, hseen, hlast⟩ := hg j S ha
    have hitems := flattened_merged taken hm ha.seqOf_eq hown
    refine forwarded_of_live rfl rfl ?_ ?_ hlast
    · rw [hitems, linked_append]
      exact ⟨hs.linked_taken, hlinked⟩
    · rw [hitems, lastSeen_append]
      exact hseen

/-- Taking the queue moves it, it does not reorder it. -/
theorem forwarded_take (hs : Forwarded R Behind taken p) (hr : p.requestingOrderbook = false) :
    Forwarded R Behind (taken ++ p.messageQueue) { p with messageQueue := [] } := by
  have hlinked := hs.linked
  obtain ⟨K, hseen, hlast⟩ := hs.last hr
  rw [live_live hr] at hlinked hseen
  refine forwarded_of_live hr (hs.notRunning hr) ?_ ?_ hlast
  · rw [List.append_nil]
    exact hlinked
  · rw [List.append_nil]
    exact hseen

end

variable {FloatingP : Type} [FloatingPoint FloatingP] {R Behind : Nat → Nat → Prop}

omit [FloatingPoint FloatingP] in
/-- In live mode: everything handed over so far, or about to be. -/
def FeedState.forwarded (s : FeedState FloatingP) : List Queued :=
  s.handed ++ s.messages ++ s.product.messageQueue

/-! ## The record of what is merged -/

/-- The record of a book is right: it has the messages that the book itself has under
`to_merge`, and so have the books among them. -/
inductive Queued.Faithful : Queued → Prop where
  | message (jmsg : Json) : Queued.Faithful (.message jmsg)
  | fullOrderBook {orderBookMsg : Json} {toMerge : List Queued}
      (record : toMerge.map Queued.json = toMergeOf orderBookMsg)
      (merged : ∀ queued ∈ toMerge, queued.Faithful) :
      Queued.Faithful (.fullOrderBook orderBookMsg toMerge)

/-- A book merged with a queue of right records has a right record. -/
theorem faithful_merged {j merged : Json} {S : Nat} {queue : List Queued}
    (hqueue : ∀ queued ∈ queue, queued.Faithful) (hm : MergedBook j merged (newer S queue)) :
    (Queued.fullOrderBook merged (mergeRecord j S queue)).Faithful := by
  refine .fullOrderBook hm.record fun queued hmem => ?_
  rcases List.mem_append.mp hmem with hown | hnewer
  · obtain ⟨jmsg, -, rfl⟩ := List.mem_map.mp hown
    exact .message jmsg
  · exact hqueue queued (List.mem_filter.mp hnewer).1

theorem faithful_step {s s' : FeedState FloatingP} {e : FeedEvent}
    (hs : ∀ queued ∈ s.forwarded, queued.Faithful) (h : s.step e = some s') :
    ∀ queued ∈ s'.forwarded, queued.Faithful := by
  obtain ⟨htaken, hqueue⟩ := List.forall_mem_append.mp hs
  refine List.forall_mem_append.mpr ?_
  cases e with
  | arrive m =>
    obtain ⟨p, hp, rfl⟩ := step_arrive h
    refine ⟨htaken, ?_⟩
    have hqueued : ∀ queued ∈ s.product.messageQueue ++ [.message m], queued.Faithful :=
      List.forall_mem_append.mpr ⟨hqueue, List.forall_mem_singleton.mpr (.message m)⟩
    rcases onMessageReceived_cases hp with
      ⟨-, rfl⟩ | ⟨-, -, rfl⟩ | ⟨-, -, rfl⟩ | ⟨-, -, rfl⟩
    · exact hqueued
    · exact hqueue
    · exact hqueue
    · exact hqueued
  | complete body =>
    obtain ⟨-, p, hp, rfl⟩ := step_complete h
    refine ⟨htaken, ?_⟩
    rcases requestFullOrderBookImpl_cases hp with ⟨-, rfl⟩ | ⟨j, S, merged, -, hm, rfl⟩
    · exact hqueue
    · exact List.forall_mem_singleton.mpr (faithful_merged hqueue hm)
  | take =>
    obtain ⟨hm, ⟨-, rfl⟩ | ⟨-, rfl⟩⟩ := step_take h
    · exact ⟨htaken, hqueue⟩
    · obtain ⟨hhanded, -⟩ := List.forall_mem_append.mp htaken
      exact ⟨List.forall_mem_append.mpr ⟨hhanded, hqueue⟩, List.forall_mem_nil _⟩
  | hand =>
    obtain ⟨queued, messages, pc, hm, -, rfl⟩ := step_hand h
    refine ⟨fun other hother => htaken other ?_, hqueue⟩
    rw [hm]
    rw [List.append_assoc] at hother
    exact hother

/-- **The records are right** in every run: a book that waits, is held or was handed over has
the messages of its record under `to_merge`, where the handler finds them. -/
theorem faithful_of_run {productId : String} {es : List FeedEvent} {s : FeedState FloatingP}
    (hrun : (feedMachine FloatingP).run (.initial productId) es = some s) :
    ∀ queued ∈ s.forwarded, queued.Faithful := by
  refine (feedMachine FloatingP).invariant_rule
    (I := fun s => ∀ queued ∈ s.forwarded, queued.Faithful) (List.forall_mem_nil _)
    (fun s e s' hs _ hstep => faithful_step hs hstep)
    ((feedMachine FloatingP).guarded_true _ es) hrun

/-! ## Whole runs -/

/-- The condition on a step: a book that is accepted comes without merged messages of its
own, as the exchange's books do; the waiting messages above its number are linked from
it, a waiting book with what is merged into it; and the last number the code takes from
them is the last one, or behind it in the way that is allowed. -/
def MergesLinked (R Behind : Nat → Nat → Prop) (s : FeedState FloatingP) (e : FeedEvent) :
    Prop :=
  ∀ body orderBookMsg S, e = .complete body → Accepts body orderBookMsg S →
    toMergeOf orderBookMsg = [] ∧
      Linked R (some S) (flattened (newerQueued S s.product.messageQueue)) ∧
      ∃ K, lastSeen (some S) (flattened (newerQueued S s.product.messageQueue)) = some K ∧
        (lastOf S (newer S s.product.messageQueue) = K ∨
          Behind (lastOf S (newer S s.product.messageQueue)) K)

theorem forwarded_step {s s' : FeedState FloatingP} {e : FeedEvent} (hR : ∀ n, R n (n + 1))
    (hs : Forwarded R Behind (s.handed ++ s.messages) s.product)
    (hnext : ∀ m K, e = .arrive m → Behind s.product.lastSequenceNumber K →
      seqOf m ≠ s.product.lastSequenceNumber + 1)
    (hg : MergesLinked R Behind s e) (h : s.step e = some s') :
    Forwarded R Behind (s'.handed ++ s'.messages) s'.product := by
  cases e with
  | arrive m =>
    obtain ⟨p, hp, rfl⟩ := step_arrive h
    exact forwarded_onMessageReceived hR (fun K => hnext m K rfl) hs hp
  | complete body =>
    obtain ⟨hrun, p, hp, rfl⟩ := step_complete h
    exact forwarded_requestFullOrderBookImpl hs hrun (fun j S ha => hg body j S rfl ha) hp
  | take =>
    obtain ⟨hm, ⟨-, rfl⟩ | ⟨hr, rfl⟩⟩ := step_take h
    · exact hs
    · rw [hm, List.append_nil] at hs
      exact forwarded_take hs hr
  | hand =>
    obtain ⟨queued, messages, pc, hm, -, rfl⟩ := step_hand h
    rw [hm] at hs
    show Forwarded R Behind (s.handed ++ [queued] ++ messages) s.product
    rw [List.append_assoc]
    exact hs

/-- What is forwarded is linked in every run whose merges are and leave no last number
behind. -/
theorem forwarded_of_run {productId : String} {es : List FeedEvent} {s : FeedState FloatingP}
    (hR : ∀ n, R n (n + 1))
    (hg : (feedMachine FloatingP).Guarded (MergesLinked R fun _ _ => False) (.initial productId)
      es)
    (hrun : (feedMachine FloatingP).run (.initial productId) es = some s) :
    Forwarded R (fun _ _ => False) (s.handed ++ s.messages) s.product := by
  refine (feedMachine FloatingP).invariant_rule
    (I := fun s => Forwarded R (fun _ _ => False) (s.handed ++ s.messages) s.product)
    ?_ ?_ hg hrun
  · exact forwarded_of_requesting rfl trivial
  · intro s e s' hs hge hstep
    exact forwarded_step hR hs (fun _ _ _ hbehind => hbehind.elim) hge hstep

omit [FloatingPoint FloatingP] in
/-- What was handed over is linked too. -/
theorem Forwarded.linked_handed {s : FeedState FloatingP}
    (h : Forwarded R Behind (s.handed ++ s.messages) s.product) :
    Linked R none (flattened s.handed) := by
  have hlinked := h.linked_taken
  rw [flattened_append] at hlinked
  exact (linked_append.mp hlinked).1

end QuoteServer
