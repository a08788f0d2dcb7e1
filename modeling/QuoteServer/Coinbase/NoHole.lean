import QuoteServer.Coinbase.Forwarded

/-!
# What is forwarded has no hole as long as no merge does

The stream handed to the message handler is consecutive exactly as long as what a book is
merged with is: the live path accepts only the next number, and the merge takes every
waiting message above the book's number, whatever is missing between them.

A book that still waits is merged too, with what was merged into it. If it waits last, the
code goes on from its own number and not from the last one merged into it
(`Behind`). As long as the messages arrive with larger and larger numbers that does no
harm: the live path waits for a number that has passed (`Passed`), so the next message is
a gap.
-/

namespace QuoteServer

open EventMachine NumberedStream

/-- Among the numbers that arrived there is one that is at least `K`. -/
def Passed (numbers : List Nat) (K : Nat) : Prop := ∃ a ∈ numbers, K ≤ a

/-- The last sequence number `n` is below the number `K` that was handed on last, which
has passed. -/
def Behind (numbers : List Nat) (n K : Nat) : Prop := n < K ∧ Passed numbers K

theorem Passed.mono {numbers : List Nat} {K : Nat} (more : List Nat) (h : Passed numbers K) :
    Passed (numbers ++ more) K := by
  obtain ⟨a, ha, hle⟩ := h
  exact ⟨a, List.mem_append_left more ha, hle⟩

/-- Where the last sequence number is behind, the number after it does not arrive any more. -/
theorem Behind.not_next {numbers : List Nat} {n K k : Nat} (h : Behind numbers n K)
    (hk : ∀ a ∈ numbers, a < k) : k ≠ n + 1 := by
  obtain ⟨hlt, a, ha, hle⟩ := h
  have hak : a < k := hk a ha
  omega

/-- What is known of a message that waits: its number arrived. A book that waits ends in a
number that has passed; or nothing was merged into it, and then in live mode it is the
last one, and while a book is being fetched its number is the largest one there is. -/
def Waiting (numbers : List Nat) (p : CoinbaseFeedProduct) : Queued → Prop
  | .message jmsg => seqOf jmsg ∈ numbers
  | .fullOrderBook orderBookMsg toMerge =>
    ∃ K, lastSeen (some (seqOf orderBookMsg)) (flattened toMerge) = some K ∧
      seqOf orderBookMsg ≤ K ∧
      (Passed numbers K ∨
        K = seqOf orderBookMsg ∧ (p.requestingOrderbook = false → p.lastSequenceNumber = K) ∧
          (p.requestingOrderbook = true → 2 ^ 64 ≤ K + 1))

/-- The invariant, over the numbers that arrived, what the message thread took (`taken`)
and the product: what is forwarded is unbroken, and what waits is known. -/
structure Gapless (numbers : List Nat) (taken : List Queued) (p : CoinbaseFeedProduct) :
    Prop where
  forwarded : Forwarded (fun n k => k = n + 1) (Behind numbers) taken p
  waiting : ∀ queued ∈ p.messageQueue, Waiting numbers p queued

section

variable {numbers : List Nat} {taken : List Queued} {p p' : CoinbaseFeedProduct}

/-- What was known is still known when more numbers arrived, if a last book with nothing
merged into it is the last one in live mode, or its number has passed, or it is the
largest. -/
theorem Waiting.mono {queued : Queued} {more : List Nat} (h : Waiting numbers p queued)
    (hlive : p.requestingOrderbook = false →
      Passed (numbers ++ more) p.lastSequenceNumber ∨
        (p'.requestingOrderbook = false → p'.lastSequenceNumber = p.lastSequenceNumber) ∧
          (p'.requestingOrderbook = true → 2 ^ 64 ≤ p.lastSequenceNumber + 1))
    (hstays : p.requestingOrderbook = true → p'.requestingOrderbook = true) :
    Waiting (numbers ++ more) p' queued := by
  cases queued with
  | message jmsg => exact List.mem_append_left _ h
  | fullOrderBook orderBookMsg toMerge =>
    obtain ⟨K, hseen, hle, hpassed | ⟨rfl, hlast, hlargest⟩⟩ := h
    · exact ⟨K, hseen, hle, .inl (hpassed.mono _)⟩
    · refine ⟨_, hseen, hle, ?_⟩
      cases hr : p.requestingOrderbook with
      | false =>
        rw [← hlast hr]
        exact (hlive hr).imp_right fun hkept => ⟨rfl, hkept⟩
      | true =>
        have hr' := hstays hr
        exact .inr ⟨rfl, fun hfalse => absurd (hr'.symm.trans hfalse) (by decide),
          fun _ => hlargest hr⟩

/-- A message arrives: what waited before is still known, and so is the message. -/
theorem waiting_onMessageReceived {m : Json}
    (hw : ∀ queued ∈ p.messageQueue, Waiting numbers p queued)
    (h : p.onMessageReceived m = .ok p') :
    ∀ queued ∈ p'.messageQueue, Waiting (numbers ++ [seqOf m]) p' queued := by
  have hm : seqOf m ∈ numbers ++ [seqOf m] := List.mem_append_right _ List.mem_cons_self
  rcases onMessageReceived_cases h with
    ⟨hr, rfl⟩ | ⟨hr, hgap, rfl⟩ | ⟨hr, -, rfl⟩ | ⟨hr, hseq, rfl⟩
  · -- queued while a book is being fetched
    intro queued hmem
    rcases List.mem_append.mp hmem with hmem | hmem
    · exact (hw queued hmem).mono (fun hlive => absurd (hr.symm.trans hlive) (by decide)) id
    · rw [List.mem_singleton.mp hmem]
      exact hm
  · -- the message that shows the gap has a larger number, unless the numbers wrap around
    intro queued hmem
    refine (hw queued hmem).mono (fun _ => ?_) (fun _ => rfl)
    by_cases hwrap : p.lastSequenceNumber + 1 < 2 ^ 64
    · rw [following_of_lt hwrap] at hgap
      exact .inl ⟨seqOf m, hm, by omega⟩
    · exact .inr ⟨fun hfalse => (nomatch hfalse), fun _ => by omega⟩
  · -- refused
    intro queued hmem
    refine (hw queued hmem).mono (fun _ => .inr ⟨fun _ => rfl, fun hfetch => ?_⟩) id
    exact absurd (hr.symm.trans hfetch) (by decide)
  · -- accepted, with the number after the last one
    intro queued hmem
    rcases List.mem_append.mp hmem with hmem | hmem
    · exact (hw queued hmem).mono (fun _ => .inl ⟨seqOf m, hm, by omega⟩) id
    · rw [List.mem_singleton.mp hmem]
      exact hm

/-- What a book is merged with ends in the number the code takes for the last one, or this
one is behind; and it ends in a number that has passed, unless nothing is merged at all. -/
theorem lastSeen_newerQueued {S : Nat}
    (hw : ∀ queued ∈ p.messageQueue, Waiting numbers p queued)
    (hr : p.requestingOrderbook = true)
    (hlargest : ∀ orderBookMsg toMerge,
      .fullOrderBook orderBookMsg toMerge ∈ newerQueued S p.messageQueue →
        seqOf orderBookMsg + 1 < 2 ^ 64) :
    ∃ K, lastSeen (some S) (flattened (newerQueued S p.messageQueue)) = some K ∧ S ≤ K ∧
      (lastOf S (newer S p.messageQueue) = K ∨
        Behind numbers (lastOf S (newer S p.messageQueue)) K) ∧
      (Passed numbers K ∨ K = S ∧ lastOf S (newer S p.messageQueue) = S) := by
  rw [← newerQueued_json]
  rcases List.eq_nil_or_concat (newerQueued S p.messageQueue) with hnil | ⟨init, queued, hlast⟩
  · rw [hnil, flattened_nil]
    exact ⟨S, rfl, Nat.le_refl S, .inl rfl, .inr ⟨rfl, rfl⟩⟩
  · rw [List.concat_eq_append] at hlast
    have hmem : queued ∈ newerQueued S p.messageQueue :=
      hlast ▸ List.mem_append_right _ List.mem_cons_self
    obtain ⟨hqueue, hnewer⟩ := mem_newerQueued.mp hmem
    have hof : lastOf S ((newerQueued S p.messageQueue).map Queued.json) = seqOf queued.json := by
      rw [hlast, List.map_append, lastOf, List.map_append]
      exact List.getLastD_concat
    rw [hof, hlast, flattened_append, flattened_singleton]
    have hq := hw queued hqueue
    cases queued with
    | message jmsg =>
      rw [items_message, lastSeen_concat]
      exact ⟨seqOf jmsg, rfl, Nat.le_of_lt hnewer, .inl rfl, .inl ⟨_, hq, Nat.le_refl _⟩⟩
    | fullOrderBook orderBookMsg toMerge =>
      obtain ⟨K, hseen, hle, hend⟩ := hq
      have hpassed : Passed numbers K := by
        rcases hend with hpassed | ⟨rfl, -, hwrap⟩
        · exact hpassed
        · exact absurd (hwrap hr) (Nat.not_le.mpr (hlargest _ _ hmem))
      have hS : S < seqOf orderBookMsg := hnewer
      rw [items_fullOrderBook, lastSeen_append]
      refine ⟨K, hseen, by omega, ?_, .inl hpassed⟩
      rcases Nat.eq_or_lt_of_le hle with heq | hlt
      · exact .inl heq
      · exact .inr ⟨hlt, hpassed⟩

end

variable {FloatingP : Type} [FloatingPoint FloatingP]

/-- The condition on a step. A book that is accepted comes without merged messages of its
own, as the exchange's books do; the messages waiting above its number follow it number by
number, where after a waiting book they count from its number on and the messages merged
into it come first; and such a book's number is not the largest one there is. -/
def MergesWithoutHole (s : FeedState FloatingP) (e : FeedEvent) : Prop :=
  ∀ body orderBookMsg S, e = .complete body → Accepts body orderBookMsg S →
    toMergeOf orderBookMsg = [] ∧
      Unbroken (some S) (flattened (newerQueued S s.product.messageQueue)) ∧
      ∀ waitingBook toMerge,
        .fullOrderBook waitingBook toMerge ∈ newerQueued S s.product.messageQueue →
          seqOf waitingBook + 1 < 2 ^ 64

/-- The condition on what waits is exact for a merge: the queue it leaves has no hole if and
only if what waits above the book's number follows it. -/
theorem merged_without_hole_iff {p p' : CoinbaseFeedProduct} {body : RestBody} {j : Json}
    {S : Nat} (ha : Accepts body j S) (hown : toMergeOf j = [])
    (h : p.requestFullOrderBookImpl body = .ok p') :
    NoHole (flattened p'.messageQueue) ↔
      Unbroken (some S) (flattened (newerQueued S p.messageQueue)) := by
  rcases requestFullOrderBookImpl_cases h with ⟨hn, -⟩ | ⟨j', S', merged, ha', hm, rfl⟩
  · exact absurd ha (hn j S)
  · obtain ⟨rfl, rfl⟩ := ha.unique ha'
    have hitems := flattened_merged [] hm ha.seqOf_eq hown
    rw [List.nil_append, flattened_nil, List.nil_append] at hitems
    rw [noHole_iff_unbroken, hitems]
    exact Iff.rfl

/-- The arrived numbers. -/
def arrivedNumbers (es : List FeedEvent) : List Nat := (arrivals es).map seqOf

theorem arrivedNumbers_append (es fs : List FeedEvent) :
    arrivedNumbers (es ++ fs) = arrivedNumbers es ++ arrivedNumbers fs := by
  simp [arrivedNumbers, arrivals]

/-- The condition on the step is what the stream needs, by what is known of what waits. -/
theorem MergesWithoutHole.linked {numbers : List Nat} {s s' : FeedState FloatingP}
    {e : FeedEvent} (hs : Gapless numbers (s.handed ++ s.messages) s.product)
    (hg : MergesWithoutHole s e) (h : s.step e = some s') :
    MergesLinked (fun n k => k = n + 1) (Behind numbers) s e := by
  rintro body j S rfl ha
  obtain ⟨hown, hunbroken, hlargest⟩ := hg body j S rfl ha
  obtain ⟨hrun, -⟩ := step_complete h
  obtain ⟨K, hseen, -, hlast, -⟩ :=
    lastSeen_newerQueued hs.waiting (hs.forwarded.running hrun) hlargest
  exact ⟨hown, unbroken_iff_linked.mp hunbroken, K, hseen, hlast⟩

/-- What waits after a step is known: the message that arrived, or the book that was
accepted, which is all that waits then. -/
theorem waiting_step {numbers : List Nat} {s s' : FeedState FloatingP} {e : FeedEvent}
    (hs : Gapless numbers (s.handed ++ s.messages) s.product) (hg : MergesWithoutHole s e)
    (h : s.step e = some s') :
    ∀ queued ∈ s'.product.messageQueue,
      Waiting (numbers ++ arrivedNumbers [e]) s'.product queued := by
  cases e with
  | arrive m =>
    obtain ⟨p, hp, rfl⟩ := step_arrive h
    exact waiting_onMessageReceived hs.waiting hp
  | complete body =>
    rw [show arrivedNumbers [.complete body] = [] from rfl, List.append_nil]
    obtain ⟨hrun, p, hp, rfl⟩ := step_complete h
    rcases requestFullOrderBookImpl_cases hp with ⟨-, rfl⟩ | ⟨j, S, merged, ha, hm, rfl⟩
    · exact hs.waiting
    · obtain ⟨hown, -, hlargest⟩ := hg body j S rfl ha
      obtain ⟨K, hseen, hle, -, hend⟩ :=
        lastSeen_newerQueued hs.waiting (hs.forwarded.running hrun) hlargest
      have hS : seqOf merged = S := hm.seqOf_eq.trans ha.seqOf_eq
      intro queued hmem
      rw [List.mem_singleton.mp hmem, mergeRecord, hown, List.map_nil, List.nil_append]
      refine ⟨K, hS.symm ▸ hseen, hS.symm ▸ hle, hend.imp_right ?_⟩
      rintro ⟨rfl, hlast⟩
      exact ⟨hS.symm, fun _ => hlast, by rintro ⟨⟩⟩
  | take =>
    rw [show arrivedNumbers [.take] = [] from rfl, List.append_nil]
    obtain ⟨-, ⟨-, rfl⟩ | ⟨-, rfl⟩⟩ := step_take h
    · exact hs.waiting
    · exact List.forall_mem_nil _
  | hand =>
    rw [show arrivedNumbers [.hand] = [] from rfl, List.append_nil]
    obtain ⟨queued, messages, pc, -, -, rfl⟩ := step_hand h
    exact hs.waiting

/-- One step, where a message that arrives has a larger number than all before it. -/
theorem gapless_step {numbers : List Nat} {s s' : FeedState FloatingP} {e : FeedEvent}
    (hs : Gapless numbers (s.handed ++ s.messages) s.product)
    (hlarger : (numbers ++ arrivedNumbers [e]).Pairwise (· < ·)) (hg : MergesWithoutHole s e)
    (h : s.step e = some s') :
    Gapless (numbers ++ arrivedNumbers [e]) (s'.handed ++ s'.messages) s'.product := by
  have hnext : ∀ m K, e = .arrive m → Behind numbers s.product.lastSequenceNumber K →
      seqOf m ≠ s.product.lastSequenceNumber + 1 := by
    rintro m K rfl hbehind
    refine hbehind.not_next fun a ha => ?_
    exact (List.pairwise_append.mp hlarger).2.2 a ha _ List.mem_cons_self
  have hforwarded : Forwarded (fun n k => k = n + 1) (Behind numbers)
      (s'.handed ++ s'.messages) s'.product :=
    forwarded_step (fun _ => rfl) hs.forwarded hnext (hg.linked hs h) h
  exact ⟨hforwarded.mono fun n K hbehind => ⟨hbehind.1, hbehind.2.mono _⟩,
    waiting_step hs hg h⟩

/-- **No hole is forwarded** in any run whose arriving messages have larger and larger
numbers, some of which may be missing, and whose merges leave no hole: in the stream
handed to the message handler, each book followed by its `to_merge` messages, the
messages after a book with number `S` carry exactly `S + 1`, `S + 2`, …. -/
theorem no_hole_forwarded {productId : String} {es : List FeedEvent}
    {s : FeedState FloatingP} (harrive : ((arrivals es).map seqOf).Pairwise (· < ·))
    (hg : (feedMachine FloatingP).Guarded MergesWithoutHole (.initial productId) es)
    (hrun : (feedMachine FloatingP).run (.initial productId) es = some s) :
    NoHole (flattened s.handed) := by
  have hinv : (arrivedNumbers es).Pairwise (· < ·) →
      Gapless (arrivedNumbers es) (s.handed ++ s.messages) s.product := by
    refine (feedMachine FloatingP).history_rule
      (I := fun es s => (arrivedNumbers es).Pairwise (· < ·) →
        Gapless (arrivedNumbers es) (s.handed ++ s.messages) s.product) ?_ ?_ hg hrun
    · exact fun _ => ⟨forwarded_of_requesting rfl trivial, fun queued hmem => (nomatch hmem)⟩
    · intro es s e s' _ hs hge hstep hlarger
      rw [arrivedNumbers_append] at hlarger ⊢
      exact gapless_step (hs (List.pairwise_append.mp hlarger).1) hlarger hge hstep
  exact noHole_iff_unbroken.mpr
    (unbroken_iff_linked.mpr (hinv harrive).forwarded.linked_handed)

/-- Message 5 waits for book 4 and follows it. Message 7 is a gap; the book that comes then
is older, and book 4 is merged into it with message 5, without a hole. -/
theorem no_hole_forwarded_merged :
    ∃ s : FeedState Int,
      (feedMachine Int).run (.initial "ETH-USD")
        [.arrive (doneMsg "sell" "A" 5), .complete (.json (bookMsg 4 [] [])),
          .arrive (doneMsg "sell" "B" 7), .complete (.json (bookMsg 3 [] [])),
          .take, .hand] = some s ∧
      NoHole (flattened s.handed) := by
  refine Exists.imp (fun s hrun => ⟨hrun, no_hole_forwarded (by decide) ?_ hrun⟩)
    (Option.isSome_iff_exists.mp (by decide +kernel))
  refine Machine.guarded_cons _ (fun _ _ _ h => (nomatch h)) rfl ?_
  refine Machine.guarded_cons _ (fun body j S h ha => ?_) rfl ?_
  · cases h
    obtain ⟨rfl, rfl⟩ := ha.unique ⟨rfl, rfl, by decide⟩
    refine ⟨rfl, ⟨rfl, trivial⟩, fun waitingBook toMerge hmem => ?_⟩
    exact absurd (List.mem_singleton.mp hmem) Queued.noConfusion
  refine Machine.guarded_cons _ (fun _ _ _ h => (nomatch h)) rfl ?_
  refine Machine.guarded_cons _ (fun body j S h ha => ?_) rfl ?_
  · cases h
    obtain ⟨rfl, rfl⟩ := ha.unique ⟨rfl, rfl, by decide⟩
    -- only book 4 waits above number 3
    refine ⟨rfl, ⟨rfl, trivial⟩, fun waitingBook toMerge hmem => ?_⟩
    cases List.mem_singleton.mp hmem
    decide
  -- no answer comes after that
  refine Machine.guarded_of_mem _ fun e he _ _ _ _ hcomplete => ?_
  simp [hcomplete] at he

/-- Message 6 never arrives: 5 and 7 wait for book 4, are merged into it, and go out
one after the other. -/
theorem waiting_gap_forwarded :
    ∃ (es : List FeedEvent) (s : FeedState Int),
      (feedMachine Int).run (.initial "ETH-USD") es = some s ∧
      ((arrivals es).map seqOf).Pairwise (· < ·) ∧
      ¬ NoHole (flattened s.handed) := by
  refine ⟨[.arrive (doneMsg "sell" "A" 5), .arrive (doneMsg "sell" "B" 7),
    .complete (.json (bookMsg 4 [] [])), .take, .hand], _, rfl, by decide, fun h => ?_⟩
  exact absurd (h [] 4 [5, 7] [] rfl) (by decide)

end QuoteServer
