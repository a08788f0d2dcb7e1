import QuoteServer.Coinbase.Forwarded

/-!
# No message is applied twice or backwards as long as none is merged so

The live path refuses every number up to `m_lastSequenceNumber`. The merge refuses only
those up to the number of the book: among the waiting messages above it, it keeps
repetitions and the order of arrival, and leaves `m_lastSequenceNumber` at the last one
merged, largest or not. A book that still waits is merged like a message with the book's
number, whatever was merged into it before. So both paths keep one high-water mark
exactly as long as what a book is merged with is in increasing order, with a waiting book
as a mark of its own, and ends in the number of the last waiting message.
-/

namespace QuoteServer

open EventMachine NumberedStream

variable {FloatingP : Type} [FloatingPoint FloatingP]

/-- The condition on a step. A book that is accepted comes without merged messages of its
own, as the exchange's books do; the messages waiting above its number are in increasing
order, without repetitions, where after a waiting book they count from its number on and
the messages merged into it come first; and no book with messages merged into it waits
last, so the last number of what waits is the one that the last of them carries. -/
def MergesInOrder (s : FeedState FloatingP) (e : FeedEvent) : Prop :=
  ∀ body orderBookMsg S, e = .complete body → Accepts body orderBookMsg S →
    toMergeOf orderBookMsg = [] ∧
      Linked (· < ·) (some S) (flattened (newerQueued S s.product.messageQueue)) ∧
      lastSeen (some S) (flattened (newerQueued S s.product.messageQueue)) =
        some (lastOf S (newer S s.product.messageQueue))

omit [FloatingPoint FloatingP] in
theorem MergesInOrder.linked {s : FeedState FloatingP} {e : FeedEvent}
    (h : MergesInOrder s e) : MergesLinked (· < ·) (fun _ _ => False) s e := by
  intro body j S he ha
  obtain ⟨hown, hlinked, hseen⟩ := h body j S he ha
  exact ⟨hown, hlinked, _, hseen, .inl rfl⟩

/-- The condition is exact for a merge: the queue it leaves is in order, with the last
sequence number as the largest, if and only if the waiting messages are in order and end
in the number of the last one. -/
theorem merged_in_order_iff {p p' : CoinbaseFeedProduct} {body : RestBody} {j : Json} {S : Nat}
    (ha : Accepts body j S) (hown : toMergeOf j = [])
    (h : p.requestFullOrderBookImpl body = .ok p') :
    (Increasing (flattened p'.messageQueue) ∧
        largest none (flattened p'.messageQueue) = some p'.lastSequenceNumber) ↔
      Linked (· < ·) (some S) (flattened (newerQueued S p.messageQueue)) ∧
        lastSeen (some S) (flattened (newerQueued S p.messageQueue)) =
          some (lastOf S (newer S p.messageQueue)) := by
  rcases requestFullOrderBookImpl_cases h with ⟨hn, -⟩ | ⟨j', S', merged, ha', hm, rfl⟩
  · exact absurd ha (hn j S)
  · obtain ⟨rfl, rfl⟩ := ha.unique ha'
    have hitems := flattened_merged [] hm ha.seqOf_eq hown
    rw [List.nil_append, flattened_nil, List.nil_append] at hitems
    rw [increasing_iff_linked, hitems]
    refine and_congr_right fun hlinked => ?_
    rw [largest_eq_lastSeen hlinked]
    exact Iff.rfl

/-- **No message is applied twice or backwards** in any run whose merges are in order,
whatever the order and the repetitions of the arrivals: in the stream handed to the
message handler, the messages after a book with number `S` carry increasing numbers above
`S`; and in live mode `m_lastSequenceNumber` is the largest of `S` and the numbers merged
or accepted since that book. -/
theorem applied_in_order {productId : String} {es : List FeedEvent} {s : FeedState FloatingP}
    (hg : (feedMachine FloatingP).Guarded MergesInOrder (.initial productId) es)
    (hrun : (feedMachine FloatingP).run (.initial productId) es = some s) :
    Increasing (flattened s.handed) ∧
      (s.product.requestingOrderbook = false →
        largest none (flattened s.forwarded) = some s.product.lastSequenceNumber) := by
  have hinv : Forwarded (· < ·) (fun _ _ => False) (s.handed ++ s.messages) s.product :=
    forwarded_of_run (fun n => Nat.lt_succ_self n)
      (fun pre e post t hes ht => (hg pre e post t hes ht).linked) hrun
  refine ⟨increasing_iff_linked.mpr hinv.linked_handed, fun hlive => ?_⟩
  have hlinked := hinv.linked
  obtain ⟨K, hseen, hlast⟩ := hinv.last hlive
  rw [live_live hlive] at hlinked hseen
  rw [hlast.resolve_right not_false]
  exact (largest_eq_lastSeen hlinked).trans hseen

/-- Two messages wait in order, and the second is repeated live. Message 9 is a gap; the
book that comes then is older, so the first book is merged into it, with message 10. -/
theorem applied_in_order_repeated :
    ∃ s : FeedState Int,
      (feedMachine Int).run (.initial "ETH-USD")
        [.arrive (doneMsg "sell" "A" 5), .arrive (doneMsg "sell" "B" 7),
          .complete (.json (bookMsg 4 [] [])), .arrive (doneMsg "sell" "B" 7),
          .arrive (doneMsg "sell" "C" 9), .arrive (doneMsg "sell" "D" 10),
          .complete (.json (bookMsg 3 [] [])), .take, .hand] = some s ∧
      Increasing (flattened s.handed) ∧
      (s.product.requestingOrderbook = false →
        largest none (flattened s.forwarded) = some s.product.lastSequenceNumber) := by
  refine Exists.imp (fun s hrun => ⟨hrun, applied_in_order ?_ hrun⟩)
    (Option.isSome_iff_exists.mp (by decide +kernel))
  refine Machine.guarded_cons _ (fun _ _ _ h => (nomatch h)) rfl ?_
  refine Machine.guarded_cons _ (fun _ _ _ h => (nomatch h)) rfl ?_
  refine Machine.guarded_cons _ (fun body j S h ha => ?_) rfl ?_
  · cases h
    obtain ⟨rfl, rfl⟩ := ha.unique ⟨rfl, rfl, by decide⟩
    exact ⟨rfl, ⟨(by decide : 4 < 5), (by decide : 5 < 7), trivial⟩, rfl⟩
  refine Machine.guarded_cons _ (fun _ _ _ h => (nomatch h)) rfl ?_
  refine Machine.guarded_cons _ (fun _ _ _ h => (nomatch h)) rfl ?_
  refine Machine.guarded_cons _ (fun _ _ _ h => (nomatch h)) rfl ?_
  refine Machine.guarded_cons _ (fun body j S h ha => ?_) rfl ?_
  · cases h
    obtain ⟨rfl, rfl⟩ := ha.unique ⟨rfl, rfl, by decide⟩
    -- book 4 waits above number 3, with 5 and 7 merged into it, and then message 10
    exact ⟨rfl, ⟨(by decide : 4 < 5), (by decide : 5 < 7), (by decide : 7 < 10), trivial⟩, rfl⟩
  -- no answer comes after that
  refine Machine.guarded_of_mem _ fun e he _ _ _ _ hcomplete => ?_
  simp [hcomplete] at he

/-- Message 7 arrives before message 5, and book 4 after both: they are handed on in that
order, and the last sequence number is 5 although 7 was merged. -/
theorem waiting_out_of_order_merged :
    ∃ (es : List FeedEvent) (s : FeedState Int),
      (feedMachine Int).run (.initial "ETH-USD") es = some s ∧
      ¬ Increasing (flattened s.handed) ∧
      s.product.requestingOrderbook = false ∧ s.product.lastSequenceNumber = 5 ∧
      largest none (flattened s.forwarded) = some 7 := by
  refine ⟨[.arrive (doneMsg "sell" "B" 7), .arrive (doneMsg "sell" "A" 5),
    .complete (.json (bookMsg 4 [] [])), .take, .hand], _, rfl, fun h => ?_, rfl, rfl, rfl⟩
  exact absurd (h [] 4 [7, 5] [] rfl) (by decide)

end QuoteServer
