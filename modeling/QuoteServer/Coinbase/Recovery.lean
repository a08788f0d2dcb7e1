import QuoteServer.Coinbase.FeedSteps

/-!
# What a gap recovery merges

A message that reveals a gap puts the product back into fetching. The book that
ends the fetch is merged with everything waiting: what was queued when the gap
was seen, and what arrived since. The message that revealed the gap is in neither
list, since that branch of `onMessageReceived` does not queue it. So the recovery
loses it exactly when the new book does not cover it.
-/

namespace QuoteServer

open EventMachine

variable {FloatingP : Type} [FloatingPoint FloatingP]

/-- A recovery: after `es₁` the product is live, the arrival of `g` starts a fetch,
no answer among `es₂` is accepted, and `body` then answers it. -/
structure GapRecovery (productId : String) (es₁ : List FeedEvent) (g : Json)
    (es₂ : List FeedEvent) (body : RestBody) (s₁ s₄ : FeedState FloatingP) : Prop where
  before : (feedMachine FloatingP).run (.initial productId) es₁ = some s₁
  live : s₁.product.requestingOrderbook = false
  revealed : ∃ s₂, s₁.step (.arrive g) = some s₂ ∧ s₂.product.requestingOrderbook = true
  rejected : ∀ b, FeedEvent.complete b ∈ es₂ → ∀ j S, ¬ Accepts b j S
  after : (feedMachine FloatingP).run s₁ (.arrive g :: es₂ ++ [.complete body]) = some s₄

/-- The messages a recovery has to merge into a book with number `S`: those still
queued, the one that revealed the gap and those that arrived since, as far as `S`
does not cover them, in the order of their arrival. -/
def toRecover (S : Nat) (queued : List Queued) (g : Json) (later : List Json) : List Json :=
  (queued.map Queued.json ++ g :: later).filter fun jmsg => S < seqOf jmsg

theorem arrivals_append (es fs : List FeedEvent) :
    arrivals (es ++ fs) = arrivals es ++ arrivals fs := List.filterMap_append

/-- While a book is being fetched, the queue only grows, by what arrives. -/
theorem queue_while_requesting {s s' : FeedState FloatingP} {es : List FeedEvent}
    (hr : s.product.requestingOrderbook = true)
    (hrej : ∀ b, FeedEvent.complete b ∈ es → ∀ j S, ¬ Accepts b j S)
    (hrun : (feedMachine FloatingP).run s es = some s') :
    s'.product.requestingOrderbook = true ∧
      s'.product.messageQueue =
        s.product.messageQueue ++ (arrivals es).map .message := by
  -- none of the other three branches of `onMessageReceived` is taken while fetching
  induction es using List.reverseRecOn generalizing s' with
  | nil =>
    obtain rfl : s = s' := Option.some.inj hrun
    exact ⟨hr, (List.append_nil _).symm⟩
  | append_singleton es e ih =>
    obtain ⟨t, ht, hstep⟩ := (Machine.run_snoc _).mp hrun
    obtain ⟨htr, htq⟩ := ih (fun b hb => hrej b (List.mem_append_left _ hb)) ht
    rw [arrivals_append, List.map_append, ← List.append_assoc, ← htq]
    cases e with
    | arrive m =>
      obtain ⟨p, hp, rfl⟩ := step_arrive hstep
      rcases onMessageReceived_cases hp with
        ⟨-, rfl⟩ | ⟨hlive, -, -⟩ | ⟨hlive, -, -⟩ | ⟨hlive, -, -⟩
      · exact ⟨htr, rfl⟩
      all_goals exact absurd (htr.symm.trans hlive) (by decide)
    | complete b =>
      obtain ⟨-, p, hp, rfl⟩ := step_complete hstep
      rcases requestFullOrderBookImpl_cases hp with ⟨-, rfl⟩ | ⟨j, S, -, ha, -, -⟩
      · exact ⟨htr, (List.append_nil _).symm⟩
      · exact absurd ha (hrej b (List.mem_append_right _ (List.mem_singleton.mpr rfl)) j S)
    | take =>
      obtain ⟨-, ⟨-, rfl⟩ | ⟨hlive, -⟩⟩ := step_take hstep
      · exact ⟨htr, (List.append_nil _).symm⟩
      · exact absurd (htr.symm.trans hlive) (by decide)
    | hand =>
      obtain ⟨q, ms, pc, -, -, rfl⟩ := step_hand hstep
      exact ⟨htr, (List.append_nil _).symm⟩

/-- The message that reveals a gap is not queued. -/
theorem queue_after_gap {s s' : FeedState FloatingP} {g : Json}
    (hlive : s.product.requestingOrderbook = false)
    (hreq : s'.product.requestingOrderbook = true)
    (h : s.step (.arrive g) = some s') :
    s'.product.messageQueue = s.product.messageQueue := by
  obtain ⟨p, hp, rfl⟩ := step_arrive h
  rcases onMessageReceived_cases hp with
    ⟨hr, rfl⟩ | ⟨-, -, rfl⟩ | ⟨-, -, rfl⟩ | ⟨-, -, rfl⟩
  · exact absurd (hlive.symm.trans hr) (by decide)
  · rfl
  · rfl
  · exact absurd (hlive.symm.trans hreq) (by decide)

/-- What there is to recover, around the message that revealed the gap. -/
theorem toRecover_eq (S : Nat) (queued : List Queued) (g : Json) (later : List Json) :
    toRecover S queued g later =
      newer S queued ++ (if S < seqOf g then [g] else []) ++ newer S (later.map .message) := by
  rw [toRecover, List.filter_append, List.filter_cons, newer_messages, List.append_assoc]
  by_cases h : S < seqOf g
  · simp [newer, h]
  · simp [newer, h]

/-- A message above `S` is one more than what is merged. -/
theorem toRecover_of_lt {S : Nat} {queued : List Queued} {g : Json} {later : List Json}
    (h : S < seqOf g) :
    (toRecover S queued g later).length =
      (newer S (queued ++ later.map .message)).length + 1 := by
  rw [toRecover_eq, if_pos h, newer_append]
  simp only [List.length_append, List.length_singleton]
  omega

theorem toRecover_of_le {S : Nat} {queued : List Queued} {g : Json} {later : List Json}
    (h : seqOf g ≤ S) :
    toRecover S queued g later = newer S (queued ++ later.map .message) := by
  rw [toRecover_eq, if_neg (Nat.not_lt.mpr h), newer_append, List.append_nil]

/-- What a recovery merges: everything that was waiting, and not the message that
revealed the gap. -/
theorem recovery_queue {productId : String} {es₁ es₂ : List FeedEvent} {g j : Json}
    {body : RestBody} {S : Nat} {s₁ s₄ : FeedState FloatingP}
    (h : GapRecovery productId es₁ g es₂ body s₁ s₄) (ha : Accepts body j S)
    (hown : toMergeOf j = []) :
    ∃ merged record, s₄.product.messageQueue = [.fullOrderBook merged record] ∧
      seqOf merged = S ∧
      toMergeOf merged =
        newer S (s₁.product.messageQueue ++ (arrivals es₂).map .message) := by
  obtain ⟨s₂, hs₂, hreq⟩ := h.revealed
  obtain ⟨s₃, hs₃, hs₄⟩ := (Machine.run_snoc _).mp h.after
  have hrun : (feedMachine FloatingP).run s₂ es₂ = some s₃ := by
    rw [Machine.run_cons] at hs₃
    rw [show (feedMachine FloatingP).step s₁ (.arrive g) = some s₂ from hs₂] at hs₃
    exact hs₃
  obtain ⟨-, hqueue⟩ := queue_while_requesting hreq h.rejected hrun
  rw [queue_after_gap h.live hreq hs₂] at hqueue
  obtain ⟨-, p, hp, rfl⟩ := step_complete hs₄
  rcases requestFullOrderBookImpl_cases hp with ⟨hn, -⟩ | ⟨j', S', merged, ha', hm, rfl⟩
  · exact absurd ha (hn j S)
  · obtain ⟨rfl, rfl⟩ := ha.unique ha'
    refine ⟨merged, _, rfl, hm.seqOf_eq.trans ha.seqOf_eq, ?_⟩
    rw [hm.toMerge, hown, List.nil_append, hqueue]

/-- **A recovery loses nothing exactly when the new book covers the message that
revealed the gap.** If it does, the book's `to_merge` is precisely what the book
does not cover, each message once and in order of arrival; if it does not, the
messages to merge are not even a sub-list of it. -/
theorem recovery_complete_iff {productId : String} {es₁ es₂ : List FeedEvent} {g j : Json}
    {body : RestBody} {S : Nat} {s₁ s₄ : FeedState FloatingP}
    (h : GapRecovery productId es₁ g es₂ body s₁ s₄) (ha : Accepts body j S)
    (hown : toMergeOf j = []) :
    ∃ merged record, s₄.product.messageQueue = [.fullOrderBook merged record] ∧
      seqOf merged = S ∧
      ((toRecover S s₁.product.messageQueue g (arrivals es₂)).Sublist (toMergeOf merged) ↔
        seqOf g ≤ S) ∧
      (seqOf g ≤ S →
        toMergeOf merged = toRecover S s₁.product.messageQueue g (arrivals es₂)) := by
  obtain ⟨merged, record, hqueue, hseq, hmerge⟩ := recovery_queue h ha hown
  refine ⟨merged, record, hqueue, hseq, ⟨fun hsub => ?_, fun hle => ?_⟩, fun hle => ?_⟩
  · -- otherwise there is one message more to recover than is merged
    by_contra hlt
    have hlen := hsub.length_le
    rw [toRecover_of_lt (Nat.lt_of_not_le hlt), hmerge] at hlen
    omega
  · rw [hmerge, toRecover_of_le hle]
  · rw [hmerge, toRecover_of_le hle]

/-- A book that covers message 3, which revealed the gap, and not message 4. -/
theorem recovery_complete_covered :
    ∃ s₁ s₄ : FeedState Int,
      GapRecovery "ETH-USD" [.complete (.json (bookMsg 1 [] []))]
        (doneMsg "sell" "A" 3) [.arrive (doneMsg "sell" "B" 4)]
        (.json (bookMsg 3 [] [])) s₁ s₄ ∧
      ∃ merged record, s₄.product.messageQueue = [.fullOrderBook merged record] ∧
        seqOf merged = 3 ∧
        ((toRecover 3 s₁.product.messageQueue (doneMsg "sell" "A" 3)
          (arrivals [.arrive (doneMsg "sell" "B" 4)])).Sublist (toMergeOf merged) ↔
          seqOf (doneMsg "sell" "A" 3) ≤ 3) ∧
        (seqOf (doneMsg "sell" "A" 3) ≤ 3 →
          toMergeOf merged = toRecover 3 s₁.product.messageQueue (doneMsg "sell" "A" 3)
            (arrivals [.arrive (doneMsg "sell" "B" 4)])) := by
  have hrec : ∃ s₁ s₄ : FeedState Int,
      GapRecovery "ETH-USD" [.complete (.json (bookMsg 1 [] []))]
        (doneMsg "sell" "A" 3) [.arrive (doneMsg "sell" "B" 4)]
        (.json (bookMsg 3 [] [])) s₁ s₄ := by
    refine ⟨_, _, rfl, rfl, ⟨_, rfl, rfl⟩, fun b hb => ?_, rfl⟩
    exact absurd (List.mem_singleton.mp hb) (by simp)
  obtain ⟨s₁, s₄, h⟩ := hrec
  exact ⟨s₁, s₄, h, recovery_complete_iff h ⟨rfl, rfl, by decide⟩ rfl⟩

/-- Message 3 reveals a gap after book 1, and the book that answers has number 2:
message 3 is above it and is merged nowhere. -/
theorem gap_message_lost :
    ∃ (es₁ es₂ : List FeedEvent) (g : Json) (body : RestBody) (s₁ s₄ : FeedState Int)
      (merged : Json) (record : List Queued),
      GapRecovery "ETH-USD" es₁ g es₂ body s₁ s₄ ∧
      s₄.product.messageQueue = [.fullOrderBook merged record] ∧
      ((arrivals (es₁ ++ .arrive g :: es₂)).map seqOf).Pairwise (· < ·) ∧
      ¬ (toRecover (seqOf merged) s₁.product.messageQueue g (arrivals es₂)).Sublist
          (toMergeOf merged) := by
  refine ⟨[.complete (.json (bookMsg 1 [] []))], [], doneMsg "sell" "A" 3,
    .json (bookMsg 2 [] []), _, _, _, _,
    ⟨rfl, rfl, ⟨_, rfl, rfl⟩, fun b hb => ?_, rfl⟩, rfl, by decide, fun hsub => ?_⟩
  · exact absurd hb List.not_mem_nil
  · exact absurd hsub.length_le (by decide)

end QuoteServer
