import QuoteServer.Coinbase.FirstReset

/-!
# Two tests for one book

Whether an answer is a full order book is decided twice. `requestFullOrderBookImpl` asks
for a sequence number other than `0`, and then goes live with the waiting messages merged
into the answer. The message handler asks for bids and asks, on another thread and later.
An answer that passes the first test only takes the waiting messages with it. So live
mode starts from a book that the handler can use exactly if the handler accepts whatever
the first test accepts, and can read the messages waiting for it
(`live_only_with_book_iff`).
-/

namespace QuoteServer

open CoinbaseFeedMessageHandler

variable {FloatingP : Type} [FloatingPoint FloatingP]

/-- The handler turns the message into a `ProductChangeResetOrderBook`. -/
def HandlerAccepts (FloatingP : Type) [FloatingPoint FloatingP] (productId : String)
    (jmsg : Json) : Prop :=
  ∃ reset : ProductChange FloatingP,
    getProductChange productId jmsg = .ok (some reset) ∧ reset.isReset = true

/-- What a return of `requestFullOrderBookImpl` with the answer `j` owes: it goes live
only with a message queued that the handler turns into a reset, which has the change of
every waiting message above the book's number, in order; and an answer that the handler
would not accept as a full book changes nothing. -/
structure LiveOnlyWithBook (FloatingP : Type) [FloatingPoint FloatingP]
    (p p' : CoinbaseFeedProduct) (j : Json) : Prop where
  live : p'.requestingOrderbook = false →
    ∃ (msg : Json) (bids asks : List (Order FloatingP))
      (toMerge waiting : List (ProductChange FloatingP)) (sequence : Nat)
      (record : List Queued),
      p'.messageQueue = [.fullOrderBook msg record] ∧
      getProductChange p.productId msg =
        .ok (some (.resetOrderBook bids asks toMerge p.productId sequence)) ∧
      changesOf p.productId (newer sequence p.messageQueue) = .ok waiting ∧
      waiting <:+ toMerge
  refused : ¬ HandlerAccepts FloatingP p.productId j →
    p'.requestingOrderbook = p.requestingOrderbook ∧
      p'.lastSequenceNumber = p.lastSequenceNumber ∧ p'.messageQueue = p.messageQueue

/-- **When live mode starts from a usable book only.** For every answer and every queue,
a return of `requestFullOrderBookImpl` meets `LiveOnlyWithBook` exactly if an answer with
a sequence number other than `0` is one the handler accepts, and the handler can read
every message that waits above that number. -/
theorem live_only_with_book_iff {p p' : CoinbaseFeedProduct} {j : Json}
    (hreq : p.requestingOrderbook = true)
    (h : p.requestFullOrderBookImpl (.json j) = .ok p') :
    LiveOnlyWithBook FloatingP p p' j ↔
      ∀ S, Accepts (.json j) j S → HandlerAccepts FloatingP p.productId j ∧
        ∃ waiting : List (ProductChange FloatingP),
          changesOf p.productId (newer S p.messageQueue) = .ok waiting := by
  rcases requestFullOrderBookImpl_cases h with ⟨hn, rfl⟩ | ⟨j', S, merged, ha, hm, rfl⟩
  · -- the answer is not accepted, and the product goes on fetching
    refine ⟨fun _ S ha => absurd ha (hn j S), fun _ => ⟨fun hlive => ?_, fun _ => ⟨rfl, rfl, rfl⟩⟩⟩
    exact absurd (hreq.symm.trans hlive) (by decide)
  · have hj : RestBody.json j = .json j' := ha.body_eq
    cases hj
    constructor
    · intro hlive S' ha'
      obtain ⟨-, rfl⟩ := ha.unique ha'
      obtain ⟨msg, bids, asks, toMerge, waiting, sequence, record, hqueue, hmsg, hwaiting, -⟩ :=
        hlive.live rfl
      cases hqueue
      -- so the answer itself is a full book, and its number the one of the reset
      have hfull : isFullOrderBook j = true :=
        hm.isFullOrderBook_eq.symm.trans (isFullOrderBook_of_reset hmsg rfl)
      have hsequence : sequence = S :=
        (getProductChange_sequence hmsg).trans (hm.seqOf_eq.trans ha.seqOf_eq)
      rw [hsequence] at hwaiting
      obtain ⟨bids', asks', own, _, sequence', hj, -, -⟩ :=
        (getProductChange_merged hm hfull).mp hmsg
      exact ⟨⟨_, hj, rfl⟩, waiting, hwaiting⟩
    · intro hok
      obtain ⟨⟨reset, hreset, his⟩, waiting, hwaiting⟩ := hok S ha
      have hfull : isFullOrderBook j = true := isFullOrderBook_of_reset hreset his
      obtain ⟨asks, bids, own, sequence, -, -, -, hseq, heq⟩ :=
        (getProductChange_fullOrderBook hfull).mp hreset
      cases heq
      have hsequence : sequence = S := (seqOf_of_ok hseq).symm.trans ha.seqOf_eq
      have hmerged : getProductChange p.productId merged =
          .ok (some (.resetOrderBook bids asks (own ++ waiting) p.productId sequence)) :=
        (getProductChange_merged hm hfull).mpr
          ⟨bids, asks, own, waiting, sequence, hreset, hwaiting, rfl⟩
      refine ⟨fun _ => ⟨merged, bids, asks, own ++ waiting, waiting, sequence, _, rfl, hmerged,
        ?_, List.suffix_append own waiting⟩, fun hrefused => ?_⟩
      · rw [hsequence]
        exact hwaiting
      · exact absurd ⟨_, hreset, rfl⟩ hrefused

/-- An answer with a number and nothing else. -/
def noBook : Json := .object [("sequence", .unsigned 4)]

/-- A book and a message waiting for it. -/
theorem live_only_with_book_iff_merged :
    ∃ p' : CoinbaseFeedProduct,
      CoinbaseFeedProduct.requestFullOrderBookImpl
        { productId := "ETH-USD", messageQueue := [.message (doneMsg "sell" "A" 5)] }
        (.json (bookMsg 4 [] [])) = .ok p' ∧
      (LiveOnlyWithBook Int
          { productId := "ETH-USD", messageQueue := [.message (doneMsg "sell" "A" 5)] } p'
          (bookMsg 4 [] []) ↔
        ∀ S, Accepts (.json (bookMsg 4 [] [])) (bookMsg 4 [] []) S →
          HandlerAccepts Int "ETH-USD" (bookMsg 4 [] []) ∧
            ∃ waiting : List (ProductChange Int),
              changesOf "ETH-USD" (newer S [.message (doneMsg "sell" "A" 5)]) = .ok waiting) :=
  Exists.imp (fun _ h => ⟨h, live_only_with_book_iff rfl h⟩) ⟨_, rfl⟩

/-- The answer has a number and neither bids nor asks: the product goes live, the waiting
message is merged into it, and the handler makes nothing of it. -/
theorem no_book_goes_live :
    ∃ p' : CoinbaseFeedProduct,
      CoinbaseFeedProduct.requestFullOrderBookImpl
        { productId := "ETH-USD", messageQueue := [.message (doneMsg "sell" "A" 5)] }
        (.json noBook) = .ok p' ∧
      p'.requestingOrderbook = false ∧ p'.lastSequenceNumber = 5 ∧
      (∀ msg ∈ p'.messageQueue,
        (getProductChange "ETH-USD" msg.json : Except Fault (Option (ProductChange Int))) =
          .ok none) ∧
      ¬ LiveOnlyWithBook Int
          { productId := "ETH-USD", messageQueue := [.message (doneMsg "sell" "A" 5)] } p'
          noBook := by
  refine ⟨_, rfl, rfl, rfl, fun msg hmsg => ?_, fun h => ?_⟩
  · rw [List.mem_singleton.mp hmsg]
    rfl
  · obtain ⟨msg, _, _, _, _, _, _, hqueue, hmsg, -⟩ := h.live rfl
    cases hqueue
    cases hmsg

end QuoteServer
