import QuoteServer.Coinbase.FeedProduct

/-!
# What one step of a CoinbaseFeedProduct can do

One inversion lemma for each critical section, and one for each event of
`feedMachine`. The results about whole runs use these and never unfold the code
again.
-/

namespace QuoteServer

open EventMachine CoinbaseFeedMessageHandler

/-! ## `onMessageReceived` -/

/-- The number a message must carry to follow `last`: `last + 1` on a `long
unsigned`. -/
def following (last : Nat) : Nat := (last + 1) % 2 ^ 64

theorem following_of_lt {last : Nat} (h : last + 1 < 2 ^ 64) :
    following last = last + 1 := Nat.mod_eq_of_lt h

/-- The four branches of `onMessageReceived`. -/
theorem onMessageReceived_cases {p p' : CoinbaseFeedProduct} {m : Json}
    (h : p.onMessageReceived m = .ok p') :
    (p.requestingOrderbook = true ∧
      p' = { p with messageQueue := p.messageQueue ++ [.message m] }) ∨
    (p.requestingOrderbook = false ∧ following p.lastSequenceNumber < seqOf m ∧
      p' = { p with lastSequenceNumber := 0 }.requestFullOrderBook) ∨
    (p.requestingOrderbook = false ∧ seqOf m ≤ p.lastSequenceNumber ∧ p' = p) ∨
    (p.requestingOrderbook = false ∧ seqOf m = p.lastSequenceNumber + 1 ∧
      p' = { p with messageQueue := p.messageQueue ++ [.message m]
                    lastSequenceNumber := seqOf m }) := by
  obtain ⟨sequence, hseq, h⟩ := bind_eq_ok.mp h
  obtain rfl := seqOf_of_ok hseq
  cases hr : p.requestingOrderbook with
  | true =>
    rw [hr, if_pos rfl] at h
    cases h
    exact .inl ⟨rfl, rfl⟩
  | false =>
    rw [hr, if_neg Bool.false_ne_true] at h
    by_cases hgap : seqOf m > (p.lastSequenceNumber + 1) % 2 ^ 64
    · rw [if_pos hgap] at h
      cases h
      exact .inr (.inl ⟨rfl, hgap, rfl⟩)
    · rw [if_neg hgap] at h
      by_cases hold : seqOf m ≤ p.lastSequenceNumber
      · rw [if_pos hold] at h
        cases h
        exact .inr (.inr (.inl ⟨rfl, hold, rfl⟩))
      · rw [if_neg hold] at h
        cases h
        -- neither above the following number nor old, so it is the following one
        refine .inr (.inr (.inr ⟨rfl, ?_, rfl⟩))
        have hle : (p.lastSequenceNumber + 1) % 2 ^ 64 ≤ p.lastSequenceNumber + 1 :=
          Nat.mod_le _ _
        omega

/-! ## `requestFullOrderBookImpl` -/

/-- The last number of a list of messages, `S` if there is none. -/
def lastOf (S : Nat) (jmsgs : List Json) : Nat := (jmsgs.map seqOf).getLastD S

theorem lastOf_cons (S : Nat) (j : Json) (js : List Json) :
    lastOf S (j :: js) = lastOf (seqOf j) js := by
  rw [lastOf, List.map_cons, List.getLastD_cons, lastOf]

/-- The number of a queued message can be read, if it has one. -/
def Queued.Readable (queued : Queued) : Prop :=
  queued.json.contains "sequence" = true → ∃ n, queued.json.unsignedAt "sequence" = .ok n

/-- One turn of the merge loop: a newer message is pushed under `to_merge`, and any other
is passed over. -/
theorem mergeQueue_cons {S : Nat} {queued : Queued} {queue : List Queued}
    {members : List (String × Json)} {last : Nat} {merged : Json × Nat} :
    CoinbaseFeedProduct.mergeQueue S (queued :: queue) (.object members) last = .ok merged ↔
      queued.Readable ∧
        if S < seqOf queued.json then
          ∃ pushed, ((members.lookup "to_merge").getD .null).pushBack queued.json = .ok pushed ∧
            CoinbaseFeedProduct.mergeQueue S queue
              (.object (Json.assign members "to_merge" pushed)) (seqOf queued.json) = .ok merged
        else CoinbaseFeedProduct.mergeQueue S queue (.object members) last = .ok merged := by
  conv_lhs => unfold CoinbaseFeedProduct.mergeQueue
  cases hc : queued.json.contains "sequence" with
  | false =>
    have hreadable : queued.Readable := fun h => absurd (hc.symm.trans h) Bool.false_ne_true
    rw [if_neg Bool.false_ne_true, seqOf_of_not_contains hc, if_neg (Nat.not_lt_zero S),
      and_iff_right hreadable]
  | true =>
    rw [if_pos rfl]
    constructor
    · intro h
      obtain ⟨n, hsequence, h⟩ := bind_eq_ok.mp h
      obtain rfl := seqOf_of_ok hsequence
      refine ⟨fun _ => ⟨_, hsequence⟩, ?_⟩
      split
      · rw [if_pos ‹_›] at h
        obtain ⟨j', hpush, h⟩ := bind_eq_ok.mp h
        obtain ⟨pushed, hpushed, hj⟩ := bind_eq_ok.mp hpush
        cases hj
        exact ⟨pushed, hpushed, h⟩
      · rw [if_neg ‹_›] at h
        exact h
    · rintro ⟨hreadable, h⟩
      obtain ⟨n, hsequence⟩ := hreadable hc
      obtain rfl := seqOf_of_ok hsequence
      refine bind_eq_ok.mpr ⟨_, hsequence, ?_⟩
      split at h
      · obtain ⟨pushed, hpushed, h⟩ := h
        rw [if_pos ‹_›]
        exact bind_eq_ok.mpr ⟨_, bind_eq_ok.mpr ⟨pushed, hpushed, rfl⟩, h⟩
      · rw [if_neg ‹_›]
        exact h

/-- What the merge loop does to a book: it appends the newer messages to
`to_merge`, keeps every other member, and leaves the last number merged. -/
theorem mergeQueue_spec {S : Nat} {queue : List Queued}
    {members : List (String × Json)} {last : Nat} {merged : Json × Nat}
    (h : CoinbaseFeedProduct.mergeQueue S queue (.object members) last = .ok merged) :
    (∃ members', merged.1 = .object members' ∧
      ∀ key, key ≠ "to_merge" → members'.lookup key = members.lookup key) ∧
    toMergeOf merged.1 = toMergeOf (.object members) ++ newer S queue ∧
    merged.2 = lastOf last (newer S queue) := by
  -- along the queue, with the book and the last number that the loop has reached
  induction queue generalizing members last with
  | nil =>
    cases h
    refine ⟨⟨members, rfl, fun _ _ => rfl⟩, ?_, rfl⟩
    rw [newer_nil, List.append_nil]
  | cons queued queue ih =>
    obtain ⟨-, h⟩ := mergeQueue_cons.mp h
    rw [newer_cons]
    split at h
    · obtain ⟨pushed, hpushed, h⟩ := h
      have hpush : (Json.object members).pushBackAt "to_merge" queued.json =
          .ok (.object (Json.assign members "to_merge" pushed)) :=
        bind_eq_ok.mpr ⟨pushed, hpushed, rfl⟩
      obtain ⟨members', heq, hkeep, hmerge⟩ := pushBackAt_toMerge hpush
      cases heq
      obtain ⟨⟨members'', heq, hkeep'⟩, hmerge', hlast⟩ := ih h
      rw [if_pos ‹_›, lastOf_cons]
      refine ⟨⟨members'', heq, fun key hkey => ?_⟩, ?_, hlast⟩
      · rw [hkeep' key hkey, hkeep key hkey]
      · rw [hmerge', hmerge, List.append_assoc]
        rfl
    · rw [if_neg ‹_›]
      exact ih h

/-- The answer is a book the code accepts: it has a sequence number other than
`0`. -/
structure Accepts (body : RestBody) (orderBookMsg : Json) (S : Nat) : Prop where
  body_eq : body = .json orderBookMsg
  sequence : orderBookMsg.unsignedAt "sequence" = .ok S
  ne_zero : S ≠ 0

theorem Accepts.seqOf_eq {body : RestBody} {j : Json} {S : Nat} (h : Accepts body j S) :
    seqOf j = S := seqOf_of_ok h.sequence

theorem Accepts.unique {body : RestBody} {j j' : Json} {S S' : Nat}
    (h : Accepts body j S) (h' : Accepts body j' S') : j = j' ∧ S = S' := by
  have hj : RestBody.json j = .json j' := h.body_eq.symm.trans h'.body_eq
  cases hj
  exact ⟨rfl, h.seqOf_eq.symm.trans h'.seqOf_eq⟩

/-- The book `merged` is the answer `orderBookMsg` with `ms` merged into it. -/
structure MergedBook (orderBookMsg merged : Json) (ms : List Json) : Prop where
  toMerge : toMergeOf merged = toMergeOf orderBookMsg ++ ms
  constIndex : ∀ key, key ≠ "to_merge" → merged.constIndex key = orderBookMsg.constIndex key
  contains : ∀ key, key ≠ "to_merge" → merged.contains key = orderBookMsg.contains key
  object : ∃ members, merged = .object members

/-- Merging keeps the snapshot's own number. -/
theorem MergedBook.seqOf_eq {j merged : Json} {ms : List Json}
    (h : MergedBook j merged ms) : seqOf merged = seqOf j := by
  rw [seqOf, Json.unsignedAt, h.constIndex "sequence" (by decide), seqOf, Json.unsignedAt]

/-- The record of a book is what it has under `to_merge`. -/
theorem MergedBook.record {j merged : Json} {S : Nat} {queue : List Queued}
    (h : MergedBook j merged (newer S queue)) :
    (mergeRecord j S queue).map Queued.json = toMergeOf merged := by
  rw [mergeRecord, List.map_append, json_messages, newerQueued_json, h.toMerge]

/-- An accepted answer: the loop over the queue decides the rest. -/
theorem requestFullOrderBookImpl_accepts {body : RestBody} {j : Json} {S : Nat}
    (ha : Accepts body j S) (p : CoinbaseFeedProduct) :
    p.requestFullOrderBookImpl body = do
      let merged ← CoinbaseFeedProduct.mergeQueue S p.messageQueue j S
      return { p with
        lastSequenceNumber := merged.2
        messageQueue := [.fullOrderBook merged.1 (mergeRecord j S p.messageQueue)]
        requestingOrderbook := false
        requestRunning := false } := by
  obtain ⟨v, hv, -⟩ := bind_eq_ok.mp ha.sequence
  unfold CoinbaseFeedProduct.requestFullOrderBookImpl
  rw [ha.body_eq]
  dsimp only
  rw [if_pos (Json.contains_iff.mpr ⟨v, hv⟩), ha.sequence]
  exact if_neg ha.ne_zero

/-- Any other answer only ends the request, or an exception ends everything. -/
theorem requestFullOrderBookImpl_rejects {body : RestBody} (hbody : ∀ j S, ¬ Accepts body j S) :
    (∀ p : CoinbaseFeedProduct,
        p.requestFullOrderBookImpl body = .ok { p with requestRunning := false }) ∨
      ∃ e, ∀ p : CoinbaseFeedProduct, p.requestFullOrderBookImpl body = .error e := by
  unfold CoinbaseFeedProduct.requestFullOrderBookImpl
  cases body with
  | empty => exact .inl fun p => rfl
  | malformed => exact .inr ⟨.parseError, fun p => rfl⟩
  | json orderBookMsg =>
    dsimp only
    cases hc : orderBookMsg.contains "sequence" with
    | false => exact .inl fun p => rfl
    | true =>
      cases hS : orderBookMsg.unsignedAt "sequence" with
      | error e => exact .inr ⟨e, fun p => rfl⟩
      | ok S =>
        by_cases h0 : S = 0
        · exact .inl fun p => (if_pos rfl).trans (if_pos h0)
        · exact absurd ⟨rfl, hS, h0⟩ (hbody orderBookMsg S)

/-- The two ways `requestFullOrderBookImpl` returns: without a usable answer,
leaving everything but its own thread as it was, or with an accepted book. -/
theorem requestFullOrderBookImpl_cases {p p' : CoinbaseFeedProduct} {body : RestBody}
    (h : p.requestFullOrderBookImpl body = .ok p') :
    ((∀ j S, ¬ Accepts body j S) ∧ p' = { p with requestRunning := false }) ∨
    ∃ j S merged, Accepts body j S ∧ MergedBook j merged (newer S p.messageQueue) ∧
      p' = { p with lastSequenceNumber := lastOf S (newer S p.messageQueue)
                    messageQueue := [.fullOrderBook merged (mergeRecord j S p.messageQueue)]
                    requestingOrderbook := false
                    requestRunning := false } := by
  by_cases hbody : ∃ j S, Accepts body j S
  · obtain ⟨j, S, ha⟩ := hbody
    rw [requestFullOrderBookImpl_accepts ha] at h
    obtain ⟨merged, hm, h⟩ := bind_eq_ok.mp h
    cases h
    obtain ⟨v, hv, -⟩ := bind_eq_ok.mp ha.sequence
    obtain ⟨members, rfl⟩ := Json.object_of_contains (Json.contains_iff.mpr ⟨v, hv⟩)
    obtain ⟨⟨members', heq, hkeep⟩, hmerge, hlast⟩ := mergeQueue_spec hm
    refine .inr ⟨_, S, merged.1, ha, ⟨hmerge, ?_, ?_, members', heq⟩, ?_⟩
    · intro key hkey
      rw [heq, Json.constIndex_object, Json.constIndex_object, hkeep key hkey]
    · intro key hkey
      rw [heq, Json.contains_object, Json.contains_object, hkeep key hkey]
    · rw [hlast]
  · have hrejected : ∀ j S, ¬ Accepts body j S := fun j S ha => hbody ⟨j, S, ha⟩
    rcases requestFullOrderBookImpl_rejects hrejected with hreturns | ⟨e, hthrows⟩
    · rw [hreturns] at h
      cases h
      exact .inl ⟨hrejected, rfl⟩
    · rw [hthrows] at h
      cases h

/-! ## `messageLoop` -/

theorem takeMessages_requesting {p : CoinbaseFeedProduct} (h : p.requestingOrderbook = true) :
    p.takeMessages = (p, []) := if_pos h

theorem takeMessages_live {p : CoinbaseFeedProduct} (h : p.requestingOrderbook = false) :
    p.takeMessages = ({ p with messageQueue := [] }, p.messageQueue) :=
  if_neg (by rw [h]; decide)

/-! ## The events of `feedMachine` -/

variable {FloatingP : Type} [FloatingPoint FloatingP]

theorem step_arrive {s s' : FeedState FloatingP} {m : Json}
    (h : s.step (.arrive m) = some s') :
    ∃ p, s.product.onMessageReceived m = .ok p ∧ s' = { s with product := p } := by
  unfold FeedState.step at h
  dsimp only at h
  cases hp : s.product.onMessageReceived m with
  | error e =>
    rw [hp] at h
    cases h
  | ok p =>
    rw [hp] at h
    exact ⟨p, rfl, (Option.some.inj h).symm⟩

theorem step_complete {s s' : FeedState FloatingP} {body : RestBody}
    (h : s.step (.complete body) = some s') :
    s.product.requestRunning = true ∧
      ∃ p, s.product.requestFullOrderBookImpl body = .ok p ∧
        s' = { s with product := p } := by
  unfold FeedState.step at h
  dsimp only at h
  cases hr : s.product.requestRunning with
  | false =>
    rw [hr, if_neg Bool.false_ne_true] at h
    cases h
  | true =>
    rw [hr, if_pos rfl] at h
    cases hp : s.product.requestFullOrderBookImpl body with
    | error e =>
      rw [hp] at h
      cases h
    | ok p =>
      rw [hp] at h
      exact ⟨rfl, p, rfl, (Option.some.inj h).symm⟩

/-- Taking the messages: nothing while a book is being fetched, else the whole
queue. -/
theorem step_take {s s' : FeedState FloatingP} (h : s.step .take = some s') :
    s.messages = [] ∧
      ((s.product.requestingOrderbook = true ∧ s' = s) ∨
       (s.product.requestingOrderbook = false ∧
        s' = { s with product := { s.product with messageQueue := [] }
                      messages := s.product.messageQueue })) := by
  unfold FeedState.step at h
  dsimp only at h
  cases hm : s.messages with
  | cons q qs =>
    rw [hm] at h
    cases h
  | nil =>
    rw [hm, if_pos List.isEmpty_nil] at h
    refine ⟨rfl, ?_⟩
    cases hr : s.product.requestingOrderbook with
    | true =>
      rw [takeMessages_requesting hr] at h
      refine .inl ⟨rfl, (Option.some.inj h).symm.trans ?_⟩
      obtain ⟨product, messages, handed, emitted⟩ := s
      dsimp only at hm ⊢
      rw [hm]
    | false =>
      rw [takeMessages_live hr] at h
      exact .inr ⟨rfl, (Option.some.inj h).symm⟩

theorem step_hand {s s' : FeedState FloatingP} (h : s.step .hand = some s') :
    ∃ queued messages pc, s.messages = queued :: messages ∧
      getProductChange s.product.productId queued.json = .ok pc ∧
      s' = { s with messages := messages
                    handed := s.handed ++ [queued]
                    emitted := s.emitted ++ pc.toList } := by
  unfold FeedState.step at h
  dsimp only at h
  cases hm : s.messages with
  | nil =>
    rw [hm] at h
    cases h
  | cons queued messages =>
    rw [hm] at h
    dsimp only at h
    cases hp : (getProductChange s.product.productId queued.json :
      Except Fault (Option (ProductChange FloatingP))) with
    | error e =>
      rw [hp] at h
      cases h
    | ok pc =>
      rw [hp] at h
      exact ⟨queued, messages, pc, rfl, hp, (Option.some.inj h).symm⟩

end QuoteServer
