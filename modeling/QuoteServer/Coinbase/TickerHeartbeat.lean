import QuoteServer.Coinbase.FirstReset
import QuoteServer.Lib.Erasure

/-!
# Tickers and heartbeats

The feed client subscribes to tickers and heartbeats along with the book, and they go
through the same gate. The handler makes nothing of them, but the gate counts their
numbers like those of any other message. So they disturb the book unless they are
`Harmless`: taken as old in live mode, and not the ones that decide where a merged book
leaves off. In runs where they are, it makes no difference whether they come
(`tickers_harmless`).
-/

namespace QuoteServer

open EventMachine CoinbaseFeedMessageHandler

variable {FloatingP : Type}

/-- Whether `getProductChange` takes the message for a ticker or a heartbeat. -/
def isTickerOrHeartbeat (jmsg : Json) : Bool :=
  !isFullOrderBook jmsg &&
    (jmsg.stringMember "type" = some "ticker" || jmsg.stringMember "type" = some "heartbeat")

theorem isTickerOrHeartbeat_iff {jmsg : Json} : isTickerOrHeartbeat jmsg = true ↔
    isFullOrderBook jmsg = false ∧
      ∃ type ∈ ["ticker", "heartbeat"], jmsg.stringMember "type" = some type := by
  simp [isTickerOrHeartbeat]

/-- The handler makes nothing of it. -/
theorem getProductChange_ticker [FloatingPoint FloatingP] {productId : String} {jmsg : Json}
    (h : isTickerOrHeartbeat jmsg = true) :
    (getProductChange productId jmsg : Except Fault (Option (ProductChange FloatingP))) =
      .ok none := by
  obtain ⟨hfull, type, htypes, htype⟩ := isTickerOrHeartbeat_iff.mp h
  obtain ⟨members, rfl⟩ := Json.object_of_contains (Json.contains_of_stringMember htype)
  have hread : (Json.object members).stringAt "type" = .ok type :=
    bind_eq_ok.mpr ⟨_, Json.stringMember_eq_some.mp htype, rfl⟩
  unfold getProductChange
  dsimp only
  rw [hfull, if_neg Bool.false_ne_true, if_pos (Json.contains_of_stringMember htype)]
  refine bind_eq_ok.mpr ⟨type, hread, ?_⟩
  simp only [List.mem_cons, List.not_mem_nil, or_false] at htypes
  rcases htypes with rfl | rfl <;> rfl

/-! ## What a critical section does with another queue -/

/-- `onMessageReceived` reads the queue nowhere: on another queue it adds the same and
leaves the same. -/
theorem onMessageReceived_queue {p p' : CoinbaseFeedProduct} {m : Json}
    (h : p.onMessageReceived m = .ok p') (queue : List Queued) :
    ∃ added, (added = [] ∨ added = [.message m]) ∧ p'.messageQueue = p.messageQueue ++ added ∧
      { p with messageQueue := queue }.onMessageReceived m =
        .ok { p' with messageQueue := queue ++ added } := by
  obtain ⟨sequence, hsequence, h⟩ := bind_eq_ok.mp h
  split at h
  case isTrue hrequesting =>
    cases h
    exact ⟨[.message m], .inr rfl, rfl, bind_eq_ok.mpr ⟨sequence, hsequence, if_pos hrequesting⟩⟩
  case isFalse hlive =>
    split at h
    case isTrue hgap =>
      cases h
      refine ⟨[], .inl rfl, (List.append_nil _).symm, bind_eq_ok.mpr ⟨sequence, hsequence, ?_⟩⟩
      rw [List.append_nil]
      exact (if_neg hlive).trans (if_pos hgap)
    case isFalse hnogap =>
      split at h
      case isTrue hold =>
        cases h
        refine ⟨[], .inl rfl, (List.append_nil _).symm, bind_eq_ok.mpr ⟨sequence, hsequence, ?_⟩⟩
        rw [List.append_nil]
        exact (if_neg hlive).trans ((if_neg hnogap).trans (if_pos hold))
      case isFalse hnew =>
        cases h
        refine ⟨[.message m], .inr rfl, rfl, bind_eq_ok.mpr ⟨sequence, hsequence, ?_⟩⟩
        exact (if_neg hlive).trans ((if_neg hnogap).trans (if_neg hnew))

/-- `push_back` works on it. -/
def Json.Pushable : Json → Prop
  | .null | .array _ => True
  | _ => False

theorem pushBack_returns_iff {j v : Json} : (∃ j', j.pushBack v = .ok j') ↔ j.Pushable := by
  cases j with
  | null => exact ⟨fun _ => trivial, fun _ => ⟨_, rfl⟩⟩
  | array elements => exact ⟨fun _ => trivial, fun _ => ⟨_, rfl⟩⟩
  | _ =>
    constructor
    · rintro ⟨_, h⟩
      cases h
    · exact False.elim

theorem pushBack_pushable {j v j' : Json} (h : j.pushBack v = .ok j') : j'.Pushable := by
  cases j with
  | null | array elements =>
    cases h
    exact trivial
  | _ => cases h

/-- **When the loop over the queue returns**: every number can be read, and a message to
merge can be pushed. -/
theorem mergeQueue_returns_iff {S : Nat} {queue : List Queued} {members : List (String × Json)}
    {last : Nat} :
    (∃ merged, CoinbaseFeedProduct.mergeQueue S queue (.object members) last = .ok merged) ↔
      (∀ queued ∈ queue, queued.Readable) ∧
        (newer S queue ≠ [] → ((members.lookup "to_merge").getD .null).Pushable) := by
  induction queue generalizing members last with
  | nil =>
    refine ⟨fun _ => ⟨fun queued h => (nomatch h), fun h => absurd rfl h⟩, fun _ => ⟨_, rfl⟩⟩
  | cons queued queue ih =>
    rw [List.forall_mem_cons, newer_cons]
    constructor
    · rintro ⟨merged, h⟩
      obtain ⟨hreadable, h⟩ := mergeQueue_cons.mp h
      split at h
      · obtain ⟨pushed, hpushed, h⟩ := h
        exact ⟨⟨hreadable, (ih.mp ⟨merged, h⟩).1⟩, fun _ => pushBack_returns_iff.mp ⟨_, hpushed⟩⟩
      · obtain ⟨hqueue, hpushable⟩ := ih.mp ⟨merged, h⟩
        rw [if_neg ‹_›]
        exact ⟨⟨hreadable, hqueue⟩, hpushable⟩
    · rintro ⟨⟨hreadable, hqueue⟩, hpushable⟩
      by_cases hS : S < seqOf queued.json
      · rw [if_pos hS] at hpushable
        obtain ⟨pushed, hpushed⟩ := pushBack_returns_iff.mpr (hpushable (List.cons_ne_nil _ _))
        -- what was pushed to can be pushed to again
        have hagain : (((Json.assign members "to_merge" pushed).lookup "to_merge").getD
            .null).Pushable := by
          rw [Json.lookup_assign_self]
          exact pushBack_pushable hpushed
        obtain ⟨merged, hmerged⟩ := ih.mpr ⟨hqueue, fun _ => hagain⟩
        refine ⟨merged, mergeQueue_cons.mpr ⟨hreadable, ?_⟩⟩
        rw [if_pos hS]
        exact ⟨pushed, hpushed, hmerged⟩
      · rw [if_neg hS] at hpushable
        obtain ⟨merged, hmerged⟩ := ih.mpr ⟨hqueue, hpushable⟩
        refine ⟨merged, mergeQueue_cons.mpr ⟨hreadable, ?_⟩⟩
        rw [if_neg hS]
        exact hmerged

/-! ## Two messages that make no difference -/

section

variable [FloatingPoint FloatingP] {productId : String}

variable (FloatingP productId) in
/-- The second message has the same number as the first, and the handler makes the same
of it. -/
structure Alike (jmsg jmsg' : Json) : Prop where
  contains : jmsg'.contains "sequence" = jmsg.contains "sequence"
  sequence : jmsg'.unsignedAt "sequence" = jmsg.unsignedAt "sequence"
  change : ∀ pc : Option (ProductChange FloatingP), getProductChange productId jmsg = .ok pc →
    getProductChange productId jmsg' = .ok pc

theorem Alike.refl (jmsg : Json) : Alike FloatingP productId jmsg jmsg := ⟨rfl, rfl, fun _ h => h⟩

theorem Alike.seqOf_eq {jmsg jmsg' : Json} (h : Alike FloatingP productId jmsg jmsg') :
    seqOf jmsg' = seqOf jmsg := by
  rw [seqOf, h.sequence, seqOf]

/-- What `typedChange` makes of a message, it reads from members other than `to_merge`. -/
theorem typedChange_congr {jmsg jmsg' : Json}
    (h : ∀ key, key ≠ "to_merge" → jmsg'.constIndex key = jmsg.constIndex key) :
    (typedChange productId jmsg' : Except Fault (Option (ProductChange FloatingP))) =
      typedChange productId jmsg := by
  have hstring : ∀ key, key ≠ "to_merge" → jmsg'.stringAt key = jmsg.stringAt key := by
    intro key hkey
    rw [Json.stringAt, h key hkey, Json.stringAt]
  have hunsigned : jmsg'.unsignedAt "sequence" = jmsg.unsignedAt "sequence" := by
    rw [Json.unsignedAt, h "sequence" (by decide), Json.unsignedAt]
  have hside : jmsg'.sideAt = jmsg.sideAt := by
    rw [Json.sideAt, hstring "side" (by decide), Json.sideAt]
  unfold typedChange
  rw [hunsigned, hside, hstring "type" (by decide), hstring "order_id" (by decide),
    hstring "price" (by decide), hstring "remaining_size" (by decide), hstring "size" (by decide),
    hstring "maker_order_id" (by decide), hstring "taker_order_id" (by decide)]

/-- One answer with messages merged into it that the handler reads alike. -/
theorem Alike.merged {j merged merged' : Json} {ms ms' : List Json}
    (hm : MergedBook j merged ms) (hm' : MergedBook j merged' ms')
    (hms : ∀ pcs : List (ProductChange FloatingP), changesOf productId ms = .ok pcs →
      changesOf productId ms' = .ok pcs) : Alike FloatingP productId merged merged' := by
  refine ⟨?_, ?_, fun pc h => ?_⟩
  · rw [hm'.contains "sequence" (by decide), hm.contains "sequence" (by decide)]
  · rw [hm'.unsignedAt_sequence, hm.unsignedAt_sequence]
  · cases hfull : isFullOrderBook j with
    | true =>
      obtain ⟨bids, asks, own, waiting, sequence, hj, hwaiting, rfl⟩ :=
        (getProductChange_merged hm hfull).mp h
      exact (getProductChange_merged hm' hfull).mpr
        ⟨bids, asks, own, waiting, sequence, hj, hms waiting hwaiting, rfl⟩
    | false =>
      obtain ⟨members, rfl⟩ := hm.object
      obtain ⟨members', rfl⟩ := hm'.object
      have htyped : (typedChange productId (.object members') :
          Except Fault (Option (ProductChange FloatingP))) =
          typedChange productId (.object members) := by
        refine typedChange_congr fun key hkey => ?_
        rw [hm'.constIndex key hkey, hm.constIndex key hkey]
      unfold getProductChange at h ⊢
      dsimp only at h ⊢
      rw [hm.isFullOrderBook_eq, hfull, if_neg Bool.false_ne_true,
        hm.contains "type" (by decide)] at h
      rw [hm'.isFullOrderBook_eq, hfull, if_neg Bool.false_ne_true,
        hm'.contains "type" (by decide), htyped]
      exact h

end

/-! ## A queue without its tickers and heartbeats -/

/-- A ticker or a heartbeat that was queued. -/
def Queued.isTickerOrHeartbeat : Queued → Bool
  | .message jmsg => QuoteServer.isTickerOrHeartbeat jmsg
  | .fullOrderBook _ _ => false

/-- The rest of the queue. -/
def bookOnly (queue : List Queued) : List Queued :=
  queue.filter fun queued => !queued.isTickerOrHeartbeat

section

variable [FloatingPoint FloatingP] {productId : String}

variable (FloatingP productId) in
/-- The second queue is the first without tickers and heartbeats, up to messages that are
alike. -/
inductive Thinned : List Queued → List Queued → Prop
  | nil : Thinned [] []
  | ticker {queued : Queued} {queue queue' : List Queued} :
    queued.isTickerOrHeartbeat = true → Thinned queue queue' → Thinned (queued :: queue) queue'
  | kept {queued queued' : Queued} {queue queue' : List Queued} :
    queued.isTickerOrHeartbeat = false → Alike FloatingP productId queued.json queued'.json →
    Thinned queue queue' → Thinned (queued :: queue) (queued' :: queue')

namespace Thinned

variable {queue queue' more more' : List Queued} {S : Nat}

theorem append (h : Thinned FloatingP productId queue queue')
    (hmore : Thinned FloatingP productId more more') :
    Thinned FloatingP productId (queue ++ more) (queue' ++ more') := by
  induction h with
  | nil => exact hmore
  | ticker hq _ ih => exact .ticker hq ih
  | kept hq halike _ ih => exact .kept hq halike ih

/-- A message that arrives for both queues. -/
theorem snoc (h : Thinned FloatingP productId queue queue') {m : Json}
    (hm : isTickerOrHeartbeat m = false) :
    Thinned FloatingP productId (queue ++ [.message m]) (queue' ++ [.message m]) :=
  h.append (.kept hm (.refl m) .nil)

theorem snoc_ticker (h : Thinned FloatingP productId queue queue') {m : Json}
    (hm : isTickerOrHeartbeat m = true) :
    Thinned FloatingP productId (queue ++ [.message m]) queue' := by
  have hticker : (Queued.message m).isTickerOrHeartbeat = true := hm
  have happend := h.append (.ticker hticker .nil)
  rw [List.append_nil] at happend
  exact happend

theorem readable (h : Thinned FloatingP productId queue queue')
    (hread : ∀ queued ∈ queue, queued.Readable) : ∀ queued ∈ queue', queued.Readable := by
  induction h with
  | nil => exact hread
  | ticker _ _ ih => exact ih (List.forall_mem_cons.mp hread).2
  | kept _ halike _ ih =>
    obtain ⟨hfirst, hrest⟩ := List.forall_mem_cons.mp hread
    refine List.forall_mem_cons.mpr ⟨fun hc => ?_, ih hrest⟩
    rw [halike.sequence]
    exact hfirst (halike.contains.symm.trans hc)

theorem newer_eq_nil (h : Thinned FloatingP productId queue queue') (hnil : newer S queue = []) :
    newer S queue' = [] := by
  induction h with
  | nil => exact hnil
  | ticker _ _ ih =>
    rw [newer_cons] at hnil
    split at hnil
    · cases hnil
    · exact ih hnil
  | kept _ halike _ ih =>
    rw [newer_cons] at hnil
    split at hnil
    · cases hnil
    · rw [newer_cons, halike.seqOf_eq, if_neg ‹_›]
      exact ih hnil

/-- The handler makes the same of what is merged. -/
theorem changesOf_newer (h : Thinned FloatingP productId queue queue')
    {pcs : List (ProductChange FloatingP)} (hpcs : changesOf productId (newer S queue) = .ok pcs) :
    changesOf productId (newer S queue') = .ok pcs := by
  induction h generalizing pcs with
  | nil => exact hpcs
  | @ticker queued queue queue' hq _ ih =>
    rw [newer_cons] at hpcs
    split at hpcs
    · obtain ⟨pc, rest, hpc, hrest, rfl⟩ := changesOf_cons_ok.mp hpcs
      cases queued with
      | fullOrderBook orderBookMsg toMerge => cases hq
      | message jmsg =>
        rw [Queued.json, getProductChange_ticker hq] at hpc
        cases hpc
        exact ih hrest
    · exact ih hpcs
  | kept _ halike _ ih =>
    rw [newer_cons] at hpcs ⊢
    rw [halike.seqOf_eq]
    split at hpcs
    · obtain ⟨pc, rest, hpc, hrest, rfl⟩ := changesOf_cons_ok.mp hpcs
      rw [if_pos ‹_›]
      exact changesOf_cons_ok.mpr ⟨pc, rest, halike.change pc hpc, ih hrest, rfl⟩
    · rw [if_neg ‹_›]
      exact ih hpcs

/-- The numbers of what is merged are those of the book messages. -/
theorem seqOf_newer (h : Thinned FloatingP productId queue queue') :
    (newer S queue').map seqOf = (newer S (bookOnly queue)).map seqOf := by
  induction h with
  | nil => rfl
  | ticker hq _ ih =>
    rw [bookOnly, List.filter_cons_of_neg (by rw [hq]; decide)]
    exact ih
  | kept hq halike _ ih =>
    rw [bookOnly, List.filter_cons_of_pos (by rw [hq]; rfl), newer_cons, newer_cons,
      halike.seqOf_eq]
    split
    · rw [List.map_cons, List.map_cons, halike.seqOf_eq]
      exact congrArg _ ih
    · exact ih

end Thinned

end

/-! ## Runs with and without them -/

variable [FloatingPoint FloatingP]

/-- The events that are about a ticker or a heartbeat: it arrives, or it was queued and is
handed over. -/
def ofTickerOrHeartbeat (s : FeedState FloatingP) : FeedEvent → Bool
  | .arrive m => isTickerOrHeartbeat m
  | .hand => s.messages.head?.any Queued.isTickerOrHeartbeat
  | _ => false

/-- The book messages that arrive, each with whether a new snapshot is requested for it. -/
def bookArrivals (s : FeedState FloatingP) (e : FeedEvent) (s' : FeedState FloatingP) :
    List (Json × Bool) :=
  match e with
  | .arrive m =>
    if isTickerOrHeartbeat m then []
    else [(m, decide (s.product.requests < s'.product.requests))]
  | _ => []

/-- A ticker or heartbeat in live mode is taken as old, and the last number a book is
merged up to is that of a book message. -/
def Harmless (s : FeedState FloatingP) : FeedEvent → Prop
  | .arrive m => isTickerOrHeartbeat m = true → s.product.requestingOrderbook = false →
    seqOf m ≤ s.product.lastSequenceNumber ∧ seqOf m ≤ following s.product.lastSequenceNumber
  | .complete body => ∀ j S, Accepts body j S →
    lastOf S (newer S s.product.messageQueue) =
      lastOf S (newer S (bookOnly s.product.messageQueue))
  | _ => True

/-- The state `t` is `s` without its tickers and heartbeats. -/
structure WithoutTickers (productId : String) (s t : FeedState FloatingP) : Prop where
  productId_eq : s.product.productId = productId
  product : t.product = { s.product with messageQueue := t.product.messageQueue }
  queue : Thinned FloatingP productId s.product.messageQueue t.product.messageQueue
  messages : Thinned FloatingP productId s.messages t.messages
  emitted : t.emitted = s.emitted

section

variable {productId : String} {s s' t : FeedState FloatingP}

theorem withoutTickers_initial (productId : String) :
    WithoutTickers productId (.initial productId) (.initial productId : FeedState FloatingP) where
  productId_eq := rfl
  product := rfl
  queue := .nil
  messages := .nil
  emitted := rfl

/-- A harmless ticker or heartbeat is queued to be merged, or has no effect at all. -/
theorem hidden_arrive {m : Json} (hrel : WithoutTickers productId s t)
    (hm : isTickerOrHeartbeat m = true) (hg : Harmless s (.arrive m))
    (h : s.step (.arrive m) = some s') :
    WithoutTickers productId s' t := by
  obtain ⟨p', hp, rfl⟩ := step_arrive h
  rcases onMessageReceived_cases hp with ⟨-, rfl⟩ | ⟨hlive, hgap, rfl⟩ | ⟨-, -, rfl⟩ |
    ⟨hlive, hnext, rfl⟩
  · exact { hrel with queue := hrel.queue.snoc_ticker hm }
  · exact absurd hgap (Nat.not_lt.mpr (hg hm hlive).2)
  · exact hrel
  · have hold := (hg hm hlive).1
    omega

/-- Harmless is a ticker or heartbeat that leaves the gate as it is. -/
theorem harmless_arrive_iff {m : Json} (hm : isTickerOrHeartbeat m = true)
    (h : s.step (.arrive m) = some s') :
    Harmless s (.arrive m) ↔
      s'.product.lastSequenceNumber = s.product.lastSequenceNumber ∧
        s'.product.requestingOrderbook = s.product.requestingOrderbook := by
  obtain ⟨p', hp, rfl⟩ := step_arrive h
  rcases onMessageReceived_cases hp with ⟨hfetching, rfl⟩ | ⟨hlive, hgap, rfl⟩ | ⟨-, hold, rfl⟩ |
    ⟨hlive, hnext, rfl⟩
  · exact ⟨fun _ => ⟨rfl, rfl⟩, fun _ _ hlive => absurd (hlive.symm.trans hfetching) (by decide)⟩
  · refine ⟨fun hg => absurd hgap (Nat.not_lt.mpr (hg hm hlive).2), fun hsame => ?_⟩
    have hrequested : true = false := hsame.2.trans hlive
    cases hrequested
  · refine ⟨fun _ => ⟨rfl, rfl⟩, fun _ _ hlive => ⟨hold, Nat.not_lt.mp fun hgap => ?_⟩⟩
    -- above the following number it would have had a snapshot requested
    obtain ⟨n, hsequence, hp⟩ := bind_eq_ok.mp hp
    obtain rfl := seqOf_of_ok hsequence
    rw [following] at hgap
    rw [hlive, if_neg Bool.false_ne_true, if_pos hgap] at hp
    have hrequests : s.product.requests + 1 = s.product.requests :=
      congrArg CoinbaseFeedProduct.requests (Except.ok.inj hp)
    omega
  · refine ⟨fun hg => absurd (hg hm hlive).1 (by omega), fun hsame => ?_⟩
    have hcounted : seqOf m = s.product.lastSequenceNumber := hsame.1
    omega

/-- A book message has the same effect on both states. -/
theorem shown_arrive {m : Json} (hrel : WithoutTickers productId s t)
    (hm : isTickerOrHeartbeat m = false) (h : s.step (.arrive m) = some s') :
    ∃ t', t.step (.arrive m) = some t' ∧ WithoutTickers productId s' t' ∧
      bookArrivals t (.arrive m) t' = bookArrivals s (.arrive m) s' := by
  have hid := (feed_step_productId h).trans hrel.productId_eq
  obtain ⟨p', hp, rfl⟩ := step_arrive h
  obtain ⟨added, hadded, hqueue, hreceived⟩ :=
    onMessageReceived_queue hp t.product.messageQueue
  rw [← hrel.product] at hreceived
  refine ⟨{ t with product := { p' with messageQueue := t.product.messageQueue ++ added } },
    ?_, ?_, ?_⟩
  · rw [FeedState.step, hreceived]
  · refine ⟨hid, rfl, ?_, hrel.messages, hrel.emitted⟩
    show Thinned FloatingP productId p'.messageQueue (t.product.messageQueue ++ added)
    rw [hqueue]
    rcases hadded with rfl | rfl
    · rw [List.append_nil, List.append_nil]
      exact hrel.queue
    · exact hrel.queue.snoc hm
  · have hrequests : t.product.requests = s.product.requests :=
      (congrArg CoinbaseFeedProduct.requests hrel.product).trans rfl
    unfold bookArrivals
    dsimp only
    rw [hrequests]

/-- The loop over the queue returns without the tickers and heartbeats too. -/
theorem requestFullOrderBookImpl_thinned {p p' : CoinbaseFeedProduct} {body : RestBody}
    {queue : List Queued} (hqueue : Thinned FloatingP productId p.messageQueue queue)
    (h : p.requestFullOrderBookImpl body = .ok p') :
    ∃ q, { p with messageQueue := queue }.requestFullOrderBookImpl body = .ok q := by
  rcases requestFullOrderBookImpl_cases h with ⟨hrejected, -⟩ | ⟨j, S, -, ha, -, -⟩
  · rcases requestFullOrderBookImpl_rejects hrejected with hreturns | ⟨e, hthrows⟩
    · exact ⟨_, hreturns _⟩
    · rw [hthrows] at h
      cases h
  · rw [requestFullOrderBookImpl_accepts ha] at h ⊢
    obtain ⟨merged, hmerged, -⟩ := bind_eq_ok.mp h
    obtain ⟨v, hv, -⟩ := bind_eq_ok.mp ha.sequence
    obtain ⟨members, rfl⟩ := Json.object_of_contains (Json.contains_iff.mpr ⟨v, hv⟩)
    obtain ⟨hreadable, hpushable⟩ := mergeQueue_returns_iff.mp ⟨merged, hmerged⟩
    obtain ⟨merged', hmerged'⟩ := mergeQueue_returns_iff.mpr
      ⟨hqueue.readable hreadable, fun hne => hpushable fun hnil => hne (hqueue.newer_eq_nil hnil)⟩
    exact ⟨_, bind_eq_ok.mpr ⟨merged', hmerged', rfl⟩⟩

/-- A snapshot has the same effect on both states, if both leave off at the same number. -/
theorem shown_complete {body : RestBody} (hrel : WithoutTickers productId s t)
    (hg : Harmless s (.complete body)) (h : s.step (.complete body) = some s') :
    ∃ t', t.step (.complete body) = some t' ∧ WithoutTickers productId s' t' := by
  have hid := (feed_step_productId h).trans hrel.productId_eq
  obtain ⟨hrunning, p', hp, rfl⟩ := step_complete h
  have htrunning : t.product.requestRunning = true :=
    (congrArg CoinbaseFeedProduct.requestRunning hrel.product).trans hrunning
  obtain ⟨q, hq⟩ := requestFullOrderBookImpl_thinned hrel.queue hp
  rw [← hrel.product] at hq
  refine ⟨{ t with product := q }, ?_, ?_⟩
  · rw [FeedState.step, if_pos htrunning, hq]
  suffices hboth : q = { p' with messageQueue := q.messageQueue } ∧
      Thinned FloatingP productId p'.messageQueue q.messageQueue from
    ⟨hid, hboth.1, hboth.2, hrel.messages, hrel.emitted⟩
  rcases requestFullOrderBookImpl_cases hp with ⟨hrejected, rfl⟩ | ⟨j, S, merged, ha, hm, rfl⟩
  · rcases requestFullOrderBookImpl_cases hq with ⟨-, rfl⟩ | ⟨j, S, -, ha, -, -⟩
    · exact ⟨congrArg (fun p => { p with requestRunning := false }) hrel.product, hrel.queue⟩
    · exact absurd ha (hrejected j S)
  · rcases requestFullOrderBookImpl_cases hq with ⟨hrejected, -⟩ | ⟨j', S', merged', ha', hm', rfl⟩
    · exact absurd ha (hrejected j S)
    · obtain ⟨rfl, rfl⟩ := ha.unique ha'
      have hlast : lastOf S (newer S t.product.messageQueue) =
          lastOf S (newer S s.product.messageQueue) := by
        rw [hg j S ha, lastOf, lastOf, hrel.queue.seqOf_newer]
      have halike : Alike FloatingP productId merged merged' :=
        .merged hm hm' fun pcs => hrel.queue.changesOf_newer
      refine ⟨?_, .kept rfl halike .nil⟩
      rw [hlast]
      exact congrArg (fun p => { p with
        lastSequenceNumber := lastOf S (newer S s.product.messageQueue)
        messageQueue := [.fullOrderBook merged' (mergeRecord j S t.product.messageQueue)]
        requestingOrderbook := false
        requestRunning := false }) hrel.product

theorem shown_take (hrel : WithoutTickers productId s t) (h : s.step .take = some s') :
    ∃ t', t.step .take = some t' ∧ WithoutTickers productId s' t' := by
  obtain ⟨hnil, hcases⟩ := step_take h
  have hthinned := hrel.messages
  rw [hnil] at hthinned
  have htnil : t.messages = [] := by
    cases ht : t.messages with
    | nil => rfl
    | cons queued messages =>
      rw [ht] at hthinned
      cases hthinned
  have hrequesting : t.product.requestingOrderbook = s.product.requestingOrderbook :=
    (congrArg CoinbaseFeedProduct.requestingOrderbook hrel.product).trans rfl
  refine ⟨{ t with product := t.product.takeMessages.1, messages := t.product.takeMessages.2 },
    if_pos (List.isEmpty_iff.mpr htnil), ?_⟩
  rcases hcases with ⟨hr, rfl⟩ | ⟨hr, rfl⟩
  · rw [takeMessages_requesting (hrequesting.trans hr)]
    refine ⟨hrel.productId_eq, hrel.product, hrel.queue, ?_, hrel.emitted⟩
    rw [hnil]
    exact .nil
  · rw [takeMessages_live (hrequesting.trans hr)]
    exact ⟨hrel.productId_eq, congrArg (fun p => { p with messageQueue := [] }) hrel.product, .nil,
      hrel.queue, hrel.emitted⟩

/-- A ticker or a heartbeat is handed over. -/
theorem hidden_hand (hrel : WithoutTickers productId s t)
    (hhead : s.messages.head?.any Queued.isTickerOrHeartbeat = true)
    (h : s.step .hand = some s') : WithoutTickers productId s' t := by
  obtain ⟨queued, messages, pc, hmessages, hpc, rfl⟩ := step_hand h
  have hthinned := hrel.messages
  rw [hmessages] at hhead hthinned
  have hticker : queued.isTickerOrHeartbeat = true := hhead
  cases queued with
  | fullOrderBook orderBookMsg toMerge => cases hticker
  | message jmsg =>
    rw [Queued.json, getProductChange_ticker hticker] at hpc
    cases hpc
    generalize htmessages : t.messages = tmessages at hthinned
    cases hthinned with
    | ticker _ hrest =>
      rw [← htmessages] at hrest
      refine ⟨hrel.productId_eq, hrel.product, hrel.queue, hrest, ?_⟩
      exact hrel.emitted.trans (List.append_nil _).symm
    | kept hkept => exact absurd (hkept.symm.trans hticker) Bool.false_ne_true

/-- The handler makes the same of any other message. -/
theorem shown_hand (hrel : WithoutTickers productId s t)
    (hhead : s.messages.head?.any Queued.isTickerOrHeartbeat = false)
    (h : s.step .hand = some s') :
    ∃ t', t.step .hand = some t' ∧ WithoutTickers productId s' t' := by
  obtain ⟨queued, messages, pc, hmessages, hpc, rfl⟩ := step_hand h
  have hthinned := hrel.messages
  rw [hmessages] at hhead hthinned
  have hbook : queued.isTickerOrHeartbeat = false := hhead
  generalize htmessages : t.messages = tmessages at hthinned
  cases hthinned with
  | ticker hticker => exact absurd (hbook.symm.trans hticker) Bool.false_ne_true
  | @kept _ queued' _ messages' _ halike hrest =>
    rw [hrel.productId_eq] at hpc
    have hid : t.product.productId = productId :=
      (congrArg CoinbaseFeedProduct.productId hrel.product).trans hrel.productId_eq
    refine ⟨{ t with
      messages := messages'
      handed := t.handed ++ [queued']
      emitted := t.emitted ++ pc.toList }, ?_, ?_⟩
    · rw [FeedState.step, htmessages]
      dsimp only
      rw [hid, halike.change pc hpc]
    · refine ⟨hrel.productId_eq, hrel.product, hrel.queue, hrest, ?_⟩
      exact congrArg (fun emitted => emitted ++ pc.toList) hrel.emitted

end

/-- **Harmless tickers and heartbeats make no difference** to the other events. -/
def tickerErasure (FloatingP : Type) [FloatingPoint FloatingP] (productId : String) :
    Erasure (feedMachine FloatingP) Harmless bookArrivals where
  erased := ofTickerOrHeartbeat
  Rel := WithoutTickers productId
  hidden s t e s' hrel hg he h := by
    cases e with
    | arrive m => exact ⟨hidden_arrive hrel he hg h, if_pos he⟩
    | hand => exact ⟨hidden_hand hrel he h, rfl⟩
    | complete body => cases he
    | take => cases he
  shown s t e s' hrel hg he h := by
    cases e with
    | arrive m => exact shown_arrive hrel he h
    | hand =>
      obtain ⟨t', ht, hrel'⟩ := shown_hand hrel he h
      exact ⟨t', ht, hrel', rfl⟩
    | complete body =>
      obtain ⟨t', ht, hrel'⟩ := shown_complete hrel hg h
      exact ⟨t', ht, hrel', rfl⟩
    | take =>
      obtain ⟨t', ht, hrel'⟩ := shown_take hrel h
      exact ⟨t', ht, hrel', rfl⟩

/-- Without the tickers and heartbeats the run emits the same changes, and requests a new
snapshot for the same book messages. -/
def UnaffectedByTickers (FloatingP : Type) [FloatingPoint FloatingP] (productId : String)
    (es : List FeedEvent) : Prop :=
  ∀ s : FeedState FloatingP, (feedMachine FloatingP).run (.initial productId) es = some s →
    ∃ t, (feedMachine FloatingP).run (.initial productId)
        ((feedMachine FloatingP).without ofTickerOrHeartbeat (.initial productId) es) = some t ∧
      t.emitted = s.emitted ∧
      (feedMachine FloatingP).observed bookArrivals (.initial productId)
          ((feedMachine FloatingP).without ofTickerOrHeartbeat (.initial productId) es) =
        (feedMachine FloatingP).observed bookArrivals (.initial productId) es

/-- **Harmless tickers and heartbeats do not disturb the book.** -/
theorem tickers_harmless {productId : String} {es : List FeedEvent}
    (hg : (feedMachine FloatingP).Guarded Harmless (.initial productId) es) :
    UnaffectedByTickers FloatingP productId es := by
  intro s hrun
  obtain ⟨t, ht, hrel, hsame⟩ :=
    (tickerErasure FloatingP productId).run_without (withoutTickers_initial productId) hg hrun
  exact ⟨t, ht, hrel.emitted, hsame⟩

/-! ## A ticker before a message of its number -/

def tickerMsg (seq : UInt64) : Json :=
  .object [("type", .string "ticker"), ("sequence", .unsigned seq),
    ("product_id", .string "ETH-USD"), ("price", .string "100")]

/-- A ticker has the number of the message before it, while a book is being fetched and
again in live mode. -/
def tickerBehind : List FeedEvent :=
  [.arrive (doneMsg "sell" "A" 5), .arrive (tickerMsg 5), .complete (.json (bookMsg 4 [] [])),
    .take, .hand, .arrive (tickerMsg 5), .arrive (doneMsg "sell" "B" 6), .take, .hand]

theorem tickers_harmless_behind :
    (∃ s, (feedMachine Int).run (.initial "ETH-USD") tickerBehind = some s) ∧
      UnaffectedByTickers Int "ETH-USD" tickerBehind := by
  have haccepts : Accepts (.json (bookMsg 4 [] [])) (bookMsg 4 [] []) 4 := ⟨rfl, rfl, by decide⟩
  refine ⟨Option.isSome_iff_exists.mp rfl, tickers_harmless ?_⟩
  refine Machine.guarded_cons _ (fun hm => absurd hm (by decide)) rfl ?_
  refine Machine.guarded_cons _ (fun _ hlive => absurd hlive (by decide)) rfl ?_
  refine Machine.guarded_cons _ ?_ rfl ?_
  · intro j S ha
    obtain ⟨rfl, rfl⟩ := haccepts.unique ha
    rfl
  refine Machine.guarded_cons _ trivial rfl (Machine.guarded_cons _ trivial rfl ?_)
  refine Machine.guarded_cons _ (fun _ _ => ⟨by decide, by decide⟩) rfl ?_
  refine Machine.guarded_cons _ (fun hm => absurd hm (by decide)) rfl ?_
  refine Machine.guarded_cons _ trivial rfl (Machine.guarded_cons _ trivial rfl ?_)
  exact Machine.guarded_nil _ _ _

/-- A ticker has the number of the next message. -/
def tickerAhead : List FeedEvent :=
  [.complete (.json (bookMsg 4 [] [])), .take, .hand, .arrive (tickerMsg 5),
    .arrive (doneMsg "sell" "A" 5), .arrive (doneMsg "sell" "B" 6), .take, .hand, .hand]

/-- The ticker is counted as number 5, and the message with this number is lost. -/
theorem ticker_disturbs : ¬ UnaffectedByTickers Int "ETH-USD" tickerAhead := by
  intro h
  obtain ⟨s, hs⟩ : ∃ s, (feedMachine Int).run (.initial "ETH-USD") tickerAhead = some s :=
    Option.isSome_iff_exists.mp rfl
  obtain ⟨t, ht, hemitted, -⟩ := h s hs
  have hwith : (((feedMachine Int).run (.initial "ETH-USD") tickerAhead).map fun s =>
      s.emitted.map ProductChange.getSequenceNumber) = some [4, 6] := rfl
  have hwithout : (((feedMachine Int).run (.initial "ETH-USD")
      ((feedMachine Int).without ofTickerOrHeartbeat (.initial "ETH-USD") tickerAhead)).map fun s =>
      s.emitted.map ProductChange.getSequenceNumber) = some [4, 5] := rfl
  rw [hs, Option.map_some] at hwith
  rw [ht, Option.map_some, hemitted] at hwithout
  exact absurd (hwithout.symm.trans hwith) (by decide)

end QuoteServer
