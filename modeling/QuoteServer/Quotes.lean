import QuoteServer.Lib.Sampling
import QuoteServer.Coinbase.Replica
import QuoteServer.Coinbase.Resync
import QuoteServer.Provenance

/-!
# What the subscribers of a product see

The way of a quote goes from the exchange's messages through a feed product, the market's
pending changes and its drains to the product's publisher. What comes out at the end is,
for a feed without a hole, the order book of the exchange's messages at increasing
sequence numbers: no book older than one published before, none twice, and each exactly
the snapshot with the messages up to its number (`published_sampled`). A subscriber that
misses some of them still sees increasing numbers.

If the feed product has to ask for its book again, the same is known once everything came
to rest (`caught_up`).
-/

namespace QuoteServer

open EventMachine KeyedBatch OrderLedger Sampling CoinbaseFeedMessageHandler

variable {FloatingP : Type}

/-! ## Books at sequence numbers -/

/-- The book at the number `k`: the snapshot `r` and the messages up to `k`, read one by
one. -/
def ReplicaAt [FloatingPoint FloatingP] (productId : String) (r : Json) (msgs : List Json)
    (k : Nat) (book : OrderBook FloatingP) : Prop :=
  ∃ pcs, changesOf productId (r :: upTo k msgs) = .ok pcs ∧ book = OrderBook.replay {} pcs

/-- Messages with the numbers `S + 1`, `S + 2`, …, up to one of them. -/
theorem upTo_of_numbered {S : Nat} {msgs : List Json}
    (h : msgs.map seqOf = List.range' (S + 1) msgs.length) (i : Nat) :
    upTo (S + i) msgs = msgs.take i := by
  have hbefore : (msgs.take i).filter (fun jmsg => decide (seqOf jmsg ≤ S + i)) = msgs.take i := by
    refine List.filter_eq_self.mpr fun m hm => ?_
    have hmem : seqOf m ∈ (msgs.map seqOf).take i := by
      rw [← List.map_take]
      exact List.mem_map_of_mem hm
    obtain ⟨j, hj, hseq⟩ := List.mem_take_iff_getElem.mp hmem
    simp only [h, List.getElem_range', Nat.one_mul] at hseq
    rw [decide_eq_true_iff]
    omega
  have hafter : (msgs.drop i).filter (fun jmsg => decide (seqOf jmsg ≤ S + i)) = [] := by
    refine List.filter_eq_nil_iff.mpr fun m hm => ?_
    have hmem : seqOf m ∈ (msgs.map seqOf).drop i := by
      rw [← List.map_drop]
      exact List.mem_map_of_mem hm
    rw [h, List.drop_range', Nat.mul_one] at hmem
    have hge := (List.mem_range'_1.mp hmem).1
    rw [decide_eq_true_iff]
    omega
  conv_lhs => rw [← List.take_append_drop i msgs]
  rw [upTo, List.filter_append, hbefore, hafter, List.append_nil]

/-- The books after some batches of changes, none empty, are the books after increasing
numbers of changes. -/
theorem sampled_booksAfter [Sub FloatingP] (book : OrderBook FloatingP)
    {batches : List (List (ProductChange FloatingP))} {all more : List (ProductChange FloatingP)}
    (hnonempty : ∀ batch ∈ batches, batch ≠ []) (hall : all = batches.flatten ++ more) :
    Sampled (fun k b => b = book.replay (all.take k)) 1 batches.flatten.length
      (booksAfter book batches) := by
  induction batches using List.reverseRecOn generalizing more with
  | nil => exact sampled_nil _ _ _
  | append_singleton batches batch ih =>
    have hflat : (batches ++ [batch]).flatten = batches.flatten ++ batch := by simp
    rw [booksAfter_concat]
    have hlast : 0 < batch.length :=
      List.length_pos_iff.mpr (hnonempty batch (by simp))
    have hsplit : all = batches.flatten ++ (batch ++ more) := by
      rw [hall, hflat, List.append_assoc]
    have hbefore := ih (fun b hb => hnonempty b (List.mem_append_left _ hb)) hsplit
    refine hbefore.concat ?_ ?_ ?_
    · rw [hflat, List.length_append]
      omega
    · rw [hflat, List.length_append]
      omega
    · rw [hall, List.take_left]

variable [FloatingPoint FloatingP]

/-- A number of changes and the sequence number of the message that the last of them comes
from. -/
structure Reaches (productId : String) (S : Nat) (merged : Json) (waiting live : List Json)
    (out : List (ProductChange FloatingP)) (k j : Nat) : Prop where
  message : ∃ m ≤ live.length, j = S + (waiting.length + m) ∧
    changesOf productId (merged :: live.take m) = .ok (out.take k)

theorem exists_reaches {productId : String} {S : Nat} {merged : Json}
    {waiting live : List Json} {out : List (ProductChange FloatingP)} {k : Nat}
    (h : changesOf productId (merged :: live) = .ok out) (hk : 1 ≤ k) (hlen : k ≤ out.length) :
    ∃ j, Reaches productId S merged waiting live out k j := by
  obtain ⟨i, rfl⟩ : ∃ i, k = i + 1 := ⟨k - 1, by omega⟩
  have hi : i < out.length := by omega
  have hsplit : out = out.take i ++ out[i] :: out.drop (i + 1) := by
    rw [List.getElem_cons_drop, List.take_append_drop]
  have hread := h
  rw [hsplit] at hread
  obtain ⟨pre, msg, post, heq, hpre, hmsg⟩ := changesOf_split hread
  -- the message of the last change, and those before it
  have hcount : pre.length ≤ live.length := by
    have hl := congrArg List.length heq
    rw [List.length_cons, List.length_append, List.length_cons] at hl
    omega
  have hthrough : merged :: live.take pre.length = pre ++ [msg] := by
    have htake : (merged :: live).take (pre.length + 1) = pre ++ [msg] := by
      rw [heq, List.take_length_add_append]
      rfl
    rw [← htake, List.take_succ_cons]
  refine ⟨_, ⟨pre.length, hcount, rfl, ?_⟩⟩
  rw [hthrough, List.take_succ_eq_append_getElem hi]
  exact changesOf_append hpre (changesOf_cons_ok.mpr ⟨_, [], hmsg, rfl, rfl⟩)

/-- More changes come from later messages. -/
theorem Reaches.lt {productId : String} {S : Nat} {merged : Json} {waiting live : List Json}
    {out : List (ProductChange FloatingP)} {k k' j j' : Nat}
    (h : Reaches productId S merged waiting live out k j)
    (h' : Reaches productId S merged waiting live out k' j') (hlen : k' ≤ out.length)
    (hlt : k < k') : j < j' := by
  obtain ⟨m, -, rfl, hm⟩ := h.message
  obtain ⟨m', -, rfl, hm'⟩ := h'.message
  by_contra hle
  have hmm : m' ≤ m := by omega
  -- fewer messages have no more changes
  have hmore : merged :: live.take m = merged :: live.take m' ++ (live.take m).drop m' := by
    rw [List.cons_append]
    congr 1
    conv_lhs => rw [← List.take_append_drop m' (live.take m)]
    rw [List.take_take, Nat.min_eq_left hmm]
  rw [hmore] at hm
  obtain ⟨pcs, qcs, hpcs, -, heq⟩ := changesOf_append_ok.mp hm
  obtain rfl : out.take k' = pcs := Except.ok.inj (hm'.symm.trans hpcs)
  have hl := congrArg List.length heq
  rw [List.length_append, List.length_take, List.length_take] at hl
  omega

/-- The book after some of the changes is the replica at the number they reach. -/
theorem Reaches.replicaAt {productId : String} {S : Nat} {r merged : Json}
    {waiting live later : List Json} {out : List (ProductChange FloatingP)} {k j : Nat}
    (h : Reaches productId S merged waiting live out k j) (hm : MergedBook r merged waiting)
    (hfull : isFullOrderBook r = true) (hown : toMergeOf r = [])
    (hnumbered : (waiting ++ (live ++ later)).map seqOf =
      List.range' (S + 1) (waiting ++ (live ++ later)).length) :
    ReplicaAt productId r (waiting ++ (live ++ later)) j
      (OrderBook.replay {} (out.take k)) := by
  obtain ⟨m, hle, rfl, hchanges⟩ := h.message
  have hupto : upTo (S + (waiting.length + m)) (waiting ++ (live ++ later)) =
      waiting ++ live.take m := by
    rw [upTo_of_numbered hnumbered, List.take_length_add_append, List.take_append_of_le_length hle]
  obtain ⟨pcs, hpcs, hbook⟩ := replay_merged hm hfull hown hchanges
  refine ⟨pcs, ?_, hbook _⟩
  rw [hupto]
  exact hpcs

/-- What a feed product passed on from its book on, applied batch by batch, gives the
replica at increasing sequence numbers. -/
theorem sampled_replicas {productId : String} {S : Nat} {r : Json} {msgs : List Json}
    {out waiting : List (ProductChange FloatingP)} {batches : List (List (ProductChange FloatingP))}
    (hfull : isFullOrderBook r = true) (hown : toMergeOf r = [])
    (hnumbered : msgs.map seqOf = List.range' (S + 1) msgs.length)
    (hout : out = [] ∨ FromBook productId r msgs out)
    (hnonempty : ∀ batch ∈ batches, batch ≠ []) (hdrained : batches.flatten ++ waiting = out) :
    Sampled (ReplicaAt productId r msgs) S (S + msgs.length) (booksAfter {} batches) := by
  rcases hout with rfl | ⟨merged, ms, live, later, hm, rfl, hchanges⟩
  · -- nothing was passed on, so there is no batch
    obtain ⟨hflat, -⟩ := List.append_eq_nil_iff.mp hdrained
    cases batches with
    | nil => exact sampled_nil _ _ _
    | cons batch batches =>
      have hbatch := hnonempty batch List.mem_cons_self
      exact absurd (List.append_eq_nil_iff.mp hflat).1 hbatch
  · have hlen : batches.flatten.length ≤ out.length := by
      rw [← hdrained, List.length_append]
      omega
    have hbooks : Sampled (fun k b => b = OrderBook.replay {} (out.take k)) 1
        batches.flatten.length (booksAfter {} batches) :=
      sampled_booksAfter {} hnonempty hdrained.symm
    refine hbooks.reindex (T := Reaches productId S merged ms live out) ?_ ?_ ?_
    · intro k hlo hhi
      have hreach : ∃ j, Reaches productId S merged ms live out k j :=
        exists_reaches hchanges hlo (by omega)
      obtain ⟨j, hj⟩ := hreach
      obtain ⟨m, hmle, rfl, -⟩ := hj.message
      refine ⟨_, hj, by omega, ?_⟩
      rw [List.length_append, List.length_append]
      omega
    · intro k k' j j' _ hhi hj hj' hlt
      exact hj.lt hj' (by omega) hlt
    · rintro k j book - - hj rfl
      exact hj.replicaAt hm hfull hown hnumbered

/-! ## Whole runs of the server -/

/-- The condition on a step: a drain leaves the book of the product that the order of
delivery would. -/
def DrainsKeepOrder (p : String) (s : MarketState FloatingP) (e : ServerEvent FloatingP) : Prop :=
  ∀ me, e = .market me → KeepsOrder p s me

/-- Since the subscription that created a product, with nothing of it pending, its feed
product supplies it. -/
theorem fed_of_run {provider : EndpointProvider} {p c : String}
    {pre post : List (ServerEvent FloatingP)} {s₀ s₁ s : MarketState FloatingP}
    (hpre : (serverMachine provider).run {} pre = some s₀)
    (hnone : s₀.market.products p = none) (hnothing : s₀.waiting p = [])
    (hcreated : s₀.serverStep provider (.market (.subscribeProduct c p)) = some s₁)
    (hpost : (serverMachine provider).run s₁ post = some s)
    (hstays : StaysIn (serverMachine provider) p s₁ post)
    (hg : (serverMachine provider).Guarded (DrainsKeepOrder p) s₁ post) :
    ∃ product₀ arrived f product batches, product₀.orderBook = {} ∧
      product₀.publisher.published = [] ∧
      Fed p product₀ arrived s f product batches ∧
      (feedMachine FloatingP).run (.initial p) (feedEvents p post) = some f := by
  have hs₀ : Registered s₀.market := registered_of_run hpre
  obtain ⟨product₀, hbook, hpublished, hlife⟩ := lifetime_created hs₀ hnone hnothing hcreated
  obtain ⟨f, hlistener, hfeed⟩ :=
    feed_of_server hlife.registered hlife.listener hstays hpost
  have hend : ∃ arrived f' product batches, Fed p product₀ arrived s f' product batches := by
    refine (serverMachine provider).history_rule
      (I := fun es s => StaysIn (serverMachine provider) p s₁ es → ∃ arrived f' product batches,
        Fed p product₀ arrived s f' product batches)
      ?_ ?_ hg hpost hstays
    · exact fun _ => ⟨[], _, _, [], hlife.fed⟩
    · intro es t e t' hes ih hge hstep hstays'
      obtain ⟨arrived, f', product, batches, ht⟩ := ih hstays'.init
      obtain ⟨arrived', f'', product', batches', ht', -⟩ :=
        fed_step ht hge (hstays'.last hes hstep) hstep
      exact ⟨arrived', f'', product', batches', ht'⟩
  obtain ⟨arrived, f', product, batches, hlast⟩ := hend
  obtain rfl : f = f' := Option.some.inj (hlistener.symm.trans hlast.listener)
  exact ⟨product₀, arrived, f, product, batches, hbook, hpublished, hlast, hfeed⟩

/-- The changes drained and those still waiting are what the feed product passed on. -/
theorem Fed.drained {p : String} {product₀ product : Product FloatingP}
    {arrived : List (ProductChange FloatingP)} {s : MarketState FloatingP}
    {f : FeedState FloatingP} {batches : List (List (ProductChange FloatingP))}
    (h : Fed p product₀ arrived s f product batches) :
    batches.flatten ++ s.waiting p = f.emitted := by
  rw [h.inOrder.drained, h.delivered, List.nil_append]

/-- The books published so far are the replicas at increasing sequence numbers. -/
theorem Fed.sampled {p : String} {S : Nat} {r : Json} {es : List FeedEvent}
    {product₀ product : Product FloatingP} {arrived : List (ProductChange FloatingP)}
    {s : MarketState FloatingP} {f : FeedState FloatingP}
    {batches : List (List (ProductChange FloatingP))}
    (h : Fed p product₀ arrived s f product batches) (hbook : product₀.orderBook = {})
    (hpublished : product₀.publisher.published = []) (hb : FirstBook (S + 1) S r)
    (hl : FollowedWithoutHole S r [] es)
    (hfeed : (feedMachine FloatingP).run (.initial p) es = some f) :
    Sampled (ReplicaAt p r (newerArrivals S es)) S (S + (newerArrivals S es).length)
      product.publisher.published := by
  rw [h.inOrder.published, hpublished, hbook, List.nil_append]
  -- what a new product passes on begins with its book
  obtain ⟨done, rest, held, out, hheld, hpcs, hemitted, hout⟩ := emitted_since hb rfl hl hfeed
  obtain ⟨rfl, -⟩ := List.append_eq_nil_iff.mp hheld.symm
  cases hpcs
  have hsince : sinceBook S [] es = newerArrivals S es := List.nil_append _
  have hnumbered := hl.numbered
  rw [hsince] at hnumbered
  refine sampled_replicas hb.full hb.own hnumbered ?_ h.inOrder.nonempty
    (h.drained.trans hemitted)
  rw [← hsince]
  exact hout

/-! ## A product whose changes are drained one by one -/

/-- A drain of one change keeps the order. -/
theorem drainsKeepOrder_of_few {p : String} {t : MarketState FloatingP}
    (hfew : t.currentChanges.length ≤ 1) (e : ServerEvent FloatingP) : DrainsKeepOrder p t e := by
  rintro me rfl
  refine (orderDoesNotMatter_of_one fun pc hpc pc' hpc' => ?_).keepsOrder
  obtain ⟨hpc, -⟩ := KeyedBatch.mem_forKey.mp hpc
  obtain ⟨hpc', -⟩ := KeyedBatch.mem_forKey.mp hpc'
  obtain ⟨i, hi, rfl⟩ := List.mem_iff_getElem.mp hpc
  obtain ⟨j, hj, rfl⟩ := List.mem_iff_getElem.mp hpc'
  obtain rfl : i = j := by omega
  rfl

/-- Where the product is there in every state of a run, and at most one change is drained, no
drain can get anything out of order. -/
theorem quiet_of_prefixes {provider : EndpointProvider} {p : String} {s : MarketState FloatingP}
    {es : List (ServerEvent FloatingP)}
    (h : (List.range (es.length + 1)).all (fun i =>
      ((serverMachine provider).run s (es.take i)).all fun t =>
        (t.market.products p).isSome && decide (t.currentChanges.length ≤ 1)) = true) :
    StaysIn (serverMachine provider) p s es ∧
      (serverMachine provider).Guarded (DrainsKeepOrder p) s es := by
  have hpre : ∀ pre post t, es = pre ++ post → (serverMachine provider).run s pre = some t →
      (t.market.products p).isSome = true ∧ t.currentChanges.length ≤ 1 := by
    intro pre post t hes ht
    have hlength : pre.length < es.length + 1 := by
      rw [hes, List.length_append]
      omega
    have hi := List.all_eq_true.mp h pre.length (List.mem_range.mpr hlength)
    rw [show es.take pre.length = pre by rw [hes, List.take_left], ht] at hi
    rw [Option.all_some, Bool.and_eq_true, decide_eq_true_eq] at hi
    exact hi
  refine ⟨fun pre post t hes ht => (hpre pre post t hes ht).1, fun pre e post t hes ht => ?_⟩
  exact drainsKeepOrder_of_few (hpre pre (e :: post) t hes ht).2 e

/-- The order book is fetched and published, and the book with one more order after it. -/
def bookPublished : List (ServerEvent Int) :=
  bookPassedOn ++ [.market .takeChanges, .market (.processChanges [0]),
    .feed "ETH-USD" (.arrive (openMsg "sell" "B" "101" "4" 2)), .feed "ETH-USD" .take,
    .feed "ETH-USD" .hand, .market .takeChanges, .market (.processChanges [0])]

theorem run_bookPublished : ∃ s : MarketState Int,
    (serverMachine .ethUsd).run subscribed bookPublished = some s ∧
      (s.market.products "ETH-USD").map (fun product => product.publisher.published) =
        some [⟨[⟨100, 5, "A"⟩], []⟩, ⟨[⟨100, 5, "A"⟩], [⟨101, 4, "B"⟩]⟩] := by
  have hrun : ((serverMachine .ethUsd).run subscribed bookPublished).any (fun s =>
      decide ((s.market.products "ETH-USD").map (fun product => product.publisher.published) =
        some [⟨[⟨100, 5, "A"⟩], []⟩, ⟨[⟨100, 5, "A"⟩], [⟨101, 4, "B"⟩]⟩])) = true := by
    decide +kernel
  obtain ⟨s, hs, hpublished⟩ := (Option.any_eq_true _ _).mp hrun
  exact ⟨s, hs, of_decide_eq_true hpublished⟩

theorem quiet_bookPublished :
    StaysIn (serverMachine .ethUsd) "ETH-USD" subscribed bookPublished ∧
      (serverMachine .ethUsd).Guarded (DrainsKeepOrder "ETH-USD") subscribed bookPublished :=
  quiet_of_prefixes (by decide +kernel)

theorem firstBook_oneBid : FirstBook (1 + 1) 1 (bookMsg 1 [("100", "5", "A")] []) :=
  ⟨rfl, rfl, rfl, by decide, by decide, by decide⟩

/-- One message follows the book. -/
theorem followedWithoutHole_of_one {S : Nat} {r m : Json} {queue : List Queued}
    {es : List FeedEvent} (hanswer : (answers es).head? = some (.json r))
    (hsince : sinceBook S queue es = [m]) (hnext : seqOf m = S + 1) (hbound : S + 1 < 2 ^ 64 - 1) :
    FollowedWithoutHole S r queue es := by
  refine ⟨?_, fun body hbody => ?_, fun m' hm' => ?_⟩
  · rw [hsince, List.map_singleton, hnext]
    rfl
  · rw [hanswer] at hbody
    exact (Option.some.inj hbody).symm
  · rw [hsince] at hm'
    rw [List.mem_singleton.mp hm', hnext]
    exact hbound

theorem followed_bookPublished : FollowedWithoutHole 1 (bookMsg 1 [("100", "5", "A")] []) []
    (feedEvents "ETH-USD" bookPublished) :=
  followedWithoutHole_of_one rfl rfl rfl (by decide)

/-- **What subscribers see is the exchange's book at increasing numbers.** From the
subscription that creates a product on, with nothing of it pending, over every interleaving
of the feed threads, the market thread and the calls of clients, for a feed whose messages
above its first book follow it one by one, and drains that keep the order of delivery:
whatever part of the published books a subscriber receives, they are the replicas at
increasing sequence numbers, from the snapshot's own on. -/
theorem published_sampled {provider : EndpointProvider} {p c : String} {S : Nat} {r : Json}
    {pre post : List (ServerEvent FloatingP)} {s₀ s₁ s : MarketState FloatingP}
    (hpre : (serverMachine provider).run {} pre = some s₀)
    (hnone : s₀.market.products p = none) (hnothing : s₀.waiting p = [])
    (hcreated : s₀.serverStep provider (.market (.subscribeProduct c p)) = some s₁)
    (hpost : (serverMachine provider).run s₁ post = some s)
    (hstays : StaysIn (serverMachine provider) p s₁ post)
    (hg : (serverMachine provider).Guarded (DrainsKeepOrder p) s₁ post)
    (hb : FirstBook (S + 1) S r) (hl : FollowedWithoutHole S r [] (feedEvents p post)) :
    ∃ product, s.market.products p = some product ∧
      ∀ received, received.Sublist product.publisher.published →
        Sampled (ReplicaAt p r (newerArrivals S (feedEvents p post))) S
          (S + (newerArrivals S (feedEvents p post)).length) received := by
  obtain ⟨product₀, arrived, f, product, batches, hbook, hpublished, hfed, hfeed⟩ :=
    fed_of_run hpre hnone hnothing hcreated hpost hstays hg
  exact ⟨product, hfed.inOrder.product_eq, fun received hreceived =>
    (hfed.sampled hbook hpublished hb hl hfeed).of_sublist hreceived⟩

theorem published_sampled_opened : ∃ s : MarketState Int,
    (serverMachine .ethUsd).run subscribed bookPublished = some s ∧
      ∃ product, s.market.products "ETH-USD" = some product ∧
        product.publisher.published =
          [⟨[⟨100, 5, "A"⟩], []⟩, ⟨[⟨100, 5, "A"⟩], [⟨101, 4, "B"⟩]⟩] ∧
        Sampled (ReplicaAt "ETH-USD" (bookMsg 1 [("100", "5", "A")] [])
          [openMsg "sell" "B" "101" "4" 2]) 1 2 product.publisher.published := by
  obtain ⟨s, hrun, hbooks⟩ := run_bookPublished
  obtain ⟨hstays, hg⟩ := quiet_bookPublished
  have hpre : (serverMachine .ethUsd).run ({} : MarketState Int) [] = some {} := rfl
  have hcreated : MarketState.serverStep .ethUsd {}
      (.market (.subscribeProduct "1" "ETH-USD")) = some subscribed := rfl
  obtain ⟨product, hproduct, hsampled⟩ := published_sampled hpre rfl rfl hcreated hrun hstays hg
    firstBook_oneBid followed_bookPublished
  rw [hproduct] at hbooks
  exact ⟨s, hrun, product, hproduct, Option.some.inj hbooks, hsampled _ (List.Sublist.refl _)⟩

/-- The book published last is the one of the product. -/
theorem getLast?_booksAfter (book : OrderBook FloatingP)
    {batches : List (List (ProductChange FloatingP))} (hne : batches ≠ []) :
    (booksAfter book batches).getLast? = some (book.replay batches.flatten) := by
  rcases List.eq_nil_or_concat batches with rfl | ⟨init, last, rfl⟩
  · exact absurd rfl hne
  · rw [List.concat_eq_append, booksAfter_concat, List.getLast?_concat]

/-- The feed product of a product that stays, from some state of the run on. -/
theorem fed_since {provider : EndpointProvider} {p c : String}
    {pre before after : List (ServerEvent FloatingP)} {s₀ s₁ t s : MarketState FloatingP}
    {f₀ f : FeedState FloatingP}
    (hpre : (serverMachine provider).run {} pre = some s₀)
    (hnone : s₀.market.products p = none) (hnothing : s₀.waiting p = [])
    (hcreated : s₀.serverStep provider (.market (.subscribeProduct c p)) = some s₁)
    (hbefore : (serverMachine provider).run s₁ before = some t)
    (hafter : (serverMachine provider).run t after = some s)
    (hstays : StaysIn (serverMachine provider) p s₁ (before ++ after))
    (hg : (serverMachine provider).Guarded (DrainsKeepOrder p) s₁ (before ++ after))
    (hf₀ : t.market.feedClient.prodIdToListener p = some f₀)
    (hf : s.market.feedClient.prodIdToListener p = some f) :
    f₀.product.productId = p ∧ (feedMachine FloatingP).run f₀ (feedEvents p after) = some f ∧
      ∃ product₀ arrived product batches, product₀.orderBook = {} ∧
        product₀.publisher.published = [] ∧ Fed p product₀ arrived s f product batches := by
  have hpost := (Machine.run_append_some _).mpr ⟨t, hbefore, hafter⟩
  obtain ⟨product₀, arrived, f', product, batches, hbook, hpublished, hfed, hfeed⟩ :=
    fed_of_run hpre hnone hnothing hcreated hpost hstays hg
  obtain rfl : f = f' := Option.some.inj (hf.symm.trans hfed.listener)
  have hrun₁ : (serverMachine provider).run {} (pre ++ [.market (.subscribeProduct c p)]) =
      some s₁ := (Machine.run_snoc _).mpr ⟨s₀, hpre, hcreated⟩
  have hrun : (serverMachine provider).run {}
      (pre ++ [.market (.subscribeProduct c p)] ++ before) = some t :=
    (Machine.run_append_some _).mpr ⟨s₁, hrun₁, hbefore⟩
  refine ⟨(registered_of_run hrun).ids p f₀ hf₀, ?_, product₀, arrived, product, batches, hbook,
    hpublished, hfed⟩
  -- the run of the feed product since its creation, cut where it was `f₀`
  have hlistener : s₁.market.feedClient.prodIdToListener p = some (.initial p) := by
    obtain ⟨_, _, _, hlife⟩ := lifetime_created (registered_of_run hpre) hnone hnothing hcreated
    exact hlife.listener
  obtain ⟨g, hg₀, hgrun⟩ := feed_of_server (registered_of_run hrun₁) hlistener
    (Machine.Always.append_left hstays) hbefore
  obtain rfl : f₀ = g := Option.some.inj (hf₀.symm.trans hg₀)
  rw [feedEvents_append] at hfeed
  obtain ⟨f₁, hf₁, hlast⟩ := (Machine.run_append_some _).mp hfeed
  obtain rfl : f₀ = f₁ := Option.some.inj (hgrun.symm.trans hf₁)
  exact hlast

/-- With nothing left to hand over or to drain, the book of the product is the one that `r`
and every message above it leave, and it is the one published last. -/
theorem Fed.exact {p : String} {S : Nat} {r : Json} {es : List FeedEvent}
    {product₀ product : Product FloatingP} {arrived : List (ProductChange FloatingP)}
    {s : MarketState FloatingP} {f₀ f : FeedState FloatingP}
    {batches : List (List (ProductChange FloatingP))}
    (h : Fed p product₀ arrived s f product batches) (hbook : product₀.orderBook = {})
    (hpublished : product₀.publisher.published = []) (hid : f₀.product.productId = p)
    (hb : FirstBook (S + 1) S r) (hreq : f₀.product.requestingOrderbook = true)
    (hl : FollowedWithoutHole S r f₀.product.messageQueue es)
    (hrun : (feedMachine FloatingP).run f₀ es = some f) (hd : Drained f)
    (hrest : s.waiting p = []) :
    ∃ pcs, changesOf p (r :: sinceBook S f₀.product.messageQueue es) = .ok pcs ∧
      product.orderBook = OrderBook.replay {} pcs ∧
      product.publisher.published.getLast? = some product.orderBook := by
  obtain ⟨hne, pcs, hpcs, hreplay⟩ := replay_restarted hb hreq hl hrun hd
  rw [hid] at hpcs
  have hflat : batches.flatten = f.emitted := by
    rw [← h.drained, hrest, List.append_nil]
  refine ⟨pcs, hpcs, ?_, ?_⟩
  · rw [h.inOrder.book, hbook, hflat, hreplay]
  · have hbatches : batches ≠ [] := by
      rintro rfl
      exact hne hflat.symm
    rw [h.inOrder.published, hpublished, List.nil_append, h.inOrder.book]
    exact getLast?_booksAfter _ hbatches

/-- **At rest the subscribers have the book of the whole feed**, whatever was lost before.
The product was created with nothing of it pending, and all drains since keep the order of
delivery. If the feed product asks for its book in some state of the run, is answered with
`r`, and the messages above its number follow it one by one, then once nothing is left to
hand over or to drain, the book of the product and the last one it published are those of
`r` and every message above it. -/
theorem caught_up {provider : EndpointProvider} {p c : String} {S : Nat} {r : Json}
    {pre before after : List (ServerEvent FloatingP)} {s₀ s₁ t s : MarketState FloatingP}
    {f₀ f : FeedState FloatingP}
    (hpre : (serverMachine provider).run {} pre = some s₀)
    (hnone : s₀.market.products p = none) (hnothing : s₀.waiting p = [])
    (hcreated : s₀.serverStep provider (.market (.subscribeProduct c p)) = some s₁)
    (hbefore : (serverMachine provider).run s₁ before = some t)
    (hafter : (serverMachine provider).run t after = some s)
    (hstays : StaysIn (serverMachine provider) p s₁ (before ++ after))
    (hg : (serverMachine provider).Guarded (DrainsKeepOrder p) s₁ (before ++ after))
    (hb : FirstBook (S + 1) S r) (hf₀ : t.market.feedClient.prodIdToListener p = some f₀)
    (hreq : f₀.product.requestingOrderbook = true)
    (hl : FollowedWithoutHole S r f₀.product.messageQueue (feedEvents p after))
    (hf : s.market.feedClient.prodIdToListener p = some f) (hd : Drained f)
    (hrest : s.waiting p = []) :
    ∃ product pcs, s.market.products p = some product ∧
      changesOf p (r :: sinceBook S f₀.product.messageQueue (feedEvents p after)) = .ok pcs ∧
      product.orderBook = OrderBook.replay {} pcs ∧
      product.publisher.published.getLast? = some product.orderBook := by
  obtain ⟨hid, hsince, product₀, arrived, product, batches, hbook, hpublished, hfed⟩ :=
    fed_since hpre hnone hnothing hcreated hbefore hafter hstays hg hf₀ hf
  obtain ⟨pcs, hpcs, hexact⟩ := hfed.exact hbook hpublished hid hb hreq hl hsince hd hrest
  exact ⟨product, pcs, hfed.inOrder.product_eq, hpcs, hexact⟩

/-- The number 3 is missing before this message. -/
def gapArrives : List (ServerEvent Int) :=
  [.feed "ETH-USD" (.arrive (openMsg "buy" "C" "99" "1" 4))]

/-- The book is fetched again and published, and the book with one more order after it. -/
def bookAgain : List (ServerEvent Int) :=
  [.feed "ETH-USD" (.complete (.json (bookMsg 4 [("100", "5", "A")] [("101", "4", "B")]))),
    .feed "ETH-USD" .take, .feed "ETH-USD" .hand, .market .takeChanges,
    .market (.processChanges [0]), .feed "ETH-USD" (.arrive (openMsg "buy" "D" "98" "2" 5)),
    .feed "ETH-USD" .take, .feed "ETH-USD" .hand, .market .takeChanges,
    .market (.processChanges [0])]

theorem run_gapArrives : ∃ (t : MarketState Int) (f₀ : FeedState Int),
    (serverMachine .ethUsd).run subscribed (bookPublished ++ gapArrives) = some t ∧
      t.market.feedClient.prodIdToListener "ETH-USD" = some f₀ ∧
      f₀.product.requestingOrderbook = true ∧ f₀.product.messageQueue = [] := by
  have hrun : ((serverMachine .ethUsd).run subscribed (bookPublished ++ gapArrives)).any
      (fun t => (t.market.feedClient.prodIdToListener "ETH-USD").any fun f =>
        f.product.requestingOrderbook && f.product.messageQueue.isEmpty) = true := by
    decide +kernel
  obtain ⟨t, ht, hlistener⟩ := (Option.any_eq_true _ _).mp hrun
  obtain ⟨f, hf, hrequesting⟩ := (Option.any_eq_true _ _).mp hlistener
  rw [Bool.and_eq_true, List.isEmpty_iff] at hrequesting
  exact ⟨t, f, ht, hf, hrequesting⟩

theorem run_bookAgain : ∃ (s : MarketState Int) (f : FeedState Int),
    (serverMachine .ethUsd).run subscribed (bookPublished ++ gapArrives ++ bookAgain) = some s ∧
      s.market.feedClient.prodIdToListener "ETH-USD" = some f ∧ Drained f ∧
      s.waiting "ETH-USD" = [] := by
  have hrun : ((serverMachine .ethUsd).run subscribed
      (bookPublished ++ gapArrives ++ bookAgain)).any (fun s =>
        (s.waiting "ETH-USD").isEmpty &&
          (s.market.feedClient.prodIdToListener "ETH-USD").any fun f =>
            !f.product.requestingOrderbook && f.product.messageQueue.isEmpty &&
              f.messages.isEmpty) = true := by
    decide +kernel
  obtain ⟨s, hs, hempty⟩ := (Option.any_eq_true _ _).mp hrun
  rw [Bool.and_eq_true, List.isEmpty_iff] at hempty
  obtain ⟨f, hf, hdrained⟩ := (Option.any_eq_true _ _).mp hempty.2
  simp only [Bool.and_eq_true, List.isEmpty_iff, Bool.not_eq_true'] at hdrained
  exact ⟨s, f, hs, hf, ⟨hdrained.1.1, hdrained.1.2, hdrained.2⟩, hempty.1⟩

theorem firstBook_again :
    FirstBook (4 + 1) 4 (bookMsg 4 [("100", "5", "A")] [("101", "4", "B")]) :=
  ⟨rfl, rfl, rfl, by decide, by decide, by decide⟩

/-- A message is lost, the book is fetched again, and a message follows it. -/
theorem caught_up_opened : ∃ (t s : MarketState Int) (f₀ : FeedState Int) (product : Product Int)
    (pcs : List (ProductChange Int)),
    (serverMachine .ethUsd).run subscribed (bookPublished ++ gapArrives) = some t ∧
      t.market.feedClient.prodIdToListener "ETH-USD" = some f₀ ∧
      f₀.product.requestingOrderbook = true ∧
      (serverMachine .ethUsd).run t bookAgain = some s ∧
      s.market.products "ETH-USD" = some product ∧
      changesOf "ETH-USD" [bookMsg 4 [("100", "5", "A")] [("101", "4", "B")],
        openMsg "buy" "D" "98" "2" 5] = .ok pcs ∧
      product.orderBook = OrderBook.replay {} pcs ∧
      product.publisher.published.getLast? = some product.orderBook := by
  obtain ⟨t, f₀, hbefore, hf₀, hreq, hqueue⟩ := run_gapArrives
  obtain ⟨s, f, hrun, hf, hd, hrest⟩ := run_bookAgain
  obtain ⟨t', ht', hafter⟩ := (Machine.run_append_some _).mp hrun
  obtain rfl : t = t' := Option.some.inj (hbefore.symm.trans ht')
  obtain ⟨hstays, hg⟩ : StaysIn (serverMachine .ethUsd) "ETH-USD" subscribed
        (bookPublished ++ gapArrives ++ bookAgain) ∧
      (serverMachine .ethUsd).Guarded (DrainsKeepOrder "ETH-USD") subscribed
        (bookPublished ++ gapArrives ++ bookAgain) := quiet_of_prefixes (by decide +kernel)
  have hl : FollowedWithoutHole 4 (bookMsg 4 [("100", "5", "A")] [("101", "4", "B")])
      f₀.product.messageQueue (feedEvents "ETH-USD" bookAgain) := by
    rw [hqueue]
    exact followedWithoutHole_of_one rfl rfl rfl (by decide)
  have hpre : (serverMachine .ethUsd).run ({} : MarketState Int) [] = some {} := rfl
  have hcreated : MarketState.serverStep .ethUsd {}
      (.market (.subscribeProduct "1" "ETH-USD")) = some subscribed := rfl
  obtain ⟨product, pcs, hproduct, hpcs, hbook, hlast⟩ := caught_up hpre rfl rfl hcreated hbefore
    hafter hstays hg firstBook_again hf₀ hreq hl hf hd hrest
  rw [hqueue] at hpcs
  exact ⟨t, s, f₀, product, pcs, hbefore, hf₀, hreq, hafter, hproduct, hpcs, hbook, hlast⟩

/-! ## The exchange's own book -/

section

variable [LE FloatingP]

/-- The first messages of a well-formed list are well-formed. -/
theorem wellFormed_take {l : Ledger String Side FloatingP}
    {msgs : List (Message String Side FloatingP)} (h : WellFormed l msgs) (i : Nat) :
    WellFormed l (msgs.take i) := by
  intro pre m post l' heq hrun
  refine h pre m (post ++ msgs.drop i) l' ?_ hrun
  conv_lhs => rw [← List.take_append_drop i msgs]
  rw [heq, List.append_assoc, List.cons_append]

/-- A book with every order ever listed, and when it is the ledger's. -/
structure ListedAt (snapshot : OrderBook FloatingP) (msgs : List (Message String Side FloatingP))
    (book : OrderBook FloatingP) : Prop where
  orders : book.orders.Perm (listed snapshot.orders msgs)
  exact_iff : Replicates book ((Ledger.ofList snapshot.orders).after msgs) ↔
    Undisturbed snapshot msgs

/-- **What subscribers see of a legal exchange.** If the feed lists and reports orders by
the rules of the exchange, and reaches the subscribers as in `published_sampled`, every book
a subscriber receives has all orders listed up to its number, at the sizes they were listed
with, and it is the exchange's own book at that number exactly if none of them was closed or
resized until then. -/
theorem published_listed {provider : EndpointProvider} {p c : String} {S : Nat} {r : Json}
    {pre post : List (ServerEvent FloatingP)} {s₀ s₁ s : MarketState FloatingP}
    {snapshot : OrderBook FloatingP} {msgs : List (Message String Side FloatingP)}
    (hpre : (serverMachine provider).run {} pre = some s₀)
    (hnone : s₀.market.products p = none) (hnothing : s₀.waiting p = [])
    (hcreated : s₀.serverStep provider (.market (.subscribeProduct c p)) = some s₁)
    (hpost : (serverMachine provider).run s₁ post = some s)
    (hstays : StaysIn (serverMachine provider) p s₁ post)
    (hg : (serverMachine provider).Guarded (DrainsKeepOrder p) s₁ post)
    (hb : FirstBook (S + 1) S r) (hl : FollowedWithoutHole S r [] (feedEvents p post))
    (hr : Lists r snapshot)
    (hdistinct : ((snapshot.bids ++ snapshot.asks).map Order.orderId).Nodup)
    (hmsgs : List.Forall₂ Carries (newerArrivals S (feedEvents p post)) msgs)
    (hwf : WellFormed (Ledger.ofList snapshot.orders) msgs) :
    ∃ product, s.market.products p = some product ∧
      ∀ received, received.Sublist product.publisher.published →
        Sampled (fun k book => ListedAt snapshot (msgs.take (k - S)) book) S (S + msgs.length)
          received := by
  obtain ⟨product₀, arrived, f, product, batches, hbook, hpublished, hfed, hfeed⟩ :=
    fed_of_run hpre hnone hnothing hcreated hpost hstays hg
  refine ⟨product, hfed.inOrder.product_eq, fun received hreceived => ?_⟩
  have hlength : (newerArrivals S (feedEvents p post)).length = msgs.length := hmsgs.length_eq
  have hnumbered := hl.numbered
  rw [show sinceBook S [] (feedEvents p post) = newerArrivals S (feedEvents p post) from
    List.nil_append _] at hnumbered
  rw [← OrderBook.ids_orders] at hdistinct
  have hreplicas := (hfed.sampled hbook hpublished hb hl hfeed).of_sublist hreceived
  rw [hlength] at hreplicas
  refine hreplicas.imp ?_
  rintro k book hlo - ⟨pcs, hpcs, rfl⟩
  obtain ⟨i, rfl⟩ := Nat.exists_eq_add_of_le hlo
  rw [upTo_of_numbered hnumbered] at hpcs
  -- the changes of the first messages do what the messages say
  obtain ⟨pcs', hpcs', hfold⟩ := changesOf_feed p hr (List.forall₂_take i hmsgs)
  obtain rfl : pcs = pcs' := Except.ok.inj (hpcs.symm.trans hpcs')
  have hwf' : WellFormed (Ledger.ofList snapshot.orders) (msgs.take i) := wellFormed_take hwf i
  have hgrows := onlyGrows hdistinct hwf'
  rw [Nat.add_sub_cancel_left, hfold]
  exact ⟨hgrows, replicates_listed (recorded hdistinct hwf') hgrows⟩

/-- One bid is listed, an ask is opened after it, and both rest. -/
theorem published_listed_opened : ∃ s : MarketState Int,
    (serverMachine .ethUsd).run subscribed bookPublished = some s ∧
      ∃ product, s.market.products "ETH-USD" = some product ∧
        product.publisher.published = [oneBid, ⟨[⟨100, 5, "A"⟩], [⟨101, 4, "B"⟩]⟩] ∧
        Sampled (fun k book =>
          ListedAt oneBid (List.take (k - 1) [.opened "B" ⟨.sell, 101, 4⟩]) book) 1 2
          product.publisher.published := by
  obtain ⟨s, hrun, hbooks⟩ := run_bookPublished
  obtain ⟨hstays, hg⟩ := quiet_bookPublished
  have hpre : (serverMachine .ethUsd).run ({} : MarketState Int) [] = some {} := rfl
  have hcreated : MarketState.serverStep .ethUsd {}
      (.market (.subscribeProduct "1" "ETH-USD")) = some subscribed := rfl
  have hr : Lists (bookMsg 1 [("100", "5", "A")] []) oneBid := ⟨rfl, rfl, rfl, rfl, 1, rfl⟩
  have hmsgs : List.Forall₂ (@Carries Int _)
      (newerArrivals 1 (feedEvents "ETH-USD" bookPublished))
      [.opened "B" ⟨.sell, 101, 4⟩] :=
    .cons (.opened ⟨rfl, rfl, rfl, 2, rfl⟩ rfl rfl rfl) .nil
  have hwf : WellFormed (Ledger.ofList oneBid.orders) [.opened "B" ⟨.sell, 101, 4⟩] :=
    Machine.guarded_cons _ (show "B" ∉ ["A"] by decide) rfl (Machine.guarded_nil _ _ _)
  obtain ⟨product, hproduct, hreceived⟩ := published_listed hpre rfl rfl hcreated hrun hstays hg
    firstBook_oneBid followed_bookPublished hr (by decide) hmsgs hwf
  rw [hproduct] at hbooks
  exact ⟨s, hrun, product, hproduct, Option.some.inj hbooks,
    hreceived product.publisher.published (List.Sublist.refl _)⟩

end

end QuoteServer
