import QuoteServer.Coinbase.FirstReset
import QuoteServer.Coinbase.Lossless

/-!
# The number of a change and the book it leaves

A change carries the sequence number of its message, and a reset that of its snapshot,
whatever was merged into it. On a lossless feed the book after a live change is therefore
the one its number says. After the reset it is the book of the last message merged, under
the number of the snapshot: the two agree exactly if the merged messages leave the
snapshot's book as it is (`labels_right_iff`).
-/

namespace QuoteServer

open EventMachine CoinbaseFeedMessageHandler

/-- The events before the first answer. -/
def beforeAnswer : List FeedEvent → List FeedEvent
  | [] => []
  | .complete _ :: _ => []
  | e :: es => e :: beforeAnswer es

/-- The messages above `S` that wait for the first book. -/
def waitingForBook (S : Nat) (es : List FeedEvent) : List Json :=
  newerArrivals S (beforeAnswer es)

/-- The messages up to the number `k`. -/
def upTo (k : Nat) (msgs : List Json) : List Json := msgs.filter fun jmsg => seqOf jmsg ≤ k

variable {FloatingP : Type} [FloatingPoint FloatingP]

/-- Up to and including each change passed on, the book is the snapshot with every feed
message up to the number of that change, and no other. -/
def LabelsRight (productId : String) (S : Nat) (r : Json) (es : List FeedEvent)
    (emitted : List (ProductChange FloatingP)) : Prop :=
  ∀ out c rest, emitted = out ++ c :: rest →
    ∃ pcs, changesOf productId (r :: upTo c.getSequenceNumber (newerArrivals S es)) = .ok pcs ∧
      ∀ book : OrderBook FloatingP, book.replay (out ++ [c]) = book.replay pcs

/-- The messages that wait for the first book leave it as it is. -/
def WaitingChangesNothing (FloatingP : Type) [FloatingPoint FloatingP] (productId : String)
    (S : Nat) (r : Json) (es : List FeedEvent) : Prop :=
  ∀ rs pcs : List (ProductChange FloatingP), changesOf productId [r] = .ok rs →
    changesOf productId (waitingForBook S es) = .ok pcs →
    ∀ book : OrderBook FloatingP, book.replay (rs ++ pcs) = book.replay rs

/-! ## What the first book is merged with -/

theorem beforeAnswer_of_unanswered {es : List FeedEvent} (fs : List FeedEvent)
    (h : answers es = []) : beforeAnswer (es ++ fs) = es ++ beforeAnswer fs := by
  induction es with
  | nil => rfl
  | cons e es ih =>
    cases e with
    | complete body => cases h
    | arrive m => exact congrArg (FeedEvent.arrive m :: ·) (ih h)
    | take => exact congrArg (FeedEvent.take :: ·) (ih h)
    | hand => exact congrArg (FeedEvent.hand :: ·) (ih h)

theorem beforeAnswer_of_answered {es : List FeedEvent} (fs : List FeedEvent)
    (h : answers es ≠ []) : beforeAnswer (es ++ fs) = beforeAnswer es := by
  induction es with
  | nil => exact absurd rfl h
  | cons e es ih =>
    cases e with
    | complete body => rfl
    | arrive m => exact congrArg (FeedEvent.arrive m :: ·) (ih h)
    | take => exact congrArg (FeedEvent.take :: ·) (ih h)
    | hand => exact congrArg (FeedEvent.hand :: ·) (ih h)

/-- In live mode what is forwarded only grows. -/
theorem forwarded_grows {s s' : FeedState FloatingP} {e : FeedEvent}
    (hlive : s.product.requestingOrderbook = false) (hans : s.product.requestRunning = false)
    (hlive' : s'.product.requestingOrderbook = false) (h : s.step e = some s') :
    s.forwarded <+: s'.forwarded := by
  cases e with
  | arrive m =>
    obtain ⟨p, hp, rfl⟩ := step_arrive h
    rcases onMessageReceived_cases hp with
      ⟨hreq, -⟩ | ⟨-, -, rfl⟩ | ⟨-, -, rfl⟩ | ⟨-, -, rfl⟩
    · exact absurd (hlive.symm.trans hreq) (by decide)
    · cases hlive'
    · exact List.prefix_rfl
    · refine ⟨[.message m], ?_⟩
      rw [FeedState.forwarded, List.append_assoc]
      rfl
  | complete body =>
    obtain ⟨hrun, -⟩ := step_complete h
    exact absurd (hans.symm.trans hrun) (by decide)
  | take =>
    obtain ⟨hm, ⟨hreq, -⟩ | ⟨-, rfl⟩⟩ := step_take h
    · exact absurd (hlive.symm.trans hreq) (by decide)
    · refine ⟨[], ?_⟩
      rw [FeedState.forwarded, FeedState.forwarded, hm, List.append_nil, List.append_nil]
      exact (List.append_nil _).symm
  | hand =>
    obtain ⟨queued, messages, pc, hm, -, rfl⟩ := step_hand h
    refine ⟨[], ?_⟩
    rw [FeedState.forwarded, FeedState.forwarded, hm, List.append_nil,
      List.append_assoc s.handed [queued]]
    rfl

/-- The book forwarded first is merged with what waited for it. -/
def BookMerged (S : Nat) (es : List FeedEvent) (s : FeedState FloatingP) : Prop :=
  answers es ≠ [] ∧ ∃ merged record rest, s.forwarded = .fullOrderBook merged record :: rest ∧
    toMergeOf merged = waitingForBook S es

omit [FloatingPoint FloatingP] in
theorem bookMerged_step {S : Nat} {es : List FeedEvent} {e : FeedEvent}
    {s s' : FeedState FloatingP} (hs : BookMerged S es s)
    (hfwd : s.forwarded <+: s'.forwarded) : BookMerged S (es ++ [e]) s' := by
  obtain ⟨hans, merged, record, rest, hhead, hmerge⟩ := hs
  obtain ⟨more, hmore⟩ := hfwd
  refine ⟨?_, merged, record, rest ++ more, ?_, ?_⟩
  · rw [answers_append]
    exact fun h => hans (List.append_eq_nil_iff.mp h).1
  · rw [← hmore, hhead]
    rfl
  · rw [hmerge, waitingForBook, waitingForBook, beforeAnswer_of_answered _ hans]

omit [FloatingPoint FloatingP] in
/-- The book that ends the fetch is merged with everything newer that arrived. -/
theorem bookMerged_answered {productId : String} {n S : Nat} {r : Json} {es : List FeedEvent}
    {s : FeedState FloatingP} {p : CoinbaseFeedProduct} (hb : FirstBook n S r)
    (hs : Fetching productId es s)
    (h : s.product.requestFullOrderBookImpl (.json r) = .ok p) :
    BookMerged S (es ++ [.complete (.json r)]) { s with product := p } := by
  have hacc : Accepts (.json r) r S := ⟨rfl, hb.sequence, by have := hb.one_le; omega⟩
  rcases requestFullOrderBookImpl_cases h with ⟨hn, -⟩ | ⟨j, S', merged, ha, hm, rfl⟩
  · exact absurd hacc (hn r S)
  · obtain ⟨rfl, rfl⟩ := ha.unique hacc
    refine ⟨?_, merged, mergeRecord j S' s.product.messageQueue, [], ?_, ?_⟩
    · rw [answers_append, hs.unanswered]
      exact List.cons_ne_nil _ _
    · rw [FeedState.forwarded, hs.handed, hs.messages]
      rfl
    · have hbefore : beforeAnswer (es ++ [.complete (.json j)]) = es :=
        (beforeAnswer_of_unanswered _ hs.unanswered).trans (List.append_nil es)
      rw [hm.toMerge, hb.own, List.nil_append, hs.queue, ← newerArrivals_eq_newer,
        waitingForBook, hbefore]

/-- Only an answer ends a fetch. -/
theorem still_requesting {s s' : FeedState FloatingP} {e : FeedEvent}
    (hreq : s.product.requestingOrderbook = true) (hne : ∀ body, e ≠ .complete body)
    (h : s.step e = some s') : s'.product.requestingOrderbook = true := by
  have hrun : (feedMachine FloatingP).run s [e] = some s' := by
    rw [Machine.run_cons]
    exact Option.bind_eq_some_iff.mpr ⟨s', h, rfl⟩
  refine (queue_while_requesting hreq (fun body hbody => ?_) hrun).1
  exact absurd (List.mem_singleton.mp hbody).symm (hne body)

/-- Over every run of a lossless feed: once the product is live, the book forwarded first
is merged with what waited for it. -/
theorem lossless_bookMerged {productId : String} {n S : Nat} {r : Json} {es : List FeedEvent}
    {s : FeedState FloatingP} (hb : FirstBook n S r) (hl : Lossless n S r es)
    (hrun : (feedMachine FloatingP).run (.initial productId) es = some s)
    (hlive : s.product.requestingOrderbook = false) : BookMerged S es s := by
  refine (feedMachine FloatingP).history_rule
    (I := fun es s => Lossless n S r es → s.product.requestingOrderbook = false →
      BookMerged S es s) ?_ ?_ ((feedMachine FloatingP).guarded_true _ es) hrun hl hlive
  · intro _ hlive
    cases hlive
  · intro es s e s' hpre ih _ hstep hl hlive'
    have hs' : s.step e = some s' := hstep
    rcases lossless_phases hb hl.init hpre with hs | hs
    · -- fetching: only the answer ends it
      cases e with
      | complete body =>
        obtain ⟨-, p, hp, rfl⟩ := step_complete hs'
        have hbody : body = .json r := by
          refine hl.first body ?_
          rw [answers_append, hs.unanswered]
          rfl
        subst hbody
        exact bookMerged_answered hb hs hp
      | _ =>
        have hstill : s'.product.requestingOrderbook = true := by
          refine still_requesting hs.requesting ?_ hs'
          exact fun _ h => (nomatch h)
        exact absurd (hstill.symm.trans hlive') (by decide)
    · exact bookMerged_step (ih hl.init hs.live) (forwarded_grows hs.live hs.answered hlive' hs')

/-! ## Numbers in order -/

/-- Among messages with increasing numbers, those up to the number of one of them are the
ones before it, and itself. -/
theorem upTo_of_increasing {pre post : List Json} {m : Json}
    (h : ((pre ++ m :: post).map seqOf).Pairwise (· < ·)) :
    upTo (seqOf m) (pre ++ m :: post) = pre ++ [m] := by
  rw [List.map_append, List.map_cons, List.pairwise_append, List.pairwise_cons] at h
  obtain ⟨-, ⟨hafter, -⟩, hbefore⟩ := h
  have hpre : pre.filter (fun jmsg => decide (seqOf jmsg ≤ seqOf m)) = pre := by
    refine List.filter_eq_self.mpr fun j hj => ?_
    have hlt := hbefore _ (List.mem_map_of_mem hj) _ List.mem_cons_self
    simpa using Nat.le_of_lt hlt
  have hpost : post.filter (fun jmsg => decide (seqOf jmsg ≤ seqOf m)) = [] := by
    refine List.filter_eq_nil_iff.mpr fun j hj => ?_
    have hlt := hafter _ (List.mem_map_of_mem hj)
    simpa using hlt
  rw [upTo, List.filter_append, hpre, List.filter_cons_of_pos (by simp), hpost]

/-- No newer message is covered by the snapshot. -/
theorem upTo_newerArrivals (S : Nat) (es : List FeedEvent) :
    upTo S (newerArrivals S es) = [] := by
  refine List.filter_eq_nil_iff.mpr fun j hj => ?_
  have hlt := (List.mem_filter.mp hj).2
  simpa using hlt

/-- The newer messages of a lossless feed have increasing numbers. -/
theorem Lossless.newerArrivals_increasing {n S : Nat} {r : Json} {es : List FeedEvent}
    (hl : Lossless n S r es) (hS : n ≤ S + 1) :
    ((newerArrivals S es).map seqOf).Pairwise (· < ·) := by
  rw [hl.newerArrivals_numbers hS]
  exact List.pairwise_lt_range'

/-! ## The result -/

/-- What a live product has handed over, once it has passed anything on: the merged book,
and the first of the messages after it. -/
theorem Streaming.handed_cons {productId : String} {n S : Nat} {r : Json}
    {es : List FeedEvent} {s : FeedState FloatingP} (hb : FirstBook n S r)
    (hs : Streaming productId n S r es s) (hbook : BookMerged S es s)
    (hout : s.emitted ≠ []) :
    ∃ merged live later, MergedBook r merged (waitingForBook S es) ∧
      newerArrivals S es = waitingForBook S es ++ (live ++ later) ∧
      changesOf productId (merged :: live) = .ok s.emitted := by
  obtain ⟨merged, ms, rest, hm, hfwd, hnew⟩ := hs.forwarded
  obtain ⟨-, merged', record, rest', hhead, hmerge⟩ := hbook
  rw [FeedState.forwarded, hfwd] at hhead
  obtain ⟨heq, -⟩ := List.cons.inj hhead
  cases heq
  rw [hm.toMerge, hb.own, List.nil_append] at hmerge
  subst hmerge
  have hpassed := hs.passedOn
  cases hh : s.handed with
  | nil =>
    -- nothing handed over, so nothing passed on
    rw [hh] at hpassed
    exact absurd (Except.ok.inj hpassed).symm hout
  | cons queued handed =>
    rw [hh, List.append_assoc, List.cons_append] at hfwd
    obtain ⟨rfl, htail⟩ := List.cons.inj hfwd
    obtain ⟨live, later, rfl, hlive, -⟩ := List.append_eq_map_iff.mp htail
    rw [hh, List.map_cons, ← hlive, json_messages] at hpassed
    exact ⟨merged, live, later, hm, hnew.symm, hpassed⟩

/-- The label of the reset is right if the messages merged into it change nothing. -/
theorem label_of_reset {productId : String} {n S : Nat} {r merged : Json} {es : List FeedEvent}
    {c : ProductChange FloatingP} (hb : FirstBook n S r)
    (hm : MergedBook r merged (waitingForBook S es))
    (hc : getProductChange productId merged = .ok (some c)) :
    (∃ pcs, changesOf productId (r :: upTo c.getSequenceNumber (newerArrivals S es)) = .ok pcs ∧
        ∀ book : OrderBook FloatingP, book.replay [c] = book.replay pcs) ↔
      WaitingChangesNothing FloatingP productId S r es := by
  -- it carries the number of the snapshot, so the label promises the snapshot alone
  have hlabel := getProductChange_sequence hc
  rw [hm.seqOf_eq, seqOf_of_ok hb.sequence] at hlabel
  obtain ⟨bids, asks, own, waiting, sequence, hr, hwaiting, heq⟩ :=
    (getProductChange_merged hm hb.full).mp hc
  cases heq
  have hsnapshot : changesOf productId [r] =
      .ok [.resetOrderBook bids asks own productId sequence] :=
    changesOf_cons_ok.mpr ⟨_, [], hr, rfl, rfl⟩
  have hreset : ∀ book : OrderBook FloatingP,
      book.replay [.resetOrderBook bids asks (own ++ waiting) productId sequence] =
        book.replay ([.resetOrderBook bids asks own productId sequence] ++ waiting) := by
    intro book
    have happend := replay_reset_append book bids asks own waiting [] productId sequence
    rw [List.append_nil] at happend
    exact happend
  rw [hlabel, upTo_newerArrivals, hsnapshot]
  constructor
  · rintro ⟨pcs, hpcs, hbook⟩ rs pcs' hrs hpcs' book
    cases hpcs
    cases hsnapshot.symm.trans hrs
    cases hwaiting.symm.trans hpcs'
    rw [← hreset]
    exact hbook book
  · intro hnothing
    refine ⟨_, rfl, fun book => ?_⟩
    rw [hreset]
    exact hnothing _ _ hsnapshot hwaiting book

/-- The labels after the reset are right. -/
theorem label_of_live {productId : String} {n S : Nat} {r merged msg : Json} {es : List FeedEvent}
    {pre later : List Json} {out : List (ProductChange FloatingP)} {c : ProductChange FloatingP}
    (hb : FirstBook n S r) (hm : MergedBook r merged (waitingForBook S es))
    (hincreasing : ((newerArrivals S es).map seqOf).Pairwise (· < ·))
    (hnew : newerArrivals S es = waitingForBook S es ++ pre ++ msg :: later)
    (hpre : changesOf productId (merged :: pre) = .ok out)
    (hmsg : getProductChange productId msg = .ok (some c)) :
    ∃ pcs, changesOf productId (r :: upTo c.getSequenceNumber (newerArrivals S es)) = .ok pcs ∧
      ∀ book : OrderBook FloatingP, book.replay (out ++ [c]) = book.replay pcs := by
  have hupto : upTo c.getSequenceNumber (newerArrivals S es) =
      waitingForBook S es ++ (pre ++ [msg]) := by
    rw [hnew] at hincreasing ⊢
    rw [getProductChange_sequence hmsg, upTo_of_increasing hincreasing, List.append_assoc]
  have hthrough : changesOf productId (merged :: (pre ++ [msg])) = .ok (out ++ [c]) :=
    changesOf_append hpre (changesOf_cons_ok.mpr ⟨some c, [], hmsg, rfl, rfl⟩)
  rw [hupto]
  exact replay_merged hm hb.full hb.own hthrough

/-- **When the labels are right.** On every lossless feed, over every interleaving, once
anything was passed on: every change's number says which messages the book has after it,
exactly if the messages that wait for the first book leave it as it is. -/
theorem labels_right_iff {productId : String} {n S : Nat} {r : Json} {es : List FeedEvent}
    {s : FeedState FloatingP} (hb : FirstBook n S r) (hl : Lossless n S r es)
    (hrun : (feedMachine FloatingP).run (.initial productId) es = some s)
    (hout : s.emitted ≠ []) :
    LabelsRight productId S r es s.emitted ↔
      WaitingChangesNothing FloatingP productId S r es := by
  have hs : Streaming productId n S r es s := by
    rcases lossless_phases hb hl hrun with hs | hs
    · exact absurd hs.emitted hout
    · exact hs
  obtain ⟨merged, live, later, hm, hnew, hemitted⟩ :=
    hs.handed_cons hb (lossless_bookMerged hb hl hrun hs.live) hout
  -- the first change passed on is the reset
  obtain ⟨pc, others, hpc, hothers, hcons⟩ := changesOf_cons_ok.mp hemitted
  obtain ⟨c₀, rfl⟩ : ∃ c₀, pc = some c₀ := by
    obtain ⟨_, _, _, _, _, -, -, rfl⟩ := (getProductChange_merged hm hb.full).mp hpc
    exact ⟨_, rfl⟩
  constructor
  · intro hright
    exact (label_of_reset hb hm hpc).mp (hright [] c₀ others hcons)
  · intro hnothing out c rest heq
    rw [heq] at hemitted
    obtain ⟨pre, msg, post, hsplit, hpre, hmsg⟩ := changesOf_split hemitted
    cases pre with
    | nil =>
      obtain ⟨rfl, -⟩ := List.cons.inj hsplit
      cases hpc.symm.trans hmsg
      cases hpre
      exact (label_of_reset hb hm hpc).mpr hnothing
    | cons first pre =>
      obtain ⟨rfl, rfl⟩ := List.cons.inj hsplit
      have hshape : newerArrivals S es =
          waitingForBook S es ++ pre ++ msg :: (post ++ later) := by
        rw [hnew]
        simp
      exact label_of_live hb hm (hl.newerArrivals_increasing hb.reaches) hshape hpre hmsg

/-- A book that covers everything waiting for it. -/
theorem labels_right_iff_covered :
    ∃ s : FeedState Int,
      (feedMachine Int).run (.initial "ETH-USD")
        [.arrive (doneMsg "sell" "A" 4), .complete (.json (bookMsg 4 [("1", "1", "B")] [])),
          .take, .hand, .arrive (doneMsg "sell" "B" 5), .take, .hand] = some s ∧
      (LabelsRight "ETH-USD" 4 (bookMsg 4 [("1", "1", "B")] [])
          [.arrive (doneMsg "sell" "A" 4), .complete (.json (bookMsg 4 [("1", "1", "B")] [])),
            .take, .hand, .arrive (doneMsg "sell" "B" 5), .take, .hand] s.emitted ↔
        WaitingChangesNothing Int "ETH-USD" 4 (bookMsg 4 [("1", "1", "B")] [])
          [.arrive (doneMsg "sell" "A" 4), .complete (.json (bookMsg 4 [("1", "1", "B")] [])),
            .take, .hand, .arrive (doneMsg "sell" "B" 5), .take, .hand]) := by
  have hb : FirstBook 4 4 (bookMsg 4 [("1", "1", "B")] []) :=
    ⟨rfl, rfl, rfl, by decide, by decide, by decide⟩
  have hl : Lossless 4 4 (bookMsg 4 [("1", "1", "B")] [])
      [.arrive (doneMsg "sell" "A" 4), .complete (.json (bookMsg 4 [("1", "1", "B")] [])),
        .take, .hand, .arrive (doneMsg "sell" "B" 5), .take, .hand] := by
    refine ⟨rfl, fun body hbody => ?_, fun m hm => ?_⟩
    · exact (Option.some.inj hbody).symm
    · obtain rfl | hm := List.mem_cons.mp hm
      · decide
      · obtain rfl := List.mem_singleton.mp hm
        decide
  refine ⟨_, rfl, labels_right_iff hb hl rfl ?_⟩
  exact List.cons_ne_nil _ _

/-- Message 5 waits for book 4 and closes its only order: the reset passed on leaves an
empty book under the number 4. -/
theorem merged_reset_mislabelled :
    ∃ (es : List FeedEvent) (s : FeedState Int),
      FirstBook 5 4 (bookMsg 4 [("1", "1", "A")] []) ∧
      Lossless 5 4 (bookMsg 4 [("1", "1", "A")] []) es ∧
      (feedMachine Int).run (.initial "ETH-USD") es = some s ∧
      s.emitted.map ProductChange.getSequenceNumber = [4] ∧
      OrderBook.replay {} s.emitted = {} ∧
      ¬ LabelsRight "ETH-USD" 4 (bookMsg 4 [("1", "1", "A")] []) es s.emitted := by
  refine ⟨[.arrive (doneMsg "sell" "A" 5), .complete (.json (bookMsg 4 [("1", "1", "A")] [])),
    .take, .hand], _, ⟨rfl, rfl, rfl, by decide, by decide, by decide⟩, ?_, rfl, rfl, rfl, ?_⟩
  · refine ⟨rfl, fun body hbody => (Option.some.inj hbody).symm, fun m hm => ?_⟩
    obtain rfl := List.mem_singleton.mp hm
    decide
  · intro h
    obtain ⟨pcs, hpcs, hbook⟩ := h [] _ [] rfl
    cases hpcs
    exact absurd (hbook {}) (by decide)

end QuoteServer
