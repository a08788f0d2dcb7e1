import QuoteServer.Coinbase.MergedPath

/-!
# What a CoinbaseFeedProduct passes on

Every change a product passes on carries its product id (`feed_step_emitted`), and the
first one resets the order book as long as the first thing the message thread takes is
a book with bids and asks (`firstReset`). The code checks a full order book only for a
sequence number, so a book without bids or asks gets as far as the message handler and
is dropped there.
-/

namespace QuoteServer

open EventMachine CoinbaseFeedMessageHandler

variable {FloatingP : Type} [FloatingPoint FloatingP]

/-! ## The label of a change -/

/-- The change of a message that is no full order book: no reset, with the handler's
product id and the sequence number of the message. -/
structure OfMessage (productId : String) (jmsg : Json) (pc : ProductChange FloatingP) :
    Prop where
  productId_eq : pc.getProductId = productId
  sequence : pc.getSequenceNumber = seqOf jmsg
  isReset : pc.isReset = false

/-- Each branch ends in such a change, whatever else it read before. -/
theorem typedChange_ofMessage (productId : String) (jmsg : Json) :
    Yields (fun pc : Option (ProductChange FloatingP) =>
      ∀ change ∈ pc, OfMessage productId jmsg change) (typedChange productId jmsg) := by
  refine .bind fun type _ => ?_
  by_cases hopen : type = "open"
  · rw [if_pos hopen]
    refine .bind fun orderId _ => .bind fun sequence hseq => ?_
    iterate 5 refine .bind fun _ _ => ?_
    exact .pure fun _ h => (Option.some.inj h) ▸ ⟨rfl, (seqOf_of_ok hseq).symm, rfl⟩
  rw [if_neg hopen]
  by_cases hdone : type = "done"
  · rw [if_pos hdone]
    refine .bind fun orderId _ => .bind fun side _ => .bind fun sequence hseq => ?_
    exact .pure fun _ h => (Option.some.inj h) ▸ ⟨rfl, (seqOf_of_ok hseq).symm, rfl⟩
  rw [if_neg hdone]
  by_cases hmatch : type = "match"
  · rw [if_pos hmatch]
    refine .bind fun maker _ => .bind fun taker _ => .bind fun sequence hseq => ?_
    iterate 5 refine .bind fun _ _ => ?_
    exact .pure fun _ h => (Option.some.inj h) ▸ ⟨rfl, (seqOf_of_ok hseq).symm, rfl⟩
  rw [if_neg hmatch]
  by_cases hchange : type = "change"
  · rw [if_pos hchange]
    refine .bind fun orderId _ => .bind fun price _ => .bind fun size _ =>
      .bind fun sequence hseq => ?_
    iterate 3 refine .bind fun _ _ => ?_
    exact .pure fun _ h => (Option.some.inj h) ▸ ⟨rfl, (seqOf_of_ok hseq).symm, rfl⟩
  · rw [if_neg hchange]
    exact .pure fun _ h => nomatch h

theorem getProductChange_ofMessage {productId : String} {jmsg : Json}
    {pc : ProductChange FloatingP} (hfull : isFullOrderBook jmsg = false)
    (h : getProductChange productId jmsg = .ok (some pc)) : OfMessage productId jmsg pc := by
  cases jmsg with
  | object members =>
    unfold getProductChange at h
    dsimp only at h
    rw [hfull, if_neg Bool.false_ne_true] at h
    cases hc : (Json.object members).contains "type" with
    | true =>
      rw [hc, if_pos rfl] at h
      exact typedChange_ofMessage productId _ _ h pc rfl
    | false =>
      rw [hc, if_neg Bool.false_ne_true] at h
      cases h
  | _ =>
    unfold getProductChange at h
    cases h

/-- Whatever the message, its change carries the handler's product id. -/
theorem getProductChange_productId {productId : String} {jmsg : Json}
    {pc : ProductChange FloatingP} (h : getProductChange productId jmsg = .ok (some pc)) :
    pc.getProductId = productId := by
  cases hfull : isFullOrderBook jmsg with
  | true =>
    obtain ⟨asks, bids, toMerge, sequence, -, -, -, -, heq⟩ :=
      (getProductChange_fullOrderBook hfull).mp h
    cases heq
    rfl
  | false => exact (getProductChange_ofMessage hfull h).productId_eq

/-- And the message's own sequence number. -/
theorem getProductChange_sequence {productId : String} {jmsg : Json}
    {pc : ProductChange FloatingP} (h : getProductChange productId jmsg = .ok (some pc)) :
    pc.getSequenceNumber = seqOf jmsg := by
  cases hfull : isFullOrderBook jmsg with
  | true =>
    obtain ⟨asks, bids, toMerge, sequence, -, -, -, hseq, heq⟩ :=
      (getProductChange_fullOrderBook hfull).mp h
    cases heq
    exact (seqOf_of_ok hseq).symm
  | false => exact (getProductChange_ofMessage hfull h).sequence

/-- Only a full order book becomes a reset. -/
theorem isFullOrderBook_of_reset {productId : String} {jmsg : Json}
    {pc : ProductChange FloatingP} (h : getProductChange productId jmsg = .ok (some pc))
    (hreset : pc.isReset = true) : isFullOrderBook jmsg = true := by
  cases hfull : isFullOrderBook jmsg with
  | true => rfl
  | false =>
    exact absurd ((getProductChange_ofMessage hfull h).isReset.symm.trans hreset) (by decide)

theorem feed_step_productId {f f' : FeedState FloatingP} {e : FeedEvent}
    (h : f.step e = some f') : f'.product.productId = f.product.productId := by
  cases e with
  | arrive m =>
    obtain ⟨p, hp, rfl⟩ := step_arrive h
    rcases onMessageReceived_cases hp with
      ⟨-, rfl⟩ | ⟨-, -, rfl⟩ | ⟨-, -, rfl⟩ | ⟨-, -, rfl⟩
    all_goals rfl
  | complete body =>
    obtain ⟨-, p, hp, rfl⟩ := step_complete h
    rcases requestFullOrderBookImpl_cases hp with ⟨-, rfl⟩ | ⟨_, _, _, -, -, rfl⟩
    all_goals rfl
  | take =>
    obtain ⟨-, ⟨-, rfl⟩ | ⟨-, rfl⟩⟩ := step_take h
    all_goals rfl
  | hand =>
    obtain ⟨_, _, _, -, -, rfl⟩ := step_hand h
    rfl

/-- A step only adds to what was passed on, and only changes of the product. -/
theorem feed_step_emitted {f f' : FeedState FloatingP} {e : FeedEvent}
    (h : f.step e = some f') :
    ∃ pcs, f'.emitted = f.emitted ++ pcs ∧
      ∀ pc ∈ pcs, pc.getProductId = f.product.productId := by
  have hnone : ∀ pc ∈ ([] : List (ProductChange FloatingP)),
      pc.getProductId = f.product.productId := fun pc hpc => absurd hpc List.not_mem_nil
  cases e with
  | arrive m =>
    obtain ⟨p, -, rfl⟩ := step_arrive h
    exact ⟨[], (List.append_nil _).symm, hnone⟩
  | complete body =>
    obtain ⟨-, p, -, rfl⟩ := step_complete h
    exact ⟨[], (List.append_nil _).symm, hnone⟩
  | take =>
    obtain ⟨-, ⟨-, rfl⟩ | ⟨-, rfl⟩⟩ := step_take h
    · exact ⟨[], (List.append_nil _).symm, hnone⟩
    · exact ⟨[], (List.append_nil _).symm, hnone⟩
  | hand =>
    obtain ⟨queued, messages, pc, -, hpc, rfl⟩ := step_hand h
    refine ⟨pc.toList, rfl, fun pc' hpc' => ?_⟩
    cases pc with
    | none => cases hpc'
    | some pc =>
      obtain rfl := List.mem_singleton.mp hpc'
      exact getProductChange_productId hpc

/-! ## The first change -/

/-- The condition on a step: what the message thread takes before it has handed anything
over starts with a book that has bids and asks. -/
def TakesFullBookFirst (f : FeedState FloatingP) (e : FeedEvent) : Prop :=
  e = .take → f.handed = [] → ∀ queued rest, f.product.takeMessages.2 = queued :: rest →
    isFullOrderBook queued.json = true

/-- What was taken starts with a full book, and what was passed on with its reset. -/
structure FirstReset (f : FeedState FloatingP) : Prop where
  taken : ∀ queued rest, f.handed ++ f.messages = queued :: rest →
    isFullOrderBook queued.json = true
  nothing : f.handed = [] → f.emitted = []
  reset : f.handed ≠ [] → ∃ reset later, f.emitted = reset :: later ∧ reset.isReset = true

theorem firstReset_step {f f' : FeedState FloatingP} {e : FeedEvent} (hf : FirstReset f)
    (hg : TakesFullBookFirst f e) (h : f.step e = some f') : FirstReset f' := by
  cases e with
  | arrive m =>
    obtain ⟨p, -, rfl⟩ := step_arrive h
    exact ⟨hf.taken, hf.nothing, hf.reset⟩
  | complete body =>
    obtain ⟨-, p, -, rfl⟩ := step_complete h
    exact ⟨hf.taken, hf.nothing, hf.reset⟩
  | take =>
    obtain ⟨hm, ⟨-, rfl⟩ | ⟨hlive, rfl⟩⟩ := step_take h
    · exact hf
    · refine ⟨fun queued rest heq => ?_, hf.nothing, hf.reset⟩
      change f.handed ++ f.product.messageQueue = queued :: rest at heq
      cases hh : f.handed with
      | nil =>
        rw [hh, List.nil_append] at heq
        -- nothing was handed over before, so the condition on the step speaks of it
        refine hg rfl hh queued rest ?_
        rw [takeMessages_live hlive]
        exact heq
      | cons first others =>
        have htaken := hf.taken first (others ++ f.messages) (by rw [hh]; rfl)
        rw [hh] at heq
        obtain ⟨rfl, -⟩ := List.cons.inj heq
        exact htaken
  | hand =>
    obtain ⟨queued, messages, pc, hm, hpc, rfl⟩ := step_hand h
    refine ⟨fun q rest heq => ?_, fun hnil => ?_, fun _ => ?_⟩
    · refine hf.taken q rest ?_
      rw [hm, ← heq]
      show f.handed ++ queued :: messages = f.handed ++ [queued] ++ messages
      rw [List.append_assoc]
      rfl
    · exact absurd hnil (List.append_ne_nil_of_right_ne_nil _ (List.cons_ne_nil _ _))
    · show ∃ reset later, f.emitted ++ pc.toList = reset :: later ∧ reset.isReset = true
      by_cases hh : f.handed = []
      · -- the first message handed over is the full book
        have hfull := hf.taken queued messages (by rw [hh, hm]; rfl)
        obtain ⟨asks, bids, toMerge, sequence, -, -, -, -, rfl⟩ :=
          (getProductChange_fullOrderBook hfull).mp hpc
        rw [hf.nothing hh]
        exact ⟨_, [], rfl, rfl⟩
      · obtain ⟨reset, later, heq, hreset⟩ := hf.reset hh
        rw [heq]
        exact ⟨reset, later ++ pc.toList, rfl, hreset⟩

/-- **The first change passed on is a reset**, in any run whose first book has bids and
asks. -/
theorem firstReset {productId : String} {es : List FeedEvent} {f : FeedState FloatingP}
    (hg : (feedMachine FloatingP).Guarded TakesFullBookFirst (.initial productId) es)
    (hrun : (feedMachine FloatingP).run (.initial productId) es = some f) : FirstReset f := by
  refine (feedMachine FloatingP).invariant_rule (I := FirstReset) ?_ ?_ hg hrun
  · refine ⟨fun queued rest h => ?_, fun _ => rfl, fun h => absurd rfl h⟩
    cases h
  · intro f e f' hf hge hstep
    exact firstReset_step hf hge hstep

omit [FloatingPoint FloatingP] in
/-- What was passed on is empty or starts with a reset. -/
theorem FirstReset.emitted_head {f : FeedState FloatingP} (hf : FirstReset f)
    {pc : ProductChange FloatingP} {pcs : List (ProductChange FloatingP)}
    (h : pc :: pcs <+: f.emitted) : pc.isReset = true := by
  obtain ⟨rest, heq⟩ := h
  by_cases hh : f.handed = []
  · rw [hf.nothing hh] at heq
    cases heq
  · obtain ⟨reset, later, hreset, his⟩ := hf.reset hh
    rw [hreset] at heq
    obtain ⟨rfl, -⟩ := List.cons.inj heq
    exact his

end QuoteServer
