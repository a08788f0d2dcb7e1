import QuoteServer.Coinbase.FeedSteps

/-!
# Merging is applying one by one

A message reaches the order book on one of two paths: handed to the message
handler by itself, or under `to_merge` of a full order book, where the handler
calls itself. `changesOf` is the plain reading of a list of messages, one after
the other. The results here say that both paths are that reading:

- `getProductChange_fullOrderBook`: the changes a book carries are those of its
  `to_merge` messages.
- `replay_merged`: a book with messages merged into it, followed by more messages,
  has the effect of the book alone, followed by all of them.
-/

namespace QuoteServer

open CoinbaseFeedMessageHandler

variable {FloatingP : Type} [FloatingPoint FloatingP]

/-- The changes of a list of messages, read one by one. -/
def changesOf (productId : String) :
    List Json → Except Fault (List (ProductChange FloatingP))
  | [] => .ok []
  | msg :: msgs => do
    let pc ← getProductChange productId msg
    let pcs ← changesOf productId msgs
    return pc.toList ++ pcs

theorem changesOf_cons_ok {productId : String} {msg : Json} {msgs : List Json}
    {pcs : List (ProductChange FloatingP)} :
    changesOf productId (msg :: msgs) = .ok pcs ↔
      ∃ pc rest, getProductChange productId msg = .ok pc ∧
        changesOf productId msgs = .ok rest ∧ pcs = pc.toList ++ rest := by
  constructor
  · intro h
    obtain ⟨pc, hpc, h⟩ := bind_eq_ok.mp h
    obtain ⟨rest, hrest, h⟩ := bind_eq_ok.mp h
    cases h
    exact ⟨pc, rest, hpc, hrest, rfl⟩
  · rintro ⟨pc, rest, hpc, hrest, rfl⟩
    exact bind_eq_ok.mpr ⟨pc, hpc, bind_eq_ok.mpr ⟨rest, hrest, rfl⟩⟩

/-- A concatenation is read when both lists are, one after the other. -/
theorem changesOf_append_ok {productId : String} {msgs more : List Json}
    {all : List (ProductChange FloatingP)} :
    changesOf productId (msgs ++ more) = .ok all ↔
      ∃ pcs qcs, changesOf productId msgs = .ok pcs ∧ changesOf productId more = .ok qcs ∧
        all = pcs ++ qcs := by
  induction msgs generalizing all with
  | nil =>
    constructor
    · intro h
      exact ⟨[], all, rfl, h, rfl⟩
    · rintro ⟨pcs, qcs, h, h', rfl⟩
      cases h
      exact h'
  | cons msg msgs ih =>
    constructor
    · intro h
      obtain ⟨pc, rest, hpc, hrest, rfl⟩ := changesOf_cons_ok.mp h
      obtain ⟨pcs, qcs, hpcs, hqcs, rfl⟩ := ih.mp hrest
      refine ⟨pc.toList ++ pcs, qcs, changesOf_cons_ok.mpr ⟨pc, pcs, hpc, hpcs, rfl⟩, hqcs, ?_⟩
      rw [List.append_assoc]
    · rintro ⟨all', qcs, h, hqcs, rfl⟩
      obtain ⟨pc, pcs, hpc, hpcs, rfl⟩ := changesOf_cons_ok.mp h
      refine changesOf_cons_ok.mpr ⟨pc, pcs ++ qcs, hpc, ih.mpr ⟨pcs, qcs, hpcs, hqcs, rfl⟩, ?_⟩
      rw [List.append_assoc]

/-- Reading two lists one after the other reads their concatenation. -/
theorem changesOf_append {productId : String} {msgs more : List Json}
    {pcs qcs : List (ProductChange FloatingP)}
    (h : changesOf productId msgs = .ok pcs) (h' : changesOf productId more = .ok qcs) :
    changesOf productId (msgs ++ more) = .ok (pcs ++ qcs) :=
  changesOf_append_ok.mpr ⟨pcs, qcs, h, h', rfl⟩

/-- A change among those of a list comes from one of its messages, and those around it
from the messages around that one. -/
theorem changesOf_split {productId : String} {msgs : List Json} {c : ProductChange FloatingP}
    {out rest : List (ProductChange FloatingP)}
    (h : changesOf productId msgs = .ok (out ++ c :: rest)) :
    ∃ pre msg post, msgs = pre ++ msg :: post ∧ changesOf productId pre = .ok out ∧
      getProductChange productId msg = .ok (some c) := by
  induction msgs generalizing out with
  | nil =>
    have hne := List.append_ne_nil_of_right_ne_nil out (List.cons_ne_nil c rest)
    exact absurd (Except.ok.inj h).symm hne
  | cons msg msgs ih =>
    obtain ⟨pc, others, hpc, hothers, heq⟩ := changesOf_cons_ok.mp h
    cases pc with
    | none =>
      obtain ⟨pre, msg', post, rfl, hpre, hmsg'⟩ := ih (hothers.trans (congrArg _ heq.symm))
      exact ⟨msg :: pre, msg', post, rfl, changesOf_cons_ok.mpr ⟨none, out, hpc, hpre, rfl⟩, hmsg'⟩
    | some first =>
      cases out with
      | nil =>
        obtain ⟨rfl, -⟩ := List.cons.inj heq
        exact ⟨[], msg, msgs, rfl, rfl, hpc⟩
      | cons d out =>
        obtain ⟨rfl, htail⟩ := List.cons.inj heq
        obtain ⟨pre, msg', post, rfl, hpre, hmsg'⟩ := ih (hothers.trans (congrArg _ htail.symm))
        exact ⟨msg :: pre, msg', post, rfl,
          changesOf_cons_ok.mpr ⟨some d, out, hpc, hpre, rfl⟩, hmsg'⟩

/-! ## The recursive path -/

theorem toMergeElements_eq (productId : String) (msgs : List Json) :
    (toMergeElements productId msgs : Except Fault (List (ProductChange FloatingP))) =
      changesOf productId msgs := by
  induction msgs with
  | nil =>
    unfold toMergeElements
    rfl
  | cons msg msgs ih =>
    unfold toMergeElements
    rw [ih]
    rfl

theorem toMergeValues_eq (productId : String) (members : List (String × Json)) :
    (toMergeValues productId members : Except Fault (List (ProductChange FloatingP))) =
      changesOf productId (members.map Prod.snd) := by
  induction members with
  | nil =>
    unfold toMergeValues
    rfl
  | cons m members ih =>
    obtain ⟨k, msg⟩ := m
    unfold toMergeValues
    rw [ih]
    rfl

/-- A loop over `to_merge` reads the values it visits one by one. -/
theorem toMergeItems_eq (productId : String) (value : Json) :
    (toMergeItems productId value : Except Fault (List (ProductChange FloatingP))) =
      changesOf productId value.items := by
  unfold toMergeItems
  cases value with
  | array elements => exact toMergeElements_eq productId elements
  | object members => exact toMergeValues_eq productId members
  | null => rfl
  -- any other value is visited itself, and is no message
  | _ =>
    show _ = changesOf productId [_]
    unfold changesOf getProductChange
    rfl

theorem toMergeOf_object (members : List (String × Json)) :
    toMergeOf (.object members) =
      match members.lookup "to_merge" with
      | some value => value.items
      | none => [] := rfl

theorem toMergeMember_eq (productId : String) (members : List (String × Json)) :
    (toMergeMember productId members : Except Fault (List (ProductChange FloatingP))) =
      changesOf productId (toMergeOf (.object members)) := by
  induction members with
  | nil =>
    unfold toMergeMember
    rfl
  | cons m members ih =>
    obtain ⟨key, value⟩ := m
    unfold toMergeMember
    by_cases hkey : key = "to_merge"
    · subst hkey
      rw [if_pos rfl, toMergeItems_eq, toMergeOf_object, List.lookup_cons_self]
    · rw [if_neg hkey, ih]
      have hne : ("to_merge" == key) = false := beq_eq_false_iff_ne.mpr (Ne.symm hkey)
      rw [toMergeOf_object, toMergeOf_object, List.lookup_cons, hne]

/-- What the handler makes of a full order book. -/
theorem getProductChange_fullOrderBook {productId : String} {jmsg : Json}
    {pc : Option (ProductChange FloatingP)} (hfull : isFullOrderBook jmsg = true) :
    getProductChange productId jmsg = .ok pc ↔
      ∃ asks bids toMerge sequence,
        (jmsg.constIndex "asks" >>= fun j => j.items.mapM readOrder) = .ok asks ∧
        (jmsg.constIndex "bids" >>= fun j => j.items.mapM readOrder) = .ok bids ∧
        changesOf productId (toMergeOf jmsg) = .ok toMerge ∧
        jmsg.unsignedAt "sequence" = .ok sequence ∧
        pc = some (.resetOrderBook bids asks toMerge productId sequence) := by
  obtain ⟨members, rfl⟩ := Json.object_of_contains (Bool.and_eq_true_iff.mp hfull).1
  unfold getProductChange
  dsimp only
  rw [if_pos hfull, toMergeMember_eq]
  constructor
  · intro h
    obtain ⟨jasks, hjasks, h⟩ := bind_eq_ok.mp h
    obtain ⟨asks, hasks, h⟩ := bind_eq_ok.mp h
    obtain ⟨jbids, hjbids, h⟩ := bind_eq_ok.mp h
    obtain ⟨bids, hbids, h⟩ := bind_eq_ok.mp h
    obtain ⟨toMerge, hmerge, h⟩ := bind_eq_ok.mp h
    obtain ⟨sequence, hseq, h⟩ := bind_eq_ok.mp h
    cases h
    exact ⟨asks, bids, toMerge, sequence, bind_eq_ok.mpr ⟨jasks, hjasks, hasks⟩,
      bind_eq_ok.mpr ⟨jbids, hjbids, hbids⟩, hmerge, hseq, rfl⟩
  · rintro ⟨asks, bids, toMerge, sequence, hasks, hbids, hmerge, hseq, rfl⟩
    obtain ⟨jasks, hjasks, hasks⟩ := bind_eq_ok.mp hasks
    obtain ⟨jbids, hjbids, hbids⟩ := bind_eq_ok.mp hbids
    refine bind_eq_ok.mpr ⟨jasks, hjasks, bind_eq_ok.mpr ⟨asks, hasks, ?_⟩⟩
    refine bind_eq_ok.mpr ⟨jbids, hjbids, bind_eq_ok.mpr ⟨bids, hbids, ?_⟩⟩
    exact bind_eq_ok.mpr ⟨toMerge, hmerge, bind_eq_ok.mpr ⟨sequence, hseq, rfl⟩⟩

/-! ## The two paths agree -/

/-- Merging does not decide whether a book is one. -/
theorem MergedBook.isFullOrderBook_eq {j merged : Json} {ms : List Json}
    (hm : MergedBook j merged ms) : isFullOrderBook merged = isFullOrderBook j := by
  rw [isFullOrderBook, hm.contains "bids" (by decide), hm.contains "asks" (by decide),
    isFullOrderBook]

theorem MergedBook.unsignedAt_sequence {j merged : Json} {ms : List Json}
    (hm : MergedBook j merged ms) :
    merged.unsignedAt "sequence" = j.unsignedAt "sequence" := by
  rw [Json.unsignedAt, hm.constIndex "sequence" (by decide), Json.unsignedAt]

/-- What the handler makes of a book with messages merged into it: the reset of the book
by itself, with their changes behind its own. -/
theorem getProductChange_merged {productId : String} {j merged : Json} {ms : List Json}
    {pc : Option (ProductChange FloatingP)} (hm : MergedBook j merged ms)
    (hfull : isFullOrderBook j = true) :
    getProductChange productId merged = .ok pc ↔
      ∃ bids asks own waiting sequence,
        getProductChange productId j =
          .ok (some (.resetOrderBook bids asks own productId sequence)) ∧
        changesOf productId ms = .ok waiting ∧
        pc = some (.resetOrderBook bids asks (own ++ waiting) productId sequence) := by
  have hfull' : isFullOrderBook merged = true := hm.isFullOrderBook_eq.trans hfull
  rw [getProductChange_fullOrderBook hfull', hm.constIndex "asks" (by decide),
    hm.constIndex "bids" (by decide), hm.toMerge, hm.unsignedAt_sequence]
  constructor
  · rintro ⟨asks, bids, toMerge, sequence, hasks, hbids, hmerge, hseq, rfl⟩
    obtain ⟨own, waiting, hown, hwaiting, rfl⟩ := changesOf_append_ok.mp hmerge
    refine ⟨bids, asks, own, waiting, sequence, ?_, hwaiting, rfl⟩
    exact (getProductChange_fullOrderBook hfull).mpr
      ⟨asks, bids, own, sequence, hasks, hbids, hown, hseq, rfl⟩
  · rintro ⟨bids, asks, own, waiting, sequence, hj, hwaiting, rfl⟩
    obtain ⟨asks', bids', own', sequence', hasks, hbids, hown, hseq, heq⟩ :=
      (getProductChange_fullOrderBook hfull).mp hj
    cases heq
    exact ⟨asks, bids, own ++ waiting, sequence, hasks, hbids, changesOf_append hown hwaiting,
      hseq, rfl⟩

/-- Changes merged into a reset have the effect they have behind it. -/
theorem replay_reset_append (book : OrderBook FloatingP) (bids asks : List (Order FloatingP))
    (own waiting rest : List (ProductChange FloatingP)) (productId : String) (sequence : Nat) :
    book.replay (.resetOrderBook bids asks (own ++ waiting) productId sequence :: rest) =
      book.replay (.resetOrderBook bids asks own productId sequence :: (waiting ++ rest)) := by
  show (book.applyChange _).replay rest = (book.applyChange _).replay (waiting ++ rest)
  rw [OrderBook.applyChange_reset, OrderBook.applyChange_reset, OrderBook.replay_append,
    OrderBook.replay_append]

/-- A book `r` with messages `ms` merged into it and then the messages `rest` have
the effect of `r`, `ms` and `rest` one by one, on any book. -/
theorem replay_merged {productId : String} {r merged : Json} {ms rest : List Json}
    {emitted : List (ProductChange FloatingP)}
    (hm : MergedBook r merged ms) (hfull : isFullOrderBook r = true)
    (hown : toMergeOf r = [])
    (h : changesOf productId (merged :: rest) = .ok emitted) :
    ∃ pcs, changesOf productId (r :: (ms ++ rest)) = .ok pcs ∧
      ∀ book : OrderBook FloatingP, book.replay emitted = book.replay pcs := by
  obtain ⟨pc, cs, hpc, hcs, rfl⟩ := changesOf_cons_ok.mp h
  obtain ⟨bids, asks, own, waiting, sequence, hr, hmerge, rfl⟩ :=
    (getProductChange_merged hm hfull).mp hpc
  -- the book has no merged messages of its own
  obtain ⟨_, _, _, _, -, -, hnone, -, heq⟩ := (getProductChange_fullOrderBook hfull).mp hr
  cases heq
  rw [hown] at hnone
  cases hnone
  refine ⟨_, changesOf_cons_ok.mpr ⟨_, _, hr, changesOf_append hmerge hcs, rfl⟩, ?_⟩
  intro book
  exact replay_reset_append book bids asks [] waiting cs productId sequence

end QuoteServer
