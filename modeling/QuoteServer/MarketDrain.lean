import QuoteServer.MarketOrder

/-!
# One drain hands every pending change to its product exactly once

One pass of `processProductChanges`, statement by statement of its two loops, which walk
the container they took with one iterator and move its elements out as they go. The
other threads run in between: changes are delivered at any time, and clients come and go
until the market thread holds `marketDataMutex`.

What the loops have behind them is a sequence of whole blocks of the visit, what they are
collecting is the beginning of the next block, and what is ahead of the iterator is
untouched (`AtBlock`). Together with the loops of `Market.processChanges`, which every
step of the pass carries on with (`Market.collect`), this gives what one pass does
(`drain_exactly_once`).
-/

namespace QuoteServer

open EventMachine KeyedBatch

variable {FloatingP : Type}

/-- An element of the multimap: its key, and its `unique_ptr`, `none` when that is null. -/
structure Node (FloatingP : Type) where
  first : String
  second : Option (ProductChange FloatingP)

/-- What `onProductChange` inserts. -/
def Node.ofChange (pc : ProductChange FloatingP) : Node FloatingP :=
  { first := pc.getProductId, second := some pc }

/-- After `std::move(it->second)`. -/
def Node.moved (node : Node FloatingP) : Node FloatingP := { node with second := none }

/-- The changes collected for one product, and whether `onProductChanges` was called with
them: there may be no such product. -/
structure Collection (FloatingP : Type) where
  productId : String
  changes : List (Option (ProductChange FloatingP))
  handedOver : Bool

/-- The container around the iterator `it`, and what was collected before. -/
structure Drain (FloatingP : Type) where
  passed : List (Node FloatingP) := []
  rest : List (Node FloatingP)
  collected : List (Collection FloatingP) := []

/-- `++it`, when the node's pointer was moved from. -/
def Drain.advance (drain : Drain FloatingP) (node : Node FloatingP)
    (rest : List (Node FloatingP)) : Drain FloatingP :=
  { drain with passed := drain.passed ++ [node.moved], rest := rest }

def Drain.add (drain : Drain FloatingP) (collection : Collection FloatingP) :
    Drain FloatingP :=
  { drain with collected := drain.collected ++ [collection] }

/-- Where the market thread is in a pass. -/
inductive PassPoint (FloatingP : Type) where
  /-- Before the critical section of `productChangeHandlerMutex`. -/
  | waiting
  /-- Between the two critical sections. -/
  | taken (currentChanges : List (ProductChange FloatingP))
  /-- At the condition of the outer `while`. -/
  | outerLoop (drain : Drain FloatingP)
  /-- At the condition of the inner `while`. -/
  | innerLoop (productId : String) (changes : List (Option (ProductChange FloatingP)))
    (drain : Drain FloatingP)
  | nullDereferenced

structure PassState (FloatingP : Type) where
  market : Market FloatingP
  point : PassPoint FloatingP

inductive PassEvent (FloatingP : Type) where
  /-- A step of another thread. -/
  | other (e : MarketEvent FloatingP)
  /-- The critical section of `productChangeHandlerMutex`. -/
  | takeChanges
  /-- The market thread locks `marketDataMutex`. It will visit what it took in the order
  of the picks. -/
  | lockMarketData (picks : List Nat)
  /-- One step of the loops. -/
  | loop

/-- Only the market thread takes such a step. -/
def MarketEvent.ofMarketThread : MarketEvent FloatingP → Bool
  | .takeChanges => true
  | .processChanges _ => true
  | _ => false

/-- The step is under `marketDataMutex`. -/
def MarketEvent.locksMarketData : MarketEvent FloatingP → Bool
  | .subscribeProduct _ _ => true
  | .unsubscribe _ _ => true
  | _ => false

/-- The market thread holds `marketDataMutex`. -/
def PassPoint.locked : PassPoint FloatingP → Bool
  | .outerLoop _ => true
  | .innerLoop _ _ _ => true
  | _ => false

/-- The changes that some pointers point to, if none of them is null. -/
def dereferenced : List (Option (ProductChange FloatingP)) →
    Option (List (ProductChange FloatingP))
  | [] => some []
  | none :: _ => none
  | some pc :: changes => (dereferenced changes).map (pc :: ·)

variable [Sub FloatingP]

/-- The end of a round of the outer loop. -/
def PassState.handOver (s : PassState FloatingP) (productId : String)
    (changes : List (Option (ProductChange FloatingP))) (drain : Drain FloatingP) :
    PassState FloatingP :=
  match s.market.products productId with
  | some product =>
    match dereferenced changes with
    | some pcs =>
      let products :=
        Function.update s.market.products productId (some (product.onProductChanges pcs))
      { market := { s.market with products := products }
        point := .outerLoop (drain.add ⟨productId, changes, true⟩) }
    | none => { s with point := .nullDereferenced }
  | none => { s with point := .outerLoop (drain.add ⟨productId, changes, false⟩) }

def PassState.loopStep (s : PassState FloatingP) : Option (PassState FloatingP) :=
  match s.point with
  | .outerLoop drain =>
    match drain.rest with
    | [] => none
    | node :: _ => some { s with point := .innerLoop node.first [] drain }
  | .innerLoop productId changes drain =>
    match drain.rest with
    | [] => some (s.handOver productId changes drain)
    | node :: rest =>
      if node.first = productId then
        some { s with
          point := .innerLoop productId (changes ++ [node.second]) (drain.advance node rest) }
      else some (s.handOver productId changes drain)
  | _ => none

def PassState.step (provider : EndpointProvider) (s : PassState FloatingP) :
    PassEvent FloatingP → Option (PassState FloatingP)
  | .other e =>
    if e.ofMarketThread || (e.locksMarketData && s.point.locked) then none
    else
      (MarketState.step provider { market := s.market } e).map fun s' =>
        { s with market := s'.market }
  | .takeChanges =>
    match s.point with
    | .waiting =>
      some { market := s.market.takeChanges.1, point := .taken s.market.takeChanges.2 }
    | _ => none
  | .lockMarketData picks =>
    match s.point with
    | .taken currentChanges =>
      match visit picks currentChanges with
      | some it =>
        if isGrouped ProductChange.getProductId it then
          some { s with point := .outerLoop { rest := it.map Node.ofChange } }
        else none
      | none => none
    | _ => none
  | .loop => s.loopStep

def passMachine (provider : EndpointProvider) :
    Machine (PassState FloatingP) (PassEvent FloatingP) where
  step := PassState.step provider

/-- The changes delivered in a part of a pass. -/
def deliveredIn (es : List (PassEvent FloatingP)) : List (ProductChange FloatingP) :=
  es.filterMap fun
    | .other (.onProductChange pc) => some pc
    | _ => none

/-- The steps of the loops in a part of a pass. -/
def loopSteps (es : List (PassEvent FloatingP)) : Nat :=
  es.countP fun
    | .loop => true
    | _ => false

/-! ## The steps of the other threads -/

omit [Sub FloatingP] in
theorem deliveredIn_append (es fs : List (PassEvent FloatingP)) :
    deliveredIn (es ++ fs) = deliveredIn es ++ deliveredIn fs := List.filterMap_append

/-- The other threads leave the market thread where it is, and the products too while it
holds `marketDataMutex`. What they deliver is appended to the pending changes. -/
theorem step_other {provider : EndpointProvider} {s s' : PassState FloatingP}
    {e : MarketEvent FloatingP} (h : s.step provider (.other e) = some s') :
    s'.point = s.point ∧
      s'.market.productChanges = s.market.productChanges ++ deliveredIn [.other e] ∧
      (s.point.locked = true → s'.market.products = s.market.products) := by
  unfold PassState.step at h
  dsimp only at h
  by_cases hfree : (e.ofMarketThread || (e.locksMarketData && s.point.locked)) = true
  · rw [if_pos hfree] at h
    cases h
  rw [if_neg hfree] at h
  obtain ⟨t, ht, rfl⟩ := Option.map_eq_some_iff.mp h
  refine ⟨rfl, ?_⟩
  cases e with
  | subscribeProduct c q =>
    obtain ⟨m, hm, rfl⟩ := toOption_map_eq_some.mp ht
    refine ⟨?_, fun hlocked => absurd (by simp [MarketEvent.locksMarketData, hlocked]) hfree⟩
    show m.productChanges = s.market.productChanges ++ []
    rw [List.append_nil]
    rcases Market.subscribeProduct_cases hm with ⟨_, -, rfl⟩ | ⟨-, _, -, rfl⟩ <;> rfl
  | subscribeTrades q =>
    obtain ⟨m, hm, rfl⟩ := toOption_map_eq_some.mp ht
    obtain ⟨hproducts, hpending⟩ := Market.untouched_subscribeTrades hm
    exact ⟨hpending.trans (List.append_nil _).symm, fun _ => hproducts⟩
  | unsubscribe c q =>
    obtain ⟨m, hm, rfl⟩ := toOption_map_eq_some.mp ht
    refine ⟨?_, fun hlocked => absurd (by simp [MarketEvent.locksMarketData, hlocked]) hfree⟩
    show m.productChanges = s.market.productChanges ++ []
    rw [List.append_nil]
    obtain ⟨_, -, ⟨-, rfl⟩ | ⟨-, rfl⟩⟩ := Market.unsubscribe_cases hm <;> rfl
  | onProductChange pc =>
    cases ht
    exact ⟨rfl, fun _ => rfl⟩
  | onTrade trade =>
    cases ht
    obtain ⟨hproducts, hpending, -⟩ := s.market.onTrade_frame trade
    exact ⟨hpending.trans (List.append_nil _).symm, fun _ => hproducts⟩
  | takeChanges => exact absurd rfl hfree
  | processChanges picks => exact absurd rfl hfree

/-! ## The loops -/

omit [Sub FloatingP] in
theorem dereferenced_map_some (pcs : List (ProductChange FloatingP)) :
    dereferenced (pcs.map some) = some pcs := by
  induction pcs with
  | nil => rfl
  | cons pc pcs ih =>
    rw [List.map_cons, dereferenced, ih]
    rfl

/-- Without null pointers the end of a round is that of `Market.handOver`. -/
theorem handOver_some (s : PassState FloatingP) (productId : String)
    (pcs : List (ProductChange FloatingP)) (drain : Drain FloatingP) :
    s.handOver productId (pcs.map some) drain =
      { market := s.market.handOver productId pcs
        point := .outerLoop (drain.add
          ⟨productId, pcs.map some, (s.market.products productId).isSome⟩) } := by
  unfold PassState.handOver Market.handOver
  cases s.market.products productId with
  | none => rfl
  | some product =>
    dsimp only
    rw [dereferenced_map_some]
    rfl

/-- What the loops make of the products depends on the products alone. -/
theorem handOver_congr {m m' : Market FloatingP} (h : m.products = m'.products) (p : String)
    (changes : List (ProductChange FloatingP)) :
    (m.handOver p changes).products = (m'.handOver p changes).products := by
  unfold Market.handOver
  rw [h]
  cases m'.products p with
  | none => exact h
  | some product => rfl

theorem collect_congr {m m' : Market FloatingP} (h : m.products = m'.products) (p : String)
    (changes it : List (ProductChange FloatingP)) :
    (Market.collect p changes it m).products = (Market.collect p changes it m').products := by
  induction it generalizing p changes m m' with
  | nil => exact handOver_congr h p changes
  | cons pc it ih =>
    rw [Market.collect, Market.collect]
    by_cases hsame : pc.getProductId = p
    · rw [if_pos hsame, if_pos hsame]
      exact ih h p _
    · rw [if_neg hsame, if_neg hsame]
      exact ih (handOver_congr h p changes) _ _

theorem processChanges_congr {m m' : Market FloatingP} (h : m.products = m'.products)
    (it : List (ProductChange FloatingP)) :
    (m.processChanges it).products = (m'.processChanges it).products := by
  cases it with
  | nil => exact h
  | cons pc it => exact collect_congr h _ _ it

/-- Before another product's changes, what was collected is handed over. -/
theorem collect_ended {p : String} {changes it : List (ProductChange FloatingP)}
    {m : Market FloatingP} (h : ∀ pc ∈ it.head?, pc.getProductId ≠ p) :
    Market.collect p changes it m = (m.handOver p changes).processChanges it := by
  cases it with
  | nil => rfl
  | cons pc it =>
    rw [Market.collect, if_neg (h pc rfl)]
    rfl

/-- What is recorded of a block, in a market with these products. -/
def collectionOf (products : String → Option (Product FloatingP))
    (block : String × List (ProductChange FloatingP)) : Collection FloatingP :=
  ⟨block.1, block.2.map some, (products block.1).isSome⟩

omit [Sub FloatingP] in
/-- The container while the visit `it` has left some blocks behind and is collecting
`pcs`: everything up to the iterator is moved from, and the rest is as it was. -/
structure AtBlock (m : Market FloatingP) (it : List (ProductChange FloatingP))
    (blocks : List (String × List (ProductChange FloatingP)))
    (pcs todo : List (ProductChange FloatingP)) (drain : Drain FloatingP) : Prop where
  behind : Blocks ProductChange.getProductId it blocks (pcs ++ todo)
  passed : drain.passed =
    (blocks.flatMap Prod.snd ++ pcs).map fun pc => (Node.ofChange pc).moved
  rest : drain.rest = todo.map Node.ofChange
  collected : drain.collected = blocks.map (collectionOf m.products)

/-- The market thread at the two conditions, for the visit `it` of a market that was `m`
when `marketDataMutex` was locked: what it has yet to do leaves the products as
`processChanges` does. -/
def InLoops (m : Market FloatingP) (it : List (ProductChange FloatingP))
    (s : PassState FloatingP) : Prop :=
  (∀ p, (s.market.products p).isSome = (m.products p).isSome) ∧
  match s.point with
  | .outerLoop drain => ∃ blocks todo, AtBlock m it blocks [] todo drain ∧
      (s.market.processChanges todo).products = (m.processChanges it).products
  | .innerLoop productId changes drain => ∃ blocks pcs todo,
      AtBlock m it blocks pcs todo drain ∧ changes = pcs.map some ∧
      (∀ pc ∈ pcs, pc.getProductId = productId) ∧
      (pcs = [] → ∃ pc ∈ todo.head?, pc.getProductId = productId) ∧
      (Market.collect productId pcs todo s.market).products = (m.processChanges it).products
  | _ => False

/-- The end of a block. -/
theorem inLoops_handOver {m : Market FloatingP} {it pcs todo : List (ProductChange FloatingP)}
    {s : PassState FloatingP} {productId : String} {drain : Drain FloatingP}
    {blocks : List (String × List (ProductChange FloatingP))}
    (hit : Grouped ProductChange.getProductId it)
    (hsome : ∀ p, (s.market.products p).isSome = (m.products p).isSome)
    (hblock : AtBlock m it blocks pcs todo drain) (hne : pcs ≠ [])
    (hpcs : ∀ pc ∈ pcs, pc.getProductId = productId)
    (hhead : ∀ pc ∈ todo.head?, pc.getProductId ≠ productId)
    (hproducts : ((s.market.handOver productId pcs).processChanges todo).products =
      (m.processChanges it).products) :
    InLoops m it (s.handOver productId (pcs.map some) drain) := by
  rw [handOver_some]
  obtain ⟨products, heq, hframe⟩ := s.market.handOver_frame productId pcs
  refine ⟨fun p => ?_, blocks ++ [(productId, pcs)], todo, ?_, hproducts⟩
  · dsimp only
    rw [heq]
    exact (hframe p).trans (hsome p)
  · refine ⟨hblock.behind.close hit hne hpcs hhead, ?_, hblock.rest, ?_⟩
    · show drain.passed = _
      rw [hblock.passed, List.flatMap_append, List.append_nil]
      simp
    · show drain.collected ++ [_] = _
      rw [hblock.collected, hsome productId, List.map_append]
      rfl

/-- The three steps of the loops: a round begins, an element is moved, a round ends. -/
theorem loopStep_cases {s s' : PassState FloatingP} (h : s.loopStep = some s') :
    (∃ drain node rest, s.point = .outerLoop drain ∧ drain.rest = node :: rest ∧
      s' = { s with point := .innerLoop node.first [] drain }) ∨
    (∃ productId changes drain node rest, s.point = .innerLoop productId changes drain ∧
      drain.rest = node :: rest ∧ node.first = productId ∧
      s' = { s with
        point := .innerLoop productId (changes ++ [node.second]) (drain.advance node rest) }) ∨
    (∃ productId changes drain, s.point = .innerLoop productId changes drain ∧
      (∀ node ∈ drain.rest.head?, node.first ≠ productId) ∧
      s' = s.handOver productId changes drain) := by
  unfold PassState.loopStep at h
  cases hpoint : s.point with
  | outerLoop drain =>
    rw [hpoint] at h
    dsimp only at h
    cases hrest : drain.rest with
    | nil =>
      rw [hrest] at h
      cases h
    | cons node rest =>
      rw [hrest] at h
      cases h
      exact .inl ⟨drain, node, rest, rfl, hrest, rfl⟩
  | innerLoop productId changes drain =>
    rw [hpoint] at h
    dsimp only at h
    cases hrest : drain.rest with
    | nil =>
      rw [hrest] at h
      cases h
      refine .inr (.inr ⟨productId, changes, drain, rfl, fun node hnode => ?_, rfl⟩)
      rw [hrest] at hnode
      cases hnode
    | cons node rest =>
      rw [hrest] at h
      dsimp only at h
      by_cases hsame : node.first = productId
      · rw [if_pos hsame] at h
        cases h
        exact .inr (.inl ⟨productId, changes, drain, node, rest, rfl, hrest, hsame, rfl⟩)
      · rw [if_neg hsame] at h
        cases h
        refine .inr (.inr ⟨productId, changes, drain, rfl, fun node' hnode => ?_, rfl⟩)
        rw [hrest] at hnode
        cases hnode
        exact hsame
  | _ =>
    rw [hpoint] at h
    cases h

omit [Sub FloatingP] in
/-- Ahead of the iterator there are changes, with their own product ids. -/
theorem AtBlock.rest_cons {m : Market FloatingP} {it pcs todo : List (ProductChange FloatingP)}
    {blocks : List (String × List (ProductChange FloatingP))} {drain : Drain FloatingP}
    (h : AtBlock m it blocks pcs todo drain) {node : Node FloatingP}
    {rest : List (Node FloatingP)} (hrest : drain.rest = node :: rest) :
    ∃ pc todo', todo = pc :: todo' ∧ node = Node.ofChange pc ∧
      rest = todo'.map Node.ofChange := by
  obtain ⟨pc, todo', htodo, hnode, hrest'⟩ := List.map_eq_cons_iff.mp (h.rest.symm.trans hrest)
  exact ⟨pc, todo', htodo, hnode.symm, hrest'.symm⟩

omit [Sub FloatingP] in
/-- Where a round ends, the next change is of another product, and so this round has moved
an element: it began at one of its own. -/
theorem AtBlock.round_end {m : Market FloatingP} {it pcs todo : List (ProductChange FloatingP)}
    {blocks : List (String × List (ProductChange FloatingP))} {drain : Drain FloatingP}
    {productId : String} (h : AtBlock m it blocks pcs todo drain)
    (hfirst : pcs = [] → ∃ pc ∈ todo.head?, pc.getProductId = productId)
    (hend : ∀ node ∈ drain.rest.head?, node.first ≠ productId) :
    (∀ pc ∈ todo.head?, pc.getProductId ≠ productId) ∧ pcs ≠ [] := by
  have hhead : ∀ pc ∈ todo.head?, pc.getProductId ≠ productId := by
    intro pc hpc
    refine hend (Node.ofChange pc) ?_
    rw [h.rest, List.head?_map]
    exact Option.mem_map_of_mem _ hpc
  refine ⟨hhead, fun hnil => ?_⟩
  obtain ⟨pc, hpc, hkey⟩ := hfirst hnil
  exact hhead pc hpc hkey

theorem inLoops_loopStep {m : Market FloatingP} {it : List (ProductChange FloatingP)}
    {s s' : PassState FloatingP} (hit : Grouped ProductChange.getProductId it)
    (h : InLoops m it s) (hstep : s.loopStep = some s') : InLoops m it s' := by
  obtain ⟨market, point⟩ := s
  obtain ⟨hsome, h⟩ := h
  rcases loopStep_cases hstep with ⟨drain, node, rest, hpoint, hrest, rfl⟩ |
    ⟨productId, changes, drain, node, rest, hpoint, hrest, hsame, rfl⟩ |
    ⟨productId, changes, drain, hpoint, hend, rfl⟩ <;> cases hpoint
  · obtain ⟨blocks, todo, hblock, hproducts⟩ := h
    obtain ⟨pc, todo, rfl, rfl, rfl⟩ := hblock.rest_cons hrest
    -- the key is copied before anything is moved
    refine ⟨hsome, blocks, [], pc :: todo, hblock, rfl, fun _ h => absurd h List.not_mem_nil,
      fun _ => ⟨pc, rfl, rfl⟩, ?_⟩
    have hown : pc.getProductId = (Node.ofChange pc).first := rfl
    rw [Market.collect, if_pos hown]
    exact hproducts
  · obtain ⟨blocks, pcs, todo, hblock, rfl, hpcs, hfirst, hproducts⟩ := h
    obtain ⟨pc, todo, rfl, rfl, rfl⟩ := hblock.rest_cons hrest
    have hown : pc.getProductId = productId := hsame
    rw [Market.collect, if_pos hown] at hproducts
    refine ⟨hsome, blocks, pcs ++ [pc], todo, ⟨?_, ?_, rfl, hblock.collected⟩, ?_, ?_, ?_,
      hproducts⟩
    · rw [List.append_assoc]
      exact hblock.behind
    · show drain.passed ++ [(Node.ofChange pc).moved] = _
      rw [hblock.passed]
      simp
    · rw [List.map_append]
      rfl
    · intro c hc
      rcases List.mem_append.mp hc with hc | hc
      · exact hpcs c hc
      · rw [List.mem_singleton.mp hc]
        exact hown
    · intro hnil
      exact absurd hnil (List.append_ne_nil_of_right_ne_nil _ (List.cons_ne_nil _ _))
  · obtain ⟨blocks, pcs, todo, hblock, rfl, hpcs, hfirst, hproducts⟩ := h
    obtain ⟨hhead, hne⟩ := hblock.round_end hfirst hend
    refine inLoops_handOver hit hsome hblock hne hpcs hhead ?_
    rw [← hproducts]
    exact congrArg Market.products (collect_ended hhead).symm

/-- The other threads do not disturb the loops. -/
theorem inLoops_other {provider : EndpointProvider} {m : Market FloatingP}
    {it : List (ProductChange FloatingP)} {s s' : PassState FloatingP}
    {e : MarketEvent FloatingP} (h : InLoops m it s)
    (hstep : s.step provider (.other e) = some s') : InLoops m it s' := by
  obtain ⟨hpoint, -, hproducts⟩ := step_other hstep
  obtain ⟨market, point⟩ := s
  obtain ⟨market', point'⟩ := s'
  obtain ⟨hsome, h⟩ := h
  obtain rfl : point' = point := hpoint
  cases point' with
  | waiting => exact h.elim
  | taken currentChanges => exact h.elim
  | nullDereferenced => exact h.elim
  | outerLoop drain =>
    have hsame : market'.products = market.products := hproducts rfl
    obtain ⟨blocks, todo, hblock, heq⟩ := h
    refine ⟨fun p => ?_, blocks, todo, hblock, (processChanges_congr hsame todo).trans heq⟩
    exact (congrArg Option.isSome (congrFun hsame p)).trans (hsome p)
  | innerLoop productId changes drain =>
    have hsame : market'.products = market.products := hproducts rfl
    obtain ⟨blocks, pcs, todo, hblock, hchanges, hpcs, hfirst, heq⟩ := h
    refine ⟨fun p => ?_, blocks, pcs, todo, hblock, hchanges, hpcs, hfirst,
      (collect_congr hsame productId pcs todo).trans heq⟩
    exact (congrArg Option.isSome (congrFun hsame p)).trans (hsome p)

/-! ## The loops come to their end -/

omit [Sub FloatingP] in
/-- The pass is through: `it` is at the end of the container. -/
def PassPoint.Finished : PassPoint FloatingP → Prop
  | .outerLoop drain => drain.rest = []
  | _ => False

omit [Sub FloatingP] in
/-- A bound for the steps of the loops to come: entering a round, moving an element and
ending a round for each element at most. -/
def PassPoint.stepsLeft : PassPoint FloatingP → Nat
  | .outerLoop drain => 3 * drain.rest.length
  | .innerLoop _ [] drain => 3 * drain.rest.length - 1
  | .innerLoop _ (_ :: _) drain => 3 * drain.rest.length + 1
  | _ => 0

/-- The loops can go on until they are through. -/
theorem loopStep_or_finished {m : Market FloatingP} {it : List (ProductChange FloatingP)}
    {s : PassState FloatingP} (h : InLoops m it s) :
    s.point.Finished ∨ ∃ s', s.loopStep = some s' := by
  obtain ⟨market, point⟩ := s
  obtain ⟨-, h⟩ := h
  unfold PassState.loopStep
  cases point with
  | waiting => exact h.elim
  | taken currentChanges => exact h.elim
  | nullDereferenced => exact h.elim
  | outerLoop drain =>
    cases hrest : drain.rest with
    | nil => exact .inl hrest
    | cons node rest =>
      dsimp only
      rw [hrest]
      exact .inr ⟨_, rfl⟩
  | innerLoop productId changes drain =>
    right
    cases hrest : drain.rest with
    | nil =>
      dsimp only
      rw [hrest]
      exact ⟨_, rfl⟩
    | cons node rest =>
      dsimp only
      rw [hrest]
      dsimp only
      by_cases hsame : node.first = productId
      · rw [if_pos hsame]
        exact ⟨_, rfl⟩
      · rw [if_neg hsame]
        exact ⟨_, rfl⟩

/-- Every step of the loops brings the end nearer. -/
theorem stepsLeft_loopStep {m : Market FloatingP} {it : List (ProductChange FloatingP)}
    {s s' : PassState FloatingP} (h : InLoops m it s) (hstep : s.loopStep = some s') :
    s'.point.stepsLeft < s.point.stepsLeft := by
  obtain ⟨market, point⟩ := s
  obtain ⟨-, h⟩ := h
  rcases loopStep_cases hstep with ⟨drain, node, rest, hpoint, hrest, rfl⟩ |
    ⟨productId, changes, drain, node, rest, hpoint, hrest, hsame, rfl⟩ |
    ⟨productId, changes, drain, hpoint, hend, rfl⟩ <;> cases hpoint
  · show 3 * drain.rest.length - 1 < 3 * drain.rest.length
    rw [hrest, List.length_cons]
    omega
  · have hnext : (PassPoint.innerLoop productId (changes ++ [node.second])
        (drain.advance node rest)).stepsLeft = 3 * rest.length + 1 := by
      cases changes <;> rfl
    have hlength : drain.rest.length = rest.length + 1 := congrArg List.length hrest
    show PassPoint.stepsLeft _ < _
    rw [hnext]
    cases changes with
    | nil =>
      show _ < 3 * drain.rest.length - 1
      omega
    | cons c changes =>
      show _ < 3 * drain.rest.length + 1
      omega
  · obtain ⟨blocks, pcs, todo, hblock, rfl, -, hfirst, -⟩ := h
    obtain ⟨-, hne⟩ := hblock.round_end hfirst hend
    obtain ⟨pc, pcs, rfl⟩ := List.exists_cons_of_ne_nil hne
    rw [handOver_some]
    exact Nat.lt_succ_self _

/-! ## What the publisher is called for -/

namespace Product

/-- Some change of the list, applied after those before it, reports an update. -/
def ReportsUpdate (book : OrderBook FloatingP) (pcs : List (ProductChange FloatingP)) : Prop :=
  ∃ pre pc post, pcs = pre ++ pc :: post ∧ (pc.updateOrderBook (book.replay pre)).2 = true

theorem updateAll_snd_iff (book : OrderBook FloatingP) (pcs : List (ProductChange FloatingP)) :
    (updateAll book pcs).2 = true ↔ ReportsUpdate book pcs := by
  -- from the end, since the loop keeps what it has found so far
  induction pcs using List.reverseRecOn with
  | nil =>
    refine ⟨fun h => absurd h Bool.false_ne_true, ?_⟩
    rintro ⟨pre, pc, post, h, -⟩
    exact absurd h.symm (List.append_ne_nil_of_right_ne_nil pre (List.cons_ne_nil pc post))
  | append_singleton pcs last ih =>
    rw [updateAll_append, updateAll_fst]
    dsimp only
    rw [Bool.or_eq_true, ih]
    constructor
    · rintro (h | ⟨pre, pc, post, rfl, h⟩)
      · exact ⟨pcs, last, [], rfl, h⟩
      · exact ⟨pre, pc, post ++ [last], by rw [List.append_assoc]; rfl, h⟩
    · rintro ⟨pre, pc, post, hsplit, h⟩
      rcases concat_eq_cut hsplit with ⟨rfl, rfl⟩ | ⟨post', rfl⟩
      · exact .inl h
      · exact .inr ⟨pre, pc, post', rfl, h⟩

/-- The publisher is called once if a change reports an update, and else not at all. -/
theorem onProductChanges_published (product : Product FloatingP)
    (pcs : List (ProductChange FloatingP)) :
    (ReportsUpdate product.orderBook pcs →
      (product.onProductChanges pcs).publisher.published =
        product.publisher.published ++ [(product.onProductChanges pcs).orderBook]) ∧
    (¬ ReportsUpdate product.orderBook pcs →
      (product.onProductChanges pcs).publisher = product.publisher) := by
  rw [← updateAll_snd_iff]
  unfold onProductChanges
  cases pcs with
  | nil => exact ⟨fun h => absurd h Bool.false_ne_true, fun _ => rfl⟩
  | cons pc pcs =>
    rw [if_neg (by simp)]
    constructor
    · intro h
      dsimp only
      rw [if_pos h]
      rfl
    · intro h
      dsimp only
      rw [if_neg h]

end Product

/-! ## A whole pass -/

/-- What a pass did with the changes `it`, in the order of the visit, in a market that was
`m` when `marketDataMutex` was locked and is `m'` when the pass is through. -/
structure DrainedOnce (m m' : Market FloatingP) (it : List (ProductChange FloatingP))
    (drain : Drain FloatingP) : Prop where
  /-- The changes were moved out one by one, each exactly once. -/
  moved : drain.collected.flatMap Collection.changes = it.map some
  /-- The container holds nothing but null pointers. -/
  emptied : drain.passed = it.map fun pc => (Node.ofChange pc).moved
  /-- No product was called, or passed over, twice. -/
  once : (drain.collected.map Collection.productId).Nodup
  /-- Each call has all changes of its product and no others, none of them null. -/
  whole : ∀ c ∈ drain.collected, c.changes = (changesFor c.productId it).map some ∧
    c.changes ≠ []
  every : ∀ pc ∈ it, pc.getProductId ∈ drain.collected.map Collection.productId
  /-- The changes of just those products that are not there were skipped. -/
  handedOver : ∀ c ∈ drain.collected,
    c.handedOver = true ↔ (m.products c.productId).isSome = true
  products : ∀ p product, m.products p = some product →
    m'.products p = some (product.onProductChanges (changesFor p it))
  published : ∀ p product product', m.products p = some product →
    m'.products p = some product' →
    (Product.ReportsUpdate product.orderBook (changesFor p it) →
      product'.publisher.published = product.publisher.published ++ [product'.orderBook]) ∧
    (¬ Product.ReportsUpdate product.orderBook (changesFor p it) →
      product'.publisher = product.publisher)
  absent : ∀ p, m.products p = none → m'.products p = none

theorem drainedOnce_of_finished {m m' : Market FloatingP}
    {it : List (ProductChange FloatingP)} {drain : Drain FloatingP}
    (hit : Grouped ProductChange.getProductId it) (h : InLoops m it ⟨m', .outerLoop drain⟩)
    (hrest : drain.rest = []) : DrainedOnce m m' it drain := by
  obtain ⟨hsome, blocks, todo, hblock, hproducts⟩ := h
  obtain rfl : todo = [] := List.map_eq_nil_iff.mp (hblock.rest.symm.trans hrest)
  have hflat : it = blocks.flatMap Prod.snd := by
    rw [hblock.behind.flat]
    simp
  have hids : drain.collected.map Collection.productId = blocks.map Prod.fst := by
    rw [hblock.collected, List.map_map]
    rfl
  have hfinal : ∀ p product, m.products p = some product →
      m'.products p = some (product.onProductChanges (changesFor p it)) := by
    intro p product hp
    exact (congrFun hproducts p).trans (Market.processChanges_product hp hit)
  constructor
  · rw [hblock.collected, List.flatMap_map, hflat, List.map_flatMap]
    rfl
  · rw [hblock.passed, List.append_nil, ← hflat]
  · rw [hids]
    exact hblock.behind.once
  · intro c hc
    rw [hblock.collected] at hc
    obtain ⟨b, hb, rfl⟩ := List.mem_map.mp hc
    obtain ⟨hwhole, hne⟩ := hblock.behind.whole b hb
    refine ⟨congrArg (List.map some) hwhole, fun hnil => hne (List.map_eq_nil_iff.mp hnil)⟩
  · intro pc hpc
    rw [hids]
    exact hblock.behind.mem_of_mem hpc
  · intro c hc
    rw [hblock.collected] at hc
    obtain ⟨b, -, rfl⟩ := List.mem_map.mp hc
    exact Iff.rfl
  · exact hfinal
  · intro p product product' hp hp'
    rw [hfinal p product hp] at hp'
    cases hp'
    exact product.onProductChanges_published _
  · intro p hp
    refine Option.not_isSome_iff_eq_none.mp fun hp' => ?_
    have hboth := (hsome p).symm.trans hp'
    rw [hp] at hboth
    cases hboth

theorem step_lockMarketData {provider : EndpointProvider} {s s' : PassState FloatingP}
    {picks : List Nat} (h : s.step provider (.lockMarketData picks) = some s') :
    ∃ currentChanges it, s.point = .taken currentChanges ∧
      Visits ProductChange.getProductId currentChanges it ∧
      s' = { s with point := .outerLoop { rest := it.map Node.ofChange } } := by
  obtain ⟨market, point⟩ := s
  unfold PassState.step at h
  cases point with
  | taken currentChanges =>
    dsimp only at h
    cases hv : visit picks currentChanges with
    | none =>
      rw [hv] at h
      cases h
    | some it =>
      rw [hv] at h
      dsimp only at h
      by_cases hg : isGrouped ProductChange.getProductId it = true
      · rw [if_pos hg] at h
        exact ⟨currentChanges, it, rfl, visits_of_visit hv hg, (Option.some.inj h).symm⟩
      · rw [if_neg hg] at h
        cases h
  | _ => cases h

theorem waiting_of_takeChanges {provider : EndpointProvider} {s s' : PassState FloatingP}
    (h : s.step provider .takeChanges = some s') : s.point = .waiting := by
  unfold PassState.step at h
  cases hs : s.point with
  | waiting => rfl
  | _ =>
    rw [hs] at h
    cases h

/-- At the first condition nothing is collected yet. -/
theorem inLoops_start (m : Market FloatingP) (it : List (ProductChange FloatingP)) :
    InLoops m it ⟨m, .outerLoop { rest := it.map Node.ofChange }⟩ :=
  ⟨fun _ => rfl, [], it, ⟨.nil it, rfl, rfl, rfl⟩, rfl⟩

/-- The end of a round is under the lock, unless it dereferences a null pointer, and leaves
the pending changes. -/
theorem handOver_frame (s : PassState FloatingP) (productId : String)
    (changes : List (Option (ProductChange FloatingP))) (drain : Drain FloatingP) :
    ((s.handOver productId changes drain).point.locked = true ∨
      (s.handOver productId changes drain).point = .nullDereferenced) ∧
    (s.handOver productId changes drain).market.productChanges = s.market.productChanges := by
  unfold PassState.handOver
  cases s.market.products productId with
  | none => exact ⟨.inl rfl, rfl⟩
  | some product =>
    dsimp only
    cases dereferenced changes with
    | none => exact ⟨.inr rfl, rfl⟩
    | some pcs => exact ⟨.inl rfl, rfl⟩

/-- So is every step of the loops. -/
theorem loopStep_frame {s s' : PassState FloatingP} (h : s.loopStep = some s') :
    (s'.point.locked = true ∨ s'.point = .nullDereferenced) ∧
      s'.market.productChanges = s.market.productChanges := by
  rcases loopStep_cases h with ⟨_, _, _, -, -, rfl⟩ | ⟨_, _, _, _, _, -, -, -, rfl⟩ |
    ⟨productId, changes, drain, -, -, rfl⟩
  · exact ⟨.inl rfl, rfl⟩
  · exact ⟨.inl rfl, rfl⟩
  · exact handOver_frame s productId changes drain

/-- Before the lock: what was taken stays, and what is delivered waits. -/
def BeforeLock (m : Market FloatingP) (es : List (PassEvent FloatingP))
    (s : PassState FloatingP) : Prop :=
  match s.point with
  | .waiting => False
  | .taken currentChanges =>
    currentChanges = m.productChanges ∧ s.market.productChanges = deliveredIn es
  | _ => True

theorem beforeLock_step {provider : EndpointProvider} {m : Market FloatingP}
    {es : List (PassEvent FloatingP)} {e : PassEvent FloatingP} {s s' : PassState FloatingP}
    (h : BeforeLock m es s) (hstep : s.step provider e = some s') :
    BeforeLock m (es ++ [e]) s' := by
  unfold BeforeLock at h ⊢
  cases e with
  | other e =>
    obtain ⟨hpoint, hpending, -⟩ := step_other hstep
    rw [hpoint]
    cases hs : s.point with
    | taken currentChanges =>
      rw [hs] at h
      refine ⟨h.1, ?_⟩
      rw [hpending, h.2, deliveredIn_append]
    | waiting =>
      rw [hs] at h
      exact h
    | _ => trivial
  | takeChanges =>
    rw [waiting_of_takeChanges hstep] at h
    exact h.elim
  | lockMarketData picks =>
    obtain ⟨_, _, -, -, rfl⟩ := step_lockMarketData hstep
    trivial
  | loop =>
    cases hs : s'.point with
    | waiting => rcases (loopStep_frame hstep).1 with hp | hp <;> rw [hs] at hp <;> cases hp
    | taken _ => rcases (loopStep_frame hstep).1 with hp | hp <;> rw [hs] at hp <;> cases hp
    | _ => trivial

theorem beforeLock_run {provider : EndpointProvider} {m : Market FloatingP}
    {mid : List (PassEvent FloatingP)} {s : PassState FloatingP}
    (hrun : (passMachine provider).run ⟨m, .waiting⟩ (.takeChanges :: mid) = some s) :
    BeforeLock m mid s := by
  have hrun' : (passMachine provider).run
      ⟨m.takeChanges.1, .taken m.takeChanges.2⟩ mid = some s := hrun
  exact (passMachine provider).history_rule ⟨rfl, rfl⟩
    (fun _ _ _ _ _ h _ hstep => beforeLock_step h hstep)
    ((passMachine provider).guarded_true _ _) hrun'

/-- After the lock: the loops are where they should be, what was delivered is pending, and
the steps still to come are fewer by those that were made. -/
structure AfterLock (m : Market FloatingP) (it : List (ProductChange FloatingP))
    (es : List (PassEvent FloatingP)) (s : PassState FloatingP) : Prop where
  inLoops : InLoops m it s
  pending : s.market.productChanges = m.productChanges ++ deliveredIn es
  steps : loopSteps es + s.point.stepsLeft ≤ 3 * it.length

theorem afterLock_step {provider : EndpointProvider} {m : Market FloatingP}
    {it : List (ProductChange FloatingP)} {es : List (PassEvent FloatingP)}
    {e : PassEvent FloatingP} {s s' : PassState FloatingP}
    (hit : Grouped ProductChange.getProductId it) (h : AfterLock m it es s)
    (hstep : s.step provider e = some s') : AfterLock m it (es ++ [e]) s' := by
  have hsteps : loopSteps (es ++ [e]) = loopSteps es + loopSteps [e] := List.countP_append
  cases e with
  | other e =>
    obtain ⟨hpoint, hpending, -⟩ := step_other hstep
    refine ⟨inLoops_other h.inLoops hstep, ?_, ?_⟩
    · rw [hpending, h.pending, deliveredIn_append, List.append_assoc]
    · rw [hsteps, hpoint]
      exact h.steps
  | takeChanges =>
    have hin := h.inLoops.2
    rw [waiting_of_takeChanges hstep] at hin
    exact hin.elim
  | lockMarketData picks =>
    obtain ⟨_, _, hs, -, -⟩ := step_lockMarketData hstep
    have hin := h.inLoops.2
    rw [hs] at hin
    exact hin.elim
  | loop =>
    have hless := stepsLeft_loopStep h.inLoops hstep
    have hbound := h.steps
    refine ⟨inLoops_loopStep hit h.inLoops hstep, ?_, ?_⟩
    · rw [(loopStep_frame hstep).2, h.pending, deliveredIn_append]
      exact congrArg (m.productChanges ++ ·) (List.append_nil _).symm
    · rw [hsteps]
      show loopSteps es + 1 + s'.point.stepsLeft ≤ 3 * it.length
      omega

/-- **One drain hands every pending change to its product exactly once.** For any pending
changes, any products, any order of the visit with equal keys adjacent, and whatever the
other threads do in between: no null pointer is dereferenced, the loops come to their end
after at most three steps for each change, only what was delivered since the swap is
pending, and at the end each product that is there was called once, with all its changes
and no others, and the changes of the others were skipped. -/
theorem drain_exactly_once {provider : EndpointProvider} {m : Market FloatingP}
    {mid after : List (PassEvent FloatingP)} {picks : List Nat} {s : PassState FloatingP}
    (hrun : (passMachine provider).run ⟨m, .waiting⟩
      ((.takeChanges :: mid) ++ .lockMarketData picks :: after) = some s) :
    ∃ locked it,
      (passMachine provider).run ⟨m, .waiting⟩ (.takeChanges :: mid) =
        some ⟨locked, .taken m.productChanges⟩ ∧
      Visits ProductChange.getProductId m.productChanges it ∧
      s.market.productChanges = deliveredIn (mid ++ after) ∧
      s.point ≠ .nullDereferenced ∧
      loopSteps after ≤ 3 * m.productChanges.length ∧
      (s.point.Finished ∨ ∃ s', s.step provider .loop = some s') ∧
      ∀ drain, s.point = .outerLoop drain → drain.rest = [] →
        DrainedOnce locked s.market it drain := by
  obtain ⟨t, htaken, hrest⟩ := (passMachine provider).run_append_some.mp hrun
  obtain ⟨t', hlock, hrest⟩ := Option.bind_eq_some_iff.mp hrest
  obtain ⟨locked, point⟩ := t
  have hstep : PassState.step provider ⟨locked, point⟩ (.lockMarketData picks) = some t' := hlock
  obtain ⟨currentChanges, it, hpoint, hit, rfl⟩ := step_lockMarketData hstep
  obtain rfl : point = .taken currentChanges := hpoint
  obtain ⟨rfl, hpending⟩ := beforeLock_run htaken
  have hinv : AfterLock locked it after s := by
    refine (passMachine provider).history_rule ⟨inLoops_start locked it, ?_, ?_⟩
      (fun _ _ _ _ _ h _ hstep => afterLock_step hit.grouped h hstep)
      ((passMachine provider).guarded_true _ _) hrest
    · exact (List.append_nil _).symm
    · show 0 + 3 * (it.map Node.ofChange).length ≤ 3 * it.length
      rw [List.length_map, Nat.zero_add]
  refine ⟨locked, it, htaken, hit, ?_, fun hnull => ?_, ?_, loopStep_or_finished hinv.inLoops,
    fun drain hs hdone => ?_⟩
  · rw [hinv.pending, deliveredIn_append]
    exact congrArg (· ++ deliveredIn after) hpending
  · have hin := hinv.inLoops.2
    rw [hnull] at hin
    exact hin
  · have hbound := hinv.steps
    rw [hit.perm.length_eq] at hbound
    omega
  · refine drainedOnce_of_finished hit.grouped ?_ hdone
    rw [← hs]
    exact hinv.inLoops

/-- Two changes of `ETH-USD` are pending, and one of a product that is not there. -/
def threePending : Market Int :=
  subscribed.market.onProductChange (.orderOpen "A" 100 5 .buy "ETH-USD" 1)
    |>.onProductChange (.orderDone "B" .sell "BTC-USD" 2)
    |>.onProductChange (.orderDone "A" .buy "ETH-USD" 3)

/-- Another change is delivered while the loops run, and stays pending. -/
theorem drain_exactly_once_two_products :
    ∃ s : PassState Int,
      (passMachine .ethUsd).run ⟨threePending, .waiting⟩
        ((.takeChanges :: [.other (.subscribeTrades "ETH-USD")]) ++ .lockMarketData [0, 1, 0] ::
          [.loop, .loop, .other (.onProductChange (.orderDone "A" .buy "ETH-USD" 4)),
            .loop, .loop, .loop, .loop, .loop]) = some s ∧
      s.point.Finished ∧
      s.market.productChanges = [.orderDone "A" .buy "ETH-USD" 4] ∧
      s.point ≠ .nullDereferenced := by
  obtain ⟨s, hrun, hfinished⟩ : ∃ s : PassState Int,
      (passMachine .ethUsd).run ⟨threePending, .waiting⟩
        ((.takeChanges :: [.other (.subscribeTrades "ETH-USD")]) ++ .lockMarketData [0, 1, 0] ::
          [.loop, .loop, .other (.onProductChange (.orderDone "A" .buy "ETH-USD" 4)),
            .loop, .loop, .loop, .loop, .loop]) = some s ∧ s.point.Finished := by
    refine ⟨_, rfl, ?_⟩
    exact (rfl : ([] : List (Node Int)) = [])
  obtain ⟨_, _, -, -, hpending, hnull, -⟩ := drain_exactly_once hrun
  exact ⟨s, hrun, hfinished, hpending, hnull⟩

end QuoteServer
