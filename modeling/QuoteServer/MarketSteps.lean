import QuoteServer.Market

/-!
# What the operations of the market do

For each operation: what it leaves of a product, and what it does not touch. The one
with a loop is `processProductChanges`: whatever the order of the visit, as long as
equal keys are adjacent, each product is handed its own changes of the batch, all at
once and in the order of the visit (`processChanges_product`).
-/

namespace QuoteServer

open KeyedBatch

variable {FloatingP : Type}

/-- The changes of one product among others, in order. -/
def changesFor (p : String) (pcs : List (ProductChange FloatingP)) :
    List (ProductChange FloatingP) :=
  forKey ProductChange.getProductId p pcs

theorem changesFor_append (p : String) (pcs qcs : List (ProductChange FloatingP)) :
    changesFor p (pcs ++ qcs) = changesFor p pcs ++ changesFor p qcs := forKey_append _ _

namespace Market

/-! ## The market thread -/

section Changes

variable [Sub FloatingP]

theorem handOver_ne (m : Market FloatingP) {p q : String}
    (changes : List (ProductChange FloatingP)) (h : p ≠ q) :
    (m.handOver q changes).products p = m.products p := by
  rw [handOver]
  cases m.products q with
  | none => rfl
  | some product => exact Function.update_of_ne h _ _

theorem handOver_self {m : Market FloatingP} {p : String} {product : Product FloatingP}
    (changes : List (ProductChange FloatingP)) (h : m.products p = some product) :
    (m.handOver p changes).products p = some (product.onProductChanges changes) := by
  rw [handOver, h]
  exact Function.update_self ..

/-- A product without changes in the rest of the visit is left alone. -/
theorem collect_none {p q : String} {changes it : List (ProductChange FloatingP)}
    (m : Market FloatingP) (hq : p ≠ q) (hit : ∀ pc ∈ it, pc.getProductId ≠ p) :
    (collect q changes it m).products p = m.products p := by
  induction it generalizing q changes m with
  | nil => exact handOver_ne m changes hq
  | cons pc it ih =>
    have hpc := hit pc List.mem_cons_self
    have hrest : ∀ pc ∈ it, pc.getProductId ≠ p := fun c hc => hit c (List.mem_cons_of_mem _ hc)
    rw [collect]
    by_cases hsame : pc.getProductId = q
    · rw [if_pos hsame]
      exact ih m hq hrest
    · rw [if_neg hsame, ih _ (Ne.symm hpc) hrest]
      exact handOver_ne m changes hq

/-- Within its own block a product's changes are collected, and handed over at the end
of the block. -/
theorem collect_own {p : String} {changes block post : List (ProductChange FloatingP)}
    {m : Market FloatingP} {product : Product FloatingP} (hp : m.products p = some product)
    (hblock : ∀ pc ∈ block, pc.getProductId = p) (hpost : ∀ pc ∈ post, pc.getProductId ≠ p) :
    (collect p changes (block ++ post) m).products p =
      some (product.onProductChanges (changes ++ block)) := by
  induction block generalizing changes with
  | nil =>
    rw [List.append_nil, List.nil_append]
    cases post with
    | nil => exact handOver_self changes hp
    | cons pc post =>
      have hpc := hpost pc List.mem_cons_self
      rw [collect, if_neg hpc, collect_none _ (Ne.symm hpc)
        fun c hc => hpost c (List.mem_cons_of_mem _ hc)]
      exact handOver_self changes hp
  | cons pc block ih =>
    rw [List.cons_append, collect, if_pos (hblock pc List.mem_cons_self),
      ih fun c hc => hblock c (List.mem_cons_of_mem _ hc), List.append_assoc]
    rfl

/-- A product's block somewhere in the rest of the visit. -/
theorem collect_block {p q : String} {changes pre block post : List (ProductChange FloatingP)}
    {m : Market FloatingP} {product : Product FloatingP} (hp : m.products p = some product)
    (hq : p ≠ q) (hpre : ∀ pc ∈ pre, pc.getProductId ≠ p)
    (hblock : ∀ pc ∈ block, pc.getProductId = p) (hpost : ∀ pc ∈ post, pc.getProductId ≠ p) :
    (collect q changes (pre ++ block ++ post) m).products p =
      some (product.onProductChanges block) := by
  induction pre generalizing q changes m with
  | nil =>
    cases block with
    | nil =>
      rw [List.nil_append, List.nil_append, collect_none m hq hpost, hp,
        Product.onProductChanges_nil]
    | cons pc block =>
      -- the block begins here, and what was collected before is handed over
      have hpc := hblock pc List.mem_cons_self
      rw [List.nil_append, List.cons_append, collect, if_neg (fun h => hq (hpc ▸ h)), hpc]
      refine collect_own ?_ (fun c hc => hblock c (List.mem_cons_of_mem _ hc)) hpost
      rw [handOver_ne m changes hq, hp]
  | cons pc pre ih =>
    have hpc := hpre pc List.mem_cons_self
    have hrest : ∀ pc ∈ pre, pc.getProductId ≠ p := fun c hc => hpre c (List.mem_cons_of_mem _ hc)
    rw [List.cons_append, List.cons_append, collect]
    by_cases hsame : pc.getProductId = q
    · rw [if_pos hsame]
      exact ih hp hq hrest
    · rw [if_neg hsame]
      refine ih ?_ (Ne.symm hpc) hrest
      rw [handOver_ne m changes hq, hp]

/-- **What one visit hands to a product**: all its changes of the batch, at once, in
the order of the visit. -/
theorem processChanges_product {p : String} {it : List (ProductChange FloatingP)}
    {m : Market FloatingP} {product : Product FloatingP} (hp : m.products p = some product)
    (hgrouped : Grouped ProductChange.getProductId it) :
    (m.processChanges it).products p = some (product.onProductChanges (changesFor p it)) := by
  have hblock : ∀ (it : List (ProductChange FloatingP)), ∀ pc ∈ changesFor p it,
      pc.getProductId = p := fun it pc hpc => (mem_forKey.mp hpc).2
  cases it with
  | nil => exact hp
  | cons pc it =>
    show (collect pc.getProductId [pc] it m).products p = _
    by_cases hpc : pc.getProductId = p
    · -- the visit starts with the product's own block
      obtain ⟨post, hit, hpost⟩ := hgrouped.cons_own
      rw [hpc] at hit hpost
      rw [hpc, changesFor, forKey_cons_self it hpc]
      conv_lhs => rw [hit]
      exact collect_own hp (hblock it) hpost
    · obtain ⟨pre, post, hit, hpre, hpost⟩ := hgrouped.tail.split p
      rw [changesFor, forKey_cons_ne it hpc]
      conv_lhs => rw [hit]
      exact collect_block hp (Ne.symm hpc) hpre (hblock it) hpost

/-- Handing over changes updates products and nothing else, and adds or removes none. -/
theorem handOver_frame (m : Market FloatingP) (q : String)
    (changes : List (ProductChange FloatingP)) :
    ∃ products, m.handOver q changes = { m with products := products } ∧
      ∀ p, (products p).isSome = (m.products p).isSome := by
  rw [handOver]
  cases hq : m.products q with
  | none => exact ⟨m.products, rfl, fun p => rfl⟩
  | some product =>
    refine ⟨_, rfl, fun p => ?_⟩
    by_cases hp : p = q
    · subst hp
      rw [Function.update_self, hq]
      rfl
    · rw [Function.update_of_ne hp]

/-- So does the whole loop, whatever it is collecting. -/
theorem collect_frame (it : List (ProductChange FloatingP)) (q : String)
    (changes : List (ProductChange FloatingP)) (m : Market FloatingP) :
    ∃ products, collect q changes it m = { m with products := products } ∧
      ∀ p, (products p).isSome = (m.products p).isSome := by
  induction it generalizing q changes m with
  | nil => exact handOver_frame m q changes
  | cons pc it ih =>
    rw [collect]
    by_cases hsame : pc.getProductId = q
    · rw [if_pos hsame]
      exact ih q _ m
    · rw [if_neg hsame]
      obtain ⟨products, heq, hsome⟩ := handOver_frame m q changes
      obtain ⟨products', heq', hsome'⟩ := ih pc.getProductId [pc] (m.handOver q changes)
      rw [heq] at heq' hsome'
      refine ⟨products', ?_, fun p => (hsome' p).trans (hsome p)⟩
      rw [heq, heq']

theorem processChanges_frame (it : List (ProductChange FloatingP)) (m : Market FloatingP) :
    ∃ products, m.processChanges it = { m with products := products } ∧
      ∀ p, (products p).isSome = (m.products p).isSome := by
  cases it with
  | nil => exact ⟨m.products, rfl, fun p => rfl⟩
  | cons pc it => exact collect_frame it pc.getProductId [pc] m

end Changes

/-! ## The client service's calls -/

/-- What `subscribe` creates for a product that is not there. -/
def newProduct (prodId : String) (endpoint : Endpoint) : Product FloatingP :=
  { productId := prodId
    publisher := { endpoint := endpoint.address ++ ":" ++ endpoint.orderbookPort } }

/-- The first part of `subscribe`: the client is known, and a product that is not there
is created together with its feed subscription. -/
theorem subscribeProduct_cases {provider : EndpointProvider} {m m' : Market FloatingP}
    {c p : String} (h : m.subscribeProduct provider c p = .ok m') :
    (∃ product, m.products p = some product ∧
      m' = { m with clients := insert c m.clients }) ∨
    (m.products p = none ∧ ∃ endpoint, provider.prodIdToPort p = .ok endpoint ∧
      m' = { m with
        clients := insert c m.clients
        products := Function.update m.products p (some (newProduct p endpoint))
        feedClient := m.feedClient.subscribe p }) := by
  unfold subscribeProduct at h
  cases hp : m.products p with
  | some product =>
    rw [hp] at h
    cases h
    exact .inl ⟨product, rfl, rfl⟩
  | none =>
    rw [hp] at h
    obtain ⟨publisher, hpub, h⟩ := bind_eq_ok.mp h
    obtain ⟨endpoint, hend, hpub⟩ := bind_eq_ok.mp hpub
    cases hpub
    cases h
    exact .inr ⟨rfl, endpoint, hend, rfl⟩

/-- The second part: a trade publisher that is not there is created. -/
theorem subscribeTrades_cases {provider : EndpointProvider} {m m' : Market FloatingP}
    {p : String} (h : m.subscribeTrades provider p = .ok m') :
    ((m.tradePublishers p).isSome = true ∧ m' = m) ∨
    (m.tradePublishers p = none ∧ ∃ endpoint, provider.prodIdToPort p = .ok endpoint ∧
      m' = { m with
        tradePublishers := Function.update m.tradePublishers p
          (some { endpoint := endpoint.address ++ ":" ++ endpoint.tradePort }) }) := by
  unfold subscribeTrades at h
  cases hp : m.tradePublishers p with
  | some publisher =>
    rw [hp] at h
    cases h
    exact .inl ⟨rfl, rfl⟩
  | none =>
    rw [hp] at h
    obtain ⟨publisher, hpub, h⟩ := bind_eq_ok.mp h
    obtain ⟨endpoint, hend, hpub⟩ := bind_eq_ok.mp hpub
    cases hpub
    cases h
    exact .inr ⟨rfl, endpoint, hend, rfl⟩

/-- A subscription for a known product returns. -/
theorem subscribe_total {provider : EndpointProvider} {p : String} (m : Market FloatingP)
    (c : String) (hp : provider.contains p = true) :
    ∃ m', m.subscribe provider c p = .ok m' := by
  obtain ⟨endpoint, hend⟩ := EndpointProvider.contains_iff.mp hp
  have hproduct : ∃ m₁, m.subscribeProduct provider c p = .ok m₁ := by
    unfold subscribeProduct ProductChangePublisherZMQ.create
    cases m.products p with
    | some product => exact ⟨_, rfl⟩
    | none =>
      rw [hend]
      exact ⟨_, rfl⟩
  obtain ⟨m₁, h₁⟩ := hproduct
  have htrades : ∃ m₂, m₁.subscribeTrades provider p = .ok m₂ := by
    unfold subscribeTrades TradePublisher.create
    cases m₁.tradePublishers p with
    | some publisher => exact ⟨_, rfl⟩
    | none =>
      rw [hend]
      exact ⟨_, rfl⟩
  obtain ⟨m₂, h₂⟩ := htrades
  exact ⟨m₂, bind_eq_ok.mpr ⟨m₁, h₁, h₂⟩⟩

/-- All that can go wrong in `unsubscribe` is that the product is not there. -/
theorem unsubscribe_error {m : Market FloatingP} {c p : String} {e : Fault}
    (h : m.unsubscribe c p = .error e) : e = .endIterator := by
  unfold unsubscribe at h
  cases hp : m.products p with
  | none =>
    rw [hp] at h
    dsimp only at h
    rw [hp] at h
    cases h
    rfl
  | some product =>
    rw [hp] at h
    dsimp only at h
    rw [Function.update_self] at h
    dsimp only at h
    by_cases hc : (product.removeClient c).hasClients = 0
    · rw [if_pos hc] at h
      cases h
    · rw [if_neg hc] at h
      cases h

/-- `unsubscribe` returns only for a product that is there. It removes the client, and
the product with everything that belongs to it if no client is left. -/
theorem unsubscribe_cases {m m' : Market FloatingP} {c p : String}
    (h : m.unsubscribe c p = .ok m') :
    ∃ product, m.products p = some product ∧
      ((product.clients.erase c = ∅ ∧
        m' = { m with
          feedClient := m.feedClient.unsubscribe p
          products := Function.update m.products p none
          tradePublishers := Function.update m.tradePublishers p none }) ∨
       (product.clients.erase c ≠ ∅ ∧
        m' = { m with
          products := Function.update m.products p (some (product.removeClient c)) })) := by
  unfold unsubscribe at h
  cases hp : m.products p with
  | none =>
    rw [hp] at h
    dsimp only at h
    rw [hp] at h
    cases h
  | some product =>
    rw [hp] at h
    dsimp only at h
    rw [Function.update_self] at h
    refine ⟨product, rfl, ?_⟩
    by_cases hc : product.clients.erase c = ∅
    · have hzero : (product.removeClient c).hasClients = 0 := Finset.card_eq_zero.mpr hc
      dsimp only at h
      rw [if_pos hzero, Function.update_idem] at h
      cases h
      exact .inl ⟨hc, rfl⟩
    · have hpos : ¬ (product.removeClient c).hasClients = 0 :=
        fun h0 => hc (Finset.card_eq_zero.mp h0)
      dsimp only at h
      rw [if_neg hpos] at h
      cases h
      exact .inr ⟨hc, rfl⟩

/-! ## What they leave alone -/

/-- No trade touches a product, a pending change or the feed. -/
theorem onTrade_frame (m : Market FloatingP) (trade : Trade FloatingP) :
    (m.onTrade trade).products = m.products ∧
      (m.onTrade trade).productChanges = m.productChanges ∧
      (m.onTrade trade).feedClient = m.feedClient := by
  rw [onTrade]
  cases m.tradePublishers trade.getProductId with
  | none => exact ⟨rfl, rfl, rfl⟩
  | some publisher => exact ⟨rfl, rfl, rfl⟩

/-- The client service's calls leave the book and the publisher of a product that stays. -/
theorem untouched_subscribeProduct {provider : EndpointProvider} {m m' : Market FloatingP}
    {c p q : String} {product : Product FloatingP} (hp : m.products p = some product)
    (h : m.subscribeProduct provider c q = .ok m') :
    m'.products p = some product ∧ m'.productChanges = m.productChanges := by
  rcases subscribeProduct_cases h with ⟨_, -, rfl⟩ | ⟨hnone, _, -, rfl⟩
  · exact ⟨hp, rfl⟩
  · -- the product created was not there, so it is another one
    have hne : p ≠ q := by
      rintro rfl
      rw [hp] at hnone
      cases hnone
    exact ⟨(Function.update_of_ne hne ..).trans hp, rfl⟩

theorem untouched_subscribeTrades {provider : EndpointProvider} {m m' : Market FloatingP}
    {q : String} (h : m.subscribeTrades provider q = .ok m') :
    m'.products = m.products ∧ m'.productChanges = m.productChanges := by
  rcases subscribeTrades_cases h with ⟨-, rfl⟩ | ⟨-, _, -, rfl⟩
  · exact ⟨rfl, rfl⟩
  · exact ⟨rfl, rfl⟩

theorem untouched_unsubscribe {m m' : Market FloatingP} {c p q : String}
    {product : Product FloatingP} (hp : m.products p = some product)
    (hstays : (m'.products p).isSome = true) (h : m.unsubscribe c q = .ok m') :
    ∃ product', m'.products p = some product' ∧ product'.orderBook = product.orderBook ∧
      product'.publisher = product.publisher ∧ m'.productChanges = m.productChanges := by
  obtain ⟨removed, hq, ⟨-, rfl⟩ | ⟨-, rfl⟩⟩ := unsubscribe_cases h
  · -- the product unsubscribed from is gone, so it is another one
    have hne : p ≠ q := by
      rintro rfl
      exact ((isSome_update_none m.products p p).mp hstays).1 rfl
    exact ⟨product, (Function.update_of_ne hne ..).trans hp, rfl, rfl, rfl⟩
  · by_cases hne : p = q
    · subst hne
      rw [hp] at hq
      cases hq
      exact ⟨_, Function.update_self .., rfl, rfl, rfl⟩
    · exact ⟨product, (Function.update_of_ne hne ..).trans hp, rfl, rfl, rfl⟩

end Market

end QuoteServer
