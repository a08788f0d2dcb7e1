import QuoteServer.MarketSteps

/-!
# Who keeps a product in the market

`Market::subscribe` creates a product but tells it nothing about the client, so the
clients a product knows are none, in every reachable state (`clients_empty`). The first
`unsubscribe` for a product therefore finds it without clients and removes it, whoever
else is subscribed. A product is served exactly as long as someone wants it precisely in
the histories in which nobody else is subscribed when a client unsubscribes
(`served_iff_wanted`).
-/

namespace QuoteServer

open EventMachine

variable {FloatingP : Type}

/-- The calls of a `ProductSubscriber`. -/
inductive MarketCall where
  | subscribe (clientId prodId : String)
  | unsubscribe (clientId prodId : String)
  deriving DecidableEq

def MarketCall.prodId : MarketCall → String
  | .subscribe _ prodId => prodId
  | .unsubscribe _ prodId => prodId

/-- The market under calls issued one after another. -/
def callMachine (FloatingP : Type) (provider : EndpointProvider) :
    Machine (Market FloatingP) MarketCall where
  step
    | m, .subscribe clientId prodId => (m.subscribe provider clientId prodId).toOption
    | m, .unsubscribe clientId prodId => (m.unsubscribe clientId prodId).toOption

/-- What a call makes of whether client `c` wants product `p`. -/
def MarketCall.wants (c p : String) (before : Bool) : MarketCall → Bool
  | .subscribe c' p' => if c' = c ∧ p' = p then true else before
  | .unsubscribe c' p' => if c' = c ∧ p' = p then false else before

/-- The last call of client `c` for product `p` was `subscribe`. -/
def wants (c p : String) (calls : List MarketCall) : Bool :=
  calls.foldl (MarketCall.wants c p) false

/-- Every `unsubscribe` is made by a client subscribed to the product. -/
def UnsubscribesSubscribed (calls : List MarketCall) : Prop :=
  ∀ pre c p post, calls = pre ++ .unsubscribe c p :: post → wants c p pre = true

/-- The endpoint table has every product of the calls. -/
def KnownProducts (provider : EndpointProvider) (calls : List MarketCall) : Prop :=
  ∀ call ∈ calls, provider.contains call.prodId = true

/-- A product is in the market, with its feed subscription and its trade publisher,
exactly when `wanted` holds. -/
structure ServedExactly (m : Market FloatingP) (p : String) (wanted : Prop) : Prop where
  product : (m.products p).isSome = true ↔ wanted
  listener : (m.feedClient.prodIdToListener p).isSome = true ↔ wanted
  tradePublisher : (m.tradePublishers p).isSome = true ↔ wanted

/-- After each call, every product is served exactly when some client wants it. -/
def ServedWhileWanted (FloatingP : Type) (provider : EndpointProvider)
    (calls : List MarketCall) : Prop :=
  ∀ pre post, calls = pre ++ post →
    ∃ m, (callMachine FloatingP provider).run {} pre = some m ∧
      ∀ p, ServedExactly m p (∃ c, wants c p pre = true)

/-- When a client unsubscribes from a product, no other client is subscribed to it. -/
def NobodyElseSubscribed (calls : List MarketCall) : Prop :=
  ∀ pre c p post, calls = pre ++ .unsubscribe c p :: post →
    ∀ c', wants c' p pre = true → c' = c

/-! ## Wanting, call by call -/

theorem wants_concat (c p : String) (calls : List MarketCall) (call : MarketCall) :
    wants c p (calls ++ [call]) = call.wants c p (wants c p calls) := by
  rw [wants, List.foldl_append]
  rfl

theorem wants_subscribe (c p c' p' : String) (calls : List MarketCall) :
    wants c p (calls ++ [.subscribe c' p']) = true ↔
      (c' = c ∧ p' = p) ∨ wants c p calls = true := by
  rw [wants_concat]
  show (if c' = c ∧ p' = p then true else wants c p calls) = true ↔ _
  by_cases h : c' = c ∧ p' = p
  · simp [h]
  · simp [h]

theorem wants_unsubscribe (c p c' p' : String) (calls : List MarketCall) :
    wants c p (calls ++ [.unsubscribe c' p']) = true ↔
      ¬ (c' = c ∧ p' = p) ∧ wants c p calls = true := by
  rw [wants_concat]
  show (if c' = c ∧ p' = p then false else wants c p calls) = true ↔ _
  by_cases h : c' = c ∧ p' = p
  · simp [h]
  · simp [h]

/-! ## What one call does to the registries -/

/-- No product knows a client. -/
def ClientsEmpty (m : Market FloatingP) : Prop :=
  ∀ p product, m.products p = some product → product.clients = ∅

/-- `p` is in all three registries or in none, by `served`. -/
theorem ServedExactly.mono {m : Market FloatingP} {p : String} {w w' : Prop}
    (h : ServedExactly m p w) (hw : w ↔ w') : ServedExactly m p w' :=
  ⟨h.product.trans hw, h.listener.trans hw, h.tradePublisher.trans hw⟩

/-- One more product, or one less, without clients. -/
theorem ClientsEmpty.update {m m' : Market FloatingP} (hm : ClientsEmpty m) {p : String}
    {entry : Option (Product FloatingP)}
    (hproducts : m'.products = Function.update m.products p entry)
    (hentry : ∀ product ∈ entry, product.clients = ∅) : ClientsEmpty m' := by
  intro q product hq
  rw [hproducts] at hq
  by_cases hqp : q = p
  · subst hqp
    rw [Function.update_self] at hq
    exact hentry product hq
  · rw [Function.update_of_ne hqp] at hq
    exact hm q product hq

theorem clientsEmpty_subscribe {provider : EndpointProvider} {m m' : Market FloatingP}
    {c p : String} (hm : ClientsEmpty m) (h : m.subscribe provider c p = .ok m') :
    ClientsEmpty m' := by
  obtain ⟨m₁, h₁, h₂⟩ := bind_eq_ok.mp h
  have hproducts := (Market.untouched_subscribeTrades h₂).1
  rcases Market.subscribeProduct_cases h₁ with ⟨_, -, rfl⟩ | ⟨-, endpoint, -, rfl⟩
  · intro q product hq
    rw [hproducts] at hq
    exact hm q product hq
  · -- the product is created without the client
    refine hm.update hproducts fun product hproduct => ?_
    cases hproduct
    rfl

/-- Without clients, `unsubscribe` removes the product. -/
theorem unsubscribe_of_clientsEmpty {m : Market FloatingP} {c p : String}
    {product : Product FloatingP} (hm : ClientsEmpty m) (hp : m.products p = some product) :
    m.unsubscribe c p = .ok { m with
      feedClient := m.feedClient.unsubscribe p
      products := Function.update m.products p none
      tradePublishers := Function.update m.tradePublishers p none } := by
  have hempty : (product.removeClient c).hasClients = 0 := by
    show (product.clients.erase c).card = 0
    rw [hm p product hp, Finset.erase_empty, Finset.card_empty]
  rw [Market.unsubscribe, hp]
  dsimp only
  rw [Function.update_self]
  dsimp only
  rw [if_pos hempty, Function.update_idem]
  rfl

theorem clientsEmpty_unsubscribe {m m' : Market FloatingP} {c p : String}
    (hm : ClientsEmpty m) (h : m.unsubscribe c p = .ok m') : ClientsEmpty m' := by
  obtain ⟨product, hp, -⟩ := Market.unsubscribe_cases h
  rw [unsubscribe_of_clientsEmpty hm hp] at h
  cases h
  exact hm.update rfl fun product' hproduct => nomatch hproduct

/-- **No product ever knows a client**, after any calls. -/
theorem clients_empty {provider : EndpointProvider} {calls : List MarketCall}
    {m : Market FloatingP} (hrun : (callMachine FloatingP provider).run {} calls = some m) :
    ClientsEmpty m := by
  refine (callMachine FloatingP provider).invariant_rule (I := ClientsEmpty) ?_ ?_
    ((callMachine FloatingP provider).guarded_true _ calls) hrun
  · intro p product hp
    cases hp
  · intro m call m' hm _ hstep
    cases call with
    | subscribe c p =>
      have hok : m.subscribe provider c p = .ok m' := toOption_eq_some.mp hstep
      exact clientsEmpty_subscribe hm hok
    | unsubscribe c p =>
      have hok : m.unsubscribe c p = .ok m' := toOption_eq_some.mp hstep
      exact clientsEmpty_unsubscribe hm hok

/-! ## Serving, call by call -/

/-- Another way to write when a product is wanted that is served already. -/
theorem or_of_imp {p q : String} {w : String → Prop} (hp : w p) : w q ↔ q = p ∨ w q := by
  constructor
  · exact .inr
  · rintro (rfl | hq)
    · exact hp
    · exact hq

/-- The first part of a subscription registers the product and its feed subscription. -/
theorem served_subscribeProduct {provider : EndpointProvider} {m m' : Market FloatingP}
    {c p : String} {w : String → Prop} (hm : ∀ q, ServedExactly m q (w q))
    (h : m.subscribeProduct provider c p = .ok m') (q : String) :
    ((m'.products q).isSome = true ↔ q = p ∨ w q) ∧
      ((m'.feedClient.prodIdToListener q).isSome = true ↔ q = p ∨ w q) ∧
      m'.tradePublishers = m.tradePublishers := by
  rcases Market.subscribeProduct_cases h with ⟨product, hp, rfl⟩ | ⟨-, endpoint, -, rfl⟩
  · -- the product is there, so it was served before
    have hwp : w p := (hm p).product.mp (by rw [hp]; rfl)
    exact ⟨(hm q).product.trans (or_of_imp hwp), (hm q).listener.trans (or_of_imp hwp), rfl⟩
  · refine ⟨?_, ?_, rfl⟩
    · rw [isSome_update_some, (hm q).product]
    · rw [CoinbaseFeedClient.subscribe_listener_isSome, (hm q).listener]

theorem served_subscribe {provider : EndpointProvider} {m m' : Market FloatingP}
    {c p : String} {w : String → Prop} (hm : ∀ q, ServedExactly m q (w q))
    (h : m.subscribe provider c p = .ok m') (q : String) :
    ServedExactly m' q (q = p ∨ w q) := by
  obtain ⟨m₁, h₁, h₂⟩ := bind_eq_ok.mp h
  obtain ⟨hproduct, hlistener, htrades⟩ := served_subscribeProduct hm h₁ q
  rcases Market.subscribeTrades_cases h₂ with ⟨hthere, rfl⟩ | ⟨-, endpoint, -, rfl⟩
  · -- so is its trade publisher
    refine ⟨hproduct, hlistener, ?_⟩
    rw [htrades] at hthere ⊢
    exact (hm q).tradePublisher.trans (or_of_imp ((hm p).tradePublisher.mp hthere))
  · refine ⟨hproduct, hlistener, ?_⟩
    rw [isSome_update_some, htrades, (hm q).tradePublisher]

/-- Without clients, cancelling a served product removes it from all three registries. -/
theorem served_unsubscribe {m : Market FloatingP} {c p : String} {w : String → Prop}
    (hm : ∀ q, ServedExactly m q (w q)) (hempty : ClientsEmpty m) (hw : w p) :
    ∃ m', m.unsubscribe c p = .ok m' ∧ ∀ q, ServedExactly m' q (q ≠ p ∧ w q) := by
  obtain ⟨product, hp⟩ := Option.isSome_iff_exists.mp ((hm p).product.mpr hw)
  refine ⟨_, unsubscribe_of_clientsEmpty hempty hp, fun q => ⟨?_, ?_, ?_⟩⟩
  · rw [isSome_update_none, (hm q).product]
  · rw [CoinbaseFeedClient.unsubscribe_listener_isSome, (hm q).listener]
  · rw [isSome_update_none, (hm q).tradePublisher]

/-! ## Histories -/

theorem UnsubscribesSubscribed.init {calls : List MarketCall} {call : MarketCall}
    (h : UnsubscribesSubscribed (calls ++ [call])) : UnsubscribesSubscribed calls :=
  fun pre c p post heq => h pre c p (post ++ [call]) (by rw [heq, List.append_assoc]; rfl)

theorem NobodyElseSubscribed.init {calls : List MarketCall} {call : MarketCall}
    (h : NobodyElseSubscribed (calls ++ [call])) : NobodyElseSubscribed calls :=
  fun pre c p post heq => h pre c p (post ++ [call]) (by rw [heq, List.append_assoc]; rfl)

/-- If nobody else is ever subscribed when a client unsubscribes, every call returns and
the products served are those wanted. -/
theorem served_of_nobodyElse {provider : EndpointProvider} {calls : List MarketCall}
    (hvalid : UnsubscribesSubscribed calls) (hknown : KnownProducts provider calls)
    (halone : NobodyElseSubscribed calls) :
    ∃ m, (callMachine FloatingP provider).run {} calls = some m ∧
      ∀ p, ServedExactly m p (∃ c, wants c p calls = true) := by
  -- call by call, from the first: the state before a call has no clients, by `clients_empty`
  induction calls using List.reverseRecOn with
  | nil =>
    refine ⟨{}, rfl, fun p => ?_⟩
    have hnobody : ¬ ∃ c, wants c p [] = true := by
      rintro ⟨c, h⟩
      cases h
    exact ⟨by simp [hnobody], by simp [hnobody], by simp [hnobody]⟩
  | append_singleton calls call ih =>
    obtain ⟨m, hrun, hm⟩ := ih hvalid.init
      (fun call' h => hknown call' (List.mem_append_left _ h)) halone.init
    cases call with
    | subscribe c p =>
      have hcontains : provider.contains p = true :=
        hknown (.subscribe c p) (List.mem_append_right _ (List.mem_singleton.mpr rfl))
      obtain ⟨m', hok⟩ := Market.subscribe_total m c hcontains
      refine ⟨m', (Machine.run_snoc _).mpr ⟨m, hrun, toOption_eq_some.mpr hok⟩, fun q => ?_⟩
      refine (served_subscribe hm hok q).mono ?_
      simp only [wants_subscribe]
      constructor
      · rintro (rfl | ⟨c', hc'⟩)
        · exact ⟨c, .inl ⟨rfl, rfl⟩⟩
        · exact ⟨c', .inr hc'⟩
      · rintro ⟨c', ⟨rfl, rfl⟩ | hc'⟩
        · exact .inl rfl
        · exact .inr ⟨c', hc'⟩
    | unsubscribe c p =>
      have hwants : wants c p calls = true := hvalid calls c p [] rfl
      obtain ⟨m', hok, hm'⟩ := served_unsubscribe hm (clients_empty hrun) ⟨c, hwants⟩ (c := c)
      refine ⟨m', (Machine.run_snoc _).mpr ⟨m, hrun, toOption_eq_some.mpr hok⟩, fun q => ?_⟩
      refine (hm' q).mono ?_
      simp only [wants_unsubscribe]
      constructor
      · rintro ⟨hqp, c', hc'⟩
        exact ⟨c', fun h => hqp h.2.symm, hc'⟩
      · rintro ⟨c', hother, hc'⟩
        refine ⟨?_, c', hc'⟩
        -- only the client that unsubscribes wanted the product
        rintro rfl
        exact hother ⟨(halone calls c q [] rfl c' hc').symm, rfl⟩

/-- **When a product stays served.** For every history in which only subscribed clients
unsubscribe: the products served after each call are those that some client wants,
exactly when nobody else is ever subscribed to a product that a client unsubscribes
from. -/
theorem served_iff_wanted {provider : EndpointProvider} {calls : List MarketCall}
    (hvalid : UnsubscribesSubscribed calls) (hknown : KnownProducts provider calls) :
    ServedWhileWanted FloatingP provider calls ↔ NobodyElseSubscribed calls := by
  constructor
  · intro hserved pre c p post heq c' hc'
    by_contra hne
    -- after the call `c'` still wants the product, and it is gone
    obtain ⟨m, hrun, -⟩ := hserved pre (.unsubscribe c p :: post) heq
    obtain ⟨m', hrun', hm'⟩ := hserved (pre ++ [.unsubscribe c p]) post
      (by rw [heq, List.append_assoc]; rfl)
    obtain ⟨m₁, hrun₁, hstep⟩ := (Machine.run_snoc _).mp hrun'
    obtain rfl : m = m₁ := Option.some.inj (hrun.symm.trans hrun₁)
    have hok : m.unsubscribe c p = .ok m' := toOption_eq_some.mp hstep
    obtain ⟨product, hp, -⟩ := Market.unsubscribe_cases hok
    rw [unsubscribe_of_clientsEmpty (clients_empty hrun) hp] at hok
    cases hok
    have hthere := (hm' p).product.mpr ⟨c', by
      rw [wants_unsubscribe]
      exact ⟨fun h => hne h.1.symm, hc'⟩⟩
    exact ((isSome_update_none m.products p p).mp hthere).1 rfl
  · intro halone pre post heq
    have hpre : UnsubscribesSubscribed pre := fun pre' c p post' h =>
      hvalid pre' c p (post' ++ post) (by rw [heq, h, List.append_assoc]; rfl)
    have hpre' : NobodyElseSubscribed pre := fun pre' c p post' h =>
      halone pre' c p (post' ++ post) (by rw [heq, h, List.append_assoc]; rfl)
    exact served_of_nobodyElse hpre
      (fun call h => hknown call (by rw [heq]; exact List.mem_append_left _ h)) hpre'

/-- Two clients, one after the other. -/
theorem served_iff_wanted_alone :
    UnsubscribesSubscribed
        [.subscribe "1" "ETH-USD", .unsubscribe "1" "ETH-USD", .subscribe "2" "ETH-USD"] ∧
      (ServedWhileWanted Int .ethUsd
        [.subscribe "1" "ETH-USD", .unsubscribe "1" "ETH-USD", .subscribe "2" "ETH-USD"] ↔
      NobodyElseSubscribed
        [.subscribe "1" "ETH-USD", .unsubscribe "1" "ETH-USD", .subscribe "2" "ETH-USD"]) := by
  have hvalid : UnsubscribesSubscribed
      [.subscribe "1" "ETH-USD", .unsubscribe "1" "ETH-USD", .subscribe "2" "ETH-USD"] := by
    intro pre c p post heq
    match pre, heq with
    | [], heq => cases heq
    | [_], heq =>
      cases heq
      decide
    | [_, _], heq => cases heq
    | _ :: _ :: _ :: pre, heq =>
      cases pre with
      | nil => cases heq
      | cons _ _ => cases heq
  have hknown : KnownProducts .ethUsd
      [.subscribe "1" "ETH-USD", .unsubscribe "1" "ETH-USD", .subscribe "2" "ETH-USD"] := by
    rw [KnownProducts]
    decide
  exact ⟨hvalid, served_iff_wanted hvalid hknown⟩

/-- Two clients subscribe and one unsubscribes: the product is gone for both. -/
theorem shared_product_removed :
    ∃ (calls : List MarketCall) (m : Market Int),
      UnsubscribesSubscribed calls ∧ KnownProducts .ethUsd calls ∧
      (callMachine Int .ethUsd).run {} calls = some m ∧
      wants "2" "ETH-USD" calls = true ∧ (m.products "ETH-USD").isSome = false ∧
      (m.feedClient.prodIdToListener "ETH-USD").isSome = false ∧
      (m.tradePublishers "ETH-USD").isSome = false := by
  refine ⟨[.subscribe "1" "ETH-USD", .subscribe "2" "ETH-USD", .unsubscribe "1" "ETH-USD"], _,
    ?_, ?_, rfl, rfl, rfl, rfl, rfl⟩
  · intro pre c p post heq
    match pre, heq with
    | [], heq => cases heq
    | [_], heq => cases heq
    | [_, _], heq =>
      cases heq
      decide
    | _ :: _ :: _ :: pre, heq =>
      cases pre with
      | nil => cases heq
      | cons _ _ => cases heq
  · rw [KnownProducts]
    decide

end QuoteServer
