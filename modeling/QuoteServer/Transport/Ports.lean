import Mathlib.Data.List.Nodup
import QuoteServer.Market

/-!
# No two channels share an endpoint

The constructor of `EndpointProvider` has a number for every product that is online:
the product gets the order book port `83000 + i` and the trade port `93000 + i`. The
number is used up also when the id is already in the table and its endpoint stays. So
the endpoints of the table stand in the order of their numbers, no number twice
(`Numbered`). With at most 10000 products online the two ranges of ports do not meet,
and all of both lies between `2^16` and `2^17`, where the reduction to a TCP port keeps
the distances.
-/

namespace QuoteServer

/-- The exchange lists the product as online. -/
def isOnline (product : Json) : Bool :=
  product.stringMember "status" == some "online"

/-- The ids of the online entries of a product list. -/
def onlineIds (jmsg : Json) : List String :=
  (jmsg.items.filter isOnline).filterMap fun product => product.stringMember "id"

/-- The TCP port that a port of the table stands for: the number it spells, modulo `2^16`. -/
def tcpPort (port : String) : UInt16 := UInt16.ofNat (Nat.ofDigitChars 10 port.toList 0)

namespace EndpointProvider

/-- Every port of the table. -/
def ports (provider : EndpointProvider) : List String :=
  provider.productIds.flatMap fun entry => [entry.2.orderbookPort, entry.2.tradePort]

/-! ## One round of the constructor's loop -/

/-- `productIds.insert`: an id that is there keeps its endpoint. -/
def insert (provider : EndpointProvider) (id : String) (endpoint : Endpoint) :
    EndpointProvider :=
  { productIds :=
      if (provider.productIds.lookup id).isSome then provider.productIds
      else provider.productIds ++ [(id, endpoint)] }

/-- What the exchange must say of a product: its status and, if it is online, its id. -/
def IsListed (product : Json) : Prop :=
  product.contains "status" = true ∧
    (isOnline product = true → ∃ id, product.stringMember "id" = some id)

theorem isOnline_iff {product status : Json} (h : product.constIndex "status" = .ok status) :
    isOnline product = true ↔ status.isString "online" = true := by
  rw [isOnline, beq_iff_eq, Json.isString_iff h]

/-- An online product takes the two ports, and its id is inserted. -/
theorem insertOnline_online {product : Json} {products : List Json}
    {provider provider' : EndpointProvider} {orderPort tradePort : Nat}
    (honline : isOnline product = true) :
    insertOnline (product :: products) provider orderPort tradePort = .ok provider' ↔
      ∃ id, product.stringMember "id" = some id ∧
        insertOnline products
          (provider.insert id ⟨"127.0.0.1", toString orderPort, toString tradePort⟩)
          (orderPort + 1) (tradePort + 1) = .ok provider' := by
  have hstatus := Json.stringMember_eq_some.mp (beq_iff_eq.mp honline)
  rw [insertOnline]
  constructor
  · intro h
    obtain ⟨status, hs, h⟩ := bind_eq_ok.mp h
    rw [if_pos ((isOnline_iff hs).mp honline)] at h
    obtain ⟨idJson, hid, h⟩ := bind_eq_ok.mp h
    obtain ⟨id, hstring, h⟩ := bind_eq_ok.mp h
    cases idJson with
    | string s =>
      cases hstring
      exact ⟨_, Json.stringMember_eq_some.mpr hid, h⟩
    | _ => cases hstring
  · rintro ⟨id, hid, h⟩
    refine bind_eq_ok.mpr ⟨_, hstatus, ?_⟩
    rw [if_pos ((isOnline_iff hstatus).mp honline)]
    refine bind_eq_ok.mpr ⟨_, Json.stringMember_eq_some.mp hid, ?_⟩
    exact bind_eq_ok.mpr ⟨id, rfl, h⟩

/-- Any other product is passed over, if it has a status. -/
theorem insertOnline_offline {product : Json} {products : List Json}
    {provider provider' : EndpointProvider} {orderPort tradePort : Nat}
    (hoffline : ¬ isOnline product = true) :
    insertOnline (product :: products) provider orderPort tradePort = .ok provider' ↔
      product.contains "status" = true ∧
        insertOnline products provider orderPort tradePort = .ok provider' := by
  rw [insertOnline, Json.contains_iff]
  constructor
  · intro h
    obtain ⟨status, hstatus, h⟩ := bind_eq_ok.mp h
    rw [if_neg (fun hs => hoffline ((isOnline_iff hstatus).mpr hs))] at h
    exact ⟨⟨status, hstatus⟩, h⟩
  · rintro ⟨⟨status, hstatus⟩, h⟩
    refine bind_eq_ok.mpr ⟨status, hstatus, ?_⟩
    rw [if_neg (fun hs => hoffline ((isOnline_iff hstatus).mpr hs))]
    exact h

/-- The table is built exactly when every entry of the list says what it must. -/
theorem insertOnline_returns_iff {products : List Json} {provider : EndpointProvider}
    {orderPort tradePort : Nat} :
    (∃ provider', insertOnline products provider orderPort tradePort = .ok provider') ↔
      ∀ product ∈ products, IsListed product := by
  induction products generalizing provider orderPort tradePort with
  | nil => exact ⟨fun _ product h => absurd h List.not_mem_nil, fun _ => ⟨provider, rfl⟩⟩
  | cons product products ih =>
    rw [List.forall_mem_cons, IsListed]
    by_cases honline : isOnline product = true
    · have hstatus : product.contains "status" = true :=
        Json.contains_of_stringMember (beq_iff_eq.mp honline)
      constructor
      · rintro ⟨provider', h⟩
        obtain ⟨id, hid, h⟩ := (insertOnline_online honline).mp h
        exact ⟨⟨hstatus, fun _ => ⟨id, hid⟩⟩, ih.mp ⟨provider', h⟩⟩
      · rintro ⟨⟨-, hid⟩, hrest⟩
        obtain ⟨id, hid⟩ := hid honline
        obtain ⟨provider', h⟩ := ih.mpr hrest
        exact ⟨provider', (insertOnline_online honline).mpr ⟨id, hid, h⟩⟩
    · constructor
      · rintro ⟨provider', h⟩
        obtain ⟨hstatus, h⟩ := (insertOnline_offline honline).mp h
        exact ⟨⟨hstatus, fun h => absurd h honline⟩, ih.mp ⟨provider', h⟩⟩
      · rintro ⟨⟨hstatus, -⟩, hrest⟩
        obtain ⟨provider', h⟩ := ih.mpr hrest
        exact ⟨provider', (insertOnline_offline honline).mpr ⟨hstatus, h⟩⟩

/-! ## The ids of the table -/

theorem contains_insert (provider : EndpointProvider) (id x : String) (endpoint : Endpoint) :
    (provider.insert id endpoint).contains x = true ↔ provider.contains x = true ∨ x = id := by
  rw [insert, contains, contains]
  by_cases hid : (provider.productIds.lookup id).isSome = true
  · rw [if_pos hid]
    constructor
    · exact .inl
    · rintro (h | rfl)
      · exact h
      · exact hid
  · rw [if_neg hid, List.lookup_append]
    by_cases hx : x = id
    · subst hx
      simp
    · simp [List.lookup_cons, beq_eq_false_iff_ne.mpr hx, hx]

theorem contains_insertOnline {products : List Json} {provider provider' : EndpointProvider}
    {orderPort tradePort : Nat} (x : String)
    (h : insertOnline products provider orderPort tradePort = .ok provider') :
    provider'.contains x = true ↔ provider.contains x = true ∨
      x ∈ (products.filter isOnline).filterMap fun product => product.stringMember "id" := by
  induction products generalizing provider orderPort tradePort with
  | nil =>
    cases h
    simp
  | cons product products ih =>
    by_cases honline : isOnline product = true
    · obtain ⟨id, hid, h⟩ := (insertOnline_online honline).mp h
      have hids : ((product :: products).filter isOnline).filterMap
          (fun product => product.stringMember "id") =
          id :: (products.filter isOnline).filterMap fun product => product.stringMember "id" := by
        rw [List.filter_cons_of_pos honline]
        exact List.filterMap_cons_some hid
      rw [ih h, contains_insert, hids, List.mem_cons, or_assoc]
    · obtain ⟨-, h⟩ := (insertOnline_offline honline).mp h
      rw [ih h, List.filter_cons_of_neg honline]

/-! ## The numbers of the table -/

/-- The endpoint of the `i`-th product that is online. -/
def endpointAt (i : Nat) : Endpoint :=
  { address := "127.0.0.1"
    orderbookPort := toString (83000 + i)
    tradePort := toString (93000 + i) }

/-- After `n` products that are online, the table has the ids of the slots, each with
the endpoint of the slot's number. -/
structure Numbered (n : Nat) (slots : List (String × Nat)) (provider : EndpointProvider) :
    Prop where
  table : provider.productIds = slots.map fun slot => (slot.1, endpointAt slot.2)
  increasing : slots.Pairwise fun a b => a.2 < b.2
  below : ∀ slot ∈ slots, slot.2 < n

theorem numbered_nil : Numbered 0 [] {} where
  table := rfl
  increasing := List.Pairwise.nil
  below := fun _ h => absurd h List.not_mem_nil

theorem Numbered.insert {n : Nat} {slots : List (String × Nat)} {provider : EndpointProvider}
    (h : Numbered n slots provider) (id : String) :
    ∃ slots', Numbered (n + 1) slots' (provider.insert id (endpointAt n)) := by
  rw [EndpointProvider.insert]
  by_cases hid : (provider.productIds.lookup id).isSome = true
  · -- the number `n` is lost
    refine ⟨slots, ?_, h.increasing, fun slot hs => Nat.lt_succ_of_lt (h.below slot hs)⟩
    rw [if_pos hid]
    exact h.table
  · refine ⟨slots ++ [(id, n)], ?_, ?_, fun slot hs => ?_⟩
    · rw [if_neg hid, h.table, List.map_append]
      rfl
    · refine List.pairwise_append.mpr ⟨h.increasing, List.pairwise_singleton _ _, ?_⟩
      intro slot hs last hlast
      rw [List.mem_singleton.mp hlast]
      exact h.below slot hs
    · rcases List.mem_append.mp hs with hs | hs
      · exact Nat.lt_succ_of_lt (h.below slot hs)
      · rw [List.mem_singleton.mp hs]
        exact Nat.lt_succ_self n

theorem numbered_insertOnline {products : List Json} {n : Nat} {slots : List (String × Nat)}
    {provider provider' : EndpointProvider} (hn : Numbered n slots provider)
    (h : insertOnline products provider (83000 + n) (93000 + n) = .ok provider') :
    ∃ slots', Numbered (n + products.countP isOnline) slots' provider' := by
  induction products generalizing n slots provider with
  | nil =>
    cases h
    exact ⟨slots, hn⟩
  | cons product products ih =>
    by_cases honline : isOnline product = true
    · obtain ⟨id, -, h⟩ := (insertOnline_online honline).mp h
      obtain ⟨slots', hn'⟩ := hn.insert id
      rw [List.countP_cons_of_pos honline, Nat.add_comm _ 1, ← Nat.add_assoc]
      exact ih hn' h
    · obtain ⟨-, h⟩ := (insertOnline_offline honline).mp h
      rw [List.countP_cons_of_neg honline]
      exact ih hn h

/-- Every table that the constructor builds is numbered. -/
theorem numbered_ofProducts {jmsg : Json} {provider : EndpointProvider}
    (h : ofProducts (.ok jmsg) = .ok provider) :
    ∃ slots, Numbered (jmsg.items.countP isOnline) slots provider := by
  have hrun : insertOnline jmsg.items {} (83000 + 0) (93000 + 0) = .ok provider := h
  obtain ⟨slots, hslots⟩ := numbered_insertOnline numbered_nil hrun
  rw [Nat.zero_add] at hslots
  exact ⟨slots, hslots⟩

/-! ## The ports of the table -/

theorem tcpPort_toString (n : Nat) : tcpPort (toString n) = UInt16.ofNat n := by
  show UInt16.ofNat (Nat.ofDigitChars 10 (Nat.repr n).toList 0) = UInt16.ofNat n
  rw [Nat.toList_repr, Nat.ofDigitChars_ten_toDigits]

/-- In the range the ports are taken from, the reduction loses nothing. -/
theorem ofNat_eq_iff {a b : Nat} (ha : 83000 ≤ a ∧ a < 103000) (hb : 83000 ≤ b ∧ b < 103000) :
    UInt16.ofNat a = UInt16.ofNat b ↔ a = b := by
  rw [← UInt16.toNat_inj, UInt16.toNat_ofNat', UInt16.toNat_ofNat']
  omega

theorem ofNat_ne_zero {a : Nat} (ha : 83000 ≤ a ∧ a < 103000) : UInt16.ofNat a ≠ 0 := by
  intro h
  have hnat := congrArg UInt16.toNat h
  rw [UInt16.toNat_ofNat', UInt16.toNat_zero] at hnat
  omega

theorem Numbered.tcpPorts {n : Nat} {slots : List (String × Nat)} {provider : EndpointProvider}
    (h : Numbered n slots provider) :
    provider.ports.map tcpPort = slots.flatMap fun slot =>
      [UInt16.ofNat (83000 + slot.2), UInt16.ofNat (93000 + slot.2)] := by
  rw [ports, h.table, List.flatMap_map, List.map_flatMap]
  simp only [endpointAt, List.map_cons, List.map_nil, tcpPort_toString]

theorem Numbered.tcpPorts_nodup {n : Nat} {slots : List (String × Nat)}
    {provider : EndpointProvider} (h : Numbered n slots provider) (hn : n ≤ 10000) :
    (provider.ports.map tcpPort).Nodup := by
  rw [h.tcpPorts, List.nodup_flatMap]
  constructor
  · intro slot hs
    have hlt := h.below slot hs
    rw [List.nodup_cons, List.mem_singleton, ofNat_eq_iff (by omega) (by omega)]
    exact ⟨by omega, List.nodup_singleton _⟩
  · refine h.increasing.imp_of_mem ?_
    intro a b ha hb hlt
    have hb' := h.below b hb
    refine List.disjoint_left.mpr fun port hpa hpb => ?_
    simp only [List.mem_cons, List.not_mem_nil, or_false] at hpa hpb
    -- the numbers of the two differ, and the two ranges do not meet
    rcases hpa with rfl | rfl <;> rcases hpb with heq | heq
    all_goals
      rw [ofNat_eq_iff (by omega) (by omega)] at heq
      omega

theorem Numbered.tcpPorts_ne_zero {n : Nat} {slots : List (String × Nat)}
    {provider : EndpointProvider} (h : Numbered n slots provider) (hn : n ≤ 10000) :
    ∀ port ∈ provider.ports, tcpPort port ≠ 0 := by
  intro port hport
  have hmem : tcpPort port ∈ provider.ports.map tcpPort := List.mem_map_of_mem hport
  rw [h.tcpPorts, List.mem_flatMap] at hmem
  obtain ⟨slot, hs, hmem⟩ := hmem
  have hlt := h.below slot hs
  simp only [List.mem_cons, List.not_mem_nil, or_false] at hmem
  rcases hmem with heq | heq
  · rw [heq]
    exact ofNat_ne_zero (by omega)
  · rw [heq]
    exact ofNat_ne_zero (by omega)

/-- **The endpoint table.** With at most 10000 products online, the table has the ids of
the products that are online and no others, and no two of its ports are the same, as the
strings of the table or as TCP ports. -/
theorem ofProducts_table {jmsg : Json} {provider : EndpointProvider}
    (hcount : jmsg.items.countP isOnline ≤ 10000)
    (h : ofProducts (.ok jmsg) = .ok provider) :
    (∀ id, provider.contains id = true ↔ id ∈ onlineIds jmsg) ∧
      provider.ports.Nodup ∧ (provider.ports.map tcpPort).Nodup ∧
      ∀ port ∈ provider.ports, tcpPort port ≠ 0 := by
  obtain ⟨slots, hslots⟩ := numbered_ofProducts h
  have htcp := hslots.tcpPorts_nodup hcount
  refine ⟨fun id => ?_, htcp.of_map _, htcp, hslots.tcpPorts_ne_zero hcount⟩
  have hrun : insertOnline jmsg.items {} 83000 93000 = .ok provider := h
  rw [contains_insertOnline id hrun]
  exact or_iff_right Bool.false_ne_true

/-- An entry of the exchange's product list. -/
def listed (id status : String) : Json :=
  .object [("id", .string id), ("status", .string status)]

/-- A repeated id keeps its first endpoint, and the ports of its second entry are lost. -/
theorem ofProducts_table_repeated :
    let jmsg := Json.array [listed "ETH-USD" "online", listed "XRP-USD" "delisted",
      listed "ETH-USD" "online", listed "BTC-USD" "online"]
    let provider : EndpointProvider :=
      { productIds := [("ETH-USD", endpointAt 0), ("BTC-USD", endpointAt 2)] }
    (∀ id, provider.contains id = true ↔ id ∈ onlineIds jmsg) ∧
      provider.ports.Nodup ∧ (provider.ports.map tcpPort).Nodup ∧
      ∀ port ∈ provider.ports, tcpPort port ≠ 0 :=
  ofProducts_table (by decide) rfl

/-- The table is built from every product list whose entries say what they must. -/
theorem ofProducts_returns_iff {jmsg : Json} :
    (∃ provider, ofProducts (.ok jmsg) = .ok provider) ↔
      ∀ product ∈ jmsg.items, IsListed product :=
  insertOnline_returns_iff

/-! ## The endpoints of the publishers -/

/-- The number of a product of the table. -/
theorem Numbered.number_of_product {n : Nat} {slots : List (String × Nat)}
    {provider : EndpointProvider} (h : Numbered n slots provider) {id : String}
    {endpoint : Endpoint} (hid : provider.prodIdToPort id = .ok endpoint) :
    ∃ i, (id, i) ∈ slots ∧ endpoint = endpointAt i := by
  rw [prodIdToPort] at hid
  cases hl : provider.productIds.lookup id with
  | none =>
    rw [hl] at hid
    cases hid
  | some found =>
    rw [hl] at hid
    cases hid
    obtain ⟨before, after, htable, -⟩ := List.lookup_eq_some_iff.mp hl
    have hmem : (id, endpoint) ∈ provider.productIds := by
      rw [htable]
      simp
    rw [h.table] at hmem
    obtain ⟨slot, hs, heq⟩ := List.mem_map.mp hmem
    cases heq
    exact ⟨slot.2, hs, rfl⟩

/-- Two products do not share a number. -/
theorem Numbered.product_unique {n : Nat} {slots : List (String × Nat)}
    {provider : EndpointProvider} (h : Numbered n slots provider) {p q : String} {i : Nat}
    (hp : (p, i) ∈ slots) (hq : (q, i) ∈ slots) : p = q := by
  have hnumbers : (slots.map Prod.snd).Nodup :=
    List.pairwise_map.mpr (h.increasing.imp fun hlt => hlt.ne)
  exact congrArg Prod.fst (List.inj_on_of_nodup_map hnumbers hp hq rfl)

theorem address_inj {a b : Nat}
    (h : "127.0.0.1" ++ ":" ++ toString a = "127.0.0.1" ++ ":" ++ toString b) : a = b := by
  have hlist : ("127.0.0.1" ++ ":").toList ++ (Nat.repr a).toList =
      ("127.0.0.1" ++ ":").toList ++ (Nat.repr b).toList := by
    rw [← String.toList_append, ← String.toList_append]
    exact congrArg String.toList h
  have hdigits := List.append_cancel_left hlist
  rw [Nat.toList_repr, Nat.toList_repr] at hdigits
  have hvalue := congrArg (fun digits => Nat.ofDigitChars 10 digits 0) hdigits
  simpa only [Nat.ofDigitChars_ten_toDigits] using hvalue

variable {FloatingP : Type}

theorem Numbered.orderbook_endpoint {n : Nat} {slots : List (String × Nat)}
    {provider : EndpointProvider} (h : Numbered n slots provider) {p : String}
    {publisher : ProductChangePublisherZMQ FloatingP}
    (hp : ProductChangePublisherZMQ.create provider p = .ok publisher) :
    ∃ i, (p, i) ∈ slots ∧
      publisher.endpoint = "127.0.0.1" ++ ":" ++ toString (83000 + i) := by
  obtain ⟨endpoint, hend, hp⟩ := bind_eq_ok.mp hp
  obtain ⟨i, hi, rfl⟩ := h.number_of_product hend
  cases hp
  exact ⟨i, hi, rfl⟩

theorem Numbered.trade_endpoint {n : Nat} {slots : List (String × Nat)}
    {provider : EndpointProvider} (h : Numbered n slots provider) {p : String}
    {publisher : TradePublisher FloatingP}
    (hp : TradePublisher.create provider p = .ok publisher) :
    ∃ i, (p, i) ∈ slots ∧
      publisher.endpoint = "127.0.0.1" ++ ":" ++ toString (93000 + i) := by
  obtain ⟨endpoint, hend, hp⟩ := bind_eq_ok.mp hp
  obtain ⟨i, hi, rfl⟩ := h.number_of_product hend
  cases hp
  exact ⟨i, hi, rfl⟩

/-- **Publishers that are bound to one endpoint** are of one kind and for one product. -/
theorem publishers_endpoints_inj {jmsg : Json} {provider : EndpointProvider}
    (hcount : jmsg.items.countP isOnline ≤ 10000)
    (h : ofProducts (.ok jmsg) = .ok provider) {p q : String}
    {books books' : ProductChangePublisherZMQ FloatingP} {trades trades' : TradePublisher FloatingP}
    (hbooks : ProductChangePublisherZMQ.create provider p = .ok books)
    (hbooks' : ProductChangePublisherZMQ.create provider q = .ok books')
    (htrades : TradePublisher.create provider p = .ok trades)
    (htrades' : TradePublisher.create provider q = .ok trades') :
    (books.endpoint = books'.endpoint → p = q) ∧
      (trades.endpoint = trades'.endpoint → p = q) ∧ books.endpoint ≠ trades'.endpoint := by
  obtain ⟨slots, hslots⟩ := numbered_ofProducts h
  obtain ⟨i, hi, hbooks⟩ := hslots.orderbook_endpoint hbooks
  obtain ⟨j, hj, hbooks'⟩ := hslots.orderbook_endpoint hbooks'
  obtain ⟨k, hk, htrades⟩ := hslots.trade_endpoint htrades
  obtain ⟨l, hl, htrades'⟩ := hslots.trade_endpoint htrades'
  rw [hbooks, hbooks', htrades, htrades']
  refine ⟨fun heq => ?_, fun heq => ?_, fun heq => ?_⟩
  · have hij := address_inj heq
    obtain rfl : i = j := by omega
    exact hslots.product_unique hi hj
  · have hkl := address_inj heq
    obtain rfl : k = l := by omega
    exact hslots.product_unique hk hl
  · have hil := address_inj heq
    have hlt := hslots.below _ hi
    dsimp only at hlt
    omega

end EndpointProvider

end QuoteServer
