import QuoteServer.Provenance
import QuoteServer.Registries

/-!
# Products that nobody gives up

A product that is never unsubscribed from lives once: up to the one subscription that
creates it nothing happens to it, and from there on it stays (`livesOnce_of_run`).
-/

namespace QuoteServer

open EventMachine

variable {FloatingP : Type} [FloatingPoint FloatingP]

/-! ## One step -/

variable {provider : EndpointProvider} {t t' : MarketState FloatingP} {p : String}
  {e : ServerEvent FloatingP}

/-- A product stays if it is not unsubscribed from. -/
theorem product_stays (hp : (t.market.products p).isSome = true)
    (hkept : ∀ c, e ≠ .market (.unsubscribe c p)) (h : t.serverStep provider e = some t') :
    (t'.market.products p).isSome = true := by
  cases e with
  | feed q e =>
    obtain ⟨f, f', pcs, -, -, -, -, rfl⟩ := serverStep_feed h
    exact hp
  | market e =>
    have hstep := (serverStep_market h).1
    cases e with
    | subscribeProduct c q =>
      obtain ⟨m, hm, rfl⟩ := toOption_map_eq_some.mp hstep
      rcases Market.subscribeProduct_cases hm with ⟨_, -, rfl⟩ | ⟨-, _, -, rfl⟩
      · exact hp
      · exact (isSome_update_some ..).mpr (.inr hp)
    | subscribeTrades q =>
      obtain ⟨m, hm, rfl⟩ := toOption_map_eq_some.mp hstep
      show (m.products p).isSome = true
      rw [(Market.untouched_subscribeTrades hm).1]
      exact hp
    | unsubscribe c q =>
      obtain ⟨m, hm, rfl⟩ := toOption_map_eq_some.mp hstep
      have hne : p ≠ q := by
        rintro rfl
        exact hkept c rfl
      show (m.products p).isSome = true
      rw [(sameEntries_unsubscribe hne hm).product]
      exact hp
    | onProductChange pc => cases h
    | onTrade trade =>
      cases hstep
      show ((t.market.onTrade trade).products p).isSome = true
      rw [(t.market.onTrade_frame trade).1]
      exact hp
    | takeChanges =>
      obtain ⟨-, rfl⟩ := step_takeChanges hstep
      exact hp
    | processChanges picks =>
      obtain ⟨it, -, -, rfl⟩ := step_processChanges hstep
      obtain ⟨products, heq, hsome⟩ := Market.processChanges_frame it t.market
      show ((t.market.processChanges it).products p).isSome = true
      rw [heq]
      exact (hsome p).trans hp

/-- A product that is not there comes with a subscription to it only. -/
theorem product_absent {e : MarketEvent FloatingP} (habsent : t.market.products p = none)
    (hnew : ∀ c, e ≠ .subscribeProduct c p) (h : t.step provider e = some t') :
    t'.market.products p = none := by
  cases e with
  | subscribeProduct c q =>
    obtain ⟨m, hm, rfl⟩ := toOption_map_eq_some.mp h
    have hne : p ≠ q := by
      rintro rfl
      exact hnew c rfl
    exact (sameEntries_subscribeProduct hne hm).product.trans habsent
  | subscribeTrades q =>
    obtain ⟨m, hm, rfl⟩ := toOption_map_eq_some.mp h
    show m.products p = none
    rw [(Market.untouched_subscribeTrades hm).1]
    exact habsent
  | unsubscribe c q =>
    obtain ⟨m, hm, rfl⟩ := toOption_map_eq_some.mp h
    -- the call dereferences the end iterator if the product is not there
    have hne : p ≠ q := by
      rintro rfl
      obtain ⟨product, hproduct, -⟩ := Market.unsubscribe_cases hm
      rw [habsent] at hproduct
      cases hproduct
    exact (sameEntries_unsubscribe hne hm).product.trans habsent
  | onProductChange pc =>
    cases h
    exact habsent
  | onTrade trade =>
    cases h
    show (t.market.onTrade trade).products p = none
    rw [(t.market.onTrade_frame trade).1]
    exact habsent
  | takeChanges =>
    obtain ⟨-, rfl⟩ := step_takeChanges h
    exact habsent
  | processChanges picks =>
    obtain ⟨it, -, -, rfl⟩ := step_processChanges h
    obtain ⟨products, heq, hsome⟩ := Market.processChanges_frame it t.market
    show (t.market.processChanges it).products p = none
    rw [heq]
    have hsame := hsome p
    rw [habsent] at hsame
    exact Option.isNone_iff_eq_none.mp (Option.isSome_eq_false_iff.mp hsame)

/-- Without a delivery nothing comes to wait. -/
theorem nothing_waiting {e : MarketEvent FloatingP} (hnothing : t.waiting p = [])
    (hother : ∀ pc, e ≠ .onProductChange pc) (h : t.step provider e = some t') :
    t'.waiting p = [] := by
  have hcall : ∀ m : Market FloatingP, m.productChanges = t.market.productChanges →
      ({ t with market := m } : MarketState FloatingP).waiting p = [] := by
    intro m hm
    rw [← hnothing]
    exact MarketState.waiting_congr p rfl hm
  cases e with
  | subscribeProduct c q =>
    obtain ⟨m, hm, rfl⟩ := toOption_map_eq_some.mp h
    refine hcall m ?_
    rcases Market.subscribeProduct_cases hm with ⟨_, -, rfl⟩ | ⟨-, _, -, rfl⟩ <;> rfl
  | subscribeTrades q =>
    obtain ⟨m, hm, rfl⟩ := toOption_map_eq_some.mp h
    exact hcall m (Market.untouched_subscribeTrades hm).2
  | unsubscribe c q =>
    obtain ⟨m, hm, rfl⟩ := toOption_map_eq_some.mp h
    refine hcall m ?_
    obtain ⟨product, -, ⟨-, rfl⟩ | ⟨-, rfl⟩⟩ := Market.unsubscribe_cases hm <;> rfl
  | onProductChange pc => exact absurd rfl (hother pc)
  | onTrade trade =>
    cases h
    exact hcall _ (t.market.onTrade_frame trade).2.1
  | takeChanges =>
    obtain ⟨hcurrent, rfl⟩ := step_takeChanges h
    unfold MarketState.waiting at hnothing ⊢
    rw [hcurrent, List.nil_append] at hnothing
    rw [List.append_nil]
    exact hnothing
  | processChanges picks =>
    obtain ⟨it, -, -, rfl⟩ := step_processChanges h
    obtain ⟨products, heq, -⟩ := Market.processChanges_frame it t.market
    unfold MarketState.waiting at hnothing ⊢
    rw [changesFor_append] at hnothing
    show changesFor p ([] ++ (t.market.processChanges it).productChanges) = []
    rw [heq]
    exact (List.append_eq_nil_iff.mp hnothing).2

/-- The product is not there, nothing of it waits and nothing happened to it. -/
structure Untouched (p : String) (events : List (ServerEvent FloatingP))
    (t : MarketState FloatingP) : Prop where
  absent : t.market.products p = none
  nothing : t.waiting p = []
  unfed : feedEvents p events = []

/-- Nothing happens to a product that nobody subscribed to. -/
theorem Untouched.step {events : List (ServerEvent FloatingP)} (ht : Untouched p events t)
    (hregistered : Registered t.market) (hnew : ∀ c, e ≠ .market (.subscribeProduct c p))
    (h : t.serverStep provider e = some t') : Untouched p (events ++ [e]) t' := by
  obtain ⟨habsent, hnothing, hunfed⟩ := ht
  cases e with
  | feed q e =>
    obtain ⟨f, f', pcs, hf, -, -, hids, rfl⟩ := serverStep_feed h
    -- only a product that is there has a feed product
    have hne : q ≠ p := by
      rintro rfl
      rw [hregistered.listener_none habsent] at hf
      cases hf
    refine ⟨habsent, ?_, ?_⟩
    · have hother : changesFor p pcs = [] := by
        refine KeyedBatch.forKey_eq_nil.mpr fun pc hpc hkey => ?_
        exact hne (((hids pc hpc).trans (hregistered.ids q f hf)).symm.trans hkey)
      unfold MarketState.waiting at hnothing ⊢
      rw [← List.append_assoc, changesFor_append, hnothing, hother]
      rfl
    · rw [feedEvents_append, hunfed, feedEvents_ne e hne]
      rfl
  | market e =>
    obtain ⟨hstep, hother⟩ := serverStep_market h
    refine ⟨product_absent habsent (fun c hc => hnew c (by rw [hc])) hstep,
      nothing_waiting hnothing hother hstep, ?_⟩
    rw [feedEvents_append, hunfed, feedEvents_market]
    rfl

/-! ## Whole runs -/

/-- A product that is there since the one subscription that created it. -/
structure CreatedBy (provider : EndpointProvider) (p c : String)
    (pre post : List (ServerEvent FloatingP)) (t₀ t₁ t : MarketState FloatingP) : Prop where
  before : (serverMachine provider).run {} pre = some t₀
  untouched : Untouched p pre t₀
  created : t₀.serverStep provider (.market (.subscribeProduct c p)) = some t₁
  after : (serverMachine provider).run t₁ post = some t
  stays : StaysIn (serverMachine provider) p t₁ post

/-- The product is untouched, or there since one subscription created it. -/
def LivesOnce (provider : EndpointProvider) (p : String) (events : List (ServerEvent FloatingP))
    (t : MarketState FloatingP) : Prop :=
  Untouched p events t ∨ ∃ c pre post t₀ t₁,
    events = pre ++ .market (.subscribeProduct c p) :: post ∧
      CreatedBy provider p c pre post t₀ t₁ t

theorem livesOnce_step {events : List (ServerEvent FloatingP)} (ht : LivesOnce provider p events t)
    (hrun : (serverMachine provider).run {} events = some t)
    (hkept : ∀ c, e ≠ .market (.unsubscribe c p)) (h : t.serverStep provider e = some t') :
    LivesOnce provider p (events ++ [e]) t' := by
  rcases ht with huntouched | ⟨c, pre, post, t₀, t₁, rfl, hcreated⟩
  · by_cases hnew : ∃ c, e = .market (.subscribeProduct c p)
    · obtain ⟨c, rfl⟩ := hnew
      refine .inr ⟨c, events, [], t, t', rfl, hrun, huntouched, h, rfl, ?_⟩
      obtain ⟨m, hm, rfl⟩ := toOption_map_eq_some.mp (serverStep_market h).1
      exact Machine.always_nil _ (subscribeProduct_isSome hm)
    · refine .inl (huntouched.step (registered_of_run hrun) (fun c he => ?_) h)
      exact hnew ⟨c, he⟩
  · have hthere : (t.market.products p).isSome = true :=
      hcreated.stays post [] t (List.append_nil _).symm hcreated.after
    have hstays := product_stays hthere hkept h
    refine .inr ⟨c, pre, post ++ [e], t₀, t₁, by simp, hcreated.before, hcreated.untouched,
      hcreated.created, (Machine.run_snoc _).mpr ⟨t, hcreated.after, h⟩, ?_⟩
    exact hcreated.stays.append hcreated.after
      (Machine.always_cons _ hthere h (Machine.always_nil _ hstays))

/-- A product that nobody unsubscribes from lives once. -/
theorem livesOnce_of_run {events : List (ServerEvent FloatingP)}
    (hrun : (serverMachine provider).run {} events = some t)
    (hkept : ∀ c, .market (.unsubscribe c p) ∉ events) : LivesOnce provider p events t := by
  have hg : (serverMachine provider).Guarded
      (fun _ e => ∀ c, e ≠ .market (.unsubscribe c p)) {} events :=
    Machine.guarded_of_mem _ fun e he _ c heq => hkept c (heq ▸ he)
  refine (serverMachine provider).history_rule
    (I := fun events t => LivesOnce provider p events t) ?_ ?_ hg hrun
  · exact .inl ⟨rfl, rfl, rfl⟩
  · intro events t e t' hpre ih hge hstep
    exact livesOnce_step ih hpre hge hstep

end QuoteServer
