import QuoteServer.DemoClient.Endpoints

/-!
# When the demo client listens exactly where it is subscribed

What became of the confirmations for one endpoint is a matter of counting: every
subscription that was handled started a thread, and once any unsubscription was handled
the first of these threads is stopped, and no other ever is (`Accounts`). So the client
listens where it is subscribed as long as an endpoint is not subscribed again while its
first thread runs, and not unsubscribed again after it was subscribed a second time; and
an endpoint that is unsubscribed and subscribed for the first time within one wake-up
ends up stopped (`listens_iff`).
-/

namespace QuoteServer

open EventMachine

inductive ConfirmationKind where
  | subscribe
  | unsubscribe
  deriving DecidableEq, Repr

/-- A confirmation of the server with the two endpoints it is about. -/
structure Confirmation where
  kind : ConfirmationKind
  productEndpoint : String
  tradeEndpoint : String
  deriving DecidableEq, Repr

/-- What a message confirms, if it is a confirmation. -/
def confirmation (jmsg : Json) : Option Confirmation := do
  let kind ←
    if jmsg.stringMember "type" = some "subscribe_request" then some .subscribe
    else if jmsg.stringMember "type" = some "unsubscribe_request" then some .unsubscribe
    else none
  return {
    kind := kind
    productEndpoint := ← jmsg.stringMember "product_endpoint"
    tradeEndpoint := ← jmsg.stringMember "trade_endpoint" }

/-- How often a confirmation names an endpoint. -/
def Confirmation.naming (conf : Confirmation) (endpoint : String) : Nat :=
  [conf.productEndpoint, conf.tradeEndpoint].count endpoint

namespace DemoClient

/-! ## Runs of the client -/

inductive Event where
  /-- The main loop receives a message. -/
  | message (jmsg : Json)
  /-- The loop in `hendleNewEndpoints` goes around once. -/
  | wakeUp

inductive State where
  | running (c : DemoClient)
  /-- A wake-up dereferenced a null pointer. -/
  | nullDereferenced

def State.step : State → Event → Option State
  | .running c, .message jmsg => (c.onMessage jmsg).toOption.map .running
  | .running c, .wakeUp =>
    if c.endpointsToSubscribe = [] ∧ c.endpointsToUnsubscribe = [] then none
    else
      match c.hendleNewEndpoints with
      | some c' => some (.running c')
      | none => some .nullDereferenced
  | .nullDereferenced, _ => none

def clientMachine : Machine State Event where
  step := State.step

/-- The confirmations for an endpoint in a run, in order. One that names the endpoint
twice counts twice. -/
def confirmations (endpoint : String) (es : List Event) : List ConfirmationKind :=
  es.flatMap fun
    | .message jmsg =>
      match confirmation jmsg with
      | some conf => List.replicate (conf.naming endpoint) conf.kind
      | none => []
    | .wakeUp => []

/-- Once everything that was queued is handled, one thread listens to each endpoint whose
last confirmation was for a subscription, and none to any other. -/
def ListensWhereSubscribed (es : List Event) : State → Prop
  | .running c => c.endpointsToSubscribe = [] → c.endpointsToUnsubscribe = [] →
    ∀ endpoint, c.listening endpoint =
      if (confirmations endpoint es).getLast? = some .subscribe then 1 else 0
  | .nullDereferenced => False

/-- The confirmations for one endpoint that the client can cope with: none at all; one for
a subscription, then perhaps some for unsubscriptions; or a second one for a subscription
after an unsubscription, as the last. -/
def Manageable (confirmed : List ConfirmationKind) : Prop :=
  confirmed.count .subscribe = 0 ∧ .unsubscribe ∉ confirmed ∨
  confirmed.count .subscribe = 1 ∧
    (.unsubscribe ∈ confirmed → confirmed.getLast? = some .unsubscribe) ∨
  confirmed.count .subscribe = 2 ∧ .unsubscribe ∈ confirmed ∧
    confirmed.getLast? = some .subscribe

/-! ## What is queued -/

theorem confirmations_append (endpoint : String) (es fs : List Event) :
    confirmations endpoint (es ++ fs) = confirmations endpoint es ++ confirmations endpoint fs :=
  List.flatMap_append

theorem confirmations_wakeUp (endpoint : String) (es : List Event) :
    confirmations endpoint (es ++ [.wakeUp]) = confirmations endpoint es := by
  rw [confirmations_append]
  exact List.append_nil _

/-- A confirmation counts as often as it names the endpoint. -/
theorem count_confirmations {jmsg : Json} {conf : Confirmation}
    (h : confirmation jmsg = some conf) (endpoint : String) (es : List Event)
    (kind : ConfirmationKind) :
    (confirmations endpoint (es ++ [.message jmsg])).count kind =
      (confirmations endpoint es).count kind +
        if conf.kind = kind then conf.naming endpoint else 0 := by
  have hlast : confirmations endpoint [.message jmsg] =
      List.replicate (conf.naming endpoint) conf.kind := by
    show (match confirmation jmsg with
      | some conf => List.replicate (conf.naming endpoint) conf.kind
      | none => []) ++ [] = _
    rw [h, List.append_nil]
  rw [confirmations_append, List.count_append, hlast, List.count_replicate]
  simp only [beq_iff_eq]

theorem confirmations_of_none {jmsg : Json} (h : confirmation jmsg = none) (endpoint : String)
    (es : List Event) :
    confirmations endpoint (es ++ [.message jmsg]) = confirmations endpoint es := by
  rw [confirmations_append]
  show _ ++ ((match confirmation jmsg with
    | some conf => List.replicate (conf.naming endpoint) conf.kind
    | none => []) ++ []) = _
  rw [h, List.append_nil, List.append_nil]

/-- What the main loop does with a message, in terms of what the message confirms. -/
theorem onMessage_cases {jmsg : Json} {c c' : DemoClient} (h : c.onMessage jmsg = .ok c') :
    (∃ p t, confirmation jmsg = some ⟨.subscribe, p, t⟩ ∧
      c' = { c with endpointsToSubscribe := c.endpointsToSubscribe ++ [p, t] }) ∨
    (∃ p t, confirmation jmsg = some ⟨.unsubscribe, p, t⟩ ∧
      c' = { c with endpointsToUnsubscribe := c.endpointsToUnsubscribe ++ [p, t] }) ∨
    (confirmation jmsg = none ∧ c' = c) := by
  unfold onMessage at h
  unfold confirmation
  by_cases hc : jmsg.contains "type" = true
  · rw [if_pos hc] at h
    obtain ⟨type, htype, h⟩ := bind_eq_ok.mp h
    simp only [Json.isString_iff htype] at h
    by_cases hid : jmsg.stringMember "type" = some "client_id_request"
    · rw [if_pos hid] at h
      obtain ⟨_, -, h⟩ := bind_eq_ok.mp h
      cases h
      exact .inr (.inr ⟨by rw [hid]; rfl, rfl⟩)
    rw [if_neg hid] at h
    by_cases hsub : jmsg.stringMember "type" = some "subscribe_request"
    · rw [if_pos hsub] at h
      obtain ⟨p, hp, h⟩ := bind_eq_ok.mp h
      obtain ⟨t, ht, h⟩ := bind_eq_ok.mp h
      cases h
      refine .inl ⟨p, t, ?_, rfl⟩
      rw [if_pos hsub, Json.stringAt_eq_ok.mp hp, Json.stringAt_eq_ok.mp ht]
      rfl
    rw [if_neg hsub] at h
    by_cases hunsub : jmsg.stringMember "type" = some "unsubscribe_request"
    · rw [if_pos hunsub] at h
      obtain ⟨p, hp, h⟩ := bind_eq_ok.mp h
      obtain ⟨t, ht, h⟩ := bind_eq_ok.mp h
      cases h
      refine .inr (.inl ⟨p, t, ?_, rfl⟩)
      rw [if_neg hsub, if_pos hunsub, Json.stringAt_eq_ok.mp hp, Json.stringAt_eq_ok.mp ht]
      rfl
    · rw [if_neg hunsub] at h
      cases h
      refine .inr (.inr ⟨?_, rfl⟩)
      rw [if_neg hsub, if_neg hunsub]
      rfl
  · rw [if_neg hc] at h
    cases h
    have hnone : ∀ s, jmsg.stringMember "type" ≠ some s :=
      fun s hs => hc (Json.contains_of_stringMember hs)
    refine .inr (.inr ⟨?_, rfl⟩)
    rw [if_neg (hnone _), if_neg (hnone _)]
    rfl

/-! ## Counting the confirmations -/

/-- The flags of an endpoint after some subscriptions and unsubscriptions were handled:
all set, but for the first once there was an unsubscription. -/
def flagsFor (subscribed unsubscribed : Nat) : List Bool :=
  if unsubscribed = 0 then List.replicate subscribed true
  else clearFirst (List.replicate subscribed true)

theorem flagsFor_eq_nil_iff {subscribed unsubscribed : Nat} :
    flagsFor subscribed unsubscribed = [] ↔ subscribed = 0 := by
  unfold flagsFor
  by_cases h : unsubscribed = 0
  · rw [if_pos h, List.replicate_eq_nil_iff]
  · rw [if_neg h, clearFirst_eq_nil_iff, List.replicate_eq_nil_iff]

theorem count_flagsFor (subscribed unsubscribed : Nat) :
    (flagsFor subscribed unsubscribed).count true =
      if unsubscribed = 0 then subscribed else subscribed - 1 := by
  unfold flagsFor
  by_cases h : unsubscribed = 0
  · rw [if_pos h, if_pos h, List.count_replicate_self]
  · rw [if_neg h, if_neg h]
    cases subscribed with
    | zero => rfl
    | succ n =>
      show (false :: List.replicate n true).count true = n
      rw [List.count_cons_of_ne Bool.false_ne_true, List.count_replicate_self]

/-- New threads come last, so they do not change what an earlier unsubscription did. -/
theorem flagsFor_append {subscribed unsubscribed : Nat} (h : subscribed = 0 → unsubscribed = 0)
    (n : Nat) :
    flagsFor subscribed unsubscribed ++ List.replicate n true =
      flagsFor (subscribed + n) unsubscribed := by
  unfold flagsFor
  by_cases hu : unsubscribed = 0
  · rw [if_pos hu, if_pos hu, List.replicate_append_replicate]
  · rw [if_neg hu, if_neg hu]
    cases subscribed with
    | zero => exact absurd (h rfl) hu
    | succ m =>
      rw [Nat.succ_add]
      show false :: (List.replicate m true ++ List.replicate n true) =
        false :: List.replicate (m + n) true
      rw [List.replicate_append_replicate]

theorem clearFirst_flagsFor (subscribed unsubscribed : Nat) {n : Nat} (hn : n ≠ 0) :
    clearFirst (flagsFor subscribed unsubscribed) = flagsFor subscribed (unsubscribed + n) := by
  unfold flagsFor
  rw [if_neg (by omega : ¬ unsubscribed + n = 0)]
  by_cases h : unsubscribed = 0
  · rw [if_pos h]
  · rw [if_neg h, clearFirst_idem]

/-- The threads of every endpoint are those its handled confirmations call for, and the
confirmations that are not handled are queued. -/
structure Accounts (es : List Event) (c : DemoClient) : Prop where
  handlesFirst : c.HandlesFirst
  handled : ∀ e, ∃ subscribed unsubscribed,
    flagsOf c.receivers e = flagsFor subscribed unsubscribed ∧
      (subscribed = 0 → unsubscribed = 0) ∧
      (confirmations e es).count .subscribe = subscribed + c.endpointsToSubscribe.count e ∧
      (confirmations e es).count .unsubscribe = unsubscribed + c.endpointsToUnsubscribe.count e
  /-- With both queues empty, there was no confirmation yet or none since a wake-up. -/
  settled : c.endpointsToSubscribe = [] → c.endpointsToUnsubscribe = [] →
    ∀ e, confirmations e es = [] ∨
      ∃ pre post, es = pre ++ .wakeUp :: post ∧ confirmations e pre = confirmations e es

theorem accounts_nil : Accounts [] {} where
  handlesFirst := fun _ => rfl
  handled := fun _ => ⟨0, 0, rfl, fun _ => rfl, rfl, rfl⟩
  settled := fun _ _ _ => .inl rfl

/-- A message that confirms nothing. -/
theorem Accounts.message {es : List Event} {c : DemoClient} (h : Accounts es c) {jmsg : Json}
    (hnone : confirmation jmsg = none) : Accounts (es ++ [.message jmsg]) c where
  handlesFirst := h.handlesFirst
  handled := fun e => by
    rw [confirmations_of_none hnone]
    exact h.handled e
  settled := fun hsub hunsub e => by
    rw [confirmations_of_none hnone]
    rcases h.settled hsub hunsub e with hnil | ⟨pre, post, hes, heq⟩
    · exact .inl hnil
    · refine .inr ⟨pre, post ++ [.message jmsg], ?_, heq⟩
      rw [hes, List.append_assoc]
      rfl

theorem Accounts.subscribe {es : List Event} {c : DemoClient} (h : Accounts es c) {jmsg : Json}
    {p t : String} (hconf : confirmation jmsg = some ⟨.subscribe, p, t⟩) :
    Accounts (es ++ [.message jmsg])
      { c with endpointsToSubscribe := c.endpointsToSubscribe ++ [p, t] } where
  handlesFirst := h.handlesFirst
  handled := fun e => by
    obtain ⟨subscribed, unsubscribed, hflags, hzero, hsub, hunsub⟩ := h.handled e
    refine ⟨subscribed, unsubscribed, hflags, hzero, ?_, ?_⟩
    · rw [count_confirmations hconf, if_pos rfl, hsub, List.count_append, Nat.add_assoc]
      rfl
    · rw [count_confirmations hconf, if_neg ConfirmationKind.noConfusion, hunsub]
      rfl
  settled := fun hsub => absurd hsub (List.append_ne_nil_of_right_ne_nil _ (List.cons_ne_nil _ _))

theorem Accounts.unsubscribe {es : List Event} {c : DemoClient} (h : Accounts es c)
    {jmsg : Json} {p t : String} (hconf : confirmation jmsg = some ⟨.unsubscribe, p, t⟩) :
    Accounts (es ++ [.message jmsg])
      { c with endpointsToUnsubscribe := c.endpointsToUnsubscribe ++ [p, t] } where
  handlesFirst := h.handlesFirst
  handled := fun e => by
    obtain ⟨subscribed, unsubscribed, hflags, hzero, hsub, hunsub⟩ := h.handled e
    refine ⟨subscribed, unsubscribed, hflags, hzero, ?_, ?_⟩
    · rw [count_confirmations hconf, if_neg ConfirmationKind.noConfusion, hsub]
      rfl
    · rw [count_confirmations hconf, if_pos rfl, hunsub, List.count_append, Nat.add_assoc]
      rfl
  settled := fun _ hunsub =>
    absurd hunsub (List.append_ne_nil_of_right_ne_nil _ (List.cons_ne_nil _ _))

/-- After a wake-up every confirmation is handled. -/
theorem Accounts.wakeUp {es : List Event} {c c' : DemoClient} (h : Accounts es c)
    (hc : c.hendleNewEndpoints = some c') : Accounts (es ++ [.wakeUp]) c' := by
  obtain ⟨hfirst, hsub', hunsub', hflags'⟩ := hendleNewEndpoints_spec h.handlesFirst hc
  have hneeded := (hendleNewEndpoints_some_iff h.handlesFirst).mp ⟨c', hc⟩
  refine ⟨hfirst, fun e => ?_, fun _ _ e => ?_⟩
  · obtain ⟨subscribed, unsubscribed, hflags, hzero, hsub, hunsub⟩ := h.handled e
    have hstarted : flagsOf c.receivers e ++ List.replicate (c.endpointsToSubscribe.count e) true =
        flagsFor (subscribed + c.endpointsToSubscribe.count e) unsubscribed := by
      rw [hflags, flagsFor_append hzero]
    refine ⟨subscribed + c.endpointsToSubscribe.count e,
      unsubscribed + c.endpointsToUnsubscribe.count e, ?_, fun hnone => ?_, ?_, ?_⟩
    · rw [hflags', flagsAfter, hstarted]
      by_cases hmem : e ∈ c.endpointsToUnsubscribe
      · rw [if_pos hmem]
        exact clearFirst_flagsFor _ _ (Nat.pos_iff_ne_zero.mp (List.count_pos_iff.mpr hmem))
      · rw [if_neg hmem, List.count_eq_zero.mpr hmem, Nat.add_zero]
    · -- an endpoint without any subscription has no unsubscription either
      have hmem : e ∉ c.endpointsToUnsubscribe := by
        intro hmem
        rcases hneeded e hmem with hthread | htaken
        · rw [hflags, ne_eq, flagsFor_eq_nil_iff] at hthread
          omega
        · have hpos := List.count_pos_iff.mpr htaken
          omega
      have hzero' := hzero (by omega)
      rw [hzero', List.count_eq_zero.mpr hmem]
    · rw [confirmations_wakeUp, hsub, hsub']
      rfl
    · rw [confirmations_wakeUp, hunsub, hunsub']
      rfl
  · exact .inr ⟨es, [], rfl, (confirmations_wakeUp e es).symm⟩

/-- Where a wake-up does not get through, it found an unsubscription for an endpoint that
was never subscribed. -/
theorem Accounts.missing {es : List Event} {c : DemoClient} (h : Accounts es c)
    (hnone : c.hendleNewEndpoints = none) :
    ∃ e, (confirmations e es).count .subscribe = 0 ∧ .unsubscribe ∈ confirmations e es := by
  have hmissing : ¬ ∀ e ∈ c.endpointsToUnsubscribe,
      flagsOf c.receivers e ≠ [] ∨ e ∈ c.endpointsToSubscribe := by
    intro hall
    obtain ⟨c', hc'⟩ := (hendleNewEndpoints_some_iff h.handlesFirst).mpr hall
    rw [hnone] at hc'
    cases hc'
  push Not at hmissing
  -- no thread before the wake-up, and none started in it
  obtain ⟨e, hmem, hflags, htaken⟩ := hmissing
  obtain ⟨subscribed, unsubscribed, heq, -, hsub, hunsub⟩ := h.handled e
  rw [heq, flagsFor_eq_nil_iff] at hflags
  have hpos := List.count_pos_iff.mpr hmem
  have hzero := List.count_eq_zero.mpr htaken
  exact ⟨e, by omega, List.count_pos_iff.mp (by omega)⟩

/-! ## Runs -/

/-- What a wake-up can do. -/
theorem wakeUp_cases {c : DemoClient} {s' : State}
    (hstep : clientMachine.step (.running c) .wakeUp = some s') :
    (∃ c', c.hendleNewEndpoints = some c' ∧ s' = .running c') ∨
      (c.hendleNewEndpoints = none ∧ s' = .nullDereferenced) := by
  have hwake : (if c.endpointsToSubscribe = [] ∧ c.endpointsToUnsubscribe = [] then none
    else match c.hendleNewEndpoints with
      | some c' => some (State.running c')
      | none => some State.nullDereferenced) = some s' := hstep
  by_cases hempty : c.endpointsToSubscribe = [] ∧ c.endpointsToUnsubscribe = []
  · rw [if_pos hempty] at hwake
    cases hwake
  rw [if_neg hempty] at hwake
  cases hnew : c.hendleNewEndpoints with
  | some c' =>
    rw [hnew] at hwake
    cases hwake
    exact .inl ⟨c', rfl, rfl⟩
  | none =>
    rw [hnew] at hwake
    cases hwake
    exact .inr ⟨rfl, rfl⟩

/-- What every run leaves: the confirmations are accounted for, or the last wake-up found
an unsubscription for an endpoint that was never subscribed. -/
def Explained (es : List Event) : State → Prop
  | .running c => Accounts es c
  | .nullDereferenced => ∃ pre, es = pre ++ [.wakeUp] ∧ ∃ e,
    (confirmations e pre).count .subscribe = 0 ∧ .unsubscribe ∈ confirmations e pre

theorem explained_step {es : List Event} {s s' : State} {e : Event} (h : Explained es s)
    (hstep : clientMachine.step s e = some s') : Explained (es ++ [e]) s' := by
  cases s with
  | nullDereferenced => cases hstep
  | running c =>
    have hc : Accounts es c := h
    cases e with
    | message jmsg =>
      obtain ⟨c', hmessage, rfl⟩ := toOption_map_eq_some.mp hstep
      rcases onMessage_cases hmessage with ⟨p, t, hconf, rfl⟩ | ⟨p, t, hconf, rfl⟩ | ⟨hnone, rfl⟩
      · exact hc.subscribe hconf
      · exact hc.unsubscribe hconf
      · exact hc.message hnone
    | wakeUp =>
      rcases wakeUp_cases hstep with ⟨c', hnew, rfl⟩ | ⟨hnone, rfl⟩
      · exact hc.wakeUp hnew
      · exact ⟨es, rfl, hc.missing hnone⟩

theorem explained {es : List Event} {s : State}
    (hrun : clientMachine.run (.running {}) es = some s) : Explained es s :=
  clientMachine.history_rule accounts_nil
    (fun _ _ _ _ _ h _ hstep => explained_step h hstep) (clientMachine.guarded_true _ _) hrun

/-- In a list of confirmations that is not empty, one kind comes last. -/
theorem getLast?_cases {confirmed : List ConfirmationKind} (h : confirmed ≠ []) :
    confirmed.getLast? = some .subscribe ∨ confirmed.getLast? = some .unsubscribe := by
  rw [List.getLast?_eq_some_getLast h]
  cases confirmed.getLast h
  · exact .inl rfl
  · exact .inr rfl

/-- Counting the threads of an endpoint: as many as should be there in just the cases that
are manageable. -/
theorem manageable_iff {confirmed : List ConfirmationKind}
    (hzero : confirmed.count .subscribe = 0 → confirmed.count .unsubscribe = 0) :
    ((if confirmed.count .unsubscribe = 0 then confirmed.count .subscribe
        else confirmed.count .subscribe - 1) =
      if confirmed.getLast? = some .subscribe then 1 else 0) ↔ Manageable confirmed := by
  have hunsub : .unsubscribe ∈ confirmed ↔ confirmed.count .unsubscribe ≠ 0 := by
    rw [← List.count_pos_iff, Nat.pos_iff_ne_zero]
  have hsub : .subscribe ∈ confirmed ↔ confirmed.count .subscribe ≠ 0 := by
    rw [← List.count_pos_iff, Nat.pos_iff_ne_zero]
  have hlast : confirmed.count .subscribe ≠ 0 →
      confirmed.getLast? = some .subscribe ∨ confirmed.getLast? = some .unsubscribe :=
    fun h => getLast?_cases (List.ne_nil_of_mem (hsub.mpr h))
  rw [Manageable, hunsub]
  by_cases hu : confirmed.count .unsubscribe = 0 <;>
    by_cases hl : confirmed.getLast? = some .subscribe
  · have hpos := hsub.mp (List.mem_of_getLast? hl)
    simp [hu, hl]
    omega
  · -- a last subscription is missing, so there is none
    have hnone : confirmed.count .subscribe = 0 := by
      by_contra hpos
      exact hunsub.mp (List.mem_of_getLast? ((hlast hpos).resolve_left hl)) hu
    simp [hu, hl, hnone]
  · simp [hu, hl]
  · have hpos : confirmed.count .subscribe ≠ 0 := fun h => hu (hzero h)
    have hlast' := (hlast hpos).resolve_left hl
    simp [hu, hlast']
    omega

/-- With everything handled, the right number of threads listen to an endpoint just when
its confirmations are manageable. -/
theorem Accounts.listening_iff {es : List Event} {c : DemoClient} (h : Accounts es c)
    (hsub : c.endpointsToSubscribe = []) (hunsub : c.endpointsToUnsubscribe = []) (e : String) :
    (c.listening e = if (confirmations e es).getLast? = some .subscribe then 1 else 0) ↔
      Manageable (confirmations e es) := by
  obtain ⟨subscribed, unsubscribed, hflags, hzero, hs, hu⟩ := h.handled e
  rw [hsub, List.count_nil, Nat.add_zero] at hs
  rw [hunsub, List.count_nil, Nat.add_zero] at hu
  rw [← hs, ← hu] at hzero
  rw [listening, hflags, count_flagsFor, ← hs, ← hu]
  exact manageable_iff hzero

/-- A wake-up that gets through leaves both queues empty. -/
theorem queues_of_wakeUp {es : List Event} {s : State} {c : DemoClient} (h : Explained es s)
    (hstep : clientMachine.step s .wakeUp = some (.running c)) :
    c.endpointsToSubscribe = [] ∧ c.endpointsToUnsubscribe = [] := by
  cases s with
  | nullDereferenced => cases hstep
  | running c₀ =>
    have hc : Accounts es c₀ := h
    rcases wakeUp_cases hstep with ⟨c', hnew, heq⟩ | ⟨-, heq⟩ <;> cases heq
    obtain ⟨-, hsub, hunsub, -⟩ := hendleNewEndpoints_spec hc.handlesFirst hnew
    exact ⟨hsub, hunsub⟩

/-- **When the client listens where it is subscribed.** In a run of the client, whatever
is confirmed and however the confirmations are cut into wake-ups, exactly one thread
listens to each endpoint last subscribed and none to any other whenever everything is
handled, and no null pointer is dereferenced, if and only if at every wake-up the
confirmations so far are manageable for every endpoint. -/
theorem listens_iff {es : List Event} {s : State}
    (hrun : clientMachine.run (.running {}) es = some s) :
    (∀ pre post t, es = pre ++ post → clientMachine.run (.running {}) pre = some t →
      ListensWhereSubscribed pre t) ↔
    ∀ pre post, es = pre ++ .wakeUp :: post →
      ∀ endpoint, Manageable (confirmations endpoint pre) := by
  constructor
  · intro hlistens pre post hsplit endpoint
    have hsplit' : es = (pre ++ [.wakeUp]) ++ post := by
      rw [hsplit, List.append_assoc]
      rfl
    rw [hsplit'] at hrun
    obtain ⟨t, hpre, -⟩ := clientMachine.run_append_some.mp hrun
    have hright := hlistens _ _ t hsplit' hpre
    obtain ⟨s', hbefore, hstep⟩ := clientMachine.run_snoc.mp hpre
    cases t with
    | nullDereferenced => exact hright.elim
    | running c =>
      have hc : Accounts (pre ++ [.wakeUp]) c := explained hpre
      obtain ⟨hsub, hunsub⟩ := queues_of_wakeUp (explained hbefore) hstep
      have hmanageable := (hc.listening_iff hsub hunsub endpoint).mp (hright hsub hunsub endpoint)
      rwa [confirmations_wakeUp] at hmanageable
  · intro hmanageable pre post t hsplit hpre
    have hexplained := explained hpre
    cases t with
    | nullDereferenced =>
      obtain ⟨before, rfl, e, hnone, hmem⟩ := hexplained
      rw [List.append_assoc] at hsplit
      rcases hmanageable before post hsplit e with ⟨-, h⟩ | ⟨h, -⟩ | ⟨h, -⟩
      · exact h hmem
      · omega
      · omega
    | running c =>
      have hc : Accounts pre c := hexplained
      intro hsub hunsub e
      refine (hc.listening_iff hsub hunsub e).mpr ?_
      rcases hc.settled hsub hunsub e with hnil | ⟨before, after, rfl, heq⟩
      · rw [hnil]
        exact .inl ⟨rfl, List.not_mem_nil⟩
      · rw [← heq]
        exact hmanageable before (after ++ post) (by rw [hsplit, List.append_assoc]; rfl) e

/-- A confirmation for `ETH-USD`. -/
def confirmed (type : String) : Event :=
  .message (.object [("type", .string type),
    ("product_endpoint", .string "tcp://127.0.0.1:83000"),
    ("trade_endpoint", .string "tcp://127.0.0.1:93000")])

theorem listens_iff_unsubscribed :
    let es : List Event :=
      [confirmed "subscribe_request", .wakeUp, confirmed "unsubscribe_request", .wakeUp]
    (∀ pre post t, es = pre ++ post → clientMachine.run (.running {}) pre = some t →
      ListensWhereSubscribed pre t) ↔
    ∀ pre post, es = pre ++ .wakeUp :: post →
      ∀ endpoint, Manageable (confirmations endpoint pre) :=
  listens_iff rfl

/-- The thread of a second subscription is never stopped. -/
theorem resubscribed_keeps_listening :
    ∃ es s, clientMachine.run (.running {}) es = some s ∧ ¬ ListensWhereSubscribed es s := by
  refine ⟨[confirmed "subscribe_request", .wakeUp, confirmed "unsubscribe_request", .wakeUp,
    confirmed "subscribe_request", .wakeUp, confirmed "unsubscribe_request", .wakeUp], _, rfl, ?_⟩
  intro h
  exact absurd (h rfl rfl "tcp://127.0.0.1:83000") (by decide)

end DemoClient

end QuoteServer
