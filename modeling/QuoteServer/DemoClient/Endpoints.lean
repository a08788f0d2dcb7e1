import QuoteServer.Lib.Machine
import QuoteServer.Coinbase.MessageHandler

/-!
# The demo client and its receiver threads

The main loop of the client queues the endpoints of every confirmation: those of a
subscription in one queue, those of an unsubscription in another. The loop in
`hendleNewEndpoints` wakes up when either has an entry, takes both queues whole, starts a
thread for each endpoint of the first and then clears a run flag for each endpoint of the
second. It finds the flag in a map that is filled with `emplace`, which leaves an entry
that is there, and read with `operator[]`, which makes a null pointer for a key that is
not.

While the taken endpoints are handled the main loop may queue more. It touches only the
two queues, so a wake-up is one step here.
-/

namespace QuoteServer

open EventMachine

/-- A detached thread: the endpoint it listens to, and the flag `at` it polls. -/
structure Receiver where
  endpoint : String
  runFlag : Bool
  deriving DecidableEq, Repr

/-- `store(false)` on the flag. -/
def Receiver.stop (r : Receiver) : Receiver := { r with runFlag := false }

structure DemoClient where
  endpointsToSubscribe : List String := []
  endpointsToUnsubscribe : List String := []
  /-- Every thread that was started, in this order. -/
  receivers : List Receiver := []
  /-- The flag of an endpoint, as the position of the thread that polls it. -/
  endpointToHandler : String → Option Nat := fun _ => none

namespace DemoClient

/-- What the main loop does with a message. -/
def onMessage (jmsg : Json) (c : DemoClient) : Except Fault DemoClient := do
  if jmsg.contains "type" then
    let type ← jmsg.constIndex "type"
    if type.isString "client_id_request" then
      let _ ← jmsg.stringAt "client_id"
      return c
    else if type.isString "subscribe_request" then
      let productEndpoint ← jmsg.stringAt "product_endpoint"
      let tradeEndpoint ← jmsg.stringAt "trade_endpoint"
      return { c with
        endpointsToSubscribe := c.endpointsToSubscribe ++ [productEndpoint, tradeEndpoint] }
    else if type.isString "unsubscribe_request" then
      let productEndpoint ← jmsg.stringAt "product_endpoint"
      let tradeEndpoint ← jmsg.stringAt "trade_endpoint"
      return { c with
        endpointsToUnsubscribe := c.endpointsToUnsubscribe ++ [productEndpoint, tradeEndpoint] }
    else return c
  else return c

/-- The first `while` of a wake-up: a thread with a flag of its own, which the map gets
only for a new endpoint. -/
def handleSubscribe (c : DemoClient) (endpoint : String) : DemoClient :=
  { c with
    receivers := c.receivers ++ [{ endpoint := endpoint, runFlag := true }]
    endpointToHandler :=
      match c.endpointToHandler endpoint with
      | some _ => c.endpointToHandler
      | none => Function.update c.endpointToHandler endpoint (some c.receivers.length) }

/-- The second `while`, `none` where it dereferences a null pointer. -/
def handleUnsubscribe (c : DemoClient) (endpoint : String) : Option DemoClient :=
  match c.endpointToHandler endpoint with
  | some i => some { c with receivers := c.receivers.modify i Receiver.stop }
  | none => none

def handleUnsubscribes : List String → DemoClient → Option DemoClient
  | [], c => some c
  | endpoint :: endpoints, c => (c.handleUnsubscribe endpoint).bind (handleUnsubscribes endpoints)

/-- One round of the loop in `hendleNewEndpoints`, after the wait. -/
def hendleNewEndpoints (c : DemoClient) : Option DemoClient :=
  let taken := { c with endpointsToSubscribe := [], endpointsToUnsubscribe := [] }
  handleUnsubscribes c.endpointsToUnsubscribe (c.endpointsToSubscribe.foldl handleSubscribe taken)

end DemoClient

/-! ## The threads of one endpoint -/

/-- The flags of the threads that were started for an endpoint, in order. -/
def flagsOf (receivers : List Receiver) (endpoint : String) : List Bool :=
  (receivers.filter fun r => r.endpoint == endpoint).map Receiver.runFlag

/-- The position of the first of these threads. -/
def firstOf (receivers : List Receiver) (endpoint : String) : Option Nat :=
  receivers.findIdx? fun r => r.endpoint == endpoint

/-- The flags when the first is cleared. -/
def clearFirst : List Bool → List Bool
  | [] => []
  | _ :: flags => false :: flags

theorem clearFirst_idem (flags : List Bool) : clearFirst (clearFirst flags) = clearFirst flags := by
  cases flags <;> rfl

theorem clearFirst_eq_nil_iff {flags : List Bool} : clearFirst flags = [] ↔ flags = [] := by
  cases flags <;> simp [clearFirst]

theorem flagsOf_cons (r : Receiver) (receivers : List Receiver) (endpoint : String) :
    flagsOf (r :: receivers) endpoint =
      if r.endpoint = endpoint then r.runFlag :: flagsOf receivers endpoint
      else flagsOf receivers endpoint := by
  rw [flagsOf, List.filter_cons]
  by_cases h : r.endpoint = endpoint
  · rw [if_pos h, if_pos (beq_iff_eq.mpr h)]
    rfl
  · rw [if_neg h, if_neg (fun hb => h (beq_iff_eq.mp hb))]
    rfl

theorem flagsOf_concat (receivers : List Receiver) (r : Receiver) (endpoint : String) :
    flagsOf (receivers ++ [r]) endpoint =
      if r.endpoint = endpoint then flagsOf receivers endpoint ++ [r.runFlag]
      else flagsOf receivers endpoint := by
  induction receivers with
  | nil => rw [List.nil_append, flagsOf_cons]; rfl
  | cons r' receivers ih =>
    rw [List.cons_append, flagsOf_cons, flagsOf_cons, ih]
    by_cases h : r'.endpoint = endpoint <;> by_cases h' : r.endpoint = endpoint <;> simp [h, h']

theorem firstOf_cons (r : Receiver) (receivers : List Receiver) (endpoint : String) :
    firstOf (r :: receivers) endpoint =
      if r.endpoint = endpoint then some 0 else (firstOf receivers endpoint).map (· + 1) := by
  rw [firstOf, List.findIdx?_cons]
  simp only [beq_iff_eq]
  rfl

theorem firstOf_concat (receivers : List Receiver) (r : Receiver) (endpoint : String) :
    firstOf (receivers ++ [r]) endpoint =
      (firstOf receivers endpoint).or
        (if r.endpoint = endpoint then some receivers.length else none) := by
  rw [firstOf, List.findIdx?_append, List.findIdx?_singleton]
  by_cases h : r.endpoint = endpoint <;> simp [h, firstOf]

/-- An endpoint without threads is one without flags. -/
theorem firstOf_eq_none_iff {receivers : List Receiver} {endpoint : String} :
    firstOf receivers endpoint = none ↔ flagsOf receivers endpoint = [] := by
  rw [firstOf, List.findIdx?_eq_none_iff, flagsOf, List.map_eq_nil_iff, List.filter_eq_nil_iff]
  simp

/-- Stopping the first thread of an endpoint clears the first of its flags, and none of
another endpoint. -/
theorem flagsOf_stop {receivers : List Receiver} {first : String} {i : Nat}
    (h : firstOf receivers first = some i) (endpoint : String) :
    flagsOf (receivers.modify i Receiver.stop) endpoint =
      if endpoint = first then clearFirst (flagsOf receivers endpoint)
      else flagsOf receivers endpoint := by
  induction receivers generalizing i with
  | nil => cases h
  | cons r receivers ih =>
    rw [firstOf_cons] at h
    by_cases hr : r.endpoint = first
    · rw [if_pos hr] at h
      cases h
      rw [List.modify_zero_cons, flagsOf_cons, flagsOf_cons]
      show (if r.endpoint = endpoint then _ else _) = _
      by_cases he : endpoint = first
      · rw [if_pos (hr.trans he.symm), if_pos he, if_pos (hr.trans he.symm)]
        rfl
      · rw [if_neg (fun heq => he (heq.symm.trans hr)), if_neg he,
          if_neg (fun heq => he (heq.symm.trans hr))]
    · rw [if_neg hr] at h
      obtain ⟨j, hj, rfl⟩ := Option.map_eq_some_iff.mp h
      rw [List.modify_succ_cons, flagsOf_cons, flagsOf_cons, ih hj]
      by_cases he : r.endpoint = endpoint
      · have hne : ¬ endpoint = first := fun heq => hr (he.trans heq)
        rw [if_pos he, if_neg hne, if_pos he, if_neg hne]
      · rw [if_neg he, if_neg he]

/-- It moves no thread. -/
theorem firstOf_stop (receivers : List Receiver) (i : Nat) (endpoint : String) :
    firstOf (receivers.modify i Receiver.stop) endpoint = firstOf receivers endpoint := by
  induction receivers generalizing i with
  | nil => rw [List.modify_nil]
  | cons r receivers ih =>
    cases i with
    | zero => rw [List.modify_zero_cons, firstOf_cons, firstOf_cons]; rfl
    | succ i => rw [List.modify_succ_cons, firstOf_cons, firstOf_cons, ih]

namespace DemoClient

/-- The threads that listen to an endpoint: those whose flag is set. -/
def listening (c : DemoClient) (endpoint : String) : Nat :=
  (flagsOf c.receivers endpoint).count true

/-- The map has the first thread that was started for an endpoint. -/
def HandlesFirst (c : DemoClient) : Prop :=
  ∀ endpoint, c.endpointToHandler endpoint = firstOf c.receivers endpoint

/-! ## Handling what was taken -/

theorem handleSubscribe_handlesFirst {c : DemoClient} (h : c.HandlesFirst) (endpoint : String) :
    (c.handleSubscribe endpoint).HandlesFirst := by
  intro e
  show (match c.endpointToHandler endpoint with
    | some _ => c.endpointToHandler
    | none => Function.update c.endpointToHandler endpoint (some c.receivers.length)) e =
      firstOf (c.receivers ++ [{ endpoint := endpoint, runFlag := true }]) e
  rw [firstOf_concat]
  by_cases he : endpoint = e
  · subst he
    rw [if_pos rfl]
    cases hh : c.endpointToHandler endpoint with
    | some i =>
      rw [← h endpoint, hh]
      exact hh
    | none =>
      rw [← h endpoint, hh]
      exact Function.update_self ..
  · rw [if_neg he, Option.or_none, ← h e]
    cases c.endpointToHandler endpoint with
    | some i => rfl
    | none => exact Function.update_of_ne (Ne.symm he) _ _

theorem handleSubscribe_flags (c : DemoClient) (endpoint e : String) :
    flagsOf (c.handleSubscribe endpoint).receivers e =
      if endpoint = e then flagsOf c.receivers e ++ [true] else flagsOf c.receivers e :=
  flagsOf_concat _ _ _

/-- Every subscription that is handled starts one more thread. -/
theorem handleSubscribes_flags (c : DemoClient) (endpoints : List String) (e : String) :
    flagsOf (endpoints.foldl handleSubscribe c).receivers e =
      flagsOf c.receivers e ++ List.replicate (endpoints.count e) true := by
  induction endpoints generalizing c with
  | nil => simp
  | cons endpoint endpoints ih =>
    rw [List.foldl_cons, ih, handleSubscribe_flags]
    by_cases he : endpoint = e
    · rw [if_pos he, he, List.count_cons_self, List.replicate_succ, List.append_assoc]
      rfl
    · rw [if_neg he, List.count_cons_of_ne he]

theorem handleSubscribes_handlesFirst {c : DemoClient} (h : c.HandlesFirst)
    (endpoints : List String) : (endpoints.foldl handleSubscribe c).HandlesFirst := by
  induction endpoints generalizing c with
  | nil => exact h
  | cons endpoint endpoints ih => exact ih (handleSubscribe_handlesFirst h endpoint)

/-- Handling an unsubscription needs a thread of the endpoint, and stops the first one. -/
theorem handleUnsubscribe_some_iff {c : DemoClient} (h : c.HandlesFirst) (endpoint : String) :
    (∃ c', c.handleUnsubscribe endpoint = some c') ↔ flagsOf c.receivers endpoint ≠ [] := by
  rw [handleUnsubscribe, h endpoint, ne_eq, ← firstOf_eq_none_iff]
  cases firstOf c.receivers endpoint with
  | none => simp
  | some i => simp

theorem handleUnsubscribe_spec {c c' : DemoClient} (h : c.HandlesFirst) {endpoint : String}
    (hc : c.handleUnsubscribe endpoint = some c') :
    c'.HandlesFirst ∧ c'.endpointsToSubscribe = c.endpointsToSubscribe ∧
      c'.endpointsToUnsubscribe = c.endpointsToUnsubscribe ∧
      ∀ e, flagsOf c'.receivers e =
        if e = endpoint then clearFirst (flagsOf c.receivers e) else flagsOf c.receivers e := by
  rw [handleUnsubscribe, h endpoint] at hc
  cases hfirst : firstOf c.receivers endpoint with
  | none =>
    rw [hfirst] at hc
    cases hc
  | some i =>
    rw [hfirst] at hc
    cases hc
    refine ⟨fun e => ?_, rfl, rfl, flagsOf_stop hfirst⟩
    exact (h e).trans (firstOf_stop c.receivers i e).symm

/-- Unsubscriptions are handled if each of their endpoints has a thread. -/
theorem handleUnsubscribes_some_iff {c : DemoClient} (h : c.HandlesFirst)
    (endpoints : List String) :
    (∃ c', handleUnsubscribes endpoints c = some c') ↔
      ∀ e ∈ endpoints, flagsOf c.receivers e ≠ [] := by
  induction endpoints generalizing c with
  | nil => exact ⟨fun _ e he => absurd he List.not_mem_nil, fun _ => ⟨c, rfl⟩⟩
  | cons endpoint endpoints ih =>
    rw [List.forall_mem_cons, ← handleUnsubscribe_some_iff h]
    -- no thread disappears, so the others ask for the same before and after the first
    have hsame : ∀ {c'}, c.handleUnsubscribe endpoint = some c' → ∀ e,
        flagsOf c'.receivers e ≠ [] ↔ flagsOf c.receivers e ≠ [] := by
      intro c' hc e
      rw [(handleUnsubscribe_spec h hc).2.2.2 e]
      by_cases he : e = endpoint
      · rw [if_pos he, ne_eq, clearFirst_eq_nil_iff]
      · rw [if_neg he]
    constructor
    · rintro ⟨c'', hc⟩
      obtain ⟨c', hfirst, hrest⟩ := Option.bind_eq_some_iff.mp hc
      have hc' := (handleUnsubscribe_spec h hfirst).1
      exact ⟨⟨c', hfirst⟩, fun e he => (hsame hfirst e).mp ((ih hc').mp ⟨c'', hrest⟩ e he)⟩
    · rintro ⟨⟨c', hfirst⟩, hrest⟩
      have hc' := (handleUnsubscribe_spec h hfirst).1
      obtain ⟨c'', hc''⟩ := (ih hc').mpr fun e he => (hsame hfirst e).mpr (hrest e he)
      exact ⟨c'', Option.bind_eq_some_iff.mpr ⟨c', hfirst, hc''⟩⟩

/-- They clear the first flag of each endpoint they name. -/
theorem handleUnsubscribes_spec {c c' : DemoClient} (h : c.HandlesFirst)
    {endpoints : List String} (hc : handleUnsubscribes endpoints c = some c') :
    c'.HandlesFirst ∧ c'.endpointsToSubscribe = c.endpointsToSubscribe ∧
      c'.endpointsToUnsubscribe = c.endpointsToUnsubscribe ∧
      ∀ e, flagsOf c'.receivers e =
        if e ∈ endpoints then clearFirst (flagsOf c.receivers e)
        else flagsOf c.receivers e := by
  induction endpoints generalizing c with
  | nil =>
    cases hc
    exact ⟨h, rfl, rfl, fun e => (if_neg List.not_mem_nil).symm⟩
  | cons endpoint endpoints ih =>
    obtain ⟨c₁, hfirst, hrest⟩ := Option.bind_eq_some_iff.mp hc
    obtain ⟨hh, hsub, hunsub, hflags⟩ := handleUnsubscribe_spec h hfirst
    obtain ⟨hh', hsub', hunsub', hflags'⟩ := ih hh hrest
    refine ⟨hh', hsub'.trans hsub, hunsub'.trans hunsub, fun e => ?_⟩
    rw [hflags' e, hflags e]
    by_cases he : e = endpoint <;> by_cases hmem : e ∈ endpoints
    · rw [if_pos hmem, if_pos he, clearFirst_idem, if_pos (List.mem_cons_of_mem _ hmem)]
    · rw [if_neg hmem, if_pos he, if_pos (he ▸ List.mem_cons_self)]
    · rw [if_pos hmem, if_neg he, if_pos (List.mem_cons_of_mem _ hmem)]
    · rw [if_neg hmem, if_neg he, if_neg fun h => (List.mem_cons.mp h).elim he hmem]

theorem handleSubscribes_queues (c : DemoClient) (endpoints : List String) :
    (endpoints.foldl handleSubscribe c).endpointsToSubscribe = c.endpointsToSubscribe ∧
      (endpoints.foldl handleSubscribe c).endpointsToUnsubscribe = c.endpointsToUnsubscribe := by
  induction endpoints generalizing c with
  | nil => exact ⟨rfl, rfl⟩
  | cons endpoint endpoints ih => exact ih (c.handleSubscribe endpoint)

/-- The flags of an endpoint after a wake-up: one more for each subscription taken, and
then the first is cleared if an unsubscription was taken. -/
def flagsAfter (c : DemoClient) (e : String) : List Bool :=
  let started := flagsOf c.receivers e ++ List.replicate (c.endpointsToSubscribe.count e) true
  if e ∈ c.endpointsToUnsubscribe then clearFirst started else started

/-- **What a wake-up does.** It gets through if every endpoint of an unsubscription has a
thread by then. -/
theorem hendleNewEndpoints_some_iff {c : DemoClient} (h : c.HandlesFirst) :
    (∃ c', c.hendleNewEndpoints = some c') ↔ ∀ e ∈ c.endpointsToUnsubscribe,
      flagsOf c.receivers e ≠ [] ∨ e ∈ c.endpointsToSubscribe := by
  unfold hendleNewEndpoints
  dsimp only
  have htaken : HandlesFirst { c with endpointsToSubscribe := [], endpointsToUnsubscribe := [] } :=
    h
  rw [handleUnsubscribes_some_iff (handleSubscribes_handlesFirst htaken _)]
  refine forall₂_congr fun e _ => ?_
  rw [handleSubscribes_flags, ne_eq, List.append_eq_nil_iff, List.replicate_eq_nil_iff,
    List.count_eq_zero]
  tauto

theorem hendleNewEndpoints_spec {c c' : DemoClient} (h : c.HandlesFirst)
    (hc : c.hendleNewEndpoints = some c') :
    c'.HandlesFirst ∧ c'.endpointsToSubscribe = [] ∧ c'.endpointsToUnsubscribe = [] ∧
      ∀ e, flagsOf c'.receivers e = c.flagsAfter e := by
  have htaken : HandlesFirst { c with endpointsToSubscribe := [], endpointsToUnsubscribe := [] } :=
    h
  obtain ⟨hh, hsub, hunsub, hflags⟩ :=
    handleUnsubscribes_spec (handleSubscribes_handlesFirst htaken c.endpointsToSubscribe) hc
  obtain ⟨hsub', hunsub'⟩ := handleSubscribes_queues
    { c with endpointsToSubscribe := [], endpointsToUnsubscribe := [] } c.endpointsToSubscribe
  refine ⟨hh, hsub.trans hsub', hunsub.trans hunsub', fun e => ?_⟩
  rw [hflags e, handleSubscribes_flags]
  rfl

end DemoClient

end QuoteServer
