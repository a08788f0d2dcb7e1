import QuoteServer.Session.Transcript

/-!
# The conversation of each client

The three phases of a client, and why each step of the session keeps it in one of them:
`sessionDiscipline`. What the service does for other clients only makes it grow.
-/

namespace QuoteServer

open EventMachine RequestReply ClientService

section

variable {κ σ Y : Type} {dump : Json → List UInt8} {parse : Parser} {Unlisted : Prop}
  {subscriber : ProductSubscriber σ} {background : Machine σ Y} {k : κ}
  {s s' : ClientService σ} {xs : List (Exchange κ (List UInt8) (List UInt8))}
  {c c' : ClientProgram} {data : List UInt8}

/-- The one value of a list, if it has one. -/
theorem filterMap_single {α β : Type} (f : α → Option β) (a : α) :
    [a].filterMap f = (f a).toList := by
  rw [List.filterMap_cons]
  cases f a <;> rfl

/-! ## The service grows -/

theorem Conversing.grows {entries : List AnsweredEntry}
    (h : Conversing dump Unlisted s xs k c entries) (hs : ServiceGrows s s') :
    Conversing dump Unlisted s' xs k c entries :=
  ⟨h.started, hs.registered h.registered, h.transcript.grows hs⟩

theorem SessionIdle.grows (h : SessionIdle dump Unlisted s xs k c) (hs : ServiceGrows s s') :
    SessionIdle dump Unlisted s' xs k c := by
  cases h with
  | new hstarted hnothing htaken hheard => exact .new hstarted hnothing htaken hheard
  | conversing entries h htaken hheard => exact .conversing entries (h.grows hs) htaken hheard

theorem SessionAsked.grows (h : SessionAsked dump Unlisted s xs k c data)
    (hs : ServiceGrows s s') : SessionAsked dump Unlisted s' xs k c data := by
  cases h with
  | clientId hstarted hnothing htaken hheard hdata =>
    exact .clientId hstarted hnothing htaken hheard hdata
  | heartbeat entries h htaken hheard hdata =>
    exact .heartbeat entries (h.grows hs) htaken hheard hdata
  | entry entries entry h htaken hheard hdata =>
    exact .entry entries entry (h.grows hs) htaken hheard hdata

theorem SessionAnswered.grows (h : SessionAnswered dump Unlisted s xs k c data)
    (hs : ServiceGrows s s') : SessionAnswered dump Unlisted s' xs k c data := by
  cases h with
  | clientId clientId hstarted hregistered htranscript htaken hheard hdata =>
    exact .clientId clientId hstarted (hs.registered hregistered) (htranscript.grows hs) htaken
      hheard hdata
  | heartbeat entries h htaken hheard hdata =>
    exact .heartbeat entries (h.grows hs) htaken hheard hdata
  | confirmed entries entry endpoint h htaken hheard hdata =>
    exact .confirmed entries entry endpoint (h.grows hs) htaken hheard hdata
  | refused entries entry error h htaken hheard hdata =>
    exact .refused entries entry error (h.grows hs) htaken hheard hdata

/-! ## The client sends -/

theorem SessionIdle.send (h : SessionIdle dump Unlisted s xs k c) :
    SessionAsked dump Unlisted s xs k c.nextMessage.1 (dump c.nextMessage.2) := by
  unfold ClientProgram.nextMessage
  cases h with
  | new hstarted hnothing htaken hheard =>
    rw [hstarted, if_neg Bool.false_ne_true]
    exact .clientId rfl hnothing htaken hheard rfl
  | conversing entries h htaken hheard =>
    rw [h.started, if_pos rfl]
    cases hqueue : c.scenarioMessagesQueue with
    | nil => exact .heartbeat entries h htaken hheard rfl
    | cons entry queue =>
      exact .entry entries entry ⟨rfl, h.registered, h.transcript⟩
        (congrArg (· ++ [entry]) htaken) hheard rfl

/-! ## The service answers -/

/-- An iteration with one reply. -/
theorem serve_replies {x : Surroundings} {replies : List (List UInt8)} {reply : Json}
    {t : ClientService σ}
    (hserve : (serviceServer dump parse subscriber background).serve s x data = some (s', replies))
    (hiteration : iteration parse subscriber
      { data := data, uuid := x.uuid, products := x.products } s = .ok () t)
    (hsent : t.sent = s.sent ++ [reply]) : s' = t ∧ replies = [dump reply] := by
  have h : some (t, (t.sent.drop s.sent.length).map dump) = some (s', replies) := by
    rw [← hserve, serviceServer]
    dsimp only
    rw [hiteration]
  cases h
  refine ⟨rfl, ?_⟩
  rw [hsent, List.drop_left]
  rfl

theorem serve_iteration {x : Surroundings} {replies : List (List UInt8)}
    (hserve : (serviceServer dump parse subscriber background).serve s x data =
      some (s', replies)) :
    iteration parse subscriber { data := data, uuid := x.uuid, products := x.products } s =
      .ok () s' := by
  unfold serviceServer at hserve
  dsimp only at hserve
  cases hiteration : iteration parse subscriber
      { data := data, uuid := x.uuid, products := x.products } s with
  | ok _ t =>
    rw [hiteration] at hserve
    cases hserve
    rfl
  | error e t =>
    rw [hiteration] at hserve
    cases hserve

/-- What the service reads of the request for an entry is a request for its call. -/
theorem requests_scenarioMessage {jmsg : Json} {clientId : String} {entry : ScenarioEntry}
    (h : ∀ key, jmsg.stringMember key = (scenarioMessage clientId entry).stringMember key) :
    Requests jmsg (entry.call clientId) := by
  refine ⟨?_, ?_, ?_⟩
  · rw [h, scenarioMessage_type]
  · rw [h, scenarioMessage_clientId, ScenarioEntry.call_clientId]
  · rw [h, scenarioMessage_productId, ScenarioEntry.call_productId]

/-- The call that a message confirms. -/
def confirmedCall (jmsg : Json) : Option SubscriberCall := do
  let type ← jmsg.stringMember "type"
  let clientId ← jmsg.stringMember "client_id"
  let productId ← jmsg.stringMember "product_id"
  if type = "subscribe_request" then some (.subscribe clientId productId)
  else if type = "unsubscribe_request" then some (.unsubscribe clientId productId)
  else none

/-- The calls that the replies of an exchange confirm. -/
def callsIn (parse : Parser) (x : Exchange κ (List UInt8) (List UInt8)) : List SubscriberCall :=
  x.replies.filterMap fun data => (parse data).toOption.bind confirmedCall

theorem confirmedCall_congr {jmsg jmsg' : Json}
    (h : ∀ key, jmsg.stringMember key = jmsg'.stringMember key) :
    confirmedCall jmsg = confirmedCall jmsg' := by
  unfold confirmedCall
  simp only [h]

/-- What a client reads in a reply is what the service confirmed. -/
theorem callsIn_reply (hdump : Transmits dump parse) (request : List UInt8) {reply : Json}
    (htext : IsText reply) :
    callsIn parse { party := k, request := request, replies := [dump reply] } =
      (confirmedCall reply).toList := by
  obtain ⟨jmsg, hparse, hmembers⟩ := hdump reply htext
  rw [← confirmedCall_congr hmembers, callsIn, filterMap_single, hparse]
  rfl

theorem calls_of_reply (hdump : Transmits dump parse) {reply : Json} (htext : IsText reply)
    (h : s'.calls = s.calls ++ (confirmedCall reply).toList) : s'.calls =
      s.calls ++ callsIn parse { party := k, request := data, replies := [dump reply] } := by
  rw [h, callsIn_reply hdump data htext]

theorem entryConfirmation_text (clientId : String) (entry : ScenarioEntry) (endpoint : Endpoint) :
    IsText (entryConfirmation clientId entry endpoint) := confirmation_text _ _ _ endpoint

theorem confirmedCall_entryConfirmation (clientId : String) (entry : ScenarioEntry)
    (endpoint : Endpoint) :
    confirmedCall (entryConfirmation clientId entry endpoint) = some (entry.call clientId) := by
  unfold entryConfirmation ScenarioEntry.call
  cases entry.subscribe <;> rfl

/-- The calls of a transcript are those of the entries that were confirmed. -/
theorem Transcript.calls (hdump : Transmits dump parse) {clientId : String}
    {table : Option EndpointProvider} {entries : List AnsweredEntry}
    (h : Transcript dump Unlisted k clientId table xs entries) :
    xs.flatMap (callsIn parse) = entries.filterMap (AnsweredEntry.call clientId) := by
  induction h with
  | registered =>
    rw [List.flatMap_singleton, exchange, callsIn_reply hdump _ (registration_text clientId)]
    rfl
  | heartbeat _ ih =>
    rw [List.flatMap_append, List.flatMap_singleton, ih,
      exchange, callsIn_reply hdump _ (heartbeatReply_text clientId)]
    exact List.append_nil _
  | @confirmed xs entries entry provider endpoint _ _ _ ih =>
    rw [List.flatMap_append, List.flatMap_singleton, ih, List.filterMap_append, filterMap_single,
      exchange, callsIn_reply hdump _ (entryConfirmation_text clientId entry endpoint)]
    congr 2
    exact confirmedCall_entryConfirmation clientId entry endpoint
  | @unknown xs entries entry provider error _ _ _ ih =>
    rw [List.flatMap_append, List.flatMap_singleton, ih, List.filterMap_append,
      exchange, callsIn_reply hdump _ (errorReply_text error)]
    rfl
  | unlisted _ _ ih =>
    rw [List.flatMap_append, List.flatMap_singleton, ih, List.filterMap_append,
      exchange, callsIn_reply hdump _ (errorReply_text "Invalid message")]
    rfl

/-- A request is answered by exactly one reply, the next of the transcript, and the call
made is the one that it confirms. -/
theorem SessionAsked.serve (hdump : Transmits dump parse)
    (hsubscriber : ThrowsNoParseError subscriber) {x : Surroundings}
    {replies : List (List UInt8)} (hlisted : parse x.products = .error .parseError → Unlisted)
    (h : SessionAsked dump Unlisted s xs k c data)
    (hserve : (serviceServer dump parse subscriber background).serve s x data =
      some (s', replies)) :
    ∃ reply, replies = [reply] ∧ SessionAnswered dump Unlisted s'
      (xs ++ [{ party := k, request := data, replies := replies }]) k c reply ∧
      s'.calls = s.calls ++ callsIn parse { party := k, request := data, replies := replies } := by
  have hgrows : ServiceGrows s s' := grows_iteration (serve_iteration hserve)
  cases h with
  | clientId hstarted hnothing htaken hheard hdata =>
    subst hdata hnothing
    obtain ⟨jmsg, hparse, hmembers⟩ := hdump _ clientIdRequest_text
    have hiteration : iteration parse subscriber
        { data := dump clientIdRequest, uuid := x.uuid, products := x.products } s = .ok () _ :=
      iteration_clientIdRequest hparse (hmembers "type")
    obtain ⟨rfl, rfl⟩ := serve_replies hserve hiteration rfl
    refine ⟨_, rfl, .clientId x.uuid hstarted (Finset.mem_insert_self _ _) .registered htaken
      hheard rfl, ?_⟩
    exact calls_of_reply hdump (registration_text x.uuid) (List.append_nil _).symm
  | heartbeat entries h htaken hheard hdata =>
    subst hdata
    obtain ⟨jmsg, hparse, hmembers⟩ := hdump _ (heartbeatMessage_text c.clientId)
    have hiteration : iteration parse subscriber
        { data := dump (heartbeatMessage c.clientId), uuid := x.uuid, products := x.products } s =
          .ok () _ :=
      iteration_heartbeat hparse (hmembers "type") (hmembers "client_id") h.registered
    obtain ⟨rfl, rfl⟩ := serve_replies hserve hiteration rfl
    refine ⟨_, rfl, .heartbeat entries ⟨h.started, h.registered, h.transcript.heartbeat⟩ htaken
      hheard rfl, ?_⟩
    exact calls_of_reply hdump (heartbeatReply_text c.clientId) (List.append_nil _).symm
  | entry entries entry h htaken hheard hdata =>
    subst hdata
    obtain ⟨jmsg, hparse, hmembers⟩ := hdump _ (scenarioMessage_text c.clientId entry)
    have hiteration := serve_iteration hserve
    have hcall := iteration_call hsubscriber hparse (requests_scenarioMessage hmembers)
      (by rw [ScenarioEntry.call_clientId]; exact h.registered) hiteration
    have hafter := h.grows hgrows
    simp only [ScenarioEntry.call_clientId, ScenarioEntry.call_productId] at hcall
    rcases hcall with ⟨provider, endpoint, htable, hproduct, hcalls, hsent⟩ |
      ⟨provider, error, htable, hproduct, hcalls, hsent⟩ | ⟨hproducts, hcalls, hsent⟩
    · have hsent' : s'.sent = s.sent ++ [entryConfirmation c.clientId entry endpoint] := hsent
      obtain ⟨-, rfl⟩ := serve_replies hserve hiteration hsent'
      refine ⟨_, rfl, .confirmed entries entry endpoint ?_ htaken hheard rfl, ?_⟩
      · exact ⟨h.started, hafter.registered, hafter.transcript.confirmed htable hproduct⟩
      · refine calls_of_reply hdump (entryConfirmation_text c.clientId entry endpoint) ?_
        rw [hcalls, confirmedCall_entryConfirmation]
        rfl
    · obtain ⟨-, rfl⟩ := serve_replies hserve hiteration hsent
      refine ⟨_, rfl, .refused entries entry error ?_ htaken hheard rfl, ?_⟩
      · exact ⟨h.started, hafter.registered, hafter.transcript.unknown htable hproduct⟩
      · exact calls_of_reply hdump (errorReply_text error) (hcalls.trans (List.append_nil _).symm)
    · obtain ⟨-, rfl⟩ := serve_replies hserve hiteration hsent
      refine ⟨_, rfl, .refused entries entry _ ?_ htaken hheard rfl, ?_⟩
      · exact ⟨h.started, hafter.registered, hafter.transcript.unlisted (hlisted hproducts)⟩
      · exact calls_of_reply hdump (errorReply_text "Invalid message")
          (hcalls.trans (List.append_nil _).symm)

/-! ## The client hears the answer -/

theorem confirmation_congr {jmsg jmsg' : Json}
    (h : ∀ key, jmsg.stringMember key = jmsg'.stringMember key) :
    confirmation jmsg = confirmation jmsg' := by
  unfold confirmation
  simp only [h]

/-- A reply is handled, and what it confirms is heard. -/
theorem Heard.message {demo demo' : DemoClient} {entries more : List AnsweredEntry} {jmsg : Json}
    (h : Heard demo entries) (hmessage : demo.onMessage jmsg = .ok demo')
    (hconfirmation : (confirmation jmsg).toList = more.filterMap AnsweredEntry.confirmation) :
    Heard demo' (entries ++ more) := by
  obtain ⟨es, hrun, hconfirmed⟩ := h
  refine ⟨es ++ [.message jmsg], ?_, ?_⟩
  · refine (Machine.run_snoc _).mpr ⟨_, hrun, ?_⟩
    exact toOption_map_eq_some.mpr ⟨demo', hmessage, rfl⟩
  · rw [List.filterMap_append, List.filterMap_append, hconfirmed, ← hconfirmation,
      filterMap_single]
    rfl

/-- A message that confirms nothing. -/
theorem Heard.message_none {demo demo' : DemoClient} {entries : List AnsweredEntry} {jmsg : Json}
    (h : Heard demo entries) (hmessage : demo.onMessage jmsg = .ok demo')
    (hnone : confirmation jmsg = none) : Heard demo' entries := by
  have hmore : Heard demo' (entries ++ []) := h.message hmessage (by rw [hnone]; rfl)
  rwa [List.append_nil] at hmore

/-- The reply for an entry. -/
theorem Heard.reply {demo demo' : DemoClient} {entries : List AnsweredEntry} {jmsg : Json}
    {answered : AnsweredEntry} (h : Heard demo entries)
    (hmessage : demo.onMessage jmsg = .ok demo')
    (hconfirmation : confirmation jmsg = answered.confirmation) :
    Heard demo' (entries ++ [answered]) :=
  h.message hmessage (by rw [hconfirmation, filterMap_single])

theorem Heard.wakeUp {c c' : ClientProgram} {entries : List AnsweredEntry}
    (h : Heard c.demo entries) (hact : c.hendleNewEndpoints = some c') :
    Heard c'.demo entries := by
  unfold ClientProgram.hendleNewEndpoints at hact
  split at hact
  · cases hact
  · obtain ⟨demo, hdemo, rfl⟩ := Option.map_eq_some_iff.mp hact
    obtain ⟨es, hrun, hconfirmed⟩ := h
    refine ⟨es ++ [.wakeUp], (Machine.run_snoc _).mpr ⟨_, hrun, ?_⟩, ?_⟩
    · show (if _ then none else _) = _
      rw [if_neg ‹_›, hdemo]
    · rw [List.filterMap_append, hconfirmed]
      exact List.append_nil _

/-- What the client makes of a reply is decided by its members. -/
theorem receive_cases (hdump : Transmits dump parse) {reply : Json} (htext : IsText reply)
    (h : (demoCaller dump parse).receive c (dump reply) = some c') :
    ∃ jmsg demo, confirmation jmsg = confirmation reply ∧ c.demo.onMessage jmsg = .ok demo ∧
      ((reply.stringMember "type" = some "client_id_request" ∧
          ∃ clientId, reply.stringMember "client_id" = some clientId ∧
            c' = { c with demo := demo, clientId := clientId }) ∨
        reply.stringMember "type" ≠ some "client_id_request" ∧ c' = { c with demo := demo }) := by
  obtain ⟨jmsg, hparse, hmembers⟩ := hdump reply htext
  have honReply : c.onReply jmsg = .ok c' := by
    have hreceive : (c.onReply jmsg).toOption = some c' := by
      rw [← h, demoCaller]
      dsimp only
      rw [hparse]
    exact toOption_eq_some.mp hreceive
  unfold ClientProgram.onReply at honReply
  obtain ⟨demo, hdemo, hrest⟩ := bind_eq_ok.mp honReply
  refine ⟨jmsg, demo, confirmation_congr hmembers, hdemo, ?_⟩
  rw [hmembers] at hrest
  by_cases htype : reply.stringMember "type" = some "client_id_request"
  · rw [if_pos htype] at hrest
    obtain ⟨clientId, hclientId, hc'⟩ := bind_eq_ok.mp hrest
    cases hc'
    exact .inl ⟨htype, clientId, (hmembers _).symm.trans (Json.stringAt_eq_ok.mp hclientId), rfl⟩
  · rw [if_neg htype] at hrest
    cases hrest
    exact .inr ⟨htype, rfl⟩

/-- The reply to a heartbeat or for an entry leaves the client its id. -/
theorem receive_reply (hdump : Transmits dump parse) {reply : Json} (htext : IsText reply)
    {type : String} (htype : reply.stringMember "type" = some type)
    (hne : type ≠ "client_id_request")
    (h : (demoCaller dump parse).receive c (dump reply) = some c') :
    ∃ jmsg demo, confirmation jmsg = confirmation reply ∧ c.demo.onMessage jmsg = .ok demo ∧
      c' = { c with demo := demo } := by
  obtain ⟨jmsg, demo, hsame, hdemo, ⟨hid, -⟩ | ⟨-, rfl⟩⟩ := receive_cases hdump htext h
  · exact absurd (Option.some.inj (htype.symm.trans hid)) hne
  · exact ⟨jmsg, demo, hsame, hdemo, rfl⟩

theorem confirmation_entryConfirmation (clientId : String) (entry : ScenarioEntry)
    (endpoint : Endpoint) : confirmation (entryConfirmation clientId entry endpoint) =
      AnsweredEntry.confirmation ⟨entry, some endpoint⟩ := by
  unfold entryConfirmation ScenarioEntry.call AnsweredEntry.confirmation
  cases entry.subscribe <;> rfl

/-- A client that hears the answer is done with the request. -/
theorem SessionAnswered.receive (hdump : Transmits dump parse)
    (h : SessionAnswered dump Unlisted s xs k c data)
    (hreceive : (demoCaller dump parse).receive c data = some c') :
    SessionIdle dump Unlisted s xs k c' := by
  cases h with
  | clientId clientId hstarted hregistered htranscript htaken hheard hdata =>
    subst hdata
    obtain ⟨jmsg, demo, hsame, hdemo, ⟨-, clientId', hclient, rfl⟩ | ⟨hno, -⟩⟩ :=
      receive_cases hdump (registration_text clientId) hreceive
    · obtain rfl : clientId = clientId' := Option.some.inj hclient
      exact .conversing [] ⟨hstarted, hregistered, htranscript⟩ htaken
        (hheard.message_none hdemo hsame)
    · exact absurd rfl hno
  | heartbeat entries h htaken hheard hdata =>
    subst hdata
    obtain ⟨jmsg, demo, hsame, hdemo, rfl⟩ := receive_reply hdump
      (heartbeatReply_text c.clientId) (heartbeatReply_type _) (by decide) hreceive
    exact .conversing entries ⟨h.started, h.registered, h.transcript⟩ htaken
      (hheard.message_none hdemo hsame)
  | confirmed entries entry endpoint h htaken hheard hdata =>
    subst hdata
    obtain ⟨jmsg, demo, hsame, hdemo, rfl⟩ := receive_reply hdump
      (confirmation_text _ _ _ endpoint) (confirmation_type _ _ _ endpoint)
      (SubscriberCall.type_ne _ (by decide) (by decide)) hreceive
    refine .conversing _ ⟨h.started, h.registered, h.transcript⟩ ?_ (hheard.reply hdemo ?_)
    · rw [List.map_append]
      exact htaken
    · exact hsame.trans (confirmation_entryConfirmation c.clientId entry endpoint)
  | refused entries entry error h htaken hheard hdata =>
    subst hdata
    obtain ⟨jmsg, demo, hsame, hdemo, rfl⟩ := receive_reply hdump
      (errorReply_text error) (errorReply_type error) (by decide) hreceive
    refine .conversing _ ⟨h.started, h.registered, h.transcript⟩ ?_ (hheard.reply hdemo hsame)
    rw [List.map_append]
    exact htaken

/-! ## The other threads of the client -/

/-- They change neither what was said nor what was heard. -/
theorem act_frame {i : ClientAct} (h : (demoCaller dump parse).act c i = some c') :
    c.started = true ∧ c'.started = true ∧ c'.clientId = c.clientId ∧ c'.taken = c.taken ∧
      ∀ entries, Heard c.demo entries → Heard c'.demo entries := by
  have hstarted : c.started = true := by
    cases hs : c.started with
    | true => rfl
    | false =>
      cases i with
      | handleScenario | hendleNewEndpoints =>
        unfold demoCaller at h
        dsimp only at h
        rw [hs, if_neg Bool.false_ne_true] at h
        cases h
  refine ⟨hstarted, ?_⟩
  unfold demoCaller at h
  dsimp only at h
  cases i with
  | handleScenario =>
    dsimp only at h
    rw [if_pos hstarted] at h
    unfold ClientProgram.handleScenario at h
    cases hscenario : c.scenario with
    | nil =>
      rw [hscenario] at h
      cases h
    | cons entry scenario =>
      rw [hscenario] at h
      cases h
      exact ⟨hstarted, rfl, rfl, fun _ hheard => hheard⟩
  | hendleNewEndpoints =>
    dsimp only at h
    rw [if_pos hstarted] at h
    have hheard : ∀ entries, Heard c.demo entries → Heard c'.demo entries :=
      fun _ hheard => hheard.wakeUp h
    unfold ClientProgram.hendleNewEndpoints at h
    split at h
    · cases h
    · obtain ⟨demo, -, rfl⟩ := Option.map_eq_some_iff.mp h
      exact ⟨hstarted, rfl, rfl, hheard⟩

theorem Conversing.act {entries : List AnsweredEntry} {i : ClientAct}
    (h : Conversing dump Unlisted s xs k c entries)
    (hact : (demoCaller dump parse).act c i = some c') :
    Conversing dump Unlisted s xs k c' entries := by
  obtain ⟨-, hstarted, hclientId, -, -⟩ := act_frame hact
  exact ⟨hstarted, hclientId ▸ h.registered, hclientId ▸ h.transcript⟩

theorem SessionIdle.act {i : ClientAct} (h : SessionIdle dump Unlisted s xs k c)
    (hact : (demoCaller dump parse).act c i = some c') :
    SessionIdle dump Unlisted s xs k c' := by
  obtain ⟨hstarted, -, -, htaken', hheard'⟩ := act_frame hact
  cases h with
  | new hnot =>
    rw [hstarted] at hnot
    cases hnot
  | conversing entries h htaken hheard =>
    exact .conversing entries (h.act hact) (htaken'.trans htaken) (hheard' _ hheard)

theorem SessionAsked.act {i : ClientAct} (h : SessionAsked dump Unlisted s xs k c data)
    (hact : (demoCaller dump parse).act c i = some c') :
    SessionAsked dump Unlisted s xs k c' data := by
  obtain ⟨-, hstarted', hclientId, htaken', hheard'⟩ := act_frame hact
  cases h with
  | clientId hstarted hnothing htaken hheard hdata =>
    exact .clientId hstarted' hnothing (htaken'.trans htaken) (hheard' _ hheard) hdata
  | heartbeat entries h htaken hheard hdata =>
    exact .heartbeat entries (h.act hact) (htaken'.trans htaken) (hheard' _ hheard)
      (by rw [hclientId]; exact hdata)
  | entry entries entry h htaken hheard hdata =>
    exact .entry entries entry (h.act hact) (htaken'.trans htaken) (hheard' _ hheard)
      (by rw [hclientId]; exact hdata)

theorem SessionAnswered.act {i : ClientAct} (h : SessionAnswered dump Unlisted s xs k c data)
    (hact : (demoCaller dump parse).act c i = some c') :
    SessionAnswered dump Unlisted s xs k c' data := by
  obtain ⟨-, hstarted', hclientId, htaken', hheard'⟩ := act_frame hact
  cases h with
  | clientId clientId hstarted hregistered htranscript htaken hheard hdata =>
    exact .clientId clientId hstarted' hregistered htranscript (htaken'.trans htaken)
      (hheard' _ hheard) hdata
  | heartbeat entries h htaken hheard hdata =>
    exact .heartbeat entries (h.act hact) (htaken'.trans htaken) (hheard' _ hheard)
      (by rw [hclientId]; exact hdata)
  | confirmed entries entry endpoint h htaken hheard hdata =>
    exact .confirmed entries entry endpoint (h.act hact) (htaken'.trans htaken)
      (hheard' _ hheard) (by rw [hclientId]; exact hdata)
  | refused entries entry error h htaken hheard hdata =>
    exact .refused entries entry error (h.act hact) (htaken'.trans htaken) (hheard' _ hheard) hdata

/-! ## All phases -/

/-- **What holds of a demo client in a session.** -/
def sessionDiscipline (κ : Type) (hdump : Transmits dump parse)
    (hsubscriber : ThrowsNoParseError subscriber) (background : Machine σ Y) (Unlisted : Prop) :
    Discipline (serviceServer dump parse subscriber background) (demoCaller dump parse) κ where
  Admissible x := parse x.products = .error .parseError → Unlisted
  Grows := ServiceGrows
  Idle := SessionIdle dump Unlisted
  Asked := SessionAsked dump Unlisted
  Answered := SessionAnswered dump Unlisted
  grows_serve h := grows_iteration (serve_iteration h)
  grows_act h := by
    obtain ⟨state, -, rfl⟩ := Option.map_eq_some_iff.mp h
    exact ⟨Finset.Subset.refl _, fun _ h => h⟩
  idle_grows hs h := h.grows hs
  asked_grows hs h := h.grows hs
  answered_grows hs h := h.grows hs
  send h hsend := by
    cases hsend
    exact h.send
  serve hx h hserve := by
    obtain ⟨reply, hreplies, hanswered, -⟩ := h.serve hdump hsubscriber hx hserve
    exact ⟨reply, hreplies, hanswered⟩
  receive h hreceive := h.receive hdump hreceive
  idle_act h hact := h.act hact
  asked_act h hact := h.act hact
  answered_act h hact := h.act hact

end

end QuoteServer
