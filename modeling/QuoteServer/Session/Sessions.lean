import QuoteServer.Session.Conversation

/-!
# Whole sessions

In every run of a session, whatever the order in which the messages of its clients arrive
and whatever else goes on, each client and the service speak in turn, and everything they
said is one transcript, in the order of the client's scenario (`session_spoken`). The calls
of the subscriber are those that the replies confirm (`session_calls`).
-/

namespace QuoteServer

open EventMachine RequestReply ClientService

variable {κ σ Y : Type} {dump : Json → List UInt8} {parse : Parser}
  {subscriber : ProductSubscriber σ} {background : Machine σ Y}

/-- Some list of products that the service was given in the run is no JSON. -/
def NotListed (parse : Parser) (es : List (SessionEvent κ Y)) : Prop :=
  ∃ k x, Event.serve k x ∈ es ∧ parse x.products = .error .parseError

/-- What a client and the service have said so far: nothing, or a transcript. -/
inductive Spoken (dump : Json → List UInt8) (Unlisted : Prop) (s : ClientService σ) (k : κ)
    (xs : List (Exchange κ (List UInt8) (List UInt8))) (clientId : String) :
    List AnsweredEntry → Prop where
  | nothing (h : xs = []) : Spoken dump Unlisted s k xs clientId []
  | transcript {entries : List AnsweredEntry} (hregistered : clientId ∈ s.registeredClientIds)
    (h : Transcript dump Unlisted k clientId s.provider xs entries) :
    Spoken dump Unlisted s k xs clientId entries

/-- The scenario of a client, cut into what was answered, what is under way, what is queued
and what is still to come. -/
def ScenarioCut (scenario : List ScenarioEntry) (c : ClientProgram)
    (entries : List AnsweredEntry) : Prop :=
  ∃ underWay, underWay.length ≤ 1 ∧ scenario = entries.map AnsweredEntry.entry ++ underWay ++
    c.scenarioMessagesQueue ++ c.scenario

/-! ## The scenario -/

/-- No entry is lost, doubled or overtaken on its way from the scenario to the requests. -/
theorem scenario_taken [DecidableEq κ] {scenario : κ → List ScenarioEntry} {state : σ}
    {es : List (SessionEvent κ Y)} {s : Session κ σ}
    (hrun : (sessionMachine dump parse subscriber background).run (.initial state scenario) es =
      some s) (k : κ) :
    scenario k = (s.parties k).state.taken ++ (s.parties k).state.scenarioMessagesQueue ++
      (s.parties k).state.scenario := by
  refine caller_rule (P := fun k (c : ClientProgram) =>
    scenario k = c.taken ++ c.scenarioMessagesQueue ++ c.scenario) (fun _ => rfl) ?_ ?_ ?_ hrun k
  · intro k c c' data h hsend
    cases hsend
    unfold ClientProgram.nextMessage
    split
    · cases hqueue : c.scenarioMessagesQueue with
      | nil =>
        rw [hqueue] at h
        exact h.trans (by rw [hqueue])
      | cons entry queue =>
        rw [hqueue] at h
        rw [h]
        simp only [List.append_assoc, List.cons_append, List.nil_append]
    · exact h
  · intro k c data c' h hreceive
    unfold demoCaller at hreceive
    dsimp only at hreceive
    cases hparse : parse data with
    | error e =>
      rw [hparse] at hreceive
      cases hreceive
    | ok jmsg =>
      rw [hparse] at hreceive
      have honReply := toOption_eq_some.mp hreceive
      unfold ClientProgram.onReply at honReply
      obtain ⟨demo, -, hrest⟩ := bind_eq_ok.mp honReply
      split at hrest
      · obtain ⟨clientId, -, hc'⟩ := bind_eq_ok.mp hrest
        cases hc'
        exact h
      · cases hrest
        exact h
  · intro k c i c' h hact
    obtain ⟨hstarted, -⟩ := act_frame hact
    unfold demoCaller at hact
    dsimp only at hact
    cases i with
    | handleScenario =>
      dsimp only at hact
      rw [if_pos hstarted] at hact
      unfold ClientProgram.handleScenario at hact
      cases hscenario : c.scenario with
      | nil =>
        rw [hscenario] at hact
        cases hact
      | cons entry entries =>
        rw [hscenario] at hact h
        cases hact
        rw [h]
        simp only [List.append_assoc, List.cons_append, List.nil_append]
    | hendleNewEndpoints =>
      dsimp only at hact
      rw [if_pos hstarted] at hact
      unfold ClientProgram.hendleNewEndpoints at hact
      split at hact
      · cases hact
      · obtain ⟨demo, -, rfl⟩ := Option.map_eq_some_iff.mp hact
        exact h

/-! ## The phases of a run -/

section

variable {Unlisted : Prop} {hdump : Transmits dump parse}
  {hsubscriber : ThrowsNoParseError subscriber}

theorem Conversing.spoken {s : ClientService σ} {k : κ} {c : ClientProgram}
    {xs : List (Exchange κ (List UInt8) (List UInt8))} {entries : List AnsweredEntry}
    (h : Conversing dump Unlisted s xs k c entries) :
    Spoken dump Unlisted s k xs c.clientId entries :=
  .transcript h.registered h.transcript

/-- What a phase says of the entries taken: the replies for some were handled, another may be
answered, and one may be under way. -/
structure Progress (dump : Json → List UInt8) (Unlisted : Prop) (s : ClientService σ) (k : κ)
    (xs : List (Exchange κ (List UInt8) (List UInt8)))
    (p : Party ClientProgram (List UInt8) (List UInt8)) (clientId : String)
    (heard unheard : List AnsweredEntry) (underWay : List ScenarioEntry) : Prop where
  spoken : Spoken dump Unlisted s k xs clientId (heard ++ unheard)
  handled : Heard p.state.demo heard
  taken : p.state.taken = (heard ++ unheard).map AnsweredEntry.entry ++ underWay
  single : underWay.length ≤ 1
  /-- What was not heard is a reply that is still to be read. -/
  settled : p.replies = [] → unheard = []

/-- Everything that was answered was heard. -/
theorem Progress.of_heard {s : ClientService σ} {k : κ}
    {xs : List (Exchange κ (List UInt8) (List UInt8))}
    {p : Party ClientProgram (List UInt8) (List UInt8)} {clientId : String}
    {entries : List AnsweredEntry} {underWay : List ScenarioEntry}
    (hspoken : Spoken dump Unlisted s k xs clientId entries) (hheard : Heard p.state.demo entries)
    (htaken : p.state.taken = entries.map AnsweredEntry.entry ++ underWay)
    (hsingle : underWay.length ≤ 1) :
    Progress dump Unlisted s k xs p clientId entries [] underWay where
  spoken := by rwa [List.append_nil]
  handled := hheard
  taken := by rwa [List.append_nil]
  single := hsingle
  settled _ := rfl

theorem phase_progress {s : ClientService σ} {k : κ}
    {xs : List (Exchange κ (List UInt8) (List UInt8))}
    {p : Party ClientProgram (List UInt8) (List UInt8)}
    (hp : (sessionDiscipline κ hdump hsubscriber background Unlisted).Phase s xs k p) :
    ∃ clientId heard unheard underWay,
      Progress dump Unlisted s k xs p clientId heard unheard underWay := by
  have hnone : ∀ {c : ClientProgram} {entries : List AnsweredEntry},
      c.taken = entries.map AnsweredEntry.entry →
      c.taken = entries.map AnsweredEntry.entry ++ [] := fun h => h.trans (List.append_nil _).symm
  cases hp with
  | idle c hc =>
    cases hc with
    | new _ hnothing htaken hheard =>
      exact ⟨"", [], [], [], .of_heard (.nothing hnothing) hheard htaken (Nat.zero_le _)⟩
    | conversing entries h htaken hheard =>
      exact ⟨_, entries, [], [], .of_heard h.spoken hheard (hnone htaken) (Nat.zero_le _)⟩
  | asked c data hc =>
    cases hc with
    | clientId _ hnothing htaken hheard =>
      exact ⟨"", [], [], [], .of_heard (.nothing hnothing) hheard htaken (Nat.zero_le _)⟩
    | heartbeat entries h htaken hheard =>
      exact ⟨_, entries, [], [], .of_heard h.spoken hheard (hnone htaken) (Nat.zero_le _)⟩
    | entry entries entry h htaken hheard =>
      exact ⟨_, entries, [], [entry], .of_heard h.spoken hheard htaken (Nat.le_refl _)⟩
  | answered c data hc =>
    cases hc with
    | clientId clientId _ hregistered htranscript htaken hheard =>
      exact ⟨_, [], [], [], .of_heard (.transcript hregistered htranscript) hheard htaken
        (Nat.zero_le _)⟩
    | heartbeat entries h htaken hheard =>
      exact ⟨_, entries, [], [], .of_heard h.spoken hheard (hnone htaken) (Nat.zero_le _)⟩
    | confirmed entries entry endpoint h htaken hheard
    | refused entries entry error h htaken hheard =>
      -- the reply is still to be read
      refine ⟨_, entries, _, [], h.spoken, hheard, ?_, Nat.zero_le _, fun hnone => nomatch hnone⟩
      rw [List.append_nil, List.map_append]
      exact htaken

/-- In every state of a session every client is in one of its phases. -/
theorem session_phases [DecidableEq κ] {scenario : κ → List ScenarioEntry} {state : σ}
    {es : List (SessionEvent κ Y)} {s : Session κ σ} (hdump : Transmits dump parse)
    (hsubscriber : ThrowsNoParseError subscriber) (hlisted : NotListed parse es → Unlisted)
    (hrun : (sessionMachine dump parse subscriber background).run (.initial state scenario) es =
      some s) :
    (sessionDiscipline κ hdump hsubscriber background Unlisted).Holds s := by
  refine Discipline.phases ?_ ?_ hrun
  · intro k
    exact .idle _ (.new rfl rfl rfl ⟨[], rfl, rfl⟩)
  · rintro e he k x rfl hproducts
    exact hlisted ⟨k, x, he, hproducts⟩

/-- Each client and the service speak in turn, and all they said is one transcript. -/
theorem session_spoken [DecidableEq κ] {scenario : κ → List ScenarioEntry} {state : σ}
    {es : List (SessionEvent κ Y)} {s : Session κ σ} (hdump : Transmits dump parse)
    (hsubscriber : ThrowsNoParseError subscriber) (hlisted : NotListed parse es → Unlisted)
    (hrun : (sessionMachine dump parse subscriber background).run (.initial state scenario) es =
      some s) (k : κ) :
    (s.parties k).InStep ∧ ∃ clientId entries,
      Spoken dump Unlisted s.server k (s.history k) clientId entries ∧
      ScenarioCut (scenario k) (s.parties k).state entries := by
  have hp := session_phases hdump hsubscriber hlisted hrun k
  obtain ⟨clientId, heard, unheard, underWay, hprogress⟩ := phase_progress hp
  refine ⟨hp.inStep, clientId, heard ++ unheard, hprogress.spoken, underWay, hprogress.single, ?_⟩
  rw [scenario_taken hrun k, hprogress.taken]

end

/-! ## The calls of the subscriber -/

/-- The calls made are those that the replies confirm. -/
def CallsConfirmed (parse : Parser) (s : Session κ σ) : Prop :=
  s.server.calls = s.log.flatMap (callsIn parse)

theorem callsConfirmed_step [DecidableEq κ] {Unlisted : Prop} {hdump : Transmits dump parse}
    {hsubscriber : ThrowsNoParseError subscriber} {s s' : Session κ σ} {e : SessionEvent κ Y}
    (hs : (sessionDiscipline κ hdump hsubscriber background Unlisted).Holds s)
    (he : (sessionDiscipline κ hdump hsubscriber background Unlisted).Admits e)
    (hcalls : CallsConfirmed parse s)
    (hstep : (sessionMachine dump parse subscriber background).step s e = some s') :
    CallsConfirmed parse s' := by
  cases e with
  | send k =>
    obtain ⟨g, q, -, -, rfl⟩ := State.send_cases hstep
    exact hcalls
  | serve k x =>
    obtain ⟨q, requests, server, replies, hrequests, hserve, rfl⟩ := State.serve_cases hstep
    show server.calls = (s.log ++ [_]).flatMap (callsIn parse)
    have hasked : SessionAsked dump Unlisted s.server (s.history k) k (s.parties k).state q := by
      have hp := hs k
      cases hparty : s.parties k with
      | mk state waiting requests' replies' =>
        rw [hparty] at hp hrequests
        cases hp with
        | idle => cases hrequests
        | asked g q' hg =>
          cases hrequests
          exact hg
        | answered => cases hrequests
    obtain ⟨reply, -, -, hnow⟩ := hasked.serve hdump hsubscriber (he k x rfl) hserve
    rw [hnow, hcalls, List.flatMap_append, List.flatMap_singleton]
  | receive k =>
    obtain ⟨a, replies, g, -, -, -, rfl⟩ := State.receive_cases hstep
    exact hcalls
  | act k i =>
    obtain ⟨g, -, rfl⟩ := Option.map_eq_some_iff.mp hstep
    exact hcalls
  | background y =>
    obtain ⟨server, hact, rfl⟩ := Option.map_eq_some_iff.mp hstep
    obtain ⟨state', -, rfl⟩ := Option.map_eq_some_iff.mp hact
    exact hcalls

theorem session_calls [DecidableEq κ] {scenario : κ → List ScenarioEntry} {state : σ}
    {es : List (SessionEvent κ Y)} {s : Session κ σ} (hdump : Transmits dump parse)
    (hsubscriber : ThrowsNoParseError subscriber)
    (hrun : (sessionMachine dump parse subscriber background).run (.initial state scenario) es =
      some s) : CallsConfirmed parse s := by
  -- what may be unlisted is decided for the whole run, so the phases of its parts are too
  let D := sessionDiscipline κ hdump hsubscriber background True
  have hadmits : ∀ e : SessionEvent κ Y, D.Admits e := fun _ _ _ _ _ => trivial
  refine ((sessionMachine dump parse subscriber background).invariant_rule
    (I := fun s => D.Holds s ∧ CallsConfirmed parse s) ⟨fun k => ?_, ?_⟩ ?_
    ((sessionMachine dump parse subscriber background).guarded_true _ es) hrun).2
  · exact .idle _ (.new rfl rfl rfl ⟨[], rfl, rfl⟩)
  · rfl
  · rintro s e s' ⟨hs, hcalls⟩ - hstep
    exact ⟨Discipline.holds_step hs (hadmits e) hstep, callsConfirmed_step hs (hadmits e) hcalls
      hstep⟩

/-- An entry is confirmed with the endpoint that the table has for its product, and refused
if it has none, or if it could not be read when the entry was answered. -/
theorem Transcript.answered {Unlisted : Prop} {k : κ} {clientId : String}
    {table : Option EndpointProvider} {xs : List (Exchange κ (List UInt8) (List UInt8))}
    {entries : List AnsweredEntry} (h : Transcript dump Unlisted k clientId table xs entries)
    {answered : AnsweredEntry} (hmem : answered ∈ entries) :
    (∃ provider, table = some provider ∧
      answered.endpoint = (provider.prodIdToPort answered.entry.productId).toOption) ∨
    (answered.endpoint = none ∧ Unlisted) := by
  induction h with
  | registered => exact absurd hmem List.not_mem_nil
  | heartbeat _ ih => exact ih hmem
  | confirmed _ htable hproduct ih =>
    rcases List.mem_append.mp hmem with hmem | hmem
    · exact ih hmem
    · obtain rfl := List.mem_singleton.mp hmem
      exact .inl ⟨_, htable, by rw [hproduct]; rfl⟩
  | @unknown _ _ entry provider _ _ htable hproduct ih =>
    rcases List.mem_append.mp hmem with hmem | hmem
    · exact ih hmem
    · obtain rfl := List.mem_singleton.mp hmem
      refine .inl ⟨_, htable, ?_⟩
      cases hport : provider.prodIdToPort entry.productId with
      | error => rfl
      | ok endpoint =>
        rw [EndpointProvider.contains_iff.mpr ⟨endpoint, hport⟩] at hproduct
        cases hproduct
  | unlisted _ hunlisted ih =>
    rcases List.mem_append.mp hmem with hmem | hmem
    · exact ih hmem
    · obtain rfl := List.mem_singleton.mp hmem
      exact .inr ⟨rfl, hunlisted⟩

/-- The calls that the replies to a client confirm are those of its confirmed entries. -/
theorem Spoken.calls (hdump : Transmits dump parse) {Unlisted : Prop} {s : ClientService σ}
    {k : κ} {xs : List (Exchange κ (List UInt8) (List UInt8))} {clientId : String}
    {entries : List AnsweredEntry} (h : Spoken dump Unlisted s k xs clientId entries) :
    xs.flatMap (callsIn parse) = entries.filterMap (AnsweredEntry.call clientId) := by
  cases h with
  | nothing hnothing =>
    rw [hnothing]
    rfl
  | transcript _ h => exact h.calls hdump

/-- What `Transcript.answered` says, also where nothing was said yet. -/
theorem Spoken.answered {Unlisted : Prop} {s : ClientService σ} {k : κ}
    {xs : List (Exchange κ (List UInt8) (List UInt8))} {clientId : String}
    {entries : List AnsweredEntry} (h : Spoken dump Unlisted s k xs clientId entries)
    {answered : AnsweredEntry} (hmem : answered ∈ entries) :
    (∃ provider, s.provider = some provider ∧
      answered.endpoint = (provider.prodIdToPort answered.entry.productId).toOption) ∨
    (answered.endpoint = none ∧ Unlisted) := by
  cases h with
  | nothing => exact absurd hmem List.not_mem_nil
  | transcript _ h => exact h.answered hmem

/-- Confirmed entries name the endpoints of the table. -/
theorem Spoken.confirmed {Unlisted : Prop} {s : ClientService σ} {k : κ}
    {xs : List (Exchange κ (List UInt8) (List UInt8))} {clientId : String}
    {entries : List AnsweredEntry} (h : Spoken dump Unlisted s k xs clientId entries)
    {answered : AnsweredEntry} (hmem : answered ∈ entries) {endpoint : Endpoint}
    (hendpoint : answered.endpoint = some endpoint) :
    ∃ provider, s.provider = some provider ∧
      provider.prodIdToPort answered.entry.productId = .ok endpoint := by
  rcases h.answered hmem with ⟨provider, htable, hport⟩ | ⟨hnone, -⟩
  · exact ⟨provider, htable, toOption_eq_some.mp (hport.symm.trans hendpoint)⟩
  · rw [hnone] at hendpoint
    cases hendpoint

end QuoteServer
