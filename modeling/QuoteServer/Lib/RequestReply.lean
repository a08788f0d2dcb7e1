import Mathlib.Data.List.Basic
import QuoteServer.Lib.Machine

/-!
# Requests and replies

A server answers the requests of any number of callers. Each caller sends a request, waits
for the answer and goes on with what it says; the server takes the requests of different
callers in any order. Both may do other things at any time. `machine` is the system: the
server, the callers, and between each caller and the server the messages under way.

Nothing in it keeps a caller from being answered twice, or never. A `Discipline` says what
holds of one caller between its requests, while a request is under way and while an answer
is, given that the server only *grows* meanwhile. Its rules speak of one party at a time.
What follows is that each caller is in one of the three phases in every state of every run
(`Discipline.phases`), and so has exactly one message under way while it waits, and none
while it does not (`Phase.inStep`).
-/

namespace RequestReply

open EventMachine

universe u

variable {κ σ γ X Y I Q A : Type u}

/-- A server: the state after a request and the replies it sent, and what else it does.
`none` is where it fails. -/
structure Server (σ X Y Q A : Type u) where
  serve : σ → X → Q → Option (σ × List A)
  act : σ → Y → Option σ

/-- A caller: what it sends next, what it makes of an answer, and what else it does. -/
structure Caller (γ I Q A : Type u) where
  send : γ → Option (γ × Q)
  receive : γ → A → Option γ
  act : γ → I → Option γ

/-- A caller and the messages between it and the server. -/
structure Party (γ Q A : Type u) where
  state : γ
  /-- It has sent a request, and gets no further without an answer. -/
  waiting : Bool := false
  requests : List Q := []
  replies : List A := []

/-- One request served. -/
structure Exchange (κ Q A : Type u) where
  party : κ
  request : Q
  replies : List A

structure State (κ σ γ Q A : Type u) where
  server : σ
  parties : κ → Party γ Q A
  /-- Every request that was served, in order. -/
  log : List (Exchange κ Q A) := []

inductive Event (κ X Y I : Type u) where
  | send (k : κ)
  | serve (k : κ) (x : X)
  | receive (k : κ)
  | act (k : κ) (i : I)
  /-- The server does something else. -/
  | background (y : Y)

/-- The caller that an event is about. -/
def Event.party : Event κ X Y I → Option κ
  | .send k => some k
  | .serve k _ => some k
  | .receive k => some k
  | .act k _ => some k
  | .background _ => none

/-- What the server did besides the requests. -/
def ownEvents (es : List (Event κ X Y I)) : List Y :=
  es.filterMap fun
    | .background y => some y
    | _ => none

theorem ownEvents_append (es fs : List (Event κ X Y I)) :
    ownEvents (es ++ fs) = ownEvents es ++ ownEvents fs := List.filterMap_append

namespace State

variable [DecidableEq κ]

def setParty (s : State κ σ γ Q A) (k : κ) (p : Party γ Q A) : State κ σ γ Q A :=
  { s with parties := Function.update s.parties k p }

/-- The exchanges with one caller. -/
def history (s : State κ σ γ Q A) (k : κ) : List (Exchange κ Q A) :=
  s.log.filter fun x => x.party = k

def send (C : Caller γ I Q A) (s : State κ σ γ Q A) (k : κ) : Option (State κ σ γ Q A) :=
  if (s.parties k).waiting then none
  else
    (C.send (s.parties k).state).map fun (g, q) =>
      s.setParty k { s.parties k with
        state := g, waiting := true, requests := (s.parties k).requests ++ [q] }

def serve (S : Server σ X Y Q A) (s : State κ σ γ Q A) (k : κ) (x : X) :
    Option (State κ σ γ Q A) :=
  match (s.parties k).requests with
  | [] => none
  | q :: requests =>
    (S.serve s.server x q).map fun (server, replies) =>
      { s.setParty k { s.parties k with
          requests := requests, replies := (s.parties k).replies ++ replies } with
        server := server
        log := s.log ++ [{ party := k, request := q, replies := replies }] }

def receive (C : Caller γ I Q A) (s : State κ σ γ Q A) (k : κ) : Option (State κ σ γ Q A) :=
  if (s.parties k).waiting then
    match (s.parties k).replies with
    | [] => none
    | a :: replies =>
      (C.receive (s.parties k).state a).map fun g =>
        s.setParty k { s.parties k with state := g, waiting := false, replies := replies }
  else none

def act (C : Caller γ I Q A) (s : State κ σ γ Q A) (k : κ) (i : I) :
    Option (State κ σ γ Q A) :=
  (C.act (s.parties k).state i).map fun g => s.setParty k { s.parties k with state := g }

def step (S : Server σ X Y Q A) (C : Caller γ I Q A) (s : State κ σ γ Q A) :
    Event κ X Y I → Option (State κ σ γ Q A)
  | .send k => s.send C k
  | .serve k x => s.serve S k x
  | .receive k => s.receive C k
  | .act k i => s.act C k i
  | .background y => (S.act s.server y).map fun server => { s with server := server }

end State

def machine [DecidableEq κ] (S : Server σ X Y Q A) (C : Caller γ I Q A) :
    Machine (State κ σ γ Q A) (Event κ X Y I) where
  step := State.step S C

/-- A caller that waits has one message under way, and one that does not has none. -/
def Party.InStep (p : Party γ Q A) : Prop :=
  p.requests.length + p.replies.length = if p.waiting then 1 else 0

/-! ## What a step is -/

namespace State

variable [DecidableEq κ] {S : Server σ X Y Q A} {C : Caller γ I Q A} {s s' : State κ σ γ Q A}
  {k : κ}

theorem send_cases (h : s.send C k = some s') :
    ∃ g q, (s.parties k).waiting = false ∧ C.send (s.parties k).state = some (g, q) ∧
      s' = s.setParty k { s.parties k with
        state := g, waiting := true, requests := (s.parties k).requests ++ [q] } := by
  unfold send at h
  split at h
  · cases h
  · obtain ⟨⟨g, q⟩, hsend, rfl⟩ := Option.map_eq_some_iff.mp h
    exact ⟨g, q, Bool.eq_false_iff.mpr ‹_›, hsend, rfl⟩

theorem serve_cases {x : X} (h : s.serve S k x = some s') :
    ∃ q requests server replies, (s.parties k).requests = q :: requests ∧
      S.serve s.server x q = some (server, replies) ∧
      s' = { s.setParty k { s.parties k with
          requests := requests, replies := (s.parties k).replies ++ replies } with
        server := server
        log := s.log ++ [{ party := k, request := q, replies := replies }] } := by
  unfold serve at h
  cases hrequests : (s.parties k).requests with
  | nil =>
    rw [hrequests] at h
    cases h
  | cons q requests =>
    rw [hrequests] at h
    obtain ⟨⟨server, replies⟩, hserve, rfl⟩ := Option.map_eq_some_iff.mp h
    exact ⟨q, requests, server, replies, rfl, hserve, rfl⟩

theorem receive_cases (h : s.receive C k = some s') :
    ∃ a replies g, (s.parties k).waiting = true ∧ (s.parties k).replies = a :: replies ∧
      C.receive (s.parties k).state a = some g ∧
      s' = s.setParty k { s.parties k with state := g, waiting := false, replies := replies } := by
  unfold receive at h
  split at h
  · cases hreplies : (s.parties k).replies with
    | nil =>
      rw [hreplies] at h
      cases h
    | cons a replies =>
      rw [hreplies] at h
      obtain ⟨g, hreceive, rfl⟩ := Option.map_eq_some_iff.mp h
      exact ⟨a, replies, g, ‹_›, rfl, hreceive, rfl⟩
  · cases h

/-- What holds of every party still does when one of them changes. -/
theorem forall_setParty {P : κ → Party γ Q A → Prop} {p : Party γ Q A}
    (hother : ∀ j, j ≠ k → P j (s.parties j)) (hk : P k p) (j : κ) :
    P j ((s.setParty k p).parties j) := by
  show P j (Function.update s.parties k p j)
  by_cases hj : j = k
  · subst hj
    rw [Function.update_self]
    exact hk
  · rw [Function.update_of_ne hj]
    exact hother j hj

/-- An exchange is part of the history of its own caller only. -/
theorem history_serve (s : State κ σ γ Q A) (k : κ) (p : Party γ Q A) (server : σ) (q : Q)
    (replies : List A) (j : κ) :
    history { s.setParty k p with
      server := server, log := s.log ++ [{ party := k, request := q, replies := replies }] } j =
      if k = j then s.history j ++ [{ party := k, request := q, replies := replies }]
      else s.history j := by
  show (s.log ++ [_]).filter _ = _
  rw [List.filter_append, List.filter_singleton]
  by_cases hj : k = j
  · simp [hj, history]
  · simp [hj, history]

end State

/-- What holds of every caller's own state at first and is kept by what a caller does holds
in every state. -/
theorem caller_rule [DecidableEq κ] {S : Server σ X Y Q A} {C : Caller γ I Q A}
    {P : κ → γ → Prop} {s₀ s : State κ σ γ Q A} {es : List (Event κ X Y I)}
    (hinit : ∀ k, P k (s₀.parties k).state)
    (hsend : ∀ {k g g' q}, P k g → C.send g = some (g', q) → P k g')
    (hreceive : ∀ {k g a g'}, P k g → C.receive g a = some g' → P k g')
    (hact : ∀ {k g i g'}, P k g → C.act g i = some g' → P k g')
    (hrun : (machine S C).run s₀ es = some s) (k : κ) : P k (s.parties k).state := by
  refine (machine S C).invariant_rule (I := fun s => ∀ k, P k (s.parties k).state) hinit ?_
    ((machine S C).guarded_true s₀ es) hrun k
  intro s e s' hs _ hstep
  cases e with
  | send k =>
    obtain ⟨g, q, -, hg, rfl⟩ := State.send_cases hstep
    exact State.forall_setParty (P := fun j p => P j p.state) (fun j _ => hs j) (hsend (hs k) hg)
  | serve k x =>
    obtain ⟨q, requests, server, replies, -, -, rfl⟩ := State.serve_cases hstep
    exact State.forall_setParty (P := fun j p => P j p.state) (fun j _ => hs j) (hs k)
  | receive k =>
    obtain ⟨a, replies, g, -, -, hg, rfl⟩ := State.receive_cases hstep
    exact State.forall_setParty (P := fun j p => P j p.state) (fun j _ => hs j)
      (hreceive (hs k) hg)
  | act k i =>
    obtain ⟨g, hg, rfl⟩ := Option.map_eq_some_iff.mp hstep
    exact State.forall_setParty (P := fun j p => P j p.state) (fun j _ => hs j) (hact (hs k) hg)
  | background y =>
    obtain ⟨server, -, rfl⟩ := Option.map_eq_some_iff.mp hstep
    exact hs

/-- What holds of the server at first and is kept by what it does holds in every state. What
the server finds besides the requests may be assumed to be admissible. -/
theorem server_rule [DecidableEq κ] {S : Server σ X Y Q A} {C : Caller γ I Q A}
    {Admissible : X → Prop} {P : σ → Prop} {s₀ s : State κ σ γ Q A} {es : List (Event κ X Y I)}
    (hes : ∀ k x, .serve k x ∈ es → Admissible x) (hinit : P s₀.server)
    (hserve : ∀ {s x q s' replies}, Admissible x → P s → S.serve s x q = some (s', replies) →
      P s')
    (hact : ∀ {s y s'}, P s → S.act s y = some s' → P s')
    (hrun : (machine S C).run s₀ es = some s) : P s.server := by
  refine (machine S C).invariant_rule (G := fun _ e => e ∈ es) (I := fun s => P s.server) hinit ?_
    ?_ hrun
  · intro s e s' hs he hstep
    cases e with
    | send k =>
      obtain ⟨g, q, -, -, rfl⟩ := State.send_cases hstep
      exact hs
    | serve k x =>
      obtain ⟨q, requests, server, replies, -, hserved, rfl⟩ := State.serve_cases hstep
      exact hserve (hes k x he) hs hserved
    | receive k =>
      obtain ⟨a, replies, g, -, -, -, rfl⟩ := State.receive_cases hstep
      exact hs
    | act k i =>
      obtain ⟨g, -, rfl⟩ := Option.map_eq_some_iff.mp hstep
      exact hs
    | background y =>
      obtain ⟨server, hserver, rfl⟩ := Option.map_eq_some_iff.mp hstep
      exact hact hs hserver
  · rintro pre e post t rfl -
    exact List.mem_append_right _ List.mem_cons_self

/-! ## From one request to the next -/

namespace State

variable [DecidableEq κ] {S : Server σ X Y Q A} {C : Caller γ I Q A} {s s' : State κ σ γ Q A}
  {k : κ}

/-- What a caller is after it sent a request. -/
theorem send_party (h : s.send C k = some s') :
    ∃ q, C.send (s.parties k).state = some ((s'.parties k).state, q) := by
  obtain ⟨g, q, -, hsend, rfl⟩ := send_cases h
  refine ⟨q, ?_⟩
  show _ = some ((Function.update s.parties k _ k).state, q)
  rw [Function.update_self]
  exact hsend

/-- What it is after a request of it was served: one request less is under way. -/
theorem serve_party {x : X} (h : s.serve S k x = some s') :
    (s'.parties k).state = (s.parties k).state ∧ (s'.parties k).waiting = (s.parties k).waiting ∧
      (s'.parties k).requests.length + 1 = (s.parties k).requests.length := by
  obtain ⟨q, requests, server, replies, hrequests, -, rfl⟩ := serve_cases h
  show (Function.update s.parties k _ k).state = _ ∧ (Function.update s.parties k _ k).waiting = _ ∧
    (Function.update s.parties k _ k).requests.length + 1 = _
  rw [Function.update_self, hrequests]
  exact ⟨rfl, rfl, rfl⟩

/-- What it is after it did something else. -/
theorem act_party {i : I} (h : s.act C k i = some s') :
    (s'.parties k).waiting = (s.parties k).waiting ∧
      C.act (s.parties k).state i = some (s'.parties k).state := by
  obtain ⟨g, hact, rfl⟩ := Option.map_eq_some_iff.mp h
  show (Function.update s.parties k _ k).waiting = _ ∧
    _ = some (Function.update s.parties k _ k).state
  rw [Function.update_self]
  exact ⟨rfl, hact⟩

/-- What it is after it read a reply. -/
theorem receive_party (h : s.receive C k = some s') :
    (s'.parties k).waiting = false ∧
      ∃ a, C.receive (s.parties k).state a = some (s'.parties k).state := by
  obtain ⟨a, replies, g, -, -, hreceive, rfl⟩ := receive_cases h
  refine ⟨?_, a, ?_⟩
  · exact congrArg Party.waiting (Function.update_self k _ s.parties)
  · show _ = some (Function.update s.parties k _ k).state
    rw [Function.update_self]
    exact hreceive

end State

/-- A caller whose requests can be served and whose answers it can read gets to where it does
not wait, and keeps what reading an answer keeps. `R` are the states that can be reached, and
`G` is what every step on the way meets; before a request is served, other things may happen. -/
theorem canReach_not_waiting [DecidableEq κ] {S : Server σ X Y Q A} {C : Caller γ I Q A}
    {G : State κ σ γ Q A → Event κ X Y I → Prop} {R : State κ σ γ Q A → Prop} {P : γ → Prop}
    {k : κ} (hinStep : ∀ {s}, R s → (s.parties k).InStep)
    (hserve : ∀ {s}, R s → (s.parties k).requests ≠ [] → ∃ s', (machine S C).CanReach G s s' ∧
      R s' ∧ (s'.parties k).state = (s.parties k).state ∧
      (s'.parties k).waiting = (s.parties k).waiting ∧
      (s'.parties k).requests.length + 1 = (s.parties k).requests.length)
    (hreceive : ∀ {s}, R s → (s.parties k).waiting = true → (s.parties k).replies ≠ [] →
      ∃ s', s.receive C k = some s' ∧ G s (.receive k) ∧ R s')
    (hP : ∀ {g a g'}, P g → C.receive g a = some g' → P g') {s : State κ σ γ Q A} (hs : R s)
    (hg : P (s.parties k).state) :
    ∃ s', (machine S C).CanReach G s s' ∧ R s' ∧ (s'.parties k).waiting = false ∧
      P (s'.parties k).state := by
  -- a caller that waits has one message under way, and an answer is read at once
  have hone : ∀ {s : State κ σ γ Q A}, R s → (s.parties k).waiting = true →
      (s.parties k).requests.length + (s.parties k).replies.length = 1 := by
    intro s hs hwaiting
    have h := hinStep hs
    unfold Party.InStep at h
    rwa [hwaiting, if_pos rfl] at h
  have hread : ∀ {s : State κ σ γ Q A}, R s → P (s.parties k).state →
      (s.parties k).waiting = true → (s.parties k).requests.length = 0 →
      ∃ s', (machine S C).CanReach G s s' ∧ R s' ∧ (s'.parties k).waiting = false ∧
        P (s'.parties k).state := by
    intro s hs hg hwaiting hnone
    have hreplies : (s.parties k).replies ≠ [] := by
      intro hreplies
      have h := hone hs hwaiting
      rw [hnone, hreplies] at h
      cases h
    obtain ⟨s', hstep, hguard, hs'⟩ := hreceive hs hwaiting hreplies
    obtain ⟨hdone, a, hread⟩ := State.receive_party hstep
    exact ⟨s', Machine.canReach_of_step _ hguard hstep, hs', hdone, hP hg hread⟩
  cases hwaiting : (s.parties k).waiting with
  | false => exact ⟨s, Machine.canReach_refl _ G s, hs, hwaiting, hg⟩
  | true =>
    by_cases hrequests : (s.parties k).requests = []
    · exact hread hs hg hwaiting (by rw [hrequests]; rfl)
    · obtain ⟨t, hreach, ht, hstate, hsame, hlength⟩ := hserve hs hrequests
      have hnone : (t.parties k).requests.length = 0 := by
        have h := hone hs hwaiting
        omega
      obtain ⟨s', hreach', hs', hdone, hkept⟩ :=
        hread ht (hstate ▸ hg) (hsame.trans hwaiting) hnone
      exact ⟨s', hreach.trans hreach', hs', hdone, hkept⟩

/-! ## One caller at a time -/

/-- What holds of a caller in each of its phases, and why it stays so: `Idle` when it does
not wait, `Asked` while its request is under way, `Answered` while the answer is. All three
may speak of the exchanges with it so far and of the server, as far as a server that grows
keeps them. What the server finds besides the request may be assumed to be `Admissible`. -/
structure Discipline (S : Server σ X Y Q A) (C : Caller γ I Q A) (κ : Type u) where
  Admissible : X → Prop
  Grows : σ → σ → Prop
  Idle : σ → List (Exchange κ Q A) → κ → γ → Prop
  Asked : σ → List (Exchange κ Q A) → κ → γ → Q → Prop
  Answered : σ → List (Exchange κ Q A) → κ → γ → A → Prop
  grows_serve : ∀ {s x q s' replies}, S.serve s x q = some (s', replies) → Grows s s'
  grows_act : ∀ {s y s'}, S.act s y = some s' → Grows s s'
  idle_grows : ∀ {s s' h k g}, Grows s s' → Idle s h k g → Idle s' h k g
  asked_grows : ∀ {s s' h k g q}, Grows s s' → Asked s h k g q → Asked s' h k g q
  answered_grows : ∀ {s s' h k g a}, Grows s s' → Answered s h k g a → Answered s' h k g a
  send : ∀ {s h k g g' q}, Idle s h k g → C.send g = some (g', q) → Asked s h k g' q
  /-- The server answers exactly once. -/
  serve : ∀ {s h k g q x s' replies}, Admissible x → Asked s h k g q →
    S.serve s x q = some (s', replies) → ∃ a, replies = [a] ∧
      Answered s' (h ++ [{ party := k, request := q, replies := replies }]) k g a
  receive : ∀ {s h k g g' a}, Answered s h k g a → C.receive g a = some g' → Idle s h k g'
  idle_act : ∀ {s h k g i g'}, Idle s h k g → C.act g i = some g' → Idle s h k g'
  asked_act : ∀ {s h k g q i g'}, Asked s h k g q → C.act g i = some g' → Asked s h k g' q
  answered_act : ∀ {s h k g a i g'}, Answered s h k g a → C.act g i = some g' →
    Answered s h k g' a

namespace Discipline

variable {S : Server σ X Y Q A} {C : Caller γ I Q A} (D : Discipline S C κ)

/-- A caller is in one of the three phases. -/
inductive Phase (s : σ) (h : List (Exchange κ Q A)) (k : κ) : Party γ Q A → Prop where
  | idle (g : γ) (hg : D.Idle s h k g) : Phase s h k ⟨g, false, [], []⟩
  | asked (g : γ) (q : Q) (hg : D.Asked s h k g q) : Phase s h k ⟨g, true, [q], []⟩
  | answered (g : γ) (a : A) (hg : D.Answered s h k g a) : Phase s h k ⟨g, true, [], [a]⟩

variable {D} {s s' : σ} {h : List (Exchange κ Q A)} {k : κ} {p : Party γ Q A}

theorem Phase.inStep (hp : D.Phase s h k p) : p.InStep := by
  cases hp <;> rfl

theorem Phase.grows (hp : D.Phase s h k p) (hs : D.Grows s s') : D.Phase s' h k p := by
  cases hp with
  | idle g hg => exact .idle g (D.idle_grows hs hg)
  | asked g q hg => exact .asked g q (D.asked_grows hs hg)
  | answered g a hg => exact .answered g a (D.answered_grows hs hg)

/-- A caller that sends was idle. -/
theorem Phase.send (hp : D.Phase s h k p) (hwaiting : p.waiting = false) {g : γ} {q : Q}
    (hsend : C.send p.state = some (g, q)) :
    D.Phase s h k { p with state := g, waiting := true, requests := p.requests ++ [q] } := by
  cases hp with
  | idle g₀ hg => exact .asked g q (D.send hg hsend)
  | asked => cases hwaiting
  | answered => cases hwaiting

/-- A request that is served was under way alone. -/
theorem Phase.serve (hp : D.Phase s h k p) {q : Q} {requests : List Q} {x : X}
    {replies : List A} (hx : D.Admissible x) (hrequests : p.requests = q :: requests)
    (hserve : S.serve s x q = some (s', replies)) :
    D.Phase s' (h ++ [{ party := k, request := q, replies := replies }]) k
      { p with requests := requests, replies := p.replies ++ replies } := by
  cases hp with
  | idle => cases hrequests
  | asked g q' hg =>
    cases hrequests
    obtain ⟨a, rfl, ha⟩ := D.serve hx hg hserve
    exact .answered g a ha
  | answered => cases hrequests

theorem Phase.receive (hp : D.Phase s h k p) {a : A} {replies : List A} {g : γ}
    (hreplies : p.replies = a :: replies) (hreceive : C.receive p.state a = some g) :
    D.Phase s h k { p with state := g, waiting := false, replies := replies } := by
  cases hp with
  | idle => cases hreplies
  | asked => cases hreplies
  | answered g₀ a' hg =>
    cases hreplies
    exact .idle g (D.receive hg hreceive)

theorem Phase.act (hp : D.Phase s h k p) {i : I} {g : γ} (hact : C.act p.state i = some g) :
    D.Phase s h k { p with state := g } := by
  cases hp with
  | idle g₀ hg => exact .idle g (D.idle_act hg hact)
  | asked g₀ q hg => exact .asked g q (D.asked_act hg hact)
  | answered g₀ a hg => exact .answered g a (D.answered_act hg hact)

/-- Every party is in a phase. -/
def Holds [DecidableEq κ] (D : Discipline S C κ) (s : State κ σ γ Q A) : Prop :=
  ∀ k, D.Phase s.server (s.history k) k (s.parties k)

/-- What the server finds in a step is admissible. -/
def Admits (D : Discipline S C κ) (e : Event κ X Y I) : Prop :=
  ∀ k x, e = .serve k x → D.Admissible x

/-- A step keeps every party in a phase: the one that takes it by its own rule, and the
others because the server grows. -/
theorem holds_step [DecidableEq κ] {s s' : State κ σ γ Q A} {e : Event κ X Y I}
    (hs : D.Holds s) (he : D.Admits e) (hstep : s.step S C e = some s') : D.Holds s' := by
  cases e with
  | send k =>
    obtain ⟨g, q, hwaiting, hsend, rfl⟩ := State.send_cases hstep
    exact State.forall_setParty (P := fun j => D.Phase s.server (s.history j) j)
      (fun j _ => hs j) ((hs k).send hwaiting hsend)
  | serve k x =>
    obtain ⟨q, requests, server, replies, hrequests, hserve, rfl⟩ := State.serve_cases hstep
    intro j
    rw [State.history_serve]
    refine State.forall_setParty
      (P := fun j => D.Phase server (if k = j then s.history j ++
        [{ party := k, request := q, replies := replies }] else s.history j) j)
      (fun i hi => ?_) ?_ j
    · rw [if_neg (Ne.symm hi)]
      exact (hs i).grows (D.grows_serve hserve)
    · rw [if_pos rfl]
      exact (hs k).serve (he k x rfl) hrequests hserve
  | receive k =>
    obtain ⟨a, replies, g, -, hreplies, hreceive, rfl⟩ := State.receive_cases hstep
    exact State.forall_setParty (P := fun j => D.Phase s.server (s.history j) j)
      (fun j _ => hs j) ((hs k).receive hreplies hreceive)
  | act k i =>
    obtain ⟨g, hact, rfl⟩ := Option.map_eq_some_iff.mp hstep
    exact State.forall_setParty (P := fun j => D.Phase s.server (s.history j) j)
      (fun j _ => hs j) ((hs k).act hact)
  | background y =>
    obtain ⟨server, hact, rfl⟩ := Option.map_eq_some_iff.mp hstep
    exact fun j => (hs j).grows (D.grows_act hact)

/-- **In every state of every run, every caller is in one of its phases.** -/
theorem phases [DecidableEq κ] {s₀ s : State κ σ γ Q A} {es : List (Event κ X Y I)}
    (hinit : D.Holds s₀) (hadmits : ∀ e ∈ es, D.Admits e)
    (hrun : (machine S C).run s₀ es = some s) : D.Holds s := by
  have hg : (machine S C).Guarded (fun _ e => D.Admits e) s₀ es := by
    intro pre e post s' hes _
    exact hadmits e (by rw [hes]; exact List.mem_append_right _ List.mem_cons_self)
  exact (machine S C).invariant_rule (I := D.Holds) hinit
    (fun _ _ _ hs he hstep => holds_step hs he hstep) hg hrun

end Discipline

end RequestReply
