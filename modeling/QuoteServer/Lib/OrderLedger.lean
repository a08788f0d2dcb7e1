import Mathlib.Logic.Function.Basic
import Mathlib.Data.List.Nodup
import QuoteServer.Lib.Machine

/-!
# The ledger of an exchange

What an order-by-order feed means: an order is *opened*, *changed* to a new size,
*matched* as the maker of a trade, or *closed*. `Ledger` is the reference replay of
such messages, `Legal` says which message may come next, and `WellFormed` is a list
of messages each of which may.

The result for users of the library is `recorded`: after a well-formed list the
resting orders are exactly the orders *listed* (at the start, or opened since) that
were not closed, each with its *remaining* size, which is read off the messages
alone.
-/

namespace OrderLedger

open EventMachine

universe u v w

variable {ι : Type u} {σ : Type v} {α : Type w}

/-- An order that rests at the exchange. -/
structure Resting (σ : Type v) (α : Type w) where
  side : σ
  price : α
  size : α
  deriving DecidableEq, Repr

inductive Message (ι : Type u) (σ : Type v) (α : Type w) where
  | opened (id : ι) (order : Resting σ α)
  | changed (id : ι) (side : σ) (size : α)
  | closed (id : ι) (side : σ)
  /-- A trade of `size` between a resting maker and an incoming taker. -/
  | matched (maker taker : ι) (side : σ) (size : α)

/-- The orders that rest, and every id that was ever given to an order. -/
structure Ledger (ι : Type u) (σ : Type v) (α : Type w) where
  resting : ι → Option (Resting σ α)
  used : List ι

/-- A message may come next: an order is opened under a new id, the order of any
other message rests on the side the message says, a trade fits into its maker and
its taker does not rest. -/
def Legal [LE α] (l : Ledger ι σ α) : Message ι σ α → Prop
  | .opened id _ => id ∉ l.used
  | .changed id side _ => ∃ o, l.resting id = some o ∧ o.side = side
  | .closed id side => ∃ o, l.resting id = some o ∧ o.side = side
  | .matched maker taker side size =>
    ∃ o, l.resting maker = some o ∧ o.side = side ∧ size ≤ o.size ∧ l.resting taker = none

/-- What a message does to the size of the order `id`. -/
def Message.resize [Sub α] [DecidableEq ι] (id : ι) (size : α) : Message ι σ α → α
  | .changed id' _ size' => if id' = id then size' else size
  | .matched maker _ _ traded => if maker = id then size - traded else size
  | _ => size

/-- The size of the order `id` after a list of messages. -/
def remaining [Sub α] [DecidableEq ι] (id : ι) (msgs : List (Message ι σ α)) (size : α) : α :=
  msgs.foldl (Message.resize id) size

/-- The orders opened by a list of messages. -/
def opens (msgs : List (Message ι σ α)) : List (ι × Resting σ α) :=
  msgs.filterMap fun
    | .opened id order => some (id, order)
    | _ => none

/-- The order a message is about. -/
def Message.subject : Message ι σ α → ι
  | .opened id _ => id
  | .changed id _ _ => id
  | .closed id _ => id
  | .matched maker _ _ _ => maker

/-- No message closes the order `id`. -/
def NotClosed (id : ι) (msgs : List (Message ι σ α)) : Prop :=
  ∀ side, .closed id side ∉ msgs

/-- The order with a new size. -/
def Resting.withSize (o : Resting σ α) (size : α) : Resting σ α := { o with size := size }

theorem Resting.withSize_self (o : Resting σ α) : o.withSize o.size = o := rfl

theorem opens_append (msgs more : List (Message ι σ α)) :
    opens (msgs ++ more) = opens msgs ++ opens more := List.filterMap_append

/-- Appending a message closes an order only if that message does. -/
theorem notClosed_concat {id : ι} {msgs : List (Message ι σ α)} {m : Message ι σ α} :
    NotClosed id (msgs ++ [m]) ↔ NotClosed id msgs ∧ ∀ side, m ≠ .closed id side := by
  rw [NotClosed, NotClosed]
  constructor
  · intro h
    refine ⟨fun side hm => h side (List.mem_append_left _ hm), fun side hm => ?_⟩
    exact h side (List.mem_append_right _ (List.mem_singleton.mpr hm.symm))
  · rintro ⟨h, hm⟩ side hmem
    rcases List.mem_append.mp hmem with hmem | hmem
    · exact h side hmem
    · exact hm side (List.mem_singleton.mp hmem).symm

/-- The orders listed at the start or opened since, as they were when they came. -/
def listed (orders : List (ι × Resting σ α)) (msgs : List (Message ι σ α)) :
    List (ι × Resting σ α) := orders ++ opens msgs

/-- Only opening lists an order. -/
theorem listed_concat_other (orders : List (ι × Resting σ α)) (msgs : List (Message ι σ α))
    {m : Message ι σ α} (h : ∀ id o, m ≠ .opened id o) :
    listed orders (msgs ++ [m]) = listed orders msgs := by
  rw [listed, opens_append]
  cases m with
  | opened id o => exact absurd rfl (h id o)
  | _ => rw [show opens [_] = [] from rfl, List.append_nil, listed]

theorem listed_concat_opened (orders : List (ι × Resting σ α))
    (msgs : List (Message ι σ α)) (id : ι) (o : Resting σ α) :
    listed orders (msgs ++ [.opened id o]) = listed orders msgs ++ [(id, o)] := by
  rw [listed, opens_append, ← List.append_assoc]
  rfl

/-- Looking up an id finds exactly the pairs of a list whose ids are distinct. -/
theorem lookup_eq_some_iff [DecidableEq ι] {orders : List (ι × Resting σ α)}
    (hnodup : (orders.map Prod.fst).Nodup) {id : ι} {o : Resting σ α} :
    orders.lookup id = some o ↔ (id, o) ∈ orders := by
  induction orders with
  | nil => simp
  | cons x orders ih =>
    obtain ⟨id', o'⟩ := x
    rw [List.map_cons, List.nodup_cons] at hnodup
    rw [List.lookup_cons, List.mem_cons, Prod.mk.injEq]
    by_cases hid : id = id'
    · subst hid
      have habsent : (id, o) ∉ orders := fun h => hnodup.1 (List.mem_map.mpr ⟨_, h, rfl⟩)
      rw [beq_self_eq_true]
      simp [habsent, eq_comm]
    · rw [beq_eq_false_iff_ne.mpr hid]
      simp only [hid, false_and, false_or]
      exact ih hnodup.2

variable [Sub α] [DecidableEq ι]

namespace Ledger

/-- The reference replay of one message. -/
def step (l : Ledger ι σ α) : Message ι σ α → Ledger ι σ α
  | .opened id order =>
    { resting := Function.update l.resting id (some order), used := id :: l.used }
  | .changed id _ size =>
    { l with resting := Function.update l.resting id
              ((l.resting id).map fun o => o.withSize size) }
  | .closed id _ => { l with resting := Function.update l.resting id none }
  | .matched maker _ _ size =>
    { l with resting := Function.update l.resting maker
              ((l.resting maker).map fun o => o.withSize (o.size - size)) }

/-- The ledger that starts with a list of orders. -/
def ofList (orders : List (ι × Resting σ α)) : Ledger ι σ α :=
  { resting := fun id => orders.lookup id, used := orders.map Prod.fst }

/-- The reference replay of a list of messages. -/
def after (l : Ledger ι σ α) (msgs : List (Message ι σ α)) : Ledger ι σ α :=
  msgs.foldl step l

end Ledger

/-- The exchange as a machine: every message can be replayed. -/
def exchange (ι : Type u) (σ : Type v) (α : Type w) [Sub α] [DecidableEq ι] :
    Machine (Ledger ι σ α) (Message ι σ α) where
  step l m := some (l.step m)

theorem exchange_run (l : Ledger ι σ α) (msgs : List (Message ι σ α)) :
    (exchange ι σ α).run l msgs = some (l.after msgs) := by
  induction msgs generalizing l with
  | nil => rfl
  | cons m msgs ih => exact ih (l.step m)

/-- Each message of the list may come when it does. -/
def WellFormed [LE α] (l : Ledger ι σ α) (msgs : List (Message ι σ α)) : Prop :=
  (exchange ι σ α).Guarded Legal l msgs

/-! ## Appending one message -/

theorem remaining_concat (id : ι) (msgs : List (Message ι σ α)) (m : Message ι σ α)
    (size : α) :
    remaining id (msgs ++ [m]) size = m.resize id (remaining id msgs size) := by
  rw [remaining, List.foldl_append]
  rfl

/-- A message leaves the size of every order it is not about. -/
theorem Message.resize_of_ne {id : ι} {m : Message ι σ α} (h : m.subject ≠ id) (size : α) :
    m.resize id size = size := by
  cases m with
  | opened _ _ => rfl
  | changed id' _ _ => exact if_neg h
  | closed _ _ => rfl
  | matched maker _ _ _ => exact if_neg h

/-- An order that no message is about keeps its size. -/
theorem remaining_of_not_subject {id : ι} {msgs : List (Message ι σ α)} (size : α)
    (h : ∀ m ∈ msgs, m.subject ≠ id) : remaining id msgs size = size := by
  induction msgs using List.reverseRecOn with
  | nil => rfl
  | append_singleton msgs m ih =>
    rw [remaining_concat,
      Message.resize_of_ne (h m (List.mem_append_right _ (List.mem_singleton.mpr rfl)))]
    exact ih fun m hm => h m (List.mem_append_left _ hm)

/-! ## What a well-formed list records -/

/-- The ledger read off the orders and the messages: ids are used once, every message
is about a listed order, and what rests is what was listed and not closed. -/
structure Recorded (orders : List (ι × Resting σ α)) (msgs : List (Message ι σ α))
    (l : Ledger ι σ α) : Prop where
  used : ∀ id, id ∈ l.used ↔ id ∈ (listed orders msgs).map Prod.fst
  nodup : ((listed orders msgs).map Prod.fst).Nodup
  subject : ∀ m ∈ msgs, m.subject ∈ (listed orders msgs).map Prod.fst
  resting : ∀ id o, l.resting id = some o ↔
    ∃ o₀, (id, o₀) ∈ listed orders msgs ∧ NotClosed id msgs ∧
      o = o₀.withSize (remaining id msgs o₀.size)

/-- Listed orders with one id are one order. -/
theorem Recorded.unique {orders : List (ι × Resting σ α)} {msgs : List (Message ι σ α)}
    {l : Ledger ι σ α} (h : Recorded orders msgs l) {id : ι} {o o' : Resting σ α}
    (ho : (id, o) ∈ listed orders msgs) (ho' : (id, o') ∈ listed orders msgs) : o = o' := by
  have heq := List.inj_on_of_nodup_map h.nodup ho ho' rfl
  exact (Prod.mk.inj heq).2

theorem Recorded.mem_of_resting {orders : List (ι × Resting σ α)}
    {msgs : List (Message ι σ α)} {l : Ledger ι σ α} (h : Recorded orders msgs l) {id : ι}
    {o : Resting σ α} (ho : l.resting id = some o) :
    id ∈ (listed orders msgs).map Prod.fst := by
  obtain ⟨o₀, hmem, -, -⟩ := (h.resting id o).mp ho
  exact List.mem_map.mpr ⟨_, hmem, rfl⟩

/-- A message says nothing of the orders it is not about. -/
theorem restsAs_other {orders : List (ι × Resting σ α)} {msgs : List (Message ι σ α)}
    {m : Message ι σ α} {id : ι} (hid : id ≠ m.subject) (o : Resting σ α) :
    (∃ o₀, (id, o₀) ∈ listed orders (msgs ++ [m]) ∧ NotClosed id (msgs ++ [m]) ∧
        o = o₀.withSize (remaining id (msgs ++ [m]) o₀.size)) ↔
      ∃ o₀, (id, o₀) ∈ listed orders msgs ∧ NotClosed id msgs ∧
        o = o₀.withSize (remaining id msgs o₀.size) := by
  have hlisted : ∀ o₀, (id, o₀) ∈ listed orders (msgs ++ [m]) ↔ (id, o₀) ∈ listed orders msgs := by
    intro o₀
    cases m with
    | opened id' o' =>
      rw [listed_concat_opened, List.mem_append, List.mem_singleton]
      exact or_iff_left fun h => hid (Prod.mk.inj h).1
    | _ =>
      refine iff_of_eq (congrArg ((id, o₀) ∈ ·) (listed_concat_other orders msgs ?_))
      intro _ _ h
      cases h
  have hclosed : ∀ side, m ≠ .closed id side := by
    rintro side rfl
    exact hid rfl
  refine exists_congr fun o₀ => ?_
  rw [hlisted, notClosed_concat, and_iff_left hclosed, remaining_concat,
    Message.resize_of_ne (Ne.symm hid)]

/-- Only what rests under the id of the message has to be recorded anew. -/
theorem Recorded.resting_concat {orders : List (ι × Resting σ α)}
    {msgs : List (Message ι σ α)} {m : Message ι σ α} {l l' : Ledger ι σ α}
    (hl : Recorded orders msgs l)
    (hothers : ∀ id, id ≠ m.subject → l'.resting id = l.resting id)
    (hown : ∀ o, l'.resting m.subject = some o ↔
      ∃ o₀, (m.subject, o₀) ∈ listed orders (msgs ++ [m]) ∧ NotClosed m.subject (msgs ++ [m]) ∧
        o = o₀.withSize (remaining m.subject (msgs ++ [m]) o₀.size)) (id : ι) (o : Resting σ α) :
    l'.resting id = some o ↔
      ∃ o₀, (id, o₀) ∈ listed orders (msgs ++ [m]) ∧ NotClosed id (msgs ++ [m]) ∧
        o = o₀.withSize (remaining id (msgs ++ [m]) o₀.size) := by
  by_cases hid : id = m.subject
  · rw [hid]
    exact hown o
  · rw [hothers id hid, hl.resting]
    exact (restsAs_other hid o).symm

/-- A message that opens no order. -/
theorem Recorded.concat_other {orders : List (ι × Resting σ α)} {msgs : List (Message ι σ α)}
    {m : Message ι σ α} {l l' : Ledger ι σ α} (hl : Recorded orders msgs l)
    (hopen : ∀ id o, m ≠ .opened id o) (hsub : m.subject ∈ (listed orders msgs).map Prod.fst)
    (hused : l'.used = l.used)
    (hothers : ∀ id, id ≠ m.subject → l'.resting id = l.resting id)
    (hown : ∀ o, l'.resting m.subject = some o ↔
      ∃ o₀, (m.subject, o₀) ∈ listed orders msgs ∧ NotClosed m.subject (msgs ++ [m]) ∧
        o = o₀.withSize (remaining m.subject (msgs ++ [m]) o₀.size)) :
    Recorded orders (msgs ++ [m]) l' := by
  have hlist := listed_concat_other orders msgs hopen
  refine ⟨?_, ?_, ?_, hl.resting_concat hothers ?_⟩
  · rw [hlist, hused]
    exact hl.used
  · rw [hlist]
    exact hl.nodup
  · rw [hlist]
    intro m' hm'
    rcases List.mem_append.mp hm' with hm' | hm'
    · exact hl.subject m' hm'
    · rw [List.mem_singleton.mp hm']
      exact hsub
  · rw [hlist]
    exact hown

/-- A message that only resizes its order. -/
theorem recorded_resize {orders : List (ι × Resting σ α)} {msgs : List (Message ι σ α)}
    {m : Message ι σ α} {l l' : Ledger ι σ α} (hl : Recorded orders msgs l)
    (hopen : ∀ id o, m ≠ .opened id o) (hclose : ∀ id side, m ≠ .closed id side)
    (hsub : m.subject ∈ (listed orders msgs).map Prod.fst) (hused : l'.used = l.used)
    (hrest : l'.resting = Function.update l.resting m.subject
      ((l.resting m.subject).map fun o => o.withSize (m.resize m.subject o.size))) :
    Recorded orders (msgs ++ [m]) l' := by
  refine hl.concat_other hopen hsub hused (fun id hid => ?_) fun o => ?_
  · rw [hrest, Function.update_of_ne hid]
  · rw [hrest, notClosed_concat, Function.update_self, Option.map_eq_some_iff]
    constructor
    · rintro ⟨o₁, ho₁, rfl⟩
      obtain ⟨o₀, hmem, hnc, rfl⟩ := (hl.resting _ _).mp ho₁
      refine ⟨o₀, hmem, ⟨hnc, fun side => hclose _ side⟩, ?_⟩
      rw [remaining_concat]
      rfl
    · rintro ⟨o₀, hmem, ⟨hnc, -⟩, rfl⟩
      refine ⟨_, (hl.resting _ _).mpr ⟨o₀, hmem, hnc, rfl⟩, ?_⟩
      rw [remaining_concat]
      rfl

/-- A message that closes its order: no size counts any more. -/
theorem recorded_closed {orders : List (ι × Resting σ α)} {msgs : List (Message ι σ α)}
    {id : ι} {side : σ} {l : Ledger ι σ α} (hl : Recorded orders msgs l)
    (hsub : id ∈ (listed orders msgs).map Prod.fst) :
    Recorded orders (msgs ++ [.closed id side]) (l.step (.closed id side)) := by
  refine hl.concat_other (fun _ _ h => (nomatch h)) hsub rfl (fun id' hid => ?_) fun o => ?_
  · exact Function.update_of_ne hid _ _
  · show Function.update l.resting id none id = some o ↔ _
    rw [Function.update_self, notClosed_concat]
    constructor
    · intro h
      cases h
    · rintro ⟨o₀, -, ⟨-, hnc⟩, -⟩
      exact absurd rfl (hnc side)

/-- A message that opens an order under a new id. -/
theorem recorded_opened {orders : List (ι × Resting σ α)} {msgs : List (Message ι σ α)}
    {id : ι} {order : Resting σ α} {l : Ledger ι σ α} (hl : Recorded orders msgs l)
    (hfresh : id ∉ l.used) :
    Recorded orders (msgs ++ [.opened id order]) (l.step (.opened id order)) := by
  have hnew : id ∉ (listed orders msgs).map Prod.fst := fun h => hfresh ((hl.used id).mpr h)
  have hids : (listed orders (msgs ++ [.opened id order])).map Prod.fst =
      (listed orders msgs).map Prod.fst ++ [id] := by
    rw [listed_concat_opened, List.map_append]
    rfl
  -- no message so far is about a new id
  have hsubject : ∀ m ∈ msgs, m.subject ≠ id := by
    intro m hm h
    exact hnew (h ▸ hl.subject m hm)
  have hsize : remaining id (msgs ++ [.opened id order]) order.size = order.size := by
    rw [remaining_concat, remaining_of_not_subject _ hsubject]
    rfl
  refine ⟨fun id' => ?_, ?_, ?_, hl.resting_concat (fun id' hid => ?_) fun o => ?_⟩
  · rw [hids, List.mem_append, List.mem_singleton, ← hl.used id']
    show id' ∈ id :: l.used ↔ _
    rw [List.mem_cons, or_comm]
  · rw [hids]
    -- the new id is none of those listed
    refine List.nodup_append.mpr ⟨hl.nodup, List.nodup_singleton id, ?_⟩
    intro a ha b hb h
    exact hnew (List.mem_singleton.mp hb ▸ h ▸ ha)
  · rw [hids]
    intro m' hm'
    rcases List.mem_append.mp hm' with hm' | hm'
    · exact List.mem_append_left _ (hl.subject m' hm')
    · rw [List.mem_singleton.mp hm']
      exact List.mem_append_right _ (List.mem_singleton.mpr rfl)
  · exact Function.update_of_ne hid _ _
  · show Function.update l.resting id (some order) id = some o ↔
      ∃ o₀ : Resting σ α, (id, o₀) ∈ _ ∧ NotClosed id _ ∧
        o = o₀.withSize (remaining id _ o₀.size)
    rw [Function.update_self, Option.some.injEq, listed_concat_opened, notClosed_concat]
    constructor
    · rintro rfl
      refine ⟨order, List.mem_append_right _ (List.mem_singleton.mpr rfl), ⟨?_, ?_⟩, ?_⟩
      · intro side hm
        exact hsubject _ hm rfl
      · intro side h
        cases h
      · rw [hsize]
        rfl
    · rintro ⟨o₀, hmem, -, rfl⟩
      rcases List.mem_append.mp hmem with hmem | hmem
      · exact absurd (List.mem_map.mpr ⟨_, hmem, rfl⟩) hnew
      · cases List.mem_singleton.mp hmem
        rw [hsize]
        rfl

/-- What a legal message leaves recorded, by the kinds of messages. -/
theorem recorded_step [LE α] {orders : List (ι × Resting σ α)}
    {msgs : List (Message ι σ α)} {m : Message ι σ α} {l : Ledger ι σ α}
    (hl : Recorded orders msgs l) (hm : Legal l m) :
    Recorded orders (msgs ++ [m]) (l.step m) := by
  cases m with
  | opened id order => exact recorded_opened hl hm
  | closed id side =>
    obtain ⟨o, ho, -⟩ := hm
    exact recorded_closed hl (hl.mem_of_resting ho)
  | changed id side size =>
    obtain ⟨o, ho, -⟩ := hm
    refine recorded_resize hl (fun _ _ h => (nomatch h)) (fun _ _ h => (nomatch h))
      (hl.mem_of_resting ho) rfl ?_
    show Function.update l.resting id _ = Function.update l.resting id _
    congr 2
    funext o
    exact congrArg o.withSize (if_pos rfl).symm
  | matched maker taker side size =>
    obtain ⟨o, ho, -⟩ := hm
    refine recorded_resize hl (fun _ _ h => (nomatch h)) (fun _ _ h => (nomatch h))
      (hl.mem_of_resting ho) rfl ?_
    show Function.update l.resting maker _ = Function.update l.resting maker _
    congr 2
    funext o
    exact congrArg o.withSize (if_pos rfl).symm

/-- **What a well-formed list records.** -/
theorem recorded [LE α] {orders : List (ι × Resting σ α)} {msgs : List (Message ι σ α)}
    (hnodup : (orders.map Prod.fst).Nodup) (hwf : WellFormed (Ledger.ofList orders) msgs) :
    Recorded orders msgs ((Ledger.ofList orders).after msgs) := by
  refine (exchange ι σ α).history_rule (I := Recorded orders) ?_ ?_ hwf (exchange_run _ _)
  · have hlist : listed orders ([] : List (Message ι σ α)) = orders := List.append_nil _
    refine ⟨?_, ?_, fun m hm => absurd hm List.not_mem_nil, fun id o => ?_⟩
    · rw [hlist]
      exact fun id => Iff.rfl
    · rw [hlist]
      exact hnodup
    · rw [hlist]
      show orders.lookup id = some o ↔ _
      rw [lookup_eq_some_iff hnodup]
      constructor
      · intro h
        exact ⟨o, h, fun side => List.not_mem_nil, rfl⟩
      · rintro ⟨o₀, h, -, rfl⟩
        exact h
  · intro msgs l m l' _ hl hm hstep
    obtain rfl : l.step m = l' := Option.some.inj hstep
    exact recorded_step hl hm

end OrderLedger
