import Mathlib.Data.List.Chain

/-!
# Streams numbered from a mark

A stream is a list of *marks* and *entries*, each with a number. A mark says from
which number on the entries after it count: it has no hole if the entries
between a mark `n` and the next mark carry exactly `n + 1`, `n + 2`, …, and it
increases if they carry larger and larger numbers, all above `n`.

- `NoHole`, `Increasing`: these properties, read off the list.
- `Linked`: a check that walks the list, remembers the last number seen and compares
  each entry with it, with its laws for concatenation. `Unbroken` is its instance for
  consecutive numbers.
- `noHole_iff_unbroken`, `increasing_iff_linked`: the check decides the property.
- `largest_eq_lastSeen`: in an increasing stream the last number is the largest.
-/

namespace NumberedStream

/-- An element of a numbered stream. -/
inductive Item where
  | mark (n : Nat)
  | entry (n : Nat)
  deriving DecidableEq, Repr

/-- After every mark `n`, the entries up to the next mark carry exactly the
numbers `n + 1`, `n + 2`, …. -/
def NoHole (items : List Item) : Prop :=
  ∀ (pre : List Item) (n : Nat) (ks : List Nat) (post : List Item),
    items = pre ++ .mark n :: (ks.map .entry ++ post) →
      ks = List.range' (n + 1) ks.length

/-- After every mark `n`, the entries up to the next mark carry increasing numbers, all
above `n`. -/
def Increasing (items : List Item) : Prop :=
  ∀ (pre : List Item) (n : Nat) (ks : List Nat) (post : List Item),
    items = pre ++ .mark n :: (ks.map .entry ++ post) → (n :: ks).Pairwise (· < ·)

/-- The numbers `n + 1`, `n + 2`, …, one after the other. -/
def Follows : Nat → List Nat → Prop
  | _, [] => True
  | n, k :: ks => k = n + 1 ∧ Follows k ks

/-- The entries follow the last number seen; before the first mark nothing is
asked. -/
def Unbroken : Option Nat → List Item → Prop
  | _, [] => True
  | _, .mark n :: items => Unbroken (some n) items
  | none, .entry _ :: items => Unbroken none items
  | some n, .entry k :: items => k = n + 1 ∧ Unbroken (some k) items

/-- Each entry is in relation with the last number before it; before the first mark
nothing is asked. -/
def Linked (R : Nat → Nat → Prop) : Option Nat → List Item → Prop
  | _, [] => True
  | _, .mark n :: items => Linked R (some n) items
  | none, .entry _ :: items => Linked R none items
  | some n, .entry k :: items => R n k ∧ Linked R (some k) items

/-- The last number seen, from the first mark on. -/
def lastSeen : Option Nat → List Item → Option Nat
  | last, [] => last
  | _, .mark n :: items => lastSeen (some n) items
  | none, .entry _ :: items => lastSeen none items
  | some _, .entry k :: items => lastSeen (some k) items

/-- The largest number since the last mark, the mark's own included. -/
def largest : Option Nat → List Item → Option Nat
  | last, [] => last
  | _, .mark n :: items => largest (some n) items
  | none, .entry _ :: items => largest none items
  | some n, .entry k :: items => largest (some (max n k)) items

theorem follows_iff_range' {n : Nat} {ks : List Nat} :
    Follows n ks ↔ ks = List.range' (n + 1) ks.length := by
  induction ks generalizing n with
  | nil => exact ⟨fun _ => rfl, fun _ => trivial⟩
  | cons k ks ih =>
    rw [List.length_cons, List.range'_succ, List.cons.injEq]
    constructor
    · rintro ⟨rfl, h⟩
      exact ⟨rfl, ih.mp h⟩
    · rintro ⟨rfl, h⟩
      exact ⟨rfl, ih.mpr h⟩

theorem lastSeen_append (last : Option Nat) (xs ys : List Item) :
    lastSeen last (xs ++ ys) = lastSeen (lastSeen last xs) ys := by
  induction xs generalizing last with
  | nil => rfl
  | cons x xs ih =>
    cases x with
    | mark n => exact ih _
    | entry k =>
      cases last with
      | none => exact ih _
      | some n => exact ih _

/-- After an entry that follows a mark, the entry's number is the last one. -/
theorem lastSeen_concat (n k : Nat) (items : List Item) :
    lastSeen (some n) (items ++ [.entry k]) = some k := by
  induction items generalizing n with
  | nil => rfl
  | cons x items ih =>
    cases x with
    | mark m => exact ih m
    | entry m => exact ih m

/-! ## Linked streams -/

section

variable {R : Nat → Nat → Prop}

/-- A concatenation is linked when both parts are, the second from where the first one
ends. -/
theorem linked_append {last : Option Nat} {xs ys : List Item} :
    Linked R last (xs ++ ys) ↔ Linked R last xs ∧ Linked R (lastSeen last xs) ys := by
  induction xs generalizing last with
  | nil => exact ⟨fun h => ⟨trivial, h⟩, fun h => h.2⟩
  | cons x xs ih =>
    cases x with
    | mark n => exact ih
    | entry k =>
      cases last with
      | none => exact ih
      | some n =>
        show (R n k ∧ Linked R (some k) (xs ++ ys)) ↔
          (R n k ∧ Linked R (some k) xs) ∧ Linked R (lastSeen (some k) xs) ys
        rw [ih, and_assoc]

/-- A run of entries is linked exactly when its numbers are a chain from the last one. -/
theorem linked_entries {n : Nat} {ks : List Nat} :
    Linked R (some n) (ks.map .entry) ↔ List.IsChain R (n :: ks) := by
  induction ks generalizing n with
  | nil => exact ⟨fun _ => .singleton n, fun _ => trivial⟩
  | cons k ks ih =>
    rw [List.isChain_cons_cons, ← ih]
    exact Iff.rfl

end

/-- Being unbroken is being linked by the successor. -/
theorem unbroken_iff_linked {last : Option Nat} {items : List Item} :
    Unbroken last items ↔ Linked (fun n k => k = n + 1) last items := by
  induction items generalizing last with
  | nil => exact Iff.rfl
  | cons x items ih =>
    cases x with
    | mark n => exact ih
    | entry k =>
      cases last with
      | none => exact ih
      | some n =>
        show (k = n + 1 ∧ Unbroken (some k) items) ↔
          k = n + 1 ∧ Linked (fun n k => k = n + 1) (some k) items
        rw [ih]

theorem isChain_iff_follows {n : Nat} {ks : List Nat} :
    List.IsChain (fun n k => k = n + 1) (n :: ks) ↔ Follows n ks := by
  induction ks generalizing n with
  | nil => exact ⟨fun _ => trivial, fun _ => .singleton n⟩
  | cons k ks ih =>
    rw [List.isChain_cons_cons, ih]
    exact Iff.rfl

theorem lastSeen_entries (n : Nat) (ks : List Nat) :
    lastSeen (some n) (ks.map .entry) = some (ks.getLastD n) := by
  induction ks generalizing n with
  | nil => rfl
  | cons k ks ih =>
    rw [List.getLastD_cons]
    exact ih k

/-- In a stream that is linked from its start, the numbers after a mark are a chain. -/
theorem isChain_of_linked {R : Nat → Nat → Prop} {pre post : List Item} {n : Nat}
    {ks : List Nat} (h : Linked R none (pre ++ .mark n :: (ks.map .entry ++ post))) :
    List.IsChain R (n :: ks) := by
  have hmark : Linked R (some n) (ks.map .entry ++ post) := (linked_append.mp h).2
  exact linked_entries.mp (linked_append.mp hmark).1

section

variable {R : Nat → Nat → Prop} {all : List Item}

/-- If the numbers after every mark are a chain, the rest of the stream is linked, from
wherever it is cut after a mark. -/
theorem linked_after_mark
    (h : ∀ (pre : List Item) (n : Nat) (ks : List Nat) (post : List Item),
      all = pre ++ .mark n :: (ks.map .entry ++ post) → List.IsChain R (n :: ks))
    {pre items : List Item} {n : Nat} {ks : List Nat}
    (hall : all = pre ++ .mark n :: (ks.map .entry ++ items)) :
    Linked R (some (ks.getLastD n)) items := by
  induction items generalizing pre n ks with
  | nil => trivial
  | cons x items ih =>
    cases x with
    | mark k =>
      -- the next run of entries begins here
      have hnext : all = (pre ++ .mark n :: ks.map .entry) ++
          .mark k :: (([] : List Nat).map .entry ++ items) := by
        rw [hall, List.append_assoc, List.cons_append]
        rfl
      exact ih hnext
    | entry k =>
      have hlonger : all = pre ++ .mark n :: ((ks ++ [k]).map .entry ++ items) := by
        rw [hall, List.map_append, List.append_assoc]
        rfl
      have hchain := linked_entries.mpr (h pre n (ks ++ [k]) items hlonger)
      rw [List.map_append, linked_append, lastSeen_entries] at hchain
      have hrest := ih hlonger
      rw [List.getLastD_concat] at hrest
      exact ⟨hchain.2.1, hrest⟩

/-- A stream is linked from its start exactly if the numbers after every mark are a chain. -/
theorem linked_iff_chains :
    Linked R none all ↔ ∀ (pre : List Item) (n : Nat) (ks : List Nat) (post : List Item),
      all = pre ++ .mark n :: (ks.map .entry ++ post) → List.IsChain R (n :: ks) := by
  constructor
  · rintro h pre n ks post rfl
    exact isChain_of_linked h
  · intro h
    -- before the first mark nothing is asked
    suffices hcut : ∀ items pre, all = pre ++ items → Linked R none items from hcut all [] rfl
    intro items
    induction items with
    | nil => exact fun _ _ => trivial
    | cons x items ih =>
      intro pre hall
      cases x with
      | mark n =>
        have hmark : all = pre ++ .mark n :: (([] : List Nat).map .entry ++ items) := hall
        exact linked_after_mark h hmark
      | entry k => exact ih (pre ++ [.entry k]) (by rw [hall, List.append_assoc]; rfl)

end

/-- A stream has no hole exactly if it is unbroken from its start. -/
theorem noHole_iff_unbroken {items : List Item} : NoHole items ↔ Unbroken none items := by
  rw [unbroken_iff_linked, linked_iff_chains]
  refine forall₄_congr fun pre n ks post => imp_congr_right fun _ => ?_
  rw [isChain_iff_follows, follows_iff_range']

/-- A stream increases exactly if it is linked by `<` from its start. -/
theorem increasing_iff_linked {items : List Item} :
    Increasing items ↔ Linked (· < ·) none items := by
  rw [linked_iff_chains]
  refine forall₄_congr fun pre n ks post => imp_congr_right fun _ => ?_
  rw [List.isChain_iff_pairwise]

/-- In a stream linked by `<` the last number is the largest since the last mark. -/
theorem largest_eq_lastSeen {last : Option Nat} {items : List Item}
    (h : Linked (· < ·) last items) : largest last items = lastSeen last items := by
  induction items generalizing last with
  | nil => rfl
  | cons x items ih =>
    cases x with
    | mark n => exact ih h
    | entry k =>
      cases last with
      | none => exact ih h
      | some n =>
        obtain ⟨hlt, hrest⟩ := h
        show largest (some (max n k)) items = lastSeen (some k) items
        rw [Nat.max_eq_right (Nat.le_of_lt hlt)]
        exact ih hrest

end NumberedStream
