import Mathlib.Data.Set.Insert
import Mathlib.Logic.Function.Basic

/-!
# Threads, mutexes and circular waits

A *lock program* says for each thread at which points it can stand, which mutexes it
holds at a point, which ones it is about to lock there (all at once), and which thread
it is about to join. A state places every thread at a point and records who holds each
mutex; `move` is the only way to change it.

- `Consistent`, `consistent_move`: the record agrees with the points, so a mutex has
  one holder.
- `WaitsFor`: a thread waits for the holder of a mutex, or for the end of a thread.
- `Stuck`: some threads wait for each other, and none of them can ever go on: a mutex
  they wait for cannot be locked (`move_eq_none`), and while they stay where they are they
  stay stuck (`IsStuck.of_stays`).
- `not_stuck_of_rank`: if every wait goes up in rank, nothing is stuck.
-/

namespace LockOrder

universe u v w

/-- The points of each thread, and what it holds and waits for there. -/
structure LockProgram (τ : Type u) (μ : Type v) where
  Point : τ → Type w
  /-- The mutexes held. -/
  held : (t : τ) → Point t → List μ
  /-- The mutexes the thread is about to lock. -/
  wants : (t : τ) → Point t → List μ
  /-- The thread it is about to join. -/
  joins : (t : τ) → Point t → Option τ
  /-- The thread is not running. -/
  ended : (t : τ) → Point t → Bool

variable {τ : Type u} {μ : Type v}

structure LockState (P : LockProgram.{u, v, w} τ μ) where
  point : (t : τ) → P.Point t
  holder : μ → Option τ

namespace LockState

variable {P : LockProgram.{u, v, w} τ μ}

/-- A thread goes on to another point: it locks what it holds there and not yet, which
must be free, and unlocks what it holds no more. -/
def move [DecidableEq τ] [DecidableEq μ] (s : LockState P) (t : τ) (q : P.Point t) :
    Option (LockState P) :=
  if ∀ m ∈ P.held t q, m ∈ P.held t (s.point t) ∨ s.holder m = none then
    some {
      point := Function.update s.point t q
      holder := fun m =>
        if m ∈ P.held t q then some t
        else if m ∈ P.held t (s.point t) then none
        else s.holder m }
  else none

/-- A mutex is held by the thread that stands where it holds it. -/
def Consistent (s : LockState P) : Prop :=
  ∀ m t, s.holder m = some t ↔ m ∈ P.held t (s.point t)

/-- `t` waits for `u`. -/
inductive WaitsFor (s : LockState P) (t u : τ) : Prop where
  | mutex (m : μ) (hwants : m ∈ P.wants t (s.point t)) (hholder : s.holder m = some u)
  | join (hjoins : P.joins t (s.point t) = some u) (hruns : P.ended u (s.point u) = false)

/-- The threads of the set wait for each other. -/
structure IsStuck (s : LockState P) (threads : Set τ) : Prop where
  nonempty : threads.Nonempty
  waits : ∀ t ∈ threads, ∃ u ∈ threads, s.WaitsFor t u

def Stuck (s : LockState P) : Prop := ∃ threads, s.IsStuck threads

/-! ## Moves -/

section

variable [DecidableEq τ] [DecidableEq μ] {s s' : LockState P} {t : τ} {q : P.Point t}

theorem move_point (h : s.move t q = some s') : s'.point = Function.update s.point t q := by
  unfold move at h
  split at h
  · cases h
    rfl
  · cases h

theorem move_self (h : s.move t q = some s') : s'.point t = q := by
  rw [move_point h]
  exact Function.update_self ..

theorem move_ne (h : s.move t q = some s') {u : τ} (hu : u ≠ t) : s'.point u = s.point u := by
  rw [move_point h]
  exact Function.update_of_ne hu ..

/-- What a thread locks in a move was free. -/
theorem move_free (h : s.move t q = some s') {m : μ} (hm : m ∈ P.held t q)
    (hnew : m ∉ P.held t (s.point t)) : s.holder m = none := by
  unfold move at h
  split at h
  · next hfree => exact (hfree m hm).resolve_left hnew
  · cases h

/-- A mutex that has a holder cannot be locked. -/
theorem move_eq_none {m : μ} {u : τ} (hm : m ∈ P.held t q)
    (hnew : m ∉ P.held t (s.point t)) (hholder : s.holder m = some u) : s.move t q = none := by
  cases h : s.move t q with
  | none => rfl
  | some s' =>
    rw [move_free h hm hnew] at hholder
    cases hholder

theorem consistent_move (hs : s.Consistent) (h : s.move t q = some s') : s'.Consistent := by
  intro m u
  have hfree : m ∈ P.held t q → m ∉ P.held t (s.point t) → s.holder m = none := move_free h
  unfold move at h
  split at h
  · cases h
    dsimp only
    by_cases hu : u = t
    · subst hu
      rw [Function.update_self]
      by_cases hq : m ∈ P.held u q
      · rw [if_pos hq]
        exact iff_of_true rfl hq
      · rw [if_neg hq]
        refine iff_of_false ?_ hq
        by_cases hold : m ∈ P.held u (s.point u)
        · rw [if_pos hold]
          exact fun h => nomatch h
        · rw [if_neg hold]
          exact fun h => hold ((hs m u).mp h)
    · rw [Function.update_of_ne hu]
      by_cases hq : m ∈ P.held t q
      · -- `t` holds it now, so `u` did not hold it
        rw [if_pos hq]
        refine iff_of_false (fun h => hu (Option.some.inj h).symm) fun hm => ?_
        have hholder := (hs m u).mpr hm
        by_cases hold : m ∈ P.held t (s.point t)
        · rw [(hs m t).mpr hold] at hholder
          exact hu (Option.some.inj hholder).symm
        · rw [hfree hq hold] at hholder
          cases hholder
      · rw [if_neg hq]
        by_cases hold : m ∈ P.held t (s.point t)
        · rw [if_pos hold]
          refine iff_of_false (fun h => nomatch h) fun hm => ?_
          have hholder := (hs m u).mpr hm
          rw [(hs m t).mpr hold] at hholder
          exact hu (Option.some.inj hholder).symm
        · rw [if_neg hold]
          exact hs m u
  · cases h

end

/-- A mutex has one holder. -/
theorem Consistent.unique {s : LockState P} (hs : s.Consistent) {m : μ} {t u : τ}
    (ht : m ∈ P.held t (s.point t)) (hu : m ∈ P.held u (s.point u)) : t = u :=
  Option.some.inj (((hs m t).mpr ht).symm.trans ((hs m u).mpr hu))

/-- Where the record agrees with the points, waiting is a matter of the points. -/
theorem WaitsFor.held {s : LockState P} (hs : s.Consistent) {t u : τ} (h : s.WaitsFor t u) :
    (∃ m, m ∈ P.wants t (s.point t) ∧ m ∈ P.held u (s.point u)) ∨
      (P.joins t (s.point t) = some u ∧ P.ended u (s.point u) = false) := by
  cases h with
  | mutex m hwants hholder => exact .inl ⟨m, hwants, (hs m u).mp hholder⟩
  | join hjoins hruns => exact .inr ⟨hjoins, hruns⟩

/-- Threads that wait for each other do so as long as they stay where they are, whatever
the others do. -/
theorem IsStuck.of_stays {s s' : LockState P} {threads : Set τ} (h : s.IsStuck threads)
    (hs : s.Consistent) (hs' : s'.Consistent)
    (hstays : ∀ t ∈ threads, s'.point t = s.point t) : s'.IsStuck threads := by
  refine ⟨h.nonempty, fun t ht => ?_⟩
  obtain ⟨u, hu, hwaits⟩ := h.waits t ht
  refine ⟨u, hu, ?_⟩
  rcases hwaits.held hs with ⟨m, hwants, hheld⟩ | ⟨hjoins, hruns⟩
  · refine .mutex m ?_ ((hs' m u).mpr ?_)
    · rw [hstays t ht]
      exact hwants
    · rw [hstays u hu]
      exact hheld
  · refine .join ?_ ?_
    · rw [hstays t ht]
      exact hjoins
    · rw [hstays u hu]
      exact hruns

/-! ## Ranks -/

/-- **Waits that go up in rank, up to a bound, leave nothing stuck.** -/
theorem not_stuck_of_rank {s : LockState P} (rank : τ → ℕ) (bound : ℕ)
    (hbound : ∀ t, rank t ≤ bound) (hrank : ∀ t u, s.WaitsFor t u → rank t < rank u) :
    ¬ s.Stuck := by
  rintro ⟨threads, ⟨t, ht⟩, hwaits⟩
  -- climbing from `t`, the rank would exceed any number
  have hclimb : ∀ n, ∃ u ∈ threads, n ≤ rank u := by
    intro n
    induction n with
    | zero => exact ⟨t, ht, Nat.zero_le _⟩
    | succ n ih =>
      obtain ⟨u, hu, hn⟩ := ih
      obtain ⟨v, hv, huv⟩ := hwaits u hu
      have hlt := hrank u v huv
      exact ⟨v, hv, by omega⟩
  obtain ⟨u, -, hu⟩ := hclimb (bound + 1)
  have hle := hbound u
  omega

/-- Two threads that wait for each other are stuck. -/
theorem stuck_of_two {s : LockState P} {t u : τ} (htu : s.WaitsFor t u) (hut : s.WaitsFor u t) :
    s.Stuck := by
  refine ⟨{t, u}, ⟨t, Set.mem_insert t {u}⟩, fun v hv => ?_⟩
  rcases hv with rfl | rfl
  · exact ⟨u, Set.mem_insert_of_mem v rfl, htu⟩
  · exact ⟨t, Set.mem_insert t {v}, hut⟩

end LockState

end LockOrder
