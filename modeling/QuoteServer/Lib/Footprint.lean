import Mathlib.Data.Set.Basic
import Mathlib.Logic.Relation

/-!
# Operations that touch parts of a state

A state has a part for each key. An operation touches the parts of some keys, its
*footprint*: it leaves every other part as it is, and what it makes of its own parts
depends on these alone. Two operations whose footprints are disjoint can be swapped.

- `Operations`: operations with their footprints, and these two laws.
- `same_apply_swap`: disjoint operations give the same parts in either order.
- `Reordered`: lists that differ by swaps of disjoint neighbours.
- `same_of_reordered`: such lists give the same parts.
-/

namespace Footprint

universe u v w x

variable {σ : Type u} {ε : Type v} {κ : Type w} {ν : Type x}

/-- Operations `ε` on states `σ` with a part `ν` for each key. -/
structure Operations (σ : Type u) (ε : Type v) (κ : Type w) (ν : Type x) where
  apply : σ → ε → σ
  part : σ → κ → ν
  footprint : ε → Set κ
  /-- An operation leaves the parts outside its footprint. -/
  frame : ∀ s e k, k ∉ footprint e → part (apply s e) k = part s k
  /-- What it makes of the parts inside depends on these alone. -/
  reads : ∀ s t e, (∀ k ∈ footprint e, part s k = part t k) →
    ∀ k ∈ footprint e, part (apply s e) k = part (apply t e) k

namespace Operations

variable (O : Operations σ ε κ ν)

/-- The operations of a list, one after the other. -/
def run (s : σ) (es : List ε) : σ := es.foldl O.apply s

/-- Two states with the same parts. -/
def Same (s t : σ) : Prop := ∀ k, O.part s k = O.part t k

/-- Two operations that touch no common part. -/
def Independent (e f : ε) : Prop := ∀ k ∈ O.footprint e, k ∉ O.footprint f

/-- The second list is the first with two independent neighbours swapped. -/
inductive Swap : List ε → List ε → Prop where
  | swap (pre : List ε) {e f : ε} (post : List ε) (h : O.Independent e f) :
    Swap (pre ++ e :: f :: post) (pre ++ f :: e :: post)

/-- The second list comes from the first by such swaps. -/
def Reordered : List ε → List ε → Prop := Relation.ReflTransGen O.Swap

variable {O} {s t : σ} {e f : ε} {es fs : List ε}

theorem run_append (s : σ) (es fs : List ε) :
    O.run s (es ++ fs) = O.run (O.run s es) fs := List.foldl_append

/-- Operations respect having the same parts. -/
theorem same_apply (h : O.Same s t) (e : ε) : O.Same (O.apply s e) (O.apply t e) := by
  intro k
  by_cases hk : k ∈ O.footprint e
  · exact O.reads s t e (fun k _ => h k) k hk
  · rw [O.frame s e k hk, O.frame t e k hk]
    exact h k

theorem same_run (h : O.Same s t) (es : List ε) : O.Same (O.run s es) (O.run t es) := by
  induction es generalizing s t with
  | nil => exact h
  | cons e es ih => exact ih (same_apply h e)

theorem Independent.symm (h : O.Independent e f) : O.Independent f e :=
  fun k hf he => h k he hf

/-- A part of `e` is the same whether the independent `f` comes before or after `e`. -/
theorem part_apply_swap (h : O.Independent e f) (s : σ) {k : κ} (hk : k ∈ O.footprint e) :
    O.part (O.apply (O.apply s e) f) k = O.part (O.apply (O.apply s f) e) k := by
  rw [O.frame _ f k (h k hk)]
  exact O.reads _ _ e (fun k hk => (O.frame s f k (h k hk)).symm) k hk

/-- **Independent operations can be swapped.** -/
theorem same_apply_swap (h : O.Independent e f) (s : σ) :
    O.Same (O.apply (O.apply s e) f) (O.apply (O.apply s f) e) := by
  intro k
  by_cases he : k ∈ O.footprint e
  · exact part_apply_swap h s he
  · by_cases hf : k ∈ O.footprint f
    · exact (part_apply_swap h.symm s hf).symm
    · -- neither of them touches the part
      rw [O.frame _ f k hf, O.frame _ e k he, O.frame _ e k he, O.frame _ f k hf]

theorem same_of_swap (h : O.Swap es fs) (s : σ) : O.Same (O.run s es) (O.run s fs) := by
  cases h with
  | swap pre post hind =>
    rw [run_append, run_append]
    exact same_run (same_apply_swap hind _) post

/-- **Lists that differ by swaps of independent neighbours give the same parts.** -/
theorem same_of_reordered (h : O.Reordered es fs) (s : σ) :
    O.Same (O.run s es) (O.run s fs) := by
  induction h with
  | refl => exact fun _ => rfl
  | tail _ hswap ih => exact fun k => (ih k).trans (same_of_swap hswap s k)

end Operations

end Footprint
