import QuoteServer.Lib.Machine

/-!
# One member of a system

A system of many members is one machine. What one member is to it is a *projection*: a
view of the state, and a label for each event that concerns the member. Events without a
label leave the view as it is, and the others do to the view what the member's own
machine does with their labels. So whatever the other members do, the view is that of the
member's machine over the labels alone (`run_trace`), and runs that agree on the labels
end in the same view (`view_eq`).
-/

namespace EventMachine

universe u v w x

variable {σ : Type u} {ε : Type v} {ν : Type w} {α : Type x}

/-- The machine `N` is what `M` is to one of its members. `Inv` may be any invariant. -/
structure Projection (M : Machine σ ε) (N : Machine ν α) where
  view : σ → ν
  label : σ → ε → Option α
  Inv : σ → Prop
  kept : ∀ s e s', Inv s → M.step s e = some s' → Inv s'
  /-- An event without a label is invisible. -/
  hidden : ∀ s e s', Inv s → M.step s e = some s' → label s e = none → view s' = view s
  /-- An event with a label is a step of the member. -/
  shown : ∀ s e s' a, Inv s → M.step s e = some s' → label s e = some a →
    N.step (view s) a = some (view s')

namespace Projection

variable {M : Machine σ ε} {N : Machine ν α} (P : Projection M N)

/-- The labels along a run. -/
def trace (s : σ) : List ε → List α
  | [] => []
  | e :: es => (P.label s e).toList ++ (M.step s e).elim [] fun s' => trace s' es

theorem trace_cons {s s' : σ} {e : ε} (es : List ε) (h : M.step s e = some s') :
    P.trace s (e :: es) = (P.label s e).toList ++ P.trace s' es := by
  rw [trace, h]
  rfl

/-- A run and its labels, step by step. -/
theorem traces_cons {s s₁ : σ} {e : ε} {es : List ε} {l : Option α} {ls : List α}
    (hstep : M.step s e = some s₁) (hlabel : P.label s e = l)
    (hrest : ∃ s', M.run s₁ es = some s' ∧ P.trace s₁ es = ls) :
    ∃ s', M.run s (e :: es) = some s' ∧ P.trace s (e :: es) = l.toList ++ ls := by
  obtain ⟨s', hrun, htrace⟩ := hrest
  refine ⟨s', ?_, ?_⟩
  · rw [Machine.run_cons, hstep]
    exact hrun
  · rw [P.trace_cons es hstep, hlabel, htrace]

/-- **A run of the system is a run of the member** over its labels. -/
theorem run_trace {s s' : σ} {es : List ε} (hs : P.Inv s) (hrun : M.run s es = some s') :
    N.run (P.view s) (P.trace s es) = some (P.view s') := by
  induction es generalizing s with
  | nil =>
    cases hrun
    rfl
  | cons e es ih =>
    obtain ⟨t, hstep, hrest⟩ := Option.bind_eq_some_iff.mp hrun
    have hmember := ih (P.kept s e t hs hstep) hrest
    rw [P.trace_cons es hstep]
    cases hlabel : P.label s e with
    | none =>
      rw [P.hidden s e t hs hstep hlabel] at hmember
      exact hmember
    | some a =>
      refine Option.bind_eq_some_iff.mpr ⟨P.view t, ?_, hmember⟩
      exact P.shown s e t a hs hstep hlabel

/-- **Runs that agree on a member's labels** end in the same view of it. -/
theorem view_eq {s₀ t₀ s t : σ} {es fs : List ε} (hs₀ : P.Inv s₀) (ht₀ : P.Inv t₀)
    (hview : P.view s₀ = P.view t₀) (hs : M.run s₀ es = some s) (ht : M.run t₀ fs = some t)
    (hagree : P.trace s₀ es = P.trace t₀ fs) : P.view s = P.view t := by
  have hes := P.run_trace hs₀ hs
  have hfs := P.run_trace ht₀ ht
  rw [hview, hagree, hfs] at hes
  exact (Option.some.inj hes).symm

end Projection

end EventMachine
