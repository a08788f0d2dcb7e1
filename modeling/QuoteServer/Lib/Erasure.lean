import QuoteServer.Lib.Machine

/-!
# Events that make no difference

Take a run and leave some of its events out. Whether that makes a difference to the
others is a question about two runs of one machine. An *erasure* answers it step by step:
a relation between the state of the full run and that of the run without the erased
events, such that an erased event keeps it by itself and any other event can happen in
both states, looks the same in both and keeps it. Then the run without the erased events
goes through and looks the same (`Erasure.run_without`), as far as the steps meet the
condition `G`.
-/

namespace EventMachine

universe u v w

variable {σ : Type u} {ε : Type v} {ω : Type w}

namespace Machine

variable (M : Machine σ ε)

/-- The events of a run that are left when those that `erased` picks, in the state where
they happen, are left out. -/
def without (erased : σ → ε → Bool) (s : σ) : List ε → List ε
  | [] => []
  | e :: es =>
    (if erased s e then [] else [e]) ++
      (M.step s e).elim [] fun s' => without erased s' es

/-- What is seen of a run: the observations of its steps, in order. -/
def observed (obs : σ → ε → σ → List ω) (s : σ) : List ε → List ω
  | [] => []
  | e :: es => (M.step s e).elim [] fun s' => obs s e s' ++ observed obs s' es

variable {M}

theorem without_cons_erased {erased : σ → ε → Bool} {s s' : σ} {e : ε} (es : List ε)
    (he : erased s e = true) (h : M.step s e = some s') :
    M.without erased s (e :: es) = M.without erased s' es := by
  rw [without, if_pos he, h]
  rfl

theorem without_cons_kept {erased : σ → ε → Bool} {s s' : σ} {e : ε} (es : List ε)
    (he : erased s e = false) (h : M.step s e = some s') :
    M.without erased s (e :: es) = e :: M.without erased s' es := by
  rw [without, he, if_neg Bool.false_ne_true, h]
  rfl

theorem observed_cons {obs : σ → ε → σ → List ω} {s s' : σ} {e : ε} (es : List ε)
    (h : M.step s e = some s') :
    M.observed obs s (e :: es) = obs s e s' ++ M.observed obs s' es := by
  rw [observed, h]
  rfl

end Machine

/-- Some events of `M` make no difference to the others, in steps that meet `G`. -/
structure Erasure (M : Machine σ ε) (G : σ → ε → Prop) (obs : σ → ε → σ → List ω) where
  erased : σ → ε → Bool
  /-- Between a state of the full run and one of the run without the erased events. -/
  Rel : σ → σ → Prop
  hidden : ∀ s t e s', Rel s t → G s e → erased s e = true → M.step s e = some s' →
    Rel s' t ∧ obs s e s' = []
  shown : ∀ s t e s', Rel s t → G s e → erased s e = false → M.step s e = some s' →
    ∃ t', M.step t e = some t' ∧ Rel s' t' ∧ obs t e t' = obs s e s'

/-- **The run without the erased events** goes through and looks the same. -/
theorem Erasure.run_without {M : Machine σ ε} {G : σ → ε → Prop} {obs : σ → ε → σ → List ω}
    (E : Erasure M G obs) {s t s' : σ} {es : List ε} (hrel : E.Rel s t) (hg : M.Guarded G s es)
    (hrun : M.run s es = some s') :
    ∃ t', M.run t (M.without E.erased s es) = some t' ∧ E.Rel s' t' ∧
      M.observed obs t (M.without E.erased s es) = M.observed obs s es := by
  induction es generalizing s t with
  | nil =>
    cases hrun
    exact ⟨t, rfl, hrel, rfl⟩
  | cons e es ih =>
    obtain ⟨s₁, hstep, hrest⟩ := Option.bind_eq_some_iff.mp hrun
    have he : G s e := hg [] e es s rfl rfl
    have hsingle : M.run s [e] = some s₁ := Option.bind_eq_some_iff.mpr ⟨s₁, hstep, rfl⟩
    have hg₁ : M.Guarded G s₁ es := M.guarded_append_right hg hsingle
    rw [Machine.observed_cons es hstep]
    cases herased : E.erased s e with
    | true =>
      obtain ⟨hrel₁, hobs⟩ := E.hidden s t e s₁ hrel he herased hstep
      rw [Machine.without_cons_erased es herased hstep, hobs, List.nil_append]
      exact ih hrel₁ hg₁ hrest
    | false =>
      obtain ⟨t₁, htstep, hrel₁, hobs⟩ := E.shown s t e s₁ hrel he herased hstep
      obtain ⟨t', htrun, hrel', hsame⟩ := ih hrel₁ hg₁ hrest
      rw [Machine.without_cons_kept es herased hstep, Machine.observed_cons _ htstep, hobs, hsame]
      exact ⟨t', Option.bind_eq_some_iff.mpr ⟨t₁, htstep, htrun⟩, hrel', rfl⟩

end EventMachine
