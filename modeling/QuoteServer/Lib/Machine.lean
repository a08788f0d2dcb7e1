import Mathlib.Data.List.Induction

/-!
# Event-driven machines and their runs

A *machine* is a partial step function: `step s e = none` says that event `e`
cannot happen in state `s`. Everything a scheduler, a network or another party
decides is carried by the event, so one state and one list of events have at
most one outcome and a run can be evaluated on concrete events.

- `run`: the state after a list of events, if every one of them can happen.
- `Guarded G`: every step of the run meets the condition `G` (on the state
  before the step and the event).
- `Always P`: every state of the run meets `P`.
- `history_rule`: the induction principle every whole-run result rests on.
  The invariant may speak of the *history* (the events so far), and each step
  may use the guard.
- `CanReach G`: some guarded run leads from one state to another.
-/

namespace EventMachine

universe u v

variable {σ : Type u} {ε : Type v}

/-- Where a list is cut that got one more element: at this element, or before it. -/
theorem concat_eq_cut {ε : Type v} {es pre post : List ε} {e d : ε}
    (h : es ++ [e] = pre ++ d :: post) :
    (es = pre ∧ e = d) ∨ ∃ post', es = pre ++ d :: post' := by
  rcases List.eq_nil_or_concat post with rfl | ⟨post', last, rfl⟩
  · obtain ⟨hpre, hlast⟩ := List.append_inj' h rfl
    exact .inl ⟨hpre, (List.cons.inj hlast).1⟩
  · have hcut : es ++ [e] = (pre ++ d :: post') ++ [last] := by
      rw [h, List.concat_eq_append, List.append_assoc]
      rfl
    exact .inr ⟨post', (List.append_inj' hcut rfl).1⟩

/-- A machine: what each event does to a state, `none` where it cannot happen. -/
structure Machine (σ : Type u) (ε : Type v) where
  step : σ → ε → Option σ

namespace Machine

variable (M : Machine σ ε)

/-- The state after a list of events. -/
def run (s : σ) : List ε → Option σ
  | [] => some s
  | e :: es => (M.step s e).bind fun s' => run s' es

theorem run_cons (s : σ) (e : ε) (es : List ε) :
    M.run s (e :: es) = (M.step s e).bind fun s' => M.run s' es := rfl

/-- A run over a concatenation runs the two parts one after the other. -/
theorem run_append (s : σ) (es fs : List ε) :
    M.run s (es ++ fs) = (M.run s es).bind fun s' => M.run s' fs := by
  induction es generalizing s with
  | nil => rfl
  | cons e es ih =>
    rw [List.cons_append, run_cons, run_cons]
    cases M.step s e with
    | none => rfl
    | some s' => exact ih s'

/-- The last step of a run. -/
theorem run_snoc {s s'' : σ} {es : List ε} {e : ε} :
    M.run s (es ++ [e]) = some s'' ↔
      ∃ s', M.run s es = some s' ∧ M.step s' e = some s'' := by
  rw [run_append]
  cases M.run s es with
  | none => simp
  | some s' =>
    show (M.step s' e).bind some = some s'' ↔ _
    simp

/-- The two parts of a run over a concatenation. -/
theorem run_append_some {s s'' : σ} {es fs : List ε} :
    M.run s (es ++ fs) = some s'' ↔
      ∃ s', M.run s es = some s' ∧ M.run s' fs = some s'' := by
  rw [run_append]
  cases M.run s es with
  | none => simp
  | some s' => simp

/-- Every step of the run from `s` over `es` meets the condition `G`. -/
def Guarded (G : σ → ε → Prop) (s : σ) (es : List ε) : Prop :=
  ∀ (pre : List ε) (e : ε) (post : List ε) (s' : σ),
    es = pre ++ e :: post → M.run s pre = some s' → G s' e

theorem guarded_nil (G : σ → ε → Prop) (s : σ) : M.Guarded G s [] := by
  intro pre e post s' h
  exact absurd h.symm (List.append_ne_nil_of_right_ne_nil pre (List.cons_ne_nil e post))

/-- A run is guarded when its first step and the run after it are. -/
theorem guarded_cons {G : σ → ε → Prop} {s s' : σ} {e : ε} {es : List ε}
    (he : G s e) (hs : M.step s e = some s') (h : M.Guarded G s' es) :
    M.Guarded G s (e :: es) := by
  intro pre d post t hes ht
  -- the step in question is the first one, or one of the run after it
  cases pre with
  | nil =>
    obtain ⟨rfl, rfl⟩ := List.cons.inj hes
    obtain rfl : s = t := Option.some.inj ht
    exact he
  | cons c pre =>
    obtain ⟨rfl, rfl⟩ := List.cons.inj hes
    rw [run_cons, hs] at ht
    exact h pre d post t rfl ht

/-- The last step of a guarded run meets the guard, and so do those before it. -/
theorem guarded_snoc {G : σ → ε → Prop} {s : σ} {es : List ε} {e : ε}
    (h : M.Guarded G s (es ++ [e])) :
    M.Guarded G s es ∧ ∀ s', M.run s es = some s' → G s' e := by
  refine ⟨fun pre d post s' hes hrun => ?_, fun s' hrun => h es e [] s' rfl hrun⟩
  exact h pre d (post ++ [e]) s' (by rw [hes, List.append_assoc]; rfl) hrun

/-- Every suffix of a guarded run is guarded. -/
theorem guarded_append_right {G : σ → ε → Prop} {s s' : σ} {es fs : List ε}
    (h : M.Guarded G s (es ++ fs)) (hrun : M.run s es = some s') :
    M.Guarded G s' fs := by
  intro pre e post t hfs ht
  refine h (es ++ pre) e post t (by rw [hfs, List.append_assoc]) ?_
  exact (M.run_append_some).mpr ⟨s', hrun, ht⟩

/-- A condition on the events alone. -/
theorem guarded_of_mem {G : σ → ε → Prop} {s : σ} {es : List ε} (h : ∀ e ∈ es, ∀ t, G t e) :
    M.Guarded G s es := by
  intro pre e post s' hes _
  exact h e (hes ▸ List.mem_append_right _ List.mem_cons_self) s'

/-- A run is guarded when both of its parts are. -/
theorem guarded_append {G : σ → ε → Prop} {s s' : σ} {es fs : List ε} (h : M.Guarded G s es)
    (hrun : M.run s es = some s') (h' : M.Guarded G s' fs) : M.Guarded G s (es ++ fs) := by
  induction es generalizing s with
  | nil =>
    obtain rfl : s = s' := Option.some.inj hrun
    exact h'
  | cons e es ih =>
    obtain ⟨t, hstep, hrest⟩ := Option.bind_eq_some_iff.mp hrun
    refine M.guarded_cons (h [] e es s rfl rfl) hstep (ih (fun pre d post u hes hu => ?_) hrest)
    refine h (e :: pre) d post u (by rw [hes]; rfl) ?_
    rw [run_cons, hstep]
    exact hu

/-- **The history rule.** What holds of the empty history in the first state and
is kept by every guarded step holds of every history a guarded run produces. -/
theorem history_rule {G : σ → ε → Prop} {I : List ε → σ → Prop} {s₀ : σ}
    (hinit : I [] s₀)
    (hstep : ∀ es s e s', M.run s₀ es = some s → I es s → G s e →
      M.step s e = some s' → I (es ++ [e]) s')
    {es : List ε} {s : σ} (hg : M.Guarded G s₀ es) (hrun : M.run s₀ es = some s) :
    I es s := by
  -- from the end: the guard of a step speaks of the state that the events before it reach
  induction es using List.reverseRecOn generalizing s with
  | nil =>
    obtain rfl : s₀ = s := Option.some.inj hrun
    exact hinit
  | append_singleton es e ih =>
    obtain ⟨s', hpre, hlast⟩ := (M.run_snoc).mp hrun
    obtain ⟨hges, hge⟩ := M.guarded_snoc hg
    exact hstep es s' e s hpre (ih hges hpre) (hge s' hpre) hlast

/-- The history rule for an invariant of the state alone. -/
theorem invariant_rule {G : σ → ε → Prop} {I : σ → Prop} {s₀ : σ}
    (hinit : I s₀)
    (hstep : ∀ s e s', I s → G s e → M.step s e = some s' → I s')
    {es : List ε} {s : σ} (hg : M.Guarded G s₀ es) (hrun : M.run s₀ es = some s) :
    I s :=
  M.history_rule (I := fun _ s => I s) hinit
    (fun _ s e s' _ hinv hge hs => hstep s e s' hinv hge hs) hg hrun

/-- A machine that can go on wherever the guard holds goes through every guarded run. -/
theorem exists_run_of_guarded {G : σ → ε → Prop} {s : σ} {es : List ε}
    (hstep : ∀ s e, G s e → ∃ s', M.step s e = some s') (hg : M.Guarded G s es) :
    ∃ s', M.run s es = some s' := by
  induction es using List.reverseRecOn with
  | nil => exact ⟨s, rfl⟩
  | append_singleton es e ih =>
    obtain ⟨hges, hge⟩ := M.guarded_snoc hg
    obtain ⟨t, ht⟩ := ih hges
    obtain ⟨t', ht'⟩ := hstep t e (hge t ht)
    exact ⟨t', M.run_snoc.mpr ⟨t, ht, ht'⟩⟩

/-- A machine whose steps another one follows, event by event, is followed in whole runs. -/
theorem lift_run {τ : Type u} {δ : Type v} {N : Machine τ δ} {R : σ → τ → Prop} {g : ε → δ}
    (hstep : ∀ {s s' t e}, R s t → M.step s e = some s' → ∃ t', N.step t (g e) = some t' ∧ R s' t')
    {s s' : σ} {t : τ} {es : List ε} (hR : R s t) (hrun : M.run s es = some s') :
    ∃ t', N.run t (es.map g) = some t' ∧ R s' t' := by
  induction es generalizing s t with
  | nil =>
    obtain rfl : s = s' := Option.some.inj hrun
    exact ⟨t, rfl, hR⟩
  | cons e es ih =>
    obtain ⟨u, hs, hrest⟩ := Option.bind_eq_some_iff.mp hrun
    obtain ⟨t₁, ht, hR₁⟩ := hstep hR hs
    obtain ⟨t', hrun', hR'⟩ := ih hR₁ hrest
    exact ⟨t', Option.bind_eq_some_iff.mpr ⟨t₁, ht, hrun'⟩, hR'⟩

/-- Every state of the run from `s` over `es` meets `P`. -/
def Always (P : σ → Prop) (s : σ) (es : List ε) : Prop :=
  ∀ (pre post : List ε) (t : σ), es = pre ++ post → M.run s pre = some t → P t

theorem always_nil {P : σ → Prop} {s : σ} (h : P s) : M.Always P s [] := by
  intro pre post t hes ht
  obtain ⟨rfl, -⟩ := List.append_eq_nil_iff.mp hes.symm
  obtain rfl : s = t := Option.some.inj ht
  exact h

theorem always_cons {P : σ → Prop} {s s' : σ} {e : ε} {es : List ε} (hP : P s)
    (hs : M.step s e = some s') (h : M.Always P s' es) : M.Always P s (e :: es) := by
  intro pre post t hes ht
  cases pre with
  | nil =>
    obtain rfl : s = t := Option.some.inj ht
    exact hP
  | cons c pre =>
    obtain ⟨rfl, rfl⟩ := List.cons.inj hes
    rw [run_cons, hs] at ht
    exact h pre post t rfl ht

/-- What every guarded step keeps always holds. -/
theorem always_rule {G : σ → ε → Prop} {P : σ → Prop} {s₀ : σ} {es : List ε} (hinit : P s₀)
    (hstep : ∀ s e s', P s → G s e → M.step s e = some s' → P s') (hg : M.Guarded G s₀ es) :
    M.Always P s₀ es := by
  rintro pre post t rfl hrun
  refine M.invariant_rule hinit hstep (fun pre' e post' s' hes hs' => ?_) hrun
  exact hg pre' e (post' ++ post) s' (by rw [hes, List.append_assoc]; rfl) hs'

/-- A run in which `P` always holds, step by step. -/
theorem exists_always_cons {P : σ → Prop} {s s' : σ} {e : ε} {es : List ε}
    (hs : M.step s e = some s') (hP : P s) (h : ∃ t, M.run s' es = some t ∧ M.Always P s' es) :
    ∃ t, M.run s (e :: es) = some t ∧ M.Always P s (e :: es) := by
  obtain ⟨t, hrun, halways⟩ := h
  refine ⟨t, ?_, M.always_cons hP hs halways⟩
  rw [run_cons, hs]
  exact hrun

variable {M} in
/-- What always holds in two parts of a run always holds in the whole. -/
theorem Always.append {P : σ → Prop} {s s' : σ} {es fs : List ε} (h : M.Always P s es)
    (hrun : M.run s es = some s') (h' : M.Always P s' fs) : M.Always P s (es ++ fs) := by
  intro pre post t hes ht
  rcases List.append_eq_append_iff.mp hes with ⟨rest, rfl, hfs⟩ | ⟨rest, hes, -⟩
  · obtain ⟨s'', hrun', hrest⟩ := M.run_append_some.mp ht
    obtain rfl : s' = s'' := Option.some.inj (hrun.symm.trans hrun')
    exact h' rest post t hfs hrest
  · exact h pre rest t hes ht

variable {M} in
/-- What holds always holds before the last step. -/
theorem Always.init {P : σ → Prop} {s : σ} {es : List ε} {e : ε}
    (h : M.Always P s (es ++ [e])) : M.Always P s es := by
  intro pre post t hes ht
  exact h pre (post ++ [e]) t (by rw [hes, List.append_assoc]) ht

variable {M} in
/-- What holds always holds in the first part of the run. -/
theorem Always.append_left {P : σ → Prop} {s : σ} {es fs : List ε}
    (h : M.Always P s (es ++ fs)) : M.Always P s es := by
  intro pre post t hes ht
  exact h pre (post ++ fs) t (by rw [hes, List.append_assoc]) ht

variable {M} in
/-- What holds always holds after the last step. -/
theorem Always.last {P : σ → Prop} {s s' s'' : σ} {es : List ε} {e : ε}
    (h : M.Always P s (es ++ [e])) (hrun : M.run s es = some s')
    (hstep : M.step s' e = some s'') : P s'' :=
  h (es ++ [e]) [] s'' (List.append_nil _).symm (M.run_snoc.mpr ⟨s', hrun, hstep⟩)

/-- Some run every step of which meets the condition `G` leads from `s` to `s'`. -/
def CanReach (G : σ → ε → Prop) (s s' : σ) : Prop :=
  ∃ es, M.run s es = some s' ∧ M.Guarded G s es

theorem canReach_refl (G : σ → ε → Prop) (s : σ) : M.CanReach G s s :=
  ⟨[], rfl, M.guarded_nil G s⟩

variable {M} in
theorem CanReach.trans {G : σ → ε → Prop} {s s' s'' : σ} (h : M.CanReach G s s')
    (h' : M.CanReach G s' s'') : M.CanReach G s s'' := by
  obtain ⟨es, hrun, hg⟩ := h
  obtain ⟨fs, hrun', hg'⟩ := h'
  exact ⟨es ++ fs, M.run_append_some.mpr ⟨s', hrun, hrun'⟩, M.guarded_append hg hrun hg'⟩

theorem canReach_of_step {G : σ → ε → Prop} {s s' : σ} {e : ε} (he : G s e)
    (hs : M.step s e = some s') : M.CanReach G s s' := by
  refine ⟨[e], ?_, M.guarded_cons he hs (M.guarded_nil G s')⟩
  rw [run_cons, hs]
  rfl

/-- No condition at all is met by every run. -/
theorem guarded_true (s : σ) (es : List ε) : M.Guarded (fun _ _ => True) s es :=
  fun _ _ _ _ _ _ => trivial

end Machine

end EventMachine
