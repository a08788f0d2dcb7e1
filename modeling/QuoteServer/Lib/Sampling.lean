import Mathlib.Data.List.Forall2
import Mathlib.Order.Basic

/-!
# Values seen at increasing points

A system goes through states that are told apart by their *points*: how much of a log was
applied, which version, which instant. Whoever watches it sees some of the states only.
`Sampled R lo hi outs` says that what was seen is in order: the values `outs` are states
at points between `lo` and `hi`, each at a later point than the one before. No value is
older than one seen earlier, and no point is seen twice.

What is lost on the way to an observer does no harm (`Sampled.of_sublist`), and points of
one kind may be exchanged for points of another, as long as they are in the same order
(`Sampled.reindex`).
-/

namespace Sampling

universe u v w

variable {ι : Type u} {κ : Type v} {β : Type w} [Preorder ι] [Preorder κ]

/-- The values `outs` are states at increasing points between `lo` and `hi`, where `R k b`
says that `b` is the state at the point `k`. -/
def Sampled (R : ι → β → Prop) (lo hi : ι) (outs : List β) : Prop :=
  ∃ points : List ι, points.Pairwise (· < ·) ∧ (∀ k ∈ points, lo ≤ k ∧ k ≤ hi) ∧
    List.Forall₂ R points outs

variable {R : ι → β → Prop} {lo hi : ι} {outs : List β}

/-- Nothing was seen yet. -/
theorem sampled_nil (R : ι → β → Prop) (lo hi : ι) : Sampled R lo hi [] :=
  ⟨[], .nil, fun _ h => absurd h List.not_mem_nil, .nil⟩

/-- One more value is seen, at a later point. -/
theorem Sampled.concat {k : ι} {b : β} (h : Sampled R lo hi outs) (hlo : lo ≤ k) (hk : hi < k)
    (hb : R k b) : Sampled R lo k (outs ++ [b]) := by
  obtain ⟨points, hincreasing, hwithin, hseen⟩ := h
  refine ⟨points ++ [k], ?_, fun j hj => ?_, ?_⟩
  · refine List.pairwise_append.mpr ⟨hincreasing, List.pairwise_singleton _ _, ?_⟩
    intro j hj j' hj'
    rw [List.mem_singleton.mp hj']
    exact lt_of_le_of_lt (hwithin j hj).2 hk
  · rcases List.mem_append.mp hj with hj | hj
    · exact ⟨(hwithin j hj).1, le_of_lt (lt_of_le_of_lt (hwithin j hj).2 hk)⟩
    · rw [List.mem_singleton.mp hj]
      exact ⟨hlo, le_refl k⟩
  · exact List.rel_append hseen (.cons hb .nil)

/-- The last point may be any later one. -/
theorem Sampled.extend {hi' : ι} (h : Sampled R lo hi outs) (hle : hi ≤ hi') :
    Sampled R lo hi' outs := by
  obtain ⟨points, hincreasing, hwithin, hseen⟩ := h
  exact ⟨points, hincreasing, fun k hk => ⟨(hwithin k hk).1, le_trans (hwithin k hk).2 hle⟩, hseen⟩

/-- What is said of the states may be weakened. -/
theorem Sampled.imp {R' : ι → β → Prop} (h : Sampled R lo hi outs)
    (himp : ∀ k b, lo ≤ k → k ≤ hi → R k b → R' k b) : Sampled R' lo hi outs := by
  obtain ⟨points, hincreasing, hwithin, hseen⟩ := h
  refine ⟨points, hincreasing, hwithin, ?_⟩
  clear hincreasing
  induction hseen with
  | nil => exact .nil
  | @cons k b points outs hk _ ih =>
    obtain ⟨hlo, hhi⟩ := hwithin k List.mem_cons_self
    exact .cons (himp k b hlo hhi hk) (ih fun i hi => hwithin i (List.mem_cons_of_mem _ hi))

/-- **What is lost does no harm**: any part of the values, in their order, is sampled. -/
theorem Sampled.of_sublist {outs' : List β} (h : Sampled R lo hi outs)
    (hsub : outs'.Sublist outs) : Sampled R lo hi outs' := by
  obtain ⟨points, hincreasing, hwithin, hseen⟩ := h
  have hpart : ∃ points' : List ι, points'.Sublist points ∧ List.Forall₂ R points' outs' := by
    clear hincreasing hwithin
    induction hsub generalizing points with
    | slnil =>
      cases hseen
      exact ⟨[], List.Sublist.slnil, .nil⟩
    | cons b _ ih =>
      cases hseen with
      | cons _ hrest =>
        obtain ⟨points', hpoints', hseen'⟩ := ih _ hrest
        exact ⟨points', hpoints'.cons _, hseen'⟩
    | cons_cons b _ ih =>
      cases hseen with
      | cons hb hrest =>
        obtain ⟨points', hpoints', hseen'⟩ := ih _ hrest
        exact ⟨_ :: points', hpoints'.cons_cons _, .cons hb hseen'⟩
  obtain ⟨points', hpoints', hseen'⟩ := hpart
  exact ⟨points', hincreasing.sublist hpoints', fun k hk => hwithin k (hpoints'.subset hk), hseen'⟩

omit [Preorder ι] [Preorder κ] in
/-- Every element on the right has a partner on the left. -/
theorem exists_mem_of_right {T : ι → κ → Prop} {points : List ι} {points' : List κ} {j : κ}
    (h : List.Forall₂ T points points') (hj : j ∈ points') : ∃ k ∈ points, T k j := by
  induction h with
  | nil => exact absurd hj List.not_mem_nil
  | @cons k j' points points' hk _ ih =>
    rcases List.mem_cons.mp hj with rfl | hj
    · exact ⟨k, List.mem_cons_self, hk⟩
    · obtain ⟨i, hi, hT⟩ := ih hj
      exact ⟨i, List.mem_cons_of_mem _ hi, hT⟩

/-- **Other points in the same order.** `T k j` says that `j` is a point of the other kind
for `k`. If every point between `lo` and `hi` has one, in order, and the states at both
are the same, then values sampled at the one kind are sampled at the other. -/
theorem Sampled.reindex {R' : κ → β → Prop} {lo' hi' : κ} {T : ι → κ → Prop}
    (h : Sampled R lo hi outs)
    (hsome : ∀ k, lo ≤ k → k ≤ hi → ∃ j, T k j ∧ lo' ≤ j ∧ j ≤ hi')
    (hmono : ∀ k k' j j', lo ≤ k → k' ≤ hi → T k j → T k' j' → k < k' → j < j')
    (hstate : ∀ k j b, lo ≤ k → k ≤ hi → T k j → R k b → R' j b) :
    Sampled R' lo' hi' outs := by
  obtain ⟨points, hincreasing, hwithin, hseen⟩ := h
  -- point by point, each with a point of the other kind
  have hpoints : ∃ points' : List κ, List.Forall₂ T points points' ∧
      (∀ j ∈ points', lo' ≤ j ∧ j ≤ hi') ∧ List.Forall₂ R' points' outs := by
    clear hincreasing
    induction hseen with
    | nil => exact ⟨[], .nil, fun _ h => absurd h List.not_mem_nil, .nil⟩
    | @cons k b points outs hk _ ih =>
      obtain ⟨hlo, hhi⟩ := hwithin k List.mem_cons_self
      obtain ⟨j, hj, hlo', hhi'⟩ := hsome k hlo hhi
      obtain ⟨points', hT, hwithin', hseen'⟩ :=
        ih fun i hi => hwithin i (List.mem_cons_of_mem _ hi)
      refine ⟨j :: points', .cons hj hT, fun i hi => ?_, .cons (hstate k j b hlo hhi hj hk) hseen'⟩
      rcases List.mem_cons.mp hi with rfl | hi
      · exact ⟨hlo', hhi'⟩
      · exact hwithin' i hi
  obtain ⟨points', hT, hwithin', hseen'⟩ := hpoints
  refine ⟨points', ?_, hwithin', hseen'⟩
  clear hseen hseen' hwithin'
  induction hT with
  | nil => exact .nil
  | @cons k j points points' hj hrest ih =>
    obtain ⟨hfirst, hincreasing⟩ := List.pairwise_cons.mp hincreasing
    refine List.pairwise_cons.mpr ⟨fun j' hj' => ?_, ?_⟩
    · obtain ⟨k', hk', hT'⟩ := exists_mem_of_right hrest hj'
      exact hmono k k' j j' (hwithin k List.mem_cons_self).1
        (hwithin k' (List.mem_cons_of_mem _ hk')).2 hj hT' (hfirst k' hk')
    · exact ih hincreasing fun i hi => hwithin i (List.mem_cons_of_mem _ hi)

end Sampling
