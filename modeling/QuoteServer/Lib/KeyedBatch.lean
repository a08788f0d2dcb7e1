import Mathlib.Data.List.Nodup
import Mathlib.Data.List.Perm.Basic
import Mathlib.Data.List.TakeWhile

/-!
# Visiting a batch of keyed elements

A hash multimap is filled with a batch of keyed elements and then visited once. All
that is known of the order is that elements with equal keys are visited one right
after the other (`Visits`); their order among each other is the container's choice.

- `Grouped.split`: the elements of one key are one block of the visit.
- `exists_visits`: every order of the elements of one key is the order of some visit.
- `exists_stable`: all keys may keep the order in which their elements came.
- `Blocks`: the blocks that a loop over the visit has left behind, `Blocks.close` the
  next one.
- `visit`, `isGrouped`: a visit as the outcome of choices, to run it.
- `OrderInsensitive`: a fold over the elements that no order changes.
-/

namespace KeyedBatch

universe u v w

variable {α : Type u} {κ : Type v} {β : Type w} [DecidableEq κ]

/-- The elements with the key `k`, in order. -/
def forKey (key : α → κ) (k : κ) (l : List α) : List α := l.filter fun a => key a = k

/-- Elements with equal keys stand together. -/
def Grouped (key : α → κ) (l : List α) : Prop :=
  ∀ k, ∃ pre post, l = pre ++ forKey key k l ++ post

/-- `it` is an order in which a multimap that holds `batch` may be visited. -/
structure Visits (key : α → κ) (batch it : List α) : Prop where
  perm : it.Perm batch
  grouped : Grouped key it

variable {key : α → κ} {k : κ}

theorem forKey_append (l l' : List α) :
    forKey key k (l ++ l') = forKey key k l ++ forKey key k l' := List.filter_append ..

theorem forKey_cons_self {a : α} (l : List α) (h : key a = k) :
    forKey key k (a :: l) = a :: forKey key k l :=
  List.filter_cons_of_pos (by simpa using h)

theorem forKey_cons_ne {a : α} (l : List α) (h : key a ≠ k) :
    forKey key k (a :: l) = forKey key k l :=
  List.filter_cons_of_neg (by simpa using h)

theorem mem_forKey {a : α} {l : List α} : a ∈ forKey key k l ↔ a ∈ l ∧ key a = k := by
  simp [forKey]

theorem forKey_eq_nil {l : List α} : forKey key k l = [] ↔ ∀ a ∈ l, key a ≠ k := by
  simp [forKey]

theorem forKey_eq_self {l : List α} : forKey key k l = l ↔ ∀ a ∈ l, key a = k := by
  simp [forKey]

theorem forKey_idem (l : List α) : forKey key k (forKey key k l) = forKey key k l :=
  forKey_eq_self.mpr fun _ ha => (mem_forKey.mp ha).2

theorem forKey_perm {l l' : List α} (h : l.Perm l') :
    (forKey key k l).Perm (forKey key k l') := h.filter _

/-- Lists with the same elements of each key, in whatever order the keys are mixed, have
the same elements. -/
theorem perm_of_forKey {l l' : List α} (h : ∀ k, forKey key k l = forKey key k l') :
    l.Perm l' := by
  classical
  refine List.perm_iff_count.mpr fun a => ?_
  have hown : ∀ m : List α, (forKey key (key a) m).count a = m.count a := fun m =>
    List.count_filter (by simp)
  rw [← hown l, ← hown l', h (key a)]

/-- In a grouped list the elements of one key are one block, with no other around it. -/
theorem Grouped.split {l : List α} (h : Grouped key l) (k : κ) :
    ∃ pre post, l = pre ++ forKey key k l ++ post ∧
      (∀ a ∈ pre, key a ≠ k) ∧ ∀ a ∈ post, key a ≠ k := by
  obtain ⟨pre, post, heq⟩ := h k
  -- the block has all the elements of the key, so by counting there are none around it
  have hlen : (forKey key k l).length = (forKey key k (pre ++ forKey key k l ++ post)).length :=
    congrArg (fun l => (forKey key k l).length) heq
  rw [forKey_append, forKey_append, forKey_idem, List.length_append,
    List.length_append] at hlen
  have hpre : forKey key k pre = [] := List.length_eq_zero_iff.mp (by omega)
  have hpost : forKey key k post = [] := List.length_eq_zero_iff.mp (by omega)
  exact ⟨pre, post, heq, forKey_eq_nil.mp hpre, forKey_eq_nil.mp hpost⟩

/-- The block of the first element stands at the front. -/
theorem Grouped.cons_own {a : α} {l : List α} (h : Grouped key (a :: l)) :
    ∃ post, l = forKey key (key a) l ++ post ∧ ∀ b ∈ post, key b ≠ key a := by
  obtain ⟨pre, post, heq, hpre, hpost⟩ := h.split (key a)
  rw [forKey_cons_self l rfl] at heq
  cases pre with
  | nil => exact ⟨post, (List.cons.inj heq).2, hpost⟩
  | cons b pre =>
    obtain ⟨rfl, -⟩ := List.cons.inj heq
    exact absurd rfl (hpre _ List.mem_cons_self)

/-- The rest of a grouped list is grouped. -/
theorem Grouped.tail {a : α} {l : List α} (h : Grouped key (a :: l)) : Grouped key l := by
  intro k
  by_cases hk : key a = k
  · subst hk
    obtain ⟨post, heq, -⟩ := h.cons_own
    exact ⟨[], post, heq⟩
  · obtain ⟨pre, post, heq, -, -⟩ := h.split k
    rw [forKey_cons_ne l hk] at heq
    cases pre with
    | cons b pre => exact ⟨pre, post, (List.cons.inj heq).2⟩
    | nil =>
      -- `a` would be the first element of the block, so the block is empty
      cases hblock : forKey key k l with
      | nil => exact ⟨[], l, rfl⟩
      | cons b block =>
        rw [hblock] at heq
        obtain ⟨rfl, -⟩ := List.cons.inj heq
        exact absurd (mem_forKey.mp (hblock ▸ List.mem_cons_self)).2 hk

/-- A block of one key in front of a grouped list without that key. -/
theorem Grouped.append_block {block l : List α} (hl : Grouped key l)
    (hblock : ∀ a ∈ block, key a = k) (hnone : ∀ a ∈ l, key a ≠ k) :
    Grouped key (block ++ l) := by
  intro q
  by_cases hq : q = k
  · subst hq
    refine ⟨[], l, ?_⟩
    rw [forKey_append, forKey_eq_self.mpr hblock, forKey_eq_nil.mpr hnone, List.append_nil,
      List.nil_append]
  · obtain ⟨pre, post, heq⟩ := hl q
    have hother : forKey key q block = [] := by
      refine forKey_eq_nil.mpr fun a ha h => hq ?_
      rw [← h, hblock a ha]
    refine ⟨block ++ pre, post, ?_⟩
    rw [forKey_append, hother, List.nil_append, List.append_assoc, List.append_assoc,
      ← List.append_assoc pre, ← heq]

/-- Every batch can be visited in the order in which the elements of each key came. -/
theorem exists_stable (key : α → κ) (batch : List α) :
    ∃ it, Visits key batch it ∧ ∀ k, forKey key k it = forKey key k batch := by
  induction hn : batch.length using Nat.strongRecOn generalizing batch with
  | ind n ih =>
    cases batch with
    | nil => exact ⟨[], ⟨.refl _, fun k => ⟨[], [], rfl⟩⟩, fun k => rfl⟩
    | cons a rest =>
      -- the elements with the key of the first one, then a visit of the others
      let others := (a :: rest).filter fun b => ¬ key b = key a
      have hlt : others.length < n := by
        rw [← hn]
        refine List.length_filter_lt_length_iff_exists.mpr ⟨a, List.mem_cons_self, ?_⟩
        simp
      obtain ⟨it, hit, hstable⟩ := ih _ hlt others rfl
      have hnone : ∀ b ∈ it, key b ≠ key a := by
        intro b hb
        have hmem := (hit.perm.mem_iff).mp hb
        simpa [others] using (List.mem_filter.mp hmem).2
      refine ⟨forKey key (key a) (a :: rest) ++ it, ⟨?_, ?_⟩, fun k => ?_⟩
      · refine (hit.perm.append_left _).trans ?_
        have hperm := List.filter_append_perm (fun b => decide (key b = key a)) (a :: rest)
        simpa [forKey, others] using hperm
      · exact hit.grouped.append_block (fun b hb => (mem_forKey.mp hb).2) hnone
      · rw [forKey_append]
        by_cases hk : k = key a
        · subst hk
          rw [forKey_idem, forKey_eq_nil.mpr hnone, List.append_nil]
        · have hblock : forKey key k (forKey key (key a) (a :: rest)) = [] :=
            forKey_eq_nil.mpr fun b hb h => hk (h.symm.trans (mem_forKey.mp hb).2)
          rw [hblock, List.nil_append, hstable]
          unfold forKey
          rw [List.filter_filter]
          refine List.filter_congr fun b _ => ?_
          by_cases hb : key b = k
          · simp [hb, hk]
          · simp [hb]

/-- Every batch can be visited. -/
theorem exists_grouped (key : α → κ) (batch : List α) : ∃ it, Visits key batch it :=
  (exists_stable key batch).imp fun _ h => h.1

/-- The elements of one key may be visited in any order. -/
theorem exists_visits {batch chosen : List α}
    (h : chosen.Perm (forKey key k batch)) :
    ∃ it, Visits key batch it ∧ forKey key k it = chosen := by
  obtain ⟨it, hit⟩ := exists_grouped key (batch.filter fun b => ¬ key b = k)
  have hchosen : ∀ a ∈ chosen, key a = k := fun a ha => (mem_forKey.mp (h.mem_iff.mp ha)).2
  have hnone : ∀ b ∈ it, key b ≠ k := by
    intro b hb
    simpa using (List.mem_filter.mp ((hit.perm.mem_iff).mp hb)).2
  refine ⟨chosen ++ it, ⟨?_, hit.grouped.append_block hchosen hnone⟩, ?_⟩
  · refine (h.append hit.perm).trans ?_
    have hperm := List.filter_append_perm (fun b => decide (key b = k)) batch
    simpa [forKey] using hperm
  · rw [forKey_append, forKey_eq_self.mpr hchosen, forKey_eq_nil.mpr hnone, List.append_nil]

/-! ## Leaving behind one block after the other -/

/-- What follows some elements of a grouped list is grouped. -/
theorem Grouped.append_right {l l' : List α} (h : Grouped key (l ++ l')) : Grouped key l' := by
  induction l with
  | nil => exact h
  | cons a l ih => exact ih h.tail

/-- A block is over with the first element of another key: there is none of its own
behind. -/
theorem Grouped.block_ends {block post : List α} (h : Grouped key (block ++ post))
    (hne : block ≠ []) (hblock : ∀ a ∈ block, key a = k)
    (hhead : ∀ a ∈ post.head?, key a ≠ k) : ∀ a ∈ post, key a ≠ k := by
  -- the block from its last element on
  rw [← List.dropLast_append_getLast hne, List.append_assoc, List.singleton_append] at h
  obtain ⟨others, hpost, hothers⟩ := h.append_right.cons_own
  rw [hblock _ (List.getLast_mem hne)] at hpost hothers
  rw [← forKey_eq_nil]
  cases hown : forKey key k post with
  | nil => rfl
  | cons a own =>
    have hfirst : post.head? = some a := by
      rw [hpost, hown]
      rfl
    have ha : key a = k := (mem_forKey.mp (hown ▸ List.mem_cons_self)).2
    exact absurd ha (hhead a hfirst)

/-- Of the list `it`, the blocks were left behind, each with its key, and `rest` is still
to come. -/
structure Blocks (key : α → κ) (it : List α) (blocks : List (κ × List α)) (rest : List α) :
    Prop where
  flat : it = blocks.flatMap Prod.snd ++ rest
  once : (blocks.map Prod.fst).Nodup
  whole : ∀ b ∈ blocks, b.2 = forKey key b.1 it ∧ b.2 ≠ []
  separate : ∀ a ∈ rest, key a ∉ blocks.map Prod.fst

theorem Blocks.nil (it : List α) : Blocks key it [] it where
  flat := rfl
  once := List.nodup_nil
  whole := fun _ h => absurd h List.not_mem_nil
  separate := fun _ _ h => absurd h List.not_mem_nil

/-- The next block is left behind. -/
theorem Blocks.close {it block post : List α} {blocks : List (κ × List α)}
    (h : Blocks key it blocks (block ++ post)) (hit : Grouped key it) (hne : block ≠ [])
    (hblock : ∀ a ∈ block, key a = k) (hhead : ∀ a ∈ post.head?, key a ≠ k) :
    Blocks key it (blocks ++ [(k, block)]) post := by
  have hgrouped : Grouped key (block ++ post) := (h.flat ▸ hit).append_right
  have hpost := hgrouped.block_ends hne hblock hhead
  have hnew : k ∉ blocks.map Prod.fst := by
    obtain ⟨a, ha⟩ := List.exists_mem_of_ne_nil block hne
    rw [← hblock a ha]
    exact h.separate a (List.mem_append_left _ ha)
  refine ⟨?_, ?_, ?_, ?_⟩
  · rw [List.flatMap_append, List.append_assoc, h.flat]
    simp
  · rw [List.map_append]
    exact List.Nodup.append h.once (List.nodup_singleton _) (List.disjoint_singleton.mpr hnew)
  · intro b hb
    rcases List.mem_append.mp hb with hb | hb
    · exact h.whole b hb
    · rw [List.mem_singleton.mp hb]
      refine ⟨?_, hne⟩
      -- the key is in none of the blocks before and not in what follows
      have hbefore : forKey key k (blocks.flatMap Prod.snd) = [] := by
        refine forKey_eq_nil.mpr fun a ha hk => ?_
        obtain ⟨b', hb', hmem⟩ := List.mem_flatMap.mp ha
        rw [(h.whole b' hb').1] at hmem
        refine hnew (List.mem_map.mpr ⟨b', hb', ?_⟩)
        rw [← (mem_forKey.mp hmem).2, hk]
      dsimp only
      rw [h.flat, forKey_append, forKey_append, hbefore, forKey_eq_self.mpr hblock,
        forKey_eq_nil.mpr hpost, List.nil_append, List.append_nil]
  · intro a ha
    rw [List.map_append, List.mem_append, List.map_singleton, List.mem_singleton]
    rintro (hmem | heq)
    · exact h.separate a (List.mem_append_right _ ha) hmem
    · exact hpost a ha heq

/-- Once nothing is to come, every element is in the block of its key. -/
theorem Blocks.mem_of_mem {it : List α} {blocks : List (κ × List α)}
    (h : Blocks key it blocks []) {a : α} (ha : a ∈ it) : key a ∈ blocks.map Prod.fst := by
  rw [h.flat, List.append_nil] at ha
  obtain ⟨b, hb, hmem⟩ := List.mem_flatMap.mp ha
  rw [(h.whole b hb).1] at hmem
  exact List.mem_map.mpr ⟨b, hb, (mem_forKey.mp hmem).2.symm⟩

/-! ## Choosing a visit -/

/-- The list in the order of the picks: each pick takes one of the elements that are
left, by its position. `none` unless the picks take every element. -/
def visit : List Nat → List α → Option (List α)
  | [], [] => some []
  | [], _ :: _ => none
  | i :: picks, l =>
    match l[i]? with
    | some a => (visit picks (l.eraseIdx i)).map (a :: ·)
    | none => none

/-- Whether no element follows a block of its key later on. -/
def isGrouped (key : α → κ) (l : List α) : Bool :=
  l.all fun a => ((l.dropWhile fun b => key b ≠ key a).dropWhile fun b => key b = key a).all
    fun b => key b ≠ key a

theorem visit_perm {picks : List Nat} {l it : List α} (h : visit picks l = some it) :
    it.Perm l := by
  induction picks generalizing l it with
  | nil =>
    cases l with
    | nil =>
      cases h
      exact .refl _
    | cons a l => cases h
  | cons i picks ih =>
    unfold visit at h
    cases ha : l[i]? with
    | none =>
      rw [ha] at h
      cases h
    | some a =>
      rw [ha] at h
      obtain ⟨rest, hrest, rfl⟩ := Option.map_eq_some_iff.mp h
      obtain ⟨hlt, rfl⟩ := List.getElem?_eq_some_iff.mp ha
      exact ((ih hrest).cons _).trans (List.getElem_cons_eraseIdx_perm hlt)

theorem grouped_of_isGrouped {l : List α} (h : isGrouped key l = true) : Grouped key l := by
  intro k
  by_cases hk : ∀ a ∈ l, key a ≠ k
  · -- no element has the key, so its block is empty
    refine ⟨l, [], ?_⟩
    rw [forKey_eq_nil.mpr hk, List.append_nil, List.append_nil]
  · obtain ⟨a, ha, rfl⟩ : ∃ a ∈ l, key a = k := by simpa using hk
    have hlate := List.all_eq_true.mp h a ha
    -- before the block, the block, and what follows it
    let pre := l.takeWhile fun b => key b ≠ key a
    let rest := l.dropWhile fun b => key b ≠ key a
    let block := rest.takeWhile fun b => key b = key a
    let post := rest.dropWhile fun b => key b = key a
    have hl : l = pre ++ (block ++ post) := by
      rw [List.takeWhile_append_dropWhile, List.takeWhile_append_dropWhile]
    have hpre : ∀ b ∈ pre, key b ≠ key a := by
      intro b hb
      simpa using List.mem_takeWhile_imp hb
    have hblock : ∀ b ∈ block, key b = key a := by
      intro b hb
      simpa using List.mem_takeWhile_imp hb
    have hpost : ∀ b ∈ post, key b ≠ key a := by
      intro b hb
      simpa using List.all_eq_true.mp hlate b hb
    have hkey : forKey key (key a) l = block := by
      rw [hl, forKey_append, forKey_append, forKey_eq_nil.mpr hpre, forKey_eq_self.mpr hblock,
        forKey_eq_nil.mpr hpost, List.append_nil, List.nil_append]
    exact ⟨pre, post, by rw [hkey, List.append_assoc]; exact hl⟩

/-- Every order of a list is that of some picks. -/
theorem exists_picks {l it : List α} (h : it.Perm l) : ∃ picks, visit picks l = some it := by
  induction it generalizing l with
  | nil =>
    rw [h.symm.eq_nil]
    exact ⟨[], rfl⟩
  | cons a it ih =>
    obtain ⟨i, hi, ha⟩ := List.getElem_of_mem (h.mem_iff.mp List.mem_cons_self)
    have hrest : it.Perm (l.eraseIdx i) := by
      refine List.Perm.cons_inv (h.trans ?_)
      rw [← ha]
      exact (List.getElem_cons_eraseIdx_perm hi).symm
    obtain ⟨picks, hpicks⟩ := ih hrest
    refine ⟨i :: picks, ?_⟩
    unfold visit
    rw [List.getElem?_eq_getElem hi, ha]
    dsimp only
    rw [hpicks]
    rfl

theorem isGrouped_of_grouped {l : List α} (h : Grouped key l) : isGrouped key l = true := by
  refine List.all_eq_true.mpr fun a ha => List.all_eq_true.mpr fun c hc => ?_
  obtain ⟨pre, post, heq, hpre, hpost⟩ := h.split (key a)
  have hblock : ∀ b ∈ forKey key (key a) l, key b = key a := fun b hb => (mem_forKey.mp hb).2
  -- what is before the block is skipped, then the block itself
  have hskip : l.dropWhile (fun b => key b ≠ key a) = forKey key (key a) l ++ post := by
    conv_lhs => rw [heq, List.append_assoc]
    rw [List.dropWhile_append_of_pos fun b hb => by simpa using hpre b hb]
    cases hfirst : forKey key (key a) l with
    | nil => exact absurd rfl (forKey_eq_nil.mp hfirst a ha)
    | cons b block =>
      rw [hfirst] at hblock
      exact List.dropWhile_cons_of_neg (by simpa using hblock b List.mem_cons_self)
  rw [hskip, List.dropWhile_append_of_pos fun b hb => by simpa using hblock b hb] at hc
  simpa using hpost c ((List.dropWhile_suffix _).mem hc)

theorem visits_of_visit {picks : List Nat} {batch it : List α}
    (h : visit picks batch = some it) (hg : isGrouped key it = true) :
    Visits key batch it := ⟨visit_perm h, grouped_of_isGrouped hg⟩

/-! ## When the order does not matter -/

/-- Folding the list gives the same from `b` in every order. -/
def OrderInsensitive (f : β → α → β) (b : β) (l : List α) : Prop :=
  ∀ l' : List α, l'.Perm l → l'.foldl f b = l.foldl f b

/-- A list of one element, however often, has only one order. -/
theorem orderInsensitive_of_subsingleton (f : β → α → β) (b : β) {l : List α}
    (h : ∀ x ∈ l, ∀ y ∈ l, x = y) : OrderInsensitive f b l := by
  intro l' hperm
  cases l with
  | nil => rw [List.perm_nil.mp hperm]
  | cons a rest =>
    have hrep : a :: rest = List.replicate (a :: rest).length a :=
      List.eq_replicate_iff.mpr ⟨rfl, fun x hx => h x hx a List.mem_cons_self⟩
    rw [hrep] at hperm ⊢
    rw [List.perm_replicate.mp hperm]

end KeyedBatch
