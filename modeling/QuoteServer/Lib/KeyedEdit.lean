import Mathlib.Data.List.ChainOfFn
import Mathlib.Data.List.Nodup

/-!
# Edits of a list that concern one key

A list of keyed elements is changed at one key: the list loses at most one element with
the key (`Removal`), or at most one element with the key is replaced by one with the
same key in the same place (`Replacement`). Either keeps distinct keys distinct and
leaves everything else where it is.

- `filter_eq`: the elements of other keys are the same, in the same order.
- `nodup`: distinct keys stay distinct.
- `Removal.same`, `Replacement.related`: what becomes of the element with a given key.
- `removal_eraseP`, `replacement_replaceF`: erasing and replacing by first match.
-/

namespace KeyedEdit

universe u v

variable {α : Type u} {κ : Type v}

/-- The list loses at most one element, and one with the key `k`. -/
inductive Removal (key : α → κ) (k : κ) : List α → List α → Prop where
  | none (l : List α) : Removal key k l l
  | one (pre : List α) {a : α} (post : List α) (ha : key a = k) :
    Removal key k (pre ++ a :: post) (pre ++ post)

/-- At most one element is replaced, one with the key `k`, by another with the same key
that is related to it. -/
inductive Replacement (key : α → κ) (R : α → α → Prop) (k : κ) : List α → List α → Prop where
  | none (l : List α) : Replacement key R k l l
  | one (pre : List α) {a b : α} (post : List α) (ha : key a = k) (hb : key b = k)
    (hR : R a b) : Replacement key R k (pre ++ a :: post) (pre ++ b :: post)

variable {key : α → κ} {R : α → α → Prop} {k : κ} {l l' : List α}

/-! ## The other keys -/

/-- A test that no element with the key passes picks the same elements, in the same
order. -/
theorem Removal.filter_eq (h : Removal key k l l') {p : α → Bool}
    (hp : ∀ a, key a = k → p a = false) : l'.filter p = l.filter p := by
  cases h with
  | none => rfl
  | one pre post ha =>
    rw [List.filter_append, List.filter_append, List.filter_cons_of_neg]
    rw [hp _ ha]
    exact Bool.false_ne_true

theorem Replacement.filter_eq (h : Replacement key R k l l') {p : α → Bool}
    (hp : ∀ a, key a = k → p a = false) : l'.filter p = l.filter p := by
  have hskip : ∀ {a : α} (pre post : List α), key a = k →
      (pre ++ a :: post).filter p = pre.filter p ++ post.filter p := by
    intro a pre post ha
    rw [List.filter_append, List.filter_cons_of_neg]
    rw [hp a ha]
    exact Bool.false_ne_true
  cases h with
  | none => rfl
  | one pre post ha hb hR => rw [hskip pre post ha, hskip pre post hb]

/-- So does appending an element with the key. -/
theorem filter_concat_eq {a : α} (l : List α) (ha : key a = k) {p : α → Bool}
    (hp : ∀ a, key a = k → p a = false) : (l ++ [a]).filter p = l.filter p := by
  rw [List.filter_append, List.filter_cons_of_neg, List.filter_nil, List.append_nil]
  rw [hp a ha]
  exact Bool.false_ne_true

/-! ## Distinct keys -/

theorem Removal.sublist (h : Removal key k l l') : l'.Sublist l := by
  cases h with
  | none => exact .refl _
  | one pre post ha => exact (List.sublist_cons_self _ post).append_left pre

theorem Replacement.keys_eq (h : Replacement key R k l l') : l'.map key = l.map key := by
  cases h with
  | none => rfl
  | one pre post ha hb hR =>
    rw [List.map_append, List.map_append, List.map_cons, List.map_cons, ha, hb]

theorem Removal.nodup (h : Removal key k l l') (hn : (l.map key).Nodup) :
    (l'.map key).Nodup :=
  hn.sublist (h.sublist.map key)

theorem Replacement.nodup (h : Replacement key R k l l') (hn : (l.map key).Nodup) :
    (l'.map key).Nodup := by
  rw [h.keys_eq]
  exact hn

/-- An element with a new key may be appended. -/
theorem nodup_concat {a : α} (hn : (l.map key).Nodup) (ha : key a ∉ l.map key) :
    ((l ++ [a]).map key).Nodup := by
  rw [List.map_append]
  exact List.Nodup.append hn (List.nodup_singleton _) (List.disjoint_singleton.mpr ha)

/-! ## The element with a given key -/

theorem Removal.same (h : Removal key k l l') (hn : (l.map key).Nodup) {a b : α}
    (ha : a ∈ l) (hb : b ∈ l') (hkey : key b = key a) : b = a :=
  List.inj_on_of_nodup_map hn (h.sublist.subset hb) ha hkey

theorem Replacement.related (h : Replacement key R k l l') (hrefl : ∀ a, R a a)
    (hn : (l.map key).Nodup) {a b : α} (ha : a ∈ l) (hb : b ∈ l') (hkey : key b = key a) :
    R a b := by
  cases h with
  | none =>
    rw [List.inj_on_of_nodup_map hn hb ha hkey]
    exact hrefl a
  | one pre post hold hnew hR =>
    rename_i old new
    have hmem : old ∈ pre ++ old :: post := List.mem_append_right _ List.mem_cons_self
    by_cases hb' : b = new
    · -- the two are the replaced element and its replacement
      subst hb'
      have hold' : key a = key old := hkey.symm.trans (hnew.trans hold.symm)
      rw [List.inj_on_of_nodup_map hn ha hmem hold']
      exact hR
    · have hold' : b ∈ pre ++ old :: post := by
        rcases List.mem_append.mp hb with hb | hb
        · exact List.mem_append_left _ hb
        · refine List.mem_append_right _ (List.mem_cons_of_mem _ ?_)
          exact (List.mem_cons.mp hb).resolve_left hb'
      rw [List.inj_on_of_nodup_map hn hold' ha hkey]
      exact hrefl a

/-! ## By first match -/

theorem removal_eraseP {p : α → Bool} (hp : ∀ a, p a = true → key a = k) (l : List α) :
    Removal key k l (l.eraseP p) := by
  rcases List.exists_or_eq_self_of_eraseP p l with heq | ⟨a, pre, post, -, ha, hl, heq⟩
  · rw [heq]
    exact .none l
  · rw [heq, hl]
    exact .one pre post (hp a ha)

theorem replacement_replaceF {f : α → Option α}
    (hf : ∀ a b, f a = some b → key a = k ∧ key b = k ∧ R a b) (l : List α) :
    Replacement key R k l (l.replaceF f) := by
  rcases List.exists_or_eq_self_of_replaceF f l with heq | ⟨a, b, pre, post, -, hab, hl, heq⟩
  · rw [heq]
    exact .none l
  · obtain ⟨ha, hb, hR⟩ := hf a b hab
    rw [heq, hl]
    exact .one pre post ha hb hR

end KeyedEdit
