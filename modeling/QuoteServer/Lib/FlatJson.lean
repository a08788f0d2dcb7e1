import Mathlib.Data.List.Basic

/-!
# The text of flat JSON objects

An object whose members are all strings, as text and read back: `parse_print`. The members
are written in the order of their keys, the first of two with one key only, without blanks.
A quotation mark and a backslash in a string are escaped; other bytes stay as they are,
which for strings without control characters is JSON.
-/

namespace FlatJson

/-- The members of an object. -/
abbrev Members : Type := List (String × String)

/-! ## The order of the members -/

/-- A member takes its place, and that of another with its key. -/
def insertMember (m : String × String) : Members → Members
  | [] => [m]
  | m' :: ms =>
    if m.1 < m'.1 then m :: m' :: ms
    else if m.1 = m'.1 then m :: ms
    else m' :: insertMember m ms

/-- The members by their keys. -/
def sorted (ms : Members) : Members := ms.foldr insertMember []

theorem lookup_cons (m : String × String) (ms : Members) (key : String) :
    (m :: ms).lookup key = if key = m.1 then some m.2 else ms.lookup key := by
  rw [List.lookup_cons]
  by_cases h : key = m.1
  · rw [if_pos h, beq_iff_eq.mpr h]
  · rw [if_neg h, beq_eq_false_iff_ne.mpr h]

theorem lookup_insertMember (m : String × String) (ms : Members) (key : String) :
    (insertMember m ms).lookup key = if key = m.1 then some m.2 else ms.lookup key := by
  induction ms with
  | nil => exact lookup_cons m [] key
  | cons m' ms ih =>
    simp only [insertMember]
    by_cases hlt : m.1 < m'.1
    · rw [if_pos hlt, lookup_cons]
    · rw [if_neg hlt]
      by_cases heq : m.1 = m'.1
      · -- the member that it replaces has the same key
        rw [if_pos heq, lookup_cons, lookup_cons m', heq]
        by_cases hkey : key = m'.1
        · rw [if_pos hkey, if_pos hkey]
        · rw [if_neg hkey, if_neg hkey, if_neg hkey]
      · rw [if_neg heq, lookup_cons, lookup_cons m', ih]
        by_cases hkey : key = m'.1
        · rw [if_pos hkey, if_pos hkey, if_neg fun h => heq (h.symm.trans hkey)]
        · rw [if_neg hkey, if_neg hkey]

/-- Sorting is invisible to whoever looks a member up. -/
theorem lookup_sorted (ms : Members) (key : String) : (sorted ms).lookup key = ms.lookup key := by
  induction ms with
  | nil => rfl
  | cons m ms ih =>
    show (insertMember m (sorted ms)).lookup key = _
    rw [lookup_insertMember, ih, lookup_cons]

/-! ## Strings -/

def escape (b : UInt8) : List UInt8 := if b = 34 ∨ b = 92 then [92, b] else [b]

def quoted (s : String) : List UInt8 := 34 :: (s.toUTF8.data.toList.flatMap escape ++ [34])

/-- What stands before the closing quotation mark, and what comes after it. -/
def unquote : List UInt8 → Option (List UInt8 × List UInt8)
  | [] => none
  | [b] => if b = 34 then some ([], []) else none
  | b :: c :: bs =>
    if b = 34 then some ([], c :: bs)
    else if b = 92 then (unquote bs).map fun r => (c :: r.1, r.2)
    else (unquote (c :: bs)).map fun r => (b :: r.1, r.2)

theorem unquote_close (rest : List UInt8) : unquote (34 :: rest) = some ([], rest) := by
  cases rest <;> rfl

theorem unquote_escape (b : UInt8) (bs : List UInt8) :
    unquote (escape b ++ bs) = (unquote bs).map fun r => (b :: r.1, r.2) := by
  unfold escape
  by_cases h : b = 34 ∨ b = 92
  · rw [if_pos h]
    rfl
  · rw [if_neg h]
    obtain ⟨hquote, hslash⟩ := not_or.mp h
    cases bs with
    | nil =>
      show (if b = 34 then _ else none) = _
      rw [if_neg hquote]
      rfl
    | cons c bs =>
      show (if b = 34 then _ else if b = 92 then _ else _) = _
      rw [if_neg hquote, if_neg hslash]

theorem unquote_content (content rest : List UInt8) :
    unquote (content.flatMap escape ++ 34 :: rest) = some (content, rest) := by
  induction content with
  | nil => exact unquote_close rest
  | cons b content ih =>
    rw [List.flatMap_cons, List.append_assoc, unquote_escape, ih]
    rfl

def readString : List UInt8 → Option (String × List UInt8)
  | [] => none
  | b :: bs =>
    if b = 34 then do
      let r ← unquote bs
      let s ← String.fromUTF8? ⟨r.1.toArray⟩
      return (s, r.2)
    else none

theorem readString_quoted (s : String) (rest : List UInt8) :
    readString (quoted s ++ rest) = some (s, rest) := by
  have hbytes : String.fromUTF8? ⟨s.toUTF8.data.toList.toArray⟩ = some s := by
    rw [Array.toArray_toList]
    exact dif_pos s.isValidUTF8
  show (do
    let r ← unquote (s.toUTF8.data.toList.flatMap escape ++ [34] ++ rest)
    let s ← String.fromUTF8? ⟨r.1.toArray⟩
    return (s, r.2)) = some (s, rest)
  rw [List.append_assoc, List.singleton_append, unquote_content]
  show (String.fromUTF8? ⟨s.toUTF8.data.toList.toArray⟩).bind (fun t => some (t, rest)) = _
  rw [hbytes]
  rfl

/-! ## Objects -/

/-- The members with a comma after each but the last, and the closing brace. -/
def membersText : Members → List UInt8
  | [] => [125]
  | [m] => quoted m.1 ++ 58 :: (quoted m.2 ++ [125])
  | m :: m' :: ms => quoted m.1 ++ 58 :: (quoted m.2 ++ 44 :: membersText (m' :: ms))

/-- The text of an object. -/
def print (ms : Members) : List UInt8 := 123 :: membersText (sorted ms)

/-- A key with its value. -/
def readMember (bs : List UInt8) : Option ((String × String) × List UInt8) := do
  let key ← readString bs
  match key.2 with
  | 58 :: bs => do
    let value ← readString bs
    return ((key.1, value.1), value.2)
  | _ => none

/-- At most `n` members, each followed by a comma, and the last by the closing brace. -/
def readMembers : Nat → List UInt8 → Option Members
  | 0, _ => none
  | n + 1, bs => do
    let member ← readMember bs
    match member.2 with
    | [125] => return [member.1]
    | 44 :: bs => do
      let ms ← readMembers n bs
      return member.1 :: ms
    | _ => none

def parse : List UInt8 → Option Members
  | [123, 125] => some []
  | 123 :: bs => readMembers bs.length bs
  | _ => none

theorem readMember_text (m : String × String) (rest : List UInt8) :
    readMember (quoted m.1 ++ 58 :: (quoted m.2 ++ rest)) = some (m, rest) := by
  unfold readMember
  rw [readString_quoted]
  show (readString (quoted m.2 ++ rest)).bind _ = _
  rw [readString_quoted]
  rfl

theorem readMembers_text {ms : Members} (hne : ms ≠ []) {n : Nat} (hn : ms.length ≤ n) :
    readMembers n (membersText ms) = some ms := by
  induction ms generalizing n with
  | nil => exact absurd rfl hne
  | cons m ms ih =>
    obtain ⟨n, rfl⟩ : ∃ n', n = n' + 1 := ⟨n - 1, by rw [List.length_cons] at hn; omega⟩
    rw [List.length_cons] at hn
    cases ms with
    | nil =>
      rw [membersText, readMembers, readMember_text]
      rfl
    | cons m' ms =>
      rw [membersText, readMembers, readMember_text]
      show (readMembers n (membersText (m' :: ms))).bind _ = _
      rw [ih (List.cons_ne_nil _ _) (by omega)]
      rfl

theorem length_le_membersText (ms : Members) : ms.length ≤ (membersText ms).length := by
  induction ms with
  | nil => exact Nat.zero_le _
  | cons m ms ih =>
    cases ms with
    | nil => simp [membersText, quoted]
    | cons m' ms =>
      simp only [membersText, List.length_append, List.length_cons] at ih ⊢
      omega

/-- **What is printed is read back**, by the keys. -/
theorem parse_print (ms : Members) : parse (print ms) = some (sorted ms) := by
  unfold print
  cases h : sorted ms with
  | nil => rfl
  | cons m ms' =>
    have hread : readMembers (membersText (m :: ms')).length (membersText (m :: ms')) =
        some (m :: ms') :=
      readMembers_text (List.cons_ne_nil _ _) (length_le_membersText _)
    -- a member begins with a quotation mark
    obtain ⟨bs, hbs⟩ : ∃ bs, membersText (m :: ms') = 34 :: bs := by
      cases ms' with
      | nil => exact ⟨_, rfl⟩
      | cons => exact ⟨_, rfl⟩
    rw [hbs] at hread ⊢
    exact hread

end FlatJson
