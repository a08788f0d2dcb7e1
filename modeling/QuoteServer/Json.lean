import Mathlib.Data.List.Basic

/-!
# JSON values and the ways the code can fail

The server reads everything it receives through `nlohmann::json`. `Json` is that
library's value type as the code uses it, and the functions below are the
operations the code calls, with the exceptions they throw:

- `contains`, `constIndex` (`operator[]` on a `const` object), `constElem`
  (`operator[]` on a `const` array), `items` (a range-`for` over a value);
- `getString` and `getUnsigned` (`get<std::string>()` and
  `get<long unsigned>()`), which throw `type_error` on any other kind;
- `pushBackAt` (`j[key].push_back(v)` on a mutable value).

Parsing itself is not under the repository: wherever the code parses bytes the
model takes the parser as a parameter.
-/

namespace QuoteServer

/-- The ways a call can fail to return. -/
inductive Fault where
  /-- `nlohmann::detail::parse_error`. -/
  | parseError
  /-- `nlohmann::detail::out_of_range`: a number too large for a `double`. -/
  | outOfRange
  /-- `nlohmann::detail::type_error`. -/
  | typeError
  /-- `operator[]` of a `const` value with a key it does not have. -/
  | missingKey
  /-- `operator[]` of a `const` array past its end. -/
  | missingElement
  /-- `std::invalid_argument` or `std::out_of_range`, thrown by `std::stod`. -/
  | invalidNumber
  /-- A failed `assert`. -/
  | assertion
  /-- A dereferenced `end()` iterator. -/
  | endIterator
  deriving DecidableEq, Repr

/-- The exceptions of `json::parse`. -/
inductive ParseFault where
  | parseError
  | outOfRange
  deriving DecidableEq, Repr

def ParseFault.fault : ParseFault → Fault
  | .parseError => .parseError
  | .outOfRange => .outOfRange

/-- A sequence of two calls returns exactly when both do. -/
theorem bind_eq_ok {α β : Type} {x : Except Fault α} {f : α → Except Fault β}
    {b : β} : (x >>= f) = .ok b ↔ ∃ a, x = .ok a ∧ f a = .ok b := by
  cases x with
  | error e =>
    constructor
    · intro h
      cases h
    · rintro ⟨a, h, -⟩
      cases h
  | ok a =>
    constructor
    · intro h
      exact ⟨a, rfl, h⟩
    · rintro ⟨a', h, hf⟩
      cases h
      exact hf

/-- A sequence of two calls throws what the first one that does throws. -/
theorem bind_eq_error {α β : Type} {x : Except Fault α} {f : α → Except Fault β} {e : Fault} :
    (x >>= f) = .error e ↔ x = .error e ∨ ∃ a, x = .ok a ∧ f a = .error e := by
  cases x with
  | error e' =>
    constructor
    · intro h
      cases h
      exact .inl rfl
    · rintro (h | ⟨a, h, -⟩)
      · cases h
        rfl
      · cases h
  | ok a =>
    constructor
    · intro h
      exact .inr ⟨a, rfl, h⟩
    · rintro (h | ⟨a', h, hf⟩)
      · cases h
      · cases h
        exact hf

section

variable {σ α β : Type} {x : EStateM Fault σ α} {f : α → EStateM Fault σ β} {s s' : σ}

/-- A program that may throw and keeps what it did: the rest of it, after a call that
returned. -/
theorem bind_of_ok {a : α} (h : x s = .ok a s') : (x >>= f) s = f a s' := by
  show EStateM.bind x f s = f a s'
  unfold EStateM.bind
  rw [h]

theorem bind_of_error {e : Fault} (h : x s = .error e s') : (x >>= f) s = .error e s' := by
  show EStateM.bind x f s = .error e s'
  unfold EStateM.bind
  rw [h]

end

/-- Whatever the call returns meets `Q`. -/
def Yields {α : Type} (Q : α → Prop) (x : Except Fault α) : Prop := ∀ a, x = .ok a → Q a

theorem Yields.pure {α : Type} {Q : α → Prop} {a : α} (h : Q a) :
    Yields Q (Pure.pure a) := by
  intro b hb
  cases hb
  exact h

/-- The last call of a sequence decides what it returns. -/
theorem Yields.bind {α β : Type} {Q : β → Prop} {x : Except Fault α} {f : α → Except Fault β}
    (h : ∀ a, x = .ok a → Yields Q (f a)) : Yields Q (x >>= f) := by
  intro b hb
  obtain ⟨a, ha, hf⟩ := bind_eq_ok.mp hb
  exact h a ha b hf

/-- The call throws no `parse_error`, the one exception that is caught where messages
are received. -/
def NoParseError {α : Type} (x : Except Fault α) : Prop := x ≠ .error .parseError

theorem NoParseError.pure {α : Type} (a : α) : NoParseError (Pure.pure a : Except Fault α) :=
  fun h => nomatch h

theorem NoParseError.bind {α β : Type} {x : Except Fault α} {f : α → Except Fault β}
    (hx : NoParseError x) (hf : ∀ a, NoParseError (f a)) : NoParseError (x >>= f) := by
  intro h
  rcases bind_eq_error.mp h with h | ⟨a, -, h⟩
  · exact hx h
  · exact hf a h

theorem toOption_eq_some {ε α : Type} {x : Except ε α} {a : α} :
    x.toOption = some a ↔ x = .ok a := by
  cases x with
  | error e =>
    constructor
    · intro h
      cases h
    · intro h
      cases h
  | ok b =>
    constructor
    · intro h
      rw [Option.some.inj h]
    · intro h
      cases h
      rfl

/-- A call that returns, its result wrapped up. -/
theorem toOption_map_eq_some {α β : Type} {x : Except Fault α} {f : α → β} {b : β} :
    x.toOption.map f = some b ↔ ∃ a, x = .ok a ∧ f a = b := by
  rw [Option.map_eq_some_iff]
  constructor
  · rintro ⟨a, ha, hf⟩
    exact ⟨a, toOption_eq_some.mp ha, hf⟩
  · rintro ⟨a, ha, hf⟩
    exact ⟨a, toOption_eq_some.mpr ha, hf⟩

/-- A `nlohmann::json` value. An object is the list of its members; of two
members with one key the first is the one the object has. -/
inductive Json where
  | null
  | boolean (b : Bool)
  | unsigned (n : UInt64)
  | integer (i : Int64)
  | float (d : Float)
  | string (s : String)
  | array (elements : List Json)
  | object (members : List (String × Json))

namespace Json

/-- `j.contains(key)`: false on everything but an object. -/
def contains : Json → String → Bool
  | .object members, key => (members.lookup key).isSome
  | _, _ => false

/-- `j[key]` on a `const` value. -/
def constIndex : Json → String → Except Fault Json
  | .object members, key =>
    match members.lookup key with
    | some v => .ok v
    | none => .error .missingKey
  | _, _ => .error .typeError

/-- `j[i]` on a `const` value. -/
def constElem : Json → Nat → Except Fault Json
  | .array elements, i =>
    match elements[i]? with
    | some v => .ok v
    | none => .error .missingElement
  | _, _ => .error .typeError

/-- The values a range-`for` over `j` visits. A value that is neither `null`, an
array nor an object is visited itself, once. -/
def items : Json → List Json
  | .null => []
  | .array elements => elements
  | .object members => members.map Prod.snd
  | j => [j]

/-- `j.get<std::string>()`. -/
def getString : Json → Except Fault String
  | .string s => .ok s
  | _ => .error .typeError

/-- `j.get<long unsigned>()`: any number, cast. -/
def getUnsigned : Json → Except Fault Nat
  | .unsigned n => .ok n.toNat
  | .integer i => .ok i.toUInt64.toNat
  | .float d => .ok d.toUInt64.toNat
  | _ => .error .typeError

/-- The member `key` as a string, if it is there and is one. -/
def stringMember (j : Json) (key : String) : Option String :=
  match j.constIndex key with
  | .ok (.string s) => some s
  | _ => none

/-- `j == s` for a string `s`: false on everything but a string. -/
def isString : Json → String → Bool
  | .string t, s => t == s
  | _, _ => false

/-- `j[key]` on a mutable object that is then read: a missing key reads as the
`null` that the call inserts. -/
def mutIndex : Json → String → Except Fault Json
  | .object members, key => .ok ((members.lookup key).getD .null)
  | .null, _ => .ok .null
  | _, _ => .error .typeError

/-- `j.push_back(v)`. -/
def pushBack : Json → Json → Except Fault Json
  | .null, v => .ok (.array [v])
  | .array elements, v => .ok (.array (elements ++ [v]))
  | _, _ => .error .typeError

/-- The members after `members[key] = v`. -/
def assign : List (String × Json) → String → Json → List (String × Json)
  | [], key, v => [(key, v)]
  | (k, w) :: members, key, v =>
    if k = key then (key, v) :: members else (k, w) :: assign members key v

/-- `j[key].push_back(v)` on a mutable value. -/
def pushBackAt : Json → String → Json → Except Fault Json
  | .object members, key, v => do
    let pushed ← ((members.lookup key).getD .null).pushBack v
    return .object (assign members key pushed)
  | .null, key, v => .ok (.object [(key, .array [v])])
  | _, _, _ => .error .typeError

/-! ## What `contains` says about `operator[]` -/

theorem constIndex_object (members : List (String × Json)) (key : String) :
    (Json.object members).constIndex key =
      match members.lookup key with
      | some v => .ok v
      | none => .error .missingKey := rfl

theorem contains_object (members : List (String × Json)) (key : String) :
    (Json.object members).contains key = (members.lookup key).isSome := rfl

/-- A member is there exactly when reading it succeeds. -/
theorem contains_iff {j : Json} {key : String} :
    j.contains key = true ↔ ∃ v, j.constIndex key = .ok v := by
  cases j with
  | object members =>
    rw [contains_object, constIndex_object]
    cases members.lookup key with
    | none => simp
    | some v => simp
  | _ => simp [contains, constIndex]

/-- Only an object has members. -/
theorem object_of_contains {j : Json} {key : String} (h : j.contains key = true) :
    ∃ members, j = .object members := by
  cases j with
  | object members => exact ⟨members, rfl⟩
  | _ => cases h

/-- A missing member cannot be read. -/
theorem constIndex_of_not_contains {j : Json} {key : String}
    (h : j.contains key = false) : ∃ e, j.constIndex key = .error e := by
  cases hj : j.constIndex key with
  | error e => exact ⟨e, rfl⟩
  | ok v => exact absurd (contains_iff.mpr ⟨v, hj⟩) (by rw [h]; decide)

theorem constIndex_error {j : Json} {key : String} {e : Fault}
    (h : j.constIndex key = .error e) : e = .missingKey ∨ e = .typeError := by
  cases j with
  | object members =>
    rw [constIndex_object] at h
    cases hl : members.lookup key with
    | none =>
      rw [hl] at h
      cases h
      exact .inl rfl
    | some v =>
      rw [hl] at h
      cases h
  | _ =>
    cases h
    exact .inr rfl

theorem getString_error {j : Json} {e : Fault} (h : j.getString = .error e) :
    e = .typeError := by
  cases j with
  | string s => cases h
  | _ =>
    cases h
    rfl

/-! ## Reading a mutable value -/

theorem mutIndex_object (members : List (String × Json)) (key : String) :
    (object members).mutIndex key = .ok ((members.lookup key).getD .null) := rfl

/-- A member that is there is read the same way from a mutable value. -/
theorem mutIndex_of_constIndex {jmsg v : Json} {key : String} (h : jmsg.constIndex key = .ok v) :
    jmsg.mutIndex key = .ok v := by
  obtain ⟨members, rfl⟩ := object_of_contains (contains_iff.mpr ⟨v, h⟩)
  rw [constIndex_object] at h
  rw [mutIndex_object]
  cases hl : members.lookup key with
  | none =>
    rw [hl] at h
    cases h
  | some w =>
    rw [hl] at h
    cases h
    rfl

theorem stringMember_eq_some {jmsg : Json} {key s : String} :
    jmsg.stringMember key = some s ↔ jmsg.constIndex key = .ok (.string s) := by
  rw [stringMember]
  cases jmsg.constIndex key with
  | error e => simp
  | ok v => cases v <;> simp

theorem contains_of_stringMember {jmsg : Json} {key s : String}
    (h : jmsg.stringMember key = some s) : jmsg.contains key = true :=
  contains_iff.mpr ⟨_, stringMember_eq_some.mp h⟩

/-- A member that is missing or is no string cannot be converted. -/
theorem mutIndex_of_not_stringMember {jmsg : Json} {key : String}
    (h : jmsg.stringMember key = none) :
    jmsg.mutIndex key = .error .typeError ∨
      ∃ v, jmsg.mutIndex key = .ok v ∧ v.getString = .error .typeError := by
  cases hj : jmsg.constIndex key with
  | ok v =>
    refine .inr ⟨v, mutIndex_of_constIndex hj, ?_⟩
    cases v with
    | string s =>
      rw [stringMember_eq_some.mpr hj] at h
      cases h
    | _ => rfl
  | error e =>
    cases jmsg with
    | object members =>
      rw [constIndex_object] at hj
      rw [mutIndex_object]
      cases hl : members.lookup key with
      | none => exact .inr ⟨.null, rfl, rfl⟩
      | some v =>
        rw [hl] at hj
        cases hj
    | null => exact .inr ⟨.null, rfl, rfl⟩
    | _ => exact .inl rfl

/-- A member compared with a string. -/
theorem isString_iff {j v : Json} {key s : String} (h : j.constIndex key = .ok v) :
    v.isString s = true ↔ j.stringMember key = some s := by
  rw [stringMember_eq_some, h]
  cases v with
  | string t => simp [isString]
  | _ => simp [isString]

/-- The `type` of a message, compared with a string. -/
theorem mutIndex_of_contains {jmsg : Json} {key : String} (h : jmsg.contains key = true) :
    ∃ v, jmsg.mutIndex key = .ok v ∧
      ∀ s, v.isString s = true ↔ jmsg.stringMember key = some s := by
  obtain ⟨v, hv⟩ := contains_iff.mp h
  exact ⟨v, mutIndex_of_constIndex hv, fun s => isString_iff hv⟩

/-! ## Reading back what was assigned -/

@[simp] theorem lookup_assign_self (members : List (String × Json)) (key : String)
    (v : Json) : (assign members key v).lookup key = some v := by
  induction members with
  | nil => simp [assign]
  | cons m members ih =>
    obtain ⟨k, w⟩ := m
    rw [assign]
    by_cases hk : k = key
    · rw [if_pos hk, List.lookup_cons_self]
    · rw [if_neg hk, List.lookup_cons, beq_eq_false_iff_ne.mpr (Ne.symm hk)]
      exact ih

theorem lookup_assign_ne (members : List (String × Json)) {key other : String}
    (v : Json) (h : other ≠ key) :
    (assign members key v).lookup other = members.lookup other := by
  induction members with
  | nil =>
    show [(key, v)].lookup other = none
    rw [List.lookup_cons, beq_eq_false_iff_ne.mpr h]
    rfl
  | cons m members ih =>
    obtain ⟨k, w⟩ := m
    rw [assign]
    by_cases hk : k = key
    · rw [if_pos hk, List.lookup_cons, List.lookup_cons, hk,
        beq_eq_false_iff_ne.mpr h]
    · rw [if_neg hk, List.lookup_cons, List.lookup_cons, ih]

end Json

end QuoteServer
