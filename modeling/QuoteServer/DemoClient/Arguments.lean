import Mathlib.Data.List.TakeWhile
import QuoteServer.DemoClient.MainLoop

/-!
# The scenario on the command line

The option `--prod-ids` takes three words for each entry: `sub` or any other word for an
unsubscription, the product, and the time in seconds. Every scenario whose times fit into an
`int` can be given, and what is read is such a scenario (`transform_arguments`).
-/

namespace QuoteServer

/-- How reading the command line ends the client. -/
inductive ArgumentFault where
  /-- `std::invalid_argument`, thrown by `std::stoi`. -/
  | invalidArgument
  /-- `std::out_of_range`, thrown by `std::stoi`. -/
  | outOfRange
  /-- A word past the end of the vector is read. -/
  | pastTheEnd
  deriving DecidableEq, Repr

/-! ## std::stoi -/

def isSpace (c : Char) : Bool := c = ' ' || ('\t' ≤ c && c ≤ '\r')

/-- The digits at the front, however they go on. -/
def leadingNumber (cs : List Char) : Except ArgumentFault Nat :=
  let digits := cs.takeWhile Char.isDigit
  if digits.isEmpty then throw .invalidArgument else return Nat.ofDigitChars 10 digits 0

def signedNumber : List Char → Except ArgumentFault Int
  | '-' :: cs => (leadingNumber cs).map fun n => -(n : Int)
  | '+' :: cs => (leadingNumber cs).map fun n => (n : Int)
  | cs => (leadingNumber cs).map fun n => (n : Int)

/-- The values of an `int`. -/
def FitsInt (n : Int) : Prop := -2147483648 ≤ n ∧ n ≤ 2147483647

instance (n : Int) : Decidable (FitsInt n) := inferInstanceAs (Decidable (_ ∧ _))

def stoi (s : String) : Except ArgumentFault Int := do
  let n ← signedNumber (s.toList.dropWhile isSpace)
  if FitsInt n then return n else throw .outOfRange

/-- The digits of a number are read as the number. -/
theorem leadingNumber_toDigits (n : Nat) : leadingNumber (Nat.toDigits 10 n) = .ok n := by
  have hdigits : (Nat.toDigits 10 n).takeWhile Char.isDigit = Nat.toDigits 10 n := by
    rw [List.takeWhile_eq_self_iff]
    intro c hc
    exact Nat.isDigit_of_mem_toDigits (by decide) (by decide) hc
  have hnonempty : (Nat.toDigits 10 n).isEmpty = false :=
    List.isEmpty_eq_false_iff.mpr Nat.toDigits_ne_nil
  unfold leadingNumber
  dsimp only
  rw [hdigits, hnonempty, Nat.ofDigitChars_ten_toDigits]
  rfl

theorem not_isSpace_of_isDigit {c : Char} (h : c.isDigit = true) : isSpace c = false := by
  have hdigit : 48 ≤ c.toNat := by
    unfold Char.isDigit at h
    rw [Bool.and_eq_true, decide_eq_true_eq] at h
    exact h.1
  unfold isSpace
  rw [Bool.or_eq_false_iff]
  constructor
  · rw [decide_eq_false_iff_not]
    rintro rfl
    exact absurd hdigit (by decide)
  · rw [Bool.and_eq_false_imp]
    intro _
    rw [decide_eq_false_iff_not]
    intro hle
    have hsmall : c.toNat ≤ 13 := hle
    omega

/-- A number without a sign. -/
theorem signedNumber_toDigits (n : Nat) :
    signedNumber ((Nat.toDigits 10 n).dropWhile isSpace) = .ok (n : Int) := by
  have hnumber := leadingNumber_toDigits n
  cases hdigits : Nat.toDigits 10 n with
  | nil => exact absurd hdigits Nat.toDigits_ne_nil
  | cons c cs =>
    have hc : c.isDigit = true :=
      Nat.isDigit_of_mem_toDigits (by decide) (by decide) (hdigits ▸ List.mem_cons_self)
    rw [hdigits] at hnumber
    rw [List.dropWhile_cons_of_neg (by rw [not_isSpace_of_isDigit hc]; decide)]
    unfold signedNumber
    split
    · rename_i hsign
      obtain ⟨rfl, -⟩ := List.cons.inj hsign
      exact absurd hc (by decide)
    · rename_i hsign
      obtain ⟨rfl, -⟩ := List.cons.inj hsign
      exact absurd hc (by decide)
    · rw [hnumber]
      rfl

/-- What is printed of an `int` is read again. -/
theorem stoi_toString {n : Int} (h : FitsInt n) : stoi (toString n) = .ok n := by
  have hsigned : signedNumber ((toString n).toList.dropWhile isSpace) = .ok n := by
    cases n with
    | ofNat n =>
      show signedNumber (n.repr.toList.dropWhile isSpace) = _
      rw [Nat.toList_repr]
      exact signedNumber_toDigits n
    | negSucc n =>
      show signedNumber (("-" ++ (n + 1).repr).toList.dropWhile isSpace) = _
      rw [String.toList_append, Nat.toList_repr]
      show signedNumber ('-' :: Nat.toDigits 10 (n + 1)) = _
      show (leadingNumber (Nat.toDigits 10 (n + 1))).map (fun m => -(m : Int)) = _
      rw [leadingNumber_toDigits]
      rfl
  unfold stoi
  rw [hsigned]
  exact if_pos h

/-- What is read fits. -/
theorem fitsInt_of_stoi {s : String} {n : Int} (h : stoi s = .ok n) : FitsInt n := by
  unfold stoi at h
  cases hsigned : signedNumber (s.toList.dropWhile isSpace) with
  | error e =>
    rw [hsigned] at h
    cases h
  | ok m =>
    rw [hsigned] at h
    change (if FitsInt m then Except.ok m else Except.error _) = _ at h
    by_cases hm : FitsInt m
    · rw [if_pos hm] at h
      cases h
      exact hm
    · rw [if_neg hm] at h
      cases h

/-! ## The words of a scenario -/

/-- `transform`: three words an entry. -/
def transform : List String → Except ArgumentFault (List ScenarioEntry)
  | [] => return []
  | subscribe :: productId :: timeInS :: vec => do
    let timeInS ← stoi timeInS
    let out ← transform vec
    return { subscribe := subscribe == "sub", productId := productId, timeInS := timeInS } :: out
  | _ => throw .pastTheEnd

/-- How an entry is given. -/
def ScenarioEntry.arguments (entry : ScenarioEntry) : List String :=
  [if entry.subscribe then "sub" else "unsub", entry.productId, toString entry.timeInS]

theorem transform_cons {subscribe productId timeInS : String} {vec : List String}
    {out : List ScenarioEntry} :
    transform (subscribe :: productId :: timeInS :: vec) = .ok out ↔
      ∃ n entries, stoi timeInS = .ok n ∧ transform vec = .ok entries ∧
        out = { subscribe := subscribe == "sub", productId := productId, timeInS := n } ::
          entries := by
  rw [transform]
  cases hn : stoi timeInS with
  | error e =>
    constructor
    · intro h
      cases h
    · rintro ⟨n, entries, h, -⟩
      cases h
  | ok n =>
    cases hentries : transform vec with
    | error e =>
      constructor
      · intro h
        cases h
      · rintro ⟨n, entries, -, h, -⟩
        cases h
    | ok entries =>
      constructor
      · intro h
        cases h
        exact ⟨n, entries, rfl, rfl, rfl⟩
      · rintro ⟨n', entries', hn', hentries', rfl⟩
        cases hn'
        cases hentries'
        rfl

/-- A scenario whose times fit is read as it was given. -/
theorem transform_of_fits {entries : List ScenarioEntry}
    (h : ∀ entry ∈ entries, FitsInt entry.timeInS) :
    transform (entries.flatMap ScenarioEntry.arguments) = .ok entries := by
  induction entries with
  | nil => rfl
  | cons entry entries ih =>
    have hrest := ih fun e he => h e (List.mem_cons_of_mem _ he)
    have htime := stoi_toString (h entry List.mem_cons_self)
    rw [List.flatMap_cons]
    refine transform_cons.mpr ⟨entry.timeInS, entries, htime, hrest, ?_⟩
    obtain ⟨subscribe, productId, timeInS⟩ := entry
    cases subscribe <;> rfl

/-- What is read has three words an entry, and its times fit. -/
theorem transform_accepted {vec : List String} {entries : List ScenarioEntry}
    (h : transform vec = .ok entries) :
    vec.length = 3 * entries.length ∧ ∀ entry ∈ entries, FitsInt entry.timeInS := by
  induction vec using transform.induct generalizing entries with
  | case1 =>
    cases h
    exact ⟨rfl, fun _ hmem => absurd hmem List.not_mem_nil⟩
  | case2 subscribe productId timeInS vec ih =>
    obtain ⟨n, rest, hn, hrest, rfl⟩ := transform_cons.mp h
    obtain ⟨hlength, hfits⟩ := ih hrest
    refine ⟨?_, fun entry hmem => ?_⟩
    · simp only [List.length_cons, hlength]
      omega
    · rcases List.mem_cons.mp hmem with rfl | hmem
      · exact fitsInt_of_stoi hn
      · exact hfits entry hmem
  | case3 vec hnil hcons =>
    rw [transform] at h
    · cases h
    · exact hnil
    · exact hcons

/-- **The command line.** Exactly the scenarios whose times fit into an `int` are read as
they were given; whatever is read is such a scenario, from three words an entry; and so
giving it once more changes nothing. -/
theorem transform_arguments :
    (∀ entries : List ScenarioEntry,
      transform (entries.flatMap ScenarioEntry.arguments) = .ok entries ↔
        ∀ entry ∈ entries, FitsInt entry.timeInS) ∧
    ∀ vec entries, transform vec = .ok entries →
      vec.length = 3 * entries.length ∧
      transform (entries.flatMap ScenarioEntry.arguments) = .ok entries := by
  refine ⟨fun entries => ⟨fun h => (transform_accepted h).2, transform_of_fits⟩,
    fun vec entries h => ?_⟩
  obtain ⟨hlength, hfits⟩ := transform_accepted h
  exact ⟨hlength, transform_of_fits hfits⟩

end QuoteServer
