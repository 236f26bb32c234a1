import Mathlib.Data.List.TakeWhile
import Mathlib.Tactic.Common

/-!
# Decimal text

`Decimal.scan` reads the longest decimal integer at the start of a text the way
the C functions of the `strtol` family do in base 10: blanks, then an optional
sign, then digits.  It does not know any width; saturation and wrapping belong
to the functions built on it.

The facts about it are the two round trips, `scan_nat` and `scan_int`, and that
the printed form of integers is injective.  `Decimal.whole` reads a text that is
nothing but a decimal integer; `scan` reads more texts than that, and the same
number where both read one.
-/

universe u

namespace Decimal

/-- The six blanks that `isspace` accepts in the C locale. -/
def isSpace (c : Char) : Bool :=
  c = ' ' || c = '\t' || c = '\n' || c = '\u000b' || c = '\u000c' || c = '\r'

/-- Split an optional sign off; `true` is a minus. -/
def sign : List Char → Bool × List Char
  | '-' :: s => (true, s)
  | '+' :: s => (false, s)
  | s => (false, s)

/-- The value of the longest run of digits, `none` when there is no digit. -/
def digits (s : List Char) : Option Nat :=
  match s.takeWhile Char.isDigit with
  | [] => none
  | ds => some (Nat.ofDigitChars 10 ds 0)

/-- The sign and magnitude at the start of a text, `none` when it does not start
with a number. -/
def scan (s : List Char) : Option (Bool × Nat) :=
  let (neg, rest) := sign (s.dropWhile isSpace)
  (digits rest).map (neg, ·)

/-- The integer of a sign and a magnitude. -/
def value : Bool × Nat → Int
  | (true, n) => -n
  | (false, n) => n

/-- The sign and magnitude of a text that is a decimal integer from its first character
to its last, `none` otherwise. -/
def whole (s : List Char) : Option (Bool × Nat) :=
  let (neg, rest) := sign s
  if rest.all Char.isDigit then (digits rest).map (neg, ·) else none

/-! ## Runs of digits -/

theorem isSpace_of_isDigit {c : Char} (h : c.isDigit) : isSpace c = false := by
  rw [Bool.eq_false_iff]
  intro hs
  simp only [isSpace, Bool.or_eq_true, decide_eq_true_eq] at hs
  rcases hs with ((((rfl | rfl) | rfl) | rfl) | rfl) | rfl <;> revert h <;> decide

/-- A digit is no sign. -/
theorem sign_of_isDigit {c : Char} (cs : List Char) (h : c.isDigit) :
    sign (c :: cs) = (false, c :: cs) := by
  unfold sign
  split
  · next heq =>
      obtain ⟨rfl, -⟩ := List.cons.inj heq
      exact absurd h (by decide)
  · next heq =>
      obtain ⟨rfl, -⟩ := List.cons.inj heq
      exact absurd h (by decide)
  · rfl

variable {ds : List Char}

/-- Digits have no blank in front. -/
theorem dropWhile_of_all (h : ds.all Char.isDigit) : ds.dropWhile isSpace = ds := by
  cases ds with
  | nil => rfl
  | cons c cs =>
      have hc : isSpace c = false :=
        isSpace_of_isDigit (List.all_eq_true.mp h c List.mem_cons_self)
      rw [List.dropWhile_cons_of_neg (by simp [hc])]

/-- Digits have no sign. -/
theorem sign_of_all (h : ds.all Char.isDigit) : sign ds = (false, ds) := by
  cases ds with
  | nil => rfl
  | cons c cs => exact sign_of_isDigit cs (List.all_eq_true.mp h c List.mem_cons_self)

/-- Digits and nothing else. -/
theorem digits_of_all (h : ds.all Char.isDigit) (hne : ds ≠ []) :
    digits ds = some (Nat.ofDigitChars 10 ds 0) := by
  have htake : ds.takeWhile Char.isDigit = ds :=
    List.takeWhile_eq_self_iff.mpr (List.all_eq_true.mp h)
  rw [digits, htake]
  cases ds with
  | nil => exact absurd rfl hne
  | cons c cs => rfl

/-! ## Printed numbers -/

theorem all_isDigit_toDigits (n : Nat) : (Nat.toDigits 10 n).all Char.isDigit :=
  List.all_eq_true.mpr fun _ hc ↦ Nat.isDigit_of_mem_toDigits (by decide) (by decide) hc

/-- Printing and reading a natural number. -/
@[simp] theorem digits_toDigits (n : Nat) : digits (Nat.toDigits 10 n) = some n := by
  rw [digits_of_all (all_isDigit_toDigits n) Nat.toDigits_ne_nil, Nat.ofDigitChars_ten_toDigits]

@[simp] theorem scan_toDigits (n : Nat) : scan (Nat.toDigits 10 n) = some (false, n) := by
  have hall := all_isDigit_toDigits n
  simp only [scan, dropWhile_of_all hall, sign_of_all hall, digits_toDigits, Option.map_some]

/-- Printing and scanning a natural number. -/
theorem scan_nat (n : Nat) : scan (toString n).toList = some (false, n) := by
  rw [Nat.toString_eq_repr, Nat.toList_repr, scan_toDigits]

/-- An integer is printed as its sign and the digits of its magnitude. -/
theorem toList_toString_int (i : Int) :
    (toString i).toList =
      (if i < 0 then ['-'] else []) ++ Nat.toDigits 10 i.natAbs := by
  cases i with
  | ofNat n =>
      rw [Int.toString_eq_repr]
      simp [Int.repr]
  | negSucc n =>
      rw [Int.toString_eq_repr]
      simp [Int.repr]

/-- Printing and scanning an integer. -/
theorem scan_int (i : Int) : scan (toString i).toList = some (decide (i < 0), i.natAbs) := by
  rw [toList_toString_int]
  by_cases h : i < 0
  · have hminus : isSpace '-' = false := by decide
    simp [h, scan, hminus, sign]
  · simp [h]

/-- The same as one number. -/
theorem map_value_scan_int (i : Int) : (scan (toString i).toList).map value = some i := by
  rw [scan_int, Option.map_some]
  congr 1
  by_cases h : i < 0
  · rw [decide_eq_true h, value]
    omega
  · rw [decide_eq_false h, value]
    omega

/-! ## Whole texts -/

/-- The three ways in which a sign is split off. -/
theorem sign_cases (s : List Char) :
    (∃ cs, s = '-' :: cs ∧ sign s = (true, cs)) ∨
      (∃ cs, s = '+' :: cs ∧ sign s = (false, cs)) ∨ sign s = (false, s) := by
  unfold sign
  split
  · next cs => exact .inl ⟨cs, rfl, rfl⟩
  · next cs => exact .inr (.inl ⟨cs, rfl, rfl⟩)
  · exact .inr (.inr rfl)

/-- A whole text is its sign and its digits. -/
theorem whole_eq_some {s : List Char} {neg : Bool} {n : Nat} (h : whole s = some (neg, n)) :
    (sign s).2.all Char.isDigit ∧ (sign s).2 ≠ [] ∧
      n = Nat.ofDigitChars 10 (sign s).2 0 ∧ neg = (sign s).1 := by
  have hall : (sign s).2.all Char.isDigit := by
    by_contra hn
    simp [whole, hn] at h
  have hne : (sign s).2 ≠ [] := by
    intro hnil
    simp [whole, hnil, digits] at h
  have hpair : (sign s).1 = neg ∧ Nat.ofDigitChars 10 (sign s).2 0 = n := by
    simpa [whole, hall, digits_of_all hall hne] using h
  exact ⟨hall, hne, hpair.2.symm, hpair.1.symm⟩

/-- **Decimal integers** are an optional sign and one digit or more. -/
theorem whole_eq_some_iff {s : List Char} {neg : Bool} {n : Nat} :
    whole s = some (neg, n) ↔
      ∃ ds ≠ [], ds.all Char.isDigit ∧ n = Nat.ofDigitChars 10 ds 0 ∧
        (neg = true ∧ s = '-' :: ds ∨ neg = false ∧ (s = '+' :: ds ∨ s = ds)) := by
  constructor
  · intro h
    obtain ⟨hall, hne, hn, hneg⟩ := whole_eq_some h
    refine ⟨(sign s).2, hne, hall, hn, ?_⟩
    rcases sign_cases s with ⟨cs, rfl, hsign⟩ | ⟨cs, rfl, hsign⟩ | hsign
    · exact .inl ⟨hneg.trans (by rw [hsign]), by rw [hsign]⟩
    · exact .inr ⟨hneg.trans (by rw [hsign]), .inl (by rw [hsign])⟩
    · exact .inr ⟨hneg.trans (by rw [hsign]), .inr (by rw [hsign])⟩
  · rintro ⟨ds, hne, hall, rfl, ⟨rfl, rfl⟩ | ⟨rfl, rfl | rfl⟩⟩
    · simp [whole, sign, hall, digits_of_all hall hne]
    · simp [whole, sign, hall, digits_of_all hall hne]
    · simp [whole, sign_of_all hall, hall, digits_of_all hall hne]

/-- The start of a whole text is all of it. -/
theorem scan_of_whole {s : List Char} {p : Bool × Nat} (h : whole s = some p) :
    scan s = some p := by
  obtain ⟨neg, n⟩ := p
  obtain ⟨ds, hne, hall, rfl, ⟨rfl, rfl⟩ | ⟨rfl, rfl | rfl⟩⟩ := whole_eq_some_iff.mp h
  · have hminus : isSpace '-' = false := by decide
    simp [scan, hminus, sign, digits_of_all hall hne]
  · have hplus : isSpace '+' = false := by decide
    simp [scan, hplus, sign, digits_of_all hall hne]
  · simp [scan, dropWhile_of_all hall, sign_of_all hall, digits_of_all hall hne]

/-- Readers of the whole text and of its start, where they agree on whole texts, give the
same answer unless the text is not whole, starts with a number, and that number is not
the default. -/
theorem getD_scan_eq_iff {α : Type u} {read : Bool × Nat → α} {exact : Bool × Nat → Option α}
    (hexact : ∀ p x, exact p = some x → read p = x) (s : List Char) (d : α) :
    ((scan s).map read).getD d = ((whole s).bind exact).getD d ↔
      ∀ p, scan s = some p → ((whole s).bind exact).isSome ∨ read p = d := by
  cases hx : (whole s).bind exact with
  | some x =>
      obtain ⟨p, hp, hpx⟩ := Option.bind_eq_some_iff.mp hx
      simp [scan_of_whole hp, hexact p x hpx]
  | none =>
      cases hp : scan s with
      | none => simp
      | some p => simp

/-! ## Printing is injective -/

theorem toString_int_injective : Function.Injective (toString : Int → String) := by
  intro i j h
  have key := congrArg (fun s : String ↦ scan s.toList) h
  simp only [scan_int, Option.some.injEq, Prod.mk.injEq, decide_eq_decide] at key
  omega

end Decimal
