import Mathlib.Tactic.Common

/-!
# Base 64

The encoding of bytes as letters, four for every three bytes, with `=` where the last group
is short.  Letters are bytes here.

* `decode_encode`: what was encoded is decoded again.
* `isLetter_of_mem_encode`, `length_encode`: what an encoded text is made of, and its length.

Nothing here is about a particular program.
-/

namespace Base64

/-- The letter that stands for a number below 64. -/
def letter (n : Nat) : UInt8 :=
  UInt8.ofNat (if n < 26 then 65 + n else if n < 52 then 71 + n else if n < 62 then n - 4
    else if n = 62 then 43 else 47)

/-- The number that a letter stands for. -/
def value (b : UInt8) : Option Nat :=
  if 65 ≤ b ∧ b ≤ 90 then some (b.toNat - 65)
  else if 97 ≤ b ∧ b ≤ 122 then some (b.toNat - 71)
  else if 48 ≤ b ∧ b ≤ 57 then some (b.toNat + 4)
  else if b = 43 then some 62
  else if b = 47 then some 63
  else none

/-- The sign that fills the last group. -/
abbrev pad : UInt8 := 61

def encode : List UInt8 → List UInt8
  | [] => []
  | [a] => [letter (a.toNat / 4), letter (a.toNat % 4 * 16), pad, pad]
  | [a, b] =>
      [letter (a.toNat / 4), letter (a.toNat % 4 * 16 + b.toNat / 16),
        letter (b.toNat % 16 * 4), pad]
  | a :: b :: c :: l =>
      letter (a.toNat / 4) :: letter (a.toNat % 4 * 16 + b.toNat / 16) ::
        letter (b.toNat % 16 * 4 + c.toNat / 64) :: letter (c.toNat % 64) :: encode l

/-- A group is short only at the end. -/
def decode : List UInt8 → Option (List UInt8)
  | [] => some []
  | w :: x :: y :: z :: l =>
      (value w).bind fun w ↦ (value x).bind fun x ↦
        let a := UInt8.ofNat (w * 4 + x / 16)
        if y = pad then if z = pad ∧ l = [] then some [a] else none
        else (value y).bind fun y ↦
          let b := UInt8.ofNat (x % 16 * 16 + y / 4)
          if z = pad then if l = [] then some [a, b] else none
          else (value z).bind fun z ↦
            (decode l).map fun bs ↦ a :: b :: UInt8.ofNat (y % 4 * 64 + z) :: bs
  | _ => none

/-- A byte that `encode` writes. -/
def IsLetter (b : UInt8) : Prop := b = pad ∨ ∃ n < 64, b = letter n

theorem value_letter {n : Nat} (h : n < 64) : value (letter n) = some n := by
  have hall : ∀ n : Fin 64, value (letter n) = some n.1 := by decide
  exact hall ⟨n, h⟩

theorem letter_ne_pad {n : Nat} (h : n < 64) : letter n ≠ pad := by
  have hall : ∀ n : Fin 64, letter n ≠ pad := by decide
  exact hall ⟨n, h⟩

/-- The first byte of a group, from its two letters. -/
theorem first_byte (a : UInt8) {r : Nat} (hr : r < 16) :
    UInt8.ofNat (a.toNat / 4 * 4 + (a.toNat % 4 * 16 + r) / 16) = a := by
  have h : a.toNat / 4 * 4 + (a.toNat % 4 * 16 + r) / 16 = a.toNat := by omega
  rw [h, UInt8.ofNat_toNat]

/-- The second byte of a group. -/
theorem second_byte (a b : UInt8) {r : Nat} (hr : r < 4) :
    UInt8.ofNat ((a.toNat % 4 * 16 + b.toNat / 16) % 16 * 16 + (b.toNat % 16 * 4 + r) / 4) = b := by
  have hb : b.toNat < 256 := b.toNat_lt
  have h : (a.toNat % 4 * 16 + b.toNat / 16) % 16 * 16 + (b.toNat % 16 * 4 + r) / 4 = b.toNat := by
    omega
  rw [h, UInt8.ofNat_toNat]

/-- The third byte of a group. -/
theorem third_byte (b c : UInt8) :
    UInt8.ofNat ((b.toNat % 16 * 4 + c.toNat / 64) % 4 * 64 + c.toNat % 64) = c := by
  have hc : c.toNat < 256 := c.toNat_lt
  have h : (b.toNat % 16 * 4 + c.toNat / 64) % 4 * 64 + c.toNat % 64 = c.toNat := by omega
  rw [h, UInt8.ofNat_toNat]

/-- **What was encoded is decoded again.** -/
theorem decode_encode (l : List UInt8) : decode (encode l) = some l := by
  fun_induction encode l with
  | case1 => rfl
  | case2 a =>
      have ha : a.toNat < 256 := a.toNat_lt
      rw [decode, value_letter (by omega), Option.bind_some, value_letter (by omega),
        Option.bind_some, if_pos rfl, if_pos ⟨rfl, rfl⟩]
      simpa using first_byte a (r := 0) (by omega)
  | case3 a b =>
      have ha : a.toNat < 256 := a.toNat_lt
      have hb : b.toNat < 256 := b.toNat_lt
      rw [decode, value_letter (by omega), Option.bind_some, value_letter (by omega),
        Option.bind_some, if_neg (letter_ne_pad (by omega)), value_letter (by omega),
        Option.bind_some, if_pos rfl, if_pos rfl, first_byte a (by omega)]
      simpa using second_byte a b (r := 0) (by omega)
  | case4 a b c l ih =>
      have ha : a.toNat < 256 := a.toNat_lt
      have hb : b.toNat < 256 := b.toNat_lt
      have hc : c.toNat < 256 := c.toNat_lt
      rw [decode, value_letter (by omega), Option.bind_some, value_letter (by omega),
        Option.bind_some, if_neg (letter_ne_pad (by omega)), value_letter (by omega),
        Option.bind_some, if_neg (letter_ne_pad (by omega)), value_letter (by omega),
        Option.bind_some, ih, Option.map_some, first_byte a (by omega),
        second_byte a b (by omega), third_byte b c]

theorem encode_injective : Function.Injective encode := fun l l' h ↦ by
  have h' := congrArg decode h
  rwa [decode_encode, decode_encode, Option.some_inj] at h'

theorem isLetter_letter {n : Nat} (h : n < 64) : IsLetter (letter n) := .inr ⟨n, h, rfl⟩

theorem isLetter_of_mem_encode {l : List UInt8} : ∀ b ∈ encode l, IsLetter b := by
  fun_induction encode l with
  | case1 => simp
  | case2 a =>
      have ha : a.toNat < 256 := a.toNat_lt
      simp only [List.forall_mem_cons]
      exact ⟨isLetter_letter (by omega), isLetter_letter (by omega), .inl rfl, .inl rfl, by simp⟩
  | case3 a b =>
      have ha : a.toNat < 256 := a.toNat_lt
      have hb : b.toNat < 256 := b.toNat_lt
      simp only [List.forall_mem_cons]
      exact ⟨isLetter_letter (by omega), isLetter_letter (by omega), isLetter_letter (by omega),
        .inl rfl, by simp⟩
  | case4 a b c l ih =>
      have ha : a.toNat < 256 := a.toNat_lt
      have hb : b.toNat < 256 := b.toNat_lt
      have hc : c.toNat < 256 := c.toNat_lt
      simp only [List.forall_mem_cons]
      exact ⟨isLetter_letter (by omega), isLetter_letter (by omega), isLetter_letter (by omega),
        isLetter_letter (by omega), ih⟩

/-- A letter is a printable character other than a blank. -/
theorem IsLetter.lt {b : UInt8} (h : IsLetter b) : 32 < b := by
  have hall : ∀ n : Fin 64, 32 < letter n := by decide
  rcases h with rfl | ⟨n, hn, rfl⟩
  · decide
  · exact hall ⟨n, hn⟩

theorem length_encode (l : List UInt8) : (encode l).length = (l.length + 2) / 3 * 4 := by
  fun_induction encode l with
  | case1 => rfl
  | case2 a => simp
  | case3 a b => simp
  | case4 a b c l ih =>
      simp only [List.length_cons, ih]
      omega

end Base64
