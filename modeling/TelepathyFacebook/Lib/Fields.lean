import Mathlib.Data.List.TakeWhile
import Mathlib.Tactic.Common

/-!
# Fields of a byte stream

Readers for the parts that messages are made of: a block behind a byte with its length, a
number of two bytes, a field that ends at a byte.  A reader gives what it has read and the
rest of the stream.  For each there is the round trip with any rest behind it.

Nothing here is about a particular program.
-/

namespace Fields

/-- A block behind a byte with its length. -/
def block : List UInt8 → Option (List UInt8 × List UInt8)
  | [] => none
  | n :: s => if n.toNat ≤ s.length then some (s.take n.toNat, s.drop n.toNat) else none

/-- A number of two bytes, the upper one first. -/
def word : List UInt8 → Option (Nat × List UInt8)
  | upper :: lower :: s => some (upper.toNat * 256 + lower.toNat, s)
  | _ => none

/-- What stands before the first `stop`. -/
def field (stop : UInt8) (s : List UInt8) : Option (List UInt8 × List UInt8) :=
  match s.dropWhile (· ≠ stop) with
  | [] => none
  | _ :: rest => some (s.takeWhile (· ≠ stop), rest)

/-- What stands before the last `stop`, and behind it. -/
def lastField (stop : UInt8) (s : List UInt8) : Option (List UInt8 × List UInt8) :=
  (field stop s.reverse).map fun (l, rest) ↦ (rest.reverse, l.reverse)

variable {stop : UInt8} {l rest s : List UInt8}

theorem block_append (hl : l.length < 256) (s : List UInt8) :
    block (UInt8.ofNat l.length :: (l ++ s)) = some (l, s) := by
  have hlen : (UInt8.ofNat l.length).toNat = l.length := UInt8.toNat_ofNat_of_lt' hl
  have hle : l.length ≤ (l ++ s).length := by
    rw [List.length_append]
    exact Nat.le_add_right _ _
  rw [block, hlen, if_pos hle, List.take_left, List.drop_left]

theorem field_append (hl : stop ∉ l) (s : List UInt8) :
    field stop (l ++ stop :: s) = some (l, s) := by
  have hall : ∀ b ∈ l, decide (b ≠ stop) = true := fun b hb ↦
    decide_eq_true fun h ↦ hl (h ▸ hb)
  have hdrop : (l ++ stop :: s).dropWhile (· ≠ stop) = stop :: s := by
    rw [List.dropWhile_append_of_pos hall, List.dropWhile_cons_of_neg (by simp)]
  rw [field, hdrop, List.takeWhile_append_of_pos hall, List.takeWhile_cons_of_neg (by simp),
    List.append_nil]

/-- A field is what stands before the first `stop`, and nothing else is. -/
theorem field_eq_some_iff : field stop s = some (l, rest) ↔ s = l ++ stop :: rest ∧ stop ∉ l := by
  constructor
  · intro h
    have hsplit := List.takeWhile_append_dropWhile (p := (· ≠ stop)) (l := s)
    rw [field] at h
    split at h
    · cases h
    · next b tail hdrop =>
        obtain ⟨rfl, rfl⟩ := Prod.mk.inj (Option.some.inj h)
        have hb : b = stop := by
          have hne : s.dropWhile (· ≠ stop) ≠ [] := hdrop ▸ List.cons_ne_nil _ _
          have hhead := List.head_dropWhile_not (· ≠ stop) hne
          simp only [hdrop, List.head_cons] at hhead
          simpa using hhead
        rw [hdrop, hb] at hsplit
        exact ⟨hsplit.symm, fun hmem ↦ by simpa using List.mem_takeWhile_imp hmem⟩
  · rintro ⟨rfl, hl⟩
    exact field_append hl rest

theorem lastField_append (hl : stop ∉ l) (s : List UInt8) :
    lastField stop (s ++ stop :: l) = some (s, l) := by
  have hrev : stop ∉ l.reverse := fun h ↦ hl (List.mem_reverse.mp h)
  rw [lastField, List.reverse_append, List.reverse_cons, List.append_assoc, List.singleton_append,
    field_append hrev, Option.map_some]
  dsimp only
  rw [List.reverse_reverse, List.reverse_reverse]

theorem lastField_eq_some_iff :
    lastField stop s = some (rest, l) ↔ s = rest ++ stop :: l ∧ stop ∉ l := by
  constructor
  · intro h
    obtain ⟨⟨l', rest'⟩, hfield, heq⟩ := Option.map_eq_some_iff.mp h
    obtain ⟨rfl, rfl⟩ := Prod.mk.inj heq
    obtain ⟨hsplit, hl⟩ := field_eq_some_iff.mp hfield
    refine ⟨?_, fun hmem ↦ hl (List.mem_reverse.mp hmem)⟩
    rw [← s.reverse_reverse, hsplit]
    simp
  · rintro ⟨rfl, hl⟩
    exact lastField_append hl rest

end Fields
