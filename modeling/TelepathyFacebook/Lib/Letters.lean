import Mathlib.Computability.Language

/-!
# Repeated letters

The language of the words of one letter from a set, and of its repetitions: exactly so
often, at most so often, at least so often, any number of times.  All are words over the
set of a certain length.
-/

universe u

namespace Letters

open scoped Computability

variable {α : Type u} {S : Set α} {w : List α} {m n : Nat}

/-- The words of one letter from `S`. -/
def letter (S : Set α) : Language α := {w | ∃ a ∈ S, w = [a]}

/-- A word that starts with a letter. -/
theorem mem_letter_mul {L : Language α} :
    w ∈ letter S * L ↔ ∃ a ∈ S, ∃ v ∈ L, w = a :: v := by
  rw [Language.mem_mul]
  constructor
  · rintro ⟨_, ⟨a, ha, rfl⟩, v, hv, rfl⟩
    exact ⟨a, ha, v, hv, rfl⟩
  · rintro ⟨a, ha, v, hv, rfl⟩
    exact ⟨[a], ⟨a, ha, rfl⟩, v, hv, rfl⟩

/-- **Exactly `n` letters.** -/
theorem mem_pow : w ∈ letter S ^ n ↔ w.length = n ∧ ∀ a ∈ w, a ∈ S := by
  induction n generalizing w with
  | zero =>
      rw [pow_zero, Language.mem_one, List.length_eq_zero_iff]
      refine ⟨fun h ↦ ⟨h, ?_⟩, And.left⟩
      rw [h]
      exact fun a ha ↦ absurd ha List.not_mem_nil
  | succ n ih =>
      rw [pow_succ', mem_letter_mul]
      constructor
      · rintro ⟨a, ha, v, hv, rfl⟩
        obtain ⟨hlen, hall⟩ := ih.mp hv
        exact ⟨by rw [List.length_cons, hlen], List.forall_mem_cons.mpr ⟨ha, hall⟩⟩
      · rintro ⟨hlen, hall⟩
        obtain ⟨a, v, rfl⟩ := List.exists_cons_of_length_eq_add_one hlen
        obtain ⟨ha, hv⟩ := List.forall_mem_cons.mp hall
        exact ⟨a, ha, v, ih.mpr ⟨Nat.succ.inj hlen, hv⟩, rfl⟩

/-- **Any number of letters.** -/
theorem mem_kstar : w ∈ (letter S)∗ ↔ ∀ a ∈ w, a ∈ S := by
  rw [Language.kstar_eq_iSup_pow, Language.mem_iSup]
  constructor
  · rintro ⟨n, hn⟩
    exact (mem_pow.mp hn).2
  · intro h
    exact ⟨w.length, mem_pow.mpr ⟨rfl, h⟩⟩

/-- **At most `n` letters.** -/
theorem mem_optional_pow : w ∈ (1 + letter S) ^ n ↔ w.length ≤ n ∧ ∀ a ∈ w, a ∈ S := by
  induction n generalizing w with
  | zero =>
      rw [pow_zero, ← pow_zero (letter S), mem_pow, Nat.le_zero]
  | succ n ih =>
      rw [pow_succ', add_mul, one_mul, Language.mem_add, mem_letter_mul, ih]
      constructor
      · rintro (⟨hlen, hall⟩ | ⟨a, ha, v, hv, rfl⟩)
        · exact ⟨Nat.le_succ_of_le hlen, hall⟩
        · obtain ⟨hlen, hall⟩ := ih.mp hv
          exact ⟨Nat.succ_le_succ hlen, List.forall_mem_cons.mpr ⟨ha, hall⟩⟩
      · rintro ⟨hlen, hall⟩
        cases w with
        | nil => exact .inl ⟨Nat.zero_le n, hall⟩
        | cons a v =>
            obtain ⟨ha, hv⟩ := List.forall_mem_cons.mp hall
            exact .inr ⟨a, ha, v, ih.mpr ⟨Nat.le_of_succ_le_succ hlen, hv⟩, rfl⟩

/-- Exactly `n` letters and then more of them, where `P` says how many. -/
theorem mem_pow_mul {L : Language α} {P : Nat → Prop}
    (hL : ∀ v, v ∈ L ↔ P v.length ∧ ∀ a ∈ v, a ∈ S) :
    w ∈ letter S ^ n * L ↔ (n ≤ w.length ∧ P (w.length - n)) ∧ ∀ a ∈ w, a ∈ S := by
  rw [Language.mem_mul]
  constructor
  · rintro ⟨u, hu, v, hv, rfl⟩
    obtain ⟨rfl, hallu⟩ := mem_pow.mp hu
    obtain ⟨hP, hallv⟩ := (hL v).mp hv
    rw [List.length_append, Nat.add_sub_cancel_left]
    exact ⟨⟨Nat.le_add_right _ _, hP⟩, List.forall_mem_append.mpr ⟨hallu, hallv⟩⟩
  · rintro ⟨⟨hle, hP⟩, hall⟩
    refine ⟨w.take n, mem_pow.mpr ⟨List.length_take_of_le hle, ?_⟩, w.drop n, (hL _).mpr ⟨?_, ?_⟩,
      List.take_append_drop n w⟩
    · exact fun a ha ↦ hall a (List.mem_of_mem_take ha)
    · rwa [List.length_drop]
    · exact fun a ha ↦ hall a (List.mem_of_mem_drop ha)

/-- **At least `n` letters.** -/
theorem mem_pow_mul_kstar :
    w ∈ letter S ^ n * (letter S)∗ ↔ n ≤ w.length ∧ ∀ a ∈ w, a ∈ S := by
  rw [mem_pow_mul (P := fun _ ↦ True) fun v ↦ by rw [mem_kstar, true_and], and_true]

/-- **One letter or more.** -/
theorem mem_mul_kstar : w ∈ letter S * (letter S)∗ ↔ w ≠ [] ∧ ∀ a ∈ w, a ∈ S := by
  have h := mem_pow_mul_kstar (S := S) (w := w) (n := 1)
  rwa [pow_one, Nat.one_le_iff_ne_zero, Ne, List.length_eq_zero_iff] at h

/-- **From `m` to `n` letters.** -/
theorem mem_pow_mul_optional_pow (h : m ≤ n) :
    w ∈ letter S ^ m * (1 + letter S) ^ (n - m) ↔
      (m ≤ w.length ∧ w.length ≤ n) ∧ ∀ a ∈ w, a ∈ S := by
  rw [mem_pow_mul (P := (· ≤ n - m)) fun v ↦ mem_optional_pow]
  refine and_congr_left fun _ ↦ and_congr_right fun hm ↦ ?_
  omega

end Letters
