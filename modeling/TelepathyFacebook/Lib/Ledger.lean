import Mathlib.Data.List.Nodup
import Mathlib.Tactic.Common

/-!
# Ledgers

Tasks are numbered in the order in which they are issued.  `Balanced` says that the books
are in order: of the tasks `0, …, issued - 1` each is either live or has ended, and what has
ended has ended once.  A task may end in several ways, which the list of endings records.

The rules are those of double-entry: a task is issued live (`Balanced.issue`), a live task
ends (`Balanced.finish`).  Nothing here is about a particular program.
-/

universe u

namespace Ledger

variable {ρ : Type u} {issued : Nat} {live : Nat → Prop} {ended : List (Nat × ρ)}

/-- Every issued task is live or has ended once, and no other task is either. -/
structure Balanced (issued : Nat) (live : Nat → Prop) (ended : List (Nat × ρ)) : Prop where
  nodup : (ended.map Prod.fst).Nodup
  live_lt : ∀ a, live a → a < issued
  mem_ended_iff : ∀ a, a ∈ ended.map Prod.fst ↔ a < issued ∧ ¬ live a

theorem balanced_nil : Balanced 0 (fun _ ↦ False) ([] : List (Nat × ρ)) :=
  ⟨List.nodup_nil, fun _ h ↦ h.elim, by simp⟩

namespace Balanced

theorem congr {live' : Nat → Prop} (h : Balanced issued live ended)
    (hlive : ∀ a, live' a ↔ live a) : Balanced issued live' ended := by
  obtain rfl : live' = live := funext fun a ↦ propext (hlive a)
  exact h

/-- A new task is live. -/
theorem issue (h : Balanced issued live ended) :
    Balanced (issued + 1) (fun a ↦ a = issued ∨ live a) ended where
  nodup := h.nodup
  live_lt a ha := by
    rcases ha with rfl | ha
    · exact Nat.lt_succ_self a
    · exact Nat.lt_succ_of_lt (h.live_lt a ha)
  mem_ended_iff a := by
    rw [h.mem_ended_iff a]
    constructor
    · rintro ⟨hlt, hlive⟩
      refine ⟨Nat.lt_succ_of_lt hlt, ?_⟩
      rintro (rfl | ha)
      · exact Nat.lt_irrefl _ hlt
      · exact hlive ha
    · rintro ⟨hlt, hlive⟩
      exact ⟨Nat.lt_of_le_of_ne (Nat.le_of_lt_succ hlt) fun ha ↦ hlive (.inl ha),
        fun ha ↦ hlive (.inr ha)⟩

/-- A live task ends. -/
theorem finish (h : Balanced issued live ended) {a : Nat} (ha : live a) (r : ρ) :
    Balanced issued (fun b ↦ b ≠ a ∧ live b) (ended ++ [(a, r)]) where
  nodup := by
    rw [List.map_append, List.map_singleton, List.nodup_append]
    refine ⟨h.nodup, List.nodup_singleton _, ?_⟩
    intro b hb c hc hbc
    obtain rfl := List.mem_singleton.mp hc
    exact ((h.mem_ended_iff b).mp hb).2 (hbc ▸ ha)
  live_lt b hb := h.live_lt b hb.2
  mem_ended_iff b := by
    rw [List.map_append, List.map_singleton, List.mem_append, List.mem_singleton,
      h.mem_ended_iff b]
    constructor
    · rintro (⟨hlt, hb⟩ | rfl)
      · exact ⟨hlt, fun h ↦ hb h.2⟩
      · exact ⟨h.live_lt b ha, fun h ↦ h.1 rfl⟩
    · rintro ⟨hlt, hb⟩
      by_cases hba : b = a
      · exact .inr hba
      · exact .inl ⟨hlt, fun h ↦ hb ⟨hba, h⟩⟩

end Balanced

end Ledger
