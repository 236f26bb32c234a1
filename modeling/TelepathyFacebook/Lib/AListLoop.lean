import Mathlib.Data.Finmap

/-!
# Loops that fill an association list

The programs we model fill a table in a loop over some list.  Such a loop is a
`List.foldl` whose step, seen from one key `k`, either stores the one value `v`
that belongs to `k` or leaves what is stored there alone.  `AList.lookup_foldl`
says what `k` holds after the loop.
-/

universe u v w

namespace AList

variable {α : Type u} {β : α → Type v} {γ : Type w} [DecidableEq α]

/-- What a key holds after a loop that stores `v` there in the rounds `p`. -/
theorem lookup_foldl {f : AList β → γ → AList β} (k : α) (v : Option (β k)) (p : γ → Prop)
    [DecidablePred p] {l : List γ}
    (h : ∀ t, ∀ x ∈ l, (f t x).lookup k = if p x then v else t.lookup k) (t : AList β) :
    (l.foldl f t).lookup k = if ∃ x ∈ l, p x then v else t.lookup k := by
  induction l generalizing t with
  | nil => simp
  | cons x l ih =>
      rw [List.foldl_cons, ih (fun t y hy ↦ h t y (List.mem_cons_of_mem x hy)),
        h t x List.mem_cons_self]
      by_cases hx : p x
      · simp [hx]
      · simp [hx]

/-- An association list is rebuilt from its entries. -/
@[simp] theorem toAList_entries (s : AList β) : s.entries.toAList = s := by
  induction s with
  | H0 => rfl
  | IH a b s h ih => rw [entries_insert_of_notMem h, toAList_cons, ih]

/-- Association lists that answer every lookup alike are the same finite map. -/
theorem toFinmap_eq_of_lookup {s t : AList β} (h : ∀ k, s.lookup k = t.lookup k) :
    s.toFinmap = t.toFinmap := by
  apply Finmap.ext_lookup
  intro k
  rw [Finmap.lookup_toFinmap, Finmap.lookup_toFinmap]
  exact h k

end AList
