import Mathlib.Data.List.Find
import Mathlib.Data.List.Nodup
import Mathlib.Data.List.Perm.Basic
import Mathlib.Tactic.Common

/-!
# Hash tables with a hash and an equality of their own

A hash table finds an entry by the hash of its key first and by an equality of keys
after that.  If the hash is not constant on equal keys, the table may hold equal keys
side by side and miss a key that it holds under another spelling.

The equality is given by a normal form `fold`: keys are equal when they fold alike.  A
table is the list of its entries, in an order that promises nothing.  `lookup` is what
the table finds, and `content` what it holds under a key up to equality;
`lookup_eq_content_iff` and `distinct_replace_iff` say when an operation cannot tell the
two apart.  Nothing here is about a particular program.
-/

universe u v w x

/-- How a hash table tells keys apart. -/
structure Keying (α : Type u) (κ : Type v) (η : Type w) where
  /-- The normal form of a key: equal keys have the same. -/
  fold : α → κ
  hash : α → η

variable {α : Type u} {κ : Type v} {η : Type w} {β : Type x}

/-- What the table compares of a key. -/
def Keying.tag (K : Keying α κ η) (k : α) : η × κ := (K.hash k, K.fold k)

theorem Keying.tag_eq_iff {K : Keying α κ η} {k k' : α} :
    K.tag k = K.tag k' ↔ K.hash k = K.hash k' ∧ K.fold k = K.fold k' := Prod.ext_iff

/-- A hash table: no two entries have keys that the table takes for the same. -/
structure HashTable (K : Keying α κ η) (β : Type x) where
  entries : List (α × β)
  nodup : (entries.map fun p ↦ K.tag p.1).Nodup

namespace HashTable

/-- The order in which an iteration visits the entries of a table. -/
structure Order (α : Type u) (β : Type x) where
  order : List (α × β) → List (α × β)
  perm : ∀ l, (order l).Perm l

/-- Visit the entries as they are listed. -/
def Order.listed (α : Type u) (β : Type x) : Order α β := ⟨id, fun _ ↦ .refl _⟩

variable {K : Keying α κ η}

/-- The table without an entry. -/
def empty : HashTable K β := ⟨[], List.nodup_nil⟩

section

variable [DecidableEq κ] [DecidableEq η]

/-- What the table finds under a key. -/
def lookup (t : HashTable K β) (k : α) : Option β :=
  (t.entries.find? fun p ↦ K.tag p.1 = K.tag k).map Prod.snd

/-- The table without the entry that it finds under a key. -/
def remove (t : HashTable K β) (k : α) : HashTable K β where
  entries := t.entries.filter fun p ↦ K.tag p.1 ≠ K.tag k
  nodup := (List.filter_sublist.map _).nodup t.nodup

/-- Store a value under a key, in place of the entry that the table finds under it. -/
def replace (t : HashTable K β) (k : α) (b : β) : HashTable K β where
  entries := (t.remove k).entries ++ [(k, b)]
  nodup := by
    rw [List.map_append, List.nodup_append]
    refine ⟨(t.remove k).nodup, List.nodup_singleton _, fun a ha b hb ↦ ?_⟩
    obtain ⟨p, hp, rfl⟩ := List.mem_map.mp ha
    rw [List.map_singleton, List.mem_singleton] at hb
    rw [hb]
    exact of_decide_eq_true (List.mem_filter.mp hp).2

/-- Store all entries of a list. -/
def replaceAll (t : HashTable K β) (l : List (α × β)) : HashTable K β :=
  l.foldl (fun t p ↦ t.replace p.1 p.2) t

end

section

variable [DecidableEq κ]

/-- What the table holds under a key, up to the equality of keys. -/
def content (t : HashTable K β) (k : α) : Option β :=
  (t.entries.find? fun p ↦ K.fold p.1 = K.fold k).map Prod.snd

end

/-- No two keys of the table are equal. -/
def Distinct (t : HashTable K β) : Prop := (t.entries.map fun p ↦ K.fold p.1).Nodup

/-- The keys of the table that equal a key have the same hash. -/
def Agrees (t : HashTable K β) (k : α) : Prop :=
  ∀ p ∈ t.entries, K.fold p.1 = K.fold k → K.hash p.1 = K.hash k

theorem distinct_empty : (empty : HashTable K β).Distinct := List.nodup_nil

/-- An entry of a table with distinct keys is the only one under its key. -/
theorem Distinct.eq_of_fold_eq {t : HashTable K β} (h : t.Distinct) {p q : α × β}
    (hp : p ∈ t.entries) (hq : q ∈ t.entries) (hfold : K.fold p.1 = K.fold q.1) : p = q :=
  List.inj_on_of_nodup_map h hp hq hfold

/-- Entries with distinct keys are distinct to every hash. -/
theorem nodup_tag {l : List (α × β)} (hl : (l.map fun p ↦ K.fold p.1).Nodup) :
    (l.map fun p ↦ K.tag p.1).Nodup := by
  apply List.Nodup.of_map Prod.snd
  rwa [List.map_map]

theorem Agrees.tag_eq_iff {t : HashTable K β} {k : α} (h : t.Agrees k) {p : α × β}
    (hp : p ∈ t.entries) : K.tag p.1 = K.tag k ↔ K.fold p.1 = K.fold k := by
  rw [Keying.tag_eq_iff]
  exact and_iff_right_of_imp (h p hp)

/-- If every key to be stored agrees, an entry is overwritten when its key is stored. -/
theorem forall_tag_ne_iff {t : HashTable K β} {l : List (α × β)}
    (hl : ∀ q ∈ l, t.Agrees q.1) {p : α × β} (hp : p ∈ t.entries) :
    (∀ q ∈ l, K.tag p.1 ≠ K.tag q.1) ↔ ∀ q ∈ l, K.fold p.1 ≠ K.fold q.1 :=
  forall₂_congr fun q hq ↦ not_congr ((hl q hq).tag_eq_iff hp)

/-- If no entry with an equal key is left, the keys to be stored agree. -/
theorem agrees_of_forall {t : HashTable K β} {l : List (α × β)}
    (hl : (l.map fun p ↦ K.fold p.1).Nodup)
    (h : ∀ p ∈ t.entries, (∀ q ∈ l, K.tag p.1 ≠ K.tag q.1) → ∀ q ∈ l, K.fold p.1 ≠ K.fold q.1) :
    ∀ q ∈ l, t.Agrees q.1 := by
  intro q hq p hp hfold
  by_contra hhash
  refine h p hp (fun q' hq' htag ↦ ?_) q hq hfold
  obtain ⟨hhash', hfold'⟩ := Keying.tag_eq_iff.mp htag
  obtain rfl : q' = q := List.inj_on_of_nodup_map hl hq' hq (hfold'.symm.trans hfold)
  exact hhash hhash'

section

variable [DecidableEq κ] {t : HashTable K β} {k k' : α} {b : β}

/-- What a table with distinct keys holds under a key. -/
theorem Distinct.content_eq_some_iff (h : t.Distinct) :
    t.content k = some b ↔ ∃ p ∈ t.entries, K.fold p.1 = K.fold k ∧ p.2 = b := by
  rw [content, Option.map_eq_some_iff]
  constructor
  · rintro ⟨p, hp, rfl⟩
    exact ⟨p, List.mem_of_find?_eq_some hp, by simpa using List.find?_some hp, rfl⟩
  · rintro ⟨p, hp, hfold, rfl⟩
    have hsome : (t.entries.find? fun p ↦ decide (K.fold p.1 = K.fold k)).isSome := by
      rw [List.find?_isSome]
      exact ⟨p, hp, by simpa using hfold⟩
    obtain ⟨q, hq⟩ := Option.isSome_iff_exists.mp hsome
    refine ⟨q, hq, ?_⟩
    have hqk : K.fold q.1 = K.fold k := by simpa using List.find?_some hq
    rw [h.eq_of_fold_eq (List.mem_of_find?_eq_some hq) hp (hqk.trans hfold.symm)]

theorem content_eq_none_iff :
    t.content k = none ↔ ∀ p ∈ t.entries, K.fold p.1 ≠ K.fold k := by
  simp [content]

variable [DecidableEq η]

/-- A table finds what it holds under a key whose hash agrees. -/
theorem Agrees.lookup_eq_content (h : t.Agrees k) : t.lookup k = t.content k := by
  rw [lookup, content]
  congr 1
  exact List.find?_congr fun p hp ↦ by simp [h.tag_eq_iff hp]

/-- What a table with distinct keys finds is what it holds. -/
theorem Distinct.content_of_lookup (h : t.Distinct) (hb : t.lookup k = some b) :
    t.content k = some b := by
  obtain ⟨p, hp, rfl⟩ := Option.map_eq_some_iff.mp hb
  have htag : K.tag p.1 = K.tag k := by simpa using List.find?_some hp
  exact h.content_eq_some_iff.mpr
    ⟨p, List.mem_of_find?_eq_some hp, (Keying.tag_eq_iff.mp htag).2, rfl⟩

/-- **Finding.**  A table with distinct keys finds what it holds under a key exactly when
the hash agrees. -/
theorem lookup_eq_content_iff (h : t.Distinct) : t.lookup k = t.content k ↔ t.Agrees k := by
  refine ⟨fun heq p hp hfold ↦ ?_, Agrees.lookup_eq_content⟩
  have hcontent : t.content k = some p.2 := h.content_eq_some_iff.mpr ⟨p, hp, hfold, rfl⟩
  rw [hcontent, lookup, Option.map_eq_some_iff] at heq
  obtain ⟨q, hq, -⟩ := heq
  have htag : K.tag q.1 = K.tag k := by simpa using List.find?_some hq
  obtain ⟨hhash, hqk⟩ := Keying.tag_eq_iff.mp htag
  rwa [← h.eq_of_fold_eq (List.mem_of_find?_eq_some hq) hp (hqk.trans hfold.symm)]

/-- The same for whether there is anything under the key. -/
theorem isSome_lookup_eq_iff (h : t.Distinct) :
    (t.lookup k).isSome = (t.content k).isSome ↔ t.Agrees k := by
  rw [← lookup_eq_content_iff h]
  constructor
  · intro hsome
    cases hlookup : t.lookup k with
    | none =>
        rw [hlookup, Option.isSome_none, eq_comm, Option.isSome_eq_false_iff,
          Option.isNone_iff_eq_none] at hsome
        exact hsome.symm
    | some b => exact (h.content_of_lookup hlookup).symm
  · exact congrArg _

/-! ## Removing and replacing -/

theorem mem_remove {p : α × β} :
    p ∈ (t.remove k).entries ↔ p ∈ t.entries ∧ K.tag p.1 ≠ K.tag k := by
  simp [remove, List.mem_filter]

/-- A table finds what was stored last under the key. -/
theorem lookup_replace_self (t : HashTable K β) (k : α) (b : β) :
    (t.replace k b).lookup k = some b := by
  have hnone : (t.remove k).entries.find? (fun p ↦ K.tag p.1 = K.tag k) = none := by
    rw [List.find?_eq_none]
    intro p hp
    simpa using (mem_remove.mp hp).2
  rw [lookup, replace, List.find?_append, hnone]
  simp

theorem Distinct.remove (h : t.Distinct) (k : α) : (t.remove k).Distinct :=
  (List.filter_sublist.map _).nodup h

/-- Where the hash agrees, an entry that is not removed has another key. -/
theorem Agrees.mem_remove (h : t.Agrees k) {p : α × β} :
    p ∈ (t.remove k).entries ↔ p ∈ t.entries ∧ K.fold p.1 ≠ K.fold k := by
  rw [HashTable.mem_remove]
  exact and_congr_right fun hp ↦ not_congr (h.tag_eq_iff hp)

/-- Removing under another key changes nothing. -/
theorem content_remove_of_ne (h : K.fold k ≠ K.fold k') :
    (t.remove k).content k' = t.content k' := by
  rw [content, content, HashTable.remove, List.find?_filter]
  congr 1
  refine List.find?_congr fun p _ ↦ ?_
  by_cases hp : K.fold p.1 = K.fold k'
  · have hne : K.tag p.1 ≠ K.tag k := fun htag ↦
      h ((Keying.tag_eq_iff.mp htag).2.symm.trans hp)
    simp [hp, hne]
  · simp [hp]

/-- **Removing.** -/
theorem Agrees.content_remove (h : t.Agrees k) :
    (t.remove k).content k' = if K.fold k = K.fold k' then none else t.content k' := by
  split
  · next heq =>
      rw [content_eq_none_iff]
      intro p hp
      rw [← heq]
      exact (h.mem_remove.mp hp).2
  · next hne => exact content_remove_of_ne hne

/-- **Replacing** under a key whose hash agrees. -/
theorem Agrees.content_replace (h : t.Agrees k) :
    (t.replace k b).content k' = if K.fold k = K.fold k' then some b else t.content k' := by
  have happend : (t.replace k b).content k' =
      ((t.remove k).content k').or (if K.fold k = K.fold k' then some b else none) := by
    rw [content, content, replace, List.find?_append, Option.map_or]
    congr 1
    by_cases heq : K.fold k = K.fold k' <;> simp [heq]
  rw [happend, h.content_remove]
  split <;> simp

/-- Replacing keeps the keys distinct exactly when the hash agrees. -/
theorem distinct_replace_iff (h : t.Distinct) : (t.replace k b).Distinct ↔ t.Agrees k := by
  rw [Distinct, replace, List.map_append, List.nodup_append, List.map_singleton]
  constructor
  · rintro ⟨-, -, hne⟩ p hp hfold
    by_contra hhash
    have hmem : p ∈ (t.remove k).entries :=
      HashTable.mem_remove.mpr ⟨hp, fun htag ↦ hhash (Keying.tag_eq_iff.mp htag).1⟩
    exact hne _ (List.mem_map_of_mem hmem) _ (List.mem_singleton_self _) hfold
  · intro hk
    refine ⟨h.remove k, List.nodup_singleton _, fun a ha b hb ↦ ?_⟩
    obtain ⟨p, hp, rfl⟩ := List.mem_map.mp ha
    rw [List.mem_singleton.mp hb]
    exact (hk.mem_remove.mp hp).2

/-! ## Storing many entries -/

theorem entries_replaceAll {l : List (α × β)} (hl : (l.map fun p ↦ K.tag p.1).Nodup) :
    (t.replaceAll l).entries =
      t.entries.filter (fun p ↦ ∀ q ∈ l, K.tag p.1 ≠ K.tag q.1) ++ l := by
  induction l generalizing t with
  | nil => simp [replaceAll]
  | cons q l ih =>
      obtain ⟨hq, hl⟩ := List.nodup_cons.mp hl
      have hkept : ∀ q' ∈ l, K.tag q.1 ≠ K.tag q'.1 := by
        intro q' hq' htag
        exact hq (List.mem_map.mpr ⟨q', hq', htag.symm⟩)
      have hstep : t.replaceAll (q :: l) = (t.replace q.1 q.2).replaceAll l := rfl
      have hreplace : (t.replace q.1 q.2).entries =
          t.entries.filter (fun p ↦ K.tag p.1 ≠ K.tag q.1) ++ [q] := rfl
      have hq' : [q].filter (fun p ↦ ∀ q' ∈ l, K.tag p.1 ≠ K.tag q'.1) = [q] :=
        List.filter_eq_self.mpr (by simpa using hkept)
      rw [hstep, ih hl, hreplace, List.filter_append, List.filter_filter, hq', List.append_assoc,
        List.singleton_append]
      congr 1
      apply List.filter_congr
      intro p _
      rw [← Bool.decide_and, decide_eq_decide, List.forall_mem_cons, and_comm]

/-- **Storing a table.**  What is left of `t` after all entries of a table with distinct
keys are stored there, in any order, is what has another key than those, exactly when the
hashes agree. -/
theorem perm_replaceAll_iff {l m : List (α × β)} (hm : (m.map fun p ↦ K.fold p.1).Nodup)
    (hl : l.Perm m) :
    (t.replaceAll l).entries.Perm
        (m ++ t.entries.filter fun p ↦ ∀ q ∈ m, K.fold p.1 ≠ K.fold q.1) ↔
      ∀ q ∈ m, t.Agrees q.1 := by
  have hl' : (l.map fun p ↦ K.fold p.1).Nodup := (hl.map _).nodup_iff.mpr hm
  have hcancel {a b : List (α × β)} : (a ++ l).Perm (m ++ b) ↔ a.Perm b := by
    have hcomm : (a ++ l).Perm (m ++ a) := List.perm_append_comm.trans (hl.append_right a)
    rw [hcomm.congr_left, List.perm_append_left_iff]
  rw [entries_replaceAll (nodup_tag hl'), hcancel]
  constructor
  · intro h
    apply agrees_of_forall hm
    intro p hp htag q hq
    have hmem : p ∈ t.entries.filter fun p ↦ ∀ q ∈ l, K.tag p.1 ≠ K.tag q.1 :=
      List.mem_filter.mpr ⟨hp, by simpa using fun q hq ↦ htag q (hl.mem_iff.mp hq)⟩
    exact of_decide_eq_true (List.mem_filter.mp (h.mem_iff.mp hmem)).2 q hq
  · intro h
    refine List.Perm.of_eq (List.filter_congr fun p hp ↦ ?_)
    rw [decide_eq_decide, ← forall_tag_ne_iff h hp]
    simp only [hl.mem_iff]

/-- Storing the entries of a table keeps the keys distinct exactly when the hashes
agree. -/
theorem distinct_replaceAll_iff (h : t.Distinct) {l : List (α × β)}
    (hl : (l.map fun p ↦ K.fold p.1).Nodup) :
    (t.replaceAll l).Distinct ↔ ∀ q ∈ l, t.Agrees q.1 := by
  rw [Distinct, entries_replaceAll (nodup_tag hl), List.map_append, List.nodup_append]
  constructor
  · rintro ⟨-, -, hne⟩
    apply agrees_of_forall hl
    intro p hp htag q hq
    have hmem : p ∈ t.entries.filter fun p ↦ ∀ q ∈ l, K.tag p.1 ≠ K.tag q.1 :=
      List.mem_filter.mpr ⟨hp, by simpa using htag⟩
    exact hne _ (List.mem_map_of_mem hmem) _ (List.mem_map_of_mem hq)
  · intro hag
    refine ⟨(List.filter_sublist.map _).nodup h, hl, fun a ha b hb ↦ ?_⟩
    obtain ⟨p, hp, rfl⟩ := List.mem_map.mp ha
    obtain ⟨q, hq, rfl⟩ := List.mem_map.mp hb
    obtain ⟨hp, htag⟩ := List.mem_filter.mp hp
    exact (forall_tag_ne_iff hag hp).mp (of_decide_eq_true htag) q hq

/-- **Storing the entries of a table** gives its content, and where that has nothing the
content before. -/
theorem content_replaceAll {src : HashTable K β} (h : t.Distinct) (hsrc : src.Distinct)
    {l : List (α × β)} (hl : l.Perm src.entries) (hag : ∀ q ∈ l, t.Agrees q.1) (k : α) :
    (t.replaceAll l).content k = (src.content k).or (t.content k) := by
  have hl' : (l.map fun p ↦ K.fold p.1).Nodup := (hl.map _).nodup_iff.mpr hsrc
  have hresult := (distinct_replaceAll_iff h hl').mpr hag
  ext b
  rw [hresult.content_eq_some_iff, entries_replaceAll (nodup_tag hl'), Option.or_eq_some_iff,
    hsrc.content_eq_some_iff, h.content_eq_some_iff, content_eq_none_iff]
  constructor
  · rintro ⟨p, hp, hk, rfl⟩
    rcases List.mem_append.mp hp with hold | hnew
    · obtain ⟨hp, htag⟩ := List.mem_filter.mp hold
      have hfold := (forall_tag_ne_iff hag hp).mp (of_decide_eq_true htag)
      refine .inr ⟨fun q hq hqk ↦ ?_, p, hp, hk, rfl⟩
      exact hfold q (hl.mem_iff.mpr hq) (hk.trans hqk.symm)
    · exact .inl ⟨p, hl.mem_iff.mp hnew, hk, rfl⟩
  · rintro (⟨p, hp, hk, rfl⟩ | ⟨hnone, p, hp, hk, rfl⟩)
    · exact ⟨p, List.mem_append_right _ (hl.mem_iff.mpr hp), hk, rfl⟩
    · refine ⟨p, List.mem_append_left _ (List.mem_filter.mpr ⟨hp, ?_⟩), hk, rfl⟩
      refine decide_eq_true ((forall_tag_ne_iff hag hp).mpr fun q hq hpq ↦ ?_)
      exact hnone q (hl.mem_iff.mp hq) (hpq.symm.trans hk)

end

end HashTable
