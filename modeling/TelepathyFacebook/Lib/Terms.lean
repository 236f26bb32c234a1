import Mathlib.Data.List.Basic
import Mathlib.Tactic.Common

/-!
# Terms and their text

Names, calls and terms in parentheses, as a program text has them.  The text of a term says where
the term ends, so that different terms have different texts.
-/

namespace TelepathyFacebook

namespace Terms

def IsDelimiter (c : Char) : Prop := c = ',' ∨ c = '(' ∨ c = ')' ∨ c = ' '

instance : DecidablePred IsDelimiter := fun _ ↦ inferInstanceAs (Decidable (_ ∨ _))

/-- A word of a text. -/
structure Token where
  text : List Char
  text_ne_nil : text ≠ []
  not_isDelimiter : ∀ c ∈ text, ¬ IsDelimiter c

/-- The characters can be a word. -/
def isWord (s : List Char) : Bool := s ≠ [] && s.all fun c ↦ ¬ IsDelimiter c

/-- The word of a literal. -/
def tok (s : String) (h : isWord s.toList = true := by rfl) : Token where
  text := s.toList
  text_ne_nil := of_decide_eq_true (Bool.and_eq_true_iff.mp h).1
  not_isDelimiter c hc :=
    of_decide_eq_true (List.all_eq_true.mp (Bool.and_eq_true_iff.mp h).2 c hc)

theorem Token.ext' {n n' : Token} (h : n.text = n'.text) : n = n' := by
  cases n
  cases n'
  cases h
  rfl

inductive Term where
  | name (n : Token)
  | call (f : Token) (arg : Term) (args : List Term)
  | paren (e : Term)

namespace Term

mutual

/-- The text of a term. -/
def print : Term → List Char
  | .name n => n.text
  | .call f arg args => f.text ++ ' ' :: '(' :: (print arg ++ printRest args)
  | .paren e => '(' :: (print e ++ [')'])

/-- The text behind the first argument. -/
def printRest : List Term → List Char
  | [] => [')']
  | e :: es => ',' :: ' ' :: (print e ++ printRest es)

end

/-- What can follow on a term. -/
def Ends (s : List Char) : Prop := ∀ c ∈ s.head?, c = ',' ∨ c = ')'

theorem ends_nil : Ends [] := fun _ h ↦ nomatch h

theorem ends_paren (s : List Char) : Ends (')' :: s) := by
  rintro c ⟨⟩
  exact .inr rfl

theorem ends_printRest (es : List Term) (s : List Char) : Ends (printRest es ++ s) := by
  cases es with
  | nil => exact ends_paren s
  | cons e es =>
      rintro c ⟨⟩
      exact .inl rfl

theorem Ends.isDelimiter {s : List Char} (h : Ends s) : ∀ c ∈ s.head?, IsDelimiter c :=
  fun c hc ↦ (h c hc).elim .inl fun hc ↦ .inr (.inr (.inl hc))

theorem Ends.ne_space {s : List Char} (h : Ends s) (s' : List Char) : s ≠ ' ' :: s' := by
  rintro rfl
  obtain hc | hc := h ' ' rfl <;> cases hc

theorem takeWhile_token (n : Token) {s : List Char} (hs : ∀ c ∈ s.head?, IsDelimiter c) :
    (n.text ++ s).takeWhile (fun c ↦ ¬ IsDelimiter c) = n.text := by
  have htext : ∀ c ∈ n.text, decide (¬ IsDelimiter c) = true :=
    fun c hc ↦ decide_eq_true (n.not_isDelimiter c hc)
  have hrest : s.takeWhile (fun c ↦ ¬ IsDelimiter c) = [] := by
    cases s with
    | nil => rfl
    | cons c s => exact List.takeWhile_cons_of_neg (by simpa using hs c rfl)
  rw [List.takeWhile_append_of_pos htext, hrest, List.append_nil]

/-- A word goes on to the first delimiter. -/
theorem token_append_inj {n n' : Token} {s s' : List Char} (hs : ∀ c ∈ s.head?, IsDelimiter c)
    (hs' : ∀ c ∈ s'.head?, IsDelimiter c) (h : n.text ++ s = n'.text ++ s') :
    n = n' ∧ s = s' := by
  have htext : n.text = n'.text := by rw [← takeWhile_token n hs, h, takeWhile_token n' hs']
  rw [htext] at h
  exact ⟨Token.ext' htext, List.append_cancel_left h⟩

theorem token_append_ne (n : Token) (s s' : List Char) : n.text ++ s ≠ '(' :: s' := by
  intro h
  obtain ⟨c, t, ht⟩ := List.exists_cons_of_ne_nil n.text_ne_nil
  rw [ht, List.cons_append, List.cons.injEq] at h
  exact n.not_isDelimiter c (ht ▸ List.mem_cons_self ..) (.inr (.inl h.1))

theorem isDelimiter_call (s : List Char) : ∀ c ∈ (' ' :: s).head?, IsDelimiter c := by
  rintro c ⟨⟩
  exact .inr (.inr (.inr rfl))

mutual

/-- The text of a term is no beginning of the text of another one and what follows on it. -/
theorem print_append_inj : ∀ (e e' : Term) {s s' : List Char}, Ends s → Ends s' →
    print e ++ s = print e' ++ s' → e = e' ∧ s = s'
  | .name n, .name n', s, s', hs, hs', h => by
      obtain ⟨rfl, rfl⟩ := token_append_inj hs.isDelimiter hs'.isDelimiter h
      exact ⟨rfl, rfl⟩
  | .name n, .call f arg args, s, s', hs, _, h => by
      rw [print, print, List.append_assoc, List.cons_append] at h
      exact absurd (token_append_inj hs.isDelimiter (isDelimiter_call _) h).2 (hs.ne_space _)
  | .call f arg args, .name n, s, s', _, hs', h => by
      rw [print, print, List.append_assoc, List.cons_append] at h
      exact absurd (token_append_inj (isDelimiter_call _) hs'.isDelimiter h).2.symm
        (hs'.ne_space _)
  | .name n, .paren e, s, s', _, _, h => absurd h (token_append_ne n _ _)
  | .paren e, .name n, s, s', _, _, h => absurd h.symm (token_append_ne n _ _)
  | .call f arg args, .paren e, s, s', _, _, h => by
      rw [print, List.append_assoc] at h
      exact absurd h (token_append_ne f _ _)
  | .paren e, .call f arg args, s, s', _, _, h => by
      rw [print, print, List.append_assoc] at h
      exact absurd h.symm (token_append_ne f _ _)
  | .call f arg args, .call f' arg' args', s, s', _, _, h => by
      simp only [print, List.append_assoc, List.cons_append] at h
      obtain ⟨rfl, hargs⟩ := token_append_inj (isDelimiter_call _) (isDelimiter_call _) h
      obtain ⟨rfl, hrest⟩ := print_append_inj arg arg' (ends_printRest _ _) (ends_printRest _ _)
        (List.cons.inj (List.cons.inj hargs).2).2
      obtain ⟨rfl, rfl⟩ := printRest_append_inj args args' hrest
      exact ⟨rfl, rfl⟩
  | .paren e, .paren e', s, s', _, _, h => by
      simp only [print, List.append_assoc, List.cons_append, List.nil_append] at h
      obtain ⟨rfl, hrest⟩ := print_append_inj e e' (ends_paren _) (ends_paren _)
        (List.cons.inj h).2
      exact ⟨rfl, (List.cons.inj hrest).2⟩

theorem printRest_append_inj : ∀ (es es' : List Term) {s s' : List Char},
    printRest es ++ s = printRest es' ++ s' → es = es' ∧ s = s'
  | [], [], s, s', h => ⟨rfl, (List.cons.inj h).2⟩
  | [], _ :: _, s, s', h => absurd (List.cons.inj h).1 (by decide)
  | _ :: _, [], s, s', h => absurd (List.cons.inj h).1 (by decide)
  | e :: es, e' :: es', s, s', h => by
      simp only [printRest, List.append_assoc, List.cons_append] at h
      obtain ⟨rfl, hrest⟩ := print_append_inj e e' (ends_printRest _ _) (ends_printRest _ _)
        (List.cons.inj (List.cons.inj h).2).2
      obtain ⟨rfl, rfl⟩ := printRest_append_inj es es' hrest
      exact ⟨rfl, rfl⟩

end

theorem print_injective : Function.Injective print := fun e e' h ↦
  (print_append_inj e e' ends_nil ends_nil (congrArg (· ++ []) h)).1

end Term

end Terms

end TelepathyFacebook
