import TelepathyFacebook.Lib.Letters
import TelepathyFacebook.Protocol

/-!
# The grammar of login ids

What `filter_fb_id` is meant to accept: an email address or a phone number, and nothing
after it.  `filtersExactly_iff` says that it does so but for one kind of input: since `$`
also matches before a final newline, a login id may be followed by one.
-/

namespace TelepathyFacebook

open RegularExpression

/-! ## The grammar -/

/-- An email address. -/
def IsEmail (s : List Char) : Prop :=
  ∃ user run label : List Char, s = user ++ '@' :: (run ++ '.' :: label) ∧
    (user ≠ [] ∧ ∀ c ∈ user, c.isAlphanum ∨ c ∈ ['.', '_', '%', '+', '-']) ∧
    (run ≠ [] ∧ ∀ c ∈ run, c.isAlphanum ∨ c ∈ ['.', '-']) ∧
    2 ≤ label.length ∧ ∀ c ∈ label, c.isAlpha

/-- A phone number. -/
def IsPhone (s : List Char) : Prop :=
  ∃ number : List Char, (s = number ∨ s = '+' :: number) ∧
    (7 ≤ number.length ∧ number.length ≤ 15) ∧ ∀ c ∈ number, c.isDigit

/-- A login id. -/
def IsLoginId (s : List Char) : Prop := IsEmail s ∨ IsPhone s

/-- The characters with the Unicode property `White_Space`; all line breaks are there. -/
def whiteSpace : List Char :=
  charRange '\u0009' '\u000d' ++ [' ', '\u0085', '\u00a0', '\u1680'] ++
    charRange '\u2000' '\u200a' ++ ['\u2028', '\u2029', '\u202f', '\u205f', '\u3000']

/-! ## Character classes -/

theorem mem_charRange {first last c : Char} (h : first.toNat ≤ last.toNat)
    (hvalid : last.toNat < 0xd800) :
    c ∈ charRange first last ↔ first.toNat ≤ c.toNat ∧ c.toNat ≤ last.toNat := by
  rw [charRange, List.mem_map]
  constructor
  · rintro ⟨i, hi, rfl⟩
    have hlt := List.mem_range.mp hi
    have hchar : (first.toNat + i).isValidChar := .inl (by omega)
    have hnat : (Char.ofNat (first.toNat + i)).toNat = first.toNat + i := by
      rw [Char.ofNat, dif_pos hchar]
      rfl
    omega
  · rintro ⟨hfirst, hlast⟩
    refine ⟨c.toNat - first.toNat, List.mem_range.mpr (by omega), ?_⟩
    rw [Nat.add_sub_cancel' hfirst, Char.ofNat_toNat]

theorem isAlpha_iff {c : Char} :
    c.isAlpha ↔
      ('A'.toNat ≤ c.toNat ∧ c.toNat ≤ 'Z'.toNat) ∨ ('a'.toNat ≤ c.toNat ∧ c.toNat ≤ 'z'.toNat) :=
  Bool.or_eq_true_iff.trans <| or_congr decide_eq_true_iff <|
    Bool.and_eq_true_iff.trans (and_congr decide_eq_true_iff decide_eq_true_iff)

theorem isDigit_iff {c : Char} : c.isDigit ↔ '0'.toNat ≤ c.toNat ∧ c.toNat ≤ '9'.toNat :=
  Bool.and_eq_true_iff.trans (and_congr decide_eq_true_iff decide_eq_true_iff)

theorem mem_letters {c : Char} : c ∈ letters ↔ c.isAlpha := by
  rw [letters, List.mem_append, mem_charRange (by decide) (by decide),
    mem_charRange (by decide) (by decide), or_comm, isAlpha_iff]

theorem mem_digits {c : Char} : c ∈ digits ↔ c.isDigit := by
  rw [digits, mem_charRange (by decide) (by decide), isDigit_iff]

/-- The classes of the email pattern: letters, digits and some other characters. -/
theorem mem_letters_digits {c : Char} {others : List Char} :
    c ∈ letters ++ digits ++ others ↔ c.isAlphanum ∨ c ∈ others := by
  rw [List.mem_append, List.mem_append, mem_letters, mem_digits, Char.isAlphanum,
    Bool.or_eq_true]

/-- Neither space nor control nor beyond ASCII. -/
def IsGraphic (c : Char) : Prop := 0x21 ≤ c.toNat ∧ c.toNat ≤ 0x7e

instance (c : Char) : Decidable (IsGraphic c) := inferInstanceAs (Decidable (_ ∧ _))

theorem isGraphic_of_isAlphanum {c : Char} (h : c.isAlphanum) : IsGraphic c := by
  have hrange := Bool.or_eq_true_iff.mp h
  rw [isAlpha_iff, isDigit_iff] at hrange
  simp only [Char.reduceToNat] at hrange
  rw [IsGraphic]
  omega

/-- White space is not graphic. -/
theorem not_isGraphic_of_mem_whiteSpace {c : Char} (h : c ∈ whiteSpace) : ¬ IsGraphic c := by
  have hspaces : ∀ c ∈ [' ', '\u0085', '\u00a0', '\u1680'], ¬ IsGraphic c := by
    simp [IsGraphic]
  have hseparators : ∀ c ∈ ['\u2028', '\u2029', '\u202f', '\u205f', '\u3000'], ¬ IsGraphic c := by
    simp [IsGraphic]
  rw [whiteSpace, List.mem_append, List.mem_append, List.mem_append,
    mem_charRange (by decide) (by decide), mem_charRange (by decide) (by decide)] at h
  rcases h with ((h | h) | h) | h
  · simp only [Char.reduceToNat] at h
    rw [IsGraphic]
    omega
  · exact hspaces c h
  · simp only [Char.reduceToNat] at h
    rw [IsGraphic]
    omega
  · exact hseparators c h

/-! ## Patterns -/

theorem matches'_charClass (cs : List Char) :
    (charClass cs).matches' = Letters.letter {c | c ∈ cs} := by
  induction cs with
  | nil =>
      ext w
      refine iff_of_false id ?_
      rintro ⟨a, ha, -⟩
      exact List.not_mem_nil ha
  | cons c cs ih =>
      ext w
      show w ∈ (char c + charClass cs).matches' ↔ _
      rw [matches'_add, matches'_char, ih, Language.mem_add]
      constructor
      · rintro (rfl | ⟨a, ha, rfl⟩)
        · exact ⟨c, List.mem_cons_self, rfl⟩
        · exact ⟨a, List.mem_cons_of_mem _ ha, rfl⟩
      · rintro ⟨a, ha, rfl⟩
        rcases List.mem_cons.mp ha with rfl | ha
        · exact .inl rfl
        · exact .inr ⟨a, ha, rfl⟩

variable {cs : List Char} {w : List Char} {m n : Nat}

theorem mem_oneOrMore :
    w ∈ (oneOrMore (charClass cs)).matches' ↔ w ≠ [] ∧ ∀ c ∈ w, c ∈ cs := by
  rw [oneOrMore, matches'_mul, matches'_star, matches'_charClass]
  exact Letters.mem_mul_kstar

theorem mem_atLeast :
    w ∈ (atLeast n (charClass cs)).matches' ↔ n ≤ w.length ∧ ∀ c ∈ w, c ∈ cs := by
  rw [atLeast, matches'_mul, matches'_pow, matches'_star, matches'_charClass]
  exact Letters.mem_pow_mul_kstar

theorem mem_between (h : m ≤ n) :
    w ∈ (between m n (charClass cs)).matches' ↔
      (m ≤ w.length ∧ w.length ≤ n) ∧ ∀ c ∈ w, c ∈ cs := by
  rw [between, matches'_mul, matches'_pow, matches'_pow, optional, matches'_add,
    matches'_epsilon, matches'_charClass]
  exact Letters.mem_pow_mul_optional_pow h

/-- **Email addresses.** -/
theorem rmatch_regexEmail_iff (s : List Char) : regexEmail.rmatch s ↔ IsEmail s := by
  rw [rmatch_iff_matches', regexEmail]
  simp only [matches'_mul, mul_assoc, matches'_char]
  constructor
  · rintro ⟨user, huser, _, ⟨_, rfl, _, ⟨run, hrun, _,
      ⟨_, rfl, label, hlabel, rfl⟩, rfl⟩, rfl⟩, rfl⟩
    have huser' := mem_oneOrMore.mp huser
    have hrun' := mem_oneOrMore.mp hrun
    have hlabel' := mem_atLeast.mp hlabel
    simp only [mem_letters_digits, mem_letters] at huser' hrun' hlabel'
    exact ⟨user, run, label, rfl, huser', hrun', hlabel'⟩
  · rintro ⟨user, run, label, rfl, huser, hrun, hlabel⟩
    simp only [← mem_letters_digits, ← mem_letters] at huser hrun hlabel
    refine ⟨user, mem_oneOrMore.mpr huser, _, ⟨['@'], rfl, _, ⟨run, mem_oneOrMore.mpr hrun, _,
      ⟨['.'], rfl, label, mem_atLeast.mpr hlabel, rfl⟩, rfl⟩, rfl⟩, rfl⟩

/-- **Phone numbers.** -/
theorem rmatch_regexPhone_iff (s : List Char) : regexPhone.rmatch s ↔ IsPhone s := by
  rw [rmatch_iff_matches', regexPhone, optional, matches'_mul, matches'_add, matches'_epsilon,
    matches'_char]
  have hall (number : List Char) :
      number ∈ (between 7 15 (charClass digits)).matches' ↔
        (7 ≤ number.length ∧ number.length ≤ 15) ∧ ∀ c ∈ number, c.isDigit := by
    simp only [mem_between (show 7 ≤ 15 by decide), mem_digits]
  constructor
  · rintro ⟨_, rfl | rfl, number, hnumber, rfl⟩
    · exact ⟨number, .inl rfl, (hall number).mp hnumber⟩
    · exact ⟨number, .inr rfl, (hall number).mp hnumber⟩
  · rintro ⟨number, rfl | rfl, hnumber⟩
    · exact ⟨[], .inl rfl, _, (hall _).mpr hnumber, rfl⟩
    · exact ⟨['+'], .inr rfl, number, (hall number).mpr hnumber, rfl⟩

/-! ## The filter -/

/-- `$` matches at the end and before a final newline. -/
theorem gRegexMatch_iff (r : RegularExpression Char) (input : String) :
    gRegexMatch r input ↔
      r.rmatch input.toList ∨
        ∃ newline ∈ newlines, ∃ s, r.rmatch s ∧ input.toList = s ++ newline := by
  rw [gRegexMatch, Bool.or_eq_true, List.any_eq_true]
  refine or_congr_right (exists_congr fun newline ↦ and_congr_right fun _ ↦ ?_)
  rw [Bool.and_eq_true, List.isSuffixOf_iff_suffix]
  constructor
  · rintro ⟨hsuffix, hmatch⟩
    exact ⟨_, hmatch, (List.suffix_iff_eq_append.mp hsuffix).symm⟩
  · rintro ⟨s, hmatch, hs⟩
    refine ⟨⟨s, hs.symm⟩, ?_⟩
    rwa [hs, List.length_append, Nat.add_sub_cancel_right, List.take_left' rfl]

/-- What the filter accepts. -/
theorem filterFbId_eq_ok_iff (input : String) :
    filterFbId input = .ok () ↔
      IsLoginId input.toList ∨
        ∃ newline ∈ newlines, ∃ s, IsLoginId s ∧ input.toList = s ++ newline := by
  have hmatch : filterFbId input = .ok () ↔
      gRegexMatch regexEmail input ∨ gRegexMatch regexPhone input := by
    rw [filterFbId]
    split
    · next h => simp [h]
    · next h =>
        split
        · next h' => simp [h']
        · next h' => simp [h, h']
  rw [hmatch, gRegexMatch_iff, gRegexMatch_iff]
  simp only [rmatch_regexEmail_iff, rmatch_regexPhone_iff, IsLoginId, or_and_right, exists_or,
    and_or_left]
  exact or_or_or_comm

/-- The characters of a login id. -/
theorem IsLoginId.isGraphic {s : List Char} (h : IsLoginId s) {c : Char} (hc : c ∈ s) :
    IsGraphic c := by
  have hother {others : List Char} (hothers : ∀ c ∈ others, IsGraphic c)
      (h : c.isAlphanum ∨ c ∈ others) : IsGraphic c :=
    h.elim isGraphic_of_isAlphanum (hothers c)
  have hdigit (h : c.isDigit) : IsGraphic c :=
    isGraphic_of_isAlphanum (by rw [Char.isAlphanum, h, Bool.or_true])
  rcases h with ⟨user, run, label, rfl, ⟨-, huser⟩, ⟨-, hrun⟩, -, hlabel⟩ | ⟨number, hs, -, hnumber⟩
  · rw [List.mem_append, List.mem_cons, List.mem_append, List.mem_cons] at hc
    rcases hc with hc | rfl | hc | rfl | hc
    · exact hother (by simp [IsGraphic]) (huser c hc)
    · decide
    · exact hother (by simp [IsGraphic]) (hrun c hc)
    · decide
    · exact isGraphic_of_isAlphanum (by rw [Char.isAlphanum, hlabel c hc, Bool.true_or])
  · rcases hs with rfl | rfl
    · exact hdigit (hnumber c hc)
    · rcases List.mem_cons.mp hc with rfl | hc
      · decide
      · exact hdigit (hnumber c hc)

/-- A login id does not end in a newline. -/
theorem not_isLoginId_append {s newline : List Char} (hn : newline ∈ newlines) :
    ¬ IsLoginId (s ++ newline) := by
  have hcontrol : ∀ newline ∈ newlines, ∃ c ∈ newline, ¬ IsGraphic c := by
    simp [newlines, IsGraphic]
  obtain ⟨c, hc, hnot⟩ := hcontrol newline hn
  exact fun h ↦ hnot (h.isGraphic (List.mem_append_right s hc))

/-- The filter accepts an input if and only if it is a login id from end to end, it sets the
error otherwise, and what it accepts has no white space. -/
structure FiltersExactly (input : String) : Prop where
  accepts : filterFbId input = .ok () ↔ IsLoginId input.toList
  refuses : (∃ e, filterFbId input = .error e) ↔ ¬ IsLoginId input.toList
  noWhiteSpace : filterFbId input = .ok () → ∀ c ∈ input.toList, c ∉ whiteSpace

/-- The error is set exactly when the input is not accepted. -/
theorem exists_filterFbId_eq_error_iff (input : String) :
    (∃ e, filterFbId input = .error e) ↔ filterFbId input ≠ .ok () := by
  cases filterFbId input with
  | error e => exact iff_of_true ⟨e, rfl⟩ nofun
  | ok u => exact iff_of_false nofun fun h ↦ h rfl

/-- **The login filter** accepts exactly its grammar on an input if and only if the input is
not a login id and a newline behind it. -/
theorem filtersExactly_iff (input : String) :
    FiltersExactly input ↔
      ∀ newline ∈ newlines, ∀ s, IsLoginId s → input.toList ≠ s ++ newline := by
  constructor
  · intro h newline hn s hs heq
    have hok := (filterFbId_eq_ok_iff input).mpr (.inr ⟨newline, hn, s, hs, heq⟩)
    have hlogin := h.accepts.mp hok
    rw [heq] at hlogin
    exact not_isLoginId_append hn hlogin
  · intro h
    have haccepts : filterFbId input = .ok () ↔ IsLoginId input.toList := by
      rw [filterFbId_eq_ok_iff, or_iff_left]
      rintro ⟨newline, hn, s, hs, heq⟩
      exact h newline hn s hs heq
    refine ⟨haccepts, ?_, fun hok c hc hw ↦ ?_⟩
    · rw [exists_filterFbId_eq_error_iff, Ne, haccepts]
    · exact not_isGraphic_of_mem_whiteSpace hw ((haccepts.mp hok).isGraphic hc)

/-- An address with a line feed behind it is accepted. -/
theorem newline_accepted : ¬ FiltersExactly "a@b.co\n" := by
  intro h
  have hok : filterFbId "a@b.co\n" = .ok () := rfl
  exact h.noWhiteSpace hok '\n' (by decide) (by decide)

end TelepathyFacebook
