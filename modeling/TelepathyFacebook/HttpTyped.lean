import TelepathyFacebook.HttpValues

/-!
# Typed values in HTTP tables

The typed getters and setters of `bitlbee-compat/fb-http-values.c`, and `bool2int` of
`bitlbee-compat/compat.c`.  A getter returns a value and sets an error or none; a
`gboolean` is returned as the `int` that it is.

`typedAccess_iff`: numbers and strings come back as they were set, under every name.
`fb_http_values_get_bool` hands the name to `bool2int`, not the value that it has found
under it, so a flag comes back when the name happens to spell it.
-/

namespace TelepathyFacebook

/-! ## Reading a flag -/

/-- `g_ascii_strncasecmp`. -/
def gAsciiStrncasecmp : List UInt8 → List UInt8 → Nat → Int
  | _, _, 0 => 0
  | [], [], _ + 1 => 0
  | c :: _, [], _ + 1 => c.toNat
  | [], c :: _, _ + 1 => - c.toNat
  | c₁ :: s₁, c₂ :: s₂, n + 1 =>
      if toLower c₁ ≠ toLower c₂ then (toLower c₁).toNat - (toLower c₂).toNat
      else gAsciiStrncasecmp s₁ s₂ n

/-- `sscanf(str, "%d", &i)`, `none` unless it reads a number.  One that is out of range is
read by `strtol` and cut, as the C library does. -/
def sscanfInt (str : String) : Option Int32 := (strtol str).map Int64.toInt32

/-- `bool2int`. -/
def bool2int (value : String) : Int32 :=
  let starts (word : String) (n : Nat) : Bool :=
    gAsciiStrncasecmp (cBytes value) (cBytes word) n = 0
  if starts "true" 4 || starts "yes" 3 || starts "on" 2 then 1
  else if starts "false" 5 || starts "no" 2 || starts "off" 3 then 0
  else (sscanfInt value).getD 0

/-- `TRUE` and `FALSE`. -/
def gboolean (b : Bool) : Int32 := if b then 1 else 0

/-- A text starts with a word, but for case. -/
def StartsWith (word text : String) : Prop :=
  (cBytes word).map toLower <+: (cBytes text).map toLower

/-- A text starts with a word for TRUE. -/
def Affirms (text : String) : Prop := ∃ word ∈ ["true", "yes", "on"], StartsWith word text

/-- A text starts with a word for FALSE. -/
def Denies (text : String) : Prop := ∃ word ∈ ["false", "no", "off"], StartsWith word text

/-- A text spells a flag: with a word for it in front, or else, if there is no word for the
other one, with the number of the flag; no number stands for zero. -/
def Spells (text : String) : Bool → Prop
  | true => Affirms text ∨ ¬ Denies text ∧ sscanfInt text = some 1
  | false => ¬ Affirms text ∧ (Denies text ∨ sscanfInt text = none ∨ sscanfInt text = some 0)

instance (word text : String) : Decidable (StartsWith word text) :=
  inferInstanceAs (Decidable (_ <+: _))

instance (text : String) : Decidable (Affirms text) :=
  inferInstanceAs (Decidable (∃ word ∈ _, _))

instance (text : String) : Decidable (Denies text) :=
  inferInstanceAs (Decidable (∃ word ∈ _, _))

/-- Comparing as many characters as a word has is asking for a prefix. -/
theorem gAsciiStrncasecmp_eq_zero_iff {a b : List UInt8} (ha : 0 ∉ a) (hb : 0 ∉ b) :
    gAsciiStrncasecmp a b b.length = 0 ↔ b.map toLower <+: a.map toLower := by
  induction b generalizing a with
  | nil => simp [gAsciiStrncasecmp]
  | cons c₂ s₂ ih =>
      cases a with
      | nil => simpa [gAsciiStrncasecmp] using toNat_ne_zero (List.ne_of_not_mem_cons hb)
      | cons c₁ s₁ =>
          have htail := ih (fun hm ↦ ha (List.mem_cons_of_mem _ hm))
            (fun hm ↦ hb (List.mem_cons_of_mem _ hm))
          rw [List.length_cons, gAsciiStrncasecmp, compare_eq_zero_iff, htail, List.map_cons,
            List.map_cons, List.cons_prefix_cons, eq_comm]

theorem starts_iff {word : String} {n : Nat} (hn : (cBytes word).length = n) (text : String) :
    gAsciiStrncasecmp (cBytes text) (cBytes word) n = 0 ↔ StartsWith word text := by
  rw [← hn]
  exact gAsciiStrncasecmp_eq_zero_iff (zero_notMem_cBytes text) (zero_notMem_cBytes word)

/-- `bool2int` looks for words first and for a number then. -/
theorem bool2int_eq (text : String) :
    bool2int text =
      if Affirms text then 1 else if Denies text then 0 else (sscanfInt text).getD 0 := by
  have htrue := starts_iff (show (cBytes "true").length = 4 by decide) text
  have hyes := starts_iff (show (cBytes "yes").length = 3 by decide) text
  have hon := starts_iff (show (cBytes "on").length = 2 by decide) text
  have hfalse := starts_iff (show (cBytes "false").length = 5 by decide) text
  have hno := starts_iff (show (cBytes "no").length = 2 by decide) text
  have hoff := starts_iff (show (cBytes "off").length = 3 by decide) text
  rw [bool2int]
  refine if_congr ?_ rfl (if_congr ?_ rfl rfl)
  · simp [Affirms, htrue, hyes, hon, or_assoc]
  · simp [Denies, hfalse, hno, hoff, or_assoc]

/-- **Flags** are read off the texts that spell them. -/
theorem bool2int_eq_gboolean_iff (text : String) (b : Bool) :
    bool2int text = gboolean b ↔ Spells text b := by
  rw [bool2int_eq]
  by_cases haffirms : Affirms text
  · cases b <;> simp [gboolean, Spells, haffirms]
  · by_cases hdenies : Denies text
    · cases b <;> simp [gboolean, Spells, haffirms, hdenies]
    · cases hn : sscanfInt text <;> cases b <;> simp [gboolean, Spells, haffirms, hdenies, hn]

/-- The texts that `fb_http_values_set_bool` stores are read as the flags that they are
for. -/
theorem bool2int_text (b : Bool) : bool2int (if b then "true" else "false") = gboolean b := by
  cases b with
  | false => decide
  | true => decide

/-! ## Getters -/

/-- A typed getter: `neutral` where `fb_http_values_get` fails, else what is made of the
value that is found. -/
def getTyped {β : Type} (neutral : β) (read : String → β) (values : FbHttpValues)
    (name : String) : β × Option HttpError :=
  match fbHttpValuesGet values name with
  | .error e => (neutral, some e)
  | .ok val => (read val, none)

/-- `fb_http_values_get_bool`: it is the name that is read. -/
def fbHttpValuesGetBool (values : FbHttpValues) (name : String) : Int32 × Option HttpError :=
  getTyped 0 (fun _ ↦ bool2int name) values name

/-- `fb_http_values_get_int`. -/
def fbHttpValuesGetInt (values : FbHttpValues) (name : String) : Int64 × Option HttpError :=
  getTyped 0 (fun val ↦ (gAsciiStrtoll val).getD 0) values name

/-- `fb_http_values_get_str`; `none` is NULL. -/
def fbHttpValuesGetStr (values : FbHttpValues) (name : String) :
    Option String × Option HttpError :=
  getTyped none some values name

variable {β : Type} {neutral : β} {read : String → β} {values : FbHttpValues} {name name' : String}

/-- What is stored under a name is found under it. -/
theorem fbHttpValuesGet_set (values : FbHttpValues) (name value : String) :
    fbHttpValuesGet (fbHttpValuesSet values name value) name = .ok value := by
  rw [fbHttpValuesGet, fbHttpValuesSet, HashTable.lookup_replace_self]
  rfl

theorem getTyped_of_ok {val : String} (h : fbHttpValuesGet values name = .ok val) :
    getTyped neutral read values name = (read val, none) := by
  rw [getTyped, h]

theorem getTyped_of_error {e : HttpError} (h : fbHttpValuesGet values name = .error e) :
    getTyped neutral read values name = (neutral, some e) := by
  rw [getTyped, h]

/-- **Round trip** of a text. -/
theorem getTyped_set (values : FbHttpValues) (name value : String) :
    getTyped neutral read (fbHttpValuesSet values name value) name = (read value, none) :=
  getTyped_of_ok (fbHttpValuesGet_set values name value)

/-! ## Typed access -/

/-- A getter regards the value that is stored and not the name or the rest of the table. -/
def ValueOnly (get : FbHttpValues → String → β × Option HttpError) (name name' : String) : Prop :=
  ∀ (values values' : FbHttpValues) (val : String), fbHttpValuesGet values name = .ok val →
    fbHttpValuesGet values' name' = .ok val → get values name = get values' name'

/-- A getter reports a missing name, and returns the neutral value. -/
def ReportsMissing (get : FbHttpValues → String → β × Option HttpError) (neutral : β)
    (values : FbHttpValues) (name : String) : Prop :=
  values.lookup name = none →
    get values name = (neutral, some (.nomatch ("No matches for " ++ name)))

theorem valueOnly_getTyped : ValueOnly (getTyped neutral read) name name' := by
  intro values values' val h h'
  rw [getTyped_of_ok h, getTyped_of_ok h']

theorem reportsMissing_getTyped : ReportsMissing (getTyped neutral read) neutral values name := by
  intro h
  apply getTyped_of_error
  rw [fbHttpValuesGet, h]
  rfl

/-- The getter of flags regards the value only where the names read alike. -/
theorem valueOnly_getBool_iff :
    ValueOnly fbHttpValuesGetBool name name' ↔ bool2int name' = bool2int name := by
  constructor
  · intro h
    have heq := h _ _ "" (fbHttpValuesGet_set fbHttpValuesNew name "")
      (fbHttpValuesGet_set fbHttpValuesNew name' "")
    rw [fbHttpValuesGetBool, fbHttpValuesGetBool, getTyped_set, getTyped_set] at heq
    exact (congrArg Prod.fst heq).symm
  · intro heq values values' val h h'
    rw [fbHttpValuesGetBool, fbHttpValuesGetBool, getTyped_of_ok h, getTyped_of_ok h', heq]

/-- What typed access to a table promises, for a flag, a number and a string. -/
structure TypedAccess (values : FbHttpValues) (name name' : String) (b : Bool) (i : Int64)
    (s : String) : Prop where
  bool : fbHttpValuesGetBool (fbHttpValuesSetBool values name b) name = (gboolean b, none)
  int : fbHttpValuesGetInt (fbHttpValuesSetInt values name i) name = (i, none)
  str : fbHttpValuesGetStr (fbHttpValuesSetStr values name s) name = (some s, none)
  bool_valueOnly : ValueOnly fbHttpValuesGetBool name name'
  int_valueOnly : ValueOnly fbHttpValuesGetInt name name'
  str_valueOnly : ValueOnly fbHttpValuesGetStr name name'
  bool_missing : ReportsMissing fbHttpValuesGetBool 0 values name
  int_missing : ReportsMissing fbHttpValuesGetInt 0 values name
  str_missing : ReportsMissing fbHttpValuesGetStr none values name

/-- **Typed access** keeps its promises for a table, a name and another, a flag, a number
and a string if and only if both names spell the flag. -/
theorem typedAccess_iff (values : FbHttpValues) (name name' : String) (b : Bool) (i : Int64)
    (s : String) :
    TypedAccess values name name' b i s ↔ Spells name b ∧ Spells name' b := by
  have hbool : fbHttpValuesGetBool (fbHttpValuesSetBool values name b) name =
      (bool2int name, none) := getTyped_set values name _
  rw [← bool2int_eq_gboolean_iff, ← bool2int_eq_gboolean_iff]
  constructor
  · intro h
    have hname : bool2int name = gboolean b := congrArg Prod.fst (hbool.symm.trans h.bool)
    exact ⟨hname, (valueOnly_getBool_iff.mp h.bool_valueOnly).trans hname⟩
  · rintro ⟨hname, hname'⟩
    exact
      { bool := by rw [hbool, hname]
        int := by
          rw [fbHttpValuesGetInt, fbHttpValuesSetInt, getTyped_set, gAsciiStrtoll_formatInt64,
            Option.getD_some]
        str := getTyped_set values name s
        bool_valueOnly := valueOnly_getBool_iff.mpr (hname'.trans hname.symm)
        int_valueOnly := valueOnly_getTyped
        str_valueOnly := valueOnly_getTyped
        bool_missing := reportsMissing_getTyped
        int_missing := reportsMissing_getTyped
        str_missing := reportsMissing_getTyped }

/-- A flag that is set under "active" comes back cleared. -/
theorem flag_lost : ¬ TypedAccess fbHttpValuesNew "active" "active" true 0 "" := by
  intro h
  exact absurd h.bool (by decide)

end TelepathyFacebook
