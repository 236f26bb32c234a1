import TelepathyFacebook.ConnectionData

/-!
# Typed values in the connection data

The typed getters and setters of `tp/connection-data.c` store numbers and flags as text.

* `typed_round_trip`: a getter reads back what the setter of its type has stored, over the
  whole range of the type, and a setter changes nothing under other keys.
* `fallsBack_iff`: the header promises the default for a malformed number, but the getters
  only look whether the text starts with a number.
-/

namespace TelepathyFacebook

namespace ConnectionData

variable {data : DataTable} {table table' : Option DataTable} {key key' : String}

/-! ## Storing -/

/-- A call of a setter, but for its key. -/
inductive SetCall where
  | string (value : Option String)
  | int (value : Int32)
  | int64 (value : Int64)
  | uint64 (value : UInt64)
  | bool (value : Bool)

/-- The table after the call. -/
def SetCall.run (table : Option DataTable) (key : String) : SetCall → Option DataTable
  | .string value => setString table key value
  | .int value => setInt table key value
  | .int64 value => setInt64 table key value
  | .uint64 value => setUint64 table key value
  | .bool value => setBool table key value

/-- All getters return the same under a key, whatever the default. -/
structure SameUnder (table table' : Option DataTable) (key : String) : Prop where
  string : getString table key = getString table' key
  int : ∀ default, getInt table key default = getInt table' key default
  int64 : ∀ default, getInt64 table key default = getInt64 table' key default
  uint64 : ∀ default, getUint64 table key default = getUint64 table' key default
  bool : ∀ default, getBool table key default = getBool table' key default

/-- Every getter goes through `fb_connection_data_get_string`. -/
theorem SameUnder.of_getString (h : getString table key = getString table' key) :
    SameUnder table table' key where
  string := h
  int default := by rw [getInt, getInt, h]
  int64 default := by rw [getInt64, getInt64, h]
  uint64 default := by rw [getUint64, getUint64, h]
  bool default := by rw [getBool, getBool, h]

/-- What is stored is found. -/
@[simp] theorem getString_setString_self (data : DataTable) (key value : String) :
    getString (setString (some data) key (some value)) key = some value := by
  simp [getString, setString]

/-- Storing changes nothing under another key. -/
theorem getString_setString_of_ne (h : key' ≠ key) (value : Option String) :
    getString (setString table key value) key' = getString table key' := by
  cases table with
  | none => rfl
  | some data =>
      cases value with
      | none => rfl
      | some value => simp [getString, setString, AList.lookup_insert_ne h]

/-- Every setter goes through `fb_connection_data_set_string`. -/
theorem SetCall.exists_run_eq (c : SetCall) (table : Option DataTable) (key : String) :
    ∃ value, c.run table key = setString table key value := by
  cases c with
  | string value => exact ⟨value, rfl⟩
  | int value => exact ⟨_, rfl⟩
  | int64 value => exact ⟨_, rfl⟩
  | uint64 value => exact ⟨_, rfl⟩
  | bool value => exact ⟨_, rfl⟩

/-- **Frame.**  A setter changes nothing that is read under another key. -/
theorem SetCall.sameUnder_run (c : SetCall) (table : Option DataTable) (h : key' ≠ key) :
    SameUnder (c.run table key) table key' := by
  obtain ⟨value, hrun⟩ := c.exists_run_eq table key
  rw [hrun]
  exact .of_getString (getString_setString_of_ne h value)

/-! ## Reading back -/

section

variable (data key)

theorem getInt_setInt (value default : Int32) :
    getInt (setInt (some data) key value) key default = value := by
  simp [getInt, setInt]

theorem getInt64_setInt64 (value default : Int64) :
    getInt64 (setInt64 (some data) key value) key default = value := by
  simp [getInt64, setInt64]

theorem getUint64_setUint64 (value default : UInt64) :
    getUint64 (setUint64 (some data) key value) key default = value := by
  simp [getUint64, setUint64]

theorem getBool_setBool (value default : Bool) :
    getBool (setBool (some data) key value) key default = value := by
  rw [getBool, setBool, getString_setString_self]
  cases value with
  | false => rfl
  | true => rfl

/-- The pair of the uid, which is stored unsigned and read signed. -/
theorem getInt64_setUint64 {value : UInt64} (h : value ≤ Int64.maxValue.toUInt64)
    (default : Int64) :
    (getInt64 (setUint64 (some data) key value) key default).toInt = value.toNat := by
  have hhigh : (value.toNat : Int) ≤ Int64.maxValue.toInt := by
    have hnat : value.toNat ≤ Int64.maxValue.toUInt64.toNat := UInt64.le_iff_toNat_le.mp h
    have hmax : (Int64.maxValue.toUInt64.toNat : Int) = Int64.maxValue.toInt := by decide
    omega
  have hlow : Int64.minValue.toInt ≤ value.toNat := le_trans (by decide) (Int.natCast_nonneg _)
  simp [getInt64, setUint64, gAsciiStrtoll_formatUint64_eq, Int64.toInt_ofIntClamp hlow hhigh]

/-- The buffer of `fb_connection_data_set_int`, of `G_ASCII_DTOSTR_BUF_SIZE` bytes, holds
every number and its terminator. -/
theorem length_formatInt_lt (value : Int32) : (formatInt value).length < 29 + 10 := by
  have hlow := value.le_toInt
  have hhigh := value.toInt_lt
  have hdigits : (Nat.toDigits 10 value.toInt.natAbs).length ≤ 10 :=
    (Nat.length_toDigits_le_iff (by decide) (by decide)).mpr (by omega)
  rw [formatInt, ← String.length_toList, Decimal.toList_toString_int, List.length_append]
  split
  · simp only [List.length_singleton]
    omega
  · simp only [List.length_nil]
    omega

/-- **Round trips.**  For every table, every key and every default, the getter of the same
type returns the value that was set; a uid, stored unsigned and read signed, comes back too;
and no setter changes what is read under another key. -/
theorem typed_round_trip :
    (∀ value default, getInt (setInt (some data) key value) key default = value) ∧
      (∀ value default, getInt64 (setInt64 (some data) key value) key default = value) ∧
      (∀ value default, getUint64 (setUint64 (some data) key value) key default = value) ∧
      (∀ value default, getBool (setBool (some data) key value) key default = value) ∧
      (∀ value ≤ Int64.maxValue.toUInt64, ∀ default,
        (getInt64 (setUint64 (some data) key value) key default).toInt = value.toNat) ∧
      ∀ (c : SetCall) (key' : String), key' ≠ key →
        SameUnder (c.run (some data) key) (some data) key' :=
  ⟨getInt_setInt data key, getInt64_setInt64 data key, getUint64_setUint64 data key,
    getBool_setBool data key, fun _ h ↦ getInt64_setUint64 data key h,
    fun c _ h ↦ c.sameUnder_run (some data) h⟩

/-- The greatest uid comes back, and storing it leaves the machine id alone. -/
theorem typed_round_trip_uid :
    (getInt64 (setUint64 (some ∅) "uid" Int64.maxValue.toUInt64) "uid" 0).toInt =
        Int64.maxValue.toUInt64.toNat ∧
      SameUnder (setUint64 (some ∅) "uid" 1) (some ∅) "mid" :=
  ⟨(typed_round_trip ∅ "uid").2.2.2.2.1 Int64.maxValue.toUInt64 (by decide) 0,
    (typed_round_trip ∅ "uid").2.2.2.2.2 (.uint64 1) "mid" (by decide)⟩

end

/-! ## Malformed numbers

A number in text is a sign and a magnitude.  For each type there is the value that the C
functions make of it and the value that it exactly is, if any. -/

/-- `(gint)strtol`: saturated to `long`, then cut. -/
def castInt (p : Bool × Nat) : Int32 := (Int64.ofIntClamp (Decimal.value p)).toInt32

/-- `g_ascii_strtoll`: saturated. -/
def saturatedInt64 (p : Bool × Nat) : Int64 := Int64.ofIntClamp (Decimal.value p)

/-- `g_ascii_strtoull`: saturated, and negated within 64 bits after a minus sign. -/
def wrappedUint64 : Bool × Nat → UInt64
  | (neg, n) =>
      if UInt64.size ≤ n then maxUint64
      else if neg then -UInt64.ofNat n else UInt64.ofNat n

/-- The `gint` that a number is. -/
def exactInt (p : Bool × Nat) : Option Int32 :=
  if -2 ^ 31 ≤ Decimal.value p ∧ Decimal.value p < 2 ^ 31 then
    some (Int32.ofInt (Decimal.value p))
  else none

/-- The `gint64` that a number is. -/
def exactInt64 (p : Bool × Nat) : Option Int64 :=
  if -2 ^ 63 ≤ Decimal.value p ∧ Decimal.value p < 2 ^ 63 then
    some (Int64.ofInt (Decimal.value p))
  else none

/-- The `guint64` that a number is; with a minus sign it is none. -/
def exactUint64 : Bool × Nat → Option UInt64
  | (true, _) => none
  | (false, n) => if n < UInt64.size then some (UInt64.ofNat n) else none

/-- The number that a stored text is from end to end; a malformed text is none. -/
def wellFormed {α : Type} (exact : Bool × Nat → Option α) (stored : Option String) : Option α :=
  stored.bind fun str ↦ (Decimal.whole str.toList).bind exact

/-- A getter returns the number that is stored, and the default for anything else. -/
def FallsBack {α : Type} (get : Option DataTable → String → α → α)
    (exact : Bool × Nat → Option α) (table : Option DataTable) (key : String) (default : α) :
    Prop :=
  get table key default = (wellFormed exact (getString table key)).getD default

instance {α : Type} [DecidableEq α] (get : Option DataTable → String → α → α)
    (exact : Bool × Nat → Option α) (table : Option DataTable) (key : String) (default : α) :
    Decidable (FallsBack get exact table key default) := inferInstanceAs (Decidable (_ = _))

/-- A stored text does no harm: if it starts with a number at all, it is well formed, or
what the start is read as happens to be the default. -/
def Harmless {α : Type} (read : Bool × Nat → α) (exact : Bool × Nat → Option α)
    (stored : Option String) (default : α) : Prop :=
  ∀ str ∈ stored, ∀ p, Decimal.scan str.toList = some p →
    (wellFormed exact (some str)).isSome ∨ read p = default

theorem exactInt_eq_some_iff {p : Bool × Nat} {x : Int32} :
    exactInt p = some x ↔ x.toInt = Decimal.value p := by
  rw [exactInt]
  split
  · next h =>
      rw [Option.some.injEq, ← Int32.toInt_inj, Int32.toInt_ofInt_of_le h.1 h.2, eq_comm]
  · next h =>
      refine iff_of_false nofun fun hx ↦ h ?_
      rw [← hx]
      exact ⟨x.le_toInt, x.toInt_lt⟩

theorem exactInt64_eq_some_iff {p : Bool × Nat} {x : Int64} :
    exactInt64 p = some x ↔ x.toInt = Decimal.value p := by
  rw [exactInt64]
  split
  · next h =>
      rw [Option.some.injEq, ← Int64.toInt_inj, Int64.toInt_ofInt_of_le h.1 h.2, eq_comm]
  · next h =>
      refine iff_of_false nofun fun hx ↦ h ?_
      rw [← hx]
      exact ⟨x.le_toInt, x.toInt_lt⟩

theorem exactUint64_eq_some_iff {neg : Bool} {n : Nat} {x : UInt64} :
    exactUint64 (neg, n) = some x ↔ neg = false ∧ x.toNat = n := by
  cases neg with
  | true => exact iff_of_false nofun nofun
  | false =>
      rw [exactUint64]
      split
      · next h =>
          rw [Option.some.injEq, ← UInt64.toNat_inj, UInt64.toNat_ofNat_of_lt' h, eq_comm,
            and_iff_right rfl]
      · next h =>
          refine iff_of_false nofun ?_
          rintro ⟨-, rfl⟩
          exact h x.toNat_lt_size

/-! The C functions read a number in range as the number that it is. -/

theorem castInt_of_exact (p : Bool × Nat) (x : Int32) (h : exactInt p = some x) :
    castInt p = x := by
  rw [castInt, ← exactInt_eq_some_iff.mp h, Int64.ofIntClamp_int32ToInt, Int32.toInt32_toInt64]

theorem saturatedInt64_of_exact (p : Bool × Nat) (x : Int64) (h : exactInt64 p = some x) :
    saturatedInt64 p = x := by
  rw [saturatedInt64, ← exactInt64_eq_some_iff.mp h, Int64.ofIntClamp_toInt]

theorem wrappedUint64_of_exact (p : Bool × Nat) (x : UInt64) (h : exactUint64 p = some x) :
    wrappedUint64 p = x := by
  obtain ⟨neg, n⟩ := p
  obtain ⟨rfl, rfl⟩ := exactUint64_eq_some_iff.mp h
  have hlt : ¬ UInt64.size ≤ x.toNat := not_le.mpr x.toNat_lt_size
  simp [wrappedUint64, hlt]

/-- **One getter.**  If it looks at the start of the text only, and reads numbers in range
as what they are, it falls back exactly when the stored text does no harm. -/
theorem fallsBack_iff_harmless {α : Type} {get : Option DataTable → String → α → α}
    {read : Bool × Nat → α} {exact : Bool × Nat → Option α} {default : α}
    (hget : get table key default =
      ((getString table key).bind fun str ↦ (Decimal.scan str.toList).map read).getD default)
    (hexact : ∀ p x, exact p = some x → read p = x) :
    FallsBack get exact table key default ↔
      Harmless read exact (getString table key) default := by
  rw [FallsBack, hget]
  cases getString table key with
  | none => simp [Harmless, wellFormed]
  | some str => simpa [Harmless, wellFormed] using
      Decimal.getD_scan_eq_iff hexact str.toList default

theorem getInt_eq (table : Option DataTable) (key : String) (default : Int32) :
    getInt table key default =
      ((getString table key).bind fun str ↦
        (Decimal.scan str.toList).map castInt).getD default := by
  rw [getInt]
  cases getString table key with
  | none => rfl
  | some str =>
      show ((gAsciiStrtoll str).map Int64.toInt32).getD default = _
      rw [gAsciiStrtoll_eq, Option.map_map]
      rfl

theorem getInt64_eq (table : Option DataTable) (key : String) (default : Int64) :
    getInt64 table key default =
      ((getString table key).bind fun str ↦
        (Decimal.scan str.toList).map saturatedInt64).getD default := by
  rw [getInt64]
  cases getString table key with
  | none => rfl
  | some str =>
      show (gAsciiStrtoll str).getD default = _
      rw [gAsciiStrtoll_eq]
      rfl

theorem getUint64_eq (table : Option DataTable) (key : String) (default : UInt64) :
    getUint64 table key default =
      ((getString table key).bind fun str ↦
        (Decimal.scan str.toList).map wrappedUint64).getD default := by
  rw [getUint64]
  cases getString table key <;> rfl

/-- **Malformed numbers.**  For every table, key and default, each of the three getters
falls back as documented if and only if the stored text does no harm. -/
theorem fallsBack_iff (table : Option DataTable) (key : String) (default : Int32)
    (default64 : Int64) (defaultU64 : UInt64) :
    (FallsBack getInt exactInt table key default ↔
        Harmless castInt exactInt (getString table key) default) ∧
      (FallsBack getInt64 exactInt64 table key default64 ↔
        Harmless saturatedInt64 exactInt64 (getString table key) default64) ∧
      (FallsBack getUint64 exactUint64 table key defaultU64 ↔
        Harmless wrappedUint64 exactUint64 (getString table key) defaultU64) :=
  ⟨fallsBack_iff_harmless (getInt_eq table key default) castInt_of_exact,
    fallsBack_iff_harmless (getInt64_eq table key default64) saturatedInt64_of_exact,
    fallsBack_iff_harmless (getUint64_eq table key defaultU64) wrappedUint64_of_exact⟩

/-- Trailing garbage is not malformed to a getter, and minus one is the greatest unsigned
number. -/
theorem malformed_number_read :
    ¬ FallsBack getInt exactInt (setString (some ∅) "port" (some "12abc")) "port" 0 ∧
      ¬ FallsBack getInt64 exactInt64 (setString (some ∅) "port" (some "12abc")) "port" 0 ∧
      ¬ FallsBack getUint64 exactUint64 (setString (some ∅) "mid" (some "-1")) "mid" 0 := by
  decide

end ConnectionData

end TelepathyFacebook
