import TelepathyFacebook.Lib.Decimal

/-!
# Numbers as text

The C library and GLib functions with which the connection manager prints and
reads its 64-bit numbers, following their documented base-10 behaviour: blanks
and a sign are accepted, what follows the digits is ignored, and a value out of
range saturates.  `none` stands for `endptr == str`, the one failure that the
callers look at.  `long` is taken to be 64 bits wide.
-/

namespace TelepathyFacebook

/-- `G_MAXUINT64`. -/
def maxUint64 : UInt64 := UInt64.ofNat (UInt64.size - 1)

/-- `g_ascii_strtoull(str, &endptr, 10)`: a minus sign negates the number within
64 bits. -/
def gAsciiStrtoull (str : String) : Option UInt64 :=
  (Decimal.scan str.toList).map fun (neg, n) ↦
    if UInt64.size ≤ n then maxUint64
    else if neg then -UInt64.ofNat n else UInt64.ofNat n

/-- `g_ascii_strtoll(str, &endptr, 10)`. -/
def gAsciiStrtoll (str : String) : Option Int64 :=
  (Decimal.scan str.toList).map fun (neg, n) ↦
    Int64.ofIntClamp (if neg then -(n : Int) else n)

/-- `strtol(str, &endptr, 10)`. -/
def strtol (str : String) : Option Int64 := gAsciiStrtoll str

/-- `"%" G_GUINT64_FORMAT`. -/
def formatUint64 (v : UInt64) : String := toString v.toNat

/-- `"%" G_GINT64_FORMAT`. -/
def formatInt64 (v : Int64) : String := toString v.toInt

/-- `"%d"`. -/
def formatInt (v : Int32) : String := toString v.toInt

/-- Reading back a printed unsigned number. -/
@[simp] theorem gAsciiStrtoull_formatUint64 (v : UInt64) :
    gAsciiStrtoull (formatUint64 v) = some v := by
  have hlt : ¬ UInt64.size ≤ v.toNat := not_le.mpr v.toNat_lt_size
  simp [gAsciiStrtoull, formatUint64, -Nat.toString_eq_repr, Decimal.scan_nat, hlt]

/-- A signed number is the one at the start of the text, saturated. -/
theorem gAsciiStrtoll_eq (str : String) :
    gAsciiStrtoll str = (Decimal.scan str.toList).map (Int64.ofIntClamp ∘ Decimal.value) := by
  rw [gAsciiStrtoll]
  congr 1
  funext ⟨neg, n⟩
  cases neg <;> rfl

/-- Reading a printed integer saturates it. -/
theorem gAsciiStrtoll_toString (i : Int) :
    gAsciiStrtoll (toString i) = some (Int64.ofIntClamp i) := by
  rw [gAsciiStrtoll_eq, ← Option.map_map, Decimal.map_value_scan_int, Option.map_some]

/-- Reading a printed unsigned number as a signed one saturates it. -/
theorem gAsciiStrtoll_formatUint64_eq (v : UInt64) :
    gAsciiStrtoll (formatUint64 v) = some (Int64.ofIntClamp v.toNat) := by
  rw [gAsciiStrtoll_eq, formatUint64, Decimal.scan_nat]
  rfl

/-- The mixed pair used for the uid: printed unsigned, read back signed. -/
theorem gAsciiStrtoll_formatUint64 {v : Int64} (hv : 0 ≤ v) :
    gAsciiStrtoll (formatUint64 v.toUInt64) = some v := by
  have hnat : (v.toUInt64.toNat : Int) = v.toInt := by
    rw [Int64.toNat_toUInt64_of_le hv, Int64.cast_toNatClampNeg v hv]
  rw [gAsciiStrtoll_formatUint64_eq, hnat, Int64.ofIntClamp_toInt]

/-- Reading back a printed signed number. -/
@[simp] theorem gAsciiStrtoll_formatInt64 (v : Int64) :
    gAsciiStrtoll (formatInt64 v) = some v := by
  rw [formatInt64, gAsciiStrtoll_toString, Int64.ofIntClamp_toInt]

/-- Reading back a printed `int`, through `long`. -/
@[simp] theorem strtol_formatInt (v : Int32) :
    (strtol (formatInt v)).map Int64.toInt32 = some v := by
  rw [strtol, formatInt, gAsciiStrtoll_toString, Option.map_some, Int64.ofIntClamp_int32ToInt,
    Int32.toInt32_toInt64]

/-- Different numbers are printed differently. -/
theorem formatInt64_injective : Function.Injective formatInt64 := fun _ _ h ↦
  Int64.toInt.inj (Decimal.toString_int_injective h)

end TelepathyFacebook
