import TelepathyFacebook.Lib.HashTable
import TelepathyFacebook.Lib.Runs
import TelepathyFacebook.Strto

/-!
# HTTP value tables

The tables of names and values of `bitlbee-compat/fb-http-values.c`.  Names are compared
without regard to ASCII case, but hashed with `g_str_hash`, which regards it.

* `TableOps` is what a table can do.  `httpValues` are the tables of the code and
  `caseMaps` maps on names that are equal but for case; `step` runs either on any number
  of tables.
* `values_iff`: the tables answer as the maps do, and never hold two equal names, all
  along a run exactly when equal names have equal hashes wherever one is used.
-/

namespace TelepathyFacebook

open Runs

/-! ## Names -/

/-- The bytes of a C string: UTF-8, up to the terminator. -/
def cBytes (s : String) : List UInt8 := (s.toList.flatMap String.utf8EncodeChar).takeWhile (· ≠ 0)

/-- `TOLOWER`. -/
def toLower (c : UInt8) : UInt8 := if 65 ≤ c ∧ c ≤ 90 then c - 65 + 97 else c

/-- `g_ascii_strcasecmp`. -/
def gAsciiStrcasecmp : List UInt8 → List UInt8 → Int
  | [], [] => 0
  | c :: _, [] => c.toNat
  | [], c :: _ => - c.toNat
  | c₁ :: s₁, c₂ :: s₂ =>
      if toLower c₁ ≠ toLower c₂ then (toLower c₁).toNat - (toLower c₂).toNat
      else gAsciiStrcasecmp s₁ s₂

/-- `g_str_hash`: the characters are taken as signed. -/
def gStrHash (s : String) : UInt32 :=
  (cBytes s).foldl (fun h c ↦ (h <<< 5) + h + c.toInt8.toInt32.toUInt32) 5381

/-- `fb_http_value_equal`. -/
def fbHttpValueEqual (a b : String) : Bool := gAsciiStrcasecmp (cBytes a) (cBytes b) = 0

/-- How `fb_http_values_new` has names told apart. -/
def httpKeying : Keying String (List UInt8) UInt32 := ⟨fun s ↦ (cBytes s).map toLower, gStrHash⟩

theorem toNat_ne_zero {c : UInt8} (h : 0 ≠ c) : (c.toNat : Int) ≠ 0 := by
  intro hc
  exact h (UInt8.toNat_inj.mp (by exact_mod_cast hc.symm))

/-- One round of a comparison. -/
theorem compare_eq_zero_iff {c₁ c₂ : UInt8} {rest : Int} :
    (if toLower c₁ ≠ toLower c₂ then ((toLower c₁).toNat : Int) - (toLower c₂).toNat
      else rest) = 0 ↔ toLower c₁ = toLower c₂ ∧ rest = 0 := by
  split
  · next h =>
      have hnat : (toLower c₁).toNat ≠ (toLower c₂).toNat := mt UInt8.toNat_inj.mp h
      refine iff_of_false ?_ fun heq ↦ h heq.1
      omega
  · next h => exact (and_iff_right (not_not.mp h)).symm

theorem gAsciiStrcasecmp_eq_zero_iff {a b : List UInt8} (ha : 0 ∉ a) (hb : 0 ∉ b) :
    gAsciiStrcasecmp a b = 0 ↔ a.map toLower = b.map toLower := by
  induction a generalizing b with
  | nil =>
      cases b with
      | nil => simp [gAsciiStrcasecmp]
      | cons c s => simpa [gAsciiStrcasecmp] using toNat_ne_zero (List.ne_of_not_mem_cons hb)
  | cons c₁ s₁ ih =>
      cases b with
      | nil => simpa [gAsciiStrcasecmp] using toNat_ne_zero (List.ne_of_not_mem_cons ha)
      | cons c₂ s₂ =>
          have htail := ih (fun hm ↦ ha (List.mem_cons_of_mem _ hm))
            (fun hm ↦ hb (List.mem_cons_of_mem _ hm))
          rw [gAsciiStrcasecmp, compare_eq_zero_iff, htail, List.map_cons, List.map_cons,
            List.cons.injEq]

theorem zero_notMem_cBytes (s : String) : 0 ∉ cBytes s := by
  intro h
  have hne := List.mem_takeWhile_imp h
  simp at hne

/-- Names are equal when they are but for case. -/
theorem fbHttpValueEqual_iff (a b : String) :
    fbHttpValueEqual a b ↔ httpKeying.fold a = httpKeying.fold b := by
  rw [fbHttpValueEqual, decide_eq_true_iff]
  exact gAsciiStrcasecmp_eq_zero_iff (zero_notMem_cBytes a) (zero_notMem_cBytes b)

example : fbHttpValueEqual "Content-Type" "content-type" := by decide

/-! ## Tables -/

/-- `FbHttpValues`. -/
abbrev FbHttpValues := HashTable httpKeying String

/-- The errors of `FB_HTTP_ERROR` that a table gives. -/
inductive HttpError where
  | nomatch (message : String)
deriving DecidableEq, Repr

/-- `fb_http_values_new`. -/
def fbHttpValuesNew : FbHttpValues := HashTable.empty

/-- `fb_http_values_consume`. -/
def fbHttpValuesConsume (O : HashTable.Order String String) (values consume : FbHttpValues) :
    FbHttpValues :=
  values.replaceAll (O.order consume.entries)

/-- `fb_http_values_remove`. -/
def fbHttpValuesRemove (values : FbHttpValues) (name : String) : FbHttpValues × Bool :=
  (values.remove name, (values.lookup name).isSome)

/-- The answer of `fb_http_values_get`, given what was found. -/
def orNomatch (name : String) : Option String → Except HttpError String
  | none => .error (.nomatch ("No matches for " ++ name))
  | some val => .ok val

/-- `fb_http_values_get`. -/
def fbHttpValuesGet (values : FbHttpValues) (name : String) : Except HttpError String :=
  orNomatch name (values.lookup name)

/-- `fb_http_values_set`. -/
def fbHttpValuesSet (values : FbHttpValues) (name value : String) : FbHttpValues :=
  values.replace name value

/-- `fb_http_values_set_bool`. -/
def fbHttpValuesSetBool (values : FbHttpValues) (name : String) (value : Bool) : FbHttpValues :=
  fbHttpValuesSet values name (if value then "true" else "false")

/-- `fb_http_values_set_int`. -/
def fbHttpValuesSetInt (values : FbHttpValues) (name : String) (value : Int64) : FbHttpValues :=
  fbHttpValuesSet values name (formatInt64 value)

/-- `fb_http_values_set_str`. -/
def fbHttpValuesSetStr (values : FbHttpValues) (name value : String) : FbHttpValues :=
  fbHttpValuesSet values name value

/-! ## Programs -/

/-- What a table can do. -/
structure TableOps (τ : Type) where
  new : τ
  set : τ → String → String → τ
  remove : τ → String → τ × Bool
  get : τ → String → Except HttpError String
  consume : τ → τ → τ

/-- The tables of the code. -/
def httpValues (O : HashTable.Order String String) : TableOps FbHttpValues where
  new := fbHttpValuesNew
  set := fbHttpValuesSet
  remove := fbHttpValuesRemove
  get := fbHttpValuesGet
  consume := fbHttpValuesConsume O

/-- A finite map on names but for case: every spelling of a name has its value. -/
abbrev CaseMap := String → Option String

/-- What a table is for. -/
def caseMaps : TableOps CaseMap where
  new := fun _ ↦ none
  set m name value := fun n ↦ if fbHttpValueEqual name n then some value else m n
  remove m name := (fun n ↦ if fbHttpValueEqual name n then none else m n, (m name).isSome)
  get m name := orNomatch name (m name)
  consume m consume := fun n ↦ (consume n).or (m n)

/-- The calls of a program, on tables that are held in numbered variables. -/
inductive HttpValuesCall where
  /-- `fb_http_values_new`. -/
  | new (i : Nat)
  /-- One of `fb_http_values_set_*`, with the text it stores. -/
  | set (i : Nat) (name value : String)
  /-- `fb_http_values_remove`. -/
  | remove (i : Nat) (name : String)
  /-- `fb_http_values_get`. -/
  | get (i : Nat) (name : String)
  /-- `fb_http_values_consume`. -/
  | consume (i j : Nat)

/-- The answer of a call. -/
inductive HttpValuesAnswer where
  | done
  | removed (found : Bool)
  | got (value : Except HttpError String)
deriving DecidableEq

namespace TableOps

variable {τ : Type} (T : TableOps τ)

/-- One call, and its answer.  A variable without a table is not used, and no table
consumes itself; a consumed table is gone. -/
def step (s : Nat → Option τ) : HttpValuesCall → (Nat → Option τ) × HttpValuesAnswer
  | .new i => (Function.update s i (some T.new), .done)
  | .set i name value => (Function.update s i ((s i).map fun t ↦ T.set t name value), .done)
  | .remove i name =>
      (Function.update s i ((s i).map fun t ↦ (T.remove t name).1),
        ((s i).map fun t ↦ .removed (T.remove t name).2).getD .done)
  | .get i name => (s, ((s i).map fun t ↦ .got (T.get t name)).getD .done)
  | .consume i j =>
      match s i, s j with
      | some t, some c =>
          if i = j then (s, .done)
          else (Function.update (Function.update s j none) i (some (T.consume t c)), .done)
      | _, _ => (s, .done)

end TableOps

namespace FbHttpValues

/-- A table stands for a map: no two of its names are equal, and it holds under every
spelling of a name what the map has. -/
structure Represents (values : FbHttpValues) (m : CaseMap) : Prop where
  distinct : values.Distinct
  content : ∀ n, values.content n = m n

variable (O : HashTable.Order String String)

/-- The tables of a program and the maps they stand for, after a call. -/
def both (p : (Nat → Option FbHttpValues) × (Nat → Option CaseMap)) (e : HttpValuesCall) :
    (Nat → Option FbHttpValues) × (Nat → Option CaseMap) :=
  (((httpValues O).step p.1 e).1, (caseMaps.step p.2 e).1)

/-- Every table stands for its map. -/
def Related (p : (Nat → Option FbHttpValues) × (Nat → Option CaseMap)) : Prop :=
  ∀ i, Option.Rel Represents (p.1 i) (p.2 i)

/-- The tables answer the call as the maps do, and stand for them after it. -/
def Faithful (p : (Nat → Option FbHttpValues) × (Nat → Option CaseMap)) (e : HttpValuesCall) :
    Prop :=
  ((httpValues O).step p.1 e).2 = (caseMaps.step p.2 e).2 ∧ Related (both O p e)

/-- Where a call uses a name, the names of the table that are equal to it have the same
hash. -/
def Agreeing (s : Nat → Option FbHttpValues) : HttpValuesCall → Prop
  | .new _ => True
  | .set i name _ | .remove i name | .get i name => ∀ values ∈ s i, values.Agrees name
  | .consume i j => i ≠ j → ∀ values ∈ s i, ∀ consume ∈ s j,
      ∀ p ∈ consume.entries, values.Agrees p.1

variable {O} {values : FbHttpValues} {m : CaseMap}

theorem represents_new : Represents fbHttpValuesNew (fun _ ↦ none) :=
  ⟨HashTable.distinct_empty, fun _ ↦ rfl⟩

theorem orNomatch_inj {name : String} {a b : Option String} :
    orNomatch name a = orNomatch name b ↔ a = b := by
  cases a <;> cases b <;> simp [orNomatch]

/-- **Setting.** -/
theorem represents_set_iff (h : Represents values m) (name value : String) :
    Represents (fbHttpValuesSet values name value) (caseMaps.set m name value) ↔
      values.Agrees name := by
  rw [← HashTable.distinct_replace_iff h.distinct]
  refine ⟨Represents.distinct, fun hd ↦ ⟨hd, fun n ↦ ?_⟩⟩
  have hag := (HashTable.distinct_replace_iff h.distinct).mp hd
  rw [fbHttpValuesSet, hag.content_replace, h.content]
  simp only [caseMaps, fbHttpValueEqual_iff]

/-- **Getting.** -/
theorem get_eq_iff (h : Represents values m) (name : String) :
    fbHttpValuesGet values name = caseMaps.get m name ↔ values.Agrees name := by
  rw [fbHttpValuesGet, ← HashTable.lookup_eq_content_iff h.distinct, h.content]
  exact orNomatch_inj

/-- **Removing.** -/
theorem remove_iff (h : Represents values m) (name : String) :
    ((fbHttpValuesRemove values name).2 = (caseMaps.remove m name).2 ∧
        Represents (fbHttpValuesRemove values name).1 (caseMaps.remove m name).1) ↔
      values.Agrees name := by
  constructor
  · rintro ⟨hfound, -⟩
    rw [← HashTable.isSome_lookup_eq_iff h.distinct, h.content]
    exact hfound
  · intro hag
    refine ⟨?_, h.distinct.remove name, fun n ↦ ?_⟩
    · rw [fbHttpValuesRemove, hag.lookup_eq_content, h.content]
      rfl
    · rw [fbHttpValuesRemove, hag.content_remove, h.content]
      simp only [caseMaps, fbHttpValueEqual_iff]

/-- **Consuming.** -/
theorem represents_consume_iff {consume : FbHttpValues} {c : CaseMap} (h : Represents values m)
    (hc : Represents consume c) :
    Represents (fbHttpValuesConsume O values consume) (caseMaps.consume m c) ↔
      ∀ p ∈ consume.entries, values.Agrees p.1 := by
  have hperm := O.perm consume.entries
  have hnodup := (hperm.map fun p : String × String ↦ httpKeying.fold p.1).nodup_iff.mpr hc.distinct
  have hiff := HashTable.distinct_replaceAll_iff h.distinct hnodup
  simp only [hperm.mem_iff] at hiff
  rw [← hiff]
  refine ⟨Represents.distinct, fun hd ↦ ⟨hd, fun n ↦ ?_⟩⟩
  rw [fbHttpValuesConsume, HashTable.content_replaceAll h.distinct hc.distinct hperm
    (fun q hq ↦ hiff.mp hd q (hperm.mem_iff.mp hq)), h.content, hc.content]
  rfl

/-- Storing related tables leaves all tables related. -/
theorem Related.update_iff {p : (Nat → Option FbHttpValues) × (Nat → Option CaseMap)}
    (h : Related p) (i : Nat) (t : Option FbHttpValues) (m : Option CaseMap) :
    Related (Function.update p.1 i t, Function.update p.2 i m) ↔ Option.Rel Represents t m := by
  constructor
  · intro hup
    simpa using hup i
  · intro hrel j
    rcases eq_or_ne j i with rfl | hne
    · simpa using hrel
    · simpa [hne] using h j

/-- A variable holds no table in either program, or a table and its map. -/
theorem Related.cases {p : (Nat → Option FbHttpValues) × (Nat → Option CaseMap)}
    (h : Related p) (i : Nat) :
    (p.1 i = none ∧ p.2 i = none) ∨
      ∃ values m, p.1 i = some values ∧ p.2 i = some m ∧ Represents values m := by
  have hi := h i
  cases hv : p.1 i with
  | none =>
      cases hm : p.2 i with
      | none => exact .inl ⟨rfl, rfl⟩
      | some m =>
          rw [hv, hm] at hi
          cases hi
  | some values =>
      cases hm : p.2 i with
      | none =>
          rw [hv, hm] at hi
          cases hi
      | some m =>
          rw [hv, hm] at hi
          cases hi with
          | some hrel => exact .inr ⟨values, m, rfl, rfl, hrel⟩

theorem rel_some_iff : Option.Rel Represents (some values) (some m) ↔ Represents values m := by
  constructor
  · rintro ⟨h⟩
    assumption
  · exact Option.Rel.some

/-- **One call** is answered faithfully exactly when the hashes agree. -/
theorem faithful_iff {p : (Nat → Option FbHttpValues) × (Nat → Option CaseMap)} (h : Related p)
    (e : HttpValuesCall) : Faithful O p e ↔ Agreeing p.1 e := by
  cases e with
  | new i =>
      refine iff_of_true ⟨rfl, ?_⟩ trivial
      exact (h.update_iff i _ _).mpr (.some represents_new)
  | set i name value =>
      refine (and_iff_right rfl).trans ((h.update_iff i _ _).trans ?_)
      rcases h.cases i with ⟨hv, hm⟩ | ⟨values, m, hv, hm, hrel⟩
      · simp [Agreeing, hv, hm]
      · simpa [httpValues, Agreeing, hv, hm, rel_some_iff] using represents_set_iff hrel name value
  | remove i name =>
      refine (and_congr_right fun _ ↦ h.update_iff i _ _).trans ?_
      rcases h.cases i with ⟨hv, hm⟩ | ⟨values, m, hv, hm, hrel⟩
      · simp [TableOps.step, Agreeing, hv, hm]
      · simpa [httpValues, TableOps.step, Agreeing, hv, hm, rel_some_iff] using
          remove_iff hrel name
  | get i name =>
      apply (and_iff_left h).trans
      rcases h.cases i with ⟨hv, hm⟩ | ⟨values, m, hv, hm, hrel⟩
      · simp [TableOps.step, Agreeing, hv, hm]
      · simpa [httpValues, TableOps.step, Agreeing, hv, hm] using get_eq_iff hrel name
  | consume i j =>
      rcases h.cases i with ⟨hv, hm⟩ | ⟨values, m, hv, hm, hrel⟩
      · simpa [Faithful, both, TableOps.step, Agreeing, hv, hm] using h
      rcases h.cases j with ⟨hc, hn⟩ | ⟨consume, c, hc, hn, hcrel⟩
      · simpa [Faithful, both, TableOps.step, Agreeing, hv, hm, hc, hn] using h
      by_cases hij : i = j
      · simpa [Faithful, both, TableOps.step, Agreeing, hv, hm, hc, hn, hij] using h
      · have hgone : Related (Function.update p.1 j none, Function.update p.2 j none) :=
          (h.update_iff j none none).mpr .none
        have hiff := (hgone.update_iff i (some (fbHttpValuesConsume O values consume))
          (some (caseMaps.consume m c))).trans
            (rel_some_iff.trans (represents_consume_iff hrel hcrel))
        simpa [httpValues, Faithful, both, TableOps.step, Agreeing, hv, hm, hc, hn, hij] using hiff

/-- **When tables are maps but for case.**  In a run of calls on any tables every answer
is the one of the maps, every table stands for its map, and no table holds two equal
names, if and only if equal names have the same hash wherever a call uses one. -/
theorem values_iff (O : HashTable.Order String String) (es : List HttpValuesCall) :
    Steps (both O) (Faithful O) (fun _ ↦ none, fun _ ↦ none) es ↔
      Steps (both O) (fun p e ↦ Agreeing p.1 e) (fun _ ↦ none, fun _ ↦ none) es :=
  steps_iff (P := Related) (fun _ e h he ↦ ((faithful_iff h e).mpr he).2)
    (fun _ e h ↦ faithful_iff h e) (fun _ ↦ .none) es

/-- A header that is set as "Foo" is not found as "foo". -/
theorem other_case_not_found :
    ¬ Steps (both (.listed String String)) (Faithful (.listed String String))
      (fun _ ↦ none, fun _ ↦ none) [.new 0, .set 0 "Foo" "1", .get 0 "foo"] := by
  rintro ⟨-, -, ⟨hanswer, -⟩, -⟩
  revert hanswer
  decide

end FbHttpValues

end TelepathyFacebook
