import TelepathyFacebook.DBusSignature
import TelepathyFacebook.Lib.Terms

/-!
# GTypes of D-Bus types

`type_to_gtype` of `tools/libglibcodegen.py`, which the generators use to write for each argument
of a method or a signal the C expression of its GType.

* `typeToGtype_render`: on the signature of a type the function is the translation `translate`,
  which goes over the type.
* `accepts_iff`, `gtypeText_eq_iff`: the types that have a GType expression, and those that have
  the same one.
* `stores_iff`: the types for which the generators store a value with the function of the type.
-/

namespace TelepathyFacebook

namespace Codegen

open Terms

/-! ## The function -/

/-- What `type_to_gtype` returns, with the GType as a text or as a term. -/
structure GType (α : Type) where
  ctype : String
  gtype : α
  marshaller : String
  pointer : Bool

namespace GType

def map {α β : Type} (f : α → β) (g : GType α) : GType β :=
  ⟨g.ctype, f g.gtype, g.marshaller, g.pointer⟩

end GType

/-- The signatures that `type_to_gtype` compares with. -/
def gtypes : List (List Char × GType (List Char)) :=
  [("y".toList, ⟨"guchar ", "G_TYPE_UCHAR".toList, "UCHAR", false⟩),
    ("b".toList, ⟨"gboolean ", "G_TYPE_BOOLEAN".toList, "BOOLEAN", false⟩),
    ("n".toList, ⟨"gint ", "G_TYPE_INT".toList, "INT", false⟩),
    ("q".toList, ⟨"guint ", "G_TYPE_UINT".toList, "UINT", false⟩),
    ("i".toList, ⟨"gint ", "G_TYPE_INT".toList, "INT", false⟩),
    ("u".toList, ⟨"guint ", "G_TYPE_UINT".toList, "UINT", false⟩),
    ("x".toList, ⟨"gint64 ", "G_TYPE_INT64".toList, "INT64", false⟩),
    ("t".toList, ⟨"guint64 ", "G_TYPE_UINT64".toList, "UINT64", false⟩),
    ("d".toList, ⟨"gdouble ", "G_TYPE_DOUBLE".toList, "DOUBLE", false⟩),
    ("s".toList, ⟨"gchar *", "G_TYPE_STRING".toList, "STRING", true⟩),
    ("g".toList, ⟨"gchar *", "DBUS_TYPE_G_SIGNATURE".toList, "STRING", true⟩),
    ("o".toList, ⟨"gchar *", "DBUS_TYPE_G_OBJECT_PATH".toList, "BOXED", true⟩),
    ("v".toList, ⟨"GValue *", "G_TYPE_VALUE".toList, "BOXED", true⟩),
    ("as".toList, ⟨"gchar **", "G_TYPE_STRV".toList, "BOXED", true⟩),
    ("ay".toList, ⟨"GArray *",
      "dbus_g_type_get_collection (\"GArray\", G_TYPE_UCHAR)".toList, "BOXED", true⟩),
    ("au".toList, ⟨"GArray *", "DBUS_TYPE_G_UINT_ARRAY".toList, "BOXED", true⟩),
    ("ai".toList, ⟨"GArray *", "DBUS_TYPE_G_INT_ARRAY".toList, "BOXED", true⟩),
    ("ax".toList, ⟨"GArray *", "DBUS_TYPE_G_INT64_ARRAY".toList, "BOXED", true⟩),
    ("at".toList, ⟨"GArray *", "DBUS_TYPE_G_UINT64_ARRAY".toList, "BOXED", true⟩),
    ("ad".toList, ⟨"GArray *", "DBUS_TYPE_G_DOUBLE_ARRAY".toList, "BOXED", true⟩),
    ("ab".toList, ⟨"GArray *", "DBUS_TYPE_G_BOOLEAN_ARRAY".toList, "BOXED", true⟩),
    ("ao".toList, ⟨"GPtrArray *",
      "dbus_g_type_get_collection (\"GPtrArray\", DBUS_TYPE_G_OBJECT_PATH)".toList, "BOXED",
      true⟩),
    ("a{ss}".toList, ⟨"GHashTable *", "DBUS_TYPE_G_STRING_STRING_HASHTABLE".toList, "BOXED",
      false⟩)]

theorem length_le_of_mem_subsigs {s t : List Char} (ht : t ∈ subsigs s) : t.length ≤ s.length := by
  obtain ⟨l, l', hl⟩ := List.append_of_mem ht
  have hlen := congrArg List.length (flatten_subsigs s)
  rw [hl, List.flatten_append, List.flatten_cons, List.length_append, List.length_append] at hlen
  omega

/-- `type_to_gtype`; an exception is its text. -/
def typeToGtype (s : List Char) : Except String (GType (List Char)) :=
  match gtypes.lookup s with
  | some info => .ok info
  | none =>
      match s with
      | ['a', '{'] => .error "string index out of range"
      | 'a' :: '{' :: key :: rest =>
          if key ∉ ['y', 'b', 'n', 'q', 'i', 'u', 's', 'o', 'g'] then
            .error ("can't index a hashtable off non-basic type " ++
              String.ofList ('a' :: '{' :: key :: rest))
          else do
            let first ← typeToGtype [key]
            let second ← typeToGtype rest.dropLast
            return ⟨"GHashTable *", "(dbus_g_type_get_map (\"GHashTable\", ".toList ++
              first.gtype ++ ", ".toList ++ second.gtype ++ "))".toList, "BOXED", false⟩
      | 'a' :: '(' :: rest => do
          let info ← typeToGtype ('(' :: rest)
          return ⟨"GPtrArray *", "(dbus_g_type_get_collection (\"GPtrArray\", ".toList ++
            info.gtype ++ "))".toList, "BOXED", true⟩
      | 'a' :: 'a' :: rest => do
          let info ← typeToGtype ('a' :: rest)
          return ⟨"GPtrArray *", "(dbus_g_type_get_collection (\"GPtrArray\", ".toList ++
            info.gtype ++ "))".toList, "BOXED", true⟩
      | '(' :: rest => do
          let infos ← (subsigs rest.dropLast).attach.mapM fun subsig ↦ typeToGtype subsig.1
          return ⟨"GValueArray *", "(dbus_g_type_get_struct (\"GValueArray\", ".toList ++
            infos.flatMap (fun info ↦ info.gtype ++ ", ".toList) ++ "G_TYPE_INVALID))".toList,
            "BOXED", true⟩
      | s => .error ("don't know the GType for " ++ String.ofList s)
termination_by s.length
decreasing_by
  all_goals simp_wf
  · omega
  · have hlen := length_le_of_mem_subsigs subsig.2
    rw [List.length_dropLast] at hlen
    omega

theorem typeToGtype_of_lookup {s : List Char} {info : GType (List Char)}
    (h : gtypes.lookup s = some info) : typeToGtype s = .ok info := by
  rw [typeToGtype.eq_def, h]

theorem lookup_array {c : Char} (hc : c = '(' ∨ c = 'a') (rest : List Char) :
    gtypes.lookup ('a' :: c :: rest) = none := by
  have htable : ∀ x ∈ gtypes, x.1.take 2 ≠ ['a', '('] ∧ x.1.take 2 ≠ ['a', 'a'] := by decide
  refine List.lookup_eq_none_iff.mpr fun x hx ↦ bne_iff_ne.mpr fun h ↦ ?_
  have htake : x.1.take 2 = ['a', c] := h ▸ rfl
  obtain rfl | rfl := hc
  · exact (htable x hx).1 htake
  · exact (htable x hx).2 htake

theorem lookup_paren (rest : List Char) : gtypes.lookup ('(' :: rest) = none := by
  have htable : ∀ x ∈ gtypes, x.1.head? ≠ some '(' := by decide
  exact List.lookup_eq_none_iff.mpr fun x hx ↦ bne_iff_ne.mpr fun h ↦ htable x hx (h ▸ rfl)

/-- For an array of structures or of arrays. -/
theorem typeToGtype_array {c : Char} (hc : c = '(' ∨ c = 'a') (rest : List Char) :
    typeToGtype ('a' :: c :: rest) = do
      let info ← typeToGtype (c :: rest)
      return ⟨"GPtrArray *", "(dbus_g_type_get_collection (\"GPtrArray\", ".toList ++
        info.gtype ++ "))".toList, "BOXED", true⟩ := by
  have h := lookup_array hc rest
  obtain rfl | rfl := hc <;> rw [typeToGtype, h]

/-- For a structure. -/
theorem typeToGtype_paren (rest : List Char) :
    typeToGtype ('(' :: rest) = do
      let infos ← (subsigs rest.dropLast).mapM typeToGtype
      return ⟨"GValueArray *", "(dbus_g_type_get_struct (\"GValueArray\", ".toList ++
        infos.flatMap (fun info ↦ info.gtype ++ ", ".toList) ++ "G_TYPE_INVALID))".toList,
        "BOXED", true⟩ := by
  rw [typeToGtype, lookup_paren]
  dsimp only
  rw [List.mapM_subtype fun _ _ ↦ rfl, List.unattach_attach]

/-! ## The translation -/

def mapTerm (first second : Term) : Term :=
  .paren (.call (tok "dbus_g_type_get_map") (.name (tok "\"GHashTable\"")) [first, second])

def collectionTerm (e : Term) : Term :=
  .paren (.call (tok "dbus_g_type_get_collection") (.name (tok "\"GPtrArray\"")) [e])

def structTerm (es : List Term) : Term :=
  .paren (.call (tok "dbus_g_type_get_struct") (.name (tok "\"GValueArray\""))
    (es ++ [.name (tok "G_TYPE_INVALID")]))

def Basic.gtype : Basic → Option (GType Term)
  | .byte => some ⟨"guchar ", .name (tok "G_TYPE_UCHAR"), "UCHAR", false⟩
  | .boolean => some ⟨"gboolean ", .name (tok "G_TYPE_BOOLEAN"), "BOOLEAN", false⟩
  | .int16 => some ⟨"gint ", .name (tok "G_TYPE_INT"), "INT", false⟩
  | .uint16 => some ⟨"guint ", .name (tok "G_TYPE_UINT"), "UINT", false⟩
  | .int32 => some ⟨"gint ", .name (tok "G_TYPE_INT"), "INT", false⟩
  | .uint32 => some ⟨"guint ", .name (tok "G_TYPE_UINT"), "UINT", false⟩
  | .int64 => some ⟨"gint64 ", .name (tok "G_TYPE_INT64"), "INT64", false⟩
  | .uint64 => some ⟨"guint64 ", .name (tok "G_TYPE_UINT64"), "UINT64", false⟩
  | .double => some ⟨"gdouble ", .name (tok "G_TYPE_DOUBLE"), "DOUBLE", false⟩
  | .string => some ⟨"gchar *", .name (tok "G_TYPE_STRING"), "STRING", true⟩
  | .signature => some ⟨"gchar *", .name (tok "DBUS_TYPE_G_SIGNATURE"), "STRING", true⟩
  | .objectPath => some ⟨"gchar *", .name (tok "DBUS_TYPE_G_OBJECT_PATH"), "BOXED", true⟩
  | .unixFd => none

/-- The type of an array of a basic type. -/
def Basic.garray : Basic → Option (GType Term)
  | .string => some ⟨"gchar **", .name (tok "G_TYPE_STRV"), "BOXED", true⟩
  | .byte => some ⟨"GArray *", .call (tok "dbus_g_type_get_collection")
      (.name (tok "\"GArray\"")) [.name (tok "G_TYPE_UCHAR")], "BOXED", true⟩
  | .uint32 => some ⟨"GArray *", .name (tok "DBUS_TYPE_G_UINT_ARRAY"), "BOXED", true⟩
  | .int32 => some ⟨"GArray *", .name (tok "DBUS_TYPE_G_INT_ARRAY"), "BOXED", true⟩
  | .int64 => some ⟨"GArray *", .name (tok "DBUS_TYPE_G_INT64_ARRAY"), "BOXED", true⟩
  | .uint64 => some ⟨"GArray *", .name (tok "DBUS_TYPE_G_UINT64_ARRAY"), "BOXED", true⟩
  | .double => some ⟨"GArray *", .name (tok "DBUS_TYPE_G_DOUBLE_ARRAY"), "BOXED", true⟩
  | .boolean => some ⟨"GArray *", .name (tok "DBUS_TYPE_G_BOOLEAN_ARRAY"), "BOXED", true⟩
  | .objectPath => some ⟨"GPtrArray *", .call (tok "dbus_g_type_get_collection")
      (.name (tok "\"GPtrArray\"")) [.name (tok "DBUS_TYPE_G_OBJECT_PATH")], "BOXED", true⟩
  | _ => none

/-- The types that the function takes for the keys of a table. -/
def Basic.Indexes (b : Basic) : Prop :=
  b ≠ .int64 ∧ b ≠ .uint64 ∧ b ≠ .double ∧ b ≠ .unixFd

instance : DecidablePred Basic.Indexes := fun _ ↦ inferInstanceAs (Decidable (_ ∧ _))

/-- There are no GTypes for integers of 16 bits. -/
def Basic.widen : Basic → Basic
  | .int16 => .int32
  | .uint16 => .uint32
  | b => b

namespace DBusType

/-- The type of an array, from the one of its elements. -/
def arrayOf : DBusType → Option (GType Term) → Option (GType Term)
  | .basic b, _ => b.garray
  | .variant, _ => none
  | _, element => element.map fun info ↦
      ⟨"GPtrArray *", collectionTerm info.gtype, "BOXED", true⟩

/-- The type of a table, from the one of its values. -/
def dictOf : Basic → DBusType → Option (GType Term) → Option (GType Term)
  | .string, .basic .string, _ =>
      some ⟨"GHashTable *", .name (tok "DBUS_TYPE_G_STRING_STRING_HASHTABLE"), "BOXED", false⟩
  | key, _, value => if key.Indexes then do
        let first ← key.gtype
        let second ← value
        some ⟨"GHashTable *", mapTerm first.gtype second.gtype, "BOXED", false⟩
      else none

mutual

/-- The translation of a type, part by part. -/
def translate : DBusType → Option (GType Term)
  | .basic b => b.gtype
  | .variant => some ⟨"GValue *", .name (tok "G_TYPE_VALUE"), "BOXED", true⟩
  | .array t => arrayOf t (translate t)
  | .dict key value => dictOf key value (translate value)
  | .struct fields => (translateAll fields).map fun infos ↦
      ⟨"GValueArray *", structTerm (infos.map GType.gtype), "BOXED", true⟩

def translateAll : List DBusType → Option (List (GType Term))
  | [] => some []
  | t :: ts => do
      let info ← translate t
      let infos ← translateAll ts
      some (info :: infos)

end

/-- What a generator sees of a translation. -/
def printed (info : GType Term) : GType (List Char) := info.map Term.print

theorem typeToGtype_code (b : Basic) :
    (typeToGtype [b.code]).toOption = b.gtype.map printed := by
  cases b <;> rw [typeToGtype.eq_def] <;> rfl

theorem toOption_bind {α β : Type} (x : Except String α) (f : α → Except String β) :
    (x >>= f).toOption = x.toOption.bind fun a ↦ (f a).toOption := by
  cases x <;> rfl

theorem toOption_mapM {ts : List DBusType}
    (h : ∀ t ∈ ts, (typeToGtype (render t)).toOption = (translate t).map printed) :
    ((ts.map render).mapM typeToGtype).toOption = (translateAll ts).map (List.map printed) := by
  induction ts with
  | nil => rfl
  | cons t ts ih =>
      have hrest := ih fun t ht ↦ h t (List.mem_cons_of_mem _ ht)
      rw [List.map_cons, List.mapM_cons, toOption_bind, h t (List.mem_cons_self ..), translateAll]
      cases translate t with
      | none => rfl
      | some info =>
          dsimp only [Option.map_some, Option.bind_some]
          rw [toOption_bind, hrest]
          cases translateAll ts <;> rfl

theorem eq_string_of_render {t : DBusType} (h : render t = ['s']) : t = .basic .string := by
  cases t with
  | basic b => cases b <;> first | rfl | exact absurd h (by decide)
  | _ => simp [render] at h

theorem lookup_dict {key : Basic} {value : DBusType}
    (h : ¬ (key = .string ∧ value = .basic .string)) :
    gtypes.lookup (render (.dict key value)) = none := by
  have htable : ∀ x ∈ gtypes, x.1.take 2 = ['a', '{'] → x.1 = "a{ss}".toList := by decide
  refine List.lookup_eq_none_iff.mpr fun x hx ↦ bne_iff_ne.mpr fun hrender ↦ h ?_
  have hss : render (.dict key value) = "a{ss}".toList :=
    hrender.trans (htable x hx (hrender ▸ rfl))
  rw [render] at hss
  obtain ⟨hkey, hvalue⟩ := List.cons.inj (List.cons.inj (List.cons.inj hss).2).2
  have hrest : render value ++ ['}'] = ['s'] ++ ['}'] := hvalue
  exact ⟨by cases key <;> first | rfl | exact absurd hkey (by decide),
    eq_string_of_render (List.append_cancel_right hrest)⟩

theorem code_mem_iff (b : Basic) :
    b.code ∈ ['y', 'b', 'n', 'q', 'i', 'u', 's', 'o', 'g'] ↔ b.Indexes := by
  cases b <;> decide

theorem dictOf_of_ne {key : Basic} {value : DBusType}
    (h : ¬ (key = .string ∧ value = .basic .string)) (info : Option (GType Term)) :
    dictOf key value info = if key.Indexes then do
        let first ← key.gtype
        let second ← info
        some ⟨"GHashTable *", mapTerm first.gtype second.gtype, "BOXED", false⟩
      else none := by
  rw [dictOf]
  rintro rfl rfl
  exact h ⟨rfl, rfl⟩

theorem print_collectionTerm (e : Term) : (collectionTerm e).print =
    "(dbus_g_type_get_collection (\"GPtrArray\", ".toList ++ e.print ++ "))".toList := by
  simp [collectionTerm, Term.print, Term.printRest, tok]

theorem print_mapTerm (first second : Term) : (mapTerm first second).print =
    "(dbus_g_type_get_map (\"GHashTable\", ".toList ++ first.print ++ ", ".toList ++
      second.print ++ "))".toList := by
  simp [mapTerm, Term.print, Term.printRest, tok]

theorem printRest_concat (es : List Term) (n : Token) : Term.printRest (es ++ [.name n]) =
    ", ".toList ++ es.flatMap (fun e ↦ e.print ++ ", ".toList) ++ n.text ++ ")".toList := by
  induction es with
  | nil => simp [Term.print, Term.printRest]
  | cons e es ih =>
      rw [List.cons_append, Term.printRest, ih, List.flatMap_cons]
      simp

theorem print_structTerm (es : List Term) : (structTerm es).print =
    "(dbus_g_type_get_struct (\"GValueArray\", ".toList ++
      es.flatMap (fun e ↦ e.print ++ ", ".toList) ++ "G_TYPE_INVALID))".toList := by
  rw [structTerm, Term.print, Term.print, printRest_concat, Term.print]
  simp [tok]

/-- **The function on signatures.**  On the signature of a type `type_to_gtype` is the
translation of the type. -/
theorem typeToGtype_render (t : DBusType) :
    (typeToGtype (render t)).toOption = (translate t).map printed := by
  induction t with
  | basic b => exact typeToGtype_code b
  | variant => rw [typeToGtype.eq_def]; rfl
  | array t ih =>
      have harray (c : Char) (rest : List Char) (hc : c = '(' ∨ c = 'a')
          (ht : render t = c :: rest) :
          (typeToGtype (render (.array t))).toOption = ((translate t).map fun info ↦
            ⟨"GPtrArray *", collectionTerm info.gtype, "BOXED", true⟩).map printed := by
        rw [render, ht, typeToGtype_array hc, toOption_bind, ← ht, ih]
        cases translate t with
        | none => rfl
        | some info =>
            exact congrArg (fun g ↦ some (GType.mk "GPtrArray *" g "BOXED" true))
              (print_collectionTerm info.gtype).symm
      cases t with
      | basic b => cases b <;> rw [render, typeToGtype.eq_def] <;> rfl
      | variant => rw [typeToGtype.eq_def]; rfl
      | array t => exact harray 'a' _ (.inr rfl) rfl
      | dict key value => exact harray 'a' _ (.inr rfl) rfl
      | struct fields => exact harray '(' _ (.inl rfl) rfl
  | dict key value ih =>
      by_cases hss : key = .string ∧ value = .basic .string
      · obtain ⟨rfl, rfl⟩ := hss
        rw [typeToGtype.eq_def]
        rfl
      · have hlookup := lookup_dict hss
        rw [translate, dictOf_of_ne hss]
        rw [render] at hlookup ⊢
        rw [typeToGtype, hlookup]
        dsimp only
        rw [List.dropLast_concat]
        by_cases hkey : key.Indexes
        · rw [if_neg (not_not.mpr ((code_mem_iff key).mpr hkey)), if_pos hkey, toOption_bind,
            typeToGtype_code]
          cases key.gtype with
          | none => rfl
          | some first =>
              dsimp only [Option.map_some, Option.bind_some]
              rw [toOption_bind, ih]
              cases translate value with
              | none => rfl
              | some second =>
                  exact congrArg (fun g ↦ some (GType.mk "GHashTable *" g "BOXED" false))
                    (print_mapTerm first.gtype second.gtype).symm
        · rw [if_pos (mt (code_mem_iff key).mp hkey), if_neg hkey]
          rfl
  | struct fields ih =>
      rw [render, typeToGtype_paren, List.dropLast_concat, subsigs_renderAll, toOption_bind,
        toOption_mapM ih, translate]
      cases translateAll fields with
      | none => rfl
      | some infos =>
          refine congrArg (fun g ↦ some (GType.mk "GValueArray *" g "BOXED" true)) ?_
          rw [print_structTerm, List.flatMap_map, List.flatMap_map]
          rfl

/-! ## The types that have a GType -/

mutual

/-- The types that can be translated. -/
def Supported : DBusType → Prop
  | .basic b => b ≠ .unixFd
  | .variant => True
  | .array (.basic b) => b ≠ .int16 ∧ b ≠ .uint16 ∧ b ≠ .signature ∧ b ≠ .unixFd
  | .array .variant => False
  | .array t => Supported t
  | .dict key value => key.Indexes ∧ Supported value
  | .struct fields => SupportedAll fields

def SupportedAll : List DBusType → Prop
  | [] => True
  | t :: ts => Supported t ∧ SupportedAll ts

end

theorem isSome_translateAll {ts : List DBusType}
    (h : ∀ t ∈ ts, (translate t).isSome ↔ Supported t) :
    (translateAll ts).isSome ↔ SupportedAll ts := by
  induction ts with
  | nil => exact ⟨fun _ ↦ trivial, fun _ ↦ rfl⟩
  | cons t ts ih =>
      have ht := h t (List.mem_cons_self ..)
      have hts := ih fun t ht ↦ h t (List.mem_cons_of_mem _ ht)
      rw [SupportedAll, ← ht, ← hts, translateAll]
      cases translate t <;> cases translateAll ts <;> simp

theorem isSome_gtype (b : Basic) : b.gtype.isSome ↔ b ≠ .unixFd := by
  cases b <;> simp [Basic.gtype]

theorem isSome_garray (b : Basic) :
    b.garray.isSome ↔ b ≠ .int16 ∧ b ≠ .uint16 ∧ b ≠ .signature ∧ b ≠ .unixFd := by
  cases b <;> simp [Basic.garray]

theorem isSome_translate (t : DBusType) : (translate t).isSome ↔ Supported t := by
  induction t with
  | basic b => exact isSome_gtype b
  | variant => exact ⟨fun _ ↦ trivial, fun _ ↦ rfl⟩
  | array t ih =>
      rw [translate]
      cases t with
      | basic b => exact isSome_garray b
      | variant => exact ⟨fun h ↦ (nomatch h), False.elim⟩
      | _ => exact (iff_of_eq (congrArg (· = true) Option.isSome_map)).trans ih
  | dict key value ih =>
      by_cases hss : key = .string ∧ value = .basic .string
      · obtain ⟨rfl, rfl⟩ := hss
        exact ⟨fun _ ↦ ⟨by decide, by rw [Supported]; decide⟩, fun _ ↦ rfl⟩
      · rw [translate, dictOf_of_ne hss, Supported, ← ih]
        by_cases hkey : key.Indexes
        · obtain ⟨first, hfirst⟩ := Option.isSome_iff_exists.mp
            ((isSome_gtype key).mpr hkey.2.2.2)
          rw [if_pos hkey, hfirst]
          cases translate value <;> simp [hkey]
        · rw [if_neg hkey]
          simp [hkey]
  | struct fields ih => rw [translate, Option.isSome_map, Supported, isSome_translateAll ih]

/-- **Acceptance.**  `type_to_gtype` has a GType for exactly these types, and raises an exception
for the others. -/
theorem accepts_iff (t : DBusType) : (typeToGtype (render t)).toOption.isSome ↔ Supported t := by
  rw [typeToGtype_render, Option.isSome_map, isSome_translate]

/-! ## What an expression stands for -/

/-- The names of types. -/
def names : List (List Char × DBusType) :=
  [("G_TYPE_UCHAR".toList, .basic .byte), ("G_TYPE_BOOLEAN".toList, .basic .boolean),
    ("G_TYPE_INT".toList, .basic .int32), ("G_TYPE_UINT".toList, .basic .uint32),
    ("G_TYPE_INT64".toList, .basic .int64), ("G_TYPE_UINT64".toList, .basic .uint64),
    ("G_TYPE_DOUBLE".toList, .basic .double), ("G_TYPE_STRING".toList, .basic .string),
    ("DBUS_TYPE_G_SIGNATURE".toList, .basic .signature),
    ("DBUS_TYPE_G_OBJECT_PATH".toList, .basic .objectPath), ("G_TYPE_VALUE".toList, .variant),
    ("G_TYPE_STRV".toList, .array (.basic .string)),
    ("DBUS_TYPE_G_UINT_ARRAY".toList, .array (.basic .uint32)),
    ("DBUS_TYPE_G_INT_ARRAY".toList, .array (.basic .int32)),
    ("DBUS_TYPE_G_INT64_ARRAY".toList, .array (.basic .int64)),
    ("DBUS_TYPE_G_UINT64_ARRAY".toList, .array (.basic .uint64)),
    ("DBUS_TYPE_G_DOUBLE_ARRAY".toList, .array (.basic .double)),
    ("DBUS_TYPE_G_BOOLEAN_ARRAY".toList, .array (.basic .boolean)),
    ("DBUS_TYPE_G_STRING_STRING_HASHTABLE".toList, .dict .string (.basic .string))]

/-- What a call gives, from what its arguments behind the name of the container are. -/
def ofCall (f : List Char) (args : List (Option DBusType)) : Option DBusType :=
  if f = "dbus_g_type_get_collection".toList then args.head?.join.map .array
  else if f = "dbus_g_type_get_map".toList then
    match args with
    | [some (.basic key), some value] => some (.dict key value)
    | _ => none
  -- The last argument ends the list.
  else if f = "dbus_g_type_get_struct".toList then (args.dropLast.mapM id).map .struct
  else none

mutual

/-- What an expression stands for. -/
def meaning : Term → Option DBusType
  | .name n => names.lookup n.text
  | .call f _ args => ofCall f.text (meanings args)
  | .paren e => meaning e

def meanings : List Term → List (Option DBusType)
  | [] => []
  | e :: es => meaning e :: meanings es

end

mutual

def widen : DBusType → DBusType
  | .basic b => .basic b.widen
  | .variant => .variant
  | .array t => .array (widen t)
  | .dict key value => .dict key.widen (widen value)
  | .struct fields => .struct (widenAll fields)

def widenAll : List DBusType → List DBusType
  | [] => []
  | t :: ts => widen t :: widenAll ts

end

theorem meaning_gtype {b : Basic} {info : GType Term} (h : b.gtype = some info) :
    meaning info.gtype = some (.basic b.widen) := by
  cases b <;> obtain ⟨⟩ := h <;> rfl

theorem meaning_garray {b : Basic} {info : GType Term} (h : b.garray = some info) :
    meaning info.gtype = some (.array (.basic b.widen)) := by
  cases b <;> obtain ⟨⟩ := h <;> rfl

theorem meaning_collectionTerm (e : Term) :
    meaning (collectionTerm e) = (meaning e).map .array := by
  cases h : meaning e <;> simp [collectionTerm, meaning, meanings, ofCall, tok, h]

theorem meaning_mapTerm {first second : Term} {key : Basic} {value : DBusType}
    (hfirst : meaning first = some (.basic key)) (hsecond : meaning second = some value) :
    meaning (mapTerm first second) = some (.dict key value) := by
  simp [mapTerm, meaning, meanings, ofCall, tok, hfirst, hsecond]

theorem ofCall_struct (args : List (Option DBusType)) :
    ofCall (tok "dbus_g_type_get_struct").text args =
      (args.dropLast.mapM id).map .struct := by
  simp [ofCall, tok]

theorem meanings_append (es es' : List Term) :
    meanings (es ++ es') = meanings es ++ meanings es' := by
  induction es with
  | nil => rfl
  | cons e es ih => rw [List.cons_append, meanings, meanings, ih, List.cons_append]

theorem mapM_id_some {α : Type} (l : List α) : (l.map some).mapM id = some l := by
  induction l with
  | nil => rfl
  | cons a l ih => simp [ih]

theorem meaning_structTerm {es : List Term} {ts : List DBusType}
    (h : meanings es = ts.map some) : meaning (structTerm es) = some (.struct ts) := by
  have hargs : (meanings (es ++ [.name (tok "G_TYPE_INVALID")])).dropLast = ts.map some := by
    rw [meanings_append, h]
    exact List.dropLast_concat
  rw [structTerm, meaning, meaning]
  refine (ofCall_struct _).trans ?_
  rw [hargs, mapM_id_some]
  rfl

theorem meanings_translateAll {ts : List DBusType}
    (h : ∀ t ∈ ts, ∀ info, translate t = some info → meaning info.gtype = some (widen t))
    {infos : List (GType Term)} (hinfos : translateAll ts = some infos) :
    meanings (infos.map GType.gtype) = (widenAll ts).map some := by
  induction ts generalizing infos with
  | nil =>
      obtain rfl := Option.some.inj hinfos
      rfl
  | cons t ts ih =>
      rw [translateAll] at hinfos
      obtain ⟨info, hinfo, hinfos⟩ := Option.bind_eq_some_iff.mp hinfos
      obtain ⟨rest, hrest, ⟨⟩⟩ := Option.bind_eq_some_iff.mp hinfos
      rw [List.map_cons, meanings, h t (List.mem_cons_self ..) info hinfo,
        ih (fun t ht ↦ h t (List.mem_cons_of_mem _ ht)) hrest, widenAll, List.map_cons]

/-- The GType of a type is the one of its values, up to the width of integers. -/
theorem meaning_translate {t : DBusType} {info : GType Term} (h : translate t = some info) :
    meaning info.gtype = some (widen t) := by
  induction t generalizing info with
  | basic b => exact meaning_gtype h
  | variant =>
      obtain rfl := Option.some.inj h
      rfl
  | array t ih =>
      rw [translate] at h
      cases t with
      | basic b => exact meaning_garray h
      | variant => cases h
      | _ =>
          obtain ⟨element, helement, rfl⟩ := Option.map_eq_some_iff.mp h
          exact (meaning_collectionTerm _).trans (congrArg (Option.map array) (ih helement))
  | dict key value ih =>
      by_cases hss : key = .string ∧ value = .basic .string
      · obtain ⟨rfl, rfl⟩ := hss
        obtain rfl := Option.some.inj h
        rfl
      · rw [translate, dictOf_of_ne hss] at h
        split_ifs at h
        obtain ⟨first, hfirst, h⟩ := Option.bind_eq_some_iff.mp h
        obtain ⟨second, hsecond, ⟨⟩⟩ := Option.bind_eq_some_iff.mp h
        exact meaning_mapTerm (meaning_gtype hfirst) (ih hsecond)
  | struct fields ih =>
      rw [translate] at h
      obtain ⟨infos, hinfos, rfl⟩ := Option.map_eq_some_iff.mp h
      exact meaning_structTerm (meanings_translateAll (fun t ht _ ↦ ih t ht) hinfos)

/-! ## Types with the same expression -/

theorem gtype_widen {b : Basic} {info : GType Term} (h : b.gtype = some info) :
    ∃ info', b.widen.gtype = some info' ∧ info'.gtype = info.gtype := by
  cases b <;> obtain ⟨⟩ := h <;> exact ⟨_, rfl, rfl⟩

theorem garray_widen {b : Basic} {info : GType Term} (h : b.garray = some info) :
    b.widen.garray = some info := by
  cases b <;> first | exact h | cases h

theorem eq_string_of_widen {b : Basic} (h : b.widen = .string) : b = .string := by
  cases b <;> first | rfl | cases h

theorem basic_string_of_widen {t : DBusType} (h : widen t = .basic .string) :
    t = .basic .string := by
  cases t with
  | basic b => rw [eq_string_of_widen (DBusType.basic.inj h)]
  | _ => cases h

theorem indexes_widen {b : Basic} (h : b.Indexes) : b.widen.Indexes := by
  revert h
  cases b <;> decide

theorem translateAll_widen {ts : List DBusType}
    (h : ∀ t ∈ ts, ∀ info, translate t = some info →
      ∃ info', translate (widen t) = some info' ∧ info'.gtype = info.gtype)
    {infos : List (GType Term)} (hinfos : translateAll ts = some infos) :
    ∃ infos', translateAll (widenAll ts) = some infos' ∧
      infos'.map GType.gtype = infos.map GType.gtype := by
  induction ts generalizing infos with
  | nil =>
      obtain rfl := Option.some.inj hinfos
      exact ⟨[], rfl, rfl⟩
  | cons t ts ih =>
      rw [translateAll] at hinfos
      obtain ⟨info, hinfo, hinfos⟩ := Option.bind_eq_some_iff.mp hinfos
      obtain ⟨rest, hrest, ⟨⟩⟩ := Option.bind_eq_some_iff.mp hinfos
      obtain ⟨info', hinfo', hgtype⟩ := h t (List.mem_cons_self ..) info hinfo
      obtain ⟨rest', hrest', hgtypes⟩ := ih (fun t ht ↦ h t (List.mem_cons_of_mem _ ht)) hrest
      refine ⟨info' :: rest', ?_, ?_⟩
      · rw [widenAll, translateAll, hinfo', hrest']
        rfl
      · rw [List.map_cons, List.map_cons, hgtype, hgtypes]

theorem translate_widen {t : DBusType} {info : GType Term} (h : translate t = some info) :
    ∃ info', translate (widen t) = some info' ∧ info'.gtype = info.gtype := by
  induction t generalizing info with
  | basic b => exact gtype_widen h
  | variant => exact ⟨info, h, rfl⟩
  | array t ih =>
      rw [translate] at h
      cases t with
      | basic b => exact ⟨info, garray_widen h, rfl⟩
      | variant => cases h
      | _ =>
          obtain ⟨element, helement, rfl⟩ := Option.map_eq_some_iff.mp h
          obtain ⟨element', helement', hgtype⟩ := ih helement
          refine ⟨⟨"GPtrArray *", collectionTerm element'.gtype, "BOXED", true⟩, ?_, by rw [hgtype]⟩
          exact congrArg (Option.map _) helement'
  | dict key value ih =>
      by_cases hss : key = .string ∧ value = .basic .string
      · obtain ⟨rfl, rfl⟩ := hss
        exact ⟨info, h, rfl⟩
      · have hss' : ¬ (key.widen = .string ∧ widen value = .basic .string) :=
          fun h ↦ hss ⟨eq_string_of_widen h.1, basic_string_of_widen h.2⟩
        rw [translate, dictOf_of_ne hss] at h
        split_ifs at h with hkey
        obtain ⟨first, hfirst, h⟩ := Option.bind_eq_some_iff.mp h
        obtain ⟨second, hsecond, ⟨⟩⟩ := Option.bind_eq_some_iff.mp h
        obtain ⟨first', hfirst', hgtype⟩ := gtype_widen hfirst
        obtain ⟨second', hsecond', hgtype'⟩ := ih hsecond
        refine ⟨⟨"GHashTable *", mapTerm first'.gtype second'.gtype, "BOXED", false⟩, ?_,
          by rw [hgtype, hgtype']⟩
        rw [widen, translate, dictOf_of_ne hss', if_pos (indexes_widen hkey), hfirst', hsecond']
        rfl
  | struct fields ih =>
      rw [translate] at h
      obtain ⟨infos, hinfos, rfl⟩ := Option.map_eq_some_iff.mp h
      obtain ⟨infos', hinfos', hgtypes⟩ := translateAll_widen (fun t ht _ ↦ ih t ht) hinfos
      refine ⟨⟨"GValueArray *", structTerm (infos'.map GType.gtype), "BOXED", true⟩, ?_,
        by rw [hgtypes]⟩
      rw [widen, translate, hinfos']
      rfl

/-- The expression that `type_to_gtype` gives, if it accepts the type. -/
def gtypeText (t : DBusType) : Option (List Char) :=
  (typeToGtype (render t)).toOption.map GType.gtype

theorem gtypeText_eq (t : DBusType) :
    gtypeText t = (translate t).map fun info ↦ info.gtype.print := by
  rw [gtypeText, typeToGtype_render, Option.map_map]
  rfl

/-- **Types with the same GType.**  Of two types that `type_to_gtype` accepts the expressions are
the same exactly when the types differ in nothing but 16 and 32 bits of integers. -/
theorem gtypeText_eq_iff {t t' : DBusType} (h : Supported t) (h' : Supported t') :
    gtypeText t = gtypeText t' ↔ widen t = widen t' := by
  obtain ⟨info, hinfo⟩ := Option.isSome_iff_exists.mp ((isSome_translate t).mpr h)
  obtain ⟨info', hinfo'⟩ := Option.isSome_iff_exists.mp ((isSome_translate t').mpr h')
  rw [gtypeText_eq, gtypeText_eq, hinfo, hinfo', Option.map_some, Option.map_some,
    Option.some_inj, Term.print_injective.eq_iff]
  constructor
  · intro hsame
    have hmeaning := meaning_translate hinfo
    rw [hsame, meaning_translate hinfo'] at hmeaning
    exact (Option.some.inj hmeaning).symm
  · intro hwiden
    obtain ⟨wide, hwide, hgtype⟩ := translate_widen hinfo
    obtain ⟨wide', hwide', hgtype'⟩ := translate_widen hinfo'
    rw [hwiden, hwide'] at hwide
    obtain rfl := Option.some.inj hwide
    exact hgtype.symm.trans hgtype'

/-- A table from strings to structures of a variant and an integer of 16 bits. -/
theorem gtypeText_eq_iff_one : gtypeText (.dict .string (.struct [.variant, .basic .int16])) =
      gtypeText (.dict .string (.struct [.variant, .basic .int32])) ↔
    widen (.dict .string (.struct [.variant, .basic .int16])) =
      widen (.dict .string (.struct [.variant, .basic .int32])) :=
  gtypeText_eq_iff (by simp [Supported, SupportedAll, Basic.Indexes])
    (by simp [Supported, SupportedAll, Basic.Indexes])

/-! ## Values -/

/-- A line of the generated code. -/
def callText (f gvaluep name : List Char) : List Char :=
  f ++ " (".toList ++ gvaluep ++ ", ".toList ++ name ++ ");".toList

/-- The function that `move_into_gvalue` and `copy_into_gvalue` choose, with the ones that they
use for strings and for boxed values. -/
def chosen (string boxed gtype : List Char) (marshaller : String) : Option (List Char) :=
  if gtype = "G_TYPE_STRING".toList then some string
  else if marshaller = "BOXED" then some boxed
  else if gtype = "G_TYPE_UCHAR".toList then some "g_value_set_uchar".toList
  else if gtype = "G_TYPE_BOOLEAN".toList then some "g_value_set_boolean".toList
  else if gtype = "G_TYPE_INT".toList then some "g_value_set_int".toList
  else if gtype = "G_TYPE_UINT".toList then some "g_value_set_uint".toList
  else if gtype = "G_TYPE_INT64".toList then some "g_value_set_int".toList
  else if gtype = "G_TYPE_UINT64".toList then some "g_value_set_uint64".toList
  else if gtype = "G_TYPE_DOUBLE".toList then some "g_value_set_double".toList
  else none

/-- What they write; an exception is its text. -/
def intoGvalue (string boxed gvaluep gtype : List Char) (marshaller : String) (name : List Char) :
    Except (List Char) (List Char) :=
  match chosen string boxed gtype marshaller with
  | some f => .ok (callText f gvaluep name)
  | none => .error ("Don't know how to put ".toList ++ gtype ++ " in a GValue".toList)

def moveIntoGvalue (gvaluep gtype : List Char) (marshaller : String) (name : List Char) :
    Except (List Char) (List Char) :=
  intoGvalue "g_value_take_string".toList "g_value_take_boxed".toList gvaluep gtype marshaller name

def copyIntoGvalue (gvaluep gtype : List Char) (marshaller : String) (name : List Char) :
    Except (List Char) (List Char) :=
  intoGvalue "g_value_set_string".toList "g_value_set_boxed".toList gvaluep gtype marshaller name

/-- The function that stores a value of the type. -/
def setter (string boxed : List Char) : DBusType → List Char
  | .basic .string => string
  | .basic .byte => "g_value_set_uchar".toList
  | .basic .boolean => "g_value_set_boolean".toList
  | .basic .int16 | .basic .int32 => "g_value_set_int".toList
  | .basic .uint16 | .basic .uint32 => "g_value_set_uint".toList
  | .basic .int64 => "g_value_set_int64".toList
  | .basic .uint64 => "g_value_set_uint64".toList
  | .basic .double => "g_value_set_double".toList
  | _ => boxed

theorem marshaller_eq_boxed {t : DBusType} {info : GType Term} (h : translate t = some info)
    (ht : ∀ b, t ≠ .basic b) : info.marshaller = "BOXED" := by
  cases t with
  | basic b => exact absurd rfl (ht b)
  | variant =>
      obtain rfl := Option.some.inj h
      rfl
  | array t =>
      rw [translate] at h
      cases t with
      | basic b => cases b <;> obtain ⟨⟩ := h <;> rfl
      | variant => cases h
      | _ =>
          obtain ⟨element, -, rfl⟩ := Option.map_eq_some_iff.mp h
          rfl
  | dict key value =>
      by_cases hss : key = .string ∧ value = .basic .string
      · obtain ⟨rfl, rfl⟩ := hss
        obtain rfl := Option.some.inj h
        rfl
      · rw [translate, dictOf_of_ne hss] at h
        split_ifs at h
        obtain ⟨first, -, h⟩ := Option.bind_eq_some_iff.mp h
        obtain ⟨second, -, ⟨⟩⟩ := Option.bind_eq_some_iff.mp h
        rfl
  | struct fields =>
      rw [translate] at h
      obtain ⟨infos, -, rfl⟩ := Option.map_eq_some_iff.mp h
      rfl

theorem gtype_ne_string {t : DBusType} {info : GType Term} (h : translate t = some info)
    (ht : ∀ b, t ≠ .basic b) : info.gtype.print ≠ "G_TYPE_STRING".toList := by
  intro hprint
  have hname : info.gtype = .name (tok "G_TYPE_STRING") := Term.print_injective hprint
  have hmeaning := meaning_translate h
  rw [hname] at hmeaning
  exact ht _ (basic_string_of_widen (Option.some.inj hmeaning).symm)

theorem setter_of_ne {t : DBusType} (ht : ∀ b, t ≠ .basic b) (string boxed : List Char) :
    setter string boxed t = boxed := by
  cases t with
  | basic b => exact absurd rfl (ht b)
  | _ => rfl

theorem callText_int (gvaluep name : List Char) :
    callText "g_value_set_int".toList gvaluep name ≠
      callText "g_value_set_int64".toList gvaluep name := by
  intro h
  have hchar := congrArg (·[15]?) h
  simp [callText] at hchar

theorem chosen_gtype {b : Basic} {info : GType Term} (h : b.gtype = some info)
    (hb : b ≠ .int64 ∧ b ≠ .signature) (string boxed : List Char) :
    chosen string boxed info.gtype.print info.marshaller =
      some (setter string boxed (.basic b)) := by
  obtain ⟨hint64, hsignature⟩ := hb
  cases b <;> obtain ⟨⟩ := h <;> first | rfl | contradiction

theorem intoGvalue_eq_iff {t : DBusType} {info : GType (List Char)}
    (h : typeToGtype (render t) = .ok info) (string boxed gvaluep name : List Char) :
    intoGvalue string boxed gvaluep info.gtype info.marshaller name =
        .ok (callText (setter string boxed t) gvaluep name) ↔
      t ≠ .basic .int64 ∧ t ≠ .basic .signature := by
  have hrender := typeToGtype_render t
  rw [h] at hrender
  obtain ⟨term, hterm, rfl⟩ := Option.map_eq_some_iff.mp hrender.symm
  have hwritten (hchosen : chosen string boxed term.gtype.print term.marshaller =
      some (setter string boxed t)) : intoGvalue string boxed gvaluep (printed term).gtype
        (printed term).marshaller name = .ok (callText (setter string boxed t) gvaluep name) := by
    rw [intoGvalue]
    exact hchosen ▸ rfl
  constructor
  · intro htext
    constructor <;> rintro rfl <;> obtain ⟨⟩ := hterm
    · exact callText_int gvaluep name (Except.ok.inj htext)
    · cases htext
  · rintro ⟨hint64, hsignature⟩
    apply hwritten
    by_cases ht : ∃ b, t = .basic b
    · obtain ⟨b, rfl⟩ := ht
      exact chosen_gtype hterm ⟨fun hb ↦ hint64 (hb ▸ rfl), fun hb ↦ hsignature (hb ▸ rfl)⟩ _ _
    · have ht : ∀ b, t ≠ .basic b := fun b hb ↦ ht ⟨b, hb⟩
      rw [setter_of_ne ht, chosen, if_neg (gtype_ne_string hterm ht),
        if_pos (marshaller_eq_boxed hterm ht)]

/-- **Storing a value.**  For each type that is accepted the generators write the call that stores
a value of the type, apart from integers of 64 bits with a sign and from signatures. -/
theorem stores_iff {t : DBusType} {info : GType (List Char)}
    (h : typeToGtype (render t) = .ok info) (gvaluep name : List Char) :
    (moveIntoGvalue gvaluep info.gtype info.marshaller name =
        .ok (callText (setter "g_value_take_string".toList "g_value_take_boxed".toList t) gvaluep
          name) ↔ t ≠ .basic .int64 ∧ t ≠ .basic .signature) ∧
      (copyIntoGvalue gvaluep info.gtype info.marshaller name =
        .ok (callText (setter "g_value_set_string".toList "g_value_set_boxed".toList t) gvaluep
          name) ↔ t ≠ .basic .int64 ∧ t ≠ .basic .signature) :=
  ⟨intoGvalue_eq_iff h _ _ _ _, intoGvalue_eq_iff h _ _ _ _⟩

theorem stores_int64 : ¬ copyIntoGvalue "v".toList "G_TYPE_INT64".toList "INT64" "n".toList =
    .ok (callText (setter "g_value_set_string".toList "g_value_set_boxed".toList (.basic .int64))
      "v".toList "n".toList) := by
  have hinfo : typeToGtype (render (.basic .int64)) =
      .ok ⟨"gint64 ", "G_TYPE_INT64".toList, "INT64", false⟩ := typeToGtype_of_lookup rfl
  exact fun h ↦ ((stores_iff hinfo "v".toList "n".toList).2.mp h).1 rfl

end DBusType

end Codegen

end TelepathyFacebook
