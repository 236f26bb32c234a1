import Mathlib.Data.Fintype.EquivFin
import TelepathyFacebook.Soup

/-!
# Parsing forms

`fb_http_values_parse` of `bitlbee-compat/fb-http-values.c`, which reads the pairs of a
form into a table, either from the query of a URL or (so it is meant) from a bare query
string.  The pointer `query` is set only for a URL; without one it is what the stack
happens to hold.

`parse_iff`: a form is read as the pairs it was made of exactly when it is the query of a
URL and the names of the table that equal one of the form have the same hash.
-/

namespace TelepathyFacebook

/-- How `soup_form_decode` has names told apart: they are hashed with `g_str_hash` and
compared with `g_str_equal`. -/
def exactKeying : Keying String String UInt32 := ⟨id, gStrHash⟩

/-- `soup_form_decode`. -/
def soupFormDecode (F : SoupForm) (query : String) : HashTable exactKeying String :=
  HashTable.empty.replaceAll (F.decode query)

/-- The pairs of a form, stored in a table. -/
def storeForm (F : SoupForm) (O : HashTable.Order String String) (values : FbHttpValues)
    (query : String) : FbHttpValues :=
  (O.order (soupFormDecode F query).entries).foldl
    (fun values p ↦ fbHttpValuesSetStr values p.1 p.2) values

/-- `fb_http_values_parse`.  The last argument is what the variable `query` holds before
it is set. -/
def fbHttpValuesParse (P : UriParser) (F : SoupForm) (O : HashTable.Order String String)
    (values : FbHttpValues) (data : String) (isurl : Bool) (unset : Option String) :
    FbHttpValues :=
  if isurl then
    match P.uriNew data with
    | none => values
    | some uri =>
        match uri.query with
        | none => values
        | some query => storeForm F O values query
  else
    match unset with
    | none => values
    | some query => storeForm F O values query

/-- The data brings a form: bare, or as the query of a URL. -/
def Brings (P : UriParser) (data : String) (isurl : Bool) (form : String) : Prop :=
  if isurl then ∃ uri, P.uriNew data = some uri ∧ uri.query = some form else data = form

namespace FbHttpValues

/-- The entries of a table that a form overrides: its own pairs, and the old entries
under other names. -/
def Overrides (values values' : FbHttpValues) (m : List (String × String)) : Prop :=
  values'.entries.Perm
    (m ++ values.entries.filter fun p ↦
      ∀ q ∈ m, httpKeying.fold p.1 ≠ httpKeying.fold q.1)

variable (P : UriParser) (F : SoupForm) (O : HashTable.Order String String)
  {values : FbHttpValues} {m : List (String × String)}

theorem storeForm_eq_replaceAll (query : String) :
    storeForm F O values query = values.replaceAll (O.order (soupFormDecode F query).entries) :=
  rfl

/-- Names that differ but for case differ. -/
theorem nodup_of_fold (hm : (m.map fun p ↦ httpKeying.fold p.1).Nodup) :
    (m.map Prod.fst).Nodup := by
  apply List.Nodup.of_map httpKeying.fold
  rwa [List.map_map]

/-- The pairs of a form come back, in some order. -/
theorem perm_decoded (hm : (m.map Prod.fst).Nodup) :
    (O.order (soupFormDecode F (F.encodeHash m)).entries).Perm m := by
  have hdecode := F.decode_encodeHash m hm
  have hnodup : ((F.decode (F.encodeHash m)).map fun p ↦ exactKeying.fold p.1).Nodup :=
    (hdecode.map Prod.fst).nodup_iff.mpr hm
  have hentries : (soupFormDecode F (F.encodeHash m)).entries = F.decode (F.encodeHash m) := by
    rw [soupFormDecode, HashTable.entries_replaceAll (HashTable.nodup_tag hnodup)]
    rfl
  rw [hentries]
  exact (O.perm _).trans hdecode

/-- Storing a form overrides the table exactly when the hashes agree. -/
theorem overrides_storeForm_iff (hm : (m.map fun p ↦ httpKeying.fold p.1).Nodup) :
    Overrides values (storeForm F O values (F.encodeHash m)) m ↔
      ∀ q ∈ m, values.Agrees q.1 := by
  rw [storeForm_eq_replaceAll]
  exact HashTable.perm_replaceAll_iff hm (perm_decoded F O (nodup_of_fold hm))

/-- Whatever a bare form says, there is a value of the unset variable for which the table
does not become what it says. -/
theorem exists_not_overrides (data : String) :
    ∃ unset, ¬ Overrides values (fbHttpValuesParse P F O values data false unset) m := by
  by_contra hall
  rw [not_exists] at hall
  simp only [not_not] at hall
  have hsame : Overrides values values m := hall none
  obtain ⟨p, hp⟩ := Infinite.exists_notMem_finset values.entries.toFinset
  have hone : ([p].map fun p ↦ httpKeying.fold p.1).Nodup := List.nodup_singleton _
  have hstored : Overrides values (storeForm F O values (F.encodeHash [p])) m :=
    hall (some (F.encodeHash [p]))
  have hperm := perm_decoded F O (m := [p]) (nodup_of_fold hone)
  have hmem : p ∈ (storeForm F O values (F.encodeHash [p])).entries := by
    have hfold : ((O.order (soupFormDecode F (F.encodeHash [p])).entries).map
        fun p ↦ httpKeying.fold p.1).Nodup := (hperm.map _).nodup_iff.mpr hone
    rw [storeForm_eq_replaceAll, HashTable.entries_replaceAll (HashTable.nodup_tag hfold)]
    exact List.mem_append_right _ (hperm.mem_iff.mpr (List.mem_singleton_self p))
  exact hp (List.mem_toFinset.mpr ((hstored.trans hsame.symm).mem_iff.mp hmem))

/-- **When a form is parsed.**  Whatever the variable `query` holds, the table becomes the
form over what it was, if and only if the form is the query of a URL and the names of the
table that are equal to one of the form have the same hash. -/
theorem parse_iff (hm : (m.map fun p ↦ httpKeying.fold p.1).Nodup) {data : String}
    {isurl : Bool} (hdata : Brings P data isurl (F.encodeHash m)) :
    (∀ unset, Overrides values (fbHttpValuesParse P F O values data isurl unset) m) ↔
      isurl = true ∧ ∀ q ∈ m, values.Agrees q.1 := by
  cases isurl with
  | false =>
      refine iff_of_false (fun hall ↦ ?_) (fun h ↦ Bool.false_ne_true h.1)
      obtain ⟨unset, hunset⟩ := exists_not_overrides P F O data
      exact hunset (hall unset)
  | true =>
      obtain ⟨uri, huri, hquery⟩ := hdata
      have hparse (unset : Option String) : fbHttpValuesParse P F O values data true unset =
          storeForm F O values (F.encodeHash m) := by
        simp [fbHttpValuesParse, huri, hquery]
      simp only [hparse, forall_const, true_and]
      exact overrides_storeForm_iff F O hm

/-- A URL whose query is a form with escapes, read into a table with an entry that is
overridden and one that stays. -/
theorem parse_url :
    Overrides (fbHttpValuesSetStr (fbHttpValuesSetStr fbHttpValuesNew "a b" "0") "keep" "1")
      (fbHttpValuesParse .hierarchical .urlencoded (.listed String String)
        (fbHttpValuesSetStr (fbHttpValuesSetStr fbHttpValuesNew "a b" "0") "keep" "1")
        "http://h/?a+b=1%262&%C3%A9=%3D" true none) [("a b", "1&2"), ("é", "=")] := by
  have hm : ([("a b", "1&2"), ("é", "=")].map fun p ↦ httpKeying.fold p.1).Nodup := by decide
  have hdata : Brings .hierarchical "http://h/?a+b=1%262&%C3%A9=%3D" true
      (SoupForm.urlencoded.encodeHash [("a b", "1&2"), ("é", "=")]) := ⟨_, rfl, by decide⟩
  refine (parse_iff .hierarchical .urlencoded (.listed String String) hm hdata).mpr ⟨rfl, ?_⟩ none
  unfold HashTable.Agrees
  decide

/-- A bare form, while `query` holds NULL: nothing is read. -/
theorem bare_form_not_parsed :
    SoupForm.urlencoded.encodeHash [("a", "1")] = "a=1" ∧
      ¬ ∀ unset, Overrides fbHttpValuesNew
        (fbHttpValuesParse .hierarchical .urlencoded (.listed String String) fbHttpValuesNew
          "a=1" false unset) [("a", "1")] := by
  refine ⟨rfl, fun h ↦ ?_⟩
  have hlen := (h none).length_eq
  revert hlen
  decide

end FbHttpValues

end TelepathyFacebook
