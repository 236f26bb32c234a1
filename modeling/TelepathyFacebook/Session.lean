import TelepathyFacebook.StateFile

/-!
# Saving and restoring a session

`fb_connection_save_data` stores the session of an `FbApi` object in the
connection's table and saves the table; `_iface_start_connecting` loads the
table and hands its values to a new `FbApi`.  Both live in `tp/connection.c`.

The table that is saved is the loaded one updated in place, so what a session
restores depends on the sessions before it.  `Sessions` follows any number of
connections on one state file: each is started, saves its session any number of
times, and is shut down.

What `fb_api_rehash` does to the new object after its properties are set belongs
to the FbApi submodule and is not modelled.
-/

namespace TelepathyFacebook

/-- The string properties that `fb_connection_save_data` lists. -/
inductive StringProp where
  | cid | did | stoken | token | machineId | loginFirstFactor | twofactorCode
deriving DecidableEq, Repr

/-- The name of a property, and its key in the table. -/
def StringProp.name : StringProp → String
  | .cid => "cid"
  | .did => "did"
  | .stoken => "stoken"
  | .token => "token"
  | .machineId => "machine_id"
  | .loginFirstFactor => "login_first_factor"
  | .twofactorCode => "twofactor_code"

theorem StringProp.name_injective : Function.Injective StringProp.name := by
  intro p q
  cases p <;> cases q <;> simp [StringProp.name]

/-- The keys of the other properties. -/
theorem StringProp.name_ne (p : StringProp) :
    p.name ≠ "mid" ∧ p.name ≠ "uid" ∧ p.name ≠ "work" := by
  cases p <;> decide

/-- The properties of an `FbApi` object that make up a session. -/
@[ext]
structure FbApi where
  cid : Option String
  did : Option String
  stoken : Option String
  token : Option String
  mid : UInt64
  uid : Int64
  work : Bool
  machineId : Option String
  loginFirstFactor : Option String
  twofactorCode : Option String
deriving DecidableEq, Repr

/-- `g_object_get` of a string property. -/
def FbApi.get (api : FbApi) : StringProp → Option String
  | .cid => api.cid
  | .did => api.did
  | .stoken => api.stoken
  | .token => api.token
  | .machineId => api.machineId
  | .loginFirstFactor => api.loginFirstFactor
  | .twofactorCode => api.twofactorCode

/-- Sessions with the same properties are equal. -/
theorem FbApi.ext_get {a b : FbApi} (hs : ∀ p, a.get p = b.get p) (hm : a.mid = b.mid)
    (hu : a.uid = b.uid) (hw : a.work = b.work) : a = b :=
  FbApi.ext (hs .cid) (hs .did) (hs .stoken) (hs .token) hm hu hw (hs .machineId)
    (hs .loginFirstFactor) (hs .twofactorCode)

namespace Connection

open ConnectionData

/-- The array `props` of `fb_connection_save_data`. -/
def props : List StringProp :=
  [.cid, .did, .stoken, .token, .machineId, .loginFirstFactor, .twofactorCode]

/-- One round of the loop over `props`: a NULL value is skipped. -/
def saveProp (api : FbApi) (data : Option DataTable) (p : StringProp) : Option DataTable :=
  match api.get p with
  | some val => setString data p.name (some val)
  | none => data

/-- `fb_connection_save_data` up to the save: the table it leaves in `priv->data`.
The uid is read into an unsigned variable. -/
def saveProps (data : Option DataTable) (api : FbApi) : Option DataTable :=
  setUint64 (setUint64 (props.foldl (saveProp api) data) "mid" api.mid) "uid" api.uid.toUInt64

/-- The values `_iface_start_connecting` gives to the new `FbApi`. -/
def restore (data : Option DataTable) : FbApi where
  cid := getString data "cid"
  did := getString data "did"
  stoken := getString data "stoken"
  token := getString data "token"
  mid := getUint64 data "mid" 0
  uid := getInt64 data "uid" 0
  work := getBool data "work" false
  machineId := getString data "machine_id"
  loginFirstFactor := getString data "login_first_factor"
  twofactorCode := getString data "twofactor_code"

/-- `_iface_start_connecting`, once it has found that there is no `FbApi` yet: the
new `priv->data`, and the properties of the new `FbApi`. -/
def startConnecting {Text : Type} (J : JsonGlib Text) (io : Io) (file : Option Text)
    (fbId : String) : Option DataTable × FbApi :=
  let data := load J io file fbId
  (data, restore data)

theorem restore_get (data : Option DataTable) (p : StringProp) :
    (restore data).get p = getString data p.name := by
  cases p <;> rfl

theorem restore_mid (data : Option DataTable) : (restore data).mid = getUint64 data "mid" 0 := rfl

theorem restore_uid (data : Option DataTable) : (restore data).uid = getInt64 data "uid" 0 := rfl

/-! ## The table after a save -/

@[simp] theorem saveProp_none (api : FbApi) (p : StringProp) : saveProp api none p = none := by
  rw [saveProp]
  cases api.get p <;> rfl

/-- A missing table stays missing: every setter refuses it. -/
@[simp] theorem saveProps_none (api : FbApi) : saveProps none api = none := by
  simp [saveProps, props, setUint64, setString]

/-- The loop over `props` on a table that is there. -/
def propsTable (api : FbApi) (table : DataTable) : DataTable :=
  props.foldl (fun t p ↦ match api.get p with
    | some val => t.insert p.name (some val)
    | none => t) table

theorem foldl_saveProp (api : FbApi) (table : DataTable) :
    props.foldl (saveProp api) (some table) = some (propsTable api table) := by
  have hlist (l : List StringProp) (t : DataTable) :
      l.foldl (saveProp api) (some t) =
        some (l.foldl (fun t p ↦ match api.get p with
          | some val => t.insert p.name (some val)
          | none => t) t) := by
    induction l generalizing t with
    | nil => rfl
    | cons p l ih =>
        rw [List.foldl_cons, List.foldl_cons, ← ih]
        congr 1
        rw [saveProp]
        cases api.get p <;> rfl
  exact hlist props table

/-- `priv->data` after `fb_connection_save_data`, for a table that is there. -/
def savedTable (table : DataTable) (api : FbApi) : DataTable :=
  ((propsTable api table).insert "mid" (some (formatUint64 api.mid))).insert "uid"
    (some (formatUint64 api.uid.toUInt64))

@[simp] theorem saveProps_some (table : DataTable) (api : FbApi) :
    saveProps (some table) api = some (savedTable table api) := by
  simp [saveProps, foldl_saveProp, setUint64, setString, savedTable]

/-- What a key holds after the loop over `props`. -/
theorem lookup_propsTable (api : FbApi) (table : DataTable) (p : StringProp) :
    (propsTable api table).lookup p.name =
      if (api.get p).isSome then some (api.get p) else table.lookup p.name := by
  rw [propsTable]
  rw [AList.lookup_foldl p.name (some (api.get p)) (fun q ↦ q = p ∧ (api.get q).isSome)]
  · have hp : p ∈ props := by cases p <;> decide
    by_cases h : (api.get p).isSome
    · rw [if_pos ⟨p, hp, rfl, h⟩, if_pos h]
    · rw [if_neg h, if_neg]
      rintro ⟨q, -, rfl, hq⟩
      exact h hq
  · intro t q _
    cases hq : api.get q with
    | none => simp
    | some val =>
        rcases eq_or_ne q p with rfl | h
        · simp [hq]
        · have hne : p.name ≠ q.name := fun hc ↦ h (StringProp.name_injective hc.symm)
          simp [h, AList.lookup_insert_ne hne]

/-- The loop leaves every other key alone. -/
theorem lookup_propsTable_of_ne (api : FbApi) (table : DataTable) {k : String}
    (hk : ∀ p : StringProp, p.name ≠ k) :
    (propsTable api table).lookup k = table.lookup k := by
  rw [propsTable, AList.lookup_foldl k none (fun _ ↦ False)]
  · simp
  · intro t q _
    cases api.get q with
    | none => simp
    | some val => simp [AList.lookup_insert_ne (hk q).symm]

theorem lookup_savedTable (table : DataTable) (api : FbApi) (p : StringProp) :
    (savedTable table api).lookup p.name =
      if (api.get p).isSome then some (api.get p) else table.lookup p.name := by
  rw [savedTable]
  obtain ⟨hmid, huid, -⟩ := p.name_ne
  rw [AList.lookup_insert_ne huid, AList.lookup_insert_ne hmid, lookup_propsTable]

theorem lookup_savedTable_mid (table : DataTable) (api : FbApi) :
    (savedTable table api).lookup "mid" = some (some (formatUint64 api.mid)) := by
  rw [savedTable, AList.lookup_insert_ne (by decide), AList.lookup_insert]

theorem lookup_savedTable_uid (table : DataTable) (api : FbApi) :
    (savedTable table api).lookup "uid" = some (some (formatUint64 api.uid.toUInt64)) :=
  AList.lookup_insert _

/-- Nothing ever stores the key that `work` is restored from. -/
theorem lookup_savedTable_work (table : DataTable) (api : FbApi) :
    (savedTable table api).lookup "work" = table.lookup "work" := by
  rw [savedTable, AList.lookup_insert_ne (by decide), AList.lookup_insert_ne (by decide),
    lookup_propsTable_of_ne api table fun p ↦ p.name_ne.2.2]

/-! ## What a saved table restores -/

theorem getString_savedTable (table : DataTable) (api : FbApi) (p : StringProp) :
    getString (some (savedTable table api)) p.name =
      if (api.get p).isSome then api.get p else getString (some table) p.name := by
  simp only [getString, Option.bind_some, lookup_savedTable]
  split <;> simp

theorem getUint64_mid_savedTable (table : DataTable) (api : FbApi) (default : UInt64) :
    getUint64 (some (savedTable table api)) "mid" default = api.mid := by
  simp [getUint64, getString, lookup_savedTable_mid]

theorem getInt64_uid_savedTable (table : DataTable) {api : FbApi} (huid : 0 ≤ api.uid)
    (default : Int64) : getInt64 (some (savedTable table api)) "uid" default = api.uid := by
  simp [getInt64, getString, lookup_savedTable_uid, gAsciiStrtoll_formatUint64 huid]

/-- **When a saved table restores the session.**  A NULL string is skipped by the
save, so it is restored as NULL only if the table held no older value; `work` is
not saved at all. -/
theorem restore_savedTable_iff {table : DataTable} (hwork : table.lookup "work" = none)
    {api : FbApi} (huid : 0 ≤ api.uid) :
    restore (some (savedTable table api)) = api ↔
      api.work = false ∧
        ∀ p, api.get p = none → getString (some table) p.name = none := by
  have hrwork : (restore (some (savedTable table api))).work = false := by
    simp [restore, getBool, getString, lookup_savedTable_work, hwork]
  constructor
  · intro h
    refine ⟨h ▸ hrwork, fun p hp ↦ ?_⟩
    have hget : getString (some (savedTable table api)) p.name = api.get p := by
      rw [← restore_get, h]
    rw [getString_savedTable, hp] at hget
    simpa using hget
  · rintro ⟨hw, hnull⟩
    have hmid : (restore (some (savedTable table api))).mid = api.mid := by
      rw [restore_mid, getUint64_mid_savedTable]
    have hruid : (restore (some (savedTable table api))).uid = api.uid := by
      rw [restore_uid, getInt64_uid_savedTable table huid]
    refine FbApi.ext_get (fun p ↦ ?_) hmid hruid (hrwork.trans hw.symm)
    rw [restore_get, getString_savedTable]
    split
    · rfl
    · next hp =>
        have hnone : api.get p = none := by simpa using hp
        rw [hnone, hnull p hnone]

/-- What is restored depends on the values of the keys only. -/
theorem restore_congr {t t' : DataTable} (h : ∀ k, t.lookup k = t'.lookup k) :
    restore (some t) = restore (some t') := by
  simp [restore, getString, getUint64, getInt64, getBool, h]

end Connection

end TelepathyFacebook
