import TelepathyFacebook.Session

/-!
# Sessions of many connections on one state file

A connection loads its table when it starts, updates it in place and saves it
each time `FbApi` reports progress, and drops it when it shuts down.  Any number
of connections, of any accounts, share the file.

* `restore_roundtrip_iff`: the next start of the account gives the new `FbApi`
  the session that was saved, exactly when `work` is false and no NULL string
  hides an older value.
* `recovery_iff`: a connection persists its session whatever it found in the
  file, unless that was no JSON: then its table is missing for good, every
  setter refuses it and so does every save.
-/

namespace TelepathyFacebook.Connection

open ConnectionData

/-- The state file, and the connections that hold an `FbApi`, each with its
`priv->data`. -/
structure Sessions (Text : Type) where
  file : Option Text
  data : Nat → Option (Option DataTable)

/-- What a connection does to the file and its table. -/
inductive SessionEvent where
  /-- `_iface_start_connecting`. -/
  | start (c : Nat) (io : Io)
  /-- `fb_connection_save_data`, with the values `FbApi` holds. -/
  | save (c : Nat) (api : FbApi) (io : Io)
  /-- `_iface_shut_down`. -/
  | shutDown (c : Nat)

namespace Sessions

variable {Text : Type} (J : JsonGlib Text) (fbId : Nat → String)

/-- Set the table of one connection. -/
def setData (s : Sessions Text) (c : Nat) (d : Option (Option DataTable)) : Sessions Text :=
  { s with data := Function.update s.data c d }

@[simp] theorem setData_file (s : Sessions Text) (c : Nat) (d : Option (Option DataTable)) :
    (s.setData c d).file = s.file := rfl

@[simp] theorem setData_self (s : Sessions Text) (c : Nat) (d : Option (Option DataTable)) :
    (s.setData c d).data c = d := Function.update_self ..

theorem setData_of_ne (s : Sessions Text) {c c' : Nat} (h : c' ≠ c)
    (d : Option (Option DataTable)) : (s.setData c d).data c' = s.data c' :=
  Function.update_of_ne h ..

/-- One event; `fbId c` is the login id of connection `c`.  Starting a connection
that has an `FbApi` is an error, and only one that has it saves. -/
def step (s : Sessions Text) : SessionEvent → Sessions Text
  | .start c io =>
      match s.data c with
      | some _ => s
      | none => s.setData c (some (startConnecting J io s.file (fbId c)).1)
  | .save c api io =>
      match s.data c with
      | none => s
      | some data =>
          { s.setData c (some (saveProps data api)) with
            file := (save J io s.file (fbId c) (saveProps data api)).2 }
  | .shutDown c => s.setData c none

/-- No file, and no connection started. -/
def init : Sessions Text := ⟨none, fun _ ↦ none⟩

/-- A connection that holds an `FbApi` saves its updated table. -/
theorem step_save_file {s : Sessions Text} {c : Nat} {data : Option DataTable}
    (h : s.data c = some data) (api : FbApi) (io : Io) :
    (step J fbId s (.save c api io)).file =
      (ConnectionData.save J io s.file (fbId c) (saveProps data api)).2 := by
  simp [step, h]

/-! ## Nothing stores `work` -/

/-- No entry of the file and no table of a connection has a key `work`. -/
structure NoWork (s : Sessions Text) : Prop where
  file : ∀ id, (loadEntry ((entryOf J s.file id).bind JsonNode.getObject)).lookup "work" = none
  data : ∀ c table, s.data c = some (some table) → table.lookup "work" = none

variable {J fbId}

theorem noWork_init : NoWork J (init : Sessions Text) where
  file _ := rfl
  data c table h := by cases h

theorem NoWork.start {s : Sessions Text} (h : NoWork J s) (c : Nat) (io : Io) :
    NoWork J (step J fbId s (.start c io)) := by
  cases hc : s.data c with
  | some data => simpa [step, hc] using h
  | none =>
      refine ⟨by simpa [step, hc] using h.file, fun c' table ht ↦ ?_⟩
      simp only [step, hc] at ht
      rcases eq_or_ne c' c with rfl | hcc
      · rw [setData_self, Option.some.injEq] at ht
        rcases load_cases J ht with rfl | rfl
        · rfl
        · exact h.file _
      · rw [setData_of_ne s hcc] at ht
        exact h.data c' table ht

theorem NoWork.save {s : Sessions Text} (h : NoWork J s) (c : Nat) (api : FbApi) (io : Io) :
    NoWork J (step J fbId s (.save c api io)) := by
  cases hc : s.data c with
  | none => simpa [step, hc] using h
  | some data =>
      have hsaved (table : DataTable) (ht : saveProps data api = some table) :
          table.lookup "work" = none := by
        cases data with
        | none => simp at ht
        | some old =>
            rw [saveProps_some, Option.some.injEq] at ht
            rw [← ht, lookup_savedTable_work, h.data c old hc]
      refine ⟨fun id ↦ ?_, fun c' table ht ↦ ?_⟩
      · simp only [step, hc]
        rcases save_cases J io s.file (fbId c) (saveProps data api) with hs | ⟨table, ht, hw⟩
        · rw [hs]
          exact h.file id
        · rw [ht, entryOf_save J hw]
          split
          · simpa using hsaved table ht
          · split
            · exact h.file id
            · rfl
      · simp only [step, hc] at ht
        rcases eq_or_ne c' c with rfl | hcc
        · rw [setData_self, Option.some.injEq] at ht
          exact hsaved table ht
        · rw [setData_of_ne s hcc] at ht
          exact h.data c' table ht

theorem NoWork.step {s : Sessions Text} (h : NoWork J s) (e : SessionEvent) :
    NoWork J (step J fbId s e) := by
  cases e with
  | start c io => exact h.start c io
  | save c api io => exact h.save c api io
  | shutDown c =>
      refine ⟨h.file, fun c' table ht ↦ ?_⟩
      rcases eq_or_ne c' c with rfl | hcc
      · simp [Sessions.step] at ht
      · rw [Sessions.step, setData_of_ne s hcc] at ht
        exact h.data c' table ht

/-! ## The round trip -/

/-- An event that leaves the saved entry of an account alone: any but a save of
that account, and any save of another one that can read the file. -/
def Spares (fbId : Nat → String) (id : String) : SessionEvent → Prop
  | .save c _ io => fbId c ≠ id ∧ io.readable = true
  | _ => True

/-- Sparing events change neither what the account loads nor that the file loads. -/
theorem load_step_of_spares {s : Sessions Text} {id : String} (hfile : Loadable J s.file)
    {e : SessionEvent} (he : Spares fbId id e) :
    Loadable J (step J fbId s e).file ∧
      load J Io.ok (step J fbId s e).file id = load J Io.ok s.file id := by
  cases e with
  | start c io => cases hc : s.data c <;> simp [Sessions.step, hc, hfile]
  | shutDown c => exact ⟨hfile, rfl⟩
  | save c api io =>
      cases hc : s.data c with
      | none => simp [Sessions.step, hc, hfile]
      | some data =>
          simp only [Sessions.step, hc]
          exact ⟨loadable_save J io hfile _ _,
            load_save_other J he.2 Io.readable_ok hfile he.1.symm _⟩

theorem load_foldl_of_spares {s : Sessions Text} {id : String} (hfile : Loadable J s.file)
    {es : List SessionEvent} (hes : ∀ e ∈ es, Spares fbId id e) :
    load J Io.ok (es.foldl (step J fbId) s).file id = load J Io.ok s.file id := by
  induction es generalizing s with
  | nil => rfl
  | cons e es ih =>
      obtain ⟨hfile', hload⟩ := load_step_of_spares hfile (hes e List.mem_cons_self)
      rw [List.foldl_cons, ih hfile' fun e' he' ↦ hes e' (List.mem_cons_of_mem e he'), hload]

/-- **The session round trip.**  Run any connections on a file that this program
wrote, and let connection `c`, whose table is `data`, save the session `api`
with success.  Other accounts may go on saving; the next start of the account
then gives the new `FbApi` exactly `api`, if and only if `work` is false and no
string that is NULL has an older value in the table. -/
theorem restore_roundtrip_iff (es : List SessionEvent) (c : Nat) (data : Option DataTable)
    (hdata : (es.foldl (step J fbId) init).data c = some data) (api : FbApi)
    (huid : 0 ≤ api.uid) (io : Io)
    (hsave : (save J io (es.foldl (step J fbId) init).file (fbId c) (saveProps data api)).1 = true)
    (es' : List SessionEvent) (hes' : ∀ e ∈ es', Spares fbId (fbId c) e) :
    (startConnecting J Io.ok
        (es'.foldl (step J fbId)
          (step J fbId (es.foldl (step J fbId) init) (.save c api io))).file (fbId c)).2 = api ↔
      api.work = false ∧ ∀ p, api.get p = none → getString data p.name = none := by
  generalize hs : es.foldl (step J fbId) init = s at hdata hsave ⊢
  have hnowork : NoWork J s := by
    rw [← hs]
    exact Runs.foldl_invariant (P := NoWork J) (fun _ e h ↦ h.step e) noWork_init es
  obtain ⟨hsome, hw⟩ : (saveProps data api).isSome ∧ io.write = true := by simpa using hsave
  cases data with
  | none => simp at hsome
  | some table =>
      have hstep : (step J fbId s (.save c api io)).file =
          (save J io s.file (fbId c) (some (savedTable table api))).2 := by
        rw [step_save_file J fbId hdata, saveProps_some]
      have hfile : Loadable J (step J fbId s (.save c api io)).file := by
        rw [hstep, save_snd J hw]
        exact loadable_savedTop J _ _ _ _
      have hload : load J Io.ok (es'.foldl (step J fbId) (step J fbId s (.save c api io))).file
          (fbId c) = some (loadEntry (some (buildEntry (savedTable table api)))) := by
        rw [load_foldl_of_spares hfile hes', hstep, load_save_self J hw Io.readable_ok]
      rw [startConnecting, hload,
        restore_congr (lookup_loadEntry_buildEntry (savedTable table api)),
        restore_savedTable_iff (hnowork.data c table hdata) huid]

/-- A session with a token, into a first file. -/
theorem restore_roundtrip_first :
    (startConnecting JsonGlib.documents Io.ok
        (step JsonGlib.documents (fun _ ↦ "alice")
          ([.start 0 Io.ok].foldl (step JsonGlib.documents fun _ ↦ "alice") init)
          (.save 0 { restore none with token := some "new", uid := 7 } Io.ok)).file "alice").2 =
      { restore none with token := some "new", uid := 7 } :=
  (restore_roundtrip_iff (J := JsonGlib.documents) [.start 0 Io.ok] 0
    (some ∅) rfl { restore none with token := some "new", uid := 7 } (by decide) Io.ok rfl []
    (by simp)).mpr ⟨rfl, fun p _ ↦ by cases p <;> rfl⟩

/-- A session that has a token, then one in which it is NULL: the second save
succeeds, and the old token comes back. -/
theorem restore_stale_token :
    (save JsonGlib.documents Io.ok
        ([.start 0 Io.ok, .save 0 { restore none with token := some "old" } Io.ok].foldl
          (step JsonGlib.documents fun _ ↦ "alice") init).file "alice"
        (saveProps (some (savedTable ∅ { restore none with token := some "old" }))
          (restore none))).1 = true ∧
      (startConnecting JsonGlib.documents Io.ok
        ([.start 0 Io.ok, .save 0 { restore none with token := some "old" } Io.ok,
            .save 0 (restore none) Io.ok].foldl
          (step JsonGlib.documents fun _ ↦ "alice") init).file "alice").2 ≠ restore none := by
  refine ⟨rfl, fun h ↦ ?_⟩
  have htoken := congrArg FbApi.token h
  revert htoken
  decide

/-! ## Recovery from an unusable file -/

/-- The account loads a table that holds the non-NULL strings, the mid and the
uid of `api`. -/
def Recovered (J : JsonGlib Text) (file : Option Text) (id : String) (api : FbApi) : Prop :=
  ∃ table, load J Io.ok file id = some table ∧
    (∀ p val, api.get p = some val → getString (some table) p.name = some val) ∧
    getUint64 (some table) "mid" 0 = api.mid ∧
    getUint64 (some table) "uid" 0 = api.uid.toUInt64 ∧
    (0 ≤ api.uid → getInt64 (some table) "uid" 0 = api.uid)

/-- Saving a session into a table that is there recovers, whatever the file. -/
theorem recovered_save {io : Io} (hw : io.write) (file : Option Text) (id : String)
    (table : DataTable) (api : FbApi) :
    Recovered J (save J io file id (saveProps (some table) api)).2 id api := by
  have hsame (k : String) := lookup_loadEntry_buildEntry (savedTable table api) k
  refine ⟨_, by rw [saveProps_some, load_save_self J hw Io.readable_ok], fun p val hp ↦ ?_, ?_, ?_,
    fun huid ↦ ?_⟩
  · have h := getString_savedTable table api p
    simp only [hp, Option.isSome_some, if_true] at h
    simpa [getString, hsame] using h
  · simp [getUint64, getString, hsame, lookup_savedTable_mid]
  · simp [getUint64, getString, hsame, lookup_savedTable_uid]
  · simp [getInt64, getString, hsame, lookup_savedTable_uid, gAsciiStrtoll_formatUint64 huid]

/-- A connection keeps its table until it shuts down. -/
theorem isSome_table_step {s : Sessions Text} {c : Nat} {e : SessionEvent}
    (he : e ≠ .shutDown c) (h : ∃ table, s.data c = some (some table)) :
    ∃ table, (step J fbId s e).data c = some (some table) := by
  obtain ⟨table, hc⟩ := h
  cases e with
  | start c' io =>
      cases hc' : s.data c' with
      | some data => exact ⟨table, by simpa [Sessions.step, hc'] using hc⟩
      | none =>
          have hne : c ≠ c' := by
            rintro rfl
            rw [hc] at hc'
            cases hc'
          exact ⟨table, by simpa [Sessions.step, hc', setData_of_ne s hne] using hc⟩
  | save c' api io =>
      cases hc' : s.data c' with
      | none => exact ⟨table, by simpa [Sessions.step, hc'] using hc⟩
      | some data =>
          rcases eq_or_ne c c' with rfl | hne
          · obtain rfl : data = some table := by simpa [hc] using hc'.symm
            exact ⟨savedTable table api, by simp [Sessions.step, hc]⟩
          · exact ⟨table, by simpa [Sessions.step, hc', setData_of_ne s hne] using hc⟩
  | shutDown c' =>
      have hne : c ≠ c' := by
        rintro rfl
        exact he rfl
      exact ⟨table, by simpa [Sessions.step, setData_of_ne s hne] using hc⟩

theorem isSome_table_foldl {s : Sessions Text} {c : Nat} {es : List SessionEvent}
    (hes : .shutDown c ∉ es) (h : ∃ table, s.data c = some (some table)) :
    ∃ table, (es.foldl (step J fbId) s).data c = some (some table) := by
  induction es generalizing s with
  | nil => exact h
  | cons e es ih =>
      rw [List.mem_cons, not_or] at hes
      exact ih hes.2 (isSome_table_step (Ne.symm hes.1) h)

/-- **Recovery.**  A connection that starts on a file persists every later
session of its own, whatever happens to the file in between, if and only if the
file was absent or JSON of any kind when it started. -/
theorem recovery_iff (s : Sessions Text) (c : Nat) (hc : s.data c = none) :
    (∀ (es : List SessionEvent) (api : FbApi) (io : Io),
      .shutDown c ∉ es → io.write = true →
      Recovered J
        (step J fbId (es.foldl (step J fbId) (step J fbId s (.start c Io.ok)))
          (.save c api io)).file (fbId c) api) ↔
      Loadable J s.file := by
  classical
  have hstart : (step J fbId s (.start c Io.ok)).data c =
      some (load J Io.ok s.file (fbId c)) := by
    simp [Sessions.step, hc, startConnecting]
  constructor
  · intro h
    by_contra hfile
    have hnull : load J Io.ok s.file (fbId c) = none := by
      rw [load_readable J Io.readable_ok, if_neg hfile]
    obtain ⟨table, htable, -⟩ := h [] (restore none) Io.ok (by simp) rfl
    have hunchanged : (step J fbId (step J fbId s (.start c Io.ok))
        (.save c (restore none) Io.ok)).file = s.file := by
      simp [Sessions.step, hc, startConnecting, hnull]
    rw [List.foldl_nil, hunchanged, hnull] at htable
    cases htable
  · intro hfile es api io hes hw
    have htable : ∃ table, (step J fbId s (.start c Io.ok)).data c = some (some table) := by
      rw [hstart, load_readable J Io.readable_ok, if_pos hfile]
      exact ⟨_, rfl⟩
    obtain ⟨table, ht⟩ := isSome_table_foldl hes htable
    rw [step_save_file J fbId ht]
    exact recovered_save hw _ _ table api

/-- An empty file, which has no root, is recovered from. -/
theorem recovery_null_root :
    Recovered JsonGlib.documents
      (step JsonGlib.documents (fun _ ↦ "alice")
        (step JsonGlib.documents (fun _ ↦ "alice")
          ⟨some (.root none), fun _ ↦ none⟩ (.start 0 Io.ok))
        (.save 0 { restore none with token := some "new" } Io.ok)).file "alice"
      { restore none with token := some "new" } :=
  (recovery_iff (J := JsonGlib.documents)
    ⟨some (.root none), fun _ ↦ none⟩ 0 rfl).mpr (by rintro text ⟨⟩; rfl) [] _ Io.ok
    (by simp) rfl

/-- A truncated file keeps the session from being saved. -/
theorem truncated_not_recovered :
    ¬ Recovered JsonGlib.documents
      (step JsonGlib.documents (fun _ ↦ "alice")
        (step JsonGlib.documents (fun _ ↦ "alice")
          ⟨some (.malformed "trunc"), fun _ ↦ none⟩ (.start 0 Io.ok))
        (.save 0 { restore none with token := some "new" } Io.ok)).file "alice"
      { restore none with token := some "new" } := by
  rintro ⟨table, h, -⟩
  cases h

end Sessions

end TelepathyFacebook.Connection
