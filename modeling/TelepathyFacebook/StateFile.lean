import TelepathyFacebook.ConnectionData
import TelepathyFacebook.Lib.Runs

/-!
# The state file as a map from accounts to tables

`fb_connection_data_save` reads the shared file, replaces one entry and writes
the whole file back.  The facts about one call come first: what each of the
three loops leaves under a key, and from that what `load` reads after `save`.

* `load_save_self` and `load_save_other` are the read-modify-write law: the
  saved account reads back its table, every other account what it had.
* `stateFile_refines` lifts the law to runs: the file simulates `Accounts`, a
  plain map from account id to table.
* `save_failsafe_iff` is the law for the error paths.  A failed *read* is
  followed by a write of the new entry alone, so the law fails exactly there.
-/

namespace TelepathyFacebook.ConnectionData

variable {Text : Type} (J : JsonGlib Text)

/-! ## The three loops -/

/-- What a key of the loaded table holds: the string of the member, NULL when
the member is no string. -/
theorem lookup_loadEntry (entry : Option JsonObject) (k : String) :
    (loadEntry entry).lookup k = (JsonObject.getMember entry k).map JsonNode.getString := by
  rw [loadEntry]
  rw [AList.lookup_foldl k (some (JsonObject.getStringMember entry k)) (fun x ↦ x = k)]
  · cases entry with
    | none => simp [JsonObject.getMembers, JsonObject.getMember]
    | some entry =>
        by_cases h : k ∈ entry.keys
        · obtain ⟨node, hnode⟩ :=
            Option.isSome_iff_exists.mp (AList.lookup_isSome.mpr (AList.mem_keys.mpr h))
          simp [JsonObject.getMembers, JsonObject.getStringMember, JsonObject.getMember, h, hnode]
        · have hnone : entry.lookup k = none := AList.lookup_eq_none.mpr (mt AList.mem_keys.mp h)
          simp [JsonObject.getMembers, JsonObject.getMember, h, hnone]
  · intro t x _
    rcases eq_or_ne x k with rfl | h
    · simp
    · rw [if_neg h, AList.lookup_insert_ne (Ne.symm h)]

@[simp] theorem loadEntry_none : loadEntry none = ∅ := rfl

/-- The copy loop carries every entry but the own one. -/
theorem lookup_copyOthers (existing : JsonObject) (fbId k : String) :
    (copyOthers existing fbId).lookup k = if k = fbId then none else existing.lookup k := by
  rw [copyOthers, AList.lookup_foldl k (existing.lookup k) (fun x ↦ x = k ∧ x ≠ fbId)]
  · by_cases hk : k = fbId
    · simp [hk]
    · by_cases hm : k ∈ existing.keys
      · simp [hk, hm]
      · have hnone : existing.lookup k = none := AList.lookup_eq_none.mpr (mt AList.mem_keys.mp hm)
        simp [hk, hnone]
  · intro t x hx
    obtain ⟨node, hnode⟩ :=
      Option.isSome_iff_exists.mp (AList.lookup_isSome.mpr (AList.mem_keys.mpr hx))
    by_cases hx' : x = fbId
    · simp [hx']
    · rcases eq_or_ne x k with rfl | hk
      · simp [hx', JsonObject.lookup_setMember, JsonObject.getMember, hnode]
      · simp [hx', hk, JsonObject.lookup_setMember]

/-- The builder loop stores every pair of the table. -/
theorem lookup_buildEntry (data : DataTable) (k : String) :
    (buildEntry data).lookup k = (data.lookup k).map JsonNode.ofString := by
  rw [buildEntry]
  rw [AList.lookup_foldl k ((data.lookup k).map JsonNode.ofString) (fun kv ↦ kv.1 = k)]
  · by_cases h : k ∈ data.keys
    · have hex : ∃ x ∈ data.entries, x.1 = k := by
        simpa [AList.keys, List.keys] using h
      rw [if_pos hex]
    · have hnone : data.lookup k = none := AList.lookup_eq_none.mpr (mt AList.mem_keys.mp h)
      simp [hnone]
  · rintro t ⟨k', v⟩ hkv
    have hv : data.lookup k' = some v := AList.mem_lookup_iff.mpr hkv
    rcases eq_or_ne k' k with rfl | h
    · simp [JsonObject.lookup_setMember, hv]
    · simp [JsonObject.lookup_setMember, h]

/-- Building the entry of a table and loading it gives the table back, NULL
values included. -/
@[simp] theorem lookup_loadEntry_buildEntry (data : DataTable) (k : String) :
    (loadEntry (some (buildEntry data))).lookup k = data.lookup k := by
  rw [lookup_loadEntry]
  simp [JsonObject.getMember, lookup_buildEntry, Function.comp_def]

theorem loadEntry_buildEntry (data : DataTable) :
    (loadEntry (some (buildEntry data))).toFinmap = data.toFinmap :=
  AList.toFinmap_eq_of_lookup (lookup_loadEntry_buildEntry data)

/-! ## One load, one save -/

/-- The root object of a file; NULL when there is no file, it is no JSON, or its
root is no object. -/
def topOf (file : Option Text) : Option JsonObject :=
  ((file.bind J.parse).join).bind JsonNode.getObject

/-- The entry that a file holds for an account. -/
def entryOf (file : Option Text) (fbId : String) : Option JsonNode :=
  JsonObject.getMember (topOf J file) fbId

/-- A file that `fb_connection_data_load` can load: absent, or JSON of any kind. -/
def Loadable (file : Option Text) : Prop := ∀ text ∈ file, (J.parse text).isSome

/-- Loading a readable file gives the entry of the account, empty when it is
missing or no object, and NULL when the file is no JSON. -/
theorem load_readable {io : Io} (hio : io.readable) (file : Option Text) (fbId : String)
    [Decidable (Loadable J file)] :
    load J io file fbId =
      if Loadable J file then some (loadEntry ((entryOf J file fbId).bind JsonNode.getObject))
      else none := by
  obtain ⟨hstat, hread⟩ : io.stat = true ∧ io.read = true := by simpa [Io.readable] using hio
  cases file with
  | none => simp [load, fileExists, Loadable, entryOf, topOf, JsonObject.getMember]
  | some text =>
      cases hparse : J.parse text with
      | none =>
          simp [load, fileExists, parserLoadFromFile, hstat, hread, Loadable, hparse]
      | some root =>
          simp only [load, fileExists, parserLoadFromFile, hstat, hread, hparse, Loadable,
            entryOf, topOf, JsonObject.getObjectMember, Option.isSome_some, Bool.and_self,
            if_true, Option.bind_some, Option.mem_def, Option.some.injEq, forall_eq',
            Option.join_some]
          cases htop : root.bind JsonNode.getObject with
          | none => simp [JsonObject.hasMember, JsonObject.getMember]
          | some top =>
              cases hentry : top.lookup fbId with
              | none => simp [JsonObject.hasMember, JsonObject.getMember, hentry]
              | some node => simp [JsonObject.hasMember, JsonObject.getMember, hentry]

/-- Whatever is loaded is empty or the entry of the account. -/
theorem load_cases {io : Io} {file : Option Text} {fbId : String} {table : DataTable}
    (h : load J io file fbId = some table) :
    table = ∅ ∨ table = loadEntry ((entryOf J file fbId).bind JsonNode.getObject) := by
  classical
  cases hio : io.readable with
  | true =>
      rw [load_readable J hio] at h
      split at h
      · exact Or.inr (Option.some.inj h).symm
      · cases h
  | false =>
      cases hs : io.stat with
      | false =>
          left
          simpa [load, fileExists, hs] using h.symm
      | true =>
          have hr : io.read = false := by simpa [Io.readable, hs] using hio
          cases file with
          | none =>
              left
              simpa [load, fileExists] using h.symm
          | some text => simp [load, fileExists, parserLoadFromFile, hs, hr] at h

/-- The entries that `save` starts from, when it can read the file. -/
theorem lookup_existingOthers {io : Io} (hio : io.readable) (file : Option Text)
    (fbId k : String) :
    (existingOthers J io file fbId).lookup k = if k = fbId then none else entryOf J file k := by
  obtain ⟨hstat, hread⟩ : io.stat = true ∧ io.read = true := by simpa [Io.readable] using hio
  cases file with
  | none => simp [existingOthers, fileExists, entryOf, topOf, JsonObject.getMember]
  | some text =>
      simp only [existingOthers, fileExists, parserLoadFromFile, hstat, hread, entryOf, topOf,
        Option.isSome_some, Bool.and_self, if_true, Option.bind_some]
      cases J.parse text with
      | none => simp [JsonObject.getMember]
      | some root =>
          cases htop : root.bind JsonNode.getObject with
          | none => simp [htop, JsonObject.getMember]
          | some top => simp [htop, JsonObject.getMember, lookup_copyOthers]

/-- When `save` cannot read the file, it starts from nothing. -/
theorem existingOthers_of_not_readable {io : Io} (hio : io.readable = false)
    (file : Option Text) (fbId : String) : existingOthers J io file fbId = ∅ := by
  cases hs : io.stat with
  | false => simp [existingOthers, fileExists, hs]
  | true =>
      have hr : io.read = false := by simpa [Io.readable, hs] using hio
      simp [existingOthers, parserLoadFromFile, hr]

@[simp] theorem save_none (io : Io) (file : Option Text) (fbId : String) :
    save J io file fbId none = (false, file) := rfl

/-- A save that returns FALSE changes nothing. -/
theorem save_eq_of_false {io : Io} {file : Option Text} {fbId : String} {data : Option DataTable}
    (h : (save J io file fbId data).1 = false) : (save J io file fbId data).2 = file := by
  cases data with
  | none => rfl
  | some data =>
      cases hw : io.write with
      | false => simp [save, hw]
      | true => simp [save, hw] at h

/-- A save succeeds exactly when it is given a table and the write succeeds. -/
@[simp] theorem save_fst (io : Io) (file : Option Text) (fbId : String)
    (data : Option DataTable) : (save J io file fbId data).1 = (data.isSome && io.write) := by
  cases data with
  | none => rfl
  | some data => cases hw : io.write <;> simp [save, hw]

/-- A save leaves the file alone, or it was given a table and the write succeeded. -/
theorem save_cases (io : Io) (file : Option Text) (fbId : String) (data : Option DataTable) :
    (save J io file fbId data).2 = file ∨ ∃ table, data = some table ∧ io.write = true := by
  cases hs : (save J io file fbId data).1 with
  | false => exact .inl (save_eq_of_false J hs)
  | true =>
      obtain ⟨hd, hw⟩ : data.isSome ∧ io.write = true := by simpa using hs
      obtain ⟨table, htable⟩ := Option.isSome_iff_exists.mp hd
      exact .inr ⟨table, htable, hw⟩

/-- The file after a save that succeeded. -/
theorem save_snd {io : Io} (hw : io.write) (file : Option Text) (fbId : String)
    (data : DataTable) :
    (save J io file fbId (some data)).2 =
      some (J.generate (savedTop J io file fbId data).toNode) := by
  simp [save, hw]

theorem lookup_savedTop (io : Io) (file : Option Text) (fbId : String) (data : DataTable)
    (k : String) :
    (savedTop J io file fbId data).lookup k =
      if fbId = k then some (buildEntry data).toNode
      else (existingOthers J io file fbId).lookup k := by
  simp [savedTop, JsonObject.lookup_setMember]

/-- What was read can be written. -/
theorem storable_of_entryOf {file : Option Text} {k : String} {node : JsonNode}
    (h : entryOf J file k = some node) : Storable J.parse node := by
  obtain ⟨top, htop, hnode⟩ := Option.bind_eq_some_iff.mp h
  obtain ⟨root, hroot, htop⟩ := Option.bind_eq_some_iff.mp htop
  obtain ⟨text, -, hparse⟩ := Option.bind_eq_some_iff.mp (Option.join_eq_some_iff.mp hroot)
  exact .member hparse htop hnode

theorem storable_buildEntry (data : DataTable) : Storable J.parse (buildEntry data).toNode := by
  refine .object _ fun name node hnode ↦ ?_
  rw [lookup_buildEntry] at hnode
  obtain ⟨v, -, rfl⟩ := Option.map_eq_some_iff.mp hnode
  exact .ofString v

/-- What a save writes is read back without loss. -/
theorem storable_savedTop (io : Io) (file : Option Text) (fbId : String) (data : DataTable) :
    Storable J.parse (savedTop J io file fbId data).toNode := by
  refine .object _ fun name node hnode ↦ ?_
  rw [lookup_savedTop] at hnode
  split at hnode
  · obtain rfl := Option.some.inj hnode
    exact storable_buildEntry J data
  · cases hio : io.readable with
    | true =>
        rw [lookup_existingOthers J hio] at hnode
        split at hnode
        · cases hnode
        · exact storable_of_entryOf J hnode
    | false =>
        rw [existingOthers_of_not_readable J hio] at hnode
        cases hnode

@[simp] theorem topOf_savedTop (io : Io) (file : Option Text) (fbId : String)
    (data : DataTable) :
    topOf J (some (J.generate (savedTop J io file fbId data).toNode)) =
      some (savedTop J io file fbId data) := by
  simp [topOf, J.parse_generate _ (storable_savedTop J io file fbId data)]

theorem loadable_savedTop (io : Io) (file : Option Text) (fbId : String) (data : DataTable) :
    Loadable J (some (J.generate (savedTop J io file fbId data).toNode)) := by
  intro text htext
  obtain rfl : J.generate (savedTop J io file fbId data).toNode = text := by simpa using htext
  simp [J.parse_generate _ (storable_savedTop J io file fbId data)]

/-- The entries of a file after a successful save. -/
theorem entryOf_save {io : Io} (hw : io.write) (file : Option Text) (fbId k : String)
    (data : DataTable) :
    entryOf J (save J io file fbId (some data)).2 k =
      if fbId = k then some (buildEntry data).toNode
      else if io.readable then entryOf J file k else none := by
  rw [save_snd J hw]
  by_cases hk : fbId = k
  · simp [entryOf, JsonObject.getMember, lookup_savedTop, hk]
  · cases hr : io.readable with
    | true =>
        simp only [entryOf, topOf_savedTop, JsonObject.getMember, Option.bind_some,
          lookup_savedTop, if_neg hk, if_true]
        rw [lookup_existingOthers J hr, if_neg (Ne.symm hk)]
        rfl
    | false =>
        simp [entryOf, JsonObject.getMember, lookup_savedTop, hk,
          existingOthers_of_not_readable J hr]

/-- **The saved account reads back its table**, whatever the file held before. -/
theorem load_save_self {io io' : Io} (hw : io.write) (hio : io'.readable)
    (file : Option Text) (fbId : String) (data : DataTable) :
    load J io' (save J io file fbId (some data)).2 fbId =
      some (loadEntry (some (buildEntry data))) := by
  classical
  have hentry := entryOf_save J hw file fbId fbId data
  rw [if_pos rfl, save_snd J hw] at hentry
  rw [load_readable J hio, save_snd J hw, if_pos (loadable_savedTop J _ _ _ _), hentry,
    Option.bind_some, JsonNode.getObject_toNode]

/-- **Every other account reads back what it had**, when the file could be read
for the save. -/
theorem load_save_other {io io' : Io} (hr : io.readable) (hio : io'.readable)
    {file : Option Text} (hfile : Loadable J file) {fbId other : String} (hne : other ≠ fbId)
    (data : Option DataTable) :
    load J io' (save J io file fbId data).2 other = load J io' file other := by
  classical
  rcases save_cases J io file fbId data with hs | ⟨table, rfl, hw⟩
  · rw [hs]
  · have hentry := entryOf_save J hw file fbId other table
    rw [if_neg hne.symm, if_pos hr, save_snd J hw] at hentry
    rw [load_readable J hio, load_readable J hio, save_snd J hw,
      if_pos (loadable_savedTop J _ _ _ _), if_pos hfile, hentry]

/-- Saving never makes a loadable file unloadable. -/
theorem loadable_save (io : Io) {file : Option Text} (hfile : Loadable J file) (fbId : String)
    (data : Option DataTable) : Loadable J (save J io file fbId data).2 := by
  rcases save_cases J io file fbId data with hs | ⟨table, rfl, hw⟩
  · rwa [hs]
  · rw [save_snd J hw]
    exact loadable_savedTop J _ _ _ _

/-! ## Runs of loads and saves -/

/-- A call that some account makes; whether the write of a save goes through is
up to the file system. -/
inductive FileOp where
  | load (fbId : String)
  | save (fbId : String) (data : Option DataTable) (write : Bool)

/-- What a call returns.  Tables are compared as finite maps. -/
inductive FileAnswer where
  | loaded (table : Option (Finmap fun _ : String ↦ Option String))
  | saved (ok : Bool)

/-- One call on the file, every existing file being readable. -/
def fileStep (file : Option Text) : FileOp → Option Text × FileAnswer
  | .load fbId => (file, .loaded ((load J Io.ok file fbId).map AList.toFinmap))
  | .save fbId data write =>
      let r := save J ⟨true, true, write⟩ file fbId data
      (r.2, .saved r.1)

/-- What the file is for: a map from account id to table, empty where nothing was
saved. -/
abbrev Accounts := String → Finmap fun _ : String ↦ Option String

/-- The calls on the map: a save that returns TRUE replaces one table. -/
def Accounts.step (m : Accounts) : FileOp → Accounts × FileAnswer
  | .load fbId => (m, .loaded (some (m fbId)))
  | .save fbId (some data) true => (Function.update m fbId data.toFinmap, .saved true)
  | .save _ _ _ => (m, .saved false)

/-- A file stands for a map when it loads as that map, account by account. -/
def StandsFor (file : Option Text) (m : Accounts) : Prop :=
  ∀ fbId, (load J Io.ok file fbId).map AList.toFinmap = some (m fbId)

theorem StandsFor.loadable {file : Option Text} {m : Accounts} (h : StandsFor J file m) :
    Loadable J file := by
  classical
  by_contra hfile
  have := h ""
  rw [load_readable J Io.readable_ok, if_neg hfile] at this
  cases this

theorem standsFor_none : StandsFor J none fun _ ↦ ∅ := fun _ ↦ rfl

/-- **One save.**  The file after a successful save stands for the updated map. -/
theorem StandsFor.save {file : Option Text} {m : Accounts} (h : StandsFor J file m)
    (fbId : String) (data : DataTable) :
    StandsFor J (save J Io.ok file fbId (some data)).2
      (Function.update m fbId data.toFinmap) := by
  intro other
  rcases eq_or_ne other fbId with rfl | hne
  · rw [load_save_self J rfl Io.readable_ok, Function.update_self, Option.map_some,
      loadEntry_buildEntry]
  · rw [load_save_other J Io.readable_ok Io.readable_ok h.loadable hne, Function.update_of_ne hne]
    exact h other

/-- The file simulates the map. -/
theorem fileStep_simulates :
    Runs.Simulates (StandsFor J) (fun _ _ ↦ True) (fileStep J) Accounts.step := by
  rintro file m op h -
  cases op with
  | load fbId => exact ⟨h, by simp [fileStep, Accounts.step, h fbId]⟩
  | save fbId data write =>
      cases data with
      | none => exact ⟨h, rfl⟩
      | some data =>
          cases write with
          | false => exact ⟨h, rfl⟩
          | true => exact ⟨h.save J fbId data, rfl⟩

/-- **The state file is a map from account id to table.**  Take any calls
`before`, made from no file at all, and any calls after them.  What the program
answers is what the map answers: a load returns exactly the table of the latest
save for that account that returned TRUE, or an empty one.  And a save that
returns FALSE leaves the file as it was. -/
theorem stateFile_refines (before ops : List FileOp) :
    let file := Runs.final (fileStep J) none before
    let m := Runs.final Accounts.step (fun _ ↦ ∅) before
    Runs.outputs (fileStep J) file ops = Runs.outputs Accounts.step m ops ∧
      ∀ fbId data write,
        (fileStep J (Runs.final (fileStep J) file ops) (.save fbId data write)).2 = .saved false →
          (fileStep J (Runs.final (fileStep J) file ops) (.save fbId data write)).1 =
            Runs.final (fileStep J) file ops := by
  have hok (m : Accounts) (l : List FileOp) :
      Runs.Steps (fun a e ↦ (Accounts.step a e).1) (fun _ _ ↦ True) m l :=
    Runs.steps_of_forall (fun _ _ ↦ trivial) m l
  refine ⟨?_, ?_⟩
  · exact (fileStep_simulates J).outputs_eq
      ((fileStep_simulates J).final (standsFor_none J) (hok _ before)) (hok _ ops)
  · intro fbId data write h
    exact save_eq_of_false J (FileAnswer.saved.inj h)

/-! ## Error paths -/

/-- What is asked of a save on its error paths: it fails and leaves the file
alone, or it succeeds and keeps every entry of another account. -/
def FailSafe (io : Io) (file : Option Text) (fbId : String) (data : Option DataTable) : Prop :=
  (save J io file fbId data).1 = false ∧ (save J io file fbId data).2 = file ∨
    (save J io file fbId data).1 = true ∧
      ∀ other ≠ fbId, ∀ node, entryOf J file other = some node →
        entryOf J (save J io file fbId data).2 other = some node

/-- **When a save is fail-safe.**  It is unless it writes after it could not see
or read a file that holds an entry of another account: that entry is lost. -/
theorem save_failsafe_iff (io : Io) (file : Option Text) (fbId : String)
    (data : Option DataTable) :
    FailSafe J io file fbId data ↔
      data = none ∨ io.write = false ∨ io.readable = true ∨
        ∀ other ≠ fbId, entryOf J file other = none := by
  cases data with
  | none => simp [FailSafe]
  | some data =>
      cases hw : io.write with
      | false => simp [FailSafe, save, hw]
      | true =>
          cases hr : io.readable with
          | true =>
              simp only [FailSafe, save_fst, hw, true_or, or_true, iff_true]
              refine Or.inr ⟨rfl, fun other hne node hnode ↦ ?_⟩
              rwa [entryOf_save J hw, if_neg hne.symm, if_pos hr]
          | false =>
              have hlost : ∀ other ≠ fbId,
                  entryOf J (save J io file fbId (some data)).2 other = none := by
                intro other hne
                simp [entryOf_save J hw, hne.symm, hr]
              simp only [FailSafe, save_fst, hw, Option.isSome_some, Bool.and_self,
                Bool.true_eq_false, false_and, true_and, false_or, reduceCtorEq, Bool.false_eq_true]
              constructor
              · intro h other hne
                cases hnode : entryOf J file other with
                | none => rfl
                | some node =>
                    have := h other hne node hnode
                    rw [hlost other hne] at this
                    cases this
              · intro h other hne node hnode
                rw [h other hne] at hnode
                cases hnode

/-- The file of another account, read as when its permission is missing: the
save succeeds and drops the entry. -/
theorem save_not_failsafe :
    ¬ FailSafe JsonGlib.documents ⟨true, false, true⟩
      (some (.root (some (.object [⟨"bob", .object []⟩])))) "alice" (some ∅) := by
  rintro (⟨h, -⟩ | ⟨-, h⟩)
  · cases h
  · have hbob := h "bob" (by decide) (.object []) rfl
    have hlost : entryOf JsonGlib.documents
        (save JsonGlib.documents ⟨true, false, true⟩
          (some (.root (some (.object [⟨"bob", .object []⟩])))) "alice" (some ∅)).2 "bob" =
        none := rfl
    rw [hlost] at hbob
    cases hbob

end TelepathyFacebook.ConnectionData
