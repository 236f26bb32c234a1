import TelepathyFacebook.Json
import TelepathyFacebook.Strto

/-!
# Persistent connection data

The model of `tp/connection-data.c`: one JSON file, shared by all accounts, whose
root object maps each Facebook login id to an object of strings.

A `GHashTable` of strings is a `DataTable`.  Its values are optional because
`fb_connection_data_load` stores NULL for a member that is not a string.  A table
pointer is an `Option DataTable`; the guards `g_return_if_fail(data)` are the
`none` branches.

The file is an `Option Text`, `none` when it does not exist, and the outcomes of
the system calls are an argument, `Io`: each may fail on its own.
`json_generator_to_file` replaces the file or fails leaving it as it was.
-/

namespace TelepathyFacebook

/-- A `GHashTable` from strings to strings. -/
abbrev DataTable := AList fun _ : String ↦ Option String

/-- Outcomes of the file operations during one call. -/
structure Io where
  /-- `g_file_test` can see the file. -/
  stat : Bool
  /-- The contents can be read. -/
  read : Bool
  /-- The new contents can be written. -/
  write : Bool
deriving DecidableEq, Repr

/-- Every file operation succeeds. -/
def Io.ok : Io := ⟨true, true, true⟩

/-- An existing file is seen and can be read. -/
def Io.readable (io : Io) : Bool := io.stat && io.read

@[simp] theorem Io.readable_ok : Io.ok.readable := rfl

namespace ConnectionData

section File

variable {Text : Type} (J : JsonGlib Text)

/-- `g_file_test(path, G_FILE_TEST_EXISTS)`. -/
def fileExists (io : Io) (file : Option Text) : Bool := io.stat && file.isSome

/-- `json_parser_load_from_file`: `none` is FALSE, with the error set. -/
def parserLoadFromFile (io : Io) (file : Option Text) : Option (Option JsonNode) :=
  if io.read then file.bind J.parse else none

/-- The loop of `fb_connection_data_load` over the members of the entry. -/
def loadEntry (entry : Option JsonObject) : DataTable :=
  (JsonObject.getMembers entry).foldl
    (fun table key ↦ table.insert key (JsonObject.getStringMember entry key)) ∅

/-- `fb_connection_data_load`. -/
def load (io : Io) (file : Option Text) (fbId : String) : Option DataTable :=
  if fileExists io file then
    match parserLoadFromFile J io file with
    | none => none
    | some root =>
        let top := root.bind JsonNode.getObject
        if JsonObject.hasMember top fbId then
          some (loadEntry (JsonObject.getObjectMember top fbId))
        else some ∅
  else some ∅

/-- The loop of `fb_connection_data_save` that copies the entries of the other
accounts. -/
def copyOthers (existing : JsonObject) (fbId : String) : JsonObject :=
  existing.keys.foldl
    (fun top key ↦
      if key ≠ fbId then top.setMember key (JsonObject.getMember (some existing) key) else top) ∅

/-- The entries `fb_connection_data_save` starts from: those of the other
accounts when the file can be loaded and its root is an object, else none. -/
def existingOthers (io : Io) (file : Option Text) (fbId : String) : JsonObject :=
  if fileExists io file then
    match parserLoadFromFile J io file with
    | none => ∅
    | some root =>
        match root.bind JsonNode.getObject with
        | some existing => copyOthers existing fbId
        | none => ∅
  else ∅

/-- The loop of `fb_connection_data_save` that builds the entry of `fb_id`. -/
def buildEntry (data : DataTable) : JsonObject :=
  data.entries.foldl (fun o kv ↦ o.setMember kv.1 (some (JsonNode.ofString kv.2))) ∅

/-- What `fb_connection_data_save` writes. -/
def savedTop (io : Io) (file : Option Text) (fbId : String) (data : DataTable) : JsonObject :=
  (existingOthers J io file fbId).setMember fbId (some (buildEntry data).toNode)

/-- `fb_connection_data_save`: its result, and the file after it. -/
def save (io : Io) (file : Option Text) (fbId : String) (data : Option DataTable) :
    Bool × Option Text :=
  match data with
  | none => (false, file)
  | some data =>
      if io.write then (true, some (J.generate (savedTop J io file fbId data).toNode))
      else (false, file)

end File

/-! ## Typed access -/

/-- `fb_connection_data_get_string`. -/
def getString (data : Option DataTable) (key : String) : Option String :=
  data.bind fun data ↦ (data.lookup key).join

/-- `fb_connection_data_get_int`; the cast to `gint` truncates. -/
def getInt (data : Option DataTable) (key : String) (default : Int32) : Int32 :=
  match getString data key with
  | none => default
  | some str => ((strtol str).map Int64.toInt32).getD default

/-- `fb_connection_data_get_int64`. -/
def getInt64 (data : Option DataTable) (key : String) (default : Int64) : Int64 :=
  match getString data key with
  | none => default
  | some str => (gAsciiStrtoll str).getD default

/-- `fb_connection_data_get_uint64`. -/
def getUint64 (data : Option DataTable) (key : String) (default : UInt64) : UInt64 :=
  match getString data key with
  | none => default
  | some str => (gAsciiStrtoull str).getD default

/-- `g_ascii_tolower` on a string. -/
def asciiLower (str : String) : List Char := str.toList.map Char.toLower

/-- `fb_connection_data_get_bool`. -/
def getBool (data : Option DataTable) (key : String) (default : Bool) : Bool :=
  match getString data key with
  | none => default
  | some str => asciiLower str = asciiLower "true" || str = "1"

/-- `fb_connection_data_set_string`: NULL tables and NULL values are refused. -/
def setString (data : Option DataTable) (key : String) (value : Option String) :
    Option DataTable :=
  match data, value with
  | some data, some value => some (data.insert key (some value))
  | data, _ => data

/-- `fb_connection_data_set_int`. -/
def setInt (data : Option DataTable) (key : String) (value : Int32) : Option DataTable :=
  setString data key (some (formatInt value))

/-- `fb_connection_data_set_int64`. -/
def setInt64 (data : Option DataTable) (key : String) (value : Int64) : Option DataTable :=
  setString data key (some (formatInt64 value))

/-- `fb_connection_data_set_uint64`. -/
def setUint64 (data : Option DataTable) (key : String) (value : UInt64) : Option DataTable :=
  setString data key (some (formatUint64 value))

/-- `fb_connection_data_set_bool`. -/
def setBool (data : Option DataTable) (key : String) (value : Bool) : Option DataTable :=
  setString data key (some (if value then "true" else "false"))

end ConnectionData

end TelepathyFacebook
