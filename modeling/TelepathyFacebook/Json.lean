import TelepathyFacebook.Lib.AListLoop

/-!
# json-glib, as far as the state file uses it

Nodes, objects and the accessors of json-glib with their `g_return_if_fail`
guards: a `none` is a NULL pointer, and an accessor that is handed NULL or a node
of the wrong type answers NULL.

An object is an `AList`: its member names are distinct, and the order of its
members carries no meaning.  Inside a node the members are kept as a bare list,
since a nested inductive type cannot hold the distinctness proof;
`JsonNode.getObject` is where the two meet.

Files are read and written through `JsonGlib`, which stands for the parser and
the generator.  Its one law is the losslessness that the program relies on, for the
nodes that it writes (`Storable`).
-/

namespace TelepathyFacebook

/-- What a node of type `JSON_NODE_VALUE` holds; a double is kept as its text. -/
inductive JsonValue where
  | string (s : String)
  | int (i : Int)
  | double (text : String)
  | boolean (b : Bool)
deriving DecidableEq, Repr

/-- A `JsonNode`. -/
inductive JsonNode where
  | null
  | value (v : JsonValue)
  | array (elements : List JsonNode)
  | object (members : List (Σ _ : String, JsonNode))

/-- A `JsonObject`. -/
abbrev JsonObject := AList fun _ : String ↦ JsonNode

/-- A node that holds the given object, as `json_node_set_object` builds it. -/
def JsonObject.toNode (o : JsonObject) : JsonNode := .object o.entries

/-- `json_node_get_object`: NULL unless the node holds an object. -/
def JsonNode.getObject : JsonNode → Option JsonObject
  | .object members => some members.toAList
  | _ => none

@[simp] theorem JsonNode.getObject_toNode (o : JsonObject) : o.toNode.getObject = some o := by
  simp [JsonObject.toNode, JsonNode.getObject]

/-- `json_node_get_string`: NULL for `null` and for anything but a string. -/
def JsonNode.getString : JsonNode → Option String
  | .value (.string s) => some s
  | _ => none

/-- `json_object_has_member`. -/
def JsonObject.hasMember (o : Option JsonObject) (name : String) : Bool :=
  match o with
  | some o => (o.lookup name).isSome
  | none => false

/-- `json_object_get_members`: the member names. -/
def JsonObject.getMembers (o : Option JsonObject) : List String :=
  match o with
  | some o => o.keys
  | none => []

/-- `json_object_get_member`. -/
def JsonObject.getMember (o : Option JsonObject) (name : String) : Option JsonNode :=
  o.bind (·.lookup name)

/-- `json_object_get_object_member`. -/
def JsonObject.getObjectMember (o : Option JsonObject) (name : String) : Option JsonObject :=
  (JsonObject.getMember o name).bind JsonNode.getObject

/-- `json_object_get_string_member`. -/
def JsonObject.getStringMember (o : Option JsonObject) (name : String) : Option String :=
  (JsonObject.getMember o name).bind JsonNode.getString

/-- `json_object_set_member`: a NULL node is refused. -/
def JsonObject.setMember (o : JsonObject) (name : String) (node : Option JsonNode) : JsonObject :=
  match node with
  | some node => o.insert name node
  | none => o

/-- What `json_builder_add_string_value` adds: NULL becomes `null`. -/
def JsonNode.ofString : Option String → JsonNode
  | some s => .value (.string s)
  | none => .null

@[simp] theorem JsonNode.getString_ofString (v : Option String) :
    (JsonNode.ofString v).getString = v := by
  cases v <;> rfl

theorem JsonObject.lookup_setMember (o : JsonObject) (name : String) (node : Option JsonNode)
    (k : String) :
    (o.setMember name node).lookup k =
      if name = k ∧ node.isSome then node else o.lookup k := by
  cases node with
  | none => simp [JsonObject.setMember]
  | some node =>
      rcases eq_or_ne name k with rfl | h
      · simp [JsonObject.setMember]
      · simp [JsonObject.setMember, h, AList.lookup_insert_ne (Ne.symm h)]

/-- The nodes that the program writes, given a parser: strings and `null`, members of the
root object of a file, and objects of such nodes. -/
inductive Storable {Text : Type} (parse : Text → Option (Option JsonNode)) : JsonNode → Prop
  | string (s : String) : Storable parse (.value (.string s))
  | null : Storable parse .null
  | member {text : Text} {root node : JsonNode} {top : JsonObject} {name : String}
      (hparse : parse text = some (some root)) (htop : root.getObject = some top)
      (hnode : top.lookup name = some node) : Storable parse node
  | object (o : JsonObject) (h : ∀ name node, o.lookup name = some node → Storable parse node) :
      Storable parse o.toNode

theorem Storable.ofString {Text : Type} {parse : Text → Option (Option JsonNode)}
    (v : Option String) : Storable parse (JsonNode.ofString v) := by
  cases v with
  | none => exact .null
  | some s => exact .string s

/-- json-glib's parser and generator over some representation of file contents.
An empty document parses to a NULL root. -/
structure JsonGlib (Text : Type) where
  /-- `json_parser_load_from_file` on the contents; `none` is a parse error. -/
  parse : Text → Option (Option JsonNode)
  /-- `json_generator_to_data`. -/
  generate : JsonNode → Text
  /-- Generating and parsing an object is lossless. -/
  parse_generate : ∀ o : JsonObject, Storable parse o.toNode →
    parse (generate o.toNode) = some (some o.toNode)

/-- The contents of a file up to what the parser sees of them: the document, or
some text that is no JSON. -/
inductive Document where
  | malformed (text : String)
  | root (node : Option JsonNode)

/-- json-glib over documents. -/
def JsonGlib.documents : JsonGlib Document where
  parse
    | .malformed _ => none
    | .root node => some node
  generate node := .root (some node)
  parse_generate _ _ := rfl

end TelepathyFacebook
