/-
Schema documents: what a schema says before its tokens are resolved.

* `TypeDefinition` — a type with its tokens;
* `Document` — the namespace and the types of a schema;
* `Document.ofJson` — the document of a JSON tree;
* `Document.warnings` — the metadata that the tree holds in vain.

Keys that begin with an underscore are metadata: `_meta` beside the types, and `_parent` and `_any`
inside one.  Other metadata beside the types is left out, whatever it holds.  Inside a type it is
left out where it is a text, as every member of a type has to be one.
-/
import ClassSchema.SchemaError

namespace ClassSchema

/-- A declared type, with its tokens as they are written. -/
structure TypeDefinition where
  name : Ident
  /-- The type that this one extends. -/
  parent : Option String
  /-- What properties that are not declared may hold. -/
  any : Option String
  properties : List (Ident × String)

/-- What a schema says. -/
structure Document where
  /-- The path of the namespace of all classes. -/
  namespacePath : Option String
  types : List TypeDefinition

/-- Metadata that says nothing. -/
inductive Warning where
  | unknownMetadata (key : String)
  | unknownTypeMetadata (type key : String)

/-- Is the key one of metadata? -/
def isMetadataKey (key : String) : Bool := key.toList.head? = some '_'

/-! ### Types -/

namespace TypeDefinition

/-- What a member of the definition of a type is. -/
inductive Part where
  | parent (token : String)
  | any (token : String)
  | property (x : Ident) (token : String)
  | ignored

/-- Reads a member of the definition of a type. -/
def readPart (type key : String) : Json → Except SchemaError Part
  | .str token =>
    if key = "_parent" then .ok (.parent token)
    else if key = "_any" then .ok (.any token)
    else if isMetadataKey key then .ok .ignored
    else
      match Ident.parse key with
      | .ok x => .ok (.property x token)
      | .error defect => .error (.invalidIdent type key defect)
  | _ => .error (.malformed (.token type key))

/-- Reads the members of the definition of a type. -/
def readParts (type : String) : List (String × Json) → Except SchemaError (List Part)
  | [] => .ok []
  | (key, j) :: rest => do
    let part ← readPart type key j
    let parts ← readParts type rest
    pure (part :: parts)

/-- The type that the parts of a definition make. -/
def ofParts (name : Ident) (parts : List Part) : TypeDefinition where
  name := name
  parent := parts.findSome? fun | .parent token => some token | _ => none
  any := parts.findSome? fun | .any token => some token | _ => none
  properties := parts.filterMap fun | .property x token => some (x, token) | _ => none

/-- The type that a member of a schema defines. -/
def ofMember (key : String) (body : Json) : Except SchemaError TypeDefinition :=
  match Ident.parse key with
  | .error defect => .error (.invalidIdent key key defect)
  | .ok name =>
    match body with
    | .obj members => (readParts key members).map (ofParts name)
    | _ => .error (.malformed (.definition key))

/-- The metadata that the definition of a type holds in vain, up to its first defect. -/
def warnings (type : String) : List (String × Json) → List Warning
  | [] => []
  | (key, j) :: rest =>
    match readPart type key j with
    | .ok .ignored => .unknownTypeMetadata type key :: warnings type rest
    | .ok _ => warnings type rest
    | .error _ => []

end TypeDefinition

/-! ### Documents -/

namespace Document

/-- What a member of a schema is. -/
inductive Part where
  | namespacePath (path : Option String)
  | type (definition : TypeDefinition)
  | ignored

/-- The path of the namespace that metadata gives. -/
def readNamespace : Json → Except SchemaError (Option String)
  | .obj members =>
    match Entries.get? "namespace" members with
    | none => .ok none
    | some .null => .ok none
    | some (.str path) => .ok (some path)
    | some _ => .error (.malformed .namespacePath)
  | _ => .error (.malformed .metadata)

/-- Reads a member of a schema. -/
def readPart (key : String) (body : Json) : Except SchemaError Part :=
  if key = "_meta" then (readNamespace body).map .namespacePath
  else if isMetadataKey key then .ok .ignored
  else (TypeDefinition.ofMember key body).map .type

/-- Reads the members of a schema. -/
def readParts : List (String × Json) → Except SchemaError (List Part)
  | [] => .ok []
  | (key, body) :: rest => do
    let part ← readPart key body
    let parts ← readParts rest
    pure (part :: parts)

/-- The document that the parts of a schema make. -/
def ofParts (parts : List Part) : Document where
  namespacePath := (parts.findSome? fun | .namespacePath path => some path | _ => none).join
  types := parts.filterMap fun | .type definition => some definition | _ => none

/-- The document of a JSON tree. -/
def ofJson : Json → Except SchemaError Document
  | .obj members => (readParts members).map ofParts
  | _ => .error (.malformed .root)

/-- The names of the declared types. -/
def typeNames (doc : Document) : List Ident := doc.types.map TypeDefinition.name

/-- The metadata that a member of a schema holds in vain, up to its first defect. -/
def memberWarnings (key : String) (body : Json) : List Warning :=
  if key = "_meta" then []
  else if isMetadataKey key then [.unknownMetadata key]
  else
    match Ident.parse key, body with
    | .ok _, .obj members => TypeDefinition.warnings key members
    | _, _ => []

/-- The metadata that the members of a schema hold in vain, up to the first defect. -/
def membersWarnings : List (String × Json) → List Warning
  | [] => []
  | (key, body) :: rest =>
    memberWarnings key body ++
      match readPart key body with
      | .ok _ => membersWarnings rest
      | .error _ => []

/-- The metadata that a tree holds in vain, in the order in which reading it comes across it. -/
def warnings : Json → List Warning
  | .obj members => membersWarnings members
  | _ => []

end Document
end ClassSchema
