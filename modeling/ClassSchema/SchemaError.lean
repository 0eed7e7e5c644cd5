/-
Why a schema is refused.

* `Malformation` — a place of a document that does not have the expected form;
* `LoadFault` — why a file yields no document;
* `SchemaError` — all causes, with the place of each;
* `SchemaError.message` — what a reader is told.
-/
import ClassSchema.Ident
import ClassSchema.Yaml.AsJson

namespace ClassSchema

/-- A place of a document that does not have the expected form. -/
inductive Malformation where
  /-- The document is not an object. -/
  | root
  /-- The metadata is not an object. -/
  | metadata
  /-- The namespace is not a text. -/
  | namespacePath
  /-- The definition of a type is not an object. -/
  | definition (type : String)
  /-- A type token is not a text. -/
  | token (type property : String)
deriving DecidableEq

namespace Malformation

/-- The place, as the keys that lead to it. -/
def path : Malformation → String
  | root => "/"
  | metadata => "/_meta"
  | namespacePath => "/_meta/namespace"
  | definition type => "/" ++ type
  | token type property => "/" ++ type ++ "/" ++ property

/-- What was expected there. -/
def reason : Malformation → String
  | root => "schema must be a JSON object"
  | metadata => "metadata must be an object"
  | namespacePath => "namespace must be a string"
  | definition _ => "type definition must be an object"
  | token _ _ => "type token must be a string"

end Malformation

/-- Why a file yields no document. -/
inductive LoadFault where
  | unreadable
  | invalidYaml
  | invalidJson
  | invalidOptions
  | unrepresentable (u : Yaml.Unrepresentable)

/-- What was wrong with the file. -/
def LoadFault.message : LoadFault → String
  | unreadable => "cannot read file"
  | invalidYaml => "invalid YAML"
  | invalidJson => "invalid JSON"
  | invalidOptions => "invalid options"
  | unrepresentable u => "YAML-to-JSON conversion failed: " ++ u.message

/-- Why a schema is refused. -/
inductive SchemaError where
  /-- A token of a type writes no type. -/
  | unknownType (token owner : String)
  /-- The name of a type, or of one of its properties, is no name. -/
  | invalidIdent (owner name : String) (defect : IdentError)
  | malformed (m : Malformation)
  /-- Parents lead back to where they started: the names on the way, of which the first and the
  last are the same. -/
  | inheritanceCycle (chain : List Ident)
  | documentLoad (path : String) (fault : LoadFault)

/-- What a reader is told. -/
def SchemaError.message : SchemaError → String
  | unknownType token owner => "unknown type '" ++ token ++ "' in type '" ++ owner ++ "'"
  | invalidIdent owner name defect =>
    "invalid identifier '" ++ name ++ "' in type '" ++ owner ++ "': " ++ defect.message
  | malformed m => "malformed schema at '" ++ m.path ++ "': " ++ m.reason
  | inheritanceCycle chain =>
    "inheritance cycle: " ++ String.intercalate " -> " (chain.map Ident.text)
  | documentLoad path fault => "document load error for '" ++ path ++ "': " ++ fault.message

end ClassSchema
