/-
Schemas and options as the contents of files.

* `extension?` — what the name of a file ends in;
* `Json.ofSource` — the tree of a schema file, which is YAML if its name says so and else JSON;
* `Options.ofSource` — the options of a file.
-/
import ClassSchema.Compilation
import ClassSchema.Json.Parser

namespace ClassSchema

/-- The parts of a path that say something: neither empty nor a lone point. -/
def pathParts (path : String) : List String :=
  ((path.toList.splitOn '/').map String.ofList).filter fun part => part ≠ "" && part ≠ "."

/-- What follows the last point in the name of a file, unless the name begins with that point. -/
def extension? (path : String) : Option String := do
  let name ← (pathParts path).getLast?
  if name = ".." then none
  else
    let afterPoint := name.toList.reverse.takeWhile (· ≠ '.')
    let before := name.toList.length - afterPoint.length
    if before ≤ 1 then none else some (String.ofList afterPoint.reverse)

/-- Does the name say that the file is YAML? -/
def isYamlPath (path : String) : Bool :=
  extension? path = some "yaml" || extension? path = some "yml"

/-- The text of a file, if it can be read and is one. -/
def readText? (content : Option ByteArray) : Option String := content.bind String.fromUTF8?

/-- The tree that a text writes, in the notation that the path tells. -/
def Json.ofText (path text : String) : Except LoadFault Json :=
  if isYamlPath path then
    match Yaml.Tree.parse? text with
    | some t =>
      match t.toJson with
      | .ok j => .ok j
      | .error u => .error (.unrepresentable u)
    | none => .error .invalidYaml
  else
    match Json.parse? text with
    | some j => .ok j
    | none => .error .invalidJson

/-- The tree of a schema file, given its content if it can be read. -/
def Json.ofSource (path : String) (content : Option ByteArray) : Except SchemaError Json :=
  match readText? content with
  | some text => (Json.ofText path text).mapError (.documentLoad path)
  | none => .error (.documentLoad path .unreadable)

/-- What stands in errors for the path of options that are no file. -/
def inlineOptionsPath : String := "<options>"

/-- The options that a text writes. -/
def Options.ofText (path text : String) : Except SchemaError Options :=
  match Options.ofYaml? text with
  | some o => .ok o
  | none => .error (.documentLoad path .invalidOptions)

/-- The options of a file, given its content if it can be read. -/
def Options.ofSource (path : String) (content : Option ByteArray) : Except SchemaError Options :=
  match readText? content with
  | some text => Options.ofText path text
  | none => .error (.documentLoad path .unreadable)

end ClassSchema
