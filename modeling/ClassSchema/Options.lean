/-
Options of the compiler.

* `Options` — the namespace of schemas that give none, the separator between a namespace and a
  class name, and how types are written;
* `Options.toJson`, `Options.ofJson?` — options as JSON trees;
* `Options.ofYaml?` — options as a YAML text.

Options change how classes are named and shown, never what a schema means.  All of them may be left
out.
-/
import ClassSchema.Text.Blank
import ClassSchema.Yaml.Expansion

namespace ClassSchema

/-- Options of the compiler. -/
structure Options where
  /-- The path of the namespace where a schema gives none. -/
  defaultNamespace : Option String := none
  /-- What stands between the path of a namespace and a class name. -/
  separator : String := "."
  /-- Are types written as documents write them? -/
  docs : Bool := false
deriving DecidableEq

namespace Options

/-- The options as a JSON tree. -/
def toJson (o : Options) : Json :=
  .obj [("default_namespace", .ofText? o.defaultNamespace),
    ("namespace_separator", .str o.separator), ("docs", .bool o.docs)]

/-! ### Options as JSON trees -/

/-- Sets the default namespace: a text or null. -/
def setNamespace? (o : Options) : Json → Option Options
  | .null => some { o with defaultNamespace := none }
  | .str path => some { o with defaultNamespace := some path }
  | _ => none

/-- Sets the separator: a text. -/
def setSeparator? (o : Options) : Json → Option Options
  | .str s => some { o with separator := s }
  | _ => none

/-- Sets whether types are written as documents write them. -/
def setDocs? (o : Options) : Json → Option Options
  | .bool b => some { o with docs := b }
  | _ => none

/-- Sets the option of a key. -/
def setMember? (o : Options) : String × Json → Option Options
  | (key, j) =>
    if key = "default_namespace" then o.setNamespace? j
    else if key = "namespace_separator" then o.setSeparator? j
    else if key = "docs" then o.setDocs? j
    else none

/-- The options of a tree: an object with some of the options, or an array with the first few. -/
def ofJson? : Json → Option Options
  | .obj members => members.foldlM setMember? {}
  | .arr [] => some {}
  | .arr [path] => setNamespace? {} path
  | .arr [path, s] => do (← setNamespace? {} path).setSeparator? s
  | .arr [path, s, b] => do (← (← setNamespace? {} path).setSeparator? s).setDocs? b
  | _ => none

/-! ### Options as YAML texts -/

open Yaml

/-- A scalar as it is written. -/
structure Scalar where
  tag : Option Tag
  text : String
  style : Style

/-- The scalar that a node is or stands for. -/
def scalar? (targets : List (Nat × Node Nat)) (node : Node Nat) : Option Scalar :=
  let target :=
    match node with
    | .aliasOf n => targets.reverse.lookup n
    | node => some node
  match target with
  | some (.scalar _ tag text style) => some ⟨tag, text, style⟩
  | _ => none

/-- The text that a scalar gives, of which null is the absence. -/
def optionalText? (s : Scalar) : Option (Option String) :=
  if s.style ≠ .plain then some (some s.text)
  else
    match s.tag with
    | some tag =>
      if tag = Tag.core "null" then (if isNullWord s.text then some none else none)
      else some (some s.text)
    | none => some (if s.text.isEmpty || isNullWord s.text then none else some s.text)

/-- The boolean that a scalar gives: a plain one, or a block under the tag for booleans. -/
def flag? (s : Scalar) : Option Bool :=
  if s.style = .plain ∨ (s.style = .literal ∧ s.tag = some (Tag.core "bool")) then boolean? s.text
  else none

/-- Sets the option of a key. -/
def setPair? (o : Options) (key : String) (value : Scalar) : Option Options :=
  if key = "default_namespace" then
    (optionalText? value).map fun path => { o with defaultNamespace := path }
  else if key = "namespace_separator" then some { o with separator := value.text }
  else if key = "docs" then (flag? value).map fun b => { o with docs := b }
  else none

/-- Sets the options of the pairs of a mapping, none of them twice. -/
def setPairs? (targets : List (Nat × Node Nat)) (o : Options) (seen : List String) :
    List (Node Nat × Node Nat) → Option Options
  | [] => some o
  | (k, v) :: rest => do
    let key := (← scalar? targets k).text
    if seen.contains key then none
    let value ← scalar? targets v
    let o ← o.setPair? key value
    setPairs? targets o (key :: seen) rest

/-- The options of a node: a mapping with some of the options, or nothing at all. -/
def ofNode? (node : Node Nat) : Option Options :=
  match node with
  | .mapping _ _ pairs => setPairs? node.anchored {} [] pairs
  | .scalar _ _ text style => if style = .plain ∧ text.isEmpty then some {} else none
  | _ => none

/-- The options of a text; a blank text sets none. -/
def ofYaml? (s : String) : Option Options :=
  if (Text.trim s.toList).isEmpty then some {}
  else
    match Node.ofText? s with
    | some (some node) => ofNode? node
    | some none => some {}
    | none => none

end Options
end ClassSchema
