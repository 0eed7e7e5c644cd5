/-
From documents to descriptors.

* `Scope.resolveFor` — the type that a token found in a definition writes;
* `TypeDefinition.compile` — the descriptor of a type among the types that its schema declares;
* `Document.compile` — the descriptors of all types, in the order of the document;
* `Json.compileSchema` — the descriptors of a schema given as a JSON tree.

A schema is refused for the first token that fails, where the parent of a type comes first, then its
wildcard and then its properties.  Only where all tokens resolve is it refused for a cycle.
-/
import ClassSchema.Document
import ClassSchema.Inheritance
import ClassSchema.Options
import ClassSchema.Scope

namespace ClassSchema

/-- The type that a token writes.  The owner is the type whose definition has the token, which is
named together with the part that fails. -/
def Scope.resolveFor (scope : Scope) (owner token : String) : Except SchemaError SlotType :=
  match scope.resolve token with
  | .ok t => .ok t
  | .error failing => .error (.unknownType failing owner)

namespace TypeDefinition

/-- The declared type that the token of a parent names. -/
def compileParent (scope : Scope) (owner : Ident) (token : String) :
    Except SchemaError ClassRef :=
  let name := String.ofList (Text.trim token.toList)
  match scope.reference? name with
  | some r => .ok r
  | none => .error (.unknownType name owner.text)

/-- The type that a token of a type writes. -/
def compileToken (scope : Scope) (owner : Ident) (token : String) :
    Except SchemaError SlotType :=
  scope.resolveFor owner.text token

/-- Compiles a token that may be absent. -/
def compileOptional {α : Type} (compile : String → Except SchemaError α) :
    Option String → Except SchemaError (Option α)
  | none => .ok none
  | some token => (compile token).map some

/-- The types of properties. -/
def compileProperties (scope : Scope) (owner : Ident) :
    List (Ident × String) → Except SchemaError (List (Ident × SlotType))
  | [] => .ok []
  | (x, token) :: rest => do
    let t ← compileToken scope owner token
    let rest ← compileProperties scope owner rest
    pure ((x, t) :: rest)

/-- The descriptor of a type. -/
def compile (scope : Scope) (definition : TypeDefinition) : Except SchemaError Descriptor := do
  let owner := definition.name
  let parent ← compileOptional (compileParent scope owner) definition.parent
  let wildcard ← compileOptional (compileToken scope owner) definition.any
  let properties ← compileProperties scope owner definition.properties
  pure {
    name := owner
    namespacePath := scope.home.path
    qualified := scope.home.qualify owner
    parent := parent
    properties := properties
    wildcard := wildcard }

end TypeDefinition

namespace Document

/-- The namespace of the classes: the document's own, or else the one of the options. -/
def home (doc : Document) (options : Options) : Namespace :=
  ⟨doc.namespacePath <|> options.defaultNamespace, options.separator⟩

/-- The types that the document may name. -/
def scope (doc : Document) (options : Options) : Scope := ⟨doc.typeNames, doc.home options⟩

/-- The descriptors of types. -/
def compileTypes (scope : Scope) : List TypeDefinition → Except SchemaError (List Descriptor)
  | [] => .ok []
  | definition :: rest => do
    let d ← definition.compile scope
    let ds ← compileTypes scope rest
    pure (d :: ds)

/-- Refuses descriptors of which one runs into a cycle. -/
def checkInheritance (ds : List Descriptor) : Except SchemaError Unit :=
  match Inheritance.cycle? ds with
  | some chain => .error (.inheritanceCycle chain)
  | none => .ok ()

/-- The descriptors of all types. -/
def compile (options : Options) (doc : Document) : Except SchemaError (List Descriptor) := do
  let ds ← compileTypes (doc.scope options) doc.types
  checkInheritance ds
  pure ds

end Document

/-- The descriptors of a schema. -/
def Json.compileSchema (options : Options) (schema : Json) : Except SchemaError (List Descriptor) :=
  do (← Document.ofJson schema).compile options

end ClassSchema
