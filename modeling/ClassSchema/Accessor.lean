/-
Accessors: how the properties of a class are reached by name.

* `Verb` — what an accessor does;
* `Accessor` — a verb with what it applies to;
* `Accessor.name` — the verb, and what it applies to in Pascal case: `setZeroTermsQuery`;
* `Accessor.ofName?` — the accessor that a name is for, where no table lists it.

The accessors that append to a class are named after the type of what is appended, so their names
do not give away a property, and `ofName?` leaves them out.
-/
import ClassSchema.Ident

namespace ClassSchema

/-- What an accessor does. -/
inductive Verb where
  | get
  | set
  /-- Adds to the array that a property holds. -/
  | add
  /-- Adds to the instance itself. -/
  | append
deriving DecidableEq

/-- The word for a verb. -/
def Verb.word : Verb → String
  | get => "get"
  | set => "set"
  | add => "add"
  | append => "append"

/-- Does the verb take a key? -/
def Verb.isKeyed : Verb → Bool
  | get | set => false
  | add | append => true

/-- A verb with what it applies to: a property, or for `append` the type of what is appended. -/
structure Accessor where
  verb : Verb
  target : String
deriving DecidableEq

namespace Accessor

/-- The name of an accessor. -/
def name (a : Accessor) : String := a.verb.word ++ pascalCase a.target

/-- What follows the verb in a name, where it begins with a capital letter. -/
def suffix? (verb : Verb) (name : String) : Option String :=
  match verb.word.toList.isPrefixOf? name.toList with
  | some (c :: s) => if c.isUpper then some (String.ofList (c :: s)) else none
  | _ => none

/-- The accessor of a verb that a name is for. -/
def ofNameBy? (verb : Verb) (name : String) : Option Accessor := do
  let suffix ← suffix? verb name
  let x ← Ident.ofText? (decamelize suffix)
  pure ⟨verb, x.text⟩

/-- The accessor that a name is for. -/
def ofName? (name : String) : Option Accessor :=
  [Verb.get, .set, .add].findSome? fun verb => ofNameBy? verb name

end Accessor
end ClassSchema
