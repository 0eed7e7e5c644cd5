/-
Names of types and properties.

* `IdentError` — why a text is no name, and what a reader is told;
* `identDefect?` — the first defect of a text;
* `Ident` — a text without a defect.

A name is made of segments with single underscores between them.  A segment is a lower-case letter
followed by lower-case letters and digits, all of them ASCII.
-/
import ClassSchema.Naming
import ClassSchema.Text.Quoted

namespace ClassSchema

/-- Why a text is no name. -/
inductive IdentError where
  | empty
  /-- The text holds a character other than lower-case letters, digits and the underscore. -/
  | invalidCharacter (text : String) (c : Char)
  /-- Two underscores stand side by side, or one stands at an end. -/
  | emptySegment (text : String)
  /-- A segment begins with a digit. -/
  | leadingDigit (text : String)
deriving DecidableEq

/-- What a reader is told. -/
def IdentError.message : IdentError → String
  | empty => "identifier must not be empty"
  | invalidCharacter text c =>
    "identifier '" ++ text ++ "' contains invalid character " ++ Text.quoteChar c
  | emptySegment text => "identifier '" ++ text ++ "' has an empty segment"
  | leadingDigit text => "identifier '" ++ text ++ "' has a segment starting with a digit"

/-- May a name hold the character? -/
def isIdentChar (c : Char) : Bool := c.isLower || c.isDigit || c = '_'

/-- The defect of a segment, as the error that it makes of a text. -/
def segmentDefect? : List Char → Option (String → IdentError)
  | [] => some .emptySegment
  | c :: _ => if c.isDigit then some .leadingDigit else none

/-- The first defect of a text: a character that no name holds, or else a segment that is empty or
begins with a digit. -/
def identDefect? (s : String) : Option IdentError :=
  if s.isEmpty then some .empty
  else
    match s.toList.find? fun c => !isIdentChar c with
    | some c => some (.invalidCharacter s c)
    | none => ((Text.words s.toList).findSome? segmentDefect?).map fun error => error s

/-- A name of a type or a property. -/
structure Ident where
  text : String
  valid : identDefect? text = none
deriving DecidableEq

namespace Ident

/-- The name that a text is. -/
def parse (s : String) : Except IdentError Ident :=
  match h : identDefect? s with
  | some e => .error e
  | none => .ok ⟨s, h⟩

/-- The name that a text is, if it is one. -/
def ofText? (s : String) : Option Ident := (parse s).toOption

/-- The name in Pascal case, which names the class of a type. -/
def className (x : Ident) : String := pascalCase x.text

end Ident
end ClassSchema
