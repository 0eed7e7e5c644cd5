/-
The tokens of YAML texts.

* `Style` — how a scalar is written;
* `Tag` — what stands for the type of a node;
* `Token` — indicators, brackets of blocks and flows, properties of nodes, and scalars.

Blocks have brackets too, although the text shows only their indentation.
-/
namespace ClassSchema.Yaml

/-- How a scalar is written. -/
inductive Style where
  | plain
  | singleQuoted
  | doubleQuoted
  | literal
  | folded
deriving DecidableEq

/-- A tag: the octets that write it, which need not be a text. -/
structure Tag where
  octets : List UInt8
deriving DecidableEq

namespace Tag

/-- The tag that a text is. -/
def ofText (s : String) : Tag := ⟨s.toUTF8.toList⟩

/-- The tag as a text, if it is one. -/
def text? (t : Tag) : Option String := String.fromUTF8? ⟨t.octets.toArray⟩

/-- One tag behind another. -/
def append (t u : Tag) : Tag := ⟨t.octets ++ u.octets⟩

/-- The tag of a lone exclamation mark. -/
def bang : Tag := ofText "!"

/-- Does the tag belong to its text alone?  Such a tag begins with an exclamation mark. -/
def isLocal (t : Tag) : Bool := bang.octets.isPrefixOf t.octets

/-- The tag that a name stands for in every text. -/
def core (name : String) : Tag := ofText ("tag:yaml.org,2002:" ++ name)

end Tag

/-- A token of a YAML text. -/
inductive Token where
  | versionDirective (major minor : Nat)
  | tagDirective (handle : String) (start : Tag)
  | documentStart
  | documentEnd
  | blockSequenceStart
  | blockMappingStart
  | blockEnd
  | flowSequenceStart
  | flowSequenceEnd
  | flowMappingStart
  | flowMappingEnd
  | blockEntry
  | flowEntry
  | key
  | value
  | aliasOf (name : String)
  | anchor (name : String)
  | tag (handle : String) (suffix : Tag)
  | scalar (text : String) (style : Style)
deriving DecidableEq

end ClassSchema.Yaml
