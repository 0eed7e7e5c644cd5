/-
JSON texts as trees.

* `Builder` — what has been read so far: the brackets that are open, and what may come next;
* `Builder.step` — reads one token;
* `Raw.ofText?` — the tree of a text as it is written;
* `Json.parse?` — the tree that a text means, with every repeated key left once.

Brackets of a tree that is meant may stand at most `maxDepth` deep.
-/
import ClassSchema.Json.Token

namespace ClassSchema.Json

/-- How deep brackets may stand in one another. -/
def maxDepth : Nat := 127

/-- An open bracket and what stands behind it so far, last first. -/
inductive Frame where
  | array (items : List Raw)
  | object (members : List (Option String × Raw))
  /-- An object in which a key waits for its value. -/
  | entry (members : List (Option String × Raw)) (key : Option String)

/-- What may come next. -/
inductive Expected where
  | value
  /-- A value, or the bracket that closes an empty array. -/
  | firstItem
  | key
  /-- A key, or the bracket that closes an empty object. -/
  | firstKey
  | colon
  /-- A comma, or the bracket that closes. -/
  | separator
  /-- Nothing: the tree is complete. -/
  | nothing (result : Raw)

/-- What has been read so far. -/
structure Builder where
  frames : List Frame
  expected : Expected

namespace Builder

/-- Nothing has been read. -/
def start : Builder := ⟨[], .value⟩

/-- Puts a complete value where it belongs. -/
def deliver (r : Raw) : List Frame → Option Builder
  | [] => some ⟨[], .nothing r⟩
  | .array items :: outer => some ⟨.array (r :: items) :: outer, .separator⟩
  | .entry members key :: outer => some ⟨.object ((key, r) :: members) :: outer, .separator⟩
  | .object _ :: _ => none

/-- Opens a bracket. -/
def push (b : Builder) (f : Frame) (expected : Expected) : Builder := ⟨f :: b.frames, expected⟩

/-- Reads a token where a value may stand. -/
def value? (b : Builder) : Token → Option Builder
  | .leaf r => deliver r b.frames
  | .text s => deliver (.str s) b.frames
  | .arrayStart => some (b.push (.array []) .firstItem)
  | .objectStart => some (b.push (.object []) .firstKey)
  | _ => none

/-- Reads a token where a key may stand. -/
def key? (b : Builder) : Token → Option Builder
  | .text key =>
    match b.frames with
    | .object members :: outer => some ⟨.entry members key :: outer, .colon⟩
    | _ => none
  | _ => none

/-- Closes the innermost bracket with the given token. -/
def close? (b : Builder) (t : Token) : Option Builder :=
  match t, b.frames with
  | .arrayEnd, .array items :: outer => deliver (.arr items.reverse) outer
  | .objectEnd, .object members :: outer => deliver (.obj members.reverse) outer
  | _, _ => none

/-- Reads one token. -/
def step (b : Builder) (t : Token) : Option Builder :=
  match b.expected, t with
  | .value, t => b.value? t
  | .firstItem, .arrayEnd => b.close? .arrayEnd
  | .firstItem, t => b.value? t
  | .key, t => b.key? t
  | .firstKey, .objectEnd => b.close? .objectEnd
  | .firstKey, t => b.key? t
  | .colon, .colon => some { b with expected := .value }
  | .colon, _ => none
  | .separator, .comma =>
    match b.frames with
    | .array _ :: _ => some { b with expected := .value }
    | .object _ :: _ => some { b with expected := .key }
    | _ => none
  | .separator, t => b.close? t
  | .nothing _, _ => none

/-- The tree, once it is complete. -/
def result? (b : Builder) : Option Raw :=
  match b.expected with
  | .nothing r => some r
  | _ => none

end Builder

/-- The tree of a text as it is written. -/
def Raw.ofText? (s : String) : Option Raw := do
  let tokens ← Token.ofText? s
  let b ← tokens.foldlM Builder.step Builder.start
  b.result?

/-- The tree that a text means.  Of the members with one key the first gives the position and the
last the value. -/
def parse? (s : String) : Option Json := do
  let r ← Raw.ofText? s
  (r.value? maxDepth).map collapse

end ClassSchema.Json
