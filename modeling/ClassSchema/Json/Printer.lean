/-
JSON trees as text.

* `Json.compact` — without any blank;
* `Json.pretty` — one item or member a line, each level indented by two blanks.

Texts escape the quote, the backslash and the controls below U+0020; every other character stands
for itself.  Floating-point numbers follow `numberLayout`.
-/
import ClassSchema.Json.Basic
import ClassSchema.Decimal.Layout

namespace ClassSchema

/-- Numbers are positional from `0.00001` up to sixteen digits before the point; beyond, a positive
exponent has a sign. -/
def numberLayout : Decimal.Layout where
  plainFrom := -5
  plainTo := 15
  plusSign := true

/-- The text of a number; what is not finite is null. -/
def Number.render : Number → String
  | .int n => toString n
  | .float x => if x.isFinite then numberLayout.render x else "null"

namespace Json

/-- What stands for a character inside a quoted text. -/
def escape (c : Char) : List Char :=
  if c = '"' then ['\\', '"']
  else if c = '\\' then ['\\', '\\']
  else if c = '\x08' then ['\\', 'b']
  else if c = '\x0c' then ['\\', 'f']
  else if c = '\n' then ['\\', 'n']
  else if c = '\r' then ['\\', 'r']
  else if c = '\t' then ['\\', 't']
  else if c.toNat < 0x20 then
    ['\\', 'u', '0', '0', Nat.digitChar (c.toNat / 16), Nat.digitChar (c.toNat % 16)]
  else [c]

/-- A text between quotes. -/
def quote (s : String) : String :=
  String.ofList (['"'] ++ s.toList.flatMap escape ++ ['"'])

/-- How trees are broken into lines. -/
inductive Style where
  | compact
  | pretty

/-- What stands before an item at a depth, and before the bracket that closes one. -/
def Style.lineBreak (style : Style) (depth : Nat) : String :=
  match style with
  | .compact => ""
  | .pretty => String.ofList ('\n' :: List.replicate (2 * depth) ' ')

/-- What stands between a key and its value. -/
def Style.colon : Style → String
  | .compact => ":"
  | .pretty => ": "

mutual

/-- The text of a tree whose brackets stand at a depth. -/
def render (style : Style) (depth : Nat) : Json → String
  | null => "null"
  | bool b => if b then "true" else "false"
  | num n => n.render
  | str s => quote s
  | arr [] => "[]"
  | arr (j :: rest) =>
    "[" ++ style.lineBreak (depth + 1) ++ render style (depth + 1) j ++
      renderItems style (depth + 1) rest ++ style.lineBreak depth ++ "]"
  | obj [] => "\x7b\x7d"
  | obj ((key, j) :: rest) =>
    "\x7b" ++ style.lineBreak (depth + 1) ++ quote key ++ style.colon ++
      render style (depth + 1) j ++ renderMembers style (depth + 1) rest ++
      style.lineBreak depth ++ "\x7d"

/-- The items that follow the first one of an array. -/
def renderItems (style : Style) (depth : Nat) : List Json → String
  | [] => ""
  | j :: rest =>
    "," ++ style.lineBreak depth ++ render style depth j ++ renderItems style depth rest

/-- The members that follow the first one of an object. -/
def renderMembers (style : Style) (depth : Nat) : List (String × Json) → String
  | [] => ""
  | (key, j) :: rest =>
    "," ++ style.lineBreak depth ++ quote key ++ style.colon ++ render style depth j ++
      renderMembers style depth rest

end

/-- The text of a tree without any blank. -/
def compact (j : Json) : String := render .compact 0 j

/-- The text of a tree over several lines. -/
def pretty (j : Json) : String := render .pretty 0 j

end Json
end ClassSchema
