/-
YAML trees: what a text says once scalars are resolved and aliases are followed.

* `Tree` — values, sequences, mappings in the order of the text, and tagged values;
* `Tree.same` — equality of keys, for which the order of a mapping does not matter;
* `Tree.describe` — a tree as a message shows it.
-/
import ClassSchema.Json.Basic
import ClassSchema.Decimal.Layout
import ClassSchema.Text.Quoted

namespace ClassSchema.Yaml

/-- A YAML tree. -/
inductive Tree where
  | null
  | bool (b : Bool)
  | num (n : Number)
  | str (s : String)
  | seq (items : List Tree)
  | map (pairs : List (Tree × Tree))
  | tagged (tag : String) (t : Tree)

/-- Numbers are positional from `0.00001` up to sixteen digits before the point, and an exponent
has no plus sign. -/
def numberLayout : Decimal.Layout where
  plainFrom := -5
  plainTo := 15
  plusSign := false

/-- The text of a number. -/
def numberText : Number → String
  | .int n => toString n
  | .float x =>
    if x.isNaN then ".nan"
    else if x.isFinite then numberLayout.render x
    else if x < 0 then "-.inf"
    else ".inf"

/-- Are two numbers one key?  There is one NaN, and an integer is no floating-point number. -/
def sameNumber : Number → Number → Bool
  | .int m, .int n => m == n
  | .float x, .float y => (x.isNaN && y.isNaN) || x == y
  | _, _ => false

/-- The name of a tag without the mark in front of it; the mark alone is its own name. -/
def tagName (tag : String) : String :=
  match tag.toList with
  | '!' :: c :: s => String.ofList (c :: s)
  | _ => tag

namespace Tree

mutual

/-- Are two trees one key? -/
def same : Tree → Tree → Bool
  | null, null => true
  | bool a, bool b => a == b
  | num m, num n => sameNumber m n
  | str s, str t => s == t
  | seq items, seq others => sameItems items others
  | map pairs, map others => pairs.length == others.length && samePairs pairs others
  | tagged tag t, tagged tag' t' => tagName tag == tagName tag' && same t t'
  | _, _ => false

/-- Are the items the same, one by one? -/
def sameItems : List Tree → List Tree → Bool
  | [], [] => true
  | t :: rest, t' :: rest' => same t t' && sameItems rest rest'
  | _, _ => false

/-- Is every pair among the others? -/
def samePairs : List (Tree × Tree) → List (Tree × Tree) → Bool
  | [], _ => true
  | (k, v) :: rest, others =>
    (others.any fun p => same k p.1 && same v p.2) && samePairs rest others

end

/-- The texts, with commas between them. -/
def commas (texts : List String) : String := String.intercalate ", " texts

mutual

/-- A tree as a message shows it. -/
def describe : Tree → String
  | null => "Null"
  | bool b => "Bool(" ++ (if b then "true" else "false") ++ ")"
  | num n => "Number(" ++ numberText n ++ ")"
  | str s => "String(" ++ Text.quoteText s ++ ")"
  | seq items => "Sequence [" ++ commas (describeItems items) ++ "]"
  | map pairs => "Mapping \x7b" ++ commas (describePairs pairs) ++ "\x7d"
  | tagged tag t =>
    "TaggedValue \x7b tag: !" ++ tagName tag ++ ", value: " ++ describe t ++ " \x7d"

/-- The items of a sequence, each as a message shows it. -/
def describeItems : List Tree → List String
  | [] => []
  | t :: rest => describe t :: describeItems rest

/-- The pairs of a mapping, each as a message shows it; keys of one word stand for themselves. -/
def describePairs : List (Tree × Tree) → List String
  | [] => []
  | (k, v) :: rest =>
    let key :=
      match k with
      | bool b => if b then "true" else "false"
      | num n => numberText n
      | str s => Text.quoteText s
      | k => describe k
    (key ++ ": " ++ describe v) :: describePairs rest

end

end Tree
end ClassSchema.Yaml
