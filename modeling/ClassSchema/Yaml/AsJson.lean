/-
YAML trees as JSON trees.

* `Unrepresentable` — what a JSON tree has no place for;
* `Tree.toJson` — the JSON tree of a YAML tree.

Tags say nothing here.  The key of a mapping may be a text, a number or a boolean, and becomes the
text that writes it.
-/
import ClassSchema.Yaml.Tree

namespace ClassSchema.Yaml

/-- What a JSON tree has no place for. -/
inductive Unrepresentable where
  /-- A number that is not finite. -/
  | number (x : Float)
  /-- A key that is no text, number or boolean. -/
  | key (t : Tree)

/-- The name of a number that is not finite. -/
def nonFiniteName (x : Float) : String :=
  if x.isNaN then "NaN" else if x < 0 then "-inf" else "inf"

/-- What a reader is told. -/
def Unrepresentable.message : Unrepresentable → String
  | number x => "cannot represent float " ++ nonFiniteName x ++ " in JSON"
  | key t => "unsupported YAML map key type: " ++ t.describe

namespace Tree

/-- The key of a JSON object for a key of a mapping. -/
def toKey : Tree → Except Unrepresentable String
  | str s => .ok s
  | num n => .ok (numberText n)
  | bool b => .ok (if b then "true" else "false")
  | t => .error (.key t)

mutual

/-- The JSON tree of a YAML tree.  Of the pairs whose keys are written alike, the first gives the
position and the last the value. -/
def toJson : Tree → Except Unrepresentable Json
  | null => .ok .null
  | bool b => .ok (.bool b)
  | num (.int n) => .ok (.num (.int n))
  | num (.float x) => if x.isFinite then .ok (.num (.float x)) else .error (.number x)
  | str s => .ok (.str s)
  | seq items => do
    let items ← itemsToJson items
    pure (.arr items)
  | map pairs => do
    let members ← pairsToJson pairs
    pure (.obj (Entries.ofList members))
  | tagged _ t => toJson t

/-- The JSON trees of the items. -/
def itemsToJson : List Tree → Except Unrepresentable (List Json)
  | [] => .ok []
  | t :: rest => do
    let j ← toJson t
    let rest ← itemsToJson rest
    pure (j :: rest)

/-- The members that the pairs become, one for each. -/
def pairsToJson : List (Tree × Tree) → Except Unrepresentable (List (String × Json))
  | [] => .ok []
  | (k, v) :: rest => do
    let key ← toKey k
    let j ← toJson v
    let rest ← pairsToJson rest
    pure ((key, j) :: rest)

end

end Tree
end ClassSchema.Yaml
