/-
From the nodes of a text to its tree.

* `Node.number?` — the node with numbers in place of the names of its anchors;
* `Node.tree?` — the tree of a node;
* `Tree.parse?` — the tree of a text.

An anchor is given the number of names that are bound where it stands, and an alias stands for the
last node of the document that has its number.  Collections may stand at most 128 deep, aliases
included, and aliases are followed at most a hundred times for every event of the document.
-/
import ClassSchema.Yaml.Node
import ClassSchema.Yaml.Plain

namespace ClassSchema.Yaml.Node

/-! ### Numbers for anchors -/

/-- The numbers of the names bound so far. -/
abbrev Names := List (String × Nat)

/-- Binds the name of an anchor, if there is one, to the number of names bound before. -/
def bind (names : Names) : Option String → Option Nat × Names
  | some name => (some names.length, Entries.put name names.length names)
  | none => (none, names)

mutual

/-- The node with numbers for its anchors, and the names bound behind it.  Nothing if an alias
names no anchor before it. -/
def number? (names : Names) : Node String → Option (Node Nat × Names)
  | scalar anchor tag text style =>
    let (anchor, names) := bind names anchor
    some (scalar anchor tag text style, names)
  | sequence anchor tag items => do
    let (anchor, names) := bind names anchor
    let (items, names) ← numberItems? names items
    pure (sequence anchor tag items, names)
  | mapping anchor tag pairs => do
    let (anchor, names) := bind names anchor
    let (pairs, names) ← numberPairs? names pairs
    pure (mapping anchor tag pairs, names)
  | aliasOf target => (Entries.get? target names).map fun n => (aliasOf n, names)

/-- The items with numbers for their anchors. -/
def numberItems? (names : Names) : List (Node String) → Option (List (Node Nat) × Names)
  | [] => some ([], names)
  | n :: rest => do
    let (n, names) ← number? names n
    let (rest, names) ← numberItems? names rest
    pure (n :: rest, names)

/-- The pairs with numbers for their anchors. -/
def numberPairs? (names : Names) :
    List (Node String × Node String) → Option (List (Node Nat × Node Nat) × Names)
  | [] => some ([], names)
  | (k, v) :: rest => do
    let (k, names) ← number? names k
    let (v, names) ← number? names v
    let (rest, names) ← numberPairs? names rest
    pure ((k, v) :: rest, names)

end

mutual

/-- The anchored nodes in the order of the text, each with its number. -/
def anchored : Node Nat → List (Nat × Node Nat)
  | scalar anchor tag text style => anchor.toList.map fun n => (n, scalar anchor tag text style)
  | sequence anchor tag items =>
    (anchor.toList.map fun n => (n, sequence anchor tag items)) ++ anchoredItems items
  | mapping anchor tag pairs =>
    (anchor.toList.map fun n => (n, mapping anchor tag pairs)) ++ anchoredPairs pairs
  | aliasOf _ => []

/-- The anchored nodes among the items. -/
def anchoredItems : List (Node Nat) → List (Nat × Node Nat)
  | [] => []
  | n :: rest => anchored n ++ anchoredItems rest

/-- The anchored nodes among the pairs. -/
def anchoredPairs : List (Node Nat × Node Nat) → List (Nat × Node Nat)
  | [] => []
  | (k, v) :: rest => anchored k ++ anchored v ++ anchoredPairs rest

end

mutual

/-- How many events the text of a node has: one for a scalar or an alias, and a start and an end
for a collection. -/
def events : Node Nat → Nat
  | scalar .. => 1
  | sequence _ _ items => 2 + eventsOfItems items
  | mapping _ _ pairs => 2 + eventsOfPairs pairs
  | aliasOf _ => 1

/-- How many events the items have. -/
def eventsOfItems : List (Node Nat) → Nat
  | [] => 0
  | n :: rest => events n + eventsOfItems rest

/-- How many events the pairs have. -/
def eventsOfPairs : List (Node Nat × Node Nat) → Nat
  | [] => 0
  | (k, v) :: rest => events k + events v + eventsOfPairs rest

end

/-! ### Trees -/

/-- The name of a tag that is local to the text, if the tag is a text itself. -/
def localTag? (tag : Option Tag) : Option String :=
  tag.bind fun t => if t.isLocal then t.text?.map tagName else none

/-- What a scalar stands for. -/
def scalarTree? (tag : Option Tag) (text : String) (style : Style) : Option Tree :=
  let untagged := if style = .plain then ofPlain? text else some (.str text)
  match tag with
  | none => untagged
  | some t =>
    match localTag? tag with
    | some name => untagged.map (.tagged name)
    | none => if t.isLocal then untagged else ofTagged? t text

/-- The tree under its tag, if the tag is local to the text. -/
def underTag (tag : Option Tag) (t : Tree) : Tree :=
  match localTag? tag with
  | some name => .tagged name t
  | none => t

/-- A mapping, in which no key may occur twice. -/
def mapTree? (pairs : List (Tree × Tree)) : Option Tree :=
  let rec distinct : List (Tree × Tree) → Bool
    | [] => true
    | (k, _) :: rest => !(rest.any fun p => k.same p.1) && distinct rest
  if distinct pairs then some (.map pairs) else none

/-- The node that an alias stands for, as long as aliases may still be followed. -/
def follow? (targets : List (Nat × Node Nat)) : Node Nat → StateT Nat Option (Node Nat)
  | aliasOf n => do
    let left ← get
    if left = 0 then failure
    set (left - 1)
    match (targets.reverse.lookup n) with
    | some node => pure node
    | none => failure
  | node => pure node

/-- The tree of a node in which collections may stand `depth` deep.  The state counts how often
aliases may still be followed. -/
def expand? (targets : List (Nat × Node Nat)) (depth : Nat) (node : Node Nat) :
    StateT Nat Option Tree := do
  match ← follow? targets node with
  | scalar _ tag text style => StateT.lift (scalarTree? tag text style)
  | sequence _ tag items =>
    match depth with
    | 0 => failure
    | depth + 1 =>
      let items ← items.mapM (expand? targets depth)
      pure (underTag tag (.seq items))
  | mapping _ tag pairs =>
    match depth with
    | 0 => failure
    | depth + 1 =>
      let pairs ← pairs.mapM fun (k, v) => do
        let k ← expand? targets depth k
        let v ← expand? targets depth v
        pure (k, v)
      let t ← StateT.lift (mapTree? pairs)
      pure (underTag tag t)
  | aliasOf _ => failure

/-- How deep collections may stand in one another. -/
def maxDepth : Nat := 128

/-- How often aliases may be followed for every event. -/
def followsPerEvent : Nat := 100

/-- The tree of a node whose anchors are numbered. -/
def tree? (node : Node Nat) : Option Tree :=
  ((expand? (anchored node) maxDepth node).run (followsPerEvent * events node)).map (·.1)

/-- The node of the only document of a text, its anchors numbered; no node if there is no
document. -/
def ofText? (s : String) : Option (Option (Node Nat)) := do
  let tokens ← Token.ofText? s
  match ← ofTokens? tokens with
  | none => pure none
  | some node =>
    let (node, _) ← number? [] node
    pure (some node)

end Node

/-- The tree of a text; a text without a document is null. -/
def Tree.parse? (s : String) : Option Tree := do
  match ← Node.ofText? s with
  | none => pure .null
  | some node => node.tree?

end ClassSchema.Yaml
