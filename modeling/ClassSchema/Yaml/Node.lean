/-
The nodes of a YAML text: scalars, sequences and mappings with their properties, and aliases.

* `Node` — a node, over the type of what names an anchor;
* `Node.ofTokens?` — the node of the only document of a text.

A text holds at most one document.  A tag is written out in full here: its handle is replaced by
what the directives of the document, or else the two default handles, let it stand for.
-/
import ClassSchema.Yaml.Lexer

namespace ClassSchema.Yaml

/-- A node, whose anchors are named by values of `ρ`. -/
inductive Node (ρ : Type) where
  | scalar (anchor : Option ρ) (tag : Option Tag) (text : String) (style : Style)
  | sequence (anchor : Option ρ) (tag : Option Tag) (items : List (Node ρ))
  | mapping (anchor : Option ρ) (tag : Option Tag) (pairs : List (Node ρ × Node ρ))
  | aliasOf (target : ρ)

namespace Node

/-- What the text shows as nothing at all. -/
def empty : Node String := scalar none none "" .plain

/-- What tag handles stand for. -/
abbrev Handles := List (String × Tag)

/-- The handles that need no directive. -/
def defaultHandles : Handles := [("!", Tag.bang), ("!!", Tag.core "")]

/-- The tag that a handle and a suffix write. -/
def fullTag? (handles : Handles) (handle : String) (suffix : Tag) : Option Tag :=
  if handle.isEmpty then some suffix
  else (handles.lookup handle).map fun start => start.append suffix

/-- The anchor and the tag in front of a node, in either order, and what follows. -/
def properties? (handles : Handles) :
    List Token → Option (Option String × Option Tag × List Token)
  | .anchor a :: .tag h s :: ts => (fullTag? handles h s).map fun t => (some a, some t, ts)
  | .tag h s :: .anchor a :: ts => (fullTag? handles h s).map fun t => (some a, some t, ts)
  | .anchor a :: ts => some (some a, none, ts)
  | .tag h s :: ts => (fullTag? handles h s).map fun t => (none, some t, ts)
  | ts => some (none, none, ts)

mutual

/-- The node at the front of the tokens, and what follows it.  Blocks may start only where
`inBlock` says so, and a sequence without brackets of its own only as `loose` allows. -/
def read? (handles : Handles) (inBlock loose : Bool) (steps : Nat) (ts : List Token) :
    Option (Node String × List Token) :=
  match steps with
  | 0 => none
  | steps + 1 =>
    match ts with
    | .aliasOf name :: ts => some (.aliasOf name, ts)
    | ts => do
      let (anchor, tag, ts) ← properties? handles ts
      let bare := anchor.isNone && tag.isNone
      match ts with
      | .blockEntry :: _ =>
        if loose then do
          let (items, ts) ← readLooseItems? handles steps ts
          pure (.sequence anchor tag items, ts)
        else if bare then none else pure (.scalar anchor tag "" .plain, ts)
      | .scalar text style :: ts => pure (.scalar anchor tag text style, ts)
      | .flowSequenceStart :: ts =>
        let (items, ts) ← readFlowItems? handles true steps ts
        pure (.sequence anchor tag items, ts)
      | .flowMappingStart :: ts =>
        let (pairs, ts) ← readFlowPairs? handles true steps ts
        pure (.mapping anchor tag pairs, ts)
      | .blockSequenceStart :: rest =>
        if inBlock then do
          let (items, ts) ← readBlockItems? handles steps rest
          pure (.sequence anchor tag items, ts)
        else if bare then none else pure (.scalar anchor tag "" .plain, ts)
      | .blockMappingStart :: rest =>
        if inBlock then do
          let (pairs, ts) ← readBlockPairs? handles steps rest
          pure (.mapping anchor tag pairs, ts)
        else if bare then none else pure (.scalar anchor tag "" .plain, ts)
      | ts => if bare then none else pure (.scalar anchor tag "" .plain, ts)

/-- The items of a block sequence, to its closing bracket. -/
def readBlockItems? (handles : Handles) (steps : Nat) (ts : List Token) :
    Option (List (Node String) × List Token) :=
  match steps with
  | 0 => none
  | steps + 1 =>
    match ts with
    | .blockEnd :: ts => some ([], ts)
    | .blockEntry :: ts => do
      let (item, ts) ←
        match ts with
        | .blockEntry :: _ => some (empty, ts)
        | .blockEnd :: _ => some (empty, ts)
        | _ => read? handles true false steps ts
      let (items, ts) ← readBlockItems? handles steps ts
      pure (item :: items, ts)
    | _ => none

/-- The items of a sequence that stands at the indentation of the mapping around it. -/
def readLooseItems? (handles : Handles) (steps : Nat) (ts : List Token) :
    Option (List (Node String) × List Token) :=
  match steps with
  | 0 => none
  | steps + 1 =>
    match ts with
    | .blockEntry :: ts => do
      let (item, ts) ←
        match ts with
        | .blockEntry :: _ => some (empty, ts)
        | .key :: _ => some (empty, ts)
        | .value :: _ => some (empty, ts)
        | .blockEnd :: _ => some (empty, ts)
        | _ => read? handles true false steps ts
      let (items, ts) ← readLooseItems? handles steps ts
      pure (item :: items, ts)
    | _ => some ([], ts)

/-- A key or a value of a block mapping, from behind its indicator. -/
def readBlockPart? (handles : Handles) (steps : Nat) (ts : List Token) :
    Option (Node String × List Token) :=
  match steps with
  | 0 => none
  | steps + 1 =>
    match ts with
    | .key :: _ => some (empty, ts)
    | .value :: _ => some (empty, ts)
    | .blockEnd :: _ => some (empty, ts)
    | _ => read? handles true true steps ts

/-- The pairs of a block mapping, to its closing bracket. -/
def readBlockPairs? (handles : Handles) (steps : Nat) (ts : List Token) :
    Option (List (Node String × Node String) × List Token) :=
  match steps with
  | 0 => none
  | steps + 1 =>
    match ts with
    | .blockEnd :: ts => some ([], ts)
    | .key :: ts => do
      let (key, ts) ← readBlockPart? handles steps ts
      let (value, ts) ←
        match ts with
        | .value :: ts => readBlockPart? handles steps ts
        | _ => some (empty, ts)
      let (pairs, ts) ← readBlockPairs? handles steps ts
      pure ((key, value) :: pairs, ts)
    | _ => none

/-- The value of a pair in a flow, if a colon stands there.  The flow is closed by `close`. -/
def readFlowValue? (handles : Handles) (close : Token) (steps : Nat) (ts : List Token) :
    Option (Node String × List Token) :=
  match steps with
  | 0 => none
  | steps + 1 =>
    match ts with
    | .value :: ts =>
      match ts with
      | .flowEntry :: _ => some (empty, ts)
      | t :: _ => if t = close then some (empty, ts) else read? handles false false steps ts
      | [] => none
    | _ => some (empty, ts)

/-- A mapping of one pair that stands as an item of a flow sequence, from behind its key indicator.
Where its key is empty, the token that shows it is passed over. -/
def readFlowPairItem? (handles : Handles) (steps : Nat) (ts : List Token) :
    Option (Node String × List Token) :=
  match steps with
  | 0 => none
  | steps + 1 => do
    let (key, ts) ←
      match ts with
      | .value :: ts => some (empty, ts)
      | .flowEntry :: ts => some (empty, ts)
      | .flowSequenceEnd :: ts => some (empty, ts)
      | _ => read? handles false false steps ts
    let (value, ts) ← readFlowValue? handles .flowSequenceEnd steps ts
    pure (.mapping none none [(key, value)], ts)

/-- The items of a flow sequence, to its closing bracket. -/
def readFlowItems? (handles : Handles) (first : Bool) (steps : Nat) (ts : List Token) :
    Option (List (Node String) × List Token) :=
  match steps with
  | 0 => none
  | steps + 1 =>
    match ts with
    | .flowSequenceEnd :: ts => some ([], ts)
    | ts => do
      let ts ←
        if first then some ts
        else
          match ts with
          | .flowEntry :: ts => some ts
          | _ => none
      match ts with
      | .flowSequenceEnd :: ts => some ([], ts)
      | .key :: ts =>
        let (item, ts) ← readFlowPairItem? handles steps ts
        let (items, ts) ← readFlowItems? handles false steps ts
        pure (item :: items, ts)
      | ts =>
        let (item, ts) ← read? handles false false steps ts
        let (items, ts) ← readFlowItems? handles false steps ts
        pure (item :: items, ts)

/-- The pairs of a flow mapping, to its closing bracket. -/
def readFlowPairs? (handles : Handles) (first : Bool) (steps : Nat) (ts : List Token) :
    Option (List (Node String × Node String) × List Token) :=
  match steps with
  | 0 => none
  | steps + 1 =>
    match ts with
    | .flowMappingEnd :: ts => some ([], ts)
    | ts => do
      let ts ←
        if first then some ts
        else
          match ts with
          | .flowEntry :: ts => some ts
          | _ => none
      match ts with
      | .flowMappingEnd :: ts => some ([], ts)
      | .key :: ts =>
        let (key, ts) ←
          match ts with
          | .value :: _ => some (empty, ts)
          | .flowEntry :: _ => some (empty, ts)
          | .flowMappingEnd :: _ => some (empty, ts)
          | _ => read? handles false false steps ts
        let (value, ts) ← readFlowValue? handles .flowMappingEnd steps ts
        let (pairs, ts) ← readFlowPairs? handles false steps ts
        pure ((key, value) :: pairs, ts)
      | ts =>
        let (key, ts) ← read? handles false false steps ts
        let (pairs, ts) ← readFlowPairs? handles false steps ts
        pure ((key, empty) :: pairs, ts)

end

/-- The directives in front of a document: whether a version is among them, the handles that they
declare, and what follows.  The version is 1.1 or 1.2, and nothing is declared twice. -/
def directives? (versioned : Bool) (handles : Handles) :
    List Token → Option (Handles × List Token)
  | .versionDirective major minor :: ts =>
    if !versioned && major = 1 && (minor = 1 || minor = 2) then directives? true handles ts
    else none
  | .tagDirective handle start :: ts =>
    if (handles.lookup handle).isSome then none
    else directives? versioned (handles ++ [(handle, start)]) ts
  | ts => some (handles, ts)

/-- The document at the front of the tokens, and what follows it. -/
def document? (ts : List Token) : Option (Node String × List Token) :=
  let steps := 4 * ts.length + 4
  let explicit := do
    let (handles, ts) ← directives? false [] ts
    match ts with
    | .documentStart :: ts =>
      match ts with
      | [] => some (empty, ts)
      | .versionDirective .. :: _ => some (empty, ts)
      | .tagDirective .. :: _ => some (empty, ts)
      | .documentStart :: _ => some (empty, ts)
      | .documentEnd :: _ => some (empty, ts)
      | _ => read? (handles ++ defaultHandles) true false steps ts
    | _ => none
  match ts with
  | .versionDirective .. :: _ => explicit
  | .tagDirective .. :: _ => explicit
  | .documentStart :: _ => explicit
  | _ => read? defaultHandles true false steps ts

/-- The node of the only document of a text; no node if there is no document. -/
def ofTokens? (ts : List Token) : Option (Option (Node String)) :=
  if ts.isEmpty then some none
  else do
    let (node, ts) ← document? ts
    if ts.all (· = .documentEnd) then some (some node) else none

end Node
end ClassSchema.Yaml
