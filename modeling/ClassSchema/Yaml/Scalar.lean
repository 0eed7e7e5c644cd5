/-
The scalars of YAML texts: from the place where one starts to its value and the place behind it.

* `plain?` — a scalar without quotes;
* `quoted?` — a scalar between single or double quotes;
* `block?` — a scalar that `|` or `>` announces.

Every step of a scan takes a character, so as many steps as characters suffice.
-/
import ClassSchema.Yaml.Cursor
import ClassSchema.Decimal.Numeral

namespace ClassSchema.Yaml

/-! ### Plain scalars -/

/-- The word of a plain scalar at the front of a text; nothing where a flow has a colon that no key
can end with. -/
def plainWord? (inFlow : Bool) : List Char → Option (List Char)
  | [] => some []
  | c :: s =>
    if isGap (some c) then some []
    else if inFlow && c = ':' && [',', '?', '[', ']', '\x7b', '\x7d'].any (s.head? == some ·) then
      none
    else if c = ':' && isGap s.head? then some []
    else if inFlow && [',', '[', ']', '\x7b', '\x7d'].contains c then some []
    else (plainWord? inFlow s).map (c :: ·)

/-- What a gap and the words of a plain scalar behind it add to its value, with the place behind
them and whether a line break stands before that place. -/
def plainRest? (inFlow : Bool) (indent : Int) (steps : Nat) (gap : Gap) (c : Cursor) :
    Option (List Char × Cursor × Bool) :=
  match steps with
  | 0 => none
  | steps + 1 =>
    if c.atMarker || c.starts '#' then some ([], c, gap.broken)
    else do
      let word ← plainWord? inFlow c.rest
      let c := c.skip word.length
      let (text, gap) := if word.isEmpty then ([], gap) else (gap.value ++ word, Gap.none)
      if c.rest.isEmpty || !isGap c.head? then pure (text, c, gap.broken)
      else
        let (gap, c) ← gap.scan? (some indent) steps c
        if !inFlow && (c.column : Int) < indent then pure (text, c, gap.broken)
        else
          let (more, c, broken) ← plainRest? inFlow indent steps gap c
          pure (text ++ more, c, broken)

/-- The plain scalar at a place: its value, the place behind it, and whether a line break stands
before that place.  Outside of flows its lines are indented by at least `indent`. -/
def plain? (inFlow : Bool) (indent : Int) (c : Cursor) : Option (List Char × Cursor × Bool) :=
  plainRest? inFlow indent (c.rest.length + 1) Gap.none c

/-! ### Quoted scalars -/

/-- The character that a one-letter escape writes. -/
def escapeLetter? (c : Char) : Option Char :=
  match c with
  | '0' => some '\x00'
  | 'a' => some '\x07'
  | 'b' => some '\x08'
  | 't' => some '\t'
  | '\t' => some '\t'
  | 'n' => some '\n'
  | 'v' => some '\x0b'
  | 'f' => some '\x0c'
  | 'r' => some '\r'
  | 'e' => some '\x1b'
  | ' ' => some ' '
  | '"' => some '"'
  | '/' => some '/'
  | '\\' => some '\\'
  | 'N' => some '\u0085'
  | '_' => some '\u00a0'
  | 'L' => some '\u2028'
  | 'P' => some '\u2029'
  | _ => none

/-- How many hexadecimal digits follow the letter of an escape by code point. -/
def escapeWidth? (c : Char) : Option Nat :=
  match c with
  | 'x' => some 2
  | 'u' => some 4
  | 'U' => some 8
  | _ => none

/-- The character that an escape writes, and how many characters the escape has behind its
backslash. -/
def escape? : List Char → Option (Char × Nat)
  | [] => none
  | c :: s =>
    match escapeLetter? c with
    | some x => some (x, 1)
    | none => do
      let width ← escapeWidth? c
      if s.length < width then none
      let code ← Decimal.numeral? 16 (s.take width)
      if code.isValidChar then pure (Char.ofNat code, width + 1) else none

/-- The characters of a quoted scalar up to white space or the closing quote, the place behind them,
and the gap that starts there. -/
def quotedWord? (single : Bool) (steps : Nat) (c : Cursor) : Option (List Char × Cursor × Gap) :=
  match steps with
  | 0 => none
  | steps + 1 =>
    if isGap c.head? then some ([], c, Gap.none)
    else if single && c.starts '\'' && c.at? 1 == some '\'' then do
      let (text, c, gap) ← quotedWord? single steps (c.skip 2)
      pure ('\'' :: text, c, gap)
    else if c.starts (if single then '\'' else '"') then some ([], c, Gap.none)
    else if !single && c.starts '\\' && (c.at? 1).any isBreak then
      some ([], (c.skip 1).advance, Gap.escapedBreak)
    else if !single && c.starts '\\' then do
      let (x, width) ← escape? (c.rest.drop 1)
      let (text, c, gap) ← quotedWord? single steps (c.skip (width + 1))
      pure (x :: text, c, gap)
    else do
      let x ← c.head?
      let (text, c, gap) ← quotedWord? single steps c.advance
      pure (x :: text, c, gap)

/-- The value of a quoted scalar from a place within it on, and the place behind its last quote. -/
def quotedRest? (single : Bool) (steps : Nat) (c : Cursor) : Option (List Char × Cursor) :=
  match steps with
  | 0 => none
  | steps + 1 =>
    if c.atMarker || c.rest.isEmpty then none
    else do
      let (word, c, gap) ← quotedWord? single (steps + 1) c
      if c.starts (if single then '\'' else '"') then pure (word, c.skip 1)
      else
        let (gap, c) ← gap.scan? none steps c
        let (more, c) ← quotedRest? single steps c
        pure (word ++ gap.value ++ more, c)

/-- The quoted scalar at a place: its value and the place behind it. -/
def quoted? (single : Bool) (c : Cursor) : Option (List Char × Cursor) :=
  quotedRest? single (c.rest.length + 1) (c.skip 1)

/-! ### Block scalars -/

/-- What becomes of the line breaks at the end of a block scalar. -/
inductive Chomping where
  | strip
  | clip
  | keep

/-- The chomping that an indicator asks for. -/
def Chomping.ofChar? : Char → Option Chomping
  | '+' => some .keep
  | '-' => some .strip
  | _ => none

/-- The header of a block scalar from behind its `|` or `>`: its chomping, the indentation that it
announces, if any, and the place behind the indicators. -/
def blockHeader? (c : Cursor) : Option (Chomping × Option Nat × Cursor) := do
  let digit := fun (c : Cursor) =>
    match c.head? with
    | some x =>
      if x = '0' then none
      else if x.isDigit then some (some (x.toNat - '0'.toNat), c.skip 1)
      else some (none, c)
    | none => some (none, c)
  match c.head?.bind Chomping.ofChar? with
  | some chomping =>
    let (increment, c) ← digit (c.skip 1)
    pure (chomping, increment, c)
  | none =>
    let (increment, c) ← digit c
    match increment, c.head?.bind Chomping.ofChar? with
    | some _, some chomping => pure (chomping, increment, c.skip 1)
    | _, _ => pure (.clip, increment, c)

/-- Blank lines of a block scalar and the indentation that follows: the line breaks, the place
behind, and the widest indentation met.  Where the indentation is not known yet, all blanks belong
to it. -/
def blockBreaks? (indent : Option Nat) (steps : Nat) (widest : Nat) (c : Cursor) :
    Option (List Char × Cursor × Nat) :=
  match steps with
  | 0 => none
  | steps + 1 =>
    let blanks := (c.rest.takeWhile (· = ' ')).length
    let c := c.skip (match indent with | some n => min blanks (n - c.column) | none => blanks)
    let widest := max widest c.column
    if (indent.all fun n => c.column < n) && c.starts '\t' then none
    else
      match c.head? with
      | some x =>
        if isBreak x then do
          let (more, c, widest) ← blockBreaks? indent steps widest c.advance
          pure (x :: more, c, widest)
        else some ([], c, widest)
      | none => some ([], c, widest)

/-- The line break at a place, if there is one, and the place behind it. -/
def takeBreak (c : Cursor) : List Char × Cursor :=
  match c.head? with
  | some x => if isBreak x then ([x], c.advance) else ([], c)
  | none => ([], c)

/-- What the lines of a block scalar from a place on add to its value, the break that ends the last
of them, the breaks of blank lines behind it, and the place behind those.  Before the place,
`leading` is the break that ends the previous line, `trailing` are the breaks of blank lines behind
it, and `wasBlank` says that the previous line starts with a blank. -/
def blockLines? (folded : Bool) (indent : Nat) (steps : Nat) (leading trailing : List Char)
    (wasBlank : Bool) (c : Cursor) : Option (List Char × List Char × List Char × Cursor) :=
  match steps with
  | 0 => none
  | steps + 1 =>
    if c.column = indent && !c.rest.isEmpty then do
      let blank := c.head?.any isBlank
      -- a fold joins two lines only if neither of them starts with a blank
      let joint :=
        if folded && leading.head? = some '\n' && !wasBlank && !blank then
          (if trailing.isEmpty then [' '] else [])
        else leading
      let (line, c) := c.span fun x => !isBreak x
      let (leading, c) := takeBreak c
      let (breaks, c, _) ← blockBreaks? (some indent) (steps + 1) 0 c
      let (more, leading, breaks, c) ← blockLines? folded indent steps leading breaks blank c
      pure (joint ++ trailing ++ line ++ more, leading, breaks, c)
    else some ([], leading, trailing, c)

/-- The block scalar at a place, inside a block of the given indentation: its value and the place
behind it. -/
def block? (folded : Bool) (parent : Int) (c : Cursor) : Option (List Char × Cursor) := do
  let (chomping, increment, c) ← blockHeader? (c.skip 1)
  let c ← c.finishLine?
  let announced := increment.map fun n => (if 0 ≤ parent then parent + n else n).toNat
  let (breaks, c, widest) ← blockBreaks? announced (c.rest.length + 1) 0 c
  -- unless announced, the first line decides; it is deeper than the block around
  let indent := announced.getD (max (max widest (parent + 1).toNat) 1)
  let (text, leading, trailing, c) ←
    blockLines? folded indent (c.rest.length + 1) [] breaks false c
  match chomping with
  | .strip => pure (text, c)
  | .clip => pure (text ++ leading, c)
  | .keep => pure (text ++ leading ++ trailing, c)

end ClassSchema.Yaml
