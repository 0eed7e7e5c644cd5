/-
The tokens of a YAML text.

* `Lexer` — the place reached, the tokens so far, the open blocks and flows, and the places where a
  key may have started without an indicator;
* `Lexer.step?` — reads the next token;
* `Token.ofText?` — all tokens of a text.

A block opens where content stands deeper than the blocks around it, and closes where content
stands less deep.  A colon can make a key of what stands before it on its line: the place where
that began is remembered, and the key token is inserted there.
-/
import ClassSchema.Yaml.Token
import ClassSchema.Yaml.Scalar

namespace ClassSchema.Yaml

/-- A place where a key may have started without an indicator. -/
structure KeyStart where
  /-- Content stands there at the indentation of a mapping, so it must be a key. -/
  required : Bool
  /-- How many tokens stand before the place. -/
  position : Nat
  line : Nat
  column : Nat
  /-- How many octets the line has before the place. -/
  octets : Nat

/-- What has been read of a text. -/
structure Lexer where
  cursor : Cursor
  tokens : Array Token
  /-- The indentation of the innermost block; `-1` outside of all blocks. -/
  indent : Int
  /-- The indentations of the blocks around it. -/
  outer : List Int
  /-- Where a key may have started in the innermost flow, or in the block. -/
  keyStart : Option KeyStart
  /-- Where keys may have started around the open flows; one entry for each of them. -/
  keyStarts : List (Option KeyStart)
  /-- May a key start here? -/
  keyAllowed : Bool

namespace Lexer

/-- Nothing has been read. -/
def start (s : List Char) : Lexer where
  cursor := ⟨s, 0, 0, 0⟩
  tokens := #[]
  indent := -1
  outer := []
  keyStart := none
  keyStarts := []
  keyAllowed := true

/-- Is a flow open? -/
def inFlow (l : Lexer) : Bool := !l.keyStarts.isEmpty

/-- Adds a token and goes to the place behind it. -/
def emitTo (l : Lexer) (t : Token) (c : Cursor) : Lexer :=
  { l with tokens := l.tokens.push t, cursor := c }

/-! ### Keys -/

/-- The key start, unless it is too far back to end here: a key is on one line and has at most 1024
octets.  Nothing if it had to be a key. -/
def refresh? (c : Cursor) : Option KeyStart → Option (Option KeyStart)
  | none => some none
  | some k =>
    if k.line < c.line ∨ k.octets + 1024 < c.octets then
      (if k.required then none else some none)
    else some (some k)

/-- Forgets the key starts that are too far back. -/
def refreshKeys? (l : Lexer) : Option Lexer := do
  let keyStart ← refresh? l.cursor l.keyStart
  let keyStarts ← l.keyStarts.mapM (refresh? l.cursor)
  pure { l with keyStart, keyStarts }

/-- Forgets the innermost key start, unless it had to be a key. -/
def dropKey? (l : Lexer) : Option Lexer :=
  if l.keyStart.any (·.required) then none else some { l with keyStart := none }

/-- Remembers that a key may start here. -/
def saveKey? (l : Lexer) : Option Lexer :=
  if l.keyAllowed then do
    let l ← l.dropKey?
    let required := !l.inFlow && l.indent = l.cursor.column
    let c := l.cursor
    pure { l with keyStart := some ⟨required, l.tokens.size, c.line, c.column, c.octets⟩ }
  else some l

/-! ### Blocks -/

/-- Opens a block at a column, unless the innermost one is that deep already.  Its bracket goes
before the token with the given number. -/
def openBlock (l : Lexer) (column : Nat) (position : Nat) (bracket : Token) : Lexer :=
  if !l.inFlow && l.indent < column then
    { l with
      tokens := l.tokens.insertIdxIfInBounds position bracket
      indent := column
      outer := l.indent :: l.outer }
  else l

/-- Closes the blocks deeper than a column: how many, the indentation left, and those around it. -/
def unwind (column : Int) (indent : Int) : List Int → Nat × Int × List Int
  | [] => (0, indent, [])
  | next :: outer =>
    if column < indent then
      let (n, rest) := unwind column next outer
      (n + 1, rest)
    else (0, indent, next :: outer)

/-- Closes the blocks deeper than a column. -/
def closeBlocks (l : Lexer) (column : Int) : Lexer :=
  if l.inFlow then l
  else
    let (n, indent, outer) := unwind column l.indent l.outer
    { l with tokens := l.tokens ++ Array.replicate n Token.blockEnd, indent, outer }

/-- Closes all blocks, after which no key may start on this line. -/
def closeAll? (l : Lexer) : Option Lexer := do
  let l ← (l.closeBlocks (-1)).dropKey?
  pure { l with keyAllowed := false }

/-! ### Directives, anchors and tags -/

/-- The number at a place, of at most nine digits. -/
def number? (c : Cursor) : Option (Nat × Cursor) :=
  let (digits, c) := c.span Char.isDigit
  if digits.isEmpty || digits.length > 9 then none
  else some (Nat.ofDigitChars 10 digits 0, c)

/-- The octets that `%` escapes write at the front of a text: one character in UTF-8. -/
def percentOctets? (s : List Char) : Option (List UInt8 × Nat) := do
  let octet := fun (s : List Char) =>
    match s with
    | '%' :: a :: b :: _ => (Decimal.numeral? 16 [a, b]).map Nat.toUInt8
    | _ => none
  let first ← octet s
  let width ←
    if first &&& 0x80 = 0 then some 1
    else if first &&& 0xE0 = 0xC0 then some 2
    else if first &&& 0xF0 = 0xE0 then some 3
    else if first &&& 0xF8 = 0xF0 then some 4
    else none
  let others ← (List.range (width - 1)).mapM fun k => do
    let o ← octet (s.drop (3 * (k + 1)))
    if o &&& 0xC0 = 0x80 then pure o else none
  pure (first :: others, 3 * width)

/-- May the character stand in a tag?  Some may only inside angle brackets. -/
def isTagChar (verbatim : Bool) (c : Char) : Bool :=
  isNameChar c ||
    [';', '/', '?', ':', '@', '&', '=', '+', '$', '.', '!', '~', '*', '\'', '(', ')'].contains c ||
    (verbatim && [',', '[', ']'].contains c)

/-- The octets of the tag at a place, and the place behind it. -/
def tagOctets? (verbatim : Bool) (steps : Nat) (c : Cursor) : Option (List UInt8 × Cursor) :=
  match steps, c.head? with
  | steps + 1, some x =>
    if x = '%' then do
      let (octets, width) ← percentOctets? c.rest
      let (more, c) ← tagOctets? verbatim steps (c.skip width)
      pure (octets ++ more, c)
    else if isTagChar verbatim x then do
      let (more, c) ← tagOctets? verbatim steps (c.skip 1)
      pure ((String.singleton x).toUTF8.toList ++ more, c)
    else some ([], c)
  | _, _ => some ([], c)

/-- The part of a tag at a place, which ends at an octet of zero, and the place behind it. -/
def tagPart? (verbatim : Bool) (c : Cursor) : Option (Tag × Cursor) := do
  let (octets, c) ← tagOctets? verbatim (c.rest.length + 1) c
  pure (⟨octets.takeWhile (· ≠ 0)⟩, c)

/-- A part of a tag that is written with at least one character. -/
def tagUri? (verbatim : Bool) (c : Cursor) : Option (Tag × Cursor) :=
  if c.head?.any fun x => x = '%' || isTagChar verbatim x then tagPart? verbatim c else none

/-- The handle at a place: `!`, then name characters, then `!` if there is one. -/
def handle? (c : Cursor) : Option (String × Cursor) :=
  if c.starts '!' then
    let (name, c) := (c.skip 1).span isNameChar
    if c.starts '!' then some (String.ofList ('!' :: name ++ ['!']), c.skip 1)
    else some (String.ofList ('!' :: name), c)
  else none

/-- The directive at a place, and the start of the next line. -/
def directive? (c : Cursor) : Option (Token × Cursor) := do
  let (name, c) := (c.skip 1).span isNameChar
  if name.isEmpty || !isGap c.head? then none
  let c := c.skipBlanks
  let (t, c) ←
    if name = ['Y', 'A', 'M', 'L'] then do
      let (major, c) ← number? c
      if !c.starts '.' then none
      let (minor, c) ← number? (c.skip 1)
      pure (Token.versionDirective major minor, c)
    else if name = ['T', 'A', 'G'] then do
      let (handle, c) ← handle? c
      if handle.length > 1 && !handle.endsWith "!" then none
      if !c.head?.any isBlank then none
      let (start, c) ← tagUri? true c.skipBlanks
      if !isGap c.head? then none
      pure (Token.tagDirective handle start, c)
    else none
  let c ← c.finishLine?
  pure (t, c)

/-- The name behind an ampersand or an asterisk, and the place behind it. -/
def anchor? (c : Cursor) : Option (String × Cursor) :=
  let (name, c) := (c.skip 1).span isNameChar
  let ends := isGap c.head? || ['?', ':', ',', ']', '\x7d', '%', '@', '\x60'].any c.starts
  if name.isEmpty || !ends then none else some (String.ofList name, c)

/-- The tag at a place, and the place behind it. -/
def tag? (inFlow : Bool) (c : Cursor) : Option (Token × Cursor) := do
  let (t, c) ←
    if c.at? 1 == some '<' then do
      let (uri, c) ← tagUri? true (c.skip 2)
      if !c.starts '>' then none
      pure (Token.tag "" uri, c.skip 1)
    else do
      let (handle, behind) ← handle? c
      if handle.length > 1 && handle.endsWith "!" then do
        let (suffix, c) ← tagUri? false behind
        pure (Token.tag handle suffix, c)
      else do
        let (suffix, c) ← tagPart? false (c.skip 1)
        pure (if suffix.octets.isEmpty then Token.tag "" Tag.bang else Token.tag "!" suffix, c)
  if isGap c.head? || (inFlow && c.starts ',') then pure (t, c) else none

/-! ### Tokens -/

/-- Goes to the place where the next token starts: behind blanks, comments and line breaks. -/
def skipToToken (steps : Nat) (l : Lexer) : Lexer :=
  match steps with
  | 0 => l
  | steps + 1 =>
    let c := l.cursor
    let c := if c.column = 0 ∧ c.starts '\uFEFF' then c.skip 1 else c
    let c := (c.span fun x => x = ' ' || ((l.inFlow || !l.keyAllowed) && x = '\t')).2
    let c := if c.starts '#' then c.lineEnd else c
    if c.head?.any isBreak then
      -- outside of flows a new line may start with a key
      skipToToken steps { l with cursor := c.advance, keyAllowed := l.keyAllowed || !l.inFlow }
    else { l with cursor := c }

/-- Reads `---` or `...`. -/
def marker? (l : Lexer) (t : Token) : Option Lexer := do
  let l ← l.closeAll?
  pure (l.emitTo t (l.cursor.skip 3))

/-- Opens a flow. -/
def openFlow? (l : Lexer) (t : Token) : Option Lexer := do
  let l ← l.saveKey?
  let l := l.emitTo t (l.cursor.skip 1)
  pure { l with keyStart := none, keyStarts := l.keyStart :: l.keyStarts, keyAllowed := true }

/-- Closes a flow. -/
def closeFlow? (l : Lexer) (t : Token) : Option Lexer := do
  let l ← l.dropKey?
  let l := l.emitTo t (l.cursor.skip 1)
  let l := { l with keyAllowed := false }
  match l.keyStarts with
  | [] => pure l
  | k :: rest => pure { l with keyStart := k, keyStarts := rest }

/-- Reads the comma of a flow. -/
def flowEntry? (l : Lexer) : Option Lexer := do
  let l ← l.dropKey?
  pure { l.emitTo .flowEntry (l.cursor.skip 1) with keyAllowed := true }

/-- Opens a block at an indicator, where one may stand. -/
def openAtIndicator? (l : Lexer) (bracket : Token) : Option Lexer :=
  if l.inFlow then some l
  else if l.keyAllowed then some (l.openBlock l.cursor.column l.tokens.size bracket)
  else none

/-- Reads the dash of a sequence entry. -/
def blockEntry? (l : Lexer) : Option Lexer := do
  let l ← (← l.openAtIndicator? .blockSequenceStart).dropKey?
  pure { l.emitTo .blockEntry (l.cursor.skip 1) with keyAllowed := true }

/-- Reads the question mark of a key. -/
def key? (l : Lexer) : Option Lexer := do
  let l ← (← l.openAtIndicator? .blockMappingStart).dropKey?
  pure { l.emitTo .key (l.cursor.skip 1) with keyAllowed := !l.inFlow }

/-- Reads the colon of a value. -/
def value? (l : Lexer) : Option Lexer := do
  let l ←
    match l.keyStart with
    | some k =>
      -- the key token goes in front of what was read as its content since
      let l := { l with tokens := l.tokens.insertIdxIfInBounds k.position Token.key }
      let l := l.openBlock k.column k.position .blockMappingStart
      pure { l with keyStart := none, keyAllowed := false }
    | none =>
      let l ← l.openAtIndicator? .blockMappingStart
      pure { l with keyAllowed := !l.inFlow }
  pure (l.emitTo .value (l.cursor.skip 1))

/-- Reads a token at which a key may start and behind which none may. -/
def content? (l : Lexer) (read : Cursor → Option (Token × Cursor)) : Option Lexer := do
  let l ← l.saveKey?
  let (t, c) ← read l.cursor
  pure { l.emitTo t c with keyAllowed := false }

/-- Reads a block scalar. -/
def blockScalar? (l : Lexer) (folded : Bool) : Option Lexer := do
  let l ← l.dropKey?
  let (text, c) ← block? folded l.indent l.cursor
  let t := Token.scalar (String.ofList text) (if folded then .folded else .literal)
  pure { l.emitTo t c with keyAllowed := true }

/-- Reads a quoted scalar. -/
def quotedScalar? (single : Bool) (c : Cursor) : Option (Token × Cursor) := do
  let (text, c) ← quoted? single c
  pure (.scalar (String.ofList text) (if single then .singleQuoted else .doubleQuoted), c)

/-- Reads a plain scalar, behind which a key may start if a line break stands there. -/
def plainScalar? (l : Lexer) : Option Lexer := do
  let l ← l.saveKey?
  let (text, c, broken) ← plain? l.inFlow (l.indent + 1) l.cursor
  pure { l.emitTo (.scalar (String.ofList text) .plain) c with keyAllowed := broken }

/-- The characters that start no plain scalar, whatever follows them. -/
def indicators : List Char :=
  [',', '[', ']', '\x7b', '\x7d', '#', '&', '*', '!', '|', '>', '\'', '"', '%', '@', '\x60']

/-- May a plain scalar start here? -/
def startsPlain (inFlow : Bool) (c : Cursor) : Bool :=
  match c.head? with
  | none => false
  | some x =>
    if x = '-' then !(c.at? 1).any isBlank
    else if x = '?' ∨ x = ':' then !inFlow && !isGap (c.at? 1)
    else
      !isGap (some x) && !indicators.contains x

/-- Reads the token at the place reached, which is not the end of the text. -/
def token? (l : Lexer) : Option Lexer :=
  let c := l.cursor
  let next := c.at? 1
  if c.column = 0 ∧ c.starts '%' then do
    let l ← l.closeAll?
    let (t, c) ← directive? c
    pure (l.emitTo t c)
  else if c.startsLineWith '-' then l.marker? .documentStart
  else if c.startsLineWith '.' then l.marker? .documentEnd
  else if c.starts '[' then l.openFlow? .flowSequenceStart
  else if c.starts '\x7b' then l.openFlow? .flowMappingStart
  else if c.starts ']' then l.closeFlow? .flowSequenceEnd
  else if c.starts '\x7d' then l.closeFlow? .flowMappingEnd
  else if c.starts ',' then l.flowEntry?
  else if c.starts '-' && isGap next then l.blockEntry?
  else if c.starts '?' && (l.inFlow || isGap next) then l.key?
  else if c.starts ':' && (l.inFlow || isGap next) then l.value?
  else if c.starts '*' then
    l.content? fun c => (anchor? c).map fun (name, c) => (.aliasOf name, c)
  else if c.starts '&' then
    l.content? fun c => (anchor? c).map fun (name, c) => (.anchor name, c)
  else if c.starts '!' then l.content? (tag? l.inFlow)
  else if c.starts '|' && !l.inFlow then l.blockScalar? false
  else if c.starts '>' && !l.inFlow then l.blockScalar? true
  else if c.starts '\'' then l.content? (quotedScalar? true)
  else if c.starts '"' then l.content? (quotedScalar? false)
  else if startsPlain l.inFlow c then l.plainScalar?
  else none

/-- Reads the next token: the new state, and whether the text has ended.  At most `steps` lines
stand in front of the token. -/
def step? (steps : Nat) (l : Lexer) : Option (Lexer × Bool) := do
  let l ← (l.skipToToken steps).refreshKeys?
  let l := l.closeBlocks l.cursor.column
  if l.cursor.rest.isEmpty then
    -- the text ends the blocks that its last line leaves open
    let l ← (l.closeBlocks (-1)).dropKey?
    pure (l, true)
  else
    let l ← l.token?
    pure (l, false)

/-- Reads tokens to the end of the text.  Every token has at least one character. -/
def run? (steps : Nat) (l : Lexer) : Option Lexer :=
  match steps with
  | 0 => none
  | steps + 1 => do
    let (l, ended) ← l.step? (steps + 1)
    if ended then pure l else run? steps l

end Lexer

/-- The tokens of a text. -/
def Token.ofText? (s : String) : Option (List Token) := do
  let chars ← readable? s
  let l ← (Lexer.start chars).run? (chars.length + 1)
  pure l.tokens.toList

end ClassSchema.Yaml
