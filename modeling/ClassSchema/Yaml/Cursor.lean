/-
A place in a YAML text, and the characters that matter to its layout.

* `readable?` — the characters of a text behind its byte order mark, every line break written in one
  way;
* `Cursor` — what is left of a text, with the line and the column at which it starts, and the number
  of octets before it on that line;
* `Cursor.atMarker` — does a line start here with `---` or `...`?

A line ends at a line feed, a carriage return, both in this order, a next-line character, a line
separator or a paragraph separator.  Only the last two survive in the value of a scalar.
-/
namespace ClassSchema.Yaml

/-- May the character occur in a YAML text? -/
def isAllowed (c : Char) : Bool :=
  let n := c.toNat
  n = 0x9 || n = 0xA || n = 0xD || n = 0x85 || (0x20 ≤ n && n ≤ 0x7E) ||
    (0xA0 ≤ n && n ≤ 0xFFFD) || 0x10000 ≤ n

/-- The text with each of its line breaks written as a line feed, separators apart. -/
def unifyBreaks : List Char → List Char
  | [] => []
  | '\r' :: '\n' :: s => '\n' :: unifyBreaks s
  | c :: s => (if c = '\r' ∨ c = '\u0085' then '\n' else c) :: unifyBreaks s

/-- The characters without the byte order mark that may stand in front of a text. -/
def dropMark : List Char → List Char
  | '\uFEFF' :: s => s
  | s => s

/-- The characters of a text, if all are allowed, with line breaks written in one way. -/
def readable? (s : String) : Option (List Char) :=
  let chars := dropMark s.toList
  if chars.all isAllowed then some (unifyBreaks chars) else none

/-- Is the character a blank within a line? -/
def isBlank (c : Char) : Bool := c = ' ' || c = '\t'

/-- Does the character end a line? -/
def isBreak (c : Char) : Bool := c = '\n' || c = '\u2028' || c = '\u2029'

/-- Is this a blank, the end of a line or the end of the text? -/
def isGap : Option Char → Bool
  | some c => isBlank c || isBreak c
  | none => true

/-- Is this the end of a line or the end of the text? -/
def isLineEnd : Option Char → Bool
  | some c => isBreak c
  | none => true

/-- May the character stand in a name? -/
def isNameChar (c : Char) : Bool := c.isAlphanum || c = '_' || c = '-'

/-- What is left of a text, with the line and the column at which it starts. -/
structure Cursor where
  rest : List Char
  line : Nat
  column : Nat
  /-- How many octets of UTF-8 the line has up to here. -/
  octets : Nat

/-- How many octets of UTF-8 a text has. -/
def octetCount (s : List Char) : Nat := s.foldr (fun c octets => c.utf8Size + octets) 0

namespace Cursor

/-- The next character. -/
def head? (c : Cursor) : Option Char := c.rest.head?

/-- The character after `k` others. -/
def at? (c : Cursor) (k : Nat) : Option Char := c.rest[k]?

/-- Is the next character the given one? -/
def starts (c : Cursor) (x : Char) : Bool := c.head? == some x

/-- The place behind the next character. -/
def advance (c : Cursor) : Cursor :=
  match c.rest with
  | [] => c
  | x :: rest =>
    if isBreak x then ⟨rest, c.line + 1, 0, 0⟩
    else ⟨rest, c.line, c.column + 1, c.octets + x.utf8Size⟩

/-- The place behind the next `k` characters of this line. -/
def skip (c : Cursor) (k : Nat) : Cursor :=
  ⟨c.rest.drop k, c.line, c.column + k, c.octets + octetCount (c.rest.take k)⟩

/-- The longest run of characters of a kind that does not hold line breaks, and the place behind
it. -/
def span (c : Cursor) (kind : Char → Bool) : List Char × Cursor :=
  let run := c.rest.takeWhile kind
  (run, c.skip run.length)

/-- The place behind the blanks. -/
def skipBlanks (c : Cursor) : Cursor := (c.span isBlank).2

/-- The end of the line. -/
def lineEnd (c : Cursor) : Cursor := (c.span fun x => !isBreak x).2

/-- Does a line start here with three times the character and a gap? -/
def startsLineWith (c : Cursor) (x : Char) : Bool :=
  c.column == 0 && [x, x, x].isPrefixOf c.rest && isGap (c.at? 3)

/-- Does a line start here with `---` or `...`? -/
def atMarker (c : Cursor) : Bool := c.startsLineWith '-' || c.startsLineWith '.'

/-- The start of the next line, where only blanks and a comment are left of this one. -/
def finishLine? (c : Cursor) : Option Cursor :=
  let c := c.skipBlanks
  let c := if c.starts '#' then c.lineEnd else c
  if isLineEnd c.head? then some c.advance else none

end Cursor

/-- White space between two words of a scalar that may run over several lines. -/
structure Gap where
  /-- The blanks that stand before any line break. -/
  blanks : List Char
  /-- Does the gap hold a line break, or an escaped one? -/
  broken : Bool
  /-- The first line break, unless it is escaped. -/
  first : Option Char
  /-- The line breaks that follow. -/
  later : List Char

namespace Gap

/-- No white space. -/
def none : Gap := ⟨[], false, Option.none, []⟩

/-- The gap that an escaped line break starts. -/
def escapedBreak : Gap := ⟨[], true, Option.none, []⟩

/-- The gap with one more character of white space. -/
def push (g : Gap) (c : Char) : Gap :=
  if isBreak c then
    if g.broken then { g with later := g.later ++ [c] } else ⟨[], true, some c, []⟩
  else if g.broken then g
  else { g with blanks := g.blanks ++ [c] }

/-- What the gap leaves in the value of the scalar: blanks within a line are kept; one line feed is
a blank, and more of them are one less. -/
def value (g : Gap) : List Char :=
  if !g.broken then g.blanks
  else if g.first = some '\n' then (if g.later.isEmpty then [' '] else g.later)
  else g.first.toList ++ g.later

/-- The gap and the place behind it.  Where a column is given, a tab before it on a line that the
gap has started is refused. -/
def scan? (column : Option Int) (steps : Nat) (g : Gap) (c : Cursor) : Option (Gap × Cursor) :=
  match steps, c.head? with
  | steps + 1, some x =>
    if isBlank x || isBreak x then
      if x = '\t' && g.broken && column.any fun k => (c.column : Int) < k then Option.none
      else scan? column steps (g.push x) c.advance
    else some (g, c)
  | _, _ => some (g, c)

end Gap

end ClassSchema.Yaml
