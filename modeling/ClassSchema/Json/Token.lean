/-
The tokens of JSON texts.

* `Token` — punctuation, texts and the other leaves;
* `Token.scan?` — the token at the front of a text;
* `Token.ofText?` — all tokens of a text.

A text may hold any character from U+0020 on except the quote and the backslash, and the escapes;
a pair of escaped surrogates stands for one character, and a surrogate on its own for none.
-/
import ClassSchema.Json.Raw

namespace ClassSchema.Json

/-- A token of a JSON text. -/
inductive Token where
  | arrayStart
  | arrayEnd
  | objectStart
  | objectEnd
  | comma
  | colon
  /-- A text between quotes; nothing where escaped surrogates do not pair up. -/
  | text (s : Option String)
  /-- A tree without brackets that is no text. -/
  | leaf (r : Raw)

/-- The code unit that four hexadecimal digits write, and what follows them. -/
def codeUnit? : List Char → Option (Nat × List Char)
  | a :: b :: c :: d :: s => (Decimal.numeral? 16 [a, b, c, d]).map fun n => (n, s)
  | _ => none

/-- The low surrogate that an escape at the front of a text writes, and what follows it. -/
def lowSurrogate? : List Char → Option (Nat × List Char)
  | '\\' :: 'u' :: s => (codeUnit? s).filter fun (low, _) => 0xDC00 ≤ low && low ≤ 0xDFFF
  | _ => none

/-- The character that `\u` escapes write, from behind the `u`, and what follows; no character for
a surrogate that stands alone. -/
def unicodeEscape? (s : List Char) : Option (Option Char × List Char) := do
  let (high, rest) ← codeUnit? s
  if high < 0xD800 ∨ 0xDFFF < high then pure (some (Char.ofNat high), rest)
  else if high < 0xDC00 then
    match lowSurrogate? rest with
    | some (low, rest) =>
      pure (some (Char.ofNat (0x10000 + (high - 0xD800) * 0x400 + (low - 0xDC00))), rest)
    | none => pure (none, rest)
  else pure (none, rest)

/-- The character that an escape writes, from behind the backslash, and what follows. -/
def escape? : List Char → Option (Option Char × List Char)
  | '"' :: s => some ('"', s)
  | '\\' :: s => some ('\\', s)
  | '/' :: s => some ('/', s)
  | 'b' :: s => some ('\x08', s)
  | 'f' :: s => some ('\x0c', s)
  | 'n' :: s => some ('\n', s)
  | 'r' :: s => some ('\r', s)
  | 't' :: s => some ('\t', s)
  | 'u' :: s => unicodeEscape? s
  | _ => none

/-- A character in front of those that follow, where both are there. -/
def follow? (c : Option Char) (cs : Option (List Char)) : Option (List Char) := do
  pure ((← c) :: (← cs))

/-- The characters up to the closing quote, if all of them are characters, and what follows it.
Every step takes a character, so as many steps as characters suffice. -/
def quoted? (steps : Nat) (s : List Char) : Option (Option (List Char) × List Char) :=
  match steps, s with
  | 0, _ => none
  | _, [] => none
  | steps + 1, c :: s =>
    if c = '"' then some (some [], s)
    else if c = '\\' then do
      let (e, rest) ← escape? s
      let (cs, rest) ← quoted? steps rest
      pure (follow? e cs, rest)
    else if c.toNat < 0x20 then none
    else do
      let (cs, rest) ← quoted? steps s
      pure (follow? c cs, rest)

/-- The token at the front of a text, which has at most `steps` characters, and what follows it. -/
def Token.scan? (steps : Nat) : List Char → Option (Token × List Char)
  | '[' :: s => some (.arrayStart, s)
  | ']' :: s => some (.arrayEnd, s)
  | '\x7b' :: s => some (.objectStart, s)
  | '\x7d' :: s => some (.objectEnd, s)
  | ',' :: s => some (.comma, s)
  | ':' :: s => some (.colon, s)
  | '"' :: s =>
    (quoted? steps s).map fun (cs, rest) => (.text (cs.map String.ofList), rest)
  | 'n' :: 'u' :: 'l' :: 'l' :: s => some (.leaf .null, s)
  | 't' :: 'r' :: 'u' :: 'e' :: s => some (.leaf (.bool true), s)
  | 'f' :: 'a' :: 'l' :: 's' :: 'e' :: s => some (.leaf (.bool false), s)
  | s => (Literal.scan? s).map fun (literal, rest) => (.leaf (.num literal), rest)

/-- Is the character a blank of JSON texts? -/
def isBlank (c : Char) : Bool := c = ' ' || c = '\n' || c = '\t' || c = '\r'

/-- The tokens of a text, of at most `steps` of them. -/
def Token.scanAll? (steps : Nat) (s : List Char) : Option (List Token) :=
  match steps, s.dropWhile isBlank with
  | _, [] => some []
  | 0, _ => none
  | steps + 1, s => do
    let (t, rest) ← Token.scan? (steps + 1) s
    let ts ← Token.scanAll? steps rest
    pure (t :: ts)

/-- The tokens of a text.  A token has at least one character. -/
def Token.ofText? (s : String) : Option (List Token) := Token.scanAll? s.length s.toList

end ClassSchema.Json
