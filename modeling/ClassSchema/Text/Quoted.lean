/-
Characters and texts as messages show them, between quotes.

* `quoteChar` — a character between single quotes;
* `quoteText` — a text between double quotes.

The quote in use, the backslash, NUL, tab, newline and carriage return stand behind a backslash; a
character that would not be visible is given by its code point, as in `\u{301}`; every other
character stands for itself.
-/
import ClassSchema.Text.Ranges
import ClassSchema.Text.HiddenTable

namespace ClassSchema.Text

/-- Is the character shown by its code point? -/
def isHidden (c : Char) : Bool :=
  let n := c.toNat
  if n < 0x7F then n < 0x20
  else if n < 0x10000 then inRanges hiddenBelow n
  else inRanges hiddenAbove n

/-- A code point in lower-case hexadecimal digits. -/
def hexDigits (n : Nat) : List Char := Nat.toDigits 16 n

/-- What stands for the character between quotes of the given kind. -/
def escape (quote : Char) (c : Char) : List Char :=
  if c = quote then ['\\', c]
  else if c = '\\' then ['\\', '\\']
  else if c = '\x00' then ['\\', '0']
  else if c = '\t' then ['\\', 't']
  else if c = '\n' then ['\\', 'n']
  else if c = '\r' then ['\\', 'r']
  else if isHidden c then ['\\', 'u', '\x7b'] ++ hexDigits c.toNat ++ ['\x7d']
  else [c]

/-- A character between single quotes. -/
def quoteChar (c : Char) : String :=
  String.ofList (['\''] ++ escape '\'' c ++ ['\''])

/-- A text between double quotes. -/
def quoteText (s : String) : String :=
  String.ofList (['"'] ++ s.toList.flatMap (escape '"') ++ ['"'])

end ClassSchema.Text
