/-
Messages as the log shows them.

* `logText` — a message without characters that a terminal would obey.

Bell, backspace, form feed, escape, delete and the controls from U+0080 on are written by their
code.  Line breaks stay, so a message may take several lines of the log.
-/
namespace ClassSchema.CommandLine

/-- What the log shows of a character. -/
def logChar (c : Char) : List Char :=
  if c = '\x07' then ['\\', 'x', '0', '7']
  else if c = '\x08' then ['\\', 'x', '0', '8']
  else if c = '\x0c' then ['\\', 'x', '0', 'c']
  else if c = '\x1b' then ['\\', 'x', '1', 'b']
  else if c = '\x7f' then ['\\', 'x', '7', 'f']
  else if '\u0080' ≤ c ∧ c ≤ '\u009f' then
    ['\\', 'u', '\x7b'] ++ Nat.toDigits 16 c.toNat ++ ['\x7d']
  else [c]

/-- What the log shows of a message. -/
def logText (message : String) : String := String.ofList (message.toList.flatMap logChar)

end ClassSchema.CommandLine
