/-
Letter case over all of Unicode.

* `lowerChar`, `upperChar` — the full mapping of one character, which may be a longer text;
* `lower` — a text in lower case, where a capital sigma at the end of a word becomes `ς`;
* `capitalise`, `uncapitalise` — a text whose first character alone is mapped.

ASCII is decided first and by arithmetic, so the tables are read for other characters only.
-/
import ClassSchema.Text.Ranges
import ClassSchema.Text.CaseTable

namespace ClassSchema.Text

/-- Where a table of shifts moves a code point, if it lists it. -/
def shiftOf (table : List Shift) (n : Nat) : Option Nat :=
  (table.find? fun s => s.first ≤ n && n ≤ s.last && (n - s.first) % s.step == 0).map
    fun s => ((n : Int) + s.distance).toNat

/-- The mapping of one character by a table of shifts and a table of expansions. -/
def mapBy (shifts : List Shift) (expansions : List (Nat × List Nat)) (c : Char) : List Char :=
  match expansions.lookup c.toNat with
  | some codes => codes.map Char.ofNat
  | none =>
    match shiftOf shifts c.toNat with
    | some n => [Char.ofNat n]
    | none => [c]

/-- The lower-case form of a character. -/
def lowerChar (c : Char) : List Char :=
  if c.toNat < 0x80 then [c.toLower] else mapBy lowerShifts lowerExpansions c

/-- The upper-case form of a character. -/
def upperChar (c : Char) : List Char :=
  if c.toNat < 0x80 then [c.toUpper] else mapBy upperShifts upperExpansions c

/-- Has the character a case? -/
def isCased (c : Char) : Bool := inRanges casedRanges c.toNat

/-- Is the character passed over when the end of a word is looked for? -/
def isCaseIgnorable (c : Char) : Bool := inRanges caseIgnorableRanges c.toNat

/-- Is the first character that is not passed over a cased one? -/
def meetsCased (s : List Char) : Bool :=
  match s.dropWhile isCaseIgnorable with
  | c :: _ => isCased c
  | [] => false

/-- The lower-case form of `after`, which follows the reversed text `before`. -/
def lowerAfter (before : List Char) : List Char → List Char
  | [] => []
  | c :: after =>
    if c = 'Σ' then
      (if meetsCased before && !meetsCased after then 'ς' else 'σ') ::
        lowerAfter (c :: before) after
    else
      lowerChar c ++ lowerAfter (c :: before) after

/-- A text in lower case. -/
def lower (s : List Char) : List Char := lowerAfter [] s

/-- A text with its first character in upper case. -/
def capitalise : List Char → List Char
  | [] => []
  | c :: s => upperChar c ++ s

/-- A text with its first character in lower case. -/
def uncapitalise : List Char → List Char
  | [] => []
  | c :: s => lowerChar c ++ s

end ClassSchema.Text
