/-
The two spellings of a name.

* `joinWords` — the words between underscores, each capitalised, with a glue between them;
* `pascalCase` — all words run together: `zero_terms_query` is `ZeroTermsQuery`;
* `camelCase` — the same with its first letter in lower case: `zeroTermsQuery`;
* `decamelize` — back from either to words between underscores.

A schema writes names with underscores; class names are in Pascal case, and the names of accessors
end in Pascal case.
-/
import ClassSchema.Text.Casing

namespace ClassSchema

namespace Text

/-- The words of a text, which underscores keep apart. -/
def words (s : List Char) : List (List Char) := s.splitOn '_'

/-- A word with its first letter in upper case and all others in lower case. -/
def capitalWord (w : List Char) : List Char := capitalise (lower w)

/-- The words of a text, each capitalised, with a glue between them. -/
def joinWords (glue s : List Char) : List Char :=
  List.intercalate glue ((words s).map capitalWord)

/-- The words that the capital letters of a text begin, with underscores between them. -/
def decamelize : List Char → List Char
  | [] => []
  | c :: s => c.toLower :: s.flatMap fun c => if c.isUpper then ['_', c.toLower] else [c]

end Text

/-- The words of a text, each capitalised, with a glue between them. -/
def joinWords (glue s : String) : String := String.ofList (Text.joinWords glue.toList s.toList)

/-- The words of a text, each capitalised, run together. -/
def pascalCase (s : String) : String := joinWords "" s

/-- The words of a text, each but the first capitalised, run together. -/
def camelCase (s : String) : String := String.ofList (Text.uncapitalise (pascalCase s).toList)

/-- The words that the capital letters of a text begin, with underscores between them. -/
def decamelize (s : String) : String := String.ofList (Text.decamelize s.toList)

end ClassSchema
