/-
The arguments of the program.

* `Argument` — one argument, taken apart;
* `Command` — what the program is asked to do;
* `Request.ofArguments` — the request that arguments make, or why they make none.

Arguments are read from left to right, and the first one that does not fit, or that asks for help or
for the version, settles the matter.  Options of the program itself may stand on either side of the
name of the command; the one behind it counts.
-/
namespace ClassSchema.CommandLine

/-- An argument, taken apart. -/
inductive Argument where
  /-- Two hyphens alone, behind which nothing is an option. -/
  | escape
  /-- An option with a long name, and a value behind an equals sign. -/
  | long (name : String) (value : Option String)
  /-- Options of one letter each. -/
  | short (letters : List Char)
  | plain (text : String)

/-- Takes an argument apart. -/
def Argument.ofText (s : String) : Argument :=
  match s.toList with
  | ['-', '-'] => .escape
  | '-' :: '-' :: rest =>
    let name := String.ofList (rest.takeWhile (· ≠ '='))
    match rest.dropWhile (· ≠ '=') with
    | _ :: value => .long name (some (String.ofList value))
    | [] => .long name none
  | '-' :: c :: rest => .short (c :: rest)
  | _ => .plain s

/-- Why arguments make no request. -/
inductive Refusal where
  | wrongUse
  | help
  | version
deriving DecidableEq

/-- What the program is asked to do. -/
inductive Command where
  /-- Write the manifests of a schema, to a directory or else to the output. -/
  | compile (schema : String) (docs : Bool) (directory : Option String)
  /-- Tell whether a schema compiles and links. -/
  | check (schema : String)

/-- A command with the file of options to use. -/
structure Request where
  config : Option String
  command : Command

/-- The commands by name. -/
inductive CommandName where
  | compile
  | check
deriving DecidableEq

/-- The command of a name. -/
def CommandName.ofText? (s : String) : Option CommandName :=
  if s = "compile" then some .compile else if s = "check" then some .check else none

/-- May the text be the value of an option, as an argument of its own? -/
def isValue (s : String) : Bool := s ≠ "" && (s.toList.head? ≠ some '-' || s = "-")

/-- What is wrong with options of one letter each, or asked for by them.  Only before the name of a
command may they ask for the version. -/
def shortRefusal? (beforeCommand : Bool) (letters : List Char) : Option Refusal :=
  letters.findSome? fun c =>
    if c = 'v' then none
    else if c = 'h' then some .help
    else if c = 'V' ∧ beforeCommand then some .version
    else some .wrongUse

/-- What a command has been told so far. -/
structure Draft where
  config : Option String := none
  schema : Option String := none
  docs : Bool := false
  directory : Option String := none

namespace Draft

/-- Sets the file of options, which may be told once and is not empty. -/
def setConfig? (d : Draft) (value : String) : Option Draft :=
  if d.config.isSome || value.isEmpty then none else some { d with config := some value }

/-- Sets the directory, which may be told once and is not empty. -/
def setDirectory? (d : Draft) (value : String) : Option Draft :=
  if d.directory.isSome || value.isEmpty then none else some { d with directory := some value }

/-- Sets the schema, which may be told once and is not empty. -/
def setSchema? (d : Draft) (value : String) : Option Draft :=
  if d.schema.isSome || value.isEmpty then none else some { d with schema := some value }

/-- Sets that types are written as documents write them, which may be told once. -/
def setDocs? (d : Draft) : Option Draft := if d.docs then none else some { d with docs := true }

/-- Sets what a long option of a command takes. -/
def setOption? (d : Draft) (name : CommandName) (option value : String) : Option Draft :=
  if option = "config" then d.setConfig? value
  else if option = "out-dir" ∧ name = .compile then d.setDirectory? value
  else none

/-- The request, once all has been told. -/
def request (d : Draft) (name : CommandName) (config : Option String) :
    Except Refusal Request :=
  match d.schema with
  | none => .error .wrongUse
  | some schema =>
    .ok ⟨d.config <|> config,
      match name with
      | .compile => .compile schema d.docs d.directory
      | .check => .check schema⟩

end Draft

/-- Goes on with what an argument leads to; where it leads nowhere, it is wrong. -/
def continueWith {α β : Type} (next : Option α) (k : α → Except Refusal β) : Except Refusal β :=
  match next with
  | some a => k a
  | none => .error .wrongUse

/-- Reads arguments among which there are no options. -/
def readLiteral (name : CommandName) (config : Option String) (d : Draft) :
    List String → Except Refusal Request
  | [] => d.request name config
  | arg :: rest => continueWith (d.setSchema? arg) fun d => readLiteral name config d rest

/-- Reads the arguments behind the name of a command. -/
def readCommand (name : CommandName) (config : Option String) (d : Draft) :
    List String → Except Refusal Request
  | [] => d.request name config
  | arg :: rest =>
    match Argument.ofText arg with
    | .escape => readLiteral name config d rest
    | .plain text => continueWith (d.setSchema? text) fun d => readCommand name config d rest
    | .short letters =>
      match shortRefusal? false letters with
      | some r => .error r
      | none => readCommand name config d rest
    | .long "verbose" none => readCommand name config d rest
    | .long "help" none => .error .help
    | .long "docs" none =>
      if name = .compile then
        continueWith d.setDocs? fun d => readCommand name config d rest
      else .error .wrongUse
    | .long option (some value) =>
      continueWith (d.setOption? name option value) fun d => readCommand name config d rest
    | .long option none =>
      match rest with
      | [] => .error .wrongUse
      | value :: rest =>
        if isValue value then
          continueWith (d.setOption? name option value) fun d => readCommand name config d rest
        else .error .wrongUse

/-- Whether the names of commands behind a request for help lead to a command. -/
def readHelp : List String → Refusal
  | [] => .help
  | [name] => if name = "help" || (CommandName.ofText? name).isSome then .help else .wrongUse
  | _ => .wrongUse

/-- Reads the arguments up to the name of a command. -/
def readProgram (d : Draft) : List String → Except Refusal Request
  | [] => .error .wrongUse
  | arg :: rest =>
    match Argument.ofText arg with
    | .escape => .error .wrongUse
    | .plain "help" => .error (readHelp rest)
    | .plain text =>
      continueWith (CommandName.ofText? text) fun name => readCommand name d.config {} rest
    | .short letters =>
      match shortRefusal? true letters with
      | some r => .error r
      | none => readProgram d rest
    | .long "verbose" none => readProgram d rest
    | .long "help" none => .error .help
    | .long "version" none => .error .version
    | .long "config" (some value) =>
      continueWith (d.setConfig? value) fun d => readProgram d rest
    | .long "config" none =>
      match rest with
      | [] => .error .wrongUse
      | value :: rest =>
        if isValue value then continueWith (d.setConfig? value) fun d => readProgram d rest
        else .error .wrongUse
    | .long _ _ => .error .wrongUse

/-- The request that arguments make. -/
def Request.ofArguments (args : List String) : Except Refusal Request := readProgram {} args

end ClassSchema.CommandLine
