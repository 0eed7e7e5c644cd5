/-
What the program does.

* `CommandError` — why a command fails, with the file that it failed on;
* `loadOptions`, `readSchema`, `compileManifests` — the steps of the commands;
* `Report` — what a run of the program leaves behind beside files;
* `run` — runs the program on arguments.

Options are read first, then the schema.  Nothing is written before the schema has compiled and the
directory has been found; then the manifests are written one after the other, up to the first that
cannot be.
-/
import ClassSchema.CommandLine.Arguments
import ClassSchema.CommandLine.FileSystem
import ClassSchema.CommandLine.Log
import ClassSchema.Json.Printer
import ClassSchema.Manifest
import ClassSchema.Registry

namespace ClassSchema.CommandLine

/-! ### Failures -/

/-- Why a command fails. -/
inductive CommandError where
  | config (path : String) (e : SchemaError)
  | read (path : String) (e : SchemaError)
  | compile (path : String) (e : SchemaError)
  | noDirectory (path : String)
  | write (path : String)

/-- The messages of an error and of what it comes from. -/
def causes (e : SchemaError) : List String :=
  match e with
  | .invalidIdent _ _ defect => [e.message, defect.message]
  | _ => [e.message]

namespace CommandError

/-- What went wrong, from the outside in. -/
def messages : CommandError → List String
  | config path e => ("failed to load config: " ++ path) :: causes e
  | read path e => ("failed to read schema: " ++ path) :: causes e
  | compile path e => ("failed to compile schema: " ++ path) :: causes e
  | noDirectory path => ["output directory does not exist: " ++ path]
  | write path => ["failed to write manifest: " ++ path]

/-- What a reader is told. -/
def message (e : CommandError) : String := String.intercalate ": " e.messages

/-- The error of the schema or of the options, if there is one. -/
def schemaError? : CommandError → Option SchemaError
  | config _ e | read _ e | compile _ e => some e
  | noDirectory _ | write _ => none

end CommandError

/-! ### Steps -/

section Steps

variable {m : Type → Type} [Monad m] [FileSystem m]

/-- The options of a file, or the defaults where none is named. -/
def loadOptions : Option String → m (Except CommandError Options)
  | none => pure (.ok {})
  | some path => do
    let content ← FileSystem.read? path
    pure ((Options.ofSource path content).mapError (.config path))

/-- The tree of a schema file. -/
def loadTree (path : String) : m (Except SchemaError Json) := do
  let content ← FileSystem.read? path
  pure (Json.ofSource path content)

/-- The tree of the schema of a command. -/
def readSchema (path : String) : m (Except CommandError Json) := do
  pure ((← loadTree path).mapError (.read path))

/-- The manifests of a schema, each with the name of its class. -/
def manifestsOf (path : String) (options : Options) (schema : Json) :
    Except CommandError (List (String × Json)) :=
  match schema.compileSchema options with
  | .ok ds => .ok (ds.map fun d => (d.className, d.manifest options.docs))
  | .error e => .error (.compile path e)

/-- The manifests of the schema in a file, each with the name of its class. -/
def compileManifests (path : String) (options : Options) :
    m (Except CommandError (List (String × Json))) := do
  match ← readSchema path with
  | .ok schema => pure (manifestsOf path options schema)
  | .error e => pure (.error e)

/-- The path of a file in a directory. -/
def joinPath (directory name : String) : String :=
  if directory.toList.getLast?.all (· = '/') then directory ++ name
  else directory ++ "/" ++ name

/-- Writes manifests into a directory, up to the first that cannot be written. -/
def writeFiles (directory : String) : List (String × Json) → m (Except CommandError Unit)
  | [] => pure (.ok ())
  | (name, manifest) :: rest => do
    let path := joinPath directory (name ++ ".json")
    if ← FileSystem.write path manifest.pretty then writeFiles directory rest
    else pure (.error (.write path))

/-- Writes manifests into a directory that exists. -/
def writeManifests (directory : String) (manifests : List (String × Json)) :
    m (Except CommandError Unit) := do
  if ← FileSystem.isDirectory directory then writeFiles directory manifests
  else pure (.error (.noDirectory directory))

end Steps

/-! ### Commands -/

/-- What a run of the program leaves behind beside files. -/
structure Report where
  code : UInt8
  stdout : String
  /-- What the log shows of what went wrong, where something did. -/
  failure : Option String

namespace Report

/-- All went well. -/
def success (stdout : String) : Report := ⟨0, stdout, none⟩

/-- A command fails. -/
def failed (e : CommandError) : Report := ⟨1, "", some (logText e.message)⟩

end Report

/-- Text at the left of a column. -/
def padRight (width : Nat) (s : String) : String :=
  s ++ String.ofList (List.replicate (width - s.length) ' ')

/-- Text at the right of a column. -/
def padLeft (width : Nat) (s : String) : String :=
  String.ofList (List.replicate (width - s.length) ' ') ++ s

/-- The line of a class in the report of a check. -/
def classLine (c : Class) : String :=
  "  " ++ padRight 32 c.qualified ++ " " ++ padLeft 3 (toString c.properties.length) ++
    " properties  " ++ (if c.isOpen then "open" else "closed") ++ "\n"

/-- The report of a check. -/
def checkReport (path : String) (options : Options) (schema : Json) : Report :=
  match Registry.ofSchema options schema with
  | .ok registry =>
    .success ("OK: " ++ path ++ " (" ++ toString registry.classes.length ++ " classes)\n" ++
      String.join (registry.classes.map classLine))
  | .error e => ⟨1, "FAIL: " ++ path ++ ": " ++ e.message ++ "\n", none⟩

section Commands

variable {m : Type → Type} [Monad m] [FileSystem m]

/-- Writes manifests to a directory or to the output. -/
def deliver (directory : Option String) (manifests : List (String × Json)) : m Report :=
  match directory with
  | none => pure (.success ((Json.arr (manifests.map Prod.snd)).pretty ++ "\n"))
  | some directory => do
    match ← writeManifests directory manifests with
    | .ok () =>
      let count := toString manifests.length
      pure (.success ("Wrote " ++ count ++ " manifests to " ++ directory ++ "\n"))
    | .error e => pure (.failed e)

/-- Does what a command asks for. -/
def perform (options : Options) : Command → m Report
  | .compile path docs directory => do
    match ← compileManifests path { options with docs := options.docs || docs } with
    | .ok manifests => deliver directory manifests
    | .error e => pure (.failed e)
  | .check path => do
    match ← readSchema path with
    | .ok schema => pure (checkReport path options schema)
    | .error e => pure (.failed e)

/-- The name of the program and its version. -/
def versionLine : String := "arb 0.1.0\n"

/-- Runs the program on arguments. -/
def run (args : List String) : m Report :=
  match Request.ofArguments args with
  | .error .wrongUse => pure ⟨2, "", none⟩
  | .error .help => pure (.success "")
  | .error .version => pure (.success versionLine)
  | .ok request => do
    match ← loadOptions request.config with
    | .ok options => perform options request.command
    | .error e => pure (.failed e)

end Commands
end ClassSchema.CommandLine
