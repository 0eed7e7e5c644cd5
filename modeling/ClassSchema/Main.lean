/-
The program: compiles schemas to manifests, and checks them.
-/
import ClassSchema.CommandLine.Commands

namespace ClassSchema

instance : FileSystem IO where
  read? path := do
    try
      return some (← IO.FS.readBinFile path)
    catch _ => return none
  isDirectory path := do
    try
      let _ ← IO.FS.Handle.mk (path ++ "/.") .read
      return true
    catch _ => return false
  write path content := do
    try
      IO.FS.writeFile path content
      return true
    catch _ => return false

end ClassSchema

/-- Runs the program. -/
def main (args : List String) : IO UInt32 := do
  let report ← (ClassSchema.CommandLine.run args : IO ClassSchema.CommandLine.Report)
  IO.print report.stdout
  match report.failure with
  | some message => IO.eprintln ("ERROR " ++ message)
  | none => pure ()
  return report.code.toUInt32
