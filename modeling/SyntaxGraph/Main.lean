import SyntaxGraph.CommandLine.Run

/-!
# The command

The command on the files, standard output and standard error of the system.
-/

set_option autoImplicit false

namespace SyntaxGraph.CommandLine

/-- Whether an action ends without an error. -/
def succeeds (action : IO Unit) : IO Bool := do
  try
    action
    return true
  catch _ => return false

/-- The part of a path in front of its last slash. -/
def directoryOf (path : String) : String :=
  String.ofList ((path.toList.reverse.dropWhile (· ≠ '/')).reverse)

def writeFile (path text : String) : IO Unit := do
  let directory := directoryOf path
  if !directory.isEmpty then IO.FS.createDirAll directory
  IO.FS.writeFile path text

def systemHost : Host IO where
  toFormats := .standard
  read path := do
    try some <$> IO.FS.readFile path
    catch _ => return none
  write path text := succeeds (writeFile path text)
  print text := IO.print text
  log level text := IO.eprintln s!"{level.name} {text}"

end SyntaxGraph.CommandLine

open SyntaxGraph.CommandLine in
def main (arguments : List String) : IO UInt32 := do
  match Arguments.read? arguments with
  | none =>
    IO.eprintln "usage: [--config FILE [--out DIRECTORY]] FILE..."
    return usageExitCode
  | some args => return (← run systemHost args).exitCode
