import SyntaxGraph.CommandLine.Arguments
import SyntaxGraph.CommandLine.Disk
import SyntaxGraph.Emission.Units
import SyntaxGraph.Grammar.TranslationUnit
import SyntaxGraph.Text.Lines
import SyntaxGraph.Text.Plain

/-!
# Running the command

Without settings the command prints the dump of each source file.  With settings it
routes and emits each file, and prints the units with their keys or writes each to a
file of its own below the output directory.  A source that cannot be parsed is
logged and passed over, and the run fails in the end; a file that cannot be read or
written stops the run.  What is logged is one line of plain text: further lines are
indented before the text is made plain, and the first line of the outcome counts.

A run is written over a host, which reads and writes files, prints and logs, and which
has formats for settings and for lines of the log.  One host is a disk held as a value,
with what has been printed and logged so far.
-/

set_option autoImplicit false

namespace SyntaxGraph.CommandLine

open Emission (Config ConfigError Units)

inductive Level
  | warn
  | error
deriving DecidableEq

def Level.name : Level → String
  | .warn => "WARN"
  | .error => "ERROR"

/-- How a run ends: all is well, some source could not be parsed, or the run was
stopped. -/
inductive Ending
  | success
  | failure
  | fatal
deriving DecidableEq

def Ending.exitCode : Ending → UInt32
  | .success => 0
  | .failure | .fatal => 1

/-- What the command exits with if its arguments are not as they must be. -/
def usageExitCode : UInt32 := 2

/-- How far the lines of a logged text behind the first one are indented. -/
def logIndent : Nat := 4

/-- What texts mean to the tools around the command. -/
structure Formats where
  /-- The settings that a document writes, if it writes any. -/
  settings : String → Option Config
  /-- A message as a line of the log. -/
  line : String → String

/-- Settings are a TOML document, and a line of the log is plain text. -/
def Formats.standard : Formats where
  settings := Config.ofToml?
  line text := Text.firstLine (Text.plain (Text.hanging logIndent text))

structure Host (m : Type → Type) extends Formats where
  /-- The text of a file, if it can be read. -/
  read : String → m (Option String)
  /-- Write a file with the directories that lead to it, and say whether that worked. -/
  write : String → String → m Bool
  print : String → m Unit
  log : Level → String → m Unit

section

variable {m : Type → Type} [Monad m] (host : Host m)

/-- Log a message as one line. -/
def report (level : Level) (text : String) : m Unit := host.log level (host.line text)

/-- The settings in the file at a path. -/
def loadConfig (path : String) : m (Except ConfigError Config) := do
  match ← host.read path with
  | some text =>
    match host.settings text with
    | some settings => return .ok settings
    | none => return .error .malformed
  | none => return .error (.unreadable path)

/-- Write units below a directory; answers whether all could be written. -/
def writeUnits (directory : String) : Units → m Bool
  | [] => return true
  | (key, text) :: rest => do
    if ← host.write (Path.join directory (key ++ ".txt")) text then writeUnits directory rest
    else return false

def printUnits : Units → m Unit
  | [] => return ()
  | (key, text) :: rest => do
    host.print s!"== {key} ==\n{text}"
    printUnits rest

def logUnused (file : String) : List String → m Unit
  | [] => return ()
  | name :: rest => do
    report host .warn s!"{file}: directive for '{name}' matches no declaration"
    logUnused file rest

/-- Route and emit a program; answers whether the run may go on. -/
def emitProgram (config : Config) (out : Option String) (program : Program) : m Bool := do
  match Emission.route config program with
  | (_, some _) => return false
  | (program, none) =>
    match Emission.emit config Emission.renderDump program,
        Emission.unusedDirectives config program with
    | .ok units, .ok unused =>
      logUnused host program.file unused
      match out with
      | some directory => writeUnits host directory units
      | none =>
        printUnits host units
        return true
    | _, _ => return false

/-- Print the dump of a program; answers whether the run may go on. -/
def dumpProgram (program : Program) : m Bool := do
  match program.dump with
  | .ok text =>
    host.print text
    return true
  | .error _ => return false

/-- Process one program as the settings say. -/
def processProgram (config : Option Config) (out : Option String) (program : Program) : m Bool :=
  match config with
  | some config => emitProgram host config out program
  | none => dumpProgram host program

/-- Process the source files in order; `ending` is how the run would end if there
were no more. -/
def runFiles (config : Option Config) (out : Option String) (ending : Ending) :
    List String → m Ending
  | [] => return ending
  | path :: rest => do
    match ← host.read path with
    | none => return .fatal
    | some source =>
      match Program.read path source with
      | .error error =>
        report host .error error.message
        runFiles config out .failure rest
      | .ok program =>
        if ← processProgram host config out program then runFiles config out ending rest
        else return .fatal

def run (args : Arguments) : m Ending := do
  match args.config with
  | none => runFiles host none args.out .success args.files
  | some path =>
    match ← loadConfig host path with
    | .error _ => return .fatal
    | .ok config => runFiles host (some config) args.out .success args.files

end

/-! ## A host held as a value -/

structure World where
  disk : Disk := {}
  printed : String := ""
  logged : List (Level × String) := []
deriving DecidableEq

/-- The host held as a value, with formats of its own. -/
def Formats.host (formats : Formats) : Host (StateM World) where
  toFormats := formats
  read path := return (← get).disk.read? path
  write path text := do
    match (← get).disk.write? path text with
    | some disk =>
      modify fun world => { world with disk }
      return true
    | none => return false
  print text := modify fun world => { world with printed := world.printed ++ text }
  log level text := modify fun world => { world with logged := world.logged ++ [(level, text)] }

def World.host : Host (StateM World) := Formats.standard.host

end SyntaxGraph.CommandLine
