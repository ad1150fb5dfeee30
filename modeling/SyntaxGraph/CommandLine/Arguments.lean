/-!
# Arguments

The command takes the paths of source files, at least one, and two options, each of
which takes a path and may be given once: `--config` names a file of emission
settings, and `--out`, which needs `--config`, a directory for the output units.  The
value of an option stands behind an equals sign or is the next argument, which then
must not look like an option itself.  A lone dash is a path; behind two dashes
everything is.  No path is empty.
-/

set_option autoImplicit false

namespace SyntaxGraph.CommandLine

structure Arguments where
  files : List String := []
  config : Option String := none
  out : Option String := none
deriving DecidableEq

inductive OptionName
  | config
  | out
deriving DecidableEq

def OptionName.ofText? (text : String) : Option OptionName :=
  if text = "config" then some .config else if text = "out" then some .out else none

namespace Arguments

def addFile? (args : Arguments) (path : String) : Option Arguments :=
  if path.isEmpty then none else some { args with files := args.files ++ [path] }

def setOption? (args : Arguments) (name : OptionName) (value : String) : Option Arguments :=
  if value.isEmpty then none
  else match name with
    | .config => if args.config.isSome then none else some { args with config := some value }
    | .out => if args.out.isSome then none else some { args with out := some value }

/-- What an argument is by its first characters. -/
inductive Shape
  | path
  | separator
  | option (name : String) (value : Option String)
  | unknown
deriving DecidableEq

def Shape.of (argument : String) : Shape :=
  match argument.toList with
  | ['-', '-'] => .separator
  | '-' :: '-' :: rest =>
    let name := rest.takeWhile (· ≠ '=')
    .option (String.ofList name) ((rest.drop name.length).tail?.map String.ofList)
  | '-' :: _ :: _ => .unknown
  | _ => .path

/-- Add the given arguments to those read so far. -/
def addAll? (args : Arguments) : List String → Option Arguments
  | [] => some args
  | argument :: rest =>
    match Shape.of argument with
    | .path => do (← args.addFile? argument).addAll? rest
    | .separator => rest.foldlM addFile? args
    | .option text (some value) => do
      (← args.setOption? (← OptionName.ofText? text) value).addAll? rest
    | .option text none =>
      match rest with
      | value :: rest =>
        if Shape.of value = .path then do
          (← args.setOption? (← OptionName.ofText? text) value).addAll? rest
        else none
      | [] => none
    | .unknown => none

/-- The arguments, if they are as they must be. -/
def read? (arguments : List String) : Option Arguments := do
  let args ← ({} : Arguments).addAll? arguments
  if args.files.isEmpty || (args.out.isSome && args.config.isNone) then none else some args

end Arguments

end SyntaxGraph.CommandLine
