import SyntaxGraph.Emission.Config
import SyntaxGraph.Program.Binding
import SyntaxGraph.Program.Dump
import SyntaxGraph.Source.Path
import SyntaxGraph.Text.Blank

/-!
# Output units

Routing binds each top-level declaration, in order, to the group that the settings
give to its name, and stops at the first one that is bound already.

Emission writes the top-level declarations, in order, into units, whose keys are a
group and the stem of the file: the group bound to the declaration, or else the one
that the settings give it.  The item of a declaration is what it is rendered as, or
its replacement among its comments.  An empty item adds nothing, any other item is
followed by an empty line, and a unit is there even if all its items are empty.

A directive is unused if it equals neither the name nor the lower-cased name of any
top-level declaration.
-/

set_option autoImplicit false

namespace SyntaxGraph.Emission

/-! ## Routing -/

/-- Bind the groups of the given declarations; answers the program with the bindings
made, and the error that stopped it, if one did. -/
def routeFrom (config : Config) (p : Program) : List DeclId → Program × Option BindError
  | [] => (p, none)
  | id :: rest =>
    match p.decl? id with
    | none => (p, some (.missing (.lookedUp (.decl id))))
    | some decl =>
      match p.bind (.group id (config.groupFor decl.name)) with
      | .ok p => routeFrom config p rest
      | .error error => (p, some error)

def route (config : Config) (p : Program) : Program × Option BindError :=
  routeFrom config p p.decls

/-- The groups bound to the top-level declarations, in order. -/
def groupsOf (p : Program) : Except MissingNode (List (Option String)) :=
  p.decls.mapM fun id =>
    match p.decl? id with
    | some decl => .ok decl.group
    | none => .error (.lookedUp (.decl id))

/-! ## Items -/

/-- Each text behind the given one, with a separator unless nothing precedes it. -/
def appendAll (separator : String) (text : String) (others : List String) : String :=
  others.foldl (fun text other =>
    if text.isEmpty then other else text ++ separator ++ other) text

/-- A replacement among the comments of the declaration that it replaces. -/
def withComments (comments : Comments) (replacement : String) : String :=
  let leading := String.join (comments.before.map (· ++ "\n"))
  let suffixed := appendAll " " (leading ++ replacement) comments.suffix
  appendAll "\n" suffixed comments.after

/-- How a declaration without a directive is written. -/
abbrev Renderer := Program → DeclId → Except MissingNode String

/-- The name of a declaration in angle brackets. -/
def renderName : Renderer := fun p id =>
  match p.decl? id with
  | some decl => .ok s!"<{decl.name}>"
  | none => .error (.lookedUp (.decl id))

/-- The dump of a declaration, without the white space at its end. -/
def renderDump : Renderer := fun p id => Text.trimmedEnd <$> p.dumpFrom (.decl id)

def renderNothing : Renderer := fun _ _ => .ok ""

/-- What a declaration contributes to its unit. -/
def item (config : Config) (render : Renderer) (p : Program) (id : DeclId) (decl : Decl) :
    Except MissingNode String :=
  match config.replacement? decl.name with
  | some replacement => .ok (withComments decl.comments replacement)
  | none => render p id

/-! ## Units -/

/-- Units with their texts, sorted by their keys. -/
abbrev Units := List (String × String)

/-- Append a text to the unit of a key, which is made if there is none. -/
def Units.append (key text : String) : Units → Units
  | [] => [(key, text)]
  | (first, held) :: rest =>
    if key < first then (key, text) :: (first, held) :: rest
    else if key = first then (first, held ++ text) :: rest
    else (first, held) :: Units.append key text rest

/-- The key of the unit that a declaration goes to. -/
def unitKey (config : Config) (file : String) (decl : Decl) : String :=
  decl.group.getD (config.groupFor decl.name) ++ "/" ++ Path.stem file

/-- An item as it stands in a unit. -/
def paragraph (item : String) : String := if item.isEmpty then "" else item ++ "\n\n"

def emitOne (config : Config) (render : Renderer) (p : Program) (units : Units) (id : DeclId) :
    Except MissingNode Units :=
  match p.decl? id with
  | none => .error (.lookedUp (.decl id))
  | some decl => do
    let text ← item config render p id decl
    return units.append (unitKey config p.file decl) (paragraph text)

def emit (config : Config) (render : Renderer) (p : Program) : Except MissingNode Units :=
  p.decls.foldlM (emitOne config render p) []

/-! ## Unused directives -/

/-- The names of the top-level declarations, each as it stands and in lower case. -/
def matchedNames (p : Program) : Except MissingNode (List String) :=
  List.flatten <$> p.decls.mapM fun id =>
    match p.decl? id with
    | some decl => .ok [decl.name, Text.lowercase decl.name]
    | none => .error (.lookedUp (.decl id))

/-- The replacements and deletions that match no top-level declaration, in order. -/
def unusedDirectives (config : Config) (p : Program) : Except MissingNode (List String) := do
  let matched ← matchedNames p
  let directives := config.replace.map Prod.fst ++ config.delete
  return Text.sortedSet (directives.filter fun name => !matched.contains name)

end SyntaxGraph.Emission
