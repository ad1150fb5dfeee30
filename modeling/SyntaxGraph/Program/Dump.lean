import SyntaxGraph.Program.Walk

/-!
# Dumping the graph

A dump has one line for each node that a walk enters, in the order of the walk,
indented by two spaces for each level of depth.  The line of a node tells its kind
and what distinguishes it: the name of a declaration, the kind of a type with its
tag or name, the operator of an expression with its text, the kind of a statement,
and the kind of a label with its name.
-/

set_option autoImplicit false

namespace SyntaxGraph

/-- `first`, with `second` behind it if there is one. -/
def withDetail (first mark : String) (second : Option String) : String :=
  match second with
  | some detail => first ++ mark ++ detail
  | none => first

def Decl.line (d : Decl) : String :=
  if d.name.isEmpty then "decl" else s!"decl: {d.name}"

def TypeNode.line (t : TypeNode) : String :=
  withDetail s!"type: {t.kind.name}" " " (t.tag <|> t.name)

def Expr.line (e : Expr) : String := withDetail s!"expr: {e.operator}" ", " e.text

def Stmt.line (s : Stmt) : String := s!"stmt: {s.operator}"

def Label.line (l : Label) : String := withDetail s!"label: {l.operator}" ", " l.name

namespace Program

/-- The line of a node, without its indentation. -/
def line? (p : Program) : NodeRef → Option String
  | .program => some "program"
  | .decl id => (p.decl? id).map Decl.line
  | .type id => (p.type? id).map TypeNode.line
  | .expr id => (p.expr? id).map Expr.line
  | .stmt id => (p.stmt? id).map Stmt.line
  | .init id => (p.init? id).map fun _ => "init"
  | .label id => (p.label? id).map Label.line

/-- The line of a node that is asked for by its identity. -/
def describe (p : Program) (node : NodeRef) : Except MissingNode String :=
  match p.line? node with
  | some line => .ok line
  | none => .error (.asked node p.file)

/-- A line at a depth, with its newline. -/
def indented (depth : Nat) (line : String) : String :=
  String.join (List.replicate depth "  ") ++ line ++ "\n"

/-- The dump of what can be reached from `root`, which stands at depth zero. -/
def dumpFrom (p : Program) (root : NodeRef) : Except MissingNode String := do
  let events ← p.walk root
  let lines ← (entered events).mapM fun (node, depth) => return indented depth (← p.describe node)
  return String.join lines

def dump (p : Program) : Except MissingNode String := p.dumpFrom .program

end Program

end SyntaxGraph
