import SyntaxGraph.Emission.Units

/-!
# Sessions

A session goes on with one program step by step.  Some steps write: they bind a field, or
route the program.  The others look at it: they walk it, dump it, or emit it.  Each step has
an answer, and if it fails the session goes on with the next one.  A binding that is refused
leaves the program as it was; routing keeps what it had bound when it stopped.
-/

set_option autoImplicit false

namespace SyntaxGraph.Session

open Emission (Config Renderer Units)

inductive Step
  | bind (binding : Binding)
  | route (config : Config)
  | walk (root : NodeRef)
  | dump (root : NodeRef)
  | emit (config : Config) (render : Renderer)

/-- What a step ends with; the steps that write answer what stopped them, if something
did. -/
inductive Answer
  | bound (error : Option BindError)
  | routed (error : Option BindError)
  | walked (events : Except MissingNode (Array Event))
  | dumped (text : Except MissingNode String)
  | emitted (units : Except MissingNode Units)

/-- The program behind a step, and the answer. -/
def perform (p : Program) : Step → Program × Answer
  | .bind binding =>
    match p.bind binding with
    | .ok bound => (bound, .bound none)
    | .error error => (p, .bound (some error))
  | .route config =>
    let (routed, error) := Emission.route config p
    (routed, .routed error)
  | .walk root => (p, .walked (p.walk root))
  | .dump root => (p, .dumped (p.dumpFrom root))
  | .emit config render => (p, .emitted (Emission.emit config render p))

/-- The program behind all steps, and their answers in order. -/
def run (p : Program) : List Step → Program × List Answer
  | [] => (p, [])
  | step :: rest =>
    let (next, answer) := perform p step
    let (last, answers) := run next rest
    (last, answer :: answers)

end SyntaxGraph.Session
