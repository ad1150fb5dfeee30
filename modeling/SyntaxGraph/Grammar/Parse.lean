import SyntaxGraph.Grammar.Error
import SyntaxGraph.Grammar.Scope
import SyntaxGraph.Program.Arenas

/-!
# Reading with a state

A `Parse α` reads the tokens of a source, which never change, under a state: the
position in the tokens, the nodes added so far, the scopes, and a log of the names that
were bound and of the types that were given declarations.  It ends with a value or with
a cause, and in both cases with a state, so that what a failed part did to the scopes
can be spoken of.  Nothing is ever read from the log while a source is read; what a
build asserts is asked of it at the end.

Positions run from the first token to the last one, which is the end of the file:
`advance` does not pass it.  A repetition may take at most one round more than
there are tokens left, and a round that goes on has to consume a token.  What reading
takes for granted about its own state is checked where it is used, and is a fault if
it does not hold.
-/

set_option autoImplicit false

namespace SyntaxGraph.Grammar

open Token (Kind Keyword Punctuator)

/-- The tokens of a source, with the end of the file last. -/
abbrev Tokens := Array Token

/-- What a reading notes of what it does. -/
inductive Entry
  /-- A name is bound, to no effect if it is empty; `next` is the identity that the next
  declaration gets. -/
  | bound (name : String) (kind : NameKind) (next : DeclId)
  /-- A type is given declarations in the place of earlier ones. -/
  | completed (id : TypeId) (earlier : List DeclId)
deriving DecidableEq

/-- The declarations that others have taken the place of. -/
def Entry.displaced : Entry → List DeclId
  | .bound _ _ _ => []
  | .completed _ earlier => earlier

structure State where
  position : Nat := 0
  arenas : Arenas := {}
  scopes : Scopes := .start
  /-- What has been noted, the last entry first. -/
  log : List Entry := []
deriving DecidableEq

/-- The declarations that types have had and have lost to others. -/
def State.displaced (s : State) : List DeclId := s.log.flatMap Entry.displaced

abbrev Parse := ReaderT Tokens (EStateM Cause State)

/-- The state in which a reading has ended. -/
def endState {α : Type} : EStateM.Result Cause State α → State
  | .ok _ s => s
  | .error _ s => s

namespace Tokens

def kind (tokens : Tokens) (position : Nat) : Kind :=
  (tokens[position]?.map Token.kind).getD .eof

def start (tokens : Tokens) (position : Nat) : Location :=
  (tokens[position]?.map Token.start).getD .origin

end Tokens

namespace Parse

variable {α β : Type}

def fail (cause : Cause) : Parse α := throw cause

def note (entry : Entry) : Parse Unit := modify fun s => { s with log := entry :: s.log }

/-! ## Tokens -/

def position : Parse Nat := State.position <$> get

/-- Go on at another position. -/
def moveTo (position : Nat) : Parse Unit := do
  if position < (← read).size then modify fun s => { s with position }
  else fail (.fault (.outside position))

def tokenAt (position : Nat) : Parse Token := do
  match (← read)[position]? with
  | some token => return token
  | none => fail (.fault (.outside position))

/-- The kind of the current token. -/
def peek : Parse Kind := do return (← tokenAt (← position)).kind

/-- The kind of the token behind the current one; behind the last one it is the end
of the file again. -/
def peekNext : Parse Kind := do return (← read).kind ((← position) + 1)

/-- The place where the current token starts. -/
def here : Parse Location := do return (← tokenAt (← position)).start

/-- The place where the token consumed last ends. -/
def finishBefore : Parse Location := do return (← tokenAt ((← position) - 1)).finish

def advance : Parse Unit := do
  if (← peek) ≠ .eof then moveTo ((← position) + 1)

/-- From `start` to the end of the token consumed last. -/
def spanFrom (start : Location) : Parse Span := do
  return ⟨start, max (← finishBefore) start⟩

def at? (kind : Kind) : Parse Bool := return (← peek) = kind

/-- Consume the current token if it is of the given kind, and say whether it was. -/
def accept (kind : Kind) : Parse Bool := do
  if (← peek) = kind then
    advance
    return true
  return false

def acceptMark (mark : Punctuator) : Parse Bool := accept (.punctuator mark)

/-- Consume a token of the given kind; `context` says in the error what needs it. -/
def expect (kind : Kind) (context : String) : Parse Unit := do
  let found ← peek
  if found = kind then advance else fail (.expected kind context found)

def expectMark (mark : Punctuator) (context : String) : Parse Unit :=
  expect (.punctuator mark) context

def identifier : Parse String := do
  match ← peek with
  | .identifier name =>
    advance
    return name
  | found => fail (.expectedIdentifier found)

/-- The name at the current token, consumed if there is one. -/
def identifier? : Parse (Option String) := do
  match ← peek with
  | .identifier name =>
    advance
    return some name
  | _ => return none

/-! ## Nodes -/

def add {ι : Type} (insert : Arenas → ι × Arenas) : Parse ι :=
  modifyGet fun s =>
    let (id, arenas) := insert s.arenas
    (id, { s with arenas })

def addDecl (decl : Decl) : Parse DeclId := add (·.addDecl decl)
def addType (type : TypeNode) : Parse TypeId := add (·.addType type)
def addExpr (form : Expr.Form) (span : Span) : Parse ExprId := add (·.addExpr { form, span })
def addStmt (stmt : Stmt) : Parse StmtId := add (·.addStmt stmt)
def addInit (init : Init) : Parse InitId := add (·.addInit init)
def addLabel (label : Label) : Parse LabelId := add (·.addLabel label)

def arenas : Parse Arenas := State.arenas <$> get

/-- What has been found under a reference to a node. -/
def present (node : NodeRef) (found : Option α) : Parse α :=
  match found with
  | some value => return value
  | none => fail (.fault (.missing node))

def declNode (id : DeclId) : Parse Decl := do present (.decl id) ((← arenas).decl? id)

def typeNode (id : TypeId) : Parse TypeNode := do present (.type id) ((← arenas).type? id)

def exprNode (id : ExprId) : Parse Expr := do present (.expr id) ((← arenas).expr? id)

def modifyArenas (change : Arenas → Arenas) : Parse Unit :=
  modify fun s => { s with arenas := change s.arenas }

def completeType (id : TypeId) (decls : List DeclId) : Parse Unit := do
  let type ← typeNode id
  note (.completed id type.decls)
  modifyArenas (·.completeType id decls)

def modifyComments (id : DeclId) (change : Comments → Comments) : Parse Unit := do
  let _ ← declNode id
  modifyArenas (·.modifyComments id change)

def declName (id : DeclId) : Parse String := do return (← declNode id).name

def declSpan (id : DeclId) : Parse Span := do return (← declNode id).span

def exprSpan (id : ExprId) : Parse Span := do return (← exprNode id).span

/-! ## Scopes -/

def scopes : Parse Scopes := State.scopes <$> get

def modifyScopes (change : Scopes → Scopes) : Parse Unit :=
  modify fun s => { s with scopes := change s.scopes }

def bindName (name : String) (kind : NameKind) : Parse Unit := do
  note (.bound name kind (← arenas).nextDecl)
  modifyScopes (·.bindName name kind)

def bindTag (tag : String) (type : TypeId) : Parse Unit := modifyScopes (·.bindTag tag type)

def isTypedef (name : String) : Parse Bool := do return (← scopes).isTypedef name

/-- Read in a scope of its own, which is gone afterwards whether or not the reading
succeeds. -/
def inScope (body : Parse α) : Parse α := fun tokens s =>
  match body tokens { s with scopes := {} :: s.scopes } with
  | .ok value s => .ok value { s with scopes := s.scopes.tail }
  | .error cause s => .error cause { s with scopes := s.scopes.tail }

/-! ## Repetition -/

/-- Rounds that each answer the next value until one answers nothing. -/
def rounds (step : α → Parse (Option α)) : Nat → α → Parse α
  | 0, _ => fail (.fault .idle)
  | bound + 1, value => do
    let before ← position
    match ← step value with
    | none => return value
    | some next =>
      if before < (← position) then rounds step bound next else fail (.fault .idle)

/-- Repeat `step`, starting from `value`, until it answers nothing. -/
def iterate (step : α → Parse (Option α)) (value : α) : Parse α := do
  rounds step ((← read).size - (← position) + 1) value

/-- What `item` answers, in order, until it answers nothing. -/
def many (item : Parse (Option α)) : Parse (List α) :=
  List.reverse <$> iterate (fun found => Option.map (· :: found) <$> item) []

/-- Items with commas between them: another one is read for as long as a comma
follows. -/
def separated (item : Parse α) : Parse (List α) := do
  let first ← item
  let others ← many do
    if ← acceptMark .comma then some <$> item else return none
  return first :: others

/-- One item more, unless `close` follows or there is no comma behind the last one. -/
def listedRound (close : Punctuator) (item : Parse α) (collected : Bool × List α) :
    Parse (Option (Bool × List α)) := do
  if !collected.1 || (← at? (.punctuator close)) then return none
  let next ← item
  return some (← acceptMark .comma, next :: collected.2)

/-- Items with commas between them, up to `close`: there may be none, and the last
one may have a comma behind it. -/
def listed (close : Punctuator) (item : Parse α) : Parse (List α) := do
  let collected ← iterate (listedRound close item) (true, [])
  return collected.2.reverse

end Parse

end SyntaxGraph.Grammar
