import SyntaxGraph.Grammar.Specifier

/-!
# Declarators

A declarator builds a type over the type of its specifiers, from the outside in:
stars make pointers, and the suffixes behind the name make arrays and functions, of
which the first is the outermost.  In a parenthesised declarator the suffixes behind
the parentheses bind tighter than what stands inside, so they are read first: the
reader skips to the closing parenthesis, reads the suffixes behind it, comes back for
the inside, and goes on where the suffixes ended.

A parenthesis opens a nested declarator if a star, another parenthesis or a name
that is no type name follows; otherwise it opens a list of parameters.
-/

set_option autoImplicit false

namespace SyntaxGraph.Grammar

open Token (Kind Keyword Punctuator)
open Parse

def qualifierRound (q : Qualifiers) : Parse (Option Qualifiers) := do
  match ← peek with
  | .keyword word =>
    match qualifiedBy? q word with
    | some q =>
      advance
      return some q
    | none => return none
  | _ => return none

def qualifiers : Parse Qualifiers := iterate qualifierRound .none

/-- A pointer for each star, with its qualifiers. -/
def pointers (base : TypeId) : Parse TypeId :=
  iterate (fun type => do
    let start ← here
    if ← acceptMark .star then
      let found ← qualifiers
      some <$> addType ((TypeNode.pointer type (← spanFrom start)).qualified found)
    else return none) base

/-! ## Parameters and suffixes -/

def parameter (rules : Rules) : Parse DeclId := do
  let start ← here
  let specifiers ← rules.specifiers
  let declarator ← rules.declarator specifiers.type true
  addDecl {
    name := declarator.name.getD "", storage := specifiers.storage,
    type := declarator.type, span := ← spanFrom start }

/-- The parameters read so far, the last one first, whether more may follow, and
whether an ellipsis has been read. -/
structure ParameterList where
  found : List DeclId := []
  more : Bool := true
  variadic : Bool := false

def parameterRound (rules : Rules) (list : ParameterList) : Parse (Option ParameterList) := do
  if !list.more then return none
  if ← acceptMark .ellipsis then return some { list with more := false, variadic := true }
  let next ← parameter rules
  return some { list with found := next :: list.found, more := ← acceptMark .comma }

/-- The parameters behind an opening parenthesis, with the closing one; a lone `void`
is an empty list. -/
def parameters (rules : Rules) : Parse (List DeclId × Bool) := do
  if ← acceptMark .parenClose then return ([], false)
  let void ← at? (.keyword .voidKw)
  if void && (← peekNext) = .punctuator .parenClose then
    advance
    advance
    return ([], false)
  let list ← iterate (parameterRound rules) {}
  expectMark .parenClose "after parameters"
  return (list.found.reverse, list.variadic)

inductive Suffix
  | array (length : Option ExprId) (span : Span)
  | function (parameters : List DeclId) (variadic : Bool) (span : Span)
deriving DecidableEq

/-- The type that a suffix makes over the type of what is in front of it. -/
def Suffix.over (suffix : Suffix) (base : TypeId) : TypeNode :=
  match suffix with
  | .array length span => .array base length span
  | .function parameters variadic span => .function base parameters variadic span

/-- The length of an array, unless its bracket closes at once. -/
def arrayLength? (rules : Rules) : Parse (Option ExprId) := do
  if ← at? (.punctuator .bracketClose) then return none else some <$> rules.assignment

def arraySuffix (rules : Rules) (start : Location) : Parse Suffix := do
  let _ ← qualifiers
  let _ ← accept (.keyword .staticKw)
  let length ← arrayLength? rules
  expectMark .bracketClose "after array size"
  return .array length (← spanFrom start)

def functionSuffix (rules : Rules) (start : Location) : Parse Suffix := do
  let (found, variadic) ← parameters rules
  return .function found variadic (← spanFrom start)

def suffix? (rules : Rules) : Parse (Option Suffix) := do
  let start ← here
  if ← acceptMark .bracketOpen then some <$> arraySuffix rules start
  else if ← acceptMark .parenOpen then some <$> functionSuffix rules start
  else return none

/-- The suffixes of a declarator, built from the last one to the first. -/
def suffixes (rules : Rules) (base : TypeId) : Parse TypeId := do
  let found ← many (suffix? rules)
  found.foldrM (fun suffix type => addType (suffix.over type)) base

/-! ## Declarators -/

/-- Whether a nested declarator opens at the current token. -/
def atNestedDeclarator : Parse Bool := do
  if ← at? (.punctuator .parenOpen) then
    match ← peekNext with
    | .punctuator .star | .punctuator .parenOpen => return true
    | .identifier name => return !(← isTypedef name)
    | _ => return false
  else return false

/-- One token of a text in parentheses, of which `depth` are open in front of it; none
when the text is over, which the flag says. -/
def skipRound : Nat × Bool → Parse (Option (Nat × Bool))
  | (_, true) => return none
  | (depth, false) => do
    match ← peek with
    | .eof => fail .unclosedDeclarator
    | .punctuator .parenOpen =>
      advance
      return some (depth + 1, false)
    | .punctuator .parenClose =>
      if depth = 0 then fail (.fault .unopened)
      advance
      return some (depth - 1, depth = 1)
    | _ =>
      advance
      return some (depth, false)

/-- From an opening parenthesis to just behind the one that closes it. -/
def skipParenthesized : Parse Unit := do
  let _ ← iterate skipRound (0, false)

def nestedDeclarator (rules : Rules) (type : TypeId) (abstractOk : Bool) : Parse Declarator := do
  let inner := (← position) + 1
  skipParenthesized
  let outer ← suffixes rules type
  let resume ← position
  moveTo inner
  let declarator ← rules.declarator outer abstractOk
  expectMark .parenClose "to close declarator"
  moveTo resume
  return declarator

/-- A name, which may be missing if `abstractOk`, with its suffixes. -/
def plainDeclarator (rules : Rules) (type : TypeId) (abstractOk : Bool) : Parse Declarator := do
  let name ← identifier?
  if name.isNone && !abstractOk then fail (.expectedIdentifier (← peek))
  return ⟨name, ← suffixes rules type⟩

def declarator (rules : Rules) (base : TypeId) (abstractOk : Bool) : Parse Declarator := do
  let type ← pointers base
  if ← atNestedDeclarator then nestedDeclarator rules type abstractOk
  else plainDeclarator rules type abstractOk

/-- The name of a type: specifiers without a storage class, and a declarator without
a name. -/
def typeName (rules : Rules) : Parse TypeId := do
  let specifiers ← specifiers rules
  if specifiers.storage ≠ .none then fail .storageInTypeName
  let declarator ← declarator rules specifiers.type true
  match declarator.name with
  | some name => fail (.nameInTypeName name)
  | none => return declarator.type

end SyntaxGraph.Grammar
