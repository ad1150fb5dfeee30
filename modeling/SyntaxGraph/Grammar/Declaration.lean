import SyntaxGraph.Grammar.Declarator
import SyntaxGraph.Grammar.Expression

/-!
# Declarations and initializers

A declaration is a list of specifiers with a list of declarators, each of which may
have an initializer.  A name is bound as soon as its declarator is complete, so its
own initializer sees it.  Specifiers without a declarator introduce a tag.  Where a
function type and a brace follow each other the declaration is a function definition;
what is done with one is left to the caller, since only a file may hold it.
-/

set_option autoImplicit false

namespace SyntaxGraph.Grammar

open Token (Kind Keyword Punctuator)
open Parse

/-! ## Initializers -/

def designator? (rules : Rules) : Parse (Option Designator) := do
  let start ← here
  if ← acceptMark .dot then
    let name ← identifier
    return some (.field name (← spanFrom start))
  else if ← acceptMark .bracketOpen then
    let index ← rules.conditional
    expectMark .bracketClose "after designator index"
    return some (.index index (← spanFrom start))
  else return none

/-- The designators of an initializer, with the equals sign behind them. -/
def designation (rules : Rules) : Parse (List Designator) := do
  let found ← many (designator? rules)
  if !found.isEmpty then expectMark .eq "after designator"
  return found

def initializerItem (rules : Rules) : Parse InitId := do
  let start ← here
  let designators ← designation rules
  if ← acceptMark .braceOpen then
    let items ← rules.initializers
    addInit { designators, form := .braced items, span := ← spanFrom start }
  else
    let value ← assignment rules
    addInit { designators, form := .scalar value, span := ← spanFrom start }

/-- The items of a braced list behind its opening brace, with the closing one. -/
def initializers (rules : Rules) : Parse (List InitId) := do
  let items ← listed .braceClose (initializerItem rules)
  expectMark .braceClose "after initializer list"
  return items

def initializer (rules : Rules) : Parse InitId := do
  let start ← here
  if ← acceptMark .braceOpen then
    let items ← initializers rules
    addInit { form := .braced items, span := ← spanFrom start }
  else
    let value ← assignment rules
    addInit { form := .scalar value, span := ← spanFrom start }

/-! ## Declarations -/

def nameKind (storage : Storage) : NameKind :=
  if storage = .typedef then .typedef else .object

/-- The initializer of `name`, if an equals sign introduces one. -/
def initializer? (rules : Rules) (storage : Storage) (name : String) :
    Parse (Option InitId) := do
  if ← acceptMark .eq then
    if storage = .typedef then fail (.initializedTypedef name)
    some <$> initializer rules
  else return none

/-- Declare what a declarator names, with its initializer. -/
def initDeclarator (rules : Rules) (start : Location) (specifiers : Specifiers)
    (declarator : Declarator) : Parse DeclId := do
  match declarator.name with
  | none => fail .unnamedDeclarator
  | some name =>
    bindName name (nameKind specifiers.storage)
    let init ← initializer? rules specifiers.storage name
    addDecl {
      name, storage := specifiers.storage, isInline := specifiers.isInline,
      type := declarator.type, init, span := ← spanFrom start }

/-- The declarators behind the first one. -/
def nextDeclarator? (rules : Rules) (start : Location) (specifiers : Specifiers) :
    Parse (Option DeclId) := do
  if ← acceptMark .comma then
    let next ← declarator rules specifiers.type false
    some <$> initDeclarator rules start specifiers next
  else return none

/-- A declaration, which answers the declarations of its names in order.  `define`
takes over at the body of a function. -/
def declaration (rules : Rules)
    (define : Location → Specifiers → Declarator → Parse DeclId) : Parse (List DeclId) := do
  let start ← here
  let specifiers ← specifiers rules
  if ← acceptMark .semicolon then
    let tagOnly ← addDecl {
      name := "", storage := specifiers.storage, type := specifiers.type,
      span := ← spanFrom start }
    return [tagOnly]
  let first ← declarator rules specifiers.type false
  let body ← at? (.punctuator .braceOpen)
  if body && (← typeNode first.type).kind = .function then
    return [← define start specifiers first]
  let decl ← initDeclarator rules start specifiers first
  let others ← many (nextDeclarator? rules start specifiers)
  expectMark .semicolon "after declaration"
  return decl :: others

end SyntaxGraph.Grammar
