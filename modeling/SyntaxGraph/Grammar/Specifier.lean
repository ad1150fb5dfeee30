import SyntaxGraph.Grammar.Rules
import SyntaxGraph.Grammar.TypeWords

/-!
# Declaration specifiers

The specifiers of a declaration come in any order.  They are collected into one
list of what has been seen, and then make one type node, which every declarator of
the declaration builds on.  A structure, union or enumeration is found through its
tag: a tag without a body names the nearest type of that tag, or, in front of a
semicolon, declares it in the innermost scope; a body completes a type that the
innermost scope has declared without one, or begins a new type, and the tag is
visible inside its own body.
-/

set_option autoImplicit false

namespace SyntaxGraph.Grammar

open Token (Kind Keyword Punctuator)
open Parse

/-! ## Keywords -/

def storage? : Keyword → Option Storage
  | .autoKw => some .auto
  | .registerKw => some .register
  | .staticKw => some .static
  | .externKw => some .external
  | .typedefKw => some .typedef
  | _ => none

def tagKind? : Keyword → Option TypeKind
  | .structKw => some .struct
  | .unionKw => some .union
  | .enumKw => some .enum
  | _ => none

/-- The qualifiers with one more, or nothing for a keyword that is no qualifier;
`restrict` is one that leaves no trace. -/
def qualifiedBy? (q : Qualifiers) : Keyword → Option Qualifiers
  | .constKw => some { q with isConst := true }
  | .volatileKw => some { q with isVolatile := true }
  | .restrictKw => some q
  | _ => none

/-! ## Members -/

/-- A copy of an integer type that carries a number of bits; that of a basic type is made
anew, which comes to the same (`TypeNode.Fits.narrowed_eq`). -/
def bitField (type : TypeId) (width : ExprId) : Parse TypeId := do
  let base ← typeNode type
  if base.kind.isInteger then addType { base with width := some width, decls := [] }
  else fail (.bitFieldType base.kind)

/-- What a member declares before its width; a bit-field may do without a name. -/
def memberDeclarator (rules : Rules) (type : TypeId) : Parse Declarator := do
  if ← at? (.punctuator .colon) then return ⟨none, type⟩ else rules.declarator type false

/-- The type of a member, with the width that may follow it. -/
def memberType (rules : Rules) (type : TypeId) : Parse TypeId := do
  if ← acceptMark .colon then
    let width ← rules.conditional
    bitField type width
  else return type

/-- One member of a structure or union. -/
def member (rules : Rules) (start : Location) (specifiers : Specifiers) : Parse DeclId := do
  let declarator ← memberDeclarator rules specifiers.type
  let type ← memberType rules declarator.type
  addDecl { name := declarator.name.getD "", type, span := ← spanFrom start }

/-- The members that one list of specifiers declares, if the body goes on. -/
def memberGroup? (rules : Rules) : Parse (Option (List DeclId)) := do
  match ← peek with
  | .punctuator .braceClose => return none
  | .eof => fail .unclosedMembers
  | _ =>
    let start ← here
    let specifiers ← rules.specifiers
    if ← acceptMark .semicolon then
      let anonymous ← addDecl { name := "", type := specifiers.type, span := ← spanFrom start }
      return some [anonymous]
    else
      let group ← separated (member rules start specifiers)
      expectMark .semicolon "after struct member"
      return some group

def members (rules : Rules) : Parse (List DeclId) := do
  let groups ← many (memberGroup? rules)
  expectMark .braceClose "after struct members"
  return groups.flatten

/-- The value of an enumerator, if an equals sign introduces one. -/
def enumeratorValue? (rules : Rules) : Parse (Option InitId) := do
  if ← acceptMark .eq then
    let start ← here
    let value ← rules.conditional
    some <$> addInit { form := .scalar value, span := ← spanFrom start }
  else return none

/-- One enumerator, of the type `int` that all of a list share. -/
def enumerator (rules : Rules) (int : TypeId) : Parse DeclId := do
  let start ← here
  let name ← identifier
  let init ← enumeratorValue? rules
  bindName name .object
  addDecl { name, type := int, init, span := ← spanFrom start }

def enumerators (rules : Rules) : Parse (List DeclId) := do
  let int ← addType (.basic .int (.point (← here)))
  let found ← listed .braceClose (enumerator rules int)
  expectMark .braceClose "after enumerators"
  return found

/-! ## Tags -/

def checkTagKind (id : TypeId) (kind : TypeKind) (tag : String) : Parse Unit := do
  let declared := (← typeNode id).kind
  if declared ≠ kind then fail (.tagMismatch tag declared kind)

/-- A new type without a body, bound to its tag if it has one. -/
def declareTagged (kind : TypeKind) (tag : Option String) (start : Location) :
    Parse TypeId := do
  let id ← addType (.tagged kind tag [] (← spanFrom start))
  match tag with
  | some tag => bindTag tag id
  | none => pure ()
  return id

/-- A tag without a body. -/
def taggedReference (kind : TypeKind) (tag : Option String) (start : Location) :
    Parse TypeId := do
  match tag with
  | none => fail (.expectedTag kind)
  | some tag =>
    let declares ← at? (.punctuator .semicolon)
    let scopes ← scopes
    match if declares then scopes.innerTag? tag else scopes.findTag? tag with
    | some id =>
      checkTagKind id kind tag
      return id
    | none => declareTagged kind (some tag) start

/-- The type that a body defines. -/
def taggedOwner (kind : TypeKind) (tag : Option String) (start : Location) :
    Parse TypeId := do
  let scopes ← scopes
  match tag, tag.bind scopes.innerTag? with
  | some tag, some id =>
    checkTagKind id kind tag
    if (← typeNode id).decls.isEmpty then return id
    else fail (.redefinition kind tag)
  | _, _ => declareTagged kind tag start

/-- What a body declares, behind its opening brace and with the closing one. -/
def tagBody (rules : Rules) (kind : TypeKind) : Parse (List DeclId) :=
  if kind = .enum then enumerators rules else members rules

/-- A `struct`, `union` or `enum` specifier, at its keyword. -/
def taggedSpecifier (rules : Rules) (kind : TypeKind) : Parse TypeId := do
  let start ← here
  advance
  let tag ← identifier?
  if ← at? (.punctuator .braceOpen) then
    let id ← taggedOwner kind tag start
    advance
    let decls ← tagBody rules kind
    completeType id decls
    return id
  else taggedReference kind tag start

/-! ## The list of specifiers -/

/-- What the specifiers read so far say. -/
structure SpecifierList where
  storage : Storage := .none
  isInline : Bool := false
  qualifiers : Qualifiers := .none
  words : TypeWords := {}
  tagged : Option TypeId := none
  typedefName : Option String := none
deriving DecidableEq, Inhabited

namespace SpecifierList

/-- A tagged type or a typedef name has been seen. -/
def isNamed (list : SpecifierList) : Bool := list.tagged.isSome || list.typedefName.isSome

/-- The list with a keyword that takes no further tokens, if the keyword is a
specifier other than a storage class. -/
def insert? (list : SpecifierList) (word : Keyword) : Option SpecifierList :=
  if word = .inlineKw then some { list with isInline := true }
  else match qualifiedBy? list.qualifiers word with
    | some qualifiers => some { list with qualifiers }
    | none => (list.words.insert? word).map fun words => { list with words }

end SpecifierList

/-- One more specifier, if one follows. -/
def specifierRound (rules : Rules) (list : SpecifierList) : Parse (Option SpecifierList) := do
  match ← peek with
  | .keyword word =>
    match storage? word with
    | some storage =>
      if list.storage ≠ .none then fail .multipleStorageClasses
      advance
      return some { list with storage }
    | none =>
      match tagKind? word with
      | some kind =>
        if list.isNamed || !list.words.isEmpty then fail .multipleTypes
        let type ← taggedSpecifier rules kind
        return some { list with tagged := some type }
      | none =>
        match list.insert? word with
        | some list =>
          advance
          return some list
        | none => return none
  | .identifier name =>
    if !list.isNamed && list.words.isEmpty && (← isTypedef name) then
      advance
      return some { list with typedefName := some name }
    else return none
  | _ => return none

/-- The one type that the specifiers name. -/
def specifiedType (list : SpecifierList) (span : Span) : Parse TypeId := do
  match list.tagged, list.typedefName with
  | some type, _ => return type
  | none, some name => addType ((TypeNode.typedefName name span).qualified list.qualifiers)
  | none, none =>
    if list.words.isEmpty then fail (.expectedTypeSpecifier (← peek))
    else match list.words.kind? with
      | some kind => addType ((TypeNode.basic kind span).qualified list.qualifiers)
      | none => fail .invalidTypeWords

def specifiers (rules : Rules) : Parse Specifiers := do
  let start ← here
  let list ← iterate (specifierRound rules) {}
  let type ← specifiedType list (← spanFrom start)
  return ⟨list.storage, list.isInline, type⟩

end SyntaxGraph.Grammar
