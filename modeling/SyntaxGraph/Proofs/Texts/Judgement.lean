import SyntaxGraph.Proofs.Grammar.Runs
import SyntaxGraph.Proofs.Lists

/-!
# Texts that nodes copy from tokens

The names in a node are texts of identifiers, and the text of a constant is that of a numeric
or a character constant.  `Cites` says of a reading that this stays true of all nodes where it
ends with a value, and that the value is one of certain values; a reading is `Steady` if
nothing is said of its value.  Only few readings answer a text that goes into a node: a name,
a label, what a declarator names and what a list of specifiers holds.
-/

set_option autoImplicit false

namespace SyntaxGraph

open Grammar
open Token (Kind Punctuator)

/-! ## Nodes -/

namespace Grammar.Tokens

/-- One of the tokens is an identifier with this text. -/
def Names (tokens : Tokens) (name : String) : Prop := Kind.identifier name ∈ tokens.kinds

/-- One of the tokens is a numeric or a character constant with this text. -/
def Writes (tokens : Tokens) (text : String) : Prop :=
  Kind.number text ∈ tokens.kinds ∨ Kind.character text ∈ tokens.kinds

end Grammar.Tokens

variable {tokens : Tokens}

def Decl.Cites (tokens : Tokens) (decl : Decl) : Prop := decl.name ≠ "" → tokens.Names decl.name

/-- The tag and the name of the type are names. -/
structure TypeNode.Cites (tokens : Tokens) (type : TypeNode) : Prop where
  tag : ∀ text ∈ type.tag, tokens.Names text
  name : ∀ text ∈ type.name, tokens.Names text

def Expr.Form.Cites (tokens : Tokens) : Expr.Form → Prop
  | .name text | .member _ _ text => tokens.Names text
  | .number text => tokens.Writes text
  | _ => True

def Label.Form.Cites (tokens : Tokens) : Label.Form → Prop
  | .named name => tokens.Names name
  | _ => True

/-- Every text in the nodes is one of a token. -/
structure Arenas.Cite (tokens : Tokens) (a : Arenas) : Prop where
  decls : ∀ decl ∈ a.decls, decl.Cites tokens
  types : ∀ type ∈ a.types, type.Cites tokens
  exprs : ∀ expr ∈ a.exprs, expr.form.Cites tokens
  labels : ∀ label ∈ a.labels, label.form.Cites tokens

theorem Decl.Cites.unnamed {decl : Decl} (empty : decl.name = "") : decl.Cites tokens :=
  fun named => absurd empty named

theorem TypeNode.Cites.untexted {type : TypeNode} (tag : type.tag = none)
    (name : type.name = none) : type.Cites tokens where
  tag text member := by
    rw [tag] at member
    cases member
  name text member := by
    rw [name] at member
    cases member

namespace Arenas.Cite

variable {a : Arenas}

theorem empty : Cite tokens {} where
  decls := by simp
  types := by simp
  exprs := by simp
  labels := by simp

theorem addDecl (cite : a.Cite tokens) {decl : Decl} (cites : decl.Cites tokens) :
    (a.addDecl decl).2.Cite tokens :=
  { cite with decls := forall_mem_push cite.decls cites }

theorem addType (cite : a.Cite tokens) {type : TypeNode} (cites : type.Cites tokens) :
    (a.addType type).2.Cite tokens :=
  { cite with types := forall_mem_push cite.types cites }

theorem addExpr (cite : a.Cite tokens) {expr : Expr} (cites : expr.form.Cites tokens) :
    (a.addExpr expr).2.Cite tokens :=
  { cite with exprs := forall_mem_push cite.exprs cites }

theorem addStmt (cite : a.Cite tokens) (stmt : Stmt) : (a.addStmt stmt).2.Cite tokens :=
  { cite with }

theorem addInit (cite : a.Cite tokens) (init : Init) : (a.addInit init).2.Cite tokens :=
  { cite with }

theorem addLabel (cite : a.Cite tokens) {label : Label} (cites : label.form.Cites tokens) :
    (a.addLabel label).2.Cite tokens :=
  { cite with labels := forall_mem_push cite.labels cites }

theorem completeType (cite : a.Cite tokens) (id : TypeId) (decls : List DeclId) :
    (a.completeType id decls).Cite tokens :=
  have kept (type : TypeNode) (found : a.type? id = some type) :
      TypeNode.Cites tokens { type with decls } :=
    have cites := cite.types type (Array.mem_of_getElem? found)
    ⟨cites.tag, cites.name⟩
  { cite with types := forall_mem_modify cite.types kept }

theorem modifyComments (cite : a.Cite tokens) (id : DeclId) (change : Comments → Comments) :
    (a.modifyComments id change).Cite tokens :=
  have kept (decl : Decl) (found : a.decl? id = some decl) :
      Decl.Cites tokens { decl with comments := change decl.comments } :=
    cite.decls decl (Array.mem_of_getElem? found)
  { cite with decls := forall_mem_modify cite.decls kept }

end Arenas.Cite

/-! ## Readings -/

namespace Grammar

/-- Where every text in the nodes is one of a token, it is so where the reading ends with a
value, and the value is one of these. -/
def Cites {α : Type} (tokens : Tokens) (values : α → Prop) (reading : Parse α) : Prop :=
  ∀ s value t, s.arenas.Cite tokens → reading tokens s = .ok value t →
    t.arenas.Cite tokens ∧ values value

/-- Nothing is said of the value. -/
abbrev Steady {α : Type} (tokens : Tokens) (reading : Parse α) : Prop :=
  Cites tokens (fun _ => True) reading

namespace Cites

variable {α β : Type} {values : α → Prop} {others : β → Prop} {reading : Parse α} {kind : Kind}

/-! ### Composition -/

theorem bind {next : α → Parse β} (first : Cites tokens values reading)
    (rest : ∀ value, values value → Cites tokens others (next value)) :
    Cites tokens others (reading >>= next) := by
  intro s value t cite run
  obtain ⟨found, middle, ran, done⟩ := bind_ok run
  obtain ⟨kept, given⟩ := first s found middle cite ran
  exact rest found given middle value t kept done

/-- What the first reading answers does not matter. -/
theorem past {next : α → Parse β} (first : Cites tokens values reading)
    (rest : ∀ value, Cites tokens others (next value)) : Cites tokens others (reading >>= next) :=
  first.bind fun value _ => rest value

theorem pure {value : α} (given : values value) : Cites tokens values (Pure.pure value) := by
  intro s result t cite run
  obtain ⟨rfl, rfl⟩ := pure_ok run
  exact ⟨cite, given⟩

theorem fail {cause : Cause} : Cites tokens values (Parse.fail cause : Parse α) :=
  fun _ _ _ _ run => nomatch run

theorem refuse {cause : Cause} {next : β → Parse α} :
    Cites tokens values (Parse.fail cause >>= next) :=
  fun _ _ _ _ run => nomatch run

theorem weaken {wider : α → Prop} (cites : Cites tokens values reading)
    (holds : ∀ value, values value → wider value) : Cites tokens wider reading := by
  intro s value t cite run
  obtain ⟨kept, given⟩ := cites s value t cite run
  exact ⟨kept, holds value given⟩

theorem steady (cites : Cites tokens values reading) : Steady tokens reading :=
  cites.weaken fun _ _ => trivial

theorem map {change : α → β} (cites : Cites tokens (fun value => others (change value)) reading) :
    Cites tokens others (change <$> reading) :=
  cites.bind fun _ => .pure

theorem mapAny {change : α → β} (cites : Cites tokens values reading) :
    Steady tokens (change <$> reading) :=
  cites.past fun _ => .pure trivial

theorem look (observes : Observes reading) : Steady tokens reading := by
  intro s value t cite run
  rw [observes tokens s value t run]
  exact ⟨cite, trivial⟩

theorem of_arenas
    (same : ∀ s value t, reading tokens s = .ok value t → t.arenas = s.arenas) :
    Steady tokens reading := by
  intro s value t cite run
  rw [same s value t run]
  exact ⟨cite, trivial⟩

/-! ### Tokens -/

/-- The kind that is seen is one of a token. -/
theorem peek : Cites tokens (· ∈ tokens.kinds) Parse.peek := by
  intro s kind t cite run
  obtain ⟨rfl, rfl, inside⟩ := peek_ok run
  refine ⟨cite, ?_⟩
  rw [← Tokens.kinds_length] at inside
  rw [Tokens.kind_of_kinds, List.getElem?_eq_getElem inside]
  exact List.getElem_mem inside

theorem here : Steady tokens Parse.here := .look here_observes

theorem spanFrom {start : Location} : Steady tokens (Parse.spanFrom start) :=
  .look spanFrom_observes

theorem at? : Steady tokens (Parse.at? kind) := .past peek fun _ => .pure trivial

theorem advance : Steady tokens Parse.advance :=
  .of_arenas fun _ _ _ run => advance_arenas run

theorem moveTo {place : Nat} : Steady tokens (Parse.moveTo place) := by
  refine .of_arenas fun s value t run => ?_
  obtain ⟨-, rfl⟩ := moveTo_ok run
  rfl

theorem accept : Steady tokens (Parse.accept kind) := by
  refine .past peek fun found => ?_
  split
  · exact .past .advance fun _ => .pure trivial
  · exact .pure trivial

theorem expect {context : String} : Steady tokens (Parse.expect kind context) := by
  refine .past peek fun found => ?_
  split
  · exact .advance
  · exact .fail

theorem identifier : Cites tokens tokens.Names Parse.identifier := by
  refine .bind .peek fun found there => ?_
  split
  · exact .past .advance fun _ => .pure there
  · exact .fail

theorem identifier? : Cites tokens (fun found => ∀ name ∈ found, tokens.Names name)
    Parse.identifier? := by
  refine .bind .peek fun found there => ?_
  split
  · next name =>
      refine .past .advance fun _ => .pure fun other same => ?_
      cases same
      exact there
  · exact .pure fun name none => nomatch none

/-! ### Nodes and names -/

theorem addDecl {decl : Decl} (cites : decl.Cites tokens) : Steady tokens (Parse.addDecl decl) := by
  intro s id t cite run
  obtain ⟨-, rfl⟩ := add_ok run
  exact ⟨cite.addDecl cites, trivial⟩

theorem addType {type : TypeNode} (cites : type.Cites tokens) :
    Steady tokens (Parse.addType type) := by
  intro s id t cite run
  obtain ⟨-, rfl⟩ := add_ok run
  exact ⟨cite.addType cites, trivial⟩

theorem addExpr {form : Expr.Form} {span : Span} (cites : form.Cites tokens) :
    Steady tokens (Parse.addExpr form span) := by
  intro s id t cite run
  obtain ⟨-, rfl⟩ := add_ok run
  exact ⟨cite.addExpr cites, trivial⟩

theorem addStmt {stmt : Stmt} : Steady tokens (Parse.addStmt stmt) := by
  intro s id t cite run
  obtain ⟨-, rfl⟩ := add_ok run
  exact ⟨cite.addStmt stmt, trivial⟩

theorem addInit {init : Init} : Steady tokens (Parse.addInit init) := by
  intro s id t cite run
  obtain ⟨-, rfl⟩ := add_ok run
  exact ⟨cite.addInit init, trivial⟩

theorem addLabel {label : Label} (cites : label.form.Cites tokens) :
    Steady tokens (Parse.addLabel label) := by
  intro s id t cite run
  obtain ⟨-, rfl⟩ := add_ok run
  exact ⟨cite.addLabel cites, trivial⟩

theorem typeNode {id : TypeId} : Cites tokens (TypeNode.Cites tokens) (Parse.typeNode id) := by
  intro s type t cite run
  obtain ⟨found, rfl⟩ := typeNode_ok run
  exact ⟨cite, cite.types type (Array.mem_of_getElem? found)⟩

theorem completeType {id : TypeId} {decls : List DeclId} :
    Steady tokens (Parse.completeType id decls) := by
  refine .past .typeNode fun _ s value t cite run => ?_
  cases run
  exact ⟨cite.completeType id decls, trivial⟩

theorem modifyComments {id : DeclId} {change : Comments → Comments} :
    Steady tokens (Parse.modifyComments id change) := by
  refine .past (.look declNode_observes) fun _ s value t cite run => ?_
  cases run
  exact ⟨cite.modifyComments id change, trivial⟩

theorem bindName {name : String} {nameKind : NameKind} :
    Steady tokens (Parse.bindName name nameKind) := by
  refine .of_arenas fun s value t run => ?_
  cases run
  rfl

theorem bindTag {tag : String} {id : TypeId} : Steady tokens (Parse.bindTag tag id) := by
  refine .of_arenas fun s value t run => ?_
  cases run
  rfl

theorem inScope (cites : Cites tokens values reading) :
    Cites tokens values (Parse.inScope reading) := by
  intro s value t cite run
  obtain ⟨middle, ran, rfl⟩ := inScope_ok run
  exact cites { s with scopes := {} :: s.scopes } value middle cite ran

/-! ### Repetition -/

theorem rounds {step : α → Parse (Option α)}
    (each : ∀ value, values value → Cites tokens (fun next => ∀ v ∈ next, values v) (step value))
    (bound : Nat) {value : α} (given : values value) :
    Cites tokens values (Parse.rounds step bound value) := by
  induction bound generalizing value with
  | zero => exact .fail
  | succ bound ih =>
      refine .past (.look position_observes) fun before =>
        (each value given).bind fun next more => ?_
      cases next with
      | none => exact .pure given
      | some next =>
          refine .past (.look position_observes) fun place => ?_
          split
          · exact ih (more next rfl)
          · exact .fail

/-- What holds of every value in turn holds of the last one. -/
theorem iterate {step : α → Parse (Option α)}
    (each : ∀ value, values value → Cites tokens (fun next => ∀ v ∈ next, values v) (step value))
    {value : α} (given : values value) : Cites tokens values (Parse.iterate step value) :=
  .past (.look read_observes) fun _ => .past (.look position_observes) fun _ => rounds each _ given

theorem iterateAny {step : α → Parse (Option α)} (each : ∀ value, Steady tokens (step value))
    (value : α) : Steady tokens (Parse.iterate step value) :=
  .iterate (fun value _ => (each value).weaken fun _ _ _ _ => trivial) trivial

theorem many {item : Parse (Option α)} (each : Steady tokens item) :
    Steady tokens (Parse.many item) :=
  .mapAny (iterateAny (fun _ => each.mapAny) [])

theorem separated {item : Parse α} (each : Steady tokens item) :
    Steady tokens (Parse.separated item) := by
  refine each.past fun first => .past (.many (.past accept fun more => ?_)) fun _ => .pure trivial
  split
  · exact each.mapAny
  · exact .pure trivial

theorem listed {close : Punctuator} {item : Parse α} (each : Steady tokens item) :
    Steady tokens (Parse.listed close item) := by
  refine .past (iterateAny (fun collected => .past at? fun closed => ?_) _) fun _ => .pure trivial
  split
  · exact .pure trivial
  · exact each.past fun next => accept.past fun more => .pure trivial

theorem mapM {item : α → Parse β} (each : ∀ value, Steady tokens (item value)) (list : List α) :
    Steady tokens (list.mapM item) := by
  induction list with
  | nil => exact .pure trivial
  | cons value list ih =>
      rw [List.mapM_cons]
      exact (each value).past fun first => ih.past fun rest => .pure trivial

theorem forM {item : α → Parse PUnit} (each : ∀ value, Steady tokens (item value))
    (list : List α) : Steady tokens (list.forM item) := by
  induction list with
  | nil => exact .pure trivial
  | cons value list ih => exact (each value).past fun _ => ih

theorem foldrM {item : α → β → Parse β} (each : ∀ value last, Steady tokens (item value last))
    (last : β) (list : List α) : Steady tokens (list.foldrM item last) := by
  induction list with
  | nil => exact .pure trivial
  | cons value list ih =>
      rw [List.foldrM_cons]
      exact ih.past fun next => each value next

end Cites

/-! ## The recursive rules -/

/-- The name of the declarator, if it has one, is a name. -/
def Declarator.Cites (tokens : Tokens) (declarator : Declarator) : Prop :=
  ∀ name ∈ declarator.name, tokens.Names name

structure Rules.Cite (tokens : Tokens) (rules : Rules) : Prop where
  expression : Steady tokens rules.expression
  assignment : Steady tokens rules.assignment
  conditional : Steady tokens rules.conditional
  cast : Steady tokens rules.cast
  unary : Steady tokens rules.unary
  typeName : Steady tokens rules.typeName
  specifiers : Steady tokens rules.specifiers
  declarator (type : TypeId) (abstractOk : Bool) :
    Cites tokens (Declarator.Cites tokens) (rules.declarator type abstractOk)
  initializers : Steady tokens rules.initializers
  statement : Steady tokens rules.statement

end Grammar

end SyntaxGraph
