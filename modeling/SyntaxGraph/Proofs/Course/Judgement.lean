import SyntaxGraph.Grammar.Parse
import SyntaxGraph.Proofs.Grammar.Judgement
import SyntaxGraph.Proofs.Graph.Fields

/-!
# The course of a reading

Whatever a reading does to its state is done step by step: it goes to another position,
adds a node, changes comments, binds a name, of which it takes note, or a tag, or notes that
a type is completed.  It may do all that in a scope of its own, which it leaves again, or in
a body, which gives a type its declarations at the end.  A tag is bound only where the
innermost scope has no such tag yet, and to a type that bears it; a body is read only for a
type without declarations.  A course is a sequence of such steps.  Every reading takes a
course from the state in which it starts to the state in which it ends, with a value or with
a cause, so what each step keeps is kept by every reading: no declaration is lost, and a type
keeps its kind and its tag.

Most of the grammar makes no statement but a block, no declaration with a body, and binds no
name but that of an object; and all the nodes that it makes fit their kinds.  Such readings are
shown to follow every relation of states that permits the steps they take; a course is one of
these relations.
-/

set_option autoImplicit false

namespace SyntaxGraph.Grammar

open Token (Kind Punctuator)

/-- The state once a name is bound. -/
def State.bindName (s : State) (name : String) (kind : NameKind) : State :=
  { s with
    scopes := s.scopes.bindName name kind
    log := .bound name kind s.arenas.nextDecl :: s.log }

@[simp] theorem State.bindName_arenas (s : State) (name : String) (kind : NameKind) :
    (s.bindName name kind).arenas = s.arenas := rfl

@[simp] theorem State.bindName_scopes (s : State) (name : String) (kind : NameKind) :
    (s.bindName name kind).scopes = s.scopes.bindName name kind := rfl

/-- One change of a state. -/
inductive Step : State → State → Prop
  | move (s : State) (position : Nat) : Step s { s with position }
  | note (s : State) (id : TypeId) (earlier : List DeclId) :
    Step s { s with log := .completed id earlier :: s.log }
  | addDecl (s : State) (decl : Decl) :
    Step s { s with arenas := (s.arenas.addDecl decl).2 }
  | addType (s : State) (type : TypeNode) :
    Step s { s with arenas := (s.arenas.addType type).2 }
  | addExpr (s : State) (expr : Expr) :
    Step s { s with arenas := (s.arenas.addExpr expr).2 }
  | addStmt (s : State) (stmt : Stmt) :
    Step s { s with arenas := (s.arenas.addStmt stmt).2 }
  | addInit (s : State) (init : Init) :
    Step s { s with arenas := (s.arenas.addInit init).2 }
  | addLabel (s : State) (label : Label) :
    Step s { s with arenas := (s.arenas.addLabel label).2 }
  | modifyComments (s : State) (id : DeclId) (change : Comments → Comments) :
    Step s { s with arenas := s.arenas.modifyComments id change }
  | bindName (s : State) (name : String) (kind : NameKind) : Step s (s.bindName name kind)
  | bindTag (s : State) (tag : String) (id : TypeId) (fresh : s.scopes.innerTag? tag = none)
    (bears : s.arenas.Bears tag id) :
    Step s { s with scopes := s.scopes.bindTag tag id }

/-- Steps one after the other, some of them in a scope or in a body. -/
inductive Course : State → State → Prop
  | done (s : State) : Course s s
  | step {s middle t : State} (first : Step s middle) (rest : Course middle t) : Course s t
  | enclosed {s middle t : State} (inner : Course { s with scopes := {} :: s.scopes } middle)
      (rest : Course { middle with scopes := middle.scopes.tail } t) : Course s t
  | body {s middle t : State} {id : TypeId} (decls : List DeclId) (bare : s.arenas.Bare id)
      (inner : Course s middle)
      (rest : Course { middle with arenas := middle.arenas.completeType id decls } t) :
      Course s t

theorem Course.trans {s middle t : State} (first : Course s middle) (rest : Course middle t) :
    Course s t := by
  induction first with
  | done => exact rest
  | step first _ ih => exact .step first (ih rest)
  | enclosed inner _ _ ih => exact .enclosed inner (ih rest)
  | body decls bare inner _ _ ih => exact .body decls bare inner (ih rest)

theorem Step.course {s t : State} (step : Step s t) : Course s t := .step step (.done t)

/-! ## Relations that readings follow -/

/-- A step that makes no statement but a block and no declaration with a body, and binds no
name but that of an object.  The type that is added fits its kind, or is a narrowed copy of one
that is there. -/
inductive PlainStep : State → State → Prop
  | move (s : State) (position : Nat) : PlainStep s { s with position }
  | note (s : State) (id : TypeId) (earlier : List DeclId) :
    PlainStep s { s with log := .completed id earlier :: s.log }
  | addDecl (s : State) (decl : Decl) (bodiless : decl.body = none) :
    PlainStep s { s with arenas := (s.arenas.addDecl decl).2 }
  | addType (s : State) (type : TypeNode) (fits : type.Fits) :
    PlainStep s { s with arenas := (s.arenas.addType type).2 }
  | addNarrowed (s : State) {id : TypeId} {type : TypeNode} (width : ExprId)
    (found : s.arenas.type? id = some type) (integer : type.kind.isInteger = true) :
    PlainStep s { s with
      arenas := (s.arenas.addType { type with width := some width, decls := [] }).2 }
  | addExpr (s : State) (form : Expr.Form) (span : Span) (fits : form.Fits) :
    PlainStep s { s with arenas := (s.arenas.addExpr { form, span }).2 }
  | addBlock (s : State) (items : List StmtId) (span : Span) :
    PlainStep s { s with arenas := (s.arenas.addStmt { form := .block items, span }).2 }
  | addInit (s : State) (init : Init) :
    PlainStep s { s with arenas := (s.arenas.addInit init).2 }
  | addLabel (s : State) (label : Label) :
    PlainStep s { s with arenas := (s.arenas.addLabel label).2 }
  | bindObject (s : State) (name : String) : PlainStep s (s.bindName name .object)
  | bindTag (s : State) (tag : String) (id : TypeId) (fresh : s.scopes.innerTag? tag = none)
    (bears : s.arenas.Bears tag id) :
    PlainStep s { s with scopes := s.scopes.bindTag tag id }

/-- The kind of a type, if there is the type. -/
def State.typeKind? (s : State) (id : TypeId) : Option TypeKind :=
  (s.arenas.type? id).map TypeNode.kind

/-- Plain steps are permitted, one after the other, in a scope of their own and in a body. -/
class Permits (relation : State → State → Prop) : Prop where
  refl (s : State) : relation s s
  trans {s middle t : State} (first : relation s middle) (rest : relation middle t) : relation s t
  plain {s t : State} (step : PlainStep s t) : relation s t
  enclosed {s t : State} (inner : relation { s with scopes := {} :: s.scopes } t) :
    relation s { t with scopes := t.scopes.tail }
  body {s t : State} {id : TypeId} (decls : List DeclId) (bare : s.arenas.Bare id)
    (inner : relation s t) : relation s { t with arenas := t.arenas.completeType id decls }

/-- Names may be bound as those of types too, statements may declare names, and what has been
found to be a function before its body was read may be declared with it. -/
class PermitsDeclarations (relation : State → State → Prop) : Prop
    extends Permits relation where
  bindName (s : State) (name : String) (kind : NameKind) : relation s (s.bindName name kind)
  addDeclared (s : State) (decl : DeclId) (span : Span) :
    relation s { s with arenas := (s.arenas.addStmt { form := .decl decl, span }).2 }
  addFunction {s t : State} {decl : Decl} (function : s.typeKind? decl.type = some .function)
    (noInit : decl.init = none) (inner : relation s t) :
    relation s { t with arenas := (t.arenas.addDecl decl).2 }

/-- Any statement may be added whose form fits. -/
class PermitsStatements (relation : State → State → Prop) : Prop
    extends PermitsDeclarations relation where
  addStmt (s : State) (stmt : Stmt) (fits : stmt.form.Fits) :
    relation s { s with arenas := (s.arenas.addStmt stmt).2 }

class PermitsComments (relation : State → State → Prop) : Prop where
  modifyComments (s : State) (id : DeclId) (change : Comments → Comments) :
    relation s { s with arenas := s.arenas.modifyComments id change }

theorem PlainStep.step {s t : State} (plain : PlainStep s t) : Step s t := by
  cases plain with
  | move position => exact .move s position
  | note id earlier => exact .note s id earlier
  | addDecl decl => exact .addDecl s decl
  | addType type => exact .addType s type
  | addNarrowed width => exact .addType s _
  | addExpr form span => exact .addExpr s _
  | addBlock items span => exact .addStmt s _
  | addInit init => exact .addInit s init
  | addLabel label => exact .addLabel s label
  | bindObject name => exact .bindName s name .object
  | bindTag tag id fresh bears => exact .bindTag s tag id fresh bears

instance : PermitsStatements Course where
  refl := .done
  trans := .trans
  plain step := step.step.course
  enclosed inner := .enclosed inner (.done _)
  body decls bare inner := .body decls bare inner (.done _)
  bindName s name kind := (Step.bindName s name kind).course
  addDeclared s decl span := (Step.addStmt s { form := .decl decl, span }).course
  addFunction _ _ inner := inner.trans (Step.addDecl _ _).course
  addStmt s stmt _ := (Step.addStmt s stmt).course

instance : PermitsComments Course where
  modifyComments s id change := (Step.modifyComments s id change).course

/-- The relation holds from where the reading starts to where it ends, whichever way it
ends. -/
def Follows {α : Type} (relation : State → State → Prop) (reading : Parse α) : Prop :=
  ∀ tokens s, relation s (endState (reading tokens s))

variable {relation : State → State → Prop}

theorem Follows.ends {α : Type} {reading : Parse α} (follows : Follows relation reading)
    {tokens : Tokens} {s : State} : relation s (endState (reading tokens s)) := follows tokens s

theorem Follows.ok {α : Type} {reading : Parse α} (follows : Follows relation reading)
    {tokens : Tokens} {s s' : State} {value : α} (run : reading tokens s = .ok value s') :
    relation s s' := by
  have course := follows tokens s
  rwa [run] at course

variable {α β : Type} {kind : Kind}

/-- What holds where the first reading ends, if it fails, and otherwise where the next one
does. -/
theorem endState_bind (holds : State → Prop) {reading : Parse α} {next : α → Parse β}
    {tokens : Tokens} {s : State} (first : holds (endState (reading tokens s)))
    (rest : ∀ value middle, reading tokens s = .ok value middle →
      holds (endState (next value tokens middle))) :
    holds (endState ((reading >>= next) tokens s)) := by
  rw [bind_apply]
  cases outcome : reading tokens s with
  | ok value middle => exact rest value middle outcome
  | error cause middle => rwa [outcome] at first

namespace Follows

variable [Permits relation]

/-! ## Composition -/

theorem pure {value : α} : Follows relation (Pure.pure value : Parse α) :=
  fun _ s => Permits.refl s

theorem fail {cause : Cause} :
    Follows relation (Parse.fail cause : Parse α) := fun _ s => Permits.refl s

theorem refuse {cause : Cause} {next : β → Parse α} :
    Follows relation (Parse.fail cause >>= next) :=
  fun _ s => Permits.refl s

theorem get : Follows relation (MonadState.get : Parse State) := fun _ s => Permits.refl s

theorem read : Follows relation (MonadReader.read : Parse Tokens) := fun _ s => Permits.refl s

/-- What follows may rely on how the first reading ended. -/
theorem andThen {reading : Parse α} {next : α → Parse β} {tokens : Tokens} {s : State}
    (first : Follows relation reading)
    (rest : ∀ value middle, reading tokens s = .ok value middle →
      relation middle (endState (next value tokens middle))) :
    relation s (endState ((reading >>= next) tokens s)) :=
  endState_bind (relation s) (first tokens s) fun value middle run =>
    Permits.trans (first.ok run) (rest value middle run)

/-- It has been reached from an earlier state, and so is what follows. -/
theorem after {reading : Parse α} {next : α → Parse β} {tokens : Tokens} {start s : State}
    (first : Follows relation reading) (reached : relation start s)
    (rest : ∀ value middle, reading tokens s = .ok value middle → relation start middle →
      relation start (endState (next value tokens middle))) :
    relation start (endState ((reading >>= next) tokens s)) :=
  endState_bind (relation start) (Permits.trans reached (first tokens s))
    fun value middle run => rest value middle run (Permits.trans reached (first.ok run))

theorem bind {reading : Parse α} {next : α → Parse β} (first : Follows relation reading)
    (rest : ∀ value, Follows relation (next value)) : Follows relation (reading >>= next) :=
  fun tokens _ => first.andThen fun value middle _ => rest value tokens middle

theorem map {reading : Parse α} {change : α → β} (follows : Follows relation reading) :
    Follows relation (change <$> reading) :=
  follows.bind fun _ => .pure

theorem modify {change : State → State} (step : ∀ s, PlainStep s (change s)) :
    Follows relation (modifyThe State change : Parse PUnit) :=
  fun _ s => Permits.plain (step s)

/-! ## Tokens -/

theorem position : Follows relation Parse.position := .map .get

theorem moveTo {place : Nat} : Follows relation (Parse.moveTo place) := by
  refine .bind .read fun tokens => ?_
  split
  · exact .modify fun s => .move s place
  · exact .fail

theorem tokenAt {place : Nat} : Follows relation (Parse.tokenAt place) := by
  refine .bind .read fun tokens => ?_
  split
  · exact .pure
  · exact .fail

theorem peek : Follows relation Parse.peek :=
  .bind .position fun _ => .bind .tokenAt fun _ => .pure

theorem peekNext : Follows relation Parse.peekNext :=
  .bind .read fun _ => .bind .position fun _ => .pure

theorem here : Follows relation Parse.here :=
  .bind .position fun _ => .bind .tokenAt fun _ => .pure

theorem finishBefore : Follows relation Parse.finishBefore :=
  .bind .position fun _ => .bind .tokenAt fun _ => .pure

theorem spanFrom {start : Location} : Follows relation (Parse.spanFrom start) :=
  .bind .finishBefore fun _ => .pure

theorem advance : Follows relation Parse.advance := by
  refine .bind .peek fun kind => ?_
  split
  · exact .bind .position fun _ => .moveTo
  · exact .pure

theorem at? : Follows relation (Parse.at? kind) := .bind .peek fun _ => .pure

theorem accept : Follows relation (Parse.accept kind) := by
  refine .bind .peek fun found => ?_
  split
  · exact .bind .advance fun _ => .pure
  · exact .pure

theorem expect {context : String} : Follows relation (Parse.expect kind context) := by
  refine .bind .peek fun found => ?_
  split
  · exact .advance
  · exact .fail

theorem identifier : Follows relation Parse.identifier := by
  refine .bind .peek fun found => ?_
  split
  · exact .bind .advance fun _ => .pure
  · exact .fail

theorem identifier? : Follows relation Parse.identifier? := by
  refine .bind .peek fun found => ?_
  split
  · exact .bind .advance fun _ => .pure
  · exact .pure

/-! ## Nodes and scopes -/

theorem addDecl {decl : Decl} (bodiless : decl.body = none) :
    Follows relation (Parse.addDecl decl) :=
  fun _ s => Permits.plain (.addDecl s decl bodiless)

theorem addType {type : TypeNode} (fits : type.Fits) : Follows relation (Parse.addType type) :=
  fun _ s => Permits.plain (.addType s type fits)

theorem addExpr {form : Expr.Form} {span : Span} (fits : form.Fits) :
    Follows relation (Parse.addExpr form span) :=
  fun _ s => Permits.plain (.addExpr s form span fits)

theorem addBlock {items : List StmtId} {span : Span} :
    Follows relation (Parse.addStmt { form := .block items, span }) :=
  fun _ s => Permits.plain (.addBlock s items span)

theorem addInit {init : Init} : Follows relation (Parse.addInit init) :=
  fun _ s => Permits.plain (.addInit s init)

theorem addLabel {label : Label} : Follows relation (Parse.addLabel label) :=
  fun _ s => Permits.plain (.addLabel s label)

theorem present {node : NodeRef} {found : Option α} :
    Follows relation (Parse.present node found) := by
  cases found with
  | some value => exact .pure
  | none => exact .fail

theorem arenas : Follows relation Parse.arenas := .map .get

theorem declNode {id : DeclId} : Follows relation (Parse.declNode id) :=
  .bind .arenas fun _ => .present

theorem typeNode {id : TypeId} : Follows relation (Parse.typeNode id) :=
  .bind .arenas fun _ => .present

theorem exprNode {id : ExprId} : Follows relation (Parse.exprNode id) :=
  .bind .arenas fun _ => .present

theorem declName {id : DeclId} : Follows relation (Parse.declName id) :=
  .bind .declNode fun _ => .pure

theorem declSpan {id : DeclId} : Follows relation (Parse.declSpan id) :=
  .bind .declNode fun _ => .pure

theorem exprSpan {id : ExprId} : Follows relation (Parse.exprSpan id) :=
  .bind .exprNode fun _ => .pure

theorem modifyComments [PermitsComments relation] {id : DeclId} {change : Comments → Comments} :
    Follows relation (Parse.modifyComments id change) :=
  .bind .declNode fun _ => fun _ s => PermitsComments.modifyComments s id change

theorem scopes : Follows relation Parse.scopes := .map .get

theorem isTypedef {name : String} : Follows relation (Parse.isTypedef name) :=
  .bind .scopes fun _ => .pure

theorem bindObject {name : String} : Follows relation (Parse.bindName name .object) :=
  fun _ s => Permits.plain (.bindObject s name)

/-- The scope of its own is left however the reading ends. -/
theorem inScope {body : Parse α} (follows : Follows relation body) :
    Follows relation (Parse.inScope body) := by
  intro tokens s
  have inner := follows tokens { s with scopes := {} :: s.scopes }
  unfold Parse.inScope
  cases outcome : body tokens { s with scopes := {} :: s.scopes } <;>
    · rw [outcome] at inner
      exact Permits.enclosed inner

/-! ## Repetition -/

theorem rounds {step : α → Parse (Option α)} (each : ∀ value, Follows relation (step value))
    (bound : Nat) (value : α) : Follows relation (Parse.rounds step bound value) := by
  induction bound generalizing value with
  | zero => exact .fail
  | succ bound ih =>
      refine .bind .position fun before => .bind (each value) fun next => ?_
      cases next with
      | none => exact .pure
      | some next =>
          refine .bind .position fun place => ?_
          split
          · exact ih next
          · exact .fail

theorem iterate {step : α → Parse (Option α)} (each : ∀ value, Follows relation (step value))
    (value : α) : Follows relation (Parse.iterate step value) :=
  .bind .read fun _ => .bind .position fun _ => rounds each _ value

theorem many {item : Parse (Option α)} (each : Follows relation item) :
    Follows relation (Parse.many item) :=
  .map (iterate (fun _ => .map each) [])

theorem separated {item : Parse α} (each : Follows relation item) :
    Follows relation (Parse.separated item) := by
  refine each.bind fun first => .bind (many (.bind .accept fun more => ?_)) fun others => .pure
  split
  · exact .map each
  · exact .pure

theorem listed {close : Punctuator} {item : Parse α} (each : Follows relation item) :
    Follows relation (Parse.listed close item) := by
  refine .bind (iterate (fun collected => .bind .at? fun closed => ?_) _) fun found => .pure
  split
  · exact .pure
  · exact each.bind fun next => .bind .accept fun more => .pure

theorem mapM {item : α → Parse β} (each : ∀ value, Follows relation (item value))
    (values : List α) : Follows relation (values.mapM item) := by
  induction values with
  | nil => exact .pure
  | cons value values ih =>
      rw [List.mapM_cons]
      exact (each value).bind fun first => ih.bind fun others => .pure

theorem forM {item : α → Parse PUnit} (each : ∀ value, Follows relation (item value))
    (values : List α) : Follows relation (values.forM item) := by
  induction values with
  | nil => exact .pure
  | cons value values ih => exact (each value).bind fun _ => ih

theorem foldrM {item : α → β → Parse β}
    (each : ∀ value last, Follows relation (item value last)) (last : β) (values : List α) :
    Follows relation (values.foldrM item last) := by
  induction values with
  | nil => exact .pure
  | cons value values ih =>
      rw [List.foldrM_cons]
      exact ih.bind fun next => each value next

end Follows

/-! ## Names of types, and statements -/

namespace Follows

theorem bindName [PermitsDeclarations relation] {name : String} {nameKind : NameKind} :
    Follows relation (Parse.bindName name nameKind) :=
  fun _ s => PermitsDeclarations.bindName s name nameKind

theorem addDeclared [PermitsDeclarations relation] {decl : DeclId} {span : Span} :
    Follows relation (Parse.addStmt { form := .decl decl, span }) :=
  fun _ s => PermitsDeclarations.addDeclared s decl span

theorem addStmt [PermitsStatements relation] {stmt : Stmt} (fits : stmt.form.Fits) :
    Follows relation (Parse.addStmt stmt) :=
  fun _ s => PermitsStatements.addStmt s stmt fits

end Follows

/-! ## The recursive rules -/

/-- The rules for everything but statements. -/
structure Rules.PartsFollow (relation : State → State → Prop) (rules : Rules) : Prop where
  expression : Follows relation rules.expression
  assignment : Follows relation rules.assignment
  conditional : Follows relation rules.conditional
  cast : Follows relation rules.cast
  unary : Follows relation rules.unary
  typeName : Follows relation rules.typeName
  specifiers : Follows relation rules.specifiers
  declarator (type : TypeId) (abstractOk : Bool) :
    Follows relation (rules.declarator type abstractOk)
  initializers : Follows relation rules.initializers

structure Rules.AllFollow (relation : State → State → Prop) (rules : Rules) : Prop
    extends Rules.PartsFollow relation rules where
  statement : Follows relation rules.statement

/-! ## What a course keeps -/

variable {s t : State}

theorem Step.decls_size_le (step : Step s t) : s.arenas.decls.size ≤ t.arenas.decls.size := by
  cases step <;>
    simp [Arenas.addDecl, Arenas.addType, Arenas.addExpr, Arenas.addStmt, Arenas.addInit,
      Arenas.addLabel, Arenas.modifyComments]

theorem Course.decls_size_le (course : Course s t) :
    s.arenas.decls.size ≤ t.arenas.decls.size := by
  induction course with
  | done => exact Nat.le_refl _
  | step first _ ih => exact Nat.le_trans first.decls_size_le ih
  | enclosed _ _ inner rest => exact Nat.le_trans inner rest
  | body _ _ _ _ inner rest => exact Nat.le_trans inner rest

/-- Nothing but the declarations of a type that is there changes. -/
theorem Step.type?_map {β : Type} {field : TypeNode → β} (step : Step s t) {id : TypeId}
    {value : β} (known : (s.arenas.type? id).map field = some value) :
    (t.arenas.type? id).map field = some value := by
  cases step with
  | addType type =>
      obtain ⟨node, found, same⟩ := Option.map_eq_some_iff.mp known
      exact Option.map_eq_some_iff.mpr ⟨node, s.arenas.type?_addType type found, same⟩
  | _ => exact known

/-- What does not depend on the declarations of a type stays as it is. -/
theorem Course.type?_map {β : Type} {field : TypeNode → β}
    (blind : ∀ (type : TypeNode) (decls : List DeclId), field { type with decls } = field type)
    (course : Course s t) {id : TypeId} {value : β}
    (known : (s.arenas.type? id).map field = some value) :
    (t.arenas.type? id).map field = some value := by
  induction course with
  | done => exact known
  | step first _ ih => exact ih (first.type?_map known)
  | enclosed _ _ inner rest => exact rest (inner known)
  | body decls _ _ _ inner rest =>
      refine rest ?_
      rw [Arenas.type?_map_completeType _ _ _ _ (blind · decls)]
      exact inner known

/-- A type that is there keeps its kind. -/
theorem Course.typeKind? (course : Course s t) {id : TypeId} {kind : TypeKind}
    (known : s.typeKind? id = some kind) : t.typeKind? id = some kind :=
  course.type?_map (fun _ _ => rfl) known

/-- A kind that is known of a type is still known when a reading has ended. -/
theorem Reads.keepKind {tokens : Tokens} {before : State → Prop} {reading : Parse α}
    {after : α → State → Prop} {id : TypeId} {kind : TypeKind}
    (reads : Reads tokens before reading after) (follows : Follows Course reading) :
    Reads tokens (fun s => s.typeKind? id = some kind ∧ before s) reading
      fun value s => s.typeKind? id = some kind ∧ after value s := by
  intro s sound known
  have reached := reads s sound known.2
  cases outcome : reading tokens s with
  | ok value s' =>
      rw [outcome] at reached
      exact ⟨reached.1, (follows.ok outcome).typeKind? known.1, reached.2⟩
  | error cause s' =>
      rw [outcome] at reached
      exact reached

end SyntaxGraph.Grammar
