import SyntaxGraph.Proofs.Course.Production

/-!
# Scopes after a reading

Whatever is read, with a value or with a cause, there are as many scopes afterwards as
before, and only the innermost one may have changed.  A block and a `for` statement read
their insides in a scope of their own and leave even the innermost scope as it is.  A
function definition binds the name of the function there and nothing else.  So what has
been declared in a block, in a `for` statement or in the body of a function decides of no
token behind it what it begins or names.
-/

set_option autoImplicit false

namespace SyntaxGraph.Grammar

open Token (Kind Keyword Punctuator)

/-! ## What scopes decide -/

/-- What scopes decide of a token: whether it can begin the name of a type or a
declaration, and the type that it names as a tag, in all scopes and in the innermost. -/
structure TokenRole where
  startsTypeName : Bool
  startsDeclaration : Bool
  tag? : Option TypeId
  innerTag? : Option TypeId
deriving DecidableEq

def tagName? : Kind → Option String
  | .identifier name => some name
  | _ => none

def Scopes.role (scopes : Scopes) (kind : Kind) : TokenRole where
  startsTypeName := startsTypeName scopes kind
  startsDeclaration := startsDeclaration scopes kind
  tag? := (tagName? kind).bind scopes.findTag?
  innerTag? := (tagName? kind).bind scopes.innerTag?

namespace Scopes

variable {scopes : Scopes} {name : String} {kind : Kind}

theorem bindName_findTag? (scopes : Scopes) (name : String) (nameKind : NameKind) (tag : String) :
    (scopes.bindName name nameKind).findTag? tag = scopes.findTag? tag := by
  unfold bindName
  split
  · rfl
  · cases scopes <;> rfl

theorem bindName_innerTag? (scopes : Scopes) (name : String) (nameKind : NameKind)
    (tag : String) :
    (scopes.bindName name nameKind).innerTag? tag = scopes.innerTag? tag := by
  unfold bindName
  split
  · rfl
  · cases scopes <;> rfl

theorem bindName_findName?_of_ne {other : String} (different : other ≠ name)
    (nameKind : NameKind) :
    (scopes.bindName name nameKind).findName? other = scopes.findName? other := by
  unfold bindName
  split
  · rfl
  · cases scopes with
    | nil => rfl
    | cons inner outer =>
        have apart : (other == name) = false := beq_false_of_ne different
        simp only [modifyInner, findName?, List.findSome?_cons, List.lookup_cons, apart]

/-- Only the name that is bound is looked up with another result. -/
theorem bindName_role (other : kind ≠ .identifier name) (nameKind : NameKind) :
    (scopes.bindName name nameKind).role kind = scopes.role kind := by
  have typeName : startsTypeName (scopes.bindName name nameKind) kind =
      startsTypeName scopes kind := by
    cases kind with
    | identifier spelt =>
        have different : spelt ≠ name := fun same => other (congrArg Kind.identifier same)
        simp only [startsTypeName, isTypedef, bindName_findName?_of_ne different]
    | _ => rfl
  have declaration : startsDeclaration (scopes.bindName name nameKind) kind =
      startsDeclaration scopes kind := by
    cases kind with
    | keyword word => cases word <;> rfl
    | identifier spelt => exact typeName
    | _ => rfl
  have tags := funext (bindName_findTag? scopes name nameKind)
  have inner := funext (bindName_innerTag? scopes name nameKind)
  simp only [role, typeName, declaration, tags, inner]

/-- The name of an object begins no declaration. -/
theorem bindName_object_startsDeclaration (scopes : Scopes) (named : name ≠ "") :
    startsDeclaration (scopes.bindName name .object) (.identifier name) = false := by
  change (scopes.bindName name .object).isTypedef name = false
  have full : ¬ name.isEmpty = true := fun empty => named (String.isEmpty_iff.mp empty)
  unfold bindName
  rw [if_neg full]
  cases scopes with
  | nil => rfl
  | cons inner outer =>
      simp only [modifyInner, isTypedef, findName?, List.findSome?_cons, List.lookup_cons_self]
      rfl

end Scopes

/-! ## Frames -/

/-- As many scopes as before, and but for the innermost one the same. -/
structure Scopes.Frames (before after : Scopes) : Prop where
  length_eq : after.length = before.length
  tail_eq : after.tail = before.tail

namespace Scopes.Frames

variable {first second third : Scopes}

theorem refl (scopes : Scopes) : Frames scopes scopes := ⟨rfl, rfl⟩

theorem trans (one : Frames first second) (other : Frames second third) :
    Frames first third :=
  ⟨other.length_eq.trans one.length_eq, other.tail_eq.trans one.tail_eq⟩

theorem modifyInner (scopes : Scopes) (change : Scope → Scope) :
    Frames scopes (scopes.modifyInner change) := by
  cases scopes <;> exact ⟨rfl, rfl⟩

theorem bindName (scopes : Scopes) (name : String) (kind : NameKind) :
    Frames scopes (scopes.bindName name kind) := by
  unfold Scopes.bindName
  split
  · exact .refl scopes
  · exact .modifyInner scopes _

end Scopes.Frames

variable {s t : State}

theorem Step.frames (step : Step s t) : Scopes.Frames s.scopes t.scopes := by
  cases step with
  | bindName name kind => exact .bindName s.scopes name kind
  | bindTag tag id => exact .modifyInner s.scopes _
  | _ => exact .refl s.scopes

/-- By induction on the course: what has been read in a scope of its own has left the
scopes below that one as they were, and these are what is left without it. -/
theorem Course.frames (course : Course s t) : Scopes.Frames s.scopes t.scopes := by
  induction course with
  | done s => exact .refl s.scopes
  | step first _ ih => exact first.frames.trans ih
  | enclosed _ _ inner rest =>
      rw [inner.tail_eq] at rest
      exact rest
  | body _ _ _ _ inner rest => exact inner.trans rest

/-! ## Scopes that are restored -/

/-- The reading leaves the scopes as they are, whichever way it ends. -/
def Restores {α : Type} (reading : Parse α) : Prop :=
  ∀ tokens s, (endState (reading tokens s)).scopes = s.scopes

namespace Restores

variable {α β : Type}

theorem ok {reading : Parse α} (restores : Restores reading) {tokens : Tokens} {s t : State}
    {value : α} (run : reading tokens s = .ok value t) : t.scopes = s.scopes := by
  have same := restores tokens s
  rwa [run] at same

theorem pure {value : α} : Restores (Pure.pure value : Parse α) := fun _ _ => rfl

theorem fail {cause : Cause} : Restores (Parse.fail cause : Parse α) := fun _ _ => rfl

theorem get : Restores (MonadState.get : Parse State) := fun _ _ => rfl

theorem read : Restores (MonadReader.read : Parse Tokens) := fun _ _ => rfl

theorem andThen {reading : Parse α} {next : α → Parse β} {tokens : Tokens} {s : State}
    {scopes : Scopes} (first : (endState (reading tokens s)).scopes = scopes)
    (rest : ∀ value, Restores (next value)) :
    (endState ((reading >>= next) tokens s)).scopes = scopes := by
  rw [bind_apply]
  cases outcome : reading tokens s with
  | ok value middle =>
      rw [outcome] at first
      exact (rest value tokens middle).trans first
  | error cause middle =>
      rw [outcome] at first
      exact first

theorem bind {reading : Parse α} {next : α → Parse β} (first : Restores reading)
    (rest : ∀ value, Restores (next value)) : Restores (reading >>= next) :=
  fun tokens s => andThen (first tokens s) rest

theorem position : Restores Parse.position := .bind .get fun _ => .pure

theorem moveTo {place : Nat} : Restores (Parse.moveTo place) := by
  refine .bind .read fun tokens => ?_
  split
  · exact fun _ _ => rfl
  · exact .fail

theorem tokenAt {place : Nat} : Restores (Parse.tokenAt place) := by
  refine .bind .read fun tokens => ?_
  split
  · exact .pure
  · exact .fail

theorem peek : Restores Parse.peek :=
  .bind .position fun _ => .bind .tokenAt fun _ => .pure

theorem here : Restores Parse.here :=
  .bind .position fun _ => .bind .tokenAt fun _ => .pure

theorem spanFrom {start : Location} : Restores (Parse.spanFrom start) :=
  .bind (.bind .position fun _ => .bind .tokenAt fun _ => .pure) fun _ => .pure

theorem expect {kind : Kind} {context : String} : Restores (Parse.expect kind context) := by
  refine .bind .peek fun found => ?_
  split
  · refine .bind .peek fun kind => ?_
    split
    · exact .bind .position fun _ => .moveTo
    · exact .pure
  · exact .fail

theorem addDecl {decl : Decl} : Restores (Parse.addDecl decl) := fun _ _ => rfl

theorem addStmt {stmt : Stmt} : Restores (Parse.addStmt stmt) := fun _ _ => rfl

/-- What is read in a scope of its own leaves all the others. -/
theorem inScope {body : Parse α} (follows : Follows Course body) :
    Restores (Parse.inScope body) := by
  intro tokens s
  have frames := (follows tokens { s with scopes := {} :: s.scopes }).frames
  unfold Parse.inScope
  cases outcome : body tokens { s with scopes := {} :: s.scopes } <;>
    · rw [outcome] at frames
      exact frames.tail_eq

end Restores

variable {rules : Rules}

theorem block_restores (follow : rules.AllFollow Course) : Restores (block rules) := by
  refine .bind .expect fun _ => ?_
  have declares := declarationStatements_follows follow.toPartsFollow
  refine .bind (.inScope (.many (blockItem?_follows follow declares))) fun items => ?_
  exact .bind .expect fun _ => .pure

theorem compoundStatement_restores (follow : rules.AllFollow Course) :
    Restores (compoundStatement rules) := by
  refine .bind .here fun start => (block_restores follow).bind fun form => ?_
  exact .bind .spanFrom fun _ => .addStmt

theorem forStatement_restores (follow : rules.AllFollow Course) : Restores (forStatement rules) :=
  .bind .expect fun _ => .inScope (forClauses_follows follow)

theorem functionBody_restores (follow : rules.AllFollow Course) {type : TypeId} :
    Restores (functionBody rules type) := by
  refine .inScope (.bind .typeNode fun node => ?_)
  refine .bind (.forM (fun parameter => .bind .declName fun _ => .bindName) node.decls) ?_
  have declares := declarationStatements_follows follow.toPartsFollow
  exact fun _ => compoundStatement_follows follow declares

/-- The name of a function is all that its definition binds. -/
theorem functionDefinition_scopes (follow : rules.AllFollow Course) (start : Location)
    (specifiers : Specifiers) (declarator : Declarator) (tokens : Tokens) (s : State) :
    (endState (functionDefinition rules start specifiers declarator tokens s)).scopes =
      declarator.name.elim s.scopes (s.scopes.bindName · .object) := by
  obtain ⟨name, type⟩ := declarator
  cases name with
  | none => rfl
  | some name =>
      have bound : (endState (Parse.bindName name .object tokens s)).scopes =
          s.scopes.bindName name .object := rfl
      refine Restores.andThen bound fun _ => ?_
      exact (functionBody_restores follow).bind fun body => .bind .spanFrom fun _ => .addDecl

/-! ## Every function of the grammar -/

/-- The readings that open a scope for what stands inside. -/
inductive Encloses (rules : Rules) : {α : Type} → Parse α → Prop
  | block : Encloses rules (block rules)
  | compoundStatement : Encloses rules (compoundStatement rules)
  | forStatement : Encloses rules (forStatement rules)
  | functionBody (type : TypeId) : Encloses rules (functionBody rules type)

theorem Encloses.restores (follow : rules.AllFollow Course) {α : Type} {reading : Parse α}
    (encloses : Encloses rules reading) : Restores reading := by
  cases encloses with
  | block => exact block_restores follow
  | compoundStatement => exact compoundStatement_restores follow
  | forStatement => exact forStatement_restores follow
  | functionBody => exact functionBody_restores follow

/-- The discipline of scopes, from every state and over all tokens, whether a reading ends
with a value or with a cause. -/
theorem scopes_disciplined (depth : Nat) (tokens : Tokens) (s : State) :
    (∀ {α : Type} {reading : Parse α}, Encloses (Rules.nested depth) reading →
      (endState (reading tokens s)).scopes = s.scopes ∧
        ∀ kind, (endState (reading tokens s)).scopes.role kind = s.scopes.role kind) ∧
    (∀ {α : Type} {reading : Parse α}, Production (Rules.nested depth) reading →
      (endState (reading tokens s)).scopes.length = s.scopes.length ∧
        (endState (reading tokens s)).scopes.tail = s.scopes.tail) ∧
    (∀ start specifiers declarator,
      (endState (functionDefinition (Rules.nested depth) start specifiers declarator
          tokens s)).scopes =
        declarator.name.elim s.scopes (s.scopes.bindName · .object)) ∧
    (∀ name kind, kind ≠ .identifier name →
      (s.scopes.bindName name .object).role kind = s.scopes.role kind) ∧
    ∀ name, name ≠ "" →
      startsDeclaration (s.scopes.bindName name .object) (.identifier name) = false := by
  have follow : (Rules.nested depth).AllFollow Course := Rules.nested_follow depth
  refine ⟨fun encloses => ?_, fun production => ?_, fun start specifiers declarator => ?_,
    fun _ _ other => Scopes.bindName_role other .object,
    fun _ named => Scopes.bindName_object_startsDeclaration s.scopes named⟩
  · have same := encloses.restores follow tokens s
    exact ⟨same, fun kind => by rw [same]⟩
  · have frames := (production.follows follow tokens s).frames
    exact ⟨frames.length_eq, frames.tail_eq⟩
  · exact functionDefinition_scopes follow start specifiers declarator tokens s

end SyntaxGraph.Grammar
