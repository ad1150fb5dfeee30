import SyntaxGraph.Proofs.Scope.Discipline
import SyntaxGraph.Proofs.Typedef.Judgement

/-!
# Declarations of names

A name is declared by a declarator with its initializer, or by the definition of a function.
A declarator binds its name as the specifiers say, and a `typedef` may not go on with an
initializer, so its declaration is made at once.  A definition binds its name as that of an
object, whatever the specifiers say, and reads the body in a scope of its own before the
declaration is made.
-/

set_option autoImplicit false

namespace SyntaxGraph.Grammar

open Token (Kind Punctuator)

variable {rules : Rules} {tokens : Tokens} {s t : State} {id : DeclId} {start : Location}
  {specifiers : Specifiers} {declarator : Declarator}

/-! ## What the two make -/

/-- The declaration that a declarator with a name makes. -/
def Specifiers.declares (specifiers : Specifiers) (name : String) (type : TypeId)
    (init : Option InitId) (body : Option StmtId) (span : Span) : Decl where
  name := name
  storage := specifiers.storage
  isInline := specifiers.isInline
  type := type
  init := init
  body := body
  span := span

theorem initDeclarator_ok
    (run : initDeclarator rules start specifiers declarator tokens s = .ok id t) :
    ∃ name init span middle, declarator.name = some name ∧
      initializer? rules specifiers.storage name tokens
        (s.bindName name (nameKind specifiers.storage)) = .ok init middle ∧
      (middle.arenas.addDecl (specifiers.declares name declarator.type init none span)).1 = id ∧
      t = { middle with arenas :=
        (middle.arenas.addDecl (specifiers.declares name declarator.type init none span)).2 } := by
  obtain ⟨name, type⟩ := declarator
  cases name with
  | none => cases run
  | some name =>
      obtain ⟨_, bound, binds, rest⟩ := bind_ok run
      cases binds
      obtain ⟨init, middle, reads, rest⟩ := bind_ok rest
      obtain ⟨span, adds⟩ := look_then spanFrom_observes rest
      obtain ⟨rfl, rfl⟩ := add_ok adds
      exact ⟨name, init, span, middle, rfl, reads, rfl, rfl⟩

theorem functionDefinition_ok
    (run : functionDefinition rules start specifiers declarator tokens s = .ok id t) :
    ∃ name body span middle, declarator.name = some name ∧
      functionBody rules declarator.type tokens (s.bindName name .object) = .ok body middle ∧
      (middle.arenas.addDecl
        (specifiers.declares name declarator.type none (some body) span)).1 = id ∧
      t = { middle with arenas := (middle.arenas.addDecl
        (specifiers.declares name declarator.type none (some body) span)).2 } := by
  obtain ⟨name, type⟩ := declarator
  cases name with
  | none => cases run
  | some name =>
      obtain ⟨_, bound, binds, rest⟩ := bind_ok run
      cases binds
      obtain ⟨body, middle, reads, rest⟩ := bind_ok rest
      obtain ⟨span, adds⟩ := look_then spanFrom_observes rest
      obtain ⟨rfl, rfl⟩ := add_ok adds
      exact ⟨name, body, span, middle, rfl, reads, rfl, rfl⟩

/-- A `typedef` has no initializer, and nothing is read for it. -/
theorem initializer?_typedef {name : String} {init : Option InitId}
    (run : initializer? rules .typedef name tokens s = .ok init t) : init = none ∧ t = s := by
  obtain ⟨-, reads⟩ | ⟨-, reads⟩ := accept_then (by simp) run
  · cases reads
  · exact pure_ok reads

/-- If the declaration is a `typedef` with a name, it has no initializer, and the innermost
scope has its name as that of a type, or as that of an object if it has a body. -/
def TypedefBound (scopes : Scopes) (decl : Decl) : Prop :=
  decl.isTypedef = true → decl.name ≠ "" → decl.init = none ∧
    scopes.innerName? decl.name = some (if decl.body.isSome = true then .object else .typedef)

theorem Creates.typedefBound (creates : Creates tokens id t) :
    ∃ decl, t.arenas.decl? id = some decl ∧ TypedefBound t.scopes decl := by
  cases creates with
  | @declarator depth start specifiers declarator s standing run =>
      obtain ⟨name, init, span, middle, -, reads, rfl, rfl⟩ := initDeclarator_ok run
      refine ⟨_, Arenas.decl?_addDecl_self _ _, fun isTypedef named => ?_⟩
      have storage : specifiers.storage = .typedef := of_decide_eq_true isTypedef
      rw [storage] at reads
      obtain ⟨rfl, rfl⟩ := initializer?_typedef reads
      exact ⟨rfl, Scopes.innerName?_bindName standing named .typedef⟩
  | @definition depth start specifiers declarator s standing run =>
      obtain ⟨name, body, span, middle, -, reads, rfl, rfl⟩ := functionDefinition_ok run
      refine ⟨_, Arenas.decl?_addDecl_self _ _, fun _ named => ⟨rfl, ?_⟩⟩
      have same : middle.scopes = s.scopes.bindName name .object :=
        (functionBody_restores (Rules.nested_follow depth)).ok reads
      change middle.scopes.innerName? name = some .object
      rw [same]
      exact Scopes.innerName?_bindName standing named .object

/-! ## Accounts of declarations -/

namespace Accounts

variable {decl : Decl}

theorem made_of_events {events : List Event} {scopes : Scopes}
    (only : ∀ other node found, .declared other node found ∈ events →
      other = id ∧ node = decl ∧ found = scopes)
    (creates : decl.name ≠ "" → Creates tokens id t) (same : t.scopes = scopes)
    (found : t.arenas.decl? id = some decl) : Made tokens events := by
  intro other node inside noted named
  obtain ⟨rfl, rfl, rfl⟩ := only other node inside noted
  exact ⟨t, creates named, same, found⟩

theorem declared (untyped : BindsNoType decl)
    (creates : decl.name ≠ "" → Creates tokens (s.arenas.addDecl decl).1
      { s with arenas := (s.arenas.addDecl decl).2 }) :
    Accounts tokens [] s { s with arenas := (s.arenas.addDecl decl).2 }
      [(s.arenas.addDecl decl).1] := by
  refine ⟨_, [], ⟨.declared decl (.done _), .declared _ _ untyped .nil, [], ?_, rfl⟩, ?_, ?_⟩
  · exact (List.append_nil _).symm
  · refine made_of_events (fun _ _ _ noted => ?_) creates rfl (Arenas.decl?_addDecl_self _ _)
    simpa using noted
  · simp [Event.declared?]

/-- The name of a `typedef` is bound, and its declaration is made at once. -/
theorem typedef (isTypedef : decl.isTypedef = true) (noInit : decl.init = none)
    (noBody : decl.body = none)
    (creates : Creates tokens (s.arenas.addDecl decl).1
      { s.bindName decl.name .typedef with arenas := (s.arenas.addDecl decl).2 }) :
    Accounts tokens [] s
      { s.bindName decl.name .typedef with arenas := (s.arenas.addDecl decl).2 }
      [(s.arenas.addDecl decl).1] := by
  refine ⟨_, [], ⟨.bound decl.name .typedef (.declared decl (.done _)),
    .typedef isTypedef noInit noBody .nil, [], ?_, rfl⟩, ?_, ?_⟩
  · exact (List.append_nil _).symm
  · refine made_of_events (fun _ _ _ noted => ?_) (fun _ => creates) rfl
      (Arenas.decl?_addDecl_self _ _)
    simpa using noted
  · simp [Event.declared?, eq_comm]

end Accounts

variable {depth : Nat}

theorem initDeclarator_tells : Tells tokens []
    (initDeclarator (Rules.nested depth) start specifiers declarator) fun id => [id] := by
  intro s id t standing run
  have creates : Creates tokens id t := .declarator standing run
  obtain ⟨name, init, span, middle, -, reads, rfl, rfl⟩ := initDeclarator_ok run
  by_cases storage : specifiers.storage = .typedef
  · -- Nothing is read between the binding and the declaration.
    rw [storage] at reads
    obtain ⟨rfl, rfl⟩ := initializer?_typedef reads
    exact .typedef (decide_eq_true storage) rfl rfl creates
  · -- An initializer may bind names and add declarations, of which no note is taken.
    rw [nameKind, if_neg storage] at reads
    have binds : Silent s (s.bindName name .object) := Permits.plain (.bindObject s name)
    have read : Silent (s.bindName name .object) middle :=
      (initializer?_follows (Rules.nested_parts depth)).ok reads
    have silent : Silent s middle := Permits.trans binds read
    refine (Accounts.of_silent silent).trans (.declared (fun isTypedef => ?_) fun _ => creates)
    exact absurd (of_decide_eq_true isTypedef) storage

theorem nextDeclarator?_tells : Tells tokens []
    (nextDeclarator? (Rules.nested depth) start specifiers) (·.elim [] fun id => [id]) := by
  refine .past .accept fun comma => ?_
  split
  · refine .past (declarator_follows (Rules.nested_parts depth)) fun next => ?_
    exact .map initDeclarator_tells
  · exact .pure rfl

/-- What stands for a function with a body gives its declaration. -/
theorem declaration_tells {define : Location → Specifiers → Declarator → Parse DeclId}
    (defines : ∀ start specifiers declarator,
      Tells tokens [] (define start specifiers declarator) fun id => [id]) :
    Tells tokens [] (declaration (Rules.nested depth) define) fun ids => ids := by
  have parts : (Rules.nested depth).PartsFollow Silent := Rules.nested_parts depth
  refine .past .here fun start => .past (specifiers_follows parts) fun specifiers => ?_
  refine .past .accept fun alone => ?_
  split
  · refine .past .spanFrom fun span => ?_
    have tagOnly : Tells tokens [] (Parse.addDecl {
        name := "", storage := specifiers.storage, type := specifiers.type, span })
        fun id => [id] := by
      intro s id t _ run
      obtain ⟨rfl, rfl⟩ := add_ok run
      exact .declared (fun _ => .inl rfl) fun named => absurd rfl named
    exact tagOnly.bind fun _ => .pure rfl
  · refine .past (declarator_follows parts) fun first => .past .at? fun body => ?_
    refine .past .typeNode fun node => ?_
    split
    · exact (defines start specifiers first).bind fun _ => .pure rfl
    · refine initDeclarator_tells.bind fun decl => ?_
      have others : Tells tokens [] (Parse.many (nextDeclarator? (Rules.nested depth) start
          specifiers)) fun found => found.flatMap fun id => [id] := .many nextDeclarator?_tells
      refine (others.keep [decl] []).bind fun found => .past .expect fun _ => ?_
      exact .pure (by simp)

end SyntaxGraph.Grammar
