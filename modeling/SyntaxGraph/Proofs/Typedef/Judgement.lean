import SyntaxGraph.Proofs.Course.TranslationUnit
import SyntaxGraph.Proofs.Typedef.Chronicle

/-!
# Readings with an orderly chronicle

A declaration of which note is taken goes to the caller, who puts it into a statement or
into the program.  `Tells` says of a reading that where it ends with a value it has an
orderly chronicle, in which every declaration of a name is noted with the scopes in which it
has been made, and that what has been declared or handed to the reading is what it hands on
or has put into statements.  Most of the grammar declares nothing and puts nothing into
statements, and binds no name but that of an object.
-/

set_option autoImplicit false

namespace SyntaxGraph.Grammar

open Token (Kind Punctuator)

def Event.declared? : Event → Option DeclId
  | .bound _ _ _ => none
  | .declared id _ _ => some id

theorem mem_declared_iff {events : List Event} {id : DeclId} :
    id ∈ events.filterMap Event.declared? ↔ ∃ decl scopes, .declared id decl scopes ∈ events := by
  refine List.mem_filterMap.trans ⟨?_, ?_⟩
  · rintro ⟨event, noted, same⟩
    cases event with
    | bound name kind next => cases same
    | declared other decl scopes =>
        obtain rfl := Option.some.inj same
        exact ⟨decl, scopes, noted⟩
  · rintro ⟨decl, scopes, noted⟩
    exact ⟨_, noted, rfl⟩

/-- An orderly chronicle, while statements with certain declarations have been added. -/
structure Chronicled (s t : State) (events : List Event) (placed : List DeclId) : Prop where
  chronicle : Chronicle s events t
  orderly : Orderly events
  placed : ∃ stmts, t.arenas.stmts.toList = s.arenas.stmts.toList ++ stmts ∧
    stmts.filterMap Stmt.decl = placed

namespace Chronicled

variable {s middle t : State} {events others : List Event} {placed more : List DeclId}

theorem append (first : Chronicled s middle events placed)
    (rest : Chronicled middle t others more) :
    Chronicled s t (events ++ others) (placed ++ more) where
  chronicle := first.chronicle.append rest.chronicle
  orderly := first.orderly.append rest.orderly
  placed := by
    obtain ⟨earlier, early, rfl⟩ := first.placed
    obtain ⟨later, late, rfl⟩ := rest.placed
    exact ⟨earlier ++ later, by rw [late, early, List.append_assoc], List.filterMap_append⟩

/-- A step that is not noted and adds no statement. -/
theorem step (first : Step s t) (names : t.scopes.map Scope.names = s.scopes.map Scope.names)
    (bindings : t.bindings = s.bindings)
    (stmts : t.arenas.stmts = s.arenas.stmts) : Chronicled s t [] [] where
  chronicle := .step first names bindings (.done t)
  orderly := .nil
  placed := ⟨[], by rw [stmts, List.append_nil], rfl⟩

theorem addStmt (s : State) (stmt : Stmt) :
    Chronicled s { s with arenas := (s.arenas.addStmt stmt).2 } [] stmt.decl.toList where
  chronicle := .step (.addStmt s stmt) rfl rfl (.done _)
  orderly := .nil
  placed := ⟨[stmt], Array.toList_push, by cases h : stmt.decl <;> simp [h]⟩

theorem bindObject (s : State) (name : String) :
    Chronicled s (s.bindName name .object) [.bound name .object s.arenas.nextDecl] [] where
  chronicle := .bound name .object (.done _)
  orderly := .object name s.arenas.nextDecl .nil
  placed := ⟨[], (List.append_nil _).symm, rfl⟩

/-- What is done in a scope of its own is done without it. -/
theorem enclosed (inner : Chronicled { s with scopes := {} :: s.scopes } t events placed) :
    Chronicled s { t with scopes := t.scopes.tail } events placed where
  chronicle := by
    rw [← List.append_nil events]
    exact .enclosed inner.chronicle (.done _)
  orderly := inner.orderly
  placed := inner.placed

theorem body {id : TypeId} (decls : List DeclId) (bare : s.arenas.Bare id)
    (inner : Chronicled s t events placed) :
    Chronicled s { t with arenas := t.arenas.completeType id decls } events placed where
  chronicle := by
    rw [← List.append_nil events]
    exact .body decls bare inner.chronicle (.done _)
  orderly := inner.orderly
  placed := inner.placed

theorem standing (chronicled : Chronicled s t events placed) (standing : s.scopes ≠ []) :
    t.scopes ≠ [] := by
  have same := chronicled.chronicle.course.frames.length_eq
  exact List.ne_nil_of_length_pos (same ▸ List.length_pos_of_ne_nil standing)

end Chronicled

/-! ## Readings that declare nothing -/

/-- Nothing is declared, and nothing is put into statements. -/
def Silent (s t : State) : Prop :=
  ∃ events, Chronicled s t events [] ∧ events.filterMap Event.declared? = []

theorem Scopes.bindTag_names (scopes : Scopes) (tag : String) (id : TypeId) :
    (scopes.bindTag tag id).map Scope.names = scopes.map Scope.names := by
  cases scopes <;> rfl

instance : Permits Silent where
  refl s := ⟨[], ⟨.done s, .nil, [], (List.append_nil _).symm, rfl⟩, rfl⟩
  trans first rest := by
    obtain ⟨events, before, none⟩ := first
    obtain ⟨others, behind, noneBehind⟩ := rest
    refine ⟨events ++ others, before.append behind, ?_⟩
    rw [List.filterMap_append, none, noneBehind, List.append_nil]
  plain step := by
    cases step with
    | addBlock items span => exact ⟨[], .addStmt _ _, rfl⟩
    | bindObject name => exact ⟨_, .bindObject _ name, rfl⟩
    | bindTag tag id fresh bears =>
        exact ⟨[], .step (.bindTag _ tag id fresh bears) (Scopes.bindTag_names _ tag id) rfl rfl,
          rfl⟩
    | move position => exact ⟨[], .step (.move _ position) rfl rfl rfl, rfl⟩
    | note id earlier => exact ⟨[], .step (.note _ id earlier) rfl rfl rfl, rfl⟩
    | addDecl decl => exact ⟨[], .step (.addDecl _ decl) rfl rfl rfl, rfl⟩
    | addType type => exact ⟨[], .step (.addType _ type) rfl rfl rfl, rfl⟩
    | addNarrowed width => exact ⟨[], .step (.addType _ _) rfl rfl rfl, rfl⟩
    | addExpr form span => exact ⟨[], .step (.addExpr _ _) rfl rfl rfl, rfl⟩
    | addInit init => exact ⟨[], .step (.addInit _ init) rfl rfl rfl, rfl⟩
    | addLabel label => exact ⟨[], .step (.addLabel _ label) rfl rfl rfl, rfl⟩
  enclosed inner := by
    obtain ⟨events, inside, none⟩ := inner
    exact ⟨events, inside.enclosed, none⟩
  body decls bare inner := by
    obtain ⟨events, inside, none⟩ := inner
    exact ⟨events, inside.body decls bare, none⟩

instance : PermitsComments Silent where
  modifyComments s id change := ⟨[], .step (.modifyComments s id change) rfl rfl rfl, rfl⟩

/-! ## Declarations that are made -/

/-- A reading has ended with the declaration of a name, which it has made last. -/
inductive Creates (tokens : Tokens) (id : DeclId) (t : State) : Prop
  | declarator {depth : Nat} {start : Location} {specifiers : Specifiers}
      {declarator : Declarator} {s : State} (standing : s.scopes ≠ [])
      (run : initDeclarator (Rules.nested depth) start specifiers declarator tokens s = .ok id t)
  | definition {depth : Nat} {start : Location} {specifiers : Specifiers}
      {declarator : Declarator} {s : State} (standing : s.scopes ≠ [])
      (run : functionDefinition (Rules.nested depth) start specifiers declarator tokens s =
        .ok id t)

/-- Every declaration with a name has been made in the scopes with which it is noted. -/
def Made (tokens : Tokens) (events : List Event) : Prop :=
  ∀ id decl scopes, .declared id decl scopes ∈ events → decl.name ≠ "" →
    ∃ t, Creates tokens id t ∧ t.scopes = scopes ∧ t.arenas.decl? id = some decl

/-- From one state to another there is an orderly chronicle, and what is used or declared is
given or put into statements. -/
def Accounts (tokens : Tokens) (uses : List DeclId) (s t : State) (gives : List DeclId) : Prop :=
  ∃ events placed, Chronicled s t events placed ∧ Made tokens events ∧
    ∀ id, id ∈ uses ∨ id ∈ events.filterMap Event.declared? ↔ id ∈ gives ∨ id ∈ placed

namespace Accounts

variable {tokens : Tokens} {s middle t : State} {uses between gives : List DeclId}

theorem trans (first : Accounts tokens uses s middle between)
    (rest : Accounts tokens between middle t gives) : Accounts tokens uses s t gives := by
  obtain ⟨events, placed, chronicled, made, origin⟩ := first
  obtain ⟨others, more, chronicledRest, madeRest, originRest⟩ := rest
  refine ⟨events ++ others, placed ++ more, chronicled.append chronicledRest, ?_, fun id => ?_⟩
  · intro id decl scopes noted named
    rcases List.mem_append.mp noted with early | late
    · exact made id decl scopes early named
    · exact madeRest id decl scopes late named
  · have before := origin id
    have behind := originRest id
    simp only [List.filterMap_append, List.mem_append]
    rw [← or_assoc, before, or_right_comm, behind, or_right_comm, or_assoc]

/-- What else is used is given too. -/
theorem keep (before behind : List DeclId) (accounts : Accounts tokens uses s t gives) :
    Accounts tokens (before ++ uses ++ behind) s t (before ++ gives ++ behind) := by
  obtain ⟨events, placed, chronicled, made, origin⟩ := accounts
  refine ⟨events, placed, chronicled, made, fun id => ?_⟩
  have same := origin id
  simp only [List.mem_append]
  grind

theorem of_silent (silent : Silent s t) : Accounts tokens uses s t uses := by
  obtain ⟨events, chronicled, none⟩ := silent
  refine ⟨events, [], chronicled, fun id decl scopes noted _ => ?_, by simp [none]⟩
  have declared := mem_declared_iff.mpr ⟨decl, scopes, noted⟩
  rw [none] at declared
  cases declared

theorem standing (accounts : Accounts tokens uses s t gives) (standing : s.scopes ≠ []) :
    t.scopes ≠ [] := by
  obtain ⟨events, placed, chronicled, -⟩ := accounts
  exact chronicled.standing standing

end Accounts

/-- Where there is a scope and the reading ends with a value, it gives account. -/
def Tells {α : Type} (tokens : Tokens) (uses : List DeclId) (reading : Parse α)
    (gives : α → List DeclId) : Prop :=
  ∀ s value t, s.scopes ≠ [] → reading tokens s = .ok value t →
    Accounts tokens uses s t (gives value)

namespace Tells

variable {α β : Type} {tokens : Tokens} {uses : List DeclId} {gives : α → List DeclId}
  {reading : Parse α}

theorem bind {next : α → Parse β} {after : β → List DeclId}
    (first : Tells tokens uses reading gives)
    (rest : ∀ value, Tells tokens (gives value) (next value) after) :
    Tells tokens uses (reading >>= next) after := by
  intro s value t standing run
  obtain ⟨found, middle, ran, done⟩ := bind_ok run
  have early := first s found middle standing ran
  exact early.trans (rest found middle value t (early.standing standing) done)

/-- In front of it nothing is declared. -/
theorem past {next : α → Parse β} {after : β → List DeclId} (silent : Follows Silent reading)
    (rest : ∀ value, Tells tokens uses (next value) after) :
    Tells tokens uses (reading >>= next) after := by
  have first : Tells tokens uses reading fun _ => uses :=
    fun _ _ _ _ ran => .of_silent (silent.ok ran)
  exact first.bind rest

theorem pure {value : α} (same : uses = gives value) :
    Tells tokens uses (Pure.pure value) gives := by
  intro s result t _ run
  obtain ⟨rfl, rfl⟩ := pure_ok run
  exact same ▸ .of_silent (Permits.refl _)

theorem fail {cause : Cause} : Tells tokens uses (Parse.fail cause : Parse α) gives :=
  fun _ _ _ _ run => nomatch run

theorem refuse {cause : Cause} {next : β → Parse α} :
    Tells tokens uses (Parse.fail cause >>= next) gives :=
  fun _ _ _ _ run => nomatch run

theorem map {change : α → β} {after : β → List DeclId}
    (tells : Tells tokens uses reading fun value => after (change value)) :
    Tells tokens uses (change <$> reading) after :=
  bind tells fun _ => pure rfl

theorem keep (before behind : List DeclId) (tells : Tells tokens uses reading gives) :
    Tells tokens (before ++ uses ++ behind) reading fun value => before ++ gives value ++ behind :=
  fun s value t standing run => (tells s value t standing run).keep before behind

theorem inScope (tells : Tells tokens uses reading gives) :
    Tells tokens uses (Parse.inScope reading) gives := by
  intro s value t _ run
  obtain ⟨middle, ran, rfl⟩ := inScope_ok run
  obtain ⟨events, placed, chronicled, told⟩ :=
    tells { s with scopes := {} :: s.scopes } value middle (List.cons_ne_nil _ _) ran
  exact ⟨events, placed, chronicled.enclosed, told⟩

/-- The items of a repetition give together what each of them gives. -/
theorem many {item : Parse (Option α)} (each : Tells tokens [] item (·.elim [] gives)) :
    Tells tokens [] (Parse.many item) fun found => found.flatMap gives := by
  intro s found t standing run
  have collects := many_ok run
  clear run
  -- What the first item gives is kept while the others are read.
  induction collects with
  | stop last => exact each _ none _ standing last
  | @next _ _ _ first _ one _ ih =>
      have early := each _ (some first) _ standing one
      have late := (ih (early.standing standing)).keep (gives first) []
      simp only [List.append_nil] at late
      exact early.trans late

/-- What is used one by one. -/
theorem mapM {action : DeclId → Parse β} (each : ∀ id, Tells tokens [id] (action id) fun _ => [])
    (ids : List DeclId) : Tells tokens ids (ids.mapM action) fun _ => [] := by
  induction ids with
  | nil => exact pure rfl
  | cons id ids ih =>
      rw [List.mapM_cons]
      have first : Tells tokens (id :: ids) (action id) fun _ => ids := (each id).keep [] ids
      exact first.bind fun _ => ih.bind fun _ => pure rfl

end Tells

end SyntaxGraph.Grammar
