import SyntaxGraph.Proofs.Graph.Extension
import SyntaxGraph.Proofs.Typedef.Declaration

/-!
# Declarators build on the type of their specifiers

Stars, suffixes and what stands in parentheses each put new types on top of one that is given,
so from what a declarator answers the bases lead back to that type, through nodes that it has
made itself.  In between lengths and lists of parameters make nodes of their own, and a
structure that they define gets its members; every other node stays as it is.  So the types of
all declarators of one declaration meet in the one node that its specifiers name.
-/

set_option autoImplicit false

namespace SyntaxGraph

namespace Arenas

/-- Following the bases leads from one type to another, and no type in front of the other one
has been in the earlier arenas. -/
inductive BuiltOver (earlier a : Arenas) : TypeId → TypeId → Prop
  | base (id : TypeId) : BuiltOver earlier a id id
  | on {id next base : TypeId} {type : TypeNode} (fresh : earlier.type? id = none)
      (found : a.type? id = some type) (derived : type.kind.isDerived = true)
      (link : type.base = some next) (rest : BuiltOver earlier a next base) :
      BuiltOver earlier a id base

variable {earlier a b c : Arenas} {id type base : TypeId}

namespace BuiltOver

/-- Both arenas may be replaced: a type that is new is so among fewer types, and a type that is
there keeps its base. -/
theorem mono {before : Arenas} (start : before.ExtendsTo earlier) (grows : a.ExtendsTo b)
    (built : BuiltOver earlier a id base) : BuiltOver before b id base := by
  induction built with
  | base => exact .base _
  | @on id next base type fresh found derived link _ ih =>
      have missing : before.type? id = none := by
        refine Option.eq_none_iff_forall_ne_some.mpr fun other there => ?_
        obtain ⟨decls, later, -⟩ := start.type there
        cases fresh.symm.trans later
      obtain ⟨decls, later, -⟩ := grows.type found
      exact .on missing later derived link ih

theorem append (built : BuiltOver earlier a id type) (rest : BuiltOver earlier a type base) :
    BuiltOver earlier a id base := by
  induction built with
  | base => exact rest
  | on fresh found derived link _ ih => exact .on fresh found derived link (ih rest)

/-- What is built later is built on top. -/
theorem trans (early : a.ExtendsTo b) (late : b.ExtendsTo c) (below : BuiltOver a b type base)
    (above : BuiltOver b c id type) : BuiltOver a c id base :=
  (above.mono early (.refl c)).append (below.mono (.refl a) late)

end BuiltOver

/-- The declaration is there, with a type that is built over the base. -/
def DeclaredOver (earlier a : Arenas) (id : DeclId) (base : TypeId) : Prop :=
  ∃ decl, a.decl? id = some decl ∧ BuiltOver earlier a decl.type base

namespace DeclaredOver

variable {id : DeclId}

theorem addDecl (earlier a : Arenas) (decl : Decl) :
    DeclaredOver earlier (a.addDecl decl).2 (a.addDecl decl).1 decl.type :=
  ⟨decl, decl?_addDecl_self a decl, .base decl.type⟩

theorem mono {before : Arenas} (start : before.ExtendsTo earlier) (grows : a.ExtendsTo b)
    (declared : DeclaredOver earlier a id base) : DeclaredOver before b id base := by
  obtain ⟨decl, found, built⟩ := declared
  exact ⟨decl, grows.decl found, built.mono start grows⟩

theorem trans (early : a.ExtendsTo b) (late : b.ExtendsTo c) (below : BuiltOver a b type base)
    (declared : DeclaredOver b c id type) : DeclaredOver a c id base := by
  obtain ⟨decl, found, above⟩ := declared
  exact ⟨decl, found, below.trans early late above⟩

end DeclaredOver

end Arenas

namespace Grammar

open Token (Kind Keyword Punctuator)

/-! ## What every reading leaves alone -/

/-- No node is changed, but for the members of tagged types. -/
def KeepsNodes (s t : State) : Prop := s.arenas.ExtendsTo t.arenas

theorem KeepsNodes.plain {s t : State} (step : PlainStep s t) : KeepsNodes s t := by
  cases step with
  | addDecl decl => exact s.arenas.addDecl_extends decl
  | addType type => exact s.arenas.addType_extends type
  | addNarrowed width => exact s.arenas.addType_extends _
  | addExpr form span => exact s.arenas.addExpr_extends _
  | addBlock items span => exact s.arenas.addStmt_extends _
  | addInit init => exact s.arenas.addInit_extends init
  | addLabel label => exact s.arenas.addLabel_extends label
  | move | note | bindObject | bindTag => exact .refl _

theorem KeepsNodes.body {s t : State} {id : TypeId} (decls : List DeclId)
    (bare : s.arenas.Bare id) (inner : KeepsNodes s t) :
    KeepsNodes s { t with arenas := t.arenas.completeType id decls } := by
  refine inner.trans (t.arenas.completeType_extends (fun _ => ?_) decls)
  refine bare.tagged fun kind known => ?_
  obtain ⟨type, found, rfl⟩ := Option.map_eq_some_iff.mp known
  exact Option.map_eq_some_iff.mpr (inner.typeKind found)

instance : PermitsStatements KeepsNodes where
  refl s := .refl s.arenas
  trans := .trans
  plain := .plain
  enclosed inner := inner
  body := .body
  bindName s _ _ := .refl s.arenas
  addDeclared s _ _ := s.arenas.addStmt_extends _
  addFunction _ _ inner := inner.trans (Arenas.addDecl_extends _ _)
  addStmt s stmt _ := s.arenas.addStmt_extends stmt

/-! ## Readings that build on a type -/

/-- Where the reading ends with a value, the type in the value is built over the base. -/
def Builds {α : Type} (base : TypeId) (type : α → TypeId) (reading : Parse α) : Prop :=
  ∀ tokens s value t, reading tokens s = .ok value t →
    KeepsNodes s t ∧ Arenas.BuiltOver s.arenas t.arenas (type value) base

namespace Builds

variable {α β : Type} {base : TypeId} {type : α → TypeId} {reading : Parse α}

theorem pure {value : α} (same : type value = base) :
    Builds base type (Pure.pure value : Parse α) := by
  intro tokens s result t run
  obtain ⟨rfl, rfl⟩ := pure_ok run
  exact ⟨.refl _, same ▸ .base _⟩

theorem fail {cause : Cause} : Builds base type (Parse.fail cause : Parse α) :=
  fun _ _ _ _ run => nomatch run

theorem refuse {cause : Cause} {next : β → Parse α} :
    Builds base type (Parse.fail cause >>= next) :=
  fun _ _ _ _ run => nomatch run

theorem bind {next : α → Parse β} {last : β → TypeId} (first : Builds base type reading)
    (rest : ∀ value, Builds (type value) last (next value)) :
    Builds base last (reading >>= next) := by
  intro tokens s value t run
  obtain ⟨found, middle, ran, done⟩ := bind_ok run
  obtain ⟨early, below⟩ := first tokens s found middle ran
  obtain ⟨late, above⟩ := rest found tokens middle value t done
  exact ⟨early.trans late, below.trans early late above⟩

/-- What is read in front makes no difference. -/
theorem past {next : α → Parse β} {last : β → TypeId} (follows : Follows KeepsNodes reading)
    (rest : ∀ value, Builds base last (next value)) : Builds base last (reading >>= next) := by
  intro tokens s value t run
  obtain ⟨found, middle, ran, done⟩ := bind_ok run
  have early : KeepsNodes s middle := follows.ok ran
  obtain ⟨late, built⟩ := rest found tokens middle value t done
  exact ⟨early.trans late, built.mono early (.refl _)⟩

theorem map {change : α → β} {last : β → TypeId}
    (builds : Builds base (fun value => last (change value)) reading) :
    Builds base last (change <$> reading) :=
  builds.bind fun _ => .pure rfl

/-- A new type stands right on the base. -/
theorem addType {node : TypeNode} (derived : node.kind.isDerived = true)
    (link : node.base = some base) : Builds base id (Parse.addType node) := by
  intro tokens s value t run
  obtain ⟨rfl, rfl⟩ := add_ok run
  have fresh : s.arenas.type? (s.arenas.addType node).1 = none :=
    Array.getElem?_eq_none (Nat.le_refl _)
  exact ⟨s.arenas.addType_extends node,
    .on fresh (s.arenas.type?_addType_self node) derived link (.base base)⟩

/-- By induction on the rounds: each of them builds on what the one before has answered. -/
theorem iterate {step : TypeId → Parse (Option TypeId)}
    (each : ∀ base, Builds base (·.getD base) (step base)) (base : TypeId) :
    Builds base id (Parse.iterate step base) := by
  intro tokens s value t run
  have iterates := iterate_ok run
  clear run
  induction iterates with
  | stop round => exact each _ tokens _ none _ round
  | next round _ ih =>
      obtain ⟨early, below⟩ := each _ tokens _ (some _) _ round
      obtain ⟨late, above⟩ := ih
      exact ⟨early.trans late, below.trans early late above⟩

/-- By induction on the values: the last of them builds on the base. -/
theorem foldrM {item : α → TypeId → Parse TypeId}
    (each : ∀ value base, Builds base id (item value base)) (base : TypeId) (values : List α) :
    Builds base id (values.foldrM item base) := by
  induction values with
  | nil => exact .pure rfl
  | cons value values ih =>
      rw [List.foldrM_cons]
      exact ih.bind fun next => each value next

end Builds

/-! ## Declarators -/

variable {rules : Rules}

theorem pointers_builds (base : TypeId) : Builds base id (pointers base) := by
  refine .iterate (fun type => .past .here fun start => .past .accept fun star => ?_) base
  split
  · refine .past qualifiers_follows fun found => .past .spanFrom fun span => .map ?_
    exact .addType rfl rfl
  · exact .pure rfl

theorem suffixes_builds (follow : rules.PartsFollow KeepsNodes) (base : TypeId) :
    Builds base id (suffixes rules base) := by
  refine .past (.many (suffix?_follows follow)) fun found => ?_
  refine .foldrM (fun suffix type => ?_) base found
  cases suffix with
  | array length span => exact .addType rfl rfl
  | function parameters variadic span => exact .addType rfl rfl

theorem plainDeclarator_builds (follow : rules.PartsFollow KeepsNodes) (base : TypeId)
    (abstractOk : Bool) :
    Builds base Declarator.type (plainDeclarator rules base abstractOk) := by
  refine .past .identifier? fun name => ?_
  dsimp only
  split
  · exact .past .peek fun _ => .refuse
  · exact (suffixes_builds follow base).bind fun type => .pure rfl

variable (follow : rules.PartsFollow KeepsNodes)
  (builds : ∀ base abstractOk, Builds base Declarator.type (rules.declarator base abstractOk))

include follow builds

/-- The suffixes behind the parentheses build first, and what stands inside builds on them. -/
theorem nestedDeclarator_builds (base : TypeId) (abstractOk : Bool) :
    Builds base Declarator.type (nestedDeclarator rules base abstractOk) := by
  refine .past .position fun place => .past skipParenthesized_follows fun _ => ?_
  refine (suffixes_builds follow base).bind fun outer => .past .position fun resume => ?_
  refine .past .moveTo fun _ => (builds outer abstractOk).bind fun declarator => ?_
  exact .past .expect fun _ => .past .moveTo fun _ => .pure rfl

theorem declarator_builds (base : TypeId) (abstractOk : Bool) :
    Builds base Declarator.type (declarator rules base abstractOk) := by
  refine (pointers_builds base).bind fun type => .past atNestedDeclarator_follows fun nested => ?_
  split
  · exact nestedDeclarator_builds follow builds type abstractOk
  · exact plainDeclarator_builds follow type abstractOk

omit follow builds

theorem Rules.nested_builds (depth : Nat) (base : TypeId) (abstractOk : Bool) :
    Builds base Declarator.type ((Rules.nested depth).declarator base abstractOk) := by
  induction depth generalizing base abstractOk with
  | zero => exact .fail
  | succ depth ih => exact declarator_builds (Rules.nested_parts depth) ih base abstractOk

/-! ## Declarations -/

section Declarations

variable {tokens : Tokens} {s t : State} {start : Location} {specifiers : Specifiers}
  {declarator : Declarator} {id : DeclId}

theorem initDeclarator_declares (follow : rules.PartsFollow KeepsNodes)
    (run : initDeclarator rules start specifiers declarator tokens s = .ok id t) :
    KeepsNodes s t ∧ Arenas.DeclaredOver s.arenas t.arenas id declarator.type := by
  have keeps : KeepsNodes s t := (initDeclarator_follows follow).ok run
  obtain ⟨name, init, span, middle, -, reads, rfl, rfl⟩ := initDeclarator_ok run
  exact ⟨keeps, .addDecl s.arenas middle.arenas _⟩

theorem functionDefinition_declares (follow : rules.AllFollow KeepsNodes)
    (run : functionDefinition rules start specifiers declarator tokens s = .ok id t) :
    KeepsNodes s t ∧ Arenas.DeclaredOver s.arenas t.arenas id declarator.type := by
  have follows : Follows KeepsNodes (functionDefinition rules start specifiers declarator) :=
    fun _ _ => functionDefinition_relates follow fun _ _ inner =>
      inner.trans (Arenas.addDecl_extends _ _)
  have keeps : KeepsNodes s t := follows.ok run
  obtain ⟨name, body, span, middle, -, reads, rfl, rfl⟩ := functionDefinition_ok run
  exact ⟨keeps, .addDecl s.arenas middle.arenas _⟩

variable (follow : rules.PartsFollow KeepsNodes)
  (builds : ∀ base abstractOk, Builds base Declarator.type (rules.declarator base abstractOk))

include follow builds

/-- What a comma introduces is declared over the type of the specifiers too. -/
theorem nextDeclarator?_declares
    (run : nextDeclarator? rules start specifiers tokens s = .ok (some id) t) :
    KeepsNodes s t ∧ Arenas.DeclaredOver s.arenas t.arenas id specifiers.type := by
  obtain ⟨-, run⟩ | ⟨-, run⟩ := accept_then (by simp) run
  · obtain ⟨next, middle, reads, run⟩ := bind_ok run
    obtain ⟨early, below⟩ := declarator_builds follow builds _ _ _ _ _ _ reads
    obtain ⟨made, run, same⟩ := map_ok run
    cases same
    obtain ⟨late, declared⟩ := initDeclarator_declares follow run
    exact ⟨early.trans late, .trans early late below declared⟩
  · cases (pure_ok run).1

/-- By induction on the items: what is declared stays declared while the others are read. -/
theorem nextDeclarators_declare {ids : List DeclId}
    (collects : Collects tokens (nextDeclarator? rules start specifiers) s ids t) :
    KeepsNodes s t ∧ ∀ id ∈ ids, Arenas.DeclaredOver s.arenas t.arenas id specifiers.type := by
  induction collects with
  | stop last => exact ⟨(nextDeclarator?_follows follow).ok last, nofun⟩
  | next one _ ih =>
      obtain ⟨early, first⟩ := nextDeclarator?_declares follow builds one
      obtain ⟨late, others⟩ := ih
      refine ⟨early.trans late, List.forall_mem_cons.mpr ⟨first.mono (.refl _) late, ?_⟩⟩
      exact fun id member => (others id member).mono early (.refl _)

/-- Whatever a declaration declares is declared over the type of its specifiers. -/
theorem declaration_declares
    {define : Location → Specifiers → Declarator → Parse DeclId}
    (defines : ∀ {start specifiers declarator s id t},
      define start specifiers declarator tokens s = .ok id t →
        KeepsNodes s t ∧ Arenas.DeclaredOver s.arenas t.arenas id declarator.type)
    {ids : List DeclId} (run : declaration rules define tokens s = .ok ids t) :
    ∃ named middle, Grammar.specifiers rules tokens s = .ok named middle ∧
      ∀ id ∈ ids, Arenas.DeclaredOver middle.arenas t.arenas id named.type := by
  obtain ⟨start, run⟩ := look_then here_observes run
  obtain ⟨named, middle, names, run⟩ := bind_ok run
  refine ⟨named, middle, names, ?_⟩
  obtain ⟨alone, opened, accepts, run⟩ := bind_ok run
  have taken : KeepsNodes middle opened := Follows.accept.ok accepts
  split at run
  · obtain ⟨span, run⟩ := look_then spanFrom_observes run
    obtain ⟨tagOnly, added, adds, run⟩ := bind_ok run
    obtain ⟨rfl, rfl⟩ := add_ok adds
    obtain ⟨rfl, rfl⟩ := pure_ok run
    refine List.forall_mem_singleton.mpr ?_
    exact .addDecl middle.arenas opened.arenas _
  · obtain ⟨first, built, reads, run⟩ := bind_ok run
    obtain ⟨early, below⟩ := declarator_builds follow builds _ _ _ _ _ _ reads
    obtain ⟨body, run⟩ := look_then at?_observes run
    obtain ⟨node, run⟩ := look_then typeNode_observes run
    split at run
    · obtain ⟨id, defined, defining, run⟩ := bind_ok run
      obtain ⟨rfl, rfl⟩ := pure_ok run
      obtain ⟨late, declared⟩ := defines defining
      refine List.forall_mem_singleton.mpr ?_
      exact .mono taken (.refl _) (.trans early late below declared)
    · obtain ⟨id, made, makes, run⟩ := bind_ok run
      obtain ⟨late, declared⟩ := initDeclarator_declares follow makes
      obtain ⟨others, collected, collects, run⟩ := bind_ok run
      obtain ⟨rest, declareds⟩ := nextDeclarators_declare follow builds (many_ok collects)
      obtain ⟨_, closed, expects, run⟩ := bind_ok run
      have last : KeepsNodes collected closed := Follows.expect.ok expects
      obtain ⟨rfl, rfl⟩ := pure_ok run
      refine List.forall_mem_cons.mpr ⟨?_, fun other member => ?_⟩
      · exact .mono taken (rest.trans last) (.trans early late below declared)
      · exact (declareds other member).mono (taken.trans (early.trans late)) last

end Declarations

/-- What a declarator answers is built over the type that it is given, of new pointers, arrays
and functions only, and nothing else is changed but the members of tagged types; so all that a
declaration in a file or in a block declares is built over the one type of its specifiers. -/
theorem declarators_share (tokens : Tokens) (depth : Nat) :
    (∀ s base abstractOk found t,
      declarator (Rules.nested depth) base abstractOk tokens s = .ok found t →
        Arenas.BuiltOver s.arenas t.arenas found.type base ∧ s.arenas.ExtendsTo t.arenas) ∧
    ∀ s define ids t,
      (define = functionDefinition (Rules.nested depth) ∨
        define = fun _ _ _ => Parse.fail .nestedFunction) →
      declaration (Rules.nested depth) define tokens s = .ok ids t →
        ∃ named middle, specifiers (Rules.nested depth) tokens s = .ok named middle ∧
          ∀ id ∈ ids, Arenas.DeclaredOver middle.arenas t.arenas id named.type := by
  have parts : (Rules.nested depth).PartsFollow KeepsNodes := Rules.nested_parts depth
  have builds := Rules.nested_builds depth
  constructor
  · intro s base abstractOk found t run
    exact (declarator_builds parts builds base abstractOk tokens s found t run).symm
  · rintro s define ids t (rfl | rfl) run
    · exact declaration_declares parts builds
        (functionDefinition_declares (Rules.nested_follow depth)) run
    · exact declaration_declares parts builds (fun refused => by cases refused) run

/-- A name by itself, a pointer, an array, and a pointer to a function. -/
def sharedTokens : Tokens :=
  (Token.Reading.ofSource "int a, *b, c[4], (*f)(int);").tokens.toArray

/-- The last declarator is read over a type that is there. -/
theorem declarators_share_sharedTokens :
    (∃ s found t, s.position = 11 ∧ s.arenas.types.size = 1 ∧
      declarator (Rules.nested 20) ⟨0⟩ false sharedTokens s = .ok found t ∧
      found.name = some "f" ∧ found.type = ⟨3⟩ ∧
      Arenas.BuiltOver s.arenas t.arenas ⟨3⟩ ⟨0⟩ ∧ s.arenas.ExtendsTo t.arenas) ∧
    ∃ a b c f t named middle,
      declaration (Rules.nested 20) (functionDefinition (Rules.nested 20)) sharedTokens {} =
        .ok [a, b, c, f] t ∧
      [a, b, c, f].map (fun id => (t.arenas.decl? id).map Decl.type) =
        [some ⟨0⟩, some ⟨1⟩, some ⟨2⟩, some ⟨5⟩] ∧
      specifiers (Rules.nested 20) sharedTokens {} = .ok named middle ∧
      ∀ id ∈ [a, b, c, f], Arenas.DeclaredOver middle.arenas t.arenas id named.type := by
  let start : State :=
    { position := 11, arenas := { types := #[.basic .int (.point .origin)] } }
  have one : seenAtEnd? (fun found _ => (found.name, found.type))
      (declarator (Rules.nested 20) ⟨0⟩ false sharedTokens start) = some (some "f", ⟨3⟩) := by
    decide +kernel
  have all : seenAtEnd?
      (fun ids t => (ids, ids.map fun id => (t.arenas.decl? id).map Decl.type))
      (declaration (Rules.nested 20) (functionDefinition (Rules.nested 20)) sharedTokens {}) =
      some ([⟨0⟩, ⟨1⟩, ⟨2⟩, ⟨4⟩], [some ⟨0⟩, some ⟨1⟩, some ⟨2⟩, some ⟨5⟩]) := by
    decide +kernel
  obtain ⟨found, t, run, seen⟩ := ok_of_seenAtEnd? one
  obtain ⟨name, type⟩ := Prod.mk.inj seen
  obtain ⟨built, grows⟩ :=
    (declarators_share sharedTokens 20).1 start ⟨0⟩ false found t run
  obtain ⟨ids, last, declares, seen⟩ := ok_of_seenAtEnd? all
  obtain ⟨rfl, types⟩ := Prod.mk.inj seen
  obtain ⟨named, middle, names, shared⟩ :=
    (declarators_share sharedTokens 20).2 {} _ _ last (.inl rfl) declares
  exact ⟨⟨start, found, t, rfl, rfl, run, name, type, type ▸ built, grows⟩,
    _, _, _, _, last, named, middle, declares, types, names, shared⟩

end Grammar

end SyntaxGraph
