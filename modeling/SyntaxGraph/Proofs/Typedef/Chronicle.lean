import SyntaxGraph.Proofs.Graph.Annotation
import SyntaxGraph.Proofs.Scope.Discipline

/-!
# What reading does to names and declarations

A chronicle is a course on which it is noted when a name is bound, and when a declaration is
made that stands in the file, in a block or in a `for` statement; with a declaration it is
noted which scopes there are when it is made.  Parameters, members and enumerators are
declarations of which no note is taken.  The names that are bound on a chronicle are those
that the log of the reading tells, so that nothing is left to whoever writes the chronicle.

A chronicle is orderly if no name is bound as that of a type but for a `typedef` without an
initializer and a body, which is made at once, and if each such `typedef` is made so.
-/

set_option autoImplicit false

namespace SyntaxGraph.Grammar

/-- Something that is noted in a chronicle. -/
inductive Event
  | bound (name : String) (kind : NameKind) (next : DeclId)
  | declared (id : DeclId) (decl : Decl) (scopes : Scopes)

def Event.isBinding : Event → Bool
  | .bound _ _ _ => true
  | .declared _ _ _ => false

def Entry.binding? : Entry → Option Event
  | .bound name kind next => some (.bound name kind next)
  | .completed _ _ => none

/-- The bindings that the log tells of, the last one first. -/
def State.bindings (s : State) : List Event := s.log.filterMap Entry.binding?

theorem State.mem_bindings {s : State} {name : String} {kind : NameKind} {next : DeclId} :
    .bound name kind next ∈ s.bindings ↔ .bound name kind next ∈ s.log := by
  refine List.mem_filterMap.trans ⟨fun ⟨entry, noted, same⟩ => ?_, fun noted => ⟨_, noted, rfl⟩⟩
  cases entry with
  | bound =>
      cases same
      exact noted
  | completed => cases same

/-- A course with notes: a step that is not noted leaves the names of all scopes, and no name
is bound by it. -/
inductive Chronicle : State → List Event → State → Prop
  | done (s : State) : Chronicle s [] s
  | step {s middle t : State} {events : List Event} (first : Step s middle)
      (names : middle.scopes.map Scope.names = s.scopes.map Scope.names)
      (bindings : middle.bindings = s.bindings)
      (rest : Chronicle middle events t) : Chronicle s events t
  | bound {s t : State} {events : List Event} (name : String) (kind : NameKind)
      (rest : Chronicle (s.bindName name kind) events t) :
      Chronicle s (.bound name kind s.arenas.nextDecl :: events) t
  | declared {s t : State} {events : List Event} (decl : Decl)
      (rest : Chronicle { s with arenas := (s.arenas.addDecl decl).2 } events t) :
      Chronicle s (.declared (s.arenas.addDecl decl).1 decl s.scopes :: events) t
  | enclosed {s middle t : State} {inside events : List Event}
      (inner : Chronicle { s with scopes := {} :: s.scopes } inside middle)
      (rest : Chronicle { middle with scopes := middle.scopes.tail } events t) :
      Chronicle s (inside ++ events) t
  | body {s middle t : State} {inside events : List Event} {id : TypeId} (decls : List DeclId)
      (bare : s.arenas.Bare id) (inner : Chronicle s inside middle)
      (rest : Chronicle { middle with arenas := middle.arenas.completeType id decls } events t) :
      Chronicle s (inside ++ events) t

variable {s middle t : State} {events others : List Event}

namespace Chronicle

theorem append (first : Chronicle s events middle) (rest : Chronicle middle others t) :
    Chronicle s (events ++ others) t := by
  induction first with
  | done => exact rest
  | step first names bindings _ ih => exact .step first names bindings (ih rest)
  | bound name kind _ ih => exact .bound name kind (ih rest)
  | declared decl _ ih => exact .declared decl (ih rest)
  | enclosed inner _ _ ih =>
      rw [List.append_assoc]
      exact .enclosed inner (ih rest)
  | body decls bare inner _ _ ih =>
      rw [List.append_assoc]
      exact .body decls bare inner (ih rest)

theorem course (chronicle : Chronicle s events t) : Course s t := by
  induction chronicle with
  | done s => exact .done s
  | step first _ _ _ ih => exact .step first ih
  | bound name kind _ ih => exact .step (.bindName _ name kind) ih
  | declared decl _ ih => exact .step (.addDecl _ decl) ih
  | enclosed _ _ inner ih => exact .enclosed inner ih
  | body decls bare _ _ inner ih => exact .body decls bare inner ih

/-- The log tells of the bindings on the chronicle, and of no others. -/
theorem bindings (chronicle : Chronicle s events t) :
    t.bindings = (events.filter Event.isBinding).reverse ++ s.bindings := by
  have outside (s : State) (scopes : Scopes) : State.bindings { s with scopes } = s.bindings :=
    rfl
  have completed (s : State) (id : TypeId) (decls : List DeclId) :
      State.bindings { s with arenas := s.arenas.completeType id decls } = s.bindings := rfl
  induction chronicle with
  | done => rfl
  | step _ _ bindings _ ih => rw [ih, bindings]
  | @bound s _ _ name kind _ ih =>
      have noted : (s.bindName name kind).bindings =
          .bound name kind s.arenas.nextDecl :: s.bindings := rfl
      simp [ih, noted, List.filter_cons, Event.isBinding]
  | @declared s _ _ decl _ ih =>
      have same : State.bindings { s with arenas := (s.arenas.addDecl decl).2 } = s.bindings :=
        rfl
      simp [ih, same, Event.isBinding]
  | enclosed _ _ inner ih => simp [ih, outside, inner, List.filter_append]
  | body decls _ _ _ inner ih => simp [ih, completed, inner, List.filter_append]

/-- With an empty log at first, what the log tells of is what has been noted. -/
theorem mem_log (chronicle : Chronicle {} events t) {name : String} {kind : NameKind}
    {next : DeclId} : .bound name kind next ∈ t.log ↔ .bound name kind next ∈ events := by
  have noted : t.bindings = (events.filter Event.isBinding).reverse :=
    chronicle.bindings.trans (List.append_nil _)
  rw [← State.mem_bindings, noted, List.mem_reverse, List.mem_filter]
  exact and_iff_left rfl

end Chronicle

/-! ## Declarations stay -/

/-- Nothing but the comments of a declaration that is there changes. -/
theorem Step.decl?_plain (step : Step s t) {id : DeclId} {decl : Decl}
    (known : (s.arenas.decl? id).map Decl.plain = some decl) :
    (t.arenas.decl? id).map Decl.plain = some decl := by
  cases step with
  | addDecl other =>
      obtain ⟨node, found, same⟩ := Option.map_eq_some_iff.mp known
      exact Option.map_eq_some_iff.mpr ⟨node, (s.arenas.addDecl_extends other).decl found, same⟩
  | modifyComments other change =>
      change ((s.arenas.modifyComments other change).decl? id).map Decl.plain = some decl
      rwa [← Arenas.plain_decl?, Arenas.plain_modifyComments, Arenas.plain_decl?]
  | _ => exact known

theorem Course.decl?_plain (course : Course s t) {id : DeclId} {decl : Decl}
    (known : (s.arenas.decl? id).map Decl.plain = some decl) :
    (t.arenas.decl? id).map Decl.plain = some decl := by
  induction course with
  | done => exact known
  | step first _ ih => exact ih (first.decl?_plain known)
  | enclosed _ _ inner rest => exact rest (inner known)
  | body _ _ _ _ inner rest => exact rest (inner known)

/-- A declaration that is noted is there at the end. -/
theorem Chronicle.decl?_plain (chronicle : Chronicle s events t) {id : DeclId} {decl : Decl}
    {scopes : Scopes} (noted : .declared id decl scopes ∈ events) :
    (t.arenas.decl? id).map Decl.plain = some decl.plain := by
  induction chronicle with
  | done => cases noted
  | step _ _ _ _ ih => exact ih noted
  | bound name kind _ ih =>
      rcases List.mem_cons.mp noted with same | later
      · cases same
      · exact ih later
  | declared other rest ih =>
      rcases List.mem_cons.mp noted with same | later
      · cases same
        exact rest.course.decl?_plain (congrArg _ (Arenas.decl?_addDecl_self _ decl))
      · exact ih later
  | enclosed _ rest innerIh restIh =>
      rcases List.mem_append.mp noted with inside | later
      · exact rest.course.decl?_plain (innerIh inside)
      · exact restIh later
  | body decls _ _ rest innerIh restIh =>
      rcases List.mem_append.mp noted with inside | later
      · exact rest.course.decl?_plain (innerIh inside)
      · exact restIh later

/-! ## Order -/

namespace Scopes

/-- What the innermost scope itself has a name as. -/
def innerName? (scopes : Scopes) (name : String) : Option NameKind :=
  scopes.head?.bind fun scope => scope.names.lookup name

theorem innerName?_bindName {scopes : Scopes} {name : String} (standing : scopes ≠ [])
    (named : name ≠ "") (kind : NameKind) :
    (scopes.bindName name kind).innerName? name = some kind := by
  have full : ¬ name.isEmpty = true := fun empty => named (String.isEmpty_iff.mp empty)
  obtain ⟨inner, outer, rfl⟩ := List.exists_cons_of_ne_nil standing
  rw [bindName, if_neg full]
  exact List.lookup_cons_self

end Scopes

/-- The declaration is no `typedef`, or has no name, or is a function with a body. -/
def BindsNoType (decl : Decl) : Prop :=
  decl.isTypedef = true → decl.name = "" ∨ decl.body.isSome = true

/-- Where a name is bound as that of a type, a `typedef` of this name without an initializer
and a body is made next, and no other `typedef` is made but one that binds no type. -/
inductive Orderly : List Event → Prop
  | nil : Orderly []
  | object (name : String) (next : DeclId) {events : List Event} (rest : Orderly events) :
    Orderly (.bound name .object next :: events)
  | typedef {id : DeclId} {decl : Decl} {scopes : Scopes} {events : List Event}
      (isTypedef : decl.isTypedef = true) (noInit : decl.init = none) (noBody : decl.body = none)
      (rest : Orderly events) :
      Orderly (.bound decl.name .typedef id :: .declared id decl scopes :: events)
  | declared (id : DeclId) {decl : Decl} (scopes : Scopes) {events : List Event}
      (untyped : BindsNoType decl) (rest : Orderly events) :
      Orderly (.declared id decl scopes :: events)

namespace Orderly

theorem append (first : Orderly events) (rest : Orderly others) : Orderly (events ++ others) := by
  induction first with
  | nil => exact rest
  | object name next _ ih => exact .object name next ih
  | typedef isTypedef noInit noBody _ ih => exact .typedef isTypedef noInit noBody ih
  | declared id scopes untyped _ ih => exact .declared id scopes untyped ih

theorem of_bound (orderly : Orderly events) {before after : List Event} {name : String}
    {next : DeclId} (split : events = before ++ .bound name .typedef next :: after) :
    ∃ decl scopes rest, after = .declared next decl scopes :: rest ∧ decl.isTypedef = true ∧
      decl.name = name ∧ decl.init = none ∧ decl.body = none := by
  induction orderly generalizing before with
  | nil => simp at split
  | object _ _ _ ih =>
      obtain ⟨-, same⟩ | ⟨earlier, -, split⟩ := List.cons_eq_append_iff.mp split
      · cases same
      · exact ih split
  | typedef isTypedef noInit noBody _ ih =>
      obtain ⟨-, same⟩ | ⟨earlier, -, split⟩ := List.cons_eq_append_iff.mp split
      · cases same
        exact ⟨_, _, _, rfl, isTypedef, rfl, noInit, noBody⟩
      · obtain ⟨-, same⟩ | ⟨earlier, -, split⟩ := List.cons_eq_append_iff.mp split
        · cases same
        · exact ih split
  | declared _ _ _ _ ih =>
      obtain ⟨-, same⟩ | ⟨earlier, -, split⟩ := List.cons_eq_append_iff.mp split
      · cases same
      · exact ih split

theorem bound_of_declared (orderly : Orderly events) {id : DeclId} {decl : Decl}
    {scopes : Scopes} (noted : .declared id decl scopes ∈ events)
    (isTypedef : decl.isTypedef = true) (named : decl.name ≠ "") (noBody : decl.body = none) :
    .bound decl.name .typedef id ∈ events := by
  induction orderly with
  | nil => cases noted
  | object _ _ _ ih =>
      rcases List.mem_cons.mp noted with same | later
      · cases same
      · exact List.mem_cons_of_mem _ (ih later)
  | typedef _ _ _ _ ih =>
      rcases List.mem_cons.mp noted with same | later
      · cases same
      rcases List.mem_cons.mp later with same | later
      · cases same
        exact List.mem_cons_self
      · exact List.mem_cons_of_mem _ (List.mem_cons_of_mem _ (ih later))
  | declared _ _ untyped _ ih =>
      rcases List.mem_cons.mp noted with same | later
      · cases same
        rcases untyped isTypedef with unnamed | body
        · exact absurd unnamed named
        · simp [noBody] at body
      · exact List.mem_cons_of_mem _ (ih later)

end Orderly

end SyntaxGraph.Grammar
