import SyntaxGraph.Proofs.Course.TranslationUnit
import SyntaxGraph.Proofs.Program.Fresh

/-!
# The nodes of a program fit their kinds

Every step of a reading makes nodes that fit, and the end of a body gives declarations to a
type that has been tagged since before the body was read.  So the nodes of a program that has
been read all fit their kinds, and nothing is resolved in them yet.
-/

set_option autoImplicit false

namespace SyntaxGraph

namespace Grammar

/-- Where the nodes fit at first, they do in the end. -/
structure KeepsFit (s t : State) : Prop where
  course : Course s t
  fit : s.arenas.Fit → t.arenas.Fit

namespace KeepsFit

theorem plain {s t : State} (step : PlainStep s t) : KeepsFit s t where
  course := step.step.course
  fit fit := by
    cases step with
    | addDecl decl bodiless => exact fit.addDecl (Decl.fits_of_bodiless bodiless)
    | addType type fits => exact fit.addType fits
    | addNarrowed width found integer =>
        exact fit.addType ((fit.types _ (Array.mem_of_getElem? found)).narrowed integer width)
    | addExpr form span fits => exact fit.addExpr (Expr.fits_of_form fits span)
    | addBlock items span => exact fit.addStmt trivial
    | addInit init => exact fit.addInit init
    | addLabel label => exact fit.addLabel label
    | move | note | bindObject | bindTag => exact fit

theorem body {s t : State} {id : TypeId} (decls : List DeclId) (bare : s.arenas.Bare id)
    (inner : KeepsFit s t) :
    KeepsFit s { t with arenas := t.arenas.completeType id decls } where
  course := .body decls bare inner.course (.done _)
  fit fit :=
    (inner.fit fit).completeType (fun _ => bare.tagged fun _ => inner.course.typeKind?) decls

end KeepsFit

instance : PermitsStatements KeepsFit where
  refl s := ⟨.done s, fun fit => fit⟩
  trans first rest := ⟨first.course.trans rest.course, fun fit => rest.fit (first.fit fit)⟩
  plain := .plain
  enclosed inner := ⟨.enclosed inner.course (.done _), inner.fit⟩
  body := .body
  bindName s name kind := ⟨(Step.bindName s name kind).course, fun fit => fit⟩
  addDeclared s _ _ := ⟨(Step.addStmt s _).course, fun fit => fit.addStmt trivial⟩
  addFunction function noInit inner :=
    ⟨inner.course.trans (Step.addDecl _ _).course, fun fit =>
      (inner.fit fit).addDecl ⟨fun _ => noInit, fun _ => inner.course.typeKind? function⟩⟩
  addStmt s stmt fits := ⟨(Step.addStmt s stmt).course, fun fit => fit.addStmt fits⟩

instance : PermitsComments KeepsFit where
  modifyComments s id change :=
    ⟨(Step.modifyComments s id change).course, fun fit => fit.modifyComments id change⟩

end Grammar

namespace Program

open Grammar

variable {file source : String} {p : Program}

theorem fit_of_read (parsed : read file source = .ok p) : p.arenas.Fit := by
  obtain ⟨state, run, arenas, -⟩ := parse_of_read parsed
  have kept : KeepsFit {} state := (translationUnit_follows Rules.nested_follow).ok run
  exact arenas ▸ kept.fit .empty

/-- Every node of a program that has been read has what its kind needs and nothing that its
kind gives no meaning, no statements are spliced in, and nothing is resolved. -/
theorem read_fits (parsed : read file source = .ok p) :
    p.arenas.Fit ∧ p.arenas.Unresolved :=
  ⟨fit_of_read parsed,
    Arenas.unresolved_of_unbound (congrArg Program.arenas (unbound_of_read parsed))⟩

/-- A structure that is named before its body, with members that narrow an enumeration and a
basic type, and a function with a `for` statement that declares. -/
def fieldsSource : String :=
  "enum mode \x7b OFF, ON \x7d; struct item; struct item \x7b enum mode m : 2; int : 4; \x7d;
int pick(int n, ...) \x7b for (int i = 0; i < n; i++) ;
  return n ? 1 : (puts(\"a\" \"b\"), 2); \x7d"

theorem read_fits_fieldsSource :
    ∃ p narrowed function picks, read "t.c" fieldsSource = .ok p ∧
      narrowed ∈ p.arenas.types ∧ narrowed.kind = .enum ∧ narrowed.width.isSome = true ∧
      narrowed.Fits ∧ function ∈ p.arenas.types ∧ function.variadic = true ∧ function.Fits ∧
      picks ∈ p.arenas.decls ∧ picks.body.isSome = true ∧ picks.Fits p.arenas ∧
      (∀ expr ∈ p.arenas.exprs, expr.Fits) ∧ (∀ stmt ∈ p.arenas.stmts, stmt.form.Fits) ∧
      p.arenas.Unresolved := by
  have shape : (read "t.c" fieldsSource).toOption.map (fun p =>
      ((p.type? ⟨3⟩).map fun type => (type.kind, type.width.isSome),
        (p.type? ⟨8⟩).map TypeNode.variadic, (p.decl? ⟨9⟩).map (·.body.isSome))) =
      some (some (.enum, true), some true, some true) := by
    decide +kernel
  obtain ⟨p, parsed, seen⟩ := exists_read_of_map shape
  simp only [Prod.mk.injEq, Option.map_eq_some_iff] at seen
  obtain ⟨⟨narrowed, narrowedFound, kind, width⟩, ⟨function, functionFound, variadic⟩,
    picks, picksFound, body⟩ := seen
  have narrowedThere : narrowed ∈ p.arenas.types := Array.mem_of_getElem? narrowedFound
  have functionThere : function ∈ p.arenas.types := Array.mem_of_getElem? functionFound
  have picksThere : picks ∈ p.arenas.decls := Array.mem_of_getElem? picksFound
  obtain ⟨fit, unresolved⟩ := read_fits parsed
  exact ⟨p, narrowed, function, picks, parsed, narrowedThere, kind, width,
    fit.types narrowed narrowedThere, functionThere, variadic,
    fit.types function functionThere, picksThere, body, fit.decls picks picksThere,
    fit.exprs, fit.stmts, unresolved⟩

end Program

end SyntaxGraph
