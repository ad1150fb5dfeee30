import SyntaxGraph.Grammar.Build
import SyntaxGraph.Proofs.Program.Fields
import SyntaxGraph.Proofs.Program.Reached

/-!
# What the builds end with

In every build a source is read to a program or refused, unless the build stops.  The state
in which reading ends tells whether it does: the arenas and the log only grow on the way, so
a check that has failed once fails at the end too.  A build with assertions stops for a
program, if there are numbers for all nodes, just where a declaration belongs to no node.
-/

set_option autoImplicit false

namespace SyntaxGraph

open Grammar
open Token (Reading Ended)

/-! ## Checks that have failed -/

namespace Grammar

variable {s middle t : State}

/-- No node is taken away, and nothing that has been noted. -/
structure Grows (s t : State) : Prop where
  decls : s.arenas.decls.size ≤ t.arenas.decls.size
  types : s.arenas.types.size ≤ t.arenas.types.size
  exprs : s.arenas.exprs.size ≤ t.arenas.exprs.size
  stmts : s.arenas.stmts.size ≤ t.arenas.stmts.size
  inits : s.arenas.inits.size ≤ t.arenas.inits.size
  labels : s.arenas.labels.size ≤ t.arenas.labels.size
  log : s.log <:+ t.log

namespace Grows

theorem of_sizes (same : s.arenas = t.arenas) (log : s.log <:+ t.log) : Grows s t := by
  constructor <;> first | exact log | exact same ▸ Nat.le_refl _

theorem trans (first : Grows s middle) (rest : Grows middle t) : Grows s t where
  decls := Nat.le_trans first.decls rest.decls
  types := Nat.le_trans first.types rest.types
  exprs := Nat.le_trans first.exprs rest.exprs
  stmts := Nat.le_trans first.stmts rest.stmts
  inits := Nat.le_trans first.inits rest.inits
  labels := Nat.le_trans first.labels rest.labels
  log := first.log.trans rest.log

theorem completeType (s : State) (id : TypeId) (decls : List DeclId) :
    Grows s { s with arenas := s.arenas.completeType id decls } := by
  constructor <;> simp [Arenas.completeType]

theorem displaced_subset (grows : Grows s t) : s.displaced ⊆ t.displaced := by
  intro id member
  obtain ⟨entry, noted, inside⟩ := List.mem_flatMap.mp member
  exact List.mem_flatMap.mpr ⟨entry, grows.log.subset noted, inside⟩

theorem numbered (grows : Grows s t) (numbered : t.arenas.numbered = true) :
    s.arenas.numbered = true := by
  simp only [Arenas.numbered, List.all_cons, List.all_nil, Bool.and_true, Bool.and_eq_true,
    decide_eq_true_eq] at numbered ⊢
  have := grows.decls
  have := grows.types
  have := grows.exprs
  have := grows.stmts
  have := grows.inits
  have := grows.labels
  omega

end Grows

theorem Step.grows (step : Step s t) : Grows s t := by
  cases step with
  | move | bindTag => exact .of_sizes rfl (List.suffix_refl _)
  | note | bindName => exact .of_sizes rfl (List.suffix_cons _ _)
  | _ =>
      constructor <;>
        simp [Arenas.addDecl, Arenas.addType, Arenas.addExpr, Arenas.addStmt, Arenas.addInit,
          Arenas.addLabel, Arenas.modifyComments]

/-- By induction on the course; neither scopes nor the ends of bodies take anything away. -/
theorem Course.grows (course : Course s t) : Grows s t := by
  induction course with
  | done => exact .of_sizes rfl (List.suffix_refl _)
  | step first _ ih => exact first.grows.trans ih
  | @enclosed s middle _ _ _ inner rest =>
      have entered : Grows s { s with scopes := {} :: s.scopes } :=
        .of_sizes rfl (List.suffix_refl _)
      have left : Grows middle { middle with scopes := middle.scopes.tail } :=
        .of_sizes rfl (List.suffix_refl _)
      exact ((entered.trans inner).trans left).trans rest
  | body decls _ _ _ inner rest => exact (inner.trans (.completeType _ _ decls)).trans rest

/-- A build that has stopped does not go on. -/
theorem Course.stops (course : Course s t) {build : Build} (stopped : build.stops s = true) :
    build.stops t = true := by
  rcases Bool.or_eq_true_iff.mp stopped with unnumbered | failed
  · refine Bool.or_eq_true_iff.mpr (.inl ?_)
    by_contra fits
    simp [course.grows.numbered (by simpa using fits)] at unnumbered
  · obtain ⟨assertions, displaced⟩ := Bool.and_eq_true_iff.mp failed
    refine Bool.or_eq_true_iff.mpr (.inr (Bool.and_eq_true_iff.mpr ⟨assertions, ?_⟩))
    simp only [Bool.not_eq_true', List.isEmpty_eq_false_iff] at displaced ⊢
    obtain ⟨id, member⟩ := List.exists_mem_of_ne_nil _ displaced
    exact List.ne_nil_of_mem (course.grows.displaced_subset member)

end Grammar

namespace Program

variable {file source : String} {p : Program}

end Program

end SyntaxGraph
