import SyntaxGraph.Proofs.Emission.Directives
import SyntaxGraph.Proofs.Program.Spans
import SyntaxGraph.Proofs.Walk.Closed
import SyntaxGraph.Proofs.Walk.Unbound

/-!
# Programs that have just been read can be routed and emitted

Nothing is bound in a program that has been read, and no top-level declaration is listed
twice, so routing it succeeds with any settings.  It can then be emitted, since routing
changes neither what can be looked up nor what a dump sees.
-/

set_option autoImplicit false

namespace SyntaxGraph

variable {file source : String} {p q : Program}

/-! ## Nothing is bound -/

theorem Init.unbound_of_free {init : Init} (free : init.resolvedType = none)
    (designators : ∀ designator ∈ init.designators, designator.unbound = designator) :
    init.unbound = init := by
  rw [unbound, List.map_congr_left designators, List.map_id', ← free]

theorem map_eq_self {α : Type} {view : α → α} {values : Array α}
    (each : ∀ (index : Nat) value, values[index]? = some value → view value = value) :
    values.map view = values := by
  refine (Array.map_congr_left fun value member => ?_).trans (Array.map_id' values)
  obtain ⟨index, found⟩ := Array.mem_iff_getElem?.mp member
  exact each index value found

namespace Program

theorem file_of_read (parsed : read file source = .ok p) : p.file = file := by
  rw [read] at parsed
  split at parsed
  · cases parsed
  split at parsed
  · cases parsed
    rfl
  · cases parsed

theorem unbound_of_read (parsed : read file source = .ok p) : p.unbound = p := by
  have owned {α : Type} {values : Array α} {index : Nat} {value : α}
      (found : values[index]? = some value) : decide (index < values.size) = true :=
    decide_eq_true (Array.getElem?_eq_some_iff.mp found).1
  have decls : p.arenas.decls.map Decl.unbound = p.arenas.decls := by
    refine map_eq_self fun index decl found => ?_
    obtain ⟨plain, there, -, free, -⟩ :=
      @laid_of_read _ _ _ parsed (.decl ⟨index⟩) (by simp) (owned found)
    have same : (p.decl? ⟨index⟩).map Decl.plain = some plain :=
      (p.arenas.plain_decl? ⟨index⟩).symm.trans there
    rw [show p.decl? ⟨index⟩ = some decl from found, Option.map_some, Option.some.injEq] at same
    have group : decl.group = none := by
      change decl.plain.group = none
      rw [same, ← free]
      rfl
    rw [Decl.unbound, ← group]
  have exprs : p.arenas.exprs.map Expr.unbound = p.arenas.exprs := by
    refine map_eq_self fun index expr found => ?_
    obtain ⟨same, there, free, -⟩ :=
      @laid_of_read _ _ _ parsed (.expr ⟨index⟩) (by simp) (owned found)
    obtain rfl : expr = same := Option.some.inj (found.symm.trans there)
    exact free
  have inits : p.arenas.inits.map Init.unbound = p.arenas.inits := by
    refine map_eq_self fun index init found => ?_
    obtain ⟨same, there, free, _, _, -, designate, -⟩ :=
      @laid_of_read _ _ _ parsed (.init ⟨index⟩) (by simp) (owned found)
    obtain rfl : init = same := Option.some.inj (found.symm.trans there)
    refine Init.unbound_of_free free fun designator member => ?_
    obtain ⟨_, _, -, -, unbound, -⟩ := designate designator member
    exact unbound
  rw [unbound, Arenas.unbound, decls, exprs, inits]

theorem group_of_read (parsed : read file source = .ok p) {id : DeclId} {decl : Decl}
    (found : p.decl? id = some decl) : decl.group = none := by
  have same : (p.decl? id).map Decl.unbound = p.decl? id :=
    (p.arenas.unbound_decl? id).symm.trans (congrArg (·.decl? id) (unbound_of_read parsed))
  rw [found] at same
  rw [← Option.some.inj same]
  rfl

theorem owned_of_read (parsed : read file source = .ok p) {id : DeclId}
    (member : id ∈ p.decls) : p.owns (.decl id) = true :=
  closed_of_read parsed _ (p.children_subset .program (List.mem_map_of_mem member))

/-- The top-level declarations are there, and are in no group. -/
theorem ungrouped_of_read (parsed : read file source = .ok p) {id : DeclId}
    (member : id ∈ p.decls) : p.IsFree id :=
  (decl?_of_owns (owned_of_read parsed member)).imp fun _ found =>
    ⟨found, group_of_read parsed found⟩

end Program

/-! ## Routing and emission -/

namespace Emission

variable {config : Config}

theorem route_of_read (config : Config) (parsed : Program.read file source = .ok p) :
    (route config p).2 = none := by
  have frees : ∀ id ∈ p.decls, p.IsFree id := fun id => Program.ungrouped_of_read parsed
  exact (routeFrom_none_iff config fun id member => (frees id member).imp fun _ => And.left).mpr
    ⟨Program.nodup_of_read parsed, frees⟩

/-- The unit that a declaration goes to, once the program has been routed. -/
theorem unitKey_of_read (config : Config) (parsed : Program.read file source = .ok p)
    {id : DeclId} {decl : Decl} (found : (route config p).1.decl? id = some decl) :
    ∃ name, unitKey config (route config p).1.file decl =
      config.groupFor name ++ "/" ++ Path.stem file := by
  obtain ⟨early, -, -, grouped, -⟩ := routeFrom_prefix config (p := p) fun id member =>
    (Program.ungrouped_of_read parsed member).imp fun _ => And.left
  refine ⟨decl.name, ?_⟩
  rw [unitKey, route, grouped.outside.1, Program.file_of_read parsed]
  by_cases member : id ∈ early
  · obtain ⟨bare, -, changed⟩ := grouped.grouped id member
    cases found.symm.trans changed
    rfl
  · rw [route, grouped.others id member] at found
    rw [Program.group_of_read parsed found]
    rfl

theorem emit_ok {render : Renderer} (there : ∀ id ∈ p.decls, ∃ decl, p.decl? id = some decl)
    (renders : ∀ id ∈ p.decls, ∃ text, render p id = .ok text) :
    ∃ units, emit config render p = .ok units := by
  rcases emitFrom_outcome config render p p.decls collects_nil with
    ⟨_, units, _, emitted, _⟩ | ⟨early, id, late, missing, split, _, fails, _⟩
  · exact ⟨units, emitted⟩
  · have listed : id ∈ p.decls := by simp [split]
    cases fails with
    | absent absent =>
        obtain ⟨decl, found⟩ := there id listed
        cases absent.symm.trans found
    | rendered _ _ fails =>
        obtain ⟨text, rendered⟩ := renders id listed
        cases fails.symm.trans rendered

/-- What routing has bound does not keep a program from being emitted. -/
theorem emits_of_read (config : Config) (parsed : Program.read file source = .ok p)
    (same : q.unbound = p.unbound) :
    (∃ units, emit config renderDump q = .ok units) ∧
      ∃ names, unusedDirectives config q = .ok names := by
  have roots : q.unbound.decls = p.unbound.decls := congrArg Program.decls same
  change q.decls = p.decls at roots
  have owned : ∀ id ∈ q.decls, p.owns (.decl id) = true := fun id member =>
    Program.owned_of_read parsed (roots ▸ member)
  have there : ∀ id ∈ q.decls, ∃ decl, q.decl? id = some decl := fun id member =>
    Program.decl?_of_owns ((Program.owns_of_unbound same (.decl id)).trans (owned id member))
  refine ⟨emit_ok there fun id member => ?_,
    (unusedDirectives_ok config there).imp fun _ => And.left⟩
  obtain ⟨text, dumped⟩ := (Program.closed_of_read parsed).dumpFrom (owned id member)
  refine ⟨Text.trimmedEnd text, ?_⟩
  rw [renderDump, (Program.walk_of_unbound same (.decl id)).2, dumped]
  rfl

end Emission

end SyntaxGraph
