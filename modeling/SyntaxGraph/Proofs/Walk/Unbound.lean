import SyntaxGraph.Program.Dump
import SyntaxGraph.Proofs.Graph.Unbound

/-!
# Walks do not see bindings

Neither the children of a node nor its line depend on what is bound, so walks and dumps of
programs that differ only in their bindings are the same.
-/

set_option autoImplicit false

namespace SyntaxGraph

namespace Program

theorem unbound_children (p : Program) (node : NodeRef) :
    p.unbound.children node = p.children node := by
  have lookup {α : Type} {unbound : α → α} {children : α → List NodeRef}
      (same : ∀ value, children (unbound value) = children value) {found : Option α} :
      (found.map unbound).elim [] children = found.elim [] children := by
    cases found with
    | none => rfl
    | some value => exact same value
  cases node with
  | decl id =>
      change (p.arenas.unbound.decl? id).elim [] Decl.children = _
      rw [Arenas.unbound_decl?]
      exact lookup fun decl => (rfl : Decl.children decl.unbound = Decl.children decl)
  | expr id =>
      change (p.arenas.unbound.expr? id).elim [] Expr.children = _
      rw [Arenas.unbound_expr?]
      exact lookup fun expr => (rfl : Expr.children expr.unbound = Expr.children expr)
  | init id =>
      change (p.arenas.unbound.init? id).elim [] Init.children = _
      rw [Arenas.unbound_init?]
      exact lookup fun init => (rfl : Init.children init.unbound = Init.children init)
  | _ => rfl

theorem unbound_line? (p : Program) (node : NodeRef) : p.unbound.line? node = p.line? node := by
  cases node with
  | decl id =>
      change (p.arenas.unbound.decl? id).map Decl.line = _
      rw [Arenas.unbound_decl?, Option.map_map]
      rfl
  | expr id =>
      change (p.arenas.unbound.expr? id).map Expr.line = _
      rw [Arenas.unbound_expr?, Option.map_map]
      rfl
  | init id =>
      change (p.arenas.unbound.init? id).map (fun _ => "init") = _
      rw [Arenas.unbound_init?, Option.map_map]
      rfl
  | _ => rfl

theorem unbound_slot (p : Program) (node : NodeRef) :
    p.unbound.arenas.slot node = p.arenas.slot node := by
  cases node <;> simp [Arenas.slot, unbound, Arenas.unbound]

theorem unbound_slots (p : Program) : p.unbound.arenas.slots = p.arenas.slots := by
  simp [Arenas.slots, unbound, Arenas.unbound]

end Program

theorem Walk.run_unbound (p : Program) (seen : Array Bool) (events : Array Event)
    (stack : List Frame) : run p.unbound seen events stack = run p seen events stack := by
  have owns (node : NodeRef) : p.unbound.owns node = p.owns node := p.arenas.unbound_owns node
  have opened (node : NodeRef) (depth : Nat) :
      Walk.opened p.unbound node depth = Walk.opened p node depth := by
    rw [Walk.opened, Walk.opened, p.unbound_children]
  fun_induction run p seen events stack with
  | case1 seen events => rw [run]
  | case2 seen events node depth stack ih => rw [run, ih]
  | case3 seen events node depth stack owned bound free ih =>
      rw [run, owns, if_pos owned]
      simp only [p.unbound_slot, bound, free, opened, ih, dite_true]
  | case4 seen events node depth stack owned bound taken ih =>
      rw [run, owns, if_pos owned]
      simp only [p.unbound_slot, bound, taken, ih, dite_true, reduceCtorEq, dite_false]
  | case5 seen events node depth stack owned outside ih =>
      rw [run, owns, if_pos owned]
      simp only [p.unbound_slot, outside, ih, dite_false]
  | case6 seen events node depth stack unowned => rw [run, owns, if_neg unowned]

namespace Program

variable {p q : Program}

theorem unbound_walk (p : Program) (root : NodeRef) : p.unbound.walk root = p.walk root := by
  have trace : p.unbound.trace root = p.trace root := by
    rw [trace, trace, unbound_slots, Walk.run_unbound]
  simp only [walk, trace]

theorem unbound_dumpFrom (p : Program) (root : NodeRef) :
    p.unbound.dumpFrom root = p.dumpFrom root := by
  have describe : p.unbound.describe = p.describe := by
    funext node
    simp only [describe, unbound_line?]
    rfl
  simp only [dumpFrom, unbound_walk, describe]

/-- Programs that differ only in their bindings are walked and dumped in the same way. -/
theorem walk_of_unbound (same : q.unbound = p.unbound) (root : NodeRef) :
    q.walk root = p.walk root ∧ q.dumpFrom root = p.dumpFrom root := by
  constructor
  · rw [← q.unbound_walk, same, unbound_walk]
  · rw [← q.unbound_dumpFrom, same, unbound_dumpFrom]

end Program

end SyntaxGraph
