import Mathlib.Algebra.BigOperators.Group.List.Basic
import Mathlib.Algebra.Order.BigOperators.Group.List
import Mathlib.Algebra.Order.Group.Nat
import SyntaxGraph.Proofs.Custody.Order
import SyntaxGraph.Proofs.Custody.TranslationUnit
import SyntaxGraph.Proofs.Program.Read

/-!
# Owners in a program

In a program that has been read every expression, statement, initializer and label is a
part of one node, in one place, and a declaration is a part of one node at the most.  So
only types have several parents.
-/

set_option autoImplicit false

namespace SyntaxGraph

instance : Owning Program := ⟨fun p => parts p.decls ++ parts p.arenas⟩

theorem parts_program (p : Program) : parts p = parts p.decls ++ parts p.arenas := rfl

namespace Program

open Grammar
open Token (Reading)

variable {p : Program} {file source : String}

/-! ## One parent -/

def nodes (p : Program) : List NodeRef :=
  .program :: ((List.range p.arenas.decls.size).map (.decl ⟨·⟩) ++
    (List.range p.arenas.types.size).map (.type ⟨·⟩) ++
    (List.range p.arenas.exprs.size).map (.expr ⟨·⟩) ++
    (List.range p.arenas.stmts.size).map (.stmt ⟨·⟩) ++
    (List.range p.arenas.inits.size).map (.init ⟨·⟩) ++
    (List.range p.arenas.labels.size).map (.label ⟨·⟩))

def partsOf (p : Program) : NodeRef → List NodeRef
  | .program => parts p.decls
  | .decl id => (p.decl? id).elim [] parts
  | .type id => (p.type? id).elim [] parts
  | .expr id => (p.expr? id).elim [] parts
  | .stmt id => (p.stmt? id).elim [] parts
  | .init id => (p.init? id).elim [] parts
  | .label id => (p.label? id).elim [] parts

theorem mem_nodes {node : NodeRef} (owned : p.owns node = true) : node ∈ p.nodes := by
  cases node with
  | program => exact List.mem_cons_self
  | _ id =>
      have inside := of_decide_eq_true owned
      obtain ⟨index⟩ := id
      simpa [nodes] using inside

theorem flatMap_range_lookup {α : Type} [Owning α] (values : Array α) :
    (List.range values.size).flatMap (fun index => values[index]?.elim [] parts) =
      parts values.toList := by
  have found : (List.range values.size).map (values[·]?) = values.toList.map some := by
    refine List.ext_getElem (by simp) fun index inside _ => ?_
    have bound : index < values.size := by simpa using inside
    simp [Array.getElem?_eq_getElem bound]
  rw [← List.flatMap_map (values[·]?) (fun value => value.elim [] parts), found,
    List.flatMap_map]
  rfl

theorem flatMap_nodes (p : Program) : p.nodes.flatMap p.partsOf = parts p := by
  simp only [nodes, List.flatMap_cons, List.flatMap_append, List.flatMap_map, parts_program,
    Arenas.parts_eq, ← flatMap_range_lookup, List.append_assoc]
  rfl

/-- A node that is a part of two different nodes is in two places. -/
theorem two_le_count {first second child : NodeRef} (different : first ≠ second)
    (firstOwned : p.owns first = true) (secondOwned : p.owns second = true)
    (one : child ∈ p.partsOf first) (other : child ∈ p.partsOf second) :
    2 ≤ (parts p).count child := by
  have remaining : second ∈ p.nodes.erase first :=
    (List.mem_erase_of_ne different.symm).mpr (mem_nodes secondOwned)
  have oneCount : 1 ≤ (p.partsOf first).count child := List.count_pos_iff.mpr one
  have otherCount : 1 ≤ (p.partsOf second).count child := List.count_pos_iff.mpr other
  have among : (p.partsOf second).count child ≤
      ((p.nodes.erase first).map fun node => (p.partsOf node).count child).sum :=
    List.le_sum_of_mem (List.mem_map_of_mem remaining)
  have total := List.sum_map_erase (fun node => (p.partsOf node).count child)
    (mem_nodes firstOwned)
  rw [← flatMap_nodes, List.count_flatMap]
  change 2 ≤ (p.nodes.map fun node => (p.partsOf node).count child).sum
  omega

theorem owns_of_mem_children {parent child : NodeRef} (member : child ∈ p.children parent) :
    p.owns parent = true := by
  have lookup : ∀ {α : Type} {children : α → List NodeRef} (values : Array α) (index : Nat),
      child ∈ values[index]?.elim [] children → decide (index < values.size) = true := by
    intro α children values index inside
    by_contra outside
    rw [Array.getElem?_eq_none (by simpa using outside)] at inside
    cases inside
  cases parent with
  | program => rfl
  | _ id => exact lookup _ _ member

/-- A child is a part of its parent, or a type. -/
theorem mem_partsOf {parent child : NodeRef} (member : child ∈ p.children parent) :
    (∃ id, child = .type id) ∨ child ∈ p.partsOf parent := by
  have lookup : ∀ {α : Type} [Owning α] {children : α → List NodeRef} {found : Option α},
      (∀ {value}, child ∈ children value → (∃ id, child = .type id) ∨ child ∈ parts value) →
      child ∈ found.elim [] children →
      (∃ id, child = .type id) ∨ child ∈ found.elim [] (parts : α → List NodeRef) := by
    intro α _ children found each inside
    cases found with
    | none => cases inside
    | some value => exact each inside
  cases parent with
  | program =>
      right
      rw [children, map_eq_parts parts_declId] at member
      exact member
  | decl id => exact lookup Decl.mem_parts member
  | type id => exact lookup TypeNode.mem_parts member
  | expr id => exact lookup Expr.mem_parts member
  | stmt id => exact lookup (fun inside => .inr (Stmt.mem_parts inside)) member
  | init id => exact lookup (fun inside => .inr (Init.mem_parts inside)) member
  | label id => exact lookup (fun inside => .inr (Label.mem_parts inside)) member

theorem type_notMem_partsOf (p : Program) (parent : NodeRef) (id : TypeId) :
    .type id ∉ p.partsOf parent := by
  have lookup : ∀ {α : Type} [Owning α] (found : Option α),
      (∀ value : α, .type id ∉ parts value) →
      .type id ∉ found.elim [] (parts : α → List NodeRef) := by
    intro α _ found without
    cases found with
    | none => exact List.not_mem_nil
    | some value => exact without value
  cases parent with
  | program => simp [partsOf, ← map_eq_parts parts_declId]
  | decl id =>
      exact lookup _ fun decl => by
        simp [← toList_map_eq_parts parts_initId, ← toList_map_eq_parts parts_stmtId]
  | type id =>
      exact lookup _ fun type => by
        simp [← map_eq_parts parts_declId, ← toList_map_eq_parts parts_exprId]
  | expr id =>
      exact lookup _ fun expr => by
        cases form : expr.form <;>
          simp [form, ← map_eq_parts parts_exprId, ← map_eq_parts parts_stmtId]
  | stmt id =>
      exact lookup _ fun stmt => by
        cases form : stmt.form <;>
          simp [form, ← map_eq_parts parts_stmtId, ← map_eq_parts parts_labelId,
            ← toList_map_eq_parts parts_exprId, ← toList_map_eq_parts parts_stmtId,
            ← toList_map_eq_parts parts_declId]
  | init id =>
      refine lookup _ fun init member => ?_
      rcases List.mem_append.mp member with indices | values
      · obtain ⟨designator, -, inside⟩ := List.mem_flatMap.mp indices
        cases selector : designator.selector <;> simp [selector] at inside
      · cases form : init.form <;> simp [form, ← map_eq_parts parts_initId] at values
  | label id =>
      exact lookup _ fun label => by
        cases form : label.form <;> simp [form]

theorem count_parts_of_isType {node : NodeRef} (shared : node.isType = true) :
    (parts p).count node = 0 := by
  obtain ⟨id, rfl⟩ : ∃ id, node = .type id := by cases node <;> simp_all [NodeRef.isType]
  refine List.count_eq_zero.mpr fun member => ?_
  rw [← flatMap_nodes] at member
  obtain ⟨parent, -, inside⟩ := List.mem_flatMap.mp member
  exact p.type_notMem_partsOf parent id inside

/-- Only types have several parents. -/
theorem eq_of_mem_children {first second child : NodeRef}
    (single : ∀ node, (parts p).count node ≤ 1) (one : child ∈ p.children first)
    (other : child ∈ p.children second) : first = second ∨ ∃ id, child = .type id := by
  rcases mem_partsOf one with type | onePart
  · exact .inr type
  rcases mem_partsOf other with type | otherPart
  · exact .inr type
  by_cases same : first = second
  · exact .inl same
  · have twice := two_le_count same (owns_of_mem_children one) (owns_of_mem_children other)
      onePart otherPart
    have once := single child
    omega

/-! ## Programs that have been read -/

/-- Reading leaves every node in its place, apart from the declarations that types have lost
to others. -/
theorem read_keeps (parsed : read file source = .ok p) :
    ∃ final, (Reading.ofSource source).parse = .ok p.decls final ∧ final.arenas = p.arenas ∧
      p.arenas.Keeps (parts p.decls ++ parts final.displaced) := by
  obtain ⟨final, run, same, -⟩ := parse_of_read parsed
  have start : State.Kept {} [] [] :=
    ⟨Arenas.keeps_empty, fun id member => by simp [Scopes.start] at member⟩
  have kept := translationUnit_makes _ {} p.decls final [] [] start run
  refine ⟨final, run, same, ?_⟩
  rw [← same]
  exact kept.keeps.congr fun node => by simp

/-- A node that has been added is a part of one node, or has been given up. -/
theorem count_parts_add_displaced {displaced : List DeclId} {node : NodeRef}
    (keeps : p.arenas.Keeps (parts p.decls ++ parts displaced)) (unshared : node.isType = false) :
    (parts p).count node + (parts displaced).count node = (p.arenas.has node).toNat := by
  rw [← keeps.tally node unshared, Arenas.places, parts_program]
  simp only [List.count_append]
  omega

theorem count_parts_le_one (parsed : read file source = .ok p) (node : NodeRef) :
    (parts p).count node ≤ 1 := by
  cases shared : node.isType with
  | true => rw [count_parts_of_isType shared]; exact Nat.zero_le _
  | false =>
      obtain ⟨final, -, -, keeps⟩ := read_keeps parsed
      have total := count_parts_add_displaced keeps shared
      have most := Bool.toNat_le (p.arenas.has node)
      omega

/-- Each declaration of the file has its place, so it has been added. -/
theorem closed_of_read (parsed : read file source = .ok p) : p.Closed := by
  obtain ⟨state, -, same, sound⟩ := parse_of_read parsed
  refine Arenas.ownsAll_append.mpr ⟨fun node member => ?_, same ▸ sound.closed⟩
  rw [← map_eq_references references_declId] at member
  obtain ⟨id, top, rfl⟩ := List.mem_map.mp member
  obtain ⟨final, -, -, keeps⟩ := read_keeps parsed
  have placed := count_parts_pos_of_mem top
  have total := keeps.tally (.decl id) rfl
  have most := Bool.toNat_le (p.arenas.has (.decl id))
  rw [Arenas.places, List.count_append] at total
  refine Arenas.owns_of_has (Bool.toNat_eq_one.mp ?_)
  omega

theorem increasing_of_read (parsed : read file source = .ok p) :
    p.decls.Pairwise (·.index < ·.index) := by
  obtain ⟨state, run, -, -⟩ := parse_of_read parsed
  obtain ⟨added, same, order⟩ := translationUnit_issues _ {} p.decls state run
  obtain rfl : p.decls = added := same
  exact order.increasing

theorem nodup_of_read (parsed : read file source = .ok p) : p.decls.Nodup :=
  (increasing_of_read parsed).imp fun before same => by simp [same] at before

theorem read_owned_once (parsed : read file source = .ok p) :
    (∀ node, p.owns node = true → node.isLasting = true → (parts p).count node = 1) ∧
      (∀ node, (parts p).count node ≤ 1) ∧
      p.decls.Pairwise (·.index < ·.index) ∧
      ∀ first second child, child ∈ p.children first → child ∈ p.children second →
        first = second ∨ ∃ id, child = .type id := by
  obtain ⟨final, -, -, keeps⟩ := read_keeps parsed
  have single := count_parts_le_one parsed
  refine ⟨fun node owned lasting => ?_, single, increasing_of_read parsed,
    fun _ _ _ => eq_of_mem_children single⟩
  have unshared : node.isType = false := by cases node <;> first | rfl | cases lasting
  have added : p.arenas.has node = true := by cases node <;> first | exact owned | cases lasting
  have total := count_parts_add_displaced keeps unshared
  rwa [Arenas.count_parts_decls lasting, added] at total

/-- The inner body completes the structure first and the outer one again, so that `low`
belongs to nothing. -/
def pairSource : String :=
  "struct pair \x7b struct pair \x7b int low; \x7d first; int size : 3; \x7d " ++
    "one = \x7b .size = 1 \x7d, two; int g(int n) \x7b case 1: return n; \x7d"

theorem read_owned_once_pairSource :
    ∃ p, read "pair.c" pairSource = .ok p ∧ p.decls = [⟨3⟩, ⟨4⟩, ⟨6⟩] ∧
      (parts p).count (.decl ⟨0⟩) = 0 ∧
      (∀ index < 4, (parts p).count (.expr ⟨index⟩) = 1) ∧
      (∀ index < 7, (parts p).count (.decl ⟨index⟩) ≤ 1) ∧
      p.decls.Pairwise (·.index < ·.index) := by
  have shape : (read "pair.c" pairSource).toOption.map (fun p =>
      (p.decls, (parts p).count (.decl ⟨0⟩), p.arenas.exprs.size)) =
      some ([⟨3⟩, ⟨4⟩, ⟨6⟩], 0, 4) := by
    decide +kernel
  obtain ⟨p, parsed, seen⟩ := exists_read_of_map shape
  simp only [Prod.mk.injEq] at seen
  obtain ⟨decls, lost, exprs⟩ := seen
  obtain ⟨lasting, single, increasing, -⟩ := read_owned_once parsed
  refine ⟨p, parsed, decls, lost, fun index inside => ?_, fun index _ => single _, increasing⟩
  have owned : p.owns (.expr ⟨index⟩) = true := by
    change decide (index < p.arenas.exprs.size) = true
    exact decide_eq_true (exprs ▸ inside)
  exact lasting (.expr ⟨index⟩) owned rfl

end Program

end SyntaxGraph
