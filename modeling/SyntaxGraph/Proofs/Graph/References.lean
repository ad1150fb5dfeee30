import Mathlib.Tactic.Tauto
import SyntaxGraph.Program.Children

/-!
# The references that values hold

`references` lists every identity that a value stores, so that whatever holds for all
of them can be said once.  For a node these are its children and the references that
no walk follows: the indices of designators, and what has been bound to a node after it
was added.  Arenas are closed if they own everything that their own nodes refer to;
from an owned node of closed arenas, only owned nodes can be reached.
-/

set_option autoImplicit false

namespace SyntaxGraph

class Refers (α : Type) where
  references : α → List NodeRef

export Refers (references)

/-! ## Identities and collections -/

section

variable {α β : Type} [Refers α] [Refers β]

instance : Refers DeclId := ⟨fun id => [.decl id]⟩
instance : Refers TypeId := ⟨fun id => [.type id]⟩
instance : Refers ExprId := ⟨fun id => [.expr id]⟩
instance : Refers StmtId := ⟨fun id => [.stmt id]⟩
instance : Refers InitId := ⟨fun id => [.init id]⟩
instance : Refers LabelId := ⟨fun id => [.label id]⟩

instance : Refers Unit := ⟨fun _ => []⟩
instance : Refers Bool := ⟨fun _ => []⟩
instance : Refers String := ⟨fun _ => []⟩
instance : Refers (Option α) := ⟨fun value => value.elim [] references⟩
instance : Refers (List α) := ⟨fun values => values.flatMap references⟩
instance : Refers (Array α) := ⟨fun values => references values.toList⟩
instance : Refers (α × β) := ⟨fun pair => references pair.1 ++ references pair.2⟩

@[simp, grind =] theorem references_declId (id : DeclId) : references id = [.decl id] := rfl
@[simp, grind =] theorem references_typeId (id : TypeId) : references id = [.type id] := rfl
@[simp, grind =] theorem references_exprId (id : ExprId) : references id = [.expr id] := rfl
@[simp, grind =] theorem references_stmtId (id : StmtId) : references id = [.stmt id] := rfl
@[simp, grind =] theorem references_initId (id : InitId) : references id = [.init id] := rfl
@[simp, grind =] theorem references_labelId (id : LabelId) : references id = [.label id] := rfl
@[simp, grind =] theorem references_unit (value : Unit) : references value = [] := rfl
@[simp, grind =] theorem references_bool (value : Bool) : references value = [] := rfl
@[simp, grind =] theorem references_string (text : String) : references text = [] := rfl
@[simp, grind =] theorem references_none : references (none : Option α) = [] := rfl
@[simp, grind =] theorem references_some (value : α) :
    references (some value) = references value := rfl
@[simp, grind =] theorem references_nil : references ([] : List α) = [] := rfl
@[simp, grind =] theorem references_cons (value : α) (values : List α) :
    references (value :: values) = references value ++ references values := rfl
@[simp, grind =] theorem references_array (values : Array α) :
    references values = references values.toList := rfl
@[simp, grind =] theorem references_pair (first : α) (second : β) :
    references (first, second) = references first ++ references second := rfl

@[simp, grind =] theorem references_append (values others : List α) :
    references (values ++ others) = references values ++ references others :=
  List.flatMap_append

theorem mem_references {values : List α} {node : NodeRef} :
    node ∈ references values ↔ ∃ value ∈ values, node ∈ references value :=
  List.mem_flatMap

theorem references_subset_of_mem {values : List α} {value : α} (member : value ∈ values) :
    references value ⊆ references values :=
  fun _ inside => mem_references.mpr ⟨value, member, inside⟩

theorem references_subset {values others : List α} (inside : values ⊆ others) :
    references values ⊆ references others := by
  intro node member
  obtain ⟨value, valueMember, refers⟩ := mem_references.mp member
  exact references_subset_of_mem (inside valueMember) refers

theorem references_reverse_subset (values : List α) :
    references values.reverse ⊆ references values :=
  references_subset fun _ member => List.mem_reverse.mp member

theorem references_flatten_subset (values : List (List α)) :
    references values.flatten ⊆ references values := by
  intro node member
  obtain ⟨value, inner, refers⟩ := mem_references.mp member
  obtain ⟨list, outer, inner⟩ := List.mem_flatten.mp inner
  exact mem_references.mpr ⟨list, outer, references_subset_of_mem inner refers⟩

/-! An identity refers to one node, so a list of them can be read as the list of these
nodes. -/

theorem map_eq_references {name : α → NodeRef}
    (single : ∀ value : α, references value = [name value]) (values : List α) :
    values.map name = references values := by
  induction values with
  | nil => rfl
  | cons value values ih =>
      rw [List.map_cons, references_cons, single, ih, List.singleton_append]

theorem toList_map_eq_references {name : α → NodeRef}
    (single : ∀ value : α, references value = [name value]) (value : Option α) :
    (value.map name).toList = references value := by
  cases value with
  | none => rfl
  | some value => exact (single value).symm

end

/-! ## Nodes -/

@[simp, grind =] def Expr.Form.references : Expr.Form → List NodeRef
  | .binary _ left right => [.expr left, .expr right]
  | .unary _ operand => [.expr operand]
  | .member _ object _ => [.expr object]
  | .name _ | .number _ | .string _ => []
  | .call callee arguments => .expr callee :: SyntaxGraph.references arguments
  | .cast type operand => [.type type, .expr operand]
  | .castInit type init => [.type type, .init init]
  | .sizeofType type => [.type type]
  | .offsetof type path => [.type type, .expr path]
  | .vaArg list type => [.expr list, .type type]
  | .comma items => SyntaxGraph.references items
  | .conditional operands => SyntaxGraph.references operands

@[simp, grind =] def Selector.references : Selector → List NodeRef
  | .field _ resolved => SyntaxGraph.references resolved
  | .index expr => [.expr expr]

@[simp, grind =] def Init.Form.references : Init.Form → List NodeRef
  | .scalar expr => [.expr expr]
  | .braced items => SyntaxGraph.references items

@[simp, grind =] def Stmt.Form.references : Stmt.Form → List NodeRef
  | .empty | .breakOut | .continueOn | .goto _ => []
  | .block items => SyntaxGraph.references items
  | .expr value => [.expr value]
  | .decl declared => [.decl declared]
  | .ifElse condition body otherwise =>
    .expr condition :: .stmt body :: SyntaxGraph.references otherwise
  | .whileLoop condition body => [.expr condition, .stmt body]
  | .doWhile body condition => [.stmt body, .expr condition]
  | .forLoop pre condition post declared body =>
    .stmt body :: (SyntaxGraph.references pre ++ SyntaxGraph.references condition ++
      SyntaxGraph.references post ++ SyntaxGraph.references declared)
  | .switch condition body => [.expr condition, .stmt body]
  | .returnValue value => SyntaxGraph.references value

@[simp, grind =] def Label.Form.references : Label.Form → List NodeRef
  | .named _ | .default => []
  | .case value => [.expr value]

instance : Refers Decl :=
  ⟨fun decl => .type decl.type :: (references decl.init ++ references decl.body)⟩

instance : Refers TypeNode :=
  ⟨fun type => references type.base ++ references type.decls ++ references type.width⟩

instance : Refers Expr :=
  ⟨fun expr => expr.form.references ++ references expr.block ++ references expr.resolvedType ++
    references expr.resolvedDecl⟩

instance : Refers Designator := ⟨fun designator => designator.selector.references⟩

instance : Refers Init :=
  ⟨fun init => references init.designators ++ init.form.references ++
    references init.resolvedType⟩

instance : Refers Stmt := ⟨fun stmt => stmt.form.references ++ references stmt.labels⟩

instance : Refers Label := ⟨fun label => label.form.references⟩

@[simp, grind =] theorem references_decl (decl : Decl) :
    references decl = .type decl.type :: (references decl.init ++ references decl.body) := rfl

@[simp, grind =] theorem references_typeNode (type : TypeNode) :
    references type =
      references type.base ++ references type.decls ++ references type.width := rfl

@[simp, grind =] theorem references_expr (expr : Expr) :
    references expr = expr.form.references ++ references expr.block ++
      references expr.resolvedType ++ references expr.resolvedDecl := rfl

@[simp, grind =] theorem references_designator (designator : Designator) :
    references designator = designator.selector.references := rfl

@[simp, grind =] theorem references_init (init : Init) :
    references init = references init.designators ++ init.form.references ++
      references init.resolvedType := rfl

@[simp, grind =] theorem references_stmt (stmt : Stmt) :
    references stmt = stmt.form.references ++ references stmt.labels := rfl

@[simp, grind =] theorem references_label (label : Label) :
    references label = label.form.references := rfl

theorem Decl.children_subset (decl : Decl) : decl.children ⊆ references decl := by
  rw [Decl.children, toList_map_eq_references references_initId,
    toList_map_eq_references references_stmtId]
  exact List.Subset.refl _

theorem TypeNode.children_subset (type : TypeNode) : type.children ⊆ references type := by
  rw [TypeNode.children, toList_map_eq_references references_typeId,
    map_eq_references references_declId, toList_map_eq_references references_exprId]
  exact List.Subset.refl _

theorem Expr.children_subset (expr : Expr) : expr.children ⊆ references expr := by
  rw [Expr.children, toList_map_eq_references references_exprId,
    toList_map_eq_references references_exprId, map_eq_references references_exprId,
    toList_map_eq_references references_typeId, toList_map_eq_references references_initId,
    map_eq_references references_stmtId]
  intro child member
  obtain ⟨form, span, block, resolvedType, resolvedDecl⟩ := expr
  cases form <;>
    simp [Expr.left, Expr.right, Expr.list, Expr.typeOperand, Expr.init] at member ⊢ <;>
    tauto

theorem Stmt.children_subset (stmt : Stmt) : stmt.children ⊆ references stmt := by
  simp only [Stmt.children, toList_map_eq_references references_exprId,
    toList_map_eq_references references_declId, toList_map_eq_references references_stmtId,
    map_eq_references references_stmtId, map_eq_references references_labelId]
  intro child member
  obtain ⟨form, labels, span⟩ := stmt
  cases form <;>
    simp [Stmt.pre, Stmt.expr, Stmt.post, Stmt.decl, Stmt.body, Stmt.otherwise, Stmt.block]
      at member ⊢ <;>
    tauto

theorem Init.children_subset (init : Init) : init.children ⊆ references init := by
  rw [Init.children, map_eq_references references_initId,
    toList_map_eq_references references_exprId]
  intro child member
  obtain ⟨designators, form, span, resolvedType⟩ := init
  cases form <;> simp [Init.items, Init.scalar] at member ⊢ <;> tauto

theorem Label.children_subset (label : Label) : label.children ⊆ references label := by
  obtain ⟨form, span⟩ := label
  cases form <;> exact List.Subset.refl _

end SyntaxGraph
