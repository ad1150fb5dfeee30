import SyntaxGraph.Proofs.Course.Judgement
import SyntaxGraph.Proofs.Program.Owners

/-!
# Declarations that a walk enters

A walk over a program that has been read enters its declarations, and a dump has a line
for each of them.  Designators have no children, so an index that one of them holds must
not hide any.  Apart from that a declaration is passed over only if it can be reached from
one of two kinds of nodes that are passed over themselves: a declaration that its type has
lost to those of another body, which the log of the reading tells, or a type with
declarations that only a bit-field was to have.
-/

set_option autoImplicit false

namespace SyntaxGraph

/-! ## What a node holds are its children -/

theorem Decl.holds_subset (decl : Decl) : decl.holds ⊆ decl.children := by
  rw [children, toList_map_eq_parts parts_initId, toList_map_eq_parts parts_stmtId]
  exact List.Subset.refl _

theorem TypeNode.holds_subset (type : TypeNode) : type.holds ⊆ type.children := by
  rw [children, toList_map_eq_parts parts_typeId, map_eq_parts parts_declId,
    toList_map_eq_parts parts_exprId, List.append_assoc]
  exact List.Subset.refl _

theorem Expr.holds_subset (expr : Expr) : expr.holds ⊆ expr.children := by
  intro node member
  simp only [Expr.children, toList_map_eq_parts parts_exprId, map_eq_parts parts_exprId,
    toList_map_eq_parts parts_typeId, toList_map_eq_parts parts_initId,
    map_eq_parts parts_stmtId]
  obtain ⟨form, span, block, resolvedType, resolvedDecl⟩ := expr
  cases form <;>
    simp [Expr.left, Expr.right, Expr.list, Expr.typeOperand, Expr.init] at member ⊢ <;>
    tauto

theorem Stmt.parts_subset (stmt : Stmt) : parts stmt ⊆ stmt.children := by
  intro node member
  simp only [Stmt.children, toList_map_eq_parts parts_exprId, toList_map_eq_parts parts_declId,
    toList_map_eq_parts parts_stmtId, map_eq_parts parts_stmtId, map_eq_parts parts_labelId]
  obtain ⟨form, labels, span⟩ := stmt
  cases form <;>
    simp [Stmt.pre, Stmt.expr, Stmt.post, Stmt.decl, Stmt.body, Stmt.otherwise, Stmt.block]
      at member ⊢ <;>
    tauto

/-- The designator selects an element of an array. -/
def Designator.IsIndex (designator : Designator) : Prop :=
  ∃ expr, designator.selector = .index expr

theorem Init.parts_subset {init : Init}
    (unindexed : ∀ designator ∈ init.designators, ¬designator.IsIndex) :
    parts init ⊆ init.children := by
  intro node member
  simp only [Init.children, map_eq_parts parts_initId, toList_map_eq_parts parts_exprId]
  rcases List.mem_append.mp member with index | value
  · obtain ⟨designator, among, inside⟩ := List.mem_flatMap.mp index
    cases selector : designator.selector with
    | field name resolved => simp [selector] at inside
    | index expr => exact absurd ⟨expr, selector⟩ (unindexed designator among)
  · cases form : init.form <;> simp [form, Init.items, Init.scalar] at value ⊢ <;> exact value

theorem Label.parts_subset (label : Label) : parts label ⊆ label.children := by
  rw [Label.children, toList_map_eq_parts parts_exprId]
  obtain ⟨form, span⟩ := label
  cases form <;> exact List.Subset.refl _

namespace Program

open Grammar
open Token (Reading)

variable {p : Program} {file source : String} {node root : NodeRef} {displaced : List DeclId}

/-- No initializer has a designator that selects an element. -/
def Unindexed (p : Program) : Prop :=
  ∀ id init, p.init? id = some init → ∀ designator ∈ init.designators, ¬designator.IsIndex

theorem Unindexed.holds_subset (unindexed : p.Unindexed) (parent : NodeRef) :
    p.arenas.holds parent ⊆ p.children parent := by
  have lookup : ∀ {α : Type} {holds children : α → List NodeRef} (found : Option α),
      (∀ value, found = some value → holds value ⊆ children value) →
      found.elim [] holds ⊆ found.elim [] children := by
    intro α holds children found each
    cases found with
    | none => exact List.nil_subset _
    | some value => exact each value rfl
  cases parent with
  | program => exact List.nil_subset _
  | decl id => exact lookup (p.decl? id) fun decl _ => decl.holds_subset
  | type id => exact lookup (p.type? id) fun type _ => type.holds_subset
  | expr id => exact lookup (p.expr? id) fun expr _ => expr.holds_subset
  | stmt id => exact lookup (p.stmt? id) fun stmt _ => stmt.parts_subset
  | init id =>
      exact lookup (p.init? id) fun init found => Init.parts_subset (unindexed id init found)
  | label id => exact lookup (p.label? id) fun label _ => label.parts_subset

/-! ## Where a walk gets to -/

/-- A declaration that a type has lost to others, or a type with declarations of which a
bit-field has been made. -/
inductive Dropped (p : Program) (displaced : List DeclId) : NodeRef → Prop
  | displaced {id : DeclId} (member : id ∈ displaced) : Dropped p displaced (.decl id)
  | narrowed {id : TypeId} {type : TypeNode} (found : p.type? id = some type)
      (declares : type.decls ≠ []) (narrowed : p.arenas.Narrowed id) :
      Dropped p displaced (.type id)

/-- A plain integer type holds nothing but declarations. -/
theorem children_of_narrowed {id : TypeId} (narrowed : p.arenas.Narrowed id) :
    ∃ type, p.type? id = some type ∧ p.children (.type id) = type.decls.map .decl := by
  obtain ⟨type, -, -, found, -, plain, integer, -⟩ := narrowed
  simp only [TypeNode.isPlain, integer, Bool.not_true, Bool.false_or, Bool.and_eq_true,
    Option.isNone_iff_eq_none] at plain
  obtain ⟨base, width⟩ := plain
  have looked : p.type? id = some type := found
  refine ⟨type, found, ?_⟩
  simp [children, looked, TypeNode.children, base, width]

/-- What covers a node leads there from the program or from a node that has been dropped; a
type without children is of no use to anything. -/
theorem reachable_of_covered (unindexed : p.Unindexed)
    (covered : p.arenas.Covered (parts p.decls ++ parts displaced) node) :
    p.Reachable .program node ∨
      (∃ root, p.Dropped displaced root ∧ ¬p.Reachable .program root ∧
        p.Reachable root node) ∨
      node.isType = true ∧ p.children node = [] := by
  have here : ∀ {root}, p.Dropped displaced root → p.Reachable .program root ∨
      ∃ other, p.Dropped displaced other ∧ ¬p.Reachable .program other ∧
        p.Reachable other root := by
    intro root dropped
    by_cases reached : p.Reachable .program root
    · exact .inl reached
    · exact .inr ⟨root, dropped, reached, .refl⟩
  induction covered with
  | held member =>
      rw [← map_eq_parts parts_declId, ← map_eq_parts parts_declId] at member
      rcases List.mem_append.mp member with top | given
      · exact .inl (.single top)
      · obtain ⟨id, among, rfl⟩ := List.mem_map.mp given
        exact (here (.displaced among)).imp_right .inl
  | narrowed narrowed =>
      obtain ⟨type, found, children⟩ := children_of_narrowed narrowed
      by_cases declares : type.decls = []
      · exact .inr (.inr ⟨rfl, by rw [children, declares]; rfl⟩)
      · exact (here (.narrowed found declares narrowed)).imp_right .inl
  | part _ member above =>
      have edge := unindexed.holds_subset _ member
      rcases above with reached | ⟨root, dropped, unreached, below⟩ | ⟨-, none⟩
      · exact .inl (reached.tail edge)
      · exact .inr (.inl ⟨root, dropped, unreached, below.tail edge⟩)
      · rw [none] at edge
        cases edge

theorem mem_children_of_declared {id : TypeId} {type : TypeNode} {decl : DeclId}
    (found : p.type? id = some type) (declared : decl ∈ type.decls) :
    .decl decl ∈ p.children (.type id) := by
  simp [children, found, TypeNode.children, declared]

/-- A type with a declaration that a walk enters is entered as well. -/
theorem reachable_type (single : ∀ node, (parts p).count node ≤ 1) {id : TypeId}
    {type : TypeNode} {decl : DeclId} (found : p.type? id = some type)
    (declared : decl ∈ type.decls) (reachable : p.Reachable .program (.decl decl)) :
    p.Reachable .program (.type id) := by
  have below := mem_children_of_declared found declared
  rcases Relation.ReflTransGen.cases_tail reachable with same | ⟨parent, above, edge⟩
  · cases same
  · rcases eq_of_mem_children single edge below with rfl | ⟨other, different⟩
    · exact above
    · cases different

/-- A declaration that a type has lost to others is in the arenas, and no part of any node. -/
theorem displaced_nowhere (keeps : p.arenas.Keeps (parts p.decls ++ parts displaced))
    {id : DeclId} (member : id ∈ displaced) :
    p.owns (.decl id) = true ∧ .decl id ∉ parts p := by
  have given := count_parts_pos_of_mem member
  have total := count_parts_add_displaced keeps (show (NodeRef.decl id).isType = false from rfl)
  have most := Bool.toNat_le (p.arenas.has (.decl id))
  refine ⟨Arenas.owns_of_has (Bool.toNat_eq_one.mp (by omega)), fun part => ?_⟩
  have placed := List.count_pos_iff.mpr part
  omega

/-- What is no part of any node is no child either. -/
theorem not_reachable_of_notMem {id : DeclId} (nowhere : .decl id ∉ parts p) :
    ¬p.Reachable .program (.decl id) := by
  intro reachable
  rcases Relation.ReflTransGen.cases_tail reachable with same | ⟨parent, -, edge⟩
  · cases same
  · rcases mem_partsOf edge with ⟨other, different⟩ | part
    · cases different
    · rw [← flatMap_nodes] at nowhere
      exact nowhere (List.mem_flatMap.mpr ⟨parent, mem_nodes (owns_of_mem_children edge), part⟩)

/-- What a walk enters has its line in the dump. -/
theorem exists_line {id : DeclId} {decl : Decl} (found : p.decl? id = some decl)
    (member : .decl id ∈ p.preorder .program) :
    ∃ depth, indented depth decl.line ∈
      (entered (p.trace .program).events).map fun entry =>
        indented entry.2 ((p.line? entry.1).getD "") := by
  obtain ⟨⟨node, depth⟩, inside, same⟩ := List.mem_map.mp member
  obtain rfl : node = .decl id := same
  refine ⟨depth, List.mem_map.mpr ⟨_, inside, ?_⟩⟩
  simp only [line?, found, Option.map_some, Option.getD_some]

section

variable (closed : p.Closed)

include closed

/-- No walk enters a declaration that its type has lost. -/
theorem displaced_unentered (keeps : p.arenas.Keeps (parts p.decls ++ parts displaced))
    {id : DeclId} (member : id ∈ displaced) : .decl id ∉ p.preorder .program :=
  mt (closed.mem_preorder rfl).mp (not_reachable_of_notMem (displaced_nowhere keeps member).2)

theorem entered_or_below_dropped (unindexed : p.Unindexed)
    (keeps : p.arenas.Keeps (parts p.decls ++ parts displaced)) {id : DeclId}
    (owned : p.owns (.decl id) = true) :
    .decl id ∈ p.preorder .program ∨
      ∃ root, p.Dropped displaced root ∧ root ∉ p.preorder .program ∧
        p.Reachable root (.decl id) := by
  have entered : ∀ {node}, node ∈ p.preorder .program ↔ p.Reachable .program node :=
    closed.mem_preorder rfl
  rcases reachable_of_covered unindexed (keeps.covers id owned) with
    reached | ⟨root, dropped, unreached, leads⟩ | ⟨type, -⟩
  · exact .inl (entered.mpr reached)
  · exact .inr ⟨root, dropped, mt entered.mp unreached, leads⟩
  · cases type

/-- A type whose declarations are entered is entered too. -/
theorem type_entered (single : ∀ node, (parts p).count node ≤ 1) {id : TypeId} {type : TypeNode}
    (found : p.type? id = some type) (declares : type.decls ≠ [])
    (all : ∀ id, p.owns (.decl id) = true → .decl id ∈ p.preorder .program) :
    .type id ∈ p.preorder .program := by
  have entered : ∀ {node}, node ∈ p.preorder .program ↔ p.Reachable .program node :=
    closed.mem_preorder rfl
  obtain ⟨decl, declared⟩ := List.exists_mem_of_ne_nil _ declares
  have child := mem_children_of_declared found declared
  have owned := closed _ (p.children_subset _ child)
  exact entered.mpr (reachable_type single found declared (entered.mp (all decl owned)))

end

/-- Every declaration is entered unless it lies below a node that has been dropped and is not
entered itself.  Those that a type has lost to others are never entered, so all of them are
entered if and only if no type has lost any and each type that a bit-field has been made of
is entered.  What is entered has its line in the dump. -/
theorem read_declared (parsed : read file source = .ok p) (unindexed : p.Unindexed) :
    ∃ final, (Reading.ofSource source).parse = .ok p.decls final ∧ final.arenas = p.arenas ∧
      (∀ id ∈ final.displaced, p.owns (.decl id) = true ∧ .decl id ∉ parts p ∧
        .decl id ∉ p.preorder .program) ∧
      (∀ id, p.owns (.decl id) = true → .decl id ∈ p.preorder .program ∨
        ∃ root, p.Dropped final.displaced root ∧ root ∉ p.preorder .program ∧
          p.Reachable root (.decl id)) ∧
      ((∀ id, p.owns (.decl id) = true → .decl id ∈ p.preorder .program) ↔
        final.displaced = [] ∧
          ∀ id type, p.type? id = some type → type.decls ≠ [] → p.arenas.Narrowed id →
            .type id ∈ p.preorder .program) ∧
      ∃ lines, p.dump = .ok (String.join lines) ∧
        ∀ id decl, p.decl? id = some decl → .decl id ∈ p.preorder .program →
          ∃ depth, indented depth decl.line ∈ lines := by
  have closed : p.Closed := closed_of_read parsed
  have single := count_parts_le_one parsed
  obtain ⟨final, run, same, keeps⟩ := read_keeps parsed
  have outside : ∀ id ∈ final.displaced, .decl id ∉ p.preorder .program := fun id member =>
    displaced_unentered closed keeps member
  have below : ∀ id, p.owns (.decl id) = true → _ ∨ _ := fun _ owned =>
    entered_or_below_dropped closed unindexed keeps owned
  refine ⟨final, run, same, fun id member => ?_, below, ⟨fun all => ⟨?_, ?_⟩, ?_⟩,
    _, closed.dumpFrom_eq rfl, fun id decl found member => exists_line found member⟩
  · obtain ⟨owned, nowhere⟩ := displaced_nowhere keeps member
    exact ⟨owned, nowhere, outside id member⟩
  · refine List.eq_nil_iff_forall_not_mem.mpr fun id member => ?_
    exact outside id member (all id (displaced_nowhere keeps member).1)
  · exact fun id type found declares _ => type_entered closed single found declares all
  · rintro ⟨none, narrowed⟩ id owned
    rcases below id owned with inside | ⟨root, dropped, unreached, -⟩
    · exact inside
    · cases dropped with
      | displaced member => simp [none] at member
      | narrowed found declares copied =>
          exact absurd (narrowed _ _ found declares copied) unreached

/-! ## Enumerations of bit-fields -/

theorem unindexed_of_empty (empty : p.arenas.inits.size = 0) : p.Unindexed := by
  intro id init found
  have inside : id.index < p.arenas.inits.size := (Array.getElem?_eq_some_iff.mp found).1
  omega

/-- The enumeration of the bit-field is declared in front of the structure. -/
def sharedSource : String :=
  "enum unit { LOW, HIGH }; struct item { enum unit size : 3; int count; };"

theorem read_declared_sharedSource :
    ∃ p, read "item.c" sharedSource = .ok p ∧ p.Unindexed ∧ p.Dropped [] (.type ⟨0⟩) ∧
      ∀ id, p.owns (.decl id) = true → .decl id ∈ p.preorder .program := by
  have shape : (read "item.c" sharedSource).toOption.map (fun p =>
      (p.arenas.inits.size,
        (List.range p.arenas.types.size).all fun index =>
          (p.type? ⟨index⟩).all fun type => type.decls = [] ∨ index = 0 ∨ index = 2)) =
      some (0, true) := by
    decide +kernel
  have none : (endState (Reading.ofSource sharedSource).parse).displaced = [] := by
    decide +kernel
  have edges : (read "item.c" sharedSource).toOption.map (fun p =>
      (p.children .program, p.children (.decl ⟨2⟩), p.children (.decl ⟨5⟩))) =
      some ([.decl ⟨2⟩, .decl ⟨5⟩], [.type ⟨0⟩], [.type ⟨2⟩]) := by
    decide +kernel
  have copy : (read "item.c" sharedSource).toOption.map (fun p =>
      (p.type? ⟨0⟩).any fun type => (p.type? ⟨3⟩).any fun narrow =>
        type.decls ≠ [] ∧ type.isPlain = true ∧ type.kind.isInteger = true ∧
          { narrow with decls := [] } = { type with width := some ⟨0⟩, decls := [] }) =
      some true := by
    decide +kernel
  obtain ⟨p, parsed, seen⟩ := exists_read_of_map shape
  have linked := seen_of_read parsed edges
  have copied := seen_of_read parsed copy
  simp only [Prod.mk.injEq, List.all_eq_true, List.mem_range] at seen linked
  simp only [Option.any_eq_true, decide_eq_true_eq] at copied
  obtain ⟨empty, declaring⟩ := seen
  obtain ⟨top, unit, item⟩ := linked
  obtain ⟨type, found, narrow, there, declares, plain, integer, same⟩ := copied
  have narrowed : p.arenas.Narrowed ⟨0⟩ :=
    ⟨type, ⟨3⟩, narrow, found, there, plain, integer, ⟨0⟩, same⟩
  have reached : ∀ {decl id}, decl ∈ p.children .program → p.children decl = [.type id] →
      p.Reachable .program (.type id) :=
    fun {decl id} member only => .tail (.single member) (only ▸ List.mem_cons_self)
  have unindexed := unindexed_of_empty empty
  refine ⟨p, parsed, unindexed, .narrowed found declares narrowed, ?_⟩
  obtain ⟨final, run, -, -, -, entered, -⟩ := read_declared parsed unindexed
  rw [run] at none
  refine entered.mpr ⟨none, fun id type found declares _ => ?_⟩
  have closed : p.Closed := closed_of_read parsed
  refine (closed.mem_preorder rfl).mpr ?_
  have inside : id.index < p.arenas.types.size := (Array.getElem?_eq_some_iff.mp found).1
  have known := declaring id.index inside
  rw [found, Option.all_some, decide_eq_true_eq] at known
  obtain ⟨index⟩ := id
  rcases known with bare | rfl | rfl
  · exact absurd bare declares
  · exact reached (by simp [top]) unit
  · exact reached (by simp [top]) item

/-- The enumeration is declared nowhere but in front of the bit-field. -/
def narrowedSource : String := "struct item { enum { LOW, HIGH } size : 3; };"

theorem Reachable.mem_of_closed {nodes : List NodeRef} (reachable : p.Reachable root node)
    (start : root ∈ nodes) (closed : ∀ parent ∈ nodes, p.children parent ⊆ nodes) :
    node ∈ nodes := by
  induction reachable with
  | refl => exact start
  | tail _ edge above => exact closed _ above edge

/-- No walk enters the enumerators `LOW` and `HIGH`. -/
theorem read_narrowedSource :
    ∃ p, read "item.c" narrowedSource = .ok p ∧ p.Unindexed ∧ p.owns (.decl ⟨0⟩) = true ∧
      p.owns (.decl ⟨1⟩) = true ∧ .decl ⟨0⟩ ∉ p.preorder .program ∧
      .decl ⟨1⟩ ∉ p.preorder .program := by
  let nodes : List NodeRef := [.program, .decl ⟨3⟩, .type ⟨0⟩, .decl ⟨2⟩, .type ⟨3⟩, .expr ⟨0⟩]
  have shape : (read "item.c" narrowedSource).toOption.map (fun p =>
      (p.arenas.inits.size, p.arenas.decls.size,
        nodes.all fun parent => (p.children parent).all fun child => decide (child ∈ nodes))) =
      some (0, 4, true) := by
    decide +kernel
  obtain ⟨p, parsed, seen⟩ := exists_read_of_map shape
  simp only [Prod.mk.injEq, List.all_eq_true, decide_eq_true_eq] at seen
  obtain ⟨empty, size, stays⟩ := seen
  have closed : p.Closed := closed_of_read parsed
  have within : ∀ node ∈ p.preorder .program, node ∈ nodes := fun node member =>
    Reachable.mem_of_closed ((closed.mem_preorder rfl).mp member) List.mem_cons_self stays
  have owned : ∀ index < 4, p.owns (.decl ⟨index⟩) = true := fun index inside =>
    decide_eq_true (size ▸ inside)
  exact ⟨p, parsed, unindexed_of_empty empty, owned 0 (by decide), owned 1 (by decide),
    fun member => absurd (within _ member) (by decide),
    fun member => absurd (within _ member) (by decide)⟩

end Program

end SyntaxGraph
