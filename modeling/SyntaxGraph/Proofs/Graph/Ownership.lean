import SyntaxGraph.Program.Assembly
import SyntaxGraph.Proofs.Graph.References

/-!
# Arenas that own what they refer to

Arenas are closed if they own everything that their nodes refer to.  Whatever is done
to arenas while a source is read makes them grow and brings in few references: adding
a node brings in those of the node, completing a type those of its declarations, and
changing comments none.  So closed arenas stay closed as long as only owned nodes are
brought in.
-/

set_option autoImplicit false

namespace SyntaxGraph

instance : Refers Arenas :=
  ⟨fun a => references a.decls ++ references a.types ++ references a.exprs ++
    references a.stmts ++ references a.inits ++ references a.labels⟩

namespace Arenas

variable {a b c : Arenas} {nodes : List NodeRef}

theorem references_eq (a : Arenas) :
    references a = references a.decls.toList ++ references a.types.toList ++
      references a.exprs.toList ++ references a.stmts.toList ++ references a.inits.toList ++
      references a.labels.toList := rfl

def OwnsAll (a : Arenas) (nodes : List NodeRef) : Prop := ∀ node ∈ nodes, a.owns node = true

def Closed (a : Arenas) : Prop := a.OwnsAll (references a)

theorem OwnsAll.subset {others : List NodeRef} (owned : a.OwnsAll nodes)
    (inside : others ⊆ nodes) : a.OwnsAll others :=
  fun node member => owned node (inside member)

theorem ownsAll_append {others : List NodeRef} :
    a.OwnsAll (nodes ++ others) ↔ a.OwnsAll nodes ∧ a.OwnsAll others :=
  List.forall_mem_append

theorem closed_empty : Closed {} := by
  intro node member
  simp [references_eq] at member

/-! ## Growing -/

structure Grows (a b : Arenas) : Prop where
  decls : a.decls.size ≤ b.decls.size
  types : a.types.size ≤ b.types.size
  exprs : a.exprs.size ≤ b.exprs.size
  stmts : a.stmts.size ≤ b.stmts.size
  inits : a.inits.size ≤ b.inits.size
  labels : a.labels.size ≤ b.labels.size

theorem Grows.owns (grows : a.Grows b) {node : NodeRef} (owned : a.owns node = true) :
    b.owns node = true := by
  obtain ⟨decls, types, exprs, stmts, inits, labels⟩ := grows
  cases node <;> simp only [Arenas.owns, decide_eq_true_eq] at owned ⊢ <;> omega

theorem OwnsAll.mono (owned : a.OwnsAll nodes) (grows : a.Grows b) : b.OwnsAll nodes :=
  fun node member => grows.owns (owned node member)

/-! ## Bringing in references -/

/-- One makes the other grow, and brings in no references but those given. -/
structure Takes (a : Arenas) (brought : List NodeRef) (b : Arenas) : Prop where
  grows : a.Grows b
  references_subset : references b ⊆ brought ++ references a

theorem Takes.closed {brought : List NodeRef} (takes : a.Takes brought b) (closed : a.Closed)
    (owned : a.OwnsAll brought) : b.Closed := by
  have before : a.OwnsAll (brought ++ references a) := ownsAll_append.mpr ⟨owned, closed⟩
  exact (before.subset takes.references_subset).mono takes.grows

/-- Adding a node brings in what the node refers to, and owns the node from then on. -/
structure Inserts {ι : Type} [Refers ι] (insert : Arenas → ι × Arenas) (brought : List NodeRef) :
    Prop where
  takes : ∀ a, Takes a brought (insert a).2
  owned : ∀ a, (insert a).2.OwnsAll (references (insert a).1)

theorem references_push {α : Type} [Refers α] (values : Array α) (value : α) :
    references (values.push value).toList = references values.toList ++ references value := by
  rw [Array.toList_push, references_append, references_cons, references_nil, List.append_nil]

theorem addDecl_inserts (decl : Decl) : Inserts (·.addDecl decl) (references decl) where
  takes a :=
    { grows := by constructor <;> simp [addDecl]
      references_subset := fun node member => by
        simp only [references_eq, addDecl, references_push, List.mem_append] at member ⊢
        tauto }
  owned a := by simp [OwnsAll, addDecl, owns]

theorem addType_inserts (type : TypeNode) : Inserts (·.addType type) (references type) where
  takes a :=
    { grows := by constructor <;> simp [addType]
      references_subset := fun node member => by
        simp only [references_eq, addType, references_push, List.mem_append] at member ⊢
        tauto }
  owned a := by simp [OwnsAll, addType, owns]

theorem addExpr_inserts (expr : Expr) : Inserts (·.addExpr expr) (references expr) where
  takes a :=
    { grows := by constructor <;> simp [addExpr]
      references_subset := fun node member => by
        simp only [references_eq, addExpr, references_push, List.mem_append] at member ⊢
        tauto }
  owned a := by simp [OwnsAll, addExpr, owns]

theorem addStmt_inserts (stmt : Stmt) : Inserts (·.addStmt stmt) (references stmt) where
  takes a :=
    { grows := by constructor <;> simp [addStmt]
      references_subset := fun node member => by
        simp only [references_eq, addStmt, references_push, List.mem_append] at member ⊢
        tauto }
  owned a := by simp [OwnsAll, addStmt, owns]

theorem addInit_inserts (init : Init) : Inserts (·.addInit init) (references init) where
  takes a :=
    { grows := by constructor <;> simp [addInit]
      references_subset := fun node member => by
        simp only [references_eq, addInit, references_push, List.mem_append] at member ⊢
        tauto }
  owned a := by simp [OwnsAll, addInit, owns]

theorem addLabel_inserts (label : Label) : Inserts (·.addLabel label) (references label) where
  takes a :=
    { grows := by constructor <;> simp [addLabel]
      references_subset := fun node member => by
        simp only [references_eq, addLabel, references_push, List.mem_append] at member ⊢
        tauto }
  owned a := by simp [OwnsAll, addLabel, owns]

/-! ## Filling in -/

theorem references_subset_of_getElem? {α : Type} [Refers α] {values : Array α} {value : α}
    {index : Nat} (found : values[index]? = some value) :
    references value ⊆ references values.toList :=
  references_subset_of_mem (Array.mem_toList_iff.mpr (Array.mem_of_getElem? found))

/-- A change to one value of an array brings in what it brings into a value. -/
theorem references_modify_subset {α : Type} [Refers α] (change : α → α) (brought : List NodeRef)
    (changes : ∀ value, references (change value) ⊆ brought ++ references value)
    (values : Array α) (index : Nat) :
    references (values.modify index change).toList ⊆ brought ++ references values.toList := by
  intro node member
  obtain ⟨value, inside, refers⟩ := mem_references.mp member
  obtain ⟨place, found⟩ := Array.mem_iff_getElem?.mp (Array.mem_toList_iff.mp inside)
  rw [Array.getElem?_modify] at found
  split at found
  · obtain ⟨old, before, rfl⟩ := Option.map_eq_some_iff.mp found
    rcases List.mem_append.mp (changes old refers) with new | kept
    · exact List.mem_append_left _ new
    · exact List.mem_append_right _ (references_subset_of_getElem? before kept)
  · exact List.mem_append_right _ (references_subset_of_getElem? found refers)

theorem completeType_takes (a : Arenas) (id : TypeId) (decls : List DeclId) :
    a.Takes (references decls) (a.completeType id decls) where
  grows := by constructor <;> simp [completeType]
  references_subset node member := by
    have changed := references_modify_subset (fun type : TypeNode => { type with decls })
      (references decls) (fun type node member => by simp at member ⊢; tauto) a.types id.index
    have changed := @changed node
    simp only [references_eq, completeType, List.mem_append] at member changed ⊢
    tauto

theorem modifyComments_takes (a : Arenas) (id : DeclId) (change : Comments → Comments) :
    a.Takes [] (a.modifyComments id change) where
  grows := by constructor <;> simp [modifyComments]
  references_subset node member := by
    have changed := references_modify_subset
      (fun decl : Decl => { decl with comments := change decl.comments }) []
      (fun decl node member => member) a.decls id.index
    have changed := @changed node
    simp only [references_eq, modifyComments, List.mem_append] at member changed ⊢
    tauto

/-! ## Nodes that are there -/

theorem type?_addType (a : Arenas) (type : TypeNode) {id : TypeId} {node : TypeNode}
    (found : a.type? id = some node) : (a.addType type).2.type? id = some node := by
  have inside : id.index < a.types.size := (Array.getElem?_eq_some_iff.mp found).1
  change (a.types.push type)[id.index]? = some node
  rw [Array.getElem?_push_lt inside]
  rwa [Arenas.type?, Array.getElem?_eq_getElem inside] at found

theorem type?_addType_self (a : Arenas) (type : TypeNode) :
    (a.addType type).2.type? (a.addType type).1 = some type :=
  Array.getElem?_push_size

theorem decl?_addDecl_self (a : Arenas) (decl : Decl) :
    (a.addDecl decl).2.decl? (a.addDecl decl).1 = some decl :=
  Array.getElem?_push_size

theorem type?_completeType (a : Arenas) (id other : TypeId) (decls : List DeclId) :
    (a.completeType id decls).type? other =
      if id = other then (a.type? id).map ({ · with decls }) else a.type? other := by
  change (a.types.modify id.index _)[other.index]? = _
  rw [Array.getElem?_modify]
  by_cases same : id = other
  · subst same
    simp only [if_true]
    rfl
  · have apart : id.index ≠ other.index := fun equal => same (congrArg TypeId.mk equal)
    rw [if_neg apart, if_neg same]
    rfl

/-- What does not depend on the declarations of a type is the same after a completion. -/
theorem type?_map_completeType {α : Type} {field : TypeNode → α} (a : Arenas)
    (id other : TypeId) (decls : List DeclId)
    (blind : ∀ type : TypeNode, field { type with decls } = field type) :
    ((a.completeType id decls).type? other).map field = (a.type? other).map field := by
  rw [type?_completeType]
  split
  · next same =>
    subst same
    rw [Option.map_map]
    exact congrArg (fun change => (a.type? id).map change) (funext blind)
  · rfl

theorem references_subset_of_type? {type : TypeNode} {id : TypeId}
    (found : a.type? id = some type) : references type ⊆ references a := by
  intro node member
  have inside := references_subset_of_getElem? found member
  simp only [references_eq, List.mem_append]
  tauto

end Arenas

/-! ## Closed programs -/

instance : Refers Program := ⟨fun p => references p.decls ++ references p.arenas⟩

def Program.Closed (p : Program) : Prop := p.arenas.OwnsAll (references p)

theorem lookup_children_subset {α : Type} [Refers α] {children : α → List NodeRef}
    (small : ∀ value, children value ⊆ references value) (values : Array α) (index : Nat) :
    values[index]?.elim [] children ⊆ references values.toList := by
  cases found : values[index]? with
  | none => exact List.nil_subset _
  | some value =>
      exact List.Subset.trans (small value) (Arenas.references_subset_of_getElem? found)

theorem Program.children_subset (p : Program) (node : NodeRef) :
    p.children node ⊆ references p := by
  intro child member
  change child ∈ references p.decls ++ references p.arenas
  simp only [Arenas.references_eq, List.mem_append]
  cases node with
  | program =>
      rw [children, map_eq_references references_declId] at member
      exact .inl member
  | decl id =>
      have inside := lookup_children_subset Decl.children_subset p.arenas.decls id.index member
      tauto
  | type id =>
      have inside :=
        lookup_children_subset TypeNode.children_subset p.arenas.types id.index member
      tauto
  | expr id =>
      have inside := lookup_children_subset Expr.children_subset p.arenas.exprs id.index member
      tauto
  | stmt id =>
      have inside := lookup_children_subset Stmt.children_subset p.arenas.stmts id.index member
      tauto
  | init id =>
      have inside := lookup_children_subset Init.children_subset p.arenas.inits id.index member
      tauto
  | label id =>
      have inside :=
        lookup_children_subset Label.children_subset p.arenas.labels id.index member
      tauto

end SyntaxGraph
