import SyntaxGraph.Proofs.Graph.Ownership

/-!
# Who owns a node

The parts of a node are the nodes that it owns: its children without types, which may be
shared, and the indices of its designators; with its types they are what it holds.  While a
source is read, each node that has been added and is no type is in one place: it is a part
of a node in the arenas, or it is held by a reading that will put it there.  A tally says
so.  A type that is given declarations hands out those that it had, which only the log of
the reading holds from then on.
-/

set_option autoImplicit false

namespace SyntaxGraph

class Owning (α : Type) where
  parts : α → List NodeRef

export Owning (parts)

/-! ## Identities and collections -/

section

variable {α β : Type} [Owning α] [Owning β]

instance : Owning DeclId := ⟨fun id => [.decl id]⟩
instance : Owning TypeId := ⟨fun id => [.type id]⟩
instance : Owning ExprId := ⟨fun id => [.expr id]⟩
instance : Owning StmtId := ⟨fun id => [.stmt id]⟩
instance : Owning InitId := ⟨fun id => [.init id]⟩
instance : Owning LabelId := ⟨fun id => [.label id]⟩

instance : Owning Bool := ⟨fun _ => []⟩
instance : Owning (Option α) := ⟨fun value => value.elim [] parts⟩
instance : Owning (List α) := ⟨fun values => values.flatMap parts⟩
instance : Owning (Array α) := ⟨fun values => parts values.toList⟩
instance : Owning (α × β) := ⟨fun pair => parts pair.1 ++ parts pair.2⟩

@[simp] theorem parts_declId (id : DeclId) : parts id = [.decl id] := rfl
@[simp] theorem parts_typeId (id : TypeId) : parts id = [.type id] := rfl
@[simp] theorem parts_exprId (id : ExprId) : parts id = [.expr id] := rfl
@[simp] theorem parts_stmtId (id : StmtId) : parts id = [.stmt id] := rfl
@[simp] theorem parts_initId (id : InitId) : parts id = [.init id] := rfl
@[simp] theorem parts_labelId (id : LabelId) : parts id = [.label id] := rfl
@[simp] theorem parts_bool (value : Bool) : parts value = [] := rfl
@[simp] theorem parts_none : parts (none : Option α) = [] := rfl
@[simp] theorem parts_some (value : α) : parts (some value) = parts value := rfl
@[simp] theorem parts_nil : parts ([] : List α) = [] := rfl
@[simp] theorem parts_cons (value : α) (values : List α) :
    parts (value :: values) = parts value ++ parts values := rfl
@[simp] theorem parts_array (values : Array α) : parts values = parts values.toList := rfl
@[simp] theorem parts_pair (first : α) (second : β) :
    parts (first, second) = parts first ++ parts second := rfl

@[simp] theorem parts_append (values others : List α) :
    parts (values ++ others) = parts values ++ parts others :=
  List.flatMap_append

@[simp] theorem count_parts_reverse (values : List α) (node : NodeRef) :
    (parts values.reverse).count node = (parts values).count node :=
  ((List.reverse_perm values).flatMap_right parts).count_eq node

theorem parts_flatten (values : List (List α)) : parts values.flatten = parts values := by
  induction values with
  | nil => rfl
  | cons first others ih => rw [List.flatten_cons, parts_append, ih, parts_cons]

end

/-! ## Nodes -/

@[simp] def Expr.Form.parts : Expr.Form → List NodeRef
  | .binary _ left right => [.expr left, .expr right]
  | .unary _ operand => [.expr operand]
  | .member _ object _ => [.expr object]
  | .name _ | .number _ | .string _ | .sizeofType _ => []
  | .call callee arguments => .expr callee :: SyntaxGraph.parts arguments
  | .cast _ operand => [.expr operand]
  | .castInit _ init => [.init init]
  | .offsetof _ path => [.expr path]
  | .vaArg list _ => [.expr list]
  | .comma items => SyntaxGraph.parts items
  | .conditional operands => SyntaxGraph.parts operands

@[simp] def Selector.parts : Selector → List NodeRef
  | .field _ _ => []
  | .index expr => [.expr expr]

@[simp] def Init.Form.parts : Init.Form → List NodeRef
  | .scalar expr => [.expr expr]
  | .braced items => SyntaxGraph.parts items

@[simp] def Stmt.Form.parts : Stmt.Form → List NodeRef
  | .empty | .breakOut | .continueOn | .goto _ => []
  | .block items => SyntaxGraph.parts items
  | .expr value => [.expr value]
  | .decl declared => [.decl declared]
  | .ifElse condition body otherwise =>
    .expr condition :: .stmt body :: SyntaxGraph.parts otherwise
  | .whileLoop condition body => [.expr condition, .stmt body]
  | .doWhile body condition => [.stmt body, .expr condition]
  | .forLoop pre condition post declared body =>
    .stmt body :: (SyntaxGraph.parts pre ++ SyntaxGraph.parts condition ++
      SyntaxGraph.parts post ++ SyntaxGraph.parts declared)
  | .switch condition body => [.expr condition, .stmt body]
  | .returnValue value => SyntaxGraph.parts value

@[simp] def Label.Form.parts : Label.Form → List NodeRef
  | .named _ | .default => []
  | .case value => [.expr value]

instance : Owning Expr.Form := ⟨Expr.Form.parts⟩
instance : Owning Stmt.Form := ⟨Stmt.Form.parts⟩
instance : Owning Label.Form := ⟨Label.Form.parts⟩
instance : Owning Designator := ⟨fun designator => designator.selector.parts⟩
instance : Owning Decl := ⟨fun decl => parts decl.init ++ parts decl.body⟩
instance : Owning TypeNode := ⟨fun type => parts type.decls ++ parts type.width⟩
instance : Owning Expr := ⟨fun expr => expr.form.parts ++ parts expr.block⟩
instance : Owning Init := ⟨fun init => parts init.designators ++ init.form.parts⟩
instance : Owning Stmt := ⟨fun stmt => stmt.form.parts ++ parts stmt.labels⟩
instance : Owning Label := ⟨fun label => label.form.parts⟩

@[simp] theorem parts_exprForm (form : Expr.Form) : parts form = form.parts := rfl
@[simp] theorem parts_stmtForm (form : Stmt.Form) : parts form = form.parts := rfl
@[simp] theorem parts_labelForm (form : Label.Form) : parts form = form.parts := rfl
@[simp] theorem parts_designator (designator : Designator) :
    parts designator = designator.selector.parts := rfl
@[simp] theorem parts_decl (decl : Decl) : parts decl = parts decl.init ++ parts decl.body := rfl
@[simp] theorem parts_typeNode (type : TypeNode) :
    parts type = parts type.decls ++ parts type.width := rfl
@[simp] theorem parts_expr (expr : Expr) :
    parts expr = expr.form.parts ++ parts expr.block := rfl
@[simp] theorem parts_init (init : Init) :
    parts init = parts init.designators ++ init.form.parts := rfl
@[simp] theorem parts_stmt (stmt : Stmt) :
    parts stmt = stmt.form.parts ++ parts stmt.labels := rfl
@[simp] theorem parts_label (label : Label) : parts label = label.form.parts := rfl

/-! Children are parts, unless they are types. -/

theorem map_eq_parts {α : Type} [Owning α] {name : α → NodeRef}
    (single : ∀ value : α, parts value = [name value]) (values : List α) :
    values.map name = parts values := by
  induction values with
  | nil => rfl
  | cons value values ih =>
      rw [List.map_cons, parts_cons, single, ih, List.singleton_append]

theorem toList_map_eq_parts {α : Type} [Owning α] {name : α → NodeRef}
    (single : ∀ value : α, parts value = [name value]) (value : Option α) :
    (value.map name).toList = parts value := by
  cases value with
  | none => rfl
  | some value => exact (single value).symm

theorem count_parts_pos_of_mem {decls : List DeclId} {decl : DeclId} (member : decl ∈ decls) :
    0 < (parts decls).count (.decl decl) := by
  rw [← map_eq_parts parts_declId]
  exact List.count_pos_iff.mpr (List.mem_map_of_mem member)

theorem Decl.mem_parts {decl : Decl} {child : NodeRef} (member : child ∈ decl.children) :
    (∃ id, child = .type id) ∨ child ∈ parts decl := by
  simp only [Decl.children, toList_map_eq_parts parts_initId, toList_map_eq_parts parts_stmtId,
    List.cons_append, List.mem_cons] at member
  rcases member with type | inside
  · exact .inl ⟨decl.type, type⟩
  · exact .inr inside

theorem TypeNode.mem_parts {type : TypeNode} {child : NodeRef} (member : child ∈ type.children) :
    (∃ id, child = .type id) ∨ child ∈ parts type := by
  simp only [TypeNode.children, map_eq_parts parts_declId, toList_map_eq_parts parts_exprId,
    List.append_assoc] at member
  rcases List.mem_append.mp member with base | inside
  · obtain ⟨id, -, same⟩ := Option.map_eq_some_iff.mp (Option.mem_toList.mp base)
    exact .inl ⟨id, same.symm⟩
  · exact .inr inside

theorem Expr.mem_parts {expr : Expr} {child : NodeRef} (member : child ∈ expr.children) :
    (∃ id, child = .type id) ∨ child ∈ parts expr := by
  simp only [Expr.children, toList_map_eq_parts parts_exprId, map_eq_parts parts_exprId,
    toList_map_eq_parts parts_initId, map_eq_parts parts_stmtId] at member
  obtain ⟨form, span, block, resolvedType, resolvedDecl⟩ := expr
  cases form <;>
    simp [Expr.left, Expr.right, Expr.list, Expr.typeOperand, Expr.init] at member ⊢ <;>
    grind

theorem Stmt.mem_parts {stmt : Stmt} {child : NodeRef} (member : child ∈ stmt.children) :
    child ∈ parts stmt := by
  simp only [Stmt.children, toList_map_eq_parts parts_exprId, toList_map_eq_parts parts_declId,
    toList_map_eq_parts parts_stmtId, map_eq_parts parts_stmtId,
    map_eq_parts parts_labelId] at member
  obtain ⟨form, labels, span⟩ := stmt
  cases form <;>
    simp [Stmt.pre, Stmt.expr, Stmt.post, Stmt.decl, Stmt.body, Stmt.otherwise, Stmt.block]
      at member ⊢ <;>
    tauto

theorem Init.mem_parts {init : Init} {child : NodeRef} (member : child ∈ init.children) :
    child ∈ parts init := by
  simp only [Init.children, map_eq_parts parts_initId,
    toList_map_eq_parts parts_exprId] at member
  obtain ⟨designators, form, span, resolvedType⟩ := init
  cases form <;> simp [Init.items, Init.scalar] at member ⊢ <;> tauto

theorem Label.mem_parts {label : Label} {child : NodeRef} (member : child ∈ label.children) :
    child ∈ parts label := by
  rw [Label.children, toList_map_eq_parts parts_exprId] at member
  obtain ⟨form, span⟩ := label
  cases form <;> exact member

/-! ## What a node holds -/

def NodeRef.isType : NodeRef → Bool
  | .type _ => true
  | .program | .decl _ | .expr _ | .stmt _ | .init _ | .label _ => false

@[simp] def Expr.Form.types : Expr.Form → List NodeRef
  | .cast type _ | .castInit type _ | .sizeofType type | .offsetof type _ | .vaArg _ type =>
    [.type type]
  | .binary _ _ _ | .unary _ _ | .member _ _ _ | .name _ | .number _ | .string _ => []
  | .call _ _ | .comma _ | .conditional _ => []

@[simp] def Decl.holds (decl : Decl) : List NodeRef := .type decl.type :: parts decl
@[simp] def TypeNode.holds (type : TypeNode) : List NodeRef := parts type.base ++ parts type
@[simp] def Expr.Form.holds (form : Expr.Form) : List NodeRef := form.types ++ form.parts
@[simp] def Expr.holds (expr : Expr) : List NodeRef := expr.form.types ++ parts expr

theorem NodeRef.count_types {node : NodeRef} (unshared : node.isType = false)
    {types : List NodeRef} (shared : ∀ type ∈ types, type.isType = true) :
    types.count node = 0 := by
  refine List.count_eq_zero.mpr fun member => ?_
  rw [shared node member] at unshared
  cases unshared

/-! Apart from types a node holds its parts. -/

theorem Decl.count_holds {node : NodeRef} (unshared : node.isType = false) (decl : Decl) :
    decl.holds.count node = (parts decl).count node := by
  have none : [NodeRef.type decl.type].count node = 0 :=
    NodeRef.count_types unshared (by simp [NodeRef.isType])
  rw [holds, ← List.singleton_append, List.count_append, none, Nat.zero_add]

theorem TypeNode.count_holds {node : NodeRef} (unshared : node.isType = false)
    (type : TypeNode) : type.holds.count node = (parts type).count node := by
  have shared : ∀ node ∈ parts type.base, node.isType = true := by
    cases type.base <;> simp [NodeRef.isType]
  rw [holds, List.count_append, NodeRef.count_types unshared shared, Nat.zero_add]

theorem Expr.count_holds {node : NodeRef} (unshared : node.isType = false) (expr : Expr) :
    expr.holds.count node = (parts expr).count node := by
  have shared : ∀ node ∈ expr.form.types, node.isType = true := by
    cases expr.form <;> simp [NodeRef.isType]
  rw [holds, List.count_append, NodeRef.count_types unshared shared, Nat.zero_add]

/-- The kinds of nodes that types do not have. -/
def NodeRef.isLasting : NodeRef → Bool
  | .expr _ | .stmt _ | .init _ | .label _ => true
  | .program | .decl _ | .type _ => false

/-! ## Tallies -/

instance : Owning Arenas :=
  ⟨fun a => parts a.decls ++ parts a.types ++ parts a.exprs ++ parts a.stmts ++ parts a.inits ++
    parts a.labels⟩

namespace Arenas

variable {a b : Arenas} {brought new held : List NodeRef}

theorem parts_eq (a : Arenas) :
    parts a = parts a.decls.toList ++ parts a.types.toList ++ parts a.exprs.toList ++
      parts a.stmts.toList ++ parts a.inits.toList ++ parts a.labels.toList := rfl

/-- In how many places a node is, as a part or held. -/
def places (a : Arenas) (held : List NodeRef) (node : NodeRef) : Nat :=
  held.count node + (parts a).count node

/-- Whether a node has been added. -/
def has (a : Arenas) : NodeRef → Bool
  | .program => false
  | node => a.owns node

theorem owns_of_has {node : NodeRef} (added : a.has node = true) : a.owns node = true := by
  cases node <;> first | exact added | rfl

/-- Every node that has been added and is no type is in one place, and no other one is. -/
def Tally (a : Arenas) (held : List NodeRef) : Prop :=
  ∀ node, node.isType = false → a.places held node = (a.has node).toNat

theorem Tally.congr {others : List NodeRef} (tally : a.Tally held)
    (same : ∀ node, node.isType = false → held.count node = others.count node) :
    a.Tally others := by
  intro node unshared
  have known := tally node unshared
  rwa [places, same node unshared] at known

theorem tally_empty : Tally {} [] := by
  intro node _
  cases node <;> simp [places, parts_eq, has, owns]

/-- What is brought into arenas comes out of them or stays there as a part, and what comes
out besides has been added. -/
def Hands (a : Arenas) (brought : List NodeRef) (b : Arenas) (new : List NodeRef) : Prop :=
  ∀ node, node.isType = false →
    b.places new node + (a.has node).toNat = a.places brought node + (b.has node).toNat

theorem Hands.congr {others : List NodeRef} (hands : a.Hands brought b new)
    (same : ∀ node, node.isType = false → others.count node = brought.count node) :
    a.Hands others b new := by
  intro node unshared
  have change := hands node unshared
  rwa [places, places, ← same node unshared] at change

theorem Tally.hand (tally : a.Tally (brought ++ held)) (hands : a.Hands brought b new) :
    b.Tally (new ++ held) := by
  intro node unshared
  have before := tally node unshared
  have change := hands node unshared
  simp only [places, List.count_append] at before change ⊢
  omega

/-! ## Adding -/

theorem parts_push {α : Type} [Owning α] (values : Array α) (value : α) :
    parts (values.push value).toList = parts values.toList ++ parts value := by
  rw [Array.toList_push, parts_append, parts_cons, parts_nil, List.append_nil]

/-- What has been added is what had been added before, and the new nodes. -/
theorem hands_of_has
    (counts : ∀ node, (parts b).count node = (parts a).count node + brought.count node)
    (added : ∀ node, node.isType = false →
      (b.has node).toNat = (a.has node).toNat + new.count node) :
    a.Hands brought b new := by
  intro node unshared
  have count := counts node
  have more := added node unshared
  simp only [places]
  omega

/-- The index of a new value is inside, and no other one that was not. -/
theorem toNat_lt_size_push {α : Type} (values : Array α) (value : α) {index : Nat}
    {node new : NodeRef} (same : new = node ↔ values.size = index) :
    (decide (index < (values.push value).size)).toNat =
      (decide (index < values.size)).toNat + [new].count node := by
  rw [Array.size_push, List.count_singleton]
  by_cases last : values.size = index
  · have equal : new = node := same.mpr last
    simp [last, equal]
  · have different : new ≠ node := fun equal => last (same.mp equal)
    have inside : index < values.size + 1 ↔ index < values.size := by omega
    simp only [inside, beq_iff_eq, if_neg different, Nat.add_zero]

theorem addDecl_hands (a : Arenas) (decl : Decl) :
    a.Hands decl.holds (a.addDecl decl).2 (parts (a.addDecl decl).1) := by
  refine .congr (hands_of_has (fun node => ?_) fun node _ => ?_)
    fun node unshared => decl.count_holds unshared
  · simp only [addDecl, parts_eq, parts_push, List.count_append]
    omega
  · cases node with
    | decl id =>
        obtain ⟨index⟩ := id
        exact toNat_lt_size_push a.decls decl (by simp [addDecl])
    | _ => rfl

theorem addExpr_hands (a : Arenas) (expr : Expr) :
    a.Hands expr.holds (a.addExpr expr).2 (parts (a.addExpr expr).1) := by
  refine .congr (hands_of_has (fun node => ?_) fun node _ => ?_)
    fun node unshared => expr.count_holds unshared
  · simp only [addExpr, parts_eq, parts_push, List.count_append]
    omega
  · cases node with
    | expr id =>
        obtain ⟨index⟩ := id
        exact toNat_lt_size_push a.exprs expr (by simp [addExpr])
    | _ => rfl

theorem addStmt_hands (a : Arenas) (stmt : Stmt) :
    a.Hands (parts stmt) (a.addStmt stmt).2 (parts (a.addStmt stmt).1) := by
  refine hands_of_has (fun node => ?_) fun node _ => ?_
  · simp only [addStmt, parts_eq, parts_push, List.count_append]
    omega
  · cases node with
    | stmt id =>
        obtain ⟨index⟩ := id
        exact toNat_lt_size_push a.stmts stmt (by simp [addStmt])
    | _ => rfl

theorem addInit_hands (a : Arenas) (init : Init) :
    a.Hands (parts init) (a.addInit init).2 (parts (a.addInit init).1) := by
  refine hands_of_has (fun node => ?_) fun node _ => ?_
  · simp only [addInit, parts_eq, parts_push, List.count_append]
    omega
  · cases node with
    | init id =>
        obtain ⟨index⟩ := id
        exact toNat_lt_size_push a.inits init (by simp [addInit])
    | _ => rfl

theorem addLabel_hands (a : Arenas) (label : Label) :
    a.Hands (parts label) (a.addLabel label).2 (parts (a.addLabel label).1) := by
  refine hands_of_has (fun node => ?_) fun node _ => ?_
  · simp only [addLabel, parts_eq, parts_push, List.count_append]
    omega
  · cases node with
    | label id =>
        obtain ⟨index⟩ := id
        exact toNat_lt_size_push a.labels label (by simp [addLabel])
    | _ => rfl

theorem addType_hands (a : Arenas) (type : TypeNode) :
    a.Hands type.holds (a.addType type).2 (parts (a.addType type).1) := by
  refine .congr (hands_of_has (fun node => ?_) fun node unshared => ?_)
    fun node unshared => type.count_holds unshared
  · simp only [addType, parts_eq, parts_push, List.count_append]
    omega
  · cases node with
    | type id => cases unshared
    | _ => rfl

/-! ## Filling in -/

theorem count_parts_modify_eq {α : Type} [Owning α] {change : α → α} {node : NodeRef}
    (same : ∀ value, (parts (change value)).count node = (parts value).count node)
    (values : List α) (index : Nat) :
    (parts (values.modify index change)).count node = (parts values).count node := by
  induction values generalizing index with
  | nil => cases index <;> rfl
  | cons value values ih =>
      cases index with
      | zero => simp [same value]
      | succ index => simp [ih index]

/-- A change to one value exchanges the parts of that value. -/
theorem count_parts_modify_exchange {α : Type} [Owning α] (change : α → α) {values : List α}
    {index : Nat} {value : α} (found : values[index]? = some value) (node : NodeRef) :
    (parts (values.modify index change)).count node + (parts value).count node =
      (parts values).count node + (parts (change value)).count node := by
  induction values generalizing index with
  | nil => simp at found
  | cons first values ih =>
      cases index with
      | zero =>
          obtain rfl : first = value := by simpa using found
          simp only [List.modify_zero_cons, parts_cons, List.count_append]
          omega
      | succ index =>
          have others := ih (by simpa using found)
          simp only [List.modify_succ_cons, parts_cons, List.count_append]
          omega

theorem count_parts_decls {node : NodeRef} (lasting : node.isLasting = true)
    (decls : List DeclId) : (parts decls).count node = 0 := by
  induction decls with
  | nil => rfl
  | cons decl decls ih =>
      have other : (parts decl).count node = 0 := by
        cases node <;> first | rfl | cases lasting
      rw [parts_cons, List.count_append, other, ih]

/-- A type that is given declarations hands out those that it had. -/
theorem completeType_hands {id : TypeId} {type : TypeNode} (found : a.type? id = some type)
    (decls : List DeclId) :
    a.Hands (parts decls) (a.completeType id decls) (parts type.decls) := by
  intro node _
  have there : a.types.toList[id.index]? = some type := by simpa [type?] using found
  have exchanged :=
    count_parts_modify_exchange (fun type : TypeNode => { type with decls }) there node
  have added : (a.completeType id decls).has node = a.has node := by
    cases node with
    | type other => simp [has, owns, completeType]
    | _ => rfl
  simp only [parts_typeNode, List.count_append] at exchanged
  simp only [completeType, places, parts_eq, Array.toList_modify, List.count_append] at added ⊢
  rw [added]
  omega

theorem modifyComments_hands (a : Arenas) (id : DeclId) (change : Comments → Comments) :
    a.Hands [] (a.modifyComments id change) [] := by
  refine hands_of_has (fun node => ?_) fun node _ => ?_
  · have same : (parts (a.modifyComments id change).decls.toList).count node =
        (parts a.decls.toList).count node := by
      rw [modifyComments, Array.toList_modify]
      refine count_parts_modify_eq (fun decl => ?_) _ _
      rfl
    simp only [modifyComments, parts_eq, List.count_append, List.count_nil] at same ⊢
    omega
  · cases node with
    | decl other => simp [has, owns, modifyComments]
    | _ => rfl

end Arenas

end SyntaxGraph
