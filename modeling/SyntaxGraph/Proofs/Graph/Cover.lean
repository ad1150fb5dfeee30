import SyntaxGraph.Proofs.Graph.Custody
import SyntaxGraph.Proofs.Graph.Rank

/-!
# What leads to a declaration

While a source is read, every declaration that has been added is covered: what is held
leads to it, from nodes to what they hold.  Only one thing may come in between: a bit-field
is narrowed to a copy of its type that has no declarations, so that nothing has to lead to
the type itself any more.  What leads on from there still covers.
-/

set_option autoImplicit false

namespace SyntaxGraph

/-- The type can be narrowed to a bit-field without losing anything but declarations. -/
def TypeNode.isPlain (type : TypeNode) : Bool :=
  !type.kind.isInteger || (type.base.isNone && type.width.isNone)

/-- The one type is a bit-field that has been made of the other. -/
def TypeNode.Narrows (narrow type : TypeNode) : Prop :=
  type.isPlain = true ∧ type.kind.isInteger = true ∧
    ∃ width, { narrow with decls := [] } = { type with width := some width, decls := [] }

namespace Arenas

variable {a b : Arenas} {brought new held others : List NodeRef} {node : NodeRef}

def Plain (a : Arenas) (id : TypeId) : Prop := (a.type? id).map TypeNode.isPlain = some true

def AllPlain (a : Arenas) (nodes : List NodeRef) : Prop := ∀ id, .type id ∈ nodes → a.Plain id

/-- There is a bit-field that has been made of the type. -/
def Narrowed (a : Arenas) (id : TypeId) : Prop :=
  ∃ type other narrow, a.type? id = some type ∧ a.type? other = some narrow ∧
    narrow.Narrows type

def holds (a : Arenas) : NodeRef → List NodeRef
  | .program => []
  | .decl id => (a.decl? id).elim [] Decl.holds
  | .type id => (a.type? id).elim [] TypeNode.holds
  | .expr id => (a.expr? id).elim [] Expr.holds
  | .stmt id => (a.stmt? id).elim [] parts
  | .init id => (a.init? id).elim [] parts
  | .label id => (a.label? id).elim [] parts

/-- What is held leads to the node, or a type does that has been narrowed. -/
inductive Covered (a : Arenas) (held : List NodeRef) : NodeRef → Prop
  | held {node : NodeRef} (member : node ∈ held) : Covered a held node
  | narrowed {id : TypeId} (narrowed : a.Narrowed id) : Covered a held (.type id)
  | part {parent child : NodeRef} (above : Covered a held parent)
      (member : child ∈ a.holds parent) : Covered a held child

def Covers (a : Arenas) (held : List NodeRef) : Prop :=
  ∀ id, a.owns (.decl id) = true → a.Covered held (.decl id)

structure Keeps (a : Arenas) (held : List NodeRef) : Prop where
  tally : a.Tally held
  covers : a.Covers held

/-- What is brought into arenas comes out of them as new nodes or stays there, and what
else is held stays as it is. -/
def Carries (a : Arenas) (brought : List NodeRef) (b : Arenas) (new : List NodeRef) : Prop :=
  ∀ held, a.Keeps (brought ++ held) → b.Keeps (new ++ held)

/-- What is held besides may be split in two. -/
theorem Carries.frame (carries : a.Carries brought b new) (held : List NodeRef) :
    a.Carries (brought ++ held) b (new ++ held) := by
  intro others keeps
  rw [List.append_assoc] at keeps ⊢
  exact carries _ keeps

theorem keeps_empty : Keeps {} [] where
  tally := tally_empty
  covers id owned := by simp [owns] at owned

/-- By induction on the way to the node. -/
theorem Covered.carry (covered : a.Covered held node)
    (roots : ∀ root ∈ held, b.Covered others root)
    (narrowed : ∀ id, a.Narrowed id → b.Narrowed id)
    (parts : ∀ parent, b.Covered others parent → ∀ child ∈ a.holds parent,
      b.Covered others child) : b.Covered others node := by
  induction covered with
  | held member => exact roots _ member
  | narrowed copied => exact .narrowed (narrowed _ copied)
  | part _ member above => exact parts _ above _ member

/-- More may be held. -/
theorem Covered.mono (covered : a.Covered held node) (inside : held ⊆ others) :
    a.Covered others node :=
  covered.carry (fun _ member => .held (inside member)) (fun _ narrowed => narrowed)
    fun _ above _ member => .part above member

theorem Keeps.congr (keeps : a.Keeps held)
    (same : ∀ node, held.count node = others.count node) : a.Keeps others where
  tally := keeps.tally.congr fun node _ => same node
  covers id owned := by
    refine (keeps.covers id owned).mono fun root member => ?_
    rw [← List.count_pos_iff, ← same root]
    exact List.count_pos_iff.mpr member

/-- Any type may be held. -/
theorem Keeps.borrow (keeps : a.Keeps held) (id : TypeId) : a.Keeps (.type id :: held) where
  tally := keeps.tally.congr fun node unshared => by
    cases node <;> first | simp | cases unshared
  covers decl owned := (keeps.covers decl owned).mono (List.subset_cons_self _ _)

/-- A type that holds nothing need not be held. -/
theorem Keeps.drop {id : TypeId} (keeps : a.Keeps (.type id :: held))
    (leaf : a.holds (.type id) = []) : a.Keeps held where
  tally := keeps.tally.congr fun node unshared => by
    cases node <;> first | simp | cases unshared
  covers decl owned := by
    have apart : ∀ node, a.Covered (.type id :: held) node →
        node = .type id ∨ a.Covered held node := by
      intro node covered
      induction covered with
      | held member => exact (List.mem_cons.mp member).imp_right .held
      | narrowed copied => exact .inr (.narrowed copied)
      | part _ member above =>
          rcases above with rfl | above
          · rw [leaf] at member
            cases member
          · exact .inr (.part above member)
    rcases apart _ (keeps.covers decl owned) with type | covered
    · cases type
    · exact covered

/-! ## Plain types -/

theorem AllPlain.subset (plain : a.AllPlain held) (inside : others ⊆ held) : a.AllPlain others :=
  fun id member => plain id (inside member)

theorem Plain.addType {id : TypeId} (plain : a.Plain id) (type : TypeNode) :
    (a.addType type).2.Plain id := by
  obtain ⟨node, found, isPlain⟩ := Option.map_eq_some_iff.mp plain
  exact Option.map_eq_some_iff.mpr ⟨node, a.type?_addType type found, isPlain⟩

theorem Plain.completeType {id : TypeId} (plain : a.Plain id) (completed : TypeId)
    (decls : List DeclId) : (a.completeType completed decls).Plain id := by
  rw [Plain, type?_map_completeType _ _ _ _ fun _ => rfl]
  exact plain

theorem plain_addType (a : Arenas) {type : TypeNode} (plain : type.isPlain = true) :
    (a.addType type).2.Plain (a.addType type).1 := by
  rw [Plain, type?_addType_self]
  exact congrArg some plain

/-! ## Adding -/

/-- What loses no part of a node carries, if what is brought is covered. -/
theorem Carries.of_hands (hands : a.Hands brought b new)
    (grows : ∀ parent, a.holds parent ⊆ b.holds parent)
    (narrowed : ∀ id, a.Narrowed id → b.Narrowed id)
    (above : ∀ held, ∀ child ∈ brought, b.Covered (new ++ held) child)
    (fresh : ∀ id, b.owns (.decl id) = true → a.owns (.decl id) = true ∨ .decl id ∈ new) :
    a.Carries brought b new := by
  refine fun held keeps => ⟨keeps.tally.hand hands, fun id owned => ?_⟩
  rcases fresh id owned with old | newest
  · refine (keeps.covers id old).carry (fun root member => ?_) narrowed
      fun parent covered child member => .part covered (grows parent member)
    rcases List.mem_append.mp member with carried | kept
    · exact above held root carried
    · exact .held (List.mem_append_right _ kept)
  · exact .held (List.mem_append_left _ newest)

theorem lookup_subset_push {α : Type} (values : Array α) (value : α) (index : Nat)
    (holds : α → List NodeRef) :
    values[index]?.elim [] holds ⊆ (values.push value)[index]?.elim [] holds := by
  rcases Nat.lt_or_ge index values.size with inside | beyond
  · rw [Array.getElem?_push_lt inside, Array.getElem?_eq_getElem inside]
    exact List.Subset.refl _
  · rw [Array.getElem?_eq_none beyond]
    exact List.nil_subset _

/-- A new node covers what it holds. -/
theorem Covered.of_new {root : NodeRef} (same : b.holds root = brought) (held : List NodeRef) :
    ∀ child ∈ brought, b.Covered ([root] ++ held) child := by
  rintro child member
  rw [← same] at member
  exact .part (.held List.mem_cons_self) member

theorem addDecl_carries (a : Arenas) (decl : Decl) :
    a.Carries decl.holds (a.addDecl decl).2 (parts (a.addDecl decl).1) := by
  have same : (a.addDecl decl).2.holds (.decl (a.addDecl decl).1) = decl.holds := by
    simp [holds, addDecl, decl?]
  refine .of_hands (a.addDecl_hands decl) (fun parent => ?_) (fun _ narrowed => narrowed)
    (.of_new same) fun id owned => ?_
  · cases parent with
    | decl id => exact lookup_subset_push a.decls decl id.index Decl.holds
    | _ => exact List.Subset.refl _
  · obtain ⟨index⟩ := id
    simp only [addDecl, owns, Array.size_push, decide_eq_true_eq, parts_declId,
      List.mem_singleton, NodeRef.decl.injEq, DeclId.mk.injEq] at owned ⊢
    omega

theorem Narrowed.addType {id : TypeId} (narrowed : a.Narrowed id) (type : TypeNode) :
    (a.addType type).2.Narrowed id := by
  obtain ⟨wide, other, narrow, found, there, narrows⟩ := narrowed
  exact ⟨wide, other, narrow, a.type?_addType type found, a.type?_addType type there, narrows⟩

theorem holds_subset_addType (a : Arenas) (type : TypeNode) (parent : NodeRef) :
    a.holds parent ⊆ (a.addType type).2.holds parent := by
  cases parent with
  | type id => exact lookup_subset_push a.types type id.index TypeNode.holds
  | _ => exact List.Subset.refl _

theorem holds_addType (a : Arenas) (type : TypeNode) :
    (a.addType type).2.holds (.type (a.addType type).1) = type.holds := by
  rw [holds, type?_addType_self]
  rfl

theorem addType_carries (a : Arenas) (type : TypeNode) :
    a.Carries type.holds (a.addType type).2 (parts (a.addType type).1) :=
  .of_hands (a.addType_hands type) (a.holds_subset_addType type)
    (fun _ narrowed => narrowed.addType type) (.of_new (a.holds_addType type))
    fun _ owned => .inl owned

/-- To narrow a plain type brings in the type itself. -/
theorem addType_narrows {id : TypeId} {type : TypeNode} (found : a.type? id = some type)
    (plain : type.isPlain = true) (integer : type.kind.isInteger = true) (width : ExprId) :
    a.Carries [.type id, .expr width]
      (a.addType { type with width := some width, decls := [] }).2
      (parts (a.addType { type with width := some width, decls := [] }).1) := by
  let narrow : TypeNode := { type with width := some width, decls := [] }
  have root : type.base = none := by
    simp only [TypeNode.isPlain, integer, Bool.not_true, Bool.false_or, Bool.and_eq_true,
      Option.isNone_iff_eq_none] at plain
    exact plain.1
  have same : narrow.holds = [.expr width] := by simp [narrow, root]
  have hands : a.Hands [.type id, .expr width] (a.addType narrow).2
      (parts (a.addType narrow).1) :=
    (a.addType_hands narrow).congr fun node unshared => by
      rw [same]
      cases node <;> first | rfl | cases unshared
  have narrowed : (a.addType narrow).2.Narrowed id :=
    ⟨type, _, narrow, a.type?_addType narrow found, a.type?_addType_self narrow, plain, integer,
      width, rfl⟩
  refine .of_hands hands (a.holds_subset_addType narrow)
    (fun _ narrowed => narrowed.addType narrow) (fun held child member => ?_)
    fun _ owned => .inl owned
  rcases List.mem_cons.mp member with rfl | member
  · exact .narrowed narrowed
  · exact Covered.of_new ((a.holds_addType narrow).trans same) held child member

theorem addExpr_carries (a : Arenas) (expr : Expr) :
    a.Carries expr.holds (a.addExpr expr).2 (parts (a.addExpr expr).1) := by
  have same : (a.addExpr expr).2.holds (.expr (a.addExpr expr).1) = expr.holds := by
    simp [holds, addExpr, expr?]
  refine .of_hands (a.addExpr_hands expr) (fun parent => ?_) (fun _ narrowed => narrowed)
    (.of_new same) fun _ owned => .inl owned
  cases parent with
  | expr id => exact lookup_subset_push a.exprs expr id.index Expr.holds
  | _ => exact List.Subset.refl _

theorem addStmt_carries (a : Arenas) (stmt : Stmt) :
    a.Carries (parts stmt) (a.addStmt stmt).2 (parts (a.addStmt stmt).1) := by
  have same : (a.addStmt stmt).2.holds (.stmt (a.addStmt stmt).1) = parts stmt := by
    simp [holds, addStmt, stmt?]
  refine .of_hands (a.addStmt_hands stmt) (fun parent => ?_) (fun _ narrowed => narrowed)
    (.of_new same) fun _ owned => .inl owned
  cases parent with
  | stmt id => exact lookup_subset_push a.stmts stmt id.index parts
  | _ => exact List.Subset.refl _

theorem addInit_carries (a : Arenas) (init : Init) :
    a.Carries (parts init) (a.addInit init).2 (parts (a.addInit init).1) := by
  have same : (a.addInit init).2.holds (.init (a.addInit init).1) = parts init := by
    simp [holds, addInit, init?]
  refine .of_hands (a.addInit_hands init) (fun parent => ?_) (fun _ narrowed => narrowed)
    (.of_new same) fun _ owned => .inl owned
  cases parent with
  | init id => exact lookup_subset_push a.inits init id.index parts
  | _ => exact List.Subset.refl _

theorem addLabel_carries (a : Arenas) (label : Label) :
    a.Carries (parts label) (a.addLabel label).2 (parts (a.addLabel label).1) := by
  have same : (a.addLabel label).2.holds (.label (a.addLabel label).1) = parts label := by
    simp [holds, addLabel, label?]
  refine .of_hands (a.addLabel_hands label) (fun parent => ?_) (fun _ narrowed => narrowed)
    (.of_new same) fun _ owned => .inl owned
  cases parent with
  | label id => exact lookup_subset_push a.labels label id.index parts
  | _ => exact List.Subset.refl _

/-! ## Filling in -/

theorem modifyComments_carries (a : Arenas) (id : DeclId) (change : Comments → Comments) :
    a.Carries [] (a.modifyComments id change) [] := by
  refine .of_hands (a.modifyComments_hands id change) (fun parent => ?_)
    (fun _ narrowed => narrowed) (fun _ _ member => absurd member List.not_mem_nil)
    fun other owned => ?_
  · cases parent with
    | decl other =>
        change a.decls[other.index]?.elim [] Decl.holds ⊆
          (a.modifyComments id change).decls[other.index]?.elim [] Decl.holds
        have kept : ∀ decl : Decl, a.decls[id.index]? = some decl →
            Decl.holds { decl with comments := change decl.comments } = decl.holds :=
          fun _ _ => rfl
        rw [modifyComments, lookup_modify_links kept]
        exact List.Subset.refl _
    | _ => exact List.Subset.refl _
  · simp only [modifyComments, owns, Array.size_modify] at owned
    exact .inl owned

theorem Narrowed.completeType {id : TypeId} (narrowed : a.Narrowed id) (completed : TypeId)
    (decls : List DeclId) : (a.completeType completed decls).Narrowed id := by
  have complete : ∀ {id type}, a.type? id = some type → ∃ decls',
      (a.completeType completed decls).type? id = some { type with decls := decls' } := by
    intro id type found
    rw [type?_completeType]
    split
    · next same =>
      subst same
      exact ⟨decls, by rw [found]; rfl⟩
    · exact ⟨type.decls, found⟩
  obtain ⟨type, other, narrow, found, there, narrows⟩ := narrowed
  obtain ⟨_, completeFound⟩ := complete found
  obtain ⟨_, completeThere⟩ := complete there
  exact ⟨_, other, _, completeFound, completeThere, narrows⟩

theorem holds_type {id : TypeId} {type : TypeNode} (found : a.type? id = some type) :
    a.holds (.type id) = parts type.base ++ (parts type.decls ++ parts type.width) := by
  rw [holds, found]
  rfl

theorem holds_completeType_self {id : TypeId} {type : TypeNode} (found : a.type? id = some type)
    (decls : List DeclId) : (a.completeType id decls).holds (.type id) =
      parts type.base ++ (parts decls ++ parts type.width) := by
  have completed : (a.completeType id decls).type? id = some { type with decls } := by
    rw [type?_completeType, if_pos rfl, found]
    rfl
  exact holds_type completed

theorem holds_completeType_of_ne {id : TypeId} {parent : NodeRef} (different : parent ≠ .type id)
    (decls : List DeclId) : (a.completeType id decls).holds parent = a.holds parent := by
  cases parent with
  | type other =>
      have apart : id ≠ other := fun same => different (same ▸ rfl)
      rw [holds, type?_completeType, if_neg apart]
      rfl
  | _ => rfl

/-- The completed type itself goes from hand to hand, and with it what it had. -/
theorem completeType_hands_type {id : TypeId} {type : TypeNode} (found : a.type? id = some type)
    (decls : List DeclId) :
    a.Hands (.type id :: parts decls) (a.completeType id decls) (.type id :: parts type.decls) := by
  intro node unshared
  have none : [NodeRef.type id].count node = 0 :=
    NodeRef.count_types unshared (by simp [NodeRef.isType])
  have more (decls : List DeclId) :
      (NodeRef.type id :: parts decls).count node = (parts decls).count node := by
    rw [← List.singleton_append, List.count_append, none, Nat.zero_add]
  simpa only [places, more] using a.completeType_hands found decls node unshared

/-- What the type held stays covered: the declarations that it had are handed out, the rest
it keeps. -/
theorem covered_completeType {id : TypeId} {type : TypeNode} (found : a.type? id = some type)
    (decls : List DeclId) (held : List NodeRef) :
    ∀ child ∈ a.holds (.type id),
      (a.completeType id decls).Covered ((.type id :: parts type.decls) ++ held) child := by
  intro child member
  have root : (a.completeType id decls).Covered ((.type id :: parts type.decls) ++ held)
      (.type id) := .held List.mem_cons_self
  have here := holds_completeType_self found decls
  rw [holds_type found] at member
  rcases List.mem_append.mp member with base | member
  · exact .part root (here ▸ List.mem_append_left _ base)
  rcases List.mem_append.mp member with declared | width
  · exact .held (List.mem_append_left _ (List.mem_cons_of_mem _ declared))
  · exact .part root (here ▸ List.mem_append_right _ (List.mem_append_right _ width))

/-- A type that is there takes the declarations, and hands out what it had. -/
theorem completeType_carries {id : TypeId} {type : TypeNode} (found : a.type? id = some type)
    (decls : List DeclId) :
    a.Carries (.type id :: parts decls) (a.completeType id decls)
      (.type id :: parts type.decls) := by
  have hands := a.completeType_hands_type found decls
  refine fun held keeps => ⟨keeps.tally.hand hands, fun decl owned => ?_⟩
  refine (keeps.covers decl owned).carry (fun node member => ?_)
    (fun _ narrowed => narrowed.completeType id decls) fun parent covered child member => ?_
  · have root : (a.completeType id decls).Covered ((.type id :: parts type.decls) ++ held)
        (.type id) := .held List.mem_cons_self
    rcases List.mem_append.mp member with carried | kept
    · rcases List.mem_cons.mp carried with rfl | declared
      · exact root
      · refine .part root ?_
        rw [holds_completeType_self found]
        exact List.mem_append_right _ (List.mem_append_left _ declared)
    · exact .held (List.mem_append_right _ kept)
  · by_cases same : parent = .type id
    · subst same
      exact covered_completeType found decls held child member
    · exact .part covered ((holds_completeType_of_ne same decls).symm ▸ member)

end Arenas

end SyntaxGraph
