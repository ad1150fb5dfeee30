import Mathlib.Algebra.Order.BigOperators.Group.List
import Mathlib.Algebra.Order.Group.Nat
import Mathlib.Data.List.Chain
import SyntaxGraph.Proofs.Graph.Ownership

/-!
# Ranks

A structure, a union or an enumeration may be a part of what its own members are made of,
so the children of nodes can form cycles.  The other edges cannot: the links of a node
are its children without the members of such a type, and arenas are ranked if every link
leads to a smaller rank.  What is done to arenas while a source is read either leaves the
links of a node as they were or gives links to a node that has not been there before.  So
ranked arenas stay ranked: a new node ranks above all that it brings in.
-/

set_option autoImplicit false

namespace SyntaxGraph

/-- The kinds whose declarations are members or enumerators. -/
def TypeKind.isTagged : TypeKind → Bool
  | .struct | .union | .enum => true
  | _ => false

/-- The type is a structure, a union or an enumeration with this tag. -/
def Arenas.Bears (a : Arenas) (tag : String) (id : TypeId) : Prop :=
  ∃ type, a.type? id = some type ∧ type.kind.isTagged = true ∧ type.tag = some tag

/-- The type is a structure, a union or an enumeration without declarations. -/
def Arenas.Bare (a : Arenas) (id : TypeId) : Prop :=
  ∃ type, a.type? id = some type ∧ type.kind.isTagged = true ∧ type.decls = []

/-- A type that keeps its kind stays tagged. -/
theorem Arenas.Bare.tagged {a b : Arenas} {id : TypeId} (bare : a.Bare id)
    (kept : ∀ kind, (a.type? id).map TypeNode.kind = some kind →
      (b.type? id).map TypeNode.kind = some kind) {type : TypeNode}
    (found : b.type? id = some type) : type.kind.isTagged = true := by
  obtain ⟨before, there, tagged, -⟩ := bare
  have known := kept before.kind (Option.map_eq_some_iff.mpr ⟨before, there, rfl⟩)
  rw [found, Option.map_some] at known
  exact Option.some.inj known ▸ tagged

theorem Arenas.bears_iff {a : Arenas} {tag : String} {id : TypeId} :
    a.Bears tag id ↔
      (a.type? id).map (fun type => (type.kind.isTagged, type.tag)) = some (true, some tag) := by
  simp only [Bears, Option.map_eq_some_iff, Prod.mk.injEq]

theorem Arenas.Bears.complete {a : Arenas} {tag : String} {id : TypeId} (bears : a.Bears tag id)
    (completed : TypeId) (decls : List DeclId) : (a.completeType completed decls).Bears tag id := by
  rw [bears_iff, type?_map_completeType _ _ _ _ fun _ => rfl]
  exact bears_iff.mp bears

/-- The children of a type without the members of a tagged one. -/
def TypeNode.links (type : TypeNode) : List NodeRef :=
  if type.kind.isTagged then
    (type.base.map NodeRef.type).toList ++ (type.width.map NodeRef.expr).toList
  else type.children

theorem TypeNode.links_subset (type : TypeNode) : type.links ⊆ type.children := by
  unfold links children
  split
  · intro node member
    simp only [List.mem_append] at member ⊢
    tauto
  · exact List.Subset.refl _

/-- Only the links of types that are not tagged depend on their declarations. -/
theorem TypeNode.links_complete {type : TypeNode} (tagged : type.kind.isTagged = true)
    (decls : List DeclId) : TypeNode.links { type with decls } = type.links := by
  simp only [links, tagged, if_true]

namespace Arenas

variable {a b : Arenas} {brought : List NodeRef}

def links (a : Arenas) : NodeRef → List NodeRef
  | .program => []
  | .decl id => (a.decl? id).elim [] Decl.children
  | .type id => (a.type? id).elim [] TypeNode.links
  | .expr id => (a.expr? id).elim [] Expr.children
  | .stmt id => (a.stmt? id).elim [] Stmt.children
  | .init id => (a.init? id).elim [] Init.children
  | .label id => (a.label? id).elim [] Label.children

theorem links_subset (a : Arenas) (parent : NodeRef) : a.links parent ⊆ references a := by
  have typeLinks : ∀ type : TypeNode, type.links ⊆ references type :=
    fun type => List.Subset.trans type.links_subset type.children_subset
  intro child member
  simp only [references_eq, List.mem_append]
  cases parent with
  | program => cases member
  | decl id =>
      have inside := lookup_children_subset Decl.children_subset a.decls id.index member
      tauto
  | type id =>
      have inside := lookup_children_subset typeLinks a.types id.index member
      tauto
  | expr id =>
      have inside := lookup_children_subset Expr.children_subset a.exprs id.index member
      tauto
  | stmt id =>
      have inside := lookup_children_subset Stmt.children_subset a.stmts id.index member
      tauto
  | init id =>
      have inside := lookup_children_subset Init.children_subset a.inits id.index member
      tauto
  | label id =>
      have inside := lookup_children_subset Label.children_subset a.labels id.index member
      tauto

def Ranked (a : Arenas) : Prop :=
  ∃ rank : NodeRef → Nat, ∀ parent, ∀ child ∈ a.links parent, rank child < rank parent

theorem ranked_empty : Ranked {} := by
  refine ⟨fun _ => 0, fun parent child member => ?_⟩
  cases parent <;> simp [links, decl?, type?, expr?, stmt?, init?, label?] at member

/-! ## Putting nodes on top -/

/-- No node gets new links, except that one which has not been there before may link to
what is brought in. -/
def Tops (a : Arenas) (brought : List NodeRef) (b : Arenas) : Prop :=
  ∀ parent, b.links parent ⊆ a.links parent ∨
    a.owns parent = false ∧ b.links parent ⊆ brought

/-- The rank of a new node is above those of all that is brought in. -/
theorem Ranked.top (ranked : a.Ranked) (closed : a.Closed) (owned : a.OwnsAll brought)
    (tops : a.Tops brought b) : b.Ranked := by
  obtain ⟨rank, above⟩ := ranked
  let next : NodeRef → Nat := fun node =>
    if a.owns node then rank node else (brought.map rank).sum + 1
  have kept : ∀ {node}, a.owns node = true → next node = rank node :=
    fun {node} owned => if_pos owned
  refine ⟨next, fun parent child member => ?_⟩
  rcases tops parent with old | ⟨fresh, new⟩
  · have linked : child ∈ a.links parent := old member
    have childOwned : a.owns child = true := closed child (a.links_subset parent linked)
    cases parentOwned : a.owns parent with
    | true =>
        rw [kept childOwned, kept parentOwned]
        exact above parent child linked
    | false =>
        -- A node that is not there has no links.
        cases parent <;>
          simp_all [owns, links, decl?, type?, expr?, stmt?, init?, label?]
  · have childBrought : child ∈ brought := new member
    have bound : rank child ≤ (brought.map rank).sum :=
      List.le_sum_of_mem (List.mem_map_of_mem childBrought)
    have raised : next parent = (brought.map rank).sum + 1 := if_neg (by simp [fresh])
    rw [kept (owned child childBrought), raised]
    omega

/-- What a look-up finds after a node has been added was there before, or is the node. -/
theorem lookup_push_links {α : Type} [Refers α] {links : α → List NodeRef}
    (small : ∀ value, links value ⊆ references value) (values : Array α) (value : α)
    (index : Nat) :
    (values.push value)[index]?.elim [] links ⊆ values[index]?.elim [] links ∨
      decide (index < values.size) = false ∧
        (values.push value)[index]?.elim [] links ⊆ references value := by
  rcases Nat.lt_or_ge index values.size with inside | beyond
  · rw [Array.getElem?_push_lt inside, Array.getElem?_eq_getElem inside]
    exact .inl (List.Subset.refl _)
  · refine .inr ⟨by simpa using beyond, ?_⟩
    rw [Array.getElem?_push]
    split
    · exact small value
    · rw [Array.getElem?_eq_none beyond]
      exact List.nil_subset _

theorem addDecl_tops (a : Arenas) (decl : Decl) :
    a.Tops (references decl) (a.addDecl decl).2 := by
  intro parent
  cases parent with
  | decl id => exact lookup_push_links Decl.children_subset a.decls decl id.index
  | _ => exact .inl (List.Subset.refl _)

theorem addType_tops (a : Arenas) (type : TypeNode) :
    a.Tops (references type) (a.addType type).2 := by
  have small : ∀ type : TypeNode, type.links ⊆ references type :=
    fun type => List.Subset.trans type.links_subset type.children_subset
  intro parent
  cases parent with
  | type id => exact lookup_push_links small a.types type id.index
  | _ => exact .inl (List.Subset.refl _)

theorem addExpr_tops (a : Arenas) (expr : Expr) :
    a.Tops (references expr) (a.addExpr expr).2 := by
  intro parent
  cases parent with
  | expr id => exact lookup_push_links Expr.children_subset a.exprs expr id.index
  | _ => exact .inl (List.Subset.refl _)

theorem addStmt_tops (a : Arenas) (stmt : Stmt) :
    a.Tops (references stmt) (a.addStmt stmt).2 := by
  intro parent
  cases parent with
  | stmt id => exact lookup_push_links Stmt.children_subset a.stmts stmt id.index
  | _ => exact .inl (List.Subset.refl _)

theorem addInit_tops (a : Arenas) (init : Init) :
    a.Tops (references init) (a.addInit init).2 := by
  intro parent
  cases parent with
  | init id => exact lookup_push_links Init.children_subset a.inits init id.index
  | _ => exact .inl (List.Subset.refl _)

theorem addLabel_tops (a : Arenas) (label : Label) :
    a.Tops (references label) (a.addLabel label).2 := by
  intro parent
  cases parent with
  | label id => exact lookup_push_links Label.children_subset a.labels label id.index
  | _ => exact .inl (List.Subset.refl _)

/-! ## Filling in -/

/-- A change to one value of an array that leaves its links alone. -/
theorem lookup_modify_links {α : Type} {links : α → List NodeRef} {change : α → α}
    {values : Array α} {place : Nat}
    (kept : ∀ value, values[place]? = some value → links (change value) = links value)
    (index : Nat) :
    (values.modify place change)[index]?.elim [] links = values[index]?.elim [] links := by
  rw [Array.getElem?_modify]
  split
  · next same =>
      subst same
      cases found : values[place]? with
      | none => rfl
      | some value => exact kept value found
  · rfl

/-- Only a tagged type may be completed. -/
theorem completeType_tops {id : TypeId} {type : TypeNode} (found : a.type? id = some type)
    (tagged : type.kind.isTagged = true) (decls : List DeclId) :
    a.Tops brought (a.completeType id decls) := by
  intro parent
  cases parent with
  | type other =>
      have kept : ∀ value, a.types[id.index]? = some value →
          TypeNode.links { value with decls } = value.links := by
        intro value same
        obtain rfl : type = value := Option.some.inj (found.symm.trans same)
        exact TypeNode.links_complete tagged decls
      refine .inl ?_
      change (a.completeType id decls).types[other.index]?.elim [] TypeNode.links ⊆
        a.types[other.index]?.elim [] TypeNode.links
      rw [completeType, lookup_modify_links kept]
      exact List.Subset.refl _
  | _ => exact .inl (List.Subset.refl _)

theorem modifyComments_tops (a : Arenas) (id : DeclId) (change : Comments → Comments) :
    a.Tops brought (a.modifyComments id change) := by
  intro parent
  cases parent with
  | decl other =>
      refine .inl ?_
      change (a.modifyComments id change).decls[other.index]?.elim [] Decl.children ⊆
        a.decls[other.index]?.elim [] Decl.children
      have kept : ∀ decl : Decl, a.decls[id.index]? = some decl →
          Decl.children { decl with comments := change decl.comments } = decl.children :=
        fun _ _ => rfl
      rw [modifyComments, lookup_modify_links kept]
      exact List.Subset.refl _
  | _ => exact .inl (List.Subset.refl _)

end Arenas

/-! ## Programs -/

namespace Program

variable {p : Program}

/-- The edge leads from a structure, a union or an enumeration to one of its members. -/
def IsMember (p : Program) (parent child : NodeRef) : Prop :=
  ∃ id type decl, parent = .type id ∧ p.type? id = some type ∧ type.kind.isTagged = true ∧
    decl ∈ type.decls ∧ child = .decl decl

def IsChild (p : Program) (parent child : NodeRef) : Prop := child ∈ p.children parent

/-- An edge to a child that is not a member. -/
def IsLink (p : Program) (parent child : NodeRef) : Prop :=
  p.IsChild parent child ∧ ¬p.IsMember parent child

theorem IsLink.mem_links {parent child : NodeRef} (link : p.IsLink parent child) :
    parent = .program ∨ child ∈ p.arenas.links parent := by
  obtain ⟨inside, other⟩ := link
  cases parent with
  | program => exact .inl rfl
  | type id =>
      right
      change child ∈ (p.type? id).elim [] TypeNode.children at inside
      change child ∈ (p.type? id).elim [] TypeNode.links
      cases found : p.type? id with
      | none =>
          rw [found] at inside
          cases inside
      | some type =>
          rw [found] at inside
          change child ∈ type.links
          unfold TypeNode.links
          split
          · next tagged =>
              change child ∈ type.children at inside
              rw [TypeNode.children, List.append_assoc] at inside
              rcases List.mem_append.mp inside with base | rest
              · exact List.mem_append_left _ base
              · rcases List.mem_append.mp rest with member | width
                · obtain ⟨decl, declared, rfl⟩ := List.mem_map.mp member
                  exact absurd ⟨id, type, decl, rfl, found, tagged, declared, rfl⟩ other
                · exact List.mem_append_right _ width
          · exact inside
  | _ => exact .inr inside

theorem program_notMem_children (p : Program) (parent : NodeRef) :
    .program ∉ p.children parent := by
  have lookup : ∀ {α : Type} {children : α → List NodeRef} (found : Option α),
      (∀ value, .program ∉ children value) → .program ∉ found.elim [] children := by
    intro α children found without
    cases found with
    | none => exact List.not_mem_nil
    | some value => exact without value
  cases parent with
  | program => simp [children]
  | decl id => exact lookup _ fun decl => by simp [Decl.children]
  | type id => exact lookup _ fun type => by simp [TypeNode.children]
  | expr id => exact lookup _ fun expr => by simp [Expr.children]
  | stmt id => exact lookup _ fun stmt => by simp [Stmt.children]
  | init id => exact lookup _ fun init => by simp [Init.children]
  | label id => exact lookup _ fun label => by simp [Label.children]

/-- Over ranked arenas the program itself ranks above its declarations. -/
theorem exists_rank (ranked : p.arenas.Ranked) :
    ∃ rank : NodeRef → Nat, ∀ parent child, p.IsLink parent child →
      rank child < rank parent := by
  obtain ⟨rank, above⟩ := ranked
  let top : Nat := (p.decls.map fun id => rank (.decl id)).sum + 1
  let next : NodeRef → Nat := fun node => if node = .program then top else rank node
  have kept : ∀ {node}, node ≠ .program → next node = rank node := fun inner => if_neg inner
  refine ⟨next, fun parent child link => ?_⟩
  have inner : child ≠ .program := by
    rintro rfl
    exact p.program_notMem_children parent link.1
  rw [kept inner]
  by_cases whole : parent = .program
  · subst whole
    obtain ⟨id, member, rfl⟩ := List.mem_map.mp link.1
    have bound : rank (.decl id) ≤ (p.decls.map fun id => rank (.decl id)).sum :=
      List.le_sum_of_mem (List.mem_map_of_mem member)
    exact Nat.lt_succ_of_le bound
  · rw [kept whole]
    exact above parent child (link.mem_links.resolve_left whole)

/-! ## Cycles and heights -/

variable {rank : NodeRef → Nat}

theorem wellFounded_of_rank
    (above : ∀ parent child, p.IsLink parent child → rank child < rank parent) :
    WellFounded fun child parent => p.IsLink parent child :=
  Subrelation.wf (fun {child parent} => above parent child) (measure rank).wf

/-- A path of links is no longer than the rank of the node at which it starts. -/
theorem length_le_of_rank
    (above : ∀ parent child, p.IsLink parent child → rank child < rank parent) :
    ∀ (path : List NodeRef) (node : NodeRef), (node :: path).IsChain p.IsLink →
      path.length ≤ rank node := by
  intro path
  induction path with
  | nil => exact fun _ _ => Nat.zero_le _
  | cons next path ih =>
      intro node chain
      obtain ⟨link, rest⟩ := List.isChain_cons_cons.mp chain
      have further := ih next rest
      have lower := above node next link
      rw [List.length_cons]
      omega

/-- A path on which no edge leads to a member is a path of links. -/
theorem isChain_isLink {path : List NodeRef} (chain : path.IsChain p.IsChild)
    (without : ∀ parent child, [parent, child] <:+: path → ¬p.IsMember parent child) :
    path.IsChain p.IsLink := by
  induction chain with
  | nil => exact .nil
  | singleton node => exact .singleton node
  | @cons_cons parent child path edge rest ih =>
      have first : [parent, child] <:+: parent :: child :: path := ⟨[], path, rfl⟩
      have link : p.IsLink parent child := ⟨edge, without parent child first⟩
      exact .cons_cons link (ih fun _ _ inside => without _ _ (List.infix_cons inside))

/-- Links never lead back to where they started. -/
theorem exists_isMember_of_cycle
    (above : ∀ parent child, p.IsLink parent child → rank child < rank parent)
    {node : NodeRef} {path : List NodeRef}
    (cycle : (node :: path ++ [node]).IsChain p.IsChild) :
    ∃ parent child, [parent, child] <:+: node :: path ++ [node] ∧ p.IsMember parent child := by
  by_contra nowhere
  push Not at nowhere
  have links : (node :: path ++ [node]).IsChain p.IsLink := isChain_isLink cycle nowhere
  have falls : ((node :: path ++ [node]).map rank).IsChain (· > ·) :=
    List.isChain_map rank |>.mpr (links.imp above)
  have again : rank node ∈ (path ++ [node]).map rank := by simp
  exact Nat.lt_irrefl _ (List.rel_of_pairwise_cons falls.pairwise again)

end Program

end SyntaxGraph
