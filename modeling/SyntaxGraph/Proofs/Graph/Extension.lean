import SyntaxGraph.Proofs.Graph.Rank

/-!
# Arenas that extend to others

Arenas extend to others if every node is found there as it was.  The one exception are the
members of a structure, a union or an enumeration, which may be filled in.
-/

set_option autoImplicit false

namespace SyntaxGraph

/-- The span of a node, if there is the node; the program has none. -/
def Arenas.span? (a : Arenas) : NodeRef → Option Span
  | .program => none
  | .decl id => (a.decl? id).map Decl.span
  | .type id => (a.type? id).map TypeNode.span
  | .expr id => (a.expr? id).map Expr.span
  | .stmt id => (a.stmt? id).map Stmt.span
  | .init id => (a.init? id).map Init.span
  | .label id => (a.label? id).map Label.span

namespace Arenas

structure ExtendsTo (a b : Arenas) : Prop where
  decl : ∀ {id decl}, a.decl? id = some decl → b.decl? id = some decl
  type : ∀ {id type}, a.type? id = some type →
    ∃ decls, b.type? id = some { type with decls } ∧
      (decls = type.decls ∨ type.kind.isTagged = true)
  expr : ∀ {id expr}, a.expr? id = some expr → b.expr? id = some expr
  stmt : ∀ {id stmt}, a.stmt? id = some stmt → b.stmt? id = some stmt
  init : ∀ {id init}, a.init? id = some init → b.init? id = some init
  label : ∀ {id label}, a.label? id = some label → b.label? id = some label

variable {a b c : Arenas} {node : NodeRef}

namespace ExtendsTo

theorem refl (a : Arenas) : a.ExtendsTo a where
  decl found := found
  type found := ⟨_, found, .inl rfl⟩
  expr found := found
  stmt found := found
  init found := found
  label found := found

theorem trans (first : a.ExtendsTo b) (second : b.ExtendsTo c) : a.ExtendsTo c where
  decl found := second.decl (first.decl found)
  type found := by
    obtain ⟨decls, between, early⟩ := first.type found
    obtain ⟨others, there, late⟩ := second.type between
    refine ⟨others, there, ?_⟩
    rcases early with rfl | tagged
    · exact late
    · exact .inr tagged
  expr found := second.expr (first.expr found)
  stmt found := second.stmt (first.stmt found)
  init found := second.init (first.init found)
  label found := second.label (first.label found)

theorem typeKind {id : TypeId} {type : TypeNode} (extension : a.ExtendsTo b)
    (found : a.type? id = some type) :
    ∃ later, b.type? id = some later ∧ later.kind = type.kind := by
  obtain ⟨decls, there, -⟩ := extension.type found
  exact ⟨_, there, rfl⟩

theorem span? (extension : a.ExtendsTo b) {span : Span} (found : a.span? node = some span) :
    b.span? node = some span := by
  cases node with
  | program => cases found
  | type id =>
      obtain ⟨type, there, rfl⟩ := Option.map_eq_some_iff.mp found
      obtain ⟨decls, later, -⟩ := extension.type there
      exact Option.map_eq_some_iff.mpr ⟨_, later, rfl⟩
  | decl id =>
      obtain ⟨decl, there, rfl⟩ := Option.map_eq_some_iff.mp found
      exact Option.map_eq_some_iff.mpr ⟨decl, extension.decl there, rfl⟩
  | expr id =>
      obtain ⟨expr, there, rfl⟩ := Option.map_eq_some_iff.mp found
      exact Option.map_eq_some_iff.mpr ⟨expr, extension.expr there, rfl⟩
  | stmt id =>
      obtain ⟨stmt, there, rfl⟩ := Option.map_eq_some_iff.mp found
      exact Option.map_eq_some_iff.mpr ⟨stmt, extension.stmt there, rfl⟩
  | init id =>
      obtain ⟨init, there, rfl⟩ := Option.map_eq_some_iff.mp found
      exact Option.map_eq_some_iff.mpr ⟨init, extension.init there, rfl⟩
  | label id =>
      obtain ⟨label, there, rfl⟩ := Option.map_eq_some_iff.mp found
      exact Option.map_eq_some_iff.mpr ⟨label, extension.label there, rfl⟩

end ExtendsTo

/-! ## Adding -/

theorem getElem?_push_of_found {α : Type} {values : Array α} {index : Nat} {value : α}
    (found : values[index]? = some value) (other : α) :
    (values.push other)[index]? = some value := by
  have inside : index < values.size := (Array.getElem?_eq_some_iff.mp found).1
  rw [Array.getElem?_push_lt inside, ← Array.getElem?_eq_getElem inside, found]

theorem addDecl_extends (a : Arenas) (decl : Decl) : a.ExtendsTo (a.addDecl decl).2 :=
  { ExtendsTo.refl a with decl := fun found => getElem?_push_of_found found decl }

theorem addType_extends (a : Arenas) (type : TypeNode) : a.ExtendsTo (a.addType type).2 :=
  { ExtendsTo.refl a with
    type := fun found => ⟨_, getElem?_push_of_found found type, .inl rfl⟩ }

theorem addExpr_extends (a : Arenas) (expr : Expr) : a.ExtendsTo (a.addExpr expr).2 :=
  { ExtendsTo.refl a with expr := fun found => getElem?_push_of_found found expr }

theorem addStmt_extends (a : Arenas) (stmt : Stmt) : a.ExtendsTo (a.addStmt stmt).2 :=
  { ExtendsTo.refl a with stmt := fun found => getElem?_push_of_found found stmt }

theorem addInit_extends (a : Arenas) (init : Init) : a.ExtendsTo (a.addInit init).2 :=
  { ExtendsTo.refl a with init := fun found => getElem?_push_of_found found init }

theorem addLabel_extends (a : Arenas) (label : Label) : a.ExtendsTo (a.addLabel label).2 :=
  { ExtendsTo.refl a with label := fun found => getElem?_push_of_found found label }

/-! What has been added is there, and it is the only node that was not. -/

theorem eq_of_lt_size_push {α : Type} {values : Array α} {value : α} {index : Nat}
    (missing : ¬ index < values.size) (inside : index < (values.push value).size) :
    index = values.size := by
  rw [Array.size_push] at inside
  omega

theorem addDecl_owns {decl : Decl} (missing : a.owns node = false)
    (owned : (a.addDecl decl).2.owns node = true) : node = .decl (a.addDecl decl).1 := by
  cases node with
  | decl id =>
      have last := eq_of_lt_size_push (of_decide_eq_false missing) (of_decide_eq_true owned)
      rw [addDecl, ← last]
  | _ => exact absurd (missing.symm.trans owned) (by simp)

theorem addType_owns {type : TypeNode} (missing : a.owns node = false)
    (owned : (a.addType type).2.owns node = true) : node = .type (a.addType type).1 := by
  cases node with
  | type id =>
      have last := eq_of_lt_size_push (of_decide_eq_false missing) (of_decide_eq_true owned)
      rw [addType, ← last]
  | _ => exact absurd (missing.symm.trans owned) (by simp)

theorem addExpr_owns {expr : Expr} (missing : a.owns node = false)
    (owned : (a.addExpr expr).2.owns node = true) : node = .expr (a.addExpr expr).1 := by
  cases node with
  | expr id =>
      have last := eq_of_lt_size_push (of_decide_eq_false missing) (of_decide_eq_true owned)
      rw [addExpr, ← last]
  | _ => exact absurd (missing.symm.trans owned) (by simp)

theorem addStmt_owns {stmt : Stmt} (missing : a.owns node = false)
    (owned : (a.addStmt stmt).2.owns node = true) : node = .stmt (a.addStmt stmt).1 := by
  cases node with
  | stmt id =>
      have last := eq_of_lt_size_push (of_decide_eq_false missing) (of_decide_eq_true owned)
      rw [addStmt, ← last]
  | _ => exact absurd (missing.symm.trans owned) (by simp)

theorem addInit_owns {init : Init} (missing : a.owns node = false)
    (owned : (a.addInit init).2.owns node = true) : node = .init (a.addInit init).1 := by
  cases node with
  | init id =>
      have last := eq_of_lt_size_push (of_decide_eq_false missing) (of_decide_eq_true owned)
      rw [addInit, ← last]
  | _ => exact absurd (missing.symm.trans owned) (by simp)

theorem addLabel_owns {label : Label} (missing : a.owns node = false)
    (owned : (a.addLabel label).2.owns node = true) : node = .label (a.addLabel label).1 := by
  cases node with
  | label id =>
      have last := eq_of_lt_size_push (of_decide_eq_false missing) (of_decide_eq_true owned)
      rw [addLabel, ← last]
  | _ => exact absurd (missing.symm.trans owned) (by simp)

/-! ## Filling in -/

theorem completeType_owns (a : Arenas) (id : TypeId) (decls : List DeclId) (node : NodeRef) :
    (a.completeType id decls).owns node = a.owns node := by
  cases node with
  | type other => simp [owns, completeType]
  | _ => rfl

theorem completeType_extends (a : Arenas) {id : TypeId}
    (tagged : ∀ type, a.type? id = some type → type.kind.isTagged = true) (decls : List DeclId) :
    a.ExtendsTo (a.completeType id decls) :=
  { ExtendsTo.refl a with
    type := fun {other type} found => by
      rw [type?_completeType]
      split
      · next same =>
          subst same
          exact ⟨decls, by rw [found]; rfl, .inr (tagged type found)⟩
      · exact ⟨_, found, .inl rfl⟩ }

end Arenas

end SyntaxGraph
