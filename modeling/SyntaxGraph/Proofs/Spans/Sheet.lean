import SyntaxGraph.Proofs.Graph.Annotation
import SyntaxGraph.Proofs.Graph.Custody
import SyntaxGraph.Proofs.Graph.Unbound
import SyntaxGraph.Proofs.Token.Order

/-!
# Nodes over tokens

A span covers the tokens from one position up to another one.  A sheet holds the tokens of
a source and the nodes that they make in the end.  A node is laid out on the sheet if its
span covers some tokens and its parts cover some of these: the operands of a binary
operator one behind the other, the index of a designator within the designator.  Of types
only functions and arrays are laid out, since the others share the parts that they have.
A node that is laid out has no comments and no block yet, and nothing is bound in it.
-/

set_option autoImplicit false

namespace SyntaxGraph.Grammar

theorem parts_reverse_subset {α : Type} [Owning α] (values : List α) :
    parts values.reverse ⊆ parts values :=
  ((List.reverse_perm values).flatMap_right parts).subset

/-- The span is that of the tokens from one position up to another one, which is not the end
of the file. -/
structure Tokens.Covers (tokens : Tokens) (span : Span) (i j : Nat) : Prop where
  some : i < j
  inside : j < tokens.size
  start : span.start = tokens.start i
  finish : span.finish = tokens.finish (j - 1)

structure Sheet where
  tokens : Tokens
  arenas : Arenas

namespace Sheet

/-- The node covers the tokens from `i` up to `j`. -/
def Lies (sheet : Sheet) (node : NodeRef) (i j : Nat) : Prop :=
  ∃ span, sheet.arenas.span? node = some span ∧ sheet.tokens.Covers span i j

/-- Each of the nodes covers some of the tokens from `i` up to `j`. -/
def Inside (sheet : Sheet) (nodes : List NodeRef) (i j : Nat) : Prop :=
  ∀ node ∈ nodes, ∃ first last, i ≤ first ∧ last ≤ j ∧ sheet.Lies node first last

/-- The operands cover some of the tokens from `i` up to `j`. -/
def Holds (sheet : Sheet) (form : Expr.Form) (i j : Nat) : Prop :=
  match form with
  | .binary _ left right =>
    ∃ middle, sheet.Inside (parts left) i middle ∧ sheet.Inside (parts right) middle j
  | form => sheet.Inside (parts form) i j

def Designates (sheet : Sheet) (designator : Designator) (i j : Nat) : Prop :=
  designator.unbound = designator ∧ sheet.tokens.Covers designator.span i j ∧
    sheet.Inside (parts designator) i j

/-- The designators cover some of the tokens from `i` up to `j`. -/
def AllDesignate (sheet : Sheet) (designators : List Designator) (i j : Nat) : Prop :=
  ∀ designator ∈ designators,
    ∃ first last, i ≤ first ∧ last ≤ j ∧ sheet.Designates designator first last

def DeclLaid (sheet : Sheet) (decl : Decl) : Prop :=
  decl.comments = {} ∧ decl.unbound = decl ∧
    ∃ i j, sheet.tokens.Covers decl.span i j ∧ sheet.Inside (parts decl) i j

def TypeLaid (sheet : Sheet) (type : TypeNode) : Prop :=
  type.kind = .function ∨ type.kind = .array →
    ∃ i j, sheet.tokens.Covers type.span i j ∧ sheet.Inside (parts type) i j

def ExprLaid (sheet : Sheet) (expr : Expr) : Prop :=
  expr.unbound = expr ∧ expr.block = [] ∧
    ∃ i j, sheet.tokens.Covers expr.span i j ∧ sheet.Holds expr.form i j

def StmtLaid (sheet : Sheet) (stmt : Stmt) : Prop :=
  ∃ i j, sheet.tokens.Covers stmt.span i j ∧ sheet.Inside (parts stmt) i j

def InitLaid (sheet : Sheet) (init : Init) : Prop :=
  init.resolvedType = none ∧
    ∃ i j, sheet.tokens.Covers init.span i j ∧ sheet.AllDesignate init.designators i j ∧
      sheet.Inside init.form.parts i j

def LabelLaid (sheet : Sheet) (label : Label) : Prop :=
  ∃ i j, sheet.tokens.Covers label.span i j ∧ sheet.Inside (parts label) i j

/-- The node is there, and is laid out. -/
def Laid (sheet : Sheet) : NodeRef → Prop
  | .program => True
  | .decl id => ∃ decl, sheet.arenas.decl? id = some decl ∧ sheet.DeclLaid decl
  | .type id => ∃ type, sheet.arenas.type? id = some type ∧ sheet.TypeLaid type
  | .expr id => ∃ expr, sheet.arenas.expr? id = some expr ∧ sheet.ExprLaid expr
  | .stmt id => ∃ stmt, sheet.arenas.stmt? id = some stmt ∧ sheet.StmtLaid stmt
  | .init id => ∃ init, sheet.arenas.init? id = some init ∧ sheet.InitLaid init
  | .label id => ∃ label, sheet.arenas.label? id = some label ∧ sheet.LabelLaid label

/-- What is in the arenas `b` and not in `a` is laid out. -/
def LaidSince (sheet : Sheet) (a b : Arenas) : Prop :=
  ∀ node, a.owns node = false → b.owns node = true → sheet.Laid node

variable {sheet : Sheet} {node : NodeRef} {nodes others : List NodeRef} {i j k l : Nat}
  {a b c : Arenas}

/-! ## Nodes inside -/

theorem Inside.mono (inside : sheet.Inside nodes i j) (lower : k ≤ i) (upper : j ≤ l) :
    sheet.Inside nodes k l := by
  intro node member
  obtain ⟨first, last, low, high, lies⟩ := inside node member
  exact ⟨first, last, lower.trans low, high.trans upper, lies⟩

theorem Inside.subset (inside : sheet.Inside nodes i j) (subset : others ⊆ nodes) :
    sheet.Inside others i j :=
  fun node member => inside node (subset member)

@[simp] theorem inside_nil : sheet.Inside [] i j := by
  intro node member
  cases member

@[simp] theorem inside_append :
    sheet.Inside (nodes ++ others) i j ↔ sheet.Inside nodes i j ∧ sheet.Inside others i j :=
  List.forall_mem_append

theorem inside_cons :
    sheet.Inside (node :: nodes) i j ↔ sheet.Inside [node] i j ∧ sheet.Inside nodes i j := by
  rw [← List.singleton_append, inside_append]

theorem Lies.inside (lies : sheet.Lies node i j) : sheet.Inside [node] i j := by
  intro other member
  obtain rfl := List.mem_singleton.mp member
  exact ⟨i, j, Nat.le_refl i, Nat.le_refl j, lies⟩

theorem Lies.some (lies : sheet.Lies node i j) : i < j := by
  obtain ⟨span, -, covers⟩ := lies
  exact covers.some

/-- The span of a node that lies somewhere. -/
theorem Lies.covers {span : Span} (lies : sheet.Lies node i j)
    (found : sheet.arenas.span? node = Option.some span) : sheet.tokens.Covers span i j := by
  obtain ⟨there, same, covers⟩ := lies
  rw [found] at same
  cases same
  exact covers

theorem Inside.one (inside : sheet.Inside [node] i j) : i < j := by
  obtain ⟨first, last, low, high, lies⟩ := inside node List.mem_cons_self
  have some := lies.some
  omega

theorem inside_of_forall {α : Type} [Owning α] {values : List α}
    (each : ∀ value ∈ values, ∃ first last, i ≤ first ∧ last ≤ j ∧
      sheet.Inside (parts value) first last) : sheet.Inside (parts values) i j := by
  intro node member
  obtain ⟨value, listed, part⟩ := List.mem_flatMap.mp member
  obtain ⟨first, last, low, high, inside⟩ := each value listed
  exact inside.mono low high node part

theorem AllDesignate.mono {designators : List Designator}
    (designate : sheet.AllDesignate designators i j) (upper : j ≤ k) :
    sheet.AllDesignate designators i k := by
  intro designator member
  obtain ⟨first, last, low, high, designates⟩ := designate designator member
  exact ⟨first, last, low, high.trans upper, designates⟩

/-! ## Laid out one after the other -/

theorem LaidSince.refl (a : Arenas) : sheet.LaidSince a a := by
  intro node missing owned
  rw [missing] at owned
  cases owned

theorem LaidSince.trans (first : sheet.LaidSince a b) (second : sheet.LaidSince b c) :
    sheet.LaidSince a c := by
  intro node missing owned
  cases between : b.owns node with
  | true => exact first node missing between
  | false => exact second node between owned

end Sheet

end SyntaxGraph.Grammar
