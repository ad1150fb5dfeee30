import SyntaxGraph.Proofs.Graph.Rank
import SyntaxGraph.Proofs.Lists

/-!
# Fields that fit the kind of their node

One type node serves every kind of type, and one declaration node those with and those
without a body, so much could be written into a node that means nothing.  A node fits if it
has what its kind needs and nothing that its kind gives no meaning.  The constructors of types
make nodes that fit, and so do the two ways in which a type comes from another one: a
bit-field is a copy of an integer type with a width instead of declarations, and a body gives
a structure, a union or an enumeration its declarations.  Arenas fit if all of their nodes do.
-/

set_option autoImplicit false

namespace SyntaxGraph

/-- The kinds that are built on another type. -/
def TypeKind.isDerived : TypeKind → Bool
  | .pointer | .array | .function => true
  | _ => false

theorem TypeKind.isBasic_iff {kind : TypeKind} :
    kind.isBasic = true ↔
      kind.isDerived = false ∧ kind.isTagged = false ∧ kind ≠ .typedef := by
  cases kind <;> simp [isBasic, isDerived, isTagged]

/-- The kind of the type gives a meaning to every field that is filled, and the base and the
name of a typedef are filled where they have one. -/
structure TypeNode.Fits (type : TypeNode) : Prop where
  base : type.base.isSome = true ↔ type.kind.isDerived = true
  name : type.name.isSome = true ↔ type.kind = .typedef
  tag : type.tag.isSome = true → type.kind.isTagged = true
  decls : type.decls ≠ [] → type.kind = .function ∨ type.kind.isTagged = true
  variadic : type.variadic = true → type.kind = .function
  width : type.width.isSome = true → type.kind = .array ∨ type.kind.isInteger = true

/-- A string has a piece, a comma stands between two operands, and a conditional expression
has three. -/
def Expr.Form.Fits : Expr.Form → Prop
  | .string pieces => pieces ≠ []
  | .comma items => 2 ≤ items.length
  | .conditional operands => operands.length = 3
  | _ => True

structure Expr.Fits (expr : Expr) : Prop where
  form : expr.form.Fits
  block : expr.block = []

/-- A `for` statement does not both evaluate and declare in its first clause. -/
def Stmt.Form.Fits : Stmt.Form → Prop
  | .forLoop pre _ _ declared _ => pre = none ∨ declared = none
  | _ => True

/-- What has a body is a function, and is not initialized. -/
structure Decl.Fits (a : Arenas) (decl : Decl) : Prop where
  init : decl.body.isSome = true → decl.init = none
  type : decl.body.isSome = true → (a.type? decl.type).map TypeNode.kind = some .function

structure Arenas.Fit (a : Arenas) : Prop where
  types : ∀ type ∈ a.types, type.Fits
  decls : ∀ decl ∈ a.decls, decl.Fits a
  exprs : ∀ expr ∈ a.exprs, expr.Fits
  stmts : ∀ stmt ∈ a.stmts, stmt.form.Fits

/-! ## Types -/

namespace TypeNode

variable {type : TypeNode}

theorem basic_fits {kind : TypeKind} (basic : kind.isBasic = true) (span : Span) :
    (TypeNode.basic kind span).Fits where
  base := by simp [TypeNode.basic, (TypeKind.isBasic_iff.mp basic).1]
  name := by simp [TypeNode.basic, (TypeKind.isBasic_iff.mp basic).2.2]
  tag := nofun
  decls empty := absurd rfl empty
  variadic := nofun
  width := nofun

theorem pointer_fits (base : TypeId) (span : Span) : (TypeNode.pointer base span).Fits where
  base := by simp [TypeNode.pointer, TypeKind.isDerived]
  name := by simp [TypeNode.pointer]
  tag := nofun
  decls empty := absurd rfl empty
  variadic := nofun
  width := nofun

theorem array_fits (base : TypeId) (length : Option ExprId) (span : Span) :
    (TypeNode.array base length span).Fits where
  base := by simp [TypeNode.array, TypeKind.isDerived]
  name := by simp [TypeNode.array]
  tag := nofun
  decls empty := absurd rfl empty
  variadic := nofun
  width _ := .inl rfl

theorem function_fits (result : TypeId) (parameters : List DeclId) (variadic : Bool)
    (span : Span) : (TypeNode.function result parameters variadic span).Fits where
  base := by simp [TypeNode.function, TypeKind.isDerived]
  name := by simp [TypeNode.function]
  tag := nofun
  decls _ := .inl rfl
  variadic _ := rfl
  width := nofun

theorem tagged_fits {kind : TypeKind} (tagged : kind.isTagged = true) (tag : Option String)
    (decls : List DeclId) (span : Span) : (TypeNode.tagged kind tag decls span).Fits where
  base := by cases kind <;> simp_all [TypeNode.tagged, TypeKind.isTagged, TypeKind.isDerived]
  name := by cases kind <;> simp_all [TypeNode.tagged, TypeKind.isTagged]
  tag _ := tagged
  decls _ := .inr tagged
  variadic := nofun
  width := nofun

theorem typedefName_fits (name : String) (span : Span) : (TypeNode.typedefName name span).Fits where
  base := by simp [TypeNode.typedefName, TypeKind.isDerived]
  name := by simp [TypeNode.typedefName]
  tag := nofun
  decls empty := absurd rfl empty
  variadic := nofun
  width := nofun

theorem Fits.qualified (fits : type.Fits) (qualifiers : Qualifiers) :
    (type.qualified qualifiers).Fits :=
  ⟨fits.base, fits.name, fits.tag, fits.decls, fits.variadic, fits.width⟩

/-- A copy of an integer type has the tag or the name of the type, but not its declarations. -/
theorem Fits.narrowed (fits : type.Fits) (integer : type.kind.isInteger = true) (width : ExprId) :
    TypeNode.Fits { type with width := some width, decls := [] } :=
  { fits with
    decls := fun empty => absurd rfl empty
    width := fun _ => .inr integer }

/-- The copy of a basic type is a plain bit-field, since there is nothing else to copy. -/
theorem Fits.narrowed_eq (fits : type.Fits) (basic : type.kind.isBasic = true) (width : ExprId) :
    { type with width := some width, decls := [] } =
      (TypeNode.bitField type.kind width type.span).qualified type.qualifiers := by
  obtain ⟨underived, untagged, unnamed⟩ := TypeKind.isBasic_iff.mp basic
  have noBase : type.base = none := by simpa [underived] using fits.base
  have noTag : type.tag = none := by simpa [untagged] using fits.tag
  have noName : type.name = none := by simpa [unnamed] using fits.name
  have fixed : type.variadic = false := by
    refine Bool.eq_false_iff.mpr fun variadic => ?_
    rw [fits.variadic variadic] at underived
    cases underived
  rw [noBase, noTag, noName, fixed]
  rfl

theorem Fits.complete (fits : type.Fits) (tagged : type.kind.isTagged = true)
    (decls : List DeclId) : TypeNode.Fits { type with decls } :=
  { fits with decls := fun _ => .inr tagged }

end TypeNode

/-! ## Expressions and declarations -/

theorem Expr.fits_of_form {form : Expr.Form} (fits : form.Fits) (span : Span) :
    Expr.Fits { form, span } where
  form := fits
  block := rfl

namespace Decl

variable {a b : Arenas} {decl : Decl}

theorem fits_of_bodiless (bodiless : decl.body = none) : decl.Fits a where
  init some := by simp [bodiless] at some
  type some := by simp [bodiless] at some

/-- Only the kinds of functions are asked for. -/
theorem Fits.mono (fits : decl.Fits a)
    (kept : ∀ id, (a.type? id).map TypeNode.kind = some .function →
      (b.type? id).map TypeNode.kind = some .function) : decl.Fits b where
  init := fits.init
  type some := kept decl.type (fits.type some)

end Decl

/-! ## Arenas -/

namespace Arenas.Fit

variable {a b : Arenas}

theorem empty : Fit {} where
  types := by simp
  decls := by simp
  exprs := by simp
  stmts := by simp

theorem declsIn (fit : a.Fit)
    (kept : ∀ id, (a.type? id).map TypeNode.kind = some .function →
      (b.type? id).map TypeNode.kind = some .function) : ∀ decl ∈ a.decls, decl.Fits b :=
  fun decl member => (fit.decls decl member).mono kept

theorem addDecl (fit : a.Fit) {decl : Decl} (fits : decl.Fits a) : (a.addDecl decl).2.Fit where
  types := fit.types
  decls := forall_mem_push (fit.declsIn fun _ known => known) (fits.mono fun _ known => known)
  exprs := fit.exprs
  stmts := fit.stmts

theorem addType (fit : a.Fit) {type : TypeNode} (fits : type.Fits) : (a.addType type).2.Fit where
  types := forall_mem_push fit.types fits
  decls := by
    refine fit.declsIn fun id known => ?_
    obtain ⟨other, found, kind⟩ := Option.map_eq_some_iff.mp known
    exact Option.map_eq_some_iff.mpr ⟨other, a.type?_addType type found, kind⟩
  exprs := fit.exprs
  stmts := fit.stmts

theorem addExpr (fit : a.Fit) {expr : Expr} (fits : expr.Fits) : (a.addExpr expr).2.Fit where
  types := fit.types
  decls := fit.declsIn fun _ known => known
  exprs := forall_mem_push fit.exprs fits
  stmts := fit.stmts

theorem addStmt (fit : a.Fit) {stmt : Stmt} (fits : stmt.form.Fits) :
    (a.addStmt stmt).2.Fit where
  types := fit.types
  decls := fit.declsIn fun _ known => known
  exprs := fit.exprs
  stmts := forall_mem_push fit.stmts fits

theorem addInit (fit : a.Fit) (init : Init) : (a.addInit init).2.Fit where
  types := fit.types
  decls := fit.declsIn fun _ known => known
  exprs := fit.exprs
  stmts := fit.stmts

theorem addLabel (fit : a.Fit) (label : Label) : (a.addLabel label).2.Fit where
  types := fit.types
  decls := fit.declsIn fun _ known => known
  exprs := fit.exprs
  stmts := fit.stmts

/-- Only a tagged type may be completed. -/
theorem completeType (fit : a.Fit) {id : TypeId}
    (tagged : ∀ type, a.type? id = some type → type.kind.isTagged = true) (decls : List DeclId) :
    (a.completeType id decls).Fit where
  types := forall_mem_modify fit.types fun type found =>
    (fit.types type (Array.mem_of_getElem? found)).complete (tagged type found) decls
  decls := by
    refine fit.declsIn fun other known => ?_
    rwa [type?_map_completeType _ _ _ _ fun _ => rfl]
  exprs := fit.exprs
  stmts := fit.stmts

theorem modifyComments (fit : a.Fit) (id : DeclId) (change : Comments → Comments) :
    (a.modifyComments id change).Fit where
  types := fit.types
  decls := by
    have before : ∀ decl ∈ a.decls, decl.Fits (a.modifyComments id change) :=
      fit.declsIn fun _ known => known
    have changed (decl : Decl) (found : a.decl? id = some decl) :
        Decl.Fits (a.modifyComments id change)
          { decl with comments := change decl.comments } :=
      have fits := before decl (Array.mem_of_getElem? found)
      ⟨fits.init, fits.type⟩
    exact forall_mem_modify before changed
  exprs := fit.exprs
  stmts := fit.stmts

end Arenas.Fit

end SyntaxGraph
