import SyntaxGraph.Program.Binding
import SyntaxGraph.Proofs.Graph.Unbound

/-!
# Fields that are bound once

A field holds nothing until it is bound, and a binding is accepted exactly if its field is
there and holds nothing.  An accepted binding fills its field and changes no other field and
nothing else: without its bindings the program stays the same, and a program is told by what
it is without its bindings together with what its fields hold.
-/

set_option autoImplicit false

namespace SyntaxGraph

/-- A place to which something can be bound. -/
inductive Field
  | exprType (expr : ExprId)
  | exprDecl (expr : ExprId)
  | initType (init : InitId)
  | designator (init : InitId) (index : Nat)
  | group (decl : DeclId)
deriving DecidableEq

/-- What can be bound. -/
inductive Bound
  | type (id : TypeId)
  | decl (id : DeclId)
  | name (text : String)
deriving DecidableEq

namespace Binding

def field : Binding → Field
  | .exprType expr _ => .exprType expr
  | .exprDecl expr _ => .exprDecl expr
  | .initType init _ => .initType init
  | .designator init index _ => .designator init index
  | .group decl _ => .group decl

def value : Binding → Bound
  | .exprType _ type | .initType _ type => .type type
  | .exprDecl _ decl | .designator _ _ decl => .decl decl
  | .group _ name => .name name

end Binding

/-- What is bound to the member that a designator selects; an index selects no member. -/
def Designator.member? (designator : Designator) : Option (Option DeclId) :=
  match designator.selector with
  | .field _ resolved => some resolved
  | .index _ => none

namespace Program

variable {p q : Program}

/-- What a field holds, if there is the field. -/
def field? (p : Program) : Field → Option (Option Bound)
  | .exprType id => (p.expr? id).map (·.resolvedType.map .type)
  | .exprDecl id => (p.expr? id).map (·.resolvedDecl.map .decl)
  | .initType id => (p.init? id).map (·.resolvedType.map .type)
  | .designator id index =>
    ((p.init? id).bind fun init => init.designators[index]?.bind Designator.member?).map
      (·.map .decl)
  | .group id => (p.decl? id).map (·.group.map .name)

/-! ## Nodes that are replaced -/

theorem getElem?_setIfInBounds_of_found {α : Type} {values : Array α} {index : Nat} {old : α}
    (found : values[index]? = some old) (value : α) (other : Nat) :
    (values.setIfInBounds index value)[other]? =
      if other = index then some value else values[other]? := by
  have inside := (Array.getElem?_eq_some_iff.mp found).1
  rw [Array.getElem?_setIfInBounds]
  by_cases same : other = index
  · subst same
    simp [inside]
  · simp [same, Ne.symm same]

theorem expr?_setExpr {id : ExprId} {old : Expr} (found : p.expr? id = some old) (expr : Expr)
    (other : ExprId) :
    (p.setExpr id expr).expr? other = if other = id then some expr else p.expr? other := by
  refine (getElem?_setIfInBounds_of_found found expr other.index).trans ?_
  simp only [← ExprId.mk.injEq]
  rfl

theorem init?_setInit {id : InitId} {old : Init} (found : p.init? id = some old) (init : Init)
    (other : InitId) :
    (p.setInit id init).init? other = if other = id then some init else p.init? other := by
  refine (getElem?_setIfInBounds_of_found found init other.index).trans ?_
  simp only [← InitId.mk.injEq]
  rfl

theorem decl?_setDecl {id : DeclId} {old : Decl} (found : p.decl? id = some old) (decl : Decl)
    (other : DeclId) :
    (p.setDecl id decl).decl? other = if other = id then some decl else p.decl? other := by
  refine (getElem?_setIfInBounds_of_found found decl other.index).trans ?_
  simp only [← DeclId.mk.injEq]
  rfl

/-- A view that does not tell the new node from the old one sees no change at any node. -/
theorem view_expr?_setExpr {α : Type} (view : Option Expr → α) {id : ExprId} {expr old : Expr}
    (found : p.expr? id = some old) (same : view (some expr) = view (some old))
    (other : ExprId) : view ((p.setExpr id expr).expr? other) = view (p.expr? other) := by
  rw [expr?_setExpr found]
  split
  · next here => rw [here, found, same]
  · rfl

theorem view_init?_setInit {α : Type} (view : Option Init → α) {id : InitId} {init old : Init}
    (found : p.init? id = some old) (same : view (some init) = view (some old))
    (other : InitId) : view ((p.setInit id init).init? other) = view (p.init? other) := by
  rw [init?_setInit found]
  split
  · next here => rw [here, found, same]
  · rfl

/-- A value that is replaced by one that looks the same. -/
theorem map_setIfInBounds_of_eq {α β : Type} {view : α → β} {values : Array α} {index : Nat}
    {value old : α} (found : values[index]? = some old) (same : view value = view old) :
    (values.setIfInBounds index value).map view = values.map view := by
  refine Array.ext_getElem? fun other => ?_
  rw [Array.getElem?_map, Array.getElem?_map, getElem?_setIfInBounds_of_found found]
  split
  · next here => rw [here, found, Option.map_some, Option.map_some, same]
  · rfl

theorem unbound_setExpr {id : ExprId} {expr old : Expr} (found : p.expr? id = some old)
    (same : expr.unbound = old.unbound) : (p.setExpr id expr).unbound = p.unbound := by
  simp only [unbound, Arenas.unbound, setExpr, map_setIfInBounds_of_eq found same]

theorem unbound_setInit {id : InitId} {init old : Init} (found : p.init? id = some old)
    (same : init.unbound = old.unbound) : (p.setInit id init).unbound = p.unbound := by
  simp only [unbound, Arenas.unbound, setInit, map_setIfInBounds_of_eq found same]

theorem unbound_setDecl {id : DeclId} {decl old : Decl} (found : p.decl? id = some old)
    (same : decl.unbound = old.unbound) : (p.setDecl id decl).unbound = p.unbound := by
  simp only [unbound, Arenas.unbound, setDecl, map_setIfInBounds_of_eq found same]

/-! ## What a binding does -/

/-- The binding finds its field holding nothing and fills it, and all else stays. -/
structure Fills (p : Program) (binding : Binding) (q : Program) : Prop where
  free : p.field? binding.field = some none
  filled : q.field? binding.field = some (some binding.value)
  others : ∀ other, other ≠ binding.field → q.field? other = p.field? other
  unbound : q.unbound = p.unbound

theorem fills_exprType {id : ExprId} {expr : Expr} (found : p.expr? id = some expr)
    (free : expr.resolvedType = none) (type : TypeId) :
    p.Fills (.exprType id type) (p.setExpr id { expr with resolvedType := some type }) where
  free := by simp [Binding.field, field?, found, free]
  filled := by simp [Binding.field, Binding.value, field?, expr?_setExpr found]
  others other different := by
    cases other with
    | exprType other =>
        have apart : other ≠ id := fun same => different (congrArg Field.exprType same)
        simp only [field?, expr?_setExpr found, if_neg apart]
    | exprDecl other =>
        exact view_expr?_setExpr (Option.map (·.resolvedDecl.map Bound.decl)) found (by rfl) other
    | _ => rfl
  unbound := unbound_setExpr found rfl

theorem fills_exprDecl {id : ExprId} {expr : Expr} (found : p.expr? id = some expr)
    (free : expr.resolvedDecl = none) (decl : DeclId) :
    p.Fills (.exprDecl id decl) (p.setExpr id { expr with resolvedDecl := some decl }) where
  free := by simp [Binding.field, field?, found, free]
  filled := by simp [Binding.field, Binding.value, field?, expr?_setExpr found]
  others other different := by
    cases other with
    | exprDecl other =>
        have apart : other ≠ id := fun same => different (congrArg Field.exprDecl same)
        simp only [field?, expr?_setExpr found, if_neg apart]
    | exprType other =>
        exact view_expr?_setExpr (Option.map (·.resolvedType.map Bound.type)) found (by rfl) other
    | _ => rfl
  unbound := unbound_setExpr found rfl

theorem fills_initType {id : InitId} {init : Init} (found : p.init? id = some init)
    (free : init.resolvedType = none) (type : TypeId) :
    p.Fills (.initType id type) (p.setInit id { init with resolvedType := some type }) where
  free := by simp [Binding.field, field?, found, free]
  filled := by simp [Binding.field, Binding.value, field?, init?_setInit found]
  others other different := by
    cases other with
    | initType other =>
        have apart : other ≠ id := fun same => different (congrArg Field.initType same)
        simp only [field?, init?_setInit found, if_neg apart]
    | designator other index =>
        simp only [field?]
        refine congrArg (Option.map _) (view_init?_setInit (Option.bind · fun init =>
          init.designators[index]?.bind Designator.member?) found ?_ other)
        rfl
    | _ => rfl
  unbound := unbound_setInit found rfl

theorem fills_designator {id : InitId} {init : Init} {index : Nat} {name : String} {span : Span}
    (found : p.init? id = some init)
    (there : init.designators[index]? = some ⟨.field name none, span⟩) (field : DeclId) :
    p.Fills (.designator id index field) (p.setInit id { init with
      designators := init.designators.set index ⟨.field name (some field), span⟩ }) where
  free := by simp [Binding.field, field?, found, there, Designator.member?]
  filled := by
    have inside := (List.getElem?_eq_some_iff.mp there).1
    simp [Binding.field, Binding.value, field?, init?_setInit found, inside, Designator.member?]
  others other different := by
    cases other with
    | initType other =>
        exact view_init?_setInit (Option.map (·.resolvedType.map Bound.type)) found (by rfl) other
    | designator other place =>
        simp only [field?, init?_setInit found]
        split
        · next same =>
            subst same
            have apart : index ≠ place := by
              rintro rfl
              exact different rfl
            rw [found, Option.bind_some, Option.bind_some, List.getElem?_set_ne apart]
        · rfl
    | _ => rfl
  unbound := by
    refine unbound_setInit found (congrArg (Init.mk · init.form init.span none) ?_)
    refine List.ext_getElem? fun place => ?_
    rw [List.getElem?_map, List.getElem?_map, List.getElem?_set]
    by_cases same : index = place
    · subst same
      have inside := (List.getElem?_eq_some_iff.mp there).1
      rw [if_pos rfl, if_pos inside, there]
      rfl
    · rw [if_neg same]

theorem fills_group {id : DeclId} {decl : Decl} (found : p.decl? id = some decl)
    (free : decl.group = none) (name : String) :
    p.Fills (.group id name) (p.setDecl id { decl with group := some name }) where
  free := by simp [Binding.field, field?, found, free]
  filled := by simp [Binding.field, Binding.value, field?, decl?_setDecl found]
  others other different := by
    cases other with
    | group other =>
        have apart : other ≠ id := fun same => different (congrArg Field.group same)
        simp only [field?, decl?_setDecl found, if_neg apart]
    | _ => rfl
  unbound := unbound_setDecl found rfl

/-- Why a binding is refused. -/
inductive Refuses (p : Program) (binding : Binding) : BindError → Prop
  | missing (missing : p.owns binding.node = false) :
    Refuses p binding (.missing (.lookedUp binding.node))
  | alreadyBound (value : Bound) (taken : p.field? binding.field = some (some value)) :
    Refuses p binding (.alreadyBound binding)
  | notAFieldDesignator {init : InitId} {index : Nat} {field : DeclId}
    (designates : binding = .designator init index field)
    (absent : p.field? binding.field = none) :
    Refuses p binding (.notAFieldDesignator init index)

theorem not_lt_of_absent {α : Type} {values : Array α} {index : Nat}
    (absent : values[index]? = none) : decide (index < values.size) = false :=
  decide_eq_false (Nat.not_lt.mpr (Array.getElem?_eq_none_iff.mp absent))

/-- A binding fills its field or is refused. -/
theorem bind_outcome (p : Program) (binding : Binding) :
    (∃ q, p.bind binding = .ok q ∧ p.Fills binding q) ∨
      ∃ error, p.bind binding = .error error ∧ p.Refuses binding error := by
  cases binding with
  | exprType id type =>
      simp only [bind]
      split
      · next absent => exact .inr ⟨_, rfl, .missing (not_lt_of_absent absent)⟩
      · next expr found =>
          cases held : expr.resolvedType with
          | none => exact .inl ⟨_, rfl, fills_exprType found held type⟩
          | some type =>
              refine .inr ⟨_, rfl, .alreadyBound (.type type) ?_⟩
              simp [Binding.field, field?, found, held]
  | exprDecl id decl =>
      simp only [bind]
      split
      · next absent => exact .inr ⟨_, rfl, .missing (not_lt_of_absent absent)⟩
      · next expr found =>
          cases held : expr.resolvedDecl with
          | none => exact .inl ⟨_, rfl, fills_exprDecl found held decl⟩
          | some decl =>
              refine .inr ⟨_, rfl, .alreadyBound (.decl decl) ?_⟩
              simp [Binding.field, field?, found, held]
  | initType id type =>
      simp only [bind]
      split
      · next absent => exact .inr ⟨_, rfl, .missing (not_lt_of_absent absent)⟩
      · next init found =>
          cases held : init.resolvedType with
          | none => exact .inl ⟨_, rfl, fills_initType found held type⟩
          | some type =>
              refine .inr ⟨_, rfl, .alreadyBound (.type type) ?_⟩
              simp [Binding.field, field?, found, held]
  | designator id index field =>
      simp only [bind]
      split
      · next absent => exact .inr ⟨_, rfl, .missing (not_lt_of_absent absent)⟩
      next init found =>
      split
      · next name resolved span there =>
          cases resolved with
          | none => exact .inl ⟨_, rfl, fills_designator found there field⟩
          | some other =>
              refine .inr ⟨_, rfl, .alreadyBound (.decl other) ?_⟩
              simp [Binding.field, field?, found, there, Designator.member?]
      · next none =>
          refine .inr ⟨_, rfl, .notAFieldDesignator rfl ?_⟩
          cases there : init.designators[index]? with
          | none => simp [Binding.field, field?, found, there]
          | some designator =>
              obtain ⟨selector, span⟩ := designator
              cases selector with
              | field name resolved => exact absurd there (none name resolved span)
              | index expr => simp [Binding.field, field?, found, there, Designator.member?]
  | group id name =>
      simp only [bind]
      split
      · next absent => exact .inr ⟨_, rfl, .missing (not_lt_of_absent absent)⟩
      · next decl found =>
          cases held : decl.group with
          | none => exact .inl ⟨_, rfl, fills_group found held name⟩
          | some name =>
              refine .inr ⟨_, rfl, .alreadyBound (.name name) ?_⟩
              simp [Binding.field, field?, found, held]

end Program

/-! ## Programs that gain bindings -/

/-- The program becomes one with more fields bound, and nothing else happens. -/
structure Program.Evolves (p q : Program) : Prop where
  unbound : q.unbound = p.unbound
  keeps : ∀ field value, p.field? field = some (some value) → q.field? field = some (some value)

namespace Program

variable {p q r : Program} {binding : Binding}

theorem Evolves.refl (p : Program) : p.Evolves p := ⟨rfl, fun _ _ held => held⟩

theorem Evolves.trans (first : p.Evolves q) (then_ : q.Evolves r) : p.Evolves r where
  unbound := then_.unbound.trans first.unbound
  keeps field value held := then_.keeps field value (first.keeps field value held)

/-- A binding that is accepted found its field holding nothing, so it takes no value away. -/
theorem Fills.evolves (fills : p.Fills binding q) : p.Evolves q where
  unbound := fills.unbound
  keeps field value held := by
    rw [fills.others field, held]
    rintro rfl
    rw [fills.free] at held
    cases held

theorem fills_of_bind (bound : p.bind binding = .ok q) : p.Fills binding q := by
  rcases p.bind_outcome binding with ⟨r, accepted, fills⟩ | ⟨error, refused, -⟩
  · rw [bound] at accepted
    cases accepted
    exact fills
  · rw [bound] at refused
    cases refused

theorem refuses_of_bind {error : BindError} (refused : p.bind binding = .error error) :
    p.Refuses binding error := by
  rcases p.bind_outcome binding with ⟨r, accepted, -⟩ | ⟨other, failed, refuses⟩
  · rw [refused] at accepted
    cases accepted
  · rw [refused] at failed
    cases failed
    exact refuses

end Program

/-! ## Programs that differ in their bindings -/

theorem Decl.ext_unbound {decl other : Decl} (same : decl.unbound = other.unbound)
    (group : decl.group = other.group) : decl = other := by
  cases decl
  cases other
  simp only [unbound, mk.injEq] at same group ⊢
  exact ⟨same.1, same.2.1, same.2.2.1, same.2.2.2.1, same.2.2.2.2.1, same.2.2.2.2.2.1,
    same.2.2.2.2.2.2.1, same.2.2.2.2.2.2.2.1, group⟩

theorem Expr.ext_unbound {expr other : Expr} (same : expr.unbound = other.unbound)
    (type : expr.resolvedType = other.resolvedType)
    (decl : expr.resolvedDecl = other.resolvedDecl) : expr = other := by
  cases expr
  cases other
  simp only [unbound, mk.injEq] at same type decl ⊢
  exact ⟨same.1, same.2.1, same.2.2.1, type, decl⟩

theorem Designator.ext_unbound {designator other : Designator}
    (same : designator.unbound = other.unbound) (member : designator.member? = other.member?) :
    designator = other := by
  obtain ⟨selector, span⟩ := designator
  obtain ⟨selector', span'⟩ := other
  cases selector <;> cases selector' <;>
    simp_all [unbound, Selector.unbound, member?]

theorem Init.ext_unbound {init other : Init} (same : init.unbound = other.unbound)
    (type : init.resolvedType = other.resolvedType)
    (members : ∀ index : Nat, init.designators[index]?.bind Designator.member? =
      other.designators[index]?.bind Designator.member?) : init = other := by
  obtain ⟨designators, form, span, resolved⟩ := init
  obtain ⟨designators', form', span', resolved'⟩ := other
  simp only [unbound, mk.injEq] at same type members ⊢
  obtain ⟨alike, form, span, -⟩ := same
  refine ⟨List.ext_getElem? fun index => ?_, form, span, type⟩
  have bare : designators[index]?.map Designator.unbound =
      designators'[index]?.map Designator.unbound := by
    rw [← List.getElem?_map, alike, List.getElem?_map]
  have member := members index
  cases one : designators[index]? with
  | none =>
      rw [one] at bare
      exact (Option.map_eq_none_iff.mp bare.symm).symm
  | some designator =>
      rw [one] at bare member
      obtain ⟨other, there, same⟩ := Option.map_eq_some_iff.mp bare.symm
      rw [there] at member ⊢
      exact congrArg some (Designator.ext_unbound same.symm member)

theorem ext_of_map_eq {α β : Type} {view : α → β} {values others : Array α}
    (same : values.map view = others.map view)
    (each : ∀ (index : Nat) (value other : α), values[index]? = some value →
      others[index]? = some other → view value = view other → value = other) :
    values = others := by
  refine Array.ext_getElem? fun index => ?_
  have seen : values[index]?.map view = others[index]?.map view := by
    rw [← Array.getElem?_map, same, Array.getElem?_map]
  cases one : values[index]? with
  | none =>
      rw [one] at seen
      exact (Option.map_eq_none_iff.mp seen.symm).symm
  | some value =>
      rw [one] at seen
      obtain ⟨other, there, alike⟩ := Option.map_eq_some_iff.mp seen.symm
      rw [there, each index value other one there alike.symm]

/-- A program is told by what it is without its bindings and what its fields hold. -/
theorem Program.ext_fields {p q : Program} (bare : p.unbound = q.unbound)
    (fields : ∀ field, p.field? field = q.field? field) : p = q := by
  obtain ⟨file, roots, decls, types, exprs, stmts, inits, labels⟩ := p
  obtain ⟨file', roots', decls', types', exprs', stmts', inits', labels'⟩ := q
  simp only [unbound, Arenas.unbound, mk.injEq, Arenas.mk.injEq] at bare ⊢
  obtain ⟨file, roots, decls, types, exprs, stmts, inits, labels⟩ := bare
  refine ⟨file, roots, ?decls, types, ?exprs, stmts, ?inits, labels⟩
  case decls =>
    refine ext_of_map_eq decls fun index decl other one there alike => ?_
    have group := fields (.group ⟨index⟩)
    simp only [field?, decl?, Arenas.decl?, one, there, Option.map_some, Option.some.injEq]
      at group
    exact Decl.ext_unbound alike (Option.map_injective (fun _ _ => Bound.name.inj) group)
  case exprs =>
    refine ext_of_map_eq exprs fun index expr other one there alike => ?_
    have type := fields (.exprType ⟨index⟩)
    have decl := fields (.exprDecl ⟨index⟩)
    simp only [field?, expr?, Arenas.expr?, one, there, Option.map_some, Option.some.injEq]
      at type decl
    exact Expr.ext_unbound alike (Option.map_injective (fun _ _ => Bound.type.inj) type)
      (Option.map_injective (fun _ _ => Bound.decl.inj) decl)
  case inits =>
    refine ext_of_map_eq inits fun index init other one there alike => ?_
    have type := fields (.initType ⟨index⟩)
    simp only [field?, init?, Arenas.init?, one, there, Option.map_some, Option.some.injEq]
      at type
    refine Init.ext_unbound alike (Option.map_injective (fun _ _ => Bound.type.inj) type)
      fun place => ?_
    have member := fields (.designator ⟨index⟩ place)
    simp only [field?, init?, Arenas.init?, one, there, Option.bind_some] at member
    exact Option.map_injective (Option.map_injective fun _ _ => Bound.decl.inj) member

end SyntaxGraph
