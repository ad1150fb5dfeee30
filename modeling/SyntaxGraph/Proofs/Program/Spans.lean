import SyntaxGraph.Proofs.Program.Externals
import SyntaxGraph.Proofs.Program.Owners

/-!
# Spans in a program

In a program that has been read the span of every node that is no type goes from the start of
one token to the end of another one, and the spans of its parts lie within it; so do the
parameters of a function and the length of an array.  The operands of a binary operator do
not overlap.
-/

set_option autoImplicit false

namespace SyntaxGraph

open Token (Reading)

namespace Span

/-- The span is not empty, and goes from the start of a token to the end of a token. -/
structure Bounded (span : Span) (tokens : List Token) : Prop where
  some : span.start < span.finish
  start : ∃ token ∈ tokens, token.start = span.start
  finish : ∃ token ∈ tokens, token.finish = span.finish

/-- The span lies within another one. -/
structure Within (inner outer : Span) : Prop where
  start : outer.start ≤ inner.start
  finish : inner.finish ≤ outer.finish

end Span

namespace Grammar

namespace Tokens.Covers

variable {i j first last : Nat} {inner outer : Span}

theorem bounded {tokens : List Token} {span : Span} (covers : Tokens.Covers tokens.toArray span i j)
    (ordered : Tokens.Ordered tokens.toArray) : span.Bounded tokens := by
  have some := covers.some
  have inside : j < tokens.length := covers.inside
  refine ⟨?_, ⟨tokens[i], List.getElem_mem _, ?_⟩, ⟨tokens[j - 1], List.getElem_mem _, ?_⟩⟩
  · rw [covers.start, covers.finish]
    exact ordered.start_lt_finish (by omega) (by rw [List.size_toArray]; omega)
  · simp [covers.start, Tokens.start, show i < tokens.length by omega]
  · simp [covers.finish, Tokens.finish, show j - 1 < tokens.length by omega]

theorem within {tokens : Tokens} (ordered : tokens.Ordered)
    (inners : tokens.Covers inner first last) (outers : tokens.Covers outer i j)
    (lower : i ≤ first) (upper : last ≤ j) :
    inner.Within outer := by
  have some := inners.some
  have inside := outers.inside
  refine ⟨?_, ?_⟩
  · rw [inners.start, outers.start]
    exact ordered.start_mono lower (by omega)
  · rw [inners.finish, outers.finish]
    exact ordered.finish_mono (by omega) (by omega)

end Tokens.Covers

theorem Sheet.Inside.within {sheet : Sheet} {nodes : List NodeRef} {outer : Span} {i j : Nat}
    (inside : sheet.Inside nodes i j) (ordered : sheet.tokens.Ordered)
    (covers : sheet.tokens.Covers outer i j) {node : NodeRef} (member : node ∈ nodes) :
    ∃ inner, sheet.arenas.span? node = some inner ∧ inner.Within outer := by
  obtain ⟨first, last, lower, upper, inner, found, inners⟩ := inside node member
  exact ⟨inner, found, inners.within ordered covers lower upper⟩

/-- The operands of a binary operator lie like those of any form. -/
theorem Sheet.Holds.inside {sheet : Sheet} {form : Expr.Form} {i j : Nat}
    (holds : sheet.Holds form i j) : sheet.Inside (parts form) i j := by
  cases form with
  | binary op left right =>
      obtain ⟨middle, lefts, rights⟩ := holds
      have before := Sheet.Inside.one rights
      have behind := Sheet.Inside.one lefts
      exact Sheet.inside_cons.mpr ⟨lefts.mono (Nat.le_refl i) before.le,
        rights.mono behind.le (Nat.le_refl j)⟩
  | _ => exact holds

end Grammar

open Grammar

namespace Program

variable {p : Program} {file source : String}

/-- The node has a span that its parts lie within: of types, only functions and arrays. -/
def Encloses (p : Program) : NodeRef → Prop
  | .type id => ∃ type, p.type? id = some type ∧ (type.kind = .function ∨ type.kind = .array)
  | _ => True

/-- The program without comments. -/
def plain (p : Program) : Program := { p with arenas := p.arenas.plain }

theorem plain_partsOf (p : Program) (node : NodeRef) : p.plain.partsOf node = p.partsOf node := by
  cases node with
  | decl id =>
      change (p.arenas.plain.decl? id).elim [] parts = (p.arenas.decl? id).elim [] parts
      rw [Arenas.plain_decl?]
      cases p.arenas.decl? id <;> rfl
  | _ => rfl

theorem owns_of_span? {node : NodeRef} {span : Span} (found : p.arenas.span? node = some span) :
    p.owns node = true := by
  have inside {α : Type} {values : Array α} {index : Nat} {field : α → Span}
      (found : values[index]?.map field = some span) : decide (index < values.size) = true := by
    obtain ⟨value, there, -⟩ := Option.map_eq_some_iff.mp found
    exact decide_eq_true (Array.getElem?_eq_some_iff.mp there).1
  cases node with
  | program => rfl
  | _ id => exact inside found

/-- A node that is laid out covers some tokens, and its parts some of these. -/
theorem covers_of_laid {tokens : Tokens} {node : NodeRef} {outer : Span}
    (laid : Sheet.Laid ⟨tokens, p.arenas⟩ node) (encloses : p.Encloses node)
    (found : p.arenas.span? node = some outer) :
    ∃ i j, tokens.Covers outer i j ∧ Sheet.Inside ⟨tokens, p.arenas⟩ (p.partsOf node) i j := by
  have lookup {α : Type} [Owning α] {value : α} {there : Option α} {span : α → Span}
      (same : there = some value) (found : there.map span = some outer) {i j : Nat}
      (covers : tokens.Covers (span value) i j)
      (inside : Sheet.Inside ⟨tokens, p.arenas⟩ (parts value) i j) :
      ∃ i j, tokens.Covers outer i j ∧
        Sheet.Inside ⟨tokens, p.arenas⟩ (there.elim [] parts) i j := by
    subst same
    obtain rfl := Option.some.inj found
    exact ⟨i, j, covers, inside⟩
  cases node with
  | program => cases found
  | decl id =>
      obtain ⟨decl, there, -, -, i, j, covers, inside⟩ := laid
      exact lookup there found covers inside
  | type id =>
      obtain ⟨type, there, lies⟩ := laid
      obtain ⟨same, again, shaped⟩ := encloses
      obtain rfl : type = same := Option.some.inj (there.symm.trans again)
      obtain ⟨i, j, covers, inside⟩ := lies shaped
      exact lookup there found covers inside
  | expr id =>
      obtain ⟨expr, there, -, empty, i, j, covers, holds⟩ := laid
      refine lookup there found covers ?_
      rw [parts_expr, empty]
      exact Sheet.inside_append.mpr ⟨holds.inside, Sheet.inside_nil⟩
  | stmt id =>
      obtain ⟨stmt, there, i, j, covers, inside⟩ := laid
      exact lookup there found covers inside
  | init id =>
      obtain ⟨init, there, -, i, j, covers, designate, inside⟩ := laid
      refine lookup there found covers (Sheet.inside_append.mpr ⟨?_, inside⟩)
      refine Sheet.inside_of_forall fun designator member => ?_
      obtain ⟨first, last, lower, upper, -, -, within⟩ := designate designator member
      exact ⟨first, last, lower, upper, within⟩
  | label id =>
      obtain ⟨label, there, i, j, covers, inside⟩ := laid
      exact lookup there found covers inside

/-- When the comments of a program are taken away all of its nodes are laid out. -/
theorem laid_of_read (parsed : read file source = .ok p) {node : NodeRef} (real : node ≠ .program)
    (owned : p.owns node = true) :
    Sheet.Laid ⟨(Reading.ofSource source).tokens.toArray, p.plain.arenas⟩ node := by
  obtain ⟨units, s, t, left, comes⟩ := read_comes parsed
  have laid := (comes.laid (whole_of_read parsed)).1
  have same : p.plain.arenas = s.arenas := comes.plain.trans (comes.bare (whole_of_read parsed))
  rw [same]
  refine laid node real ?_
  rw [← same]
  exact (p.arenas.plain_owns node).trans owned

/-- A node covers some tokens, and its parts some of these. -/
theorem covers_of_read (parsed : read file source = .ok p) {node : NodeRef} {span : Span}
    (encloses : p.Encloses node) (found : p.arenas.span? node = some span) :
    ∃ i j, Tokens.Covers (Reading.ofSource source).tokens.toArray span i j ∧
      Sheet.Inside ⟨(Reading.ofSource source).tokens.toArray, p.plain.arenas⟩
        (p.partsOf node) i j := by
  have real : node ≠ .program := by
    rintro rfl
    cases found
  have laid := laid_of_read parsed real (owns_of_span? found)
  rw [← p.arenas.plain_span?] at found
  rw [← p.plain_partsOf]
  exact covers_of_laid (p := p.plain) laid encloses found

theorem bounded_of_read (parsed : read file source = .ok p) {node : NodeRef} {span : Span}
    (unshared : node.isType = false) (found : p.arenas.span? node = some span) :
    span.Bounded (Reading.ofSource source).tokens := by
  have encloses : p.Encloses node := by
    cases node with
    | type id => cases unshared
    | _ => trivial
  obtain ⟨i, j, covered, -⟩ := covers_of_read parsed encloses found
  exact covered.bounded (Reading.ofSource_ordered (whole_of_read parsed))

theorem parts_within_of_read (parsed : read file source = .ok p) {parent child : NodeRef}
    {outer : Span} (encloses : p.Encloses parent) (found : p.arenas.span? parent = some outer)
    (member : child ∈ p.partsOf parent) :
    ∃ inner, p.arenas.span? child = some inner ∧ inner.Within outer := by
  have ordered := Reading.ofSource_ordered (whole_of_read parsed)
  obtain ⟨i, j, covered, inside⟩ := covers_of_read parsed encloses found
  obtain ⟨inner, there, within⟩ := inside.within ordered covered member
  exact ⟨inner, (p.arenas.plain_span? child).symm.trans there, within⟩

/-- A designator lies in its initializer, and its index in the designator. -/
theorem designators_of_read (parsed : read file source = .ok p) {id : InitId} {init : Init}
    (found : p.init? id = some init) {designator : Designator}
    (member : designator ∈ init.designators) :
    designator.span.Bounded (Reading.ofSource source).tokens ∧
      designator.span.Within init.span ∧
      ∀ child ∈ parts designator,
        ∃ inner, p.arenas.span? child = some inner ∧ inner.Within designator.span := by
  have ordered := Reading.ofSource_ordered (whole_of_read parsed)
  have owned : p.owns (.init id) = true := decide_eq_true (Array.getElem?_eq_some_iff.mp found).1
  obtain ⟨same, there, -, i, j, covered, designate, -⟩ := laid_of_read parsed (by simp) owned
  obtain rfl : init = same := Option.some.inj (found.symm.trans there)
  obtain ⟨first, last, lower, upper, -, lies, inside⟩ := designate designator member
  refine ⟨lies.bounded ordered, lies.within ordered covered lower upper, fun child part => ?_⟩
  obtain ⟨inner, placed, within⟩ := inside.within ordered lies part
  exact ⟨inner, (p.arenas.plain_span? child).symm.trans placed, within⟩

theorem operands_of_read (parsed : read file source = .ok p) {id left right : ExprId} {expr : Expr}
    {op : BinaryOp} (found : p.expr? id = some expr) (binary : expr.form = .binary op left right) :
    ∃ first second, p.arenas.span? (.expr left) = some first ∧
      p.arenas.span? (.expr right) = some second ∧ first.finish ≤ second.start := by
  have ordered := Reading.ofSource_ordered (whole_of_read parsed)
  have owned : p.owns (.expr id) = true := decide_eq_true (Array.getElem?_eq_some_iff.mp found).1
  obtain ⟨same, there, -, -, i, j, -, holds⟩ := laid_of_read parsed (by simp) owned
  obtain rfl : expr = same := Option.some.inj (found.symm.trans there)
  rw [binary] at holds
  obtain ⟨middle, lefts, rights⟩ := holds
  obtain ⟨one, other, -, before, first, foundLeft, left⟩ := lefts _ List.mem_cons_self
  obtain ⟨two, another, behind, -, second, foundRight, right⟩ := rights _ List.mem_cons_self
  refine ⟨first, second, (p.arenas.plain_span? _).symm.trans foundLeft,
    (p.arenas.plain_span? _).symm.trans foundRight, ?_⟩
  have leftSome := left.some
  have rightSome := right.some
  have inside : another < (Reading.ofSource source).tokens.toArray.size := right.inside
  rw [left.finish, right.start]
  exact ordered.finish_le_start (by omega) (by omega)

/-- Spans go from token to token and are nested, and operands do not overlap. -/
theorem read_spans (parsed : read file source = .ok p) :
    (∀ node span, node.isType = false → p.arenas.span? node = some span →
      span.Bounded (Reading.ofSource source).tokens) ∧
    (∀ parent outer, p.Encloses parent → p.arenas.span? parent = some outer →
      ∀ child ∈ p.partsOf parent,
        ∃ inner, p.arenas.span? child = some inner ∧ inner.Within outer) ∧
    (∀ id init, p.init? id = some init → ∀ designator ∈ init.designators,
      designator.span.Bounded (Reading.ofSource source).tokens ∧
        designator.span.Within init.span ∧
        ∀ child ∈ parts designator,
          ∃ inner, p.arenas.span? child = some inner ∧ inner.Within designator.span) ∧
    ∀ id expr op left right, p.expr? id = some expr → expr.form = .binary op left right →
      ∃ first second, p.arenas.span? (.expr left) = some first ∧
        p.arenas.span? (.expr right) = some second ∧ first.finish ≤ second.start :=
  ⟨fun _ _ => bounded_of_read parsed,
    fun _ _ encloses found _ => parts_within_of_read parsed encloses found,
    fun _ _ found _ => designators_of_read parsed found,
    fun _ _ _ _ _ => operands_of_read parsed⟩

/-- A parenthesized declarator, designators, and a statement with labels. -/
def layoutSource : String :=
  "int (*a)[2 + 1] = \x7b [1].x = 3 \x7d;\nint f(int n) \x7b k: case 2: return n - a[0] * 2; \x7d"

theorem read_spans_layoutSource :
    ∃ p, read "layout.c" layoutSource = .ok p ∧
      (∀ node span, node.isType = false → p.arenas.span? node = some span →
        span.Bounded (Reading.ofSource layoutSource).tokens) ∧
      (∃ inner, p.arenas.span? (.expr ⟨2⟩) = some inner ∧ inner.Within ⟨⟨1, 9⟩, ⟨1, 16⟩⟩) ∧
      (∃ init, p.init? ⟨0⟩ = some init ∧ init.designators.length = 2 ∧
        ∀ designator ∈ init.designators, designator.span.Within ⟨⟨1, 21⟩, ⟨1, 30⟩⟩) ∧
      ∃ first second, p.arenas.span? (.expr ⟨6⟩) = some first ∧
        p.arenas.span? (.expr ⟨11⟩) = some second ∧ first.finish ≤ second.start := by
  have shape : (read "layout.c" layoutSource).toOption.map (fun p =>
      (p.type? ⟨1⟩).map fun type => (type.kind, type.width, type.span)) =
      some (some (.array, some ⟨2⟩, ⟨⟨1, 9⟩, ⟨1, 16⟩⟩)) := by
    decide +kernel
  have initializers : (read "layout.c" layoutSource).toOption.map (fun p =>
      (p.init? ⟨0⟩).map fun init => (init.designators.length, init.span)) =
      some (some (2, ⟨⟨1, 21⟩, ⟨1, 30⟩⟩)) := by
    decide +kernel
  have forms : (read "layout.c" layoutSource).toOption.map (fun p =>
      (p.expr? ⟨12⟩).map Expr.form) = some (some (.binary .sub ⟨6⟩ ⟨11⟩)) := by
    decide +kernel
  obtain ⟨p, parsed, seen⟩ := exists_read_of_map shape
  obtain ⟨type, foundType, same⟩ := Option.map_eq_some_iff.mp seen
  obtain ⟨init, foundInit, place⟩ := Option.map_eq_some_iff.mp (seen_of_read parsed initializers)
  obtain ⟨expr, foundExpr, form⟩ := Option.map_eq_some_iff.mp (seen_of_read parsed forms)
  simp only [Prod.mk.injEq] at same place
  obtain ⟨kind, width, typeSpan⟩ := same
  obtain ⟨length, initSpan⟩ := place
  obtain ⟨bounded, within, designators, operands⟩ := read_spans parsed
  refine ⟨p, parsed, bounded, ?_, ⟨init, foundInit, length, fun designator member => ?_⟩,
    operands _ _ _ _ _ foundExpr form⟩
  · refine within (.type ⟨1⟩) _ ⟨type, foundType, .inr kind⟩ ?_ _ ?_
    · exact Option.map_eq_some_iff.mpr ⟨type, foundType, typeSpan⟩
    · simp [partsOf, foundType, width]
  · rw [← initSpan]
    exact (designators _ _ foundInit designator member).2.1

end Program

end SyntaxGraph
