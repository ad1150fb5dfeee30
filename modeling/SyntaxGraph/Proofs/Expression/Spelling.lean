import SyntaxGraph.Proofs.Expression.Tree
import SyntaxGraph.Proofs.Nesting.TranslationUnit

/-!
# Spelling an expression

What it takes for an expression to be the reading of the tokens that have been consumed: its
tree stands in the arenas, is canonical, and is written with these tokens.  The type of an
operand may only come to light further out, so this is said under the assumption that the
expression turns out to have no types.  There is one rule for each form of a node, one for
lists, and one for loops that extend what has been read.
-/

set_option autoImplicit false

namespace SyntaxGraph.Grammar

open Token (Kind)
open SyntaxGraph.Expr (Tree)
open SyntaxGraph.Expr.Tree (separated behindCommas separated_cons)

variable {α : Type} {tokens : Tokens} {a b : Arenas} {s middle s' : State}
  {id : ExprId} {kinds more : List Kind} {kind : Kind} {least : Nat}

/-! ## Consuming tokens -/

/-- From `s` to `s'` the tokens `kinds` are consumed, and the expressions are kept. -/
structure Consumes (tokens : Tokens) (s : State) (kinds : List Kind) (s' : State) : Prop where
  le : s.position ≤ s'.position
  stretch : tokens.between s.position s'.position = kinds
  keeps : s.arenas.KeepsExprs s'.arenas

namespace Consumes

theorem refl (tokens : Tokens) (s : State) : Consumes tokens s [] s :=
  ⟨Nat.le_refl _, Tokens.between_self tokens _, .refl _⟩

theorem trans (first : Consumes tokens s kinds middle) (second : Consumes tokens middle more s') :
    Consumes tokens s (kinds ++ more) s' where
  le := Nat.le_trans first.le second.le
  stretch := by
    rw [← Tokens.between_append first.le second.le, first.stretch, second.stretch]
  keeps := first.keeps.trans second.keeps

theorem of_neutral {reading : Parse α} {value : α} (neutral : Neutral tokens reading)
    (run : reading tokens s = .ok value s') :
    Consumes tokens s (tokens.between s.position s'.position) s' := by
  obtain ⟨le, -, keeps⟩ := neutral.consumes run
  exact ⟨le, rfl, keeps⟩

theorem one (there : tokens.kind s.position = kind) (inner : kind ≠ .eof) :
    Consumes tokens s [kind] { s with position := s.position + 1 } where
  le := Nat.le_succ _
  stretch := by
    rw [← there]
    exact Tokens.between_succ (Tokens.inside_of_kind (there ▸ inner))
  keeps := .refl _

theorem cons (there : tokens.kind s.position = kind) (inner : kind ≠ .eof)
    (rest : Consumes tokens { s with position := s.position + 1 } kinds s') :
    Consumes tokens s (kind :: kinds) s' :=
  (one there inner).trans rest

theorem addExpr {form : Expr.Form} {span : Span} (consumes : Consumes tokens s kinds middle)
    (run : Parse.addExpr form span tokens middle = .ok id s') :
    Consumes tokens s kinds s' ∧ middle.arenas.KeepsExprs s'.arenas ∧
      s'.arenas.form? id = some form := by
  obtain ⟨rfl, rfl⟩ := add_ok run
  have keeps : middle.arenas.KeepsExprs (middle.arenas.addExpr { form, span }).2 :=
    toList_prefix_push middle.arenas.exprs _
  have found : (middle.arenas.addExpr { form, span }).2.form?
      (middle.arenas.addExpr { form, span }).1 = some form := by
    change ((middle.arenas.exprs.push _)[middle.arenas.exprs.size]?).map Expr.form = some form
    rw [Array.getElem?_push_size]
    rfl
  exact ⟨⟨consumes.le, consumes.stretch, consumes.keeps.trans keeps⟩, keeps, found⟩

theorem spannedExpr {form : Expr.Form} {start : Location}
    (consumes : Consumes tokens s kinds middle)
    (run : (do Parse.addExpr form (← Parse.spanFrom start)) tokens middle = .ok id s') :
    Consumes tokens s kinds s' ∧ middle.arenas.KeepsExprs s'.arenas ∧
      s'.arenas.form? id = some form := by
  obtain ⟨span, added⟩ := look_then spanFrom_observes run
  exact consumes.addExpr added

end Consumes

/-! ## Spelling an expression -/

/-- If the expression has no types, a canonical tree of at least this level stands there
that is written with these tokens. -/
def Spelled (a : Arenas) (id : ExprId) (kinds : List Kind) (least : Nat) : Prop :=
  a.Typeless id → ∃ tree, a.Stands id tree ∧ tree.kinds = kinds ∧ tree.Canonical ∧
    least ≤ tree.level

/-- The same of expressions with a comma in front of each. -/
def SpelledBehind (a : Arenas) (ids : List ExprId) (kinds : List Kind) : Prop :=
  (∀ id ∈ ids, a.Typeless id) → ∃ trees, List.Forall₂ a.Stands ids trees ∧
    behindCommas trees = kinds ∧ ∀ tree ∈ trees, tree.Canonical ∧ 1 ≤ tree.level

def SpelledList (a : Arenas) (ids : List ExprId) (kinds : List Kind) : Prop :=
  (∀ id ∈ ids, a.Typeless id) → ∃ trees, List.Forall₂ a.Stands ids trees ∧
    separated trees = kinds ∧ ∀ tree ∈ trees, tree.Canonical ∧ 1 ≤ tree.level

/-- An operand can be found in the form of a node. -/
theorem operand_of_form {form : Expr.Form} {inner : ExprId} (node : a.form? id = some form)
    (member : ∀ expr : Expr, expr.form = form →
      inner ∈ expr.left.toList ++ expr.right.toList ++ expr.list) : a.Operand id inner := by
  obtain ⟨expr, found, same⟩ := Option.map_eq_some_iff.mp node
  exact ⟨expr, found, member expr same⟩

namespace Spelled

theorem mono (spelled : Spelled a id kinds least) (keeps : a.KeepsExprs b) :
    Spelled b id kinds least := by
  intro typeless
  obtain ⟨tree, stands, written⟩ := spelled (typeless.mono keeps)
  exact ⟨tree, stands.mono keeps, written⟩

theorem weaken {less : Nat} (spelled : Spelled a id kinds least) (le : less ≤ least) :
    Spelled a id kinds less := by
  intro typeless
  obtain ⟨tree, stands, written, canonical, level⟩ := spelled typeless
  exact ⟨tree, stands, written, canonical, Nat.le_trans le level⟩

/-- Nothing is claimed of an expression with a type operand. -/
theorem typed {form : Expr.Form} (node : a.form? id = some form)
    (type : ∀ expr : Expr, expr.form = form → expr.typeOperand ≠ none) :
    Spelled a id kinds least := by
  intro typeless
  obtain ⟨expr, found, same⟩ := Option.map_eq_some_iff.mp node
  exact absurd (typeless id expr .refl found).1 (type expr same)

theorem unary {op : UnaryOp} {inner : ExprId} {written : List Kind}
    (node : a.form? id = some (.unary op inner)) (spelled : Spelled a inner kinds op.operandLevel)
    (writes : ∀ tree : Tree, tree.kinds = kinds → (Tree.unary op tree).kinds = written)
    (le : least ≤ op.level) : Spelled a id written least := by
  intro typeless
  have operand : a.Operand id inner :=
    operand_of_form node fun expr same => by simp [Expr.left, same]
  obtain ⟨tree, stands, same, canonical, level⟩ := spelled (typeless.operand operand)
  exact ⟨.unary op tree, .unary node stands, writes tree same, .unary canonical level, le⟩

theorem binary {op : BinaryOp} {left right : ExprId} {first second written : List Kind}
    (node : a.form? id = some (.binary op left right))
    (before : Spelled a left first op.leftLevel) (behind : Spelled a right second op.rightLevel)
    (writes : ∀ one other : Tree, one.kinds = first → other.kinds = second →
      (Tree.binary op one other).kinds = written)
    (le : least ≤ op.level) : Spelled a id written least := by
  intro typeless
  have leftOperand : a.Operand id left :=
    operand_of_form node fun expr same => by simp [Expr.left, same]
  have rightOperand : a.Operand id right :=
    operand_of_form node fun expr same => by simp [Expr.right, same]
  obtain ⟨one, stands, same, canonical, level⟩ := before (typeless.operand leftOperand)
  obtain ⟨other, besides, equal, alike, height⟩ := behind (typeless.operand rightOperand)
  exact ⟨.binary op one other, .binary node stands besides, writes one other same equal,
    .binary canonical alike level height, le⟩

theorem member {op : MemberOp} {object : ExprId} {field : String}
    (node : a.form? id = some (.member op object field)) (spelled : Spelled a object kinds 15) :
    Spelled a id (kinds ++ [.punctuator op.mark, .identifier field]) 15 := by
  intro typeless
  have operand : a.Operand id object :=
    operand_of_form node fun expr same => by simp [Expr.left, same]
  obtain ⟨tree, stands, same, canonical, level⟩ := spelled (typeless.operand operand)
  refine ⟨.member op tree field, .member node stands, ?_, .member canonical level, Nat.le_refl _⟩
  rw [Tree.kinds, same]

theorem call {callee : ExprId} {ids : List ExprId}
    (node : a.form? id = some (.call callee ids)) (spelled : Spelled a callee kinds 15)
    (arguments : SpelledList a ids more) :
    Spelled a id (kinds ++ .punctuator .parenOpen :: (more ++ [.punctuator .parenClose])) 15 := by
  intro typeless
  have operand : a.Operand id callee :=
    operand_of_form node fun expr same => by simp [Expr.left, same]
  have listed : ∀ argument ∈ ids, a.Typeless argument := fun argument member =>
    typeless.operand (operand_of_form node fun expr same => by simp [Expr.list, same, member])
  obtain ⟨tree, stands, same, canonical, level⟩ := spelled (typeless.operand operand)
  obtain ⟨trees, alike, equal, each⟩ := arguments listed
  obtain ⟨length, pairs⟩ := List.forall₂_iff_zip.mp alike
  refine ⟨.call tree trees, .call node stands length fun pair => pairs, ?_, ?_, Nat.le_refl _⟩
  · rw [Tree.kinds, same, equal]
  · exact .call canonical level (fun tree member => (each tree member).1)
      fun tree member => (each tree member).2

theorem comma {ids : List ExprId} (node : a.form? id = some (.comma ids))
    (several : 2 ≤ ids.length) (items : SpelledList a ids kinds) : Spelled a id kinds 0 := by
  intro typeless
  have listed : ∀ item ∈ ids, a.Typeless item := fun item member =>
    typeless.operand (operand_of_form node fun expr same => by simp [Expr.list, same, member])
  obtain ⟨trees, alike, equal, each⟩ := items listed
  obtain ⟨length, pairs⟩ := List.forall₂_iff_zip.mp alike
  refine ⟨.comma trees, .comma node length fun pair => pairs, ?_, ?_, Nat.zero_le _⟩
  · rw [Tree.kinds, equal]
  · exact .comma (length ▸ several) (fun tree member => (each tree member).1)
      fun tree member => (each tree member).2

theorem cond {test first second : ExprId} {one other : List Kind}
    (node : a.form? id = some (.cond test first second)) (tested : Spelled a test kinds 3)
    (whenTrue : Spelled a first one 0) (whenFalse : Spelled a second other 2) :
    Spelled a id (kinds ++ .punctuator .question :: (one ++ .punctuator .colon :: other)) 2 := by
  intro typeless
  have operand (inner : ExprId) (member : inner ∈ [test, first, second]) : a.Typeless inner :=
    typeless.operand (operand_of_form node fun expr same => by
      rw [Expr.list, same]
      exact List.mem_append_right _ member)
  obtain ⟨condition, stands, same, canonical, level⟩ := tested (operand test (by simp))
  obtain ⟨yes, standsTrue, sameTrue, canonicalTrue, -⟩ := whenTrue (operand first (by simp))
  obtain ⟨no, standsFalse, sameFalse, canonicalFalse, falseLevel⟩ :=
    whenFalse (operand second (by simp))
  refine ⟨.cond condition yes no, .cond node stands standsTrue standsFalse, ?_, ?_,
    Nat.le_refl _⟩
  · rw [Tree.kinds, same, sameTrue, sameFalse]
  · exact .cond canonical canonicalTrue canonicalFalse level falseLevel

end Spelled

theorem SpelledBehind.nil (a : Arenas) : SpelledBehind a [] [] :=
  fun _ => ⟨[], .nil, rfl, by simp⟩

theorem SpelledBehind.cons {ids : List ExprId} (first : Spelled a id kinds 1)
    (others : SpelledBehind a ids more) :
    SpelledBehind a (id :: ids) (.punctuator .comma :: (kinds ++ more)) := by
  intro typeless
  obtain ⟨tree, stands, same, written⟩ := first (typeless id (by simp))
  obtain ⟨trees, alike, equal, each⟩ := others fun other member =>
    typeless other (List.mem_cons_of_mem _ member)
  refine ⟨tree :: trees, .cons stands alike, ?_, List.forall_mem_cons.mpr ⟨written, each⟩⟩
  rw [behindCommas, same, equal]

theorem SpelledList.nil (a : Arenas) : SpelledList a [] [] :=
  fun _ => ⟨[], .nil, rfl, by simp⟩

/-- One expression that is listed alone is spelled as it is. -/
theorem SpelledList.single (spelled : SpelledList a [id] kinds) : Spelled a id kinds 1 := by
  intro typeless
  obtain ⟨trees, alike, written, each⟩ := spelled (by simpa using typeless)
  obtain ⟨tree, others, stands, rest, rfl⟩ := List.forall₂_cons_left_iff.mp alike
  obtain rfl := List.forall₂_nil_left_iff.mp rest
  rw [separated_cons, behindCommas, List.append_nil] at written
  exact ⟨tree, stands, written, each tree (by simp)⟩

theorem SpelledList.mono {ids : List ExprId} (spelled : SpelledList a ids kinds)
    (keeps : a.KeepsExprs b) : SpelledList b ids kinds := by
  intro typeless
  obtain ⟨trees, alike, written⟩ := spelled fun id member => (typeless id member).mono keeps
  exact ⟨trees, alike.imp fun _ _ stands => stands.mono keeps, written⟩

theorem SpelledList.cons {ids : List ExprId} (first : Spelled a id kinds 1)
    (others : SpelledBehind a ids more) : SpelledList a (id :: ids) (kinds ++ more) := by
  intro typeless
  obtain ⟨tree, stands, same, written⟩ := first (typeless id (by simp))
  obtain ⟨trees, alike, equal, each⟩ := others fun other member =>
    typeless other (List.mem_cons_of_mem _ member)
  refine ⟨tree :: trees, .cons stands alike, ?_, List.forall_mem_cons.mpr ⟨written, each⟩⟩
  rw [separated_cons, same, equal]

/-! ## Readings that spell what they read -/

def Spells (tokens : Tokens) (least : Nat) (reading : Parse ExprId) : Prop :=
  ∀ s id s', reading tokens s = .ok id s' →
    ∃ kinds, Consumes tokens s kinds s' ∧ Spelled s'.arenas id kinds least

structure Rules.AllSpell (rules : Rules) (tokens : Tokens) : Prop where
  expression : Spells tokens 0 rules.expression
  assignment : Spells tokens 1 rules.assignment
  conditional : Spells tokens 2 rules.conditional
  cast : Spells tokens 13 rules.cast
  unary : Spells tokens 14 rules.unary

/-- What `value` spells at `s` goes on to what `next` spells at `s'`. -/
def Extends (tokens : Tokens) (least : Nat) (value : ExprId) (s : State) (next : ExprId)
    (s' : State) : Prop :=
  ∀ kinds, Spelled s.arenas value kinds least →
    ∃ more, Consumes tokens s more s' ∧ Spelled s'.arenas next (kinds ++ more) least

theorem iterate_extends {step : ExprId → Parse (Option ExprId)}
    (each : ∀ value s next s', step value tokens s = .ok next s' →
      (next = none ∧ s' = s) ∨ ∃ id, next = some id ∧ Extends tokens least value s id s')
    {value final : ExprId} (run : Parse.iterate step value tokens s = .ok final s') :
    Extends tokens least value s final s' := by
  have rounds := iterate_ok run
  clear run
  induction rounds with
  | stop round =>
      intro kinds spelled
      obtain ⟨-, rfl⟩ | ⟨id, some, -⟩ := each _ _ _ _ round
      · exact ⟨[], .refl tokens _, by rwa [List.append_nil]⟩
      · cases some
  | next round _ ih =>
      intro kinds spelled
      obtain ⟨none, -⟩ | ⟨id, some, further⟩ := each _ _ _ _ round
      · cases none
      · cases some
        obtain ⟨more, consumed, extended⟩ := further kinds spelled
        obtain ⟨others, rest, whole⟩ := ih (kinds ++ more) extended
        rw [List.append_assoc] at whole
        exact ⟨more ++ others, consumed.trans rest, whole⟩

theorem behindCommas_spelled {item : Parse ExprId} (spells : Spells tokens 1 item)
    {ids : List ExprId}
    (run : Parse.many (do if ← Parse.acceptMark .comma then some <$> item else return none)
      tokens s = .ok ids s') :
    ∃ kinds, Consumes tokens s kinds s' ∧ SpelledBehind s'.arenas ids kinds := by
  have items := many_ok run
  clear run
  induction items with
  | stop last =>
      obtain ⟨-, taken⟩ | ⟨-, stopped⟩ := accept_then (by simp) last
      · obtain ⟨id, -, same⟩ := map_ok taken
        cases same
      · obtain ⟨-, rfl⟩ := pure_ok stopped
        exact ⟨[], .refl tokens _, .nil _⟩
  | next one _ ih =>
      obtain ⟨there, taken⟩ | ⟨-, stopped⟩ := accept_then (by simp) one
      · obtain ⟨id, read, same⟩ := map_ok taken
        cases same
        obtain ⟨kinds, consumed, spelled⟩ := spells _ _ _ read
        obtain ⟨more, rest, others⟩ := ih
        exact ⟨_, .cons there (by simp) (consumed.trans rest),
          .cons (spelled.mono rest.keeps) others⟩
      · obtain ⟨none, -⟩ := pure_ok stopped
        cases none

theorem separated_spelled {item : Parse ExprId} (spells : Spells tokens 1 item)
    {ids : List ExprId} (run : Parse.separated item tokens s = .ok ids s') :
    ids ≠ [] ∧ ∃ kinds, Consumes tokens s kinds s' ∧ SpelledList s'.arenas ids kinds := by
  obtain ⟨first, middle, read, run⟩ := bind_ok run
  obtain ⟨others, last, collected, done⟩ := bind_ok run
  obtain ⟨rfl, rfl⟩ := pure_ok done
  obtain ⟨kinds, consumed, spelled⟩ := spells _ _ _ read
  obtain ⟨more, rest, behind⟩ := behindCommas_spelled spells collected
  refine ⟨List.cons_ne_nil _ _, kinds ++ more, consumed.trans rest, ?_⟩
  exact .cons (spelled.mono rest.keeps) behind

end SyntaxGraph.Grammar
