import Mathlib.Data.List.Forall2
import Mathlib.Data.Option.Basic
import SyntaxGraph.Grammar.Rules
import SyntaxGraph.Proofs.Graph.Erasure
import SyntaxGraph.Proofs.Grammar.Judgement

/-!
# Two readings that agree

Two states are alike if they are at the same position, have the same scopes, and have the
same arenas once places and comments are erased.  Two readings agree if from states that are
alike, over tokens of the same kinds, they end alike: both with values that are related, or
both with the same cause.  A reading is blind if it agrees with itself, with equal values:
then nothing but the kinds of the tokens decides what it does.

Where a place flows into a reading the two readings are given two places, of which nothing
is known.
-/

set_option autoImplicit false

namespace SyntaxGraph.Grammar

open Token (Kind Keyword Punctuator)

variable {α β : Type}

/-- Tokens of the same kinds, wherever they stand. -/
def Similar (first second : Tokens) : Prop := first.map Token.kind = second.map Token.kind

structure Alike (s t : State) : Prop where
  position : s.position = t.position
  scopes : s.scopes = t.scopes
  arenas : s.arenas.erased = t.arenas.erased

inductive Matches (related : α → α → Prop) :
    EStateM.Result Cause State α → EStateM.Result Cause State α → Prop
  | ok {value other : α} {s t : State} (values : related value other) (states : Alike s t) :
    Matches related (.ok value s) (.ok other t)
  | error {cause : Cause} {s t : State} (states : Alike s t) :
    Matches related (.error cause s) (.error cause t)

def Agree (related : α → α → Prop) (one other : Parse α) : Prop :=
  ∀ first second, Similar first second → ∀ s t, Alike s t →
    Matches related (one first s) (other second t)

abbrev Blind (reading : Parse α) : Prop := Agree Eq reading reading

/-- Nothing is known of the two values. -/
def Unrelated (_ _ : α) : Prop := True

theorem Similar.size {first second : Tokens} (similar : Similar first second) :
    first.size = second.size := by
  have sizes := congrArg Array.size similar
  simpa using sizes

theorem Similar.kind {first second : Tokens} (similar : Similar first second) (place : Nat) :
    first.kind place = second.kind place := by
  have found := congrArg (·[place]?) similar
  simp only [Array.getElem?_map] at found
  rw [Tokens.kind, Tokens.kind, found]

variable {related : α → α → Prop} {final : β → β → Prop} {kind : Kind}

namespace Agree

/-! ## Composition -/

theorem pure {value other : α} (values : related value other) :
    Agree related (Pure.pure value) (Pure.pure other) :=
  fun _ _ _ _ _ alike => .ok values alike

theorem fail {cause : Cause} : Agree related (Parse.fail cause) (Parse.fail cause) :=
  fun _ _ _ _ _ alike => .error alike

theorem refuse {cause : Cause} {next other : β → Parse α} :
    Agree related (Parse.fail cause >>= next) (Parse.fail cause >>= other) :=
  fun _ _ _ _ _ alike => .error alike

theorem bind {one other : Parse α} {next following : α → Parse β}
    (agree : Agree related one other)
    (rest : ∀ value result, related value result → Agree final (next value) (following result)) :
    Agree final (one >>= next) (other >>= following) := by
  intro first second similar s t alike
  have outcome := agree first second similar s t alike
  rw [bind_apply, bind_apply]
  generalize one first s = left at outcome
  generalize other second t = right at outcome
  cases outcome with
  | ok values states => exact rest _ _ values first second similar _ _ states
  | error states => exact .error states

/-- Both readings go on with the same value. -/
theorem same {one other : Parse α} {next following : α → Parse β} (agree : Agree Eq one other)
    (rest : ∀ value, Agree final (next value) (following value)) :
    Agree final (one >>= next) (other >>= following) :=
  agree.bind fun value _ equal => equal ▸ rest value

/-- The readings go on with values of which nothing is known. -/
theorem anyhow {one other : Parse α} {next following : α → Parse β}
    (agree : Agree Unrelated one other)
    (rest : ∀ value result, Agree final (next value) (following result)) :
    Agree final (one >>= next) (other >>= following) :=
  agree.bind fun value result _ => rest value result

theorem weaken {one other : Parse α} {weaker : α → α → Prop} (agree : Agree related one other)
    (holds : ∀ value result, related value result → weaker value result) :
    Agree weaker one other := by
  intro first second similar s t alike
  have outcome := agree first second similar s t alike
  generalize one first s = left at outcome ⊢
  generalize other second t = right at outcome ⊢
  cases outcome with
  | ok values states => exact .ok (holds _ _ values) states
  | error states => exact .error states

theorem map {one other : Parse α} {change following : α → β}
    (agree : Agree (fun value result => final (change value) (following result)) one other) :
    Agree final (change <$> one) (following <$> other) :=
  agree.bind fun _ _ => .pure

/-- Equal values are equal after the same change. -/
theorem mapSame {one other : Parse α} {change : α → β} (agree : Agree Eq one other) :
    Agree Eq (change <$> one) (change <$> other) :=
  agree.same fun _ => .pure rfl

/-! ## Tokens -/

theorem read : Agree Similar MonadReader.read MonadReader.read :=
  fun _ _ similar _ _ alike => .ok similar alike

theorem position : Blind Parse.position :=
  fun _ _ _ _ _ alike => .ok alike.position alike

theorem moveTo {place : Nat} : Blind (Parse.moveTo place) := by
  refine .bind .read fun first second similar => ?_
  rw [similar.size]
  split
  · exact fun _ _ _ _ _ alike => .ok rfl { alike with position := rfl }
  · exact .fail

theorem tokenAt {place : Nat} :
    Agree (fun one other => one.kind = other.kind) (Parse.tokenAt place)
      (Parse.tokenAt place) := by
  refine .bind .read fun first second similar => ?_
  have found := congrArg (·[place]?) similar
  simp only [Array.getElem?_map] at found
  cases left : first[place]? with
  | none =>
      rw [left, Option.map_none, eq_comm, Option.map_eq_none_iff] at found
      rw [found]
      exact .fail
  | some one =>
      rw [left, Option.map_some, eq_comm, Option.map_eq_some_iff] at found
      obtain ⟨other, right, kinds⟩ := found
      rw [right]
      exact .pure kinds.symm

theorem peek : Blind Parse.peek :=
  .same .position fun _ => .bind .tokenAt fun _ _ => .pure

theorem peekNext : Blind Parse.peekNext :=
  .bind .read fun _ _ similar => .same .position fun place => .pure (similar.kind (place + 1))

theorem here : Agree Unrelated Parse.here Parse.here :=
  .same .position fun _ => .bind .tokenAt fun _ _ _ => .pure trivial

theorem finishBefore : Agree Unrelated Parse.finishBefore Parse.finishBefore :=
  .same .position fun _ => .bind .tokenAt fun _ _ _ => .pure trivial

theorem spanFrom {start other : Location} :
    Agree Unrelated (Parse.spanFrom start) (Parse.spanFrom other) :=
  .anyhow .finishBefore fun _ _ => .pure trivial

theorem advance : Blind Parse.advance := by
  refine .same .peek fun kind => ?_
  split
  · exact .same .position fun _ => .moveTo
  · exact .pure rfl

theorem at? : Blind (Parse.at? kind) := .same .peek fun _ => .pure rfl

theorem accept : Blind (Parse.accept kind) := by
  refine .same .peek fun found => ?_
  split
  · exact .same .advance fun _ => .pure rfl
  · exact .pure rfl

theorem expect {context : String} : Blind (Parse.expect kind context) := by
  refine .same .peek fun found => ?_
  split
  · exact .advance
  · exact .fail

theorem identifier : Blind Parse.identifier := by
  refine .same .peek fun found => ?_
  split
  · exact .same .advance fun _ => .pure rfl
  · exact .fail

theorem identifier? : Blind Parse.identifier? := by
  refine .same .peek fun found => ?_
  split
  · exact .same .advance fun _ => .pure rfl
  · exact .pure rfl

/-! ## Nodes -/

/-- Nodes that are the same when places are erased are added under the same identity. -/
theorem add {ι Node : Type} {insert : Arenas → Node → ι × Arenas} {erase : Node → Node}
    (erases : ∀ a node, insert a.erased (erase node) =
      ((insert a node).1, (insert a node).2.erased))
    {one other : Node} (same : erase one = erase other) :
    Agree Eq (Parse.add (insert · one)) (Parse.add (insert · other)) := by
  intro first second similar s t alike
  have both : ((insert s.arenas one).1, (insert s.arenas one).2.erased) =
      ((insert t.arenas other).1, (insert t.arenas other).2.erased) := by
    rw [← erases, ← erases, alike.arenas, same]
  obtain ⟨ids, arenas⟩ := Prod.mk.inj both
  exact .ok ids { alike with arenas }

theorem addDecl {one other : Decl} (same : one.erased = other.erased) :
    Agree Eq (Parse.addDecl one) (Parse.addDecl other) :=
  add Arenas.erased_addDecl same

theorem addType {one other : TypeNode} (same : one.erased = other.erased) :
    Agree Eq (Parse.addType one) (Parse.addType other) :=
  add Arenas.erased_addType same

theorem addExpr {form : Expr.Form} {span other : Span} :
    Agree Eq (Parse.addExpr form span) (Parse.addExpr form other) :=
  add Arenas.erased_addExpr rfl

theorem addStmt {one other : Stmt} (same : one.erased = other.erased) :
    Agree Eq (Parse.addStmt one) (Parse.addStmt other) :=
  add Arenas.erased_addStmt same

theorem addInit {one other : Init} (same : one.erased = other.erased) :
    Agree Eq (Parse.addInit one) (Parse.addInit other) :=
  add Arenas.erased_addInit same

theorem addLabel {one other : Label} (same : one.erased = other.erased) :
    Agree Eq (Parse.addLabel one) (Parse.addLabel other) :=
  add Arenas.erased_addLabel same

/-- What is found of a node is the same when places are erased. -/
theorem present {node : NodeRef} {find : Arenas → Option α} {erase : α → α}
    (finds : ∀ a : Arenas, find a.erased = (find a).map erase) :
    Agree (fun one other => erase one = erase other)
      (do Parse.present node (find (← Parse.arenas)))
      (do Parse.present node (find (← Parse.arenas))) := by
  intro first second similar s t alike
  change Matches _ (Parse.present node (find s.arenas) first s)
    (Parse.present node (find t.arenas) second t)
  have both : (find s.arenas).map erase = (find t.arenas).map erase := by
    rw [← finds, ← finds, alike.arenas]
  cases left : find s.arenas with
  | none =>
      rw [left, Option.map_none, eq_comm, Option.map_eq_none_iff] at both
      rw [both]
      exact .error alike
  | some one =>
      rw [left, Option.map_some, eq_comm, Option.map_eq_some_iff] at both
      obtain ⟨other, right, equal⟩ := both
      rw [right]
      exact .ok equal.symm alike

theorem declNode {id : DeclId} :
    Agree (fun one other => one.erased = other.erased) (Parse.declNode id) (Parse.declNode id) :=
  .present (·.erased_decl? id)

theorem typeNode {id : TypeId} :
    Agree (fun one other => one.erased = other.erased) (Parse.typeNode id) (Parse.typeNode id) :=
  .present (·.erased_type? id)

theorem exprNode {id : ExprId} :
    Agree (fun one other => one.erased = other.erased) (Parse.exprNode id) (Parse.exprNode id) :=
  .present (·.erased_expr? id)

theorem declName {id : DeclId} : Blind (Parse.declName id) :=
  .bind .declNode fun one other equal =>
    .pure (congrArg Decl.name equal : one.erased.name = other.erased.name)

theorem declSpan {id : DeclId} : Agree Unrelated (Parse.declSpan id) (Parse.declSpan id) :=
  .bind .declNode fun _ _ _ => .pure trivial

theorem exprSpan {id : ExprId} : Agree Unrelated (Parse.exprSpan id) (Parse.exprSpan id) :=
  .bind .exprNode fun _ _ _ => .pure trivial

theorem modifyArenas {change other : Arenas → Arenas}
    (changes : ∀ a b : Arenas, a.erased = b.erased → (change a).erased = (other b).erased) :
    Agree Eq (Parse.modifyArenas change) (Parse.modifyArenas other) :=
  fun _ _ _ s t alike =>
    .ok rfl { alike with arenas := changes s.arenas t.arenas alike.arenas }

/-- The logs of states that are alike may differ. -/
theorem note {entry other : Entry} : Agree Eq (Parse.note entry) (Parse.note other) :=
  fun _ _ _ _ _ alike => .ok rfl { alike with }

theorem completeType {id : TypeId} {decls : List DeclId} :
    Blind (Parse.completeType id decls) := by
  refine .bind .typeNode fun _ _ _ => .bind .note fun _ _ _ => .modifyArenas fun a b equal => ?_
  rw [Arenas.erased_completeType, Arenas.erased_completeType, equal]

theorem modifyComments {id : DeclId} {change other : Comments → Comments} :
    Agree Eq (Parse.modifyComments id change) (Parse.modifyComments id other) := by
  refine .bind .declNode fun _ _ _ => .modifyArenas fun a b equal => ?_
  rw [Arenas.erased_modifyComments, Arenas.erased_modifyComments, equal]

/-! ## Scopes -/

theorem scopes : Blind Parse.scopes :=
  fun _ _ _ _ _ alike => .ok alike.scopes alike

theorem modifyScopes {change : Scopes → Scopes} : Blind (Parse.modifyScopes change) :=
  fun _ _ _ _ _ alike => .ok rfl { alike with scopes := congrArg change alike.scopes }

theorem bindName {name : String} {nameKind : NameKind} : Blind (Parse.bindName name nameKind) :=
  fun _ _ _ _ _ alike =>
    .ok rfl { alike with scopes := congrArg (·.bindName name nameKind) alike.scopes }

theorem bindTag {tag : String} {type : TypeId} : Blind (Parse.bindTag tag type) := .modifyScopes

theorem isTypedef {name : String} : Blind (Parse.isTypedef name) :=
  .same .scopes fun _ => .pure rfl

theorem inScope {one other : Parse α} (agree : Agree related one other) :
    Agree related (Parse.inScope one) (Parse.inScope other) := by
  intro first second similar s t alike
  have inner : Alike { s with scopes := {} :: s.scopes } { t with scopes := {} :: t.scopes } :=
    { alike with scopes := congrArg ({} :: ·) alike.scopes }
  have outcome := agree first second similar _ _ inner
  unfold Parse.inScope
  generalize one first { s with scopes := {} :: s.scopes } = left at outcome
  generalize other second { t with scopes := {} :: t.scopes } = right at outcome
  cases outcome with
  | ok values states =>
      exact .ok values { states with scopes := congrArg List.tail states.scopes }
  | error states => exact .error { states with scopes := congrArg List.tail states.scopes }

/-! ## Repetition -/

theorem rounds {step other : α → Parse (Option α)}
    (round : ∀ value result, related value result →
      Agree (Option.Rel related) (step value) (other result))
    (bound : Nat) (value result : α) (values : related value result) :
    Agree related (Parse.rounds step bound value) (Parse.rounds other bound result) := by
  induction bound generalizing value result with
  | zero => exact .fail
  | succ bound ih =>
      refine .same .position fun before => .bind (round value result values) fun next last => ?_
      rintro (⟨next⟩ | _)
      · refine .same .position fun place => ?_
        split
        · exact ih _ _ ‹_›
        · exact .fail
      · exact .pure values

theorem iterate {step other : α → Parse (Option α)}
    (round : ∀ value result, related value result →
      Agree (Option.Rel related) (step value) (other result))
    (value result : α) (values : related value result) :
    Agree related (Parse.iterate step value) (Parse.iterate other result) := by
  refine .bind .read fun first second similar => .same .position fun place => ?_
  rw [similar.size]
  exact rounds round _ value result values

theorem many {item other : Parse (Option α)} (each : Agree (Option.Rel related) item other) :
    Agree (List.Forall₂ related) (Parse.many item) (Parse.many other) := by
  have round : ∀ found result : List α, List.Forall₂ related found result →
      Agree (Option.Rel (List.Forall₂ related)) (Option.map (· :: found) <$> item)
        (Option.map (· :: result) <$> other) := by
    refine fun found result values => .map (each.weaken fun next following both => ?_)
    cases both with
    | none => exact .none
    | some same => exact .some (.cons same values)
  refine .map ((iterate round [] [] .nil).weaken fun found result values => ?_)
  exact List.rel_reverse values

/-! What goes on with equal values ends with equal values. -/

theorem iterateSame {step other : α → Parse (Option α)}
    (round : ∀ value, Agree Eq (step value) (other value)) (value : α) :
    Agree Eq (Parse.iterate step value) (Parse.iterate other value) := by
  refine iterate (fun value result equal => ?_) value value rfl
  subst equal
  refine (round value).weaken fun next following same => ?_
  subst same
  cases next with
  | none => exact .none
  | some next => exact .some rfl

theorem manySame {item other : Parse (Option α)} (each : Agree Eq item other) :
    Agree Eq (Parse.many item) (Parse.many other) :=
  .mapSame (iterateSame (fun _ => .mapSame each) [])

theorem separated {item other : Parse α} (each : Agree Eq item other) :
    Agree Eq (Parse.separated item) (Parse.separated other) := by
  refine each.same fun value => .same (manySame (.same .accept fun more => ?_)) fun others => ?_
  · split
    · exact .mapSame each
    · exact .pure rfl
  · exact .pure rfl

theorem listed {close : Punctuator} {item : Parse α} (each : Blind item) :
    Blind (Parse.listed close item) := by
  refine .same (iterateSame (fun collected => .same .at? fun closed => ?_) _) fun _ => .pure rfl
  split
  · exact .pure rfl
  · exact each.same fun next => .same .accept fun more => .pure rfl

theorem mapM {item : α → Parse β} (each : ∀ value, Blind (item value)) (values : List α) :
    Blind (values.mapM item) := by
  induction values with
  | nil => exact .pure rfl
  | cons value values ih =>
      rw [List.mapM_cons]
      exact (each value).same fun first => ih.same fun others => .pure rfl

theorem forM {item : α → Parse PUnit} (each : ∀ value, Blind (item value))
    (values : List α) : Blind (values.forM item) := by
  induction values with
  | nil => exact .pure rfl
  | cons value values ih => exact (each value).same fun _ => ih

end Agree

end SyntaxGraph.Grammar
