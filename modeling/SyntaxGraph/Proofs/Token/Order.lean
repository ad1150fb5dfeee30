import Mathlib.Order.Lattice
import SyntaxGraph.Grammar.Parse
import SyntaxGraph.Proofs.Token.Ending

/-!
# The order of tokens and comments

Places are ordered linearly, and reading moves on in this order: whatever a text gives
starts at the place of the text or behind it.  So a token ends behind its start, and no
later than the next one starts, and a comment starts behind those before it.
-/

set_option autoImplicit false

namespace SyntaxGraph

namespace Location

theorem le_iff {a b : Location} :
    a ≤ b ↔ a.line < b.line ∨ a.line = b.line ∧ a.column ≤ b.column := Iff.rfl

theorem lt_iff {a b : Location} :
    a < b ↔ a.line < b.line ∨ a.line = b.line ∧ a.column < b.column := Iff.rfl

instance : LinearOrder Location where
  le_refl a := .inr ⟨rfl, Nat.le_refl _⟩
  le_trans a b c first second := by
    rw [le_iff] at first second ⊢
    omega
  le_antisymm a b first second := by
    obtain ⟨line, column⟩ := a
    obtain ⟨line', column'⟩ := b
    rw [le_iff] at first second
    simp only [mk.injEq]
    dsimp only at first second
    omega
  le_total a b := by
    rw [le_iff, le_iff]
    omega
  lt_iff_le_not_ge a b := by
    rw [le_iff, le_iff, lt_iff]
    omega
  toDecidableLE := inferInstance
  min_def _ _ := rfl
  max_def _ _ := rfl

theorem lt_after (place : Location) (c : Char) : place < place.after c := by
  unfold after
  split
  · exact .inl (Nat.lt_succ_self _)
  · exact .inr ⟨rfl, Nat.lt_succ_self _⟩

theorem le_past (place : Location) (text : List Char) : place ≤ place.past text := by
  induction text generalizing place with
  | nil => exact le_refl place
  | cons c text ih => exact (lt_after place c).le.trans (ih (place.after c))

theorem lt_past_cons (place : Location) (c : Char) (text : List Char) :
    place < place.past (c :: text) :=
  (lt_after place c).trans_le (le_past (place.after c) text)

end Location

namespace Token

variable {reading : Reading} {place : Location}

/-- From `place` on, the tokens and the comments follow each other. -/
structure Reading.InOrder (reading : Reading) (place : Location) : Prop where
  behind : ∀ token ∈ reading.tokens, place ≤ token.start
  some : ∀ token ∈ reading.tokens, token.kind ≠ .eof → token.start < token.finish
  apart : reading.tokens.Pairwise (·.finish ≤ ·.start)
  commentsBehind : ∀ comment ∈ reading.comments, place ≤ comment.start
  commentsApart : reading.comments.Pairwise (·.start < ·.start)

theorem Reading.InOrder.prepend {next : Location} (order : reading.InOrder next)
    (further : place < next) (category : Category) (text : List Char) :
    (reading.prepend category text place next).InOrder place := by
  have earlier : reading.InOrder place :=
    { order with
      behind := fun token member => further.le.trans (order.behind token member)
      commentsBehind := fun comment member =>
        further.le.trans (order.commentsBehind comment member) }
  unfold Reading.prepend
  dsimp only
  split
  · exact
      { earlier with
        behind := List.forall_mem_cons.mpr ⟨le_refl place, earlier.behind⟩
        some := List.forall_mem_cons.mpr ⟨fun _ => further, order.some⟩
        apart := List.pairwise_cons.mpr ⟨order.behind, order.apart⟩ }
  · split
    · exact
        { earlier with
          commentsBehind := List.forall_mem_cons.mpr ⟨le_refl place, earlier.commentsBehind⟩
          commentsApart := List.pairwise_cons.mpr
            ⟨fun comment member => further.trans_le (order.commentsBehind comment member),
              order.commentsApart⟩ }
    · exact earlier

theorem Reading.mem_prepend {category : Category} {text : List Char} {next : Location}
    {token : Token} (member : token ∈ (reading.prepend category text place next).tokens) :
    token ∈ reading.tokens ∨ token.finish = next := by
  unfold prepend at member
  dsimp only at member
  split at member
  · rcases List.mem_cons.mp member with rfl | later
    · exact .inr rfl
    · exact .inl later
  · split at member <;> exact .inl member

theorem Reading.ofChars_inOrder (place : Location) (fresh : Bool) (text : List Char) :
    (ofChars place fresh text).InOrder place := by
  fun_induction ofChars place fresh text with
  | case1 place fresh =>
      exact ⟨by simp [finished], by simp [finished], by simp [finished], by simp [finished], .nil⟩
  | case2 place fresh first rest error scanned =>
      exact ⟨by simp [failed], by simp [failed], .nil, by simp [failed], .nil⟩
  | case3 place fresh first rest lexeme scanned covered next ih =>
      exact ih.prepend (place.lt_past_cons first _) _ _

/-- All tokens end within the text. -/
theorem Reading.ofChars_finish_le (place : Location) (fresh : Bool) (text : List Char) :
    ∀ token ∈ (ofChars place fresh text).tokens, token.finish ≤ place.past text := by
  fun_induction ofChars place fresh text with
  | case1 place fresh => simp [finished, Location.past]
  | case2 place fresh first rest error scanned => simp [failed]
  | case3 place fresh first rest lexeme scanned covered next ih =>
      have split : place.past (first :: rest) = next.past (rest.drop lexeme.more) := by
        rw [← Location.past_append, List.cons_append, List.take_append_drop]
      intro token member
      rw [split]
      rcases mem_prepend member with later | ends
      · exact ih token later
      · rw [ends]
        exact next.le_past _

end Token

/-! ## Positions -/

namespace Grammar

namespace Tokens

def finish (tokens : Tokens) (position : Nat) : Location :=
  (tokens[position]?.map Token.finish).getD .origin

/-- Every token but the last one ends behind its start, and no later than the next one
starts. -/
structure Ordered (tokens : Tokens) : Prop where
  some : ∀ position, position + 1 < tokens.size → tokens.start position < tokens.finish position
  next : ∀ position, position + 1 < tokens.size →
    tokens.finish position ≤ tokens.start (position + 1)

variable {tokens : Tokens} {i j : Nat}

theorem Ordered.start_mono (ordered : tokens.Ordered) (le : i ≤ j) (inside : j < tokens.size) :
    tokens.start i ≤ tokens.start j := by
  induction j, le using Nat.le_induction with
  | base => exact le_refl _
  | succ j le ih =>
      exact (ih (by omega)).trans ((ordered.some j inside).le.trans (ordered.next j inside))

theorem Ordered.finish_le_start (ordered : tokens.Ordered) (lt : i < j)
    (inside : j < tokens.size) : tokens.finish i ≤ tokens.start j :=
  (ordered.next i (by omega)).trans (ordered.start_mono lt inside)

theorem Ordered.finish_mono (ordered : tokens.Ordered) (le : i ≤ j)
    (inside : j + 1 < tokens.size) : tokens.finish i ≤ tokens.finish j := by
  rcases Nat.eq_or_lt_of_le le with rfl | lt
  · exact le_refl _
  · exact (ordered.finish_le_start lt (by omega)).trans (ordered.some j inside).le

theorem Ordered.start_lt_finish (ordered : tokens.Ordered) (le : i ≤ j)
    (inside : j + 1 < tokens.size) : tokens.start i < tokens.finish j :=
  (ordered.start_mono le (by omega)).trans_lt (ordered.some j inside)

end Tokens

end Grammar

theorem Token.Reading.ofSource_ordered {source : String}
    (whole : (ofSource source).failure = none) :
    Grammar.Tokens.Ordered (ofSource source).tokens.toArray := by
  have order : (ofSource source).InOrder .origin := ofChars_inOrder _ _ _
  obtain ⟨front, inner, place, split⟩ := ofSource_ended whole
  have length : (ofSource source).tokens.length = front.length + 1 := by simp [split]
  have start {position : Nat} (inside : position < (ofSource source).tokens.length) :
      Grammar.Tokens.start (ofSource source).tokens.toArray position =
        ((ofSource source).tokens[position]).start := by
    simp [Grammar.Tokens.start, inside]
  have finish {position : Nat} (inside : position < (ofSource source).tokens.length) :
      Grammar.Tokens.finish (ofSource source).tokens.toArray position =
        ((ofSource source).tokens[position]).finish := by
    simp [Grammar.Tokens.finish, inside]
  refine ⟨fun position inside => ?_, fun position inside => ?_⟩
  all_goals
    rw [List.size_toArray] at inside
    have before : position < (ofSource source).tokens.length := by omega
  · rw [start before, finish before]
    refine order.some _ (List.getElem_mem before) ?_
    have early : position < front.length := by omega
    have same : (ofSource source).tokens[position] = front[position] := by
      simp only [split]
      exact List.getElem_append_left early
    rw [same]
    exact inner _ (List.getElem_mem early)
  · rw [finish before, start inside]
    exact List.pairwise_iff_getElem.mp order.apart position (position + 1) before inside
      (Nat.lt_succ_self position)

end SyntaxGraph
