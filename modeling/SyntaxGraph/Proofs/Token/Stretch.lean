import SyntaxGraph.Grammar.Parse

/-!
# Stretches of tokens

`ahead` are the kinds of the tokens from a position on, and `between` those from one
position up to another.  A stretch is balanced if every parenthesis that it closes is one
that it has opened and it leaves none open; the end of the file is in no balanced stretch.
-/

set_option autoImplicit false

namespace SyntaxGraph

namespace Grammar.Tokens

open Token (Kind)

variable {tokens : Tokens} {start position stop : Nat} {run rest : List Kind}

def kinds (tokens : Tokens) : List Kind := tokens.toList.map Token.kind

def ahead (tokens : Tokens) (position : Nat) : List Kind := tokens.kinds.drop position

def between (tokens : Tokens) (start stop : Nat) : List Kind :=
  (tokens.ahead start).take (stop - start)

theorem kinds_length (tokens : Tokens) : tokens.kinds.length = tokens.size := by
  simp [kinds]

theorem kind_of_kinds (tokens : Tokens) (position : Nat) :
    tokens.kind position = (tokens.kinds[position]?).getD .eof := by
  simp [kind, kinds]

theorem inside_of_kind (inner : tokens.kind position ≠ .eof) : position < tokens.size := by
  rcases Nat.lt_or_ge position tokens.size with inside | outside
  · exact inside
  · rw [kind, Array.getElem?_eq_none outside] at inner
    exact absurd rfl inner

theorem ahead_cons (inside : position < tokens.size) :
    tokens.ahead position = tokens.kind position :: tokens.ahead (position + 1) := by
  have within : position < tokens.kinds.length := by rwa [kinds_length]
  rw [ahead, List.drop_eq_getElem_cons within, kind_of_kinds, List.getElem?_eq_getElem within]
  rfl

theorem of_ahead_cons {first : Kind} (equal : tokens.ahead position = first :: rest) :
    position < tokens.size ∧ tokens.kind position = first ∧ tokens.ahead (position + 1) = rest := by
  have inside : position < tokens.size := by
    rcases Nat.lt_or_ge position tokens.size with inside | outside
    · exact inside
    · have empty : tokens.ahead position = [] :=
        List.drop_eq_nil_of_le (by rwa [kinds_length])
      rw [empty] at equal
      cases equal
  rw [ahead_cons inside] at equal
  obtain ⟨same, behind⟩ := List.cons.inj equal
  exact ⟨inside, same, behind⟩

theorem of_ahead_append (equal : tokens.ahead position = run ++ rest) :
    tokens.between position (position + run.length) = run ∧
      tokens.ahead (position + run.length) = rest := by
  constructor
  · rw [between, equal, Nat.add_sub_cancel_left, List.take_left]
  · rw [ahead, ← List.drop_drop]
    rw [ahead] at equal
    rw [equal, List.drop_left]

theorem between_self (tokens : Tokens) (position : Nat) :
    tokens.between position position = [] := by
  rw [between, Nat.sub_self, List.take_zero]

theorem between_length (le : start ≤ stop) (inside : stop ≤ tokens.size) :
    (tokens.between start stop).length = stop - start := by
  rw [between, List.length_take, ahead, List.length_drop, kinds_length]
  omega

theorem between_append (first : start ≤ position) (second : position ≤ stop) :
    tokens.between start position ++ tokens.between position stop =
      tokens.between start stop := by
  have length : stop - start = (position - start) + (stop - position) := by omega
  have place : start + (position - start) = position := by omega
  rw [between, between, between, length, List.take_add, ahead, ahead, List.drop_drop, place]

theorem between_succ (inside : position < tokens.size) :
    tokens.between position (position + 1) = [tokens.kind position] := by
  rw [between, ahead_cons inside, Nat.add_sub_cancel_left, List.take_succ_cons, List.take_zero]

theorem ahead_eq_between (le : start ≤ stop) :
    tokens.ahead start = tokens.between start stop ++ tokens.ahead stop := by
  have behind : (tokens.ahead start).drop (stop - start) = tokens.ahead stop := by
    rw [ahead, ahead, List.drop_drop, Nat.add_sub_cancel' le]
  rw [between, ← behind, List.take_append_drop]

end Grammar.Tokens

namespace Token

/-- How many parentheses are open behind a token, of `depth` that are open in front of it;
none for a parenthesis that closes none of them. -/
def Kind.nest (depth : Nat) : Kind → Option Nat
  | .punctuator .parenOpen => some (depth + 1)
  | .punctuator .parenClose => if depth = 0 then none else some (depth - 1)
  | .eof => none
  | _ => some depth

/-- How many parentheses are open behind a stretch of tokens. -/
def nesting (depth : Nat) (kinds : List Kind) : Option Nat := kinds.foldlM Kind.nest depth

def Balanced (kinds : List Kind) : Prop := nesting 0 kinds = some 0

instance (kinds : List Kind) : Decidable (Balanced kinds) :=
  inferInstanceAs (Decidable (nesting 0 kinds = some 0))

theorem nesting_cons (depth : Nat) (kind : Kind) (kinds : List Kind) :
    nesting depth (kind :: kinds) = (kind.nest depth).bind (nesting · kinds) := rfl

theorem nesting_append (depth : Nat) (first second : List Kind) :
    nesting depth (first ++ second) = (nesting depth first).bind (nesting · second) := by
  rw [nesting, List.foldlM_append]
  rfl

/-- Parentheses that are open further out make no difference. -/
theorem Kind.nest_add {kind : Kind} {depth behind : Nat} (nests : kind.nest depth = some behind)
    (outer : Nat) : kind.nest (outer + depth) = some (outer + behind) := by
  unfold nest at nests ⊢
  split at nests
  · cases nests
    rfl
  · by_cases closed : depth = 0
    · rw [if_pos closed] at nests
      cases nests
    · rw [if_neg closed] at nests
      cases nests
      rw [if_neg (by omega), Nat.add_sub_assoc (by omega)]
  · cases nests
  · cases nests
    rfl

theorem nesting_add {kinds : List Kind} {depth behind : Nat}
    (nests : nesting depth kinds = some behind) (outer : Nat) :
    nesting (outer + depth) kinds = some (outer + behind) := by
  induction kinds generalizing depth with
  | nil =>
      cases nests
      rfl
  | cons kind kinds ih =>
      rw [nesting_cons] at nests ⊢
      obtain ⟨middle, first, rest⟩ := Option.bind_eq_some_iff.mp nests
      rw [Kind.nest_add first outer, Option.bind_some]
      exact ih rest

theorem Balanced.nesting {kinds : List Kind} (balanced : Balanced kinds) (depth : Nat) :
    Token.nesting depth kinds = some depth := nesting_add balanced depth

theorem Balanced.append {first second : List Kind} (one : Balanced first)
    (other : Balanced second) : Balanced (first ++ second) := by
  rw [Balanced, nesting_append, one, Option.bind_some]
  exact other

theorem Balanced.parenthesized {kinds : List Kind} (balanced : Balanced kinds) :
    Balanced (.punctuator .parenOpen :: (kinds ++ [.punctuator .parenClose])) := by
  have inner : Token.nesting 1 kinds = some 1 := balanced.nesting 1
  have whole : Token.nesting 1 (kinds ++ [.punctuator .parenClose]) = some 0 := by
    rw [nesting_append, inner]
    rfl
  exact whole

end Token

end SyntaxGraph
