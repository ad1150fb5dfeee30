import SyntaxGraph.Proofs.Grammar.Repetition

/-!
# What the recursive rules keep up

Each rule of a record consumes a token, except for a declarator, which may be empty, and
gives a value whose references are owned.  A record is sound from a limit on if this
holds wherever reading has got at least that far.
-/

set_option autoImplicit false

namespace SyntaxGraph.Grammar

instance : Refers Specifiers := ⟨fun specifiers => [.type specifiers.type]⟩

instance : Refers Declarator := ⟨fun declarator => [.type declarator.type]⟩

@[simp, grind =] theorem references_specifiers (specifiers : Specifiers) :
    references specifiers = [.type specifiers.type] := rfl

@[simp, grind =] theorem references_declarator (declarator : Declarator) :
    references declarator = [.type declarator.type] := rfl

/-- A declarator over an owned type has a name unless it may do without. -/
abbrev Declares (tokens : Tokens) (position : Nat) (nodes : List NodeRef) (abstractOk : Bool)
    (reading : Parse Declarator) : Prop :=
  Reads tokens (Known position nodes) reading fun declarator s =>
    (abstractOk = false → declarator.name.isSome = true) ∧
      Known position (references declarator ++ nodes) s

structure Rules.SoundFrom (rules : Rules) (tokens : Tokens) (limit : Nat) : Prop where
  follow : rules.AllFollow Course
  expression {position nodes} (le : limit ≤ position) :
    Yields tokens position nodes rules.expression 1
  assignment {position nodes} (le : limit ≤ position) :
    Yields tokens position nodes rules.assignment 1
  conditional {position nodes} (le : limit ≤ position) :
    Yields tokens position nodes rules.conditional 1
  cast {position nodes} (le : limit ≤ position) : Yields tokens position nodes rules.cast 1
  unary {position nodes} (le : limit ≤ position) : Yields tokens position nodes rules.unary 1
  typeName {position nodes} (le : limit ≤ position) :
    Yields tokens position nodes rules.typeName 1
  specifiers {position nodes} (le : limit ≤ position) :
    Yields tokens position nodes rules.specifiers 1
  declarator {position nodes type abstractOk} (le : limit ≤ position)
      (member : .type type ∈ nodes) :
    Declares tokens position nodes abstractOk (rules.declarator type abstractOk)
  initializers {position nodes} (le : limit ≤ position) :
    Yields tokens position nodes rules.initializers 1
  statement {position nodes} (le : limit ≤ position) :
    Yields tokens position nodes rules.statement 1

/-- No state stands behind the last token, so the limit cannot be reached there. -/
theorem Reads.beyond {α : Type} {tokens : Tokens} {position : Nat} {nodes : List NodeRef}
    {reading : Parse α} {after : α → State → Prop} (beyond : tokens.size ≤ position) :
    Reads tokens (Known position nodes) reading after := by
  intro s sound known
  have inside := sound.inside
  have reached := known.position_le
  omega

theorem Rules.soundFrom_beyond {rules : Rules} (follow : rules.AllFollow Course) {tokens : Tokens}
    {limit : Nat} (beyond : tokens.size ≤ limit) : rules.SoundFrom tokens limit where
  follow := follow
  expression le := .beyond (Nat.le_trans beyond le)
  assignment le := .beyond (Nat.le_trans beyond le)
  conditional le := .beyond (Nat.le_trans beyond le)
  cast le := .beyond (Nat.le_trans beyond le)
  unary le := .beyond (Nat.le_trans beyond le)
  typeName le := .beyond (Nat.le_trans beyond le)
  specifiers le := .beyond (Nat.le_trans beyond le)
  declarator le _ := .beyond (Nat.le_trans beyond le)
  initializers le := .beyond (Nat.le_trans beyond le)
  statement le := .beyond (Nat.le_trans beyond le)

end SyntaxGraph.Grammar
