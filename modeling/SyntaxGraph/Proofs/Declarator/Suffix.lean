import SyntaxGraph.Proofs.Declarator.Parameter
import SyntaxGraph.Proofs.Expression.Complete

/-!
# Arrays and functions are read back from their tokens

What stands behind the inside of a declarator is a list of brackets, each of which makes an
array or a function.  They are read in order, and then made into types from the last one to
the first.
-/

set_option autoImplicit false

namespace SyntaxGraph.Grammar

open Token (Kind Punctuator Balanced)
open Chain (listed commaSeparated lengthKinds)

variable {tokens : Tokens} {rules : Rules} {s : State} {kind : Kind} {rest : List Kind}
  {depth : Nat}

/-! ## Brackets -/

/-- What a declarator puts behind its inside. -/
inductive Bracket
  | array (length : Option String)
  | function (parameters : List (Parameter Chain)) (variadic : Bool)

namespace Bracket

def kinds : Bracket → List Kind
  | .array length => lengthKinds length
  | .function parameters variadic =>
    Chain.parenthesized (commaSeparated (listed parameters variadic))

/-- The chain of which the bracket is the first constructor. -/
def onto : Bracket → Chain → Chain
  | .array length, element => .array length element
  | .function parameters variadic, result => .function parameters variadic result

/-- What has been read is the bracket. -/
def Is (a : Arenas) : Bracket → Suffix → Prop
  | .array length, .array measure _ => a.Measures measure length
  | .function parameters variadic, .function decls ellipsis _ =>
    a.Declares decls parameters ∧ ellipsis = variadic
  | _, _ => False

variable {bracket : Bracket} {suffix : Suffix} {a b : Arenas}

theorem Is.mono (is : bracket.Is a suffix) (grows : a.Extends b) : bracket.Is b suffix := by
  cases bracket <;> cases suffix
  · exact Arenas.Measures.mono is grows
  · exact is.elim
  · exact is.elim
  · exact ⟨is.1.mono grows, is.2⟩

/-- A type node for a bracket puts it in front of the chain of the base. -/
theorem Is.derives {id next base : TypeId} {target : Chain} (is : bracket.Is a suffix)
    (node : a.type? id = some (suffix.over next)) (rest : a.Derives next base target) :
    a.Derives id base (bracket.onto target) := by
  cases bracket <;> cases suffix
  · exact .array node is rest
  · exact is.elim
  · exact is.elim
  · obtain ⟨declares, rfl⟩ := is
    exact .function node declares rest

end Bracket

/-- A bracket is read from its tokens, and they are no nested declarator. -/
structure Bracket.IsRead (tokens : Tokens) (bracket : Bracket) : Prop where
  balanced : Balanced bracket.kinds
  apart (s : State) (kind : Kind) (rest : List Kind)
    (ahead : tokens.ahead s.position = bracket.kinds ++ kind :: rest) :
    atNestedDeclarator tokens s = .ok false s
  reads (depth : Nat) (s : State) (kind : Kind) (rest : List Kind)
    (fits : bracket.kinds.length ≤ depth)
    (ahead : tokens.ahead s.position = bracket.kinds ++ kind :: rest) :
    Parses tokens s (suffix? (Rules.nested depth)) (kind :: rest) fun found s' =>
      ∃ suffix, found = some suffix ∧ bracket.Is s'.arenas suffix

theorem arrayLength?_parse {length : Option String}
    (fits : (length.toList.map Kind.number).length ≤ depth)
    (ahead : tokens.ahead s.position =
      length.toList.map Kind.number ++ .punctuator .bracketClose :: kind :: rest) :
    Parses tokens s (arrayLength? (Rules.nested (depth + 1)))
      (.punctuator .bracketClose :: kind :: rest) fun measure s' =>
        s'.arenas.Measures measure length := by
  cases length with
  | none => exact .of_run (at?_run ahead _) (.pure ahead rfl)
  | some text =>
      have ahead : tokens.ahead s.position =
        .number text :: .punctuator .bracketClose :: kind :: rest := ahead
      have facing : Facing tokens depth s (.number text) (.punctuator .bracketClose)
          (kind :: rest) := ⟨fits, by simp [Expr.Tree.names], ahead⟩
      refine .of_run (at?_run ahead _) (.map ?_)
      refine ((number_isRead text).reads 1 (by simp [Expr.Tree.level]) depth s _ _ facing
        (stops_mark rfl)).weaken fun id s' _ stands => ?_
      cases stands with
      | number node => exact congrArg some node

theorem array_isRead (length : Option String) : (Bracket.array length).IsRead tokens where
  balanced := Chain.lengthKinds_balanced length
  apart s kind rest ahead := by
    have ahead : tokens.ahead s.position = .punctuator .bracketOpen :: _ := ahead
    rw [atNestedDeclarator, bind_of_ok (at?_run ahead _)]
    rfl
  reads depth s kind rest fits ahead := by
    change (_ :: (_ ++ _)).length ≤ depth at fits
    rw [List.length_cons, List.length_append] at fits
    obtain ⟨less, rfl⟩ : ∃ less, depth = less + 1 := ⟨depth - 1, by omega⟩
    have ahead : tokens.ahead s.position = .punctuator .bracketOpen ::
        (length.toList.map Kind.number ++ [.punctuator .bracketClose] ++ kind :: rest) := ahead
    rw [List.append_assoc] at ahead
    have begins : ∃ first more, length.toList.map Kind.number ++
        .punctuator .bracketClose :: kind :: rest = first :: more ∧
          ∀ word, first ≠ .keyword word := by
      cases length <;> exact ⟨_, _, rfl, by simp⟩
    obtain ⟨first, more, written, other⟩ := begins
    refine .here (inside_of_ahead ahead) fun start => .accept ahead (by simp) (by simp) ?_
    intro moved
    have moved : tokens.ahead (s.position + 1) = first :: more := moved.trans written
    refine .map (.bind (@qualifiers_parse tokens _ _ _ .none moved other)
      fun q middle reached _ => .decline reached.ahead (other _) ?_)
    refine .bind (arrayLength?_parse (by omega) (reached.ahead.trans written.symm))
      fun measure last further measures => ?_
    refine .expect further.ahead (by simp) (by simp) fun moved => ?_
    exact .span (inside_of_ahead moved) fun span => .pure moved ⟨_, rfl, measures⟩

theorem function_isRead {parameters : List (Parameter Chain)} {variadic : Bool}
    (spelled : Chain.spellsOut parameters variadic)
    (each : ∀ parameter ∈ parameters, IsParameter tokens parameter) :
    (Bracket.function parameters variadic).IsRead tokens where
  balanced :=
    (Chain.commaSeparated_balanced (Chain.listed_balanced parameters variadic)).parenthesized
  apart s kind rest ahead := by
    have ahead : tokens.ahead s.position = .punctuator .parenOpen ::
      (commaSeparated (listed parameters variadic) ++ [.punctuator .parenClose] ++
        kind :: rest) := ahead
    rw [atNestedDeclarator, bind_of_ok (at?_run ahead _)]
    by_cases none : listed parameters variadic = []
    · rw [none] at ahead
      have ahead : tokens.ahead s.position =
        .punctuator .parenOpen :: .punctuator .parenClose :: kind :: rest := ahead
      rw [if_pos (by simp), bind_of_ok (peekNext_run ahead)]
      rfl
    · obtain ⟨first, more, begins, other⟩ := listed_begins each none
      rw [begins] at ahead
      rw [if_pos (by simp), bind_of_ok (peekNext_run ahead)]
      rcases other with rfl | ⟨word, rfl⟩ <;> rfl
  reads depth s kind rest fits ahead := by
    change (_ :: (_ ++ _)).length ≤ depth at fits
    rw [List.length_cons, List.length_append] at fits
    obtain ⟨less, rfl⟩ : ∃ less, depth = less + 1 := ⟨depth - 1, by omega⟩
    have ahead : tokens.ahead s.position = .punctuator .parenOpen ::
      (commaSeparated (listed parameters variadic) ++ [.punctuator .parenClose] ++
        kind :: rest) := ahead
    rw [List.append_assoc] at ahead
    refine .here (inside_of_ahead ahead) fun start => .decline ahead (by simp) ?_
    refine .accept ahead (by simp) (by simp) fun moved => .map ?_
    refine .bind (parameters_parse spelled each (by omega) moved) fun found middle reached => ?_
    rintro ⟨declares, same⟩
    exact .span (inside_of_ahead reached.ahead) fun span => .pure reached.ahead
      ⟨_, rfl, declares, same⟩

/-! ## Suffixes -/

theorem suffix?_none {mark : Punctuator} (ends : mark ∈ declaratorEnds)
    (ahead : tokens.ahead s.position = .punctuator mark :: rest) :
    Parses tokens s (suffix? rules) (.punctuator mark :: rest) fun found _ => found = none := by
  refine .here (inside_of_ahead ahead) fun start => ?_
  refine .decline ahead ?_ (.decline ahead ?_ (.pure ahead rfl))
  all_goals
    rintro ⟨⟩
    exact absurd ends (by decide)

theorem manySuffixes_parse {brackets : List Bracket} {mark : Punctuator}
    (each : ∀ bracket ∈ brackets, bracket.IsRead tokens) (ends : mark ∈ declaratorEnds)
    (fits : (brackets.flatMap Bracket.kinds).length ≤ depth)
    (ahead : tokens.ahead s.position =
      brackets.flatMap Bracket.kinds ++ .punctuator mark :: rest) :
    Parses tokens s (Parse.many (suffix? (Rules.nested depth))) (.punctuator mark :: rest)
      fun found s' => List.Forall₂ (Bracket.Is s'.arenas) brackets found := by
  induction brackets generalizing s with
  | nil =>
      exact .manyStop ((suffix?_none ends ahead).weaken fun found s' _ none => ⟨none, .nil⟩)
  | cons bracket brackets ih =>
      have read := each bracket (List.mem_cons_self ..)
      rw [List.flatMap_cons, List.length_append] at fits
      rw [List.flatMap_cons, List.append_assoc] at ahead
      obtain ⟨next, behind, follows⟩ := List.exists_cons_of_ne_nil
        (List.append_ne_nil_of_right_ne_nil (brackets.flatMap Bracket.kinds)
          (List.cons_ne_nil (Kind.punctuator mark) rest))
      have one := read.reads depth s next behind (by omega) (follows ▸ ahead)
      refine .manyNext ahead ?_ one fun suffix middle reached is => ?_
      · rw [follows]
        cases bracket <;> simp [Bracket.kinds, lengthKinds, Chain.parenthesized] <;> omega
      · refine (ih (fun other member => each other (List.mem_cons_of_mem _ member)) (by omega)
          (reached.ahead.trans follows.symm)).weaken fun others s' further all => ?_
        exact .cons (is.mono further.grows) all

/-- The last of the suffixes is applied first. -/
theorem foldSuffixes_parse {brackets : List Bracket} {found : List Suffix} {type : TypeId}
    (all : List.Forall₂ (Bracket.Is s.arenas) brackets found)
    (ahead : tokens.ahead s.position = rest) :
    Parses tokens s (found.foldrM (fun suffix type => Parse.addType (suffix.over type)) type) rest
      fun outer s' => ∀ base target, s.arenas.Derives type base target →
        s'.arenas.Derives outer base (brackets.foldr Bracket.onto target) := by
  induction all with
  | nil => exact .pure ahead fun base target rest => rest
  | cons is all ih =>
      rw [List.foldrM_cons]
      refine .bind ih fun next middle reached derives => .addType reached.ahead ?_
      intro id s' added node base target rest
      have grows := reached.grows.trans added.grows
      exact (is.mono grows).derives node ((derives base target rest).mono added.grows)

theorem suffixes_parse {brackets : List Bracket} {type : TypeId} {mark : Punctuator}
    (each : ∀ bracket ∈ brackets, bracket.IsRead tokens) (ends : mark ∈ declaratorEnds)
    (fits : (brackets.flatMap Bracket.kinds).length ≤ depth)
    (ahead : tokens.ahead s.position =
      brackets.flatMap Bracket.kinds ++ .punctuator mark :: rest) :
    Parses tokens s (suffixes (Rules.nested depth) type) (.punctuator mark :: rest)
      fun outer s' => ∀ base target, s.arenas.Derives type base target →
        s'.arenas.Derives outer base (brackets.foldr Bracket.onto target) := by
  refine .bind (manySuffixes_parse each ends fits ahead) fun found middle reached all => ?_
  refine (foldSuffixes_parse all reached.ahead).weaken fun outer s' _ derives => ?_
  exact fun base target rest => derives base target (rest.mono reached.grows)

end SyntaxGraph.Grammar
