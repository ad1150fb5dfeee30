import SyntaxGraph.Proofs.Declarator.Suffix
import SyntaxGraph.Proofs.Nesting.Declarator

/-!
# A chain is read back from its declarator

The declarator of a chain is written around the name, one constructor after the other, and
what has been written at any time is itself a declarator.  `Inside` says of it that reading
takes it, with any brackets behind it that could still be written there, and puts the
constructors that it stands for in front of the chain of the base.  Each constructor of the
chain keeps that up.
-/

set_option autoImplicit false

namespace SyntaxGraph.Grammar

open Token (Kind Punctuator Balanced)
open Chain (nameKinds grouped)

variable {tokens : Tokens} {s : State} {kind : Kind} {rest text : List Kind} {depth : Nat}
  {name : Option String} {made : Chain → Chain} {isPointer : Bool} {brackets : List Bracket}

/-- The declarator has the name, and `made` is what it puts in front of any chain that leads on
from the type it is built over. -/
def Puts (name : Option String) (made : Chain → Chain) (type : TypeId) (before : Arenas)
    (found : Declarator) (s' : State) : Prop :=
  found.name = name ∧ ∀ base target, before.Derives type base target →
    s'.arenas.Derives found.type base (made target)

theorem Puts.mono {type : TypeId} {before after : Arenas} {found : Declarator} {s' : State}
    (puts : Puts name made type after found s') (grows : before.Extends after) :
    Puts name made type before found s' :=
  ⟨puts.1, fun base target rest => puts.2 base target (rest.mono grows)⟩

/-- Reading takes the tokens as a declarator that puts more in front of the chain of the base. -/
def Takes (tokens : Tokens) (name : Option String) (text : List Kind) (made : Chain → Chain) :
    Prop :=
  ∀ depth s type abstractOk mark rest,
    Declaring tokens depth s name abstractOk text mark rest →
    Parses tokens s (declarator (Rules.nested depth) type abstractOk) (.punctuator mark :: rest)
      (Puts name made type s.arenas)

/-- What is written of a declarator.  Brackets go behind it as it is unless it is a pointer. -/
structure Inside (tokens : Tokens) (name : Option String) (text : List Kind)
    (made : Chain → Chain) (isPointer : Bool) : Prop where
  balanced : Balanced text
  opens : Chain.Opens text
  star : isPointer = true → ∃ more, text = .punctuator .star :: more
  takes (brackets : List Bracket) (each : ∀ bracket ∈ brackets, bracket.IsRead tokens)
    (none : isPointer = true → brackets = []) :
    Takes tokens name (text ++ brackets.flatMap Bracket.kinds)
      fun target => made (brackets.foldr Bracket.onto target)

theorem Inside.alone (inside : Inside tokens name text made isPointer) :
    Takes tokens name text made := by
  have takes := inside.takes [] (by simp) fun _ => rfl
  rwa [List.flatMap_nil, List.append_nil] at takes

/-! ## A name -/

theorem identifier?_parse {mark : Punctuator}
    (ahead : tokens.ahead s.position = nameKinds name ++ .punctuator mark :: rest) :
    Parses tokens s Parse.identifier? (.punctuator mark :: rest) fun found _ => found = name := by
  cases name with
  | none => exact .peek ahead (.pure ahead rfl)
  | some text =>
      have ahead : tokens.ahead s.position = .identifier text :: .punctuator mark :: rest := ahead
      exact .peek ahead (.advance ahead (by simp) (by simp) fun moved => .pure moved rfl)

/-- No pointer is read where there is no star. -/
theorem pointers_parse {type : TypeId} (ahead : tokens.ahead s.position = kind :: rest)
    (other : kind ≠ .punctuator .star) :
    Parses tokens s (pointers type) (kind :: rest) fun found _ => found = type :=
  .stop (.here (inside_of_ahead ahead) fun _ => .decline ahead other (.pure ahead ⟨rfl, rfl⟩))

theorem brackets_begin {mark : Punctuator} (ends : mark ∈ declaratorEnds)
    (brackets : List Bracket) (rest : List Kind) :
    ∃ first more, brackets.flatMap Bracket.kinds ++ .punctuator mark :: rest =
      .punctuator first :: more ∧ first ≠ .star := by
  cases brackets with
  | nil =>
      refine ⟨mark, rest, rfl, ?_⟩
      rintro rfl
      exact absurd ends (by decide)
  | cons bracket brackets => cases bracket <;> exact ⟨_, _, rfl, by simp⟩

theorem atNestedDeclarator_name {mark : Punctuator} (ends : mark ∈ declaratorEnds)
    (each : ∀ bracket ∈ brackets, bracket.IsRead tokens)
    (ahead : tokens.ahead s.position = nameKinds name ++
      (brackets.flatMap Bracket.kinds ++ .punctuator mark :: rest)) :
    atNestedDeclarator tokens s = .ok false s := by
  cases name with
  | some text =>
      have ahead : tokens.ahead s.position = .identifier text :: _ := ahead
      rw [atNestedDeclarator, bind_of_ok (at?_run ahead _)]
      rfl
  | none =>
      cases brackets with
      | nil =>
          have ahead : tokens.ahead s.position = .punctuator mark :: rest := ahead
          have other : Kind.punctuator mark ≠ .punctuator .parenOpen := by
            rintro ⟨⟩
            exact absurd ends (by decide)
          rw [atNestedDeclarator, bind_of_ok (at?_run ahead _), decide_eq_false other]
          rfl
      | cons bracket brackets =>
          obtain ⟨first, more, follows, -⟩ := brackets_begin ends brackets rest
          refine (each bracket (List.mem_cons_self ..)).apart s (.punctuator first) more ?_
          rw [← follows, ← List.append_assoc]
          exact ahead

theorem plainDeclarator_parse {type : TypeId} {abstractOk : Bool} {mark : Punctuator}
    (ends : mark ∈ declaratorEnds) (named : abstractOk = false → name ≠ none)
    (each : ∀ bracket ∈ brackets, bracket.IsRead tokens)
    (fits : (brackets.flatMap Bracket.kinds).length ≤ depth)
    (ahead : tokens.ahead s.position = nameKinds name ++
      (brackets.flatMap Bracket.kinds ++ .punctuator mark :: rest)) :
    Parses tokens s (plainDeclarator (Rules.nested depth) type abstractOk)
      (.punctuator mark :: rest)
      (Puts name (fun target => brackets.foldr Bracket.onto target) type s.arenas) := by
  obtain ⟨first, more, follows, -⟩ := brackets_begin ends brackets rest
  refine .bind (identifier?_parse (follows ▸ ahead)) fun found middle reached same => ?_
  subst same
  have present : ¬(found.isNone && !abstractOk) = true := by
    rw [Bool.and_eq_true, Option.isNone_iff_eq_none, Bool.not_eq_true']
    rintro ⟨none, required⟩
    exact named required none
  dsimp only
  rw [if_neg present]
  refine .bind (suffixes_parse each ends fits (reached.ahead.trans follows.symm))
    fun outer last further derives => .pure further.ahead ⟨rfl, fun base target rest => ?_⟩
  exact derives base target (rest.mono reached.grows)

theorem name_inside (name : Option String) :
    Inside tokens name (nameKinds name) (fun target => target) false where
  balanced := Chain.nameKinds_balanced name
  opens := Chain.nameKinds_opens name
  star := by simp
  takes brackets each _ := by
    intro depth s type abstractOk mark rest declaring
    have ends := declaring.ends
    have fits := declaring.fits
    have ahead := declaring.ahead
    rw [List.length_append] at fits
    rw [List.append_assoc] at ahead
    have begins : ∃ first others, tokens.ahead s.position = first :: others ∧
        first ≠ .punctuator .star := by
      obtain ⟨behind, more, follows, inner⟩ := brackets_begin ends brackets rest
      rw [ahead, follows]
      cases name <;> exact ⟨_, _, rfl, by simp [inner]⟩
    obtain ⟨first, others, starts, other⟩ := begins
    refine .bind (pointers_parse starts other) fun found middle reached same => ?_
    subst same
    have there := (reached.ahead.trans starts.symm).trans ahead
    refine .of_run (atNestedDeclarator_name ends each there) ?_
    exact (plainDeclarator_parse ends declaring.named each (by omega) there).weaken
      fun _ _ _ puts => puts.mono reached.grows

/-! ## A pointer -/

theorem pointer_takes {q : Qualifiers} (inside : Inside tokens name text made isPointer) :
    Takes tokens name (.punctuator .star :: (q.words.map Kind.keyword ++ text))
      fun target => made (.pointer q target) := by
  intro depth s type abstractOk mark rest declaring
  have fits := declaring.fits
  have ahead := declaring.ahead
  rw [List.length_cons, List.length_append] at fits
  rw [List.cons_append, List.append_assoc] at ahead
  obtain ⟨first, more, follows, other⟩ := next_of_opens inside.opens mark rest
  have one : Parses tokens s (do
      let start ← Parse.here
      if ← Parse.acceptMark .star then
        let found ← qualifiers
        some <$> Parse.addType ((TypeNode.pointer type (← Parse.spanFrom start)).qualified found)
      else return none) (text ++ .punctuator mark :: rest) fun answer s' =>
        ∃ next, answer = some next ∧ ∃ span,
          s'.arenas.type? next = some ((TypeNode.pointer type span).qualified q) := by
    rw [follows] at ahead ⊢
    refine .here (inside_of_ahead ahead) fun start => .accept ahead (by simp) (by simp) ?_
    intro moved
    refine .bind (qualifiers_parse moved other) fun found middle reached same => ?_
    subst same
    refine .span (inside_of_ahead reached.ahead) fun span => .map (.addType reached.ahead ?_)
    exact fun id s' _ node => ⟨id, rfl, span, node⟩
  refine .roundThen ahead ?_ one fun next middle reached => ?_
  · simp only [List.length_cons, List.length_append]
    omega
  · rintro ⟨span, node⟩
    have behind : Declaring tokens depth middle name abstractOk text mark rest :=
      ⟨declaring.ends, declaring.named, by omega, reached.ahead⟩
    refine (inside.alone depth middle next abstractOk mark rest behind).weaken
      fun found s' _ puts => ⟨puts.1, fun base target rest => puts.2 base (.pointer q target) ?_⟩
    exact .pointer node (rest.mono reached.grows)

theorem pointer_inside {q : Qualifiers} (inside : Inside tokens name text made isPointer) :
    Inside tokens name (.punctuator .star :: (q.words.map Kind.keyword ++ text))
      (fun target => made (.pointer q target)) true where
  balanced := (Chain.words_balanced q.words).append inside.balanced
  opens := .cons rfl
  star _ := ⟨_, rfl⟩
  takes brackets _ none := by
    rw [none rfl, List.flatMap_nil, List.append_nil]
    exact pointer_takes inside

/-! ## A bracket -/

/-- The brackets behind a pointer in parentheses are read before its inside. -/
theorem nestedDeclarator_parse {type : TypeId} {abstractOk : Bool} {mark : Punctuator}
    (ends : mark ∈ declaratorEnds) (named : abstractOk = false → name ≠ none)
    (inside : Inside tokens name text made isPointer)
    (each : ∀ bracket ∈ brackets, bracket.IsRead tokens)
    (fits : text.length ≤ depth) (fit : (brackets.flatMap Bracket.kinds).length ≤ depth + 1)
    (ahead : tokens.ahead s.position = .punctuator .parenOpen :: (text ++ .punctuator .parenClose ::
      (brackets.flatMap Bracket.kinds ++ .punctuator mark :: rest))) :
    Parses tokens s (nestedDeclarator (Rules.nested (depth + 1)) type abstractOk)
      (.punctuator mark :: rest)
      (Puts name (fun target => made (brackets.foldr Bracket.onto target)) type s.arenas) := by
  obtain ⟨-, -, moved⟩ := Tokens.of_ahead_cons ahead
  have passed : tokens.ahead (s.position + (text.length + 2)) =
      brackets.flatMap Bracket.kinds ++ .punctuator mark :: rest := by
    have split : tokens.ahead s.position = Chain.parenthesized text ++
        (brackets.flatMap Bracket.kinds ++ .punctuator mark :: rest) := by
      rw [ahead, Chain.parenthesized, List.cons_append, List.append_assoc]
      rfl
    have behind := (Tokens.of_ahead_append split).2
    rwa [Chain.parenthesized, List.length_cons, List.length_append] at behind
  have skips := skipParenthesized_run inside.balanced ahead (by simp)
  have innerInside : s.position + 1 < tokens.size := by
    obtain ⟨first, more, follows, -⟩ := next_of_opens inside.opens .parenClose
      (brackets.flatMap Bracket.kinds ++ .punctuator mark :: rest)
    rw [follows] at moved
    exact (Tokens.of_ahead_cons moved).1
  -- The brackets are read with the inside skipped; then reading goes back for the inside, and
  -- on to where the brackets have ended.
  refine .of_run rfl (.jump skips ?_)
  refine .bind (suffixes_parse each ends fit passed) fun outer behind reached derives => ?_
  refine .of_run rfl (.jump (moveTo_apply innerInside _) ?_)
  have declaring : Declaring tokens depth { behind with position := s.position + 1 } name
      abstractOk text .parenClose (brackets.flatMap Bracket.kinds ++ .punctuator mark :: rest) :=
    ⟨by decide, named, fits, moved⟩
  refine .bind (inside.alone depth _ outer abstractOk _ _ declaring) fun found last further => ?_
  rintro ⟨rfl, puts⟩
  refine .expect further.ahead (by simp) ?_ fun _ => ?_
  · exact List.append_ne_nil_of_right_ne_nil _ (List.cons_ne_nil _ _)
  refine .jump (moveTo_apply (inside_of_ahead reached.ahead) _) (.pure reached.ahead ⟨rfl, ?_⟩)
  exact fun base target rest => puts base _ (derives base target rest)

theorem nested_takes (inside : Inside tokens name text made true)
    (each : ∀ bracket ∈ brackets, bracket.IsRead tokens) :
    Takes tokens name (Chain.parenthesized text ++ brackets.flatMap Bracket.kinds)
      fun target => made (brackets.foldr Bracket.onto target) := by
  intro depth s type abstractOk mark rest declaring
  have fits := declaring.fits
  rw [Chain.parenthesized, List.length_append, List.length_cons, List.length_append] at fits
  obtain ⟨less, rfl⟩ : ∃ less, depth = less + 1 := ⟨depth - 1, by omega⟩
  have ahead : tokens.ahead s.position = .punctuator .parenOpen ::
      (text ++ .punctuator .parenClose ::
        (brackets.flatMap Bracket.kinds ++ .punctuator mark :: rest)) := by
    rw [declaring.ahead, Chain.parenthesized]
    simp only [List.cons_append, List.append_assoc, List.nil_append]
  refine .bind (pointers_parse ahead (by simp)) fun found middle reached same => ?_
  subst same
  have nests : atNestedDeclarator tokens middle = .ok true middle := by
    obtain ⟨more, starred⟩ := inside.star rfl
    have there := reached.ahead
    rw [starred] at there
    rw [atNestedDeclarator, bind_of_ok (at?_run there _), if_pos (by simp),
      bind_of_ok (peekNext_run there)]
    rfl
  refine .of_run nests ?_
  exact (nestedDeclarator_parse declaring.ends declaring.named inside each (by omega) (by omega)
    reached.ahead).weaken fun _ _ _ puts => puts.mono reached.grows

theorem bracket_inside {bracket : Bracket} (read : bracket.IsRead tokens)
    (inside : Inside tokens name text made isPointer) :
    Inside tokens name (grouped text isPointer ++ bracket.kinds)
      (fun target => made (bracket.onto target)) false where
  balanced := (Chain.grouped_balanced inside.balanced isPointer).append read.balanced
  opens := (inside.opens.grouped isPointer).append (by cases bracket <;> exact .cons rfl)
  star := by simp
  takes brackets each _ := by
    have all : ∀ other ∈ bracket :: brackets, other.IsRead tokens :=
      List.forall_mem_cons.mpr ⟨read, each⟩
    rw [List.append_assoc, ← List.flatMap_cons]
    cases isPointer with
    | false => exact inside.takes (bracket :: brackets) all (by simp)
    | true => exact nested_takes inside all

/-! ## Every admitted chain -/

theorem Takes.isDeclared (takes : Takes tokens name text made) :
    IsDeclared tokens name text (made .base) := by
  intro depth s type abstractOk mark rest declaring
  exact (takes depth s type abstractOk mark rest declaring).weaken
    fun _ _ _ puts => ⟨puts.1, puts.2 type .base .base⟩

/-- Reading takes what is written of a declarator once the rest of the chain is written around
it. -/
theorem declare_isDeclared {chain : Chain} (admitted : chain.Admitted) :
    ∀ {name : Option String} {text : List Kind} {made : Chain → Chain} {isPointer : Bool},
      Inside tokens name text made isPointer →
        IsDeclared tokens name (chain.declare text isPointer) (made chain) := by
  induction admitted with
  | base => exact fun inside => inside.alone.isDeclared
  | pointer _ ih => exact fun inside => ih (pointer_inside inside)
  | array _ ih => exact fun inside => ih (bracket_inside (array_isRead _) inside)
  | function spelled basic _ _ each ih =>
      intro name text made isPointer inside
      have parameters := fun parameter member => IsParameter.mk (basic parameter member)
        (each parameter member (name_inside parameter.name))
      exact ih (bracket_inside (function_isRead spelled parameters) inside)

/-- Declarators are read from the inside out: the declarator of a chain is read as a type
that leads through the chain to the type it is built over, and nothing else is consumed.  Any
bound on the nesting will do that is as large as the number of its tokens. -/
theorem declarator_complete (tokens : Tokens) {depth : Nat} {s : State} {chain : Chain}
    {name : Option String} {type : TypeId} {abstractOk : Bool} {mark : Punctuator}
    {rest : List Kind} (admitted : chain.Admitted) (named : abstractOk = false → name ≠ none)
    (ends : mark ∈ declaratorEnds) (fits : (chain.kinds name).length ≤ depth)
    (ahead : tokens.ahead s.position = chain.kinds name ++ .punctuator mark :: rest) :
    ∃ found s', declarator (Rules.nested depth) type abstractOk tokens s = .ok found s' ∧
      s'.position = s.position + (chain.kinds name).length ∧ found.name = name ∧
      s'.arenas.Derives found.type type chain ∧ s'.scopes = s.scopes := by
  have declared : IsDeclared tokens name (chain.kinds name) chain :=
    declare_isDeclared admitted (name_inside name)
  obtain ⟨found, s', run, reached, same, derives⟩ :=
    declared depth s type abstractOk mark rest ⟨ends, named, fits, ahead⟩
  exact ⟨found, s', run, position_of_ahead ahead reached.ahead, same, derives, reached.scopes⟩

def keyParameter : Parameter Chain where
  kind := .uint
  qualifiers := ⟨true, false⟩
  name := some "key"
  chain := .pointer .none .base

/-- An array of pointers to functions, each of which answers a pointer to an array. -/
def handlersChain : Chain :=
  .array (some "3") (.pointer .none (.function [keyParameter] true
    (.pointer .none (.array none .base))))

def handlersTokens : Tokens :=
  (Token.Reading.ofSource
    "(*(*handlers[3])(const unsigned int *key, ...))[] = x;").tokens.toArray

theorem declarator_complete_handlers :
    handlersChain.Admitted ∧ ∃ found s',
      declarator (Rules.nested 21) ⟨0⟩ false handlersTokens {} = .ok found s' ∧
        s'.position = 21 ∧ found.name = some "handlers" ∧
        s'.arenas.Derives found.type ⟨0⟩ handlersChain := by
  have admitted : handlersChain.Admitted := by
    have parameter : keyParameter.kind.isBasic = true ∧ keyParameter.chain.Admitted :=
      ⟨rfl, .pointer .base⟩
    refine .array (.pointer (.function (fun last => by cases last) ?_ ?_
      (.pointer (.array .base))))
    · exact List.forall_mem_singleton.mpr parameter.1
    · exact List.forall_mem_singleton.mpr parameter.2
  have written : handlersTokens.ahead 0 = handlersChain.kinds (some "handlers") ++
      [.punctuator .eq, .identifier "x", .punctuator .semicolon, .eof] := by
    decide +kernel
  obtain ⟨found, s', run, position, named, derives, -⟩ :=
    @declarator_complete handlersTokens 21 {} handlersChain (some "handlers") ⟨0⟩ false .eq
      [.identifier "x", .punctuator .semicolon, .eof] admitted (by simp) (by decide)
      (by decide) written
  exact ⟨admitted, found, s', run, position, named, derives⟩

end SyntaxGraph.Grammar
