import SyntaxGraph.Proofs.Expression.Tree
import SyntaxGraph.Proofs.Grammar.Parses

/-!
# Types that declarators build

A declarator builds a type over a base in a chain of pointers, arrays and functions, of
which the first is the type of the declared name.  It is written from the inside out: a
pointer stands in front of what it is applied to, an array or a function behind it, and
what begins with a star is parenthesised before something is put behind it.
-/

set_option autoImplicit false

namespace SyntaxGraph

open Token (Kind Keyword Punctuator Balanced)

/-- A parameter of a basic type, with what its declarator builds over that type. -/
structure Parameter (α : Type) where
  kind : TypeKind
  qualifiers : Qualifiers := .none
  name : Option String := none
  chain : α

inductive Chain
  | base
  | pointer (qualifiers : Qualifiers) (target : Chain)
  | array (length : Option String) (element : Chain)
  | function (parameters : List (Parameter Chain)) (variadic : Bool) (result : Chain)

/-! ## How a chain is written -/

/-- The words that name a basic type. -/
def TypeKind.words : TypeKind → List Keyword
  | .void => [.voidKw]
  | .bool => [.boolKw]
  | .char => [.charKw]
  | .schar => [.signedKw, .charKw]
  | .uchar => [.unsignedKw, .charKw]
  | .short => [.shortKw]
  | .ushort => [.unsignedKw, .shortKw]
  | .int => [.intKw]
  | .uint => [.unsignedKw, .intKw]
  | .long => [.longKw]
  | .ulong => [.unsignedKw, .longKw]
  | .longlong => [.longKw, .longKw]
  | .ulonglong => [.unsignedKw, .longKw, .longKw]
  | .float => [.floatKw]
  | .double => [.doubleKw]
  | .longDouble => [.longKw, .doubleKw]
  | _ => []

def Qualifiers.words (q : Qualifiers) : List Keyword :=
  (if q.isConst then [.constKw] else []) ++ (if q.isVolatile then [.volatileKw] else [])

namespace Chain

def nameKinds (name : Option String) : List Kind := name.toList.map Kind.identifier

def parenthesized (kinds : List Kind) : List Kind :=
  .punctuator .parenOpen :: (kinds ++ [.punctuator .parenClose])

/-- The inside of a declarator, as something behind it needs it. -/
def grouped (inside : List Kind) (isPointer : Bool) : List Kind :=
  if isPointer then parenthesized inside else inside

def lengthKinds (length : Option String) : List Kind :=
  .punctuator .bracketOpen :: (length.toList.map Kind.number ++ [.punctuator .bracketClose])

def commaSeparated (items : List (List Kind)) : List Kind :=
  [.punctuator .comma].intercalate items

mutual

/-- The declarator of a chain around an inside, which is a pointer or not. -/
def declare : Chain → (inside : List Kind) → (isPointer : Bool) → List Kind
  | .base, inside, _ => inside
  | .pointer qualifiers target, inside, _ =>
    target.declare (.punctuator .star :: (qualifiers.words.map Kind.keyword ++ inside)) true
  | .array length element, inside, isPointer =>
    element.declare (grouped inside isPointer ++ lengthKinds length) false
  | .function parameters variadic result, inside, isPointer =>
    result.declare (grouped inside isPointer ++
      parenthesized (commaSeparated (listed parameters variadic))) false

/-- What a list of parameters has between its commas. -/
def listed : List (Parameter Chain) → (variadic : Bool) → List (List Kind)
  | [], variadic => if variadic then [[.punctuator .ellipsis]] else []
  | parameter :: others, variadic => parameterKinds parameter :: listed others variadic

def parameterKinds : Parameter Chain → List Kind
  | ⟨kind, qualifiers, name, chain⟩ =>
    (qualifiers.words ++ kind.words).map Kind.keyword ++ chain.declare (nameKinds name) false

end

/-- The declarator of a chain. -/
def kinds (chain : Chain) (name : Option String) : List Kind :=
  chain.declare (nameKinds name) false

/-- An array of pointers to functions that answer a pointer to an array is written
`(*(*table[3])(int key, ...))[]`. -/
example : (Chain.array (some "3") (.pointer .none (.function
      [{ kind := .int, name := some "key", chain := .base }] true
      (.pointer .none (.array none .base))))).kinds (some "table") =
    [.punctuator .parenOpen, .punctuator .star, .punctuator .parenOpen, .punctuator .star,
      .identifier "table", .punctuator .bracketOpen, .number "3", .punctuator .bracketClose,
      .punctuator .parenClose, .punctuator .parenOpen, .keyword .intKw, .identifier "key",
      .punctuator .comma, .punctuator .ellipsis, .punctuator .parenClose,
      .punctuator .parenClose, .punctuator .bracketOpen, .punctuator .bracketClose] := by
  rfl

/-- Parameters that a list spells out.  A lone unnamed `void` would say that there are none. -/
def spellsOut (parameters : List (Parameter Chain)) (variadic : Bool) : Prop :=
  variadic = false → parameters ≠ [{ kind := .void, chain := .base }]

/-- The parameters at every depth are of basic types and are spelled out. -/
inductive Admitted : Chain → Prop
  | base : Admitted .base
  | pointer {qualifiers : Qualifiers} {target : Chain} (rest : Admitted target) :
      Admitted (.pointer qualifiers target)
  | array {length : Option String} {element : Chain} (rest : Admitted element) :
      Admitted (.array length element)
  | function {parameters : List (Parameter Chain)} {variadic : Bool} {result : Chain}
      (spelled : spellsOut parameters variadic)
      (basic : ∀ parameter ∈ parameters, parameter.kind.isBasic = true)
      (each : ∀ parameter ∈ parameters, Admitted parameter.chain) (rest : Admitted result) :
      Admitted (.function parameters variadic result)

variable {chain : Chain} {inside suffix : List Kind} {isPointer : Bool} {kind : Kind}

/-! ## What is written -/

theorem commaSeparated_one (item : List Kind) : commaSeparated [item] = item := by
  simp [commaSeparated]

theorem commaSeparated_cons {items : List (List Kind)} (more : items ≠ []) (item : List Kind) :
    commaSeparated (item :: items) = item ++ .punctuator .comma :: commaSeparated items := by
  obtain ⟨next, others, rfl⟩ := List.exists_cons_of_ne_nil more
  simp [commaSeparated, List.intercalate_cons_cons]

theorem listed_eq_nil {parameters : List (Parameter Chain)} {variadic : Bool}
    (none : listed parameters variadic = []) : parameters = [] ∧ variadic = false := by
  cases parameters with
  | nil => cases variadic <;> first | exact ⟨rfl, rfl⟩ | cases none
  | cons => cases none

/-- The tokens that the declarator of a chain can begin with, if it has any. -/
def begins : Kind → Bool
  | .identifier _ | .punctuator .star | .punctuator .parenOpen | .punctuator .bracketOpen => true
  | _ => false

def Opens (kinds : List Kind) : Prop := ∀ first ∈ kinds.head?, begins first = true

theorem Opens.cons {kinds : List Kind} (first : begins kind = true) : Opens (kind :: kinds) := by
  intro other member
  cases member
  exact first

theorem Opens.append (first : Opens inside) (second : Opens suffix) : Opens (inside ++ suffix) := by
  cases inside with
  | nil => exact second
  | cons => exact .cons (first _ rfl)

theorem Opens.grouped (opens : Opens inside) (isPointer : Bool) :
    Opens (grouped inside isPointer) := by
  cases isPointer with
  | false => exact opens
  | true => exact .cons rfl

theorem nameKinds_opens (name : Option String) : Opens (nameKinds name) := by
  cases name with
  | none => exact fun _ member => absurd member (by simp [nameKinds])
  | some => exact .cons rfl

theorem declare_opens : ∀ (chain : Chain) {inside : List Kind} {isPointer : Bool},
    Opens inside → Opens (chain.declare inside isPointer)
  | .base, _, _, opens => opens
  | .pointer _ target, _, _, _ => declare_opens target (.cons rfl)
  | .array _ element, _, isPointer, opens =>
    declare_opens element ((opens.grouped isPointer).append (.cons rfl))
  | .function _ _ result, _, isPointer, opens =>
    declare_opens result ((opens.grouped isPointer).append (.cons rfl))

theorem kinds_opens (chain : Chain) (name : Option String) : Opens (chain.kinds name) :=
  chain.declare_opens (nameKinds_opens name)

theorem length_grouped (inside : List Kind) (isPointer : Bool) :
    inside.length ≤ (grouped inside isPointer).length := by
  cases isPointer with
  | false => exact Nat.le_refl _
  | true =>
      rw [grouped, if_pos rfl, parenthesized, List.length_cons, List.length_append]
      omega

theorem length_declare : ∀ (chain : Chain) (inside : List Kind) (isPointer : Bool),
    inside.length ≤ (chain.declare inside isPointer).length
  | .base, _, _ => Nat.le_refl _
  | .pointer _ target, inside, _ => by
    refine Nat.le_trans ?_ (length_declare target _ _)
    simp only [List.length_cons, List.length_append]
    omega
  | .array _ element, inside, isPointer => by
    refine Nat.le_trans ?_ (length_declare element _ _)
    rw [List.length_append]
    exact Nat.le_add_right_of_le (length_grouped inside isPointer)
  | .function _ _ result, inside, isPointer => by
    refine Nat.le_trans ?_ (length_declare result _ _)
    rw [List.length_append]
    exact Nat.le_add_right_of_le (length_grouped inside isPointer)

/-- Only a base without a name is written without a token. -/
theorem kinds_eq_nil {name : Option String} (empty : chain.kinds name = []) :
    chain = .base ∧ name = none := by
  have longer {inside : List Kind} {isPointer : Bool} (target : Chain) (some : inside ≠ [])
      (written : target.declare inside isPointer = []) : False := by
    have le := length_declare target inside isPointer
    rw [written] at le
    exact some (List.length_eq_zero_iff.mp (Nat.le_zero.mp le))
  cases chain with
  | base =>
      cases name with
      | none => exact ⟨rfl, rfl⟩
      | some => cases empty
  | pointer _ target => exact (longer target (List.cons_ne_nil _ _) empty).elim
  | array length element =>
      exact (longer element (by simp [lengthKinds]) empty).elim
  | function parameters variadic result =>
      exact (longer result (by simp [parenthesized]) empty).elim

/-! ## Parentheses -/

theorem words_balanced (words : List Keyword) : Balanced (words.map Kind.keyword) := by
  induction words with
  | nil => rfl
  | cons _ _ ih => exact ih

theorem nameKinds_balanced (name : Option String) : Balanced (nameKinds name) := by
  cases name <;> rfl

theorem lengthKinds_balanced (length : Option String) : Balanced (lengthKinds length) := by
  cases length <;> rfl

theorem grouped_balanced (balanced : Balanced inside) (isPointer : Bool) :
    Balanced (grouped inside isPointer) := by
  cases isPointer with
  | false => exact balanced
  | true => exact balanced.parenthesized

theorem commaSeparated_balanced {items : List (List Kind)}
    (each : ∀ item ∈ items, Balanced item) : Balanced (commaSeparated items) := by
  induction items with
  | nil => rfl
  | cons item items ih =>
      have first := each item (by simp)
      have others := ih fun item member => each item (by simp [member])
      by_cases more : items = []
      · rw [more, commaSeparated_one]
        exact first
      · rw [commaSeparated_cons more]
        exact first.append others

mutual

theorem declare_balanced : ∀ (chain : Chain) {inside : List Kind} {isPointer : Bool},
    Balanced inside → Balanced (chain.declare inside isPointer)
  | .base, _, _, balanced => balanced
  | .pointer qualifiers target, _, _, balanced =>
    declare_balanced target ((words_balanced qualifiers.words).append balanced)
  | .array length element, _, isPointer, balanced =>
    declare_balanced element
      ((grouped_balanced balanced isPointer).append (lengthKinds_balanced length))
  | .function parameters variadic result, _, isPointer, balanced =>
    declare_balanced result ((grouped_balanced balanced isPointer).append
      (commaSeparated_balanced (listed_balanced parameters variadic)).parenthesized)

theorem listed_balanced : ∀ (parameters : List (Parameter Chain)) (variadic : Bool),
    ∀ item ∈ listed parameters variadic, Balanced item
  | [], variadic => by
    intro item member
    cases variadic with
    | false => cases member
    | true =>
        obtain rfl := List.mem_singleton.mp member
        rfl
  | parameter :: others, variadic => by
    intro item member
    rcases List.mem_cons.mp member with rfl | later
    · exact parameterKinds_balanced parameter
    · exact listed_balanced others variadic item later

theorem parameterKinds_balanced : ∀ parameter : Parameter Chain,
    Balanced (parameterKinds parameter)
  | ⟨_, _, name, chain⟩ =>
    (words_balanced _).append (declare_balanced chain (nameKinds_balanced name))

end

end Chain

/-! ## Chains in arenas -/

namespace Arenas

variable {a b : Arenas}

/-- The expression of an array's length is the number that the chain has there. -/
def Measures (a : Arenas) (measure : Option ExprId) (length : Option String) : Prop :=
  measure.map a.form? = length.map fun text => some (.number text)

mutual

/-- From a type, following the bases of the nodes leads through a chain to another type. -/
inductive Derives (a : Arenas) : TypeId → TypeId → Chain → Prop
  | base {id : TypeId} : Derives a id id .base
  | pointer {id next base : TypeId} {span : Span} {qualifiers : Qualifiers} {target : Chain}
      (node : a.type? id = some ((TypeNode.pointer next span).qualified qualifiers))
      (rest : Derives a next base target) : Derives a id base (.pointer qualifiers target)
  | array {id next base : TypeId} {span : Span} {measure : Option ExprId}
      {length : Option String} {element : Chain}
      (node : a.type? id = some (.array next measure span))
      (measures : a.Measures measure length) (rest : Derives a next base element) :
      Derives a id base (.array length element)
  | function {id next base : TypeId} {span : Span} {decls : List DeclId}
      {parameters : List (Parameter Chain)} {variadic : Bool} {result : Chain}
      (node : a.type? id = some (.function next decls variadic span))
      (declares : Declares a decls parameters) (rest : Derives a next base result) :
      Derives a id base (.function parameters variadic result)

/-- The declarations are those of the parameters, in order. -/
inductive Declares (a : Arenas) : List DeclId → List (Parameter Chain) → Prop
  | nil : Declares a [] []
  | cons {id : DeclId} {decls : List DeclId} {type base : TypeId} {span basicSpan : Span}
      {parameter : Parameter Chain} {parameters : List (Parameter Chain)}
      (node : a.decl? id = some { name := parameter.name.getD "", type, span })
      (basic : a.type? base =
        some ((TypeNode.basic parameter.kind basicSpan).qualified parameter.qualifiers))
      (derives : Derives a type base parameter.chain) (others : Declares a decls parameters) :
      Declares a (id :: decls) (parameter :: parameters)

end

namespace Extends

theorem type? (grows : a.Extends b) {id : TypeId} {node : TypeNode}
    (found : a.type? id = some node) : b.type? id = some node :=
  getElem?_of_prefix grows.types found

theorem decl? (grows : a.Extends b) {id : DeclId} {decl : Decl}
    (found : a.decl? id = some decl) : b.decl? id = some decl :=
  getElem?_of_prefix grows.decls found

end Extends

theorem Declares.behind {id : DeclId} {decls : List DeclId} {parameter : Parameter Chain}
    {parameters : List (Parameter Chain)} (first : Declares a [id] [parameter])
    (others : Declares a decls parameters) :
    Declares a (id :: decls) (parameter :: parameters) := by
  cases first with
  | cons node basic derives => exact .cons node basic derives others

theorem Measures.mono {measure : Option ExprId} {length : Option String}
    (measures : a.Measures measure length) (grows : a.Extends b) : b.Measures measure length := by
  cases measure with
  | none => exact measures
  | some id =>
      cases length with
      | none => cases measures
      | some text =>
          have node : a.form? id = some (.number text) := Option.some.inj measures
          exact congrArg some (KeepsExprs.form? grows.exprs node)

mutual

theorem Derives.mono {id base : TypeId} {chain : Chain} (grows : a.Extends b) :
    Derives a id base chain → Derives b id base chain
  | .base => .base
  | .pointer node rest => .pointer (grows.type? node) (Derives.mono grows rest)
  | .array node measures rest =>
    .array (grows.type? node) (measures.mono grows) (Derives.mono grows rest)
  | .function node declares rest =>
    .function (grows.type? node) (Declares.mono grows declares) (Derives.mono grows rest)

theorem Declares.mono {decls : List DeclId} {parameters : List (Parameter Chain)}
    (grows : a.Extends b) : Declares a decls parameters → Declares b decls parameters
  | .nil => .nil
  | .cons node basic derives others =>
    .cons (grows.decl? node) (grows.type? basic) (Derives.mono grows derives)
      (Declares.mono grows others)

end

end Arenas

end SyntaxGraph
