import SyntaxGraph.Grammar.Specifier
import SyntaxGraph.Proofs.Grammar.Runs

/-!
# The specifiers in front of a declarator, one by one

`Specified` says which specifiers stand between two states, in order: keywords that stand
for themselves, names of types, and structures, unions and enumerations with whatever body
they have.  Reading specifiers reads such a list and keeps account of it in a record, which
takes one specifier after the other or refuses it.  What a field of the record says at the
end is known from what it says of each specifier.
-/

set_option autoImplicit false

namespace SyntaxGraph.Grammar

open Token (Kind Keyword Punctuator)

/-- One specifier; a tagged one with the type that it gives. -/
inductive Specifier
  | word (keyword : Keyword)
  | name (name : String)
  | tagged (kind : TypeKind) (type : TypeId)
deriving DecidableEq

namespace Specifier

/-- The words of which the basic types are made. -/
def isTypeWord : Specifier → Bool
  | .word keyword => keyword ∈ [.voidKw, .boolKw, .charKw, .shortKw, .intKw, .longKw, .floatKw,
      .doubleKw, .signedKw, .unsignedKw]
  | _ => false

/-- A specifier that gives a type by itself: a name of a type, or a tagged type. -/
def namesType : Specifier → Bool
  | .word _ => false
  | .name _ | .tagged _ _ => true

/-- The type words with one more specifier, which need not be one of them. -/
def addTo (words : TypeWords) : Specifier → TypeWords
  | .word keyword => (words.insert? keyword).getD words
  | _ => words

/-- A specifier stands between two states. -/
inductive Read (tokens : Tokens) (rules : Rules) : Specifier → State → State → Prop
  | word {s : State} {keyword : Keyword} (there : tokens.kind s.position = .keyword keyword)
      (untagged : tagKind? keyword = none) :
      Read tokens rules (.word keyword) s { s with position := s.position + 1 }
  | name {s : State} {name : String} (there : tokens.kind s.position = .identifier name)
      (named : s.scopes.isTypedef name = true) :
      Read tokens rules (.name name) s { s with position := s.position + 1 }
  | tagged {s t : State} {keyword : Keyword} {kind : TypeKind} {type : TypeId}
      (there : tokens.kind s.position = .keyword keyword)
      (names : tagKind? keyword = some kind)
      (run : taggedSpecifier rules kind tokens s = .ok type t) :
      Read tokens rules (.tagged kind type) s t

end Specifier

/-- The specifiers that stand between two states, in order. -/
inductive Specified (tokens : Tokens) (rules : Rules) : State → List Specifier → State → Prop
  | done (s : State) : Specified tokens rules s [] s
  | next {s middle t : State} {item : Specifier} {items : List Specifier}
      (first : item.Read tokens rules s middle) (rest : Specified tokens rules middle items t) :
      Specified tokens rules s (item :: items) t

namespace SpecifierList

/-- The list with one more specifier: a second storage class is refused, and so is what
names a type behind anything else that does or a type word. -/
def take? (list : SpecifierList) : Specifier → Option SpecifierList
  | .word word =>
    match storage? word with
    | some storage => if list.storage = .none then some { list with storage } else none
    | none => list.insert? word
  | .name name =>
    if list.isNamed || !list.words.isEmpty then none
    else some { list with typedefName := some name }
  | .tagged _ type =>
    if list.isNamed || !list.words.isEmpty then none else some { list with tagged := some type }

end SpecifierList

variable {tokens : Tokens} {rules : Rules} {s s' : State} {list final : SpecifierList}

/-! ## A round reads a specifier -/

/-- A round reads one specifier and takes it into the list, or leaves the state as it is. -/
theorem specifierRound_ok {next : Option SpecifierList}
    (run : specifierRound rules list tokens s = .ok next s') :
    next = none ∧ s' = s ∨
      ∃ item more, next = some more ∧ Specifier.Read tokens rules item s s' ∧
        list.take? item = some more := by
  obtain ⟨current, there, rest⟩ := peek_then run
  cases current with
  | keyword word =>
      dsimp only at rest
      cases storage : storage? word with
      | some found =>
          rw [storage] at rest
          by_cases another : list.storage ≠ .none
          · simp only [if_pos another] at rest
            cases rest
          · simp only [if_neg another] at rest
            have done := advance_then there (by simp) rest
            cases done
            have untagged : tagKind? word = none := by
              revert storage
              cases word <;> simp [storage?, tagKind?]
            refine .inr ⟨.word word, _, rfl, .word there untagged, ?_⟩
            simp only [SpecifierList.take?, storage, if_pos (not_not.mp another)]
      | none =>
          rw [storage] at rest
          cases names : tagKind? word with
          | some kind =>
              rw [names] at rest
              by_cases typed : (list.isNamed || !list.words.isEmpty) = true
              · simp only [if_pos typed] at rest
                cases rest
              · simp only [if_neg typed] at rest
                obtain ⟨type, middle, tagged, done⟩ := bind_ok rest
                cases done
                refine .inr ⟨.tagged kind type, _, rfl, .tagged there names tagged, ?_⟩
                simp only [SpecifierList.take?, if_neg typed]
          | none =>
              rw [names] at rest
              cases inserted : list.insert? word with
              | none =>
                  rw [inserted] at rest
                  exact .inl (pure_ok rest)
              | some more =>
                  rw [inserted] at rest
                  have done := advance_then there (by simp) rest
                  cases done
                  refine .inr ⟨.word word, more, rfl, .word there names, ?_⟩
                  simp only [SpecifierList.take?, storage, inserted]
  | identifier name =>
      obtain ⟨named, middle, looked, rest⟩ := bind_ok rest
      cases looked
      by_cases taken : (!list.isNamed && list.words.isEmpty && s.scopes.isTypedef name) = true
      · simp only [if_pos taken] at rest
        have done := advance_then there (by simp) rest
        cases done
        simp only [Bool.and_eq_true, Bool.not_eq_true'] at taken
        refine .inr ⟨.name name, _, rfl, .name there taken.2, ?_⟩
        simp only [SpecifierList.take?, taken.1.1, taken.1.2, Bool.not_true, Bool.or_self,
          Bool.false_eq_true, if_false]
      · simp only [if_neg taken] at rest
        exact .inl (pure_ok rest)
  | _ => exact .inl (pure_ok rest)

/-! ## The rounds read a list of specifiers -/

theorem specifierRounds_ok
    (rounds : Iterates tokens (specifierRound rules) list s final s') :
    ∃ items, Specified tokens rules s items s' ∧
      items.foldlM SpecifierList.take? list = some final := by
  induction rounds with
  | stop round =>
      obtain ⟨-, rfl⟩ | ⟨item, more, answer, -, -⟩ := specifierRound_ok round
      · exact ⟨[], .done _, rfl⟩
      · cases answer
  | next round _ ih =>
      obtain ⟨answer, -⟩ | ⟨item, more, answer, first, taken⟩ := specifierRound_ok round
      · cases answer
      cases answer
      obtain ⟨items, rest, others⟩ := ih
      refine ⟨item :: items, .next first rest, ?_⟩
      rw [List.foldlM_cons, taken]
      exact others

/-- Specifiers are read one by one, and the type is made from the account of all of them. -/
theorem specifiers_ok {value : Specifiers} (run : specifiers rules tokens s = .ok value s') :
    ∃ items t list span, Specified tokens rules s items t ∧
      items.foldlM SpecifierList.take? {} = some list ∧
      specifiedType list span tokens t = .ok value.type s' ∧
      value.storage = list.storage ∧ value.isInline = list.isInline := by
  obtain ⟨start, rest⟩ := look_then here_observes run
  obtain ⟨list, t, rounds, rest⟩ := bind_ok rest
  obtain ⟨span, rest⟩ := look_then spanFrom_observes rest
  obtain ⟨type, made, types, done⟩ := bind_ok rest
  cases done
  obtain ⟨items, specified, taken⟩ := specifierRounds_ok (iterate_ok rounds)
  exact ⟨items, t, list, span, specified, taken, types, rfl, rfl⟩

/-- The type is the tagged one; otherwise it is a new node, which bears the qualifiers and
is what the name or the words say. -/
theorem specifiedType_ok {span : Span} {type : TypeId}
    (run : specifiedType list span tokens s = .ok type s') :
    list.tagged = some type ∧ s' = s ∨
      list.tagged = none ∧ ∃ node, s' = { s with arenas := (s.arenas.addType node).2 } ∧
        type = (s.arenas.addType node).1 ∧ node.qualifiers = list.qualifiers ∧
        (list.typedefName.isSome = true ∧ node.kind = .typedef ∧ node.name = list.typedefName ∨
          list.typedefName = none ∧ list.words.isEmpty = false ∧
            list.words.kind? = some node.kind) := by
  unfold specifiedType at run
  cases tagged : list.tagged with
  | some bound =>
      rw [tagged] at run
      obtain ⟨rfl, rfl⟩ := pure_ok run
      exact .inl ⟨rfl, rfl⟩
  | none =>
      rw [tagged] at run
      cases named : list.typedefName with
      | some name =>
          rw [named] at run
          obtain ⟨rfl, rfl⟩ := add_ok run
          exact .inr ⟨rfl, _, rfl, rfl, rfl, .inl ⟨rfl, rfl, rfl⟩⟩
      | none =>
          rw [named] at run
          cases empty : list.words.isEmpty with
          | true =>
              simp only [empty, if_true] at run
              obtain ⟨_, refused⟩ := look_then peek_observes run
              cases refused
          | false =>
              simp only [empty, Bool.false_eq_true, if_false] at run
              cases kinds : list.words.kind? with
              | none =>
                  rw [kinds] at run
                  cases run
              | some kind =>
                  rw [kinds] at run
                  obtain ⟨rfl, rfl⟩ := add_ok run
                  exact .inr ⟨rfl, _, rfl, rfl, rfl, .inr ⟨rfl, rfl, rfl⟩⟩

/-! ## What the account says -/

namespace SpecifierList

variable {keyword : Keyword} {item : Specifier} {items : List Specifier} {next : SpecifierList}

/-- A view of the account that each specifier changes in one way shows at the end what all
of them have done to it. -/
theorem fold_of_take? {β : Type} {view : SpecifierList → β} {change : β → Specifier → β}
    (each : ∀ list item next, take? list item = some next →
      view next = change (view list) item)
    (taken : items.foldlM take? list = some final) :
    view final = items.foldl change (view list) := by
  induction items generalizing list with
  | nil =>
      cases taken
      rfl
  | cons item items ih =>
      obtain ⟨next, first, others⟩ := Option.bind_eq_some_iff.mp taken
      rw [ih others, each list item next first, List.foldl_cons]

/-- A mark that the specifiers of one sort set, and none clears. -/
theorem any_of_take? (mark : SpecifierList → Bool) {sets : Specifier → Bool}
    (each : ∀ list item next, take? list item = some next → mark next = (mark list || sets item))
    (taken : items.foldlM take? list = some final) :
    mark final = (mark list || items.any sets) := by
  induction items generalizing list with
  | nil =>
      cases taken
      simp
  | cons item items ih =>
      obtain ⟨next, first, others⟩ := Option.bind_eq_some_iff.mp taken
      rw [ih others, each list item next first, List.any_cons, Bool.or_assoc]

/-- What names a type is taken only where nothing else does. -/
theorem take?_of_namesType (names : item.namesType = true)
    (taken : list.take? item = some next) :
    list.isNamed = false ∧ list.words.isEmpty = true ∧
      ((∃ name, item = .name name ∧ next = { list with typedefName := some name }) ∨
        ∃ kind type, item = .tagged kind type ∧ next = { list with tagged := some type }) := by
  cases item with
  | word keyword => cases names
  | name name =>
      obtain ⟨untyped, same⟩ := Option.ite_none_left_eq_some.mp taken
      rw [Bool.or_eq_true, not_or, Bool.not_eq_true, Bool.not_eq_true', Bool.not_eq_false]
        at untyped
      exact ⟨untyped.1, untyped.2, .inl ⟨name, rfl, (Option.some.inj same).symm⟩⟩
  | tagged kind type =>
      obtain ⟨untyped, same⟩ := Option.ite_none_left_eq_some.mp taken
      rw [Bool.or_eq_true, not_or, Bool.not_eq_true, Bool.not_eq_true', Bool.not_eq_false]
        at untyped
      exact ⟨untyped.1, untyped.2, .inr ⟨kind, type, rfl, (Option.some.inj same).symm⟩⟩

/-- A keyword that stands for itself changes nothing that has been named. -/
theorem take?_word (taken : list.take? (.word keyword) = some next) :
    next.tagged = list.tagged ∧ next.typedefName = list.typedefName ∧
      next.words = (list.words.insert? keyword).getD list.words ∧
      next.qualifiers = (qualifiedBy? list.qualifiers keyword).getD list.qualifiers := by
  cases keyword <;>
    simp_all [take?, insert?, storage?, qualifiedBy?, TypeWords.insert?] <;> grind

theorem isNamed_take? (list : SpecifierList) (item : Specifier) (next : SpecifierList)
    (taken : list.take? item = some next) :
    next.isNamed = (list.isNamed || item.namesType) := by
  cases names : item.namesType with
  | true =>
      obtain ⟨-, -, ⟨name, -, rfl⟩ | ⟨kind, type, -, rfl⟩⟩ := take?_of_namesType names taken <;>
        simp [isNamed]
  | false =>
      cases item with
      | word keyword =>
          obtain ⟨tagged, named, -, -⟩ := take?_word taken
          simp only [isNamed, tagged, named, Bool.or_false]
      | name name => cases names
      | tagged kind type => cases names

theorem words_take? (list : SpecifierList) (item : Specifier) (next : SpecifierList)
    (taken : list.take? item = some next) : next.words = item.addTo list.words := by
  cases item with
  | word keyword => exact (take?_word taken).2.2.1
  | name name =>
      obtain ⟨-, -, ⟨_, -, rfl⟩ | ⟨_, _, same, -⟩⟩ := take?_of_namesType rfl taken
      · rfl
      · cases same
  | tagged kind type =>
      obtain ⟨-, -, ⟨_, same, -⟩ | ⟨_, _, -, rfl⟩⟩ := take?_of_namesType rfl taken
      · cases same
      · rfl

end SpecifierList

end SyntaxGraph.Grammar
