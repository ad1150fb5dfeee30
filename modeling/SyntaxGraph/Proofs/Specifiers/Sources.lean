import SyntaxGraph.Grammar.TranslationUnit
import SyntaxGraph.Proofs.Program.Read
import SyntaxGraph.Proofs.Specifiers.Items

/-!
# The type that specifiers give

The sources of a type are a name of a type, a structure, union or enumeration, and the type
words all together.  Specifiers that are accepted have one source at least, and at most one
of them names a type by itself.  In front of such a specifier there is no type word, and the
type is the one that it names.  Behind it type words are accepted, and are of no account: so
there is one source exactly if there are none of these.
-/

set_option autoImplicit false

namespace SyntaxGraph.Grammar

open Token (Kind Keyword Punctuator)

namespace Specifier

/-- How many sources of a type there are. -/
def sources (items : List Specifier) : Nat :=
  items.countP namesType + if items.any isTypeWord then 1 else 0

/-- The type words, as they are taken one after the other. -/
def typeWords (items : List Specifier) : TypeWords :=
  items.foldl (fun words item => item.addTo words) {}

/-- The type is the one that the specifier names. -/
def Gives (arenas : Arenas) (type : TypeId) : Specifier → Prop
  | .word _ => False
  | .name text => ∃ node, arenas.type? type = some node ∧ node.kind = .typedef ∧
      node.name = some text
  | .tagged _ given => type = given

end Specifier

variable {tokens : Tokens} {rules : Rules} {s s' : State} {list final : SpecifierList}
  {items front back : List Specifier} {named : Specifier}

/-- The type words are the keywords that the record of type words takes in, each of which
leaves a trace in it. -/
theorem TypeWords.insert?_isTypeWord (words : TypeWords) (keyword : Keyword) :
    match words.insert? keyword with
    | some more => more.isEmpty = false ∧ (Specifier.word keyword).isTypeWord = true
    | none => (Specifier.word keyword).isTypeWord = false := by
  cases keyword <;> simp [TypeWords.insert?, TypeWords.isEmpty, Specifier.isTypeWord]

namespace SpecifierList

theorem words_isEmpty_take? (list : SpecifierList) (item : Specifier) (next : SpecifierList)
    (taken : list.take? item = some next) :
    (!next.words.isEmpty) = (!list.words.isEmpty || item.isTypeWord) := by
  rw [words_take? list item next taken]
  cases item with
  | word keyword =>
      have trace := list.words.insert?_isTypeWord keyword
      cases inserted : list.words.insert? keyword with
      | some more =>
          rw [inserted] at trace
          simp [Specifier.addTo, inserted, trace.1, trace.2]
      | none =>
          rw [inserted] at trace
          simp [Specifier.addTo, inserted, trace]
  | name _ | tagged _ _ => simp [Specifier.addTo, Specifier.isTypeWord]

theorem isNamed_of_take? (taken : items.foldlM take? {} = some final) :
    final.isNamed = items.any Specifier.namesType :=
  any_of_take? isNamed isNamed_take? taken

theorem words_isEmpty_of_take? (taken : items.foldlM take? {} = some final) :
    (!final.words.isEmpty) = items.any Specifier.isTypeWord :=
  any_of_take? (fun list => !list.words.isEmpty) words_isEmpty_take? taken

/-- Once a type has been named, it stays the one that is named. -/
theorem named_of_take? (isNamed : list.isNamed = true)
    (taken : items.foldlM take? list = some final) :
    final.tagged = list.tagged ∧ final.typedefName = list.typedefName ∧
      items.countP Specifier.namesType = 0 := by
  induction items generalizing list with
  | nil =>
      cases taken
      exact ⟨rfl, rfl, rfl⟩
  | cons item items ih =>
      obtain ⟨next, first, others⟩ := Option.bind_eq_some_iff.mp taken
      have still : next.isNamed = true := by
        rw [isNamed_take? list item next first, isNamed, Bool.true_or]
      obtain ⟨tagged, name, none⟩ := ih still others
      cases item with
      | word keyword =>
          obtain ⟨sameTagged, sameName, -, -⟩ := take?_word first
          rw [List.countP_cons_of_neg (by simp [Specifier.namesType])]
          exact ⟨tagged.trans sameTagged, name.trans sameName, none⟩
      | name _ | tagged _ _ =>
          obtain ⟨unnamed, -, -⟩ := take?_of_namesType rfl first
          rw [unnamed] at isNamed
          cases isNamed

/-- What names a type stands behind nothing that does, nor behind a type word, and in front
of nothing that does; it is what the list names at the end. -/
theorem of_take?_named (names : named.namesType = true)
    (taken : (front ++ named :: back).foldlM take? {} = some final) :
    front.any Specifier.isTypeWord = false ∧
      (front ++ named :: back).countP Specifier.namesType = 1 ∧
      ((∃ name, named = .name name ∧ final.tagged = none ∧ final.typedefName = some name) ∨
        ∃ kind type, named = .tagged kind type ∧ final.tagged = some type) := by
  rw [List.foldlM_append] at taken
  obtain ⟨before, earlier, taken⟩ := Option.bind_eq_some_iff.mp taken
  obtain ⟨behind, first, later⟩ := Option.bind_eq_some_iff.mp taken
  obtain ⟨unnamed, wordless, kinds⟩ := take?_of_namesType names first
  have noName : front.any Specifier.namesType = false := by
    rw [← isNamed_of_take? earlier, unnamed]
  have noWord : front.any Specifier.isTypeWord = false := by
    rw [← words_isEmpty_of_take? earlier, wordless, Bool.not_true]
  have nowNamed : behind.isNamed = true := by
    rw [isNamed_take? before named behind first, names, Bool.or_true]
  obtain ⟨tagged, name, none⟩ := named_of_take? nowNamed later
  have untagged : before.tagged = .none := by
    rw [isNamed, Bool.or_eq_false_iff] at unnamed
    exact Option.not_isSome_iff_eq_none.mp (by simp [unnamed.1])
  refine ⟨noWord, ?_, ?_⟩
  · have nothing : front.countP Specifier.namesType = 0 := by
      simpa [List.countP_eq_zero] using noName
    rw [List.countP_append, nothing, List.countP_cons_of_pos names, none]
  · obtain ⟨found, rfl, rfl⟩ | ⟨kind, type, rfl, rfl⟩ := kinds
    · exact .inl ⟨found, rfl, tagged.trans untagged, name⟩
    · exact .inr ⟨kind, type, rfl, tagged⟩

/-- A tagged type of which there is an account is one of the specifiers. -/
theorem mem_of_tagged {type : TypeId} (taken : items.foldlM take? {} = some final)
    (tagged : final.tagged = some type) : ∃ kind, .tagged kind type ∈ items := by
  have some : items.any Specifier.namesType = true := by
    rw [← isNamed_of_take? taken, isNamed, tagged, Option.isSome_some, Bool.true_or]
  obtain ⟨named, member, names⟩ := List.any_eq_true.mp some
  obtain ⟨front, back, rfl⟩ := List.append_of_mem member
  obtain ⟨-, -, ⟨text, rfl, untagged, -⟩ | ⟨kind, given, rfl, same⟩⟩ := of_take?_named names taken
  · cases untagged.symm.trans tagged
  · obtain rfl : given = type := Option.some.inj (same.symm.trans tagged)
    exact ⟨kind, member⟩

/-- There is another source than the one that names the type only if type words stand
behind that. -/
theorem sources_ne_one_iff (taken : items.foldlM take? {} = some final)
    (worded : items.countP Specifier.namesType = 0 → items.any Specifier.isTypeWord = true) :
    Specifier.sources items ≠ 1 ↔ ∃ front named back, items = front ++ named :: back ∧
      named.namesType = true ∧ back.any Specifier.isTypeWord = true := by
  constructor
  · intro more
    have some : items.countP Specifier.namesType ≠ 0 := by
      intro none
      rw [Specifier.sources, none, if_pos (worded none)] at more
      exact more rfl
    obtain ⟨named, member, names⟩ := List.countP_pos_iff.mp (Nat.pos_of_ne_zero some)
    obtain ⟨front, back, rfl⟩ := List.append_of_mem member
    obtain ⟨noWord, one, kinds⟩ := of_take?_named names taken
    refine ⟨front, named, back, rfl, names, ?_⟩
    have itself : named.isTypeWord = false := by
      obtain ⟨_, rfl, -⟩ | ⟨_, _, rfl, -⟩ := kinds <;> rfl
    by_contra noneBehind
    rw [Bool.not_eq_true] at noneBehind
    rw [Specifier.sources, one, List.any_append, List.any_cons, noWord, itself, noneBehind] at more
    exact more rfl
  · rintro ⟨front, named, back, rfl, names, words⟩
    obtain ⟨-, one, -⟩ := of_take?_named names taken
    have some : (front ++ named :: back).any Specifier.isTypeWord = true := by simp [words]
    rw [Specifier.sources, one, if_pos some]
    decide

end SpecifierList

/-! ## The type of the specifiers -/

section Given

variable {span : Span} {type : TypeId}

/-- Without a name of a type the words are there and say what it is. -/
theorem specifiedType_of_unnamed (taken : items.foldlM SpecifierList.take? {} = some list)
    (run : specifiedType list span tokens s = .ok type s')
    (none : items.countP Specifier.namesType = 0) :
    items.any Specifier.isTypeWord = true ∧ ∃ node, s'.arenas.type? type = some node ∧
      (Specifier.typeWords items).kind? = some node.kind := by
  have marked := SpecifierList.isNamed_of_take? taken
  rw [List.any_eq_false.mpr (List.countP_eq_zero.mp none), SpecifierList.isNamed,
    Bool.or_eq_false_iff] at marked
  obtain ⟨tagged, -⟩ | ⟨-, node, rfl, rfl, -, ⟨name, -⟩ | ⟨-, some, kind⟩⟩ :=
    specifiedType_ok run
  · simp [tagged] at marked
  · simp [name] at marked
  · have worded := SpecifierList.words_isEmpty_of_take? taken
    have words : list.words = Specifier.typeWords items :=
      SpecifierList.fold_of_take? SpecifierList.words_take? taken
    rw [some] at worded
    exact ⟨worded.symm, node, Arenas.type?_addType_self _ _, words ▸ kind⟩

/-- What names a type gives the one that it names. -/
theorem specifiedType_of_named (names : named.namesType = true)
    (taken : (front ++ named :: back).foldlM SpecifierList.take? {} = some list)
    (run : specifiedType list span tokens s = .ok type s') : named.Gives s'.arenas type := by
  obtain ⟨-, -, ⟨text, rfl, untagged, given⟩ | ⟨kind, found, rfl, given⟩⟩ :=
    SpecifierList.of_take?_named names taken
  · obtain ⟨tagged, -⟩ | ⟨-, node, rfl, rfl, -, ⟨-, kind, name⟩ | ⟨none, -⟩⟩ :=
      specifiedType_ok run
    · cases untagged.symm.trans tagged
    · exact ⟨node, Arenas.type?_addType_self _ _, kind, name.trans given⟩
    · cases none.symm.trans given
  · obtain ⟨tagged, -⟩ | ⟨none, -⟩ := specifiedType_ok run
    · exact Option.some.inj (tagged.symm.trans given)
    · cases none.symm.trans given

/-- The making of the type consumes nothing. -/
theorem specifiedType_position (run : specifiedType list span tokens s = .ok type s') :
    s'.position = s.position := by
  obtain ⟨-, rfl⟩ | ⟨-, node, rfl, -⟩ := specifiedType_ok run <;> rfl

end Given

/-- Every type that specifiers give has a source.  There is one only, unless type words stand
behind what names the type, which is then given without them. -/
theorem specifiers_source {value : Specifiers}
    (run : specifiers rules tokens s = .ok value s') :
    ∃ items t, Specified tokens rules s items t ∧ s'.position = t.position ∧
      1 ≤ Specifier.sources items ∧
      (∀ front named back, items = front ++ named :: back → named.namesType = true →
        items.countP Specifier.namesType = 1 ∧ front.any Specifier.isTypeWord = false ∧
          named.Gives s'.arenas value.type) ∧
      (items.countP Specifier.namesType = 0 → ∃ node, s'.arenas.type? value.type = some node ∧
        (Specifier.typeWords items).kind? = some node.kind) ∧
      (Specifier.sources items ≠ 1 ↔ ∃ front named back, items = front ++ named :: back ∧
        named.namesType = true ∧ back.any Specifier.isTypeWord = true) := by
  obtain ⟨items, t, list, span, specified, taken, types, -, -⟩ := specifiers_ok run
  have unnamed := specifiedType_of_unnamed taken types
  have single := SpecifierList.sources_ne_one_iff taken fun none => (unnamed none).1
  refine ⟨items, t, specified, specifiedType_position types, ?_, ?_,
    fun none => (unnamed none).2, single⟩
  · rw [Specifier.sources]
    rcases Nat.eq_zero_or_pos (items.countP Specifier.namesType) with none | some
    · rw [if_pos (unnamed none).1]
      exact Nat.le_add_left _ _
    · exact Nat.le_add_right_of_le some
  · rintro front named back rfl names
    obtain ⟨noWord, one, -⟩ := SpecifierList.of_take?_named names taken
    exact ⟨one, noWord, specifiedType_of_named names taken types⟩

end SyntaxGraph.Grammar

namespace SyntaxGraph.Program

open Grammar
open Token (Reading)

/-- A type word stands behind a structure. -/
def ignoredWordSource : String := "struct S \x7b int a; \x7d int x;"

def ignoredWordTokens : Tokens := (Reading.ofSource ignoredWordSource).tokens.toArray

theorem specifiers_source_ignoredWordSource :
    ∃ value s', specifiers (Rules.nested 11) ignoredWordTokens {} = .ok value s' ∧
      ∃ items t, Specified ignoredWordTokens (Rules.nested 11) {} items t ∧
        s'.position = t.position ∧ 1 ≤ Specifier.sources items ∧
        ∀ front named back, items = front ++ named :: back → named.namesType = true →
          items.countP Specifier.namesType = 1 ∧ named.Gives s'.arenas value.type := by
  have ended : seenAtEnd? (fun _ s => s.position)
      (specifiers (Rules.nested 11) ignoredWordTokens {}) = some 8 := by
    decide +kernel
  obtain ⟨value, s', run, -⟩ := ok_of_seenAtEnd? ended
  obtain ⟨items, t, specified, place, some, given, -⟩ := specifiers_source run
  refine ⟨value, s', run, items, t, specified, place, some, fun front named back split names => ?_⟩
  obtain ⟨one, -, gives⟩ := given front named back split names
  exact ⟨one, gives⟩

/-- The source is read, though its specifiers have two sources of a type. -/
theorem ignoredWordSource_read :
    (∃ p, read "t.c" ignoredWordSource = .ok p) ∧
      ∃ value s' items t, specifiers (Rules.nested 11) ignoredWordTokens {} = .ok value s' ∧
        Specified ignoredWordTokens (Rules.nested 11) {} items t ∧ s'.position = t.position ∧
        Specifier.sources items = 2 := by
  have parsed : (read "t.c" ignoredWordSource).toOption.map (·.decls.length) = some 1 := by
    decide +kernel
  have record : seenAtEnd? (fun _ s => s.position)
      (taggedSpecifier (Rules.nested 11) .struct ignoredWordTokens {}) = some 7 := by
    decide +kernel
  have ended : seenAtEnd? (fun _ s => s.position)
      (specifiers (Rules.nested 11) ignoredWordTokens {}) = some 8 := by
    decide +kernel
  have first : ignoredWordTokens.kind 0 = .keyword .structKw := by decide +kernel
  have behind : ignoredWordTokens.kind 7 = .keyword .intKw := by decide +kernel
  obtain ⟨p, reads, -⟩ := exists_read_of_map parsed
  obtain ⟨type, t, tagged, place⟩ := ok_of_seenAtEnd? record
  obtain ⟨value, s', run, last⟩ := ok_of_seenAtEnd? ended
  refine ⟨⟨p, reads⟩, value, s', [.tagged .struct type, .word .intKw],
    { t with position := t.position + 1 }, run, ?_, ?_, rfl⟩
  · exact .next (.tagged first rfl tagged) (.next (.word (place ▸ behind) rfl) (.done _))
  · rw [last, place]

end SyntaxGraph.Program
