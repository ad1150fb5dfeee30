import SyntaxGraph.Proofs.Token.Order
import SyntaxGraph.Proofs.Token.Scanned

/-!
# Tokens are as long as they can be

The text of a token, made longer at its end, is not read as one token: its scan sees no
further than it did in the source, and stops where it stopped there.  So a punctuator is the
longest one that begins where it stands, and words and numeric constants are whole: what
stands beside them does not belong to them.
-/

set_option autoImplicit false

namespace SyntaxGraph.Token

variable {source : List Char} {token : Token} {offset : Nat} {first : Char} {rest : List Char}
  {lexeme : Lexeme}

/-! ## One token -/

/-- The reading succeeds with one token, and this one covers all of the text. -/
def Reading.Single (reading : Reading) (text : List Char) : Prop :=
  reading.failure = none ∧ ∃ kind ≠ Kind.eof,
    reading.tokens = [⟨kind, .origin, Location.origin.past text⟩,
      ⟨.eof, Location.origin.past text, Location.origin.past text⟩]

/-- Where a token is scanned, no longer text is one token. -/
theorem Scanned.not_single (here : Scanned source token offset first rest lexeme)
    {count : Nat} (longer : lexeme.more < count) (inside : count ≤ rest.length) :
    ¬ (Reading.ofSource (String.ofList (first :: rest.take count))).Single
      (first :: rest.take count) := by
  rintro ⟨-, kind, -, single⟩
  obtain ⟨_, scanned⟩ := here.scanned
  have kept : scan true first (rest.take count) = .ok lexeme := by
    have fits : lexeme.more ≤ (rest.take count).length := by
      rw [List.length_take_of_le inside]
      exact longer.le
    have again := scan_front scanned here.kind (List.take_prefix count rest) fits .nil true
    rwa [List.append_nil] at again
  have text : (rest.take count).take lexeme.more = rest.take lexeme.more := by
    rw [List.take_take, Nat.min_eq_left longer.le]
  rw [Reading.ofSource, String.toList_ofList, Reading.ofChars_of_scan _ kept, text,
    Reading.prepend_token here.kind] at single
  have finish : Location.origin.past (first :: rest.take lexeme.more) =
      Location.origin.past (first :: rest.take count) :=
    congrArg Token.finish (List.cons.inj single).1
  obtain ⟨c, behind, split⟩ : ∃ c behind,
      first :: rest.take count = (first :: rest.take lexeme.more) ++ c :: behind := by
    obtain ⟨c, behind, some⟩ := List.exists_cons_of_ne_nil (l := (rest.take count).drop lexeme.more)
      (by
        refine List.ne_nil_of_length_pos ?_
        rw [List.length_drop, List.length_take_of_le inside]
        omega)
    refine ⟨c, behind, ?_⟩
    rw [← some, ← text, List.cons_append, List.take_append_drop]
  rw [split, Location.past_append] at finish
  exact absurd finish (Location.lt_past_cons _ c behind).ne

/-! ## Punctuators, words and numeric constants -/

theorem Punctuator.mem_all (mark : Punctuator) : mark ∈ all := by
  cases mark <;> decide

theorem Punctuator.all_sorted :
    all.Pairwise fun mark other => other.spelling.length ≤ mark.spelling.length := by
  decide +kernel

/-- The punctuator that is found is the longest one that begins the text. -/
theorem Punctuator.length_le_of_longest? {text : List Char} {mark other : Punctuator}
    (found : longest? text = some mark) (begins : other.spelling.toList <+: text) :
    other.spelling.length ≤ mark.spelling.length := by
  obtain ⟨-, before, after, listed, shorter⟩ := List.find?_eq_some_iff_append.mp found
  have sorted := all_sorted
  rw [listed] at sorted
  have place := other.mem_all
  rw [listed, List.mem_append, List.mem_cons] at place
  rcases place with earlier | rfl | later
  · have absent := shorter other earlier
    rw [List.isPrefixOf_iff_prefix.mpr begins] at absent
    cases absent
  · exact Nat.le_refl _
  · exact List.rel_of_pairwise_cons (List.pairwise_append.mp sorted).2.1 later

namespace Interval

/-- The character in front of the interval. -/
def before (i : Interval) (source : List Char) : Option Char := (source.take i.start).getLast?

/-- The character behind the interval. -/
def behind (i : Interval) (source : List Char) : Option Char := source[i.stop]?

end Interval

/-- A token of the kind is whole in the interval: no longer punctuator begins there; a word
has no further characters of words beside it; a numeric constant neither goes on behind the
interval, nor does a word end where its digits begin. -/
def Kind.Whole (source : List Char) (i : Interval) : Kind → Prop
  | .punctuator mark => ∀ other : Punctuator, other.spelling.toList <+: source.drop i.start →
      other.spelling.length ≤ mark.spelling.length
  | .identifier _ | .keyword _ => (∀ c ∈ i.text source, isWordPart c = true) ∧
      (∀ c ∈ i.before source, isWordPart c = false) ∧
      ∀ c ∈ i.behind source, isWordPart c = false
  | .number _ =>
      (∀ c ∈ i.before source, isWordPart c = true → source[i.start]? = some '.') ∧
      ∀ c ∈ i.behind source, isWordPart c = false ∧ c ≠ '.'
  | .string _ | .character _ | .eof => True

namespace Scanned

theorem behind_eq (here : Scanned source token offset first rest lexeme) :
    (Interval.ofText offset (first :: rest.take lexeme.more)).behind source =
      (rest.drop lexeme.more).head? := by
  rw [← drop_of_drop_append here.covered, List.head?_drop]
  rfl

theorem whole_word (here : Scanned source token offset first rest lexeme)
    (word : lexeme.category = .word) {kind : Kind}
    (named : (∃ name, kind = .identifier name) ∨ ∃ reserved, kind = .keyword reserved) :
    kind.Whole source (.ofText offset (first :: rest.take lexeme.more)) := by
  obtain ⟨fresh, scanned⟩ := here.scanned
  have reaches : Category.word.Reaches first rest lexeme.more := by
    have reaches := scan_reaches scanned
    rwa [word] at reaches
  have parts := word_admits reaches
  obtain ⟨letter, more⟩ := reaches
  have whole : (∀ c ∈ (Interval.ofText offset (first :: rest.take lexeme.more)).text source,
        isWordPart c = true) ∧
      (∀ c ∈ (Interval.ofText offset (first :: rest.take lexeme.more)).before source,
        isWordPart c = false) ∧
      ∀ c ∈ (Interval.ofText offset (first :: rest.take lexeme.more)).behind source,
        isWordPart c = false := by
    refine ⟨?_, fun c ends => ?_, fun c begins => ?_⟩
    · rwa [Interval.ofText_text here.covered]
    · by_contra part
      have other := here.parted c ends first rfl (Bool.of_not_eq_false part)
      rw [isWordPart_of_isWordStart letter] at other
      cases other
    · rw [here.behind_eq, more] at begins
      exact takeWhile_stops isWordPart rest c begins
  rcases named with ⟨name, rfl⟩ | ⟨reserved, rfl⟩
  · exact whole
  · exact whole

theorem whole_number (here : Scanned source token offset first rest lexeme)
    (number : lexeme.category = .number) (text : String) :
    (Kind.number text).Whole source (.ofText offset (first :: rest.take lexeme.more)) := by
  obtain ⟨fresh, scanned⟩ := here.scanned
  obtain ⟨begins, hex, more⟩ : (first.isDigit = true ∨ first = '.') ∧
      ∃ hex, lexeme.more = numberExtent hex first rest := by
    have reaches := scan_reaches scanned
    rwa [number] at reaches
  refine ⟨fun c ends part => ?_, fun c next => ?_⟩
  · rcases begins with digit | dot
    · have other := here.parted c ends first rfl part
      rw [isWordPart_of_isDigit digit] at other
      cases other
    · exact (getElem?_of_drop here.here).trans (congrArg some dot)
  · rw [here.behind_eq, more] at next
    exact numberExtent_stops hex first rest c next

theorem whole (here : Scanned source token offset first rest lexeme) :
    token.kind.Whole source (.ofText offset (first :: rest.take lexeme.more)) := by
  obtain ⟨fresh, scanned⟩ := here.scanned
  have reaches := scan_reaches scanned
  have found := here.kind
  cases category : lexeme.category with
  | blanks | comment | directive =>
      rw [category] at found
      cases found
  | number =>
      rw [category] at found
      rw [← Option.some.inj found]
      exact here.whole_number category _
  | quoted quote =>
      rw [category] at found
      cases quote <;> rw [← Option.some.inj found] <;> trivial
  | word =>
      refine here.whole_word category ?_
      rw [category, Category.kind?] at found
      split at found
      · exact .inr ⟨_, (Option.some.inj found).symm⟩
      · exact .inl ⟨_, (Option.some.inj found).symm⟩
  | punctuator mark =>
      rw [category] at found reaches
      rw [← Option.some.inj found]
      intro other begins
      change other.spelling.toList <+: source.drop offset at begins
      rw [here.here] at begins
      exact Punctuator.length_le_of_longest? reaches begins

end Scanned

/-- Every token of a source but the end of the file stands at an interval that is as long as
can be: from its start up to any later offset, the source is not one token; and what the
token is written with is whole. -/
theorem Reading.ofSource_munch (source : String) :
    ∀ token ∈ (ofSource source).tokens, token.kind ≠ .eof → ∃ i : Interval,
      IsToken source.toList token i ∧
      (∀ stop, i.stop < stop → stop ≤ source.toList.length →
        ¬ (ofSource (String.ofList (Interval.text ⟨i.start, stop⟩ source.toList))).Single
          (Interval.text ⟨i.start, stop⟩ source.toList)) ∧
      token.kind.Whole source.toList i := by
  intro token member inner
  obtain ⟨offset, first, rest, lexeme, here⟩ := ofSource_scanned token member inner
  have isToken := here.isToken
  have complete := here.whole
  have bound : source.toList.length = offset + (rest.length + 1) := by
    have length := congrArg List.length here.here
    rw [List.length_drop, List.length_cons] at length
    omega
  have ends : (Interval.ofText offset (first :: rest.take lexeme.more)).stop =
      offset + (lexeme.more + 1) := congrArg (offset + ·) here.length
  refine ⟨_, isToken, fun stop longer inside => ?_, complete⟩
  rw [ends] at longer
  obtain ⟨count, rfl⟩ : ∃ count, stop = offset + (count + 1) := ⟨stop - offset - 1, by omega⟩
  have text : Interval.text ⟨offset, offset + (count + 1)⟩ source.toList =
      first :: rest.take count := by
    change (source.toList.drop offset).take (offset + (count + 1) - offset) = _
    rw [here.here, Nat.add_sub_cancel_left, List.take_succ_cons]
  have further : lexeme.more < count := by omega
  have fits : count ≤ rest.length := by omega
  have single := here.not_single further fits
  rwa [← text] at single

/-- An operator of three characters, a sign behind a hexadecimal constant, and a word that
begins like a keyword. -/
def longTokensSource : String := "while1>>=0x1e+.5"

theorem Reading.ofSource_munch_longTokensSource :
    (ofSource longTokensSource).failure = none ∧ ∃ i : Interval,
      IsToken longTokensSource.toList ⟨.punctuator .shrEq, ⟨1, 7⟩, ⟨1, 10⟩⟩ i ∧
      (∀ stop, i.stop < stop → stop ≤ longTokensSource.toList.length →
        ¬ (ofSource (String.ofList (Interval.text ⟨i.start, stop⟩ longTokensSource.toList))).Single
          (Interval.text ⟨i.start, stop⟩ longTokensSource.toList)) ∧
      (Kind.punctuator .shrEq).Whole longTokensSource.toList i := by
  have whole : (ofSource longTokensSource).failure = none := by decide +kernel
  have member : ⟨.punctuator .shrEq, ⟨1, 7⟩, ⟨1, 10⟩⟩ ∈ (ofSource longTokensSource).tokens := by
    decide +kernel
  exact ⟨whole, ofSource_munch longTokensSource _ member (by decide)⟩

end SyntaxGraph.Token
