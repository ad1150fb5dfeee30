import Mathlib.Data.List.Forall2
import SyntaxGraph.Proofs.Token.Ending
import SyntaxGraph.Proofs.Token.Extent

/-!
# Where tokens and comments stand in a source

An offset counts the characters in front of it, and its place is a line and a column: one
more than the newlines in front of it, and one more than the characters since the last of
them.  An interval covers the characters from one offset up to another.  A layout of a
source gives each token, each comment and each directive an interval of its own, such that
what the interval covers is what the token or the comment is written with, and such that
only blanks are left over.  A reading without a failure has a layout.
-/

set_option autoImplicit false

namespace SyntaxGraph

namespace Token

variable {source : List Char} {offset : Nat} {c : Char}

/-! ## Places -/

/-- The characters between the start of the line and an offset, the last one first. -/
def lineBefore (source : List Char) (offset : Nat) : List Char :=
  (source.take offset).reverse.takeWhile (· ≠ '\n')

/-- The line and the column of an offset. -/
def placeAt (source : List Char) (offset : Nat) : Location where
  line := 1 + (source.take offset).count '\n'
  column := 1 + (lineBefore source offset).length

/-- Nothing but blanks stands on the line in front of the offset. -/
def LineStart (source : List Char) (offset : Nat) : Prop :=
  ∀ c ∈ lineBefore source offset, isBlank c = true

theorem take_succ_of_getElem? (found : source[offset]? = some c) :
    source.take (offset + 1) = source.take offset ++ [c] := by
  rw [List.take_add_one, found]
  rfl

theorem lineBefore_succ (found : source[offset]? = some c) :
    lineBefore source (offset + 1) = if c = '\n' then [] else c :: lineBefore source offset := by
  unfold lineBefore
  rw [take_succ_of_getElem? found, List.reverse_append, List.reverse_singleton,
    List.singleton_append, List.takeWhile_cons]
  by_cases newline : c = '\n' <;> simp [newline]

theorem placeAt_zero : placeAt source 0 = .origin := rfl

theorem placeAt_succ (found : source[offset]? = some c) :
    placeAt source (offset + 1) = (placeAt source offset).after c := by
  unfold placeAt Location.after
  rw [lineBefore_succ found, take_succ_of_getElem? found, List.count_append]
  by_cases newline : c = '\n'
  · subst newline
    simp [Nat.add_assoc]
  · have other : [c].count '\n' = 0 := List.count_eq_zero.mpr (by simpa using Ne.symm newline)
    simp [newline, other, Nat.add_assoc]

theorem LineStart.zero : LineStart source 0 := by
  intro c member
  cases member

theorem LineStart.succ (found : source[offset]? = some c)
    (blank : c = '\n' ∨ LineStart source offset ∧ isBlank c = true) :
    LineStart source (offset + 1) := by
  unfold LineStart
  rw [lineBefore_succ found]
  by_cases newline : c = '\n'
  · simp [newline]
  · obtain ⟨start, blank⟩ := blank.resolve_left newline
    rw [if_neg newline]
    exact List.forall_mem_cons.mpr ⟨blank, start⟩

/-! What stands at an offset is the first character of the text from there on. -/

theorem getElem?_of_drop {text : List Char} (here : source.drop offset = c :: text) :
    source[offset]? = some c := by
  rw [← List.head?_drop, here]
  rfl

theorem drop_succ_of_drop {text : List Char} (here : source.drop offset = c :: text) :
    source.drop (offset + 1) = text := by
  rw [← List.drop_drop, here]
  rfl

theorem drop_of_drop_append {text rest : List Char} (here : source.drop offset = text ++ rest) :
    source.drop (offset + text.length) = rest := by
  rw [← List.drop_drop, here, List.drop_left]

theorem placeAt_past {text rest : List Char} (here : source.drop offset = text ++ rest) :
    (placeAt source offset).past text = placeAt source (offset + text.length) := by
  induction text generalizing offset with
  | nil => rfl
  | cons c text ih =>
      have found := getElem?_of_drop here
      rw [Location.past_cons, ← placeAt_succ found, ih (drop_succ_of_drop here),
        List.length_cons, Nat.add_assoc, Nat.add_comm 1]

theorem LineStart.past {text rest : List Char} {fresh : Bool}
    (here : source.drop offset = text ++ rest) (start : fresh = true → LineStart source offset)
    (after : freshAfter fresh text = true) : LineStart source (offset + text.length) := by
  induction text generalizing offset fresh with
  | nil => exact start after
  | cons c text ih =>
      have found := getElem?_of_drop here
      have next : (c = '\n' || (fresh && isBlank c)) = true → LineStart source (offset + 1) := by
        intro stays
        rcases Bool.or_eq_true_iff.mp stays with newline | both
        · exact .succ found (.inl (of_decide_eq_true newline))
        · obtain ⟨atStart, blank⟩ := Bool.and_eq_true_iff.mp both
          exact .succ found (.inr ⟨start atStart, blank⟩)
      have reached := ih (drop_succ_of_drop here) next after
      rwa [List.length_cons, ← Nat.add_assoc, Nat.add_right_comm]

/-! ## Intervals -/

/-- The characters from the offset `start` up to but not including the offset `stop`. -/
structure Interval where
  start : Nat
  stop : Nat
deriving DecidableEq

namespace Interval

def text (i : Interval) (source : List Char) : List Char :=
  (source.drop i.start).take (i.stop - i.start)

def Contains (i : Interval) (offset : Nat) : Prop := i.start ≤ offset ∧ offset < i.stop

def Before (i j : Interval) : Prop := i.stop ≤ j.start

def Apart (i j : Interval) : Prop := i.Before j ∨ j.Before i

/-- The interval is not empty and ends inside the source. -/
def Within (i : Interval) (source : List Char) : Prop :=
  i.start < i.stop ∧ i.stop ≤ source.length

end Interval

/-- The spellings that a token of this kind may be written with. -/
def Kind.spellings : Kind → List String
  | .number text | .character text | .string text | .identifier text => [text]
  | .keyword word => word.spellings
  | .punctuator mark => [mark.spelling]
  | .eof => []

/-- The interval covers the token, which records its places. -/
structure IsToken (source : List Char) (token : Token) (i : Interval) : Prop where
  within : i.Within source
  start : token.start = placeAt source i.start
  finish : token.finish = placeAt source i.stop
  spelled : String.ofList (i.text source) ∈ token.kind.spellings

/-- The interval covers the comment, which records the place where it starts. -/
structure IsComment (source : List Char) (comment : Comment) (i : Interval) : Prop where
  within : i.Within source
  start : comment.start = placeAt source i.start
  text : comment.text = String.ofList (i.text source)

/-- The interval covers a directive: a number sign with only blanks before it on its line,
and what follows up to the end of the source or to the first newline that no backslash
precedes. -/
structure IsDirective (source : List Char) (i : Interval) : Prop where
  within : i.Within source
  sign : source[i.start]? = some '#'
  lineStart : LineStart source i.start
  continued : ∀ offset, i.Contains offset → offset + 1 < i.stop → source[offset]? = some '\n' →
    source[offset - 1]? = some '\\'
  ends : i.stop = source.length ∨
    source[i.stop - 1]? = some '\n' ∧ source[i.stop - 2]? ≠ some '\\'

/-- The intervals of the tokens, of the comments and of the directives of a source. -/
structure Intervals where
  tokens : List Interval := []
  comments : List Interval := []
  directives : List Interval := []
deriving DecidableEq

def Intervals.all (intervals : Intervals) : List Interval :=
  intervals.tokens ++ intervals.comments ++ intervals.directives

/-- From `offset` on, the intervals do not meet, and whatever is in none of them is
blank. -/
structure Spread (source : List Char) (offset : Nat) (intervals : List Interval) : Prop where
  behind : ∀ i ∈ intervals, offset ≤ i.start
  apart : intervals.Pairwise Interval.Apart
  blank : ∀ place c, offset ≤ place → source[place]? = some c →
    (∃ i ∈ intervals, i.Contains place) ∨ isBlank c = true

/-- From `offset` on, the intervals cover these tokens and comments, each in their
order. -/
structure Layout (source : List Char) (offset : Nat) (tokens : List Token)
    (comments : List Comment) (intervals : Intervals) : Prop where
  tokens : List.Forall₂ (IsToken source) tokens intervals.tokens
  comments : List.Forall₂ (IsComment source) comments intervals.comments
  directives : ∀ i ∈ intervals.directives, IsDirective source i
  tokensInOrder : intervals.tokens.Pairwise Interval.Before
  commentsInOrder : intervals.comments.Pairwise Interval.Before
  spread : Spread source offset intervals.all

/-! ## Putting a lexeme in front -/

/-- The interval that a text covers at an offset. -/
def Interval.ofText (offset : Nat) (text : List Char) : Interval := ⟨offset, offset + text.length⟩

section

variable {text rest : List Char} {intervals : List Interval}

theorem Interval.ofText_text (here : source.drop offset = text ++ rest) :
    (ofText offset text).text source = text := by
  change (source.drop offset).take (offset + text.length - offset) = text
  rw [here, Nat.add_sub_cancel_left, List.take_left]

theorem Interval.ofText_within (here : source.drop offset = text ++ rest) (some : text ≠ []) :
    (ofText offset text).Within source := by
  have length := congrArg List.length here
  rw [List.length_drop, List.length_append] at length
  have positive := List.length_pos_iff.mpr some
  constructor <;> simp only [ofText] <;> omega

theorem getElem?_of_drop_append (here : source.drop offset = text ++ rest) {index : Nat}
    (inside : index < text.length) : source[offset + index]? = text[index]? := by
  rw [← List.getElem?_drop, here, List.getElem?_append_left inside]

theorem Spread.perm {others : List Interval} (spread : Spread source offset intervals)
    (same : intervals.Perm others) : Spread source offset others where
  behind i member := spread.behind i (same.mem_iff.mpr member)
  apart := (same.pairwise_iff fun apart => apart.symm).mp spread.apart
  blank place c further found := by
    rcases spread.blank place c further found with ⟨i, member, inside⟩ | blank
    · exact .inl ⟨i, same.mem_iff.mp member, inside⟩
    · exact .inr blank

theorem Spread.cons (spread : Spread source (offset + text.length) intervals) :
    Spread source offset (Interval.ofText offset text :: intervals) where
  behind := by
    refine List.forall_mem_cons.mpr ⟨Nat.le_refl _, fun i member => ?_⟩
    exact Nat.le_trans (Nat.le_add_right _ _) (spread.behind i member)
  apart := List.pairwise_cons.mpr ⟨fun i member => .inl (spread.behind i member), spread.apart⟩
  blank place c further found := by
    rcases Nat.lt_or_ge place (offset + text.length) with inside | beyond
    · exact .inl ⟨_, List.mem_cons_self, further, inside⟩
    · rcases spread.blank place c beyond found with ⟨i, member, inside⟩ | blank
      · exact .inl ⟨i, List.mem_cons_of_mem _ member, inside⟩
      · exact .inr blank

theorem Spread.blanks (spread : Spread source (offset + text.length) intervals)
    (here : source.drop offset = text ++ rest) (blank : ∀ c ∈ text, isBlank c = true) :
    Spread source offset intervals where
  behind i member := Nat.le_trans (Nat.le_add_right _ _) (spread.behind i member)
  apart := spread.apart
  blank place c further found := by
    rcases Nat.lt_or_ge place (offset + text.length) with inside | beyond
    · obtain ⟨index, rfl⟩ := Nat.exists_eq_add_of_le further
      rw [getElem?_of_drop_append here (by omega)] at found
      exact .inr (blank c (List.mem_of_getElem? found))
    · exact spread.blank place c beyond found

end

namespace Layout

variable {text rest : List Char} {tokens : List Token} {comments : List Comment}
  {intervals : Intervals} {token : Token} {comment : Comment}

theorem before_of_mem {i : Interval} {others : List Interval}
    (layout : Layout source (offset + text.length) tokens comments intervals)
    (inside : others ⊆ intervals.all) (member : i ∈ others) :
    (Interval.ofText offset text).Before i :=
  layout.spread.behind i (inside member)

theorem token_cons (layout : Layout source (offset + text.length) tokens comments intervals)
    (covers : IsToken source token (.ofText offset text)) :
    Layout source offset (token :: tokens) comments
      { intervals with tokens := .ofText offset text :: intervals.tokens } where
  tokens := .cons covers layout.tokens
  comments := layout.comments
  directives := layout.directives
  tokensInOrder := by
    refine List.pairwise_cons.mpr ⟨fun i => layout.before_of_mem ?_, layout.tokensInOrder⟩
    simp [Intervals.all]
  commentsInOrder := layout.commentsInOrder
  spread := layout.spread.cons

theorem comment_cons (layout : Layout source (offset + text.length) tokens comments intervals)
    (covers : IsComment source comment (.ofText offset text)) :
    Layout source offset tokens (comment :: comments)
      { intervals with comments := .ofText offset text :: intervals.comments } where
  tokens := layout.tokens
  comments := .cons covers layout.comments
  directives := layout.directives
  tokensInOrder := layout.tokensInOrder
  commentsInOrder := by
    refine List.pairwise_cons.mpr ⟨fun i => layout.before_of_mem ?_, layout.commentsInOrder⟩
    simp [Intervals.all]
  spread := by
    refine layout.spread.cons.perm ?_
    simpa [Intervals.all] using List.perm_middle.symm

theorem directive_cons (layout : Layout source (offset + text.length) tokens comments intervals)
    (covers : IsDirective source (.ofText offset text)) :
    Layout source offset tokens comments
      { intervals with directives := .ofText offset text :: intervals.directives } where
  tokens := layout.tokens
  comments := layout.comments
  directives := List.forall_mem_cons.mpr ⟨covers, layout.directives⟩
  tokensInOrder := layout.tokensInOrder
  commentsInOrder := layout.commentsInOrder
  spread := layout.spread.cons.perm List.perm_middle.symm

theorem skip_blanks (layout : Layout source (offset + text.length) tokens comments intervals)
    (here : source.drop offset = text ++ rest) (blank : ∀ c ∈ text, isBlank c = true) :
    Layout source offset tokens comments intervals :=
  { layout with spread := layout.spread.blanks here blank }

theorem finished (ended : source.drop offset = []) : Layout source offset [] [] {} where
  tokens := .nil
  comments := .nil
  directives := by simp
  tokensInOrder := .nil
  commentsInOrder := .nil
  spread :=
    { behind := by simp [Intervals.all]
      apart := .nil
      blank := fun place c further found => by
        have beyond := List.drop_eq_nil_iff.mp ended
        rw [List.getElem?_eq_none (Nat.le_trans beyond further)] at found
        cases found }

end Layout

/-! ## Lexemes -/

theorem Keyword.ofSpelling?_spellings {text : String} {word : Keyword}
    (found : ofSpelling? text = some word) : text ∈ word.spellings := by
  have spelled := List.find?_some found
  exact List.contains_iff_mem.mp spelled

/-- A token is spelled by what it covers. -/
theorem Category.kind?_spelled {category : Category} {fresh : Bool} {first : Char}
    {rest : List Char} {more : Nat} {kind : Kind}
    (describes : category.Describes fresh first rest more)
    (found : category.kind? (String.ofList (first :: rest.take more)) = some kind) :
    String.ofList (first :: rest.take more) ∈ kind.spellings := by
  unfold kind? at found
  split at found
  · cases found
  · cases found
  · cases found
  · cases found
    exact List.mem_singleton_self _
  · cases found
    exact List.mem_singleton_self _
  · cases found
    exact List.mem_singleton_self _
  · split at found
    · next word reserved =>
        cases found
        exact Keyword.ofSpelling?_spellings reserved
    · cases found
      exact List.mem_singleton_self _
  · cases found
    exact List.mem_singleton.mpr describes

/-- Only blanks, comments and directives are no tokens. -/
theorem Category.kind?_eq_none {category : Category} {text : String}
    (none : category.kind? text = none) :
    category = .blanks ∨ category = .comment ∨ category = .directive := by
  cases category with
  | blanks => exact .inl rfl
  | comment => exact .inr (.inl rfl)
  | directive => exact .inr (.inr rfl)
  | number => cases none
  | quoted quote => cases quote <;> cases none
  | word =>
      unfold kind? at none
      dsimp only at none
      split at none <;> cases none
  | punctuator mark => cases none

/-- What the extent of a directive says of its characters holds of the source. -/
theorem directive_covers {rest : List Char} (here : source.drop offset = '#' :: rest)
    (start : LineStart source offset) :
    IsDirective source (.ofText offset ('#' :: rest.take (directiveExtent rest))) := by
  have split : source.drop offset = ('#' :: rest.take (directiveExtent rest)) ++
      rest.drop (directiveExtent rest) := by
    rw [here, List.cons_append, List.take_append_drop]
  have stop : (Interval.ofText offset ('#' :: rest.take (directiveExtent rest))).stop =
      offset + (directiveExtent rest + 1) := by
    have inside := directiveExtent_le rest
    simp only [Interval.ofText, List.length_cons, List.length_take, Nat.min_eq_left inside]
  have whole := congrArg List.length here
  rw [List.length_drop, List.length_cons] at whole
  have behind (index : Nat) : source[offset + (index + 1)]? = rest[index]? := by
    rw [← List.getElem?_drop, here, List.getElem?_cons_succ]
  refine ⟨Interval.ofText_within split (by simp), getElem?_of_drop here, start, ?_, ?_⟩
  · intro place inner before newline
    obtain ⟨index, rfl⟩ : ∃ index, place = offset + index := Nat.exists_eq_add_of_le inner.1
    rw [stop] at before
    match index with
    | 0 =>
        rw [Nat.add_zero, getElem?_of_drop here] at newline
        cases newline
    | index + 1 =>
        rw [behind] at newline
        obtain ⟨last, rfl, backslash⟩ := directiveExtent_continued (by omega) newline
        rwa [← behind] at backslash
  · rw [stop]
    rcases directiveExtent_ends rest with toEnd | ⟨last, extent, newline, bare⟩
    · exact .inl (by omega)
    · rw [extent]
      refine .inr ⟨(behind last).trans newline, ?_⟩
      match last with
      | 0 =>
          change source[offset]? ≠ _
          rw [getElem?_of_drop here]
          decide
      | last + 1 =>
          change source[offset + (last + 1)]? ≠ _
          rw [behind]
          exact bare last rfl

/-! ## Readings -/

theorem placeAt_end (ended : source.drop offset = []) :
    placeAt source offset = placeAt source source.length := by
  have beyond := List.drop_eq_nil_iff.mp ended
  unfold placeAt lineBefore
  rw [List.take_of_length_le beyond, List.take_length]

theorem Reading.ofChars_layout (source : List Char) (place : Location) (fresh : Bool)
    (text : List Char) : ∀ offset, source.drop offset = text → place = placeAt source offset →
      (fresh = true → LineStart source offset) → (ofChars place fresh text).failure = none →
      ∃ front intervals, (ofChars place fresh text).tokens =
          front ++ [⟨.eof, placeAt source source.length, placeAt source source.length⟩] ∧
        (∀ token ∈ front, token.kind ≠ .eof) ∧
        Layout source offset front (ofChars place fresh text).comments intervals := by
  fun_induction ofChars place fresh text with
  | case1 place fresh =>
      rintro offset ended rfl - -
      refine ⟨[], {}, ?_, by simp, .finished ended⟩
      rw [← placeAt_end ended]
      rfl
  | case2 place fresh first rest error scanned =>
      rintro offset - - - whole
      cases whole
  | case3 place fresh first rest lexeme scanned covered next ih =>
      rintro offset here rfl start whole
      obtain ⟨-, describes⟩ := scan_fits scanned
      have split : source.drop offset = covered ++ rest.drop lexeme.more := by
        rw [here, List.cons_append, List.take_append_drop]
      have reached : next = placeAt source (offset + covered.length) := placeAt_past split
      rw [prepend_failure] at whole
      obtain ⟨front, intervals, tokens, inner, layout⟩ :=
        ih (offset + covered.length) (drop_of_drop_append split) reached
          (LineStart.past split start) whole
      have within : (Interval.ofText offset covered).Within source :=
        Interval.ofText_within split (by simp [covered])
      have written : (Interval.ofText offset covered).text source = covered :=
        Interval.ofText_text split
      unfold prepend
      dsimp only
      split
      · next kind found =>
          have spelled : String.ofList covered ∈ kind.spellings :=
            Category.kind?_spelled describes found
          rw [← written] at spelled
          have token : IsToken source ⟨kind, placeAt source offset, next⟩
              (.ofText offset covered) := ⟨within, rfl, reached, spelled⟩
          refine ⟨_ :: front, _, by rw [tokens]; rfl, ?_, layout.token_cons token⟩
          exact List.forall_mem_cons.mpr ⟨Category.kind?_ne_eof found, inner⟩
      · next none =>
          obtain ⟨category, more⟩ := lexeme
          rcases Category.kind?_eq_none none with rfl | rfl | rfl
          · exact ⟨front, _, tokens, inner, layout.skip_blanks split describes⟩
          · have comment : IsComment source ⟨String.ofList covered, placeAt source offset⟩
                (.ofText offset covered) := ⟨within, rfl, by rw [written]⟩
            exact ⟨front, _, tokens, inner, layout.comment_cons comment⟩
          · obtain ⟨rfl, atStart, rfl⟩ := describes
            have directive := directive_covers here (start atStart)
            exact ⟨front, _, tokens, inner, layout.directive_cons directive⟩

/-- A source that is read without a failure has a layout: every token but the last one and
every comment has an interval, which its places name and which covers what it is written
with; the intervals follow each other in the order of the tokens and of the comments, do
not meet, and leave out nothing but blanks and directives.  The last token, and no other
one, is the end of the file, at the end of the source. -/
theorem Reading.ofSource_layout {source : String}
    (whole : (ofSource source).failure = none) :
    ∃ front intervals, (ofSource source).tokens =
        front ++ [⟨.eof, placeAt source.toList source.toList.length,
          placeAt source.toList source.toList.length⟩] ∧
      (∀ token ∈ front, token.kind ≠ .eof) ∧
      Layout source.toList 0 front (ofSource source).comments intervals :=
  ofChars_layout source.toList .origin true source.toList 0 rfl placeAt_zero.symm
    (fun _ => .zero) whole

/-- A directive that goes on behind a backslash, two spellings of keywords, a wide literal
with an escape, and a comment over two lines. -/
def mixedSource : String :=
  " # define A \\\n  1\n__inline signed x = L'\\'' /* a\n b */ >>= .5e+3; // end"

theorem Reading.ofSource_layout_mixedSource :
    (ofSource mixedSource).failure = none ∧
      ∃ front intervals, (ofSource mixedSource).tokens =
          front ++ [⟨.eof, placeAt mixedSource.toList mixedSource.toList.length,
            placeAt mixedSource.toList mixedSource.toList.length⟩] ∧
        front.length = 8 ∧ intervals.comments.length = 2 ∧
        Layout mixedSource.toList 0 front (ofSource mixedSource).comments intervals := by
  have whole : (ofSource mixedSource).failure = none := by decide +kernel
  have tokenCount : (ofSource mixedSource).tokens.length = 9 := by decide +kernel
  have commentCount : (ofSource mixedSource).comments.length = 2 := by decide +kernel
  obtain ⟨front, intervals, tokens, -, layout⟩ := ofSource_layout whole
  have frontCount : front.length = 8 := by
    rw [tokens, List.length_append] at tokenCount
    exact Nat.succ.inj tokenCount
  exact ⟨whole, front, intervals, tokens, frontCount,
    layout.comments.length_eq.symm.trans commentCount, layout⟩

end Token

end SyntaxGraph
