import SyntaxGraph.Proofs.Token.Ending
import SyntaxGraph.Proofs.Token.Front

/-!
# Tokens written out and read again

The tokens of a text can be written with one space between each two of them, whatever stood
between them in the text.  Every kind that a reading can give stands alone: its spelling is
scanned as a token of this kind wherever nothing or a blank follows.  So what has been
written out is read as the same kinds, without comments.
-/

set_option autoImplicit false

namespace SyntaxGraph.Token

/-- Tokens of these kinds, written by their spelling with single spaces between. -/
def writing (kinds : List Kind) : String := " ".intercalate (kinds.map Kind.spelling)

/-- The spelling is one token of this kind wherever nothing or a blank stands behind it. -/
def Kind.StandsAlone (kind : Kind) : Prop :=
  ∃ first body category, kind.spelling.toList = first :: body ∧
    category.kind? kind.spelling = some kind ∧
    ∀ fresh behind, Seam behind →
      scan fresh first (body ++ behind) = .ok ⟨category, body.length⟩

/-- A keyword is read from the spelling that it is printed with. -/
theorem Keyword.standsAlone (word : Keyword) : (Kind.keyword word).StandsAlone := by
  have alone : ∃ first body, word.spelling.toList = first :: body ∧
      scan true first body = .ok ⟨.word, body.length⟩ ∧
      Category.word.kind? word.spelling = some (.keyword word) := by
    cases word <;> exact ⟨_, _, rfl, rfl, rfl⟩
  obtain ⟨first, body, spelled, scanned, reserved⟩ := alone
  exact ⟨first, body, .word, spelled, reserved, fun fresh behind seam =>
    scan_front scanned reserved (List.prefix_refl body) (Nat.le_refl _) seam fresh⟩

/-- Apart from keywords, what a token covers is its spelling. -/
theorem Category.spelling_of_kind? {category : Category} {kind : Kind} {fresh : Bool}
    {first : Char} {rest : List Char} {more : Nat}
    (describes : category.Describes fresh first rest more)
    (token : category.kind? (String.ofList (first :: rest.take more)) = some kind) :
    kind.spelling = String.ofList (first :: rest.take more) ∨ ∃ word, kind = .keyword word := by
  unfold kind? at token
  split at token
  · cases token
  · cases token
  · cases token
  · cases token
    exact .inl rfl
  · cases token
    exact .inl rfl
  · cases token
    exact .inl rfl
  · split at token
    · cases token
      exact .inr ⟨_, rfl⟩
    · cases token
      exact .inl rfl
  · cases token
    exact .inl describes.symm

/-- A token that has been scanned stands alone. -/
theorem scan_standsAlone {fresh : Bool} {first : Char} {rest : List Char} {lexeme : Lexeme}
    {kind : Kind} (scanned : scan fresh first rest = .ok lexeme)
    (token : lexeme.category.kind? (String.ofList (first :: rest.take lexeme.more)) = some kind) :
    kind.StandsAlone := by
  obtain ⟨inside, describes⟩ := scan_fits scanned
  rcases Category.spelling_of_kind? describes token with spelled | ⟨word, rfl⟩
  · have length : (rest.take lexeme.more).length = lexeme.more := List.length_take_of_le inside
    refine ⟨first, rest.take lexeme.more, lexeme.category, ?_, ?_, fun fresh' behind seam => ?_⟩
    · rw [spelled, String.toList_ofList]
    · rw [spelled, token]
    · rw [scan_front scanned token (List.take_prefix _ rest) length.ge seam fresh', length]
  · exact word.standsAlone

namespace Reading

def kinds (reading : Reading) : List Kind := reading.tokens.map Token.kind

/-- The kinds of the tokens that are written with a text. -/
def words (reading : Reading) : List Kind := reading.kinds.filter (· ≠ .eof)

theorem prepend_kinds (category : Category) (text : List Char) (start finish : Location)
    (reading : Reading) :
    (reading.prepend category text start finish).kinds =
      (category.kind? (String.ofList text)).toList ++ reading.kinds := by
  unfold prepend
  dsimp only
  split
  · next kind token => rw [token]; rfl
  · next token =>
      rw [token]
      split <;> rfl

/-- Every kind that a reading gives, but for the end of the file, stands alone. -/
theorem standsAlone_of_mem (place : Location) (fresh : Bool) (text : List Char) :
    ∀ kind ∈ (ofChars place fresh text).kinds, kind ≠ .eof → kind.StandsAlone := by
  fun_induction ofChars place fresh text with
  | case1 place fresh =>
      intro kind member inner
      exact absurd (List.mem_singleton.mp member) inner
  | case2 place fresh first rest error scanned =>
      intro kind member
      cases member
  | case3 place fresh first rest lexeme scanned covered next ih =>
      intro kind member inner
      rw [prepend_kinds, List.mem_append, Option.mem_toList] at member
      rcases member with token | later
      · exact scan_standsAlone scanned token
      · exact ih kind later inner

/-- The reading succeeds, and it gives these kinds and the end of the file, and no comments. -/
structure Consists (reading : Reading) (kinds : List Kind) : Prop where
  whole : reading.failure = none
  kinds : reading.kinds = kinds ++ [.eof]
  comments : reading.comments = []

theorem consists_alone {kind : Kind} {kinds : List Kind} {behind : List Char}
    (alone : kind.StandsAlone) (seam : Seam behind)
    (later : ∀ place fresh, (ofChars place fresh behind).Consists kinds) (place : Location)
    (fresh : Bool) :
    (ofChars place fresh (kind.spelling.toList ++ behind)).Consists (kind :: kinds) := by
  obtain ⟨first, body, category, spelled, token, scanned⟩ := alone
  have covered : String.ofList (first :: body) = kind.spelling := by
    rw [← spelled, String.ofList_toList]
  rw [spelled, List.cons_append, ofChars_of_scan place (scanned fresh behind seam)]
  dsimp only
  rw [List.take_left, List.drop_left]
  obtain ⟨whole, kinds_eq, comments⟩ := later (place.past (first :: body))
    (freshAfter fresh (first :: body))
  refine ⟨by rw [prepend_failure, whole], ?_, ?_⟩
  · rw [prepend_kinds, covered, token, kinds_eq]
    rfl
  · rw [← comments]
    unfold prepend
    dsimp only
    rw [covered, token]

theorem consists_writing {kinds : List Kind} (alone : ∀ kind ∈ kinds, kind.StandsAlone) :
    ∀ place fresh, (ofChars place fresh (writing kinds).toList).Consists kinds := by
  induction kinds with
  | nil =>
      intro place fresh
      have empty : (writing []).toList = [] := rfl
      rw [empty, ofChars]
      exact ⟨rfl, rfl, rfl⟩
  | cons kind kinds ih =>
      obtain ⟨here, others⟩ := List.forall_mem_cons.mp alone
      cases kinds with
      | nil =>
          have single : (writing [kind]).toList = kind.spelling.toList ++ [] := by
            simp [writing]
          rw [single]
          refine consists_alone here .nil fun place fresh => ?_
          rw [ofChars]
          exact ⟨rfl, rfl, rfl⟩
      | cons next kinds =>
          have spaced : (writing (kind :: next :: kinds)).toList =
              kind.spelling.toList ++ ' ' :: (writing (next :: kinds)).toList := by
            simp [writing, String.toList_intercalate]
          rw [spaced]
          refine consists_alone here (.cons rfl _) fun place fresh => ?_
          rw [ofChars_blank rfl]
          exact ih others (place.after ' ') fresh

/-- The kinds of a source without lexical errors end with the end of the file, which stands
nowhere else. -/
theorem ofSource_kinds {source : String} (whole : (ofSource source).failure = none) :
    (ofSource source).kinds = (ofSource source).words ++ [.eof] := by
  obtain ⟨front, inner, place, split⟩ := ofSource_ended whole
  have split : (ofSource source).kinds = front.map Token.kind ++ [.eof] := by
    rw [kinds, split, List.map_append]
    rfl
  have kept : (front.map Token.kind).filter (· ≠ .eof) = front.map Token.kind := by
    refine List.filter_eq_self.mpr fun kind member => ?_
    obtain ⟨token, given, rfl⟩ := List.mem_map.mp member
    exact decide_eq_true (inner token given)
  have dropped : [Kind.eof].filter (· ≠ .eof) = [] := rfl
  rw [words, split, List.filter_append, kept, dropped, List.append_nil]

/-- Reading undoes writing: the tokens of a source without lexical errors, written out with
single spaces between, are read as tokens of the same kinds, and no comment is read. -/
theorem ofSource_writing {source : String} (whole : (ofSource source).failure = none) :
    (ofSource (writing (ofSource source).words)).failure = none ∧
      (ofSource (writing (ofSource source).words)).kinds = (ofSource source).kinds ∧
      (ofSource (writing (ofSource source).words)).comments = [] := by
  have alone : ∀ kind ∈ (ofSource source).words, kind.StandsAlone := by
    intro kind member
    obtain ⟨given, inner⟩ := List.mem_filter.mp member
    exact standsAlone_of_mem .origin true source.toList kind given (of_decide_eq_true inner)
  obtain ⟨read, same, comments⟩ := consists_writing alone .origin true
  exact ⟨read, same.trans (ofSource_kinds whole).symm, comments⟩

/-- Odd exponents, a literal with an escape and one over two lines, a wide literal beside the
word it begins with, and a keyword in another spelling. -/
def oddSource : String :=
  "  # define A\n__inline L L'\\''L\"\\\n\u00e9\"1e+.5f/* c */0x1p-2+++1..2 // d"

/-- The same tokens with single spaces between. -/
def oddWriting : String :=
  "inline L L'\\'' L\"\\\n\u00e9\" 1e+.5f 0x1p-2 ++ + 1..2"

theorem ofSource_writing_oddSource :
    (ofSource oddSource).failure = none ∧ (ofSource oddSource).comments.length = 2 ∧
      (ofSource oddWriting).failure = none ∧
      (ofSource oddWriting).kinds = (ofSource oddSource).kinds ∧
      (ofSource oddWriting).comments = [] := by
  have whole : (ofSource oddSource).failure = none := by decide +kernel
  have commentCount : (ofSource oddSource).comments.length = 2 := by decide +kernel
  have written : writing (ofSource oddSource).words = oddWriting := by
    decide +kernel
  have read := ofSource_writing whole
  rw [written] at read
  exact ⟨whole, commentCount, read⟩

end Reading

end SyntaxGraph.Token
