/-!
# Places in a source text

A location is a line and a column, both counted from one; columns count
characters.  Reading a newline moves to the first column of the next line, any
other character moves one column on, so the location behind a run of text is a
fold over its characters.  Locations are ordered by line and then by column,
which is the order of reading.  A span is the half-open range between two
locations.
-/

set_option autoImplicit false

namespace SyntaxGraph

structure Location where
  line : Nat
  column : Nat
deriving DecidableEq, Inhabited

namespace Location

/-- The place of the first character of a text. -/
def origin : Location := ⟨1, 1⟩

/-- The place behind one character read at `place`. -/
def after (place : Location) (c : Char) : Location :=
  if c = '\n' then ⟨place.line + 1, 1⟩ else ⟨place.line, place.column + 1⟩

/-- The place behind a run of characters that starts at `place`. -/
def past (place : Location) (text : List Char) : Location :=
  text.foldl after place

instance : LT Location where
  lt a b := a.line < b.line ∨ a.line = b.line ∧ a.column < b.column

instance : LE Location where
  le a b := a.line < b.line ∨ a.line = b.line ∧ a.column ≤ b.column

instance (a b : Location) : Decidable (a < b) :=
  inferInstanceAs (Decidable (a.line < b.line ∨ a.line = b.line ∧ a.column < b.column))

instance (a b : Location) : Decidable (a ≤ b) :=
  inferInstanceAs (Decidable (a.line < b.line ∨ a.line = b.line ∧ a.column ≤ b.column))

instance : Min Location where
  min a b := if a ≤ b then a else b

instance : Max Location where
  max a b := if a ≤ b then b else a

/-- `line:column`. -/
def render (place : Location) : String := s!"{place.line}:{place.column}"

theorem past_nil (place : Location) : place.past [] = place := rfl

theorem past_cons (place : Location) (c : Char) (text : List Char) :
    place.past (c :: text) = (place.after c).past text := rfl

theorem past_append (place : Location) (first second : List Char) :
    place.past (first ++ second) = (place.past first).past second :=
  List.foldl_append

end Location

/-- The half-open range from `start` to just past the last character covered. -/
structure Span where
  start : Location
  finish : Location
deriving DecidableEq, Inhabited

namespace Span

/-- The empty span at one place. -/
def point (place : Location) : Span := ⟨place, place⟩

/-- The smallest span that covers both. -/
def join (a b : Span) : Span := ⟨min a.start b.start, max a.finish b.finish⟩

/-- `start-finish`, each as `line:column`. -/
def render (s : Span) : String := s!"{s.start.render}-{s.finish.render}"

end Span

end SyntaxGraph
