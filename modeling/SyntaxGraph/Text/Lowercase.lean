import SyntaxGraph.Text.Case
import SyntaxGraph.Text.Range

/-!
# Lower case

The lower-case form of a text is taken character by character.  Two characters need
more than the table.  The capital I with a dot becomes two characters.  The capital
sigma becomes the final form at the end of a word and the medial form elsewhere; it
ends a word if a cased letter stands before it and none behind it, where characters
that case ignores are passed over on both sides.
-/

set_option autoImplicit false

namespace SyntaxGraph.Text

/-- Whether the first character that case does not ignore is a cased letter. -/
def meetsCased : List Char → Bool
  | [] => false
  | c :: rest =>
    if inRanges Case.caseIgnorable c then meetsCased rest else inRanges Case.cased c

/-- The lower-case form of one character where no context counts. -/
def lowerChar (c : Char) : Char :=
  if c.toNat < 128 then c.toLower
  else
    let run? := Case.lowerRuns.find? fun (first, last, step, _) =>
      first ≤ c.toNat && c.toNat ≤ last && (c.toNat - first) % step = 0
    match run? with
    | some (first, _, _, lower) => Char.ofNat (lower + (c.toNat - first))
    | none => c

/-- The lower-case form of the characters `rest`, which follow the characters
`before`, given last first. -/
def lowerFrom (before : List Char) : List Char → List Char
  | [] => []
  | c :: rest =>
    let lower :=
      if c = 'Σ' then [if meetsCased before && !meetsCased rest then 'ς' else 'σ']
      else if c = 'İ' then ['i', '\u0307']
      else [lowerChar c]
    lower ++ lowerFrom (c :: before) rest

def lowercase (text : String) : String := String.ofList (lowerFrom [] text.toList)

end SyntaxGraph.Text
