/-!
# Strings of a TOML document

A string is written between quotes, double ones if escapes are to be read in it and
single ones if not, and between three of them if it may go over several lines.  A
newline right behind three opening quotes is not part of the string, a line break
of two characters counts as one newline, and up to two quotes may stand right in
front of the closing ones.  In a string of several lines a backslash at the end of
a line takes the line break with it and all white space up to the next text.

Readers take the characters that are left and answer what they have read together
with what is left then, or nothing if the document is not well formed there.
-/

set_option autoImplicit false

namespace SyntaxGraph.Toml

/-- The characters left to read. -/
abbrev Input := List Char

/-! ## Characters -/

def isSpace (c : Char) : Bool := c = ' ' || c = '\t'

/-- The characters that may stand in a comment or a string as they are: all but
control characters, of which only the tab is allowed. -/
def isPlain (c : Char) : Bool := c = '\t' || (' ' ≤ c && c ≠ '\x7f')

def isBareKey (c : Char) : Bool := c.isAlphanum || c = '_' || c = '-'

def hexValue? (c : Char) : Option Nat :=
  if c.isDigit then some (c.toNat - '0'.toNat)
  else if 'a' ≤ c && c ≤ 'f' then some (c.toNat - 'a'.toNat + 10)
  else if 'A' ≤ c && c ≤ 'F' then some (c.toNat - 'A'.toNat + 10)
  else none

/-- The character whose code point the first `count` characters write. -/
def codePoint? (count : Nat) (input : Input) : Option Char := do
  let digits ← (input.take count).mapM hexValue?
  let value := digits.foldl (fun value digit => 16 * value + digit) 0
  if digits.length = count ∧ value.isValidChar then some (Char.ofNat value) else none

/-- The character that is written behind a backslash, and how many characters
write it. -/
def escape? (input : Input) : Option (Char × Nat) :=
  match input with
  | [] => none
  | c :: rest =>
    if c = 'b' then some ('\x08', 1)
    else if c = 't' then some ('\t', 1)
    else if c = 'n' then some ('\n', 1)
    else if c = 'f' then some ('\x0c', 1)
    else if c = 'r' then some ('\r', 1)
    else if c = '\x22' || c = '\\' then some (c, 1)
    else if c = 'u' then (codePoint? 4 rest).map (·, 5)
    else if c = 'U' then (codePoint? 8 rest).map (·, 9)
    else none

/-- The given character. -/
def mark (c : Char) : Input → Option Input
  | [] => none
  | first :: rest => if first = c then some rest else none

/-! ## Bodies -/

def prepend (c : Char) (result : Option (List Char × Input)) : Option (List Char × Input) :=
  result.map fun (text, rest) => (c :: text, rest)

/-- Behind one double quote. -/
def basicBody : Input → Option (List Char × Input)
  | [] => none
  | c :: rest =>
    if c = '\x22' then some ([], rest)
    else if c = '\\' then
      match escape? rest with
      | some (escaped, length) => prepend escaped (basicBody (rest.drop length))
      | none => none
    else if isPlain c then prepend c (basicBody rest)
    else none
termination_by input => input.length
decreasing_by all_goals simp only [List.length_drop, List.length_cons]; omega

/-- Behind one single quote. -/
def literalBody : Input → Option (List Char × Input)
  | [] => none
  | c :: rest =>
    if c = '\x27' then some ([], rest)
    else if isPlain c then prepend c (literalBody rest)
    else none

/-- At three or more quotes: the quotes in front of the last three of the first five,
and what is left behind those. -/
def closing? (quote : Char) (input : Input) : Option (List Char × Input) :=
  let run := (input.takeWhile (· = quote)).length
  let extra := min (run - 3) 2
  if run < 3 then none else some (List.replicate extra quote, input.drop (extra + 3))

/-- Whether nothing but spaces stands before the next line break. -/
def endsLine (input : Input) : Bool :=
  match input.dropWhile isSpace with
  | '\n' :: _ => true
  | '\r' :: '\n' :: _ => true
  | _ => false

/-- Behind three double quotes; `skipping` says that white space is passed over. -/
def basicLines (skipping : Bool) : Input → Option (List Char × Input)
  | [] => none
  | c :: rest =>
    if skipping && (isSpace c || c = '\n' || (c = '\r' && rest.head? = some '\n')) then
      basicLines true rest
    else match closing? '\x22' (c :: rest) with
    | some closed => some closed
    | none =>
      if c = '\\' then
        if endsLine rest then basicLines true rest
        else match escape? rest with
          | some (escaped, length) => prepend escaped (basicLines false (rest.drop length))
          | none => none
      else if c = '\r' && rest.head? = some '\n' then basicLines false rest
      else if c = '\n' || isPlain c then prepend c (basicLines false rest)
      else none
termination_by input => input.length
decreasing_by all_goals simp only [List.length_drop, List.length_cons]; omega

/-- Behind three single quotes. -/
def literalLines : Input → Option (List Char × Input)
  | [] => none
  | c :: rest =>
    match closing? '\x27' (c :: rest) with
    | some closed => some closed
    | none =>
      if c = '\r' && rest.head? = some '\n' then literalLines rest
      else if c = '\n' || isPlain c then prepend c (literalLines rest)
      else none

/-- What follows without a line break at its front. -/
def dropLineBreak : Input → Input
  | '\n' :: rest => rest
  | '\r' :: '\n' :: rest => rest
  | input => input

/-- A string in any of its four notations. -/
def string? (input : Input) : Option (String × Input) :=
  let body :=
    match input with
    | '\x22' :: '\x22' :: '\x22' :: rest => basicLines false (dropLineBreak rest)
    | '\x27' :: '\x27' :: '\x27' :: rest => literalLines (dropLineBreak rest)
    | '\x22' :: rest => basicBody rest
    | '\x27' :: rest => literalBody rest
    | _ => none
  body.map fun (text, rest) => (String.ofList text, rest)

end SyntaxGraph.Toml
