import SyntaxGraph.Token.Kind

/-!
# Lexemes

A nonempty text is cut into lexemes: a run of blanks, a comment, a directive, or
a token.  `scan` looks at the front of the text and answers the category of the
first lexeme together with the number of characters it has after its first one,
so a lexeme is never empty and what it covers is read off the text by `take` and
`drop`.  The kind of a token is a function of its category and of the characters
covered.

Blanks are space, tab, carriage return, newline and form feed.  A directive is a
number sign with only blanks before it on its line, up to and including the
newline that no backslash precedes.
-/

set_option autoImplicit false

namespace SyntaxGraph.Token

inductive LexicalError
  | unexpectedCharacter (c : Char)
  | unterminatedComment
  | unterminatedString
  | unterminatedCharacter
deriving DecidableEq

def LexicalError.message : LexicalError → String
  | .unexpectedCharacter c => s!"Unexpected character: '{c}'"
  | .unterminatedComment => "Unterminated block comment"
  | .unterminatedString => "Unterminated string literal"
  | .unterminatedCharacter => "Unterminated character literal"

/-! ## Character classes -/

def isBlank (c : Char) : Bool :=
  c = ' ' || c = '\t' || c = '\r' || c = '\n' || c = '\x0c'

def isWordStart (c : Char) : Bool := c.isAlpha || c = '_'

def isWordPart (c : Char) : Bool := c.isAlphanum || c = '_'

/-- The two characters that enclose literals. -/
inductive Quote
  | double
  | single
deriving DecidableEq

def Quote.char : Quote → Char
  | .double => '\x22'
  | .single => '\x27'

def Quote.ofChar? (c : Char) : Option Quote :=
  if c = Quote.double.char then some .double
  else if c = Quote.single.char then some .single
  else none

def Quote.unterminated : Quote → LexicalError
  | .double => .unterminatedString
  | .single => .unterminatedCharacter

/-! ## Extents

Each function counts the characters that belong to a lexeme whose beginning has
been read. -/

/-- Up to and including the closing quote; a backslash takes the next character
with it, and neither a bare newline nor the end may come before the quote. -/
def quotedExtent (quote : Quote) : List Char → Option Nat
  | [] => none
  | '\\' :: _ :: rest => (quotedExtent quote rest).map (· + 2)
  | c :: rest =>
    if c = '\n' || c = '\\' then none
    else if c = quote.char then some 1
    else (quotedExtent quote rest).map (· + 1)

/-- The rest of a numeric constant after `last`: letters, digits, underscores,
dots, and a sign right after the exponent letter (`p` in a hexadecimal constant,
`e` otherwise). -/
def numberExtent (hex : Bool) (last : Char) : List Char → Nat
  | [] => 0
  | c :: rest =>
    let exponent :=
      if hex then last = 'p' || last = 'P' else last = 'e' || last = 'E'
    if isWordPart c || c = '.' || ((c = '+' || c = '-') && exponent) then
      numberExtent hex c rest + 1
    else 0

/-- Up to and including the end of a block comment. -/
def blockCommentExtent : List Char → Option Nat
  | [] => none
  | '*' :: '/' :: _ => some 2
  | _ :: rest => (blockCommentExtent rest).map (· + 1)

/-- Up to and including the newline that ends a directive. -/
def directiveExtent : List Char → Nat
  | [] => 0
  | '\\' :: '\n' :: rest => directiveExtent rest + 2
  | c :: rest => if c = '\n' then 1 else directiveExtent rest + 1

/-! ## Scanning -/

inductive Category
  | blanks
  | comment
  | directive
  | number
  | quoted (quote : Quote)
  | word
  | punctuator (mark : Punctuator)
deriving DecidableEq

/-- The first lexeme of a text: its category, and how many characters follow the
first one. -/
structure Lexeme where
  category : Category
  more : Nat
deriving DecidableEq

def scanQuoted (quote : Quote) (opening : Nat) (rest : List Char) :
    Except LexicalError Lexeme :=
  match quotedExtent quote rest with
  | some extent => .ok ⟨.quoted quote, opening + extent⟩
  | none => .error quote.unterminated

/-- A word, or a literal whose quote stands right behind the word `L`. -/
def scanWord (first : Char) (rest : List Char) : Except LexicalError Lexeme :=
  let extent := (rest.takeWhile isWordPart).length
  match first, rest with
  | 'L', c :: tail =>
    match Quote.ofChar? c with
    | some quote => scanQuoted quote 1 tail
    | none => .ok ⟨.word, extent⟩
  | _, _ => .ok ⟨.word, extent⟩

def scanNumber (first : Char) (rest : List Char) : Lexeme :=
  let hex := first = '0' && (rest.head? = some 'x' || rest.head? = some 'X')
  ⟨.number, numberExtent hex first rest⟩

def scanPunctuator (first : Char) (rest : List Char) : Except LexicalError Lexeme :=
  match Punctuator.longest? (first :: rest) with
  | some mark => .ok ⟨.punctuator mark, mark.spelling.length - 1⟩
  | none => .error (.unexpectedCharacter first)

/-- The first lexeme of `first :: rest`.  `fresh` says that only blanks precede
it on its line. -/
def scan (fresh : Bool) (first : Char) (rest : List Char) : Except LexicalError Lexeme :=
  if isBlank first then
    .ok ⟨.blanks, (rest.takeWhile isBlank).length⟩
  else if first = '/' && rest.head? = some '/' then
    .ok ⟨.comment, (rest.takeWhile (· ≠ '\n')).length⟩
  else if first = '/' && rest.head? = some '*' then
    match blockCommentExtent rest.tail with
    | some extent => .ok ⟨.comment, extent + 1⟩
    | none => .error .unterminatedComment
  else if first = '#' && fresh then
    .ok ⟨.directive, directiveExtent rest⟩
  else if first.isDigit || (first = '.' && rest.head?.any Char.isDigit) then
    .ok (scanNumber first rest)
  else if isWordStart first then
    scanWord first rest
  else
    match Quote.ofChar? first with
    | some quote => scanQuoted quote 0 rest
    | none => scanPunctuator first rest

/-- The kind of the token that covers `text`, for the categories that are tokens. -/
def Category.kind? (category : Category) (text : String) : Option Kind :=
  match category with
  | .blanks | .comment | .directive => none
  | .number => some (.number text)
  | .quoted .double => some (.string text)
  | .quoted .single => some (.character text)
  | .word =>
    match Keyword.ofSpelling? text with
    | some reserved => some (.keyword reserved)
    | none => some (.identifier text)
  | .punctuator mark => some (.punctuator mark)

/-- Whether only blanks precede the place behind `text` on its line, if the same
holds of the place before it when `fresh` says so. -/
def freshAfter (fresh : Bool) (text : List Char) : Bool :=
  text.foldl (fun fresh c => c = '\n' || (fresh && isBlank c)) fresh

end SyntaxGraph.Token
