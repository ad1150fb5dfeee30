import SyntaxGraph.Source.Location

/-!
# Tokens of C

A token kind is a literal or an identifier with its text, a keyword, a
punctuator, or the end of the file.  Literals keep their spelling.  A keyword
may have more than one spelling and is printed with the first; a punctuator has
exactly one.  Punctuators are listed by falling length, so the first one that
begins a text is the longest that does.
-/

set_option autoImplicit false

namespace SyntaxGraph.Token

inductive Keyword
  | autoKw | boolKw | breakKw | caseKw | charKw | constKw | continueKw | defaultKw
  | doKw | doubleKw | elseKw | enumKw | externKw | floatKw | forKw | gotoKw | ifKw
  | inlineKw | intKw | longKw | offsetofKw | registerKw | restrictKw | returnKw
  | shortKw | signedKw | sizeofKw | staticKw | structKw | switchKw | typedefKw
  | unionKw | unsignedKw | vaArgKw | voidKw | volatileKw | whileKw
deriving DecidableEq

namespace Keyword

/-- Every keyword, in alphabetical order. -/
def all : List Keyword :=
  [.autoKw, .boolKw, .breakKw, .caseKw, .charKw, .constKw, .continueKw, .defaultKw,
   .doKw, .doubleKw, .elseKw, .enumKw, .externKw, .floatKw, .forKw, .gotoKw, .ifKw,
   .inlineKw, .intKw, .longKw, .offsetofKw, .registerKw, .restrictKw, .returnKw,
   .shortKw, .signedKw, .sizeofKw, .staticKw, .structKw, .switchKw, .typedefKw,
   .unionKw, .unsignedKw, .vaArgKw, .voidKw, .volatileKw, .whileKw]

/-- The spelling that printing uses. -/
def spelling : Keyword → String
  | .autoKw => "auto"
  | .boolKw => "_Bool"
  | .breakKw => "break"
  | .caseKw => "case"
  | .charKw => "char"
  | .constKw => "const"
  | .continueKw => "continue"
  | .defaultKw => "default"
  | .doKw => "do"
  | .doubleKw => "double"
  | .elseKw => "else"
  | .enumKw => "enum"
  | .externKw => "extern"
  | .floatKw => "float"
  | .forKw => "for"
  | .gotoKw => "goto"
  | .ifKw => "if"
  | .inlineKw => "inline"
  | .intKw => "int"
  | .longKw => "long"
  | .offsetofKw => "offsetof"
  | .registerKw => "register"
  | .restrictKw => "restrict"
  | .returnKw => "return"
  | .shortKw => "short"
  | .signedKw => "signed"
  | .sizeofKw => "sizeof"
  | .staticKw => "static"
  | .structKw => "struct"
  | .switchKw => "switch"
  | .typedefKw => "typedef"
  | .unionKw => "union"
  | .unsignedKw => "unsigned"
  | .vaArgKw => "va_arg"
  | .voidKw => "void"
  | .volatileKw => "volatile"
  | .whileKw => "while"

/-- Further spellings that some compilers' headers use. -/
def variants : Keyword → List String
  | .inlineKw => ["__inline", "__inline__"]
  | .restrictKw => ["__restrict"]
  | .signedKw => ["__signed__"]
  | .volatileKw => ["__volatile__"]
  | _ => []

def spellings (word : Keyword) : List String := word.spelling :: word.variants

def ofSpelling? (text : String) : Option Keyword :=
  all.find? fun word => word.spellings.contains text

end Keyword

inductive Punctuator
  | ellipsis | shlEq | shrEq | plusPlus | minusMinus | arrow | shl | shr | le | ge
  | eqEq | notEq | ampAmp | pipePipe | plusEq | minusEq | starEq | slashEq
  | percentEq | ampEq | pipeEq | caretEq | plus | minus | star | slash | percent | lt
  | gt | bang | amp | pipe | caret | tilde | eq | dot | question | colon | parenOpen
  | parenClose | braceOpen | braceClose | bracketOpen | bracketClose | semicolon
  | comma
deriving DecidableEq

namespace Punctuator

/-- Every punctuator, a longer one before a shorter one. -/
def all : List Punctuator :=
  [.ellipsis, .shlEq, .shrEq, .plusPlus, .minusMinus, .arrow, .shl, .shr, .le, .ge,
   .eqEq, .notEq, .ampAmp, .pipePipe, .plusEq, .minusEq, .starEq, .slashEq, .percentEq,
   .ampEq, .pipeEq, .caretEq, .plus, .minus, .star, .slash, .percent, .lt, .gt, .bang,
   .amp, .pipe, .caret, .tilde, .eq, .dot, .question, .colon, .parenOpen, .parenClose,
   .braceOpen, .braceClose, .bracketOpen, .bracketClose, .semicolon, .comma]

def spelling : Punctuator → String
  | .ellipsis => "..."
  | .shlEq => "<<="
  | .shrEq => ">>="
  | .plusPlus => "++"
  | .minusMinus => "--"
  | .arrow => "->"
  | .shl => "<<"
  | .shr => ">>"
  | .le => "<="
  | .ge => ">="
  | .eqEq => "=="
  | .notEq => "!="
  | .ampAmp => "&&"
  | .pipePipe => "||"
  | .plusEq => "+="
  | .minusEq => "-="
  | .starEq => "*="
  | .slashEq => "/="
  | .percentEq => "%="
  | .ampEq => "&="
  | .pipeEq => "|="
  | .caretEq => "^="
  | .plus => "+"
  | .minus => "-"
  | .star => "*"
  | .slash => "/"
  | .percent => "%"
  | .lt => "<"
  | .gt => ">"
  | .bang => "!"
  | .amp => "&"
  | .pipe => "|"
  | .caret => "^"
  | .tilde => "~"
  | .eq => "="
  | .dot => "."
  | .question => "?"
  | .colon => ":"
  | .parenOpen => "("
  | .parenClose => ")"
  | .braceOpen => "\x7b"
  | .braceClose => "\x7d"
  | .bracketOpen => "["
  | .bracketClose => "]"
  | .semicolon => ";"
  | .comma => ","

/-- The longest punctuator that begins `text`. -/
def longest? (text : List Char) : Option Punctuator :=
  all.find? fun mark => mark.spelling.toList.isPrefixOf text

end Punctuator

inductive Kind
  | number (text : String)
  | character (text : String)
  | string (text : String)
  | identifier (name : String)
  | keyword (word : Keyword)
  | punctuator (mark : Punctuator)
  | eof
deriving DecidableEq

namespace Kind

/-- The text a token of this kind is written with. -/
def spelling : Kind → String
  | .number text | .character text | .string text | .identifier text => text
  | .keyword word => word.spelling
  | .punctuator mark => mark.spelling
  | .eof => ""

/-- How a message speaks of a token of this kind. -/
def describe : Kind → String
  | .number text => s!"number {text}"
  | .character text => s!"char literal {text}"
  | .string text => s!"string literal {text}"
  | .identifier name => s!"identifier '{name}'"
  | .keyword word => s!"'{word.spelling}'"
  | .punctuator mark => s!"'{mark.spelling}'"
  | .eof => "end of file"

end Kind

end SyntaxGraph.Token

namespace SyntaxGraph

/-- A token and the places of its first character and just past its last one. -/
structure Token where
  kind : Token.Kind
  start : Location
  finish : Location
deriving DecidableEq

/-- A comment with its delimiters, and the place where it starts. -/
structure Comment where
  text : String
  start : Location
deriving DecidableEq

end SyntaxGraph
