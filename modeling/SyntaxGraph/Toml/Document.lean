import SyntaxGraph.Toml.Moment

/-!
# TOML documents

A document is a list of statements, each on lines of its own: a header names the
table that the entries behind it belong to, and an entry gives a value to a key.
Keys are paths, written with dots between their parts.  Values are strings, lists of
strings, tables of strings, and moments, each of which counts as a table of one entry; a
document that holds any other value is refused, since nothing here could use it.
-/

set_option autoImplicit false

namespace SyntaxGraph.Toml

inductive Value
  | text (text : String)
  | texts (texts : List String)
  | table (entries : List (String × String))
  | moment (moment : Moment)
deriving DecidableEq

/-- The entries of a table; a moment is one whose entry is the moment's written form. -/
def Value.entries? : Value → Option (List (String × String))
  | .table entries => some entries
  | .moment value => some [(Moment.key, value.text)]
  | .text _ | .texts _ => none

inductive Statement
  | header (path : List String)
  | entry (path : List String) (value : Value)
deriving DecidableEq

/-! ## Between the parts -/

def skipSpace (input : Input) : Input := input.dropWhile isSpace

/-- Blanks, line breaks and comments; `inComment` says that a comment has begun on
the line. -/
def trivia (inComment : Bool) : Input → Option Input
  | [] => some []
  | c :: rest =>
    if c = '\n' then trivia false rest
    else if c = '\r' && rest.head? = some '\n' then trivia false rest
    else if inComment then if isPlain c then trivia true rest else none
    else if isSpace c then trivia false rest
    else if c = '#' then trivia true rest
    else some (c :: rest)

/-- The end of a statement: nothing but a comment may follow on its line. -/
def lineEnd (input : Input) : Option Input :=
  let rest :=
    match skipSpace input with
    | '#' :: rest => rest.dropWhile isPlain
    | rest => rest
  match rest with
  | [] => some []
  | '\n' :: rest => some rest
  | '\r' :: '\n' :: rest => some rest
  | _ => none

/-! ## Keys -/

def key? (input : Input) : Option (String × Input) :=
  match input with
  | '\x22' :: rest => (basicBody rest).map fun (text, rest) => (String.ofList text, rest)
  | '\x27' :: rest => (literalBody rest).map fun (text, rest) => (String.ofList text, rest)
  | _ =>
    let bare := input.takeWhile isBareKey
    if bare.isEmpty then none else some (String.ofList bare, input.drop bare.length)

/-- A key of at most `bound` parts, and the spaces behind it. -/
def path? : Nat → Input → Option (List String × Input)
  | 0, _ => none
  | bound + 1, input => do
    let (part, rest) ← key? (skipSpace input)
    match skipSpace rest with
    | '.' :: rest =>
      let (parts, rest) ← path? bound rest
      return (part :: parts, rest)
    | rest => return ([part], rest)

/-! ## Values -/

/-- The items of a list behind its opening bracket, at most `bound` of them. -/
def items? : Nat → Input → Option (List String × Input)
  | 0, _ => none
  | bound + 1, input => do
    match ← trivia false input with
    | ']' :: rest => return ([], rest)
    | input =>
      let (item, rest) ← string? input
      match ← trivia false rest with
      | ',' :: rest =>
        let (items, rest) ← items? bound rest
        return (item :: items, rest)
      | rest => return ([item], ← mark ']' rest)

/-- The entries of a table in braces behind the opening one, at most `bound` of them;
there must be one. -/
def entries? : Nat → Input → Option (List (String × String) × Input)
  | 0, _ => none
  | bound + 1, input => do
    let (key, rest) ← key? (skipSpace input)
    let (value, rest) ← string? (skipSpace (← mark '=' (skipSpace rest)))
    match skipSpace rest with
    | ',' :: rest =>
      let (entries, rest) ← entries? bound rest
      return ((key, value) :: entries, rest)
    | rest => return ([(key, value)], ← mark '\x7d' rest)

def value? (input : Input) : Option (Value × Input) :=
  match input with
  | '[' :: rest => (items? (rest.length + 1) rest).map fun (items, rest) => (.texts items, rest)
  | '\x7b' :: rest =>
    match skipSpace rest with
    | '\x7d' :: rest => some (.table [], rest)
    | rest =>
      (entries? (rest.length + 1) rest).map fun (entries, rest) => (.table entries, rest)
  | first :: _ =>
    if first.isDigit then (Moment.read? input).map fun (moment, rest) => (.moment moment, rest)
    else (string? input).map fun (text, rest) => (.text text, rest)
  | [] => none

/-! ## Documents -/

/-- The statement that begins the input, which is no blank. -/
def statement? (input : Input) : Option (Statement × Input) := do
  match input with
  | '[' :: rest =>
    let (path, rest) ← path? (rest.length + 1) rest
    return (.header path, ← mark ']' rest)
  | _ =>
    let (path, rest) ← path? (input.length + 1) input
    let (value, rest) ← value? (skipSpace (← mark '=' rest))
    return (.entry path value, rest)

/-- At most `bound` statements. -/
def statements? : Nat → Input → Option (List Statement)
  | 0, _ => none
  | bound + 1, input => do
    match ← trivia false input with
    | [] => return []
    | input =>
      let (first, rest) ← statement? input
      let others ← statements? bound (← lineEnd rest)
      return first :: others

/-- The statements of a document, which may begin with a byte order mark. -/
def document? (text : String) : Option (List Statement) :=
  let input :=
    match text.toList with
    | '\ufeff' :: rest => rest
    | input => input
  statements? (input.length + 1) input

end SyntaxGraph.Toml
