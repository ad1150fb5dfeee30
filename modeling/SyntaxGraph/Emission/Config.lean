import SyntaxGraph.Text.Lowercase
import SyntaxGraph.Text.Sorted
import SyntaxGraph.Toml.Document

/-!
# Emission settings

The settings say, for each declaration name, which group it goes to and whether a
text replaces what it would be rendered as; a deleted declaration is replaced by
nothing.  A name is looked up as it stands and then in lower case; only the name is
lower-cased, never the setting.

Settings are read from a document with the keys `default_group`, `delete`, `groups`
and `replace`, the last two of which are tables.  A table may be written once as a
whole, with a header or in braces, or with a dotted key for each entry, and no key
may be given twice.
-/

set_option autoImplicit false

namespace SyntaxGraph.Emission

structure Config where
  defaultGroup : String := "other"
  groups : List (String × String) := []
  replace : List (String × String) := []
  delete : List String := []
deriving DecidableEq, Inhabited

namespace Config

/-- The entry for a name: first as it stands, then in lower case. -/
def find? (entries : List (String × String)) (name : String) : Option String :=
  entries.lookup name <|> entries.lookup (Text.lowercase name)

def groupFor (config : Config) (name : String) : String :=
  (find? config.groups name).getD config.defaultGroup

def deletes (config : Config) (name : String) : Bool :=
  config.delete.contains name || config.delete.contains (Text.lowercase name)

/-- The text that replaces a declaration; a deletion wins over a replacement. -/
def replacement? (config : Config) (name : String) : Option String :=
  if config.deletes name then some "" else find? config.replace name

/-- The deleted names, each once and in order. -/
def deletions (config : Config) : List String := Text.sortedSet config.delete

/-- Whether the settings say nothing. -/
def isDefault (config : Config) : Bool := config = {}

/-! ## Reading -/

inductive TableName
  | groups
  | replace
deriving DecidableEq

def TableName.ofKey? (key : String) : Option TableName :=
  if key = "groups" then some .groups
  else if key = "replace" then some .replace
  else none

/-- How a table has been written so far. -/
inductive TableState
  | unwritten
  | byKeys
  | whole
deriving DecidableEq

/-- A table of settings while a document is read. -/
structure Table where
  state : TableState := .unwritten
  entries : List (String × String) := []
deriving DecidableEq

namespace Table

def insert? (table : Table) (key text : String) : Option Table :=
  if (table.entries.lookup key).isSome then none
  else some { table with entries := (key, text) :: table.entries }

def insertAll? (table : Table) : List (String × String) → Option Table
  | [] => some table
  | (key, text) :: rest => do (← table.insert? key text).insertAll? rest

/-- The table, to be written as a whole. -/
def begin? (table : Table) : Option Table :=
  if table.state = .unwritten then some { table with state := .whole } else none

/-- The table, to be written by one more dotted key. -/
def extend? (table : Table) : Option Table :=
  if table.state = .whole then none else some { table with state := .byKeys }

end Table

/-- The settings while a document is read, and the table that the last header names. -/
structure Draft where
  defaultGroup : Option String := none
  delete : Option (List String) := none
  groups : Table := {}
  replace : Table := {}
  current : Option TableName := none
deriving DecidableEq

namespace Draft

def table (draft : Draft) : TableName → Table
  | .groups => draft.groups
  | .replace => draft.replace

def setTable (draft : Draft) (name : TableName) (table : Table) : Draft :=
  match name with
  | .groups => { draft with groups := table }
  | .replace => { draft with replace := table }

/-- An entry in front of all headers. -/
def topEntry? (draft : Draft) (path : List String) (value : Toml.Value) : Option Draft :=
  match path, value with
  | [key], .text text =>
    if key = "default_group" && draft.defaultGroup.isNone then
      some { draft with defaultGroup := some text }
    else none
  | [key], .texts texts =>
    if key = "delete" && draft.delete.isNone then some { draft with delete := some texts }
    else none
  | [key], value => do
    let name ← TableName.ofKey? key
    let table ← (← (draft.table name).begin?).insertAll? (← value.entries?)
    return draft.setTable name table
  | [key, entry], .text text => do
    let name ← TableName.ofKey? key
    let table ← (← (draft.table name).extend?).insert? entry text
    return draft.setTable name table
  | _, _ => none

/-- An entry behind the header of a table. -/
def tableEntry? (draft : Draft) (name : TableName) (path : List String) (value : Toml.Value) :
    Option Draft :=
  match path, value with
  | [key], .text text => do return draft.setTable name (← (draft.table name).insert? key text)
  | _, _ => none

def header? (draft : Draft) (path : List String) : Option Draft :=
  match path with
  | [key] => do
    let name ← TableName.ofKey? key
    let table ← (draft.table name).begin?
    return { draft.setTable name table with current := some name }
  | _ => none

def add? (draft : Draft) : Toml.Statement → Option Draft
  | .header path => draft.header? path
  | .entry path value =>
    match draft.current with
    | none => draft.topEntry? path value
    | some name => draft.tableEntry? name path value

def config (draft : Draft) : Config where
  defaultGroup := draft.defaultGroup.getD ({} : Config).defaultGroup
  groups := draft.groups.entries
  replace := draft.replace.entries
  delete := draft.delete.getD []

end Draft

/-- The settings that a document writes. -/
def ofToml? (text : String) : Option Config := do
  let statements ← Toml.document? text
  let draft ← statements.foldlM Draft.add? {}
  return draft.config

end Config

/-- Why settings cannot be had. -/
inductive ConfigError
  | unreadable (path : String)
  | malformed
deriving DecidableEq

def ConfigError.message? : ConfigError → Option String
  | .unreadable path => some s!"failed to read {path}: No such file or directory (os error 2)"
  | .malformed => none

def Config.ofToml (text : String) : Except ConfigError Config :=
  match Config.ofToml? text with
  | some config => .ok config
  | none => .error .malformed

end SyntaxGraph.Emission
